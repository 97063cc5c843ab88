/-!
# Bytes of texts

Texts as the bytes that encode them, and the way back. Reading goes byte by byte; bytes that are no
encoding of a character are found where they end, and show as the replacement character when a text
is wanted all the same.
-/

namespace LogTopology.Text

/-- A run of bytes. -/
abbrev Bytes := List UInt8

/-- The bytes that encode characters. -/
def encode (cs : List Char) : Bytes :=
  cs.flatMap String.utf8EncodeChar

/-- A character of which some bytes are still missing: how many, between which bounds the next one
has to lie, and the number that the bytes so far make up. -/
structure Partial where
  missing : Nat
  low : Nat
  high : Nat
  number : Nat

/-- What the first byte of a character says: the character itself, the bytes that are missing, or
nothing when no character starts with the byte. -/
def lead? (b : Nat) : Option (Char ⊕ Partial) :=
  if b < 0x80 then some (.inl (Char.ofNat b))
  else if b < 0xC2 then none
  else if b < 0xE0 then some (.inr ⟨1, 0x80, 0xBF, b % 0x20⟩)
  else if b = 0xE0 then some (.inr ⟨2, 0xA0, 0xBF, 0⟩)
  else if b = 0xED then some (.inr ⟨2, 0x80, 0x9F, 0xD⟩)
  else if b < 0xF0 then some (.inr ⟨2, 0x80, 0xBF, b % 0x10⟩)
  else if b = 0xF0 then some (.inr ⟨3, 0x90, 0xBF, 0⟩)
  else if b < 0xF4 then some (.inr ⟨3, 0x80, 0xBF, b % 8⟩)
  else if b = 0xF4 then some (.inr ⟨3, 0x80, 0x8F, 4⟩)
  else none

/-- Reads bytes into characters; nothing stands for bytes that are none. -/
def scan : Option Partial → Bytes → List (Option Char)
  | none, [] => []
  | some _, [] => [none]
  | pending, b :: bs =>
    let b := b.toNat
    let fresh : List (Option Char) :=
      match lead? b with
      | some (.inl c) => some c :: scan none bs
      | some (.inr p) => scan (some p) bs
      | none => none :: scan none bs
    match pending with
    | none => fresh
    | some p =>
      if p.low ≤ b && b ≤ p.high then
        let number := 0x40 * p.number + b % 0x40
        if p.missing = 1 then some (Char.ofNat number) :: scan none bs
        else scan (some ⟨p.missing - 1, 0x80, 0xBF, number⟩) bs
      else none :: fresh

/-- The text that bytes encode, if they encode one. -/
def decode? (bs : Bytes) : Option String :=
  ((scan none bs).mapM id).map String.ofList

/-- The text that bytes encode, with replacement characters for what encodes nothing. -/
def decodeLossy (bs : Bytes) : String :=
  String.ofList ((scan none bs).map fun c => c.getD '\ufffd')

end LogTopology.Text
