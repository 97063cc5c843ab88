import LogTopology.Text.CodePoint
/-!
# Texts in documents

A text stands between single or double quotes, or between three of them when it spans lines. Double
quotes allow escapes. Reading goes character by character, with a mode that remembers what the
characters before were about.
-/

namespace LogTopology.Document

open Text (hexValue? scalar?)

/-- The form of a quoted text. -/
structure TextForm where
  quote : Char
  escapes : Bool
  lines : Bool

/-- What the characters just read ask of the next one. -/
inductive TextMode where
  | plain
  /-- After a backslash. -/
  | escape
  /-- Within a numeric escape: how many digits are missing and the number so far. -/
  | digits (missing : Nat) (number : Nat)
  /-- After a carriage return, which a line feed has to follow. -/
  | carriage
  /-- After this many quotes in a row. -/
  | quotes (count : Nat)
  /-- After a backslash and blanks, before the end of the line. -/
  | gap
  /-- After a carriage return in a gap. -/
  | gapCarriage
  /-- After a backslash at the end of a line, where blanks and line ends are skipped. -/
  | skip
  /-- After a carriage return among skipped blanks. -/
  | skipCarriage

/-- A character that may not stand in a text. -/
def isControl (c : Char) : Bool :=
  (c.toNat < 0x20 && c ≠ '\t') || c.toNat = 0x7F

/-- The character that a one-letter escape stands for. -/
def escaped? (c : Char) : Option Char :=
  if c = 'b' then some '\x08'
  else if c = 't' then some '\t'
  else if c = 'n' then some '\n'
  else if c = 'f' then some '\x0c'
  else if c = 'r' then some '\r'
  else if c = '"' then some '"'
  else if c = '\\' then some '\\'
  else none

namespace TextForm

/-- What a character adds to the text when nothing special comes before it, and the next mode. -/
def plainStep? (f : TextForm) (c : Char) : Option (List Char × TextMode) :=
  if c = f.quote then some ([], .quotes 1)
  else if c = '\\' && f.escapes then some ([], .escape)
  else if c = '\n' && f.lines then some (['\n'], .plain)
  else if c = '\r' && f.lines then some ([], .carriage)
  else if isControl c then none
  else some ([c], .plain)

/-- The same after a backslash. -/
def escapeStep? (f : TextForm) (c : Char) : Option (List Char × TextMode) :=
  if c = 'u' then some ([], .digits 4 0)
  else if c = 'U' then some ([], .digits 8 0)
  else if (c = ' ' || c = '\t') && f.lines then some ([], .gap)
  else if c = '\n' && f.lines then some ([], .skip)
  else if c = '\r' && f.lines then some ([], .gapCarriage)
  else (escaped? c).map fun d => ([d], .plain)

/-- One character of the text: what it adds and the next mode. -/
def step? (f : TextForm) (mode : TextMode) (c : Char) : Option (List Char × TextMode) :=
  match mode with
  | .plain => f.plainStep? c
  | .escape => f.escapeStep? c
  | .digits missing number =>
    (hexValue? c).bind fun d =>
      if missing ≤ 1 then (scalar? (16 * number + d)).map fun c => ([c], .plain)
      else some ([], .digits (missing - 1) (16 * number + d))
  | .carriage => if c = '\n' then some (['\r', '\n'], .plain) else none
  | .gapCarriage => if c = '\n' then some ([], .skip) else none
  | .skipCarriage => if c = '\n' then some ([], .skip) else none
  | .gap =>
    if c = ' ' || c = '\t' then some ([], .gap)
    else if c = '\n' then some ([], .skip)
    else if c = '\r' then some ([], .gapCarriage)
    else none
  | .skip =>
    if c = ' ' || c = '\t' || c = '\n' then some ([], .skip)
    else if c = '\r' then some ([], .skipCarriage)
    else f.plainStep? c
  | .quotes count =>
    if c = f.quote then some ([], .quotes (count + 1))
    else (f.plainStep? c).map fun r => (List.replicate count f.quote ++ r.1, r.2)

/-- Whether a run of quotes ends the text before the given character. One quote ends a text of one
line; three end a text of several lines, and two more may stand right before them. -/
def endsAfter (f : TextForm) (count : Nat) (next : Option Char) : Bool :=
  if f.lines then count = 5 || (3 ≤ count && next ≠ some f.quote) else true

/-- Reads a text from behind its opening quotes; `acc` holds what was read, backwards. -/
def scan? (f : TextForm) (mode : TextMode) (acc : List Char) :
    List Char → Option (String × List Char)
  | [] =>
    match mode with
    | .quotes count =>
      if f.endsAfter count none then
        some (String.ofList (List.replicate (count - 3) f.quote ++ acc).reverse, [])
      else none
    | _ => none
  | c :: cs =>
    let done : Option (String × List Char) :=
      match mode with
      | .quotes count =>
        if f.endsAfter count (some c) then
          some (String.ofList (List.replicate (count - 3) f.quote ++ acc).reverse, c :: cs)
        else none
      | _ => none
    match done with
    | some r => some r
    | none =>
      match f.step? mode c with
      | some (added, mode) => f.scan? mode (added.reverse ++ acc) cs
      | none => none

end TextForm

/-- Reads a text of one line. -/
def readLineText? : List Char → Option (String × List Char)
  | '"' :: cs => TextForm.scan? ⟨'"', true, false⟩ .plain [] cs
  | '\'' :: cs => TextForm.scan? ⟨'\'', false, false⟩ .plain [] cs
  | _ => none

/-- Drops the line end that a text of several lines may start with. -/
def dropFirstLineEnd : List Char → List Char
  | '\n' :: cs => cs
  | '\r' :: '\n' :: cs => cs
  | cs => cs

/-- Reads a text of either form. -/
def readText? : List Char → Option (String × List Char)
  | '"' :: '"' :: '"' :: cs => TextForm.scan? ⟨'"', true, true⟩ .plain [] (dropFirstLineEnd cs)
  | '\'' :: '\'' :: '\'' :: cs => TextForm.scan? ⟨'\'', false, true⟩ .plain [] (dropFirstLineEnd cs)
  | cs => readLineText? cs

end LogTopology.Document
