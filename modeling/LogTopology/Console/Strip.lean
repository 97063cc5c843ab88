/-!
# Stripping escape sequences

What a stream that is no terminal gets of a text: characters that show, and blanks. Escape sequences
go, and so do all other control characters. A sequence starts with an escape and is followed through
to its end; a blank that stands within one is written all the same.
-/

namespace LogTopology.Console

/-- Where in an escape sequence a text stands. -/
inductive Mode where
  /-- In none. -/
  | ground
  /-- After an escape. -/
  | escape
  /-- In a sequence of an escape, intermediate characters and a final one. -/
  | intermediate
  /-- In a control sequence. -/
  | control
  /-- At the start of a device string, among its parameters, and among its intermediates. -/
  | deviceEntry
  | deviceParameter
  | deviceIntermediate
  /-- In the body of a device string. -/
  | deviceBody
  /-- In a string that ends with a string terminator only. -/
  | string
  /-- In a command to the operating system, which a bell ends too. -/
  | command
  deriving DecidableEq, Repr

/-- A blank that is written although it is a control character. -/
def isWritten (c : Char) : Bool :=
  c = '\t' || c = '\n' || c = '\x0c' || c = '\r'

/-- Whether the bytes of a character have the one that terminates strings among them. -/
def hasTerminator (c : Char) : Bool :=
  (String.utf8EncodeChar c).contains 0x9C

/-- The mode after an escape and the character of the given number. -/
def afterEscape (n : Nat) : Mode :=
  if n < 0x30 then .intermediate
  else if n = 0x50 then .deviceEntry
  else if n = 0x58 || n = 0x5E || n = 0x5F then .string
  else if n = 0x5B then .control
  else if n = 0x5D then .command
  else .ground

/-- The mode after a character at the front of a device string, whose parameters start below
`limit`. -/
def afterDevice (limit n : Nat) : Mode :=
  if n < 0x30 then .deviceIntermediate
  else if n < limit then .deviceParameter
  else .deviceBody

/-- What a character below `0x80` does in a mode: the next mode if it changes, and whether the
character is written. -/
def stepLow (m : Mode) (c : Char) : Option Mode × Bool :=
  let n := c.toNat
  if n = 0x18 || n = 0x1A then (some .ground, false)
  else if n = 0x1B then (some .escape, false)
  else
    match m with
    | .ground => (none, isWritten c || (0x20 ≤ n && n < 0x7F))
    | .escape =>
      if n = 0x7F then (none, false)
      else if n < 0x20 then (none, isWritten c)
      else (some (afterEscape n), false)
    | .intermediate =>
      if n < 0x20 then (none, isWritten c)
      else if n < 0x30 || n = 0x7F then (none, false)
      else (some .ground, false)
    | .control =>
      if n < 0x20 then (none, isWritten c)
      else if n < 0x40 || n = 0x7F then (none, false)
      else (some .ground, false)
    | .deviceEntry =>
      if n < 0x20 || n = 0x7F then (none, false) else (some (afterDevice 0x40 n), false)
    | .deviceParameter =>
      if n < 0x20 || n = 0x7F then (none, false) else (some (afterDevice 0x3C n), false)
    | .deviceIntermediate =>
      if n < 0x30 || n = 0x7F then (none, false) else (some .deviceBody, false)
    | .deviceBody => (none, false)
    | .string => (none, false)
    | .command => if n = 0x07 then (some .ground, false) else (none, false)

/-- What a character does in a mode. Characters from `0x80` on are written outside of sequences;
inside of strings one of their bytes may be the terminator. -/
def step (m : Mode) (c : Char) : Option Mode × Bool :=
  if c.toNat < 0x80 then stepLow m c
  else
    match m with
    | .ground => (some .ground, true)
    | .deviceBody => (if hasTerminator c then some .ground else none, false)
    | .string => (if hasTerminator c then some .ground else none, false)
    | _ => (none, false)

/-- Strips a run of characters. While characters are being written, the next one is judged as if
outside of sequences; the first one that is not written then falls back to the mode. -/
def strip (writing : Bool) (m : Mode) : List Char → List Char × Mode
  | [] => ([], m)
  | c :: cs =>
    let (next, written) := step (if writing then .ground else m) c
    let m := next.getD m
    if written then
      let (rest, m) := strip true m cs
      (c :: rest, m)
    else if writing then strip false ((step m c).1.getD m) cs
    else strip false m cs

/-- Strips pieces of text that are written one after the other. -/
def stripAll (m : Mode) : List (List Char) → List Char
  | [] => []
  | piece :: pieces =>
    let (kept, m) := strip false m piece
    kept ++ stripAll m pieces

end LogTopology.Console
