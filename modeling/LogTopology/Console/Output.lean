import LogTopology.Console.Strip
import LogTopology.Pattern.Line
/-!
# Lines on a console

How a line is written to a stream of the console. A coloured sink marks the range of the line that
its pattern names, in the style of the record's level, when colours are wanted; in every other case
the stream gets the line without escape sequences.
-/

namespace LogTopology.Console

/-- A stream of the console. -/
inductive Stream where
  | out
  | err
  deriving DecidableEq, Repr

/-- Whether colours are wanted. With `auto` a stream has to be a terminal, and none is. -/
inductive ColourChoice where
  | auto
  | always
  | alwaysAnsi
  | never
  deriving DecidableEq, Repr

/-- Whether a choice asks for colours on streams that are no terminals. -/
def ColourChoice.wanted (c : ColourChoice) : Bool :=
  c = always || c = alwaysAnsi

/-- The escape sequence that selects a colour or a weight. -/
def selection (code : List Char) : List Char :=
  '\x1b' :: '[' :: code ++ ['m']

/-- The style of a level. -/
def style : Level → List Char
  | .trace => selection ['3', '7']
  | .debug => selection ['3', '6']
  | .info => selection ['3', '2']
  | .warn => selection ['1'] ++ selection ['3', '3']
  | .err => selection ['1'] ++ selection ['3', '1']
  | .critical => selection ['1'] ++ selection ['4', '1']
  | .off => []

/-- What ends the style of a level. -/
def unstyle (l : Level) : List Char :=
  if l = .off then [] else selection ['0']

/-- Splits characters after a number of bytes. -/
def splitBytes (n : Nat) : List Char → List Char × List Char
  | [] => ([], [])
  | c :: cs =>
    if n = 0 then ([], c :: cs)
    else
      let (before, after) := splitBytes (n - c.utf8Size) cs
      (c :: before, after)

/-- The pieces that a sink hands to the stream, one after the other. -/
def pieces (coloured : Bool) (level : Level) (line : Line) : List (List Char) :=
  match line.colour, coloured with
  | some (start, stop), true =>
    let (before, rest) := splitBytes start line.text
    let (inside, after) := splitBytes (stop - start) rest
    [before, style level, inside, unstyle level, after]
  | _, _ => [line.text]

/-- What a sink's line comes to on the stream. -/
def written (coloured : Bool) (choice : ColourChoice) (level : Level) (line : Line) : List Char :=
  let parts := pieces coloured level line
  if coloured && choice.wanted then parts.flatten else stripAll .ground parts

end LogTopology.Console
