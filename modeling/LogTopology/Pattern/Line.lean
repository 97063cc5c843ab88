import LogTopology.Calendar.Text
import LogTopology.Record
import LogTopology.SetupError
/-!
# Patterns and the lines they make

A pattern says how a record becomes a line: characters stand for themselves, a percent sign with a
flag stands for a part of the record, and two flags mark where a range to be coloured starts and
ends. A pattern is compiled once, and characters between two flags are gathered into one literal
text; a line ends with a newline, which is never part of the range.
-/

namespace LogTopology

/-- A part of a record that a pattern may ask for. -/
inductive Flag where
  | payload
  | logger
  | level
  | letter
  | thread
  | process
  | year
  | month
  | day
  | hour
  | minute
  | second
  | offset
  | clock
  | date
  | stamp
  | millis
  | micros
  deriving DecidableEq, Repr

/-- A part of a compiled pattern. -/
inductive Token where
  | literal (text : List Char)
  | part (flag : Flag)
  | colourStart
  | colourEnd
  deriving DecidableEq, Repr

namespace Flag

/-- The flag of a character. -/
def ofChar? (c : Char) : Option Flag :=
  match c with
  | 'v' => some payload
  | 'n' => some logger
  | 'l' => some level
  | 'L' => some letter
  | 't' => some thread
  | 'P' => some process
  | 'Y' => some year
  | 'm' => some month
  | 'd' => some day
  | 'H' => some hour
  | 'M' => some minute
  | 'S' => some second
  | 'z' => some offset
  | 'T' => some clock
  | 'D' => some date
  | 'c' => some stamp
  | 'e' => some millis
  | 'f' => some micros
  | _ => none

/-- The text of a part of a record, in the process of the given number. -/
def text (process : Nat) (r : Record) (f : Flag) : List Char :=
  let t := r.time.wall
  match f with
  | payload => r.payload.toList
  | logger => r.logger.toList
  | level => r.level.name.toList
  | letter => [r.level.letter]
  | thread => Nat.toDigits 10 r.thread
  | .process => Nat.toDigits 10 process
  | year => Calendar.yearText t.date.year
  | month => Decimal.padded 2 t.date.month
  | day => Decimal.padded 2 t.date.day
  | hour => Decimal.padded 2 t.hour
  | minute => Decimal.padded 2 t.minute
  | second => Decimal.padded 2 t.shownSecond
  | offset => Calendar.offsetText r.time.offset
  | clock => t.clockText
  | date => t.dateText
  | stamp => t.stampText
  | millis => Decimal.padded 3 (t.nano / 1000000 % 1000)
  | micros => Decimal.padded 6 (t.nano / 1000 % 1000000)

end Flag

/-- The token of a percent sign with a flag after it. -/
def Token.ofChar? (c : Char) : Option Token :=
  if c = '^' then some .colourStart
  else if c = '$' then some .colourEnd
  else (Flag.ofChar? c).map .part

/-- A line and the range of its bytes that is to be coloured. -/
structure Line where
  text : List Char
  colour : Option (Nat × Nat)
  deriving DecidableEq, Repr

/-- The number of bytes that characters take. -/
def byteLength : List Char → Nat
  | [] => 0
  | c :: cs => c.utf8Size + byteLength cs

/-- A pattern and its tokens. -/
structure Pattern where
  source : String
  tokens : List Token
  deriving DecidableEq, Repr

namespace Pattern

/-- Puts the literal text that was gathered behind the tokens, if there is any. -/
def settle (tokens : List Token) (literal : List Char) : List Token :=
  if literal.isEmpty then tokens else tokens ++ [.literal literal]

/-- Takes the characters of a pattern apart, with the tokens so far and the literal text that is
being gathered; `source` is the whole pattern, for the errors. -/
def tokenize (source : String) (tokens : List Token) (literal : List Char) :
    List Char → Setup (List Token)
  | [] => .ok (settle tokens literal)
  | ['%'] => .error (.danglingFlag source)
  | '%' :: '%' :: cs => tokenize source tokens (literal ++ ['%']) cs
  | '%' :: c :: cs =>
    match Token.ofChar? c with
    | some t => tokenize source (settle tokens literal ++ [t]) [] cs
    | none => .error (.unknownFlag c source)
  | c :: cs => tokenize source tokens (literal ++ [c]) cs

/-- Compiles a pattern. -/
def compile (source : String) : Setup Pattern :=
  (tokenize source [] [] source.toList).map fun ts => ⟨source, ts⟩

/-- The pattern of loggers that have been given none. -/
def standard : Pattern :=
  let source := "[%Y-%m-%d %H:%M:%S.%e] [%n] [%^%l%$] %v"
  ⟨source, (tokenize source [] [] source.toList).toOption.getD []⟩

/-- A line in the making: its text, and the bytes at which the last start and the last end of the
coloured range stand. -/
structure Draft where
  text : List Char
  start : Option Nat
  stop : Option Nat

/-- Adds what a token stands for. -/
def Draft.add (process : Nat) (r : Record) (d : Draft) : Token → Draft
  | .literal text => { d with text := d.text ++ text }
  | .part f => { d with text := d.text ++ f.text process r }
  | .colourStart => { d with start := some (byteLength d.text) }
  | .colourEnd => { d with stop := some (byteLength d.text) }

/-- The range to be coloured. An end before the start does not count, and a range without an end
reaches to the end of the text. -/
def Draft.colour (d : Draft) : Option (Nat × Nat) :=
  d.start.map fun start =>
    (start, (d.stop.filter (start ≤ ·)).getD (byteLength d.text))

/-- The line of a record. -/
def format (process : Nat) (p : Pattern) (r : Record) : Line :=
  let d := p.tokens.foldl (Draft.add process r) ⟨[], none, none⟩
  ⟨d.text ++ ['\n'], d.colour⟩

end Pattern

end LogTopology
