import LogTopology.ByteSize
import LogTopology.Document.Value
import LogTopology.Level
import LogTopology.Text.Quoted
/-!
# Decoding values

What a field has to hold is said by a decoder: a function from a value to what it means, or to a
mismatch that tells what was found and what was expected. A date decodes like the text that it is
written as.
-/

namespace LogTopology.Document

/-- Why a value does not decode. -/
inductive Mismatch where
  /-- The value is of another kind than the expected one. -/
  | kind (found : Value) (expected : String)
  /-- The integer does not fit into the expected range. -/
  | range (n : Int) (expected : String)
  /-- The text is none of the expected names. -/
  | variant (text : String) (expected : List String)
  /-- A choice between names was expected where the value can hold none. -/
  | noVariant
  /-- The text is no byte count. -/
  | size (fault : ByteSize.Fault)
  /-- A table that should name one choice names none or several, or says more than the name. -/
  | choice (complaint : String)

namespace Value

/-- How a message describes a value. -/
def describe : Value → String
  | text s => "string " ++ Text.quote s
  | integer n => s!"integer `{n}`"
  | float x => s!"floating point `{x.toPositional}`"
  | boolean b => s!"boolean `{b}`"
  | datetime d => "string " ++ Text.quote d.toText
  | array _ => "sequence"
  | table _ => "map"

/-- The name of a value's kind. -/
def kindName : Value → String
  | text _ => "string"
  | integer _ => "integer"
  | float _ => "float"
  | boolean _ => "boolean"
  | datetime _ => "datetime"
  | array _ => "array"
  | table _ => "table"

end Value

/-- The message of a mismatch; it ends its line. -/
def Mismatch.message : Mismatch → String
  | kind found expected => s!"invalid type: {found.describe}, expected {expected}\n"
  | range n expected => s!"invalid value: integer `{n}`, expected {expected}\n"
  | variant text expected =>
    let names := String.intercalate ", " (expected.map fun n => s!"`{n}`")
    s!"unknown variant `{text}`, expected one of {names}\n"
  | noVariant => "invalid type: unit variant, expected string only\n"
  | size fault => fault.message ++ "\n"
  | choice complaint => complaint ++ "\n"

/-- What a field has to hold. -/
abbrev Decoder (α : Type) := Value → Except Mismatch α

namespace Decoder

/-- A text, or the text of a date. -/
def string : Decoder String
  | .text s => .ok s
  | .datetime d => .ok d.toText
  | v => .error (.kind v "a string")

/-- A truth value. -/
def flag : Decoder Bool
  | .boolean b => .ok b
  | v => .error (.kind v "a boolean")

/-- An integer of a range with a name. -/
def integer (name : String) (low high : Int) : Decoder Int
  | .integer n => if low ≤ n && n ≤ high then .ok n else .error (.range n name)
  | v => .error (.kind v name)

/-- A natural number below a limit. -/
def natural (name : String) (limit : Nat) : Decoder Nat :=
  fun v => (integer name 0 (limit - 1) v).map Int.toNat

/-- A small natural number. -/
def unsigned8 : Decoder Nat := natural "u8" UInt8.size

/-- A natural number of 32 bits. -/
def unsigned32 : Decoder Nat := natural "u32" UInt32.size

/-- A natural number of 64 bits. -/
def unsigned64 : Decoder Nat := natural "u64" UInt64.size

/-- A count of things in memory. -/
def count : Decoder Nat := natural "usize" UInt64.size

/-- An integer of 32 bits. -/
def signed32 : Decoder Int := integer "i32" (-2147483648) 2147483647

/-- An integer of 64 bits. -/
def signed64 : Decoder Int := integer "i64" (-9223372036854775808) 9223372036854775807

/-- A list of texts. -/
def strings : Decoder (List String)
  | .array items => items.mapM string
  | v => .error (.kind v "a sequence")

/-- A byte count, written as a text. -/
def byteSize : Decoder ByteSize := fun v => do
  match ByteSize.parse (← string v) with
  | .ok b => return b
  | .error fault => throw (.size fault)

/-- The level of a name. -/
def levelOf (name : String) : Except Mismatch Level :=
  match Level.ofName? name with
  | some l => .ok l
  | none => .error (.variant name (Level.all.map Level.name))

/-- A level: its name, or a table with the name as its only key and nothing in it. -/
def level : Decoder Level
  | .text s => levelOf s
  | .table [] => .error (.choice "wanted exactly 1 element, found 0 elements")
  | .table [(name, v)] => do
    let l ← levelOf name
    match v with
    | .array [] => return l
    | .array _ => throw (.choice "expected empty array")
    | .table [] => return l
    | .table _ => throw (.choice "expected empty table")
    | v => throw (.choice s!"expected table, found {v.kindName}")
  | .table _ => .error (.choice "wanted exactly 1 element, more than 1 element")
  | _ => .error .noVariant

end Decoder

end LogTopology.Document
