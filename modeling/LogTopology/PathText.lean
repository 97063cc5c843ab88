/-!
# Path texts

A path is kept as the text it was given as, and taken apart at the slashes when a part is asked
for. Empty segments and `.` segments name nothing, except for a `.` that a relative path starts
with. A file name splits at its last dot, unless that dot is its first character.
-/

namespace LogTopology.PathText

/-- What a path starts with, a root slash or a leading `.`, and the text after it. -/
def splitLead : List Char → List Char × List Char
  | '/' :: cs => (['/'], cs)
  | ['.'] => (['.'], [])
  | '.' :: '/' :: cs => (['.'], '/' :: cs)
  | cs => ([], cs)

/-- A segment that names nothing. -/
def isVoid (segment : List Char) : Bool :=
  segment = [] || segment = ['.']

/-- Drops the segments at the end that name nothing. -/
def dropVoidEnd (segments : List (List Char)) : List (List Char) :=
  (segments.reverse.dropWhile isVoid).reverse

/-- The segments of a path up to the last one that names something. -/
def segments (cs : List Char) : List (List Char) :=
  dropVoidEnd ((splitLead cs).2.splitOn '/')

/-- The last segment of a path, unless it leads upwards. -/
def fileName? (path : String) : Option (List Char) :=
  (segments path.toList).getLast?.filter fun s => s ≠ ['.', '.']

/-- The text of a path without its last segment, or nothing for a root and for the empty path. -/
def parent? (path : String) : Option String :=
  let lead := (splitLead path.toList).1
  match segments path.toList with
  | [] => if lead = ['.'] then some "" else none
  | s :: ss =>
    some (String.ofList (lead ++ ['/'].intercalate (dropVoidEnd ((s :: ss).dropLast))))

/-- Splits a file name at its last dot into stem and extension. A name whose only dot comes first
has no extension. -/
def splitName (name : List Char) : List Char × Option (List Char) :=
  let tail := name.reverse.takeWhile (· ≠ '.')
  let stem := name.take (name.length - tail.length - 1)
  if tail.length = name.length || stem = [] then (name, none) else (stem, some tail.reverse)

/-- The file name without its extension; empty when the path has no file name. -/
def stem (path : String) : List Char :=
  (fileName? path).elim [] fun n => (splitName n).1

/-- What follows the last dot of the file name. -/
def extension? (path : String) : Option (List Char) :=
  (fileName? path).bind fun n => (splitName n).2

/-- Appends a name to a directory, with a slash between them where one is missing. -/
def child (directory : List Char) (name : List Char) : String :=
  String.ofList <|
    if directory = [] || directory.getLast? = some '/' then directory ++ name
    else directory ++ '/' :: name

/-- Replaces the file name of a path; a path without one gets the name appended. -/
def withFileName (path : String) (name : List Char) : String :=
  match fileName? path, parent? path with
  | some _, some directory => child directory.toList name
  | _, _ => child path.toList name

end LogTopology.PathText
