import LogTopology.Document.Field
import LogTopology.PathText
/-!
# Kinds of sinks

A sink is where log lines go. Its declaration names a family, with a suffix that makes no
difference, and has the fields that the family asks for. Only sinks of the family `dist` refer to
other sinks.
-/

namespace LogTopology.Sink

/-- The families of sinks. -/
inductive Family where
  | stdout
  | stderr
  | colorStdout
  | colorStderr
  | basicFile
  | rotatingFile
  | dailyFile
  | null
  | syslog
  | dist
  | msvc
  deriving DecidableEq, Repr

namespace Family

/-- The name of a family. -/
def name : Family → String
  | stdout => "stdout_sink"
  | stderr => "stderr_sink"
  | colorStdout => "color_stdout_sink"
  | colorStderr => "color_stderr_sink"
  | basicFile => "basic_file_sink"
  | rotatingFile => "rotating_file_sink"
  | dailyFile => "daily_file_sink"
  | null => "null_sink"
  | syslog => "syslog_sink"
  | dist => "dist_sink"
  | msvc => "msvc_sink"

/-- The families by the names that documents may use; one has two. -/
def spellings : List (String × Family) :=
  ("simple_file_sink", basicFile) ::
    [stdout, stderr, colorStdout, colorStderr, basicFile, rotatingFile, dailyFile, null, syslog,
      dist, msvc].map fun f => (f.name, f)

/-- The family that a document's text selects: a name and one of two suffixes. -/
def parse (s : String) : Setup Family :=
  match spellings.find? fun n => s = n.1 ++ "_st" || s = n.1 ++ "_mt" with
  | some n => .ok n.2
  | none => .error (.badSinkType s)

/-- Whether sinks of the family forward to other sinks. -/
def forwards (f : Family) : Bool :=
  f = dist

end Family

/-- What a sink is, with all that is needed to make it. -/
inductive Kind where
  | stdout
  | stderr
  | colorStdout
  | colorStderr
  | basicFile (path : String) (truncate : Bool)
  | rotatingFile (path : String) (maxSize maxFiles : Nat)
  | dailyFile (path : String) (hour minute : Nat)
  | null
  | syslog (ident : String) (option facility : Int)
  | dist (targets : List String)
  | msvc
  deriving DecidableEq, Repr

namespace Kind

/-- The family of a kind. -/
def family : Kind → Family
  | stdout => .stdout
  | stderr => .stderr
  | colorStdout => .colorStdout
  | colorStderr => .colorStderr
  | basicFile .. => .basicFile
  | rotatingFile .. => .rotatingFile
  | dailyFile .. => .dailyFile
  | null => .null
  | syslog .. => .syslog
  | dist _ => .dist
  | msvc => .msvc

/-- The file that a sink writes to, if it writes to one. -/
def path? : Kind → Option String
  | basicFile path _ => some path
  | rotatingFile path _ _ => some path
  | dailyFile path _ _ => some path
  | _ => none

/-- The names of the sinks that a sink forwards to, in order. -/
def targets : Kind → List String
  | dist targets => targets
  | _ => []

/-- A field that a family asks for. -/
def asked {α : Type} (f : Family) (decode : Document.Decoder α) (holding field : String)
    (t : Document.Table) : Setup α :=
  Document.required decode t field (.missingSinkField field holding f.name)

/-- Reads the fields of a file that is written to for ever. -/
def decodeBasic (t : Document.Table) : Setup Kind := do
  let path ← asked .basicFile .string "string" "filename" t
  return basicFile path (← Document.optionalOr .flag t "truncate" false)

/-- Reads the fields of a file that is put aside when it is full. -/
def decodeRotating (t : Document.Table) : Setup Kind := do
  let path ← asked .rotatingFile .string "string" "base_filename" t
  let size ← asked .rotatingFile .string "string" "max_size" t
  let files ← asked .rotatingFile .count "u64" "max_files" t
  let size ← (ByteSize.parse size).mapError .badSize
  return rotatingFile path size.bytes files

/-- Reads the fields of a file that changes every day. -/
def decodeDaily (t : Document.Table) : Setup Kind := do
  let path ← asked .dailyFile .string "string" "base_filename" t
  let hour ← asked .dailyFile .unsigned32 "u32" "rotation_hour" t
  let minute ← asked .dailyFile .unsigned32 "u32" "rotation_minute" t
  if 23 < hour then throw (.rotationOutOfRange "rotation_hour" 23 hour)
  if 59 < minute then throw (.rotationOutOfRange "rotation_minute" 59 minute)
  return dailyFile path hour minute

/-- Reads the fields of the system log. The facility stands eight times its code, which is at most
23; the user facility is the one that is taken when none is given. -/
def decodeSyslog (t : Document.Table) : Setup Kind := do
  let facility ← Document.optionalOr .signed32 t "syslog_facility" 8
  if facility < 0 || facility.emod 8 ≠ 0 || 184 < facility then throw (.badFacility facility)
  let ident ← Document.optionalOr .string t "ident" ""
  let option ← Document.optionalOr .signed32 t "syslog_option" 0
  return syslog ident option facility

/-- Reads the fields that a family asks for. -/
def decode (f : Family) (t : Document.Table) : Setup Kind :=
  match f with
  | .stdout => .ok stdout
  | .stderr => .ok stderr
  | .colorStdout => .ok colorStdout
  | .colorStderr => .ok colorStderr
  | .null => .ok null
  | .msvc => .ok msvc
  | .basicFile => decodeBasic t
  | .rotatingFile => decodeRotating t
  | .dailyFile => decodeDaily t
  | .syslog => decodeSyslog t
  | .dist => dist <$> asked .dist .strings "string array" "sinks" t

end Kind

end LogTopology.Sink
