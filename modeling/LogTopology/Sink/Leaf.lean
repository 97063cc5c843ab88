import LogTopology.Console.Output
import LogTopology.LogFile.Daily
import LogTopology.Sink.Kind
import LogTopology.Syslog
/-!
# Sinks that write

The sinks that do something with a line themselves: consoles, files, the system log, and the one
that does nothing. They act on the surroundings: the disk, what the console has been written to, the
clock and the number of the process.
-/

namespace LogTopology

open Console (Stream ColourChoice)

/-- What sinks act on. -/
structure World where
  disk : Disk
  /-- What was written to the standard output, and to the standard error. -/
  out : List Char
  err : List Char
  colours : ColourChoice
  now : Calendar.Moment
  process : Nat

namespace World

/-- Writes to a stream of the console. -/
def print (w : World) (s : Stream) (cs : List Char) : World :=
  match s with
  | .out => { w with out := w.out ++ cs }
  | .err => { w with err := w.err ++ cs }

end World

/-- A sink that writes. -/
inductive Leaf where
  | console (stream : Stream) (coloured : Bool)
  | debugOutput
  | null
  | basic (writer : Writer)
  | rotating (file : LogFile.Rotating)
  | daily (file : LogFile.Daily)
  | syslog (speaker : Syslog.Speaker)

namespace Leaf

/-- The name of a sink's kind. -/
def kindName : Leaf → String
  | console .out false => "stdout"
  | console .err false => "stderr"
  | console .out true => "color_stdout"
  | console .err true => "color_stderr"
  | debugOutput => "msvc"
  | null => "null"
  | basic _ => "basic_file"
  | rotating _ => "rotating_file"
  | daily _ => "daily_file"
  | syslog _ => "syslog"

/-- Makes a sink of the given kind; a kind that forwards is none of these. -/
def make (w : World) : Sink.Kind → Setup (Option (Leaf × World))
  | .stdout => .ok (some (console .out false, w))
  | .stderr => .ok (some (console .err false, w))
  | .colorStdout => .ok (some (console .out true, w))
  | .colorStderr => .ok (some (console .err true, w))
  | .msvc => .ok (some (debugOutput, w))
  | .null => .ok (some (null, w))
  | .basicFile path truncate => do
    let (writer, d) ← LogFile.openLog w.disk path truncate
    return some (basic writer, { w with disk := d })
  | .rotatingFile path maxSize maxFiles => do
    let (file, d) ← LogFile.Rotating.make w.disk path maxSize maxFiles
    return some (rotating file, { w with disk := d })
  | .dailyFile path hour minute => do
    let (file, d) ← LogFile.Daily.make w.disk path hour minute w.now.wall
    return some (daily file, { w with disk := d })
  | .syslog ident option facility => .ok (some (syslog ⟨ident, option, facility⟩, w))
  | .dist _ => .ok none

/-- Writes a line. There is no system log to write to. -/
def log (record : Record) (line : Line) (leaf : Leaf) (w : World) :
    Option FileError × Leaf × World :=
  let bytes := Text.encode line.text
  match leaf with
  | console stream coloured =>
    (none, leaf, w.print stream (Console.written coloured w.colours record.level line))
  | debugOutput => (none, leaf, w.print .err (Console.written false w.colours record.level line))
  | null => (none, leaf, w)
  | basic writer =>
    let (fault, writer, d) := writer.write w.disk bytes
    (fault, basic writer, { w with disk := d })
  | rotating file =>
    let (fault, file, d) := file.log w.disk bytes
    (fault, rotating file, { w with disk := d })
  | daily file =>
    let (fault, file, d) := file.log w.disk record.time.wall bytes
    (fault, daily file, { w with disk := d })
  | syslog _ => (some .notFound, leaf, w)

/-- Writes out what a sink holds back. -/
def flush (leaf : Leaf) (w : World) : Option FileError × Leaf × World :=
  match leaf with
  | basic writer =>
    let (fault, writer, d) := writer.flush w.disk
    (fault, basic writer, { w with disk := d })
  | rotating file =>
    let (fault, file, d) := file.flush w.disk
    (fault, rotating file, { w with disk := d })
  | daily file =>
    let (fault, file, d) := file.flush w.disk
    (fault, daily file, { w with disk := d })
  | _ => (none, leaf, w)

end Leaf

end LogTopology
