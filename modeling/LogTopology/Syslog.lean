import LogTopology.Pattern.Line
/-!
# System log frames

The frame in which a line goes to the system log: the priority between angle brackets, which joins
the facility and the severity of the level, then who is speaking, and the line without its newlines.

Sending a frame is not modelled: there is no daemon, and a sink that writes to it fails as one does
that finds nobody listening.
-/

namespace LogTopology.Syslog

/-- A sink of the system log. -/
structure Speaker where
  ident : String
  option : Int
  /-- The facility code, times eight. -/
  facility : Int
  deriving DecidableEq, Repr

/-- The severity of a level. -/
def severity : Level → Nat
  | .trace => 7
  | .debug => 7
  | .info => 6
  | .warn => 4
  | .err => 3
  | .critical => 2
  | .off => 7

/-- The part of a priority that is the facility: seven bits above the severity. -/
def facilityBits (facility : Int) : Nat :=
  (facility.emod 1024).toNat / 8 * 8

/-- The priority of a line. -/
def priority (s : Speaker) (level : Level) : Nat :=
  facilityBits s.facility + severity level

/-- Whether the frame says which process is speaking; the lowest bit of the option asks for it. -/
def showsProcess (s : Speaker) : Bool :=
  s.option.emod 2 = 1

/-- Who is speaking. -/
def speakerText (process : Nat) (s : Speaker) : List Char :=
  if s.ident = "" then []
  else
    s.ident.toList ++
      (if showsProcess s then '[' :: Nat.toDigits 10 process ++ [']'] else []) ++ [':', ' ']

/-- Drops the newlines that a text ends with. -/
def dropNewlines (cs : List Char) : List Char :=
  (cs.reverse.dropWhile (· = '\n')).reverse

/-- The frame of a line. -/
def frame (process : Nat) (s : Speaker) (level : Level) (line : Line) : List Char :=
  '<' :: Nat.toDigits 10 (priority s level) ++ '>' :: speakerText process s ++
    dropNewlines line.text

end LogTopology.Syslog
