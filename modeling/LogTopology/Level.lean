/-!
# Severity levels

The seven levels of a log record, from `trace` up to `off`. A threshold lets a record through when
the record's level is at least the threshold; a record of level `off` passes nowhere.
-/

namespace LogTopology

/-- How severe a record is, or how severe it has to be to pass. -/
inductive Level where
  | trace
  | debug
  | info
  | warn
  | err
  | critical
  | off
  deriving DecidableEq, Repr, Inhabited

namespace Level

/-- All levels, the least severe first. -/
def all : List Level :=
  [trace, debug, info, warn, err, critical, off]

/-- The position of a level in `all`. -/
def rank : Level → Nat
  | trace => 0
  | debug => 1
  | info => 2
  | warn => 3
  | err => 4
  | critical => 5
  | off => 6

/-- The name of a level in documents and in formatted lines. -/
def name : Level → String
  | trace => "trace"
  | debug => "debug"
  | info => "info"
  | warn => "warn"
  | err => "err"
  | critical => "critical"
  | off => "off"

/-- The name of a level with a capital, as the description of an object shows it. -/
def title : Level → String
  | trace => "Trace"
  | debug => "Debug"
  | info => "Info"
  | warn => "Warn"
  | err => "Err"
  | critical => "Critical"
  | off => "Off"

/-- The one-letter form of a level. -/
def letter : Level → Char
  | trace => 'T'
  | debug => 'D'
  | info => 'I'
  | warn => 'W'
  | err => 'E'
  | critical => 'C'
  | off => 'O'

/-- The level of the given name; names are matched exactly. -/
def ofName? (s : String) : Option Level :=
  all.find? fun l => l.name == s

/-- The level stored as a number; every number past the last level means `off`. -/
def ofRank (n : Nat) : Level :=
  all[n]?.getD off

/-- Whether a record of level `l` passes the threshold. -/
def allows (threshold l : Level) : Bool :=
  l ≠ off && threshold.rank ≤ l.rank

@[simp] theorem ofRank_rank (l : Level) : ofRank l.rank = l := by
  cases l <;> rfl

@[simp] theorem ofName?_name (l : Level) : ofName? l.name = some l := by
  cases l <;> rfl

/-- Nothing passes at level `off`. -/
@[simp] theorem allows_off (threshold : Level) : threshold.allows off = false := rfl

end Level

end LogTopology
