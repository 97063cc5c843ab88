import LogTopology.Bridge.Directive
import LogTopology.Level
/-!
# Filters

Which events reach a bridge at all. A filter is a list of directives; the most specific one that
concerns an event decides. Directives are written with commas between them, and what does not read
as one is passed over. A directive about spans lets no event pass that is in none, and no event
here is.
-/

namespace LogTopology.Bridge

/-- A filter: directives on events and those on spans, the most specific first. -/
structure Filter where
  events : List Directive
  spans : List Directive

namespace Filter

/-- The filter of one level. -/
def ofVerbosity (v : Verbosity) : Filter :=
  ⟨[⟨none, none, none, v⟩], []⟩

/-- The filter of some directives. -/
def ofDirectives (ds : List Directive) : Filter :=
  let dynamic := ds.filter Directive.isDynamic
  let free := ds.filter (fun d => !d.isDynamic) ++ dynamic.filter fun d => !d.isBound
  ⟨free.foldl (fun es d => d.insert es) [], dynamic.foldl (fun es d => d.insert es) []⟩

/-- Reads a filter; one without any directive lets errors pass. -/
def read (s : String) : Filter :=
  let ds := ((s.toList.splitOn ',').filter (· ≠ [])).filterMap Directive.read?
  if ds.isEmpty then ofVerbosity (some .error) else ofDirectives ds

/-- The filter that fits a logger of the given level. -/
def ofLevel : Level → Filter
  | .trace => ofVerbosity (some .trace)
  | .debug => ofVerbosity (some .debug)
  | .info => ofVerbosity (some .info)
  | .warn => ofVerbosity (some .warn)
  | .err => ofVerbosity (some .error)
  | .critical => ofVerbosity (some .error)
  | .off => ofVerbosity none

/-- The filter of a bridge: the one that the surroundings ask for, or else that of the logger. -/
def forLogger (asked : Option String) (level : Level) : Filter :=
  match asked with
  | some s => read s
  | none => ofLevel level

/-- Whether a filter lets an event pass. -/
def passes (f : Filter) (e : Event) : Bool :=
  match f.events.find? fun d => d.concerns e with
  | some d => lets d.verbosity e.severity
  | none => false

/-- The text of a filter. -/
def text (f : Filter) : String :=
  String.intercalate "," ((f.events ++ f.spans).map Directive.text)

end Filter

end LogTopology.Bridge
