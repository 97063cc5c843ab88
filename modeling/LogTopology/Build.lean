import LogTopology.Document.Statement
import LogTopology.Logger.Declared
import LogTopology.Overlay
import LogTopology.Template
/-!
# Building a document

The plan for a whole document: its sinks, its patterns, its pools and then its loggers. A document
may come as text, as a template, or with an overlay.
-/

namespace LogTopology.Build

variable {S P L : Type}

/-- The document that a text holds. -/
def parse (text : String) : Setup Document.Table :=
  match Document.read? text with
  | some doc => .ok doc
  | none => .error .malformedDocument

/-- Builds what a document declares besides its sinks. -/
def afterSinks (doc : Document.Table) (sinks : Sink.SinkTable S) : Plan S P L Unit := do
  let patterns ← PatternTable.ofDocument doc
  let pools ← PoolTable.ofDocument doc
  let globalPattern ← Plan.ofSetup (Document.optional .string doc "global_pattern")
  let loggers ← Logger.ofDocument ⟨sinks, patterns, pools, globalPattern⟩ doc
  Plan.report (.about .setup .info "logging set up"
    [("sinks", .unsigned sinks.length), ("patterns", .unsigned patterns.size),
      ("thread_pools", .unsigned pools.length), ("loggers", .unsigned loggers)])

/-- Builds everything that a document declares. -/
def document (doc : Document.Table) : Plan S P L Unit := do
  afterSinks doc (← Sink.resolve doc)

/-- Passes on reports that have been made. -/
def reportAll : List Event → Plan S P L Unit
  | [] => return
  | e :: es => do
    Plan.report e
    reportAll es

/-- Builds a document with an overlay over it. -/
def withOverlay (base overlay : Document.Table) : Plan S P L Unit := do
  let merged := Overlay.merge base overlay
  reportAll merged.events
  Plan.ofSetup merged.outcome
  document merged.result

/-- Builds the document that a text holds. -/
def text (text : String) : Plan S P L Unit := do
  document (← Plan.ofSetup (parse text))

/-- Fills a template. -/
def fill (template : String) (bindings : Template.Bindings) : Plan S P L String := do
  reportAll (Template.reports template bindings)
  return Template.render template bindings

/-- Fills a template and builds the document that it then holds. -/
def template (template : String) (bindings : Template.Bindings) : Plan S P L Unit := do
  text (← fill template bindings)

/-- Builds a document whose loggers fall back on the given pattern and not on the document's own,
and counts the loggers. -/
def stages (doc : Document.Table) (globalPattern : Option String) : Plan S P L Nat := do
  let sinks ← Sink.resolve doc
  let patterns ← PatternTable.ofDocument doc
  let pools ← PoolTable.ofDocument doc
  Logger.ofDocument ⟨sinks, patterns, pools, globalPattern⟩ doc

end LogTopology.Build
