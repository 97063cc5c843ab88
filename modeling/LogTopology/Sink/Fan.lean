import LogTopology.Level
/-!
# Sinks that forward to sinks

A sink is a leaf, which does something with a line, or a fan, which hands it on to its targets. The
targets of a fan are sinks that were there before it, so no sink reaches itself; a leaf may be
reached in several ways. Every sink has a number, and its level is found under it.

A line goes down to every leaf that is reached through sinks whose levels all let it pass, once for
each way, and a leaf that fails stops no other. Flushing a fan stops at its first target that fails.
-/

namespace LogTopology

/-- A sink and everything that it forwards to. -/
inductive SinkRef where
  | leaf (id : Nat)
  | fan (id : Nat) (targets : List SinkRef)
  deriving Repr

namespace SinkRef

/-- The number of a sink. -/
def id : SinkRef → Nat
  | leaf id => id
  | fan id _ => id

/-- The sinks that a sink forwards to. -/
def targets : SinkRef → List SinkRef
  | leaf _ => []
  | fan _ targets => targets

variable {σ ε : Type}

mutual

/-- Hands a line of level `l` to a sink; `write` is what a leaf does with it. -/
def log (threshold : Nat → Level) (l : Level) (write : Nat → σ → Option ε × σ) :
    SinkRef → σ → Option ε × σ
  | leaf id, s => write id s
  | fan _ targets, s => logAll threshold l write targets s

/-- Hands a line to all sinks that let it pass, and tells the first failure. -/
def logAll (threshold : Nat → Level) (l : Level) (write : Nat → σ → Option ε × σ) :
    List SinkRef → σ → Option ε × σ
  | [], s => (none, s)
  | t :: ts, s =>
    if (threshold t.id).allows l then
      let (fault, s) := t.log threshold l write s
      let (later, s) := logAll threshold l write ts s
      (fault.or later, s)
    else logAll threshold l write ts s

end

mutual

/-- Flushes a sink; `flush` is what a leaf does. -/
def flush (flushLeaf : Nat → σ → Option ε × σ) : SinkRef → σ → Option ε × σ
  | leaf id, s => flushLeaf id s
  | fan _ targets, s => flushUntil flushLeaf targets s

/-- Flushes sinks up to the first that fails. -/
def flushUntil (flushLeaf : Nat → σ → Option ε × σ) : List SinkRef → σ → Option ε × σ
  | [], s => (none, s)
  | t :: ts, s =>
    match t.flush flushLeaf s with
    | (some e, s) => (some e, s)
    | (none, s) => flushUntil flushLeaf ts s

end

/-- Flushes sinks whether or not some of them fail. -/
def flushEach (flushLeaf : Nat → σ → Option ε × σ) : List SinkRef → σ → σ
  | [], s => s
  | t :: ts, s => flushEach flushLeaf ts (t.flush flushLeaf s).2

mutual

/-- The numbers of a sink and of all that it reaches. -/
def reach : SinkRef → List Nat
  | leaf id => [id]
  | fan id targets => id :: reachAll targets

/-- The numbers of sinks and of all that they reach. -/
def reachAll : List SinkRef → List Nat
  | [] => []
  | t :: ts => t.reach ++ reachAll ts

end

end SinkRef

end LogTopology
