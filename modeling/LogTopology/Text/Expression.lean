import LogTopology.Text.Alphanumeric
import LogTopology.Text.CodePoint
/-!
# Regular expressions

Whether a text is a regular expression: its groups and sets of characters are closed, a repetition
has something to repeat, a range goes upwards, and every escape means something. Counted
repetitions and word boundaries are not provided for. Reading goes character by character, with a
mode that remembers what the characters before were about.
-/

namespace LogTopology.Text.Expression

/-- What a dash inside a set comes after. -/
inductive Item where
  /-- Nothing that a range could start with, so that the dash stands for itself. -/
  | nothing
  | char (c : Char)
  /-- A class of characters, with which no range may start. -/
  | kind
  deriving DecidableEq

/-- Where a character or an escape stands. -/
inductive Place where
  | outside
  | set
  /-- In a set, behind an item and a dash. -/
  | range (low : Item)
  deriving DecidableEq

/-- What the characters just read ask of the next one. -/
inductive Mode where
  /-- Outside of sets; `full` tells whether there is something to repeat. -/
  | plain (full : Bool)
  /-- After an opening parenthesis. -/
  | group
  /-- After a question mark behind an opening parenthesis. -/
  | groupKind
  /-- Before the opening bracket of a group's name. -/
  | groupName
  /-- Within the name of a group, the characters so far in reverse. -/
  | name (read : List Char)
  /-- Within flags, those so far in reverse. -/
  | flags (read : List Char)
  /-- After the opening bracket of a set, or after the caret that may follow it. -/
  | setStart (negatable : Bool)
  /-- After dashes at the start of a set. -/
  | setDashes
  /-- Within a set. -/
  | set (before : Item)
  /-- After a dash behind an item of a set. -/
  | range (low : Item)
  /-- After a backslash. -/
  | escape (place : Place)
  /-- Within a numeric escape: how many digits are missing and the number so far. -/
  | digits (missing : Nat) (number : Nat) (place : Place)
  /-- Before the letter of a general category. -/
  | category (place : Place)
  deriving DecidableEq

/-- How far an expression has been read: the groups and sets that are open, the names of groups, and
the mode. -/
structure State where
  groups : Nat
  sets : Nat
  names : List (List Char)
  mode : Mode

namespace State

/-- Goes on in another mode. -/
def enter (s : State) (mode : Mode) : Option State :=
  some { s with mode }

/-- Goes on inside a new group. -/
def inGroup (s : State) : State :=
  { s with groups := s.groups + 1, mode := .plain false }

/-- Goes on after a character that stands for itself. -/
def afterChar? (s : State) (c : Char) : Place → Option State
  | .outside => s.enter (.plain true)
  | .set => s.enter (.set (.char c))
  | .range (.char low) => if low ≤ c then s.enter (.set .nothing) else none
  | .range _ => none

/-- Goes on after a class of characters. -/
def afterKind? (s : State) : Place → Option State
  | .outside => s.enter (.plain true)
  | .set => s.enter (.set .kind)
  | .range _ => none

/-- A character outside of sets. -/
def plainStep? (s : State) (full : Bool) (c : Char) : Option State :=
  if c = '(' then s.enter .group
  else if c = ')' then
    if s.groups = 0 then none else some { s with groups := s.groups - 1, mode := .plain true }
  else if c = '|' then s.enter (.plain false)
  else if c ∈ ['?', '*', '+'] then if full then s.enter (.plain true) else none
  else if c = '\x7b' then none
  else if c = '[' then some { s with sets := 1, mode := .setStart true }
  else if c = '\\' then s.enter (.escape .outside)
  else s.enter (.plain true)

/-- A character within flags. A dash turns the flags after it off; no flag is named twice. -/
def flagStep? (s : State) (read : List Char) (c : Char) : Option State :=
  let ready := read.head?.any (· ≠ '-')
  if c = ')' then if ready then s.enter (.plain false) else none
  else if c = ':' then if ready then some s.inGroup else none
  else if c ∈ ['i', 'm', 's', 'U', 'u', 'x', 'R', '-'] && !read.contains c then
    s.enter (.flags (c :: read))
  else none

/-- A character within the name of a group. No name is given twice. -/
def nameStep? (s : State) (read : List Char) (c : Char) : Option State :=
  if c = '>' then
    if read = [] || s.names.contains read then none
    else some { s.inGroup with names := read :: s.names }
  else if c = '_' || (isAlphanumeric c && !(read = [] && c.isDigit)) then s.enter (.name (c :: read))
  else if c ∈ ['.', '[', ']'] && read ≠ [] then s.enter (.name (c :: read))
  else none

/-- A character within a set. -/
def setStep? (s : State) (before : Item) (c : Char) : Option State :=
  if c = '[' then some { s with sets := s.sets + 1, mode := .setStart true }
  else if c = ']' then
    some { s with
      sets := s.sets - 1
      mode := if s.sets = 1 then .plain true else .set .nothing }
  else if c = '\\' then s.enter (.escape .set)
  else if c = '-' then s.enter (if before = .nothing then .set .nothing else .range before)
  else s.afterChar? c .set

/-- A character after a backslash. -/
def escapeStep? (s : State) (place : Place) (c : Char) : Option State :=
  if c = 'x' then s.enter (.digits 2 0 place)
  else if c = 'u' then s.enter (.digits 4 0 place)
  else if c = 'U' then s.enter (.digits 8 0 place)
  else if c ∈ ['p', 'P'] then s.enter (.category place)
  else if c ∈ ['d', 'D', 's', 'S', 'w', 'W'] then s.afterKind? place
  else if c = 'a' then s.afterChar? '\x07' place
  else if c = 'f' then s.afterChar? '\x0c' place
  else if c = 't' then s.afterChar? '\t' place
  else if c = 'n' then s.afterChar? '\n' place
  else if c = 'r' then s.afterChar? '\r' place
  else if c = 'v' then s.afterChar? '\x0b' place
  else if c ∈ ['A', 'z'] then if place = .outside then s.enter (.plain true) else none
  else if c.isAlphanum || c ∈ ['<', '>'] || 0x80 ≤ c.toNat then none
  else s.afterChar? c place

/-- One character of an expression. -/
def step? (s : State) (c : Char) : Option State :=
  match s.mode with
  | .plain full => s.plainStep? full c
  | .group => if c = '?' then s.enter .groupKind else s.inGroup.plainStep? false c
  | .groupKind =>
    if c = ':' then some s.inGroup
    else if c = '<' then s.enter (.name [])
    else if c = 'P' then s.enter .groupName
    else s.flagStep? [] c
  | .groupName => if c = '<' then s.enter (.name []) else none
  | .name read => s.nameStep? read c
  | .flags read => s.flagStep? read c
  | .setStart negatable =>
    if c = '^' && negatable then s.enter (.setStart false)
    else if c = '-' then s.enter .setDashes
    else if c = ']' then s.enter (.set .nothing)
    else s.setStep? .nothing c
  | .setDashes => if c = '-' then s.enter .setDashes else s.setStep? .nothing c
  | .set before => s.setStep? before c
  | .range low =>
    if c = ']' then s.setStep? .nothing c
    else if c = '-' then s.enter (.set .nothing)
    else if c = '\\' then s.enter (.escape (.range low))
    else s.afterChar? c (.range low)
  | .escape place => s.escapeStep? place c
  | .digits missing number place =>
    (hexValue? c).bind fun d =>
      if missing ≤ 1 then (scalar? (16 * number + d)).bind fun c => s.afterChar? c place
      else s.enter (.digits (missing - 1) (16 * number + d) place)
  | .category place =>
    if c.toUpper ∈ ['C', 'L', 'M', 'N', 'P', 'S', 'Z'] then s.afterKind? place else none

/-- Whether an expression may end here. -/
def isDone (s : State) : Bool :=
  match s.mode with
  | .plain _ => s.groups = 0
  | _ => false

end State

end Expression

/-- Whether a text is a regular expression. -/
def isExpression (cs : List Char) : Bool :=
  (cs.foldlM Expression.State.step? ⟨0, 0, [], .plain false⟩).any Expression.State.isDone

end LogTopology.Text
