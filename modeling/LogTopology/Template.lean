import LogTopology.Event
import LogTopology.Text.Blank
/-!
# Templates

A template is a text with tags between double braces. A tag with a key is replaced by the value bound
to the key, or by nothing when there is none; a tag with a quoted text is replaced by that text; an
opening without a closing is left as it is. A template is first taken apart into pieces, which keep
their source, and only then the bindings come in: what is put in is never read for tags again.
-/

namespace LogTopology.Template

/-- Splits at the first place where a character stands twice in a row. -/
def splitTwice? (c : Char) : List Char → Option (List Char × List Char)
  | a :: b :: cs =>
    if a = c && b = c then some ([], cs)
    else (splitTwice? c (b :: cs)).map fun r => (a :: r.1, r.2)
  | _ => none

theorem splitTwice?_eq {c : Char} {cs before after : List Char}
    (h : splitTwice? c cs = some (before, after)) : cs = before ++ c :: c :: after := by
  induction cs generalizing before with
  | nil => simp [splitTwice?] at h
  | cons a rest ih =>
    cases rest with
    | nil => simp [splitTwice?] at h
    | cons b rest =>
      rw [splitTwice?] at h
      split at h
      · next same =>
        obtain ⟨rfl, rfl⟩ : [] = before ∧ rest = after := by simpa using h
        simp only [Bool.and_eq_true, decide_eq_true_eq] at same
        simp [same.1, same.2]
      · obtain ⟨⟨before', after'⟩, found, made⟩ := Option.map_eq_some_iff.1 h
        obtain ⟨rfl, rfl⟩ : a :: before' = before ∧ after' = after := by simpa using made
        simp [ih found]

/-- A part of a template together with what it stands for. -/
inductive Piece where
  /-- Text without tags. -/
  | plain (text : List Char)
  /-- A tag with a quoted text. -/
  | literal (source text : List Char)
  /-- A tag with a key. -/
  | tag (source key : List Char)
  /-- An opening without a closing, and all that follows it. -/
  | unclosed (text : List Char)
  deriving DecidableEq, Repr

/-- The part of the template that a piece was read from. -/
def Piece.source : Piece → List Char
  | plain text => text
  | literal source _ => source
  | tag source _ => source
  | unclosed text => text

/-- Reads a quoted text and the closing braces, with blanks around the text. -/
def quoted? (body : List Char) : Option (List Char × List Char) :=
  match Text.trimStart body with
  | '"' :: cs =>
    match cs.dropWhile (· ≠ '"') with
    | '"' :: after =>
      match Text.trimStart after with
      | '\x7d' :: '\x7d' :: rest => some (cs.takeWhile (· ≠ '"'), rest)
      | _ => none
    | _ => none
  | _ => none

/-- Reads a tag from behind its opening braces, and gives what follows its closing braces. -/
def readTag? (body : List Char) : Option (Piece × List Char) :=
  let source (rest : List Char) : List Char :=
    '\x7b' :: '\x7b' :: body.take (body.length - rest.length)
  match quoted? body with
  | some (text, rest) => some (.literal (source rest) text, rest)
  | none =>
    (splitTwice? '\x7d' body).map fun (key, rest) => (.tag (source rest) (Text.trim key), rest)

theorem length_quoted? {body text rest : List Char} (h : quoted? body = some (text, rest)) :
    rest.length < body.length := by
  unfold quoted? at h
  split at h
  · next cs hcs =>
    split at h
    · next after hafter =>
      split at h
      · next rest' hrest =>
        obtain ⟨rfl, rfl⟩ : cs.takeWhile (· ≠ '"') = text ∧ rest' = rest := by simpa using h
        have h1 := Text.length_trimStart_le body
        have h2 := (List.dropWhile_suffix (fun c : Char => decide (c ≠ '"')) (l := cs)).length_le
        have h3 := Text.length_trimStart_le after
        rw [hcs] at h1
        rw [hafter] at h2
        rw [hrest] at h3
        simp only [List.length_cons] at h1 h2 h3
        omega
      · simp at h
    · simp at h
  · simp at h

theorem length_readTag? {body rest : List Char} {p : Piece} (h : readTag? body = some (p, rest)) :
    rest.length < body.length := by
  unfold readTag? at h
  split at h
  · next text rest' found =>
    obtain ⟨-, rfl⟩ : _ = p ∧ rest' = rest := by simpa using h
    exact length_quoted? found
  · obtain ⟨⟨key, rest'⟩, found, made⟩ := Option.map_eq_some_iff.1 h
    obtain ⟨-, rfl⟩ : _ = p ∧ rest' = rest := by simpa using made
    have := congrArg List.length (splitTwice?_eq found)
    simp only [List.length_append, List.length_cons] at this
    omega

/-- Takes a template apart. -/
def pieces (template : List Char) : List Piece :=
  match _ : splitTwice? '\x7b' template with
  | none => [.plain template]
  | some (before, body) =>
    match _ : readTag? body with
    | none => [.plain before, .unclosed ('\x7b' :: '\x7b' :: body)]
    | some (p, rest) => .plain before :: p :: pieces rest
termination_by template.length
decreasing_by
  have h1 := length_readTag? ‹readTag? body = some (p, rest)›
  have h2 := congrArg List.length (splitTwice?_eq ‹splitTwice? '\x7b' template = some (before, body)›)
  simp only [List.length_append, List.length_cons] at h2
  omega

/-- What a template's keys are bound to. -/
abbrev Bindings := List (String × String)

/-- What a piece becomes. -/
def Piece.fill (bindings : Bindings) : Piece → List Char
  | plain text => text
  | literal _ text => text
  | tag _ key => (bindings.lookup (String.ofList key)).elim [] String.toList
  | unclosed text => text

/-- The report on a key that has no binding. -/
def Piece.unbound? (bindings : Bindings) : Piece → Option Event
  | tag _ key =>
    if (bindings.lookup (String.ofList key)).isSome then none
    else some <| .about .templates .debug "template key has no binding"
      [("key", .text (String.ofList key))]
  | _ => none

/-- Fills a template. -/
def render (template : String) (bindings : Bindings) : String :=
  String.ofList ((pieces template.toList).flatMap (Piece.fill bindings))

/-- The reports made while a template is filled. -/
def reports (template : String) (bindings : Bindings) : List Event :=
  (pieces template.toList).filterMap (Piece.unbound? bindings)

end LogTopology.Template
