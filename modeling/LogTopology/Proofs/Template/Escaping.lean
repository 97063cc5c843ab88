import LogTopology.Proofs.Template.Reading
/-!
# Writing a text as a template

Filling a template loses no text: every text has a template that is filled to it, whatever the
bindings are. `escape` makes one, by putting a tag with a quoted opening in the place of every
opening that it meets from the left.

Such a tag cannot run together with what stands around it. No brace stands right in front of it,
since that brace and the next would have been an opening that is met earlier, and it ends with the
closing behind its second quote, so that no quote or brace of the text that follows is looked at.

What other templates are filled to the same text is not told here.
-/

namespace LogTopology.Template

/-- The tag that stands for an opening. -/
def quotedOpening : List Char :=
  opening ++ '"' :: (opening ++ '"' :: closing)

/-- Puts the tag in the place of every opening that is met from the left. -/
def escape : List Char → List Char
  | '\x7b' :: '\x7b' :: cs => quotedOpening ++ escape cs
  | c :: cs => c :: escape cs
  | [] => []

/-- The template that stands for a text. -/
def escaped (s : String) : String :=
  String.ofList (escape s.toList)

/-- What a template is filled to. -/
def filled (bindings : Bindings) (template : List Char) : List Char :=
  (pieces template).flatMap (Piece.fill bindings)

variable {before text tag cs : List Char} {c : Char}

/-! ## Escaping -/

/-- An opening is escaped by the tag that stands for it. -/
theorem escape_opening (cs : List Char) : escape (opening ++ cs) = quotedOpening ++ escape cs := rfl

/-- Any other character is kept. -/
theorem escape_cons (apart : ¬opening <+: c :: cs) : escape (c :: cs) = c :: escape cs := by
  rw [escape]
  rintro rest rfl rfl
  exact apart (List.prefix_append opening rest)

/-- A text without openings is kept. -/
theorem escape_of_bare (bare : ¬opening <:+: cs) : escape cs = cs := by
  induction cs with
  | nil => rfl
  | cons c cs ih =>
    rw [List.infix_cons_iff, not_or] at bare
    rw [escape_cons bare.1, ih bare.2]

/-- A text up to its first opening stays, and the opening becomes the tag. -/
theorem escape_append (first : OpensAfter before) (cs : List Char) :
    escape (before ++ (opening ++ cs)) = before ++ (quotedOpening ++ escape cs) := by
  induction before with
  | nil => exact escape_opening cs
  | cons c before ih =>
    rw [OpensAfter, List.cons_append, List.infix_cons_iff, not_or] at first
    have apart : ¬opening <+: c :: (before ++ (opening ++ cs)) := by
      -- Two characters decide, and those after `c` are the same in front of one brace as of two.
      intro together
      refine first.1 ?_
      cases before with
      | nil => simpa [opening] using together
      | cons d before => simpa [opening] using together
    rw [List.cons_append, escape_cons apart, ih first.2, List.cons_append]

/-! ## Filling -/

/-- A template without openings is filled to itself. -/
theorem filled_of_bare (bindings : Bindings) (bare : ¬opening <:+: cs) :
    filled bindings cs = cs := by
  unfold filled
  rw [pieces_of_bare bare]
  exact List.append_nil cs

/-- A quoted text is put in as it is, and what follows its tag is filled by itself. -/
theorem filled_of_quoted (bindings : Bindings) (first : OpensAfter before)
    (quoted : Quoted text tag) (rest : List Char) :
    filled bindings (before ++ (opening ++ (tag ++ rest))) =
      before ++ (text ++ filled bindings rest) := by
  unfold filled
  rw [pieces_of_tag first (readTag?_of_quoted quoted rest)]
  rfl

/-- The tag holds a quoted opening. -/
theorem quoted_opening : Quoted opening ('"' :: (opening ++ '"' :: closing)) :=
  .mk (List.forall_mem_nil _) (by decide) (List.forall_mem_nil _)

/-- Escaping is undone by filling. -/
theorem filled_escape (bindings : Bindings) (s : List Char) : filled bindings (escape s) = s := by
  -- From one opening to the next: what stands behind the first one is shorter.
  induction len : s.length using Nat.strongRecOn generalizing s with
  | ind n ih =>
  cases found : splitTwice? '\x7b' s with
  | none =>
    have bare : ¬opening <:+: s := splitTwice?_eq_none_iff.mp found
    rw [escape_of_bare bare, filled_of_bare bindings bare]
  | some parts =>
    obtain ⟨before, after⟩ := parts
    have first : OpensAfter before := not_twice_infix_of_splitTwice? found
    have whole : s = before ++ (opening ++ after) := splitTwice?_eq found
    have shorter : after.length < n := by
      rw [← len, whole]
      simp only [List.length_append, opening, List.length_cons]
      omega
    calc filled bindings (escape s)
        = filled bindings (before ++ (quotedOpening ++ escape after)) := by
          rw [whole, escape_append first]
      _ = before ++ (opening ++ filled bindings (escape after)) := by
          rw [quotedOpening, List.append_assoc, filled_of_quoted bindings first quoted_opening]
      _ = s := by rw [ih _ shorter after rfl, whole]

/-- Every text has a template that is filled to it, and a tag with a quoted text is filled to the
text, whatever blanks stand around it and whatever the keys are bound to. -/
theorem every_text_has_template (bindings : Bindings) :
    (∀ s, render (escaped s) bindings = s) ∧
      ∀ lead text trail : List Char, Blank lead → '"' ∉ text → Blank trail →
        render (String.ofList (opening ++ (lead ++ '"' :: (text ++ '"' :: (trail ++ closing)))))
          bindings = String.ofList text := by
  have made (template : List Char) :
      render (String.ofList template) bindings = String.ofList (filled bindings template) := by
    rw [render, String.toList_ofList, filled]
  constructor
  · intro s
    rw [escaped, made, filled_escape, String.ofList_toList]
  · intro lead text trail hlead inner htrail
    have first : OpensAfter [] := not_twice_infix_singleton
    have alone := filled_of_quoted bindings first (.mk hlead inner htrail) []
    rw [List.append_nil] at alone
    rw [made, ← List.nil_append (opening ++ _), alone, filled_of_bare bindings (by simp [opening])]
    simp

/-- Five braces, a quote and a closing behind them, and a quoted text of braces between a tabulator
and a wide blank. -/
theorem braces_have_template :
    let s := "a\x7b\x7b\x7b\x7b\x7b\"\x7d\x7d\x7bk"
    let text := ['\x7d', '\x7d', ' ', '\x7b', '\x7b']
    escape s.toList = 'a' :: (quotedOpening ++ (quotedOpening ++
        ['\x7b', '"', '\x7d', '\x7d', '\x7b', 'k'])) ∧
      render (escaped s) [("k", "v")] = s ∧ Blank ['\t'] ∧ '"' ∉ text ∧ Blank ['\u3000'] ∧
      render (String.ofList
          (opening ++ (['\t'] ++ '"' :: (text ++ '"' :: (['\u3000'] ++ closing)))))
        [("k", "v")] = String.ofList text := by
  intro s text
  have lead : Blank ['\t'] := List.forall_mem_singleton.mpr rfl
  have inner : '"' ∉ text := by decide
  have trail : Blank ['\u3000'] := List.forall_mem_singleton.mpr rfl
  obtain ⟨whole, quoted⟩ := every_text_has_template [("k", "v")]
  exact ⟨by decide, whole s, lead, inner, trail, quoted _ _ _ lead inner trail⟩

end LogTopology.Template
