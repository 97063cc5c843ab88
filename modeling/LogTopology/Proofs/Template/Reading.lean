import LogTopology.Template
/-!
# Reading a template from the left

A template is read as a row of spans, each of them a part of its text together with what it stands
for: a text, or a key whose value takes its place. `Reads` says which row that is. Up to the first
opening a template stands for itself; what follows is a quoted text if it can be read as one, and
else a key up to the first closing; an opening that no closing follows is the last span and stands
for itself too.

Every template has one reading, and filling it puts the spans together: `reads_iff` and
`value_span`. The reading does not know the bindings, so what is put in is never read for tags.

Which reports are made on the way is not told here.
-/

namespace LogTopology.Template

/-- The braces that open a tag. -/
def opening : List Char := ['\x7b', '\x7b']

/-- The braces that close a tag. -/
def closing : List Char := ['\x7d', '\x7d']

/-- What a span stands for: a text, or the value of a key. -/
inductive Chunk where
  | text (cs : List Char)
  | key (name : List Char)
  deriving DecidableEq, Repr

/-- What takes the place of a chunk; a key that is bound to nothing leaves nothing. -/
def Chunk.value (bindings : Bindings) : Chunk → List Char
  | text cs => cs
  | key name =>
    match bindings.lookup (String.ofList name) with
    | some v => v.toList
    | none => []

/-- A part of a template and what it stands for. -/
structure Span where
  source : List Char
  chunk : Chunk
  deriving DecidableEq, Repr

/-- What a piece stands for, with its source. -/
def Piece.span : Piece → Span
  | plain text => ⟨text, .text text⟩
  | literal source text => ⟨source, .text text⟩
  | tag source key => ⟨source, .key key⟩
  | unclosed text => ⟨text, .text text⟩

/-- Nothing but blanks. -/
def Blank (cs : List Char) : Prop :=
  ∀ c ∈ cs, Text.isBlank c = true

/-- A quoted text with the closing behind it, as it stands in a tag. -/
inductive Quoted (text : List Char) : List Char → Prop where
  | mk {lead trail : List Char} (hlead : Blank lead) (inner : '"' ∉ text) (htrail : Blank trail) :
      Quoted text (lead ++ '"' :: (text ++ '"' :: (trail ++ closing)))

/-- The first opening of a template stands right behind a text. -/
def OpensAfter (before : List Char) : Prop :=
  ¬opening <:+: before ++ ['\x7b']

/-- How a template is read. -/
inductive Reads : List Char → List Span → Prop where
  | plain {text : List Char} (bare : ¬opening <:+: text) : Reads text [⟨text, .text text⟩]
  | unclosed {before body : List Char} (first : OpensAfter before) (open_ : ¬closing <:+: body) :
      Reads (before ++ (opening ++ body))
        [⟨before, .text before⟩, ⟨opening ++ body, .text (opening ++ body)⟩]
  | literal {before text tag rest : List Char} {spans : List Span} (first : OpensAfter before)
      (quoted : Quoted text tag) (on : Reads rest spans) :
      Reads (before ++ (opening ++ tag ++ rest))
        (⟨before, .text before⟩ :: ⟨opening ++ tag, .text text⟩ :: spans)
  | key {before inner rest : List Char} {spans : List Span} (first : OpensAfter before)
      (unquoted : ∀ text tag rest', Quoted text tag → inner ++ closing ++ rest ≠ tag ++ rest')
      (closes : ¬closing <:+: inner ++ ['\x7d']) (on : Reads rest spans) :
      Reads (before ++ (opening ++ (inner ++ closing) ++ rest))
        (⟨before, .text before⟩ :: ⟨opening ++ (inner ++ closing), .key (Text.trim inner)⟩ :: spans)

/-- What a span may be, unless it is an opening without a closing. -/
inductive Span.Fits : Span → Prop where
  | plain {text : List Char} (bare : ¬opening <:+: text) : Fits ⟨text, .text text⟩
  | literal {text tag : List Char} (quoted : Quoted text tag) : Fits ⟨opening ++ tag, .text text⟩
  | key {inner : List Char} (closes : ¬closing <:+: inner) :
      Fits ⟨opening ++ (inner ++ closing), .key (Text.trim inner)⟩

/-- An opening that no closing follows. -/
inductive Span.Unclosed : Span → Prop where
  | mk {body : List Char} (open_ : ¬closing <:+: body) :
      Unclosed ⟨opening ++ body, .text (opening ++ body)⟩

variable {template body before after rest text tag inner cs : List Char} {spans : List Span}
  {bindings : Bindings} {c : Char} {p : Piece}

/-! ## Where a character first stands twice -/

/-- A character stands twice in a text if it does so at the front or behind the first character. -/
theorem twice_infix_cons_iff {a b : Char} :
    [c, c] <:+: a :: b :: cs ↔ (a = c ∧ b = c) ∨ [c, c] <:+: b :: cs := by
  simp only [@List.infix_cons_iff _ [c, c] a, List.cons_prefix_cons, List.nil_prefix,
    and_true, @eq_comm _ c]

/-- In a single character nothing stands twice. -/
theorem not_twice_infix_singleton {a : Char} : ¬[c, c] <:+: [a] := by
  intro h
  have := h.length_le
  simp at this

/-- A text is not split just when the character never stands twice in it. -/
theorem splitTwice?_eq_none_iff : splitTwice? c cs = none ↔ ¬[c, c] <:+: cs := by
  fun_induction splitTwice? c cs with
  | case1 a b cs same =>
    simp only [Bool.and_eq_true, decide_eq_true_eq] at same
    simp [twice_infix_cons_iff, same]
  | case2 a b cs other ih =>
    simp only [Bool.and_eq_true, decide_eq_true_eq] at other
    simp [twice_infix_cons_iff, other, ih]
  | case3 cs short =>
    cases cs with
    | nil => simp
    | cons a cs =>
      cases cs with
      | nil => simp [not_twice_infix_singleton]
      | cons b cs => exact absurd rfl (short a b cs)

/-- Before the first double character there is none, even if the character follows. -/
theorem not_twice_infix_of_splitTwice? (h : splitTwice? c cs = some (before, after)) :
    ¬[c, c] <:+: before ++ [c] := by
  fun_induction splitTwice? c cs generalizing before with
  | case1 a b cs same =>
    cases h
    exact not_twice_infix_singleton
  | case2 a b cs other ih =>
    simp only [Bool.and_eq_true, decide_eq_true_eq] at other
    obtain ⟨⟨before', after'⟩, found, made⟩ := Option.map_eq_some_iff.mp h
    cases made
    have whole := splitTwice?_eq found
    have first := ih found
    cases before' with
    | nil =>
      obtain ⟨rfl, -⟩ := List.cons.inj whole
      simpa [twice_infix_cons_iff, not_twice_infix_singleton] using other
    | cons d before' =>
      obtain ⟨rfl, -⟩ := List.cons.inj whole
      rw [List.cons_append, List.cons_append, twice_infix_cons_iff, not_or]
      exact ⟨other, first⟩
  | case3 cs short => cases h

/-- A text is split right behind a part that has no double character, even if the character
follows. -/
theorem splitTwice?_append (first : ¬[c, c] <:+: before ++ [c]) :
    splitTwice? c (before ++ c :: c :: after) = some (before, after) := by
  induction before with
  | nil => simp [splitTwice?]
  | cons a before ih =>
    have later : ¬[c, c] <:+: before ++ [c] :=
      fun inside => first (inside.trans (List.suffix_cons a _).isInfix)
    have other : ¬(a = c ∧ (before ++ c :: c :: after).head? = some c) := by
      rintro ⟨rfl, next⟩
      refine first ?_
      cases before with
      | nil => exact List.infix_refl _
      | cons b before =>
        obtain rfl : b = a := by simpa using next
        exact twice_infix_cons_iff.mpr (.inl ⟨rfl, rfl⟩)
    have split := ih later
    cases tail : before ++ c :: c :: after with
    | nil => simp at tail
    | cons b cs =>
      rw [tail] at split other
      rw [List.cons_append, tail, splitTwice?, if_neg (by simpa using other), split]
      rfl

/-! ## Tags -/

/-- Blanks in front are dropped together with those behind them. -/
theorem trimStart_append (blank : Blank before) (cs : List Char) :
    Text.trimStart (before ++ cs) = Text.trimStart cs :=
  List.dropWhile_append_of_pos blank

/-- A text is the blanks in front of it and what is left without them. -/
theorem exists_eq_blank_append (cs : List Char) :
    ∃ lead, Blank lead ∧ cs = lead ++ Text.trimStart cs :=
  ⟨cs.takeWhile Text.isBlank, List.all_eq_true.mp List.all_takeWhile,
    List.takeWhile_append_dropWhile.symm⟩

/-- A quoted text with its closing is read as such, whatever follows. -/
theorem quoted?_of_quoted (quoted : Quoted text tag) (rest : List Char) :
    quoted? (tag ++ rest) = some (text, rest) := by
  obtain ⟨hlead, inner, htrail⟩ := quoted
  rename_i lead trail
  have noQuote : ∀ c ∈ text, decide (c ≠ '"') = true := by
    intro c mem
    rw [decide_eq_true_eq]
    rintro rfl
    exact inner mem
  have behind : Text.trimStart (trail ++ (closing ++ rest)) = '\x7d' :: '\x7d' :: rest := by
    rw [trimStart_append htrail]
    rfl
  have start : Text.trimStart (lead ++ '"' :: (text ++ '"' :: (trail ++ closing)) ++ rest) =
      '"' :: (text ++ '"' :: (trail ++ (closing ++ rest))) := by
    rw [List.append_assoc, trimStart_append hlead]
    simp [Text.trimStart, Text.isBlank]
  unfold quoted?
  rw [start]
  simp only
  rw [List.dropWhile_append_of_pos noQuote, List.takeWhile_append_of_pos noQuote]
  simp [behind]

/-- What is read as a quoted text is one, with its closing. -/
theorem exists_quoted_of_quoted? (h : quoted? body = some (text, rest)) :
    ∃ tag, Quoted text tag ∧ body = tag ++ rest := by
  obtain ⟨lead, hlead, hbody⟩ := exists_eq_blank_append body
  unfold quoted? at h
  split at h
  · rename_i cs hcs
    split at h
    · rename_i after hafter
      split at h
      · rename_i rest' hrest
        cases h
        obtain ⟨trail, htrail, hgap⟩ := exists_eq_blank_append after
        have inner : '"' ∉ cs.takeWhile (· ≠ '"') := by
          intro mem
          simpa using List.all_eq_true.mp List.all_takeWhile _ mem
        have parts := @List.takeWhile_append_dropWhile _ (· ≠ '"') cs
        rw [hafter, hgap, hrest] at parts
        refine ⟨_, ⟨hlead, inner, htrail⟩, ?_⟩
        generalize cs.takeWhile (· ≠ '"') = text at parts ⊢
        rw [hbody, hcs, ← parts]
        simp [closing]
      · cases h
    · cases h
  · cases h

/-- A source that is told by how much is left behind it. -/
theorem take_length_sub (front rest : List Char) :
    (front ++ rest).take ((front ++ rest).length - rest.length) = front := by
  simp

/-- A tag that is a quoted text is read as this text. -/
theorem readTag?_of_quoted (quoted : Quoted text tag) (rest : List Char) :
    readTag? (tag ++ rest) = some (.literal (opening ++ tag) text, rest) := by
  unfold readTag?
  rw [quoted?_of_quoted quoted rest]
  dsimp only
  rw [take_length_sub]
  rfl

/-- What cannot be read as a quoted text is not. -/
theorem quoted?_eq_none
    (unquoted : ∀ text tag rest, Quoted text tag → body ≠ tag ++ rest) : quoted? body = none := by
  cases found : quoted? body with
  | none => rfl
  | some r =>
    obtain ⟨tag, quoted, whole⟩ := exists_quoted_of_quoted? found
    exact absurd whole (unquoted r.1 tag r.2 quoted)

/-- A tag that is no quoted text is read as a key, up to the first closing. -/
theorem readTag?_of_key (closes : ¬closing <:+: inner ++ ['\x7d'])
    (unquoted : ∀ text tag rest', Quoted text tag → inner ++ closing ++ rest ≠ tag ++ rest') :
    readTag? (inner ++ closing ++ rest) =
      some (.tag (opening ++ (inner ++ closing)) (Text.trim inner), rest) := by
  have split : splitTwice? '\x7d' (inner ++ closing ++ rest) = some (inner, rest) := by
    rw [List.append_assoc]
    exact splitTwice?_append closes
  unfold readTag?
  rw [quoted?_eq_none unquoted, split]
  simp only [Option.map_some, take_length_sub]
  rfl

/-- A quoted text has its closing. -/
theorem Quoted.closing_infix (quoted : Quoted text tag) : closing <:+: tag := by
  cases quoted with
  | @mk lead trail => exact ⟨lead ++ '"' :: (text ++ '"' :: trail), [], by simp⟩

/-- No tag is read just when no closing follows. -/
theorem readTag?_eq_none_iff : readTag? body = none ↔ ¬closing <:+: body := by
  unfold readTag?
  cases found : quoted? body with
  | some r =>
    obtain ⟨tag, quoted, rfl⟩ := exists_quoted_of_quoted? found
    have closed := quoted.closing_infix.trans (List.prefix_append tag r.2).isInfix
    simp [closed]
  | none =>
    dsimp only
    rw [Option.map_eq_none_iff]
    exact splitTwice?_eq_none_iff

/-- What is read from behind an opening is a quoted text or a key up to the first closing. -/
theorem readTag?_eq_some (h : readTag? body = some (p, rest)) :
    (∃ text tag, Quoted text tag ∧ body = tag ++ rest ∧ p = .literal (opening ++ tag) text) ∨
      ∃ inner, body = inner ++ closing ++ rest ∧ ¬closing <:+: inner ++ ['\x7d'] ∧
        (∀ text tag rest', Quoted text tag → body ≠ tag ++ rest') ∧
        p = .tag (opening ++ (inner ++ closing)) (Text.trim inner) := by
  cases found : quoted? body with
  | some r =>
    obtain ⟨text, rest'⟩ := r
    obtain ⟨tag, quoted, rfl⟩ := exists_quoted_of_quoted? found
    rw [readTag?_of_quoted quoted] at h
    cases h
    exact .inl ⟨text, tag, quoted, rfl, rfl⟩
  | none =>
    have unquoted : ∀ text tag rest', Quoted text tag → body ≠ tag ++ rest' := by
      rintro text tag rest' quoted rfl
      rw [quoted?_of_quoted quoted] at found
      cases found
    have reads := h
    unfold readTag? at h
    rw [found] at h
    obtain ⟨⟨inner, rest'⟩, split, made⟩ := Option.map_eq_some_iff.mp h
    have whole : body = inner ++ closing ++ rest' := by
      rw [splitTwice?_eq split]
      simp [closing]
    have closes := not_twice_infix_of_splitTwice? split
    rw [whole] at unquoted reads ⊢
    rw [readTag?_of_key closes unquoted] at reads
    cases reads
    exact .inr ⟨inner, rfl, closes, unquoted, rfl⟩

/-! ## The reading of a template -/

/-- What a span stands for is what its piece is filled to. -/
theorem value_span (p : Piece) : p.span.chunk.value bindings = p.fill bindings := by
  cases p with
  | tag source key =>
    unfold Piece.fill
    cases found : bindings.lookup (String.ofList key) <;> simp [Piece.span, Chunk.value, found]
  | plain | literal | unclosed => rfl

/-- A template without openings is one piece. -/
theorem pieces_of_bare (bare : ¬opening <:+: template) : pieces template = [.plain template] := by
  rw [pieces]
  split
  · rfl
  · rename_i split
    rw [splitTwice?_eq_none_iff.mpr bare] at split
    cases split

/-- An opening that no closing follows is the last piece. -/
theorem pieces_of_unclosed (first : OpensAfter before) (open_ : ¬closing <:+: body) :
    pieces (before ++ (opening ++ body)) = [.plain before, .unclosed (opening ++ body)] := by
  have split : splitTwice? '\x7b' (before ++ (opening ++ body)) = some (before, body) :=
    splitTwice?_append first
  have read := readTag?_eq_none_iff.mpr open_
  rw [pieces]
  split
  · rename_i none
    rw [split] at none
    cases none
  · rename_i found
    rw [split] at found
    cases found
    split
    · rfl
    · rename_i some
      rw [read] at some
      cases some

/-- A tag is a piece, behind the text in front of its opening, and the template goes on behind it.
-/
theorem pieces_of_tag (first : OpensAfter before) (read : readTag? body = some (p, rest)) :
    pieces (before ++ (opening ++ body)) = .plain before :: p :: pieces rest := by
  have split : splitTwice? '\x7b' (before ++ (opening ++ body)) = some (before, body) :=
    splitTwice?_append first
  rw [pieces]
  split
  · rename_i none
    rw [split] at none
    cases none
  · rename_i found
    rw [split] at found
    cases found
    split
    · rename_i none
      rw [read] at none
      cases none
    · rename_i some
      rw [read] at some
      cases some
      rfl

/-- The pieces of a template are a reading of it. -/
theorem reads_pieces (template : List Char) :
    Reads template ((pieces template).map Piece.span) := by
  fun_induction pieces template with
  | case1 template none => exact .plain (splitTwice?_eq_none_iff.mp none)
  | case2 template before body split read =>
    rw [splitTwice?_eq split]
    exact .unclosed (not_twice_infix_of_splitTwice? split) (readTag?_eq_none_iff.mp read)
  | case3 template before body split p rest read ih =>
    have first : OpensAfter before := not_twice_infix_of_splitTwice? split
    rw [splitTwice?_eq split]
    rcases readTag?_eq_some read with ⟨text, tag, quoted, rfl, rfl⟩ |
      ⟨inner, rfl, closes, unquoted, rfl⟩
    · exact .literal first quoted ih
    · exact .key first unquoted closes ih

/-- A template has one reading, and it is taken apart in this way. -/
theorem reads_iff : Reads template spans ↔ spans = (pieces template).map Piece.span := by
  constructor
  · intro reads
    induction reads with
    | plain bare =>
      rw [pieces_of_bare bare]
      rfl
    | unclosed first open_ =>
      rw [pieces_of_unclosed first open_]
      rfl
    | literal first quoted _ ih =>
      rw [List.append_assoc, pieces_of_tag first (readTag?_of_quoted quoted _), ih]
      rfl
    | key first unquoted closes _ ih =>
      rw [List.append_assoc, pieces_of_tag first (readTag?_of_key closes unquoted), ih]
      rfl
  · rintro rfl
    exact reads_pieces template

/-! ## What a reading is made of -/

namespace Reads

/-- The spans cover the template, one after the other. -/
theorem cover (reads : Reads template spans) : (spans.map Span.source).flatten = template := by
  induction reads with
  | plain | unclosed => simp
  | literal _ _ _ ih | key _ _ _ _ ih => simp [ih]

/-- What stands in front of an opening has none. -/
theorem fits_before (first : OpensAfter before) : Span.Fits ⟨before, .text before⟩ :=
  .plain fun inside => first (inside.trans (List.prefix_append before _).isInfix)

/-- Only the last span may be an opening without a closing. -/
theorem fits (reads : Reads template spans) :
    ∃ front last, spans = front ++ [last] ∧ (∀ s ∈ front, s.Fits) ∧ (last.Fits ∨ last.Unclosed) := by
  induction reads with
  | plain bare => exact ⟨[], _, rfl, nofun, .inl (.plain bare)⟩
  | unclosed first open_ =>
    exact ⟨[_], _, rfl, by simpa using fits_before first, .inr (.mk open_)⟩
  | literal first quoted _ ih =>
    obtain ⟨front, last, rfl, fits, ends⟩ := ih
    refine ⟨_ :: _ :: front, last, rfl, ?_, ends⟩
    simpa using ⟨fits_before first, .literal quoted, fits⟩
  | key first _ closes _ ih =>
    obtain ⟨front, last, rfl, fits, ends⟩ := ih
    refine ⟨_ :: _ :: front, last, rfl, ?_, ends⟩
    have inner : ¬closing <:+: _ := fun inside =>
      closes (inside.trans (List.prefix_append _ _).isInfix)
    simpa using ⟨fits_before first, .key inner, fits⟩

/-- Trimming takes a part out of the middle of a text. -/
theorem trim_isInfix (cs : List Char) : Text.trim cs <:+: cs := by
  have front : Text.trim cs <+: Text.trimStart cs := by
    have dropped := @List.dropWhile_suffix _ (Text.trimStart cs).reverse Text.isBlank
    simpa [Text.trim, Text.trimEnd] using List.reverse_prefix.mpr dropped
  exact front.isInfix.trans (Text.trimStart_suffix cs).isInfix

/-- A key has no closing in it, as it comes from inside of a tag. -/
theorem key_bare (reads : Reads template spans) {source name : List Char}
    (mem : ⟨source, .key name⟩ ∈ spans) :
    ¬closing <:+: name ∧ ∃ inner, source = opening ++ (inner ++ closing) ∧ name = Text.trim inner := by
  have fit : Span.Fits ⟨source, .key name⟩ := by
    obtain ⟨front, last, rfl, fits, ends⟩ := reads.fits
    rcases List.mem_append.mp mem with inside | here
    · exact fits _ inside
    · rw [List.mem_singleton] at here
      rw [← here] at ends
      rcases ends with fit | open_
      · exact fit
      · cases open_
  cases fit with
  | key closes => exact ⟨fun inside => closes (inside.trans (trim_isInfix _)), _, rfl, rfl⟩

end Reads

/-! ## Filling -/

/-- A template is filled to what its spans stand for, one after the other. -/
theorem toList_render (template : String) (bindings : Bindings) :
    (render template bindings).toList =
      ((pieces template.toList).map Piece.span).flatMap fun s => s.chunk.value bindings := by
  unfold render
  simp only [String.toList_ofList, List.flatMap_map, value_span]

/-- A template is read in one way, whatever its keys are bound to. The spans of the reading cover it;
those before the last are texts without an opening, quoted texts and tags with keys, and the last one
may also be an opening without a closing; no key has a closing in it. Filling the template puts
the texts and the values of the keys together in the order of the spans, so that it only matters what
the keys of the template are bound to, and a template without an opening stays as it is. -/
theorem render_puts_spans_together (template : String) :
    ∃ spans : List Span,
      (∀ other, Reads template.toList other ↔ other = spans) ∧
      (spans.map Span.source).flatten = template.toList ∧
      (∃ front last, spans = front ++ [last] ∧ (∀ s ∈ front, s.Fits) ∧
        (last.Fits ∨ last.Unclosed)) ∧
      (∀ source name, ⟨source, .key name⟩ ∈ spans → ¬closing <:+: name ∧
        ∃ inner, source = opening ++ (inner ++ closing) ∧ name = Text.trim inner) ∧
      (∀ bindings, (render template bindings).toList =
        spans.flatMap fun s => s.chunk.value bindings) ∧
      (∀ bindings bindings' : Bindings,
        (∀ source name, ⟨source, .key name⟩ ∈ spans →
          bindings.lookup (String.ofList name) = bindings'.lookup (String.ofList name)) →
        render template bindings = render template bindings') ∧
      (¬opening <:+: template.toList → ∀ bindings, render template bindings = template) := by
  have reads := reads_pieces template.toList
  refine ⟨(pieces template.toList).map Piece.span, fun _ => reads_iff, reads.cover, reads.fits,
    fun _ _ => reads.key_bare, toList_render template, ?_, ?_⟩
  · intro bindings bindings' agree
    apply String.toList_inj.mp
    rw [toList_render, toList_render, List.flatMap_def, List.flatMap_def]
    congr 1
    apply List.map_congr_left
    rintro ⟨source, chunk⟩ mem
    cases chunk with
    | text cs => rfl
    | key name => simp only [Chunk.value, agree source name mem]
  · intro bare bindings
    apply String.toList_inj.mp
    rw [toList_render, pieces_of_bare bare]
    simp [Piece.span, Chunk.value]

/-- A quoted text with braces, a key with blanks around it, a key that is bound to nothing, and an
opening without a closing. -/
example :
    render "\x7b\x7b \"\x7b\x7b\" \x7d\x7da\x7b\x7b k \x7d\x7d\x7b\x7bn\x7d\x7d\x7b\x7bk" [("k", "\x7b\x7bk\x7d\x7d")] =
      "\x7b\x7ba\x7b\x7bk\x7d\x7d\x7b\x7bk" := by
  cbv

end LogTopology.Template
