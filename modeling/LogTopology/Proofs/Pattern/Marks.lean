import LogTopology.Proofs.Pattern.Reading
/-!
# The range to be coloured

Two flags of a pattern mark where the range of a line starts and stops that is to be coloured. A
mark stands in a pattern where the pattern, read from the left, has come to its percent sign
(`MarkAt`), so that a circumflex behind two percent signs marks nothing. The place of a mark in a
line is the number of bytes that the pattern in front of it stands for.

A line has a range exactly when its pattern has a start. The range lies within the text of the line,
before the newline, and its ends lie between characters: `Draft.Sound`, kept by every token. It
starts at the last start of the pattern and stops at the last stop behind it, if there is one.

With no stop behind the last start the range reaches to the end of the text, but for one case. A
stop in front of the start counts when nothing but empty text stands between the two, because places
are compared and not marks. Whether that is so may depend on the record.
-/

namespace LogTopology.Pattern

/-- The ends of the range to be coloured. -/
inductive Mark where
  | start
  | stop
  deriving DecidableEq, Repr

namespace Mark

/-- The flag of an end. -/
def flag : Mark → Char
  | start => '^'
  | stop => '$'

/-- The token of an end. -/
def token : Mark → Token
  | start => .colourStart
  | stop => .colourEnd

end Mark

/-- A mark stands between two parts of a pattern. -/
structure MarkAt (m : Mark) (pattern before after : List Char) : Prop where
  fine : WellFormed before
  split : pattern = before ++ '%' :: m.flag :: after

/-- A mark stands somewhere in a pattern. -/
def Has (m : Mark) (pattern : List Char) : Prop :=
  ∃ before after, MarkAt m pattern before after

/-- A mark stands between two parts of a pattern, and not in the second part again. -/
structure LastMark (m : Mark) (pattern before after : List Char) : Prop
    extends MarkAt m pattern before after where
  last : ¬Has m after

/-- The place of an end in the draft of a line. -/
def Draft.place? (d : Draft) : Mark → Option Nat
  | .start => d.start
  | .stop => d.stop

/-- The ends of a draft lie between characters of its text. -/
def Draft.Sound (d : Draft) : Prop :=
  ∀ m n, d.place? m = some n → ∃ front, front <+: d.text ∧ byteLength front = n

/-- The draft of a line, before the newline is put behind it. -/
def draft (process : Nat) (p : Pattern) (r : Record) : Draft :=
  p.tokens.foldl (Draft.add process r) ⟨[], none, none⟩

variable {m : Mark} {c : Char} {pattern cs before after rest literal : List Char} {source : String}
  {tokens front back ts : List Token} {process : Nat} {r : Record} {d : Draft} {t : Token}

/-! ## Marks in a pattern -/

/-- What marks an end is a flag. -/
theorem Mark.follows_flag (m : Mark) : Follows m.flag := by
  cases m with
  | start | stop => exact .inr (by decide)

/-- No mark is a percent sign. -/
theorem Mark.flag_ne_percent (m : Mark) : m.flag ≠ '%' := by
  cases m with
  | start | stop => decide

/-- The two ends have different flags. -/
theorem Mark.flag_inj {m m' : Mark} (same : m.flag = m'.flag) : m = m' := by
  cases m with
  | start => cases m' with
    | start => rfl
    | stop => exact absurd same (by decide)
  | stop => cases m' with
    | start => exact absurd same (by decide)
    | stop => rfl

/-- The empty pattern has no mark. -/
theorem not_has_nil : ¬Has m [] := by
  rintro ⟨before, after, -, split⟩
  simp at split

/-- A character that stands for itself is no mark. -/
theorem has_plain_iff (h : c ≠ '%') : Has m (c :: cs) ↔ Has m cs := by
  constructor
  · rintro ⟨before, after, fine, split⟩
    cases before with
    | nil => exact absurd (List.cons.inj split).1 h
    | cons b before =>
      simp only [List.cons_append, List.cons.injEq] at split
      obtain ⟨rfl, split⟩ := split
      exact ⟨before, after, (wellFormed_plain_iff h).mp fine, split⟩
  · rintro ⟨before, after, fine, rfl⟩
    exact ⟨c :: before, after, .plain h fine, rfl⟩

/-- A percent sign makes a mark of the character behind it, or takes the character with it. -/
theorem has_percent_iff (h : Follows c) : Has m ('%' :: c :: cs) ↔ c = m.flag ∨ Has m cs := by
  constructor
  · rintro ⟨before, after, fine, split⟩
    cases fine with
    | nil =>
      simp only [List.nil_append, List.cons.injEq, true_and] at split
      exact .inl split.1
    | plain other _ => exact absurd (List.cons.inj split).1.symm other
    | percent _ fine =>
      simp only [List.cons_append, List.cons.injEq, true_and] at split
      exact .inr ⟨_, after, fine, split.2⟩
  · rintro (rfl | ⟨before, after, fine, rfl⟩)
    · exact ⟨[], cs, .nil, rfl⟩
    · exact ⟨'%' :: c :: before, after, .percent h fine, rfl⟩

/-- A mark stands in the first part or in the second one, if the first can be read by itself. -/
theorem has_append_iff (fine : WellFormed before) :
    Has m (before ++ rest) ↔ Has m before ∨ Has m rest := by
  induction fine with
  | nil => exact (or_iff_right not_has_nil).symm
  | plain h _ ih => rw [List.cons_append, has_plain_iff h, has_plain_iff h, ih]
  | percent h _ ih =>
    rw [List.cons_append, List.cons_append, has_percent_iff h, has_percent_iff h, ih, or_assoc]

/-- A mark that stands in a pattern stands there for a last time. -/
theorem exists_last (has : Has m pattern) : ∃ before after, LastMark m pattern before after := by
  obtain ⟨before, after, here⟩ := has
  -- As long as the mark stands behind this place again, less of the pattern is left behind it.
  induction len : after.length using Nat.strongRecOn generalizing before after with
  | ind n ih =>
  by_cases again : Has m after
  · obtain ⟨between, rest, fine, rfl⟩ := again
    have next : MarkAt m pattern (before ++ '%' :: m.flag :: between) rest := by
      refine ⟨(wellFormed_append_iff here.fine).mpr (.percent m.follows_flag fine), ?_⟩
      rw [here.split]
      simp
    refine ih rest.length ?_ _ _ next rfl
    rw [← len]
    simp only [List.length_append, List.length_cons]
    omega
  · exact ⟨before, after, here, again⟩

/-- What stands behind a mark can be read by itself. -/
theorem MarkAt.wellFormed_after (here : MarkAt m pattern before after) (fine : WellFormed pattern) :
    WellFormed after := by
  rw [here.split, wellFormed_append_iff here.fine, wellFormed_percent_iff] at fine
  exact fine.2

/-- A mark takes no room in a line. -/
theorem MarkAt.interpret_eq (here : MarkAt m pattern before after) (process : Nat) (r : Record) :
    interpret process r pattern = interpret process r before ++ interpret process r after := by
  have nothing : meaning process r m.flag = [] := by
    cases m with
    | start | stop => rfl
  rw [here.split, interpret_append here.fine, interpret, nothing, List.nil_append]

/-! ## Marks among the tokens -/

/-- The flag of an end is read as the token of the end. -/
theorem Mark.ofChar?_flag (m : Mark) : Token.ofChar? m.flag = some m.token := by
  cases m with
  | start | stop => rfl

/-- No other character is read as the token of an end. -/
theorem Mark.ofChar?_eq_token (m : Mark) (c : Char) :
    Token.ofChar? c = some m.token ↔ c = m.flag := by
  refine ⟨fun found => ?_, fun same => same ▸ m.ofChar?_flag⟩
  unfold Token.ofChar? at found
  split at found
  · rename_i here
    cases m with
    | start => exact here
    | stop => cases found
  split at found
  · rename_i here
    cases m with
    | start => cases found
    | stop => exact here
  · obtain ⟨f, -, part⟩ := Option.map_eq_some_iff.mp found
    cases m with
    | start | stop => cases part

/-- Handing on literal text adds no mark. -/
theorem mem_settle_iff : m.token ∈ settle tokens literal ↔ m.token ∈ tokens := by
  unfold settle
  split
  · rfl
  · cases m with
    | start | stop => simp [Mark.token]

/-- The marks among the tokens are those in the pattern. -/
theorem token_mem_iff (fine : WellFormed pattern)
    (compiled : tokenize source tokens literal pattern = .ok ts) :
    m.token ∈ ts ↔ m.token ∈ tokens ∨ Has m pattern := by
  induction fine generalizing tokens literal with
  | nil =>
    cases compiled
    rw [mem_settle_iff, or_iff_left not_has_nil]
  | plain h _ ih =>
    rw [tokenize_plain h] at compiled
    rw [ih compiled, has_plain_iff h]
  | @percent c cs h _ ih =>
    rw [has_percent_iff h]
    rcases h with rfl | isFlag
    · rw [ih compiled, or_iff_right m.flag_ne_percent.symm]
    · obtain ⟨other, isSome⟩ := isSome_token_of_flag c isFlag
      obtain ⟨t, found⟩ := Option.isSome_iff_exists.mp isSome
      rw [tokenize_flag other found] at compiled
      have here : m.token = t ↔ c = m.flag := by
        rw [← m.ofChar?_eq_token, found, Option.some_inj, eq_comm]
      rw [ih compiled, List.mem_append, mem_settle_iff, List.mem_singleton, here, or_assoc]

/-- Tokens that are there already stay in front of those that the compiler adds. -/
theorem tokenize_behind (fine : WellFormed pattern) (front : List Token)
    (compiled : tokenize source tokens literal pattern = .ok ts) :
    tokenize source (front ++ tokens) literal pattern = .ok (front ++ ts) := by
  have settle_behind (tokens : List Token) (literal : List Char) :
      settle (front ++ tokens) literal = front ++ settle tokens literal := by
    unfold settle
    split
    · rfl
    · exact List.append_assoc ..
  induction fine generalizing tokens literal with
  | nil =>
    cases compiled
    exact congrArg Except.ok (settle_behind tokens literal)
  | plain h _ ih =>
    rw [tokenize_plain h] at compiled ⊢
    exact ih compiled
  | @percent c cs h _ ih =>
    rcases h with rfl | isFlag
    · change tokenize source tokens (literal ++ ['%']) cs = .ok ts at compiled
      exact ih compiled
    · obtain ⟨other, isSome⟩ := isSome_token_of_flag c isFlag
      obtain ⟨t, found⟩ := Option.isSome_iff_exists.mp isSome
      rw [tokenize_flag other found] at compiled ⊢
      rw [settle_behind, List.append_assoc]
      exact ih compiled

/-- The tokens in front of a mark stand for the pattern in front of it, and those behind it are
those of the pattern behind it. -/
theorem tokens_of_markAt (here : MarkAt m pattern before after) (fine : WellFormed pattern)
    (compiled : tokenize source [] [] pattern = .ok tokens) :
    ∃ front back, tokens = front ++ m.token :: back ∧ tokenize source [] [] after = .ok back ∧
      ∀ process r, written process r front = interpret process r before := by
  obtain ⟨tokens', literal', goesOn, stands⟩ := tokenize_append here.fine source [] []
  have fineAfter := here.wellFormed_after fine
  obtain ⟨tokensAfter, literalAfter, ends, -⟩ := tokenize_append fineAfter source [] []
  have compiledAfter : tokenize source [] [] after = .ok (settle tokensAfter literalAfter) := by
    rw [← List.append_nil after, ends]
    rfl
  refine ⟨settle tokens' literal', settle tokensAfter literalAfter, ?_, compiledAfter, ?_⟩
  · have whole := tokenize_behind fineAfter (settle tokens' literal' ++ [m.token]) compiledAfter
    rw [here.split, goesOn, tokenize_flag m.flag_ne_percent m.ofChar?_flag] at compiled
    rw [List.append_nil, compiled] at whole
    cases whole
    simp
  · intro process r
    rw [written_settle, stands]
    simp [written]

/-! ## Marks in a draft -/

/-- The place of an end is where its last token stands. -/
theorem place?_add (d : Draft) (t : Token) :
    (d.add process r t).place? m =
      if t = m.token then some (byteLength d.text) else d.place? m := by
  cases m with
  | start => cases t with
    | literal | part | colourStart | colourEnd => rfl
  | stop => cases t with
    | literal | part | colourStart | colourEnd => rfl

/-- Without tokens of an end its place stays. -/
theorem place?_foldl_of_not_mem (fresh : m.token ∉ tokens) (d : Draft) :
    (tokens.foldl (Draft.add process r) d).place? m = d.place? m := by
  induction tokens generalizing d with
  | nil => rfl
  | cons t tokens ih =>
    have other : t ≠ m.token := (List.ne_of_not_mem_cons fresh).symm
    rw [List.foldl_cons, ih (List.not_mem_of_not_mem_cons fresh), place?_add, if_neg other]

/-- The last token of an end is at the end of the text in front of it. -/
theorem place?_foldl_of_last (fresh : m.token ∉ back) (d : Draft) :
    ((front ++ m.token :: back).foldl (Draft.add process r) d).place? m =
      some (byteLength (d.text ++ written process r front)) := by
  rw [List.foldl_append, List.foldl_cons, place?_foldl_of_not_mem fresh, place?_add, if_pos rfl,
    text_foldl_add]

section Compiled

variable {source : String} {p : Pattern} {before after : List Char}
  (compiled : compile source = .ok p)

include compiled

/-- The tokens of a compiled pattern are those of its source. -/
theorem tokenize_of_compiled : tokenize source [] [] source.toList = .ok p.tokens := by
  unfold compile at compiled
  cases found : tokenize source [] [] source.toList with
  | error e =>
    rw [found] at compiled
    cases compiled
  | ok tokens =>
    rw [found] at compiled
    cases compiled
    rfl

/-- The text of a draft is the direct reading of the source. -/
theorem text_draft (process : Nat) (r : Record) :
    (draft process p r).text = interpret process r source.toList :=
  List.append_cancel_right (format_text compiled process r)

/-- The place of a mark is where its last one stands in the line. -/
theorem place?_of_last (last : LastMark m source.toList before after) (process : Nat) (r : Record) :
    (draft process p r).place? m = some (byteLength (interpret process r before)) := by
  have fine := compile_eq_ok_iff.mp ⟨p, compiled⟩
  obtain ⟨front, back, split, compiledBack, stands⟩ :=
    tokens_of_markAt last.toMarkAt fine (tokenize_of_compiled compiled)
  have fresh : m.token ∉ back := by
    rw [token_mem_iff (last.wellFormed_after fine) compiledBack]
    exact not_or.mpr ⟨List.not_mem_nil, last.last⟩
  rw [draft, split, place?_foldl_of_last fresh, stands, List.nil_append]

/-- An end that the source does not mark has no place. -/
theorem place?_of_not_has (none : ¬Has m source.toList) (process : Nat) (r : Record) :
    (draft process p r).place? m = Option.none := by
  have fine := compile_eq_ok_iff.mp ⟨p, compiled⟩
  have fresh : m.token ∉ p.tokens := by
    rw [token_mem_iff fine (tokenize_of_compiled compiled)]
    exact not_or.mpr ⟨List.not_mem_nil, none⟩
  rw [draft, place?_foldl_of_not_mem fresh]
  cases m with
  | start | stop => rfl

/-- A line has a range to be coloured exactly when its pattern has a start. -/
theorem isSome_colour_iff (process : Nat) (r : Record) :
    (p.format process r).colour.isSome ↔ Has .start source.toList := by
  have same : (p.format process r).colour.isSome = ((draft process p r).place? .start).isSome :=
    Option.isSome_map
  rw [same]
  by_cases has : Has .start source.toList
  · obtain ⟨before, after, last⟩ := exists_last has
    rw [place?_of_last compiled last]
    exact iff_of_true rfl has
  · rw [place?_of_not_has compiled has]
    exact iff_of_false Bool.false_ne_true has

end Compiled

/-! ## Where the range lies -/

/-- The length of two texts put together is the sum of their lengths. -/
theorem byteLength_append (first second : List Char) :
    byteLength (first ++ second) = byteLength first + byteLength second := by
  induction first with
  | nil => exact (Nat.zero_add _).symm
  | cons c first ih =>
    rw [List.cons_append, byteLength, byteLength, ih]
    omega

/-- Only the empty text takes up no byte. -/
theorem byteLength_eq_zero_iff : byteLength cs = 0 ↔ cs = [] := by
  cases cs with
  | nil => exact iff_of_true rfl rfl
  | cons c cs =>
    have room := c.utf8Size_pos
    rw [byteLength]
    exact iff_of_false (by omega) (List.cons_ne_nil c cs)

/-- Of two fronts of a text the one with fewer bytes is a front of the other. -/
theorem prefix_of_byteLength_le {text first second : List Char} (hfirst : first <+: text)
    (hsecond : second <+: text) (le : byteLength first ≤ byteLength second) : first <+: second := by
  rcases List.prefix_or_prefix_of_prefix hfirst hsecond with shorter | ⟨rest, rfl⟩
  · exact shorter
  · have none : rest = [] := by
      rw [byteLength_append] at le
      exact byteLength_eq_zero_iff.mp (by omega)
    exact ⟨[], by rw [none, List.append_nil, List.append_nil]⟩

/-- A token adds to the end of a draft. -/
theorem text_prefix_add (d : Draft) (t : Token) : d.text <+: (d.add process r t).text := by
  cases t with
  | literal | part => exact List.prefix_append ..
  | colourStart | colourEnd => exact List.prefix_refl _

/-- A token leaves the ends of a draft between characters. -/
theorem Draft.Sound.add (sound : d.Sound) (t : Token) : (d.add process r t).Sound := by
  intro m n found
  rw [place?_add] at found
  split at found
  · cases found
    exact ⟨d.text, text_prefix_add d t, rfl⟩
  · obtain ⟨front, isFront, size⟩ := sound m n found
    exact ⟨front, isFront.trans (text_prefix_add d t), size⟩

/-- Tokens leave the ends of a draft between characters. -/
theorem Draft.Sound.foldl (sound : d.Sound) (tokens : List Token) :
    (tokens.foldl (Draft.add process r) d).Sound := by
  induction tokens generalizing d with
  | nil => exact sound
  | cons t tokens ih => exact ih (sound.add t)

/-- The ends of the draft of any pattern lie between characters. -/
theorem draft_sound (process : Nat) (p : Pattern) (r : Record) : (draft process p r).Sound := by
  refine Draft.Sound.foldl ?_ p.tokens
  intro m n found
  cases m with
  | start | stop => cases found

/-- The stop of a range is not before its start, and it is a front of the text that takes so many
bytes. -/
theorem exists_front_of_stop (d : Draft) (sound : d.Sound) {start stop : Nat}
    (colour : d.colour = some (start, stop)) :
    d.place? .start = some start ∧ start ≤ stop ∧
      ∃ front, front <+: d.text ∧ byteLength front = stop := by
  obtain ⟨start', started, made⟩ := Option.map_eq_some_iff.mp colour
  obtain ⟨rfl, stops⟩ := Prod.mk.inj made
  refine ⟨started, ?_⟩
  cases stopped : d.stop.filter (start' ≤ ·) with
  | none =>
    rw [stopped, Option.getD_none] at stops
    obtain ⟨head, ⟨rest, whole⟩, size⟩ := sound .start start' started
    refine ⟨?_, d.text, List.prefix_refl _, stops⟩
    rw [← stops, ← size, ← whole, byteLength_append]
    exact Nat.le_add_right ..
  | some stop' =>
    rw [stopped, Option.getD_some] at stops
    obtain ⟨found, le⟩ := Option.filter_eq_some_iff.mp stopped
    rw [← stops]
    exact ⟨of_decide_eq_true le, sound .stop stop' found⟩

/-- A range parts the text of its line between characters, and the newline is behind it. -/
theorem colour_splits {p : Pattern} {start stop : Nat}
    (colour : (p.format process r).colour = some (start, stop)) :
    ∃ before inside after, (p.format process r).text = before ++ inside ++ (after ++ ['\n']) ∧
      byteLength before = start ∧ byteLength (before ++ inside) = stop := by
  have sound := draft_sound process p r
  obtain ⟨started, le, front, isFront, stops⟩ := exists_front_of_stop _ sound colour
  obtain ⟨before, isBefore, starts⟩ := sound .start start started
  rw [← starts, ← stops] at le
  obtain ⟨inside, rfl⟩ := prefix_of_byteLength_le isBefore isFront le
  obtain ⟨after, whole⟩ := isFront
  refine ⟨before, inside, after, ?_, starts, stops⟩
  change (draft process p r).text ++ ['\n'] = _
  rw [← whole, List.append_assoc]

/-! ## Which marks count -/

/-- A stop stands in front of the end of a part of a pattern, and nothing is written behind it. -/
def StopsAtEnd (process : Nat) (r : Record) (pattern : List Char) : Prop :=
  ∃ front between, LastMark .stop pattern front between ∧ interpret process r between = []

/-- The text of a pattern is as long as the texts in front of a mark and behind it. -/
theorem LastMark.byteLength_eq (last : LastMark m pattern before after) (process : Nat)
    (r : Record) :
    byteLength (interpret process r pattern) =
      byteLength (interpret process r before) + byteLength (interpret process r after) := by
  rw [last.toMarkAt.interpret_eq process r, byteLength_append]

/-- Behind a mark, the last one of a kind is the last one of the pattern. -/
theorem LastMark.behind {m' : Mark} {inside rest : List Char} (here : MarkAt m pattern before after)
    (last : LastMark m' after inside rest) :
    LastMark m' pattern (before ++ '%' :: m.flag :: inside) rest where
  fine := (wellFormed_append_iff here.fine).mpr (.percent m.follows_flag last.fine)
  split := by
    rw [here.split, last.split]
    simp
  last := last.last

/-- In front of a mark that no mark of another kind follows, the last one of that kind is the last
one of the pattern. -/
theorem LastMark.ahead {m' : Mark} {front between : List Char}
    (here : MarkAt m pattern before after) (other : m ≠ m') (none : ¬Has m' after)
    (last : LastMark m' before front between) :
    LastMark m' pattern front (between ++ '%' :: m.flag :: after) where
  fine := last.fine
  split := by
    rw [here.split, last.split]
    simp
  last := by
    rw [has_append_iff (last.wellFormed_after here.fine), has_percent_iff m.follows_flag]
    exact not_or.mpr ⟨last.last, not_or.mpr ⟨fun same => other (Mark.flag_inj same), none⟩⟩

/-- Where the range of a draft stops: at the place of its stop unless that is before its start, and
else at the end of the text. -/
theorem colour_of_start {start : Nat} (started : d.place? .start = some start) :
    ∃ stop, d.colour = some (start, stop) ∧
      (∀ n, d.place? .stop = some n → start ≤ n → stop = n) ∧
      (∀ n, d.place? .stop = some n → ¬start ≤ n → stop = byteLength d.text) ∧
      (d.place? .stop = none → stop = byteLength d.text) := by
  refine ⟨_, congrArg (Option.map _) started, ?_, ?_, ?_⟩
  · intro n stopped le
    have counts : (some n).filter (start ≤ ·) = some n :=
      Option.filter_some_pos (decide_eq_true le)
    change ((d.place? .stop).filter (start ≤ ·)).getD _ = n
    rw [stopped, counts, Option.getD_some]
  · intro n stopped early
    have fails : (some n).filter (start ≤ ·) = none :=
      Option.filter_some_neg (decide_eq_false early)
    change ((d.place? .stop).filter (start ≤ ·)).getD _ = _
    rw [stopped, fails, Option.getD_none]
  · intro unstopped
    change ((d.place? .stop).filter (start ≤ ·)).getD _ = _
    rw [unstopped]
    rfl

/-- The range starts at the last start of the pattern. It stops at the last stop behind that start.
With none there it reaches to the end of the text, before the newline, unless a stop stands in front
of the start with nothing written between the two; then it stops where it starts. -/
theorem colour_between_last_marks {source : String} {p : Pattern}
    (compiled : compile source = .ok p) (marked : Has .start source.toList)
    (process : Nat) (r : Record) :
    ∃ before after stop, LastMark .start source.toList before after ∧
      (p.format process r).text = interpret process r source.toList ++ ['\n'] ∧
      (p.format process r).colour = some (byteLength (interpret process r before), stop) ∧
      (Has .stop after → ∃ inside rest, LastMark .stop after inside rest ∧
        stop = byteLength (interpret process r (before ++ '%' :: '^' :: inside))) ∧
      (¬Has .stop after → StopsAtEnd process r before →
        stop = byteLength (interpret process r before)) ∧
      (¬Has .stop after → ¬StopsAtEnd process r before →
        stop = byteLength (interpret process r source.toList)) := by
  obtain ⟨before, after, last⟩ := exists_last marked
  obtain ⟨stop, colour, stopped, early, unstopped⟩ :=
    colour_of_start (place?_of_last compiled last process r)
  rw [text_draft compiled] at early unstopped
  refine ⟨before, after, stop, last, format_text compiled process r, colour, ?_, ?_, ?_⟩
  · -- The last stop mark behind the start counts, since no text is taken away before it.
    intro has
    obtain ⟨inside, rest, lastStop⟩ := exists_last has
    have place := place?_of_last compiled (lastStop.behind last.toMarkAt) process r
    refine ⟨inside, rest, lastStop, stopped _ place ?_⟩
    have here : MarkAt .start (before ++ '%' :: '^' :: inside) before inside := ⟨last.fine, rfl⟩
    change _ ≤ byteLength (interpret process r (before ++ '%' :: '^' :: inside))
    rw [here.interpret_eq, byteLength_append]
    exact Nat.le_add_right ..
  · -- Nothing is written between the last stop mark and the start, so both are at one place.
    rintro none ⟨front, between, lastStop, empty⟩
    have lastOfAll := lastStop.ahead last.toMarkAt (by decide) none
    have place := place?_of_last compiled lastOfAll process r
    have same := lastStop.byteLength_eq process r
    rw [empty, byteLength, Nat.add_zero] at same
    rw [same]
    exact stopped _ place (Nat.le_of_eq same)
  · intro none apart
    by_cases has : Has .stop before
    · -- Text is written between the last stop mark and the start, so the mark comes too early.
      obtain ⟨front, between, lastStop⟩ := exists_last has
      have lastOfAll := lastStop.ahead last.toMarkAt (by decide) none
      have place := place?_of_last compiled lastOfAll process r
      refine early _ place ?_
      have sizes := lastStop.byteLength_eq process r
      have room : byteLength (interpret process r between) ≠ 0 :=
        fun zero => apart ⟨front, between, lastStop, byteLength_eq_zero_iff.mp zero⟩
      omega
    · refine unstopped (place?_of_not_has compiled ?_ process r)
      rw [last.split, has_append_iff last.fine, has_percent_iff Mark.start.follows_flag]
      exact not_or.mpr ⟨has, not_or.mpr ⟨by decide, none⟩⟩

/-- Of two stops behind the last start the second counts, and the stop in front of it does not. -/
theorem second_stop_counts :
    let p : Pattern := ⟨"%$%l %^%v%$|%$", [.colourEnd, .part .level, .literal [' '], .colourStart,
      .part .payload, .colourEnd, .literal ['|'], .colourEnd]⟩
    let r : Record := ⟨"app", .err, ⟨0, 0, 0⟩, 1, "日志"⟩
    compile "%$%l %^%v%$|%$" = .ok p ∧ Has .start "%$%l %^%v%$|%$".toList ∧
      (p.format 7 r).colour = some (4, 11) ∧
      ∃ before after stop, LastMark .start "%$%l %^%v%$|%$".toList before after ∧
        (p.format 7 r).text = interpret 7 r "%$%l %^%v%$|%$".toList ++ ['\n'] ∧
        (p.format 7 r).colour = some (byteLength (interpret 7 r before), stop) ∧
        (Has .stop after → ∃ inside rest, LastMark .stop after inside rest ∧
          stop = byteLength (interpret 7 r (before ++ '%' :: '^' :: inside))) ∧
        (¬Has .stop after → StopsAtEnd 7 r before → stop = byteLength (interpret 7 r before)) ∧
        (¬Has .stop after → ¬StopsAtEnd 7 r before →
          stop = byteLength (interpret 7 r "%$%l %^%v%$|%$".toList)) := by
  intro p r
  have compiled : compile "%$%l %^%v%$|%$" = .ok p := rfl
  have marked : Has .start "%$%l %^%v%$|%$".toList :=
    (isSome_colour_iff compiled 7 r).mp (by decide)
  exact ⟨compiled, marked, by decide, colour_between_last_marks compiled marked 7 r⟩

/-- A stop in front of the start ends the range of a record with an empty message, though no stop
follows the start; with another message the same pattern has a range to the end of the text. -/
theorem empty_message_ends_range :
    let p : Pattern := ⟨"%$%v%^ done",
      [.colourEnd, .part .payload, .colourStart, .literal [' ', 'd', 'o', 'n', 'e']]⟩
    let said (message : String) : Record := ⟨"app", .info, ⟨0, 0, 0⟩, 1, message⟩
    compile "%$%v%^ done" = .ok p ∧
      LastMark .start "%$%v%^ done".toList ['%', '$', '%', 'v'] [' ', 'd', 'o', 'n', 'e'] ∧
      ¬Has .stop [' ', 'd', 'o', 'n', 'e'] ∧
      p.format 7 (said "") = ⟨[' ', 'd', 'o', 'n', 'e', '\n'], some (0, 0)⟩ ∧
      p.format 7 (said "x") = ⟨['x', ' ', 'd', 'o', 'n', 'e', '\n'], some (1, 6)⟩ := by
  intro p said
  have bare (m : Mark) : ¬Has m [' ', 'd', 'o', 'n', 'e'] := by
    simp [has_plain_iff, not_has_nil]
  have fine : WellFormed ['%', '$', '%', 'v'] :=
    .percent (.inr (by decide)) (.percent (.inr (by decide)) .nil)
  exact ⟨rfl, ⟨⟨fine, by decide⟩, bare .start⟩, bare .stop, by decide, by decide⟩

end LogTopology.Pattern
