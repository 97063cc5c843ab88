import LogTopology.Pattern.Line
/-!
# Reading a pattern from the left

A character of a pattern stands for itself; a percent sign stands, together with the character after
it, for a percent sign, for a part of the record or for nothing. `interpret` reads a pattern so, and
`WellFormed` tells which patterns can be read: those in which every percent sign that is met has a
percent sign or a flag after it.

The compiler gathers literal text and hands it on only when a flag or the end is met. It compiles
the patterns that can be read and no others, and the lines of a compiled pattern are those of the
direct reading. Reading is compositional, so patterns can be put together, and doubling the percent
signs of a text makes a pattern of it.

Where the range to be coloured lies is not told here.
-/

namespace LogTopology

/-- The text that a token stands for. -/
def Token.text (process : Nat) (r : Record) : Token → List Char
  | .literal text => text
  | .part f => f.text process r
  | .colourStart => []
  | .colourEnd => []

namespace Pattern

/-- The characters that are flags. -/
def flagChars : List Char :=
  ['v', 'n', 'l', 'L', 't', 'P', 'Y', 'm', 'd', 'H', 'M', 'S', 'z', 'T', 'D', 'c', 'e', 'f', '^', '$']

/-- What may stand after a percent sign. -/
def Follows (c : Char) : Prop :=
  c = '%' ∨ c ∈ flagChars

/-- Every percent sign that is met from the left has a percent sign or a flag after it. -/
inductive WellFormed : List Char → Prop where
  | nil : WellFormed []
  | plain {c : Char} {cs : List Char} (h : c ≠ '%') (rest : WellFormed cs) : WellFormed (c :: cs)
  | percent {c : Char} {cs : List Char} (h : Follows c) (rest : WellFormed cs) :
      WellFormed ('%' :: c :: cs)

/-- The first fault of a pattern, everything before it being well-formed. -/
inductive Faulty (source : String) : List Char → SetupError → Prop where
  | dangling {before : List Char} (fine : WellFormed before) :
      Faulty source (before ++ ['%']) (.danglingFlag source)
  | unknown {before rest : List Char} {c : Char} (fine : WellFormed before) (h : ¬Follows c) :
      Faulty source (before ++ '%' :: c :: rest) (.unknownFlag c source)

/-- What a percent sign with the given character after it stands for. -/
def meaning (process : Nat) (r : Record) (c : Char) : List Char :=
  let t := r.time.wall
  match c with
  | '%' => ['%']
  | 'v' => r.payload.toList
  | 'n' => r.logger.toList
  | 'l' => r.level.name.toList
  | 'L' => [r.level.letter]
  | 't' => Nat.toDigits 10 r.thread
  | 'P' => Nat.toDigits 10 process
  | 'Y' => Calendar.yearText t.date.year
  | 'm' => Decimal.padded 2 t.date.month
  | 'd' => Decimal.padded 2 t.date.day
  | 'H' => Decimal.padded 2 t.hour
  | 'M' => Decimal.padded 2 t.minute
  | 'S' => Decimal.padded 2 t.shownSecond
  | 'z' => Calendar.offsetText r.time.offset
  | 'T' => t.clockText
  | 'D' => t.dateText
  | 'c' => t.stampText
  | 'e' => Decimal.padded 3 (t.nano / 1000000 % 1000)
  | 'f' => Decimal.padded 6 (t.nano / 1000 % 1000000)
  | _ => []

/-- The text that a pattern stands for, read from the left. -/
def interpret (process : Nat) (r : Record) : List Char → List Char
  | [] => []
  | '%' :: c :: cs => meaning process r c ++ interpret process r cs
  | c :: cs => c :: interpret process r cs

/-- The pattern that stands for a text: its percent signs are doubled. -/
def doubled (s : String) : String :=
  String.ofList (s.toList.flatMap fun c => if c = '%' then ['%', '%'] else [c])

variable {process : Nat} {r : Record} {c : Char} {cs before rest literal : List Char}
  {source : String} {tokens : List Token}

/-! ## Well-formed patterns -/

/-- A character that stands for itself changes nothing of how the rest can be read. -/
theorem wellFormed_plain_iff (h : c ≠ '%') : WellFormed (c :: cs) ↔ WellFormed cs := by
  constructor
  · intro whole
    cases whole with
    | plain _ rest => exact rest
    | percent => exact absurd rfl h
  · exact .plain h

/-- A percent sign needs a percent sign or a flag behind it. -/
theorem wellFormed_percent_iff : WellFormed ('%' :: c :: cs) ↔ Follows c ∧ WellFormed cs := by
  constructor
  · intro whole
    cases whole with
    | plain h => exact absurd rfl h
    | percent h rest => exact ⟨h, rest⟩
  · rintro ⟨h, rest⟩
    exact .percent h rest

/-- Behind what can be read, only the rest decides. -/
theorem wellFormed_append_iff (fine : WellFormed before) :
    WellFormed (before ++ rest) ↔ WellFormed rest := by
  induction fine with
  | nil => rfl
  | plain h _ ih => rw [List.cons_append, wellFormed_plain_iff h, ih]
  | percent h _ ih =>
    rw [List.cons_append, List.cons_append, wellFormed_percent_iff, ih]
    exact and_iff_right h

/-- A fault is the first one also behind a character that stands for itself. -/
theorem Faulty.plain {e : SetupError} (h : c ≠ '%') (faulty : Faulty source cs e) :
    Faulty source (c :: cs) e := by
  cases faulty with
  | dangling fine => exact .dangling (.plain h fine)
  | unknown fine other => exact .unknown (.plain h fine) other

/-- A fault is the first one also behind a percent sign with a flag. -/
theorem Faulty.percent {e : SetupError} (h : Follows c) (faulty : Faulty source cs e) :
    Faulty source ('%' :: c :: cs) e := by
  cases faulty with
  | dangling fine => exact .dangling (.percent h fine)
  | unknown fine other => exact .unknown (.percent h fine) other

/-- A pattern that is not well-formed has a first fault. -/
theorem wellFormed_or_faulty (source : String) (cs : List Char) :
    WellFormed cs ∨ ∃ e, Faulty source cs e := by
  induction cs using interpret.induct with
  | case1 => exact .inl .nil
  | case2 c cs ih =>
    by_cases h : Follows c
    · rcases ih with fine | ⟨e, faulty⟩
      · exact .inl (.percent h fine)
      · exact .inr ⟨e, faulty.percent h⟩
    · exact .inr ⟨_, .unknown .nil h⟩
  | case3 c cs single ih =>
    by_cases h : c = '%'
    · subst h
      cases cs with
      | nil => exact .inr ⟨_, .dangling .nil⟩
      | cons c cs => exact absurd rfl (single c cs rfl)
    · rcases ih with fine | ⟨e, faulty⟩
      · exact .inl (.plain h fine)
      · exact .inr ⟨e, faulty.plain h⟩

/-! ## The direct reading -/

/-- A character that stands for itself is the first of the text. -/
theorem interpret_plain (h : c ≠ '%') :
    interpret process r (c :: cs) = c :: interpret process r cs := by
  rw [interpret]
  rintro _ _ rfl
  exact absurd rfl h

/-- Two patterns put together stand for their texts put together, if the first can be read by
itself. -/
theorem interpret_append (fine : WellFormed before) :
    interpret process r (before ++ rest) = interpret process r before ++ interpret process r rest := by
  induction fine with
  | nil => rfl
  | plain h _ ih => rw [List.cons_append, interpret_plain h, interpret_plain h, ih, List.cons_append]
  | percent _ _ ih =>
    rw [List.cons_append, List.cons_append, interpret, interpret, ih, List.append_assoc]

/-- Doubling goes character by character. -/
theorem toList_doubled_cons (c : Char) (s : List Char) :
    (doubled (String.ofList (c :: s))).toList =
      (if c = '%' then ['%', '%'] else [c]) ++ (doubled (String.ofList s)).toList := by
  unfold doubled
  simp only [String.toList_ofList, List.flatMap_cons]

/-- A text with doubled percent signs is well-formed. -/
theorem wellFormed_doubled (s : List Char) : WellFormed (doubled (String.ofList s)).toList := by
  induction s with
  | nil => exact .nil
  | cons c s ih =>
    rw [toList_doubled_cons]
    split
    · exact .percent (.inl rfl) ih
    · rename_i h
      exact .plain h ih

/-- A text with doubled percent signs is read as the text. -/
theorem interpret_doubled (process : Nat) (r : Record) (s : List Char) :
    interpret process r (doubled (String.ofList s)).toList = s := by
  induction s with
  | nil => rfl
  | cons c s ih =>
    rw [toList_doubled_cons]
    split
    · rename_i h
      rw [List.cons_append, List.singleton_append, interpret, ih, h]
      rfl
    · rename_i h
      rw [List.singleton_append, interpret_plain h, ih]

/-! ## What tokens stand for -/

/-- The text that tokens stand for. -/
def written (process : Nat) (r : Record) (tokens : List Token) : List Char :=
  tokens.flatMap (Token.text process r)

/-- Tokens put together stand for their texts put together. -/
theorem written_append (first second : List Token) :
    written process r (first ++ second) = written process r first ++ written process r second :=
  List.flatMap_append

/-- Literal text that is handed on stands for itself. -/
theorem written_settle :
    written process r (settle tokens literal) = written process r tokens ++ literal := by
  unfold settle
  split
  · rename_i none
    rw [List.isEmpty_iff.mp none, List.append_nil]
  · rw [written_append]
    simp [written, Token.text]

/-- A draft is the text of all tokens, one after the other. -/
theorem text_foldl_add (d : Draft) :
    (tokens.foldl (Draft.add process r) d).text = d.text ++ written process r tokens := by
  induction tokens generalizing d with
  | nil => exact (List.append_nil _).symm
  | cons t tokens ih =>
    have step : (d.add process r t).text = d.text ++ t.text process r := by
      cases t with
      | literal | part => rfl
      | colourStart | colourEnd => exact (List.append_nil _).symm
    rw [List.foldl_cons, ih, step, List.append_assoc]
    rfl

/-- Every flag has a token. -/
theorem isSome_token_of_flag : ∀ c ∈ flagChars, c ≠ '%' ∧ (Token.ofChar? c).isSome := by
  have all : flagChars.all (fun c => c != '%' && (Token.ofChar? c).isSome) = true := by decide
  intro c mem
  simpa using List.all_eq_true.mp all c mem

/-- Only flags have tokens, and the token of a flag stands for what the flag means. -/
theorem flag_of_token {t : Token} (h : Token.ofChar? c = some t) :
    c ∈ flagChars ∧ ∀ process r, t.text process r = meaning process r c := by
  unfold Token.ofChar? at h
  split at h
  next start =>
    cases h
    exact ⟨by simp [start, flagChars], fun _ _ => by rw [start]; rfl⟩
  split at h
  next stop =>
    cases h
    exact ⟨by simp [stop, flagChars], fun _ _ => by rw [stop]; rfl⟩
  obtain ⟨f, flag, rfl⟩ := Option.map_eq_some_iff.mp h
  unfold Flag.ofChar? at flag
  split at flag <;> cases flag <;> exact ⟨by simp [flagChars], fun _ _ => rfl⟩

/-! ## The compiler -/

/-- A character that stands for itself is added to the literal text. -/
theorem tokenize_plain (h : c ≠ '%') :
    tokenize source tokens literal (c :: cs) = tokenize source tokens (literal ++ [c]) cs := by
  rw [tokenize] <;> simp [h]

/-- A flag hands the literal text on and adds its own token. -/
theorem tokenize_flag {t : Token} (other : c ≠ '%') (h : Token.ofChar? c = some t) :
    tokenize source tokens literal ('%' :: c :: cs) =
      tokenize source (settle tokens literal ++ [t]) [] cs := by
  rw [tokenize] <;> simp [h, other]

/-- Any other character behind a percent sign is refused by name. -/
theorem tokenize_unknown (h : ¬Follows c) :
    tokenize source tokens literal ('%' :: c :: cs) = .error (.unknownFlag c source) := by
  have other : c ≠ '%' := fun same => h (.inl same)
  have none : Token.ofChar? c = none :=
    Option.eq_none_iff_forall_ne_some.mpr fun t found => h (.inr (flag_of_token found).1)
  rw [tokenize] <;> simp [none, other]

/-- The compiler goes through a well-formed part of a pattern and goes on from there; the tokens and
the literal text that it then has stand for what that part says. -/
theorem tokenize_append (fine : WellFormed before) (source : String) (tokens : List Token)
    (literal : List Char) :
    ∃ tokens' literal',
      (∀ rest, tokenize source tokens literal (before ++ rest) =
        tokenize source tokens' literal' rest) ∧
      ∀ process r, written process r tokens' ++ literal' =
        written process r tokens ++ literal ++ interpret process r before := by
  -- Along the front: the literal grows with it until a flag settles it as a token.
  induction fine generalizing tokens literal with
  | nil => exact ⟨tokens, literal, fun _ => rfl, fun _ _ => (List.append_nil _).symm⟩
  | plain h _ ih =>
    obtain ⟨tokens', literal', goesOn, stands⟩ := ih tokens (literal ++ [_])
    refine ⟨tokens', literal', fun rest => ?_, fun process r => ?_⟩
    · rw [List.cons_append, tokenize_plain h, goesOn]
    · rw [stands, interpret_plain h]
      simp
  | percent h _ ih =>
    rcases h with rfl | flag
    · obtain ⟨tokens', literal', goesOn, stands⟩ := ih tokens (literal ++ ['%'])
      refine ⟨tokens', literal', fun rest => ?_, fun process r => ?_⟩
      · exact goesOn rest
      · rw [stands, interpret]
        simp [meaning]
    · obtain ⟨other, isSome⟩ := isSome_token_of_flag _ flag
      obtain ⟨t, found⟩ := Option.isSome_iff_exists.mp isSome
      obtain ⟨tokens', literal', goesOn, stands⟩ := ih (settle tokens literal ++ [t]) []
      refine ⟨tokens', literal', fun rest => ?_, fun process r => ?_⟩
      · rw [List.cons_append, List.cons_append, tokenize_flag other found, goesOn]
      · rw [stands, interpret, written_append, written_settle,
          ← (flag_of_token found).2]
        simp [written]

/-- A well-formed pattern compiles, and its lines are those of the direct reading. -/
theorem compile_of_wellFormed {p : String} (fine : WellFormed p.toList) :
    ∃ c, compile p = .ok c ∧ ∀ process r,
      (c.format process r).text = interpret process r p.toList ++ ['\n'] := by
  obtain ⟨tokens, literal, goesOn, stands⟩ := tokenize_append fine p [] []
  have compiled : tokenize p [] [] p.toList = .ok (settle tokens literal) := by
    rw [← List.append_nil p.toList, goesOn]
    rfl
  refine ⟨⟨p, settle tokens literal⟩, ?_, fun process r => ?_⟩
  · unfold compile
    rw [compiled]
    rfl
  · unfold format
    dsimp only
    rw [text_foldl_add, written_settle, stands]
    rfl

/-- The error of a pattern is its first fault. -/
theorem tokenize_of_faulty {e : SetupError} (faulty : Faulty source cs e) :
    tokenize source [] [] cs = .error e := by
  cases faulty with
  | dangling fine =>
    obtain ⟨tokens, literal, goesOn, -⟩ := tokenize_append fine source [] []
    rw [goesOn]
    rfl
  | unknown fine other =>
    obtain ⟨tokens, literal, goesOn, -⟩ := tokenize_append fine source [] []
    rw [goesOn, tokenize_unknown other]

/-- A pattern with a fault is refused for its first one. -/
theorem compile_of_faulty {p : String} {e : SetupError} (faulty : Faulty p p.toList e) :
    compile p = .error e := by
  unfold compile
  rw [tokenize_of_faulty faulty]
  rfl

/-- The compiler takes the patterns that can be read, and no others. -/
theorem compile_eq_ok_iff {p : String} : (∃ c, compile p = .ok c) ↔ WellFormed p.toList := by
  constructor
  · rintro ⟨c, compiled⟩
    rcases wellFormed_or_faulty p p.toList with fine | ⟨e, faulty⟩
    · exact fine
    · rw [compile_of_faulty faulty] at compiled
      cases compiled
  · intro fine
    obtain ⟨c, compiled, -⟩ := compile_of_wellFormed fine
    exact ⟨c, compiled⟩

/-- The compiler refuses the patterns that have a fault, and tells the first one. -/
theorem compile_eq_error_iff {p : String} {e : SetupError} :
    compile p = .error e ↔ Faulty p p.toList e := by
  constructor
  · intro failed
    rcases wellFormed_or_faulty p p.toList with fine | ⟨e', faulty⟩
    · obtain ⟨c, compiled, -⟩ := compile_of_wellFormed fine
      rw [compiled] at failed
      cases failed
    · rw [compile_of_faulty faulty] at failed
      cases failed
      exact faulty
  · exact compile_of_faulty

/-- The lines of a pattern are those of the direct reading. -/
theorem format_text {p : String} {c : Pattern} (compiled : compile p = .ok c) (process : Nat)
    (r : Record) : (c.format process r).text = interpret process r p.toList ++ ['\n'] := by
  obtain ⟨c', compiled', reads⟩ := compile_of_wellFormed (compile_eq_ok_iff.mp ⟨c, compiled⟩)
  rw [compiled] at compiled'
  cases compiled'
  exact reads process r

/-- A pattern compiles when every percent sign that is met from the left has a percent sign or a
flag after it, and else the first that has not is the error. Its lines are those of the direct
reading, with one newline behind it. What is put behind a pattern that compiles is read by itself,
and a text with doubled percent signs is read as the text. -/
theorem compile_reads_from_left (p : String) :
    ((∃ c, compile p = .ok c) ↔ WellFormed p.toList) ∧
      (∀ e, compile p = .error e ↔ Faulty p p.toList e) ∧
      (∀ c, compile p = .ok c →
        (∀ process r, (c.format process r).text = interpret process r p.toList ++ ['\n']) ∧
        ∀ q, ((∃ d, compile (p ++ q) = .ok d) ↔ ∃ d, compile q = .ok d) ∧
          ∀ d both, compile q = .ok d → compile (p ++ q) = .ok both → ∀ process r,
            ∃ first second, (c.format process r).text = first ++ ['\n'] ∧
              (d.format process r).text = second ++ ['\n'] ∧
              (both.format process r).text = first ++ second ++ ['\n']) ∧
      ∃ c, compile (doubled p) = .ok c ∧
        ∀ process r, (c.format process r).text = p.toList ++ ['\n'] := by
  refine ⟨compile_eq_ok_iff, fun e => compile_eq_error_iff, fun c compiled => ⟨?_, fun q => ⟨?_, ?_⟩⟩, ?_⟩
  · exact format_text compiled
  · rw [compile_eq_ok_iff, compile_eq_ok_iff, String.toList_append,
      wellFormed_append_iff (compile_eq_ok_iff.mp ⟨c, compiled⟩)]
  · intro d both compiledRest compiledBoth process r
    refine ⟨_, _, format_text compiled process r, format_text compiledRest process r, ?_⟩
    rw [format_text compiledBoth, String.toList_append,
      interpret_append (compile_eq_ok_iff.mp ⟨c, compiled⟩)]
  · have fine := wellFormed_doubled p.toList
    rw [String.ofList_toList] at fine
    obtain ⟨c, compiled, reads⟩ := compile_of_wellFormed fine
    refine ⟨c, compiled, fun process r => ?_⟩
    have same := interpret_doubled process r p.toList
    rw [String.ofList_toList] at same
    rw [reads, same]

/-- A pattern for the level, with one for a percent sign and the message behind it. -/
theorem level_then_message_read :
    let r : Record := ⟨"app", .warn, ⟨0, 0, 0⟩, 1, "low"⟩
    let level : Pattern := ⟨"%l", [.part .level]⟩
    let message : Pattern := ⟨" 5%% %v", [.literal [' ', '5', '%', ' '], .part .payload]⟩
    let both : Pattern :=
      ⟨"%l" ++ " 5%% %v", [.part .level, .literal [' ', '5', '%', ' '], .part .payload]⟩
    compile "%l" = .ok level ∧ compile " 5%% %v" = .ok message ∧
      compile ("%l" ++ " 5%% %v") = .ok both ∧
      (level.format 7 r).text = interpret 7 r ['%', 'l'] ++ ['\n'] ∧
      (∃ first second, (level.format 7 r).text = first ++ ['\n'] ∧
        (message.format 7 r).text = second ++ ['\n'] ∧
        (both.format 7 r).text = first ++ second ++ ['\n']) ∧
      (both.format 7 r).text = ['w', 'a', 'r', 'n', ' ', '5', '%', ' ', 'l', 'o', 'w', '\n'] := by
  intro r level message both
  have compiled : compile "%l" = .ok level := rfl
  have compiledRest : compile " 5%% %v" = .ok message := rfl
  have compiledBoth : compile ("%l" ++ " 5%% %v") = .ok both := rfl
  obtain ⟨-, -, lines, -⟩ := compile_reads_from_left "%l"
  obtain ⟨reads, rest⟩ := lines level compiled
  obtain ⟨-, together⟩ := rest " 5%% %v"
  exact ⟨compiled, compiledRest, compiledBoth, reads 7 r,
    together message both compiledRest compiledBoth 7 r, by decide⟩

end Pattern

end LogTopology
