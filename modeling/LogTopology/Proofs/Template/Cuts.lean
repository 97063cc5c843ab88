import LogTopology.Proofs.Console.Slices
import LogTopology.Proofs.Template.Reading
/-!
# Where a template is cut

Filling a template goes over its text from the left and cuts it by byte: in front of and behind an
opening, around a quoted text, and behind the closing of a tag. How far it is to there is added up
from the lengths of the parts in between, blanks of several bytes among them. `turn?` is one turn of
this work and `filled?` the whole of it; both give nothing where a text would have to be cut inside of
a character or behind its end, which `slice?` refuses.

`cuts_fall_between_characters` says that no cut is refused, whatever is left of a template when a turn
begins: a place that was found lies between characters, and so does its end; the length of a tag leads
right behind the braces that close it; and every turn leaves less than it has found, so that the work
ends. What it comes to is what the template is filled to.

The reports on keys without a binding are not told here.
-/

namespace LogTopology.Template

open Console (slice? slice?_eq isValid_of_append utf8ByteSize_ofList)
open Pattern (byteLength_append)

/-! ## Reading by byte -/

/-- The byte at which a text is first met in another. -/
def find? (sought : List Char) : List Char → Option Nat
  | [] => if sought = [] then some 0 else none
  | c :: cs =>
    if sought.isPrefixOf (c :: cs) then some 0
    else (find? sought cs).map (c.utf8Size + ·)

/-- The part of a text from a byte on. -/
def sliceFrom? (s : String) (start : Nat) : Option String :=
  slice? s start s.utf8ByteSize

/-- The quoted text that a tag begins with, and the number of bytes up to behind its closing. It is
put together from the blanks in front, the two quotes with the text, and the blanks behind. -/
def quotedAt? (body : String) : Option (Option (Chunk × Nat)) :=
  let trimmed := Text.trimStart body.toList
  let lead := body.utf8ByteSize - byteLength trimmed
  match trimmed with
  | '"' :: cs =>
    let quoted := String.ofList cs
    match find? ['"'] cs with
    | none => some none
    | some endQuote => do
      let after ← sliceFrom? quoted (endQuote + 1)
      let behind := Text.trimStart after.toList
      if closing.isPrefixOf behind then
        let text ← slice? quoted 0 endQuote
        let gap := after.utf8ByteSize - byteLength behind
        return some (.text text.toList, lead + 1 + endQuote + 1 + gap + 2)
      else return none
  | _ => some none

/-- What a tag stands for, and the number of bytes up to behind its closing. -/
def tagAt? (body : String) : Option (Option (Chunk × Nat)) := do
  match ← quotedAt? body with
  | some tag => return some tag
  | none =>
    match find? closing body.toList with
    | none => return none
    | some close =>
      let name ← slice? body 0 close
      return some (.key (Text.trim name.toList), close + 2)

/-- One turn over what is left of a template: what is put out and what is left then, or nothing when
no opening is left. -/
def turn? (bindings : Bindings) (rest : String) : Option (Option (String × String)) :=
  match find? opening rest.toList with
  | none => some none
  | some start => do
    let before ← slice? rest 0 start
    let body ← sliceFrom? rest (start + 2)
    match ← tagAt? body with
    | some (chunk, consumed) =>
      let left ← sliceFrom? body consumed
      return some (before ++ String.ofList (chunk.value bindings), left)
    | none =>
      let unclosed ← sliceFrom? rest start
      return some (before ++ unclosed, "")

variable {template body before after rest text tag inner cs sought : List Char} {bindings : Bindings}

/-- An opening has characters. -/
theorem opening_ne_nil : opening ≠ [] := List.cons_ne_nil _ _

/-- A closing has characters. -/
theorem closing_ne_nil : closing ≠ [] := List.cons_ne_nil _ _

/-! ## Finding -/

/-- A text is not met before its place, not even with its last character behind. -/
def MetAfter (sought before : List Char) : Prop :=
  ¬sought <:+: before ++ sought.dropLast

/-- A text with the sought one behind it begins with all but the last character of this. -/
theorem prefix_append_dropLast (before sought after : List Char) :
    before ++ sought.dropLast <+: before ++ (sought ++ after) :=
  (List.prefix_append_right_inj before).mpr
    ((List.dropLast_prefix sought).trans (List.prefix_append sought after))

/-- What is first met later is not met at the front. -/
theorem not_prefix_of_metAfter {c : Char} (some : sought ≠ [])
    (first : MetAfter sought (c :: before)) : ¬sought <+: c :: (before ++ (sought ++ after)) := by
  intro here
  have long : sought.length ≤ (c :: before ++ sought.dropLast).length := by
    have := List.length_pos_iff.mpr some
    simp only [List.length_cons, List.length_append, List.length_dropLast]
    omega
  have front := prefix_append_dropLast (c :: before) sought after
  exact first (List.prefix_of_prefix_length_le here front long).isInfix

/-- What is first met behind a text is found at the byte where this text ends. -/
theorem find?_append (some : sought ≠ []) (first : MetAfter sought before) :
    find? sought (before ++ (sought ++ after)) = .some (byteLength before) := by
  induction before with
  | nil =>
    cases sought with
    | nil => exact absurd rfl some
    | cons c cs => simp [find?, byteLength]
  | cons c before ih =>
    have later : MetAfter sought before :=
      fun inside => first (inside.trans (List.suffix_cons c _).isInfix)
    have notHere : ¬sought <+: c :: (before ++ (sought ++ after)) := not_prefix_of_metAfter some first
    rw [List.cons_append, find?, if_neg (by simpa using notHere), ih later]
    rfl

/-- A text is met at the end of what stands before it. -/
theorem exists_of_find? {place : Nat} (some : sought ≠ []) (found : find? sought cs = .some place) :
    ∃ before after, cs = before ++ (sought ++ after) ∧ byteLength before = place ∧
      MetAfter sought before := by
  induction cs generalizing place with
  | nil =>
    rw [find?, if_neg some] at found
    cases found
  | cons c cs ih =>
    rw [find?] at found
    split at found
    · rename_i here
      obtain ⟨after, whole⟩ := List.isPrefixOf_iff_prefix.mp here
      cases found
      refine ⟨[], after, whole.symm, rfl, fun inside => ?_⟩
      have := inside.length_le
      have := List.length_pos_iff.mpr some
      simp only [List.nil_append, List.length_dropLast] at *
      omega
    · rename_i notHere
      obtain ⟨later, hlater, rfl⟩ := Option.map_eq_some_iff.mp found
      obtain ⟨before, after, rfl, rfl, first⟩ := ih hlater
      refine ⟨c :: before, after, rfl, rfl, fun inside => ?_⟩
      rw [List.cons_append, List.infix_cons_iff] at inside
      rcases inside with here | inside
      · apply notHere
        rw [List.isPrefixOf_iff_prefix]
        exact here.trans (prefix_append_dropLast (c :: before) sought after)
      · exact first inside

/-- Nothing is found just when the sought text is not met anywhere. -/
theorem find?_eq_none_iff (some : sought ≠ []) : find? sought cs = none ↔ ¬sought <:+: cs := by
  induction cs with
  | nil => simp [find?, some]
  | cons c cs ih =>
    rw [find?, List.infix_cons_iff, not_or, ← ih, ← List.isPrefixOf_iff_prefix]
    split
    · rename_i here
      simp [here]
    · rename_i notHere
      simp [notHere]


/-- A quote is first met behind texts without quotes. -/
theorem metAfter_quote_iff : MetAfter ['"'] text ↔ '"' ∉ text := by
  unfold MetAfter
  rw [List.dropLast_singleton, List.append_nil]
  constructor
  · intro first mem
    obtain ⟨front, back, rfl⟩ := List.append_of_mem mem
    exact first ⟨front, back, by simp⟩
  · intro inner inside
    exact inner (inside.subset (List.mem_singleton_self '"'))

/-! ## Tags -/

/-- The slice up to the end of a part is the part. -/
theorem slice?_front (before after : List Char) :
    slice? (String.ofList (before ++ after)) 0 (byteLength before) =
      some (String.ofList before) :=
  slice?_eq [] before after rfl

/-- The slice from the end of a part on is the rest. -/
theorem sliceFrom?_eq (before after : List Char) :
    sliceFrom? (String.ofList (before ++ after)) (byteLength before) =
      some (String.ofList after) := by
  unfold sliceFrom?
  rw [utf8ByteSize_ofList]
  exact slice?_eq before after [] (List.append_nil _).symm

/-- A quoted text with its closing is read up to behind the closing, its length being added up from
blanks, quotes and text. -/
theorem quotedAt?_of_quoted (quoted : Quoted text tag) (rest : List Char) :
    quotedAt? (String.ofList (tag ++ rest)) = some (some (.text text, byteLength tag)) := by
  obtain ⟨hlead, inner, htrail⟩ := quoted
  rename_i lead trail
  have start : Text.trimStart (lead ++ '"' :: (text ++ '"' :: (trail ++ closing)) ++ rest) =
      '"' :: (text ++ (['"'] ++ (trail ++ (closing ++ rest)))) := by
    rw [List.append_assoc, trimStart_append hlead]
    simp [Text.trimStart, Text.isBlank]
  have behind : Text.trimStart (trail ++ (closing ++ rest)) = closing ++ rest := by
    rw [trimStart_append htrail]
    rfl
  have found : find? ['"'] (text ++ (['"'] ++ (trail ++ (closing ++ rest)))) =
      some (byteLength text) :=
    find?_append (List.cons_ne_nil _ _) (metAfter_quote_iff.mpr inner)
  have after : sliceFrom? (String.ofList (text ++ (['"'] ++ (trail ++ (closing ++ rest)))))
      (byteLength text + 1) = some (String.ofList (trail ++ (closing ++ rest))) := by
    have cut := sliceFrom?_eq (text ++ ['"']) (trail ++ (closing ++ rest))
    rwa [byteLength_append, List.append_assoc] at cut
  have closes : closing.isPrefixOf (closing ++ rest) = true :=
    List.isPrefixOf_iff_prefix.mpr (List.prefix_append closing rest)
  unfold quotedAt?
  simp only [String.toList_ofList, start, found, after, behind, closes, if_true, slice?_front,
    Option.bind_eq_bind, Option.bind_some]
  refine congrArg (fun consumed => some (some (Chunk.text text, consumed))) ?_
  have quote : Char.utf8Size '"' = 1 := rfl
  have braces : byteLength closing = 2 := rfl
  simp only [utf8ByteSize_ofList, byteLength_append, byteLength, quote, braces]
  omega

/-- A tag that does not begin with a quoted text is cut nowhere else. -/
theorem quotedAt?_of_unquoted
    (unquoted : ∀ text tag rest, Quoted text tag → body ≠ tag ++ rest) :
    quotedAt? (String.ofList body) = some none := by
  obtain ⟨lead, hlead, hbody⟩ := exists_eq_blank_append body
  unfold quotedAt?
  rw [String.toList_ofList]
  dsimp only
  split
  · rename_i cs hcs
    split
    · rfl
    · rename_i endQuote found
      obtain ⟨text, after, rfl, rfl, first⟩ := exists_of_find? (List.cons_ne_nil _ _) found
      have cut : sliceFrom? (String.ofList (text ++ (['"'] ++ after))) (byteLength text + 1) =
          some (String.ofList after) := by
        have cut := sliceFrom?_eq (text ++ ['"']) after
        rwa [byteLength_append, List.append_assoc] at cut
      rw [cut]
      simp only [Option.bind_eq_bind, Option.bind_some, String.toList_ofList]
      rw [if_neg]
      · rfl
      intro closes
      obtain ⟨rest, hrest⟩ := List.isPrefixOf_iff_prefix.mp closes
      obtain ⟨trail, htrail, hafter⟩ := exists_eq_blank_append after
      refine unquoted text _ rest ⟨hlead, metAfter_quote_iff.mp first, htrail⟩ ?_
      rw [hbody, hcs, hafter, ← hrest]
      simp
  · rfl

/-- A tag that is a quoted text stands for this text. -/
theorem tagAt?_of_quoted (quoted : Quoted text tag) (rest : List Char) :
    tagAt? (String.ofList (tag ++ rest)) = some (some (.text text, byteLength tag)) := by
  unfold tagAt?
  rw [quotedAt?_of_quoted quoted rest]
  rfl

/-- A tag that is none stands for a key, up to the first closing. -/
theorem tagAt?_of_key (closes : ¬closing <:+: inner ++ ['\x7d'])
    (unquoted : ∀ text tag rest', Quoted text tag → inner ++ closing ++ rest ≠ tag ++ rest') :
    tagAt? (String.ofList (inner ++ closing ++ rest)) =
      some (some (.key (Text.trim inner), byteLength (inner ++ closing))) := by
  have found : find? closing (inner ++ (closing ++ rest)) = some (byteLength inner) :=
    find?_append closing_ne_nil closes
  unfold tagAt?
  rw [quotedAt?_of_unquoted unquoted, String.toList_ofList, List.append_assoc]
  simp only [found, slice?_front, Option.bind_eq_bind, Option.bind_some, String.toList_ofList]
  rw [byteLength_append]
  rfl

/-- Without a closing there is no tag. -/
theorem tagAt?_of_unclosed (open_ : ¬closing <:+: body) :
    tagAt? (String.ofList body) = some none := by
  have unquoted : ∀ text tag rest, Quoted text tag → body ≠ tag ++ rest := by
    rintro text tag rest quoted rfl
    exact open_ (quoted.closing_infix.trans (List.prefix_append tag rest).isInfix)
  unfold tagAt?
  rw [quotedAt?_of_unquoted unquoted, String.toList_ofList,
    (find?_eq_none_iff closing_ne_nil).mpr open_]
  rfl

/-! ## Turns -/

/-- The lengths of what is cut away and of what is left add up. -/
theorem length_of_sliceFrom? {s t : String} {start : Nat} (cut : sliceFrom? s start = some t) :
    start + t.utf8ByteSize = s.utf8ByteSize := by
  obtain ⟨before, after, -, rfl, stop⟩ := Console.exists_of_slice? cut
  rw [byteLength_append, ← utf8ByteSize_ofList t.toList, String.ofList_toList] at stop
  exact stop

/-- Every turn leaves less than it has found. -/
theorem shorter_of_turn? {bindings : Bindings} {rest written left : String}
    (turned : turn? bindings rest = some (some (written, left))) :
    left.utf8ByteSize < rest.utf8ByteSize := by
  unfold turn? at turned
  split at turned
  · cases turned
  · obtain ⟨before, -, turned⟩ := Option.bind_eq_some_iff.mp turned
    obtain ⟨body, hbody, turned⟩ := Option.bind_eq_some_iff.mp turned
    obtain ⟨tag, -, turned⟩ := Option.bind_eq_some_iff.mp turned
    have within := length_of_sliceFrom? hbody
    cases tag with
    | some tag =>
      obtain ⟨left, hleft, made⟩ := Option.bind_eq_some_iff.mp turned
      cases made
      have := length_of_sliceFrom? hleft
      omega
    | none =>
      obtain ⟨unclosed, -, made⟩ := Option.bind_eq_some_iff.mp turned
      cases made
      rw [String.utf8ByteSize_empty]
      omega

/-- Turns over a template until nothing is left of it, behind what has been put out before. -/
def filled? (bindings : Bindings) (out rest : String) : Option String :=
  match _ : turn? bindings rest with
  | none => none
  | some none => some (out ++ rest)
  | some (some (written, left)) => filled? bindings (out ++ written) left
termination_by rest.utf8ByteSize
decreasing_by exact shorter_of_turn? ‹_›

/-- Without an opening there is nothing to be done. -/
theorem turn?_of_bare (bare : ¬opening <:+: template) (bindings : Bindings) :
    turn? bindings (String.ofList template) = some none := by
  unfold turn?
  rw [String.toList_ofList, (find?_eq_none_iff opening_ne_nil).mpr bare]

/-- The first opening is cut off together with what stands before it. -/
theorem slices_of_opening (first : OpensAfter before) (body : List Char) :
    find? opening (before ++ (opening ++ body)) = some (byteLength before) ∧
      sliceFrom? (String.ofList (before ++ (opening ++ body))) (byteLength before + 2) =
        some (String.ofList body) := by
  refine ⟨find?_append opening_ne_nil first, ?_⟩
  have cut := sliceFrom?_eq (before ++ opening) body
  rwa [byteLength_append, List.append_assoc] at cut

/-- A turn puts out what is in front of the opening and what the tag stands for, and leaves what is
behind the tag. -/
theorem turn?_of_tag {source : List Char} {chunk : Chunk} (first : OpensAfter before)
    (read : tagAt? (String.ofList (source ++ rest)) = some (some (chunk, byteLength source)))
    (bindings : Bindings) :
    turn? bindings (String.ofList (before ++ (opening ++ (source ++ rest)))) =
      some (some (String.ofList before ++ String.ofList (chunk.value bindings),
        String.ofList rest)) := by
  obtain ⟨found, cut⟩ := slices_of_opening first (source ++ rest)
  unfold turn?
  rw [String.toList_ofList]
  simp only [found, slice?_front, cut, read, sliceFrom?_eq, Option.bind_eq_bind, Option.bind_some]
  rfl

/-- A turn that finds no closing puts out all there is. -/
theorem turn?_of_unclosed (first : OpensAfter before) (open_ : ¬closing <:+: body)
    (bindings : Bindings) :
    turn? bindings (String.ofList (before ++ (opening ++ body))) =
      some (some (String.ofList before ++ String.ofList (opening ++ body), "")) := by
  obtain ⟨found, cut⟩ := slices_of_opening first body
  unfold turn?
  rw [String.toList_ofList]
  simp only [found, slice?_front, cut, tagAt?_of_unclosed open_, sliceFrom?_eq, Option.bind_eq_bind,
    Option.bind_some]
  rfl

/-- Turns go on with what is left, behind what has been put out. -/
theorem filled?_of_left {bindings : Bindings} {out rest written left : String}
    (turned : turn? bindings rest = some (some (written, left))) :
    filled? bindings out rest = filled? bindings (out ++ written) left := by
  rw [filled?]
  split
  · rename_i fails
    rw [turned] at fails
    cases fails
  · rename_i ends
    rw [turned] at ends
    cases ends
  · rename_i goes
    rw [turned] at goes
    cases goes
    rfl

/-- A template without an opening is put out as it is. -/
theorem filled?_of_bare (bare : ¬opening <:+: template) (bindings : Bindings) (out : String) :
    filled? bindings out (String.ofList template) = some (out ++ String.ofList template) := by
  have turned := turn?_of_bare bare bindings
  rw [filled?]
  split
  · rename_i fails
    rw [turned] at fails
    cases fails
  · rfl
  · rename_i goes
    rw [turned] at goes
    cases goes

/-- The turns put out what the spans of the template stand for. -/
theorem filled?_of_reads {spans : List Span} (reads : Reads template spans) (bindings : Bindings)
    (out : String) :
    filled? bindings out (String.ofList template) =
      some (out ++ String.ofList (spans.flatMap fun s => s.chunk.value bindings)) := by
  induction reads generalizing out with
  | plain bare =>
    rw [filled?_of_bare bare]
    simp [Chunk.value]
  | unclosed first open_ =>
    have bare : ¬opening <:+: ([] : List Char) := by decide
    have rest := filled?_of_bare bare bindings
    rw [filled?_of_left (turn?_of_unclosed first open_ bindings), ← String.ofList_nil, rest]
    simp [Chunk.value, String.ofList_append]
  | literal first quoted _ ih =>
    rw [List.append_assoc, filled?_of_left (turn?_of_tag first (tagAt?_of_quoted quoted _) bindings),
      ih]
    simp [Chunk.value, String.append_assoc, String.ofList_append]
  | key first unquoted closes _ ih =>
    rw [List.append_assoc,
      filled?_of_left (turn?_of_tag first (tagAt?_of_key closes unquoted) bindings), ih]
    simp [Chunk.value, String.append_assoc, String.ofList_append]

/-! ## All cuts -/

/-- What a tag is read from, up to behind the braces that close it, and what it stands for. The
closing of a quoted text is the one behind its quote; that of a key is the first one there is. -/
inductive Tagged (rest : List Char) : List Char → Chunk → Prop where
  | literal {text tag : List Char} (quoted : Quoted text tag) : Tagged rest tag (.text text)
  | key {inner : List Char}
      (unquoted : ∀ text tag rest', Quoted text tag → inner ++ closing ++ rest ≠ tag ++ rest')
      (closes : ¬closing <:+: inner ++ ['\x7d']) :
      Tagged rest (inner ++ closing) (.key (Text.trim inner))

/-- Every tag ends with the braces that close it. -/
theorem Tagged.closing_suffix {source : List Char} {chunk : Chunk}
    (tagged : Tagged rest source chunk) : closing <:+ source := by
  cases tagged with
  | @literal text tag quoted =>
    cases quoted with
    | @mk lead trail => exact ⟨lead ++ '"' :: (text ++ '"' :: trail), by simp⟩
  | key => exact List.suffix_append _ _

/-- A tag is read from the text behind an opening, or no closing follows. -/
theorem tagAt?_cases (body : List Char) :
    (tagAt? (String.ofList body) = some none ∧ ¬closing <:+: body) ∨
      ∃ source rest chunk, body = source ++ rest ∧ Tagged rest source chunk ∧
        tagAt? (String.ofList body) = some (some (chunk, byteLength source)) := by
  cases read : readTag? body with
  | none =>
    have open_ := readTag?_eq_none_iff.mp read
    exact .inl ⟨tagAt?_of_unclosed open_, open_⟩
  | some r =>
    obtain ⟨p, rest⟩ := r
    rcases readTag?_eq_some read with ⟨text, tag, quoted, rfl, -⟩ |
      ⟨inner, rfl, closes, unquoted, -⟩
    · exact .inr ⟨tag, rest, _, rfl, .literal quoted, tagAt?_of_quoted quoted rest⟩
    · exact .inr ⟨_, rest, _, rfl, .key unquoted closes, tagAt?_of_key closes unquoted⟩

/-- No turn is refused a cut, whatever is left of a template. -/
theorem isSome_turn? (bindings : Bindings) (rest : List Char) :
    (turn? bindings (String.ofList rest)).isSome := by
  cases found : find? opening rest with
  | none =>
    rw [turn?_of_bare ((find?_eq_none_iff opening_ne_nil).mp found)]
    rfl
  | some start =>
    obtain ⟨before, body, rfl, -, first⟩ := exists_of_find? opening_ne_nil found
    rcases tagAt?_cases body with ⟨-, open_⟩ | ⟨source, left, chunk, rfl, -, read⟩
    · rw [turn?_of_unclosed first open_]
      rfl
    · rw [turn?_of_tag first read]
      rfl

/-- A text that was found can be cut out. -/
theorem cut_of_find? {text : String} {place : Nat} (some : sought ≠ [])
    (found : find? sought text.toList = .some place) :
    (⟨place⟩ : String.Pos.Raw).IsValid text ∧
      (⟨place + byteLength sought⟩ : String.Pos.Raw).IsValid text ∧
      slice? text place (place + byteLength sought) = .some (String.ofList sought) := by
  obtain ⟨before, after, whole, rfl, -⟩ := exists_of_find? some found
  rw [← text.ofList_toList, ← byteLength_append]
  refine ⟨isValid_of_append whole, ?_, ?_⟩
  · exact isValid_of_append (whole.trans (List.append_assoc ..).symm)
  · exact slice?_eq before sought after (whole.trans (List.append_assoc ..).symm)

/-- **A template is cut between characters only.** Filling it by byte comes to an end with what the
template is filled to. Whatever is left of it, a turn is refused no cut and leaves less; openings,
quotes and closings are found at places where the text may be cut in front of them and behind them;
and where a tag is read, the number of bytes leads right behind the braces that close it. -/
theorem cuts_fall_between_characters (bindings : Bindings) :
    (∀ template, filled? bindings "" template = some (render template bindings)) ∧
      (∀ rest : String, (turn? bindings rest).isSome ∧
        ∀ written left, turn? bindings rest = some (some (written, left)) →
          left.utf8ByteSize < rest.utf8ByteSize) ∧
      (∀ sought ∈ [opening, ['"'], closing], ∀ (text : String) (place : Nat),
        find? sought text.toList = some place →
          (⟨place⟩ : String.Pos.Raw).IsValid text ∧
          (⟨place + byteLength sought⟩ : String.Pos.Raw).IsValid text ∧
          slice? text place (place + byteLength sought) = some (String.ofList sought)) ∧
      ∀ body : String, (tagAt? body).isSome ∧
        ∀ chunk consumed, tagAt? body = some (some (chunk, consumed)) →
          (⟨consumed⟩ : String.Pos.Raw).IsValid body ∧
          ∃ source rest, body.toList = source ++ rest ∧ consumed = byteLength source ∧
            closing <:+ source ∧ Tagged rest source chunk := by
  refine ⟨fun template => ?_, fun rest => ⟨?_, fun _ _ => shorter_of_turn?⟩,
    fun sought mem text place => cut_of_find? ?_, fun body => ?_⟩
  · have filled := filled?_of_reads (reads_pieces template.toList) bindings ""
    rw [String.ofList_toList, ← toList_render, String.ofList_toList, String.empty_append] at filled
    exact filled
  · rw [← rest.ofList_toList]
    exact isSome_turn? bindings rest.toList
  · rintro rfl
    simp [opening, closing] at mem
  · rcases tagAt?_cases body.toList with ⟨read, -⟩ | ⟨source, rest, chunk, whole, tagged, read⟩ <;>
      rw [String.ofList_toList] at read <;> rw [read]
    · refine ⟨rfl, fun chunk consumed same => ?_⟩
      cases same
    · refine ⟨rfl, fun chunk' consumed same => ?_⟩
      cases same
      have place := isValid_of_append whole
      rw [String.ofList_toList] at place
      exact ⟨place, source, rest, whole, rfl, tagged.closing_suffix, tagged⟩

/-- A quoted text with a closing in it, between blanks of three bytes. -/
example : tagAt? "\u3000\"é\x7d\x7d\"\u3000\x7d\x7dü" =
    some (some (.text ['é', '\x7d', '\x7d'], 14)) := by
  cbv

end LogTopology.Template
