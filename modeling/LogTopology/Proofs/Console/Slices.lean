import LogTopology.Console.Output
import LogTopology.Proofs.Pattern.Marks
/-!
# Slices of a coloured line

A coloured sink cuts a line at the two bytes of its range. A text can only be cut at a byte where a
character starts or the text ends, and a slice must not stop before it starts; `slice?` gives
nothing else. `cut?` tells what a sink hands to its stream when each of its slices may fail so.

No slice fails on a line that a pattern has made. What the sink hands over is the text of the line
with the style of the level put in where the range starts and its end where the range stops, with
the newline behind both, so that without the two a plain sink's text is left.

What becomes of the style on the way to the stream is not told here.
-/

namespace LogTopology.Console

open Pattern (Has Mark byteLength_append colour_splits isSome_colour_iff)

/-- The part of a text between two bytes, if there is one. -/
def slice? (s : String) (start stop : Nat) : Option String := do
  let first ← s.pos? ⟨start⟩
  let last ← s.pos? ⟨stop⟩
  return (← s.slice? first last).copy

/-- What a sink hands to its stream, with the slices of a coloured line made by byte. -/
def cut? (coloured : Bool) (level : Level) (line : Line) : Option (List (List Char)) :=
  match line.colour, coloured with
  | some (start, stop), true => do
    let text := String.ofList line.text
    let before ← slice? text 0 start
    let inside ← slice? text start stop
    let after ← slice? text stop text.utf8ByteSize
    return [before.toList, style level, inside.toList, unstyle level, after.toList]
  | _, _ => some [line.text]

/-- What a sink hands to its stream of a line with a range: what a plain sink hands over, with the
style of the level put in where the range starts and its end where the range stops. -/
structure Divides (line : Line) (level : Level) (start stop : Nat)
    (before inside after : List Char) : Prop where
  starts : byteLength before = start
  stops : byteLength (before ++ inside) = stop
  coloured : pieces true level line = [before, style level, inside, unstyle level, after ++ ['\n']]
  plain : pieces false level line = [[before, inside, after ++ ['\n']].flatten]

variable {before inside after : List Char} {line : Line}

/-! ## Slices -/

/-- The length of a text in bytes is that of its characters. -/
theorem utf8ByteSize_ofList (cs : List Char) : (String.ofList cs).utf8ByteSize = byteLength cs := by
  induction cs with
  | nil => rfl
  | cons c cs ih =>
    rw [← List.singleton_append, String.ofList_append, String.utf8ByteSize_append, ih,
      ← String.singleton_eq_ofList, String.utf8ByteSize_singleton]
    rfl

/-- Behind the front of a text there is a place to cut it. -/
theorem exists_pos {text : List Char} (whole : text = before ++ after) :
    ∃ place, (String.ofList text).pos? ⟨byteLength before⟩ = some place ∧
      place.Splits (String.ofList before) (String.ofList after) := by
  have append : String.ofList text = String.ofList before ++ String.ofList after := by
    rw [whole, String.ofList_append]
  have offset : ⟨byteLength before⟩ = (String.ofList before).rawEndPos := by
    rw [← utf8ByteSize_ofList]
    rfl
  have valid : (⟨byteLength before⟩ : String.Pos.Raw).IsValid (String.ofList text) :=
    String.Pos.Raw.isValid_iff_exists_append.mpr ⟨_, _, append, offset⟩
  refine ⟨(String.ofList text).pos _ valid, ?_, append, offset⟩
  unfold String.pos? String.Slice.pos?
  rw [dif_pos (String.Pos.Raw.isValidForSlice_eq_true_iff.mpr valid.toSlice)]
  rfl

/-- The slice between the ends of two parts is what stands between them. -/
theorem slice?_eq (before inside after : List Char) {text : List Char}
    (whole : text = before ++ inside ++ after) :
    slice? (String.ofList text) (byteLength before) (byteLength (before ++ inside)) =
      some (String.ofList inside) := by
  obtain ⟨first, hfirst, start⟩ := exists_pos (whole.trans (List.append_assoc ..))
  obtain ⟨last, hlast, stop⟩ := exists_pos whole
  rw [String.ofList_append] at start stop
  obtain ⟨le, cut⟩ := String.copy_slice_eq_iff_splits.mpr ⟨_, _, start, stop⟩
  unfold slice? String.slice?
  simp only [hfirst, hlast, Option.bind_eq_bind, Option.bind_some, dif_pos le, cut]
  rfl

/-- A place in a text that is found for a byte is the place of this byte. -/
theorem offset_of_pos? {s : String} {n : Nat} {place : s.Pos} (found : s.pos? ⟨n⟩ = some place) :
    place.offset = ⟨n⟩ := by
  unfold String.pos? String.Slice.pos? at found
  split at found
  · cases found
    rfl
  · cases found

/-- A slice is what stands in the text between the two bytes. -/
theorem exists_of_slice? {s t : String} {start stop : Nat} (cut : slice? s start stop = some t) :
    ∃ before after, s.toList = before ++ t.toList ++ after ∧ byteLength before = start ∧
      byteLength (before ++ t.toList) = stop := by
  unfold slice? at cut
  obtain ⟨first, hfirst, cut⟩ := Option.bind_eq_some_iff.mp cut
  obtain ⟨last, hlast, cut⟩ := Option.bind_eq_some_iff.mp cut
  obtain ⟨part, hpart, same⟩ := Option.bind_eq_some_iff.mp cut
  unfold String.slice? at hpart
  split at hpart
  · rename_i le
    cases hpart
    obtain ⟨before, after, starts, stops⟩ :=
      String.copy_slice_eq_iff_splits.mp ⟨le, Option.some.inj same⟩
    have hstart := starts.offset_eq_rawEndPos.symm.trans (offset_of_pos? hfirst)
    have hstop := stops.offset_eq_rawEndPos.symm.trans (offset_of_pos? hlast)
    refine ⟨before.toList, after.toList, ?_, ?_, ?_⟩
    · rw [stops.eq_append, String.toList_append, String.toList_append]
    · rw [← utf8ByteSize_ofList, String.ofList_toList]
      exact congrArg String.Pos.Raw.byteIdx hstart
    · rw [← utf8ByteSize_ofList, String.ofList_append, String.ofList_toList, String.ofList_toList]
      exact congrArg String.Pos.Raw.byteIdx hstop
  · cases hpart

/-- A byte at the end of whole characters is one where a text can be cut. -/
theorem isValid_of_append {text : List Char} (whole : text = before ++ after) :
    (⟨byteLength before⟩ : String.Pos.Raw).IsValid (String.ofList text) := by
  obtain ⟨place, -, splits⟩ := exists_pos whole
  have offset : place.offset = ⟨byteLength before⟩ := by
    rw [splits.offset_eq_rawEndPos, ← utf8ByteSize_ofList]
    rfl
  rw [← offset]
  exact place.isValid

/-! ## Pieces -/

/-- Splitting a line at the end of its first part gives the two parts. -/
theorem splitBytes_append (before after : List Char) :
    splitBytes (byteLength before) (before ++ after) = (before, after) := by
  induction before with
  | nil => cases after with
    | nil => rfl
    | cons c after => rfl
  | cons c before ih =>
    have room : c.utf8Size + byteLength before ≠ 0 := by
      have := c.utf8Size_pos
      omega
    rw [List.cons_append, byteLength, splitBytes, if_neg room, Nat.add_sub_cancel_left, ih]

/-- A line is cut into what stands before, inside of and behind its range. -/
theorem pieces_eq (whole : line.text = before ++ inside ++ after)
    (colour : line.colour = some (byteLength before, byteLength (before ++ inside)))
    (level : Level) :
    pieces true level line = [before, style level, inside, unstyle level, after] := by
  unfold pieces
  rw [colour]
  simp only
  rw [whole, List.append_assoc, splitBytes_append, byteLength_append, Nat.add_sub_cancel_left,
    splitBytes_append]

/-- On a line whose range lies between characters, every slice is there. -/
theorem cut?_eq (whole : line.text = before ++ inside ++ after)
    (colour : line.colour = some (byteLength before, byteLength (before ++ inside)))
    (level : Level) :
    cut? true level line = some [before, style level, inside, unstyle level, after] := by
  have first : slice? (String.ofList line.text) 0 (byteLength before) =
      some (String.ofList before) :=
    slice?_eq [] before (inside ++ after) (whole.trans (List.append_assoc ..))
  have last : slice? (String.ofList line.text) (byteLength (before ++ inside))
      (String.ofList line.text).utf8ByteSize = some (String.ofList after) := by
    have cut := slice?_eq (before ++ inside) after [] (whole.trans (List.append_nil _).symm)
    rwa [← whole, ← utf8ByteSize_ofList line.text] at cut
  unfold cut?
  rw [colour]
  simp only [first, slice?_eq before inside after whole, last, Option.bind_eq_bind,
    Option.bind_some, String.toList_ofList]
  rfl

/-- Only records that pass nowhere have no style. -/
theorem style_eq_nil_iff (level : Level) : style level = [] ↔ level = .off := by
  cases level with
  | trace | debug | info | warn | err | critical | off => decide

/-- The end of a style is empty for the level that has no style, and for no other. -/
theorem unstyle_eq_nil_iff (level : Level) : unstyle level = [] ↔ level = .off := by
  cases level with
  | trace | debug | info | warn | err | critical | off => decide

/-- A line without a range is handed over in one piece. -/
theorem pieces_of_colourless (none : line.colour = Option.none) (coloured : Bool) (level : Level) :
    pieces coloured level line = [line.text] := by
  unfold pieces
  rw [none]

/-- A line without a range is not cut, so no slice of it can fail. -/
theorem cut?_of_colourless (none : line.colour = Option.none) (coloured : Bool) (level : Level) :
    cut? coloured level line = some [line.text] := by
  unfold cut?
  rw [none]

/-- The slices of a sink never fail, coloured or not. -/
theorem cut?_format (p : Pattern) (process : Nat) (r : Record) (coloured : Bool) (level : Level) :
    cut? coloured level (p.format process r) =
      some (pieces coloured level (p.format process r)) := by
  cases colour : (p.format process r).colour with
  | none => rw [cut?_of_colourless colour, pieces_of_colourless colour]
  | some range =>
    obtain ⟨start, stop⟩ := range
    obtain ⟨before, inside, after, whole, rfl, rfl⟩ := colour_splits colour
    cases coloured with
    | true => rw [cut?_eq whole colour, pieces_eq whole colour]
    | false =>
      unfold cut? pieces
      rw [colour]

/-- A line has a range exactly when its pattern has a start, and then the ends of the range lie in
order between characters of the text in front of the newline. No slice of a sink fails. A coloured
sink hands over what a plain one does, with a style put in at the start and its end at the stop, and
exactly the same when there is no range. -/
theorem line_is_cut_between_characters {source : String} {p : Pattern}
    (compiled : Pattern.compile source = .ok p) (process : Nat) (r : Record) (level : Level) :
    ((p.format process r).colour.isSome ↔ Has .start source.toList) ∧
      (∀ coloured, cut? coloured level (p.format process r) =
        some (pieces coloured level (p.format process r))) ∧
      (¬Has .start source.toList →
        pieces true level (p.format process r) = pieces false level (p.format process r)) ∧
      (∀ start stop, (p.format process r).colour = some (start, stop) →
        start ≤ stop ∧
        (∃ text, (p.format process r).text = text ++ ['\n'] ∧ stop ≤ byteLength text) ∧
        (⟨start⟩ : String.Pos.Raw).IsValid (String.ofList (p.format process r).text) ∧
        (⟨stop⟩ : String.Pos.Raw).IsValid (String.ofList (p.format process r).text) ∧
        ∃ before inside after, Divides (p.format process r) level start stop before inside after) ∧
      (style level = [] ↔ level = .off) ∧ (unstyle level = [] ↔ level = .off) := by
  refine ⟨isSome_colour_iff compiled process r,
    fun coloured => cut?_format p process r coloured level,
    fun none => ?_, fun start stop colour => ?_, style_eq_nil_iff level, unstyle_eq_nil_iff level⟩
  · rw [← isSome_colour_iff compiled process r, Option.not_isSome_iff_eq_none] at none
    rw [pieces_of_colourless none, pieces_of_colourless none]
  · obtain ⟨before, inside, after, whole, rfl, rfl⟩ := colour_splits colour
    refine ⟨?_, ⟨before ++ inside ++ after, ?_, ?_⟩, ?_, isValid_of_append whole,
      before, inside, after, rfl, rfl, pieces_eq whole colour level, ?_⟩
    · rw [byteLength_append]
      exact Nat.le_add_right ..
    · rw [whole, List.append_assoc _ after]
    · rw [byteLength_append _ after]
      exact Nat.le_add_right ..
    · exact isValid_of_append (whole.trans (List.append_assoc ..))
    · unfold pieces
      rw [colour]
      simp [whole]

/-- A range over characters of several bytes, with a stop in front of it that does not count. -/
theorem wide_characters_are_cut :
    let p : Pattern := ⟨"%l%$ %^%v%$!", [.part .level, .colourEnd, .literal [' '], .colourStart,
      .part .payload, .colourEnd, .literal ['!']]⟩
    let r : Record := ⟨"app", .warn, ⟨0, 0, 0⟩, 1, "日志"⟩
    let line : Line := ⟨['w', 'a', 'r', 'n', ' ', '日', '志', '!', '\n'], some (5, 11)⟩
    Pattern.compile "%l%$ %^%v%$!" = .ok p ∧ p.format 7 r = line ∧
      Has .start "%l%$ %^%v%$!".toList ∧ (5 ≤ 11) ∧
      (∃ text, line.text = text ++ ['\n'] ∧ 11 ≤ byteLength text) ∧
      (⟨5⟩ : String.Pos.Raw).IsValid (String.ofList line.text) ∧
      (⟨11⟩ : String.Pos.Raw).IsValid (String.ofList line.text) ∧
      (∃ before inside after, Divides line .warn 5 11 before inside after) ∧
      cut? true .warn line = some [['w', 'a', 'r', 'n', ' '],
        ['\x1b', '[', '1', 'm', '\x1b', '[', '3', '3', 'm'], ['日', '志'],
        ['\x1b', '[', '0', 'm'], ['!', '\n']] := by
  intro p r line
  have compiled : Pattern.compile "%l%$ %^%v%$!" = .ok p := rfl
  have made : p.format 7 r = line := by decide
  obtain ⟨has, cut, -, range, -⟩ := line_is_cut_between_characters compiled 7 r .warn
  rw [made] at has cut range
  obtain ⟨le, inside, start, stop, divided⟩ := range 5 11 rfl
  exact ⟨compiled, made, has.mp rfl, le, inside, start, stop, divided, cut true⟩

end LogTopology.Console
