import LogTopology.Bridge.Message
/-!
# What the message of an event says

The fields of an event may come in any order. Its message says the domain first, then what the
fields named `message` say, and then all other fields with their names, in the order in which they
were recorded and with one space between any two things (`Bridge.layout`).

A domain or a message that was recorded as a number or a flag is not taken for one: it is found
among the other fields, with its name (`number_shown_as_field`). Where no such field is
recorded, no field of these names is among the others.

If an event has several domains, the last one counts; of several messages a text takes the place of
what was said before, and a printed form goes on from it (`Says`).
-/

namespace LogTopology

namespace FieldValue

/-- The text of a value, if it was recorded as one. -/
def text? : FieldValue → Option String
  | text s => some s
  | _ => none

/-- The printed form of a value, if it was recorded by that. -/
def shown? : FieldValue → Option String
  | shown s => some s
  | _ => none

/-- What a value says of itself: its text or its printed form. Numbers and flags say nothing. -/
def spoken? (v : FieldValue) : Option String :=
  v.text?.or v.shown?

end FieldValue

namespace Bridge

/-- The fields of an event with their values, in the order in which they were recorded. -/
abbrev Fields := List (String × FieldValue)

/-- The values of the fields of a name. -/
def valuesOf (name : String) (fields : Fields) : List FieldValue :=
  (fields.filter fun f => f.1 = name).map Prod.snd

/-- What a value says as a domain; the quotes around a printed form are dropped. -/
def domainText? : FieldValue → Option String
  | .text s => some s
  | .shown s => some (dropQuotes s)
  | _ => none

/-- The domain of an event is what the last of its domains says. -/
def lastDomain? (fields : Fields) : Option String :=
  (valuesOf "domain" fields).reverse.findSome? domainText?

/-- What messages say together: the last text, and the printed forms behind it. -/
inductive Says : List FieldValue → String → Prop where
  | text (before : List FieldValue) (s : String) (after : List FieldValue)
      (last : ∀ v ∈ after, v.text? = none) :
      Says (before ++ .text s :: after) (s ++ String.join (after.filterMap FieldValue.shown?))
  | printed (values : List FieldValue) (noText : ∀ v ∈ values, v.text? = none) :
      Says values (String.join (values.filterMap FieldValue.shown?))

/-- Whether a field is taken for the domain or the message of its event. -/
def isTaken (f : String × FieldValue) : Bool :=
  (f.1 = "domain" || f.1 = "message") && f.2.spoken?.isSome

/-- A field with its name. -/
def pairText (f : String × FieldValue) : String :=
  f.1 ++ "=" ++ valueText f.2

/-- The fields that are not taken for a domain or a message, with their names. -/
def pairsOf (fields : Fields) : List String :=
  (fields.filter fun f => !isTaken f).map pairText

/-- A message with its domain before it and other fields behind it. -/
def layout (domain : Option String) (said : String) (pairs : List String) : String :=
  (domain.elim "" fun d => "[" ++ d ++ "] ") ++ said ++
    (if said = "" ∨ pairs = [] then "" else " ") ++ " ".intercalate pairs

/-- A printed text and what is left of it without the quotes at both ends. -/
def Unquoted (s d : String) : Prop :=
  ∃ before after : Nat,
    s.toList = List.replicate before '"' ++ d.toList ++ List.replicate after '"' ∧
      d.toList.head? ≠ some '"' ∧ d.toList.getLast? ≠ some '"'

/-- What has been collected tells the fields. -/
structure Tells (c : Collected) (fields : Fields) : Prop where
  domain : c.domain = lastDomain? fields
  said : Says (valuesOf "message" fields) c.message
  others : c.others = String.intercalate " " (pairsOf fields)

variable {c : Collected} {fields : Fields} {values : List FieldValue} {m s : String}

/-! ## Messages behind messages -/

/-- A text says itself, whatever was said before it. -/
theorem Says.append_text (values : List FieldValue) (s : String) : Says (values ++ [.text s]) s := by
  have alone := Says.text values s [] fun _ mem => absurd mem List.not_mem_nil
  rwa [List.filterMap_nil, String.join_nil, String.append_empty] at alone

/-- A value that is no text adds its printed form, if it has one. -/
theorem Says.append (said : Says values m) {v : FieldValue} (plain : v.text? = none) :
    Says (values ++ [v]) (m ++ v.shown?.getD "") := by
  have more (vs : List FieldValue) : String.join ((vs ++ [v]).filterMap FieldValue.shown?) =
      String.join (vs.filterMap FieldValue.shown?) ++ v.shown?.getD "" := by
    rw [List.filterMap_append, String.join_append]
    cases shown : v.shown? <;> simp [shown]
  have still {vs : List FieldValue} (noText : ∀ w ∈ vs, w.text? = none) :
      ∀ w ∈ vs ++ [v], w.text? = none :=
    List.forall_mem_append.mpr ⟨noText, List.forall_mem_singleton.mpr plain⟩
  cases said with
  | text before s after last =>
    rw [List.append_assoc, List.cons_append, String.append_assoc, ← more]
    exact .text before s _ (still last)
  | printed _ noText =>
    rw [← more]
    exact .printed _ (still noText)

/-! ## Fields behind fields -/

/-- One more field is one more value of its name, and of no other name. -/
theorem valuesOf_append (name : String) (fields : Fields) (f : String × FieldValue) :
    valuesOf name (fields ++ [f]) = valuesOf name fields ++ if f.1 = name then [f.2] else [] := by
  rw [valuesOf, List.filter_append, List.map_append]
  congr 1
  by_cases h : f.1 = name <;> simp [h]

/-- One more domain takes the place of those before it, if it says anything. -/
theorem lastDomain?_append (fields : Fields) (f : String × FieldValue) :
    lastDomain? (fields ++ [f]) =
      (if f.1 = "domain" then domainText? f.2 else none).or (lastDomain? fields) := by
  rw [lastDomain?, valuesOf_append]
  split
  · rw [List.reverse_append, List.findSome?_append, List.reverse_singleton, List.findSome?_singleton]
    rfl
  · rw [List.append_nil]
    rfl

/-- One more field is one more pair, unless it is taken for a domain or a message. -/
theorem pairsOf_append (fields : Fields) (f : String × FieldValue) :
    pairsOf (fields ++ [f]) = pairsOf fields ++ if isTaken f then [] else [pairText f] := by
  rw [pairsOf, List.filter_append, List.map_append]
  congr 1
  by_cases h : isTaken f <;> simp [h]

/-- Pairs are never empty texts, so joined they are empty only if there are none. -/
theorem intercalate_eq_empty_iff : " ".intercalate (pairsOf fields) = "" ↔ pairsOf fields = [] := by
  constructor
  · intro empty
    cases pairs : fields.filter fun f => !isTaken f with
    | nil => rw [pairsOf, pairs, List.map_nil]
    | cons f rest =>
      rw [pairsOf, pairs, List.map_cons, pairText, String.intercalate_cons_append,
        String.append_eq_empty_iff, String.append_eq_empty_iff] at empty
      exact absurd empty.1.2 (by decide)
  · intro none
    rw [none, String.intercalate_nil]

/-! ## Collecting -/

/-- Collecting a field replaces the domain if the field is a domain that says something. -/
theorem domain_add (c : Collected) (f : String × FieldValue) :
    (c.add f).domain = (if f.1 = "domain" then domainText? f.2 else none).or c.domain := by
  obtain ⟨name, value⟩ := f
  cases value with
  | text s | shown s =>
    by_cases domain : name = "domain"
    · simp [Collected.add, domainText?, domain]
    · by_cases message : name = "message" <;>
        simp [Collected.add, Collected.addOther, domain, message]
  | unsigned n | signed n | flag b => simp [Collected.add, Collected.addOther, domainText?]

/-- Collecting a message replaces what was said if it is a text, and goes on from it if it is a
printed form. -/
theorem message_add (c : Collected) (f : String × FieldValue) :
    (c.add f).message =
      if f.1 = "message" then f.2.text?.getD (c.message ++ f.2.shown?.getD "") else c.message := by
  obtain ⟨name, value⟩ := f
  cases value with
  | text s | shown s =>
    by_cases message : name = "message"
    · simp [Collected.add, FieldValue.text?, FieldValue.shown?, message]
    · by_cases domain : name = "domain" <;>
        simp [Collected.add, Collected.addOther, domain, message]
  | unsigned n | signed n | flag b =>
    simp [Collected.add, Collected.addOther, FieldValue.text?, FieldValue.shown?]

/-- Collecting a field that is not taken puts it behind the others, with a space between them. -/
theorem others_add (c : Collected) (f : String × FieldValue) :
    (c.add f).others =
      if isTaken f then c.others
      else c.others ++ (if c.others = "" then "" else " ") ++ pairText f := by
  obtain ⟨name, value⟩ := f
  cases value with
  | text s | shown s =>
    by_cases domain : name = "domain"
    · simp [Collected.add, isTaken, FieldValue.spoken?, FieldValue.text?, FieldValue.shown?, domain]
    · by_cases message : name = "message" <;>
        simp [Collected.add, Collected.addOther, isTaken, FieldValue.spoken?, FieldValue.text?,
          FieldValue.shown?, pairText, domain, message]
  | unsigned n | signed n | flag b =>
    simp [Collected.add, Collected.addOther, isTaken, FieldValue.spoken?, FieldValue.text?,
      FieldValue.shown?, pairText]

/-- What has been collected goes on to tell the fields when a field is added. -/
theorem Tells.add (tells : Tells c fields) (f : String × FieldValue) :
    Tells (c.add f) (fields ++ [f]) := by
  refine ⟨?_, ?_, ?_⟩
  · rw [domain_add, lastDomain?_append, tells.domain]
  · rw [message_add, valuesOf_append]
    split
    · cases text : f.2.text? with
      | none => exact tells.said.append text
      | some s =>
        have value : f.2 = .text s := by
          cases shape : f.2 <;> simp_all [FieldValue.text?]
        rw [value]
        exact .append_text _ s
    · rw [List.append_nil]
      exact tells.said
  · rw [others_add, pairsOf_append, tells.others]
    split
    · rw [List.append_nil]
    · by_cases first : pairsOf fields = []
      · simp [first]
      · rw [if_neg (mt intercalate_eq_empty_iff.mp first),
          String.intercalate_append_of_ne_nil first (List.cons_ne_nil _ _),
          String.intercalate_singleton]

/-- Fields that are collected one after the other are told in their order. -/
theorem Tells.foldl (tells : Tells c fields) (later : Fields) :
    Tells (later.foldl Collected.add c) (fields ++ later) := by
  induction later generalizing c fields with
  | nil => rwa [List.append_nil]
  | cons f later ih =>
    rw [List.append_cons]
    exact ih (tells.add f)

/-- What is collected from the fields of an event tells them. -/
theorem tells_fields (fields : Fields) : Tells (fields.foldl Collected.add .empty) fields := by
  have nothing : Tells .empty [] :=
    ⟨rfl, .printed [] fun _ mem => absurd mem List.not_mem_nil, rfl⟩
  exact nothing.foldl fields

/-- The text of what was collected is laid out as domain, message and pairs. -/
theorem Tells.text_eq (tells : Tells c fields) :
    c.text = layout (lastDomain? fields) c.message (pairsOf fields) := by
  unfold Collected.text layout
  rw [tells.domain]
  by_cases silent : c.message = ""
  · simp [silent, tells.others]
  · by_cases alone : pairsOf fields = []
    · simp [tells.others, alone]
    · have more := mt intercalate_eq_empty_iff.mp alone
      simp [silent, alone, more, tells.others]

/-! ## Quotes -/

/-- A text is some number of copies of a character, and then what `dropWhile` leaves of it. -/
theorem exists_replicate_append_dropWhile (q : Char) (cs : List Char) :
    ∃ n, cs = List.replicate n q ++ cs.dropWhile (· = q) := by
  induction cs with
  | nil => exact ⟨0, rfl⟩
  | cons c cs ih =>
    by_cases quote : c = q
    · obtain ⟨n, split⟩ := ih
      refine ⟨n + 1, ?_⟩
      rw [List.dropWhile_cons_of_pos (by simpa using quote), List.replicate_succ, List.cons_append,
        ← split, quote]
    · refine ⟨0, ?_⟩
      rw [List.dropWhile_cons_of_neg (by simpa using quote)]
      rfl

/-- What `dropWhile` leaves does not begin with the character that it drops. -/
theorem head?_dropWhile_ne (q : Char) (cs : List Char) :
    (cs.dropWhile (· = q)).head? ≠ some q := by
  intro quote
  have kept := List.head?_dropWhile_not (· = q) cs
  rw [quote] at kept
  simp at kept

/-- All quotes at both ends are dropped, and no others. -/
theorem unquoted_dropQuotes (s : String) : Unquoted s (dropQuotes s) := by
  obtain ⟨before, front⟩ := exists_replicate_append_dropWhile '"' s.toList
  have noQuote := head?_dropWhile_ne '"' s.toList
  unfold Unquoted dropQuotes
  rw [String.toList_ofList]
  generalize s.toList.dropWhile (· = '"') = rest at front noQuote ⊢
  obtain ⟨after, back⟩ := exists_replicate_append_dropWhile '"' rest.reverse
  have noQuote' := head?_dropWhile_ne '"' rest.reverse
  generalize rest.reverse.dropWhile (· = '"') = kept at back noQuote' ⊢
  have split : rest = kept.reverse ++ List.replicate after '"' := by
    rw [← List.reverse_reverse rest, back, List.reverse_append, List.reverse_replicate]
  refine ⟨before, after, ?_, ?_, ?_⟩
  · rw [front, split, List.append_assoc]
  · rw [split] at noQuote
    cases inner : kept.reverse with
    | nil => exact nofun
    | cons c cs => rwa [inner] at noQuote
  · rwa [List.getLast?_reverse]

/-! ## Messages of events -/

/-- A single message says its own text, and none says nothing. -/
theorem Says.eq_of_single {v : Option FieldValue} (said : Says v.toList m)
    (spoken : ∀ x ∈ v, x.spoken?.isSome) : m = (v.bind FieldValue.spoken?).getD "" := by
  generalize single : v.toList = values at said
  cases v with
  | none =>
    cases said with
    | text before => cases before <;> cases single
    | printed => cases single; rfl
  | some x =>
    cases said with
    | text before s after =>
      rcases List.append_eq_singleton_iff.mp single.symm with ⟨rfl, here⟩ | ⟨-, here⟩
      · cases here
        exact String.append_empty
      · cases here
    | printed _ noText =>
      cases single
      have plain := noText x List.mem_cons_self
      have shows := spoken x rfl
      rw [FieldValue.spoken?, plain, Option.none_or] at shows
      obtain ⟨s, shown⟩ := Option.isSome_iff_exists.mp shows
      simp [FieldValue.spoken?, plain, shown]

/-- Where no domain and no message is a number or a flag, the others are those of other names. -/
theorem pairsOf_of_spoken
    (spoken : ∀ f ∈ fields, f.1 = "domain" ∨ f.1 = "message" → f.2.spoken?.isSome) :
    pairsOf fields =
      (fields.filter fun f => f.1 ≠ "domain" && f.1 ≠ "message").map pairText := by
  rw [pairsOf]
  congr 1
  refine List.filter_congr fun f mem => ?_
  by_cases named : f.1 = "domain" ∨ f.1 = "message"
  · simp [isTaken, spoken f mem named]
  · rw [not_or] at named
    simp [isTaken, named]

/-- A field of a name is among the values of the name. -/
theorem mem_valuesOf {name : String} {f : String × FieldValue} (mem : f ∈ fields) (named : f.1 = name) :
    f.2 ∈ valuesOf name fields :=
  List.mem_map_of_mem (List.mem_filter.mpr ⟨mem, decide_eq_true named⟩)

/-- The message of an event says its domain, what its messages say and its other fields, each in its
place. A domain or a message that is a number or a flag is among the other fields; if there is none
of these, the domain and the message stand before the fields of other names. -/
theorem message_puts_fields_in_place (ev : Event) :
    (∃ said, Says (valuesOf "message" ev.fields) said ∧
      message ev = layout (lastDomain? ev.fields) said (pairsOf ev.fields)) ∧
    (∀ d m : Option FieldValue, valuesOf "domain" ev.fields = d.toList →
      valuesOf "message" ev.fields = m.toList → (∀ v ∈ d, v.spoken?.isSome) →
      (∀ v ∈ m, v.spoken?.isSome) →
      message ev = layout (d.bind domainText?) ((m.bind FieldValue.spoken?).getD "")
        ((ev.fields.filter fun f => f.1 ≠ "domain" && f.1 ≠ "message").map pairText)) ∧
    ∀ s, Unquoted s (dropQuotes s) := by
  have tells := tells_fields ev.fields
  refine ⟨⟨_, tells.said, tells.text_eq⟩, ?_, unquoted_dropQuotes⟩
  intro d m domains messages spokenDomain spokenMessage
  have said := tells.said
  rw [messages] at said
  have domain : lastDomain? ev.fields = d.bind domainText? := by
    rw [lastDomain?, domains]
    cases d with
    | none => rfl
    | some v => exact List.findSome?_singleton
  have others : pairsOf ev.fields = _ := pairsOf_of_spoken fun f mem named => by
    rcases named with named | named
    · exact spokenDomain _ (Option.mem_toList.mp (domains ▸ mem_valuesOf mem named))
    · exact spokenMessage _ (Option.mem_toList.mp (messages ▸ mem_valuesOf mem named))
  rw [message, tells.text_eq, domain, others, said.eq_of_single spokenMessage]

/-- Fields before and behind a message that is known by its printed form, and a quoted domain. -/
theorem late_domain_put_in_front :
    let d : FieldValue := .shown "\"sys\""
    let m : FieldValue := .shown "engine started"
    let ev : Event := ⟨"app", .info, ["answer", "message", "domain", "ok"],
      [("answer", .signed 42), ("message", m), ("domain", d), ("ok", .flag true)]⟩
    valuesOf "domain" ev.fields = [d] ∧ valuesOf "message" ev.fields = [m] ∧
      d.spoken?.isSome ∧ m.spoken?.isSome ∧
      message ev = layout (some "sys") "engine started" ["answer=42", "ok=true"] ∧
      message ev = "[sys] engine started answer=42 ok=true" := by
  intro d m ev
  obtain ⟨-, inPlace, -⟩ := message_puts_fields_in_place ev
  have placed := inPlace (some d) (some m) (by decide) (by decide) (by decide) (by decide)
  refine ⟨by decide, by decide, by decide, by decide, ?_, by decide⟩
  exact placed

/-- A domain that was recorded as a number is shown with its name behind the message, and a message
that was recorded as a flag is shown with its name. -/
theorem number_shown_as_field :
    let ev : Event := ⟨"app", .info, ["domain", "message"],
      [("domain", .unsigned 7), ("message", .text "m")]⟩
    let flagged : Event := ⟨"app", .info, ["message"], [("message", .flag true)]⟩
    message ev = "m domain=7" ∧ message ev ≠ "[7] m" ∧
      message flagged = "message=true" ∧ message flagged ≠ "true" := by
  decide

end Bridge

end LogTopology
