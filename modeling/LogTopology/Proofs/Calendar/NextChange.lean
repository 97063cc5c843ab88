import LogTopology.Calendar.Moment
/-!
# The next time of day after all others

The first time at which a clock shows a given second of the day, after a number of times that come
in any order. It is the next one after the latest of them (`earliest_nextTime`), so it depends on
which times there are and not on their order, and it never moves backwards as more times come. A
time that has not reached it leaves it where it is, and a time that has reached it is the latest of
all.

Days go on without end here, so there is always a next one.

`Earliest` says which time it is with no order of computation in it: it shows the second, it lies
after all of the times, and no other such time comes before it. There is only one such time
(`Earliest.unique`), and so a next time that was computed record by record is the one for all
records at once. Leap seconds and changes of the zone are not modelled: every day has the same
seconds.
-/

namespace LogTopology.Calendar.WallTime

/-- The later one of two times. -/
def later (a b : WallTime) : WallTime :=
  if a.before b then b else a

/-- The latest of some times. -/
def latest (first : WallTime) : List WallTime → WallTime
  | [] => first
  | t :: times => later (latest first times) t

/-- The next time at the given second of the day after all of some times. -/
def nextTime (second : Nat) (first : WallTime) (times : List WallTime) : WallTime :=
  (latest first times).nextAt second

/-- The earliest time at the given second of the day that lies strictly after all of some times. -/
structure Earliest (second : Nat) (times : List WallTime) (c : WallTime) : Prop where
  clock : ∃ day, c = ⟨day, second, 0⟩
  after : ∀ t ∈ times, t.before c = true
  first : ∀ day, (∀ t ∈ times, t.before ⟨day, second, 0⟩ = true) →
    before ⟨day, second, 0⟩ c = false

variable {a b c c' start t : WallTime} {second : Nat} {times times' : List WallTime}

/-! ## The order of times -/

/-- A time is before another if its day is, or on the same day its second, or in the same second its
nanosecond. -/
theorem before_iff :
    a.before b = true ↔ a.days < b.days ∨
      a.days = b.days ∧ (a.second < b.second ∨ a.second = b.second ∧ a.nano < b.nano) := by
  simp [before]

/-- A time is not before another if none of the three says so. -/
theorem not_before_iff :
    a.before b = false ↔ ¬(a.days < b.days ∨
      a.days = b.days ∧ (a.second < b.second ∨ a.second = b.second ∧ a.nano < b.nano)) := by
  rw [← before_iff, Bool.not_eq_true]

/-- No time is before itself. -/
theorem before_self (t : WallTime) : t.before t = false := by
  simp [before]

/-- What is before one time is before every time that is not before that one. -/
theorem before_of_before_of_not_before (hab : a.before b = true) (hcb : c.before b = false) :
    a.before c = true := by
  rw [before_iff] at *
  rw [not_before_iff] at hcb
  omega

/-- What is not after one time is before every time that is after that one. -/
theorem before_of_not_before_of_before (hba : b.before a = false) (hbc : b.before c = true) :
    a.before c = true := by
  rw [before_iff] at *
  rw [not_before_iff] at hba
  omega

/-! ## The next time of day -/

/-- The next time of day is still to come. -/
theorem before_nextAt (now : WallTime) (second : Nat) : now.before (now.nextAt second) = true := by
  simp only [nextAt]
  split
  · assumption
  · rw [before_iff]
    exact .inl (Int.lt_succ _)

/-- No time of day lies between a time and the next one after it. -/
theorem not_before_nextAt {day : Int} (h : t.before ⟨day, second, 0⟩ = true) :
    before ⟨day, second, 0⟩ (t.nextAt second) = false := by
  rw [before_iff] at h
  rw [not_before_iff, nextAt]
  split
  · rename_i today
    rw [before_iff] at today
    dsimp only at *
    omega
  · rename_i tomorrow
    rw [Bool.not_eq_true, not_before_iff] at tomorrow
    dsimp only at *
    omega

/-- The next time of day after one time is the earliest one after it. -/
theorem earliest_nextAt (now : WallTime) (second : Nat) :
    Earliest second [now] (now.nextAt second) where
  clock := by
    simp only [nextAt]
    split
    · exact ⟨_, rfl⟩
    · exact ⟨_, rfl⟩
  after := by simpa using before_nextAt now second
  first day h := not_before_nextAt (h now (by simp))

/-- The next time of day moves forwards only, as more times come. -/
theorem Earliest.mono (h : Earliest second times c) (h' : Earliest second times' c')
    (more : ∀ t ∈ times, t ∈ times') : c'.before c = false := by
  obtain ⟨day, rfl⟩ := h'.clock
  exact h.first day fun t mem => h'.after t (more t mem)

/-- The next time of day does not depend on the order of the times. -/
theorem Earliest.unique (h : Earliest second times c) (h' : Earliest second times' c')
    (same : ∀ t, t ∈ times ↔ t ∈ times') : c = c' := by
  have forwards := h.mono h' fun t => (same t).mp
  have backwards := h'.mono h fun t => (same t).mpr
  obtain ⟨day, rfl⟩ := h.clock
  obtain ⟨day', rfl⟩ := h'.clock
  rw [not_before_iff] at forwards backwards
  have days : day = day' := by
    dsimp only at *
    omega
  rw [days]

/-! ## The latest time -/

/-- The later one of two times is before neither of them. -/
theorem not_later_before (a b : WallTime) :
    (later a b).before a = false ∧ (later a b).before b = false := by
  unfold later
  split
  · rename_i h
    rw [before_iff] at h
    simp only [not_before_iff]
    omega
  · rename_i h
    rw [Bool.not_eq_true] at h
    exact ⟨before_self a, h⟩

/-- None of some times is after the latest of them. -/
theorem not_latest_before (mem : t ∈ start :: times) : (latest start times).before t = false := by
  induction times with
  | nil =>
    rw [List.mem_singleton.mp mem]
    exact before_self start
  | cons s times ih =>
    obtain ⟨notOld, notNew⟩ := not_later_before (latest start times) s
    by_cases new : t = s
    · rw [new]
      exact notNew
    · have old := ih (by simpa [new] using mem)
      apply eq_false_of_ne_true
      intro earlier
      have fell : (later (latest start times) s).before (latest start times) = true :=
        before_of_before_of_not_before earlier old
      simp [fell] at notOld

/-- The latest of some times is one of them. -/
theorem latest_mem (start : WallTime) (times : List WallTime) :
    latest start times ∈ start :: times := by
  induction times with
  | nil => simp [latest]
  | cons t times ih =>
    unfold latest later
    split
    · simp
    · rcases List.mem_cons.mp ih with first | old
      · simp [first]
      · simp [old]

/-- The next time after the latest is the earliest after all. -/
theorem earliest_nextTime (second : Nat) (start : WallTime) (times : List WallTime) :
    Earliest second (start :: times) (nextTime second start times) where
  clock := (earliest_nextAt _ second).clock
  after _ mem := before_of_not_before_of_before (not_latest_before mem) (before_nextAt _ second)
  first _ h := not_before_nextAt (h _ (latest_mem start times))

/-- One more time that is before the earliest one changes nothing. -/
theorem Earliest.cons (h : Earliest second times c) (before : t.before c = true) :
    Earliest second (t :: times) c where
  clock := h.clock
  after := List.forall_mem_cons.mpr ⟨before, h.after⟩
  first day after := h.first day fun s mem => after s (List.mem_cons_of_mem t mem)

/-- A time before the next time of day leaves it where it is. -/
theorem nextTime_of_before (h : t.before (nextTime second start times) = true) :
    nextTime second start (t :: times) = nextTime second start times := by
  apply (earliest_nextTime second start (t :: times)).unique
    ((earliest_nextTime second start times).cons h)
  intro s
  simp only [List.mem_cons]
  exact or_left_comm

/-- A time that has reached the next time of day is the latest of all. -/
theorem nextTime_of_reached (h : t.before (nextTime second start times) = false) :
    nextTime second start (t :: times) = t.nextAt second := by
  have latest_before : (latest start times).before t = true :=
    before_of_before_of_not_before (before_nextAt _ second) h
  unfold nextTime latest later
  rw [if_pos latest_before]

end LogTopology.Calendar.WallTime
