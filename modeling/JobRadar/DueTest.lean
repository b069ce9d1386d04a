import JobRadar.SchedulerFaults

namespace JobRadar

open Python

/-- A `timedelta` from seconds on. It holds at most 999999999 days. -/
structure Timedelta where
  microseconds : Nat
  days_le : microseconds / 86400000000 ≤ 999999999

/-- A `datetime`: what the calendar and the clock show, up to the end of the year 9999, and the
offset from UTC if there is one. -/
structure DateTime where
  shown : Time
  utcoffset : Option Int := none
  shown_le : shown ≤ datetimeMax

/-- `timedelta(seconds=seconds)`. -/
def timedelta (seconds : Nat) : Except TickError Timedelta :=
  if h : timedeltaSeconds seconds / 86400000000 ≤ 999999999 then .ok ⟨timedeltaSeconds seconds, h⟩
  else .error .overflow

namespace DateTime

/-- A naive time is taken as UTC. -/
def aware (d : DateTime) : DateTime := { d with utcoffset := some (d.utcoffset.getD 0) }

/-- `d + delta`, which leaves the offset as it is. -/
def add (d : DateTime) (delta : Timedelta) : Except TickError DateTime :=
  if h : d.shown + delta.microseconds ≤ datetimeMax then
    .ok { d with shown := d.shown + delta.microseconds, shown_le := h }
  else .error .overflow

def instant (d : DateTime) : Int := (d.shown : Int) - d.utcoffset.getD 0

theorem add_eq {d : DateTime} {delta : Timedelta}
    (h : d.shown + delta.microseconds ≤ datetimeMax) :
    d.add delta = .ok { d with shown := d.shown + delta.microseconds, shown_le := h } := dif_pos h

theorem add_overflow {d : DateTime} {delta : Timedelta}
    (h : ¬d.shown + delta.microseconds ≤ datetimeMax) : d.add delta = .error .overflow := dif_neg h

def utc (t : Time) (h : t ≤ datetimeMax) : DateTime := ⟨t, some 0, h⟩

end DateTime

structure DueColumns where
  schedule : Option Text := none
  enabled : Bool := true
  lastSuccessAt : Option DateTime := none
  schedule_length : ∀ t ∈ schedule, t.length ≤ 128

/-- `current >= last + timedelta(seconds=seconds)`. -/
def dueAfter (last : DateTime) (seconds : Nat) (now : DateTime) : Except TickError Bool :=
  (timedelta seconds).bind fun delta =>
    (last.aware.add delta).bind fun next => .ok (next.instant ≤ now.aware.instant)

/-- `is_due` with all that arithmetic on dates may raise. -/
def isDueOrOverflow (u : Decimals) (source : DueColumns) (now : DateTime) :
    Except TickError Bool :=
  match intervalSeconds u source.schedule with
  | none => .ok false
  | some seconds =>
    if source.enabled then
      match source.lastSuccessAt with
      | none => .ok true
      | some last => dueAfter last seconds now
    else .ok false

/-- Where the test comes to a date, it is one that the calendar has. -/
def DueColumns.InCalendar (u : Decimals) (source : DueColumns) : Prop :=
  ∀ seconds ∈ intervalSeconds u source.schedule, source.enabled = true →
    ∀ last ∈ source.lastSuccessAt, last.shown + timedeltaSeconds seconds ≤ datetimeMax

section Due

variable {u : Decimals} {source : DueColumns} {now : DateTime} {last : DateTime} {seconds : Nat}

theorem timedelta_of_inCalendar (h : last.shown + timedeltaSeconds seconds ≤ datetimeMax) :
    timedeltaSeconds seconds / 86400000000 ≤ 999999999 := by
  have hle : timedeltaSeconds seconds ≤ 315537897599999999 := Nat.le_trans (Nat.le_add_left ..) h
  have hdiv := Nat.div_le_div_right (c := 86400000000) hle
  exact Nat.le_trans hdiv (by decide)

theorem timedelta_eq (h : timedeltaSeconds seconds / 86400000000 ≤ 999999999) :
    timedelta seconds = .ok ⟨timedeltaSeconds seconds, h⟩ := dif_pos h

theorem timedelta_overflow (h : ¬timedeltaSeconds seconds / 86400000000 ≤ 999999999) :
    timedelta seconds = .error .overflow := dif_neg h

theorem dueAfter_of_add {delta : Timedelta} {next : DateTime}
    (hdelta : timedelta seconds = .ok delta) (hnext : last.aware.add delta = .ok next) :
    dueAfter last seconds now = .ok (next.instant ≤ now.aware.instant) := by
  rw [dueAfter, hdelta, Except.bind, hnext, Except.bind]

theorem dueAfter_overflow (h : ¬last.shown + timedeltaSeconds seconds ≤ datetimeMax) :
    dueAfter last seconds now = .error .overflow := by
  by_cases hlong : timedeltaSeconds seconds / 86400000000 ≤ 999999999
  · have hnext : last.aware.add ⟨timedeltaSeconds seconds, hlong⟩ = .error .overflow :=
      DateTime.add_overflow h
    rw [dueAfter, timedelta_eq hlong, Except.bind, hnext, Except.bind]
  · rw [dueAfter, timedelta_overflow hlong, Except.bind]

theorem dueAfter_eq : dueAfter last seconds now =
    if last.shown + timedeltaSeconds seconds ≤ datetimeMax then
      .ok (last.aware.instant + (timedeltaSeconds seconds : Nat) ≤ now.aware.instant)
    else .error .overflow := by
  split
  next h =>
    have hadd : last.aware.shown + timedeltaSeconds seconds ≤ datetimeMax := h
    have hinstant : ∀ shown delta : Nat, ∀ offset now : Int,
        ((shown + delta : Nat) : Int) - offset ≤ now ↔
          (shown : Int) - offset + (delta : Int) ≤ now := by
      intro shown delta offset now
      omega
    rw [dueAfter_of_add (timedelta_eq (timedelta_of_inCalendar h)) (DateTime.add_eq hadd)]
    exact congrArg Except.ok (decide_eq_decide.mpr (hinstant ..))
  next h => exact dueAfter_overflow h

theorem isDueOrOverflow_cases (u : Decimals) (source : DueColumns) (now : DateTime) :
    (source.InCalendar u ∧ ∃ due, isDueOrOverflow u source now = .ok due) ∨
    (¬source.InCalendar u ∧ isDueOrOverflow u source now = .error .overflow) := by
  unfold isDueOrOverflow DueColumns.InCalendar
  cases intervalSeconds u source.schedule with
  | none => simp
  | some seconds =>
    cases source.enabled with
    | false => simp
    | true =>
      cases source.lastSuccessAt with
      | none => simp
      | some last =>
        simp only [if_true, dueAfter_eq, Option.mem_some_iff, forall_eq', forall_const]
        split
        next h => simp [h]
        next h => simp [h]

/-- The due test returns just where the date it computes is in the calendar. -/
theorem due_test_returns_iff (u : Decimals) (source : DueColumns) (now : DateTime) :
    (∃ due, isDueOrOverflow u source now = .ok due) ↔ source.InCalendar u := by
  rcases isDueOrOverflow_cases u source now with ⟨hcalendar, hdue⟩ | ⟨hlate, hraises⟩
  · exact iff_of_true hdue hcalendar
  · refine iff_of_false ?_ hlate
    rintro ⟨due, hdue⟩
    cases hraises.symm.trans hdue

theorem isDueOrOverflow_utc {source : SourceSchedule} {t : Time}
    (hlength : ∀ x ∈ source.schedule, x.length ≤ 128) (ht : t ≤ datetimeMax)
    (hlast : ∀ x ∈ source.lastSuccessAt, x ≤ datetimeMax) :
    isDueOrOverflow u ⟨source.schedule, source.enabled,
        source.lastSuccessAt.pmap DateTime.utc hlast, hlength⟩ (.utc t ht) =
      isDue u source t := by
  obtain ⟨schedule, enabled, lastSuccessAt⟩ := source
  have hsame : ∀ last seconds now : Nat, ((last : Int) - 0 + (seconds : Int) ≤ (now : Int) - 0) ↔
      last + seconds ≤ now := by
    intro last seconds now
    omega
  unfold isDueOrOverflow isDue
  cases intervalSeconds u schedule with
  | none => rfl
  | some seconds =>
    cases lastSuccessAt with
    | none => rfl
    | some last =>
      cases enabled with
      | false => simp
      | true =>
        simp only [Option.pmap, if_true, dueAfter_eq, DateTime.utc]
        by_cases h : last + timedeltaSeconds seconds ≤ datetimeMax
        · rw [if_pos h, if_neg (Nat.not_lt_of_le h)]
          exact congrArg Except.ok (decide_eq_decide.mpr (hsame last (timedeltaSeconds seconds) t))
        · rw [if_neg h, if_pos (Nat.lt_of_not_le h)]

end Due

def firstInstant : DateTime := .utc 0 (by decide)

def succeededOnce (schedule : Text) (h : schedule.length ≤ 128) : DueColumns where
  schedule := some schedule
  lastSuccessAt := some firstInstant
  schedule_length := by
    intro t ht
    cases ht
    exact h

theorem succeededOnce_raises {schedule : Text} {h : schedule.length ≤ 128} {seconds : Nat}
    (hinterval : intervalSeconds .ascii (some schedule) = some seconds)
    (hlate : datetimeMax < timedeltaSeconds seconds) :
    isDueOrOverflow .ascii (succeededOnce schedule h) firstInstant = .error .overflow := by
  rcases isDueOrOverflow_cases .ascii (succeededOnce schedule h) firstInstant with
    ⟨hcalendar, -⟩ | ⟨-, hraises⟩
  · have hle := hcalendar seconds hinterval rfl firstInstant rfl
    rw [firstInstant, DateTime.utc, Nat.zero_add] at hle
    exact absurd hle (Nat.not_le_of_lt hlate)
  · exact hraises

/-- An interval of more days than a `timedelta` holds, and one that ends with the year 9999. -/
theorem longInterval_raises :
    isDueOrOverflow .ascii (succeededOnce (text "interval:99999999999999") (by decide))
      firstInstant = .error .overflow ∧
    isDueOrOverflow .ascii (succeededOnce (text "interval:315537897600") (by decide))
      firstInstant = .error .overflow ∧
    ¬∃ due, isDueOrOverflow .ascii (succeededOnce (text "interval:315537897600") (by decide))
      firstInstant = .ok due := by
  have hdays : intervalSeconds .ascii (some (text "interval:99999999999999")) =
      some 99999999999999 := by decide
  have hyears : intervalSeconds .ascii (some (text "interval:315537897600")) =
      some 315537897600 := by decide
  refine ⟨succeededOnce_raises hdays (by decide), succeededOnce_raises hyears (by decide), ?_⟩
  rintro ⟨due, hdue⟩
  cases (succeededOnce_raises hyears (by decide)).symm.trans hdue

end JobRadar
