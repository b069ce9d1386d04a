import JobRadar.AuditModel

namespace JobRadar

open Database Interleave Python

variable {ι : Type} [DecidableEq ι]

/-- The event that a call of `record` is about to commit. -/
def AuditThread.pending : AuditThread → Option AuditEvent
  | .inr (.inl ⟨_, _, .committing event⟩) => some event
  | _ => none

/-- An event that a step commits was created at most the period before. -/
def CommitsWithin (period : Time) (e : AuditRunEvent ι) : Prop :=
  ∀ event ∈ AuditThread.pending (e.before.thread e.mover), e.answer.outcome = .done →
    e.before.store.now + e.answer.elapsed ≤ event.createdAt + period

instance (period : Time) (e : AuditRunEvent ι) : Decidable (CommitsWithin period e) :=
  inferInstanceAs (Decidable (∀ event ∈ AuditThread.pending (e.before.thread e.mover), _))

/-- An event that a step deletes is older than the cutoff of the run that deletes it, which was
computed the retention days ago or earlier. -/
def DeletesOld (e : AuditRunEvent ι) : Prop :=
  ∀ s' t', auditStep e.answer e.before.store (e.before.thread e.mover) = some (s', t') →
    ∀ event ∈ e.before.store.events, event ∉ s'.events →
      ∃ t cutoff archived path, e.before.thread e.mover = .inl t ∧
        t.phase = .deleting cutoff archived path ∧ event.createdAt < cutoff ∧
        cutoff + timedeltaDays t.retentionDays ≤ e.before.store.now

/-- What a run has found out by its phase: from when its cutoff is, that it has read all events
before the cutoff, and that they are all archived. -/
def RetentionThread.Safe (s : AuditStore) (t : RetentionThread) : Prop :=
  (∀ cutoff, t.phase = .reading cutoff → cutoff + timedeltaDays t.retentionDays ≤ s.now) ∧
  (∀ cutoff events, t.phase = .archiving cutoff events →
    cutoff + timedeltaDays t.retentionDays ≤ s.now ∧
      ∀ event ∈ s.events, event.createdAt < cutoff → event ∈ events) ∧
  ∀ cutoff archived path, t.phase = .deleting cutoff archived path →
    cutoff + timedeltaDays t.retentionDays ≤ s.now ∧
      ∀ event ∈ s.events, event.createdAt < cutoff → s.Archived event

/-- The run archives, and keeps events for the period. -/
structure RetentionThread.Archives (period : Time) (t : RetentionThread) : Prop where
  enabled : t.archiveEnabled = true
  keeps : period ≤ timedeltaDays t.retentionDays

def RetentionsSafe (period : Time) (c : AuditPool ι) : Prop :=
  ∀ i t, c.thread i = .inl t → t.Archives period ∧ t.Safe c.store

/-- What any step leaves to the other threads: time does not go back, lines stay, and an event that
comes in was created at most the period ago. -/
structure AuditStore.Later (period : Time) (s s' : AuditStore) : Prop where
  now : s.now ≤ s'.now
  archive : ∀ event, s.Archived event → s'.Archived event
  events : ∀ event ∈ s'.events, event ∈ s.events ∨ s.now ≤ event.createdAt + period

section Step

variable {period : Time} {answer : AuditAnswer} {s s' : AuditStore} {t t' : RetentionThread}

theorem AuditStore.archived_append {path : ArchivePath} {events : List AuditEvent}
    {event : AuditEvent} :
    (s.append path events).Archived event ↔ event ∈ events ∨ s.Archived event := by
  unfold Archived append
  constructor
  · rintro ⟨p, hp⟩
    rcases List.mem_append.mp hp with hold | hnew
    · exact Or.inr ⟨p, hold⟩
    · obtain ⟨event', hmem, hpair⟩ := List.mem_map.mp hnew
      obtain rfl := AuditEvent.line_injective (Prod.mk.inj hpair).2
      exact Or.inl hmem
  · rintro (hnew | ⟨p, hold⟩)
    · exact ⟨path, List.mem_append_right _ (List.mem_map.mpr ⟨event, hnew, rfl⟩)⟩
    · exact ⟨p, List.mem_append_left _ hold⟩

theorem AuditStore.mem_before {cutoff : Time} {event : AuditEvent} :
    event ∈ s.before cutoff ↔ event ∈ s.events ∧ event.createdAt < cutoff := by
  unfold before
  rw [List.mem_insertionSort, List.mem_filter, decide_eq_true_iff]
  exact Iff.rfl

theorem AuditStore.mem_deleteBefore {cutoff : Time} {event : AuditEvent} :
    event ∈ (s.deleteBefore cutoff).events ↔ event ∈ s.events ∧ ¬event.createdAt < cutoff :=
  Table.mem_deleteWhere

theorem auditStep_later {t t' : AuditThread} (hs : auditStep answer s t = some (s', t'))
    (hintime : ∀ event ∈ AuditThread.pending t, answer.outcome = .done →
      s.now + answer.elapsed ≤ event.createdAt + period) : s.Later period s' := by
  have hnow : s.now ≤ s'.now := by
    rw [auditStep_now hs]
    exact Nat.le_add_right ..
  rcases auditStep_store hs with ⟨hevents, harchive⟩ | ⟨r, _, events, path, _, _, hevents, rfl⟩ |
    ⟨r, cutoff, _, _, _, _, rfl⟩ | ⟨r, event, row, events, ht, hphase, hdone, hrow, hinsert, rfl⟩
  · refine ⟨hnow, ?_, ?_⟩
    · rintro event ⟨path, hline⟩
      exact ⟨path, harchive ▸ hline⟩
    · intro event hmem
      rw [hevents] at hmem
      exact Or.inl hmem
  · refine ⟨hnow, ?_, fun event hmem => Or.inl hmem⟩
    intro event harchived
    exact AuditStore.archived_append.mpr (Or.inr harchived)
  · refine ⟨hnow, fun event harchived => harchived, ?_⟩
    intro event hmem
    exact Or.inl (AuditStore.mem_deleteBefore.mp hmem).1
  · refine ⟨hnow, fun event harchived => harchived, ?_⟩
    intro x hmem
    rcases (Table.mem_of_insert hinsert).mp hmem with hold | rfl
    · exact Or.inl hold
    · right
      have hpending : AuditThread.pending t = some event := by
        obtain ⟨eventId, call, phase⟩ := r
        cases hphase
        rw [ht]
        rfl
      have hcreated := hintime event hpending hdone
      rw [AuditEvent.stored_createdAt hrow]
      exact Nat.le_trans (Nat.le_add_right ..) hcreated

theorem AuditStore.Later.mem_old (hlater : s.Later period s') {cutoff keeps : Time}
    (hkeeps : period ≤ keeps) (hcutoff : cutoff + keeps ≤ s.now) {event : AuditEvent}
    (hmem : event ∈ s'.events) (hold : event.createdAt < cutoff) : event ∈ s.events := by
  rcases hlater.events event hmem with hbefore | hnew
  · exact hbefore
  · have hlt : event.createdAt + period < cutoff + keeps := Nat.add_lt_add_of_lt_of_le hold hkeeps
    exact absurd (Nat.le_trans hcutoff hnew) (Nat.not_le_of_lt hlt)

theorem RetentionThread.Safe.later (hsafe : t.Safe s) (harchives : t.Archives period)
    (hlater : s.Later period s') : t.Safe s' := by
  have hnow := hlater.now
  obtain ⟨hreading, harchiving, hdeleting⟩ := hsafe
  refine ⟨?_, ?_, ?_⟩
  · intro cutoff hphase
    exact Nat.le_trans (hreading cutoff hphase) hnow
  · intro cutoff events hphase
    obtain ⟨hcutoff, hread⟩ := harchiving cutoff events hphase
    refine ⟨Nat.le_trans hcutoff hnow, ?_⟩
    intro event hmem hold
    exact hread event (hlater.mem_old harchives.keeps hcutoff hmem hold) hold
  · intro cutoff archived path hphase
    obtain ⟨hcutoff, harchived⟩ := hdeleting cutoff archived path hphase
    refine ⟨Nat.le_trans hcutoff hnow, ?_⟩
    intro event hmem hold
    exact hlater.archive event
      (harchived event (hlater.mem_old harchives.keeps hcutoff hmem hold) hold)

theorem retentionStep_safe (hs : retentionStep answer s t = some (s', t')) (hsafe : t.Safe s)
    (harchives : t.Archives period) : t'.Archives period ∧ t'.Safe s' := by
  obtain ⟨hreading, harchiving, hdeleting⟩ := hsafe
  rcases retentionStep_cases hs with ⟨rfl, rfl | ⟨error, rfl⟩⟩ | ⟨_, hlate, rfl, rfl⟩ |
    ⟨cutoff, hphase, rfl, rfl⟩ | ⟨cutoff, events, archived, path, hphase, rfl, rfl⟩ |
    ⟨cutoff, archived, path, report, hphase, rfl, rfl⟩
  · exact ⟨⟨harchives.enabled, harchives.keeps⟩, nofun, nofun, nofun⟩
  · exact ⟨⟨harchives.enabled, harchives.keeps⟩, nofun, nofun, nofun⟩
  · refine ⟨⟨harchives.enabled, harchives.keeps⟩, ?_, nofun, nofun⟩
    intro cutoff h
    cases h
    exact Nat.le_of_eq (Nat.sub_add_cancel hlate)
  · refine ⟨⟨harchives.enabled, harchives.keeps⟩, nofun, ?_, nofun⟩
    intro cutoff' events h
    cases h
    refine ⟨Nat.le_trans (hreading cutoff hphase) (Nat.le_add_right ..), ?_⟩
    intro event hmem hold
    exact AuditStore.mem_before.mpr ⟨hmem, hold⟩
  · refine ⟨⟨harchives.enabled, harchives.keeps⟩, nofun, nofun, ?_⟩
    intro cutoff' archived' path' h
    cases h
    obtain ⟨hcutoff, hread⟩ := harchiving cutoff events hphase
    refine ⟨Nat.le_trans hcutoff (Nat.le_add_right ..), ?_⟩
    intro event hmem hold
    rw [if_pos harchives.enabled]
    exact AuditStore.archived_append.mpr (Or.inl (hread event hmem hold))
  · exact ⟨⟨harchives.enabled, harchives.keeps⟩, nofun, nofun, nofun⟩

omit [DecidableEq ι] in
theorem auditStep_kept {c : AuditPool ι} (hsafe : RetentionsSafe period c) {i : ι}
    {r : AuditStore × AuditThread} (hs : auditStep answer c.store (c.thread i) = some r)
    {event : AuditEvent} (hmem : event ∈ c.store.events) :
    event ∈ r.1.events ∨ c.store.Archived event ∧ r.1.archive = c.store.archive ∧
      ∃ t cutoff archived path, c.thread i = .inl t ∧ t.phase = .deleting cutoff archived path ∧
        event.createdAt < cutoff ∧ cutoff + timedeltaDays t.retentionDays ≤ c.store.now := by
  obtain ⟨s', t'⟩ := r
  rcases auditStep_store hs with ⟨hevents, _⟩ | ⟨_, _, _, _, _, _, hevents, _⟩ |
    ⟨t, cutoff, archived, path, ht, hphase, rfl⟩ | ⟨_, _, _, events, _, _, _, _, hinsert, rfl⟩
  · exact Or.inl (hevents ▸ hmem)
  · exact Or.inl (hevents ▸ hmem)
  · by_cases hold : event.createdAt < cutoff
    · right
      obtain ⟨_, _, _, hdeleting⟩ := hsafe i t ht
      obtain ⟨hcutoff, harchived⟩ := hdeleting cutoff archived path hphase
      exact ⟨harchived event hmem hold, rfl, t, cutoff, archived, path, ht, hphase, hold, hcutoff⟩
    · exact Or.inl (AuditStore.mem_deleteBefore.mpr ⟨hmem, hold⟩)
  · exact Or.inl ((Table.mem_of_insert hinsert).mpr (Or.inl hmem))

theorem RetentionsSafe.step {c : AuditPool ι} (hsafe : RetentionsSafe period c) {i : ι}
    {r : AuditStore × AuditThread} (hintime : CommitsWithin period ⟨c, i, answer⟩)
    (hs : auditStep answer c.store (c.thread i) = some r) :
    RetentionsSafe period (c.set i r) := by
  obtain ⟨s', t'⟩ := r
  have hlater : c.store.Later period s' := auditStep_later hs hintime
  intro j t hj
  by_cases hmover : j = i
  · subst j
    rw [Pool.set_thread_self] at hj
    cases hj
    rcases Atomic.either_cases hs with ⟨u, _, u', hu, he, hr⟩ | ⟨_, _, _, _, he, _⟩
    · cases he
      obtain ⟨harchives, hown⟩ := hsafe i u hu
      exact retentionStep_safe hr hown harchives
    · cases he
  · rw [Pool.set_thread_ne _ _ hmover] at hj
    obtain ⟨harchives, hown⟩ := hsafe j t hj
    exact ⟨harchives, hown.later harchives hlater⟩

end Step

/-- Runs that archive lose no event that is committed within the period they keep events for, and
delete only events before their cutoff. -/
theorem audit_events_kept {period : Time} {c₀ c : AuditPool ι} {es : List (AuditRunEvent ι)}
    (path : Path auditStep c₀ es c)
    (hstart : ∀ i t, c₀.thread i = .inl t → t.phase = .start ∧ t.Archives period)
    (hintime : ∀ e ∈ es, CommitsWithin period e) :
    (∀ e ∈ es, ∀ event ∈ e.before.store.events,
      event ∈ c.store.events ∨ c.store.Archived event) ∧ ∀ e ∈ es, DeletesOld e := by
  have init : RetentionsSafe period c₀ := by
    intro i t ht
    obtain ⟨hphase, harchives⟩ := hstart i t ht
    unfold RetentionThread.Safe
    rw [hphase]
    exact ⟨harchives, nofun, nofun, nofun⟩
  have step : ∀ (c : AuditPool ι) i a r, RetentionsSafe period c → CommitsWithin period ⟨c, i, a⟩ →
      auditStep a c.store (c.thread i) = some r → RetentionsSafe period (c.set i r) :=
    fun c i a r hsafe hok hs => hsafe.step hok hs
  refine ⟨?_, ?_⟩
  · intro e he event hmem
    refine path.persists (K := fun c => event ∈ c.store.events ∨ c.store.Archived event) init step
      ?_ hintime e he (Or.inl hmem)
    intro c i a r hsafe hok hs hkept
    rcases hkept with hin | harchived
    · rcases auditStep_kept hsafe hs hin with hstays | ⟨harchived, harchive, _⟩
      · exact Or.inl hstays
      · right
        obtain ⟨file, hline⟩ := harchived
        exact ⟨file, harchive ▸ hline⟩
    · exact Or.inr ((auditStep_later hs hok).archive event harchived)
  · intro e he s' t' hs event hmem hgone
    have hsafe := path.invariant_before (I := RetentionsSafe period) init step hintime e he
    rcases auditStep_kept hsafe hs hmem with hstays | ⟨_, _, hdeletes⟩
    · exact absurd hstays hgone
    · exact hdeletes

/-- An event of the first day, a run that keeps events for 30 days (0), and calls of `record`, on
day 100. -/
def annAudit : AuditPool Nat where
  store := { events := ⟨[userCreated.event 50 5], by simp⟩, now := timedeltaDays 100 }
  thread n :=
    if n = 0 then .inl ⟨30, true, text "backups", .start⟩
    else .inr (.inl ⟨n, userCreated, .start⟩)

/-- A call of `record` commits its event while the run archives. -/
def recordedMeanwhile : List (Nat × AuditAnswer) :=
  [(0, {}), (1, {}), (0, {}), (0, {}), (1, { elapsed := 7 }), (0, {})]

theorem recordedMeanwhile_kept : ∃ es c, Path auditStep annAudit es c ∧
    (c.store.events.rows.map AuditEvent.id = [1] ∧
      c.store.archive.map (fun line => line.2.id) = [50]) ∧
    (∀ e ∈ es, ∀ event ∈ e.before.store.events,
      event ∈ c.store.events ∨ c.store.Archived event) ∧ ∀ e ∈ es, DeletesOld e := by
  obtain ⟨es, c, hrun, hrows, hintime⟩ : ∃ es c,
      exec auditStep [] annAudit recordedMeanwhile = some (es, c) ∧
      (c.store.events.rows.map AuditEvent.id = [1] ∧
        c.store.archive.map (fun line => line.2.id) = [50]) ∧
      ∀ e ∈ es, CommitsWithin (timedeltaDays 30) e :=
    ⟨_, _, rfl, by decide, by decide⟩
  have path := exec_path .start recordedMeanwhile hrun
  refine ⟨es, c, path, hrows, audit_events_kept path ?_ hintime⟩
  intro i t ht
  unfold annAudit at ht
  dsimp only at ht
  split at ht
  next =>
    cases ht
    exact ⟨rfl, rfl, Nat.le_refl _⟩
  next => cases ht

end JobRadar
