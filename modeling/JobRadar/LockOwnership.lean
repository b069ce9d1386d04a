import JobRadar.IngestionThreads

namespace JobRadar

open Database Interleave

abbrev IngestionEvent (ι : Type) := Event ι Time IngestionStore (StartThread ⊕ Worker)

section History

variable {ι : Type}

/-- The run whose `start_run` sets the key of the source in this step. -/
def setterOf (e : IngestionEvent ι) (sourceId : Uuid) : Option Uuid :=
  match e.before.thread e.mover with
  | .inl t =>
    if t.phase = .locking ∧ t.sourceId = sourceId ∧ ¬e.before.store.LockHeld sourceId e.answer then
      some t.runId
    else none
  | .inr _ => none

/-- The worker that deletes the key of its source in this step. -/
def deleterOf (e : IngestionEvent ι) : Option Worker :=
  match e.before.thread e.mover with
  | .inl _ => none
  | .inr w =>
    match w.phase with
    | .unlocking => some w
    | _ => none

/-- The run whose `start_run` set the key last. -/
def lastSetter (sourceId : Uuid) : List (IngestionEvent ι) → Option Uuid
  | [] => none
  | e :: es => (setterOf e sourceId).or (lastSetter sourceId es)

/-- The run set the key less than 900 seconds ago, and no worker deleted it since. -/
def HoldsKey (sourceId runId : Uuid) (now : Time) : List (IngestionEvent ι) → Prop
  | [] => False
  | e :: es =>
    (setterOf e sourceId = some runId ∧ now < e.answer + IngestionStore.lockLife) ∨
      ((∀ w ∈ deleterOf e, w.sourceId ≠ sourceId) ∧ HoldsKey sourceId runId now es)

instance (sourceId runId : Uuid) (now : Time) :
    (es : List (IngestionEvent ι)) → Decidable (HoldsKey sourceId runId now es)
  | [] => inferInstanceAs (Decidable False)
  | _ :: es =>
    have : Decidable (HoldsKey sourceId runId now es) :=
      instDecidableHoldsKey sourceId runId now es
    inferInstanceAs (Decidable (_ ∨ _ ∧ _))

/-- A key that a worker deletes was set by the `start_run` of its own run. -/
def ReleasedByHolder (earlier : List (IngestionEvent ι)) (e : IngestionEvent ι) : Prop :=
  ∀ w ∈ deleterOf e, e.before.store.LockHeld w.sourceId e.answer →
    lastSetter w.sourceId earlier = some w.runId

/-- Whenever a worker deletes a key that is set, its run took the lock less than 900 seconds ago,
and no worker of the source has ended since. -/
def ReleasesWhatItTook (earlier : List (IngestionEvent ι)) (e : IngestionEvent ι) : Prop :=
  ∀ w ∈ deleterOf e, e.before.store.LockHeld w.sourceId e.answer →
    HoldsKey w.sourceId w.runId e.answer earlier

instance (earlier : List (IngestionEvent ι)) (e : IngestionEvent ι) :
    Decidable (ReleasedByHolder earlier e) :=
  inferInstanceAs (Decidable (∀ w ∈ deleterOf e, _))

instance (earlier : List (IngestionEvent ι)) (e : IngestionEvent ι) :
    Decidable (ReleasesWhatItTook earlier e) :=
  inferInstanceAs (Decidable (∀ w ∈ deleterOf e, _))

end History

section Steps

variable {ι : Type} {s s' : IngestionStore} {sourceId runId : Uuid} {now now' : Time}
  {es : List (IngestionEvent ι)}

theorem lockHeld_deleteLock {other : Uuid} :
    (s.deleteLock sourceId).LockHeld other now ↔ sourceId ≠ other ∧ s.LockHeld other now := by
  simp only [IngestionStore.LockHeld, IngestionStore.deleteLock, List.mem_filter,
    decide_eq_true_eq]
  constructor
  · rintro ⟨lock, ⟨hmem, hother⟩, rfl, hlive⟩
    exact ⟨Ne.symm hother, lock, hmem, rfl, hlive⟩
  · rintro ⟨hother, lock, hmem, rfl, hlive⟩
    exact ⟨lock, ⟨hmem, Ne.symm hother⟩, rfl, hlive⟩

theorem HoldsKey.earlier (h : HoldsKey sourceId runId now es) (hle : now' ≤ now) :
    HoldsKey sourceId runId now' es := by
  induction es with
  | nil => exact h
  | cons e es ih =>
    rcases h with ⟨hset, hlive⟩ | ⟨hkept, hrest⟩
    · exact Or.inl ⟨hset, Nat.lt_of_le_of_lt hle hlive⟩
    · exact Or.inr ⟨hkept, ih hrest⟩

theorem startStep_locks {t t' : StartThread} (hs : startStep now s t = some (s', t')) :
    (t.phase = .locking ∧ s.setLock t.sourceId now = some s') ∨
      (s'.locks = s.locks ∧ (t.phase = .locking → s.LockHeld t.sourceId now)) := by
  unfold startStep at hs
  cases hp : t.phase with
  | start =>
    simp only [hp] at hs
    split at hs
    next => cases hs; exact Or.inr ⟨rfl, by simp⟩
    next => split at hs <;> cases hs <;> exact Or.inr ⟨rfl, by simp⟩
  | found =>
    simp only [hp] at hs
    split at hs <;> cases hs <;> exact Or.inr ⟨rfl, by simp⟩
  | locking =>
    simp only [hp] at hs
    split at hs
    next hl => cases hs; exact Or.inr ⟨rfl, fun _ => IngestionStore.setLock_eq_none_iff.mp hl⟩
    next hl => cases hs; exact Or.inl ⟨rfl, hl⟩
  | inserting =>
    simp only [hp] at hs
    split at hs <;> cases hs <;> exact Or.inr ⟨rfl, by simp⟩
  | returned run alreadyRunning => simp [hp] at hs
  | raised error => simp [hp] at hs

theorem workerStep_locks {w w' : Worker} (hs : workerStep now s w = some (s', w')) :
    (w.phase = .unlocking ∧ s' = s.deleteLock w.sourceId) ∨
      (s'.locks = s.locks ∧ w.phase ≠ .unlocking) := by
  unfold workerStep at hs
  cases hp : w.phase with
  | collected =>
    simp only [hp] at hs
    split at hs <;> cases hs <;> exact Or.inr ⟨rfl, by simp⟩
  | loaded run report =>
    simp only [hp] at hs
    cases hs
    exact Or.inr ⟨rfl, by simp⟩
  | unlocking =>
    simp only [hp] at hs
    cases hs
    exact Or.inl ⟨rfl, rfl⟩
  | ended => simp [hp] at hs

theorem lockHeld_step {c : Pool ι IngestionStore (StartThread ⊕ Worker)} {i : ι} {a : Time}
    {r : IngestionStore × (StartThread ⊕ Worker)}
    (hs : ingestionStep a c.store (c.thread i) = some r) :
    r.1.LockHeld sourceId now ↔
      (∃ runId, setterOf ⟨c, i, a⟩ sourceId = some runId ∧ now < a + IngestionStore.lockLife) ∨
        ((∀ w ∈ deleterOf (⟨c, i, a⟩ : IngestionEvent ι), w.sourceId ≠ sourceId) ∧
          c.store.LockHeld sourceId now) := by
  rcases Atomic.either_cases hs with ⟨t, s', t', ht, rfl, hstep⟩ | ⟨w, s', w', hw, rfl, hstep⟩
  · have hnone : deleterOf (⟨c, i, a⟩ : IngestionEvent ι) = none := by
      simp only [deleterOf, ht]
    simp only [hnone, setterOf, ht]
    rcases startStep_locks hstep with ⟨hphase, hset⟩ | ⟨hlocks, htaken⟩
    · have hfree : ¬c.store.LockHeld t.sourceId a := by
        rw [← IngestionStore.setLock_eq_none_iff, hset]
        simp
      rw [IngestionStore.lockHeld_setLock hset]
      by_cases hsource : t.sourceId = sourceId
      · subst hsource
        simp [hphase, hfree]
      · simp [hsource]
    · have hsame : s'.LockHeld sourceId now ↔ c.store.LockHeld sourceId now := by
        simp only [IngestionStore.LockHeld, hlocks]
      have hnot : ¬(t.phase = .locking ∧ t.sourceId = sourceId ∧ ¬c.store.LockHeld sourceId a) := by
        rintro ⟨hphase, rfl, hfree⟩
        exact hfree (htaken hphase)
      simp [hsame, hnot]
  · have hnone : setterOf (⟨c, i, a⟩ : IngestionEvent ι) sourceId = none := by
      simp only [setterOf, hw]
    simp only [hnone, deleterOf, hw]
    rcases workerStep_locks hstep with ⟨hphase, rfl⟩ | ⟨hlocks, hphase⟩
    · rw [lockHeld_deleteLock]
      simp [hphase]
    · have hsame : s'.LockHeld sourceId now ↔ c.store.LockHeld sourceId now := by
        simp only [IngestionStore.LockHeld, hlocks]
      rw [hsame]
      split
      next hp => exact absurd hp hphase
      next => simp

end Steps

section Run

variable {ι : Type} [DecidableEq ι] {c₀ c : Pool ι IngestionStore (StartThread ⊕ Worker)}
  {es : List (IngestionEvent ι)} {sourceId runId : Uuid} {now : Time}

theorem lockHeld_iff (hfree : c₀.store.locks = []) (path : Path ingestionStep c₀ es c) :
    c.store.LockHeld sourceId now ↔ ∃ runId, HoldsKey sourceId runId now es := by
  induction path with
  | start => simp [IngestionStore.LockHeld, hfree, HoldsKey]
  | @step es c i a r path hs ih =>
    rw [Pool.set_store, lockHeld_step hs, ih]
    constructor
    · rintro (⟨runId, hset, hlive⟩ | ⟨hkept, runId, hholds⟩)
      · exact ⟨runId, Or.inl ⟨hset, hlive⟩⟩
      · exact ⟨runId, Or.inr ⟨hkept, hholds⟩⟩
    · rintro ⟨runId, ⟨hset, hlive⟩ | ⟨hkept, hholds⟩⟩
      · exact Or.inl ⟨runId, hset, hlive⟩
      · exact Or.inr ⟨hkept, runId, hholds⟩

/-- The clocks of the processes and of Redis agree. -/
def Clocked (es : List (IngestionEvent ι)) : Prop :=
  es.Pairwise fun later earlier => earlier.answer ≤ later.answer

instance (es : List (IngestionEvent ι)) : Decidable (Clocked es) :=
  inferInstanceAs (Decidable (es.Pairwise _))

theorem lastSetter_of_holds (hfree : c₀.store.locks = []) (path : Path ingestionStep c₀ es c)
    (hclock : Clocked es) (hnow : ∀ e ∈ es, e.answer ≤ now)
    (hholds : HoldsKey sourceId runId now es) : lastSetter sourceId es = some runId := by
  induction path with
  | start => exact absurd hholds id
  | @step es c i a r path _ ih =>
    obtain ⟨hle, hearlier⟩ := List.pairwise_cons.mp hclock
    rcases hholds with ⟨hset, _⟩ | ⟨_, hholds⟩
    · simp [lastSetter, hset]
    · have hthen : HoldsKey sourceId runId a es := hholds.earlier (hnow _ (List.mem_cons_self ..))
      have hlocked : c.store.LockHeld sourceId a := (lockHeld_iff hfree path).mpr ⟨runId, hthen⟩
      have hnone : setterOf (⟨c, i, a⟩ : IngestionEvent ι) sourceId = none := by
        unfold setterOf
        split
        next => exact if_neg fun h => h.2.2 hlocked
        next => rfl
      rw [lastSetter, hnone, Option.none_or]
      exact ih hearlier (fun e he => hnow e (List.mem_cons_of_mem _ he)) hholds

/-- In every run the workers delete only keys that were set for their own runs, exactly when each
that finds the key set has taken it in time and is the first to give it back. -/
theorem released_by_holder_iff (hfree : c₀.store.locks = []) (path : Path ingestionStep c₀ es c)
    (hclock : Clocked es) : Throughout ReleasedByHolder es ↔ Throughout ReleasesWhatItTook es := by
  refine Path.throughout_iff (fun e es h => (List.pairwise_cons.mp h).2) ?_ path hclock
  intro es c i a path hclock
  obtain ⟨hle, hearlier⟩ := List.pairwise_cons.mp hclock
  constructor
  · intro hreleased w hw hlocked
    obtain ⟨runId, hholds⟩ := (lockHeld_iff hfree path).mp hlocked
    have hlast := lastSetter_of_holds hfree path hearlier hle hholds
    rw [hreleased w hw hlocked] at hlast
    cases hlast
    exact hholds
  · intro htook w hw hlocked
    exact lastSetter_of_holds hfree path hearlier hle (htook w hw hlocked)

end Run

/-- One source, a scheduler tick that starts run 50 (0), a request to the API that starts run 51
(1), and the workers of these runs (2, 3). -/
def annWorkers : Pool Nat IngestionStore (StartThread ⊕ Worker) where
  store := { db := ⟨⟨[⟨1, 7, "lever", Python.text "Globex", []⟩], by decide⟩, .empty⟩ }
  thread n :=
    if n = 0 then .inl ⟨buildIngestionService true, 1, some 7, 50, .start⟩
    else if n = 1 then .inl ⟨getIngestionService, 1, some 7, 51, .start⟩
    else if n = 2 then .inr ⟨50, 1, some ⟨.succeeded, 0, 0, .empty, 0, 0, 0,
      RunStatus.succeeded_ended⟩, .collected⟩
    else .inr ⟨51, 1, some ⟨.succeeded, 0, 0, .empty, 0, 0, 0, RunStatus.succeeded_ended⟩,
      .collected⟩

/-- The run of the API has finished, but its worker has not unlocked yet, when the scheduler starts
the next one. -/
def startedBeforeUnlock : List (Nat × Time) :=
  [(1, 1), (1, 1), (1, 1), (3, 5), (3, 6), (0, 7), (0, 7), (0, 7), (0, 7), (3, 8)]

theorem key_of_another_run_deleted : ∃ es c, Path ingestionStep annWorkers es c ∧ Clocked es ∧
    ¬Throughout ReleasedByHolder es := by
  obtain ⟨es, c, hrun, hclock, hnot⟩ : ∃ es c,
      exec ingestionStep [] annWorkers startedBeforeUnlock = some (es, c) ∧ Clocked es ∧
      ¬Throughout ReleasedByHolder es :=
    ⟨_, _, rfl, by decide, by decide⟩
  exact ⟨es, c, exec_path .start startedBeforeUnlock hrun, hclock, hnot⟩

def scheduledRun : List (Nat × Time) :=
  [(0, 1), (0, 1), (0, 1), (0, 1), (2, 5), (2, 6), (2, 7)]

theorem scheduledRun_releases : ∃ es c, Path ingestionStep annWorkers es c ∧
    c.store.locks = [] ∧ Throughout ReleasedByHolder es := by
  obtain ⟨es, c, hrun, hlocks, hclock, htook⟩ : ∃ es c,
      exec ingestionStep [] annWorkers scheduledRun = some (es, c) ∧ c.store.locks = [] ∧
      Clocked es ∧ Throughout ReleasesWhatItTook es :=
    ⟨_, _, rfl, by decide, by decide, by decide⟩
  have path := exec_path .start scheduledRun hrun
  exact ⟨es, c, path, hlocks, (released_by_holder_iff rfl path hclock).mpr htook⟩

end JobRadar
