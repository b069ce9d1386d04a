import JobRadar.Scheduling

namespace JobRadar

open Database Python Sequence

namespace IngestionStore

def RunActive (s : IngestionStore) (sourceId : Uuid) : Prop :=
  ∃ run ∈ s.db.runs, run.Active sourceId

/-- The two stores agree on a source and its runs, and rows are only added. -/
structure SameFor (sourceId : Uuid) (now : Time) (s s' : IngestionStore) : Prop where
  sources : s'.db.sources = s.db.sources
  runs : ∀ run, run.sourceId = sourceId → (run ∈ s'.db.runs ↔ run ∈ s.db.runs)
  grows : ∀ run ∈ s.db.runs, run ∈ s'.db.runs
  locks : s'.LockHeld sourceId now ↔ s.LockHeld sourceId now

variable {s mid s' : IngestionStore} {sourceId : Uuid} {now : Time}

theorem SameFor.refl (sourceId : Uuid) (now : Time) (s : IngestionStore) :
    SameFor sourceId now s s :=
  ⟨rfl, fun _ _ => Iff.rfl, fun _ h => h, Iff.rfl⟩

theorem SameFor.trans (h : SameFor sourceId now s mid) (h' : SameFor sourceId now mid s') :
    SameFor sourceId now s s' where
  sources := h'.sources.trans h.sources
  runs run hrun := (h'.runs run hrun).trans (h.runs run hrun)
  grows run hrun := h'.grows run (h.grows run hrun)
  locks := h'.locks.trans h.locks

theorem SameFor.active_iff (h : SameFor sourceId now s s') :
    s'.RunActive sourceId ↔ s.RunActive sourceId := by
  constructor
  · rintro ⟨run, hrun, hactive⟩
    exact ⟨run, (h.runs run hactive.1).mp hrun, hactive⟩
  · rintro ⟨run, hrun, hactive⟩
    exact ⟨run, (h.runs run hactive.1).mpr hrun, hactive⟩

end IngestionStore

section Start

open IngestionStore

variable {s : IngestionStore} {source : Source} {now : Time}

/-- A run may start: there is an adapter, and neither a run under way nor a lock. -/
structure Startable (s : IngestionStore) (source : Source) (now : Time) : Prop where
  adapter : source.kind ∈ (buildIngestionService true).adapters
  idle : ¬s.RunActive source.id
  free : ¬s.LockHeld source.id now

theorem IngestionStore.SameFor.startable_iff {s' : IngestionStore}
    (h : SameFor source.id now s s') :
    Startable s' source now ↔ Startable s source now := by
  constructor
  · rintro ⟨hadapter, hidle, hfree⟩
    exact ⟨hadapter, fun h' => hidle (h.active_iff.mpr h'), fun h' => hfree (h.locks.mpr h')⟩
  · rintro ⟨hadapter, hidle, hfree⟩
    exact ⟨hadapter, fun h' => hidle (h.active_iff.mp h'), fun h' => hfree (h.locks.mp h')⟩

/-- A scheduled start inserts a run and sets the lock, or leaves the store as it was. -/
theorem startRun_cases (now : Time) (hsource : source ∈ s.db.sources) :
    (¬Startable s source now ∧ ∃ result,
      startRun (buildIngestionService true) s source.id (some source.userId)
          s.db.runs.freshKey now =
        (s, result) ∧ result ≠ .error .dataConflict ∧ ∀ run, result ≠ .ok (run, false)) ∨
    (Startable s source now ∧ ∃ runs,
      s.db.runs.insert { id := s.db.runs.freshKey, sourceId := source.id, startedAt := now } =
        some runs ∧
      startRun (buildIngestionService true) s source.id (some source.userId)
          s.db.runs.freshKey now =
        ({ db := { s.db with runs := runs }, locks := (source.id, now + lockLife) :: s.locks },
          .ok ({ id := s.db.runs.freshKey, sourceId := source.id, startedAt := now }, false))) := by
  have hfind : s.db.getForUser source.id source.userId = some source := by
    have hrow : s.db.get source.id = some source := Table.find_of_mem hsource
    rw [IngestionDb.getForUser, hrow, Option.filter_some, if_pos (by simp)]
  unfold startRun
  simp only [IngestionDb.requested, hfind]
  by_cases hkind : source.kind ∈ (buildIngestionService true).adapters
  · simp only [hkind, not_true_eq_false, if_false]
    cases hactive : s.db.getActiveRun source.id with
    | some run =>
      refine Or.inl ⟨?_, _, rfl, by simp, by simp⟩
      intro hstart
      obtain ⟨hrun, hrunning⟩ := IngestionDb.getActiveRun_active hactive
      exact hstart.idle ⟨run, hrun, hrunning⟩
    | none =>
      have hidle : ¬s.RunActive source.id := by
        rintro ⟨run, hrun, hrunning⟩
        exact IngestionDb.getActiveRun_eq_none_iff.mp hactive run hrun hrunning
      cases hlock : s.setLock source.id now with
      | none =>
        refine Or.inl ⟨?_, .error .ingestionAlreadyRunning, rfl, by simp, by simp⟩
        intro hstart
        exact hstart.free (setLock_eq_none_iff.mp hlock)
      | some locked =>
        have hfree : ¬s.LockHeld source.id now := by
          rw [← setLock_eq_none_iff, hlock]
          simp
        obtain rfl : locked = { s with locks := (source.id, now + lockLife) :: s.locks } := by
          unfold setLock at hlock
          split at hlock
          next => cases hlock
          next => cases hlock; rfl
        have hfresh : ∀ old ∈ s.db.runs, old.id ≠
            (IngestionRun.mk s.db.runs.freshKey source.id .running now none 0 0 0 0 0 0 .empty).id :=
          fun old hold => Table.key_ne_freshKey hold
        obtain ⟨runs, hinsert⟩ := Table.insert_isSome_of_fresh hfresh
        refine Or.inr ⟨⟨hkind, hidle, hfree⟩, runs, hinsert, ?_⟩
        simp only [buildIngestionService, if_true, IngestionStore.insertRun, IngestionDb.createRun,
          hinsert]
  · simp only [hkind, not_false_eq_true, if_true]
    exact Or.inl ⟨fun hstart => hkind hstart.adapter, _, rfl, by simp, by simp⟩

theorem startRun_grows (hsource : source ∈ s.db.sources) :
    let s' := (startRun (buildIngestionService true) s source.id (some source.userId)
      s.db.runs.freshKey now).1
    s'.db.sources = s.db.sources ∧ ∀ run ∈ s.db.runs, run ∈ s'.db.runs := by
  rcases startRun_cases now hsource with ⟨_, result, hstart, _⟩ | ⟨_, runs, hinsert, hstart⟩
  · rw [hstart]
    exact ⟨rfl, fun run hrun => hrun⟩
  · rw [hstart]
    exact ⟨rfl, fun run hrun => (Table.mem_of_insert hinsert).mpr (Or.inl hrun)⟩

theorem startRun_sameFor {sourceId : Uuid} (hsource : source ∈ s.db.sources)
    (hother : source.id ≠ sourceId) :
    SameFor sourceId now s (startRun (buildIngestionService true) s source.id
      (some source.userId) s.db.runs.freshKey now).1 := by
  rcases startRun_cases now hsource with ⟨_, result, hstart, _⟩ | ⟨_, runs, hinsert, hstart⟩
  · rw [hstart]
    exact .refl sourceId now s
  · rw [hstart]
    refine ⟨rfl, ?_, ?_, ?_⟩
    · intro run hrun
      rw [Table.mem_of_insert hinsert]
      refine ⟨?_, Or.inl⟩
      rintro (hold | rfl)
      · exact hold
      · exact absurd hrun hother
    · exact fun run hrun => (Table.mem_of_insert hinsert).mpr (Or.inl hrun)
    · constructor
      · rintro ⟨lock, hmem, hid, hlive⟩
        rcases List.mem_cons.mp hmem with rfl | hold
        · exact absurd hid hother
        · exact ⟨lock, hold, hid, hlive⟩
      · rintro ⟨lock, hmem, hlock⟩
        exact ⟨lock, List.mem_cons_of_mem _ hmem, hlock⟩

end Start

section NewRuns

open IngestionStore

variable {now : Time}

/-- Runs that are inserted for the source, where rows are only added. -/
def NewRun (sourceId : Uuid) (s s' : IngestionStore) : Prop :=
  ∃ run ∈ s'.db.runs, run.sourceId = sourceId ∧ ∀ old ∈ s.db.runs, old.id ≠ run.id

theorem IngestionStore.SameFor.no_newRun {sourceId : Uuid} {s s' : IngestionStore}
    (h : SameFor sourceId now s s') : ¬NewRun sourceId s s' := by
  rintro ⟨run, hrun, hid, hnew⟩
  exact hnew run ((h.runs run hid).mp hrun) rfl

theorem IngestionStore.SameFor.fresh_iff {sourceId : Uuid} {s mid s' : IngestionStore}
    {run : IngestionRun} (h : SameFor sourceId now s mid)
    (hgrows : ∀ run ∈ mid.db.runs, run ∈ s'.db.runs) (hrun : run ∈ s'.db.runs)
    (hid : run.sourceId = sourceId) :
    (∀ old ∈ s.db.runs, old.id ≠ run.id) ↔ ∀ old ∈ mid.db.runs, old.id ≠ run.id := by
  constructor
  · intro hnew old hold hsame
    obtain rfl : old = run := Table.eq_of_key_eq (hgrows old hold) hrun hsame
    exact hnew old ((h.runs old hid).mp hold) rfl
  · exact fun hnew old hold => hnew old (h.grows old hold)

theorem IngestionStore.SameFor.newRun_iff {sourceId : Uuid} {s mid s' : IngestionStore}
    (h : SameFor sourceId now s mid) (hgrows : ∀ run ∈ mid.db.runs, run ∈ s'.db.runs) :
    NewRun sourceId s s' ↔ NewRun sourceId mid s' := by
  constructor
  · rintro ⟨run, hrun, hid, hnew⟩
    exact ⟨run, hrun, hid, (h.fresh_iff hgrows hrun hid).mp hnew⟩
  · rintro ⟨run, hrun, hid, hnew⟩
    exact ⟨run, hrun, hid, (h.fresh_iff hgrows hrun hid).mpr hnew⟩

end NewRuns

section Turns

open IngestionStore

variable {u : Decimals} {faults : Uuid → TurnFaults} {now : Time} {source : Source}
  {d d' : Deployment}

theorem startRunWith_cases (f : TurnFaults) (s : IngestionStore) (sourceId : Uuid)
    (userId : Option Uuid) (runId : Uuid) (now : Time) :
    let service := buildIngestionService true
    (∃ e, startRunWith f service s sourceId userId runId now = (s, .error e)) ∨
    (∃ locked e, s.setLock sourceId now = some locked ∧
      startRunWith f service s sourceId userId runId now = (locked, .error e)) ∨
    startRunWith f service s sourceId userId runId now =
      ((startRun service s sourceId userId runId now).1,
        (startRun service s sourceId userId runId now).2.mapError .domain) := by
  dsimp only
  unfold startRunWith startRun
  cases f.getForUser with
  | some e => exact Or.inl ⟨e, rfl⟩
  | none =>
    cases s.db.requested sourceId userId with
    | none => exact Or.inl ⟨_, rfl⟩
    | some source =>
      dsimp only
      split
      next => exact Or.inl ⟨_, rfl⟩
      next =>
        cases f.getActiveRun with
        | some e => exact Or.inl ⟨e, rfl⟩
        | none =>
          cases s.db.getActiveRun sourceId with
          | some run => exact Or.inr (Or.inr rfl)
          | none =>
            simp only [buildIngestionService, if_true]
            cases f.setLock with
            | some e => exact Or.inl ⟨e, rfl⟩
            | none =>
              cases hlock : s.setLock sourceId now with
              | none => exact Or.inl ⟨_, rfl⟩
              | some locked =>
                unfold insertRunWith
                cases f.createRun with
                | some e => exact Or.inr (Or.inl ⟨locked, e, rfl, rfl⟩)
                | none =>
                  dsimp only
                  split
                  next h => exact Or.inr (Or.inr (by rw [h]; rfl))
                  next h => exact Or.inr (Or.inr (by rw [h]; rfl))

theorem setLock_sameFor {s locked : IngestionStore} {sourceId other : Uuid}
    (h : s.setLock sourceId now = some locked) (hother : sourceId ≠ other) :
    SameFor other now s locked := by
  have hdb := setLock_db h
  refine ⟨by rw [hdb], fun run _ => by rw [hdb], fun run hrun => by rwa [hdb], ?_⟩
  rw [lockHeld_setLock h]
  simp [hother]

theorem startSource_sameFor {sourceId : Uuid} (hsource : source ∈ d.store.ingestion.db.sources)
    (hother : source.id ≠ sourceId) :
    SameFor sourceId now d.store.ingestion (d.startSource faults now source).1 := by
  unfold Deployment.startSource
  rcases startRunWith_cases (faults source.id) d.store.ingestion source.id (some source.userId)
    d.store.ingestion.db.runs.freshKey now with ⟨e, h⟩ | ⟨locked, e, hlock, h⟩ | h
  all_goals rw [h]
  · exact .refl sourceId now _
  · exact setLock_sameFor hlock hother
  · exact startRun_sameFor hsource hother

theorem startSource_grows (hsource : source ∈ d.store.ingestion.db.sources) :
    (d.startSource faults now source).1.db.sources = d.store.ingestion.db.sources ∧
      ∀ run ∈ d.store.ingestion.db.runs, run ∈ (d.startSource faults now source).1.db.runs := by
  unfold Deployment.startSource
  rcases startRunWith_cases (faults source.id) d.store.ingestion source.id (some source.userId)
    d.store.ingestion.db.runs.freshKey now with ⟨e, h⟩ | ⟨locked, e, hlock, h⟩ | h
  all_goals rw [h]
  · exact ⟨rfl, fun run hrun => hrun⟩
  · rw [setLock_db hlock]
    exact ⟨rfl, fun run hrun => hrun⟩
  · exact startRun_grows hsource

/-- What a turn does apart from the store: it may publish a message of its source. -/
theorem turn_effect (u : Decimals) (faults : Uuid → TurnFaults) (now : Time) (source : Source)
    (d : Deployment) : (d.turn u faults now source).1.schedules = d.schedules ∧
      ((d.turn u faults now source).1.store.ingestion = d.store.ingestion ∨
        (d.turn u faults now source).1.store.ingestion = (d.startSource faults now source).1) ∧
      ((d.turn u faults now source).1.published = d.published ∨ ∃ runId,
        (d.turn u faults now source).1.published = ⟨source.id, runId⟩ :: d.published) := by
  unfold Deployment.turn
  split
  next => exact ⟨rfl, Or.inl rfl, Or.inl rfl⟩
  next => exact ⟨rfl, Or.inl rfl, Or.inl rfl⟩
  next =>
    split
    next h => exact ⟨rfl, Or.inr (by rw [h]; rfl), Or.inl rfl⟩
    next h => exact ⟨rfl, Or.inr (by rw [h]; rfl), Or.inl rfl⟩
    next run h =>
      split
      next => exact ⟨rfl, Or.inr (by rw [h]; rfl), Or.inl rfl⟩
      next => exact ⟨rfl, Or.inr (by rw [h]; rfl), Or.inr ⟨run.id, rfl⟩⟩

/-- The later deployment has all runs and messages of the earlier one, and the same sources. -/
structure Continues (d d' : Deployment) : Prop where
  schedules : d'.schedules = d.schedules
  sources : d'.store.ingestion.db.sources = d.store.ingestion.db.sources
  runs : ∀ run ∈ d.store.ingestion.db.runs, run ∈ d'.store.ingestion.db.runs
  published : ∀ message ∈ d.published, message ∈ d'.published

theorem Continues.refl (d : Deployment) : Continues d d :=
  ⟨rfl, rfl, fun _ hrun => hrun, fun _ hm => hm⟩

theorem Continues.trans {mid : Deployment} (h : Continues d mid) (h' : Continues mid d') :
    Continues d d' where
  schedules := h'.schedules.trans h.schedules
  sources := h'.sources.trans h.sources
  runs run hrun := h'.runs run (h.runs run hrun)
  published message hm := h'.published message (h.published message hm)

theorem turn_continues (hsource : source ∈ d.store.ingestion.db.sources) :
    Continues d (d.turn u faults now source).1 := by
  obtain ⟨hschedules, hstore, hpublished⟩ := turn_effect u faults now source d
  have hkept : (d.turn u faults now source).1.store.ingestion.db.sources =
      d.store.ingestion.db.sources ∧ ∀ run ∈ d.store.ingestion.db.runs,
        run ∈ (d.turn u faults now source).1.store.ingestion.db.runs := by
    rcases hstore with h | h
    · rw [h]
      exact ⟨rfl, fun run hrun => hrun⟩
    · rw [h]
      exact startSource_grows hsource
  refine ⟨hschedules, hkept.1, hkept.2, ?_⟩
  intro message hm
  rcases hpublished with h | ⟨runId, h⟩
  · rwa [h]
  · rw [h]
    exact List.mem_cons_of_mem _ hm

theorem turn_sameFor {sourceId : Uuid} (hsource : source ∈ d.store.ingestion.db.sources)
    (hother : source.id ≠ sourceId) :
    SameFor sourceId now d.store.ingestion (d.turn u faults now source).1.store.ingestion := by
  rcases (turn_effect u faults now source d).2.1 with h | h
  · rw [h]
    exact .refl sourceId now _
  · rw [h]
    exact startSource_sameFor hsource hother

theorem scheduleSources_continues {sources : List Source}
    (hsources : ∀ source ∈ sources, source ∈ d.store.ingestion.db.sources) :
    Continues d (d.scheduleSources u faults now sources).1 := by
  induction sources generalizing d with
  | nil => exact .refl d
  | cons source sources ih =>
    have hturn : Continues d (d.turn u faults now source).1 :=
      turn_continues (hsources source (List.mem_cons_self ..))
    rw [Deployment.scheduleSources]
    split
    next mid e h => rwa [h] at hturn
    next mid scheduled h =>
      rw [h] at hturn
      refine hturn.trans (ih ?_)
      intro other hmem
      rw [hturn.sources]
      exact hsources other (List.mem_cons_of_mem _ hmem)

/-- The answer of `start_run`, from what it finds. -/
def startOutcome (f : TurnFaults) (adapter active held : Bool) : Except TickError Bool :=
  match f.getForUser, adapter, f.getActiveRun, active, f.setLock, held, f.createRun with
  | some e, _, _, _, _, _, _ => .error e
  | none, false, _, _, _, _, _ => .error (.domain .unsupportedSourceKind)
  | none, true, some e, _, _, _, _ => .error e
  | none, true, none, true, _, _, _ => .ok true
  | none, true, none, false, some e, _, _ => .error e
  | none, true, none, false, none, true, _ => .error (.domain .ingestionAlreadyRunning)
  | none, true, none, false, none, false, some e => .error e
  | none, true, none, false, none, false, none => .ok false

theorem startAnswer_eq (hsource : source ∈ d.store.ingestion.db.sources) :
    d.startAnswer faults now source = startOutcome (faults source.id)
      (decide (source.kind ∈ (buildIngestionService true).adapters))
      (d.store.ingestion.db.getActiveRun source.id).isSome
      (d.store.ingestion.setLock source.id now).isNone := by
  have hfind : d.store.ingestion.db.getForUser source.id source.userId = some source := by
    have hrow : d.store.ingestion.db.get source.id = some source := Table.find_of_mem hsource
    rw [IngestionDb.getForUser, hrow, Option.filter_some, if_pos (by simp)]
  unfold Deployment.startAnswer Deployment.startSource startRunWith startOutcome
  simp only [IngestionDb.requested, hfind]
  cases (faults source.id).getForUser with
  | some e => rfl
  | none =>
    by_cases hkind : source.kind ∈ (buildIngestionService true).adapters
    · simp only [hkind, not_true_eq_false, if_false, decide_true]
      cases (faults source.id).getActiveRun with
      | some e => rfl
      | none =>
        cases d.store.ingestion.db.getActiveRun source.id with
        | some run => rfl
        | none =>
          simp only [buildIngestionService, if_true]
          cases (faults source.id).setLock with
          | some e => rfl
          | none =>
            cases hlock : d.store.ingestion.setLock source.id now with
            | none => rfl
            | some locked =>
              unfold insertRunWith
              cases (faults source.id).createRun with
              | some e => rfl
              | none =>
                have hfresh : ∀ old ∈ locked.db.runs, old.id ≠ (IngestionRun.mk
                    d.store.ingestion.db.runs.freshKey source.id .running now none 0 0 0 0 0 0
                      .empty).id := by
                  rw [setLock_db hlock]
                  exact fun old hold => Table.key_ne_freshKey hold
                obtain ⟨runs, hinsert⟩ := Table.insert_isSome_of_fresh hfresh
                simp only [IngestionStore.insertRun, IngestionDb.createRun, hinsert]
                rfl
    · simp only [hkind, not_false_eq_true, if_true, decide_false]
      rfl

theorem startAnswer_sameFor (hsource : source ∈ d.store.ingestion.db.sources)
    (h : SameFor source.id now d.store.ingestion d'.store.ingestion) :
    d'.startAnswer faults now source = d.startAnswer faults now source := by
  have hactive : (d'.store.ingestion.db.getActiveRun source.id).isSome =
      (d.store.ingestion.db.getActiveRun source.id).isSome := by
    have hnone : d'.store.ingestion.db.getActiveRun source.id = none ↔
        d.store.ingestion.db.getActiveRun source.id = none := by
      rw [IngestionDb.getActiveRun_eq_none_iff, IngestionDb.getActiveRun_eq_none_iff]
      have hiff := h.active_iff
      simp only [RunActive] at hiff
      grind
    rw [Bool.eq_iff_iff, Option.isSome_iff_ne_none, Option.isSome_iff_ne_none]
    exact not_congr hnone
  have hheld : (d'.store.ingestion.setLock source.id now).isNone =
      (d.store.ingestion.setLock source.id now).isNone := by
    rw [Bool.eq_iff_iff, Option.isNone_iff_eq_none, Option.isNone_iff_eq_none,
      setLock_eq_none_iff, setLock_eq_none_iff]
    exact h.locks
  rw [startAnswer_eq (by rwa [h.sources]), startAnswer_eq hsource, hactive, hheld]

theorem aborts_sameFor (hsource : source ∈ d.store.ingestion.db.sources)
    (hschedules : d'.schedules = d.schedules)
    (h : SameFor source.id now d.store.ingestion d'.store.ingestion) :
    Aborts u faults now d' source ↔ Aborts u faults now d source := by
  simp only [Aborts, hschedules, startAnswer_sameFor hsource h]

theorem isDue_cases (u : Decimals) (schedule : SourceSchedule) (now : Time) :
    isDue u schedule now = .error .overflow ∨ ∃ due, isDue u schedule now = .ok due := by
  unfold isDue
  split
  next => exact Or.inr ⟨_, rfl⟩
  next =>
    split
    next =>
      split
      next => exact Or.inr ⟨_, rfl⟩
      next =>
        split
        next => exact Or.inl rfl
        next => exact Or.inr ⟨_, rfl⟩
    next => exact Or.inr ⟨_, rfl⟩

/-- An exception leaves the body of the loop exactly where the turn aborts. -/
theorem turn_raises_iff :
    (∃ e, (d.turn u faults now source).2 = .error e) ↔ Aborts u faults now d source := by
  unfold Deployment.turn Aborts Deployment.startAnswer
  rcases isDue_cases u (d.schedules source.id) now with hraise | ⟨due, hdue⟩
  · simp [hraise]
  · rw [hdue]
    cases due with
    | false => simp
    | true =>
      dsimp only
      split
      next e h =>
        rw [h]
        cases hhandled : e.handled <;> simp [Except.map, hhandled]
      next h => simp [h, Except.map]
      next h =>
        split
        next e hdelay => simp [h, hdelay, Except.map]
        next hdelay => simp [h, hdelay, Except.map]

/-- Nothing fails for the source before its run is inserted. -/
structure TurnFaults.LetsStart (f : TurnFaults) : Prop where
  getForUser : f.getForUser = none
  getActiveRun : f.getActiveRun = none
  setLock : f.setLock = none
  createRun : f.createRun = none

theorem startOutcome_started_iff {f : TurnFaults} {adapter active held : Bool} :
    startOutcome f adapter active held = .ok false ↔
      f.LetsStart ∧ adapter = true ∧ active = false ∧ held = false := by
  constructor
  · intro h
    unfold startOutcome at h
    split at h <;> cases h
    exact ⟨⟨by assumption, by assumption, by assumption, by assumption⟩, rfl, rfl, rfl⟩
  · rintro ⟨⟨hget, hactive, hlock, hcreate⟩, rfl, rfl, rfl⟩
    simp only [startOutcome, hget, hactive, hlock, hcreate]

theorem startAnswer_started_iff (hsource : source ∈ d.store.ingestion.db.sources) :
    d.startAnswer faults now source = .ok false ↔
      (faults source.id).LetsStart ∧ Startable d.store.ingestion source now := by
  have hidle : (d.store.ingestion.db.getActiveRun source.id).isSome = false ↔
      ¬d.store.ingestion.RunActive source.id := by
    rw [Option.isSome_eq_false_iff, Option.isNone_iff_eq_none, IngestionDb.getActiveRun_eq_none_iff,
      RunActive]
    exact ⟨fun h ⟨run, hrun, hactive⟩ => h run hrun hactive,
      fun h run hrun hactive => h ⟨run, hrun, hactive⟩⟩
  have hfree : (d.store.ingestion.setLock source.id now).isNone = false ↔
      ¬d.store.ingestion.LockHeld source.id now := by
    rw [← setLock_eq_none_iff, Bool.eq_false_iff, Ne, Option.isNone_iff_eq_none]
  rw [startAnswer_eq hsource, startOutcome_started_iff, decide_eq_true_iff, hidle, hfree]
  exact and_congr_right fun _ =>
    ⟨fun ⟨hadapter, hidle, hfree⟩ => ⟨hadapter, hidle, hfree⟩,
      fun ⟨hadapter, hidle, hfree⟩ => ⟨hadapter, hidle, hfree⟩⟩

theorem startSource_started (hsource : source ∈ d.store.ingestion.db.sources)
    (hlets : (faults source.id).LetsStart) (hstart : Startable d.store.ingestion source now) :
    ∃ runs, d.store.ingestion.db.runs.insert
        { id := d.store.ingestion.db.runs.freshKey, sourceId := source.id, startedAt := now } =
          some runs ∧
      d.startSource faults now source =
        ({ db := { d.store.ingestion.db with runs := runs },
           locks := (source.id, now + lockLife) :: d.store.ingestion.locks },
          .ok ({ id := d.store.ingestion.db.runs.freshKey, sourceId := source.id,
                 startedAt := now }, false)) := by
  rcases startRun_cases now hsource with ⟨hnot, _⟩ | ⟨_, runs, hinsert, hstarted⟩
  · exact absurd hstart hnot
  · have hanswer : d.startAnswer faults now source = .ok false :=
      (startAnswer_started_iff hsource).mpr ⟨hlets, hstart⟩
    refine ⟨runs, hinsert, ?_⟩
    unfold Deployment.startAnswer Deployment.startSource at hanswer
    unfold Deployment.startSource
    rcases startRunWith_cases (faults source.id) d.store.ingestion source.id
      (some source.userId) d.store.ingestion.db.runs.freshKey now with
      ⟨e, hw⟩ | ⟨locked, e, _, hw⟩ | hw
    · rw [hw] at hanswer
      cases hanswer
    · rw [hw] at hanswer
      cases hanswer
    · rw [hw, hstarted]
      rfl

/-- A start inserts a run exactly when nothing fails before that and the run may start. -/
theorem startSource_newRun_iff (hsource : source ∈ d.store.ingestion.db.sources) :
    NewRun source.id d.store.ingestion (d.startSource faults now source).1 ↔
      (faults source.id).LetsStart ∧ Startable d.store.ingestion source now := by
  have hkept : ∀ s' : IngestionStore, s'.db = d.store.ingestion.db →
      ¬NewRun source.id d.store.ingestion s' := by
    rintro s' hdb ⟨run, hrun, _, hnew⟩
    rw [hdb] at hrun
    exact hnew run hrun rfl
  constructor
  · intro hnew
    rw [← startAnswer_started_iff hsource]
    unfold Deployment.startAnswer
    unfold Deployment.startSource at hnew ⊢
    rcases startRunWith_cases (faults source.id) d.store.ingestion source.id
      (some source.userId) d.store.ingestion.db.runs.freshKey now with
      ⟨e, hw⟩ | ⟨locked, e, hlock, hw⟩ | hw
    all_goals rw [hw] at hnew ⊢
    · exact absurd hnew (hkept _ rfl)
    · exact absurd hnew (hkept _ (setLock_db hlock))
    · rcases startRun_cases now hsource with ⟨_, result, hstart, _⟩ | ⟨_, runs, _, hstart⟩
      · rw [hstart] at hnew
        exact absurd hnew (hkept _ rfl)
      · rw [hstart]
        rfl
  · rintro ⟨hlets, hstart⟩
    obtain ⟨runs, hinsert, hstarted⟩ := startSource_started hsource hlets hstart
    rw [hstarted]
    exact ⟨_, (Table.mem_of_insert hinsert).mpr (Or.inr rfl), rfl,
      fun old hold => Table.key_ne_freshKey hold⟩

theorem turn_store (hdue : isDue u (d.schedules source.id) now = .ok true) :
    (d.turn u faults now source).1.store.ingestion = (d.startSource faults now source).1 := by
  unfold Deployment.turn
  rw [hdue]
  dsimp only
  split
  next h => rw [h]; rfl
  next h => rw [h]; rfl
  next h =>
    split
    next => rw [h]; rfl
    next => rw [h]; rfl

theorem turn_newRun_iff (hsource : source ∈ d.store.ingestion.db.sources) :
    NewRun source.id d.store.ingestion (d.turn u faults now source).1.store.ingestion ↔
      isDue u (d.schedules source.id) now = .ok true ∧ (faults source.id).LetsStart ∧
        Startable d.store.ingestion source now := by
  by_cases hdue : isDue u (d.schedules source.id) now = .ok true
  · rw [turn_store hdue, startSource_newRun_iff hsource]
    simp only [hdue, true_and]
  · have hkept : (d.turn u faults now source).1 = d := by
      rcases isDue_cases u (d.schedules source.id) now with hraise | ⟨due, hok⟩
      · rw [Deployment.turn, hraise]
      · cases due with
        | true => exact absurd hok hdue
        | false => rw [Deployment.turn, hok]
    rw [hkept]
    exact iff_of_false (SameFor.refl source.id now _).no_newRun fun h => hdue h.1

theorem scheduleSources_sameFor {sourceId : Uuid} {sources : List Source}
    (hother : ∀ source ∈ sources, source.id ≠ sourceId)
    (hsources : ∀ source ∈ sources, source ∈ d.store.ingestion.db.sources) :
    SameFor sourceId now d.store.ingestion
      (d.scheduleSources u faults now sources).1.store.ingestion := by
  induction sources generalizing d with
  | nil => exact .refl sourceId now _
  | cons source sources ih =>
    have hmem := hsources source (List.mem_cons_self ..)
    have hturn : SameFor sourceId now d.store.ingestion
        (d.turn u faults now source).1.store.ingestion :=
      turn_sameFor hmem (hother source (List.mem_cons_self ..))
    rw [Deployment.scheduleSources]
    split
    next mid e h => rwa [h] at hturn
    next mid scheduled h =>
      rw [h] at hturn
      refine hturn.trans (ih (fun other hlater => hother other (List.mem_cons_of_mem _ hlater)) ?_)
      intro other hlater
      rw [hturn.sources]
      exact hsources other (List.mem_cons_of_mem _ hlater)

variable (u faults now) in
/-- Either a source before it ends the tick and the source has no turn, or it has its turn in a
deployment that is the same for it, and the later turns leave it alone. -/
theorem scheduleSources_turn {earlier later : List Source}
    (hdistinct : ((earlier ++ source :: later).map Source.id).Nodup)
    (hsources : ∀ other ∈ earlier ++ source :: later, other ∈ d.store.ingestion.db.sources) :
    ((∃ other ∈ earlier, Aborts u faults now d other) ∧ SameFor source.id now d.store.ingestion
        (d.scheduleSources u faults now (earlier ++ source :: later)).1.store.ingestion) ∨
      (∀ other ∈ earlier, ¬Aborts u faults now d other) ∧ ∃ mid : Deployment,
        Continues d mid ∧ SameFor source.id now d.store.ingestion mid.store.ingestion ∧
        Continues (mid.turn u faults now source).1
          (d.scheduleSources u faults now (earlier ++ source :: later)).1 ∧
        SameFor source.id now (mid.turn u faults now source).1.store.ingestion
          (d.scheduleSources u faults now (earlier ++ source :: later)).1.store.ingestion := by
  induction earlier generalizing d with
  | nil =>
    obtain ⟨hhead, _⟩ := List.nodup_cons.mp hdistinct
    have hmem := hsources source (List.mem_cons_self ..)
    have hturn : Continues d (d.turn u faults now source).1 := turn_continues hmem
    refine Or.inr ⟨by simp, d, .refl d, .refl source.id now _, ?_⟩
    rw [List.nil_append, Deployment.scheduleSources]
    split
    next mid e h =>
      rw [h]
      exact ⟨.refl mid, .refl source.id now _⟩
    next mid scheduled h =>
      rw [h] at hturn ⊢
      have hlater : ∀ other ∈ later, other ∈ mid.store.ingestion.db.sources := by
        intro other hother
        rw [hturn.sources]
        exact hsources other (List.mem_cons_of_mem _ hother)
      refine ⟨scheduleSources_continues hlater, scheduleSources_sameFor ?_ hlater⟩
      exact fun other hother hid => hhead (hid ▸ List.mem_map_of_mem hother)
  | cons head earlier ih =>
    obtain ⟨hhead, hdistinct⟩ := List.nodup_cons.mp hdistinct
    have hmem := hsources head (List.mem_cons_self ..)
    have hturn : Continues d (d.turn u faults now head).1 := turn_continues hmem
    have hother : ∀ {other}, other ∈ earlier ++ source :: later →
        SameFor other.id now d.store.ingestion (d.turn u faults now head).1.store.ingestion := by
      intro other h
      refine turn_sameFor hmem ?_
      intro hid
      exact hhead (hid ▸ List.mem_map_of_mem h)
    have hraises : (∃ e, (d.turn u faults now head).2 = .error e) ↔ Aborts u faults now d head :=
      turn_raises_iff
    rw [List.cons_append, Deployment.scheduleSources]
    split
    next mid e h =>
      rw [h] at hother
      have haborts : Aborts u faults now d head := hraises.mp ⟨e, by rw [h]⟩
      exact Or.inl ⟨⟨head, List.mem_cons_self .., haborts⟩, hother (by simp)⟩
    next mid scheduled h =>
      rw [h] at hother hturn
      have hsound : ¬Aborts u faults now d head := by
        rw [← hraises, h]
        simp
      have hlater : ∀ other ∈ earlier ++ source :: later,
          other ∈ mid.store.ingestion.db.sources := by
        intro other hmem
        rw [hturn.sources]
        exact hsources other (List.mem_cons_of_mem _ hmem)
      have haborts : ∀ other ∈ earlier, Aborts u faults now mid other ↔
          Aborts u faults now d other := by
        intro other hmem
        have hin := List.mem_append_left (source :: later) hmem
        exact aborts_sameFor (hsources other (List.mem_cons_of_mem _ hin)) hturn.schedules
          (hother hin)
      have hsame : SameFor source.id now d.store.ingestion mid.store.ingestion :=
        hother (by simp)
      rcases ih hdistinct hlater with
        ⟨⟨other, hearlier, hother⟩, hfinal⟩ | ⟨hnone, mid', hmid, hsame', hcontinues, hfinal⟩
      · exact Or.inl ⟨⟨other, List.mem_cons_of_mem _ hearlier, (haborts other hearlier).mp hother⟩,
          hsame.trans hfinal⟩
      · refine Or.inr ⟨?_, mid', hturn.trans hmid, hsame.trans hsame', hcontinues, hfinal⟩
        rw [List.forall_mem_cons]
        exact ⟨hsound, fun other hmem => mt (haborts other hmem).mpr (hnone other hmem)⟩

end Turns

end JobRadar
