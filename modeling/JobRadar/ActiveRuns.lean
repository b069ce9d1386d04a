import JobRadar.IngestionThreads

namespace JobRadar

open Database Interleave

/-- At most one run of a source is under way. -/
def IngestionDb.OneActiveRun (db : IngestionDb) : Prop :=
  ∀ sourceId, ∀ run ∈ db.runs, ∀ run' ∈ db.runs,
    run.Active sourceId → run'.Active sourceId → run = run'

/-- If the thread is about to insert a run, `get_active_run` asked once more finds none. -/
def RecheckFindsNone (db : IngestionDb) : StartThread ⊕ Worker → Prop
  | .inl t => t.phase = .inserting → db.getRun t.runId = none → db.getActiveRun t.sourceId = none
  | .inr _ => True

instance (db : IngestionDb) : (t : StartThread ⊕ Worker) → Decidable (RecheckFindsNone db t)
  | .inl _ => inferInstanceAs (Decidable (_ → _ → _))
  | .inr _ => inferInstanceAs (Decidable True)

/-- The step inserts no run beside one that is under way. -/
abbrev InsertsWhereFree {ι : Type} (e : Event ι Time IngestionStore (StartThread ⊕ Worker)) :
    Prop :=
  RecheckFindsNone e.before.store.db (e.before.thread e.mover)

namespace IngestionDb.OneActiveRun

variable {db db' : IngestionDb} {run : IngestionRun} {runId sourceId : Uuid} {now : Time}

theorem createRun_iff (h : db.OneActiveRun)
    (hc : db.createRun runId sourceId now = .ok (db', run)) :
    db'.OneActiveRun ↔ db.getActiveRun sourceId = none := by
  obtain ⟨rfl, hfresh, hrows⟩ := createRun_ok hc
  have hnew : ∀ other, IngestionRun.Active ⟨runId, sourceId, .running, now, none, 0, 0, 0, 0, 0, 0,
      .empty⟩ other ↔ sourceId = other := by
    simp [IngestionRun.Active]
  rw [getActiveRun_eq_none_iff]
  constructor
  · intro h' old ho hactive
    have heq := h' sourceId old ((hrows old).mpr (Or.inl ho)) _ ((hrows _).mpr (Or.inr rfl)) hactive
      ((hnew sourceId).mpr rfl)
    apply Table.find_eq_none_iff.mp hfresh old ho
    rw [heq]
  · intro hfree other x hx y hy hax hay
    rcases (hrows x).mp hx with hx | rfl <;> rcases (hrows y).mp hy with hy | rfl
    · exact h other x hx y hy hax hay
    · obtain rfl := (hnew other).mp hay
      exact absurd hax (hfree x hx)
    · obtain rfl := (hnew other).mp hax
      exact absurd hay (hfree y hy)
    · rfl

theorem finishRun (h : db.OneActiveRun) (report : RunReport) :
    (db.finishRun run report now).OneActiveRun := by
  have hkept : ∀ other x, x ∈ (db.finishRun run report now).runs → x.Active other →
      x ∈ db.runs := by
    intro other x hx hactive
    obtain ⟨old, ho, rfl⟩ := mem_finishRun.mp hx
    by_cases hid : old.id = run.id
    · rw [if_pos hid] at hactive
      exact absurd hactive (old.not_active_finish report now other)
    · rwa [if_neg hid]
  intro other x hx y hy hax hay
  exact h other x (hkept other x hx hax) y (hkept other y hy hay) hax hay

theorem step_iff {a : Time} {s : IngestionStore} {t : StartThread ⊕ Worker}
    {r : IngestionStore × (StartThread ⊕ Worker)} (h : s.db.OneActiveRun)
    (hs : ingestionStep a s t = some r) : r.1.db.OneActiveRun ↔ RecheckFindsNone s.db t := by
  rcases Atomic.either_cases hs with ⟨u, s', u', rfl, rfl, hu⟩ | ⟨w, s', w', rfl, rfl, hw⟩
  · rcases startStep_cases hu with ⟨hdb, htaken⟩ | ⟨run, hphase, hc⟩
    · simp only [hdb, h, RecheckFindsNone, true_iff]
      intro hphase hfresh
      exact absurd hfresh (htaken hphase)
    · obtain ⟨_, hfresh, _⟩ := createRun_ok hc
      simp only [h.createRun_iff hc, RecheckFindsNone, hphase, hfresh, forall_const]
  · simp only [RecheckFindsNone, iff_true]
    rcases workerStep_cases hw with hdb | ⟨run, report, hdb⟩
    · simpa only [hdb] using h
    · simpa only [hdb] using h.finishRun report

end IngestionDb.OneActiveRun

/-- In a run of any number of calls and workers every source has at most one active run at
every moment, exactly when no call inserts beside a run that is under way. -/
theorem one_active_run_iff {ι : Type} [DecidableEq ι]
    {c₀ c : Pool ι IngestionStore (StartThread ⊕ Worker)}
    {es : List (Event ι Time IngestionStore (StartThread ⊕ Worker))}
    (h₀ : c₀.store.db.OneActiveRun) (path : Path ingestionStep c₀ es c) :
    (c.store.db.OneActiveRun ∧ ∀ e ∈ es, e.before.store.db.OneActiveRun) ↔
      ∀ e ∈ es, InsertsWhereFree e := by
  have hstep : ∀ (c : Pool ι IngestionStore (StartThread ⊕ Worker)) i a r,
      c.store.db.OneActiveRun → ingestionStep a c.store (c.thread i) = some r →
      ((c.set i r).store.db.OneActiveRun ↔ InsertsWhereFree ⟨c, i, a⟩) :=
    fun _ _ _ _ hc hs => hc.step_iff hs
  exact path.invariant_iff (I := fun c => c.store.db.OneActiveRun) h₀ hstep

/-- One source, its scheduler tick (0), its owner's request to the API (1) and the worker of
the scheduled run (2). -/
def annProcesses : Pool Nat IngestionStore (StartThread ⊕ Worker) where
  store := { db := ⟨⟨[⟨1, 7, "lever", Python.text "Acme", []⟩], by simp⟩, .empty⟩ }
  thread n :=
    if n = 0 then .inl ⟨buildIngestionService true, 1, some 7, 50, .start⟩
    else if n = 1 then .inl ⟨getIngestionService, 1, some 7, 51, .start⟩
    else .inr ⟨50, 1, some ⟨.succeeded, 0, 0, .empty, 0, 0, 0, RunStatus.succeeded_ended⟩,
      .collected⟩

theorem annProcesses_free : annProcesses.store.db.OneActiveRun := by
  intro sourceId run hrun
  exact absurd hrun (Table.not_mem_empty run)

/-- The request comes when the worker has ended the scheduled run. -/
def requestAfterRun : List (Nat × Time) :=
  [(0, 1), (0, 1), (0, 1), (0, 1), (2, 5), (2, 6), (2, 6), (1, 9), (1, 9), (1, 9)]

/-- Both callers look for an active run before either inserts one. -/
def bothLookFirst : List (Nat × Time) :=
  [(0, 1), (0, 1), (1, 1), (1, 1), (0, 2), (0, 2), (1, 3)]

theorem annProcesses_requestAfterRun : ∃ es c, Path ingestionStep annProcesses es c ∧
    c.store.db.OneActiveRun ∧ ∀ e ∈ es, e.before.store.db.OneActiveRun := by
  obtain ⟨es, c, hrun, hok⟩ : ∃ es c,
      exec ingestionStep [] annProcesses requestAfterRun = some (es, c) ∧
      ∀ e ∈ es, InsertsWhereFree e :=
    ⟨_, _, rfl, by decide⟩
  have path := exec_path .start requestAfterRun hrun
  exact ⟨es, c, path, (one_active_run_iff annProcesses_free path).mpr hok⟩

/-- The scheduler and the API each start a run of the one source. -/
theorem two_runs_of_one_source : ∃ es c, Path ingestionStep annProcesses es c ∧
    ¬c.store.db.OneActiveRun := by
  obtain ⟨es, c, hrun, run, hm, run', hm', ha, ha', hne⟩ : ∃ es c,
      exec ingestionStep [] annProcesses bothLookFirst = some (es, c) ∧
      ∃ run ∈ c.store.db.runs.rows, ∃ run' ∈ c.store.db.runs.rows,
        run.Active 1 ∧ run'.Active 1 ∧ run ≠ run' :=
    ⟨_, _, rfl, by decide⟩
  refine ⟨es, c, exec_path .start bothLookFirst hrun, ?_⟩
  intro hone
  exact hne (hone 1 run hm run' hm' ha ha')

end JobRadar
