import JobRadar.UpsertThreads

namespace JobRadar

open Database Interleave Python

/-- At most one job for each link and company. -/
def JobStore.OneJobEach (s : JobStore) : Prop :=
  ∀ job ∈ s.jobs, ∀ job' ∈ s.jobs, job.identity = job'.identity → job = job'

/-- If the call is about to insert its job and its record, the second lookup asked once more
finds none. -/
def UpsertThread.FindsNoneAgain (t : UpsertThread) (s : JobStore) : Prop :=
  match t.phase with
  | .flushed job =>
    (t.candidate.sourceRecord job.id t.sourceId).isSome → s.jobs.find job.id = none →
      s.jobsOfPosting job.applicationUrl job.companyNormalized = []
  | _ => True

instance (t : UpsertThread) (s : JobStore) : Decidable (t.FindsNoneAgain s) := by
  unfold UpsertThread.FindsNoneAgain
  split <;> infer_instance

section Commits

variable {s s' : JobStore} {job : Job} {sourceId : Uuid} {c : JobCandidate}

theorem addRecord_ok_iff : (∃ s', s.addRecord job sourceId c = .ok s') ↔
    (c.sourceRecord job.id sourceId).isSome := by
  cases h : c.sourceRecord job.id sourceId with
  | none => simp [JobStore.addRecord, h, stored, bind, Except.bind]
  | some record => simp [JobStore.addRecord, h, stored, bind, Except.bind, pure, Except.pure]

theorem commitNew_ok_iff : (∃ s', s.commitNew job sourceId c = .ok s') ↔
    (c.sourceRecord job.id sourceId).isSome ∧ s.jobs.find job.id = none := by
  cases hinsert : s.jobs.insert job with
  | none =>
    obtain ⟨old, ho, hid⟩ := Table.insert_eq_none_iff.mp hinsert
    have htaken : s.jobs.find job.id = some old := hid ▸ Table.find_of_mem ho
    simp [JobStore.commitNew, hinsert, htaken]
  | some jobs =>
    have hfree : s.jobs.find job.id = none :=
      Table.find_eq_none_iff.mpr fun old ho => Table.key_ne_of_insert hinsert ho
    simp only [JobStore.commitNew, hinsert, hfree, and_true]
    exact addRecord_ok_iff

theorem commitNew_jobs (h : s.commitNew job sourceId c = .ok s') :
    s.jobs.insert job = some s'.jobs := by
  unfold JobStore.commitNew at h
  split at h
  next => cases h
  next jobs hinsert => rw [hinsert, addRecord_jobs h]

theorem commitFound_jobs {job' : Job} {changed : Bool}
    (h : s.commitFound job sourceId c = .ok (s', job', changed)) :
    s'.jobs = s.jobs ∨ ∃ content, s'.jobs = (s.updateJob job content).jobs := by
  rcases commitFound_cases h with ⟨hrecord, -, -⟩ | ⟨content, hrecord, -, -⟩
  · exact Or.inl (addRecord_jobs hrecord)
  · exact Or.inr ⟨content, addRecord_jobs hrecord⟩

namespace JobStore.OneJobEach

theorem insert_iff (h : s.OneJobEach) (hinsert : s.jobs.insert job = some s'.jobs) :
    s'.OneJobEach ↔ s.jobsOfPosting job.applicationUrl job.companyNormalized = [] := by
  rw [List.eq_nil_iff_forall_not_mem]
  constructor
  · intro h' old hold
    obtain ⟨ho, hidentity⟩ := mem_jobsOfPosting.mp hold
    have heq := h' old ((Table.mem_of_insert hinsert).mpr (Or.inl ho)) job
      ((Table.mem_of_insert hinsert).mpr (Or.inr rfl)) hidentity
    exact Table.key_ne_of_insert hinsert ho (congrArg Job.id heq)
  · intro hnone x hx y hy hxy
    rw [← Table.mem_rows, Table.rows_of_insert hinsert] at hx hy
    have hold : ∀ x ∈ s.jobs.rows, ∀ y ∈ s.jobs.rows, x.identity = y.identity → x = y := h
    refine unique_append (R := fun x y : Job => x.identity = y.identity) (fun _ _ => Eq.symm) hold
      ?_ x hx y hy hxy
    intro old ho hidentity
    exact hnone old (mem_jobsOfPosting.mpr ⟨ho, hidentity⟩)

theorem updateJob (h : s.OneJobEach) (job : Job) (content : JobContent) :
    (s.updateJob job content).OneJobEach := by
  have hold : ∀ x ∈ (s.updateJob job content).jobs,
      ∃ old ∈ s.jobs, old.id = x.id ∧ old.identity = x.identity := by
    intro x hx
    have hrow := (Table.mem_updateWhere (f := (Job.update · content)) fun _ => rfl).mp hx
    obtain ⟨old, ho, rfl⟩ := hrow
    refine ⟨old, ho, ?_⟩
    by_cases hid : old.id = job.id
    · rw [if_pos hid]
      exact ⟨rfl, rfl⟩
    · rw [if_neg hid]
      exact ⟨rfl, rfl⟩
  intro x hx y hy hxy
  obtain ⟨old, ho, hid, hidentity⟩ := hold x hx
  obtain ⟨old', ho', hid', hidentity'⟩ := hold y hy
  have hsame : old = old' := h old ho old' ho' (by rw [hidentity, hidentity', hxy])
  apply Table.eq_of_key_eq hx hy
  rw [← hid, ← hid', hsame]

theorem congr (h : s.OneJobEach) (hjobs : s'.jobs = s.jobs) : s'.OneJobEach := by
  unfold OneJobEach
  rwa [hjobs]

theorem step_iff {answer : UpsertAnswer} {t t' : UpsertThread} (h : s.OneJobEach)
    (hs : upsertStep answer s t = some (s', t')) : s'.OneJobEach ↔ t.FindsNoneAgain s := by
  have hquiet : ∀ s' : JobStore, s'.OneJobEach → (∀ job, t.phase ≠ .flushed job) →
      (s'.OneJobEach ↔ t.FindsNoneAgain s) := by
    intro s' h' hphase
    refine iff_of_true h' ?_
    unfold UpsertThread.FindsNoneAgain
    split
    next job hp => exact absurd hp (hphase job)
    next => trivial
  unfold upsertStep at hs
  split at hs
  next hp =>
    obtain rfl : s' = s := by split at hs <;> (cases hs; rfl)
    exact hquiet s' h (by simp [hp])
  next hp =>
    obtain rfl : s' = s := by split at hs <;> (cases hs; rfl)
    exact hquiet s' h (by simp [hp])
  next hp =>
    obtain rfl : s' = s := by split at hs <;> (cases hs; rfl)
    exact hquiet s' h (by simp [hp])
  next job hp =>
    refine hquiet s' ?_ (by simp [hp])
    split at hs
    next => cases hs; exact h
    next hcommit =>
      cases hs
      rcases commitFound_jobs hcommit with hjobs | ⟨content, hjobs⟩
      · exact h.congr hjobs
      · exact (h.updateJob job content).congr hjobs
  next job hp =>
    have haccepted : (∃ s', s.commitNew job t.sourceId t.candidate = .ok s') ↔ _ :=
      commitNew_ok_iff
    split at hs
    next error hcommit =>
      -- a refused commit is rolled back
      cases hs
      refine iff_of_true h ?_
      simp only [UpsertThread.FindsNoneAgain, hp]
      intro hrecord hfree
      obtain ⟨s', hok⟩ := haccepted.mpr ⟨hrecord, hfree⟩
      rw [hcommit] at hok
      cases hok
    next hcommit =>
      cases hs
      obtain ⟨hrecord, hfree⟩ := haccepted.mp ⟨s', hcommit⟩
      simp only [UpsertThread.FindsNoneAgain, hp, hrecord, hfree, forall_true_left]
      exact h.insert_iff (commitNew_jobs hcommit)
  next hp =>
    obtain rfl : s' = s := by split at hs <;> (cases hs; rfl)
    exact hquiet s' h (by simp [hp])
  next => cases hs
  next => cases hs

end JobStore.OneJobEach

end Commits

/-- Any number of calls that are about to start, each for one source. -/
def upserts {ι : Type} (s : JobStore) (calls : ι → Posting) : Pool ι JobStore UpsertThread where
  store := s
  thread i := { sourceId := (calls i).sourceId, candidate := (calls i).candidate }

/-- The step inserts no job beside one with its link and company. -/
abbrev InsertsUnlisted {ι : Type} (e : Event ι UpsertAnswer JobStore UpsertThread) : Prop :=
  (e.before.thread e.mover).FindsNoneAgain e.before.store

/-- Every committed state has at most one job for each link and company exactly when every call
that commits a new job still finds none. -/
theorem one_job_each_iff {ι : Type} [DecidableEq ι] {s : JobStore} {calls : ι → Posting}
    {es : List (Event ι UpsertAnswer JobStore UpsertThread)} {c : Pool ι JobStore UpsertThread}
    (hone : s.OneJobEach) (path : Path upsertStep (upserts s calls) es c) :
    (c.store.OneJobEach ∧ ∀ e ∈ es, e.before.store.OneJobEach) ↔ ∀ e ∈ es, InsertsUnlisted e := by
  have hstep : ∀ (c : Pool ι JobStore UpsertThread) i answer r,
      c.store.OneJobEach → upsertStep answer c.store (c.thread i) = some r →
      ((c.set i r).store.OneJobEach ↔ InsertsUnlisted ⟨c, i, answer⟩) :=
    fun _ _ _ _ h hs => h.step_iff hs
  exact path.invariant_iff (I := fun c => c.store.OneJobEach) hone hstep

def backendUpserts : Pool Bool JobStore UpsertThread :=
  upserts .empty fun b =>
    JobStore.backendPosting (if b then 1 else 2) (text (if b then "1" else "x"))

def headAnswer (jobId : Uuid) : UpsertAnswer := ⟨.head, jobId⟩

theorem backendUpserts_oneByOne : ∃ es c, Path upsertStep backendUpserts es c ∧
    c.store.records.map JobSourceRecord.jobId = [1, 1] ∧ c.store.OneJobEach := by
  obtain ⟨es, c, hrun, hfinds, hrecords⟩ : ∃ es c, exec upsertStep [] backendUpserts
      (List.replicate 5 (true, headAnswer 1) ++ List.replicate 4 (false, headAnswer 2)) =
        some (es, c) ∧
      (∀ e ∈ es, InsertsUnlisted e) ∧
      c.store.records.map JobSourceRecord.jobId = [1, 1] := by
    refine ⟨_, _, rfl, ?_, ?_⟩
    · decide
    · decide
  have path := exec_path .start _ hrun
  have hone : JobStore.empty.OneJobEach := fun job hjob => absurd hjob (Table.not_mem_empty job)
  exact ⟨es, c, path, hrecords, ((one_job_each_iff hone path).mpr hfinds).1⟩

/-- Both lookups come before either commit, and the job is stored twice. -/
theorem backendUpserts_two_jobs : ∃ es c, Path upsertStep backendUpserts es c ∧
    c.store.jobs.rows.map Job.id = [1, 2] ∧ ¬c.store.OneJobEach := by
  obtain ⟨es, c, hrun, hids, job, hjob, job', hjob', hidentity, hne⟩ :
      ∃ es c, exec upsertStep [] backendUpserts
        (List.replicate 2 (true, headAnswer 1) ++ List.replicate 2 (false, headAnswer 2) ++
          List.replicate 3 (true, headAnswer 1) ++ List.replicate 3 (false, headAnswer 2)) =
          some (es, c) ∧
        c.store.jobs.rows.map Job.id = [1, 2] ∧
        ∃ job ∈ c.store.jobs, ∃ job' ∈ c.store.jobs, job.identity = job'.identity ∧
          job.id ≠ job'.id := by
    refine ⟨_, _, rfl, ?_, _, List.mem_cons_self .., _,
      List.mem_cons_of_mem _ (List.mem_cons_self ..), rfl, ?_⟩
    · decide
    · decide
  refine ⟨es, c, exec_path .start _ hrun, hids, ?_⟩
  intro hone
  exact hne (congrArg Job.id (hone job hjob job' hjob' hidentity))

end JobRadar
