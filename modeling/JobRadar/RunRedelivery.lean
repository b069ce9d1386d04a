import JobRadar.RunEnds
import JobRadar.Sequence

namespace JobRadar

open Database Python Sequence Stages

/-- The delivery of an ingestion task: its message, and what the provider answers while it is
worked on. -/
structure Delivery where
  sourceId : Uuid
  runId : Uuid
  clients : Nat → AsyncClient
  now : Time

inductive TaskResult
  | skipped
  | completed (runId : Uuid)
  | raised (error : PyError)

/-- What the task asks of the service, for the source it finds. -/
def Delivery.call (d : Delivery) (source : Source) : RunCall where
  runId := d.runId
  config := source.config
  kind := source.kind
  sourceId := some d.sourceId
  companyName := some source.name

def runIngestion (lib : Stdlib) (first : FirstRow Job) (s : RunStore) (d : Delivery) :
    RunStore × TaskResult :=
  match s.ingestion.db.get d.sourceId with
  | none => (s, .skipped)
  | some source =>
    match executeRun lib first d.clients true d.now s (d.call source) with
    | (s, .ok ()) => (s, .completed d.runId)
    | (s, .error e) => (s, .raised e)

def RunStore.deliver (lib : Stdlib) (first : FirstRow Job) (s : RunStore) (d : Delivery) :
    RunStore :=
  (runIngestion lib first s d).1

/-- The message of the run is delivered, its source is there, and the execution can be carried to
its end. -/
def Reexecutes (lib : Stdlib) (first : FirstRow Job) (runId : Uuid) (c : Call Delivery RunStore) :
    Prop :=
  c.call.runId = runId ∧ ∃ source kind url pages,
    c.before.ingestion.db.get c.call.sourceId = some source ∧
    SourceKind.ofName source.kind = some kind ∧ kind.Configured lib source.config url pages ∧
    c.before.Manages lib first (c.call.call source) c.call.clients kind pages
      fun a p => c.call.clients a ((kind.adapter lib).pageUrl url p)

section Deliveries

variable {lib : Stdlib} {first : FirstRow Job} {s : RunStore} {d : Delivery} {runId : Uuid}
  {run : IngestionRun}

theorem deliver_skipped (hsource : s.ingestion.db.get d.sourceId = none) :
    s.deliver lib first d = s := by
  simp only [RunStore.deliver, runIngestion, hsource]

theorem deliver_executed {source : Source} (hsource : s.ingestion.db.get d.sourceId = some source) :
    s.deliver lib first d = (executeRun lib first d.clients true d.now s (d.call source)).1 := by
  simp only [RunStore.deliver, runIngestion, hsource]
  split
  next h => rw [h]
  next h => rw [h]

theorem reexecutes_iff {source : Source} {kind : SourceKind}
    (hsource : s.ingestion.db.get d.sourceId = some source)
    (hkind : SourceKind.ofName source.kind = some kind) :
    Reexecutes lib first d.runId ⟨s, d⟩ ↔
      s.Ends lib first (d.call source) (collectRun lib d.clients kind source.config) := by
  have hends : s.Ends lib first (d.call source) (collectRun lib d.clients kind source.config) ↔ _ :=
    SourceKind.ends_iff
  rw [hends]
  constructor
  · rintro ⟨_, source', kind', url, pages, hsource', hkind', hmanaged⟩
    obtain rfl : source = source' := Option.some.inj (hsource.symm.trans hsource')
    obtain rfl : kind = kind' := Option.some.inj (hkind.symm.trans hkind')
    exact ⟨url, pages, hmanaged⟩
  · rintro ⟨url, pages, hmanaged⟩
    exact ⟨rfl, source, kind, url, pages, hsource, hkind, hmanaged⟩

theorem deliver_getRun (hrun : s.getRun runId = some run) :
    (Reexecutes lib first runId ⟨s, d⟩ ∧ ∃ report,
      (s.deliver lib first d).getRun runId = some (run.finish report d.now)) ∨
    (¬Reexecutes lib first runId ⟨s, d⟩ ∧ (s.deliver lib first d).getRun runId = some run) := by
  by_cases hid : d.runId = runId
  · subst hid
    cases hsource : s.ingestion.db.get d.sourceId with
    | none =>
      rw [deliver_skipped hsource]
      refine Or.inr ⟨?_, hrun⟩
      rintro ⟨_, source, _, _, _, hsource', _⟩
      rw [hsource] at hsource'
      cases hsource'
    | some source =>
      rw [deliver_executed hsource]
      cases hkind : SourceKind.ofName source.kind with
      | none =>
        refine Or.inr ⟨?_, by simpa only [executeRun, Delivery.call, hkind] using hrun⟩
        rintro ⟨_, source', kind, _, _, hsource', hkind', _⟩
        rw [hsource] at hsource'
        cases hsource'
        rw [hkind] at hkind'
        cases hkind'
      | some kind =>
        have hrun' : s.getRun (d.call source).runId = some run := hrun
        rw [reexecutes_iff hsource hkind]
        exact RunStore.executeRun_getRun lib first d.clients true d.now hkind hrun'
  · refine Or.inr ⟨fun h => hid h.1, ?_⟩
    cases hsource : s.ingestion.db.get d.sourceId with
    | none => rwa [deliver_skipped hsource]
    | some source =>
      rw [deliver_executed hsource,
        RunStore.executeRun_getRun_other lib first d.clients true d.now hid]
      exact hrun

end Deliveries

section Run

variable {lib : Stdlib} {first : FirstRow Job} {s₀ s : RunStore} {runId : Uuid}
  {run : IngestionRun} {calls : List (Call Delivery RunStore)}

/-- The run's row is what it was when the run finished, now and before every delivery. -/
def FinalThroughout (runId : Uuid) (run : IngestionRun) (calls : List (Call Delivery RunStore))
    (s : RunStore) : Prop :=
  s.getRun runId = some run ∧ ∀ c ∈ calls, c.before.getRun runId = some run

theorem finish_ne (report : RunReport) {now : Time} (h : run.completedAt ≠ some now) :
    run.finish report now ≠ run := by
  intro heq
  apply h
  rw [← heq]
  rfl

/-- The row of a run, and with it a finished run, is final as long as no delivery executes the run
to its end; and when the clock has moved on since, only as long. -/
theorem finished_run_final (hrun : s₀.getRun runId = some run)
    (deliveries : Run (RunStore.deliver lib first) s₀ calls s) :
    ((∀ c ∈ calls, ¬Reexecutes lib first runId c) → FinalThroughout runId run calls s) ∧
    ((∀ c ∈ calls, run.completedAt ≠ some c.call.now) →
      (FinalThroughout runId run calls s ↔ ∀ c ∈ calls, ¬Reexecutes lib first runId c)) := by
  have keep : ∀ (s : RunStore) d, s.getRun runId = some run →
      ¬Reexecutes lib first runId ⟨s, d⟩ → (s.deliver lib first d).getRun runId = some run := by
    intro s d hrow hother
    rcases deliver_getRun hrow with ⟨hexecutes, _⟩ | ⟨_, hkept⟩
    · exact absurd hexecutes hother
    · exact hkept
  have only : ∀ (s : RunStore) (d : Delivery), s.getRun runId = some run →
      run.completedAt ≠ some d.now → (s.deliver lib first d).getRun runId = some run →
      ¬Reexecutes lib first runId ⟨s, d⟩ := by
    intro s d hrow hclock hkept
    rcases deliver_getRun hrow with ⟨_, report, hwritten⟩ | ⟨hother, _⟩
    · rw [hkept] at hwritten
      exact absurd (Option.some.inj hwritten).symm (finish_ne report hclock)
    · exact hother
  refine ⟨?_, ?_⟩
  · intro hother
    exact ⟨Run.invariant (I := fun s : RunStore => s.getRun runId = some run) hrun keep deliveries
      hother, Run.invariant_before (I := fun s : RunStore => s.getRun runId = some run) hrun keep
      deliveries hother⟩
  · intro hclock
    exact Run.promise_iff (I := fun s : RunStore => s.getRun runId = some run) hrun keep
      (fun _ h => h) only deliveries hclock

end Run

/-- The message of run 50, with a provider that answers every page in one way. -/
def acmeDelivery (now : Time) (reply : HttpReply) : Delivery where
  sourceId := 1
  runId := 50
  clients _ _ := reply
  now := now

/-- Run 50 of source 1, which was carried to its end. -/
def acmeFinished : RunStore :=
  acmeStore.deliver emptyTextLib .head (acmeDelivery 5 (acmePage (.str (text "https://apply"))))

/-- It is delivered again, and the provider now knows of no board of that name. -/
def acmeRedelivered : List (Call Delivery RunStore) × RunStore :=
  runAll (RunStore.deliver emptyTextLib .head) [] acmeFinished
    [acmeDelivery 9 (.response 404 none none)]

theorem redelivery_fails_finished_run :
    Run (RunStore.deliver emptyTextLib .head) acmeFinished acmeRedelivered.1 acmeRedelivered.2 ∧
    ((acmeFinished.getRun 50).map fun run => (run.status, run.completedAt, run.createdCount)) =
      some (.partialRun, some 5, 1) ∧
    ((acmeRedelivered.2.getRun 50).map fun run => (run.status, run.completedAt, run.createdCount)) =
      some (.failed, some 9, 0) := by
  refine ⟨run_runAll .start _, ?_, ?_⟩
  · decide
  · decide

/-- It is delivered again, the source is still there, and a posting has no link. -/
def acmeUnlinked : List (Call Delivery RunStore) × RunStore :=
  runAll (RunStore.deliver emptyTextLib .head) [] acmeFinished [acmeDelivery 9 (acmePage .null)]

/-- What the second execution raises is not handled, and the run stays as it is. -/
theorem acmeFinished_final : ∃ run, acmeFinished.getRun 50 = some run ∧
    FinalThroughout 50 run acmeUnlinked.1 acmeUnlinked.2 := by
  obtain ⟨run, hrun⟩ : ∃ run, acmeFinished.getRun 50 = some run := ⟨_, rfl⟩
  refine ⟨run, hrun, (finished_run_final hrun (run_runAll .start _)).1 ?_⟩
  intro c hc
  obtain rfl : c = ⟨acmeFinished, acmeDelivery 9 (acmePage .null)⟩ := List.mem_singleton.mp hc
  have hcompleted : ((acmeFinished.deliver emptyTextLib .head
      (acmeDelivery 9 (acmePage .null))).getRun 50).map IngestionRun.completedAt =
        some (some 5) := by decide
  intro hexecutes
  rcases deliver_getRun hrun with ⟨_, report, hwritten⟩ | ⟨hother, _⟩
  · rw [hwritten] at hcompleted
    cases hcompleted
  · exact hother hexecutes

end JobRadar
