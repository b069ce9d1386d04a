import JobRadar.SourceTurns

namespace JobRadar

open Database Python

/-- The source is due, nothing fails for it, and a run of it may start. -/
structure Ready (u : Decimals) (faults : Uuid → TurnFaults) (now : Time) (d : Deployment)
    (source : Source) : Prop where
  due : isDue u (d.schedules source.id) now = .ok true
  sound : faults source.id = {}
  startable : Startable d.store.ingestion source now

/-- A run of the source was inserted, and its message published. -/
def Served (d d' : Deployment) (source : Source) : Prop :=
  ∃ run ∈ d'.store.ingestion.db.runs, run.sourceId = source.id ∧
    (∀ old ∈ d.store.ingestion.db.runs, old.id ≠ run.id) ∧ ⟨source.id, run.id⟩ ∈ d'.published

/-- The sibling loop of `SchedulerService`, which records what its runner raises. -/
def serviceTick {σ α : Type} (u : Decimals) (now : Time) (schedules : Uuid → SourceSchedule)
    (runner : σ → Source → σ × Except TickError α) :
    List Source → σ → σ × Except TickError (List (Except TickError α))
  | [], s => (s, .ok [])
  | source :: sources, s =>
    match isDue u (schedules source.id) now with
    | .error e => (s, .error e)
    | .ok false => serviceTick u now schedules runner sources s
    | .ok true =>
      let (s, result) := runner s source
      let (s, results) := serviceTick u now schedules runner sources s
      (s, results.map (result :: ·))

def runEach {σ α : Type} (runner : σ → Source → σ × Except TickError α) :
    List Source → σ → σ × List (Except TickError α)
  | [], s => (s, [])
  | source :: sources, s =>
    let (s, result) := runner s source
    let (s, results) := runEach runner sources s
    (s, result :: results)

section Due

variable {u : Decimals} {now : Time}

theorem serviceTick_eq {σ α : Type} (schedules : Uuid → SourceSchedule)
    (runner : σ → Source → σ × Except TickError α) {sources : List Source}
    (hsound : ∀ source ∈ sources, isDue u (schedules source.id) now ≠ .error .overflow)
    (s : σ) : serviceTick u now schedules runner sources s =
      ((runEach runner
          (sources.filter fun source => isDue u (schedules source.id) now = .ok true) s).1,
        .ok (runEach runner
          (sources.filter fun source => isDue u (schedules source.id) now = .ok true) s).2) := by
  induction sources generalizing s with
  | nil => rfl
  | cons source sources ih =>
    have hrest := ih fun source h => hsound source (List.mem_cons_of_mem _ h)
    obtain ⟨due, hdue⟩ := (isDue_cases u (schedules source.id) now).resolve_left
      (hsound source (List.mem_cons_self ..))
    rw [serviceTick, hdue, List.filter_cons, hdue]
    cases due with
    | false => exact hrest s
    | true => simp only [decide_true, if_true, hrest, runEach, Except.map]

end Due

section Turns

open IngestionStore

variable {u : Decimals} {faults : Uuid → TurnFaults} {now : Time} {source : Source}
  {d d' : Deployment}

theorem ready_sameFor (hschedules : d'.schedules = d.schedules)
    (h : SameFor source.id now d.store.ingestion d'.store.ingestion) :
    Ready u faults now d' source ↔ Ready u faults now d source := by
  constructor
  · rintro ⟨hdue, hsound, hstart⟩
    exact ⟨hschedules ▸ hdue, hsound, h.startable_iff.mp hstart⟩
  · rintro ⟨hdue, hsound, hstart⟩
    exact ⟨hschedules ▸ hdue, hsound, h.startable_iff.mpr hstart⟩

theorem turn_serves (hsource : source ∈ d.store.ingestion.db.sources)
    (h : Ready u faults now d source) : Served d (d.turn u faults now source).1 source := by
  obtain ⟨hdue, hsound, hstart⟩ := h
  have hlets : (faults source.id).LetsStart := by
    rw [hsound]
    exact ⟨rfl, rfl, rfl, rfl⟩
  obtain ⟨runs, hinsert, hstarted⟩ := startSource_started hsource hlets hstart
  have hturn : (d.turn u faults now source).1 = (d.withIngestion
      { db := { d.store.ingestion.db with runs := runs },
        locks := (source.id, now + lockLife) :: d.store.ingestion.locks }).publish
      ⟨source.id, d.store.ingestion.db.runs.freshKey⟩ := by
    simp only [Deployment.turn, hdue, hstarted, hsound]
  rw [hturn]
  refine ⟨_, (Table.mem_of_insert hinsert).mpr (Or.inr rfl), rfl, ?_, List.mem_cons_self ..⟩
  exact fun old hold => Table.key_ne_freshKey hold

theorem Served.continues {last : Deployment} (h : Served d d' source) (hlater : Continues d' last) :
    Served d last source := by
  obtain ⟨run, hrun, hid, hnew, hmessage⟩ := h
  exact ⟨run, hlater.runs run hrun, hid, hnew, hlater.published _ hmessage⟩

theorem served_sameFor {last : Deployment}
    (h : SameFor source.id now d.store.ingestion d'.store.ingestion) (hlater : Continues d' last) :
    Served d last source ↔ Served d' last source := by
  constructor
  · rintro ⟨run, hrun, hid, hnew, hmessage⟩
    exact ⟨run, hrun, hid, (h.fresh_iff hlater.runs hrun hid).mp hnew, hmessage⟩
  · rintro ⟨run, hrun, hid, hnew, hmessage⟩
    exact ⟨run, hrun, hid, (h.fresh_iff hlater.runs hrun hid).mpr hnew, hmessage⟩

theorem not_served_of_sameFor
    (h : SameFor source.id now d.store.ingestion d'.store.ingestion) : ¬Served d d' source := by
  rintro ⟨run, hrun, hid, hnew, _⟩
  exact h.no_newRun ⟨run, hrun, hid, hnew⟩

theorem served_iff {earlier later : List Source}
    (hdistinct : ((earlier ++ source :: later).map Source.id).Nodup)
    (hsources : ∀ other ∈ earlier ++ source :: later, other ∈ d.store.ingestion.db.sources)
    (hready : Ready u faults now d source) :
    Served d (d.scheduleSources u faults now (earlier ++ source :: later)).1 source ↔
      ∀ other ∈ earlier, ¬Aborts u faults now d other := by
  rcases scheduleSources_turn u faults now hdistinct hsources with
    ⟨⟨other, hearlier, haborts⟩, hfinal⟩ | ⟨hnone, mid, hmid, hsame, hcontinues, _⟩
  · exact iff_of_false (not_served_of_sameFor hfinal) fun h => h other hearlier haborts
  · have hready' := (ready_sameFor hmid.schedules hsame).mpr hready
    have hmem : source ∈ mid.store.ingestion.db.sources := by
      rw [hmid.sources]
      exact hsources source (by simp)
    have hserved := (turn_serves hmem hready').continues hcontinues
    refine iff_of_true ((served_sameFor hsame ?_).mpr hserved) hnone
    exact (turn_continues hmem).trans hcontinues

end Turns

/-- A tick serves every ready source exactly when no source aborts before a ready one in the order
of the query. The sibling loop calls its runner for every due source, whatever the runner raises, as
long as no interval overflows. -/
theorem due_sources_served_iff (u : Decimals) (faults : Uuid → TurnFaults) (now : Time)
    (d : Deployment) :
    ((∀ source ∈ d.enabledSources, Ready u faults now d source →
        Served d (d.scheduleDueSources u faults now).1 source) ↔
      ∀ earlier source later, d.enabledSources = earlier ++ source :: later →
        Ready u faults now d source → ∀ other ∈ earlier, ¬Aborts u faults now d other) ∧
    ∀ (σ α : Type) (runner : σ → Source → σ × Except TickError α) (sources : List Source) (s : σ),
      (∀ source ∈ sources, isDue u (d.schedules source.id) now ≠ .error .overflow) →
      serviceTick u now d.schedules runner sources s =
        ((runEach runner
            (sources.filter fun source => isDue u (d.schedules source.id) now = .ok true) s).1,
          .ok (runEach runner
            (sources.filter fun source => isDue u (d.schedules source.id) now = .ok true) s).2) := by
  refine ⟨?_, fun σ α runner sources s hsound => serviceTick_eq d.schedules runner hsound s⟩
  have hsources : ∀ source ∈ d.enabledSources, source ∈ d.store.ingestion.db.sources :=
    fun source h => (List.mem_filter.mp h).1
  have hdistinct : (d.enabledSources.map Source.id).Nodup :=
    d.store.ingestion.db.sources.unique.sublist (List.filter_sublist.map Source.id)
  have hturn : ∀ earlier source later, d.enabledSources = earlier ++ source :: later →
      Ready u faults now d source →
      (Served d (d.scheduleDueSources u faults now).1 source ↔
        ∀ other ∈ earlier, ¬Aborts u faults now d other) := by
    intro earlier source later hlist hready
    rw [hlist] at hsources hdistinct
    rw [Deployment.scheduleDueSources, hlist]
    exact served_iff hdistinct hsources hready
  constructor
  · intro hserved earlier source later hlist hready
    have hmem : source ∈ d.enabledSources := by
      rw [hlist]
      simp
    exact (hturn earlier source later hlist hready).mp (hserved source hmem hready)
  · intro hnone source hmem hready
    obtain ⟨earlier, later, hlist⟩ := List.append_of_mem hmem
    exact (hturn earlier source later hlist hready).mpr (hnone earlier source later hlist hready)

/-- Two sources, both to be read once a minute and neither read yet. -/
def twoSources : Deployment where
  store := {
    ingestion := { db := ⟨⟨[⟨1, 7, "greenhouse", text "Acme", [(text "board", .str (text "acme"))]⟩,
      ⟨2, 7, "greenhouse", text "Apex", [(text "board", .str (text "apex"))]⟩], by simp⟩, .empty⟩ }
    jobs := .empty }
  schedules _ := { schedule := some (text "interval:60") }

/-- The broker is down when the task of the first source is published. -/
def brokerDown (sourceId : Uuid) : TurnFaults :=
  if sourceId = 1 then { delay := some .broker } else {}

theorem broker_stops_tick :
    ¬∀ source ∈ twoSources.enabledSources, Ready .ascii brokerDown 5 twoSources source →
      Served twoSources (twoSources.scheduleDueSources .ascii brokerDown 5).1 source := by
  intro hserved
  have hapex : (⟨2, 7, "greenhouse", text "Apex", [(text "board", .str (text "apex"))]⟩ : Source) ∈
      twoSources.enabledSources := List.mem_cons_of_mem _ (List.mem_cons_self ..)
  have hstart : Startable twoSources.store.ingestion
      ⟨2, 7, "greenhouse", text "Apex", [(text "board", .str (text "apex"))]⟩ 5 := by
    refine ⟨by decide, ?_, by decide⟩
    rintro ⟨run, hrun, _⟩
    exact Table.not_mem_empty run hrun
  obtain ⟨run, hrun, hid, _⟩ := hserved _ hapex ⟨by decide, rfl, hstart⟩
  have hrows : ∀ run ∈ (twoSources.scheduleDueSources .ascii brokerDown
    5).1.store.ingestion.db.runs.rows, run.sourceId ≠ 2 := by decide
  exact hrows run hrun hid

end JobRadar
