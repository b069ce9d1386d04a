import JobRadar.SourceTurns

namespace JobRadar

open Database Python Sequence

section Tick

open IngestionStore

variable {u : Decimals} {faults : Uuid → TurnFaults} {now : Time} {source : Source}
  {d : Deployment}

theorem scheduleSources_newRun_iff {earlier later : List Source}
    (hdistinct : ((earlier ++ source :: later).map Source.id).Nodup)
    (hsources : ∀ other ∈ earlier ++ source :: later, other ∈ d.store.ingestion.db.sources) :
    NewRun source.id d.store.ingestion
        (d.scheduleSources u faults now (earlier ++ source :: later)).1.store.ingestion ↔
      (∀ other ∈ earlier, ¬Aborts u faults now d other) ∧
        isDue u (d.schedules source.id) now = .ok true ∧ (faults source.id).LetsStart ∧
        Startable d.store.ingestion source now := by
  rcases scheduleSources_turn u faults now hdistinct hsources with
    ⟨⟨other, hearlier, haborts⟩, hfinal⟩ | ⟨hnone, mid, hmid, hsame, hcontinues, hfinal⟩
  · exact iff_of_false hfinal.no_newRun fun h => h.1 other hearlier haborts
  · have hmem : source ∈ mid.store.ingestion.db.sources := by
      rw [hmid.sources]
      exact hsources source (by simp)
    have hturn : NewRun source.id mid.store.ingestion
        (d.scheduleSources u faults now (earlier ++ source :: later)).1.store.ingestion ↔
          NewRun source.id mid.store.ingestion
            (mid.turn u faults now source).1.store.ingestion := by
      constructor
      · rintro ⟨run, hrun, hid, hnew⟩
        exact ⟨run, (hfinal.runs run hid).mp hrun, hid, hnew⟩
      · rintro ⟨run, hrun, hid, hnew⟩
        exact ⟨run, hfinal.grows run hrun, hid, hnew⟩
    rw [hsame.newRun_iff ((turn_continues hmem).trans hcontinues).runs, hturn,
      turn_newRun_iff hmem, hmid.schedules, hsame.startable_iff]
    exact (and_iff_right hnone).symm

theorem isDue_iff {schedule : SourceSchedule} {seconds : Nat}
    (henabled : schedule.enabled = true)
    (hinterval : intervalSeconds u schedule.schedule = some seconds) :
    isDue u schedule now = .ok true ↔ ∀ last, schedule.lastSuccessAt = some last →
      last + timedeltaSeconds seconds ≤ now ∧ last + timedeltaSeconds seconds ≤ datetimeMax := by
  simp only [isDue, hinterval, henabled, if_true]
  split
  next hnone => simp [hnone]
  next last hsome =>
    simp only [hsome, Option.some.injEq, forall_eq']
    split
    next hlate =>
      refine iff_of_false (by simp) fun h => ?_
      exact absurd h.2 (Nat.not_le_of_lt hlate)
    next hin =>
      simp [Nat.le_of_not_lt hin]

end Tick

section System

variable {lib : Stdlib} {first : FirstRow Job} {u : Decimals} {d₀ d : Deployment}
  {calls : List (Call SystemEvent Deployment)} {source : Source} {seconds : Nat}

theorem executeRun_sources (s : RunStore) (clients : Nat → AsyncClient) (redis : Bool) (now : Time)
    (call : RunCall) : (executeRun lib first clients redis now s call).1.ingestion.db.sources =
      s.ingestion.db.sources := by
  have hunlock : ∀ s' : RunStore, (s'.unlock redis call).ingestion.db = s'.ingestion.db := by
    intro s'
    unfold RunStore.unlock
    split <;> rfl
  unfold executeRun
  split
  next => rfl
  next kind _ =>
    dsimp only
    rw [hunlock]
    rcases s.handleError_storeFetched lib first now call (collectRun lib clients kind call.config)
      with hkept | ⟨run, report, _, hdb⟩
    · rw [hkept]
    · rw [hdb]
      rfl

theorem handle_keeps (d : Deployment) (event : SystemEvent) :
    (d.handle lib first u event).schedules = d.schedules ∧
      (d.handle lib first u event).store.ingestion.db.sources = d.store.ingestion.db.sources := by
  cases event with
  | tick faults now =>
    have htick : Continues d (d.scheduleDueSources u faults now).1 :=
      scheduleSources_continues fun source h => (List.mem_filter.mp h).1
    exact ⟨htick.schedules, htick.sources⟩
  | work delivery =>
    refine ⟨rfl, ?_⟩
    simp only [Deployment.handle]
    cases hsource : d.store.ingestion.db.get delivery.sourceId with
    | none => rw [deliver_skipped hsource]
    | some source =>
      rw [deliver_executed hsource]
      exact executeRun_sources _ _ _ _ _

/-- The tick comes to the source: no source before it, in the order of the query, ends the tick. -/
def ComesTo (u : Decimals) (faults : Uuid → TurnFaults) (now : Time) (d : Deployment)
    (source : Source) : Prop :=
  ∀ earlier later, d.enabledSources = earlier ++ source :: later →
    ∀ other ∈ earlier, ¬Aborts u faults now d other

/-- A tick starts a run of an enabled source with an interval exactly when it comes to the source,
the stored last success is long enough ago and not too late to tell, and the run may start. -/
theorem startsRun_iff (hsource : source ∈ d.store.ingestion.db.sources)
    (henabled : (d.schedules source.id).enabled = true)
    (hinterval : intervalSeconds u (d.schedules source.id).schedule = some seconds)
    (event : SystemEvent) : StartsRun u source.id ⟨d, event⟩ ↔
      ∃ faults now, event = .tick faults now ∧ ComesTo u faults now d source ∧
        (∀ last, (d.schedules source.id).lastSuccessAt = some last →
          last + timedeltaSeconds seconds ≤ now ∧
            last + timedeltaSeconds seconds ≤ datetimeMax) ∧
        (faults source.id).LetsStart ∧ Startable d.store.ingestion source now := by
  have hmem : source ∈ d.enabledSources := List.mem_filter.mpr ⟨hsource, henabled⟩
  have hsources : ∀ other ∈ d.enabledSources, other ∈ d.store.ingestion.db.sources :=
    fun other h => (List.mem_filter.mp h).1
  have hdistinct : (d.enabledSources.map Source.id).Nodup :=
    d.store.ingestion.db.sources.unique.sublist (List.filter_sublist.map Source.id)
  obtain ⟨earlier, later, hlist⟩ := List.append_of_mem hmem
  -- the source stands once in the list, so there is one list of sources before it
  have hcomes : ∀ faults now, ComesTo u faults now d source ↔
      ∀ other ∈ earlier, ¬Aborts u faults now d other := by
    intro faults now
    refine ⟨fun h => h earlier later hlist, fun h earlier' later' hlist' => ?_⟩
    have hnodup : (earlier ++ source :: later).Nodup := hlist ▸ hdistinct.of_map
    have honce : source ∉ earlier ++ later := (List.nodup_middle.mp hnodup).notMem
    rw [hlist, List.append_cons_inj_of_notMem (fun hin => honce (List.mem_append_left _ hin))
      fun hin => honce (List.mem_append_right _ hin)] at hlist'
    obtain ⟨rfl, -⟩ := hlist'
    exact h
  have hnew : ∀ faults now, NewRun source.id d.store.ingestion
      (d.scheduleDueSources u faults now).1.store.ingestion ↔
        (∀ other ∈ earlier, ¬Aborts u faults now d other) ∧
          isDue u (d.schedules source.id) now = .ok true ∧ (faults source.id).LetsStart ∧
          Startable d.store.ingestion source now := by
    intro faults now
    rw [hlist] at hdistinct hsources
    rw [Deployment.scheduleDueSources, hlist]
    exact scheduleSources_newRun_iff hdistinct hsources
  have hinserted : ∀ faults now,
      (∃ run ∈ (d.scheduleDueSources u faults now).1.store.ingestion.db.runs,
        run.sourceId = source.id ∧ d.store.getRun run.id = none) ↔
      NewRun source.id d.store.ingestion
        (d.scheduleDueSources u faults now).1.store.ingestion := by
    intro faults now
    simp only [NewRun, RunStore.getRun, IngestionDb.getRun, Table.find_eq_none_iff]
  simp only [StartsRun, hinserted, hnew, isDue_iff henabled hinterval, hcomes]

theorem run_keeps (run : Run (Deployment.handle lib first u) d₀ calls d) :
    ∀ c ∈ calls, c.before.schedules = d₀.schedules ∧
      c.before.store.ingestion.db.sources = d₀.store.ingestion.db.sources :=
  Run.always_before
    (I := fun d : Deployment => d.schedules = d₀.schedules ∧
      d.store.ingestion.db.sources = d₀.store.ingestion.db.sources) ⟨rfl, rfl⟩
    (fun d event h => ⟨(handle_keeps d event).1.trans h.1, (handle_keeps d event).2.trans h.2⟩)
    run

/-- No tick in the interval after a success of the source starts another run of it. -/
def CadenceKept (lib : Stdlib) (first : FirstRow Job) (u : Decimals) (sourceId : Uuid)
    (seconds : Nat) (calls : List (Call SystemEvent Deployment)) : Prop :=
  ∀ finish ∈ calls, ∀ tick ∈ calls, Succeeds lib first sourceId finish →
    finish.call.now < tick.call.now →
    tick.call.now < finish.call.now + timedeltaSeconds seconds → ¬StartsRun u sourceId tick

/-- A tick holds the source back: by the last success stored for it, which is the one the
deployment had at the start, because a run of it cannot start or a statement before the insert
raises, or because the tick ends before it comes to the source. -/
def HeldBack (u : Decimals) (d₀ : Deployment) (source : Source) (seconds : Nat)
    (faults : Uuid → TurnFaults) (now : Time) (before : Deployment) : Prop :=
  (∃ last, (d₀.schedules source.id).lastSuccessAt = some last ∧
    (now < last + timedeltaSeconds seconds ∨ datetimeMax < last + timedeltaSeconds seconds)) ∨
  ¬Startable before.store.ingestion source now ∨ ¬(faults source.id).LetsStart ∨
  ¬ComesTo u faults now before source

/-- The cadence is kept exactly when every tick in the interval after a success holds the source
back. -/
theorem cadence_kept_iff (hsource : source ∈ d₀.store.ingestion.db.sources)
    (henabled : (d₀.schedules source.id).enabled = true)
    (hinterval : intervalSeconds u (d₀.schedules source.id).schedule = some seconds)
    (run : Run (Deployment.handle lib first u) d₀ calls d) :
    CadenceKept lib first u source.id seconds calls ↔
      ∀ finish ∈ calls, ∀ tick ∈ calls, ∀ faults now, tick.call = .tick faults now →
        Succeeds lib first source.id finish → finish.call.now < now →
        now < finish.call.now + timedeltaSeconds seconds →
        HeldBack u d₀ source seconds faults now tick.before := by
  have hstarts : ∀ tick ∈ calls, StartsRun u source.id tick ↔ ∃ faults now,
      tick.call = .tick faults now ∧ ¬HeldBack u d₀ source seconds faults now tick.before := by
    intro tick htick
    obtain ⟨hschedules, hsources⟩ := run_keeps run tick htick
    rw [← hschedules] at henabled hinterval
    rw [← hsources] at hsource
    rw [show tick = ⟨tick.before, tick.call⟩ from rfl, startsRun_iff hsource henabled hinterval]
    have hheld : ∀ faults now, ¬HeldBack u d₀ source seconds faults now tick.before ↔
        ComesTo u faults now tick.before source ∧
        (∀ last, (d₀.schedules source.id).lastSuccessAt = some last →
          last + timedeltaSeconds seconds ≤ now ∧
            last + timedeltaSeconds seconds ≤ datetimeMax) ∧
        (faults source.id).LetsStart ∧ Startable tick.before.store.ingestion source now := by
      intro faults now
      simp only [HeldBack, not_or, not_not, not_exists, not_and, Nat.not_lt]
      tauto
    simp only [hheld, hschedules]
  constructor
  · intro hkept finish hfinish tick htick faults now hnow hsucceeds hafter hwithin
    by_contra hheld
    have htime : tick.call.now = now := by rw [hnow]; rfl
    refine hkept finish hfinish tick htick hsucceeds ?_ ?_
      ((hstarts tick htick).mpr ⟨faults, now, hnow, hheld⟩)
    · rwa [htime]
    · rwa [htime]
  · intro hheld finish hfinish tick htick hsucceeds hafter hwithin hstart
    obtain ⟨faults, now, hnow, hopen⟩ := (hstarts tick htick).mp hstart
    have htime : tick.call.now = now := by rw [hnow]; rfl
    rw [htime] at hafter hwithin
    exact hopen (hheld finish hfinish tick htick faults now hnow hsucceeds hafter hwithin)

end System

/-- Source 1 is to be read once a minute, and its first run is under way. -/
def acmeScheduled (lastSuccessAt : Option Time) : Deployment where
  store := acmeStore
  schedules _ := { schedule := some (text "interval:60"), lastSuccessAt := lastSuccessAt }

def acmeListing : HttpReply :=
  .response 200 none (some (.obj [(text "jobs", .arr [.obj [(text "id", .int 1),
    (text "title", .str (text "Backend")), (text "absolute_url", .str (text "https://apply"))]])]))

/-- The run succeeds at five seconds, and a tick comes at six. -/
def acmeMinute (lastSuccessAt : Option Time) : List (Call SystemEvent Deployment) × Deployment :=
  runAll (Deployment.handle emptyTextLib .head .ascii) [] (acmeScheduled lastSuccessAt)
    [.work (acmeDelivery 5000000 acmeListing), .tick (fun _ => {}) 6000000]

theorem tick_starts_early :
    Run (Deployment.handle emptyTextLib .head .ascii) (acmeScheduled none) (acmeMinute none).1
      (acmeMinute none).2 ∧
    ¬CadenceKept emptyTextLib .head .ascii 1 60 (acmeMinute none).1 := by
  refine ⟨run_runAll .start _, ?_⟩
  intro hkept
  refine hkept _ (List.mem_cons_of_mem _ (List.mem_cons_self ..)) _ (List.mem_cons_self ..)
    ⟨_, _, rfl, rfl, rfl, by decide, by decide⟩ (by decide) (by decide) ⟨_, _, rfl, ?_⟩
  decide

/-- A deployment that had that success stored would wait. -/
theorem acmeMinute_kept :
    CadenceKept emptyTextLib .head .ascii 1 60 (acmeMinute (some 5000000)).1 := by
  have hacme : (⟨1, 7, "greenhouse", text "Acme", [(text "board", .str (text "acme"))]⟩ : Source) ∈
      (acmeScheduled (some 5000000)).store.ingestion.db.sources := List.mem_singleton.mpr rfl
  refine (cadence_kept_iff hacme rfl (by decide) (run_runAll .start _)).mpr ?_
  intro finish _ tick htick faults now hnow _ _ _
  refine Or.inl ⟨5000000, rfl, Or.inl ?_⟩
  rcases List.mem_pair.mp htick with rfl | rfl
  · cases hnow
    decide
  · cases hnow

end JobRadar
