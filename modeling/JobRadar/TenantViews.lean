import JobRadar.UserViews

namespace JobRadar

open Database Http Python

namespace ApiState

variable {s : ApiState} {userId other : Uuid}

section Sources

variable {source : Source} {sources : Table Source.id}

theorem sourceOf_insert (h : s.radar.sources.insert source = some sources) {sourceId : Uuid} :
    ({ s.radar with sources := sources } : RadarDb).sourceOf userId sourceId ↔
      s.radar.sourceOf userId sourceId ∨ source.userId = userId ∧ sourceId = source.id := by
  constructor
  · rintro ⟨row, hrow, huser, hid⟩
    rcases (Table.mem_of_insert h).mp hrow with hrow | rfl
    · exact Or.inl ⟨row, hrow, huser, hid⟩
    · exact Or.inr ⟨huser, hid⟩
  · rintro (⟨row, hrow, huser, hid⟩ | ⟨huser, hid⟩)
    · exact ⟨row, (Table.mem_of_insert h).mpr (Or.inl hrow), huser, hid⟩
    · exact ⟨source, (Table.mem_of_insert h).mpr (Or.inr rfl), huser, hid⟩

/-- A source that nothing cites yet shows in the table of the sources, and by its schedule. -/
theorem part_insert (h : s.radar.sources.insert source = some sources)
    (hrecords : ∀ r ∈ s.radar.jobs.records, r.sourceId ≠ source.id)
    (hruns : ∀ run ∈ s.runs, run.sourceId ≠ source.id) (auth : AuthDb) (schedule : SourceSchedule)
    (userId : Uuid) :
    ({ s with
        auth := auth
        radar := { s.radar with sources := sources }
        schedules := Function.update s.schedules source.id schedule } : ApiState).part userId =
      { s.part userId with
        auth := auth.ofUser userId
        radar := { (s.part userId).radar with
          sources := sources.select (·.userId = userId) }
        schedules := if source.userId = userId then
            Function.update (s.part userId).schedules source.id schedule
          else (s.part userId).schedules } := by
  have hjobs : s.radar.jobs.only (({ s.radar with sources := sources } : RadarDb).sourceOf userId) =
      s.radar.jobs.only (s.radar.sourceOf userId) := by
    unfold JobStore.only
    congr 1
    apply List.filter_congr
    intro r hr
    simp [sourceOf_insert h, hrecords r hr]
  have hrunRows : s.runs.select (fun run =>
      ({ s.radar with sources := sources } : RadarDb).sourceOf userId run.sourceId) =
        s.runs.select fun run => s.radar.sourceOf userId run.sourceId :=
    Table.select_congr fun run hrun => by simp [sourceOf_insert h, hruns run hrun]
  have hnew : ¬s.radar.sourceOf userId source.id := by
    rintro ⟨row, hrow, -, hid⟩
    exact Table.key_ne_of_insert h hrow hid.symm
  have hschedules : (fun id =>
      if ({ s.radar with sources := sources } : RadarDb).sourceOf userId id then
        Function.update s.schedules source.id schedule id else {}) =
      if source.userId = userId then
        Function.update (s.part userId).schedules source.id schedule
      else (s.part userId).schedules := by
    funext id
    by_cases hid : id = source.id
    · subst hid
      by_cases huser : source.userId = userId
      · simp [sourceOf_insert h, huser]
      · simp [sourceOf_insert h, huser, hnew, part]
    · by_cases huser : source.userId = userId
      · simp [sourceOf_insert h, huser, hid, part]
      · simp [sourceOf_insert h, huser, hid, part]
  simp only [part, RadarDb.ofUser, hjobs, hrunRows]
  rw [hschedules]
  rfl

end Sources

section Actions

variable {ctx : ApiContext}

theorem sourceRow_some {sourceId : Uuid} {input : SourceInput} {source : Source}
    {schedule : SourceSchedule} (h : sourceRow userId sourceId input = some (source, schedule)) :
    source.id = sourceId ∧ source.userId = userId := by
  simp only [sourceRow, Option.bind_eq_bind, Option.bind_eq_some_iff] at h
  obtain ⟨name, -, column, -, hrow⟩ := h
  split at hrow
  next =>
    cases hrow
    exact ⟨rfl, rfl⟩
  next => cases hrow

/-- A call of the user is answered from the part and comes to the same there; here as long as
nothing refers to the new id. -/
theorem createSource_own {sourceId : Uuid} (hfresh : s.radar.sources.find sourceId = none)
    (hrecords : ∀ r ∈ s.radar.jobs.records, r.sourceId ≠ sourceId)
    (hruns : ∀ run ∈ s.runs, run.sourceId ≠ sourceId) (input : SourceInput) :
    (s.part userId).createSource userId sourceId input =
      ((s.createSource userId sourceId input).1.part userId,
        (s.createSource userId sourceId input).2) := by
  unfold createSource
  cases hrow : sourceRow userId sourceId input with
  | none => rfl
  | some row =>
    obtain ⟨source, schedule⟩ := row
    obtain ⟨hid, huser⟩ := sourceRow_some hrow
    subst hid
    obtain ⟨sources, hinsert⟩ := Table.insert_isSome_of_fresh (t := s.radar.sources) (r := source)
      (Table.find_eq_none_iff.mp hfresh)
    have hview : (s.part userId).radar.sources.insert source =
        some (sources.select (·.userId = userId)) := Table.insert_select hinsert huser
    have hpart := part_insert hinsert hrecords hruns (s.auth.ensureUser userId) schedule userId
    rw [if_pos huser] at hpart
    have hauth : (s.part userId).auth.ensureUser userId =
        (s.auth.ensureUser userId).ofUser userId := AuthDb.ensureUser_ofUser
    simp only [hinsert, hview, withUser, hpart, hauth]

/-- In the part of another user only the shared rows of the call show. -/
theorem createSource_other {sourceId : Uuid}
    (hrecords : ∀ r ∈ s.radar.jobs.records, r.sourceId ≠ sourceId)
    (hruns : ∀ run ∈ s.runs, run.sourceId ≠ sourceId) (input : SourceInput)
    (hother : other ≠ userId) :
    (s.createSource userId sourceId input).1.part other =
      (s.createSource userId sourceId input).1.share (s.part other) := by
  unfold createSource
  cases hrow : sourceRow userId sourceId input with
  | none => rfl
  | some row =>
    obtain ⟨source, schedule⟩ := row
    obtain ⟨hid, huser⟩ := sourceRow_some hrow
    subst hid
    dsimp only
    cases hinsert : s.radar.sources.insert source with
    | none => rfl
    | some sources =>
      have hne : ¬source.userId = other := fun h => hother (h.symm.trans huser)
      have hview : sources.select (·.userId = other) = s.radar.sources.select (·.userId = other) :=
        Table.select_insert hinsert hne
      have hpart := part_insert hinsert hrecords hruns (s.auth.ensureUser userId) schedule other
      rw [if_neg hne, AuthDb.ensureUser_other hother, hview] at hpart
      simp only [withUser, hpart, share, AuthDb.ensureUser_roles]
      rfl

theorem listSources_own : (s.part userId).listSources userId = s.listSources userId := by
  unfold listSources
  have hrows : (s.part userId).radar.sources.rows.filter (fun source => source.userId = userId) =
      s.radar.sources.rows.filter fun source => source.userId = userId :=
    Table.filter_select fun source _ huser => huser
  rw [hrows]
  apply List.map_congr_left
  intro source hsource
  obtain ⟨hmem, huser⟩ := List.mem_filter.mp hsource
  have hown := (RadarDb.sourceOf_source hmem).mpr (of_decide_eq_true huser)
  simp only [sourceResponse, part, if_pos hown]

theorem getRun_own (runId : Uuid) :
    (s.part userId).getRun userId runId = s.getRun userId runId := by
  unfold getRun
  have hrun : (s.part userId).runs.find runId =
      (s.runs.find runId).filter fun run => s.radar.sourceOf userId run.sourceId :=
    Table.find_select ..
  rw [hrun, Option.filter_filter]
  congr 1
  funext run
  have hview : (s.part userId).radar.sourceOf userId run.sourceId ↔
      s.radar.sourceOf userId run.sourceId := RadarDb.sourceOf_ofUser
  by_cases hown : s.radar.sourceOf userId run.sourceId <;> simp [hview, hown]

/-- The key of the new run and its lock are the same, seen from the part. -/
theorem runSource_own {runId : Uuid} (hfresh : s.runs.find runId = none) (sourceId : Uuid)
    (now : Time) : (s.part userId).runSource userId sourceId runId now =
      ((s.runSource userId sourceId runId now).1.part userId,
        (s.runSource userId sourceId runId now).2) := by
  unfold runSource startRun
  have hsource : (s.part userId).ingestion.db.requested sourceId (some userId) =
      s.ingestion.db.requested sourceId (some userId) := by
    change Option.filter _ ((s.radar.sources.select _).find sourceId) =
      (s.radar.sources.find sourceId).filter _
    rw [Table.find_select, Option.filter_filter]
    simp
  rw [hsource]
  cases hfound : s.ingestion.db.requested sourceId (some userId) with
  | none => rfl
  | some source =>
    obtain ⟨hmem, huser⟩ := Option.filter_eq_some_iff.mp hfound
    have hown : s.radar.sourceOf userId sourceId :=
      RadarDb.sourceOf_find.mpr ⟨source, hmem, of_decide_eq_true huser⟩
    have hactive : (s.part userId).ingestion.db.getActiveRun sourceId =
        s.ingestion.db.getActiveRun sourceId := by
      unfold IngestionDb.getActiveRun
      have hrows : (s.part userId).runs.rows.filter (fun run => run.Active sourceId) =
          s.runs.rows.filter fun run => run.Active sourceId :=
        Table.filter_select fun run _ hrun => hrun.1 ▸ hown
      exact congrArg _ hrows
    by_cases hkind : source.kind ∉ getIngestionService.adapters
    · simp only [if_pos hkind]
      rfl
    · simp only [if_neg hkind, hactive]
      cases s.ingestion.db.getActiveRun sourceId with
      | some run => rfl
      | none =>
        obtain ⟨runs, hinsert⟩ := Table.insert_isSome_of_fresh (t := s.runs)
          (r := ({ id := runId, sourceId := sourceId, startedAt := now } : IngestionRun))
          (Table.find_eq_none_iff.mp hfresh)
        have hview : (s.part userId).runs.insert
            { id := runId, sourceId := sourceId, startedAt := now } =
              some (runs.select fun run => s.radar.sourceOf userId run.sourceId) :=
          Table.insert_select hinsert hown
        have hserver : getIngestionService.redis = false := rfl
        simp only [hserver, Bool.false_eq_true, if_false, IngestionStore.insertRun,
          IngestionDb.createRun, ingestion, hinsert, hview]
        rfl

/-- A run is started at most for a source of the user. -/
theorem runSource_runs (s : ApiState) (userId sourceId runId : Uuid) (now : Time) : ∃ runs,
    (s.runSource userId sourceId runId now).1 = { s with runs := runs } ∧
      (runs = s.runs ∨ s.radar.sourceOf userId sourceId ∧
        s.runs.insert { id := runId, sourceId := sourceId, startedAt := now } = some runs) := by
  unfold runSource startRun
  cases hfound : s.ingestion.db.requested sourceId (some userId) with
  | none => exact ⟨s.runs, rfl, Or.inl rfl⟩
  | some source =>
    obtain ⟨hmem, huser⟩ := Option.filter_eq_some_iff.mp hfound
    have hown : s.radar.sourceOf userId sourceId :=
      RadarDb.sourceOf_find.mpr ⟨source, hmem, of_decide_eq_true huser⟩
    by_cases hkind : source.kind ∉ getIngestionService.adapters
    · simp only [if_pos hkind]
      exact ⟨s.runs, rfl, Or.inl rfl⟩
    · simp only [if_neg hkind]
      cases s.ingestion.db.getActiveRun sourceId with
      | some run => exact ⟨s.runs, rfl, Or.inl rfl⟩
      | none =>
        have hserver : getIngestionService.redis = false := rfl
        simp only [hserver, Bool.false_eq_true, if_false, IngestionStore.insertRun,
          IngestionDb.createRun, ingestion]
        cases hinsert : s.runs.insert { id := runId, sourceId := sourceId, startedAt := now } with
        | none => exact ⟨s.runs, rfl, Or.inl rfl⟩
        | some runs => exact ⟨runs, rfl, Or.inr ⟨hown, rfl⟩⟩

theorem runSource_other (hother : other ≠ userId) (sourceId runId : Uuid) (now : Time) :
    (s.runSource userId sourceId runId now).1.part other =
      (s.runSource userId sourceId runId now).1.share (s.part other) := by
  obtain ⟨runs, hs', hruns⟩ := s.runSource_runs userId sourceId runId now
  have hview : runs.select (fun run => s.radar.sourceOf other run.sourceId) =
      s.runs.select fun run => s.radar.sourceOf other run.sourceId := by
    rcases hruns with rfl | ⟨hown, hinsert⟩
    · rfl
    · exact Table.select_insert hinsert (RadarDb.not_sourceOf_other hother hown)
  rw [hs']
  simp only [part, share, hview]
  rfl

theorem updatePreferences_own {profileId : Uuid} (hfresh : s.radar.profiles.find profileId = none)
    (config : PreferenceInput) :
    (s.part userId).updatePreferences userId profileId config =
      ((s.updatePreferences userId profileId config).1.part userId,
        (s.updatePreferences userId profileId config).2) := by
  have hview : (s.part userId).radar.profiles.find profileId = none := by
    change (s.radar.profiles.select _).find profileId = none
    rw [Table.find_select, hfresh]
    rfl
  have hauth : (s.part userId).auth.ensureUser userId =
      (s.auth.ensureUser userId).ofUser userId := AuthDb.ensureUser_ofUser
  have hradar : (s.part userId).radar.updatePreferences userId profileId config =
      (s.radar.updatePreferences userId profileId config).ofUser userId :=
    RadarDb.updatePreferences_ofUser hfresh config
  have hversion : (s.part userId).radar.latestVersion userId = s.radar.latestVersion userId :=
    RadarDb.latestVersion_ofUser
  obtain ⟨profiles, hprofiles⟩ := RadarDb.updatePreferences_frame s.radar userId profileId config
  unfold updatePreferences
  simp only [hfresh, hview, withUser, hauth, hradar, hversion]
  rw [hprofiles]
  rfl

theorem updatePreferences_other (hother : other ≠ userId) (profileId : Uuid)
    (config : PreferenceInput) :
    (s.updatePreferences userId profileId config).1.part other =
      (s.updatePreferences userId profileId config).1.share (s.part other) := by
  unfold updatePreferences
  cases s.radar.profiles.find profileId with
  | some _ => rfl
  | none =>
    have hradar := s.radar.updatePreferences_other hother profileId config
    obtain ⟨profiles, hprofiles⟩ := RadarDb.updatePreferences_frame s.radar userId profileId config
    simp only [part, share, withUser, AuthDb.ensureUser_other hother, hradar,
      AuthDb.ensureUser_roles]
    rw [hprofiles]
    rfl

theorem getActive_own : (s.part userId).getActive userId = s.getActive userId := by
  have hactive : (s.part userId).radar.getActiveProfile userId = s.radar.getActiveProfile userId :=
    RadarDb.getActiveProfile_ofUser
  unfold getActive
  rw [hactive]

theorem listJobs_own (filters : JobFilters) (page pageSize : Nat) :
    (s.part userId).listJobs ctx userId filters page pageSize =
      s.listJobs ctx userId filters page pageSize := by
  have hvisible : ∀ jobId, (s.part userId).catalog.visible userId jobId =
      s.catalog.visible userId jobId := RadarDb.visible_ofUser
  have hrows : (s.part userId).catalog.queryRows ctx.sql ctx.lib.casefold userId filters =
      s.catalog.queryRows ctx.sql ctx.lib.casefold userId filters := by
    unfold JobCatalog.queryRows
    simp only [hvisible]
    rfl
  unfold listJobs JobCatalog.list
  rw [hrows]
  rfl

theorem getJob_own (jobId : Uuid) :
    (s.part userId).getJob ctx userId jobId = s.getJob ctx userId jobId := by
  have hdetail : (s.part userId).radar.detail ctx.firstMatch userId jobId =
      s.radar.detail ctx.firstMatch userId jobId := RadarDb.detail_ofUser ..
  unfold getJob
  rw [hdetail]
  rfl

theorem getMatch_own (jobId : Uuid) :
    (s.part userId).getMatch ctx userId jobId = s.getMatch ctx userId jobId := by
  have hmatch : (s.part userId).radar.latestMatch ctx.firstMatch userId jobId =
      s.radar.latestMatch ctx.firstMatch userId jobId := RadarDb.latestMatch_ofUser ..
  unfold getMatch
  rw [hmatch]

theorem matchJob_own (matchId jobId : Uuid) (now : Time) :
    (s.part userId).matchJob ctx userId matchId jobId now =
      ((s.matchJob ctx userId matchId jobId now).1.part userId,
        (s.matchJob ctx userId matchId jobId now).2) := by
  have hradar : (s.part userId).radar.matchJob ctx.lib.casefold matchId jobId userId now = _ :=
    RadarDb.matchJob_ofUser ctx.lib.casefold matchId jobId now
  obtain ⟨results, hresults⟩ := RadarDb.matchJob_frame s.radar ctx.lib.casefold matchId jobId
    userId now
  unfold matchJob
  rw [hradar]
  simp only [hresults]
  rfl

theorem matchJob_other (matchId jobId : Uuid) (now : Time) :
    (s.matchJob ctx userId matchId jobId now).1.part other =
      (s.matchJob ctx userId matchId jobId now).1.share (s.part other) := by
  obtain ⟨results, hresults⟩ := RadarDb.matchJob_frame s.radar ctx.lib.casefold matchId jobId
    userId now
  unfold matchJob
  simp only [hresults]
  rfl

theorem saveFeedback_own (jobId : Uuid) (label : FeedbackLabel) (note : Option Text) :
    (s.part userId).saveFeedback userId jobId label note =
      ((s.saveFeedback userId jobId label note).1.part userId,
        (s.saveFeedback userId jobId label note).2) := by
  have hradar : (s.part userId).radar.saveFeedback userId jobId label note = _ :=
    RadarDb.saveFeedback_ofUser jobId label note
  obtain ⟨feedback, hfeedback⟩ := RadarDb.saveFeedback_frame s.radar userId jobId label note
  unfold saveFeedback
  rw [hradar]
  rcases hresult : s.radar.saveFeedback userId jobId label note with ⟨radar, e | saved⟩
  · rfl
  · rw [hresult] at hfeedback
    obtain rfl : radar = { s.radar with feedback := feedback } := hfeedback
    dsimp only
    split
    next => rfl
    next => rfl

/-- At most the feedback changes, and there only what is the user's. -/
theorem saveFeedback_feedback (s : ApiState) (userId jobId : Uuid) (label : FeedbackLabel)
    (note : Option Text) : ∃ feedback,
      (s.saveFeedback userId jobId label note).1 =
        { s with radar := { s.radar with feedback := feedback } } ∧
      ∀ other, other ≠ userId →
        ({ s.radar with feedback := feedback } : RadarDb).ofUser other = s.radar.ofUser other := by
  obtain ⟨feedback, hfeedback⟩ := RadarDb.saveFeedback_frame s.radar userId jobId label note
  have hothers : ∀ other, other ≠ userId →
      (s.radar.saveFeedback userId jobId label note).1.ofUser other = s.radar.ofUser other :=
    fun other hother => s.radar.saveFeedback_other hother jobId label note
  unfold saveFeedback
  rcases hresult : s.radar.saveFeedback userId jobId label note with ⟨radar, e | saved⟩
  · exact ⟨s.radar.feedback, rfl, fun _ _ => rfl⟩
  · rw [hresult] at hfeedback hothers
    obtain rfl : radar = { s.radar with feedback := feedback } := hfeedback
    dsimp only
    split
    next => exact ⟨feedback, rfl, hothers⟩
    next => exact ⟨s.radar.feedback, rfl, fun _ _ => rfl⟩

theorem saveFeedback_other (hother : other ≠ userId) (jobId : Uuid) (label : FeedbackLabel)
    (note : Option Text) :
    (s.saveFeedback userId jobId label note).1.part other =
      (s.saveFeedback userId jobId label note).1.share (s.part other) := by
  obtain ⟨feedback, hs', hothers⟩ := s.saveFeedback_feedback userId jobId label note
  rw [hs']
  simp only [part, share, hothers other hother]
  rfl

theorem getDelivery_own (deliveryId : Uuid) :
    (s.part userId).getDelivery userId deliveryId = s.getDelivery userId deliveryId := by
  have hrows : (s.part userId).deliveries.rows.find? (fun delivery =>
      (s.part userId).deliveryIds delivery.toDeliveryKey = deliveryId ∧
        delivery.userId = userId) =
        s.deliveries.rows.find? fun delivery =>
          s.deliveryIds delivery.toDeliveryKey = deliveryId ∧ delivery.userId = userId := by
    change (s.deliveries.rows.filter _).find? _ = _
    rw [List.find?_filter]
    congr 1
    funext delivery
    by_cases huser : delivery.userId = userId
    · simp [huser, part]
    · simp [huser]
  unfold getDelivery
  rw [hrows]

/-- The user's part, as the tables of the ingestion of the user's sources. -/
theorem store_part : (⟨(s.part userId).ingestion, (s.part userId).radar.jobs⟩ : RunStore) =
    RunStore.only (s.radar.sourceOf userId) ⟨s.ingestion, s.radar.jobs⟩ := by
  have hsources : s.radar.sources.select (·.userId = userId) =
      s.radar.sources.select fun source => s.radar.sourceOf userId source.id :=
    Table.select_congr fun source hsource => (RadarDb.sourceOf_source hsource).symm
  simp only [RunStore.only, ingestion, part, RadarDb.ofUser, hsources]

/-- A worker that executes a run of the user needs the user's part alone. -/
theorem work_own {d : Delivery}
    (hsource : ∀ source, s.radar.sources.find d.sourceId = some source → source.userId = userId)
    (hrun : ∀ run, s.runs.find d.runId = some run → run.sourceId = d.sourceId)
    (columns : Uuid → JobColumns) :
    (s.part userId).work ctx d columns = (s.work ctx d columns).part userId := by
  have hstore : RunStore.deliver ctx.lib ctx.firstJob
      (RunStore.only (s.radar.sourceOf userId) ⟨s.ingestion, s.radar.jobs⟩) d =
        (RunStore.deliver ctx.lib ctx.firstJob ⟨s.ingestion, s.radar.jobs⟩ d).only
          (s.radar.sourceOf userId) := by
    cases hfound : s.radar.sources.find d.sourceId with
    | none =>
      have hview : (RunStore.only (s.radar.sourceOf userId)
          ⟨s.ingestion, s.radar.jobs⟩).ingestion.db.get d.sourceId = none := by
        change (s.radar.sources.select _).find d.sourceId = none
        rw [Table.find_select, hfound]
        rfl
      rw [deliver_skipped (s := ⟨s.ingestion, s.radar.jobs⟩) hfound, deliver_skipped hview]
    | some source =>
      have hown : s.radar.sourceOf userId d.sourceId :=
        RadarDb.sourceOf_find.mpr ⟨source, hfound, hsource source hfound⟩
      refine RunStore.deliver_only hown ?_
      intro run hfoundRun
      rwa [hrun run hfoundRun]
  unfold work
  rw [store_part, hstore]
  rfl

/-- Of the execution of another user's run only the jobs themselves show. -/
theorem work_other {d : Delivery} (hother : other ≠ userId)
    (hsource : ∀ source, s.radar.sources.find d.sourceId = some source → source.userId = userId)
    (hrun : ∀ run, s.runs.find d.runId = some run → run.sourceId = d.sourceId)
    (columns : Uuid → JobColumns) :
    (s.work ctx d columns).part other = (s.work ctx d columns).share (s.part other) := by
  have hskip : ¬s.radar.sourceOf other d.sourceId := by
    intro hown
    obtain ⟨source, hfound, huser⟩ := RadarDb.sourceOf_find.mp hown
    exact hother (huser.symm.trans (hsource source hfound))
  obtain ⟨hjobs, -, hruns⟩ := RunStore.deliver_skips (s.radar.sourceOf other) ctx.lib
    ctx.firstJob ⟨s.ingestion, s.radar.jobs⟩ hskip (by
      intro run hfoundRun
      rwa [hrun run hfoundRun])
  unfold work
  generalize RunStore.deliver ctx.lib ctx.firstJob ⟨s.ingestion, s.radar.jobs⟩ d = store
    at hjobs hruns
  change ({ s.part other with
    radar := { (s.part other).radar with jobs := store.jobs.only (s.radar.sourceOf other) }
    runs := store.ingestion.db.runs.select fun run => s.radar.sourceOf other run.sourceId
    columns := columns } : ApiState) = _
  rw [hjobs, hruns]
  rfl

theorem notify_own (key : DeliveryKey) (decision : Decision) (reply : ProviderReply) :
    (s.part key.userId).notify key decision reply =
      ((s.notify key decision reply).1.part key.userId, (s.notify key decision reply).2) := by
  have hview := deliver_only ⟨s.deliveries, []⟩ key decision reply
  have hstore : (⟨(s.part key.userId).deliveries, []⟩ : NotificationStore) =
      NotificationStore.only key.userId ⟨s.deliveries, []⟩ := rfl
  unfold notify
  rw [hstore, hview]
  rfl

theorem notify_other {key : DeliveryKey} (hother : other ≠ key.userId) (decision : Decision)
    (reply : ProviderReply) :
    (s.notify key decision reply).1.part other =
      (s.notify key decision reply).1.share (s.part other) := by
  have hview := deliver_skips (s := ⟨s.deliveries, []⟩) hother decision reply
  unfold notify
  simp only [part, share, hview]
  rfl

theorem deleteMe_own : (s.part userId).deleteMe userId =
    ((s.deleteMe userId).1.part userId, (s.deleteMe userId).2) := by
  have hfound : (s.part userId).toAppDb.auth.user userId = s.auth.user userId :=
    AuthDb.user_ofUser
  unfold deleteMe AppDb.deleteUser
  rw [hfound]
  cases s.auth.user userId with
  | none => rfl
  | some user =>
    have hauth : (s.part userId).auth.deleteUser userId =
        (s.auth.deleteUser userId).ofUser userId :=
      AuthDb.deleteUser_ofUser s.auth
    have hradar : (s.part userId).radar.deleteUser userId =
        (s.radar.deleteUser userId).ofUser userId := RadarDb.deleteUser_ofUser s.radar
    have hruns : (s.part userId).runs.deleteWhere
        (fun run => (s.part userId).radar.sourceOf userId run.sourceId) =
          (s.runs.deleteWhere fun run => s.radar.sourceOf userId run.sourceId).select
            fun run => (s.radar.deleteUser userId).sourceOf userId run.sourceId := by
      rw [Table.select_eq_empty fun run _ => by simp [RadarDb.sourceOf_deleteUser]]
      apply Table.eq_of_rows_eq
      refine List.filter_eq_nil_iff.mpr fun run hrun => ?_
      have hview : (s.part userId).radar.sourceOf userId run.sourceId :=
        RadarDb.sourceOf_ofUser.mpr (Table.mem_select.mp hrun).2
      simp [hview]
    have hdeliveries : (s.part userId).deliveries.deleteWhere (fun delivery =>
        delivery.userId = userId ∨ (s.part userId).radar.profileOf userId delivery.profileId) =
          (s.deliveries.deleteWhere fun delivery =>
            delivery.userId = userId ∨ s.radar.profileOf userId delivery.profileId).select
              (·.userId = userId) := by
      rw [Table.select_deleteWhere]
      exact Table.deleteWhere_congr fun delivery hdelivery => by
        simp [(Table.mem_select.mp hdelivery).2]
    have hschedules : (fun id => if (s.part userId).radar.sourceOf userId id then {}
        else (s.part userId).schedules id) = fun id =>
          if (s.radar.deleteUser userId).sourceOf userId id then
            (if s.radar.sourceOf userId id then {} else s.schedules id) else {} := by
      funext id
      have hview : (s.part userId).radar.sourceOf userId id ↔ s.radar.sourceOf userId id :=
        RadarDb.sourceOf_ofUser
      by_cases hown : s.radar.sourceOf userId id
      · simp [hview, hown, RadarDb.sourceOf_deleteUser]
      · simp [hown, RadarDb.sourceOf_deleteUser, part]
    simp only [AppDb.withoutUser, hauth, hradar, hruns, hdeliveries, hschedules]
    rfl

/-- The deletion of another account: what it takes along is that user's own. -/
theorem deleteMe_other (hother : other ≠ userId) (hown : s.toAppDb.OwnReferences) :
    (s.deleteMe userId).1.part other = (s.deleteMe userId).1.share (s.part other) := by
  unfold deleteMe AppDb.deleteUser
  cases s.auth.user userId with
  | none => rfl
  | some user =>
    have hauth := AuthDb.deleteUser_other hother hown.sessions
    have hradar := s.radar.deleteUser_other hother
    have hruns : (s.runs.deleteWhere fun run => s.radar.sourceOf userId run.sourceId).select
        (fun run => (s.radar.deleteUser userId).sourceOf other run.sourceId) =
          s.runs.select fun run => s.radar.sourceOf other run.sourceId := by
      rw [Table.select_congr (q := fun run => s.radar.sourceOf other run.sourceId)
        fun run _ => by simp [RadarDb.sourceOf_deleteUser, hother]]
      exact Table.select_deleteWhere_of_not fun run _ => RadarDb.not_sourceOf_other (Ne.symm hother)
    have hdeliveries : (s.deliveries.deleteWhere fun delivery =>
        delivery.userId = userId ∨ s.radar.profileOf userId delivery.profileId).select
          (·.userId = other) = s.deliveries.select (·.userId = other) := by
      apply Table.select_deleteWhere_of_not
      rintro delivery hdelivery huser (hdeleted | ⟨profile, hprofile, hdeleted, hid⟩)
      · exact hother (huser.symm.trans hdeleted)
      · have hsame := hown.profiles delivery hdelivery profile hprofile hid
        exact hother (huser.symm.trans (hsame.symm.trans hdeleted))
    have hschedules : (fun id => if (s.radar.deleteUser userId).sourceOf other id then
        (if s.radar.sourceOf userId id then {} else s.schedules id) else {}) =
          fun id => if s.radar.sourceOf other id then s.schedules id else {} := by
      funext id
      by_cases hsource : s.radar.sourceOf other id
      · simp [RadarDb.sourceOf_deleteUser, hother, hsource,
          RadarDb.not_sourceOf_other (Ne.symm hother) hsource]
      · simp [RadarDb.sourceOf_deleteUser, hsource]
    change ({ s.part other with
      auth := (s.auth.deleteUser userId).ofUser other
      radar := (s.radar.deleteUser userId).ofUser other
      runs := (s.runs.deleteWhere fun run => s.radar.sourceOf userId run.sourceId).select
        fun run => (s.radar.deleteUser userId).sourceOf other run.sourceId
      deliveries := (s.deliveries.deleteWhere fun delivery =>
        delivery.userId = userId ∨ s.radar.profileOf userId delivery.profileId).select
          (·.userId = other)
      schedules := fun id => if (s.radar.deleteUser userId).sourceOf other id then
        (if s.radar.sourceOf userId id then {} else s.schedules id) else {} } : ApiState) = _
    rw [hauth, hradar, hruns, hdeliveries, hschedules]
    rfl

end Actions

end ApiState

end JobRadar
