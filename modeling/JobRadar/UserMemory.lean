import JobRadar.Sequence
import JobRadar.TenantIsolation

namespace JobRadar

open Database Http Python Sequence

/-- What a user's calls leave to be found again. -/
structure UserMemory where
  sources : List SourceResponse := []
  preferences : Option PreferenceProfile := none
  feedback : Uuid → Option JobFeedback := fun _ => none

def SourceInput.stored (input : SourceInput) (sourceId : Uuid) : Option SourceResponse := do
  let name ← varcharColumn 255 input.name
  let schedule ← nullable (varcharColumn 128) input.schedule
  some ⟨sourceId, input.kind.literal, name, input.config, schedule, input.enabled⟩

namespace UserMemory

variable (m : UserMemory)

def version : Nat := (m.preferences.map PreferenceProfile.version).getD 0

/-- The profile that an update makes the active one. -/
def updated (userId profileId : Uuid) (config : PreferenceInput) : PreferenceProfile :=
  ⟨profileId, userId, m.version + 1, config, true⟩

/-- A call that is answered with success is remembered. -/
def learn (userId : Uuid) : ApiAction → Except ApiError ApiData → UserMemory
  | .createSource sourceId input, .ok _ =>
    { m with sources := m.sources ++ (input.stored sourceId).toList }
  | .updatePreferences profileId config, .ok _ =>
    { m with preferences := some (m.updated userId profileId config) }
  | .updatePreferencesV2 profileId update, .ok _ =>
    { m with preferences := some (m.updated userId profileId update.preferences) }
  | .saveFeedback jobId label note, .ok _ =>
    { m with feedback := Function.update m.feedback jobId (some ⟨userId, jobId, label, note⟩) }
  | .deleteMe, .ok _ => {}
  | _, _ => m

/-- The answer is what the memory says. The list of the sources is in no particular order. -/
def Agrees (userId : Uuid) : ApiAction → Except ApiError ApiData → Prop
  | .listSources, reply => ∃ sources, reply = .ok (.sources sources) ∧ sources.Perm m.sources
  | .getPreferences, reply =>
    reply = match m.preferences with
      | none => .error (.app .activePreferenceNotFound)
      | some profile => .ok (.preferences (toResponse profile))
  | .getPreferencesV2, reply =>
    reply = match m.preferences with
      | none => .error (.app .activePreferenceNotFound)
      | some profile => .ok (.preferencesV2 (toV2Response profile))
  | .updatePreferences profileId config, reply =>
    reply = .ok (.preferences (toResponse (m.updated userId profileId config)))
  | .updatePreferencesV2 profileId update, reply =>
    reply = .ok (.preferencesV2 (toV2Response (m.updated userId profileId update.preferences)))
  | .getJob jobId, .ok (.job detail _) => detail.feedback = m.feedback jobId
  | _, _ => True

end UserMemory

/-- What an update of the user's preferences makes of a profile that is there. -/
def PreferenceProfile.retired (userId : Uuid) (p : PreferenceProfile) : PreferenceProfile :=
  if p.userId = userId ∧ p.isActive then { p with isActive := false } else p

theorem PreferenceProfile.retired_spec (userId : Uuid) (p : PreferenceProfile) :
    (p.retired userId).id = p.id ∧ (p.retired userId).userId = p.userId ∧
      (p.retired userId).version = p.version ∧
      ¬((p.retired userId).userId = userId ∧ (p.retired userId).isActive) := by
  unfold retired
  split
  next => exact ⟨rfl, rfl, rfl, fun h => Bool.false_ne_true h.2⟩
  next hkept => exact ⟨rfl, rfl, rfl, hkept⟩

theorem RadarDb.getFeedback_key {db : RadarDb} {userId jobId : Uuid} {f : JobFeedback}
    (h : db.getFeedback userId jobId = some f) : f.userId = userId ∧ f.jobId = jobId := by
  have hkey := List.find?_some h
  simpa using hkey

theorem RadarDb.getFeedback_saveFeedback (db : RadarDb) (userId jobId : Uuid)
    (label : FeedbackLabel) (note : Option Text) :
    (db.saveFeedback userId jobId label note).1.getFeedback userId =
      match (db.saveFeedback userId jobId label note).2 with
      | .error _ => db.getFeedback userId
      | .ok _ =>
        Function.update (db.getFeedback userId) jobId (some ⟨userId, jobId, label, note⟩) := by
  let row : JobFeedback := ⟨userId, jobId, label, note⟩
  unfold saveFeedback
  cases db.getJob userId jobId with
  | none => rfl
  | some job =>
    dsimp only
    cases hold : db.getFeedback userId jobId with
    | none =>
      funext other
      change (db.feedback ++ [row]).find? (fun f => f.userId = userId ∧ f.jobId = other) =
        Function.update (db.getFeedback userId) jobId (some row) other
      rw [List.find?_append, List.find?_singleton, Function.update_apply]
      change (db.getFeedback userId other).or _ = _
      by_cases hother : other = jobId
      · subst hother
        simp [hold, row]
      · simp [hother, Ne.symm hother, row]
    | some old =>
      let edit : JobFeedback → JobFeedback := fun f =>
        if f.userId = userId ∧ f.jobId = jobId then row else f
      funext other
      change (db.feedback.map edit).find? (fun f => f.userId = userId ∧ f.jobId = other) =
        Function.update (db.getFeedback userId) jobId (some row) other
      have hkey : (fun f : JobFeedback => decide (f.userId = userId ∧ f.jobId = other)) ∘ edit =
          fun f => decide (f.userId = userId ∧ f.jobId = other) := by
        funext f
        by_cases hf : f.userId = userId ∧ f.jobId = jobId <;> simp [edit, row, hf]
      rw [List.find?_map, hkey, Function.update_apply]
      change (db.getFeedback userId other).map edit = _
      by_cases hother : other = jobId
      · subst hother
        rw [if_pos rfl, hold, Option.map_some]
        exact congrArg some (if_pos (getFeedback_key hold))
      · rw [if_neg hother]
        cases hfound : db.getFeedback userId other with
        | none => rfl
        | some f =>
          have hjob : f.jobId = other := (getFeedback_key hfound).2
          exact congrArg some (if_neg fun h => hother (hjob.symm.trans h.2))

namespace ApiState

/-- The tables hold what the user is to find again. -/
structure Recalls (s : ApiState) (userId : Uuid) (m : UserMemory) : Prop where
  sources : s.listSources userId = m.sources
  preferences : s.radar.getActiveProfile userId = m.preferences
  version : s.radar.latestVersion userId = m.version
  feedback : s.radar.getFeedback userId = m.feedback

variable {ctx : ApiContext} {s s' : ApiState} {userId other : Uuid} {m : UserMemory}

theorem recalls_part : (s.part userId).Recalls userId m ↔ s.Recalls userId m := by
  have hpreferences : (s.part userId).radar.getActiveProfile userId =
      s.radar.getActiveProfile userId := RadarDb.getActiveProfile_ofUser
  have hversion : (s.part userId).radar.latestVersion userId = s.radar.latestVersion userId :=
    RadarDb.latestVersion_ofUser
  have hfeedback : (s.part userId).radar.getFeedback userId = s.radar.getFeedback userId :=
    funext fun jobId => RadarDb.getFeedback_ofUser jobId
  constructor
  · rintro ⟨h₁, h₂, h₃, h₄⟩
    exact ⟨listSources_own ▸ h₁, hpreferences ▸ h₂, hversion ▸ h₃, hfeedback ▸ h₄⟩
  · rintro ⟨h₁, h₂, h₃, h₄⟩
    exact ⟨listSources_own.trans h₁, hpreferences.trans h₂, hversion.trans h₃, hfeedback.trans h₄⟩

theorem Recalls.of_tables (h : s.Recalls userId m) (hsources : s'.radar.sources = s.radar.sources)
    (hschedules : s'.schedules = s.schedules) (hprofiles : s'.radar.profiles = s.radar.profiles)
    (hfeedback : s'.radar.feedback = s.radar.feedback) : s'.Recalls userId m := by
  obtain ⟨h₁, h₂, h₃, h₄⟩ := h
  refine ⟨?_, ?_, ?_, ?_⟩
  · have hresponse : s'.sourceResponse = s.sourceResponse := by
      funext source
      rw [sourceResponse, sourceResponse, hschedules]
    rw [← h₁, listSources, listSources, hsources, hresponse]
  · rw [← h₂, RadarDb.getActiveProfile, RadarDb.getActiveProfile, hprofiles]
  · rw [← h₃, RadarDb.latestVersion, RadarDb.latestVersion, hprofiles]
  · rw [← h₄]
    funext jobId
    rw [RadarDb.getFeedback, RadarDb.getFeedback, hfeedback]

theorem recalls_other {c : ApiCall} (h : s.Recalls other m) (hown : s.toAppDb.OwnReferences)
    (hwf : c.WellFormed s) (hother : other ≠ c.userId) :
    (s.act ctx c.userId c.action).1.Recalls other m := by
  rw [← recalls_part, act_other ctx hown hwf hother]
  exact (recalls_part.mpr h).of_tables rfl rfl rfl rfl

section Sources

variable {sourceId : Uuid} {input : SourceInput}

theorem sourceRow_stored {source : Source} {schedule : SourceSchedule}
    (h : sourceRow userId sourceId input = some (source, schedule)) :
    input.stored sourceId =
      some ⟨source.id, source.kind, source.name, source.config, schedule.schedule,
        schedule.enabled⟩ := by
  unfold sourceRow at h
  unfold SourceInput.stored
  cases hname : varcharColumn 255 input.name with
  | none => simp [hname] at h
  | some name =>
    cases hschedule : nullable (varcharColumn 128) input.schedule with
    | none => simp [hname, hschedule] at h
    | some column =>
      simp only [hname, hschedule, Option.bind_eq_bind, Option.bind_some] at h ⊢
      split at h
      next =>
        cases h
        rfl
      next => cases h

theorem createSource_recalls (h : s.Recalls userId m) :
    (s.createSource userId sourceId input).1.Recalls userId
      (m.learn userId (.createSource sourceId input)
        (s.createSource userId sourceId input).2) := by
  unfold createSource
  cases hrow : sourceRow userId sourceId input with
  | none => exact h
  | some row =>
    obtain ⟨source, schedule⟩ := row
    obtain ⟨rfl, rfl⟩ := sourceRow_some hrow
    dsimp only
    cases hinsert : s.radar.sources.insert source with
    | none => exact h
    | some sources =>
      refine ⟨?_, h.preferences, h.version, h.feedback⟩
      have hold : ∀ old ∈ s.radar.sources.rows.filter fun old => old.userId = source.userId,
          Function.update s.schedules source.id schedule old.id = s.schedules old.id := by
        intro old hmem
        exact Function.update_of_ne (Table.key_ne_of_insert hinsert (List.mem_filter.mp hmem).1) _ _
      simp only [UserMemory.learn, sourceRow_stored hrow, Option.toList_some, ← h.sources,
        listSources, Table.rows_of_insert hinsert, List.filter_append, List.map_append]
      congr 1
      · refine List.map_congr_left fun old hmem => ?_
        simp only [sourceResponse, hold old hmem]
      · simp [sourceResponse]

end Sources

section Preferences

variable {profileId : Uuid}

theorem updatePreferences_fresh (s : ApiState) (userId : Uuid)
    (hfresh : s.radar.profiles.find profileId = none) (config : PreferenceInput) : ∃ profiles,
      profiles.rows = s.radar.profiles.rows.map (PreferenceProfile.retired userId) ++
        [⟨profileId, userId, s.radar.latestVersion userId + 1, config, true⟩] ∧
      s.updatePreferences userId profileId config =
        ({ s.withUser userId with radar := { s.radar with profiles := profiles } },
          .ok ⟨profileId, userId, s.radar.latestVersion userId + 1, config, true⟩) := by
  obtain ⟨profiles, hinsert⟩ := Table.insert_isSome_of_fresh
    (t := s.radar.profiles.updateWhere (fun p => p.userId = userId ∧ p.isActive)
      (fun p => { p with isActive := false }) fun _ => rfl)
    (r := ⟨profileId, userId, s.radar.latestVersion userId + 1, config, true⟩) (by
      intro old ho
      obtain ⟨row, hrow, rfl⟩ := (Table.mem_updateWhere
        (f := fun p : PreferenceProfile => { p with isActive := false }) fun _ => rfl).mp ho
      have hid : (row.retired userId).id = row.id := (PreferenceProfile.retired_spec userId row).1
      exact fun h => Table.find_eq_none_iff.mp hfresh row hrow (hid.symm.trans h))
  refine ⟨profiles, Table.rows_of_insert hinsert, ?_⟩
  simp only [updatePreferences, hfresh, RadarDb.updatePreferences, hinsert]

theorem updatePreferences_recalls (h : s.Recalls userId m)
    (hfresh : s.radar.profiles.find profileId = none) (config : PreferenceInput) :
    (s.updatePreferences userId profileId config).1.Recalls userId
        { m with preferences := some (m.updated userId profileId config) } ∧
      (s.updatePreferences userId profileId config).2 =
        .ok (m.updated userId profileId config) := by
  obtain ⟨profiles, hrows, hupdate⟩ := updatePreferences_fresh s userId hfresh config
  have hversion := h.version
  rw [hversion] at hrows hupdate
  rw [hupdate]
  refine ⟨⟨h.sources, ?_, ?_, h.feedback⟩, rfl⟩
  · have hretired : (s.radar.profiles.rows.map (PreferenceProfile.retired userId)).find?
        (fun p => p.userId = userId ∧ p.isActive) = none := by
      rw [List.find?_eq_none]
      intro p hp
      obtain ⟨old, -, rfl⟩ := List.mem_map.mp hp
      have hkept := (PreferenceProfile.retired_spec userId old).2.2.2
      exact fun hactive => hkept (of_decide_eq_true hactive)
    change profiles.rows.find? _ = _
    rw [hrows, List.find?_append, hretired, Option.none_or, List.find?_singleton]
    simp [UserMemory.updated]
  · have hkept : ((s.radar.profiles.rows.map (PreferenceProfile.retired userId)).filter
          fun p => p.userId = userId).map PreferenceProfile.version =
        (s.radar.profiles.rows.filter fun p => p.userId = userId).map
          PreferenceProfile.version := by
      have huser : (fun p : PreferenceProfile => decide (p.userId = userId)) ∘
          PreferenceProfile.retired userId = fun p => decide (p.userId = userId) := by
        funext p
        simp only [Function.comp_apply, (PreferenceProfile.retired_spec userId p).2.1]
      rw [List.filter_map, List.map_map, huser]
      exact List.map_congr_left fun p _ => (PreferenceProfile.retired_spec userId p).2.2.1
    have hnext : (profiles.rows.filter fun p => p.userId = userId).map PreferenceProfile.version =
        (s.radar.profiles.rows.filter fun p => p.userId = userId).map PreferenceProfile.version ++
          [m.version + 1] := by
      rw [hrows, List.filter_append, List.map_append, hkept]
      simp
    change List.foldr max 0 (List.map _ (profiles.rows.filter _)) = m.version + 1
    rw [hnext, List.foldr_append, List.foldr_cons, List.foldr_nil, max_comm, List.foldr_assoc]
    change max (s.radar.latestVersion userId) (m.version + 1) = m.version + 1
    rw [hversion]
    exact max_eq_right (Nat.le_succ _)

end Preferences

theorem saveFeedback_recalls (h : s.Recalls userId m) (jobId : Uuid) (label : FeedbackLabel)
    (note : Option Text) :
    (s.saveFeedback userId jobId label note).1.Recalls userId
      (m.learn userId (.saveFeedback jobId label note)
        (s.saveFeedback userId jobId label note).2) := by
  obtain ⟨feedback, hframe⟩ := RadarDb.saveFeedback_frame s.radar userId jobId label note
  have hsaved := RadarDb.getFeedback_saveFeedback s.radar userId jobId label note
  unfold saveFeedback
  rcases hresult : s.radar.saveFeedback userId jobId label note with ⟨radar, e | saved⟩
  · exact h
  · rw [hresult] at hframe hsaved
    obtain rfl : radar = { s.radar with feedback := feedback } := hframe
    dsimp only
    split
    next =>
      refine ⟨h.sources, h.preferences, h.version, hsaved.trans ?_⟩
      rw [h.feedback]
      rfl
    next => exact h

theorem deleteMe_recalls (h : s.Recalls userId m) : (s.deleteMe userId).1.Recalls userId
    (m.learn userId .deleteMe (s.deleteMe userId).2) := by
  unfold deleteMe AppDb.deleteUser
  cases s.auth.user userId with
  | none => exact h
  | some user =>
    have hsources : (s.radar.sources.deleteWhere (·.userId = userId)).rows.filter
        (fun source => source.userId = userId) = [] := by
      refine List.filter_eq_nil_iff.mpr fun source hsource => ?_
      simpa using (Table.mem_deleteWhere.mp hsource).2
    have hprofiles : ∀ p ∈ (s.radar.profiles.deleteWhere (·.userId = userId)).rows,
        p.userId ≠ userId := fun p hp => (Table.mem_deleteWhere.mp hp).2
    refine ⟨congrArg (List.map _) hsources, ?_, ?_, ?_⟩
    · refine List.find?_eq_none.mpr fun p hp => ?_
      simp [hprofiles p hp]
    · have hnone : (s.radar.profiles.deleteWhere (·.userId = userId)).rows.filter
          (fun p => p.userId = userId) = [] :=
        List.filter_eq_nil_iff.mpr fun p hp => by simp [hprofiles p hp]
      exact congrArg (fun rows : List PreferenceProfile =>
        (rows.map PreferenceProfile.version).foldr max 0) hnone
    · funext jobId
      refine List.find?_eq_none.mpr fun f hf => ?_
      have hother : f.userId ≠ userId := of_decide_eq_true (List.mem_filter.mp hf).2
      simp [hother]

section Calls

variable {c : ApiCall}

theorem act_agrees (ctx : ApiContext) (h : s.Recalls c.userId m) (hwf : c.WellFormed s) :
    m.Agrees c.userId c.action (s.act ctx c.userId c.action).2 := by
  obtain ⟨userId, action⟩ := c
  cases action with
  | listSources => exact ⟨s.listSources userId, rfl, h.sources ▸ List.Perm.refl _⟩
  | getPreferences =>
    change (s.getActive userId).map _ = _
    rw [getActive, h.preferences]
    cases m.preferences <;> rfl
  | getPreferencesV2 =>
    change (s.getActive userId).map _ = _
    rw [getActive, h.preferences]
    cases m.preferences <;> rfl
  | updatePreferences profileId config =>
    have hupdate := (updatePreferences_recalls h hwf.1 config).2
    exact congrArg (Except.map fun profile => ApiData.preferences (toResponse profile)) hupdate
  | updatePreferencesV2 profileId update =>
    have hupdate := (updatePreferences_recalls h hwf.1 update.preferences).2
    exact congrArg (Except.map fun profile => ApiData.preferencesV2 (toV2Response profile)) hupdate
  | getJob jobId =>
    change m.Agrees userId (.getJob jobId) (s.getJob ctx userId jobId)
    unfold getJob RadarDb.detail
    cases s.radar.getJob userId jobId with
    | none => trivial
    | some job => exact congrFun h.feedback jobId
  | _ => trivial

theorem recalls_own (ctx : ApiContext) (h : s.Recalls c.userId m) (hwf : c.WellFormed s) :
    (s.act ctx c.userId c.action).1.Recalls c.userId
      (m.learn c.userId c.action (s.act ctx c.userId c.action).2) := by
  obtain ⟨userId, action⟩ := c
  cases action with
  | createSource sourceId input => exact createSource_recalls h
  | runSource sourceId runId now =>
    obtain ⟨runs, hs', -⟩ := s.runSource_runs userId sourceId runId now
    change (s.runSource userId sourceId runId now).1.Recalls userId m
    rw [hs']
    exact h.of_tables rfl rfl rfl rfl
  | updatePreferences profileId config =>
    obtain ⟨hrecalls, hupdate⟩ := updatePreferences_recalls h hwf.1 config
    simp only [act, hupdate]
    exact hrecalls
  | updatePreferencesV2 profileId update =>
    obtain ⟨hrecalls, hupdate⟩ := updatePreferences_recalls h hwf.1 update.preferences
    simp only [act, hupdate]
    exact hrecalls
  | matchJob matchId jobId now =>
    obtain ⟨results, hradar⟩ := RadarDb.matchJob_frame s.radar ctx.lib.casefold matchId jobId
      userId now
    have hsources := congrArg RadarDb.sources hradar
    have hprofiles := congrArg RadarDb.profiles hradar
    have hfeedback := congrArg RadarDb.feedback hradar
    exact h.of_tables hsources rfl hprofiles hfeedback
  | saveFeedback jobId label note => exact saveFeedback_recalls h jobId label note
  | deleteMe => exact deleteMe_recalls h
  | work d columns => exact h.of_tables rfl rfl rfl rfl
  | notify jobId profileId channel decision reply => exact h.of_tables rfl rfl rfl rfl
  | _ => exact h

end Calls

end ApiState

/-- The memory of a user after a run, latest call first. -/
def UserMemory.after (ctx : ApiContext) (userId : Uuid) :
    List (Call ApiCall ApiState) → UserMemory
  | [] => {}
  | c :: calls =>
    let m := after ctx userId calls
    if c.call.userId = userId then
      m.learn userId c.call.action (c.before.act ctx userId c.call.action).2
    else m

section Runs

variable {ctx : ApiContext} {s : ApiState} {calls : List (Call ApiCall ApiState)}

theorem run_recalls (hrun : Run (fun s c => (s.act ctx c.userId c.action).1) {} calls s)
    (hwf : ∀ c ∈ calls, c.call.WellFormed c.before) :
    s.toAppDb.OwnReferences ∧ ∀ userId, s.Recalls userId (.after ctx userId calls) := by
  induction hrun with
  | start => exact ⟨empty_ownReferences, fun userId => ⟨rfl, rfl, rfl, rfl⟩⟩
  | @next calls s c _ ih =>
    obtain ⟨hown, hrecalls⟩ := ih fun c hc => hwf c (List.mem_cons_of_mem _ hc)
    have hcall : c.WellFormed s := hwf ⟨s, c⟩ (List.mem_cons_self ..)
    refine ⟨ApiState.act_references ctx hown hcall, fun userId => ?_⟩
    unfold UserMemory.after
    split
    next huser =>
      obtain rfl : c.userId = userId := huser
      exact ApiState.recalls_own ctx (hrecalls c.userId) hcall
    next hother => exact ApiState.recalls_other (hrecalls userId) hown hcall (Ne.symm hother)

/-- Whatever the users and the workers did, in any order, a user is answered from what the user's
own calls have left. -/
theorem answered_from_memory (hrun : Run (fun s c => (s.act ctx c.userId c.action).1) {} calls s)
    (hwf : ∀ c ∈ calls, c.call.WellFormed c.before) {c : ApiCall} (hc : c.WellFormed s) :
    (UserMemory.after ctx c.userId calls).Agrees c.userId c.action
      (s.act ctx c.userId c.action).2 :=
  ApiState.act_agrees ctx ((run_recalls hrun hwf).2 c.userId) hc

end Runs

section Example

def acmeAdded : List (Call ApiCall ApiState) × ApiState :=
  runAll (fun s c => (s.act plainContext c.userId c.action).1) [] {}
    [⟨1, .createSource 10 acmeInput⟩, ⟨2, .listSources⟩]

theorem acmeAdded_wellFormed : ∀ c ∈ acmeAdded.1, c.call.WellFormed c.before := by
  intro c hc
  rcases List.mem_cons.mp hc with rfl | hc
  · trivial
  · rw [List.mem_singleton.mp hc]
    refine ⟨rfl, ?_, ?_⟩
    · intro r hr
      cases hr
    · intro run hrun
      cases hrun

theorem acme_found_again : ∃ sources,
    (acmeAdded.2.act plainContext 1 .listSources).2 = .ok (.sources sources) ∧
      sources.Perm [⟨10, "greenhouse", text "acme", [], none, true⟩] :=
  answered_from_memory (c := ⟨1, .listSources⟩) (run_runAll .start _) acmeAdded_wellFormed trivial

end Example

end JobRadar
