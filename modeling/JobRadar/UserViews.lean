import JobRadar.StoreViews
import JobRadar.UserApi

namespace JobRadar

open Database Python

/-- The account of one user with all that hangs on it; the roles are nobody's. -/
def AuthDb.ofUser (db : AuthDb) (userId : Uuid) : AuthDb where
  users := db.users.select (·.id = userId)
  roles := db.roles
  userRoles := db.userRoles.select (·.userId = userId)
  sessions := db.sessions.select (·.userId = userId)
  tokens := db.tokens.select (·.userId = userId)
  codes := db.codes.select (·.userId = userId)

/-- The jobs stay whole: who sees one is decided by the records of the user's sources. -/
def RadarDb.ofUser (db : RadarDb) (userId : Uuid) : RadarDb where
  sources := db.sources.select (·.userId = userId)
  jobs := db.jobs.only (db.sourceOf userId)
  profiles := db.profiles.select (·.userId = userId)
  matchResults := db.matchResults
  feedback := db.feedback.filter fun f => f.userId = userId

namespace ApiState

/-- The tables with the rows of one user, and with the rows that are nobody's: the jobs, the
matches and the roles. No call reads the events. -/
def part (userId : Uuid) (s : ApiState) : ApiState where
  auth := s.auth.ofUser userId
  radar := s.radar.ofUser userId
  runs := s.runs.select fun run => s.radar.sourceOf userId run.sourceId
  deliveries := s.deliveries.select (·.userId = userId)
  columns := s.columns
  schedules := fun id => if s.radar.sourceOf userId id then s.schedules id else {}
  deliveryIds := s.deliveryIds

/-- A state with the jobs, the matches and the roles of another. -/
def share (s t : ApiState) : ApiState :=
  { t with
    auth := { t.auth with roles := s.auth.roles }
    radar :=
      { t.radar with
        jobs := { t.radar.jobs with jobs := s.radar.jobs.jobs }
        matchResults := s.radar.matchResults }
    columns := s.columns
    deliveryIds := s.deliveryIds }

theorem share_part (s t : ApiState) (userId : Uuid) : (s.part userId).share t = s.share t := rfl

end ApiState

namespace RadarDb

variable {db : RadarDb} {userId other : Uuid}

theorem sourceOf_source {source : Source} (hsource : source ∈ db.sources) :
    db.sourceOf userId source.id ↔ source.userId = userId := by
  constructor
  · rintro ⟨owned, howned, huser, hid⟩
    rwa [Table.eq_of_key_eq hsource howned hid]
  · intro huser
    exact ⟨source, hsource, huser, rfl⟩

theorem sourceOf_find {sourceId : Uuid} :
    db.sourceOf userId sourceId ↔
      ∃ source, db.sources.find sourceId = some source ∧ source.userId = userId := by
  constructor
  · rintro ⟨source, hsource, huser, rfl⟩
    exact ⟨source, Table.find_of_mem hsource, huser⟩
  · rintro ⟨source, hfind, huser⟩
    obtain ⟨hsource, hid⟩ := Table.find_eq_some_iff.mp hfind
    exact ⟨source, hsource, huser, hid.symm⟩

theorem sourceOf_ofUser {sourceId : Uuid} :
    (db.ofUser userId).sourceOf userId sourceId ↔ db.sourceOf userId sourceId := by
  constructor
  · rintro ⟨source, hsource, huser, hid⟩
    exact ⟨source, (Table.mem_select.mp hsource).1, huser, hid⟩
  · rintro ⟨source, hsource, huser, hid⟩
    exact ⟨source, Table.mem_select.mpr ⟨hsource, huser⟩, huser, hid⟩

theorem not_sourceOf_other (hother : other ≠ userId) {sourceId : Uuid}
    (h : db.sourceOf userId sourceId) : ¬db.sourceOf other sourceId := by
  rintro ⟨source, hsource, huser, hid⟩
  rw [hid, sourceOf_source hsource] at h
  exact hother (huser.symm.trans h)

theorem visible_iff {jobId : Uuid} : db.visible userId jobId = true ↔
    ∃ r ∈ db.jobs.records, r.jobId = jobId ∧ db.sourceOf userId r.sourceId := by
  unfold visible
  rw [List.any_eq_true]
  apply exists_congr
  intro r
  rw [sourceOf_find]
  simp [Option.any_eq_true]

/-- All jobs are in the part, and the records in it make the same ones visible. -/
theorem visible_ofUser (jobId : Uuid) :
    (db.ofUser userId).visible userId jobId = db.visible userId jobId := by
  rw [Bool.eq_iff_iff, visible_iff, visible_iff]
  simp only [sourceOf_ofUser]
  constructor
  · rintro ⟨r, hr, hrow⟩
    exact ⟨r, (List.mem_filter.mp hr).1, hrow⟩
  · rintro ⟨r, hr, hjob, hsource⟩
    exact ⟨r, List.mem_filter.mpr ⟨hr, decide_eq_true hsource⟩, hjob, hsource⟩

theorem getJob_ofUser (jobId : Uuid) :
    (db.ofUser userId).getJob userId jobId = db.getJob userId jobId := by
  unfold getJob
  simp only [visible_ofUser]
  rfl

theorem getFeedback_ofUser (jobId : Uuid) :
    (db.ofUser userId).getFeedback userId jobId = db.getFeedback userId jobId := by
  unfold getFeedback ofUser
  dsimp only
  rw [List.find?_filter]
  congr 1
  funext f
  by_cases hf : f.userId = userId <;> simp [hf]

theorem getActiveProfile_ofUser :
    (db.ofUser userId).getActiveProfile userId = db.getActiveProfile userId := by
  unfold getActiveProfile
  change (db.profiles.rows.filter _).find? _ = _
  rw [List.find?_filter]
  congr 1
  funext p
  by_cases hp : p.userId = userId <;> simp [hp]

theorem latestVersion_ofUser :
    (db.ofUser userId).latestVersion userId = db.latestVersion userId := by
  unfold latestVersion
  have hrows : (db.profiles.select (·.userId = userId)).rows.filter (fun p => p.userId = userId) =
      db.profiles.rows.filter fun p => p.userId = userId :=
    Table.filter_select fun p _ hp => hp
  exact congrArg (fun rows : List PreferenceProfile =>
    (rows.map PreferenceProfile.version).foldr max 0) hrows

theorem detail_ofUser (first : FirstRow MatchResult) (jobId : Uuid) :
    (db.ofUser userId).detail first userId jobId = db.detail first userId jobId := by
  unfold detail
  rw [getJob_ofUser, getFeedback_ofUser]
  rfl

theorem latestMatch_ofUser (first : FirstRow MatchResult) (jobId : Uuid) :
    (db.ofUser userId).latestMatch first userId jobId = db.latestMatch first userId jobId := by
  unfold latestMatch
  rw [getJob_ofUser]
  rfl

theorem matchJob_ofUser (u : Casefold) (matchId jobId : Uuid) (now : Time) :
    (db.ofUser userId).matchJob u matchId jobId userId now =
      ((db.matchJob u matchId jobId userId now).1.ofUser userId,
        (db.matchJob u matchId jobId userId now).2) := by
  have hjob : (db.ofUser userId).jobs.jobs = db.jobs.jobs := rfl
  unfold matchJob
  rw [getActiveProfile_ofUser, hjob]
  cases db.jobs.jobs.find jobId with
  | none => rfl
  | some job =>
    cases db.getActiveProfile userId with
    | none => rfl
    | some profile =>
      dsimp only
      cases evaluateRules u job profile.config <;> rfl

/-- The user's write can be done in the part. -/
theorem saveFeedback_ofUser (jobId : Uuid) (label : FeedbackLabel) (note : Option Text) :
    (db.ofUser userId).saveFeedback userId jobId label note =
      ((db.saveFeedback userId jobId label note).1.ofUser userId,
        (db.saveFeedback userId jobId label note).2) := by
  unfold saveFeedback
  rw [getJob_ofUser, getFeedback_ofUser]
  cases db.getJob userId jobId with
  | none => rfl
  | some job =>
    dsimp only
    cases db.getFeedback userId jobId with
    | none =>
      have hadded : (db.feedback ++ [(⟨userId, jobId, label, note⟩ : JobFeedback)]).filter
          (fun f => f.userId = userId) =
            db.feedback.filter (fun f => f.userId = userId) ++ [⟨userId, jobId, label, note⟩] := by
        simp [List.filter_append]
      simp only [ofUser, hadded]
      rfl
    | some existing =>
      have hmap : (db.feedback.map fun f =>
          if f.userId = userId ∧ f.jobId = jobId then (⟨userId, jobId, label, note⟩ : JobFeedback)
          else f).filter (fun f => f.userId = userId) =
            (db.feedback.filter fun f => f.userId = userId).map fun f =>
              if f.userId = userId ∧ f.jobId = jobId then ⟨userId, jobId, label, note⟩ else f := by
        rw [List.filter_map]
        congr 1
        apply List.filter_congr
        intro f _
        by_cases hf : f.userId = userId ∧ f.jobId = jobId
        · simp [hf]
        · simp [hf]
      simp only [ofUser, hmap]
      rfl

theorem updatePreferences_ofUser {profileId : Uuid} (hfresh : db.profiles.find profileId = none)
    (config : PreferenceInput) :
    (db.ofUser userId).updatePreferences userId profileId config =
      (db.updatePreferences userId profileId config).ofUser userId := by
  unfold updatePreferences
  rw [latestVersion_ofUser]
  have hretired := Table.select_updateWhere (t := db.profiles)
    (p := fun p => p.userId = userId) (q := fun p => p.userId = userId ∧ p.isActive)
    (f := fun p => { p with isActive := false }) (fun _ => rfl) fun p => Iff.rfl
  obtain ⟨profiles, hinsert⟩ := Table.insert_isSome_of_fresh
    (t := db.profiles.updateWhere (fun p => p.userId = userId ∧ p.isActive)
      (fun p => { p with isActive := false }) fun _ => rfl)
    (r := ⟨profileId, userId, db.latestVersion userId + 1, config, true⟩) (by
      intro old ho
      obtain ⟨row, hrow, rfl⟩ := (Table.mem_updateWhere
        (f := fun p : PreferenceProfile => { p with isActive := false }) fun _ => rfl).mp ho
      have hid := Table.find_eq_none_iff.mp hfresh row hrow
      split
      next => exact hid
      next => exact hid)
  have hview : ((db.profiles.select (·.userId = userId)).updateWhere
      (fun p => p.userId = userId ∧ p.isActive) (fun p => { p with isActive := false })
        fun _ => rfl).insert ⟨profileId, userId, db.latestVersion userId + 1, config, true⟩ =
      some (profiles.select (·.userId = userId)) := by
    rw [← hretired]
    exact Table.insert_select hinsert rfl
  have hprofiles : (db.ofUser userId).profiles = db.profiles.select (·.userId = userId) := rfl
  simp only [hinsert, hprofiles, hview]
  rfl

section Other

/-- Someone else's write does not show in the part. -/
theorem saveFeedback_other (db : RadarDb) (hother : other ≠ userId) (jobId : Uuid)
    (label : FeedbackLabel) (note : Option Text) :
    (db.saveFeedback userId jobId label note).1.ofUser other = db.ofUser other := by
  unfold saveFeedback
  cases db.getJob userId jobId with
  | none => rfl
  | some job =>
    dsimp only
    cases db.getFeedback userId jobId with
    | none =>
      have hadded : (db.feedback ++ [(⟨userId, jobId, label, note⟩ : JobFeedback)]).filter
          (fun f => f.userId = other) = db.feedback.filter fun f => f.userId = other := by
        simp [List.filter_append, Ne.symm hother]
      simp only [ofUser, hadded]
      rfl
    | some existing =>
      have hmap : (db.feedback.map fun f =>
          if f.userId = userId ∧ f.jobId = jobId then (⟨userId, jobId, label, note⟩ : JobFeedback)
          else f).filter (fun f => f.userId = other) =
            db.feedback.filter fun f => f.userId = other := by
        generalize db.feedback = rows
        induction rows with
        | nil => rfl
        | cons f rows ih =>
          rw [List.map_cons, List.filter_cons, List.filter_cons, ih]
          by_cases hf : f.userId = userId ∧ f.jobId = jobId
          · simp [hf, Ne.symm hother]
          · simp [hf]
      simp only [ofUser, hmap]
      rfl

theorem updatePreferences_other (db : RadarDb) (hother : other ≠ userId) (profileId : Uuid)
    (config : PreferenceInput) :
    (db.updatePreferences userId profileId config).ofUser other = db.ofUser other := by
  unfold updatePreferences
  dsimp only
  have hretired := Table.select_updateWhere_of_not (t := db.profiles)
    (p := fun p => p.userId = other) (q := fun p => p.userId = userId ∧ p.isActive)
    (f := fun p => { p with isActive := false }) (fun _ => rfl) (fun p => Iff.rfl)
    fun p _ hp hown => hother (hown.symm.trans hp.1)
  split
  next => rfl
  next profiles hinsert =>
    have hview := Table.select_insert (p := fun p : PreferenceProfile => p.userId = other) hinsert
      (Ne.symm hother)
    rw [hretired] at hview
    simp only [ofUser, hview]
    rfl

theorem matchJob_other (u : Casefold) (matchId jobId : Uuid) (now : Time) :
    (db.matchJob u matchId jobId userId now).1.ofUser other =
      { db.ofUser other with
        matchResults := (db.matchJob u matchId jobId userId now).1.matchResults } := by
  obtain ⟨results, hdb⟩ := matchJob_frame db u matchId jobId userId now
  rw [hdb]
  rfl

end Other

section Deletion

theorem sourceOf_deleteUser {sourceId : Uuid} :
    (db.deleteUser userId).sourceOf other sourceId ↔
      other ≠ userId ∧ db.sourceOf other sourceId := by
  constructor
  · rintro ⟨source, hsource, huser, hid⟩
    obtain ⟨hmem, hkept⟩ := Table.mem_deleteWhere.mp hsource
    exact ⟨huser ▸ hkept, source, hmem, huser, hid⟩
  · rintro ⟨hother, source, hsource, huser, hid⟩
    exact ⟨source, Table.mem_deleteWhere.mpr ⟨hsource, huser ▸ hother⟩, huser, hid⟩

theorem profileOf_ofUser {profileId : Uuid} :
    (db.ofUser userId).profileOf userId profileId ↔ db.profileOf userId profileId := by
  constructor
  · rintro ⟨profile, hprofile, huser, hid⟩
    exact ⟨profile, (Table.mem_select.mp hprofile).1, huser, hid⟩
  · rintro ⟨profile, hprofile, huser, hid⟩
    exact ⟨profile, Table.mem_select.mpr ⟨hprofile, huser⟩, huser, hid⟩

/-- The cascade from the user's row can be carried out in the part. -/
theorem deleteUser_ofUser (db : RadarDb) :
    (db.ofUser userId).deleteUser userId = (db.deleteUser userId).ofUser userId := by
  have hrecords : ((db.ofUser userId).jobs.records.filter fun record =>
      ¬(db.ofUser userId).sourceOf userId record.sourceId) =
        (db.deleteUser userId).jobs.records.filter fun record =>
          (db.deleteUser userId).sourceOf userId record.sourceId := by
    rw [List.filter_eq_nil_iff.mpr, List.filter_eq_nil_iff.mpr]
    · intro record _
      simp [sourceOf_deleteUser]
    · intro record hrecord
      simpa [sourceOf_ofUser] using (List.mem_filter.mp hrecord).2
  have hmatches : ((db.ofUser userId).matchResults.filter fun m =>
      ¬(db.ofUser userId).profileOf userId m.preferenceProfileId) =
        db.matchResults.filter fun m => ¬db.profileOf userId m.preferenceProfileId :=
    List.filter_congr fun m _ => by simp [profileOf_ofUser]
  have hfeedback : ((db.ofUser userId).feedback.filter fun f => f.userId ≠ userId) =
      (db.feedback.filter fun f => f.userId ≠ userId).filter fun f => f.userId = userId :=
    List.filter_comm ..
  change RadarDb.mk _ ⟨_, List.filter _ _⟩ _ (List.filter _ _) (List.filter _ _) = _
  rw [hrecords, hmatches, hfeedback]
  change RadarDb.mk ((db.sources.select _).deleteWhere _) _ ((db.profiles.select _).deleteWhere _)
    _ _ = _
  rw [← Table.select_deleteWhere, ← Table.select_deleteWhere]
  rfl

/-- Of the deletion of another user only the matches that go with it show. -/
theorem deleteUser_other (db : RadarDb) (hother : other ≠ userId) :
    (db.deleteUser userId).ofUser other =
      { db.ofUser other with matchResults := (db.deleteUser userId).matchResults } := by
  have hsources : (db.deleteUser userId).sources.select (·.userId = other) =
      db.sources.select (·.userId = other) :=
    Table.select_deleteWhere_of_not fun row _ hid hown => hother (hid.symm.trans hown)
  have hprofiles : (db.deleteUser userId).profiles.select (·.userId = other) =
      db.profiles.select (·.userId = other) :=
    Table.select_deleteWhere_of_not fun row _ hid hown => hother (hid.symm.trans hown)
  have hrecords : ((db.deleteUser userId).jobs.records.filter fun record =>
      (db.deleteUser userId).sourceOf other record.sourceId) =
        db.jobs.records.filter fun record => db.sourceOf other record.sourceId := by
    change (db.jobs.records.filter _).filter _ = _
    rw [List.filter_filter]
    apply List.filter_congr
    intro record _
    by_cases hown : db.sourceOf other record.sourceId
    · simp [sourceOf_deleteUser, hother, hown, not_sourceOf_other (Ne.symm hother) hown]
    · simp [sourceOf_deleteUser, hown]
  have hfeedback : ((db.deleteUser userId).feedback.filter fun f => f.userId = other) =
      db.feedback.filter fun f => f.userId = other := by
    change (db.feedback.filter _).filter _ = _
    rw [List.filter_filter]
    apply List.filter_congr
    intro f _
    by_cases hf : f.userId = other <;> simp [hf, hother]
  simp only [RadarDb.ofUser, JobStore.only, hsources, hprofiles, hrecords, hfeedback]
  rfl

end Deletion

end RadarDb

section Users

variable {db : AuthDb} {userId other : Uuid}

theorem AuthDb.user_ofUser : (db.ofUser userId).user userId = db.user userId := by
  change (db.users.select _).find userId = db.users.find userId
  rw [Table.find_select]
  cases hfind : db.users.find userId with
  | none => rfl
  | some user => simp [(Table.find_eq_some_iff.mp hfind).2]

theorem AuthDb.ensureUser_ofUser :
    (db.ofUser userId).ensureUser userId = (db.ensureUser userId).ofUser userId := by
  unfold ensureUser
  rw [user_ofUser]
  cases hfind : db.user userId with
  | some user => rfl
  | none =>
    obtain ⟨users, hinsert⟩ := Table.insert_isSome_of_fresh (t := db.users)
      (r := ({ id := userId } : User)) (Table.find_eq_none_iff.mp hfind)
    have hview : (db.ofUser userId).users.insert { id := userId } =
        some (users.select (·.id = userId)) := Table.insert_select hinsert rfl
    simp only [hinsert, hview]
    rfl

theorem AuthDb.ensureUser_roles : (db.ensureUser userId).roles = db.roles := by
  unfold ensureUser
  split
  next => rfl
  next => split <;> rfl

theorem AuthDb.ensureUser_other (hother : other ≠ userId) :
    (db.ensureUser userId).ofUser other = db.ofUser other := by
  unfold ensureUser
  split
  next => rfl
  next =>
    split
    next => rfl
    next users hinsert =>
      have hview := Table.select_insert (p := fun user : User => user.id = other) hinsert
        (Ne.symm hother)
      simp only [ofUser, hview]

theorem AuthDb.deleteUser_ofUser (db : AuthDb) :
    (db.ofUser userId).deleteUser userId = (db.deleteUser userId).ofUser userId := by
  have htokens : (db.ofUser userId).tokens.deleteWhere (fun token => token.userId = userId ∨
      ∃ session ∈ (db.ofUser userId).sessions.rows,
        session.userId = userId ∧ token.sessionId = some session.id) =
      (db.ofUser userId).tokens.deleteWhere fun token => token.userId = userId ∨
        ∃ session ∈ db.sessions.rows,
          session.userId = userId ∧ token.sessionId = some session.id :=
    Table.deleteWhere_congr fun token htoken => by simp [(Table.mem_select.mp htoken).2]
  simp only [AuthDb.deleteUser, htokens]
  simp only [AuthDb.ofUser, Table.select_deleteWhere]

theorem AuthDb.deleteUser_other {db : AuthDb} (hother : other ≠ userId)
    (hsessions : ∀ token ∈ db.tokens.rows, ∀ session ∈ db.sessions.rows,
      token.sessionId = some session.id → session.userId = token.userId) :
    (db.deleteUser userId).ofUser other = db.ofUser other := by
  have htokens : (db.deleteUser userId).tokens.select (·.userId = other) =
      db.tokens.select (·.userId = other) := by
    apply Table.select_deleteWhere_of_not
    rintro token htoken huser (hown | ⟨session, hsession, hown, hid⟩)
    · exact hother (huser.symm.trans hown)
    · have hsame := hsessions token htoken session hsession hid
      exact hother (huser.symm.trans (hsame.symm.trans hown))
  have husers : (db.deleteUser userId).users.select (·.id = other) =
      db.users.select (·.id = other) :=
    Table.select_deleteWhere_of_not fun user _ hid hown => hother (hid.symm.trans hown)
  have hroles : (db.deleteUser userId).userRoles.select (·.userId = other) =
      db.userRoles.select (·.userId = other) :=
    Table.select_deleteWhere_of_not fun row _ hid hown => hother (hid.symm.trans hown)
  have hsessionRows : (db.deleteUser userId).sessions.select (·.userId = other) =
      db.sessions.select (·.userId = other) :=
    Table.select_deleteWhere_of_not fun row _ hid hown => hother (hid.symm.trans hown)
  have hcodes : (db.deleteUser userId).codes.select (·.userId = other) =
      db.codes.select (·.userId = other) :=
    Table.select_deleteWhere_of_not fun row _ hid hown => hother (hid.symm.trans hown)
  simp only [AuthDb.ofUser, htokens, husers, hroles, hsessionRows, hcodes]
  rfl

end Users

end JobRadar
