import JobRadar.AuditModel
import JobRadar.AuthRepository
import JobRadar.Cascade
import JobRadar.IngestionModel
import JobRadar.JobQueries
import JobRadar.NotificationModel

namespace JobRadar

open Cascade Database Python

structure AppDb where
  auth : AuthDb := {}
  radar : RadarDb := .empty
  runs : Table IngestionRun.id := .empty
  deliveries : Table NotificationDelivery.toDeliveryKey := .empty
  events : Table AuditEvent.id := .empty

inductive AppRow
  | user (row : User)
  | role (row : Role)
  | userRole (row : UserRole)
  | refreshToken (row : RefreshToken)
  | authSession (row : AuthSession)
  | verificationCode (row : VerificationCode)
  | preferenceProfile (row : PreferenceProfile)
  | source (row : Source)
  | ingestionRun (row : IngestionRun)
  | job (row : Job)
  | jobSourceRecord (row : JobSourceRecord)
  | matchResult (row : MatchResult)
  | jobFeedback (row : JobFeedback)
  | notificationDelivery (row : NotificationDelivery)
  | auditEvent (row : AuditEvent)

def AppDb.rows (db : AppDb) : AppRow → Prop
  | .user row => row ∈ db.auth.users
  | .role row => row ∈ db.auth.roles
  | .userRole row => row ∈ db.auth.userRoles
  | .refreshToken row => row ∈ db.auth.tokens
  | .authSession row => row ∈ db.auth.sessions
  | .verificationCode row => row ∈ db.auth.codes
  | .preferenceProfile row => row ∈ db.radar.profiles
  | .source row => row ∈ db.radar.sources
  | .ingestionRun row => row ∈ db.runs
  | .job row => row ∈ db.radar.jobs.jobs
  | .jobSourceRecord row => row ∈ db.radar.jobs.records
  | .matchResult row => row ∈ db.radar.matchResults
  | .jobFeedback row => row ∈ db.radar.feedback
  | .notificationDelivery row => row ∈ db.deliveries
  | .auditEvent row => row ∈ db.events

/-- The foreign keys that are declared `ON DELETE CASCADE`. -/
inductive Cites : AppRow → AppRow → Prop
  | userRole_user {row : UserRole} {user : User} : row.userId = user.id →
      Cites (.userRole row) (.user user)
  | userRole_role {row : UserRole} {role : Role} : row.roleId = role.id →
      Cites (.userRole row) (.role role)
  | refreshToken_user {row : RefreshToken} {user : User} : row.userId = user.id →
      Cites (.refreshToken row) (.user user)
  | refreshToken_session {row : RefreshToken} {session : AuthSession} :
      row.sessionId = some session.id → Cites (.refreshToken row) (.authSession session)
  | authSession_user {row : AuthSession} {user : User} : row.userId = user.id →
      Cites (.authSession row) (.user user)
  | verificationCode_user {row : VerificationCode} {user : User} : row.userId = user.id →
      Cites (.verificationCode row) (.user user)
  | preferenceProfile_user {row : PreferenceProfile} {user : User} : row.userId = user.id →
      Cites (.preferenceProfile row) (.user user)
  | source_user {row : Source} {user : User} : row.userId = user.id →
      Cites (.source row) (.user user)
  | ingestionRun_source {row : IngestionRun} {source : Source} : row.sourceId = source.id →
      Cites (.ingestionRun row) (.source source)
  | jobSourceRecord_job {row : JobSourceRecord} {job : Job} : row.jobId = job.id →
      Cites (.jobSourceRecord row) (.job job)
  | jobSourceRecord_source {row : JobSourceRecord} {source : Source} : row.sourceId = source.id →
      Cites (.jobSourceRecord row) (.source source)
  | matchResult_job {row : MatchResult} {job : Job} : row.jobId = job.id →
      Cites (.matchResult row) (.job job)
  | matchResult_profile {row : MatchResult} {profile : PreferenceProfile} :
      row.preferenceProfileId = profile.id → Cites (.matchResult row) (.preferenceProfile profile)
  | jobFeedback_user {row : JobFeedback} {user : User} : row.userId = user.id →
      Cites (.jobFeedback row) (.user user)
  | jobFeedback_job {row : JobFeedback} {job : Job} : row.jobId = job.id →
      Cites (.jobFeedback row) (.job job)
  | notificationDelivery_user {row : NotificationDelivery} {user : User} : row.userId = user.id →
      Cites (.notificationDelivery row) (.user user)
  | notificationDelivery_job {row : NotificationDelivery} {job : Job} : row.jobId = job.id →
      Cites (.notificationDelivery row) (.job job)
  | notificationDelivery_profile {row : NotificationDelivery} {profile : PreferenceProfile} :
      row.profileId = profile.id → Cites (.notificationDelivery row) (.preferenceProfile profile)

namespace AuthDb

/-- What `DELETE FROM users` takes of these tables: the rows of the user, and the tokens of the
user's sessions. -/
def deleteUser (db : AuthDb) (userId : Uuid) : AuthDb :=
  { db with
    users := db.users.deleteWhere (·.id = userId)
    userRoles := db.userRoles.deleteWhere (·.userId = userId)
    sessions := db.sessions.deleteWhere (·.userId = userId)
    codes := db.codes.deleteWhere (·.userId = userId)
    tokens := db.tokens.deleteWhere fun token =>
      token.userId = userId ∨
        ∃ session ∈ db.sessions.rows, session.userId = userId ∧ token.sessionId = some session.id }

end AuthDb

namespace RadarDb

def sourceOf (db : RadarDb) (userId sourceId : Uuid) : Prop :=
  ∃ source ∈ db.sources.rows, source.userId = userId ∧ sourceId = source.id

instance (db : RadarDb) (userId sourceId : Uuid) : Decidable (db.sourceOf userId sourceId) :=
  inferInstanceAs (Decidable (∃ source ∈ db.sources.rows, _))

def profileOf (db : RadarDb) (userId profileId : Uuid) : Prop :=
  ∃ profile ∈ db.profiles.rows, profile.userId = userId ∧ profileId = profile.id

instance (db : RadarDb) (userId profileId : Uuid) : Decidable (db.profileOf userId profileId) :=
  inferInstanceAs (Decidable (∃ profile ∈ db.profiles.rows, _))

def deleteUser (db : RadarDb) (userId : Uuid) : RadarDb where
  sources := db.sources.deleteWhere (·.userId = userId)
  jobs := { db.jobs with
    records := db.jobs.records.filter fun record => ¬db.sourceOf userId record.sourceId }
  profiles := db.profiles.deleteWhere (·.userId = userId)
  matchResults := db.matchResults.filter fun m => ¬db.profileOf userId m.preferenceProfileId
  feedback := db.feedback.filter fun f => f.userId ≠ userId

end RadarDb

inductive DeletionError
  | userNotFound
  deriving DecidableEq

namespace AppDb

/-- The `DELETE` with its cascade, which sets the actor of the user's events to `NULL`. -/
def withoutUser (db : AppDb) (userId : Uuid) : AppDb where
  auth := db.auth.deleteUser userId
  radar := db.radar.deleteUser userId
  runs := db.runs.deleteWhere fun run => db.radar.sourceOf userId run.sourceId
  deliveries := db.deliveries.deleteWhere fun delivery =>
    delivery.userId = userId ∨ db.radar.profileOf userId delivery.profileId
  events := db.events.updateWhere (·.actorUserId = some userId)
    (fun event => { event with actorUserId := none }) fun _ => rfl

/-- `DeletionService.delete_user`. -/
def deleteUser (db : AppDb) (userId : Uuid) : Except DeletionError AppDb :=
  match db.auth.user userId with
  | none => .error .userNotFound
  | some _ => .ok (db.withoutUser userId)

/-- The row is the user, or data of the user. -/
def OwnedBy (db : AppDb) (userId : Uuid) : AppRow → Prop
  | .user row => row.id = userId
  | .userRole row => row.userId = userId
  | .refreshToken row => row.userId = userId
  | .authSession row => row.userId = userId
  | .verificationCode row => row.userId = userId
  | .preferenceProfile row => row.userId = userId
  | .source row => row.userId = userId
  | .ingestionRun row => db.radar.sourceOf userId row.sourceId
  | .jobSourceRecord row => db.radar.sourceOf userId row.sourceId
  | .matchResult row => db.radar.profileOf userId row.preferenceProfileId
  | .jobFeedback row => row.userId = userId
  | .notificationDelivery row => row.userId = userId
  | .role _ | .job _ | .auditEvent _ => False

/-- Deliveries and tokens refer to profiles and sessions of their own user. -/
structure OwnReferences (db : AppDb) : Prop where
  sessions : ∀ token ∈ db.auth.tokens.rows, ∀ session ∈ db.auth.sessions.rows,
    token.sessionId = some session.id → session.userId = token.userId
  profiles : ∀ delivery ∈ db.deliveries.rows, ∀ profile ∈ db.radar.profiles.rows,
    delivery.profileId = profile.id → profile.userId = delivery.userId

/-- What the deletion takes: the data of the user, and what refers to it otherwise. -/
def Gone (db : AppDb) (userId : Uuid) : AppRow → Prop
  | .refreshToken row => row.userId = userId ∨
      ∃ session ∈ db.auth.sessions.rows, session.userId = userId ∧ row.sessionId = some session.id
  | .notificationDelivery row => row.userId = userId ∨ db.radar.profileOf userId row.profileId
  | row => db.OwnedBy userId row

/-- What a deletion has to come to: nothing refers to the user or to a row that is gone, the events
are there without their actor, and all that is not the user's is as it was. -/
structure Deletes (db db' : AppDb) (userId : Uuid) : Prop where
  direct : ∀ row user, db'.rows row → user.id = userId → ¬Cites row (.user user)
  through : ∀ row gone, db'.rows row → db.rows gone → ¬db'.rows gone → ¬Cites row gone
  events : db'.events.rows = db.events.rows.map fun event =>
    if event.actorUserId = some userId then { event with actorUserId := none } else event
  actors : ∀ event ∈ db'.events.rows, event.actorUserId ≠ some userId
  jobs : db'.radar.jobs.jobs = db.radar.jobs.jobs
  exactly : ∀ row, (∀ event, row ≠ .auditEvent event) →
    (db'.rows row ↔ db.rows row ∧ ¬db.OwnedBy userId row)
  others : ∀ other row, other ≠ userId → db.rows row → db.OwnedBy other row → db'.rows row

section Rows

variable {db db' : AppDb} {userId : Uuid} {row : AppRow}

theorem rows_withoutUser (hrow : ∀ event, row ≠ .auditEvent event) :
    (db.withoutUser userId).rows row ↔ db.rows row ∧ ¬db.Gone userId row := by
  cases row with
  | user row => exact Table.mem_deleteWhere
  | role row => exact ⟨fun h => ⟨h, not_false⟩, fun h => h.1⟩
  | userRole row => exact Table.mem_deleteWhere
  | refreshToken row => exact Table.mem_deleteWhere
  | authSession row => exact Table.mem_deleteWhere
  | verificationCode row => exact Table.mem_deleteWhere
  | preferenceProfile row => exact Table.mem_deleteWhere
  | source row => exact Table.mem_deleteWhere
  | ingestionRun row => exact Table.mem_deleteWhere
  | job row => exact ⟨fun h => ⟨h, not_false⟩, fun h => h.1⟩
  | jobSourceRecord row => exact List.mem_filter.trans (and_congr_right fun _ => decide_eq_true_iff)
  | matchResult row => exact List.mem_filter.trans (and_congr_right fun _ => decide_eq_true_iff)
  | jobFeedback row => exact List.mem_filter.trans (and_congr_right fun _ => decide_eq_true_iff)
  | notificationDelivery row => exact Table.mem_deleteWhere
  | auditEvent row => exact absurd rfl (hrow row)

theorem gone_of_cites {r s : AppRow} (hrefers : Refers Cites db.rows r s)
    (hgone : db.Gone userId s) : db.Gone userId r := by
  obtain ⟨_, hs, hcites⟩ := hrefers
  cases hcites with
  | userRole_user h => exact h.trans hgone
  | userRole_role h => exact hgone.elim
  | refreshToken_user h => exact Or.inl (h.trans hgone)
  | refreshToken_session h => exact Or.inr ⟨_, hs, hgone, h⟩
  | authSession_user h => exact h.trans hgone
  | verificationCode_user h => exact h.trans hgone
  | preferenceProfile_user h => exact h.trans hgone
  | source_user h => exact h.trans hgone
  | ingestionRun_source h => exact ⟨_, hs, hgone, h⟩
  | jobSourceRecord_job h => exact hgone.elim
  | jobSourceRecord_source h => exact ⟨_, hs, hgone, h⟩
  | matchResult_job h => exact hgone.elim
  | matchResult_profile h => exact ⟨_, hs, hgone, h⟩
  | jobFeedback_user h => exact h.trans hgone
  | jobFeedback_job h => exact hgone.elim
  | notificationDelivery_user h => exact Or.inl (h.trans hgone)
  | notificationDelivery_job h => exact hgone.elim
  | notificationDelivery_profile h => exact Or.inr ⟨_, hs, hgone, h⟩

theorem falls_of_gone {user : User} (huser : user ∈ db.auth.users) (hid : user.id = userId)
    (hrow : db.rows row) (hgone : db.Gone userId row) : Falls Cites db.rows (.user user) row := by
  have direct : ∀ row, db.rows row → Cites row (.user user) →
      Falls Cites db.rows (.user user) row := fun row hrow hcites => .single ⟨hrow, huser, hcites⟩
  have through : ∀ row via, db.rows row → db.rows via → Cites row via → Cites via (.user user) →
      Falls Cites db.rows (.user user) row := fun row via hrow hvia hcites huser =>
    .head ⟨hrow, hvia, hcites⟩ (direct via hvia huser)
  cases row with
  | user row =>
    obtain rfl : row = user := Table.eq_of_key_eq hrow huser (Eq.trans hgone hid.symm)
    exact .refl
  | role row => exact hgone.elim
  | userRole row => exact direct _ hrow (.userRole_user (Eq.trans hgone hid.symm))
  | refreshToken row =>
    rcases hgone with hgone | ⟨session, hsession, howner, hcites⟩
    · exact direct _ hrow (.refreshToken_user (hgone.trans hid.symm))
    · exact through _ (.authSession session) hrow hsession (.refreshToken_session hcites)
        (.authSession_user (howner.trans hid.symm))
  | authSession row => exact direct _ hrow (.authSession_user (Eq.trans hgone hid.symm))
  | verificationCode row => exact direct _ hrow (.verificationCode_user (Eq.trans hgone hid.symm))
  | preferenceProfile row =>
    exact direct _ hrow (.preferenceProfile_user (Eq.trans hgone hid.symm))
  | source row => exact direct _ hrow (.source_user (Eq.trans hgone hid.symm))
  | ingestionRun row =>
    obtain ⟨source, hsource, howner, hcites⟩ := hgone
    exact through _ (.source source) hrow hsource (.ingestionRun_source hcites)
      (.source_user (howner.trans hid.symm))
  | job row => exact hgone.elim
  | jobSourceRecord row =>
    obtain ⟨source, hsource, howner, hcites⟩ := hgone
    exact through _ (.source source) hrow hsource (.jobSourceRecord_source hcites)
      (.source_user (howner.trans hid.symm))
  | matchResult row =>
    obtain ⟨profile, hprofile, howner, hcites⟩ := hgone
    exact through _ (.preferenceProfile profile) hrow hprofile (.matchResult_profile hcites)
      (.preferenceProfile_user (howner.trans hid.symm))
  | jobFeedback row => exact direct _ hrow (.jobFeedback_user (Eq.trans hgone hid.symm))
  | notificationDelivery row =>
    rcases hgone with hgone | ⟨profile, hprofile, howner, hcites⟩
    · exact direct _ hrow (.notificationDelivery_user (hgone.trans hid.symm))
    · exact through _ (.preferenceProfile profile) hrow hprofile
        (.notificationDelivery_profile hcites) (.preferenceProfile_user (howner.trans hid.symm))
  | auditEvent row => exact hgone.elim

theorem rows_withoutUser_iff {user : User} (huser : user ∈ db.auth.users) (hid : user.id = userId)
    (hrow : ∀ event, row ≠ .auditEvent event) :
    (db.withoutUser userId).rows row ↔ row ∈ survivors Cites db.rows (.user user) := by
  rw [rows_withoutUser hrow]
  have htarget : db.Gone userId (.user user) := hid
  exact (mem_survivors_iff htarget (fun r s => gone_of_cites)
    fun r hr hgone => falls_of_gone huser hid hr hgone).symm

theorem gone_iff (hown : db.OwnReferences) (hrow : db.rows row) :
    db.Gone userId row ↔ db.OwnedBy userId row := by
  cases row with
  | refreshToken row =>
    constructor
    · rintro (hgone | ⟨session, hsession, howner, hcites⟩)
      · exact hgone
      · exact (hown.sessions row hrow session hsession hcites).symm.trans howner
    · exact Or.inl
  | notificationDelivery row =>
    constructor
    · rintro (hgone | ⟨profile, hprofile, howner, hcites⟩)
      · exact hgone
      · exact (hown.profiles row hrow profile hprofile hcites).symm.trans howner
    · exact Or.inl
  | _ => exact Iff.rfl

theorem ownedBy_of_cites {user : User} (hcites : Cites row (.user user)) (hid : user.id = userId) :
    db.OwnedBy userId row := by
  cases hcites with
  | userRole_user h => exact h.trans hid
  | refreshToken_user h => exact h.trans hid
  | authSession_user h => exact h.trans hid
  | verificationCode_user h => exact h.trans hid
  | preferenceProfile_user h => exact h.trans hid
  | source_user h => exact h.trans hid
  | jobFeedback_user h => exact h.trans hid
  | notificationDelivery_user h => exact h.trans hid

theorem ownedBy_unique {other : Uuid} (h : db.OwnedBy userId row) (h' : db.OwnedBy other row) :
    userId = other := by
  have hsource : ∀ sourceId, db.radar.sourceOf userId sourceId → db.radar.sourceOf other sourceId →
      userId = other := by
    rintro _ ⟨source, hmem, rfl, rfl⟩ ⟨source', hmem', rfl, hid⟩
    rw [Table.eq_of_key_eq (t := db.radar.sources) hmem hmem' hid]
  have hprofile : ∀ profileId, db.radar.profileOf userId profileId →
      db.radar.profileOf other profileId → userId = other := by
    rintro _ ⟨profile, hmem, rfl, rfl⟩ ⟨profile', hmem', rfl, hid⟩
    rw [Table.eq_of_key_eq (t := db.radar.profiles) hmem hmem' hid]
  cases row with
  | ingestionRun row => exact hsource _ h h'
  | jobSourceRecord row => exact hsource _ h h'
  | matchResult row => exact hprofile _ h h'
  | role row => exact h.elim
  | job row => exact h.elim
  | auditEvent row => exact h.elim
  | _ => exact Eq.trans (Eq.symm h) h'

end Rows

/-- The deletion of a user removes all of the user's data, and only that. -/
theorem delete_user_deletes {db db' : AppDb} {userId : Uuid} (hown : db.OwnReferences)
    (hdelete : db.deleteUser userId = .ok db') : db.Deletes db' userId := by
  unfold deleteUser at hdelete
  split at hdelete
  next => cases hdelete
  next user hfind =>
    cases hdelete
    obtain ⟨huser, hid⟩ := Table.find_eq_some_iff.mp hfind
    have exactly : ∀ row, (∀ event, row ≠ .auditEvent event) →
        ((db.withoutUser userId).rows row ↔ db.rows row ∧ ¬db.OwnedBy userId row) := by
      intro row hrow
      rw [rows_withoutUser hrow]
      exact and_congr_right fun hmem => not_congr (gone_iff hown hmem)
    have hciting : ∀ row gone, Cites row gone →
        (∀ event, row ≠ .auditEvent event) ∧ ∀ event, gone ≠ .auditEvent event := by
      intro row gone hcites
      refine ⟨?_, ?_⟩
      · rintro event rfl
        cases hcites
      · rintro event rfl
        cases hcites
    have through : ∀ row gone, (db.withoutUser userId).rows row → db.rows gone →
        ¬(db.withoutUser userId).rows gone → ¬Cites row gone := by
      intro row gone hrow hmem hgone hcites
      obtain ⟨hrowtable, hgonetable⟩ := hciting row gone hcites
      rw [rows_withoutUser_iff huser hid hrowtable] at hrow
      rw [rows_withoutUser_iff huser hid hgonetable] at hgone
      exact not_cites_of_survivors hrow hmem hgone hcites
    refine ⟨?_, through, rfl, ?_, rfl, exactly, ?_⟩
    · intro row other hrow hother hcites
      exact ((exactly row (hciting _ _ hcites).1).mp hrow).2 (ownedBy_of_cites hcites hother)
    · intro event hevent hactor
      obtain ⟨old, _, rfl⟩ := List.mem_map.mp hevent
      split at hactor
      next => cases hactor
      next hother => exact hother hactor
    · intro other row hother hrow howner
      have htable : ∀ event, row ≠ .auditEvent event := by
        rintro event rfl
        exact howner
      exact (exactly row htable).mpr ⟨hrow, fun hgone => hother (ownedBy_unique howner hgone)⟩

/-- Two users with a job that a source of each lists, and notifications of it. -/
def sharedJob : AppDb where
  auth :=
    { users := ⟨[{ id := 1 }, { id := 2 }], by decide⟩
      userRoles := ⟨[⟨1, 5⟩, ⟨2, 5⟩], by decide⟩
      sessions := ⟨[⟨11, 1, {}, none⟩, ⟨12, 2, {}, none⟩], by decide⟩
      tokens := ⟨[⟨21, 1, some 11, "r1", 31, 900, none⟩, ⟨22, 2, some 12, "r2", 32, 900, none⟩],
        by decide⟩ }
  radar :=
    { sources := ⟨[⟨41, 1, "lever", text "Acme", []⟩, ⟨42, 2, "lever", text "Acme", []⟩], by decide⟩
      jobs :=
        { jobs := ⟨[⟨⟨text "Backend", text "Python", text "a5", []⟩, 1, text "Acme", text "acme",
            text "https://apply"⟩], by decide⟩
          records := [⟨1, 41, text "x", [], .null⟩, ⟨1, 42, text "y", [], .null⟩] }
      profiles := ⟨[⟨51, 1, 1, {}, true⟩, ⟨52, 2, 1, {}, true⟩], by decide⟩
      matchResults := []
      feedback := [⟨1, 1, .saved, none⟩, ⟨2, 1, .applied, none⟩] }
  runs := ⟨[{ id := 61, sourceId := 41, startedAt := 7 }], by decide⟩
  deliveries := ⟨[⟨⟨1, 1, 51, "email"⟩, .delivered, 1, none, none⟩,
    ⟨⟨2, 1, 52, "email"⟩, .pending, 0, none, none⟩], by decide⟩
  events := ⟨[{ userCreated.event 71 5 with actorUserId := some 1 }], by decide⟩

theorem sharedJob_deleted : ∃ db', sharedJob.deleteUser 1 = .ok db' ∧
    (db'.radar.jobs.records.map JobSourceRecord.sourceId = [42] ∧
      db'.events.rows.map AuditEvent.actorUserId = [none]) ∧ sharedJob.Deletes db' 1 :=
  ⟨_, rfl, ⟨by decide, by decide⟩, delete_user_deletes ⟨by decide, by decide⟩ rfl⟩

end AppDb

end JobRadar
