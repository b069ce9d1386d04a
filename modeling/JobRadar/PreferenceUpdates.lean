import JobRadar.Interleave
import JobRadar.JobQueries

namespace JobRadar

open Database Interleave

def PreferenceProfile.retire (ids : List Uuid) (p : PreferenceProfile) : PreferenceProfile :=
  if p.id ∈ ids then { p with isActive := false } else p

namespace PreferenceProfile

variable (ids : List Uuid) (p : PreferenceProfile)

@[simp] theorem retire_id : (p.retire ids).id = p.id := by
  unfold retire
  split <;> rfl

@[simp] theorem retire_userId : (p.retire ids).userId = p.userId := by
  unfold retire
  split <;> rfl

@[simp] theorem retire_version : (p.retire ids).version = p.version := by
  unfold retire
  split <;> rfl

theorem retire_isActive : (p.retire ids).isActive = true ↔ p.id ∉ ids ∧ p.isActive = true := by
  unfold retire
  split
  next h => simp [h]
  next h => simp [h]

end PreferenceProfile

/-- `preference_profiles`, with its unique constraint and its partial unique index. -/
structure PreferenceProfiles extends Table PreferenceProfile.id where
  uqPreferenceUserVersion : ∀ p ∈ rows, ∀ p' ∈ rows, p.userId = p'.userId →
    p.version = p'.version → p = p'
  uqPreferenceActiveUser : ∀ p ∈ rows, ∀ p' ∈ rows, p.userId = p'.userId →
    p.isActive = true → p'.isActive = true → p = p'

namespace PreferenceProfiles

variable (t : PreferenceProfiles) {t' : PreferenceProfiles} {p : PreferenceProfile}

def empty : PreferenceProfiles where
  toTable := .empty
  uqPreferenceUserVersion := by simp [Table.empty]
  uqPreferenceActiveUser := by simp [Table.empty]

/-- `UPDATE … SET is_active = false` for the rows of the ids. -/
def retire (ids : List Uuid) : PreferenceProfiles where
  rows := t.rows.map (PreferenceProfile.retire ids)
  unique := by
    have hid : PreferenceProfile.id ∘ PreferenceProfile.retire ids = PreferenceProfile.id := by
      funext p
      simp
    rw [List.map_map, hid]
    exact t.unique
  uqPreferenceUserVersion := by
    intro p hp p' hp' huser hversion
    obtain ⟨old, ho, rfl⟩ := List.mem_map.mp hp
    obtain ⟨old', ho', rfl⟩ := List.mem_map.mp hp'
    rw [t.uqPreferenceUserVersion old ho old' ho' (by simpa using huser) (by simpa using hversion)]
  uqPreferenceActiveUser := by
    intro p hp p' hp' huser hactive hactive'
    obtain ⟨old, ho, rfl⟩ := List.mem_map.mp hp
    obtain ⟨old', ho', rfl⟩ := List.mem_map.mp hp'
    rw [t.uqPreferenceActiveUser old ho old' ho' (by simpa using huser)
      ((old.retire_isActive ids).mp hactive).2 ((old'.retire_isActive ids).mp hactive').2]

/-- No row stands in the way of the insert. -/
def Accepts (p : PreferenceProfile) : Prop :=
  ∀ old ∈ t.rows, old.id ≠ p.id ∧ ¬(old.userId = p.userId ∧ old.version = p.version) ∧
    ¬(old.userId = p.userId ∧ old.isActive = true ∧ p.isActive = true)

instance : Decidable (t.Accepts p) := inferInstanceAs (Decidable (∀ old ∈ t.rows, _))

def insert (p : PreferenceProfile) : Option PreferenceProfiles :=
  if h : t.Accepts p then
    some {
      rows := t.rows ++ [p]
      unique := by
        rw [List.map_append, List.map_singleton]
        refine t.unique.append (List.nodup_singleton _) ?_
        intro id hid hp
        obtain ⟨old, ho, rfl⟩ := List.mem_map.mp hid
        exact (h old ho).1 (List.mem_singleton.mp hp)
      uqPreferenceUserVersion := fun x hx y hy huser hversion =>
        unique_append (R := fun x y => x.userId = y.userId ∧ x.version = y.version)
          (fun x y hxy => ⟨hxy.1.symm, hxy.2.symm⟩)
          (fun x hx y hy hxy => t.uqPreferenceUserVersion x hx y hy hxy.1 hxy.2)
          (fun old ho => (h old ho).2.1) x hx y hy ⟨huser, hversion⟩
      uqPreferenceActiveUser := fun x hx y hy huser hactive hactive' =>
        unique_append (R := fun x y => x.userId = y.userId ∧ x.isActive = true ∧ y.isActive = true)
          (fun x y hxy => ⟨hxy.1.symm, hxy.2.2, hxy.2.1⟩)
          (fun x hx y hy hxy => t.uqPreferenceActiveUser x hx y hy hxy.1 hxy.2.1 hxy.2.2)
          (fun old ho => (h old ho).2.2) x hx y hy ⟨huser, hactive, hactive'⟩ }
  else none

variable {t}

theorem insert_eq_some (h : t.insert p = some t') : t.Accepts p ∧ t'.rows = t.rows ++ [p] := by
  unfold insert at h
  split at h
  next haccepts => cases h; exact ⟨haccepts, rfl⟩
  next => cases h

end PreferenceProfiles

/-- The tables an update reads and writes. Of a user only the id matters to it. -/
structure PreferenceDb where
  users : Table fun userId : Uuid => userId
  profiles : PreferenceProfiles

namespace PreferenceDb

def empty : PreferenceDb := ⟨.empty, .empty⟩

variable (db : PreferenceDb)

def versions (userId : Uuid) : List Nat :=
  (db.profiles.rows.filter fun p => p.userId = userId).map PreferenceProfile.version

def activeVersions (userId : Uuid) : List Nat :=
  (db.profiles.rows.filter fun p => p.userId = userId ∧ p.isActive).map PreferenceProfile.version

def getLatestVersion (userId : Uuid) : Nat := (db.versions userId).foldr max 0

/-- The rows that the `UPDATE` of `deactivate_active` matches. -/
def activeIds (userId : Uuid) : List Uuid :=
  (db.profiles.rows.filter fun p => p.userId = userId ∧ p.isActive).map PreferenceProfile.id

/-- The user that the transaction has inserted, if any, goes in with it. -/
def addUser (userId : Uuid) (newUser : Bool) : Option (Table fun userId : Uuid => userId) :=
  if newUser then db.users.insert userId else some db.users

/-- What the transaction has written, made part of the committed state. -/
def commit (newUser : Bool) (retired : List Uuid) (profile : PreferenceProfile) :
    Option PreferenceDb := do
  let users ← db.addUser profile.userId newUser
  let profiles ← (db.profiles.retire retired).insert profile
  return ⟨users, profiles⟩

end PreferenceDb

/-- Every profile is created with these. -/
def defaultWeights : List (String × Nat) :=
  [("skills", 40), ("experience", 20), ("location", 15), ("role", 10), ("salary", 10),
    ("company", 5)]

structure PreferenceResponse extends PreferenceInput where
  version : Nat
  isActive : Bool
  weights : List (String × Nat)

structure V2PreferenceResponse where
  apiVersion : String := "v2"
  profileId : Uuid
  version : Nat
  status : String
  preferences : PreferenceInput
  matchingWeights : List (String × Nat)

structure V2PreferenceUpdate where
  preferences : PreferenceInput

inductive UpdateResponse
  | preferences (response : PreferenceResponse)
  | v2 (response : V2PreferenceResponse)

def toResponse (profile : PreferenceProfile) : PreferenceResponse :=
  { profile.config with
    version := profile.version, isActive := profile.isActive, weights := defaultWeights }

def toV2Response (profile : PreferenceProfile) : V2PreferenceResponse where
  profileId := profile.id
  version := profile.version
  status := if profile.isActive then "active" else "inactive"
  preferences := profile.config
  matchingWeights := defaultWeights

inductive UpdateError
  | dataConflict
  | statementFailed
  deriving DecidableEq

/-- Where an `update` stands between two statements, with what its transaction has written and
not yet committed. -/
inductive UpdatePhase
  | start
  | userMissing
  | userEnsured (newUser : Bool)
  | versionRead (newUser : Bool) (version : Nat)
  | deactivated (newUser : Bool) (version : Nat) (retired : List Uuid)
  | inserted (newUser : Bool) (version : Nat) (retired : List Uuid) (profileId : Uuid)
  | committed (profileId : Uuid)
  | returned (response : UpdateResponse)
  | raised (error : UpdateError)

structure UpdateThread where
  userId : Uuid
  config : PreferenceInput
  respond : PreferenceProfile → UpdateResponse
  phase : UpdatePhase := .start

/-- `PreferenceService.update`. -/
def preferenceUpdate (userId : Uuid) (preferences : PreferenceInput) : UpdateThread where
  userId := userId
  config := preferences
  respond profile := .preferences (toResponse profile)

/-- `V2PreferenceService.update`. -/
def v2PreferenceUpdate (userId : Uuid) (preferences : V2PreferenceUpdate) : UpdateThread where
  userId := userId
  config := preferences.preferences
  respond profile := .v2 (toV2Response profile)

def UpdateThread.at (t : UpdateThread) (phase : UpdatePhase) : UpdateThread :=
  { t with phase := phase }

def UpdateThread.profile (t : UpdateThread) (profileId : Uuid) (version : Nat) :
    PreferenceProfile :=
  ⟨profileId, t.userId, version, t.config, true⟩

/-- An update statement by statement, each reading the state committed by then. It is told the
id drawn for the profile, or that the statement fails for a reason of its own. A row that another
transaction has locked is waited for: the constraints are checked once more at the commit. -/
def updateStep : Atomic (Option Uuid) PreferenceDb UpdateThread := fun answer db t =>
  match t.phase, answer with
  | .returned _, _ => none
  | .raised _, _ => none
  | _, none => some (db, t.at (.raised .statementFailed))
  | .start, some _ =>
    match db.users.find t.userId with
    | none => some (db, t.at .userMissing)
    | some _ => some (db, t.at (.userEnsured false))
  | .userMissing, some _ =>
    match db.users.insert t.userId with
    | none => some (db, t.at (.raised .dataConflict))
    | some _ => some (db, t.at (.userEnsured true))
  | .userEnsured newUser, some _ =>
    some (db, t.at (.versionRead newUser (db.getLatestVersion t.userId + 1)))
  | .versionRead newUser version, some _ =>
    some (db, t.at (.deactivated newUser version (db.activeIds t.userId)))
  | .deactivated newUser version retired, some profileId =>
    match (db.profiles.retire retired).insert (t.profile profileId version) with
    | none => some (db, t.at (.raised .dataConflict))
    | some _ => some (db, t.at (.inserted newUser version retired profileId))
  | .inserted newUser version retired profileId, some _ =>
    match db.commit newUser retired (t.profile profileId version) with
    | none => some (db, t.at (.raised .dataConflict))
    | some db => some (db, t.at (.committed profileId))
  | .committed profileId, some _ =>
    match db.profiles.find profileId with
    | none => some (db, t.at (.raised .statementFailed))
    | some profile => some (db, t.at (.returned (t.respond profile)))

section Alone

variable {db : PreferenceDb} {userId profileId : Uuid} {p : PreferenceProfile}

theorem mem_activeIds (hp : p ∈ db.profiles.rows) :
    p.id ∈ db.activeIds userId ↔ p.userId = userId ∧ p.isActive = true := by
  simp only [PreferenceDb.activeIds, List.mem_map, List.mem_filter, decide_eq_true_eq]
  constructor
  · rintro ⟨old, ⟨ho, hmatch⟩, hid⟩
    rwa [Table.eq_of_key_eq ho hp hid] at hmatch
  · intro hmatch
    exact ⟨p, ⟨hp, hmatch⟩, rfl⟩

theorem retire_activeIds (db : PreferenceDb) (userId : Uuid) :
    (db.profiles.retire (db.activeIds userId)).toTable = db.profiles.toTable.updateWhere
      (fun p => p.userId = userId ∧ p.isActive) (fun p => { p with isActive := false })
      fun _ => rfl := by
  apply Table.eq_of_rows_eq
  apply List.map_congr_left
  intro p hp
  by_cases hmatch : p.userId = userId ∧ p.isActive = true
  · rw [if_pos hmatch, PreferenceProfile.retire, if_pos ((mem_activeIds hp).mpr hmatch)]
  · rw [if_neg hmatch, PreferenceProfile.retire, if_neg (mt (mem_activeIds hp).mp hmatch)]

theorem version_le_latest (hp : p ∈ db.profiles.rows) :
    p.version ≤ db.getLatestVersion p.userId := by
  refine List.le_max_of_le' 0 (List.mem_map_of_mem (List.mem_filter.mpr ⟨hp, ?_⟩)) (Nat.le_refl _)
  exact decide_eq_true rfl

theorem accepts_next (config : PreferenceInput)
    (hfree : ∀ old ∈ db.profiles.rows, old.id ≠ profileId) :
    (db.profiles.retire (db.activeIds userId)).Accepts
      ⟨profileId, userId, db.getLatestVersion userId + 1, config, true⟩ := by
  intro row hrow
  obtain ⟨old, ho, rfl⟩ := List.mem_map.mp hrow
  simp only [PreferenceProfile.retire_id, PreferenceProfile.retire_userId,
    PreferenceProfile.retire_version, PreferenceProfile.retire_isActive]
  refine ⟨hfree old ho, ?_, ?_⟩
  · rintro ⟨rfl, hversion⟩
    have hle := version_le_latest ho
    omega
  · rintro ⟨huser, ⟨hid, hactive⟩, -⟩
    exact hid ((mem_activeIds ho).mpr ⟨huser, hactive⟩)

theorem insert_table {t t' : PreferenceProfiles} (h : t.insert p = some t') :
    t.toTable.insert p = some t'.toTable := by
  obtain ⟨haccepts, hrows⟩ := PreferenceProfiles.insert_eq_some h
  obtain ⟨table, htable⟩ := Table.insert_isSome_of_fresh fun old ho => (haccepts old ho).1
  rw [htable, Table.eq_of_rows_eq ((Table.rows_of_insert htable).trans hrows.symm)]

theorem insert_refused {t : PreferenceProfiles} (h : ∃ old ∈ t.rows, old.id = p.id) :
    t.insert p = none := by
  unfold PreferenceProfiles.insert
  rw [dif_neg]
  intro haccepts
  obtain ⟨old, ho, hid⟩ := h
  exact (haccepts old ho).1 hid

/-- The statements up to the version's, of a user that may be new. -/
theorem ensureUser_alone (db : PreferenceDb) (t : UpdateThread) (hstart : t.phase = .start)
    (profileId : Uuid) : ∃ newUser users, db.addUser t.userId newUser = some users ∧
      Solo updateStep (db, t) (db, t.at (.deactivated newUser (db.getLatestVersion t.userId + 1)
        (db.activeIds t.userId))) := by
  have hread : ∀ newUser, Solo updateStep (db, t.at (.userEnsured newUser))
      (db, t.at (.deactivated newUser (db.getLatestVersion t.userId + 1)
        (db.activeIds t.userId))) := fun newUser =>
    .head ⟨some profileId, rfl⟩ (.single ⟨some profileId, rfl⟩)
  cases hfind : db.users.find t.userId with
  | some user =>
    refine ⟨false, db.users, rfl, .head ⟨some profileId, ?_⟩ (hread false)⟩
    simp [updateStep, hstart, hfind]
  | none =>
    obtain ⟨users, husers⟩ := Table.insert_isSome_of_fresh (Table.find_eq_none_iff.mp hfind)
    have hmissing : updateStep (some profileId) db t = some (db, t.at .userMissing) := by
      simp [updateStep, hstart, hfind]
    have hflush : updateStep (some profileId) db (t.at .userMissing) =
        some (db, t.at (.userEnsured true)) := by
      simp [updateStep, UpdateThread.at, husers]
    exact ⟨true, users, husers, .head ⟨some profileId, hmissing⟩
      (.head ⟨some profileId, hflush⟩ (hread true))⟩

theorem create_alone (t : UpdateThread) {newUser : Bool} {version : Nat} {retired : List Uuid}
    {users : Table fun userId : Uuid => userId} {profiles : PreferenceProfiles}
    (husers : db.addUser t.userId newUser = some users)
    (hinsert : (db.profiles.retire retired).insert (t.profile profileId version) =
      some profiles) :
    Solo updateStep (db, t.at (.deactivated newUser version retired))
      (⟨users, profiles⟩, t.at (.returned (t.respond (t.profile profileId version)))) := by
  have hcreate : updateStep (some profileId) db (t.at (.deactivated newUser version retired)) =
      some (db, t.at (.inserted newUser version retired profileId)) := by
    have hinsert' : (db.profiles.retire retired).insert
        ((t.at (.deactivated newUser version retired)).profile profileId version) =
          some profiles := hinsert
    simp only [updateStep, UpdateThread.at] at hinsert' ⊢
    rw [hinsert']
  have hadd : db.commit newUser retired (t.profile profileId version) =
      some ⟨users, profiles⟩ := by
    have husers' : db.addUser (t.profile profileId version).userId newUser = some users := husers
    simp [PreferenceDb.commit, husers', hinsert]
  have hcommit : updateStep (some profileId) db
      (t.at (.inserted newUser version retired profileId)) =
        some (⟨users, profiles⟩, t.at (.committed profileId)) := by
    have hadd' : db.commit newUser retired
        ((t.at (.inserted newUser version retired profileId)).profile profileId version) =
          some ⟨users, profiles⟩ := hadd
    simp only [updateStep, UpdateThread.at] at hadd' ⊢
    rw [hadd']
  have hfind : profiles.toTable.find profileId = some (t.profile profileId version) := by
    rw [Table.find_of_insert (insert_table hinsert)]
    exact if_pos rfl
  have hrefresh : updateStep (some profileId) ⟨users, profiles⟩ (t.at (.committed profileId)) =
      some (⟨users, profiles⟩, t.at (.returned (t.respond (t.profile profileId version)))) := by
    simp [updateStep, UpdateThread.at, hfind]
  exact .head ⟨some profileId, hcreate⟩
    (.head ⟨some profileId, hcommit⟩ (.single ⟨some profileId, hrefresh⟩))

/-- Without interruption the statements amount to the update in one transaction. -/
theorem update_alone (db : PreferenceDb) (t : UpdateThread) (hstart : t.phase = .start)
    (profileId : Uuid) (radar : RadarDb) (hprofiles : radar.profiles = db.profiles.toTable) :
    ∃ db' t', Solo updateStep (db, t) (db', t') ∧
      db'.profiles.toTable = (radar.updatePreferences t.userId profileId t.config).profiles ∧
      t' = t.at (if db.profiles.find profileId = none then
        .returned (t.respond (t.profile profileId (db.getLatestVersion t.userId + 1)))
        else .raised .dataConflict) := by
  obtain ⟨newUser, users, husers, hread⟩ := ensureUser_alone db t hstart profileId
  have hlatest : radar.latestVersion t.userId = db.getLatestVersion t.userId := by
    rw [RadarDb.latestVersion, hprofiles]
    rfl
  have hradar : (radar.updatePreferences t.userId profileId t.config).profiles =
      ((db.profiles.retire (db.activeIds t.userId)).toTable.insert
        (t.profile profileId (db.getLatestVersion t.userId + 1))).getD db.profiles.toTable := by
    rw [RadarDb.updatePreferences, hlatest, hprofiles, retire_activeIds]
    unfold UpdateThread.profile
    split
    next hrefused => rw [hrefused, Option.getD_none, hprofiles]
    next hinsert => rw [hinsert, Option.getD_some]
  by_cases hfree : db.profiles.find profileId = none
  · obtain ⟨profiles, hinsert⟩ : ∃ profiles, (db.profiles.retire (db.activeIds t.userId)).insert
        (t.profile profileId (db.getLatestVersion t.userId + 1)) = some profiles :=
      ⟨_, dif_pos (accepts_next t.config (Table.find_eq_none_iff.mp hfree))⟩
    refine ⟨⟨users, profiles⟩, _, hread.trans (create_alone t husers hinsert), ?_, ?_⟩
    · rw [hradar, insert_table hinsert, Option.getD_some]
    · rw [if_pos hfree]
  · obtain ⟨old, hold⟩ := Option.ne_none_iff_exists'.mp hfree
    obtain ⟨ho, hid⟩ := Table.find_eq_some_iff.mp hold
    have htaken : ∃ row ∈ (db.profiles.retire (db.activeIds t.userId)).rows, row.id = profileId :=
      ⟨old.retire _, List.mem_map_of_mem ho, by rw [PreferenceProfile.retire_id, hid]⟩
    have hrefused : updateStep (some profileId) db (t.at (.deactivated newUser
        (db.getLatestVersion t.userId + 1) (db.activeIds t.userId))) =
          some (db, t.at (.raised .dataConflict)) := by
      simp only [updateStep, UpdateThread.at]
      rw [insert_refused htaken]
    refine ⟨db, _, hread.tail ⟨some profileId, hrefused⟩, ?_, ?_⟩
    · rw [hradar, Table.insert_eq_none_iff.mpr htaken, Option.getD_none]
    · rw [if_neg hfree]

end Alone

end JobRadar
