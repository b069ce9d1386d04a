import JobRadar.PreferenceUpdates
import Mathlib.Order.Nat

namespace JobRadar

open Database Interleave

/-- The versions of each user are 1 to n, and version n alone is active. -/
structure PreferenceDb.VersionsKept (db : PreferenceDb) : Prop where
  versions : ∀ userId, (db.versions userId).Perm (List.range' 1 (db.versions userId).length)
  active : ∀ userId, 0 < (db.versions userId).length →
    db.activeVersions userId = [(db.versions userId).length]

/-- Every profile is still there, active or not, with the config it had. -/
def PreferenceDb.KeptIn (db db' : PreferenceDb) : Prop :=
  ∀ p ∈ db.profiles.rows, ∃ p' ∈ db'.profiles.rows, p' = { p with isActive := p'.isActive }

section Commit

variable {db db' : PreferenceDb} {newUser : Bool} {retired : List Uuid} {p : PreferenceProfile}
  {userId : Uuid} {version : Nat}

theorem commit_profiles (h : db.commit newUser retired p = some db') :
    (db.profiles.retire retired).insert p = some db'.profiles := by
  obtain ⟨users, -, h⟩ := Option.bind_eq_some_iff.mp h
  obtain ⟨profiles, hprofiles, h⟩ := Option.bind_eq_some_iff.mp h
  cases Option.some.inj h
  exact hprofiles

theorem commit_rows (h : db.commit newUser retired p = some db') :
    db'.profiles.rows = db.profiles.rows.map (PreferenceProfile.retire retired) ++ [p] :=
  (PreferenceProfiles.insert_eq_some (commit_profiles h)).2

theorem mem_versions : version ∈ db.versions userId ↔
    ∃ p ∈ db.profiles.rows, p.userId = userId ∧ p.version = version := by
  simp [PreferenceDb.versions, and_assoc]

theorem version_new_of_commit (h : db.commit newUser retired p = some db') :
    p.version ∉ db.versions p.userId := by
  intro hmem
  obtain ⟨old, ho, huser, hversion⟩ := mem_versions.mp hmem
  have haccepts := (PreferenceProfiles.insert_eq_some (commit_profiles h)).1
  have hclear := haccepts (old.retire retired) (List.mem_map_of_mem ho)
  exact hclear.2.1 (by simpa using ⟨huser, hversion⟩)

theorem versions_commit (h : db.commit newUser retired p = some db') (userId : Uuid) :
    db'.versions userId = db.versions userId ++ if p.userId = userId then [p.version] else [] := by
  have hfilter : ((fun q : PreferenceProfile => decide (q.userId = userId)) ∘
      PreferenceProfile.retire retired) = fun q => decide (q.userId = userId) := by
    funext q
    simp
  have hversion : PreferenceProfile.version ∘ PreferenceProfile.retire retired =
      PreferenceProfile.version := by
    funext q
    simp
  unfold PreferenceDb.versions
  rw [commit_rows h, List.filter_append, List.map_append, List.filter_map, List.map_map, hfilter,
    hversion]
  by_cases hp : p.userId = userId <;> simp [hp]

theorem activeVersions_commit_self (h : db.commit newUser retired p = some db')
    (hactive : p.isActive = true)
    (hall : ∀ old ∈ db.profiles.rows, old.userId = p.userId → old.isActive = true →
      old.id ∈ retired) : db'.activeVersions p.userId = [p.version] := by
  have hnone : (db.profiles.rows.map (PreferenceProfile.retire retired)).filter
      (fun q => q.userId = p.userId ∧ q.isActive) = [] := by
    apply List.filter_eq_nil_iff.mpr
    intro q hq hmatch
    obtain ⟨old, ho, rfl⟩ := List.mem_map.mp hq
    simp only [PreferenceProfile.retire_userId, PreferenceProfile.retire_isActive,
      decide_eq_true_eq] at hmatch
    exact hmatch.2.1 (hall old ho hmatch.1 hmatch.2.2)
  unfold PreferenceDb.activeVersions
  rw [commit_rows h, List.filter_append, hnone]
  simp [hactive]

theorem activeVersions_commit_other (h : db.commit newUser retired p = some db')
    (hne : userId ≠ p.userId)
    (howner : ∀ old ∈ db.profiles.rows, old.id ∈ retired → old.userId = p.userId) :
    db'.activeVersions userId = db.activeVersions userId := by
  have hrows : (db.profiles.rows.map (PreferenceProfile.retire retired)).filter
      (fun q => q.userId = userId ∧ q.isActive) =
      db.profiles.rows.filter fun q => q.userId = userId ∧ q.isActive := by
    rw [List.filter_map]
    have hsame : ∀ q ∈ db.profiles.rows, q.userId = userId → q.retire retired = q := by
      intro q hq huser
      unfold PreferenceProfile.retire
      rw [if_neg fun hid => hne (huser ▸ howner q hq hid)]
    have hfilter : db.profiles.rows.filter ((fun q : PreferenceProfile =>
        decide (q.userId = userId ∧ q.isActive)) ∘ PreferenceProfile.retire retired) =
        db.profiles.rows.filter fun q => q.userId = userId ∧ q.isActive := by
      apply List.filter_congr
      intro q hq
      by_cases huser : q.userId = userId
      · rw [Function.comp_apply, hsame q hq huser]
      · simp [huser]
    rw [hfilter]
    conv_rhs => rw [← List.map_id (List.filter _ _)]
    apply List.map_congr_left
    intro q hq
    obtain ⟨hq, hmatch⟩ := List.mem_filter.mp hq
    exact hsame q hq (of_decide_eq_true hmatch).1
  unfold PreferenceDb.activeVersions
  rw [commit_rows h, List.filter_append, hrows]
  simp [hne.symm]

theorem keptIn_commit (h : db.commit newUser retired p = some db') : db.KeptIn db' := by
  intro q hq
  refine ⟨q.retire retired, ?_, ?_⟩
  · rw [commit_rows h]
    exact List.mem_append_left _ (List.mem_map_of_mem hq)
  · unfold PreferenceProfile.retire
    split <;> rfl

theorem PreferenceDb.KeptIn.refl (db : PreferenceDb) : db.KeptIn db :=
  fun q hq => ⟨q, hq, rfl⟩

theorem PreferenceDb.KeptIn.trans {mid : PreferenceDb} (h : db.KeptIn mid) (h' : mid.KeptIn db') :
    db.KeptIn db' := by
  intro q hq
  obtain ⟨r, hr, hqr⟩ := h q hq
  obtain ⟨x, hx, hrx⟩ := h' r hr
  refine ⟨x, hx, ?_⟩
  rw [hrx, hqr]

theorem PreferenceDb.VersionsKept.next (h : db.VersionsKept) (hpos : 0 < version)
    (hle : version ≤ (db.versions userId).length + 1) (hnew : version ∉ db.versions userId) :
    version = (db.versions userId).length + 1 := by
  by_contra hne
  apply hnew
  rw [(h.versions userId).mem_iff, List.mem_range'_1]
  omega

theorem PreferenceDb.VersionsKept.latest_le (h : db.VersionsKept) (userId : Uuid) :
    db.getLatestVersion userId ≤ (db.versions userId).length := by
  refine List.max_le_of_forall_le (db.versions userId) _ ?_
  intro version hmem
  rw [(h.versions userId).mem_iff, List.mem_range'_1] at hmem
  omega

theorem PreferenceDb.VersionsKept.commit (h : db.VersionsKept)
    (hcommit : db.commit newUser retired p = some db') (hactive : p.isActive = true)
    (hpos : 0 < p.version) (hle : p.version ≤ (db.versions p.userId).length + 1)
    (howner : ∀ old ∈ db.profiles.rows, old.id ∈ retired → old.userId = p.userId)
    (hall : ∀ old ∈ db.profiles.rows, old.userId = p.userId → old.isActive = true →
      old.id ∈ retired) : db'.VersionsKept := by
  have hnext := h.next hpos hle (version_new_of_commit hcommit)
  constructor
  · intro userId
    rw [versions_commit hcommit]
    by_cases hp : p.userId = userId
    · subst hp
      rw [if_pos rfl, List.length_append, List.length_singleton, List.range'_1_concat, hnext,
        Nat.add_comm 1]
      exact (h.versions p.userId).append_right _
    · rw [if_neg hp, List.append_nil]
      exact h.versions userId
  · intro userId
    rw [versions_commit hcommit]
    by_cases hp : p.userId = userId
    · subst hp
      intro _
      rw [if_pos rfl, List.length_append, List.length_singleton,
        activeVersions_commit_self hcommit hactive hall, hnext]
    · rw [if_neg hp, List.append_nil, activeVersions_commit_other hcommit (Ne.symm hp) howner]
      exact h.active userId

end Commit

/-- The version that the call has chosen. -/
def UpdatePhase.version : UpdatePhase → Option Nat
  | .versionRead _ version => some version
  | .deactivated _ version _ => some version
  | .inserted _ version _ _ => some version
  | _ => none

def UpdatePhase.retired : UpdatePhase → Option (List Uuid)
  | .deactivated _ _ retired => some retired
  | .inserted _ _ retired _ => some retired
  | _ => none

/-- Where a call can be after its commit. -/
def UpdatePhase.settled : UpdatePhase → Bool
  | .committed _ => true
  | .returned _ => true
  | .raised .statementFailed => true
  | _ => false

section Steps

variable {answer : Option Uuid} {db db' : PreferenceDb} {t t' : UpdateThread}

/-- The steps that leave the committed state alone. -/
structure QuietUpdate (db : PreferenceDb) (t : UpdateThread) (phase : UpdatePhase) : Prop where
  version : ∀ version, phase.version = some version →
    t.phase.version = some version ∨ version = db.getLatestVersion t.userId + 1
  retired : ∀ retired, phase.retired = some retired →
    (t.phase.retired = some retired ∧ t.phase.version = phase.version) ∨
      retired = db.activeIds t.userId
  settled : t.phase.settled = true → phase.settled = true

theorem updateStep_cases (hs : updateStep answer db t = some (db', t')) :
    (∃ phase, db' = db ∧ t' = t.at phase ∧ QuietUpdate db t phase) ∨
      ∃ newUser version retired profileId, t.phase = .inserted newUser version retired profileId ∧
        db.commit newUser retired (t.profile profileId version) = some db' ∧
        t' = t.at (.committed profileId) := by
  have hquiet : ∀ phase, QuietUpdate db t phase → some (db, t.at phase) = some (db', t') →
      ∃ phase, db' = db ∧ t' = t.at phase ∧ QuietUpdate db t phase := by
    intro phase hphase he
    cases he
    exact ⟨phase, rfl, rfl, hphase⟩
  have hplain : ∀ phase, phase.version = none → phase.retired = none →
      (t.phase.settled = true → phase.settled = true) → QuietUpdate db t phase := by
    intro phase hversion hretired hsettled
    refine ⟨?_, ?_, hsettled⟩
    · intro version hv
      rw [hversion] at hv
      cases hv
    · intro retired hr
      rw [hretired] at hr
      cases hr
  unfold updateStep at hs
  split at hs
  next => cases hs
  next => cases hs
  next => exact Or.inl (hquiet _ (hplain _ rfl rfl fun _ => rfl) hs)
  next hp =>
    left
    split at hs
    next => exact hquiet _ (hplain _ rfl rfl (by simp [hp, UpdatePhase.settled])) hs
    next => exact hquiet _ (hplain _ rfl rfl (by simp [hp, UpdatePhase.settled])) hs
  next hp =>
    left
    split at hs
    next => exact hquiet _ (hplain _ rfl rfl (by simp [hp, UpdatePhase.settled])) hs
    next => exact hquiet _ (hplain _ rfl rfl (by simp [hp, UpdatePhase.settled])) hs
  next newUser _ hp =>
    refine Or.inl (hquiet _ ⟨?_, ?_, ?_⟩ hs)
    · intro version hv
      exact Or.inr (Option.some.inj hv).symm
    · intro retired hr
      cases hr
    · simp [hp, UpdatePhase.settled]
  next newUser version _ hp =>
    refine Or.inl (hquiet _ ⟨?_, ?_, ?_⟩ hs)
    · intro version' hv
      cases hv
      exact Or.inl (by rw [hp]; rfl)
    · intro retired hr
      exact Or.inr (Option.some.inj hr).symm
    · simp [hp, UpdatePhase.settled]
  next newUser version retired profileId hp =>
    left
    split at hs
    next => exact hquiet _ (hplain _ rfl rfl (by simp [hp, UpdatePhase.settled])) hs
    next =>
      refine hquiet _ ⟨?_, ?_, ?_⟩ hs
      · intro version' hv
        cases hv
        exact Or.inl (by rw [hp]; rfl)
      · intro retired' hr
        cases hr
        exact Or.inl ⟨by rw [hp]; rfl, by rw [hp]; rfl⟩
      · simp [hp, UpdatePhase.settled]
  next newUser version retired profileId _ hp =>
    split at hs
    next => exact Or.inl (hquiet _ (hplain _ rfl rfl (by simp [hp, UpdatePhase.settled])) hs)
    next hcommit =>
      cases hs
      exact Or.inr ⟨newUser, version, retired, profileId, hp, hcommit, rfl⟩
  next profileId _ hp =>
    left
    split at hs
    next => exact hquiet _ (hplain _ rfl rfl fun _ => rfl) hs
    next => exact hquiet _ (hplain _ rfl rfl fun _ => rfl) hs

/-- What a call that has not committed knows of the committed state: its version is at most the
next one, the rows it has matched are the user's, and as long as nobody has taken its version
they are all the active ones. -/
structure UpdateThread.Sound (t : UpdateThread) (db : PreferenceDb) : Prop where
  version : ∀ version, t.phase.version = some version →
    0 < version ∧ version ≤ (db.versions t.userId).length + 1
  owner : ∀ retired, t.phase.retired = some retired → ∀ id ∈ retired,
    ∃ p ∈ db.profiles.rows, p.id = id ∧ p.userId = t.userId
  complete : ∀ version retired, t.phase.version = some version → t.phase.retired = some retired →
    version ∉ db.versions t.userId → ∀ p ∈ db.profiles.rows, p.userId = t.userId →
      p.isActive = true → p.id ∈ retired

theorem UpdateThread.Sound.owns (h : t.Sound db) {retired : List Uuid}
    (hretired : t.phase.retired = some retired) {p : PreferenceProfile}
    (hp : p ∈ db.profiles.rows) (hid : p.id ∈ retired) : p.userId = t.userId := by
  obtain ⟨old, ho, hkey, huser⟩ := h.owner retired hretired p.id hid
  rwa [Table.eq_of_key_eq ho hp hkey] at huser

theorem UpdateThread.Sound.quiet (h : t.Sound db) (hkept : db.VersionsKept) {phase : UpdatePhase}
    (hq : QuietUpdate db t phase) : (t.at phase).Sound db := by
  constructor
  · intro version hversion
    rcases hq.version version hversion with hold | rfl
    · exact h.version version hold
    · have hle := hkept.latest_le t.userId
      simp only [UpdateThread.at]
      omega
  · intro retired hretired id hid
    rcases hq.retired retired hretired with ⟨hold, -⟩ | rfl
    · exact h.owner retired hold id hid
    · obtain ⟨p, hp, rfl⟩ := List.mem_map.mp hid
      obtain ⟨hp, hmatch⟩ := List.mem_filter.mp hp
      exact ⟨p, hp, rfl, (of_decide_eq_true hmatch).1⟩
  · intro version retired hversion hretired hfree p hp huser hactive
    rcases hq.retired retired hretired with ⟨hold, hsame⟩ | rfl
    · exact h.complete version retired (hsame.trans hversion) hold hfree p hp huser hactive
    · refine List.mem_map.mpr ⟨p, List.mem_filter.mpr ⟨hp, ?_⟩, rfl⟩
      exact decide_eq_true ⟨huser, hactive⟩

theorem UpdateThread.Sound.commit (h : t.Sound db) (hkept : db.VersionsKept) {newUser : Bool}
    {retired : List Uuid} {p : PreferenceProfile} (hcommit : db.commit newUser retired p = some db')
    (hnext : p.version = (db.versions p.userId).length + 1) : t.Sound db' := by
  have hversions := versions_commit hcommit t.userId
  constructor
  · intro version hversion
    obtain ⟨hpos, hle⟩ := h.version version hversion
    rw [hversions, List.length_append]
    omega
  · intro ids hids id hid
    obtain ⟨old, ho, hkey, huser⟩ := h.owner ids hids id hid
    refine ⟨old.retire retired, ?_, by simpa using hkey, by simpa using huser⟩
    rw [commit_rows hcommit]
    exact List.mem_append_left _ (List.mem_map_of_mem ho)
  · intro version ids hversion hids hfree q hq huser hactive
    obtain ⟨hpos, hle⟩ := h.version version hversion
    rw [hversions, List.mem_append, not_or] at hfree
    have hlast := hkept.next hpos hle hfree.1
    have hother : p.userId ≠ t.userId := by
      intro hsame
      apply hfree.2
      rw [if_pos hsame, List.mem_singleton, hlast, hnext, hsame]
    rw [commit_rows hcommit] at hq
    rcases List.mem_append.mp hq with hq | hq
    · obtain ⟨old, ho, rfl⟩ := List.mem_map.mp hq
      rw [PreferenceProfile.retire_userId] at huser
      rw [PreferenceProfile.retire_isActive] at hactive
      rw [PreferenceProfile.retire_id]
      exact h.complete version ids hversion hids hfree.1 old ho huser hactive.2
    · rw [List.mem_singleton.mp hq] at huser
      exact absurd huser hother

theorem updateStep_keptIn (hs : updateStep answer db t = some (db', t')) : db.KeptIn db' := by
  rcases updateStep_cases hs with ⟨phase, rfl, -, -⟩ | ⟨_, _, _, _, -, hcommit, -⟩
  · exact .refl _
  · exact keptIn_commit hcommit

end Steps

section Runs

variable {ι : Type}

structure UpdatesSound (c : Pool ι PreferenceDb UpdateThread) : Prop where
  kept : c.store.VersionsKept
  threads : ∀ i, (c.thread i).Sound c.store

/-- A request to change the preferences, through either version of the API. -/
inductive PreferenceCall
  | v1 (userId : Uuid) (preferences : PreferenceInput)
  | v2 (userId : Uuid) (preferences : V2PreferenceUpdate)

def PreferenceCall.thread : PreferenceCall → UpdateThread
  | .v1 userId preferences => preferenceUpdate userId preferences
  | .v2 userId preferences => v2PreferenceUpdate userId preferences

/-- Any number of calls that are about to start. -/
def updates (db : PreferenceDb) (calls : ι → PreferenceCall) :
    Pool ι PreferenceDb UpdateThread where
  store := db
  thread i := (calls i).thread

theorem updatesSound_updates {db : PreferenceDb} (hkept : db.VersionsKept)
    (calls : ι → PreferenceCall) : UpdatesSound (updates db calls) := by
  refine ⟨hkept, ?_⟩
  intro i
  have hstart : ((updates db calls).thread i).phase = .start := by
    simp only [updates, PreferenceCall.thread]
    split <;> rfl
  constructor <;> simp [hstart, UpdatePhase.version, UpdatePhase.retired]

variable [DecidableEq ι] {c₀ c : Pool ι PreferenceDb UpdateThread}
  {es : List (Event ι (Option Uuid) PreferenceDb UpdateThread)}

theorem UpdatesSound.step {i : ι} {answer : Option Uuid} {r : PreferenceDb × UpdateThread}
    (h : UpdatesSound c) (hs : updateStep answer c.store (c.thread i) = some r) :
    UpdatesSound (c.set i r) := by
  obtain ⟨db', t'⟩ := r
  have hmover := h.threads i
  rcases updateStep_cases hs with ⟨phase, rfl, rfl, hquiet⟩ |
    ⟨newUser, version, retired, profileId, hp, hcommit, rfl⟩
  · exact ⟨h.kept, Pool.forall_set (Q := fun t : UpdateThread => t.Sound c.store)
      (hmover.quiet h.kept hquiet) fun j _ => h.threads j⟩
  · have hversion : (c.thread i).phase.version = some version := by rw [hp]; rfl
    have hretired : (c.thread i).phase.retired = some retired := by rw [hp]; rfl
    obtain ⟨hpos, hle⟩ := hmover.version version hversion
    have hnew : version ∉ c.store.versions (c.thread i).userId := version_new_of_commit hcommit
    have howner : ∀ old ∈ c.store.profiles.rows, old.id ∈ retired →
        old.userId = (c.thread i).userId := fun old ho hid => hmover.owns hretired ho hid
    have hnext := h.kept.next hpos hle hnew
    constructor
    · exact h.kept.commit hcommit rfl hpos hle howner
        (hmover.complete version retired hversion hretired hnew)
    · refine Pool.forall_set (Q := fun t : UpdateThread => t.Sound db') ?_ fun j _ =>
        (h.threads j).commit h.kept hcommit hnext
      constructor
      · intro version hversion
        cases hversion
      · intro retired hretired
        cases hretired
      · intro version retired hversion
        cases hversion

theorem profiles_keptIn (path : Path updateStep c₀ es c) :
    ∀ e ∈ es, e.before.store.KeptIn c.store := by
  induction path with
  | start => simp
  | step _ hs ih =>
    intro e he
    rcases List.mem_cons.mp he with rfl | he
    · exact updateStep_keptIn hs
    · exact (ih e he).trans (updateStep_keptIn hs)

theorem unsettled_unchanged (path : Path updateStep c₀ es c) {i : ι}
    (hi : (c.thread i).phase.settled = false) : ∀ e ∈ es, e.mover = i → ∀ r,
      updateStep e.answer e.before.store (e.before.thread e.mover) = some r →
        r.1 = e.before.store := by
  induction path with
  | start => simp
  | @step es c j answer r _ hs ih =>
    obtain ⟨db', t'⟩ := r
    have hcases := updateStep_cases hs
    intro e he hmover r' hr'
    rcases List.mem_cons.mp he with rfl | he
    · obtain rfl : j = i := hmover
      obtain rfl : (db', t') = r' := Option.some.inj (hs.symm.trans hr')
      rcases hcases with ⟨phase, rfl, -, -⟩ | ⟨_, _, _, _, -, -, rfl⟩
      · rfl
      · rw [Pool.set_thread_self] at hi
        cases hi
    · refine ih ?_ e he hmover r' hr'
      by_cases hj : i = j
      · subst hj
        rw [Pool.set_thread_self] at hi
        rcases hcases with ⟨phase, -, rfl, hquiet⟩ | ⟨_, _, _, _, hp, -, rfl⟩
        · by_contra hsettled
          rw [Bool.not_eq_false] at hsettled
          exact absurd (hquiet.settled hsettled) (by simpa [UpdateThread.at] using hi)
        · rw [hp]
          rfl
      · rwa [Pool.set_thread_ne _ _ hj] at hi

/-- In every committed state of any interleaving the versions are in order; a committed config
stays as it is; and a call that a constraint rejects has changed nothing. -/
theorem versions_kept {db : PreferenceDb} {calls : ι → PreferenceCall} (hkept : db.VersionsKept)
    (path : Path updateStep (updates db calls) es c) :
    (c.store.VersionsKept ∧ ∀ e ∈ es, e.before.store.VersionsKept) ∧
    (∀ e ∈ es, e.before.store.KeptIn c.store) ∧
    ∀ i, (c.thread i).phase = .raised .dataConflict → ∀ e ∈ es, e.mover = i → ∀ r,
      updateStep e.answer e.before.store (e.before.thread e.mover) = some r →
        r.1 = e.before.store := by
  obtain ⟨hlast, hbefore⟩ := path.always (updatesSound_updates hkept calls)
    fun _ _ _ _ h hs => h.step hs
  refine ⟨⟨hlast.kept, fun e he => (hbefore e he).kept⟩, profiles_keptIn path, ?_⟩
  intro i hrejected
  exact unsettled_unchanged path (by rw [hrejected]; rfl)

end Runs

def oneUser : PreferenceDb where
  users := ⟨[1], by decide⟩
  profiles := .empty

theorem oneUser_versionsKept : oneUser.VersionsKept where
  versions _ := .refl _
  active _ h := absurd h (Nat.lt_irrefl 0)

/-- The user saves preferences in both versions of the API at once. -/
def oneUserUpdates : Pool Bool PreferenceDb UpdateThread :=
  updates oneUser fun b => if b then .v1 1 { titles := [Python.text "Backend"] } else .v2 1 ⟨{}⟩

/-- Both read version 0 and insert version 1: one is rejected. -/
theorem oneUserUpdates_kept : ∃ es c, Path updateStep oneUserUpdates es c ∧
    (c.thread false).phase = .raised .dataConflict ∧ c.store.versions 1 = [1] ∧
    c.store.VersionsKept := by
  obtain ⟨es, c, hrun, hrejected, hversions⟩ : ∃ es c, exec updateStep [] oneUserUpdates
      (List.replicate 4 (true, some 21) ++ List.replicate 4 (false, some 22) ++
        [(true, some 21), (false, some 22)]) = some (es, c) ∧
      (c.thread false).phase = .raised .dataConflict ∧ c.store.versions 1 = [1] := by
    refine ⟨_, _, rfl, rfl, ?_⟩
    decide
  have path := exec_path .start _ hrun
  exact ⟨es, c, path, hrejected, hversions, (versions_kept oneUser_versionsKept path).1.1⟩

end JobRadar
