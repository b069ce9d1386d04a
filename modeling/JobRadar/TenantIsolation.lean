import JobRadar.TenantViews
import JobRadar.Tenants

namespace JobRadar

open Database Http Python

/-- What a call relies on: the ids it draws are not in use, and a task or a notification is about
the user's own source, run or profile. -/
def ApiCall.WellFormed (s : ApiState) (c : ApiCall) : Prop :=
  match c.action with
  | .createSource sourceId _ => s.radar.sources.find sourceId = none ∧
      (∀ r ∈ s.radar.jobs.records, r.sourceId ≠ sourceId) ∧ ∀ run ∈ s.runs, run.sourceId ≠ sourceId
  | .runSource _ runId _ => s.runs.find runId = none
  | .updatePreferences profileId _ | .updatePreferencesV2 profileId _ =>
    s.radar.profiles.find profileId = none ∧ ∀ d ∈ s.deliveries, d.profileId ≠ profileId
  | .work d _ =>
    (∀ source, s.radar.sources.find d.sourceId = some source → source.userId = c.userId) ∧
      ∀ run, s.runs.find d.runId = some run → run.sourceId = d.sourceId
  | .notify _ profileId _ _ _ =>
    ∀ profile, s.radar.profiles.find profileId = some profile → profile.userId = c.userId
  | _ => True

/-- The action writes no job, no match and no role. -/
def ApiAction.Private : ApiAction → Prop
  | .matchJob .. | .deleteMe | .work .. => False
  | _ => True

instance : DecidablePred ApiAction.Private := fun action => by
  cases action <;> unfold ApiAction.Private <;> infer_instance

namespace ApiState

variable {ctx : ApiContext} {s : ApiState} {userId other : Uuid}

section References

variable {db db' : AppDb}

theorem ownReferences_of (h : db.OwnReferences) (htokens : db'.auth.tokens = db.auth.tokens)
    (hsessions : db'.auth.sessions = db.auth.sessions)
    (hdeliveries : db'.deliveries = db.deliveries)
    (hprofiles : db'.radar.profiles = db.radar.profiles) : db'.OwnReferences := by
  refine ⟨?_, ?_⟩
  · rw [htokens, hsessions]
    exact h.sessions
  · rw [hdeliveries, hprofiles]
    exact h.profiles

theorem createSource_references (h : s.toAppDb.OwnReferences) (sourceId : Uuid)
    (input : SourceInput) : (s.createSource userId sourceId input).1.toAppDb.OwnReferences := by
  unfold createSource
  split
  next => exact h
  next =>
    split
    next => exact h
    next =>
      have huntouched := ensureUser_untouched s.auth userId
      exact ownReferences_of h huntouched.tokens huntouched.sessions rfl rfl

theorem updatePreferences_references (h : s.toAppDb.OwnReferences) {profileId : Uuid}
    (huncited : ∀ d ∈ s.deliveries, d.profileId ≠ profileId) (config : PreferenceInput) :
    (s.updatePreferences userId profileId config).1.toAppDb.OwnReferences := by
  unfold updatePreferences
  split
  next => exact h
  next =>
    have huntouched := ensureUser_untouched s.auth userId
    refine ⟨?_, ?_⟩
    · change ∀ token ∈ (s.auth.ensureUser userId).tokens.rows,
        ∀ session ∈ (s.auth.ensureUser userId).sessions.rows, _
      rw [huntouched.tokens, huntouched.sessions]
      exact h.sessions
    · intro delivery hdelivery profile hprofile hid
      change profile ∈ (s.radar.updatePreferences userId profileId config).profiles at hprofile
      unfold RadarDb.updatePreferences at hprofile
      dsimp only at hprofile
      split at hprofile
      next => exact h.profiles delivery hdelivery profile hprofile hid
      next profiles hinsert =>
        rcases (Table.mem_of_insert hinsert).mp hprofile with hold | rfl
        · obtain ⟨old, hmem, rfl⟩ := (Table.mem_updateWhere
            (f := fun p : PreferenceProfile => { p with isActive := false }) fun _ => rfl).mp hold
          have hkept := h.profiles delivery hdelivery old hmem
          split at hid
          next hretired =>
            rw [if_pos hretired]
            exact hkept hid
          next hretired =>
            rw [if_neg hretired]
            exact hkept hid
        · exact absurd hid (huncited delivery hdelivery)

theorem notify_references (h : s.toAppDb.OwnReferences) {key : DeliveryKey}
    (hprofile : ∀ profile, s.radar.profiles.find key.profileId = some profile →
      profile.userId = key.userId) (decision : Decision) (reply : ProviderReply) :
    (s.notify key decision reply).1.toAppDb.OwnReferences := by
  refine ⟨h.sessions, ?_⟩
  intro delivery hdelivery profile hmem hid
  rcases deliver_keys (s := ⟨s.deliveries, []⟩) hdelivery with hkey | ⟨old, hold, hkey⟩
  · have hdelivered : delivery.userId = key.userId := congrArg DeliveryKey.userId hkey
    have hprofileId : delivery.profileId = key.profileId := congrArg DeliveryKey.profileId hkey
    rw [hdelivered]
    exact hprofile profile (Table.find_eq_some_iff.mpr ⟨hmem, (hid.symm.trans hprofileId)⟩)
  · have hkept := h.profiles old hold profile hmem
      ((congrArg DeliveryKey.profileId hkey).trans hid)
    exact hkept.trans (congrArg DeliveryKey.userId hkey)

theorem deleteMe_references (h : s.toAppDb.OwnReferences) :
    (s.deleteMe userId).1.toAppDb.OwnReferences := by
  unfold deleteMe AppDb.deleteUser
  cases s.auth.user userId with
  | none => exact h
  | some user =>
    refine ⟨?_, ?_⟩
    · intro token htoken session hsession
      exact h.sessions token (Table.mem_deleteWhere.mp htoken).1 session
        (Table.mem_deleteWhere.mp hsession).1
    · intro delivery hdelivery profile hprofile
      exact h.profiles delivery (Table.mem_deleteWhere.mp hdelivery).1 profile
        (Table.mem_deleteWhere.mp hprofile).1

end References

section Calls

variable {c : ApiCall}

/-- A call answers a user from the user's part of the tables, and has its effect there. -/
theorem act_own (ctx : ApiContext) (hwf : c.WellFormed s) :
    (s.part c.userId).act ctx c.userId c.action =
      ((s.act ctx c.userId c.action).1.part c.userId, (s.act ctx c.userId c.action).2) := by
  obtain ⟨userId, action⟩ := c
  cases action with
  | createSource sourceId input => exact createSource_own hwf.1 hwf.2.1 hwf.2.2 input
  | listSources => simp only [act, listSources_own]
  | runSource sourceId runId now => exact runSource_own hwf sourceId now
  | getRun runId => simp only [act, getRun_own]
  | getPreferences => simp only [act, getActive_own]
  | getPreferencesV2 => simp only [act, getActive_own]
  | updatePreferences profileId config => simp only [act, updatePreferences_own hwf.1]
  | updatePreferencesV2 profileId update => simp only [act, updatePreferences_own hwf.1]
  | listJobs filters page pageSize => simp only [act, listJobs_own]
  | getJob jobId => simp only [act, getJob_own]
  | getMatch jobId => simp only [act, getMatch_own]
  | matchJob matchId jobId now => exact matchJob_own matchId jobId now
  | saveFeedback jobId label note => exact saveFeedback_own jobId label note
  | getDelivery deliveryId => simp only [act, getDelivery_own]
  | deleteMe => exact deleteMe_own
  | work d columns => simp only [act, work_own hwf.1 hwf.2]
  | notify jobId profileId channel decision reply =>
    exact notify_own ⟨userId, jobId, profileId, channel⟩ decision reply

theorem act_other (ctx : ApiContext) (hown : s.toAppDb.OwnReferences) (hwf : c.WellFormed s)
    (hother : other ≠ c.userId) :
    (s.act ctx c.userId c.action).1.part other =
      (s.act ctx c.userId c.action).1.share (s.part other) := by
  obtain ⟨userId, action⟩ := c
  cases action with
  | createSource sourceId input => exact createSource_other hwf.2.1 hwf.2.2 input hother
  | listSources => rfl
  | runSource sourceId runId now => exact runSource_other hother sourceId runId now
  | getRun runId => rfl
  | getPreferences => rfl
  | getPreferencesV2 => rfl
  | updatePreferences profileId config => exact updatePreferences_other hother profileId config
  | updatePreferencesV2 profileId update =>
    exact updatePreferences_other hother profileId update.preferences
  | listJobs filters page pageSize => rfl
  | getJob jobId => rfl
  | getMatch jobId => rfl
  | matchJob matchId jobId now => exact matchJob_other matchId jobId now
  | saveFeedback jobId label note => exact saveFeedback_other hother jobId label note
  | getDelivery deliveryId => rfl
  | deleteMe => exact deleteMe_other hother hown
  | work d columns => exact work_other hother hwf.1 hwf.2 columns
  | notify jobId profileId channel decision reply => exact notify_other hother decision reply

theorem act_references (ctx : ApiContext) (hown : s.toAppDb.OwnReferences) (hwf : c.WellFormed s) :
    (s.act ctx c.userId c.action).1.toAppDb.OwnReferences := by
  obtain ⟨userId, action⟩ := c
  cases action with
  | createSource sourceId input => exact createSource_references hown sourceId input
  | runSource sourceId runId now =>
    obtain ⟨runs, hs', -⟩ := s.runSource_runs userId sourceId runId now
    change (s.runSource userId sourceId runId now).1.toAppDb.OwnReferences
    rw [hs']
    exact ownReferences_of hown rfl rfl rfl rfl
  | updatePreferences profileId config => exact updatePreferences_references hown hwf.2 config
  | updatePreferencesV2 profileId update =>
    exact updatePreferences_references hown hwf.2 update.preferences
  | matchJob matchId jobId now =>
    obtain ⟨results, hradar⟩ := RadarDb.matchJob_frame s.radar ctx.lib.casefold matchId jobId
      userId now
    have hprofiles := congrArg RadarDb.profiles hradar
    exact ownReferences_of hown rfl rfl rfl hprofiles
  | saveFeedback jobId label note =>
    obtain ⟨feedback, hs', -⟩ := s.saveFeedback_feedback userId jobId label note
    change (s.saveFeedback userId jobId label note).1.toAppDb.OwnReferences
    rw [hs']
    exact ownReferences_of hown rfl rfl rfl rfl
  | deleteMe => exact deleteMe_references hown
  | work d columns => exact ownReferences_of hown rfl rfl rfl rfl
  | notify jobId profileId channel decision reply =>
    refine notify_references hown ?_ decision reply
    exact hwf
  | _ => exact hown

theorem share_kept {s' t : ApiState} (hroles : s'.auth.roles = s.auth.roles)
    (hjobs : s'.radar.jobs = s.radar.jobs) (hmatches : s'.radar.matchResults = s.radar.matchResults)
    (hcolumns : s'.columns = s.columns) (hids : s'.deliveryIds = s.deliveryIds) :
    s'.share t = s.share t := by
  simp only [share, hroles, hjobs, hmatches, hcolumns, hids]

theorem act_private (hprivate : c.action.Private) :
    (s.act ctx c.userId c.action).1.share (s.part other) = s.part other := by
  have hself : s.share (s.part other) = s.part other := rfl
  have hpreferences : ∀ userId profileId config,
      (s.updatePreferences userId profileId config).1.share (s.part other) =
        s.share (s.part other) := by
    intro userId profileId config
    unfold updatePreferences
    split
    next => rfl
    next =>
      obtain ⟨profiles, hradar⟩ := RadarDb.updatePreferences_frame s.radar userId profileId config
      have hjobs := congrArg RadarDb.jobs hradar
      have hmatches := congrArg RadarDb.matchResults hradar
      exact share_kept AuthDb.ensureUser_roles hjobs hmatches rfl rfl
  obtain ⟨userId, action⟩ := c
  rw [← hself]
  cases action with
  | createSource sourceId input =>
    change (s.createSource userId sourceId input).1.share _ = _
    unfold createSource
    split
    next => exact hself
    next =>
      split
      next => exact hself
      next => exact share_kept AuthDb.ensureUser_roles rfl rfl rfl rfl
  | runSource sourceId runId now =>
    obtain ⟨runs, hs', -⟩ := s.runSource_runs userId sourceId runId now
    change (s.runSource userId sourceId runId now).1.share _ = _
    rw [hs']
    exact share_kept rfl rfl rfl rfl rfl
  | updatePreferences profileId config => exact hpreferences userId profileId config
  | updatePreferencesV2 profileId update => exact hpreferences userId profileId update.preferences
  | saveFeedback jobId label note =>
    obtain ⟨feedback, hs', -⟩ := s.saveFeedback_feedback userId jobId label note
    change (s.saveFeedback userId jobId label note).1.share _ = _
    rw [hs']
    exact share_kept rfl rfl rfl rfl rfl
  | matchJob matchId jobId now => exact hprivate.elim
  | deleteMe => exact hprivate.elim
  | work d columns => exact hprivate.elim
  | notify jobId profileId channel decision reply => exact share_kept rfl rfl rfl rfl rfl
  | _ => exact hself

end Calls

end ApiState

/-- The routes and the workers, on tables that the users share. -/
def tenants (ctx : ApiContext) : Tenants ApiState ApiCall (Except ApiError ApiData) Uuid where
  step s c := s.act ctx c.userId c.action
  owner := ApiCall.userId
  part := ApiState.part
  share := ApiState.share

theorem tenants_separate (ctx : ApiContext) : (tenants ctx).Separates
    (fun s => s.toAppDb.OwnReferences) (fun s c => c.WellFormed s) where
  keeps _ _ hown hwf := ApiState.act_references ctx hown hwf
  own _ _ _ hwf := ApiState.act_own ctx hwf
  other _ _ _ hown hwf hother := ApiState.act_other ctx hown hwf hother
  share_part s t userId := ApiState.share_part s t userId

/-- The shared tables answer every user, in any order of calls, as tables of the user's own would
that have nothing in common with the others' but the jobs, the matches and the roles. -/
theorem tables_of_their_own {ctx : ApiContext} {s : ApiState} {calls : List ApiCall}
    (hown : s.toAppDb.OwnReferences)
    (hwf : (tenants ctx).Along (fun s c => c.WellFormed s) s calls) :
    (tenants ctx).runApart (fun userId => s.part userId) calls =
      (fun userId => ((tenants ctx).run s calls).1.part userId, ((tenants ctx).run s calls).2) :=
  Tenants.run_refines (tenants_separate ctx) hown hwf

/-- As long as the others neither ingest nor match nor are deleted, a user is answered as if there
were no one else. -/
theorem answered_as_if_alone {ctx : ApiContext} {s : ApiState} {calls : List ApiCall}
    {userId : Uuid} (hown : s.toAppDb.OwnReferences)
    (hwf : (tenants ctx).Along (fun s c => c.WellFormed s) s calls)
    (hprivate : ∀ c ∈ calls, c.userId ≠ userId → c.action.Private) :
    Tenants.repliesTo userId ((tenants ctx).run s calls).2 =
      ((tenants ctx).run (s.part userId) (calls.filter fun c => c.userId = userId)).2 := by
  apply Tenants.replies_alone (tenants_separate ctx) hown
  apply hwf.imp
  intro s c hc hcall
  exact ⟨hcall, fun hother => ApiState.act_private (hprivate c hc hother)⟩

section Example

def plainContext : ApiContext where
  lib := emptyTextLib
  sql := plainSql
  firstJob := .head
  firstMatch := .head

def acmeInput : SourceInput where
  kind := .greenhouse
  name := text "acme"
  config := []
  named := by decide

def acmeResponse : SourceResponse where
  id := 10
  kind := "greenhouse"
  name := text "acme"
  config := []
  schedule := acmeInput.schedule
  enabled := acmeInput.enabled

/-- The first user adds a source, and both list theirs. -/
def twoUsers : List ApiCall :=
  [⟨1, .createSource 10 acmeInput⟩, ⟨2, .listSources⟩, ⟨1, .listSources⟩]

theorem twoUsers_wellFormed :
    (tenants plainContext).Along (fun s c => c.WellFormed s) {} twoUsers := by
  refine ⟨⟨rfl, ?_, ?_⟩, trivial, trivial, trivial⟩
  · intro r hr
    cases hr
  · intro run hrun
    cases hrun

theorem empty_ownReferences : AppDb.OwnReferences {} := by
  refine ⟨?_, ?_⟩
  · intro token htoken
    cases htoken
  · intro delivery hdelivery
    cases hdelivery

theorem twoUsers_apart : ((tenants plainContext).runApart (fun userId => ApiState.part userId {})
    twoUsers).2 = [(1, .ok (.source acmeResponse)), (2, .ok (.sources [])),
      (1, .ok (.sources [acmeResponse]))] := by
  rw [tables_of_their_own empty_ownReferences twoUsers_wellFormed]
  rfl

theorem second_user_alone :
    Tenants.repliesTo 2 ((tenants plainContext).run {} twoUsers).2 = [(2, .ok (.sources []))] :=
  answered_as_if_alone empty_ownReferences twoUsers_wellFormed (by
    intro c hc _
    simp only [twoUsers, List.mem_cons, List.not_mem_nil, or_false] at hc
    rcases hc with rfl | rfl | rfl <;> trivial)

end Example

end JobRadar
