import JobRadar.RevocationThreads
import JobRadar.UserRows

namespace JobRadar

open Database Interleave

/-- Where a verification call stands between two statements. -/
inductive VerifyPhase
  | start
  | userRead (user : User)
  | codeRead (user : User) (record : VerificationCode) (now : Time)
  | marked (user : User) (record : VerificationCode) (now : Time)
  | verified
  | raised (error : AuthError)
  deriving DecidableEq

structure VerifyThread where
  cfg : Settings
  email : String
  code : String
  phase : VerifyPhase := .start

def VerifyThread.at (t : VerifyThread) (phase : VerifyPhase) : VerifyThread :=
  { t with phase := phase }

/-- The flush writes the columns that changed since the user was loaded. -/
def flushVerified (loaded : User) (now : Time) (user : User) : User :=
  { user with
    emailVerifiedAt := some now
    status := if loaded.status = .active then user.status else .active }

/-- The commit finds the two rows by their primary keys. -/
def AuthDb.commitVerification (db : AuthDb) (user : User) (record : VerificationCode) (now : Time) :
    AuthDb :=
  (db.consumeCode record now).updateUser user.id (flushVerified user now) fun _ => rfl

/-- `verify_email` statement by statement, each reading the state committed by then. -/
def verifyStep (P : Primitives) : Atomic Time AuthHistory VerifyThread := fun now h t =>
  match t.phase with
  | .start =>
    if t.cfg.authEmailVerificationEnabled = true then
      match h.db.userByEmail P (P.lower t.email) with
      | none => some (h, t.at (.raised .invalidVerificationCode))
      | some user => some (h, t.at (.userRead user))
    else some (h, t.at (.raised .featureNotAvailable))
  | .userRead user =>
    match (h.db.verificationCode user.id .emailVerification (P.hashRefreshToken t.code)).filter
        fun record => now < record.expiresAt with
    | none => some (h, t.at (.raised .invalidVerificationCode))
    | some record => some (h, t.at (.codeRead user record now))
  | .codeRead user record now => some (h, t.at (.marked user record now))
  | .marked user record now =>
    some ({ h with db := h.db.commitVerification user record now }, t.at .verified)
  | .verified => none
  | .raised _ => none

def VerifyPhase.ended : Except AuthError Unit → VerifyPhase
  | .ok _ => .verified
  | .error error => .raised error

theorem commitVerification_loaded {db : AuthDb} {user : User} (hmem : user ∈ db.users)
    (record : VerificationCode) (now : Time) : db.commitVerification user record now =
      (db.consumeCode record now).updateUser user.id (markVerified now) fun _ => rfl := by
  have hmem' : user ∈ (db.consumeCode record now).users := hmem
  refine updateUser_congr hmem' ?_
  unfold flushVerified markVerified
  split
  next hactive => rw [hactive]
  next => rfl

/-- Without interruption the statements amount to the call as one step. -/
theorem verify_alone (P : Primitives) (now : Time) (h : AuthHistory) (t : VerifyThread)
    (hstart : t.phase = .start) :
    Solo (verifyStep P) (h, t) ({ h with db := (verifyEmail P t.cfg now h.db t.email t.code).1 },
      t.at (.ended (verifyEmail P t.cfg now h.db t.email t.code).2)) := by
  simp only [verifyEmail, presentedCode]
  by_cases hen : t.cfg.authEmailVerificationEnabled = true
  · cases hu : h.db.userByEmail P (P.lower t.email) with
    | none =>
      refine .single ⟨now, ?_⟩
      simp [verifyStep, hstart, hen, hu, VerifyPhase.ended]
    | some user =>
      have hread : verifyStep P now h t = some (h, t.at (.userRead user)) := by
        simp [verifyStep, hstart, hen, hu]
      have hmem : user ∈ h.db.users := List.mem_of_find?_eq_some hu
      refine .head ⟨now, hread⟩ ?_
      cases hr : (h.db.verificationCode user.id .emailVerification
          (P.hashRefreshToken t.code)).filter fun record => now < record.expiresAt with
      | none =>
        refine .single ⟨now, ?_⟩
        simp [verifyStep, VerifyThread.at, hen, hr, VerifyPhase.ended]
      | some record =>
        have hselect : verifyStep P now h (t.at (.userRead user)) =
            some (h, t.at (.codeRead user record now)) := by
          simp [verifyStep, VerifyThread.at, hr]
        refine .head ⟨now, hselect⟩ (.head ⟨now, rfl⟩ (.single ⟨now, ?_⟩))
        simp [verifyStep, VerifyThread.at, hen, hr, VerifyPhase.ended,
          commitVerification_loaded hmem]
  · refine .single ⟨now, ?_⟩
    simp [verifyStep, hstart, hen, VerifyPhase.ended]

/-- Calls that present a code: to verify an address, or to reset a password. -/
abbrev CodeThread := VerifyThread ⊕ RevokeThread

def codeStep (P : Primitives) : Atomic Time AuthHistory CodeThread :=
  (verifyStep P).either (revokeStep P)

/-- The record a call has selected and not yet committed. -/
def VerifyPhase.held : VerifyPhase → Option VerificationCode
  | .codeRead _ record _ => some record
  | .marked _ record _ => some record
  | _ => none

def RevokePhase.heldCode : RevokePhase → Option VerificationCode
  | .codeRead _ record _ => some record
  | .tokensUpdated _ record _ _ => some record
  | .updated writes => writes.reset.map PasswordReset.record
  | _ => none

def CodeThread.held : CodeThread → Option VerificationCode
  | .inl t => t.phase.held
  | .inr t => t.phase.heldCode

/-- The record whose consumption the call commits next. -/
def CodeThread.consumes : CodeThread → Option VerificationCode
  | .inl t =>
    match t.phase with
    | .marked _ record _ => some record
    | _ => none
  | .inr t =>
    match t.phase with
    | .updated writes => writes.reset.map PasswordReset.record
    | _ => none

section Steps

variable {P : Primitives} {now : Time} {h h' : AuthHistory}

theorem held_of_consumes {t : CodeThread} {record : VerificationCode}
    (hc : t.consumes = some record) : t.held = some record := by
  cases t with
  | inl t =>
    simp only [CodeThread.consumes] at hc
    split at hc
    next hp => simpa [CodeThread.held, VerifyPhase.held, hp] using hc
    next => cases hc
  | inr t =>
    simp only [CodeThread.consumes] at hc
    split at hc
    next hp => simpa [CodeThread.held, RevokePhase.heldCode, hp] using hc
    next => cases hc

theorem verificationCode_row {db : AuthDb} {userId : Uuid} {purpose : CodePurpose}
    {codeHash : String} {p : VerificationCode → Bool} {record : VerificationCode}
    (hr : (db.verificationCode userId purpose codeHash).filter p = some record) :
    db.codes.find record.id = some record ∧ record.consumedAt = none := by
  have hselected := (Option.filter_eq_some_iff.mp hr).1
  have hmem : record ∈ db.codes := List.mem_of_find?_eq_some hselected
  have hlive := List.find?_some hselected
  simp only [decide_eq_true_eq] at hlive
  exact ⟨Table.find_of_mem hmem, hlive.2.2.2⟩

/-- A step that does not consume a code leaves the codes alone; the record it holds afterwards
it held before, or has just found unconsumed. -/
structure SelectsCode (h h' : AuthHistory) (t t' : CodeThread) : Prop where
  idle : t.consumes = none
  codes : h'.db.codes = h.db.codes
  held : ∀ record, t'.held = some record → t.held = some record ∨
    h.db.codes.find record.id = some record ∧ record.consumedAt = none

/-- The commit that consumes a code ends the call. -/
structure CommitsCode (P : Primitives) (h h' : AuthHistory) (t t' : CodeThread)
    (record : VerificationCode) (now : Time) : Prop where
  consumes : t.consumes = some record
  codes : h'.db.codes = (h.db.consumeCode record now).codes
  held : t'.held = none
  ended : ∀ a s, codeStep P a s t' = none

theorem verifyStep_cases {t t' : VerifyThread} (hs : verifyStep P now h t = some (h', t')) :
    SelectsCode h h' (.inl t) (.inl t') ∨
      ∃ record time, CommitsCode P h h' (.inl t) (.inl t') record time := by
  unfold verifyStep at hs
  split at hs
  next hp =>
    refine Or.inl ⟨by simp [CodeThread.consumes, hp], ?_, ?_⟩
    · split at hs
      next => split at hs <;> (cases hs; rfl)
      next => cases hs; rfl
    · intro record hheld
      split at hs
      next =>
        split at hs
        next => cases hs; cases hheld
        next => cases hs; cases hheld
      next => cases hs; cases hheld
  next user hp =>
    split at hs
    next =>
      cases hs
      exact Or.inl ⟨by simp [CodeThread.consumes, hp], rfl, fun record hheld => by cases hheld⟩
    next record hr =>
      cases hs
      refine Or.inl ⟨by simp [CodeThread.consumes, hp], rfl, ?_⟩
      intro record' hheld
      cases hheld
      exact Or.inr (verificationCode_row hr)
  next user record time hp =>
    cases hs
    refine Or.inl ⟨by simp [CodeThread.consumes, hp], rfl, ?_⟩
    intro record' hheld
    cases hheld
    exact Or.inl (by simp [CodeThread.held, VerifyPhase.held, hp])
  next user record time hp =>
    cases hs
    exact Or.inr ⟨record, time, by simp [CodeThread.consumes, hp], rfl, rfl, fun _ _ => rfl⟩
  next => cases hs
  next => cases hs

theorem start_heldCode (cfg : Settings) (db : AuthDb) (request : RevocationRequest) :
    (request.start P cfg now db).heldCode = none := by
  cases request with
  | session userId s =>
    simp only [RevocationRequest.start]
    split
    next => split <;> rfl
    next => rfl
  | others userId current =>
    cases current with
    | none => rfl
    | some current =>
      simp only [RevocationRequest.start]
      split
      next => split <;> rfl
      next => rfl
  | logout raw =>
    simp only [RevocationRequest.start]
    split <;> rfl
  | reset salt email code password =>
    simp only [RevocationRequest.start]
    split
    next => split <;> rfl
    next => rfl

theorem commit_codes (w : RevocationWrites) (db : AuthDb) :
    (w.reset = none ∧ (w.commit P db).codes = db.codes) ∨
      ∃ r, w.reset = some r ∧ (w.commit P db).codes = (db.consumeCode r.record w.now).codes := by
  cases hr : w.reset with
  | none => exact Or.inl ⟨rfl, by simp only [RevocationWrites.commit, hr]; rfl⟩
  | some r => exact Or.inr ⟨r, rfl, by simp only [RevocationWrites.commit, hr]; rfl⟩

theorem passwordReset_record {user : User} {record record' : VerificationCode}
    {request : RevocationRequest}
    (h : (request.passwordReset user record).map PasswordReset.record = some record') :
    record' = record := by
  cases request with
  | reset salt email code password => cases h; rfl
  | _ => cases h

theorem revokeStep_cases {t t' : RevokeThread} (hs : revokeStep P now h t = some (h', t')) :
    SelectsCode h h' (.inr t) (.inr t') ∨
      ∃ record time, CommitsCode P h h' (.inr t) (.inr t') record time := by
  unfold revokeStep at hs
  split at hs
  next hp =>
    cases hs
    refine Or.inl ⟨by simp [CodeThread.consumes, hp], rfl, ?_⟩
    intro record hheld
    simp [CodeThread.held, start_heldCode] at hheld
  next sessions clause family time hp =>
    cases hs
    exact Or.inl ⟨by simp [CodeThread.consumes, hp], rfl, fun record hheld => by cases hheld⟩
  next token hp =>
    refine Or.inl ⟨by simp [CodeThread.consumes, hp], ?_, ?_⟩
    · split at hs <;> (cases hs; rfl)
    · intro record hheld
      split at hs
      next => cases hs; cases hheld
      next => cases hs; cases hheld
  next token s hashes time hp =>
    refine Or.inl ⟨by simp [CodeThread.consumes, hp], ?_, ?_⟩
    · split at hs <;> (cases hs; rfl)
    · intro record hheld
      split at hs
      next => cases hs; cases hheld
      next => cases hs; cases hheld
  next user hp =>
    split at hs
    next =>
      cases hs
      exact Or.inl ⟨by simp [CodeThread.consumes, hp], rfl, fun record hheld => by cases hheld⟩
    next record hr =>
      cases hs
      refine Or.inl ⟨by simp [CodeThread.consumes, hp], rfl, ?_⟩
      intro record' hheld
      cases hheld
      unfold RevocationRequest.record at hr
      split at hr
      next => exact Or.inr (verificationCode_row hr)
      next => cases hr
  next user record time hp =>
    cases hs
    refine Or.inl ⟨by simp [CodeThread.consumes, hp], rfl, ?_⟩
    intro record' hheld
    cases hheld
    exact Or.inl (by simp [CodeThread.held, RevokePhase.heldCode, hp])
  next user record hashes time hp =>
    cases hs
    refine Or.inl ⟨by simp [CodeThread.consumes, hp], rfl, ?_⟩
    intro record' hheld
    obtain rfl := passwordReset_record hheld
    exact Or.inl (by simp [CodeThread.held, RevokePhase.heldCode, hp])
  next writes hp =>
    cases hs
    rcases commit_codes (P := P) writes h.db with ⟨hnone, hcodes⟩ | ⟨r, hr, hcodes⟩
    · exact Or.inl ⟨by simp [CodeThread.consumes, hp, hnone], hcodes,
        fun record hheld => by cases hheld⟩
    · exact Or.inr ⟨r.record, writes.now, by simp [CodeThread.consumes, hp, hr], hcodes, rfl,
        fun _ _ => rfl⟩
  next => cases hs
  next => cases hs

theorem codeStep_cases {t t' : CodeThread} (hs : codeStep P now h t = some (h', t')) :
    SelectsCode h h' t t' ∨ ∃ record time, CommitsCode P h h' t t' record time := by
  rcases Atomic.either_cases hs with ⟨u, s', u', rfl, he, hu⟩ | ⟨u, s', u', rfl, he, hu⟩
  · cases he
    exact verifyStep_cases hu
  · cases he
    exact revokeStep_cases hu

end Steps

end JobRadar
