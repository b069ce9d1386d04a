import JobRadar.Interleave
import JobRadar.UserRows

namespace JobRadar

open Database Interleave

/-- Where an authentication call stands between two statements. -/
inductive GuessPhase
  | start
  | loaded (user : User) (now : Time)
  | counted (user : User) (now : Time)
  | cleared (user : User)
  | returned (user : User)
  | raised (error : AuthError)
  deriving DecidableEq

structure GuessThread where
  email : String
  password : String
  phase : GuessPhase := .start

def GuessThread.at (t : GuessThread) (phase : GuessPhase) : GuessThread :=
  { t with phase := phase }

@[simp] theorem GuessThread.at_phase (t : GuessThread) (phase : GuessPhase) :
    (t.at phase).phase = phase := rfl

@[simp] theorem GuessThread.at_email (t : GuessThread) (phase : GuessPhase) :
    (t.at phase).email = t.email := rfl

@[simp] theorem GuessThread.at_password (t : GuessThread) (phase : GuessPhase) :
    (t.at phase).password = t.password := rfl

/-- The flush writes the counter the call worked out from the row it had loaded, and the lock
only where it set one. -/
def flushFailedLogin (cfg : Settings) (loaded : User) (now : Time) (user : User) : User :=
  { user with
    failedLoginAttempts := (recordFailedLogin cfg now loaded).failedLoginAttempts
    lockedUntil := if cfg.authMaxLoginAttempts ≤ loaded.failedLoginAttempts + 1
      then some (now + timedeltaMinutes cfg.authLockoutMinutes) else user.lockedUntil }

/-- After a success the counter and the lock are written where they were not clear. -/
def flushCleared (loaded user : User) : User :=
  { user with
    failedLoginAttempts := if loaded.failedLoginAttempts = 0 then user.failedLoginAttempts else 0
    lockedUntil := if loaded.lockedUntil = none then user.lockedUntil else none }

/-- `authenticate` statement by statement, each reading the state committed by then. -/
def authenticateStep (P : Primitives) (cfg : Settings) : Atomic Time AuthDb GuessThread :=
  fun now db t =>
  match t.phase with
  | .start =>
    match db.userByEmail P (P.lower t.email) with
    | none => some (db, t.at (.raised .invalidCredentials))
    | some user => some (db, t.at (.loaded user now))
  | .loaded user now =>
    if cfg.authAccountLockoutEnabled = true ∧ user.lockedAt now then
      some (db, t.at (.raised .accountLocked))
    else if user.admits P cfg t.password then
      if cfg.authEmailVerificationEnabled = true ∧ user.emailVerifiedAt = none then
        some (db, t.at (.raised .emailVerificationRequired))
      else if cfg.authAccountLockoutEnabled = true then some (db, t.at (.cleared user))
      else some (db, t.at (.returned user))
    else if cfg.authAccountLockoutEnabled = true then some (db, t.at (.counted user now))
    else some (db, t.at (.raised .invalidCredentials))
  | .counted user now =>
    some (db.updateUser user.id (flushFailedLogin cfg user now) fun _ => rfl,
      t.at (.raised .invalidCredentials))
  | .cleared user =>
    some (db.updateUser user.id (flushCleared user) fun _ => rfl,
      t.at (.returned (clearFailedLogins user)))
  | .returned _ => none
  | .raised _ => none

def GuessPhase.ended : Except AuthError User → GuessPhase
  | .ok user => .returned user
  | .error error => .raised error

theorem flushCleared_loaded (user : User) : flushCleared user user = clearFailedLogins user := by
  unfold flushCleared clearFailedLogins
  congr 1
  · split
    next hzero => exact hzero
    next => rfl
  · split
    next hnone => exact hnone
    next => rfl

/-- Without interruption the statements amount to the call as one step. -/
theorem authenticate_alone (P : Primitives) (cfg : Settings) (now : Time) (db : AuthDb)
    (t : GuessThread) (hstart : t.phase = .start) :
    Solo (authenticateStep P cfg) (db, t) ((authenticate P cfg now db t.email t.password).1,
      t.at (.ended (authenticate P cfg now db t.email t.password).2)) := by
  unfold authenticate
  cases hu : db.userByEmail P (P.lower t.email) with
  | none =>
    refine .single ⟨now, ?_⟩
    simp [authenticateStep, hstart, hu, GuessPhase.ended]
  | some user =>
    have hmem : user ∈ db.users := List.mem_of_find?_eq_some hu
    have hload : authenticateStep P cfg now db t = some (db, t.at (.loaded user now)) := by
      simp [authenticateStep, hstart, hu]
    refine .head ⟨now, hload⟩ ?_
    dsimp only
    split_ifs with hlocked hadmits hverify hlockout hlockout
    · refine .single ⟨now, ?_⟩
      simp only [authenticateStep, GuessThread.at_phase, if_pos hlocked]
      rfl
    · refine .single ⟨now, ?_⟩
      simp only [authenticateStep, GuessThread.at_phase, GuessThread.at_password, if_neg hlocked,
        if_pos hadmits, if_pos hverify]
      rfl
    · have hclear : authenticateStep P cfg now db (t.at (.loaded user now)) =
          some (db, t.at (.cleared user)) := by
        simp only [authenticateStep, GuessThread.at_phase, GuessThread.at_password, if_neg hlocked,
          if_pos hadmits, if_neg hverify, if_pos hlockout]
        rfl
      have hwrite : db.updateUser user.id (flushCleared user) (fun _ => rfl) =
          db.updateUser user.id clearFailedLogins fun _ => rfl :=
        updateUser_congr hmem (flushCleared_loaded user)
      refine .head ⟨now, hclear⟩ (.single ⟨now, ?_⟩)
      simp only [authenticateStep, GuessThread.at_phase, hwrite]
      rfl
    · refine .single ⟨now, ?_⟩
      simp only [authenticateStep, GuessThread.at_phase, GuessThread.at_password, if_neg hlocked,
        if_pos hadmits, if_neg hverify, if_neg hlockout]
      rfl
    · have hcount : authenticateStep P cfg now db (t.at (.loaded user now)) =
          some (db, t.at (.counted user now)) := by
        simp only [authenticateStep, GuessThread.at_phase, GuessThread.at_password, if_neg hlocked,
          if_neg hadmits, if_pos hlockout]
        rfl
      have hwrite : db.updateUser user.id (flushFailedLogin cfg user now) (fun _ => rfl) =
          db.updateUser user.id (recordFailedLogin cfg now) fun _ => rfl :=
        updateUser_congr hmem rfl
      refine .head ⟨now, hcount⟩ (.single ⟨now, ?_⟩)
      simp only [authenticateStep, GuessThread.at_phase, hwrite]
      rfl
    · refine .single ⟨now, ?_⟩
      simp only [authenticateStep, GuessThread.at_phase, GuessThread.at_password, if_neg hlocked,
        if_neg hadmits, if_neg hlockout]
      rfl

def GuessPhase.held : GuessPhase → Option User
  | .loaded user _ => some user
  | .counted user _ => some user
  | .cleared user => some user
  | _ => none

/-- The row whose count the call commits next. -/
def GuessPhase.counts : GuessPhase → Option User
  | .counted user _ => some user
  | _ => none

structure QuietGuess (P : Primitives) (cfg : Settings) (db : AuthDb) (t : GuessThread)
    (phase : GuessPhase) : Prop where
  pending : t.phase.counts = none
  held : ∀ user, phase.held = some user →
    t.phase.held = some user ∨ db.userByEmail P (P.lower t.email) = some user
  clears : ∀ user, phase = .cleared user →
    t.phase.held = some user ∧ user.admits P cfg t.password
  /-- With the lockout on, invalid credentials are reported without a write only for an address
  that nobody has. -/
  rejects : cfg.authAccountLockoutEnabled = true → phase = .raised .invalidCredentials →
    db.userByEmail P (P.lower t.email) = none

theorem authenticateStep_cases {P : Primitives} {cfg : Settings} {now : Time} {db db' : AuthDb}
    {t t' : GuessThread} (hs : authenticateStep P cfg now db t = some (db', t')) :
    (∃ phase, db' = db ∧ t' = t.at phase ∧ QuietGuess P cfg db t phase) ∨
    (∃ user time, t.phase = .counted user time ∧ t' = t.at (.raised .invalidCredentials) ∧
      db' = db.updateUser user.id (flushFailedLogin cfg user time) fun _ => rfl) ∨
    ∃ user, t.phase = .cleared user ∧ t' = t.at (.returned (clearFailedLogins user)) ∧
      db' = db.updateUser user.id (flushCleared user) fun _ => rfl := by
  unfold authenticateStep at hs
  split at hs
  next hp =>
    left
    split at hs
    next hnone =>
      cases hs
      exact ⟨_, rfl, rfl, by rw [hp]; rfl, by simp [GuessPhase.held], by simp, fun _ _ => hnone⟩
    next user hsome =>
      cases hs
      refine ⟨_, rfl, rfl, by rw [hp]; rfl, ?_, by simp, by simp⟩
      intro held hheld
      cases hheld
      exact Or.inr hsome
  next user time hp =>
    left
    have hholds : ∀ held, some user = some held → t.phase.held = some held := by
      intro held hheld
      rw [hp, ← hheld]
      rfl
    split_ifs at hs with hlocked hadmits hverify hlockout hlockout
    · cases hs
      exact ⟨_, rfl, rfl, by rw [hp]; rfl, by simp [GuessPhase.held], by simp, by simp⟩
    · cases hs
      exact ⟨_, rfl, rfl, by rw [hp]; rfl, by simp [GuessPhase.held], by simp, by simp⟩
    · cases hs
      refine ⟨_, rfl, rfl, by rw [hp]; rfl, fun held hheld => Or.inl (hholds held hheld), ?_,
        by simp⟩
      intro held hheld
      cases hheld
      exact ⟨hholds user rfl, hadmits⟩
    · cases hs
      exact ⟨_, rfl, rfl, by rw [hp]; rfl, by simp [GuessPhase.held], by simp, by simp⟩
    · cases hs
      exact ⟨_, rfl, rfl, by rw [hp]; rfl, fun held hheld => Or.inl (hholds held hheld), by simp,
        by simp⟩
    · cases hs
      exact ⟨_, rfl, rfl, by rw [hp]; rfl, by simp [GuessPhase.held], by simp,
        fun hon => absurd hon hlockout⟩
  next user time hp =>
    cases hs
    exact Or.inr (Or.inl ⟨user, time, hp, rfl, rfl⟩)
  next user hp =>
    cases hs
    exact Or.inr (Or.inr ⟨user, hp, rfl, rfl⟩)
  next => cases hs
  next => cases hs

end JobRadar
