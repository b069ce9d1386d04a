import JobRadar.Sequence
import JobRadar.Spacing
import JobRadar.UserRows

namespace JobRadar

open Database Sequence Spacing

inductive AccountOp
  | authenticate (email password : String)
  | issueCode (draw : CodeDraw) (email : String) (purpose : CodePurpose)
  | verifyEmail (email code : String)
  | resetPassword (salt email code password : String)

structure AccountCall where
  now : Time
  op : AccountOp

def accountStep (P : Primitives) (cfg : Settings) (db : AuthDb) (c : AccountCall) : AuthDb :=
  match c.op with
  | .authenticate email password => (authenticate P cfg c.now db email password).1
  | .issueCode draw email purpose => (issueCode P cfg draw db email purpose).1
  | .verifyEmail email code => (verifyEmail P cfg c.now db email code).1
  | .resetPassword salt email code password =>
    (resetPassword P cfg c.now salt db email code password).1

/-- The call is a guess at the password, and is not turned away as locked. -/
def checksPassword (P : Primitives) (cfg : Settings) (c : Call AccountCall AuthDb) : Bool :=
  match c.call.op with
  | .authenticate email password =>
    match (authenticate P cfg c.call.now c.before email password).2 with
    | .error .accountLocked => false
    | _ => true
  | _ => false

/-- The instants at which the password was checked, latest first. -/
def guesses (P : Primitives) (cfg : Settings) (calls : List (Call AccountCall AuthDb)) :
    List Time :=
  (calls.filter (checksPassword P cfg)).map fun c => c.call.now

/-- Guesses are made at the account of the user, and the password is not the right one. -/
def wrongGuess (P : Primitives) (userId : Uuid) (c : Call AccountCall AuthDb) : Bool :=
  match c.call.op with
  | .authenticate email password =>
    (c.before.userByEmail P (P.lower email)).any fun user =>
      user.id == userId && user.passwordHash.all fun hashed => !P.verifyPassword password hashed
  | _ => true

/-- The user's row, up to what the lockout keeps track of. -/
def AuthDb.LockoutOf (db : AuthDb) (userId : Uuid) (attempts : Nat) (lockedUntil : Option Time) :
    Prop :=
  ∃ user, db.users.find userId = some user ∧ user.failedLoginAttempts = attempts ∧
    user.lockedUntil = lockedUntil

section Step

variable {P : Primitives} {cfg : Settings} {db : AuthDb} {userId : Uuid} {attempts : Nat}
  {lockedUntil : Option Time} {now : Time}

theorem AuthDb.LockoutOf.updateUser (h : db.LockoutOf userId attempts lockedUntil) (id : Uuid)
    (f : User → User) (hf : ∀ u, (f u).id = u.id)
    (hkeep : ∀ u, (f u).failedLoginAttempts = u.failedLoginAttempts ∧
      (f u).lockedUntil = u.lockedUntil) :
    (db.updateUser id f hf).LockoutOf userId attempts lockedUntil := by
  obtain ⟨user, hfind, hattempts, hlocked⟩ := h
  have hnew := db.users.find_updateWhere (fun u => u.id = id) f hf userId
  rw [hfind, Option.map_some] at hnew
  refine ⟨_, hnew, ?_, ?_⟩
  · split
    next => exact (hkeep user).1.trans hattempts
    next => exact hattempts
  · split
    next => exact (hkeep user).2.trans hlocked
    next => exact hlocked

theorem AuthDb.LockoutOf.of_users (h : db.LockoutOf userId attempts lockedUntil) {db' : AuthDb}
    (husers : db'.users = db.users) : db'.LockoutOf userId attempts lockedUntil := by
  obtain ⟨user, hfind, hrest⟩ := h
  exact ⟨user, by rw [husers, hfind], hrest⟩

theorem AuthDb.LockoutOf.step (h : db.LockoutOf userId attempts lockedUntil) {c : AccountCall}
    (hother : ∀ email password, c.op ≠ .authenticate email password) :
    (accountStep P cfg db c).LockoutOf userId attempts lockedUntil := by
  unfold accountStep
  cases hop : c.op with
  | authenticate email password => exact absurd hop (hother email password)
  | issueCode draw email purpose => exact h.of_users (issueCode_users draw email purpose)
  | verifyEmail email code =>
    simp only [verifyEmail]
    split
    next =>
      split
      next => exact h
      next user record _ => exact (h.of_users rfl).updateUser _ _ _ fun _ => ⟨rfl, rfl⟩
    next => exact h
  | resetPassword salt email code password =>
    simp only [resetPassword]
    split
    next =>
      split
      next => exact h
      next user record _ =>
        have hconsumed : (db.consumeCode record c.now).LockoutOf userId attempts lockedUntil :=
          h.of_users rfl
        have hset := hconsumed.updateUser user.id (setPassword P salt password) (fun _ => rfl)
          fun _ => ⟨rfl, rfl⟩
        exact hset.of_users rfl
    next => exact h

theorem wrongGuess_cases (hlockout : cfg.authAccountLockoutEnabled = true)
    (h : db.LockoutOf userId attempts lockedUntil) {email password : String}
    (hwrong : wrongGuess P userId ⟨db, ⟨now, .authenticate email password⟩⟩) :
    (checksPassword P cfg ⟨db, ⟨now, .authenticate email password⟩⟩ = false ∧
      accountStep P cfg db ⟨now, .authenticate email password⟩ = db) ∨
    (checksPassword P cfg ⟨db, ⟨now, .authenticate email password⟩⟩ = true ∧
      (∀ u, lockedUntil = some u → u ≤ now) ∧
      (accountStep P cfg db ⟨now, .authenticate email password⟩).LockoutOf userId (attempts + 1)
        (if cfg.authMaxLoginAttempts ≤ attempts + 1
          then some (now + timedeltaMinutes cfg.authLockoutMinutes) else lockedUntil)) := by
  obtain ⟨user, hemail, hguess⟩ := (Option.any_eq_true _ _).mp hwrong
  simp only [Bool.and_eq_true, beq_iff_eq] at hguess
  obtain ⟨hid, hpassword⟩ := hguess
  obtain ⟨row, hfind, rfl, rfl⟩ := h
  have hmem : user ∈ db.users := List.mem_of_find?_eq_some hemail
  have hrow : db.users.find userId = some user := Table.find_eq_some_iff.mpr ⟨hmem, hid⟩
  obtain rfl : row = user := Option.some.inj (hfind.symm.trans hrow)
  have hadmits : ¬row.admits P cfg password := by
    rintro ⟨⟨hashed, hhash, hverify⟩, _⟩
    simp [hhash, hverify] at hpassword
  simp only [checksPassword, accountStep, authenticate, hemail, hlockout, true_and]
  by_cases hlocked : row.lockedAt now
  · exact Or.inl ⟨by simp [hlocked], by simp [hlocked]⟩
  · refine Or.inr ⟨by simp [hlocked, hadmits], ?_, ?_⟩
    · intro u hu
      by_contra hlate
      exact hlocked ⟨u, hu, Nat.lt_of_not_le hlate⟩
    · simp only [hlocked, hadmits, if_false, if_true]
      have hnew := db.users.find_updateWhere (fun u => u.id = row.id) (recordFailedLogin cfg now)
        (fun _ => rfl) userId
      rw [hrow, Option.map_some, if_pos rfl] at hnew
      exact ⟨_, hnew, rfl, rfl⟩

end Step

/-- The counter counts the guesses, and once there are `authMaxLoginAttempts` of them the lock
runs from the latest one. -/
structure LockoutRecord (cfg : Settings) (userId : Uuid) (db : AuthDb) (times : List Time) :
    Prop where
  few : times.length < cfg.authMaxLoginAttempts → db.LockoutOf userId times.length none
  many : ∀ last earlier, times = last :: earlier → cfg.authMaxLoginAttempts ≤ times.length →
    db.LockoutOf userId times.length (some (last + timedeltaMinutes cfg.authLockoutMinutes))
  spaced : Spaced cfg.authMaxLoginAttempts (timedeltaMinutes cfg.authLockoutMinutes) times

namespace LockoutRecord

variable {P : Primitives} {cfg : Settings} {db db' : AuthDb} {userId : Uuid} {times : List Time}
  {now : Time}

theorem exists_lockout (h : LockoutRecord cfg userId db times) :
    ∃ lockedUntil, db.LockoutOf userId times.length lockedUntil := by
  rcases Nat.lt_or_ge times.length cfg.authMaxLoginAttempts with hfew | hmany
  · exact ⟨none, h.few hfew⟩
  · cases times with
    | nil =>
      have hone := cfg.one_le_authMaxLoginAttempts
      simp only [List.length_nil] at hmany
      omega
    | cons last earlier => exact ⟨_, h.many last earlier rfl hmany⟩

theorem mono (h : LockoutRecord cfg userId db times)
    (hkeep : ∀ attempts lockedUntil, db.LockoutOf userId attempts lockedUntil →
      db'.LockoutOf userId attempts lockedUntil) : LockoutRecord cfg userId db' times :=
  ⟨fun hfew => hkeep _ _ (h.few hfew),
    fun last earlier he hmany => hkeep _ _ (h.many last earlier he hmany),
    h.spaced⟩

theorem guess (h : LockoutRecord cfg userId db times) (horder : ∀ t ∈ times, t ≤ now)
    (hcounted : ∀ lockedUntil, db.LockoutOf userId times.length lockedUntil →
      (∀ u, lockedUntil = some u → u ≤ now) ∧
      db'.LockoutOf userId (times.length + 1) (if cfg.authMaxLoginAttempts ≤ times.length + 1
        then some (now + timedeltaMinutes cfg.authLockoutMinutes) else lockedUntil)) :
    LockoutRecord cfg userId db' (now :: times) where
  few hfew := by
    simp only [List.length_cons] at hfew ⊢
    have hcount := (hcounted none (h.few (by omega))).2
    rwa [if_neg (by omega)] at hcount
  many last earlier he hmany := by
    cases he
    obtain ⟨lockedUntil, hlock⟩ := h.exists_lockout
    have hcount := (hcounted lockedUntil hlock).2
    rw [List.length_cons] at hmany
    rwa [if_pos hmany] at hcount
  spaced := by
    cases times with
    | nil => exact .single
    | cons last earlier =>
      refine .cons h.spaced (horder last (by simp)) ?_
      intro hmany
      exact (hcounted _ (h.many last earlier rfl hmany)).1 _ rfl

end LockoutRecord

section Run

variable {P : Primitives} {cfg : Settings} {db₀ db : AuthDb} {userId : Uuid}
  {calls : List (Call AccountCall AuthDb)}

theorem mem_guesses {t : Time} (h : t ∈ guesses P cfg calls) : ∃ c ∈ calls, c.call.now = t := by
  obtain ⟨c, hc, rfl⟩ := List.mem_map.mp h
  exact ⟨c, (List.mem_filter.mp hc).1, rfl⟩

theorem lockoutRecord_run (hlockout : cfg.authAccountLockoutEnabled = true)
    (hstart : db₀.LockoutOf userId 0 none) (run : Run (accountStep P cfg) db₀ calls db)
    (horder : calls.Pairwise fun later earlier => earlier.call.now ≤ later.call.now)
    (hwrong : ∀ c ∈ calls, wrongGuess P userId c) :
    LockoutRecord cfg userId db (guesses P cfg calls) := by
  induction run with
  | start => exact ⟨fun _ => hstart, by simp [guesses], .nil⟩
  | @next calls db c _ ih =>
    obtain ⟨hlater, horder⟩ := List.pairwise_cons.mp horder
    have hrecord := ih horder fun c hc => hwrong c (List.mem_cons_of_mem _ hc)
    have hcall : wrongGuess P userId ⟨db, c⟩ := hwrong _ (by simp)
    obtain ⟨now, op⟩ := c
    cases op with
    | authenticate email password =>
      obtain ⟨lockedUntil, hlock⟩ := hrecord.exists_lockout
      rcases wrongGuess_cases hlockout hlock hcall with ⟨hturned, hsame⟩ | ⟨hchecked, _⟩
      · simpa only [guesses, List.filter_cons, hturned, Bool.false_eq_true, if_false, hsame]
          using hrecord
      · simp only [guesses, List.filter_cons, hchecked, if_true, List.map_cons]
        refine hrecord.guess ?_ ?_
        · intro t ht
          obtain ⟨c, hc, rfl⟩ := mem_guesses ht
          exact hlater c hc
        · intro lockedUntil hlock
          rcases wrongGuess_cases hlockout hlock hcall with ⟨hturned, _⟩ | ⟨_, hcount⟩
          · rw [hturned] at hchecked
            cases hchecked
          · exact hcount
    | issueCode draw email purpose => exact hrecord.mono fun _ _ h => h.step (by simp)
    | verifyEmail email code => exact hrecord.mono fun _ _ h => h.step (by simp)
    | resetPassword salt email code password => exact hrecord.mono fun _ _ h => h.step (by simp)

/-- In every interval the password is checked at most `N + ⌊length / L⌋` times, with `N` the
permitted attempts and `L` the lock. -/
theorem lockout_bounds_guesses (hlockout : cfg.authAccountLockoutEnabled = true)
    (hstart : db₀.LockoutOf userId 0 none) (run : Run (accountStep P cfg) db₀ calls db)
    (horder : calls.Pairwise fun later earlier => earlier.call.now ≤ later.call.now)
    (hwrong : ∀ c ∈ calls, wrongGuess P userId c) (start length : Time) :
    ((guesses P cfg calls).filter fun t => start ≤ t ∧ t ≤ start + length).length ≤
      cfg.authMaxLoginAttempts + length / timedeltaMinutes cfg.authLockoutMinutes := by
  have hspan : 0 < timedeltaMinutes cfg.authLockoutMinutes := by
    have hone := cfg.one_le_authLockoutMinutes
    exact Nat.mul_pos hone (by omega)
  exact (lockoutRecord_run hlockout hstart run horder hwrong).spaced.count_le
    cfg.one_le_authMaxLoginAttempts hspan start length

end Run

def lockoutOn : Settings := { authAccountLockoutEnabled := true }

/-- Five wrong guesses at Ann's password, one a second, and one more after a reset code. -/
def annGuessed : List (Call AccountCall AuthDb) × AuthDb :=
  runAll (accountStep .plain lockoutOn) []
    { users :=
        ⟨[⟨1, some "ann@example.com", some "correct horse", .active, none, 0, none⟩], by simp⟩ }
    ([1, 2, 3, 4, 5].map (fun n => ⟨n, .authenticate "ann@example.com" "guess"⟩) ++
      [⟨6, .issueCode ⟨6, 1, "123456"⟩ "ann@example.com" .passwordReset⟩,
        ⟨7, .authenticate "ann@example.com" "guess"⟩])

theorem annGuessed_bounded : (guesses .plain lockoutOn annGuessed.1).length = 5 ∧
    ((guesses .plain lockoutOn annGuessed.1).filter fun t => 0 ≤ t ∧ t ≤ 0 + 7).length ≤
      5 + 7 / timedeltaMinutes 15 := by
  have hstart : AuthDb.LockoutOf { users := ⟨[⟨1, some "ann@example.com", some "correct horse",
      .active, none, 0, none⟩], by simp⟩ } 1 0 none := ⟨_, rfl, rfl, rfl⟩
  refine ⟨by decide, lockout_bounds_guesses rfl hstart (run_runAll .start _) (by decide) ?_ 0 7⟩
  decide

end JobRadar
