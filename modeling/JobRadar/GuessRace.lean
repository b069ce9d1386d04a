import JobRadar.GuessThreads

namespace JobRadar

open Database Interleave

variable {ι : Type}

/-- Any number of calls that are about to guess a password. -/
def guessers (db : AuthDb) (calls : ι → String × String) : Pool ι AuthDb GuessThread where
  store := db
  thread i := { email := (calls i).1, password := (calls i).2 }

def WrongPassword (P : Primitives) (db : AuthDb) (email password : String) : Prop :=
  ∀ user, db.userByEmail P (P.lower email) = some user → ∀ hashed,
    user.passwordHash = some hashed → P.verifyPassword password hashed = false

/-- The call raised `InvalidCredentials` for the user. -/
def rejectedGuess (P : Primitives) (db : AuthDb) (userId : Uuid) (t : GuessThread) : Bool :=
  t.phase = .raised .invalidCredentials ∧
    (db.userByEmail P (P.lower t.email)).any fun user => user.id = userId

/-- The counter is what it was and one more for each of the calls, and the account is locked if
that takes it to the threshold. -/
def AuthDb.FailuresCounted (cfg : Settings) (userId : Uuid) (start count : Nat) (db : AuthDb) :
    Prop :=
  ∃ row, db.users.find userId = some row ∧ row.failedLoginAttempts = start + count ∧
    (count ≠ 0 → cfg.authMaxLoginAttempts ≤ start + count → row.lockedUntil ≠ none)

/-- A call that commits its count finds the counter it had loaded. -/
def CountsWhatItRead (userId : Uuid) (e : Event ι Time AuthDb GuessThread) : Prop :=
  ∀ user ∈ (e.before.thread e.mover).phase.counts, user.id = userId →
    ∀ row ∈ e.before.store.users.find userId, row.failedLoginAttempts = user.failedLoginAttempts

instance (userId : Uuid) (e : Event ι Time AuthDb GuessThread) :
    Decidable (CountsWhatItRead userId e) :=
  inferInstanceAs (Decidable (∀ user ∈ (e.before.thread e.mover).phase.counts, user.id = userId →
    ∀ row ∈ e.before.store.users.find userId, row.failedLoginAttempts = user.failedLoginAttempts))

/-- What no call of this kind changes of a user. -/
def User.identity (user : User) : Uuid × Option String × Option String :=
  (user.id, user.email, user.passwordHash)

def AuthDb.identities (db : AuthDb) : List (Uuid × Option String × Option String) :=
  db.users.rows.map User.identity

section Identity

variable {P : Primitives} {db db' : AuthDb}

theorem userByEmail_identity (h : db'.identities = db.identities) (email : String) :
    (db'.userByEmail P email).map User.identity = (db.userByEmail P email).map User.identity := by
  have hfind : ∀ db : AuthDb, (db.userByEmail P email).map User.identity =
      db.identities.find? fun u => u.2.1 = some (P.lower email) := by
    intro db
    rw [AuthDb.userByEmail, AuthDb.identities, List.find?_map]
    rfl
  rw [hfind, hfind, h]

theorem identities_updateUser (id : Uuid) (f : User → User) (hf : ∀ u, (f u).id = u.id)
    (hkeep : ∀ u, (f u).identity = u.identity) :
    (db.updateUser id f hf).identities = db.identities := by
  simp only [AuthDb.identities, AuthDb.updateUser, Table.updateWhere, List.map_map]
  apply List.map_congr_left
  intro u _
  simp only [Function.comp_apply]
  split
  next => exact hkeep u
  next => rfl

end Identity

namespace GuessThread

def Wrong (P : Primitives) (db : AuthDb) (t : GuessThread) : Prop :=
  WrongPassword P db t.email t.password

def Knows (P : Primitives) (db : AuthDb) (t : GuessThread) : Prop :=
  ∀ user, t.phase.held = some user →
    (db.userByEmail P (P.lower t.email)).map User.identity = some user.identity

def NeverClears (t : GuessThread) : Prop := ∀ user, t.phase ≠ .cleared user

/-- A counter the call has loaded is not ahead of `total`, and where it is level with it the
committed one is the same. -/
def Level (userId : Uuid) (total : Nat) (db : AuthDb) (t : GuessThread) : Prop :=
  ∀ user, t.phase.held = some user → user.id = userId → user.failedLoginAttempts ≤ total ∧
    (user.failedLoginAttempts = total → ∀ row, db.users.find userId = some row →
      row.failedLoginAttempts = user.failedLoginAttempts)

end GuessThread

/-- What holds between the steps of guesses at wrong passwords. -/
structure GuessTrack [Fintype ι] (P : Primitives) (db₀ : AuthDb) (userId : Uuid) (start : Nat)
    (c : Pool ι AuthDb GuessThread) : Prop where
  identities : c.store.identities = db₀.identities
  wrong : ∀ i, (c.thread i).Wrong P db₀
  knows : ∀ i, (c.thread i).Knows P db₀
  never : ∀ i, (c.thread i).NeverClears
  bounded : ∃ row, c.store.users.find userId = some row ∧
    row.failedLoginAttempts ≤ start + c.tally (rejectedGuess P db₀ userId)
  level : ∀ i, (c.thread i).Level userId (start + c.tally (rejectedGuess P db₀ userId)) c.store

section Race

variable {P : Primitives} {cfg : Settings} {db₀ : AuthDb} {calls : ι → String × String}
  {userId : Uuid} {start : Nat} {row₀ : User} [Fintype ι]
  {es : List (Event ι Time AuthDb GuessThread)} {c : Pool ι AuthDb GuessThread}

theorem tally_guessers : (guessers db₀ calls).tally (rejectedGuess P db₀ userId) = 0 := by
  simp [Pool.tally, guessers, rejectedGuess]

theorem guessTrack_guessers (hwrong : ∀ i, WrongPassword P db₀ (calls i).1 (calls i).2)
    (hrow : db₀.users.find userId = some row₀) :
    GuessTrack P db₀ userId row₀.failedLoginAttempts (guessers db₀ calls) where
  identities := rfl
  wrong := hwrong
  knows i user hheld := by cases hheld
  never i user hp := by cases hp
  bounded := ⟨row₀, hrow, by rw [tally_guessers]; omega⟩
  level i user hheld := by cases hheld

theorem GuessTrack.not_admits (hc : GuessTrack P db₀ userId start c) {i : ι} {user : User}
    (hheld : (c.thread i).phase.held = some user) :
    ¬user.admits P cfg (c.thread i).password := by
  rintro ⟨⟨hashed, hhash, hverify⟩, _⟩
  obtain ⟨user₀, hemail, hsame⟩ := Option.map_eq_some_iff.mp (hc.knows i user hheld)
  have hhash₀ : user₀.passwordHash = some hashed := by
    rw [← hhash]
    exact congrArg (fun identity => identity.2.2) hsame
  rw [hc.wrong i user₀ hemail hashed hhash₀] at hverify
  cases hverify

variable [DecidableEq ι]

theorem GuessTrack.quiet_tally {i : ι} {phase : GuessPhase}
    (hlockout : cfg.authAccountLockoutEnabled = true) (hc : GuessTrack P db₀ userId start c)
    (hmoves : (c.thread i).phase ≠ .raised .invalidCredentials)
    (hquiet : QuietGuess P cfg c.store (c.thread i) phase) :
    (c.set i (c.store, (c.thread i).at phase)).tally (rejectedGuess P db₀ userId) =
      c.tally (rejectedGuess P db₀ userId) := by
  apply Pool.tally_set_of_eq
  have hbefore : rejectedGuess P db₀ userId (c.thread i) = false := by
    simp [rejectedGuess, hmoves]
  rw [hbefore]
  by_cases hraised : phase = .raised .invalidCredentials
  · have hnobody := hquiet.rejects hlockout hraised
    have hsame := userByEmail_identity (P := P) hc.identities (P.lower (c.thread i).email)
    rw [hnobody, Option.map_none, eq_comm, Option.map_eq_none_iff] at hsame
    simp [rejectedGuess, hsame]
  · simp [rejectedGuess, hraised]

theorem GuessTrack.quiet {i : ι} {phase : GuessPhase}
    (hlockout : cfg.authAccountLockoutEnabled = true) (hc : GuessTrack P db₀ userId start c)
    (hmoves : (c.thread i).phase ≠ .raised .invalidCredentials)
    (hquiet : QuietGuess P cfg c.store (c.thread i) phase) :
    GuessTrack P db₀ userId start (c.set i (c.store, (c.thread i).at phase)) := by
  have htally := hc.quiet_tally hlockout hmoves hquiet
  refine ⟨hc.identities, ?_, ?_, ?_, ?_, ?_⟩
  · exact Pool.forall_set (Q := GuessThread.Wrong P db₀) (hc.wrong i) fun j _ => hc.wrong j
  · refine Pool.forall_set (Q := GuessThread.Knows P db₀) ?_ fun j _ => hc.knows j
    intro user hheld
    rcases hquiet.held user hheld with hold | hread
    · exact hc.knows i user hold
    · have hsame := userByEmail_identity (P := P) hc.identities (P.lower (c.thread i).email)
      rw [hread] at hsame
      exact hsame.symm
  · refine Pool.forall_set (Q := GuessThread.NeverClears) ?_ fun j _ => hc.never j
    intro user hphase
    obtain ⟨hheld, hadmits⟩ := hquiet.clears user hphase
    exact hc.not_admits hheld hadmits
  · rw [htally]
    exact hc.bounded
  · rw [htally]
    refine Pool.forall_set (Q := GuessThread.Level userId _ c.store) ?_ fun j _ => hc.level j
    intro user hheld hid
    rcases hquiet.held user hheld with hold | hread
    · exact hc.level i user hold hid
    · obtain ⟨row, hrow, hle⟩ := hc.bounded
      have hmem : user ∈ c.store.users := List.mem_of_find?_eq_some hread
      have huser : c.store.users.find userId = some user := hid ▸ Table.find_of_mem hmem
      have heq : row = user := Option.some.inj (hrow.symm.trans huser)
      subst row
      refine ⟨hle, ?_⟩
      intro _ row hrow'
      rw [huser] at hrow'
      cases hrow'
      rfl

theorem find_flushFailedLogin (cfg : Settings) {db : AuthDb} (user : User) {row : User}
    (time : Time) (hrow : db.users.find userId = some row) :
    (db.updateUser user.id (flushFailedLogin cfg user time) fun _ => rfl).users.find userId =
      some (if user.id = userId then flushFailedLogin cfg user time row else row) := by
  have hid : row.id = userId := (Table.find_eq_some_iff.mp hrow).2
  have hnew := db.users.find_updateWhere (fun u => u.id = user.id) (flushFailedLogin cfg user time)
    (fun _ => rfl) userId
  rw [hrow, Option.map_some, hid] at hnew
  simp only [eq_comm (a := userId)] at hnew
  exact hnew

theorem GuessTrack.commit_tally {i : ι} {user : User} {time : Time} (db : AuthDb)
    (hc : GuessTrack P db₀ userId start c) (hphase : (c.thread i).phase = .counted user time) :
    (c.set i (db, (c.thread i).at (.raised .invalidCredentials))).tally
        (rejectedGuess P db₀ userId) =
      c.tally (rejectedGuess P db₀ userId) + if user.id = userId then 1 else 0 := by
  have hbefore : rejectedGuess P db₀ userId (c.thread i) = false := by
    simp [rejectedGuess, hphase]
  obtain ⟨user₀, hemail, hsame⟩ :=
    Option.map_eq_some_iff.mp (hc.knows i user (by rw [hphase]; rfl))
  have hid : user₀.id = user.id := congrArg Prod.fst hsame
  split
  next hmine =>
    apply Pool.tally_set_of_enters c hbefore
    simp [rejectedGuess, hemail, hid, hmine]
  next hother =>
    apply Pool.tally_set_of_eq
    rw [hbefore]
    simp [rejectedGuess, hemail, hid, hother]

theorem GuessTrack.commit {i : ι} {user : User} {time : Time}
    (hc : GuessTrack P db₀ userId start c) (hphase : (c.thread i).phase = .counted user time) :
    GuessTrack P db₀ userId start (c.set i
      (c.store.updateUser user.id (flushFailedLogin cfg user time) fun _ => rfl,
        (c.thread i).at (.raised .invalidCredentials))) := by
  have htally := hc.commit_tally
    (c.store.updateUser user.id (flushFailedLogin cfg user time) fun _ => rfl) hphase
  have hmine := hc.level i user (by rw [hphase]; rfl)
  obtain ⟨row, hrow, hle⟩ := hc.bounded
  have hnew := find_flushFailedLogin cfg user time hrow
  refine ⟨?_, ?_, ?_, ?_, ?_, ?_⟩
  · exact (identities_updateUser user.id (flushFailedLogin cfg user time) (fun _ => rfl)
      fun _ => rfl).trans hc.identities
  · exact Pool.forall_set (Q := GuessThread.Wrong P db₀) (hc.wrong i) fun j _ => hc.wrong j
  · exact Pool.forall_set (Q := GuessThread.Knows P db₀) (fun user hheld => by cases hheld)
      fun j _ => hc.knows j
  · exact Pool.forall_set (Q := GuessThread.NeverClears) (fun user hp => by cases hp)
      fun j _ => hc.never j
  · refine ⟨_, hnew, ?_⟩
    rw [htally]
    split
    next hid =>
      have hread := (hmine hid).1
      simp only [flushFailedLogin, recordFailedLogin]
      omega
    next => omega
  · rw [htally]
    refine Pool.forall_set (Q := GuessThread.Level userId _ _) (fun user hheld => by cases hheld) ?_
    intro j _ other hheld hid
    obtain ⟨hbound, hlevel⟩ := hc.level j other hheld hid
    refine ⟨by omega, ?_⟩
    intro heq row' hrow'
    rw [Pool.set_store, hnew] at hrow'
    cases hrow'
    split at heq
    next => omega
    next hother =>
      rw [if_neg hother]
      exact hlevel heq row hrow

theorem GuessTrack.step {i : ι} {now : Time} {r : AuthDb × GuessThread}
    (hlockout : cfg.authAccountLockoutEnabled = true) (hc : GuessTrack P db₀ userId start c)
    (hs : authenticateStep P cfg now c.store (c.thread i) = some r) :
    GuessTrack P db₀ userId start (c.set i r) := by
  obtain ⟨db', t'⟩ := r
  have hmoves : (c.thread i).phase ≠ .raised .invalidCredentials := by
    intro hp
    simp [authenticateStep, hp] at hs
  rcases authenticateStep_cases hs with ⟨phase, rfl, rfl, hquiet⟩ | ⟨user, time, hp, rfl, rfl⟩ |
    ⟨user, hp, _⟩
  · exact hc.quiet hlockout hmoves hquiet
  · exact hc.commit hp
  · exact absurd hp (hc.never i user)

theorem guessTrack_run (hlockout : cfg.authAccountLockoutEnabled = true)
    (hwrong : ∀ i, WrongPassword P db₀ (calls i).1 (calls i).2)
    (hrow : db₀.users.find userId = some row₀)
    (path : Path (authenticateStep P cfg) (guessers db₀ calls) es c) :
    GuessTrack P db₀ userId row₀.failedLoginAttempts c :=
  path.invariant (I := GuessTrack P db₀ userId row₀.failedLoginAttempts)
    (guessTrack_guessers hwrong hrow)
    (fun _ _ _ _ hc _ hs => hc.step hlockout hs) (fun _ _ => trivial)

theorem GuessTrack.step_cases {i : ι} {now : Time} {r : AuthDb × GuessThread}
    (hlockout : cfg.authAccountLockoutEnabled = true) (hc : GuessTrack P db₀ userId start c)
    (hs : authenticateStep P cfg now c.store (c.thread i) = some r) {row : User}
    (hrow : c.store.users.find userId = some row) :
    ((c.set i r).tally (rejectedGuess P db₀ userId) = c.tally (rejectedGuess P db₀ userId) ∧
      r.1.users.find userId = some row ∧ CountsWhatItRead userId ⟨c, i, now⟩) ∨
    ∃ user time, (c.thread i).phase = .counted user time ∧ user.id = userId ∧
      (c.set i r).tally (rejectedGuess P db₀ userId) =
        c.tally (rejectedGuess P db₀ userId) + 1 ∧
      r.1.users.find userId = some (flushFailedLogin cfg user time row) := by
  obtain ⟨db', t'⟩ := r
  have hmoves : (c.thread i).phase ≠ .raised .invalidCredentials := by
    intro hp
    simp [authenticateStep, hp] at hs
  rcases authenticateStep_cases hs with ⟨phase, rfl, rfl, hquiet⟩ | ⟨user, time, hp, rfl, rfl⟩ |
    ⟨user, hp, _⟩
  · refine Or.inl ⟨hc.quiet_tally hlockout hmoves hquiet, hrow, ?_⟩
    intro user hcounts
    rw [hquiet.pending] at hcounts
    cases hcounts
  · have htally := hc.commit_tally
      (c.store.updateUser user.id (flushFailedLogin cfg user time) fun _ => rfl) hp
    have hnew := find_flushFailedLogin cfg user time hrow
    by_cases hid : user.id = userId
    · rw [if_pos hid] at htally hnew
      exact Or.inr ⟨user, time, hp, hid, htally, hnew⟩
    · rw [if_neg hid] at htally hnew
      refine Or.inl ⟨htally, hnew, ?_⟩
      intro user' hcounts hid'
      rw [hp] at hcounts
      cases hcounts
      exact absurd hid' hid
  · exact absurd hp (hc.never i user)

theorem counter_iff (hlockout : cfg.authAccountLockoutEnabled = true)
    (hwrong : ∀ i, WrongPassword P db₀ (calls i).1 (calls i).2)
    (hrow₀ : db₀.users.find userId = some row₀)
    (path : Path (authenticateStep P cfg) (guessers db₀ calls) es c) {row : User}
    (hrow : c.store.users.find userId = some row) :
    row.failedLoginAttempts =
        row₀.failedLoginAttempts + c.tally (rejectedGuess P db₀ userId) ↔
      ∀ e ∈ es, CountsWhatItRead userId e := by
  induction path generalizing row with
  | start =>
    have hstart : (guessers db₀ calls).store.users.find userId = some row₀ := hrow₀
    rw [hstart] at hrow
    cases hrow
    rw [tally_guessers]
    simp
  | @step es c i now r path hs ih =>
    have htrack := guessTrack_run hlockout hwrong hrow₀ path
    obtain ⟨old, hold, _⟩ := htrack.bounded
    have hih := ih hold
    rw [List.forall_mem_cons]
    rcases htrack.step_cases hlockout hs hold with ⟨htally, hsame, hcounts⟩ |
      ⟨user, time, hp, hid, htally, hnew⟩
    · rw [Pool.set_store, hsame] at hrow
      cases hrow
      rw [htally, hih]
      exact ⟨fun h => ⟨hcounts, h⟩, And.right⟩
    · rw [Pool.set_store, hnew] at hrow
      cases hrow
      rw [htally]
      obtain ⟨_, hlevel⟩ := htrack.level i user (by rw [hp]; rfl) hid
      constructor
      · intro hcounter
        simp only [flushFailedLogin, recordFailedLogin] at hcounter
        have hread : user.failedLoginAttempts = row₀.failedLoginAttempts +
            c.tally (rejectedGuess P db₀ userId) := by omega
        have hcurrent := hlevel hread
        refine ⟨?_, hih.mp ((hcurrent old hold).trans hread)⟩
        intro user' hread' _ row hrow
        rw [hp] at hread'
        cases hread'
        exact hcurrent row hrow
      · rintro ⟨hcounts, hearlier⟩
        have hread := hcounts user (by rw [hp]; rfl) hid old hold
        have hcounter := hih.mpr hearlier
        simp only [flushFailedLogin, recordFailedLogin]
        omega

theorem locked_of_counted (hlockout : cfg.authAccountLockoutEnabled = true)
    (hwrong : ∀ i, WrongPassword P db₀ (calls i).1 (calls i).2)
    (hrow₀ : db₀.users.find userId = some row₀)
    (path : Path (authenticateStep P cfg) (guessers db₀ calls) es c)
    (hcounts : ∀ e ∈ es, CountsWhatItRead userId e) {row : User}
    (hrow : c.store.users.find userId = some row)
    (hsome : c.tally (rejectedGuess P db₀ userId) ≠ 0)
    (hmany : cfg.authMaxLoginAttempts ≤
      row₀.failedLoginAttempts + c.tally (rejectedGuess P db₀ userId)) :
    row.lockedUntil ≠ none := by
  induction path generalizing row with
  | start => exact absurd tally_guessers hsome
  | @step es c i now r path hs ih =>
    have htrack := guessTrack_run hlockout hwrong hrow₀ path
    have hearlier := (List.forall_mem_cons.mp hcounts).2
    obtain ⟨old, hold, _⟩ := htrack.bounded
    rcases htrack.step_cases hlockout hs hold with ⟨htally, hsame, _⟩ |
      ⟨user, time, hp, hid, htally, hnew⟩
    · rw [Pool.set_store, hsame] at hrow
      cases hrow
      rw [htally] at hsome hmany
      exact ih hearlier hold hsome hmany
    · rw [Pool.set_store, hnew] at hrow
      cases hrow
      have hread := hcounts _ (List.mem_cons_self ..) user (by rw [hp]; rfl) hid old hold
      have hcounter := (counter_iff hlockout hwrong hrow₀ path hold).mpr hearlier
      have hreached : cfg.authMaxLoginAttempts ≤ user.failedLoginAttempts + 1 := by omega
      simp [flushFailedLogin, hreached]

/-- No failed login is lost from the counter, nor the lock it is due, exactly when every call
that commits its count finds the counter as it loaded it. -/
theorem failed_logins_counted_iff (hlockout : cfg.authAccountLockoutEnabled = true)
    (hwrong : ∀ i, WrongPassword P db₀ (calls i).1 (calls i).2)
    (hrow₀ : db₀.users.find userId = some row₀)
    (path : Path (authenticateStep P cfg) (guessers db₀ calls) es c) :
    c.store.FailuresCounted cfg userId row₀.failedLoginAttempts
        (c.tally (rejectedGuess P db₀ userId)) ↔
      ∀ e ∈ es, CountsWhatItRead userId e := by
  constructor
  · rintro ⟨row, hrow, hcounter, _⟩
    exact (counter_iff hlockout hwrong hrow₀ path hrow).mp hcounter
  · intro hcounts
    obtain ⟨row, hrow, _⟩ := (guessTrack_run hlockout hwrong hrow₀ path).bounded
    refine ⟨row, hrow, (counter_iff hlockout hwrong hrow₀ path hrow).mpr hcounts, ?_⟩
    exact locked_of_counted hlockout hwrong hrow₀ path hcounts hrow

end Race

/-- Ann, who has failed to log in three times; five failures lock her account. -/
def annFailing : AuthDb where
  users := ⟨[{ ann with failedLoginAttempts := 3 }], by decide⟩

def countingFailures : Settings := { authAccountLockoutEnabled := true }

def annGuessers : Pool Bool AuthDb GuessThread :=
  guessers annFailing fun _ => ("ann@example.com", "guess")

theorem annGuessers_wrong : WrongPassword .plain annFailing "ann@example.com" "guess" := by
  intro user huser hashed hhash
  cases huser
  cases hhash
  rfl

theorem annGuessers_oneByOne : ∃ es c,
    Path (authenticateStep .plain countingFailures) annGuessers es c ∧
    (∀ i, (c.thread i).phase = .raised .invalidCredentials) ∧
    c.store.FailuresCounted countingFailures 1 3 2 := by
  obtain ⟨es, c, hrun, hcounts, hraised, htally⟩ : ∃ es c,
      exec (authenticateStep .plain countingFailures) [] annGuessers
        (List.replicate 3 (true, 1) ++ List.replicate 3 (false, 2)) = some (es, c) ∧
      (∀ e ∈ es, CountsWhatItRead 1 e) ∧
      (∀ i, (c.thread i).phase = .raised .invalidCredentials) ∧
      c.tally (rejectedGuess .plain annFailing 1) = 2 := by
    refine ⟨_, _, rfl, ?_, ?_, ?_⟩
    · decide
    · decide
    · decide
  have path : Path (authenticateStep .plain countingFailures) annGuessers es c :=
    exec_path .start _ hrun
  have hann : annFailing.users.find 1 = some { ann with failedLoginAttempts := 3 } := rfl
  have hcounted := (failed_logins_counted_iff rfl (fun _ => annGuessers_wrong) hann path).mpr
    hcounts
  rw [htally] at hcounted
  exact ⟨es, c, path, hraised, hcounted⟩

/-- Both guesses load the counter before either writes it: one failure is lost, and the account
stays open. -/
theorem annGuessers_lose_one : ∃ es c,
    Path (authenticateStep .plain countingFailures) annGuessers es c ∧
    (∀ i, (c.thread i).phase = .raised .invalidCredentials) ∧
    c.tally (rejectedGuess .plain annFailing 1) = 2 ∧
    ¬c.store.FailuresCounted countingFailures 1 3 2 ∧
    ∃ row, c.store.users.find 1 = some row ∧ row.lockedUntil = none := by
  obtain ⟨es, c, hrun, hraised, htally, row, hrow, hfour, hopen⟩ : ∃ es c,
      exec (authenticateStep .plain countingFailures) [] annGuessers
        ([(true, 1), (false, 1)] ++ List.replicate 2 (true, 2) ++ List.replicate 2 (false, 3)) =
        some (es, c) ∧
      (∀ i, (c.thread i).phase = .raised .invalidCredentials) ∧
      c.tally (rejectedGuess .plain annFailing 1) = 2 ∧
      ∃ row, c.store.users.find 1 = some row ∧ row.failedLoginAttempts = 4 ∧
        row.lockedUntil = none := by
    refine ⟨_, _, rfl, ?_, ?_, ⟨_, rfl, rfl, rfl⟩⟩
    · decide
    · decide
  refine ⟨es, c, exec_path .start _ hrun, hraised, htally, ?_, row, hrow, hopen⟩
  rintro ⟨row', hrow', hfive, _⟩
  rw [hrow] at hrow'
  cases hrow'
  omega

end JobRadar
