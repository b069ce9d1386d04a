import JobRadar.SingleUseCodes

namespace JobRadar

open Database

namespace AuthDb

variable (db : AuthDb) (userId : Uuid) (purpose : CodePurpose) (codeHash : String)

/-- The rows that meet the conditions of `verification_code`. -/
def matchingCodes : List VerificationCode :=
  db.codes.rows.filter fun c =>
    c.userId = userId ∧ c.purpose = purpose ∧ c.codeHash = codeHash ∧ c.consumedAt = none

theorem verificationCode_eq_pick : db.verificationCode userId purpose codeHash =
    FirstRow.head.pick (db.matchingCodes userId purpose codeHash) :=
  List.head?_filter.symm

end AuthDb

theorem markVerified_id (now : Time) (user : User) : (markVerified now user).id = user.id := rfl

theorem setPassword_id (P : Primitives) (salt password : String) (user : User) :
    (setPassword P salt password user).id = user.id := rfl

section Calls

variable (first : FirstRow VerificationCode) (P : Primitives) (cfg : Settings) (now : Time)
  (db : AuthDb)

/-- `presentedCode`, whichever matching row the query comes back with. -/
def presentedCodeBy (email code : String) (purpose : CodePurpose) :
    Option (User × VerificationCode) :=
  match db.userByEmail P (P.lower email) with
  | none => none
  | some user =>
    ((first.pick (db.matchingCodes user.id purpose (P.hashRefreshToken code))).filter
      fun record => now < record.expiresAt).map fun record => (user, record)

def CodeCall.run : CodeCall → AuthOutcome Unit
  | .verify email code =>
    if cfg.authEmailVerificationEnabled = true then
      match presentedCodeBy first P now db email code .emailVerification with
      | none => (db, .error .invalidVerificationCode)
      | some (user, record) =>
        ((db.consumeCode record now).updateUser user.id (markVerified now) (markVerified_id now),
          .ok ())
    else (db, .error .featureNotAvailable)
  | .reset salt email code password =>
    if cfg.authPasswordResetEnabled = true then
      match presentedCodeBy first P now db email code .passwordReset with
      | none => (db, .error .invalidVerificationCode)
      | some (user, record) =>
        (((db.consumeCode record now).updateUser user.id (setPassword P salt password)
          (setPassword_id P salt password)).revokeUserTokens user.id now, .ok ())
    else (db, .error .featureNotAvailable)

end Calls

namespace CodeCall

def email : CodeCall → String
  | .verify email _ | .reset _ email _ _ => email

def code : CodeCall → String
  | .verify _ code | .reset _ _ code _ => code

def purpose : CodeCall → CodePurpose
  | .verify _ _ => .emailVerification
  | .reset _ _ _ _ => .passwordReset

def enabled (cfg : Settings) : CodeCall → Bool
  | .verify _ _ => cfg.authEmailVerificationEnabled
  | .reset _ _ _ _ => cfg.authPasswordResetEnabled

variable (P : Primitives) (db : AuthDb) (call : CodeCall)

/-- The unconsumed records of the user for the purpose and the code of the call. -/
def records : List VerificationCode :=
  match db.userByEmail P (P.lower call.email) with
  | none => []
  | some user => db.matchingCodes user.id call.purpose (P.hashRefreshToken call.code)

variable {first : FirstRow VerificationCode} {P : Primitives} {cfg : Settings} {now : Time}
  {db : AuthDb} {call : CodeCall} {email code salt password : String}

theorem mem_records {record : VerificationCode} : record ∈ call.records P db ↔
    ∃ user, db.userByEmail P (P.lower call.email) = some user ∧ record ∈ db.codes ∧
      record.userId = user.id ∧ record.purpose = call.purpose ∧
      record.codeHash = P.hashRefreshToken call.code ∧ record.consumedAt = none := by
  unfold records
  cases db.userByEmail P (P.lower call.email) with
  | none => simp
  | some user => simp [AuthDb.matchingCodes, Table.mem_rows]

theorem presentedCodeBy_head {purpose : CodePurpose} :
    presentedCodeBy .head P now db email code purpose =
      presentedCode P now db email code purpose := by
  unfold presentedCodeBy presentedCode
  cases db.userByEmail P (P.lower email) with
  | none => rfl
  | some user => simp only [AuthDb.verificationCode_eq_pick]

theorem run_verify_head : (CodeCall.verify email code).run .head P cfg now db =
    verifyEmail P cfg now db email code := by
  unfold run verifyEmail
  cases hcode : presentedCode P now db email code .emailVerification with
  | none => simp only [presentedCodeBy_head, hcode]
  | some presented => simp only [presentedCodeBy_head, hcode]

theorem run_reset_head : (CodeCall.reset salt email code password).run .head P cfg now db =
    resetPassword P cfg now salt db email code password := by
  unfold run resetPassword
  cases hcode : presentedCode P now db email code .passwordReset with
  | none => simp only [presentedCodeBy_head, hcode]
  | some presented => simp only [presentedCodeBy_head, hcode]

theorem presentedCodeBy_isSome_iff :
    (presentedCodeBy first P now db call.email call.code call.purpose).isSome ↔
      ∃ record, first.pick (call.records P db) = some record ∧ now < record.expiresAt := by
  unfold presentedCodeBy records
  cases db.userByEmail P (P.lower call.email) with
  | none => simp [first.pick_eq_none_iff.mpr]
  | some user => simp [Option.any_eq_true]

theorem run_succeeds_iff (henabled : call.enabled cfg = true) :
    (call.run first P cfg now db).2 = .ok () ↔
      ∃ record, first.pick (call.records P db) = some record ∧ now < record.expiresAt := by
  rw [← presentedCodeBy_isSome_iff]
  cases call with
  | verify email code =>
    have hflag : cfg.authEmailVerificationEnabled = true := henabled
    simp only [run, hflag, if_true, CodeCall.email, CodeCall.code, purpose]
    split
    next hnone => simp [hnone]
    next hsome => simp [hsome]
  | reset salt email code password =>
    have hflag : cfg.authPasswordResetEnabled = true := henabled
    simp only [run, hflag, if_true, CodeCall.email, CodeCall.code, purpose]
    split
    next hnone => simp [hnone]
    next hsome => simp [hsome]

/-- The call succeeds whenever a record is live, whichever row the query comes back with, exactly
when its records are all live or all expired. -/
theorem accepted_iff_live_iff (henabled : call.enabled cfg = true) :
    (∀ first, (call.run first P cfg now db).2 = .ok () ↔
        ∃ record ∈ call.records P db, now < record.expiresAt) ↔
      ¬((∃ record ∈ call.records P db, now < record.expiresAt) ∧
        ∃ record ∈ call.records P db, record.expiresAt ≤ now) := by
  have hexpired : (∃ record ∈ call.records P db, record.expiresAt ≤ now) ↔
      ∃ record ∈ call.records P db, ¬now < record.expiresAt := by
    simp only [Nat.not_lt]
  simp only [run_succeeds_iff henabled]
  rw [hexpired]
  exact FirstRow.pick_decides_iff

def resetsOn : Settings := { authPasswordResetEnabled := true }

/-- Ann is issued the same code twice, five minutes apart. -/
def annTwice : AuthDb :=
  let issue (db : AuthDb) (d : CodeDraw) :=
    (issueCode .plain resetsOn d db "ann@example.com" .passwordReset).1
  issue (issue annDb ⟨0, 1, "123456"⟩) ⟨timedeltaMinutes 5, 2, "123456"⟩

def annResets : CodeCall := .reset "s" "ann@example.com" "123456" "battery staple"

theorem annResets_early :
    (annResets.records .plain annTwice).length = 2 ∧
    ∀ first, (annResets.run first .plain resetsOn (timedeltaMinutes 9) annTwice).2 = .ok () ↔
      ∃ record ∈ annResets.records .plain annTwice, timedeltaMinutes 9 < record.expiresAt :=
  ⟨by decide, (accepted_iff_live_iff (by decide)).mpr (by decide)⟩

/-- Between the two expiries the second record is live, but the first one comes back. -/
theorem annResets_late :
    (∃ record ∈ annResets.records .plain annTwice, timedeltaMinutes 12 < record.expiresAt) ∧
    (resetPassword .plain resetsOn (timedeltaMinutes 12) "s" annTwice "ann@example.com" "123456"
      "battery staple").2 = .error .invalidVerificationCode ∧
    ¬∀ first,
      (annResets.run first .plain resetsOn (timedeltaMinutes 12) annTwice).2 = .ok () ↔
        ∃ record ∈ annResets.records .plain annTwice,
          timedeltaMinutes 12 < record.expiresAt := by
  have hlive : ∃ record ∈ annResets.records .plain annTwice,
      timedeltaMinutes 12 < record.expiresAt := by decide
  have hrefused : (resetPassword .plain resetsOn (timedeltaMinutes 12) "s" annTwice
      "ann@example.com" "123456" "battery staple").2 = .error .invalidVerificationCode := rfl
  refine ⟨hlive, hrefused, ?_⟩
  intro haccepted
  have hhead := (haccepted .head).mpr hlive
  rw [annResets, run_reset_head, hrefused] at hhead
  cases hhead

end CodeCall

end JobRadar
