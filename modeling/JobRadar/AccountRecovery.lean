import JobRadar.AccountDeletion
import JobRadar.AuthHistory
import JobRadar.Sequence

namespace JobRadar

open Database Python Sequence

structure ErrorItem where
  field : String
  location : String
  code : String
  message : String
  deriving DecidableEq

/-- A body, apart from the request id. -/
inductive ResponseBody
  | empty
  | data (message : String)
  | error (code message : String) (details : List ErrorItem)
  deriving DecidableEq

structure Response where
  status : Nat
  body : ResponseBody
  deriving DecidableEq

structure AppError where
  status : Nat
  code : String
  message : String

def AppError.response (error : AppError) : Response :=
  ⟨error.status, .error error.code error.message []⟩

def AuthError.app : AuthError → AppError
  | .userAlreadyExists => ⟨409, "USER_ALREADY_EXISTS", "A user with this email already exists"⟩
  | .accountLocked => ⟨401, "ACCOUNT_LOCKED", "The account is temporarily locked"⟩
  | .invalidCredentials => ⟨401, "INVALID_CREDENTIALS", "Invalid credentials"⟩
  | .emailVerificationRequired =>
    ⟨401, "EMAIL_VERIFICATION_REQUIRED", "Email verification is required"⟩
  | .invalidRefreshToken => ⟨401, "INVALID_REFRESH_TOKEN", "Invalid refresh token"⟩
  | .refreshTokenReplay => ⟨401, "REFRESH_TOKEN_REPLAY", "Refresh token reuse was detected"⟩
  | .invalidVerificationCode =>
    ⟨400, "INVALID_VERIFICATION_CODE", "The verification code is invalid or expired"⟩
  | .featureNotAvailable => ⟨404, "FEATURE_NOT_AVAILABLE", "This feature is not enabled"⟩
  | .sessionManagementDisabled =>
    ⟨409, "SESSION_MANAGEMENT_DISABLED", "Session management is disabled"⟩
  | .currentSessionUnavailable =>
    ⟨409, "CURRENT_SESSION_UNAVAILABLE", "The current session is unavailable"⟩
  | .sessionNotFound => ⟨404, "SESSION_NOT_FOUND", "The session was not found"⟩
  | .dataConflict => ⟨409, "DATA_CONFLICT", "A record with these values already exists"⟩

/-- Errors of the operating system and of arithmetic are unexpected ones. -/
def AuditError.app : AuditError → AppError
  | .dataConflict => ⟨409, "DATA_CONFLICT", "A record with these values already exists"⟩
  | .databaseUnavailable =>
    ⟨503, "DATABASE_UNAVAILABLE", "The database is temporarily unavailable"⟩
  | .persistenceFailure => ⟨500, "DATABASE_ERROR", "A database operation failed"⟩
  | .overflowError | .osError =>
    ⟨500, "INTERNAL_SERVER_ERROR", "An unexpected error occurred"⟩

/-- The bodies of the recovery requests. A field that is missing is `none`. -/
inductive RecoveryRequest
  | requestReset (email : Option String)
  | confirmReset (email code password : Option String)
  | verifyEmail (email code : Option String)
  | resend (email : Option String)

/-- What a request takes from its surroundings: the clock, the random values, and where it comes
from. -/
structure RecoveryEnv where
  cfg : Settings
  now : Time
  code : CodeDraw
  salt : String
  eventId : Uuid
  ipAddress : Option Text := none
  userAgent : Option Text := none
  requestId : Option Text := none

section Fields

def checkedField (field label : String) (check : String → Except (String × String) String) :
    Option String → Except ErrorItem String
  | none => .error ⟨field, "body", "missing", label ++ " is required"⟩
  | some value => (check value).mapError fun error => ⟨field, "body", error.1, error.2⟩

/-- An `EmailStr`: the address as the validator normalises it. -/
def emailField (emailStr : String → Option String) : Option String → Except ErrorItem String :=
  checkedField "email" "Email" fun email =>
    match emailStr email with
    | none => .error ("value_error", "Email is invalid")
    | some email => .ok email

def codeField : Option String → Except ErrorItem String :=
  checkedField "code" "Code" fun code =>
    if 6 < code.length then .error ("string_too_long", "Code must be at most 6 characters")
    else if code.length < 6 then
      .error ("string_too_short", "Code must be at least 6 characters")
    else if code.toList.all fun c => '0' ≤ c && c ≤ '9' then .ok code
    else .error ("string_pattern_mismatch", "Code is invalid")

def passwordField : Option String → Except ErrorItem String :=
  checkedField "password" "Password" fun password =>
    if password.length < 12 then
      .error ("string_too_short", "Password must be at least 12 characters")
    else .ok password

theorem emailField_ok {emailStr : String → Option String} {raw : Option String} {address : String}
    (h : emailField emailStr raw = .ok address) :
    ∃ value, raw = some value ∧ emailStr value = some address := by
  cases raw with
  | none => cases h
  | some value =>
    refine ⟨value, rfl, ?_⟩
    simp only [emailField, checkedField] at h
    split at h
    next => cases h
    next hemail =>
      cases h
      exact hemail

theorem codeField_ok {raw : Option String} {code : String} (h : codeField raw = .ok code) :
    raw = some code := by
  cases raw with
  | none => cases h
  | some value =>
    simp only [codeField, checkedField] at h
    split_ifs at h
    all_goals cases h
    rfl

def invalidRequest (fields : List (Except ErrorItem String)) : Response :=
  ⟨422, .error "VALIDATION_ERROR" "The request contains invalid data" (fields.filterMap fun field =>
    match field with
    | .error item => some item
    | .ok _ => none)⟩

end Fields

namespace AppDb

variable (P : Primitives) (e : RecoveryEnv) (db : AppDb)

/-- `record_audit` for the user resource. -/
def recordAudit (action : String) (success : Bool) (key value : String) :
    AppDb × Except AuditError Unit :=
  let call : AuditRecord :=
    { action := text action
      resourceType := text "user"
      success := success
      ipAddress := e.ipAddress
      userAgent := e.userAgent
      requestId := e.requestId
      metadata := some [(text key, .str (text value))] }
  match (call.event e.eventId e.now).stored with
  | none => (db, .error .persistenceFailure)
  | some row =>
    match db.events.insert row with
    | none => (db, .error .dataConflict)
    | some events => ({ db with events := events }, .ok ())

def respond (audited : AppDb × Except AuditError Unit) (response : Response) : AppDb × Response :=
  match audited with
  | (db, .error error) => (db, error.app.response)
  | (db, .ok ()) => (db, response)

/-- `issue_code` behind the flag of its feature. -/
def issueIf (flag : Bool) (email : String) (purpose : CodePurpose) :
    AppDb × Except AuthError Unit :=
  if flag = true then
    let (auth, result) := issueCode P e.cfg e.code db.auth email purpose
    ({ db with auth := auth }, result.map fun _ => ())
  else (db, .ok ())

def requestPasswordReset (email : String) : AppDb × Response :=
  match db.issueIf P e e.cfg.authPasswordResetEnabled email .passwordReset with
  | (db, .error error) => (db, error.app.response)
  | (db, .ok ()) =>
    respond (db.recordAudit e "user.password_reset.requested" true "email" (P.lower email))
      ⟨202, .data "If the account exists, a reset code has been sent"⟩

def resendEmailVerification (email : String) : AppDb × Response :=
  match db.issueIf P e e.cfg.authEmailVerificationEnabled email .emailVerification with
  | (db, .error error) => (db, error.app.response)
  | (db, .ok ()) => (db, ⟨202, .data "If the account exists, a verification code has been sent"⟩)

/-- What a route makes of the answer to a code: a refused one is recorded before it is raised. -/
def answerCode (email failed completed : String) (outcome : AuthOutcome Unit) : AppDb × Response :=
  match outcome with
  | (auth, .error .invalidVerificationCode) =>
    respond
      (recordAudit e { db with auth := auth } failed false "reason"
        (AuthError.app .invalidVerificationCode).message)
      (AuthError.app .invalidVerificationCode).response
  | (auth, .error error) => ({ db with auth := auth }, error.app.response)
  | (auth, .ok ()) =>
    respond (recordAudit e { db with auth := auth } completed true "email" (P.lower email))
      ⟨204, .empty⟩

def confirmPasswordReset (email code password : String) : AppDb × Response :=
  db.answerCode P e email "user.password_reset.failed" "user.password_reset.completed"
    (resetPassword P e.cfg e.now e.salt db.auth email code password)

def verifyEmailRoute (email code : String) : AppDb × Response :=
  db.answerCode P e email "user.email_verification.failed" "user.email_verified"
    (verifyEmail P e.cfg e.now db.auth email code)

def recover (emailStr : String → Option String) : RecoveryRequest → AppDb × Response
  | .requestReset email =>
    match emailField emailStr email with
    | .ok email => db.requestPasswordReset P e email
    | email => (db, invalidRequest [email])
  | .confirmReset email code password =>
    match emailField emailStr email, codeField code, passwordField password with
    | .ok email, .ok code, .ok password => db.confirmPasswordReset P e email code password
    | email, code, password => (db, invalidRequest [email, code, password])
  | .verifyEmail email code =>
    match emailField emailStr email, codeField code with
    | .ok email, .ok code => db.verifyEmailRoute P e email code
    | email, code => (db, invalidRequest [email, code])
  | .resend email =>
    match emailField emailStr email with
    | .ok email => db.resendEmailVerification P e email
    | email => (db, invalidRequest [email])

end AppDb

abbrev RecoveryCall := Call (RecoveryEnv × RecoveryRequest) AppDb

def RecoveryRequest.address : RecoveryRequest → Option String
  | .requestReset email | .confirmReset email _ _ | .verifyEmail email _ | .resend email => email

def RecoveryRequest.code : RecoveryRequest → Option (String × CodePurpose)
  | .confirmReset _ code _ => code.map fun code => (code, .passwordReset)
  | .verifyEmail _ code => code.map fun code => (code, .emailVerification)
  | .requestReset _ | .resend _ => none

/-- The request, if its address is valid, is for the account with the email. -/
def Concerns (P : Primitives) (emailStr : String → Option String) (email : String)
    (request : RecoveryRequest) : Prop :=
  ∀ raw ∈ request.address, ∀ address ∈ emailStr raw, P.lower (P.lower address) = email

instance (P : Primitives) (emailStr : String → Option String) (email : String)
    (request : RecoveryRequest) : Decidable (Concerns P emailStr email request) :=
  inferInstanceAs (Decidable (∀ raw ∈ request.address, ∀ address ∈ emailStr raw, _))

/-- The code was issued to the account with the email, and is neither used nor expired. -/
def AuthDb.LiveCode (P : Primitives) (now : Time) (db : AuthDb) (email code : String)
    (purpose : CodePurpose) : Prop :=
  ∃ user ∈ db.users.rows, user.email = some email ∧ ∃ record ∈ db.codes.rows,
    record.userId = user.id ∧ record.purpose = purpose ∧
      record.codeHash = P.hashRefreshToken code ∧ record.consumedAt = none ∧ now < record.expiresAt

instance (P : Primitives) (now : Time) (db : AuthDb) (email code : String) (purpose : CodePurpose) :
    Decidable (db.LiveCode P now email code purpose) :=
  inferInstanceAs (Decidable (∃ user ∈ db.users.rows, _))

def PresentsNoLiveCode (P : Primitives) (email : String) (c : RecoveryCall) : Prop :=
  ∀ presented ∈ c.call.2.code,
    ¬c.before.auth.LiveCode P c.call.1.now email presented.1 presented.2

instance (P : Primitives) (email : String) (c : RecoveryCall) :
    Decidable (PresentsNoLiveCode P email c) :=
  inferInstanceAs (Decidable (∀ presented ∈ c.call.2.code, _))

/-- The insert of a new code does not fail. -/
def IssuesFreshCode (c : RecoveryCall) : Prop :=
  ∀ record ∈ c.before.auth.codes.rows, record.id ≠ c.call.1.code.recordId

instance (c : RecoveryCall) : Decidable (IssuesFreshCode c) :=
  inferInstanceAs (Decidable (∀ record ∈ c.before.auth.codes.rows, _))

/-- A request for the account with the email by someone who has no code of it. -/
structure Blind (P : Primitives) (emailStr : String → Option String) (email : String)
    (c : RecoveryCall) : Prop where
  concerns : Concerns P emailStr email c.call.2
  dead : PresentsNoLiveCode P email c
  fresh : IssuesFreshCode c

namespace AppDb

def recoverStep (P : Primitives) (emailStr : String → Option String) (db : AppDb)
    (call : RecoveryEnv × RecoveryRequest) : AppDb :=
  (db.recover P call.1 emailStr call.2).1

def recoverReply (P : Primitives) (emailStr : String → Option String) (c : RecoveryCall) :
    Response :=
  (c.before.recover P c.call.1 emailStr c.call.2).2

/-- Databases with the same audit events, of which the second has no account with the email. -/
structure Alike (email : String) (a b : AppDb) : Prop where
  events : a.events = b.events
  absent : ∀ user ∈ b.auth.users.rows, user.email ≠ some email

section Auth

variable {P : Primitives} {cfg : Settings} {now : Time} {db : AuthDb} {email address code : String}
  {purpose : CodePurpose}

theorem userByEmail_absent (habsent : ∀ user ∈ db.users.rows, user.email ≠ some email)
    (haddress : P.lower (P.lower address) = email) : db.userByEmail P (P.lower address) = none := by
  apply List.find?_eq_none.mpr
  intro user huser
  rw [haddress]
  simpa using habsent user huser

theorem presentedCode_dead (haddress : P.lower (P.lower address) = email)
    (hdead : ¬db.LiveCode P now email code purpose) :
    presentedCode P now db address code purpose = none := by
  unfold presentedCode
  split
  next => rfl
  next user huser =>
    rw [Option.map_eq_none_iff, Option.filter_eq_none_iff]
    intro record hrecord
    have hemail : user.email = some email := by
      rw [← haddress]
      simpa using List.find?_some huser
    have hmatches : (record.userId = user.id ∧ record.purpose = purpose ∧
        record.codeHash = P.hashRefreshToken code ∧ record.consumedAt = none) := by
      simpa using List.find?_some hrecord
    obtain ⟨howner, hpurpose, hhash, hopen⟩ := hmatches
    simp only [decide_eq_true_iff]
    intro hlive
    exact hdead ⟨user, List.mem_of_find?_eq_some huser, hemail, record,
      List.mem_of_find?_eq_some hrecord, howner, hpurpose, hhash, hopen, hlive⟩

theorem presentedCode_absent (habsent : ∀ user ∈ db.users.rows, user.email ≠ some email)
    (haddress : P.lower (P.lower address) = email) :
    presentedCode P now db address code purpose = none := by
  unfold presentedCode
  rw [userByEmail_absent habsent haddress]

/-- How a code that is not live is refused. -/
def codeRefusal (flag : Bool) : AuthError :=
  if flag = true then .invalidVerificationCode else .featureNotAvailable

theorem verifyEmail_refused
    (hdead : presentedCode P now db address code .emailVerification = none) :
    verifyEmail P cfg now db address code =
      (db, .error (codeRefusal cfg.authEmailVerificationEnabled)) := by
  unfold verifyEmail codeRefusal
  split
  next =>
    rw [hdead]
  next => rfl

theorem resetPassword_refused {salt password : String}
    (hdead : presentedCode P now db address code .passwordReset = none) :
    resetPassword P cfg now salt db address code password =
      (db, .error (codeRefusal cfg.authPasswordResetEnabled)) := by
  unfold resetPassword codeRefusal
  split
  next =>
    rw [hdead]
  next => rfl

theorem issueCode_fresh {draw : CodeDraw}
    (hfresh : ∀ record ∈ db.codes.rows, record.id ≠ draw.recordId) :
    ∃ auth result, issueCode P cfg draw db address purpose = (auth, .ok result) := by
  unfold issueCode AuthDb.saveVerificationCode
  dsimp only
  split
  next => exact ⟨_, _, rfl⟩
  next user _ =>
    obtain ⟨codes, hinsert⟩ := Table.insert_isSome_of_fresh (t := db.codes)
      (r := ⟨draw.recordId, user.id, purpose, P.hashRefreshToken draw.code,
        draw.issuedAt + timedeltaMinutes cfg.authOtpExpireMinutes, none⟩) hfresh
    rw [hinsert]
    exact ⟨_, _, rfl⟩

theorem issueCode_absent {draw : CodeDraw} (hnone : db.userByEmail P (P.lower address) = none) :
    issueCode P cfg draw db address purpose = (db, .ok none) := by
  unfold issueCode
  rw [hnone]

end Auth

section Alike

variable {P : Primitives} {e : RecoveryEnv} {email address : String} {a b : AppDb}

def AlikeReplies (email : String) (x y : AppDb × Response) : Prop :=
  Alike email x.1 y.1 ∧ x.2 = y.2

theorem recordAudit_alike (halike : Alike email a b) (action : String) (success : Bool)
    (key value : String) : ∃ a' b' result, a.recordAudit e action success key value = (a', result) ∧
      b.recordAudit e action success key value = (b', result) ∧ Alike email a' b' := by
  obtain ⟨hevents, habsent⟩ := halike
  unfold recordAudit
  dsimp only
  split
  next => exact ⟨a, b, _, rfl, rfl, hevents, habsent⟩
  next row _ =>
    rw [hevents]
    split
    next => exact ⟨a, b, _, rfl, rfl, hevents, habsent⟩
    next events _ =>
      exact ⟨{ a with events := events }, { b with events := events }, _, rfl, rfl, rfl, habsent⟩

theorem respond_alike (halike : Alike email a b) (action : String) (success : Bool)
    (key value : String) (response : Response) :
    AlikeReplies email (respond (a.recordAudit e action success key value) response)
      (respond (b.recordAudit e action success key value) response) := by
  obtain ⟨a', b', result, ha, hb, halike'⟩ :=
    recordAudit_alike (e := e) halike action success key value
  rw [ha, hb]
  cases result with
  | error error => exact ⟨halike', rfl⟩
  | ok done => exact ⟨halike', rfl⟩

theorem issueIf_alike (halike : Alike email a b) (haddress : P.lower (P.lower address) = email)
    (hfresh : ∀ record ∈ a.auth.codes.rows, record.id ≠ e.code.recordId) (flag : Bool)
    (purpose : CodePurpose) :
    ∃ a', a.issueIf P e flag address purpose = (a', .ok ()) ∧
      b.issueIf P e flag address purpose = (b, .ok ()) ∧ Alike email a' b := by
  unfold issueIf
  cases flag with
  | false => exact ⟨a, rfl, rfl, halike⟩
  | true =>
    obtain ⟨auth, result, hissue⟩ : ∃ auth result,
        issueCode P e.cfg e.code a.auth address purpose = (auth, .ok result) :=
      issueCode_fresh hfresh
    have hnone : issueCode P e.cfg e.code b.auth address purpose = (b.auth, .ok none) :=
      issueCode_absent (userByEmail_absent halike.absent haddress)
    refine ⟨{ a with auth := auth }, ?_, ?_, halike.events, halike.absent⟩
    · simp only [if_true, hissue, Except.map]
    · simp only [if_true, hnone, Except.map]

theorem answerCode_alike (halike : Alike email a b) (failed completed : String) (flag : Bool) :
    AlikeReplies email
      (a.answerCode P e address failed completed (a.auth, .error (codeRefusal flag)))
      (b.answerCode P e address failed completed (b.auth, .error (codeRefusal flag))) := by
  cases flag with
  | false => exact ⟨halike, rfl⟩
  | true => exact respond_alike halike _ _ _ _ _

end Alike

theorem recover_alike {P : Primitives} {emailStr : String → Option String} {email : String}
    {a b : AppDb} {call : RecoveryEnv × RecoveryRequest} (halike : Alike email a b)
    (hblind : Blind P emailStr email ⟨a, call⟩) :
    AlikeReplies email (a.recover P call.1 emailStr call.2)
      (b.recover P call.1 emailStr call.2) := by
  obtain ⟨e, request⟩ := call
  obtain ⟨hfor, hdead, hfresh⟩ := hblind
  have hvalid : ∀ {raw : Option String} {address : String}, request.address = raw →
      emailField emailStr raw = .ok address → P.lower (P.lower address) = email := by
    intro raw address hraw hfield
    obtain ⟨value, hvalue, hemail⟩ := emailField_ok hfield
    exact hfor value (hraw.trans hvalue) address hemail
  have hcodes : ∀ {address code : String} {purpose : CodePurpose},
      P.lower (P.lower address) = email → request.code = some (code, purpose) →
      presentedCode P e.now a.auth address code purpose = none ∧
        presentedCode P e.now b.auth address code purpose = none :=
    fun haddress hcode => ⟨presentedCode_dead haddress (hdead _ hcode),
      presentedCode_absent halike.absent haddress⟩
  cases request with
  | requestReset raw =>
    dsimp only [recover]
    split
    next address hfield =>
      obtain ⟨a', ha, hb, halike'⟩ := issueIf_alike halike (hvalid rfl hfield) hfresh
        e.cfg.authPasswordResetEnabled .passwordReset
      dsimp only [requestPasswordReset]
      rw [ha, hb]
      exact respond_alike halike' _ _ _ _ _
    next => exact ⟨halike, rfl⟩
  | confirmReset raw code password =>
    dsimp only [recover]
    split
    next address code' password' hfield hcodefield _ =>
      obtain rfl := codeField_ok hcodefield
      obtain ⟨hpresented, habsent⟩ := hcodes (hvalid rfl hfield) rfl
      dsimp only [confirmPasswordReset]
      rw [resetPassword_refused hpresented, resetPassword_refused habsent]
      exact answerCode_alike halike _ _ _
    next => exact ⟨halike, rfl⟩
  | verifyEmail raw code =>
    dsimp only [recover]
    split
    next address code' hfield hcodefield =>
      obtain rfl := codeField_ok hcodefield
      obtain ⟨hpresented, habsent⟩ := hcodes (hvalid rfl hfield) rfl
      dsimp only [verifyEmailRoute]
      rw [verifyEmail_refused hpresented, verifyEmail_refused habsent]
      exact answerCode_alike halike _ _ _
    next => exact ⟨halike, rfl⟩
  | resend raw =>
    dsimp only [recover]
    split
    next address hfield =>
      obtain ⟨a', ha, hb, halike'⟩ := issueIf_alike halike (hvalid rfl hfield) hfresh
        e.cfg.authEmailVerificationEnabled .emailVerification
      dsimp only [resendEmailVerification]
      rw [ha, hb]
      exact ⟨halike', rfl⟩
    next => exact ⟨halike, rfl⟩

/-- The same recovery requests get the same responses whether there is an account with the email or
not. -/
theorem recovery_hides_accounts {P : Primitives} {emailStr : String → Option String}
    {email : String} {a₀ b₀ a b : AppDb} {calls calls' : List RecoveryCall}
    (halike : Alike email a₀ b₀) (run : Run (recoverStep P emailStr) a₀ calls a)
    (run' : Run (recoverStep P emailStr) b₀ calls' b)
    (hsame : calls.map Call.call = calls'.map Call.call)
    (hblind : ∀ c ∈ calls, Blind P emailStr email c) :
    calls.map (recoverReply P emailStr) = calls'.map (recoverReply P emailStr) := by
  have keep : ∀ (s t : AppDb) call, Alike email s t → Blind P emailStr email ⟨s, call⟩ →
      Alike email (recoverStep P emailStr s call) (recoverStep P emailStr t call) ∧
        recoverReply P emailStr ⟨s, call⟩ = recoverReply P emailStr ⟨t, call⟩ :=
    fun s t call halike hblind => recover_alike halike hblind
  exact (Run.lockstep halike keep run run' hsame hblind).2

def recoveryCall (now : Time) : RecoveryEnv where
  cfg := { authPasswordResetEnabled := true }
  now := now
  code := ⟨now, now, "123456"⟩
  salt := "s"
  eventId := now

/-- Requests for Ann's address with a code that is not hers. -/
def recoverAnn (db : AppDb) : List RecoveryCall × AppDb :=
  runAll (recoverStep .plain some) [] db
    [(recoveryCall 1, .requestReset (some "ann@example.com")),
      (recoveryCall 2, .confirmReset (some "ann@example.com") (some "654321")
        (some "correct horse")),
      (recoveryCall 3, .verifyEmail (some "ann@example.com") (some "654321")),
      (recoveryCall 4, .resend (some "ann@example.com"))]

theorem recoverAnn_hidden :
    (recoverAnn { auth := annDb }).2.auth.codes.rows.length = 1 ∧
    (recoverAnn { auth := annDb }).1.map (recoverReply .plain some) =
      (recoverAnn {}).1.map (recoverReply .plain some) := by
  have halike : Alike "ann@example.com" { auth := annDb } {} := by
    refine ⟨rfl, ?_⟩
    intro user huser
    cases huser
  have hconcerns : ∀ c ∈ (recoverAnn { auth := annDb }).1,
      Concerns .plain some "ann@example.com" c.call.2 := by decide
  have hdead : ∀ c ∈ (recoverAnn { auth := annDb }).1,
      PresentsNoLiveCode .plain "ann@example.com" c := by decide
  have hfresh : ∀ c ∈ (recoverAnn { auth := annDb }).1, IssuesFreshCode c := by decide
  have hblind : ∀ c ∈ (recoverAnn { auth := annDb }).1, Blind .plain some "ann@example.com" c :=
    fun c hc => ⟨hconcerns c hc, hdead c hc, hfresh c hc⟩
  exact ⟨by decide, recovery_hides_accounts halike (run_runAll .start _) (run_runAll .start _) rfl
    hblind⟩

end AppDb

end JobRadar
