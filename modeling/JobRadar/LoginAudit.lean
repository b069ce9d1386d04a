import JobRadar.AccountRecovery

namespace JobRadar

open Database Python

/-- What the login route reads of a request beside its body. -/
structure LoginRequest where
  client : Option String := none
  userAgent : Option String := none
  deviceName : Option String := none
  xRequestId : Option String := none

namespace LoginRequest

def sessionMetadata (r : LoginRequest) : SessionMetadata := ⟨r.deviceName, r.userAgent, r.client⟩

/-- The id that `request_id_middleware` gives to the request. -/
def requestId (r : LoginRequest) (generated : String) : String :=
  match r.xRequestId with
  | none => generated
  | some header => if header = "" then generated else header

/-- What comes with the request has room in the columns of an audit event. -/
structure Recordable (r : LoginRequest) : Prop where
  client : ∀ host ∈ r.client, (varcharColumn 64 (text host)).isSome
  userAgent : ∀ header ∈ r.userAgent, (varcharColumn 512 (text header)).isSome
  requestId : ∀ header ∈ r.xRequestId, (varcharColumn 128 (text header)).isSome

end LoginRequest

/-- A text as `str(uuid4())` gives it: 36 characters, hexadecimal digits and hyphens. -/
structure UuidText where
  value : String
  length_eq : (text value).length = 36
  ascii : ∀ c ∈ text value, 45 ≤ c ∧ c < 128

theorem UuidText.fits (u : UuidText) : (varcharColumn 128 (text u.value)).isSome := by
  have hstorable : storable (text u.value) := by
    apply List.all_eq_true.mpr
    intro c hc
    obtain ⟨hlow, hhigh⟩ := u.ascii c hc
    simp only [decide_eq_true_eq]
    omega
  have hshort : (text u.value).length ≤ 128 := by
    rw [u.length_eq]
    decide
  rw [varcharColumn_of_fits hstorable hshort]
  rfl

/-- The clock, the settings and the random values of a login. -/
structure LoginEnv where
  cfg : Settings
  now : Time
  draw : TokenDraw
  eventId : Uuid
  generated : UuidText

def AuthError.isAuthenticationError : AuthError → Bool
  | .accountLocked | .invalidCredentials | .emailVerificationRequired | .invalidRefreshToken
  | .refreshTokenReplay => true
  | _ => false

/-- The event of a login: its actor, if it succeeded, or the reason it failed for. -/
def LoginEnv.audit (e : LoginEnv) (r : LoginRequest) (uuid : Uuid → Text) :
    Except AuthError Uuid → AuditRecord
  | .error error =>
    { action := text "user.login.failed"
      resourceType := text "user"
      success := false
      ipAddress := r.client.map text
      userAgent := r.userAgent.map text
      requestId := some (text (r.requestId e.generated.value))
      metadata := some [(text "reason", .str (text error.app.message))] }
  | .ok userId =>
    { action := text "user.logged_in"
      resourceType := text "user"
      resourceId := some (uuid userId)
      actorUserId := some userId
      ipAddress := r.client.map text
      userAgent := r.userAgent.map text
      requestId := some (text (r.requestId e.generated.value)) }

namespace AppDb

variable (P : Primitives) (e : LoginEnv) (r : LoginRequest) (uuid : Uuid → Text) (db : AppDb)

/-- `AuditService.record`. -/
def record (eventId : Uuid) (now : Time) (call : AuditRecord) : AppDb × Except AuditError Unit :=
  match (call.event eventId now).stored with
  | none => (db, .error .persistenceFailure)
  | some row =>
    match db.events.insert row with
    | none => (db, .error .dataConflict)
    | some events => ({ db with events := events }, .ok ())

/-- The handler goes on to its answer once the event is recorded. -/
def afterRecord {α : Type} (audited : AppDb × Except AuditError Unit) (answer : Except AppError α) :
    AppDb × Except AppError α :=
  match audited with
  | (db, .error error) => (db, .error error.app)
  | (db, .ok ()) => (db, answer)

/-- The `login` route: an authentication error is recorded and raised again. -/
def loginRoute (email password : String) : AppDb × Except AppError TokenPair :=
  match login P e.cfg e.now e.draw db.auth email password r.sessionMetadata with
  | (auth, .error error) =>
    let db := { db with auth := auth }
    if error.isAuthenticationError then
      afterRecord (db.record e.eventId e.now (e.audit r uuid (.error error))) (.error error.app)
    else (db, .error error.app)
  | (auth, .ok pair) =>
    let db := { db with auth := auth }
    afterRecord (db.record e.eventId e.now (e.audit r uuid (.ok pair.access.sub))) (.ok pair)

/-- The failed login has left an event with its reason, and is answered with its error. -/
def FailureRecorded (error : AuthError) (after : AppDb × Except AppError TokenPair) : Prop :=
  (∃ row ∈ after.1.events.rows, row ∉ db.events.rows ∧ row.action = text "user.login.failed" ∧
    row.success = false ∧
    row.eventMetadata = [(text "reason", .str (text error.app.message))]) ∧
  after.2 = .error error.app

theorem recordAudit_eq_record (e : RecoveryEnv) (action : String) (success : Bool)
    (key value : String) : db.recordAudit e action success key value = db.record e.eventId e.now
      { action := text action
        resourceType := text "user"
        success := success
        ipAddress := e.ipAddress
        userAgent := e.userAgent
        requestId := e.requestId
        metadata := some [(text key, .str (text value))] } := rfl

end AppDb

theorem nullable_isSome_iff {column : Text → Option Text} {t : Option Text} :
    (nullable column t).isSome ↔ ∀ x ∈ t, (column x).isSome := by
  cases t with
  | none => simp [nullable]
  | some t => simp [nullable]

namespace AuditEvent

variable {event row : AuditEvent}

theorem stored_isSome_iff : event.stored.isSome ↔
    (varcharColumn 128 event.action).isSome ∧ (varcharColumn 64 event.resourceType).isSome ∧
      (nullable (varcharColumn 128) event.resourceId).isSome ∧
      (nullable (varcharColumn 64) event.ipAddress).isSome ∧
      (nullable (varcharColumn 512) event.userAgent).isSome ∧
      (nullable (varcharColumn 128) event.requestId).isSome ∧
      jsonFields event.eventMetadata = true := by
  simp only [Option.isSome_iff_exists]
  constructor
  · rintro ⟨row, h⟩
    simp only [stored, Option.bind_eq_bind, Option.bind_eq_some_iff] at h
    obtain ⟨action, haction, type, htype, resource, hresource, ip, hip, agent, hagent, request,
      hrequest, h⟩ := h
    split at h
    next hmetadata =>
      exact ⟨⟨action, haction⟩, ⟨type, htype⟩, ⟨resource, hresource⟩, ⟨ip, hip⟩, ⟨agent, hagent⟩,
        ⟨request, hrequest⟩, hmetadata⟩
    next => cases h
  · rintro ⟨⟨action, haction⟩, ⟨type, htype⟩, ⟨resource, hresource⟩, ⟨ip, hip⟩, ⟨agent, hagent⟩,
      ⟨request, hrequest⟩, hmetadata⟩
    have hrow : event.stored = some { event with
        action := action, resourceType := type, resourceId := resource, ipAddress := ip
        userAgent := agent, requestId := request } := by
      simp only [stored, haction, htype, hresource, hip, hagent, hrequest, hmetadata, if_true]
      rfl
    exact ⟨_, hrow⟩

theorem stored_fields (h : event.stored = some row) :
    row.id = event.id ∧ varcharColumn 128 event.action = some row.action ∧
      row.success = event.success ∧ row.eventMetadata = event.eventMetadata := by
  simp only [stored, Option.bind_eq_bind, Option.bind_eq_some_iff] at h
  obtain ⟨action, haction, type, -, resource, -, ip, -, agent, -, request, -, h⟩ := h
  split at h
  next =>
    cases h
    exact ⟨rfl, haction, rfl, rfl⟩
  next => cases h

end AuditEvent

namespace LoginRequest

variable {r : LoginRequest} {u : UuidText}

theorem requestId_fits_iff : (varcharColumn 128 (text (r.requestId u.value))).isSome ↔
    ∀ header ∈ r.xRequestId, (varcharColumn 128 (text header)).isSome := by
  have hblank : (varcharColumn 128 (text "")).isSome := rfl
  unfold requestId
  cases r.xRequestId with
  | none => simp [u.fits]
  | some header =>
    by_cases hempty : header = ""
    · simp [hempty, u.fits, hblank]
    · simp [hempty]

end LoginRequest

section Failed

variable {P : Primitives} {e : LoginEnv} {r : LoginRequest} {uuid : Uuid → Text} {db : AppDb}
  {error : AuthError} {row : AuditEvent}

theorem failedEvent_stored_iff :
    ((e.audit r uuid (.error error)).event e.eventId e.now).stored.isSome ↔ r.Recordable := by
  have haction : (varcharColumn 128 (text "user.login.failed")).isSome := by decide
  have hresource : (varcharColumn 64 (text "user")).isSome := by decide
  rw [AuditEvent.stored_isSome_iff]
  simp only [LoginEnv.audit, AuditRecord.event, nullable_isSome_iff, Option.mem_map,
    forall_exists_index, and_imp, forall_apply_eq_imp_iff₂]
  constructor
  · rintro ⟨-, -, -, hclient, hagent, hrequest, -⟩
    exact ⟨hclient, hagent, LoginRequest.requestId_fits_iff.mp (hrequest _ rfl)⟩
  · rintro ⟨hclient, hagent, hrequest⟩
    refine ⟨haction, hresource, ?_, hclient, hagent, ?_, rfl⟩
    · intro x hx
      cases hx
    · intro x hx
      cases hx
      exact LoginRequest.requestId_fits_iff.mpr hrequest

theorem failedEvent_fields
    (h : ((e.audit r uuid (.error error)).event e.eventId e.now).stored = some row) :
    row.id = e.eventId ∧ row.action = text "user.login.failed" ∧ row.success = false ∧
      row.eventMetadata = [(text "reason", .str (text error.app.message))] := by
  have haction : varcharColumn 128 (text "user.login.failed") = some (text "user.login.failed") :=
    by decide
  obtain ⟨hid, hname, hsuccess, hmetadata⟩ := AuditEvent.stored_fields h
  exact ⟨hid, Option.some.inj (hname.symm.trans haction), hsuccess, hmetadata⟩

theorem AuditError.app_ne (audit : AuditError) (herror : error.isAuthenticationError = true) :
    audit.app.status ≠ error.app.status := by
  cases error <;> cases audit <;> cases herror <;> decide

theorem loginRoute_raised {email password : String} {auth : AuthDb}
    (hraised : login P e.cfg e.now e.draw db.auth email password r.sessionMetadata =
      (auth, .error error))
    (herror : error.isAuthenticationError = true) :
    db.loginRoute P e r uuid email password =
      AppDb.afterRecord (AppDb.record { db with auth := auth } e.eventId e.now
        (e.audit r uuid (.error error))) (.error error.app) := by
  simp only [AppDb.loginRoute, hraised, herror, if_true]

theorem loginRoute_refused {email password : String} {auth : AuthDb}
    (hraised : login P e.cfg e.now e.draw db.auth email password r.sessionMetadata =
      (auth, .error error))
    (herror : error.isAuthenticationError = true) (hlong : ¬r.Recordable) :
    db.loginRoute P e r uuid email password =
      ({ db with auth := auth }, .error (AuditError.app .persistenceFailure)) := by
  have hrefused : ((e.audit r uuid (.error error)).event e.eventId e.now).stored = none := by
    rw [← Option.not_isSome_iff_eq_none, failedEvent_stored_iff]
    exact hlong
  rw [loginRoute_raised hraised herror, AppDb.record, hrefused]
  rfl

/-- A failed login is recorded, and answered with its error, exactly when what comes with the
request fits the columns of the event. -/
theorem failed_login_recorded_iff {email password : String} {auth : AuthDb}
    (hraised : login P e.cfg e.now e.draw db.auth email password r.sessionMetadata =
      (auth, .error error))
    (herror : error.isAuthenticationError = true) :
    db.FailureRecorded error (db.loginRoute P e r uuid email password) ↔
      r.Recordable ∧ ∀ row ∈ db.events.rows, row.id ≠ e.eventId := by
  have hother : ∀ audit : AuditError, ∀ after : AppDb,
      ¬db.FailureRecorded error (after, .error audit.app) := by
    intro audit after hrecorded
    have hanswer : audit.app = error.app := Except.error.inj hrecorded.2
    exact AuditError.app_ne audit herror (congrArg AppError.status hanswer)
  rw [loginRoute_raised hraised herror, ← @failedEvent_stored_iff e r uuid error]
  unfold AppDb.record
  split
  next hrefused =>
    constructor
    · intro hrecorded
      exact absurd hrecorded (hother _ _)
    · rintro ⟨hstored, -⟩
      rw [hrefused] at hstored
      cases hstored
  next row hstored =>
    obtain ⟨hid, haction, hsuccess, hmetadata⟩ := failedEvent_fields hstored
    split
    next htaken =>
      constructor
      · intro hrecorded
        exact absurd hrecorded (hother _ _)
      · rintro ⟨-, hfree⟩
        obtain ⟨old, hold, hsame⟩ := Table.insert_eq_none_iff.mp htaken
        exact absurd (hsame.trans hid) (hfree old hold)
    next events hinsert =>
      have hfree : ∀ old ∈ db.events.rows, old.id ≠ e.eventId := fun old hold hsame =>
        Table.key_ne_of_insert hinsert hold (hsame.trans hid.symm)
      have hnew : row ∉ db.events.rows := fun hold => hfree row hold hid
      constructor
      · intro _
        exact ⟨Option.isSome_of_eq_some hstored, hfree⟩
      · intro _
        have hrow : row ∈ events.rows := (Table.mem_of_insert hinsert).mpr (Or.inr rfl)
        exact ⟨⟨row, hrow, hnew, haction, hsuccess, hmetadata⟩, rfl⟩

end Failed

def firstUuid : UuidText where
  value := "00000000-0000-4000-8000-000000000001"
  length_eq := by decide
  ascii := by decide

def loginAt (now : Time) : LoginEnv where
  cfg := {}
  now := now
  draw := (callAt now "first" {}).draw
  eventId := now
  generated := firstUuid

def browser : LoginRequest where
  client := some "10.0.0.1"
  userAgent := some "Mozilla/5.0"

theorem wrongPassword_raised (r : LoginRequest) :
    login .plain (loginAt 1).cfg (loginAt 1).now (loginAt 1).draw annDb "ann@example.com" "letmein"
      r.sessionMetadata = (annDb, .error .invalidCredentials) := rfl

theorem wrongPassword_recorded :
    AppDb.FailureRecorded { auth := annDb } .invalidCredentials
      (AppDb.loginRoute .plain (loginAt 1) browser (fun _ => []) { auth := annDb }
        "ann@example.com" "letmein") :=
  (failed_login_recorded_iff (wrongPassword_raised browser) rfl).mpr
    ⟨⟨by decide, by decide, by decide⟩, by decide⟩

def longRequestId : LoginRequest where
  xRequestId := some (String.ofList (List.replicate 129 'a'))

theorem longRequestId_refused : ¬longRequestId.Recordable := by
  intro hfits
  have hroom := hfits.requestId _ rfl
  have htext : text (String.ofList (List.replicate 129 'a')) = List.replicate 129 97 := by
    simp [text]
  rw [htext, varcharColumn, List.drop_replicate] at hroom
  simp at hroom

/-- The password is refused, the event as well, and the answer is a failure of the database. -/
theorem longRequestId_unrecorded :
    (AppDb.loginRoute .plain (loginAt 1) longRequestId (fun _ => []) { auth := annDb }
      "ann@example.com" "letmein").1.events.rows = [] ∧
    (AppDb.loginRoute .plain (loginAt 1) longRequestId (fun _ => []) { auth := annDb }
      "ann@example.com" "letmein").2 = .error (AuditError.app .persistenceFailure) ∧
    ¬AppDb.FailureRecorded { auth := annDb } .invalidCredentials
      (AppDb.loginRoute .plain (loginAt 1) longRequestId (fun _ => []) { auth := annDb }
        "ann@example.com" "letmein") := by
  rw [loginRoute_refused (e := loginAt 1) (wrongPassword_raised longRequestId) rfl
    longRequestId_refused]
  refine ⟨rfl, rfl, ?_⟩
  rintro ⟨⟨row, hrow, -⟩, -⟩
  cases hrow

end JobRadar
