import JobRadar.Hierarchy
import JobRadar.PythonJson
import Mathlib.Logic.Function.Basic

namespace JobRadar

open Hierarchy Python

namespace Http

inductive ErrorClass
  | appError
  | badRequestError
  | invalidInputError
  | notFoundError
  | conflictError
  | authenticationError
  | permissionDenied
  | persistenceFailure
  | databaseUnavailable
  | userAlreadyExists
  | dataConflict
  | accountLocked
  | invalidCredentials
  | emailVerificationRequired
  | invalidAccessToken
  | authenticationRequired
  | sessionRevoked
  | invalidRefreshToken
  | refreshTokenReplay
  | invalidVerificationCode
  | featureNotAvailable
  | sessionManagementDisabled
  | currentSessionUnavailable
  | sessionNotFound
  | userOrRoleNotFound
  | userNotFound
  | sourceNotFound
  | unsupportedSourceKind
  | ingestionAlreadyRunning
  | runNotFound
  | jobNotFound
  | matchNotFound
  | activePreferenceNotFound
  | notificationDeliveryNotFound
  | invalidUserIdentifier
  deriving DecidableEq

namespace ErrorClass

def parent : ErrorClass → Option ErrorClass
  | appError => none
  | badRequestError | invalidInputError | notFoundError | conflictError | authenticationError
  | permissionDenied | persistenceFailure => some appError
  | databaseUnavailable => some persistenceFailure
  | userAlreadyExists | dataConflict | sessionManagementDisabled | currentSessionUnavailable
  | ingestionAlreadyRunning => some conflictError
  | accountLocked | invalidCredentials | emailVerificationRequired | invalidAccessToken
  | authenticationRequired | sessionRevoked | invalidRefreshToken => some authenticationError
  | refreshTokenReplay => some invalidRefreshToken
  | invalidVerificationCode | invalidUserIdentifier => some badRequestError
  | featureNotAvailable | sessionNotFound | userOrRoleNotFound | userNotFound | sourceNotFound
  | runNotFound | jobNotFound | matchNotFound | activePreferenceNotFound
  | notificationDeliveryNotFound => some notFoundError
  | unsupportedSourceKind => some invalidInputError

def depth : ErrorClass → Nat
  | appError => 0
  | badRequestError | invalidInputError | notFoundError | conflictError | authenticationError
  | permissionDenied | persistenceFailure => 1
  | refreshTokenReplay => 3
  | _ => 2

def code : ErrorClass → String
  | appError => "APPLICATION_ERROR"
  | badRequestError => "BAD_REQUEST"
  | invalidInputError => "INVALID_INPUT"
  | notFoundError => "RESOURCE_NOT_FOUND"
  | conflictError => "CONFLICT"
  | authenticationError => "AUTHENTICATION_FAILED"
  | permissionDenied => "PERMISSION_DENIED"
  | persistenceFailure => "DATABASE_ERROR"
  | databaseUnavailable => "DATABASE_UNAVAILABLE"
  | userAlreadyExists => "USER_ALREADY_EXISTS"
  | dataConflict => "DATA_CONFLICT"
  | accountLocked => "ACCOUNT_LOCKED"
  | invalidCredentials => "INVALID_CREDENTIALS"
  | emailVerificationRequired => "EMAIL_VERIFICATION_REQUIRED"
  | invalidAccessToken => "INVALID_ACCESS_TOKEN"
  | authenticationRequired => "AUTHENTICATION_REQUIRED"
  | sessionRevoked => "SESSION_REVOKED"
  | invalidRefreshToken => "INVALID_REFRESH_TOKEN"
  | refreshTokenReplay => "REFRESH_TOKEN_REPLAY"
  | invalidVerificationCode => "INVALID_VERIFICATION_CODE"
  | featureNotAvailable => "FEATURE_NOT_AVAILABLE"
  | sessionManagementDisabled => "SESSION_MANAGEMENT_DISABLED"
  | currentSessionUnavailable => "CURRENT_SESSION_UNAVAILABLE"
  | sessionNotFound => "SESSION_NOT_FOUND"
  | userOrRoleNotFound => "USER_OR_ROLE_NOT_FOUND"
  | userNotFound => "USER_NOT_FOUND"
  | sourceNotFound => "SOURCE_NOT_FOUND"
  | unsupportedSourceKind => "UNSUPPORTED_SOURCE_KIND"
  | ingestionAlreadyRunning => "INGESTION_ALREADY_RUNNING"
  | runNotFound => "RUN_NOT_FOUND"
  | jobNotFound => "JOB_NOT_FOUND"
  | matchNotFound => "MATCH_NOT_FOUND"
  | activePreferenceNotFound => "ACTIVE_PREFERENCES_NOT_FOUND"
  | notificationDeliveryNotFound => "NOTIFICATION_DELIVERY_NOT_FOUND"
  | invalidUserIdentifier => "INVALID_USER_ID"

def message : ErrorClass → String
  | appError => "An application error occurred"
  | badRequestError => "The request could not be processed"
  | invalidInputError => "The request contains invalid data"
  | notFoundError => "The requested resource was not found"
  | conflictError => "The request conflicts with the current state"
  | authenticationError => "Authentication failed"
  | permissionDenied => "You do not have permission to perform this action"
  | persistenceFailure => "A database operation failed"
  | databaseUnavailable => "The database is temporarily unavailable"
  | userAlreadyExists => "A user with this email already exists"
  | dataConflict => "A record with these values already exists"
  | accountLocked => "The account is temporarily locked"
  | invalidCredentials => "Invalid credentials"
  | emailVerificationRequired => "Email verification is required"
  | invalidAccessToken => "Invalid authentication token"
  | authenticationRequired => "Authentication is required"
  | sessionRevoked => "The session is no longer active"
  | invalidRefreshToken => "Invalid refresh token"
  | refreshTokenReplay => "Refresh token reuse was detected"
  | invalidVerificationCode => "The verification code is invalid or expired"
  | featureNotAvailable => "This feature is not enabled"
  | sessionManagementDisabled => "Session management is disabled"
  | currentSessionUnavailable => "The current session is unavailable"
  | sessionNotFound => "The session was not found"
  | userOrRoleNotFound => "The user or role was not found"
  | userNotFound => "The user was not found"
  | sourceNotFound => "The source was not found"
  | unsupportedSourceKind => "The configured source type is not supported"
  | ingestionAlreadyRunning => "An ingestion run is already in progress for this source"
  | runNotFound => "The ingestion run was not found"
  | jobNotFound => "The job was not found"
  | matchNotFound => "The match was not found"
  | activePreferenceNotFound => "No active preference profile was found"
  | notificationDeliveryNotFound => "The notification delivery was not found"
  | invalidUserIdentifier => "X-User-ID must be a UUID"

theorem depth_lt (c p : ErrorClass) (h : parent c = some p) : depth p < depth c := by
  cases c <;> cases h <;> decide

end ErrorClass

def errorClasses : Classes ErrorClass := ⟨ErrorClass.parent, ErrorClass.depth, ErrorClass.depth_lt⟩

/-- `value or default`, for texts. -/
def orText : Option Text → Text → Text
  | some (c :: t), _ => c :: t
  | _, default => default

structure AppError where
  cls : ErrorClass
  code : Text
  message : Text
  details : List Dict

def AppError.new (cls : ErrorClass) (code message : Option Text := none)
    (details : List Dict := []) : AppError where
  cls := cls
  code := orText code (text cls.code)
  message := orText message (text cls.message)
  details := details

inductive SqlAlchemyClass
  | integrityError
  | dbapiError
  | other
  deriving DecidableEq

/-- What is read of an exception of SQLAlchemy: its class, the attributes of the driver's
exception it wraps and the text of that exception. -/
structure SqlAlchemyError where
  cls : SqlAlchemyClass
  diagConstraintName : Option Text := none
  origConstraintName : Option Text := none
  sqlstate : Option Text := none
  pgcode : Option Text := none
  orig : Text := []
  connectionInvalidated : Bool := false

namespace SqlAlchemyError

variable (error : SqlAlchemyError)

/-- `a or b`, where both may be missing. -/
def either : Option Text → Option Text → Option Text
  | some (c :: t), _ => some (c :: t)
  | _, other => other

def constraintName : Option Text := either error.diagConstraintName error.origConstraintName

def sqlState : Option Text := either error.sqlstate error.pgcode

/-- The constraint, or the text of the driver, speaks of the address of a user. -/
def namesEmail (lower : Text → Text) : Bool :=
  (match error.constraintName with
    | none => false
    | some constraint =>
      (lower constraint).contains (text "user") && (lower constraint).contains (text "email")) ||
    (lower error.orig).contains (text "users.email")

def breaksUnique (lower : Text → Text) : Bool :=
  error.sqlState = some (text "23505") ||
    (lower error.orig).contains (text "unique constraint failed")

def losesConnection : Bool :=
  error.connectionInvalidated ||
    match error.sqlState with
    | none => false
    | some state => state.startsWith (text "08")

end SqlAlchemyError

/-- `translate_database_error`, by the class of the error it returns. An `IntegrityError` is a
`DBAPIError` as well. -/
def translateDatabaseError (lower : Text → Text) (error : SqlAlchemyError) : ErrorClass :=
  if error.cls = .integrityError ∧ error.namesEmail lower = true then .userAlreadyExists
  else if error.cls = .integrityError ∧ error.breaksUnique lower = true then .dataConflict
  else if error.cls ≠ .other ∧ error.losesConnection = true then .databaseUnavailable
  else .persistenceFailure

/-- Headers by name, in lower case as they are stored. -/
abbrev Headers := String → Option Text

def Headers.empty : Headers := fun _ => none

def Headers.set (headers : Headers) (name : String) (value : Text) : Headers :=
  Function.update headers name (some value)

structure ErrorDetail where
  code : Text
  message : Text
  details : Json
  requestId : Text

structure ResponseMeta where
  requestId : Text
  apiVersion : Text
  page : Option Nat
  pageSize : Option Nat
  total : Option Nat

/-- A body: one of the two envelopes, or what a route outside them sends. -/
inductive Body (β : Type)
  | error (error : ErrorDetail)
  | success (data : β) (info : ResponseMeta)
  | bare (content : β)
  | empty

structure Response (β : Type) where
  status : Nat
  headers : Headers := .empty
  body : Body β

variable {β : Type}

def Response.set (response : Response β) (name : String) (value : Text) : Response β :=
  { response with headers := response.headers.set name value }

/-- `JSONResponse` with `build_error_payload`. -/
def errorResponse (status : Nat) (code message requestId : Text) (details : List Json := [])
    (headers : Headers := .empty) : Response β where
  status := status
  headers := headers
  body := .error ⟨code, message, .arr details, requestId⟩

structure HttpException where
  status : Nat
  detail : Json
  headers : Headers := .empty

structure ValidationItem where
  type : Option Text
  loc : List Text
  ctx : Dict := []

inductive Raised
  | app (error : AppError)
  | validation (errors : List ValidationItem)
  | http (error : HttpException)
  | sqlAlchemy (error : SqlAlchemyError)
  | other (error : Text)

/-- `str.lower`, `str.capitalize` and `sha256(t.encode()).hexdigest()`, and `str` of a value. -/
structure HttpLibrary where
  lower : Text → Text
  capitalize : Text → Text
  sha256 : Text → Text
  str : Json → Text

def errorStatusCodes : List (ErrorClass × Nat) :=
  [(.databaseUnavailable, 503), (.invalidInputError, 422), (.badRequestError, 400),
    (.notFoundError, 404), (.conflictError, 409), (.authenticationError, 401),
    (.permissionDenied, 403), (.persistenceFailure, 500)]

def httpErrorCodes : List (Nat × String) :=
  [(400, "BAD_REQUEST"), (401, "UNAUTHORIZED"), (403, "FORBIDDEN"), (404, "NOT_FOUND"),
    (405, "METHOD_NOT_ALLOWED"), (409, "CONFLICT"), (422, "VALIDATION_ERROR"),
    (429, "RATE_LIMIT_EXCEEDED")]

def statusForAppError (error : AppError) : Nat :=
  (errorClasses.firstMatch errorStatusCodes error.cls).getD 500

def isMappedAppError (error : AppError) : Bool :=
  errorStatusCodes.any fun entry => errorClasses.isInstance error.cls entry.1

def bearerChallengeErrors : List ErrorClass :=
  [.authenticationRequired, .invalidAccessToken, .sessionRevoked]

def unexpectedErrorHandler (requestId : Text) : Response β :=
  errorResponse 500 (text "INTERNAL_SERVER_ERROR") (text "An unexpected error occurred") requestId

def appErrorHandler (requestId : Text) (error : AppError) : Response β :=
  if isMappedAppError error then
    errorResponse (statusForAppError error) error.code error.message requestId
      (error.details.map .obj)
      (if bearerChallengeErrors.any (errorClasses.isInstance error.cls) then
        Headers.empty.set "www-authenticate" (text "Bearer") else .empty)
  else unexpectedErrorHandler requestId

namespace ValidationItem

variable (lib : HttpLibrary) (item : ValidationItem)

/-- `".".join(...) or "request"`. -/
def field : Text :=
  orText (some ((item.loc.drop 1).intersperse (text ".")).flatten) (text "request")

def message : Text :=
  let label := lib.capitalize (item.field.map fun c => if c = 95 then 32 else c)
  let bound := fun key => lib.str (Dict.getD item.ctx key .null)
  let code := item.type.getD []
  if code = text "missing" then label ++ text " is required"
  else if code = text "string_too_short" then
    label ++ text " must be at least " ++ bound "min_length" ++ text " characters"
  else if code = text "string_too_long" then
    label ++ text " must be at most " ++ bound "max_length" ++ text " characters"
  else if code = text "value_error.email" then label ++ text " must be a valid email address"
  else label ++ text " is invalid"

def detail : Json :=
  .obj [(text "field", .str item.field),
    (text "location", .str (item.loc.headD (text "request"))),
    (text "code", .str (item.type.getD (text "validation_error"))),
    (text "message", .str (item.message lib))]

end ValidationItem

def requestValidationErrorHandler (lib : HttpLibrary) (requestId : Text)
    (errors : List ValidationItem) : Response β :=
  errorResponse 422 (text "VALIDATION_ERROR") (text "The request contains invalid data") requestId
    (errors.map (·.detail lib))

def httpExceptionHandler (requestId : Text) (error : HttpException) : Response β :=
  let code := (httpErrorCodes.lookup error.status).getD "HTTP_ERROR"
  let message := error.detail.asStr.getD (text "The request could not be processed")
  if 500 ≤ error.status then
    errorResponse error.status (text "INTERNAL_SERVER_ERROR")
      (text "An unexpected error occurred") requestId [] error.headers
  else errorResponse error.status (text code) message requestId [] error.headers

/-- The handler that is registered for what was raised, if it is not the one for `Exception`. -/
def handlerFor (lib : HttpLibrary) (requestId : Text) : Raised → Option (Response β)
  | .app error => some (appErrorHandler requestId error)
  | .validation errors => some (requestValidationErrorHandler lib requestId errors)
  | .http error => some (httpExceptionHandler requestId error)
  | .sqlAlchemy _ | .other _ => none

/-- The session of a request translates what the database raises, and rolls back first. -/
def sessionScope (lib : HttpLibrary) : Raised → Raised
  | .sqlAlchemy error => .app (.new (translateDatabaseError lib.lower error))
  | raised => raised

end Http

end JobRadar
