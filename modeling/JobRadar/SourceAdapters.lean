import JobRadar.JobModel

namespace JobRadar

open Database Python

inductive PyError
  | adapterError (message : Text) (retryable : Bool)
  | invalidJson
  | clientError
  | keyError
  | typeError
  | attributeError
  | overflowError
  | unicodeEncodeError
  | runtimeError
  | storeError (error : StoreError)
  deriving DecidableEq

/-- What comes of a GET request. The body is `none` where `response.json()` raises. -/
inductive HttpReply
  | requestError
  | otherError
  | response (status : Nat) (retryAfter : Option Text) (body : Option Json)

/-- The client of one fetch, with its answer to each URL. -/
abbrev AsyncClient := Text → HttpReply

/-- The integers from which on the conversion to a float overflows. -/
def floatLimit : Int := Int.pow 2 1024 - Int.pow 2 970

/-- `RateLimiter(interval).wait()`. A number may be awaited; the wait itself takes no step. -/
def wait : Json → Except PyError Unit
  | .int n => if floatLimit ≤ n then .error .overflowError else .ok ()
  | .bool _ => .ok ()
  | .float _ => .ok ()
  | _ => .error .typeError

def retrySuffix : Option Text → Text
  | some retryAfter =>
    if retryAfter.isEmpty then [] else text "; retry-after=" ++ retryAfter
  | none => []

def sourceReturned (status : Nat) : Text := text "source returned HTTP " ++ text (toString status)

def getJson (client : AsyncClient) (url : Text) (interval : Json) : Except PyError Json := do
  wait interval
  match client url with
  | .requestError => .error (.adapterError (text "source request failed") true)
  | .otherError => .error .clientError
  | .response status retryAfter body =>
    if status = 429 ∨ 500 ≤ status then
      .error (.adapterError (sourceReturned status ++ retrySuffix retryAfter) true)
    else if 400 ≤ status then .error (.adapterError (sourceReturned status) false)
    else match body with
      | some payload => .ok payload
      | none => .error .invalidJson

/-- The provider's values as they come; `str` is taken of the id alone. -/
structure RawJobRecord where
  externalId : Text
  title : Json
  description : Json
  applicationUrl : Json
  location : Json
  rawPayload : Json

/-- One run of `collect`: the records it appended to `fetched`, the adapter's `malformed_count`,
and how it ended. -/
structure Attempt where
  records : List RawJobRecord := []
  malformedCount : Nat := 0
  ended : Except PyError Unit := .ok ()

namespace Attempt

def raised (error : PyError) : Attempt := { ended := .error error }

/-- The fetch goes on with `rest` unless it was cut short. -/
def andThen (a rest : Attempt) : Attempt :=
  match a.ended with
  | .error _ => a
  | .ok () => ⟨a.records ++ rest.records, a.malformedCount + rest.malformedCount, rest.ended⟩

/-- Another attempt. What was fetched is kept, and the adapter counts anew. -/
def retried (a again : Attempt) : Attempt := { again with records := a.records ++ again.records }

end Attempt

/-- `with_retries`, from attempt `attempt` on with `left` of them to come. -/
def withRetries (operation : Nat → Attempt) : (attempt left : Nat) → Attempt
  | _, 0 => .raised .runtimeError
  | attempt, left + 1 =>
    match (operation attempt).ended with
    | .error (.adapterError _ true) =>
      if left = 0 then operation attempt
      else (operation attempt).retried (withRetries operation (attempt + 1) left)
    | _ => operation attempt

/-- What tells the two adapters apart: the key of the board or account, the address of its
postings and of their pages, where a payload has its list, and how an item of it is read. -/
structure SourceAdapter where
  key : String
  url : Text → Text
  pageUrl : Text → Nat → Text
  listing : Json → Except PyError Json
  record : Json → Except PyError (Option RawJobRecord)

/-- The values `for item in value` runs through. -/
def iterate : Json → Except PyError (List Json)
  | .arr items => .ok items
  | .str t => .ok (t.map fun c => .str [c])
  | .obj fields => .ok (fields.map fun field => .str field.1)
  | _ => .error .typeError

/-- The number of rounds of `range(pages)`. -/
def pageCount : Json → Except PyError Nat
  | .int n => .ok n.toNat
  | .bool b => .ok b.toNat
  | _ => .error .typeError

/-- What `fetch` reads from the config before its first request. -/
structure FetchPlan where
  url : Json
  pages : Nat
  interval : Json

namespace SourceAdapter

variable (a : SourceAdapter)

def plan (lib : Stdlib) (config : Dict) : Except PyError FetchPlan :=
  match Dict.get config a.key with
  | none => .error .keyError
  | some name =>
    match pageCount (Dict.getD config "max_pages" (.int 1)) with
    | .error e => .error e
    | .ok pages =>
      .ok { url := Dict.getD config "url" (.str (a.url (lib.str name)))
            pages := pages
            interval := Dict.getD config "rate_limit_seconds" (.float (text "0.0")) }

/-- The items of a page: a record, a malformed one, or an exception that is not caught. -/
def readItems : List Json → Attempt
  | [] => {}
  | item :: items =>
    match a.record item with
    | .error e => .raised e
    | .ok none => Attempt.andThen { malformedCount := 1 } (readItems items)
    | .ok (some record) => Attempt.andThen { records := [record] } (readItems items)

/-- The list on page `page`. -/
def getListing (plan : FetchPlan) (client : AsyncClient) (page : Nat) : Except PyError Json :=
  match plan.url with
  | .str url => do
    let payload ← getJson client (a.pageUrl url page) plan.interval
    a.listing payload
  | _ => .error .typeError

/-- A page with an empty listing ends the pages. -/
def fetchPages (plan : FetchPlan) (client : AsyncClient) : (page left : Nat) → Attempt
  | _, 0 => {}
  | page, left + 1 =>
    match a.getListing plan client page with
    | .error e => .raised e
    | .ok listing =>
      if !listing.truthy then {}
      else match iterate listing with
        | .error e => .raised e
        | .ok items => (a.readItems items).andThen (fetchPages plan client (page + 1) left)

def fetch (lib : Stdlib) (config : Dict) (client : AsyncClient) : Attempt :=
  match a.plan lib config with
  | .error e => .raised e
  | .ok plan => a.fetchPages plan client 0 plan.pages

end SourceAdapter

/-- An item that is missing its id or its title is counted as malformed. -/
def withIdAndTitle (id title : Option Json)
    (record : Json → Json → Except PyError RawJobRecord) :
    Except PyError (Option RawJobRecord) :=
  match id, title with
  | some id, some title => (record id title).map some
  | _, _ => .ok none

/-- `value.get(key)` on any value. -/
def getItem (value : Json) (key : String) : Except PyError Json :=
  match value with
  | .obj fields => .ok (Dict.getD fields key .null)
  | _ => .error .attributeError

namespace GreenhouseAdapter

def record (lib : Stdlib) : Json → Except PyError (Option RawJobRecord)
  | .obj job => do
    let location ← getItem ((Dict.getD job "location" .null).orElse (.obj [])) "name"
    withIdAndTitle (Dict.get job "id") (Dict.get job "title") fun id title => return {
      externalId := lib.str id
      title := title
      description := Dict.getD job "content" (.str [])
      applicationUrl := Dict.getD job "absolute_url" (.str [])
      location := location
      rawPayload := .obj job }
  | _ => .error .attributeError

def listing : Json → Except PyError Json
  | .obj payload => .ok (Dict.getD payload "jobs" (.arr []))
  | _ => .error .attributeError

end GreenhouseAdapter

def greenhouseAdapter (lib : Stdlib) : SourceAdapter where
  key := "board"
  url board := text "https://boards-api.greenhouse.io/v1/boards/" ++ board ++ text "/jobs"
  pageUrl url page := url ++ text "?page=" ++ text (toString (page + 1))
  listing := GreenhouseAdapter.listing
  record := GreenhouseAdapter.record lib

namespace LeverAdapter

def record (lib : Stdlib) : Json → Except PyError (Option RawJobRecord)
  | .obj job =>
    withIdAndTitle (Dict.get job "id") (Dict.get job "text") fun id title => do
      let location ← getItem (Dict.getD job "categories" (.obj [])) "location"
      return {
        externalId := lib.str id
        title := title
        description := Dict.getD job "descriptionPlain" (Dict.getD job "description" (.str []))
        applicationUrl := Dict.getD job "hostedUrl" (.str [])
        location := location
        rawPayload := .obj job }
  | _ => .error .attributeError

end LeverAdapter

def leverAdapter (lib : Stdlib) : SourceAdapter where
  key := "account"
  url account := text "https://api.lever.co/v0/postings/" ++ account ++ text "?mode=json"
  pageUrl url page := url ++ text "&page=" ++ text (toString page)
  listing payload := .ok payload
  record := LeverAdapter.record lib

/-- The two kinds of source, as the service registers them. -/
inductive SourceKind
  | greenhouse
  | lever

namespace SourceKind

def ofName : String → Option SourceKind
  | "greenhouse" => some greenhouse
  | "lever" => some lever
  | _ => none

def adapter (lib : Stdlib) : SourceKind → SourceAdapter
  | greenhouse => greenhouseAdapter lib
  | lever => leverAdapter lib

end SourceKind

end JobRadar
