import JobRadar.AuthModel
import JobRadar.Columns
import JobRadar.Interleave
import JobRadar.Paging

namespace JobRadar

open Database Interleave Python

structure AuditEvent where
  id : Uuid
  actorUserId : Option Uuid := none
  action : Text
  resourceType : Text
  resourceId : Option Text := none
  success : Bool := true
  ipAddress : Option Text := none
  userAgent : Option Text := none
  requestId : Option Text := none
  eventMetadata : Dict := []
  createdAt : Time

namespace AuditEvent

def stored (event : AuditEvent) : Option AuditEvent := do
  let action ← varcharColumn 128 event.action
  let resourceType ← varcharColumn 64 event.resourceType
  let resourceId ← nullable (varcharColumn 128) event.resourceId
  let ipAddress ← nullable (varcharColumn 64) event.ipAddress
  let userAgent ← nullable (varcharColumn 512) event.userAgent
  let requestId ← nullable (varcharColumn 128) event.requestId
  if jsonFields event.eventMetadata then
    return { event with
      action := action, resourceType := resourceType, resourceId := resourceId
      ipAddress := ipAddress, userAgent := userAgent, requestId := requestId }
  else none

theorem stored_createdAt {event row : AuditEvent} (h : event.stored = some row) :
    row.createdAt = event.createdAt := by
  simp only [stored, Option.bind_eq_bind, Option.bind_eq_some_iff] at h
  obtain ⟨action, -, resourceType, -, resourceId, -, ipAddress, -, userAgent, -, requestId, -, h⟩ :=
    h
  split at h
  next =>
    cases h
    rfl
  next => cases h

/-- `ORDER BY created_at DESC, id DESC`. -/
def ListedBefore (a b : AuditEvent) : Prop :=
  b.createdAt < a.createdAt ∨ a.createdAt = b.createdAt ∧ b.id ≤ a.id

instance : DecidableRel ListedBefore := fun _ _ => inferInstanceAs (Decidable (_ ∨ _))

end AuditEvent

structure AuditFilters where
  actorUserId : Option Uuid := none
  action : Option Text := none
  resourceType : Option Text := none
  resourceId : Option Text := none
  success : Option Bool := none
  createdAfter : Option Time := none
  createdBefore : Option Time := none

/-- The conditions of `_query`. An empty text is no condition. -/
def AuditFilters.admits (f : AuditFilters) (event : AuditEvent) : Bool :=
  f.actorUserId.all (fun actorUserId => event.actorUserId = some actorUserId) &&
  f.action.all (fun action => action.isEmpty || event.action = action) &&
  f.resourceType.all (fun resourceType =>
    resourceType.isEmpty || event.resourceType = resourceType) &&
  f.resourceId.all (fun resourceId =>
    resourceId.isEmpty || event.resourceId = some resourceId) &&
  f.success.all (fun success => event.success = success) &&
  f.createdAfter.all (fun createdAfter => createdAfter ≤ event.createdAt) &&
  f.createdBefore.all fun createdBefore => event.createdAt ≤ createdBefore

/-- `audit-….jsonl` with the date of the cutoff, in the directory of the archive. -/
structure ArchivePath where
  archiveDir : Text
  date : Nat
  deriving DecidableEq

/-- The object that a line of an archive file holds. -/
structure ArchiveLine where
  id : Uuid
  actorUserId : Option Uuid
  action : Text
  resourceType : Text
  resourceId : Option Text
  success : Bool
  ipAddress : Option Text
  userAgent : Option Text
  requestId : Option Text
  metadata : Dict
  createdAt : Time

def AuditEvent.line (event : AuditEvent) : ArchiveLine where
  id := event.id
  actorUserId := event.actorUserId
  action := event.action
  resourceType := event.resourceType
  resourceId := event.resourceId
  success := event.success
  ipAddress := event.ipAddress
  userAgent := event.userAgent
  requestId := event.requestId
  metadata := event.eventMetadata
  createdAt := event.createdAt

theorem AuditEvent.line_injective : Function.Injective AuditEvent.line := by
  intro a b h
  cases a
  cases b
  cases h
  rfl

/-- The committed events, the complete lines of the archive files in the order they were written,
and the time. -/
structure AuditStore where
  events : Table AuditEvent.id
  archive : List (ArchivePath × ArchiveLine) := []
  now : Time

namespace AuditStore

variable (s : AuditStore)

def wait (elapsed : Nat) : AuditStore := { s with now := s.now + elapsed }

def query (f : AuditFilters) : List AuditEvent := s.events.rows.filter f.admits

def search (f : AuditFilters) (page pageSize : Nat) : List AuditEvent :=
  Paging.page pageSize page ((s.query f).insertionSort AuditEvent.ListedBefore)

def count (f : AuditFilters) : Nat := (s.query f).length

def before (cutoff : Time) : List AuditEvent :=
  (s.events.rows.filter fun event => event.createdAt < cutoff).insertionSort
    fun a b => a.createdAt ≤ b.createdAt

def deleteBefore (cutoff : Time) : AuditStore :=
  { s with events := s.events.deleteWhere fun event => event.createdAt < cutoff }

/-- One line for each event, and the file closed. -/
def append (path : ArchivePath) (events : List AuditEvent) : AuditStore :=
  { s with archive := s.archive ++ events.map fun event => (path, event.line) }

def Archived (event : AuditEvent) : Prop := ∃ path, (path, event.line) ∈ s.archive

end AuditStore

inductive AuditError
  | dataConflict
  | databaseUnavailable
  | persistenceFailure
  | overflowError
  | osError
  deriving DecidableEq

inductive AuditOutcome
  | done
  | fails (error : AuditError)
  | crash
  deriving DecidableEq

/-- The time that passes before a step, and whether it is carried out. -/
structure AuditAnswer where
  elapsed : Nat := 0
  outcome : AuditOutcome := .done

structure RetentionReport where
  cutoff : Time
  archived : Nat
  deleted : Nat
  archivePath : Option ArchivePath
  deriving DecidableEq

inductive RetentionPhase
  | start
  | reading (cutoff : Time)
  | archiving (cutoff : Time) (events : List AuditEvent)
  | deleting (cutoff : Time) (archived : Nat) (archivePath : Option ArchivePath)
  | returned (report : RetentionReport)
  | raised (error : AuditError)
  | crashed

structure RetentionThread where
  retentionDays : Nat
  archiveEnabled : Bool
  archiveDir : Text
  phase : RetentionPhase := .start

def RetentionThread.at (t : RetentionThread) (phase : RetentionPhase) : RetentionThread :=
  { t with phase := phase }

/-- `apply_retention`, step by step. Each statement sees what is committed when it runs. -/
def retentionStep : Atomic AuditAnswer AuditStore RetentionThread := fun answer s t =>
  let s := s.wait answer.elapsed
  match t.phase, answer.outcome with
  | .returned _, _ | .raised _, _ | .crashed, _ => none
  | _, .crash => some (s, t.at .crashed)
  | _, .fails error => some (s, t.at (.raised error))
  | .start, .done =>
    if s.now < timedeltaDays t.retentionDays then some (s, t.at (.raised .overflowError))
    else some (s, t.at (.reading (s.now - timedeltaDays t.retentionDays)))
  | .reading cutoff, .done => some (s, t.at (.archiving cutoff (s.before cutoff)))
  | .archiving cutoff events, .done =>
    if t.archiveEnabled = true ∧ events ≠ [] then
      let path : ArchivePath := ⟨t.archiveDir, cutoff / timedeltaDays 1⟩
      some (s.append path events, t.at (.deleting cutoff events.length (some path)))
    else some (s, t.at (.deleting cutoff (if t.archiveEnabled then events.length else 0) none))
  | .deleting cutoff archived path, .done =>
    some (s.deleteBefore cutoff,
      t.at (.returned ⟨cutoff, archived, (s.before cutoff).length, path⟩))

/-- The arguments of `record`, with the resource id as text. -/
structure AuditRecord where
  action : Text
  resourceType : Text
  resourceId : Option Text := none
  actorUserId : Option Uuid := none
  success : Bool := true
  ipAddress : Option Text := none
  userAgent : Option Text := none
  requestId : Option Text := none
  metadata : Option Dict := none

def AuditRecord.event (call : AuditRecord) (eventId : Uuid) (now : Time) : AuditEvent where
  id := eventId
  actorUserId := call.actorUserId
  action := call.action
  resourceType := call.resourceType
  resourceId := call.resourceId
  success := call.success
  ipAddress := call.ipAddress
  userAgent := call.userAgent
  requestId := call.requestId
  eventMetadata := call.metadata.getD []
  createdAt := now

def userCreated : AuditRecord where
  action := text "user.created"
  resourceType := text "user"

inductive RecordPhase
  | start
  | committing (event : AuditEvent)
  | returned (event : AuditEvent)
  | raised (error : AuditError)
  | crashed

structure RecordThread where
  eventId : Uuid
  call : AuditRecord
  phase : RecordPhase := .start

def RecordThread.at (t : RecordThread) (phase : RecordPhase) : RecordThread :=
  { t with phase := phase }

/-- `record`: the transaction begins, and the insert is committed. -/
def recordStep : Atomic AuditAnswer AuditStore RecordThread := fun answer s t =>
  let s := s.wait answer.elapsed
  match t.phase, answer.outcome with
  | .returned _, _ | .raised _, _ | .crashed, _ => none
  | _, .crash => some (s, t.at .crashed)
  | _, .fails error => some (s, t.at (.raised error))
  | .start, .done => some (s, t.at (.committing (t.call.event t.eventId s.now)))
  | .committing event, .done =>
    match event.stored with
    | none => some (s, t.at (.raised .persistenceFailure))
    | some row =>
      match s.events.insert row with
      | none => some (s, t.at (.raised .dataConflict))
      | some events => some ({ s with events := events }, t.at (.returned row))

inductive SearchPhase
  | requesting (page : Nat)
  | counting (page : Nat) (events : List AuditEvent)
  | ended
  | raised (error : AuditError)
  | crashed

/-- An admin who requests one page after another, and the events and totals of the pages so far. -/
structure SearchThread where
  filters : AuditFilters
  pageSize : Nat
  phase : SearchPhase := .requesting 1
  pages : List (List AuditEvent × Nat) := []

/-- `search`, from page 1 to the first page with fewer than `page_size` events. -/
def searchStep : Atomic AuditAnswer AuditStore SearchThread := fun answer s t =>
  let s := s.wait answer.elapsed
  match t.phase, answer.outcome with
  | .ended, _ | .raised _, _ | .crashed, _ => none
  | _, .crash => some (s, { t with phase := .crashed })
  | _, .fails error => some (s, { t with phase := .raised error })
  | .requesting page, .done =>
    some (s, { t with phase := .counting page (s.search t.filters page t.pageSize) })
  | .counting page events, .done =>
    some (s, { t with
      pages := t.pages ++ [(events, s.count t.filters)]
      phase := if events.length < t.pageSize then .ended else .requesting (page + 1) })

abbrev AuditThread := RetentionThread ⊕ (RecordThread ⊕ SearchThread)

def auditStep : Atomic AuditAnswer AuditStore AuditThread :=
  retentionStep.either (recordStep.either searchStep)

abbrev AuditPool (ι : Type) := Pool ι AuditStore AuditThread

abbrev AuditRunEvent (ι : Type) := Event ι AuditAnswer AuditStore AuditThread

section Steps

variable {answer : AuditAnswer} {s s' : AuditStore}

theorem retentionStep_cases {t t' : RetentionThread}
    (hs : retentionStep answer s t = some (s', t')) :
    (s' = s.wait answer.elapsed ∧ (t' = t.at .crashed ∨ ∃ error, t' = t.at (.raised error))) ∨
    (t.phase = .start ∧ timedeltaDays t.retentionDays ≤ s.now + answer.elapsed ∧
      s' = s.wait answer.elapsed ∧
      t' = t.at (.reading (s.now + answer.elapsed - timedeltaDays t.retentionDays))) ∨
    (∃ cutoff, t.phase = .reading cutoff ∧ s' = s.wait answer.elapsed ∧
      t' = t.at (.archiving cutoff (s.before cutoff))) ∨
    (∃ cutoff events archived path, t.phase = .archiving cutoff events ∧
      s' = (s.wait answer.elapsed).append ⟨t.archiveDir, cutoff / timedeltaDays 1⟩
        (if t.archiveEnabled then events else []) ∧
      t' = t.at (.deleting cutoff archived path)) ∨
    ∃ cutoff archived path report, t.phase = .deleting cutoff archived path ∧
      s' = (s.wait answer.elapsed).deleteBefore cutoff ∧ t' = t.at (.returned report) := by
  unfold retentionStep at hs
  dsimp only at hs
  split at hs
  next => cases hs
  next => cases hs
  next => cases hs
  next =>
    cases hs
    exact Or.inl ⟨rfl, Or.inl rfl⟩
  next =>
    cases hs
    exact Or.inl ⟨rfl, Or.inr ⟨_, rfl⟩⟩
  next hstart _ =>
    split at hs
    next =>
      cases hs
      exact Or.inl ⟨rfl, Or.inr ⟨_, rfl⟩⟩
    next hlate =>
      cases hs
      exact Or.inr (Or.inl ⟨hstart, Nat.le_of_not_lt hlate, rfl, rfl⟩)
  next cutoff hreading _ =>
    cases hs
    exact Or.inr (Or.inr (Or.inl ⟨cutoff, hreading, rfl, rfl⟩))
  next cutoff events harchiving _ =>
    refine Or.inr (Or.inr (Or.inr (Or.inl ?_)))
    split at hs
    next hwrites =>
      cases hs
      refine ⟨cutoff, events, _, _, harchiving, ?_, rfl⟩
      rw [if_pos hwrites.1]
    next hnone =>
      cases hs
      refine ⟨cutoff, events, _, _, harchiving, ?_, rfl⟩
      have hempty : (if t.archiveEnabled = true then events else []) = [] := by
        split
        next henabled =>
          by_contra hsome
          exact hnone ⟨henabled, hsome⟩
        next => rfl
      rw [hempty]
      simp [AuditStore.append, AuditStore.wait]
  next cutoff archived path hdeleting _ =>
    cases hs
    exact Or.inr (Or.inr (Or.inr (Or.inr ⟨cutoff, archived, path, _, hdeleting, rfl, rfl⟩)))

theorem recordStep_cases {t t' : RecordThread} (hs : recordStep answer s t = some (s', t')) :
    s' = s.wait answer.elapsed ∨
    ∃ event row events, t.phase = .committing event ∧ answer.outcome = .done ∧
      event.stored = some row ∧ s.events.insert row = some events ∧
      s' = { s.wait answer.elapsed with events := events } := by
  unfold recordStep at hs
  dsimp only at hs
  split at hs
  next => cases hs
  next => cases hs
  next => cases hs
  next =>
    cases hs
    exact Or.inl rfl
  next =>
    cases hs
    exact Or.inl rfl
  next =>
    cases hs
    exact Or.inl rfl
  next event hcommitting hdone =>
    split at hs
    next =>
      cases hs
      exact Or.inl rfl
    next row hstored =>
      split at hs
      next =>
        cases hs
        exact Or.inl rfl
      next events hinsert =>
        cases hs
        exact Or.inr ⟨event, row, events, hcommitting, hdone, hstored, hinsert, rfl⟩

theorem searchStep_store {t t' : SearchThread} (hs : searchStep answer s t = some (s', t')) :
    s' = s.wait answer.elapsed := by
  unfold searchStep at hs
  dsimp only at hs
  split at hs
  next => cases hs
  next => cases hs
  next => cases hs
  next =>
    cases hs
    rfl
  next =>
    cases hs
    rfl
  next =>
    cases hs
    rfl
  next =>
    cases hs
    rfl

theorem auditStep_store {t t' : AuditThread} (hs : auditStep answer s t = some (s', t')) :
    (s'.events = s.events ∧ s'.archive = s.archive) ∨
    (∃ r cutoff events path, t = .inl r ∧ r.phase = .archiving cutoff events ∧
      s'.events = s.events ∧
      s' = (s.wait answer.elapsed).append path (if r.archiveEnabled then events else [])) ∨
    (∃ r cutoff archived path, t = .inl r ∧ r.phase = .deleting cutoff archived path ∧
      s' = (s.wait answer.elapsed).deleteBefore cutoff) ∨
    ∃ r event row events, t = .inr (.inl r) ∧ r.phase = .committing event ∧
      answer.outcome = .done ∧ event.stored = some row ∧ s.events.insert row = some events ∧
      s' = { s.wait answer.elapsed with events := events } := by
  rcases Atomic.either_cases hs with ⟨r, _, r', rfl, he, hr⟩ | ⟨r, _, r', rfl, he, hr⟩
  · cases he
    rcases retentionStep_cases hr with ⟨rfl, _⟩ | ⟨_, _, rfl, _⟩ | ⟨_, _, rfl, _⟩ |
      ⟨cutoff, events, archived, path, hphase, rfl, _⟩ | ⟨cutoff, archived, path, _, hphase, rfl, _⟩
    · exact Or.inl ⟨rfl, rfl⟩
    · exact Or.inl ⟨rfl, rfl⟩
    · exact Or.inl ⟨rfl, rfl⟩
    · exact Or.inr (Or.inl ⟨r, cutoff, events, _, rfl, hphase, rfl, rfl⟩)
    · exact Or.inr (Or.inr (Or.inl ⟨r, cutoff, archived, path, rfl, hphase, rfl⟩))
  · cases he
    rcases Atomic.either_cases hr with ⟨q, _, q', rfl, he, hq⟩ | ⟨q, _, q', rfl, he, hq⟩
    · cases he
      rcases recordStep_cases hq with rfl | ⟨event, row, events, hphase, hdone, hrow, hinsert, rfl⟩
      · exact Or.inl ⟨rfl, rfl⟩
      · exact Or.inr (Or.inr (Or.inr
          ⟨q, event, row, events, rfl, hphase, hdone, hrow, hinsert, rfl⟩))
    · cases he
      obtain rfl := searchStep_store hq
      exact Or.inl ⟨rfl, rfl⟩

theorem auditStep_reader {t : SearchThread} {t' : AuditThread}
    (hs : auditStep answer s (.inr (.inr t)) = some (s', t')) :
    ∃ q, t' = .inr (.inr q) ∧ searchStep answer s t = some (s', q) := by
  rcases Atomic.either_cases hs with ⟨_, _, _, he, _⟩ | ⟨_, _, u, he, hu, hr⟩
  · cases he
  · cases he
    rcases Atomic.either_cases hr with ⟨_, _, _, he, _⟩ | ⟨_, _, q, he, hq, hsearch⟩
    · cases he
    · cases he
      cases hu
      cases hq
      exact ⟨q, rfl, hsearch⟩

theorem auditStep_now {t t' : AuditThread} (hs : auditStep answer s t = some (s', t')) :
    s'.now = s.now + answer.elapsed := by
  rcases Atomic.either_cases hs with ⟨r, _, r', rfl, he, hr⟩ | ⟨r, _, r', rfl, he, hr⟩
  · cases he
    rcases retentionStep_cases hr with ⟨rfl, _⟩ | ⟨_, _, rfl, _⟩ | ⟨_, _, rfl, _⟩ |
      ⟨_, _, _, _, _, rfl, _⟩ | ⟨_, _, _, _, _, rfl, _⟩ <;> rfl
  · cases he
    rcases Atomic.either_cases hr with ⟨q, _, q', rfl, he, hq⟩ | ⟨q, _, q', rfl, he, hq⟩
    · cases he
      rcases recordStep_cases hq with rfl | ⟨_, _, _, _, _, _, _, rfl⟩ <;> rfl
    · cases he
      obtain rfl := searchStep_store hq
      rfl

end Steps

end JobRadar
