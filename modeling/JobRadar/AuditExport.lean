import JobRadar.AuditModel
import JobRadar.RunEnds

namespace JobRadar

open Database Paging Python

structure AuditEventResponse where
  id : Uuid
  actorUserId : Option Uuid
  action : Text
  resourceType : Text
  resourceId : Option Text
  success : Bool
  ipAddress : Option Text
  userAgent : Option Text
  requestId : Option Text
  metadata : Dict
  createdAt : Time

/-- How `model_dump(mode="json")` writes an id and a time. -/
structure JsonMode where
  uuid : Uuid → Text
  datetime : Time → Text

namespace AuditEventResponse

def fromModel (event : AuditEvent) : AuditEventResponse where
  id := event.id
  actorUserId := event.actorUserId
  action := event.action
  resourceType := event.resourceType
  resourceId := event.resourceId
  success := event.success
  ipAddress := event.ipAddress
  userAgent := event.userAgent
  requestId := event.requestId
  metadata := event.eventMetadata
  createdAt := event.createdAt

def modelDump (w : JsonMode) (r : AuditEventResponse) : Dict :=
  let optional (t : Option Text) : Json := (t.map .str).getD .null
  [(text "id", .str (w.uuid r.id)),
   (text "actor_user_id", optional (r.actorUserId.map w.uuid)),
   (text "action", .str r.action),
   (text "resource_type", .str r.resourceType),
   (text "resource_id", optional r.resourceId),
   (text "success", .bool r.success),
   (text "ip_address", optional r.ipAddress),
   (text "user_agent", optional r.userAgent),
   (text "request_id", optional r.requestId),
   (text "metadata", .obj r.metadata),
   (text "created_at", .str (w.datetime r.createdAt))]

theorem modelDump_keys (w : JsonMode) (r r' : AuditEventResponse) :
    (r.modelDump w).map Prod.fst = (r'.modelDump w).map Prod.fst := rfl

end AuditEventResponse

inductive ExportFormat
  | json
  | csv
  deriving DecidableEq

/-- The array given to `json.dumps`, or the header and the cells of each record. -/
inductive ExportFile
  | json (rows : List Dict)
  | csv (fieldnames : List Text) (records : List (List Text))

namespace ExportFile

def rowCount : ExportFile → Nat
  | .json rows => rows.length
  | .csv _ records => records.length

end ExportFile

/-- A cell as the `csv` module writes it, before any quoting. -/
def csvCell (lib : Stdlib) : Json → Text
  | .null => []
  | value => lib.str value

/-- `DictWriter.writerow`: a field the row lacks is left empty. -/
def csvRecord (lib : Stdlib) (fieldnames : List Text) (row : Dict) : List Text :=
  fieldnames.map fun key => ((row.lookup key).map (csvCell lib)).getD []

def streamCsv (lib : Stdlib) (rows : List Dict) : ExportFile :=
  let fieldnames := match rows with
    | [] => [text "id", text "action", text "success", text "created_at"]
    | row :: _ => row.map Prod.fst
  .csv fieldnames (rows.map (csvRecord lib fieldnames))

/-- The file that the rows are written to. -/
def exportFile (lib : Stdlib) (format : ExportFormat) (rows : List Dict) : ExportFile :=
  match format with
  | .csv => streamCsv lib rows
  | .json => .json rows

theorem rowCount_exportFile (lib : Stdlib) (format : ExportFormat) (rows : List Dict) :
    (exportFile lib format rows).rowCount = rows.length := by
  cases format with
  | json => rfl
  | csv => exact List.length_map _

namespace AuditStore

variable (s : AuditStore) (f : AuditFilters)

/-- `search_audit_events`: the events of the page, and the total. -/
def searchAuditEvents (page pageSize : Nat) : List AuditEventResponse × Nat :=
  ((s.search f page pageSize).map AuditEventResponse.fromModel, s.count f)

/-- `AuditService.export`, whose caller leaves `page_size` at its default. -/
def exportEvents : List AuditEvent := s.search f 1 1000

def exportAuditEvents (lib : Stdlib) (w : JsonMode) (format : ExportFormat) : ExportFile :=
  exportFile lib format
    ((s.exportEvents f).map fun event => (AuditEventResponse.fromModel event).modelDump w)

/-- The events of all pages, one page after another. -/
def searchPages (pageSize : Nat) : List AuditEventResponse :=
  (List.range' 1 (Paging.pageCount pageSize (s.searchAuditEvents f 1 pageSize).2)).flatMap
    fun page => (s.searchAuditEvents f page pageSize).1

variable {s f} {lib : Stdlib} {w : JsonMode} {format : ExportFormat} {pageSize : Nat}

theorem searchPages_eq (hsize : 0 < pageSize) : s.searchPages f pageSize =
    ((s.query f).insertionSort AuditEvent.ListedBefore).map AuditEventResponse.fromModel := by
  have hcount : (s.searchAuditEvents f 1 pageSize).2 =
      ((s.query f).insertionSort AuditEvent.ListedBefore).length :=
    (List.length_insertionSort _ _).symm
  have hpages := flatMap_pages hsize ((s.query f).insertionSort AuditEvent.ListedBefore)
  unfold searchPages
  rw [hcount]
  conv_rhs => rw [← hpages, List.map_flatMap]
  rfl

theorem length_searchPages (hsize : 0 < pageSize) :
    (s.searchPages f pageSize).length = s.count f := by
  rw [searchPages_eq hsize, List.length_map, List.length_insertionSort]
  rfl

theorem exportEvents_eq_take (hsize : 0 < pageSize) :
    (s.exportEvents f).map AuditEventResponse.fromModel = (s.searchPages f pageSize).take 1000 := by
  rw [searchPages_eq hsize, ← List.map_take]
  rfl

theorem exportAuditEvents_eq (hsize : 0 < pageSize) : s.exportAuditEvents f lib w format =
    exportFile lib format
      (((s.searchPages f pageSize).take 1000).map (AuditEventResponse.modelDump w)) := by
  unfold exportAuditEvents
  rw [← exportEvents_eq_take hsize, List.map_map]
  rfl

theorem rowCount_exportAuditEvents (hsize : 0 < pageSize) :
    (s.exportAuditEvents f lib w format).rowCount = min 1000 (s.count f) := by
  rw [exportAuditEvents_eq hsize, rowCount_exportFile, List.length_map, List.length_take,
    length_searchPages hsize]

/-- The file has the events of all pages of the search, in order, exactly when these are a thousand
at most. -/
theorem export_complete_iff (lib : Stdlib) (w : JsonMode) (s : AuditStore) (f : AuditFilters)
    (format : ExportFormat) {pageSize : Nat} (hsize : 0 < pageSize) :
    s.exportAuditEvents f lib w format =
        exportFile lib format ((s.searchPages f pageSize).map (AuditEventResponse.modelDump w)) ↔
      s.count f ≤ 1000 := by
  constructor
  · intro hcomplete
    have hrows := congrArg ExportFile.rowCount hcomplete
    rw [rowCount_exportAuditEvents hsize, rowCount_exportFile, List.length_map,
      length_searchPages hsize] at hrows
    omega
  · intro hfits
    rw [← length_searchPages hsize] at hfits
    rw [exportAuditEvents_eq hsize, List.take_of_length_le hfits]

end AuditStore

def dots : JsonMode where
  uuid n := List.replicate n 46
  datetime n := List.replicate n 46

/-- A log of events that were all recorded at time 0. -/
def createdLog (count : Nat) : AuditStore where
  events :=
    { rows := (List.range count).map fun n => userCreated.event n 0
      unique := by
        rw [List.map_map]
        exact List.nodup_range.map fun _ _ h => h }
  now := 0

theorem createdLog_count (count : Nat) : (createdLog count).count {} = count := by
  have hall : (createdLog count).query {} = (createdLog count).events.rows :=
    List.filter_eq_self.mpr fun _ _ => rfl
  rw [AuditStore.count, hall]
  simp [createdLog]

theorem smallLog_exported :
    (createdLog 3).exportAuditEvents {} emptyTextLib dots .csv =
      exportFile emptyTextLib .csv
        (((createdLog 3).searchPages {} 2).map (AuditEventResponse.modelDump dots)) :=
  (AuditStore.export_complete_iff emptyTextLib dots (createdLog 3) {} .csv
    (by decide : 0 < 2)).mpr (by decide)

/-- Of 1001 events the search shows all, and the export leaves one out. -/
theorem largeLog_truncated :
    ((createdLog 1001).searchPages {} 100).length = 1001 ∧
    ((createdLog 1001).exportAuditEvents {} emptyTextLib dots .json).rowCount = 1000 ∧
    (createdLog 1001).exportAuditEvents {} emptyTextLib dots .json ≠
      exportFile emptyTextLib .json
        (((createdLog 1001).searchPages {} 100).map (AuditEventResponse.modelDump dots)) := by
  have hsize : 0 < 100 := by decide
  have hpages : ((createdLog 1001).searchPages {} 100).length = 1001 :=
    (AuditStore.length_searchPages hsize).trans (createdLog_count 1001)
  have hexport :
      ((createdLog 1001).exportAuditEvents {} emptyTextLib dots .json).rowCount = 1000 := by
    rw [AuditStore.rowCount_exportAuditEvents hsize, createdLog_count]
    rfl
  refine ⟨hpages, hexport, ?_⟩
  intro hcomplete
  rw [hcomplete, rowCount_exportFile, List.length_map, hpages] at hexport
  cases hexport

end JobRadar
