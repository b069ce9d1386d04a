import JobRadar.NotificationModel
import JobRadar.RunRedelivery
import JobRadar.TableViews

namespace JobRadar

open Database Python

/-- The store with the records of some sources only. -/
def JobStore.only (keep : Uuid → Prop) [DecidablePred keep] (s : JobStore) : JobStore :=
  { s with records := s.records.filter fun r => keep r.sourceId }

namespace JobStore

variable {keep : Uuid → Prop} [DecidablePred keep] {s : JobStore} {first : FirstRow Job}
  {jobId sourceId : Uuid} {c : JobCandidate} {job : Job}

@[simp] theorem only_jobs : (s.only keep).jobs = s.jobs := rfl

theorem findExisting_only (hkeep : keep sourceId) :
    (s.only keep).findExisting first sourceId c = s.findExisting first sourceId c := by
  have hlisting : (s.only keep).jobsOfListing sourceId c.externalId =
      s.jobsOfListing sourceId c.externalId := by
    unfold jobsOfListing only
    rw [List.filter_filter]
    congr 1
    apply List.filter_congr
    intro r _
    by_cases hr : r.sourceId = sourceId
    · simp [hr, hkeep]
    · simp [hr]
  unfold findExisting
  rw [hlisting]
  rfl

theorem addRecord_only (hkeep : keep sourceId) :
    (s.only keep).addRecord job sourceId c = (s.addRecord job sourceId c).map (·.only keep) := by
  unfold addRecord
  cases hrecord : c.sourceRecord job.id sourceId with
  | none => rfl
  | some record =>
    have hsource := (JobCandidate.sourceRecord_some hrecord).2.1
    have hrecords : (s.records ++ [record]).filter (fun r => keep r.sourceId) =
        s.records.filter (fun r => keep r.sourceId) ++ [record] := by
      simp [List.filter_append, hsource, hkeep]
    simp only [stored, bind, Except.bind, pure, Except.pure, Except.map, only, hrecords]

theorem upsert_only (hkeep : keep sourceId) :
    (s.only keep).upsert first jobId sourceId c =
      (s.upsert first jobId sourceId c).map fun result => (result.1.only keep, result.2) := by
  unfold upsert
  rw [findExisting_only hkeep]
  cases s.findExisting first sourceId c with
  | error e => rfl
  | ok found =>
    cases found with
    | none =>
      simp only [bind, Except.bind, addJob]
      cases c.job jobId with
      | none => rfl
      | some job =>
        simp only [stored, only_jobs]
        cases s.jobs.insert job with
        | none => rfl
        | some jobs =>
          have hrecord : (JobStore.only keep ⟨jobs, s.records⟩).addRecord job sourceId c = _ :=
            addRecord_only hkeep
          simp only [only] at hrecord
          simp only [pure, Except.pure, only, hrecord]
          cases (JobStore.mk jobs s.records).addRecord job sourceId c <;> rfl
    | some job =>
      by_cases hhash : job.descriptionHash = c.descriptionHash
      · simp only [bind, Except.bind, hhash, if_true, addRecord_only hkeep]
        cases s.addRecord job sourceId c <;> rfl
      · simp only [bind, Except.bind, hhash, if_false]
        cases c.content with
        | none => rfl
        | some content =>
          have hrecord : ((s.only keep).updateJob job content).addRecord job sourceId c =
              ((s.updateJob job content).addRecord job sourceId c).map (·.only keep) :=
            addRecord_only (s := s.updateJob job content) hkeep
          simp only [stored, hrecord]
          cases (s.updateJob job content).addRecord job sourceId c <;> rfl

/-- An upsert for a source that is left out shows in the jobs alone. -/
theorem upsert_skips (hskip : ¬keep sourceId) {s' : JobStore} {created changed : Bool}
    (h : s.upsert first jobId sourceId c = .ok (s', job, created, changed)) :
    s'.only keep = { s.only keep with jobs := s'.jobs } := by
  have hadded : ∀ {jobId : Uuid} {record : JobSourceRecord},
      c.sourceRecord jobId sourceId = some record →
      (s.records ++ [record]).filter (fun r => keep r.sourceId) =
        s.records.filter fun r => keep r.sourceId := by
    intro jobId record hrecord
    have hsource := (JobCandidate.sourceRecord_some hrecord).2.1
    simp [List.filter_append, hsource, hskip]
  rcases upsert_cases h with ⟨jobs, record, -, -, -, hrecord, rfl⟩ |
    ⟨record, -, -, hrecord, rfl⟩ | ⟨old, content, record, -, -, -, hrecord, -, rfl⟩
  · simp only [only, hadded hrecord]
  · simp only [only, hadded hrecord]
  · simp only [only, hadded hrecord]

end JobStore

section Fetched

variable {keep : Uuid → Prop} [DecidablePred keep] {lib : Stdlib} {first : FirstRow Job}
  {sourceId : Uuid} {companyName : Text} {s : JobStore} {records : List RawJobRecord}

theorem upsertFetched_only (hkeep : keep sourceId) :
    upsertFetched lib first sourceId companyName (s.only keep) records =
      ((upsertFetched lib first sourceId companyName s records).1.only keep,
        (upsertFetched lib first sourceId companyName s records).2) := by
  induction records generalizing s with
  | nil => rfl
  | cons record records ih =>
    unfold upsertFetched
    cases normalizeRecord lib record companyName with
    | error e => rfl
    | ok c =>
      simp only [JobStore.only_jobs, JobStore.upsert_only hkeep]
      cases s.upsert first s.jobs.freshKey sourceId c with
      | error e => rfl
      | ok result =>
        obtain ⟨s', job, created, changed⟩ := result
        simp only [Except.map, ih]

theorem upsertFetched_skips (hskip : ¬keep sourceId) :
    (upsertFetched lib first sourceId companyName s records).1.only keep =
      { s.only keep with
        jobs := (upsertFetched lib first sourceId companyName s records).1.jobs } := by
  induction records generalizing s with
  | nil => rfl
  | cons record records ih =>
    unfold upsertFetched
    cases normalizeRecord lib record companyName with
    | error e => rfl
    | ok c =>
      dsimp only
      cases hupsert : s.upsert first s.jobs.freshKey sourceId c with
      | error e => rfl
      | ok result =>
        obtain ⟨s', job, created, changed⟩ := result
        simp only [ih, JobStore.upsert_skips hskip hupsert]

end Fetched

/-- The tables with some sources only, their runs and their records. -/
def RunStore.only (keep : Uuid → Prop) [DecidablePred keep] (s : RunStore) : RunStore where
  ingestion :=
    { s.ingestion with
      db :=
        { sources := s.ingestion.db.sources.select fun source => keep source.id
          runs := s.ingestion.db.runs.select fun run => keep run.sourceId } }
  jobs := s.jobs.only keep

namespace RunStore

variable {keep : Uuid → Prop} {lib : Stdlib} {first : FirstRow Job} {s : RunStore}
  {call : RunCall} {fetched : Attempt} {now : Time}

/-- The run, if it is there, is a run of a source that meets the condition. -/
def RunOf (s : RunStore) (keep : Uuid → Prop) (runId : Uuid) : Prop :=
  ∀ run, s.getRun runId = some run → keep run.sourceId

theorem RunOf.of_ingestion {s' : RunStore} {runId : Uuid} (h : s.RunOf keep runId)
    (hs' : s'.ingestion = s.ingestion) : s'.RunOf keep runId := by
  intro run hrun
  rw [getRun, hs'] at hrun
  exact h run hrun

theorem RunOf.finishRun {runId : Uuid} (h : s.RunOf keep runId) (run : IngestionRun)
    (report : RunReport) : (s.finishRun run report now).RunOf keep runId := by
  intro row hrow
  have hfind := Table.find_updateWhere s.ingestion.db.runs (·.id = run.id)
    (·.finish report now) (fun old => old.finish_id report now) runId
  obtain ⟨old, hold, rfl⟩ := Option.map_eq_some_iff.mp (hfind.symm.trans hrow)
  have hkept := h old hold
  split
  next => exact hkept
  next => exact hkept

theorem upsertRecords_ingestion (s : RunStore) (lib : Stdlib) (first : FirstRow Job)
    (call : RunCall) (records : List RawJobRecord) :
    (s.upsertRecords lib first call records).1.ingestion = s.ingestion := by
  unfold upsertRecords
  split <;> rfl

theorem RunOf.storeFetched (h : s.RunOf keep call.runId) :
    (s.storeFetched lib first now call fetched).1.RunOf keep call.runId := by
  unfold RunStore.storeFetched
  split
  next => exact h
  next =>
    split
    next => exact h
    next run hrun =>
      have hkept := s.upsertRecords_ingestion lib first call fetched.records
      split
      next s' e hstored =>
        rw [hstored] at hkept
        exact h.of_ingestion hkept
      next s' counts hstored =>
        rw [hstored] at hkept
        exact (h.of_ingestion hkept).finishRun run _

variable [DecidablePred keep]

theorem getRun_only {runId : Uuid} (hrun : s.RunOf keep runId) :
    (s.only keep).getRun runId = s.getRun runId := by
  change (s.ingestion.db.runs.select _).find runId = s.ingestion.db.runs.find runId
  rw [Table.find_select]
  cases hfound : s.ingestion.db.runs.find runId with
  | none => rfl
  | some run => simp [hrun run hfound]

theorem finishRun_only (run : IngestionRun) (report : RunReport) :
    (s.only keep).finishRun run report now = (s.finishRun run report now).only keep := by
  have hruns := Table.select_updateWhere (t := s.ingestion.db.runs) (q := (·.id = run.id))
    (p := fun run => keep run.sourceId) (fun old => old.finish_id report now) fun old => Iff.rfl
  simp only [only, finishRun, IngestionDb.finishRun, hruns]

theorem finishRun_skips {run : IngestionRun} (hrun : run ∈ s.ingestion.db.runs)
    (hskip : ¬keep run.sourceId) (report : RunReport) :
    (s.finishRun run report now).only keep = s.only keep := by
  have hruns := Table.select_updateWhere_of_not (t := s.ingestion.db.runs)
    (q := (·.id = run.id)) (p := fun run => keep run.sourceId)
    (fun old => old.finish_id report now) (fun old => Iff.rfl) (by
      intro old ho hid hkept
      exact hskip (Table.eq_of_key_eq ho hrun hid ▸ hkept))
  simp only [only, finishRun, IngestionDb.finishRun, hruns]

theorem upsertRecords_only {sourceId : Uuid} (hsource : call.sourceId = some sourceId)
    (hkeep : keep sourceId) (records : List RawJobRecord) :
    (s.only keep).upsertRecords lib first call records =
      ((s.upsertRecords lib first call records).1.only keep,
        (s.upsertRecords lib first call records).2) := by
  unfold upsertRecords
  rw [hsource]
  cases call.companyName with
  | none => rfl
  | some companyName =>
    have hjobs : upsertFetched lib first sourceId companyName (s.jobs.only keep) records = _ :=
      upsertFetched_only hkeep
    have hview : (s.only keep).jobs = s.jobs.only keep := rfl
    simp only [hview, hjobs]
    rfl

theorem storeFetched_only {sourceId : Uuid} (hsource : call.sourceId = some sourceId)
    (hkeep : keep sourceId) (hrun : s.RunOf keep call.runId) :
    (s.only keep).storeFetched lib first now call fetched =
      ((s.storeFetched lib first now call fetched).1.only keep,
        (s.storeFetched lib first now call fetched).2) := by
  unfold storeFetched
  cases fetched.ended with
  | error e => rfl
  | ok _ =>
    rw [getRun_only hrun]
    cases s.getRun call.runId with
    | none => rfl
    | some run =>
      simp only [upsertRecords_only hsource hkeep]
      cases hstored : s.upsertRecords lib first call fetched.records with
      | mk s' result =>
        cases result with
        | error e => rfl
        | ok counts => simp only [finishRun_only]

theorem handleError_only (hrun : s.RunOf keep call.runId) (result : Except PyError Unit) :
    (s.only keep).handleError now call fetched result =
      (s.handleError now call fetched result).only keep := by
  unfold handleError
  split
  next message _ =>
    rw [getRun_only hrun]
    cases s.getRun call.runId with
    | none => rfl
    | some run => exact finishRun_only run _
  next => rfl

theorem unlock_only (redis : Bool) :
    (s.only keep).unlock redis call = (s.unlock redis call).only keep := by
  unfold unlock
  split
  next => rfl
  next => rfl

/-- The execution of a run touches nothing beyond its source. -/
theorem deliver_only {d : Delivery} (hkeep : keep d.sourceId) (hrun : s.RunOf keep d.runId) :
    (s.only keep).deliver lib first d = (s.deliver lib first d).only keep := by
  have hsource : (s.only keep).ingestion.db.get d.sourceId = s.ingestion.db.get d.sourceId := by
    change (s.ingestion.db.sources.select _).find d.sourceId =
      s.ingestion.db.sources.find d.sourceId
    rw [Table.find_select]
    cases hfound : s.ingestion.db.sources.find d.sourceId with
    | none => rfl
    | some source =>
      have hid : source.id = d.sourceId := (Table.find_eq_some_iff.mp hfound).2
      simp [hid, hkeep]
  cases hfound : s.ingestion.db.get d.sourceId with
  | none => rw [deliver_skipped hfound, deliver_skipped (hsource.trans hfound)]
  | some source =>
    rw [deliver_executed hfound, deliver_executed (hsource.trans hfound)]
    unfold executeRun
    split
    next => rfl
    next kind hkind =>
      have hcall : (d.call source).sourceId = some d.sourceId := rfl
      have hcallRun : s.RunOf keep (d.call source).runId := hrun
      simp only [storeFetched_only hcall hkeep hcallRun, handleError_only hcallRun.storeFetched,
        unlock_only]

section Skips

theorem upsertRecords_skips {sourceId : Uuid} (hsource : call.sourceId = some sourceId)
    (hskip : ¬keep sourceId) (records : List RawJobRecord) :
    (s.upsertRecords lib first call records).1.jobs.only keep =
      { s.jobs.only keep with jobs := (s.upsertRecords lib first call records).1.jobs.jobs } := by
  unfold upsertRecords
  rw [hsource]
  cases call.companyName with
  | none => rfl
  | some companyName => exact upsertFetched_skips hskip

theorem storeFetched_skips {sourceId : Uuid} (hsource : call.sourceId = some sourceId)
    (hskip : ¬keep sourceId) :
    (s.storeFetched lib first now call fetched).1.jobs.only keep =
      { s.jobs.only keep with
        jobs := (s.storeFetched lib first now call fetched).1.jobs.jobs } := by
  unfold storeFetched
  split
  next => rfl
  next =>
    split
    next => rfl
    next run _ =>
      have hstored : (s.upsertRecords lib first call fetched.records).1.jobs.only keep = _ :=
        upsertRecords_skips hsource hskip fetched.records
      split
      next s' e hresult =>
        rw [hresult] at hstored
        exact hstored
      next s' counts hresult =>
        rw [hresult] at hstored
        exact hstored

theorem handleError_jobs (result : Except PyError Unit) :
    (s.handleError now call fetched result).jobs = s.jobs := by
  unfold handleError
  split
  next => split <;> rfl
  next => rfl

variable (lib first s keep) in
/-- The execution of a run shows to the other sources in the jobs alone. -/
theorem deliver_skips {d : Delivery} (hskip : ¬keep d.sourceId)
    (hrun : s.RunOf (fun sourceId => ¬keep sourceId) d.runId) :
    (s.deliver lib first d).jobs.only keep =
        { s.jobs.only keep with jobs := (s.deliver lib first d).jobs.jobs } ∧
      (s.deliver lib first d).ingestion.db.sources = s.ingestion.db.sources ∧
      (s.deliver lib first d).ingestion.db.runs.select (fun run => keep run.sourceId) =
        s.ingestion.db.runs.select fun run => keep run.sourceId := by
  cases hfound : s.ingestion.db.get d.sourceId with
  | none =>
    rw [deliver_skipped hfound]
    exact ⟨rfl, rfl, rfl⟩
  | some source =>
    rw [deliver_executed hfound]
    unfold executeRun
    split
    next => exact ⟨rfl, rfl, rfl⟩
    next kind _ =>
      have hunlock : ∀ s' : RunStore, (s'.unlock true (d.call source)).jobs = s'.jobs ∧
          (s'.unlock true (d.call source)).ingestion.db = s'.ingestion.db := fun _ => ⟨rfl, rfl⟩
      have hcall : (d.call source).sourceId = some d.sourceId := rfl
      simp only [(hunlock _).1, (hunlock _).2, handleError_jobs]
      refine ⟨storeFetched_skips hcall hskip, ?_⟩
      rcases s.handleError_storeFetched lib first d.now (d.call source)
          (collectRun lib d.clients kind (d.call source).config) with
        hkept | ⟨run, report, hfoundRun, hdb⟩
      · rw [hkept]
        exact ⟨rfl, rfl⟩
      · rw [hdb]
        have hmem : run ∈ s.ingestion.db.runs := (Table.find_eq_some_iff.mp hfoundRun).1
        have hruns : (s.finishRun run report d.now).only keep = s.only keep :=
          finishRun_skips hmem (hrun run hfoundRun) report
        exact ⟨rfl, congrArg (fun store : RunStore => store.ingestion.db.runs) hruns⟩

end Skips

end RunStore

def NotificationStore.only (userId : Uuid) (s : NotificationStore) : NotificationStore :=
  { s with deliveries := s.deliveries.select (·.userId = userId) }

section Notifications

variable {s : NotificationStore} {key : DeliveryKey} {userId other : Uuid}

theorem NotificationStore.find_only :
    (s.only key.userId).deliveries.find key = s.deliveries.find key := by
  change (s.deliveries.select _).find key = s.deliveries.find key
  rw [Table.find_select]
  cases hfind : s.deliveries.find key with
  | none => rfl
  | some row =>
    have hkey : row.toDeliveryKey = key := (Table.find_eq_some_iff.mp hfind).2
    simp [← hkey]

theorem NotificationStore.getOrCreate_only :
    (s.only key.userId).getOrCreate key =
      (s.getOrCreate key).map fun result => (result.1.only key.userId, result.2) := by
  unfold getOrCreate
  rw [find_only]
  cases hfind : s.deliveries.find key with
  | some row => rfl
  | none =>
    obtain ⟨deliveries, hinsert⟩ := Table.insert_isSome_of_fresh (t := s.deliveries)
      (r := ({ toDeliveryKey := key } : NotificationDelivery)) (Table.find_eq_none_iff.mp hfind)
    have hview : (s.only key.userId).deliveries.insert { toDeliveryKey := key } =
        some (deliveries.select (·.userId = key.userId)) := Table.insert_select hinsert rfl
    simp only [hinsert, hview]
    rfl

theorem NotificationStore.send_only (row : NotificationDelivery) (reply : ProviderReply) :
    (s.only userId).send key row reply =
      ((s.send key row reply).1.only userId, (s.send key row reply).2) := by
  cases reply <;> rfl

theorem NotificationStore.save_only (loaded held : NotificationDelivery) :
    (s.only userId).save key loaded held = (s.save key loaded held).only userId := by
  have hrows := Table.select_updateWhere (t := s.deliveries) (p := (·.userId = userId))
    (q := (·.toDeliveryKey = key)) (loaded.flush_key held) fun row => Iff.rfl
  simp only [save, only, hrows]

theorem NotificationStore.finish_only (row held : NotificationDelivery) :
    (s.only key.userId).finish key row held =
      ((s.finish key row held).1.only key.userId, (s.finish key row held).2) := by
  unfold finish
  cases held.stored with
  | none => rfl
  | some held =>
    simp only [save_only, find_only]
    cases (s.save key row held).deliveries.find key <;> rfl

/-- A delivery reads and writes rows of its user alone. -/
theorem deliver_only (s : NotificationStore) (key : DeliveryKey) (decision : Decision)
    (reply : ProviderReply) :
    deliver (s.only key.userId) key decision reply =
      ((deliver s key decision reply).1.only key.userId, (deliver s key decision reply).2) := by
  unfold deliver
  split
  next => rfl
  next =>
    rw [NotificationStore.getOrCreate_only]
    cases s.getOrCreate key with
    | error e => rfl
    | ok result =>
      obtain ⟨s', row, created⟩ := result
      simp only [Except.map]
      split
      next => rfl
      next => simp only [NotificationStore.send_only, NotificationStore.finish_only]

/-- What a delivery makes of the table: the row of the key may be added, and written. -/
theorem deliver_table (s : NotificationStore) (key : DeliveryKey) (decision : Decision)
    (reply : ProviderReply) : ∃ base,
    (base = s.deliveries ∨ s.deliveries.insert { toDeliveryKey := key } = some base) ∧
      ((deliver s key decision reply).1.deliveries = base ∨ ∃ loaded held,
        (deliver s key decision reply).1.deliveries =
          base.updateWhere (·.toDeliveryKey = key) (NotificationDelivery.flush loaded held)
            (loaded.flush_key held)) := by
  unfold deliver
  split
  next => exact ⟨s.deliveries, Or.inl rfl, Or.inl rfl⟩
  next =>
    cases hgot : s.getOrCreate key with
    | error e => exact ⟨s.deliveries, Or.inl rfl, Or.inl rfl⟩
    | ok result =>
      obtain ⟨s', row, created⟩ := result
      have hbase : s'.deliveries = s.deliveries ∨
          s.deliveries.insert { toDeliveryKey := key } = some s'.deliveries := by
        unfold NotificationStore.getOrCreate at hgot
        split at hgot
        next => cases hgot; exact Or.inl rfl
        next =>
          split at hgot
          next => cases hgot
          next deliveries hinsert => cases hgot; exact Or.inr hinsert
      refine ⟨s'.deliveries, hbase, ?_⟩
      dsimp only
      split
      next => exact Or.inl rfl
      next =>
        have hsent : (s'.send key row reply).1.deliveries = s'.deliveries := by cases reply <;> rfl
        rw [← hsent]
        unfold NotificationStore.finish
        split
        next => exact Or.inl rfl
        next held _ =>
          right
          split
          next => exact ⟨row, held, rfl⟩
          next => exact ⟨row, held, rfl⟩

theorem deliver_skips (hother : other ≠ key.userId) (decision : Decision)
    (reply : ProviderReply) :
    (deliver s key decision reply).1.deliveries.select (·.userId = other) =
      s.deliveries.select (·.userId = other) := by
  obtain ⟨base, hbase, hdeliveries⟩ := deliver_table s key decision reply
  have hcreated : base.select (·.userId = other) = s.deliveries.select (·.userId = other) := by
    rcases hbase with rfl | hinsert
    · rfl
    · exact Table.select_insert hinsert (Ne.symm hother)
  rcases hdeliveries with hkept | ⟨loaded, held, hsaved⟩
  · rw [hkept, hcreated]
  · rw [hsaved, ← hcreated]
    apply Table.select_updateWhere_of_not (loaded.flush_key held) fun row => Iff.rfl
    rintro old - rfl hold
    exact hother hold.symm

/-- Each row of the table was there under its key, or has the key of the delivery. -/
theorem deliver_keys {decision : Decision} {reply : ProviderReply} {row : NotificationDelivery}
    (hrow : row ∈ (deliver s key decision reply).1.deliveries) :
    row.toDeliveryKey = key ∨ ∃ old ∈ s.deliveries, old.toDeliveryKey = row.toDeliveryKey := by
  obtain ⟨base, hbase, hdeliveries⟩ := deliver_table s key decision reply
  have hcreated : ∀ old ∈ base,
      old.toDeliveryKey = key ∨ ∃ x ∈ s.deliveries, x.toDeliveryKey = old.toDeliveryKey := by
    intro old hold
    rcases hbase with rfl | hinsert
    · exact Or.inr ⟨old, hold, rfl⟩
    · rcases (Table.mem_of_insert hinsert).mp hold with hmem | rfl
      · exact Or.inr ⟨old, hmem, rfl⟩
      · exact Or.inl rfl
  rcases hdeliveries with hkept | ⟨loaded, held, hsaved⟩
  · rw [hkept] at hrow
    exact hcreated row hrow
  · rw [hsaved] at hrow
    obtain ⟨old, hold, rfl⟩ := (Table.mem_updateWhere (loaded.flush_key held)).mp hrow
    have hkept := hcreated old hold
    split
    next => exact hkept
    next => exact hkept

end Notifications

end JobRadar
