import JobRadar.RunEnds

namespace JobRadar

open Database Python Stages

section Attempts

variable {operation : Nat → Attempt} {n i : Nat}

theorem last_of_completed (hi : i < n) (hfailed : ∀ a < i, (operation a).Retries)
    (hdone : (operation i).Completed) : Last (fun a => (operation a).Retries) n i where
  lt := hi
  reached := hfailed
  stops := fun h => absurd hdone h.not_completed

theorem withRetries_records_iff (h : Last (fun a => (operation a).Retries) n i) :
    (withRetries operation 0 n).records = (operation i).records ↔
      ∀ a < i, (operation a).records = [] := by
  rw [(withRetries_last h).2, List.range_succ, List.flatMap_append, List.flatMap_singleton,
    List.append_left_eq_self, List.flatMap_eq_nil_iff]
  simp only [List.mem_range]

theorem withRetries_clean (h : Last (fun a => (operation a).Retries) n i)
    (hclean : ∀ a < i, (operation a).records = []) :
    withRetries operation 0 n = operation i := by
  have hrecords := (withRetries_records_iff h).mpr hclean
  rw [(withRetries_last h).2] at hrecords
  rw [withRetries_eq h, hrecords]

end Attempts

section Runs

variable {lib : Stdlib} {first : FirstRow Job} {clients : Nat → AsyncClient} {redis : Bool}
  {now : Time} {s : RunStore} {call : RunCall} {kind : SourceKind} {i : Nat}

/-- The run passes on the records of attempt `i` alone, counts these, and comes to the same as a
run that gets the answers of attempt `i` at once. -/
structure RetriesTransparent (lib : Stdlib) (first : FirstRow Job) (clients : Nat → AsyncClient)
    (redis : Bool) (now : Time) (s : RunStore) (call : RunCall) (kind : SourceKind) (i : Nat) :
    Prop where
  passed : (collectRun lib clients kind call.config).records =
    ((kind.adapter lib).fetch lib call.config (clients i)).records
  counted : ∀ run, s.getRun call.runId = some run →
    (executeRun lib first clients redis now s call).2 = .ok () →
    ((executeRun lib first clients redis now s call).1.getRun call.runId).map
        IngestionRun.fetchedCount =
      some ((kind.adapter lib).fetch lib call.config (clients i)).records.length
  same : executeRun lib first clients redis now s call =
    executeRun lib first (fun _ => clients i) redis now s call

theorem executeRun_fetchedCount {run : IngestionRun}
    (hkind : SourceKind.ofName call.kind = some kind) (hrun : s.getRun call.runId = some run)
    (h : (executeRun lib first clients redis now s call).2 = .ok ()) :
    ((executeRun lib first clients redis now s call).1.getRun call.runId).map
        IngestionRun.fetchedCount =
      some (collectRun lib clients kind call.config).records.length := by
  obtain ⟨s', counts, hstored, hs⟩ := RunStore.executeRun_returned hkind hrun h
  have hkept := RunStore.getRun_upsertRecords s call.runId lib first call
    (collectRun lib clients kind call.config).records
  rw [hstored, hrun] at hkept
  rw [hs, RunStore.getRun_unlock, RunStore.getRun_finishRun hkept, Option.map_some]
  rfl

/-- The retries of a run are transparent exactly when no failed attempt had yielded a record. -/
theorem retries_transparent_iff (first : FirstRow Job) (redis : Bool) (now : Time) (s : RunStore)
    (hkind : SourceKind.ofName call.kind = some kind) (hi : i < 3)
    (hfailed : ∀ a < i, ((kind.adapter lib).fetch lib call.config (clients a)).Retries)
    (hdone : ((kind.adapter lib).fetch lib call.config (clients i)).Completed) :
    RetriesTransparent lib first clients redis now s call kind i ↔
      ∀ a < i, ((kind.adapter lib).fetch lib call.config (clients a)).records = [] := by
  have hlast := last_of_completed hi hfailed hdone
  constructor
  · intro h
    exact (withRetries_records_iff hlast).mp h.passed
  · intro hclean
    have hcollected : collectRun lib clients kind call.config =
        (kind.adapter lib).fetch lib call.config (clients i) := withRetries_clean hlast hclean
    have hatOnce : collectRun lib (fun _ => clients i) kind call.config =
        (kind.adapter lib).fetch lib call.config (clients i) :=
      withRetries_stop fun h => absurd hdone h.not_completed
    refine ⟨by rw [hcollected], ?_, ?_⟩
    · intro run hrun hreturned
      rw [executeRun_fetchedCount hkind hrun hreturned, hcollected]
    · simp only [executeRun, hkind, hcollected, hatOnce]

end Runs

def twoPageCall : RunCall :=
  { acmeCall with config := [(text "board", .str (text "acme")), (text "max_pages", .int 2)] }

/-- The first page has a posting. The second is refused for want of service in the first attempt,
and empty from then on. -/
def flakyClients (attempt : Nat) (url : Text) : HttpReply :=
  if url = text "https://boards-api.greenhouse.io/v1/boards/acme/jobs?page=1" then
    acmePage (.str (text "https://apply"))
  else if attempt = 0 then .response 503 none none
  else .response 200 none (some (.obj [(text "jobs", .arr [])]))

/-- The posting of the first page is counted twice. -/
theorem flaky_run_counts_twice :
    (((SourceKind.greenhouse.adapter emptyTextLib).fetch emptyTextLib twoPageCall.config
      (flakyClients 0)).Retries ∧
    ((SourceKind.greenhouse.adapter emptyTextLib).fetch emptyTextLib twoPageCall.config
      (flakyClients 1)).Completed) ∧
    ((SourceKind.greenhouse.adapter emptyTextLib).fetch emptyTextLib twoPageCall.config
      (flakyClients 1)).records.length = 1 ∧
    (executeRun emptyTextLib .head flakyClients true 5 acmeStore twoPageCall).2 = .ok () ∧
    ((executeRun emptyTextLib .head flakyClients true 5 acmeStore twoPageCall).1.getRun 50).map
      IngestionRun.fetchedCount = some 2 ∧
    ¬RetriesTransparent emptyTextLib .head flakyClients true 5 acmeStore twoPageCall
      .greenhouse 1 := by
  refine ⟨⟨⟨_, rfl, rfl⟩, rfl⟩, by decide, by decide, by decide, ?_⟩
  intro h
  have hlength := congrArg List.length h.passed
  revert hlength
  decide

/-- Where the first attempt fails at the first page, nothing is left of it. -/
theorem steady_run_transparent : RetriesTransparent emptyTextLib .head
    (fun attempt => if attempt = 0 then fun _ => .requestError else flakyClients attempt)
    true 5 acmeStore twoPageCall .greenhouse 1 := by
  refine (retries_transparent_iff .head true 5 acmeStore rfl (by omega) ?_ ?_).mpr ?_
  · intro a ha
    obtain rfl : a = 0 := by omega
    exact ⟨_, rfl, rfl⟩
  · rfl
  · intro a ha
    obtain rfl : a = 0 := by omega
    rfl

end JobRadar
