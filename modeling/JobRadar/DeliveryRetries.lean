import JobRadar.NotificationModel
import JobRadar.Sequence

namespace JobRadar

open Database Python Sequence

/-- A call of `deliver` for a key: what was decided of its match, and how the provider answers. -/
structure DeliverCall where
  decision : Decision
  reply : ProviderReply

def NotificationDelivery.outcome (row : NotificationDelivery) :
    Nat × DeliveryStatus × Option Text :=
  (row.attemptCount, row.status, row.error)

namespace NotificationStore

variable (key : DeliveryKey)

def outcome (s : NotificationStore) : Option (Nat × DeliveryStatus × Option Text) :=
  (s.deliveries.find key).map NotificationDelivery.outcome

def deliverStep (s : NotificationStore) (c : DeliverCall) : NotificationStore :=
  (deliver s key c.decision c.reply).1

/-- The row of the key says that an error was permanent. -/
def Failed (s : NotificationStore) : Prop :=
  ∃ row, s.deliveries.find key = some row ∧ row.status = .failed

/-- The call does not come to `send`, and changes nothing of how the delivery stands. -/
structure StopsRetrying (c : Call DeliverCall NotificationStore) : Prop where
  unsent : (deliver c.before key c.call.decision c.call.reply).2.1 = false
  outcome : (c.before.deliverStep key c.call).outcome key = c.before.outcome key

variable {key} {s : NotificationStore}

theorem failed_iff :
    s.Failed key ↔ ∃ attempts error, s.outcome key = some (attempts, .failed, error) := by
  unfold Failed outcome
  constructor
  · rintro ⟨row, hrow, hfailed⟩
    refine ⟨row.attemptCount, row.error, ?_⟩
    rw [hrow, Option.map_some, NotificationDelivery.outcome, hfailed]
  · rintro ⟨attempts, error, houtcome⟩
    obtain ⟨row, hrow, hcolumns⟩ := Option.map_eq_some_iff.mp houtcome
    have hstatus : row.status = .failed := congrArg (fun columns => columns.2.1) hcolumns
    exact ⟨row, hrow, hstatus⟩

theorem Failed.sends (hfailed : s.Failed key) (reply : ProviderReply) :
    (deliver s key .notify reply).2.1 = true := by
  obtain ⟨row, hrow, hstatus⟩ := hfailed
  have hloaded : s.getOrCreate key = .ok (s, row, false) := by
    unfold getOrCreate
    rw [hrow]
  simp [deliver, hloaded, hstatus]

variable {c : Call DeliverCall NotificationStore}

theorem stopsRetrying_of_decision (hdecision : c.call.decision ≠ .notify) :
    StopsRetrying key c := by
  have hreturns : deliver c.before key c.call.decision c.call.reply = (c.before, false, .ok none) :=
    if_pos hdecision
  constructor
  · rw [hreturns]
  · rw [deliverStep, hreturns]

theorem stopsRetrying_iff (hfailed : c.before.Failed key) :
    StopsRetrying key c ↔ c.call.decision ≠ .notify := by
  constructor
  · intro hstops hnotify
    have hsends := hfailed.sends c.call.reply
    rw [← hnotify, hstops.unsent] at hsends
    cases hsends
  · exact stopsRetrying_of_decision

theorem StopsRetrying.failed (hstops : StopsRetrying key c) (hfailed : c.before.Failed key) :
    (c.before.deliverStep key c.call).Failed key := by
  rw [failed_iff] at hfailed ⊢
  rw [hstops.outcome]
  exact hfailed

/-- A permanent error ends the retries exactly when no call for a match that asks for a notification
comes after it. -/
theorem failed_is_final_iff {s₀ : NotificationStore}
    {calls : List (Call DeliverCall NotificationStore)} (run : Run (deliverStep key) s₀ calls s) :
    (calls.Pairwise fun later earlier =>
      (earlier.before.deliverStep key earlier.call).Failed key → StopsRetrying key later) ↔
    calls.Pairwise fun later earlier =>
      (earlier.before.deliverStep key earlier.call).Failed key → later.call.decision ≠ .notify := by
  induction run with
  | start => simp
  | @next calls s a run ih =>
    rw [List.pairwise_cons, List.pairwise_cons, ← ih]
    refine and_congr_left ?_
    intro hstops
    refine forall₂_congr ?_
    intro c hc
    refine imp_congr_right ?_
    intro hfailed
    -- the calls since then have stopped retrying, so they left the row as failed as they found it
    have hstays : s.Failed key := by
      obtain ⟨later, earlier, rfl⟩ := List.append_of_mem hc
      have hsince : ∀ d ∈ later, StopsRetrying key d := fun d hd =>
        (List.pairwise_append.mp hstops).2.2 d hd c (List.mem_cons_self ..) hfailed
      exact run.split.2.invariant hfailed (fun s c hs hstop => hstop.failed hs) hsince
    exact stopsRetrying_iff hstays

end NotificationStore

def annsKey : DeliveryKey := ⟨1, 1, 21, "telegram"⟩

/-- A permanent error, and what comes after it. -/
def afterPermanentError (later : List DeliverCall) :
    List (Call DeliverCall NotificationStore) × NotificationStore :=
  runAll (NotificationStore.deliverStep annsKey) [] ⟨.empty, []⟩
    (⟨.notify, .refused { message := text "bad request" }⟩ :: later)

theorem rejected_match_stops :
    (afterPermanentError [⟨.reject, .sent (text "7")⟩]).1.Pairwise fun later earlier =>
      (earlier.before.deliverStep annsKey earlier.call).Failed annsKey →
        NotificationStore.StopsRetrying annsKey later := by
  apply (NotificationStore.failed_is_final_iff (run_runAll .start _)).mpr
  exact List.pairwise_pair.mpr fun _ => by decide

/-- The error is permanent and the row says so, and the next match sends once more. -/
theorem failed_delivery_retried :
    isRetryable { message := text "bad request" } = false ∧
    (afterPermanentError []).2.Failed annsKey ∧
    (afterPermanentError [⟨.notify, .sent (text "7")⟩]).2.outcome annsKey =
      some (2, .delivered, none) ∧
    ¬(afterPermanentError [⟨.notify, .sent (text "7")⟩]).1.Pairwise fun later earlier =>
      (earlier.before.deliverStep annsKey earlier.call).Failed annsKey →
        NotificationStore.StopsRetrying annsKey later := by
  have hfailed : (afterPermanentError []).2.Failed annsKey :=
    NotificationStore.failed_iff.mpr ⟨1, some (text "bad request"), by decide⟩
  refine ⟨by decide, hfailed, by decide, ?_⟩
  intro hstops
  have hstops := (List.pairwise_pair.mp hstops hfailed).unsent
  revert hstops
  decide

end JobRadar
