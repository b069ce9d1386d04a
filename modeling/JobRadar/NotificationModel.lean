import JobRadar.Interleave
import JobRadar.MatchModel

namespace JobRadar

open Database Interleave Python

/-- The columns of the unique constraint on deliveries. -/
structure DeliveryKey where
  userId : Uuid
  jobId : Uuid
  profileId : Uuid
  channel : String
  deriving DecidableEq

inductive DeliveryStatus
  | pending
  | delivered
  | retryable
  | failed
  deriving DecidableEq

structure NotificationDelivery extends DeliveryKey where
  status : DeliveryStatus := .pending
  attemptCount : Nat := 0
  providerMessageId : Option Text := none
  error : Option Text := none
  deriving DecidableEq

/-- What `send` raises: its text, its `retryable` and `status_code` attributes, and whether
it is a `TimeoutError` or `ConnectionError`. -/
structure ProviderError where
  message : Text
  retryable : Bool := false
  timeoutOrConnection : Bool := false
  statusCode : Option Int := none

def isRetryable (error : ProviderError) : Bool :=
  error.retryable || error.timeoutOrConnection || error.statusCode = some 429 ||
    error.statusCode.any fun code => 500 ≤ code

namespace NotificationDelivery

variable (row : NotificationDelivery)

def delivered (messageId : Text) : NotificationDelivery :=
  { row with
    attemptCount := row.attemptCount + 1
    providerMessageId := some messageId
    status := .delivered
    error := none }

def notDelivered (error : ProviderError) : NotificationDelivery :=
  { row with
    attemptCount := row.attemptCount + 1
    status := if isRetryable error then .retryable else .failed
    error := some error.message }

def stored : Option NotificationDelivery := do
  let messageId ← nullable (varcharColumn 255) row.providerMessageId
  let error ← nullable textColumn row.error
  return { row with providerMessageId := messageId, error := error }

end NotificationDelivery

/-- The session writes a column only when its value differs from the one loaded. -/
def written {α : Type} [DecidableEq α] (loaded held current : α) : α :=
  if held = loaded then current else held

def NotificationDelivery.flush (loaded held current : NotificationDelivery) :
    NotificationDelivery :=
  { current with
    status := written loaded.status held.status current.status
    attemptCount := written loaded.attemptCount held.attemptCount current.attemptCount
    providerMessageId := written loaded.providerMessageId held.providerMessageId
      current.providerMessageId
    error := written loaded.error held.error current.error }

@[simp] theorem NotificationDelivery.flush_key (loaded held current : NotificationDelivery) :
    (loaded.flush held current).toDeliveryKey = current.toDeliveryKey := rfl

/-- The committed rows, and the messages the providers have accepted. -/
structure NotificationStore where
  deliveries : Table NotificationDelivery.toDeliveryKey
  outbox : List (DeliveryKey × Text) := []

/-- How often `send` has completed for the key. -/
def NotificationStore.sends (s : NotificationStore) (key : DeliveryKey) : Nat :=
  s.outbox.countP fun message => message.1 = key

/-- The `UPDATE` of the final commit. -/
def NotificationStore.save (s : NotificationStore) (key : DeliveryKey)
    (loaded held : NotificationDelivery) : NotificationStore :=
  { s with
    deliveries := s.deliveries.updateWhere (·.toDeliveryKey = key) (loaded.flush held)
      (loaded.flush_key held) }

inductive NotificationError
  | dataConflict
  | databaseUnavailable
  | persistenceFailure
  deriving DecidableEq

/-- How the provider answers `send`: with a message id, or by raising. -/
inductive ProviderReply
  | sent (messageId : Text)
  | refused (error : ProviderError)

def NotificationStore.getOrCreate (s : NotificationStore) (key : DeliveryKey) :
    Except NotificationError (NotificationStore × NotificationDelivery × Bool) :=
  match s.deliveries.find key with
  | some row => .ok (s, row, false)
  | none =>
    match s.deliveries.insert { toDeliveryKey := key } with
    | none => .error .dataConflict
    | some deliveries =>
      .ok ({ s with deliveries := deliveries }, { toDeliveryKey := key }, true)

/-- `send`, and what its answer makes of the row in memory. -/
def NotificationStore.send (s : NotificationStore) (key : DeliveryKey)
    (row : NotificationDelivery) : ProviderReply → NotificationStore × NotificationDelivery
  | .sent messageId =>
    ({ s with outbox := (key, messageId) :: s.outbox }, row.delivered messageId)
  | .refused error => (s, row.notDelivered error)

/-- The commit and the reload of the row. -/
def NotificationStore.finish (s : NotificationStore) (key : DeliveryKey)
    (row held : NotificationDelivery) :
    NotificationStore × Except NotificationError (Option NotificationDelivery) :=
  match held.stored with
  | none => (s, .error .persistenceFailure)
  | some held =>
    match (s.save key row held).deliveries.find key with
    | none => (s.save key row held, .error .persistenceFailure)
    | some saved => (s.save key row held, .ok (some saved))

/-- `deliver` as one step: the store, whether it came to `send`, and what it returns. -/
def deliver (s : NotificationStore) (key : DeliveryKey) (decision : Decision)
    (reply : ProviderReply) :
    NotificationStore × Bool × Except NotificationError (Option NotificationDelivery) :=
  if decision ≠ .notify then (s, false, .ok none)
  else
    match s.getOrCreate key with
    | .error e => (s, false, .error e)
    | .ok (s, row, created) =>
      if created = false ∧ row.status = .delivered then (s, false, .ok (some row))
      else
        let (s, held) := s.send key row reply
        let (s, result) := s.finish key row held
        (s, true, result)

/-- There is no row for the key that says it has been delivered. -/
def NotificationStore.Undelivered (s : NotificationStore) (key : DeliveryKey) : Prop :=
  ∀ row ∈ s.deliveries.find key, row.status ≠ .delivered

instance (s : NotificationStore) (key : DeliveryKey) : Decidable (s.Undelivered key) :=
  inferInstanceAs (Decidable (∀ row ∈ s.deliveries.find key, row.status ≠ .delivered))

theorem deliver_sends {s : NotificationStore} {key : DeliveryKey} {decision : Decision}
    {reply : ProviderReply} (h : (deliver s key decision reply).2.1 = true) :
    decision = .notify ∧ s.Undelivered key := by
  unfold deliver at h
  split at h
  next => cases h
  next hnotify =>
    refine ⟨not_not.mp hnotify, ?_⟩
    intro row hrow hdelivered
    have hcreated : s.getOrCreate key = .ok (s, row, false) := by
      unfold NotificationStore.getOrCreate
      rw [Option.mem_def.mp hrow]
    rw [hcreated] at h
    simp only [hdelivered, and_self, if_true, Bool.false_eq_true] at h

/-- Where a `deliver` call stands. The row is held in memory from its load to the commit. -/
inductive DeliverPhase
  | start
  | inserting
  | created
  | sending (loaded : NotificationDelivery)
  | sent (loaded held : NotificationDelivery)
  | committed
  | returned (delivery : Option NotificationDelivery)
  | raised (error : NotificationError)
  deriving DecidableEq

structure DeliverThread where
  key : DeliveryKey
  decision : Decision := .notify
  phase : DeliverPhase := .start

def DeliverThread.at (t : DeliverThread) (phase : DeliverPhase) : DeliverThread :=
  { t with phase := phase }

@[simp] theorem DeliverThread.at_phase (t : DeliverThread) (phase : DeliverPhase) :
    (t.at phase).phase = phase := rfl

/-- What a call is told: whether the database carried its statement out, or how the provider
answered. -/
inductive DeliveryAnswer
  | done
  | fails (error : NotificationError)
  | sent (messageId : Text)
  | refused (error : ProviderError)

/-- `deliver` with a session of its own, statement by statement. -/
def deliverStep : Atomic DeliveryAnswer NotificationStore DeliverThread := fun answer s t =>
  match t.phase, answer with
  | .start, .done =>
    if t.decision ≠ .notify then some (s, t.at (.returned none))
    else match s.deliveries.find t.key with
      | none => some (s, t.at .inserting)
      | some row =>
        if row.status = .delivered then some (s, t.at (.returned (some row)))
        else some (s, t.at (.sending row))
  | .inserting, .done =>
    match s.deliveries.insert { toDeliveryKey := t.key } with
    | none => some (s, t.at (.raised .dataConflict))
    | some deliveries => some ({ s with deliveries := deliveries }, t.at .created)
  | .created, .done =>
    match s.deliveries.find t.key with
    | none => some (s, t.at (.raised .persistenceFailure))
    | some row => some (s, t.at (.sending row))
  | .sending row, .sent messageId =>
    some ({ s with outbox := (t.key, messageId) :: s.outbox },
      t.at (.sent row (row.delivered messageId)))
  | .sending row, .refused error => some (s, t.at (.sent row (row.notDelivered error)))
  | .sent loaded held, .done =>
    match held.stored with
    | none => some (s, t.at (.raised .persistenceFailure))
    | some held => some (s.save t.key loaded held, t.at .committed)
  | .committed, .done =>
    match s.deliveries.find t.key with
    | none => some (s, t.at (.raised .persistenceFailure))
    | some row => some (s, t.at (.returned (some row)))
  | .sending _, _ | .returned _, _ | .raised _, _ => none
  | _, .fails error => some (s, t.at (.raised error))
  | _, _ => none

def DeliverPhase.ended : Except NotificationError (Option NotificationDelivery) → DeliverPhase
  | .ok delivery => .returned delivery
  | .error error => .raised error

section Alone

variable {s : NotificationStore} {t : DeliverThread}

/-- From the load of the row on, without interruption. -/
theorem send_alone (s : NotificationStore) (t : DeliverThread) (row : NotificationDelivery)
    (reply : ProviderReply) : Solo deliverStep (s, t.at (.sending row))
      (((s.send t.key row reply).1.finish t.key row (s.send t.key row reply).2).1,
        t.at (.ended
          ((s.send t.key row reply).1.finish t.key row (s.send t.key row reply).2).2)) := by
  have hfinish : ∀ (s : NotificationStore) (held : NotificationDelivery),
      Solo deliverStep (s, t.at (.sent row held))
        ((s.finish t.key row held).1, t.at (.ended (s.finish t.key row held).2)) := by
    intro s held
    unfold NotificationStore.finish
    cases hstored : held.stored with
    | none =>
      have hfails : deliverStep .done s (t.at (.sent row held)) =
          some (s, t.at (.raised .persistenceFailure)) := by
        simp [deliverStep, hstored, DeliverThread.at]
      exact .single ⟨.done, hfails⟩
    | some held' =>
      have hcommit : deliverStep .done s (t.at (.sent row held)) =
          some (s.save t.key row held', t.at .committed) := by
        simp [deliverStep, hstored, DeliverThread.at]
      refine .head ⟨.done, hcommit⟩ ?_
      dsimp only
      split
      next hnone => exact .single ⟨.done, by
        simp [deliverStep, hnone, DeliverThread.at, DeliverPhase.ended]⟩
      next hsome => exact .single ⟨.done, by
        simp [deliverStep, hsome, DeliverThread.at, DeliverPhase.ended]⟩
  cases reply with
  | sent messageId =>
    refine .head ⟨.sent messageId, ?_⟩ (hfinish _ _)
    simp [deliverStep, NotificationStore.send, DeliverThread.at]
  | refused error =>
    refine .head ⟨.refused error, ?_⟩ (hfinish _ _)
    simp [deliverStep, NotificationStore.send, DeliverThread.at]

/-- Without interruption the statements amount to the call as one step. -/
theorem deliver_alone (s : NotificationStore) (t : DeliverThread) (hstart : t.phase = .start)
    (reply : ProviderReply) : Solo deliverStep (s, t)
      ((deliver s t.key t.decision reply).1,
        t.at (.ended (deliver s t.key t.decision reply).2.2)) := by
  unfold deliver
  by_cases hdecision : t.decision ≠ .notify
  · rw [if_pos hdecision]
    exact .single ⟨.done, by simp [deliverStep, hstart, hdecision, DeliverPhase.ended]⟩
  · rw [if_neg hdecision]
    unfold NotificationStore.getOrCreate
    cases hfind : s.deliveries.find t.key with
    | some row =>
      by_cases hdelivered : row.status = .delivered
      · simp only [hdelivered, and_self, if_true]
        exact .single ⟨.done, by
          simp [deliverStep, hstart, hdecision, hfind, hdelivered, DeliverPhase.ended]⟩
      · simp only [hdelivered, and_false, if_false]
        have hload : deliverStep .done s t = some (s, t.at (.sending row)) := by
          simp [deliverStep, hstart, hdecision, hfind, hdelivered]
        exact .head ⟨.done, hload⟩ (send_alone s t row reply)
    | none =>
      have hmissing : deliverStep .done s t = some (s, t.at .inserting) := by
        simp [deliverStep, hstart, hdecision, hfind]
      refine .head ⟨.done, hmissing⟩ ?_
      cases hinsert : s.deliveries.insert { toDeliveryKey := t.key } with
      | none =>
        have htaken : deliverStep .done s (t.at .inserting) =
            some (s, t.at (.raised .dataConflict)) := by
          simp [deliverStep, hinsert, DeliverThread.at]
        exact .single ⟨.done, htaken⟩
      | some deliveries =>
        have hadd : deliverStep .done s (t.at .inserting) =
            some ({ s with deliveries := deliveries }, t.at .created) := by
          simp [deliverStep, hinsert, DeliverThread.at]
        have hrow : deliveries.find t.key = some { toDeliveryKey := t.key } := by
          rw [Table.find_of_insert hinsert, if_pos rfl]
        have hload : deliverStep .done { s with deliveries := deliveries } (t.at .created) =
            some ({ s with deliveries := deliveries },
              t.at (.sending { toDeliveryKey := t.key })) := by
          simp [deliverStep, hrow, DeliverThread.at]
        exact .head ⟨.done, hadd⟩ (.head ⟨.done, hload⟩ (send_alone _ t _ reply))

end Alone

end JobRadar
