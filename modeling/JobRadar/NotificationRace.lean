import JobRadar.NotificationModel
import Mathlib.Data.Fintype.Defs

namespace JobRadar

open Database Interleave Python

section Steps

variable {answer : DeliveryAnswer} {s s' : NotificationStore} {t t' : DeliverThread}

/-- The call has sent, with or without success, and its commit is to come. -/
def DeliverPhase.inFlight : DeliverPhase → Bool
  | .sent _ _ => true
  | _ => false

/-- The message of the call is out, and its commit is to come. -/
def DeliverPhase.accepted : DeliverPhase → Bool
  | .sent _ held => held.status = .delivered
  | _ => false

def DeliverPhase.loaded : DeliverPhase → Option NotificationDelivery
  | .sending row => some row
  | .sent row _ => some row
  | _ => none

/-- The steps of a call that neither send nor write. -/
structure QuietStep (answer : DeliveryAnswer) (s : NotificationStore) (t : DeliverThread)
    (phase : DeliverPhase) : Prop where
  notSent : phase.inFlight = false
  loads : ∀ row, phase.loaded = some row → s.deliveries.find t.key = some row
  /-- A call ends its flight quietly only when the commit fails. -/
  lost : ∀ loaded held, t.phase = .sent loaded held →
    (∃ error, answer = .fails error) ∨ held.stored = none
  /-- An insert is quiet only when the row is there. -/
  taken : t.phase = .inserting → answer = .done → s.deliveries.find t.key ≠ none

theorem deliverStep_cases (hs : deliverStep answer s t = some (s', t')) :
    (∃ phase, s' = s ∧ t' = t.at phase ∧ QuietStep answer s t phase) ∨
    (∃ deliveries, t.phase = .inserting ∧ t' = t.at .created ∧
      s' = { s with deliveries := deliveries } ∧
      s.deliveries.insert { toDeliveryKey := t.key } = some deliveries) ∨
    (∃ row messageId, t.phase = .sending row ∧ answer = .sent messageId ∧
      t' = t.at (.sent row (row.delivered messageId)) ∧
      s' = { s with outbox := (t.key, messageId) :: s.outbox }) ∨
    (∃ row error, t.phase = .sending row ∧ answer = .refused error ∧
      t' = t.at (.sent row (row.notDelivered error)) ∧ s' = s) ∨
    ∃ loaded held held', t.phase = .sent loaded held ∧ held.stored = some held' ∧
      t' = t.at .committed ∧ s' = s.save t.key loaded held' := by
  have hquiet : ∀ phase, phase.inFlight = false →
      (∀ row, phase.loaded = some row → s.deliveries.find t.key = some row) →
      (∀ loaded held, t.phase = .sent loaded held →
        (∃ error, answer = .fails error) ∨ held.stored = none) →
      (t.phase = .inserting → answer = .done → s.deliveries.find t.key ≠ none) →
      some (s, t.at phase) = some (s', t') →
      ∃ phase, s' = s ∧ t' = t.at phase ∧ QuietStep answer s t phase := by
    intro phase hn hl hlost htaken he
    cases he
    exact ⟨phase, rfl, rfl, hn, hl, hlost, htaken⟩
  have hplain : ∀ phase, phase.inFlight = false →
      (∀ row, phase.loaded = some row → s.deliveries.find t.key = some row) →
      t.phase.inFlight = false → t.phase ≠ .inserting → some (s, t.at phase) = some (s', t') →
      ∃ phase, s' = s ∧ t' = t.at phase ∧ QuietStep answer s t phase := by
    intro phase hn hl hflight hinserting he
    refine hquiet phase hn hl ?_ (fun hp => absurd hp hinserting) he
    intro loaded held hp
    rw [hp] at hflight
    cases hflight
  unfold deliverStep at hs
  split at hs
  next hp =>
    left
    split at hs
    next => exact hplain _ rfl (by simp [DeliverPhase.loaded]) (by rw [hp]; rfl) (by simp [hp]) hs
    next =>
      split at hs
      next => exact hplain _ rfl (by simp [DeliverPhase.loaded]) (by rw [hp]; rfl) (by simp [hp]) hs
      next row hf =>
        split at hs
        next =>
          exact hplain _ rfl (by simp [DeliverPhase.loaded]) (by rw [hp]; rfl) (by simp [hp]) hs
        next =>
          exact hquiet _ rfl (by simp [DeliverPhase.loaded, hf]) (by simp [hp]) (by simp [hp]) hs
  next hp =>
    split at hs
    next hi =>
      obtain ⟨old, ho, hk⟩ := Table.insert_eq_none_iff.mp hi
      have htaken : s.deliveries.find t.key ≠ none := by
        intro hn
        exact Table.find_eq_none_iff.mp hn old ho hk
      exact Or.inl (hquiet _ rfl (by simp [DeliverPhase.loaded]) (by simp [hp])
        (fun _ _ => htaken) hs)
    next deliveries hi =>
      cases hs
      exact Or.inr (Or.inl ⟨deliveries, hp, rfl, rfl, hi⟩)
  next hp =>
    left
    split at hs
    next => exact hplain _ rfl (by simp [DeliverPhase.loaded]) (by rw [hp]; rfl) (by simp [hp]) hs
    next row hf =>
      exact hplain _ rfl (by simp [DeliverPhase.loaded, hf]) (by rw [hp]; rfl) (by simp [hp]) hs
  next row messageId hp =>
    cases hs
    exact Or.inr (Or.inr (Or.inl ⟨row, messageId, hp, rfl, rfl, rfl⟩))
  next row error hp =>
    cases hs
    exact Or.inr (Or.inr (Or.inr (Or.inl ⟨row, error, hp, rfl, rfl, rfl⟩)))
  next loaded held hp =>
    split at hs
    next hstored =>
      refine Or.inl (hquiet _ rfl (by simp [DeliverPhase.loaded]) ?_ (by simp [hp]) hs)
      intro loaded' held' hp'
      cases hp.symm.trans hp'
      exact Or.inr hstored
    next held' hstored =>
      cases hs
      exact Or.inr (Or.inr (Or.inr (Or.inr ⟨loaded, held, held', hp, hstored, rfl, rfl⟩)))
  next hp =>
    left
    split at hs
    next => exact hplain _ rfl (by simp [DeliverPhase.loaded]) (by rw [hp]; rfl) (by simp [hp]) hs
    next => exact hplain _ rfl (by simp [DeliverPhase.loaded]) (by rw [hp]; rfl) (by simp [hp]) hs
  next => cases hs
  next => cases hs
  next => cases hs
  next =>
    exact Or.inl (hquiet _ rfl (by simp [DeliverPhase.loaded])
      (fun _ _ _ => Or.inl ⟨_, rfl⟩) (by simp) hs)
  next => cases hs

theorem deliverStep_key (hs : deliverStep answer s t = some (s', t')) : t'.key = t.key := by
  rcases deliverStep_cases hs with ⟨_, _, rfl, _⟩ | ⟨_, _, rfl, _⟩ | ⟨_, _, _, _, rfl, _⟩ |
    ⟨_, _, _, _, rfl, _⟩ | ⟨_, _, _, _, _, rfl, _⟩ <;> rfl

end Steps

def NotificationStore.delivered (s : NotificationStore) (key : DeliveryKey) : Bool :=
  (s.deliveries.find key).any fun row => row.status = .delivered

theorem NotificationStore.delivered_save {s : NotificationStore} {key : DeliveryKey}
    {loaded held row : NotificationDelivery} (hf : s.deliveries.find key = some row) :
    (s.save key loaded held).delivered key =
      decide (written loaded.status held.status row.status = .delivered) := by
  obtain ⟨-, hk⟩ := Table.find_eq_some_iff.mp hf
  have hsaved : (s.save key loaded held).deliveries.find key = some (loaded.flush held row) := by
    have hfind := Table.find_updateWhere s.deliveries (·.toDeliveryKey = key) (loaded.flush held)
      (loaded.flush_key held) key
    rw [hf, Option.map_some, if_pos hk] at hfind
    exact hfind
  rw [delivered, hsaved, Option.any_some]
  rfl

theorem NotificationDelivery.stored_status {row row' : NotificationDelivery}
    (h : row.stored = some row') : row'.status = row.status := by
  unfold stored at h
  obtain ⟨messageId, -, h⟩ := Option.bind_eq_some_iff.mp h
  obtain ⟨error, -, h⟩ := Option.bind_eq_some_iff.mp h
  cases h
  rfl

theorem deliverStep_find {answer : DeliveryAnswer} {s s' : NotificationStore}
    {t t' : DeliverThread} {key : DeliveryKey} (hs : deliverStep answer s t = some (s', t'))
    (h : s.deliveries.find key ≠ none) : s'.deliveries.find key ≠ none := by
  obtain ⟨row, hf⟩ := Option.ne_none_iff_exists'.mp h
  rcases deliverStep_cases hs with ⟨_, rfl, _⟩ | ⟨_, _, _, rfl, hi⟩ | ⟨_, _, _, _, _, rfl⟩ |
    ⟨_, _, _, _, _, rfl⟩ | ⟨loaded, _, held', _, _, _, rfl⟩
  · exact h
  · simp [Table.find_of_insert_of_find hi hf]
  · exact h
  · exact h
  · have hfind := Table.find_updateWhere s.deliveries (·.toDeliveryKey = t.key)
      (loaded.flush held') (loaded.flush_key held') key
    rw [hf] at hfind
    simp [NotificationStore.save, hfind]

def DeliveryAnswer.accepts : DeliveryAnswer → Bool
  | .sent _ => true
  | _ => false

def DeliveryAnswer.isDone : DeliveryAnswer → Bool
  | .done => true
  | _ => false

def DeliverPhase.sends : DeliverPhase → Bool
  | .sending _ => true
  | _ => false

/-- The columns hold what the call is about to commit. -/
def DeliverPhase.storable : DeliverPhase → Bool
  | .sent _ held => held.stored.isSome
  | _ => true

variable {ι : Type}

/-- A call about to send finds the committed row not delivered, and no other call between its
send and its commit, unless both sends fail. The commit after an accepted send does not fail. -/
structure Orderly (e : Event ι DeliveryAnswer NotificationStore DeliverThread) : Prop where
  undelivered : (e.before.thread e.mover).phase.sends = true →
    e.before.store.delivered (e.before.thread e.mover).key = false
  alone : (e.before.thread e.mover).phase.sends = true → ∀ j, j ≠ e.mover →
    (e.before.thread j).phase.inFlight = true →
      e.answer.accepts = false ∧ (e.before.thread j).phase.accepted = false
  commits : (e.before.thread e.mover).phase.accepted = true →
    e.answer.isDone = true ∧ (e.before.thread e.mover).phase.storable = true

instance [Fintype ι] [DecidableEq ι] (e : Event ι DeliveryAnswer NotificationStore DeliverThread) :
    Decidable (Orderly e) :=
  decidable_of_iff (_ ∧ _ ∧ _) ⟨fun h => ⟨h.1, h.2.1, h.2.2⟩, fun h => ⟨h.1, h.2, h.3⟩⟩

/-- The row a call holds is in the table, and was not delivered when it was loaded. -/
def DeliverPhase.LoadsUndelivered (key : DeliveryKey) (s : NotificationStore)
    (phase : DeliverPhase) : Prop :=
  ∀ row, phase.loaded = some row → s.deliveries.find key ≠ none ∧ row.status ≠ .delivered

/-- Nothing has been sent for the key. -/
structure Unsent (key : DeliveryKey) (c : Pool ι NotificationStore DeliverThread) : Prop where
  sends : c.store.sends key = 0
  row : c.store.delivered key = false
  loads : ∀ i, (c.thread i).phase.LoadsUndelivered key c.store
  notAccepted : ∀ i, (c.thread i).phase.accepted = false

/-- One call has sent the message and is about to commit. -/
structure Committing (key : DeliveryKey) (c : Pool ι NotificationStore DeliverThread) (i : ι) :
    Prop where
  sends : c.store.sends key = 1
  row : c.store.deliveries.find key ≠ none
  mine : ∃ loaded held, (c.thread i).phase = .sent loaded held ∧ loaded.status ≠ .delivered ∧
    held.status = .delivered
  alone : ∀ j, j ≠ i → (c.thread j).phase.inFlight = false

/-- The row says that the message is out, and no call is about to overwrite it. -/
structure Settled (key : DeliveryKey) (c : Pool ι NotificationStore DeliverThread) : Prop where
  sends : c.store.sends key ≤ 1
  row : c.store.delivered key = true
  idle : ∀ i, (c.thread i).phase.inFlight = false

/-- What holds between the steps of calls for one key. -/
def SentOnce (key : DeliveryKey) (c : Pool ι NotificationStore DeliverThread) : Prop :=
  (∀ i, (c.thread i).key = key) ∧ (Unsent key c ∨ (∃ i, Committing key c i) ∨ Settled key c)

theorem SentOnce.sends_le {key : DeliveryKey} {c : Pool ι NotificationStore DeliverThread}
    (h : SentOnce key c) : c.store.sends key ≤ 1 := by
  rcases h.2 with h | ⟨i, h⟩ | h
  · exact h.sends ▸ Nat.zero_le 1
  · exact Nat.le_of_eq h.sends
  · exact h.sends

section Preserved

variable [DecidableEq ι] {key : DeliveryKey} {c : Pool ι NotificationStore DeliverThread} {i : ι}
  {answer : DeliveryAnswer} {s' : NotificationStore} {t' : DeliverThread}

theorem accepted_of_not_inFlight {phase : DeliverPhase} (h : phase.inFlight = false) :
    phase.accepted = false := by
  cases phase <;> first | rfl | simp [DeliverPhase.inFlight] at h

theorem forall_phase_set {p : DeliverPhase → Prop} (h : ∀ j, p (c.thread j).phase)
    (hmover : p t'.phase) : ∀ j, p ((c.set i (s', t')).thread j).phase :=
  Pool.forall_set (Q := fun t : DeliverThread => p t.phase) hmover fun j _ => h j

theorem Unsent.step (h : Unsent key c) (hkey : ∀ i, (c.thread i).key = key)
    (hok : Orderly ⟨c, i, answer⟩)
    (hs : deliverStep answer c.store (c.thread i) = some (s', t')) :
    Unsent key (c.set i (s', t')) ∨ Committing key (c.set i (s', t')) i := by
  have hkept : ∀ phase : DeliverPhase, phase.LoadsUndelivered key c.store →
      phase.LoadsUndelivered key s' := by
    intro phase hphase row hrow
    obtain ⟨hfind, hstatus⟩ := hphase row hrow
    exact ⟨deliverStep_find hs hfind, hstatus⟩
  have hunsent : ∀ phase : DeliverPhase, phase.LoadsUndelivered key c.store →
      phase.accepted = false → t' = (c.thread i).at phase → s'.sends key = 0 →
      s'.delivered key = false → Unsent key (c.set i (s', t')) := by
    rintro phase hloads haccepted rfl hsends hrow
    exact ⟨hsends, hrow,
      forall_phase_set (p := fun phase => phase.LoadsUndelivered key s')
        (fun j => hkept _ (h.loads j)) (hkept phase hloads),
      forall_phase_set (p := fun phase => phase.accepted = false) h.notAccepted haccepted⟩
  have hundelivered : ∀ row, c.store.deliveries.find key = some row → row.status ≠ .delivered := by
    intro row hf
    have hrow := h.row
    simpa only [NotificationStore.delivered, hf, Option.any_some, decide_eq_false_iff_not]
      using hrow
  rcases deliverStep_cases hs with ⟨phase, rfl, ht, hq⟩ | ⟨deliveries, hp, ht, rfl, hi⟩ |
    ⟨row, messageId, hp, rfl, rfl, rfl⟩ | ⟨row, error, hp, rfl, ht, rfl⟩ |
    ⟨loaded, held, held', hp, hstored, ht, rfl⟩
  · refine Or.inl (hunsent phase ?_ (accepted_of_not_inFlight hq.notSent) ht h.sends h.row)
    intro row hrow
    have hf := hq.loads row hrow
    rw [hkey i] at hf
    exact ⟨by simp [hf], hundelivered row hf⟩
  · refine Or.inl (hunsent .created
      (by simp [DeliverPhase.LoadsUndelivered, DeliverPhase.loaded]) rfl ht h.sends ?_)
    rw [hkey i] at hi
    simp [NotificationStore.delivered, Table.find_of_insert hi]
  · obtain ⟨hfind, hstatus⟩ := h.loads i row (by rw [hp]; rfl)
    refine Or.inr ⟨?_, hfind, ⟨row, row.delivered messageId, by simp, hstatus, rfl⟩, ?_⟩
    · have hsends := h.sends
      simp only [NotificationStore.sends] at hsends
      simp [NotificationStore.sends, hkey i, hsends]
    · intro j hj
      rw [Pool.set_thread_ne c _ hj]
      by_contra hflight
      obtain ⟨haccepts, -⟩ := hok.alone (by rw [hp]; rfl) j hj (by simpa using hflight)
      cases haccepts
  · refine Or.inl (hunsent _ ?_ ?_ ht h.sends h.row)
    · intro row' hrow'
      cases hrow'
      exact h.loads i row (by rw [hp]; rfl)
    · by_cases hr : isRetryable error <;>
        simp [DeliverPhase.accepted, NotificationDelivery.notDelivered, hr]
  · obtain ⟨hfind, -⟩ := h.loads i loaded (by rw [hp]; rfl)
    obtain ⟨row, hf⟩ := Option.ne_none_iff_exists'.mp hfind
    refine Or.inl (hunsent .committed
      (by simp [DeliverPhase.LoadsUndelivered, DeliverPhase.loaded]) rfl ht h.sends ?_)
    have hheld : held'.status ≠ .delivered := by
      have haccepted := h.notAccepted i
      rw [hp] at haccepted
      rw [held.stored_status hstored]
      simpa [DeliverPhase.accepted] using haccepted
    rw [hkey i, NotificationStore.delivered_save hf]
    by_cases hsame : held'.status = loaded.status
    · simpa [written, hsame] using hundelivered row hf
    · simpa [written, hsame] using hheld

theorem Committing.step {k : ι} (h : Committing key c k) (hkey : ∀ i, (c.thread i).key = key)
    (hok : Orderly ⟨c, i, answer⟩)
    (hs : deliverStep answer c.store (c.thread i) = some (s', t')) :
    Committing key (c.set i (s', t')) k ∨ Settled key (c.set i (s', t')) := by
  obtain ⟨loadedₖ, heldₖ, hpk, hloaded, hheld⟩ := h.mine
  by_cases hik : i = k
  · subst hik
    obtain ⟨hdone, hstores⟩ := hok.commits (by simp [hpk, DeliverPhase.accepted, hheld])
    rw [hpk] at hstores
    rcases deliverStep_cases hs with ⟨phase, rfl, rfl, hq⟩ | ⟨_, hp, _⟩ | ⟨_, _, hp, _⟩ |
      ⟨_, _, hp, _⟩ | ⟨loaded, held, held', hp, hstored, rfl, rfl⟩
    · rcases hq.lost loadedₖ heldₖ hpk with ⟨error, hfails⟩ | hnone
      · simp [hfails, DeliveryAnswer.isDone] at hdone
      · simp [DeliverPhase.storable, hnone] at hstores
    · simp [hpk] at hp
    · simp [hpk] at hp
    · simp [hpk] at hp
    · obtain ⟨rfl, rfl⟩ : loadedₖ = loaded ∧ heldₖ = held := by simpa [hpk] using hp
      obtain ⟨row, hf⟩ := Option.ne_none_iff_exists'.mp h.row
      refine Or.inr ⟨Nat.le_of_eq h.sends, ?_, ?_⟩
      · have hstatus : held'.status = .delivered := (heldₖ.stored_status hstored).trans hheld
        simp [hkey i, NotificationStore.delivered_save hf, written, hstatus, Ne.symm hloaded]
      · exact Pool.forall_set (Q := fun t : DeliverThread => t.phase.inFlight = false) rfl h.alone
  · have hki : k ≠ i := fun he => hik he.symm
    have hidle : (c.thread i).phase.inFlight = false := h.alone i hik
    have hstays : t'.phase.inFlight = false → s'.sends key = 1 →
        Committing key (c.set i (s', t')) k := by
      intro hn hsends
      refine ⟨hsends, deliverStep_find hs h.row, ?_, ?_⟩
      · rw [Pool.set_thread_ne c _ hki]
        exact h.mine
      · intro j hj
        by_cases hji : j = i
        · rw [hji, Pool.set_thread_self]
          exact hn
        · rw [Pool.set_thread_ne c _ hji]
          exact h.alone j hj
    have hnone : ∀ row, (c.thread i).phase ≠ .sending row := by
      intro row hp
      obtain ⟨-, hacc⟩ := hok.alone (by rw [hp]; rfl) k hki (by rw [hpk]; rfl)
      simp [hpk, DeliverPhase.accepted, hheld] at hacc
    rcases deliverStep_cases hs with ⟨phase, rfl, rfl, hq⟩ | ⟨_, _, rfl, rfl, _⟩ | ⟨row, _, hp, _⟩ |
      ⟨row, _, hp, _⟩ | ⟨_, _, _, hp, _⟩
    · exact Or.inl (hstays hq.notSent h.sends)
    · exact Or.inl (hstays rfl h.sends)
    · exact absurd hp (hnone row)
    · exact absurd hp (hnone row)
    · simp [hp, DeliverPhase.inFlight] at hidle

theorem Settled.step (h : Settled key c) (hkey : ∀ i, (c.thread i).key = key)
    (hok : Orderly ⟨c, i, answer⟩)
    (hs : deliverStep answer c.store (c.thread i) = some (s', t')) :
    Settled key (c.set i (s', t')) := by
  have hnone : ∀ row, (c.thread i).phase ≠ .sending row := by
    intro row hp
    have hrow := hok.undelivered (by rw [hp]; rfl)
    simp [hkey i, h.row] at hrow
  rcases deliverStep_cases hs with ⟨phase, rfl, rfl, hq⟩ | ⟨_, _, rfl, rfl, hi⟩ | ⟨row, _, hp, _⟩ |
    ⟨row, _, hp, _⟩ | ⟨_, _, _, hp, _⟩
  · exact ⟨h.sends, h.row,
      forall_phase_set (p := fun phase => phase.inFlight = false) h.idle hq.notSent⟩
  · refine ⟨h.sends, ?_, forall_phase_set (p := fun phase => phase.inFlight = false) h.idle rfl⟩
    obtain ⟨row, hf, hstatus⟩ : ∃ row, c.store.deliveries.find key = some row ∧
        row.status = .delivered := by
      simpa [NotificationStore.delivered, Option.any_eq_true] using h.row
    simp [NotificationStore.delivered, Table.find_of_insert_of_find hi hf, hstatus]
  · exact absurd hp (hnone row)
  · exact absurd hp (hnone row)
  · have hidle := h.idle i
    simp [hp, DeliverPhase.inFlight] at hidle

theorem SentOnce.step (h : SentOnce key c) (hok : Orderly ⟨c, i, answer⟩)
    (hs : deliverStep answer c.store (c.thread i) = some (s', t')) :
    SentOnce key (c.set i (s', t')) := by
  obtain ⟨hkey, hmode⟩ := h
  constructor
  · refine Pool.forall_set (Q := fun t : DeliverThread => t.key = key) ?_ fun j _ => hkey j
    rw [deliverStep_key hs, hkey i]
  · rcases hmode with h | ⟨k, h⟩ | h
    · rcases h.step hkey hok hs with h' | h'
      · exact Or.inl h'
      · exact Or.inr (Or.inl ⟨i, h'⟩)
    · rcases h.step hkey hok hs with h' | h'
      · exact Or.inr (Or.inl ⟨k, h'⟩)
      · exact Or.inr (Or.inr h')
    · exact Or.inr (Or.inr (h.step hkey hok hs))

end Preserved

/-- Any number of calls for one key that are about to start. -/
def deliverers (deliveries : Table NotificationDelivery.toDeliveryKey) (key : DeliveryKey)
    (decisions : ι → Decision) : Pool ι NotificationStore DeliverThread where
  store := { deliveries := deliveries }
  thread i := { key := key, decision := decisions i }

theorem sentOnce_deliverers (deliveries : Table NotificationDelivery.toDeliveryKey)
    (key : DeliveryKey) (decisions : ι → Decision) :
    SentOnce key (deliverers deliveries key decisions) := by
  refine ⟨fun _ => rfl, ?_⟩
  cases hrow : (deliverers deliveries key decisions).store.delivered key with
  | false =>
    refine Or.inl ⟨rfl, hrow, ?_, fun _ => rfl⟩
    intro i row hrow
    cases hrow
  | true => exact Or.inr (Or.inr ⟨Nat.zero_le 1, hrow, fun _ => rfl⟩)

theorem delivery_race_sends_once [DecidableEq ι]
    {deliveries : Table NotificationDelivery.toDeliveryKey} {key : DeliveryKey}
    {decisions : ι → Decision} {c : Pool ι NotificationStore DeliverThread}
    {es : List (Event ι DeliveryAnswer NotificationStore DeliverThread)}
    (path : Path deliverStep (deliverers deliveries key decisions) es c)
    (hok : ∀ e ∈ es, Orderly e) : c.store.sends key ≤ 1 := by
  have hsent : SentOnce key c :=
    path.invariant (sentOnce_deliverers deliveries key decisions)
      (fun _ _ _ _ hc hok hs => hc.step hok hs) hok
  exact hsent.sends_le

def annByEmail : DeliveryKey := ⟨1, 1, 21, "email"⟩

/-- Two workers that were given the same match. -/
def annDeliverers : Pool Bool NotificationStore DeliverThread :=
  deliverers .empty annByEmail fun _ => .notify

/-- A call that finds no row, up to its send. -/
def firstCall (i : Bool) : List (Bool × DeliveryAnswer) :=
  [(i, .done), (i, .done), (i, .done)]

/-- The second call starts when the first has committed. -/
def oneDelivery : List (Bool × DeliveryAnswer) :=
  firstCall true ++ [(true, .sent (text "m1")), (true, .done), (true, .done), (false, .done)]

/-- The second call reads the row before the first has sent. -/
def overlappingDeliveries : List (Bool × DeliveryAnswer) :=
  firstCall true ++ [(false, .done), (true, .sent (text "m1")), (false, .sent (text "m2"))]

/-- The commit of the first call is lost. -/
def lostCommit : List (Bool × DeliveryAnswer) :=
  firstCall true ++ [(true, .sent (text "m1")), (true, .fails .databaseUnavailable),
    (false, .done), (false, .sent (text "m2"))]

theorem annDeliverers_oneDelivery : ∃ es c, Path deliverStep annDeliverers es c ∧
    (c.thread false).phase ≠ .start ∧ c.store.sends annByEmail ≤ 1 := by
  obtain ⟨es, c, hrun, hok, hstarted⟩ : ∃ es c,
      exec deliverStep [] annDeliverers oneDelivery = some (es, c) ∧
      (∀ e ∈ es, Orderly e) ∧ (c.thread false).phase ≠ .start :=
    ⟨_, _, rfl, by decide, by decide⟩
  have path := exec_path .start oneDelivery hrun
  exact ⟨es, c, path, hstarted, delivery_race_sends_once path hok⟩

/-- The message goes out twice when the calls overlap, and when the commit is lost. -/
theorem delivery_race_sends_twice :
    (∃ es c, Path deliverStep annDeliverers es c ∧ c.store.sends annByEmail = 2) ∧
      ∃ es c, exec deliverStep [] annDeliverers lostCommit = some (es, c) ∧
        c.store.sends annByEmail = 2 := by
  obtain ⟨es, c, hrun, hsends⟩ : ∃ es c,
      exec deliverStep [] annDeliverers overlappingDeliveries = some (es, c) ∧
      c.store.sends annByEmail = 2 := ⟨_, _, rfl, by decide⟩
  exact ⟨⟨es, c, exec_path .start overlappingDeliveries hrun, hsends⟩, _, _, rfl, by decide⟩

end JobRadar
