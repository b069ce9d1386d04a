import Mathlib.Tactic.Common

namespace Transaction

/-- A database session: what is committed, and what its open transaction would commit. -/
structure Session (σ : Type) where
  committed : σ
  pending : σ

/-- Work in a session, which may raise. -/
abbrev Work (ε σ α : Type) := ExceptT ε (StateM (Session σ)) α

namespace Work

variable {ε σ α β : Type}

def exec (w : Work ε σ α) (s : Session σ) : Except ε α × Session σ := StateT.run (ExceptT.run w) s

/-- A statement of the open transaction. Where it fails, the transaction is rolled back. -/
def perform (fault : Option ε) (f : σ → Except ε (σ × α)) : Work ε σ α :=
  ExceptT.mk fun s =>
    match fault, f s.pending with
    | some e, _ => (.error e, ⟨s.committed, s.committed⟩)
    | none, .error e => (.error e, ⟨s.committed, s.committed⟩)
    | none, .ok (pending, a) => (.ok a, ⟨s.committed, pending⟩)

def query (fault : Option ε) (f : σ → α) : Work ε σ α :=
  perform fault fun pending => .ok (pending, f pending)

def commit (fault : Option ε) : Work ε σ Unit :=
  ExceptT.mk fun s =>
    match fault with
    | some e => (.error e, ⟨s.committed, s.committed⟩)
    | none => (.ok (), ⟨s.pending, s.pending⟩)

/-- A statement that is sent with the commit. -/
def save (fault : Option ε) (f : σ → Except ε (σ × α)) : Work ε σ α := do
  let a ← perform fault f
  commit none
  return a

/-- What is done outside the transaction, and stays whatever becomes of it. -/
def effect (fault : Option ε) (f : σ → σ × α) : Work ε σ α :=
  ExceptT.mk fun s =>
    match fault with
    | some e => (.error e, s)
    | none => (.ok (f s.pending).2, ⟨(f s.committed).1, (f s.pending).1⟩)

/-- What the work leaves behind, and what comes of it. -/
def outcome (w : Work ε σ α) (db : σ) : σ × Except ε α :=
  ((w.exec ⟨db, db⟩).2.committed, (w.exec ⟨db, db⟩).1)

def Raises (w : Work ε σ α) (s : Session σ) : Prop := ∃ e s', w.exec s = (.error e, s')

def Quiet (w : Work ε σ α) : Prop := ∀ s, (w.exec s).2.committed = s.committed

/-- Nothing is committed where the work raises. -/
def Atomic (w : Work ε σ α) : Prop :=
  ∀ s e s', w.exec s = (.error e, s') → s'.committed = s.committed

/-- What holds of what is committed and of the open transaction still holds after the work. -/
def Keeps (I : σ → Prop) (w : Work ε σ α) : Prop :=
  ∀ s, I s.committed → I s.pending → I (w.exec s).2.committed ∧ I (w.exec s).2.pending

section Exec

variable {w : Work ε σ α} {k : α → Work ε σ β} {s s' : Session σ} {a : α} {e : ε}
  {fault : Option ε} {f : σ → Except ε (σ × α)} {pending : σ}

@[simp] theorem exec_pure (a : α) (s : Session σ) :
    (pure a : Work ε σ α).exec s = (.ok a, s) := rfl

@[simp] theorem exec_throw (e : ε) (s : Session σ) :
    (throw e : Work ε σ α).exec s = (.error e, s) := rfl

theorem exec_bind_ok (h : w.exec s = (.ok a, s')) : (w >>= k).exec s = (k a).exec s' := by
  unfold exec at *
  rw [ExceptT.run_bind, StateT.run_bind, h]
  rfl

theorem exec_bind_error (h : w.exec s = (.error e, s')) :
    (w >>= k).exec s = (.error e, s') := by
  unfold exec at *
  rw [ExceptT.run_bind, StateT.run_bind, h]
  rfl

theorem exec_bind_cases (w : Work ε σ α) (k : α → Work ε σ β) (s : Session σ) :
    (∃ e s', w.exec s = (.error e, s') ∧ (w >>= k).exec s = (.error e, s')) ∨
      ∃ a s', w.exec s = (.ok a, s') ∧ (w >>= k).exec s = (k a).exec s' := by
  rcases h : w.exec s with ⟨_ | _, s'⟩
  · exact .inl ⟨_, s', rfl, exec_bind_error h⟩
  · exact .inr ⟨_, s', rfl, exec_bind_ok h⟩

/-- Work that comes to the same may stand for other work at the head of a sequence. -/
theorem exec_bind_congr {w' : Work ε σ α} (h : w.exec s = w'.exec s') :
    (w >>= k).exec s = (w' >>= k).exec s' := by
  rcases hexec : w'.exec s' with ⟨_ | _, t⟩
  · rw [exec_bind_error hexec, exec_bind_error (h.trans hexec)]
  · rw [exec_bind_ok hexec, exec_bind_ok (h.trans hexec)]

@[simp] theorem exec_perform_fault (e : ε) (f : σ → Except ε (σ × α)) (s : Session σ) :
    (perform (some e) f).exec s = (.error e, ⟨s.committed, s.committed⟩) := rfl

theorem exec_perform_ok (h : f s.pending = .ok (pending, a)) :
    (perform none f).exec s = (.ok a, ⟨s.committed, pending⟩) := by
  simp only [exec, perform, ExceptT.run_mk, StateT.run, h]

theorem exec_perform_error (h : f s.pending = .error e) :
    (perform none f).exec s = (.error e, ⟨s.committed, s.committed⟩) := by
  simp only [exec, perform, ExceptT.run_mk, StateT.run, h]

@[simp] theorem exec_query (f : σ → α) (s : Session σ) :
    (query none f : Work ε σ α).exec s = (.ok (f s.pending), s) := rfl

@[simp] theorem exec_query_fault (e : ε) (f : σ → α) (s : Session σ) :
    (query (some e) f).exec s = (.error e, ⟨s.committed, s.committed⟩) := rfl

@[simp] theorem exec_commit (s : Session σ) :
    (commit none : Work ε σ Unit).exec s = (.ok (), ⟨s.pending, s.pending⟩) := rfl

@[simp] theorem exec_commit_fault (e : ε) (s : Session σ) :
    (commit (some e) : Work ε σ Unit).exec s = (.error e, ⟨s.committed, s.committed⟩) := rfl

@[simp] theorem exec_save_fault (e : ε) (f : σ → Except ε (σ × α)) (s : Session σ) :
    (save (some e) f).exec s = (.error e, ⟨s.committed, s.committed⟩) := rfl

theorem exec_save_ok (h : f s.pending = .ok (pending, a)) :
    (save none f).exec s = (.ok a, ⟨pending, pending⟩) := by
  rw [save, exec_bind_ok (exec_perform_ok h), exec_bind_ok (exec_commit _)]
  rfl

theorem exec_save_error (h : f s.pending = .error e) :
    (save none f).exec s = (.error e, ⟨s.committed, s.committed⟩) := by
  rw [save, exec_bind_error (exec_perform_error h)]

@[simp] theorem exec_effect (f : σ → σ × α) (s : Session σ) :
    (effect none f : Work ε σ α).exec s =
      (.ok (f s.pending).2, ⟨(f s.committed).1, (f s.pending).1⟩) := rfl

@[simp] theorem exec_effect_fault (e : ε) (f : σ → σ × α) (s : Session σ) :
    (effect (some e) f).exec s = (.error e, s) := rfl

end Exec

section Rules

variable {w : Work ε σ α} {k : α → Work ε σ β} {I : σ → Prop} {fault : Option ε}
  {f : σ → Except ε (σ × α)}

theorem Quiet.pure (a : α) : Quiet (Pure.pure a : Work ε σ α) := fun _ => rfl

theorem Quiet.throw (e : ε) : Quiet (MonadExcept.throw e : Work ε σ α) := fun _ => rfl

theorem Quiet.perform (fault : Option ε) (f : σ → Except ε (σ × α)) :
    Quiet (Work.perform fault f) := by
  intro s
  cases fault with
  | some e => rfl
  | none =>
    cases h : f s.pending with
    | error e => rw [exec_perform_error h]
    | ok r => rw [exec_perform_ok h]

theorem Quiet.query (fault : Option ε) (f : σ → α) : Quiet (Work.query fault f) :=
  Quiet.perform fault _

theorem Quiet.atomic (h : Quiet w) : Atomic w := by
  intro s e s' hexec
  have hw := h s
  rwa [hexec] at hw

theorem Atomic.save (fault : Option ε) (f : σ → Except ε (σ × α)) :
    Atomic (Work.save fault f) := by
  intro s e s' hexec
  cases fault with
  | some e =>
    cases hexec
    rfl
  | none =>
    cases h : f s.pending with
    | error e =>
      rw [exec_save_error h] at hexec
      cases hexec
      rfl
    | ok r =>
      rw [exec_save_ok h] at hexec
      cases hexec

theorem Atomic.bind_pure (h : Atomic w) (g : α → β) : Atomic (w >>= fun a => Pure.pure (g a)) := by
  intro s e s' herror
  rcases exec_bind_cases w (fun a => Pure.pure (g a)) s with
    ⟨e', s₁, hexec, hbind⟩ | ⟨a, s₁, -, hbind⟩
  · rw [hbind] at herror
    cases herror
    exact h s e s' hexec
  · rw [hbind] at herror
    cases herror

/-- Work is atomic up to its first commit. -/
theorem Quiet.bind_atomic (h : Quiet w) (hk : ∀ a, Atomic (k a)) : Atomic (w >>= k) := by
  intro s e s' herror
  have hw := h s
  rcases exec_bind_cases w k s with ⟨e', s₁, hexec, hbind⟩ | ⟨a, s₁, hexec, hbind⟩
  · rw [hexec] at hw
    rw [hbind] at herror
    cases herror
    exact hw
  · rw [hexec] at hw
    rw [hbind] at herror
    exact (hk a s₁ e s' herror).trans hw

theorem Atomic.commit (fault : Option ε) : Atomic (Work.commit fault : Work ε σ Unit) := by
  intro s e s' hexec
  cases fault with
  | some e =>
    cases hexec
    rfl
  | none => cases hexec

theorem Keeps.after {s s' : Session σ} {r : Except ε α} (h : Keeps I w)
    (hexec : w.exec s = (r, s')) (hc : I s.committed) (hp : I s.pending) : I s'.committed := by
  have hw := (h s hc hp).1
  rwa [hexec] at hw

theorem Keeps.pure (a : α) : Keeps I (Pure.pure a : Work ε σ α) := fun _ hc hp => ⟨hc, hp⟩

theorem Keeps.perform (h : ∀ db r, I db → f db = .ok r → I r.1) :
    Keeps I (Work.perform fault f) := by
  intro s hc hp
  cases fault with
  | some e => exact ⟨hc, hc⟩
  | none =>
    cases hf : f s.pending with
    | error e =>
      rw [exec_perform_error hf]
      exact ⟨hc, hc⟩
    | ok r =>
      rw [exec_perform_ok hf]
      exact ⟨hc, h s.pending r hp hf⟩

theorem Keeps.query (f : σ → α) : Keeps I (Work.query fault f) :=
  Keeps.perform fun db r hI h => by
    cases h
    exact hI

theorem Keeps.commit : Keeps I (Work.commit fault : Work ε σ Unit) := by
  intro s hc hp
  cases fault with
  | some e => exact ⟨hc, hc⟩
  | none => exact ⟨hp, hp⟩

theorem Keeps.bind (h : Keeps I w) (hk : ∀ a, Keeps I (k a)) : Keeps I (w >>= k) := by
  intro s hc hp
  have hw := h s hc hp
  rcases exec_bind_cases w k s with ⟨e, s', hexec, hbind⟩ | ⟨a, s', hexec, hbind⟩
  · rw [hexec] at hw
    rw [hbind]
    exact hw
  · rw [hexec] at hw
    rw [hbind]
    exact hk a s' hw.1 hw.2

theorem Keeps.save (h : ∀ db r, I db → f db = .ok r → I r.1) : Keeps I (Work.save fault f) :=
  (Keeps.perform h).bind fun a => Keeps.commit.bind fun _ => Keeps.pure a

end Rules

section Raises

variable {w : Work ε σ α} {k : α → Work ε σ β} {s : Session σ} {fault : Option ε}
  {f : σ → Except ε (σ × α)}

theorem raises_bind : (w >>= k).Raises s ↔
    w.Raises s ∨ ∃ a s', w.exec s = (.ok a, s') ∧ (k a).Raises s' := by
  rcases exec_bind_cases w k s with ⟨e, s', hexec, hbind⟩ | ⟨a, s', hexec, hbind⟩
  · exact iff_of_true ⟨e, s', hbind⟩ (.inl ⟨e, s', hexec⟩)
  · simp [Raises, hexec, hbind]

@[simp] theorem not_raises_pure (a : α) : ¬(pure a : Work ε σ α).Raises s := by
  simp [Raises]

theorem raises_bind_pure (g : α → β) : (w >>= fun a => pure (g a)).Raises s ↔ w.Raises s := by
  rw [raises_bind]
  simp

theorem raises_query_bind (f : σ → α) :
    (query fault f >>= k).Raises s ↔ fault ≠ none ∨ (k (f s.pending)).Raises s := by
  cases fault with
  | some e => exact iff_of_true ⟨e, _, exec_bind_error (exec_query_fault e f s)⟩ (by simp)
  | none =>
    rw [Raises, exec_bind_ok (exec_query f s)]
    simp [Raises]

theorem raises_perform : (perform fault f).Raises s ↔
    fault ≠ none ∨ ∃ e, f s.pending = .error e := by
  cases fault with
  | some e => exact iff_of_true ⟨e, _, exec_perform_fault e f s⟩ (by simp)
  | none =>
    cases h : f s.pending with
    | error e => exact iff_of_true ⟨e, _, exec_perform_error h⟩ (by simp)
    | ok r => simp [Raises, exec_perform_ok h]

theorem raises_perform_bind : (perform fault f >>= k).Raises s ↔
    fault ≠ none ∨ (∃ e, f s.pending = .error e) ∨
      ∃ r, f s.pending = .ok r ∧ (k r.2).Raises ⟨s.committed, r.1⟩ := by
  rw [raises_bind, raises_perform, or_assoc]
  cases fault with
  | some e => simp
  | none =>
    cases h : f s.pending with
    | error e => simp
    | ok r => simp [exec_perform_ok h]

theorem raises_commit : (commit fault : Work ε σ Unit).Raises s ↔ fault ≠ none := by
  cases fault with
  | some e => exact iff_of_true ⟨e, _, exec_commit_fault e s⟩ (by simp)
  | none => simp [Raises]

theorem raises_save : (save fault f).Raises s ↔
    fault ≠ none ∨ ∃ e, f s.pending = .error e := by
  cases fault with
  | some e => exact iff_of_true ⟨e, _, exec_save_fault e f s⟩ (by simp)
  | none =>
    cases h : f s.pending with
    | error e => exact iff_of_true ⟨e, _, exec_save_error h⟩ (by simp)
    | ok r => simp [Raises, exec_save_ok h]

end Raises

section Outcome

variable {w : Work ε σ α} {db : σ} {e : ε}

theorem raises_iff : w.Raises ⟨db, db⟩ ↔ ∃ e, (w.outcome db).2 = .error e := by
  constructor
  · rintro ⟨e, s', h⟩
    exact ⟨e, by rw [Work.outcome, h]⟩
  · rintro ⟨e, h⟩
    exact ⟨e, (w.exec ⟨db, db⟩).2, Prod.ext h rfl⟩

/-- Atomic work that raises leaves the database as it was. -/
theorem Atomic.outcome (h : Atomic w) (he : (w.outcome db).2 = .error e) :
    (w.outcome db).1 = db :=
  h ⟨db, db⟩ e (w.exec ⟨db, db⟩).2 (Prod.ext he rfl)

end Outcome

end Work

end Transaction
