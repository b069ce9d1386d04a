import Mathlib.Data.Finset.Card
import Mathlib.Data.Fintype.Defs
import Mathlib.Logic.Function.Basic
import Mathlib.Logic.Relation

namespace Interleave

/-- Threads with local states over one shared store. -/
structure Pool (ι σ τ : Type) where
  store : σ
  thread : ι → τ

/-- The atomic steps of a thread: given an answer of the environment, the store and
the local state, either the new store and local state or no step. -/
abbrev Atomic (ε σ τ : Type) := ε → σ → τ → Option (σ × τ)

variable {ι ε σ τ : Type} [DecidableEq ι]

def Pool.set (c : Pool ι σ τ) (i : ι) (r : σ × τ) : Pool ι σ τ :=
  ⟨r.1, Function.update c.thread i r.2⟩

@[simp] theorem Pool.set_store (c : Pool ι σ τ) (i : ι) (r : σ × τ) : (c.set i r).store = r.1 :=
  rfl

@[simp] theorem Pool.set_thread_self (c : Pool ι σ τ) (i : ι) (r : σ × τ) :
    (c.set i r).thread i = r.2 := by
  simp [Pool.set]

theorem Pool.set_thread_ne (c : Pool ι σ τ) {i j : ι} (r : σ × τ) (h : j ≠ i) :
    (c.set i r).thread j = c.thread j := by
  simp [Pool.set, h]

/-- What holds of the thread that moved and of all others before holds of all threads after. -/
theorem Pool.forall_set {c : Pool ι σ τ} {i : ι} {r : σ × τ} {Q : τ → Prop} (hi : Q r.2)
    (h : ∀ j, j ≠ i → Q (c.thread j)) (j : ι) : Q ((c.set i r).thread j) := by
  by_cases hj : j = i
  · subst j
    rwa [set_thread_self]
  · rw [set_thread_ne c r hj]
    exact h j hj

/-- The number of threads in a state that `p` accepts. -/
def Pool.tally [Fintype ι] (c : Pool ι σ τ) (p : τ → Bool) : Nat :=
  (Finset.univ.filter fun i => p (c.thread i)).card

theorem Pool.tally_set_of_eq [Fintype ι] (c : Pool ι σ τ) {i : ι} {r : σ × τ} {p : τ → Bool}
    (h : p r.2 = p (c.thread i)) : (c.set i r).tally p = c.tally p := by
  unfold tally
  congr 1
  apply Finset.filter_congr
  intro j _
  by_cases hj : j = i
  · subst j
    rw [set_thread_self, h]
  · rw [set_thread_ne c r hj]

/-- A thread that enters the counted states is one more. -/
theorem Pool.tally_set_of_enters [Fintype ι] (c : Pool ι σ τ) {i : ι} {r : σ × τ} {p : τ → Bool}
    (hout : p (c.thread i) = false) (hin : p r.2 = true) :
    (c.set i r).tally p = c.tally p + 1 := by
  unfold tally
  rw [← Finset.card_insert_of_notMem (a := i)]
  · congr 1
    ext j
    by_cases hj : j = i
    · subst j
      simp [hin]
    · simp [set_thread_ne c r hj, hj]
  · simp [hout]

/-- One step of a run: the pool before it, the thread that moves and what it is told. -/
structure Event (ι ε σ τ : Type) where
  before : Pool ι σ τ
  mover : ι
  answer : ε

/-- Finite interleavings from `c₀`, latest step first. -/
inductive Path (act : Atomic ε σ τ) (c₀ : Pool ι σ τ) :
    List (Event ι ε σ τ) → Pool ι σ τ → Prop
  | start : Path act c₀ [] c₀
  | step {es c i a r} : Path act c₀ es c → act a c.store (c.thread i) = some r →
      Path act c₀ (⟨c, i, a⟩ :: es) (c.set i r)

/-- What each step preserves under the condition of a run holds at its end. -/
theorem Path.invariant {act : Atomic ε σ τ} {c₀ c : Pool ι σ τ} {es : List (Event ι ε σ τ)}
    {ok : Event ι ε σ τ → Prop} {I : Pool ι σ τ → Prop} (init : I c₀)
    (step : ∀ c i a r, I c → ok ⟨c, i, a⟩ → act a c.store (c.thread i) = some r → I (c.set i r))
    (path : Path act c₀ es c) (hok : ∀ e ∈ es, ok e) : I c := by
  induction path with
  | start => exact init
  | @step es c i a r _ ha ih =>
    exact step c i a r (ih fun e he => hok e (List.mem_cons_of_mem _ he)) (hok _ (by simp)) ha

/-- If a step from a pool with the invariant keeps it exactly under the condition, a run has
the invariant throughout exactly when all its steps meet the condition. -/
theorem Path.invariant_iff {act : Atomic ε σ τ} {c₀ c : Pool ι σ τ} {es : List (Event ι ε σ τ)}
    {ok : Event ι ε σ τ → Prop} {I : Pool ι σ τ → Prop} (init : I c₀)
    (step : ∀ c i a r, I c → act a c.store (c.thread i) = some r →
      (I (c.set i r) ↔ ok ⟨c, i, a⟩))
    (path : Path act c₀ es c) : (I c ∧ ∀ e ∈ es, I e.before) ↔ ∀ e ∈ es, ok e := by
  induction path with
  | start => simpa using init
  | @step es c i a r _ ha ih =>
    constructor
    · rintro ⟨hlast, hbefore⟩ e he
      have hc : I c := hbefore ⟨c, i, a⟩ (by simp)
      rcases List.mem_cons.mp he with rfl | he
      · exact (step c i a r hc ha).mp hlast
      · exact ih.mp ⟨hc, fun e he => hbefore e (List.mem_cons_of_mem _ he)⟩ e he
    · intro hok
      obtain ⟨hc, hbefore⟩ := ih.mpr fun e he => hok e (List.mem_cons_of_mem _ he)
      refine ⟨(step c i a r hc ha).mpr (hok _ (by simp)), ?_⟩
      intro e he
      rcases List.mem_cons.mp he with rfl | he
      · exact hc
      · exact hbefore e he

/-- What every step preserves holds throughout a run. -/
theorem Path.always {act : Atomic ε σ τ} {c₀ c : Pool ι σ τ} {es : List (Event ι ε σ τ)}
    {I : Pool ι σ τ → Prop} (init : I c₀)
    (step : ∀ c i a r, I c → act a c.store (c.thread i) = some r → I (c.set i r))
    (path : Path act c₀ es c) : I c ∧ ∀ e ∈ es, I e.before := by
  have hiff : (I c ∧ ∀ e ∈ es, I e.before) ↔ ∀ e ∈ es, True :=
    Path.invariant_iff init (fun c i a r hc ha => iff_of_true (step c i a r hc ha) trivial) path
  exact hiff.mpr fun _ _ => trivial

theorem Path.invariant_before {act : Atomic ε σ τ} {c₀ c : Pool ι σ τ} {es : List (Event ι ε σ τ)}
    {ok : Event ι ε σ τ → Prop} {I : Pool ι σ τ → Prop} (init : I c₀)
    (step : ∀ c i a r, I c → ok ⟨c, i, a⟩ → act a c.store (c.thread i) = some r → I (c.set i r))
    (path : Path act c₀ es c) (hok : ∀ e ∈ es, ok e) : ∀ e ∈ es, I e.before := by
  induction path with
  | start => simp
  | @step es c i a r path _ ih =>
    have hearlier : ∀ e ∈ es, ok e := fun e he => hok e (List.mem_cons_of_mem _ he)
    intro e he
    rcases List.mem_cons.mp he with rfl | he
    · exact path.invariant init step hearlier
    · exact ih hearlier e he

/-- What each step keeps, given the invariant, holds at the end if it held at some time before. -/
theorem Path.persists {act : Atomic ε σ τ} {c₀ c : Pool ι σ τ} {es : List (Event ι ε σ τ)}
    {ok : Event ι ε σ τ → Prop} {I K : Pool ι σ τ → Prop} (init : I c₀)
    (step : ∀ c i a r, I c → ok ⟨c, i, a⟩ → act a c.store (c.thread i) = some r → I (c.set i r))
    (keep : ∀ c i a r, I c → ok ⟨c, i, a⟩ → act a c.store (c.thread i) = some r → K c →
      K (c.set i r))
    (path : Path act c₀ es c) (hok : ∀ e ∈ es, ok e) : ∀ e ∈ es, K e.before → K c := by
  induction path with
  | start => simp
  | @step es c i a r path ha ih =>
    have hearlier : ∀ e ∈ es, ok e := fun e he => hok e (List.mem_cons_of_mem _ he)
    have hlast : ok ⟨c, i, a⟩ := hok _ (List.mem_cons_self ..)
    have hkeep : K c → K (c.set i r) := keep c i a r (path.invariant init step hearlier) hlast ha
    intro e he hK
    rcases List.mem_cons.mp he with rfl | he
    · exact hkeep hK
    · exact hkeep (ih hearlier e he hK)

/-- Every step stands in the relation to the steps before it. -/
def Throughout (R : List (Event ι ε σ τ) → Event ι ε σ τ → Prop) : List (Event ι ε σ τ) → Prop
  | [] => True
  | e :: es => R es e ∧ Throughout R es

instance {R : List (Event ι ε σ τ) → Event ι ε σ τ → Prop} [∀ es e, Decidable (R es e)] :
    (es : List (Event ι ε σ τ)) → Decidable (Throughout R es)
  | [] => inferInstanceAs (Decidable True)
  | _ :: es =>
    have : Decidable (Throughout R es) := instDecidableThroughout es
    inferInstanceAs (Decidable (_ ∧ _))

/-- Relations that agree at every step of a run hold throughout it together. -/
theorem Path.throughout_iff {act : Atomic ε σ τ} {c₀ c : Pool ι σ τ} {es : List (Event ι ε σ τ)}
    {R R' : List (Event ι ε σ τ) → Event ι ε σ τ → Prop} {ok : List (Event ι ε σ τ) → Prop}
    (hearlier : ∀ e es, ok (e :: es) → ok es)
    (step : ∀ es c i a, Path act c₀ es c → ok (⟨c, i, a⟩ :: es) → (R es ⟨c, i, a⟩ ↔ R' es ⟨c, i, a⟩))
    (path : Path act c₀ es c) (hok : ok es) : Throughout R es ↔ Throughout R' es := by
  induction path with
  | start => exact Iff.rfl
  | @step es c i a r path _ ih =>
    exact and_congr (step es c i a path hok) (ih (hearlier _ _ hok))

/-- Run a schedule, a list of threads with the answers they get, recording the steps. -/
def exec (act : Atomic ε σ τ) : List (Event ι ε σ τ) → Pool ι σ τ → List (ι × ε) →
    Option (List (Event ι ε σ τ) × Pool ι σ τ)
  | es, c, [] => some (es, c)
  | es, c, (i, a) :: rest =>
    (act a c.store (c.thread i)).bind fun r => exec act (⟨c, i, a⟩ :: es) (c.set i r) rest

theorem exec_path {act : Atomic ε σ τ} {c₀ c c' : Pool ι σ τ} {es es' : List (Event ι ε σ τ)}
    (path : Path act c₀ es c) (schedule : List (ι × ε))
    (h : exec act es c schedule = some (es', c')) : Path act c₀ es' c' := by
  induction schedule generalizing c es with
  | nil => cases Option.some.inj h; exact path
  | cons first rest ih =>
    obtain ⟨i, a⟩ := first
    obtain ⟨r, ha, hr⟩ := Option.bind_eq_some_iff.mp h
    exact ih (path.step ha) hr

/-- Two kinds of threads over one store. -/
def Atomic.either {τ' : Type} (act : Atomic ε σ τ) (act' : Atomic ε σ τ') :
    Atomic ε σ (τ ⊕ τ') := fun a s t =>
  match t with
  | .inl t => (act a s t).map fun r => (r.1, .inl r.2)
  | .inr t => (act' a s t).map fun r => (r.1, .inr r.2)

theorem Atomic.either_cases {τ' : Type} {act : Atomic ε σ τ} {act' : Atomic ε σ τ'} {a : ε}
    {s : σ} {t : τ ⊕ τ'} {r : σ × (τ ⊕ τ')} (h : act.either act' a s t = some r) :
    (∃ u s' u', t = .inl u ∧ r = (s', .inl u') ∧ act a s u = some (s', u')) ∨
      ∃ u s' u', t = .inr u ∧ r = (s', .inr u') ∧ act' a s u = some (s', u') := by
  cases t with
  | inl u =>
    obtain ⟨⟨s', u'⟩, ha, hr⟩ := Option.map_eq_some_iff.mp h
    exact Or.inl ⟨u, s', u', rfl, hr.symm, ha⟩
  | inr u =>
    obtain ⟨⟨s', u'⟩, ha, hr⟩ := Option.map_eq_some_iff.mp h
    exact Or.inr ⟨u, s', u', rfl, hr.symm, ha⟩

/-- One thread run without interruption, whatever it is told. -/
abbrev Solo (act : Atomic ε σ τ) : σ × τ → σ × τ → Prop :=
  Relation.ReflTransGen fun x y => ∃ a, act a x.1 x.2 = some y

end Interleave
