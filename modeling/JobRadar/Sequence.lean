import Mathlib.Tactic.Common

namespace Sequence

/-- A call, with the state it was made in. -/
structure Call (α σ : Type) where
  before : σ
  call : α

variable {α σ : Type}

/-- Calls made one after another from `s₀`, latest call first. -/
inductive Run (step : σ → α → σ) (s₀ : σ) : List (Call α σ) → σ → Prop
  | start : Run step s₀ [] s₀
  | next {calls s} (a : α) : Run step s₀ calls s → Run step s₀ (⟨s, a⟩ :: calls) (step s a)

namespace Run

variable {step : σ → α → σ} {s₀ s : σ} {calls : List (Call α σ)} {ok : Call α σ → Prop}
  {I : σ → Prop}

/-- What every call keeps holds after any run. -/
theorem always (init : I s₀) (keep : ∀ s a, I s → I (step s a)) (run : Run step s₀ calls s) :
    I s := by
  induction run with
  | start => exact init
  | next a _ ih => exact keep _ a ih

theorem always_before (init : I s₀) (keep : ∀ s a, I s → I (step s a))
    (run : Run step s₀ calls s) : ∀ c ∈ calls, I c.before := by
  induction run with
  | start => simp
  | next a hrun ih =>
    intro c hc
    rcases List.mem_cons.mp hc with rfl | hc
    · exact always init keep hrun
    · exact ih c hc

/-- What each call keeps under a condition holds after a run of such calls. -/
theorem invariant (init : I s₀) (keep : ∀ s a, I s → ok ⟨s, a⟩ → I (step s a))
    (run : Run step s₀ calls s) (hok : ∀ c ∈ calls, ok c) : I s := by
  induction run with
  | start => exact init
  | next a _ ih =>
    exact keep _ a (ih fun c hc => hok c (List.mem_cons_of_mem _ hc)) (hok _ (by simp))

theorem invariant_before (init : I s₀) (keep : ∀ s a, I s → ok ⟨s, a⟩ → I (step s a))
    (run : Run step s₀ calls s) (hok : ∀ c ∈ calls, ok c) : ∀ c ∈ calls, I c.before := by
  induction run with
  | start => simp
  | next a hrun ih =>
    have hearlier := fun c hc => hok c (List.mem_cons_of_mem _ hc)
    intro c hc
    rcases List.mem_cons.mp hc with rfl | hc
    · exact invariant init keep hrun hearlier
    · exact ih hearlier c hc

/-- If calls that meet the condition keep the invariant, and the others, among those a run may
make, break what it promises, then a run keeps the promise exactly when all its calls meet the
condition. -/
theorem promise_iff {J : σ → Prop} {may : Call α σ → Prop} (init : I s₀)
    (keep : ∀ s a, I s → ok ⟨s, a⟩ → I (step s a)) (promise : ∀ s, I s → J s)
    (only : ∀ s a, I s → may ⟨s, a⟩ → J (step s a) → ok ⟨s, a⟩) (run : Run step s₀ calls s)
    (hmay : ∀ c ∈ calls, may c) : (J s ∧ ∀ c ∈ calls, J c.before) ↔ ∀ c ∈ calls, ok c := by
  constructor
  · rintro ⟨hlast, hbefore⟩
    induction run with
    | start => simp
    | next a hrun ih =>
      have hs := hbefore _ (List.mem_cons_self ..)
      have hearlier := ih (fun c hc => hmay c (List.mem_cons_of_mem _ hc)) hs
        fun c hc => hbefore c (List.mem_cons_of_mem _ hc)
      intro c hc
      rcases List.mem_cons.mp hc with rfl | hc
      · exact only _ a (invariant init keep hrun hearlier) (hmay _ (List.mem_cons_self ..)) hlast
      · exact hearlier c hc
  · intro hok
    refine ⟨promise s (invariant init keep run hok), ?_⟩
    intro c hc
    exact promise c.before (invariant_before init keep run hok c hc)

/-- Two runs of the same calls stay related and have the same outputs, if each call keeps the
relation and gives the same output wherever it meets the condition in the first run. -/
theorem lockstep {β : Type} {R : σ → σ → Prop} {out : Call α σ → β} {t₀ t : σ}
    {calls' : List (Call α σ)} (init : R s₀ t₀)
    (keep : ∀ s t a, R s t → ok ⟨s, a⟩ → R (step s a) (step t a) ∧ out ⟨s, a⟩ = out ⟨t, a⟩)
    (run : Run step s₀ calls s) (run' : Run step t₀ calls' t)
    (hcalls : calls.map Call.call = calls'.map Call.call) (hok : ∀ c ∈ calls, ok c) :
    R s t ∧ calls.map out = calls'.map out := by
  induction run generalizing calls' t with
  | start =>
    cases run' with
    | start => exact ⟨init, rfl⟩
    | next _ _ => cases hcalls
  | @next calls s a _ ih =>
    cases run' with
    | start => cases hcalls
    | @next calls' t a' run' =>
      obtain ⟨ha, hrest⟩ := List.cons.inj hcalls
      have hsame : a = a' := ha
      subst hsame
      obtain ⟨hrelated, houtputs⟩ := ih run' hrest fun c hc => hok c (List.mem_cons_of_mem _ hc)
      obtain ⟨hnext, hout⟩ := keep s t a hrelated (hok _ (List.mem_cons_self ..))
      exact ⟨hnext, List.cons_eq_cons.mpr ⟨hout, houtputs⟩⟩

theorem append {s' : σ} {later : List (Call α σ)} (run : Run step s₀ calls s)
    (run' : Run step s later s') : Run step s₀ (later ++ calls) s' := by
  induction run' with
  | start => exact run
  | next a _ ih => exact .next a ih

/-- A run up to a call of it, and from that call on. -/
theorem split {later earlier : List (Call α σ)} {before : σ} {a : α}
    (run : Run step s₀ (later ++ ⟨before, a⟩ :: earlier) s) :
    Run step s₀ earlier before ∧ Run step (step before a) later s := by
  induction later generalizing s with
  | nil =>
    cases run with
    | next _ run => exact ⟨run, .start⟩
  | cons c later ih =>
    cases run with
    | next _ run =>
      obtain ⟨hearlier, hlater⟩ := ih run
      exact ⟨hearlier, .next _ hlater⟩

end Run

/-- The calls of a list, made in its order. -/
def runAll (step : σ → α → σ) : List (Call α σ) → σ → List α → List (Call α σ) × σ
  | calls, s, [] => (calls, s)
  | calls, s, a :: rest => runAll step (⟨s, a⟩ :: calls) (step s a) rest

theorem run_runAll {step : σ → α → σ} {s₀ s : σ} {calls : List (Call α σ)}
    (run : Run step s₀ calls s) (todo : List α) :
    Run step s₀ (runAll step calls s todo).1 (runAll step calls s todo).2 := by
  induction todo generalizing calls s with
  | nil => exact run
  | cons a rest ih => exact ih (.next a run)

end Sequence
