import Mathlib.Logic.Basic

/-- A store that tenants share: what a call does to it and answers, for whom a call is made, the
part of the store that is there for one tenant, and a store with the common rows of another. -/
structure Tenants (σ α ω δ : Type) where
  step : σ → α → σ × ω
  owner : α → δ
  part : δ → σ → σ
  share : σ → σ → σ

namespace Tenants

variable {σ α ω δ : Type} (M : Tenants σ α ω δ)

/-- The store after the calls, and what they answered. -/
def run : σ → List α → σ × List (δ × ω)
  | s, [] => (s, [])
  | s, a :: rest =>
    let (s', reply) := M.step s a
    let (last, replies) := run s' rest
    (last, (M.owner a, reply) :: replies)

/-- Each call meets the condition in the store it is made in. -/
def Along (ok : σ → α → Prop) : σ → List α → Prop
  | _, [] => True
  | s, a :: rest => ok s a ∧ Along ok (M.step s a).1 rest

theorem Along.imp {M : Tenants σ α ω δ} {ok ok' : σ → α → Prop} {s : σ} {calls : List α}
    (h : M.Along ok s calls)
    (himp : ∀ s, ∀ a ∈ calls, ok s a → ok' s a) : M.Along ok' s calls := by
  induction calls generalizing s with
  | nil => trivial
  | cons a rest ih =>
    exact ⟨himp s a (List.mem_cons_self ..) h.1,
      ih h.2 fun s b hb => himp s b (List.mem_cons_of_mem _ hb)⟩

variable [DecidableEq δ]

/-- Each tenant with a store of its own: a call is made in the store of its tenant, and the others
get the common rows. -/
def stepApart (stores : δ → σ) (a : α) : (δ → σ) × ω :=
  let (s, reply) := M.step (stores (M.owner a)) a
  (fun u => if u = M.owner a then s else M.share s (stores u), reply)

def runApart : (δ → σ) → List α → (δ → σ) × List (δ × ω)
  | stores, [] => (stores, [])
  | stores, a :: rest =>
    let (stores', reply) := M.stepApart stores a
    let (last, replies) := runApart stores' rest
    (last, (M.owner a, reply) :: replies)

/-- What was answered to the tenant. -/
def repliesTo (u : δ) (replies : List (δ × ω)) : List (δ × ω) := replies.filter (·.1 = u)

/-- A call finds what it needs in the part of its tenant, and changes no other part but by the
common rows. -/
structure Separates (I : σ → Prop) (ok : σ → α → Prop) : Prop where
  keeps : ∀ s a, I s → ok s a → I (M.step s a).1
  own : ∀ s a, I s → ok s a →
    M.step (M.part (M.owner a) s) a = (M.part (M.owner a) (M.step s a).1, (M.step s a).2)
  other : ∀ s a u, I s → ok s a → u ≠ M.owner a →
    M.part u (M.step s a).1 = M.share (M.step s a).1 (M.part u s)
  share_part : ∀ s t u, M.share (M.part u s) t = M.share s t

section Refinement

variable {M} {I : σ → Prop} {ok : σ → α → Prop} {s : σ} {calls : List α}

theorem stepApart_parts (h : M.Separates I ok) (hI : I s) {a : α} (hok : ok s a) :
    M.stepApart (fun u => M.part u s) a = (fun u => M.part u (M.step s a).1, (M.step s a).2) := by
  unfold stepApart
  rw [h.own s a hI hok]
  refine Prod.ext ?_ rfl
  funext u
  dsimp only
  split
  next hu => rw [hu]
  next hu => rw [h.share_part, h.other s a u hI hok hu]

/-- The shared store answers as the separate stores do, and its parts are these stores. -/
theorem run_refines (h : M.Separates I ok) (hI : I s) (hok : M.Along ok s calls) :
    M.runApart (fun u => M.part u s) calls =
      (fun u => M.part u (M.run s calls).1, (M.run s calls).2) := by
  induction calls generalizing s with
  | nil => rfl
  | cons a rest ih =>
    have hrest := ih (h.keeps s a hI hok.1) hok.2
    simp only [runApart, stepApart_parts h hI hok.1, hrest]
    rfl

/-- Where the others' calls leave the common rows alone, a tenant is answered as if it were
alone. -/
theorem replies_alone (h : M.Separates I ok) (hI : I s) {u : δ}
    (hok : M.Along (fun s a => ok s a ∧
      (M.owner a ≠ u → M.share (M.step s a).1 (M.part u s) = M.part u s)) s calls) :
    repliesTo u (M.run s calls).2 =
      (M.run (M.part u s) (calls.filter fun a => M.owner a = u)).2 := by
  induction calls generalizing s with
  | nil => rfl
  | cons a rest ih =>
    obtain ⟨⟨hcall, hsilent⟩, hlater⟩ := hok
    have hrest := ih (h.keeps s a hI hcall) hlater
    by_cases hu : M.owner a = u
    · have hown := h.own s a hI hcall
      rw [hu] at hown
      simp only [run, repliesTo, List.filter_cons, hu, decide_true, if_true, hown]
      exact congrArg _ hrest
    · have hpart : M.part u (M.step s a).1 = M.part u s := by
        rw [h.other s a u hI hcall (Ne.symm hu), hsilent hu]
      rw [hpart] at hrest
      simpa only [run, repliesTo, List.filter_cons, hu, decide_false, Bool.false_eq_true,
        if_false] using hrest

end Refinement

end Tenants
