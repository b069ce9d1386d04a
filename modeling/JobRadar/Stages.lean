import Mathlib.Tactic.Common

namespace Stages

/-- The loop comes to stage `i`: every stage before it goes on. -/
def Reached (goes : Nat → Prop) (i : Nat) : Prop := ∀ j < i, goes j

/-- A loop over `n` stages ends with stage `i`. -/
structure Last (goes : Nat → Prop) (n i : Nat) : Prop where
  lt : i < n
  reached : Reached goes i
  stops : goes i → i + 1 = n

variable {goes : Nat → Prop} {n i : Nat}

theorem exists_last (goes : Nat → Prop) (hn : 0 < n) : ∃ i, Last goes n i := by
  induction n with
  | zero => omega
  | succ n ih =>
    rcases Nat.eq_zero_or_pos n with rfl | hpos
    · exact ⟨0, by omega, fun j hj => by omega, fun _ => rfl⟩
    · obtain ⟨i, hlast⟩ := ih hpos
      have hi := hlast.lt
      by_cases hg : goes i
      · have hin := hlast.stops hg
        refine ⟨n, by omega, ?_, fun _ => rfl⟩
        intro j hj
        rcases Nat.lt_or_ge j i with hji | hji
        · exact hlast.reached j hji
        · obtain rfl : j = i := by omega
          exact hg
      · exact ⟨i, by omega, hlast.reached, fun h => absurd h hg⟩

namespace Last

variable (h : Last goes n i)

include h

theorem le_of_reached {j : Nat} (hj : j < n) (hr : Reached goes j) : j ≤ i := by
  by_contra hji
  have hin := h.stops (hr i (by omega))
  omega

theorem forall_iff {P : Nat → Prop} (hP : ∀ j, goes j → P j) :
    (∀ j < n, Reached goes j → P j) ↔ P i := by
  constructor
  · intro hall
    exact hall i h.lt h.reached
  · intro hi j hj hr
    rcases Nat.lt_or_ge j i with hji | hji
    · exact hP j (h.reached j hji)
    · have hle := h.le_of_reached hj hr
      obtain rfl : j = i := by omega
      exact hi

theorem exists_iff {P : Nat → Prop} (hP : ∀ j, goes j → ¬P j) :
    (∃ j < n, Reached goes j ∧ P j) ↔ P i := by
  have hforall := h.forall_iff (P := fun j => ¬P j) hP
  constructor
  · rintro ⟨j, hj, hr, hPj⟩
    by_contra hi
    exact hforall.mpr hi j hj hr hPj
  · intro hi
    exact ⟨i, h.lt, h.reached, hi⟩

theorem loop_eq {α : Type} (loop : Nat → α)
    (hgo : ∀ j, goes j → j + 1 < n → loop j = loop (j + 1)) : loop 0 = loop i := by
  have hi := h.lt
  have hfrom : ∀ j, j ≤ i → loop 0 = loop j := by
    intro j
    induction j with
    | zero => intro _; rfl
    | succ j ih =>
      intro hj
      rw [ih (by omega)]
      exact hgo j (h.reached j hj) (by omega)
  exact hfrom i (Nat.le_refl i)

theorem value_eq {α : Type} (loop : Nat → Nat → α) (value : Nat → α)
    (hstop : ∀ j left, (goes j → left = 0) → loop j (left + 1) = value j)
    (hgo : ∀ j left, goes j → left ≠ 0 → loop j (left + 1) = loop (j + 1) left) :
    loop 0 n = value i := by
  have hi := h.lt
  have hloop : loop 0 (n - 0) = loop i (n - i) := by
    refine h.loop_eq (fun j => loop j (n - j)) ?_
    intro j hg hj
    have hstep := hgo j (n - (j + 1)) hg (by omega)
    rwa [show n - (j + 1) + 1 = n - j by omega] at hstep
  have hend := hstop i (n - (i + 1)) (fun hg => by have := h.stops hg; omega)
  rw [show n - (i + 1) + 1 = n - i by omega] at hend
  exact hloop.trans hend

end Last

end Stages
