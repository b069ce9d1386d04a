import Mathlib.Tactic.Common

namespace Spacing

/-- Instants, latest first, of which each after the first `free` ones comes at least `span`
after the one before it. -/
inductive Spaced (free span : Nat) : List Nat → Prop
  | nil : Spaced free span []
  | single {t} : Spaced free span [t]
  | cons {t s earlier} : Spaced free span (s :: earlier) → s ≤ t →
      (free ≤ (s :: earlier).length → s + span ≤ t) → Spaced free span (t :: s :: earlier)

variable {free span t a : Nat} {times : List Nat}

theorem Spaced.tail (h : Spaced free span (t :: times)) : Spaced free span times := by
  cases h with
  | single => exact .nil
  | cons h _ _ => exact h

theorem Spaced.le_head (h : Spaced free span (t :: times)) : ∀ s ∈ times, s ≤ t := by
  induction times generalizing t with
  | nil => simp
  | cons s earlier ih =>
    cases h with
    | cons h hst _ =>
      intro x hx
      rcases List.mem_cons.mp hx with rfl | hx
      · exact hst
      · have hxs := ih h x hx
        omega

/-- The instants from `a` on. -/
def since (a : Nat) (times : List Nat) : Nat := (times.filter fun t => a ≤ t).length

theorem since_le (a : Nat) (times : List Nat) : since a times ≤ times.length :=
  List.length_filter_le _ _

theorem since_cons (h : a ≤ t) : since a (t :: times) = since a times + 1 := by
  simp [since, h]

theorem since_eq_zero (h : ∀ s ∈ times, s < a) : since a times = 0 := by
  rw [since, List.length_eq_zero_iff, List.filter_eq_nil_iff]
  intro s hs
  have hsa := h s hs
  simp only [decide_eq_true_eq]
  omega

theorem Spaced.since_le (hfree : 0 < free) (hspan : 0 < span) (h : Spaced free span (t :: times))
    (hat : a ≤ t) : since a (t :: times) ≤ free + (t - a) / span := by
  induction times generalizing t with
  | nil =>
    have hle := Spacing.since_le a [t]
    simp only [List.length_singleton] at hle
    exact Nat.le_trans (by omega) (Nat.le_add_right free _)
  | cons s earlier ih =>
    cases h with
    | cons h hst hgap =>
      rw [since_cons hat]
      rcases Nat.lt_or_ge s a with hsa | has
      · have hnone : since a (s :: earlier) = 0 := by
          apply since_eq_zero
          intro x hx
          rcases List.mem_cons.mp hx with rfl | hx
          · exact hsa
          · have hxs := h.le_head x hx
            omega
        exact Nat.le_trans (by omega) (Nat.le_add_right free _)
      · have hearlier := ih h has
        rcases Nat.lt_or_ge (s :: earlier).length free with hfew | hmany
        · have hle := Spacing.since_le a (s :: earlier)
          exact Nat.le_trans (by omega) (Nat.le_add_right free _)
        · have hgap := hgap hmany
          have hstep : (s - a) / span + 1 ≤ (t - a) / span := by
            rw [← Nat.add_div_right _ hspan]
            exact Nat.div_le_div_right (by omega)
          omega

theorem Spaced.count_le (hfree : 0 < free) (hspan : 0 < span) (h : Spaced free span times)
    (a length : Nat) :
    (times.filter fun t => a ≤ t ∧ t ≤ a + length).length ≤ free + length / span := by
  induction times with
  | nil => simp
  | cons t times ih =>
    by_cases hlate : t ≤ a + length
    · have hall : (t :: times).filter (fun t => a ≤ t ∧ t ≤ a + length) =
          (t :: times).filter fun t => a ≤ t := by
        apply List.filter_congr
        intro s hs
        have hst : s ≤ t := by
          rcases List.mem_cons.mp hs with rfl | hs
          · exact Nat.le_refl s
          · exact h.le_head s hs
        simp only [decide_eq_decide, and_iff_left_iff_imp]
        omega
      rw [hall]
      rcases Nat.lt_or_ge t a with hta | hat
      · have hnone : since a (t :: times) = 0 := by
          apply since_eq_zero
          intro s hs
          rcases List.mem_cons.mp hs with rfl | hs
          · exact hta
          · have hst := h.le_head s hs
            omega
        rw [since] at hnone
        exact Nat.le_trans (by omega) (Nat.zero_le _)
      · have hsince := h.since_le hfree hspan hat
        have hdiv : (t - a) / span ≤ length / span := Nat.div_le_div_right (by omega)
        rw [since] at hsince
        omega
    · have hdrop : (t :: times).filter (fun t => a ≤ t ∧ t ≤ a + length) =
          times.filter fun t => a ≤ t ∧ t ≤ a + length := by
        simp [hlate]
      rw [hdrop]
      exact ih h.tail

end Spacing
