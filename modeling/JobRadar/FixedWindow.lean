import Mathlib.Algebra.BigOperators.Group.Finset.Basic
import Mathlib.Algebra.Order.BigOperators.Group.Finset
import Mathlib.Data.List.Range

namespace FixedWindow

variable {κ : Type} [DecidableEq κ]

/-- The values a counter per key shows when the keys are hit one after another. -/
def counts (counters : κ → Nat) : List κ → List Nat
  | [] => []
  | k :: keys => (counters k + 1) ::
      counts (Function.update counters k (counters k + 1)) keys

/-- How many of the hits stay within the limit. -/
def admitted (counters : κ → Nat) (limit : Nat) (keys : List κ) : Nat :=
  (counts counters keys).countP (· ≤ limit)

theorem admitted_cons (counters : κ → Nat) (limit : Nat) (k : κ) (keys : List κ) :
    admitted counters limit (k :: keys) = (if counters k + 1 ≤ limit then 1 else 0) +
      admitted (Function.update counters k (counters k + 1)) limit keys := by
  simp only [admitted, counts, List.countP_cons, decide_eq_true_eq]
  omega

theorem admitted_eq_sum (counters : κ → Nat) (limit : Nat) (keys : List κ) (S : Finset κ)
    (hS : ∀ k ∈ keys, k ∈ S) : admitted counters limit keys =
      ∑ k ∈ S, (min (counters k + keys.count k) limit - min (counters k) limit) := by
  induction keys generalizing counters with
  | nil => simp [admitted, counts]
  | cons k keys ih =>
    have hk : k ∈ S := hS k (by simp)
    have hrest : ∀ x ∈ S.erase k,
        min (Function.update counters k (counters k + 1) x + keys.count x) limit -
          min (Function.update counters k (counters k + 1) x) limit =
        min (counters x + (k :: keys).count x) limit - min (counters x) limit := by
      intro x hx
      have hne : x ≠ k := Finset.ne_of_mem_erase hx
      rw [Function.update_of_ne hne, List.count_cons_of_ne hne.symm]
    rw [admitted_cons, ih _ fun x hx => hS x (List.mem_cons_of_mem k hx),
      ← Finset.add_sum_erase S _ hk, ← Finset.add_sum_erase S _ hk, Finset.sum_congr rfl hrest,
      Function.update_self, List.count_cons_self]
    split <;> omega

theorem admitted_le_length (counters : κ → Nat) (limit : Nat) (keys : List κ) :
    admitted counters limit keys ≤ keys.length := by
  induction keys generalizing counters with
  | nil => simp [admitted, counts]
  | cons k keys ih =>
    have h := ih (Function.update counters k (counters k + 1))
    rw [admitted_cons, List.length_cons]
    split <;> omega

theorem admitted_zero_le_iff {limit : Nat} (hlimit : 1 ≤ limit) (keys : List κ) :
    admitted (fun _ => 0) limit keys ≤ limit ↔
      keys.length ≤ limit ∨ ∀ a ∈ keys, ∀ b ∈ keys, a = b := by
  have hsum := admitted_eq_sum (fun _ => 0) limit keys keys.toFinset
    fun k hk => List.mem_toFinset.mpr hk
  simp only [Nat.zero_add, Nat.zero_min, Nat.sub_zero] at hsum
  constructor
  · intro hle
    by_contra hcon
    push Not at hcon
    obtain ⟨hlen, a, ha, b, hb, hab⟩ := hcon
    by_cases hfull : ∃ k ∈ keys, limit ≤ keys.count k
    · -- one key alone reaches the limit, and any other key adds to it
      obtain ⟨k, hk, hcount⟩ := hfull
      obtain ⟨other, hother, hne⟩ : ∃ x ∈ keys, x ≠ k := by
        by_cases hak : a = k
        · exact ⟨b, hb, fun hbk => hab (hak.trans hbk.symm)⟩
        · exact ⟨a, ha, hak⟩
      have hpos : 1 ≤ keys.count other := List.count_pos_iff.mpr hother
      have hmem : other ∈ keys.toFinset.erase k :=
        Finset.mem_erase.mpr ⟨hne, List.mem_toFinset.mpr hother⟩
      have hadd := Finset.add_sum_erase keys.toFinset (fun x => min (keys.count x) limit)
        (List.mem_toFinset.mpr hk)
      have hone := Finset.single_le_sum (f := fun x => min (keys.count x) limit)
        (fun _ _ => Nat.zero_le _) hmem
      omega
    · -- no key reaches the limit, so every hit is admitted
      push Not at hfull
      have hall : ∑ k ∈ keys.toFinset, min (keys.count k) limit =
          ∑ k ∈ keys.toFinset, keys.count k := by
        apply Finset.sum_congr rfl
        intro k hk
        have := hfull k (List.mem_toFinset.mp hk)
        omega
      have htotal := List.sum_toFinset_count_eq_length keys
      omega
  · rintro (hlen | hsame)
    · exact (admitted_le_length _ limit keys).trans hlen
    · rw [hsum]
      cases keys with
      | nil => simp
      | cons k keys =>
        have hone : (k :: keys).toFinset = {k} := by
          apply Finset.eq_singleton_iff_unique_mem.mpr
          exact ⟨by simp, fun x hx => hsame x (List.mem_toFinset.mp hx) k (by simp)⟩
        rw [hone, Finset.sum_singleton]
        omega

section Items

variable {α : Type} (items : List α)

/-- If an item is let through exactly while fewer than the limit with its key came before it, then
each key gets through as many as it has, up to the limit. The latest item is the first. -/
theorem countP_admitted (limit : Nat) {key : α → κ} {admits : α → Bool}
    (h : ∀ later x earlier, items = later ++ x :: earlier →
      (admits x = true ↔ earlier.countP (fun y => key y = key x) < limit)) (k : κ) :
    items.countP (fun x => key x = k ∧ admits x = true) =
      min (items.countP fun x => key x = k) limit := by
  induction items with
  | nil => simp
  | cons x items ih =>
    have hrest := ih fun later y earlier hitems => h (x :: later) y earlier (by rw [hitems]; rfl)
    have hx := h [] x items rfl
    rw [List.countP_cons, List.countP_cons, hrest]
    by_cases hkey : key x = k
    · subst hkey
      by_cases hadmits : admits x = true
      · have hlt := hx.mp hadmits
        simp only [hadmits, and_self, decide_true, if_true]
        omega
      · have hfull := mt hx.mpr hadmits
        simp only [hadmits, and_false, decide_false, if_true, Bool.false_eq_true, if_false,
          decide_true]
        omega
    · simp [hkey]

theorem countP_le_add (p q r : α → Bool)
    (h : ∀ x ∈ items, p x = true → q x = true ∨ r x = true) :
    items.countP p ≤ items.countP q + items.countP r := by
  induction items with
  | nil => simp
  | cons x items ih =>
    have hrest := ih fun y hy => h y (List.mem_cons_of_mem x hy)
    have hx := h x (List.mem_cons_self ..)
    rw [List.countP_cons, List.countP_cons, List.countP_cons]
    by_cases hp : p x = true
    · rcases hx hp with hq | hr
      · simp only [hp, hq, if_true]
        omega
      · simp only [hp, hr, if_true]
        omega
    · simp only [hp, Bool.false_eq_true, if_false]
      omega

end Items

end FixedWindow
