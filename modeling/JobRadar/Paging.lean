import Mathlib.Data.List.Nodup
import Mathlib.Data.List.Sort

namespace Paging

variable {ρ : Type}

/-- `OFFSET (number - 1) * size LIMIT size`. -/
def page (size number : Nat) (rows : List ρ) : List ρ :=
  (rows.drop ((number - 1) * size)).take size

/-- The quotient, rounded up. -/
def pageCount (size total : Nat) : Nat := (total + size - 1) / size

theorem take_pages (size count : Nat) (rows : List ρ) :
    (List.range' 1 count).flatMap (fun number => page size number rows) =
      rows.take (count * size) := by
  induction count with
  | zero => simp
  | succ count ih =>
    have hlast : page size (1 + 1 * count) rows = (rows.drop (count * size)).take size := by
      have hnumber : 1 + 1 * count - 1 = count := by omega
      rw [page, hnumber]
    rw [List.range'_concat, List.flatMap_append, ih, List.flatMap_singleton, hlast,
      Nat.succ_mul, List.take_add]

theorem le_pageCount_mul {size : Nat} (hsize : 0 < size) (total : Nat) :
    total ≤ pageCount size total * size := by
  have hdiv := Nat.div_add_mod (total + size - 1) size
  have hmod := Nat.mod_lt (total + size - 1) hsize
  rw [Nat.mul_comm] at hdiv
  unfold pageCount
  omega

theorem flatMap_pages {size : Nat} (hsize : 0 < size) (rows : List ρ) :
    (List.range' 1 (pageCount size rows.length)).flatMap (fun number => page size number rows) =
      rows := by
  rw [take_pages]
  exact List.take_of_length_le (le_pageCount_mul hsize rows.length)

theorem mem_pages {size : Nat} (hsize : 0 < size) {rows : List ρ} {r : ρ} :
    (∃ number, r ∈ page size number rows) ↔ r ∈ rows := by
  constructor
  · rintro ⟨number, hr⟩
    exact List.mem_of_mem_drop (List.mem_of_mem_take hr)
  · intro hr
    rw [← flatMap_pages hsize rows] at hr
    obtain ⟨number, -, hmem⟩ := List.mem_flatMap.mp hr
    exact ⟨number, hmem⟩

section Rank

variable {r : ρ → ρ → Prop} [DecidableRel r] {rows : List ρ} {x : ρ} {size number : Nat}

/-- How many rows come before the row. -/
def rank (r : ρ → ρ → Prop) [DecidableRel r] (rows : List ρ) (x : ρ) : Nat :=
  rows.countP fun y => r y x ∧ ¬r x y

theorem rank_lt (hx : x ∈ rows) : rank r rows x < rows.length := by
  have hle : rank r rows x ≤ rows.length := List.countP_le_length
  apply Nat.lt_of_le_of_ne hle
  intro hall
  have hself := List.countP_eq_length.mp hall x hx
  simp at hself

theorem insertionSort_split [Std.Total r] [IsTrans ρ r] (hrows : rows.Nodup) (hx : x ∈ rows)
    (htie : ∀ y ∈ rows, r y x → r x y → y = x) : ∃ front back,
      rows.insertionSort r = front ++ x :: back ∧ front.length = rank r rows x := by
  have hperm := List.perm_insertionSort r rows
  have hsorted := List.pairwise_insertionSort r rows
  have hnodup : (rows.insertionSort r).Nodup := hperm.nodup_iff.mpr hrows
  obtain ⟨front, back, hsplit⟩ := List.append_of_mem (hperm.mem_iff.mpr hx)
  refine ⟨front, back, hsplit, ?_⟩
  have hmem : ∀ y ∈ front ++ x :: back, y ∈ rows := by
    rw [← hsplit]
    exact fun y hy => hperm.mem_iff.mp hy
  rw [hsplit] at hsorted hnodup
  obtain ⟨_, hback, hfront⟩ := List.pairwise_append.mp hsorted
  obtain ⟨_, _, hapart⟩ := List.nodup_append.mp hnodup
  have hahead : front.countP (fun y => decide (r y x ∧ ¬r x y)) = front.length := by
    apply List.countP_eq_length.mpr
    intro y hy
    have hbefore : r y x := hfront y hy x (List.mem_cons_self ..)
    have hnot : ¬r x y := by
      intro hafter
      have hsame := htie y (hmem y (List.mem_append_left _ hy)) hbefore hafter
      exact hapart y hy x (List.mem_cons_self ..) hsame
    exact decide_eq_true ⟨hbefore, hnot⟩
  have hbehind : (x :: back).countP (fun y => decide (r y x ∧ ¬r x y)) = 0 := by
    apply List.countP_eq_zero.mpr
    intro y hy
    rcases List.mem_cons.mp hy with rfl | hy
    · simp
    · have hafter : r x y := (List.pairwise_cons.mp hback).1 y hy
      simp [hafter]
  rw [rank, ← hperm.countP_eq, hsplit, List.countP_append, hahead, hbehind, Nat.add_zero]

theorem mem_page_of_rank [Std.Total r] [IsTrans ρ r] (hrows : rows.Nodup) (hx : x ∈ rows)
    (htie : ∀ y ∈ rows, r y x → r x y → y = x) (hfrom : (number - 1) * size ≤ rank r rows x)
    (hto : rank r rows x < (number - 1) * size + size) :
    x ∈ page size number (rows.insertionSort r) := by
  obtain ⟨front, back, hsplit, hlength⟩ := insertionSort_split hrows hx htie
  rw [← hlength] at hfrom hto
  rw [page, hsplit, List.drop_append_of_le_length hfrom, List.take_append, List.length_drop]
  apply List.mem_append_right
  have hroom : size - (front.length - (number - 1) * size) ≠ 0 := by omega
  obtain ⟨room, hroom⟩ := Nat.exists_eq_succ_of_ne_zero hroom
  rw [hroom, List.take_succ_cons]
  exact List.mem_cons_self ..

theorem rank_lt_of_page (hx : x ∈ rows)
    (hshort : (page size number (rows.insertionSort r)).length < size) :
    rank r rows x < (number - 1) * size + size := by
  have hlt := rank_lt (r := r) hx
  rw [page, List.length_take, List.length_drop, List.length_insertionSort] at hshort
  omega

end Rank

/-- A join that selects one side alone has each of its rows once for each partner. -/
def join (partners : ρ → Nat) (rows : List ρ) : List ρ :=
  rows.flatMap fun r => List.replicate (partners r) r

section Join

variable {partners : ρ → Nat} {rows : List ρ} {r : ρ}

theorem mem_join : r ∈ join partners rows ↔ r ∈ rows ∧ partners r ≠ 0 := by
  unfold join
  constructor
  · intro hr
    obtain ⟨row, hrow, hcopy⟩ := List.mem_flatMap.mp hr
    obtain ⟨hpartners, rfl⟩ := List.mem_replicate.mp hcopy
    exact ⟨hrow, hpartners⟩
  · rintro ⟨hr, hpartners⟩
    exact List.mem_flatMap.mpr ⟨r, hr, List.mem_replicate.mpr ⟨hpartners, rfl⟩⟩

theorem nodup_join_iff (hrows : rows.Nodup) :
    (join partners rows).Nodup ↔ ∀ r ∈ rows, partners r ≤ 1 := by
  have hapart : rows.Pairwise fun a b =>
      List.Disjoint (List.replicate (partners a) a) (List.replicate (partners b) b) := by
    apply hrows.imp
    intro a b hne x ha hb
    obtain ⟨-, rfl⟩ := List.mem_replicate.mp ha
    obtain ⟨-, rfl⟩ := List.mem_replicate.mp hb
    exact hne rfl
  unfold join
  rw [List.nodup_flatMap]
  constructor
  · rintro ⟨hcopies, -⟩ r hr
    exact List.nodup_replicate.mp (hcopies r hr)
  · intro hpartners
    exact ⟨fun r hr => List.nodup_replicate.mpr (hpartners r hr), hapart⟩

end Join

end Paging
