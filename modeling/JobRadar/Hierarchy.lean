import Mathlib.Data.List.Nodup
import Mathlib.Tactic.Common

namespace Hierarchy

/-- Classes under single inheritance: a parent is nearer to the root than its children. -/
structure Classes (κ : Type) where
  parent : κ → Option κ
  depth : κ → Nat
  depth_lt : ∀ c p, parent c = some p → depth p < depth c

variable {κ β : Type}

namespace Classes

variable (H : Classes κ)

def linearize : Nat → κ → List κ
  | 0, c => [c]
  | fuel + 1, c =>
    match H.parent c with
    | none => [c]
    | some p => c :: linearize fuel p

/-- A class and its ancestors, nearest first. -/
def mro (c : κ) : List κ := H.linearize (H.depth c) c

variable {H} {c k : κ}

theorem linearize_root (h : H.parent c = none) (fuel : Nat) : H.linearize fuel c = [c] := by
  cases fuel with
  | zero => rfl
  | succ fuel => rw [linearize, h]

theorem linearize_eq {m n : Nat} (hm : H.depth c ≤ m) (hn : H.depth c ≤ n) :
    H.linearize m c = H.linearize n c := by
  induction m generalizing n c with
  | zero =>
    have hroot : H.parent c = none := by
      by_contra hparent
      obtain ⟨p, hp⟩ := Option.ne_none_iff_exists'.mp hparent
      have hlt := H.depth_lt c p hp
      omega
    rw [linearize_root hroot, linearize_root hroot]
  | succ m ih =>
    cases hparent : H.parent c with
    | none => rw [linearize_root hparent, linearize_root hparent]
    | some p =>
      have hlt := H.depth_lt c p hparent
      obtain ⟨n, rfl⟩ : ∃ k, n = k + 1 := ⟨n - 1, by omega⟩
      have hrest : H.linearize m p = H.linearize n p := ih (by omega) (by omega)
      simp only [linearize, hparent, hrest]

theorem mro_root (h : H.parent c = none) : H.mro c = [c] := linearize_root h _

theorem mro_child {p : κ} (h : H.parent c = some p) : H.mro c = c :: H.mro p := by
  have hlt := H.depth_lt c p h
  obtain ⟨n, hn⟩ : ∃ n, H.depth c = n + 1 := ⟨H.depth c - 1, by omega⟩
  have hrest : H.linearize n p = H.mro p := linearize_eq (by omega) (Nat.le_refl _)
  rw [mro, hn, linearize, h]
  exact congrArg (c :: ·) hrest

theorem mem_mro_self (c : κ) : c ∈ H.mro c := by
  cases h : H.parent c with
  | none => simp [mro_root h]
  | some p => simp [mro_child h]

theorem mro_of_split {nearer farther : List κ} (h : H.mro c = nearer ++ k :: farther) :
    H.mro k = k :: farther := by
  induction nearer generalizing c with
  | nil =>
    have hhead : H.mro c = k :: farther := h
    cases hparent : H.parent c with
    | none =>
      rw [mro_root hparent] at hhead
      obtain ⟨rfl, -⟩ := List.cons.inj hhead
      rwa [mro_root hparent]
    | some p =>
      rw [mro_child hparent] at hhead
      obtain ⟨rfl, hrest⟩ := List.cons.inj hhead
      rw [mro_child hparent, hrest]
  | cons b nearer ih =>
    cases hparent : H.parent c with
    | none =>
      rw [mro_root hparent] at h
      simp at h
    | some p =>
      rw [mro_child hparent] at h
      exact ih (List.cons.inj h).2

def isInstance [DecidableEq κ] (H : Classes κ) (c k : κ) : Bool := decide (k ∈ H.mro c)

section Tables

variable [DecidableEq κ] (H) (table : List (κ × β))

/-- The entry of the first class in the table that the value is an instance of. -/
def firstMatch (c : κ) : Option β :=
  (table.find? fun entry => H.isInstance c entry.1).map Prod.snd

/-- The entry of the nearest ancestor that the table lists. -/
def nearest (c : κ) : Option β := (H.mro c).findSome? fun k => table.lookup k

/-- No class is listed before one of its descendants. -/
def Specific : Prop := table.Pairwise fun entry later => entry.1 ∉ H.mro later.1

instance : Decidable (H.Specific table) := inferInstanceAs (Decidable (List.Pairwise _ _))

variable {H table}

theorem lookup_eq_none {table : List (κ × β)} (h : ∀ entry ∈ table, entry.1 ≠ k) :
    table.lookup k = none := by
  rw [List.lookup_eq_none_iff]
  intro entry hentry
  simpa using (h entry hentry).symm

theorem firstMatch_isSome_iff :
    (H.firstMatch table c).isSome ↔ ∃ entry ∈ table, entry.1 ∈ H.mro c := by
  simp [firstMatch, isInstance]

theorem firstMatch_eq_nearest (hspecific : H.Specific table) (c : κ) :
    H.firstMatch table c = H.nearest table c := by
  unfold firstMatch nearest
  cases hfind : table.find? fun entry => H.isInstance c entry.1 with
  | none =>
    have hmiss : ∀ k ∈ H.mro c, table.lookup k = none := by
      intro k hk
      refine lookup_eq_none fun entry hentry heq => ?_
      have hnot := List.find?_eq_none.mp hfind entry hentry
      simp only [isInstance, decide_eq_true_eq] at hnot
      exact hnot (heq ▸ hk)
    rw [Option.map_none, eq_comm, List.findSome?_eq_none_iff]
    exact hmiss
  | some entry =>
    obtain ⟨hmatch, earlier, later, htable, hearlier⟩ := List.find?_eq_some_iff_append.mp hfind
    have hmem : entry.1 ∈ H.mro c := by simpa [isInstance] using hmatch
    have hskipped : ∀ e ∈ earlier, e.1 ∉ H.mro c := by simpa [isInstance] using hearlier
    obtain ⟨nearer, farther, hmro, hfirst⟩ := List.eq_append_cons_of_mem hmem
    have hkeep : ∀ e ∈ later, entry.1 ∉ H.mro e.1 := by
      rw [Specific, htable, List.pairwise_append] at hspecific
      exact (List.pairwise_cons.mp hspecific.2.1).1
    rw [Option.map_some, eq_comm, List.findSome?_eq_some_iff]
    refine ⟨nearer, entry.1, farther, hmro, ?_, ?_⟩
    · refine List.lookup_eq_some_iff.mpr ⟨earlier, later, htable, ?_⟩
      intro e he
      have hne : entry.1 ≠ e.1 := fun heq => hskipped e he (heq ▸ hmem)
      simpa using hne
    · intro k hk
      refine lookup_eq_none fun e he heq => ?_
      rw [htable] at he
      rcases List.mem_append.mp he with he | he
      · apply hskipped e he
        rw [hmro, heq]
        exact List.mem_append_left _ hk
      rcases List.mem_cons.mp he with rfl | he
      · exact hfirst (heq ▸ hk)
      · -- the entry is an ancestor of what lies nearer, which the table would list first
        obtain ⟨before, after, rfl⟩ := List.append_of_mem hk
        rw [List.append_assoc, List.cons_append] at hmro
        apply hkeep e he
        rw [heq, mro_of_split hmro]
        simp

end Tables

end Classes

end Hierarchy
