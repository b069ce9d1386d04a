import Mathlib.Data.List.Perm.Lattice

namespace Grouping

variable {α ι κ : Type} {key : α → κ}

/-- Items linked to numbered groups, one group for each key in use. -/
structure Grouped (key : α → κ) (links : List (α × ι)) (groups : List (ι × κ)) : Prop where
  ids : (groups.map Prod.fst).Nodup
  keys : (groups.map Prod.snd).Nodup
  linked : ∀ x i, (x, i) ∈ links → (i, key x) ∈ groups
  used : ∀ i k, (i, k) ∈ groups → ∃ x, (x, i) ∈ links

namespace Grouped

variable {links links' : List (α × ι)} {groups groups' : List (ι × κ)}

theorem empty : Grouped key ([] : List (α × ι)) [] :=
  ⟨by simp, by simp, by simp, by simp⟩

theorem key_eq (h : Grouped key links groups) {x : α} {i : ι} {k : κ} (hx : (x, i) ∈ links)
    (hg : (i, k) ∈ groups) : k = key x :=
  congrArg Prod.snd (List.inj_on_of_nodup_map h.ids hg (h.linked x i hx) rfl)

theorem same_iff (h : Grouped key links groups) {x y : α} {i j : ι} (hx : (x, i) ∈ links)
    (hy : (y, j) ∈ links) : i = j ↔ key x = key y := by
  constructor
  · rintro rfl
    exact h.key_eq hy (h.linked x i hx)
  · intro hk
    have hi : (i, key y) ∈ groups := hk ▸ h.linked x i hx
    exact congrArg Prod.fst (List.inj_on_of_nodup_map h.keys hi (h.linked y j hy) rfl)

theorem join (h : Grouped key links groups) {x : α} {i : ι} (hg : (i, key x) ∈ groups) :
    Grouped key (links ++ [(x, i)]) groups where
  ids := h.ids
  keys := h.keys
  linked y j hy := by
    rcases List.mem_append.mp hy with hy | hy
    · exact h.linked y j hy
    · obtain ⟨rfl, rfl⟩ := Prod.mk.inj (List.mem_singleton.mp hy)
      exact hg
  used j k hj := by
    obtain ⟨y, hy⟩ := h.used j k hj
    exact ⟨y, List.mem_append_left _ hy⟩

theorem openGroup (h : Grouped key links groups) {x : α} {i : ι}
    (hi : i ∉ groups.map Prod.fst) (hk : key x ∉ groups.map Prod.snd) :
    Grouped key (links ++ [(x, i)]) (groups ++ [(i, key x)]) where
  ids := by
    rw [List.map_append]
    exact h.ids.append (List.nodup_singleton _) (by simpa using hi)
  keys := by
    rw [List.map_append]
    exact h.keys.append (List.nodup_singleton _) (by simpa using hk)
  linked y j hy := by
    rcases List.mem_append.mp hy with hy | hy
    · exact List.mem_append_left _ (h.linked y j hy)
    · obtain ⟨rfl, rfl⟩ := Prod.mk.inj (List.mem_singleton.mp hy)
      simp
  used j k hj := by
    rcases List.mem_append.mp hj with hj | hj
    · obtain ⟨y, hy⟩ := h.used j k hj
      exact ⟨y, List.mem_append_left _ hy⟩
    · obtain ⟨rfl, -⟩ := Prod.mk.inj (List.mem_singleton.mp hj)
      exact ⟨x, by simp⟩

theorem mem_keys_iff (h : Grouped key links groups) {k : κ} :
    k ∈ groups.map Prod.snd ↔ ∃ x ∈ links.map Prod.fst, key x = k := by
  constructor
  · intro hk
    obtain ⟨⟨i, _⟩, hg, rfl⟩ := List.mem_map.mp hk
    obtain ⟨x, hx⟩ := h.used i _ hg
    exact ⟨x, List.mem_map_of_mem hx, (h.key_eq hx hg).symm⟩
  · rintro ⟨x, hx, rfl⟩
    obtain ⟨⟨_, i⟩, hlink, rfl⟩ := List.mem_map.mp hx
    exact List.mem_map_of_mem (h.linked _ i hlink)

/-- The keys of the groups depend on the items alone, not on their order. -/
theorem keys_perm (h : Grouped key links groups) (h' : Grouped key links' groups')
    (perm : (links.map Prod.fst).Perm (links'.map Prod.fst)) :
    (groups.map Prod.snd).Perm (groups'.map Prod.snd) := by
  rw [List.perm_ext_iff_of_nodup h.keys h'.keys]
  intro k
  simp only [h.mem_keys_iff, h'.mem_keys_iff, perm.mem_iff]

end Grouped

end Grouping
