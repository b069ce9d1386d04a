import Mathlib.Data.List.Infix

namespace Blocks

variable {α : Type} {s : List α} {blocks : List (List α)}

/-- The beginning of the blocks is the beginning of the first few, no more than it is long. -/
theorem prefix_flatten (hblocks : ∀ x ∈ blocks, x ≠ []) (h : s <+: blocks.flatten) :
    ∃ front, front <+: blocks ∧ front.length ≤ s.length ∧ s <+: front.flatten := by
  induction blocks generalizing s with
  | nil => exact ⟨[], List.nil_prefix, Nat.zero_le _, h⟩
  | cons x blocks ih =>
    obtain ⟨hx, hrest⟩ := List.forall_mem_cons.mp hblocks
    rw [List.flatten_cons] at h
    rcases List.prefix_or_prefix_of_prefix h (List.prefix_append x blocks.flatten) with hs | hs
    · cases s with
      | nil => exact ⟨[], List.nil_prefix, Nat.le_refl 0, List.nil_prefix⟩
      | cons a s =>
        refine ⟨[x], ⟨blocks, rfl⟩, Nat.succ_le_succ (Nat.zero_le _), ?_⟩
        simpa using hs
    · obtain ⟨rest, rfl⟩ := hs
      obtain ⟨front, hfront, hlength, hhead⟩ :=
        ih hrest ((List.prefix_append_right_inj x).mp h)
      refine ⟨x :: front, List.cons_prefix_cons.mpr ⟨rfl, hfront⟩, ?_, ?_⟩
      · have hpos := List.length_pos_iff.mpr hx
        rw [List.length_cons, List.length_append]
        omega
      · rw [List.flatten_cons]
        exact (List.prefix_append_right_inj x).mpr hhead

theorem infix_flatten (hs : s ≠ []) (h : s <:+: blocks.flatten) : ∃ front x back b,
    blocks = front ++ x :: back ∧ b ≠ [] ∧ b <:+ x ∧ s <+: b ++ back.flatten := by
  induction blocks with
  | nil => exact absurd (List.infix_nil.mp h) hs
  | cons x blocks ih =>
    rw [List.flatten_cons] at h
    rcases List.infix_append_iff_ne_nil.mp h with hx | hrest | ⟨b, t, hb, -, rfl, hsuffix, hhead⟩
    · obtain ⟨before, after, rfl⟩ := hx
      refine ⟨[], _, blocks, s ++ after, rfl, ?_, ⟨before, (List.append_assoc ..).symm⟩, ?_⟩
      · exact List.append_ne_nil_of_left_ne_nil hs after
      · rw [List.append_assoc]
        exact List.prefix_append ..
    · obtain ⟨front, y, back, b, rfl, hb⟩ := ih hrest
      exact ⟨x :: front, y, back, b, rfl, hb⟩
    · exact ⟨[], x, blocks, b, rfl, hb, hsuffix, (List.prefix_append_right_inj b).mpr hhead⟩

theorem touched (hblocks : ∀ x ∈ blocks, x ≠ []) (h : s <:+: blocks.flatten) :
    ∃ part, part <:+: blocks ∧ part.length ≤ s.length ∧ s <:+: part.flatten := by
  by_cases hs : s = []
  · subst hs
    exact ⟨[], List.nil_infix, Nat.le_refl 0, List.nil_infix⟩
  obtain ⟨front, x, back, b, rfl, hb, ⟨before, rfl⟩, hhead⟩ := infix_flatten hs h
  have hback : ∀ y ∈ back, y ≠ [] := fun y hy => hblocks y (by simp [hy])
  rcases List.prefix_or_prefix_of_prefix hhead (List.prefix_append b back.flatten) with hin | hout
  · refine ⟨[before ++ b], ⟨front, back, by simp⟩, List.length_pos_iff.mpr hs, ?_⟩
    rw [List.flatten_singleton]
    exact hin.isInfix.trans (List.suffix_append before b).isInfix
  · obtain ⟨rest, rfl⟩ := hout
    obtain ⟨few, ⟨others, rfl⟩, hlength, hfew⟩ :=
      prefix_flatten hback ((List.prefix_append_right_inj b).mp hhead)
    refine ⟨(before ++ b) :: few, ⟨front, others, by simp⟩, ?_, ?_⟩
    · have hpos := List.length_pos_iff.mpr hb
      rw [List.length_cons, List.length_append]
      omega
    · rw [List.flatten_cons, List.append_assoc]
      have hpart : b ++ rest <+: b ++ few.flatten := (List.prefix_append_right_inj b).mpr hfew
      exact hpart.isInfix.trans (List.suffix_append before _).isInfix

variable {sep : α} {a b : List α}

theorem infix_around (hsep : sep ∉ s) : s <:+: a ++ sep :: b ↔ s <:+: a ∨ s <:+: b := by
  constructor
  · intro h
    rcases List.infix_append_iff_ne_nil.mp h with ha | hb | ⟨l, t, -, ht, rfl, -, hhead⟩
    · exact Or.inl ha
    · rcases List.infix_cons_iff.mp hb with hhead | hb
      · rcases List.prefix_cons_iff.mp hhead with rfl | ⟨t, rfl, -⟩
        · exact Or.inr List.nil_infix
        · exact absurd (List.mem_cons_self ..) hsep
      · exact Or.inr hb
    · rcases List.prefix_cons_iff.mp hhead with rfl | ⟨t, rfl, -⟩
      · exact absurd rfl ht
      · exact absurd (by simp) hsep
  · rintro (ha | hb)
    · exact ha.trans (List.prefix_append ..).isInfix
    · exact (hb.trans (List.suffix_cons sep b).isInfix).trans (List.suffix_append ..).isInfix

end Blocks
