import JobRadar.Table

namespace Database.Table

variable {ρ κ : Type} {key : ρ → κ}

/-- The rows that meet a condition, as a table. -/
def select (t : Table key) (p : ρ → Prop) [DecidablePred p] : Table key where
  rows := t.rows.filter p
  unique := t.unique.sublist (List.filter_sublist.map key)

section Views

variable {t t' : Table key} {p q : ρ → Prop} [DecidablePred p] [DecidablePred q] {r : ρ}

theorem mem_select : r ∈ t.select p ↔ r ∈ t ∧ p r := by
  simp [← mem_rows, select]

theorem select_congr (h : ∀ r ∈ t, p r ↔ q r) : t.select p = t.select q :=
  eq_of_rows_eq (List.filter_congr fun r hr => by simp [h r hr])

theorem select_eq_empty (h : ∀ r ∈ t, ¬p r) : t.select p = empty :=
  eq_of_rows_eq (List.filter_eq_nil_iff.mpr fun r hr => by simp [h r hr])

/-- A query within the view. -/
theorem filter_select (h : ∀ r ∈ t, q r → p r) : (t.select p).rows.filter q = t.rows.filter q := by
  change (t.rows.filter p).filter q = _
  rw [List.filter_filter]
  apply List.filter_congr
  intro r hr
  by_cases hq : q r
  · simp [hq, h r hr hq]
  · simp [hq]

section Update

variable {f : ρ → ρ}

theorem select_updateWhere (hf : ∀ r, key (f r) = key r) (hp : ∀ r, p (f r) ↔ p r) :
    (t.updateWhere q f hf).select p = (t.select p).updateWhere q f hf := by
  apply eq_of_rows_eq
  change (t.rows.map _).filter (fun r => decide (p r)) = (t.rows.filter _).map _
  rw [List.filter_map]
  congr 1
  apply List.filter_congr
  intro r _
  by_cases hq : q r <;> simp [hq, hp]

theorem select_updateWhere_of_not (hf : ∀ r, key (f r) = key r) (hp : ∀ r, p (f r) ↔ p r)
    (h : ∀ r ∈ t, q r → ¬p r) :
    (t.updateWhere q f hf).select p = t.select p :=
  eq_of_rows_eq (filter_updateWhere hf fun r hr hq => by simp [hp, h r hr hq])

end Update

theorem select_deleteWhere :
    (t.deleteWhere q).select p = (t.select p).deleteWhere q := by
  apply eq_of_rows_eq
  change (t.rows.filter _).filter p = (t.rows.filter p).filter _
  rw [List.filter_filter, List.filter_filter]
  exact List.filter_congr fun r _ => Bool.and_comm _ _

theorem deleteWhere_congr (h : ∀ r ∈ t, p r ↔ q r) : t.deleteWhere p = t.deleteWhere q :=
  eq_of_rows_eq (List.filter_congr fun r hr => by simp [h r hr])

theorem deleteWhere_of_not (h : ∀ r ∈ t, ¬q r) : t.deleteWhere q = t :=
  eq_of_rows_eq (List.filter_eq_self.mpr fun r hr => by simp [h r hr])

theorem select_deleteWhere_of_not (h : ∀ r ∈ t, p r → ¬q r) :
    (t.deleteWhere q).select p = t.select p := by
  rw [select_deleteWhere]
  exact deleteWhere_of_not fun r hr => h r (mem_select.mp hr).1 (mem_select.mp hr).2

variable [DecidableEq κ]

theorem find_select (t : Table key) (p : ρ → Prop) [DecidablePred p] (k : κ) :
    (t.select p).find k = (t.find k).filter p := by
  cases hfind : t.find k with
  | none =>
    apply find_eq_none_iff.mpr
    intro r hr
    exact find_eq_none_iff.mp hfind r (mem_select.mp hr).1
  | some r =>
    obtain ⟨hr, hk⟩ := find_eq_some_iff.mp hfind
    by_cases hp : p r
    · rw [Option.filter_some, if_pos (decide_eq_true hp)]
      exact find_eq_some_iff.mpr ⟨mem_select.mpr ⟨hr, hp⟩, hk⟩
    · rw [Option.filter_some, if_neg (by simpa using hp)]
      apply find_eq_none_iff.mpr
      intro x hx hxk
      obtain ⟨hxt, hxp⟩ := mem_select.mp hx
      exact hp (eq_of_key_eq hxt hr (hxk.trans hk.symm) ▸ hxp)

/-- The view has the row that is inserted, if it meets the condition. -/
theorem insert_select (h : t.insert r = some t') (hp : p r) :
    (t.select p).insert r = some (t'.select p) := by
  obtain ⟨view, hview⟩ := insert_isSome_of_fresh (t := t.select p) (r := r)
    fun old ho => key_ne_of_insert h (mem_select.mp ho).1
  rw [hview]
  refine congrArg some (eq_of_rows_eq ?_)
  rw [rows_of_insert hview]
  change t.rows.filter p ++ [r] = t'.rows.filter p
  rw [rows_of_insert h, List.filter_append]
  simp [hp]

theorem select_insert (h : t.insert r = some t') (hp : ¬p r) : t'.select p = t.select p :=
  eq_of_rows_eq (filter_insert h hp)

end Views

end Database.Table
