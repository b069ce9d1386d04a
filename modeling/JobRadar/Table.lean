import Mathlib.Data.List.MinMax
import Mathlib.Data.List.Nodup

namespace Database

/-- A table: its rows in storage order, under a unique constraint on `key`. -/
structure Table {ρ κ : Type} (key : ρ → κ) where
  rows : List ρ
  unique : (rows.map key).Nodup

namespace Table

variable {ρ κ : Type} {key : ρ → κ}

def empty : Table key := ⟨[], by simp⟩

instance : Membership ρ (Table key) := ⟨fun t r => r ∈ t.rows⟩

theorem mem_rows {t : Table key} {r : ρ} : r ∈ t.rows ↔ r ∈ t := Iff.rfl

theorem not_mem_empty (r : ρ) : r ∉ (empty : Table key) := by
  simp [← mem_rows, empty]

theorem eq_of_rows_eq {t t' : Table key} (h : t.rows = t'.rows) : t = t' := by
  cases t
  cases t'
  cases h
  rfl

theorem eq_of_key_eq {t : Table key} {r r' : ρ} (hr : r ∈ t) (hr' : r' ∈ t)
    (h : key r = key r') : r = r' :=
  List.inj_on_of_nodup_map t.unique hr hr' h

/-- `UPDATE … SET f WHERE p`, for a column update that leaves the key alone. -/
def updateWhere (t : Table key) (p : ρ → Prop) [DecidablePred p] (f : ρ → ρ)
    (hf : ∀ r, key (f r) = key r) : Table key where
  rows := t.rows.map fun r => if p r then f r else r
  unique := by
    have hk : (key ∘ fun r => if p r then f r else r) = key := by
      funext r
      by_cases hp : p r <;> simp [hp, hf]
    simpa only [List.map_map, hk] using t.unique

section Update

variable {t : Table key} {p : ρ → Prop} [DecidablePred p] {f : ρ → ρ}
  {hf : ∀ r, key (f r) = key r}

theorem mem_updateWhere (hf : ∀ r, key (f r) = key r) {r : ρ} :
    r ∈ t.updateWhere p f hf ↔ ∃ old ∈ t, (if p old then f old else old) = r := by
  simp [← mem_rows, updateWhere]

theorem updateWhere_eq_self (h : ∀ r ∈ t, ¬p r) : t.updateWhere p f hf = t := by
  apply eq_of_rows_eq
  conv_rhs => rw [← List.map_id t.rows]
  exact List.map_congr_left fun r hr => by simp [h r hr]

theorem updateWhere_congr {q : ρ → Prop} [DecidablePred q] (h : ∀ r ∈ t, p r ↔ q r) :
    t.updateWhere p f hf = t.updateWhere q f hf := by
  apply eq_of_rows_eq
  exact List.map_congr_left fun r hr => by simp [h r hr]

/-- An update leaves the rows of a query alone that it neither takes rows from nor adds rows to. -/
theorem filter_updateWhere (hf : ∀ r, key (f r) = key r) {q : ρ → Prop} [DecidablePred q]
    (h : ∀ r ∈ t, p r → ¬q r ∧ ¬q (f r)) :
    (t.updateWhere p f hf).rows.filter q = t.rows.filter q := by
  change (t.rows.map fun r => if p r then f r else r).filter q = _
  have hrows : ∀ r ∈ t.rows, p r → ¬q r ∧ ¬q (f r) := h
  generalize t.rows = rows at hrows
  induction rows with
  | nil => rfl
  | cons r rows ih =>
    have hrest := ih fun x hx => hrows x (List.mem_cons_of_mem _ hx)
    rw [List.map_cons, List.filter_cons, List.filter_cons, hrest]
    by_cases hp : p r
    · obtain ⟨hold, hnew⟩ := hrows r (List.mem_cons_self ..) hp
      simp [hp, hold, hnew]
    · simp [hp]

end Update

/-- `DELETE … WHERE p`. -/
def deleteWhere (t : Table key) (p : ρ → Prop) [DecidablePred p] : Table key where
  rows := t.rows.filter fun r => ¬p r
  unique := t.unique.sublist (List.filter_sublist.map key)

theorem mem_deleteWhere {t : Table key} {p : ρ → Prop} [DecidablePred p] {r : ρ} :
    r ∈ t.deleteWhere p ↔ r ∈ t ∧ ¬p r := by
  simp [← mem_rows, deleteWhere]

variable [DecidableEq κ]

/-- `SELECT … WHERE key = k`. -/
def find (t : Table key) (k : κ) : Option ρ :=
  t.rows.find? fun r => key r = k

theorem find_eq_some_iff {t : Table key} {k : κ} {r : ρ} :
    t.find k = some r ↔ r ∈ t ∧ key r = k := by
  constructor
  · intro h
    exact ⟨List.mem_of_find?_eq_some h, by simpa using List.find?_some h⟩
  · rintro ⟨hr, hk⟩
    cases hf : t.find k with
    | none => simpa [hk] using List.find?_eq_none.mp hf r hr
    | some found =>
      have hm : found ∈ t := List.mem_of_find?_eq_some hf
      have hfk : key found = k := by simpa using List.find?_some hf
      rw [eq_of_key_eq hm hr (hfk.trans hk.symm)]

theorem find_eq_none_iff {t : Table key} {k : κ} : t.find k = none ↔ ∀ r ∈ t, key r ≠ k := by
  simp [find, ← mem_rows]

theorem find_of_mem {t : Table key} {r : ρ} (hr : r ∈ t) : t.find (key r) = some r :=
  find_eq_some_iff.mpr ⟨hr, rfl⟩

theorem find_updateWhere (t : Table key) (p : ρ → Prop) [DecidablePred p] (f : ρ → ρ)
    (hf : ∀ r, key (f r) = key r) (k : κ) :
    (t.updateWhere p f hf).find k = (t.find k).map fun r => if p r then f r else r := by
  have hk : ((fun r => decide (key r = k)) ∘ fun r => if p r then f r else r) =
      fun r => decide (key r = k) := by
    funext r
    by_cases hp : p r <;> simp [hp, hf]
  simp only [find, updateWhere, List.find?_map, hk]

/-- `INSERT`, refused when the key is taken. -/
def insert (t : Table key) (r : ρ) : Option (Table key) :=
  if h : key r ∈ t.rows.map key then none
  else some ⟨t.rows ++ [r], by
    rw [List.map_append, List.map_singleton]
    exact t.unique.append (List.nodup_singleton _) (by simpa using h)⟩

theorem insert_eq_none_iff {t : Table key} {r : ρ} :
    t.insert r = none ↔ ∃ old ∈ t, key old = key r := by
  simp [insert, ← mem_rows]

theorem rows_of_insert {t t' : Table key} {r : ρ} (h : t.insert r = some t') :
    t'.rows = t.rows ++ [r] := by
  unfold insert at h
  split at h
  next => simp at h
  next => cases Option.some.inj h; rfl

theorem mem_of_insert {t t' : Table key} {r x : ρ} (h : t.insert r = some t') :
    x ∈ t' ↔ x ∈ t ∨ x = r := by
  simp [← mem_rows, rows_of_insert h]

theorem filter_insert {t t' : Table key} {r : ρ} {q : ρ → Prop} [DecidablePred q]
    (h : t.insert r = some t') (hr : ¬q r) : t'.rows.filter q = t.rows.filter q := by
  rw [rows_of_insert h, List.filter_append]
  simp [hr]

theorem key_ne_of_insert {t t' : Table key} {r old : ρ} (h : t.insert r = some t')
    (ho : old ∈ t) : key old ≠ key r := by
  intro he
  have hn := insert_eq_none_iff.mpr ⟨old, ho, he⟩
  simp [h] at hn

theorem insert_isSome_of_fresh {t : Table key} {r : ρ} (h : ∀ old ∈ t, key old ≠ key r) :
    ∃ t', t.insert r = some t' := by
  cases hi : t.insert r with
  | none =>
    obtain ⟨old, ho, he⟩ := insert_eq_none_iff.mp hi
    exact absurd he (h old ho)
  | some t' => exact ⟨t', rfl⟩

theorem find_of_insert {t t' : Table key} {r : ρ} (h : t.insert r = some t') (k : κ) :
    t'.find k = if k = key r then some r else t.find k := by
  split
  next hk => exact find_eq_some_iff.mpr ⟨(mem_of_insert h).mpr (Or.inr rfl), hk.symm⟩
  next hk =>
    cases hf : t.find k with
    | none =>
      apply find_eq_none_iff.mpr
      intro x hx hxk
      rcases (mem_of_insert h).mp hx with hm | rfl
      · exact find_eq_none_iff.mp hf x hm hxk
      · exact hk hxk.symm
    | some old =>
      obtain ⟨hm, hok⟩ := find_eq_some_iff.mp hf
      exact find_eq_some_iff.mpr ⟨(mem_of_insert h).mpr (Or.inl hm), hok⟩

theorem find_of_insert_of_find {t t' : Table key} {r old : ρ} {k : κ}
    (h : t.insert r = some t') (ho : t.find k = some old) : t'.find k = some old := by
  obtain ⟨hm, hk⟩ := find_eq_some_iff.mp ho
  rw [find_of_insert h, if_neg (hk ▸ key_ne_of_insert h hm), ho]

/-- The row takes the place of the one that has its key. -/
def put (t : Table key) (r : ρ) : Table key where
  rows := (t.deleteWhere fun old => key old = key r).rows ++ [r]
  unique := by
    rw [List.map_append, List.map_singleton]
    refine (t.deleteWhere _).unique.append (List.nodup_singleton _) ?_
    rw [List.disjoint_singleton]
    intro hk
    obtain ⟨old, ho, hold⟩ := List.mem_map.mp hk
    exact (mem_deleteWhere.mp ho).2 hold

theorem mem_put {t : Table key} {r x : ρ} : x ∈ t.put r ↔ (x ∈ t ∧ key x ≠ key r) ∨ x = r := by
  have happend : x ∈ t.put r ↔ x ∈ t.deleteWhere (fun old => key old = key r) ∨ x = r := by
    simp [← mem_rows, put]
  rw [happend, mem_deleteWhere]

theorem find_put (t : Table key) (r : ρ) (k : κ) :
    (t.put r).find k = if k = key r then some r else t.find k := by
  split
  next hk => exact find_eq_some_iff.mpr ⟨mem_put.mpr (Or.inr rfl), hk.symm⟩
  next hk =>
    cases hf : t.find k with
    | none =>
      apply find_eq_none_iff.mpr
      intro x hx hxk
      rcases mem_put.mp hx with ⟨hm, -⟩ | rfl
      · exact find_eq_none_iff.mp hf x hm hxk
      · exact hk hxk.symm
    | some old =>
      obtain ⟨hm, hok⟩ := find_eq_some_iff.mp hf
      exact find_eq_some_iff.mpr ⟨mem_put.mpr (Or.inl ⟨hm, hok ▸ hk⟩), hok⟩

theorem find_deleteWhere_key (t : Table key) (k₀ k : κ) :
    (t.deleteWhere fun r => key r = k₀).find k = if k = k₀ then none else t.find k := by
  split
  next hk =>
    apply find_eq_none_iff.mpr
    intro x hx hxk
    exact (mem_deleteWhere.mp hx).2 (hxk.trans hk)
  next hk =>
    cases hf : t.find k with
    | none =>
      apply find_eq_none_iff.mpr
      intro x hx
      exact find_eq_none_iff.mp hf x (mem_deleteWhere.mp hx).1
    | some old =>
      obtain ⟨hm, hok⟩ := find_eq_some_iff.mp hf
      exact find_eq_some_iff.mpr ⟨mem_deleteWhere.mpr ⟨hm, hok ▸ hk⟩, hok⟩

/-- The keys that are drawn at random: one that no row has. -/
def freshKey {key : ρ → Nat} (t : Table key) : Nat := (t.rows.map key).foldr max 0 + 1

theorem key_ne_freshKey {key : ρ → Nat} {t : Table key} {r : ρ} (hr : r ∈ t) :
    key r ≠ t.freshKey := by
  have hle : key r ≤ (t.rows.map key).foldr max 0 :=
    List.le_max_of_le' 0 (List.mem_map_of_mem hr) (Nat.le_refl _)
  unfold freshKey
  omega

end Table

theorem unique_append {ρ : Type} {R : ρ → ρ → Prop} {rows : List ρ} {r : ρ}
    (symm : ∀ x y, R x y → R y x) (h : ∀ x ∈ rows, ∀ y ∈ rows, R x y → x = y)
    (hnew : ∀ x ∈ rows, ¬R x r) : ∀ x ∈ rows ++ [r], ∀ y ∈ rows ++ [r], R x y → x = y := by
  intro x hx y hy hxy
  rcases List.mem_append.mp hx with hx' | hx' <;> rcases List.mem_append.mp hy with hy' | hy'
  · exact h x hx' y hy' hxy
  · obtain rfl := List.mem_singleton.mp hy'
    exact absurd hxy (hnew x hx')
  · obtain rfl := List.mem_singleton.mp hx'
    exact absurd (symm x y hxy) (hnew y hy')
  · rw [List.mem_singleton.mp hx', List.mem_singleton.mp hy']

/-- `ORDER BY` is missing: some choice of the row a query comes back with first. -/
structure FirstRow (ρ : Type) where
  pick : List ρ → Option ρ
  mem_of_pick : ∀ rows r, pick rows = some r → r ∈ rows
  pick_of_mem : ∀ rows r, r ∈ rows → pick rows ≠ none

namespace FirstRow

variable {ρ : Type} (first : FirstRow ρ)

/-- Rows in storage order. -/
def head : FirstRow ρ where
  pick := List.head?
  mem_of_pick _ _ h := List.mem_of_mem_head? h
  pick_of_mem rows r h := by cases rows <;> simp_all

theorem pick_eq_none_iff {rows : List ρ} : first.pick rows = none ↔ ∀ r, r ∉ rows := by
  constructor
  · intro hn r hr
    exact first.pick_of_mem rows r hr hn
  · intro hrows
    cases hp : first.pick rows with
    | none => rfl
    | some r => exact absurd (first.mem_of_pick rows r hp) (hrows r)

/-- `ORDER BY f DESC`, some choice among equals. -/
def latest (f : ρ → Nat) (rows : List ρ) : Option ρ :=
  first.pick (rows.filter fun r => ∀ r' ∈ rows, f r' ≤ f r)

variable {first} {f : ρ → Nat} {rows : List ρ} {r : ρ}

theorem latest_spec (h : first.latest f rows = some r) :
    r ∈ rows ∧ ∀ r' ∈ rows, f r' ≤ f r := by
  simpa using first.mem_of_pick _ _ h

theorem exists_latest {x : ρ} (hx : x ∈ rows) : ∃ r, first.latest f rows = some r := by
  have hmax : ∀ rows : List ρ, ∀ x ∈ rows, ∃ r ∈ rows, ∀ r' ∈ rows, f r' ≤ f r := by
    intro rows
    induction rows with
    | nil => simp
    | cons y rows ih =>
      intro x _
      by_cases hy : ∀ r' ∈ rows, f r' ≤ f y
      · exact ⟨y, by simp, by simpa using hy⟩
      · push Not at hy
        obtain ⟨z, hz, hyz⟩ := hy
        obtain ⟨r, hr, hrmax⟩ := ih z hz
        refine ⟨r, List.mem_cons_of_mem _ hr, ?_⟩
        intro r' hr'
        rcases List.mem_cons.mp hr' with rfl | hr'
        · have hzr := hrmax z hz
          omega
        · exact hrmax r' hr'
  obtain ⟨r, hr, hrmax⟩ := hmax rows x hx
  apply Option.ne_none_iff_exists'.mp
  exact first.pick_of_mem _ r (by simpa [hr] using hrmax)

/-- A query that comes back with `r` first wherever it can. -/
def prefer [DecidableEq ρ] (r : ρ) : FirstRow ρ where
  pick rows := if r ∈ rows then some r else rows.head?
  mem_of_pick rows x h := by
    split at h
    next hr => exact Option.some.inj h ▸ hr
    next => exact List.mem_of_mem_head? h
  pick_of_mem rows x h := by
    split
    next => simp
    next => cases rows <;> simp_all

theorem pick_prefer [DecidableEq ρ] (hr : r ∈ rows) : (prefer r).pick rows = some r := if_pos hr

/-- A check of the first row alone finds a row that passes, whichever row comes first, exactly when
the rows do not differ in it. -/
theorem pick_decides_iff [DecidableEq ρ] {p : ρ → Prop} :
    (∀ first : FirstRow ρ, (∃ r, first.pick rows = some r ∧ p r) ↔ ∃ r ∈ rows, p r) ↔
      ¬((∃ r ∈ rows, p r) ∧ ∃ r ∈ rows, ¬p r) := by
  constructor
  · rintro hdecides ⟨hpasses, r, hr, hfails⟩
    obtain ⟨r', hpick, hp⟩ := (hdecides (prefer r)).mpr hpasses
    rw [pick_prefer hr] at hpick
    cases hpick
    exact hfails hp
  · intro hsame first
    constructor
    · rintro ⟨r, hpick, hp⟩
      exact ⟨r, first.mem_of_pick rows r hpick, hp⟩
    · rintro ⟨r, hr, hp⟩
      obtain ⟨r', hpick⟩ := Option.ne_none_iff_exists'.mp (first.pick_of_mem rows r hr)
      refine ⟨r', hpick, ?_⟩
      by_contra hfails
      exact hsame ⟨⟨r, hr, hp⟩, r', first.mem_of_pick rows r' hpick, hfails⟩

theorem latest_prefer [DecidableEq ρ] (hr : r ∈ rows) (hmax : ∀ r' ∈ rows, f r' ≤ f r) :
    (prefer r).latest f rows = some r := by
  have hm : r ∈ rows.filter fun r => ∀ r' ∈ rows, f r' ≤ f r := by
    simpa [hr] using hmax
  exact if_pos hm

end FirstRow

end Database
