import JobRadar.ScoreFilter
import Mathlib.Data.List.Infix

namespace JobRadar

open Database Paging Python

/-- The code points that `LIKE` does not take literally. -/
def IsMark (c : Nat) : Prop := c = 37 ∨ c = 95 ∨ c = 92

instance (c : Nat) : Decidable (IsMark c) := inferInstanceAs (Decidable (_ ∨ _))

section Like

variable {p t needle : Text} {c : Nat}

@[simp] theorem like_nil : like [] t = t.isEmpty := rfl

theorem like_many : like (37 :: p) t = true ↔ ∃ rest, rest <:+ t ∧ like p rest = true := by
  change t.tails.any (like p) = true ↔ _
  rw [List.any_eq_true]
  simp only [List.mem_tails]

theorem like_any : like (95 :: p) t = true ↔ ∃ x rest, t = x :: rest ∧ like p rest = true := by
  change (!t.isEmpty && like p t.tail) = true ↔ _
  cases t with
  | nil => simp
  | cons x rest =>
    constructor
    · intro h
      exact ⟨x, rest, rfl, by simpa using h⟩
    · rintro ⟨y, tail, heq, htail⟩
      cases heq
      simpa using htail

theorem starts_iff {q : Text → Bool} :
    (decide (t.head? = some c) && q t.tail) = true ↔ ∃ rest, t = c :: rest ∧ q rest = true := by
  cases t with
  | nil => simp
  | cons x rest =>
    constructor
    · intro h
      simp only [List.head?_cons, Option.some.injEq, Bool.and_eq_true, decide_eq_true_eq] at h
      exact ⟨rest, by rw [h.1], h.2⟩
    · rintro ⟨rest, heq, hrest⟩
      cases heq
      simpa using hrest

theorem like_escape :
    like (92 :: c :: p) t = true ↔ ∃ rest, t = c :: rest ∧ like p rest = true := by
  change (decide (t.head? = some c) && like p t.tail) = true ↔ _
  exact starts_iff

theorem like_literal (hc : ¬IsMark c) :
    like (c :: p) t = true ↔ ∃ rest, t = c :: rest ∧ like p rest = true := by
  have hmany : c ≠ 37 := fun h => hc (Or.inl h)
  have hany : c ≠ 95 := fun h => hc (Or.inr (Or.inl h))
  have hescape : c ≠ 92 := fun h => hc (Or.inr (Or.inr h))
  rw [like.eq_5 t c p hmany hany (fun _ _ h _ => hescape h)]
  exact starts_iff

theorem like_all : like [37] t = true :=
  like_many.mpr ⟨[], List.nil_suffix, rfl⟩

theorem sqlContains_iff :
    sqlContains t needle = true ↔ ∃ rest, rest <:+ t ∧ like (needle ++ [37]) rest = true :=
  like_many

theorem like_plain (hplain : ∀ y ∈ needle, ¬IsMark y) :
    like (needle ++ [37]) t = true ↔ needle <+: t := by
  induction needle generalizing t with
  | nil => simp [like_all]
  | cons y needle ih =>
    obtain ⟨hy, hrest⟩ := List.forall_mem_cons.mp hplain
    rw [List.cons_append, like_literal hy]
    simp only [ih hrest]
    constructor
    · rintro ⟨rest, rfl, hhead⟩
      exact List.cons_prefix_cons.mpr ⟨rfl, hhead⟩
    · rintro ⟨tail, rfl⟩
      exact ⟨needle ++ tail, rfl, List.prefix_append ..⟩

theorem sqlContains_iff_infix {s : Text}
    (hlike : ∀ t, like (needle ++ [37]) t = true ↔ s <+: t) :
    sqlContains t needle = true ↔ s <:+: t := by
  rw [sqlContains_iff, List.infix_iff_prefix_suffix]
  simp only [hlike]
  constructor
  · rintro ⟨rest, hsuffix, hhead⟩
    exact ⟨rest, hhead, hsuffix⟩
  · rintro ⟨rest, hhead, hsuffix⟩
    exact ⟨rest, hsuffix, hhead⟩

/-- A text without marks is searched for as it is. -/
theorem sqlContains_plain (hplain : ∀ y ∈ needle, ¬IsMark y) :
    sqlContains t needle = true ↔ needle <:+: t :=
  sqlContains_iff_infix fun _ => like_plain hplain

end Like

/-- The marks, and nothing else, become marks. -/
def KeepsMarks (f : Nat → Nat) : Prop := ∀ x y, IsMark y → (f x = y ↔ x = y)

/-- Where the pattern, with a `%` behind it, matches at all, it matches a text that has at most one
mark for each of its backslashes, and half as many backslashes. -/
def Shrinks (f : Nat → Nat) (p : Text) : Prop :=
  ∀ t : Text, like (p ++ [37]) (t.map f) = true → ∃ t' : Text,
    like (p ++ [37]) (t'.map f) = true ∧ 2 * t'.count 92 ≤ p.count 92 ∧
      t'.count 37 ≤ p.count 92 ∧ t'.count 95 ≤ p.count 92

namespace Shrinks

variable {f : Nat → Nat} {p : Text} {c : Nat}

theorem nil : Shrinks f [] := fun _ _ => ⟨[], like_all, by simp⟩

theorem many (h : Shrinks f p) : Shrinks f (37 :: p) := by
  intro t hlike
  obtain ⟨rest, hsuffix, hrest⟩ := like_many.mp hlike
  obtain ⟨tail, -, rfl⟩ := List.suffix_map_iff.mp hsuffix
  obtain ⟨t', hlike', hcounts⟩ := h tail hrest
  exact ⟨t', like_many.mpr ⟨_, List.suffix_rfl, hlike'⟩, by simpa using hcounts⟩

theorem any (h : Shrinks f p) : Shrinks f (95 :: p) := by
  intro t hlike
  obtain ⟨x, rest, ht, hrest⟩ := like_any.mp hlike
  obtain ⟨z, tail, rfl, -, rfl⟩ := List.map_eq_cons_iff.mp ht
  obtain ⟨t', hlike', hcounts⟩ := h tail hrest
  refine ⟨97 :: t', like_any.mpr ⟨_, _, rfl, hlike'⟩, ?_⟩
  simpa using hcounts

theorem escape (hf : KeepsMarks f) (h : Shrinks f p) : Shrinks f (92 :: c :: p) := by
  intro t hlike
  obtain ⟨rest, ht, hrest⟩ := like_escape.mp hlike
  obtain ⟨z, tail, rfl, hz, rfl⟩ := List.map_eq_cons_iff.mp ht
  obtain ⟨t', hlike', hback, hmany, hany⟩ := h tail hrest
  have hescaped : z = 92 → c = 92 := fun h => hz ▸ (hf z 92 (by decide)).mpr h
  refine ⟨z :: t', like_escape.mpr ⟨_, by rw [List.map_cons, hz], hlike'⟩, ?_⟩
  simp only [List.count_cons, beq_iff_eq]
  split_ifs <;> omega

theorem escapeEnd (hf : KeepsMarks f) : Shrinks f [92] := by
  intro t _
  have hone : f 37 = 37 := (hf 37 37 (by decide)).mpr rfl
  exact ⟨[37], like_escape.mpr ⟨[], by rw [List.map_singleton, hone], rfl⟩, by decide⟩

theorem literal (hf : KeepsMarks f) (hc : ¬IsMark c) (h : Shrinks f p) : Shrinks f (c :: p) := by
  intro t hlike
  obtain ⟨rest, ht, hrest⟩ := (like_literal hc).mp hlike
  obtain ⟨z, tail, rfl, hz, rfl⟩ := List.map_eq_cons_iff.mp ht
  obtain ⟨t', hlike', hback, hmany, hany⟩ := h tail hrest
  have hz' : ∀ y, IsMark y → z ≠ y := by
    rintro y hy rfl
    have hself : f z = z := (hf z z hy).mpr rfl
    exact hc (hz ▸ hself.symm ▸ hy)
  refine ⟨z :: t', (like_literal hc).mpr ⟨_, by rw [List.map_cons, hz], hlike'⟩, ?_⟩
  have hc' : c ≠ 92 := fun h => hc (Or.inr (Or.inr h))
  rw [List.count_cons_of_ne (hz' 92 (by decide)), List.count_cons_of_ne (hz' 37 (by decide)),
    List.count_cons_of_ne (hz' 95 (by decide)), List.count_cons_of_ne hc']
  exact ⟨hback, hmany, hany⟩

/-- Two code points at a time, since a backslash takes the next one with it. -/
theorem all (hf : KeepsMarks f) (p : Text) : Shrinks f p := by
  induction p using List.twoStepInduction with
  | nil => exact nil
  | singleton c =>
    by_cases hc : IsMark c
    · rcases hc with rfl | rfl | rfl
      · exact many nil
      · exact any nil
      · exact escapeEnd hf
    · exact literal hf hc nil
  | cons_cons c d p ih ih' =>
    by_cases hc : IsMark c
    · rcases hc with rfl | rfl | rfl
      · exact many (ih' d)
      · exact any (ih' d)
      · exact escape hf ih
    · exact literal hf hc (ih' d)

end Shrinks

/-- The pattern, with a `%` behind it, stands for the texts that begin with a literal one, which is
shorter by the backslashes, or its last backslash makes the `%` literal. -/
def Literal (p : Text) : Prop :=
  (∃ s : Text, s.length ≤ p.length ∧ (92 ∈ p → s.length < p.length) ∧
    ∀ t, like (p ++ [37]) t = true ↔ s <+: t) ∨
  ∀ t, like (p ++ [37]) t = true → t.getLast? = some 37

namespace Literal

variable {p : Text} {c : Nat}

theorem nil : Literal [] := Or.inl ⟨[], Nat.le_refl 0, by simp, by simp [like_all]⟩

theorem step_prefix {s : Text} {q : Text → Bool} (hq : ∀ t, q t = true ↔ s <+: t) {t : Text} :
    (∃ rest, t = c :: rest ∧ q rest = true) ↔ c :: s <+: t := by
  simp only [hq]
  constructor
  · rintro ⟨rest, rfl, hrest⟩
    exact List.cons_prefix_cons.mpr ⟨rfl, hrest⟩
  · rintro ⟨back, rfl⟩
    exact ⟨s ++ back, rfl, List.prefix_append ..⟩

theorem step_last {q : Text → Bool} (hq : ∀ t, q t = true → t.getLast? = some 37) {t : Text} :
    (∃ rest, t = c :: rest ∧ q rest = true) → t.getLast? = some 37 := by
  rintro ⟨rest, rfl, hrest⟩
  rw [List.getLast?_cons, hq rest hrest]
  rfl

theorem literal (hc : ¬IsMark c) (h : Literal p) : Literal (c :: p) := by
  have hback : 92 ∈ c :: p → 92 ∈ p := by
    intro hmem
    rcases List.mem_cons.mp hmem with rfl | hmem
    · exact absurd (Or.inr (Or.inr rfl)) hc
    · exact hmem
  rcases h with ⟨s, hle, hlt, hlike⟩ | hlast
  · refine Or.inl ⟨c :: s, Nat.succ_le_succ hle, fun h => Nat.succ_lt_succ (hlt (hback h)), ?_⟩
    intro t
    rw [List.cons_append, like_literal hc]
    exact step_prefix hlike
  · right
    intro t
    rw [List.cons_append, like_literal hc]
    exact step_last hlast

theorem escape (h : Literal p) : Literal (92 :: c :: p) := by
  rcases h with ⟨s, hle, -, hlike⟩ | hlast
  · refine Or.inl ⟨c :: s, Nat.succ_le_succ (Nat.le_succ_of_le hle), ?_, ?_⟩
    · intro _
      exact Nat.succ_lt_succ (Nat.lt_succ_of_le hle)
    · intro t
      rw [List.cons_append, List.cons_append, like_escape]
      exact step_prefix hlike
  · right
    intro t
    rw [List.cons_append, List.cons_append, like_escape]
    exact step_last hlast

theorem escapeEnd : Literal [92] := by
  right
  intro t hlike
  obtain ⟨rest, rfl, hrest⟩ := like_escape.mp hlike
  rw [like_nil, List.isEmpty_iff] at hrest
  rw [hrest]
  rfl

theorem of_no_wildcard (hmany : 37 ∉ p) (hany : 95 ∉ p) : Literal p := by
  have hmark : ∀ c ∈ p, IsMark c → c = 92 := by
    rintro c hc (rfl | rfl | rfl)
    · exact absurd hc hmany
    · exact absurd hc hany
    · rfl
  clear hmany hany
  induction p using List.twoStepInduction with
  | nil => exact nil
  | singleton c =>
    by_cases hc : IsMark c
    · cases hmark c (List.mem_cons_self ..) hc
      exact escapeEnd
    · exact literal hc nil
  | cons_cons c d p ih ih' =>
    by_cases hc : IsMark c
    · cases hmark c (List.mem_cons_self ..) hc
      exact escape (ih fun x hx => hmark x (by simp [hx]))
    · exact literal hc (ih' d fun x hx => hmark x (List.mem_cons_of_mem c hx))

end Literal

theorem sqlContains_literal {needle : Text} (hmany : 37 ∉ needle) (hany : 95 ∉ needle) :
    (∃ s : Text, s.length ≤ needle.length ∧ (92 ∈ needle → s.length < needle.length) ∧
      ∀ t, sqlContains t needle = true ↔ s <:+: t) ∨
    ∀ t, sqlContains t needle = true → t.getLast? = some 37 := by
  rcases Literal.of_no_wildcard hmany hany with ⟨s, hle, hlt, hlike⟩ | hlast
  · exact Or.inl ⟨s, hle, hlt, fun t => sqlContains_iff_infix hlike⟩
  · right
    intro t hfound
    obtain ⟨rest, ⟨before, rfl⟩, hlike⟩ := sqlContains_iff.mp hfound
    rw [List.getLast?_append, hlast rest hlike]
    rfl

namespace JobCatalog

/-- A job of the user's only source, and nothing else. -/
def single (userId : Uuid) (job : Job) : JobCatalog where
  sources := ⟨[⟨0, userId, "greenhouse", [], []⟩], by simp⟩
  jobs := ⟨⟨[job], by simp⟩, [⟨job.id, 0, [], [], .null⟩]⟩
  profiles := .empty
  matchResults := []
  feedback := []
  columns _ := {}

variable {q : SqlText} {u : Casefold} {userId : Uuid} {job : Job} {f : JobFilters} {pageSize : Nat}

theorem single_visible : (single userId job).visible userId job.id = true := by
  simp [single, RadarDb.visible, Table.find]

theorem single_listed_iff (hsize : 0 < pageSize) (hscore : f.minScore = none) :
    (∃ page, job ∈ ((single userId job).list q u userId f page pageSize).1) ↔
      f.admits q u job {} = true := by
  rw [exists_page_iff hsize]
  constructor
  · rintro ⟨-, ⟨-, hadmits⟩, -⟩
    exact hadmits
  · intro hadmits
    refine ⟨List.mem_singleton.mpr rfl, ⟨single_visible, hadmits⟩, ?_⟩
    intro minScore hmin
    rw [hscore] at hmin
    cases hmin

end JobCatalog

end JobRadar
