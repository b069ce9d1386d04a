import JobRadar.TextFilters

namespace JobRadar

open Database Python

/-- `casefold` and the database's `lower`, code point by code point. Nothing but a mark becomes a
mark. -/
structure CaseTables extends Casefold where
  lower : Nat → Nat
  fold_ne_nil : ∀ c, fold c ≠ []
  fold_mark : ∀ c, ∀ y ∈ fold c, IsMark y → c = y
  lower_mark : KeepsMarks lower

namespace CaseTables

variable (T : CaseTables)

def sql (jsonText : List Json → Text) : SqlText := ⟨List.map T.lower, jsonText⟩

/-- A part of the name is the company, whatever the case of the letters. -/
def Contains (name company : Text) : Prop :=
  ∃ part, part <:+: name ∧ T.text part = T.text company

/-- The filter lists exactly the jobs, among those the other filters let through, that have the
company in their company names. -/
def CompanyFilterExact (company : Text) : Prop :=
  ∀ (c : JobCatalog) (jsonText : List Json → Text) (userId : Uuid) (f : JobFilters)
    (pageSize : Nat) (job : Job), 0 < pageSize →
    ((∃ page, job ∈ (c.list (T.sql jsonText) T.toCasefold userId
        { f with company := some company } page pageSize).1) ↔
      (∃ page, job ∈ (c.list (T.sql jsonText) T.toCasefold userId
        { f with company := none } page pageSize).1) ∧ T.Contains job.companyName company)

/-- The folded text has no marks, its characters are lowered from just what folds to them alone,
and no part of it comes from one character. -/
structure FoldsPlainly (company : Text) : Prop where
  plain : ∀ y ∈ T.text company, ¬IsMark y
  same : ∀ y ∈ T.text company, ∀ x, T.lower x = y ↔ T.fold x = [y]
  apart : ∀ x, 2 ≤ (T.fold x).length → ¬T.fold x <:+: T.text company

variable {T} {company name t t' : Text} {x y : Nat}

theorem text_cons : T.text (x :: t) = T.fold x ++ T.text t := List.flatMap_cons

theorem length_le_text : t.length ≤ (T.text t).length := by
  induction t with
  | nil => exact Nat.le_refl 0
  | cons x t ih =>
    have hx : 0 < (T.fold x).length := List.length_pos_iff.mpr (T.fold_ne_nil x)
    rw [text_cons, List.length_append, List.length_cons]
    omega

theorem count_text_le (hy : IsMark y) : (T.text t).count y ≤ t.count y := by
  induction t with
  | nil => exact Nat.le_refl 0
  | cons x t ih =>
    have hx : (T.fold x).count y ≤ [x].count y := by
      by_cases hmem : y ∈ T.fold x
      · have hsame := T.fold_mark x y hmem hy
        subst hsame
        have hascii : x < 128 := by
          rcases hy with rfl | rfl | rfl <;> decide
        have hlower : ¬(65 ≤ x ∧ x ≤ 90) := by
          rcases hy with rfl | rfl | rfl <;> decide
        rw [T.fold_ascii x hascii, if_neg hlower]
      · rw [List.count_eq_zero.mpr hmem]
        exact Nat.zero_le _
    have hsplit : (x :: t).count y = [x].count y + t.count y :=
      @List.count_append _ _ y [x] t
    rw [text_cons, List.count_append, hsplit]
    exact Nat.add_le_add hx ih

theorem companyFilterExact_iff (hcompany : company ≠ []) :
    T.CompanyFilterExact company ↔ ∀ name,
      sqlContains (name.map T.lower) (T.text company) = true ↔ T.Contains name company := by
  have hfilter : ∀ (f : JobFilters) jsonText (job : Job) row,
      JobFilters.admits { f with company := some company } (T.sql jsonText) T.toCasefold job row =
        (JobFilters.admits { f with company := none } (T.sql jsonText) T.toCasefold job row &&
          sqlContains (job.companyName.map T.lower) (T.text company)) := by
    intro f jsonText job row
    have hsome : company.isEmpty = false := List.isEmpty_eq_false_iff.mpr hcompany
    simp only [JobFilters.admits, Option.all_some, Option.all_none, hsome, Bool.false_or,
      Bool.and_true]
    rw [Bool.and_right_comm]
    rfl
  constructor
  · intro hexact name
    let job : Job := ⟨⟨[], [], [], []⟩, 1, name, [], []⟩
    have h := hexact (.single 1 job) (fun _ => []) 1 {} 1 job (by decide)
    rw [JobCatalog.single_listed_iff (by decide) rfl, JobCatalog.single_listed_iff (by decide) rfl,
      hfilter] at h
    have hopen : JobFilters.admits { company := none } (T.sql fun _ => []) T.toCasefold job {} =
        true := rfl
    simpa [hopen] using h
  · intro hname c jsonText userId f pageSize job hsize
    rw [JobCatalog.exists_page_iff hsize, JobCatalog.exists_page_iff hsize, ← hname]
    simp only [JobCatalog.Satisfies, hfilter, Bool.and_eq_true]
    tauto

theorem plain_of_exact
    (hexact : ∀ name, sqlContains (name.map T.lower) (T.text company) = true ↔
      T.Contains name company) :
    ∀ y ∈ T.text company, ¬IsMark y := by
  have hown := (hexact company).mpr ⟨company, List.infix_rfl, rfl⟩
  obtain ⟨rest, hsuffix, hrest⟩ := sqlContains_iff.mp hown
  obtain ⟨tail, -, rfl⟩ := List.suffix_map_iff.mp hsuffix
  obtain ⟨t, hlike, hback, hmany, hany⟩ := Shrinks.all T.lower_mark (T.text company) tail hrest
  obtain ⟨part, hpart, hfold⟩ :=
    (hexact t).mp (sqlContains_iff.mpr ⟨_, List.suffix_rfl, hlike⟩)
  have hcount : ∀ y, IsMark y → (T.text company).count y ≤ t.count y := by
    intro y hy
    rw [← hfold]
    exact (count_text_le hy).trans (hpart.sublist.count_le y)
  have hnone : (T.text company).count 92 = 0 := by
    have hle := hcount 92 (by decide)
    omega
  intro y hy hmark
  have hpos := List.count_pos_iff.mpr hy
  rcases hmark with rfl | rfl | rfl
  · have hle := hcount 37 (by decide)
    omega
  · have hle := hcount 95 (by decide)
    omega
  · omega

/-- Without marks the two sides look for parts that are lowered or folded to the same text. -/
theorem exact_iff_same (hplain : ∀ y ∈ T.text company, ¬IsMark y) :
    (∀ name, sqlContains (name.map T.lower) (T.text company) = true ↔ T.Contains name company) ↔
      ∀ part : Text, part.map T.lower = T.text company ↔ T.text part = T.text company := by
  have hfound : ∀ name, sqlContains (name.map T.lower) (T.text company) = true ↔
      ∃ part, part <:+: name ∧ part.map T.lower = T.text company := by
    intro name
    rw [sqlContains_plain hplain, List.infix_map_iff]
    simp only [eq_comm]
  simp only [hfound]
  constructor
  · intro hexact
    have hlower : ∀ part : Text, T.text part = T.text company →
        part.map T.lower = T.text company := by
      intro part hfold
      obtain ⟨whole, hwhole, hsame⟩ := (hexact part).mpr ⟨part, List.infix_rfl, hfold⟩
      have hlong : part.length ≤ whole.length := by
        calc part.length ≤ (T.text part).length := length_le_text
          _ = (whole.map T.lower).length := by rw [hsame, hfold]
          _ = whole.length := List.length_map ..
      rwa [hwhole.eq_of_length_le hlong] at hsame
    intro part
    refine ⟨?_, hlower part⟩
    intro hsame
    obtain ⟨whole, hwhole, hfold⟩ := (hexact part).mp ⟨part, List.infix_rfl, hsame⟩
    have hsize : part.length = whole.length := by
      calc part.length = (part.map T.lower).length := (List.length_map ..).symm
        _ = (whole.map T.lower).length := by rw [hsame, hlower whole hfold]
        _ = whole.length := List.length_map ..
    rwa [hwhole.eq_of_length_le hsize.le] at hfold
  · intro hsame name
    simp only [hsame]
    exact Iff.rfl

theorem text_append : T.text (t ++ t') = T.text t ++ T.text t' := List.flatMap_append

theorem text_eq_lower (h : ∀ x ∈ t, T.fold x = [T.lower x]) : T.text t = t.map T.lower := by
  induction t with
  | nil => rfl
  | cons x t ih =>
    obtain ⟨hx, hrest⟩ := List.forall_mem_cons.mp h
    rw [text_cons, hx, ih hrest]
    rfl

theorem fold_infix_text (hx : x ∈ t) : T.fold x <:+: T.text t := by
  obtain ⟨front, back, rfl⟩ := List.append_of_mem hx
  rw [text_append, text_cons]
  exact ⟨T.text front, T.text back, List.append_assoc ..⟩

theorem text_split {front back : Text} (hlength : (T.text t).length = t.length)
    (hsplit : T.text t = front ++ back) :
    T.text (t.take front.length) = front ∧ T.text (t.drop front.length) = back := by
  have hparts : T.text (t.take front.length) ++ T.text (t.drop front.length) = front ++ back := by
    rw [← text_append, List.take_append_drop, hsplit]
  have hlong : front.length ≤ t.length := by
    rw [← hlength, hsplit, List.length_append]
    omega
  have htake := length_le_text (T := T) (t := t.take front.length)
  have hdrop := length_le_text (T := T) (t := t.drop front.length)
  have hsum := congrArg List.length hparts
  rw [← hsplit, hlength, List.length_append] at hsum
  rw [List.length_take_of_le hlong] at htake
  rw [List.length_drop] at hdrop
  have hfront : (T.text (t.take front.length)).length = front.length := by omega
  exact List.append_inj hparts hfront

theorem length_text_of_lower (h : company.map T.lower = T.text company) :
    (T.text company).length = company.length := by
  rw [← h, List.length_map]

theorem lower_iff_fold_of_same
    (hsame : ∀ part : Text, part.map T.lower = T.text company ↔ T.text part = T.text company)
    (hy : y ∈ T.text company) : T.lower x = y ↔ T.fold x = [y] := by
  have hlower : company.map T.lower = T.text company := (hsame company).mpr rfl
  have hlength := length_text_of_lower hlower
  obtain ⟨front, back, hsplit⟩ := List.append_of_mem hy
  have hsplit' : T.text company = (front ++ [y]) ++ back := by
    rw [hsplit, List.append_assoc]
    rfl
  obtain ⟨hfront, -⟩ := text_split hlength hsplit
  obtain ⟨-, hback⟩ := text_split hlength hsplit'
  -- The company with `x` in the place of `y`.
  have hpart := hsame (company.take front.length ++ x :: company.drop (front ++ [y]).length)
  have hlowered : (company.take front.length ++
      x :: company.drop (front ++ [y]).length).map T.lower = front ++ T.lower x :: back := by
    rw [List.map_append, List.map_cons, List.map_take, List.map_drop, hlower]
    nth_rewrite 1 [hsplit]
    rw [hsplit', List.take_left, List.drop_left]
  rw [hlowered, text_append, text_cons, hfront, hback, hsplit, List.append_cancel_left_eq,
    List.append_cancel_left_eq, List.cons.injEq] at hpart
  have hsingle : T.fold x ++ back = [y] ++ back ↔ T.fold x = [y] := List.append_left_inj back
  rw [List.singleton_append] at hsingle
  rw [hsingle] at hpart
  simpa using hpart

theorem not_fold_infix_of_same
    (hsame : ∀ part : Text, part.map T.lower = T.text company ↔ T.text part = T.text company)
    (hlong : 2 ≤ (T.fold x).length) : ¬T.fold x <:+: T.text company := by
  rintro ⟨front, back, hsplit⟩
  have hlength := length_text_of_lower ((hsame company).mpr rfl)
  have hassoc : T.text company = front ++ (T.fold x ++ back) := by
    rw [← hsplit, List.append_assoc]
  obtain ⟨hfront, -⟩ := text_split hlength hassoc
  obtain ⟨-, hback⟩ := text_split hlength hsplit.symm
  -- The company with `x` in the place of what it folds to is shorter.
  have hfold : T.text (company.take front.length ++
      x :: company.drop (front ++ T.fold x).length) = T.text company := by
    rw [text_append, text_cons, hfront, hback, ← hsplit, List.append_assoc]
  have hsize := congrArg List.length ((hsame _).mpr hfold)
  have htotal := congrArg List.length hsplit
  rw [List.length_map, hlength] at hsize
  rw [hlength] at htotal
  simp only [List.length_append, List.length_cons, List.length_take, List.length_drop] at *
  omega

theorem same_of_lower (hsame : ∀ y ∈ T.text company, ∀ x, T.lower x = y ↔ T.fold x = [y])
    (hlower : t.map T.lower = T.text company) : T.text t = T.text company := by
  rw [← hlower]
  apply text_eq_lower
  intro x hx
  have hmem : T.lower x ∈ T.text company := by
    rw [← hlower]
    exact List.mem_map_of_mem hx
  exact (hsame _ hmem x).mp rfl

theorem lower_of_same (hsame : ∀ y ∈ T.text company, ∀ x, T.lower x = y ↔ T.fold x = [y])
    (hapart : ∀ x, 2 ≤ (T.fold x).length → ¬T.fold x <:+: T.text company)
    (hfold : T.text t = T.text company) : t.map T.lower = T.text company := by
  rw [← hfold]
  symm
  apply text_eq_lower
  intro x hx
  have hinfix : T.fold x <:+: T.text company := hfold ▸ fold_infix_text hx
  have hshort : (T.fold x).length = 1 := by
    have hpos := List.length_pos_iff.mpr (T.fold_ne_nil x)
    have hle : ¬2 ≤ (T.fold x).length := fun hlong => hapart x hlong hinfix
    omega
  obtain ⟨y, hy⟩ := List.length_eq_one_iff.mp hshort
  have hmem : y ∈ T.text company := hinfix.subset (by rw [hy]; exact List.mem_singleton.mpr rfl)
  rw [hy, (hsame y hmem x).mpr hy]

theorem same_parts_iff :
    (∀ part : Text, part.map T.lower = T.text company ↔ T.text part = T.text company) ↔
      (∀ y ∈ T.text company, ∀ x, T.lower x = y ↔ T.fold x = [y]) ∧
      ∀ x, 2 ≤ (T.fold x).length → ¬T.fold x <:+: T.text company := by
  constructor
  · intro hsame
    exact ⟨fun y hy x => lower_iff_fold_of_same hsame hy,
      fun x hlong => not_fold_infix_of_same hsame hlong⟩
  · rintro ⟨hsame, hapart⟩ part
    exact ⟨same_of_lower hsame, lower_of_same hsame hapart⟩

/-- The company filter is exact just for the companies that fold plainly. -/
theorem company_filter_exact_iff (T : CaseTables) (hcompany : company ≠ []) :
    T.CompanyFilterExact company ↔ T.FoldsPlainly company := by
  rw [companyFilterExact_iff hcompany]
  constructor
  · intro hexact
    have hplain := plain_of_exact hexact
    obtain ⟨hsame, hapart⟩ := same_parts_iff.mp ((exact_iff_same hplain).mp hexact)
    exact ⟨hplain, hsame, hapart⟩
  · rintro ⟨hplain, hsame, hapart⟩
    exact (exact_iff_same hplain).mpr (same_parts_iff.mpr ⟨hsame, hapart⟩)

def lowerAscii (c : Nat) : Nat := if 65 ≤ c ∧ c ≤ 90 then c + 32 else c

theorem lowerAscii_mark : KeepsMarks lowerAscii := by
  intro x y hy
  unfold IsMark at hy
  unfold lowerAscii
  split_ifs
  · omega
  · exact Iff.rfl

/-- Tables to compute with: ASCII, and a sharp s that folds to two letters. -/
def german : CaseTables where
  fold c := if c = 223 then [115, 115] else [lowerAscii c]
  fold_ascii c hc := if_neg (by omega)
  lower := lowerAscii
  fold_ne_nil c := by
    split_ifs
    · decide
    · exact List.cons_ne_nil _ _
  fold_mark c y hy hmark := by
    split_ifs at hy
    · have hsharp : ¬IsMark 115 := by decide
      have hy' : y = 115 := by simpa using hy
      exact absurd (hy' ▸ hmark) hsharp
    · exact (lowerAscii_mark c y hmark).mp (List.mem_singleton.mp hy).symm
  lower_mark := lowerAscii_mark

theorem german_acme : german.FoldsPlainly (text "Acme") where
  plain := by decide
  same := by
    intro y hy x
    have hy' : y ≠ 223 := by
      revert y
      decide
    simp only [german]
    split_ifs with hsharp
    · have hkept : lowerAscii x = x := by
        rw [hsharp]
        rfl
      have hne : x ≠ y := fun h => hy' (h ▸ hsharp)
      have hlong : [115, 115] ≠ [y] := by simp
      rw [hkept]
      exact iff_of_false hne hlong
    · exact List.singleton_inj.symm
  apart := by
    intro x hlong
    have hsharp : x = 223 := by
      by_contra hother
      simp [german, hother] at hlong
    subst hsharp
    decide

theorem acme_searched : german.CompanyFilterExact (text "Acme") :=
  (company_filter_exact_iff german (by decide)).mpr german_acme

def jobAt (companyName : Text) : Job := ⟨⟨[], [], [], []⟩, 1, companyName, [], []⟩

/-- A search for its own company does not find a job, and a search for `%` finds one without. -/
theorem german_misses :
    ((JobCatalog.single 1 (jobAt (text "Straße"))).list (german.sql fun _ => []) german.toCasefold 1
      { company := some (text "Straße") } 1 20).2 = 0 ∧
    ¬german.CompanyFilterExact (text "Straße") ∧
    ((JobCatalog.single 1 (jobAt (text "Acme"))).list (german.sql fun _ => []) german.toCasefold 1
      { company := some (text "%") } 1 20).2 = 1 ∧
    ¬german.CompanyFilterExact (text "%") := by
  refine ⟨by decide, ?_, by decide, ?_⟩
  · intro hexact
    have hfound := ((companyFilterExact_iff (by decide)).mp hexact (text "Straße")).mpr
      ⟨text "Straße", List.infix_rfl, rfl⟩
    revert hfound
    decide
  · intro hexact
    obtain ⟨part, hpart, hfold⟩ :=
      ((companyFilterExact_iff (by decide)).mp hexact (text "Acme")).mp (by decide)
    have hmark : (german.text part).count 37 = 1 := by
      rw [hfold]
      decide
    have hname : (text "Acme").count 37 = 0 := by decide
    have hle := (count_text_le (T := german) (t := part) (y := 37) (by decide)).trans
      (hpart.sublist.count_le 37)
    rw [hmark, hname] at hle
    omega

end CaseTables

end JobRadar
