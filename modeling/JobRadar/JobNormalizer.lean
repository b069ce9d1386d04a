import JobRadar.SourceAdapters

namespace JobRadar

open Database Python

def isSurrogate (c : Nat) : Bool := 0xD800 ≤ c ∧ c ≤ 0xDFFF

def isPlain (c : Nat) : Bool := (97 ≤ c ∧ c ≤ 122) ∨ (48 ≤ c ∧ c ≤ 57)

/-- `re.sub(r"[^a-z0-9]+", " ", t)`: a run becomes one blank, written at its end. -/
def subNotPlain : Text → Text
  | [] => []
  | [c] => if isPlain c then [c] else [32]
  | c :: d :: t =>
    if isPlain c then c :: subNotPlain (d :: t)
    else if isPlain d then 32 :: subNotPlain (d :: t)
    else subNotPlain (d :: t)

def normalizeCompany (lib : Stdlib) (value : Text) : Text :=
  (subNotPlain (lib.casefold.text value)).strip

/-- The text must encode as UTF-8, which a lone surrogate does not. -/
def descriptionHash (lib : Stdlib) (description : Text) : Except PyError Text :=
  if description.strip.any isSurrogate then .error .unicodeEncodeError
  else .ok (lib.sha256 description.strip)

/-- A method of `str`, called on any value. -/
def asText : Json → Except PyError Text
  | .str t => .ok t
  | _ => .error .attributeError

def normalizeRecord (lib : Stdlib) (record : RawJobRecord) (companyName : Text) :
    Except PyError JobCandidate := do
  let title ← asText record.title
  let description ← asText (record.description.orElse (.str []))
  let hash ← descriptionHash lib description
  return {
    title := Text.joinSpaces title.words
    companyName := companyName.strip
    companyNormalized := normalizeCompany lib companyName
    description := description
    descriptionHash := hash
    locations := if record.location.truthy then [record.location] else []
    applicationUrl := record.applicationUrl
    externalId := record.externalId
    rawPayload := record.rawPayload }

theorem subNotPlain_ascii (t : Text) : ∀ c ∈ subNotPlain t, 32 ≤ c ∧ c < 128 := by
  induction t using subNotPlain.induct with
  | case1 => simp [subNotPlain]
  | case2 c hc =>
    intro x hx
    simp only [subNotPlain, hc, if_true, List.mem_singleton] at hx
    simp only [isPlain, decide_eq_true_eq] at hc
    omega
  | case3 c hc =>
    intro x hx
    rw [subNotPlain, if_neg hc, List.mem_singleton] at hx
    omega
  | case4 c d t hc ih =>
    intro x hx
    rw [subNotPlain, if_pos hc] at hx
    rcases List.mem_cons.mp hx with rfl | hx
    · simp only [isPlain, decide_eq_true_eq] at hc
      omega
    · exact ih x hx
  | case5 c d t hc hd ih =>
    intro x hx
    rw [subNotPlain, if_neg hc, if_pos hd] at hx
    rcases List.mem_cons.mp hx with rfl | hx
    · omega
    · exact ih x hx
  | case6 c d t hc hd ih =>
    intro x hx
    rw [subNotPlain, if_neg hc, if_neg hd] at hx
    exact ih x hx

theorem storable_of_ascii {t : Text} (h : ∀ c ∈ t, 32 ≤ c ∧ c < 128) : storable t := by
  simp only [storable, List.all_eq_true, decide_eq_true_eq]
  intro c hc
  have hascii := h c hc
  omega

theorem normalizeCompany_storable (lib : Stdlib) (value : Text) :
    storable (normalizeCompany lib value) :=
  storable_of_ascii fun c hc => subNotPlain_ascii _ c (Text.mem_of_mem_strip hc)

/-- The listing has a title and, if any, a description that are text. -/
structure RawJobRecord.Legible (record : RawJobRecord) : Prop where
  title : ∃ t, record.title = .str t
  description : record.description.truthy →
    ∃ t, record.description = .str t ∧ ∀ c ∈ t.strip, ¬isSurrogate c

/-- What a candidate has however its listing looked. -/
structure JobCandidate.Normalized (c : JobCandidate) : Prop where
  company : storable c.companyNormalized
  hash : storable c.descriptionHash ∧ c.descriptionHash.length ≤ 64

section Normalize

variable {lib : Stdlib} {record : RawJobRecord} {companyName : Text} {c : JobCandidate}

theorem asText_eq_ok_iff {value : Json} {t : Text} : asText value = .ok t ↔ value = .str t := by
  cases value <;> simp [asText]

theorem descriptionHash_eq_ok_iff {t hash : Text} : descriptionHash lib t = .ok hash ↔
    (∀ c ∈ t.strip, ¬isSurrogate c) ∧ lib.sha256 t.strip = hash := by
  unfold descriptionHash
  split
  next h =>
    obtain ⟨c, hc, hs⟩ := List.any_eq_true.mp h
    simp only [reduceCtorEq, false_iff]
    intro hall
    exact hall.1 c hc hs
  next h =>
    have hall : ∀ c ∈ t.strip, ¬isSurrogate c :=
      fun c hc hs => h (List.any_eq_true.mpr ⟨c, hc, hs⟩)
    simp only [Except.ok.injEq, iff_and_self]
    exact fun _ => hall

theorem normalizeRecord_ok (h : normalizeRecord lib record companyName = .ok c) :
    ∃ title description, record.title = .str title ∧
      record.description.orElse (.str []) = .str description ∧
      (∀ x ∈ description.strip, ¬isSurrogate x) ∧
      c.companyNormalized = normalizeCompany lib companyName ∧
      c.descriptionHash = lib.sha256 description.strip := by
  simp only [normalizeRecord, bind, Except.bind, pure, Except.pure] at h
  split at h
  next => cases h
  next title htitle =>
    split at h
    next => cases h
    next description hdescription =>
      split at h
      next => cases h
      next hash hhash =>
        obtain ⟨hencodes, rfl⟩ := descriptionHash_eq_ok_iff.mp hhash
        cases h
        exact ⟨title, description, asText_eq_ok_iff.mp htitle, asText_eq_ok_iff.mp hdescription,
          hencodes, rfl, rfl⟩

theorem normalizeRecord_externalId (h : normalizeRecord lib record companyName = .ok c) :
    c.externalId = record.externalId := by
  simp only [normalizeRecord, bind, Except.bind, pure, Except.pure] at h
  split at h
  next => cases h
  next =>
    split at h
    next => cases h
    next =>
      split at h
      next => cases h
      next => cases h; rfl

theorem normalizeRecord_error {e : PyError}
    (h : normalizeRecord lib record companyName = .error e) :
    e = .attributeError ∨ e = .unicodeEncodeError := by
  have hasText : ∀ {value : Json}, asText value = .error e → e = .attributeError := by
    intro value hvalue
    cases value <;> simp_all [asText]
  simp only [normalizeRecord, bind, Except.bind, pure, Except.pure] at h
  split at h
  next htitle => cases h; exact Or.inl (hasText htitle)
  next =>
    split at h
    next hdescription => cases h; exact Or.inl (hasText hdescription)
    next =>
      split at h
      next hhash =>
        cases h
        unfold descriptionHash at hhash
        split at hhash
        next => cases hhash; exact Or.inr rfl
        next => cases hhash
      next => cases h

theorem legible_iff (lib : Stdlib) (companyName : Text) :
    record.Legible ↔ ∃ c, normalizeRecord lib record companyName = .ok c := by
  constructor
  · rintro ⟨⟨title, htitle⟩, hdescription⟩
    obtain ⟨description, hd, hencodes⟩ : ∃ description,
        record.description.orElse (.str []) = .str description ∧
          ∀ x ∈ description.strip, ¬isSurrogate x := by
      by_cases ht : record.description.truthy
      · obtain ⟨t, heq, hencodes⟩ := hdescription ht
        exact ⟨t, by rw [Json.orElse, if_pos ht, heq], hencodes⟩
      · exact ⟨[], by rw [Json.orElse, if_neg ht], by simp [Text.strip]⟩
    simp only [normalizeRecord, asText_eq_ok_iff.mpr htitle, asText_eq_ok_iff.mpr hd,
      descriptionHash_eq_ok_iff.mpr ⟨hencodes, rfl⟩, bind, Except.bind, pure, Except.pure]
    exact ⟨_, rfl⟩
  · rintro ⟨c, hc⟩
    obtain ⟨title, description, htitle, hdescription, hencodes, -⟩ := normalizeRecord_ok hc
    refine ⟨⟨title, htitle⟩, ?_⟩
    intro ht
    rw [Json.orElse, if_pos ht] at hdescription
    exact ⟨description, hdescription, hencodes⟩

theorem normalizeRecord_normalized (h : normalizeRecord lib record companyName = .ok c) :
    c.Normalized := by
  obtain ⟨_, description, _, _, _, hcompany, hhash⟩ := normalizeRecord_ok h
  constructor
  · rw [hcompany]
    exact normalizeCompany_storable lib companyName
  · rw [hhash, lib.sha256_length]
    refine ⟨storable_of_ascii ?_, by decide⟩
    intro x hx
    have hascii := lib.sha256_ascii _ x hx
    omega

end Normalize

end JobRadar
