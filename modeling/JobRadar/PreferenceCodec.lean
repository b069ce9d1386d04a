import JobRadar.JsonReader
import JobRadar.PerfectMatch

namespace JobRadar

open Database Python

/-- What Pydantic makes of JSON scalars: the code points it takes in a `str`, and what it converts
to `int` and to `float`. -/
structure Pydantic where
  char : Nat → Bool
  toInt : Json → Option Int
  toFloat : Json → Option Text
  char_ascii : ∀ c < 128, char c = true
  toInt_int : ∀ n, toInt (.int n) = some n
  toFloat_float : ∀ repr, toFloat (.float repr) = some repr

namespace Pydantic

open Reader

variable (P : Pydantic)

def str : Reader Text
  | .str t => if t.all P.char then some t else none
  | _ => none

/-- `int` with `ge=0`. -/
def natural : Reader Nat := fun value =>
  (P.toInt value).bind fun n => if 0 ≤ n then some n.toNat else none

def float : Reader Text := P.toFloat

def texts (d : Dict) (key : String) : Option (List Text) := field d key [] P.str.list

def skills : Reader Skills := model fun d => do
  let mustHave ← P.texts d "must_have"
  let niceToHave ← P.texts d "nice_to_have"
  return ⟨mustHave, niceToHave⟩

def locations : Reader Locations := model fun d => (P.texts d "preferred").map Locations.mk

def experience : Reader Experience := model fun d => do
  let min ← field d "min" none P.natural.nullable
  let max ← field d "max" none P.natural.nullable
  return ⟨min, max⟩

def salary : Reader Salary := model fun d =>
  (field d "minimum_lpa" none P.float.nullable).map Salary.mk

def companies : Reader Companies := model fun d => (P.texts d "preferred").map Companies.mk

def matching : Reader Matching := model fun d =>
  (field d "minimum_score" 75 P.natural).map Matching.mk

/-- The fields of `PreferenceInput` with their types. -/
def preferenceFields (d : Dict) : Option PreferenceInput := do
  let titles ← P.texts d "titles"
  let skills ← field d "skills" {} P.skills
  let locations ← field d "locations" {} P.locations
  let workMode ← P.texts d "work_mode"
  let experience ← field d "experience" {} P.experience
  let salary ← field d "salary" {} P.salary
  let companies ← field d "companies" {} P.companies
  let exclusions ← P.texts d "exclusions"
  let matching ← field d "matching" {} P.matching
  return ⟨titles, skills, locations, workMode, experience, salary, companies, exclusions, matching⟩

def preferenceKeys : List Text :=
  ["titles", "skills", "locations", "work_mode", "experience", "salary", "companies", "exclusions",
    "matching"].map text

/-- `PreferenceInput.model_validate`, which takes no other keys. -/
def preferenceInput (u : Casefold) : Reader PreferenceInput := model fun d =>
  if d.all fun f => preferenceKeys.contains f.1 then
    (P.preferenceFields d).bind (·.validate u)
  else
    none

/-- `dict[str, int]`. -/
def weights : Reader (List (Text × Int)) := model fun d =>
  d.mapM fun f => if f.1.all P.char then (P.toInt f.2).map (f.1, ·) else none

end Pydantic

/-- What the JSON serializer writes of a float: infinities and NaN become null. -/
def dumpFloat (repr : Text) : Json :=
  if [text "nan", text "inf", text "-inf"].contains repr then .null else .float repr

def dumpTexts (values : List Text) : Json := .arr (values.map .str)

def dumpNatural (n : Nat) : Json := .int n

def dumpOptional {α : Type} (print : α → Json) (value : Option α) : Json :=
  (value.map print).getD .null

def normalizePreferences (p : PreferenceInput) : Dict :=
  [(text "titles", dumpTexts p.titles),
    (text "skills", .obj [(text "must_have", dumpTexts p.skills.mustHave),
      (text "nice_to_have", dumpTexts p.skills.niceToHave)]),
    (text "locations", .obj [(text "preferred", dumpTexts p.locations.preferred)]),
    (text "work_mode", dumpTexts p.workMode),
    (text "experience", .obj [(text "min", dumpOptional dumpNatural p.experience.min),
      (text "max", dumpOptional dumpNatural p.experience.max)]),
    (text "salary", .obj [(text "minimum_lpa", dumpOptional dumpFloat p.salary.minimumLpa)]),
    (text "companies", .obj [(text "preferred", dumpTexts p.companies.preferred)]),
    (text "exclusions", dumpTexts p.exclusions),
    (text "matching", .obj [(text "minimum_score", dumpNatural p.matching.minimumScore)])]

namespace PreferenceInput

def texts (p : PreferenceInput) : List Text :=
  p.titles ++ p.skills.mustHave ++ p.skills.niceToHave ++ p.locations.preferred ++ p.workMode ++
    p.companies.preferred ++ p.exclusions

/-- The salary is a number that JSON has, or there is none. -/
def Finite (p : PreferenceInput) : Prop :=
  ∀ amount ∈ p.salary.minimumLpa, amount ∉ [text "nan", text "inf", text "-inf"]

end PreferenceInput

section Validation

variable {u : Casefold} {P : Pydantic} {p q : PreferenceInput}

theorem cleanValues_eq_some {values cleaned : List Text} (h : cleanValues u values = some cleaned) :
    cleaned = values.map Text.strip ∧ (∀ t ∈ cleaned, t ≠ []) ∧ (cleaned.map u.text).Nodup := by
  unfold cleanValues at h
  dsimp only at h
  split at h
  next => cases h
  next hclean =>
    cases h
    rw [not_or, not_not] at hclean
    refine ⟨rfl, fun t ht hempty => hclean.1 ?_, hclean.2⟩
    exact List.any_eq_true.mpr ⟨t, ht, by rw [hempty]; rfl⟩

theorem cleanValues_cleaned {values cleaned : List Text}
    (h : cleanValues u values = some cleaned) : cleanValues u cleaned = some cleaned := by
  obtain ⟨hcleaned, hfull, hnodup⟩ := cleanValues_eq_some h
  have hstrip : cleaned.map Text.strip = cleaned := by
    rw [hcleaned, List.map_map]
    exact List.map_congr_left fun t _ => Text.strip_strip t
  unfold cleanValues
  dsimp only
  rw [hstrip, if_neg]
  rw [not_or, not_not]
  refine ⟨fun hany => ?_, hnodup⟩
  obtain ⟨t, ht, hempty⟩ := List.any_eq_true.mp hany
  exact hfull t ht (List.isEmpty_iff.mp hempty)

/-- What the validators of the fields find of the cleaned preferences. -/
structure PreferenceInput.Cleaned (u : Casefold) (p q : PreferenceInput) : Prop where
  titles : cleanValues u p.titles = some q.titles
  mustHave : cleanValues u p.skills.mustHave = some q.skills.mustHave
  niceToHave : cleanValues u p.skills.niceToHave = some q.skills.niceToHave
  locations : cleanValues u p.locations.preferred = some q.locations.preferred
  workMode : cleanValues u p.workMode = some q.workMode
  companies : cleanValues u p.companies.preferred = some q.companies.preferred
  exclusions : cleanValues u p.exclusions = some q.exclusions
  kept : q.experience = p.experience ∧ q.salary = p.salary ∧ q.matching = p.matching
  supported : (q.workMode.all fun mode => supportedWorkModes.contains mode) = true
  inRange : q.experience.InRange
  nonnegative : ∀ amount ∈ q.salary.minimumLpa, nonnegative amount = true
  atMost : q.matching.minimumScore ≤ 100

theorem validate_eq_some_iff : p.validate u = some q ↔ p.Cleaned u q := by
  constructor
  · intro h
    simp only [PreferenceInput.validate, Option.bind_eq_bind, Option.bind_eq_some_iff] at h
    obtain ⟨titles, htitles, mustHave, hmust, niceToHave, hnice, locations, hlocations, workMode,
      hmode, companies, hcompanies, exclusions, hexclusions, h⟩ := h
    split at h
    next hchecked =>
      obtain ⟨hsupported, hrange, hamount, hscore⟩ := hchecked
      cases h
      exact ⟨htitles, hmust, hnice, hlocations, hmode, hcompanies, hexclusions, ⟨rfl, rfl, rfl⟩,
        hsupported, hrange, hamount, hscore⟩
    next => cases h
  · intro h
    obtain ⟨hexperience, hsalary, hmatching⟩ := h.kept
    have hchecked := And.intro h.supported (And.intro h.inRange (And.intro h.nonnegative h.atMost))
    rw [hexperience, hsalary, hmatching] at hchecked
    simp only [PreferenceInput.validate, h.titles, h.mustHave, h.niceToHave, h.locations,
      h.workMode, h.companies, h.exclusions, Option.bind_eq_bind, Option.bind_some]
    rw [if_pos hchecked, ← hexperience, ← hsalary, ← hmatching]

theorem validate_validated (h : p.validate u = some q) : q.validate u = some q := by
  have hc := validate_eq_some_iff.mp h
  exact validate_eq_some_iff.mpr
    { titles := cleanValues_cleaned hc.titles
      mustHave := cleanValues_cleaned hc.mustHave
      niceToHave := cleanValues_cleaned hc.niceToHave
      locations := cleanValues_cleaned hc.locations
      workMode := cleanValues_cleaned hc.workMode
      companies := cleanValues_cleaned hc.companies
      exclusions := cleanValues_cleaned hc.exclusions
      kept := ⟨rfl, rfl, rfl⟩
      supported := hc.supported
      inRange := hc.inRange
      nonnegative := hc.nonnegative
      atMost := hc.atMost }

theorem mem_cleanValues {values cleaned : List Text} (h : cleanValues u values = some cleaned) :
    ∀ t ∈ cleaned, ∃ t' ∈ values, t = t'.strip := by
  rw [(cleanValues_eq_some h).1]
  intro t ht
  obtain ⟨t', ht', rfl⟩ := List.mem_map.mp ht
  exact ⟨t', ht', rfl⟩

/-- Every text of validated preferences is one they were given, stripped. -/
theorem mem_texts_validate (h : p.validate u = some q) : ∀ t ∈ q.texts, ∃ t' ∈ p.texts,
    t = t'.strip := by
  have hc := validate_eq_some_iff.mp h
  intro t ht
  simp only [PreferenceInput.texts, List.mem_append] at ht ⊢
  have hfrom : ∀ {values cleaned : List Text}, cleanValues u values = some cleaned →
      t ∈ cleaned → ∃ t' ∈ values, t = t'.strip := fun hclean hmem => mem_cleanValues hclean t hmem
  rcases ht with (((((ht | ht) | ht) | ht) | ht) | ht) | ht
  · obtain ⟨t', ht', heq⟩ := hfrom hc.titles ht
    exact ⟨t', by simp only [ht', true_or], heq⟩
  · obtain ⟨t', ht', heq⟩ := hfrom hc.mustHave ht
    exact ⟨t', by simp only [ht', true_or, or_true], heq⟩
  · obtain ⟨t', ht', heq⟩ := hfrom hc.niceToHave ht
    exact ⟨t', by simp only [ht', true_or, or_true], heq⟩
  · obtain ⟨t', ht', heq⟩ := hfrom hc.locations ht
    exact ⟨t', by simp only [ht', true_or, or_true], heq⟩
  · obtain ⟨t', ht', heq⟩ := hfrom hc.workMode ht
    exact ⟨t', by simp only [ht', true_or, or_true], heq⟩
  · obtain ⟨t', ht', heq⟩ := hfrom hc.companies ht
    exact ⟨t', by simp only [ht', true_or, or_true], heq⟩
  · obtain ⟨t', ht', heq⟩ := hfrom hc.exclusions ht
    exact ⟨t', by simp only [ht', or_true], heq⟩

theorem all_char_strip {t : Text} (h : t.all P.char = true) : t.strip.all P.char = true := by
  rw [List.all_eq_true] at h ⊢
  exact fun c hc => h c (Text.mem_of_mem_strip hc)

end Validation

section Dump

open Reader

variable {u : Casefold} {P : Pydantic} {p q : PreferenceInput} {d : Dict} {key : String}

theorem Pydantic.str_eq_some {value : Json} {t : Text} (h : P.str value = some t) :
    t.all P.char = true := by
  unfold Pydantic.str at h
  split at h
  next =>
    split at h
    next hchars =>
      cases h
      exact hchars
    next => cases h
  next => cases h

theorem texts_chars {values : List Text} (h : P.texts d key = some values) :
    ∀ t ∈ values, t.all P.char = true := by
  intro t ht
  rcases field_eq_some h with rfl | ⟨value, hvalue⟩
  · exact absurd ht List.not_mem_nil
  · obtain ⟨item, hitem⟩ := of_mem_list hvalue t ht
    exact Pydantic.str_eq_some hitem

theorem skills_chars {skills : Skills} (h : field d key {} P.skills = some skills) :
    ∀ t ∈ skills.mustHave ++ skills.niceToHave, t.all P.char = true := by
  intro t ht
  rcases field_eq_some h with rfl | ⟨value, hvalue⟩
  · exact absurd ht List.not_mem_nil
  · obtain ⟨fields, -, hfields⟩ := model_eq_some hvalue
    obtain ⟨mustHave, hmust, hfields⟩ := Option.bind_eq_some_iff.mp hfields
    obtain ⟨niceToHave, hnice, hfields⟩ := Option.bind_eq_some_iff.mp hfields
    cases hfields
    rcases List.mem_append.mp ht with ht | ht
    · exact texts_chars hmust t ht
    · exact texts_chars hnice t ht

theorem preferred_chars {α : Type} {default x : α} (mk : List Text → α)
    (preferred : α → List Text) (hmk : ∀ values, preferred (mk values) = values)
    (hdefault : preferred default = [])
    (h : field d key default (model fun d => (P.texts d "preferred").map mk) = some x) :
    ∀ t ∈ preferred x, t.all P.char = true := by
  intro t ht
  rcases field_eq_some h with rfl | ⟨value, hvalue⟩
  · rw [hdefault] at ht
    exact absurd ht List.not_mem_nil
  · obtain ⟨fields, -, hfields⟩ := model_eq_some hvalue
    obtain ⟨values, hvalues, rfl⟩ := Option.map_eq_some_iff.mp hfields
    rw [hmk] at ht
    exact texts_chars hvalues t ht

/-- The texts of preferences that were read are such as `str` takes. -/
theorem fields_chars (h : P.preferenceFields d = some p) :
    ∀ t ∈ p.texts, t.all P.char = true := by
  simp only [Pydantic.preferenceFields, Option.bind_eq_bind, Option.bind_eq_some_iff,
    Option.pure_def] at h
  obtain ⟨titles, htitles, skills, hskills, locations, hlocations, workMode, hmode, experience, -,
    salary, -, companies, hcompanies, exclusions, hexclusions, matching, -, h⟩ := h
  cases h
  have hpreferred := preferred_chars Locations.mk Locations.preferred (fun _ => rfl) rfl hlocations
  have hpreferred' := preferred_chars Companies.mk Companies.preferred (fun _ => rfl) rfl hcompanies
  intro t ht
  simp only [PreferenceInput.texts, List.mem_append] at ht
  rcases ht with (((((ht | ht) | ht) | ht) | ht) | ht) | ht
  · exact texts_chars htitles t ht
  · exact skills_chars hskills t (List.mem_append_left _ ht)
  · exact skills_chars hskills t (List.mem_append_right _ ht)
  · exact hpreferred t ht
  · exact texts_chars hmode t ht
  · exact hpreferred' t ht
  · exact texts_chars hexclusions t ht

theorem texts_dump {values : List Text} (hget : Dict.get d key = some (dumpTexts values))
    (h : ∀ t ∈ values, t.all P.char = true) : P.texts d key = some values := by
  rw [Pydantic.texts, field_of_get hget]
  exact list_print fun t ht => if_pos (h t ht)

theorem natural_dump (n : Nat) : P.natural (dumpNatural n) = some n := by
  have hn : (0 : Int) ≤ n := Int.natCast_nonneg n
  rw [Pydantic.natural, dumpNatural, P.toInt_int, Option.bind_some, if_pos hn, Int.toNat_natCast]

theorem optionalNatural_dump (n : Option Nat) :
    P.natural.nullable (dumpOptional dumpNatural n) = some n :=
  nullable_print fun m _ => ⟨natural_dump m, nofun⟩

theorem optionalFloat_dump (h : p.Finite) :
    P.float.nullable (dumpOptional dumpFloat p.salary.minimumLpa) = some p.salary.minimumLpa := by
  refine nullable_print fun repr hrepr => ?_
  have hfinite : ¬[text "nan", text "inf", text "-inf"].contains repr = true := by
    rw [List.contains_iff_mem]
    exact h repr hrepr
  rw [dumpFloat, if_neg hfinite]
  exact ⟨P.toFloat_float repr, nofun⟩

theorem skills_dump {skills : Skills}
    (h : ∀ t ∈ skills.mustHave ++ skills.niceToHave, t.all P.char = true) :
    P.skills (.obj [(text "must_have", dumpTexts skills.mustHave),
      (text "nice_to_have", dumpTexts skills.niceToHave)]) = some skills := by
  rw [Pydantic.skills, model, texts_dump rfl fun t ht => h t (List.mem_append_left _ ht),
    texts_dump rfl fun t ht => h t (List.mem_append_right _ ht)]
  rfl

theorem experience_dump (experience : Experience) :
    P.experience (.obj [(text "min", dumpOptional dumpNatural experience.min),
      (text "max", dumpOptional dumpNatural experience.max)]) = some experience := by
  rw [Pydantic.experience, model, field_of_get rfl, optionalNatural_dump, field_of_get rfl,
    optionalNatural_dump]
  rfl

theorem fields_dump (hchars : ∀ t ∈ p.texts, t.all P.char = true) (hfinite : p.Finite) :
    P.preferenceFields (normalizePreferences p) = some p := by
  simp only [PreferenceInput.texts, List.mem_append] at hchars
  have htitles : P.texts (normalizePreferences p) "titles" = some p.titles :=
    texts_dump rfl fun t ht => hchars t (by simp only [ht, true_or])
  have hskills : field (normalizePreferences p) "skills" {} P.skills = some p.skills := by
    rw [field_of_get rfl]
    refine skills_dump fun t ht => hchars t ?_
    rcases List.mem_append.mp ht with ht | ht
    · simp only [ht, true_or, or_true]
    · simp only [ht, true_or, or_true]
  have hlocations : field (normalizePreferences p) "locations" {} P.locations =
      some p.locations := by
    rw [field_of_get rfl, Pydantic.locations, model,
      texts_dump rfl fun t ht => hchars t (by simp only [ht, true_or, or_true])]
    rfl
  have hmode : P.texts (normalizePreferences p) "work_mode" = some p.workMode :=
    texts_dump rfl fun t ht => hchars t (by simp only [ht, true_or, or_true])
  have hexperience : field (normalizePreferences p) "experience" {} P.experience =
      some p.experience := by
    rw [field_of_get rfl, experience_dump]
  have hsalary : field (normalizePreferences p) "salary" {} P.salary = some p.salary := by
    rw [field_of_get rfl, Pydantic.salary, model, field_of_get rfl, optionalFloat_dump hfinite]
    rfl
  have hcompanies : field (normalizePreferences p) "companies" {} P.companies =
      some p.companies := by
    rw [field_of_get rfl, Pydantic.companies, model,
      texts_dump rfl fun t ht => hchars t (by simp only [ht, true_or, or_true])]
    rfl
  have hexclusions : P.texts (normalizePreferences p) "exclusions" = some p.exclusions :=
    texts_dump rfl fun t ht => hchars t (by simp only [ht, or_true])
  have hmatching : field (normalizePreferences p) "matching" {} P.matching = some p.matching := by
    rw [field_of_get rfl, Pydantic.matching, model, field_of_get rfl, natural_dump]
    rfl
  rw [Pydantic.preferenceFields, htitles, hskills, hlocations, hmode, hexperience, hsalary,
    hcompanies, hexclusions, hmatching]
  rfl

/-- Accepted preferences are accepted again from the JSON they are stored as, and unchanged. -/
theorem preferenceInput_stored {payload : Json} (h : P.preferenceInput u payload = some p)
    (hfinite : p.Finite) :
    P.preferenceInput u (.obj (normalizePreferences p)) = some p := by
  obtain ⟨given, -, hgiven⟩ := model_eq_some h
  split at hgiven
  next =>
    obtain ⟨raw, hraw, hvalid⟩ := Option.bind_eq_some_iff.mp hgiven
    have hchars : ∀ t ∈ p.texts, t.all P.char = true := by
      intro t ht
      obtain ⟨t', ht', rfl⟩ := mem_texts_validate hvalid t ht
      exact all_char_strip (fields_chars hraw t' ht')
    have hkeys : ((normalizePreferences p).all fun f =>
        Pydantic.preferenceKeys.contains f.1) = true := by
      rw [List.all_eq_true]
      exact fun f hf => List.contains_iff_mem.mpr (List.mem_map_of_mem hf)
    rw [Pydantic.preferenceInput, model, if_pos hkeys, fields_dump hchars hfinite]
    exact validate_validated hvalid
  next => cases hgiven

end Dump

end JobRadar
