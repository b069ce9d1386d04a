import JobRadar.MatchModel

namespace JobRadar

open Python

/-- `_clean_values`, which raises at an empty or a repeated value. -/
def cleanValues (u : Casefold) (values : List Text) : Option (List Text) :=
  let cleaned := values.map Text.strip
  if cleaned.any (·.isEmpty) ∨ ¬(cleaned.map u.text).Nodup then none else some cleaned

def supportedWorkModes : List Text := [text "remote", text "hybrid", text "onsite"]

/-- `experience.min` is not greater than `experience.max`. -/
def Experience.InRange (e : Experience) : Prop := ∀ low ∈ e.min, ∀ high ∈ e.max, low ≤ high

instance (e : Experience) : Decidable e.InRange :=
  inferInstanceAs (Decidable (∀ low ∈ e.min, ∀ high ∈ e.max, low ≤ high))

/-- `0 <= x` for the float of that `repr`. -/
def nonnegative (repr : Text) : Bool :=
  repr = text "-0.0" || repr ≠ text "nan" && !Text.startsWith repr (text "-")

/-- The validators of the fields, once they have their types. -/
def PreferenceInput.validate (u : Casefold) (p : PreferenceInput) : Option PreferenceInput := do
  let titles ← cleanValues u p.titles
  let mustHave ← cleanValues u p.skills.mustHave
  let niceToHave ← cleanValues u p.skills.niceToHave
  let locations ← cleanValues u p.locations.preferred
  let workMode ← cleanValues u p.workMode
  let companies ← cleanValues u p.companies.preferred
  let exclusions ← cleanValues u p.exclusions
  if (workMode.all fun mode => supportedWorkModes.contains mode) ∧ p.experience.InRange ∧
      (∀ amount ∈ p.salary.minimumLpa, nonnegative amount = true) ∧
      p.matching.minimumScore ≤ 100 then
    some
      { p with
        titles := titles
        skills := ⟨mustHave, niceToHave⟩
        locations := ⟨locations⟩
        workMode := workMode
        companies := ⟨companies⟩
        exclusions := exclusions }
  else none

/-- The text the rules search for a term. -/
def Job.mentions (u : Casefold) (job : Job) (term : Text) : Prop :=
  (u.text (job.title ++ [32] ++ job.description)).contains (u.text term) = true

instance (u : Casefold) (job : Job) (term : Text) : Decidable (job.mentions u term) :=
  inferInstanceAs (Decidable (_ = true))

/-- There are preferences of every kind, and the job meets them all. -/
structure MeetsAll (u : Casefold) (job : Job) (p : PreferenceInput) : Prop where
  skills : p.skills.mustHave ++ p.skills.niceToHave ≠ []
  mentioned : ∀ skill ∈ p.skills.mustHave ++ p.skills.niceToHave, job.mentions u skill
  exclusions : ∀ term ∈ p.exclusions, ¬job.mentions u term
  title : ∃ title ∈ p.titles, (u.text job.title).contains (u.text title) = true
  location : ∃ joined, joinLocations job.locations = some joined ∧
    ∃ value ∈ p.locations.preferred, (u.text joined).contains (u.text value) = true
  company : ∃ name ∈ p.companies.preferred, u.text name = u.text job.companyName

def Notified (u : Casefold) (job : Job) (p : PreferenceInput) : Prop :=
  ∃ d, evaluateRules u job p = some d ∧ d.decision = .notify

section Rules

variable {u : Casefold} {job : Job} {p : PreferenceInput} {d : MatchDecision}

theorem locationScore_le {preferred : List Text} {points : Nat}
    (h : locationScore u job preferred = some points) : points ≤ 15 := by
  unfold locationScore at h
  split at h
  next =>
    cases h
    omega
  next =>
    obtain ⟨joined, -, rfl⟩ := Option.map_eq_some_iff.mp h
    split <;> omega

theorem evaluateRules_score_le (h : evaluateRules u job p = some d) : d.score ≤ 70 := by
  simp only [evaluateRules, Option.bind_eq_bind, Option.bind_eq_some_iff, Option.pure_def] at h
  obtain ⟨location, hlocation, hd⟩ := h
  have hle := locationScore_le hlocation
  cases hd
  dsimp only
  split
  next =>
    have hskills := Nat.min_le_left 40
    split <;> split <;> omega
  next => omega

theorem locationScore_preferred {joined : Text} {preferred : List Text}
    (hjoined : joinLocations job.locations = some joined)
    (hvalue : ∃ value ∈ preferred, (u.text joined).contains (u.text value) = true) :
    locationScore u job preferred = some 15 := by
  have hany : (preferred.any fun value => (u.text joined).contains (u.text value)) = true :=
    List.any_eq_true.mpr hvalue
  have hsome : preferred ≠ [] := by
    rintro rfl
    obtain ⟨value, hmem, _⟩ := hvalue
    cases hmem
  simp only [locationScore, hsome, if_false, hjoined, Option.map_some, hany, if_true]

theorem full_share {n : Nat} (h : 0 < n) : min 40 (n * 40 / max 1 n) = 40 := by
  have hmax : max 1 n = n := by omega
  rw [hmax, Nat.mul_div_cancel_left 40 h, Nat.min_self]

theorem perfect_score (h : MeetsAll u job p) : ∃ d, evaluateRules u job p = some d ∧
    d.score = 70 ∧ (d.decision = .notify ↔ p.matching.minimumScore ≤ 70) := by
  obtain ⟨joined, hjoined, hvalue⟩ := h.location
  have hlocation := locationScore_preferred hjoined hvalue
  have hmatched : (p.skills.mustHave ++ p.skills.niceToHave).filter (fun term =>
      (u.text (job.title ++ [32] ++ job.description)).contains (u.text term)) =
      p.skills.mustHave ++ p.skills.niceToHave :=
    List.filter_eq_self.mpr h.mentioned
  have hconcerns : p.exclusions.filter (fun term =>
      (u.text (job.title ++ [32] ++ job.description)).contains (u.text term)) = [] :=
    List.filter_eq_nil_iff.mpr h.exclusions
  have hrole : (p.titles.any fun title => (u.text job.title).contains (u.text title)) = true :=
    List.any_eq_true.mpr h.title
  have hcompany : (p.companies.preferred.any fun name => u.text name = u.text job.companyName) =
      true := by
    obtain ⟨name, hmem, hname⟩ := h.company
    exact List.any_eq_true.mpr ⟨name, hmem, decide_eq_true hname⟩
  have hshare := full_share (List.length_pos_of_ne_nil h.skills)
  simp only [evaluateRules, hlocation, hmatched, hconcerns, hrole, hcompany, hshare, if_true,
    Option.bind_eq_bind, Option.bind_some, Option.pure_def]
  refine ⟨_, rfl, rfl, ?_⟩
  simp only [ne_eq, not_true, if_false]
  split
  next hle => exact iff_of_true rfl hle
  next hlt => exact iff_of_false (by decide) hlt

/-- A job that meets every preference is given 70 points, and is notified exactly when no more
are asked for. -/
theorem perfect_match_notified_iff (h : MeetsAll u job p) :
    (∃ d, evaluateRules u job p = some d ∧ d.score = 70) ∧
      (Notified u job p ↔ p.matching.minimumScore ≤ 70) := by
  obtain ⟨d, hd, hscore, hdecision⟩ := perfect_score h
  refine ⟨⟨d, hd, hscore⟩, ?_⟩
  rw [← hdecision]
  constructor
  · rintro ⟨d', hd', hnotify⟩
    rw [hd] at hd'
    cases hd'
    exact hnotify
  · intro hnotify
    exact ⟨d, hd, hnotify⟩

end Rules

/-- A backend job in Pune, and preferences that ask for no more than it has. -/
def puneJob : Job where
  id := 1
  title := text "Backend Engineer"
  description := text "Python"
  descriptionHash := text "a5"
  locations := [.str (text "Pune")]
  companyName := text "Acme"
  companyNormalized := text "acme"
  applicationUrl := text "https://apply"

def punePreferences (minimumScore : Nat) : PreferenceInput where
  titles := [text "Backend"]
  skills := { mustHave := [text "Python"] }
  locations := { preferred := [text "Pune"] }
  companies := { preferred := [text "Acme"] }
  matching := { minimumScore := minimumScore }

theorem puneJob_meetsAll (minimumScore : Nat) :
    MeetsAll .ascii puneJob (punePreferences minimumScore) where
  skills := by simp [punePreferences]
  mentioned := by
    intro skill hskill
    obtain rfl : skill = text "Python" := by simpa [punePreferences] using hskill
    decide
  exclusions := by simp [punePreferences]
  title := ⟨text "Backend", by simp [punePreferences], by decide⟩
  location := ⟨text "Pune", by decide, text "Pune", by simp [punePreferences], by decide⟩
  company := ⟨text "Acme", by simp [punePreferences], by decide⟩

theorem puneJob_notified : Notified .ascii puneJob (punePreferences 70) :=
  (perfect_match_notified_iff (puneJob_meetsAll 70)).2.mpr (by decide)

/-- With the default threshold of 75 the job is put up for review. -/
theorem puneJob_reviewed : (punePreferences 75).matching = {} ∧
    ((punePreferences 75).validate .ascii).isSome ∧
    MeetsAll .ascii puneJob (punePreferences 75) ∧
    (evaluateRules .ascii puneJob (punePreferences 75)).map MatchDecision.decision =
      some .review ∧
    ¬Notified .ascii puneJob (punePreferences 75) := by
  refine ⟨rfl, by decide, puneJob_meetsAll 75, by decide, ?_⟩
  rintro ⟨d, hd, hnotify⟩
  have hreview : (evaluateRules .ascii puneJob (punePreferences 75)).map MatchDecision.decision =
      some .review := by
    decide
  rw [hd, Option.map_some, hnotify] at hreview
  cases hreview

end JobRadar
