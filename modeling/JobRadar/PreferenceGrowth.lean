import JobRadar.MatchMonotonicity

namespace JobRadar

open Python

/-- An entry of one of the lists that only ever add to a score. -/
inductive Preference
  | title (entry : Text)
  | location (entry : Text)
  | company (entry : Text)
  | niceToHave (entry : Text)

/-- `values'` is `values` with the entry put in at some place. -/
def Inserted (entry : Text) (values values' : List Text) : Prop :=
  ∃ before after, values = before ++ after ∧ values' = before ++ entry :: after

/-- The second preferences state one preference more than the first. -/
inductive StatesOneMore (p : PreferenceInput) : Preference → PreferenceInput → Prop
  | title {entry : Text} {titles : List Text} :
      Inserted entry p.titles titles → StatesOneMore p (.title entry) { p with titles := titles }
  | location {entry : Text} {preferred : List Text} :
      Inserted entry p.locations.preferred preferred →
        StatesOneMore p (.location entry) { p with locations := ⟨preferred⟩ }
  | company {entry : Text} {preferred : List Text} :
      Inserted entry p.companies.preferred preferred →
        StatesOneMore p (.company entry) { p with companies := ⟨preferred⟩ }
  | niceToHave {entry : Text} {niceToHave : List Text} :
      Inserted entry p.skills.niceToHave niceToHave →
        StatesOneMore p (.niceToHave entry) { p with skills := ⟨p.skills.mustHave, niceToHave⟩ }

/-- The whole points for `mentioned` of `wanted` skills are no fewer when one more is wanted. -/
def ShareKept (mentioned wanted : Nat) : Prop :=
  mentioned * 40 / max 1 wanted ≤ mentioned * 40 / (wanted + 1)

/-- A preference that does the job no harm. -/
def Harmless (u : Casefold) (job : Job) (p : PreferenceInput) : Preference → Prop
  | .title _ | .company _ => True
  | .location _ => p.locations.preferred ≠ [] ∨ (joinLocations job.locations).isSome
  | .niceToHave skill =>
    (∃ term ∈ p.exclusions, job.mentions u term) ∨ job.mentions u skill ∨
      ShareKept (mentionedSkills u job p).length (wantedSkills p).length

section Lists

variable {entry : Text} {values values' : List Text}

theorem Inserted.mem_iff (h : Inserted entry values values') (value : Text) :
    value ∈ values' ↔ value = entry ∨ value ∈ values := by
  obtain ⟨before, after, rfl, rfl⟩ := h
  simp only [List.mem_append, List.mem_cons]
  tauto

theorem Inserted.any (h : Inserted entry values values') (f : Text → Bool)
    (hany : values.any f = true) : values'.any f = true := by
  obtain ⟨value, hmem, hvalue⟩ := List.any_eq_true.mp hany
  exact List.any_eq_true.mpr ⟨value, (h.mem_iff value).mpr (.inr hmem), hvalue⟩

theorem Inserted.append_left (h : Inserted entry values values') (first : List Text) :
    Inserted entry (first ++ values) (first ++ values') := by
  obtain ⟨before, after, rfl, rfl⟩ := h
  exact ⟨first ++ before, after, by simp, by simp⟩

theorem Inserted.length_eq (h : Inserted entry values values') :
    values'.length = values.length + 1 := by
  obtain ⟨before, after, rfl, rfl⟩ := h
  simp only [List.length_append, List.length_cons]
  omega

theorem Inserted.length_filter (h : Inserted entry values values') (f : Text → Bool) :
    (values'.filter f).length = (values.filter f).length + if f entry = true then 1 else 0 := by
  obtain ⟨before, after, rfl, rfl⟩ := h
  simp only [List.filter_append, List.filter_cons, List.length_append]
  split
  next =>
    simp only [List.length_cons]
    omega
  next => omega

theorem points_le_of_any {f f' : Bool} {points : Nat} (h : f = true → f' = true) :
    (if f = true then points else 0) ≤ if f' = true then points else 0 := by
  split
  next hf => rw [if_pos (h hf)]
  next => exact Nat.zero_le _

end Lists

section Share

variable {m n : Nat}

theorem share_le (h : m ≤ n) : m * 40 / max 1 n ≤ 40 := by
  refine Nat.div_le_of_le_mul ?_
  have hmax : m ≤ max 1 n := by omega
  exact Nat.mul_le_mul_right 40 hmax

theorem share_le_succ (h : m ≤ n) : m * 40 / max 1 n ≤ (m + 1) * 40 / (n + 1) := by
  have hle := share_le h
  have hmul := Nat.div_mul_le_self (m * 40) (max 1 n)
  have hn : m * 40 / max 1 n * n ≤ m * 40 / max 1 n * max 1 n :=
    Nat.mul_le_mul_left _ (Nat.le_max_right 1 n)
  rw [Nat.le_div_iff_mul_le (Nat.succ_pos n), Nat.mul_succ]
  omega

end Share

section Growth

variable {u : Casefold} {job : Job} {p p' : PreferenceInput} {d : MatchDecision}

theorem mentionedSkills_length_le (u : Casefold) (job : Job) (p : PreferenceInput) :
    (mentionedSkills u job p).length ≤ (wantedSkills p).length :=
  List.length_filter_le ..

theorem skillScore_eq (u : Casefold) (job : Job) (p : PreferenceInput) : skillScore u job p =
    (mentionedSkills u job p).length * 40 / max 1 (wantedSkills p).length :=
  Nat.min_eq_right (share_le (mentionedSkills_length_le u job p))

theorem skillScore_inserted (u : Casefold) (job : Job) {entry : Text} {niceToHave : List Text}
    (h : Inserted entry p.skills.niceToHave niceToHave) :
    skillScore u job { p with skills := ⟨p.skills.mustHave, niceToHave⟩ } =
      ((mentionedSkills u job p).length + if job.mentions u entry then 1 else 0) * 40 /
        ((wantedSkills p).length + 1) := by
  have hwanted := h.append_left p.skills.mustHave
  have hmentioned := hwanted.length_filter fun skill => job.mentions u skill
  rw [skillScore_eq, mentionedSkills, wantedSkills, hmentioned, hwanted.length_eq]
  simp only [mentionedSkills, wantedSkills, decide_eq_true_eq]
  rw [Nat.max_eq_right (by omega)]

/-- With the rules passed before and after, and the same exclusions and threshold, nothing is worse
exactly when a concern remains or the points are no fewer. -/
theorem noWorse_iff (p' : PreferenceInput) {location location' : Nat}
    (h : evaluateRules u job p = some d)
    (hlocation : locationScore u job p.locations.preferred = some location)
    (hlocation' : locationScore u job p'.locations.preferred = some location')
    (hmatching : p'.matching = p.matching) (hexclusions : p'.exclusions = p.exclusions) :
    (∃ d', evaluateRules u job p' = some d' ∧ NoWorse d d') ↔
      (∃ term ∈ p.exclusions, job.mentions u term) ∨
        totalScore u job p location ≤ totalScore u job p' location' := by
  obtain ⟨d', hd'⟩ := exists_evaluateRules hlocation'
  have he := evaluateRules_evaluates h
  have he' := evaluateRules_evaluates hd'
  have hsame : d'.concerns = d.concerns := by rw [he'.concerns, he.concerns, hexclusions]
  have hnone : d.concerns = [] ↔ ¬∃ term ∈ p.exclusions, job.mentions u term := by
    rw [he.concerns, List.filter_eq_nil_iff]
    simp only [decide_eq_true_eq, not_exists, not_and]
  constructor
  · rintro ⟨d'', hd'', hscore, -⟩
    obtain rfl : d' = d'' := Option.some.inj (hd'.symm.trans hd'')
    by_cases hconcerns : d.concerns = []
    · right
      obtain ⟨points, hpoints, htotal, -⟩ := he.total
      obtain ⟨points', hpoints', htotal', -⟩ := he'.total
      obtain rfl : points = location := Option.some.inj (hpoints.symm.trans hlocation)
      obtain rfl : points' = location' := Option.some.inj (hpoints'.symm.trans hlocation')
      rw [hsame, if_pos hconcerns] at htotal'
      rw [if_pos hconcerns] at htotal
      omega
    · left
      exact not_not.mp (mt hnone.mpr hconcerns)
  · intro hcase
    refine ⟨d', hd', noWorse_of_total he he' hlocation hlocation' hmatching ?_ ?_⟩
    · intro hconcerns
      rw [hsame, hconcerns]
    · intro hconcerns
      exact hcase.resolve_left (hnone.mp hconcerns)

theorem locationScore_inserted {entry : Text} {preferred : List Text} {location : Nat}
    (h : Inserted entry p.locations.preferred preferred)
    (hlocation : locationScore u job p.locations.preferred = some location)
    (hjoin : p.locations.preferred ≠ [] ∨ (joinLocations job.locations).isSome) :
    ∃ location', locationScore u job preferred = some location' ∧ location ≤ location' := by
  have hsome : preferred ≠ [] := by
    intro hnil
    have hmem := (h.mem_iff entry).mpr (.inl rfl)
    rw [hnil] at hmem
    cases hmem
  rw [locationScore, if_neg hsome]
  by_cases hbefore : p.locations.preferred = []
  · have hsomeJoined := hjoin.resolve_left (not_not.mpr hbefore)
    obtain ⟨joined, hjoined⟩ := Option.isSome_iff_exists.mp hsomeJoined
    rw [locationScore, if_pos hbefore] at hlocation
    obtain rfl := Option.some.inj hlocation
    exact ⟨_, by rw [hjoined, Option.map_some], Nat.zero_le _⟩
  · rw [locationScore, if_neg hbefore] at hlocation
    obtain ⟨joined, hjoined, rfl⟩ := Option.map_eq_some_iff.mp hlocation
    exact ⟨_, by rw [hjoined, Option.map_some], points_le_of_any (h.any _)⟩

theorem locationScore_none {preferred : List Text} (hsome : preferred ≠ [])
    (hjoin : (joinLocations job.locations).isSome = false) :
    locationScore u job preferred = none := by
  rw [Option.isSome_eq_false_iff, Option.isNone_iff_eq_none] at hjoin
  rw [locationScore, if_neg hsome, hjoin, Option.map_none]

/-- One more title, location, company or skill that is nice to have leaves the job no worse
exactly when it is harmless. -/
theorem one_more_preference_iff {preference : Preference} (h : evaluateRules u job p = some d)
    (hmore : StatesOneMore p preference p') :
    (∃ d', evaluateRules u job p' = some d' ∧ NoWorse d d') ↔ Harmless u job p preference := by
  obtain ⟨location, hlocation, -⟩ := (evaluateRules_evaluates h).total
  cases hmore with
  | @title entry titles hinserted =>
    have hrole : roleScore u job p ≤ roleScore u job { p with titles := titles } :=
      points_le_of_any (hinserted.any _)
    rw [noWorse_iff { p with titles := titles } h hlocation hlocation rfl rfl]
    refine iff_of_true (.inr ?_) trivial
    exact Nat.add_le_add_right (Nat.add_le_add_right (Nat.add_le_add_right hrole _) _) _
  | @company entry preferred hinserted =>
    have hcompany : companyScore u job p ≤
        companyScore u job { p with companies := ⟨preferred⟩ } :=
      points_le_of_any (hinserted.any _)
    rw [noWorse_iff { p with companies := ⟨preferred⟩ } h hlocation hlocation rfl rfl]
    refine iff_of_true (.inr ?_) trivial
    exact Nat.add_le_add_left hcompany _
  | @location entry preferred hinserted =>
    by_cases hjoin : p.locations.preferred ≠ [] ∨ (joinLocations job.locations).isSome
    · obtain ⟨location', hlocation', hle⟩ := locationScore_inserted hinserted hlocation hjoin
      rw [noWorse_iff { p with locations := ⟨preferred⟩ } h hlocation hlocation' rfl rfl]
      refine iff_of_true (.inr ?_) hjoin
      exact Nat.add_le_add_right (Nat.add_le_add_right (Nat.add_le_add_left hle _) _) _
    · refine iff_of_false ?_ hjoin
      rintro ⟨d', hd', -⟩
      obtain ⟨location', hlocation', -⟩ := (evaluateRules_evaluates hd').total
      have hsome : preferred ≠ [] := List.ne_nil_of_mem ((hinserted.mem_iff entry).mpr (.inl rfl))
      rw [not_or, Bool.not_eq_true] at hjoin
      rw [locationScore_none hsome hjoin.2] at hlocation'
      cases hlocation'
  | @niceToHave entry niceToHave hinserted =>
    have hskill := skillScore_inserted u job hinserted
    have hbefore := skillScore_eq u job p
    have hle := mentionedSkills_length_le u job p
    rw [noWorse_iff { p with skills := ⟨p.skills.mustHave, niceToHave⟩ } h hlocation hlocation
      rfl rfl, Harmless]
    refine or_congr_right ?_
    have htotal : totalScore u job p location ≤ totalScore u job
        { p with skills := ⟨p.skills.mustHave, niceToHave⟩ } location ↔ skillScore u job p ≤
          skillScore u job { p with skills := ⟨p.skills.mustHave, niceToHave⟩ } := by
      unfold totalScore
      exact Nat.add_le_add_iff_right.trans Nat.add_le_add_iff_left
    rw [htotal, hskill, hbefore]
    split
    next hmentioned => exact iff_of_true (share_le_succ hle) (.inl hmentioned)
    next hmentioned =>
      rw [Nat.add_zero]
      exact (or_iff_right hmentioned).symm

end Growth

/-- The preferences for the job in Pune, with a skill it does not mention. -/
def goPreferences : PreferenceInput :=
  { punePreferences 70 with skills := ⟨[text "Python"], [text "Go"]⟩ }

theorem goPreferences_statesOneMore :
    StatesOneMore (punePreferences 70) (.niceToHave (text "Go")) goPreferences :=
  .niceToHave ⟨[], [], rfl, rfl⟩

/-- Stating the skill costs the job twenty points and the notification. -/
theorem goPreferences_worse :
    (punePreferences 70).validate .ascii = some (punePreferences 70) ∧
    goPreferences.validate .ascii = some goPreferences ∧
    StatesOneMore (punePreferences 70) (.niceToHave (text "Go")) goPreferences ∧
    ∃ d d', evaluateRules .ascii puneJob (punePreferences 70) = some d ∧ d.score = 70 ∧
      d.decision = .notify ∧ evaluateRules .ascii puneJob goPreferences = some d' ∧
      d'.score = 50 ∧ d'.decision = .review :=
  ⟨rfl, rfl, goPreferences_statesOneMore, _, _, rfl, rfl, rfl, rfl, rfl, rfl⟩

/-- The job in Pune, which mentions both skills. -/
def goJob : Job := { puneJob with description := text "Python Go" }

/-- The skill does harm to the job that does not mention it, and none to the one that does. -/
theorem goPreferences_harmless :
    (∃ d, evaluateRules .ascii puneJob (punePreferences 70) = some d ∧
      ¬∃ d', evaluateRules .ascii puneJob goPreferences = some d' ∧ NoWorse d d') ∧
    ∃ d, evaluateRules .ascii goJob (punePreferences 70) = some d ∧
      ∃ d', evaluateRules .ascii goJob goPreferences = some d' ∧ NoWorse d d' := by
  have hharm : ¬Harmless .ascii puneJob (punePreferences 70) (.niceToHave (text "Go")) := by
    have hshare : ¬ShareKept 1 1 := by
      unfold ShareKept
      decide
    rintro (⟨term, hterm, -⟩ | hmentioned | hkept)
    · cases hterm
    · revert hmentioned
      decide
    · exact hshare hkept
  have hharmless : Harmless .ascii goJob (punePreferences 70) (.niceToHave (text "Go")) :=
    Or.inr (Or.inl (by decide))
  exact ⟨⟨_, rfl, mt (one_more_preference_iff rfl goPreferences_statesOneMore).mp hharm⟩,
    _, rfl, (one_more_preference_iff rfl goPreferences_statesOneMore).mpr hharmless⟩

end JobRadar
