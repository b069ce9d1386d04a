import JobRadar.PerfectMatch

namespace JobRadar

open Python

section Parts

variable (u : Casefold) (job : Job) (p : PreferenceInput)

def roleScore : Nat :=
  if p.titles.any fun title => (u.text job.title).contains (u.text title) then 10 else 0

def companyScore : Nat :=
  if p.companies.preferred.any fun name => u.text name = u.text job.companyName then 5 else 0

def wantedSkills : List Text := p.skills.mustHave ++ p.skills.niceToHave

def mentionedSkills : List Text := (wantedSkills p).filter fun skill => job.mentions u skill

def skillScore : Nat :=
  min 40 ((mentionedSkills u job p).length * 40 / max 1 (wantedSkills p).length)

/-- The points of an evaluation that gives `location` points for the location. -/
def totalScore (location : Nat) : Nat :=
  roleScore u job p + location + skillScore u job p + companyScore u job p

/-- What `evaluate_rules` comes to, apart from the points of the parts. -/
structure Evaluates (d : MatchDecision) : Prop where
  concerns : d.concerns = p.exclusions.filter fun term => job.mentions u term
  matched : d.matchedCriteria = mentionedSkills u job p
  missing : d.missingCriteria = p.skills.mustHave.filter fun skill => ¬job.mentions u skill
  total : ∃ location, locationScore u job p.locations.preferred = some location ∧
    d.score = (if d.concerns = [] then totalScore u job p location else 0) ∧
    (d.decision = .notify ↔
      d.concerns = [] ∧ p.matching.minimumScore ≤ totalScore u job p location)

end Parts

section Evaluate

variable {u : Casefold} {job job' : Job} {p p' : PreferenceInput} {d d' : MatchDecision}

theorem decide_mentions (term : Text) : decide (job.mentions u term) =
    (u.text (job.title ++ [32] ++ job.description)).contains (u.text term) :=
  Bool.decide_eq_true

theorem evaluateRules_evaluates (h : evaluateRules u job p = some d) : Evaluates u job p d := by
  simp only [evaluateRules, Option.bind_eq_bind, Option.bind_eq_some_iff, Option.pure_def] at h
  obtain ⟨location, hlocation, hd⟩ := h
  cases hd
  have htotal : roleScore u job p + location + skillScore u job p + companyScore u job p =
      totalScore u job p location := rfl
  simp only [roleScore, skillScore, companyScore, mentionedSkills, wantedSkills,
    decide_mentions] at htotal
  rw [htotal]
  refine ⟨?_, ?_, ?_, location, hlocation, rfl, ?_⟩
  · simp only [decide_mentions]
  · simp only [mentionedSkills, wantedSkills, decide_mentions]
  · simp only [decide_not, decide_mentions]
  dsimp only
  split
  next hconcerns => exact iff_of_false (by decide) fun hnone => hconcerns hnone.1
  next hconcerns =>
    rw [not_not] at hconcerns
    simp only [hconcerns, true_and]
    split
    next hscore => exact iff_of_true rfl hscore
    next hscore => exact iff_of_false (by decide) hscore

theorem exists_evaluateRules {location : Nat}
    (h : locationScore u job p.locations.preferred = some location) :
    ∃ d, evaluateRules u job p = some d := by
  simp only [evaluateRules, h, Option.bind_eq_bind, Option.bind_some, Option.pure_def]
  exact ⟨_, rfl⟩

/-- The second evaluation is no worse than the first. -/
def NoWorse (d d' : MatchDecision) : Prop :=
  d.score ≤ d'.score ∧ (d.decision = .notify → d'.decision = .notify)

theorem noWorse_of_total {location location' : Nat} (h : Evaluates u job p d)
    (h' : Evaluates u job' p' d')
    (hlocation : locationScore u job p.locations.preferred = some location)
    (hlocation' : locationScore u job' p'.locations.preferred = some location')
    (hmatching : p'.matching = p.matching) (hconcerns : d.concerns = [] → d'.concerns = [])
    (htotal : d.concerns = [] → totalScore u job p location ≤ totalScore u job' p' location') :
    NoWorse d d' := by
  obtain ⟨points, hpoints, hscore, hnotify⟩ := h.total
  obtain ⟨points', hpoints', hscore', hnotify'⟩ := h'.total
  obtain rfl : points = location := Option.some.inj (hpoints.symm.trans hlocation)
  obtain rfl : points' = location' := Option.some.inj (hpoints'.symm.trans hlocation')
  refine ⟨?_, ?_⟩
  · rw [hscore]
    split
    next hnone =>
      rw [hscore', if_pos (hconcerns hnone)]
      exact htotal hnone
    next => exact Nat.zero_le _
  · rw [hnotify, hnotify', hmatching]
    rintro ⟨hnone, hle⟩
    exact ⟨hconcerns hnone, Nat.le_trans hle (htotal hnone)⟩

end Evaluate

end JobRadar
