import Mathlib.Data.List.Basic
import JobRadar.MatchMonotonicity

namespace JobRadar

open Python

def Job.withMoreText (job : Job) (t : Text) : Job :=
  { job with description := job.description ++ t }

section More

variable {u : Casefold} {job : Job} {p : PreferenceInput} {d : MatchDecision} {t term : Text}

theorem mentions_withMoreText (h : job.mentions u term) :
    (job.withMoreText t).mentions u term := by
  have htext : u.text (job.title ++ [32] ++ job.description) <+:
      u.text (job.title ++ [32] ++ (job.description ++ t)) :=
    ⟨u.text t, by simp only [Casefold.text_append, List.append_assoc]⟩
  exact Text.contains_of_prefix htext h

theorem filter_mentions_sublist (terms : List Text) :
    (terms.filter fun term => job.mentions u term).Sublist
      (terms.filter fun term => (job.withMoreText t).mentions u term) := by
  refine List.monotone_filter_right terms fun term h => ?_
  exact decide_eq_true (mentions_withMoreText (of_decide_eq_true h))

theorem filter_missing_sublist (terms : List Text) :
    (terms.filter fun term => ¬(job.withMoreText t).mentions u term).Sublist
      (terms.filter fun term => ¬job.mentions u term) := by
  refine List.monotone_filter_right terms fun term h => ?_
  exact decide_eq_true (mt mentions_withMoreText (of_decide_eq_true h))

theorem skillScore_withMoreText : skillScore u job p ≤ skillScore u (job.withMoreText t) p := by
  have hlength : (mentionedSkills u job p).length ≤
      (mentionedSkills u (job.withMoreText t) p).length :=
    (filter_mentions_sublist (wantedSkills p)).length_le
  have hmul := Nat.mul_le_mul_right 40 hlength
  exact min_le_min_left 40 (Nat.div_le_div_right hmul)

/-- More text in the description loses no evidence, and lowers neither the score nor the decision
unless it brings a concern. -/
theorem more_text_keeps_evidence (t : Text) (h : evaluateRules u job p = some d) :
    ∃ d', evaluateRules u (job.withMoreText t) p = some d' ∧ d.concerns.Sublist d'.concerns ∧
      d.matchedCriteria.Sublist d'.matchedCriteria ∧
      d'.missingCriteria.Sublist d.missingCriteria ∧ (d'.concerns = [] → NoWorse d d') := by
  have he := evaluateRules_evaluates h
  obtain ⟨location, hlocation, -⟩ := he.total
  have hlocation' : locationScore u (job.withMoreText t) p.locations.preferred = some location :=
    hlocation
  obtain ⟨d', hd'⟩ := exists_evaluateRules hlocation'
  have he' := evaluateRules_evaluates hd'
  refine ⟨d', hd', ?_, ?_, ?_, ?_⟩
  · rw [he.concerns, he'.concerns]
    exact filter_mentions_sublist p.exclusions
  · rw [he.matched, he'.matched]
    exact filter_mentions_sublist (wantedSkills p)
  · rw [he.missing, he'.missing]
    exact filter_missing_sublist p.skills.mustHave
  · intro hnone
    refine noWorse_of_total he he' hlocation hlocation' rfl (fun _ => hnone) fun _ => ?_
    exact Nat.add_le_add_right (Nat.add_le_add_left skillScore_withMoreText _) _

end More

/-- A second skill in the description of the job in Pune. -/
theorem puneJob_more_text : ∃ d, evaluateRules .ascii puneJob (punePreferences 70) = some d ∧
    ∃ d', evaluateRules .ascii (puneJob.withMoreText (text " and Go")) (punePreferences 70) =
      some d' ∧ d.concerns.Sublist d'.concerns ∧ d.matchedCriteria.Sublist d'.matchedCriteria ∧
      d'.missingCriteria.Sublist d.missingCriteria ∧ (d'.concerns = [] → NoWorse d d') :=
  ⟨_, rfl, more_text_keeps_evidence (text " and Go") rfl⟩

end JobRadar
