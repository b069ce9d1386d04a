import JobRadar.JobQueries

namespace JobRadar

open Database Python

namespace RadarDb

variable (db : RadarDb)

/-- The match was computed from a profile of the user. -/
def OwnMatch (userId : Uuid) (m : MatchResult) : Prop :=
  (db.profiles.find m.preferenceProfileId).any fun p => p.userId = userId

instance (userId : Uuid) (m : MatchResult) : Decidable (db.OwnMatch userId m) :=
  inferInstanceAs (Decidable (_ = true))

/-- The user is shown the match, by the detail of the job or as its latest match. -/
def Shown (first : FirstRow MatchResult) (userId jobId : Uuid) (m : MatchResult) : Prop :=
  (∃ detail, db.detail first userId jobId = .ok detail ∧ detail.matchResult = some m) ∨
    db.latestMatch first userId jobId = .ok m

/-- Whatever order equal times come back in, a shown match is the user's own, and the newest
of these. -/
def MatchesPrivate (userId jobId : Uuid) : Prop :=
  ∀ first m, db.Shown first userId jobId m → db.OwnMatch userId m ∧
    ∀ m' ∈ db.matchResults, m'.jobId = jobId → db.OwnMatch userId m' → m'.createdAt ≤ m.createdAt

/-- After every match of another user there came one of the user's own. -/
def OwnMatchesLast (userId jobId : Uuid) : Prop :=
  ∀ m ∈ db.matchResults, m.jobId = jobId → ¬db.OwnMatch userId m →
    ∃ m' ∈ db.matchResults, m'.jobId = jobId ∧ db.OwnMatch userId m' ∧ m.createdAt < m'.createdAt

instance (userId jobId : Uuid) : Decidable (db.OwnMatchesLast userId jobId) :=
  inferInstanceAs (Decidable (∀ m ∈ db.matchResults, _))

variable {db} {first : FirstRow MatchResult} {userId jobId : Uuid} {m : MatchResult}

theorem shown_iff (hvisible : (db.getJob userId jobId).isSome) :
    db.Shown first userId jobId m ↔ db.latest first jobId = some m := by
  obtain ⟨job, hjob⟩ := Option.isSome_iff_exists.mp hvisible
  have hdetail : db.detail first userId jobId =
      .ok ⟨job, db.latest first jobId, db.getFeedback userId jobId⟩ := by
    simp [detail, hjob]
  constructor
  · rintro (⟨d, hd, hm⟩ | hm)
    · rw [hdetail] at hd
      cases hd
      exact hm
    · cases hl : db.latest first jobId with
      | none => simp [latestMatch, hjob, hl] at hm
      | some m' => simpa [latestMatch, hjob, hl] using hm
  · intro hm
    exact Or.inl ⟨_, hdetail, hm⟩

theorem latest_spec (h : db.latest first jobId = some m) :
    m ∈ db.matchResults ∧ m.jobId = jobId ∧
      ∀ m' ∈ db.matchResults, m'.jobId = jobId → m'.createdAt ≤ m.createdAt := by
  obtain ⟨hm, hmax⟩ := FirstRow.latest_spec h
  obtain ⟨hmem, hjob⟩ := List.mem_filter.mp hm
  refine ⟨hmem, by simpa using hjob, ?_⟩
  intro m' hm' hjob'
  exact hmax m' (List.mem_filter.mpr ⟨hm', by simpa using hjob'⟩)

theorem mem_jobMatches : m ∈ db.matchResults.filter (fun m => m.jobId = jobId) ↔
    m ∈ db.matchResults ∧ m.jobId = jobId := by
  simp

/-- A visible job shows its user only the user's own newest match, exactly when after every
match of another user there came one of the user's own. -/
theorem matches_private_iff (hvisible : (db.getJob userId jobId).isSome) :
    db.MatchesPrivate userId jobId ↔ db.OwnMatchesLast userId jobId := by
  constructor
  · intro hprivate m hm hjob hforeign
    by_contra hlast
    push Not at hlast
    have hrow := mem_jobMatches.mpr ⟨hm, hjob⟩
    obtain ⟨shown, hshown⟩ := (FirstRow.prefer m).exists_latest (f := MatchResult.createdAt) hrow
    obtain ⟨hs, hsjob, hmax⟩ := latest_spec hshown
    obtain ⟨hown, -⟩ := hprivate _ shown ((shown_iff hvisible).mpr hshown)
    -- the match shown is the user's own, so the other one is as new and may come first
    have hle := hlast shown hs hsjob hown
    have hfirst : db.latest (FirstRow.prefer m) jobId = some m := by
      apply FirstRow.latest_prefer hrow
      intro m' hm'
      obtain ⟨hmem, hjob'⟩ := mem_jobMatches.mp hm'
      exact (hmax m' hmem hjob').trans hle
    exact hforeign (hprivate _ m ((shown_iff hvisible).mpr hfirst)).1
  · intro hlast first m hshown
    obtain ⟨hm, hjob, hmax⟩ := latest_spec ((shown_iff hvisible).mp hshown)
    refine ⟨?_, fun m' hm' hjob' _ => hmax m' hm' hjob'⟩
    by_contra hforeign
    obtain ⟨m', hm', hjob', _, hlt⟩ := hlast m hm hjob hforeign
    exact absurd (hmax m' hm' hjob') (Nat.not_le.mpr hlt)

/-- Ann (1) and Bob (2) follow the same listing, and each has preferences. -/
def sharedListing : List RadarOp :=
  let backend : JobCandidate :=
    { title := text "Backend"
      companyName := text "Acme"
      companyNormalized := text "acme"
      description := text "Python"
      descriptionHash := text "a5"
      locations := []
      applicationUrl := .str (text "https://apply")
      externalId := text "1"
      rawPayload := .null }
  [.createSource ⟨11, 1, "lever", text "Acme", []⟩, .createSource ⟨12, 2, "lever", text "Acme", []⟩,
    .upsert 11 backend, .upsert 12 backend,
    .updatePreferences 1 21 { titles := [text "Backend"] },
    .updatePreferences 2 22 { skills := { mustHave := [text "Rust"] } }]

/-- Bob's match, and after it Ann's. -/
def annMatchesLast : RadarDb :=
  run .ascii .head (sharedListing ++ [.matchJob 31 1 2 100, .matchJob 32 1 1 200])

def bobMatchesLast : RadarDb :=
  run .ascii .head (sharedListing ++ [.matchJob 31 1 1 100, .matchJob 32 1 2 200])

theorem annMatchesLast_private : annMatchesLast.MatchesPrivate 1 1 :=
  (matches_private_iff (by decide)).mpr (by decide)

/-- Ann is shown the match computed for Bob. -/
theorem bobs_match_shown_to_ann : (bobMatchesLast.getJob 1 1).isSome ∧
    ¬bobMatchesLast.MatchesPrivate 1 1 := by
  refine ⟨by decide, ?_⟩
  intro hprivate
  obtain ⟨m, hm, hforeign⟩ : ∃ m, bobMatchesLast.latestMatch .head 1 1 = .ok m ∧
      ¬bobMatchesLast.OwnMatch 1 m := ⟨_, rfl, by decide⟩
  exact hforeign (hprivate .head m (Or.inr hm)).1

end RadarDb

end JobRadar
