import JobRadar.PreferenceCodec
import JobRadar.PreferenceUpdates

namespace JobRadar

open Database Python

structure ProfileRow where
  id : Uuid
  userId : Uuid
  version : Nat
  config : Json
  matchingWeights : Json
  isActive : Bool

abbrev ProfileRows := Table ProfileRow.id

/-- `DEFAULT_WEIGHTS.copy()`. -/
def weightsColumn : Json := .obj (defaultWeights.map fun w => (text w.1, .int w.2))

inductive PreferenceError
  | dataConflict
  | activePreferenceNotFound
  | multipleResultsFound
  | validationError

/-- `PreferenceResponse`, as it is built from a row. -/
structure ServedPreferences extends PreferenceInput where
  version : Nat
  isActive : Bool
  weights : List (Text × Int)

/-- `V2PreferenceResponse`, as it is built from a row. -/
structure ServedV2Preferences where
  apiVersion : String := "v2"
  profileId : Uuid
  version : Nat
  status : String
  preferences : PreferenceInput
  matchingWeights : List (Text × Int)

namespace Pydantic

variable (P : Pydantic) (u : Casefold)

/-- `PreferenceResponse(**profile.config, …)`. A key of its own in the config would be given
twice, so the keys it takes of the config are those of `PreferenceInput`. -/
def response (row : ProfileRow) : Option ServedPreferences := do
  let preferences ← P.preferenceInput u row.config
  let weights ← P.weights row.matchingWeights
  return { preferences with version := row.version, isActive := row.isActive, weights := weights }

/-- `to_v2_response`. -/
def v2Response (row : ProfileRow) : Option ServedV2Preferences := do
  let preferences ← P.preferenceInput u row.config
  let weights ← P.weights row.matchingWeights
  return {
    profileId := row.id
    version := row.version
    status := if row.isActive then "active" else "inactive"
    preferences := preferences
    matchingWeights := weights }

end Pydantic

namespace ProfileRows

variable (t : ProfileRows)

def activeRows (userId : Uuid) : List ProfileRow :=
  t.rows.filter fun row => row.userId = userId ∧ row.isActive

def latestVersion (userId : Uuid) : Nat :=
  ((t.rows.filter fun row => row.userId = userId).map ProfileRow.version).foldr max 0

def deactivateActive (userId : Uuid) : ProfileRows :=
  t.updateWhere (fun row => row.userId = userId ∧ row.isActive)
    (fun row => { row with isActive := false }) fun _ => rfl

/-- The statements that both updates make. -/
def save (userId profileId : Uuid) (preferences : PreferenceInput) :
    Option (ProfileRows × ProfileRow) :=
  let row : ProfileRow :=
    { id := profileId
      userId := userId
      version := t.latestVersion userId + 1
      config := .obj (normalizePreferences preferences)
      matchingWeights := weightsColumn
      isActive := true }
  ((t.deactivateActive userId).insert row).map (·, row)

section Services

variable {α : Type} (respond : ProfileRow → Option α)

def answer (row : ProfileRow) : Except PreferenceError α :=
  match respond row with
  | some response => .ok response
  | none => .error .validationError

def update (userId profileId : Uuid) (preferences : PreferenceInput) :
    ProfileRows × Except PreferenceError α :=
  match t.save userId profileId preferences with
  | none => (t, .error .dataConflict)
  | some (t, row) => (t, answer respond row)

/-- The active row is asked for with `scalar_one_or_none`. -/
def getActive (userId : Uuid) : Except PreferenceError α :=
  match t.activeRows userId with
  | [] => .error .activePreferenceNotFound
  | [row] => answer respond row
  | _ => .error .multipleResultsFound

end Services

end ProfileRows

namespace PreferenceService

variable (P : Pydantic) (u : Casefold) (t : ProfileRows)

def update (userId profileId : Uuid) (preferences : PreferenceInput) :
    ProfileRows × Except PreferenceError ServedPreferences :=
  t.update (P.response u) userId profileId preferences

def getActive (userId : Uuid) : Except PreferenceError ServedPreferences :=
  t.getActive (P.response u) userId

end PreferenceService

namespace V2PreferenceService

variable (P : Pydantic) (u : Casefold) (t : ProfileRows)

def update (userId profileId : Uuid) (preferences : V2PreferenceUpdate) :
    ProfileRows × Except PreferenceError ServedV2Preferences :=
  t.update (P.v2Response u) userId profileId preferences.preferences

def getActive (userId : Uuid) : Except PreferenceError ServedV2Preferences :=
  t.getActive (P.v2Response u) userId

end V2PreferenceService

/-- `MatchingService.evaluate` up to the result it stores: it validates the config again, and then
follows the rules, either of which may raise. -/
def evaluateProfile (P : Pydantic) (u : Casefold) (job : Job) (row : ProfileRow) :
    Option (Option MatchDecision) :=
  (P.preferenceInput u row.config).map (evaluateRules u job)

/-- The tables that updates lead to, whichever of the two services makes them. -/
inductive SavedRows (P : Pydantic) (u : Casefold) : ProfileRows → Prop
  | empty : SavedRows P u .empty
  | save {t t' : ProfileRows} {userId profileId : Uuid} {payload : Json} {p : PreferenceInput}
      {row : ProfileRow} (before : SavedRows P u t)
      (accepted : P.preferenceInput u payload = some p) (finite : p.Finite)
      (saved : t.save userId profileId p = some (t', row)) : SavedRows P u t'

/-- Both services answer with the preferences, and so does the validation for matching. -/
structure Survives (P : Pydantic) (u : Casefold) (t : ProfileRows) (userId : Uuid)
    (p : PreferenceInput) : Prop where
  v1 : ∃ r, PreferenceService.getActive P u t userId = .ok r ∧ r.toPreferenceInput = p
  v2 : ∃ r, V2PreferenceService.getActive P u t userId = .ok r ∧ r.preferences = p
  evaluated : ∀ row ∈ t.activeRows userId, ∀ job,
    evaluateProfile P u job row = some (evaluateRules u job p)

section Saves

open ProfileRows

variable {P : Pydantic} {u : Casefold} {t t' : ProfileRows} {userId profileId : Uuid}
  {p : PreferenceInput} {row : ProfileRow} {payload : Json}

theorem weights_dump (ws : List (String × Nat)) (h : ∀ w ∈ ws, ∀ c ∈ text w.1, c < 128) :
    P.weights (.obj (ws.map fun w => (text w.1, .int w.2))) =
      some (ws.map fun w => (text w.1, (w.2 : Int))) := by
  have hread : ∀ ws : List (String × Nat), (∀ w ∈ ws, ∀ c ∈ text w.1, c < 128) →
      (ws.map fun w => (text w.1, Json.int w.2)).mapM (fun f =>
        if f.1.all P.char then (P.toInt f.2).map (f.1, ·) else none) =
      some (ws.map fun w => (text w.1, (w.2 : Int))) := by
    intro ws
    induction ws with
    | nil => exact fun _ => rfl
    | cons w ws ih =>
      intro h
      have hchars : (text w.1).all P.char = true :=
        List.all_eq_true.mpr fun c hc => P.char_ascii c (h w (List.mem_cons_self ..) c hc)
      rw [List.map_cons, List.mapM_cons, if_pos hchars, P.toInt_int,
        ih fun w hw => h w (List.mem_cons_of_mem _ hw)]
      rfl
  exact hread ws h

theorem weights_column : P.weights weightsColumn =
    some (defaultWeights.map fun w => (text w.1, (w.2 : Int))) :=
  weights_dump defaultWeights (by decide)

theorem mem_deactivateActive {r : ProfileRow} : r ∈ t.deactivateActive userId ↔
    ∃ old ∈ t, (if old.userId = userId ∧ old.isActive then { old with isActive := false }
      else old) = r := by
  have hid : ∀ row : ProfileRow, ({ row with isActive := false } : ProfileRow).id = row.id :=
    fun _ => rfl
  exact Table.mem_updateWhere hid

theorem save_some (h : t.save userId profileId p = some (t', row)) :
    row.config = .obj (normalizePreferences p) ∧ row.matchingWeights = weightsColumn ∧
      t'.activeRows userId = [row] ∧ ∀ r ∈ t', r = row ∨ ∃ old ∈ t, r.config = old.config := by
  obtain ⟨t₁, hinsert, hpair⟩ := Option.map_eq_some_iff.mp h
  obtain ⟨rfl, rfl⟩ := Prod.mk.inj hpair
  refine ⟨rfl, rfl, ?_, fun r hr => ?_⟩
  · have hnone : (t.deactivateActive userId).activeRows userId = [] := by
      refine List.filter_eq_nil_iff.mpr fun r hr => ?_
      obtain ⟨old, -, rfl⟩ := mem_deactivateActive.mp hr
      split
      next => simp
      next hold => simpa using hold
    rw [activeRows, Table.rows_of_insert hinsert, List.filter_append]
    rw [activeRows] at hnone
    rw [hnone]
    simp
  · rcases (Table.mem_of_insert hinsert).mp hr with hold | rfl
    · obtain ⟨old, hmem, rfl⟩ := mem_deactivateActive.mp hold
      refine .inr ⟨old, hmem, ?_⟩
      split <;> rfl
    · exact .inl rfl

theorem reads_saved (hinput : P.preferenceInput u (.obj (normalizePreferences p)) = some p)
    (hconfig : row.config = .obj (normalizePreferences p))
    (hweights : row.matchingWeights = weightsColumn) :
    (∃ r, P.response u row = some r ∧ r.toPreferenceInput = p) ∧
      (∃ r, P.v2Response u row = some r ∧ r.preferences = p) ∧
      ∀ job, evaluateProfile P u job row = some (evaluateRules u job p) := by
  refine ⟨?_, ?_, fun job => ?_⟩
  · rw [Pydantic.response, hconfig, hinput, hweights, weights_column]
    exact ⟨_, rfl, rfl⟩
  · rw [Pydantic.v2Response, hconfig, hinput, hweights, weights_column]
    exact ⟨_, rfl, rfl⟩
  · rw [evaluateProfile, hconfig, hinput]
    rfl

theorem savedRows_accepted (h : SavedRows P u t) :
    ∀ row ∈ t, ∃ p, P.preferenceInput u row.config = some p := by
  induction h with
  | empty => exact fun row hrow => absurd hrow (Table.not_mem_empty row)
  | save before accepted finite saved ih =>
    intro row hrow
    obtain ⟨hconfig, -, -, hrows⟩ := save_some saved
    rcases hrows row hrow with rfl | ⟨old, hold, hsame⟩
    · exact ⟨_, hconfig ▸ preferenceInput_stored accepted finite⟩
    · rw [hsame]
      exact ih old hold

/-- Accepted preferences that are saved by either service come back unchanged from both, and can
be validated for matching, as can every config of the table. -/
theorem preferences_survive (hreached : SavedRows P u t)
    (haccepted : P.preferenceInput u payload = some p) (hfinite : p.Finite)
    (hsaved : t.save userId profileId p = some (t', row)) :
    (∃ r, PreferenceService.update P u t userId profileId p = (t', .ok r) ∧
      r.toPreferenceInput = p) ∧
    (∃ r, V2PreferenceService.update P u t userId profileId ⟨p⟩ = (t', .ok r) ∧
      r.preferences = p) ∧
    Survives P u t' userId p ∧
    ∀ row ∈ t', ∃ q, ∀ job, evaluateProfile P u job row = some (evaluateRules u job q) := by
  obtain ⟨hconfig, hweights, hactive, -⟩ := save_some hsaved
  obtain ⟨⟨r, hv1, hp⟩, ⟨r', hv2, hp'⟩, hevaluated⟩ :=
    reads_saved (preferenceInput_stored haccepted hfinite) hconfig hweights
  have hanswer : answer (P.response u) row = .ok r := by rw [answer, hv1]
  have hanswer' : answer (P.v2Response u) row = .ok r' := by rw [answer, hv2]
  refine ⟨⟨r, ?_, hp⟩, ⟨r', ?_, hp'⟩, ⟨⟨r, ?_, hp⟩, ⟨r', ?_, hp'⟩, ?_⟩, ?_⟩
  · simp only [PreferenceService.update, ProfileRows.update, hsaved, hanswer]
  · simp only [V2PreferenceService.update, ProfileRows.update, hsaved, hanswer']
  · simp only [PreferenceService.getActive, ProfileRows.getActive, hactive, hanswer]
  · simp only [V2PreferenceService.getActive, ProfileRows.getActive, hactive, hanswer']
  · rw [hactive]
    intro saved hmem
    rw [List.mem_singleton.mp hmem]
    exact hevaluated
  · intro stored hstored
    obtain ⟨q, hq⟩ := savedRows_accepted (.save hreached haccepted hfinite hsaved) stored hstored
    exact ⟨q, fun job => by rw [evaluateProfile, hq]; rfl⟩

end Saves

/-- The stored form of a profile whose preferences are kept as such. -/
def ProfileRow.ofProfile (profile : PreferenceProfile) : ProfileRow where
  id := profile.id
  userId := profile.userId
  version := profile.version
  config := .obj (normalizePreferences profile.config)
  matchingWeights := weightsColumn
  isActive := profile.isActive

section Simulation

open ProfileRows

variable {t : ProfileRows} {db : RadarDb} {userId profileId : Uuid} {p : PreferenceInput}

theorem latestVersion_ofProfiles (h : t.rows = db.profiles.rows.map ProfileRow.ofProfile) :
    t.latestVersion userId = db.latestVersion userId := by
  rw [ProfileRows.latestVersion, h, RadarDb.latestVersion, List.filter_map, List.map_map]
  rfl

theorem deactivateActive_ofProfiles (h : t.rows = db.profiles.rows.map ProfileRow.ofProfile) :
    (t.deactivateActive userId).rows =
      (db.profiles.updateWhere (fun p => p.userId = userId ∧ p.isActive)
        (fun p => { p with isActive := false }) fun _ => rfl).rows.map ProfileRow.ofProfile := by
  simp only [deactivateActive, Table.updateWhere, h, List.map_map]
  refine List.map_congr_left fun profile _ => ?_
  by_cases hmine : profile.userId = userId ∧ profile.isActive = true
  · simp [ProfileRow.ofProfile, hmine]
  · simp [ProfileRow.ofProfile, hmine]

theorem insert_ofProfile {profiles : Table PreferenceProfile.id}
    (h : t.rows = profiles.rows.map ProfileRow.ofProfile) (profile : PreferenceProfile) :
    (t.insert (.ofProfile profile) = none ∧ profiles.insert profile = none) ∨
    ∃ t' profiles', t.insert (.ofProfile profile) = some t' ∧
      profiles.insert profile = some profiles' ∧
      t'.rows = profiles'.rows.map ProfileRow.ofProfile := by
  cases hinsert : profiles.insert profile with
  | none =>
    obtain ⟨old, hold, hid⟩ := Table.insert_eq_none_iff.mp hinsert
    have hmem : ProfileRow.ofProfile old ∈ t.rows := h ▸ List.mem_map_of_mem hold
    exact .inl ⟨Table.insert_eq_none_iff.mpr ⟨_, hmem, hid⟩, rfl⟩
  | some profiles' =>
    have hfresh : ∀ old ∈ t, old.id ≠ profile.id := by
      intro old hold
      have hrow := Table.mem_rows.mpr hold
      rw [h] at hrow
      obtain ⟨profile', hmem, rfl⟩ := List.mem_map.mp hrow
      exact Table.key_ne_of_insert hinsert hmem
    obtain ⟨t', ht'⟩ : ∃ t', t.insert (.ofProfile profile) = some t' :=
      Table.insert_isSome_of_fresh hfresh
    refine .inr ⟨t', profiles', ht', rfl, ?_⟩
    rw [Table.rows_of_insert ht', Table.rows_of_insert hinsert, h, List.map_append]
    rfl

theorem save_simulates (h : t.rows = db.profiles.rows.map ProfileRow.ofProfile) :
    (t.save userId profileId p = none ∧ db.updatePreferences userId profileId p = db) ∨
    ∃ t' row, t.save userId profileId p = some (t', row) ∧
      t'.rows =
        (db.updatePreferences userId profileId p).profiles.rows.map ProfileRow.ofProfile := by
  have hsave : t.save userId profileId p = ((t.deactivateActive userId).insert (.ofProfile
      ⟨profileId, userId, db.latestVersion userId + 1, p, true⟩)).map
        (·, .ofProfile ⟨profileId, userId, db.latestVersion userId + 1, p, true⟩) := by
    rw [← latestVersion_ofProfiles h]
    rfl
  rw [hsave, RadarDb.updatePreferences]
  rcases insert_ofProfile (deactivateActive_ofProfiles h)
    ⟨profileId, userId, db.latestVersion userId + 1, p, true⟩ with
    ⟨hnone, hnone'⟩ | ⟨t', profiles', hsome, hsome', hrows⟩
  · exact .inl ⟨by rw [hnone]; rfl, by rw [hnone']⟩
  · exact .inr ⟨t', _, by rw [hsome]; rfl, by rw [hsome']; exact hrows⟩

end Simulation

/-- Pydantic to compute with, which takes what needs no conversion, and integers for floats. -/
def Pydantic.plain : Pydantic where
  char c := !(0xD800 ≤ c ∧ c ≤ 0xDFFF)
  toInt value := match value with
    | .int n => some n
    | _ => none
  toFloat value := match value with
    | .float repr => some repr
    | .int n => some (text (toString n ++ ".0"))
    | _ => none
  char_ascii c hc := by simp; omega
  toInt_int _ := rfl
  toFloat_float _ := rfl

/-- A title with blanks around it, and a whole number for the salary. -/
def backendPayload : Json :=
  .obj [(text "titles", .arr [.str (text " Backend ")]),
    (text "salary", .obj [(text "minimum_lpa", .int 12)])]

def backendPreferences : PreferenceInput :=
  { titles := [text "Backend"], salary := ⟨some (text "12.0")⟩ }

theorem backendPreferences_survive : ∃ t' row,
    ProfileRows.save .empty 1 21 backendPreferences = some (t', row) ∧
      Survives .plain .ascii t' 1 backendPreferences := by
  have haccepted : Pydantic.plain.preferenceInput .ascii backendPayload =
      some backendPreferences := rfl
  have hfinite : backendPreferences.Finite := by
    intro amount hamount
    cases hamount
    decide
  exact ⟨_, _, rfl, (preferences_survive .empty haccepted hfinite rfl).2.2.1⟩

end JobRadar
