import JobRadar.JobModel

namespace JobRadar

open Database Python

structure Skills where
  mustHave : List Text := []
  niceToHave : List Text := []

structure Locations where
  preferred : List Text := []

structure Experience where
  min : Option Nat := none
  max : Option Nat := none

/-- A float is given by its `repr`. -/
structure Salary where
  minimumLpa : Option Text := none

structure Companies where
  preferred : List Text := []

structure Matching where
  minimumScore : Nat := 75

structure PreferenceInput where
  titles : List Text := []
  skills : Skills := {}
  locations : Locations := {}
  workMode : List Text := []
  experience : Experience := {}
  salary : Salary := {}
  companies : Companies := {}
  exclusions : List Text := []
  matching : Matching := {}

inductive Decision
  | notify
  | review
  | reject
  deriving DecidableEq

structure ComponentScores where
  skills : Nat
  experience : Nat
  location : Nat
  role : Nat
  salary : Nat
  company : Nat
  deriving DecidableEq

structure MatchDecision where
  score : Nat
  confidence : Rat
  decision : Decision
  componentScores : ComponentScores
  matchedCriteria : List Text
  missingCriteria : List Text
  concerns : List Text
  reasoning : String
  deriving DecidableEq

/-- `" ".join(job.locations)`, which raises at a location that is not a string. -/
def joinLocations (locations : List Json) : Option Text :=
  (locations.mapM Json.asStr).map Text.joinSpaces

/-- The points for the location. The locations are joined for each preferred one, so with no
preferred location they are not looked at. -/
def locationScore (u : Casefold) (job : Job) (preferred : List Text) : Option Nat :=
  if preferred = [] then some 0
  else (joinLocations job.locations).map fun joined =>
    if preferred.any fun value => (u.text joined).contains (u.text value) then 15 else 0

/-- `evaluate_rules`. The quotient of the skill share is exact: the rounding of the two float
operations never crosses an integer. -/
def evaluateRules (u : Casefold) (job : Job) (preferences : PreferenceInput) :
    Option MatchDecision := do
  let text := u.text (job.title ++ [32] ++ job.description)
  let mentioned (term : Text) : Bool := text.contains (u.text term)
  let wanted := preferences.skills.mustHave ++ preferences.skills.niceToHave
  let concerns := preferences.exclusions.filter mentioned
  let matched := wanted.filter mentioned
  let missing := preferences.skills.mustHave.filter fun skill => !mentioned skill
  let role :=
    if preferences.titles.any fun title => (u.text job.title).contains (u.text title) then 10 else 0
  let location ← locationScore u job preferences.locations.preferred
  let skills := min 40 (matched.length * 40 / max 1 wanted.length)
  let company :=
    if preferences.companies.preferred.any fun name => u.text name = u.text job.companyName then 5
    else 0
  let total := role + location + skills + company
  return {
    score := if concerns = [] then total else 0
    confidence := 4 / 5
    decision :=
      if concerns ≠ [] then .reject
      else if preferences.matching.minimumScore ≤ total then .notify else .review
    componentScores := ⟨skills, 0, location, role, 0, company⟩
    matchedCriteria := matched
    missingCriteria := missing
    concerns := concerns
    reasoning := "Rule-based match evaluation" }

structure PreferenceProfile where
  id : Uuid
  userId : Uuid
  version : Nat
  config : PreferenceInput
  isActive : Bool

structure MatchResult extends MatchDecision where
  id : Uuid
  jobId : Uuid
  preferenceProfileId : Uuid
  jobDescriptionHash : Text
  createdAt : Time
  deriving DecidableEq

end JobRadar
