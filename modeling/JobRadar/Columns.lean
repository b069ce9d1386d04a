import JobRadar.PythonJson

namespace Database

open Python

/-- PostgreSQL text holds neither NUL nor surrogates. -/
def storable (t : Text) : Bool := t.all fun c => c ≠ 0 ∧ ¬(0xD800 ≤ c ∧ c ≤ 0xDFFF)

/-- What a `TEXT` column stores. -/
def textColumn (t : Text) : Option Text := if storable t then some t else none

/-- What a `VARCHAR(n)` column stores: a longer value is refused unless all it has beyond
`n` is blanks, which are cut off. -/
def varcharColumn (n : Nat) (t : Text) : Option Text :=
  if storable t ∧ (t.drop n).all (· = 32) then some (t.take n) else none

/-- The same column without its `NOT NULL`. -/
def nullable (column : Text → Option Text) : Option Text → Option (Option Text)
  | none => some none
  | some t => (column t).map some

theorem textColumn_of_storable {t : Text} (h : storable t) : textColumn t = some t := by
  simp [textColumn, h]

theorem varcharColumn_of_fits {n : Nat} {t : Text} (h : storable t) (hn : t.length ≤ n) :
    varcharColumn n t = some t := by
  simp [varcharColumn, h, List.drop_eq_nil_of_le hn, List.take_of_length_le hn]

mutual

/-- PostgreSQL refuses the `NaN` and `Infinity` that `json.dumps` writes for a float. -/
def jsonColumn : Json → Bool
  | .float repr => !([text "nan", text "inf", text "-inf"].contains repr)
  | .arr items => jsonItems items
  | .obj fields => jsonFields fields
  | _ => true

def jsonItems : List Json → Bool
  | [] => true
  | item :: items => jsonColumn item && jsonItems items

def jsonFields : List (Text × Json) → Bool
  | [] => true
  | (_, value) :: fields => jsonColumn value && jsonFields fields

end

end Database
