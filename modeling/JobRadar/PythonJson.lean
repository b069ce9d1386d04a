import JobRadar.PythonText

namespace Python

/-- The values `json.loads` returns. A float is given by its `repr`. -/
inductive Json
  | null
  | bool (b : Bool)
  | int (n : Int)
  | float (repr : Text)
  | str (t : Text)
  | arr (items : List Json)
  | obj (fields : List (Text × Json))

def Json.asStr : Json → Option Text
  | .str t => some t
  | _ => none

/-- `bool(value)`. -/
def Json.truthy : Json → Bool
  | .null => false
  | .bool b => b
  | .int n => !(n == 0)
  | .float repr => !([text "0.0", text "-0.0"].contains repr)
  | .str t => !t.isEmpty
  | .arr items => !items.isEmpty
  | .obj fields => !fields.isEmpty

/-- `value or default`. -/
def Json.orElse (value default : Json) : Json := if value.truthy then value else default

/-- A dictionary in insertion order. -/
abbrev Dict := List (Text × Json)

/-- `d.get(key)`, with `none` for a missing key. -/
def Dict.get (d : Dict) (key : String) : Option Json := d.lookup (text key)

/-- `d.get(key, default)`. -/
def Dict.getD (d : Dict) (key : String) (default : Json) : Json := (Dict.get d key).getD default

/-- What the program uses of the standard library that rests on tables or on a digest:
`str.casefold`, `repr` of lists and dictionaries, and `sha256(t.encode()).hexdigest()`. -/
structure Stdlib where
  casefold : Casefold
  repr : Json → Text
  sha256 : Text → Text
  sha256_length : ∀ t, (sha256 t).length = 64
  sha256_ascii : ∀ t, ∀ c ∈ sha256 t, 48 ≤ c ∧ c < 128

/-- `str(value)`. -/
def Stdlib.str (lib : Stdlib) : Json → Text
  | .null => text "None"
  | .bool b => text (if b then "True" else "False")
  | .int n => text (toString n)
  | .float repr => repr
  | .str t => t
  | value => lib.repr value

end Python
