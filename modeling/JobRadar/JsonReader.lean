import JobRadar.PythonJson

namespace Python

/-- A validator of JSON values: what it makes of a value it accepts. -/
abbrev Reader (α : Type) := Json → Option α

namespace Reader

variable {α : Type} {r : Reader α} {print : α → Json}

def list (r : Reader α) : Reader (List α)
  | .arr items => items.mapM r
  | _ => none

def nullable (r : Reader α) : Reader (Option α)
  | .null => some none
  | value => (r value).map some

def model (fields : Dict → Option α) : Reader α
  | .obj d => fields d
  | _ => none

def field (d : Dict) (key : String) (default : α) (r : Reader α) : Option α :=
  match Dict.get d key with
  | none => some default
  | some value => r value

theorem list_eq_some {value : Json} {xs : List α} (h : r.list value = some xs) :
    ∃ items, value = .arr items ∧ items.mapM r = some xs := by
  cases value with
  | arr items => exact ⟨items, rfl, h⟩
  | _ => cases h

theorem mem_mapM {items : List Json} {xs : List α} (h : items.mapM r = some xs) :
    ∀ x ∈ xs, ∃ item ∈ items, r item = some x := by
  induction items generalizing xs with
  | nil =>
    cases h
    exact fun x hx => absurd hx List.not_mem_nil
  | cons item items ih =>
    rw [List.mapM_cons] at h
    obtain ⟨y, hy, h⟩ := Option.bind_eq_some_iff.mp h
    obtain ⟨ys, hys, h⟩ := Option.bind_eq_some_iff.mp h
    cases h
    intro x hx
    rcases List.mem_cons.mp hx with rfl | hx
    · exact ⟨item, List.mem_cons_self .., hy⟩
    · obtain ⟨item', hitem, hr⟩ := ih hys x hx
      exact ⟨item', List.mem_cons_of_mem _ hitem, hr⟩

theorem of_mem_list {value : Json} {xs : List α} (h : r.list value = some xs) :
    ∀ x ∈ xs, ∃ item, r item = some x := by
  obtain ⟨items, -, hitems⟩ := list_eq_some h
  intro x hx
  obtain ⟨item, -, hr⟩ := mem_mapM hitems x hx
  exact ⟨item, hr⟩

/-- A list is read back if its entries are. -/
theorem list_print {xs : List α} (h : ∀ x ∈ xs, r (print x) = some x) :
    r.list (.arr (xs.map print)) = some xs := by
  induction xs with
  | nil => rfl
  | cons x xs ih =>
    have hrest : (xs.map print).mapM r = some xs := ih fun y hy => h y (List.mem_cons_of_mem _ hy)
    rw [list, List.map_cons, List.mapM_cons, h x (List.mem_cons_self ..), hrest]
    rfl

theorem nullable_of_ne_null {value : Json} (h : value ≠ .null) :
    r.nullable value = (r value).map some := by
  unfold nullable
  split
  next => exact absurd rfl h
  next => rfl

/-- What may be missing is read back if it is when it is there, and nothing is printed as null. -/
theorem nullable_print {x : Option α} (h : ∀ y ∈ x, r (print y) = some y ∧ print y ≠ .null) :
    r.nullable ((x.map print).getD .null) = some x := by
  cases x with
  | none => rfl
  | some y =>
    obtain ⟨hread, hnull⟩ := h y rfl
    rw [Option.map_some, Option.getD_some, nullable_of_ne_null hnull, hread]
    rfl

theorem field_of_get {d : Dict} {key : String} {default : α} {value : Json}
    (h : Dict.get d key = some value) : field d key default r = r value := by
  rw [field, h]

/-- What a field is read as is its default, or was read. -/
theorem field_eq_some {d : Dict} {key : String} {default x : α}
    (h : field d key default r = some x) : x = default ∨ ∃ value, r value = some x := by
  unfold field at h
  split at h
  next =>
    cases h
    exact .inl rfl
  next value _ => exact .inr ⟨value, h⟩

theorem model_eq_some {fields : Dict → Option α} {value : Json} {x : α}
    (h : model fields value = some x) : ∃ d, value = .obj d ∧ fields d = some x := by
  cases value with
  | obj d => exact ⟨d, rfl, h⟩
  | _ => cases h

end Reader

end Python
