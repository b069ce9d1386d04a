import Mathlib.Data.List.Basic
import Mathlib.Data.List.TakeWhile

namespace Words

variable {α β : Type}

/-- The longest runs of symbols of a class, from left to right. -/
def wordsOf (p : α → Bool) (t : List α) : List (List α) :=
  (t.splitOnP fun c => !p c).filter fun w => !w.isEmpty

def joined (sep : α) (words : List (List α)) : List α := (words.intersperse [sep]).flatten

section

variable {p : α → Bool} {t x y w : List α} {c sep : α} {ws : List (List α)}

@[simp]
theorem wordsOf_nil : wordsOf p [] = [] := rfl

@[simp]
theorem joined_nil : joined sep [] = [] := rfl

theorem wordsOf_run (hx : ∀ c ∈ x, p c = true) (hne : x ≠ []) : wordsOf p x = [x] := by
  rw [wordsOf, List.splitOnP_eq_singleton fun c hc => by simp [hx c hc]]
  simp [hne]

theorem wordsOf_append (hc : p c = false) :
    wordsOf p (x ++ c :: y) = wordsOf p x ++ wordsOf p y := by
  rw [wordsOf, List.splitOnP_append_cons _ _ (by simp [hc]), List.filter_append]
  rfl

theorem wordsOf_skip (hc : p c = false) : wordsOf p (c :: t) = wordsOf p t :=
  wordsOf_append (x := []) hc

theorem wordsOf_cons (hc : p c = true) :
    wordsOf p (c :: t) = (c :: t.takeWhile p) :: wordsOf p (t.dropWhile p) := by
  have hrun : ∀ d ∈ c :: t.takeWhile p, p d = true :=
    List.forall_mem_cons.mpr ⟨hc, fun d hd => List.mem_takeWhile_imp hd⟩
  have hsplit : c :: t = (c :: t.takeWhile p) ++ t.dropWhile p := by
    rw [List.cons_append, List.takeWhile_append_dropWhile]
  have hstop := List.head?_dropWhile_not p t
  rw [hsplit]
  cases hd : t.dropWhile p with
  | nil => rw [List.append_nil, wordsOf_run hrun (List.cons_ne_nil _ _)]; rfl
  | cons d rest =>
    rw [hd] at hstop
    rw [wordsOf_append hstop, wordsOf_run hrun (List.cons_ne_nil _ _), wordsOf_skip hstop]
    rfl

theorem mem_wordsOf (h : w ∈ wordsOf p t) : w ≠ [] ∧ ∀ c ∈ w, p c = true := by
  induction hn : t.length using Nat.strong_induction_on generalizing t with
  | _ n ih =>
    cases t with
    | nil => simp [wordsOf] at h
    | cons c t =>
      cases hc : p c with
      | false =>
        rw [wordsOf_skip hc] at h
        exact ih t.length (by simp [← hn]) h rfl
      | true =>
        rw [wordsOf_cons hc] at h
        rcases List.mem_cons.mp h with rfl | h
        · refine ⟨List.cons_ne_nil _ _, List.forall_mem_cons.mpr ⟨hc, ?_⟩⟩
          exact fun d hd => List.mem_takeWhile_imp hd
        · have hle := (List.dropWhile_sublist p (l := t)).length_le
          rw [List.length_cons] at hn
          exact ih _ (by omega) h rfl

theorem wordsOf_eq_nil_iff : wordsOf p t = [] ↔ ∀ c ∈ t, p c = false := by
  induction t with
  | nil => simp [wordsOf]
  | cons c t ih =>
    cases hc : p c with
    | false => rw [wordsOf_skip hc, ih]; simp [hc]
    | true => simp [wordsOf_cons hc, hc]

theorem splitOnP_map {f : α → β} {p' : β → Bool} (h : ∀ c ∈ t, p' (f c) = p c) :
    (t.map f).splitOnP p' = (t.splitOnP p).map (List.map f) := by
  induction t with
  | nil => rfl
  | cons c t ih =>
    obtain ⟨hc, ht⟩ := List.forall_mem_cons.mp h
    rw [List.map_cons, List.splitOnP_cons_eq_if_modifyHead, List.splitOnP_cons_eq_if_modifyHead, hc,
      ih ht]
    split
    next => rfl
    next => cases t.splitOnP p <;> rfl

theorem wordsOf_map {f : α → β} {p' : β → Bool} (h : ∀ c ∈ t, p' (f c) = p c) :
    wordsOf p' (t.map f) = (wordsOf p t).map (List.map f) := by
  rw [wordsOf, splitOnP_map fun c hc => by rw [h c hc], List.filter_map, wordsOf]
  congr 1
  exact List.filter_congr fun w _ => by simp

theorem joined_cons_cons : joined sep (w :: x :: ws) = w ++ sep :: joined sep (x :: ws) := by
  simp [joined]

theorem joined_singleton : joined sep [w] = w := by
  simp [joined]

theorem joined_cons_head : joined sep ((c :: w) :: ws) = c :: joined sep (w :: ws) := by
  cases ws <;> simp [joined]

/-- The words of a text that is made of words are these words. -/
theorem wordsOf_joined (hsep : p sep = false) (hws : ∀ w ∈ ws, w ≠ [] ∧ ∀ c ∈ w, p c = true) :
    wordsOf p (joined sep ws) = ws := by
  induction ws with
  | nil => rfl
  | cons w ws ih =>
    obtain ⟨⟨hne, hw⟩, hrest⟩ := List.forall_mem_cons.mp hws
    cases ws with
    | nil => rw [joined_singleton, wordsOf_run hw hne]
    | cons x ws => rw [joined_cons_cons, wordsOf_append hsep, wordsOf_run hw hne, ih hrest]; rfl

theorem mem_joined {d : α} (h : d ∈ joined sep ws) : d = sep ∨ ∃ w ∈ ws, d ∈ w := by
  induction ws with
  | nil => cases h
  | cons w ws ih =>
    cases ws with
    | nil =>
      rw [joined_singleton] at h
      exact Or.inr ⟨w, List.mem_singleton_self w, h⟩
    | cons x ws =>
      rw [joined_cons_cons] at h
      rcases List.mem_append.mp h with h | h
      · exact Or.inr ⟨w, List.mem_cons_self .., h⟩
      · rcases List.mem_cons.mp h with rfl | h
        · exact Or.inl rfl
        · rcases ih h with heq | ⟨v, hv, hd⟩
          · exact Or.inl heq
          · exact Or.inr ⟨v, List.mem_cons_of_mem _ hv, hd⟩

theorem joined_eq_nil_iff (hws : ∀ w ∈ ws, w ≠ []) : joined sep ws = [] ↔ ws = [] := by
  rcases ws with _ | ⟨w, _ | ⟨x, ws⟩⟩
  · simp [joined]
  · simp [joined_singleton, hws w (List.mem_singleton_self w)]
  · simp [joined_cons_cons]

/-- What is made of words begins and ends within one. -/
theorem joined_ends (hws : ∀ w ∈ ws, w ≠ [] ∧ ∀ c ∈ w, p c = true) :
    (∀ c ∈ (joined sep ws).head?, p c = true) ∧ ∀ c ∈ (joined sep ws).getLast?, p c = true := by
  induction ws with
  | nil => simp [joined]
  | cons w ws ih =>
    obtain ⟨⟨hne, hw⟩, hrest⟩ := List.forall_mem_cons.mp hws
    cases ws with
    | nil =>
      rw [joined_singleton]
      exact ⟨fun c hc => hw c (List.mem_of_mem_head? hc),
        fun c hc => hw c (List.mem_of_mem_getLast? hc)⟩
    | cons x ws =>
      have hjoined : joined sep (x :: ws) ≠ [] := fun h =>
        List.cons_ne_nil x ws ((joined_eq_nil_iff fun w hw => (hrest w hw).1).mp h)
      rw [joined_cons_cons]
      constructor
      · intro c hc
        rw [List.head?_append_of_ne_nil _ hne] at hc
        exact hw c (List.mem_of_mem_head? hc)
      · intro c hc
        rw [List.getLast?_append_of_ne_nil _ (List.cons_ne_nil _ _),
          List.getLast?_cons_of_ne_nil hjoined] at hc
        exact (ih hrest).2 c hc

end

end Words
