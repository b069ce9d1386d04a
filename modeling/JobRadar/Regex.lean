import Mathlib.Data.List.Forall2
import Mathlib.Data.List.Infix
import Mathlib.Data.List.TakeWhile

namespace Regex

variable {α : Type}

/-- Regular expressions over classes of symbols, with repetition of a class only. -/
inductive Pattern (α : Type)
  | empty
  | one (p : α → Bool)
  | seq (a b : Pattern α)
  | alt (a b : Pattern α)
  | many (p : α → Bool)

/-- What a repeated class can take from the front of a text, longest first, and what it leaves. -/
def runs (p : α → Bool) : List α → List (List α × List α)
  | [] => [([], [])]
  | c :: t =>
    if p c then ((runs p t).map fun (x, rest) => (c :: x, rest)) ++ [([], c :: t)]
    else [([], c :: t)]

namespace Pattern

def opt (a : Pattern α) : Pattern α := .alt a .empty

def plus (p : α → Bool) : Pattern α := .seq (.one p) (.many p)

def Matches : Pattern α → List α → Prop
  | .empty, x => x = []
  | .one p, x => ∃ c, p c = true ∧ x = [c]
  | .seq a b, x => ∃ y z, a.Matches y ∧ b.Matches z ∧ x = y ++ z
  | .alt a b, x => a.Matches x ∨ b.Matches x
  | .many p, x => ∀ c ∈ x, p c = true

def nullable : Pattern α → Bool
  | .empty => true
  | .one _ => false
  | .seq a b => a.nullable && b.nullable
  | .alt a b => a.nullable || b.nullable
  | .many _ => true

/-- Every symbol that the pattern accepts somewhere is one of these. -/
def Within (q : α → Prop) : Pattern α → Prop
  | .empty => True
  | .one p => ∀ c, p c = true → q c
  | .seq a b => a.Within q ∧ b.Within q
  | .alt a b => a.Within q ∧ b.Within q
  | .many p => ∀ c, p c = true → q c

/-- What the pattern can take from the front of a text and what it leaves, in the order in which a
backtracking matcher tries it. -/
def tries : Pattern α → List α → List (List α × List α)
  | .empty, t => [([], t)]
  | .one _, [] => []
  | .one p, c :: t => if p c then [([c], t)] else []
  | .seq a b, t => (a.tries t).flatMap fun (x, mid) =>
    (b.tries mid).map fun (y, rest) => (x ++ y, rest)
  | .alt a b, t => a.tries t ++ b.tries t
  | .many p, t => runs p t

end Pattern

/-- The same for patterns one after another, each a group. -/
def groupTries : List (Pattern α) → List α → List (List (List α) × List α)
  | [], t => [([], t)]
  | a :: groups, t => (a.tries t).flatMap fun (x, mid) =>
    (groupTries groups mid).map fun (xs, rest) => (x :: xs, rest)

/-- The match at the front of a text: its groups, and the text after it. -/
def front (groups : List (Pattern α)) (t : List α) : Option (List (List α) × List α) :=
  (groupTries groups t).head?

/-- The replacement of the matches in a text, of which a match covers the first so many places. -/
def subFrom (groups : List (Pattern α)) (repl : List (List α) → List α) : Nat → List α → List α
  | _, [] => []
  | covered + 1, _ :: t => subFrom groups repl covered t
  | 0, c :: t =>
    match front groups (c :: t) with
    | none => c :: subFrom groups repl 0 t
    | some (xs, rest) => repl xs ++ subFrom groups repl (t.length - rest.length) t

/-- Every match replaced, for a pattern that takes at least one symbol: from left to right, and
each one after the end of the last. -/
def sub (groups : List (Pattern α)) (repl : List (List α) → List α) (t : List α) : List α :=
  subFrom groups repl 0 t

section Lists

variable {p : α → Bool} {x x' y y' : List α}

theorem takeWhile_append_stop (hx : ∀ c ∈ x, p c = true) (hy : ∀ c ∈ y.head?, p c = false) :
    (x ++ y).takeWhile p = x := by
  rw [List.takeWhile_append_of_pos hx]
  cases y with
  | nil => simp
  | cons c y =>
    have hc : p c = false := hy c rfl
    simp [hc]

theorem dropWhile_stops (t : List α) : ∀ c ∈ (t.dropWhile p).head?, p c = false := by
  intro c hc
  have hstop := List.head?_dropWhile_not p t
  rw [hc] at hstop
  exact hstop

/-- A text splits in one way into a run and a rest that does not go on with it. -/
theorem run_unique (h : x ++ y = x' ++ y') (hx : ∀ c ∈ x, p c = true)
    (hx' : ∀ c ∈ x', p c = true) (hy : ∀ c ∈ y.head?, p c = false)
    (hy' : ∀ c ∈ y'.head?, p c = false) : x = x' ∧ y = y' := by
  have hrun : x = x' := by
    rw [← takeWhile_append_stop hx hy, h, takeWhile_append_stop hx' hy']
  refine ⟨hrun, ?_⟩
  rw [hrun] at h
  exact List.append_cancel_left h

theorem suffix_append_cases {w : List α} (h : w <:+ x ++ y) :
    w <:+ y ∨ ∃ z, z ≠ [] ∧ z <:+ x ∧ w = z ++ y := by
  obtain ⟨before, heq⟩ := h
  rcases List.append_eq_append_iff.mp heq with ⟨z, hx, hw⟩ | ⟨z, -, hy⟩
  · cases z with
    | nil => exact Or.inl (by rw [hw, List.nil_append])
    | cons c z => exact Or.inr ⟨c :: z, List.cons_ne_nil _ _, ⟨before, hx.symm⟩, hw⟩
  · exact Or.inl ⟨z, hy.symm⟩

theorem ends_before_mark {mark d : α} (h : x ++ d :: y = x' ++ mark :: y') (hx : mark ∉ x) :
    x = x' ∧ d = mark ∨ ∃ z, x' = x ++ d :: z := by
  rcases List.append_eq_append_iff.mp h with ⟨z, hx', hd⟩ | ⟨z, heq, hmark⟩
  · cases z with
    | nil =>
      obtain ⟨rfl, -⟩ := List.cons.inj hd
      exact Or.inl ⟨by rw [hx', List.append_nil], rfl⟩
    | cons e z =>
      obtain ⟨rfl, -⟩ := List.cons.inj hd
      exact Or.inr ⟨z, hx'⟩
  · cases z with
    | nil =>
      obtain ⟨rfl, -⟩ := List.cons.inj hmark
      exact Or.inl ⟨by rw [heq, List.append_nil], rfl⟩
    | cons e z =>
      obtain ⟨rfl, -⟩ := List.cons.inj hmark
      exact absurd (heq ▸ List.mem_append_right _ (List.mem_cons_self ..)) hx

end Lists

section Languages

variable {p : α → Bool} {a : Pattern α} {t x rest : List α}

theorem mem_runs_iff : (x, rest) ∈ runs p t ↔ t = x ++ rest ∧ ∀ c ∈ x, p c = true := by
  induction t generalizing x with
  | nil =>
    rw [runs, List.mem_singleton, Prod.mk.injEq]
    constructor
    · rintro ⟨rfl, rfl⟩
      simp
    · rintro ⟨heq, -⟩
      exact List.append_eq_nil_iff.mp heq.symm
  | cons c t ih =>
    rw [runs]
    split
    next hc =>
      rw [List.mem_append, List.mem_map, List.mem_singleton, Prod.mk.injEq]
      constructor
      · rintro (⟨⟨x, rest⟩, hmem, heq⟩ | ⟨rfl, rfl⟩)
        · obtain ⟨rfl, rfl⟩ := Prod.mk.inj heq
          obtain ⟨rfl, hall⟩ := ih.mp hmem
          exact ⟨rfl, List.forall_mem_cons.mpr ⟨hc, hall⟩⟩
        · simp
      · rintro ⟨heq, hall⟩
        cases x with
        | nil => exact Or.inr ⟨rfl, heq.symm⟩
        | cons d x =>
          obtain ⟨rfl, rfl⟩ := List.cons.inj heq
          have hrest := (List.forall_mem_cons.mp hall).2
          exact Or.inl ⟨(x, rest), ih.mpr ⟨rfl, hrest⟩, rfl⟩
    next hc =>
      rw [List.mem_singleton, Prod.mk.injEq]
      constructor
      · rintro ⟨rfl, rfl⟩
        simp
      · rintro ⟨heq, hall⟩
        cases x with
        | nil => exact ⟨rfl, heq.symm⟩
        | cons d x =>
          obtain ⟨rfl, rfl⟩ := List.cons.inj heq
          exact absurd (hall _ (List.mem_cons_self ..)) hc

theorem head?_runs : (runs p t).head? = some (t.takeWhile p, t.dropWhile p) := by
  induction t with
  | nil => rfl
  | cons c t ih =>
    rw [runs]
    split
    next hc => simp [List.head?_append, List.head?_map, ih, hc]
    next hc => simp [hc]

theorem mem_tries_iff : (x, rest) ∈ a.tries t ↔ t = x ++ rest ∧ a.Matches x := by
  induction a generalizing t x rest with
  | empty =>
    rw [Pattern.tries, Pattern.Matches, List.mem_singleton, Prod.mk.injEq]
    constructor
    · rintro ⟨rfl, rfl⟩
      simp
    · rintro ⟨heq, rfl⟩
      exact ⟨rfl, heq.symm⟩
  | one p =>
    cases t with
    | nil =>
      constructor
      · intro h
        cases h
      · rintro ⟨heq, c, -, rfl⟩
        cases heq
    | cons c t =>
      rw [Pattern.tries, Pattern.Matches]
      constructor
      · intro h
        split at h
        next hc =>
          obtain ⟨rfl, rfl⟩ := Prod.mk.inj (List.mem_singleton.mp h)
          exact ⟨rfl, c, hc, rfl⟩
        next => cases h
      · rintro ⟨heq, d, hd, rfl⟩
        obtain ⟨rfl, rfl⟩ := List.cons.inj heq
        simp [hd]
  | seq a b iha ihb =>
    rw [Pattern.tries, Pattern.Matches, List.mem_flatMap]
    constructor
    · rintro ⟨⟨y, mid⟩, hfirst, h⟩
      obtain ⟨⟨z, rest⟩, hsecond, heq⟩ := List.mem_map.mp h
      obtain ⟨rfl, rfl⟩ := Prod.mk.inj heq
      obtain ⟨rfl, hy⟩ := iha.mp hfirst
      obtain ⟨rfl, hz⟩ := ihb.mp hsecond
      exact ⟨(List.append_assoc ..).symm, y, z, hy, hz, rfl⟩
    · rintro ⟨rfl, y, z, hy, hz, rfl⟩
      refine ⟨(y, z ++ rest), iha.mpr ⟨List.append_assoc .., hy⟩, ?_⟩
      exact List.mem_map.mpr ⟨(z, rest), ihb.mpr ⟨rfl, hz⟩, rfl⟩
  | alt a b iha ihb =>
    rw [Pattern.tries, Pattern.Matches, List.mem_append, iha, ihb, and_or_left]
  | many p => exact mem_runs_iff

theorem matches_nil_iff : a.Matches [] ↔ a.nullable = true := by
  induction a with
  | empty => simp [Pattern.Matches, Pattern.nullable]
  | one p => simp [Pattern.Matches, Pattern.nullable]
  | seq a b iha ihb =>
    rw [Pattern.Matches, Pattern.nullable, Bool.and_eq_true, ← iha, ← ihb]
    constructor
    · rintro ⟨y, z, hy, hz, heq⟩
      obtain ⟨rfl, rfl⟩ := List.append_eq_nil_iff.mp heq.symm
      exact ⟨hy, hz⟩
    · rintro ⟨hy, hz⟩
      exact ⟨[], [], hy, hz, rfl⟩
  | alt a b iha ihb => rw [Pattern.Matches, Pattern.nullable, Bool.or_eq_true, iha, ihb]
  | many p => simp [Pattern.Matches, Pattern.nullable]

theorem within_of_matches {q : α → Prop} (hq : a.Within q) (h : a.Matches x) : ∀ c ∈ x, q c := by
  induction a generalizing x with
  | empty =>
    obtain rfl : x = [] := h
    simp
  | one p =>
    obtain ⟨c, hc, rfl⟩ := h
    exact List.forall_mem_singleton.mpr (hq c hc)
  | seq a b iha ihb =>
    obtain ⟨y, z, hy, hz, rfl⟩ := h
    exact List.forall_mem_append.mpr ⟨iha hq.1 hy, ihb hq.2 hz⟩
  | alt a b iha ihb =>
    rcases h with h | h
    · exact iha hq.1 h
    · exact ihb hq.2 h
  | many p => exact fun c hc => hq c (h c hc)

theorem head?_tries_plus : ((Pattern.plus p).tries t).head? =
    if t.takeWhile p = [] then none else some (t.takeWhile p, t.dropWhile p) := by
  cases t with
  | nil => rfl
  | cons c t =>
    rw [Pattern.plus, Pattern.tries, Pattern.tries]
    by_cases hc : p c = true
    · simp [hc, Pattern.tries, List.head?_map, head?_runs]
    · simp [hc]

end Languages

section Groups

variable {a : Pattern α} {groups : List (Pattern α)} {t rest : List α} {xs : List (List α)}

theorem mem_groupTries_iff : (xs, rest) ∈ groupTries groups t ↔
    t = xs.flatten ++ rest ∧ List.Forall₂ Pattern.Matches groups xs := by
  induction groups generalizing t xs with
  | nil =>
    rw [groupTries, List.mem_singleton, Prod.mk.injEq, List.forall₂_nil_left_iff]
    constructor
    · rintro ⟨rfl, rfl⟩
      simp
    · rintro ⟨heq, rfl⟩
      exact ⟨rfl, heq.symm⟩
  | cons a groups ih =>
    rw [groupTries, List.mem_flatMap]
    constructor
    · rintro ⟨⟨x, mid⟩, hfirst, h⟩
      obtain ⟨⟨xs, rest⟩, hothers, heq⟩ := List.mem_map.mp h
      obtain ⟨rfl, rfl⟩ := Prod.mk.inj heq
      obtain ⟨rfl, hx⟩ := mem_tries_iff.mp hfirst
      obtain ⟨rfl, hxs⟩ := ih.mp hothers
      exact ⟨by simp, .cons hx hxs⟩
    · rintro ⟨heq, hall⟩
      cases hall with
      | @cons _ x _ xs hx hxs =>
        refine ⟨(x, xs.flatten ++ rest), mem_tries_iff.mpr ⟨by simp [heq], hx⟩, ?_⟩
        exact List.mem_map.mpr ⟨(xs, rest), ih.mpr ⟨rfl, hxs⟩, rfl⟩

theorem front_sound (h : front groups t = some (xs, rest)) :
    t = xs.flatten ++ rest ∧ List.Forall₂ Pattern.Matches groups xs :=
  mem_groupTries_iff.mp (List.mem_of_mem_head? h)

theorem front_isSome (h : t = xs.flatten ++ rest)
    (hxs : List.Forall₂ Pattern.Matches groups xs) : (front groups t).isSome := by
  rw [front, List.isSome_head?]
  exact List.ne_nil_of_mem (mem_groupTries_iff.mpr ⟨h, hxs⟩)

theorem front_cons {x : List α} (h : front (a :: groups) t = some (x :: xs, rest)) :
    ∃ mid, (x, mid) ∈ a.tries t ∧ front groups mid = some (xs, rest) := by
  rw [front, groupTries, List.head?_flatMap] at h
  obtain ⟨⟨y, mid⟩, hy, hhead⟩ := List.exists_of_findSome?_eq_some h
  rw [List.head?_map] at hhead
  obtain ⟨⟨ys, rest'⟩, hfront, heq⟩ := Option.map_eq_some_iff.mp hhead
  simp only [Prod.mk.injEq, List.cons.injEq] at heq
  obtain ⟨⟨rfl, rfl⟩, rfl⟩ := heq
  exact ⟨mid, hy, hfront⟩

theorem front_singleton : front [a] t = (a.tries t).head?.map fun (x, rest) => ([x], rest) := by
  rw [front, groupTries]
  cases a.tries t <;> rfl

end Groups

section Sub

variable {groups : List (Pattern α)} {repl : List (List α) → List α} {t u rest : List α}
  {xs : List (List α)} {c : α}

theorem subFrom_eq_drop (n : Nat) : subFrom groups repl n t = sub groups repl (t.drop n) := by
  induction n generalizing t with
  | zero => rfl
  | succ n ih =>
    cases t with
    | nil => rfl
    | cons c t => exact ih

theorem sub_keep (h : front groups (c :: t) = none) :
    sub groups repl (c :: t) = c :: sub groups repl t := by
  rw [sub, subFrom, h]
  rfl

theorem sub_found (h : front groups t = some (xs, rest)) (hne : xs.flatten ≠ []) :
    sub groups repl t = repl xs ++ sub groups repl rest := by
  obtain ⟨heq, -⟩ := front_sound h
  cases hxs : xs.flatten with
  | nil => exact absurd hxs hne
  | cons c x =>
    have ht : t = c :: (x ++ rest) := by rw [heq, hxs, List.cons_append]
    subst ht
    rw [sub, subFrom, h]
    simp only [subFrom_eq_drop, List.length_append, Nat.add_sub_cancel_right, List.drop_left]

/-- A text and what replacement from left to right makes of it, by the matches at its places. -/
inductive Replaced (Found : List α → List (List α) → List α → Prop)
    (repl : List (List α) → List α) : List α → List α → Prop
  | nil : Replaced Found repl [] []
  | keep {c : α} {t u : List α} (none_found : ∀ xs rest, ¬Found (c :: t) xs rest)
      (next : Replaced Found repl t u) : Replaced Found repl (c :: t) (c :: u)
  | found {t rest u : List α} {xs : List (List α)} (here : Found t xs rest)
      (next : Replaced Found repl rest u) : Replaced Found repl t (repl xs ++ u)

variable {Found : List α → List (List α) → List α → Prop}

theorem replaced_sub (hfront : ∀ t xs rest, front groups t = some (xs, rest) ↔ Found t xs rest)
    (hne : ∀ t xs rest, Found t xs rest → xs.flatten ≠ []) (t : List α) :
    Replaced Found repl t (sub groups repl t) := by
  induction hn : t.length using Nat.strong_induction_on generalizing t with
  | _ n ih =>
    cases hf : front groups t with
    | none =>
      cases t with
      | nil => exact .nil
      | cons c t =>
        rw [sub_keep hf]
        refine .keep (fun xs rest hfound => ?_) (ih t.length (by simp [← hn]) t rfl)
        rw [(hfront _ _ _).mpr hfound] at hf
        cases hf
    | some found =>
      obtain ⟨xs, rest⟩ := found
      have hfound := (hfront _ _ _).mp hf
      have hpos : 0 < xs.flatten.length := List.length_pos_iff.mpr (hne _ _ _ hfound)
      have hlength : t.length = xs.flatten.length + rest.length := by
        rw [← List.length_append, ← (front_sound hf).1]
      rw [sub_found hf (hne _ _ _ hfound)]
      exact .found hfound (ih rest.length (by omega) rest rfl)

theorem Replaced.eq_self (h : Replaced Found repl t u)
    (hself : ∀ w, w <:+ t → ∀ xs rest, Found w xs rest → w = repl xs ++ rest) : u = t := by
  induction h with
  | nil => rfl
  | keep _ _ ih =>
    rw [ih fun w hw => hself w (hw.trans (List.suffix_cons ..))]
  | @found t rest u xs here _ ih =>
    have heq := hself t List.suffix_rfl xs rest here
    have hsuffix : rest <:+ t := by
      rw [heq]
      exact List.suffix_append ..
    rw [ih fun w hw => hself w (hw.trans hsuffix), ← heq]

end Sub

end Regex
