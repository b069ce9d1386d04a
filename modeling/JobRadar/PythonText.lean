import Mathlib.Data.List.DropRight

namespace Python

/-- A Python string as its code points; lone surrogates are code points as well. -/
abbrev Text := List Nat

def text (s : String) : Text := s.toList.map Char.toNat

/-- The code points that `str.isspace` accepts. -/
def isSpace (c : Nat) : Bool :=
  (9 ≤ c ∧ c ≤ 13) ∨ (28 ≤ c ∧ c ≤ 32) ∨ c = 0x85 ∨ c = 0xA0 ∨ c = 0x1680 ∨
    (0x2000 ≤ c ∧ c ≤ 0x200A) ∨ c = 0x2028 ∨ c = 0x2029 ∨ c = 0x202F ∨ c = 0x205F ∨ c = 0x3000

namespace Text

/-- `str.strip()`. -/
def strip (t : Text) : Text :=
  ((t.dropWhile isSpace).reverse.dropWhile isSpace).reverse

theorem mem_of_mem_strip {t : Text} {c : Nat} (h : c ∈ t.strip) : c ∈ t := by
  have hr := List.mem_reverse.mp h
  have hd := (List.dropWhile_sublist _).subset hr
  exact (List.dropWhile_sublist _).subset (List.mem_reverse.mp hd)

theorem strip_strip (t : Text) : t.strip.strip = t.strip := by
  have hstart : t.strip <+: t.dropWhile isSpace := List.rdropWhile_prefix isSpace _
  have hhead : t.strip.dropWhile isSpace = t.strip := by
    rw [List.dropWhile_eq_self_iff]
    intro hl
    have hlong : 0 < (t.dropWhile isSpace).length := Nat.lt_of_lt_of_le hl hstart.length_le
    rw [hstart.getElem hl]
    exact List.dropWhile_get_zero_not isSpace t hlong
  have hlast : t.strip.rdropWhile isSpace = t.strip := List.rdropWhile_idempotent isSpace _
  calc t.strip.strip = (t.strip.dropWhile isSpace).rdropWhile isSpace := rfl
    _ = t.strip := by rw [hhead, hlast]

/-- `str.split()`, the words between runs of white space. -/
def words (t : Text) : List Text :=
  (t.splitOnP isSpace).filter (· ≠ [])

def comma : Nat := 44

/-- `str.split(",")`. -/
def splitComma (t : Text) : List Text := t.splitOn comma

/-- `str.split(",", 1)[0]`. -/
def beforeComma (t : Text) : Text := t.takeWhile (· ≠ comma)

/-- `str.lower()` on the Latin-1 code points, which is what header values decode to. -/
def lower (t : Text) : Text :=
  t.map fun c => if (65 ≤ c ∧ c ≤ 90) ∨ (192 ≤ c ∧ c ≤ 222 ∧ c ≠ 215) then c + 32 else c

def startsWith (t prefix' : Text) : Bool := prefix'.isPrefixOf t

/-- `needle in t`. -/
def contains : Text → Text → Bool
  | [], needle => needle.isEmpty
  | c :: t, needle => startsWith (c :: t) needle || contains t needle

theorem contains_iff {t needle : Text} : t.contains needle = true ↔ needle <:+: t := by
  induction t with
  | nil => simp [contains]
  | cons c t ih =>
    rw [contains, Bool.or_eq_true, ih, startsWith, List.isPrefixOf_iff_prefix, List.infix_cons_iff]

theorem contains_of_prefix {t t' needle : Text} (hlonger : t <+: t')
    (h : t.contains needle = true) : t'.contains needle = true :=
  contains_iff.mpr ((contains_iff.mp h).trans hlonger.isInfix)

/-- `" ".join(parts)`. -/
def joinSpaces (parts : List Text) : Text := (parts.intersperse [32]).flatten

/-- `str.split(":", 1)[1]`, for a text that has a colon. -/
def afterColon (t : Text) : Text := (t.dropWhile (· ≠ 58)).drop 1

end Text

/-- The decimal digits of Unicode with their values. -/
structure Decimals where
  digit : Nat → Option Nat
  digit_ascii : ∀ c < 128, digit c = if 48 ≤ c ∧ c ≤ 57 then some (c - 48) else none

namespace Decimals

variable (u : Decimals)

/-- The rest of a number after a digit: digits, with an underscore between any two of them. -/
def digits : Nat → Text → Option Nat
  | n, [] => some n
  | n, 95 :: c :: t => (u.digit c).bind fun d => digits (10 * n + d) t
  | n, c :: t => (u.digit c).bind fun d => digits (10 * n + d) t

def nat : Text → Option Nat
  | [] => none
  | c :: t => (u.digit c).bind fun d => u.digits d t

/-- The white space that `int` skips at both ends. `str.strip` takes the separators U+001C to U+001F
away as well. -/
def skips (c : Nat) : Bool := isSpace c && !(28 ≤ c ∧ c ≤ 31)

def trim (t : Text) : Text := ((t.dropWhile skips).reverse.dropWhile skips).reverse

/-- `sys.int_info.default_max_str_digits`. -/
def maxStrDigits : Nat := 4300

/-- `int(t)`, with `none` for a `ValueError`. -/
def int (t : Text) : Option Int :=
  if maxStrDigits < (t.filter fun c => (u.digit c).isSome).length then none
  else match trim t with
    | 43 :: t => (u.nat t).map Int.ofNat
    | 45 :: t => (u.nat t).map fun n => -Int.ofNat n
    | t => (u.nat t).map Int.ofNat

variable {u} in
theorem mem_of_digits {n m : Nat} {t : Text} (h : u.digits n t = some m) :
    ∀ c ∈ t, (u.digit c).isSome ∨ c = 95 := by
  fun_induction Decimals.digits u n t with
  | case1 => simp
  | case2 n c t ih =>
    obtain ⟨d, hd, hrest⟩ := Option.bind_eq_some_iff.mp h
    have hc : (u.digit c).isSome := by rw [hd]; rfl
    simpa [hc] using ih d hrest
  | case3 n c t _ ih =>
    obtain ⟨d, hd, hrest⟩ := Option.bind_eq_some_iff.mp h
    have hc : (u.digit c).isSome := by rw [hd]; rfl
    simpa [hc] using ih d hrest

variable {u} in
theorem mem_of_nat {n : Nat} {t : Text} (h : u.nat t = some n) :
    ∀ c ∈ t, (u.digit c).isSome ∨ c = 95 := by
  cases t with
  | nil => cases h
  | cons c t =>
    obtain ⟨d, hd, hrest⟩ := Option.bind_eq_some_iff.mp h
    have hc : (u.digit c).isSome := by rw [hd]; rfl
    simpa [hc] using mem_of_digits hrest

theorem mem_dropWhile_of_not {p : Nat → Bool} {t : Text} {c : Nat} (h : c ∈ t) (hc : p c = false) :
    c ∈ t.dropWhile p := by
  rw [← List.takeWhile_append_dropWhile (p := p) (l := t), List.mem_append] at h
  refine h.resolve_left fun hskipped => ?_
  rw [List.mem_takeWhile_imp hskipped] at hc
  cases hc

/-- A text with one of the separators in it is no number, wherever it stands. -/
theorem int_of_separator {t : Text} {c : Nat} (h : c ∈ t) (hc : 28 ≤ c ∧ c ≤ 31) :
    u.int t = none := by
  have hkept : skips c = false := by simp [skips, hc]
  have htrim : c ∈ trim t :=
    List.mem_reverse.mpr (mem_dropWhile_of_not
      (List.mem_reverse.mpr (mem_dropWhile_of_not h hkept)) hkept)
  have hdigit : u.digit c = none := by
    rw [u.digit_ascii c (by omega), if_neg (by omega)]
  have hnone : ∀ t, c ∈ t → u.nat t = none := by
    intro t hmem
    refine Option.eq_none_iff_forall_ne_some.mpr fun n hn => ?_
    rcases mem_of_nat hn c hmem with hsome | h95
    · rw [hdigit] at hsome
      cases hsome
    · omega
  unfold int
  split
  next => rfl
  next =>
    split
    next rest hsign =>
      rw [hsign] at htrim
      rw [hnone rest (List.mem_of_ne_of_mem (by omega) htrim)]
      rfl
    next rest hsign =>
      rw [hsign] at htrim
      rw [hnone rest (List.mem_of_ne_of_mem (by omega) htrim)]
      rfl
    next =>
      rw [hnone _ htrim]
      rfl

/-- Digits to compute with: those of ASCII. -/
def ascii : Decimals where
  digit c := if 48 ≤ c ∧ c ≤ 57 then some (c - 48) else none
  digit_ascii _ _ := rfl

example : ascii.int (28 :: text "60") = none := by decide

example : ascii.int (text " +6_0\n") = some 60 := by decide

end Decimals

/-- The Unicode case folding, code point by code point. -/
structure Casefold where
  fold : Nat → Text
  fold_ascii : ∀ c < 128, fold c = [if 65 ≤ c ∧ c ≤ 90 then c + 32 else c]

def Casefold.text (u : Casefold) (t : Text) : Text := t.flatMap u.fold

theorem Casefold.text_append (u : Casefold) (t t' : Text) :
    u.text (t ++ t') = u.text t ++ u.text t' :=
  List.flatMap_append

/-- Case folding to compute with, which leaves code points beyond ASCII alone. -/
def Casefold.ascii : Casefold where
  fold c := [if 65 ≤ c ∧ c ≤ 90 then c + 32 else c]
  fold_ascii _ _ := rfl

end Python
