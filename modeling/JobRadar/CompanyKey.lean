import JobRadar.Regex
import JobRadar.UnknownUrls
import JobRadar.Words

namespace JobRadar

open Python Words

def IsAscii (t : Text) : Prop := ∀ c ∈ t, c < 128

def isAsciiAlnum (c : Nat) : Bool := isPlain c ∨ (65 ≤ c ∧ c ≤ 90)

/-- The key of a company is a canonical form of its name. -/
structure CanonicalKey (lib : Stdlib) (letterOrDigit : Nat → Prop) (name : Text) : Prop where
  idempotent : normalizeCompany lib (normalizeCompany lib name) = normalizeCompany lib name
  spaced : ∃ words, normalizeCompany lib name = Text.joinSpaces words ∧
    ∀ w ∈ words, w ≠ [] ∧ ∀ c ∈ w, isPlain c = true
  same_words : ∀ other, IsAscii name → IsAscii other →
    (wordsOf isAsciiAlnum name).map Text.lower = (wordsOf isAsciiAlnum other).map Text.lower →
    normalizeCompany lib name = normalizeCompany lib other
  populated : (∃ c ∈ name, letterOrDigit c) → normalizeCompany lib name ≠ []

section Substitution

theorem subNotPlain_run {c : Nat} (hc : isPlain c = false) (t : Text) :
    subNotPlain (c :: t) = 32 :: subNotPlain (t.dropWhile fun d => !isPlain d) := by
  induction t generalizing c with
  | nil => simp [subNotPlain, hc]
  | cons d t ih =>
    rw [subNotPlain, hc]
    cases hd : isPlain d with
    | true => simp [hd]
    | false => simp [hd, ih hd]

theorem subNotPlain_eq_sub (t : Text) :
    subNotPlain t = Regex.sub [.plus fun c => !isPlain c] (fun _ => [32]) t := by
  induction hn : t.length using Nat.strong_induction_on generalizing t with
  | _ n ih =>
    cases t with
    | nil => rfl
    | cons c t =>
      rw [List.length_cons] at hn
      cases hc : isPlain c with
      | true =>
        have hnone : Regex.front [.plus fun c => !isPlain c] (c :: t) = none := by
          rw [Regex.front_singleton, Regex.head?_tries_plus]
          simp [hc]
        have hkeep : subNotPlain (c :: t) = c :: subNotPlain t := by
          cases t <;> simp [subNotPlain, hc]
        rw [Regex.sub_keep hnone, hkeep, ih t.length (by omega) t rfl]
      | false =>
        have hle := (List.dropWhile_sublist (fun d => !isPlain d) (l := t)).length_le
        have hfound : Regex.front [.plus fun c => !isPlain c] (c :: t) =
            some ([c :: t.takeWhile fun d => !isPlain d], t.dropWhile fun d => !isPlain d) := by
          rw [Regex.front_singleton, Regex.head?_tries_plus]
          simp [hc]
        rw [Regex.sub_found hfound (by simp), subNotPlain_run hc, ih _ (by omega) _ rfl]
        rfl

def blankBefore : Text → Text
  | [] => []
  | c :: _ => if isPlain c then [] else [32]

/-- The words of the text with a blank between any two, and blanks before and after them. -/
theorem subNotPlain_words (t : Text) : ∃ trail : Text, (∀ c ∈ trail, c = 32) ∧
    subNotPlain t = blankBefore t ++ (joined 32 (wordsOf isPlain t) ++ trail) := by
  induction t using subNotPlain.induct with
  | case1 => exact ⟨[], by simp, rfl⟩
  | case2 c hc =>
    refine ⟨[], by simp, ?_⟩
    rw [wordsOf_cons hc]
    simp [subNotPlain, blankBefore, hc, joined_singleton]
  | case3 c hc =>
    rw [Bool.not_eq_true] at hc
    refine ⟨[], by simp, ?_⟩
    rw [wordsOf_skip hc]
    simp [subNotPlain, blankBefore, hc]
  | case4 c d t hc ih =>
    obtain ⟨trail, htrail, ih⟩ := ih
    rw [subNotPlain, if_pos hc, ih, wordsOf_cons hc]
    cases hd : isPlain d with
    | true =>
      refine ⟨trail, htrail, ?_⟩
      rw [wordsOf_cons hd, List.takeWhile_cons_of_pos hd, List.dropWhile_cons_of_pos hd,
        joined_cons_head (c := c)]
      simp [blankBefore, hc, hd]
    | false =>
      have hnot : ¬isPlain d = true := by simp [hd]
      rw [List.takeWhile_cons_of_neg hnot, List.dropWhile_cons_of_neg hnot]
      cases wordsOf isPlain (d :: t) with
      | nil =>
        refine ⟨32 :: trail, List.forall_mem_cons.mpr ⟨rfl, htrail⟩, ?_⟩
        simp [blankBefore, hc, hd, joined_singleton]
      | cons w ws =>
        refine ⟨trail, htrail, ?_⟩
        rw [joined_cons_cons]
        simp [blankBefore, hc, hd]
  | case5 c d t hc hd ih =>
    obtain ⟨trail, htrail, ih⟩ := ih
    refine ⟨trail, htrail, ?_⟩
    rw [subNotPlain, if_neg hc, if_pos hd, ih, wordsOf_skip (Bool.eq_false_of_not_eq_true hc)]
    simp [blankBefore, hc, hd]
  | case6 c d t hc hd ih =>
    obtain ⟨trail, htrail, ih⟩ := ih
    refine ⟨trail, htrail, ?_⟩
    rw [subNotPlain, if_neg hc, if_neg hd, ih, wordsOf_skip (Bool.eq_false_of_not_eq_true hc)]
    simp [blankBefore, hc, hd]

end Substitution

section Key

variable {lib : Stdlib} {t x y z : Text}

theorem dropWhile_of_head {p : Nat → Bool} (h : ∀ c ∈ t.head?, p c = false) :
    t.dropWhile p = t := by
  cases t with
  | nil => rfl
  | cons c t => exact List.dropWhile_cons_of_neg (by simp [h c rfl])

theorem strip_of_blanks (hx : ∀ c ∈ x, isSpace c = true) (hz : ∀ c ∈ z, isSpace c = true)
    (hhead : ∀ c ∈ y.head?, isSpace c = false) (hlast : ∀ c ∈ y.getLast?, isSpace c = false) :
    Text.strip (x ++ (y ++ z)) = y := by
  have hback : ∀ c ∈ y.reverse.head?, isSpace c = false := by
    rw [List.head?_reverse]
    exact hlast
  have hzback : ∀ c ∈ z.reverse, isSpace c = true := fun c hc => hz c (List.mem_reverse.mp hc)
  rw [Text.strip, List.dropWhile_append_of_pos hx]
  cases y with
  | nil =>
    rw [List.nil_append, List.dropWhile_eq_nil_iff.mpr hz]
    rfl
  | cons c y =>
    have hfront : ∀ d ∈ (c :: y ++ z).head?, isSpace d = false := hhead
    rw [dropWhile_of_head hfront, List.reverse_append, List.dropWhile_append_of_pos hzback,
      dropWhile_of_head hback, List.reverse_reverse]

theorem isSpace_of_isPlain {c : Nat} (h : isPlain c = true) : isSpace c = false := by
  simp only [isPlain, decide_eq_true_eq] at h
  simp only [isSpace, decide_eq_false_iff_not]
  omega

/-- The key is made of the words of the name, as its case folding has them. -/
theorem normalizeCompany_eq (name : Text) : normalizeCompany lib name =
    joined 32 (wordsOf isPlain (lib.casefold.text name)) := by
  obtain ⟨trail, htrail, heq⟩ := subNotPlain_words (lib.casefold.text name)
  obtain ⟨hhead, hlast⟩ :
      (∀ c ∈ (joined 32 (wordsOf isPlain (lib.casefold.text name))).head?, isPlain c = true) ∧
        ∀ c ∈ (joined 32 (wordsOf isPlain (lib.casefold.text name))).getLast?, isPlain c = true :=
    joined_ends fun w hw => mem_wordsOf hw
  rw [normalizeCompany, heq]
  apply strip_of_blanks
  · intro c hc
    cases hname : lib.casefold.text name with
    | nil =>
      rw [hname] at hc
      cases hc
    | cons d rest =>
      rw [hname, blankBefore] at hc
      split at hc
      next => cases hc
      next =>
        rw [List.mem_singleton.mp hc]
        decide
  · intro c hc
    rw [htrail c hc]
    decide
  · exact fun c hc => isSpace_of_isPlain (hhead c hc)
  · exact fun c hc => isSpace_of_isPlain (hlast c hc)

theorem casefold_ascii (h : IsAscii t) : lib.casefold.text t = t.lower := by
  induction t with
  | nil => rfl
  | cons c t ih =>
    obtain ⟨hc, ht⟩ := List.forall_mem_cons.mp h
    have hupper : (65 ≤ c ∧ c ≤ 90) ↔
        (65 ≤ c ∧ c ≤ 90) ∨ (192 ≤ c ∧ c ≤ 222 ∧ c ≠ 215) := by omega
    rw [Casefold.text, List.flatMap_cons, lib.casefold.fold_ascii c hc, if_congr hupper rfl rfl]
    exact congrArg (List.cons _) (ih ht)

theorem casefold_plain (h : ∀ c ∈ t, c = 32 ∨ isPlain c = true) : lib.casefold.text t = t := by
  have hplain : ∀ c ∈ t, c < 128 ∧ ¬((65 ≤ c ∧ c ≤ 90) ∨ (192 ≤ c ∧ c ≤ 222 ∧ c ≠ 215)) := by
    intro c hc
    have hc' := h c hc
    simp only [isPlain, decide_eq_true_eq] at hc'
    omega
  rw [casefold_ascii fun c hc => (hplain c hc).1]
  conv_rhs => rw [← List.map_id t]
  exact List.map_congr_left fun c hc => if_neg (hplain c hc).2

theorem wordsOf_lower (h : IsAscii t) :
    wordsOf isPlain t.lower = (wordsOf isAsciiAlnum t).map Text.lower := by
  apply wordsOf_map
  intro c hc
  have hascii := h c hc
  rw [Bool.eq_iff_iff]
  simp only [isPlain, isAsciiAlnum, decide_eq_true_eq]
  split <;> omega

theorem normalizeCompany_ne_nil_iff {name : Text} : normalizeCompany lib name ≠ [] ↔
    ∃ c ∈ lib.casefold.text name, isPlain c = true := by
  rw [normalizeCompany_eq, ne_eq, joined_eq_nil_iff fun w hw => (mem_wordsOf hw).1,
    wordsOf_eq_nil_iff]
  simp

/-- The key is canonical exactly when a name with a letter or digit has one of `a-z` and `0-9` once
its case is folded. Its form, and what it keeps of ASCII names, holds of every name. -/
theorem canonicalKey_iff (lib : Stdlib) (letterOrDigit : Nat → Prop) (name : Text) :
    CanonicalKey lib letterOrDigit name ↔
      ((∃ c ∈ name, letterOrDigit c) → ∃ c ∈ lib.casefold.text name, isPlain c = true) := by
  have hwords : ∀ w ∈ wordsOf isPlain (lib.casefold.text name),
      w ≠ [] ∧ ∀ c ∈ w, isPlain c = true := fun w hw => mem_wordsOf hw
  constructor
  · intro hkey hletter
    exact normalizeCompany_ne_nil_iff.mp (hkey.populated hletter)
  · intro hfolded
    constructor
    · have hplain : ∀ c ∈ normalizeCompany lib name, c = 32 ∨ isPlain c = true := by
        intro c hc
        rw [normalizeCompany_eq] at hc
        refine (mem_joined hc).imp_right ?_
        rintro ⟨w, hw, hcw⟩
        exact (hwords w hw).2 c hcw
      rw [normalizeCompany_eq (normalizeCompany lib name), casefold_plain hplain,
        normalizeCompany_eq name, wordsOf_joined (by decide) hwords]
    · exact ⟨_, normalizeCompany_eq name, hwords⟩
    · intro other hname hother hsame
      rw [normalizeCompany_eq, normalizeCompany_eq, casefold_ascii hname, casefold_ascii hother,
        wordsOf_lower hname, wordsOf_lower hother, hsame]
    · intro hletter
      exact normalizeCompany_ne_nil_iff.mpr (hfolded hletter)

/-- Two names that share nothing have the same key, which is empty. -/
theorem chinese_names_collide :
    normalizeCompany lengthStdlib (text "北京") = [] ∧
      normalizeCompany lengthStdlib (text "東京") = [] ∧
      ∀ letterOrDigit : Nat → Prop, letterOrDigit 0x5317 →
        ¬CanonicalKey lengthStdlib letterOrDigit (text "北京") := by
  have hempty : normalizeCompany lengthStdlib (text "北京") = [] := by decide
  refine ⟨hempty, by decide, ?_⟩
  intro letterOrDigit hletter hkey
  exact hkey.populated ⟨0x5317, by decide, hletter⟩ hempty

end Key

end JobRadar
