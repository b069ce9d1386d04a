import JobRadar.PythonText
import JobRadar.Regex

namespace JobRadar

open Python Regex

/-- A letter under `(?i)`. Three letters have code points beyond ASCII besides their two cases. -/
def ignoringCase (letter c : Nat) : Bool :=
  c = letter ∨ c + 32 = letter ∨ (letter = 105 ∧ (c = 0x130 ∨ c = 0x131)) ∨
    (letter = 115 ∧ c = 0x17F) ∨ (letter = 107 ∧ c = 0x212A)

def word (letters : Text) : Pattern Nat :=
  letters.foldr (fun letter rest => .seq (.one (ignoringCase letter)) rest) .empty

/-- `password|token|secret|api[_-]?key`. -/
def secretKey : Pattern Nat :=
  .alt (word (text "password")) (.alt (word (text "token")) (.alt (word (text "secret"))
    (.seq (word (text "api"))
      (.seq (.opt (.one fun c => c = 95 ∨ c = 45)) (word (text "key"))))))

/-- `\s*[=:]\s*`. -/
def separator : Pattern Nat :=
  .seq (.many isSpace) (.seq (.one fun c => c = 61 ∨ c = 58) (.many isSpace))

/-- `[^\s,]`. -/
def isValue (c : Nat) : Bool := ¬isSpace c ∧ c ≠ Text.comma

def redacted : Text := text "[REDACTED]"

/-- `\1\2[REDACTED]`. -/
def hideValue (groups : List Text) : Text := (groups.take 2).flatten ++ redacted

def secretPattern : List (Pattern Nat) := [secretKey, separator, .plus isValue]

def redact (value : Text) : Text := sub secretPattern hideValue value

/-- A match of the secret pattern at the front of a text, with a value as long as it can be. -/
structure Secret (t key sep value rest : Text) : Prop where
  split : t = key ++ (sep ++ (value ++ rest))
  key_matches : secretKey.Matches key
  sep_matches : separator.Matches sep
  value_ne : value ≠ []
  value_chars : ∀ c ∈ value, isValue c = true
  longest : ∀ c ∈ rest.head?, isValue c = false

def SecretAt (t : Text) (groups : List Text) (rest : Text) : Prop :=
  ∃ key sep value, groups = [key, sep, value] ∧ Secret t key sep value rest

/-- What no separator has, nor the replacement around its letters. -/
def isKey (c : Nat) : Bool :=
  isValue c ∧ c ≠ 61 ∧ c ≠ 58 ∧ c ≠ 91 ∧ c ≠ 93

section Parts

variable {key sep : Text} {c : Nat}

theorem isKey_of_ignoringCase {letter : Nat} (hletter : 97 ≤ letter ∧ letter ≤ 122)
    (h : ignoringCase letter c = true) : isKey c = true := by
  simp only [ignoringCase, decide_eq_true_eq] at h
  simp only [isKey, isValue, isSpace, Text.comma, decide_eq_true_eq]
  omega

theorem word_within {letters : Text} (h : ∀ letter ∈ letters, 97 ≤ letter ∧ letter ≤ 122) :
    (word letters).Within fun c => isKey c = true := by
  induction letters with
  | nil => trivial
  | cons letter letters ih =>
    obtain ⟨hletter, hletters⟩ := List.forall_mem_cons.mp h
    exact ⟨fun _ => isKey_of_ignoringCase hletter, ih hletters⟩

theorem isKey_of_mem_key (h : secretKey.Matches key) : ∀ c ∈ key, isKey c = true := by
  refine within_of_matches ?_ h
  refine ⟨word_within (by decide), word_within (by decide), word_within (by decide),
    word_within (by decide), ⟨?_, trivial⟩, word_within (by decide)⟩
  intro c hc
  rcases of_decide_eq_true hc with rfl | rfl <;> decide

theorem isValue_of_isKey (h : isKey c = true) : isValue c = true := (of_decide_eq_true h).1

theorem not_isSpace_of_isValue (h : isValue c = true) : isSpace c = false := by
  simpa using (of_decide_eq_true h).1

theorem key_ne_nil (h : secretKey.Matches key) : key ≠ [] := by
  rintro rfl
  have hnullable := matches_nil_iff.mp h
  revert hnullable
  decide

theorem separator_cases (h : separator.Matches sep) : ∃ before mark after,
    sep = before ++ mark :: after ∧ (∀ c ∈ before, isSpace c = true) ∧ (mark = 61 ∨ mark = 58) ∧
      ∀ c ∈ after, isSpace c = true := by
  obtain ⟨before, _, hbefore, ⟨_, after, ⟨mark, hmark, rfl⟩, hafter, rfl⟩, rfl⟩ := h
  exact ⟨before, mark, after, rfl, hbefore, of_decide_eq_true hmark, hafter⟩

theorem mem_separator (h : separator.Matches sep) :
    ∀ c ∈ sep, isSpace c = true ∨ c = 61 ∨ c = 58 := by
  obtain ⟨before, mark, after, rfl, hbefore, hmark, hafter⟩ := separator_cases h
  rw [List.forall_mem_append, List.forall_mem_cons]
  exact ⟨fun c hc => Or.inl (hbefore c hc), Or.inr hmark, fun c hc => Or.inl (hafter c hc)⟩

theorem not_isKey_of_mem_separator (h : separator.Matches sep) : ∀ c ∈ sep, isKey c = false := by
  intro c hc
  apply decide_eq_false
  rintro ⟨hvalue, hnot⟩
  rcases mem_separator h c hc with hspace | hmark
  · rw [not_isSpace_of_isValue hvalue] at hspace
    cases hspace
  · omega

theorem separator_ne_nil (h : separator.Matches sep) : sep ≠ [] := by
  obtain ⟨before, mark, after, rfl, -⟩ := separator_cases h
  simp

end Parts

section Secrets

variable {t u key sep value rest key' sep' value' rest' : Text}

theorem head_separator (hsep : separator.Matches sep) (y : Text) :
    ∀ c ∈ (sep ++ y).head?, isKey c = false := by
  intro c hc
  rw [List.head?_append_of_ne_nil _ (separator_ne_nil hsep)] at hc
  exact not_isKey_of_mem_separator hsep c (List.mem_of_mem_head? hc)

theorem separator_unique {y y' : Text} (h : sep ++ y = sep' ++ y') (hsep : separator.Matches sep)
    (hsep' : separator.Matches sep') (hy : ∀ c ∈ y.head?, isSpace c = false)
    (hy' : ∀ c ∈ y'.head?, isSpace c = false) : sep = sep' ∧ y = y' := by
  obtain ⟨before, mark, after, rfl, hbefore, hmark, hafter⟩ := separator_cases hsep
  obtain ⟨before', mark', after', rfl, hbefore', hmark', hafter'⟩ := separator_cases hsep'
  have hstop : ∀ m z, m = 61 ∨ m = 58 → ∀ c ∈ (m :: z : Text).head?, isSpace c = false := by
    rintro m z hm c hc
    cases hc
    rcases hm with rfl | rfl <;> decide
  rw [List.append_assoc, List.append_assoc] at h
  obtain ⟨rfl, hrest⟩ := run_unique h hbefore hbefore' (hstop mark _ hmark) (hstop mark' _ hmark')
  obtain ⟨rfl, hafters⟩ := List.cons.inj hrest
  obtain ⟨rfl, rfl⟩ := run_unique hafters hafter hafter' hy hy'
  exact ⟨rfl, rfl⟩

theorem Secret.value_cons (h : Secret t key sep value rest) : ∃ c cs, value = c :: cs ∧
    isValue c = true ∧ ∀ d ∈ cs, isValue d = true := by
  obtain ⟨c, cs, rfl⟩ := List.exists_cons_of_ne_nil h.value_ne
  exact ⟨c, cs, rfl, List.forall_mem_cons.mp h.value_chars⟩

theorem Secret.value_head (h : Secret t key sep value rest) :
    ∀ c ∈ (value ++ rest).head?, isSpace c = false := by
  intro c hc
  rw [List.head?_append_of_ne_nil _ h.value_ne] at hc
  exact not_isSpace_of_isValue (h.value_chars c (List.mem_of_mem_head? hc))

theorem Secret.unique (h : Secret t key sep value rest) (h' : Secret t key' sep' value' rest') :
    key = key' ∧ sep = sep' ∧ value = value' ∧ rest = rest' := by
  obtain ⟨rfl, hafterKey⟩ := run_unique (h.split.symm.trans h'.split)
    (isKey_of_mem_key h.key_matches) (isKey_of_mem_key h'.key_matches)
    (head_separator h.sep_matches _) (head_separator h'.sep_matches _)
  obtain ⟨rfl, hvalues⟩ := separator_unique hafterKey h.sep_matches h'.sep_matches h.value_head
    h'.value_head
  obtain ⟨rfl, rfl⟩ := run_unique hvalues h.value_chars h'.value_chars h.longest h'.longest
  exact ⟨rfl, rfl, rfl, rfl⟩

theorem secret_of_start {c : Nat} {rest : Text} (h : t = key ++ (sep ++ c :: rest))
    (hkey : secretKey.Matches key) (hsep : separator.Matches sep) (hc : isValue c = true) :
    ∃ value rest', Secret t key sep value rest' := by
  refine ⟨(c :: rest).takeWhile isValue, (c :: rest).dropWhile isValue, ?_, hkey, hsep, ?_,
    fun d hd => List.mem_takeWhile_imp hd, dropWhile_stops _⟩
  · rw [List.takeWhile_append_dropWhile]
    exact h
  · simp [hc]

theorem secretAt_of_front {groups : List Text} (h : front secretPattern t = some (groups, rest)) :
    SecretAt t groups rest := by
  obtain ⟨-, hmatches⟩ := front_sound h
  rcases hmatches with _ | ⟨hkey, _ | ⟨hsep, _ | ⟨hvalue, _ | _⟩⟩⟩
  obtain ⟨afterKey, hkeyTry, h⟩ := front_cons h
  obtain ⟨afterSep, hsepTry, h⟩ := front_cons h
  rw [front_singleton, head?_tries_plus] at h
  split at h
  next => cases h
  next hne =>
    cases h
    refine ⟨_, _, _, rfl, ?_, hkey, hsep, hne, fun c hc => List.mem_takeWhile_imp hc,
      dropWhile_stops afterSep⟩
    rw [List.takeWhile_append_dropWhile, ← (mem_tries_iff.mp hsepTry).1]
    exact (mem_tries_iff.mp hkeyTry).1

/-- The matcher finds the match at the front, its value with it. -/
theorem front_secretPattern_iff {groups : List Text} :
    front secretPattern t = some (groups, rest) ↔ SecretAt t groups rest := by
  constructor
  · exact secretAt_of_front
  · rintro ⟨key, sep, value, rfl, h⟩
    obtain ⟨c, cs, rfl, hc, hcs⟩ := h.value_cons
    have hgroups : List.Forall₂ Pattern.Matches secretPattern [key, sep, c :: cs] :=
      .cons h.key_matches (.cons h.sep_matches (.cons ⟨[c], cs, ⟨c, hc, rfl⟩, hcs, rfl⟩ .nil))
    have hflatten : t = [key, sep, c :: cs].flatten ++ rest := by
      rw [h.split]
      simp
    obtain ⟨⟨groups, rest'⟩, hfront⟩ :=
      Option.isSome_iff_exists.mp (front_isSome hflatten hgroups)
    obtain ⟨key', sep', value', rfl, h'⟩ := secretAt_of_front hfront
    obtain ⟨rfl, rfl, rfl, rfl⟩ := h.unique h'
    exact hfront

/-- There is a match at the front of the text. -/
def StartsSecret (t : Text) : Prop := ∃ groups rest, SecretAt t groups rest

theorem startsSecret_iff : StartsSecret t ↔ ∃ key sep c y, t = key ++ (sep ++ c :: y) ∧
    secretKey.Matches key ∧ separator.Matches sep ∧ isValue c = true := by
  constructor
  · rintro ⟨groups, rest, key, sep, value, rfl, h⟩
    obtain ⟨c, cs, rfl, hc, -⟩ := h.value_cons
    exact ⟨key, sep, c, cs ++ rest, h.split, h.key_matches, h.sep_matches, hc⟩
  · rintro ⟨key, sep, c, y, heq, hkey, hsep, hc⟩
    obtain ⟨value, rest, h⟩ := secret_of_start heq hkey hsep hc
    exact ⟨_, _, _, _, _, rfl, h⟩

end Secrets

abbrev Redacts : Text → Text → Prop := Replaced SecretAt hideValue

section Redaction

variable {t u w key sep value rest : Text}

theorem redacts_redact (t : Text) : Redacts t (redact t) := by
  refine replaced_sub (fun _ _ _ => front_secretPattern_iff) ?_ t
  rintro t groups rest ⟨key, sep, value, rfl, h⟩
  simp [key_ne_nil h.key_matches]

theorem Redacts.common (h : Redacts t u) : u = t ∨ ∃ x c y z,
    t = x ++ c :: y ∧ isValue c = true ∧ u = x ++ redacted ++ z := by
  induction h with
  | nil => exact Or.inl rfl
  | @keep c t u _ _ ih =>
    rcases ih with rfl | ⟨x, d, y, z, rfl, hd, rfl⟩
    · exact Or.inl rfl
    · exact Or.inr ⟨c :: x, d, y, z, rfl, hd, rfl⟩
  | @found t rest u groups here _ _ =>
    obtain ⟨key, sep, value, rfl, hsecret⟩ := here
    obtain ⟨c, cs, rfl, hc, -⟩ := hsecret.value_cons
    refine Or.inr ⟨key ++ sep, c, cs ++ rest, u, ?_, hc, by simp [hideValue]⟩
    rw [hsecret.split, List.append_assoc, List.cons_append]

theorem bracket_not_mem (hkey : secretKey.Matches key) (hsep : separator.Matches sep) :
    91 ∉ key ++ sep := by
  intro hmem
  rcases List.mem_append.mp hmem with hmem | hmem
  · have hbracket := isKey_of_mem_key hkey _ hmem
    revert hbracket
    decide
  · have hbracket := mem_separator hsep _ hmem
    revert hbracket
    decide

theorem Redacts.startsSecret {c : Nat} (h : Redacts t u) (hstarts : StartsSecret (c :: u)) :
    StartsSecret (c :: t) := by
  rcases h.common with rfl | ⟨x, d, y, z, rfl, hd, rfl⟩
  · exact hstarts
  · obtain ⟨key, sep, e, y', heq, hkey, hsep, he⟩ := startsSecret_iff.mp hstarts
    have hsplit : (key ++ sep) ++ e :: y' = (c :: x) ++ 91 :: (redacted.tail ++ z) := by
      rw [List.append_assoc, ← heq]
      simp [redacted, text]
    apply startsSecret_iff.mpr
    rcases ends_before_mark hsplit (bracket_not_mem hkey hsep) with ⟨hx, -⟩ | ⟨x', hx⟩
    · refine ⟨key, sep, d, y, ?_, hkey, hsep, hd⟩
      rw [← List.cons_append, ← hx, List.append_assoc]
    · refine ⟨key, sep, e, x' ++ d :: y, ?_, hkey, hsep, he⟩
      rw [← List.cons_append, hx]
      simp

/-- A text that does not go on with a value does not go on with one after its redaction. -/
theorem Redacts.head (h : Redacts t u) (hstop : ∀ c ∈ t.head?, isValue c = false) :
    ∀ c ∈ u.head?, isValue c = false := by
  cases h with
  | nil => exact hstop
  | keep _ _ => exact hstop
  | found here _ =>
    obtain ⟨key, sep, value, rfl, hsecret⟩ := here
    obtain ⟨c, cs, rfl⟩ := List.exists_cons_of_ne_nil (key_ne_nil hsecret.key_matches)
    have hkey := isKey_of_mem_key hsecret.key_matches c (List.mem_cons_self ..)
    have hvalue := hstop c (by rw [hsecret.split]; rfl)
    rw [isValue_of_isKey hkey] at hvalue
    cases hvalue

theorem not_startsSecret_in_redacted {z : Text} (hne : z ≠ []) (hz : z <:+ redacted) :
    ¬StartsSecret (z ++ u) := by
  intro hstarts
  obtain ⟨key, sep, c, y, heq, hkey, hsep, -⟩ := startsSecret_iff.mp hstarts
  obtain ⟨mark, sep', rfl⟩ := List.exists_cons_of_ne_nil (separator_ne_nil hsep)
  have hmark := mem_separator hsep mark (List.mem_cons_self ..)
  have hlast : z = z.dropLast ++ [93] := by
    obtain ⟨before, hbefore⟩ := hz
    have hend : z.getLast hne = 93 := by
      have hsame : (before ++ z).getLast (List.append_ne_nil_of_right_ne_nil _ hne) = 93 := by
        simp only [hbefore]
        rfl
      rwa [List.getLast_append_of_ne_nil] at hsame
    rw [← hend, List.dropLast_append_getLast]
  have hsplit : key ++ mark :: (sep' ++ c :: y) = z.dropLast ++ 93 :: u := by
    rw [← List.cons_append, ← heq]
    conv_lhs => rw [hlast]
    simp
  have hbracket : 93 ∉ key := by
    intro hmem
    have hkeyChar := isKey_of_mem_key hkey _ hmem
    revert hkeyChar
    decide
  rcases ends_before_mark hsplit hbracket with ⟨-, rfl⟩ | ⟨z', hz'⟩
  · revert hmark
    decide
  · have hmem : mark ∈ redacted := by
      apply hz.subset
      apply List.dropLast_subset
      rw [hz']
      simp
    have hletters : ∀ c ∈ redacted, ¬(isSpace c = true ∨ c = 61 ∨ c = 58) := by decide
    exact hletters mark hmem hmark

/-- In a redacted text every match, wherever it begins, has the replacement as its value. -/
theorem Redacts.value_eq (h : Redacts t u) (hw : w <:+ u) (hsecret : Secret w key sep value rest) :
    value = redacted := by
  induction h with
  | nil =>
    rw [List.suffix_nil] at hw
    have hnil := hsecret.split.symm.trans hw
    exact absurd (List.append_eq_nil_iff.mp hnil).1 (key_ne_nil hsecret.key_matches)
  | @keep c t u none_found next ih =>
    rcases List.suffix_cons_iff.mp hw with rfl | hw
    · obtain ⟨groups, rest', hfound⟩ := Redacts.startsSecret next ⟨_, _, _, _, _, rfl, hsecret⟩
      exact absurd hfound (none_found groups rest')
    · exact ih hw
  | @found t rest' u groups here next ih =>
    obtain ⟨key', sep', value', rfl, hfound⟩ := here
    have hhide : hideValue [key', sep', value'] ++ u = key' ++ (sep' ++ (redacted ++ u)) := by
      simp [hideValue]
    rw [hhide] at hw
    rcases suffix_append_cases hw with hw | ⟨z, hne, hz, rfl⟩
    · rcases suffix_append_cases hw with hw | ⟨z, hne, hz, rfl⟩
      · rcases suffix_append_cases hw with hw | ⟨z, hne, hz, rfl⟩
        · exact ih hw
        · exact absurd ⟨_, _, _, _, _, rfl, hsecret⟩ (not_startsSecret_in_redacted hne hz)
      · -- A separator does not begin like a key.
        obtain ⟨c, z, rfl⟩ := List.exists_cons_of_ne_nil hne
        obtain ⟨d, key, rfl⟩ := List.exists_cons_of_ne_nil (key_ne_nil hsecret.key_matches)
        obtain ⟨rfl, -⟩ := List.cons.inj hsecret.split
        have hkey := isKey_of_mem_key hsecret.key_matches c (List.mem_cons_self ..)
        have hsep := not_isKey_of_mem_separator hfound.sep_matches c
          (hz.subset (List.mem_cons_self ..))
        rw [hkey] at hsep
        cases hsep
    · -- The rest of a key, before the same separator and value.
      have hchars : ∀ c ∈ z, isKey c = true := fun c hc =>
        isKey_of_mem_key hfound.key_matches c (hz.subset hc)
      obtain ⟨rfl, -⟩ := run_unique hsecret.split hchars (isKey_of_mem_key hsecret.key_matches)
        (head_separator hfound.sep_matches _) (head_separator hsecret.sep_matches _)
      have hredacted : Secret (z ++ (sep' ++ (redacted ++ u))) z sep' redacted u :=
        ⟨rfl, hsecret.key_matches, hfound.sep_matches, by decide, by decide,
          Redacts.head next hfound.longest⟩
      exact (hsecret.unique hredacted).2.2.1

/-- The redacted text is the text with the values of its matches replaced from left to right, every
match in it has the replacement as its value, and redacting it again changes nothing. -/
theorem redact_complete (s : Text) : Redacts s (redact s) ∧
    (∀ before t key sep value rest, redact s = before ++ t → Secret t key sep value rest →
      value = redacted) ∧
    redact (redact s) = redact s := by
  refine ⟨redacts_redact s, ?_, ?_⟩
  · intro before t key sep value rest hsplit hsecret
    exact (redacts_redact s).value_eq ⟨before, hsplit.symm⟩ hsecret
  · apply (redacts_redact (redact s)).eq_self
    rintro w hw groups rest ⟨key, sep, value, rfl, hsecret⟩
    obtain rfl := (redacts_redact s).value_eq hw hsecret
    rw [hsecret.split]
    simp [hideValue]

example : redact (text "Token : abc, api-key=x=y") =
    text "Token : [REDACTED], api-key=[REDACTED]" := by decide

end Redaction

end JobRadar
