import JobRadar.Blocks
import JobRadar.PythonJson
import Mathlib.Tactic.Common

namespace Python

/-- A hexadecimal digit, in lower case. -/
def hexDigit (n : Nat) : Nat := if n < 10 then 48 + n else 87 + n

/-- A backslash, `u`, and four digits. -/
def unicodeEscape (unit : Nat) : Text :=
  [92, 117, hexDigit (unit / 4096 % 16), hexDigit (unit / 256 % 16), hexDigit (unit / 16 % 16),
    hexDigit (unit % 16)]

/-- How `json.dumps` writes a code point of a string, with `ensure_ascii` left on. -/
def escapeChar (c : Nat) : Text :=
  if c = 34 ∨ c = 92 then [92, c]
  else if c = 10 then [92, 110]
  else if c = 13 then [92, 114]
  else if c = 9 then [92, 116]
  else if c = 8 then [92, 98]
  else if c = 12 then [92, 102]
  else if 32 ≤ c ∧ c ≤ 126 then [c]
  else if c < 0x10000 then unicodeEscape c
  else
    unicodeEscape (0xD800 + (c - 0x10000) / 1024 % 1024) ++
      unicodeEscape (0xDC00 + (c - 0x10000) % 1024)

/-- The string between its quotes. -/
def escapeText (t : Text) : Text := (t.map escapeChar).flatten

def quoted (t : Text) : Text := 34 :: escapeText t ++ [34]

mutual

def Json.dumps : Json → Text
  | .null => text "null"
  | .bool b => text (if b then "true" else "false")
  | .int n => text (toString n)
  | .float repr =>
    if repr = text "nan" then text "NaN"
    else if repr = text "inf" then text "Infinity"
    else if repr = text "-inf" then text "-Infinity"
    else repr
  | .str t => quoted t
  | .arr [] => text "[]"
  | .arr (item :: items) => 91 :: item.dumps ++ dumpsItems items
  | .obj [] => text "\x7b\x7d"
  | .obj ((key, value) :: fields) =>
    123 :: quoted key ++ text ": " ++ value.dumps ++ dumpsFields fields

/-- The rest of an array. -/
def dumpsItems : List Json → Text
  | [] => [93]
  | item :: items => text ", " ++ item.dumps ++ dumpsItems items

/-- The rest of an object. -/
def dumpsFields : List (Text × Json) → Text
  | [] => [125]
  | (key, value) :: fields =>
    text ", " ++ quoted key ++ text ": " ++ value.dumps ++ dumpsFields fields

end

/-- The code points that need no escape. -/
def Plain (c : Nat) : Prop := 32 ≤ c ∧ c ≤ 126 ∧ c ≠ 34 ∧ c ≠ 92

instance (c : Nat) : Decidable (Plain c) := inferInstanceAs (Decidable (_ ∧ _))

section Escape

variable {c y : Nat} {t t' : Text}

theorem hexDigit_cases {n : Nat} (h : n < 16) :
    (48 ≤ hexDigit n ∧ hexDigit n ≤ 57) ∨ (97 ≤ hexDigit n ∧ hexDigit n ≤ 102) := by
  unfold hexDigit
  split_ifs <;> omega

/-- What stands behind the backslash of an escape, apart from the quote and the backslash. -/
def EscapeLetter (y : Nat) : Prop :=
  (48 ≤ y ∧ y ≤ 57) ∨ (97 ≤ y ∧ y ≤ 102) ∨ y = 110 ∨ y = 114 ∨ y = 116 ∨ y = 117

theorem mem_unicodeEscape {unit : Nat} (hy : y ∈ unicodeEscape unit) : y = 92 ∨ EscapeLetter y := by
  have hdigit : ∀ n, y = hexDigit (n % 16) → y = 92 ∨ EscapeLetter y := by
    rintro n rfl
    rcases hexDigit_cases (Nat.mod_lt n (by decide : 16 > 0)) with h | h
    · exact Or.inr (Or.inl h)
    · exact Or.inr (Or.inr (Or.inl h))
  simp only [unicodeEscape, List.mem_cons, List.not_mem_nil, or_false] at hy
  rcases hy with rfl | rfl | hy | hy | hy | hy
  · exact Or.inl rfl
  · exact Or.inr (by unfold EscapeLetter; omega)
  all_goals exact hdigit _ hy

theorem escapeChar_plain (h : Plain c) : escapeChar c = [c] := by
  obtain ⟨hlow, hhigh, hquote, hback⟩ := h
  unfold escapeChar
  repeat rw [if_neg (by omega)]
  rw [if_pos ⟨hlow, hhigh⟩]

theorem escapeChar_escape (h : ¬Plain c) : ∃ rest, escapeChar c = 92 :: rest ∧
    ∀ y ∈ rest, (y = 34 ∧ c = 34) ∨ y = 92 ∨ EscapeLetter y := by
  have hletter : ∀ {y d}, EscapeLetter d → y ∈ [d] →
      (y = 34 ∧ c = 34) ∨ y = 92 ∨ EscapeLetter y := by
    intro y d hd hy
    exact Or.inr (Or.inr (List.mem_singleton.mp hy ▸ hd))
  have hunit : ∀ {y unit}, y ∈ unicodeEscape unit →
      (y = 34 ∧ c = 34) ∨ y = 92 ∨ EscapeLetter y := fun hy => Or.inr (mem_unicodeEscape hy)
  unfold escapeChar
  split_ifs with hsame
  · refine ⟨[c], rfl, ?_⟩
    intro y hy
    have hy' := List.mem_singleton.mp hy
    rcases hsame with hquote | hback
    · exact Or.inl ⟨hy'.trans hquote, hquote⟩
    · exact Or.inr (Or.inl (hy'.trans hback))
  · exact ⟨[110], rfl, fun y => hletter (by unfold EscapeLetter; omega)⟩
  · exact ⟨[114], rfl, fun y => hletter (by unfold EscapeLetter; omega)⟩
  · exact ⟨[116], rfl, fun y => hletter (by unfold EscapeLetter; omega)⟩
  · exact ⟨[98], rfl, fun y => hletter (by unfold EscapeLetter; omega)⟩
  · exact ⟨[102], rfl, fun y => hletter (by unfold EscapeLetter; omega)⟩
  · have hplain : Plain c := by
      unfold Plain
      omega
    exact absurd hplain h
  · exact ⟨_, rfl, fun y hy => hunit (List.mem_cons_of_mem 92 hy)⟩
  · refine ⟨_, rfl, ?_⟩
    intro y hy
    rcases List.mem_append.mp hy with hhigh | hlow
    · exact hunit (List.mem_cons_of_mem 92 hhigh)
    · exact hunit hlow

theorem escapeChar_ne_nil (c : Nat) : escapeChar c ≠ [] := by
  by_cases hc : Plain c
  · rw [escapeChar_plain hc]
    exact List.cons_ne_nil _ _
  · obtain ⟨rest, hrest, -⟩ := escapeChar_escape hc
    rw [hrest]
    exact List.cons_ne_nil _ _

theorem escapeChar_printable (hy : y ∈ escapeChar c) : 32 ≤ y ∧ y ≤ 126 := by
  by_cases hc : Plain c
  · rw [escapeChar_plain hc, List.mem_singleton] at hy
    subst hy
    exact ⟨hc.1, hc.2.1⟩
  · obtain ⟨rest, hrest, hmem⟩ := escapeChar_escape hc
    rw [hrest] at hy
    rcases List.mem_cons.mp hy with rfl | hy
    · omega
    · have hcases := hmem y hy
      unfold EscapeLetter at hcases
      omega

theorem escapeText_append : escapeText (t ++ t') = escapeText t ++ escapeText t' := by
  simp [escapeText]

theorem escapeText_cons : escapeText (c :: t) = escapeChar c ++ escapeText t := rfl

theorem escapeText_plain (h : ∀ c ∈ t, Plain c) : escapeText t = t := by
  induction t with
  | nil => rfl
  | cons c t ih =>
    obtain ⟨hc, hrest⟩ := List.forall_mem_cons.mp h
    rw [escapeText_cons, escapeChar_plain hc, ih hrest]
    rfl

theorem escapeText_infix (h : t <:+: t') : escapeText t <:+: escapeText t' := by
  obtain ⟨before, after, rfl⟩ := h
  rw [escapeText_append, escapeText_append]
  exact ⟨_, _, rfl⟩

theorem prefix_escapeText {s : Text} (hback : 92 ∉ s) (h : s <+: escapeText t) :
    s <+: t ∧ ∀ c ∈ s, Plain c := by
  induction t generalizing s with
  | nil =>
    cases List.prefix_nil.mp h
    exact ⟨List.nil_prefix, by simp⟩
  | cons c t ih =>
    cases s with
    | nil => exact ⟨List.nil_prefix, by simp⟩
    | cons a s =>
      rw [escapeText_cons] at h
      by_cases hc : Plain c
      · rw [escapeChar_plain hc] at h
        obtain ⟨rfl, hrest⟩ := List.cons_prefix_cons.mp h
        obtain ⟨hhead, hplain⟩ := ih (fun hmem => hback (List.mem_cons_of_mem a hmem)) hrest
        exact ⟨List.cons_prefix_cons.mpr ⟨rfl, hhead⟩, List.forall_mem_cons.mpr ⟨hc, hplain⟩⟩
      · obtain ⟨rest, hescape, -⟩ := escapeChar_escape hc
        rw [hescape] at h
        obtain ⟨rfl, -⟩ := List.cons_prefix_cons.mp h
        exact absurd (List.mem_cons_self ..) hback

theorem infix_escapeText {s : Text} (hs : s ≠ []) (hback : 92 ∉ s) (h : s <:+: escapeText t) :
    (s <:+: t ∧ ∀ c ∈ s, Plain c) ∨
    ∃ c b, ¬Plain c ∧ b ≠ [] ∧ b <:+ escapeChar c ∧
      (s <+: b ∨ ∃ s', s = b ++ s' ∧ ∀ c ∈ s', Plain c) := by
  obtain ⟨front, x, back, b, hblocks, hb, hsuffix, hhead⟩ := Blocks.infix_flatten hs h
  obtain ⟨before, after, rfl, -, hafter⟩ := List.map_eq_append_iff.mp hblocks
  obtain ⟨c, after, rfl, rfl, rfl⟩ := List.map_eq_cons_iff.mp hafter
  by_cases hc : Plain c
  · left
    rw [escapeChar_plain hc] at hsuffix
    have hone : b = [c] := by
      rcases List.suffix_cons_iff.mp hsuffix with hsame | hnil
      · exact hsame
      · exact absurd (List.suffix_nil.mp hnil) hb
    subst hone
    cases s with
    | nil => exact absurd rfl hs
    | cons a s =>
      obtain ⟨rfl, hrest⟩ := List.cons_prefix_cons.mp hhead
      obtain ⟨hplace, hplain⟩ :=
        prefix_escapeText (fun hmem => hback (List.mem_cons_of_mem a hmem)) hrest
      have hpart : a :: s <+: a :: after := List.cons_prefix_cons.mpr ⟨rfl, hplace⟩
      exact ⟨hpart.isInfix.trans (List.suffix_append before _).isInfix,
        List.forall_mem_cons.mpr ⟨hc, hplain⟩⟩
  · refine Or.inr ⟨c, b, hc, hb, hsuffix, ?_⟩
    rcases List.prefix_or_prefix_of_prefix hhead (List.prefix_append b _) with hin | hout
    · exact Or.inl hin
    · obtain ⟨s', rfl⟩ := hout
      have hrest : s' <+: escapeText after := (List.prefix_append_right_inj b).mp hhead
      have hback' : 92 ∉ s' := fun hmem => hback (List.mem_append_right b hmem)
      exact Or.inr ⟨s', rfl, (prefix_escapeText hback' hrest).2⟩

theorem touched_escapeText {s : Text} (h : s <:+: escapeText t) :
    ∃ e, e <:+: t ∧ e.length ≤ s.length ∧ s <:+: escapeText e := by
  have hne : ∀ x ∈ t.map escapeChar, x ≠ [] := by
    intro x hx
    obtain ⟨c, -, rfl⟩ := List.mem_map.mp hx
    exact escapeChar_ne_nil c
  obtain ⟨part, hpart, hlength, hin⟩ := Blocks.touched hne h
  obtain ⟨e, he, rfl⟩ := List.infix_map_iff.mp hpart
  exact ⟨e, he, by rwa [List.length_map] at hlength, hin⟩

theorem dumps_string (t : Text) :
    Json.dumps (.arr [.str t]) = [91, 34] ++ escapeText t ++ [34, 93] := by
  simp [Json.dumps, dumpsItems, quoted]

/-- The array of one string shows a text because of a part of the string that is no longer than
the text, and shorter unless the text is within the string. -/
theorem touched_string {s : Text} (h : s <:+: Json.dumps (.arr [.str t])) :
    (∃ e, e <:+: t ∧ e.length < s.length ∧ s <:+: Json.dumps (.arr [.str e])) ∨
      s <:+: escapeText t := by
  have hblocks : Json.dumps (.arr [.str t]) =
      ([91, 34] :: (t.map escapeChar ++ [[34, 93]])).flatten := by
    rw [dumps_string, List.flatten_cons, List.flatten_append, List.flatten_singleton,
      List.append_assoc]
    rfl
  have hne : ∀ x ∈ [91, 34] :: (t.map escapeChar ++ [[34, 93]]), x ≠ [] := by
    intro x hx
    simp only [List.mem_cons, List.mem_append, List.mem_map, List.not_mem_nil, or_false] at hx
    rcases hx with rfl | ⟨c, -, rfl⟩ | rfl
    · exact List.cons_ne_nil _ _
    · exact escapeChar_ne_nil c
    · exact List.cons_ne_nil _ _
  rw [hblocks] at h
  obtain ⟨part, hpart, hlength, hin⟩ := Blocks.touched hne h
  rcases List.infix_cons_iff.mp hpart with hopen | hinner
  · rcases List.prefix_cons_iff.mp hopen with rfl | ⟨rest, rfl, hrest⟩
    · exact Or.inr (hin.trans List.nil_infix)
    · left
      rw [List.length_cons] at hlength
      rcases List.prefix_concat_iff.mp hrest with rfl | hrest
      · refine ⟨t, List.infix_rfl, ?_, ?_⟩
        · rw [List.length_append, List.length_map] at hlength
          omega
        · rw [hblocks]
          exact hin
      · obtain ⟨e, he, rfl⟩ := List.prefix_map_iff.mp hrest
        refine ⟨e, he.isInfix, ?_, ?_⟩
        · rw [List.length_map] at hlength
          exact hlength
        · rw [dumps_string]
          exact hin.trans (List.prefix_append _ _).isInfix
  · rcases List.infix_concat_iff.mp hinner with hclose | hinside
    · rcases List.suffix_concat_iff.mp hclose with rfl | ⟨rest, rfl, hrest⟩
      · exact Or.inr (hin.trans List.nil_infix)
      · obtain ⟨e, he, rfl⟩ := List.suffix_map_iff.mp hrest
        refine Or.inl ⟨e, he.isInfix, ?_, ?_⟩
        · rw [List.length_append, List.length_map] at hlength
          exact hlength
        · rw [dumps_string, List.append_assoc]
          rw [List.flatten_append, List.flatten_singleton] at hin
          exact hin.trans (List.suffix_append _ _).isInfix
    · obtain ⟨before, after, hinside⟩ := hinside
      refine Or.inr (hin.trans ?_)
      rw [escapeText, ← hinside, List.flatten_append, List.flatten_append]
      exact ⟨_, _, rfl⟩

theorem dumpsItems_cons (t : Text) (es : List Text) : dumpsItems ((t :: es).map .str) =
    text ", " ++ 34 :: (escapeText t ++ 34 :: dumpsItems (es.map .str)) := by
  simp [dumpsItems, Json.dumps, quoted]

theorem dumps_cons (t : Text) (es : List Text) : Json.dumps (.arr ((t :: es).map .str)) =
    [91] ++ 34 :: (escapeText t ++ 34 :: dumpsItems (es.map .str)) := by
  simp [Json.dumps, quoted]

section Strings

variable {s e : Text} {es : List Text}

theorem dumpsItems_infix (hquote : 34 ∉ s) (h : s <:+: dumpsItems (es.map .str)) :
    s <:+: text "[]" ∨ s <:+: text ", " ∨ ∃ e ∈ es, s <:+: escapeText e := by
  induction es with
  | nil => exact Or.inl (h.trans ⟨[91], [], rfl⟩)
  | cons e es ih =>
    rw [dumpsItems_cons] at h
    rcases (Blocks.infix_around hquote).mp h with hcomma | h
    · exact Or.inr (Or.inl hcomma)
    · rcases (Blocks.infix_around hquote).mp h with he | h
      · exact Or.inr (Or.inr ⟨e, List.mem_cons_self .., he⟩)
      · rcases ih h with hends | hcomma | ⟨e', he', hin⟩
        · exact Or.inl hends
        · exact Or.inr (Or.inl hcomma)
        · exact Or.inr (Or.inr ⟨e', List.mem_cons_of_mem e he', hin⟩)

theorem dumps_strings_infix (hquote : 34 ∉ s) (h : s <:+: Json.dumps (.arr (es.map .str))) :
    s <:+: text "[]" ∨ s <:+: text ", " ∨ ∃ e ∈ es, s <:+: escapeText e := by
  cases es with
  | nil => exact Or.inl h
  | cons e es =>
    rw [dumps_cons] at h
    rcases (Blocks.infix_around hquote).mp h with hopen | h
    · exact Or.inl (hopen.trans ⟨[], [93], rfl⟩)
    · rcases (Blocks.infix_around hquote).mp h with he | h
      · exact Or.inr (Or.inr ⟨e, List.mem_cons_self .., he⟩)
      · rcases dumpsItems_infix hquote h with hends | hcomma | ⟨e', he', hin⟩
        · exact Or.inl hends
        · exact Or.inr (Or.inl hcomma)
        · exact Or.inr (Or.inr ⟨e', List.mem_cons_of_mem e he', hin⟩)

theorem dumpsItems_shows (he : e ∈ es) : escapeText e <:+: dumpsItems (es.map .str) := by
  induction es with
  | nil => cases he
  | cons e' es ih =>
    rw [dumpsItems_cons]
    rcases List.mem_cons.mp he with rfl | he
    · exact ⟨text ", " ++ [34], 34 :: dumpsItems (es.map .str), by simp⟩
    · exact (ih he).trans ⟨text ", " ++ 34 :: escapeText e' ++ [34], [], by simp⟩

theorem dumps_strings_shows (he : e ∈ es) : escapeText e <:+: Json.dumps (.arr (es.map .str)) := by
  cases es with
  | nil => cases he
  | cons e' es =>
    rw [dumps_cons]
    rcases List.mem_cons.mp he with rfl | he
    · exact ⟨[91, 34], 34 :: dumpsItems (es.map .str), by simp⟩
    · exact (dumpsItems_shows he).trans ⟨[91, 34] ++ escapeText e' ++ [34], [], by simp⟩

end Strings

end Escape

end Python
