import JobRadar.JsonDumps
import JobRadar.TextFilters

namespace JobRadar

open Database Python

/-- The cast to text of a JSON column. -/
def jsonColumnText (items : List Json) : Text := Json.dumps (.arr items)

/-- The filter lists exactly the jobs, among those the other filters let through and whose
locations are texts, that have the location within one of theirs. -/
def LocationFilterExact (location : Text) : Prop :=
  ∀ (c : JobCatalog) (lower : Text → Text) (u : Casefold) (userId : Uuid) (f : JobFilters)
    (pageSize : Nat) (job : Job) (es : List Text), 0 < pageSize → job.locations = es.map .str →
    ((∃ page, job ∈ (c.list ⟨lower, jsonColumnText⟩ u userId
        { f with location := some location } page pageSize).1) ↔
      (∃ page, job ∈ (c.list ⟨lower, jsonColumnText⟩ u userId
        { f with location := none } page pageSize).1) ∧ ∃ e ∈ es, location <:+: e)

/-- What that means for the column of one job. -/
def ColumnSearchExact (location : Text) : Prop :=
  ∀ es : List Text, sqlContains (jsonColumnText (es.map .str)) location = true ↔
    ∃ e ∈ es, location <:+: e

/-- Nothing in the location is escaped, it is not among the brackets and commas of an array, and
it neither begins with the end of an escape nor lies within one. -/
structure EncodedAsIs (location : Text) : Prop where
  plain : ∀ c ∈ location, Plain c
  brackets : ¬location <:+: text "[]"
  comma : ¬location <:+: text ", "
  escapes : ∀ c b, ¬Plain c → b ≠ [] → b <:+ escapeChar c → ¬location <+: b ∧ ¬b <+: location

section Filter

variable {location : Text}

theorem locationFilterExact_iff (hlocation : location ≠ []) :
    LocationFilterExact location ↔ ColumnSearchExact location := by
  have hfilter : ∀ (f : JobFilters) (q : SqlText) u (job : Job) row,
      JobFilters.admits { f with location := some location } q u job row =
        (JobFilters.admits { f with location := none } q u job row &&
          sqlContains (q.jsonText job.locations) location) := by
    intro f q u job row
    have hsome : location.isEmpty = false := List.isEmpty_eq_false_iff.mpr hlocation
    simp only [JobFilters.admits, Option.all_some, Option.all_none, hsome, Bool.false_or,
      Bool.and_true]
  constructor
  · intro hexact es
    let job : Job := ⟨⟨[], [], [], es.map .str⟩, 1, [], [], []⟩
    have h := hexact (.single 1 job) id .ascii 1 {} 1 job es (by decide) rfl
    rw [JobCatalog.single_listed_iff (by decide) rfl, JobCatalog.single_listed_iff (by decide) rfl,
      hfilter] at h
    have hopen : JobFilters.admits { location := none } ⟨id, jsonColumnText⟩ .ascii job {} = true :=
      rfl
    simpa [hopen] using h
  · intro hes c lower u userId f pageSize job es hsize hlocations
    rw [JobCatalog.exists_page_iff hsize, JobCatalog.exists_page_iff hsize, ← hes, ← hlocations]
    simp only [JobCatalog.Satisfies, hfilter, Bool.and_eq_true]
    tauto

theorem not_isMark {c : Nat} (hmany : 37 ∉ location) (hany : 95 ∉ location)
    (hback : 92 ∉ location) (hc : c ∈ location) : ¬IsMark c := by
  rintro (rfl | rfl | rfl)
  · exact hmany hc
  · exact hany hc
  · exact hback hc

theorem length_le_of_found {e : Text} (hexact : ColumnSearchExact location)
    (hfound : sqlContains (jsonColumnText [.str e]) location = true) :
    location.length ≤ e.length := by
  obtain ⟨e', he', hin⟩ := (hexact [e]).mp hfound
  cases List.mem_singleton.mp he'
  exact hin.length_le

theorem own_found (hexact : ColumnSearchExact location) :
    sqlContains (jsonColumnText [.str location]) location = true :=
  (hexact [location]).mpr ⟨location, List.mem_singleton.mpr rfl, List.infix_rfl⟩

theorem no_backslash (hexact : ColumnSearchExact location) (hmany : 37 ∉ location)
    (hany : 95 ∉ location) : 92 ∉ location := by
  intro hback
  have hown := own_found hexact
  rcases sqlContains_literal hmany hany with ⟨s, -, hshorter, hsearch⟩ | hlast
  · have hshort := hshorter hback
    have hfound : ∃ e : Text, e.length < location.length ∧
        s <:+: jsonColumnText [.str e] := by
      rcases touched_string ((hsearch _).mp hown) with ⟨e, -, hlt, hin⟩ | hin
      · exact ⟨e, hlt.trans hshort, hin⟩
      · obtain ⟨e, -, hle, hin⟩ := touched_escapeText hin
        exact ⟨e, Nat.lt_of_le_of_lt hle hshort,
          hin.trans (dumps_strings_shows (List.mem_singleton.mpr rfl))⟩
    obtain ⟨e, hlt, hin⟩ := hfound
    have hle := length_le_of_found hexact ((hsearch _).mpr hin)
    omega
  · have hend := hlast _ hown
    rw [jsonColumnText, dumps_string, List.getLast?_append] at hend
    cases hend

theorem search_iff (hmany : 37 ∉ location) (hany : 95 ∉ location) (hback : 92 ∉ location)
    (t : Text) : sqlContains t location = true ↔ location <:+: t :=
  sqlContains_plain fun _ hc => not_isMark hmany hany hback hc

theorem jsonColumnText_printable {t : Text} {c : Nat} (hc : c ∈ jsonColumnText [.str t]) :
    32 ≤ c ∧ c ≤ 126 := by
  have hopen : ∀ c ∈ [91, 34], 32 ≤ c ∧ c ≤ 126 := by decide
  have hclose : ∀ c ∈ [34, 93], 32 ≤ c ∧ c ≤ 126 := by decide
  rw [jsonColumnText, dumps_string] at hc
  rcases List.mem_append.mp hc with hc | hc
  · rcases List.mem_append.mp hc with hc | hc
    · exact hopen c hc
    · obtain ⟨block, hblock, hc⟩ := List.mem_flatten.mp hc
      obtain ⟨x, -, rfl⟩ := List.mem_map.mp hblock
      exact escapeChar_printable hc
  · exact hclose c hc

theorem quote_first (hback : 92 ∉ location) (hquote : 34 ∈ location)
    (hin : location <:+: escapeText location) :
    ∃ rest, location = 34 :: rest ∧ ∀ c ∈ rest, Plain c := by
  have hne : location ≠ [] := List.ne_nil_of_mem hquote
  have hquoted : ¬Plain 34 := by decide
  rcases infix_escapeText hne hback hin with ⟨-, hplain⟩ | ⟨c, b, hc, hb, hsuffix, hstart⟩
  · exact absurd (hplain 34 hquote) hquoted
  have hmem : 34 ∈ b := by
    rcases hstart with hhead | ⟨s, rfl, hs⟩
    · exact hhead.subset hquote
    · rcases List.mem_append.mp hquote with hmem | hmem
      · exact hmem
      · exact absurd (hs 34 hmem) hquoted
  obtain ⟨rest, hescape, hletters⟩ := escapeChar_escape hc
  have hsame : c = 34 := by
    rw [hescape] at hsuffix
    rcases List.mem_cons.mp (hsuffix.subset hmem) with h | h
    · cases h
    · rcases hletters 34 h with ⟨-, h⟩ | h | h
      · exact h
      · cases h
      · unfold EscapeLetter at h
        omega
  subst hsame
  -- Of the escape of the quote, only the quote is free of backslashes.
  rcases List.suffix_cons_iff.mp (hsuffix : b <:+ [92, 34]) with rfl | hsuffix
  · rcases hstart with hhead | ⟨s, rfl, -⟩
    · rcases List.prefix_cons_iff.mp hhead with rfl | ⟨t, rfl, -⟩
      · exact absurd rfl hne
      · exact absurd (List.mem_cons_self ..) hback
    · exact absurd (List.mem_cons_self ..) hback
  · have hone : b = [34] := by
      rcases List.suffix_cons_iff.mp hsuffix with h | h
      · exact h
      · exact absurd (List.suffix_nil.mp h) hb
    subst hone
    rcases hstart with hhead | ⟨s, rfl, hs⟩
    · rcases List.prefix_cons_iff.mp hhead with rfl | ⟨t, rfl, ht⟩
      · exact absurd rfl hne
      · exact ⟨t, rfl, by simp [List.prefix_nil.mp ht]⟩
    · exact ⟨s, rfl, hs⟩

theorem plain_of_exact (hexact : ColumnSearchExact location) (hmany : 37 ∉ location)
    (hany : 95 ∉ location) : ∀ c ∈ location, Plain c := by
  have hback := no_backslash hexact hmany hany
  have hown := own_found hexact
  rw [search_iff hmany hany hback] at hown
  have hquote : 34 ∉ location := by
    intro hquote
    rcases touched_string hown with ⟨e, -, hlt, hin⟩ | hin
    · have hle := length_le_of_found hexact ((search_iff hmany hany hback _).mpr hin)
      omega
    · obtain ⟨rest, rfl, hrest⟩ := quote_first hback hquote hin
      have hfound : 34 :: rest <:+: jsonColumnText [.str rest] := by
        rw [jsonColumnText, dumps_string, escapeText_plain hrest]
        exact ⟨[91], [34, 93], by simp⟩
      have hle := length_le_of_found hexact ((search_iff hmany hany hback _).mpr hfound)
      rw [List.length_cons] at hle
      omega
  intro c hc
  obtain ⟨hlow, hhigh⟩ := jsonColumnText_printable (hown.subset hc)
  exact ⟨hlow, hhigh, fun h => hquote (h ▸ hc), fun h => hback (h ▸ hc)⟩

theorem encodedAsIs_of_exact (hexact : ColumnSearchExact location) (hlocation : location ≠ [])
    (hmany : 37 ∉ location) (hany : 95 ∉ location) : EncodedAsIs location := by
  have hplain := plain_of_exact hexact hmany hany
  have hsearch := search_iff hmany hany (no_backslash hexact hmany hany)
  refine ⟨hplain, ?_, ?_, ?_⟩
  · intro hin
    obtain ⟨e, he, -⟩ := (hexact []).mp ((hsearch _).mpr hin)
    cases he
  · intro hin
    have hfound : location <:+: jsonColumnText [.str [], .str []] :=
      hin.trans ⟨[91, 34, 34], [34, 34, 93], rfl⟩
    obtain ⟨e, he, hin⟩ := (hexact [[], []]).mp ((hsearch _).mpr hfound)
    have hnil : e = [] := by simpa using he
    rw [hnil] at hin
    exact hlocation (List.infix_nil.mp hin)
  · intro c b hc hb hsuffix
    -- A location with the escaped character in front, found although it is too short or differs.
    have hdiffers : ∀ rest : Text, (∀ x ∈ rest, Plain x) → rest.length < location.length →
        ¬location <:+: escapeChar c ++ rest := by
      intro rest hrest hlong hin
      have hshown : location <:+: jsonColumnText [.str (c :: rest)] := by
        rw [jsonColumnText, dumps_string, escapeText_cons, escapeText_plain hrest]
        exact hin.trans ⟨[91, 34], [34, 93], rfl⟩
      obtain ⟨e, he, hpart⟩ := (hexact [c :: rest]).mp ((hsearch _).mpr hshown)
      cases List.mem_singleton.mp he
      have hwhole := hpart.eq_of_length_le hlong
      exact hc (hplain c (hwhole ▸ List.mem_cons_self ..))
    constructor
    · intro hhead
      refine hdiffers [] (by simp) (List.length_pos_iff.mpr hlocation) ?_
      rw [List.append_nil]
      exact hhead.isInfix.trans hsuffix.isInfix
    · rintro ⟨rest, rfl⟩
      refine hdiffers rest (fun x hx => hplain x (List.mem_append_right b hx)) ?_ ?_
      · have hpos := List.length_pos_iff.mpr hb
        rw [List.length_append]
        omega
      · obtain ⟨before, hbefore⟩ := hsuffix
        rw [← hbefore, List.append_assoc]
        exact (List.suffix_append before _).isInfix

theorem exact_of_encodedAsIs (h : EncodedAsIs location) (hlocation : location ≠ [])
    (hmany : 37 ∉ location) (hany : 95 ∉ location) : ColumnSearchExact location := by
  have hback : 92 ∉ location := fun hc => absurd (h.plain 92 hc) (by decide)
  have hquote : 34 ∉ location := fun hc => absurd (h.plain 34 hc) (by decide)
  intro es
  rw [search_iff hmany hany hback]
  constructor
  · intro hin
    rcases dumps_strings_infix hquote hin with hbrackets | hcomma | ⟨e, he, hin⟩
    · exact absurd hbrackets h.brackets
    · exact absurd hcomma h.comma
    · refine ⟨e, he, ?_⟩
      rcases infix_escapeText hlocation hback hin with ⟨hpart, -⟩ | ⟨c, b, hc, hb, hsuffix, hstart⟩
      · exact hpart
      · obtain ⟨hwithin, hbegins⟩ := h.escapes c b hc hb hsuffix
        rcases hstart with hhead | ⟨rest, hrest, -⟩
        · exact absurd hhead hwithin
        · exact absurd ⟨rest, hrest.symm⟩ hbegins
  · rintro ⟨e, he, hpart⟩
    have hin : escapeText location <:+: escapeText e := escapeText_infix hpart
    rw [escapeText_plain h.plain] at hin
    exact hin.trans (dumps_strings_shows he)

/-- The location filter is exact just for the texts that the encoding of the column keeps as they
are and shows nowhere else. -/
theorem location_filter_exact_iff (hlocation : location ≠ []) (hmany : 37 ∉ location)
    (hany : 95 ∉ location) : LocationFilterExact location ↔ EncodedAsIs location := by
  rw [locationFilterExact_iff hlocation]
  constructor
  · intro hexact
    exact encodedAsIs_of_exact hexact hlocation hmany hany
  · intro h
    exact exact_of_encodedAsIs h hlocation hmany hany

theorem encodedAsIs_of_capital {letter : Nat} {rest : Text} (hletter : 65 ≤ letter ∧ letter ≤ 90)
    (hrest : ∀ c ∈ rest, Plain c) : EncodedAsIs (letter :: rest) where
  plain := by
    refine List.forall_mem_cons.mpr ⟨?_, hrest⟩
    unfold Plain
    omega
  brackets := by
    intro hin
    have hmem : letter ∈ [91, 93] := hin.subset (List.mem_cons_self ..)
    simp only [List.mem_cons, List.not_mem_nil, or_false] at hmem
    omega
  comma := by
    intro hin
    have hmem : letter ∈ [44, 32] := hin.subset (List.mem_cons_self ..)
    simp only [List.mem_cons, List.not_mem_nil, or_false] at hmem
    omega
  escapes := by
    intro c b hc hb hsuffix
    have hnot : letter ∉ b := by
      intro hmem
      obtain ⟨letters, hescape, hletters⟩ := escapeChar_escape hc
      rcases List.mem_cons.mp (hescape ▸ hsuffix.subset hmem) with h | h
      · omega
      · have hcases := hletters letter h
        unfold EscapeLetter at hcases
        omega
    constructor
    · intro hhead
      exact hnot (hhead.subset (List.mem_cons_self ..))
    · intro hhead
      rcases List.prefix_cons_iff.mp hhead with rfl | ⟨t, rfl, -⟩
      · exact hb rfl
      · exact hnot (List.mem_cons_self ..)

theorem pune_searched : LocationFilterExact (text "Pune") :=
  (location_filter_exact_iff (by decide) (by decide) (by decide)).mpr
    (encodedAsIs_of_capital (by decide) (by decide))

def jobIn (locations : List Text) : Job := ⟨⟨[], [], [], locations.map .str⟩, 1, [], [], []⟩

/-- A location beyond ASCII is never found, and a line break is found as the letter n. -/
theorem zurich_missed :
    ((JobCatalog.single 1 (jobIn [text "Zürich"])).list ⟨id, jsonColumnText⟩ .ascii 1
      { location := some (text "Zürich") } 1 20).2 = 0 ∧
    ¬LocationFilterExact (text "Zürich") ∧
    ((JobCatalog.single 1 (jobIn [[10] ++ text "Pune"])).list ⟨id, jsonColumnText⟩ .ascii 1
      { location := some (text "nPune") } 1 20).2 = 1 ∧
    ¬LocationFilterExact (text "nPune") := by
  refine ⟨by decide, ?_, by decide, ?_⟩
  · intro hexact
    have hown := own_found ((locationFilterExact_iff (by decide)).mp hexact)
    revert hown
    decide
  · intro hexact
    obtain ⟨e, he, hin⟩ := ((locationFilterExact_iff (by decide)).mp hexact
      [[10] ++ text "Pune"]).mp (by decide)
    cases List.mem_singleton.mp he
    revert hin
    decide

end Filter

end JobRadar
