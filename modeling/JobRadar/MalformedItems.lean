import JobRadar.RunEnds

namespace JobRadar

open Database Python

/-- The values the title and the description of a posting are read from are of use. -/
structure Usable (title description : Json) : Prop where
  title : ∃ t, title = .str t
  description : description.truthy →
    ∃ t, description = .str t ∧ ∀ c ∈ t.strip, ¬isSurrogate c

/-- The items on the pages that are asked for, from page `page` on with `left` of them to come: up
to the first page without items. -/
def itemsRead (items : Nat → List Json) (page left : Nat) : List Json :=
  (((List.range' page left).map items).takeWhile (!·.isEmpty)).flatten

namespace SourceKind

/-- An item that is either missing its id or title or has a title and, if any, a description that
can be used; with an object or nothing where the location stands. -/
def Sound : SourceKind → Json → Prop
  | greenhouse, item => ∃ job, item = .obj job ∧
      ((Dict.getD job "location" .null).truthy →
        ∃ fields, Dict.getD job "location" .null = .obj fields) ∧
      (Dict.get job "id" ≠ none → ∀ title, Dict.get job "title" = some title →
        Usable title (Dict.getD job "content" (.str [])))
  | lever, item => ∃ job, item = .obj job ∧
      (Dict.get job "id" ≠ none → ∀ title, Dict.get job "text" = some title →
        (∃ fields, Dict.getD job "categories" (.obj []) = .obj fields) ∧
        Usable title (Dict.getD job "descriptionPlain" (Dict.getD job "description" (.str []))))

section Items

variable {lib : Stdlib} {kind : SourceKind}

theorem withIdAndTitle_ok_some {id title : Option Json}
    {record : Json → Json → Except PyError RawJobRecord} {r : RawJobRecord} :
    withIdAndTitle id title record = .ok (some r) ↔
      ∃ i t, id = some i ∧ title = some t ∧ record i t = .ok r := by
  cases id with
  | none => simp [withIdAndTitle]
  | some i =>
    cases title with
    | none => simp [withIdAndTitle]
    | some t => cases h : record i t <;> simp [withIdAndTitle, h, Except.map]

theorem legible_iff_usable {r : RawJobRecord} : r.Legible ↔ Usable r.title r.description :=
  ⟨fun h => ⟨h.title, h.description⟩, fun h => ⟨h.title, h.description⟩⟩

theorem sound_iff (lib : Stdlib) (kind : SourceKind) (item : Json) :
    kind.Sound item ↔ kind.Takes item ∧
      ∀ r, (kind.adapter lib).record item = .ok (some r) → r.Legible := by
  cases item with
  | obj job =>
    cases kind with
    | greenhouse =>
      simp only [Sound, Takes, Json.obj.injEq, exists_eq_left']
      refine and_congr_right fun hlocation => ?_
      obtain ⟨location, hl⟩ : ∃ location, getItem
          ((Dict.getD job "location" .null).orElse (.obj [])) "name" = .ok location := by
        rw [getItem_ok_iff, Json.orElse]
        split
        next ht => exact hlocation ht
        next => exact ⟨[], rfl⟩
      simp only [adapter, greenhouseAdapter, GreenhouseAdapter.record, hl, bind, Except.bind,
        withIdAndTitle_ok_some]
      constructor
      · rintro husable r ⟨id, title, hid, htitle, hr⟩
        cases hr
        exact legible_iff_usable.mpr (husable (by simp [hid]) title htitle)
      · intro hlegible hid title htitle
        obtain ⟨id, hid⟩ := Option.ne_none_iff_exists'.mp hid
        exact legible_iff_usable.mp (hlegible _ ⟨id, title, hid, htitle, rfl⟩)
    | lever =>
      simp only [Sound, Takes, Json.obj.injEq, exists_eq_left', adapter, leverAdapter,
        LeverAdapter.record, withIdAndTitle_ok_some]
      constructor
      · intro h
        constructor
        · intro hid htitle
          obtain ⟨title, htitle⟩ := Option.ne_none_iff_exists'.mp htitle
          exact (h hid title htitle).1
        · rintro r ⟨id, title, hid, htitle, hr⟩
          obtain ⟨hcategories, husable⟩ := h (by simp [hid]) title htitle
          obtain ⟨location, hl⟩ := (getItem_ok_iff _ "location").mpr hcategories
          simp only [hl, bind, Except.bind] at hr
          cases hr
          exact legible_iff_usable.mpr husable
      · rintro ⟨hcategories, hlegible⟩ hid title htitle
        have hfields := hcategories hid (by simp [htitle])
        obtain ⟨location, hl⟩ := (getItem_ok_iff _ "location").mpr hfields
        obtain ⟨id, hid⟩ := Option.ne_none_iff_exists'.mp hid
        simp only [hl, bind, Except.bind] at hlegible
        exact ⟨hfields, legible_iff_usable.mp (hlegible _ ⟨id, title, hid, htitle, rfl⟩)⟩
  | _ => cases kind <;> simp [Sound, Takes]

theorem readItems_taken (lib : Stdlib) {items : List Json} (h : ∀ item ∈ items, kind.Takes item) :
    ((kind.adapter lib).readItems items).records.length +
        ((kind.adapter lib).readItems items).malformedCount = items.length ∧
      ∀ r, r ∈ ((kind.adapter lib).readItems items).records ↔
        ∃ item ∈ items, (kind.adapter lib).record item = .ok (some r) := by
  induction items with
  | nil => simp [SourceAdapter.readItems]
  | cons item items ih =>
    obtain ⟨htaken, hrest⟩ := List.forall_mem_cons.mp h
    obtain ⟨hcount, hrecords⟩ := ih hrest
    obtain ⟨read, hr⟩ := (takes_iff lib kind item).mp htaken
    cases read with
    | none =>
      simp only [SourceAdapter.readItems, hr, Attempt.andThen, List.nil_append, List.length_cons,
        List.exists_mem_cons_iff, reduceCtorEq, Except.ok.injEq, false_or]
      exact ⟨by omega, hrecords⟩
    | some record =>
      simp only [SourceAdapter.readItems, hr, Attempt.andThen, List.singleton_append,
        List.length_cons]
      refine ⟨by omega, fun r => ?_⟩
      rw [List.mem_cons, hrecords, List.exists_mem_cons_iff, hr, Except.ok.injEq,
        Option.some.injEq, eq_comm]

end Items

end SourceKind

section Pages

variable {lib : Stdlib} {kind : SourceKind} {plan : FetchPlan} {client : AsyncClient} {url : Text}
  {items : Nat → List Json}

/-- The pages that are asked for are there, whatever their items are. -/
def PagesThere (kind : SourceKind) (lib : Stdlib) (client : AsyncClient) (url : Text)
    (items : Nat → List Json) (page left : Nat) : Prop :=
  ∀ p ∈ List.range' page left, ∃ payload,
    (client ((kind.adapter lib).pageUrl url p)).Delivers payload ∧ kind.Page payload (items p)

theorem itemsRead_succ (items : Nat → List Json) (page left : Nat) :
    itemsRead items page (left + 1) =
      if items page = [] then [] else items page ++ itemsRead items (page + 1) left := by
  rw [itemsRead, List.range'_succ, List.map_cons, List.takeWhile_cons]
  split
  next hitems =>
    have hsome : items page ≠ [] := by simpa using hitems
    rw [if_neg hsome, List.flatten_cons, itemsRead]
  next hitems =>
    have hnone : items page = [] := by simpa using hitems
    rw [if_pos hnone, List.flatten_nil]

theorem PagesThere.head {page left : Nat}
    (h : PagesThere kind lib client url items page (left + 1)) : ∃ payload,
      (client ((kind.adapter lib).pageUrl url page)).Delivers payload ∧
        kind.Page payload (items page) :=
  h page (by rw [List.range'_succ]; exact List.mem_cons_self ..)

theorem PagesThere.tail {page left : Nat}
    (h : PagesThere kind lib client url items page (left + 1)) :
    PagesThere kind lib client url items (page + 1) left :=
  fun p hp => h p (by rw [List.range'_succ]; exact List.mem_cons_of_mem _ hp)

theorem fetchPages_completed_iff (hurl : plan.url = .str url) (hwait : wait plan.interval = .ok ())
    {page left : Nat} (hthere : PagesThere kind lib client url items page left) :
    ((kind.adapter lib).fetchPages plan client page left).Completed ↔
      ∀ item ∈ itemsRead items page left, kind.Takes item := by
  induction left generalizing page with
  | zero => simp [SourceAdapter.fetchPages, Attempt.Completed, itemsRead]
  | succ left ih =>
    obtain ⟨payload, hpayload, hpage⟩ := hthere.head
    have hrest := ih hthere.tail
    rw [fetchPages_page hurl hwait hpayload hpage, itemsRead_succ]
    split
    next => simp [Attempt.Completed]
    next =>
      simp only [List.forall_mem_append, ← hrest, ← SourceKind.readItems_ok_iff lib]
      unfold Attempt.Completed Attempt.andThen
      cases hread : ((kind.adapter lib).readItems (items page)).ended with
      | error e => simp [hread]
      | ok _ => simp

theorem fetchPages_taken (hurl : plan.url = .str url) (hwait : wait plan.interval = .ok ())
    {page left : Nat} (hthere : PagesThere kind lib client url items page left)
    (htaken : ∀ item ∈ itemsRead items page left, kind.Takes item) :
    ((kind.adapter lib).fetchPages plan client page left).records.length +
        ((kind.adapter lib).fetchPages plan client page left).malformedCount =
      (itemsRead items page left).length ∧
    ∀ r, r ∈ ((kind.adapter lib).fetchPages plan client page left).records ↔
      ∃ item ∈ itemsRead items page left, (kind.adapter lib).record item = .ok (some r) := by
  induction left generalizing page with
  | zero => simp [SourceAdapter.fetchPages, itemsRead]
  | succ left ih =>
    obtain ⟨payload, hpayload, hpage⟩ := hthere.head
    rw [itemsRead_succ] at htaken ⊢
    rw [fetchPages_page hurl hwait hpayload hpage]
    by_cases hempty : items page = []
    · simp [hempty]
    · simp only [hempty, if_false, List.forall_mem_append] at htaken ⊢
      obtain ⟨hpagecount, hpagerecords⟩ := SourceKind.readItems_taken lib htaken.1
      obtain ⟨hcount, hrecords⟩ := ih hthere.tail htaken.2
      have hread := (SourceKind.readItems_ok_iff lib kind (items page)).mpr htaken.1
      simp only [Attempt.andThen, hread, List.length_append, List.mem_append, hpagerecords,
        hrecords, or_and_right, exists_or]
      exact ⟨by omega, fun r => trivial⟩

end Pages

/-- The fetch completes, gives a record or counts one up for each of the items, and gives only
records that are normalised. -/
structure MalformedIsolated (lib : Stdlib) (kind : SourceKind) (config : Dict)
    (client : AsyncClient) (companyName : Text) (read : List Json) : Prop where
  completed : ((kind.adapter lib).fetch lib config client).Completed
  counted : ((kind.adapter lib).fetch lib config client).records.length +
    ((kind.adapter lib).fetch lib config client).malformedCount = read.length
  normalized : ∀ r ∈ ((kind.adapter lib).fetch lib config client).records,
    ∃ c, normalizeRecord lib r companyName = .ok c

/-- Malformed items are isolated exactly where every item on the pages read is sound, and the
config has a link and an interval to work with. -/
theorem malformed_isolated_iff {lib : Stdlib} {kind : SourceKind} {config : Dict}
    {client : AsyncClient} {name : Json} {pages : Nat} {items : Nat → List Json}
    (companyName : Text) (hname : Dict.get config (kind.adapter lib).key = some name)
    (hrounds : pageCount (Dict.getD config "max_pages" (.int 1)) = .ok pages)
    (hthere : ∀ url, Dict.getD config "url" (.str ((kind.adapter lib).url (lib.str name))) =
      .str url → PagesThere kind lib client url items 0 pages) :
    MalformedIsolated lib kind config client companyName (itemsRead items 0 pages) ↔
      (0 < pages →
        (∃ url, Dict.getD config "url" (.str ((kind.adapter lib).url (lib.str name))) =
          .str url) ∧
        wait (Dict.getD config "rate_limit_seconds" (.float (text "0.0"))) = .ok ()) ∧
      ∀ item ∈ itemsRead items 0 pages, kind.Sound item := by
  obtain ⟨plan, hplan, hplanurl, hpages, hinterval⟩ : ∃ plan,
      (kind.adapter lib).plan lib config = .ok plan ∧
      plan.url = Dict.getD config "url" (.str ((kind.adapter lib).url (lib.str name))) ∧
      plan.pages = pages ∧
      plan.interval = Dict.getD config "rate_limit_seconds" (.float (text "0.0")) :=
    ⟨_, SourceAdapter.plan_eq hname hrounds, rfl, rfl, rfl⟩
  have hfetch : (kind.adapter lib).fetch lib config client =
      (kind.adapter lib).fetchPages plan client 0 pages := by
    simp only [SourceAdapter.fetch, hplan, hpages]
  by_cases hrequest : 0 < pages →
      (∃ url, Dict.getD config "url" (.str ((kind.adapter lib).url (lib.str name))) = .str url) ∧
      wait (Dict.getD config "rate_limit_seconds" (.float (text "0.0"))) = .ok ()
  · rw [and_iff_right hrequest]
    rcases Nat.eq_zero_or_pos pages with rfl | hpos
    · refine iff_of_true ⟨?_, ?_, ?_⟩ (by simp [itemsRead])
      all_goals rw [hfetch]
      · rfl
      · rfl
      · simp [SourceAdapter.fetchPages]
    · obtain ⟨⟨url, hurl⟩, hwait⟩ := hrequest hpos
      have hpagesThere := hthere url hurl
      rw [← hplanurl] at hurl
      rw [← hinterval] at hwait
      have hcompleted := fetchPages_completed_iff hurl hwait hpagesThere
      have htaken := fetchPages_taken hurl hwait hpagesThere
      rw [← hfetch] at hcompleted htaken
      constructor
      · intro h item hitem
        have htakes := hcompleted.mp h.completed
        refine (SourceKind.sound_iff lib kind item).mpr ⟨htakes item hitem, ?_⟩
        intro r hr
        have hmem := ((htaken htakes).2 r).mpr ⟨item, hitem, hr⟩
        exact (legible_iff lib companyName).mpr (h.normalized r hmem)
      · intro hsound
        have hsplit := fun item hitem => (SourceKind.sound_iff lib kind item).mp (hsound item hitem)
        obtain ⟨hcount, hrecords⟩ := htaken fun item hitem => (hsplit item hitem).1
        refine ⟨hcompleted.mpr fun item hitem => (hsplit item hitem).1, hcount, ?_⟩
        intro r hr
        obtain ⟨item, hitem, hrecord⟩ := (hrecords r).mp hr
        exact (legible_iff lib companyName).mp ((hsplit item hitem).2 r hrecord)
  · refine iff_of_false ?_ fun h => hrequest h.1
    intro h
    have hconfigured : ∃ url pages', kind.Configured lib config url pages' := by
      by_contra hnot
      obtain ⟨e, he, -⟩ := fetch_not_configured hnot
      have hended := he.symm.trans h.completed
      cases hended
    obtain ⟨url, pages', ⟨name', hname', hurl⟩, hrounds', hwait⟩ := hconfigured
    obtain rfl : name = name' := Option.some.inj (hname.symm.trans hname')
    obtain rfl : pages = pages' := Except.ok.inj (hrounds.symm.trans hrounds')
    exact hrequest fun hpos => ⟨⟨url, hurl hpos⟩, hwait hpos⟩

def boardPage (items : List Json) : HttpReply :=
  .response 200 none (some (.obj [(text "jobs", .arr items)]))

theorem boardPage_there (url : Text) (items : List Json) :
    PagesThere .greenhouse emptyTextLib (fun _ => boardPage items) url (fun _ => items) 0 1 :=
  fun _ _ => ⟨_, ⟨200, none, rfl, by decide⟩, _, rfl, Or.inl rfl⟩

/-- A page with an item that is null. -/
theorem null_item_raises :
    PagesThere .greenhouse emptyTextLib (fun _ => boardPage [.null]) [] (fun _ => [.null]) 0 1 ∧
    ((SourceKind.greenhouse.adapter emptyTextLib).fetch emptyTextLib acmeCall.config
      (fun _ => boardPage [.null])).ended = .error .attributeError ∧
    ¬MalformedIsolated emptyTextLib .greenhouse acmeCall.config (fun _ => boardPage [.null])
      (text "Acme") (itemsRead (fun _ => [.null]) 0 1) := by
  refine ⟨boardPage_there [] [.null], rfl, ?_⟩
  intro h
  exact nomatch h.completed

/-- An item without id and title next to a posting. -/
theorem missing_id_isolated : MalformedIsolated emptyTextLib .greenhouse acmeCall.config
    (fun _ => boardPage [.obj [], .obj [(text "id", .int 1),
      (text "title", .str (text "Backend"))]])
    (text "Acme")
    (itemsRead (fun _ => [.obj [], .obj [(text "id", .int 1),
      (text "title", .str (text "Backend"))]]) 0 1) := by
  have hname : Dict.get acmeCall.config "board" = some (.str (text "acme")) := rfl
  refine (malformed_isolated_iff (text "Acme") hname rfl
    fun url _ => boardPage_there url _).mpr ⟨fun _ => ⟨⟨_, rfl⟩, rfl⟩, ?_⟩
  intro item hitem
  rcases List.mem_pair.mp hitem with rfl | rfl
  · exact ⟨_, rfl, fun hlocation => absurd hlocation (by decide), fun hid => absurd rfl hid⟩
  · refine ⟨_, rfl, fun hlocation => absurd hlocation (by decide), fun _ title htitle => ?_⟩
    cases htitle
    exact ⟨⟨_, rfl⟩, fun hdescription => absurd hdescription (by decide)⟩

end JobRadar
