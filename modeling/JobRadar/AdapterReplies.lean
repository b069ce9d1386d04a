import JobRadar.SourceAdapters
import JobRadar.Stages

namespace JobRadar

open Database Python Stages

namespace PyError

def isAdapterError : PyError → Bool
  | .adapterError _ _ => true
  | _ => false

def isRetryable : PyError → Bool
  | .adapterError _ retryable => retryable
  | _ => false

end PyError

namespace Attempt

def Completed (a : Attempt) : Prop := a.ended = .ok ()

/-- Cut short by an exception of another class than `AdapterError`. -/
def Escaped (a : Attempt) : Prop := ∃ e, a.ended = .error e ∧ ¬e.isAdapterError

def Retries (a : Attempt) : Prop := ∃ e, a.ended = .error e ∧ e.isRetryable

theorem Retries.not_escaped {a : Attempt} (h : a.Retries) : ¬a.Escaped := by
  rintro ⟨e, he, hescaped⟩
  obtain ⟨e', he', hretryable⟩ := h
  obtain rfl : e' = e := Except.error.inj (he'.symm.trans he)
  cases e' <;> simp_all [PyError.isAdapterError, PyError.isRetryable]

theorem Retries.not_completed {a : Attempt} (h : a.Retries) : ¬a.Completed := by
  intro hcompleted
  obtain ⟨e, he, _⟩ := h
  exact nomatch he.symm.trans hcompleted

end Attempt

namespace HttpReply

/-- A failure of the request, or an error status. -/
def Failing : HttpReply → Prop
  | .requestError => True
  | .otherError => False
  | .response status _ _ => 400 ≤ status

/-- A failure after which the fetch is tried again. -/
def Retryable : HttpReply → Prop
  | .requestError => True
  | .otherError => False
  | .response status _ _ => status = 429 ∨ 500 ≤ status

def Delivers (reply : HttpReply) (payload : Json) : Prop :=
  ∃ status retryAfter, reply = .response status retryAfter (some payload) ∧ status < 400

end HttpReply

/-- The items of a JSON value as a list; an empty value has none. -/
def ListsItems (value : Json) (items : List Json) : Prop :=
  value = .arr items ∨ (¬value.truthy ∧ items = [])

namespace SourceKind

/-- The payload is a page of the provider with these items. -/
def Page : SourceKind → Json → List Json → Prop
  | greenhouse, payload, items =>
    ∃ fields, payload = .obj fields ∧ ListsItems (Dict.getD fields "jobs" (.arr [])) items
  | lever, payload, items => ListsItems payload items

/-- An item that is read as a record or counted as malformed: an object, with an object or
nothing where the location stands. Lever's is only looked at with the id and title there. -/
def Takes : SourceKind → Json → Prop
  | greenhouse, item => ∃ job, item = .obj job ∧
      ((Dict.getD job "location" .null).truthy →
        ∃ fields, Dict.getD job "location" .null = .obj fields)
  | lever, item => ∃ job, item = .obj job ∧
      (Dict.get job "id" ≠ none → Dict.get job "text" ≠ none →
        ∃ fields, Dict.getD job "categories" (.obj []) = .obj fields)

/-- A reply with a page that can be read. -/
def Delivers (kind : SourceKind) (reply : HttpReply) (items : List Json) : Prop :=
  ∃ payload, reply.Delivers payload ∧ kind.Page payload items ∧ ∀ item ∈ items, kind.Takes item

def Handles (kind : SourceKind) (reply : HttpReply) : Prop :=
  reply.Failing ∨ ∃ items, kind.Delivers reply items

/-- A page after which the next one is asked for. -/
def Continues (kind : SourceKind) (reply : HttpReply) : Prop :=
  ∃ items, kind.Delivers reply items ∧ items ≠ []

end SourceKind

section Items

variable {lib : Stdlib} {kind : SourceKind}

theorem withIdAndTitle_ok_iff {id title : Option Json}
    {record : Json → Json → Except PyError RawJobRecord} :
    (∃ r, withIdAndTitle id title record = .ok r) ↔
      ∀ i, id = some i → ∀ t, title = some t → ∃ r, record i t = .ok r := by
  cases id with
  | none => simp [withIdAndTitle]
  | some i =>
    cases title with
    | none => simp [withIdAndTitle]
    | some t => cases h : record i t <;> simp [withIdAndTitle, h, Except.map]

theorem withIdAndTitle_error {id title : Option Json}
    {record : Json → Json → Except PyError RawJobRecord} {e : PyError}
    (h : withIdAndTitle id title record = .error e) : ∃ i t, record i t = .error e := by
  unfold withIdAndTitle at h
  split at h
  next i t =>
    cases hr : record i t with
    | error e' =>
      rw [hr] at h
      cases h
      exact ⟨i, t, hr⟩
    | ok r =>
      rw [hr] at h
      cases h
  next => cases h

theorem getItem_ok_iff (value : Json) (key : String) :
    (∃ item, getItem value key = .ok item) ↔ ∃ fields, value = .obj fields := by
  cases value <;> simp [getItem]

theorem getItem_error {value : Json} {key : String} {e : PyError}
    (h : getItem value key = .error e) : e = .attributeError := by
  cases value <;> simp_all [getItem]

namespace SourceKind

theorem takes_iff (lib : Stdlib) (kind : SourceKind) (item : Json) :
    kind.Takes item ↔ ∃ r, (kind.adapter lib).record item = .ok r := by
  cases item with
  | obj job =>
    cases kind with
    | greenhouse =>
      have hlocation : (∃ location, getItem
          ((Dict.getD job "location" .null).orElse (.obj [])) "name" = .ok location) ↔
          ((Dict.getD job "location" .null).truthy →
            ∃ fields, Dict.getD job "location" .null = .obj fields) := by
        rw [getItem_ok_iff, Json.orElse]
        split
        next ht => simp [ht]
        next ht => simp [ht]
      simp only [Takes, Json.obj.injEq, exists_eq_left', ← hlocation, adapter, greenhouseAdapter,
        GreenhouseAdapter.record, bind, Except.bind]
      constructor
      · rintro ⟨location, hl⟩
        rw [hl]
        exact withIdAndTitle_ok_iff.mpr fun _ _ _ _ => ⟨_, rfl⟩
      · rintro ⟨r, hr⟩
        split at hr
        next => cases hr
        next location hl => exact ⟨location, hl⟩
    | lever =>
      have hlocation := getItem_ok_iff (Dict.getD job "categories" (.obj [])) "location"
      simp only [Takes, Json.obj.injEq, exists_eq_left', ← hlocation, adapter, leverAdapter,
        LeverAdapter.record, withIdAndTitle_ok_iff, bind, Except.bind]
      constructor
      · intro htakes id hid title htitle
        obtain ⟨location, hl⟩ := htakes (by simp [hid]) (by simp [htitle])
        rw [hl]
        exact ⟨_, rfl⟩
      · intro hrecord hid htitle
        obtain ⟨id, hid⟩ := Option.ne_none_iff_exists'.mp hid
        obtain ⟨title, htitle⟩ := Option.ne_none_iff_exists'.mp htitle
        obtain ⟨r, hr⟩ := hrecord id hid title htitle
        split at hr
        next => cases hr
        next location hl => exact ⟨location, hl⟩
  | _ => cases kind <;> simp [Takes, adapter, greenhouseAdapter, leverAdapter,
      GreenhouseAdapter.record, LeverAdapter.record]

theorem record_error {item : Json} {e : PyError}
    (h : (kind.adapter lib).record item = .error e) : e = .attributeError := by
  cases item with
  | obj job =>
    cases kind with
    | greenhouse =>
      simp only [adapter, greenhouseAdapter, GreenhouseAdapter.record, bind, Except.bind] at h
      split at h
      next hl => cases h; exact getItem_error hl
      next =>
        obtain ⟨_, _, hr⟩ := withIdAndTitle_error h
        cases hr
    | lever =>
      simp only [adapter, leverAdapter, LeverAdapter.record, bind, Except.bind] at h
      obtain ⟨_, _, hr⟩ := withIdAndTitle_error h
      split at hr
      next hl => cases hr; exact getItem_error hl
      next => cases hr
  | _ =>
    cases kind <;> simp_all [adapter, greenhouseAdapter, leverAdapter, GreenhouseAdapter.record,
      LeverAdapter.record]

theorem page_iff (lib : Stdlib) (kind : SourceKind) (payload : Json) (items : List Json) :
    kind.Page payload items ↔
      ∃ value, (kind.adapter lib).listing payload = .ok value ∧ ListsItems value items := by
  cases kind with
  | greenhouse =>
    cases payload <;> simp [Page, adapter, greenhouseAdapter, GreenhouseAdapter.listing]
  | lever => simp [Page, adapter, leverAdapter]

theorem listing_error {payload : Json} {e : PyError}
    (h : (kind.adapter lib).listing payload = .error e) : e = .attributeError := by
  cases kind with
  | greenhouse =>
    cases payload <;> simp_all [adapter, greenhouseAdapter, GreenhouseAdapter.listing]
  | lever => cases h

theorem not_takes_str (t : Text) : ¬kind.Takes (.str t) := by
  cases kind <;> simp [Takes]

theorem iterate_takes {value : Json} {items : List Json} (htruthy : value.truthy)
    (hiterate : iterate value = .ok items) (htakes : ∀ item ∈ items, kind.Takes item) :
    value = .arr items := by
  cases value with
  | arr items' => cases hiterate; rfl
  | str t =>
    cases hiterate
    cases t with
    | nil => simp [Json.truthy] at htruthy
    | cons c t => exact absurd (htakes (.str [c]) (by simp)) (not_takes_str [c])
  | obj fields =>
    cases hiterate
    cases fields with
    | nil => simp [Json.truthy] at htruthy
    | cons field fields => exact absurd (htakes (.str field.1) (by simp)) (not_takes_str _)
  | null => cases hiterate
  | bool b => cases hiterate
  | int n => cases hiterate
  | float repr => cases hiterate

theorem readItems_ok_iff (lib : Stdlib) (kind : SourceKind) (items : List Json) :
    ((kind.adapter lib).readItems items).ended = .ok () ↔ ∀ item ∈ items, kind.Takes item := by
  induction items with
  | nil => simp [SourceAdapter.readItems]
  | cons item items ih =>
    have htakes := takes_iff lib kind item
    simp only [SourceAdapter.readItems, List.forall_mem_cons, htakes, ← ih]
    cases hr : (kind.adapter lib).record item with
    | error e => simp [Attempt.raised]
    | ok r => cases r <;> simp [Attempt.andThen]

theorem readItems_error {items : List Json} {e : PyError}
    (h : ((kind.adapter lib).readItems items).ended = .error e) : e = .attributeError := by
  induction items with
  | nil => cases h
  | cons item items ih =>
    simp only [SourceAdapter.readItems] at h
    cases hr : (kind.adapter lib).record item with
    | error e' =>
      rw [hr] at h
      cases h
      exact record_error hr
    | ok r =>
      rw [hr] at h
      cases r <;> exact ih h

end SourceKind

end Items

namespace HttpReply

variable {reply : HttpReply} {payload : Json}

theorem Delivers.not_failing (h : reply.Delivers payload) : ¬reply.Failing := by
  obtain ⟨status, _, rfl, hs⟩ := h
  simp only [Failing]
  omega

theorem Retryable.failing (h : reply.Retryable) : reply.Failing := by
  cases reply with
  | requestError => trivial
  | otherError => exact h
  | response status _ _ =>
    simp only [Retryable] at h
    simp only [Failing]
    omega

end HttpReply

section Pages

variable {client : AsyncClient} {url : Text} {interval : Json}

theorem getJson_ok_iff (hwait : wait interval = .ok ()) {payload : Json} :
    getJson client url interval = .ok payload ↔ (client url).Delivers payload := by
  simp only [getJson, hwait, bind, Except.bind, HttpReply.Delivers]
  cases client url with
  | requestError => simp
  | otherError => simp
  | response status retryAfter body =>
    simp only [HttpReply.response.injEq]
    split
    next hs => 
      simp
      omega
    next hs =>
      split
      next hs' => simp; omega
      next hs' =>
        cases body with
        | none => simp
        | some payload' =>
          simp
          omega

theorem getJson_error (hwait : wait interval = .ok ()) {e : PyError}
    (h : getJson client url interval = .error e) :
    (e.isAdapterError ↔ (client url).Failing) ∧ (e.isRetryable ↔ (client url).Retryable) := by
  simp only [getJson, hwait, bind, Except.bind] at h
  cases hreply : client url with
  | requestError =>
    rw [hreply] at h
    cases h
    simp [PyError.isAdapterError, PyError.isRetryable, HttpReply.Failing, HttpReply.Retryable]
  | otherError =>
    rw [hreply] at h
    cases h
    simp [PyError.isAdapterError, PyError.isRetryable, HttpReply.Failing, HttpReply.Retryable]
  | response status retryAfter body =>
    simp only [hreply] at h
    simp only [HttpReply.Failing, HttpReply.Retryable]
    split at h
    next hs =>
      cases h
      simp [PyError.isAdapterError, PyError.isRetryable]
      omega
    next hs =>
      split at h
      next hs' =>
        cases h
        simp [PyError.isAdapterError, PyError.isRetryable]
        omega
      next hs' =>
        cases body with
        | none =>
          cases h
          simp [PyError.isAdapterError, PyError.isRetryable]
          omega
        | some payload => cases h

variable {lib : Stdlib} {kind : SourceKind} {plan : FetchPlan} {page : Nat}

theorem getListing_eq (hurl : plan.url = .str url) :
    (kind.adapter lib).getListing plan client page =
    (getJson client ((kind.adapter lib).pageUrl url page) plan.interval).bind
      (kind.adapter lib).listing := by
  simp only [SourceAdapter.getListing, hurl, bind]

theorem listsItems_not_truthy {value : Json} {items : List Json} (h : ListsItems value items)
    (hfalsy : ¬value.truthy) : items = [] := by
  rcases h with rfl | ⟨_, rfl⟩
  · simpa [Json.truthy] using hfalsy
  · rfl

theorem fetchPages_page (hurl : plan.url = .str url) (hwait : wait plan.interval = .ok ())
    {payload : Json} {listed : List Json}
    (hpayload : (client ((kind.adapter lib).pageUrl url page)).Delivers payload)
    (hpage : kind.Page payload listed) (left : Nat) :
    (kind.adapter lib).fetchPages plan client page (left + 1) =
      if listed = [] then {}
      else ((kind.adapter lib).readItems listed).andThen
        ((kind.adapter lib).fetchPages plan client (page + 1) left) := by
  obtain ⟨value, hvalue, hlists⟩ := (SourceKind.page_iff lib kind payload listed).mp hpage
  have hlisting : (kind.adapter lib).getListing plan client page = .ok value := by
    rw [getListing_eq hurl, (getJson_ok_iff hwait).mpr hpayload]
    exact hvalue
  simp only [SourceAdapter.fetchPages, hlisting]
  by_cases htruthy : value.truthy
  · obtain rfl : value = .arr listed := by
      rcases hlists with h | ⟨h, _⟩
      · exact h
      · exact absurd htruthy h
    have hitems : listed ≠ [] := by
      rintro rfl
      simp [Json.truthy] at htruthy
    simp [htruthy, hitems, iterate]
  · simp [htruthy, listsItems_not_truthy hlists htruthy]

/-- A page that can be read is followed by the next one, unless it is empty. -/
theorem fetchPages_delivered (hurl : plan.url = .str url) (hwait : wait plan.interval = .ok ())
    {items : List Json}
    (h : kind.Delivers (client ((kind.adapter lib).pageUrl url page)) items) (left : Nat) :
    ((kind.adapter lib).fetchPages plan client page (left + 1)).ended =
      if items = [] then .ok ()
      else ((kind.adapter lib).fetchPages plan client (page + 1) left).ended := by
  obtain ⟨payload, hpayload, hpage, htakes⟩ := h
  have hread := (SourceKind.readItems_ok_iff lib kind items).mpr htakes
  rw [fetchPages_page hurl hwait hpayload hpage]
  split
  next => rfl
  next => simp only [Attempt.andThen, hread]

/-- Any other reply cuts the fetch short, with an `AdapterError` where it is a failure. -/
theorem fetchPages_undelivered (hurl : plan.url = .str url) (hwait : wait plan.interval = .ok ())
    (h : ¬∃ items, kind.Delivers (client ((kind.adapter lib).pageUrl url page)) items) :
    ∃ e, (∀ left, ((kind.adapter lib).fetchPages plan client page (left + 1)).ended = .error e) ∧
      (e.isAdapterError ↔ (client ((kind.adapter lib).pageUrl url page)).Failing) ∧
      (e.isRetryable ↔ (client ((kind.adapter lib).pageUrl url page)).Retryable) := by
  cases hjson : getJson client ((kind.adapter lib).pageUrl url page) plan.interval with
  | error e =>
    refine ⟨e, fun left => ?_, getJson_error hwait hjson⟩
    simp only [SourceAdapter.fetchPages, getListing_eq hurl, hjson, Except.bind]
    rfl
  | ok payload =>
    have hpayload := (getJson_ok_iff hwait).mp hjson
    have hnotfailing := hpayload.not_failing
    have hnotretryable : ¬(client ((kind.adapter lib).pageUrl url page)).Retryable :=
      fun hr => hnotfailing hr.failing
    have hother : ∀ e : PyError, e = .attributeError ∨ e = .typeError →
        (e.isAdapterError ↔ (client ((kind.adapter lib).pageUrl url page)).Failing) ∧
        (e.isRetryable ↔ (client ((kind.adapter lib).pageUrl url page)).Retryable) := by
      rintro e (rfl | rfl) <;>
        simp [PyError.isAdapterError, PyError.isRetryable, hnotfailing, hnotretryable]
    cases hlisting : (kind.adapter lib).listing payload with
    | error e =>
      refine ⟨e, fun left => ?_, hother e (Or.inl (SourceKind.listing_error hlisting))⟩
      simp only [SourceAdapter.fetchPages, getListing_eq hurl, hjson, Except.bind, hlisting]
      rfl
    | ok value =>
      have htruthy : value.truthy := by
        by_contra hfalsy
        apply h
        refine ⟨[], payload, hpayload, ?_, by simp⟩
        exact (SourceKind.page_iff lib kind payload []).mpr ⟨value, hlisting, Or.inr ⟨hfalsy, rfl⟩⟩
      cases hiterate : iterate value with
      | error e =>
        have he : e = .typeError := by
          cases value <;> simp_all [iterate]
        refine ⟨e, fun left => ?_, hother e (Or.inr he)⟩
        simp only [SourceAdapter.fetchPages, getListing_eq hurl, hjson, Except.bind, hlisting,
          htruthy, hiterate]
        rfl
      | ok items =>
        cases hread : ((kind.adapter lib).readItems items).ended with
        | ok _ =>
          have htakes := (SourceKind.readItems_ok_iff lib kind items).mp hread
          obtain rfl := SourceKind.iterate_takes htruthy hiterate htakes
          exact absurd ⟨items, payload, hpayload, (SourceKind.page_iff lib kind payload items).mpr
            ⟨.arr items, hlisting, Or.inl rfl⟩, htakes⟩ h
        | error e =>
          refine ⟨e, fun left => ?_, hother e (Or.inl (SourceKind.readItems_error hread))⟩
          simp [SourceAdapter.fetchPages, getListing_eq hurl, hjson, Except.bind, hlisting,
            htruthy, hiterate, Attempt.andThen, hread]

end Pages

end JobRadar
