import JobRadar.AdapterReplies

namespace JobRadar

open Database Python Stages

/-- A config the adapter can work with: it asks for `pages` pages, at addresses from `url` on. -/
structure SourceKind.Configured (kind : SourceKind) (lib : Stdlib) (config : Dict) (url : Text)
    (pages : Nat) : Prop where
  name : ∃ name, Dict.get config (kind.adapter lib).key = some name ∧
    (0 < pages → Dict.getD config "url" (.str ((kind.adapter lib).url (lib.str name))) = .str url)
  rounds : pageCount (Dict.getD config "max_pages" (.int 1)) = .ok pages
  interval : 0 < pages →
    wait (Dict.getD config "rate_limit_seconds" (.float (text "0.0"))) = .ok ()

section Config

variable {lib : Stdlib} {kind : SourceKind} {config : Dict} {url : Text} {pages : Nat}
  {client : AsyncClient}

theorem pageCount_error {value : Json} {e : PyError} (h : pageCount value = .error e) :
    e = .typeError := by
  cases value <;> simp_all [pageCount]

theorem wait_error {value : Json} {e : PyError} (h : wait value = .error e) :
    ¬e.isAdapterError := by
  cases value with
  | int n =>
    simp only [wait] at h
    split at h
    next => cases h; simp [PyError.isAdapterError]
    next => cases h
  | bool b => cases h
  | float repr => cases h
  | null => cases h; simp [PyError.isAdapterError]
  | str t => cases h; simp [PyError.isAdapterError]
  | arr items => cases h; simp [PyError.isAdapterError]
  | obj fields => cases h; simp [PyError.isAdapterError]

theorem SourceAdapter.plan_eq {a : SourceAdapter} {name : Json}
    (hname : Dict.get config a.key = some name)
    (hrounds : pageCount (Dict.getD config "max_pages" (.int 1)) = .ok pages) :
    a.plan lib config = .ok {
      url := Dict.getD config "url" (.str (a.url (lib.str name)))
      pages := pages
      interval := Dict.getD config "rate_limit_seconds" (.float (text "0.0")) } := by
  simp only [plan, hname, hrounds]

theorem SourceKind.Configured.exists_plan (h : kind.Configured lib config url pages) :
    ∃ plan, (kind.adapter lib).plan lib config = .ok plan ∧ plan.pages = pages ∧
      (0 < pages → plan.url = .str url ∧ wait plan.interval = .ok ()) := by
  obtain ⟨name, hname, hurl⟩ := h.name
  refine ⟨_, SourceAdapter.plan_eq hname h.rounds, rfl, ?_⟩
  intro hpos
  exact ⟨hurl hpos, h.interval hpos⟩

/-- With any other config the first attempt raises an exception that is not caught. -/
theorem fetch_not_configured (h : ¬∃ url pages, kind.Configured lib config url pages) :
    ((kind.adapter lib).fetch lib config client).Escaped := by
  cases hname : Dict.get config (kind.adapter lib).key with
  | none =>
    refine ⟨.keyError, ?_, by simp [PyError.isAdapterError]⟩
    simp only [SourceAdapter.fetch, SourceAdapter.plan, hname]
    rfl
  | some name =>
    cases hrounds : pageCount (Dict.getD config "max_pages" (.int 1)) with
    | error e =>
      refine ⟨e, ?_, by rw [pageCount_error hrounds]; simp [PyError.isAdapterError]⟩
      simp only [SourceAdapter.fetch, SourceAdapter.plan, hname, hrounds]
      rfl
    | ok pages =>
      simp only [Attempt.Escaped, SourceAdapter.fetch, SourceAdapter.plan_eq hname hrounds]
      cases pages with
      | zero => exact absurd ⟨[], 0, ⟨name, hname, by simp⟩, hrounds, by simp⟩ h
      | succ pages =>
        simp only [SourceAdapter.fetchPages, SourceAdapter.getListing]
        cases hurl : Dict.getD config "url" (.str ((kind.adapter lib).url (lib.str name))) with
        | str url =>
          cases hwait : wait (Dict.getD config "rate_limit_seconds" (.float (text "0.0"))) with
          | error e =>
            refine ⟨e, ?_, wait_error hwait⟩
            simp only [getJson, hwait, bind, Except.bind]
            rfl
          | ok _ =>
            exact absurd ⟨url, pages + 1, ⟨name, hname, fun _ => hurl⟩, hrounds,
              fun _ => hwait⟩ h
        | _ => exact ⟨.typeError, rfl, by simp [PyError.isAdapterError]⟩

end Config

section Replies

variable {lib : Stdlib} {kind : SourceKind} {config : Dict} {url : Text} {pages : Nat}
  {plan : FetchPlan}

theorem fetchPages_last {client : AsyncClient} (hurl : plan.url = .str url)
    (hwait : wait plan.interval = .ok ()) {i : Nat}
    (h : Last (fun p => kind.Continues (client ((kind.adapter lib).pageUrl url p))) pages i) :
    ((kind.adapter lib).fetchPages plan client 0 pages).ended =
      ((kind.adapter lib).fetchPages plan client i 1).ended := by
  apply h.value_eq (fun p left => ((kind.adapter lib).fetchPages plan client p left).ended)
    (fun p => ((kind.adapter lib).fetchPages plan client p 1).ended)
  · intro p left hstop
    by_cases hd : ∃ items, kind.Delivers (client ((kind.adapter lib).pageUrl url p)) items
    · obtain ⟨items, hd⟩ := hd
      simp only [fetchPages_delivered hurl hwait hd]
      by_cases hitems : items = []
      · simp [hitems]
      · rw [hstop ⟨items, hd, hitems⟩]
    · obtain ⟨e, he, _⟩ := fetchPages_undelivered hurl hwait hd
      rw [he, he]
  · rintro p left ⟨items, hd, hitems⟩ _
    simp only [fetchPages_delivered hurl hwait hd, hitems, if_false]

theorem fetch_ended (client : AsyncClient) (h : kind.Configured lib config url pages) :
    (((kind.adapter lib).fetch lib config client).Completed ↔
      ∀ p < pages, Reached (fun q => kind.Continues (client ((kind.adapter lib).pageUrl url q))) p →
        ∃ items, kind.Delivers (client ((kind.adapter lib).pageUrl url p)) items) ∧
    (¬((kind.adapter lib).fetch lib config client).Escaped ↔
      ∀ p < pages, Reached (fun q => kind.Continues (client ((kind.adapter lib).pageUrl url q))) p →
        kind.Handles (client ((kind.adapter lib).pageUrl url p))) ∧
    (((kind.adapter lib).fetch lib config client).Retries ↔
      ∃ p < pages, Reached (fun q => kind.Continues (client ((kind.adapter lib).pageUrl url q))) p ∧
        (client ((kind.adapter lib).pageUrl url p)).Retryable) := by
  obtain ⟨plan, hplan, rfl, hrequest⟩ := h.exists_plan
  simp only [Attempt.Completed, Attempt.Escaped, Attempt.Retries, SourceAdapter.fetch, hplan]
  rcases Nat.eq_zero_or_pos plan.pages with hzero | hpos
  · simp [hzero, SourceAdapter.fetchPages]
  · obtain ⟨hurl, hwait⟩ := hrequest hpos
    obtain ⟨i, hlast⟩ := exists_last
      (fun p => kind.Continues (client ((kind.adapter lib).pageUrl url p))) hpos
    have hgoes : ∀ p, kind.Continues (client ((kind.adapter lib).pageUrl url p)) →
        ∃ items, kind.Delivers (client ((kind.adapter lib).pageUrl url p)) items := by
      rintro p ⟨items, hd, _⟩
      exact ⟨items, hd⟩
    have hhandles : ∀ p, kind.Continues (client ((kind.adapter lib).pageUrl url p)) →
        kind.Handles (client ((kind.adapter lib).pageUrl url p)) :=
      fun p hp => Or.inr (hgoes p hp)
    have hnot : ∀ p, kind.Continues (client ((kind.adapter lib).pageUrl url p)) →
        ¬(client ((kind.adapter lib).pageUrl url p)).Retryable := by
      rintro p ⟨items, ⟨payload, hpayload, _⟩, _⟩ hretryable
      exact hpayload.not_failing hretryable.failing
    rw [fetchPages_last hurl hwait hlast, hlast.forall_iff hgoes,
      hlast.forall_iff hhandles, hlast.exists_iff hnot]
    by_cases hd : ∃ items, kind.Delivers (client ((kind.adapter lib).pageUrl url i)) items
    · have hended : ((kind.adapter lib).fetchPages plan client i 1).ended = .ok () := by
        obtain ⟨items, hd⟩ := hd
        rw [fetchPages_delivered hurl hwait hd]
        split
        next => rfl
        next => rfl
      have hnotretryable : ¬(client ((kind.adapter lib).pageUrl url i)).Retryable := by
        obtain ⟨items, payload, hpayload, _⟩ := hd
        exact fun hr => hpayload.not_failing hr.failing
      simp [hended, hd, SourceKind.Handles, hnotretryable]
    · obtain ⟨e, he, hadapter, hretryable⟩ := fetchPages_undelivered hurl hwait hd
      simp [he 0, hd, SourceKind.Handles, ← hadapter, ← hretryable]

end Replies

section Retries

variable {operation : Nat → Attempt}

theorem Attempt.retries_iff {a : Attempt} :
    a.Retries ↔ ∃ message, a.ended = .error (.adapterError message true) := by
  constructor
  · rintro ⟨e, he, hretryable⟩
    cases e with
    | adapterError message retryable =>
      obtain rfl : retryable = true := hretryable
      exact ⟨message, he⟩
    | _ => simp [PyError.isRetryable] at hretryable
  · rintro ⟨message, he⟩
    exact ⟨_, he, rfl⟩

theorem withRetries_stop {attempt left : Nat} (h : (operation attempt).Retries → left = 0) :
    withRetries operation attempt (left + 1) = operation attempt := by
  simp only [withRetries]
  split
  next message he => rw [if_pos (h (Attempt.retries_iff.mpr ⟨message, he⟩))]
  next => rfl

theorem withRetries_go {attempt left : Nat} (h : (operation attempt).Retries) (hleft : left ≠ 0) :
    withRetries operation attempt (left + 1) =
      (operation attempt).retried (withRetries operation (attempt + 1) left) := by
  obtain ⟨message, he⟩ := Attempt.retries_iff.mp h
  simp only [withRetries, he, hleft, if_false]

/-- The outcome is that of the last attempt, with the records of all of them. -/
theorem withRetries_eq {n i : Nat} (h : Last (fun a => (operation a).Retries) n i) :
    withRetries operation 0 n = { operation i with
      records := (List.range (i + 1)).flatMap fun a => (operation a).records } := by
  have hloop := h.value_eq
    (fun a left => ({ withRetries operation a left with
      records := ((List.range a).flatMap fun b => (operation b).records) ++
        (withRetries operation a left).records } : Attempt))
    (fun a => { operation a with
      records := (List.range (a + 1)).flatMap fun b => (operation b).records })
    (fun a left hstop => by rw [withRetries_stop hstop, List.range_succ, List.flatMap_append]; simp)
    (fun a left hgo hleft => by
      rw [withRetries_go hgo hleft, List.range_succ, List.flatMap_append]
      simp [Attempt.retried])
  exact hloop

theorem withRetries_last {n i : Nat} (h : Last (fun a => (operation a).Retries) n i) :
    (withRetries operation 0 n).ended = (operation i).ended ∧
      (withRetries operation 0 n).records =
        (List.range (i + 1)).flatMap fun a => (operation a).records := by
  rw [withRetries_eq h]
  exact ⟨rfl, rfl⟩

end Retries

end JobRadar
