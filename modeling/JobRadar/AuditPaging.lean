import JobRadar.AuditModel

namespace JobRadar

open Database Interleave Paging Python

namespace AuditEvent

instance : Std.Total ListedBefore := by
  constructor
  intro a b
  rcases Nat.lt_trichotomy a.createdAt b.createdAt with hlt | heq | hgt
  · exact Or.inr (Or.inl hlt)
  · rcases Nat.le_total a.id b.id with hle | hle
    · exact Or.inr (Or.inr ⟨heq.symm, hle⟩)
    · exact Or.inl (Or.inr ⟨heq, hle⟩)
  · exact Or.inl (Or.inl hgt)

instance : IsTrans AuditEvent ListedBefore := by
  constructor
  rintro x y z (hxy | ⟨hxy, hle⟩) (hyz | ⟨hyz, hle'⟩)
  · exact Or.inl (Nat.lt_trans hyz hxy)
  · exact Or.inl (hyz ▸ hxy)
  · exact Or.inl (hxy ▸ hyz)
  · exact Or.inr ⟨hxy.trans hyz, Nat.le_trans hle' hle⟩

variable {a b : AuditEvent}

theorem ListedBefore.createdAt_le (h : a.ListedBefore b) : b.createdAt ≤ a.createdAt := by
  rcases h with hlt | ⟨heq, _⟩
  · exact Nat.le_of_lt hlt
  · exact Nat.le_of_eq heq.symm

theorem ListedBefore.id_eq (hab : a.ListedBefore b) (hba : b.ListedBefore a) : a.id = b.id := by
  have hsame : a.createdAt = b.createdAt := Nat.le_antisymm hba.createdAt_le hab.createdAt_le
  rcases hab with hlt | ⟨_, hle⟩
  · exact absurd hsame (Nat.ne_of_gt hlt)
  · rcases hba with hlt | ⟨_, hle'⟩
    · exact absurd hsame (Nat.ne_of_lt hlt)
    · exact Nat.le_antisymm hle' hle

end AuditEvent

namespace AuditStore

variable {s s' : AuditStore} {f : AuditFilters} {event : AuditEvent} {page pageSize : Nat}

/-- How many of the events that the filters admit are listed before the event. -/
def position (s : AuditStore) (f : AuditFilters) (event : AuditEvent) : Nat :=
  rank AuditEvent.ListedBefore (s.query f) event

theorem mem_query : event ∈ s.query f ↔ event ∈ s.events ∧ f.admits event = true :=
  List.mem_filter

theorem nodup_query : (s.query f).Nodup := s.events.unique.of_map.filter _

theorem query_tie (hmem : event ∈ s.events) : ∀ other ∈ s.query f, other.ListedBefore event →
    event.ListedBefore other → other = event := by
  intro other hother hbefore hafter
  exact Table.eq_of_key_eq (mem_query.mp hother).1 hmem (hbefore.id_eq hafter)

theorem mem_search (hmem : event ∈ s.events) (hadmits : f.admits event = true)
    (hfrom : (page - 1) * pageSize ≤ s.position f event)
    (hto : s.position f event < (page - 1) * pageSize + pageSize) :
    event ∈ s.search f page pageSize :=
  mem_page_of_rank nodup_query (mem_query.mpr ⟨hmem, hadmits⟩) (query_tie hmem) hfrom hto

theorem position_lt_of_short (hmem : event ∈ s.events) (hadmits : f.admits event = true)
    (hshort : (s.search f page pageSize).length < pageSize) :
    s.position f event < (page - 1) * pageSize + pageSize :=
  rank_lt_of_page (mem_query.mpr ⟨hmem, hadmits⟩) hshort

theorem position_eq (hevents : s'.events = s.events) :
    s'.position f event = s.position f event := by
  unfold position query
  rw [hevents]

theorem position_insert {row : AuditEvent} {events : Table AuditEvent.id}
    (hinsert : s.events.insert row = some events) (hevents : s'.events = events) :
    s.position f event ≤ s'.position f event := by
  unfold position query rank
  rw [hevents, Table.rows_of_insert hinsert, List.filter_append, List.countP_append]
  exact Nat.le_add_right ..

theorem position_deleteBefore {cutoff : Time} (hspared : cutoff ≤ event.createdAt) :
    (s.deleteBefore cutoff).position f event = s.position f event := by
  unfold position query rank deleteBefore Table.deleteWhere
  rw [List.filter_comm, List.countP_filter]
  apply List.countP_congr
  intro other _
  have hkept : other.ListedBefore event → ¬other.createdAt < cutoff := fun hbefore =>
    Nat.not_lt_of_le (Nat.le_trans hspared hbefore.createdAt_le)
  simp only [Bool.and_eq_true, decide_eq_true_iff]
  constructor
  · rintro ⟨hbefore, _⟩
    exact hbefore
  · intro hbefore
    exact ⟨hbefore, hkept hbefore.1⟩

theorem position_le {answer : AuditAnswer} {t t' : AuditThread}
    (hs : auditStep answer s t = some (s', t')) (hstays : event ∈ s'.events) :
    s.position f event ≤ s'.position f event := by
  rcases auditStep_store hs with ⟨hevents, _⟩ | ⟨_, _, _, _, _, _, hevents, _⟩ |
    ⟨_, cutoff, _, _, _, _, rfl⟩ | ⟨_, _, row, events, _, _, _, _, hinsert, rfl⟩
  · exact Nat.le_of_eq (position_eq hevents).symm
  · exact Nat.le_of_eq (position_eq hevents).symm
  · have hspared : ¬event.createdAt < cutoff := (Table.mem_deleteWhere.mp hstays).2
    rw [position_deleteBefore (Nat.le_of_not_lt hspared)]
    exact Nat.le_refl _
  · exact position_insert hinsert rfl

end AuditStore

/-- A reader has the event, or it is still to come on a later page. -/
def SearchThread.Covers (event : AuditEvent) (s : AuditStore) (t : SearchThread) : Prop :=
  (∃ page ∈ t.pages, event ∈ page.1) ∨
  (∃ error, t.phase = .raised error) ∨ t.phase = .crashed ∨
  (∃ page, t.phase = .requesting page ∧ 1 ≤ page ∧
    (page - 1) * t.pageSize ≤ s.position t.filters event) ∨
  ∃ page events, t.phase = .counting page events ∧ 1 ≤ page ∧
    (event ∈ events ∨ t.pageSize ≤ events.length ∧
      page * t.pageSize ≤ s.position t.filters event)

section Reader

variable {answer : AuditAnswer} {s s' : AuditStore} {t t' : SearchThread} {event : AuditEvent}

theorem SearchThread.Covers.later (hcovers : t.Covers event s)
    (hle : s.position t.filters event ≤ s'.position t.filters event) : t.Covers event s' := by
  rcases hcovers with hfound | hraised | hcrashed | ⟨page, hphase, hpage, hfrom⟩ |
    ⟨page, events, hphase, hpage, hin | ⟨hfull, hfrom⟩⟩
  · exact Or.inl hfound
  · exact Or.inr (Or.inl hraised)
  · exact Or.inr (Or.inr (Or.inl hcrashed))
  · exact Or.inr (Or.inr (Or.inr (Or.inl ⟨page, hphase, hpage, Nat.le_trans hfrom hle⟩)))
  · exact Or.inr (Or.inr (Or.inr (Or.inr ⟨page, events, hphase, hpage, Or.inl hin⟩)))
  · exact Or.inr (Or.inr (Or.inr (Or.inr
      ⟨page, events, hphase, hpage, Or.inr ⟨hfull, Nat.le_trans hfrom hle⟩⟩)))

/-- The page that is read has the event, or is full and ends before it. -/
theorem search_or_later {f : AuditFilters} {page pageSize : Nat} (hpage : 1 ≤ page)
    (hmem : event ∈ s.events) (hadmits : f.admits event = true)
    (hfrom : (page - 1) * pageSize ≤ s.position f event) :
    event ∈ s.search f page pageSize ∨
      pageSize ≤ (s.search f page pageSize).length ∧ page * pageSize ≤ s.position f event := by
  have hend : (page - 1) * pageSize + pageSize = page * pageSize := by
    rw [← Nat.succ_mul, Nat.succ_eq_add_one, Nat.sub_add_cancel hpage]
  by_cases hto : s.position f event < (page - 1) * pageSize + pageSize
  · exact Or.inl (AuditStore.mem_search hmem hadmits hfrom hto)
  · right
    refine ⟨?_, hend ▸ Nat.le_of_not_lt hto⟩
    by_contra hshort
    exact hto (AuditStore.position_lt_of_short hmem hadmits (Nat.lt_of_not_le hshort))

theorem searchStep_covers (hs : searchStep answer s t = some (s', t')) (hmem : event ∈ s.events)
    (hadmits : t.filters.admits event = true) (hcovers : t.Covers event s) :
    t'.filters = t.filters ∧ t'.Covers event s' := by
  unfold searchStep at hs
  dsimp only at hs
  split at hs
  next => cases hs
  next => cases hs
  next => cases hs
  next =>
    cases hs
    exact ⟨rfl, Or.inr (Or.inr (Or.inl rfl))⟩
  next =>
    cases hs
    exact ⟨rfl, Or.inr (Or.inl ⟨_, rfl⟩)⟩
  next page hrequesting _ =>
    cases hs
    refine ⟨rfl, ?_⟩
    rcases hcovers with hfound | ⟨error, hphase⟩ | hphase | ⟨page', hphase, hpage, hfrom⟩ |
      ⟨page', events, hphase, _⟩
    · exact Or.inl hfound
    · cases hrequesting.symm.trans hphase
    · cases hrequesting.symm.trans hphase
    · cases hrequesting.symm.trans hphase
      exact Or.inr (Or.inr (Or.inr (Or.inr ⟨page, _, rfl, hpage,
        search_or_later (s := s.wait answer.elapsed) hpage hmem hadmits hfrom⟩)))
    · cases hrequesting.symm.trans hphase
  next page events hcounting _ =>
    cases hs
    refine ⟨rfl, ?_⟩
    rcases hcovers with ⟨response, hresponse, hin⟩ | ⟨error, hphase⟩ | hphase | ⟨page', hphase, _⟩ |
      ⟨page', events', hphase, hpage, hin | ⟨hfull, hfrom⟩⟩
    · exact Or.inl ⟨response, List.mem_append_left _ hresponse, hin⟩
    · cases hcounting.symm.trans hphase
    · cases hcounting.symm.trans hphase
    · cases hcounting.symm.trans hphase
    · cases hcounting.symm.trans hphase
      exact Or.inl ⟨_, List.mem_append_right _ (List.mem_singleton.mpr rfl), hin⟩
    · cases hcounting.symm.trans hphase
      refine Or.inr (Or.inr (Or.inr (Or.inl ⟨page + 1, ?_, Nat.le_add_left .., hfrom⟩)))
      exact if_neg (Nat.not_lt_of_le hfull)

end Reader

variable {ι : Type} [DecidableEq ι] {i : ι} {f : AuditFilters} {event : AuditEvent}

/-- The reader covers the event as long as it is there. -/
def ReaderCovers (i : ι) (f : AuditFilters) (event : AuditEvent) (c : AuditPool ι) : Prop :=
  ∃ t, c.thread i = .inr (.inr t) ∧ t.filters = f ∧
    (event ∈ c.store.events → t.Covers event c.store)

theorem ReaderCovers.step {c : AuditPool ι} {j : ι} {answer : AuditAnswer}
    {r : AuditStore × AuditThread} (hreads : ReaderCovers i f event c)
    (hadmits : f.admits event = true) (hmem : event ∈ c.store.events)
    (hs : auditStep answer c.store (c.thread j) = some r) :
    ReaderCovers i f event (c.set j r) := by
  obtain ⟨s', t'⟩ := r
  obtain ⟨t, ht, hf, hcovers⟩ := hreads
  by_cases hmover : i = j
  · subst j
    rw [ht] at hs
    obtain ⟨q, rfl, hsearch⟩ := auditStep_reader hs
    obtain ⟨hfilters, hnext⟩ := searchStep_covers hsearch hmem (hf.symm ▸ hadmits) (hcovers hmem)
    refine ⟨q, Pool.set_thread_self .., hfilters.trans hf, ?_⟩
    intro _
    exact hnext
  · refine ⟨t, (Pool.set_thread_ne _ _ hmover).trans ht, hf, ?_⟩
    intro hstays
    exact (hcovers hmem).later (AuditStore.position_le hs hstays)

/-- Whoever reads the pages from the first to a short one has every event that is there all along
and meets the filters. -/
theorem pages_miss_nothing {c₀ c : AuditPool ι} {es : List (AuditRunEvent ι)} {pageSize : Nat}
    {t : SearchThread} (path : Path auditStep c₀ es c)
    (hstart : c₀.thread i = .inr (.inr ⟨f, pageSize, .requesting 1, []⟩))
    (hend : c.thread i = .inr (.inr t)) (hended : t.phase = .ended)
    (hadmits : f.admits event = true)
    (hthere : (∀ e ∈ es, event ∈ e.before.store.events) ∧ event ∈ c.store.events) :
    ∃ page ∈ t.pages, event ∈ page.1 := by
  have init : ReaderCovers i f event c₀ := by
    refine ⟨_, hstart, rfl, ?_⟩
    intro _
    refine Or.inr (Or.inr (Or.inr (Or.inl ⟨1, rfl, Nat.le_refl 1, ?_⟩)))
    simp
  have step : ∀ (c : AuditPool ι) j a r, ReaderCovers i f event c → event ∈ c.store.events →
      auditStep a c.store (c.thread j) = some r → ReaderCovers i f event (c.set j r) :=
    fun c j a r hreads hmem hs => hreads.step hadmits hmem hs
  obtain ⟨u, hu, -, hcovers⟩ := path.invariant (I := ReaderCovers i f event) init step hthere.1
  cases hu.symm.trans hend
  rcases hcovers hthere.2 with hfound | ⟨error, hphase⟩ | hphase | ⟨page, hphase, _⟩ |
    ⟨page, events, hphase, _⟩
  · exact hfound
  · cases hended.symm.trans hphase
  · cases hended.symm.trans hphase
  · cases hended.symm.trans hphase
  · cases hended.symm.trans hphase

/-- Events of the first day and of days 90 and 99, a run that keeps events for 30 days (0), a call
of `record` (1) and a reader of one event a page (2), on day 100. -/
def annLog : AuditPool Nat where
  store :=
    { events := ⟨[userCreated.event 50 5, userCreated.event 51 (timedeltaDays 90),
        userCreated.event 52 (timedeltaDays 99)], by decide⟩
      now := timedeltaDays 100 }
  thread n :=
    if n = 0 then .inl ⟨30, true, text "backups", .start⟩
    else if n = 1 then .inr (.inl ⟨1, userCreated, .start⟩)
    else .inr (.inr ⟨{ action := some (text "user.created") }, 1, .requesting 1, []⟩)

/-- Between the first and the second page an event comes in and the first one goes. -/
def readMeanwhile : List (Nat × AuditAnswer) :=
  [(2, {}), (2, {}), (1, {}), (1, {}), (0, {}), (0, {}), (0, {}), (0, {}), (2, {}), (2, {}),
    (2, {}), (2, {}), (2, {}), (2, {})]

theorem readMeanwhile_complete : ∃ es c t, Path auditStep annLog es c ∧
    c.thread 2 = .inr (.inr t) ∧
    t.pages.map (fun page => (page.1.map AuditEvent.id, page.2)) =
      [([52], 3), ([52], 3), ([51], 3), ([], 3)] ∧
    ∃ page ∈ t.pages, userCreated.event 51 (timedeltaDays 90) ∈ page.1 := by
  obtain ⟨es, c, t, hrun, ht, hended, hpages, hthere, hlast⟩ : ∃ es c t,
      exec auditStep [] annLog readMeanwhile = some (es, c) ∧ c.thread 2 = .inr (.inr t) ∧
      t.phase = .ended ∧
      t.pages.map (fun page => (page.1.map AuditEvent.id, page.2)) =
        [([52], 3), ([52], 3), ([51], 3), ([], 3)] ∧
      es.map (fun e => e.before.store.events.find 51) =
        List.replicate es.length (some (userCreated.event 51 (timedeltaDays 90))) ∧
      c.store.events.find 51 = some (userCreated.event 51 (timedeltaDays 90)) :=
    ⟨_, _, _, rfl, rfl, rfl, by decide, rfl, rfl⟩
  have path := exec_path .start readMeanwhile hrun
  refine ⟨es, c, t, path, ht, hpages, pages_miss_nothing path rfl ht hended (by decide) ⟨?_, ?_⟩⟩
  · intro e he
    exact (Table.find_eq_some_iff.mp (List.map_eq_replicate_iff.mp hthere e he)).1
  · exact (Table.find_eq_some_iff.mp hlast).1

end JobRadar
