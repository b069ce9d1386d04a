import JobRadar.CodeThreads

namespace JobRadar

open Database Interleave

inductive CodeCall
  | verify (email code : String)
  | reset (salt email code password : String)

def CodeCall.thread (cfg : Settings) : CodeCall → CodeThread
  | .verify email code => .inl { cfg := cfg, email := email, code := code }
  | .reset salt email code password =>
    .inr { cfg := cfg, request := .reset salt email code password }

variable {ι : Type}

/-- Any number of calls that are about to present a code. -/
def presenters (h : AuthHistory) (calls : ι → Settings × CodeCall) :
    Pool ι AuthHistory CodeThread where
  store := h
  thread i := (calls i).2.thread (calls i).1

/-- The step is the commit of a call that the record lets through. -/
def Consumes (codeId : Uuid) (e : Event ι Time AuthHistory CodeThread) : Prop :=
  ∃ record, (e.before.thread e.mover).consumes = some record ∧ record.id = codeId

instance (codeId : Uuid) (e : Event ι Time AuthHistory CodeThread) :
    Decidable (Consumes codeId e) :=
  decidable_of_iff ((e.before.thread e.mover).consumes.any fun record => record.id = codeId)
    (by simp [Consumes, Option.any_eq_true])

/-- No committed row of that id is consumed. -/
def AuthDb.CodeUnconsumed (db : AuthDb) (codeId : Uuid) : Prop :=
  ∀ row, db.codes.find codeId = some row → row.consumedAt = none

instance (db : AuthDb) (codeId : Uuid) : Decidable (db.CodeUnconsumed codeId) :=
  decidable_of_iff ((db.codes.find codeId).all fun row => row.consumedAt = none)
    (by simp [AuthDb.CodeUnconsumed, Option.all_eq_true])

/-- At most one call completes because of the record. -/
def UsedOnce (codeId : Uuid) (es : List (Event ι Time AuthHistory CodeThread)) : Prop :=
  ∀ e ∈ es, ∀ e' ∈ es, Consumes codeId e → Consumes codeId e' → e.mover = e'.mover

/-- What holds between the steps: as long as the record is not consumed its holders see it
unconsumed, and then it stays consumed and its consumer is done. -/
structure CodeTrack (P : Primitives) (codeId : Uuid)
    (es : List (Event ι Time AuthHistory CodeThread)) (c : Pool ι AuthHistory CodeThread) :
    Prop where
  rows : ∀ i record, (c.thread i).held = some record →
    ∃ row, c.store.db.codes.find record.id = some row
  fresh : (∀ e ∈ es, ¬Consumes codeId e) → ∀ i record, (c.thread i).held = some record →
    record.id = codeId → c.store.db.CodeUnconsumed codeId
  spent : ∀ e ∈ es, Consumes codeId e → ¬c.store.db.CodeUnconsumed codeId
  ended : ∀ e ∈ es, Consumes codeId e → ∀ a s, codeStep P a s (c.thread e.mover) = none

section Race

variable {P : Primitives} {h : AuthHistory} {calls : ι → Settings × CodeCall} {codeId : Uuid}
  {es : List (Event ι Time AuthHistory CodeThread)} {c : Pool ι AuthHistory CodeThread}

theorem presenters_held (i : ι) : ((presenters h calls).thread i).held = none := by
  unfold presenters CodeCall.thread
  dsimp only
  split <;> rfl

theorem codeTrack_presenters : CodeTrack P codeId [] (presenters h calls) where
  rows i record hheld := by rw [presenters_held] at hheld; cases hheld
  fresh _ i record hheld := by rw [presenters_held] at hheld; cases hheld
  spent := by simp
  ended := by simp

theorem find_consumeCode (db : AuthDb) (record : VerificationCode) (now : Time) (id : Uuid) :
    (db.consumeCode record now).codes.find id = (db.codes.find id).map fun row =>
      if row.id = record.id then { row with consumedAt := some now } else row :=
  db.codes.find_updateWhere (fun c => c.id = record.id)
    (fun row => { row with consumedAt := some now }) (fun _ => rfl) id

theorem find_consumeCode_isSome {db : AuthDb} {id : Uuid} {row : VerificationCode}
    (hrow : db.codes.find id = some row) (record : VerificationCode) (now : Time) :
    ∃ row, (db.consumeCode record now).codes.find id = some row := by
  rw [find_consumeCode, hrow]
  exact ⟨_, rfl⟩

theorem consumeCode_consumed {db : AuthDb} {record row : VerificationCode} (now : Time)
    (hrow : db.codes.find record.id = some row) :
    ¬(db.consumeCode record now).CodeUnconsumed record.id := by
  intro hlive
  have hid : row.id = record.id := (Table.find_eq_some_iff.mp hrow).2
  have hnew := find_consumeCode db record now record.id
  rw [hrow, Option.map_some, if_pos hid] at hnew
  cases hlive _ hnew

theorem codeUnconsumed_consumeCode {db : AuthDb} {record : VerificationCode} (now : Time)
    (hother : record.id ≠ codeId) :
    (db.consumeCode record now).CodeUnconsumed codeId ↔ db.CodeUnconsumed codeId := by
  have hsame : (db.consumeCode record now).codes.find codeId = db.codes.find codeId := by
    rw [find_consumeCode]
    cases hrow : db.codes.find codeId with
    | none => rfl
    | some row =>
      have hid : row.id = codeId := (Table.find_eq_some_iff.mp hrow).2
      rw [Option.map_some, if_neg]
      rw [hid]
      exact fun h => hother h.symm
  simp only [AuthDb.CodeUnconsumed, hsame]

theorem codeUnconsumed_congr {db db' : AuthDb} (hcodes : db'.codes = db.codes) :
    db'.CodeUnconsumed codeId ↔ db.CodeUnconsumed codeId := by
  simp only [AuthDb.CodeUnconsumed, hcodes]

theorem CodeTrack.unconsumed_iff {i : ι} {now : Time} (hc : CodeTrack P codeId es c)
    (hconsumes : Consumes codeId ⟨c, i, now⟩) :
    c.store.db.CodeUnconsumed codeId ↔ ∀ e ∈ es, ¬Consumes codeId e := by
  constructor
  · intro hlive e he hspent
    exact hc.spent e he hspent hlive
  · intro hnone
    obtain ⟨record, hrecord, hid⟩ := hconsumes
    exact hc.fresh hnone i record (held_of_consumes hrecord) hid

variable [DecidableEq ι]

theorem CodeTrack.ended_set {i : ι} {now : Time} {r : AuthHistory × CodeThread}
    (hc : CodeTrack P codeId es c) (hs : codeStep P now c.store (c.thread i) = some r)
    {e : Event ι Time AuthHistory CodeThread} (he : e ∈ es) (hconsumes : Consumes codeId e)
    (a : Time) (s : AuthHistory) : codeStep P a s ((c.set i r).thread e.mover) = none := by
  have hne : e.mover ≠ i := by
    rintro rfl
    rw [hc.ended e he hconsumes] at hs
    cases hs
  rw [Pool.set_thread_ne c r hne]
  exact hc.ended e he hconsumes a s

theorem CodeTrack.selects {i : ι} {now : Time} {h' : AuthHistory} {t' : CodeThread}
    (hc : CodeTrack P codeId es c) (hs : codeStep P now c.store (c.thread i) = some (h', t'))
    (hsel : SelectsCode c.store h' (c.thread i) t') :
    CodeTrack P codeId (⟨c, i, now⟩ :: es) (c.set i (h', t')) := by
  have hidle : ¬Consumes codeId ⟨c, i, now⟩ := by
    rintro ⟨record, hrecord, _⟩
    rw [hsel.idle] at hrecord
    cases hrecord
  refine ⟨?_, ?_, ?_, ?_⟩
  · intro j record hheld
    rw [Pool.set_store, hsel.codes]
    by_cases hj : j = i
    · subst j
      rw [Pool.set_thread_self] at hheld
      rcases hsel.held record hheld with hold | ⟨hrow, _⟩
      · exact hc.rows i record hold
      · exact ⟨record, hrow⟩
    · rw [Pool.set_thread_ne c _ hj] at hheld
      exact hc.rows j record hheld
  · intro hnone j record hheld hid
    have hearlier : ∀ e ∈ es, ¬Consumes codeId e := fun e he => hnone e (List.mem_cons_of_mem _ he)
    rw [Pool.set_store, codeUnconsumed_congr hsel.codes]
    by_cases hj : j = i
    · subst j
      rw [Pool.set_thread_self] at hheld
      rcases hsel.held record hheld with hold | ⟨hrow, hlive⟩
      · exact hc.fresh hearlier i record hold hid
      · intro row hfind
        rw [← hid, hrow] at hfind
        cases hfind
        exact hlive
    · rw [Pool.set_thread_ne c _ hj] at hheld
      exact hc.fresh hearlier j record hheld hid
  · intro e he hconsumes
    rw [Pool.set_store, codeUnconsumed_congr hsel.codes]
    rcases List.mem_cons.mp he with rfl | he
    · exact absurd hconsumes hidle
    · exact hc.spent e he hconsumes
  · intro e he hconsumes
    rcases List.mem_cons.mp he with rfl | he
    · exact absurd hconsumes hidle
    · exact hc.ended_set hs he hconsumes

theorem CodeTrack.commits {i : ι} {now time : Time} {h' : AuthHistory} {t' : CodeThread}
    {record : VerificationCode} (hc : CodeTrack P codeId es c)
    (hs : codeStep P now c.store (c.thread i) = some (h', t'))
    (hcom : CommitsCode P c.store h' (c.thread i) t' record time) :
    CodeTrack P codeId (⟨c, i, now⟩ :: es) (c.set i (h', t')) := by
  have hkept : ∀ j kept, ((c.set i (h', t')).thread j).held = some kept →
      (c.thread j).held = some kept := by
    intro j kept hheld
    by_cases hj : j = i
    · subst j
      rw [Pool.set_thread_self, hcom.held] at hheld
      cases hheld
    · rwa [Pool.set_thread_ne c _ hj] at hheld
  refine ⟨?_, ?_, ?_, ?_⟩
  · intro j kept hheld
    obtain ⟨row, hrow⟩ := hc.rows j kept (hkept j kept hheld)
    rw [Pool.set_store, hcom.codes]
    exact find_consumeCode_isSome hrow record time
  · intro hnone j kept hheld hid
    have hother : record.id ≠ codeId := fun h =>
      hnone ⟨c, i, now⟩ (List.mem_cons_self ..) ⟨record, hcom.consumes, h⟩
    rw [Pool.set_store, codeUnconsumed_congr hcom.codes, codeUnconsumed_consumeCode time hother]
    exact hc.fresh (fun e he => hnone e (List.mem_cons_of_mem _ he)) j kept (hkept j kept hheld) hid
  · intro e he hconsumes
    rw [Pool.set_store, codeUnconsumed_congr hcom.codes]
    by_cases hid : record.id = codeId
    · subst hid
      obtain ⟨row, hrow⟩ := hc.rows i record (held_of_consumes hcom.consumes)
      exact consumeCode_consumed time hrow
    · rw [codeUnconsumed_consumeCode time hid]
      rcases List.mem_cons.mp he with rfl | he
      · obtain ⟨other, hother, hid'⟩ := hconsumes
        rw [hcom.consumes] at hother
        cases hother
        exact absurd hid' hid
      · exact hc.spent e he hconsumes
  · intro e he hconsumes
    rcases List.mem_cons.mp he with rfl | he
    · intro a s
      rw [Pool.set_thread_self]
      exact hcom.ended a s
    · exact hc.ended_set hs he hconsumes

theorem CodeTrack.step {i : ι} {now : Time} {r : AuthHistory × CodeThread}
    (hc : CodeTrack P codeId es c) (hs : codeStep P now c.store (c.thread i) = some r) :
    CodeTrack P codeId (⟨c, i, now⟩ :: es) (c.set i r) := by
  rcases codeStep_cases hs with hsel | ⟨record, time, hcom⟩
  · exact hc.selects hs hsel
  · exact hc.commits hs hcom

theorem codeTrack_run (path : Path (codeStep P) (presenters h calls) es c) :
    CodeTrack P codeId es c := by
  induction path with
  | start => exact codeTrack_presenters
  | step _ hs ih => exact ih.step hs

/-- At most one call completes because of the record exactly when every call that commits its
consumption finds it unconsumed. -/
theorem code_used_once_iff (path : Path (codeStep P) (presenters h calls) es c) :
    UsedOnce codeId es ↔
      ∀ e ∈ es, Consumes codeId e → e.before.store.db.CodeUnconsumed codeId := by
  induction path with
  | start => simp [UsedOnce]
  | @step es c i now r path hs ih =>
    have htrack : CodeTrack P codeId es c := codeTrack_run path
    constructor
    · intro honce e he hconsumes
      have hearlier : UsedOnce codeId es := fun e he e' he' =>
        honce e (List.mem_cons_of_mem _ he) e' (List.mem_cons_of_mem _ he')
      rcases List.mem_cons.mp he with rfl | he
      · refine (htrack.unconsumed_iff hconsumes).mpr ?_
        intro e' he' hconsumes'
        have hsame := honce _ (List.mem_cons_of_mem _ he') _ (List.mem_cons_self ..) hconsumes'
          hconsumes
        have hended := htrack.ended e' he' hconsumes' now c.store
        rw [hsame, hs] at hended
        cases hended
      · exact ih.mp hearlier e he hconsumes
    · intro hfinds e he e' he' hconsumes hconsumes'
      have hearlier : UsedOnce codeId es := ih.mpr fun e he => hfinds e (List.mem_cons_of_mem _ he)
      rcases List.mem_cons.mp he with rfl | he
      · rcases List.mem_cons.mp he' with rfl | he'
        · rfl
        · have hnone := (htrack.unconsumed_iff hconsumes).mp
            (hfinds _ (List.mem_cons_self ..) hconsumes)
          exact absurd hconsumes' (hnone e' he')
      · rcases List.mem_cons.mp he' with rfl | he'
        · have hnone := (htrack.unconsumed_iff hconsumes').mp
            (hfinds _ (List.mem_cons_self ..) hconsumes')
          exact absurd hconsumes (hnone e he)
        · exact hearlier e he e' he' hconsumes hconsumes'

end Race

def resetOn : Settings := { authPasswordResetEnabled := true, authEmailVerificationEnabled := true }

/-- Ann has been sent a code to reset her password with, and one to verify her address with. -/
def annCoded : AuthHistory where
  db :=
    { users := annDb.users
      codes := ⟨[⟨1, 1, .passwordReset, "123456", 600000000, none⟩,
        ⟨2, 1, .emailVerification, "654321", 600000000, none⟩], by decide⟩ }

/-- Two requests set different passwords with the one code. -/
def annResets : Pool Bool AuthHistory CodeThread :=
  presenters annCoded fun b => (resetOn, .reset "salt" "ann@example.com" "123456"
    (if b then "her own" else "another"))

def annVerifies : Pool Bool AuthHistory CodeThread :=
  presenters annCoded fun _ => (resetOn, .verify "ann@example.com" "654321")

theorem annVerifies_oneByOne : ∃ es c, Path (codeStep .plain) annVerifies es c ∧
    (c.thread true).held = none ∧ UsedOnce 2 es := by
  obtain ⟨es, c, hrun, hfinds, hheld⟩ : ∃ es c, exec (codeStep .plain) [] annVerifies
      (List.replicate 4 (true, 1) ++ List.replicate 2 (false, 2)) = some (es, c) ∧
      (∀ e ∈ es, Consumes 2 e → e.before.store.db.CodeUnconsumed 2) ∧
      (c.thread true).held = none := by
    refine ⟨_, _, rfl, ?_, rfl⟩
    decide
  have path := exec_path .start _ hrun
  exact ⟨es, c, path, hheld, (code_used_once_iff path).mpr hfinds⟩

/-- Both requests select the code before either commits, and both go through. -/
theorem annResets_both : ∃ es c, Path (codeStep .plain) annResets es c ∧
    (∃ t t', c.thread true = .inr t ∧ t.phase = .done ∧
      c.thread false = .inr t' ∧ t'.phase = .done) ∧ ¬UsedOnce 1 es := by
  obtain ⟨es, c, hrun, hended, hfirst, hsecond⟩ : ∃ es c, exec (codeStep .plain) [] annResets
      (List.replicate 2 (true, 1) ++ List.replicate 2 (false, 1) ++ List.replicate 3 (true, 2) ++
        List.replicate 3 (false, 3)) = some (es, c) ∧
      (∃ t t', c.thread true = .inr t ∧ t.phase = .done ∧
        c.thread false = .inr t' ∧ t'.phase = .done) ∧
      (∃ e ∈ es, Consumes 1 e ∧ e.mover = true) ∧ ∃ e ∈ es, Consumes 1 e ∧ e.mover = false := by
    refine ⟨_, _, rfl, ⟨_, _, rfl, rfl, rfl, rfl⟩, ?_, ?_⟩
    · decide
    · decide
  refine ⟨es, c, exec_path .start _ hrun, hended, ?_⟩
  intro honce
  obtain ⟨e, he, hconsumes, hmover⟩ := hfirst
  obtain ⟨e', he', hconsumes', hmover'⟩ := hsecond
  have hsame := honce e he e' he' hconsumes hconsumes'
  rw [hmover, hmover'] at hsame
  cases hsame

end JobRadar
