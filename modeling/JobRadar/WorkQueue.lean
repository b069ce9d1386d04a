import Mathlib.Data.Set.Insert
import Mathlib.Logic.Function.Basic
import Mathlib.Logic.Relation

namespace WorkQueue

/-- Jobs, each of which has a resource to itself while it runs, and the messages that ask a worker
to do them. A message waits until it is acknowledged. -/
@[ext]
structure Queue (ι κ : Type) where
  jobs : ι → Option κ
  running : Set ι
  waiting : List (ι × κ)
  published : List (ι × κ)

inductive Action (ι κ : Type)
  | start (i : ι) (k : κ) (sent : Bool)
  | finish (i : ι)
  | acknowledge (message : ι × κ)
  | drop (gone : κ → Bool)

/-- The jobs of the resource are not dropped. -/
def Action.Keeps {ι κ : Type} (k : κ) : Action ι κ → Prop
  | .drop gone => gone k = false
  | _ => True

namespace Queue

variable {ι κ : Type}

/-- A job is new and starts on a free resource, and is finished by whoever has its message. -/
def Enabled (q : Queue ι κ) : Action ι κ → Prop
  | .start i k _ => q.jobs i = none ∧ ∀ j ∈ q.running, q.jobs j ≠ some k
  | .finish i => ∃ message ∈ q.waiting, message.1 = i
  | .acknowledge message => message ∈ q.waiting
  | .drop _ => True

/-- What is started is published, and what still runs is not acknowledged. -/
def Lossless (q : Queue ι κ) : Action ι κ → Prop
  | .start _ _ sent => sent = true
  | .acknowledge message => message.1 ∉ q.running
  | _ => True

def Careful (q : Queue ι κ) (a : Action ι κ) : Prop := (∀ k : κ, a.Keeps k) ∧ q.Lossless a

/-- The job runs and no message asks for it. -/
def Orphan (q : Queue ι κ) (i : ι) : Prop :=
  i ∈ q.running ∧ ∀ message ∈ q.waiting, message.1 ≠ i

/-- A job without a message holds its resource. -/
structure Blocks (q : Queue ι κ) (i : ι) (k : κ) : Prop where
  orphan : q.Orphan i
  job : q.jobs i = some k

/-- Every job that runs is asked for, by one message only, and every message asks for a job. -/
structure Tended (q : Queue ι κ) : Prop where
  asked : ∀ i ∈ q.running, ∃ message ∈ q.waiting, message.1 = i
  once : (q.waiting.map Prod.fst).Nodup
  known : ∀ message ∈ q.waiting, q.jobs message.1 = some message.2

structure Accounted (q : Queue ι κ) : Prop where
  once : q.published.Nodup
  jobs : ∀ i k, (i, k) ∈ q.published ↔ q.jobs i = some k

theorem Tended.not_blocks {q : Queue ι κ} (h : q.Tended) (i : ι) (k : κ) : ¬q.Blocks i k := by
  rintro ⟨⟨hrunning, hlost⟩, -⟩
  obtain ⟨message, hmessage, hasks⟩ := h.asked i hrunning
  exact hlost message hmessage hasks

variable [DecidableEq ι] [DecidableEq κ]

def apply (q : Queue ι κ) : Action ι κ → Queue ι κ
  | .start i k sent =>
    { jobs := Function.update q.jobs i (some k)
      running := insert i q.running
      waiting := if sent then (i, k) :: q.waiting else q.waiting
      published := if sent then (i, k) :: q.published else q.published }
  | .finish i => { q with running := q.running \ {i} }
  | .acknowledge message => { q with waiting := q.waiting.erase message }
  | .drop gone =>
    { q with
      jobs := fun i => (q.jobs i).filter fun k => !gone k
      running := { i | i ∈ q.running ∧ ∀ k, q.jobs i = some k → gone k = false } }

/-- By actions that meet a condition. -/
def Reaches (ok : Queue ι κ → Action ι κ → Prop) : Queue ι κ → Queue ι κ → Prop :=
  Relation.ReflTransGen fun q q' => ∃ a, q.Enabled a ∧ ok q a ∧ q' = q.apply a

theorem Reaches.single {ok : Queue ι κ → Action ι κ → Prop} {q : Queue ι κ} {a : Action ι κ}
    (henabled : q.Enabled a) (hok : ok q a) : Reaches ok q (q.apply a) :=
  Relation.ReflTransGen.single ⟨a, henabled, hok, rfl⟩

theorem Reaches.mono {ok ok' : Queue ι κ → Action ι κ → Prop} {q q' : Queue ι κ}
    (hsteps : Reaches ok q q') (hweaker : ∀ q a, ok q a → ok' q a) : Reaches ok' q q' := by
  refine Relation.ReflTransGen.mono ?_ q q' hsteps
  rintro q q' ⟨a, henabled, hok, rfl⟩
  exact ⟨a, henabled, hweaker q a hok, rfl⟩

section Orphans

variable {q q' : Queue ι κ} {i : ι} {k : κ} {a : Action ι κ}

theorem Blocks.apply (h : q.Blocks i k) (henabled : q.Enabled a) (hkept : a.Keeps k) :
    (q.apply a).Blocks i k ∧
      (q.apply a).published.filter (fun message => message.2 = k) =
        q.published.filter fun message => message.2 = k := by
  obtain ⟨⟨hrunning, hlost⟩, hjob⟩ := h
  cases a with
  | start j l sent =>
    obtain ⟨hnew, hfree⟩ := henabled
    have hne : j ≠ i := by
      rintro rfl
      rw [hjob] at hnew
      cases hnew
    have hother : l ≠ k := by
      rintro rfl
      exact hfree i hrunning hjob
    refine ⟨⟨⟨Set.mem_insert_of_mem _ hrunning, ?_⟩, ?_⟩, ?_⟩
    · intro message hmessage
      cases sent with
      | false => exact hlost message hmessage
      | true =>
        rcases List.mem_cons.mp hmessage with rfl | hold
        · exact hne
        · exact hlost message hold
    · exact (Function.update_of_ne hne.symm _ _).trans hjob
    · cases sent with
      | false => rfl
      | true => exact List.filter_cons_of_neg (by simpa using hother)
  | finish j =>
    obtain ⟨message, hmessage, rfl⟩ := henabled
    have hne : i ≠ message.1 := (hlost message hmessage).symm
    exact ⟨⟨⟨⟨hrunning, hne⟩, hlost⟩, hjob⟩, rfl⟩
  | acknowledge message =>
    refine ⟨⟨⟨hrunning, ?_⟩, hjob⟩, rfl⟩
    intro other hother
    exact hlost other (List.mem_of_mem_erase hother)
  | drop gone =>
    have hkeeps : gone k = false := hkept
    refine ⟨⟨⟨⟨hrunning, ?_⟩, hlost⟩, ?_⟩, rfl⟩
    · intro l hl
      rw [hjob] at hl
      cases hl
      exact hkeeps
    · simp [Queue.apply, hjob, hkeeps]

/-- Nothing is ever published again for a resource that a job without a message holds. -/
theorem Blocks.reaches (h : q.Blocks i k) (hsteps : Reaches (fun _ a => a.Keeps k) q q') :
    q'.Blocks i k ∧ q'.published.filter (fun message => message.2 = k) =
      q.published.filter fun message => message.2 = k := by
  induction hsteps with
  | refl => exact ⟨h, rfl⟩
  | tail _ hstep ih =>
    obtain ⟨a, henabled, hkept, rfl⟩ := hstep
    obtain ⟨hblocks, hpublished⟩ := ih.1.apply henabled hkept
    exact ⟨hblocks, hpublished.trans ih.2⟩

end Orphans

section Losses

variable {q q' : Queue ι κ} {a : Action ι κ}

theorem Tended.apply (h : q.Tended) (henabled : q.Enabled a) (hcareful : q.Careful a) :
    (q.apply a).Tended := by
  obtain ⟨hkept, hlossless⟩ := hcareful
  cases a with
  | start i k sent =>
    obtain rfl : sent = true := hlossless
    obtain ⟨hnew, -⟩ := henabled
    have hunknown : ∀ message ∈ q.waiting, message.1 ≠ i := by
      rintro message hmessage rfl
      rw [h.known message hmessage] at hnew
      cases hnew
    refine ⟨?_, ?_, ?_⟩
    · intro j hj
      rcases hj with rfl | hj
      · exact ⟨(j, k), List.mem_cons_self .., rfl⟩
      · obtain ⟨message, hmessage, hasks⟩ := h.asked j hj
        exact ⟨message, List.mem_cons_of_mem _ hmessage, hasks⟩
    · refine List.nodup_cons.mpr ⟨?_, h.once⟩
      rintro hmem
      obtain ⟨message, hmessage, hasks⟩ := List.mem_map.mp hmem
      exact hunknown message hmessage hasks
    · intro message hmessage
      rcases List.mem_cons.mp hmessage with rfl | hold
      · exact Function.update_self ..
      · exact (Function.update_of_ne (hunknown message hold) _ _).trans (h.known message hold)
  | finish i =>
    exact ⟨fun j hj => h.asked j hj.1, h.once, h.known⟩
  | acknowledge message =>
    have hdone : message.1 ∉ q.running := hlossless
    refine ⟨?_, h.once.sublist (List.erase_sublist.map _), ?_⟩
    · intro i hi
      obtain ⟨other, hother, hasks⟩ := h.asked i hi
      refine ⟨other, ?_, hasks⟩
      refine (List.mem_erase_of_ne ?_).mpr hother
      rintro rfl
      exact hdone (hasks ▸ hi)
    · exact fun other hother => h.known other (List.mem_of_mem_erase hother)
  | drop gone =>
    have hkeeps : ∀ k, gone k = false := hkept
    refine ⟨fun i hi => h.asked i hi.1, h.once, ?_⟩
    intro message hmessage
    simp [Queue.apply, h.known message hmessage, hkeeps]

theorem Tended.reaches (h : q.Tended) (hsteps : Reaches Careful q q') : q'.Tended := by
  induction hsteps with
  | refl => exact h
  | tail _ hstep ih =>
    obtain ⟨a, henabled, hcareful, rfl⟩ := hstep
    exact ih.apply henabled hcareful

/-- What is not careful leaves a job behind. -/
theorem Tended.blocks_of_loss (h : q.Tended) (henabled : q.Enabled a)
    (hkept : ∀ k : κ, a.Keeps k) (hloss : ¬q.Lossless a) : ∃ i k, (q.apply a).Blocks i k := by
  cases a with
  | start i k sent =>
    obtain rfl : sent = false := Bool.not_eq_true _ ▸ hloss
    refine ⟨i, k, ⟨Set.mem_insert _ _, ?_⟩, Function.update_self ..⟩
    rintro message hmessage rfl
    have hknown := h.known message hmessage
    rw [henabled.1] at hknown
    cases hknown
  | finish i => exact absurd trivial hloss
  | acknowledge message =>
    have hrunning : message.1 ∈ q.running := not_not.mp hloss
    refine ⟨message.1, message.2, ⟨hrunning, ?_⟩, h.known message henabled⟩
    intro other hother hsame
    have hfirst : message.1 ∈ (q.waiting.erase message).map Prod.fst := by
      rw [← hsame]
      exact List.mem_map_of_mem hother
    have hperm := (List.perm_cons_erase henabled).map Prod.fst
    exact (List.nodup_cons.mp (hperm.nodup_iff.mp h.once)).1 hfirst
  | drop gone => exact absurd trivial hloss

theorem Accounted.apply (h : q.Accounted) (henabled : q.Enabled a) (hcareful : q.Careful a) :
    (q.apply a).Accounted := by
  obtain ⟨hkept, hlossless⟩ := hcareful
  cases a with
  | start i k sent =>
    obtain rfl : sent = true := hlossless
    obtain ⟨hnew, -⟩ := henabled
    have hunknown : ∀ l, (i, l) ∉ q.published := by
      intro l hl
      rw [h.jobs, hnew] at hl
      cases hl
    refine ⟨List.nodup_cons.mpr ⟨hunknown k, h.once⟩, ?_⟩
    intro j l
    change (j, l) ∈ (i, k) :: q.published ↔ Function.update q.jobs i (some k) j = some l
    rw [List.mem_cons, Prod.mk.injEq, h.jobs]
    by_cases hj : j = i
    · subst hj
      simp [hnew, eq_comm]
    · simp [hj]
  | finish i => exact ⟨h.once, h.jobs⟩
  | acknowledge message => exact ⟨h.once, h.jobs⟩
  | drop gone =>
    have hkeeps : ∀ k, gone k = false := hkept
    refine ⟨h.once, ?_⟩
    intro i k
    change (i, k) ∈ q.published ↔ (q.jobs i).filter _ = some k
    simp [h.jobs, hkeeps]

theorem Accounted.reaches (h : q.Accounted) (hsteps : Reaches Careful q q') : q'.Accounted := by
  induction hsteps with
  | refl => exact h
  | tail _ hstep ih =>
    obtain ⟨a, henabled, hcareful, rfl⟩ := hstep
    exact ih.apply henabled hcareful

end Losses

end Queue

end WorkQueue
