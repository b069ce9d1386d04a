import Mathlib.Data.Set.Basic
import Mathlib.Logic.Relation

namespace Cascade

variable {ρ : Type} {cites : ρ → ρ → Prop} {rows : Set ρ} {target r s : ρ}

/-- A row that is there refers to another one that is there, and goes with it. -/
def Refers (cites : ρ → ρ → Prop) (rows : Set ρ) (r s : ρ) : Prop :=
  r ∈ rows ∧ s ∈ rows ∧ cites r s

/-- What `ON DELETE CASCADE` takes along with a row: all that has a chain of references to it. -/
def Falls (cites : ρ → ρ → Prop) (rows : Set ρ) (target r : ρ) : Prop :=
  Relation.ReflTransGen (Refers cites rows) r target

def survivors (cites : ρ → ρ → Prop) (rows : Set ρ) (target : ρ) : Set ρ :=
  {r | r ∈ rows ∧ ¬Falls cites rows target r}

theorem not_cites_of_survivors (hr : r ∈ survivors cites rows target) (hs : s ∈ rows)
    (hgone : s ∉ survivors cites rows target) : ¬cites r s := by
  intro hcites
  have hfalls : Falls cites rows target s := by
    by_contra hstays
    exact hgone ⟨hs, hstays⟩
  exact hr.2 (.head ⟨hr.1, hs, hcites⟩ hfalls)

theorem Falls.induct {P : ρ → Prop} (htarget : P target)
    (hcites : ∀ r s, Refers cites rows r s → P s → P r) (h : Falls cites rows target r) : P r := by
  induction h using Relation.ReflTransGen.head_induction_on with
  | refl => exact htarget
  | head hrefers _ ih => exact hcites _ _ hrefers ih

theorem mem_survivors_iff {P : ρ → Prop} (htarget : P target)
    (hcites : ∀ r s, Refers cites rows r s → P s → P r)
    (hfalls : ∀ r ∈ rows, P r → Falls cites rows target r) :
    r ∈ survivors cites rows target ↔ r ∈ rows ∧ ¬P r := by
  constructor
  · rintro ⟨hr, hstays⟩
    exact ⟨hr, fun hP => hstays (hfalls r hr hP)⟩
  · rintro ⟨hr, hP⟩
    exact ⟨hr, fun hfalls => hP (hfalls.induct htarget hcites)⟩

end Cascade
