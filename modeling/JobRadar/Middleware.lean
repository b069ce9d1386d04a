import Mathlib.Tactic.Common

namespace Middleware

/-- A service answers a request in a state, or raises. -/
abbrev Service (σ ρ ε τ : Type) := ρ → σ → σ × Except ε τ

abbrev Layer (σ ρ ε τ : Type) := Service σ ρ ε τ → Service σ ρ ε τ

variable {σ ρ ε τ : Type} {layers : List (Layer σ ρ ε τ)} {inner inner' : Service σ ρ ε τ}

/-- A service inside its layers, the outermost first. -/
def around (layers : List (Layer σ ρ ε τ)) (inner : Service σ ρ ε τ) : Service σ ρ ε τ :=
  layers.foldr (fun layer service => layer service) inner

/-- What every layer carries outward from the service inside it holds of the whole. -/
theorem around_holds {P : Service σ ρ ε τ → Prop} (hinner : P inner)
    (hlayers : ∀ layer ∈ layers, ∀ service, P service → P (layer service)) :
    P (around layers inner) := by
  induction layers with
  | nil => exact hinner
  | cons layer layers ih =>
    have hrest := ih fun l hl => hlayers l (List.mem_cons_of_mem _ hl)
    exact hlayers layer (List.mem_cons_self ..) _ hrest

/-- Services that no layer tells apart are not told apart inside all of them. -/
theorem around_related {R : Service σ ρ ε τ → Service σ ρ ε τ → Prop} (hinner : R inner inner')
    (hlayers : ∀ layer ∈ layers, ∀ service service', R service service' →
      R (layer service) (layer service')) :
    R (around layers inner) (around layers inner') := by
  induction layers with
  | nil => exact hinner
  | cons layer layers ih =>
    have hrest := ih fun l hl => hlayers l (List.mem_cons_of_mem _ hl)
    exact hlayers layer (List.mem_cons_self ..) _ _ hrest

end Middleware
