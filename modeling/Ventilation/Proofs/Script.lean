import Mathlib.Logic.Relation

namespace Ventilation
namespace Script

/-!
# Scripts

A script asks for one turn after another, and it comes to something if each of
them is possible.  So it comes to what its turns come to, one after another.
-/

variable {σ τ : Type*} {act : σ → τ → Option σ} {x y : σ} {turns : List τ}

theorem reflTransGen {Leads : σ → σ → Prop}
    (leads : ∀ {x y : σ} {turn : τ}, act x turn = some y → Leads x y)
    (played : turns.foldlM act x = some y) : Relation.ReflTransGen Leads x y := by
  induction turns generalizing x with
  | nil =>
    rcases Option.some.inj played with rfl
    exact .refl
  | cons turn turns inductionHypothesis =>
    rcases Option.bind_eq_some_iff.mp played with ⟨next, acted, later⟩
    exact (inductionHypothesis later).head (leads acted)

theorem kept {Kept : σ → Prop}
    (keeps : ∀ {x y : σ} {turn : τ}, act x turn = some y → Kept x → Kept y)
    (played : turns.foldlM act x = some y) (kept : Kept x) : Kept y := by
  have steps : Relation.ReflTransGen (fun x y => Kept x → Kept y) x y := reflTransGen keeps played
  clear played
  induction steps with
  | refl => exact kept
  | tail _ step inductionHypothesis => exact step inductionHypothesis

end Script
end Ventilation
