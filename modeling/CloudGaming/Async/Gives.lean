import Mathlib.Tactic.TypeStar
/-!
# Gives — what a computation that may throw gives

`Gives Q x` says that `x` does not throw, and that what it gives meets `Q`.  Of a computation in steps it says the same
of the first, with what is asked of the rest.
-/
namespace CloudGaming
namespace Async

universe u v

variable {ε : Type u} {α β : Type v} {Q R : α → Prop}

/-- The computation gives something that meets `Q`. -/
def Gives (Q : α → Prop) (x : Except ε α) : Prop := ∃ a, x = .ok a ∧ Q a

end Async
end CloudGaming
