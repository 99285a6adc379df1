import Mathlib.Logic.Function.Basic

/-!
# Update — one point of a function

A system that names its parties by a type keeps their states in a function; a step of one party
updates it at one point.
-/

set_option autoImplicit false

namespace Update

variable {α β : Type*} [DecidableEq α] {f : α → β} {a : α} {x : β}

/-- What holds of the new value and of every old one holds of every value. -/
theorem forall_update {P : α → β → Prop} (hself : P a x) (hother : ∀ a', a' ≠ a → P a' (f a')) :
    ∀ a', P a' (Function.update f a x a') := by
  intro a'
  by_cases h : a' = a
  · subst h
    rw [Function.update_self]
    exact hself
  · rw [Function.update_of_ne h]
    exact hother a' h

theorem update_unit (f : Unit → β) (x : β) : Function.update f () x = fun _ => x :=
  funext fun _ => Function.update_self ..

end Update
