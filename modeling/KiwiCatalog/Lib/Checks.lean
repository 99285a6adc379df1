import Mathlib.Data.List.Basic

/-!
# Checks — handlers as sequences of checks that raise

A handler is a computation in `Except`; each check either lets it go on or ends it.  The rules
below take a handler that has succeeded apart, one statement after the other.
-/

set_option autoImplicit false

namespace Checks

variable {ε α β : Type}

/-- `if not condition: raise error`. -/
def check (condition : Bool) (error : ε) : Except ε Unit :=
  if condition then .ok () else .error error

/-- The value under a lookup, whose absence raises. -/
def require (value : Option α) (error : ε) : Except ε α :=
  match value with
  | some a => .ok a
  | none => .error error

theorem bind_eq_ok {x : Except ε α} {f : α → Except ε β} {b : β} (h : x >>= f = .ok b) :
    ∃ a, x = .ok a ∧ f a = .ok b := by
  cases x with
  | error e => cases h
  | ok a => exact ⟨a, rfl, h⟩

theorem bind_ok_iff {x : Except ε α} {f : α → Except ε β} {b : β} :
    x >>= f = .ok b ↔ ∃ a, x = .ok a ∧ f a = .ok b := by
  constructor
  · exact bind_eq_ok
  · rintro ⟨a, rfl, hrest⟩
    exact hrest

theorem check_eq_ok {condition : Bool} {error : ε} {u : Unit} (h : check condition error = .ok u) :
    condition = true := by
  unfold check at h
  split at h
  · rename_i hcondition
    exact hcondition
  · cases h

theorem check_ok_iff {condition : Bool} {error : ε} {u : Unit} :
    check condition error = .ok u ↔ condition = true := by
  constructor
  · exact check_eq_ok
  · rintro rfl
    rfl

theorem require_eq_ok {value : Option α} {error : ε} {a : α} (h : require value error = .ok a) :
    value = some a := by
  unfold require at h
  split at h
  · rw [Except.ok.inj h]
  · cases h

theorem bind_eq_error {x : Except ε α} {f : α → Except ε β} {e : ε} (h : x >>= f = .error e) :
    x = .error e ∨ ∃ a, x = .ok a ∧ f a = .error e := by
  cases x with
  | error e' =>
    left
    exact congrArg Except.error (Except.error.inj h)
  | ok a => exact .inr ⟨a, rfl, h⟩

theorem check_eq_error {condition : Bool} {error e : ε} (h : check condition error = .error e) :
    condition = false ∧ e = error := by
  cases condition with
  | true => cases h
  | false => exact ⟨rfl, (Except.error.inj h).symm⟩

theorem require_eq_error {value : Option α} {error e : ε} (h : require value error = .error e) :
    value = none ∧ e = error := by
  cases value with
  | some a => cases h
  | none => exact ⟨rfl, (Except.error.inj h).symm⟩

/-- A handler that succeeds has passed its first check. -/
theorem check_bind {condition : Bool} {error : ε} {f : Unit → Except ε β} {b : β}
    (h : check condition error >>= f = .ok b) : condition = true ∧ f () = .ok b := by
  obtain ⟨u, hcheck, hrest⟩ := bind_eq_ok h
  exact ⟨check_eq_ok hcheck, hrest⟩

theorem require_bind {value : Option α} {error : ε} {f : α → Except ε β} {b : β}
    (h : require value error >>= f = .ok b) : ∃ a, value = some a ∧ f a = .ok b := by
  obtain ⟨a, hrequire, hrest⟩ := bind_eq_ok h
  exact ⟨a, require_eq_ok hrequire, hrest⟩

/-! ## Exceptions of one kind -/

/-- What the computation raises meets `p`. -/
def OnlyRaises (p : ε → Prop) (x : Except ε α) : Prop := ∀ e, x = .error e → p e

theorem onlyRaises_ok (p : ε → Prop) (a : α) : OnlyRaises p (.ok a : Except ε α) := by
  intro e h
  cases h

theorem onlyRaises_bind {p : ε → Prop} {x : Except ε α} {f : α → Except ε β} :
    OnlyRaises p (x >>= f) ↔ OnlyRaises p x ∧ ∀ a, x = .ok a → OnlyRaises p (f a) := by
  constructor
  · intro h
    constructor
    · intro e hx
      exact h e (by rw [hx]; rfl)
    · intro a hx e hf
      exact h e (by rw [hx]; exact hf)
  · intro h e hbind
    rcases bind_eq_error hbind with hx | ⟨a, hx, hf⟩
    · exact h.1 e hx
    · exact h.2 a hx e hf

theorem onlyRaises_check {p : ε → Prop} {condition : Bool} {error : ε} :
    OnlyRaises p (check condition error) ↔ (condition = false → p error) := by
  constructor
  · rintro h rfl
    exact h error rfl
  · intro h e hcheck
    obtain ⟨hcondition, rfl⟩ := check_eq_error hcheck
    exact h hcondition

theorem onlyRaises_require {p : ε → Prop} {value : Option α} {error : ε} :
    OnlyRaises p (require value error) ↔ (value = none → p error) := by
  constructor
  · rintro h rfl
    exact h error rfl
  · intro h e hrequire
    obtain ⟨hvalue, rfl⟩ := require_eq_error hrequire
    exact h hvalue

end Checks
