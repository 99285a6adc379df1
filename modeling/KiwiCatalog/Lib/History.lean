import Mathlib.Logic.Function.Basic

/-!
# History — the committed states of a store

A store passes through one state a commit.  A reader that makes several statements sees several of
them; `Within` says that one of the states between two commits has a property.
-/

set_option autoImplicit false

structure History (δ : Type*) where
  time : Nat
  stateAt : Nat → δ

namespace History

variable {δ : Type*}

def current (h : History δ) : δ := h.stateAt h.time

def commit (h : History δ) (d : δ) : History δ where
  time := h.time + 1
  stateAt := Function.update h.stateAt (h.time + 1) d

/-- Some state from the commit `start` to the commit `finish` has the property. -/
def Within (h : History δ) (start finish : Nat) (P : δ → Prop) : Prop :=
  ∃ t, start ≤ t ∧ t ≤ finish ∧ P (h.stateAt t)

@[simp] theorem time_commit (h : History δ) (d : δ) : (h.commit d).time = h.time + 1 := rfl

@[simp] theorem current_commit (h : History δ) (d : δ) : (h.commit d).current = d := by
  show Function.update h.stateAt (h.time + 1) d (h.time + 1) = d
  rw [Function.update_self]

theorem stateAt_commit {h : History δ} {t : Nat} (ht : t ≤ h.time) (d : δ) :
    (h.commit d).stateAt t = h.stateAt t := by
  show Function.update h.stateAt (h.time + 1) d t = h.stateAt t
  have hne : t ≠ h.time + 1 := by omega
  rw [Function.update_of_ne hne]

variable {P : δ → Prop}

theorem within_current {h : History δ} {start : Nat} (hstart : start ≤ h.time)
    (hP : P h.current) : h.Within start h.time P :=
  ⟨h.time, hstart, Nat.le_refl _, hP⟩

theorem Within.commit {h : History δ} {start finish : Nat} (hw : h.Within start finish P)
    (hfinish : finish ≤ h.time) (d : δ) : (h.commit d).Within start finish P := by
  obtain ⟨t, hstart, ht, hP⟩ := hw
  have hpast : t ≤ h.time := by omega
  refine ⟨t, hstart, ht, ?_⟩
  rw [stateAt_commit hpast]
  exact hP

theorem Within.mono {h : History δ} {start finish finish' : Nat} (hw : h.Within start finish P)
    (hle : finish ≤ finish') : h.Within start finish' P := by
  obtain ⟨t, hstart, ht, hP⟩ := hw
  exact ⟨t, hstart, by omega, hP⟩

end History
