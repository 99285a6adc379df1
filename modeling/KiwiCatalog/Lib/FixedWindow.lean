import Mathlib.Logic.Basic

/-!
# FixedWindow — counters by key and window

A fixed-window limiter keeps one counter for each key and window; no row is the count zero.
Windows are named by their start.
-/

set_option autoImplicit false

namespace FixedWindow

variable {κ : Type*} [DecidableEq κ]

abbrev Counters (κ : Type*) := κ → Nat → Nat

/-- The start of the window that holds `now`. -/
def windowStart (length now : Nat) : Nat := now - now % length

/-- Drops the windows that start before `cutoff`, but not `keep`. -/
def prune (cutoff keep : Nat) (c : Counters κ) : Counters κ :=
  fun k w => if w < cutoff ∧ w ≠ keep then 0 else c k w

/-- Counts one request, unless the count has come to the limit. -/
def consume? (c : Counters κ) (key : κ) (window limit : Nat) : Option (Counters κ) :=
  if c key window = 0 ∨ c key window < limit then
    some fun k w => if k = key ∧ w = window then c k w + 1 else c k w
  else none

omit [DecidableEq κ] in
theorem prune_of_le {cutoff keep : Nat} {c : Counters κ} {k : κ} {w : Nat} (h : cutoff ≤ w) :
    prune cutoff keep c k w = c k w :=
  if_neg fun hw => absurd hw.1 (by omega)

omit [DecidableEq κ] in
theorem prune_keep (cutoff keep : Nat) (c : Counters κ) (k : κ) :
    prune cutoff keep c k keep = c k keep :=
  if_neg fun hw => hw.2 rfl

/-- A request that is let through is counted, and the count stays within a positive limit. -/
theorem consume?_eq_some {c c' : Counters κ} {key : κ} {window limit : Nat}
    (h : consume? c key window limit = some c') (hlimit : 0 < limit) (k : κ) (w : Nat) :
    c' k w = c k w + (if k = key ∧ w = window then 1 else 0) ∧
      (k = key → w = window → c' k w ≤ limit) := by
  unfold consume? at h
  split at h
  · rename_i hroom
    cases h
    dsimp only
    by_cases hself : k = key ∧ w = window
    · obtain ⟨rfl, rfl⟩ := hself
      rw [if_pos ⟨rfl, rfl⟩, if_pos ⟨rfl, rfl⟩]
      exact ⟨rfl, fun _ _ => by omega⟩
    · rw [if_neg hself, if_neg hself]
      exact ⟨rfl, fun hk hw => absurd ⟨hk, hw⟩ hself⟩
  · cases h

theorem windowStart_le (length now : Nat) : windowStart length now ≤ now := Nat.sub_le _ _

theorem lt_windowStart_add {length : Nat} (now : Nat) (h : 0 < length) :
    now < windowStart length now + length := by
  have hmod := Nat.mod_lt now h
  have hle := Nat.mod_le now length
  unfold windowStart
  omega

end FixedWindow
