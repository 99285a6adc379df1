import KiwiCatalog.Lib.Transition
import Mathlib.Data.Nat.Init

/-!
# Fairness — infinite runs, and what they come to

A path takes a step or stays where it is at every moment.  Along a path whose parties are not kept
waiting for good, a number that no step raises and the step of one party lowers comes to its end.
-/

set_option autoImplicit false

namespace Fairness

open Transition

variable {σ : Type*}

/-! ## 1. Paths -/

structure Path (init : σ → Prop) (step : σ → σ → Prop) where
  state : Nat → σ
  start : init (state 0)
  next : ∀ n, state (n + 1) = state n ∨ step (state n) (state (n + 1))

namespace Path

variable {init : σ → Prop} {step : σ → σ → Prop} (path : Path init step)

theorem run {n m : Nat} (h : n ≤ m) : Run step (path.state n) (path.state m) := by
  induction m, h using Nat.le_induction with
  | base => exact .refl
  | succ m _ ih =>
    rcases path.next m with hsame | hstep
    · rw [hsame]
      exact ih
    · exact ih.tail hstep

theorem reachable (n : Nat) : Reachable init step (path.state n) :=
  ⟨path.state 0, path.start, path.run (Nat.zero_le n)⟩

end Path

/-! ## 2. What leads to what -/

variable {state : Nat → σ} {p q r : σ → Prop}

/-- Whenever `p` holds, `q` holds then or later. -/
def Leads (state : Nat → σ) (p q : σ → Prop) : Prop :=
  ∀ n, p (state n) → ∃ m, n ≤ m ∧ q (state m)

/-- A party that takes the steps `act` is not kept waiting for good, unless for `waits`. -/
def Fair (state : Nat → σ) (waits : σ → Prop) (act : σ → σ → Prop) : Prop :=
  ∀ n, ∃ m, n ≤ m ∧ (waits (state m) ∨ act (state m) (state (m + 1)))

theorem Leads.trans (hpq : Leads state p q) (hqr : Leads state q r) : Leads state p r := by
  intro start hp
  have ⟨middle, hfirst, hq⟩ := hpq start hp
  have ⟨last, hthen, hr⟩ := hqr middle hq
  exact ⟨last, Nat.le_trans hfirst hthen, hr⟩

/-- What each moment keeps, unless `q` holds at the next, holds up to the first `q`. -/
theorem keeps_until (hkeep : ∀ n, p (state n) → q (state (n + 1)) ∨ p (state (n + 1))) {n m : Nat}
    (hp : p (state n)) (hnm : n ≤ m) : (∃ k, n ≤ k ∧ q (state k)) ∨ p (state m) := by
  induction m, hnm using Nat.le_induction with
  | base => exact .inr hp
  | succ m hnm ih =>
    rcases ih with hreached | hpm
    · exact .inl hreached
    · rcases hkeep m hpm with hq | hp'
      · exact .inl ⟨m + 1, Nat.le_succ_of_le hnm, hq⟩
      · exact .inr hp'

/-- The rule for one party: no step raises the rank, and those of the party lower it. -/
theorem leads_of_rank {waits : σ → Prop} {act : σ → σ → Prop} (rank : σ → Nat)
    (hfair : Fair state waits act) (hbusy : ∀ n, p (state n) → ¬ waits (state n))
    (hkeep : ∀ n, p (state n) → q (state (n + 1)) ∨
      p (state (n + 1)) ∧ rank (state (n + 1)) ≤ rank (state n))
    (hact : ∀ n, p (state n) → act (state n) (state (n + 1)) →
      q (state (n + 1)) ∨ p (state (n + 1)) ∧ rank (state (n + 1)) < rank (state n)) :
    Leads state p q := by
  intro n
  -- the induction is on the rank at `n`
  induction hrank : rank (state n) using Nat.strong_induction_on generalizing n with
  | _ k ih =>
    intro hp
    obtain ⟨m, hnm, hnext⟩ := hfair n
    have huntil : (∃ j, n ≤ j ∧ q (state j)) ∨ p (state m) ∧ rank (state m) ≤ k := by
      apply keeps_until (p := fun s => p s ∧ rank s ≤ k) _ ⟨hp, Nat.le_of_eq hrank⟩ hnm
      rintro j ⟨hpj, hle⟩
      rcases hkeep j hpj with hq | ⟨hp', hle'⟩
      · exact .inl hq
      · exact .inr ⟨hp', Nat.le_trans hle' hle⟩
    rcases huntil with hreached | ⟨hpm, hle⟩
    · exact hreached
    · rcases hnext with hwaits | hstep
      · exact absurd hwaits (hbusy m hpm)
      · rcases hact m hpm hstep with hq | ⟨hp', hlt⟩
        · exact ⟨m + 1, Nat.le_succ_of_le hnm, hq⟩
        · obtain ⟨j, hmj, hq⟩ := ih _ (Nat.lt_of_lt_of_le hlt hle) (m + 1) rfl hp'
          exact ⟨j, Nat.le_trans (Nat.le_succ_of_le hnm) hmj, hq⟩

/-- What cannot go on for good, and goes on until `q`, leads to `q`. -/
theorem leads_of_ends (hends : ∀ n, ∃ m, n ≤ m ∧ ¬ p (state m))
    (hkeep : ∀ n, p (state n) → q (state (n + 1)) ∨ p (state (n + 1))) : Leads state p q := by
  intro n hp
  obtain ⟨m, hnm, hnot⟩ := hends n
  rcases keeps_until hkeep hp hnm with hreached | hpm
  · exact hreached
  · exact absurd hpm hnot

end Fairness
