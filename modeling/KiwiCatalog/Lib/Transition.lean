import Mathlib.Logic.Relation

/-!
# Transition — runs of a step relation and what holds along them

A system is a type of states with a step relation.  The rules below turn a fact about one step
into a fact about whole runs: an invariant, a relation between the two ends of a run, a guarded
run, and a simulation of one system by another.
-/

set_option autoImplicit false

namespace Transition

variable {σ τ : Type*}

/-- Any number of steps. -/
abbrev Run (step : σ → σ → Prop) : σ → σ → Prop := Relation.ReflTransGen step

/-- A state that some run reaches from an initial state. -/
def Reachable (init : σ → Prop) (step : σ → σ → Prop) (s : σ) : Prop :=
  ∃ s₀, init s₀ ∧ Run step s₀ s

/-- Every step keeps `P`. -/
def Preserves (step : σ → σ → Prop) (P : σ → Prop) : Prop :=
  ∀ ⦃s t⦄, step s t → P s → P t

/-- The steps of a system that also meet a condition on the step. -/
def Guarded (step : σ → σ → Prop) (cond : σ → σ → Prop) (s t : σ) : Prop :=
  step s t ∧ cond s t

section Invariants

variable {init : σ → Prop} {step : σ → σ → Prop} {P Q : σ → Prop}

theorem run_preserves (hstep : Preserves step P) {s t : σ} (hrun : Run step s t) (hs : P s) :
    P t := by
  induction hrun with
  | refl => exact hs
  | tail _ hlast ih => exact hstep hlast ih

theorem reachable_init {s : σ} (hs : init s) : Reachable init step s :=
  ⟨s, hs, .refl⟩

theorem reachable_step {s t : σ} (hs : Reachable init step s) (hstep : step s t) :
    Reachable init step t := by
  obtain ⟨s₀, hinit, hrun⟩ := hs
  exact ⟨s₀, hinit, hrun.tail hstep⟩

theorem reachable_run {s t : σ} (hs : Reachable init step s) (hrun : Run step s t) :
    Reachable init step t := by
  obtain ⟨s₀, hinit, hrun₀⟩ := hs
  exact ⟨s₀, hinit, hrun₀.trans hrun⟩

/-- The invariant rule: `P` holds at the start and every step keeps it. -/
theorem reachable_invariant (hinit : ∀ s, init s → P s) (hstep : Preserves step P) {s : σ}
    (hs : Reachable init step s) : P s := by
  obtain ⟨s₀, h₀, hrun⟩ := hs
  exact run_preserves hstep hrun (hinit s₀ h₀)

/-- A reflexive and transitive relation that holds across each step from a state satisfying an
invariant holds across each run from such a state. -/
theorem run_relates {R : σ → σ → Prop} (hrefl : ∀ s, R s s)
    (htrans : ∀ {s t u}, R s t → R t u → R s u) (hpres : Preserves step P)
    (hstep : ∀ {s t}, P s → step s t → R s t) {s t : σ} (hs : P s) (hrun : Run step s t) :
    R s t := by
  induction hrun with
  | refl => exact hrefl s
  | tail hprefix hlast ih => exact htrans ih (hstep (run_preserves hpres hprefix hs) hlast)

theorem reachable_mono {step₁ step₂ : σ → σ → Prop} (h : ∀ {s t}, step₁ s t → step₂ s t) {s : σ}
    (hs : Reachable init step₁ s) : Reachable init step₂ s := by
  obtain ⟨s₀, hinit, hrun⟩ := hs
  exact ⟨s₀, hinit, hrun.lift id fun _ _ => h⟩

theorem guarded_run {cond : σ → σ → Prop} {s t : σ} (hrun : Run (Guarded step cond) s t) :
    Run step s t :=
  hrun.lift id fun _ _ h => h.1

end Invariants

section Simulation

variable {init : σ → Prop} {step : σ → σ → Prop} {init' : τ → Prop} {step' : τ → τ → Prop}

/-- `abs` maps every step to at most one step of the abstract system: a forward simulation in
which the concrete system may stutter. -/
def Simulates (step : σ → σ → Prop) (step' : τ → τ → Prop) (P : σ → Prop) (abs : σ → τ) : Prop :=
  ∀ ⦃s t⦄, P s → step s t → abs t = abs s ∨ step' (abs s) (abs t)

theorem run_simulation {P : σ → Prop} {abs : σ → τ} (hpres : Preserves step P)
    (hsim : Simulates step step' P abs) {s t : σ} (hs : P s) (hrun : Run step s t) :
    Run step' (abs s) (abs t) := by
  induction hrun with
  | refl => exact .refl
  | tail hprefix hlast ih =>
    rcases hsim (run_preserves hpres hprefix hs) hlast with heq | hmove
    · rw [heq]; exact ih
    · exact ih.tail hmove

end Simulation

end Transition
