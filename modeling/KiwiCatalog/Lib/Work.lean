import Mathlib.Logic.Basic

/-!
# Work — statements on an open transaction, any of which may fail

A piece of work reads, writes, raises or returns.  `exec` runs it on the uncommitted state; a fault
strikes at one statement of the run and ends it there.  Whether the state at the end is kept is up to
whoever opened the transaction.
-/

set_option autoImplicit false

inductive Work (σ ε α : Type)
  | done (a : α)
  | raise (e : ε)
  | read (k : σ → Work σ ε α)
  | write (w : σ → Except ε σ) (k : Work σ ε α)

namespace Work

variable {σ ε α γ : Type}

/-- Whether the fault strikes the next statement, and what is left of it for the ones after. -/
inductive Strike
  | now
  | later (fault : Option Nat)
  deriving DecidableEq, Repr

/-- `some n` strikes the statement that `n` others precede, `none` strikes none. -/
def strike : Option Nat → Strike
  | some 0 => .now
  | some (n + 1) => .later (some n)
  | none => .later none

/-- The uncommitted state at the end, and the result. -/
def exec (interrupt : ε) : Work σ ε α → Option Nat → σ → σ × Except ε α
  | .done a, _, s => (s, .ok a)
  | .raise e, _, s => (s, .error e)
  | .read k, fault, s =>
    match strike fault with
    | .now => (s, .error interrupt)
    | .later fault => exec interrupt (k s) fault s
  | .write w k, fault, s =>
    match strike fault with
    | .now => (s, .error interrupt)
    | .later fault =>
      match w s with
      | .error e => (s, .error e)
      | .ok s' => exec interrupt k fault s'

/-- The transaction is committed whatever the result: the context manager is left by hand, without
the exception. -/
def commitAlways (interrupt : ε) (w : Work σ ε α) (fault : Option Nat) (s : σ) : σ × Except ε α :=
  exec interrupt w fault s

/-- The transaction is committed on success only: the `with` statement sees the exception. -/
def commitOnSuccess (interrupt : ε) (w : Work σ ε α) (fault : Option Nat) (s : σ) :
    σ × Except ε α :=
  match exec interrupt w fault s with
  | (s', .ok a) => (s', .ok a)
  | (_, .error e) => (s, .error e)

/-- Each statement that runs before the end leaves `core` as it was. -/
def Quiet (core : σ → γ) : Work σ ε α → Option Nat → σ → Prop
  | .done _, _, _ => True
  | .raise _, _, _ => True
  | .read k, fault, s =>
    match strike fault with
    | .now => True
    | .later fault => Quiet core (k s) fault s
  | .write w k, fault, s =>
    match strike fault with
    | .now => True
    | .later fault =>
      match w s with
      | .error _ => True
      | .ok s' => core s' = core s ∧ Quiet core k fault s'

/-- Without a fault, the statement that `n` others precede is the first to change `core`. -/
def ChangesAt (core : σ → γ) : Work σ ε α → σ → Nat → Prop
  | .done _, _, _ => False
  | .raise _, _, _ => False
  | .read _, _, 0 => False
  | .read k, s, n + 1 => ChangesAt core (k s) s n
  | .write w _, s, 0 => ∃ s', w s = .ok s' ∧ core s' ≠ core s
  | .write w k, s, n + 1 => ∃ s', w s = .ok s' ∧ core s' = core s ∧ ChangesAt core k s' n

/-- The fault strikes no later than the statement that `n` others precede. -/
def StrikesBy (fault : Option Nat) (n : Nat) : Prop := ∃ m, fault = some m ∧ m ≤ n

/-- Every write of the work keeps `P`, whatever state it finds. -/
def Keeps (P : σ → Prop) : Work σ ε α → Prop
  | .done _ => True
  | .raise _ => True
  | .read k => ∀ s, Keeps P (k s)
  | .write w k => (∀ s s', w s = .ok s' → P s → P s') ∧ Keeps P k

/-- The first write that changes `core` makes something true of it that the writes after it keep. -/
def OneWay (core : σ → γ) : Work σ ε α → σ → Prop
  | .done _, _ => True
  | .raise _, _ => True
  | .read k, s => OneWay core (k s) s
  | .write w k, s =>
    ∀ s', w s = .ok s' →
      (core s' = core s ∧ OneWay core k s') ∨
        ∃ P : γ → Prop, ¬ P (core s) ∧ P (core s') ∧ Keeps (fun s => P (core s)) k

@[simp] theorem oneWay_read {core : σ → γ} {k : σ → Work σ ε α} {s : σ} :
    OneWay core (.read k) s ↔ OneWay core (k s) s := Iff.rfl

@[simp] theorem keeps_read {P : σ → Prop} {k : σ → Work σ ε α} :
    Keeps P (.read k) ↔ ∀ s, Keeps P (k s) := Iff.rfl

variable {interrupt : ε}

theorem exec_read_now {k : σ → Work σ ε α} {fault : Option Nat} {s : σ} (h : strike fault = .now) :
    exec interrupt (.read k) fault s = (s, .error interrupt) := by
  rcases fault with _ | _ | n
  · cases h
  · rfl
  · cases h

theorem exec_read_later {k : σ → Work σ ε α} {fault fault' : Option Nat} {s : σ}
    (h : strike fault = .later fault') :
    exec interrupt (.read k) fault s = exec interrupt (k s) fault' s := by
  rcases fault with _ | _ | n
  · cases h
    rfl
  · cases h
  · cases h
    rfl

theorem exec_write_now {w : σ → Except ε σ} {k : Work σ ε α} {fault : Option Nat} {s : σ}
    (h : strike fault = .now) : exec interrupt (.write w k) fault s = (s, .error interrupt) := by
  rcases fault with _ | _ | n
  · cases h
  · rfl
  · cases h

theorem exec_write_error {w : σ → Except ε σ} {k : Work σ ε α} {fault fault' : Option Nat} {s : σ}
    {e : ε} (h : strike fault = .later fault') (hw : w s = .error e) :
    exec interrupt (.write w k) fault s = (s, .error e) := by
  simp only [exec, h, hw]

theorem exec_write_ok {w : σ → Except ε σ} {k : Work σ ε α} {fault fault' : Option Nat} {s s' : σ}
    (h : strike fault = .later fault') (hw : w s = .ok s') :
    exec interrupt (.write w k) fault s = exec interrupt k fault' s' := by
  simp only [exec, h, hw]

theorem exec_keeps {P : σ → Prop} {w : Work σ ε α} (hk : w.Keeps P) :
    ∀ (fault : Option Nat) (s : σ), P s → P (exec interrupt w fault s).1 := by
  induction w with
  | done a => exact fun _ _ h => h
  | raise e => exact fun _ _ h => h
  | read k ih =>
    intro fault s h
    cases hs : strike fault with
    | now => rw [exec_read_now hs]; exact h
    | later fault' => rw [exec_read_later hs]; exact ih s (hk s) fault' s h
  | write w k ih =>
    intro fault s h
    cases hs : strike fault with
    | now => rw [exec_write_now hs]; exact h
    | later fault' =>
      cases hw : w s with
      | error e => rw [exec_write_error hs hw]; exact h
      | ok s' =>
        rw [exec_write_ok hs hw]
        exact ih hk.2 fault' s' (hk.1 s s' hw h)

/-- Work of which every write leaves `core` alone leaves it alone. -/
theorem exec_quiet {core : σ → γ} {w : Work σ ε α} :
    ∀ (fault : Option Nat) (s : σ), w.Quiet core fault s →
      core (exec interrupt w fault s).1 = core s := by
  induction w with
  | done a => exact fun _ _ _ => rfl
  | raise e => exact fun _ _ _ => rfl
  | read k ih =>
    intro fault s h
    cases hs : strike fault with
    | now => rw [exec_read_now hs]
    | later fault' =>
      rw [exec_read_later hs]
      simp only [Quiet, hs] at h
      exact ih s fault' s h
  | write w k ih =>
    intro fault s h
    cases hs : strike fault with
    | now => rw [exec_write_now hs]
    | later fault' =>
      cases hw : w s with
      | error e => rw [exec_write_error hs hw]
      | ok s' =>
        rw [exec_write_ok hs hw]
        simp only [Quiet, hs, hw] at h
        rw [ih fault' s' h.2]
        exact h.1

/-- For one-way work, `core` is unchanged at the end exactly when no statement changed it. -/
theorem exec_core_iff {core : σ → γ} {w : Work σ ε α} :
    ∀ (fault : Option Nat) (s : σ), w.OneWay core s →
      (core (exec interrupt w fault s).1 = core s ↔ w.Quiet core fault s) := by
  induction w with
  | done a => exact fun _ _ _ => ⟨fun _ => trivial, fun _ => rfl⟩
  | raise e => exact fun _ _ _ => ⟨fun _ => trivial, fun _ => rfl⟩
  | read k ih =>
    intro fault s hway
    cases hs : strike fault with
    | now =>
      rw [exec_read_now hs]
      simp only [Quiet, hs]
    | later fault' =>
      rw [exec_read_later hs]
      simp only [Quiet, hs]
      exact ih s fault' s hway
  | write w k ih =>
    intro fault s hway
    cases hs : strike fault with
    | now =>
      rw [exec_write_now hs]
      simp only [Quiet, hs]
    | later fault' =>
      cases hw : w s with
      | error e =>
        rw [exec_write_error hs hw]
        simp only [Quiet, hs, hw]
      | ok s' =>
        rw [exec_write_ok hs hw]
        simp only [Quiet, hs, hw]
        rcases hway s' hw with ⟨hsame, hrest⟩ | ⟨P, hbefore, hafter, hkeeps⟩
        · have hiff := ih fault' s' hrest
          rw [hsame] at hiff
          exact ⟨fun h => ⟨hsame, hiff.mp h⟩, fun h => hiff.mpr h.2⟩
        · -- what the write made true of the core still holds at the end
          have hend : P (core (exec interrupt k fault' s').1) :=
            exec_keeps (P := fun s => P (core s)) hkeeps fault' s' hafter
          constructor
          · intro heq
            rw [heq] at hend
            exact absurd hend hbefore
          · intro h
            rw [h.1] at hafter
            exact absurd hafter hbefore

theorem strikesBy_now {fault : Option Nat} (h : strike fault = .now) (n : Nat) :
    StrikesBy fault n := by
  cases fault with
  | none => cases h
  | some m =>
    cases m with
    | zero => exact ⟨0, rfl, Nat.zero_le n⟩
    | succ m => cases h

theorem strikesBy_later {fault fault' : Option Nat} (h : strike fault = .later fault') (n : Nat) :
    StrikesBy fault (n + 1) ↔ StrikesBy fault' n := by
  cases fault with
  | none =>
    cases h
    constructor
    · rintro ⟨m, hm, -⟩
      cases hm
    · rintro ⟨m, hm, -⟩
      cases hm
  | some m =>
    cases m with
    | zero => cases h
    | succ m =>
      cases h
      constructor
      · rintro ⟨_, hm, hle⟩
        cases hm
        exact ⟨m, rfl, by omega⟩
      · rintro ⟨_, hm, hle⟩
        cases hm
        exact ⟨m + 1, rfl, by omega⟩

theorem not_strikesBy_zero {fault fault' : Option Nat} (h : strike fault = .later fault') :
    ¬ StrikesBy fault 0 := by
  rintro ⟨m, rfl, hle⟩
  have hzero : m = 0 := by omega
  subst hzero
  cases h

/-- A run is quiet exactly when the fault strikes no later than the first change. -/
theorem quiet_iff {core : σ → γ} {w : Work σ ε α} :
    ∀ (fault : Option Nat) (s : σ),
      w.Quiet core fault s ↔ ∀ n, w.ChangesAt core s n → StrikesBy fault n := by
  induction w with
  | done a => exact fun _ _ => ⟨fun _ _ h => h.elim, fun _ => trivial⟩
  | raise e => exact fun _ _ => ⟨fun _ _ h => h.elim, fun _ => trivial⟩
  | read k ih =>
    intro fault s
    cases hs : strike fault with
    | now =>
      simp only [Quiet, hs, true_iff]
      exact fun n _ => strikesBy_now hs n
    | later fault' =>
      simp only [Quiet, hs]
      rw [ih s fault' s]
      constructor
      · intro h n hn
        cases n with
        | zero => exact hn.elim
        | succ n => exact (strikesBy_later hs n).mpr (h n hn)
      · exact fun h n hn => (strikesBy_later hs n).mp (h (n + 1) hn)
  | write w k ih =>
    intro fault s
    cases hs : strike fault with
    | now =>
      simp only [Quiet, hs, true_iff]
      exact fun n _ => strikesBy_now hs n
    | later fault' =>
      cases hw : w s with
      | error e =>
        simp only [Quiet, hs, hw, true_iff]
        intro n hn
        cases n with
        | zero =>
          obtain ⟨s', hs', -⟩ := hn
          rw [hw] at hs'
          cases hs'
        | succ n =>
          obtain ⟨s', hs', -⟩ := hn
          rw [hw] at hs'
          cases hs'
      | ok s' =>
        simp only [Quiet, hs, hw]
        rw [ih fault' s']
        constructor
        · rintro ⟨hsame, h⟩ n hn
          cases n with
          | zero =>
            obtain ⟨t, ht, hne⟩ := hn
            rw [hw] at ht
            cases ht
            exact absurd hsame hne
          | succ n =>
            obtain ⟨t, ht, -, hrest⟩ := hn
            rw [hw] at ht
            cases ht
            exact (strikesBy_later hs n).mpr (h n hrest)
        · intro h
          have hsame : core s' = core s := by
            apply Classical.byContradiction
            intro hne
            exact not_strikesBy_zero hs (h 0 ⟨s', hw, hne⟩)
          exact ⟨hsame, fun n hn => (strikesBy_later hs n).mp (h (n + 1) ⟨s', hw, hsame, hn⟩)⟩

/-- Committing on success only is atomic. -/
theorem commitOnSuccess_error {w : Work σ ε α} {fault : Option Nat} {s s' : σ} {e : ε}
    (h : commitOnSuccess interrupt w fault s = (s', .error e)) : s' = s := by
  unfold commitOnSuccess at h
  split at h
  · cases h
  · cases h
    rfl

end Work
