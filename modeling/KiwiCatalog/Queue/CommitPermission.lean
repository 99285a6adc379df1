import KiwiCatalog.Queue.Types

/-!
# CommitPermission — the lock-protected decisions shared by a runner and its supervisor

Each method of `_CommitPermission` runs under the object's lock, so it is one function from the
permission to the permission after it.
-/

set_option autoImplicit false

namespace KiwiCatalog.Queue

inductive PermissionState
  | running
  | committing
  | done
  | timeout
  | unknown
  deriving DecidableEq, Repr

structure CommitPermission where
  deadline : Nat
  cancelled : Bool
  state : PermissionState
  result : Option VerificationTaskResult
  deriving DecidableEq, Repr

namespace CommitPermission

def fresh (deadline : Nat) : CommitPermission :=
  { deadline := deadline, cancelled := false, state := .running, result := none }

/-- `claim_commit`, with the reading of `time.monotonic()` it makes under the lock. -/
def claimCommit (monotonic : Nat) (p : CommitPermission) : Bool × CommitPermission :=
  if p.state ≠ .running then (false, p)
  else if p.deadline ≤ monotonic then (false, { p with state := .timeout, cancelled := true })
  else (true, { p with state := .committing })

def finish (result : VerificationTaskResult) (p : CommitPermission) : CommitPermission :=
  if p.state = .running ∨ p.state = .committing then
    { p with state := .done, result := some result }
  else p

def uncertain (p : CommitPermission) : CommitPermission :=
  { p with state := .unknown, cancelled := true }

def decideDeadline (p : CommitPermission) :
    (PermissionState × Option VerificationTaskResult) × CommitPermission :=
  let p' : CommitPermission :=
    if p.state = .running then { p with state := .timeout, cancelled := true }
    else if p.state = .committing then { p with state := .unknown, cancelled := true }
    else p
  ((p'.state, p'.result), p')

/-! ## What each decision can do -/

/-- A granted claim found the permission running before its deadline. -/
theorem claimCommit_true {m : Nat} {p p' : CommitPermission} (h : p.claimCommit m = (true, p')) :
    p.state = .running ∧ m < p.deadline ∧ p' = { p with state := .committing } := by
  unfold claimCommit at h
  split at h
  · cases h
  · rename_i hrun
    split at h
    · cases h
    · rename_i hlt
      exact ⟨not_not.mp hrun, Nat.lt_of_not_le hlt, (Prod.mk.inj h).2.symm⟩

/-- A refused claim leaves the permission alone, or turns a running one into a timeout. -/
theorem claimCommit_false {m : Nat} {p p' : CommitPermission} (h : p.claimCommit m = (false, p')) :
    (p.state ≠ .running ∧ p' = p) ∨
      (p.state = .running ∧ p' = { p with state := .timeout, cancelled := true }) := by
  unfold claimCommit at h
  split at h
  · rename_i hrun
    exact .inl ⟨hrun, (Prod.mk.inj h).2.symm⟩
  · rename_i hrun
    split at h
    · exact .inr ⟨not_not.mp hrun, (Prod.mk.inj h).2.symm⟩
    · cases h

/-- `finish` publishes its result from an open permission and is void otherwise. -/
theorem finish_cases (r : VerificationTaskResult) (p : CommitPermission) :
    ((p.state = .running ∨ p.state = .committing) ∧
        p.finish r = { p with state := .done, result := some r }) ∨
      ((p.state ≠ .running ∧ p.state ≠ .committing) ∧ p.finish r = p) := by
  unfold finish
  by_cases h : p.state = .running ∨ p.state = .committing
  · rw [if_pos h]
    exact .inl ⟨h, rfl⟩
  · rw [if_neg h]
    exact .inr ⟨not_or.mp h, rfl⟩

@[simp] theorem uncertain_state (p : CommitPermission) : p.uncertain.state = .unknown := rfl

@[simp] theorem uncertain_result (p : CommitPermission) : p.uncertain.result = p.result := rfl

@[simp] theorem decideDeadline_result (p : CommitPermission) :
    p.decideDeadline.2.result = p.result := by
  unfold decideDeadline
  split <;> [rfl; (split <;> rfl)]

/-- The supervisor learns exactly the state and result it leaves behind. -/
@[simp] theorem decideDeadline_decision (p : CommitPermission) :
    p.decideDeadline.1 = (p.decideDeadline.2.state, p.decideDeadline.2.result) := rfl

theorem decideDeadline_state (p : CommitPermission) :
    p.decideDeadline.2.state =
      match p.state with
      | .running => .timeout
      | .committing => .unknown
      | s => s := by
  unfold decideDeadline
  cases hs : p.state <;> simp [hs]

end CommitPermission

end KiwiCatalog.Queue
