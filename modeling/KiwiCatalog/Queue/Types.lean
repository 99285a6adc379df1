import Mathlib.Data.List.Basic

/-!
# Queue types — tasks, outcomes and the exceptions their texts quote

Clock readings are natural numbers: the code only compares them and copies them into rows.
-/

set_option autoImplicit false

namespace KiwiCatalog.Queue

inductive TaskKind
  | verify
  | refresh
  | markStale
  | suspend
  deriving DecidableEq, Repr

/-- `VerificationQueue._KINDS`, as `enqueue` reads its argument. -/
def TaskKind.ofString? : String → Option TaskKind
  | "verify" => some .verify
  | "refresh" => some .refresh
  | "mark_stale" => some .markStale
  | "suspend" => some .suspend
  | _ => none

/-- The service method `_execute_task` dispatches to. -/
inductive ServiceMethod
  | verify
  | refresh
  | markStale
  | suspend
  deriving DecidableEq, Repr

def TaskKind.serviceMethod : TaskKind → ServiceMethod
  | .refresh => .refresh
  | .markStale => .markStale
  | .suspend => .suspend
  | .verify => .verify

structure VerificationTask where
  catalogAgentId : String
  taskId : String
  kind : TaskKind
  actor : String
  enqueuedAt : Nat
  deriving DecidableEq, Repr

inductive OutcomeStatus
  | completed
  | failed
  | timeout
  | unknown
  deriving DecidableEq, Repr

/-- What a service call returns; only `status` is read by the queue. -/
structure VerificationResult where
  previousStatus : String
  status : String
  deriving DecidableEq, Repr

structure VerificationTaskResult where
  taskId : String
  catalogAgentId : String
  kind : TaskKind
  status : OutcomeStatus
  verificationStatus : String
  error : String
  enqueuedAt : Nat
  startedAt : Nat
  finishedAt : Nat
  result : Option VerificationResult
  deriving DecidableEq, Repr

/-- A raised `Exception`: its class name and its text. -/
structure Exc where
  typeName : String
  message : String
  deriving DecidableEq, Repr

/-- The f-string `{type(exc).__name__}: {exc}`. -/
def Exc.describe (exc : Exc) : String :=
  exc.typeName ++ ": " ++ exc.message

/-- The outcome record every path of the queue builds for `task`. -/
def VerificationTask.outcome (task : VerificationTask) (status : OutcomeStatus)
    (verificationStatus error : String) (startedAt finishedAt : Nat)
    (result : Option VerificationResult) : VerificationTaskResult :=
  { taskId := task.taskId
    catalogAgentId := task.catalogAgentId
    kind := task.kind
    status := status
    verificationStatus := verificationStatus
    error := error
    enqueuedAt := task.enqueuedAt
    startedAt := startedAt
    finishedAt := finishedAt
    result := result }

@[simp] theorem outcome_taskId (task : VerificationTask) (status : OutcomeStatus)
    (vs err : String) (st fin : Nat) (res : Option VerificationResult) :
    (task.outcome status vs err st fin res).taskId = task.taskId := rfl

@[simp] theorem outcome_status (task : VerificationTask) (status : OutcomeStatus)
    (vs err : String) (st fin : Nat) (res : Option VerificationResult) :
    (task.outcome status vs err st fin res).status = status := rfl

/-- `VerificationQueueConfig`, with the checks of its `__post_init__` as fields. -/
structure VerificationQueueConfig where
  maxPending : Nat
  concurrency : Nat
  taskTimeoutSeconds : Nat
  maxPending_pos : 1 ≤ maxPending
  concurrency_pos : 1 ≤ concurrency
  taskTimeoutSeconds_pos : 0 < taskTimeoutSeconds

end KiwiCatalog.Queue
