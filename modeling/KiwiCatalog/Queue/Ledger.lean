import KiwiCatalog.Lib.Table
import KiwiCatalog.Queue.Types

/-!
# Ledger — the `verification_queue_tasks` table

One definition for each statement of `verification_queue_ledger`.  The statements that name a
task are given on the row, and then on the table.
-/

set_option autoImplicit false

namespace KiwiCatalog.Queue

inductive RowStatus
  | pending
  | running
  | completed
  | failed
  | timeout
  deriving DecidableEq, Repr

/-- The `check (status in …)` constraint: `unknown` is no row status. -/
def OutcomeStatus.rowStatus? : OutcomeStatus → Option RowStatus
  | .completed => some .completed
  | .failed => some .failed
  | .timeout => some .timeout
  | .unknown => none

/-- The content of the `result_json` column. -/
inductive ResultJson
  | empty
  | queueOutcomeUnknown
  | result (res : VerificationResult)
  deriving DecidableEq, Repr

def serializeVerificationResult : Option VerificationResult → ResultJson
  | none => .empty
  | some res => .result res

structure LedgerRow where
  taskId : String
  catalogAgentId : String
  kind : TaskKind
  actor : String
  status : RowStatus
  enqueuedAt : Nat
  startedAt : Nat
  finishedAt : Nat
  verificationStatus : String
  error : String
  resultJson : ResultJson
  deriving DecidableEq, Repr

def unknownOutcomeMarker : String := "queue_outcome_unknown"

/-! ## Statements on one row -/

def VerificationTask.pendingRow (task : VerificationTask) : LedgerRow :=
  { taskId := task.taskId
    catalogAgentId := task.catalogAgentId
    kind := task.kind
    actor := task.actor
    status := .pending
    enqueuedAt := task.enqueuedAt
    startedAt := 0
    finishedAt := 0
    verificationStatus := ""
    error := ""
    resultJson := .empty }

def LedgerRow.markRunning (startedAt : Nat) (row : LedgerRow) : LedgerRow :=
  { row with status := .running, startedAt := startedAt }

def LedgerRow.unresolved (row : LedgerRow) : Bool :=
  row.status = .pending || row.status = .running

def LedgerRow.markUnknown (error : String) (finishedAt : Nat) (row : LedgerRow) : LedgerRow :=
  if row.unresolved then
    { row with
      status := .running
      verificationStatus := unknownOutcomeMarker
      error := error
      resultJson := .queueOutcomeUnknown
      finishedAt := finishedAt }
  else row

/-- The write fence: only a running row without the unknown marker takes a terminal outcome. -/
def LedgerRow.finish (status : RowStatus) (verificationStatus error : String)
    (resultJson : ResultJson) (finishedAt : Nat) (row : LedgerRow) : LedgerRow :=
  if row.status = .running ∧ row.verificationStatus ≠ unknownOutcomeMarker then
    { row with
      status := status
      verificationStatus := verificationStatus
      error := error
      resultJson := resultJson
      finishedAt := finishedAt }
  else row

/-- Rows that `cleanup_terminal_tasks` drops. -/
def LedgerRow.expired (cutoffEpoch : Nat) (row : LedgerRow) : Bool :=
  (row.status = .completed || row.status = .failed || row.status = .timeout) &&
    row.finishedAt < cutoffEpoch

/-! ## Statements on the table -/

abbrev Ledger := List LedgerRow

def hasTaskId (taskId : String) (row : LedgerRow) : Bool := row.taskId = taskId

def insertPendingTask (ledger : Ledger) (task : VerificationTask) : Option Ledger :=
  Table.insert? LedgerRow.taskId task.pendingRow ledger

def deleteTask (ledger : Ledger) (taskId : String) : Ledger :=
  Table.deleteWhere (hasTaskId taskId) ledger

/-- The worker loop's own statement: it drops the row only while it is pending. -/
def deletePendingTask (ledger : Ledger) (taskId : String) : Ledger :=
  Table.deleteWhere (fun row => hasTaskId taskId row && row.status = .pending) ledger

def markTaskRunning (ledger : Ledger) (taskId : String) (startedAt : Nat) : Ledger :=
  Table.updateWhere (hasTaskId taskId) (LedgerRow.markRunning startedAt) ledger

def markTaskUnknown (ledger : Ledger) (taskId error : String) (finishedAt : Nat) : Ledger :=
  Table.updateWhere (hasTaskId taskId) (LedgerRow.markUnknown error finishedAt) ledger

def finishTask (ledger : Ledger) (taskId : String) (status : RowStatus)
    (verificationStatus error : String) (resultJson : ResultJson) (finishedAt : Nat) : Ledger :=
  Table.updateWhere (hasTaskId taskId)
    (LedgerRow.finish status verificationStatus error resultJson finishedAt) ledger

def cleanupTerminalTasks (ledger : Ledger) (cutoffEpoch : Nat) : Ledger :=
  Table.deleteWhere (LedgerRow.expired cutoffEpoch) ledger

def fetchTaskRow (ledger : Ledger) (taskId : String) : Option LedgerRow :=
  Table.lookup LedgerRow.taskId taskId ledger

/-- `order by enqueued_at` over the rows with an open status; ties keep the table's order. -/
def loadPendingTasks (ledger : Ledger) : List LedgerRow :=
  (ledger.filter LedgerRow.unresolved).mergeSort fun a b => a.enqueuedAt ≤ b.enqueuedAt

/-! ## What a statement leaves alone -/

@[simp] theorem markRunning_taskId (startedAt : Nat) (row : LedgerRow) :
    (row.markRunning startedAt).taskId = row.taskId := rfl

@[simp] theorem markUnknown_taskId (error : String) (finishedAt : Nat) (row : LedgerRow) :
    (row.markUnknown error finishedAt).taskId = row.taskId := by
  unfold LedgerRow.markUnknown
  split <;> rfl

@[simp] theorem finish_taskId (status : RowStatus) (vs error : String) (json : ResultJson)
    (finishedAt : Nat) (row : LedgerRow) :
    (row.finish status vs error json finishedAt).taskId = row.taskId := by
  unfold LedgerRow.finish
  split <;> rfl

/-- A marked row stays as it is under every later `finish_task`. -/
theorem finish_of_marked {row : LedgerRow} (hrow : row.verificationStatus = unknownOutcomeMarker)
    (status : RowStatus) (vs error : String) (json : ResultJson) (finishedAt : Nat) :
    row.finish status vs error json finishedAt = row := by
  unfold LedgerRow.finish
  rw [if_neg]
  rintro ⟨-, hne⟩
  exact hne hrow

end KiwiCatalog.Queue
