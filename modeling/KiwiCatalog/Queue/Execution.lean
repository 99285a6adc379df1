import KiwiCatalog.Lib.Transition
import KiwiCatalog.Queue.CommitPermission
import KiwiCatalog.Queue.Ledger

/-!
# Execution — one task under its supervisor and its runner

`_run_task_with_timeout` supervises, `_execute_task` runs in a daemon thread, and they share the
`_CommitPermission` and the `box`.  Each constructor is one indivisible action of one of them, so
a run is an arbitrary interleaving.  The supervisor's part goes on through the worker loop's
handling of its exception until the outcome is stored in `_results`.
-/

set_option autoImplicit false

namespace KiwiCatalog.Queue

/-- How far the service's `commit()` has come. -/
inductive CommitPhase
  | notStarted
  | started
  | returned
  | raised
  deriving DecidableEq, Repr

inductive RunnerPc
  | notStarted
  | creatingService
  | checkingCancelled
  | callingService (method : ServiceMethod)
  | claimingCommit (res : VerificationResult)
  | commitStarted (res : VerificationResult)
  | inCommit (res : VerificationResult)
  | buildingResult (res : VerificationResult)
  | finishing (result : VerificationTaskResult)
  | settingCommitError (exc : Exc)
  | markingUncertain
  | closing
  | exited
  deriving DecidableEq, Repr

inductive SupervisorPc
  | persistingRunning
  | acquiringSlot
  | startingRunner
  | joining
  | checkingAlive
  | checkingState
  | finishingFailed
  | deciding
  | readingCommitError
  | fencing (reason : String)
  | persistingUnknown (reason : String)
  | persistingFinish (result : VerificationTaskResult)
  | raising (exc : Exc)
  | persistingWorkerError (result : VerificationTaskResult)
  | deletingPending (result : VerificationTaskResult)
  | recording (result : VerificationTaskResult)
  | recorded
  deriving DecidableEq, Repr

structure Execution where
  clock : Nat
  startedAt : Nat
  permission : CommitPermission
  supervisor : SupervisorPc
  runner : RunnerPc
  commitError : Option String
  row : Option LedgerRow
  uncertainAgent : Option String
  outcome : Option VerificationTaskResult
  -- history that the code does not keep
  commitPhase : CommitPhase
  decision : Option (PermissionState × Option VerificationTaskResult)
  commitAtDecision : Option CommitPhase
  deriving DecidableEq, Repr

/-! ## The outcome records -/

def completedOutcome (task : VerificationTask) (startedAt now : Nat) (res : VerificationResult) :
    VerificationTaskResult :=
  task.outcome .completed res.status "" startedAt now (some res)

def factoryFailedOutcome (task : VerificationTask) (startedAt now : Nat) (exc : Exc) :
    VerificationTaskResult :=
  task.outcome .failed "" ("service factory failed: " ++ exc.message) startedAt now none

def serviceFailedOutcome (task : VerificationTask) (startedAt now : Nat) (exc : Exc) :
    VerificationTaskResult :=
  task.outcome .failed "" exc.describe startedAt now none

def noResultOutcome (task : VerificationTask) (startedAt now : Nat) : VerificationTaskResult :=
  task.outcome .failed "" "task ended without a result (persistence/execution error)"
    startedAt now none

def timeoutOutcome (task : VerificationTask) (startedAt now : Nat) : VerificationTaskResult :=
  task.outcome .timeout "" "deadline won before service commit permission" startedAt now none

def unknownOutcome (task : VerificationTask) (startedAt now : Nat) (error : String) :
    VerificationTaskResult :=
  task.outcome .unknown "" error startedAt now none

def workerErrorOutcome (task : VerificationTask) (now : Nat) (exc : Exc) :
    VerificationTaskResult :=
  task.outcome .failed "" ("worker error: " ++ exc.describe) 0 now none

def commitErrorText (exc : Exc) : String :=
  "service commit outcome unknown: " ++ exc.describe

/-- `str(box.get("commit_error") or …)`. -/
def unknownReason (commitError : Option String) : String :=
  commitError.getD
    "service commit outcome unknown after deadline; reconciliation required"

def finishPersistenceUnknown (exc : Exc) : String :=
  "commit confirmed but outcome persistence unknown: " ++ exc.describe

def markerPersistenceFailed (reason : String) (exc : Exc) : String :=
  reason ++ "; unknown marker persistence failed: " ++ exc.describe ++
    "; original running row retained as restart fence"

def LedgerRow.finishWith (status : RowStatus) (result : VerificationTaskResult)
    (finishedAt : Nat) (row : LedgerRow) : LedgerRow :=
  row.finish status result.verificationStatus result.error
    (serializeVerificationResult result.result) finishedAt

/-- What a ledger write that raises may leave: its statement is undone, or it stays in the open
transaction and the next commit on the connection takes it along. -/
def MayWrite (write : LedgerRow → LedgerRow) (row row' : Option LedgerRow) : Prop :=
  row' = row ∨ row' = row.map write

/-- `delete … where task_id = ? and status = 'pending'`, on the task's own row. -/
def deletePendingRow (row : Option LedgerRow) : Option LedgerRow :=
  row.filter fun r => r.status ≠ .pending

/-! ## The runner -/

/-- Steps of `_execute_task`.  A raised `BaseException` passes the `except Exception` clause and
reaches `finally` directly. -/
inductive RunnerStep (task : VerificationTask) (hasCommit : Bool) : Execution → Execution → Prop
  | factoryReturns {e : Execution} (hpc : e.runner = .creatingService) :
      RunnerStep task hasCommit e { e with runner := .checkingCancelled }
  | factoryRaises {e : Execution} (exc : Exc) (now : Nat) (hpc : e.runner = .creatingService) :
      RunnerStep task hasCommit e
        { e with runner := .finishing (factoryFailedOutcome task e.startedAt now exc) }
  | factoryAborts {e : Execution} (hpc : e.runner = .creatingService) :
      RunnerStep task hasCommit e { e with runner := .closing }
  | seesCancelled {e : Execution} (hpc : e.runner = .checkingCancelled)
      (hcancelled : e.permission.cancelled = true) :
      RunnerStep task hasCommit e { e with runner := .closing }
  | callsService {e : Execution} (hpc : e.runner = .checkingCancelled)
      (hcancelled : e.permission.cancelled = false) :
      RunnerStep task hasCommit e { e with runner := .callingService task.kind.serviceMethod }
  | serviceReturns {e : Execution} {method : ServiceMethod} (res : VerificationResult)
      (hpc : e.runner = .callingService method) :
      RunnerStep task hasCommit e { e with runner := .claimingCommit res }
  | serviceRaises {e : Execution} {method : ServiceMethod} (exc : Exc) (now : Nat)
      (hpc : e.runner = .callingService method) :
      RunnerStep task hasCommit e
        { e with runner := .finishing (serviceFailedOutcome task e.startedAt now exc) }
  | serviceAborts {e : Execution} {method : ServiceMethod}
      (hpc : e.runner = .callingService method) :
      RunnerStep task hasCommit e { e with runner := .closing }
  | claimGranted {e : Execution} {res : VerificationResult} {p : CommitPermission}
      (hpc : e.runner = .claimingCommit res)
      (hclaim : e.permission.claimCommit e.clock = (true, p)) :
      RunnerStep task hasCommit e { e with permission := p, runner := .commitStarted res }
  | claimRefused {e : Execution} {res : VerificationResult} {p : CommitPermission}
      (hpc : e.runner = .claimingCommit res)
      (hclaim : e.permission.claimCommit e.clock = (false, p)) :
      RunnerStep task hasCommit e { e with permission := p, runner := .closing }
  | callsCommit {e : Execution} {res : VerificationResult} (hpc : e.runner = .commitStarted res)
      (hhas : hasCommit = true) :
      RunnerStep task hasCommit e { e with commitPhase := .started, runner := .inCommit res }
  -- `getattr(service, "commit", None)` is `None`
  | skipsCommit {e : Execution} {res : VerificationResult} (hpc : e.runner = .commitStarted res)
      (hhas : hasCommit = false) :
      RunnerStep task hasCommit e { e with runner := .buildingResult res }
  | commitReturns {e : Execution} {res : VerificationResult} (hpc : e.runner = .inCommit res) :
      RunnerStep task hasCommit e { e with commitPhase := .returned, runner := .buildingResult res }
  | commitRaises {e : Execution} {res : VerificationResult} (exc : Exc)
      (hpc : e.runner = .inCommit res) :
      RunnerStep task hasCommit e { e with commitPhase := .raised, runner := .settingCommitError exc }
  | commitAborts {e : Execution} {res : VerificationResult} (hpc : e.runner = .inCommit res) :
      RunnerStep task hasCommit e { e with commitPhase := .raised, runner := .closing }
  | resultBuilt {e : Execution} {res : VerificationResult} (now : Nat)
      (hpc : e.runner = .buildingResult res) :
      RunnerStep task hasCommit e
        { e with runner := .finishing (completedOutcome task e.startedAt now res) }
  -- an exception after `commit()` and before `finish` also counts as an unknown commit
  | resultRaises {e : Execution} {res : VerificationResult} (exc : Exc)
      (hpc : e.runner = .buildingResult res) :
      RunnerStep task hasCommit e { e with runner := .settingCommitError exc }
  | finishes {e : Execution} {result : VerificationTaskResult}
      (hpc : e.runner = .finishing result) :
      RunnerStep task hasCommit e
        { e with permission := e.permission.finish result, runner := .closing }
  | setsCommitError {e : Execution} {exc : Exc} (hpc : e.runner = .settingCommitError exc) :
      RunnerStep task hasCommit e
        { e with commitError := some (commitErrorText exc), runner := .markingUncertain }
  | marksUncertain {e : Execution} (hpc : e.runner = .markingUncertain) :
      RunnerStep task hasCommit e
        { e with permission := e.permission.uncertain, runner := .closing }
  -- `close(commit=False)` returns or its exception is dropped; the slot is released
  | exits {e : Execution} (hpc : e.runner = .closing) :
      RunnerStep task hasCommit e { e with runner := .exited }

/-! ## The supervisor -/

/-- Steps of `_run_task_with_timeout`, of `_unknown_outcome` and of the worker loop around it.
`_persist_unknown` rolls back when it raises. -/
inductive SupervisorStep (task : VerificationTask) : Execution → Execution → Prop
  | runningPersisted {e : Execution} (hpc : e.supervisor = .persistingRunning) :
      SupervisorStep task e
        { e with row := e.row.map (LedgerRow.markRunning e.startedAt), supervisor := .acquiringSlot }
  | runningRaises {e : Execution} {row' : Option LedgerRow} (exc : Exc)
      (hpc : e.supervisor = .persistingRunning)
      (hrow : MayWrite (LedgerRow.markRunning e.startedAt) e.row row') :
      SupervisorStep task e { e with row := row', supervisor := .raising exc }
  | slotAcquired {e : Execution} (hpc : e.supervisor = .acquiringSlot) :
      SupervisorStep task e { e with supervisor := .startingRunner }
  | slotTimesOut {e : Execution} (hpc : e.supervisor = .acquiringSlot)
      (hlate : e.permission.deadline ≤ e.clock) :
      SupervisorStep task e { e with supervisor := .deciding }
  | runnerStarts {e : Execution} (hpc : e.supervisor = .startingRunner) :
      SupervisorStep task e { e with runner := .creatingService, supervisor := .joining }
  | startRaises {e : Execution} (exc : Exc) (hpc : e.supervisor = .startingRunner) :
      SupervisorStep task e { e with supervisor := .raising exc }
  | joinReturns {e : Execution} (hpc : e.supervisor = .joining)
      (hdone : e.runner = .exited ∨ e.permission.deadline ≤ e.clock) :
      SupervisorStep task e { e with supervisor := .checkingAlive }
  | runnerAlive {e : Execution} (hpc : e.supervisor = .checkingAlive) (hrunner : e.runner ≠ .exited) :
      SupervisorStep task e { e with supervisor := .deciding }
  | runnerDead {e : Execution} (hpc : e.supervisor = .checkingAlive) (hrunner : e.runner = .exited) :
      SupervisorStep task e { e with supervisor := .checkingState }
  | stateRunning {e : Execution} (hpc : e.supervisor = .checkingState)
      (hstate : e.permission.state = .running) :
      SupervisorStep task e { e with supervisor := .finishingFailed }
  | stateOther {e : Execution} (hpc : e.supervisor = .checkingState)
      (hstate : e.permission.state ≠ .running) :
      SupervisorStep task e { e with supervisor := .deciding }
  | finishesFailed {e : Execution} (now : Nat) (hpc : e.supervisor = .finishingFailed) :
      SupervisorStep task e
        { e with
          permission := e.permission.finish (noResultOutcome task e.startedAt now)
          supervisor := .deciding }
  | decidesUnknown {e : Execution} {res : Option VerificationTaskResult} {p : CommitPermission}
      (hpc : e.supervisor = .deciding)
      (hdecide : e.permission.decideDeadline = ((.unknown, res), p)) :
      SupervisorStep task e
        { e with
          permission := p
          supervisor := .readingCommitError
          decision := some (.unknown, res)
          commitAtDecision := some e.commitPhase }
  | decides {e : Execution} {state : PermissionState} {res : Option VerificationTaskResult}
      {p : CommitPermission} (now : Nat) (hpc : e.supervisor = .deciding)
      (hdecide : e.permission.decideDeadline = ((state, res), p)) (hstate : state ≠ .unknown) :
      SupervisorStep task e
        { e with
          permission := p
          supervisor := .persistingFinish (res.getD (timeoutOutcome task e.startedAt now))
          decision := some (state, res)
          commitAtDecision := some e.commitPhase }
  | readsCommitError {e : Execution} (hpc : e.supervisor = .readingCommitError) :
      SupervisorStep task e { e with supervisor := .fencing (unknownReason e.commitError) }
  -- `_uncertain_agents.setdefault(agent, task_id)`
  | fences {e : Execution} {reason : String} (hpc : e.supervisor = .fencing reason) :
      SupervisorStep task e
        { e with
          uncertainAgent := some (e.uncertainAgent.getD task.taskId)
          supervisor := .persistingUnknown reason }
  | unknownPersisted {e : Execution} {reason : String} (finishedAt now : Nat)
      (hpc : e.supervisor = .persistingUnknown reason) :
      SupervisorStep task e
        { e with
          row := e.row.map (LedgerRow.markUnknown reason finishedAt)
          supervisor := .recording (unknownOutcome task e.startedAt now reason) }
  | unknownRaises {e : Execution} {reason : String} (exc : Exc) (now : Nat)
      (hpc : e.supervisor = .persistingUnknown reason) :
      SupervisorStep task e
        { e with
          supervisor :=
            .recording (unknownOutcome task e.startedAt now (markerPersistenceFailed reason exc)) }
  | finishPersisted {e : Execution} {result : VerificationTaskResult} {status : RowStatus}
      (finishedAt : Nat) (hpc : e.supervisor = .persistingFinish result)
      (hstatus : result.status.rowStatus? = some status) :
      SupervisorStep task e
        { e with
          row := e.row.map (LedgerRow.finishWith status result finishedAt)
          supervisor := .recording result }
  | finishRaisesCompleted {e : Execution} {result : VerificationTaskResult} {status : RowStatus}
      {row' : Option LedgerRow} (exc : Exc) (finishedAt : Nat)
      (hpc : e.supervisor = .persistingFinish result) (hcompleted : result.status = .completed)
      (hstatus : result.status.rowStatus? = some status)
      (hrow : MayWrite (LedgerRow.finishWith status result finishedAt) e.row row') :
      SupervisorStep task e
        { e with row := row', supervisor := .fencing (finishPersistenceUnknown exc) }
  | finishRaises {e : Execution} {result : VerificationTaskResult} {status : RowStatus}
      {row' : Option LedgerRow} (exc : Exc) (finishedAt : Nat)
      (hpc : e.supervisor = .persistingFinish result) (hcompleted : result.status ≠ .completed)
      (hstatus : result.status.rowStatus? = some status)
      (hrow : MayWrite (LedgerRow.finishWith status result finishedAt) e.row row') :
      SupervisorStep task e { e with row := row', supervisor := .raising exc }
  | catches {e : Execution} {exc : Exc} (now : Nat) (hpc : e.supervisor = .raising exc) :
      SupervisorStep task e
        { e with supervisor := .persistingWorkerError (workerErrorOutcome task now exc) }
  | workerErrorPersisted {e : Execution} {result : VerificationTaskResult} {status : RowStatus}
      (finishedAt : Nat) (hpc : e.supervisor = .persistingWorkerError result)
      (hstatus : result.status.rowStatus? = some status) :
      SupervisorStep task e
        { e with
          row := e.row.map (LedgerRow.finishWith status result finishedAt)
          supervisor := .deletingPending result }
  | workerErrorRaises {e : Execution} {result : VerificationTaskResult} {status : RowStatus}
      {row' : Option LedgerRow} (finishedAt : Nat)
      (hpc : e.supervisor = .persistingWorkerError result)
      (hstatus : result.status.rowStatus? = some status)
      (hrow : MayWrite (LedgerRow.finishWith status result finishedAt) e.row row') :
      SupervisorStep task e { e with row := row', supervisor := .deletingPending result }
  | pendingDeleted {e : Execution} {result : VerificationTaskResult}
      (hpc : e.supervisor = .deletingPending result) :
      SupervisorStep task e
        { e with row := deletePendingRow e.row, supervisor := .recording result }
  | deleteRaises {e : Execution} {result : VerificationTaskResult} {row' : Option LedgerRow}
      (hpc : e.supervisor = .deletingPending result)
      (hrow : row' = e.row ∨ row' = deletePendingRow e.row) :
      SupervisorStep task e { e with row := row', supervisor := .recording result }
  | records {e : Execution} {result : VerificationTaskResult}
      (hpc : e.supervisor = .recording result) :
      SupervisorStep task e { e with outcome := some result, supervisor := .recorded }

/-! ## The two together -/

/-- Either party moves, or time passes. -/
inductive ExecutionStep (task : VerificationTask) (hasCommit : Bool) :
    Execution → Execution → Prop
  | runner {e e' : Execution} (h : RunnerStep task hasCommit e e') :
      ExecutionStep task hasCommit e e'
  | supervisor {e e' : Execution} (h : SupervisorStep task e e') :
      ExecutionStep task hasCommit e e'
  | tick {e : Execution} (clock : Nat) (hclock : e.clock ≤ clock) :
      ExecutionStep task hasCommit e { e with clock := clock }

/-- `_run_task_with_timeout` has read its two clocks and made the permission. -/
def Execution.start (config : VerificationQueueConfig) (clock startedAt : Nat)
    (row : Option LedgerRow) (uncertainAgent : Option String) : Execution :=
  { clock := clock
    startedAt := startedAt
    permission := .fresh (clock + config.taskTimeoutSeconds)
    supervisor := .persistingRunning
    runner := .notStarted
    commitError := none
    row := row
    uncertainAgent := uncertainAgent
    outcome := none
    commitPhase := .notStarted
    decision := none
    commitAtDecision := none }

def Execution.Started (config : VerificationQueueConfig) (e : Execution) : Prop :=
  ∃ clock startedAt row uncertainAgent,
    e = Execution.start config clock startedAt row uncertainAgent

end KiwiCatalog.Queue
