import KiwiCatalog.Lib.Transition
import KiwiCatalog.Queue.Execution

/-!
# Scheduler — admission, the worker loop and shutdown

The shared state of a `VerificationQueue`, one position per worker and one per call of `enqueue`.
A block under `_results_cv` is one function of the state; between two blocks any other thread may
move.  `ω` names the workers and `κ` the calls of `enqueue`, both in any number.
-/

set_option autoImplicit false

namespace KiwiCatalog.Queue

/-- What a worker does between claiming a task and handing its agent's slot on. -/
inductive Stage
  | starting
  | persistingRunning
  | supervising
  | fencing (reason : String)
  | persistingUnknown (reason : String)
  | persistingFinish (result : VerificationTaskResult)
  | raising (exc : Exc)
  | persistingWorkerError (result : VerificationTaskResult)
  | deletingPending (result : VerificationTaskResult)
  | recording (result : VerificationTaskResult)
  | releasing
  deriving DecidableEq, Repr

inductive WorkerPc
  | loopTop (handoff : Option VerificationTask)
  | checkingDrained (handoff : Option VerificationTask)
  | fetching (handoff : Option VerificationTask)
  | claiming (task : VerificationTask)
  | busy (task : VerificationTask) (fenced : Bool) (stage : Stage)
  | requeueing (next : VerificationTask)
  | exited
  deriving DecidableEq, Repr

/-- How a call of `enqueue` ends. -/
inductive EnqueueOutcome
  | returned (taskId : String)
  | shutdownError
  | valueError
  | outcomeUnknownError
  | ledgerError
  | fullError
  | keyError
  | sqliteError
  deriving DecidableEq, Repr

structure EnqueueRequest where
  catalogAgentId : String
  kind : TaskKind
  actor : String
  deriving DecidableEq, Repr

inductive CallerPc
  | idle
  | checkingBlocker (req : EnqueueRequest)
  | deduplicating (req : EnqueueRequest)
  | reusing (taskId : String)
  | registering (req : EnqueueRequest)
  | inserting (task : VerificationTask)
  | droppingUninserted (task : VerificationTask)
  | locking (task : VerificationTask)
  | deletingRefused (task : VerificationTask)
  | droppingRefused (task : VerificationTask)
  | checkingFence (task : VerificationTask)
  | putting (task : VerificationTask)
  | deletingOverflow (task : VerificationTask)
  | droppingOverflow (task : VerificationTask)
  | finished (outcome : EnqueueOutcome)
  deriving DecidableEq, Repr

structure Scheduler (ω κ : Type) where
  tasks : List VerificationTask
  results : String → Option VerificationTaskResult
  pending : List VerificationTask
  maxsize : Nat
  agentRunning : String → Bool
  agentDeferred : String → List VerificationTask
  agentPreclaimed : String → Option VerificationTask
  uncertainAgents : String → Option String
  shutdown : Bool
  enqueueLock : Option κ
  ledger : Ledger
  dbOpen : Bool
  finishCount : Nat
  worker : ω → WorkerPc
  caller : κ → CallerPc
  -- history that the code does not keep
  usedIds : List String
  admitted : List VerificationTask
  executed : List VerificationTask
  recorded : List String

def queuedBlockedReason : String :=
  "queued task blocked by same-agent unknown outcome; reconciliation required"

def admissionBlockedReason : String :=
  "admission blocked by same-agent unknown outcome; reconciliation required"

variable {ω κ : Type} [DecidableEq ω] [DecidableEq κ]

namespace Scheduler

def setWorker (s : Scheduler ω κ) (w : ω) (pc : WorkerPc) : Scheduler ω κ :=
  { s with worker := Function.update s.worker w pc }

def setCaller (s : Scheduler ω κ) (c : κ) (pc : CallerPc) : Scheduler ω κ :=
  { s with caller := Function.update s.caller c pc }

def isUncertain (s : Scheduler ω κ) (agent : String) : Bool :=
  (s.uncertainAgents agent).isSome

/-- A ledger write on the queue's own connection, which may be absent. -/
def write (s : Scheduler ω κ) (f : Ledger → Ledger) : Ledger :=
  if s.dbOpen then f s.ledger else s.ledger

/-- `_uncertain_agents.setdefault(agent, task_id)`. -/
def fenceAgent (uncertainAgents : String → Option String) (task : VerificationTask) :
    String → Option String :=
  Function.update uncertainAgents task.catalogAgentId
    (some ((uncertainAgents task.catalogAgentId).getD task.taskId))

/-- `_results[task_id] = result`. -/
def storeResult (s : Scheduler ω κ) (taskId : String) (result : VerificationTaskResult) :
    Scheduler ω κ :=
  { s with
    results := Function.update s.results taskId (some result)
    recorded := taskId :: s.recorded }

/-- `_tasks.pop(task_id, None)`. -/
def popTask (s : Scheduler ω κ) (taskId : String) : Scheduler ω κ :=
  { s with tasks := s.tasks.filter fun t => t.taskId ≠ taskId }

/-- `_admitted_drained`. -/
def admittedDrained (s : Scheduler ω κ) : Bool :=
  s.tasks.all fun t => (s.results t.taskId).isSome

/-- The block after a dequeue: defer behind the agent's running task, or take the slot. -/
def claim (s : Scheduler ω κ) (w : ω) (task : VerificationTask) : Scheduler ω κ :=
  let agent := task.catalogAgentId
  let preclaimed : Bool := s.agentPreclaimed agent = some task
  let agentPreclaimed :=
    if preclaimed then Function.update s.agentPreclaimed agent none else s.agentPreclaimed
  let uncertain := s.isUncertain agent
  if s.agentRunning agent && !preclaimed && !uncertain then
    { s with
      agentPreclaimed := agentPreclaimed
      agentDeferred := Function.update s.agentDeferred agent (s.agentDeferred agent ++ [task])
      worker := Function.update s.worker w (.loopTop none) }
  else
    { s with
      agentPreclaimed := agentPreclaimed
      agentRunning :=
        if preclaimed then s.agentRunning else Function.update s.agentRunning agent true
      worker := Function.update s.worker w
        (.busy task uncertain (if uncertain then .fencing queuedBlockedReason else .starting)) }

/-- The block after a result: free the slot, or hand it to the first deferred task. -/
def release (s : Scheduler ω κ) (w : ω) (agent : String) : Scheduler ω κ :=
  match s.agentDeferred agent with
  | [] =>
    { s with
      agentRunning := Function.update s.agentRunning agent false
      worker := Function.update s.worker w (.loopTop none) }
  | next :: waiting =>
    { s with
      agentRunning := Function.update s.agentRunning agent true
      agentPreclaimed := Function.update s.agentPreclaimed agent (some next)
      agentDeferred := Function.update s.agentDeferred agent waiting
      worker := Function.update s.worker w (.requeueing next) }

/-- The de-duplication scan of `enqueue`. -/
def existingId (s : Scheduler ω κ) (req : EnqueueRequest) : Option String :=
  (s.tasks.find? fun t =>
    t.catalogAgentId = req.catalogAgentId && t.kind = req.kind &&
      (s.results t.taskId).isNone).map VerificationTask.taskId

end Scheduler

/-! ## The ledger writes of a busy worker -/

def cleanupPeriod : Nat := 256

def cleanupAgeSeconds : Nat := 7 * 86400

/-- `_persist_finish` up to its commit: every 256th call also drops old terminal rows, and an
error there is ignored. -/
inductive FinishWrite (taskId : String) (result : VerificationTaskResult) (now : Nat) :
    Ledger → Nat → Ledger → Nat → Prop
  | plain {ledger : Ledger} {count : Nat} {status : RowStatus}
      (hstatus : result.status.rowStatus? = some status) :
      FinishWrite taskId result now ledger count
        (finishTask ledger taskId status result.verificationStatus result.error
          (serializeVerificationResult result.result) now) (count + 1)
  | cleaning {ledger : Ledger} {count : Nat} {status : RowStatus}
      (hstatus : result.status.rowStatus? = some status)
      (hperiod : (count + 1) % cleanupPeriod = 0) :
      FinishWrite taskId result now ledger count
        (cleanupTerminalTasks
          (finishTask ledger taskId status result.verificationStatus result.error
            (serializeVerificationResult result.result) now) (now - cleanupAgeSeconds))
        (count + 1)

/-- The part of the shared state that a busy worker reads and writes. -/
structure Shared where
  ledger : Ledger
  finishCount : Nat
  uncertainAgents : String → Option String

/-- Moves of a worker inside `_run_task_with_timeout`, `_unknown_outcome` and the handler around
them.  The supervised run itself is one move from `supervising`: it ends in a result, in an
unknown outcome or in an exception. -/
inductive StageStep (task : VerificationTask) : Shared → Stage → Shared → Stage → Prop
  | runningPersisted {sh : Shared} (startedAt : Nat) :
      StageStep task sh .persistingRunning
        { sh with ledger := markTaskRunning sh.ledger task.taskId startedAt } .supervising
  | runningRaises {sh : Shared} (startedAt : Nat) (exc : Exc) :
      StageStep task sh .persistingRunning
        { sh with ledger := markTaskRunning sh.ledger task.taskId startedAt } (.raising exc)
  | runningUndone {sh : Shared} (exc : Exc) :
      StageStep task sh .persistingRunning sh (.raising exc)
  | superviseRaises {sh : Shared} (exc : Exc) :
      StageStep task sh .supervising sh (.raising exc)
  | decidesUnknown {sh : Shared} (reason : String) :
      StageStep task sh .supervising sh (.fencing reason)
  | decides {sh : Shared} (result : VerificationTaskResult) (hid : result.taskId = task.taskId)
      (hstatus : result.status ≠ .unknown) :
      StageStep task sh .supervising sh (.persistingFinish result)
  | fences {sh : Shared} {reason : String} :
      StageStep task sh (.fencing reason)
        { sh with uncertainAgents := Scheduler.fenceAgent sh.uncertainAgents task }
        (.persistingUnknown reason)
  | unknownPersisted {sh : Shared} {reason : String} (startedAt finishedAt now : Nat) :
      StageStep task sh (.persistingUnknown reason)
        { sh with ledger := markTaskUnknown sh.ledger task.taskId reason finishedAt }
        (.recording (unknownOutcome task startedAt now reason))
  | unknownRaises {sh : Shared} {reason : String} (startedAt now : Nat) (exc : Exc) :
      StageStep task sh (.persistingUnknown reason) sh
        (.recording (unknownOutcome task startedAt now (markerPersistenceFailed reason exc)))
  | finishPersisted {sh : Shared} {result : VerificationTaskResult} {ledger : Ledger} {count : Nat}
      (now : Nat)
      (hwrite : FinishWrite task.taskId result now sh.ledger sh.finishCount ledger count) :
      StageStep task sh (.persistingFinish result)
        { sh with ledger := ledger, finishCount := count } (.recording result)
  | finishRaisesCompleted {sh sh' : Shared} {result : VerificationTaskResult} (exc : Exc)
      (hcompleted : result.status = .completed)
      (hwrite : sh' = sh ∨ ∃ ledger count now,
        FinishWrite task.taskId result now sh.ledger sh.finishCount ledger count ∧
          sh' = { sh with ledger := ledger, finishCount := count }) :
      StageStep task sh (.persistingFinish result) sh' (.fencing (finishPersistenceUnknown exc))
  | finishRaises {sh sh' : Shared} {result : VerificationTaskResult} (exc : Exc)
      (hcompleted : result.status ≠ .completed)
      (hwrite : sh' = sh ∨ ∃ ledger count now,
        FinishWrite task.taskId result now sh.ledger sh.finishCount ledger count ∧
          sh' = { sh with ledger := ledger, finishCount := count }) :
      StageStep task sh (.persistingFinish result) sh' (.raising exc)
  | catches {sh : Shared} {exc : Exc} (now : Nat) :
      StageStep task sh (.raising exc) sh
        (.persistingWorkerError (workerErrorOutcome task now exc))
  | workerErrorWritten {sh sh' : Shared} {result : VerificationTaskResult}
      (hwrite : sh' = sh ∨ ∃ ledger count now,
        FinishWrite task.taskId result now sh.ledger sh.finishCount ledger count ∧
          sh' = { sh with ledger := ledger, finishCount := count }) :
      StageStep task sh (.persistingWorkerError result) sh' (.deletingPending result)
  | pendingDeleted {sh : Shared} {result : VerificationTaskResult} :
      StageStep task sh (.deletingPending result)
        { sh with ledger := deletePendingTask sh.ledger task.taskId } (.recording result)
  | deleteRaises {sh : Shared} {result : VerificationTaskResult} :
      StageStep task sh (.deletingPending result) sh (.recording result)

namespace Scheduler

def shared (s : Scheduler ω κ) : Shared :=
  { ledger := s.ledger, finishCount := s.finishCount, uncertainAgents := s.uncertainAgents }

/-- Without a connection the persistence helpers return at once. -/
def setShared (s : Scheduler ω κ) (sh : Shared) : Scheduler ω κ :=
  { s with
    ledger := if s.dbOpen then sh.ledger else s.ledger
    finishCount := if s.dbOpen then sh.finishCount else s.finishCount
    uncertainAgents := sh.uncertainAgents }

end Scheduler

/-! ## The steps -/

/-- Steps of a worker outside the supervised run. -/
inductive WorkerStep (w : ω) : Scheduler ω κ → Scheduler ω κ → Prop
  | seesOpen {s : Scheduler ω κ} {handoff : Option VerificationTask}
      (hpc : s.worker w = .loopTop handoff) (hopen : s.shutdown = false) :
      WorkerStep w s (s.setWorker w (.fetching handoff))
  | seesShutdown {s : Scheduler ω κ} {handoff : Option VerificationTask}
      (hpc : s.worker w = .loopTop handoff) (hshut : s.shutdown = true) :
      WorkerStep w s (s.setWorker w (.checkingDrained handoff))
  | exits {s : Scheduler ω κ} {handoff : Option VerificationTask}
      (hpc : s.worker w = .checkingDrained handoff) (hdrained : s.admittedDrained = true) :
      WorkerStep w s (s.setWorker w .exited)
  | goesOn {s : Scheduler ω κ} {handoff : Option VerificationTask}
      (hpc : s.worker w = .checkingDrained handoff) (hdrained : s.admittedDrained = false) :
      WorkerStep w s (s.setWorker w (.fetching handoff))
  | takesHandoff {s : Scheduler ω κ} {task : VerificationTask}
      (hpc : s.worker w = .fetching (some task)) :
      WorkerStep w s (s.setWorker w (.claiming task))
  | dequeues {s : Scheduler ω κ} {task : VerificationTask} {rest : List VerificationTask}
      (hpc : s.worker w = .fetching none) (hpending : s.pending = task :: rest) :
      WorkerStep w s { s.setWorker w (.claiming task) with pending := rest }
  | findsEmpty {s : Scheduler ω κ} (hpc : s.worker w = .fetching none)
      (hpending : s.pending = []) :
      WorkerStep w s (s.setWorker w (.loopTop none))
  | claims {s : Scheduler ω κ} {task : VerificationTask} (hpc : s.worker w = .claiming task) :
      WorkerStep w s (s.claim w task)
  -- the call of `_run_task_with_timeout`
  | runs {s : Scheduler ω κ} {task : VerificationTask} {fenced : Bool}
      (hpc : s.worker w = .busy task fenced .starting) :
      WorkerStep w s
        { s.setWorker w (.busy task fenced .persistingRunning) with
          executed := task :: s.executed }
  | works {s : Scheduler ω κ} {task : VerificationTask} {fenced : Bool} {stage stage' : Stage}
      {sh : Shared} (hpc : s.worker w = .busy task fenced stage)
      (hstage : StageStep task s.shared stage sh stage') :
      WorkerStep w s ((s.setShared sh).setWorker w (.busy task fenced stage'))
  | records {s : Scheduler ω κ} {task : VerificationTask} {fenced : Bool}
      {result : VerificationTaskResult} (hpc : s.worker w = .busy task fenced (.recording result)) :
      WorkerStep w s
        ((s.storeResult task.taskId result).setWorker w (.busy task fenced .releasing))
  | releases {s : Scheduler ω κ} {task : VerificationTask} {fenced : Bool}
      (hpc : s.worker w = .busy task fenced .releasing) :
      WorkerStep w s (s.release w task.catalogAgentId)
  | requeues {s : Scheduler ω κ} {next : VerificationTask} (hpc : s.worker w = .requeueing next)
      (hroom : s.pending.length < s.maxsize) :
      WorkerStep w s { s.setWorker w (.loopTop none) with pending := s.pending ++ [next] }
  -- `queue.Full`: the worker carries the task itself
  | carries {s : Scheduler ω κ} {next : VerificationTask} (hpc : s.worker w = .requeueing next)
      (hfull : s.maxsize ≤ s.pending.length) :
      WorkerStep w s (s.setWorker w (.loopTop (some next)))

/-- Steps of one call of `enqueue`. -/
inductive CallerStep (c : κ) : Scheduler ω κ → Scheduler ω κ → Prop
  | refusedAtOnce {s : Scheduler ω κ} (hpc : s.caller c = .idle) (hshut : s.shutdown = true) :
      CallerStep c s (s.setCaller c (.finished .shutdownError))
  | unknownKind {s : Scheduler ω κ} (kind : String) (hpc : s.caller c = .idle)
      (hopen : s.shutdown = false) (hkind : TaskKind.ofString? kind = none) :
      CallerStep c s (s.setCaller c (.finished .valueError))
  | called {s : Scheduler ω κ} {kind : TaskKind} (agent kindText actor : String)
      (hpc : s.caller c = .idle) (hopen : s.shutdown = false)
      (hkind : TaskKind.ofString? kindText = some kind) :
      CallerStep c s (s.setCaller c (.checkingBlocker ⟨agent, kind, actor⟩))
  | blocked {s : Scheduler ω κ} {req : EnqueueRequest} (hpc : s.caller c = .checkingBlocker req)
      (hfence : s.isUncertain req.catalogAgentId = true) :
      CallerStep c s (s.setCaller c (.finished .outcomeUnknownError))
  | unblocked {s : Scheduler ω κ} {req : EnqueueRequest} (hpc : s.caller c = .checkingBlocker req)
      (hfence : s.isUncertain req.catalogAgentId = false) :
      CallerStep c s (s.setCaller c (.deduplicating req))
  | findsExisting {s : Scheduler ω κ} {req : EnqueueRequest} {taskId : String}
      (hpc : s.caller c = .deduplicating req) (hfound : s.existingId req = some taskId) :
      CallerStep c s (s.setCaller c (.reusing taskId))
  | reuses {s : Scheduler ω κ} {taskId : String} (hpc : s.caller c = .reusing taskId)
      (hmem : s.tasks.any (fun t => t.taskId = taskId) = true) :
      CallerStep c s (s.setCaller c (.finished (.returned taskId)))
  -- `self._tasks[existing_id]` after the other caller popped it
  | reuseMisses {s : Scheduler ω κ} {taskId : String} (hpc : s.caller c = .reusing taskId)
      (hmem : s.tasks.any (fun t => t.taskId = taskId) = false) :
      CallerStep c s (s.setCaller c (.finished .keyError))
  | findsNone {s : Scheduler ω κ} {req : EnqueueRequest}
      (hpc : s.caller c = .deduplicating req) (hfound : s.existingId req = none) :
      CallerStep c s (s.setCaller c (.registering req))
  -- the sequence number and the random suffix make the id a new one
  | registers {s : Scheduler ω κ} {req : EnqueueRequest} (taskId : String) (now : Nat)
      (hpc : s.caller c = .registering req) (hfresh : taskId ∉ s.usedIds) :
      CallerStep c s
        { s.setCaller c (.inserting ⟨req.catalogAgentId, taskId, req.kind, req.actor, now⟩) with
          tasks := s.tasks ++ [⟨req.catalogAgentId, taskId, req.kind, req.actor, now⟩]
          usedIds := taskId :: s.usedIds }
  | inserted {s : Scheduler ω κ} {task : VerificationTask} {ledger : Ledger}
      (hpc : s.caller c = .inserting task) (hdb : s.dbOpen = true)
      (hinsert : insertPendingTask s.ledger task = some ledger) :
      CallerStep c s { s.setCaller c (.locking task) with ledger := ledger }
  | insertSkipped {s : Scheduler ω κ} {task : VerificationTask}
      (hpc : s.caller c = .inserting task) (hdb : s.dbOpen = false) :
      CallerStep c s (s.setCaller c (.locking task))
  | insertRaises {s : Scheduler ω κ} {task : VerificationTask} {ledger : Ledger}
      (hpc : s.caller c = .inserting task) (hdb : s.dbOpen = true)
      (hwrite : ledger = s.ledger ∨ insertPendingTask s.ledger task = some ledger) :
      CallerStep c s { s.setCaller c (.droppingUninserted task) with ledger := ledger }
  | dropsUninserted {s : Scheduler ω κ} {task : VerificationTask}
      (hpc : s.caller c = .droppingUninserted task) :
      CallerStep c s ((s.popTask task.taskId).setCaller c (.finished .ledgerError))
  | locksOpen {s : Scheduler ω κ} {task : VerificationTask} (hpc : s.caller c = .locking task)
      (hfree : s.enqueueLock = none) (hopen : s.shutdown = false) :
      CallerStep c s { s.setCaller c (.checkingFence task) with enqueueLock := some c }
  | locksShut {s : Scheduler ω κ} {task : VerificationTask} (hpc : s.caller c = .locking task)
      (hfree : s.enqueueLock = none) (hshut : s.shutdown = true) :
      CallerStep c s { s.setCaller c (.deletingRefused task) with enqueueLock := some c }
  | deletesRefused {s : Scheduler ω κ} {task : VerificationTask}
      (hpc : s.caller c = .deletingRefused task) :
      CallerStep c s
        { s.setCaller c (.droppingRefused task) with
          ledger := s.write fun l => deleteTask l task.taskId }
  | deleteRefusedRaises {s : Scheduler ω κ} {task : VerificationTask} {ledger : Ledger}
      (hpc : s.caller c = .deletingRefused task) (hdb : s.dbOpen = true)
      (hwrite : ledger = s.ledger ∨ ledger = deleteTask s.ledger task.taskId) :
      CallerStep c s
        { s.setCaller c (.finished .sqliteError) with ledger := ledger, enqueueLock := none }
  | dropsRefused {s : Scheduler ω κ} {task : VerificationTask}
      (hpc : s.caller c = .droppingRefused task) :
      CallerStep c s
        { (s.popTask task.taskId).setCaller c (.finished .shutdownError) with enqueueLock := none }
  | admissionBlocked {s : Scheduler ω κ} {task : VerificationTask} (finishedAt now : Nat)
      (hpc : s.caller c = .checkingFence task)
      (hfence : s.isUncertain task.catalogAgentId = true) :
      CallerStep c s
        { (s.storeResult task.taskId
            (unknownOutcome task 0 now admissionBlockedReason)).setCaller c
              (.finished .outcomeUnknownError) with
          ledger := s.write fun l =>
            markTaskUnknown l task.taskId admissionBlockedReason finishedAt
          uncertainAgents := Scheduler.fenceAgent s.uncertainAgents task
          enqueueLock := none }
  | admissionBlockedUnmarked {s : Scheduler ω κ} {task : VerificationTask} (now : Nat) (exc : Exc)
      (hpc : s.caller c = .checkingFence task)
      (hfence : s.isUncertain task.catalogAgentId = true) :
      CallerStep c s
        { (s.storeResult task.taskId
            (unknownOutcome task 0 now
              (markerPersistenceFailed admissionBlockedReason exc))).setCaller c
              (.finished .outcomeUnknownError) with
          uncertainAgents := Scheduler.fenceAgent s.uncertainAgents task
          enqueueLock := none }
  | passesFence {s : Scheduler ω κ} {task : VerificationTask}
      (hpc : s.caller c = .checkingFence task)
      (hfence : s.isUncertain task.catalogAgentId = false) :
      CallerStep c s (s.setCaller c (.putting task))
  | puts {s : Scheduler ω κ} {task : VerificationTask} (hpc : s.caller c = .putting task)
      (hroom : s.pending.length < s.maxsize) :
      CallerStep c s
        { s.setCaller c (.finished (.returned task.taskId)) with
          pending := s.pending ++ [task]
          enqueueLock := none
          admitted := s.admitted ++ [task] }
  | overflows {s : Scheduler ω κ} {task : VerificationTask} (hpc : s.caller c = .putting task)
      (hfull : s.maxsize ≤ s.pending.length) :
      CallerStep c s { s.setCaller c (.deletingOverflow task) with enqueueLock := none }
  | deletesOverflow {s : Scheduler ω κ} {task : VerificationTask}
      (hpc : s.caller c = .deletingOverflow task) :
      CallerStep c s
        { s.setCaller c (.droppingOverflow task) with
          ledger := s.write fun l => deleteTask l task.taskId }
  | deleteOverflowRaises {s : Scheduler ω κ} {task : VerificationTask} {ledger : Ledger}
      (hpc : s.caller c = .deletingOverflow task) (hdb : s.dbOpen = true)
      (hwrite : ledger = s.ledger ∨ ledger = deleteTask s.ledger task.taskId) :
      CallerStep c s { s.setCaller c (.finished .sqliteError) with ledger := ledger }
  | dropsOverflow {s : Scheduler ω κ} {task : VerificationTask}
      (hpc : s.caller c = .droppingOverflow task) :
      CallerStep c s ((s.popTask task.taskId).setCaller c (.finished .fullError))

/-- Any worker, any call of `enqueue`, or `shutdown` moves. -/
inductive SchedulerStep : Scheduler ω κ → Scheduler ω κ → Prop
  | worker {s s' : Scheduler ω κ} (w : ω) (h : WorkerStep w s s') : SchedulerStep s s'
  | caller {s s' : Scheduler ω κ} (c : κ) (h : CallerStep c s s') : SchedulerStep s s'
  | shutsDown {s : Scheduler ω κ} (hfree : s.enqueueLock = none) :
      SchedulerStep s { s with shutdown := true }
  -- the end of `shutdown(wait=True)`, after it has joined the workers
  | closesLedger {s : Scheduler ω κ} (hshut : s.shutdown = true)
      (hjoined : ∀ w, s.worker w = .exited) (hfree : s.enqueueLock = none) :
      SchedulerStep s { s with dbOpen := false }

/-! ## Construction -/

def LedgerRow.task (row : LedgerRow) : VerificationTask :=
  { catalogAgentId := row.catalogAgentId
    taskId := row.taskId
    kind := row.kind
    actor := row.actor
    enqueuedAt := row.enqueuedAt }

def recoveredReason : String :=
  "recovered running outcome or same-agent outcome unknown; reconciliation required"

/-- The open rows, each read again in full under its id. -/
def recoveredRows (ledger : Ledger) : List LedgerRow :=
  (loadPendingTasks ledger).filterMap fun row => fetchTaskRow ledger row.taskId

/-- The agents of the old running rows, each with its last such row. -/
def recoveredUncertain (rows : List LedgerRow) : String → Option String :=
  rows.foldl
    (fun uncertain row =>
      if row.status = .running then
        Function.update uncertain row.catalogAgentId (some row.taskId)
      else uncertain)
    fun _ => none

/-- How `_persist_unknown` and the clock answer for each recovered row. -/
structure RecoveryEnv where
  markerFails : String → Option Exc
  finishedAt : String → Nat
  now : String → Nat

def recoveredOutcome (env : RecoveryEnv) (row : LedgerRow) : VerificationTaskResult :=
  unknownOutcome row.task row.startedAt (env.now row.taskId)
    (match env.markerFails row.taskId with
      | none => recoveredReason
      | some exc => markerPersistenceFailed recoveredReason exc)

def markRecovered (env : RecoveryEnv) (ledger : Ledger) (row : LedgerRow) : Ledger :=
  match env.markerFails row.taskId with
  | none => markTaskUnknown ledger row.taskId recoveredReason (env.finishedAt row.taskId)
  | some _ => ledger

namespace Scheduler

/-- `__init__` with `_recover_pending_tasks`.  The rows of fenced agents get their outcome here and
the others are queued in `enqueued_at` order. -/
def construct (config : VerificationQueueConfig) (ledger : Ledger) (dbOpen : Bool)
    (env : RecoveryEnv) (usedIds : List String) : Scheduler ω κ :=
  let rows := if dbOpen then recoveredRows ledger else []
  let uncertain := recoveredUncertain rows
  let fenced := rows.filter fun row => (uncertain row.catalogAgentId).isSome
  let recovered :=
    (rows.filter fun row => (uncertain row.catalogAgentId).isNone).map LedgerRow.task
  { tasks := rows.map LedgerRow.task
    results := fun taskId =>
      (fenced.find? fun row => row.taskId = taskId).map (recoveredOutcome env)
    pending := recovered
    maxsize := max config.maxPending (recovered.length + 1)
    agentRunning := fun _ => false
    agentDeferred := fun _ => []
    agentPreclaimed := fun _ => none
    uncertainAgents := uncertain
    shutdown := false
    enqueueLock := none
    ledger := fenced.foldl (markRecovered env) ledger
    dbOpen := dbOpen
    finishCount := 0
    worker := fun _ => .loopTop none
    caller := fun _ => .idle
    usedIds := usedIds
    admitted := recovered
    executed := []
    recorded := fenced.map LedgerRow.taskId }

/-- A queue just constructed over a ledger whose primary key holds, with every id on the ledger
counted as used. -/
def Constructed (s : Scheduler ω κ) : Prop :=
  ∃ config ledger dbOpen env usedIds,
    Table.KeyUnique LedgerRow.taskId ledger ∧ (∀ row ∈ ledger, row.taskId ∈ usedIds) ∧
      s = construct config ledger dbOpen env usedIds

end Scheduler

end KiwiCatalog.Queue
