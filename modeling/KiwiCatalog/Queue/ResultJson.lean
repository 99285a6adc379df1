import KiwiCatalog.Discovery.IdentityEvidence

/-!
# ResultJson — the `result_json` of the queue's ledger

The document of a result, its stages with their evidence, and what is rebuilt from it.  Every stage
that has evidence has first written it into a row of its own.
-/

set_option autoImplicit false

namespace KiwiCatalog.Queue.Serialization

open Discovery
open Discovery.Ucp (isTruthy strOr)
open Url (Text)

/-! ## 1. Results -/

structure StageResult where
  stage : Text
  outcome : Text
  targetStatus : Text
  reason : Text
  -- a row id or `None`
  verificationId : Json
  snapshotIds : List Int
  -- a payload or `None`
  evidence : Json

structure VerificationResult where
  catalogAgentId : Text
  previousStatus : Text
  status : Text
  stages : List StageResult

def evidencePayload (evidence : VerificationEvidence) (policy : EvidencePolicy) : Json :=
  .object
    [("verification_type", .text evidence.verificationType.toList),
      ("result", .text evidence.result.toList), ("reason", .text evidence.reason.toList),
      ("trust_policy_version", .int policy.policyVersion), ("details", .object evidence.details)]

/-! ## 2. Writing -/

def stageFields (stage : StageResult) : Fields :=
  [("stage", .text stage.stage), ("outcome", .text stage.outcome),
    ("target_status", .text stage.targetStatus), ("reason", .text stage.reason),
    ("verification_id", stage.verificationId),
    ("snapshot_ids", .array (stage.snapshotIds.map .int)), ("evidence", stage.evidence)]

def resultFields (result : VerificationResult) : Fields :=
  [("catalog_agent_id", .text result.catalogAgentId),
    ("previous_status", .text result.previousStatus), ("status", .text result.status),
    ("stages", .array (result.stages.map fun stage => .object (stageFields stage)))]

/-- The text of an empty object. -/
def emptyJson : Text := ['\x7b', '\x7d']

def serializeVerificationResult : Option VerificationResult → Except Json.EncodeError Text
  | none => .ok emptyJson
  | some result => Json.encode (.object (resultFields result))

/-! ## 3. Reading -/

inductive ReadError
  | attributeError
  | typeError
  | valueError
  deriving DecidableEq

/-- `int(value)`; of what is no integer it is a parameter. -/
def intOf (otherInt : Json → Except ReadError Int) : Json → Except ReadError Int
  | .int i => .ok i
  | v => otherInt v

/-- `value or []`. -/
def orEmpty (value : Json) : Json := if isTruthy value then value else .array []

/-- What a loop over a value runs through. -/
def elementsOf : Json → Except ReadError (List Json)
  | .array items => .ok items
  | .text s => .ok (s.map fun c => .text [c])
  | .object fields => .ok (fields.map fun entry => .text entry.1.toList)
  | _ => .error .typeError

def readInts (otherInt : Json → Except ReadError Int) : List Json → Except ReadError (List Int)
  | [] => .ok []
  | v :: rest => do
    let i ← intOf otherInt v
    let more ← readInts otherInt rest
    pure (i :: more)

def readStage (lib : Library) (otherInt : Json → Except ReadError Int) :
    Json → Except ReadError StageResult
  | .object s => do
    let ids ← elementsOf (orEmpty (Json.get "snapshot_ids" s))
    let snapshotIds ← readInts otherInt ids
    pure
      { stage := textColumn lib "stage" s
        outcome := textColumn lib "outcome" s
        targetStatus := textColumn lib "target_status" s
        reason := strOr lib (Json.get "reason" s) []
        verificationId := Json.get "verification_id" s
        snapshotIds := snapshotIds
        evidence := Json.get "evidence" s }
  | _ => .error .attributeError

def readStages (lib : Library) (otherInt : Json → Except ReadError Int) :
    List Json → Except ReadError (List StageResult)
  | [] => .ok []
  | v :: rest => do
    let stage ← readStage lib otherInt v
    let more ← readStages lib otherInt rest
    pure (stage :: more)

def readResult (lib : Library) (otherInt : Json → Except ReadError Int) :
    Json → Except ReadError VerificationResult
  | .object payload => do
    let items ← elementsOf (orEmpty (Json.get "stages" payload))
    let stages ← readStages lib otherInt items
    pure
      { catalogAgentId := textColumn lib "catalog_agent_id" payload
        previousStatus := textColumn lib "previous_status" payload
        status := textColumn lib "status" payload
        stages := stages }
  | _ => .error .attributeError

def deserializeVerificationResult (lib : Library) (otherInt : Json → Except ReadError Int)
    (raw : Text) : Except ReadError (Option VerificationResult) :=
  if raw = [] ∨ raw = emptyJson then .ok none
  else
    match Json.loads raw with
    | none => .ok none
    | some payload => (readResult lib otherInt payload).map some

/-! ## 4. The ledger -/

/-- The columns of `verification_queue_tasks` that a result is rebuilt from. -/
structure TaskRow where
  taskId : Text
  catalogAgentId : Text
  kind : Text
  status : Text
  verificationStatus : Text
  error : Text
  enqueuedAt : Nat
  startedAt : Nat
  finishedAt : Nat
  resultJson : Text

structure VerificationTaskResult where
  taskId : Text
  catalogAgentId : Text
  kind : Text
  status : Text
  verificationStatus : Text
  error : Text
  enqueuedAt : Nat
  startedAt : Nat
  finishedAt : Nat
  result : Option VerificationResult

def unknownOutcomeMarker : Text := "queue_outcome_unknown".toList

/-- `finish_task`, on the row of the task. -/
def TaskRow.finish (row : TaskRow) (status verificationStatus error resultJson : Text)
    (finishedAt : Nat) : TaskRow :=
  if row.status = "running".toList ∧ row.verificationStatus ≠ unknownOutcomeMarker then
    { row with
      status := status
      verificationStatus := verificationStatus
      error := error
      resultJson := resultJson
      finishedAt := finishedAt }
  else row

/-- A row as a result of its task. -/
def TaskRow.taskResult (row : TaskRow) (status verificationStatus error : Text)
    (result : Option VerificationResult) : VerificationTaskResult :=
  { taskId := row.taskId
    catalogAgentId := row.catalogAgentId
    kind := row.kind
    status := status
    verificationStatus := verificationStatus
    error := error
    enqueuedAt := row.enqueuedAt
    startedAt := row.startedAt
    finishedAt := row.finishedAt
    result := result }

/-- `_ledger_result`, of the row that has been fetched. -/
def ledgerResult (lib : Library) (otherInt : Json → Except ReadError Int)
    (uncertainAgents : Text → Bool) (row : TaskRow) :
    Except ReadError (Option VerificationTaskResult) :=
  if row.status = "running".toList ∧
      (row.verificationStatus = unknownOutcomeMarker ∨ uncertainAgents row.catalogAgentId = true)
  then .ok (some (row.taskResult "unknown".toList []
    (if row.error = [] then "running outcome unknown; reconciliation required".toList
      else row.error) none))
  else if row.status = "pending".toList ∨ row.status = "running".toList then .ok none
  else
    (deserializeVerificationResult lib otherInt row.resultJson).map fun result =>
      some (row.taskResult row.status row.verificationStatus row.error result)

end KiwiCatalog.Queue.Serialization
