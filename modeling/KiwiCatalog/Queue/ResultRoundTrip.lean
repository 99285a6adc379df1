import KiwiCatalog.Discovery.UcpCredentials
import KiwiCatalog.Queue.ResultJson

/-!
# ResultRoundTrip — what the ledger gives back is what the worker recorded

The evidence of a stage has already been written once, into the row of the stage, and it holds no
floats; so the document of a result can be written, and is read as the same result.
-/

set_option autoImplicit false

namespace KiwiCatalog.Queue.Serialization

open Discovery
open Discovery.Ucp (strOr)
open Url (Text)

/-! ## 1. The stages of the pipeline -/

structure Pipeline where
  lib : Library
  policy : EvidencePolicy
  fetch : Fetch
  -- `insert_verification`, with the JSON of the evidence; the id of the row or an error
  insertVerification : Text → Except String Int64

inductive StageError
  | encode (error : Json.EncodeError)
  | store (message : String)

def Pipeline.persistVerification (p : Pipeline) (evidence : VerificationEvidence) :
    Except StageError Int64 := do
  let text ← (Json.encode (evidencePayload evidence p.policy)).mapError .encode
  (p.insertVerification text).mapError .store

/-- A stage with the evidence that it has persisted. -/
def Pipeline.evidenced (p : Pipeline) (stage outcome : String) (target reason : Text)
    (evidence : VerificationEvidence) : Except StageError StageResult := do
  let id ← p.persistVerification evidence
  pure
    { stage := stage.toList
      outcome := outcome.toList
      targetStatus := target
      reason := reason
      verificationId := .int id.toInt
      snapshotIds := []
      evidence := evidencePayload evidence p.policy }

/-- A stage without evidence. -/
def plainStage (stage : String) (outcome target reason : Text) (snapshotIds : List Int) :
    StageResult :=
  ⟨stage.toList, outcome, target, reason, .null, snapshotIds, .null⟩

def outcomeOf (evidence : VerificationEvidence) : String :=
  if evidence.result = "passed" then "passed" else "rejected"

/-- `_stage_domain`; the levels are those of the state machine. -/
def Pipeline.stageDomain (p : Pipeline) (target : Text) (evidence : VerificationEvidence) :
    Except StageError StageResult :=
  p.evidenced "domain_control" (outcomeOf evidence) target evidence.reason.toList evidence

/-- `_stage_identity`. -/
def Pipeline.stageIdentity (p : Pipeline) (target : Text) (evidence : VerificationEvidence) :
    Except StageError StageResult :=
  p.evidenced "agent_identity" (outcomeOf evidence) target evidence.reason.toList evidence

/-- `_stage_commerce`, with the text of a violated publish invariant. -/
def Pipeline.stageCommerce (p : Pipeline) (target : Text) (evidence : VerificationEvidence)
    (violation : Option String) : Except StageError StageResult :=
  if evidence.result = "passed" then
    match violation with
    | some message =>
      let failed := failedEvidence evidence.verificationType
        ("§5.1 publish invariant failed: " ++ message) evidence.details
      p.evidenced "commerce_capability" "rejected" target failed.reason.toList failed
    | none => p.evidenced "commerce_capability" "passed" target [] evidence
  else p.evidenced "commerce_capability" "rejected" target evidence.reason.toList evidence

/-- A stage that the pipeline puts into a result. -/
inductive PipelineStage (p : Pipeline) : StageResult → Prop
  | profilePassed (target : Text) (card ucp : Int64) :
    PipelineStage p (plainStage "profile" "passed".toList target [] [card.toInt, ucp.toInt])
  | profileFailed (outcome target reason : Text) :
    PipelineStage p (plainStage "profile" outcome target reason [])
  | domain {stage : StageResult} (canonicalDomain target : Text) (urls : ProfileUrls)
    {evidence : VerificationEvidence}
    (hevidence : domainControlEvidence p.lib p.policy p.fetch canonicalDomain urls = .ok evidence)
    (hstage : p.stageDomain target evidence = .ok stage) : PipelineStage p stage
  | identity {stage : StageResult} (card : AgentCard.AgentCardResult)
    (ucp : Ucp.UcpProfileResult) (canonicalDomain target : Text)
    {evidence : VerificationEvidence}
    (hevidence : evaluateAgentIdentity p.lib p.policy card ucp canonicalDomain = .ok evidence)
    (hstage : p.stageIdentity target evidence = .ok stage) : PipelineStage p stage
  | commerce {stage : StageResult} (card : AgentCard.AgentCardResult)
    (ucp : Ucp.UcpProfileResult) (canonicalDomain target : Text) (violation : Option String)
    (hstage : p.stageCommerce target (evaluateCommerceCapabilities p.lib
      p.policy.toCommercePolicy card ucp canonicalDomain) violation = .ok stage) :
    PipelineStage p stage
  | staleness (target : Text) : PipelineStage p (plainStage "staleness" "stale".toList target
      "profile freshness window expired".toList [])
  | suspended (target : Text) :
    PipelineStage p (plainStage "suspend" "suspended".toList target [] [])
  | reinstated (target : Text) :
    PipelineStage p (plainStage "reinstate" "reinstated".toList target [] [])

/-- A result of any number of stages. -/
def Produced (p : Pipeline) (result : VerificationResult) : Prop :=
  ∀ stage ∈ result.stages, PipelineStage p stage

/-! ## 2. What can be written -/

/-- A stage whose document is written and read. -/
structure StageSound (stage : StageResult) : Prop where
  id : stage.verificationId = .null ∨ ∃ i : Int64, stage.verificationId = .int i.toInt
  snapshots : ∀ i ∈ stage.snapshotIds, Json.tooLong i = false
  faithful : Json.Faithful stage.evidence
  writable : Json.Writable stage.evidence

theorem no_snapshots : ∀ i ∈ ([] : List Int), Json.tooLong i = false :=
  fun _ hi => absurd hi List.not_mem_nil

theorem plainStage_sound (stage : String) (outcome target reason : Text) {ids : List Int}
    (hids : ∀ i ∈ ids, Json.tooLong i = false) :
    StageSound (plainStage stage outcome target reason ids) where
  id := .inl rfl
  snapshots := hids
  faithful := .null
  writable := Json.writable_of_no_ints rfl

theorem evidencePayload_faithful {evidence : VerificationEvidence} (policy : EvidencePolicy)
    (h : DetailsFaithful evidence.details) :
    Json.Faithful (evidencePayload evidence policy) := by
  apply DetailsFaithful.object
  constructor
  · show ["verification_type", "result", "reason", "trust_policy_version", "details"].Nodup
    decide
  · intro entry hentry
    simp only [List.mem_cons, List.not_mem_nil, or_false] at hentry
    rcases hentry with rfl | rfl | rfl | rfl | rfl
    · exact Json.Faithful.text _
    · exact Json.Faithful.text _
    · exact Json.Faithful.text _
    · exact Json.Faithful.int _
    · exact h.object

theorem evidenced_sound {p : Pipeline} {name outcome : String} {target reason : Text}
    {evidence : VerificationEvidence} (hdetails : DetailsFaithful evidence.details)
    {stage : StageResult} (h : p.evidenced name outcome target reason evidence = .ok stage) :
    StageSound stage := by
  obtain ⟨id, hid, hstage⟩ := Checks.bind_eq_ok h
  obtain ⟨text, htext, -⟩ := Checks.bind_eq_ok hid
  rw [← Except.ok.inj hstage]
  exact
    { id := .inr ⟨id, rfl⟩
      snapshots := no_snapshots
      faithful := evidencePayload_faithful p.policy hdetails
      -- the row of the stage holds the same payload
      writable := by
        cases hencode : Json.encode (evidencePayload evidence p.policy) with
        | ok text => exact Json.writable_of_encode hencode
        | error e =>
          rw [hencode] at htext
          cases htext }

theorem stageCommerce_sound {p : Pipeline} {target : Text} {evidence : VerificationEvidence}
    {violation : Option String} (hdetails : DetailsFaithful evidence.details)
    {stage : StageResult} (h : p.stageCommerce target evidence violation = .ok stage) :
    StageSound stage := by
  unfold Pipeline.stageCommerce at h
  split at h
  · cases violation with
    | some message =>
      apply evidenced_sound _ h
      exact hdetails
    | none => exact evidenced_sound hdetails h
  · exact evidenced_sound hdetails h

theorem pipelineStage_sound {p : Pipeline} {stage : StageResult} (h : PipelineStage p stage) :
    StageSound stage := by
  cases h with
  | profilePassed target card ucp =>
    apply plainStage_sound
    intro i hi
    rcases List.mem_cons.mp hi with rfl | hi
    · exact Json.tooLong_toInt card
    · rw [List.mem_singleton.mp hi]
      exact Json.tooLong_toInt ucp
  | profileFailed outcome target reason => exact plainStage_sound _ _ _ _ no_snapshots
  | domain canonicalDomain target urls hevidence hstage =>
    exact evidenced_sound (domainControlEvidence_faithful hevidence) hstage
  | identity card ucp canonicalDomain target hevidence hstage =>
    exact evidenced_sound (evaluateAgentIdentity_faithful hevidence) hstage
  | commerce card ucp canonicalDomain target violation hstage =>
    exact stageCommerce_sound (evaluateCommerceCapabilities_faithful _ _ _ _ _) hstage
  | staleness target => exact plainStage_sound _ _ _ _ no_snapshots
  | suspended target => exact plainStage_sound _ _ _ _ no_snapshots
  | reinstated target => exact plainStage_sound _ _ _ _ no_snapshots

theorem stageFields_keys (stage : StageResult) : ((stageFields stage).map Prod.fst).Nodup := by
  show ["stage", "outcome", "target_status", "reason", "verification_id", "snapshot_ids",
    "evidence"].Nodup
  decide

theorem StageSound.document {stage : StageResult} (h : StageSound stage) :
    Json.Faithful (.object (stageFields stage)) := by
  apply Json.Faithful.object (stageFields_keys stage)
  intro entry hentry
  unfold stageFields at hentry
  simp only [List.mem_cons, List.not_mem_nil, or_false] at hentry
  rcases hentry with rfl | rfl | rfl | rfl | rfl | rfl | rfl
  · exact .text _
  · exact .text _
  · exact .text _
  · exact .text _
  · rcases h.id with hnone | ⟨i, hid⟩
    · show Json.Faithful stage.verificationId
      rw [hnone]
      exact .null
    · show Json.Faithful stage.verificationId
      rw [hid]
      exact .int _
  · apply Json.Faithful.array
    intro v hv
    obtain ⟨i, -, rfl⟩ := List.mem_map.mp hv
    exact .int i
  · exact h.faithful

theorem StageSound.documentWritable {stage : StageResult} (h : StageSound stage) :
    Json.Writable (.object (stageFields stage)) := by
  rw [Json.writable_object]
  intro entry hentry
  unfold stageFields at hentry
  simp only [List.mem_cons, List.not_mem_nil, or_false] at hentry
  rcases hentry with rfl | rfl | rfl | rfl | rfl | rfl | rfl
  · exact Json.writable_of_no_ints rfl
  · exact Json.writable_of_no_ints rfl
  · exact Json.writable_of_no_ints rfl
  · exact Json.writable_of_no_ints rfl
  · rcases h.id with hnone | ⟨i, hid⟩
    · show Json.Writable stage.verificationId
      rw [hnone]
      exact Json.writable_of_no_ints rfl
    · show Json.Writable stage.verificationId
      rw [hid]
      intro j hj
      rw [List.mem_singleton.mp hj]
      exact Json.tooLong_toInt i
  · rw [Json.writable_array]
    intro v hv j hj
    obtain ⟨i, hi, rfl⟩ := List.mem_map.mp hv
    rw [List.mem_singleton.mp hj]
    exact h.snapshots i hi
  · exact h.writable

theorem resultFields_keys (result : VerificationResult) :
    ((resultFields result).map Prod.fst).Nodup := by
  show ["catalog_agent_id", "previous_status", "status", "stages"].Nodup
  decide

theorem resultFields_faithful {result : VerificationResult}
    (h : ∀ stage ∈ result.stages, StageSound stage) :
    Json.Faithful (.object (resultFields result)) := by
  apply Json.Faithful.object (resultFields_keys result)
  intro entry hentry
  unfold resultFields at hentry
  simp only [List.mem_cons, List.not_mem_nil, or_false] at hentry
  rcases hentry with rfl | rfl | rfl | rfl
  · exact .text _
  · exact .text _
  · exact .text _
  · apply Json.Faithful.array
    intro v hv
    obtain ⟨stage, hstage, rfl⟩ := List.mem_map.mp hv
    exact (h stage hstage).document

theorem resultFields_writable {result : VerificationResult}
    (h : ∀ stage ∈ result.stages, StageSound stage) :
    Json.Writable (.object (resultFields result)) := by
  rw [Json.writable_object]
  intro entry hentry
  unfold resultFields at hentry
  simp only [List.mem_cons, List.not_mem_nil, or_false] at hentry
  rcases hentry with rfl | rfl | rfl | rfl
  · exact Json.writable_of_no_ints rfl
  · exact Json.writable_of_no_ints rfl
  · exact Json.writable_of_no_ints rfl
  · rw [Json.writable_array]
    intro v hv
    obtain ⟨stage, hstage, rfl⟩ := List.mem_map.mp hv
    exact (h stage hstage).documentWritable

/-! ## 3. What is read -/

/-- The stage with the keys of its evidence in order. -/
def StageResult.sorted (stage : StageResult) : StageResult :=
  { stage with evidence := stage.evidence.sortKeys }

def VerificationResult.sorted (result : VerificationResult) : VerificationResult :=
  { result with stages := result.stages.map StageResult.sorted }

theorem textColumn_sortFields (lib : Library) {fields : Fields} {key : String} {s : Text}
    (hkeys : (fields.map Prod.fst).Nodup) (hfield : Json.field key fields = some (.text s)) :
    textColumn lib key (Json.sortFields fields) = s := by
  unfold textColumn
  rw [Json.sortFields, Json.field_sortKeys hkeys hfield]
  rfl

theorem elementsOf_orEmpty (items : List Json) :
    elementsOf (orEmpty (.array items)) = .ok items := by
  cases items with
  | nil => rfl
  | cons v rest => rfl

theorem readInts_ints (otherInt : Json → Except ReadError Int) (ids : List Int) :
    readInts otherInt (ids.map .int) = .ok ids := by
  induction ids with
  | nil => rfl
  | cons i rest ih =>
    rw [List.map_cons, readInts, ih]
    rfl

theorem sortKeys_ints (ids : List Int) :
    Json.sortKeys (.array (ids.map .int)) = .array (ids.map .int) := by
  rw [Json.sortKeys_array, List.map_map]
  rfl

theorem readStage_sortKeys (lib : Library) (otherInt : Json → Except ReadError Int)
    {stage : StageResult} (h : StageSound stage) :
    readStage lib otherInt (Json.sortKeys (.object (stageFields stage))) = .ok stage.sorted := by
  have hkeys := stageFields_keys stage
  have hids : Json.get "snapshot_ids" (Json.sortFields (stageFields stage)) =
      .array (stage.snapshotIds.map .int) := by
    rw [Json.get_sortFields hkeys]
    exact sortKeys_ints stage.snapshotIds
  have hid : Json.get "verification_id" (Json.sortFields (stageFields stage)) =
      stage.verificationId := by
    rw [Json.get_sortFields hkeys]
    show Json.sortKeys stage.verificationId = stage.verificationId
    rcases h.id with hnone | ⟨i, hid⟩
    · rw [hnone]
      rfl
    · rw [hid]
      rfl
  have hevidence : Json.get "evidence" (Json.sortFields (stageFields stage)) =
      stage.evidence.sortKeys := Json.get_sortFields hkeys "evidence"
  have hreason : strOr lib (Json.get "reason" (Json.sortFields (stageFields stage))) [] =
      stage.reason := by
    rw [Json.get_sortFields hkeys]
    show strOr lib (.text stage.reason) [] = stage.reason
    unfold strOr
    cases stage.reason with
    | nil => rfl
    | cons c rest => rfl
  rw [Json.sortKeys_object, readStage, hids, elementsOf_orEmpty]
  show (readInts otherInt (stage.snapshotIds.map .int) >>= _) = _
  rw [readInts_ints, hid, hevidence, hreason, textColumn_sortFields lib hkeys rfl,
    textColumn_sortFields lib hkeys rfl, textColumn_sortFields lib hkeys rfl]
  rfl

theorem readStages_sortKeys (lib : Library) (otherInt : Json → Except ReadError Int)
    {stages : List StageResult} (h : ∀ stage ∈ stages, StageSound stage) :
    readStages lib otherInt
        ((stages.map fun stage => Json.object (stageFields stage)).map Json.sortKeys) =
      .ok (stages.map StageResult.sorted) := by
  induction stages with
  | nil => rfl
  | cons stage rest ih =>
    rw [List.map_cons, List.map_cons, readStages,
      readStage_sortKeys lib otherInt (h stage List.mem_cons_self),
      ih fun other hother => h other (List.mem_cons_of_mem _ hother)]
    rfl

/-- What is written is read as the same result, the keys of its evidence in order. -/
theorem deserialize_serialize (lib : Library) (otherInt : Json → Except ReadError Int)
    {result : VerificationResult} (h : ∀ stage ∈ result.stages, StageSound stage) :
    ∃ text, serializeVerificationResult (some result) = .ok text ∧ text ≠ emptyJson ∧
      deserializeVerificationResult lib otherInt text = .ok (some result.sorted) := by
  have hkeys := resultFields_keys result
  have hloads := Json.loads_dumps (resultFields_faithful h) (resultFields_writable h)
  have hempty : Json.dumps (Json.sortKeys (.object (resultFields result))) ≠ emptyJson := by
    intro heq
    rw [heq] at hloads
    -- the document has four fields
    have hfields : ([] : Fields) = Json.sortFields (resultFields result) :=
      Json.object.inj (Option.some.inj hloads)
    have hlength := congrArg List.length hfields
    rw [Json.sortFields, List.length_mergeSort, Json.sortKeysFields_eq, List.length_map] at hlength
    change 0 = 4 at hlength
    cases hlength
  have hnil : Json.dumps (Json.sortKeys (.object (resultFields result))) ≠ [] :=
    List.cons_ne_nil _ _
  have hstages : Json.get "stages" (Json.sortFields (resultFields result)) =
      .array ((result.stages.map fun stage => Json.object (stageFields stage)).map
        Json.sortKeys) := by
    rw [Json.get_sortFields hkeys]
    exact Json.sortKeys_array _
  refine ⟨_, Json.encode_eq (resultFields_writable h), hempty, ?_⟩
  rw [deserializeVerificationResult, if_neg (not_or.mpr ⟨hnil, hempty⟩), hloads]
  show (readResult lib otherInt (Json.sortKeys (.object (resultFields result)))).map some = _
  rw [Json.sortKeys_object, readResult, hstages, elementsOf_orEmpty]
  show Except.map some (readStages lib otherInt _ >>= _) = _
  rw [readStages_sortKeys lib otherInt h, textColumn_sortFields lib hkeys rfl,
    textColumn_sortFields lib hkeys rfl, textColumn_sortFields lib hkeys rfl]
  rfl

/-! ## 4. The same result -/

/-- Equal stages, their evidence up to the order of its keys. -/
structure StageResult.Same (a b : StageResult) : Prop where
  stage : a.stage = b.stage
  outcome : a.outcome = b.outcome
  targetStatus : a.targetStatus = b.targetStatus
  reason : a.reason = b.reason
  verificationId : a.verificationId = b.verificationId
  snapshotIds : a.snapshotIds = b.snapshotIds
  evidence : Json.Same a.evidence b.evidence

structure VerificationResult.Same (a b : VerificationResult) : Prop where
  catalogAgentId : a.catalogAgentId = b.catalogAgentId
  previousStatus : a.previousStatus = b.previousStatus
  status : a.status = b.status
  stages : List.Forall₂ StageResult.Same a.stages b.stages

theorem StageSound.same {stage : StageResult} (h : StageSound stage) :
    StageResult.Same stage.sorted stage :=
  ⟨rfl, rfl, rfl, rfl, rfl, rfl, Json.same_sortKeys h.faithful.distinct⟩

theorem same_sorted {result : VerificationResult}
    (h : ∀ stage ∈ result.stages, StageSound stage) :
    VerificationResult.Same result.sorted result where
  catalogAgentId := rfl
  previousStatus := rfl
  status := rfl
  stages := by
    show List.Forall₂ StageResult.Same (result.stages.map StageResult.sorted) result.stages
    rw [List.forall₂_map_left_iff, List.forall₂_same]
    exact fun stage hstage => (h stage hstage).same

theorem ledgerResult_finish (lib : Library) (otherInt : Json → Except ReadError Int)
    (uncertainAgents : Text → Bool) {row : TaskRow} (hrunning : row.status = "running".toList)
    (hunmarked : row.verificationStatus ≠ unknownOutcomeMarker) {status : Text}
    (hpending : status ≠ "pending".toList) (hfinal : status ≠ "running".toList)
    (verificationStatus error : Text) (finishedAt : Nat) {text : Text}
    {back : Option VerificationResult}
    (hread : deserializeVerificationResult lib otherInt text = .ok back) :
    ledgerResult lib otherInt uncertainAgents
        (row.finish status verificationStatus error text finishedAt) =
      .ok (some ((row.finish status verificationStatus error text finishedAt).taskResult status
        verificationStatus error back)) := by
  unfold TaskRow.finish
  rw [if_pos ⟨hrunning, hunmarked⟩, ledgerResult, if_neg fun h => hfinal h.1,
    if_neg fun h => h.elim hpending hfinal]
  show (deserializeVerificationResult lib otherInt text).map _ = _
  rw [hread]
  rfl

/-- A result that the pipeline can produce is written without an error and read back as the same
result, from its text and from the row of its finished task; `None` alone is written as `{}`. -/
theorem result_json_round_trip (p : Pipeline) (otherInt : Json → Except ReadError Int)
    (result : Option VerificationResult) (h : ∀ r, result = some r → Produced p r) :
    ∃ text back, serializeVerificationResult result = .ok text ∧
      (text = emptyJson ↔ result = none) ∧
      deserializeVerificationResult p.lib otherInt text = .ok back ∧
      Option.Rel VerificationResult.Same back result ∧
      ∀ (row : TaskRow) (status verificationStatus error : Text) (finishedAt : Nat)
        (uncertainAgents : Text → Bool), row.status = "running".toList →
        row.verificationStatus ≠ unknownOutcomeMarker → status ≠ "pending".toList →
        status ≠ "running".toList →
        ledgerResult p.lib otherInt uncertainAgents
            (row.finish status verificationStatus error text finishedAt) =
          .ok (some ((row.finish status verificationStatus error text finishedAt).taskResult
            status verificationStatus error back)) := by
  cases result with
  | none =>
    have hread : deserializeVerificationResult p.lib otherInt emptyJson = .ok none := rfl
    refine ⟨emptyJson, none, rfl, iff_of_true rfl rfl, hread, .none, ?_⟩
    intro row status verificationStatus error finishedAt uncertainAgents hrunning hunmarked
      hpending hfinal
    exact ledgerResult_finish p.lib otherInt uncertainAgents hrunning hunmarked hpending hfinal
      verificationStatus error finishedAt hread
  | some r =>
    have hsound : ∀ stage ∈ r.stages, StageSound stage :=
      fun stage hstage => pipelineStage_sound (h r rfl stage hstage)
    obtain ⟨text, hwrite, hempty, hread⟩ := deserialize_serialize p.lib otherInt hsound
    refine ⟨text, some r.sorted, hwrite, iff_of_false hempty (Option.some_ne_none r), hread,
      .some (same_sorted hsound), ?_⟩
    intro row status verificationStatus error finishedAt uncertainAgents hrunning hunmarked
      hpending hfinal
    exact ledgerResult_finish p.lib otherInt uncertainAgents hrunning hunmarked hpending hfinal
      verificationStatus error finishedAt hread

/-! ## 5. An agent without a domain -/

def pinnedPolicy : EvidencePolicy where
  allowedA2aVersions := ["1.0.0".toList]
  allowedUcpVersions := ["2026-04-08".toList]
  allowedKnpVersions := ["1.0".toList]
  policyVersion := 1
  requireHttps := true
  domainControlMethod := "https_well_known".toList

def offlinePipeline : Pipeline where
  lib := asciiLibrary
  policy := pinnedPolicy
  fetch := fun _ => .error "offline"
  insertVerification := fun _ => .ok 7

def unclaimedEvidence : VerificationEvidence :=
  failedEvidence "domain_control"
    "catalog agent has no canonical_domain; domain control cannot be verified"
    [("method", .text "https_domain_control".toList),
      ("domain_control_method", .text "https_well_known".toList), ("canonical_domain", .text [])]

def unclaimedStage : StageResult where
  stage := "domain_control".toList
  outcome := "rejected".toList
  targetStatus := "discovered".toList
  reason := unclaimedEvidence.reason.toList
  verificationId := .int 7
  snapshotIds := []
  evidence := evidencePayload unclaimedEvidence pinnedPolicy

def unclaimedResult : VerificationResult where
  catalogAgentId := "agent-1".toList
  previousStatus := "discovered".toList
  status := "discovered".toList
  stages := [plainStage "profile" "passed".toList "profile_valid".toList []
    [Int64.toInt 3, Int64.toInt 4], unclaimedStage]

theorem unclaimedResult_produced : Produced offlinePipeline unclaimedResult := by
  intro stage hstage
  rcases List.mem_cons.mp hstage with rfl | hstage
  · exact .profilePassed _ 3 4
  · rw [List.mem_singleton.mp hstage]
    have hevidence : domainControlEvidence asciiLibrary pinnedPolicy offlinePipeline.fetch []
        ⟨[], []⟩ = .ok unclaimedEvidence := rfl
    exact .domain [] "discovered".toList ⟨[], []⟩ hevidence rfl

theorem unclaimed_result_round_trip :
    ∃ text back, serializeVerificationResult (some unclaimedResult) = .ok text ∧
      deserializeVerificationResult asciiLibrary (fun _ => .error .typeError) text = .ok back ∧
      Option.Rel VerificationResult.Same back (some unclaimedResult) := by
  have hproduced : ∀ r, some unclaimedResult = some r → Produced offlinePipeline r := by
    intro r hr
    rw [← Option.some.inj hr]
    exact unclaimedResult_produced
  obtain ⟨text, back, hwrite, -, hread, hsame, -⟩ := result_json_round_trip offlinePipeline
    (fun _ => .error .typeError) (some unclaimedResult) hproduced
  exact ⟨text, back, hwrite, hread, hsame⟩

end KiwiCatalog.Queue.Serialization
