import KiwiCatalog.Catalog.StateDomains
import KiwiCatalog.Lib.Url

/-!
# Ladder — a verification run from its loaded profiles on

The run clears the level, climbs stage by stage, and where a stage fails works the level out from
the evidence that is stored.
-/

set_option autoImplicit false

namespace KiwiCatalog.Trust.Ladder

open Catalog (VerificationLevel FreshnessState)

/-! ## Levels -/

def levelIndex : VerificationLevel → Nat
  | .discovered => 0
  | .profileValid => 1
  | .domainVerified => 2
  | .agentVerified => 3
  | .commerceVerified => 4

theorem levelIndex_inj {a b : VerificationLevel} (h : levelIndex a = levelIndex b) : a = b := by
  cases a <;> cases b <;> first | rfl | cases h

/-- `VerificationLevelStateMachine.transition`; `none` is the `InvalidStateTransitionError`. -/
def transition (current target : VerificationLevel) : Option VerificationLevel :=
  if levelIndex target = levelIndex current ∨ levelIndex target = levelIndex current + 1 then
    some target
  else none

def canDegrade (current target : VerificationLevel) : Bool :=
  levelIndex target < levelIndex current

/-! ## Rows -/

/-- `verification_level` and the columns beside it that a run reads or writes. -/
structure Agent where
  catalogAgentId : String
  level : VerificationLevel
  freshness : FreshnessState
  sourceType : SourceType
  hostedRuntimeAgentId : String
  lastVerifiedAt : String

/-- A row of `agent_verifications`. -/
structure EvidenceRow where
  verificationId : Nat
  catalogAgentId : String
  verificationType : VerificationType
  passed : Bool
  checkedAt : String
  expiresAt : String
  deriving DecidableEq, Repr

structure Db where
  agent : Agent
  rows : List EvidenceRow

/-- The parse of a stored time, in microseconds, and the readings of the clock. -/
structure Env where
  parseIsoTs : String → Option Int
  now : Int
  nowIso : String
  -- when evidence expires that is made of a failed invariant
  failedExpiresAt : String

/-- The outcome of a check, with the times that its row gets. -/
structure Evidence where
  passed : Bool
  checkedAt : String
  expiresAt : String

structure Outcomes where
  domain : Evidence
  identity : Evidence
  commerce : Evidence

/-! ## Stored evidence -/

/-- Before in `order by checked_at desc, verification_id desc`. -/
def newer (a b : EvidenceRow) : Bool :=
  b.checkedAt < a.checkedAt || (a.checkedAt = b.checkedAt && b.verificationId < a.verificationId)

def keepNewer (best : Option EvidenceRow) (r : EvidenceRow) : Option EvidenceRow :=
  match best with
  | none => some r
  | some b => if newer r b then some r else some b

def newest (rows : List EvidenceRow) : Option EvidenceRow := rows.foldl keepNewer none

/-- The rows of an agent with a passed check of a type. -/
def passedRows (db : Db) (type : VerificationType) : List EvidenceRow :=
  db.rows.filter fun r =>
    r.catalogAgentId = db.agent.catalogAgentId && r.verificationType = type && r.passed

/-- `latest_verification` with `result="passed"`. -/
def latestPassed (db : Db) (type : VerificationType) : Option EvidenceRow :=
  newest (passedRows db type)

/-- A row without a time does not expire; one with a time that cannot be read has expired. -/
def unexpired (env : Env) (r : EvidenceRow) : Bool :=
  if r.expiresAt = "" then true
  else
    match env.parseIsoTs r.expiresAt with
    | none => false
    | some expiresAt => !(expiresAt < env.now)

def levelOf : VerificationType → VerificationLevel
  | .commerceCapability => .commerceVerified
  | .agentIdentity => .agentVerified
  | .domainControl => .domainVerified

/-- `EVIDENCE_KIND_TO_LEVEL`, the highest first. -/
def evidenceKinds : List VerificationType := [.commerceCapability, .agentIdentity, .domainControl]

/-- The conditions of one turn of the loop in `highest_supported_level`. -/
def supports (env : Env) (currentLevel : VerificationLevel) (latest : Option EvidenceRow)
    (type : VerificationType) : Bool :=
  (levelOf type = currentLevel || canDegrade currentLevel (levelOf type)) &&
    latest.any (unexpired env)

def highestSupportedLevel (env : Env) (currentLevel : VerificationLevel)
    (latest : VerificationType → Option EvidenceRow) : VerificationLevel :=
  match evidenceKinds.find? fun type => supports env currentLevel (latest type) type with
  | some type => levelOf type
  | none => .discovered

/-! ## Statements -/

def applyLevel (level : VerificationLevel) (db : Db) : Db :=
  { db with agent := { db.agent with level := level } }

def applyFreshness (freshness : FreshnessState) (db : Db) : Db :=
  { db with agent := { db.agent with freshness := freshness } }

def nextVerificationId (rows : List EvidenceRow) : Nat :=
  rows.foldr (fun r n => max r.verificationId n) 0 + 1

def persistVerification (type : VerificationType) (evidence : Evidence) (db : Db) : Db :=
  { db with
    rows := db.rows ++ [⟨nextVerificationId db.rows, db.agent.catalogAgentId, type,
      evidence.passed, evidence.checkedAt, evidence.expiresAt⟩] }

def degradeLevelToSupported (env : Env) (fromLevel : VerificationLevel) (db : Db) :
    VerificationLevel :=
  highestSupportedLevel env fromLevel (latestPassed db)

/-- `_validate_hosting_invariant` at `commerce_verified`. -/
def validateHostingInvariant (agent : Agent) : Bool :=
  let hasRuntime := Url.strip agent.hostedRuntimeAgentId.toList ≠ []
  if agent.sourceType = .hosted then hasRuntime else !hasRuntime

/-! ## Stages -/

structure StageResult where
  passed : Bool
  target : VerificationLevel
  db : Db

/-- What a failed check does: the level is worked out before the row of the check is written. -/
def stageFails (env : Env) (fromLevel : VerificationLevel) (type : VerificationType)
    (evidence : Evidence) (db : Db) : StageResult :=
  let target := degradeLevelToSupported env fromLevel db
  ⟨false, target, persistVerification type { evidence with passed := false } (applyLevel target db)⟩

def stageDomain (env : Env) (current fromLevel : VerificationLevel) (evidence : Evidence)
    (db : Db) : Option StageResult :=
  if evidence.passed then do
    let target ← transition current .domainVerified
    return ⟨true, target, persistVerification .domainControl evidence (applyLevel target db)⟩
  else return stageFails env fromLevel .domainControl evidence db

def stageIdentity (env : Env) (current fromLevel : VerificationLevel) (evidence : Evidence)
    (db : Db) : Option StageResult :=
  if evidence.passed then do
    let target ← transition current .agentVerified
    return ⟨true, target, persistVerification .agentIdentity evidence (applyLevel target db)⟩
  else return stageFails env fromLevel .agentIdentity evidence db

/-- The publication invariant may turn passed evidence into failed evidence. -/
def stageCommerce (env : Env) (current fromLevel : VerificationLevel) (evidence : Evidence)
    (db : Db) : Option StageResult :=
  if !evidence.passed then return stageFails env fromLevel .commerceCapability evidence db
  else if !validateHostingInvariant db.agent then
    return stageFails env fromLevel .commerceCapability
      { evidence with expiresAt := env.failedExpiresAt } db
  else do
    let target ← transition current .commerceVerified
    let db := applyLevel target db
    let db := { db with agent := { db.agent with lastVerifiedAt := env.nowIso } }
    return ⟨true, target, persistVerification .commerceCapability evidence db⟩

/-- The run empties the level and takes the profile rung, both checked already. -/
def reenter (db : Db) : Option Db := do
  let db := if db.agent.level ≠ .discovered then applyLevel .discovered db else db
  let target ← transition .discovered .profileValid
  return applyLevel target (applyFreshness .fresh db)

/-- `verify` behind the profile stage; `none` is an exception. -/
def verify (env : Env) (outcomes : Outcomes) (db : Db) : Option Db := do
  let originalLevel := db.agent.level
  let db ← reenter db
  let domain ← stageDomain env .profileValid originalLevel outcomes.domain db
  if !domain.passed then return domain.db
  let identity ← stageIdentity env domain.target originalLevel outcomes.identity domain.db
  if !identity.passed then return identity.db
  let commerce ← stageCommerce env identity.target originalLevel outcomes.commerce identity.db
  return commerce.db

/-! ## What a run passes -/

/-- Every stage up to a level passes; the profile stage is behind the run. -/
def PassedUpTo (outcomes : Outcomes) (agent : Agent) : VerificationLevel → Prop
  | .discovered => True
  | .profileValid => True
  | .domainVerified => outcomes.domain.passed = true
  | .agentVerified => outcomes.domain.passed = true ∧ outcomes.identity.passed = true
  | .commerceVerified => outcomes.domain.passed = true ∧ outcomes.identity.passed = true ∧
      outcomes.commerce.passed = true ∧ validateHostingInvariant agent = true

/-- The level of the last stage that passes. -/
def lastPassed (outcomes : Outcomes) (agent : Agent) : VerificationLevel :=
  if !outcomes.domain.passed then .profileValid
  else if !outcomes.identity.passed then .domainVerified
  else if !(outcomes.commerce.passed && validateHostingInvariant agent) then .agentVerified
  else .commerceVerified

theorem passedUpTo_iff {outcomes : Outcomes} {agent : Agent} {level : VerificationLevel} :
    PassedUpTo outcomes agent level ↔ levelIndex level ≤ levelIndex (lastPassed outcomes agent) := by
  unfold lastPassed
  cases hdomain : outcomes.domain.passed with
  | false => cases level <;> simp [PassedUpTo, levelIndex, hdomain]
  | true =>
    cases hidentity : outcomes.identity.passed with
    | false => cases level <;> simp [PassedUpTo, levelIndex, hdomain, hidentity]
    | true =>
      cases hcommerce : outcomes.commerce.passed && validateHostingInvariant agent with
      | false =>
        rw [Bool.and_eq_false_iff] at hcommerce
        cases level <;> simp [PassedUpTo, levelIndex, hdomain, hidentity]
        intro hpassed
        simpa [hpassed] using hcommerce
      | true =>
        rw [Bool.and_eq_true] at hcommerce
        cases level <;> simp [PassedUpTo, levelIndex, hdomain, hidentity, hcommerce]

/-- The table as the failing stage finds it: with the rows of the stages that have passed. -/
def seen (outcomes : Outcomes) (db : Db) : Db :=
  if !outcomes.domain.passed then db
  else if !outcomes.identity.passed then persistVerification .domainControl outcomes.domain db
  else persistVerification .agentIdentity outcomes.identity
    (persistVerification .domainControl outcomes.domain db)

/-- Equal but for the level, the freshness and the time of the last verification. -/
structure SameTable (db db' : Db) : Prop where
  rows : db.rows = db'.rows
  catalogAgentId : db.agent.catalogAgentId = db'.agent.catalogAgentId
  sourceType : db.agent.sourceType = db'.agent.sourceType
  hostedRuntimeAgentId : db.agent.hostedRuntimeAgentId = db'.agent.hostedRuntimeAgentId

theorem SameTable.persist {db db' : Db} (h : SameTable db db') (type : VerificationType)
    (evidence : Evidence) :
    SameTable (persistVerification type evidence db) (persistVerification type evidence db') := by
  refine ⟨?_, h.catalogAgentId, h.sourceType, h.hostedRuntimeAgentId⟩
  show db.rows ++ _ = db'.rows ++ _
  rw [h.rows, h.catalogAgentId]

theorem SameTable.applyLevel {db db' : Db} (h : SameTable db db') (level : VerificationLevel) :
    SameTable (applyLevel level db) db' :=
  ⟨h.rows, h.catalogAgentId, h.sourceType, h.hostedRuntimeAgentId⟩

theorem SameTable.degrade {db db' : Db} (h : SameTable db db') (env : Env)
    (level : VerificationLevel) :
    degradeLevelToSupported env level db = degradeLevelToSupported env level db' := by
  have hlatest : latestPassed db = latestPassed db' := by
    funext type
    rw [latestPassed, latestPassed, passedRows, passedRows, h.catalogAgentId, h.rows]
  rw [degradeLevelToSupported, degradeLevelToSupported, hlatest]

theorem SameTable.invariant {db db' : Db} (h : SameTable db db') :
    validateHostingInvariant db.agent = validateHostingInvariant db'.agent := by
  rw [validateHostingInvariant, validateHostingInvariant, h.sourceType, h.hostedRuntimeAgentId]

theorem reenter_same (db : Db) : ∃ climbed, reenter db = some climbed ∧ SameTable climbed db := by
  refine ⟨_, rfl, ?_⟩
  split
  · exact ⟨rfl, rfl, rfl, rfl⟩
  · exact ⟨rfl, rfl, rfl, rfl⟩

/-- What a run leaves behind when a stage fails on the table `found`. -/
structure EndsOn (env : Env) (fromLevel : VerificationLevel) (found after : Db) : Prop where
  level : after.agent.level = degradeLevelToSupported env fromLevel found
  catalogAgentId : after.agent.catalogAgentId = found.agent.catalogAgentId
  rows : ∃ failed : EvidenceRow, after.rows = found.rows ++ [failed] ∧ failed.passed = false

theorem stageFails_ends {env : Env} {fromLevel : VerificationLevel} {type : VerificationType}
    {evidence : Evidence} {db found : Db} (h : SameTable db found) :
    EndsOn env fromLevel found (stageFails env fromLevel type evidence db).db where
  level := h.degrade env fromLevel
  catalogAgentId := h.catalogAgentId
  rows := by
    refine ⟨⟨nextVerificationId db.rows, db.agent.catalogAgentId, type, false, evidence.checkedAt,
      evidence.expiresAt⟩, ?_, rfl⟩
    rw [← h.rows]
    rfl

section Stages

variable {env : Env} {fromLevel : VerificationLevel} {evidence : Evidence} {db : Db}

theorem stageDomain_passed (h : evidence.passed = true) :
    stageDomain env .profileValid fromLevel evidence db = some ⟨true, .domainVerified,
      persistVerification .domainControl evidence (applyLevel .domainVerified db)⟩ := by
  rw [stageDomain, if_pos h]
  rfl

theorem stageDomain_failed {current : VerificationLevel} (h : evidence.passed = false) :
    stageDomain env current fromLevel evidence db =
      some (stageFails env fromLevel .domainControl evidence db) := by
  rw [stageDomain, if_neg (by simp [h])]
  rfl

theorem stageIdentity_passed (h : evidence.passed = true) :
    stageIdentity env .domainVerified fromLevel evidence db = some ⟨true, .agentVerified,
      persistVerification .agentIdentity evidence (applyLevel .agentVerified db)⟩ := by
  rw [stageIdentity, if_pos h]
  rfl

theorem stageIdentity_failed {current : VerificationLevel} (h : evidence.passed = false) :
    stageIdentity env current fromLevel evidence db =
      some (stageFails env fromLevel .agentIdentity evidence db) := by
  rw [stageIdentity, if_neg (by simp [h])]
  rfl

theorem stageCommerce_failed {current : VerificationLevel} (h : evidence.passed = false) :
    stageCommerce env current fromLevel evidence db =
      some (stageFails env fromLevel .commerceCapability evidence db) := by
  rw [stageCommerce, if_pos (by simp [h])]
  rfl

theorem stageCommerce_refused {current : VerificationLevel} (h : evidence.passed = true)
    (hinvariant : validateHostingInvariant db.agent = false) :
    stageCommerce env current fromLevel evidence db =
      some (stageFails env fromLevel .commerceCapability
        { evidence with expiresAt := env.failedExpiresAt } db) := by
  rw [stageCommerce, if_neg (by simp [h]), if_pos (by simp [hinvariant])]
  rfl

theorem stageCommerce_passed (h : evidence.passed = true)
    (hinvariant : validateHostingInvariant db.agent = true) :
    ∃ r, stageCommerce env .agentVerified fromLevel evidence db = some r ∧
      r.db.agent.level = .commerceVerified := by
  rw [stageCommerce, if_neg (by simp [h]), if_neg (by simp [hinvariant])]
  exact ⟨_, rfl, rfl⟩

end Stages

/-- A run that does not pass every stage ends at the highest level that the table supports. -/
theorem verify_fails (env : Env) {outcomes : Outcomes} {db : Db}
    (hfails : lastPassed outcomes db.agent ≠ .commerceVerified) :
    ∃ after, verify env outcomes db = some after ∧
      EndsOn env db.agent.level (seen outcomes db) after := by
  obtain ⟨climbed, hreenter, hsame⟩ := reenter_same db
  unfold lastPassed at hfails
  unfold seen
  cases hdomain : outcomes.domain.passed with
  | false =>
    refine ⟨_, ?_, @stageFails_ends env _ .domainControl outcomes.domain _ _ hsame⟩
    simp [verify, hreenter, stageDomain_failed hdomain, stageFails]
  | true =>
    have hpassed := (hsame.applyLevel .domainVerified).persist .domainControl outcomes.domain
    cases hidentity : outcomes.identity.passed with
    | false =>
      refine ⟨_, ?_, @stageFails_ends env _ .agentIdentity outcomes.identity _ _ hpassed⟩
      simp [verify, hreenter, stageDomain_passed hdomain, stageIdentity_failed hidentity,
        stageFails]
    | true =>
      have hboth := (hpassed.applyLevel .agentVerified).persist .agentIdentity outcomes.identity
      cases hcommerce : outcomes.commerce.passed with
      | false =>
        refine ⟨_, ?_, @stageFails_ends env _ .commerceCapability outcomes.commerce _ _ hboth⟩
        simp [verify, hreenter, stageDomain_passed hdomain, stageIdentity_passed hidentity,
          stageCommerce_failed hcommerce]
      | true =>
        -- the evidence passes and the invariant does not
        have hinvariant : validateHostingInvariant db.agent = false := by
          apply Bool.eq_false_iff.mpr
          intro htrue
          exact hfails (by simp [hdomain, hidentity, hcommerce, htrue])
        have hfound := hboth.invariant.trans hinvariant
        refine ⟨_, ?_, @stageFails_ends env _ .commerceCapability
          { outcomes.commerce with expiresAt := env.failedExpiresAt } _ _ hboth⟩
        simp [verify, hreenter, stageDomain_passed hdomain, stageIdentity_passed hidentity,
          stageCommerce_refused hcommerce hfound]

/-- A run that passes every stage ends at the top. -/
theorem verify_passes (env : Env) {outcomes : Outcomes} {db : Db}
    (h : PassedUpTo outcomes db.agent .commerceVerified) :
    ∃ after, verify env outcomes db = some after ∧ after.agent.level = .commerceVerified := by
  obtain ⟨hdomain, hidentity, hcommerce, hinvariant⟩ := h
  obtain ⟨climbed, hreenter, hsame⟩ := reenter_same db
  have hpassed := (hsame.applyLevel .domainVerified).persist .domainControl outcomes.domain
  have hboth := (hpassed.applyLevel .agentVerified).persist .agentIdentity outcomes.identity
  obtain ⟨r, hstage, hlevel⟩ := @stageCommerce_passed env db.agent.level outcomes.commerce _
    hcommerce (hboth.invariant.trans hinvariant)
  refine ⟨r.db, ?_, hlevel⟩
  simp [verify, hreenter, stageDomain_passed hdomain, stageIdentity_passed hidentity, hstage]

/-! ## The evidence that supports a level -/

theorem mem_evidenceKinds (type : VerificationType) : type ∈ evidenceKinds := by
  cases type <;> simp [evidenceKinds]

theorem supports_iff {env : Env} {current : VerificationLevel} {latest : Option EvidenceRow}
    {type : VerificationType} :
    supports env current latest type = true ↔
      levelIndex (levelOf type) ≤ levelIndex current ∧
        ∃ row, latest = some row ∧ unexpired env row = true := by
  have hlevel : (levelOf type = current ∨ canDegrade current (levelOf type) = true) ↔
      levelIndex (levelOf type) ≤ levelIndex current := by
    rw [canDegrade, decide_eq_true_eq, Nat.le_iff_lt_or_eq, or_comm]
    exact or_congr_right ⟨fun h => h ▸ rfl, levelIndex_inj⟩
  rw [supports, Bool.and_eq_true, Bool.or_eq_true, decide_eq_true_eq, hlevel]
  rw [Option.any_eq_true]

/-- The level is one that the table supports, or the lowest. -/
theorem highestSupportedLevel_supported {env : Env} {current : VerificationLevel}
    {latest : VerificationType → Option EvidenceRow} :
    highestSupportedLevel env current latest = .discovered ∨
      ∃ type, highestSupportedLevel env current latest = levelOf type ∧
        supports env current (latest type) type = true := by
  unfold highestSupportedLevel
  cases hfind : evidenceKinds.find? fun type => supports env current (latest type) type with
  | none => exact .inl rfl
  | some type =>
    have hsupports := List.find?_some hfind
    exact .inr ⟨type, rfl, hsupports⟩

theorem le_highestSupportedLevel {env : Env} {current : VerificationLevel}
    {latest : VerificationType → Option EvidenceRow} {type : VerificationType}
    (h : supports env current (latest type) type = true) :
    levelIndex (levelOf type) ≤ levelIndex (highestSupportedLevel env current latest) := by
  unfold highestSupportedLevel evidenceKinds
  simp only [List.find?_cons, List.find?_nil]
  cases hcommerce : supports env current (latest .commerceCapability) .commerceCapability with
  | true => cases type <;> simp [levelOf, levelIndex]
  | false =>
    cases hidentity : supports env current (latest .agentIdentity) .agentIdentity with
    | true =>
      cases type with
      | commerceCapability => rw [hcommerce] at h; cases h
      | agentIdentity => simp [levelOf, levelIndex]
      | domainControl => simp [levelOf, levelIndex]
    | false =>
      cases type with
      | commerceCapability => rw [hcommerce] at h; cases h
      | agentIdentity => rw [hidentity] at h; cases h
      | domainControl => simp [h]

theorem foldl_keepNewer_mem {rows : List EvidenceRow} {best : Option EvidenceRow}
    {row : EvidenceRow} (h : rows.foldl keepNewer best = some row) :
    best = some row ∨ row ∈ rows := by
  induction rows generalizing best with
  | nil => exact .inl h
  | cons r rows ih =>
    rcases ih h with hbest | hmem
    · unfold keepNewer at hbest
      split at hbest
      · cases hbest
        exact .inr List.mem_cons_self
      · split at hbest
        · cases hbest
          exact .inr List.mem_cons_self
        · exact .inl hbest
    · exact .inr (List.mem_cons_of_mem r hmem)

theorem latestPassed_mem {db : Db} {type : VerificationType} {row : EvidenceRow}
    (h : latestPassed db type = some row) : row ∈ passedRows db type := by
  rcases foldl_keepNewer_mem h with hnone | hmem
  · cases hnone
  · exact hmem

/-- Some passed row of a type has not expired. -/
def Evidenced (env : Env) (db : Db) (type : VerificationType) : Prop :=
  ∃ row ∈ passedRows db type, unexpired env row = true

/-- The passed row that counts has not expired. -/
def LatestStands (env : Env) (db : Db) (type : VerificationType) : Prop :=
  ∃ row, latestPassed db type = some row ∧ unexpired env row = true

theorem LatestStands.evidenced {env : Env} {db : Db} {type : VerificationType}
    (h : LatestStands env db type) : Evidenced env db type := by
  obtain ⟨row, hlatest, hrow⟩ := h
  exact ⟨row, latestPassed_mem hlatest, hrow⟩

/-- The row of a failed check is evidence of nothing. -/
theorem EndsOn.evidenced {env : Env} {fromLevel : VerificationLevel} {found after : Db}
    (h : EndsOn env fromLevel found after) (type : VerificationType) :
    Evidenced env after type ↔ Evidenced env found type := by
  obtain ⟨failed, hrows, hfailed⟩ := h.rows
  have hpassed : passedRows after type = passedRows found type := by
    rw [passedRows, passedRows, hrows, List.filter_append, h.catalogAgentId]
    simp [hfailed]
  rw [Evidenced, Evidenced, hpassed]

/-! ## The level after a run -/

/-- What entitles an agent to a level after a run from `before` to `after`. -/
def Deserved (env : Env) (outcomes : Outcomes) (before after : Db) (level : VerificationLevel) :
    Prop :=
  PassedUpTo outcomes before.agent level ∨
    levelIndex level ≤ levelIndex before.agent.level ∧
      ∃ type, levelOf type = level ∧ Evidenced env after type

/-- The run completes at the highest level that the agent deserves. -/
def EndsHighest (env : Env) (outcomes : Outcomes) (before : Db) : Prop :=
  ∃ after, verify env outcomes before = some after ∧
    Deserved env outcomes before after after.agent.level ∧
    ∀ level, Deserved env outcomes before after level →
      levelIndex level ≤ levelIndex after.agent.level

/-- A type of evidence from which a failing run takes the right level: one of a level that is not
below the last stage that passed and not above the level the agent had, whose latest passed row has
not expired, while no level between it and the one the agent had has an unexpired row. -/
def Carries (env : Env) (outcomes : Outcomes) (before : Db) (type : VerificationType) : Prop :=
  levelIndex (lastPassed outcomes before.agent) ≤ levelIndex (levelOf type) ∧
    levelIndex (levelOf type) ≤ levelIndex before.agent.level ∧
    LatestStands env (seen outcomes before) type ∧
    ∀ higher, levelIndex (levelOf type) < levelIndex (levelOf higher) →
      levelIndex (levelOf higher) ≤ levelIndex before.agent.level →
        ¬ Evidenced env (seen outcomes before) higher

theorem degrade_supported (env : Env) (current : VerificationLevel) (db : Db) :
    degradeLevelToSupported env current db = .discovered ∨
      ∃ type, degradeLevelToSupported env current db = levelOf type ∧
        levelIndex (levelOf type) ≤ levelIndex current ∧ LatestStands env db type := by
  have hcases := @highestSupportedLevel_supported env current (latestPassed db)
  rcases hcases with hlowest | ⟨type, htype, hsupports⟩
  · exact .inl hlowest
  · exact .inr ⟨type, htype, supports_iff.mp hsupports⟩

theorem le_degrade {env : Env} {current : VerificationLevel} {db : Db} {type : VerificationType}
    (hlevel : levelIndex (levelOf type) ≤ levelIndex current) (h : LatestStands env db type) :
    levelIndex (levelOf type) ≤ levelIndex (degradeLevelToSupported env current db) :=
  le_highestSupportedLevel (supports_iff.mpr ⟨hlevel, h⟩)

theorem lastPassed_pos (outcomes : Outcomes) (agent : Agent) :
    levelIndex .discovered < levelIndex (lastPassed outcomes agent) := by
  have hle : levelIndex .profileValid ≤ levelIndex (lastPassed outcomes agent) :=
    passedUpTo_iff.mp trivial
  exact Nat.lt_of_lt_of_le (by decide) hle

/-- A run that fails where it should leaves the highest level deserved. -/
theorem EndsOn.highest {env : Env} {outcomes : Outcomes} {before after : Db}
    {type : VerificationType} (hends : EndsOn env before.agent.level (seen outcomes before) after)
    (h : Carries env outcomes before type) :
    Deserved env outcomes before after after.agent.level ∧
      ∀ level, Deserved env outcomes before after level →
        levelIndex level ≤ levelIndex after.agent.level := by
  obtain ⟨hlast, hold, hlatest, hhigher⟩ := h
  have hle := le_degrade hold hlatest
  have hlevel : after.agent.level = levelOf type := by
    rw [hends.level]
    rcases degrade_supported env before.agent.level (seen outcomes before) with
      hlowest | ⟨type', htype', hold', hlatest'⟩
    · rw [hlowest] at hle
      have hpos := lastPassed_pos outcomes before.agent
      omega
    · rw [htype'] at hle ⊢
      by_cases hlt : levelIndex (levelOf type) < levelIndex (levelOf type')
      · exact absurd hlatest'.evidenced (hhigher type' hlt hold')
      · exact levelIndex_inj (by omega)
  rw [hlevel]
  refine ⟨.inr ⟨hold, type, rfl, (hends.evidenced type).mpr hlatest.evidenced⟩, ?_⟩
  rintro level (hpassed | ⟨hlevelOld, type', htype', hevidenced⟩)
  · exact Nat.le_trans (passedUpTo_iff.mp hpassed) hlast
  · -- a higher one would be evidence that the condition excludes
    subst htype'
    apply Nat.le_of_not_lt
    intro hlt
    exact hhigher type' hlt hlevelOld ((hends.evidenced type').mp hevidenced)

theorem EndsOn.carries {env : Env} {outcomes : Outcomes} {before after : Db}
    (hends : EndsOn env before.agent.level (seen outcomes before) after)
    (hhighest : ∀ level, Deserved env outcomes before after level →
      levelIndex level ≤ levelIndex after.agent.level) :
    ∃ type, Carries env outcomes before type := by
  have hlast := hhighest _ (.inl (passedUpTo_iff.mpr (Nat.le_refl _)))
  have hpos := lastPassed_pos outcomes before.agent
  rcases degrade_supported env before.agent.level (seen outcomes before) with
    hlowest | ⟨type, htype, hold, hlatest⟩
  · rw [hends.level, hlowest] at hlast
    omega
  · rw [hends.level, htype] at hlast
    refine ⟨type, hlast, hold, hlatest, ?_⟩
    intro higher hlt hle hevidenced
    have habove := hhighest _ (.inr ⟨hle, higher, rfl, (hends.evidenced higher).mpr hevidenced⟩)
    rw [hends.level, htype] at habove
    omega

theorem ends_highest_iff (env : Env) (outcomes : Outcomes) (before : Db) :
    EndsHighest env outcomes before ↔
      PassedUpTo outcomes before.agent .commerceVerified ∨
        ∃ type, Carries env outcomes before type := by
  by_cases hpasses : PassedUpTo outcomes before.agent .commerceVerified
  · obtain ⟨after, hverify, hlevel⟩ := verify_passes env hpasses
    refine iff_of_true ⟨after, hverify, .inl (hlevel ▸ hpasses), ?_⟩ (.inl hpasses)
    intro level _
    rw [hlevel]
    cases level <;> decide
  · rw [or_iff_right hpasses]
    have hfails : lastPassed outcomes before.agent ≠ .commerceVerified := by
      intro hlast
      exact hpasses (passedUpTo_iff.mpr (by rw [hlast]))
    obtain ⟨after, hverify, hends⟩ := verify_fails env hfails
    constructor
    · rintro ⟨after', hverify', -, hhighest⟩
      rw [hverify] at hverify'
      cases hverify'
      exact hends.carries hhighest
    · rintro ⟨type, hcarries⟩
      exact ⟨after, hverify, hends.highest hcarries⟩

/-! ## The first run of an agent -/

def sampleEnv : Env where
  parseIsoTs _ := none
  now := 0
  nowIso := "2026-08-10T12:00:00+00:00"
  failedExpiresAt := "2026-08-11T12:00:00+00:00"

def evidence (passed : Bool) : Evidence :=
  ⟨passed, "2026-08-10T12:00:00+00:00", "2026-08-11T12:00:00+00:00"⟩

/-- The domain is proved and the identity is not. -/
def identityFails : Outcomes := ⟨evidence true, evidence false, evidence false⟩

def newAgent : Db where
  agent := ⟨"cagt_a", .discovered, .fresh, .selfRegistered, "", ""⟩
  rows := []

/-- The stage that fails takes the level that the stage before it has just proved. -/
theorem failed_identity_costs_domain :
    ¬ EndsHighest sampleEnv identityFails newAgent := by
  rintro ⟨after, hverify, -, hhighest⟩
  obtain ⟨after', hverify', hends⟩ := verify_fails sampleEnv
    (show lastPassed identityFails newAgent.agent ≠ .commerceVerified by decide)
  rw [hverify] at hverify'
  cases hverify'
  obtain ⟨type, hlast, hold, -, -⟩ := hends.carries hhighest
  have hlevels : ¬ levelIndex (lastPassed identityFails newAgent.agent) ≤
      levelIndex newAgent.agent.level := by decide
  exact hlevels (Nat.le_trans hlast hold)

end KiwiCatalog.Trust.Ladder
