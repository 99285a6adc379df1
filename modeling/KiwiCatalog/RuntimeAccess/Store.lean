import KiwiCatalog.Binding.StoreInvariant
import KiwiCatalog.Catalog.StateDomains

/-!
# Access store — managed access configurations, consents and what stands beside them

The tables that the distribution of runtime secrets reads, with the operations on the
configurations.  `revoked_at` and `unfollowed` columns are kept as booleans, times as numbers.
-/

set_option autoImplicit false

namespace KiwiCatalog.RuntimeAccess

open Binding (RuntimeBinding rowsOf)
open Trust (AdministrativeState LifecycleStatus)
open Catalog (FreshnessState)

/-- The custody switch, the Fernet keys and the endpoint check of a deployment. -/
structure Env where
  custodyEnabled : Bool
  -- ciphertext and key id
  encryptSecret : String → String × String
  decryptSecret : String → String → Option String
  safeEndpoint : String → Bool

def consentTermsVersion : String := "workbuddy-share-v1-2026-10-27"

/-! ## Rows -/

inductive ConfigStatus
  | pending
  | active
  | invalid
  | revoked
  deriving DecidableEq, Repr

structure AccessConfig where
  catalogAgentId : String
  configVersion : Nat
  secretCiphertext : String
  keyId : String
  status : ConfigStatus
  revokedReason : String
  deriving DecidableEq, Repr

structure CustodyConsent where
  merchantId : String
  termsVersion : String
  revoked : Bool
  deriving DecidableEq, Repr

structure KeepaliveConsent where
  merchantId : String
  termsVersion : String
  revoked : Bool
  -- none is the empty text
  lastAttemptAt : Option Nat
  deriving DecidableEq, Repr

structure InquiryConsent where
  merchantId : String
  bindingId : String
  termsVersion : String
  revoked : Bool
  deriving DecidableEq, Repr

structure AgentRow where
  catalogAgentId : String
  merchantId : String
  administrativeState : AdministrativeState
  lifecycleStatus : LifecycleStatus
  freshnessState : FreshnessState
  lastSeenAt : Option Nat
  deriving DecidableEq, Repr

inductive PublicationState
  | active
  | paused
  | withdrawn
  deriving DecidableEq, Repr

/-- `expires_at`: empty, an instant, or a text that is no instant with an offset. -/
inductive Expiry
  | never
  | at (time : Nat)
  | unreadable
  deriving DecidableEq, Repr

def Expiry.valid (now : Nat) : Expiry → Bool
  | .never => true
  | .at time => now < time
  | .unreadable => false

/-- The tables that the operations on bindings and configurations only read. -/
structure Surroundings where
  agents : List AgentRow
  -- whether the follow of a buyer and a merchant is active
  follows : String → String → Option Bool
  publications : String → Option PublicationState
  keepaliveConsents : String → Option KeepaliveConsent
  inquiryConsents : String → Option InquiryConsent

structure AccessTables where
  configs : List AccessConfig
  consents : String → Option CustodyConsent

structure Db where
  bindings : List RuntimeBinding
  -- by binding id
  expiresAt : String → Expiry
  access : AccessTables
  around : Surroundings

/-! ## Statements -/

def agentRow (db : Db) (agentId : String) : Option AgentRow :=
  db.around.agents.find? fun a => a.catalogAgentId = agentId

def configsOf (access : AccessTables) (agentId : String) : List AccessConfig :=
  access.configs.filter fun c => c.catalogAgentId = agentId

def headVersion (access : AccessTables) (agentId : String) : Nat :=
  (configsOf access agentId).foldr (fun c v => max c.configVersion v) 0

def configRow (access : AccessTables) (agentId : String) (version : Nat) : Option AccessConfig :=
  (configsOf access agentId).find? fun c => c.configVersion = version

def activeRuntimeAccess (access : AccessTables) (agentId : String) : Option AccessConfig :=
  (configsOf access agentId).find? fun c => c.status = .active

def CustodyConsent.current (c : CustodyConsent) : Bool :=
  !c.revoked && c.termsVersion = consentTermsVersion

def activeConsent (access : AccessTables) (agentId : String) : Option CustodyConsent :=
  (access.consents agentId).filter CustodyConsent.current

namespace AccessTables

def updateConfigs (access : AccessTables) (agentId : String) (p : AccessConfig → Bool)
    (f : AccessConfig → AccessConfig) : AccessTables :=
  { access with
    configs := Table.updateWhere (fun c => c.catalogAgentId = agentId && p c) f access.configs }

def invalidatePending (access : AccessTables) (agentId : String) : AccessTables :=
  access.updateConfigs agentId (fun c => c.status = .pending) fun c => { c with status := .invalid }

def revokeActive (access : AccessTables) (agentId reason : String) : AccessTables :=
  access.updateConfigs agentId (fun c => c.status = .active)
    fun c => { c with status := .revoked, revokedReason := reason }

/-- Sets the status of one pending version. -/
def decidePending (access : AccessTables) (agentId : String) (version : Nat)
    (status : ConfigStatus) : AccessTables :=
  access.updateConfigs agentId (fun c => c.configVersion = version && c.status = .pending)
    fun c => { c with status := status }

def recordConsent (access : AccessTables) (agentId merchantId : String) : AccessTables :=
  { access with
    consents := fun id =>
      if id = agentId then some ⟨merchantId, consentTermsVersion, false⟩ else access.consents id }

/-- Withdraws the consent and clears every ciphertext of the agent. -/
def revokeConsent (access : AccessTables) (agentId : String) : AccessTables :=
  let withdrawn (c : CustodyConsent) : CustodyConsent := { c with revoked := true }
  let access : AccessTables := { access with
    consents := fun id =>
      if id = agentId then (access.consents id).map withdrawn else access.consents id }
  access.updateConfigs agentId (fun _ => true) fun c => { c with secretCiphertext := "" }

end AccessTables

/-! ## Operations -/

inductive AccessError
  | conflict
  | notFound
  | binding (error : Binding.BindError)
  deriving DecidableEq, Repr

def stageRuntimeAccess (env : Env) (agentId : String) (expectedVersion : Nat) (secret : String)
    (access : AccessTables) : Except AccessError AccessTables :=
  if env.custodyEnabled = false then .error .conflict
  else if expectedVersion ≠ headVersion access agentId then .error .conflict
  else
    let (ciphertext, keyId) := env.encryptSecret secret
    let row := ⟨agentId, headVersion access agentId + 1, ciphertext, keyId, .pending, ""⟩
    let access := access.invalidatePending agentId
    .ok { access with configs := access.configs ++ [row] }

/-- The checks of `activate_runtime_access`, up to the merchant that the agent's row carries. -/
def activationMerchant (env : Env) (agentId : String) (version : Nat) (access : AccessTables)
    (merchantId : Option String) : Except AccessError String :=
  if env.custodyEnabled = false then .error .conflict
  else match configRow access agentId version with
    | none => .error .notFound
    | some row =>
      if row.status ≠ .pending then .error .conflict
      else if headVersion access agentId ≠ version then .error .conflict
      else match merchantId with
        | none => .error .conflict
        | some merchantId => if merchantId = "" then .error .conflict else .ok merchantId

def activateRuntimeAccess (env : Env) (agentId : String) (version : Nat)
    (merchantId : Option String) (access : AccessTables) : Except AccessError AccessTables := do
  let merchantId ← activationMerchant env agentId version access merchantId
  let access := access.revokeActive agentId "superseded"
  let access := access.decidePending agentId version .active
  return access.recordConsent agentId merchantId

def invalidateRuntimeAccess (agentId : String) (version : Nat) (access : AccessTables) :
    Except AccessError AccessTables :=
  match configRow access agentId version with
  | none => .error .notFound
  | some row =>
    if row.status = .invalid then .ok access
    else if row.status ≠ .pending then .error .conflict
    else .ok (access.decidePending agentId version .invalid)

def revokeRuntimeAccess (agentId : String) (expectedVersion : Nat) (access : AccessTables) :
    Except AccessError AccessTables :=
  if expectedVersion ≠ headVersion access agentId then .error .conflict
  else match activeRuntimeAccess access agentId with
    | none => .error .notFound
    | some _ =>
      let access := access.invalidatePending agentId
      let access := access.revokeActive agentId "merchant_revoked"
      .ok (access.revokeConsent agentId)

/-- The statements of a transaction; each has passed the authorization of its handler. -/
inductive Write
  -- a rotation, a confirmation, an enrollment or a revocation
  | binding (op : Binding.Op) (expiry : Expiry)
  | stage (agentId : String) (expectedVersion : Nat) (secret : String)
  | activate (agentId : String) (version : Nat)
  | invalidate (agentId : String) (version : Nat)
  | revoke (agentId : String) (expectedVersion : Nat)
  -- whatever is written to the surrounding tables
  | elsewhere (around : Surroundings)

/-- A binding that is inserted gets its expiry with it. -/
def writeBinding (op : Binding.Op) (expiry : Expiry) (db : Db) : Except AccessError Db :=
  match op.apply db.bindings with
  | .error error => .error (.binding error)
  | .ok bindings =>
    .ok { db with
      bindings := bindings
      expiresAt := fun id =>
        if db.bindings.any fun b => b.bindingId = id then db.expiresAt id else expiry }

def Db.withAccess (db : Db) (access : AccessTables) : Db := { db with access := access }

def Write.apply (env : Env) (db : Db) : Write → Except AccessError Db
  | .binding op expiry => writeBinding op expiry db
  | .stage agentId expectedVersion secret =>
    (stageRuntimeAccess env agentId expectedVersion secret db.access).map db.withAccess
  | .activate agentId version =>
    (activateRuntimeAccess env agentId version ((agentRow db agentId).map AgentRow.merchantId)
      db.access).map db.withAccess
  | .invalidate agentId version =>
    (invalidateRuntimeAccess agentId version db.access).map db.withAccess
  | .revoke agentId expectedVersion =>
    (revokeRuntimeAccess agentId expectedVersion db.access).map db.withAccess
  | .elsewhere around => .ok { db with around := around }

/-- A transaction; one failing write rolls all of it back. -/
def transact (env : Env) (db : Db) (writes : List Write) : Except AccessError Db :=
  writes.foldlM (Write.apply env) db

/-! ## What a pair of origin and secret rests on -/

/-- The origin is that of the agent's active binding. -/
def OriginActive (db : Db) (agentId origin : String) : Prop :=
  ∃ b ∈ db.bindings, b.catalogAgentId = agentId ∧ b.isActive = true ∧ b.runtimeOrigin = origin

/-- The version is the agent's active configuration, and the secret is the one it holds. -/
def ConfigActive (env : Env) (db : Db) (agentId : String) (version : Nat) (secret : String) : Prop :=
  ∃ c ∈ db.access.configs, c.catalogAgentId = agentId ∧ c.status = .active ∧ c.configVersion = version ∧
    env.decryptSecret c.secretCiphertext c.keyId = some secret

def ConsentActive (db : Db) (agentId : String) : Prop := activeConsent db.access agentId ≠ none

theorem originActive_of_current {db : Db} {agentId : String} {b : RuntimeBinding}
    (h : Binding.currentActiveBinding db.bindings agentId = some b) :
    OriginActive db agentId b.runtimeOrigin := by
  have hmem := List.argmax_mem h
  have hactive := List.mem_filter.mp hmem
  have hrow := Binding.mem_rowsOf.mp hactive.1
  exact ⟨b, hrow.1, hrow.2, hactive.2, rfl⟩

theorem configActive_of_find {env : Env} {db : Db} {agentId : String} {c : AccessConfig}
    {secret : String} (h : activeRuntimeAccess db.access agentId = some c)
    (hsecret : env.decryptSecret c.secretCiphertext c.keyId = some secret) :
    ConfigActive env db agentId c.configVersion secret := by
  have hstatus := List.find?_some h
  have hmem := List.mem_filter.mp (List.mem_of_find?_eq_some h)
  exact ⟨c, hmem.1, of_decide_eq_true hmem.2, of_decide_eq_true hstatus, rfl, hsecret⟩

end KiwiCatalog.RuntimeAccess
