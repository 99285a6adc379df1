import KiwiCatalog.Catalog.Payload
import KiwiCatalog.Catalog.StateDomains
import KiwiCatalog.Lib.Checks
import Mathlib.Logic.Function.Basic

/-!
# Agent writers — the statements that write `catalog_agents`

The state columns are checked by the table, the others are kept by their names.  A writer that
raises leaves the table to the rollback of its transaction.
-/

set_option autoImplicit false

namespace KiwiCatalog.Catalog

open Trust (AdministrativeState)
open Checks

/-! ## The texts of the state columns -/

def VerificationLevel.text : VerificationLevel → String
  | .discovered => "discovered"
  | .profileValid => "profile_valid"
  | .domainVerified => "domain_verified"
  | .agentVerified => "agent_verified"
  | .commerceVerified => "commerce_verified"

def VerificationLevel.ofText? : String → Option VerificationLevel
  | "discovered" => some .discovered
  | "profile_valid" => some .profileValid
  | "domain_verified" => some .domainVerified
  | "agent_verified" => some .agentVerified
  | "commerce_verified" => some .commerceVerified
  | _ => none

def FreshnessState.text : FreshnessState → String
  | .fresh => "fresh"
  | .stale => "stale"
  | .unreachable => "unreachable"

def FreshnessState.ofText? : String → Option FreshnessState
  | "fresh" => some .fresh
  | "stale" => some .stale
  | "unreachable" => some .unreachable
  | _ => none

def administrativeText : AdministrativeState → String
  | .active => "active"
  | .suspended => "suspended"
  | .rejected => "rejected"

def administrativeOfText? : String → Option AdministrativeState
  | "active" => some .active
  | "suspended" => some .suspended
  | "rejected" => some .rejected
  | _ => none

def VerificationStatus.text : VerificationStatus → String
  | .level value => value.text
  | .stale => "stale"
  | .unreachable => "unreachable"
  | .suspended => "suspended"
  | .rejected => "rejected"

def VerificationStatus.ofText? : String → Option VerificationStatus
  | "stale" => some .stale
  | "unreachable" => some .unreachable
  | "suspended" => some .suspended
  | "rejected" => some .rejected
  | text => (VerificationLevel.ofText? text).map VerificationStatus.level

/-- `fold_verification_status`, of any texts. -/
def foldText (level freshness administrative : String) : String :=
  if administrative = "rejected" then "rejected"
  else if administrative = "suspended" then "suspended"
  else if freshness = "unreachable" then "unreachable"
  else if freshness = "stale" then "stale"
  else level

/-- `_domains_for_legacy_status`, of any value. -/
def domainsForLegacyValue : Value → Domains
  | .text status =>
    match VerificationStatus.ofText? status with
    | some status => domainsForLegacyStatus status
    | none => ⟨.discovered, .fresh, .active⟩
  | _ => ⟨.discovered, .fresh, .active⟩

/-! ## Keyword arguments -/

/-- `fields.get(key)` where it is not `None`. -/
def given? (fields : Dict) (key : String) : Option Value :=
  match fields.get? key with
  | some .null => none
  | value => value

/-- `key in fields`. -/
def has (fields : Dict) (key : String) : Bool := (fields.get? key).isSome

/-- `fields.setdefault(key, value)`. -/
def setDefault (key : String) (value : Value) (fields : Dict) : Dict :=
  if has fields key then fields else fields.set key value

/-- `str(fields.get(key) or "")`. -/
def strOrEmpty (fields : Dict) (key : String) : String :=
  match fields.get? key with
  | none | some .null | some (.bool false) | some (.int 0) => ""
  -- the empty containers and zero are false as well
  | some (.other str) => if str ∈ ["[]", "{}", "0.0", "-0.0"] then "" else str
  | some value => value.str

/-! ## The table -/

structure AgentRow where
  verificationStatus : VerificationStatus
  domains : Domains
  -- the columns besides the four of the state
  columns : String → Value

abbrev AgentTable := String → Option AgentRow

inductive WriteError
  | notFound (message : String)
  | validation (message : String)
  | integrity (what : String)
  deriving DecidableEq, Repr

/-- The constraints on the other columns (their CHECKs, the unique indexes) and `json.dumps`. -/
structure Database where
  accepts : AgentTable → String → (String → Value) → Bool
  dumps : List String → String

def requireCatalogAgent (table : AgentTable) (catalogAgentId : String) :
    Except WriteError AgentRow :=
  require (table catalogAgentId) (.notFound ("Unknown catalog agent: " ++ catalogAgentId))

/-- Stores the row unless a constraint refuses it. -/
def storeRow (db : Database) (catalogAgentId : String) (row : AgentRow) (table : AgentTable) :
    Except WriteError AgentTable :=
  if db.accepts table catalogAgentId row.columns then
    .ok (Function.update table catalogAgentId (some row))
  else .error (.integrity "constraint failed: catalog_agents")

/-- What a state column holds after the update; `none` is refused by its CHECK. -/
def stateColumn {α : Type} (ofText? : String → Option α) (fields : Dict) (column : String)
    (old : α) : Option α :=
  match given? fields column with
  | none => some old
  | some (.text text) => ofText? text
  | some _ => none

/-- `allowed`, without the state columns. -/
def otherColumns : List String :=
  ["merchant_id", "hosted_runtime_agent_id", "display_name", "provider_name", "canonical_domain",
    "agent_type", "source_type", "lifecycle_status", "hosting_mode", "handoff_destination_types",
    "last_refresh_attempt_at", "last_refresh_result", "last_seen_at", "last_verified_at"]

def stateColumns : List String :=
  ["verification_status", "verification_level", "freshness_state", "administrative_state"]

/-! ## `_update_catalog_agent` -/

/-- The state fields that the update derives from those it was given. -/
def deriveState (fields : Dict) : Dict :=
  match given? fields "verification_status" with
  | some status =>
    -- the domains that the caller passes are respected
    let derived := domainsForLegacyValue status
    setDefault "administrative_state" (.text (administrativeText derived.administrative))
      (setDefault "freshness_state" (.text derived.freshness.text)
        (setDefault "verification_level" (.text derived.level.text) fields))
  | none =>
    if has fields "verification_level" || has fields "freshness_state" ||
        has fields "administrative_state" then
      -- the fold of what was passed, not of what the row will hold
      fields.set "verification_status"
        (.text (foldText (strOrEmpty fields "verification_level")
          (strOrEmpty fields "freshness_state") (strOrEmpty fields "administrative_state")))
    else fields

def stampVerified (now : String) (fields : Dict) : Dict :=
  if fields.get? "verification_status" = some (.text "commerce_verified") ∧
      given? fields "last_verified_at" = none then
    fields.set "last_verified_at" (.text now)
  else fields

def writeOthers (now : String) (fields : Dict) (columns : String → Value) : String → Value :=
  Function.update
    (fun column =>
      if column ∈ otherColumns then (given? fields column).getD (columns column)
      else columns column)
    "updated_at" (.text now)

def updateCatalogAgent (db : Database) (now catalogAgentId : String) (fields : Dict)
    (table : AgentTable) : Except WriteError AgentTable :=
  match table catalogAgentId with
  | none => .error (.notFound ("Unknown catalog agent: " ++ catalogAgentId))
  | some row =>
    let fields := stampVerified now (deriveState fields)
    if (stateColumns ++ otherColumns).all (fun column => (given? fields column).isNone) then
      .ok table
    else
      match stateColumn VerificationStatus.ofText? fields "verification_status"
          row.verificationStatus,
        stateColumn VerificationLevel.ofText? fields "verification_level" row.domains.level,
        stateColumn FreshnessState.ofText? fields "freshness_state" row.domains.freshness,
        stateColumn administrativeOfText? fields "administrative_state"
          row.domains.administrative with
      | some status, some level, some freshness, some administrative =>
        storeRow db catalogAgentId
          ⟨status, ⟨level, freshness, administrative⟩, writeOthers now fields row.columns⟩ table
      | _, _, _, _ => .error (.integrity "CHECK constraint failed")

/-! ## The writers over it -/

/-- The arguments of `upsert_catalog_agent`, with its defaults. -/
structure AgentArgs where
  merchantId : String := ""
  hostedRuntimeAgentId : String := ""
  displayName : String := ""
  providerName : String := ""
  canonicalDomain : String := ""
  agentType : String := ""
  sourceType : String := "hosted"
  lifecycleStatus : String := "active"
  verificationStatus : String := "discovered"
  hostingMode : String := "unknown"

/-- The columns of a new row. -/
def AgentArgs.columns (args : AgentArgs) (now : String) : String → Value
  -- an empty reference becomes a null
  | "merchant_id" => if args.merchantId = "" then .null else .text args.merchantId
  | "hosted_runtime_agent_id" =>
    if args.hostedRuntimeAgentId = "" then .null else .text args.hostedRuntimeAgentId
  | "display_name" => .text args.displayName
  | "provider_name" => .text args.providerName
  | "canonical_domain" => .text args.canonicalDomain
  | "agent_type" => .text args.agentType
  | "source_type" => .text args.sourceType
  | "lifecycle_status" => .text args.lifecycleStatus
  | "hosting_mode" => .text args.hostingMode
  | "handoff_destination_types" => .text "[]"
  | "last_refresh_attempt_at" | "last_refresh_result" => .text ""
  | "first_seen_at" | "last_seen_at" | "created_at" | "updated_at" => .text now
  | "last_verified_at" =>
    if args.verificationStatus = "commerce_verified" then .text now else .text ""
  | _ => .null

def insertCatalogAgent (db : Database) (now catalogAgentId : String) (args : AgentArgs)
    (table : AgentTable) : Except WriteError AgentTable :=
  match table catalogAgentId, VerificationStatus.ofText? args.verificationStatus with
  | none, some status =>
    storeRow db catalogAgentId
      ⟨status, domainsForLegacyValue (.text args.verificationStatus), args.columns now⟩ table
  | some _, _ => .error (.integrity "UNIQUE constraint failed: catalog_agents.catalog_agent_id")
  | _, none => .error (.integrity "CHECK constraint failed")

/-- The keyword arguments of the update of an upsert. -/
def AgentArgs.fields (args : AgentArgs) (now : String) : Dict :=
  [("merchant_id", .text args.merchantId),
    ("hosted_runtime_agent_id", .text args.hostedRuntimeAgentId),
    ("display_name", .text args.displayName), ("provider_name", .text args.providerName),
    ("canonical_domain", .text args.canonicalDomain), ("agent_type", .text args.agentType),
    ("source_type", .text args.sourceType), ("lifecycle_status", .text args.lifecycleStatus),
    ("verification_status", .text args.verificationStatus),
    ("hosting_mode", .text args.hostingMode), ("last_seen_at", .text now)]

def upsertCatalogAgent (db : Database) (now catalogAgentId : String) (args : AgentArgs)
    (table : AgentTable) : Except WriteError AgentTable :=
  match table catalogAgentId with
  | none => insertCatalogAgent db now catalogAgentId args table
  | some _ => updateCatalogAgent db now catalogAgentId (args.fields now) table

/-- The arguments of `set_state_domains`; `none` is `None`. -/
structure StateArgs where
  verificationLevel : Option String := none
  freshnessState : Option String := none
  administrativeState : Option String := none
  handoffDestinationTypes : Option (List String) := none
  lastVerifiedAt : Option String := none
  lastRefreshAttemptAt : Option String := none
  lastRefreshResult : Option String := none

/-- A domain of `set_state_domains`: the argument if there is one, else what is stored. -/
def chosen {α : Type} (what : String) (ofText? : String → Option α) (stored : α) :
    Option String → Except WriteError α
  | none => .ok stored
  | some text =>
    require (ofText? text)
      (.validation ("invalid " ++ what ++ ": " ++ (Value.text text).repr))

def optionalField (key : String) : Option String → Dict
  | none => []
  | some text => [(key, .text text)]

/-- The keyword arguments that `set_state_domains` passes on. -/
def StateArgs.fields (db : Database) (args : StateArgs) (domains : Domains) : Dict :=
  [("verification_level", .text domains.level.text),
    ("freshness_state", .text domains.freshness.text),
    ("administrative_state", .text (administrativeText domains.administrative)),
    ("verification_status", .text (foldText domains.level.text domains.freshness.text
      (administrativeText domains.administrative)))] ++
  optionalField "handoff_destination_types" (args.handoffDestinationTypes.map db.dumps) ++
  optionalField "last_verified_at" args.lastVerifiedAt ++
  optionalField "last_refresh_attempt_at" args.lastRefreshAttemptAt ++
  optionalField "last_refresh_result" args.lastRefreshResult

/-- The check of the destination types: texts that are not empty. -/
def checkDestinations (types : Option (List String)) : Except WriteError Unit :=
  check ((types.getD []).all (fun value => value ≠ ""))
    (.validation "invalid handoff_destination_types entry: ''")

def setStateDomains (db : Database) (now catalogAgentId : String) (args : StateArgs)
    (table : AgentTable) : Except WriteError AgentTable := do
  let current ← requireCatalogAgent table catalogAgentId
  let level ← chosen "verification_level" VerificationLevel.ofText? current.domains.level
    args.verificationLevel
  let freshness ← chosen "freshness_state" FreshnessState.ofText? current.domains.freshness
    args.freshnessState
  let administrative ← chosen "administrative_state" administrativeOfText?
    current.domains.administrative args.administrativeState
  checkDestinations args.handoffDestinationTypes
  updateCatalogAgent db now catalogAgentId (args.fields db ⟨level, freshness, administrative⟩) table

def setVerificationStatus (db : Database) (now catalogAgentId status : String)
    (lastVerifiedAt : Option String) (table : AgentTable) : Except WriteError AgentTable :=
  let derived := domainsForLegacyValue (.text status)
  setStateDomains db now catalogAgentId
    { verificationLevel := some derived.level.text
      freshnessState := some derived.freshness.text
      administrativeState := some (administrativeText derived.administrative)
      lastVerifiedAt := lastVerifiedAt } table

/-- The first statement of `touch_catalog_agent`. -/
def seenAt (now : String) (row : AgentRow) : AgentRow :=
  { row with
    columns := Function.update (Function.update row.columns "last_seen_at" (.text now))
      "updated_at" (.text now) }

def touchCatalogAgent (db : Database) (now catalogAgentId : String) (table : AgentTable) :
    Except WriteError AgentTable := do
  let current ← requireCatalogAgent table catalogAgentId
  let seen ← storeRow db catalogAgentId (seenAt now current) table
  -- a heartbeat revives the freshness of an agent in good standing
  if current.domains.administrative = .active ∧ current.domains.freshness ≠ .fresh then
    setStateDomains db now catalogAgentId { freshnessState := some "fresh" } seen
  else .ok seen

def setCatalogAgentMerchant (db : Database) (now catalogAgentId merchantId : String)
    (table : AgentTable) : Except WriteError AgentTable :=
  updateCatalogAgent db now catalogAgentId [("merchant_id", .text merchantId)] table

/-! ## Registration -/

def handoffDestinationTypes : List String :=
  ["ucp_checkout", "ucp_order", "external_checkout_url", "merchant_checkout_session",
    "platform_deep_link", "buyer_erp_request", "procurement_request", "purchase_order_draft",
    "quote_document", "merchant_contact", "sales_handoff"]

/-- `update catalog_agents set administrative_state = 'active' where …`. -/
def reopen (catalogAgentId : String) (table : AgentTable) : AgentTable :=
  match table catalogAgentId with
  | none => table
  | some row =>
    Function.update table catalogAgentId
      (some { row with domains := { row.domains with administrative := .active } })

/-- The vocabulary check of a registration. -/
def checkVocabulary (types : List String) : Except WriteError Unit :=
  check (types.all (fun value => value ∈ handoffDestinationTypes))
    (.validation "invalid handoff_destination_types (must be KTH destination_type values)")

/-- What `register_catalog_agent` writes into the row: it is discovered again and, whatever it was
before, in good standing. -/
def registerCatalogAgent (db : Database) (now catalogAgentId : String) (args : AgentArgs)
    (types : List String) (table : AgentTable) : Except WriteError AgentTable := do
  let written ← upsertCatalogAgent db now catalogAgentId
    { args with verificationStatus := "discovered" } table
  let reopened := reopen catalogAgentId written
  if types = [] then .ok reopened
  else
    checkVocabulary types
    setStateDomains db now catalogAgentId { handoffDestinationTypes := some types } reopened

/-! ## Any writer -/

inductive WriterCall
  | insert (args : AgentArgs)
  | update (fields : Dict)
  | upsert (args : AgentArgs)
  | setVerificationStatus (status : String) (lastVerifiedAt : Option String)
  | touch
  | setStateDomains (args : StateArgs)
  | setMerchant (merchantId : String)
  | register (args : AgentArgs) (types : List String)

def WriterCall.perform (db : Database) (now catalogAgentId : String) (table : AgentTable) :
    WriterCall → Except WriteError AgentTable
  | .insert args => insertCatalogAgent db now catalogAgentId args table
  | .update fields => updateCatalogAgent db now catalogAgentId fields table
  | .upsert args => upsertCatalogAgent db now catalogAgentId args table
  | .setVerificationStatus status lastVerifiedAt =>
    Catalog.setVerificationStatus db now catalogAgentId status lastVerifiedAt table
  | .touch => touchCatalogAgent db now catalogAgentId table
  | .setStateDomains args => Catalog.setStateDomains db now catalogAgentId args table
  | .setMerchant merchantId => setCatalogAgentMerchant db now catalogAgentId merchantId table
  | .register args types => registerCatalogAgent db now catalogAgentId args types table

end KiwiCatalog.Catalog
