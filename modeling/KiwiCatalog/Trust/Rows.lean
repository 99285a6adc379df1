import Mathlib.Data.List.Basic

/-!
# Trust rows — one catalog agent and what was derived for it

The rows that the trust of an agent rests on, each stamped with the tenure of the canonical domain
under which it was obtained.  A tenure ends when the stored domain changes; the code does not keep
it.
-/

set_option autoImplicit false

namespace KiwiCatalog.Trust

/-! ## URLs -/

structure SplitUrl where
  scheme : String
  hostname : Option String
  deriving DecidableEq, Repr

/-- `urllib.parse.urlparse`, where `none` is its `ValueError`, and the stable address under which
the catalog itself serves the agent's card. -/
structure Web where
  urlparse : String → Option SplitUrl
  cloudCardUrl : String

def isHttpUrl (web : Web) (value : String) : Bool :=
  value ≠ "" && match web.urlparse value with
    | some ⟨scheme, some hostname⟩ =>
      (scheme = "http" || scheme = "https") && hostname ≠ ""
    | _ => false

/-- `none` is the `ProfileValidationError`. -/
def canonicalDomainOf (web : Web) (url : String) : Option String :=
  match web.urlparse url with
  | some ⟨_, some hostname⟩ => if hostname = "" then none else some hostname.toLower
  | _ => none

/-- `host.lower().rstrip(".")`. -/
def normalizeHost (host : String) : List Char :=
  (host.toLower.toList.reverse.dropWhile (· = '.')).reverse

def isSameAuthority (host canonical : String) : Bool :=
  normalizeHost host = normalizeHost canonical ||
    ('.' :: normalizeHost canonical).isSuffixOf (normalizeHost host)

/-- The check that `_load_profiles` and `_domain_control_evidence` make of a declared URL, and the
one by which the registration reset keeps an endpoint. -/
def isUnder (web : Web) (url domain : String) : Bool :=
  isHttpUrl web url && match canonicalDomainOf web url with
    | some host => isSameAuthority host domain
    | none => false

/-! ## Rows -/

inductive SourceType
  | hosted
  | selfRegistered
  | discovered
  | imported
  | adminCurated
  deriving DecidableEq, Repr

inductive LifecycleStatus
  | active
  | inactive
  | deprecated
  deriving DecidableEq, Repr

inductive HostingMode
  | direct
  | hosted
  | hybrid
  | unknown
  deriving DecidableEq, Repr

inductive AdministrativeState
  | active
  | suspended
  | rejected
  deriving DecidableEq, Repr

/-- The columns of `catalog_agents` that `_begin_verified_persistence` compares. -/
structure CatalogAgent where
  canonicalDomain : String
  merchantId : String
  hostedRuntimeAgentId : String
  sourceType : SourceType
  hostingMode : HostingMode
  lifecycleStatus : LifecycleStatus
  administrativeState : AdministrativeState
  deriving DecidableEq, Repr

inductive ProfileType
  | agentCard
  | ucp
  deriving DecidableEq, Repr

structure ProfileSnapshot where
  profileType : ProfileType
  sourceUrl : String
  rawJson : String
  deriving DecidableEq, Repr

structure Capability where
  namespaceId : String
  capabilityId : String
  deriving DecidableEq, Repr

structure Skill where
  skillId : String
  name : String
  description : String
  tagsJson : String
  deriving DecidableEq, Repr

inductive EndpointKind
  | a2a
  | agentCard
  | ucpProfile
  | hostedGateway
  deriving DecidableEq, Repr

/-- `kind in ("agent_card", "ucp_profile")`. -/
def EndpointKind.isProfile : EndpointKind → Bool
  | .agentCard | .ucpProfile => true
  | .a2a | .hostedGateway => false

structure Endpoint where
  kind : EndpointKind
  url : String
  deriving DecidableEq, Repr

def Endpoint.isA2a (e : Endpoint) : Bool := e.kind = .a2a

/-- The card row that `sync_cloud_endpoints` manages. -/
def Endpoint.isCloudCard (web : Web) (e : Endpoint) : Bool :=
  e.kind = .agentCard && e.url = web.cloudCardUrl

inductive VerificationType
  | domainControl
  | agentIdentity
  | commerceCapability
  deriving DecidableEq, Repr

structure Verification where
  verificationType : VerificationType
  passed : Bool
  deriving DecidableEq, Repr

/-- `card_publications.publication_state`. -/
inductive PublicationState
  | active
  | paused
  | withdrawn
  deriving DecidableEq, Repr

/-- A row with the tenure of the domain it was derived from. -/
structure Stamped (α : Type) where
  row : α
  tenure : Nat
  deriving DecidableEq, Repr

/-- What the database holds for one agent. -/
structure AgentRecord where
  agent : CatalogAgent
  snapshots : List (Stamped ProfileSnapshot)
  capabilities : List (Stamped Capability)
  skills : List (Stamped Skill)
  verifications : List (Stamped Verification)
  endpoints : List (Stamped Endpoint)
  -- the A2A address of the active runtime binding
  activeBinding : Option String
  publication : Option PublicationState
  -- not stored: how often the canonical domain has changed
  tenure : Nat

namespace AgentRecord

def stamp {α : Type} (r : AgentRecord) (row : α) : Stamped α := ⟨row, r.tenure⟩

/-- Writing `canonical_domain` begins a new tenure when it changes the value. -/
def setDomain (r : AgentRecord) (domain : String) : AgentRecord :=
  { r with
    agent := { r.agent with canonicalDomain := domain }
    tenure := if domain = r.agent.canonicalDomain then r.tenure else r.tenure + 1 }

end AgentRecord

/-! ## Statements -/

/-- `upsert_profile_endpoints` for one endpoint: the first row of the kind takes the URL. -/
def upsertEndpoint (e : Stamped Endpoint) : List (Stamped Endpoint) → List (Stamped Endpoint)
  | [] => [e]
  | r :: rest => if r.row.kind = e.row.kind then e :: rest else r :: upsertEndpoint e rest

def deleteEndpoints (p : Endpoint → Bool) (endpoints : List (Stamped Endpoint)) :
    List (Stamped Endpoint) :=
  endpoints.filter fun e => !p e.row

theorem mem_upsertEndpoint {e r : Stamped Endpoint} {endpoints : List (Stamped Endpoint)}
    (h : r ∈ upsertEndpoint e endpoints) : r = e ∨ r ∈ endpoints := by
  induction endpoints with
  | nil => exact .inl (List.mem_singleton.mp h)
  | cons r' rest ih =>
    unfold upsertEndpoint at h
    split at h
    · rcases List.mem_cons.mp h with rfl | h
      · exact .inl rfl
      · exact .inr (List.mem_cons_of_mem _ h)
    · rcases List.mem_cons.mp h with rfl | h
      · exact .inr List.mem_cons_self
      · exact (ih h).imp id (List.mem_cons_of_mem _)

theorem mem_deleteEndpoints {p : Endpoint → Bool} {r : Stamped Endpoint}
    {endpoints : List (Stamped Endpoint)} :
    r ∈ deleteEndpoints p endpoints ↔ r ∈ endpoints ∧ p r.row = false := by
  simp [deleteEndpoints]

end KiwiCatalog.Trust
