import KiwiCatalog.Trust.Rows

/-!
# Trust writes — the transactions that touch an agent's derived rows

Registration with its domain-change reset, the two transactions of a verification run, the
enrollment bind and the confirmation of a binding request.
-/

set_option autoImplicit false

namespace KiwiCatalog.Trust

/-- A profile as fetched and parsed, or as restored from a snapshot after a 304. -/
structure Profile where
  sourceUrl : String
  rawJson : String
  capabilities : List Capability
  skills : List Skill
  deriving DecidableEq, Repr

/-- The rows of a profile carry its tenure. -/
def Stamped.rows {α : Type} (p : Stamped Profile) (rows : Profile → List α) : List (Stamped α) :=
  (rows p.row).map fun row => ⟨row, p.tenure⟩

def Stamped.snapshot (p : Stamped Profile) (profileType : ProfileType) : Stamped ProfileSnapshot :=
  ⟨⟨profileType, p.row.sourceUrl, p.row.rawJson⟩, p.tenure⟩

/-- The `urls` of a run: one address for each profile kind. -/
structure ProfileUrls where
  agentCard : String
  ucpProfile : String
  deriving DecidableEq, Repr

/-- `register_catalog_agent`'s arguments; the domain has passed `normalize_canonical_domain`. -/
structure RegisterRequest where
  domain : String
  domain_ne : domain ≠ ""
  merchantId : String
  hostingMode : HostingMode
  capabilities : List Capability
  skills : List Skill
  agentCardUrl : String
  ucpProfileUrl : String

/-- A row that `_purge_stale_profile_endpoints` deletes. -/
def staleEndpoint (web : Web) (canonical : String) (e : Endpoint) : Bool :=
  if e.url = "" || !isHttpUrl web e.url then true
  else if e.url = web.cloudCardUrl then false
  else match canonicalDomainOf web e.url with
    | some host => !isSameAuthority host canonical
    | none => true

/-- The evidence rows that the domain, identity and commerce stages write. -/
def stageVerifications (domainPassed identityPassed commercePassed : Bool) : List Verification :=
  if !domainPassed then [⟨.domainControl, false⟩]
  else if !identityPassed then [⟨.domainControl, true⟩, ⟨.agentIdentity, false⟩]
  else [⟨.domainControl, true⟩, ⟨.agentIdentity, true⟩, ⟨.commerceCapability, commercePassed⟩]

namespace AgentRecord

def replaceCapabilities (r : AgentRecord) (rows : List (Stamped Capability)) : AgentRecord :=
  { r with capabilities := rows }

def replaceSkills (r : AgentRecord) (rows : List (Stamped Skill)) : AgentRecord :=
  { r with skills := rows }

def upsertProfileEndpoint (r : AgentRecord) (kind : EndpointKind) (url : String) (tenure : Nat) :
    AgentRecord :=
  { r with endpoints := upsertEndpoint ⟨⟨kind, url⟩, tenure⟩ r.endpoints }

def purgeDomainBoundClaims (r : AgentRecord) : AgentRecord :=
  { r with capabilities := [], skills := [], snapshots := [], verifications := [] }

def purgeStaleProfileEndpoints (web : Web) (r : AgentRecord) (canonical : String) : AgentRecord :=
  { r with endpoints := deleteEndpoints (staleEndpoint web canonical) r.endpoints }

def withdrawn (r : AgentRecord) : Bool := r.publication = some .withdrawn

/-- The A2A row follows the active binding, unless the card is withdrawn. -/
def syncA2aRow (r : AgentRecord) : AgentRecord :=
  match r.activeBinding with
  | some url =>
    if r.withdrawn then { r with endpoints := deleteEndpoints Endpoint.isA2a r.endpoints }
    else r.upsertProfileEndpoint .a2a url r.tenure
  | none => { r with endpoints := deleteEndpoints Endpoint.isA2a r.endpoints }

/-- The card row is there with an active binding and a card that is not withdrawn. -/
def syncCardRow (web : Web) (r : AgentRecord) : AgentRecord :=
  if r.activeBinding.isSome && r.publication.isSome && !r.withdrawn then
    r.upsertProfileEndpoint .agentCard web.cloudCardUrl r.tenure
  else { r with endpoints := deleteEndpoints (Endpoint.isCloudCard web) r.endpoints }

def syncCloudEndpoints (web : Web) (r : AgentRecord) : AgentRecord :=
  r.syncA2aRow.syncCardRow web

/-- `upsert_catalog_agent` and the reset of the administrative state. -/
def reopen (r : AgentRecord) (req : RegisterRequest) : AgentRecord :=
  let r := r.setDomain req.domain
  { r with
    agent :=
      { r.agent with
        merchantId := req.merchantId
        hostedRuntimeAgentId := ""
        sourceType := .selfRegistered
        hostingMode := req.hostingMode
        lifecycleStatus := .active
        administrativeState := .active } }

/-- The public fields and the endpoints that the request declares. -/
def declare (r : AgentRecord) (req : RegisterRequest) : AgentRecord :=
  let r :=
    if req.capabilities = [] then r else r.replaceCapabilities (req.capabilities.map r.stamp)
  let r := if req.skills = [] then r else r.replaceSkills (req.skills.map r.stamp)
  let r :=
    if req.agentCardUrl = "" then r
    else r.upsertProfileEndpoint .agentCard req.agentCardUrl r.tenure
  if req.ucpProfileUrl = "" then r
  else r.upsertProfileEndpoint .ucpProfile req.ucpProfileUrl r.tenure

/-- `register_catalog_agent` for an agent that exists.  `prior` is the canonical domain it read
when it selected the agent; an empty one is no domain. -/
def register (web : Web) (r : AgentRecord) (prior : String) (req : RegisterRequest) : AgentRecord :=
  let domainChanged : Bool := prior ≠ "" && prior ≠ req.domain
  let r := r.reopen req
  let r := if domainChanged then r.purgeDomainBoundClaims else r
  let r := r.declare req
  let r := if domainChanged then r.purgeStaleProfileEndpoints web req.domain else r
  r.syncCloudEndpoints web

/-- `list_endpoints` restricted to one profile kind; the last row of a kind wins. -/
def urlOf (r : AgentRecord) (kind : EndpointKind) : Option String :=
  (r.endpoints.filter fun e => e.row.kind = kind).getLast?.map fun e => e.row.url

def latestSnapshot (r : AgentRecord) (profileType : ProfileType) :
    Option (Stamped ProfileSnapshot) :=
  (r.snapshots.filter fun s => s.row.profileType = profileType).getLast?

/-- The mid-run transaction of `_load_profiles`: two snapshots and the index rows.  The addresses
were read and checked under the domain of `tenure`. -/
def storeProfiles (r : AgentRecord) (urls : ProfileUrls) (tenure : Nat)
    (card ucp : Stamped Profile) : AgentRecord :=
  let r := { r with snapshots := r.snapshots ++ [card.snapshot .agentCard, ucp.snapshot .ucp] }
  let r := r.replaceCapabilities (card.rows Profile.capabilities ++ ucp.rows Profile.capabilities)
  let r := r.replaceSkills (card.rows Profile.skills ++ ucp.rows Profile.skills)
  (r.upsertProfileEndpoint .agentCard urls.agentCard tenure).upsertProfileEndpoint .ucpProfile
    urls.ucpProfile tenure

/-- The re-check of `_begin_verified_persistence`. -/
def unchanged (r : AgentRecord) (expected : CatalogAgent) (urls : ProfileUrls) : Bool :=
  r.agent.administrativeState = .active && r.agent = expected &&
    r.urlOf .agentCard = some urls.agentCard && r.urlOf .ucpProfile = some urls.ucpProfile

def insertVerifications (r : AgentRecord) (rows : List Verification) (tenure : Nat) :
    AgentRecord :=
  { r with verifications := r.verifications ++ rows.map fun v => ⟨v, tenure⟩ }

/-- `record_active_binding_evidence`. -/
def recordActiveBindingEvidence (r : AgentRecord) : AgentRecord :=
  r.insertVerifications [⟨.agentIdentity, true⟩, ⟨.commerceCapability, true⟩] r.tenure

def setBinding (web : Web) (r : AgentRecord) (a2aEndpoint : Option String) : AgentRecord :=
  { r with activeBinding := a2aEndpoint }.syncCloudEndpoints web

/-- The commit of `_create_enrollment_binding`: the new binding, and the host of its runtime origin
as canonical domain. -/
def enrollmentBind (web : Web) (r : AgentRecord) (host a2aEndpoint : String) : AgentRecord :=
  ((r.setBinding web (some a2aEndpoint)).setDomain host).recordActiveBindingEvidence

/-- `confirm_request` fills in the canonical domain only when there is none. -/
def confirmRequest (web : Web) (r : AgentRecord) (host a2aEndpoint : String) : AgentRecord :=
  let r := if r.agent.canonicalDomain = "" then r.setDomain host else r
  (r.setBinding web (some a2aEndpoint)).recordActiveBindingEvidence

end AgentRecord

end KiwiCatalog.Trust
