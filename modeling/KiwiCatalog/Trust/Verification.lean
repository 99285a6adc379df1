import KiwiCatalog.Lib.Transition
import KiwiCatalog.Lib.Update
import KiwiCatalog.Trust.Writes

/-!
# Trust verification — runs of the ladder among the other writers of one agent

A verification run reads, fetches and writes in separate transactions; everything else that
commits in between may come from any other process.  `ρ` names the runs of the full ladder and `γ`
the registrations, both in any number.
-/

set_option autoImplicit false

namespace KiwiCatalog.Trust

/-- Where a run of `verify` is.  The tenure is that of the stored domain the run has read. -/
inductive RunPc
  | idle
  | started (expected : CatalogAgent)
  | haveUrls (expected : CatalogAgent) (urls : ProfileUrls)
  | fetching (expected : CatalogAgent) (urls : ProfileUrls) (tenure : Nat)
  | haveCard (expected : CatalogAgent) (urls : ProfileUrls) (tenure : Nat) (card : Stamped Profile)
  | haveProfiles (expected : CatalogAgent) (urls : ProfileUrls) (tenure : Nat)
      (card ucp : Stamped Profile)
  | loaded (expected : CatalogAgent) (urls : ProfileUrls) (tenure : Nat)
  | haveEvidence (expected : CatalogAgent) (urls : ProfileUrls) (tenure : Nat)
      (domainPassed : Bool)
  | finished

/-- What a step of a run does to the database. -/
inductive RunAction
  | reads
  | stores
  | persists
  deriving DecidableEq, Repr

/-- One step of a run.  Fetching, parsing and the proof of domain control are outside: they may
yield anything. -/
inductive RunStep (web : Web) : RunAction → AgentRecord → RunPc → AgentRecord → RunPc → Prop
  | starts {r : AgentRecord} (hactive : r.agent.administrativeState = .active) :
      RunStep web .reads r .idle r (.started r.agent)
  | readsUrls {r : AgentRecord} {expected : CatalogAgent} {urls : ProfileUrls}
      (hcard : r.urlOf .agentCard = some urls.agentCard)
      (hucp : r.urlOf .ucpProfile = some urls.ucpProfile) :
      RunStep web .reads r (.started expected) r (.haveUrls expected urls)
  | readsDomain {r : AgentRecord} {expected : CatalogAgent} {urls : ProfileUrls}
      (hdomain : r.agent.canonicalDomain ≠ "")
      (hcard : isUnder web urls.agentCard r.agent.canonicalDomain = true)
      (hucp : isUnder web urls.ucpProfile r.agent.canonicalDomain = true) :
      RunStep web .reads r (.haveUrls expected urls) r (.fetching expected urls r.tenure)
  | fetchesCard {r : AgentRecord} {expected : CatalogAgent} {urls : ProfileUrls} {tenure : Nat}
      (card : Profile) :
      RunStep web .reads r (.fetching expected urls tenure) r
        (.haveCard expected urls tenure ⟨card, tenure⟩)
  -- a 304 brings back the content of the latest snapshot
  | reusesCard {r : AgentRecord} {expected : CatalogAgent} {urls : ProfileUrls} {tenure : Nat}
      {latest : Stamped ProfileSnapshot} (card : Profile)
      (hlatest : r.latestSnapshot .agentCard = some latest) :
      RunStep web .reads r (.fetching expected urls tenure) r
        (.haveCard expected urls tenure ⟨card, latest.tenure⟩)
  | fetchesUcp {r : AgentRecord} {expected : CatalogAgent} {urls : ProfileUrls} {tenure : Nat}
      {card : Stamped Profile} (ucp : Profile) :
      RunStep web .reads r (.haveCard expected urls tenure card) r
        (.haveProfiles expected urls tenure card ⟨ucp, tenure⟩)
  | reusesUcp {r : AgentRecord} {expected : CatalogAgent} {urls : ProfileUrls} {tenure : Nat}
      {card : Stamped Profile} {latest : Stamped ProfileSnapshot} (ucp : Profile)
      (hlatest : r.latestSnapshot .ucp = some latest) :
      RunStep web .reads r (.haveCard expected urls tenure card) r
        (.haveProfiles expected urls tenure card ⟨ucp, latest.tenure⟩)
  -- `_conn.commit()` in `_load_profiles`; nothing is read again
  | stores {r : AgentRecord} {expected : CatalogAgent} {urls : ProfileUrls} {tenure : Nat}
      {card ucp : Stamped Profile} :
      RunStep web .stores r (.haveProfiles expected urls tenure card ucp)
        (r.storeProfiles urls tenure card ucp) (.loaded expected urls tenure)
  | failsDomain {r : AgentRecord} {expected : CatalogAgent} {urls : ProfileUrls} {tenure : Nat} :
      RunStep web .reads r (.loaded expected urls tenure) r
        (.haveEvidence expected urls tenure false)
  | provesDomain {r : AgentRecord} {expected : CatalogAgent} {urls : ProfileUrls} {tenure : Nat}
      (hdomain : expected.canonicalDomain ≠ "")
      (hcard : isUnder web urls.agentCard expected.canonicalDomain = true)
      (hucp : isUnder web urls.ucpProfile expected.canonicalDomain = true) :
      RunStep web .reads r (.loaded expected urls tenure) r
        (.haveEvidence expected urls tenure true)
  -- `BEGIN IMMEDIATE`, the re-check and the stages, in one transaction
  | persists {r : AgentRecord} {expected : CatalogAgent} {urls : ProfileUrls} {tenure : Nat}
      {domainPassed : Bool} (identityPassed commercePassed : Bool)
      (hcheck : r.unchanged expected urls = true) :
      RunStep web .persists r (.haveEvidence expected urls tenure domainPassed)
        (r.insertVerifications (stageVerifications domainPassed identityPassed commercePassed)
          tenure) .finished
  -- a failed check, an exception or a rollback ends the run
  | givesUp {r : AgentRecord} {pc : RunPc} : RunStep web .reads r pc r .finished

/-- A registration keeps the canonical domain that it read when it selected the agent. -/
structure System (ρ γ : Type) where
  record : AgentRecord
  run : ρ → RunPc
  registration : γ → Option String

inductive Event (ρ γ : Type)
  | run (r : ρ) (action : RunAction)
  | registrationReads (g : γ)
  | registers (g : γ) (req : RegisterRequest)
  | enrollmentBinds (host a2aEndpoint : String)
  | confirms
  | governs
  | syncs

variable {ρ γ : Type} [DecidableEq ρ] [DecidableEq γ]

inductive Step (web : Web) : Event ρ γ → System ρ γ → System ρ γ → Prop
  | run {s : System ρ γ} {r : ρ} {action : RunAction} {record : AgentRecord} {pc : RunPc}
      (h : RunStep web action s.record (s.run r) record pc) :
      Step web (.run r action) s { s with record := record, run := Function.update s.run r pc }
  | registrationReads {s : System ρ γ} (g : γ) :
      Step web (.registrationReads g) s
        { s with
          registration :=
            Function.update s.registration g (some s.record.agent.canonicalDomain) }
  | registers {s : System ρ γ} {g : γ} {prior : String} (req : RegisterRequest)
      (hprior : s.registration g = some prior) :
      Step web (.registers g req) s
        { s with
          record := s.record.register web prior req
          registration := Function.update s.registration g none }
  | enrollmentBinds {s : System ρ γ} (host a2aEndpoint : String) (hhost : host ≠ "") :
      Step web (.enrollmentBinds host a2aEndpoint) s
        { s with record := s.record.enrollmentBind web host a2aEndpoint }
  | confirms {s : System ρ γ} (host a2aEndpoint : String) (hhost : host ≠ "") :
      Step web .confirms s { s with record := s.record.confirmRequest web host a2aEndpoint }
  -- claims, suspensions and the like change other columns of the agent
  | governs {s : System ρ γ} (agent : CatalogAgent)
      (hdomain : agent.canonicalDomain = s.record.agent.canonicalDomain) :
      Step web .governs s { s with record := { s.record with agent := agent } }
  -- rotation, revocation and the card's publication
  | syncs {s : System ρ γ} (a2aEndpoint : Option String) (publication : Option PublicationState) :
      Step web .syncs s
        { s with
          record :=
            { s.record with
              activeBinding := a2aEndpoint, publication := publication }.syncCloudEndpoints web }

/-! ## What the rows may be derived from -/

/-- An `agent_card` or `ucp_profile` address that the domain may have: its own, or the cloud
card. -/
def EndpointFits (web : Web) (domain : String) (e : Endpoint) : Prop :=
  e.url = web.cloudCardUrl ∨ isUnder web e.url domain = true

/-- Snapshots, index rows and passed evidence belong to the given tenure. -/
structure RowsBound (tenure : Nat) (r : AgentRecord) : Prop where
  snapshots : ∀ s ∈ r.snapshots, s.tenure = tenure
  capabilities : ∀ c ∈ r.capabilities, c.tenure = tenure
  skills : ∀ s ∈ r.skills, s.tenure = tenure
  verifications : ∀ v ∈ r.verifications, v.row.passed = true → v.tenure = tenure

/-- Profile addresses were obtained in the given tenure, or fit the domain. -/
def EndpointsBound (web : Web) (tenure : Nat) (domain : String) (r : AgentRecord) : Prop :=
  ∀ e ∈ r.endpoints, e.row.kind.isProfile = true → e.tenure = tenure ∨ EndpointFits web domain e.row

/-- The agent carries nothing that was derived from a domain it had before. -/
structure Current (web : Web) (r : AgentRecord) : Prop where
  rows : RowsBound r.tenure r
  endpoints : EndpointsBound web r.tenure r.agent.canonicalDomain r

/-- No derived row but what the domain may have: nothing to reset. -/
structure CarriesNothing (web : Web) (domain : String) (r : AgentRecord) : Prop where
  snapshots : r.snapshots = []
  capabilities : r.capabilities = []
  skills : r.skills = []
  verifications : ∀ v ∈ r.verifications, v.row.passed = false
  endpoints : ∀ e ∈ r.endpoints, e.row.kind.isProfile = true → EndpointFits web domain e.row

/-- Nothing is ever derived for an agent without a domain. -/
def Blank (web : Web) (r : AgentRecord) : Prop :=
  r.agent.canonicalDomain = "" → ∀ domain, CarriesNothing web domain r

/-- Any agent in the first tenure of its domain, with no run under way. -/
def Started (web : Web) (s : System ρ γ) : Prop :=
  s.record.tenure = 0 ∧ Current web s.record ∧ Blank web s.record ∧ (∀ r, s.run r = .idle) ∧
    ∀ g, s.registration g = none

def RunPc.tenure? : RunPc → Option Nat
  | .fetching _ _ tenure | .haveCard _ _ tenure _ | .haveProfiles _ _ tenure _ _
  | .loaded _ _ tenure | .haveEvidence _ _ tenure _ => some tenure
  | .idle | .started _ | .haveUrls _ _ | .finished => none

/-! ## Commits that no change of the domain overtakes -/

/-- The domain has not changed since the run read it, or what the run stores belongs to the present
one all the same: two profiles restored from present snapshots, at addresses the domain may have. -/
def StoreUndisturbed (web : Web) (r : AgentRecord) : RunPc → Prop
  | .haveProfiles _ urls tenure card ucp =>
    tenure = r.tenure ∨
      (card.tenure = r.tenure ∧ ucp.tenure = r.tenure ∧
        EndpointFits web r.agent.canonicalDomain ⟨.agentCard, urls.agentCard⟩ ∧
        EndpointFits web r.agent.canonicalDomain ⟨.ucpProfile, urls.ucpProfile⟩)
  | _ => True

/-- The domain has not changed since the run read it, or nothing has passed. -/
def PersistUndisturbed (r : AgentRecord) : RunPc → Prop
  | .haveEvidence _ _ tenure domainPassed => tenure = r.tenure ∨ domainPassed = false
  | _ => True

/-- The registration keeps the domain, or notices the change, or there is nothing to reset. -/
def RegisterUndisturbed (web : Web) (r : AgentRecord) (prior : String) (req : RegisterRequest) :
    Prop :=
  req.domain = r.agent.canonicalDomain ∨ (prior ≠ "" ∧ prior ≠ req.domain) ∨
    CarriesNothing web req.domain r

/-- The bind keeps the domain, or there is nothing to reset besides the synchronised endpoints. -/
def EnrollmentUndisturbed (web : Web) (r : AgentRecord) (host a2aEndpoint : String) : Prop :=
  host = r.agent.canonicalDomain ∨ CarriesNothing web host (r.setBinding web (some a2aEndpoint))

def Undisturbed (web : Web) (s : System ρ γ) : Event ρ γ → Prop
  | .run r .stores => StoreUndisturbed web s.record (s.run r)
  | .run r .persists => PersistUndisturbed s.record (s.run r)
  | .registers g req =>
    ∀ prior, s.registration g = some prior → RegisterUndisturbed web s.record prior req
  | .enrollmentBinds host a2aEndpoint => EnrollmentUndisturbed web s.record host a2aEndpoint
  | _ => True

/-- Steps of the code, whatever the event. -/
def AnyStep (web : Web) (s s' : System ρ γ) : Prop := ∃ event, Step web event s s'

/-- Steps whose events are undisturbed. -/
def UndisturbedStep (web : Web) (s s' : System ρ γ) : Prop :=
  ∃ event, Undisturbed web s event ∧ Step web event s s'

end KiwiCatalog.Trust
