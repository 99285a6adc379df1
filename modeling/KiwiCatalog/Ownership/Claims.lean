import KiwiCatalog.Lib.Table
import KiwiCatalog.Lib.Transition
import KiwiCatalog.Trust.Rows
import Mathlib.Data.List.MinMax
import Mathlib.Logic.Function.Basic

/-!
# Claims — who owns a catalog agent

Claims of an agent by merchants, among the registrations and the other writers of
`catalog_agents`.  A claim of an agent that is not hosted gives up its transaction for the
domain-control challenge and writes in a later one.  `κ` names the claims and `γ` the
registrations, both in any number.
-/

set_option autoImplicit false

namespace KiwiCatalog.Ownership

open Trust (SourceType AdministrativeState)

/-! ## The table -/

/-- The columns of `catalog_agents` that claims and registrations read or write. -/
structure AgentRow where
  catalogAgentId : String
  merchantId : String
  canonicalDomain : String
  sourceType : SourceType
  administrativeState : AdministrativeState
  createdAt : Nat
  deriving DecidableEq, Repr

def listByMerchant (agents : List AgentRow) (merchantId : String) : List AgentRow :=
  agents.filter fun r => r.merchantId = merchantId

def agentOf (agents : List AgentRow) (catalogAgentId : String) : Option AgentRow :=
  Table.lookup AgentRow.catalogAgentId catalogAgentId agents

/-- `idx_catalog_agents_merchant_unique`: a merchant has one agent. -/
def merchantTaken (agents : List AgentRow) (catalogAgentId merchantId : String) : Bool :=
  merchantId ≠ "" && agents.any fun r =>
    r.catalogAgentId ≠ catalogAgentId && r.merchantId = merchantId

/-- `_update_catalog_agent` with `merchant_id` among its fields; `none` is the integrity error. -/
def updateAgent? (agents : List AgentRow) (catalogAgentId merchantId : String)
    (f : AgentRow → AgentRow) : Option (List AgentRow) :=
  if merchantTaken agents catalogAgentId merchantId then none
  else some (Table.updateWhere (fun r => r.catalogAgentId = catalogAgentId) f agents)

def AgentRow.setMerchant (merchantId : String) (r : AgentRow) : AgentRow :=
  { r with merchantId := merchantId }

def AgentRow.setDomain (domain : String) (r : AgentRow) : AgentRow :=
  { r with canonicalDomain := domain }

def AgentRow.setAdministrativeState (state : AdministrativeState) (r : AgentRow) : AgentRow :=
  { r with administrativeState := state }

/-- `set_catalog_agent_merchant`. -/
def setCatalogAgentMerchant? (agents : List AgentRow) (catalogAgentId merchantId : String) :
    Option (List AgentRow) :=
  updateAgent? agents catalogAgentId merchantId (AgentRow.setMerchant merchantId)

/-! ## Claims -/

inductive ClaimError
  | validation
  | conflict
  | notFound
  | permissionDenied
  deriving DecidableEq, Repr

/-- What `claim_catalog_agent` reads and checks before the challenge. -/
def claimRead (agents : List AgentRow) (catalogAgentId merchantId : String) :
    Except ClaimError AgentRow :=
  if merchantId = "" then .error .validation
  else if (listByMerchant agents merchantId).any fun r => r.catalogAgentId ≠ catalogAgentId then
    .error .conflict
  else match agentOf agents catalogAgentId with
    | none => .error .notFound
    | some agent => if agent.canonicalDomain = "" then .error .validation else .ok agent

/-- What it checks and writes after the challenge; `agent` is the row it has read. -/
def claimWrite (agents : List AgentRow) (agent : AgentRow) (merchantId : String) :
    Except ClaimError (List AgentRow) :=
  if agent.merchantId ≠ "" && agent.merchantId ≠ merchantId then .error .conflict
  else match setCatalogAgentMerchant? agents agent.catalogAgentId merchantId with
    | none => .error .conflict
    | some agents => .ok agents

/-! ## Registrations -/

structure RegisterRequest where
  merchantId : String
  domain : String
  deriving DecidableEq, Repr

/-- The agent that `register_catalog_agent` selects: `some none` stands for a new one. -/
def registerTarget (agents : List AgentRow) (req : RegisterRequest) : Option (Option AgentRow) :=
  if req.merchantId ≠ "" then
    let owned := listByMerchant agents req.merchantId
    some ((owned.find? fun r => r.administrativeState = .active).or
      (owned.find? fun r => r.administrativeState ≠ .active))
  else
    let rows := agents.filter fun r => r.canonicalDomain = req.domain
    if rows.any fun r => r.merchantId ≠ "" then none
    else if rows.any fun r => r.administrativeState = .active then none
    else some (rows.argmax AgentRow.createdAt)

def AgentRow.reregister (req : RegisterRequest) (r : AgentRow) : AgentRow :=
  { r with
    merchantId := req.merchantId
    canonicalDomain := req.domain
    sourceType := .selfRegistered
    administrativeState := .active }

/-- `_insert_catalog_agent` under the primary key and the merchant index. -/
def insertAgent? (agents : List AgentRow) (row : AgentRow) : Option (List AgentRow) :=
  if merchantTaken agents row.catalogAgentId row.merchantId then none
  else Table.insert? AgentRow.catalogAgentId row agents

/-- `upsert_catalog_agent` for the selected agent. -/
def registerWrite (agents : List AgentRow) (target : Option AgentRow) (req : RegisterRequest)
    (newId : String) (now : Nat) : Option (List AgentRow) :=
  match target with
  | some row => updateAgent? agents row.catalogAgentId req.merchantId (AgentRow.reregister req)
  | none => insertAgent? agents ⟨newId, req.merchantId, req.domain, .selfRegistered, .active, now⟩

/-! ## The system -/

inductive ClaimPc
  | idle
  | opened (catalogAgentId merchantId : String)
  -- the transaction is closed and the challenge under way
  | proving (agent : AgentRow) (merchantId : String)
  -- the domain for which control was proven, if the agent is not hosted
  | proven (agent : AgentRow) (merchantId : String) (domain : Option String)
  | refused
  | succeeded
  deriving DecidableEq, Repr

inductive RegisterPc
  | idle
  | opened (req : RegisterRequest)
  | selected (req : RegisterRequest) (target : Option AgentRow)
  | finished
  deriving DecidableEq, Repr

/-- A claim that has reported success: the domain it proved, and the one the agent had when it
committed. -/
structure Success where
  catalogAgentId : String
  merchantId : String
  provenDomain : Option String
  domain : String
  deriving DecidableEq, Repr

inductive Party (κ γ : Type)
  | claim (c : κ)
  | registration (g : γ)
  deriving DecidableEq

structure System (κ γ : Type) where
  agents : List AgentRow
  claim : κ → ClaimPc
  registration : γ → RegisterPc
  -- SQLite's write lock, held from the first statement that writes to the commit
  lock : Option (Party κ γ)
  -- not stored: the successful claims, in the order of their commits
  successes : List Success

variable {κ γ : Type} [DecidableEq κ] [DecidableEq γ]

namespace System

def mayWrite (s : System κ γ) (p : Party κ γ) : Bool := s.lock = none || s.lock = some p

def release (s : System κ γ) (p : Party κ γ) : System κ γ :=
  { s with lock := if s.lock = some p then none else s.lock }

def setClaim (s : System κ γ) (c : κ) (pc : ClaimPc) : System κ γ :=
  { s with claim := Function.update s.claim c pc }

def setRegistration (s : System κ γ) (g : γ) (pc : RegisterPc) : System κ γ :=
  { s with registration := Function.update s.registration g pc }

/-- The end of a claim that reports success. -/
def succeed (s : System κ γ) (c : κ) (agents : List AgentRow) (success : Success) : System κ γ :=
  ({ s with agents := agents, successes := s.successes ++ [success] }.setClaim c
    .succeeded).release (.claim c)

end System

inductive Event (κ γ : Type)
  | opens
  | reads
  | claims (c : κ)
  | registers (g : γ)
  | inserts
  | setsDomain
  | governs

inductive Step : Event κ γ → System κ γ → System κ γ → Prop
  -- a limiter or an idempotency row is written first, so the transaction is open before the reads
  | claimOpensLocked {s : System κ γ} {c : κ} (catalogAgentId merchantId : String)
      (hpc : s.claim c = .idle) (hlock : s.lock = none) :
      Step .opens s
        { s.setClaim c (.opened catalogAgentId merchantId) with lock := some (.claim c) }
  | claimOpens {s : System κ γ} {c : κ} (catalogAgentId merchantId : String)
      (hpc : s.claim c = .idle) :
      Step .opens s (s.setClaim c (.opened catalogAgentId merchantId))
  | claimRefused {s : System κ γ} {c : κ} {catalogAgentId merchantId : String} {e : ClaimError}
      (hpc : s.claim c = .opened catalogAgentId merchantId)
      (hread : claimRead s.agents catalogAgentId merchantId = .error e) :
      Step .reads s ((s.setClaim c .refused).release (.claim c))
  | claimReadsHosted {s : System κ γ} {c : κ} {catalogAgentId merchantId : String}
      {agent : AgentRow} (hpc : s.claim c = .opened catalogAgentId merchantId)
      (hread : claimRead s.agents catalogAgentId merchantId = .ok agent)
      (hhosted : agent.sourceType = .hosted) :
      Step .reads s (s.setClaim c (.proven agent merchantId none))
  -- `conn.commit()` before the challenge
  | claimReads {s : System κ γ} {c : κ} {catalogAgentId merchantId : String} {agent : AgentRow}
      (hpc : s.claim c = .opened catalogAgentId merchantId)
      (hread : claimRead s.agents catalogAgentId merchantId = .ok agent)
      (hhosted : agent.sourceType ≠ .hosted) :
      Step .reads s ((s.setClaim c (.proving agent merchantId)).release (.claim c))
  | claimProves {s : System κ γ} {c : κ} {agent : AgentRow} {merchantId : String}
      (hpc : s.claim c = .proving agent merchantId) :
      Step .reads s (s.setClaim c (.proven agent merchantId (some agent.canonicalDomain)))
  | claimDenied {s : System κ γ} {c : κ} {agent : AgentRow} {merchantId : String}
      (hpc : s.claim c = .proving agent merchantId) :
      Step .reads s (s.setClaim c .refused)
  | claimSucceeds {s : System κ γ} {c : κ} {agent row : AgentRow} {merchantId : String}
      {domain : Option String} {agents : List AgentRow}
      (hpc : s.claim c = .proven agent merchantId domain)
      (hlock : s.mayWrite (.claim c) = true)
      (hwrite : claimWrite s.agents agent merchantId = .ok agents)
      (hrow : agentOf s.agents agent.catalogAgentId = some row) :
      Step (.claims c) s
        (s.succeed c agents ⟨agent.catalogAgentId, merchantId, domain, row.canonicalDomain⟩)
  | claimFails {s : System κ γ} {c : κ} {agent : AgentRow} {merchantId : String}
      {domain : Option String} {e : ClaimError}
      (hpc : s.claim c = .proven agent merchantId domain)
      (hwrite : claimWrite s.agents agent merchantId = .error e) :
      Step .reads s ((s.setClaim c .refused).release (.claim c))
  | registerOpensLocked {s : System κ γ} {g : γ} (req : RegisterRequest)
      (hpc : s.registration g = .idle) (hlock : s.lock = none) :
      Step .opens s { s.setRegistration g (.opened req) with lock := some (.registration g) }
  | registerOpens {s : System κ γ} {g : γ} (req : RegisterRequest)
      (hpc : s.registration g = .idle) :
      Step .opens s (s.setRegistration g (.opened req))
  | registerReads {s : System κ γ} {g : γ} {req : RegisterRequest} {target : Option AgentRow}
      (hpc : s.registration g = .opened req)
      (hread : registerTarget s.agents req = some target) :
      Step .reads s (s.setRegistration g (.selected req target))
  | registerRefused {s : System κ γ} {g : γ} {req : RegisterRequest}
      (hpc : s.registration g = .opened req) (hread : registerTarget s.agents req = none) :
      Step .reads s ((s.setRegistration g .finished).release (.registration g))
  | registers {s : System κ γ} {g : γ} {req : RegisterRequest} {target : Option AgentRow}
      {agents : List AgentRow} (newId : String) (now : Nat)
      (hpc : s.registration g = .selected req target)
      (hlock : s.mayWrite (.registration g) = true)
      (hwrite : registerWrite s.agents target req newId now = some agents) :
      Step (.registers g) s
        (({ s with agents := agents }.setRegistration g .finished).release (.registration g))
  | registerFails {s : System κ γ} {g : γ} {req : RegisterRequest} {target : Option AgentRow}
      (newId : String) (now : Nat) (hpc : s.registration g = .selected req target)
      (hwrite : registerWrite s.agents target req newId now = none) :
      Step .reads s ((s.setRegistration g .finished).release (.registration g))
  -- `ensure_my_catalog_agent`
  | inserts {s : System κ γ} {row : AgentRow} {agents : List AgentRow} (hlock : s.lock = none)
      (hinsert : insertAgent? s.agents row = some agents) :
      Step .inserts s { s with agents := agents }
  -- an enrollment bind or the confirmation of a binding request
  | setsDomain {s : System κ γ} (catalogAgentId domain : String) (hlock : s.lock = none) :
      Step .setsDomain s
        { s with
          agents :=
            Table.updateWhere (fun r => r.catalogAgentId = catalogAgentId)
              (AgentRow.setDomain domain) s.agents }
  | governs {s : System κ γ} (catalogAgentId : String) (state : AdministrativeState)
      (hlock : s.lock = none) :
      Step .governs s
        { s with
          agents :=
            Table.updateWhere (fun r => r.catalogAgentId = catalogAgentId)
              (AgentRow.setAdministrativeState state) s.agents }

/-- Any table with unique ids, with no request under way. -/
def Started (s : System κ γ) : Prop :=
  Table.KeyUnique AgentRow.catalogAgentId s.agents ∧ (∀ c, s.claim c = .idle) ∧
    (∀ g, s.registration g = .idle) ∧ s.lock = none ∧ s.successes = []

/-! ## Exclusivity -/

/-- All successful claims of an agent are by one merchant, and each proved control of the domain
that the agent had when it committed. -/
structure Exclusive (successes : List Success) : Prop where
  merchant : ∀ x ∈ successes, ∀ y ∈ successes, x.catalogAgentId = y.catalogAgentId →
    x.merchantId = y.merchantId
  domain : ∀ x ∈ successes, ∀ d, x.provenDomain = some d → d = x.domain

/-- The owner of the agent, if it has one, is `merchantId`. -/
def OwnedAtMostBy (agents : List AgentRow) (catalogAgentId merchantId : String) : Prop :=
  ∀ row, agentOf agents catalogAgentId = some row → row.merchantId = "" ∨ row.merchantId = merchantId

/-- No other merchant has become the owner and the domain has not changed since the claim has read
them. -/
def ClaimUndisturbed (agents : List AgentRow) : ClaimPc → Prop
  | .proven agent merchantId domain =>
    OwnedAtMostBy agents agent.catalogAgentId merchantId ∧
      ∀ row, agentOf agents agent.catalogAgentId = some row → ∀ d, domain = some d →
        d = row.canonicalDomain
  | _ => True

/-- The selected agent has no other owner by now. -/
def RegisterUndisturbed (agents : List AgentRow) : RegisterPc → Prop
  | .selected req (some row) => OwnedAtMostBy agents row.catalogAgentId req.merchantId
  | _ => True

def Undisturbed (s : System κ γ) : Event κ γ → Prop
  | .claims c => ClaimUndisturbed s.agents (s.claim c)
  | .registers g => RegisterUndisturbed s.agents (s.registration g)
  | _ => True

def AnyStep (s s' : System κ γ) : Prop := ∃ event, Step event s s'

def UndisturbedStep (s s' : System κ γ) : Prop :=
  ∃ event, Undisturbed s event ∧ Step event s s'

end KiwiCatalog.Ownership
