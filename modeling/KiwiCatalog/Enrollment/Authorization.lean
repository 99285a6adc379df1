import KiwiCatalog.Binding.Store
import KiwiCatalog.Lib.Update
import KiwiCatalog.Trust.Rows

/-!
# Authorization — an enrollment from the device request to the committed binding

An account authorizes an enrollment after the takeover guard; the runtime then binds with the
grant.  Both read and write in separate statements, and every other operation on the bindings may
commit in between.  `ε` names the enrollments, `κ` the requests to authorize one and `β` the bind
requests, all in any number.
-/

set_option autoImplicit false

namespace KiwiCatalog.Enrollment

open Binding hiding Step
open Trust (AdministrativeState)

/-- The columns that `create_device` writes and nothing changes, chosen by the requester. -/
structure Material where
  keyId : String
  keyThumbprint : String
  runtimeOrigin : String
  a2aEndpoint : String
  serviceEpoch : Nat
  deriving DecidableEq, Repr

inductive EnrollmentStatus
  | readyForAuthorization
  | authorized
  | bound
  | published
  | expired
  | canceled
  deriving DecidableEq, Repr

/-- The columns of `enrollments` that change. -/
structure EnrollmentRow where
  status : EnrollmentStatus
  merchantId : String
  catalogAgentId : String
  expectedBindingVersion : Nat
  deriving DecidableEq, Repr

structure AgentState where
  merchantId : String
  administrativeState : AdministrativeState
  deriving DecidableEq, Repr

/-- `_refuse_binding_takeover`: it compares the `key_id` of the merchant's active binding. -/
def refusesTakeover (store : List RuntimeBinding) (merchantId keyId : String) : Bool :=
  if merchantId = "" then false
  else match store.find? fun r => r.merchantId = merchantId && r.isActive with
    | none => false
    | some active => active.keyId ≠ keyId

/-- A bind request must declare the enrollment's own key, addresses and epoch. -/
def Material.declares (m : Material) (decl : Declaration) : Prop :=
  decl.keyId = m.keyId ∧ decl.keyThumbprint = m.keyThumbprint ∧
    decl.runtimeOrigin = m.runtimeOrigin ∧ decl.a2aEndpoint = m.a2aEndpoint ∧
    decl.serviceEpoch = m.serviceEpoch

/-- Where a request to authorize is: what it has read so far. -/
inductive AuthorizePc (ε : Type)
  | idle
  | read (e : ε) (merchantId : String)
  | guarded (e : ε) (merchantId : String)
  | hasAgent (e : ε) (merchantId agentId : String)
  | versioned (e : ε) (merchantId agentId : String) (latest : Nat)
  | done

inductive BindPc (ε : Type)
  | idle
  -- the first transaction is closed and the challenge under way
  | challenged (e : ε) (agentId : String) (decl : Declaration)
  | done

/-- What the commit of an enrollment bind did: the merchant and key it was for, and the binding it
revoked. -/
structure Bind where
  merchantId : String
  keyThumbprint : String
  superseded : Option RuntimeBinding
  deriving DecidableEq, Repr

structure System (ε κ β : Type) where
  store : List RuntimeBinding
  agent : String → Option AgentState
  enrollment : ε → Option EnrollmentRow
  authorize : κ → AuthorizePc ε
  bind : β → BindPc ε
  -- not stored: the enrollment binds, in the order of their commits
  binds : List Bind

variable {ε κ β : Type} [DecidableEq ε] [DecidableEq κ] [DecidableEq β]

namespace System

def setEnrollment (s : System ε κ β) (e : ε) (row : EnrollmentRow) : System ε κ β :=
  { s with enrollment := Function.update s.enrollment e (some row) }

def setAuthorize (s : System ε κ β) (k : κ) (pc : AuthorizePc ε) : System ε κ β :=
  { s with authorize := Function.update s.authorize k pc }

def setBind (s : System ε κ β) (b : β) (pc : BindPc ε) : System ε κ β :=
  { s with bind := Function.update s.bind b pc }

end System

inductive Event (κ : Type)
  | readsVersion (k : κ)
  | other

/-- `material` is what the enrollments were created with. -/
inductive Step (material : ε → Material) : Event κ → System ε κ β → System ε κ β → Prop
  | createsDevice {s : System ε κ β} {e : ε} (hnew : s.enrollment e = none) :
      Step material .other s (s.setEnrollment e ⟨.readyForAuthorization, "", "", 1⟩)
  -- `authorize_enrollment`
  | authorizeReads {s : System ε κ β} {k : κ} {e : ε} {row : EnrollmentRow} (merchantId : String)
      (hpc : s.authorize k = .idle) (hrow : s.enrollment e = some row)
      (hstatus : row.status = .readyForAuthorization) (hmerchant : merchantId ≠ "") :
      Step material .other s (s.setAuthorize k (.read e merchantId))
  | authorizeGuards {s : System ε κ β} {k : κ} {e : ε} {merchantId : String}
      (hpc : s.authorize k = .read e merchantId)
      (hguard : refusesTakeover s.store merchantId (material e).keyId = false) :
      Step material .other s (s.setAuthorize k (.guarded e merchantId))
  | authorizeFindsAgent {s : System ε κ β} {k : κ} {e : ε} {merchantId agentId : String}
      {agent : AgentState} (hpc : s.authorize k = .guarded e merchantId)
      (hagent : s.agent agentId = some agent) (howner : agent.merchantId = merchantId) :
      Step material .other s (s.setAuthorize k (.hasAgent e merchantId agentId))
  | authorizeCreatesAgent {s : System ε κ β} {k : κ} {e : ε} {merchantId agentId : String}
      (hpc : s.authorize k = .guarded e merchantId) (hnew : s.agent agentId = none) :
      Step material .other s
        { s.setAuthorize k (.hasAgent e merchantId agentId) with
          agent := Function.update s.agent agentId (some ⟨merchantId, .active⟩) }
  | authorizeReadsVersion {s : System ε κ β} {k : κ} {e : ε} {merchantId agentId : String}
      {agent : AgentState} (hpc : s.authorize k = .hasAgent e merchantId agentId)
      (hagent : s.agent agentId = some agent) (howner : agent.merchantId = merchantId)
      (hactive : agent.administrativeState = .active) :
      Step material (.readsVersion k) s
        (s.setAuthorize k (.versioned e merchantId agentId (maxVersion s.store agentId)))
  -- `update … where status = 'ready_for_authorization'`
  | authorizeCommits {s : System ε κ β} {k : κ} {e : ε} {merchantId agentId : String}
      {latest : Nat} {row : EnrollmentRow} (hpc : s.authorize k = .versioned e merchantId agentId latest)
      (hrow : s.enrollment e = some row) (hstatus : row.status = .readyForAuthorization) :
      Step material .other s
        ((s.setEnrollment e ⟨.authorized, merchantId, agentId, latest + 1⟩).setAuthorize k .done)
  | authorizeFails {s : System ε κ β} {k : κ} :
      Step material .other s (s.setAuthorize k .done)
  -- `_create_enrollment_binding`
  | bindReads {s : System ε κ β} {b : β} {e : ε} {row : EnrollmentRow} {decl : Declaration}
      (hpc : s.bind b = .idle) (hrow : s.enrollment e = some row)
      (hstatus : row.status = .authorized) (hdecl : (material e).declares decl) :
      Step material .other s (s.setBind b (.challenged e row.catalogAgentId decl))
  | bindCommits {s : System ε κ β} {b : β} {e : ε} {agentId : String} {decl : Declaration}
      {row : EnrollmentRow} {agent : AgentState} {store : List RuntimeBinding}
      (hpc : s.bind b = .challenged e agentId decl) (hdecl : (material e).declares decl)
      (hrow : s.enrollment e = some row) (hstatus : row.status = .authorized)
      (hagentId : row.catalogAgentId = agentId) (hagent : s.agent agentId = some agent)
      (howner : row.merchantId = agent.merchantId)
      (hactive : agent.administrativeState = .active)
      (hbind : enrollmentBinding s.store agentId agent.merchantId decl row.expectedBindingVersion =
        .ok store) :
      Step material .other s
        { (s.setEnrollment e { row with status := .bound }).setBind b .done with
          store := store
          binds :=
            s.binds ++
              [⟨row.merchantId, (material e).keyThumbprint, currentActiveBinding s.store agentId⟩] }
  | bindFails {s : System ε κ β} {b : β} : Step material .other s (s.setBind b .done)
  -- a grant or a device code runs out, the card is withdrawn, or the card is published
  | closes {s : System ε κ β} {e : ε} {row : EnrollmentRow} {status : EnrollmentStatus}
      (hrow : s.enrollment e = some row)
      (hstatus : status = .expired ∨ status = .canceled ∨ status = .published) :
      Step material .other s (s.setEnrollment e { row with status := status })
  -- the other operations on the bindings
  | creates {s : System ε κ β} {agentId merchantId : String} {decl : Declaration}
      {existing : Option RuntimeBinding} {store : List RuntimeBinding}
      (hread : ReadEarlier s.store agentId existing)
      (h : insertActiveBinding s.store agentId merchantId decl existing = .ok store) :
      Step material .other s { s with store := store }
  | confirms {s : System ε κ β} {agentId merchantId : String} {decl : Declaration}
      {store : List RuntimeBinding}
      (h : confirmBinding s.store agentId merchantId decl = .ok store) :
      Step material .other s { s with store := store }
  | revokes {s : System ε κ β} {agentId bindingId : String} {store : List RuntimeBinding}
      (h : revokeRuntimeBinding s.store agentId bindingId = .ok store) :
      Step material .other s { s with store := store }
  -- claims, registrations and governance
  | setsAgent {s : System ε κ β} (agentId : String) (agent : AgentState) :
      Step material .other s
        { s with agent := Function.update s.agent agentId (some agent) }

/-- Nothing has happened yet, but agents may exist. -/
def Started (s : System ε κ β) : Prop :=
  s.store = [] ∧ (∀ e, s.enrollment e = none) ∧ (∀ k, s.authorize k = .idle) ∧
    (∀ b, s.bind b = .idle) ∧ s.binds = []

/-- No enrollment bind has revoked an active binding of its merchant with another key. -/
def NoTakeover (binds : List Bind) : Prop :=
  ∀ x ∈ binds, ∀ r, x.superseded = some r → r.merchantId = x.merchantId →
    r.keyThumbprint = x.keyThumbprint

/-- Every active binding that the agent has from the merchant is for the key. -/
def SameKey (store : List RuntimeBinding) (agentId merchantId keyThumbprint : String) : Prop :=
  ∀ r ∈ store, r.catalogAgentId = agentId → r.isActive = true → r.merchantId = merchantId →
    r.keyThumbprint = keyThumbprint

/-- When the version is read, no other key of the merchant is active on the agent. -/
def Undisturbed (material : ε → Material) (s : System ε κ β) : Event κ → Prop
  | .readsVersion k => ∀ e merchantId agentId, s.authorize k = .hasAgent e merchantId agentId →
      SameKey s.store agentId merchantId (material e).keyThumbprint
  | .other => True

def AnyStep (material : ε → Material) (s s' : System ε κ β) : Prop :=
  ∃ event, Step material event s s'

def UndisturbedStep (material : ε → Material) (s s' : System ε κ β) : Prop :=
  ∃ event, Undisturbed material s event ∧ Step material event s s'

end KiwiCatalog.Enrollment
