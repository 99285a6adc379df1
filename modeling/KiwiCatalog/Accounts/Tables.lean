import KiwiCatalog.Binding.StoreInvariant
import KiwiCatalog.Enrollment.Authorization
import KiwiCatalog.Lib.FixedWindow
import KiwiCatalog.RuntimeAccess.Store

/-!
# Account tables — what the handlers of the merchant portal read and write

One connection's view of the database, with the statements of the services behind the portal.
Tables with a text key are functions of it, the others are lists in insertion order.
-/

set_option autoImplicit false

namespace KiwiCatalog.Accounts

open Binding (RuntimeBinding)
open Catalog (Domains)
open Enrollment (EnrollmentStatus)
open RuntimeAccess (AccessTables PublicationState)
open Trust (EndpointKind)

structure Account where
  accountId : Nat
  email : String
  merchantId : String
  merchantName : String
  phone : String
  wechat : String
  -- zero is none
  applicationId : Nat
  updatedAt : Nat
  deriving DecidableEq, Repr

structure Session where
  accountId : Nat
  expiresAt : Nat
  deriving DecidableEq, Repr

inductive ApplicationStatus
  | pending
  | approved
  | rejected
  deriving DecidableEq, Repr

structure Application where
  applicationId : Nat
  status : ApplicationStatus
  domain : String
  agentName : String
  agentId : String
  contactEmail : String
  purpose : String
  phone : String
  accountId : Nat
  deriving DecidableEq, Repr

/-- `tokenHash` is empty in the placeholder that registration leaves. -/
structure TokenRow where
  tokenHash : String
  tokenEncrypted : String
  active : Bool
  deriving DecidableEq, Repr

structure AgentRow where
  catalogAgentId : String
  merchantId : String
  displayName : String
  canonicalDomain : String
  domains : Domains
  lastVerifiedAt : Nat
  updatedAt : Nat
  deriving DecidableEq, Repr

structure EndpointRow where
  catalogAgentId : String
  kind : EndpointKind
  url : String
  lastCheckedAt : Nat
  deriving DecidableEq, Repr

structure Publication where
  activeRevision : Int
  state : PublicationState
  etag : String
  updatedAt : Nat
  deriving DecidableEq, Repr

structure EnrollmentRow where
  merchantId : String
  catalogAgentId : String
  status : EnrollmentStatus
  expiresAt : Nat
  grantExpiresAt : Nat
  authorizationEpoch : Nat
  deriving DecidableEq, Repr

inductive RequestStatus
  | pending
  | confirmed
  | rejected
  | expired
  deriving DecidableEq, Repr

structure BindingRequest where
  catalogAgentId : String
  declaration : Binding.Declaration
  status : RequestStatus
  expiresAt : Nat
  decidedAt : Nat
  decidedNote : String
  accessConfigVersion : Nat
  deriving DecidableEq, Repr

inductive VerificationType
  | agentIdentity
  | commerceCapability
  deriving DecidableEq, Repr

structure VerificationRow where
  catalogAgentId : String
  type : VerificationType
  bindingId : String
  checkedAt : Nat
  expiresAt : Nat
  deriving DecidableEq, Repr

structure AuditRow where
  catalogAgentId : String
  actor : String
  event : String
  deriving DecidableEq, Repr

structure Db where
  limits : FixedWindow.Counters String
  sessions : String → Option Session
  accounts : Nat → Option Account
  -- the shadow rows, by merchant id
  merchants : String → Option String
  applications : List Application
  tokens : String → Option TokenRow
  agents : List AgentRow
  endpoints : List EndpointRow
  publications : String → Option Publication
  -- the etag of a stored card, none where its bytes do not parse
  cards : String → Int → Option (Option String)
  enrollments : String → Option EnrollmentRow
  requests : String → Option BindingRequest
  bindings : List RuntimeBinding
  verifications : List VerificationRow
  access : AccessTables
  audit : List AuditRow

inductive Error
  | auth
  | validation
  | notFound
  | conflict
  | rateLimited
  | integrity
  -- a credential that cannot be decrypted, a card or an origin that does not parse
  | unreadable
  -- a failed statement: a locked database, a full disk
  | interrupted
  deriving DecidableEq, Repr

structure Env where
  loginRateLimit : Nat
  access : RuntimeAccess.Env
  decryptToken : String → Option String
  normalizeDomain : String → Option String
  web : Trust.Web
  cardUrl : String → String

/-! ## Statements -/

/-- `update … where key = k`, on a table that is a function of its key. -/
def setRow {κ ρ : Type} [DecidableEq κ] (k : κ) (f : ρ → ρ) (table : κ → Option ρ) :
    κ → Option ρ :=
  fun k' => if k' = k then (table k').map f else table k'

def Db.findAgent (db : Db) (agentId : String) : Option AgentRow :=
  db.agents.find? fun a => a.catalogAgentId = agentId

/-- `_require_owned_agent`. -/
def Db.ownedAgent (db : Db) (account : Account) (agentId : String) : Option AgentRow :=
  (db.findAgent agentId).filter fun a => a.merchantId = account.merchantId

def Db.ofMerchant (db : Db) (merchantId : String) : List AgentRow :=
  db.agents.filter fun a => a.merchantId = merchantId

def Db.updateAccount (accountId : Nat) (f : Account → Account) (db : Db) : Except Error Db :=
  .ok { db with accounts := setRow accountId f db.accounts }

def Db.nextApplicationId (db : Db) : Nat :=
  db.applications.foldr (fun a n => max a.applicationId n) 0 + 1

def Db.latestApplication (db : Db) (accountId : Nat) : Option Nat :=
  ((db.applications.filter fun a => a.accountId = accountId).map Application.applicationId).max?

def Db.insertApplication (row : Application) (db : Db) : Except Error Db :=
  .ok { db with applications := db.applications ++ [row] }

def Db.updateApplication (applicationId : Nat) (f : Application → Application) (db : Db) :
    Except Error Db :=
  .ok { db with
    applications := Table.updateWhere (fun a => a.applicationId = applicationId) f db.applications }

/-- The primary key, and the unique index on the merchant. -/
def Db.insertAgent (row : AgentRow) (db : Db) : Except Error Db :=
  if db.agents.any fun a => a.catalogAgentId = row.catalogAgentId || a.merchantId = row.merchantId
  then .error .conflict
  else .ok { db with agents := db.agents ++ [row] }

def Db.updateAgent (agentId : String) (f : AgentRow → AgentRow) (db : Db) : Except Error Db :=
  .ok { db with agents := Table.updateWhere (fun a => a.catalogAgentId = agentId) f db.agents }

/-- `insert or ignore into merchants`. -/
def Db.ensureMerchant (merchantId name : String) (db : Db) : Except Error Db :=
  .ok { db with
    merchants := fun id =>
      if id = merchantId then some ((db.merchants id).getD name) else db.merchants id }

def Db.appendAudit (agentId actor event : String) (db : Db) : Except Error Db :=
  .ok { db with audit := db.audit ++ [⟨agentId, actor, event⟩] }

def Db.writePublication (agentId : String) (row : Publication) (db : Db) : Except Error Db :=
  .ok { db with
    publications := fun id => if id = agentId then some row else db.publications id }

/-- The row of an agent and a kind, written over or appended. -/
def upsertEndpoint (row : EndpointRow) : List EndpointRow → List EndpointRow
  | [] => [row]
  | e :: rows =>
    if e.catalogAgentId = row.catalogAgentId ∧ e.kind = row.kind then row :: rows
    else e :: upsertEndpoint row rows

def Db.upsertEndpoint (row : EndpointRow) (db : Db) : Except Error Db :=
  .ok { db with endpoints := Accounts.upsertEndpoint row db.endpoints }

def Db.deleteEndpoints (p : EndpointRow → Bool) (db : Db) : Except Error Db :=
  .ok { db with endpoints := Table.deleteWhere p db.endpoints }

def EnrollmentStatus.open : EnrollmentStatus → Bool
  | .readyForAuthorization | .authorized | .bound | .published => true
  | .expired | .canceled => false

def EnrollmentRow.cancel (row : EnrollmentRow) : EnrollmentRow :=
  { row with status := .canceled, authorizationEpoch := row.authorizationEpoch + 1 }

/-- An explicit pause or withdrawal cancels the open enrollments of the agent. -/
def Db.cancelEnrollments (agentId : String) (db : Db) : Except Error Db :=
  .ok { db with
    enrollments := fun id => (db.enrollments id).map fun row =>
      if row.catalogAgentId = agentId && EnrollmentStatus.open row.status then row.cancel
      else row }

/-- The condition of the lazy expiry in `public_enrollment`. -/
def EnrollmentRow.overdue (now : Nat) (row : EnrollmentRow) : Bool :=
  (row.status = .readyForAuthorization && row.expiresAt ≤ now) ||
    (row.status = .authorized && row.grantExpiresAt ≤ now)

def EnrollmentRow.lapse (now : Nat) (row : EnrollmentRow) : EnrollmentRow :=
  if row.overdue now then { row with status := .expired } else row

def Db.expireEnrollment (enrollmentId : String) (db : Db) : Except Error Db :=
  .ok { db with
    enrollments := setRow enrollmentId (fun row => { row with status := .expired })
      db.enrollments }

def BindingRequest.lapse (now : Nat) (r : BindingRequest) : BindingRequest :=
  if r.status = .pending ∧ r.expiresAt ≤ now then { r with status := .expired, decidedAt := now }
  else r

/-- `_expire_stale`. -/
def Db.expireStale (agentId : String) (now : Nat) (db : Db) : Except Error Db :=
  .ok { db with
    requests := fun id => (db.requests id).map fun r =>
      if r.catalogAgentId = agentId then r.lapse now else r }

def BindingRequest.decide (status : RequestStatus) (now : Nat) (note : String)
    (r : BindingRequest) : BindingRequest :=
  { r with status := status, decidedAt := now, decidedNote := note }

def Db.decideRequest (requestId : String) (status : RequestStatus) (now : Nat) (note : String)
    (db : Db) : Except Error Db :=
  .ok { db with
    requests := setRow requestId (BindingRequest.decide status now note) db.requests }

/-- The other pending requests of the agent. -/
def Db.supersedeRequests (agentId : String) (now : Nat) (note : String) (db : Db) :
    Except Error Db :=
  .ok { db with
    requests := fun id => (db.requests id).map fun r =>
      if r.catalogAgentId = agentId ∧ r.status = .pending then r.decide .expired now note else r }

def Db.insertBinding (row : RuntimeBinding) (db : Db) : Except Error Db :=
  match Binding.insertRow? db.bindings row with
  | none => .error .integrity
  | some bindings => .ok { db with bindings := bindings }

def Db.revokeBinding (bindingId : String) (db : Db) : Except Error Db :=
  .ok { db with bindings := Binding.revokeRow db.bindings bindingId }

def Db.insertVerification (row : VerificationRow) (db : Db) : Except Error Db :=
  .ok { db with verifications := db.verifications ++ [row] }

def Db.setAccess (f : AccessTables → AccessTables) (db : Db) : Except Error Db :=
  .ok { db with access := f db.access }

/-! ## The rate limit and the session -/

def windowSeconds : Nat := 900

def retentionSeconds : Nat := 604800

def Db.setLimits (limits : Option (FixedWindow.Counters String)) (db : Db) : Except Error Db :=
  match limits with
  | none => .error .rateLimited
  | some limits => .ok { db with limits := limits }

/-- The window's counter; the windows that are past their retention are dropped first. -/
def Db.countRequest (key : String) (limit now : Nat) (db : Db) : Except Error Db :=
  let window := FixedWindow.windowStart windowSeconds now
  db.setLimits (FixedWindow.consume?
    (FixedWindow.prune (now - retentionSeconds) window db.limits) key window limit)

/-- The local part of an address. -/
def localPart (email : String) : String := String.ofList (email.toList.takeWhile (· ≠ '@'))

/-- `ensure_merchant_id`: an account without a merchant gets `fresh`, and the shadow row is made. -/
def ensureMerchantId (account : Account) (fresh : String) (now : Nat) (db : Db) : Db × Account :=
  let hint := localPart account.email
  let merchantId := if account.merchantId = "" then fresh else account.merchantId
  let updatedAt := if account.merchantId = "" then now else account.updatedAt
  let account := { account with merchantId := merchantId, updatedAt := updatedAt }
  ({ db with
      accounts := setRow account.accountId (fun _ => account) db.accounts
      merchants := fun id =>
        if id = merchantId then
          some ((db.merchants id).getD (if hint = "" then merchantId else hint))
        else db.merchants id }, account)

/-- `resolve_session`; an expired session is dropped. -/
def resolveSession (token fresh : String) (now : Nat) (db : Db) : Db × Option Account :=
  match db.sessions token with
  | none => (db, none)
  | some session =>
    if session.expiresAt < now then
      ({ db with sessions := fun t => if t = token then none else db.sessions t }, none)
    else match db.accounts session.accountId with
      | none => (db, none)
      | some account =>
        let (db, account) := ensureMerchantId account fresh now db
        (db, some account)

end KiwiCatalog.Accounts
