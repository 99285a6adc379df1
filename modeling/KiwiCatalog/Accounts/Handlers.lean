import KiwiCatalog.Accounts.Tables
import KiwiCatalog.Lib.Work

/-!
# Account handlers — the service work behind a resolved session

Each handler as the statements it makes on the open connection, in their order, with the checks
between them.
-/

set_option autoImplicit false

namespace KiwiCatalog.Accounts

open RuntimeAccess (AccessTables PublicationState)

/-- The token of an account view; the text is empty unless the token is active. -/
structure TokenInfo where
  active : Bool
  token : String
  deriving DecidableEq, Repr

inductive Reply
  | view (account : Account) (token : Option TokenInfo)
  | submitted (applicationId : Nat)
  | pending
  | agent (created : Bool) (row : AgentRow)
  | agents (rows : List AgentRow)
  | card (row : AgentRow) (publication : Option Publication)
  | publication (revision : Int) (state : PublicationState)
  | requests (agentId : String)
  | bound (bindingId : String) (version : Nat) (canonicalDomain : String)
  | rejected (requestId : String)
  | enrollment (row : EnrollmentRow)
  deriving DecidableEq, Repr

abbrev Task := Work Db Error Reply

/-- A work that makes no statement before it knows how to go on. -/
def orElse {α : Type} (x : Option α) (e : Error) (k : α → Task) : Task :=
  match x with
  | none => .raise e
  | some a => k a

/-! ## Shared pieces -/

/-- None is issued while the hash is empty; an active one must decrypt. -/
def tokenInfo (env : Env) (db : Db) (merchantId : String) : Except Error (Option TokenInfo) :=
  match (db.tokens merchantId).filter fun t => t.tokenHash ≠ "" with
  | none => .ok none
  | some t =>
    if t.active = false then .ok (some ⟨false, ""⟩)
    else match env.decryptToken t.tokenEncrypted with
      | none => .error .unreadable
      | some plaintext => .ok (some ⟨true, plaintext⟩)

/-- `account_view`. -/
def accountView (env : Env) (account : Account) (k : Option TokenInfo → Task) : Task :=
  .read fun db =>
    match tokenInfo env db account.merchantId with
    | .error e => .raise e
    | .ok token => k token

def Db.pendingApplication (db : Db) (applicationId : Nat) : Bool :=
  db.applications.any fun a => a.applicationId = applicationId && a.status = .pending

/-- `enforce_rate_limit` on the account. -/
def limited (env : Env) (surface : String) (account : Account) (now : Nat) (k : Task) : Task :=
  if env.loginRateLimit = 0 then k
  else .write (Db.countRequest (surface ++ toString account.accountId) env.loginRateLimit now) k

/-- The a2a row of `sync_cloud_endpoints`. -/
def syncA2aRow (agentId : String) (now : Nat) (k : Task) : Task :=
  .read fun db =>
    let withdrawn := (db.publications agentId).any fun p => p.state = .withdrawn
    match Binding.currentActiveBinding db.bindings agentId, withdrawn with
    | some binding, false =>
      .write (Db.upsertEndpoint ⟨agentId, .a2a, binding.a2aEndpoint, now⟩) k
    | _, _ => .write (Db.deleteEndpoints fun e => e.catalogAgentId = agentId && e.kind = .a2a) k

/-- Its agent card row. -/
def syncCardRow (env : Env) (agentId : String) (now : Nat) (k : Task) : Task :=
  .read fun db =>
    let hasCard := (db.publications agentId).any fun p => p.state ≠ .withdrawn
    match Binding.currentActiveBinding db.bindings agentId, hasCard with
    | some _, true =>
      .write (Db.upsertEndpoint ⟨agentId, .agentCard, env.cardUrl agentId, now⟩) k
    | _, _ =>
      .write (Db.deleteEndpoints fun e =>
        e.catalogAgentId = agentId && e.kind = .agentCard && e.url = env.cardUrl agentId) k

def syncCloudEndpoints (env : Env) (agentId : String) (now : Nat) (k : Task) : Task :=
  syncA2aRow agentId now (syncCardRow env agentId now k)

/-! ## `token_request` and `profile` -/

structure TokenRequest where
  domain : String
  agentName : String
  agentId : String
  phone : String
  purpose : String
  deriving DecidableEq, Repr

/-- The application that `request_token` files, or why it files none. -/
def applicationFor (env : Env) (account : Account) (req : TokenRequest) :
    Except Error Application :=
  match if req.domain = "" then some "" else env.normalizeDomain req.domain with
  | none => .error .validation
  | some domain =>
    let merchantName := if account.merchantName = "" then req.agentName else account.merchantName
    let phone := if account.phone = "" then req.phone else account.phone
    if merchantName = "" then .error .validation
    else .ok ⟨0, .pending, domain, merchantName, req.agentId, account.email, req.purpose, phone,
      account.accountId⟩

def requestToken (env : Env) (account : Account) (req : TokenRequest) (now : Nat) : Task :=
  limited env "token-request:" account now <|
  if account.merchantId = "" then .raise .validation else
  accountView env account fun token =>
  if token.any TokenInfo.active = true then .done (.view account token) else
  .read fun db =>
  if db.pendingApplication account.applicationId = true then .done .pending else
  match applicationFor env account req with
  | .error e => .raise e
  | .ok row =>
    .write (Db.insertApplication { row with applicationId := db.nextApplicationId }) <|
    .write (Db.updateAccount account.accountId fun a =>
      { a with applicationId := db.nextApplicationId, updatedAt := now }) <|
    .write (Db.updateAccount account.accountId fun a =>
      { a with merchantName := row.agentName, phone := row.phone, updatedAt := now }) <|
    .done (.submitted db.nextApplicationId)

structure ProfileRequest where
  merchantName : String
  phone : String
  wechat : String
  agentId : String
  deriving DecidableEq, Repr

def ProfileRequest.valid (req : ProfileRequest) : Bool :=
  req.merchantName.length ≤ 200 && req.phone.length ≤ 40 && req.wechat.length ≤ 200 &&
    req.agentId.length ≤ 200

/-- A field of the profile is written where it is not empty. -/
def setField (value : String) (w : Db → Except Error Db) (k : Task) : Task :=
  if value = "" then k else .write w k

/-- The agent id goes to the latest application of the account, if there is one. -/
def Db.setAgentId (accountId : Nat) (agentId : String) (db : Db) : Except Error Db :=
  match db.latestApplication accountId with
  | none => .ok db
  | some applicationId => db.updateApplication applicationId fun a => { a with agentId := agentId }

/-- The view at the end of `update_profile`. -/
def profileView (env : Env) (account : Account) : Task :=
  .read fun db =>
  orElse (db.accounts account.accountId) .unreadable fun fresh =>
  accountView env fresh fun token => .done (.view fresh token)

def updateAgentId (env : Env) (account : Account) (req : ProfileRequest) : Task :=
  setField req.agentId (Db.setAgentId account.accountId req.agentId) (profileView env account)

def updateWechat (env : Env) (account : Account) (req : ProfileRequest) (now : Nat) : Task :=
  setField req.wechat (Db.updateAccount account.accountId fun a =>
    { a with wechat := req.wechat, updatedAt := now }) (updateAgentId env account req)

def updatePhone (env : Env) (account : Account) (req : ProfileRequest) (now : Nat) : Task :=
  setField req.phone (Db.updateAccount account.accountId fun a =>
    { a with phone := req.phone, updatedAt := now }) (updateWechat env account req now)

/-- `update_profile`, field by field. -/
def updateProfile (env : Env) (account : Account) (req : ProfileRequest) (now : Nat) : Task :=
  if req.valid = false then .raise .validation else
  setField req.merchantName (Db.updateAccount account.accountId fun a =>
    { a with merchantName := req.merchantName, updatedAt := now }) (updatePhone env account req now)

/-- `me`; the reveal of an active token is recorded. -/
def me (env : Env) (account : Account) : Task :=
  accountView env account fun token =>
  if token.any TokenInfo.active = false then .done (.view account token)
  else .write (Db.appendAudit "" ("account:" ++ toString account.accountId)
    "merchant_token_viewed") (.done (.view account token))

/-! ## The agents of the account -/

/-- `fresh` is the new catalog agent id. -/
def createAgent (env : Env) (account : Account) (fresh : String) (now : Nat) : Task :=
  limited env "agent-create:" account now <|
  if account.merchantId = "" then .raise .validation else
  .read fun db =>
  match db.ofMerchant account.merchantId with
  | row :: _ => .done (.agent false row)
  | [] =>
    let name := if account.merchantName = "" then account.merchantId else account.merchantName
    let row : AgentRow := ⟨fresh, account.merchantId, name, "", ⟨.discovered, .fresh, .active⟩, 0, now⟩
    .write (Db.insertAgent row) <|
    .write (Db.ensureMerchant account.merchantId name) <|
    .write (Db.appendAudit fresh ("merchant:" ++ account.merchantId) "catalog_agent_registered") <|
    .read fun db =>
    orElse (db.ownedAgent account fresh) .notFound fun row => .done (.agent true row)

def listAgents (account : Account) : Task :=
  if account.merchantId = "" then .raise .validation else
  .read fun db => .done (.agents (db.ofMerchant account.merchantId))

/-- The pending requests in a card detail are expired lazily first. -/
def getAgentCard (account : Account) (agentId : String) (now : Nat) : Task :=
  .read fun db =>
  orElse (db.ownedAgent account agentId) .notFound fun row =>
  .read fun db =>
  .write (Db.expireStale agentId now) <|
  .read fun _ => .done (.card row (db.publications agentId))

inductive CardAction
  | pause
  | resume
  | withdraw
  deriving DecidableEq, Repr

/-- `activate_card` with the revision it expects. -/
def activateCard (env : Env) (agentId : String) (revision : Int) (now : Nat) (k : Task) : Task :=
  .read fun db =>
  orElse (db.cards agentId revision) .notFound fun card =>
  .read fun db =>
  if ((db.publications agentId).map Publication.activeRevision).getD 0 ≠ revision then
    .raise .conflict
  else orElse card .unreadable fun etag =>
    .write (Db.writePublication agentId ⟨revision, .active, etag, now⟩) <|
    syncCloudEndpoints env agentId now k

/-- `set_publication_state`. -/
def setPublicationState (env : Env) (agentId : String) (state : PublicationState) (revision : Int)
    (now : Nat) (k : Task) : Task :=
  .read fun db =>
  orElse (db.publications agentId) .notFound fun current =>
  if current.activeRevision ≠ revision then .raise .conflict
  else
    .write (Db.writePublication agentId { current with state := state, updatedAt := now }) <|
    syncCloudEndpoints env agentId now k

/-- `none` is an `expected_revision` that is no integer. -/
def setMyCardState (env : Env) (account : Account) (agentId : String) (action : CardAction)
    (expectedRevision : Option Int) (now : Nat) : Task :=
  limited env "card-govern:" account now <|
  orElse expectedRevision .validation fun revision =>
  .read fun db =>
  orElse (db.ownedAgent account agentId) .notFound fun row =>
  let actor := "merchant:" ++ row.merchantId
  match action with
  | .resume =>
    activateCard env agentId revision now <|
    .write (Db.appendAudit agentId actor "card_publication_resumed") <|
    .done (.publication revision .active)
  | .pause =>
    setPublicationState env agentId .paused revision now <|
    .write (Db.cancelEnrollments agentId) <|
    .write (Db.appendAudit agentId actor "card_publication_paused") <|
    .done (.publication revision .paused)
  | .withdraw =>
    setPublicationState env agentId .withdrawn revision now <|
    .write (Db.cancelEnrollments agentId) <|
    .write (Db.appendAudit agentId actor "card_publication_withdrawn") <|
    .done (.publication revision .withdrawn)

/-! ## The decision on a binding request -/

def listPending (account : Account) (agentId : String) (now : Nat) : Task :=
  .read fun db =>
  orElse (db.ownedAgent account agentId) .notFound fun _ =>
  .write (Db.expireStale agentId now) <|
  .read fun _ => .done (.requests agentId)

/-- `_load_pending_request`. -/
def loadPendingRequest (agentId requestId : String) (now : Nat) (k : BindingRequest → Task) : Task :=
  .write (Db.expireStale agentId now) <|
  .read fun db =>
  orElse ((db.requests requestId).filter fun r => r.catalogAgentId = agentId) .notFound fun req =>
  match req.status with
  | .expired => .raise .notFound
  | .confirmed | .rejected => .raise .conflict
  | .pending => k req

/-- Ninety days, in seconds. -/
def evidenceSeconds : Nat := 7776000

/-- `record_active_binding_evidence`. -/
def recordEvidence (agentId bindingId : String) (now : Nat) (k : Task) : Task :=
  .read fun db =>
  if (db.bindings.any fun b => b.bindingId = bindingId && b.isActive) = false then .raise .conflict
  else
    .write (Db.insertVerification
      ⟨agentId, .agentIdentity, bindingId, now, now + evidenceSeconds⟩) <|
    .write (Db.insertVerification
      ⟨agentId, .commerceCapability, bindingId, now, now + evidenceSeconds⟩) <|
    .read fun _ =>
    .write (Db.updateAgent agentId fun a =>
      { a with
        domains := { a.domains with level := .commerceVerified, freshness := .fresh }
        lastVerifiedAt := now
        updatedAt := now }) k

/-- `_activate_linked_access_config`: a conflict leaves the version pending. -/
def activateLinked (env : Env) (agentId : String) (version now : Nat) (k : Task) : Task :=
  if version = 0 then k else
  .read fun db =>
  match RuntimeAccess.activationMerchant env.access agentId version db.access
    ((db.findAgent agentId).map AgentRow.merchantId) with
  | .error .notFound => .raise .notFound
  | .error _ => k
  | .ok merchantId =>
    .write (Db.setAccess fun access => access.revokeActive agentId "superseded") <|
    .write (Db.setAccess fun access => access.decidePending agentId version .active) <|
    .write (Db.setAccess fun access => access.recordConsent agentId merchantId) k

/-- The active binding that the new one supersedes. -/
def revokeSuperseded (active : Option Binding.RuntimeBinding) (k : Task) : Task :=
  match active with
  | none => k
  | some active => .write (Db.revokeBinding active.bindingId) k

/-- An empty canonical domain is filled from the confirmed origin. -/
def fillDomain (env : Env) (row : AgentRow) (origin : String) (now : Nat) (k : String → Task) :
    Task :=
  if row.canonicalDomain ≠ "" then k row.canonicalDomain
  else orElse (Trust.canonicalDomainOf env.web origin) .unreadable fun canonical =>
    .write (Db.updateAgent row.catalogAgentId fun a =>
      { a with canonicalDomain := canonical, updatedAt := now }) (k canonical)

/-- What `confirm_request` does once the binding is inserted. -/
def confirmEffects (env : Env) (row : AgentRow) (requestId : String) (req : BindingRequest)
    (bindingId : String) (version : Nat) (active : Option Binding.RuntimeBinding) (now : Nat) :
    Task :=
  let agentId := row.catalogAgentId
  revokeSuperseded active <|
  .write (Db.decideRequest requestId .confirmed now req.decidedNote) <|
  .write (Db.supersedeRequests agentId now ("superseded by confirmed request " ++ requestId)) <|
  fillDomain env row req.declaration.runtimeOrigin now fun canonical =>
  syncCloudEndpoints env agentId now <|
  recordEvidence agentId bindingId now <|
  activateLinked env agentId req.accessConfigVersion now <|
  .write (Db.appendAudit agentId ("merchant:" ++ row.merchantId) "runtime_binding_confirmed") <|
  .done (.bound bindingId version canonical)

/-- The version that a confirmation inserts, unless its generated id is taken. -/
def nextBinding (db : Db) (row : AgentRow) (req : BindingRequest) :
    Except Error Binding.RuntimeBinding :=
  let version := Binding.maxVersion db.bindings row.catalogAgentId + 1
  let bindingId := Binding.bindId row.catalogAgentId version
  if (db.bindings.any fun b => b.bindingId = bindingId) = true then .error .conflict
  else .ok (Binding.newRow row.catalogAgentId row.merchantId bindingId req.declaration version)

def confirmRequest (env : Env) (account : Account) (agentId requestId : String) (now : Nat) : Task :=
  limited env "binding-decide:" account now <|
  .read fun db =>
  orElse (db.ownedAgent account agentId) .notFound fun row =>
  loadPendingRequest row.catalogAgentId requestId now fun req =>
  .read fun db =>
  match nextBinding db row req with
  | .error e => .raise e
  | .ok binding =>
    .read fun db =>
    .write (Db.insertBinding binding) <|
    confirmEffects env row requestId req binding.bindingId binding.bindingVersion
      ((Binding.rowsOf db.bindings row.catalogAgentId).find? Binding.RuntimeBinding.isActive) now

/-- `_invalidate_linked_access_config`: best effort. -/
def invalidateLinked (agentId : String) (version : Nat) (k : Task) : Task :=
  if version = 0 then k else
  .read fun db =>
  match RuntimeAccess.configRow db.access agentId version with
  | none => k
  | some config =>
    if config.status ≠ .pending then k
    else .write (Db.setAccess fun access => access.decidePending agentId version .invalid) k

def rejectRequest (env : Env) (account : Account) (agentId requestId note : String) (now : Nat) :
    Task :=
  limited env "binding-decide:" account now <|
  .read fun db =>
  orElse (db.ownedAgent account agentId) .notFound fun row =>
  if note = "" then .raise .validation else
  loadPendingRequest agentId requestId now fun _ =>
  .write (Db.decideRequest requestId .rejected now note) <|
  .read fun db =>
  invalidateLinked agentId (((db.requests requestId).map BindingRequest.accessConfigVersion).getD 0) <|
  .write (Db.appendAudit agentId ("merchant:" ++ row.merchantId) "runtime_binding_rejected") <|
  .done (.rejected requestId)

/-! ## `enrollment_detail` -/

/-- The lazy expiry of `public_enrollment`. -/
def expireOverdue (enrollmentId : String) (row : EnrollmentRow) (now : Nat) (k : Task) : Task :=
  if row.overdue now = true then .write (Db.expireEnrollment enrollmentId) k else k

/-- The preview is withheld from other merchants. -/
def enrollmentPreview (account : Account) (row : EnrollmentRow) (now : Nat) : Task :=
  .read fun _ =>
  if row.merchantId ≠ "" ∧ row.merchantId ≠ account.merchantId then .raise .notFound
  else .done (.enrollment (row.lapse now))

def enrollmentDetail (account : Account) (enrollmentId : String) (now : Nat) : Task :=
  .write (Db.countRequest ("enrollment-view:" ++ toString account.accountId) 30 now) <|
  .read fun db =>
  orElse (db.enrollments enrollmentId) .notFound fun row =>
  expireOverdue enrollmentId row now (enrollmentPreview account row now)

/-! ## The handlers -/

inductive Handler
  | me
  | tokenRequest (req : TokenRequest)
  | profile (req : ProfileRequest)
  | createAgent (fresh : String)
  | listAgents
  | getAgentCard (agentId : String)
  | setAgentCardState (agentId : String) (action : CardAction) (expectedRevision : Option Int)
  | listPendingBindings (agentId : String)
  | confirmBinding (agentId requestId : String)
  | rejectBinding (agentId requestId note : String)
  | enrollmentDetail (enrollmentId : String)
  deriving DecidableEq, Repr

/-- The service work of a handler for the account of the session. -/
def Handler.task (env : Env) (account : Account) (now : Nat) : Handler → Task
  | .me => Accounts.me env account
  | .tokenRequest req => requestToken env account req now
  | .profile req => updateProfile env account req now
  | .createAgent fresh => Accounts.createAgent env account fresh now
  | .listAgents => Accounts.listAgents account
  | .getAgentCard agentId => Accounts.getAgentCard account agentId now
  | .setAgentCardState agentId action expectedRevision =>
    setMyCardState env account agentId action expectedRevision now
  | .listPendingBindings agentId => listPending account agentId now
  | .confirmBinding agentId requestId => confirmRequest env account agentId requestId now
  | .rejectBinding agentId requestId note => rejectRequest env account agentId requestId note now
  | .enrollmentDetail enrollmentId => Accounts.enrollmentDetail account enrollmentId now

/-- `_require_session`, the work, and the exit from the context without the exception. -/
def handle (env : Env) (token fresh : String) (now : Nat) (h : Handler) (fault : Option Nat)
    (db : Db) : Db × Except Error Reply :=
  match resolveSession token fresh now db with
  | (db, none) => (db, .error .auth)
  | (db, some account) =>
    (h.task env account now).commitAlways .interrupted fault db

/-! ## What must be as before -/

/-- The database without rate-limit counters, and with every mark of a lazy expiry that is due. -/
def core (now : Nat) (db : Db) : Db :=
  { db with
    limits := fun _ _ => 0
    enrollments := fun id => (db.enrollments id).map (EnrollmentRow.lapse now)
    requests := fun id => (db.requests id).map (BindingRequest.lapse now) }

end KiwiCatalog.Accounts
