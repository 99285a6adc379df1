import KiwiCatalog.RuntimeAccess.Store
import KiwiCatalog.Lib.History
import KiwiCatalog.Lib.Transition
import KiwiCatalog.Lib.Update
import Mathlib.Data.List.Sort

/-!
# Readers — the three ways a runtime secret leaves the catalog

`get_merchant_access` hands it to a buyer, the keepalive and the public inquiry relay send it to
the runtime.  Each reads binding, consent and configuration by statements of their own, outside a
transaction, so that each statement sees the state that is committed when it runs.  `ρ` names the
requests and wakes, `π` the keepalive passes, in any number.
-/

set_option autoImplicit false

namespace KiwiCatalog.RuntimeAccess

open Binding (currentActiveBinding)

def keepaliveTermsVersion : String := "workbuddy-keepalive-v1-2026-11-04"

def inquiryTermsVersion : String := "open-inquiry-v1"

/-! ## Statements of the readers -/

/-- What a reader has read so far; `config` is a version and its decrypted secret. -/
structure Found where
  agentId : String
  merchantId : String
  bindingId : String
  consent : Bool
  origin : Option String
  config : Option (Nat × String)
  deriving DecidableEq, Repr

inductive Statement
  -- the agent of `get_merchant_access`
  | agent
  | follow (buyer : String)
  | custodyConsent
  | configExists
  | config
  | binding
  -- the binding of `forward`, whose endpoint must lie under the origin
  | relayBinding
  | inquiryConsent
  | inquiryBinding
  | publication
  | keepaliveConsent
  | agentStanding
  | keepaliveBinding
  deriving DecidableEq, Repr

/-- `rstrip("/")`. -/
def stripSlashes (s : String) : String :=
  String.ofList (s.toList.reverse.dropWhile (· = '/')).reverse

def AgentRow.standing (a : AgentRow) (merchantId : String) : Bool :=
  a.merchantId = merchantId && a.administrativeState = .active && a.lifecycleStatus = .active

/-- One statement at the committed state `db`; `none` ends the request. -/
def Statement.read (env : Env) (now : Nat) (db : Db) (f : Found) : Statement → Option Found
  | .agent =>
    match agentRow db f.agentId with
    | none => none
    | some a =>
      if a.merchantId = "" ∨ a.administrativeState ≠ .active then none
      else some { f with merchantId := a.merchantId }
  | .follow buyer => if db.around.follows buyer f.merchantId = some true then some f else none
  | .custodyConsent =>
    if env.custodyEnabled = true ∧ (activeConsent db.access f.agentId).isSome = true then
      some { f with consent := true }
    else none
  | .configExists => if (activeRuntimeAccess db.access f.agentId).isSome = true then some f else none
  | .config =>
    match activeRuntimeAccess db.access f.agentId with
    | none => none
    | some c =>
      match env.decryptSecret c.secretCiphertext c.keyId with
      | none => none
      | some secret => some { f with config := some (c.configVersion, secret) }
  | .binding =>
    match currentActiveBinding db.bindings f.agentId with
    | none => none
    | some b => some { f with origin := some b.runtimeOrigin }
  | .relayBinding =>
    match currentActiveBinding db.bindings f.agentId with
    | none => none
    | some b =>
      if b.a2aEndpoint ≠ stripSlashes b.runtimeOrigin ++ "/a2a" then none
      else some { f with origin := some b.runtimeOrigin }
  | .inquiryConsent =>
    match db.around.inquiryConsents f.agentId with
    | none => none
    | some c =>
      if c.termsVersion ≠ inquiryTermsVersion ∨ c.revoked = true then none
      else some { f with merchantId := c.merchantId, bindingId := c.bindingId }
  | .inquiryBinding =>
    match agentRow db f.agentId, db.bindings.find? fun b =>
        b.catalogAgentId = f.agentId && b.merchantId = f.merchantId &&
          b.bindingId = f.bindingId && b.isActive with
    | some a, some b =>
      if a.standing f.merchantId = true ∧ a.freshnessState ≠ .unreachable ∧
          (db.expiresAt b.bindingId).valid now = true then some f
      else none
    | _, _ => none
  | .publication =>
    if db.around.publications f.agentId = some .active then some f else none
  | .keepaliveConsent =>
    match db.around.keepaliveConsents f.agentId with
    | none => none
    | some c =>
      if c.termsVersion ≠ keepaliveTermsVersion ∨ c.revoked = true then none
      else some { f with merchantId := c.merchantId }
  | .agentStanding =>
    match agentRow db f.agentId with
    | none => none
    | some a => if a.standing f.merchantId = true then some f else none
  | .keepaliveBinding =>
    match db.bindings.find? fun b =>
        b.catalogAgentId = f.agentId && b.merchantId = f.merchantId && b.isActive with
    | none => none
    | some b => if (db.expiresAt b.bindingId).valid now = true then some f else none

/-- The statements of `get_merchant_access` after the session and the limits. -/
def getMerchantAccess (buyer : String) : List Statement :=
  [.agent, .follow buyer, .custodyConsent, .binding, .config]

/-- `public_inquiry_consent.enabled`. -/
def inquiryEnabled : List Statement :=
  [.inquiryConsent, .inquiryBinding, .custodyConsent, .configExists, .publication]

def forward : List Statement := inquiryEnabled ++ [.relayBinding, .config]

/-- `runtime_keepalive.enabled`. -/
def keepaliveEnabled : List Statement :=
  [.keepaliveConsent, .custodyConsent, .configExists, .agentStanding, .keepaliveBinding]

/-- What `_candidates` reads for one row of its page, before the claim. -/
def candidate : List Statement := keepaliveEnabled ++ [.config]

/-! ## The keepalive pass -/

structure Schedule where
  ttlSeconds : Nat
  probeLeadSeconds : Nat
  cooldownSeconds : Nat
  maxAgents : Nat
  deriving DecidableEq, Repr

def Schedule.pageSize (sched : Schedule) : Nat := max 8 (sched.maxAgents * 4)

structure PageRow where
  agentId : String
  runtimeOrigin : String
  lastSeenAt : Option Nat
  freshnessState : Catalog.FreshnessState
  deriving DecidableEq, Repr

/-- `last_seen_at` and the agent, by which the page is ordered and continued. -/
abbrev Cursor := Option Nat × String

def PageRow.cursor (row : PageRow) : Cursor := (row.lastSeenAt, row.agentId)

def seenOrder : Option Nat → Nat
  | none => 0
  | some t => t + 1

def Cursor.before (c d : Cursor) : Prop :=
  seenOrder c.1 < seenOrder d.1 ∨ (seenOrder c.1 = seenOrder d.1 ∧ c.2 < d.2)

instance (c d : Cursor) : Decidable (Cursor.before c d) :=
  inferInstanceAs (Decidable (_ ∨ _))

/-- The conditions of the page on the other tables. -/
def eligible (db : Db) (a : AgentRow) (b : Binding.RuntimeBinding) : Bool :=
  match db.around.keepaliveConsents a.catalogAgentId with
  | none => false
  | some k =>
    !k.revoked && k.termsVersion = keepaliveTermsVersion && b.merchantId = k.merchantId &&
      a.standing k.merchantId && (activeConsent db.access a.catalogAgentId).isSome &&
      match activeRuntimeAccess db.access a.catalogAgentId with
      | none => false
      | some c => c.secretCiphertext ≠ ""

def pageRow (a : AgentRow) (b : Binding.RuntimeBinding) : PageRow :=
  ⟨a.catalogAgentId, b.runtimeOrigin, a.lastSeenAt, a.freshnessState⟩

/-- The join, one row for each agent and active binding of it. -/
def joined (db : Db) : List PageRow :=
  db.around.agents.flatMap fun a =>
    (db.bindings.filter fun b =>
      b.catalogAgentId = a.catalogAgentId && b.isActive && eligible db a b).map (pageRow a)

/-- One page; `none` is the cursor before every row. -/
def page (sched : Schedule) (db : Db) (cursor : Option Cursor) : List PageRow :=
  let rows := (joined db).filter fun row =>
    match cursor with
    | none => true
    | some c => decide (c.before row.cursor)
  (rows.insertionSort fun r r' => ¬ r'.cursor.before r.cursor).take sched.pageSize

def probeDue (sched : Schedule) (now : Nat) (row : PageRow) : Bool :=
  if row.freshnessState ≠ .fresh then true
  else match row.lastSeenAt with
    | none => false
    | some seen => seen ≤ now && sched.ttlSeconds - sched.probeLeadSeconds ≤ now - seen

def PageRow.found (row : PageRow) : Found :=
  ⟨row.agentId, "", "", false, some row.runtimeOrigin, none⟩

/-- The claim of `_candidates`; `claimed` are the agents that the same pass has claimed. -/
def claimable (sched : Schedule) (now : Nat) (db : Db) (claimed : List String)
    (agentId : String) : Bool :=
  match db.around.keepaliveConsents agentId with
  | none => false
  | some k =>
    !k.revoked && k.termsVersion = keepaliveTermsVersion && !claimed.contains agentId &&
      match k.lastAttemptAt with
      | none => true
      | some attempt => attempt ≤ now - sched.cooldownSeconds

/-- What the pass commits when it closes its session. -/
def writeAttempts (now : Nat) (claimed : List String) (db : Db) : Db :=
  { db with
    around := { db.around with
      keepaliveConsents := fun id =>
        if claimed.contains id then
          (db.around.keepaliveConsents id).map fun k => { k with lastAttemptAt := some now }
        else db.around.keepaliveConsents id } }

/-- The loop of `_candidates`: the rows of the page still to come, whether the page was full, the
candidates so far and the claims they rest on. -/
structure Scan where
  cursor : Option Cursor
  rows : List PageRow
  full : Bool
  selected : List Found
  claimed : List String
  deriving DecidableEq, Repr

inductive Pass
  | idle
  | paging (scan : Scan)
  | scanning (scan : Scan)
  | checking (scan : Scan) (found : Found) (todo : List Statement)
  deriving DecidableEq, Repr

def Scan.pending (scan : Scan) : List Found := scan.rows.map PageRow.found ++ scan.selected

/-- Everything a pass has read and may still send. -/
def Pass.held : Pass → List Found
  | .idle => []
  | .paging scan => scan.selected
  | .scanning scan => scan.pending
  | .checking scan found _ => found :: scan.pending

/-! ## The system -/

/-- A request of a buyer, a relay or a wake; `start` is the commit it started after. -/
structure Reader where
  start : Nat
  todo : List Statement
  found : Found
  deriving DecidableEq, Repr

/-- A secret released or sent together with an origin. -/
structure Delivery where
  agentId : String
  origin : String
  configVersion : Nat
  secret : String
  start : Nat
  finish : Nat
  deriving DecidableEq, Repr

structure System (ρ π : Type) where
  log : History Db
  -- the pass that holds the write lock
  writer : Option π
  passes : π → Pass
  -- candidates handed to the pool whose wake has not begun
  waiting : List Found
  readers : ρ → Option Reader
  -- not stored: what has been released or sent
  sent : List Delivery

variable {ρ π : Type} [DecidableEq ρ] [DecidableEq π]

def System.db (s : System ρ π) : Db := s.log.current

/-- A buyer's or a relay's request for an agent. -/
def request (s : System ρ π) (agentId : String) (todo : List Statement) : Reader :=
  ⟨s.log.time, todo, ⟨agentId, "", "", false, none, none⟩⟩

def wake (s : System ρ π) (found : Found) : Reader :=
  ⟨s.log.time, keepaliveEnabled, { found with consent := false }⟩

inductive Event
  | commits (db : Db)
  | other

inductive Step (env : Env) (sched : Schedule) : Event → System ρ π → System ρ π → Prop
  | commits {s : System ρ π} {writes : List Write} {db : Db} (hfree : s.writer = none)
      (h : transact env s.db writes = .ok db) :
      Step env sched (.commits db) s { s with log := s.log.commit db }
  | releaseBegins {s : System ρ π} {r : ρ} (agentId buyer : String) (hr : s.readers r = none) :
      Step env sched .other s
        { s with
          readers := Function.update s.readers r
            (some (request s agentId (getMerchantAccess buyer))) }
  | relayBegins {s : System ρ π} {r : ρ} (agentId : String) (hr : s.readers r = none) :
      Step env sched .other s
        { s with readers := Function.update s.readers r (some (request s agentId forward)) }
  | wakeBegins {s : System ρ π} {r : ρ} {found : Found} (hr : s.readers r = none)
      (hfound : found ∈ s.waiting) :
      Step env sched .other s
        { s with
          readers := Function.update s.readers r (some (wake s found))
          waiting := s.waiting.erase found }
  | reads {s : System ρ π} {r : ρ} {start : Nat} {statement : Statement}
      {todo : List Statement} {found found' : Found} (now : Nat)
      (hr : s.readers r = some ⟨start, statement :: todo, found⟩)
      (h : statement.read env now s.db found = some found') :
      Step env sched .other s
        { s with readers := Function.update s.readers r (some ⟨start, todo, found'⟩) }
  | delivers {s : System ρ π} {r : ρ} {start version : Nat} {found : Found}
      {origin secret : String} (hr : s.readers r = some ⟨start, [], found⟩)
      (hconsent : found.consent = true) (horigin : found.origin = some origin)
      (hconfig : found.config = some (version, secret)) :
      Step env sched .other s
        { s with
          readers := Function.update s.readers r none
          sent := ⟨found.agentId, origin, version, secret, start, s.log.time⟩ :: s.sent }
  -- a check fails, an exception is raised, or the pool is shut down
  | ends {s : System ρ π} (r : ρ) :
      Step env sched .other s { s with readers := Function.update s.readers r none }
  | drops {s : System ρ π} (found : Found) :
      Step env sched .other s { s with waiting := s.waiting.erase found }
  | passBegins {s : System ρ π} {p : π} (hp : s.passes p = .idle) :
      Step env sched .other s
        { s with passes := Function.update s.passes p (.paging ⟨none, [], false, [], []⟩) }
  | passPages {s : System ρ π} {p : π} {scan : Scan} (hp : s.passes p = .paging scan)
      (hroom : scan.selected.length < sched.maxAgents) :
      Step env sched .other s
        { s with
          passes := Function.update s.passes p (.scanning { scan with
            rows := page sched s.db scan.cursor
            full := (page sched s.db scan.cursor).length = sched.pageSize }) }
  | passSkips {s : System ρ π} {p : π} {scan : Scan} {row : PageRow} {rows : List PageRow}
      (now : Nat) (hp : s.passes p = .scanning scan) (hrows : scan.rows = row :: rows)
      (hskip : probeDue sched now row = false ∨ env.safeEndpoint row.runtimeOrigin = false) :
      Step env sched .other s
        { s with
          passes := Function.update s.passes p
            (.scanning { scan with rows := rows, cursor := some row.cursor }) }
  | passPicks {s : System ρ π} {p : π} {scan : Scan} {row : PageRow} {rows : List PageRow}
      (now : Nat) (hp : s.passes p = .scanning scan) (hrows : scan.rows = row :: rows)
      (hdue : probeDue sched now row = true) (hsafe : env.safeEndpoint row.runtimeOrigin = true) :
      Step env sched .other s
        { s with
          passes := Function.update s.passes p
            (.checking { scan with rows := rows, cursor := some row.cursor } row.found candidate) }
  | passReads {s : System ρ π} {p : π} {scan : Scan} {statement : Statement}
      {todo : List Statement} {found found' : Found} (now : Nat)
      (hp : s.passes p = .checking scan found (statement :: todo))
      (h : statement.read env now s.db found = some found') :
      Step env sched .other s
        { s with passes := Function.update s.passes p (.checking scan found' todo) }
  | passDrops {s : System ρ π} {p : π} {scan : Scan} {statement : Statement}
      {todo : List Statement} {found : Found} (now : Nat)
      (hp : s.passes p = .checking scan found (statement :: todo))
      (h : statement.read env now s.db found = none) :
      Step env sched .other s { s with passes := Function.update s.passes p (.scanning scan) }
  -- the first claim of a pass opens its write transaction
  | passClaims {s : System ρ π} {p : π} {scan : Scan} {found : Found} (now : Nat)
      (hp : s.passes p = .checking scan found [])
      (hwriter : s.writer = none ∨ s.writer = some p)
      (hclaim : claimable sched now s.db scan.claimed found.agentId = true) :
      Step env sched .other s
        { s with
          writer := some p
          passes := Function.update s.passes p (.scanning { scan with
            selected := scan.selected ++ [found]
            claimed := found.agentId :: scan.claimed
            rows := if scan.selected.length + 1 < sched.maxAgents then scan.rows else []
            full := scan.selected.length + 1 < sched.maxAgents && scan.full }) }
  | passCools {s : System ρ π} {p : π} {scan : Scan} {found : Found} (now : Nat)
      (hp : s.passes p = .checking scan found [])
      (hclaim : claimable sched now s.db scan.claimed found.agentId = false) :
      Step env sched .other s { s with passes := Function.update s.passes p (.scanning scan) }
  | passTurns {s : System ρ π} {p : π} {scan : Scan} (hp : s.passes p = .scanning scan)
      (hrows : scan.rows = []) (hfull : scan.full = true) :
      Step env sched .other s { s with passes := Function.update s.passes p (.paging scan) }
  -- a pass without a claim has written nothing
  | passEnds {s : System ρ π} {p : π} {scan : Scan} (hp : s.passes p = .scanning scan)
      (hrows : scan.rows = []) (hfull : scan.full = false) (hclaimed : scan.claimed = []) :
      Step env sched .other s { s with passes := Function.update s.passes p .idle }
  | passCommits {s : System ρ π} {p : π} {scan : Scan} (now : Nat)
      (hp : s.passes p = .scanning scan) (hrows : scan.rows = []) (hfull : scan.full = false)
      (hwriter : s.writer = some p) :
      Step env sched .other s
        { s with
          log := s.log.commit (writeAttempts now scan.claimed s.db)
          writer := none
          passes := Function.update s.passes p .idle
          waiting := s.waiting ++ scan.selected }
  | passFails {s : System ρ π} (p : π) :
      Step env sched .other s
        { s with
          writer := if s.writer = some p then none else s.writer
          passes := Function.update s.passes p .idle }

def Started (s : System ρ π) : Prop :=
  s.writer = none ∧ s.waiting = [] ∧ s.sent = [] ∧ (∀ p, s.passes p = .idle) ∧
    ∀ r, s.readers r = none

/-! ## What a delivery rests on -/

/-- The state has the origin at the agent's active binding, the version as its active
configuration with that secret, and an active consent. -/
structure Paired (env : Env) (d : Delivery) (db : Db) : Prop where
  origin : OriginActive db d.agentId d.origin
  config : ConfigActive env db d.agentId d.configVersion d.secret
  consent : ConsentActive db d.agentId

/-- What has been read of binding and configuration stands in the state. -/
structure Found.PairHolds (env : Env) (f : Found) (db : Db) : Prop where
  origin : ∀ origin, f.origin = some origin → OriginActive db f.agentId origin
  config : ∀ version secret, f.config = some (version, secret) →
    ConfigActive env db f.agentId version secret

structure Found.Holds (env : Env) (f : Found) (db : Db) : Prop extends Found.PairHolds env f db where
  consent : f.consent = true → ConsentActive db f.agentId

/-- Binding, configuration and consent have all been read. -/
def Found.Complete (f : Found) : Prop :=
  f.consent = true ∧ f.origin ≠ none ∧ f.config ≠ none

/-- A transaction leaves what was read by a request or a wake between its reads, and the pairs that
a keepalive pass has read and no wake has taken up yet. -/
def Undisturbed (env : Env) (s : System ρ π) : Event → Prop
  | .commits db =>
    (∀ r reader, s.readers r = some reader → ¬ reader.found.Complete →
      reader.found.Holds env db) ∧
    (∀ p, ∀ f ∈ (s.passes p).held, f.PairHolds env db) ∧
    ∀ f ∈ s.waiting, f.PairHolds env db
  | .other => True

def AnyStep (env : Env) (sched : Schedule) (s s' : System ρ π) : Prop :=
  ∃ event, Step env sched event s s'

def UndisturbedStep (env : Env) (sched : Schedule) (s s' : System ρ π) : Prop :=
  ∃ event, Step env sched event s s' ∧ Undisturbed env s event

end KiwiCatalog.RuntimeAccess
