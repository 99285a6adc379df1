import KiwiCatalog.Lib.IsoMicroseconds
import KiwiCatalog.Lib.Keyset
import KiwiCatalog.Lib.Url
import KiwiCatalog.RuntimeAccess.Readers
import Mathlib.Data.List.Lex
import Mathlib.Data.Prod.Lex
import Mathlib.Data.String.Basic

/-!
# Keepalive pass — which agents a pass selects

Times are the texts that the tables have.  A pass reads page after page in the order of
`last_seen_at` and the agent, and claims each agent that it selects by a conditional update.
-/

set_option autoImplicit false

namespace KiwiCatalog.Keepalive

open Binding (RuntimeBinding)
open Catalog (FreshnessState)
open IsoText (secondText offsetText maxSeconds)
open RuntimeAccess (AccessTables Expiry keepaliveTermsVersion activeConsent activeRuntimeAccess)
open Trust (AdministrativeState LifecycleStatus)
open Url (Text)

/-! ## 1. Tables -/

/-- What `_parse` makes of a text: the microsecond of the UTC clock, a `ValueError`, or an exception
of another kind, as for a time without an offset. -/
inductive Stamp
  | at (micros : Int)
  | unreadable
  | escapes
  deriving DecidableEq, Repr

structure Env extends RuntimeAccess.Env where
  parse : Text → Stamp

structure AgentRow where
  catalogAgentId : String
  merchantId : String
  administrativeState : AdministrativeState
  lifecycleStatus : LifecycleStatus
  freshnessState : FreshnessState
  lastSeenAt : Text
  named : catalogAgentId ≠ ""

structure Consent where
  merchantId : String
  termsVersion : String
  revoked : Bool
  lastAttemptAt : Text
  deriving DecidableEq, Repr

/-- The tables that a pass reads.  The primary key of agents and the store of bindings let one agent
have one row and one active binding. -/
structure Tables where
  agents : List AgentRow
  consents : String → Option Consent
  access : AccessTables
  bindings : List RuntimeBinding
  -- by binding id
  expiresAt : String → Expiry
  agents_unique : (agents.map AgentRow.catalogAgentId).Nodup
  active_unique : ((bindings.filter RuntimeBinding.isActive).map
    RuntimeBinding.catalogAgentId).Nodup

/-- The settings of a scheduler that its constructor accepts. -/
structure Scheduler where
  ttlSeconds : Nat
  leadSeconds : Nat
  cooldownSeconds : Nat
  maxAgents : Nat
  cooldown_min : 60 ≤ cooldownSeconds
  agents_min : 1 ≤ maxAgents
  agents_max : maxAgents ≤ 100

def Scheduler.pageSize (sched : Scheduler) : Nat := max 8 (sched.maxAgents * 4)

/-- A reading of the clock in seconds, from which the cooldown can be subtracted. -/
abbrev Clock (sched : Scheduler) := { n : Nat // sched.cooldownSeconds ≤ n ∧ n < maxSeconds }

/-- `isoformat` of a UTC time in whole seconds. -/
def isoText (seconds : Nat) : Text := secondText seconds ++ offsetText 0

def cutoff (sched : Scheduler) (now : Clock sched) : Text := isoText (now.1 - sched.cooldownSeconds)

def Consent.current (k : Consent) : Bool := !k.revoked && k.termsVersion = keepaliveTermsVersion

/-! ## 2. Consent -/

def agentRow (t : Tables) (agentId : String) : Option AgentRow :=
  t.agents.find? fun a => a.catalogAgentId = agentId

/-- `_current_binding`; `wall` is a clock of its own. -/
def currentBinding (wall : Nat) (t : Tables) (agentId merchantId : String) : Bool :=
  ((t.bindings.find? fun b =>
    b.catalogAgentId = agentId && b.merchantId = merchantId && b.isActive).map fun b =>
      (t.expiresAt b.bindingId).valid wall).getD false

def standing (t : Tables) (agentId merchantId : String) : Bool :=
  (agentRow t agentId).any fun a =>
    a.merchantId = merchantId && a.administrativeState = .active && a.lifecycleStatus = .active

def enabled (env : Env) (wall : Nat) (t : Tables) (agentId : String) : Bool :=
  (t.consents agentId).any fun k =>
    k.current && env.custodyEnabled && (activeConsent t.access agentId).isSome &&
      (activeRuntimeAccess t.access agentId).isSome && standing t agentId k.merchantId &&
      currentBinding wall t agentId k.merchantId

/-- Whether `grant` gets past its checks. -/
def grantable (env : Env) (wall : Nat) (t : Tables) (agentId merchantId termsVersion : String) :
    Bool :=
  termsVersion = keepaliveTermsVersion && env.custodyEnabled &&
    ((agentRow t agentId).any fun a => a.merchantId = merchantId) &&
    (activeConsent t.access agentId).isSome && (activeRuntimeAccess t.access agentId).isSome &&
    currentBinding wall t agentId merchantId

def Tables.setConsent (t : Tables) (agentId : String) (consent : Option Consent) : Tables :=
  { t with consents := Function.update t.consents agentId consent }

/-- The upsert of `grant`, which forgets the last attempt. -/
def grant (agentId merchantId : String) (t : Tables) : Tables :=
  t.setConsent agentId (some ⟨merchantId, keepaliveTermsVersion, false, []⟩)

def revoke (agentId merchantId : String) (t : Tables) : Tables :=
  t.setConsent agentId ((t.consents agentId).map fun k =>
    if k.merchantId = merchantId then { k with revoked := true } else k)

/-! ## 3. The page -/

structure PageRow where
  agentId : String
  merchantId : String
  runtimeOrigin : String
  lastSeenAt : Text
  freshnessState : FreshnessState

/-- The conditions of the page on the other tables. -/
def listed (t : Tables) (a : AgentRow) (b : RuntimeBinding) (k : Consent) : Bool :=
  k.current && (activeConsent t.access a.catalogAgentId).isSome &&
    ((activeRuntimeAccess t.access a.catalogAgentId).any fun c => c.secretCiphertext ≠ "") &&
    b.merchantId = k.merchantId && a.merchantId = k.merchantId &&
    a.administrativeState = .active && a.lifecycleStatus = .active

def pageRow (t : Tables) (a : AgentRow) (b : RuntimeBinding) : Option PageRow :=
  ((t.consents a.catalogAgentId).filter (listed t a b)).map fun k =>
    ⟨a.catalogAgentId, k.merchantId, b.runtimeOrigin, a.lastSeenAt, a.freshnessState⟩

/-- The join: the active bindings, each with its agent. -/
def joined (t : Tables) : List PageRow :=
  t.agents.flatMap fun a =>
    (t.bindings.filter fun b => b.isActive && b.catalogAgentId = a.catalogAgentId).filterMap
      (pageRow t a)

/-- `last_seen_at` and the agent. -/
abbrev Cursor := Text ×ₗ String

def rowOrder : Keyset PageRow Cursor :=
  Keyset.ofLinear fun row => toLex (row.lastSeenAt, row.agentId)

/-- `order by a.last_seen_at asc, a.catalog_agent_id asc`. -/
def ordered (t : Tables) : List PageRow := (joined t).mergeSort rowOrder.inOrder

def page (pageSize : Nat) (t : Tables) (cursor : Cursor) : List PageRow :=
  rowOrder.page cursor pageSize (ordered t)

/-! ## 4. The pass -/

inductive Raised
  -- from `_probe_due`
  | clock
  -- never
  | fuel
  deriving DecidableEq, Repr

structure Candidate where
  agentId : String
  merchantId : String
  runtimeOrigin : String
  secret : String
  lastSeenAt : Text
  freshnessState : FreshnessState

variable (env : Env) (sched : Scheduler) (now : Clock sched) (wall : Nat)

def probeDue (row : PageRow) : Except Raised Bool :=
  if row.freshnessState ≠ .fresh then .ok true
  else if row.lastSeenAt = [] then .ok false
  else
    match env.parse row.lastSeenAt with
    | .at seen =>
      .ok (decide (((sched.ttlSeconds - sched.leadSeconds : Nat) : Int) * 1000000 ≤
        (now.1 : Int) * 1000000 - seen))
    | .unreadable => .ok false
    -- what is caught are `TypeError` and `ValueError`
    | .escapes => .error .clock

/-- The condition of the claim. -/
def claimable (t : Tables) (agentId : String) : Bool :=
  (t.consents agentId).any fun k =>
    k.current && (k.lastAttemptAt = [] || !decide (cutoff sched now < k.lastAttemptAt))

def secretOf (t : Tables) (agentId : String) : Option String :=
  (activeRuntimeAccess t.access agentId).bind fun c => env.decryptSecret c.secretCiphertext c.keyId

def attempt (agentId : String) (t : Tables) : Tables :=
  t.setConsent agentId ((t.consents agentId).map fun k => { k with lastAttemptAt := isoText now.1 })

/-- The secret of a row that is selected, when it is due. -/
def selects (t : Tables) (row : PageRow) : Option String :=
  if env.safeEndpoint row.runtimeOrigin && enabled env wall t row.agentId then
    (secretOf env t row.agentId).filter fun _ => claimable sched now t row.agentId
  else none

def candidate (row : PageRow) (secret : String) : Candidate :=
  ⟨row.agentId, row.merchantId, row.runtimeOrigin, secret, row.lastSeenAt, row.freshnessState⟩

/-- The secret of a row that is claimed. -/
def takes (t : Tables) (row : PageRow) (due : Bool) : Option String :=
  if due then selects env sched now wall t row else none

/-- The loop over the rows of a page. -/
def scanRows : List PageRow → Tables → List Candidate → Except Raised (Tables × List Candidate)
  | [], t, candidates => .ok (t, candidates)
  | row :: rest, t, candidates =>
    (probeDue env sched now row).bind fun due =>
      (takes env sched now wall t row due).elim (scanRows rest t candidates) fun secret =>
        if sched.maxAgents ≤ candidates.length + 1 then
          .ok (attempt sched now row.agentId t, candidates ++ [candidate row secret])
        else
          scanRows rest (attempt sched now row.agentId t) (candidates ++ [candidate row secret])

/-- The loop over the pages. -/
def scanPages (pageSize : Nat) : Nat → Cursor → Tables → List Candidate →
    Except Raised (Tables × List Candidate)
  | 0, _, _, _ => .error .fuel
  | fuel + 1, cursor, t, candidates =>
    if sched.maxAgents ≤ candidates.length then .ok (t, candidates)
    else if (page pageSize t cursor).isEmpty then .ok (t, candidates)
    else
      (scanRows env sched now wall (page pageSize t cursor) t candidates).bind fun scanned =>
        if (page pageSize t cursor).length < pageSize then .ok scanned
        else
          scanPages pageSize fuel (rowOrder.lastKey cursor (page pageSize t cursor)) scanned.1
            scanned.2

/-- `_candidates`; no run turns more pages than there are rows. -/
def candidates (pageSize : Nat) (t : Tables) : Except Raised (Tables × List Candidate) :=
  scanPages env sched now wall pageSize ((joined t).length + 2) (toLex ([], "")) t []

/-- The candidates that `_wake` sends to, of those that it is handed. -/
def woken (t : Tables) (selected : List Candidate) : List Candidate :=
  selected.filter fun c => enabled env wall t c.agentId

end KiwiCatalog.Keepalive
