import KiwiCatalog.Lib.Transition
import KiwiCatalog.Listings.Service

/-!
# Listing handlers — who may publish, withdraw and reinstate

A runtime proves its binding by a signature; a token is an administrator's or, for merchants
without an account and while the legacy switch is on, an owner's.  `Step` is one request, one
administrative action on an agent, or one write of another service.
-/

set_option autoImplicit false

namespace KiwiCatalog.Listings

open Binding (RuntimeBinding currentActiveBinding)
open Checks
open Transition

/-! ## Authentication -/

structure Tokens where
  isAdmin : Bool
  -- `require_merchant_token` of the presented token
  ownerOf : String → Bool

inductive Credential
  -- whether the signature and its envelope verify under a binding
  | runtime (verifies : RuntimeBinding → Bool)
  | token (tokens : Tokens)

def requiresGrant : String :=
  "LISTINGS_ENTITLEMENT_REQUIRED: a verified account, listing plan and published binding are " ++
    "required"

/-- `_verify_runtime_listing_signature`. -/
def verifyRuntimeListingSignature (verifies : RuntimeBinding → Bool) (agentId merchantId : String)
    (db : Database) : Except ListingError RuntimeBinding := do
  let agent ← require (db.ownerAgent agentId) (.permissionDenied requiresGrant)
  let active ← require (currentActiveBinding db.bindings agentId) (.permissionDenied requiresGrant)
  check (agent.merchantId = merchantId && active.merchantId = merchantId &&
    agent.administrativeState = .active) (.permissionDenied requiresGrant)
  check (verifies active) (.permissionDenied "request signature verification failed")
  .ok active

/-- `_require_current_listing_entitlement`. -/
def requireCurrentListingEntitlement (agentId merchantId bindingId : String) (db : Database) :
    Except ListingError Unit := do
  check (db.enrollments.any fun e => e.catalogAgentId = agentId && e.merchantId = merchantId &&
    e.bindingId = bindingId && e.status = .published) (.permissionDenied requiresGrant)
  let _ ← capacity db merchantId
  .ok ()

/-- `_require_owner_token_for_merchant`. -/
def requireOwnerTokenForMerchant (tokens : Tokens) (merchantId : String) :
    Except ListingError Actor :=
  if tokens.isAdmin then .ok .admin
  else if tokens.ownerOf merchantId then .ok (.merchant merchantId)
  else .error .auth

/-- `_reject_account_owner_token_listing`. -/
def rejectAccountOwnerTokenListing (env : Env) (merchantId : String) (actor : Actor)
    (db : Database) : Except ListingError Unit :=
  check (actor = .admin || (!db.hasAccount merchantId && env.legacyListings))
    (.permissionDenied
      "LISTINGS_BINDING_REQUIRED: connect a Runtime; owner token cannot publish Listings")

/-- The actor under which a request for a listing of the merchant and agent is carried out. -/
def authenticate (env : Env) (agentId merchantId : String) (db : Database) :
    Credential → Except ListingError Actor
  | .runtime verifies => do
    let binding ← verifyRuntimeListingSignature verifies agentId merchantId db
    requireCurrentListingEntitlement agentId merchantId binding.bindingId db
    .ok (.runtime agentId binding.bindingId)
  | .token tokens => do
    let actor ← requireOwnerTokenForMerchant tokens merchantId
    rejectAccountOwnerTokenListing env merchantId actor db
    .ok actor

/-! ## Handlers -/

def v1PublishListing (env : Env) (credential : Credential) (c : Canonical) (db : Database) :
    Except ListingError Database := do
  let actor ← authenticate env c.ownerAgentId c.merchantId db credential
  publishListing env c actor db

def v1WithdrawListing (env : Env) (credential : Credential) (listingId : String) (db : Database) :
    Except ListingError Database := do
  let row ← require (getListing db.listings listingId)
    (.notFound ("Unknown listing: " ++ listingId))
  let _ ← authenticate env row.ownerAgentId row.merchantId db credential
  withdrawListing env listingId row.merchantId db

/-- A reinstatement has no signed form. -/
def v1ReinstateListing (env : Env) (tokens : Tokens) (listingId : String) (db : Database) :
    Except ListingError Database := do
  let row ← require (getListing db.listings listingId)
    (.notFound ("Unknown listing: " ++ listingId))
  let actor ← authenticate env row.ownerAgentId row.merchantId db (.token tokens)
  reinstateListing env listingId row.merchantId actor db

/-- `expire_stale_listings`, which public reads run first; the rest of a read, the scan for
quarantined content included, writes nothing. -/
def expireStaleListings (env : Env) (db : Database) : Database :=
  db.setListings (Table.updateWhere (fun l => l.freshness = .fresh && l.freshUntil < env.now)
    (fun l => { l with freshness := .stale, updatedAt := env.now }) db.listings)

/-! ## The system -/

inductive Op
  | publish (credential : Credential) (c : Canonical)
  | withdraw (credential : Credential) (listingId : String)
  | reinstate (tokens : Tokens) (listingId : String)
  | read
  | suspendAgent (catalogAgentId : String)
  | reinstateAgent (catalogAgentId : String)

def Op.run (env : Env) (db : Database) : Op → Except ListingError Database
  | .publish credential c => v1PublishListing env credential c db
  | .withdraw credential listingId => v1WithdrawListing env credential listingId db
  | .reinstate tokens listingId => v1ReinstateListing env tokens listingId db
  | .read => .ok (expireStaleListings env db)
  | .suspendAgent catalogAgentId => Listings.suspendAgent env catalogAgentId db
  | .reinstateAgent catalogAgentId => Listings.reinstateAgent catalogAgentId db

/-- A listing reinstated by an administrator, the one release of a governance hold. -/
def Op.isAdminRelease : Op → Bool
  | .reinstate tokens _ => tokens.isAdmin
  | _ => false

def Op.isTokenPublish : Op → Bool
  | .publish (.token _) _ => true
  | _ => false

/-- `set_catalog_agent_merchant`. -/
def bindMerchant (catalogAgentId merchantId : String) (db : Database) : Database :=
  { db with
    agents := Table.updateWhere (fun a => a.catalogAgentId = catalogAgentId)
      (fun a => { a with merchantId := merchantId }) db.agents }

/-- One transaction of the catalog; what a request that raises has done is rolled back. -/
inductive Step (allowed : Op → Prop) : Database → Database → Prop
  | performs {db db' : Database} (env : Env) (op : Op) (hallowed : allowed op)
      (hrun : op.run env db = .ok db') : Step allowed db db'
  -- `register_catalog_agent` inserts the agent
  | registers {db : Database} (agent : Agent) (hnew : db.ownerAgent agent.catalogAgentId = none)
      (hactive : agent.administrativeState = .active) :
      Step allowed db { db with agents := db.agents ++ [agent] }
  -- `register_catalog_agent` opens the agent again
  | reopens {db : Database} (catalogAgentId : String) :
      Step allowed db (applyAdmin catalogAgentId .active db)
  -- `claim_catalog_agent`: an agent of another merchant is not claimed
  | claims {db : Database} (agent : Agent) (merchantId : String)
      (hagent : db.ownerAgent agent.catalogAgentId = some agent)
      (hfree : agent.merchantId = "" ∨ agent.merchantId = merchantId) :
      Step allowed db (bindMerchant agent.catalogAgentId merchantId db)
  -- accounts, plans, entitlements, bindings and enrollments are written by their own services
  | elsewhere {db db' : Database} (hlistings : db'.listings = db.listings)
      (hagents : db'.agents = db.agents) : Step allowed db db'

/-- A catalog without listings; its agents may be in any state. -/
def Init (db : Database) : Prop := db.listings = []

end KiwiCatalog.Listings
