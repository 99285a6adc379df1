import KiwiCatalog.Catalog.AgentWriters
import KiwiCatalog.Listings.Entitlements

/-!
# Listing service — publish, withdraw, reinstate and the cascade of a suspension

Each service works inside one write transaction of its caller: where it raises, the transaction is
rolled back.
-/

set_option autoImplicit false

namespace KiwiCatalog.Listings

open Catalog (administrativeText)
open Checks
open Trust (AdministrativeState)

/-- What a call takes from outside: the clock and the digest of the content. -/
structure Env where
  now : String
  -- `now` without microseconds, that many hours later
  hoursLater : Nat → String
  listingDigest : Canonical → String
  newListingId : String
  -- `KIWI_CATALOG_ENABLE_LEGACY_LISTINGS`
  legacyListings : Bool

inductive Actor
  | admin
  | merchant (merchantId : String)
  -- `runtime:{agent_id}:{binding_id}`
  | runtime (agentId bindingId : String)
  deriving DecidableEq, Repr

/-- `actor.startswith("runtime:")`. -/
def Actor.isRuntime : Actor → Bool
  | .runtime _ _ => true
  | _ => false

def governanceHeld : String :=
  "LISTINGS_GOVERNANCE_HOLD: administrator release is required"

/-! ## `listings/service.py` -/

def defaultTtlHours : ListingType → Nat
  | .product => 24
  | .capability => 7 * 24

/-- The publisher's declaration, unless it is absent or empty. -/
def defaultFreshUntil (env : Env) (listingType : ListingType) (publishedFreshUntil : Option String) :
    String :=
  (publishedFreshUntil.filter (· ≠ "")).getD (env.hoursLater (defaultTtlHours listingType))

def requireOwnerActive (db : Database) (ownerAgentId merchantId : String) :
    Except ListingError Unit := do
  let row ← require (db.ownerAgent ownerAgentId)
    (.notFound ("Unknown owner catalog agent: " ++ ownerAgentId))
  check (row.administrativeState ≠ .suspended && row.administrativeState ≠ .rejected)
    (.permissionDenied ("owner catalog agent " ++ ownerAgentId ++ " is " ++
      administrativeText row.administrativeState ++ "; listing cannot be published"))
  check (row.merchantId = "" || row.merchantId = merchantId)
    (.permissionDenied ("owner catalog agent " ++ ownerAgentId ++ " is bound to merchant " ++
      row.merchantId ++ ", not " ++ merchantId))

/-- The row that `insert_listing` stores. -/
def newListing (env : Env) (c : Canonical) : Listing where
  listingId := env.newListingId
  listingType := c.listingType
  ownerAgentId := c.ownerAgentId
  merchantId := c.merchantId
  content := c.content
  listingDigest := env.listingDigest c
  publicationState := .active
  -- the default of the column
  governanceHold := 0
  freshness := .fresh
  publishedAt := env.now
  updatedAt := env.now
  freshUntil := defaultFreshUntil env c.listingType c.freshUntil
  createdAt := env.now

/-- `update_listing`: all content, and the row is ACTIVE again.  The columns of owner and merchant
and the hold are not among the assignments. -/
def refreshListing (env : Env) (c : Canonical) (row : Listing) : Listing :=
  { row with
    content := c.content
    listingDigest := env.listingDigest c
    publicationState := .active
    freshness := .fresh
    publishedAt := if row.publishedAt = "" then env.now else row.publishedAt
    updatedAt := env.now
    freshUntil := defaultFreshUntil env c.listingType c.freshUntil }

def releaseQuarantine (listings : List Listing) (listingId : String) : List Listing :=
  Table.updateWhere (fun l => l.listingId = listingId && l.governanceHold = quarantineHold)
    (fun l => { l with governanceHold := 0, publicationState := .active }) listings

def findExisting (db : Database) (c : Canonical) : Option Listing :=
  c.upsertKey.bind fun key => getListingByUpsertKey db.listings c.listingType c.ownerAgentId key

/-- The update of a row that exists. -/
def republish (env : Env) (c : Canonical) (existing : Listing) (db : Database) :
    Except ListingError Database := do
  let listings ← require
    (updateListing? db.listings existing.listingId (refreshListing env c)) .integrity
  .ok (db.setListings listings)

/-- The insert of a new row.  After an integrity error the key is looked up once more, for a row of
a concurrent publish. -/
def publishNew (env : Env) (c : Canonical) (db : Database) : Except ListingError Database :=
  match insertListing? db.listings (newListing env c) with
  | some listings => .ok (db.setListings listings)
  | none =>
    match findExisting db c with
    | none => .error .integrity
    | some raced => republish env c raced db

/-- The check of the capacity where the caller is one that is charged. -/
def requireCapacityIf (charged : Bool) (db : Database) (merchantId : String)
    (existingState : Option PublicationState) : Except ListingError Unit :=
  if charged then requirePublicationCapacity db merchantId existingState else .ok ()

def publishListing (env : Env) (c : Canonical) (actor : Actor) (db : Database) :
    Except ListingError Database := do
  requireOwnerActive db c.ownerAgentId c.merchantId
  let existing := findExisting db c
  check (existing.all fun l => l.governanceHold ≠ 1) (.permissionDenied governanceHeld)
  requireCapacityIf actor.isRuntime db c.merchantId (existing.map Listing.publicationState)
  match existing with
  | none => publishNew env c db
  | some row => do
    let published ← republish env c row db
    if row.governanceHold = quarantineHold then
      .ok (published.setListings (releaseQuarantine published.listings row.listingId))
    else .ok published

def withdrawListing (env : Env) (listingId merchantId : String) (db : Database) :
    Except ListingError Database := do
  let row ← require (getListing db.listings listingId)
    (.notFound ("Unknown listing: " ++ listingId))
  check (row.merchantId = merchantId)
    (.permissionDenied "listing is owned by a different merchant")
  if row.publicationState = .withdrawn then .ok db
  else .ok (db.setListings (setPublicationState db.listings listingId .withdrawn env.now))

def releaseHold (listings : List Listing) (listingId : String) : List Listing :=
  Table.updateWhere (fun l => l.listingId = listingId) (fun l => { l with governanceHold := 0 })
    listings

def reinstateListing (env : Env) (listingId merchantId : String) (actor : Actor) (db : Database) :
    Except ListingError Database := do
  let row ← require (getListing db.listings listingId)
    (.notFound ("Unknown listing: " ++ listingId))
  check (row.merchantId = merchantId)
    (.permissionDenied "listing is owned by a different merchant")
  check (row.publicationState = .suspended)
    (.permissionDenied ("only SUSPENDED listings can be reinstated (got " ++
      row.publicationState.text ++ ")"))
  check (row.governanceHold ≠ quarantineHold)
    (.permissionDenied "LISTINGS_CONTENT_QUARANTINED: republish with new content is required")
  check (row.governanceHold ≠ 1 || actor = .admin) (.permissionDenied governanceHeld)
  requireOwnerActive db row.ownerAgentId merchantId
  requireCapacityIf (db.hasAccount merchantId) db merchantId (some .suspended)
  let listings :=
    if row.governanceHold = 1 then releaseHold db.listings listingId else db.listings
  .ok (db.setListings (setPublicationState listings listingId .active env.now))

/-! ## `listings/policy.py` and the administrative actions on the owner -/

/-- The ACTIVE rows of the owner, whatever hold they carry. -/
def suspendOwnedListings (env : Env) (ownerAgentId : String) (db : Database) : Database :=
  db.setListings (Table.updateWhere (fun l => l.ownerAgentId = ownerAgentId && l.isActive)
    (fun l =>
      { l with publicationState := .suspended, governanceHold := 1, updatedAt := env.now })
    db.listings)

/-- The table of `AdministrativeStateMachine`. -/
def canTransition : AdministrativeState → AdministrativeState → Bool
  | .active, .suspended => true
  | .active, .rejected => true
  | .suspended, .active => true
  | _, _ => false

def applyAdmin (catalogAgentId : String) (state : AdministrativeState) (db : Database) : Database :=
  { db with
    agents := Table.updateWhere (fun a => a.catalogAgentId = catalogAgentId)
      (fun a => { a with administrativeState := state }) db.agents }

/-- The statuses that a suspension cancels. -/
def EnrollmentRow.isUnconsumed (e : EnrollmentRow) : Bool :=
  e.status = .readyForAuthorization || e.status = .authorized || e.status = .bound ||
    e.status = .published

def cancelEnrollments (catalogAgentId : String) (db : Database) : Database :=
  { db with
    enrollments := Table.updateWhere (fun e => e.catalogAgentId = catalogAgentId && e.isUnconsumed)
      (fun e => { e with status := .canceled, authorizationEpoch := e.authorizationEpoch + 1 })
      db.enrollments }

/-- `VerificationService.suspend`. -/
def suspendAgent (env : Env) (catalogAgentId : String) (db : Database) :
    Except ListingError Database := do
  let agent ← require (db.ownerAgent catalogAgentId)
    (.notFound ("Unknown catalog agent: " ++ catalogAgentId))
  if agent.administrativeState = .suspended then .ok db
  else do
    check (canTransition agent.administrativeState .suspended)
      (.invalidStateTransition ("illegal administrative_state transition '" ++
        administrativeText agent.administrativeState ++ "' -> 'suspended'"))
    .ok (suspendOwnedListings env catalogAgentId
      (cancelEnrollments catalogAgentId (applyAdmin catalogAgentId .suspended db)))

/-- `VerificationService.reinstate`: the listings of the agent are left as they are. -/
def reinstateAgent (catalogAgentId : String) (db : Database) : Except ListingError Database := do
  let agent ← require (db.ownerAgent catalogAgentId)
    (.notFound ("Unknown catalog agent: " ++ catalogAgentId))
  check (agent.administrativeState = .suspended)
    (.invalidStateTransition ("reinstate requires SUSPENDED administrative state, got '" ++
      administrativeText agent.administrativeState ++ "'"))
  check (canTransition agent.administrativeState .active)
    (.invalidStateTransition ("illegal administrative_state transition '" ++
      administrativeText agent.administrativeState ++ "' -> 'active'"))
  .ok (applyAdmin catalogAgentId .active db)

end KiwiCatalog.Listings
