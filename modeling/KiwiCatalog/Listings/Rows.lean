import KiwiCatalog.Binding.Store
import KiwiCatalog.Catalog.Payload
import KiwiCatalog.Enrollment.Authorization
import KiwiCatalog.Lib.Checks
import KiwiCatalog.Lib.Table

/-!
# Listing rows — what the listing writers read and write

`commerce_listings` with its unique indexes, and the columns of the agents, accounts, plans,
bindings and enrollments that the listing services consult.
-/

set_option autoImplicit false

namespace KiwiCatalog.Listings

open Binding (RuntimeBinding)
open Enrollment (EnrollmentStatus)
open Trust (AdministrativeState)

/-! ## Listings -/

inductive ListingType
  | product
  | capability
  deriving DecidableEq, Repr

inductive PublicationState
  | active
  | withdrawn
  | suspended
  deriving DecidableEq, Repr

def PublicationState.text : PublicationState → String
  | .active => "ACTIVE"
  | .withdrawn => "WITHDRAWN"
  | .suspended => "SUSPENDED"

inductive ListingFreshness
  | fresh
  | stale
  deriving DecidableEq, Repr

/-- The columns that a publish writes from the payload, whether the row is new or not. -/
structure Content where
  sourceProductRef : Option String
  publisherListingKey : Option String
  sourceRevision : String
  title : String
  summary : String
  category : String
  brand : String
  attributes : Dict
  regions : List String
  tags : List String
  commercialHints : Dict
  handoffDestinationTypes : List String
  handoffDestinationRef : String
  deriving DecidableEq, Repr

/-- The fields that `validate_publish_payload` returns; an absent one is `none`. -/
structure Canonical where
  listingType : ListingType
  ownerAgentId : String
  merchantId : String
  sourceProductRef : Option String
  publisherListingKey : Option String
  sourceRevision : Option String
  title : String
  summary : Option String
  category : String
  brand : Option String
  attributes : Option Dict
  regions : Option (List String)
  tags : Option (List String)
  commercialHints : Option Dict
  handoffDestinationTypes : Option (List String)
  handoffDestinationRef : Option String
  freshUntil : Option String
  -- `_require_str`
  merchant_nonempty : merchantId ≠ ""

def Canonical.content (c : Canonical) : Content where
  sourceProductRef := c.sourceProductRef
  publisherListingKey := c.publisherListingKey
  sourceRevision := c.sourceRevision.getD ""
  title := c.title
  summary := c.summary.getD ""
  category := c.category
  brand := c.brand.getD ""
  attributes := c.attributes.getD []
  regions := c.regions.getD []
  tags := c.tags.getD []
  commercialHints := c.commercialHints.getD []
  handoffDestinationTypes := c.handoffDestinationTypes.getD []
  handoffDestinationRef := c.handoffDestinationRef.getD ""

/-- `canonical.get("source_product_ref") or canonical.get("publisher_listing_key")`, where an
empty text is no key. -/
def Canonical.upsertKey (c : Canonical) : Option String :=
  (c.sourceProductRef.filter (· ≠ "")) <|> (c.publisherListingKey.filter (· ≠ ""))

structure Listing where
  listingId : String
  listingType : ListingType
  ownerAgentId : String
  merchantId : String
  content : Content
  listingDigest : String
  publicationState : PublicationState
  -- 1 is a suspension by the administrator, 2 the content quarantine of older versions
  governanceHold : Nat
  freshness : ListingFreshness
  publishedAt : String
  updatedAt : String
  freshUntil : String
  createdAt : String
  deriving DecidableEq, Repr

def quarantineHold : Nat := 2

def Listing.isActive (l : Listing) : Bool := l.publicationState = .active

/-! ## The other tables -/

structure Agent where
  catalogAgentId : String
  -- empty while no merchant has claimed the agent
  merchantId : String
  administrativeState : AdministrativeState
  deriving DecidableEq, Repr

structure Account where
  merchantId : String
  -- `status` and `email_verified`
  active : Bool
  emailVerified : Bool
  deriving DecidableEq, Repr

structure Plan where
  planCode : String
  activeLimit : Nat
  deriving DecidableEq, Repr

structure Entitlement where
  merchantId : String
  planCode : String
  active : Bool
  limitOverride : Option Nat
  deriving DecidableEq, Repr

structure EnrollmentRow where
  catalogAgentId : String
  merchantId : String
  bindingId : String
  status : EnrollmentStatus
  authorizationEpoch : Nat
  deriving DecidableEq, Repr

/-- The rows of each table in the order of their ids. -/
structure Database where
  listings : List Listing
  agents : List Agent
  accounts : List Account
  plans : List Plan
  entitlements : List Entitlement
  bindings : List RuntimeBinding
  enrollments : List EnrollmentRow

namespace Database

def setListings (db : Database) (listings : List Listing) : Database :=
  { db with listings := listings }

@[simp] theorem setListings_listings (db : Database) (ls : List Listing) :
    (db.setListings ls).listings = ls := rfl

@[simp] theorem setListings_agents (db : Database) (ls : List Listing) :
    (db.setListings ls).agents = db.agents := rfl

@[simp] theorem setListings_accounts (db : Database) (ls : List Listing) :
    (db.setListings ls).accounts = db.accounts := rfl

@[simp] theorem setListings_plans (db : Database) (ls : List Listing) :
    (db.setListings ls).plans = db.plans := rfl

@[simp] theorem setListings_entitlements (db : Database) (ls : List Listing) :
    (db.setListings ls).entitlements = db.entitlements := rfl

def ownerAgent (db : Database) (ownerAgentId : String) : Option Agent :=
  Table.lookup Agent.catalogAgentId ownerAgentId db.agents

def hasAccount (db : Database) (merchantId : String) : Bool :=
  db.accounts.any fun a => a.merchantId = merchantId

end Database

/-! ## Errors -/

inductive ListingError
  | notFound (message : String)
  | permissionDenied (message : String)
  | validation (message : String)
  | invalidStateTransition (message : String)
  | auth
  -- `sqlite3.IntegrityError`
  | integrity
  deriving DecidableEq, Repr

/-! ## Statements on `commerce_listings` -/

def getListing (listings : List Listing) (listingId : String) : Option Listing :=
  Table.lookup Listing.listingId listingId listings

/-- The last row of the owner and type with the key in either key column. -/
def getListingByUpsertKey (listings : List Listing) (listingType : ListingType)
    (ownerAgentId upsertKey : String) : Option Listing :=
  (listings.filter fun l => l.ownerAgentId = ownerAgentId && l.listingType = listingType &&
    (l.content.sourceProductRef = some upsertKey ||
      l.content.publisherListingKey = some upsertKey)).getLast?

/-- Whether two rows violate the primary key or one of the two partial unique indexes. -/
def collides (l l' : Listing) : Bool :=
  l.listingId = l'.listingId ||
    (l.ownerAgentId = l'.ownerAgentId && l.listingType = l'.listingType &&
      ((l.content.sourceProductRef.isSome &&
          l.content.sourceProductRef = l'.content.sourceProductRef) ||
        (l.content.publisherListingKey.isSome &&
          l.content.publisherListingKey = l'.content.publisherListingKey)))

/-- `none` is the integrity error. -/
def insertListing? (listings : List Listing) (row : Listing) : Option (List Listing) :=
  if listings.any (collides row) then none else some (listings ++ [row])

/-- `update … set f where listing_id = ?`; `none` is the integrity error. -/
def updateListing? (listings : List Listing) (listingId : String) (f : Listing → Listing) :
    Option (List Listing) :=
  let updated := Table.updateWhere (fun l => l.listingId = listingId) f listings
  if updated.any fun row => row.listingId = listingId &&
      (updated.filter fun l => l.listingId ≠ listingId).any (collides row)
  then none else some updated

def setPublicationState (listings : List Listing) (listingId : String)
    (publicationState : PublicationState) (now : String) : List Listing :=
  Table.updateWhere (fun l => l.listingId = listingId)
    (fun l => { l with publicationState := publicationState, updatedAt := now }) listings

end KiwiCatalog.Listings
