import KiwiCatalog.Listings.Rows

/-!
# Entitlements — how many active listings a merchant may have

The limit is the override of the merchant or else that of its plan; what counts against it are
the rows of the merchant that are ACTIVE.
-/

set_option autoImplicit false

namespace KiwiCatalog.Listings

open Checks

structure Capacity where
  planCode : String
  active : Bool
  activeLimit : Nat
  activeUsed : Nat
  activeRemaining : Nat
  deriving DecidableEq, Repr

namespace Database

/-- `select count(*) from commerce_listings where merchant_id=? and publication_state='ACTIVE'`. -/
def activeUsed (db : Database) (merchantId : String) : Nat :=
  db.listings.countP fun l => l.merchantId = merchantId && l.isActive

/-- The row of the entitlement joined with its plan. -/
def entitlement? (db : Database) (merchantId : String) : Option (Entitlement × Plan) :=
  (Table.lookup Entitlement.merchantId merchantId db.entitlements).bind fun e =>
    (Table.lookup Plan.planCode e.planCode db.plans).map fun p => (e, p)

/-- `limit_override if limit_override is not None else active_limit`. -/
def activeLimit? (db : Database) (merchantId : String) : Option Nat :=
  (db.entitlement? merchantId).map fun ep => ep.1.limitOverride.getD ep.2.activeLimit

end Database

def entitlementRequired : String :=
  "LISTINGS_ENTITLEMENT_REQUIRED: merchant has no listing plan"

def capacityExceeded : String :=
  "LISTINGS_CAPACITY_EXCEEDED: no active listing slots remain"

def capacity (db : Database) (merchantId : String) : Except ListingError Capacity := do
  let row ← require (db.entitlement? merchantId) (.permissionDenied entitlementRequired)
  let used := db.activeUsed merchantId
  let limit := row.1.limitOverride.getD row.2.activeLimit
  .ok ⟨row.2.planCode, row.1.active, limit, used, limit - used⟩

/-- `existingState` is the state of the row that the caller is about to write, if there is one. -/
def requirePublicationCapacity (db : Database) (merchantId : String)
    (existingState : Option PublicationState) : Except ListingError Unit := do
  -- the account with the least id
  let account := db.accounts.find? fun a => a.merchantId = merchantId
  check (account.any fun a => a.active && a.emailVerified)
    (.permissionDenied "LISTINGS_ACCOUNT_NOT_READY: verify an active merchant account")
  let current ← capacity db merchantId
  check current.active (.permissionDenied "LISTINGS_ENTITLEMENT_SUSPENDED")
  check (existingState = some .active || current.activeUsed < current.activeLimit)
    (.permissionDenied capacityExceeded)

theorem capacity_ok {db : Database} {merchantId : String} {c : Capacity}
    (h : capacity db merchantId = .ok c) :
    db.activeLimit? merchantId = some c.activeLimit ∧ c.activeUsed = db.activeUsed merchantId := by
  unfold capacity at h
  obtain ⟨row, hrow, h⟩ := require_bind h
  have hc := Except.ok.inj h
  subst hc
  constructor
  · show (db.entitlement? merchantId).map _ = _
    rw [hrow]
    rfl
  · rfl

/-- A write that passes the check replaces a row that is counted, or leaves room for one more. -/
theorem requirePublicationCapacity_ok {db : Database} {merchantId : String}
    {existingState : Option PublicationState} {u : Unit}
    (h : requirePublicationCapacity db merchantId existingState = .ok u) :
    ∃ limit, db.activeLimit? merchantId = some limit ∧
      (existingState = some .active ∨ db.activeUsed merchantId < limit) := by
  unfold requirePublicationCapacity at h
  obtain ⟨-, h⟩ := check_bind h
  obtain ⟨c, hc, h⟩ := bind_eq_ok h
  obtain ⟨-, h⟩ := check_bind h
  have hroom := check_eq_ok h
  obtain ⟨hlimit, hused⟩ := capacity_ok hc
  refine ⟨c.activeLimit, hlimit, ?_⟩
  rw [hused] at hroom
  simpa using hroom

theorem capacity_error {db : Database} {merchantId : String} {e : ListingError}
    (h : capacity db merchantId = .error e) : e = .permissionDenied entitlementRequired := by
  unfold capacity at h
  rcases bind_eq_error h with hrow | ⟨row, _, hrest⟩
  · exact (require_eq_error hrow).2
  · cases hrest

/-- A row that is counted already is never refused for lack of room. -/
theorem requirePublicationCapacity_active {db : Database} {merchantId : String} {e : ListingError}
    (h : requirePublicationCapacity db merchantId (some .active) = .error e) :
    e ≠ .permissionDenied capacityExceeded := by
  unfold requirePublicationCapacity at h
  rcases bind_eq_error h with haccount | ⟨_, _, h⟩
  · rw [(check_eq_error haccount).2]
    decide
  rcases bind_eq_error h with hcapacity | ⟨c, _, h⟩
  · rw [capacity_error hcapacity]
    decide
  rcases bind_eq_error h with hstatus | ⟨_, _, h⟩
  · rw [(check_eq_error hstatus).2]
    decide
  · -- the last check lets every row pass that is ACTIVE
    have hroom := (check_eq_error h).1
    simp at hroom

end KiwiCatalog.Listings
