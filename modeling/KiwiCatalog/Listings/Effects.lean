import KiwiCatalog.Listings.Handlers

/-!
# Effects — what a listing call that succeeds has checked and written

One statement for each service.  The writers of a row that exists are `update`s under its id, each
with one function of the row.
-/

set_option autoImplicit false

namespace KiwiCatalog.Listings

open Checks
open Trust (AdministrativeState)

/-! ## Checks -/

/-- The agent is in good standing, and bound to the merchant or to none. -/
def Database.OwnerAccepts (db : Database) (ownerAgentId merchantId : String) : Prop :=
  ∃ a, db.ownerAgent ownerAgentId = some a ∧ a.administrativeState = .active ∧
    (a.merchantId = "" ∨ a.merchantId = merchantId)

/-- The capacity has a row for the merchant, and room for a write over a row in that state. -/
def Database.HasRoom (db : Database) (merchantId : String)
    (existingState : Option PublicationState) : Prop :=
  ∃ limit, db.activeLimit? merchantId = some limit ∧
    (existingState = some .active ∨ db.activeUsed merchantId < limit)

theorem requireOwnerActive_ok {db : Database} {ownerAgentId merchantId : String} {u : Unit}
    (h : requireOwnerActive db ownerAgentId merchantId = .ok u) :
    db.OwnerAccepts ownerAgentId merchantId := by
  unfold requireOwnerActive at h
  obtain ⟨a, ha, h⟩ := require_bind h
  obtain ⟨hstanding, h⟩ := check_bind h
  have hmerchant := check_eq_ok h
  refine ⟨a, ha, ?_, by simpa using hmerchant⟩
  -- the column has three values
  cases hstate : a.administrativeState with
  | active => rfl
  | suspended => simp [hstate] at hstanding
  | rejected => simp [hstate] at hstanding

theorem requireCapacityIf_ok {charged : Bool} {db : Database} {merchantId : String}
    {existingState : Option PublicationState} {u : Unit}
    (h : requireCapacityIf charged db merchantId existingState = .ok u) (hcharged : charged = true) :
    db.HasRoom merchantId existingState := by
  rw [requireCapacityIf, if_pos hcharged] at h
  exact requirePublicationCapacity_ok h

theorem findExisting_some {db : Database} {c : Canonical} {row : Listing}
    (h : findExisting db c = some row) :
    row ∈ db.listings ∧ row.ownerAgentId = c.ownerAgentId := by
  obtain ⟨key, _, hrow⟩ := Option.bind_eq_some_iff.mp h
  have hmem := List.mem_of_getLast? hrow
  rw [List.mem_filter] at hmem
  simp only [Bool.and_eq_true, decide_eq_true_eq] at hmem
  exact ⟨hmem.1, hmem.2.1.1⟩

/-! ## Publish -/

/-- A row that is published again, released from the quarantine if it was there. -/
def republished (env : Env) (c : Canonical) (row : Listing) : Listing :=
  if row.governanceHold = quarantineHold then
    { refreshListing env c row with governanceHold := 0 }
  else refreshListing env c row

theorem republished_id (env : Env) (c : Canonical) (row : Listing) :
    (republished env c row).listingId = row.listingId := by
  unfold republished
  split <;> rfl

theorem republished_owner (env : Env) (c : Canonical) (row : Listing) :
    (republished env c row).ownerAgentId = row.ownerAgentId := by
  unfold republished
  split <;> rfl

theorem republished_merchant (env : Env) (c : Canonical) (row : Listing) :
    (republished env c row).merchantId = row.merchantId := by
  unfold republished
  split <;> rfl

theorem republished_active (env : Env) (c : Canonical) (row : Listing) :
    (republished env c row).isActive = true := by
  unfold republished
  split <;> rfl

/-- A publish never sets a hold. -/
theorem republished_hold {env : Env} {c : Canonical} {row : Listing} (h : row.governanceHold ≠ 1) :
    (republished env c row).governanceHold ≠ 1 := by
  unfold republished
  split
  · show (0 : Nat) ≠ 1
    decide
  · exact h

theorem updateListing?_some {listings updated : List Listing} {listingId : String}
    {f : Listing → Listing} (h : updateListing? listings listingId f = some updated) :
    updated = Table.updateWhere (fun l => l.listingId = listingId) f listings := by
  unfold updateListing? at h
  simp only at h
  split at h
  · cases h
  · exact (Option.some.inj h).symm

theorem republish_ok {env : Env} {c : Canonical} {row : Listing} {db db' : Database}
    (h : republish env c row db = .ok db') :
    db' = db.setListings (Table.updateWhere (fun l => l.listingId = row.listingId)
      (refreshListing env c) db.listings) := by
  unfold republish at h
  obtain ⟨updated, hupdated, h⟩ := require_bind h
  rw [← Except.ok.inj h, updateListing?_some hupdated]

/-- Without a concurrent writer the row that the second lookup would find does not exist. -/
theorem publishNew_ok {env : Env} {c : Canonical} {db db' : Database}
    (hnone : findExisting db c = none) (h : publishNew env c db = .ok db') :
    (∀ l ∈ db.listings, l.listingId ≠ env.newListingId) ∧
      db' = db.setListings (db.listings ++ [newListing env c]) := by
  unfold publishNew at h
  rw [hnone] at h
  cases hinsert : insertListing? db.listings (newListing env c) with
  | none =>
    rw [hinsert] at h
    cases h
  | some listings =>
    rw [hinsert] at h
    rw [← Except.ok.inj h]
    unfold insertListing? at hinsert
    split at hinsert
    · cases hinsert
    · rename_i hfree
      rw [← Option.some.inj hinsert]
      refine ⟨?_, rfl⟩
      intro l hl heq
      apply hfree
      refine List.any_eq_true.mpr ⟨l, hl, ?_⟩
      simp [collides, newListing, heq]

theorem releaseQuarantine_updateWhere (env : Env) (c : Canonical) (listingId : String)
    (listings : List Listing) :
    releaseQuarantine (Table.updateWhere (fun l => l.listingId = listingId)
        (refreshListing env c) listings) listingId =
      Table.updateWhere (fun l => l.listingId = listingId) (republished env c) listings := by
  unfold releaseQuarantine
  rw [Table.updateWhere_updateWhere _ fun l hl => by simp only [hl, Bool.false_and]]
  apply Table.updateWhere_congr
  intro l _ hl
  have hid : (refreshListing env c l).listingId = listingId := of_decide_eq_true hl
  by_cases hhold : l.governanceHold = quarantineHold
  · have hhold' : (refreshListing env c l).governanceHold = quarantineHold := hhold
    simp only [hid, hhold', republished, hhold]
    rfl
  · have hhold' : ¬ (refreshListing env c l).governanceHold = quarantineHold := hhold
    simp only [hid, hhold', republished, hhold]
    rfl

/-- What a publish that succeeds has done: it has inserted a row, or refreshed the one under its
key. -/
inductive Published (env : Env) (c : Canonical) (db : Database) : Database → Prop
  | inserted (hnone : findExisting db c = none)
      (hfresh : ∀ l ∈ db.listings, l.listingId ≠ env.newListingId) :
      Published env c db (db.setListings (db.listings ++ [newListing env c]))
  | refreshed (row : Listing) (hrow : findExisting db c = some row)
      (hhold : row.governanceHold ≠ 1) :
      Published env c db (db.setListings (Table.updateWhere
        (fun l => l.listingId = row.listingId) (republished env c) db.listings))

theorem publishListing_ok {env : Env} {c : Canonical} {actor : Actor} {db db' : Database}
    (hids : Table.KeyUnique Listing.listingId db.listings)
    (h : publishListing env c actor db = .ok db') :
    db.OwnerAccepts c.ownerAgentId c.merchantId ∧
      (actor.isRuntime = true →
        db.HasRoom c.merchantId ((findExisting db c).map Listing.publicationState)) ∧
      Published env c db db' := by
  unfold publishListing at h
  obtain ⟨_, howner, h⟩ := bind_eq_ok h
  obtain ⟨hheld, h⟩ := check_bind h
  obtain ⟨_, hroom, h⟩ := bind_eq_ok h
  refine ⟨requireOwnerActive_ok howner, requireCapacityIf_ok hroom, ?_⟩
  cases hexisting : findExisting db c with
  | none =>
    rw [hexisting] at h
    obtain ⟨hfresh, rfl⟩ := publishNew_ok hexisting h
    exact .inserted hexisting hfresh
  | some row =>
    rw [hexisting] at h hheld
    have hhold : row.governanceHold ≠ 1 := by simpa using hheld
    obtain ⟨published, hpublished, h⟩ := bind_eq_ok h
    have hpublished' := republish_ok hpublished
    subst hpublished'
    split at h
    · rw [← Except.ok.inj h]
      simp only [Database.setListings_listings]
      rw [releaseQuarantine_updateWhere]
      exact .refreshed row hexisting hhold
    · rename_i hquarantine
      -- the row under the id is the one that was looked at
      have hsame : Table.updateWhere (fun l => l.listingId = row.listingId) (refreshListing env c)
          db.listings = Table.updateWhere (fun l => l.listingId = row.listingId)
            (republished env c) db.listings := by
        apply Table.updateWhere_congr
        intro l hl hid
        have heq := Table.eq_of_key_eq hids hl (findExisting_some hexisting).1
          (of_decide_eq_true hid)
        rw [heq, republished, if_neg hquarantine]
      rw [← Except.ok.inj h, hsame]
      exact .refreshed row hexisting hhold

/-! ## Withdraw and reinstate -/

theorem withdrawListing_ok {env : Env} {listingId merchantId : String} {db db' : Database}
    (h : withdrawListing env listingId merchantId db = .ok db') :
    db' = db ∨
      db' = db.setListings (setPublicationState db.listings listingId .withdrawn env.now) := by
  unfold withdrawListing at h
  obtain ⟨row, _, h⟩ := require_bind h
  obtain ⟨_, h⟩ := check_bind h
  split at h
  · exact .inl (Except.ok.inj h).symm
  · exact .inr (Except.ok.inj h).symm

/-- The row after a reinstatement. -/
def reinstated (env : Env) (row : Listing) : Listing :=
  { row with
    governanceHold := if row.governanceHold = 1 then 0 else row.governanceHold
    publicationState := .active
    updatedAt := env.now }

/-- What a reinstatement that succeeds has checked of the row it was about. -/
structure Reinstated (env : Env) (actor : Actor) (merchantId : String) (row : Listing)
    (db db' : Database) : Prop where
  found : row ∈ db.listings
  merchant : row.merchantId = merchantId
  suspended : row.publicationState = .suspended
  released : row.governanceHold = 1 → actor = .admin
  owner : db.OwnerAccepts row.ownerAgentId merchantId
  room : db.hasAccount merchantId = true → db.HasRoom merchantId (some .suspended)
  written : db' = db.setListings (Table.updateWhere (fun l => l.listingId = row.listingId)
    (reinstated env) db.listings)

theorem reinstateListing_ok {env : Env} {listingId merchantId : String} {actor : Actor}
    {db db' : Database} (hids : Table.KeyUnique Listing.listingId db.listings)
    (h : reinstateListing env listingId merchantId actor db = .ok db') :
    ∃ row, Reinstated env actor merchantId row db db' := by
  unfold reinstateListing at h
  obtain ⟨row, hrow, h⟩ := require_bind h
  obtain ⟨hmerchant, h⟩ := check_bind h
  obtain ⟨hsuspended, h⟩ := check_bind h
  obtain ⟨_, h⟩ := check_bind h
  obtain ⟨hheld, h⟩ := check_bind h
  obtain ⟨_, howner, h⟩ := bind_eq_ok h
  obtain ⟨_, hroom, h⟩ := bind_eq_ok h
  obtain ⟨hfound, hid⟩ := Table.lookup_mem hrow
  refine ⟨row, hfound, of_decide_eq_true hmerchant, of_decide_eq_true hsuspended, ?_,
    requireOwnerActive_ok howner, requireCapacityIf_ok hroom, ?_⟩
  · intro hhold
    simpa [hhold] using hheld
  · rw [← Except.ok.inj h, hid]
    congr 1
    -- both statements write the row under the id, and that row is `row`
    have hcondition : ∀ l ∈ db.listings, l.listingId = listingId → l = row := by
      intro l hl hlid
      exact Table.eq_of_key_eq hids hl hfound (hlid.trans hid.symm)
    by_cases hhold : row.governanceHold = 1
    · rw [if_pos hhold, setPublicationState, releaseHold,
        Table.updateWhere_updateWhere _ fun l hl => hl]
      apply Table.updateWhere_congr
      intro l hl hlid
      have hrow' := hcondition l hl (of_decide_eq_true hlid)
      subst hrow'
      simp only [reinstated, hhold, hid, decide_true, if_true]
    · rw [if_neg hhold, setPublicationState]
      apply Table.updateWhere_congr
      intro l hl hlid
      have hrow' := hcondition l hl (of_decide_eq_true hlid)
      subst hrow'
      simp only [reinstated, hhold, if_false]

/-! ## The owner -/

/-- The row after the suspension of its owner. -/
def suspended (env : Env) (row : Listing) : Listing :=
  { row with publicationState := .suspended, governanceHold := 1, updatedAt := env.now }

/-- A suspension does nothing to an agent that is suspended; otherwise the agent was active. -/
inductive Suspended (env : Env) (catalogAgentId : String) (db : Database) : Database → Prop
  | already {a : Agent} (ha : db.ownerAgent catalogAgentId = some a)
      (hstate : a.administrativeState = .suspended) : Suspended env catalogAgentId db db
  | cascaded : Suspended env catalogAgentId db (suspendOwnedListings env catalogAgentId
      (cancelEnrollments catalogAgentId (applyAdmin catalogAgentId .suspended db)))

theorem suspendAgent_ok {env : Env} {catalogAgentId : String} {db db' : Database}
    (h : suspendAgent env catalogAgentId db = .ok db') : Suspended env catalogAgentId db db' := by
  unfold suspendAgent at h
  obtain ⟨a, ha, h⟩ := require_bind h
  split at h
  · rename_i hstate
    rw [← Except.ok.inj h]
    exact .already ha hstate
  · obtain ⟨_, h⟩ := check_bind h
    rw [← Except.ok.inj h]
    exact .cascaded

theorem reinstateAgent_ok {catalogAgentId : String} {db db' : Database}
    (h : reinstateAgent catalogAgentId db = .ok db') :
    db' = applyAdmin catalogAgentId .active db := by
  unfold reinstateAgent at h
  obtain ⟨a, _, h⟩ := require_bind h
  obtain ⟨_, h⟩ := check_bind h
  obtain ⟨_, h⟩ := check_bind h
  exact (Except.ok.inj h).symm

end KiwiCatalog.Listings
