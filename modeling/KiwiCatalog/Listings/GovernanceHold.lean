import KiwiCatalog.Listings.Effects

/-!
# GovernanceHold — a listing that was suspended with its owner stays down

`governance_hold = 1` marks the rows that the suspension of their owner took down.  Publishing,
withdrawing and reinstating go around a held row in any order and number, the owner may be
suspended and reinstated any number of times; only an administrator releases the row.
-/

set_option autoImplicit false

namespace KiwiCatalog.Listings

open Transition
open Trust (AdministrativeState)

def Database.OwnerActive (db : Database) (ownerAgentId : String) : Prop :=
  ∃ a, db.ownerAgent ownerAgentId = some a ∧ a.administrativeState = .active

theorem Database.OwnerAccepts.ownerActive {db : Database} {ownerAgentId merchantId : String}
    (h : db.OwnerAccepts ownerAgentId merchantId) : db.OwnerActive ownerAgentId := by
  obtain ⟨a, ha, hactive, _⟩ := h
  exact ⟨a, ha, hactive⟩

/-! ## What a request does to a row -/

/-- The columns of a row that the hold is about, before and after a request. -/
structure RowChange (db : Database) (op : Op) (l l' : Listing) : Prop where
  listingId : l'.listingId = l.listingId
  owner : l'.ownerAgentId = l.ownerAgentId
  merchant : l'.merchantId = l.merchantId
  -- a row becomes ACTIVE under an owner in good standing, and without a hold
  active : l'.isActive = true → l.isActive = true ∧ l'.governanceHold = l.governanceHold ∨
    db.OwnerActive l.ownerAgentId ∧ l'.governanceHold ≠ 1
  held : l.governanceHold = 1 → op.isAdminRelease = false → l'.governanceHold = 1

theorem RowChange.refl (db : Database) (op : Op) (l : Listing) : RowChange db op l l :=
  ⟨rfl, rfl, rfl, fun h => .inl ⟨h, rfl⟩, fun h _ => h⟩

/-- The row is new; only a publish inserts one. -/
structure NewRow (db : Database) (op : Op) (l' : Listing) : Prop where
  fresh : ∀ l ∈ db.listings, l.listingId ≠ l'.listingId
  notHeld : l'.governanceHold = 0
  owner : db.OwnerActive l'.ownerAgentId
  publishes : ∃ credential c, op = .publish credential c ∧ l'.ownerAgentId = c.ownerAgentId ∧
    l'.merchantId = c.merchantId

/-- Every row of the table afterwards is one of before, changed, or new; and no row is gone. -/
structure TableChange (db : Database) (op : Op) (listings : List Listing) : Prop where
  rows : ∀ l' ∈ listings, (∃ l ∈ db.listings, RowChange db op l l') ∨ NewRow db op l'
  kept : ∀ l ∈ db.listings, ∃ l' ∈ listings, l'.listingId = l.listingId
  ids : Table.KeyUnique Listing.listingId db.listings → Table.KeyUnique Listing.listingId listings

theorem TableChange.refl (db : Database) (op : Op) : TableChange db op db.listings where
  rows := fun l' hl' => .inl ⟨l', hl', RowChange.refl db op l'⟩
  kept := fun l hl => ⟨l, hl, rfl⟩
  ids := id

/-- An `update` is described by what it does to the rows under its condition. -/
theorem TableChange.update {db : Database} {op : Op} {p : Listing → Bool} {f : Listing → Listing}
    (hid : ∀ l, (f l).listingId = l.listingId)
    (hrow : ∀ l ∈ db.listings, p l = true → RowChange db op l (f l)) :
    TableChange db op (Table.updateWhere p f db.listings) where
  rows := by
    intro l' hl'
    left
    obtain ⟨l, hl, hl'⟩ := Table.mem_updateWhere.mp hl'
    refine ⟨l, hl, ?_⟩
    by_cases hp : p l = true
    · rw [if_pos hp] at hl'
      subst hl'
      exact hrow l hl hp
    · rw [if_neg hp] at hl'
      subst hl'
      exact RowChange.refl db op l
  kept := by
    intro l hl
    refine ⟨_, Table.mem_updateWhere.mpr ⟨l, hl, rfl⟩, ?_⟩
    split
    · exact hid l
    · rfl
  ids := Table.keyUnique_updateWhere hid

/-! ## Each request -/

section Requests

variable {env : Env} {op : Op} {db db' : Database}

theorem published_change {credential : Credential} {c : Canonical}
    (hids : Table.KeyUnique Listing.listingId db.listings)
    (howner : db.OwnerActive c.ownerAgentId) (h : Published env c db db') :
    TableChange db (.publish credential c) db'.listings := by
  cases h with
  | inserted hnone hfresh =>
    constructor
    · intro l' hl'
      rcases List.mem_append.mp hl' with hold | hnew
      · exact .inl ⟨l', hold, RowChange.refl db _ l'⟩
      · rw [List.mem_singleton] at hnew
        subst hnew
        exact .inr ⟨hfresh, rfl, howner, credential, c, rfl, rfl, rfl⟩
    · intro l hl
      exact ⟨l, List.mem_append_left _ hl, rfl⟩
    · intro hids
      exact Table.keyUnique_append hids hfresh
  | refreshed row hrow hhold =>
    apply TableChange.update (republished_id env c)
    intro l hl hid
    obtain ⟨hfound, hrowOwner⟩ := findExisting_some hrow
    -- the row under the id is the one that was found to carry no hold
    have heq := Table.eq_of_key_eq hids hl hfound (of_decide_eq_true hid)
    subst heq
    refine ⟨republished_id env c l, republished_owner env c l, republished_merchant env c l, ?_,
      fun h _ => absurd h hhold⟩
    intro _
    right
    rw [hrowOwner]
    exact ⟨howner, republished_hold hhold⟩

theorem withdrawn_change {listingId merchantId : String}
    (h : withdrawListing env listingId merchantId db = .ok db') :
    TableChange db op db'.listings := by
  rcases withdrawListing_ok h with rfl | rfl
  · exact TableChange.refl _ op
  · apply TableChange.update
    · exact fun _ => rfl
    · intro l _ _
      exact ⟨rfl, rfl, rfl, fun h => (by cases h), fun h _ => h⟩

theorem reinstated_change {actor : Actor} {merchantId : String} {row : Listing}
    (hids : Table.KeyUnique Listing.listingId db.listings)
    (hadmin : actor = .admin → op.isAdminRelease = true)
    (h : Reinstated env actor merchantId row db db') : TableChange db op db'.listings := by
  rw [h.written]
  apply TableChange.update
  · exact fun _ => rfl
  intro l hl hid
  have heq := Table.eq_of_key_eq hids hl h.found (of_decide_eq_true hid)
  subst heq
  refine ⟨rfl, rfl, rfl, ?_, ?_⟩
  · intro _
    right
    refine ⟨h.owner.ownerActive, ?_⟩
    show (if l.governanceHold = 1 then 0 else l.governanceHold) ≠ 1
    split
    · decide
    · assumption
  · -- a held row is reinstated by an administrator only
    intro hheld hnot
    rw [hadmin (h.released hheld)] at hnot
    cases hnot

theorem suspended_change {catalogAgentId : String} (h : Suspended env catalogAgentId db db') :
    TableChange db op db'.listings := by
  cases h with
  | already => exact TableChange.refl db op
  | cascaded =>
    apply TableChange.update
    · exact fun _ => rfl
    · intro l _ _
      exact ⟨rfl, rfl, rfl, fun h => (by cases h), fun _ _ => rfl⟩

theorem authenticate_token {tokens : Tokens} {agentId merchantId : String} {actor : Actor}
    (h : authenticate env agentId merchantId db (.token tokens) = .ok actor) (hadmin : actor = .admin) :
    tokens.isAdmin = true := by
  obtain ⟨actor', hactor, h⟩ := Checks.bind_eq_ok h
  obtain ⟨_, _, h⟩ := Checks.bind_eq_ok h
  rw [Except.ok.inj h, hadmin] at hactor
  unfold requireOwnerTokenForMerchant at hactor
  split at hactor
  · assumption
  · split at hactor
    · cases hactor
    · cases hactor

/-- What a request that succeeds does to the listings. -/
theorem run_change (hids : Table.KeyUnique Listing.listingId db.listings)
    (h : op.run env db = .ok db') : TableChange db op db'.listings := by
  cases op with
  | publish credential c =>
    obtain ⟨actor, _, h⟩ := Checks.bind_eq_ok h
    obtain ⟨howner, _, hpublished⟩ := publishListing_ok hids h
    exact published_change hids howner.ownerActive hpublished
  | withdraw credential listingId =>
    obtain ⟨row, _, h⟩ := Checks.require_bind h
    obtain ⟨_, _, h⟩ := Checks.bind_eq_ok h
    exact withdrawn_change h
  | reinstate tokens listingId =>
    obtain ⟨row, _, h⟩ := Checks.require_bind h
    obtain ⟨actor, hactor, h⟩ := Checks.bind_eq_ok h
    obtain ⟨row, hreinstated⟩ := reinstateListing_ok hids h
    exact reinstated_change hids (authenticate_token hactor) hreinstated
  | read =>
    rw [← Except.ok.inj h]
    apply TableChange.update
    · exact fun _ => rfl
    · intro l _ _
      exact ⟨rfl, rfl, rfl, fun h => .inl ⟨h, rfl⟩, fun h _ => h⟩
  | suspendAgent catalogAgentId => exact suspended_change (suspendAgent_ok h)
  | reinstateAgent catalogAgentId =>
    rw [reinstateAgent_ok h]
    exact TableChange.refl db _

theorem ownerAgent_applyAdmin (catalogAgentId : String) (state : AdministrativeState)
    (db : Database) (ownerAgentId : String) :
    (applyAdmin catalogAgentId state db).ownerAgent ownerAgentId =
      if ownerAgentId = catalogAgentId then
        (db.ownerAgent ownerAgentId).map fun a => { a with administrativeState := state }
      else db.ownerAgent ownerAgentId := by
  apply Table.lookup_updateWhere
  exact fun _ => rfl

theorem ownerAgent_bindMerchant (catalogAgentId merchantId : String) (db : Database)
    (ownerAgentId : String) :
    (bindMerchant catalogAgentId merchantId db).ownerAgent ownerAgentId =
      if ownerAgentId = catalogAgentId then
        (db.ownerAgent ownerAgentId).map fun a => { a with merchantId := merchantId }
      else db.ownerAgent ownerAgentId := by
  apply Table.lookup_updateWhere
  exact fun _ => rfl

/-- The lookup of an agent ends at the row it ended at before another one was registered. -/
theorem ownerAgent_registers {ownerAgentId : String} {a : Agent} (agent : Agent)
    (ha : db.ownerAgent ownerAgentId = some a) :
    Database.ownerAgent { db with agents := db.agents ++ [agent] } ownerAgentId = some a := by
  unfold Database.ownerAgent Table.lookup at ha ⊢
  rw [List.find?_append, ha]
  rfl

theorem ownerActive_applyAdmin {ownerAgentId : String} (catalogAgentId : String)
    (h : db.OwnerActive ownerAgentId) :
    (applyAdmin catalogAgentId .active db).OwnerActive ownerAgentId := by
  obtain ⟨a, ha, hactive⟩ := h
  unfold Database.OwnerActive
  rw [ownerAgent_applyAdmin, ha]
  split
  · exact ⟨_, rfl, rfl⟩
  · exact ⟨a, rfl, hactive⟩

theorem ownerActive_congr {ownerAgentId : String} (hagents : db'.agents = db.agents)
    (h : db.OwnerActive ownerAgentId) : db'.OwnerActive ownerAgentId := by
  unfold Database.OwnerActive Database.ownerAgent at h ⊢
  rw [hagents]
  exact h

/-- Right after a suspension the cascade has reached every row of the owner. -/
theorem cascaded_rows (catalogAgentId : String) {l : Listing}
    (hl : l ∈ (suspendOwnedListings env catalogAgentId db).listings)
    (howner : l.ownerAgentId = catalogAgentId) : l.isActive = false := by
  obtain ⟨l₀, _, hl⟩ := Table.mem_updateWhere.mp hl
  split at hl
  · subst hl
    rfl
  · rename_i hnot
    subst hl
    cases hactive : l₀.isActive with
    | false => rfl
    | true => exact absurd (by simp [howner, hactive]) hnot

/-- A row that is ACTIVE after a request has kept the standing of its owner. -/
theorem run_ownerActive {l' : Listing} (hids : Table.KeyUnique Listing.listingId db.listings)
    (h : op.run env db = .ok db') (hl' : l' ∈ db'.listings) (hactive : l'.isActive = true)
    (howner : db.OwnerActive l'.ownerAgentId) : db'.OwnerActive l'.ownerAgentId := by
  cases op with
  | publish credential c =>
    obtain ⟨actor, _, h⟩ := Checks.bind_eq_ok h
    obtain ⟨_, _, hpublished⟩ := publishListing_ok hids h
    cases hpublished with
    | inserted => exact howner
    | refreshed => exact howner
  | withdraw credential listingId =>
    obtain ⟨row, _, h⟩ := Checks.require_bind h
    obtain ⟨_, _, h⟩ := Checks.bind_eq_ok h
    rcases withdrawListing_ok h with rfl | rfl
    · exact howner
    · exact howner
  | reinstate tokens listingId =>
    obtain ⟨row, _, h⟩ := Checks.require_bind h
    obtain ⟨actor, _, h⟩ := Checks.bind_eq_ok h
    obtain ⟨row, hreinstated⟩ := reinstateListing_ok hids h
    have hwritten := hreinstated.written
    subst hwritten
    exact howner
  | read =>
    rw [← Except.ok.inj h]
    exact howner
  | suspendAgent catalogAgentId =>
    cases suspendAgent_ok h with
    | already => exact howner
    | cascaded =>
      -- the ACTIVE rows are those of other owners
      have hne : l'.ownerAgentId ≠ catalogAgentId := by
        intro heq
        rw [cascaded_rows catalogAgentId hl' heq] at hactive
        cases hactive
      obtain ⟨a, ha, hstate⟩ := howner
      refine ⟨a, ?_, hstate⟩
      have hother := ownerAgent_applyAdmin catalogAgentId .suspended db l'.ownerAgentId
      rw [if_neg hne] at hother
      exact hother.trans ha
  | reinstateAgent catalogAgentId =>
    rw [reinstateAgent_ok h]
    exact ownerActive_applyAdmin catalogAgentId howner

end Requests

/-! ## The invariant -/

/-- A held row is down, and the owner of an ACTIVE row is in good standing. -/
structure Governed (db : Database) : Prop where
  listingIds : Table.KeyUnique Listing.listingId db.listings
  held : ∀ l ∈ db.listings, l.governanceHold = 1 → l.isActive = false
  owners : ∀ l ∈ db.listings, l.isActive = true → db.OwnerActive l.ownerAgentId

theorem governed_init {db : Database} (h : Init db) : Governed db := by
  unfold Init at h
  refine ⟨?_, ?_, ?_⟩
  · rw [h]
    exact List.nodup_nil
  · simp [h]
  · simp [h]

/-- A write that leaves the listings alone must keep agents in good standing. -/
theorem Governed.agents {db db' : Database} (h : Governed db) (hlistings : db'.listings = db.listings)
    (howner : ∀ id, db.OwnerActive id → db'.OwnerActive id) : Governed db' := by
  refine ⟨?_, ?_, ?_⟩
  · rw [hlistings]
    exact h.listingIds
  · rw [hlistings]
    exact h.held
  · rw [hlistings]
    intro l hl hactive
    exact howner _ (h.owners l hl hactive)

theorem governed_run {env : Env} {op : Op} {db db' : Database} (hdb : Governed db)
    (h : op.run env db = .ok db') : Governed db' := by
  have hchange := run_change hdb.listingIds h
  refine ⟨hchange.ids hdb.listingIds, ?_, ?_⟩
  · intro l' hl' hheld
    rcases hchange.rows l' hl' with ⟨l, hl, hrow⟩ | hnew
    · rw [Bool.eq_false_iff]
      intro hactive
      rcases hrow.active hactive with ⟨hwas, hsame⟩ | ⟨_, hfree⟩
      · -- it was ACTIVE under the same hold
        have hdown := hdb.held l hl (hsame.symm.trans hheld)
        rw [hwas] at hdown
        cases hdown
      · exact hfree hheld
    · rw [hnew.notHeld] at hheld
      cases hheld
  · intro l' hl' hactive
    apply run_ownerActive hdb.listingIds h hl' hactive
    rcases hchange.rows l' hl' with ⟨l, hl, hrow⟩ | hnew
    · rw [hrow.owner]
      rcases hrow.active hactive with ⟨hwas, _⟩ | ⟨howner, _⟩
      · exact hdb.owners l hl hwas
      · exact howner
    · exact hnew.owner

theorem governed_step {allowed : Op → Prop} : Preserves (Step allowed) Governed := by
  intro db db' hstep hdb
  cases hstep with
  | performs env op _ hrun => exact governed_run hdb hrun
  | registers agent hnew _ =>
    apply Governed.agents hdb
    · rfl
    rintro id ⟨a, ha, hactive⟩
    exact ⟨a, ownerAgent_registers agent ha, hactive⟩
  | reopens catalogAgentId =>
    apply Governed.agents hdb
    · rfl
    intro id h
    exact ownerActive_applyAdmin catalogAgentId h
  | claims agent merchantId _ _ =>
    apply Governed.agents hdb
    · rfl
    rintro id ⟨a, ha, hactive⟩
    unfold Database.OwnerActive
    rw [ownerAgent_bindMerchant, ha]
    split
    · exact ⟨_, rfl, hactive⟩
    · exact ⟨a, rfl, hactive⟩
  | elsewhere hlistings hagents =>
    apply Governed.agents hdb hlistings
    intro id h
    exact ownerActive_congr hagents h

theorem governed_reachable {allowed : Op → Prop} {db : Database}
    (h : Reachable Init (Step allowed) db) : Governed db :=
  reachable_invariant (fun _ => governed_init) governed_step h

/-! ## Runs without a release by an administrator -/

/-- The row under an id carries the governance hold. -/
def HeldAt (listingId : String) (db : Database) : Prop :=
  ∃ l ∈ db.listings, l.listingId = listingId ∧ l.governanceHold = 1

theorem heldAt_step {listingId : String} {db db' : Database} (hdb : Governed db)
    (hstep : Step (fun op => op.isAdminRelease = false) db db') (h : HeldAt listingId db) :
    HeldAt listingId db' := by
  obtain ⟨l, hl, hid, hheld⟩ := h
  cases hstep with
  | performs env op hallowed hrun =>
    have hchange := run_change hdb.listingIds hrun
    obtain ⟨l', hl', hid'⟩ := hchange.kept l hl
    refine ⟨l', hl', hid'.trans hid, ?_⟩
    rcases hchange.rows l' hl' with ⟨l₀, hl₀, hrow⟩ | hnew
    · have heq := Table.eq_of_key_eq hdb.listingIds hl₀ hl (hrow.listingId.symm.trans hid')
      rw [heq] at hrow
      exact hrow.held hheld hallowed
    · exact absurd hid'.symm (hnew.fresh l hl)
  | registers => exact ⟨l, hl, hid, hheld⟩
  | reopens => exact ⟨l, hl, hid, hheld⟩
  | claims => exact ⟨l, hl, hid, hheld⟩
  | elsewhere hlistings _ =>
    refine ⟨l, ?_, hid, hheld⟩
    rw [hlistings]
    exact hl

theorem heldAt_run {listingId : String} {db db' : Database} (hdb : Governed db)
    (hrun : Run (Step fun op => op.isAdminRelease = false) db db') (h : HeldAt listingId db) :
    HeldAt listingId db' := by
  induction hrun with
  | refl => exact h
  | tail hprefix hlast ih => exact heldAt_step (run_preserves governed_step hprefix hdb) hlast ih

/-! ## The hold -/

/-- In every state that requests, administrative actions and the other services lead to: a held
listing is not ACTIVE, and without a release by an administrator it stays held whatever follows;
right after the suspension of an agent none of its listings is ACTIVE; and a listing only becomes
ACTIVE while its owner is administratively active. -/
theorem governance_hold {db : Database} (hreach : Reachable Init (Step fun _ => True) db) :
    (∀ l ∈ db.listings, l.governanceHold = 1 → l.publicationState ≠ .active) ∧
    (∀ db', Run (Step fun op => op.isAdminRelease = false) db db' →
      ∀ l ∈ db.listings, l.governanceHold = 1 →
        ∃ l', getListing db'.listings l.listingId = some l' ∧ l'.governanceHold = 1 ∧
          l'.publicationState ≠ .active) ∧
    (∀ env catalogAgentId db', suspendAgent env catalogAgentId db = .ok db' →
      ∀ l ∈ db'.listings, l.ownerAgentId = catalogAgentId → l.publicationState ≠ .active) ∧
    (∀ db', Step (fun _ => True) db db' → ∀ l' ∈ db'.listings, l'.publicationState = .active →
      (∀ l ∈ db.listings, l.listingId = l'.listingId → l.publicationState ≠ .active) →
        ∃ a, db.ownerAgent l'.ownerAgentId = some a ∧ a.administrativeState = .active) := by
  have hdb := governed_reachable hreach
  refine ⟨?_, ?_, ?_, ?_⟩
  · intro l hl hheld
    exact of_decide_eq_false (hdb.held l hl hheld)
  · intro db' hrun l hl hheld
    have hdb' : Governed db' := run_preserves governed_step hrun hdb
    obtain ⟨l', hl', hid, hheld'⟩ := heldAt_run hdb hrun ⟨l, hl, rfl, hheld⟩
    refine ⟨l', ?_, hheld', of_decide_eq_false (hdb'.held l' hl' hheld')⟩
    have hlookup := Table.lookup_of_mem hdb'.listingIds hl'
    rw [hid] at hlookup
    exact hlookup
  · intro env catalogAgentId db' hsuspend l hl howner
    cases suspendAgent_ok hsuspend with
    | already ha hstate =>
      -- an agent that is suspended owns no ACTIVE row
      intro hactive
      obtain ⟨a, ha', hactive'⟩ := hdb.owners l hl (decide_eq_true hactive)
      rw [howner, ha] at ha'
      rw [Option.some.inj ha', hactive'] at hstate
      cases hstate
    | cascaded => exact of_decide_eq_false (cascaded_rows catalogAgentId hl howner)
  · intro db' hstep l' hl' hactive hbefore
    have hkept : l' ∈ db.listings → False := fun hl => hbefore l' hl rfl hactive
    cases hstep with
    | performs env op _ hrun =>
      rcases (run_change hdb.listingIds hrun).rows l' hl' with ⟨l, hl, hrow⟩ | hnew
      · rcases hrow.active (decide_eq_true hactive) with ⟨hwas, _⟩ | ⟨howner, _⟩
        · exact absurd (of_decide_eq_true hwas) (hbefore l hl hrow.listingId.symm)
        · rw [hrow.owner]
          exact howner
      · exact hnew.owner
    | registers => exact (hkept hl').elim
    | reopens => exact (hkept hl').elim
    | claims => exact (hkept hl').elim
    | elsewhere hlistings _ =>
      rw [hlistings] at hl'
      exact (hkept hl').elim

/-! An administrator publishes a listing of an agent and then suspends the agent. -/

def exampleEnv : Env :=
  ⟨"2026-08-06T00:00:00+00:00", fun _ => "2026-08-07T00:00:00+00:00", fun _ => "digest", "lst_1",
    true⟩

def exampleCanonical : Canonical :=
  ⟨.product, "cagt_1", "mkt_1", some "SKU-1", none, none, "Widget", none, "widgets", none, none, none,
    none, none, none, none, none, by decide⟩

def exampleAdmin : Tokens := ⟨true, fun _ => false⟩

def exampleCatalog : Database := ⟨[], [⟨"cagt_1", "", .active⟩], [], [], [], [], []⟩

def examplePublished : Database :=
  exampleCatalog.setListings [newListing exampleEnv exampleCanonical]

def exampleSuspended : Database :=
  { exampleCatalog with
    agents := [⟨"cagt_1", "", .suspended⟩]
    listings := [suspended exampleEnv (newListing exampleEnv exampleCanonical)] }

theorem exampleSuspended_reachable : Reachable Init (Step fun _ => True) exampleSuspended := by
  refine ⟨exampleCatalog, rfl, ?_⟩
  have hpublish : Step (fun _ => True) exampleCatalog examplePublished :=
    .performs exampleEnv (.publish (.token exampleAdmin) exampleCanonical) trivial rfl
  have hsuspend : Step (fun _ => True) examplePublished exampleSuspended :=
    .performs exampleEnv (.suspendAgent "cagt_1") trivial rfl
  exact (Relation.ReflTransGen.refl.tail hpublish).tail hsuspend

theorem governance_hold_suspended :
    ∃ l', getListing exampleSuspended.listings "lst_1" = some l' ∧ l'.governanceHold = 1 ∧
      l'.publicationState ≠ .active :=
  (governance_hold exampleSuspended_reachable).2.1 exampleSuspended .refl
    (suspended exampleEnv (newListing exampleEnv exampleCanonical)) (List.mem_singleton.mpr rfl) rfl

end KiwiCatalog.Listings
