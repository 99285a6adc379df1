import KiwiCatalog.Listings.GovernanceHold

/-!
# Capacity — the limit on the active listings of a merchant

A runtime-signed publish and the reinstatement of a listing of an account's merchant are charged
against the entitlement; a publish under an owner's or an administrator's token is not.
-/

set_option autoImplicit false

namespace KiwiCatalog.Listings

open Checks
open Transition
open Trust (AdministrativeState)

/-! ## Counting -/

/-- The rows that count against the merchant. -/
def countsFor (merchantId : String) (l : Listing) : Bool := l.merchantId = merchantId && l.isActive

theorem activeUsed_eq (db : Database) (merchantId : String) :
    db.activeUsed merchantId = db.listings.countP (countsFor merchantId) := rfl

/-- The merchant has at most as many active listings as its entitlement allows. -/
def Database.WithinLimit (db : Database) (merchantId : String) : Prop :=
  ∀ limit, db.activeLimit? merchantId = some limit → db.activeUsed merchantId ≤ limit

section Requests

variable {env : Env} {op : Op} {db db' : Database}

theorem withinLimit_of_le {merchantId : String}
    (hlimit : db'.activeLimit? merchantId = db.activeLimit? merchantId)
    (hused : db'.activeUsed merchantId ≤ db.activeUsed merchantId) (h : db.WithinLimit merchantId) :
    db'.WithinLimit merchantId := by
  intro limit hsome
  rw [hlimit] at hsome
  exact hused.trans (h limit hsome)

/-- An update that makes no row count keeps every merchant within its limit. -/
theorem withinLimit_update {p : Listing → Bool} {f : Listing → Listing} {merchantId : String}
    (hcount : ∀ l, p l = true → countsFor merchantId (f l) = true → countsFor merchantId l = true)
    (h : db.WithinLimit merchantId) :
    (db.setListings (Table.updateWhere p f db.listings)).WithinLimit merchantId := by
  apply withinLimit_of_le _ _ h
  · rfl
  · exact Table.countP_updateWhere_le fun l _ => hcount l

/-- A row that is made to count was charged to its merchant. -/
theorem withinLimit_activate {f : Listing → Listing} {row : Listing} {charged merchantId : String}
    (hids : Table.KeyUnique Listing.listingId db.listings) (hrow : row ∈ db.listings)
    (hmerchant : (f row).merchantId = row.merchantId) (hcharged : row.merchantId = charged)
    (hroom : db.HasRoom charged (some row.publicationState)) (h : db.WithinLimit merchantId) :
    (db.setListings (Table.updateWhere (fun l => l.listingId = row.listingId) f
      db.listings)).WithinLimit merchantId := by
  intro limit hlimit
  have hcount := Table.countP_updateWhere_key hids (countsFor merchantId) f hrow
  have hwithin := h limit hlimit
  rw [activeUsed_eq] at hwithin ⊢
  simp only [Database.setListings_listings]
  by_cases hother : row.merchantId = merchantId
  · obtain ⟨limit', hlimit', hcase⟩ := hroom
    have heq : limit = limit' := by
      rw [hcharged] at hother
      subst hother
      exact Option.some.inj (hlimit.symm.trans hlimit')
    have hafter : (if countsFor merchantId (f row) = true then 1 else 0) ≤ 1 := by
      split <;> decide
    rcases hcase with hactive | hused
    · -- the row is counted already
      have hcounted : countsFor merchantId row = true := by
        simp [countsFor, Listing.isActive, hother, Option.some.inj hactive]
      rw [hcounted] at hcount
      simp only [if_true] at hcount
      omega
    · rw [activeUsed_eq, ← hcharged, hother] at hused
      omega
  · have hnot : countsFor merchantId row = false := by simp [countsFor, hother]
    have hnot' : countsFor merchantId (f row) = false := by simp [countsFor, hmerchant, hother]
    rw [hnot, hnot'] at hcount
    simp only [Bool.false_eq_true, if_false] at hcount
    omega

theorem withinLimit_insert {row : Listing} {merchantId : String}
    (hroom : db.HasRoom row.merchantId none) (h : db.WithinLimit merchantId) :
    (db.setListings (db.listings ++ [row])).WithinLimit merchantId := by
  intro limit hlimit
  have hwithin := h limit hlimit
  rw [activeUsed_eq] at hwithin ⊢
  simp only [Database.setListings_listings, List.countP_append, List.countP_singleton]
  by_cases hother : row.merchantId = merchantId
  · obtain ⟨limit', hlimit', hcase⟩ := hroom
    rw [hother] at hlimit' hcase
    have heq : limit = limit' := Option.some.inj (hlimit.symm.trans hlimit')
    rcases hcase with hactive | hused
    · cases hactive
    · rw [activeUsed_eq] at hused
      split <;> omega
  · have hnot : countsFor merchantId row = false := by simp [countsFor, hother]
    rw [hnot]
    simpa using hwithin

/-! ## Each request -/

/-- Signed publishes, and reinstatements for a merchant that has an account.  Withdrawals, reads and
the actions on agents make no row count. -/
def Op.isMetered (db : Database) : Op → Prop
  | .publish (.token _) _ => False
  | .reinstate _ listingId => ∀ row, getListing db.listings listingId = some row →
      db.hasAccount row.merchantId = true
  | _ => True

/-- A publish does not refresh a row of another merchant. -/
def Op.RefreshesOwn (db : Database) : Op → Prop
  | .publish _ c => ∀ row, findExisting db c = some row → row.merchantId = c.merchantId
  | _ => True

/-- A limit is not written by any of the requests. -/
theorem activeLimit?_congr {merchantId : String} (hplans : db'.plans = db.plans)
    (hentitlements : db'.entitlements = db.entitlements) :
    db'.activeLimit? merchantId = db.activeLimit? merchantId := by
  unfold Database.activeLimit? Database.entitlement?
  rw [hplans, hentitlements]

theorem withinLimit_publish {verifies : Binding.RuntimeBinding → Bool} {c : Canonical}
    {merchantId : String} (hids : Table.KeyUnique Listing.listingId db.listings)
    (hcharged : ∀ row, findExisting db c = some row → row.merchantId = c.merchantId)
    (h : v1PublishListing env (.runtime verifies) c db = .ok db') (hwithin : db.WithinLimit merchantId) :
    db'.WithinLimit merchantId := by
  obtain ⟨actor, hactor, h⟩ := bind_eq_ok h
  obtain ⟨_, hroom, hpublished⟩ := publishListing_ok hids h
  have hruntime : actor.isRuntime = true := by
    obtain ⟨binding, _, hactor⟩ := bind_eq_ok hactor
    obtain ⟨_, _, hactor⟩ := bind_eq_ok hactor
    rw [← Except.ok.inj hactor]
    rfl
  have hroom := hroom hruntime
  cases hpublished with
  | inserted hnone _ =>
    rw [hnone] at hroom
    exact withinLimit_insert hroom hwithin
  | refreshed row hrow _ =>
    rw [hrow] at hroom
    exact withinLimit_activate hids (findExisting_some hrow).1 (republished_merchant env c row)
      (hcharged row hrow) hroom hwithin

theorem withinLimit_withdraw {listingId owner merchantId : String}
    (h : withdrawListing env listingId owner db = .ok db') (hwithin : db.WithinLimit merchantId) :
    db'.WithinLimit merchantId := by
  rcases withdrawListing_ok h with rfl | rfl
  · exact hwithin
  · apply withinLimit_update _ hwithin
    intro l _ hcounts
    simp [countsFor, Listing.isActive] at hcounts

theorem withinLimit_reinstate {actor : Actor} {owner merchantId : String} {row : Listing}
    (hids : Table.KeyUnique Listing.listingId db.listings) (haccount : db.hasAccount owner = true)
    (h : Reinstated env actor owner row db db') (hwithin : db.WithinLimit merchantId) :
    db'.WithinLimit merchantId := by
  have hroom := h.room haccount
  rw [h.written]
  apply withinLimit_activate hids h.found rfl h.merchant _ hwithin
  rw [h.suspended]
  exact hroom

theorem withinLimit_suspend {catalogAgentId merchantId : String}
    (h : Suspended env catalogAgentId db db') (hwithin : db.WithinLimit merchantId) :
    db'.WithinLimit merchantId := by
  cases h with
  | already => exact hwithin
  | cascaded =>
    apply withinLimit_of_le _ _ hwithin
    · exact activeLimit?_congr rfl rfl
    · apply Table.countP_updateWhere_le
      intro l _ _ hcounts
      simp [Listing.isActive] at hcounts

/-- A metered request that succeeds takes no merchant over its limit. -/
theorem withinLimit_run {merchantId : String}
    (hids : Table.KeyUnique Listing.listingId db.listings) (hmetered : op.isMetered db)
    (hown : op.RefreshesOwn db) (h : op.run env db = .ok db') (hwithin : db.WithinLimit merchantId) :
    db'.WithinLimit merchantId := by
  cases op with
  | publish credential c =>
    cases credential with
    | runtime verifies => exact withinLimit_publish hids hown h hwithin
    | token tokens => exact hmetered.elim
  | withdraw credential listingId =>
    obtain ⟨row, _, h⟩ := require_bind h
    obtain ⟨_, _, h⟩ := bind_eq_ok h
    exact withinLimit_withdraw h hwithin
  | reinstate tokens listingId =>
    obtain ⟨row, hrow, h⟩ := require_bind h
    obtain ⟨actor, _, h⟩ := bind_eq_ok h
    obtain ⟨row', hreinstated⟩ := reinstateListing_ok hids h
    exact withinLimit_reinstate hids (hmetered row hrow) hreinstated hwithin
  | read =>
    rw [← Except.ok.inj h]
    exact withinLimit_update (fun _ _ hcounts => hcounts) hwithin
  | suspendAgent catalogAgentId => exact withinLimit_suspend (suspendAgent_ok h) hwithin
  | reinstateAgent catalogAgentId =>
    rw [reinstateAgent_ok h]
    exact hwithin

/-! ## A refresh is not refused for lack of room -/

theorem ownerText_ne (s : String) : "owner catalog agent " ++ s ≠ capacityExceeded := by
  intro h
  have hchars := congrArg (fun t => t.toList.head?) h
  simp only [String.toList_append] at hchars
  revert hchars
  rw [List.head?_append_of_ne_nil _ (by decide)]
  decide

theorem requireOwnerActive_error {ownerAgentId merchantId : String} {e : ListingError}
    (h : requireOwnerActive db ownerAgentId merchantId = .error e) :
    e ≠ .permissionDenied capacityExceeded := by
  unfold requireOwnerActive at h
  rcases bind_eq_error h with hunknown | ⟨a, _, h⟩
  · rw [(require_eq_error hunknown).2]
    intro he
    cases he
  rcases bind_eq_error h with hstanding | ⟨_, _, hmerchant⟩
  · rw [(check_eq_error hstanding).2]
    intro he
    have htext := ListingError.permissionDenied.inj he
    simp only [String.append_assoc] at htext
    exact ownerText_ne _ htext
  · rw [(check_eq_error hmerchant).2]
    intro he
    have htext := ListingError.permissionDenied.inj he
    simp only [String.append_assoc] at htext
    exact ownerText_ne _ htext

theorem authenticate_runtime_error {verifies : Binding.RuntimeBinding → Bool}
    {agentId merchantId : String} {e : ListingError}
    (h : authenticate env agentId merchantId db (.runtime verifies) = .error e) :
    e ≠ .permissionDenied capacityExceeded := by
  unfold authenticate at h
  rcases bind_eq_error h with hsignature | ⟨binding, _, h⟩
  · unfold verifyRuntimeListingSignature at hsignature
    rcases bind_eq_error hsignature with hagent | ⟨_, _, h⟩
    · rw [(require_eq_error hagent).2]
      decide
    rcases bind_eq_error h with hactive | ⟨_, _, h⟩
    · rw [(require_eq_error hactive).2]
      decide
    rcases bind_eq_error h with hmatch | ⟨_, _, h⟩
    · rw [(check_eq_error hmatch).2]
      decide
    rcases bind_eq_error h with hverifies | ⟨_, _, h⟩
    · rw [(check_eq_error hverifies).2]
      decide
    · cases h
  rcases bind_eq_error h with hgrant | ⟨_, _, h⟩
  · unfold requireCurrentListingEntitlement at hgrant
    rcases bind_eq_error hgrant with henrollment | ⟨_, _, h⟩
    · rw [(check_eq_error henrollment).2]
      decide
    rcases bind_eq_error h with hcapacity | ⟨_, _, h⟩
    · rw [capacity_error hcapacity]
      decide
    · cases h
  · cases h

theorem publishListing_error {c : Canonical} {actor : Actor} {row : Listing} {e : ListingError}
    (hrow : findExisting db c = some row) (hactive : row.publicationState = .active)
    (h : publishListing env c actor db = .error e) : e ≠ .permissionDenied capacityExceeded := by
  unfold publishListing at h
  rcases bind_eq_error h with howner | ⟨_, _, h⟩
  · exact requireOwnerActive_error howner
  rw [hrow] at h
  rcases bind_eq_error h with hheld | ⟨_, _, h⟩
  · rw [(check_eq_error hheld).2]
    decide
  rcases bind_eq_error h with hcapacity | ⟨_, _, h⟩
  · rw [Option.map_some, hactive] at hcapacity
    unfold requireCapacityIf at hcapacity
    split at hcapacity
    · exact requirePublicationCapacity_active hcapacity
    · cases hcapacity
  rcases bind_eq_error h with hupdate | ⟨_, _, h⟩
  · unfold republish at hupdate
    rcases bind_eq_error hupdate with hintegrity | ⟨_, _, h⟩
    · rw [(require_eq_error hintegrity).2]
      decide
    · cases h
  · split at h
    · cases h
    · cases h

theorem refresh_has_room {verifies : Binding.RuntimeBinding → Bool} {c : Canonical} {row : Listing}
    (hrow : findExisting db c = some row) (hactive : row.publicationState = .active) :
    v1PublishListing env (.runtime verifies) c db ≠ .error (.permissionDenied capacityExceeded) := by
  intro h
  rcases bind_eq_error h with hactor | ⟨_, _, h⟩
  · exact authenticate_runtime_error hactor rfl
  · exact publishListing_error hrow hactive h rfl

end Requests

/-! ## Who is charged -/

/-- The listings belong to the merchants of their owners. -/
def MerchantOwned (db : Database) : Prop :=
  ∀ l ∈ db.listings, l.merchantId ≠ "" ∧
    ∃ a, db.ownerAgent l.ownerAgentId = some a ∧ a.merchantId = l.merchantId

/-- Every agent that has claimed a merchant keeps it. -/
def KeepsMerchants (db db' : Database) : Prop :=
  ∀ id a, db.ownerAgent id = some a → a.merchantId ≠ "" →
    ∃ a', db'.ownerAgent id = some a' ∧ a'.merchantId = a.merchantId

theorem KeepsMerchants.of_agents {db db' : Database} (h : db'.agents = db.agents) :
    KeepsMerchants db db' := by
  intro id a ha _
  refine ⟨a, ?_, rfl⟩
  unfold Database.ownerAgent at ha ⊢
  rw [h]
  exact ha

theorem keepsMerchants_applyAdmin (db : Database) (catalogAgentId : String)
    (state : AdministrativeState) : KeepsMerchants db (applyAdmin catalogAgentId state db) := by
  intro id a ha _
  rw [ownerAgent_applyAdmin, ha]
  split
  · exact ⟨_, rfl, rfl⟩
  · exact ⟨a, rfl, rfl⟩

theorem keepsMerchants_registers (db : Database) (agent : Agent) :
    KeepsMerchants db { db with agents := db.agents ++ [agent] } := by
  intro id a ha _
  exact ⟨a, ownerAgent_registers agent ha, rfl⟩

/-- A claim succeeds where the agent has no other merchant. -/
theorem keepsMerchants_claims {db : Database} {agent : Agent} {merchantId : String}
    (hagent : db.ownerAgent agent.catalogAgentId = some agent)
    (hfree : agent.merchantId = "" ∨ agent.merchantId = merchantId) :
    KeepsMerchants db (bindMerchant agent.catalogAgentId merchantId db) := by
  intro id a ha hclaimed
  rw [ownerAgent_bindMerchant, ha]
  split
  · rename_i hid
    subst hid
    have heq : agent = a := Option.some.inj (hagent.symm.trans ha)
    subst heq
    refine ⟨_, rfl, ?_⟩
    rcases hfree with hnone | hsame
    · exact absurd hnone hclaimed
    · exact hsame.symm
  · exact ⟨a, rfl, rfl⟩

theorem keepsMerchants_run {env : Env} {op : Op} {db db' : Database}
    (hids : Table.KeyUnique Listing.listingId db.listings) (h : op.run env db = .ok db') :
    KeepsMerchants db db' := by
  cases op with
  | publish credential c =>
    obtain ⟨actor, _, h⟩ := bind_eq_ok h
    obtain ⟨_, _, hpublished⟩ := publishListing_ok hids h
    cases hpublished with
    | inserted => exact .of_agents rfl
    | refreshed => exact .of_agents rfl
  | withdraw credential listingId =>
    obtain ⟨row, _, h⟩ := require_bind h
    obtain ⟨_, _, h⟩ := bind_eq_ok h
    rcases withdrawListing_ok h with rfl | rfl
    · exact .of_agents rfl
    · exact .of_agents rfl
  | reinstate tokens listingId =>
    obtain ⟨row, _, h⟩ := require_bind h
    obtain ⟨actor, _, h⟩ := bind_eq_ok h
    obtain ⟨row, hreinstated⟩ := reinstateListing_ok hids h
    rw [hreinstated.written]
    exact .of_agents rfl
  | read =>
    rw [← Except.ok.inj h]
    exact .of_agents rfl
  | suspendAgent catalogAgentId =>
    cases suspendAgent_ok h with
    | already => exact .of_agents rfl
    | cascaded => exact keepsMerchants_applyAdmin db catalogAgentId .suspended
  | reinstateAgent catalogAgentId =>
    rw [reinstateAgent_ok h]
    exact keepsMerchants_applyAdmin db catalogAgentId .active

/-- A signature proves the merchant of the agent. -/
theorem publish_owner {env : Env} {verifies : Binding.RuntimeBinding → Bool} {c : Canonical}
    {db db' : Database} (h : v1PublishListing env (.runtime verifies) c db = .ok db') :
    ∃ a, db.ownerAgent c.ownerAgentId = some a ∧ a.merchantId = c.merchantId := by
  obtain ⟨_, hactor, _⟩ := bind_eq_ok h
  obtain ⟨_, hsignature, _⟩ := bind_eq_ok hactor
  unfold verifyRuntimeListingSignature at hsignature
  obtain ⟨a, ha, h⟩ := require_bind hsignature
  obtain ⟨_, _, h⟩ := require_bind h
  obtain ⟨hmatch, _⟩ := check_bind h
  simp only [Bool.and_eq_true, decide_eq_true_eq] at hmatch
  exact ⟨a, ha, hmatch.1.1⟩

theorem merchantOwned_rows {db db' : Database} (hkeeps : KeepsMerchants db db')
    (hrows : ∀ l' ∈ db'.listings, l'.merchantId ≠ "" ∧
      ∃ a, db.ownerAgent l'.ownerAgentId = some a ∧ a.merchantId = l'.merchantId) :
    MerchantOwned db' := by
  intro l' hl'
  obtain ⟨hne, a, ha, hmerchant⟩ := hrows l' hl'
  have hclaimed : a.merchantId ≠ "" := by rw [hmerchant]; exact hne
  obtain ⟨a', ha', hsame⟩ := hkeeps _ a ha hclaimed
  exact ⟨hne, a', ha', hsame.trans hmerchant⟩

/-- The steps of a catalog in which listings are published under signatures. -/
def SignedStep : Database → Database → Prop := Step fun op => op.isTokenPublish = false

theorem merchantOwned_step {db db' : Database} (hdb : Governed db) (hstep : SignedStep db db')
    (h : MerchantOwned db) : MerchantOwned db' := by
  cases hstep with
  | performs env op hallowed hrun =>
    apply merchantOwned_rows (keepsMerchants_run hdb.listingIds hrun)
    intro l' hl'
    rcases (run_change hdb.listingIds hrun).rows l' hl' with ⟨l, hl, hrow⟩ | hnew
    · rw [hrow.merchant, hrow.owner]
      exact h l hl
    · obtain ⟨credential, c, rfl, howner, hmerchant⟩ := hnew.publishes
      rw [howner, hmerchant]
      refine ⟨c.merchant_nonempty, ?_⟩
      cases credential with
      | runtime verifies => exact publish_owner hrun
      | token tokens => cases hallowed
  | registers agent _ _ => exact merchantOwned_rows (keepsMerchants_registers db agent) h
  | reopens catalogAgentId =>
    exact merchantOwned_rows (keepsMerchants_applyAdmin db catalogAgentId .active) h
  | claims agent merchantId hagent hfree =>
    exact merchantOwned_rows (keepsMerchants_claims hagent hfree) h
  | elsewhere hlistings hagents =>
    apply merchantOwned_rows (.of_agents hagents)
    rw [hlistings]
    exact h

theorem merchantOwned_reachable {db : Database} (h : Reachable Init SignedStep db) :
    MerchantOwned db := by
  obtain ⟨db₀, hinit, hrun⟩ := h
  induction hrun with
  | refl =>
    intro l hl
    rw [hinit] at hl
    cases hl
  | tail hprefix hlast ih =>
    exact merchantOwned_step (governed_reachable ⟨db₀, hinit, hprefix⟩) hlast ih

/-- The merchant on the row that a signed publish refreshes is the one that publishes. -/
theorem refreshed_merchant {env : Env} {verifies : Binding.RuntimeBinding → Bool} {c : Canonical}
    {db db' : Database} {row : Listing} (hdb : MerchantOwned db)
    (h : v1PublishListing env (.runtime verifies) c db = .ok db')
    (hrow : findExisting db c = some row) : row.merchantId = c.merchantId := by
  obtain ⟨hfound, howner⟩ := findExisting_some hrow
  obtain ⟨_, a, ha, hmerchant⟩ := hdb row hfound
  obtain ⟨a', ha', hmerchant'⟩ := publish_owner h
  rw [howner, ha'] at ha
  rw [← hmerchant, ← Option.some.inj ha]
  exact hmerchant'

/-- The merchant whose capacity a request has checked. -/
def Op.chargedMerchant (db : Database) : Op → Option String
  | .publish _ c => some c.merchantId
  | .reinstate _ listingId => (getListing db.listings listingId).map Listing.merchantId
  | _ => none

/-- A row counts that did not before. -/
def StartsCounting (db : Database) (l' : Listing) : Prop :=
  l'.isActive = true ∧ ∀ l ∈ db.listings, l.listingId = l'.listingId → l.isActive = false

theorem startsCounting_update {db : Database} {p : Listing → Bool} {f : Listing → Listing}
    {l' : Listing} (hl' : l' ∈ Table.updateWhere p f db.listings) (h : StartsCounting db l') :
    ∃ l ∈ db.listings, p l = true ∧ l' = f l := by
  obtain ⟨l, hl, hl'⟩ := Table.mem_updateWhere.mp hl'
  split at hl'
  · rename_i hp
    exact ⟨l, hl, hp, hl'.symm⟩
  · -- a row that the update passes over counted before
    subst hl'
    have hbefore := h.2 l hl rfl
    rw [h.1] at hbefore
    cases hbefore

theorem startsCounting_kept {db : Database} {l' : Listing} (hl' : l' ∈ db.listings) :
    ¬ StartsCounting db l' := by
  intro h
  have hbefore := h.2 l' hl' rfl
  rw [h.1] at hbefore
  cases hbefore

/-- A row that a request makes count belongs to the merchant that it is charged to. -/
theorem startsCounting_charged {env : Env} {op : Op} {db db' : Database} {l' : Listing}
    (hids : Table.KeyUnique Listing.listingId db.listings) (hown : op.RefreshesOwn db)
    (h : op.run env db = .ok db') (hl' : l' ∈ db'.listings) (hstarts : StartsCounting db l') :
    op.chargedMerchant db = some l'.merchantId := by
  cases op with
  | publish credential c =>
    obtain ⟨actor, _, h⟩ := bind_eq_ok h
    obtain ⟨_, _, hpublished⟩ := publishListing_ok hids h
    cases hpublished with
    | inserted =>
      rcases List.mem_append.mp hl' with hold | hnew
      · exact absurd hstarts (startsCounting_kept hold)
      · rw [List.mem_singleton] at hnew
        subst hnew
        rfl
    | refreshed row hrow _ =>
      obtain ⟨l, hl, hid, rfl⟩ := startsCounting_update hl' hstarts
      have heq := Table.eq_of_key_eq hids hl (findExisting_some hrow).1 (of_decide_eq_true hid)
      subst heq
      rw [republished_merchant, hown l hrow]
      rfl
  | withdraw credential listingId =>
    obtain ⟨row, _, h⟩ := require_bind h
    obtain ⟨_, _, h⟩ := bind_eq_ok h
    rcases withdrawListing_ok h with rfl | rfl
    · exact absurd hstarts (startsCounting_kept hl')
    · obtain ⟨l, _, _, rfl⟩ := startsCounting_update hl' hstarts
      cases hstarts.1
  | reinstate tokens listingId =>
    obtain ⟨row, hrow, h⟩ := require_bind h
    obtain ⟨actor, _, h⟩ := bind_eq_ok h
    obtain ⟨row', hreinstated⟩ := reinstateListing_ok hids h
    rw [hreinstated.written] at hl'
    obtain ⟨l, hl, hid, rfl⟩ := startsCounting_update hl' hstarts
    have heq := Table.eq_of_key_eq hids hl hreinstated.found (of_decide_eq_true hid)
    subst heq
    show (getListing db.listings listingId).map Listing.merchantId = some l.merchantId
    rw [hrow, hreinstated.merchant]
    rfl
  | read =>
    rw [← Except.ok.inj h] at hl'
    obtain ⟨l, hl, _, rfl⟩ := startsCounting_update hl' hstarts
    have hbefore := hstarts.2 l hl rfl
    rw [show l.isActive = true from hstarts.1] at hbefore
    cases hbefore
  | suspendAgent catalogAgentId =>
    cases suspendAgent_ok h with
    | already => exact absurd hstarts (startsCounting_kept hl')
    | cascaded =>
      obtain ⟨l, _, _, rfl⟩ := startsCounting_update hl' hstarts
      cases hstarts.1
  | reinstateAgent catalogAgentId =>
    rw [reinstateAgent_ok h] at hl'
    exact absurd hstarts (startsCounting_kept hl')

/-! ## The limit -/

theorem signed_refreshesOwn {env : Env} {op : Op} {db db' : Database} (hdb : MerchantOwned db)
    (hmetered : op.isMetered db) (h : op.run env db = .ok db') : op.RefreshesOwn db := by
  cases op with
  | publish credential c =>
    cases credential with
    | runtime verifies =>
      intro row hrow
      exact refreshed_merchant hdb h hrow
    | token tokens => exact hmetered.elim
  | _ => trivial

theorem signed_governed {db : Database} (h : Reachable Init SignedStep db) : Governed db :=
  governed_reachable h

/-- Where listings are published under signatures, a metered request that succeeds takes no
merchant over its limit, the refresh of an ACTIVE row is not refused for lack of room, and a row
that begins to count is counted for the merchant that was charged. -/
theorem listing_capacity {db : Database} (hreach : Reachable Init SignedStep db) :
    (∀ env (op : Op) db', op.isMetered db → op.run env db = .ok db' →
      ∀ merchantId, db.WithinLimit merchantId → db'.WithinLimit merchantId) ∧
    (∀ env verifies c row, findExisting db c = some row → row.publicationState = .active →
      v1PublishListing env (.runtime verifies) c db ≠
        .error (.permissionDenied capacityExceeded)) ∧
    (∀ env (op : Op) db', op.isMetered db → op.run env db = .ok db' →
      ∀ l' ∈ db'.listings, StartsCounting db l' →
        op.chargedMerchant db = some l'.merchantId) := by
  have hids := (signed_governed hreach).listingIds
  have howned := merchantOwned_reachable hreach
  refine ⟨?_, ?_, ?_⟩
  · intro env op db' hmetered hrun merchantId hwithin
    exact withinLimit_run hids hmetered (signed_refreshesOwn howned hmetered hrun) hrun hwithin
  · intro env verifies c row hrow hactive
    exact refresh_has_room hrow hactive
  · intro env op db' hmetered hrun l' hl' hstarts
    exact startsCounting_charged hids (signed_refreshesOwn howned hmetered hrun) hrun hl' hstarts

/-! A merchant with one slot publishes, and refreshes what it has published. -/

def exampleVerifies : Binding.RuntimeBinding → Bool := fun _ => true

def exampleMerchant : Database where
  listings := []
  agents := [⟨"cagt_1", "mkt_1", .active⟩]
  accounts := [⟨"mkt_1", true, true⟩]
  plans := [⟨"free", 1⟩]
  entitlements := [⟨"mkt_1", "free", true, none⟩]
  bindings := [⟨"bind_1", "cagt_1", "mkt_1", "https://runtime.example", "https://runtime.example/a2a",
    "key_1", "thumb_1", 1, 1, .active⟩]
  enrollments := [⟨"cagt_1", "mkt_1", "bind_1", .published, 1⟩]

def exampleFull : Database :=
  exampleMerchant.setListings [newListing exampleEnv exampleCanonical]

theorem exampleFull_reachable : Reachable Init SignedStep exampleFull := by
  refine ⟨exampleMerchant, rfl, ?_⟩
  have hpublish : SignedStep exampleMerchant exampleFull :=
    .performs exampleEnv (.publish (.runtime exampleVerifies) exampleCanonical) rfl rfl
  exact Relation.ReflTransGen.refl.tail hpublish

theorem listing_capacity_refresh :
    v1PublishListing exampleEnv (.runtime exampleVerifies) exampleCanonical exampleFull ≠
      .error (.permissionDenied capacityExceeded) :=
  (listing_capacity exampleFull_reachable).2.1 exampleEnv exampleVerifies exampleCanonical
    (newListing exampleEnv exampleCanonical) rfl rfl

/-! An owner's token publishes for a merchant without an account, and no limit is consulted. -/

def exampleOwner : Tokens := ⟨false, fun merchantId => merchantId = "mkt_1"⟩

def exampleLegacy : Database :=
  { exampleMerchant with accounts := [] }

def exampleSecond : Canonical := { exampleCanonical with sourceProductRef := some "SKU-2" }

def exampleSecondEnv : Env := { exampleEnv with newListingId := "lst_2" }

def exampleLegacyFull : Database :=
  exampleLegacy.setListings [newListing exampleEnv exampleCanonical]

def exampleLegacyOver : Database :=
  exampleLegacy.setListings
    [newListing exampleEnv exampleCanonical, newListing exampleSecondEnv exampleSecond]

theorem owner_token_unmetered :
    ¬ ∀ db, Reachable Init (Step fun _ => True) db →
      ∀ env tokens c db', tokens.isAdmin = false →
        v1PublishListing env (.token tokens) c db = .ok db' →
          ∀ merchantId, db.WithinLimit merchantId → db'.WithinLimit merchantId := by
  intro h
  have hpublish : Step (fun _ => True) exampleLegacy exampleLegacyFull :=
    .performs exampleEnv (.publish (.token exampleOwner) exampleCanonical) trivial rfl
  have hreach : Reachable Init (Step fun _ => True) exampleLegacyFull :=
    ⟨exampleLegacy, rfl, Relation.ReflTransGen.refl.tail hpublish⟩
  have hwithin : exampleLegacyFull.WithinLimit "mkt_1" := by
    intro limit hlimit
    rw [← Option.some.inj hlimit]
    decide
  have hover := h exampleLegacyFull hreach exampleSecondEnv exampleOwner exampleSecond
    exampleLegacyOver rfl rfl "mkt_1" hwithin 1 rfl
  revert hover
  decide

end KiwiCatalog.Listings
