import KiwiCatalog.Catalog.Serializers

/-!
# Hosted projection — the catalog entry of a runtime agent

The governance test asks the public detail for the administrative state, which the detail does not
have: an agent that is in the catalog is taken for a governed one, whatever its state.
-/

set_option autoImplicit false

namespace KiwiCatalog.Catalog

open Checks
open Discovery (Fields CapabilityRow)
open Trust (AdministrativeState)
open Url (Text strip)

/-! ## 1. The tables -/

/-- The shadow row of a merchant. -/
structure MerchantRow where
  name : Text
  city : Text
  serviceArea : Text
  tagsJson : Text

structure CatalogAuditEvent where
  conversationId : String
  actor : String
  event : String
  details : Fields
  createdAt : String

structure CatalogState where
  agents : AgentTable
  capabilities : List StoredCapability
  -- the endpoints of an agent, in the order that `list_endpoints` has
  endpoints : String → List EndpointRow
  merchants : String → Option MerchantRow
  audit : List CatalogAuditEvent

def columnJson : Value → Json
  | .null => .null
  | .bool b => .bool b
  | .int i => .int i
  | .text s => .text s.toList
  | .other str => .text str.toList

/-- A column of the merchant that is joined to the row; null where there is none. -/
def joined (merchant : Option MerchantRow) (column : MerchantRow → Text) : Json :=
  match merchant with
  | some row => .text (column row)
  | none => .null

def merchantOf (s : CatalogState) (row : AgentRow) : Option MerchantRow :=
  match row.columns "merchant_id" with
  | .text merchantId => s.merchants merchantId
  | _ => none

/-- The row of `get_catalog_agent_with_merchant`. -/
def agentWithMerchant (catalogAgentId : Text) (row : AgentRow) (merchant : Option MerchantRow) :
    Fields :=
  ("catalog_agent_id", .text catalogAgentId) ::
    ((otherColumns ++ ["first_seen_at", "created_at", "updated_at"]).map fun column =>
      (column, columnJson (row.columns column))) ++
    [("verification_status", .text row.verificationStatus.text.toList),
      ("verification_level", .text row.domains.level.text.toList),
      ("freshness_state", .text row.domains.freshness.text.toList),
      ("administrative_state", .text (administrativeText row.domains.administrative).toList),
      ("merchant_name", joined merchant MerchantRow.name),
      ("merchant_city", joined merchant MerchantRow.city),
      ("merchant_service_area", joined merchant MerchantRow.serviceArea),
      ("merchant_tags_json", joined merchant MerchantRow.tagsJson)]

/-- `order by namespace, capability_id`. -/
def pairLe (a b : Text × Text) : Bool := decide (a.1 < b.1) || a.1 == b.1 && !decide (b.2 < a.2)

def listCapabilities (catalogAgentId : String) (s : CatalogState) : List CapabilityRow :=
  ((s.capabilities.filter fun stored => stored.catalogAgentId == catalogAgentId).map
    StoredCapability.row).mergeSort fun a b => pairLe (pairOf a) (pairOf b)

def getCatalogAgent (decodeJson : Text → List Json) (catalogAgentId : Text) (s : CatalogState) :
    Except WriteError Fields :=
  let key := String.ofList (strip catalogAgentId)
  match s.agents key with
  | none => .error (.notFound ("Unknown catalog agent: " ++ String.ofList catalogAgentId))
  | some row =>
    let columns := agentWithMerchant (strip catalogAgentId) row (merchantOf s row)
    let merchant : Fields :=
      [("id", Json.get "merchant_id" columns), ("name", Json.get "merchant_name" columns),
        ("city", Json.get "merchant_city" columns),
        ("service_area", Json.get "merchant_service_area" columns),
        ("tags_json", Json.get "merchant_tags_json" columns)]
    .ok (catalogAgentDetail decodeJson columns merchant (listCapabilities key s) (s.endpoints key)
      [])

/-! ## 2. The projection -/

def publicationCapabilityMap : List (Text × Text × Text) :=
  ["catalog", "inventory", "delivery", "consultation"].map fun name =>
    (name.toList, "com.harrylabsj.shopping.capability".toList, name.toList)

def projectedRow (pair : Text × Text) : CapabilityRow :=
  ⟨pair.1, pair.2, [], 1, "hosted_runtime_projection".toList, [], []⟩

/-- The loop of `_project_capabilities`, with the names it has seen. -/
def projectFrom (seen : List Text) : List Text → List CapabilityRow
  | [] => []
  | value :: rest =>
    let name := strip value
    if name.isEmpty || seen.contains name then projectFrom seen rest
    else
      -- a name that is not on the list is dropped
      (List.lookup name publicationCapabilityMap).elim (projectFrom seen rest) fun pair =>
        projectedRow pair :: projectFrom (name :: seen) rest

def projectCapabilities (runtimeCapabilities : List Text) : List CapabilityRow :=
  projectFrom [] runtimeCapabilities

def validateHostingInvariant (sourceType verificationStatus : String)
    (hostedRuntimeAgentId : Text) :
    Except WriteError Unit :=
  if verificationStatus ≠ "commerce_verified" then .ok ()
  else if sourceType = "hosted" ∧ strip hostedRuntimeAgentId = [] then
    .error (.validation ("§5.1: hosted catalog agent with verification_status=commerce_verified " ++
      "MUST have a non-empty hosted_runtime_agent_id"))
  else if sourceType ≠ "hosted" ∧ strip hostedRuntimeAgentId ≠ [] then
    .error (.validation
      ("§5.1: non-hosted catalog agent with verification_status=commerce_verified " ++
        "MUST have an empty hosted_runtime_agent_id"))
  else .ok ()

def appendCatalogAudit (now catalogAgentId actor event : String) (details : Fields)
    (audit : List CatalogAuditEvent) : List CatalogAuditEvent :=
  let payload := putDefault "catalog_agent_id" (.text catalogAgentId.toList)
    (putDefault "event_type" (.text event.toList) (putDefault "schema_version" (.int 1) details))
  audit ++ [⟨"", actor, event, payload, now⟩]

/-- `get_catalog_agent`, where an unknown agent is `None`. -/
def governedDetail (decodeJson : Text → List Json) (catalogAgentId : Text) (s : CatalogState) :
    Except WriteError (Option Fields) :=
  match getCatalogAgent decodeJson catalogAgentId s with
  | .ok detail => .ok (some detail)
  | .error (.notFound _) => .ok none
  | .error e => .error e

/-- `str(governed.get("administrative_state") or "") != "active"`: no other value has that text. -/
def isGoverned (governed : Fields) : Bool :=
  !(Json.get "administrative_state" governed).ownText.contains "active".toList

structure HostedArgs where
  agentId : Text
  merchantId : Text
  merchantName : Text
  runtimeCapabilities : List Text

/-- The arguments of the upsert. -/
def HostedArgs.agentArgs (args : HostedArgs) : AgentArgs where
  merchantId := String.ofList (strip args.merchantId)
  hostedRuntimeAgentId := String.ofList (strip args.agentId)
  displayName :=
    String.ofList (if args.merchantName = [] then strip args.merchantId else args.merchantName)
  sourceType := "hosted"
  hostingMode := "hosted"
  verificationStatus := "commerce_verified"
  lifecycleStatus := "active"

/-- What is written: the row, the capabilities and the audit event. -/
def writeProjection (db : Database) (now : String) (args : HostedArgs) (catalogAgentId : String)
    (s : CatalogState) : Except WriteError CatalogState := do
  let agentId := strip args.agentId
  let merchantId := strip args.merchantId
  let agents ← upsertCatalogAgent db now catalogAgentId args.agentArgs s.agents
  validateHostingInvariant "hosted" "commerce_verified" agentId
  let projected := projectCapabilities args.runtimeCapabilities
  let capabilities ← require (replaceCapabilities now catalogAgentId projected s.capabilities)
    (.integrity "UNIQUE constraint failed: agent_capabilities")
  pure { s with
    agents := agents
    capabilities := capabilities
    audit := appendCatalogAudit now catalogAgentId "system" "catalog_agent_registered"
      [("agent_id", .text agentId), ("merchant_id", .text merchantId),
        ("source_type", .text "hosted".toList), ("hosting_mode", .text "hosted".toList),
        ("capability_count", .int projected.length)] s.audit }

def ensureHostedCatalogAgent (db : Database) (decodeJson : Text → List Json) (now : String)
    (args : HostedArgs) (s : CatalogState) : Except WriteError (Fields × CatalogState) := do
  check (strip args.agentId ≠ [])
    (.validation "agent_id is required for hosted catalog projection")
  check (strip args.merchantId ≠ [])
    (.validation "merchant_id is required for hosted catalog projection")
  let catalogAgentId := "cagt_".toList ++ strip args.agentId
  let governed ← governedDetail decodeJson catalogAgentId s
  if governed.any isGoverned then do
    let detail ← getCatalogAgent decodeJson catalogAgentId s
    pure (detail, s)
  else do
    let written ← writeProjection db now args (String.ofList catalogAgentId) s
    let detail ← getCatalogAgent decodeJson catalogAgentId written
    pure (detail, written)

/-- The tables behind a call; one that raises has written nothing. -/
def afterEnsure (db : Database) (decodeJson : Text → List Json) (now : String) (args : HostedArgs)
    (s : CatalogState) : CatalogState :=
  match ensureHostedCatalogAgent db decodeJson now args s with
  | .ok result => result.2
  | .error _ => s

/-! ## 3. What it is to do -/

/-- The key of the entry. -/
def HostedArgs.catalogAgentId (args : HostedArgs) : String :=
  String.ofList ("cagt_".toList ++ strip args.agentId)

/-- The capabilities are the image of the runtime's, and the agent is verified and just seen. -/
structure Refreshed (now : String) (args : HostedArgs) (s : CatalogState) : Prop where
  capabilities : ∀ row, (∃ stored ∈ s.capabilities, stored.catalogAgentId = args.catalogAgentId ∧
    stored.row = row) ↔ row ∈ projectCapabilities args.runtimeCapabilities
  agent : ∃ row, s.agents args.catalogAgentId = some row ∧
    row.verificationStatus = .level .commerceVerified ∧ row.columns "last_seen_at" = .text now

structure Projects (db : Database) (decodeJson : Text → List Json) (now : String)
    (args : HostedArgs) (s : CatalogState) : Prop where
  published : (∀ row, s.agents args.catalogAgentId = some row →
    row.domains.administrative = .active) → Refreshed now args (afterEnsure db decodeJson now args s)
  governed : ∀ row, s.agents args.catalogAgentId = some row →
    row.domains.administrative ≠ .active → afterEnsure db decodeJson now args s = s
  twice : ∀ later,
    (afterEnsure db decodeJson later args (afterEnsure db decodeJson now args s)).agents
        args.catalogAgentId = (afterEnsure db decodeJson now args s).agents args.catalogAgentId ∧
      (afterEnsure db decodeJson later args (afterEnsure db decodeJson now args s)).capabilities =
        (afterEnsure db decodeJson now args s).capabilities

/-- An absent agent can be inserted, and an active one needs no refreshing. -/
structure Projectable (db : Database) (now : String) (args : HostedArgs) (s : CatalogState) :
    Prop where
  insertable : s.agents args.catalogAgentId = none →
    strip args.agentId ≠ [] ∧ strip args.merchantId ≠ [] ∧
      db.accepts s.agents args.catalogAgentId (args.agentArgs.columns now) = true
  current : ∀ row, s.agents args.catalogAgentId = some row →
    row.domains.administrative = .active → Refreshed now args s

/-! ## 4. The allow-list -/

theorem lookup_publicationCapabilityMap {name : Text} {pair : Text × Text}
    (h : List.lookup name publicationCapabilityMap = some pair) : pair.2 = name := by
  have hall : ∀ names : List String, List.lookup name (names.map fun known =>
      (known.toList, "com.harrylabsj.shopping.capability".toList, known.toList)) = some pair →
        pair.2 = name := by
    intro names hlookup
    induction names with
    | nil => cases hlookup
    | cons known names ih =>
      rw [List.map_cons, List.lookup_cons] at hlookup
      cases hknown : name == known.toList with
      | true =>
        rw [hknown] at hlookup
        rw [← Option.some.inj hlookup]
        exact (beq_iff_eq.mp hknown).symm
      | false =>
        rw [hknown] at hlookup
        exact ih hlookup
  exact hall _ h

/-- No name is published twice. -/
theorem projectFrom_nodup (seen names : List Text) :
    ((projectFrom seen names).map pairOf).Nodup ∧
      ∀ pair ∈ (projectFrom seen names).map pairOf, pair.2 ∉ seen := by
  induction names generalizing seen with
  | nil => exact ⟨List.nodup_nil, fun _ h => nomatch h⟩
  | cons value rest ih =>
    rw [projectFrom]
    split
    · exact ih seen
    · rename_i hnew
      rw [Bool.or_eq_true, not_or, List.contains_iff_mem] at hnew
      cases hlookup : List.lookup (strip value) publicationCapabilityMap with
      | none => exact ih seen
      | some pair =>
        rw [Option.elim_some]
        have hname := lookup_publicationCapabilityMap hlookup
        obtain ⟨hnodup, hunseen⟩ := ih (strip value :: seen)
        have hpair : pairOf (projectedRow pair) = pair := rfl
        rw [List.map_cons, hpair]
        constructor
        · refine List.nodup_cons.mpr ⟨fun hmem => ?_, hnodup⟩
          apply hunseen pair hmem
          rw [hname]
          exact List.mem_cons_self
        · intro other hother
          cases List.mem_cons.mp hother with
          | inl heq =>
            rw [heq, hname]
            exact hnew.2
          | inr hmem => exact fun hin => hunseen other hmem (List.mem_cons_of_mem _ hin)

/-- The capabilities of the agent after a replacement. -/
theorem replaceCapabilities_projected (now catalogAgentId : String) (names : List Text)
    (table : List StoredCapability) :
    ∃ after, replaceCapabilities now catalogAgentId (projectCapabilities names) table = some after ∧
      ∀ row, (∃ stored ∈ after, stored.catalogAgentId = catalogAgentId ∧ stored.row = row) ↔
        row ∈ projectCapabilities names := by
  refine ⟨_, replaceCapabilities_eq_some.mpr ⟨(projectFrom_nodup [] names).1, rfl⟩, fun row => ?_⟩
  constructor
  · rintro ⟨stored, hstored, howner, rfl⟩
    cases List.mem_append.mp hstored with
    | inl hold =>
      -- the agent's old rows are gone
      have hother := (Table.mem_deleteWhere.mp hold).2
      rw [howner, beq_self_eq_true] at hother
      cases hother
    | inr hnew =>
      obtain ⟨row, hrow, rfl⟩ := List.mem_map.mp hnew
      exact hrow
  · intro hrow
    exact ⟨_, List.mem_append_right _ (List.mem_map_of_mem hrow), rfl, rfl⟩

/-! ## 5. One call -/

variable {db : Database} {decodeJson : Text → List Json} {now : String} {args : HostedArgs}
  {s : CatalogState}

theorem strip_catalogAgentId (h : strip args.agentId ≠ []) :
    strip ("cagt_".toList ++ strip args.agentId) = "cagt_".toList ++ strip args.agentId := by
  apply Url.strip_append_strip
  · intro c hc
    cases hc
    rfl
  · decide
  · exact h

theorem getCatalogAgent_none (hid : strip args.agentId ≠ [])
    (h : s.agents args.catalogAgentId = none) :
    governedDetail decodeJson ("cagt_".toList ++ strip args.agentId) s = .ok none := by
  unfold governedDetail getCatalogAgent
  rw [strip_catalogAgentId hid]
  dsimp only
  rw [show s.agents (String.ofList ("cagt_".toList ++ strip args.agentId)) = none from h]

theorem getCatalogAgent_some {row : AgentRow} (hid : strip args.agentId ≠ [])
    (h : s.agents args.catalogAgentId = some row) :
    ∃ detail, getCatalogAgent decodeJson ("cagt_".toList ++ strip args.agentId) s = .ok detail ∧
      Json.get "administrative_state" detail = .null := by
  unfold getCatalogAgent
  rw [strip_catalogAgentId hid]
  dsimp only
  rw [show s.agents (String.ofList ("cagt_".toList ++ strip args.agentId)) = some row from h]
  refine ⟨_, rfl, ?_⟩
  unfold Json.get catalogAgentDetail
  rw [Json.field_eq_none fun hmem =>
    absurd (keys_catalogSearchResult _ _ _ _ _ _ _ hmem) (by decide)]
  rfl

/-- An agent that is there is left as it is. -/
theorem afterEnsure_present {row : AgentRow} (h : s.agents args.catalogAgentId = some row) :
    afterEnsure db decodeJson now args s = s := by
  unfold afterEnsure
  split
  · rename_i result hresult
    unfold ensureHostedCatalogAgent at hresult
    obtain ⟨hid, hrest⟩ := check_bind hresult
    obtain ⟨-, hrest⟩ := check_bind hrest
    have hid : strip args.agentId ≠ [] := of_decide_eq_true hid
    obtain ⟨detail, hdetail, hstate⟩ := @getCatalogAgent_some decodeJson args s row hid h
    have hgoverned : governedDetail decodeJson ("cagt_".toList ++ strip args.agentId) s =
        .ok (some detail) := by
      unfold governedDetail
      rw [hdetail]
    obtain ⟨governed, hread, hrest⟩ := bind_eq_ok hrest
    cases hgoverned.symm.trans hread
    have htest : (some detail).any isGoverned = true := by
      show isGoverned detail = true
      unfold isGoverned
      rw [hstate]
      rfl
    rw [if_pos htest] at hrest
    obtain ⟨_, -, hresult⟩ := bind_eq_ok hrest
    cases hresult
    rfl
  · rfl

/-- What the insert of an absent agent leaves, where it is not refused. -/
theorem upsert_absent (habsent : s.agents args.catalogAgentId = none) :
    upsertCatalogAgent db now args.catalogAgentId args.agentArgs s.agents =
      storeRow db args.catalogAgentId
        ⟨.level .commerceVerified, ⟨.commerceVerified, .fresh, .active⟩,
          args.agentArgs.columns now⟩ s.agents := by
  unfold upsertCatalogAgent
  rw [habsent]
  show insertCatalogAgent db now args.catalogAgentId args.agentArgs s.agents = _
  unfold insertCatalogAgent
  rw [habsent]
  rfl

/-- An absent agent is published where it can be inserted. -/
theorem afterEnsure_absent (habsent : s.agents args.catalogAgentId = none)
    (hid : strip args.agentId ≠ []) (hmerchant : strip args.merchantId ≠ [])
    (haccepts : db.accepts s.agents args.catalogAgentId (args.agentArgs.columns now) = true) :
    Refreshed now args (afterEnsure db decodeJson now args s) := by
  have hstored : upsertCatalogAgent db now args.catalogAgentId args.agentArgs s.agents =
      .ok (Function.update s.agents args.catalogAgentId (some
        ⟨.level .commerceVerified, ⟨.commerceVerified, .fresh, .active⟩,
          args.agentArgs.columns now⟩)) := by
    rw [upsert_absent habsent, storeRow, if_pos haccepts]
  have hvalid : validateHostingInvariant "hosted" "commerce_verified" (strip args.agentId) =
      .ok () := by
    unfold validateHostingInvariant
    rw [if_neg (fun h => h rfl), if_neg (by rw [Url.strip_strip]; exact fun h => hid h.2),
      if_neg (fun h => h.1 rfl)]
  obtain ⟨capabilities, hreplaced, hrows⟩ := replaceCapabilities_projected now args.catalogAgentId
    args.runtimeCapabilities s.capabilities
  have hwritten : ∃ written, writeProjection db now args args.catalogAgentId s = .ok written ∧
      Refreshed now args written := by
    refine ⟨_, bind_ok_iff.mpr ⟨_, hstored, bind_ok_iff.mpr ⟨(), hvalid, bind_ok_iff.mpr
      ⟨capabilities, ?_, rfl⟩⟩⟩, hrows, ?_⟩
    · rw [hreplaced]
      rfl
    · exact ⟨_, Function.update_self _ _ _, rfl, rfl⟩
  obtain ⟨written, hwrite, hrefreshed⟩ := hwritten
  obtain ⟨row, hrow, -⟩ := hrefreshed.agent
  obtain ⟨detail, hdetail, -⟩ := @getCatalogAgent_some decodeJson args written row hid hrow
  have hcall : ensureHostedCatalogAgent db decodeJson now args s = .ok (detail, written) := by
    refine bind_ok_iff.mpr ⟨(), check_ok_iff.mpr (decide_eq_true hid), bind_ok_iff.mpr
      ⟨(), check_ok_iff.mpr (decide_eq_true hmerchant), bind_ok_iff.mpr
        ⟨none, getCatalogAgent_none hid habsent, bind_ok_iff.mpr ⟨written, hwrite, ?_⟩⟩⟩⟩
    exact bind_ok_iff.mpr ⟨detail, hdetail, rfl⟩
  unfold afterEnsure
  rw [hcall]
  exact hrefreshed

/-- And only there. -/
theorem refreshed_absent (habsent : s.agents args.catalogAgentId = none)
    (h : Refreshed now args (afterEnsure db decodeJson now args s)) :
    strip args.agentId ≠ [] ∧ strip args.merchantId ≠ [] ∧
      db.accepts s.agents args.catalogAgentId (args.agentArgs.columns now) = true := by
  obtain ⟨row, hrow, -⟩ := h.agent
  unfold afterEnsure at hrow
  split at hrow
  · rename_i result hresult
    unfold ensureHostedCatalogAgent at hresult
    obtain ⟨hid, hrest⟩ := check_bind hresult
    obtain ⟨hmerchant, hrest⟩ := check_bind hrest
    have hid : strip args.agentId ≠ [] := of_decide_eq_true hid
    obtain ⟨governed, hread, hrest⟩ := bind_eq_ok hrest
    cases (getCatalogAgent_none hid habsent).symm.trans hread
    rw [if_neg (by decide)] at hrest
    obtain ⟨written, hwrite, -⟩ := bind_eq_ok hrest
    unfold writeProjection at hwrite
    obtain ⟨agents, hagents, -⟩ := bind_eq_ok hwrite
    refine ⟨hid, of_decide_eq_true hmerchant, ?_⟩
    have hstore := (upsert_absent habsent).symm.trans hagents
    unfold storeRow at hstore
    split at hstore
    · rename_i haccepts
      exact haccepts
    · cases hstore
  · rw [habsent] at hrow
    cases hrow

/-- The call does what it is to do exactly where an absent agent can be inserted and an active one
is as it is to be already. -/
theorem projects_iff (db : Database) (decodeJson : Text → List Json) (now : String)
    (args : HostedArgs) (s : CatalogState) :
    Projects db decodeJson now args s ↔ Projectable db now args s := by
  constructor
  · intro h
    constructor
    · intro habsent
      refine @refreshed_absent db decodeJson now args s habsent (h.published fun row hrow => ?_)
      rw [habsent] at hrow
      cases hrow
    · intro row hrow hactive
      have hrefreshed := h.published fun other hother => by
        cases hrow.symm.trans hother
        exact hactive
      rw [afterEnsure_present hrow] at hrefreshed
      exact hrefreshed
  · intro h
    cases hagent : s.agents args.catalogAgentId with
    | some row =>
      have hsame : ∀ later, afterEnsure db decodeJson later args s = s :=
        fun later => afterEnsure_present hagent
      refine ⟨fun hactive => ?_, fun _ _ _ => hsame now, fun later => ?_⟩
      · rw [hsame]
        exact h.current row hagent (hactive row hagent)
      · rw [hsame, hsame]
        exact ⟨rfl, rfl⟩
    | none =>
      obtain ⟨hid, hmerchant, haccepts⟩ := h.insertable hagent
      have hrefreshed := @afterEnsure_absent db decodeJson now args s hagent hid hmerchant haccepts
      refine ⟨fun _ => hrefreshed, fun row hrow => ?_, fun later => ?_⟩
      · rw [hagent] at hrow
        cases hrow
      · obtain ⟨row, hrow, -⟩ := hrefreshed.agent
        rw [afterEnsure_present hrow]
        exact ⟨rfl, rfl⟩

def shopRuntime : HostedArgs where
  agentId := "shop".toList
  merchantId := "m1".toList
  merchantName := "Shop".toList
  runtimeCapabilities := ["catalog".toList, "inventory".toList]

/-- The shop's agent is in the catalog and in good standing, with no capability yet. -/
def discoveredShop : CatalogState where
  agents := fun key =>
    if key = "cagt_shop" then
      some ⟨.level .discovered, ⟨.discovered, .fresh, .active⟩, fun _ => .text ""⟩
    else none
  capabilities := []
  endpoints := fun _ => []
  merchants := fun _ => none
  audit := []

theorem discovered_shop_not_published :
    ¬ Projects ⟨fun _ _ _ => true, fun _ => "[]"⟩ (fun _ => []) "2026-02-01T00:00:00+00:00"
      shopRuntime discoveredShop := by
  have hkey : shopRuntime.catalogAgentId = "cagt_shop" := by decide
  have hrow : discoveredShop.agents shopRuntime.catalogAgentId =
      some ⟨.level .discovered, ⟨.discovered, .fresh, .active⟩, fun _ => .text ""⟩ := by
    rw [hkey]
    rfl
  intro h
  have hrefreshed := h.published fun row hsame => by
    cases hrow.symm.trans hsame
    rfl
  rw [afterEnsure_present hrow] at hrefreshed
  obtain ⟨row, hsame, hstatus, -⟩ := hrefreshed.agent
  cases hrow.symm.trans hsame
  cases hstatus

end KiwiCatalog.Catalog
