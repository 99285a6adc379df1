import KiwiCatalog.Discovery.ProfileIndex
import Mathlib.Data.List.Dedup

/-!
# Commerce evidence — the governance of negotiation claims

A service claims the negotiation protocol by an endpoint or by the name of a capability.  What it
has to show for it is collected over all its specifications of that kind.
-/

set_option autoImplicit false

namespace KiwiCatalog.Discovery

open AgentCard (AgentCardResult)
open Ucp (UcpProfileResult strOr)
open Checks (check)
open Url (Text strip)

/-! ## 1. Claims -/

structure CommercePolicy extends TrustPolicy where
  allowedKnpVersions : List Text

def knpProtocols : List Text :=
  ["knp", "kiwi-negotiation", "kiwi_negotiation"].map String.toList

def isIdentifierSeparator (c : Char) : Bool := c = ':' || c = '.' || c = '/' || c = '_' || c = '-'

/-- The words between separators; a run of them leaves empty words, which none is compared with. -/
def identifierTokens (lib : Library) (identifier : Text) : List Text :=
  (lib.tables.lower identifier).splitOnP isIdentifierSeparator

/-- `_capability_declares_kiwi_negotiation`. -/
def declaresKiwiNegotiation (lib : Library) (capability : Text) : Bool :=
  let tokens := identifierTokens lib capability
  tokens.contains "knp".toList ||
    tokens.contains "kiwi".toList && tokens.contains "negotiation".toList

/-- `str(fields.get(key) or "").strip()` is not empty. -/
def isGiven (lib : Library) (key : String) (fields : Fields) : Bool :=
  strip (strOr lib (Json.get key fields) []) ≠ []

/-- `str(fields.get(key, "")).strip()`. -/
def strippedColumn (lib : Library) (key : String) (fields : Fields) : Text :=
  strip (textColumn lib key fields)

def objectsAt (key : String) (fields : Fields) : List Fields :=
  objectsOf (itemsOf (Json.get key fields))

def knpEndpoints (lib : Library) (service : Fields) : List Fields :=
  (objectsAt "endpoints" service).filter fun ep =>
    knpProtocols.contains (lib.tables.lower (textColumn lib "protocol" ep))

def kiwiCapabilities (lib : Library) (service : Fields) : List Text :=
  (textsOf (itemsOf (Json.get "capabilities" service))).filter (declaresKiwiNegotiation lib)

/-- The id of a specification. -/
def specificationId (lib : Library) (sp : Fields) : Text := strOr lib (Json.get "id" sp) []

/-- The specifications whose id is that of a negotiation capability. -/
def knpSpecifications (lib : Library) (service : Fields) : List Fields :=
  (objectsAt "specifications" service).filter fun sp =>
    declaresKiwiNegotiation lib (specificationId lib sp)

def declaredVersions (lib : Library) (service : Fields) : List Text :=
  (((knpEndpoints lib service ++ knpSpecifications lib service).map
    (strippedColumn lib "version")).filter fun version => version ≠ []).dedup

structure KnpClaim where
  version : Text
  hasSpec : Bool
  hasSchema : Bool
  source : String
  deriving DecidableEq

def claimSource (lib : Library) (service : Fields) : String :=
  "+".intercalate
    ((if (knpEndpoints lib service).isEmpty then [] else ["endpoint_protocol"]) ++
      (if (kiwiCapabilities lib service).isEmpty then [] else ["capability_namespace"]))

def claimsKnp (lib : Library) (service : Fields) : Bool :=
  !(knpEndpoints lib service).isEmpty || !(kiwiCapabilities lib service).isEmpty

/-- The claims of a service, one for each version; the order of Python's set is not fixed. -/
def serviceClaims (lib : Library) (hasTopSchema : Bool) (service : Fields) : List KnpClaim :=
  if claimsKnp lib service then
    let specs := knpSpecifications lib service
    let versions := declaredVersions lib service
    (if versions.isEmpty then [[]] else versions).map fun version =>
      { version := version
        hasSpec := specs.any (isGiven lib "specUrl")
        hasSchema := hasTopSchema || isGiven lib "documentationUri" service ||
          specs.any (isGiven lib "schemaUrl")
        source := claimSource lib service }
  else []

def hasTopSchema (lib : Library) (pub : Fields) : Bool :=
  (objectsAt "specifications" pub).any (isGiven lib "openAPIDocument")

/-- `_knp_claims`. -/
def knpClaims (lib : Library) (ucp : UcpProfileResult) : List KnpClaim :=
  (objectsAt "services" ucp.pub).flatMap (serviceClaims lib (hasTopSchema lib ucp.pub))

/-! ## 2. The evidence -/

structure VerificationEvidence where
  verificationType : String
  result : String
  reason : String
  details : Fields
  expiresInSeconds : Nat

def failedEvidence (verificationType reason : String) (details : Fields) : VerificationEvidence :=
  ⟨verificationType, "failed", reason, details, 86400⟩

/-- `sorted(texts)`. -/
def sortedTexts (texts : List Text) : List Text := texts.mergeSort fun a b => !decide (b < a)

/-- The `repr` of a list of texts. -/
def reprTexts (lib : Library) (texts : List Text) : String :=
  "[" ++ ", ".intercalate (texts.map lib.repr) ++ "]"

def checkClaim (lib : Library) (allowed : List Text) (details : Fields) (claim : KnpClaim) :
    Except VerificationEvidence Unit := do
  let details := details ++ [("knp_claim_source", .text claim.source.toList)]
  check (claim.version ≠ [])
    (failedEvidence "commerce_capability" "KNP claim is missing a declared version" details)
  check (allowed ≠ [])
    (failedEvidence "commerce_capability"
      "KNP is claimed but the TrustPolicy allows no KNP versions" details)
  check (allowed.contains claim.version)
    (failedEvidence "commerce_capability"
      ("claimed KNP version " ++ String.ofList claim.version ++ " is not allowed (allowed: " ++
        reprTexts lib (sortedTexts allowed.dedup) ++ ")") details)
  check (claim.hasSpec && claim.hasSchema)
    (failedEvidence "commerce_capability"
      "KNP claim is missing a specification/schema reference" details)

def checkClaims (lib : Library) (allowed : List Text) (details : Fields) :
    List KnpClaim → Except VerificationEvidence Unit
  | [] => .ok ()
  | claim :: rest => do
    checkClaim lib allowed details claim
    checkClaims lib allowed details rest

/-- The checks of `evaluate_commerce_capabilities`, with the details that they add up. -/
def commerceDetails (lib : Library) (policy : CommercePolicy) (card : AgentCardResult)
    (ucp : UcpProfileResult) (canonicalDomain : Text) : Except VerificationEvidence Fields := do
  let details : Fields :=
    [("method", .text "commerce_capability_intersection".toList),
      ("canonical_domain", .text canonicalDomain), ("a2a_version", .text card.version),
      ("ucp_version", .text ucp.specificationVersion)]
  check (policy.allowedA2aVersions.contains card.version)
    (failedEvidence "commerce_capability"
      ("A2A version " ++ lib.repr card.version ++ " is not allowed by TrustPolicy") details)
  check (policy.allowedUcpVersions.contains ucp.specificationVersion)
    (failedEvidence "commerce_capability"
      ("UCP version " ++ lib.repr ucp.specificationVersion ++ " is not allowed by TrustPolicy")
      details)
  let capabilities := card.capabilities ++ ucp.capabilities
  let commerce := capabilities.filter fun c =>
    c.namespace_ ≠ "a2a".toList && c.namespace_ ≠ "ucp".toList
  check (!commerce.isEmpty)
    (failedEvidence "commerce_capability" "no commerce capabilities declared in profiles" details)
  check (!capabilities.any fun c => c.namespace_ = [])
    (failedEvidence "commerce_capability" "capability without a namespace" details)
  let details := details ++ [("capability_count", .int capabilities.length),
    ("commerce_capability_count", .int commerce.length)]
  let claims := knpClaims lib ucp
  checkClaims lib policy.allowedKnpVersions details claims
  pure (if claims.isEmpty then details
    else details ++ [("knp_versions",
      .array ((sortedTexts (claims.map KnpClaim.version).dedup).map Json.text))])

def evaluateCommerceCapabilities (lib : Library) (policy : CommercePolicy) (card : AgentCardResult)
    (ucp : UcpProfileResult) (canonicalDomain : Text) : VerificationEvidence :=
  match commerceDetails lib policy card ucp canonicalDomain with
  | .ok details => ⟨"commerce_capability", "passed", "", details, 86400⟩
  | .error evidence => evidence

/-! ## 3. What passes -/

/-- What the code asks of a service that claims negotiation. -/
structure ServiceGoverned (lib : Library) (policy : CommercePolicy) (pub service : Fields) :
    Prop where
  versioned : declaredVersions lib service ≠ []
  -- whichever capability or endpoint declares it
  allowed : ∀ version ∈ declaredVersions lib service, version ∈ policy.allowedKnpVersions
  specified : ∃ sp ∈ knpSpecifications lib service, isGiven lib "specUrl" sp = true
  described : hasTopSchema lib pub = true ∨ isGiven lib "documentationUri" service = true ∨
    ∃ sp ∈ knpSpecifications lib service, isGiven lib "schemaUrl" sp = true

/-- What follows for one capability: no version of its own is refused, and where no other
negotiation capability of the service is specified, the references are its own. -/
structure CapabilityGoverned (lib : Library) (policy : CommercePolicy) (pub service : Fields)
    (capability : Text) : Prop where
  allowed : ∀ sp ∈ objectsAt "specifications" service, specificationId lib sp = capability →
    strippedColumn lib "version" sp ≠ [] →
      strippedColumn lib "version" sp ∈ policy.allowedKnpVersions
  own : (∀ sp ∈ knpSpecifications lib service, specificationId lib sp = capability) →
    (∃ sp ∈ objectsAt "specifications" service, specificationId lib sp = capability ∧
      isGiven lib "specUrl" sp = true) ∧
    (hasTopSchema lib pub = true ∨ isGiven lib "documentationUri" service = true ∨
      ∃ sp ∈ objectsAt "specifications" service, specificationId lib sp = capability ∧
        isGiven lib "schemaUrl" sp = true) ∧
    ((∃ ep ∈ knpEndpoints lib service, strippedColumn lib "version" ep ≠ []) ∨
      ∃ sp ∈ objectsAt "specifications" service, specificationId lib sp = capability ∧
        strippedColumn lib "version" sp ≠ [])

theorem checkClaims_ok {lib : Library} {allowed : List Text} {details : Fields}
    {claims : List KnpClaim} :
    checkClaims lib allowed details claims = .ok () ↔
      ∀ claim ∈ claims, checkClaim lib allowed details claim = .ok () := by
  induction claims with
  | nil => simp [checkClaims]
  | cons claim rest ih =>
    rw [checkClaims, Checks.bind_ok_iff, List.forall_mem_cons, ← ih]
    constructor
    · rintro ⟨u, hclaim, hrest⟩
      exact ⟨hclaim, hrest⟩
    · exact fun h => ⟨(), h.1, h.2⟩

theorem checkClaim_ok {lib : Library} {allowed : List Text} {details : Fields} {claim : KnpClaim}
    (h : checkClaim lib allowed details claim = .ok ()) :
    claim.version ≠ [] ∧ claim.version ∈ allowed ∧ claim.hasSpec = true ∧
      claim.hasSchema = true := by
  unfold checkClaim at h
  obtain ⟨hversion, h⟩ := Checks.check_bind h
  obtain ⟨-, h⟩ := Checks.check_bind h
  obtain ⟨hallowed, h⟩ := Checks.check_bind h
  have hreferences := Checks.check_eq_ok h
  rw [Bool.and_eq_true] at hreferences
  exact ⟨of_decide_eq_true hversion, List.contains_iff_mem.mp hallowed, hreferences⟩

/-! ### What is raised is failed evidence -/

theorem failed_of_check {α : Type} {condition : Bool} {verificationType reason : String}
    {details : Fields} {rest : Unit → Except VerificationEvidence α}
    (hrest : ∀ e, rest () = .error e → e.result = "failed") (e : VerificationEvidence)
    (h : check condition (failedEvidence verificationType reason details) >>= rest = .error e) :
    e.result = "failed" := by
  rcases Checks.bind_eq_error h with hcheck | ⟨u, -, hlater⟩
  · rw [(Checks.check_eq_error hcheck).2]
    rfl
  · exact hrest e hlater

theorem checkClaim_failed {lib : Library} {allowed : List Text} {details : Fields}
    {claim : KnpClaim} (e : VerificationEvidence)
    (h : checkClaim lib allowed details claim = .error e) : e.result = "failed" := by
  unfold checkClaim at h
  refine failed_of_check (fun e h => ?_) e h
  refine failed_of_check (fun e h => ?_) e h
  refine failed_of_check (fun e h => ?_) e h
  rw [(Checks.check_eq_error h).2]
  rfl

theorem checkClaims_failed {lib : Library} {allowed : List Text} {details : Fields}
    {claims : List KnpClaim} (e : VerificationEvidence)
    (h : checkClaims lib allowed details claims = .error e) : e.result = "failed" := by
  induction claims with
  | nil => cases h
  | cons claim rest ih =>
    rcases Checks.bind_eq_error h with hclaim | ⟨u, -, hrest⟩
    · exact checkClaim_failed e hclaim
    · exact ih hrest

theorem commerceDetails_failed {lib : Library} {policy : CommercePolicy} {card : AgentCardResult}
    {ucp : UcpProfileResult} {canonicalDomain : Text} (e : VerificationEvidence)
    (h : commerceDetails lib policy card ucp canonicalDomain = .error e) :
    e.result = "failed" := by
  unfold commerceDetails at h
  refine failed_of_check (fun e h => ?_) e h
  refine failed_of_check (fun e h => ?_) e h
  refine failed_of_check (fun e h => ?_) e h
  refine failed_of_check (fun e h => ?_) e h
  rcases Checks.bind_eq_error h with hclaims | ⟨u, -, hdetails⟩
  · exact checkClaims_failed e hclaims
  · cases hdetails

/-- Evidence passes only with every claim checked. -/
theorem claims_checked {lib : Library} {policy : CommercePolicy} {card : AgentCardResult}
    {ucp : UcpProfileResult} {canonicalDomain : Text}
    (h : (evaluateCommerceCapabilities lib policy card ucp canonicalDomain).result = "passed") :
    ∃ details, ∀ claim ∈ knpClaims lib ucp,
      checkClaim lib policy.allowedKnpVersions details claim = .ok () := by
  unfold evaluateCommerceCapabilities at h
  split at h
  · rename_i details hdetails
    unfold commerceDetails at hdetails
    obtain ⟨-, hdetails⟩ := Checks.check_bind hdetails
    obtain ⟨-, hdetails⟩ := Checks.check_bind hdetails
    obtain ⟨-, hdetails⟩ := Checks.check_bind hdetails
    obtain ⟨-, hdetails⟩ := Checks.check_bind hdetails
    obtain ⟨u, hclaims, -⟩ := Checks.bind_eq_ok hdetails
    exact ⟨_, checkClaims_ok.mp hclaims⟩
  · rename_i evidence hevidence
    rw [commerceDetails_failed evidence hevidence] at h
    exact absurd h (by decide)

/-! ## 4. Services and capabilities -/

theorem serviceGoverned {lib : Library} {policy : CommercePolicy} {ucp : UcpProfileResult}
    {service details : Fields}
    (h : ∀ claim ∈ knpClaims lib ucp,
      checkClaim lib policy.allowedKnpVersions details claim = .ok ())
    (hservice : service ∈ objectsAt "services" ucp.pub) (hclaims : claimsKnp lib service = true) :
    ServiceGoverned lib policy ucp.pub service := by
  -- each claim of the service is one of the profile
  have hchecked : ∀ version ∈ (if (declaredVersions lib service).isEmpty then [[]]
      else declaredVersions lib service), version ≠ [] ∧ version ∈ policy.allowedKnpVersions ∧
        (knpSpecifications lib service).any (isGiven lib "specUrl") = true ∧
        (hasTopSchema lib ucp.pub || isGiven lib "documentationUri" service ||
          (knpSpecifications lib service).any (isGiven lib "schemaUrl")) = true := by
    intro version hversion
    refine checkClaim_ok (h ⟨version, _, _, claimSource lib service⟩
      (List.mem_flatMap.mpr ⟨service, hservice, ?_⟩))
    rw [serviceClaims, if_pos hclaims]
    exact List.mem_map_of_mem hversion
  have hversioned : declaredVersions lib service ≠ [] := by
    intro hnone
    rw [hnone] at hchecked
    exact (hchecked [] List.mem_cons_self).1 rfl
  have hempty : (declaredVersions lib service).isEmpty = false := by simpa using hversioned
  rw [hempty] at hchecked
  obtain ⟨version, hversion⟩ := List.exists_mem_of_ne_nil _ hversioned
  obtain ⟨-, -, hspec, hschema⟩ := hchecked version hversion
  rw [Bool.or_eq_true, Bool.or_eq_true, List.any_eq_true, or_assoc] at hschema
  exact ⟨hversioned, fun version hversion => (hchecked version hversion).2.1,
    List.any_eq_true.mp hspec, hschema⟩

theorem mem_knpSpecifications {lib : Library} {service sp : Fields} :
    sp ∈ knpSpecifications lib service ↔ sp ∈ objectsAt "specifications" service ∧
      declaresKiwiNegotiation lib (specificationId lib sp) = true :=
  List.mem_filter

theorem mem_declaredVersions {lib : Library} {service : Fields} {version : Text} :
    version ∈ declaredVersions lib service ↔
      (∃ fields, (fields ∈ knpEndpoints lib service ∨ fields ∈ knpSpecifications lib service) ∧
        strippedColumn lib "version" fields = version) ∧ version ≠ [] := by
  unfold declaredVersions
  rw [List.mem_dedup, List.mem_filter, decide_eq_true_eq, List.mem_map]
  simp only [List.mem_append]

theorem capabilityGoverned {lib : Library} {policy : CommercePolicy} {pub service : Fields}
    {capability : Text} (h : ServiceGoverned lib policy pub service)
    (hknp : declaresKiwiNegotiation lib capability = true) :
    CapabilityGoverned lib policy pub service capability := by
  constructor
  · intro sp hsp hid hversion
    refine h.allowed _ (mem_declaredVersions.mpr ⟨⟨sp, .inr ?_, rfl⟩, hversion⟩)
    exact mem_knpSpecifications.mpr ⟨hsp, hid ▸ hknp⟩
  · intro halone
    have hown : ∀ sp ∈ knpSpecifications lib service,
        sp ∈ objectsAt "specifications" service ∧ specificationId lib sp = capability :=
      fun sp hsp => ⟨(mem_knpSpecifications.mp hsp).1, halone sp hsp⟩
    refine ⟨?_, ?_, ?_⟩
    · obtain ⟨sp, hsp, hgiven⟩ := h.specified
      exact ⟨sp, (hown sp hsp).1, (hown sp hsp).2, hgiven⟩
    · rcases h.described with htop | hdocumentation | ⟨sp, hsp, hgiven⟩
      · exact .inl htop
      · exact .inr (.inl hdocumentation)
      · exact .inr (.inr ⟨sp, (hown sp hsp).1, (hown sp hsp).2, hgiven⟩)
    · obtain ⟨version, hversion⟩ := List.exists_mem_of_ne_nil _ h.versioned
      obtain ⟨⟨fields, hfields, rfl⟩, hsome⟩ := mem_declaredVersions.mp hversion
      cases hfields with
      | inl hendpoint => exact .inl ⟨fields, hendpoint, hsome⟩
      | inr hsp => exact .inr ⟨fields, (hown fields hsp).1, (hown fields hsp).2, hsome⟩

/-- Commerce evidence passes only if every service that claims negotiation shows for itself what
the policy asks for. -/
theorem commerce_evidence_governed (lib : Library) (policy : CommercePolicy)
    (card : AgentCardResult) (ucp : UcpProfileResult) (canonicalDomain : Text)
    (h : (evaluateCommerceCapabilities lib policy card ucp canonicalDomain).result = "passed") :
    ∀ service ∈ objectsAt "services" ucp.pub, claimsKnp lib service = true →
      ServiceGoverned lib policy ucp.pub service ∧
        ∀ capability ∈ kiwiCapabilities lib service,
          CapabilityGoverned lib policy ucp.pub service capability := by
  obtain ⟨details, hchecked⟩ := claims_checked h
  intro service hservice hclaims
  have hgoverned := serviceGoverned hchecked hservice hclaims
  refine ⟨hgoverned, fun capability hcapability => capabilityGoverned hgoverned ?_⟩
  exact (List.mem_filter.mp hcapability).2

/-! ## 5. A documented service -/

def negotiation : Text := "com.kiwi:negotiation".toList

/-- A profile whose one capability has a specification and the documentation of its service. -/
def documentedProfile : Json :=
  .object [("specificationVersion", .text "2026-01-11".toList),
    ("serviceIdentity", .object [("id", .text "shop".toList), ("name", .text "Shop".toList)]),
    ("services", .array [.object [("id", .text "orders".toList), ("type", .text "commerce".toList),
      ("capabilities", .array [.text negotiation]),
      ("endpoints", .array [.object [("uri", .text "https://shop.example/a2a".toList),
        ("protocol", .text "a2a".toList)]]),
      ("documentationUri", .text "https://shop.example/docs".toList),
      ("specifications", .array [.object [("id", .text negotiation), ("label", .text negotiation),
        ("version", .text "1.0".toList), ("specUrl", .text "https://knp.example/spec".toList)]])]])]

def knpPolicy : CommercePolicy where
  toTrustPolicy := shopPolicy
  allowedKnpVersions := ["1.0".toList]

theorem documented_service_governed :
    ∃ card ucp,
      AgentCard.parse asciiLibrary shopPolicy ⟨true, 100, 50000⟩ skilledCard shopUrl = .ok card ∧
      Ucp.parse asciiLibrary shopPolicy ⟨true, 100, 50000⟩ documentedProfile profileUrl =
        .ok ucp ∧
      ∀ service ∈ objectsAt "services" ucp.pub, claimsKnp asciiLibrary service = true →
        ServiceGoverned asciiLibrary knpPolicy ucp.pub service ∧
          ∀ capability ∈ kiwiCapabilities asciiLibrary service,
            CapabilityGoverned asciiLibrary knpPolicy ucp.pub service capability := by
  have hboth := @parsed_pair shopPolicy ⟨true, 100, 50000⟩ skilledCard documentedProfile
    (fun card ucp => (evaluateCommerceCapabilities asciiLibrary knpPolicy card ucp
      "shop.example".toList).result == "passed") (by decide +kernel)
  obtain ⟨card, ucp, hcard, hucp, hpassed⟩ := hboth
  exact ⟨card, ucp, hcard, hucp, commerce_evidence_governed asciiLibrary knpPolicy card ucp
    "shop.example".toList (beq_iff_eq.mp hpassed)⟩

/-- A version that is allowed, a specification and a schema, in specifications of the service or of
the profile that have the id of the capability. -/
def HasOwnMetadata (lib : Library) (policy : CommercePolicy) (pub service : Fields)
    (capability : Text) : Prop :=
  let own := (objectsAt "specifications" service ++ objectsAt "specifications" pub).filter
    fun sp => specificationId lib sp = capability
  (∃ sp ∈ own, strippedColumn lib "version" sp ∈ policy.allowedKnpVersions) ∧
    (∃ sp ∈ own, isGiven lib "specUrl" sp = true) ∧ ∃ sp ∈ own, isGiven lib "schemaUrl" sp = true

/-- Documentation stands for a schema. -/
theorem documented_service_without_schema_passes :
    ∃ card ucp,
      AgentCard.parse asciiLibrary shopPolicy ⟨true, 100, 50000⟩ skilledCard shopUrl = .ok card ∧
      Ucp.parse asciiLibrary shopPolicy ⟨true, 100, 50000⟩ documentedProfile profileUrl =
        .ok ucp ∧
      (evaluateCommerceCapabilities asciiLibrary knpPolicy card ucp
        "shop.example".toList).result = "passed" ∧
      ∃ service ∈ objectsAt "services" ucp.pub,
        ∃ capability ∈ kiwiCapabilities asciiLibrary service,
          ¬ HasOwnMetadata asciiLibrary knpPolicy ucp.pub service capability := by
  have hboth := @parsed_pair shopPolicy ⟨true, 100, 50000⟩ skilledCard documentedProfile
    (fun card ucp => (evaluateCommerceCapabilities asciiLibrary knpPolicy card ucp
        "shop.example".toList).result == "passed" &&
      (objectsAt "services" ucp.pub).any fun service =>
        (kiwiCapabilities asciiLibrary service).any fun capability =>
          !((objectsAt "specifications" service ++ objectsAt "specifications" ucp.pub).filter
            fun sp => specificationId asciiLibrary sp = capability).any
              (isGiven asciiLibrary "schemaUrl")) (by decide +kernel)
  obtain ⟨card, ucp, hcard, hucp, hpassed⟩ := hboth
  rw [Bool.and_eq_true, beq_iff_eq, List.any_eq_true] at hpassed
  obtain ⟨hpassed, service, hservice, hcapabilities⟩ := hpassed
  obtain ⟨capability, hcapability, hmissing⟩ := List.any_eq_true.mp hcapabilities
  refine ⟨card, ucp, hcard, hucp, hpassed, service, hservice, capability, hcapability, ?_⟩
  rintro ⟨-, -, hschema⟩
  rw [List.any_eq_true.mpr hschema] at hmissing
  cases hmissing

end KiwiCatalog.Discovery
