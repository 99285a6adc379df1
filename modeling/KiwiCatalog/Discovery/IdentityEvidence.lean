import KiwiCatalog.Discovery.CommerceEvidence
import KiwiCatalog.Discovery.Fetcher
import KiwiCatalog.Lib.JsonDumps

/-!
# Identity evidence — control of a domain, and what binds an agent to it

Each evaluation adds to its details as it goes on, and what fails it takes the details so far.  The
details are objects without floats, however far it comes.
-/

set_option autoImplicit false

namespace KiwiCatalog.Discovery

open AgentCard (AgentCardResult)
open Checks (check OnlyRaises)
open Ucp (UcpProfileResult)
open Url (Text strip)

/-! ## 1. Control of the domain -/

structure EvidencePolicy extends CommercePolicy where
  policyVersion : Int
  requireHttps : Bool
  domainControlMethod : Text

/-- What ends an evaluation: failed evidence, or an exception. -/
inductive Stop
  | failed (evidence : VerificationEvidence)
  | raised (message : String)

def evidenceOf (verificationType : String) :
    Except Stop Fields → Except String VerificationEvidence
  | .ok details => .ok ⟨verificationType, "passed", "", details, 86400⟩
  | .error (.failed evidence) => .ok evidence
  | .error (.raised message) => .error message

/-- A failed check of the kind of an evaluation. -/
def failing (verificationType reason : String) (details : Fields) : Stop :=
  .failed (failedEvidence verificationType reason details)

def hostOf (lib : Library) (url : Text) : Except Stop Text :=
  (canonicalDomainOf lib url).mapError Stop.raised

/-- `urlparse(url).scheme == "https"`. -/
def isHttps (lib : Library) (url : Text) : Bool :=
  match Url.urlsplit lib.tables url with
  | some parsed => parsed.scheme = "https".toList
  | none => false

def checkDeclared (lib : Library) (policy : EvidencePolicy) (canonicalDomain : Text)
    (details : Fields) (kind : String) (url : Text) : Except Stop Unit := do
  check (isHttpUrl lib (.text url)) (failing "domain_control"
    (kind ++ " declared URL is not an http(s) URL: " ++ lib.repr url) details)
  let host ← hostOf lib url
  check (isSameAuthority lib host canonicalDomain) (failing "domain_control"
    (kind ++ " declared host '" ++ String.ofList host ++ "' is not under canonical domain '" ++
      String.ofList canonicalDomain ++ "'") details)
  check (!policy.requireHttps || isHttps lib url) (failing "domain_control"
    (kind ++ " declared URL must be HTTPS: " ++ lib.repr url) details)

def checkAllDeclared (lib : Library) (policy : EvidencePolicy) (canonicalDomain : Text)
    (details : Fields) : List (String × Text) → Except Stop Unit
  | [] => .ok ()
  | (kind, url) :: rest => do
    checkDeclared lib policy canonicalDomain details kind url
    checkAllDeclared lib policy canonicalDomain details rest

def wellKnownPaths : List (String × String) :=
  [("agent_card", ".well-known/agent-card.json"), ("ucp", ".well-known/ucp")]

/-- A fetch answers, or raises a `FetchError` or an `SSRFBlockError` with a text. -/
abbrev Fetch := Text → Except String Fetcher.FetchResult

/-- `FetchResult.is_success`. -/
def isProfileSuccess (result : Fetcher.FetchResult) : Bool :=
  result.statusCode = 200 || result.statusCode = 304

/-- The details with what has been fetched so far. -/
def withStatuses (details wellKnown statuses : Fields) : Fields :=
  details ++ [("well_known", .object wellKnown), ("statuses", .object statuses)]

def fetchStatus (fetch : Fetch) (details : Fields) (kind : String) (url : Text) :
    Except Stop Fetcher.FetchResult :=
  (fetch url).mapError fun message => failing "domain_control"
    ("well-known fetch failed for " ++ kind ++ " at " ++ String.ofList url ++ ": " ++ message)
    details

def fetchWellKnown (fetch : Fetch) (canonicalDomain : Text) (details : Fields) :
    List (String × String) → Fields → Fields → Except Stop Fields
  | [], wellKnown, statuses => .ok (withStatuses details wellKnown statuses)
  | (kind, path) :: rest, wellKnown, statuses => do
    let url := "https://".toList ++ (canonicalDomain ++ '/' :: path.toList)
    let wellKnown := wellKnown ++ [(kind, .text url)]
    let result ← fetchStatus fetch (withStatuses details wellKnown statuses) kind url
    let statuses := statuses ++ [(kind, .int result.statusCode)]
    check (isProfileSuccess result) (failing "domain_control"
      ("well-known location " ++ String.ofList url ++ " returned HTTP " ++
        toString result.statusCode) (withStatuses details wellKnown statuses))
    fetchWellKnown fetch canonicalDomain details rest wellKnown statuses

/-- The checks of `verify_domain_control`, with the details that they add up. -/
def domainDetails (lib : Library) (policy : EvidencePolicy) (fetch : Fetch)
    (canonicalDomain : Text) (declared : List (String × Text)) : Except Stop Fields := do
  let details : Fields :=
    [("method", .text "https_domain_control".toList),
      ("domain_control_method", .text policy.domainControlMethod),
      ("canonical_domain", .text canonicalDomain)]
  checkAllDeclared lib policy canonicalDomain details declared
  let details := details ++
    [("declared_urls", .object (declared.map fun entry => (entry.1, .text entry.2)))]
  fetchWellKnown fetch canonicalDomain details wellKnownPaths [] []

def verifyDomainControl (lib : Library) (policy : EvidencePolicy) (fetch : Fetch)
    (canonicalDomain : Text) (declared : List (String × Text)) :
    Except String VerificationEvidence :=
  evidenceOf "domain_control" (domainDetails lib policy fetch canonicalDomain declared)

def ProfileUrls.declared (urls : ProfileUrls) : List (String × Text) :=
  [("agent_card", urls.agentCard), ("ucp_profile", urls.ucpProfile)]

/-- A profile endpoint is on the web and under the domain. -/
def isUnder (lib : Library) (domain url : Text) : Bool :=
  isHttpUrl lib (.text url) &&
    match canonicalDomainOf lib url with
    | .ok host => isSameAuthority lib host domain
    | .error _ => false

/-- `_domain_control_evidence`, of an agent with this domain. -/
def domainControlEvidence (lib : Library) (policy : EvidencePolicy) (fetch : Fetch)
    (canonicalDomain : Text) (urls : ProfileUrls) : Except String VerificationEvidence :=
  if strip canonicalDomain = [] then
    .ok (failedEvidence "domain_control"
      "catalog agent has no canonical_domain; domain control cannot be verified"
      [("method", .text "https_domain_control".toList),
        ("domain_control_method", .text policy.domainControlMethod),
        ("canonical_domain", .text (strip canonicalDomain))])
  else if urls.declared.all fun entry => isUnder lib (strip canonicalDomain) entry.2 then
    verifyDomainControl lib policy fetch (strip canonicalDomain) urls.declared
  else .error "profile endpoints changed away from the captured verification domain"

/-! ## 2. The identity of the agent -/

/-- `serviceIdentity.id` of a profile, where it is a URL for the web. -/
def serviceIdentityUrl (lib : Library) (ucp : UcpProfileResult) : Option Text :=
  match Json.get "serviceIdentity" ucp.pub with
  | .object identity =>
    match Json.get "id" identity with
    | .text url => if isHttpUrl lib (.text url) then some url else none
    | _ => none
  | _ => none

/-- A URL of the identity is under the domain, over HTTPS where the policy asks for it. -/
def checkBound (lib : Library) (policy : EvidencePolicy) (canonicalDomain : Text)
    (details : Fields) (label : String) (url : Text) : Except Stop Unit := do
  let host ← hostOf lib url
  check (isSameAuthority lib host canonicalDomain) (failing "agent_identity"
    (label ++ " host '" ++ String.ofList host ++ "' is not under '" ++
      String.ofList canonicalDomain ++ "'") details)
  check (!policy.requireHttps || isHttps lib url) (failing "agent_identity"
    (label ++ " must be HTTPS: " ++ lib.repr url) details)

def checkServiceIdentity (lib : Library) (policy : EvidencePolicy) (canonicalDomain : Text)
    (details : Fields) : Option Text → Except Stop Unit
  | none => .ok ()
  | some url => checkBound lib policy canonicalDomain details "ucp serviceIdentity.id" url

/-- The `url` of a card that is a URL for the web. -/
def cardUrlOf (lib : Library) (card : AgentCardResult) : Option Text :=
  match Json.get "url" card.pub with
  | .text url => if isHttpUrl lib (.text url) then some url else none
  | _ => none

/-- The checks of `evaluate_agent_identity`, with the details that they add up. -/
def identityDetails (lib : Library) (policy : EvidencePolicy) (card : AgentCardResult)
    (ucp : UcpProfileResult) (canonicalDomain : Text) : Except Stop Fields := do
  let details : Fields :=
    [("method", .text "identity_binding".toList), ("canonical_domain", .text canonicalDomain),
      ("agent_card_name", .text card.name)]
  let cardUrl ← Checks.require (cardUrlOf lib card)
    (failing "agent_identity" "agent card url is not an http(s) URL" details)
  checkBound lib policy canonicalDomain details "agent card identity url" cardUrl
  checkServiceIdentity lib policy canonicalDomain details (serviceIdentityUrl lib ucp)
  pure (details ++ [("agent_card_url", .text cardUrl),
    ("identity_binding", .text "canonical_domain".toList)])

def evaluateAgentIdentity (lib : Library) (policy : EvidencePolicy) (card : AgentCardResult)
    (ucp : UcpProfileResult) (canonicalDomain : Text) : Except String VerificationEvidence :=
  evidenceOf "agent_identity" (identityDetails lib policy card ucp canonicalDomain)

/-! ## 3. The details of evidence -/

/-- Details as a `dict` holds them, without floats. -/
structure DetailsFaithful (details : Fields) : Prop where
  keys : (details.map Prod.fst).Nodup
  values : ∀ entry ∈ details, Json.Faithful entry.2

theorem DetailsFaithful.object {details : Fields} (h : DetailsFaithful details) :
    Json.Faithful (.object details) :=
  .object h.keys h.values

theorem faithful_texts (texts : List Text) : Json.Faithful (.array (texts.map .text)) := by
  apply Json.Faithful.array
  intro v hv
  obtain ⟨s, -, rfl⟩ := List.mem_map.mp hv
  exact .text s

theorem DetailsFaithful.nil : DetailsFaithful [] := ⟨List.nodup_nil, nofun⟩

/-- One more detail under a key of its own. -/
theorem DetailsFaithful.add {details : Fields} (h : DetailsFaithful details) {key : String}
    {v : Json} (hkey : key ∉ details.map Prod.fst) (hv : Json.Faithful v) :
    DetailsFaithful (details ++ [(key, v)]) where
  keys := by
    rw [List.map_append, List.map_singleton, List.nodup_append]
    refine ⟨h.keys, List.nodup_singleton key, ?_⟩
    intro other hother key' hkey' heq
    rw [heq, List.mem_singleton.mp hkey'] at hother
    exact hkey hother
  values := by
    intro entry hentry
    rcases List.mem_append.mp hentry with hold | hnew
    · exact h.values entry hold
    · rw [List.mem_singleton.mp hnew]
      exact hv

theorem DetailsFaithful.addTwo {details : Fields} (h : DetailsFaithful details)
    {key key' : String} {v v' : Json} (hkey : key ∉ details.map Prod.fst)
    (hkey' : key' ∉ details.map Prod.fst) (hne : key ≠ key') (hv : Json.Faithful v)
    (hv' : Json.Faithful v') : DetailsFaithful (details ++ [(key, v), (key', v')]) := by
  have hboth := @DetailsFaithful.add _ (h.add hkey hv) key' v' ?_ hv'
  · rwa [List.append_assoc] at hboth
  · rw [List.map_append, List.mem_append, not_or]
    exact ⟨hkey', fun hmem => hne (List.mem_singleton.mp hmem).symm⟩

/-- What ends an evaluation has details that a `dict` holds. -/
def StopFaithful : Stop → Prop
  | .failed evidence => DetailsFaithful evidence.details
  | .raised _ => True

theorem onlyRaises_hostOf (lib : Library) (url : Text) :
    OnlyRaises StopFaithful (hostOf lib url) := by
  intro stop h
  unfold hostOf at h
  cases hhost : canonicalDomainOf lib url with
  | ok host =>
    rw [hhost] at h
    cases h
  | error message =>
    rw [hhost] at h
    cases h
    trivial

theorem checkDeclared_faithful (lib : Library) (policy : EvidencePolicy) (canonicalDomain : Text)
    {details : Fields} (h : DetailsFaithful details) (kind : String) (url : Text) :
    OnlyRaises StopFaithful (checkDeclared lib policy canonicalDomain details kind url) := by
  unfold checkDeclared
  rw [Checks.onlyRaises_bind]
  refine ⟨Checks.onlyRaises_check.mpr fun _ => h, fun _ _ => ?_⟩
  rw [Checks.onlyRaises_bind]
  refine ⟨onlyRaises_hostOf lib url, fun _ _ => ?_⟩
  rw [Checks.onlyRaises_bind]
  exact ⟨Checks.onlyRaises_check.mpr fun _ => h, fun _ _ => Checks.onlyRaises_check.mpr fun _ => h⟩

theorem checkAllDeclared_faithful (lib : Library) (policy : EvidencePolicy)
    (canonicalDomain : Text) {details : Fields} (h : DetailsFaithful details)
    (declared : List (String × Text)) :
    OnlyRaises StopFaithful (checkAllDeclared lib policy canonicalDomain details declared) := by
  induction declared with
  | nil => exact Checks.onlyRaises_ok _ _
  | cons entry rest ih =>
    exact Checks.onlyRaises_bind.mpr
      ⟨checkDeclared_faithful lib policy canonicalDomain h entry.1 entry.2, fun _ _ => ih⟩

/-- An evaluation whose details are faithful, whether it passes or is stopped. -/
structure Evaluates {ε : Type} (p : ε → Prop) (x : Except ε Fields) : Prop where
  passed : ∀ details, x = .ok details → DetailsFaithful details
  stopped : OnlyRaises p x

theorem Evaluates.ok {ε : Type} {p : ε → Prop} {details : Fields} (h : DetailsFaithful details) :
    Evaluates p (.ok details) where
  passed := by
    intro details' heq
    rw [← Except.ok.inj heq]
    exact h
  stopped := Checks.onlyRaises_ok _ _

theorem Evaluates.bind {ε α : Type} {p : ε → Prop} {x : Except ε α} {f : α → Except ε Fields}
    (hx : OnlyRaises p x) (hf : ∀ a, x = .ok a → Evaluates p (f a)) : Evaluates p (x >>= f) where
  passed := by
    intro details h
    obtain ⟨a, ha, hrest⟩ := Checks.bind_eq_ok h
    exact (hf a ha).passed details hrest
  stopped := Checks.onlyRaises_bind.mpr ⟨hx, fun a ha => (hf a ha).stopped⟩

theorem evidenceOf_faithful {verificationType : String} {x : Except Stop Fields}
    (hx : Evaluates StopFaithful x) {evidence : VerificationEvidence}
    (h : evidenceOf verificationType x = .ok evidence) : DetailsFaithful evidence.details := by
  cases x with
  | ok details =>
    rw [← Except.ok.inj h]
    exact hx.passed details rfl
  | error stop =>
    cases stop with
    | failed failure =>
      rw [← Except.ok.inj h]
      exact hx.stopped _ rfl
    | raised message => cases h

/-- The details of the fetches have a key for each kind. -/
theorem fetchWellKnown_evaluates (fetch : Fetch) (canonicalDomain : Text) {details : Fields}
    (hdetails : DetailsFaithful details) (hknown : "well_known" ∉ details.map Prod.fst)
    (hstatuses : "statuses" ∉ details.map Prod.fst) (paths : List (String × String)) :
    ∀ wellKnown statuses : Fields, DetailsFaithful wellKnown → DetailsFaithful statuses →
      (paths.map Prod.fst).Nodup →
      (∀ kind ∈ paths.map Prod.fst, kind ∉ wellKnown.map Prod.fst ∧ kind ∉ statuses.map Prod.fst) →
      Evaluates StopFaithful
        (fetchWellKnown fetch canonicalDomain details paths wellKnown statuses) := by
  have hwith : ∀ {wellKnown statuses : Fields}, DetailsFaithful wellKnown →
      DetailsFaithful statuses → DetailsFaithful (withStatuses details wellKnown statuses) :=
    fun hw hs => hdetails.addTwo hknown hstatuses (by decide) hw.object hs.object
  induction paths with
  | nil => exact fun wellKnown statuses hw hs _ _ => .ok (hwith hw hs)
  | cons entry rest ih =>
    intro wellKnown statuses hw hs hnodup hfresh
    rw [List.map_cons, List.nodup_cons] at hnodup
    obtain ⟨hnotw, hnots⟩ := hfresh entry.1 List.mem_cons_self
    have hw' := hw.add hnotw (Json.Faithful.text ("https://".toList ++
      (canonicalDomain ++ '/' :: entry.2.toList)))
    apply Evaluates.bind
    · intro stop hstop
      unfold fetchStatus at hstop
      cases hfetch : fetch _ with
      | ok result =>
        rw [hfetch] at hstop
        cases hstop
      | error message =>
        rw [hfetch] at hstop
        cases hstop
        exact hwith hw' hs
    · intro result _
      have hs' := hs.add hnots (Json.Faithful.int result.statusCode)
      apply Evaluates.bind
      · exact Checks.onlyRaises_check.mpr fun _ => hwith hw' hs'
      intro _ _
      apply ih _ _ hw' hs' hnodup.2
      intro kind hkind
      obtain ⟨hkindw, hkinds⟩ := hfresh kind (List.mem_cons_of_mem _ hkind)
      have hne : kind ≠ entry.1 := fun heq => hnodup.1 (heq ▸ hkind)
      rw [List.map_append, List.map_append, List.mem_append, List.mem_append, not_or, not_or]
      exact ⟨⟨hkindw, fun hmem => hne (List.mem_singleton.mp hmem)⟩,
        hkinds, fun hmem => hne (List.mem_singleton.mp hmem)⟩

theorem domainDetails_evaluates (lib : Library) (policy : EvidencePolicy) (fetch : Fetch)
    (canonicalDomain : Text) {declared : List (String × Text)}
    (hdeclared : (declared.map Prod.fst).Nodup) :
    Evaluates StopFaithful (domainDetails lib policy fetch canonicalDomain declared) := by
  have hdetails : DetailsFaithful
      [("method", .text "https_domain_control".toList),
        ("domain_control_method", .text policy.domainControlMethod),
        ("canonical_domain", .text canonicalDomain)] := by
    apply (DetailsFaithful.nil.add _ (Json.Faithful.text _)).addTwo
    · show "domain_control_method" ∉ ["method"]
      decide
    · show "canonical_domain" ∉ ["method"]
      decide
    · decide
    · exact Json.Faithful.text _
    · exact Json.Faithful.text _
    · exact List.not_mem_nil
  have hurls : DetailsFaithful (declared.map fun entry => (entry.1, Json.text entry.2)) := by
    constructor
    · rw [List.map_map]
      exact hdeclared
    · intro entry hentry
      obtain ⟨url, -, rfl⟩ := List.mem_map.mp hentry
      exact Json.Faithful.text _
  unfold domainDetails
  apply Evaluates.bind (checkAllDeclared_faithful lib policy canonicalDomain hdetails declared)
  intro _ _
  apply fetchWellKnown_evaluates
  · apply hdetails.add _ hurls.object
    show "declared_urls" ∉ ["method", "domain_control_method", "canonical_domain"]
    decide
  · show "well_known" ∉ ["method", "domain_control_method", "canonical_domain", "declared_urls"]
    decide
  · show "statuses" ∉ ["method", "domain_control_method", "canonical_domain", "declared_urls"]
    decide
  · exact DetailsFaithful.nil
  · exact DetailsFaithful.nil
  · show ["agent_card", "ucp"].Nodup
    decide
  · exact fun _ _ => ⟨List.not_mem_nil, List.not_mem_nil⟩

/-- Evidence of the control of a domain has faithful details. -/
theorem domainControlEvidence_faithful {lib : Library} {policy : EvidencePolicy} {fetch : Fetch}
    {canonicalDomain : Text} {urls : ProfileUrls} {evidence : VerificationEvidence}
    (h : domainControlEvidence lib policy fetch canonicalDomain urls = .ok evidence) :
    DetailsFaithful evidence.details := by
  unfold domainControlEvidence at h
  split at h
  · rw [← Except.ok.inj h]
    apply (DetailsFaithful.nil.add _ (Json.Faithful.text _)).addTwo
    · show "domain_control_method" ∉ ["method"]
      decide
    · show "canonical_domain" ∉ ["method"]
      decide
    · decide
    · exact Json.Faithful.text _
    · exact Json.Faithful.text _
    · exact List.not_mem_nil
  · split at h
    · apply evidenceOf_faithful _ h
      apply domainDetails_evaluates
      show ["agent_card", "ucp_profile"].Nodup
      decide
    · cases h

theorem checkBound_faithful (lib : Library) (policy : EvidencePolicy) (canonicalDomain : Text)
    {details : Fields} (h : DetailsFaithful details) (label : String) (url : Text) :
    OnlyRaises StopFaithful (checkBound lib policy canonicalDomain details label url) := by
  unfold checkBound
  rw [Checks.onlyRaises_bind]
  refine ⟨onlyRaises_hostOf lib url, fun _ _ => ?_⟩
  rw [Checks.onlyRaises_bind]
  exact ⟨Checks.onlyRaises_check.mpr fun _ => h, fun _ _ => Checks.onlyRaises_check.mpr fun _ => h⟩

theorem checkServiceIdentity_faithful (lib : Library) (policy : EvidencePolicy)
    (canonicalDomain : Text) {details : Fields} (h : DetailsFaithful details)
    (url : Option Text) :
    OnlyRaises StopFaithful (checkServiceIdentity lib policy canonicalDomain details url) := by
  cases url with
  | none => exact Checks.onlyRaises_ok _ _
  | some url => exact checkBound_faithful lib policy canonicalDomain h _ url

/-- Evidence of an identity has faithful details. -/
theorem evaluateAgentIdentity_faithful {lib : Library} {policy : EvidencePolicy}
    {card : AgentCardResult} {ucp : UcpProfileResult} {canonicalDomain : Text}
    {evidence : VerificationEvidence}
    (h : evaluateAgentIdentity lib policy card ucp canonicalDomain = .ok evidence) :
    DetailsFaithful evidence.details := by
  have hdetails : DetailsFaithful
      [("method", .text "identity_binding".toList), ("canonical_domain", .text canonicalDomain),
        ("agent_card_name", .text card.name)] := by
    apply (DetailsFaithful.nil.add _ (Json.Faithful.text _)).addTwo
    · show "canonical_domain" ∉ ["method"]
      decide
    · show "agent_card_name" ∉ ["method"]
      decide
    · decide
    · exact Json.Faithful.text _
    · exact Json.Faithful.text _
    · exact List.not_mem_nil
  apply evidenceOf_faithful _ h
  unfold identityDetails
  apply Evaluates.bind
  · exact Checks.onlyRaises_require.mpr fun _ => hdetails
  · intro cardUrl _
    apply Evaluates.bind (checkBound_faithful lib policy canonicalDomain hdetails _ cardUrl)
    intro _ _
    apply Evaluates.bind (checkServiceIdentity_faithful lib policy canonicalDomain hdetails _)
    intro _ _
    apply Evaluates.ok
    apply hdetails.addTwo
    · show "agent_card_url" ∉ ["method", "canonical_domain", "agent_card_name"]
      decide
    · show "identity_binding" ∉ ["method", "canonical_domain", "agent_card_name"]
      decide
    · decide
    · exact Json.Faithful.text _
    · exact Json.Faithful.text _

/-- Failed evidence has faithful details. -/
def EvidenceFaithful (evidence : VerificationEvidence) : Prop := DetailsFaithful evidence.details

theorem checkClaim_faithful {lib : Library} {allowed : List Text} {details : Fields}
    (h : DetailsFaithful details) (hsource : "knp_claim_source" ∉ details.map Prod.fst)
    (claim : KnpClaim) : OnlyRaises EvidenceFaithful (checkClaim lib allowed details claim) := by
  have hclaim := h.add hsource (Json.Faithful.text claim.source.toList)
  unfold checkClaim
  rw [Checks.onlyRaises_bind]
  refine ⟨Checks.onlyRaises_check.mpr fun _ => hclaim, fun _ _ => ?_⟩
  rw [Checks.onlyRaises_bind]
  refine ⟨Checks.onlyRaises_check.mpr fun _ => hclaim, fun _ _ => ?_⟩
  rw [Checks.onlyRaises_bind]
  exact ⟨Checks.onlyRaises_check.mpr fun _ => hclaim,
    fun _ _ => Checks.onlyRaises_check.mpr fun _ => hclaim⟩

theorem checkClaims_faithful {lib : Library} {allowed : List Text} {details : Fields}
    (h : DetailsFaithful details) (hsource : "knp_claim_source" ∉ details.map Prod.fst)
    (claims : List KnpClaim) :
    OnlyRaises EvidenceFaithful (checkClaims lib allowed details claims) := by
  induction claims with
  | nil => exact Checks.onlyRaises_ok _ _
  | cons claim rest ih =>
    exact Checks.onlyRaises_bind.mpr ⟨checkClaim_faithful h hsource claim, fun _ _ => ih⟩

theorem commerceDetails_evaluates (lib : Library) (policy : CommercePolicy)
    (card : AgentCardResult) (ucp : UcpProfileResult) (canonicalDomain : Text) :
    Evaluates EvidenceFaithful (commerceDetails lib policy card ucp canonicalDomain) := by
  have hfirst : DetailsFaithful
      [("method", .text "commerce_capability_intersection".toList),
        ("canonical_domain", .text canonicalDomain), ("a2a_version", .text card.version),
        ("ucp_version", .text ucp.specificationVersion)] := by
    have htwo : DetailsFaithful [("method", .text "commerce_capability_intersection".toList),
        ("canonical_domain", .text canonicalDomain)] :=
      DetailsFaithful.nil.addTwo List.not_mem_nil List.not_mem_nil (by decide) (Json.Faithful.text _)
        (Json.Faithful.text _)
    apply htwo.addTwo
    · show "a2a_version" ∉ ["method", "canonical_domain"]
      decide
    · show "ucp_version" ∉ ["method", "canonical_domain"]
      decide
    · decide
    · exact Json.Faithful.text _
    · exact Json.Faithful.text _
  unfold commerceDetails
  apply Evaluates.bind
  · exact Checks.onlyRaises_check.mpr fun _ => hfirst
  intro _ _
  apply Evaluates.bind
  · exact Checks.onlyRaises_check.mpr fun _ => hfirst
  intro _ _
  apply Evaluates.bind
  · exact Checks.onlyRaises_check.mpr fun _ => hfirst
  intro _ _
  apply Evaluates.bind
  · exact Checks.onlyRaises_check.mpr fun _ => hfirst
  intro _ _
  -- the two counts, and the versions where negotiation is claimed
  have hcounted : ∀ capabilities commerce : Int, DetailsFaithful
      ([("method", .text "commerce_capability_intersection".toList),
        ("canonical_domain", .text canonicalDomain), ("a2a_version", .text card.version),
        ("ucp_version", .text ucp.specificationVersion)] ++
        [("capability_count", .int capabilities), ("commerce_capability_count", .int commerce)]) := by
    intro capabilities commerce
    apply hfirst.addTwo
    · show "capability_count" ∉ ["method", "canonical_domain", "a2a_version", "ucp_version"]
      decide
    · show "commerce_capability_count" ∉
        ["method", "canonical_domain", "a2a_version", "ucp_version"]
      decide
    · decide
    · exact Json.Faithful.int _
    · exact Json.Faithful.int _
  apply Evaluates.bind
  · apply checkClaims_faithful (hcounted _ _)
    show "knp_claim_source" ∉ ["method", "canonical_domain", "a2a_version", "ucp_version",
      "capability_count", "commerce_capability_count"]
    decide
  intro _ _
  apply Evaluates.ok
  split
  · exact hcounted _ _
  · apply (hcounted _ _).add _ (faithful_texts _)
    show "knp_versions" ∉ ["method", "canonical_domain", "a2a_version", "ucp_version",
      "capability_count", "commerce_capability_count"]
    decide

/-- Evidence of commerce capabilities has faithful details. -/
theorem evaluateCommerceCapabilities_faithful (lib : Library) (policy : CommercePolicy)
    (card : AgentCardResult) (ucp : UcpProfileResult) (canonicalDomain : Text) :
    DetailsFaithful
      (evaluateCommerceCapabilities lib policy card ucp canonicalDomain).details := by
  have hdetails := commerceDetails_evaluates lib policy card ucp canonicalDomain
  unfold evaluateCommerceCapabilities
  split
  · rename_i details hok
    exact hdetails.passed details hok
  · rename_i evidence herror
    exact hdetails.stopped evidence herror

end KiwiCatalog.Discovery
