import KiwiCatalog.Discovery.PublicCredentials

/-!
# UCP credentials — what of a commerce profile's credentials its parser lets through

As for cards; a service area and the fields of specifications may be documents of any shape, and
are taken over with the lists in them.
-/

set_option autoImplicit false

namespace KiwiCatalog.Discovery.Ucp

open Checks (bind_ok_iff check_ok_iff)
open Url (Text)

/-! ## 1. What gets through -/

/-- The texts that are items of an array in what the projection of a profile takes over. -/
inductive PublicItem (profile : Fields) (found : List Text) (s : Text) : Prop
  | capability {i : Nat} {service : Fields}
      (hservice : (itemsOf (Json.get "services" profile))[i]? = some (.object service))
      (hskip : skips found (childPath (itemPath "services".toList i) "capabilities") = false)
      (h : .text s ∈ itemsOf (Json.get "capabilities" service))
  | owner {identity owner : Fields} {key : String}
      (hidentity : Json.get "serviceIdentity" profile = .object identity)
      (howner : Json.get "owner" identity = .object owner) (hkey : key ∈ ["name", "url"])
      (hskip : skips found (childPath "serviceIdentity.owner".toList key) = false)
      (h : s ∈ (Json.get key owner).elements)
  | serviceArea {identity area : Fields}
      (hidentity : Json.get "serviceIdentity" profile = .object identity)
      (harea : Json.get "serviceArea" identity = .object area)
      (hskip : skips found (childPath "serviceIdentity".toList "serviceArea") = false)
      (h : s ∈ (Json.object area).elements)
  | specification {i j : Nat} {service sp : Fields} {key : String}
      (hservice : (itemsOf (Json.get "services" profile))[i]? = some (.object service))
      (hsp : (itemsOf (Json.get "specifications" service))[j]? = some (.object sp))
      (hkey : key ∈ specificationKeys)
      (hskip : skips found (childPath (itemPath (childPath (itemPath "services".toList i)
        "specifications") j) key) = false)
      (h : s ∈ (Json.get key sp).elements)
  | document {j : Nat} {sp : Fields} {key : String}
      (hsp : (itemsOf (Json.get "specifications" profile))[j]? = some (.object sp))
      (hkey : key ∈ specificationKeys)
      (hskip : skips found (childPath (itemPath "specifications".toList j) key) = false)
      (h : s ∈ (Json.get key sp).elements)

/-- How a credential of a profile gets through. -/
inductive Leak (lib : Library) (reject : Bool) (canonical : Text) (profile : Fields)
    (found : List Text) : Prop
  -- a version that the policy allows
  | version {s : Text} (h : Json.get "specificationVersion" profile = .text s)
      (hs : isSecretValue lib s = true)
  | item {s : Text} (h : PublicItem profile found s) (hs : isSecretValue lib s = true)
  -- a part of the id of a capability, or the namespace of the domain
  | row {i : Nat} {service : Fields} {s : Text}
      (hservice : (itemsOf (Json.get "services" profile))[i]? = some (.object service))
      (hskip : skips found (childPath (itemPath "services".toList i) "capabilities") = false)
      (h : .text s ∈ itemsOf (Json.get "capabilities" service))
      (hs : isSecretValue lib (splitCapabilityId s canonical).1 = true ∨
        isSecretValue lib (splitCapabilityId s canonical).2 = true)
  -- an item of any array, where the profile was to be rejected for it
  | scanned {s : Text} (hreject : reject = true) (h : s ∈ (Json.object profile).elements)
      (hs : isSecretValue lib s = true)

/-- No credential of an accepted profile is published, and with `reject_on_secret` the profile in
its standard shape has none. -/
def Safe (lib : Library) (policy : TrustPolicy) (options : ParserOptions) (parsed : Json)
    (sourceUrl : Text) : Prop :=
  ∀ result, parse lib policy options parsed sourceUrl = .ok result →
    NoCredential lib result.pub result.capabilities result.skills ∧
      (options.rejectOnSecret = true → ∀ canonical normalized,
        canonicalDomainOf lib sourceUrl = .ok canonical →
          normalizeCanonicalUcp lib parsed canonical = .ok normalized → Harmless lib normalized)

/-- The profile is accepted, and a credential of it gets through. -/
def Leaks (lib : Library) (policy : TrustPolicy) (options : ParserOptions) (parsed : Json)
    (sourceUrl : Text) : Prop :=
  (∃ result, parse lib policy options parsed sourceUrl = .ok result) ∧
    ∃ canonical profile found, canonicalDomainOf lib sourceUrl = .ok canonical ∧
      normalizeCanonicalUcp lib parsed canonical = .ok (.object profile) ∧
        scanSecrets lib (.object profile) = .ok found ∧
          Leak lib options.rejectOnSecret canonical profile found

variable {lib : Library}

/-- What a successful run of the parser has gone through. -/
structure Parsed (lib : Library) (policy : TrustPolicy) (options : ParserOptions) (parsed : Json)
    (sourceUrl : Text) (result : UcpProfileResult) (canonical : Text) (profile : Fields)
    (head : ProfileHead) (found : List Text) : Prop where
  bounded : validateJsonBounds options.maxDepth options.maxNodes parsed = .ok ()
  domain : canonicalDomainOf lib sourceUrl = .ok canonical
  normalized : normalizeCanonicalUcp lib parsed canonical = .ok (.object profile)
  valid : ProfileValid lib policy canonical profile head
  scanned : scanSecrets lib (.object profile) = .ok found
  kept : options.rejectOnSecret = true → found = []
  result : result =
    { sourceUrl := sourceUrl
      canonicalDomain := canonical
      specificationVersion := head.specificationVersion
      serviceIdentityId := head.identityId
      pub := projectPublic (skips found) profile
      capabilities := extractUcpCapabilities (projectPublic (skips found) profile) canonical
        head.specificationVersion
      skills := extractUcpSkills (projectPublic (skips found) profile)
      secretsQuarantined := found }

theorem parse_ok {policy : TrustPolicy} {options : ParserOptions} {parsed : Json}
    {sourceUrl : Text} {result : UcpProfileResult} :
    parse lib policy options parsed sourceUrl = .ok result ↔
      ∃ canonical profile head found,
        Parsed lib policy options parsed sourceUrl result canonical profile head found := by
  have hkept : ∀ found : List Text, (!(options.rejectOnSecret && !found.isEmpty)) = true ↔
      (options.rejectOnSecret = true → found = []) := by
    intro found
    cases options.rejectOnSecret <;> cases found <;> simp
  unfold parse
  simp only [bind_ok_iff, exists_unit, requireMapping_ok, validate_ok, check_ok_iff, hkept, pure_ok]
  constructor
  · rintro ⟨hbounds, canonical, hcanonical, normalized, hnormalized, profile, rfl, head, hvalid,
      found, hfound, hnone, rfl⟩
    exact ⟨canonical, profile, head, found, hbounds, hcanonical, hnormalized, hvalid, hfound, hnone,
      rfl⟩
  · rintro ⟨canonical, profile, head, found, h⟩
    exact ⟨h.bounded, canonical, h.domain, _, h.normalized, profile, rfl, head, h.valid, found,
      h.scanned, h.kept, h.result.symm⟩

/-! ## 2. The projection -/

theorem projectEndpoint_clean {found : List Text} {base : Text} {j : Nat}
    {service endpoint : Fields} (h : Scanned lib found base (.object service))
    (hget : (itemsOf (Json.get "endpoints" service))[j]? = some (.object endpoint)) :
    CleanFields lib (projectEndpoint (skips found) base j endpoint) := by
  have hscanned := h.items rfl hget
  exact (pick_clean hscanned rfl (by decide)).append (pick_clean hscanned rfl (by decide))

theorem projectServiceSpecification_clean {found : List Text} {base : Text} {j : Nat}
    {service sp : Fields} (h : Scanned lib found base (.object service))
    (hget : (itemsOf (Json.get "specifications" service))[j]? = some (.object sp)) :
    CleanFields lib (projectServiceSpecification (skips found) base j sp) :=
  pick_clean (h.items rfl hget) rfl (by decide)

theorem projectService_clean {profile : Fields} {found : List Text} {i : Nat} {service : Fields}
    (h : Scanned lib found [] (.object profile))
    (hservice : (itemsOf (Json.get "services" profile))[i]? = some (.object service)) :
    CleanFields lib (projectService (skips found) i service) := by
  have hscanned : Scanned lib found (itemPath "services".toList i) (.object service) :=
    h.items rfl hservice
  have hendpoints : CleanFields lib (arrayField "endpoints"
      (projectItems (projectEndpoint (skips found) (itemPath "services".toList i)) 0
        (itemsOf (Json.get "endpoints" service)))) :=
    arrayField_clean rfl (projectItems_clean fun j endpoint hget =>
      projectEndpoint_clean hscanned hget)
  have hspecifications : CleanFields lib (arrayField "specifications"
      (projectItems (projectServiceSpecification (skips found) (itemPath "services".toList i)) 0
        (itemsOf (Json.get "specifications" service)))) :=
    arrayField_clean rfl (projectItems_clean fun j sp hget =>
      projectServiceSpecification_clean hscanned hget)
  exact ((((pick_clean hscanned rfl (by decide)).append
    (pick_clean hscanned rfl (by decide))).append hendpoints).append
      (pick_clean hscanned rfl (by decide))).append hspecifications

theorem projectIdentity_clean {profile : Fields} {found : List Text}
    (h : Scanned lib found [] (.object profile)) :
    CleanFields lib (projectIdentity (skips found) profile) := by
  unfold projectIdentity
  dsimp only
  split
  · rename_i identity hidentity
    have hscanned : Scanned lib found "serviceIdentity".toList (.object identity) :=
      h.get rfl hidentity object_ne_null rfl
    have howner : CleanFields lib (projectOwner (skips found) identity) := by
      unfold projectOwner
      split
      · rename_i owner howner
        have hbelow : Scanned lib found "serviceIdentity.owner".toList (.object owner) :=
          hscanned.get rfl howner object_ne_null rfl
        exact objectField_clean rfl (pick_clean hbelow rfl (by decide))
      · exact .nil
    exact objectField_clean rfl (((pick_clean hscanned rfl (by decide)).append howner).append
      (pick_clean hscanned rfl (by decide)))
  · exact .nil

/-- The projection is clean, but for the version and the items of its arrays. -/
theorem projectPublic_clean {profile : Fields} {found : List Text} {version : Text}
    (h : Scanned lib found [] (.object profile))
    (hversion : Json.get "specificationVersion" profile = .text version)
    (hsafe : isSecretValue lib version = false) :
    Clean lib (.object (projectPublic (skips found) profile)) := by
  have hservices : CleanFields lib (arrayField "services"
      (projectItems (projectService (skips found)) 0 (itemsOf (Json.get "services" profile)))) :=
    arrayField_clean rfl (projectItems_clean fun i service hget => projectService_clean h hget)
  have hdocuments : CleanFields lib (arrayField "specifications"
      (projectItems (projectSpecification (skips found)) 0
        (itemsOf (Json.get "specifications" profile)))) := by
    refine arrayField_clean rfl (projectItems_clean fun j sp hget => ?_)
    have hscanned : Scanned lib found (itemPath "specifications".toList j) (.object sp) :=
      h.items rfl hget
    exact (pick_clean hscanned rfl (by decide)).append (pick_clean hscanned rfl (by decide))
  rw [clean_object]
  intro kv hkv
  cases List.mem_cons.mp hkv with
  | inl heq =>
    rw [heq, hversion]
    refine ⟨isFlagged_eq_false.mpr ⟨show isSecretField "specificationVersion" = false from rfl,
      fun s hs => ?_⟩, clean_leaf rfl rfl⟩
    cases hs
    exact hsafe
  | inr hmem =>
    exact (((pick_clean h rfl (by decide)).append (projectIdentity_clean h)).append
      hservices).append hdocuments kv hmem

/-! ## 3. Items of arrays -/

theorem isPresent_of_elements {v : Json} {s : Text} (h : s ∈ v.elements) : isPresent v = true := by
  cases v with
  | null => cases h
  | _ => rfl

/-- A pick of values without arrays in them. -/
theorem not_mem_elements_pick {kind : Json → Bool} {skip : Text → Bool} {base : Text}
    {keys : List String} {fields : Fields} {s : Text}
    (h : ∀ key ∈ keys, kind (Json.get key fields) = true → (Json.get key fields).elements = []) :
    s ∉ Json.elementsOfFields (pick kind skip base keys fields) := by
  rw [mem_elements_pick]
  rintro ⟨key, hkey, hkind, -, hs⟩
  rw [h key hkey hkind] at hs
  cases hs

theorem elements_of_isText {v : Json} (h : isText v = true) : v.elements = [] := by
  cases v with
  | text s => rfl
  | _ => cases h

theorem elements_of_isNonemptyText {v : Json} (h : isNonemptyText v = true) : v.elements = [] := by
  cases v with
  | text s => rfl
  | _ => cases h

theorem ProfileValid.service {policy : TrustPolicy} {canonical : Text} {profile service : Fields}
    {head : ProfileHead} {i : Nat} (h : ProfileValid lib policy canonical profile head)
    (hservice : (itemsOf (Json.get "services" profile))[i]? = some (.object service)) :
    ServiceValid service := by
  obtain ⟨items, hitems, hvalid⟩ := h.services.1
  rw [hitems] at hservice
  obtain ⟨fields, hsame, hfields⟩ := hvalid _ (List.mem_of_getElem? hservice)
  cases hsame
  exact hfields

theorem ServiceValid.endpoint {service endpoint : Fields} {j : Nat} (h : ServiceValid service)
    (hget : (itemsOf (Json.get "endpoints" service))[j]? = some (.object endpoint)) :
    EndpointValid endpoint := by
  obtain ⟨items, hitems, hvalid⟩ := h.endpoints.1
  rw [hitems] at hget
  obtain ⟨fields, hsame, hfields⟩ := hvalid _ (List.mem_of_getElem? hget)
  cases hsame
  exact hfields

theorem mem_elements_projectService {found : List Text} {i : Nat} {service : Fields} {s : Text}
    (h : ServiceValid service) :
    s ∈ Json.elementsOfFields (projectService (skips found) i service) ↔
      (skips found (childPath (itemPath "services".toList i) "capabilities") = false ∧
        .text s ∈ itemsOf (Json.get "capabilities" service)) ∨
      ∃ j sp key, (itemsOf (Json.get "specifications" service))[j]? = some (.object sp) ∧
        key ∈ specificationKeys ∧ skips found (childPath (itemPath (childPath
          (itemPath "services".toList i) "specifications") j) key) = false ∧
            s ∈ (Json.get key sp).elements := by
  have htexts : ∀ key ∈ ["id", "type", "description"],
      isPresent (Json.get key service) = true → (Json.get key service).elements = [] := by
    intro key hkey _
    simp only [List.mem_cons, List.not_mem_nil, or_false] at hkey
    rcases hkey with rfl | rfl | rfl
    · exact elements_optText (.inr h.serviceId)
    · exact elements_optText (.inr h.type)
    · exact elements_optText h.description
  have hendpoint : ∀ j endpoint,
      (itemsOf (Json.get "endpoints" service))[j]? = some (.object endpoint) →
        s ∉ Json.elementsOfFields
          (projectEndpoint (skips found) (itemPath "services".toList i) j endpoint) := by
    intro j endpoint hget
    have hvalid := h.endpoint hget
    unfold projectEndpoint
    dsimp only
    rw [mem_elements_append, not_or]
    refine ⟨not_mem_elements_pick fun key hkey _ => ?_,
      not_mem_elements_pick fun key _ hkind => elements_of_isText hkind⟩
    simp only [List.mem_cons, List.not_mem_nil, or_false] at hkey
    rcases hkey with rfl | rfl
    · exact elements_optText (.inr hvalid.uri)
    · exact elements_optText (.inr hvalid.protocol)
  have hlist : OptTextList (Json.get "capabilities" service) := .inr h.capabilities
  unfold projectService
  dsimp only
  rw [mem_elements_append, mem_elements_append, mem_elements_append, mem_elements_append,
    mem_elements_projectItems, mem_elements_projectItems]
  constructor
  · rintro ((((hs | hs) | ⟨j, endpoint, hget, hs⟩) | hs) | ⟨j, sp, hsp, hs⟩)
    · exact absurd hs (not_mem_elements_pick htexts)
    · obtain ⟨key, hkey, -, hskip, hs⟩ := mem_elements_pick.mp hs
      cases List.mem_singleton.mp hkey
      exact .inl ⟨hskip, (mem_elements_textList hlist).mp hs⟩
    · exact absurd hs (hendpoint j endpoint hget)
    · exact absurd hs (not_mem_elements_pick fun key _ hkind => elements_of_isText hkind)
    · obtain ⟨key, hkey, -, hskip, hs⟩ := mem_elements_pick.mp hs
      exact .inr ⟨j, sp, key, hsp, hkey, hskip, hs⟩
  · rintro (⟨hskip, hs⟩ | ⟨j, sp, key, hsp, hkey, hskip, hs⟩)
    · refine .inl (.inl (.inl (.inr (mem_elements_pick.mpr ?_))))
      exact ⟨_, List.mem_singleton.mpr rfl, isArray_of_item hs, hskip,
        (mem_elements_textList hlist).mpr hs⟩
    · refine .inr ⟨j, sp, hsp, mem_elements_pick.mpr ?_⟩
      exact ⟨key, hkey, isPresent_of_elements hs, hskip, hs⟩

theorem mem_elements_projectIdentity {policy : TrustPolicy} {canonical : Text} {profile : Fields}
    {head : ProfileHead} {found : List Text} {s : Text}
    (h : ProfileValid lib policy canonical profile head) :
    s ∈ Json.elementsOfFields (projectIdentity (skips found) profile) ↔
      ∃ identity, Json.get "serviceIdentity" profile = .object identity ∧
        ((∃ owner key, Json.get "owner" identity = .object owner ∧ key ∈ ["name", "url"] ∧
            skips found (childPath "serviceIdentity.owner".toList key) = false ∧
              s ∈ (Json.get key owner).elements) ∨
          ∃ area, Json.get "serviceArea" identity = .object area ∧
            skips found (childPath "serviceIdentity".toList "serviceArea") = false ∧
              s ∈ (Json.object area).elements) := by
  obtain ⟨identity, hidentity, hid, hname, hdescription⟩ := h.identity
  have htexts : ∀ key ∈ ["id", "name", "description"],
      isPresent (Json.get key identity) = true → (Json.get key identity).elements = [] := by
    intro key hkey _
    simp only [List.mem_cons, List.not_mem_nil, or_false] at hkey
    rcases hkey with rfl | rfl | rfl
    · exact elements_optText (.inr ⟨_, hid⟩)
    · exact elements_optText (.inr ⟨_, hname⟩)
    · exact elements_optText hdescription
  have howner : s ∈ Json.elementsOfFields (projectOwner (skips found) identity) ↔
      ∃ owner key, Json.get "owner" identity = .object owner ∧ key ∈ ["name", "url"] ∧
        skips found (childPath "serviceIdentity.owner".toList key) = false ∧
          s ∈ (Json.get key owner).elements := by
    unfold projectOwner
    split
    · rename_i owner howner
      rw [mem_elements_objectField, mem_elements_pick]
      constructor
      · rintro ⟨key, hkey, -, hskip, hs⟩
        exact ⟨owner, key, howner, hkey, hskip, hs⟩
      · rintro ⟨owner', key, howner', hkey, hskip, hs⟩
        cases howner.symm.trans howner'
        exact ⟨key, hkey, isPresent_of_elements hs, hskip, hs⟩
    · rename_i hnot
      refine iff_of_false List.not_mem_nil ?_
      rintro ⟨owner, key, howner, -⟩
      exact hnot owner howner
  have harea : s ∈ Json.elementsOfFields
      (pick isObject (skips found) "serviceIdentity".toList ["serviceArea"] identity) ↔
        ∃ area, Json.get "serviceArea" identity = .object area ∧
          skips found (childPath "serviceIdentity".toList "serviceArea") = false ∧
            s ∈ (Json.object area).elements := by
    rw [mem_elements_pick]
    constructor
    · rintro ⟨key, hkey, hkind, hskip, hs⟩
      cases List.mem_singleton.mp hkey
      cases hv : Json.get "serviceArea" identity with
      | object area =>
        rw [hv] at hs
        exact ⟨area, rfl, hskip, hs⟩
      | _ =>
        rw [hv] at hkind
        cases hkind
    · rintro ⟨area, harea, hskip, hs⟩
      refine ⟨_, List.mem_singleton.mpr rfl, ?_, hskip, ?_⟩
      · rw [harea]
        rfl
      · rw [harea]
        exact hs
  unfold projectIdentity
  dsimp only
  rw [hidentity]
  dsimp only
  rw [mem_elements_objectField, mem_elements_append, mem_elements_append, howner, harea]
  constructor
  · rintro ((hs | hs) | hs)
    · exact absurd hs (not_mem_elements_pick htexts)
    · exact ⟨identity, rfl, .inl hs⟩
    · exact ⟨identity, rfl, .inr hs⟩
  · rintro ⟨identity', hsame, hs⟩
    cases hsame
    cases hs with
    | inl howner => exact .inl (.inr howner)
    | inr harea => exact .inr harea

theorem mem_elements_projectPublic {policy : TrustPolicy} {canonical : Text} {profile : Fields}
    {head : ProfileHead} {found : List Text} {s : Text}
    (h : ProfileValid lib policy canonical profile head) :
    s ∈ (Json.object (projectPublic (skips found) profile)).elements ↔
      PublicItem profile found s := by
  have hdocument : ∀ j sp, s ∈ Json.elementsOfFields (projectSpecification (skips found) j sp) ↔
      ∃ key ∈ specificationKeys,
        skips found (childPath (itemPath "specifications".toList j) key) = false ∧
          s ∈ (Json.get key sp).elements := by
    intro j sp
    unfold projectSpecification
    dsimp only
    rw [mem_elements_append, mem_elements_pick]
    constructor
    · rintro (⟨key, hkey, -, hskip, hs⟩ | hs)
      · exact ⟨key, hkey, hskip, hs⟩
      · exact absurd hs (not_mem_elements_pick fun key _ hkind => elements_of_isText hkind)
    · rintro ⟨key, hkey, hskip, hs⟩
      exact .inl ⟨key, hkey, isPresent_of_elements hs, hskip, hs⟩
  have hversion : (Json.get "specificationVersion" profile).elements = [] :=
    elements_optText (.inr ⟨_, h.specVersion⟩)
  show s ∈ Json.elementsOfFields (projectPublic (skips found) profile) ↔ _
  unfold projectPublic
  rw [Json.elementsOfFields, hversion, List.nil_append, mem_elements_append, mem_elements_append,
    mem_elements_append, mem_elements_projectItems, mem_elements_projectItems,
    mem_elements_projectIdentity h]
  constructor
  · rintro (((hs | ⟨identity, hidentity, hs⟩) | ⟨i, service, hservice, hs⟩) | ⟨j, sp, hsp, hs⟩)
    · exact absurd hs (not_mem_elements_pick fun key _ hkind => elements_of_isNonemptyText hkind)
    · rcases hs with ⟨owner, key, howner, hkey, hskip, hs⟩ | ⟨area, harea, hskip, hs⟩
      · exact .owner hidentity howner hkey hskip hs
      · exact .serviceArea hidentity harea hskip hs
    · rcases (mem_elements_projectService (h.service hservice)).mp hs with
        ⟨hskip, hs⟩ | ⟨j, sp, key, hsp, hkey, hskip, hs⟩
      · exact .capability hservice hskip hs
      · exact .specification hservice hsp hkey hskip hs
    · obtain ⟨key, hkey, hskip, hs⟩ := (hdocument j sp).mp hs
      exact .document hsp hkey hskip hs
  · intro hitem
    cases hitem with
    | @capability i service hservice hskip hs =>
      exact .inl (.inr ⟨i, service, hservice,
        (mem_elements_projectService (h.service hservice)).mpr (.inl ⟨hskip, hs⟩)⟩)
    | @owner identity owner key hidentity howner hkey hskip hs =>
      exact .inl (.inl (.inr ⟨identity, hidentity, .inl ⟨owner, key, howner, hkey, hskip, hs⟩⟩))
    | @serviceArea identity area hidentity harea hskip hs =>
      exact .inl (.inl (.inr ⟨identity, hidentity, .inr ⟨area, harea, hskip, hs⟩⟩))
    | @specification i j service sp key hservice hsp hkey hskip hs =>
      exact .inl (.inr ⟨i, service, hservice, (mem_elements_projectService
        (h.service hservice)).mpr (.inr ⟨j, sp, key, hsp, hkey, hskip, hs⟩)⟩)
    | @document j sp key hsp hkey hskip hs =>
      exact .inr ⟨j, sp, hsp, (hdocument j sp).mpr ⟨key, hkey, hskip, hs⟩⟩

/-! ## 4. Rows -/

theorem mem_textsOf {items : List Json} {s : Text} : s ∈ textsOf items ↔ .text s ∈ items := by
  unfold textsOf
  rw [List.mem_filterMap]
  constructor
  · rintro ⟨v, hv, hsome⟩
    cases v with
    | text t =>
      cases hsome
      exact hv
    | _ => cases hsome
  · exact fun h => ⟨_, h, rfl⟩

theorem get_services_projectPublic {profile : Fields} {skip : Text → Bool} :
    itemsOf (Json.get "services" (projectPublic skip profile)) =
      projectItems (projectService skip) 0 (itemsOf (Json.get "services" profile)) := by
  have hversion : "services" ∉ [("specificationVersion",
      Json.get "specificationVersion" profile)].map Prod.fst :=
    fun h => absurd (show "services" = "specificationVersion" from List.mem_singleton.mp h)
      (by decide)
  have himplementation : "services" ∉ (pick isNonemptyText skip [] ["implementationVersion"]
      profile).map Prod.fst := fun h => absurd (keys_pick_subset _ h) (by decide)
  have hidentity : "services" ∉ (projectIdentity skip profile).map Prod.fst := by
    unfold projectIdentity
    dsimp only
    split
    · exact fun h => absurd (keys_objectField _ h) (by decide)
    · exact fun h => nomatch h
  have hdocuments : "services" ∉ (arrayField "specifications"
      (projectItems (projectSpecification skip) 0
        (itemsOf (Json.get "specifications" profile)))).map Prod.fst :=
    fun h => absurd (keys_arrayField _ h) (by decide)
  unfold projectPublic
  rw [← List.singleton_append, get_append_of_not_mem hversion, get_append_of_right hdocuments,
    List.append_assoc, get_append_of_not_mem himplementation, get_append_of_not_mem hidentity]
  exact itemsOf_get_arrayField _ _

theorem get_capabilities_projectService {skip : Text → Bool} {i : Nat} {service : Fields} :
    Json.get "capabilities" (projectService skip i service) =
      if isArray (Json.get "capabilities" service) &&
          !skip (childPath (itemPath "services".toList i) "capabilities") then
        Json.get "capabilities" service
      else .null := by
  unfold projectService
  dsimp only
  rw [get_append_of_right fun h => absurd (keys_arrayField _ h) (by decide),
    get_append_of_right fun h => absurd (keys_pick_subset _ h) (by decide),
    get_append_of_right fun h => absurd (keys_arrayField _ h) (by decide),
    get_append_of_not_mem fun h => absurd (keys_pick_subset _ h) (by decide)]
  exact get_pick List.mem_cons_self (List.nodup_singleton _)

/-- The capabilities of a projection are those of the services that are not skipped. -/
theorem mem_declaredCapabilities {profile : Fields} {found : List Text} {s : Text} :
    s ∈ declaredCapabilities (projectPublic (skips found) profile) ↔
      ∃ i service, (itemsOf (Json.get "services" profile))[i]? = some (.object service) ∧
        skips found (childPath (itemPath "services".toList i) "capabilities") = false ∧
          .text s ∈ itemsOf (Json.get "capabilities" service) := by
  unfold declaredCapabilities
  rw [get_services_projectPublic, List.mem_flatMap]
  constructor
  · rintro ⟨fields, hfields, hs⟩
    obtain ⟨i, service, hservice, -, hsame⟩ := mem_projectItems.mp (mem_objectsOf.mp hfields)
    rw [Nat.zero_add] at hsame
    cases hsame
    rw [mem_textsOf, get_capabilities_projectService] at hs
    split at hs
    · rename_i hpicked
      rw [Bool.and_eq_true, Bool.not_eq_true'] at hpicked
      exact ⟨i, service, hservice, hpicked.2, hs⟩
    · cases hs
  · rintro ⟨i, service, hservice, hskip, hs⟩
    have hget := @get_capabilities_projectService (skips found) i service
    rw [isArray_of_item hs, hskip] at hget
    have hsome : projectService (skips found) i service ≠ [] := by
      intro hnil
      rw [hnil] at hget
      rw [show Json.get "capabilities" service = Json.null from hget.symm] at hs
      cases hs
    refine ⟨projectService (skips found) i service, mem_objectsOf.mpr (mem_projectItems.mpr
      ⟨i, service, hservice, ?_, ?_⟩), ?_⟩
    · rw [Nat.zero_add]
      exact hsome
    · rw [Nat.zero_add]
    · rw [mem_textsOf, hget]
      exact hs

theorem capabilities_harmless {pub : Fields} {canonical version : Text} :
    (∀ row ∈ extractUcpCapabilities pub canonical version, ∀ s ∈ row.texts,
      isSecretValue lib s = false) ↔
      isSecretValue lib version = false ∧ ∀ s ∈ declaredCapabilities pub,
        isSecretValue lib (splitCapabilityId s canonical).1 = false ∧
          isSecretValue lib (splitCapabilityId s canonical).2 = false := by
  constructor
  · intro h
    refine ⟨h _ List.mem_cons_self version (by simp [capabilityRow, CapabilityRow.texts]),
      fun s hs => ?_⟩
    have hrow := h _ (List.mem_cons_of_mem _ (List.mem_map_of_mem hs))
    refine ⟨hrow _ ?_, hrow _ ?_⟩
    · simp [capabilityRow, CapabilityRow.texts]
    · simp [capabilityRow, CapabilityRow.texts]
  · rintro ⟨hversion, hdeclared⟩ row hrow s hs
    cases List.mem_cons.mp hrow with
    | inl heq =>
      subst heq
      simp only [CapabilityRow.texts, capabilityRow, List.mem_cons, List.not_mem_nil,
        or_false] at hs
      rcases hs with rfl | rfl | rfl | rfl | rfl | rfl
      · rfl
      · rfl
      · exact hversion
      · rfl
      · rfl
      · rfl
    | inr hmem =>
      obtain ⟨capability, hcapability, rfl⟩ := List.mem_map.mp hmem
      obtain ⟨hnamespace, hid⟩ := hdeclared capability hcapability
      simp only [CapabilityRow.texts, capabilityRow, List.mem_cons, List.not_mem_nil,
        or_false] at hs
      rcases hs with rfl | rfl | rfl | rfl | rfl | rfl
      · exact hnamespace
      · exact hid
      · rfl
      · rfl
      · rfl
      · rfl

/-- A profile is safe exactly where nothing of it leaks. -/
theorem safe_iff (lib : Library) (policy : TrustPolicy) (options : ParserOptions) (parsed : Json)
    (sourceUrl : Text) :
    Safe lib policy options parsed sourceUrl ↔ ¬ Leaks lib policy options parsed sourceUrl := by
  constructor
  · rintro hsafe ⟨⟨result, hresult⟩, canonical, profile, found, hcanonical, hnormalized, hfound,
      hleak⟩
    obtain ⟨hpublic, hreject⟩ := hsafe result hresult
    obtain ⟨canonical', profile', head, found', h⟩ := parse_ok.mp hresult
    cases hcanonical.symm.trans h.domain
    cases hnormalized.symm.trans h.normalized
    cases hfound.symm.trans h.scanned
    rw [h.result] at hpublic
    obtain ⟨hversion, hdeclared⟩ := capabilities_harmless.mp hpublic.capabilities
    cases hleak with
    | @version s hget hs =>
      cases h.valid.specVersion.symm.trans hget
      rw [hversion] at hs
      cases hs
    | @item s hitem hs =>
      have hnot := (harmless_object.mp hpublic.pub).2 s
        ((mem_elements_projectPublic h.valid).mpr hitem)
      rw [hnot] at hs
      cases hs
    | @row i service s hservice hskip hmem hs =>
      obtain ⟨hnamespace, hid⟩ :=
        hdeclared s (mem_declaredCapabilities.mpr ⟨i, service, hservice, hskip, hmem⟩)
      rw [hnamespace, hid] at hs
      cases hs with
      | inl hs => cases hs
      | inr hs => cases hs
    | @scanned s hrejects hmem hs =>
      have hharmless := hreject hrejects canonical _ hcanonical hnormalized
      rw [(harmless_object.mp hharmless).2 s hmem] at hs
      cases hs
  · intro hleaks result hresult
    obtain ⟨canonical, profile, head, found, h⟩ := parse_ok.mp hresult
    have hnone : ¬ Leak lib options.rejectOnSecret canonical profile found := by
      intro hleak
      exact hleaks ⟨⟨result, hresult⟩, canonical, profile, found, h.domain, h.normalized, h.scanned,
        hleak⟩
    have hroot := AgentCard.scanned_root h.scanned
    have hversion : isSecretValue lib head.specificationVersion = false := by
      rw [← Bool.not_eq_true]
      exact fun hs => hnone (.version h.valid.specVersion hs)
    rw [h.result]
    refine ⟨⟨?_, ?_, ?_⟩, fun hrejects canonical' normalized hcanonical hnormalized => ?_⟩
    · refine harmless_object.mpr
        ⟨projectPublic_clean hroot h.valid.specVersion hversion, fun s hs => ?_⟩
      rw [← Bool.not_eq_true]
      exact fun hsecret => hnone (.item ((mem_elements_projectPublic h.valid).mp hs) hsecret)
    · refine capabilities_harmless.mpr ⟨hversion, fun s hs => ?_⟩
      obtain ⟨i, service, hservice, hskip, hmem⟩ := mem_declaredCapabilities.mp hs
      rw [← Bool.not_eq_true, ← Bool.not_eq_true]
      exact ⟨fun hsecret => hnone (.row hservice hskip hmem (.inl hsecret)),
        fun hsecret => hnone (.row hservice hskip hmem (.inr hsecret))⟩
    · exact fun row hrow => nomatch hrow
    · have hfound := h.scanned
      rw [h.kept hrejects] at hfound
      cases hcanonical.symm.trans h.domain
      cases hnormalized.symm.trans h.normalized
      refine harmless_object.mpr ⟨clean_of_scanSecrets hfound, fun s hs => ?_⟩
      rw [← Bool.not_eq_true]
      exact fun hsecret => hnone (.scanned hrejects hs hsecret)

end KiwiCatalog.Discovery.Ucp

namespace KiwiCatalog.Discovery

open Url (Text)

/-! ## 5. Both parsers -/

/-- Of a document that is accepted no credential is published, and with `reject_on_secret` none is
accepted, exactly where none gets through in one of the listed ways. -/
theorem no_credential_published (lib : Library) (policy : TrustPolicy) (options : ParserOptions)
    (parsed : Json) (sourceUrl : Text) :
    (AgentCard.Safe lib policy options parsed sourceUrl ↔
      ¬ AgentCard.Leaks lib policy options parsed sourceUrl) ∧
    (Ucp.Safe lib policy options parsed sourceUrl ↔
      ¬ Ucp.Leaks lib policy options parsed sourceUrl) :=
  ⟨AgentCard.safe_iff lib policy options parsed sourceUrl,
    Ucp.safe_iff lib policy options parsed sourceUrl⟩

/-- `json.dumps` of a list of texts without characters to escape. -/
def dumpsTexts (items : List Json) : Text :=
  '[' :: (List.intercalate [','] (items.map fun item => '"' :: item.ownText.headD [] ++ ['"'])) ++
    [']']

/-- Python's tables and `json.dumps`, on what the documents below have in them. -/
def asciiLibrary : Library where
  tables :=
    { expandsToDelimiter := fun _ => false
      bracketedHost := fun _ => false
      lower := List.map Char.toLower }
  str := fun _ => []
  repr := fun s => "'" ++ String.ofList s ++ "'"
  dumps := fun v => dumpsTexts (itemsOf v)
  wordBeyondAscii := fun _ => false

def shopPolicy : TrustPolicy where
  allowedA2aVersions := ["1.0".toList]
  allowedUcpVersions := ["2026-01-11".toList]

def shopUrl : Text := "https://shop.example/.well-known/agent-card.json".toList

def leakedToken : Text := "ghp_abcdefghijklmnopqrstuvwx".toList

/-- A card with a token as a tag. -/
def taggedCard : Json :=
  .object [("name", .text "Shop".toList), ("url", .text "https://shop.example/a2a".toList),
    ("version", .text "1.0".toList),
    ("skills", .array [.object [("id", .text "orders".toList), ("name", .text "Orders".toList),
      ("tags", .array [.text leakedToken])]])]

theorem tagged_card_published :
    ¬ AgentCard.Safe asciiLibrary shopPolicy ⟨true, 100, 50000⟩ taggedCard shopUrl := by
  have hpublished : (AgentCard.parse asciiLibrary shopPolicy ⟨true, 100, 50000⟩ taggedCard
      shopUrl).toOption.any (fun result => (Json.object result.pub).texts.contains leakedToken) =
        true := by decide +kernel
  intro hsafe
  cases hparse : AgentCard.parse asciiLibrary shopPolicy ⟨true, 100, 50000⟩ taggedCard shopUrl with
  | error e =>
    rw [hparse] at hpublished
    cases hpublished
  | ok result =>
    rw [hparse] at hpublished
    have htoken := (hsafe result hparse).1.pub.texts leakedToken
      (List.contains_iff_mem.mp hpublished)
    rw [show isSecretValue asciiLibrary leakedToken = true by decide +kernel] at htoken
    cases htoken

end KiwiCatalog.Discovery
