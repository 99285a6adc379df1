import KiwiCatalog.Discovery.AgentCard
import KiwiCatalog.Discovery.Ucp

/-!
# Profile checks — what the parsers accept

Each check of the parsers as a statement about lookups in the profile: `validate` succeeds exactly
on these, so that another profile with the same lookups is accepted as well.
-/

set_option autoImplicit false

namespace KiwiCatalog.Discovery

open Checks (check bind_ok_iff check_ok_iff)
open Url (Text strip)

/-! ## 1. Typed fields -/

/-- A text, or nothing. -/
def OptText (v : Json) : Prop := v = .null ∨ ∃ s, v = .text s

/-- A list of texts. -/
def TextList (v : Json) : Prop := ∃ texts : List Text, v = .array (texts.map .text)

def OptTextList (v : Json) : Prop := v = .null ∨ TextList v

theorem requireMapping_ok {v : Json} {label : String} {fields : Fields} :
    requireMapping v label = .ok fields ↔ v = .object fields := by
  cases v <;> simp [requireMapping]

theorem requireStr_ok {fields : Fields} {key label : String} {s : Text} :
    requireStr fields key label = .ok s ↔ Json.get key fields = .text s := by
  unfold requireStr Json.get
  cases Json.field key fields with
  | none => simp
  | some v => cases v <;> simp

theorem getOptionalStr_ok {fields : Fields} {key label : String} :
    (∃ s, getOptionalStr fields key label = .ok s) ↔ OptText (Json.get key fields) := by
  unfold getOptionalStr OptText
  cases Json.get key fields <;> simp

theorem textItems_eq_some {items : List Json} {texts : List Text} :
    textItems items = some texts ↔ items = texts.map .text := by
  induction items generalizing texts with
  | nil => cases texts <;> simp [textItems]
  | cons v rest ih =>
    cases v with
    | text s => cases texts <;> simp [textItems, ih, and_comm]
    | _ => cases texts <;> simp [textItems]

theorem listOfStr_eq_some {v : Json} {texts : List Text} :
    listOfStr v = some texts ↔ v = .array (texts.map .text) := by
  cases v with
  | array items => simp [listOfStr, textItems_eq_some]
  | _ => simp [listOfStr]

theorem requireListOfStr_ok {fields : Fields} {key label : String} :
    (∃ texts, requireListOfStr fields key label = .ok texts) ↔
      TextList (Json.get key fields) := by
  unfold requireListOfStr TextList Json.get
  cases Json.field key fields with
  | none => simp
  | some v =>
    simp only [Option.getD_some, ← listOfStr_eq_some]
    cases listOfStr v <;> simp

theorem getOptionalListOfStr_ok {fields : Fields} {key label : String} :
    (∃ texts, getOptionalListOfStr fields key label = .ok texts) ↔
      OptTextList (Json.get key fields) := by
  unfold getOptionalListOfStr OptTextList TextList
  simp only [← listOfStr_eq_some]
  cases hv : Json.get key fields <;> simp <;> (cases listOfStr _ <;> simp)

/-! ## 2. Lists of objects -/

theorem validateItems_ok {validate : String → Fields → Except String Unit} {P : Fields → Prop}
    (h : ∀ label fields, validate label fields = .ok () ↔ P fields) {label : String} {i : Nat}
    {items : List Json} :
    validateItems label validate i items = .ok () ↔
      ∀ v ∈ items, ∃ fields, v = .object fields ∧ P fields := by
  induction items generalizing i with
  | nil => simp [validateItems]
  | cons v rest ih =>
    cases v with
    | object fields =>
      rw [validateItems, bind_ok_iff]
      simp [h, ih]
    | _ => simp [validateItems]

theorem validateObjects_ok {validate : String → Fields → Except String Unit} {P : Fields → Prop}
    (h : ∀ label fields, validate label fields = .ok () ↔ P fields) {label : String} {i : Nat}
    {items : List Json} :
    validateObjects label validate i items = .ok () ↔
      ∀ fields, .object fields ∈ items → P fields := by
  induction items generalizing i with
  | nil => simp [validateObjects]
  | cons v rest ih =>
    cases v with
    | object fields =>
      rw [validateObjects, bind_ok_iff]
      simp [h, ih]
    | _ =>
      rw [validateObjects, ih]
      · simp
      · simp

/-! ## 3. Agent cards -/

theorem pure_ok {α : Type} {a b : α} : (pure a : Except String α) = .ok b ↔ a = b := by
  show Except.ok a = .ok b ↔ a = b
  rw [Except.ok.injEq]

theorem exists_unit {p : Unit → Prop} : (∃ u, p u) ↔ p () :=
  ⟨fun ⟨_, h⟩ => h, fun h => ⟨(), h⟩⟩

namespace AgentCard

/-- A check of an object that may be absent. -/
def OptObject (P : Fields → Prop) (v : Json) : Prop :=
  v = .null ∨ ∃ fields, v = .object fields ∧ P fields

structure ProviderValid (provider : Fields) : Prop where
  organization : OptText (Json.get "organization" provider)
  url : OptText (Json.get "url" provider)

theorem validateProvider_ok {card : Fields} :
    validateProvider card = .ok () ↔ OptObject ProviderValid (Json.get "provider" card) := by
  unfold validateProvider OptObject
  cases Json.get "provider" card with
  | object provider =>
    simp only [bind_ok_iff, exists_and_right, getOptionalStr_ok, pure_ok, and_true]
    constructor
    · rintro ⟨horganization, hurl⟩
      exact .inr ⟨provider, rfl, horganization, hurl⟩
    · rintro (h | ⟨_, h, hvalid⟩)
      · cases h
      · cases h
        exact ⟨hvalid.organization, hvalid.url⟩
  | _ => simp

structure SkillValid (skill : Fields) (skillId : Text) : Prop where
  skillId : Json.get "id" skill = .text skillId
  name : ∃ s, Json.get "name" skill = .text s
  description : OptText (Json.get "description" skill)
  lists : ∀ key ∈ ["tags", "examples", "inputModes", "outputModes"],
    OptTextList (Json.get key skill)

theorem validateSkill_ok {skill : Fields} {label : String} {skillId : Text} :
    validateSkill skill label = .ok skillId ↔ SkillValid skill skillId := by
  unfold validateSkill
  simp only [bind_ok_iff, exists_and_right, getOptionalStr_ok, getOptionalListOfStr_ok,
    requireStr_ok, pure_ok]
  constructor
  · rintro ⟨_, hid, hname, hdescription, htags, hexamples, hinput, houtput, rfl⟩
    refine ⟨hid, hname, hdescription, ?_⟩
    simp [htags, hexamples, hinput, houtput]
  · intro h
    have hlists := h.lists
    simp only [List.mem_cons, List.not_mem_nil, or_false, forall_eq_or_imp, forall_eq] at hlists
    exact ⟨skillId, h.skillId, h.name, h.description, hlists.1, hlists.2.1, hlists.2.2.1,
      hlists.2.2.2, rfl⟩

/-- Skills with distinct ids. -/
def SkillsValid (items : List Json) (ids : List Text) : Prop :=
  ids.Nodup ∧ List.Forall₂ (fun v skillId => ∃ skill, v = .object skill ∧ SkillValid skill skillId)
    items ids

theorem validateSkillItems_ok {lib : Library} {i : Nat} {seen : List Text} {items : List Json} :
    validateSkillItems lib i seen items = .ok () ↔
      ∃ ids, SkillsValid items ids ∧ ∀ skillId ∈ ids, skillId ∉ seen := by
  induction items generalizing i seen with
  | nil =>
    rw [validateSkillItems]
    exact iff_of_true rfl ⟨[], ⟨List.nodup_nil, .nil⟩, fun _ h => nomatch h⟩
  | cons v rest ih =>
    cases v with
    | object skill =>
      rw [validateSkillItems]
      simp only [bind_ok_iff, validateSkill_ok, check_ok_iff, ih, Bool.not_eq_true',
        exists_and_left, exists_const]
      constructor
      · rintro ⟨skillId, hskill, hfresh, ids, ⟨hnodup, hitems⟩, hseen⟩
        have hnew : skillId ∉ seen := by simpa using hfresh
        have hapart : skillId ∉ ids := fun hmem => hseen skillId hmem List.mem_cons_self
        refine ⟨skillId :: ids, ⟨List.nodup_cons.mpr ⟨hapart, hnodup⟩,
          .cons ⟨skill, rfl, hskill⟩ hitems⟩, ?_⟩
        intro other hother
        cases List.mem_cons.mp hother with
        | inl heq => exact heq ▸ hnew
        | inr hmem => exact fun hin => hseen other hmem (List.mem_cons_of_mem skillId hin)
      · rintro ⟨ids, ⟨hnodup, hitems⟩, hseen⟩
        cases hitems with
        | @cons _ skillId _ ids hskill hitems =>
          obtain ⟨_, hsame, hskill⟩ := hskill
          cases hsame
          have hapart := List.nodup_cons.mp hnodup
          refine ⟨skillId, hskill, ?_, ids, ⟨hapart.2, hitems⟩, ?_⟩
          · simpa using hseen skillId List.mem_cons_self
          · intro other hother hin
            cases List.mem_cons.mp hin with
            | inl heq => exact hapart.1 (heq ▸ hother)
            | inr hmem => exact hseen other (List.mem_cons_of_mem skillId hother) hmem
    | _ =>
      rw [validateSkillItems]
      · refine iff_of_false (fun h => nomatch h) ?_
        rintro ⟨ids, ⟨-, hitems⟩, -⟩
        cases hitems with
        | cons hskill _ =>
          obtain ⟨_, hsame, _⟩ := hskill
          cases hsame
      · simp

theorem validateSkills_ok {lib : Library} {v : Json} :
    validateSkills lib v = .ok () ↔
      v = .null ∨ ∃ items ids, v = .array items ∧ SkillsValid items ids := by
  cases v with
  | array items => simp [validateSkills, validateSkillItems_ok]
  | _ => simp [validateSkills]

/-- A flag, or nothing. -/
def OptBool (v : Json) : Prop := v = .null ∨ ∃ b, v = .bool b

def FlagsValid (caps : Fields) : Prop :=
  ∀ key ∈ ["streaming", "pushNotifications", "stateTransitionHistory"], OptBool (Json.get key caps)

theorem validateFlag_ok {caps : Fields} {key : String} :
    validateFlag caps key = .ok () ↔ OptBool (Json.get key caps) := by
  unfold validateFlag OptBool
  cases Json.get key caps <;> simp

theorem validateCapabilities_ok {card : Fields} :
    validateCapabilities card = .ok () ↔ OptObject FlagsValid (Json.get "capabilities" card) := by
  unfold validateCapabilities OptObject FlagsValid
  cases Json.get "capabilities" card with
  | object caps => simp [bind_ok_iff, exists_unit, validateFlag_ok]
  | _ => simp

theorem validateAgents_ok {card : Fields} :
    validateAgents card = .ok () ↔
      OptObject (fun agents => OptTextList (Json.get "author" agents)) (Json.get "agents" card) := by
  unfold validateAgents OptObject
  cases Json.get "agents" card with
  | object agents =>
    simp only [bind_ok_iff, getOptionalListOfStr_ok, pure_ok, and_true]
    simp
  | _ => simp

/-- A card that passes the stages 1 to 3, with what they find in it. -/
structure CardValid (lib : Library) (policy : TrustPolicy) (canonical : Text) (card : Fields)
    (head : CardHead) : Prop where
  name : Json.get "name" card = .text head.name
  version : Json.get "version" card = .text head.version
  url : Json.get "url" card = .text head.url
  description : OptText (Json.get "description" card)
  documentationUrl : OptText (Json.get "documentationUrl" card)
  provider : OptObject ProviderValid (Json.get "provider" card)
  skills : Json.get "skills" card = .null ∨
    ∃ items ids, Json.get "skills" card = .array items ∧ SkillsValid items ids
  capabilities : OptObject FlagsValid (Json.get "capabilities" card)
  security : validateSecurity lib card = .ok ()
  modes : ∀ key ∈ ["defaultInputModes", "defaultOutputModes"], OptTextList (Json.get key card)
  agents : OptObject (fun agents => OptTextList (Json.get "author" agents)) (Json.get "agents" card)
  allowed : head.version ∈ policy.allowedA2aVersions
  named : strip head.name ≠ []
  web : isHttpUrl lib (.text head.url) = true
  authority : validateAuthority lib card canonical = .ok ()

theorem validate_ok {lib : Library} {policy : TrustPolicy} {canonical : Text} {card : Fields}
    {head : CardHead} :
    validate lib policy canonical card = .ok head ↔ CardValid lib policy canonical card head := by
  unfold validate
  simp only [bind_ok_iff, exists_and_right, getOptionalStr_ok, getOptionalListOfStr_ok,
    requireStr_ok, pure_ok, check_ok_iff, exists_unit, validateProvider_ok, validateSkills_ok,
    validateCapabilities_ok, validateAgents_ok]
  constructor
  · rintro ⟨name, hname, version, hversion, url, hurl, hdescription, hdocumentation, hprovider,
      hskills, hcapabilities, hsecurity, hinput, houtput, hagents, hallowed, hnamed, hweb,
      hauthority, rfl⟩
    refine ⟨hname, hversion, hurl, hdescription, hdocumentation, hprovider, hskills, hcapabilities,
      hsecurity, ?_, hagents, ?_, of_decide_eq_true hnamed, hweb, hauthority⟩
    · simp [hinput, houtput]
    · simpa using hallowed
  · intro h
    have hmodes := h.modes
    simp only [List.mem_cons, List.not_mem_nil, or_false, forall_eq_or_imp, forall_eq] at hmodes
    exact ⟨head.name, h.name, head.version, h.version, head.url, h.url, h.description,
      h.documentationUrl, h.provider, h.skills, h.capabilities, h.security, hmodes.1, hmodes.2,
      h.agents, by simpa using h.allowed, decide_eq_true h.named, h.web, h.authority, rfl⟩

end AgentCard

/-! ## 4. UCP profiles -/

namespace Ucp

/-- A list of objects that each pass a check. -/
def ObjectList (P : Fields → Prop) (v : Json) : Prop :=
  ∃ items, v = .array items ∧ ∀ w ∈ items, ∃ fields, w = .object fields ∧ P fields

def SomeObjects (P : Fields → Prop) (v : Json) : Prop := ObjectList P v ∧ v ≠ .array []

structure EndpointValid (endpoint : Fields) : Prop where
  uri : ∃ s, Json.get "uri" endpoint = .text s
  protocol : ∃ s, Json.get "protocol" endpoint = .text s
  version : OptText (Json.get "version" endpoint)
  access : OptText (Json.get "access" endpoint) ∨
    ∃ fields, Json.get "access" endpoint = .object fields

theorem validateAccess_ok {v : Json} {label : String} :
    validateAccess v label = .ok () ↔ OptText v ∨ ∃ fields, v = .object fields := by
  unfold validateAccess OptText
  cases v <;> simp

theorem validateEndpoint_ok {label : String} {endpoint : Fields} :
    validateEndpoint label endpoint = .ok () ↔ EndpointValid endpoint := by
  unfold validateEndpoint
  simp only [bind_ok_iff, exists_and_right, requireStr_ok, getOptionalStr_ok, validateAccess_ok]
  constructor
  · rintro ⟨huri, hprotocol, hversion, haccess⟩
    exact ⟨huri, hprotocol, hversion, haccess⟩
  · intro h
    exact ⟨h.uri, h.protocol, h.version, h.access⟩

theorem validateEndpoints_ok {v : Json} {label : String} :
    validateEndpoints v label = .ok () ↔ SomeObjects EndpointValid v := by
  unfold SomeObjects ObjectList
  cases v with
  | array items =>
    cases items with
    | nil => simp [validateEndpoints]
    | cons w rest =>
      rw [validateEndpoints, validateItems_ok @validateEndpoint_ok]
      simp
  | _ => simp [validateEndpoints]

structure SpecificationValid (sp : Fields) : Prop where
  specId : ∃ s, Json.get "id" sp = .text s
  label : ∃ s, Json.get "label" sp = .text s

theorem validateServiceSpecification_ok {label : String} {sp : Fields} :
    validateServiceSpecification label sp = .ok () ↔ SpecificationValid sp := by
  unfold validateServiceSpecification
  simp only [bind_ok_iff, exists_and_right, requireStr_ok, pure_ok, and_true]
  exact ⟨fun h => ⟨h.1, h.2⟩, fun h => ⟨h.specId, h.label⟩⟩

theorem validateServiceSpecifications_ok {v : Json} {label : String} :
    validateServiceSpecifications v label = .ok () ↔
      v = .null ∨ ObjectList SpecificationValid v := by
  unfold ObjectList
  cases v with
  | array items =>
    rw [validateServiceSpecifications, validateItems_ok @validateServiceSpecification_ok]
    simp
  | _ => simp [validateServiceSpecifications]

structure ServiceValid (service : Fields) : Prop where
  serviceId : ∃ s, Json.get "id" service = .text s
  type : ∃ s, Json.get "type" service = .text s
  capabilities : TextList (Json.get "capabilities" service)
  description : OptText (Json.get "description" service)
  endpoints : SomeObjects EndpointValid (Json.get "endpoints" service)
  documentationUri : OptText (Json.get "documentationUri" service)
  specifications : Json.get "specifications" service = .null ∨
    ObjectList SpecificationValid (Json.get "specifications" service)

theorem validateService_ok {label : String} {service : Fields} :
    validateService label service = .ok () ↔ ServiceValid service := by
  unfold validateService
  simp only [bind_ok_iff, exists_and_right, exists_unit, requireStr_ok, requireListOfStr_ok,
    getOptionalStr_ok, validateEndpoints_ok, validateServiceSpecifications_ok]
  constructor
  · rintro ⟨hid, htype, hcapabilities, hdescription, hendpoints, hdocumentation, hspecifications⟩
    exact ⟨hid, htype, hcapabilities, hdescription, hendpoints, hdocumentation, hspecifications⟩
  · intro h
    exact ⟨h.serviceId, h.type, h.capabilities, h.description, h.endpoints, h.documentationUri,
      h.specifications⟩

theorem validateServices_ok {v : Json} :
    validateServices v = .ok () ↔ SomeObjects ServiceValid v := by
  unfold SomeObjects ObjectList
  cases v with
  | array items =>
    cases items with
    | nil => simp [validateServices]
    | cons w rest =>
      rw [validateServices, validateItems_ok @validateService_ok]
      simp
  | _ => simp [validateServices]

structure DocumentValid (sp : Fields) : Prop extends SpecificationValid sp where
  openAPIDocument : OptText (Json.get "openAPIDocument" sp)

theorem validateSpecification_ok {label : String} {sp : Fields} :
    validateSpecification label sp = .ok () ↔ DocumentValid sp := by
  unfold validateSpecification
  simp only [bind_ok_iff, exists_and_right, requireStr_ok, getOptionalStr_ok, pure_ok, and_true]
  exact ⟨fun h => ⟨⟨h.1, h.2.1⟩, h.2.2⟩, fun h => ⟨h.specId, h.label, h.openAPIDocument⟩⟩

theorem validateSpecifications_ok {v : Json} :
    validateSpecifications v = .ok () ↔ v = .null ∨ ObjectList DocumentValid v := by
  unfold ObjectList
  cases v with
  | array items =>
    rw [validateSpecifications, validateItems_ok @validateSpecification_ok]
    simp
  | _ => simp [validateSpecifications]

/-- A profile that passes the stages 1 to 3, with what they find in it. -/
structure ProfileValid (lib : Library) (policy : TrustPolicy) (canonical : Text) (profile : Fields)
    (head : ProfileHead) : Prop where
  specVersion : Json.get "specificationVersion" profile = .text head.specificationVersion
  implementationVersion : OptText (Json.get "implementationVersion" profile)
  identity : ∃ identity, Json.get "serviceIdentity" profile = .object identity ∧
    Json.get "id" identity = .text head.identityId ∧
    Json.get "name" identity = .text head.identityName ∧
    OptText (Json.get "description" identity)
  services : SomeObjects ServiceValid (Json.get "services" profile)
  specifications : Json.get "specifications" profile = .null ∨
    ObjectList DocumentValid (Json.get "specifications" profile)
  allowed : head.specificationVersion ∈ policy.allowedUcpVersions
  identified : strip head.identityId ≠ []
  named : strip head.identityName ≠ []
  authority : validateAuthority lib profile canonical = .ok ()

theorem validate_ok {lib : Library} {policy : TrustPolicy} {canonical : Text} {profile : Fields}
    {head : ProfileHead} :
    validate lib policy canonical profile = .ok head ↔
      ProfileValid lib policy canonical profile head := by
  unfold validate
  simp only [bind_ok_iff, exists_and_right, requireStr_ok, requireMapping_ok, getOptionalStr_ok,
    pure_ok, check_ok_iff, exists_unit, validateServices_ok, validateSpecifications_ok]
  constructor
  · rintro ⟨version, hversion, himplementation, identity, hidentity, identityId, hid, identityName,
      hname, hdescription, hservices, hspecifications, hallowed, hidentified, hnamed, hauthority,
      rfl⟩
    exact ⟨hversion, himplementation, ⟨identity, hidentity, hid, hname, hdescription⟩, hservices,
      hspecifications, by simpa using hallowed, of_decide_eq_true hidentified,
      of_decide_eq_true hnamed, hauthority⟩
  · intro h
    obtain ⟨identity, hidentity, hid, hname, hdescription⟩ := h.identity
    exact ⟨head.specificationVersion, h.specVersion, h.implementationVersion, identity, hidentity,
      head.identityId, hid, head.identityName, hname, hdescription, h.services, h.specifications,
      by simpa using h.allowed, decide_eq_true h.identified, decide_eq_true h.named, h.authority,
      rfl⟩

end Ucp

end KiwiCatalog.Discovery
