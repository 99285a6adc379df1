import KiwiCatalog.Discovery.Projections

/-!
# Public credentials — what of a profile's credentials its parser lets through

The scan and the projection agree on every field: what one reports, or has a report below it, the
other leaves out.  The items of arrays are not scanned, the version is not asked for, and the rows
of capabilities have parts of texts that the scan has seen as a whole only.
-/

set_option autoImplicit false

namespace KiwiCatalog.Discovery

open Checks (bind_ok_iff check_ok_iff)
open Url (Text)

/-! ## 1. Credentials in a result -/

def CapabilityRow.texts (row : CapabilityRow) : List Text :=
  [row.namespace_, row.capabilityId, row.version, row.source, row.schemaUrl, row.specUrl]

def SkillRow.texts (row : SkillRow) : List Text :=
  [row.skillId, row.name, row.description, row.tagsJson, row.inputModesJson, row.outputModesJson]

/-- No credential and no secret name, at any place of a document. -/
structure Harmless (lib : Library) (v : Json) : Prop where
  texts : ∀ s ∈ v.texts, isSecretValue lib s = false
  names : ∀ n ∈ v.names, isSecretField n = false

/-- No credential in what is published, and no secret name in the projection. -/
structure NoCredential (lib : Library) (pub : Fields) (capabilities : List CapabilityRow)
    (skills : List SkillRow) : Prop where
  pub : Harmless lib (.object pub)
  capabilities : ∀ row ∈ capabilities, ∀ s ∈ row.texts, isSecretValue lib s = false
  skills : ∀ row ∈ skills, ∀ s ∈ row.texts, isSecretValue lib s = false

variable {lib : Library}

theorem harmless_object {fields : Fields} :
    Harmless lib (.object fields) ↔
      Clean lib (.object fields) ∧
        ∀ s ∈ (Json.object fields).elements, isSecretValue lib s = false := by
  constructor
  · intro h
    refine ⟨⟨h.names, fun s hs => ?_⟩, fun s hs => ?_⟩
    · exact h.texts s ((Json.mem_texts_iff _).mpr (.inr (.inl hs)))
    · exact h.texts s ((Json.mem_texts_iff _).mpr (.inr (.inr hs)))
  · rintro ⟨hclean, helements⟩
    refine ⟨fun s hs => ?_, hclean.names⟩
    rcases (Json.mem_texts_iff _).mp hs with hown | hmember | helement
    · cases hown
    · exact hclean.memberTexts s hmember
    · exact helements s helement

theorem elements_optText {v : Json} (h : OptText v) : v.elements = [] := by
  rcases h with rfl | ⟨s, rfl⟩ <;> rfl

theorem mem_elements_textList {v : Json} (h : OptTextList v) {s : Text} :
    s ∈ v.elements ↔ .text s ∈ itemsOf v := by
  rcases h with rfl | ⟨texts, rfl⟩
  · exact iff_of_false (fun h => nomatch h) (fun h => nomatch h)
  · rw [itemsOf, Json.elements, Json.mem_elementsOfItems]
    constructor
    · rintro ⟨v, hv, hs⟩
      obtain ⟨t, -, rfl⟩ := List.mem_map.mp hv
      cases hs with
      | inl hown => exact hown ▸ hv
      | inr hbelow => cases hbelow
    · exact fun hs => ⟨.text s, hs, .inl rfl⟩

theorem isArray_of_item {v w : Json} (h : w ∈ itemsOf v) : isArray v = true := by
  cases v with
  | array items => rfl
  | _ => cases h

theorem mem_objectsOf {items : List Json} {fields : Fields} :
    fields ∈ objectsOf items ↔ .object fields ∈ items := by
  unfold objectsOf
  rw [List.mem_filterMap]
  constructor
  · rintro ⟨v, hv, hsome⟩
    cases v with
    | object other =>
      cases hsome
      exact hv
    | _ => cases hsome
  · exact fun h => ⟨_, h, rfl⟩

/-! ## 2. Agent cards -/

namespace AgentCard

/-- The texts of the lists that the projection of a card takes over. -/
inductive PublicItem (card : Fields) (found : List Text) (s : Text) : Prop
  | mode {key : String} (hkey : key ∈ ["defaultInputModes", "defaultOutputModes"])
      (hskip : skips found key.toList = false) (h : .text s ∈ itemsOf (Json.get key card))
  | skill {i : Nat} {skill : Fields} {key : String}
      (hskill : (itemsOf (Json.get "skills" card))[i]? = some (.object skill))
      (hkey : key ∈ ["tags", "examples", "inputModes", "outputModes"])
      (hskip : skips found (childPath (itemPath "skills".toList i) key) = false)
      (h : .text s ∈ itemsOf (Json.get key skill))
  | author (hskip : skips found "agents.author".toList = false)
      (h : .text s ∈ itemsOf (Json.get "author" (fieldsOf (Json.get "agents" card))))

/-- How a credential of a card gets through. -/
inductive Leak (lib : Library) (reject : Bool) (card : Fields) (found : List Text) : Prop
  -- a version that the policy allows
  | version {s : Text} (h : Json.get "version" card = .text s) (hs : isSecretValue lib s = true)
  | item {s : Text} (h : PublicItem card found s) (hs : isSecretValue lib s = true)
  -- the JSON text of a list
  | column {i : Nat} {skill : Fields} {key : String}
      (hskill : (itemsOf (Json.get "skills" card))[i]? = some (.object skill))
      (hkey : key ∈ ["tags", "inputModes", "outputModes"])
      (hlist : isArray (Json.get key skill) = true)
      (hskip : skips found (childPath (itemPath "skills".toList i) key) = false)
      (hs : isSecretValue lib (lib.dumps (Json.get key skill)) = true)
  -- an item of any array, where the card was to be rejected for it
  | scanned {s : Text} (hreject : reject = true) (h : s ∈ (Json.object card).elements)
      (hs : isSecretValue lib s = true)

/-- No credential of an accepted card is published, and with `reject_on_secret` it has none. -/
def Safe (lib : Library) (policy : TrustPolicy) (options : ParserOptions) (parsed : Json)
    (sourceUrl : Text) : Prop :=
  ∀ result, parse lib policy options parsed sourceUrl = .ok result →
    NoCredential lib result.pub result.capabilities result.skills ∧
      (options.rejectOnSecret = true → Harmless lib parsed)

/-- The card is accepted, and a credential of it gets through. -/
def Leaks (lib : Library) (policy : TrustPolicy) (options : ParserOptions) (parsed : Json)
    (sourceUrl : Text) : Prop :=
  (∃ result, parse lib policy options parsed sourceUrl = .ok result) ∧
    ∃ card found, parsed = .object card ∧ scanSecrets lib parsed = .ok found ∧
      Leak lib options.rejectOnSecret card found

/-- What a successful run of the parser has gone through. -/
structure Parsed (lib : Library) (policy : TrustPolicy) (options : ParserOptions) (parsed : Json)
    (sourceUrl : Text) (result : AgentCardResult) (canonical : Text) (card : Fields)
    (head : CardHead) (found : List Text) : Prop where
  bounded : validateJsonBounds options.maxDepth options.maxNodes parsed = .ok ()
  domain : canonicalDomainOf lib sourceUrl = .ok canonical
  mapping : parsed = .object card
  valid : CardValid lib policy canonical card head
  scanned : scanSecrets lib (.object card) = .ok found
  kept : options.rejectOnSecret = true → found = []
  result : result =
    { sourceUrl := sourceUrl
      canonicalDomain := canonical
      name := head.name
      version := head.version
      pub := projectPublic lib (skips found) card
      capabilities :=
        extractAgentCardCapabilities (projectPublic lib (skips found) card) head.version
      skills := extractAgentCardSkills lib (projectPublic lib (skips found) card)
      secretsQuarantined := found }

theorem parse_ok {policy : TrustPolicy} {options : ParserOptions} {parsed : Json}
    {sourceUrl : Text} {result : AgentCardResult} :
    parse lib policy options parsed sourceUrl = .ok result ↔
      ∃ canonical card head found,
        Parsed lib policy options parsed sourceUrl result canonical card head found := by
  have hkept : ∀ found : List Text, (!(options.rejectOnSecret && !found.isEmpty)) = true ↔
      (options.rejectOnSecret = true → found = []) := by
    intro found
    cases options.rejectOnSecret <;> cases found <;> simp
  unfold parse
  simp only [bind_ok_iff, exists_unit, requireMapping_ok, validate_ok, check_ok_iff, hkept, pure_ok]
  constructor
  · rintro ⟨hbounds, canonical, hcanonical, card, hcard, head, hvalid, found, hfound, hnone, rfl⟩
    exact ⟨canonical, card, head, found, hbounds, hcanonical, hcard, hvalid, hfound, hnone, rfl⟩
  · rintro ⟨canonical, card, head, found, h⟩
    exact ⟨h.bounded, canonical, h.domain, card, h.mapping, head, h.valid, found, h.scanned,
      h.kept, h.result.symm⟩

/-! ### The projection -/

theorem scanned_root {card : Fields} {found : List Text}
    (h : scanSecrets lib (.object card) = .ok found) : Scanned lib found [] (.object card) :=
  ⟨[], found, h, List.Subset.refl _⟩

theorem projectSkill_clean {card : Fields} {found : List Text} {i : Nat} {skill : Fields}
    (h : Scanned lib found [] (.object card))
    (hskill : (itemsOf (Json.get "skills" card))[i]? = some (.object skill)) :
    CleanFields lib (projectSkill (skips found) i skill) := by
  have hscanned : Scanned lib found (itemPath "skills".toList i) (.object skill) :=
    h.items rfl hskill
  exact (pick_clean hscanned rfl (by decide)).append (pick_clean hscanned rfl (by decide))

/-- The projection is clean, but for the items of its lists. -/
theorem projectPublic_clean {card : Fields} {found : List Text}
    (h : Scanned lib found [] (.object card)) :
    Clean lib (.object (projectPublic lib (skips found) card)) := by
  have hprovider : CleanFields lib (projectProvider (skips found) card) := by
    unfold projectProvider
    split
    · rename_i provider hprovider
      have hscanned : Scanned lib found "provider".toList (.object provider) :=
        h.get rfl hprovider object_ne_null rfl
      exact objectField_clean rfl (pick_clean hscanned rfl (by decide))
    · exact .nil
  have hskills : CleanFields lib (projectSkills (skips found) card) :=
    arrayField_clean rfl (projectItems_clean fun i skill hskill => projectSkill_clean h hskill)
  have hcapabilities : CleanFields lib (projectCapabilities (skips found) card) := by
    unfold projectCapabilities
    split
    · rename_i caps hcaps
      have hscanned : Scanned lib found "capabilities".toList (.object caps) :=
        h.get rfl hcaps object_ne_null rfl
      exact objectField_clean rfl (pick_clean hscanned rfl (by decide))
    · exact .nil
  have hagents : CleanFields lib (projectAgents lib (skips found) card) := by
    unfold projectAgents
    split
    · split
      · exact .nil
      · rename_i items _ _
        -- its items are texts
        have hitems : Clean lib (.array (items.map fun a => .text (lib.strOf a))) := by
          rw [clean_array]
          intro v hv
          obtain ⟨a, -, rfl⟩ := List.mem_map.mp hv
          exact clean_leaf rfl rfl
        have hauthor : CleanFields lib
            [("author", .array (items.map fun a => .text (lib.strOf a)))] := by
          intro kv hkv
          rw [List.mem_singleton.mp hkv]
          exact ⟨isFlagged_of_ownText (show isSecretField "author" = false from rfl) rfl, hitems⟩
        intro kv hkv
        rw [List.mem_singleton.mp hkv]
        exact ⟨isFlagged_of_ownText (show isSecretField "agents" = false from rfl) rfl,
          clean_object.mpr hauthor⟩
    · exact .nil
  rw [clean_object]
  exact ((((pick_clean h rfl (by decide)).append hprovider).append hskills).append
    hcapabilities).append (pick_clean h rfl (by decide)) |>.append hagents

/-! ### Items of lists -/

theorem CardValid.skill {policy : TrustPolicy} {canonical : Text} {card skill : Fields}
    {head : CardHead} {i : Nat} (h : CardValid lib policy canonical card head)
    (hskill : (itemsOf (Json.get "skills" card))[i]? = some (.object skill)) :
    ∃ skillId, SkillValid skill skillId := by
  rcases h.skills with hnone | ⟨items, ids, hitems, hvalid⟩
  · rw [hnone] at hskill
    cases hskill
  · rw [hitems] at hskill
    obtain ⟨hlt, hget⟩ := List.getElem?_eq_some_iff.mp hskill
    have hlt' : i < ids.length := hvalid.2.length_eq ▸ hlt
    obtain ⟨fields, hsame, hfields⟩ := hvalid.2.get hlt hlt'
    rw [List.get_eq_getElem] at hsame
    cases hget.symm.trans hsame
    exact ⟨_, hfields⟩

theorem mem_elements_projectSkill {found : List Text} {i : Nat} {skill : Fields} {skillId s : Text}
    (h : SkillValid skill skillId) :
    s ∈ Json.elementsOfFields (projectSkill (skips found) i skill) ↔
      ∃ key ∈ ["tags", "examples", "inputModes", "outputModes"],
        skips found (childPath (itemPath "skills".toList i) key) = false ∧
          .text s ∈ itemsOf (Json.get key skill) := by
  unfold projectSkill
  rw [mem_elements_append, mem_elements_pick, mem_elements_pick]
  have htexts : ∀ key ∈ ["id", "name", "description"], (Json.get key skill).elements = [] := by
    intro key hkey
    simp only [List.mem_cons, List.not_mem_nil, or_false] at hkey
    rcases hkey with rfl | rfl | rfl
    · exact elements_optText (.inr ⟨_, h.skillId⟩)
    · exact elements_optText (.inr h.name)
    · exact elements_optText h.description
  constructor
  · rintro (⟨key, hkey, -, -, hs⟩ | ⟨key, hkey, -, hskip, hs⟩)
    · rw [htexts key hkey] at hs
      cases hs
    · exact ⟨key, hkey, hskip, (mem_elements_textList (h.lists key hkey)).mp hs⟩
  · rintro ⟨key, hkey, hskip, hs⟩
    exact .inr ⟨key, hkey, isArray_of_item hs, hskip,
      (mem_elements_textList (h.lists key hkey)).mpr hs⟩

theorem mem_elements_projectAgents {policy : TrustPolicy} {canonical : Text} {card : Fields}
    {head : CardHead} {found : List Text} {s : Text}
    (h : CardValid lib policy canonical card head) :
    s ∈ Json.elementsOfFields (projectAgents lib (skips found) card) ↔
      skips found "agents.author".toList = false ∧
        .text s ∈ itemsOf (Json.get "author" (fieldsOf (Json.get "agents" card))) := by
  -- the authors are texts, and `str` keeps them
  have hauthor : OptTextList (Json.get "author" (fieldsOf (Json.get "agents" card))) := by
    rcases h.agents with hnone | ⟨agents, hagents, hauthor⟩
    · rw [hnone]
      exact .inl rfl
    · rw [hagents]
      exact hauthor
  unfold projectAgents
  rcases hauthor with hnone | ⟨texts, htexts⟩
  · rw [hnone]
    exact iff_of_false (fun h => nomatch h) (fun h => nomatch h.2)
  · rw [htexts]
    dsimp only
    split
    · rename_i hskip
      rw [hskip]
      exact iff_of_false (fun h => nomatch h) (fun h => nomatch h.1)
    · rename_i hskip
      rw [Bool.not_eq_true] at hskip
      rw [hskip, List.map_map]
      simp [Json.elementsOfFields, Json.elements, Json.mem_elementsOfItems, itemsOf,
        Library.strOf]

theorem mem_elements_projectPublic {policy : TrustPolicy} {canonical : Text} {card : Fields}
    {head : CardHead} {found : List Text} {s : Text}
    (h : CardValid lib policy canonical card head) :
    s ∈ (Json.object (projectPublic lib (skips found) card)).elements ↔
      PublicItem card found s := by
  have htop : ∀ key ∈ ["name", "url", "version", "description", "documentationUrl"],
      (Json.get key card).elements = [] := by
    intro key hkey
    simp only [List.mem_cons, List.not_mem_nil, or_false] at hkey
    rcases hkey with rfl | rfl | rfl | rfl | rfl
    · exact elements_optText (.inr ⟨_, h.name⟩)
    · exact elements_optText (.inr ⟨_, h.url⟩)
    · exact elements_optText (.inr ⟨_, h.version⟩)
    · exact elements_optText h.description
    · exact elements_optText h.documentationUrl
  have hprovider : s ∉ Json.elementsOfFields (projectProvider (skips found) card) := by
    unfold projectProvider
    rcases h.provider with hnone | ⟨provider, hprovider, hvalid⟩
    · rw [hnone]
      exact List.not_mem_nil
    · rw [hprovider]
      dsimp only
      rw [mem_elements_objectField, mem_elements_pick]
      rintro ⟨key, hkey, -, -, hs⟩
      simp only [List.mem_cons, List.not_mem_nil, or_false] at hkey
      rcases hkey with rfl | rfl
      · rw [elements_optText hvalid.organization] at hs
        cases hs
      · rw [elements_optText hvalid.url] at hs
        cases hs
  have hcapabilities : s ∉ Json.elementsOfFields (projectCapabilities (skips found) card) := by
    unfold projectCapabilities
    split
    · rw [mem_elements_objectField, mem_elements_pick]
      rintro ⟨key, -, hbool, -, hs⟩
      revert hbool hs
      generalize Json.get key _ = v
      intro hbool hs
      cases v with
      | bool b => cases hs
      | _ => cases hbool
    · exact List.not_mem_nil
  show s ∈ Json.elementsOfFields (projectPublic lib (skips found) card) ↔ _
  unfold projectPublic projectSkills
  rw [mem_elements_append, mem_elements_append, mem_elements_append, mem_elements_append,
    mem_elements_append, mem_elements_pick, mem_elements_pick, mem_elements_projectItems,
    mem_elements_projectAgents h]
  constructor
  · rintro (((((⟨key, hkey, -, -, hs⟩ | hs) | ⟨i, skill, hskill, hs⟩) | hs) |
      ⟨key, hkey, -, hskip, hs⟩) | ⟨hskip, hs⟩)
    · rw [htop key hkey] at hs
      cases hs
    · exact absurd hs hprovider
    · obtain ⟨skillId, hvalid⟩ := h.skill hskill
      obtain ⟨key, hkey, hskip, hs⟩ := (mem_elements_projectSkill hvalid).mp hs
      exact .skill hskill hkey hskip hs
    · exact absurd hs hcapabilities
    · exact .mode hkey hskip ((mem_elements_textList (h.modes key hkey)).mp hs)
    · exact .author hskip hs
  · intro hitem
    cases hitem with
    | @mode key hkey hskip hs =>
      exact .inl (.inr ⟨key, hkey, isArray_of_item hs, hskip,
        (mem_elements_textList (h.modes key hkey)).mpr hs⟩)
    | @skill i skill key hskill hkey hskip hs =>
      obtain ⟨skillId, hvalid⟩ := h.skill hskill
      exact .inl (.inl (.inl (.inr ⟨i, skill, hskill,
        (mem_elements_projectSkill hvalid).mpr ⟨key, hkey, hskip, hs⟩⟩)))
    | author hskip hs => exact .inr ⟨hskip, hs⟩

/-! ### Rows -/

theorem capabilities_harmless {pub : Fields} {version : Text} :
    (∀ row ∈ extractAgentCardCapabilities pub version, ∀ s ∈ row.texts,
      isSecretValue lib s = false) ↔ isSecretValue lib version = false := by
  constructor
  · intro h
    exact h _ List.mem_cons_self version (by simp [capabilityRow, CapabilityRow.texts])
  · intro hversion
    -- the other columns are constants
    have hrow : ∀ capabilityId : String, isSecretValue lib capabilityId.toList = false →
        ∀ s ∈ (capabilityRow "a2a".toList capabilityId.toList version "agent_card".toList).texts,
          isSecretValue lib s = false := by
      intro capabilityId hid s hs
      simp only [CapabilityRow.texts, capabilityRow, List.mem_cons, List.not_mem_nil,
        or_false] at hs
      rcases hs with rfl | rfl | rfl | rfl | rfl | rfl
      · rfl
      · exact hid
      · exact hversion
      · rfl
      · rfl
      · rfl
    intro row hrows
    cases List.mem_cons.mp hrows with
    | inl heq =>
      rw [heq]
      exact hrow "agent_card" rfl
    | inr hmem =>
      obtain ⟨flag, hflag, rfl⟩ := List.mem_map.mp hmem
      apply hrow
      have hflag := (List.mem_filter.mp hflag).1
      simp only [cardFlags, List.mem_cons, List.not_mem_nil, or_false] at hflag
      rcases hflag with rfl | rfl | rfl <;> rfl

theorem get_skills_projectPublic {card : Fields} {skip : Text → Bool} :
    itemsOf (Json.get "skills" (projectPublic lib skip card)) =
      projectItems (projectSkill skip) 0 (itemsOf (Json.get "skills" card)) := by
  have hagents : "skills" ∉ (projectAgents lib skip card).map Prod.fst := by
    unfold projectAgents
    split
    · split
      · exact fun h => nomatch h
      · exact fun h => absurd (show "skills" = "agents" from List.mem_singleton.mp h) (by decide)
    · exact fun h => nomatch h
  have hcapabilities : "skills" ∉ (projectCapabilities skip card).map Prod.fst := by
    unfold projectCapabilities
    split
    · exact fun h => absurd (keys_objectField _ h) (by decide)
    · exact fun h => nomatch h
  have hprovider : "skills" ∉ (projectProvider skip card).map Prod.fst := by
    unfold projectProvider
    split
    · exact fun h => absurd (keys_objectField _ h) (by decide)
    · exact fun h => nomatch h
  have hmodes : "skills" ∉ (pick isArray skip [] ["defaultInputModes", "defaultOutputModes"]
      card).map Prod.fst := fun h => absurd (keys_pick_subset _ h) (by decide)
  have htop : "skills" ∉ (pick isPresent skip []
      ["name", "url", "version", "description", "documentationUrl"] card).map Prod.fst :=
    fun h => absurd (keys_pick_subset _ h) (by decide)
  unfold projectPublic
  rw [get_append_of_right hagents, get_append_of_right hmodes, get_append_of_right hcapabilities,
    List.append_assoc, get_append_of_not_mem htop, get_append_of_not_mem hprovider]
  exact itemsOf_get_arrayField _ _

/-- The rows of the skills, each of a skill of the card. -/
theorem mem_skillRows {card : Fields} {skip : Text → Bool} {row : SkillRow} :
    row ∈ extractAgentCardSkills lib (projectPublic lib skip card) ↔
      ∃ i skill, (itemsOf (Json.get "skills" card))[i]? = some (.object skill) ∧
        projectSkill skip i skill ≠ [] ∧ row = skillRow lib (projectSkill skip i skill) := by
  unfold extractAgentCardSkills
  rw [get_skills_projectPublic, List.mem_map]
  constructor
  · rintro ⟨fields, hfields, rfl⟩
    obtain ⟨i, skill, hskill, hsome, hsame⟩ :=
      mem_projectItems.mp (mem_objectsOf.mp hfields)
    rw [Nat.zero_add] at hsome hsame
    cases hsame
    exact ⟨i, skill, hskill, hsome, rfl⟩
  · rintro ⟨i, skill, hskill, hsome, rfl⟩
    refine ⟨_, mem_objectsOf.mpr (mem_projectItems.mpr ⟨i, skill, hskill, ?_, ?_⟩), rfl⟩
    · rw [Nat.zero_add]
      exact hsome
    · rw [Nat.zero_add]

/-- A text column of a skill is one of its clean texts. -/
theorem textColumn_harmless {found : List Text} {i : Nat} {skill : Fields} {key : String}
    (hclean : CleanFields lib (projectSkill (skips found) i skill))
    (htext : OptText (Json.get key skill)) :
    isSecretValue lib (textColumn lib key (projectSkill (skips found) i skill)) = false := by
  unfold textColumn
  split
  · rfl
  · rename_i v hfield
    have hmem := Json.mem_of_field hfield
    have hflag := (hclean _ hmem).1
    have hvalue : v = Json.get key skill ∧ v ≠ .null := by
      cases List.mem_append.mp hmem with
      | inl hpicked =>
        obtain ⟨-, hvalue, hkind, -⟩ := mem_pick.mp hpicked
        refine ⟨hvalue, fun hnull => ?_⟩
        rw [show (key, v).2 = v from rfl, hnull] at hkind
        cases hkind
      | inr hpicked =>
        obtain ⟨-, hvalue, hkind, -⟩ := mem_pick.mp hpicked
        refine ⟨hvalue, fun hnull => ?_⟩
        rw [show (key, v).2 = v from rfl, hnull] at hkind
        cases hkind
    rcases htext with hnull | ⟨s, hs⟩
    · exact absurd (hvalue.1.trans hnull) hvalue.2
    · rw [hvalue.1, hs] at hflag ⊢
      exact (isFlagged_eq_false.mp hflag).2 s rfl

theorem get_list_projectSkill {skip : Text → Bool} {i : Nat} {skill : Fields} {key : String}
    (hkey : key ∈ ["tags", "inputModes", "outputModes"]) :
    Json.get key (projectSkill skip i skill) =
      if isArray (Json.get key skill) && !skip (childPath (itemPath "skills".toList i) key) then
        Json.get key skill
      else .null := by
  unfold projectSkill
  have hnot : key ∉ ["id", "name", "description"] := by
    simp only [List.mem_cons, List.not_mem_nil, or_false] at hkey
    rcases hkey with rfl | rfl | rfl <;> decide
  rw [get_append_of_not_mem fun h => absurd (keys_pick_subset key h) hnot]
  apply get_pick
  · simp only [List.mem_cons, List.not_mem_nil, or_false] at hkey
    rcases hkey with rfl | rfl | rfl <;> decide
  · decide

theorem skills_harmless {policy : TrustPolicy} {canonical : Text} {card : Fields}
    {head : CardHead} {found : List Text} (h : CardValid lib policy canonical card head)
    (hscanned : Scanned lib found [] (.object card)) :
    (∀ row ∈ extractAgentCardSkills lib (projectPublic lib (skips found) card), ∀ s ∈ row.texts,
      isSecretValue lib s = false) ↔
      ∀ i skill, (itemsOf (Json.get "skills" card))[i]? = some (.object skill) →
        ∀ key ∈ ["tags", "inputModes", "outputModes"], isArray (Json.get key skill) = true →
          skips found (childPath (itemPath "skills".toList i) key) = false →
            isSecretValue lib (lib.dumps (Json.get key skill)) = false := by
  constructor
  · intro hrows i skill hskill key hkey hlist hskip
    have hget := @get_list_projectSkill (skips found) i skill key hkey
    rw [hlist, hskip] at hget
    have hsome : projectSkill (skips found) i skill ≠ [] := by
      intro hnil
      rw [hnil] at hget
      change Json.null = Json.get key skill at hget
      rw [← hget] at hlist
      cases hlist
    have hrow := hrows _ (mem_skillRows.mpr ⟨i, skill, hskill, hsome, rfl⟩)
    have hdumps : jsonDumps lib (Json.get key (projectSkill (skips found) i skill)) =
        lib.dumps (Json.get key skill) := by
      rw [hget]
      show jsonDumps lib (Json.get key skill) = _
      cases hv : Json.get key skill with
      | null =>
        rw [hv] at hlist
        cases hlist
      | _ => rfl
    rw [← hdumps]
    apply hrow
    simp only [List.mem_cons, List.not_mem_nil, or_false] at hkey
    rcases hkey with rfl | rfl | rfl <;> simp [SkillRow.texts, skillRow]
  · intro hlists row hrow s hs
    obtain ⟨i, skill, hskill, -, rfl⟩ := mem_skillRows.mp hrow
    obtain ⟨skillId, hvalid⟩ := h.skill hskill
    have hclean := projectSkill_clean hscanned hskill
    have hcolumn : ∀ key ∈ ["tags", "inputModes", "outputModes"],
        isSecretValue lib (jsonDumps lib (Json.get key (projectSkill (skips found) i skill))) =
          false := by
      intro key hkey
      rw [get_list_projectSkill hkey]
      split
      · rename_i hpicked
        rw [Bool.and_eq_true, Bool.not_eq_true'] at hpicked
        have hsafe := hlists i skill hskill key hkey hpicked.1 hpicked.2
        cases hv : Json.get key skill with
        | null => rfl
        | _ =>
          rw [hv] at hsafe
          exact hsafe
      · rfl
    simp only [SkillRow.texts, skillRow, List.mem_cons, List.not_mem_nil, or_false] at hs
    rcases hs with rfl | rfl | rfl | rfl | rfl | rfl
    · exact textColumn_harmless hclean (.inr ⟨_, hvalid.skillId⟩)
    · exact textColumn_harmless hclean (.inr hvalid.name)
    · exact textColumn_harmless hclean hvalid.description
    · exact hcolumn _ (by decide)
    · exact hcolumn _ (by decide)
    · exact hcolumn _ (by decide)

/-- A card is safe exactly where nothing of it leaks. -/
theorem safe_iff (lib : Library) (policy : TrustPolicy) (options : ParserOptions) (parsed : Json)
    (sourceUrl : Text) :
    Safe lib policy options parsed sourceUrl ↔ ¬ Leaks lib policy options parsed sourceUrl := by
  constructor
  · rintro hsafe ⟨⟨result, hresult⟩, card, found, hcard, hfound, hleak⟩
    obtain ⟨hpublic, hreject⟩ := hsafe result hresult
    obtain ⟨canonical, card', head, found', h⟩ := parse_ok.mp hresult
    cases hcard.symm.trans h.mapping
    rw [hcard] at hfound
    cases hfound.symm.trans h.scanned
    have hpub := (harmless_object.mp hpublic.pub)
    rw [h.result] at hpublic
    cases hleak with
    | @version s hversion hs =>
      cases h.valid.version.symm.trans hversion
      rw [capabilities_harmless.mp hpublic.capabilities] at hs
      cases hs
    | @item s hitem hs =>
      have hnot := (harmless_object.mp hpublic.pub).2 s
        ((mem_elements_projectPublic h.valid).mpr hitem)
      rw [hnot] at hs
      cases hs
    | @column i skill key hskill hkey hlist hskip hs =>
      have hnot := (skills_harmless h.valid (scanned_root h.scanned)).mp hpublic.skills i skill
        hskill key hkey hlist hskip
      rw [hnot] at hs
      cases hs
    | @scanned s hrejects hmem hs =>
      have hharmless := hreject hrejects
      rw [hcard] at hharmless
      rw [(harmless_object.mp hharmless).2 s hmem] at hs
      cases hs
  · intro hleaks result hresult
    obtain ⟨canonical, card, head, found, h⟩ := parse_ok.mp hresult
    have hnone : ¬ Leak lib options.rejectOnSecret card found := by
      intro hleak
      exact hleaks ⟨⟨result, hresult⟩, card, found, h.mapping, h.mapping ▸ h.scanned, hleak⟩
    have hroot := scanned_root h.scanned
    have hversion : isSecretValue lib head.version = false := by
      rw [← Bool.not_eq_true]
      exact fun hs => hnone (.version h.valid.version hs)
    rw [h.result]
    refine ⟨⟨?_, ?_, ?_⟩, fun hrejects => ?_⟩
    · refine harmless_object.mpr ⟨projectPublic_clean hroot, fun s hs => ?_⟩
      rw [← Bool.not_eq_true]
      exact fun hsecret => hnone (.item ((mem_elements_projectPublic h.valid).mp hs) hsecret)
    · exact capabilities_harmless.mpr hversion
    · refine (skills_harmless h.valid hroot).mpr fun i skill hskill key hkey hlist hskip => ?_
      rw [← Bool.not_eq_true]
      exact fun hsecret => hnone (.column hskill hkey hlist hskip hsecret)
    · have hfound := h.scanned
      rw [h.kept hrejects] at hfound
      rw [h.mapping]
      refine harmless_object.mpr ⟨clean_of_scanSecrets hfound, fun s hs => ?_⟩
      rw [← Bool.not_eq_true]
      exact fun hsecret => hnone (.scanned hrejects hs hsecret)

end AgentCard

end KiwiCatalog.Discovery
