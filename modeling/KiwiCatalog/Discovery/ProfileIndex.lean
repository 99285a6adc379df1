import KiwiCatalog.Catalog.CapabilityTable
import KiwiCatalog.Discovery.UcpCredentials

/-!
# Profile index — the rows of a verified pair of profiles

The rows of the card stand before those of the commerce profile, and nothing is left out: two
capabilities that split to one pair, or two skills without a public id, meet the primary key.
-/

set_option autoImplicit false

namespace KiwiCatalog.Discovery

open AgentCard (AgentCardResult SkillValid)
open Ucp (UcpProfileResult)
open Catalog
open Checks (check)
open Url (Text)

/-! ## 1. The index -/

structure ProfileUrls where
  agentCard : Text
  ucpProfile : Text

structure ProfileIndex where
  capabilities : List CapabilityRow
  skills : List SkillRow
  endpoints : List EndpointRow

def buildProfileIndex (card : AgentCardResult) (ucp : UcpProfileResult) (urls : ProfileUrls) :
    ProfileIndex where
  capabilities := card.capabilities ++ ucp.capabilities
  skills := card.skills ++ ucp.skills
  endpoints :=
    [⟨"agent_card".toList, urls.agentCard, "a2a".toList, card.version, 1⟩,
      ⟨"ucp_profile".toList, urls.ucpProfile, "ucp".toList, ucp.specificationVersion, 1⟩]

structure IndexTables where
  capabilities : List StoredCapability
  skills : List StoredSkill

/-- `_index_profiles`, but for the endpoints; `none` is the integrity error. -/
def indexProfiles (now catalogAgentId : String) (card : AgentCardResult) (ucp : UcpProfileResult)
    (urls : ProfileUrls) (tables : IndexTables) : Option IndexTables := do
  let index := buildProfileIndex card ucp urls
  let capabilities ← replaceCapabilities now catalogAgentId index.capabilities tables.capabilities
  let skills ← replaceSkills catalogAgentId index.skills tables.skills
  pure ⟨capabilities, skills⟩

/-! ## 2. What it is to leave -/

/-- One row for each pair and each skill id that occurs, and the rows of the other agents. -/
structure Indexed (catalogAgentId : String) (card : AgentCardResult) (ucp : UcpProfileResult)
    (tables after : IndexTables) : Prop where
  capabilities : ∀ pair : Text × Text,
    after.capabilities.countP
        (fun stored => decide (capabilityKey stored = (catalogAgentId, pair))) =
      if pair ∈ (card.capabilities ++ ucp.capabilities).map pairOf then 1 else 0
  skills : ∀ skillId : Text,
    after.skills.countP (fun stored => decide (skillKey stored = (catalogAgentId, skillId))) =
      if skillId ∈ card.skills.map SkillRow.skillId then 1 else 0
  others : ∀ other, other ≠ catalogAgentId →
    after.capabilities.filter (fun stored => stored.catalogAgentId == other) =
        tables.capabilities.filter (fun stored => stored.catalogAgentId == other) ∧
      after.skills.filter (fun stored => stored.catalogAgentId == other) =
        tables.skills.filter fun stored => stored.catalogAgentId == other

/-- The pairs of the markers and of the flags that a card raises. -/
def markerPairs (card : Fields) : List (Text × Text) :=
  ("ucp".toList, "profile".toList) :: ("a2a".toList, "agent_card".toList) ::
    (cardFlags.filter fun flag =>
      isTrue (Json.get flag.1 (fieldsOf (Json.get "capabilities" card)))).map
        fun flag => ("a2a".toList, flag.2.toList)

/-- The skills of a card whose id is empty, or left out. -/
def namelessSkills (lib : Library) (card : Fields) : List Fields :=
  (objectsOf (itemsOf (Json.get "skills" card))).filter fun skill => textColumn lib "id" skill = []

/-- The declared capabilities split to pairs that differ, from each other and from the markers, and
no two skills lack an id. -/
structure Indexable (lib : Library) (card : AgentCardResult) (ucp : UcpProfileResult) : Prop where
  distinct : ((declaredCapabilities ucp.pub).map fun capability =>
    splitCapabilityId capability ucp.canonicalDomain).Nodup
  unmarked : ∀ capability ∈ declaredCapabilities ucp.pub,
    splitCapabilityId capability ucp.canonicalDomain ∉ markerPairs card.pub
  named : (namelessSkills lib card.pub).length ≤ 1

/-! ## 3. The keys of the rows -/

theorem card_pairs (pub : Fields) (version : Text) :
    (("ucp".toList, "profile".toList) ::
      (extractAgentCardCapabilities pub version).map pairOf) = markerPairs pub := by
  simp [extractAgentCardCapabilities, markerPairs, pairOf, capabilityRow, Function.comp_def]

theorem markerPairs_nodup (pub : Fields) : (markerPairs pub).Nodup := by
  have hall : (("ucp".toList, "profile".toList) :: ("a2a".toList, "agent_card".toList) ::
      cardFlags.map fun flag => ("a2a".toList, flag.2.toList)).Nodup := by decide
  refine hall.sublist (.cons_cons _ (.cons_cons _ ?_))
  exact List.filter_sublist.map _

theorem ucp_pairs (pub : Fields) (canonical version : Text) :
    (extractUcpCapabilities pub canonical version).map pairOf =
      ("ucp".toList, "profile".toList) :: (declaredCapabilities pub).map fun capability =>
        splitCapabilityId capability canonical := by
  simp [extractUcpCapabilities, pairOf, capabilityRow, Function.comp_def]

/-- The pairs of both documents differ where the declared ones do. -/
theorem pairs_nodup {pub profile : Fields} {version canonical specificationVersion : Text} :
    ((extractAgentCardCapabilities pub version ++
        extractUcpCapabilities profile canonical specificationVersion).map pairOf).Nodup ↔
      ((declaredCapabilities profile).map fun capability =>
          splitCapabilityId capability canonical).Nodup ∧
        ∀ capability ∈ declaredCapabilities profile,
          splitCapabilityId capability canonical ∉ markerPairs pub := by
  rw [List.map_append, ucp_pairs, List.nodup_middle, ← List.cons_append, card_pairs,
    List.nodup_append]
  constructor
  · rintro ⟨-, hnodup, hapart⟩
    exact ⟨hnodup, fun capability hcapability hmarked =>
      hapart _ hmarked _ (List.mem_map_of_mem hcapability) rfl⟩
  · rintro ⟨hnodup, hunmarked⟩
    refine ⟨markerPairs_nodup pub, hnodup, ?_⟩
    intro pair hpair other hother heq
    obtain ⟨capability, hcapability, rfl⟩ := List.mem_map.mp hother
    exact hunmarked capability hcapability (heq ▸ hpair)

/-- The id of a projected skill: its own, or none where that was left out. -/
theorem skillId_projectSkill {lib : Library} {skip : Text → Bool} {i : Nat} {skill : Fields}
    {skillId : Text} (h : SkillValid skill skillId) :
    textColumn lib "id" (AgentCard.projectSkill skip i skill) =
      if skip (childPath (itemPath "skills".toList i) "id") then [] else skillId := by
  have hlists : Json.field "id" (pick isArray skip (itemPath "skills".toList i)
      ["tags", "examples", "inputModes", "outputModes"] skill) = none :=
    Json.field_eq_none fun hmem => absurd (keys_pick_subset _ hmem) (by decide)
  unfold textColumn AgentCard.projectSkill
  dsimp only
  rw [Json.field_append, hlists, Option.or_none]
  by_cases hskip : skip (childPath (itemPath "skills".toList i) "id") = true
  · have hnone : Json.field "id" (pick isPresent skip (itemPath "skills".toList i)
        ["id", "name", "description"] skill) = none := by
      apply Json.field_eq_none
      intro hmem
      obtain ⟨kv, hkv, hid⟩ := List.mem_map.mp hmem
      obtain ⟨-, -, hpicked⟩ := mem_pick.mp hkv
      rw [hid, hskip] at hpicked
      cases hpicked.2
    rw [hnone, if_pos hskip]
  · have hget : Json.get "id" (pick isPresent skip (itemPath "skills".toList i)
        ["id", "name", "description"] skill) = .text skillId := by
      rw [get_pick (by decide) (by decide), h.skillId, if_pos]
      rw [Bool.eq_false_iff.mpr hskip]
      rfl
    rw [Json.field_of_get hget (by simp), if_neg hskip]
    rfl

/-- The ids that are published are among those that the parser has found to differ. -/
theorem skillIds_sublist {lib : Library} {skip : Text → Bool} {i : Nat} {items : List Json}
    {ids : List Text} (h : List.Forall₂ (fun v skillId => ∃ skill, v = .object skill ∧
      SkillValid skill skillId) items ids) :
    List.Sublist (((objectsOf (projectItems (AgentCard.projectSkill skip) i items)).map
      (textColumn lib "id")).filter fun skillId => skillId ≠ []) ids := by
  induction h generalizing i with
  | nil => exact .slnil
  | @cons v skillId items ids hskill _ ih =>
    obtain ⟨skill, rfl, hskill⟩ := hskill
    rw [projectItems]
    split
    · exact .cons _ ih
    · show List.Sublist (((AgentCard.projectSkill skip i skill ::
        objectsOf (projectItems (AgentCard.projectSkill skip) (i + 1) items)).map
          (textColumn lib "id")).filter fun skillId => skillId ≠ []) (skillId :: ids)
      rw [List.map_cons, skillId_projectSkill hskill, List.filter_cons]
      by_cases hskip : skip (childPath (itemPath "skills".toList i) "id") = true
      · rw [if_pos hskip, if_neg (by simp)]
        exact .cons _ ih
      · rw [if_neg hskip]
        split
        · exact .cons_cons _ ih
        · exact .cons _ ih

/-- Where all but the empty texts differ, a list has no text twice unless it has two empty ones. -/
theorem nodup_iff_empty {texts : List Text}
    (h : (texts.filter fun s => s ≠ []).Nodup) :
    texts.Nodup ↔ (texts.filter fun s => s = []).length ≤ 1 := by
  rw [List.nodup_iff_count_le_one]
  have hempty : texts.count [] = (texts.filter fun s => s = []).length := by
    rw [List.count, List.countP_eq_length_filter]
    exact congrArg List.length (List.filter_congr fun s _ => beq_eq_decide s [])
  constructor
  · intro hcount
    rw [← hempty]
    exact hcount []
  · intro hlength s
    by_cases hs : s = []
    · rw [hs, hempty]
      exact hlength
    · have hkept : (texts.filter fun s => s ≠ []).count s = texts.count s :=
        List.count_filter (decide_eq_true hs)
      rw [← hkept]
      exact List.nodup_iff_count_le_one.mp h s

theorem skills_nodup {lib : Library} {policy : TrustPolicy} {options : ParserOptions}
    {parsed : Json} {sourceUrl : Text} {card : AgentCardResult}
    (h : AgentCard.parse lib policy options parsed sourceUrl = .ok card) :
    (card.skills.map SkillRow.skillId).Nodup ↔ (namelessSkills lib card.pub).length ≤ 1 := by
  obtain ⟨canonical, fields, head, found, h⟩ := AgentCard.parse_ok.mp h
  have hids : card.skills.map SkillRow.skillId =
      (objectsOf (itemsOf (Json.get "skills" card.pub))).map (textColumn lib "id") := by
    rw [h.result]
    show ((objectsOf _).map (skillRow lib)).map SkillRow.skillId = _
    rw [List.map_map]
    rfl
  have hnamed : ((card.skills.map SkillRow.skillId).filter fun s => s ≠ []).Nodup := by
    rw [hids, h.result, AgentCard.get_skills_projectPublic]
    rcases h.valid.skills with hnone | ⟨items, ids, hitems, hvalid⟩
    · rw [hnone]
      exact List.nodup_nil
    · rw [hitems]
      exact hvalid.1.sublist (skillIds_sublist hvalid.2)
  rw [nodup_iff_empty hnamed, hids, List.filter_map, List.length_map]
  rfl

/-! ## 4. Indexing -/

/-- The index is written exactly where neither primary key stands in the way. -/
theorem indexProfiles_eq_some {now catalogAgentId : String} {card : AgentCardResult}
    {ucp : UcpProfileResult} {urls : ProfileUrls} {tables after : IndexTables} :
    indexProfiles now catalogAgentId card ucp urls tables = some after ↔
      ((card.capabilities ++ ucp.capabilities).map pairOf).Nodup ∧
        ((card.skills ++ ucp.skills).map SkillRow.skillId).Nodup ∧
          after =
            ⟨Table.deleteWhere (fun stored => stored.catalogAgentId == catalogAgentId)
                tables.capabilities ++
              (card.capabilities ++ ucp.capabilities).map fun row => ⟨catalogAgentId, row, now⟩,
            Table.deleteWhere (fun stored => stored.catalogAgentId == catalogAgentId)
                tables.skills ++
              (card.skills ++ ucp.skills).map fun row => ⟨catalogAgentId, row⟩⟩ := by
  unfold indexProfiles
  show ((replaceCapabilities now catalogAgentId (card.capabilities ++ ucp.capabilities)
      tables.capabilities).bind fun capabilities =>
    (replaceSkills catalogAgentId (card.skills ++ ucp.skills) tables.skills).bind fun skills =>
      some (IndexTables.mk capabilities skills)) = some after ↔ _
  simp only [Option.bind_eq_some_iff, replaceCapabilities_eq_some, replaceSkills_eq_some]
  constructor
  · rintro ⟨capabilities, ⟨hpairs, rfl⟩, skills, ⟨hids, rfl⟩, hafter⟩
    exact ⟨hpairs, hids, (Option.some.inj hafter).symm⟩
  · rintro ⟨hpairs, hids, rfl⟩
    exact ⟨_, ⟨hpairs, rfl⟩, _, ⟨hids, rfl⟩, rfl⟩

/-- Among rows whose keys differ, a key occurs once or not at all. -/
theorem countP_key {ρ κ : Type} [DecidableEq κ] {key : ρ → κ} {rows : List ρ}
    (h : (rows.map key).Nodup) (k : κ) [Decidable (k ∈ rows.map key)] :
    rows.countP (fun r => decide (key r = k)) = if k ∈ rows.map key then 1 else 0 := by
  have hcount : rows.countP (fun r => decide (key r = k)) = (rows.map key).count k := by
    rw [List.count, List.countP_map]
    exact List.countP_congr fun r _ => by simp
  rw [hcount]
  split
  · rename_i hmem
    exact List.count_eq_one_of_mem h hmem
  · rename_i hmem
    exact List.count_eq_zero_of_not_mem hmem

theorem indexed_of_some {now catalogAgentId : String} {card : AgentCardResult}
    {ucp : UcpProfileResult} {urls : ProfileUrls} {tables after : IndexTables}
    (hskills : ucp.skills = [])
    (h : indexProfiles now catalogAgentId card ucp urls tables = some after) :
    Indexed catalogAgentId card ucp tables after := by
  obtain ⟨hpairs, hids, rfl⟩ := indexProfiles_eq_some.mp h
  rw [hskills, List.append_nil] at hids
  refine ⟨fun pair => ?_, fun skillId => ?_, fun other hother => ⟨?_, ?_⟩⟩
  · exact (countP_replaced capabilityKey pairOf (fun row => ⟨catalogAgentId, row, now⟩)
      (fun _ => rfl) pair).trans (countP_key hpairs pair)
  · dsimp only
    rw [hskills, List.append_nil]
    exact (countP_replaced skillKey SkillRow.skillId (fun row => ⟨catalogAgentId, row⟩)
      (fun _ => rfl) skillId).trans (countP_key hids skillId)
  · exact (filter_replaced StoredCapability.catalogAgentId
      (fun row => ⟨catalogAgentId, row, now⟩) (fun _ => rfl) other).trans (if_neg hother)
  · exact (filter_replaced StoredSkill.catalogAgentId (fun row => ⟨catalogAgentId, row⟩)
      (fun _ => rfl) other).trans (if_neg hother)

/-- An accepted pair of profiles is indexed, one row for each pair and each id, exactly where its
declared capabilities and its ids are apart. -/
theorem indexed_iff (lib : Library) (cardPolicy ucpPolicy : TrustPolicy)
    (cardOptions ucpOptions : ParserOptions) (parsedCard parsedUcp : Json) (cardUrl ucpUrl : Text)
    (card : AgentCardResult) (ucp : UcpProfileResult)
    (hcard : AgentCard.parse lib cardPolicy cardOptions parsedCard cardUrl = .ok card)
    (hucp : Ucp.parse lib ucpPolicy ucpOptions parsedUcp ucpUrl = .ok ucp)
    (now catalogAgentId : String) (urls : ProfileUrls) (tables : IndexTables) :
    (∃ after, indexProfiles now catalogAgentId card ucp urls tables = some after ∧
        Indexed catalogAgentId card ucp tables after) ↔
      Indexable lib card ucp := by
  have hids := skills_nodup hcard
  obtain ⟨cardCanonical, cardFields, cardHead, cardFound, hcard⟩ := AgentCard.parse_ok.mp hcard
  obtain ⟨canonical, profile, head, found, hucp⟩ := Ucp.parse_ok.mp hucp
  have hskills : ucp.skills = [] := by
    rw [hucp.result]
    rfl
  have hpairs : ((card.capabilities ++ ucp.capabilities).map pairOf).Nodup ↔
      ((declaredCapabilities ucp.pub).map fun capability =>
          splitCapabilityId capability ucp.canonicalDomain).Nodup ∧
        ∀ capability ∈ declaredCapabilities ucp.pub,
          splitCapabilityId capability ucp.canonicalDomain ∉ markerPairs card.pub := by
    rw [hcard.result, hucp.result]
    exact pairs_nodup
  constructor
  · rintro ⟨after, hsome, -⟩
    obtain ⟨hrows, hskillIds, -⟩ := indexProfiles_eq_some.mp hsome
    rw [hskills, List.append_nil] at hskillIds
    obtain ⟨hdistinct, hunmarked⟩ := hpairs.mp hrows
    exact ⟨hdistinct, hunmarked, hids.mp hskillIds⟩
  · intro h
    have hnodup : ((card.skills ++ ucp.skills).map SkillRow.skillId).Nodup := by
      rw [hskills, List.append_nil]
      exact hids.mpr h.named
    have hwritten : ∃ after, indexProfiles now catalogAgentId card ucp urls tables = some after :=
      ⟨_, indexProfiles_eq_some.mpr ⟨hpairs.mpr ⟨h.distinct, h.unmarked⟩, hnodup, rfl⟩⟩
    obtain ⟨after, hsome⟩ := hwritten
    exact ⟨after, hsome, indexed_of_some hskills hsome⟩

/-! ## 5. Two shops -/

/-- A card with one skill, that streams. -/
def skilledCard : Json :=
  .object [("name", .text "Shop".toList), ("url", .text "https://shop.example/a2a".toList),
    ("version", .text "1.0".toList),
    ("skills", .array [.object [("id", .text "orders".toList), ("name", .text "Orders".toList)]]),
    ("capabilities", .object [("streaming", .bool true)])]

def shopService (id : String) (capability : String) : Json :=
  .object [("id", .text id.toList), ("type", .text "commerce".toList),
    ("capabilities", .array [.text capability.toList]),
    ("endpoints", .array [.object [("uri", .text "https://shop.example/a2a".toList),
      ("protocol", .text "a2a".toList)]])]

/-- A profile of two services, with one capability each. -/
def shopProfile (first second : String) : Json :=
  .object [("specificationVersion", .text "2026-01-11".toList),
    ("serviceIdentity", .object [("id", .text "shop".toList), ("name", .text "Shop".toList)]),
    ("services", .array [shopService "orders" first, shopService "returns" second])]

def profileUrl : Text := "https://shop.example/.well-known/ucp".toList

theorem parsed_pair {policy : TrustPolicy} {options : ParserOptions} {parsedCard parsedUcp : Json}
    {p : AgentCardResult → UcpProfileResult → Bool}
    (h : (AgentCard.parse asciiLibrary policy options parsedCard shopUrl).toOption.any (fun card =>
      (Ucp.parse asciiLibrary policy options parsedUcp profileUrl).toOption.any (p card)) = true) :
    ∃ card ucp, AgentCard.parse asciiLibrary policy options parsedCard shopUrl = .ok card ∧
      Ucp.parse asciiLibrary policy options parsedUcp profileUrl = .ok ucp ∧ p card ucp = true := by
  cases hcard : AgentCard.parse asciiLibrary policy options parsedCard shopUrl with
  | error message =>
    rw [hcard] at h
    cases h
  | ok card =>
    cases hucp : Ucp.parse asciiLibrary policy options parsedUcp profileUrl with
    | error message =>
      rw [hcard, hucp] at h
      cases h
    | ok ucp =>
      rw [hcard, hucp] at h
      exact ⟨card, ucp, rfl, rfl, h⟩

theorem indexed_iff_shop :
    ∃ card ucp,
      AgentCard.parse asciiLibrary shopPolicy ⟨true, 100, 50000⟩ skilledCard shopUrl = .ok card ∧
      Ucp.parse asciiLibrary shopPolicy ⟨true, 100, 50000⟩ (shopProfile "orders" "returns")
        profileUrl = .ok ucp ∧
      ∃ after, indexProfiles "2026-01-11T00:00:00Z" "cagt_shop" card ucp ⟨shopUrl, profileUrl⟩
          ⟨[], []⟩ = some after ∧ Indexed "cagt_shop" card ucp ⟨[], []⟩ after := by
  have hboth := @parsed_pair shopPolicy ⟨true, 100, 50000⟩ skilledCard
    (shopProfile "orders" "returns") (fun card ucp =>
      decide ((declaredCapabilities ucp.pub).map fun capability =>
          splitCapabilityId capability ucp.canonicalDomain).Nodup &&
        (declaredCapabilities ucp.pub).all (fun capability =>
          decide (splitCapabilityId capability ucp.canonicalDomain ∉ markerPairs card.pub)) &&
        decide ((namelessSkills asciiLibrary card.pub).length ≤ 1)) (by decide +kernel)
  obtain ⟨card, ucp, hcard, hucp, happart⟩ := hboth
  rw [Bool.and_eq_true, Bool.and_eq_true, decide_eq_true_eq, decide_eq_true_eq,
    List.all_eq_true] at happart
  refine ⟨card, ucp, hcard, hucp, ?_⟩
  refine (indexed_iff asciiLibrary shopPolicy shopPolicy ⟨true, 100, 50000⟩ ⟨true, 100, 50000⟩
    skilledCard (shopProfile "orders" "returns") shopUrl profileUrl card ucp hcard hucp
    "2026-01-11T00:00:00Z" "cagt_shop" ⟨shopUrl, profileUrl⟩ ⟨[], []⟩).mpr ?_
  exact ⟨happart.1.1, fun capability hcapability =>
    of_decide_eq_true (happart.1.2 capability hcapability), happart.2⟩

/-- Two services that declare one capability end the indexing. -/
theorem repeated_capability_not_indexed :
    ∃ card ucp,
      AgentCard.parse asciiLibrary shopPolicy ⟨true, 100, 50000⟩ skilledCard shopUrl = .ok card ∧
      Ucp.parse asciiLibrary shopPolicy ⟨true, 100, 50000⟩ (shopProfile "orders" "orders")
        profileUrl = .ok ucp ∧
      ¬ ∃ after, indexProfiles "2026-01-11T00:00:00Z" "cagt_shop" card ucp ⟨shopUrl, profileUrl⟩
          ⟨[], []⟩ = some after ∧ Indexed "cagt_shop" card ucp ⟨[], []⟩ after := by
  have hboth := @parsed_pair shopPolicy ⟨true, 100, 50000⟩ skilledCard
    (shopProfile "orders" "orders") (fun card ucp =>
      !decide ((card.capabilities ++ ucp.capabilities).map pairOf).Nodup) (by decide +kernel)
  obtain ⟨card, ucp, hcard, hucp, htwice⟩ := hboth
  refine ⟨card, ucp, hcard, hucp, ?_⟩
  rintro ⟨after, hsome, -⟩
  have hnodup := (indexProfiles_eq_some.mp hsome).1
  rw [decide_eq_true hnodup] at htwice
  cases htwice

end KiwiCatalog.Discovery
