import KiwiCatalog.Discovery.Reprojection
import KiwiCatalog.Discovery.PublicCredentials

/-!
# Stored cards — the parser on the projection of a card that it has accepted

Every check finds in the stored projection what it found in the card, and the projection of the
projection is the projection.
-/

set_option autoImplicit false

namespace KiwiCatalog.Discovery

open Checks (bind_ok_iff)
open Url (Text)

/-! ## 1. Sorted values -/

theorem OptText.sort {v : Json} (h : OptText v) : v.sortKeys = v := by
  rcases h with rfl | ⟨s, rfl⟩ <;> rfl

theorem TextList.sort {v : Json} (h : TextList v) : v.sortKeys = v := by
  obtain ⟨texts, rfl⟩ := h
  rw [Json.sortKeys_array, List.map_map]
  rfl

theorem OptTextList.sort {v : Json} (h : OptTextList v) : v.sortKeys = v := by
  cases h with
  | inl hnull => rw [hnull]; rfl
  | inr hlist => exact hlist.sort

theorem OptTextList.kept {v : Json} (h : OptTextList v) : kept isArray v = v := by
  apply kept_of
  rcases h with rfl | ⟨texts, rfl⟩
  · exact .inl rfl
  · exact .inr rfl

namespace AgentCard

variable {lib : Library}

/-! ## 2. Skills -/

theorem keyed_projectSkill {skip : Text → Bool} {i : Nat} {skill : Fields} :
    Keyed (projectSkill skip i skill)
      (["id", "name", "description"] ++ ["tags", "examples", "inputModes", "outputModes"]) :=
  .append (.pick (by decide)) (.pick (by decide)) (by decide)

theorem get_text_projectSkill {i : Nat} {skill : Fields} {key : String}
    (hkey : key ∈ ["id", "name", "description"]) :
    Json.get key (projectSkill noSkip i skill) = Json.get key skill := by
  have hapart : key ∉ ["tags", "examples", "inputModes", "outputModes"] :=
    (by decide : ∀ k ∈ ["id", "name", "description"],
      k ∉ ["tags", "examples", "inputModes", "outputModes"]) key hkey
  unfold projectSkill
  rw [Keyed.get_left (.pick (by decide)) hapart, get_pick_noSkip (by decide) hkey, kept_isPresent]

theorem get_list_of_projectSkill {i : Nat} {skill : Fields} {key : String}
    (hkey : key ∈ ["tags", "examples", "inputModes", "outputModes"]) :
    Json.get key (projectSkill noSkip i skill) = kept isArray (Json.get key skill) := by
  have hapart : key ∉ ["id", "name", "description"] :=
    (by decide : ∀ k ∈ ["tags", "examples", "inputModes", "outputModes"],
      k ∉ ["id", "name", "description"]) key hkey
  unfold projectSkill
  rw [Keyed.get_right (.pick (by decide)) hapart, get_pick_noSkip (by decide) hkey]

theorem sorted_projectSkill (skill : Fields) (i j : Nat) :
    Json.sortKeysFields (projectSkill noSkip j (Json.sortFields (projectSkill noSkip i skill))) =
      Json.sortKeysFields (projectSkill noSkip i skill) := by
  rw [projectSkill, Json.sortKeysFields_append, sorted_pick kind_isPresent, sorted_pick kind_isArray,
    ← Json.sortKeysFields_append]
  · rfl
  · intro key hkey
    rw [keyed_projectSkill.get_sorted, get_list_of_projectSkill hkey]
  · intro key hkey
    rw [keyed_projectSkill.get_sorted, get_text_projectSkill hkey, kept_isPresent]

theorem within_projectSkill (skill : Fields) (i : Nat) :
    Json.Within (.object (projectSkill noSkip i skill)) (.object skill) :=
  Json.within_object keyed_projectSkill.nodup
    ((values_pick kind_isPresent).append (values_pick kind_isArray))

theorem SkillValid.stored {skill : Fields} {skillId : Text} (h : SkillValid skill skillId) (i : Nat) :
    SkillValid (Json.sortFields (projectSkill noSkip i skill)) skillId := by
  have htext : ∀ key ∈ ["id", "name", "description"], OptText (Json.get key skill) →
      Json.get key (Json.sortFields (projectSkill noSkip i skill)) = Json.get key skill := by
    intro key hkey hvalid
    rw [keyed_projectSkill.get_sorted, get_text_projectSkill hkey, hvalid.sort]
  refine ⟨?_, ?_, ?_, fun key hkey => ?_⟩
  · rw [htext "id" (by decide) (.inr ⟨_, h.skillId⟩)]
    exact h.skillId
  · rw [htext "name" (by decide) (.inr h.name)]
    exact h.name
  · rw [htext "description" (by decide) h.description]
    exact h.description
  · have hlist := h.lists key hkey
    rw [keyed_projectSkill.get_sorted, get_list_of_projectSkill hkey, hlist.kept, hlist.sort]
    exact hlist

theorem projectSkill_ne_nil {skill : Fields} {skillId : Text} (h : SkillValid skill skillId)
    (i : Nat) : projectSkill noSkip i skill ≠ [] := by
  intro hnil
  have hget := @get_text_projectSkill i skill "id" (by decide)
  rw [hnil, h.skillId] at hget
  cases hget

theorem SkillsValid.stored {items : List Json} {ids : List Text} (h : SkillsValid items ids) :
    SkillsValid ((projectItems (projectSkill noSkip) 0 items).map Json.sortKeys) ids := by
  refine ⟨h.1, ?_⟩
  have hitems := h.2
  generalize 0 = i
  induction hitems generalizing i with
  | nil => exact .nil
  | @cons v skillId rest ids hskill hrest ih =>
    obtain ⟨skill, rfl, hvalid⟩ := hskill
    rw [projectItems, List.isEmpty_eq_false_iff.mpr (projectSkill_ne_nil hvalid i),
      if_neg Bool.false_ne_true, List.map_cons]
    exact .cons ⟨_, rfl, hvalid.stored i⟩
      (ih ⟨(List.nodup_cons.mp h.1).2, hrest⟩ (i + 1))

/-! ## 3. The other parts -/

theorem keyed_projectProvider {skip : Text → Bool} {card : Fields} :
    Keyed (projectProvider skip card) ["provider"] := by
  unfold projectProvider
  split
  · exact .objectField
  · exact .nil

theorem keyed_projectCapabilities {skip : Text → Bool} {card : Fields} :
    Keyed (projectCapabilities skip card) ["capabilities"] := by
  unfold projectCapabilities
  split
  · exact .objectField
  · exact .nil

theorem keyed_projectAgents {skip : Text → Bool} {card : Fields} :
    Keyed (projectAgents lib skip card) ["agents"] := by
  unfold projectAgents
  split
  · split
    · exact .nil
    · exact ⟨List.nodup_singleton _, fun _ h => h⟩
  · exact .nil

/-- A part of a card in an object of its own, under the lookups that the parser makes. -/
theorem get_provider {card : Fields} {key : String} (hkey : key ∈ ["organization", "url"]) :
    Json.get key (fieldsOf (Json.get "provider" (projectProvider noSkip card)).sortKeys) =
      (Json.get key (fieldsOf (Json.get "provider" card))).sortKeys := by
  have hnone : Json.get key [] = (Json.null).sortKeys := rfl
  unfold projectProvider
  cases hprovider : Json.get "provider" card with
  | object provider =>
    dsimp only
    rw [get_objectField]
    have hget : Json.get key (pick isPresent noSkip "provider".toList ["organization", "url"]
        provider) = Json.get key provider := by
      rw [get_pick_noSkip (by decide) hkey, kept_isPresent]
    split
    · rename_i hnil
      rw [hnil] at hget
      show Json.get key [] = (Json.get key provider).sortKeys
      rw [← hget]
      rfl
    · show Json.get key (Json.sortFields _) = (Json.get key provider).sortKeys
      rw [Json.get_sortFields (pick_keys_nodup (by decide)), hget]
  | _ => rfl

theorem get_flag {card : Fields} {key : String}
    (hkey : key ∈ ["streaming", "pushNotifications", "stateTransitionHistory"]) :
    Json.get key (fieldsOf (Json.get "capabilities" (projectCapabilities noSkip card)).sortKeys) =
      (kept isBool (Json.get key (fieldsOf (Json.get "capabilities" card)))).sortKeys := by
  unfold projectCapabilities
  cases hcaps : Json.get "capabilities" card with
  | object caps =>
    dsimp only
    rw [get_objectField]
    have hget : Json.get key (pick isBool noSkip "capabilities".toList
        ["streaming", "pushNotifications", "stateTransitionHistory"] caps) =
          kept isBool (Json.get key caps) := get_pick_noSkip (by decide) hkey
    split
    · rename_i hnil
      rw [hnil] at hget
      show Json.get key [] = (kept isBool (Json.get key caps)).sortKeys
      rw [← hget]
      rfl
    · show Json.get key (Json.sortFields _) = (kept isBool (Json.get key caps)).sortKeys
      rw [Json.get_sortFields (pick_keys_nodup (by decide)), hget]
  | _ => rfl

end AgentCard

end KiwiCatalog.Discovery
