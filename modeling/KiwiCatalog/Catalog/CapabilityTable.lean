import KiwiCatalog.Discovery.Capabilities
import KiwiCatalog.Lib.Table

/-!
# Capability table — the rows of capabilities, skills and endpoints that an agent is indexed under

Both tables are replaced for one agent as a whole.  The primary keys let no agent have a capability
or a skill twice: the insert of a second row is an integrity error, here `none`.
-/

set_option autoImplicit false

namespace KiwiCatalog.Catalog

open Discovery (CapabilityRow SkillRow)
open Url (Text)

structure EndpointRow where
  kind : Text
  url : Text
  protocol : Text
  protocolVersion : Text
  preference : Nat
  deriving DecidableEq

structure StoredCapability where
  catalogAgentId : String
  row : CapabilityRow
  lastVerifiedAt : String
  deriving DecidableEq

structure StoredSkill where
  catalogAgentId : String
  row : SkillRow
  deriving DecidableEq

def capabilityKey (stored : StoredCapability) : String × Text × Text :=
  (stored.catalogAgentId, stored.row.namespace_, stored.row.capabilityId)

def skillKey (stored : StoredSkill) : String × Text :=
  (stored.catalogAgentId, stored.row.skillId)

def replaceCapabilities (now catalogAgentId : String) (capabilities : List CapabilityRow)
    (table : List StoredCapability) : Option (List StoredCapability) :=
  Table.replaceWhere? capabilityKey (fun stored => stored.catalogAgentId == catalogAgentId)
    (capabilities.map fun row => ⟨catalogAgentId, row, now⟩) table

def replaceSkills (catalogAgentId : String) (skills : List SkillRow) (table : List StoredSkill) :
    Option (List StoredSkill) :=
  Table.replaceWhere? skillKey (fun stored => stored.catalogAgentId == catalogAgentId)
    (skills.map fun row => ⟨catalogAgentId, row⟩) table

/-- The pair that tells the capabilities of an agent apart. -/
def pairOf (row : CapabilityRow) : Text × Text := (row.namespace_, row.capabilityId)

theorem map_capabilityKey (now catalogAgentId : String) (capabilities : List CapabilityRow) :
    ((capabilities.map fun row => StoredCapability.mk catalogAgentId row now).map
      capabilityKey).Nodup ↔ (capabilities.map pairOf).Nodup := by
  rw [List.map_map, ← List.nodup_map_iff (f := fun pair : Text × Text => (catalogAgentId, pair))]
  · rw [List.map_map]
    rfl
  · exact fun _ _ h => (Prod.mk.inj h).2

theorem replaceCapabilities_eq_some {now catalogAgentId : String}
    {capabilities : List CapabilityRow} {table after : List StoredCapability} :
    replaceCapabilities now catalogAgentId capabilities table = some after ↔
      (capabilities.map pairOf).Nodup ∧
        after = Table.deleteWhere (fun stored => stored.catalogAgentId == catalogAgentId) table ++
          capabilities.map fun row => ⟨catalogAgentId, row, now⟩ := by
  rw [replaceCapabilities, Table.replaceWhere?_eq_some, map_capabilityKey]
  intro stored hstored other heq
  obtain ⟨row, -, rfl⟩ := List.mem_map.mp hstored
  exact beq_iff_eq.mpr (Prod.mk.inj heq).1

theorem replaceSkills_eq_some {catalogAgentId : String} {skills : List SkillRow}
    {table after : List StoredSkill} :
    replaceSkills catalogAgentId skills table = some after ↔
      (skills.map SkillRow.skillId).Nodup ∧
        after = Table.deleteWhere (fun stored => stored.catalogAgentId == catalogAgentId) table ++
          skills.map fun row => ⟨catalogAgentId, row⟩ := by
  have hkeys : ((skills.map fun row => StoredSkill.mk catalogAgentId row).map skillKey).Nodup ↔
      (skills.map SkillRow.skillId).Nodup := by
    rw [List.map_map, ← List.nodup_map_iff (f := fun skillId : Text => (catalogAgentId, skillId))]
    · rw [List.map_map]
      rfl
    · exact fun _ _ h => (Prod.mk.inj h).2
  rw [replaceSkills, Table.replaceWhere?_eq_some, hkeys]
  intro stored hstored other heq
  obtain ⟨row, -, rfl⟩ := List.mem_map.mp hstored
  exact beq_iff_eq.mpr (Prod.mk.inj heq).1

/-- The rows of the agent, and those of the others. -/
theorem filter_replaced {ρ σ : Type} (owner : ρ → String) (build : σ → ρ)
    {catalogAgentId : String} {table : List ρ} {rows : List σ}
    (hbuild : ∀ r, owner (build r) = catalogAgentId) (other : String) :
    (Table.deleteWhere (fun stored => owner stored == catalogAgentId) table ++ rows.map build).filter
        (fun stored => owner stored == other) =
      if other = catalogAgentId then rows.map build
      else table.filter fun stored => owner stored == other := by
  have hrows : (rows.map build).filter (fun stored => owner stored == other) =
      if other = catalogAgentId then rows.map build else [] := by
    split
    · rename_i hsame
      rw [List.filter_eq_self]
      intro stored hstored
      obtain ⟨r, -, rfl⟩ := List.mem_map.mp hstored
      rw [hbuild, hsame]
      exact beq_self_eq_true _
    · rename_i hother
      rw [List.filter_eq_nil_iff]
      intro stored hstored
      obtain ⟨r, -, rfl⟩ := List.mem_map.mp hstored
      rw [hbuild, beq_iff_eq]
      exact fun h => hother h.symm
  rw [List.filter_append, hrows, Table.deleteWhere, List.filter_filter]
  split
  · rename_i hsame
    rw [hsame]
    simp
  · rename_i hother
    rw [List.append_nil]
    apply List.filter_congr
    intro stored _
    by_cases howner : owner stored = other
    · have hne : owner stored ≠ catalogAgentId := fun h => hother (howner.symm.trans h)
      simp [howner, hother]
    · simp [howner]

/-- Of the agent's keys only the new rows have one. -/
theorem countP_replaced {ρ σ κ : Type} [DecidableEq κ] (key : ρ → String × κ) (rowKey : σ → κ)
    (build : σ → ρ) {catalogAgentId : String} {table : List ρ} {rows : List σ}
    (hbuild : ∀ r, key (build r) = (catalogAgentId, rowKey r)) (k : κ) :
    (Table.deleteWhere (fun stored => (key stored).1 == catalogAgentId) table ++
        rows.map build).countP (fun stored => decide (key stored = (catalogAgentId, k))) =
      rows.countP fun r => decide (rowKey r = k) := by
  have hold : (Table.deleteWhere (fun stored => (key stored).1 == catalogAgentId) table).countP
      (fun stored => decide (key stored = (catalogAgentId, k))) = 0 := by
    rw [List.countP_eq_zero]
    intro stored hstored heq
    have hother := (Table.mem_deleteWhere.mp hstored).2
    rw [of_decide_eq_true heq, beq_self_eq_true] at hother
    cases hother
  rw [List.countP_append, hold, Nat.zero_add, List.countP_map]
  apply List.countP_congr
  intro r _
  rw [Function.comp_apply, hbuild, decide_eq_true_eq, decide_eq_true_eq, Prod.mk.injEq]
  exact and_iff_right rfl

end KiwiCatalog.Catalog
