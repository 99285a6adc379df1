import KiwiCatalog.Binding.StoreInvariant

/-!
# StoreProperties — what the binding store guarantees, and what it refuses

The invariant gives one active binding, increasing versions and ids that never come back.  A first
bind or an enrollment bind after a revocation is refused: it counts from one again.
-/

set_option autoImplicit false

namespace KiwiCatalog.Binding

open Transition

theorem storeInv_reachable {store : List RuntimeBinding}
    (h : Reachable (fun store => store = []) Step store) : StoreInv store :=
  reachable_invariant storeInv_empty storeInv_preserved h

theorem pairwise_of_versions {rows : List RuntimeBinding}
    (h : rows.map RuntimeBinding.bindingVersion = List.range' 1 rows.length) :
    rows.Pairwise fun r r' => r.bindingVersion < r'.bindingVersion := by
  have hsorted : (rows.map RuntimeBinding.bindingVersion).Pairwise fun v v' => v < v' := by
    rw [h]
    exact List.pairwise_lt_range'
  exact List.pairwise_map.mp hsorted

theorem storeContract_of_inv {store : List RuntimeBinding} (h : StoreInv store) :
    StoreContract store := by
  refine ⟨fun r hr r' hr' hagent hactive hactive' => ?_, fun agentId => ?_, h.ids,
    fun store' hrun => issue_run hrun⟩
  · have hlast := h.active r hr hactive
    have hlast' := h.active r' hr' hactive'
    rw [hagent] at hlast
    exact h.row_unique hr hr' hagent (hlast.trans hlast'.symm)
  · exact pairwise_of_versions (h.versions agentId)

/-! ## Which insertions go through -/

/-- The id that goes with the next version is free. -/
theorem idFor_free {store : List RuntimeBinding} (h : StoreInv store) {agentId : String}
    {decl : Declaration} {version : Nat} (hid : IdAvailable store agentId decl)
    (hversion : version = (rowsOf store agentId).length + 1) :
    ∀ r ∈ store, r.bindingId ≠ decl.idFor agentId version := by
  intro r hr heq
  unfold IdAvailable at hid
  unfold Declaration.idFor at heq
  by_cases hempty : decl.bindingId = ""
  · rw [if_pos hempty] at hid heq
    obtain ⟨hagent, hown⟩ := hid r hr version heq
    have hbound := (h.version_iff _ _).mp ⟨r, hr, hagent, rfl⟩
    omega
  · rw [if_neg hempty] at hid heq
    exact hid r hr heq

theorem version_free {store : List RuntimeBinding} (h : StoreInv store) {agentId : String}
    {version : Nat} (hversion : version = (rowsOf store agentId).length + 1) :
    ∀ r ∈ store, r.catalogAgentId = agentId → r.bindingVersion ≠ version := by
  intro r hr hagent heq
  have hbound := (h.version_iff _ _).mp ⟨r, hr, hagent, heq⟩
  omega

theorem currentActive_of_empty {store : List RuntimeBinding} {agentId : String}
    (h : rowsOf store agentId = []) : currentActiveBinding store agentId = none := by
  unfold currentActiveBinding
  rw [h]
  rfl

/-- Counting on from the active binding gives the next version; counting from one does when there
is no row. -/
theorem nextVersion_eq {store : List RuntimeBinding} (h : StoreInv store) {agentId : String}
    (hnext : currentActiveBinding store agentId ≠ none ∨ rowsOf store agentId = []) :
    nextVersion (currentActiveBinding store agentId) = (rowsOf store agentId).length + 1 := by
  cases hactive : currentActiveBinding store agentId with
  | none =>
    rcases hnext with hsome | hempty
    · exact absurd hactive hsome
    · rw [hempty]
      rfl
  | some binding =>
    obtain ⟨hmem, hagent, hactive'⟩ := mem_of_currentActive hactive
    have hlast := h.active binding hmem hactive'
    rw [hagent] at hlast
    change binding.bindingVersion + 1 = _
    omega

theorem insertActive_iff {store : List RuntimeBinding} (h : StoreInv store)
    {agentId merchantId : String} {decl : Declaration} (hid : IdAvailable store agentId decl) :
    (∃ store', insertActiveBinding store agentId merchantId decl
      (currentActiveBinding store agentId) = .ok store') ↔
      currentActiveBinding store agentId ≠ none ∨ rowsOf store agentId = [] := by
  constructor
  · rintro ⟨store', hok⟩
    by_cases hactive : currentActiveBinding store agentId = none
    · right
      -- version one was free, so there is no row
      rw [insertActiveBinding_eq, hactive] at hok
      have hfree := (supersede_ok hok).1.versionFree
      have hempty : ¬ 1 ≤ (rowsOf store agentId).length := by
        intro hpos
        obtain ⟨r, hr, hagent, hone⟩ :=
          (h.version_iff agentId 1).mpr ⟨Nat.le_refl _, hpos⟩
        exact hfree r hr hagent hone
      exact List.length_eq_zero_iff.mp (by omega)
    · exact .inl hactive
  · intro hnext
    have hversion := nextVersion_eq h hnext
    exact ⟨_, supersede_of_free _ (idFor_free h hid hversion) (version_free h hversion)⟩

theorem confirm_accepted {store : List RuntimeBinding} (h : StoreInv store)
    {agentId : String} (merchantId : String) (decl : Declaration)
    (hid : GeneratedIdsOwn store agentId) :
    ∃ store', confirmBinding store agentId merchantId decl = .ok store' := by
  have hversion : maxVersion store agentId + 1 = (rowsOf store agentId).length + 1 := by
    rw [h.maxVersion_eq]
  have hfree : ∀ r ∈ store, r.bindingId ≠ bindId agentId (maxVersion store agentId + 1) :=
    fun r hr heq => by
      obtain ⟨hagent, hown⟩ := hid r hr _ heq
      exact version_free h hversion r hr hagent hown
  exact ⟨_, supersede_of_free _ hfree (version_free h hversion)⟩

theorem revoke_accepted {store : List RuntimeBinding} {agentId bindingId : String}
    (h : ∃ r ∈ store, r.catalogAgentId = agentId ∧ r.bindingId = bindingId) :
    ∃ store', revokeRuntimeBinding store agentId bindingId = .ok store' := by
  obtain ⟨r, hr, hagent, hid⟩ := h
  unfold revokeRuntimeBinding
  cases hfind : (rowsOf store agentId).find? fun r => r.bindingId = bindingId with
  | none =>
    have hnone := List.find?_eq_none.mp hfind r (mem_rowsOf.mpr ⟨hr, hagent⟩)
    exact absurd (decide_eq_true hid) hnone
  | some r' =>
    by_cases hrevoked : r'.status = .revoked
    · exact ⟨store, by simp [hrevoked]⟩
    · exact ⟨revokeRow store bindingId, by simp [hrevoked]⟩

theorem accepts_iff {store : List RuntimeBinding} (h : StoreInv store) {op : Op}
    (hop : Permitted store op) : Accepts store op ↔ NotAfterRevocation store op := by
  cases op with
  | create agentId merchantId decl => exact insertActive_iff h hop
  | confirm agentId merchantId decl =>
    exact ⟨fun _ => trivial, fun _ => confirm_accepted h merchantId decl hop⟩
  | enroll agentId merchantId decl expectedVersion =>
    obtain ⟨hid, hversion⟩ := hop
    have hcheck : ∀ store', enrollmentBinding store agentId merchantId decl expectedVersion =
        .ok store' ↔ insertActiveBinding store agentId merchantId decl
          (currentActiveBinding store agentId) = .ok store' := by
      intro store'
      unfold enrollmentBinding
      rw [if_neg (by omega)]
    exact (exists_congr hcheck).trans (insertActive_iff h hid)
  | revoke agentId bindingId => exact ⟨fun _ => trivial, fun _ => revoke_accepted hop⟩

/-- In every store that operations reach, in any order and with their reads interleaved, the
contract holds, and an operation whose preconditions hold goes through if and only if it is not a
first bind or an enrollment bind after a revocation. -/
theorem binding_store {store : List RuntimeBinding}
    (h : Reachable (fun store => store = []) Step store) :
    StoreContract store ∧
      ∀ op, Permitted store op → (Accepts store op ↔ NotAfterRevocation store op) :=
  ⟨storeContract_of_inv (storeInv_reachable h), fun _ => accepts_iff (storeInv_reachable h)⟩

/-! ## A binding that has been revoked -/

def firstDeclaration : Declaration :=
  ⟨"b_1", "https://runtime.example", "https://runtime.example/a2a", "key_1", "thumb_1", 1⟩

def secondDeclaration : Declaration := { firstDeclaration with bindingId := "b_2" }

def boundRow : RuntimeBinding := newRow "cagt_1" "m_1" "b_1" firstDeclaration 1

theorem boundRow_reachable : Reachable (fun store => store = []) Step [boundRow] := by
  have hempty : Reachable (fun store => store = []) Step [] := reachable_init rfl
  exact reachable_step hempty
    (@Step.creates [] [boundRow] "cagt_1" "m_1" firstDeclaration none trivial rfl)

/-- While it is active, another binding may supersede it. -/
theorem binding_store_rotation :
    Accepts [boundRow] (.create "cagt_1" "m_1" secondDeclaration) := by
  have hpermitted : Permitted [boundRow] (.create "cagt_1" "m_1" secondDeclaration) := by
    change IdAvailable [boundRow] "cagt_1" secondDeclaration
    unfold IdAvailable
    rw [if_neg (by decide)]
    decide
  have hactive : NotAfterRevocation [boundRow] (.create "cagt_1" "m_1" secondDeclaration) :=
    .inl (by decide)
  exact ((binding_store boundRow_reachable).2 _ hpermitted).mpr hactive

/-- Once it is revoked, a first bind is refused although its preconditions hold. -/
theorem refused_after_revocation :
    ¬ ∀ store : List RuntimeBinding, Reachable (fun store => store = []) Step store →
      ∀ op, Permitted store op → Accepts store op := by
  intro h
  have hrevoked : Reachable (fun store => store = []) Step [boundRow.revoke] :=
    reachable_step boundRow_reachable
      (@Step.revokes [boundRow] [boundRow.revoke] "cagt_1" "b_1" rfl)
  have hpermitted : Permitted [boundRow.revoke] (.create "cagt_1" "m_1" secondDeclaration) := by
    change IdAvailable [boundRow.revoke] "cagt_1" secondDeclaration
    unfold IdAvailable
    rw [if_neg (by decide)]
    decide
  obtain ⟨store', hok⟩ := h _ hrevoked _ hpermitted
  -- the version is one again
  have herror : (Op.create "cagt_1" "m_1" secondDeclaration).apply [boundRow.revoke] =
      .error .integrity := rfl
  rw [herror] at hok
  cases hok

end KiwiCatalog.Binding
