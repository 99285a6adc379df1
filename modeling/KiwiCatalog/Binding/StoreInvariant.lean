import KiwiCatalog.Binding.Store
import Mathlib.Data.List.Range

/-!
# StoreInvariant — versions count up, and the active binding has the last one

The versions of an agent are one, two and so on in the order of insertion, whichever way each was
computed: the unique index refuses every other.
-/

set_option autoImplicit false

namespace KiwiCatalog.Binding

open Transition

/-! ## Rows of one agent -/

theorem mem_rowsOf {store : List RuntimeBinding} {agentId : String} {r : RuntimeBinding} :
    r ∈ rowsOf store agentId ↔ r ∈ store ∧ r.catalogAgentId = agentId := by
  simp [rowsOf]

theorem rowsOf_append (store : List RuntimeBinding) (row : RuntimeBinding) (agentId : String) :
    rowsOf (store ++ [row]) agentId =
      rowsOf store agentId ++ if row.catalogAgentId = agentId then [row] else [] := by
  unfold rowsOf
  rw [List.filter_append]
  congr 1
  by_cases h : row.catalogAgentId = agentId <;> simp [h]

theorem rowsOf_revokeRow (store : List RuntimeBinding) (bindingId agentId : String) :
    rowsOf (revokeRow store bindingId) agentId = revokeRow (rowsOf store agentId) bindingId := by
  induction store with
  | nil => rfl
  | cons r store ih =>
    have hagent : (if r.bindingId = bindingId then r.revoke else r).catalogAgentId =
        r.catalogAgentId := by
      split <;> rfl
    unfold revokeRow rowsOf Table.updateWhere at ih ⊢
    by_cases h : r.catalogAgentId = agentId
    · simp only [List.map_cons, decide_eq_true_eq, hagent, h, List.filter_cons, decide_true,
        if_true] at ih ⊢
      rw [ih]
    · simp only [List.map_cons, decide_eq_true_eq, hagent, h, List.filter_cons, decide_false,
        Bool.false_eq_true, if_false] at ih ⊢
      exact ih

theorem mem_revokeRow {store : List RuntimeBinding} {bindingId : String} {r : RuntimeBinding}
    (h : r ∈ revokeRow store bindingId) :
    (r ∈ store ∧ r.bindingId ≠ bindingId) ∨ ∃ r₀ ∈ store, r₀.bindingId = bindingId ∧
      r = r₀.revoke := by
  obtain ⟨r₀, hr₀, hr⟩ := Table.mem_updateWhere.mp h
  by_cases hid : r₀.bindingId = bindingId
  · right
    rw [if_pos (decide_eq_true hid)] at hr
    exact ⟨r₀, hr₀, hid, hr.symm⟩
  · left
    rw [if_neg (by simpa using hid)] at hr
    exact ⟨hr ▸ hr₀, hr ▸ hid⟩

theorem issue_revokeRow (store : List RuntimeBinding) (bindingId : String) :
    (revokeRow store bindingId).map RuntimeBinding.issue = store.map RuntimeBinding.issue :=
  Table.updateWhere_keys (f := RuntimeBinding.revoke) (fun _ => rfl) store

theorem versions_revokeRow (store : List RuntimeBinding) (bindingId : String) :
    (revokeRow store bindingId).map RuntimeBinding.bindingVersion =
      store.map RuntimeBinding.bindingVersion :=
  Table.updateWhere_keys (f := RuntimeBinding.revoke) (fun _ => rfl) store

/-! ## Insertion -/

/-- What is known when an insertion went through. -/
structure Inserted (store store' : List RuntimeBinding) (row : RuntimeBinding) : Prop where
  eq : store' = store ++ [row]
  idFree : ∀ r ∈ store, r.bindingId ≠ row.bindingId
  versionFree : ∀ r ∈ store, r.catalogAgentId = row.catalogAgentId →
    r.bindingVersion ≠ row.bindingVersion

theorem inserted_of_insertRow {store store' : List RuntimeBinding} {row : RuntimeBinding}
    (h : insertRow? store row = some store') : Inserted store store' row := by
  unfold insertRow? at h
  split at h
  · cases h
  · rename_i hfree
    simp only [List.any_eq_true, Bool.or_eq_true, Bool.and_eq_true, decide_eq_true_eq, not_exists,
      not_and, not_or] at hfree
    exact ⟨(Option.some.inj h).symm, fun r hr => (hfree r hr).1, fun r hr => (hfree r hr).2⟩

theorem insertRow_of_free {store : List RuntimeBinding} {row : RuntimeBinding}
    (hid : ∀ r ∈ store, r.bindingId ≠ row.bindingId)
    (hversion : ∀ r ∈ store, r.catalogAgentId = row.catalogAgentId →
      r.bindingVersion ≠ row.bindingVersion) :
    insertRow? store row = some (store ++ [row]) := by
  unfold insertRow?
  rw [if_neg]
  simp only [List.any_eq_true, Bool.or_eq_true, Bool.and_eq_true, decide_eq_true_eq, not_exists,
    not_and, not_or]
  exact fun r hr => ⟨hid r hr, hversion r hr⟩

/-- The superseded row is revoked, or there was none. -/
def revokeSuperseded (store : List RuntimeBinding) : Option RuntimeBinding → List RuntimeBinding
  | none => store
  | some binding => revokeRow store binding.bindingId

theorem supersede_ok {store store' : List RuntimeBinding} {row : RuntimeBinding}
    {existing : Option RuntimeBinding} (h : supersede store row existing = .ok store') :
    Inserted store (store ++ [row]) row ∧ store' = revokeSuperseded (store ++ [row]) existing := by
  unfold supersede at h
  split at h
  · cases h
  · split at h
    · cases h
    · rename_i inserted hinsert
      have hi := inserted_of_insertRow hinsert
      have heq := hi.eq
      subst heq
      refine ⟨hi, ?_⟩
      cases existing with
      | none => exact (Except.ok.inj h).symm
      | some binding => exact (Except.ok.inj h).symm

theorem supersede_of_free {store : List RuntimeBinding} {row : RuntimeBinding}
    (existing : Option RuntimeBinding) (hid : ∀ r ∈ store, r.bindingId ≠ row.bindingId)
    (hversion : ∀ r ∈ store, r.catalogAgentId = row.catalogAgentId →
      r.bindingVersion ≠ row.bindingVersion) :
    supersede store row existing = .ok (revokeSuperseded (store ++ [row]) existing) := by
  unfold supersede
  rw [if_neg (by simpa using hid), insertRow_of_free hid hversion]
  cases existing <;> rfl

/-! ## The invariant -/

structure StoreInv (store : List RuntimeBinding) : Prop where
  ids : Table.KeyUnique RuntimeBinding.bindingId store
  versions : ∀ agentId, (rowsOf store agentId).map RuntimeBinding.bindingVersion =
    List.range' 1 (rowsOf store agentId).length
  active : ∀ r ∈ store, r.isActive = true →
    r.bindingVersion = (rowsOf store r.catalogAgentId).length

theorem StoreInv.version_iff {store : List RuntimeBinding} (h : StoreInv store)
    (agentId : String) (version : Nat) :
    (∃ r ∈ store, r.catalogAgentId = agentId ∧ r.bindingVersion = version) ↔
      1 ≤ version ∧ version ≤ (rowsOf store agentId).length := by
  have hmem : version ∈ (rowsOf store agentId).map RuntimeBinding.bindingVersion ↔
      1 ≤ version ∧ version ≤ (rowsOf store agentId).length := by
    rw [h.versions agentId, List.mem_range'_1]
    omega
  rw [← hmem, List.mem_map]
  constructor
  · rintro ⟨r, hr, hagent, hversion⟩
    exact ⟨r, mem_rowsOf.mpr ⟨hr, hagent⟩, hversion⟩
  · rintro ⟨r, hr, hversion⟩
    obtain ⟨hr, hagent⟩ := mem_rowsOf.mp hr
    exact ⟨r, hr, hagent, hversion⟩

/-- Two rows of an agent with one version are one row. -/
theorem StoreInv.row_unique {store : List RuntimeBinding} (h : StoreInv store)
    {r r' : RuntimeBinding} (hr : r ∈ store) (hr' : r' ∈ store)
    (hagent : r.catalogAgentId = r'.catalogAgentId)
    (hversion : r.bindingVersion = r'.bindingVersion) : r = r' := by
  have hnodup : ((rowsOf store r'.catalogAgentId).map RuntimeBinding.bindingVersion).Nodup := by
    rw [h.versions]
    exact List.nodup_range'
  exact List.inj_on_of_nodup_map hnodup (mem_rowsOf.mpr ⟨hr, hagent⟩)
    (mem_rowsOf.mpr ⟨hr', rfl⟩) hversion

theorem foldr_max_range (n : Nat) : ∀ s, (List.range' (s + 1) n).foldr max 0 =
    if n = 0 then 0 else s + n := by
  induction n with
  | zero => intro s; rfl
  | succ n ih =>
    intro s
    rw [List.range'_succ, List.foldr_cons, ih (s + 1)]
    by_cases hn : n = 0
    · rw [if_pos hn, if_neg (by omega)]
      omega
    · rw [if_neg hn, if_neg (by omega)]
      omega

theorem StoreInv.maxVersion_eq {store : List RuntimeBinding} (h : StoreInv store)
    (agentId : String) : maxVersion store agentId = (rowsOf store agentId).length := by
  have hfold : maxVersion store agentId =
      ((rowsOf store agentId).map RuntimeBinding.bindingVersion).foldr max 0 := by
    rw [List.foldr_map]
    rfl
  rw [hfold, h.versions agentId, foldr_max_range _ 0]
  split <;> omega

/-- However it was computed: one more than that of a row, or one. -/
def Successor (store : List RuntimeBinding) (agentId : String) (version : Nat) : Prop :=
  version = 1 ∨ ∃ r ∈ store, r.catalogAgentId = agentId ∧ version = r.bindingVersion + 1

/-- The unique index lets one version pass. -/
theorem StoreInv.next_version {store store' : List RuntimeBinding} {row : RuntimeBinding}
    (h : StoreInv store) (hi : Inserted store store' row)
    (hsuccessor : Successor store row.catalogAgentId row.bindingVersion) :
    row.bindingVersion = (rowsOf store row.catalogAgentId).length + 1 := by
  have hfree : ¬ (1 ≤ row.bindingVersion ∧
      row.bindingVersion ≤ (rowsOf store row.catalogAgentId).length) := by
    rw [← h.version_iff]
    rintro ⟨r, hr, hagent, hversion⟩
    exact hi.versionFree r hr hagent hversion
  rcases hsuccessor with hone | ⟨r, hr, hagent, hnext⟩
  · omega
  · have hbound := (h.version_iff _ _).mp ⟨r, hr, hagent, rfl⟩
    omega

theorem StoreInv.append {store : List RuntimeBinding} {row : RuntimeBinding} (h : StoreInv store)
    (hi : Inserted store (store ++ [row]) row)
    (hversion : row.bindingVersion = (rowsOf store row.catalogAgentId).length + 1) :
    Table.KeyUnique RuntimeBinding.bindingId (store ++ [row]) ∧
      ∀ agentId, (rowsOf (store ++ [row]) agentId).map RuntimeBinding.bindingVersion =
        List.range' 1 (rowsOf (store ++ [row]) agentId).length := by
  refine ⟨?_, fun agentId => ?_⟩
  · unfold Table.KeyUnique
    rw [List.map_append, List.nodup_append]
    refine ⟨h.ids, List.nodup_singleton _, fun id hid id' hid' => ?_⟩
    obtain ⟨r, hr, rfl⟩ := List.mem_map.mp hid
    rw [List.map_singleton, List.mem_singleton] at hid'
    rw [hid']
    exact hi.idFree r hr
  · rw [rowsOf_append]
    by_cases hagent : row.catalogAgentId = agentId
    · subst hagent
      rw [if_pos rfl, List.map_append, h.versions, List.length_append, List.map_singleton,
        hversion, List.length_singleton, List.range'_1_concat]
      congr 2
      omega
    · rw [if_neg hagent, List.append_nil]
      exact h.versions agentId

/-- Revoking a row keeps the invariant where every active row but the newest is revoked. -/
theorem storeInv_revokeSuperseded {store : List RuntimeBinding} {existing : Option RuntimeBinding}
    (hids : Table.KeyUnique RuntimeBinding.bindingId store)
    (hversions : ∀ agentId, (rowsOf store agentId).map RuntimeBinding.bindingVersion =
      List.range' 1 (rowsOf store agentId).length)
    (hactive : ∀ r ∈ store, r.isActive = true →
      r.bindingVersion = (rowsOf store r.catalogAgentId).length ∨
        ∃ binding, existing = some binding ∧ r.bindingId = binding.bindingId) :
    StoreInv (revokeSuperseded store existing) := by
  cases existing with
  | none =>
    refine ⟨hids, hversions, fun r hr hr' => ?_⟩
    rcases hactive r hr hr' with hlast | ⟨binding, hnone, -⟩
    · exact hlast
    · cases hnone
  | some binding =>
    refine ⟨Table.keyUnique_updateWhere (f := RuntimeBinding.revoke) (fun _ => rfl) hids, fun agentId => ?_, fun r hr hr' => ?_⟩
    · change (rowsOf (revokeRow store binding.bindingId) agentId).map _ =
        List.range' 1 (rowsOf (revokeRow store binding.bindingId) agentId).length
      have hlength : (rowsOf (revokeRow store binding.bindingId) agentId).length =
          (rowsOf store agentId).length := by
        rw [rowsOf_revokeRow]
        exact List.length_map _
      rw [hlength, rowsOf_revokeRow, versions_revokeRow, hversions]
    · have hlength : (rowsOf (revokeRow store binding.bindingId) r.catalogAgentId).length =
          (rowsOf store r.catalogAgentId).length := by
        rw [rowsOf_revokeRow]
        exact List.length_map _
      change r.bindingVersion = (rowsOf (revokeRow store binding.bindingId) r.catalogAgentId).length
      rw [hlength]
      rcases mem_revokeRow hr with ⟨hr, hid⟩ | ⟨r₀, -, -, rfl⟩
      · rcases hactive r hr hr' with hlast | ⟨binding', hsome, hid'⟩
        · exact hlast
        · cases hsome
          exact absurd hid' hid
      · cases hr'

/-- An insertion keeps the invariant when it supersedes whatever is active. -/
theorem storeInv_supersede {store store' : List RuntimeBinding} {row : RuntimeBinding}
    {existing : Option RuntimeBinding} (h : StoreInv store)
    (hok : supersede store row existing = .ok store')
    (hsuccessor : Successor store row.catalogAgentId row.bindingVersion)
    (hexisting : ∀ r ∈ store, r.catalogAgentId = row.catalogAgentId → r.isActive = true →
      row.bindingVersion = r.bindingVersion + 1 →
        ∃ binding, existing = some binding ∧ r.bindingId = binding.bindingId) :
    StoreInv store' := by
  obtain ⟨hi, rfl⟩ := supersede_ok hok
  have hversion := h.next_version hi hsuccessor
  obtain ⟨hids, hversions⟩ := h.append hi hversion
  apply storeInv_revokeSuperseded hids hversions
  intro r hr hactive
  rw [rowsOf_append, List.length_append]
  rcases List.mem_append.mp hr with hr | hr
  · have hlast := h.active r hr hactive
    by_cases hagent : row.catalogAgentId = r.catalogAgentId
    · right
      rw [hagent] at hversion
      exact hexisting r hr hagent.symm hactive (by omega)
    · left
      rw [if_neg hagent, List.length_nil, Nat.add_zero]
      exact hlast
  · left
    rw [List.mem_singleton.mp hr, if_pos rfl, List.length_singleton]
    exact hversion

theorem storeInv_revokeRow {store : List RuntimeBinding} (h : StoreInv store)
    (bindingId : String) : StoreInv (revokeRow store bindingId) := by
  have hany : StoreInv (revokeSuperseded store
      (some ⟨bindingId, "", "", "", "", "", "", 0, 0, .active⟩)) :=
    storeInv_revokeSuperseded h.ids h.versions fun r hr hr' => .inl (h.active r hr hr')
  exact hany

/-! ## Steps -/

theorem mem_of_currentActive {store : List RuntimeBinding} {agentId : String}
    {binding : RuntimeBinding} (h : currentActiveBinding store agentId = some binding) :
    binding ∈ store ∧ binding.catalogAgentId = agentId ∧ binding.isActive = true := by
  obtain ⟨hrows, hactive⟩ := List.mem_filter.mp (List.argmax_mem (Option.mem_def.mpr h))
  exact ⟨(mem_rowsOf.mp hrows).1, (mem_rowsOf.mp hrows).2, hactive⟩

theorem readEarlier_currentActive (store : List RuntimeBinding) (agentId : String) :
    ReadEarlier store agentId (currentActiveBinding store agentId) := by
  cases h : currentActiveBinding store agentId with
  | none => trivial
  | some binding =>
    obtain ⟨hmem, hagent, -⟩ := mem_of_currentActive h
    exact ⟨binding, hmem, hagent, rfl, rfl⟩

theorem insertActiveBinding_eq (store : List RuntimeBinding) (agentId merchantId : String)
    (decl : Declaration) (existing : Option RuntimeBinding) :
    insertActiveBinding store agentId merchantId decl existing =
      supersede store (newRow agentId merchantId (decl.idFor agentId (nextVersion existing)) decl
        (nextVersion existing)) existing := rfl

theorem storeInv_insertActive {store store' : List RuntimeBinding} {agentId merchantId : String}
    {decl : Declaration} {existing : Option RuntimeBinding} (h : StoreInv store)
    (hread : ReadEarlier store agentId existing)
    (hok : insertActiveBinding store agentId merchantId decl existing = .ok store') :
    StoreInv store' := by
  rw [insertActiveBinding_eq] at hok
  cases existing with
  | none =>
    refine storeInv_supersede h hok (.inl rfl) fun r hr hagent _ hnext => ?_
    -- a row would have a version below one
    have hbound := (h.version_iff _ _).mp ⟨r, hr, hagent, rfl⟩
    change 1 = r.bindingVersion + 1 at hnext
    omega
  | some binding =>
    obtain ⟨r₀, hr₀, hagent₀, hid₀, hversion₀⟩ := hread
    have hsuccessor : Successor store agentId (binding.bindingVersion + 1) :=
      .inr ⟨r₀, hr₀, hagent₀, by rw [hversion₀]⟩
    refine storeInv_supersede h hok hsuccessor fun r hr hagent _ hnext => ⟨binding, rfl, ?_⟩
    change binding.bindingVersion + 1 = r.bindingVersion + 1 at hnext
    have hsame : r = r₀ := h.row_unique hr hr₀ (hagent.trans hagent₀.symm) (by omega)
    rw [hsame, hid₀]

theorem find_active {store : List RuntimeBinding} {r : RuntimeBinding} (h : StoreInv store)
    (hr : r ∈ store) (hactive : r.isActive = true) :
    (rowsOf store r.catalogAgentId).find? RuntimeBinding.isActive = some r := by
  cases hfind : (rowsOf store r.catalogAgentId).find? RuntimeBinding.isActive with
  | none =>
    have hnone := List.find?_eq_none.mp hfind r (mem_rowsOf.mpr ⟨hr, rfl⟩)
    exact absurd hactive hnone
  | some r' =>
    have hactive' : r'.isActive = true := List.find?_some hfind
    obtain ⟨hr', hagent'⟩ := mem_rowsOf.mp (List.mem_of_find?_eq_some hfind)
    have hlast := h.active r hr hactive
    have hlast' := h.active r' hr' hactive'
    rw [hagent'] at hlast'
    rw [h.row_unique hr' hr hagent' (by omega)]

theorem storeInv_confirm {store store' : List RuntimeBinding} {agentId merchantId : String}
    {decl : Declaration} (h : StoreInv store)
    (hok : confirmBinding store agentId merchantId decl = .ok store') : StoreInv store' := by
  have hmax := h.maxVersion_eq agentId
  have hsuccessor : Successor store agentId (maxVersion store agentId + 1) := by
    by_cases hempty : (rowsOf store agentId).length = 0
    · left
      omega
    · right
      obtain ⟨r, hr, hagent, hversion⟩ :=
        (h.version_iff agentId (rowsOf store agentId).length).mpr ⟨by omega, Nat.le_refl _⟩
      exact ⟨r, hr, hagent, by omega⟩
  refine storeInv_supersede h hok hsuccessor fun r hr hagent hactive _ => ⟨r, ?_, rfl⟩
  change r.catalogAgentId = agentId at hagent
  subst hagent
  exact find_active h hr hactive

theorem storeInv_revoke {store store' : List RuntimeBinding} {agentId bindingId : String}
    (h : StoreInv store) (hok : revokeRuntimeBinding store agentId bindingId = .ok store') :
    StoreInv store' := by
  unfold revokeRuntimeBinding at hok
  split at hok
  · cases hok
  · split at hok
    · cases hok
      exact h
    · cases hok
      exact storeInv_revokeRow h bindingId

theorem enrollmentBinding_ok {store store' : List RuntimeBinding} {agentId merchantId : String}
    {decl : Declaration} {expectedVersion : Nat}
    (h : enrollmentBinding store agentId merchantId decl expectedVersion = .ok store') :
    maxVersion store agentId + 1 = expectedVersion ∧
      insertActiveBinding store agentId merchantId decl (currentActiveBinding store agentId) =
        .ok store' := by
  unfold enrollmentBinding at h
  split at h
  · cases h
  · rename_i hversion
    exact ⟨not_not.mp hversion, h⟩

theorem storeInv_preserved : Preserves Step StoreInv := by
  intro store store' hstep h
  cases hstep with
  | creates hread hok => exact storeInv_insertActive h hread hok
  | confirms hok => exact storeInv_confirm h hok
  | enrolls hok =>
    exact storeInv_insertActive h (readEarlier_currentActive _ _) (enrollmentBinding_ok hok).2
  | revokes hok => exact storeInv_revoke h hok

theorem storeInv_empty (store : List RuntimeBinding) (h : store = []) : StoreInv store := by
  subst h
  exact ⟨List.nodup_nil, fun _ => rfl, fun r hr => by cases hr⟩

/-! ## Nothing issued is given up -/

theorem issue_supersede {store store' : List RuntimeBinding} {row : RuntimeBinding}
    {existing : Option RuntimeBinding} (h : supersede store row existing = .ok store') :
    store.map RuntimeBinding.issue <+: store'.map RuntimeBinding.issue := by
  obtain ⟨-, rfl⟩ := supersede_ok h
  have happend : store.map RuntimeBinding.issue <+: (store ++ [row]).map RuntimeBinding.issue := by
    rw [List.map_append]
    exact List.prefix_append _ _
  cases existing with
  | none => exact happend
  | some binding =>
    change _ <+: (revokeRow _ _).map _
    rw [issue_revokeRow]
    exact happend

theorem issue_step {store store' : List RuntimeBinding} (h : Step store store') :
    store.map RuntimeBinding.issue <+: store'.map RuntimeBinding.issue := by
  cases h with
  | creates hread hok => exact issue_supersede hok
  | confirms hok => exact issue_supersede hok
  | enrolls hok => exact issue_supersede (enrollmentBinding_ok hok).2
  | revokes hok =>
    unfold revokeRuntimeBinding at hok
    split at hok
    · cases hok
    · split at hok
      · cases hok
        exact List.prefix_refl _
      · cases hok
        rewrite [issue_revokeRow]
        exact List.prefix_refl _

theorem issue_run {store store' : List RuntimeBinding} (h : Run Step store store') :
    store.map RuntimeBinding.issue <+: store'.map RuntimeBinding.issue := by
  induction h with
  | refl => exact List.prefix_refl _
  | tail _ hstep ih => exact ih.trans (issue_step hstep)

end KiwiCatalog.Binding
