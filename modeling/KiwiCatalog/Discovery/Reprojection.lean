import KiwiCatalog.Discovery.Projections

/-!
# Reprojection — projections of stored projections

A snapshot keeps a projection as JSON text with sorted keys.  What a pick of the stored fields
gives, and that nothing in a projection is larger or deeper than in what it is of.
-/

set_option autoImplicit false

namespace KiwiCatalog.Discovery

open Url (Text)

/-! ## 1. Bounds -/

section Walk

variable {maxDepth maxNodes : Nat}

theorem add_depthOfItems_le {d : Nat} {items : List Json} :
    d + Json.depthOfItems items ≤ maxDepth ↔
      d ≤ maxDepth ∧ ∀ v ∈ items, d + 1 + v.depth ≤ maxDepth := by
  constructor
  · intro h
    refine ⟨by omega, fun v hv => ?_⟩
    have hv := Json.depthOfItems_le.mp (Nat.le_refl _) v hv
    omega
  · rintro ⟨hd, h⟩
    have hle : Json.depthOfItems items ≤ maxDepth - d :=
      Json.depthOfItems_le.mpr fun v hv => by
        have hv := h v hv
        omega
    omega

theorem add_depthOfFields_le {d : Nat} {fields : Fields} :
    d + Json.depthOfFields fields ≤ maxDepth ↔
      d ≤ maxDepth ∧ ∀ kv ∈ fields, d + 1 + kv.2.depth ≤ maxDepth := by
  constructor
  · intro h
    refine ⟨by omega, fun kv hkv => ?_⟩
    have hkv := Json.depthOfFields_le.mp (Nat.le_refl _) kv hkv
    omega
  · rintro ⟨hd, h⟩
    have hle : Json.depthOfFields fields ≤ maxDepth - d :=
      Json.depthOfFields_le.mpr fun kv hkv => by
        have hkv := h kv hkv
        omega
    omega

theorem walk_leaf_ok {d count n : Nat} {e e' : String} :
    (if maxDepth < d then Except.error e
      else if maxNodes < count + 1 then .error e' else .ok (count + 1)) = .ok n ↔
      n = count + 1 ∧ d + 0 ≤ maxDepth ∧ count + 1 ≤ maxNodes := by
  split
  · exact iff_of_false (fun h => nomatch h) (by omega)
  · split
    · exact iff_of_false (fun h => nomatch h) (by omega)
    · rw [Except.ok.injEq]
      omega

mutual

theorem walk_ok {d count n : Nat} : ∀ {v : Json},
    walk maxDepth maxNodes d count v = .ok n ↔
      n = count + v.nodes ∧ d + v.depth ≤ maxDepth ∧ count + v.nodes ≤ maxNodes
  | .null => walk_leaf_ok
  | .bool _ => walk_leaf_ok
  | .int _ => walk_leaf_ok
  | .float _ => walk_leaf_ok
  | .text _ => walk_leaf_ok
  | .array items => by
    rw [walk, Json.nodes, Json.depth, add_depthOfItems_le, ← Nat.add_assoc]
    split
    · exact iff_of_false (fun h => nomatch h) (by omega)
    · split
      · exact iff_of_false (fun h => nomatch h) (by omega)
      · rw [walkItems_ok (by omega)]
        exact ⟨fun h => ⟨h.1, ⟨by omega, h.2.1⟩, h.2.2⟩, fun h => ⟨h.1, h.2.1.2, h.2.2⟩⟩
  | .object fields => by
    rw [walk, Json.nodes, Json.depth, add_depthOfFields_le, ← Nat.add_assoc]
    split
    · exact iff_of_false (fun h => nomatch h) (by omega)
    · split
      · exact iff_of_false (fun h => nomatch h) (by omega)
      · rw [walkFields_ok (by omega)]
        exact ⟨fun h => ⟨h.1, ⟨by omega, h.2.1⟩, h.2.2⟩, fun h => ⟨h.1, h.2.1.2, h.2.2⟩⟩

theorem walkItems_ok {d count n : Nat} : ∀ {items : List Json}, count ≤ maxNodes →
    (walkItems maxDepth maxNodes d count items = .ok n ↔
      n = count + Json.nodesOfItems items ∧ (∀ v ∈ items, d + v.depth ≤ maxDepth) ∧
        count + Json.nodesOfItems items ≤ maxNodes)
  | [], hcount => by
    rw [walkItems, Json.nodesOfItems]
    simp [hcount, eq_comm]
  | v :: rest, hcount => by
    rw [walkItems, Json.nodesOfItems, List.forall_mem_cons, ← Nat.add_assoc]
    split
    · rename_i e herror
      refine iff_of_false (fun h => nomatch h) fun h => ?_
      have hnodes : count + v.nodes ≤ maxNodes := by omega
      rw [walk_ok.mpr ⟨rfl, h.2.1.1, hnodes⟩] at herror
      cases herror
    · rename_i count' hwalk
      obtain ⟨rfl, hdepth, hnodes⟩ := walk_ok.mp hwalk
      rw [walkItems_ok hnodes]
      exact ⟨fun h => ⟨h.1, ⟨hdepth, h.2.1⟩, h.2.2⟩, fun h => ⟨h.1, h.2.1.2, h.2.2⟩⟩

theorem walkFields_ok {d count n : Nat} : ∀ {fields : Fields}, count ≤ maxNodes →
    (walkFields maxDepth maxNodes d count fields = .ok n ↔
      n = count + Json.nodesOfFields fields ∧ (∀ kv ∈ fields, d + kv.2.depth ≤ maxDepth) ∧
        count + Json.nodesOfFields fields ≤ maxNodes)
  | [], hcount => by
    rw [walkFields, Json.nodesOfFields]
    simp [hcount, eq_comm]
  | (key, v) :: rest, hcount => by
    rw [walkFields, Json.nodesOfFields, List.forall_mem_cons, ← Nat.add_assoc]
    split
    · rename_i e herror
      refine iff_of_false (fun h => nomatch h) fun h => ?_
      have hnodes : count + v.nodes ≤ maxNodes := by omega
      rw [walk_ok.mpr ⟨rfl, h.2.1.1, hnodes⟩] at herror
      cases herror
    · rename_i count' hwalk
      obtain ⟨rfl, hdepth, hnodes⟩ := walk_ok.mp hwalk
      rw [walkFields_ok hnodes]
      exact ⟨fun h => ⟨h.1, ⟨hdepth, h.2.1⟩, h.2.2⟩, fun h => ⟨h.1, h.2.1.2, h.2.2⟩⟩

end

theorem validateJsonBounds_ok {v : Json} :
    validateJsonBounds maxDepth maxNodes v = .ok () ↔
      v.depth ≤ maxDepth ∧ v.nodes ≤ maxNodes := by
  unfold validateJsonBounds
  cases hwalk : walk maxDepth maxNodes 0 0 v with
  | error e =>
    refine iff_of_false (fun h => nomatch h) fun h => ?_
    rw [walk_ok.mpr ⟨rfl, by omega, by omega⟩] at hwalk
    cases hwalk
  | ok n =>
    have h := walk_ok.mp hwalk
    exact iff_of_true rfl ⟨by omega, by omega⟩

end Walk

/-! ## 2. Picks of stored fields -/

/-- Nothing has been reported. -/
def noSkip : Text → Bool := fun _ => false

theorem skips_nil : skips [] = noSkip := rfl

/-- A kind that no absent field is of, and that sorting keeps. -/
structure Kind (kind : Json → Bool) : Prop where
  null : kind .null = false
  sort : ∀ v : Json, kind v.sortKeys = kind v

theorem kind_isPresent : Kind isPresent := ⟨rfl, fun v => by cases v <;> rfl⟩

theorem kind_isText : Kind isText := ⟨rfl, fun v => by cases v <;> rfl⟩

theorem kind_isBool : Kind isBool := ⟨rfl, fun v => by cases v <;> rfl⟩

theorem kind_isArray : Kind isArray := ⟨rfl, fun v => by cases v <;> rfl⟩

theorem kind_isObject : Kind isObject := ⟨rfl, fun v => by cases v <;> rfl⟩

/-- The value, where it is of the kind. -/
def kept (kind : Json → Bool) (v : Json) : Json := if kind v then v else .null

theorem kept_isPresent (v : Json) : kept isPresent v = v := by cases v <;> rfl

theorem kept_of {kind : Json → Bool} {v : Json} (h : v = .null ∨ kind v = true) :
    kept kind v = v := by
  unfold kept
  split
  · rfl
  · rename_i hnot
    cases h with
    | inl hnull => exact hnull.symm
    | inr hkind => exact absurd hkind hnot

theorem get_pick_noSkip {kind : Json → Bool} {base : Text} {keys : List String} {fields : Fields}
    {key : String} (hkeys : keys.Nodup) (hkey : key ∈ keys) :
    Json.get key (pick kind noSkip base keys fields) = kept kind (Json.get key fields) := by
  rw [get_pick hkey hkeys]
  show (if (kind (Json.get key fields) && true) = true then _ else _) = _
  rw [Bool.and_true]
  rfl

theorem sorted_pick {kind : Json → Bool} (hkind : Kind kind) {base base' : Text}
    {keys : List String} {fields stored : Fields}
    (h : ∀ key ∈ keys, Json.get key stored = (kept kind (Json.get key fields)).sortKeys) :
    Json.sortKeysFields (pick kind noSkip base' keys stored) =
      Json.sortKeysFields (pick kind noSkip base keys fields) := by
  rw [Json.sortKeysFields_eq, Json.sortKeysFields_eq]
  unfold pick
  rw [List.map_filterMap, List.map_filterMap]
  apply List.filterMap_congr
  intro key hkey
  rw [h key hkey]
  unfold kept
  by_cases hv : kind (Json.get key fields) = true
  · rw [if_pos hv, hkind.sort, hv]
    show some (key, (Json.get key fields).sortKeys.sortKeys) = _
    rw [Json.sortKeys_sortKeys]
    rfl
  · rw [if_neg hv]
    rw [Bool.not_eq_true] at hv
    rw [hv, show kind Json.null.sortKeys = false from hkind.null]
    rfl

theorem sorted_objectField {key : String} {fields stored : Fields}
    (h : Json.sortKeysFields stored = Json.sortKeysFields fields) :
    Json.sortKeysFields (objectField key stored) =
      Json.sortKeysFields (objectField key fields) := by
  have hempty : stored = [] ↔ fields = [] := by
    rw [← Json.sortKeysFields_eq_nil, h, Json.sortKeysFields_eq_nil]
  by_cases hfields : fields = []
  · rw [hfields, hempty.mpr hfields]
  · have hobject : ∀ {f : Fields}, f ≠ [] → objectField key f = [(key, .object f)] := by
      intro f hf
      unfold objectField
      rw [List.isEmpty_eq_false_iff.mpr hf]
      rfl
    rw [hobject hfields, hobject fun hnil => hfields (hempty.mp hnil)]
    show [(key, (Json.object stored).sortKeys)] = [(key, (Json.object fields).sortKeys)]
    rw [Json.sortKeys_object_congr h]

theorem sorted_arrayField {key : String} {items stored : List Json}
    (h : stored.map Json.sortKeys = items.map Json.sortKeys) :
    Json.sortKeysFields (arrayField key stored) = Json.sortKeysFields (arrayField key items) := by
  have hempty : stored = [] ↔ items = [] := by
    rw [← List.map_eq_nil_iff (f := Json.sortKeys), h, List.map_eq_nil_iff]
  by_cases hitems : items = []
  · rw [hitems, hempty.mpr hitems]
  · have harray : ∀ {f : List Json}, f ≠ [] → arrayField key f = [(key, .array f)] := by
      intro f hf
      unfold arrayField
      rw [List.isEmpty_eq_false_iff.mpr hf]
      rfl
    rw [harray hitems, harray fun hnil => hitems (hempty.mp hnil)]
    show [(key, (Json.array stored).sortKeys)] = [(key, (Json.array items).sortKeys)]
    rw [Json.sortKeys_array, Json.sortKeys_array, h]

/-- A projection of items, of the items that one has kept. -/
theorem sorted_projectItems {project : Nat → Fields → Fields} {items : List Json}
    (h : ∀ fields, .object fields ∈ items → ∀ i j,
      Json.sortKeysFields (project j (Json.sortFields (project i fields))) =
        Json.sortKeysFields (project i fields)) (i j : Nat) :
    (projectItems project j ((projectItems project i items).map Json.sortKeys)).map Json.sortKeys =
      (projectItems project i items).map Json.sortKeys := by
  induction items generalizing i j with
  | nil => rfl
  | cons v rest ih =>
    have hrest := ih fun fields hfields => h fields (List.mem_cons_of_mem v hfields)
    cases v with
    | object fields =>
      have hhead := h fields List.mem_cons_self i j
      rw [projectItems]
      split
      · exact hrest (i + 1) j
      · rename_i hsome
        have hagain : (project j (Json.sortFields (project i fields))).isEmpty = false := by
          rw [List.isEmpty_eq_false_iff]
          intro hnil
          rw [hnil] at hhead
          rw [List.isEmpty_iff] at hsome
          exact hsome (Json.sortKeysFields_eq_nil.mp hhead.symm)
        rw [List.map_cons, Json.sortKeys_object, projectItems, hagain, if_neg Bool.false_ne_true,
          List.map_cons, hrest (i + 1) (j + 1), Json.sortKeys_object, Json.sortFields_congr hhead]
    | _ =>
      rw [projectItems]
      · exact hrest (i + 1) j
      · simp

/-! ## 3. Keys -/

/-- Fields of distinct keys, all of them among some. -/
structure Keyed (fields : Fields) (keys : List String) : Prop where
  nodup : (fields.map Prod.fst).Nodup
  subset : ∀ key ∈ fields.map Prod.fst, key ∈ keys

namespace Keyed

variable {fields more : Fields} {keys keys' : List String}

theorem nil : Keyed [] keys := ⟨List.nodup_nil, fun _ h => absurd h List.not_mem_nil⟩

theorem pick {kind : Json → Bool} {skip : Text → Bool} {base : Text} (h : keys.Nodup) :
    Keyed (pick kind skip base keys fields) keys := ⟨pick_keys_nodup h, keys_pick_subset⟩

theorem objectField {key : String} : Keyed (objectField key fields) [key] := by
  refine ⟨?_, fun name hname => List.mem_singleton.mpr (keys_objectField name hname)⟩
  unfold Discovery.objectField
  split <;> simp

theorem arrayField {key : String} {items : List Json} : Keyed (arrayField key items) [key] := by
  refine ⟨?_, fun name hname => List.mem_singleton.mpr (keys_arrayField name hname)⟩
  unfold Discovery.arrayField
  split <;> simp

theorem append (h : Keyed fields keys) (h' : Keyed more keys') (hapart : ∀ key ∈ keys, key ∉ keys') :
    Keyed (fields ++ more) (keys ++ keys') := by
  constructor
  · rw [List.map_append, List.nodup_append]
    refine ⟨h.nodup, h'.nodup, fun key hkey key' hkey' heq => ?_⟩
    exact hapart key (h.subset key hkey) (heq ▸ h'.subset key' hkey')
  · intro key hkey
    rw [List.map_append, List.mem_append] at hkey
    rw [List.mem_append]
    exact hkey.imp (h.subset key) (h'.subset key)

/-- A lookup of a key that the fields behind do not have. -/
theorem get_left (h' : Keyed more keys') {key : String} (hkey : key ∉ keys') :
    Json.get key (fields ++ more) = Json.get key fields :=
  get_append_of_right fun hmem => hkey (h'.subset key hmem)

theorem get_right (h : Keyed fields keys) {key : String} (hkey : key ∉ keys) :
    Json.get key (fields ++ more) = Json.get key more :=
  get_append_of_not_mem fun hmem => hkey (h.subset key hmem)

theorem get_none (h : Keyed fields keys) {key : String} (hkey : key ∉ keys) :
    Json.get key fields = .null := by
  rw [Json.get, Json.field_eq_none fun hmem => hkey (h.subset key hmem)]
  rfl

theorem get_sorted (h : Keyed fields keys) (key : String) :
    Json.get key (Json.sortFields fields) = (Json.get key fields).sortKeys :=
  Json.get_sortFields h.nodup key

end Keyed

/-! ## 4. Size -/

theorem values_pick {kind : Json → Bool} (hkind : Kind kind) {skip : Text → Bool} {base : Text}
    {keys : List String} {fields : Fields} :
    Json.ValuesWithin (pick kind skip base keys fields) fields := by
  intro kv hkv
  obtain ⟨-, hvalue, hpicked, -⟩ := mem_pick.mp hkv
  refine ⟨kv.2, Json.mem_of_get hvalue.symm fun hnull => ?_, .refl _⟩
  rw [hnull, hkind.null] at hpicked
  cases hpicked

theorem values_objectField {key : String} {picked fields more : Fields}
    (hget : Json.get key more = .object fields)
    (h : Json.Within (.object picked) (.object fields)) :
    Json.ValuesWithin (objectField key picked) more := by
  intro kv hkv
  obtain ⟨-, rfl⟩ := mem_objectField.mp hkv
  exact ⟨_, Json.mem_of_get hget object_ne_null, h⟩

theorem within_projectItems {project : Nat → Fields → Fields} {items : List Json}
    (h : ∀ fields, .object fields ∈ items → ∀ i,
      Json.Within (.object (project i fields)) (.object fields)) (i : Nat) :
    Json.Within (.array (projectItems project i items)) (.array items) := by
  induction items generalizing i with
  | nil => exact .refl _
  | cons v rest ih =>
    obtain ⟨hnodes, hdepth⟩ := ih (fun fields hfields => h fields (List.mem_cons_of_mem v hfields))
      (i + 1)
    rw [Json.nodes, Json.nodes] at hnodes
    rw [Json.depth, Json.depth] at hdepth
    -- a dropped item only makes it smaller
    have hdrop : Json.Within (.array (projectItems project (i + 1) rest)) (.array (v :: rest)) := by
      constructor
      · rw [Json.nodes, Json.nodes, Json.nodesOfItems]
        omega
      · rw [Json.depth, Json.depth, Json.depthOfItems]
        omega
    cases v with
    | object fields =>
      rw [projectItems]
      split
      · exact hdrop
      · obtain ⟨hnodes', hdepth'⟩ := h fields List.mem_cons_self i
        constructor
        · rw [Json.nodes, Json.nodes, Json.nodesOfItems, Json.nodesOfItems]
          omega
        · rw [Json.depth, Json.depth, Json.depthOfItems, Json.depthOfItems]
          omega
    | _ =>
      rw [projectItems]
      · exact hdrop
      · simp

theorem values_arrayField {project : Nat → Fields → Fields} {key : String} {more : Fields}
    (h : ∀ fields, .object fields ∈ itemsOf (Json.get key more) → ∀ i,
      Json.Within (.object (project i fields)) (.object fields)) :
    Json.ValuesWithin
      (arrayField key (projectItems project 0 (itemsOf (Json.get key more)))) more := by
  intro kv hkv
  obtain ⟨hsome, rfl⟩ := mem_arrayField.mp hkv
  cases hget : Json.get key more with
  | array items =>
    rw [hget] at h
    exact ⟨_, Json.mem_of_get hget (fun hnull => nomatch hnull), within_projectItems h 0⟩
  | _ =>
    rw [hget] at hsome
    exact absurd rfl hsome

end KiwiCatalog.Discovery
