import KiwiCatalog.Discovery.ProfileChecks
import KiwiCatalog.Discovery.SecretScan

/-!
# Projections — the picks of fields that make up a public profile

What stands in a projection, under which key, and that what the scan has cleared of reports is
clean in it.
-/

set_option autoImplicit false

namespace KiwiCatalog.Discovery

open Url (Text)

/-! ## 1. Members -/

theorem mem_pick {kind : Json → Bool} {skip : Text → Bool} {base : Text} {keys : List String}
    {fields : Fields} {kv : String × Json} :
    kv ∈ pick kind skip base keys fields ↔
      kv.1 ∈ keys ∧ kv.2 = Json.get kv.1 fields ∧ kind kv.2 = true ∧
        skip (childPath base kv.1) = false := by
  unfold pick
  rw [List.mem_filterMap]
  constructor
  · rintro ⟨key, hkey, hkv⟩
    split at hkv
    · rename_i hpicked
      rw [Bool.and_eq_true, Bool.not_eq_true'] at hpicked
      rw [← Option.some.inj hkv]
      exact ⟨hkey, rfl, hpicked⟩
    · cases hkv
  · rintro ⟨hkey, hvalue, hkind, hskip⟩
    rw [hvalue] at hkind
    refine ⟨kv.1, hkey, ?_⟩
    rw [if_pos (by rw [hkind, hskip]; rfl), ← hvalue]

theorem mem_objectField {key : String} {fields : Fields} {kv : String × Json} :
    kv ∈ objectField key fields ↔ fields ≠ [] ∧ kv = (key, .object fields) := by
  unfold objectField
  cases fields <;> simp

theorem mem_arrayField {key : String} {items : List Json} {kv : String × Json} :
    kv ∈ arrayField key items ↔ items ≠ [] ∧ kv = (key, .array items) := by
  unfold arrayField
  cases items <;> simp

theorem mem_projectItems {project : Nat → Fields → Fields} {i : Nat} {items : List Json}
    {v : Json} :
    v ∈ projectItems project i items ↔
      ∃ j fields, items[j]? = some (.object fields) ∧ project (i + j) fields ≠ [] ∧
        v = .object (project (i + j) fields) := by
  induction items generalizing i with
  | nil => simp [projectItems]
  | cons w rest ih =>
    -- the item in front, or one of the others
    have hsplit : (∃ j fields, (w :: rest)[j]? = some (.object fields) ∧
        project (i + j) fields ≠ [] ∧ v = .object (project (i + j) fields)) ↔
          (∃ fields, w = .object fields ∧ project i fields ≠ [] ∧ v = .object (project i fields)) ∨
            v ∈ projectItems project (i + 1) rest := by
      rw [ih]
      constructor
      · rintro ⟨j, fields, hget, hproject⟩
        cases j with
        | zero => exact .inl ⟨fields, Option.some.inj hget, hproject⟩
        | succ j =>
          have hindex : i + (j + 1) = i + 1 + j := by omega
          rw [hindex] at hproject
          exact .inr ⟨j, fields, hget, hproject⟩
      · rintro (⟨fields, rfl, hproject⟩ | ⟨j, fields, hget, hproject⟩)
        · exact ⟨0, fields, rfl, hproject⟩
        · have hindex : i + 1 + j = i + (j + 1) := by omega
          rw [hindex] at hproject
          exact ⟨j + 1, fields, hget, hproject⟩
    rw [hsplit]
    cases w with
    | object fields =>
      rw [projectItems]
      split
      · rename_i hempty
        simp [List.isEmpty_iff.mp hempty]
      · rename_i hsome
        rw [List.isEmpty_iff] at hsome
        simp [hsome]
    | _ => simp [projectItems]

/-! ## 2. Clean picks -/

variable {lib : Library} {found : List Text} {base : Text} {fields : Fields}

/-- Every field is unflagged and clean. -/
def CleanFields (lib : Library) (fields : Fields) : Prop :=
  ∀ kv ∈ fields, isFlagged lib kv.1 kv.2 = false ∧ Clean lib kv.2

theorem CleanFields.nil : CleanFields lib [] := fun _ h => absurd h List.not_mem_nil

theorem CleanFields.append {more : Fields} (h : CleanFields lib fields)
    (hmore : CleanFields lib more) : CleanFields lib (fields ++ more) := by
  intro kv hkv
  cases List.mem_append.mp hkv with
  | inl hmem => exact h kv hmem
  | inr hmem => exact hmore kv hmem

theorem isFlagged_of_ownText {key : String} {v : Json} (hkey : isSecretField key = false)
    (hown : v.ownText = []) : isFlagged lib key v = false := by
  rw [isFlagged, hkey, hown]
  rfl

theorem object_ne_null {fields : Fields} : Json.object fields ≠ .null := by simp

/-- Where the scan has gone through an object, it has through the containers in it. -/
theorem Scanned.get {key : String} {v : Json} (h : Scanned lib found base (.object fields))
    (hkey : isSecretField key = false) (hv : Json.get key fields = v) (hnull : v ≠ .null)
    (hown : v.ownText = []) : Scanned lib found (childPath base key) v := by
  cases h.field (Json.mem_of_get hv hnull) with
  | inl hflagged =>
    rw [isFlagged_of_ownText hkey hown] at hflagged
    exact absurd hflagged.1 Bool.false_ne_true
  | inr hscanned => exact hscanned.2

/-- A pick has what is neither reported nor has a report below it. -/
theorem pick_clean {kind : Json → Bool} {keys : List String}
    (h : Scanned lib found base (.object fields)) (hkind : kind .null = false)
    (hkeys : ∀ key ∈ keys, key ≠ "") : CleanFields lib (pick kind (skips found) base keys fields) := by
  intro kv hkv
  obtain ⟨hkey, hvalue, hpicked, hskip⟩ := mem_pick.mp hkv
  obtain ⟨hreported, hbelow⟩ := skips_eq_false.mp hskip
  have hnull : kv.2 ≠ .null := by
    intro hnull
    rw [hnull, hkind] at hpicked
    cases hpicked
  cases h.field (Json.mem_of_get hvalue.symm hnull) with
  | inl hflagged => exact absurd hflagged.2 hreported
  | inr hscanned =>
    refine ⟨hscanned.1, hscanned.2.clean ?_ hbelow⟩
    by_cases hbase : base = []
    · rw [childPath, if_pos hbase]
      intro hnil
      exact hkeys kv.1 hkey (String.toList_eq_nil_iff.mp hnil)
    · exact childPath_ne_nil hbase kv.1

theorem objectField_clean {key : String} (hkey : isSecretField key = false)
    (h : CleanFields lib fields) : CleanFields lib (objectField key fields) := by
  intro kv hkv
  obtain ⟨-, rfl⟩ := mem_objectField.mp hkv
  exact ⟨isFlagged_of_ownText hkey rfl, clean_object.mpr h⟩

theorem arrayField_clean {key : String} {items : List Json} (hkey : isSecretField key = false)
    (h : ∀ v ∈ items, Clean lib v) : CleanFields lib (arrayField key items) := by
  intro kv hkv
  obtain ⟨-, rfl⟩ := mem_arrayField.mp hkv
  exact ⟨isFlagged_of_ownText hkey rfl, clean_array.mpr h⟩

theorem projectItems_clean {project : Nat → Fields → Fields} {items : List Json}
    (h : ∀ j fields, items[j]? = some (.object fields) → CleanFields lib (project j fields)) :
    ∀ v ∈ projectItems project 0 items, Clean lib v := by
  intro v hv
  obtain ⟨j, fields, hget, -, rfl⟩ := mem_projectItems.mp hv
  rw [Nat.zero_add]
  exact clean_object.mpr (h j fields hget)

/-- The items of an array that the scan has gone through. -/
theorem Scanned.items {key : String} {j : Nat} {item : Fields}
    (h : Scanned lib found base (.object fields)) (hkey : isSecretField key = false)
    (hget : (itemsOf (Json.get key fields))[j]? = some (.object item)) :
    Scanned lib found (itemPath (childPath base key) j) (.object item) := by
  cases hv : Json.get key fields with
  | array items =>
    rw [hv] at hget
    exact (h.get hkey hv (fun hnull => nomatch hnull) rfl).item hget
  | _ =>
    rw [hv] at hget
    cases hget

/-! ## 3. Items in a projection -/

theorem mem_elements_pick {kind : Json → Bool} {skip : Text → Bool} {keys : List String}
    {s : Text} :
    s ∈ Json.elementsOfFields (pick kind skip base keys fields) ↔
      ∃ key ∈ keys, kind (Json.get key fields) = true ∧ skip (childPath base key) = false ∧
        s ∈ (Json.get key fields).elements := by
  rw [Json.mem_elementsOfFields]
  constructor
  · rintro ⟨kv, hkv, hs⟩
    obtain ⟨hkey, hvalue, hkind, hskip⟩ := mem_pick.mp hkv
    rw [hvalue] at hkind hs
    exact ⟨kv.1, hkey, hkind, hskip, hs⟩
  · rintro ⟨key, hkey, hkind, hskip, hs⟩
    exact ⟨(key, Json.get key fields), mem_pick.mpr ⟨hkey, rfl, hkind, hskip⟩, hs⟩

theorem mem_elements_append {more : Fields} {s : Text} :
    s ∈ Json.elementsOfFields (fields ++ more) ↔
      s ∈ Json.elementsOfFields fields ∨ s ∈ Json.elementsOfFields more := by
  simp only [Json.mem_elementsOfFields, List.mem_append, or_and_right, exists_or]

theorem mem_elements_objectField {key : String} {s : Text} :
    s ∈ Json.elementsOfFields (objectField key fields) ↔ s ∈ Json.elementsOfFields fields := by
  unfold objectField
  cases fields with
  | nil => rfl
  | cons kv rest =>
    rw [Json.mem_elementsOfFields]
    simp [Json.elements]

theorem mem_elements_projectItems {project : Nat → Fields → Fields} {key : String}
    {items : List Json} {s : Text} :
    s ∈ Json.elementsOfFields (arrayField key (projectItems project 0 items)) ↔
      ∃ j item, items[j]? = some (.object item) ∧ s ∈ Json.elementsOfFields (project j item) := by
  rw [Json.mem_elementsOfFields]
  constructor
  · rintro ⟨kv, hkv, hs⟩
    obtain ⟨-, rfl⟩ := mem_arrayField.mp hkv
    obtain ⟨v, hv, hs⟩ := Json.mem_elementsOfItems.mp hs
    obtain ⟨j, item, hget, -, rfl⟩ := mem_projectItems.mp hv
    rw [Nat.zero_add] at hs
    cases hs with
    | inl hown => cases hown
    | inr hbelow => exact ⟨j, item, hget, hbelow⟩
  · rintro ⟨j, item, hget, hs⟩
    have hsome : project (0 + j) item ≠ [] := by
      rw [Nat.zero_add]
      intro hnil
      rw [hnil] at hs
      cases hs
    have hmem := mem_projectItems.mpr ⟨j, item, hget, hsome, rfl⟩
    refine ⟨_, mem_arrayField.mpr ⟨List.ne_nil_of_mem hmem, rfl⟩, ?_⟩
    rw [Nat.zero_add] at hmem
    exact Json.mem_elementsOfItems.mpr ⟨_, hmem, .inr hs⟩

/-! ## 4. Lookups in a projection -/

theorem get_append {key : String} {more : Fields} :
    Json.get key (fields ++ more) =
      if (Json.field key fields).isSome then Json.get key fields else Json.get key more := by
  unfold Json.get
  rw [Json.field_append]
  cases Json.field key fields <;> rfl

/-- A lookup goes past fields of other keys. -/
theorem get_append_of_not_mem {key : String} {more : Fields}
    (h : key ∉ fields.map Prod.fst) : Json.get key (fields ++ more) = Json.get key more := by
  rw [get_append, Json.field_eq_none h]
  rfl

/-- And stops before them. -/
theorem get_append_of_right {key : String} {more : Fields} (h : key ∉ more.map Prod.fst) :
    Json.get key (fields ++ more) = Json.get key fields := by
  rw [get_append]
  split
  · rfl
  · rename_i hnone
    have hfield : Json.field key fields = none := by simpa using hnone
    rw [Json.get, Json.get, hfield, Json.field_eq_none h]

theorem keys_pick_subset {kind : Json → Bool} {skip : Text → Bool} {keys : List String} :
    ∀ key ∈ (pick kind skip base keys fields).map Prod.fst, key ∈ keys := by
  intro key hkey
  obtain ⟨kv, hkv, rfl⟩ := List.mem_map.mp hkey
  exact (mem_pick.mp hkv).1

theorem keys_objectField {key : String} :
    ∀ name ∈ (objectField key fields).map Prod.fst, name = key := by
  intro name hname
  obtain ⟨kv, hkv, rfl⟩ := List.mem_map.mp hname
  rw [(mem_objectField.mp hkv).2]

theorem keys_arrayField {key : String} {items : List Json} :
    ∀ name ∈ (arrayField key items).map Prod.fst, name = key := by
  intro name hname
  obtain ⟨kv, hkv, rfl⟩ := List.mem_map.mp hname
  rw [(mem_arrayField.mp hkv).2]

theorem pick_keys_nodup {kind : Json → Bool} {skip : Text → Bool} {keys : List String}
    (h : keys.Nodup) : ((pick kind skip base keys fields).map Prod.fst).Nodup := by
  have hsub : List.Sublist ((pick kind skip base keys fields).map Prod.fst) keys := by
    unfold pick
    induction keys with
    | nil => exact .slnil
    | cons key rest ih =>
      rw [List.filterMap_cons]
      have hrest := ih (List.nodup_cons.mp h).2
      split
      · exact .cons _ hrest
      · rename_i kv hkv
        split at hkv
        · rw [← Option.some.inj hkv]
          exact .cons_cons _ hrest
        · cases hkv
  exact hsub.nodup h

theorem get_pick {kind : Json → Bool} {skip : Text → Bool} {keys : List String} {key : String}
    (hkey : key ∈ keys) (hkeys : keys.Nodup) :
    Json.get key (pick kind skip base keys fields) =
      if kind (Json.get key fields) && !skip (childPath base key) then Json.get key fields
      else .null := by
  split
  · rename_i hpicked
    rw [Bool.and_eq_true, Bool.not_eq_true'] at hpicked
    have hmem : (key, Json.get key fields) ∈ pick kind skip base keys fields :=
      mem_pick.mpr ⟨hkey, rfl, hpicked⟩
    have hfield := Json.field_eq_some_of_mem (pick_keys_nodup hkeys) hmem
    show (Json.field key (pick kind skip base keys fields)).getD .null = _
    rw [hfield]
    rfl
  · rename_i hleft
    have hnone : Json.field key (pick kind skip base keys fields) = none := by
      apply Json.field_eq_none
      intro hmem
      obtain ⟨kv, hkv, rfl⟩ := List.mem_map.mp hmem
      obtain ⟨-, hvalue, hpicked⟩ := mem_pick.mp hkv
      rw [← hvalue, hpicked.1, hpicked.2] at hleft
      exact hleft rfl
    show (Json.field key (pick kind skip base keys fields)).getD .null = _
    rw [hnone]
    rfl

theorem get_objectField (key : String) :
    Json.get key (objectField key fields) = if fields = [] then .null else .object fields := by
  unfold objectField
  cases fields with
  | nil => rfl
  | cons kv rest =>
    show (if key = key then some (Json.object (kv :: rest)) else none).getD .null = _
    rw [if_pos rfl]
    rfl

theorem itemsOf_get_arrayField (key : String) (items : List Json) :
    itemsOf (Json.get key (arrayField key items)) = items := by
  unfold arrayField
  cases items with
  | nil => rfl
  | cons v rest =>
    show itemsOf ((if key = key then some (Json.array (v :: rest)) else none).getD .null) = _
    rw [if_pos rfl]
    rfl

end KiwiCatalog.Discovery
