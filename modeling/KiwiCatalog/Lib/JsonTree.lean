import Mathlib.Algebra.Ring.Nat
import KiwiCatalog.Lib.Json

/-!
# JsonTree — the names, the texts and the size of a JSON value

A text stands in a value as a field of an object or as an item of an array.  Sorting the fields
changes none of this, and sorting them twice is sorting them once.
-/

set_option autoImplicit false

namespace Json

/-! ## 1. Lookups -/

/-- `dict.get(key)`, where absent is `None`. -/
def get (key : String) (fields : List (String × Json)) : Json := (field key fields).getD .null

theorem field_of_get {key : String} {fields : List (String × Json)} {v : Json}
    (h : get key fields = v) (hv : v ≠ .null) : field key fields = some v := by
  unfold get at h
  cases hfield : field key fields with
  | none =>
    rw [hfield] at h
    exact absurd h.symm hv
  | some w =>
    rw [hfield] at h
    rw [← h]
    rfl

theorem mem_of_get {key : String} {fields : List (String × Json)} {v : Json}
    (h : get key fields = v) (hv : v ≠ .null) : (key, v) ∈ fields :=
  mem_of_field (field_of_get h hv)

theorem field_append (key : String) (fields more : List (String × Json)) :
    field key (fields ++ more) = (field key fields).or (field key more) := by
  induction fields with
  | nil => rfl
  | cons kv rest ih =>
    rw [List.cons_append, field, field]
    split
    · rfl
    · exact ih

theorem field_eq_none {key : String} {fields : List (String × Json)}
    (h : key ∉ fields.map Prod.fst) : field key fields = none := by
  induction fields with
  | nil => rfl
  | cons kv rest ih =>
    rw [List.map_cons, List.mem_cons, not_or] at h
    show (if kv.1 = key then some kv.2 else field key rest) = none
    rw [if_neg (fun hkey => h.1 hkey.symm)]
    exact ih h.2

/-! ## 2. Names, and the places of texts -/

mutual

/-- The names of the fields, at any depth. -/
def names : Json → List String
  | .array items => namesOfItems items
  | .object fields => namesOfFields fields
  | _ => []

def namesOfItems : List Json → List String
  | [] => []
  | v :: rest => names v ++ namesOfItems rest

def namesOfFields : List (String × Json) → List String
  | [] => []
  | (key, v) :: rest => key :: (names v ++ namesOfFields rest)

end

/-- The text itself, where the value is one. -/
def ownText : Json → List (List Char)
  | .text s => [s]
  | _ => []

theorem mem_ownText {s : List Char} {v : Json} : s ∈ ownText v ↔ v = .text s := by
  cases v <;> simp [ownText, eq_comm]

mutual

/-- The texts that are the value of a field, at any depth. -/
def memberTexts : Json → List (List Char)
  | .array items => memberTextsOfItems items
  | .object fields => memberTextsOfFields fields
  | _ => []

def memberTextsOfItems : List Json → List (List Char)
  | [] => []
  | v :: rest => memberTexts v ++ memberTextsOfItems rest

def memberTextsOfFields : List (String × Json) → List (List Char)
  | [] => []
  | (_, v) :: rest => ownText v ++ (memberTexts v ++ memberTextsOfFields rest)

end

mutual

/-- The texts that are an item of an array, at any depth. -/
def elements : Json → List (List Char)
  | .array items => elementsOfItems items
  | .object fields => elementsOfFields fields
  | _ => []

def elementsOfItems : List Json → List (List Char)
  | [] => []
  | v :: rest => ownText v ++ (elements v ++ elementsOfItems rest)

def elementsOfFields : List (String × Json) → List (List Char)
  | [] => []
  | (_, v) :: rest => elements v ++ elementsOfFields rest

end

theorem mem_namesOfFields {n : String} {fields : List (String × Json)} :
    n ∈ namesOfFields fields ↔ ∃ kv ∈ fields, n = kv.1 ∨ n ∈ names kv.2 := by
  induction fields with
  | nil => simp [namesOfFields]
  | cons kv rest ih =>
    rw [namesOfFields, List.mem_cons, List.mem_append, ih, List.exists_mem_cons_iff, or_assoc]

theorem mem_namesOfItems {n : String} {items : List Json} :
    n ∈ namesOfItems items ↔ ∃ v ∈ items, n ∈ names v := by
  induction items with
  | nil => simp [namesOfItems]
  | cons v rest ih => rw [namesOfItems, List.mem_append, ih, List.exists_mem_cons_iff]

theorem mem_memberTextsOfFields {s : List Char} {fields : List (String × Json)} :
    s ∈ memberTextsOfFields fields ↔
      ∃ kv ∈ fields, kv.2 = .text s ∨ s ∈ memberTexts kv.2 := by
  induction fields with
  | nil => simp [memberTextsOfFields]
  | cons kv rest ih =>
    rw [memberTextsOfFields, List.mem_append, List.mem_append, ih, List.exists_mem_cons_iff,
      mem_ownText, or_assoc]

theorem mem_memberTextsOfItems {s : List Char} {items : List Json} :
    s ∈ memberTextsOfItems items ↔ ∃ v ∈ items, s ∈ memberTexts v := by
  induction items with
  | nil => simp [memberTextsOfItems]
  | cons v rest ih => rw [memberTextsOfItems, List.mem_append, ih, List.exists_mem_cons_iff]

theorem mem_elementsOfFields {s : List Char} {fields : List (String × Json)} :
    s ∈ elementsOfFields fields ↔ ∃ kv ∈ fields, s ∈ elements kv.2 := by
  induction fields with
  | nil => simp [elementsOfFields]
  | cons kv rest ih => rw [elementsOfFields, List.mem_append, ih, List.exists_mem_cons_iff]

theorem mem_elementsOfItems {s : List Char} {items : List Json} :
    s ∈ elementsOfItems items ↔ ∃ v ∈ items, v = .text s ∨ s ∈ elements v := by
  induction items with
  | nil => simp [elementsOfItems]
  | cons v rest ih =>
    rw [elementsOfItems, List.mem_append, List.mem_append, ih, List.exists_mem_cons_iff,
      mem_ownText, or_assoc]

mutual

/-- A text is the value itself, a field or an item. -/
theorem mem_texts_iff {s : List Char} : ∀ v : Json,
    s ∈ texts v ↔ v = .text s ∨ s ∈ memberTexts v ∨ s ∈ elements v
  | .null => by simp [texts, memberTexts, elements]
  | .bool _ => by simp [texts, memberTexts, elements]
  | .int _ => by simp [texts, memberTexts, elements]
  | .float _ => by simp [texts, memberTexts, elements]
  | .text t => by simp [texts, memberTexts, elements, eq_comm]
  | .array items => by
    have h := mem_textsOfItems_iff (s := s) items
    simp [texts, memberTexts, elements, h]
  | .object fields => by
    have h := mem_textsOfFields_iff (s := s) fields
    simp [texts, memberTexts, elements, h]

theorem mem_textsOfItems_iff {s : List Char} : ∀ items : List Json,
    s ∈ textsOfItems items ↔ s ∈ memberTextsOfItems items ∨ s ∈ elementsOfItems items
  | [] => by simp [textsOfItems, memberTextsOfItems, elementsOfItems]
  | v :: rest => by
    simp only [textsOfItems, memberTextsOfItems, elementsOfItems, List.mem_append, mem_ownText,
      mem_texts_iff v, mem_textsOfItems_iff rest]
    grind

theorem mem_textsOfFields_iff {s : List Char} : ∀ fields : List (String × Json),
    s ∈ textsOfFields fields ↔ s ∈ memberTextsOfFields fields ∨ s ∈ elementsOfFields fields
  | [] => by simp [textsOfFields, memberTextsOfFields, elementsOfFields]
  | (key, v) :: rest => by
    simp only [textsOfFields, memberTextsOfFields, elementsOfFields, List.mem_append, mem_ownText,
      mem_texts_iff v, mem_textsOfFields_iff rest]
    grind

end

/-! ## 3. Size -/

mutual

/-- The values in it, and itself. -/
def nodes : Json → Nat
  | .array items => 1 + nodesOfItems items
  | .object fields => 1 + nodesOfFields fields
  | _ => 1

def nodesOfItems : List Json → Nat
  | [] => 0
  | v :: rest => nodes v + nodesOfItems rest

def nodesOfFields : List (String × Json) → Nat
  | [] => 0
  | (_, v) :: rest => nodes v + nodesOfFields rest

end

mutual

/-- How far the deepest value is from the top. -/
def depth : Json → Nat
  | .array items => depthOfItems items
  | .object fields => depthOfFields fields
  | _ => 0

def depthOfItems : List Json → Nat
  | [] => 0
  | v :: rest => max (depth v + 1) (depthOfItems rest)

def depthOfFields : List (String × Json) → Nat
  | [] => 0
  | (_, v) :: rest => max (depth v + 1) (depthOfFields rest)

end

theorem nodesOfFields_eq (fields : List (String × Json)) :
    nodesOfFields fields = (fields.map fun kv => nodes kv.2).sum := by
  induction fields with
  | nil => rfl
  | cons kv rest ih => rw [nodesOfFields, ih]; rfl

theorem nodesOfItems_eq (items : List Json) : nodesOfItems items = (items.map nodes).sum := by
  induction items with
  | nil => rfl
  | cons v rest ih => rw [nodesOfItems, ih]; rfl

theorem depthOfFields_le {fields : List (String × Json)} {d : Nat} :
    depthOfFields fields ≤ d ↔ ∀ kv ∈ fields, depth kv.2 + 1 ≤ d := by
  induction fields with
  | nil => simp [depthOfFields]
  | cons kv rest ih => rw [depthOfFields, Nat.max_le, ih, List.forall_mem_cons]

theorem depthOfItems_le {items : List Json} {d : Nat} :
    depthOfItems items ≤ d ↔ ∀ v ∈ items, depth v + 1 ≤ d := by
  induction items with
  | nil => simp [depthOfItems]
  | cons v rest ih => rw [depthOfItems, Nat.max_le, ih, List.forall_mem_cons]

/-! ## 4. Sorting -/

theorem mem_sorted {fields : List (String × Json)} {kv : String × Json} :
    kv ∈ (sortKeysFields fields).mergeSort keyOrder ↔
      ∃ kv' ∈ fields, (kv'.1, sortKeys kv'.2) = kv := by
  rw [(List.mergeSort_perm (sortKeysFields fields) keyOrder).mem_iff, sortKeysFields_eq,
    List.mem_map]

theorem sortKeys_eq_text {v : Json} {s : List Char} : sortKeys v = .text s ↔ v = .text s := by
  cases v <;> simp [sortKeys]

mutual

theorem mem_names_sortKeys {n : String} : ∀ v : Json, n ∈ names (sortKeys v) ↔ n ∈ names v
  | .null => Iff.rfl
  | .bool _ => Iff.rfl
  | .int _ => Iff.rfl
  | .float _ => Iff.rfl
  | .text _ => Iff.rfl
  | .array items => mem_names_sortKeysItems items
  | .object fields => by
    show n ∈ namesOfFields _ ↔ n ∈ namesOfFields fields
    rw [mem_namesOfFields]
    simp only [mem_sorted]
    rw [← mem_names_sortKeysFields fields, sortKeysFields_eq, mem_namesOfFields]
    simp only [List.mem_map]

theorem mem_names_sortKeysItems {n : String} : ∀ items : List Json,
    n ∈ namesOfItems (sortKeysItems items) ↔ n ∈ namesOfItems items
  | [] => Iff.rfl
  | v :: rest => by
    simp only [sortKeysItems, namesOfItems, List.mem_append, mem_names_sortKeys v,
      mem_names_sortKeysItems rest]

theorem mem_names_sortKeysFields {n : String} : ∀ fields : List (String × Json),
    n ∈ namesOfFields (sortKeysFields fields) ↔ n ∈ namesOfFields fields
  | [] => Iff.rfl
  | (key, v) :: rest => by
    simp only [sortKeysFields, namesOfFields, List.mem_cons, List.mem_append,
      mem_names_sortKeys v, mem_names_sortKeysFields rest]

end

mutual

theorem mem_memberTexts_sortKeys {s : List Char} : ∀ v : Json,
    s ∈ memberTexts (sortKeys v) ↔ s ∈ memberTexts v
  | .null => Iff.rfl
  | .bool _ => Iff.rfl
  | .int _ => Iff.rfl
  | .float _ => Iff.rfl
  | .text _ => Iff.rfl
  | .array items => mem_memberTexts_sortKeysItems items
  | .object fields => by
    show s ∈ memberTextsOfFields _ ↔ s ∈ memberTextsOfFields fields
    rw [mem_memberTextsOfFields]
    simp only [mem_sorted]
    rw [← mem_memberTexts_sortKeysFields fields, sortKeysFields_eq, mem_memberTextsOfFields]
    simp only [List.mem_map]

theorem mem_memberTexts_sortKeysItems {s : List Char} : ∀ items : List Json,
    s ∈ memberTextsOfItems (sortKeysItems items) ↔ s ∈ memberTextsOfItems items
  | [] => Iff.rfl
  | v :: rest => by
    simp only [sortKeysItems, memberTextsOfItems, List.mem_append, mem_memberTexts_sortKeys v,
      mem_memberTexts_sortKeysItems rest]

theorem mem_memberTexts_sortKeysFields {s : List Char} : ∀ fields : List (String × Json),
    s ∈ memberTextsOfFields (sortKeysFields fields) ↔ s ∈ memberTextsOfFields fields
  | [] => Iff.rfl
  | (key, v) :: rest => by
    simp only [sortKeysFields, memberTextsOfFields, List.mem_append, mem_ownText,
      sortKeys_eq_text, mem_memberTexts_sortKeys v, mem_memberTexts_sortKeysFields rest]

end

theorem sum_map_perm {α : Type*} {l l' : List α} (h : l.Perm l') (f : α → Nat) :
    (l.map f).sum = (l'.map f).sum := (h.map f).sum_nat

mutual

theorem nodes_sortKeys : ∀ v : Json, nodes (sortKeys v) = nodes v
  | .null => rfl
  | .bool _ => rfl
  | .int _ => rfl
  | .float _ => rfl
  | .text _ => rfl
  | .array items => congrArg (1 + ·) (nodes_sortKeysItems items)
  | .object fields => by
    show 1 + nodesOfFields _ = 1 + nodesOfFields fields
    rw [nodesOfFields_eq, sum_map_perm (List.mergeSort_perm _ _), ← nodesOfFields_eq,
      nodes_sortKeysFields fields]

theorem nodes_sortKeysItems : ∀ items : List Json,
    nodesOfItems (sortKeysItems items) = nodesOfItems items
  | [] => rfl
  | v :: rest => by
    rw [sortKeysItems, nodesOfItems, nodesOfItems, nodes_sortKeys v, nodes_sortKeysItems rest]

theorem nodes_sortKeysFields : ∀ fields : List (String × Json),
    nodesOfFields (sortKeysFields fields) = nodesOfFields fields
  | [] => rfl
  | (key, v) :: rest => by
    rw [sortKeysFields, nodesOfFields, nodesOfFields, nodes_sortKeys v,
      nodes_sortKeysFields rest]

end

mutual

theorem depth_sortKeys : ∀ v : Json, depth (sortKeys v) = depth v
  | .null => rfl
  | .bool _ => rfl
  | .int _ => rfl
  | .float _ => rfl
  | .text _ => rfl
  | .array items => depth_sortKeysItems items
  | .object fields => by
    show depthOfFields _ = depthOfFields fields
    apply Nat.le_antisymm
    · rw [depthOfFields_le]
      intro kv hkv
      obtain ⟨kv', hmem, rfl⟩ := mem_sorted.mp hkv
      have h := depthOfFields_le.mp (Nat.le_of_eq (depth_sortKeysFields fields))
        (kv'.1, sortKeys kv'.2) (by rw [sortKeysFields_eq]; exact List.mem_map_of_mem hmem)
      exact h
    · rw [← depth_sortKeysFields fields, depthOfFields_le]
      intro kv hkv
      apply depthOfFields_le.mp (Nat.le_refl _)
      rw [(List.mergeSort_perm _ _).mem_iff]
      exact hkv

theorem depth_sortKeysItems : ∀ items : List Json,
    depthOfItems (sortKeysItems items) = depthOfItems items
  | [] => rfl
  | v :: rest => by
    rw [sortKeysItems, depthOfItems, depthOfItems, depth_sortKeys v, depth_sortKeysItems rest]

theorem depth_sortKeysFields : ∀ fields : List (String × Json),
    depthOfFields (sortKeysFields fields) = depthOfFields fields
  | [] => rfl
  | (key, v) :: rest => by
    rw [sortKeysFields, depthOfFields, depthOfFields, depth_sortKeys v,
      depth_sortKeysFields rest]

end

theorem keyOrder_trans (a b c : String × Json) (hab : keyOrder a b = true)
    (hbc : keyOrder b c = true) : keyOrder a c = true := by
  rw [keyOrder, decide_eq_true_eq, String.not_lt] at hab hbc ⊢
  exact String.le_trans hab hbc

theorem keyOrder_total (a b : String × Json) : (keyOrder a b || keyOrder b a) = true := by
  rw [keyOrder, keyOrder, Bool.or_eq_true, decide_eq_true_eq, decide_eq_true_eq, String.not_lt,
    String.not_lt]
  exact String.le_total a.1 b.1

theorem sortKeysItems_eq (items : List Json) : sortKeysItems items = items.map sortKeys := by
  induction items with
  | nil => rfl
  | cons v rest ih => rw [sortKeysItems, ih]; rfl

mutual

theorem sortKeys_sortKeys : ∀ v : Json, sortKeys (sortKeys v) = sortKeys v
  | .null => rfl
  | .bool _ => rfl
  | .int _ => rfl
  | .float _ => rfl
  | .text _ => rfl
  | .array items => congrArg Json.array (sortKeysItems_sortKeysItems items)
  | .object fields => by
    show Json.object ((sortKeysFields _).mergeSort keyOrder) = _
    have hsame : sortKeysFields ((sortKeysFields fields).mergeSort keyOrder) =
        (sortKeysFields fields).mergeSort keyOrder := by
      rw [sortKeysFields_eq]
      refine (List.map_congr_left (g := id) ?_).trans (List.map_id _)
      intro kv hkv
      obtain ⟨kv', hmem, rfl⟩ := mem_sorted.mp hkv
      exact Prod.ext rfl (sortKeysFields_twice fields kv' hmem)
    rw [hsame, List.mergeSort_of_pairwise]
    · rfl
    · exact List.pairwise_mergeSort keyOrder_trans keyOrder_total _

theorem sortKeysItems_sortKeysItems : ∀ items : List Json,
    sortKeysItems (sortKeysItems items) = sortKeysItems items
  | [] => rfl
  | v :: rest => by
    rw [sortKeysItems, sortKeysItems, sortKeys_sortKeys v, sortKeysItems_sortKeysItems rest]

theorem sortKeysFields_twice : ∀ fields : List (String × Json),
    ∀ kv ∈ fields, sortKeys (sortKeys kv.2) = sortKeys kv.2
  | [], _, h => nomatch h
  | (key, v) :: rest, kv, h => by
    cases h with
    | head => exact sortKeys_sortKeys v
    | tail _ h => exact sortKeysFields_twice rest kv h

end

/-- A lookup in the sorted fields of an object of distinct names. -/
theorem get_sorted {fields : List (String × Json)} (hkeys : (fields.map Prod.fst).Nodup)
    (key : String) :
    get key ((sortKeysFields fields).mergeSort keyOrder) = sortKeys (get key fields) := by
  unfold get
  cases hfield : field key fields with
  | some v =>
    rw [field_sortKeys hkeys hfield]
    rfl
  | none =>
    rw [field_eq_none]
    · rfl
    · intro hmem
      obtain ⟨kv, hkv, hkey⟩ := List.mem_map.mp hmem
      obtain ⟨kv', hmem', rfl⟩ := mem_sorted.mp hkv
      have hsome := field_eq_some_of_mem hkeys hmem'
      rw [show kv'.1 = key from hkey, hfield] at hsome
      cases hsome

/-! ## 5. Sorted fields -/

/-- The fields of an object in the order of their keys, with what is below them. -/
def sortFields (fields : List (String × Json)) : List (String × Json) :=
  (sortKeysFields fields).mergeSort keyOrder

theorem sortKeys_object (fields : List (String × Json)) :
    sortKeys (.object fields) = .object (sortFields fields) := rfl

theorem sortKeys_array (items : List Json) :
    sortKeys (.array items) = .array (items.map sortKeys) := by
  rw [sortKeys, sortKeysItems_eq]

theorem get_sortFields {fields : List (String × Json)} (hkeys : (fields.map Prod.fst).Nodup)
    (key : String) : get key (sortFields fields) = sortKeys (get key fields) :=
  get_sorted hkeys key

theorem sortKeysFields_append (fields more : List (String × Json)) :
    sortKeysFields (fields ++ more) = sortKeysFields fields ++ sortKeysFields more := by
  rw [sortKeysFields_eq, sortKeysFields_eq, sortKeysFields_eq, List.map_append]

theorem sortFields_congr {fields more : List (String × Json)}
    (h : sortKeysFields fields = sortKeysFields more) : sortFields fields = sortFields more := by
  rw [sortFields, sortFields, h]

theorem sortKeys_object_congr {fields more : List (String × Json)}
    (h : sortKeysFields fields = sortKeysFields more) :
    sortKeys (.object fields) = sortKeys (.object more) := by
  rw [sortKeys_object, sortKeys_object, sortFields_congr h]

theorem sortKeysFields_eq_nil {fields : List (String × Json)} :
    sortKeysFields fields = [] ↔ fields = [] := by
  rw [sortKeysFields_eq, List.map_eq_nil_iff]

/-! ## 6. Smaller values -/

/-- Not larger and not deeper. -/
structure Within (v w : Json) : Prop where
  nodes : v.nodes ≤ w.nodes
  depth : v.depth ≤ w.depth

theorem Within.refl (v : Json) : Within v v := ⟨Nat.le_refl _, Nat.le_refl _⟩

/-- Each field stands for one of its key that is as large. -/
def ValuesWithin (fields more : List (String × Json)) : Prop :=
  ∀ kv ∈ fields, ∃ w, (kv.1, w) ∈ more ∧ Within kv.2 w

theorem ValuesWithin.append {fields fields' more : List (String × Json)}
    (h : ValuesWithin fields more) (h' : ValuesWithin fields' more) :
    ValuesWithin (fields ++ fields') more := by
  intro kv hkv
  cases List.mem_append.mp hkv with
  | inl hmem => exact h kv hmem
  | inr hmem => exact h' kv hmem

theorem nodesOfFields_append (fields more : List (String × Json)) :
    nodesOfFields (fields ++ more) = nodesOfFields fields + nodesOfFields more := by
  induction fields with
  | nil => simp [nodesOfFields]
  | cons kv rest ih => rw [List.cons_append, nodesOfFields, nodesOfFields, ih, Nat.add_assoc]

theorem nodesOfFields_le {fields more : List (String × Json)}
    (hkeys : (fields.map Prod.fst).Nodup) (h : ValuesWithin fields more) :
    nodesOfFields fields ≤ nodesOfFields more := by
  induction fields generalizing more with
  | nil => exact Nat.zero_le _
  | cons kv rest ih =>
    obtain ⟨w, hw, hwithin⟩ := h kv List.mem_cons_self
    obtain ⟨front, back, rfl⟩ := List.append_of_mem hw
    rw [List.map_cons, List.nodup_cons] at hkeys
    -- the others have other keys
    have hrest : ValuesWithin rest (front ++ back) := by
      intro other hother
      obtain ⟨u, hu, hbelow⟩ := h other (List.mem_cons_of_mem kv hother)
      refine ⟨u, ?_, hbelow⟩
      rw [List.mem_append, List.mem_cons] at hu
      rw [List.mem_append]
      rcases hu with hfront | heq | hback
      · exact .inl hfront
      · have hkey : other.1 = kv.1 := (Prod.mk.inj heq).1
        exact absurd (hkey ▸ List.mem_map_of_mem hother) hkeys.1
      · exact .inr hback
    have hle := ih hkeys.2 hrest
    have hnodes := hwithin.nodes
    rw [nodesOfFields_append] at hle
    rw [nodesOfFields_append, nodesOfFields, nodesOfFields]
    omega

theorem depthOfFields_le_of {fields more : List (String × Json)} (h : ValuesWithin fields more) :
    depthOfFields fields ≤ depthOfFields more := by
  rw [depthOfFields_le]
  intro kv hkv
  obtain ⟨w, hw, hwithin⟩ := h kv hkv
  exact Nat.le_trans (Nat.succ_le_succ hwithin.depth) (depthOfFields_le.mp (Nat.le_refl _) _ hw)

theorem within_object {fields more : List (String × Json)} (hkeys : (fields.map Prod.fst).Nodup)
    (h : ValuesWithin fields more) : Within (.object fields) (.object more) :=
  ⟨Nat.add_le_add_left (nodesOfFields_le hkeys h) 1, depthOfFields_le_of h⟩

end Json
