import Mathlib.Data.List.Sort

/-!
# Json — JSON values and the texts in them

Values as Python's `json` module reads them.  A walk over a value changes its texts and keeps
everything else.
-/

set_option autoImplicit false

/-- A JSON value; a float is kept as its `repr`. -/
inductive Json
  | null
  | bool (b : Bool)
  | int (i : Int)
  | float (repr : List Char)
  | text (s : List Char)
  | array (items : List Json)
  | object (fields : List (String × Json))

namespace Json

/-! ## Texts -/

mutual

/-- The value with its texts changed; keys stay. -/
def mapText (f : List Char → List Char) : Json → Json
  | .null => .null
  | .bool b => .bool b
  | .int i => .int i
  | .float repr => .float repr
  | .text s => .text (f s)
  | .array items => .array (mapTextItems f items)
  | .object fields => .object (mapTextFields f fields)

def mapTextItems (f : List Char → List Char) : List Json → List Json
  | [] => []
  | v :: rest => mapText f v :: mapTextItems f rest

def mapTextFields (f : List Char → List Char) : List (String × Json) → List (String × Json)
  | [] => []
  | (key, v) :: rest => (key, mapText f v) :: mapTextFields f rest

end

mutual

/-- The texts of a value, without its keys. -/
def texts : Json → List (List Char)
  | .null => []
  | .bool _ => []
  | .int _ => []
  | .float _ => []
  | .text s => [s]
  | .array items => textsOfItems items
  | .object fields => textsOfFields fields

def textsOfItems : List Json → List (List Char)
  | [] => []
  | v :: rest => texts v ++ textsOfItems rest

def textsOfFields : List (String × Json) → List (List Char)
  | [] => []
  | (_, v) :: rest => texts v ++ textsOfFields rest

end

mutual

/-- A walk leaves a value as it is exactly where it leaves its texts as they are. -/
theorem mapText_eq_self (f : List Char → List Char) :
    ∀ v : Json, mapText f v = v ↔ ∀ s ∈ texts v, f s = s
  | .null => by simp [mapText, texts]
  | .bool _ => by simp [mapText, texts]
  | .int _ => by simp [mapText, texts]
  | .float _ => by simp [mapText, texts]
  | .text _ => by simp [mapText, texts]
  | .array items => by
    simp only [mapText, texts, Json.array.injEq]
    exact mapTextItems_eq_self f items
  | .object fields => by
    simp only [mapText, texts, Json.object.injEq]
    exact mapTextFields_eq_self f fields

theorem mapTextItems_eq_self (f : List Char → List Char) :
    ∀ items : List Json, mapTextItems f items = items ↔ ∀ s ∈ textsOfItems items, f s = s
  | [] => by simp [mapTextItems, textsOfItems]
  | v :: rest => by
    have hfirst := mapText_eq_self f v
    have hrest := mapTextItems_eq_self f rest
    simp only [mapTextItems, textsOfItems, List.cons.injEq, hfirst, hrest, List.forall_mem_append]

theorem mapTextFields_eq_self (f : List Char → List Char) :
    ∀ fields : List (String × Json),
      mapTextFields f fields = fields ↔ ∀ s ∈ textsOfFields fields, f s = s
  | [] => by simp [mapTextFields, textsOfFields]
  | (key, v) :: rest => by
    have hfirst := mapText_eq_self f v
    have hrest := mapTextFields_eq_self f rest
    simp only [mapTextFields, textsOfFields, List.cons.injEq, Prod.mk.injEq, true_and, hfirst,
      hrest, List.forall_mem_append]

end

mutual

theorem texts_mapText (f : List Char → List Char) :
    ∀ v : Json, texts (mapText f v) = (texts v).map f
  | .null => rfl
  | .bool _ => rfl
  | .int _ => rfl
  | .float _ => rfl
  | .text _ => rfl
  | .array items => by
    simp only [mapText, texts]
    exact textsOfItems_mapText f items
  | .object fields => by
    simp only [mapText, texts]
    exact textsOfFields_mapText f fields

theorem textsOfItems_mapText (f : List Char → List Char) :
    ∀ items : List Json, textsOfItems (mapTextItems f items) = (textsOfItems items).map f
  | [] => rfl
  | v :: rest => by
    simp only [mapTextItems, textsOfItems, List.map_append, texts_mapText f v,
      textsOfItems_mapText f rest]

theorem textsOfFields_mapText (f : List Char → List Char) :
    ∀ fields : List (String × Json),
      textsOfFields (mapTextFields f fields) = (textsOfFields fields).map f
  | [] => rfl
  | (_, v) :: rest => by
    simp only [mapTextFields, textsOfFields, List.map_append, texts_mapText f v,
      textsOfFields_mapText f rest]

end

instance (f : List Char → List Char) (v : Json) : Decidable (mapText f v = v) :=
  decidable_of_iff _ (mapText_eq_self f v).symm

/-! ## Objects -/

/-- `dict.get(key)`. -/
def field (key : String) : List (String × Json) → Option Json
  | [] => none
  | (k, v) :: rest => if k = key then some v else field key rest

def keyOrder (a b : String × Json) : Bool := decide (¬ b.1 < a.1)

mutual

/-- The value with the fields of its objects in the order of their keys. -/
def sortKeys : Json → Json
  | .null => .null
  | .bool b => .bool b
  | .int i => .int i
  | .float repr => .float repr
  | .text s => .text s
  | .array items => .array (sortKeysItems items)
  | .object fields => .object ((sortKeysFields fields).mergeSort keyOrder)

def sortKeysItems : List Json → List Json
  | [] => []
  | v :: rest => sortKeys v :: sortKeysItems rest

def sortKeysFields : List (String × Json) → List (String × Json)
  | [] => []
  | (key, v) :: rest => (key, sortKeys v) :: sortKeysFields rest

end

theorem textsOfFields_eq (fields : List (String × Json)) :
    textsOfFields fields = fields.flatMap fun kv => texts kv.2 := by
  induction fields with
  | nil => rfl
  | cons kv rest ih => rw [textsOfFields, ih]; rfl

mutual

/-- Sorting the fields loses no text. -/
theorem mem_texts_sortKeys {s : List Char} :
    ∀ v : Json, s ∈ texts (sortKeys v) ↔ s ∈ texts v
  | .null => Iff.rfl
  | .bool _ => Iff.rfl
  | .int _ => Iff.rfl
  | .float _ => Iff.rfl
  | .text _ => Iff.rfl
  | .array items => mem_texts_sortKeysItems items
  | .object fields => by
    have hsorted := (List.mergeSort_perm (sortKeysFields fields) keyOrder).flatMap_right
      (fun kv => texts kv.2)
    simp only [sortKeys, texts, textsOfFields_eq]
    rw [hsorted.mem_iff, ← textsOfFields_eq, ← textsOfFields_eq]
    exact mem_texts_sortKeysFields fields

theorem mem_texts_sortKeysItems {s : List Char} :
    ∀ items : List Json, s ∈ textsOfItems (sortKeysItems items) ↔ s ∈ textsOfItems items
  | [] => Iff.rfl
  | v :: rest => by
    simp only [sortKeysItems, textsOfItems, List.mem_append, mem_texts_sortKeys v,
      mem_texts_sortKeysItems rest]

theorem mem_texts_sortKeysFields {s : List Char} :
    ∀ fields : List (String × Json),
      s ∈ textsOfFields (sortKeysFields fields) ↔ s ∈ textsOfFields fields
  | [] => Iff.rfl
  | (key, v) :: rest => by
    simp only [sortKeysFields, textsOfFields, List.mem_append, mem_texts_sortKeys v,
      mem_texts_sortKeysFields rest]

end

theorem field_eq_some_of_mem {fields : List (String × Json)} {key : String} {v : Json}
    (hkeys : (fields.map Prod.fst).Nodup) (h : (key, v) ∈ fields) : field key fields = some v := by
  induction fields with
  | nil => cases h
  | cons kv rest ih =>
    rw [List.map_cons, List.nodup_cons] at hkeys
    rcases List.mem_cons.mp h with heq | hmem
    · rw [← heq]
      exact if_pos rfl
    · have hne : ¬ kv.1 = key := fun heq => hkeys.1 (heq ▸ List.mem_map_of_mem hmem)
      show (if kv.1 = key then some kv.2 else field key rest) = some v
      rw [if_neg hne]
      exact ih hkeys.2 hmem

theorem mem_of_field {fields : List (String × Json)} {key : String} {v : Json}
    (h : field key fields = some v) : (key, v) ∈ fields := by
  induction fields with
  | nil => cases h
  | cons kv rest ih =>
    change (if kv.1 = key then some kv.2 else field key rest) = some v at h
    split at h
    · rename_i hkey
      rw [← Option.some.inj h, ← hkey]
      exact List.mem_cons_self
    · exact List.mem_cons_of_mem kv (ih h)

theorem sortKeysFields_eq (fields : List (String × Json)) :
    sortKeysFields fields = fields.map fun kv => (kv.1, sortKeys kv.2) := by
  induction fields with
  | nil => rfl
  | cons kv rest ih => rw [sortKeysFields, ih]; rfl

/-- A field of an object under its key, the fields sorted. -/
theorem field_sortKeys {fields : List (String × Json)} {key : String} {v : Json}
    (hkeys : (fields.map Prod.fst).Nodup) (h : field key fields = some v) :
    field key ((sortKeysFields fields).mergeSort keyOrder) = some (sortKeys v) := by
  have hperm := List.mergeSort_perm (sortKeysFields fields) keyOrder
  apply field_eq_some_of_mem
  · rw [(hperm.map Prod.fst).nodup_iff, sortKeysFields_eq, List.map_map]
    exact hkeys
  · rw [hperm.mem_iff, sortKeysFields_eq]
    exact List.mem_map_of_mem (mem_of_field h)

/-! ## Encoding -/

/-- `json.dumps(…, sort_keys=True)` and `json.loads`; `none` is a `JSONDecodeError`. -/
structure Codec where
  dumps : Json → List Char
  loads : List Char → Option Json

/-- A value is read as it was written, its objects sorted by their keys. -/
def Codec.RoundTrips (codec : Codec) (v : Json) : Prop :=
  codec.loads (codec.dumps v) = some v.sortKeys ∧ codec.dumps v ≠ []

end Json
