import KiwiCatalog.Lib.JsonOrder
import KiwiCatalog.Lib.JsonText

/-!
# JsonDumps — the JSON of a value with its keys in order, and what it is read as

Without floats a value is read from its text as the same value, its keys in order.  A number with
too many digits is neither written nor read.
-/

set_option autoImplicit false

namespace Json

/-! ## 1. Values without floats -/

mutual

/-- No number of the value is a float. -/
def FloatFree : Json → Prop
  | .float _ => False
  | .array items => FloatFreeItems items
  | .object fields => FloatFreeFields fields
  | _ => True

def FloatFreeItems : List Json → Prop
  | [] => True
  | v :: rest => FloatFree v ∧ FloatFreeItems rest

def FloatFreeFields : List (String × Json) → Prop
  | [] => True
  | (_, v) :: rest => FloatFree v ∧ FloatFreeFields rest

end

theorem floatFreeFields_iff {fields : List (String × Json)} :
    FloatFreeFields fields ↔ ∀ kv ∈ fields, FloatFree kv.2 := by
  induction fields with
  | nil => simp [FloatFreeFields]
  | cons kv rest ih => rw [FloatFreeFields, ih, List.forall_mem_cons]

theorem readableFields_iff {fields : List (String × Json)} :
    ReadableFields fields ↔ ∀ kv ∈ fields, Readable kv.2 := by
  induction fields with
  | nil => simp [ReadableFields]
  | cons kv rest ih => rw [ReadableFields, ih, List.forall_mem_cons]

theorem renderFields_eq (fields : List (String × Json)) :
    renderFields fields = fields.map fun kv => fieldText kv.1 (render kv.2) := by
  induction fields with
  | nil => rfl
  | cons kv rest ih => rw [renderFields, ih]; rfl

theorem renderItems_eq (items : List Json) : renderItems items = items.map render := by
  induction items with
  | nil => rfl
  | cons v rest ih => rw [renderItems, ih]; rfl

mutual

/-- Without floats, a value is read from its text in any order of its keys. -/
theorem readable_sortBy (le : String → String → Bool) :
    ∀ v : Json, FloatFree v → Readable (sortBy le v)
  | .null, _ => trivial
  | .bool _, _ => trivial
  | .int _, _ => trivial
  | .float _, h => h.elim
  | .text _, _ => trivial
  | .array items, h => readable_sortByItems le items h
  | .object fields, h => by
    show ReadableFields ((sortByFields le fields).mergeSort (byKey le))
    rw [readableFields_iff]
    intro kv hkv
    exact readable_sortByFields le fields h kv ((List.mergeSort_perm _ _).mem_iff.mp hkv)

theorem readable_sortByItems (le : String → String → Bool) :
    ∀ items : List Json, FloatFreeItems items → ReadableItems (sortByItems le items)
  | [], _ => trivial
  | v :: rest, h => ⟨readable_sortBy le v h.1, readable_sortByItems le rest h.2⟩

theorem readable_sortByFields (le : String → String → Bool) :
    ∀ fields : List (String × Json), FloatFreeFields fields →
      ∀ kv ∈ sortByFields le fields, Readable kv.2
  | [], _, _, h => nomatch h
  | (_, v) :: rest, hfree, kv, h => by
    cases h with
    | head => exact readable_sortBy le v hfree.1
    | tail _ h => exact readable_sortByFields le rest hfree.2 kv h

end

/-! ## 2. Keys in order -/

def codePointLe (a b : String) : Bool := decide (¬ b < a)

theorem codePointOrder : KeyOrder codePointLe where
  total := fun a b => keyOrder_total (a, .null) (b, .null)
  trans := fun a b c hab hbc => keyOrder_trans (a, .null) (b, .null) (c, .null) hab hbc
  antisymm := by
    intro a b hab hba
    rw [codePointLe, decide_eq_true_eq, String.not_lt] at hab hba
    exact String.le_antisymm hab hba

mutual

theorem sortKeys_eq_sortBy : ∀ v : Json, sortKeys v = sortBy codePointLe v
  | .null => rfl
  | .bool _ => rfl
  | .int _ => rfl
  | .float _ => rfl
  | .text _ => rfl
  | .array items => by rw [sortKeys, sortBy, sortKeysItems_eq_sortBy]
  | .object fields => by
    rw [sortKeys, sortBy, sortKeysFields_eq_sortBy]
    rfl

theorem sortKeysItems_eq_sortBy : ∀ items : List Json,
    sortKeysItems items = sortByItems codePointLe items
  | [] => rfl
  | v :: rest => by rw [sortKeysItems, sortByItems, sortKeys_eq_sortBy, sortKeysItems_eq_sortBy]

theorem sortKeysFields_eq_sortBy : ∀ fields : List (String × Json),
    sortKeysFields fields = sortByFields codePointLe fields
  | [] => rfl
  | (key, v) :: rest => by
    rw [sortKeysFields, sortByFields, sortKeys_eq_sortBy, sortKeysFields_eq_sortBy]

end

/-- With its keys in order a value is the same value. -/
theorem same_sortKeys {v : Json} (h : DistinctKeys v) : Same (sortKeys v) v := by
  rw [sortKeys_eq_sortBy]
  exact same_sortBy codePointOrder h

/-! ## 3. Numbers -/

mutual

/-- The integers of a value. -/
def ints : Json → List Int
  | .int i => [i]
  | .array items => intsOfItems items
  | .object fields => intsOfFields fields
  | _ => []

def intsOfItems : List Json → List Int
  | [] => []
  | v :: rest => ints v ++ intsOfItems rest

def intsOfFields : List (String × Json) → List Int
  | [] => []
  | (_, v) :: rest => ints v ++ intsOfFields rest

end

theorem intsOfFields_eq (fields : List (String × Json)) :
    intsOfFields fields = fields.flatMap fun kv => ints kv.2 := by
  induction fields with
  | nil => rfl
  | cons kv rest ih =>
    rw [intsOfFields, ih]
    rfl

theorem intsOfItems_eq (items : List Json) : intsOfItems items = items.flatMap ints := by
  induction items with
  | nil => rfl
  | cons v rest ih =>
    rw [intsOfItems, ih]
    rfl

mutual

theorem mem_ints_sortKeys {i : Int} : ∀ v : Json, i ∈ ints (sortKeys v) ↔ i ∈ ints v
  | .null => Iff.rfl
  | .bool _ => Iff.rfl
  | .int _ => Iff.rfl
  | .float _ => Iff.rfl
  | .text _ => Iff.rfl
  | .array items => mem_ints_sortKeysItems items
  | .object fields => by
    have hsorted := (List.mergeSort_perm (sortKeysFields fields) keyOrder).flatMap_right
      (fun kv => ints kv.2)
    rw [sortKeys, ints, ints, intsOfFields_eq, hsorted.mem_iff, ← intsOfFields_eq]
    exact mem_ints_sortKeysFields fields

theorem mem_ints_sortKeysItems {i : Int} : ∀ items : List Json,
    i ∈ intsOfItems (sortKeysItems items) ↔ i ∈ intsOfItems items
  | [] => Iff.rfl
  | v :: rest => by
    rw [sortKeysItems, intsOfItems, intsOfItems, List.mem_append, List.mem_append,
      mem_ints_sortKeys v, mem_ints_sortKeysItems rest]

theorem mem_ints_sortKeysFields {i : Int} : ∀ fields : List (String × Json),
    i ∈ intsOfFields (sortKeysFields fields) ↔ i ∈ intsOfFields fields
  | [] => Iff.rfl
  | (key, v) :: rest => by
    rw [sortKeysFields, intsOfFields, intsOfFields, List.mem_append, List.mem_append,
      mem_ints_sortKeys v, mem_ints_sortKeysFields rest]

end

/-- The limit of the conversion between integers and texts. -/
def maxStrDigits : Nat := 4300

def tooLong (i : Int) : Bool := maxStrDigits < (Nat.toDigits 10 i.natAbs).length

/-- Every number of the value can be written. -/
def Writable (v : Json) : Prop := ∀ i ∈ ints v, tooLong i = false

theorem writable_of_no_ints {v : Json} (h : ints v = []) : Writable v := by
  intro i hi
  rw [h] at hi
  cases hi

theorem any_tooLong_iff {v : Json} : (ints v).any tooLong = false ↔ Writable v := by
  rw [List.any_eq_false]
  exact forall₂_congr fun i _ => Bool.not_eq_true _ ▸ Iff.rfl

/-- An integer of a machine word can be written. -/
theorem tooLong_toInt (i : Int64) : tooLong i.toInt = false := by
  have hlow := i.le_toInt
  have hhigh := i.toInt_lt
  have hdigits : (Nat.toDigits 10 i.toInt.natAbs).length ≤ 19 := by
    rw [Nat.length_toDigits_le_iff (by decide) (by decide)]
    omega
  rw [tooLong, decide_eq_false_iff_not, Nat.not_lt]
  exact Nat.le_trans hdigits (by decide)

/-! ## 4. Writing and reading -/

inductive EncodeError
  | valueError
  deriving DecidableEq

/-- `json.dumps(value, ensure_ascii=False, sort_keys=True)`. -/
def encode (v : Json) : Except EncodeError Text :=
  if (ints v).any tooLong then .error .valueError else .ok (dumps (sortKeys v))

/-- `json.loads(text)`; `none` is the `ValueError`. -/
def loads (text : Text) : Option Json :=
  (parse text).filter fun v => !(ints v).any tooLong

/-- A value as a `dict` holds it, without floats. -/
structure Faithful (v : Json) : Prop where
  distinct : DistinctKeys v
  floatFree : FloatFree v

theorem floatFreeItems_iff {items : List Json} :
    FloatFreeItems items ↔ ∀ v ∈ items, FloatFree v := by
  induction items with
  | nil => simp [FloatFreeItems]
  | cons v rest ih => rw [FloatFreeItems, ih, List.forall_mem_cons]

theorem Faithful.null : Faithful .null := ⟨trivial, trivial⟩

theorem Faithful.text (s : Text) : Faithful (.text s) := ⟨trivial, trivial⟩

theorem Faithful.int (i : Int) : Faithful (.int i) := ⟨trivial, trivial⟩

theorem Faithful.array {items : List Json} (h : ∀ v ∈ items, Faithful v) :
    Faithful (.array items) where
  distinct := distinctKeysItems_iff.mpr fun v hv => (h v hv).distinct
  floatFree := floatFreeItems_iff.mpr fun v hv => (h v hv).floatFree

theorem Faithful.object {fields : List (String × Json)} (hkeys : (fields.map Prod.fst).Nodup)
    (h : ∀ kv ∈ fields, Faithful kv.2) : Faithful (.object fields) where
  distinct := ⟨hkeys, distinctKeysFields_iff.mpr fun kv hkv => (h kv hkv).distinct⟩
  floatFree := floatFreeFields_iff.mpr fun kv hkv => (h kv hkv).floatFree

theorem writable_array {items : List Json} :
    Writable (.array items) ↔ ∀ v ∈ items, Writable v := by
  unfold Writable
  rw [ints, intsOfItems_eq]
  constructor
  · intro h v hv i hi
    exact h i (List.mem_flatMap_of_mem hv hi)
  · intro h i hi
    obtain ⟨v, hv, hiv⟩ := List.mem_flatMap.mp hi
    exact h v hv i hiv

theorem writable_object {fields : List (String × Json)} :
    Writable (.object fields) ↔ ∀ kv ∈ fields, Writable kv.2 := by
  unfold Writable
  rw [ints, intsOfFields_eq]
  constructor
  · intro h kv hkv i hi
    exact h i (List.mem_flatMap.mpr ⟨kv, hkv, hi⟩)
  · intro h i hi
    obtain ⟨kv, hkv, hiv⟩ := List.mem_flatMap.mp hi
    exact h kv hkv i hiv

theorem encode_eq {v : Json} (h : Writable v) : encode v = .ok (dumps (sortKeys v)) := by
  rw [encode, any_tooLong_iff.mpr h]
  rfl

theorem writable_of_encode {v : Json} {text : Text} (h : encode v = .ok text) : Writable v := by
  rw [← any_tooLong_iff]
  cases hlong : (ints v).any tooLong with
  | false => rfl
  | true =>
    rw [encode, hlong] at h
    cases h

theorem loads_dumps {v : Json} (hv : Faithful v) (h : Writable v) :
    loads (dumps (sortKeys v)) = some (sortKeys v) := by
  have hreadable : Readable (sortKeys v) := by
    rw [sortKeys_eq_sortBy]
    exact readable_sortBy codePointLe v hv.floatFree
  have hwritable : (ints (sortKeys v)).any tooLong = false :=
    any_tooLong_iff.mpr fun i hi => h i ((mem_ints_sortKeys v).mp hi)
  rw [loads, parse_dumps hreadable, Option.filter_some, hwritable]
  rfl

end Json
