import KiwiCatalog.Lib.JsonTree
import Mathlib.Data.List.Perm.Subperm

/-!
# JsonOrder — JSON values up to the order of their keys

Two objects are the same value when they have the same fields in any order.  With the fields put
in one fixed order of the keys, the same value is the same tree.
-/

set_option autoImplicit false

namespace Json

/-! ## 1. The same value -/

mutual

/-- No object names a field twice. -/
def DistinctKeys : Json → Prop
  | .array items => DistinctKeysItems items
  | .object fields => (fields.map Prod.fst).Nodup ∧ DistinctKeysFields fields
  | _ => True

def DistinctKeysItems : List Json → Prop
  | [] => True
  | v :: rest => DistinctKeys v ∧ DistinctKeysItems rest

def DistinctKeysFields : List (String × Json) → Prop
  | [] => True
  | (_, v) :: rest => DistinctKeys v ∧ DistinctKeysFields rest

end

mutual

/-- Equality up to the order of the keys: as many fields, and each of the one in the other. -/
def Same : Json → Json → Prop
  | .null, .null => True
  | .bool a, .bool b => a = b
  | .int i, .int j => i = j
  | .float a, .float b => a = b
  | .text s, .text t => s = t
  | .array xs, .array ys => SameItems xs ys
  | .object fields, .object others =>
    fields.length = others.length ∧ SameFields fields others
  | _, _ => False

def SameItems : List Json → List Json → Prop
  | [], [] => True
  | v :: rest, w :: others => Same v w ∧ SameItems rest others
  | _, _ => False

def SameFields : List (String × Json) → List (String × Json) → Prop
  | [], _ => True
  | (key, v) :: rest, others => (∃ w, (key, w) ∈ others ∧ Same v w) ∧ SameFields rest others

end

theorem distinctKeysFields_iff {fields : List (String × Json)} :
    DistinctKeysFields fields ↔ ∀ kv ∈ fields, DistinctKeys kv.2 := by
  induction fields with
  | nil => simp [DistinctKeysFields]
  | cons kv rest ih => rw [DistinctKeysFields, ih, List.forall_mem_cons]

theorem distinctKeysItems_iff {items : List Json} :
    DistinctKeysItems items ↔ ∀ v ∈ items, DistinctKeys v := by
  induction items with
  | nil => simp [DistinctKeysItems]
  | cons v rest ih => rw [DistinctKeysItems, ih, List.forall_mem_cons]

/-! ## 2. One order of the keys -/

section Order

variable (le : String → String → Bool)

/-- The order of the fields by an order of their keys. -/
def byKey (a b : String × Json) : Bool := le a.1 b.1

mutual

/-- The value with the fields of its objects put in order. -/
def sortBy : Json → Json
  | .null => .null
  | .bool b => .bool b
  | .int i => .int i
  | .float repr => .float repr
  | .text s => .text s
  | .array items => .array (sortByItems items)
  | .object fields => .object ((sortByFields fields).mergeSort (byKey le))

def sortByItems : List Json → List Json
  | [] => []
  | v :: rest => sortBy v :: sortByItems rest

def sortByFields : List (String × Json) → List (String × Json)
  | [] => []
  | (key, v) :: rest => (key, sortBy v) :: sortByFields rest

end

theorem sortByFields_eq (fields : List (String × Json)) :
    sortByFields le fields = fields.map fun kv => (kv.1, sortBy le kv.2) := by
  induction fields with
  | nil => rfl
  | cons kv rest ih => rw [sortByFields, ih]; rfl

theorem sortByItems_eq (items : List Json) : sortByItems le items = items.map (sortBy le) := by
  induction items with
  | nil => rfl
  | cons v rest ih => rw [sortByItems, ih]; rfl

theorem sortByFields_keys (fields : List (String × Json)) :
    (sortByFields le fields).map Prod.fst = fields.map Prod.fst := by
  rw [sortByFields_eq, List.map_map]
  rfl

theorem mem_sortByFields {fields : List (String × Json)} {key : String} {v : Json} :
    (key, v) ∈ sortByFields le fields ↔ ∃ w, (key, w) ∈ fields ∧ sortBy le w = v := by
  rw [sortByFields_eq, List.mem_map]
  constructor
  · rintro ⟨⟨k, w⟩, hmem, heq⟩
    cases heq
    exact ⟨w, hmem, rfl⟩
  · rintro ⟨w, hmem, rfl⟩
    exact ⟨(key, w), hmem, rfl⟩

variable {le}

/-- A total order. -/
structure KeyOrder (le : String → String → Bool) : Prop where
  total : ∀ a b, (le a b || le b a) = true
  trans : ∀ a b c, le a b = true → le b c = true → le a c = true
  antisymm : ∀ a b, le a b = true → le b a = true → a = b

theorem pairwise_sorted (horder : KeyOrder le) (fields : List (String × Json)) :
    (fields.mergeSort (byKey le)).Pairwise fun a b => byKey le a b = true :=
  List.pairwise_mergeSort (fun a b c => horder.trans a.1 b.1 c.1)
    (fun a b => horder.total a.1 b.1) fields

/-- Of one object, two fields under one key are one. -/
theorem eq_of_key_eq {fields : List (String × Json)} (hkeys : (fields.map Prod.fst).Nodup)
    {a b : String × Json} (ha : a ∈ fields) (hb : b ∈ fields) (h : a.1 = b.1) : a = b :=
  List.inj_on_of_nodup_map hkeys ha hb h

/-- Lists of fields with distinct keys are sorted to one list exactly if they are permutations. -/
theorem mergeSort_eq_iff_perm (horder : KeyOrder le) {fields others : List (String × Json)}
    (hkeys : (fields.map Prod.fst).Nodup) :
    fields.mergeSort (byKey le) = others.mergeSort (byKey le) ↔ fields.Perm others := by
  constructor
  · intro h
    have hleft := List.mergeSort_perm fields (byKey le)
    rw [h] at hleft
    exact hleft.symm.trans (List.mergeSort_perm others (byKey le))
  · intro h
    have hperm : (fields.mergeSort (byKey le)).Perm (others.mergeSort (byKey le)) :=
      (List.mergeSort_perm fields _).trans (h.trans (List.mergeSort_perm others _).symm)
    apply hperm.eq_of_pairwise _ (pairwise_sorted horder fields) (pairwise_sorted horder others)
    intro a b ha hb hab hba
    have ha' : a ∈ fields := (List.mergeSort_perm fields _).mem_iff.mp ha
    have hb' : b ∈ fields := h.mem_iff.mpr ((List.mergeSort_perm others _).mem_iff.mp hb)
    exact eq_of_key_eq hkeys ha' hb' (horder.antisymm a.1 b.1 hab hba)

/-- Of two lists as long, the first without repetitions, one permutes the other exactly if it
is in it. -/
theorem perm_iff_subset {α : Type*} {l l' : List α} (h : l.Nodup) :
    l.Perm l' ↔ l.length = l'.length ∧ ∀ a ∈ l, a ∈ l' := by
  constructor
  · intro hperm
    exact ⟨hperm.length_eq, fun a => hperm.mem_iff.mp⟩
  · rintro ⟨hlength, hsubset⟩
    exact (List.subperm_of_subset h hsubset).perm_of_length_le (Nat.le_of_eq hlength.symm)

/-- The fields of one object are, sorted, among those of another. -/
theorem subset_sorted_cons {key : String} {v : Json} {rest others : List (String × Json)} :
    (∀ kv ∈ sortByFields le ((key, v) :: rest), kv ∈ sortByFields le others) ↔
      (∃ w, (key, w) ∈ others ∧ sortBy le w = sortBy le v) ∧
        ∀ kv ∈ sortByFields le rest, kv ∈ sortByFields le others := by
  rw [sortByFields, List.forall_mem_cons, mem_sortByFields]

mutual

/-- With distinct keys, the values that are sorted to one tree are those that are the same. -/
theorem sortBy_eq_iff (horder : KeyOrder le) : ∀ v w : Json, DistinctKeys v → DistinctKeys w →
    (sortBy le v = sortBy le w ↔ Same v w)
  | .null, w, _, _ => by cases w <;> simp [sortBy, Same]
  | .bool _, w, _, _ => by cases w <;> simp [sortBy, Same]
  | .int _, w, _, _ => by cases w <;> simp [sortBy, Same]
  | .float _, w, _, _ => by cases w <;> simp [sortBy, Same]
  | .text _, w, _, _ => by cases w <;> simp [sortBy, Same]
  | .array items, w, hv, hw => by
    cases w with
    | array others =>
      rw [sortBy, sortBy, Json.array.injEq, Same]
      exact sortByItems_eq_iff horder items others hv hw
    | _ => simp [sortBy, Same]
  | .object fields, w, hv, hw => by
    cases w with
    | object others =>
      have hnodup : ((sortByFields le fields).map Prod.fst).Nodup := by
        rw [sortByFields_keys]
        exact hv.1
      rw [sortBy, sortBy, Json.object.injEq, Same, mergeSort_eq_iff_perm horder hnodup,
        perm_iff_subset hnodup.of_map]
      apply and_congr
      · rw [sortByFields_eq, sortByFields_eq, List.length_map, List.length_map]
      · exact sortByFields_subset_iff horder fields others hv.2 hw.2
    | _ => simp [sortBy, Same]

theorem sortByItems_eq_iff (horder : KeyOrder le) : ∀ items others : List Json,
    DistinctKeysItems items → DistinctKeysItems others →
      (sortByItems le items = sortByItems le others ↔ SameItems items others)
  | [], others, _, _ => by cases others <;> simp [sortByItems, SameItems]
  | v :: rest, others, hv, hw => by
    cases others with
    | nil => simp [sortByItems, SameItems]
    | cons w others =>
      rw [sortByItems, sortByItems, List.cons.injEq, SameItems,
        sortBy_eq_iff horder v w hv.1 hw.1, sortByItems_eq_iff horder rest others hv.2 hw.2]

theorem sortByFields_subset_iff (horder : KeyOrder le) : ∀ fields others : List (String × Json),
    DistinctKeysFields fields → DistinctKeysFields others →
      ((∀ kv ∈ sortByFields le fields, kv ∈ sortByFields le others) ↔ SameFields fields others)
  | [], _, _, _ => by simp [sortByFields, SameFields]
  | (key, v) :: rest, others, hv, hw => by
    rw [subset_sorted_cons, SameFields, sortByFields_subset_iff horder rest others hv.2 hw]
    apply and_congr_left'
    apply exists_congr
    intro w
    apply and_congr_right
    intro hmem
    have hdistinct : DistinctKeys w := distinctKeysFields_iff.mp hw (key, w) hmem
    rw [eq_comm, sortBy_eq_iff horder v w hv.1 hdistinct]

end

mutual

/-- A sorted value stays as it is. -/
theorem sortBy_sortBy (horder : KeyOrder le) : ∀ v : Json, sortBy le (sortBy le v) = sortBy le v
  | .null => rfl
  | .bool _ => rfl
  | .int _ => rfl
  | .float _ => rfl
  | .text _ => rfl
  | .array items => congrArg Json.array (sortByItems_sortByItems horder items)
  | .object fields => by
    show Json.object ((sortByFields le _).mergeSort (byKey le)) = _
    have hsame : sortByFields le ((sortByFields le fields).mergeSort (byKey le)) =
        (sortByFields le fields).mergeSort (byKey le) := by
      rw [sortByFields_eq]
      apply (List.map_congr_left (g := id) _).trans (List.map_id _)
      intro kv hkv
      have hmem := (List.mergeSort_perm (sortByFields le fields) _).mem_iff.mp hkv
      obtain ⟨w, hw, heq⟩ := (mem_sortByFields le).mp hmem
      have htwice : sortBy le kv.2 = kv.2 := by
        rw [← heq]
        exact sortByFields_twice horder fields (kv.1, w) hw
      show (kv.1, sortBy le kv.2) = kv
      rw [htwice]
    rw [hsame, List.mergeSort_of_pairwise (pairwise_sorted horder _)]
    rfl

theorem sortByItems_sortByItems (horder : KeyOrder le) : ∀ items : List Json,
    sortByItems le (sortByItems le items) = sortByItems le items
  | [] => rfl
  | v :: rest => by
    rw [sortByItems, sortByItems, sortBy_sortBy horder v, sortByItems_sortByItems horder rest]

theorem sortByFields_twice (horder : KeyOrder le) : ∀ fields : List (String × Json),
    ∀ kv ∈ fields, sortBy le (sortBy le kv.2) = sortBy le kv.2
  | [], _, h => nomatch h
  | (key, v) :: rest, kv, h => by
    cases h with
    | head => exact sortBy_sortBy horder v
    | tail _ h => exact sortByFields_twice horder rest kv h

end

mutual

theorem distinctKeys_sortBy : ∀ v : Json, DistinctKeys v → DistinctKeys (sortBy le v)
  | .null, _ => trivial
  | .bool _, _ => trivial
  | .int _, _ => trivial
  | .float _, _ => trivial
  | .text _, _ => trivial
  | .array items, h => distinctKeys_sortByItems items h
  | .object fields, h => by
    have hperm := List.mergeSort_perm (sortByFields le fields) (byKey le)
    show (List.map Prod.fst _).Nodup ∧ DistinctKeysFields _
    rw [(hperm.map Prod.fst).nodup_iff, sortByFields_keys, distinctKeysFields_iff]
    constructor
    · exact h.1
    · intro kv hkv
      exact distinctKeys_sortByFields fields h.2 kv (hperm.mem_iff.mp hkv)

theorem distinctKeys_sortByItems : ∀ items : List Json, DistinctKeysItems items →
    DistinctKeysItems (sortByItems le items)
  | [], _ => trivial
  | v :: rest, h => ⟨distinctKeys_sortBy v h.1, distinctKeys_sortByItems rest h.2⟩

theorem distinctKeys_sortByFields : ∀ fields : List (String × Json), DistinctKeysFields fields →
    ∀ kv ∈ sortByFields le fields, DistinctKeys kv.2
  | [], _, _, h => nomatch h
  | (key, v) :: rest, hdistinct, kv, h => by
    cases h with
    | head => exact distinctKeys_sortBy v hdistinct.1
    | tail _ h => exact distinctKeys_sortByFields rest hdistinct.2 kv h

end

/-- Sorting a value gives the same value. -/
theorem same_sortBy (horder : KeyOrder le) {v : Json} (h : DistinctKeys v) :
    Same (sortBy le v) v :=
  (sortBy_eq_iff horder _ v (distinctKeys_sortBy v h) h).mp (sortBy_sortBy horder v)

end Order

end Json
