import KiwiCatalog.Enrollment.CanonicalJson
import KiwiCatalog.Lib.JsonDumps

/-!
# Enrollment.CanonicalRoundTrip — what the canonical bytes say

A value that is written is the JSON value that its bytes are read as; two values have the same
bytes exactly if they are one JSON value up to the order of the keys.
-/

set_option autoImplicit false

namespace Py.Value

open KiwiCatalog.Enrollment.Canonical

/-! ## 1. JSON values and the limits -/

mutual

/-- The JSON value that a Python value stands for; `none` where it stands for none. -/
def json : Value → Option Json
  | .none => some .null
  | .bool b => some (.bool b)
  | .int i => some (.int i)
  | .float .nan => Option.none
  | .float (.infinite _) => Option.none
  | .float (.finite negative coefficient exponent) =>
    some (.float (floatText negative coefficient exponent))
  | .str s => (scalars s).map .text
  | .list items => (jsonItems items).map .array
  | .dict members => (jsonMembers members).map .object
  | .other => Option.none

def jsonItems : List Value → Option (List Json)
  | [] => some []
  | v :: rest =>
    match json v, jsonItems rest with
    | some j, some items => some (j :: items)
    | _, _ => Option.none

def jsonMembers : List (Key × Value) → Option (List (String × Json))
  | [] => some []
  | (.text key, v) :: rest =>
    match scalars key, json v, jsonMembers rest with
    | some text, some j, some fields => some ((String.ofList text, j) :: fields)
    | _, _, _ => Option.none
  | (.other _, _) :: _ => Option.none

end

mutual

/-- No number of the value is beyond what JavaScript holds exactly. -/
def SafeNumbers : Value → Prop
  | .int i => i.natAbs ≤ MAX_SAFE_INTEGER
  | .float (.finite _ coefficient exponent) => exceedsSafe coefficient exponent = false
  | .list items => SafeNumbersItems items
  | .dict members => SafeNumbersMembers members
  | _ => True

def SafeNumbersItems : List Value → Prop
  | [] => True
  | v :: rest => SafeNumbers v ∧ SafeNumbersItems rest

def SafeNumbersMembers : List (Key × Value) → Prop
  | [] => True
  | (_, v) :: rest => SafeNumbers v ∧ SafeNumbersMembers rest

end

end Py.Value

namespace KiwiCatalog.Enrollment.Canonical

open Py (CodePoint Float64 Key scalars keyOf keyOf_injective scalars_eq_some)

/-- The text of a JSON value, its keys in UTF-16 order. -/
def canonicalText (j : Json) : Text := Json.render (Json.sortBy Utf16.le j)

/-- The value stands for a JSON value, its numbers are safe, and so are its depth and its size. -/
def InLimits (v : Py.Value) : Prop :=
  ∃ j, v.json = some j ∧ v.SafeNumbers ∧ j.depth ≤ MAX_DEPTH ∧
    (encode (canonicalText j)).size ≤ MAX_BYTES

/-- The order of the keys is total. -/
theorem keyOrder : Json.KeyOrder Utf16.le := ⟨Utf16.le_total, Utf16.le_trans, Utf16.le_antisymm⟩

/-! ## 2. What is written -/

theorem collect_ok (parts : List Text) : collect (parts.map .ok) = .ok parts := by
  induction parts with
  | nil => rfl
  | cons part rest ih =>
    rw [List.map_cons, collect, ih]
    rfl

theorem eq_of_collect {results : List (Except CanonicalError Text)} {parts : List Text}
    (h : collect results = .ok parts) : results = parts.map .ok := by
  induction results generalizing parts with
  | nil =>
    cases h
    rfl
  | cons result rest ih =>
    cases result with
    | error e => cases h
    | ok part =>
      rw [collect] at h
      cases hrest : collect rest with
      | error e =>
        rw [hrest] at h
        cases h
      | ok more =>
        rw [hrest] at h
        cases h
        rw [List.map_cons, ih hrest]

theorem jsonMembers_keys {members : List (Key × Py.Value)} {fields : List (String × Json)}
    (h : Py.Value.jsonMembers members = some fields) :
    members.map Prod.fst = (fields.map Prod.fst).map keyOf := by
  induction members generalizing fields with
  | nil =>
    cases h
    rfl
  | cons member rest ih =>
    obtain ⟨key, v⟩ := member
    cases key with
    | other id => cases h
    | text key =>
      rw [Py.Value.jsonMembers] at h
      split at h
      · rename_i text j more hkey hjson hmore
        cases h
        rw [List.map_cons, List.map_cons, List.map_cons, ← ih hmore, keyOf,
          Py.lit, String.toList_ofList, Py.ofText, ← scalars_eq_some hkey]
      · cases h

theorem all_isText {members : List (Key × Py.Value)} {fields : List (String × Json)}
    (h : Py.Value.jsonMembers members = some fields) :
    members.all (fun member => member.1.isText) = true := by
  rw [List.all_eq_true]
  intro member hmember
  have hkey : member.1 ∈ members.map Prod.fst := List.mem_map_of_mem hmember
  rw [jsonMembers_keys h] at hkey
  obtain ⟨name, _, heq⟩ := List.mem_map.mp hkey
  rw [← heq]
  rfl

/-- A field as the entry that is sorted. -/
def entryOf (kv : String × Json) : String × Except CanonicalError Text :=
  (kv.1, .ok (Json.render kv.2))

theorem sorted_entryOf (fields : List (String × Json)) :
    sorted (fields.map entryOf) = (fields.mergeSort (Json.byKey Utf16.le)).map entryOf := by
  have hmap := List.map_mergeSort (r := Json.byKey Utf16.le) (f := entryOf) (l := fields)
    (s := fun a b : String × Except CanonicalError Text => Utf16.le a.1 b.1) fun _ _ _ _ => rfl
  rw [sorted, ← hmap]

/-- Sorting the entries and writing them is writing the sorted fields. -/
theorem sorted_entries (fields : List (String × Json)) :
    (sorted (fields.map fun kv => (kv.1, Except.ok (canonicalText kv.2)))).map entryText =
      (Json.renderFields ((Json.sortByFields Utf16.le fields).mergeSort
        (Json.byKey Utf16.le))).map .ok := by
  have hentries : (fields.map fun kv => (kv.1, (Except.ok (canonicalText kv.2) :
      Except CanonicalError Text))) = (Json.sortByFields Utf16.le fields).map entryOf := by
    rw [Json.sortByFields_eq, List.map_map]
    rfl
  rw [hentries, sorted_entryOf, List.map_map, Json.renderFields_eq, List.map_map]
  rfl

mutual

/-- A value within the limits of numbers and depth is written as its JSON value. -/
theorem canonical_of_json : ∀ (v : Py.Value) {j : Json} {depth : Nat}, v.json = some j →
    v.SafeNumbers → depth + j.depth ≤ MAX_DEPTH → canonical v depth = .ok (canonicalText j)
  | .none, j, depth, hjson, _, hdepth => by
    cases hjson
    rw [canonical, withinDepth, if_neg (by omega)]
    rfl
  | .bool b, j, depth, hjson, _, hdepth => by
    cases hjson
    cases b with
    | true =>
      rw [canonical, withinDepth, if_neg (by omega)]
      rfl
    | false =>
      rw [canonical, withinDepth, if_neg (by omega)]
      rfl
  | .int i, j, depth, hjson, hsafe, hdepth => by
    cases hjson
    rw [canonical, withinDepth, if_neg (by omega)]
    rw [integer, if_neg (Nat.not_lt.mpr hsafe)]
    rfl
  | .float .nan, _, _, hjson, _, _ => by cases hjson
  | .float (.infinite _), _, _, hjson, _, _ => by cases hjson
  | .float (.finite negative coefficient exponent), j, depth, hjson, hsafe, hdepth => by
    cases hjson
    rw [canonical, withinDepth, if_neg (by omega)]
    rw [number, show exceedsSafe coefficient exponent = false from hsafe]
    rfl
  | .str s, j, depth, hjson, _, hdepth => by
    rw [Py.Value.json, Option.map_eq_some_iff] at hjson
    obtain ⟨text, htext, rfl⟩ := hjson
    rw [canonical, withinDepth, if_neg (by omega)]
    rw [string, htext]
    rfl
  | .list items, j, depth, hjson, hsafe, hdepth => by
    rw [Py.Value.json, Option.map_eq_some_iff] at hjson
    obtain ⟨js, hjs, rfl⟩ := hjson
    have hbelow : ∀ j ∈ js, depth + 1 + j.depth ≤ MAX_DEPTH := by
      intro j hj
      have hle := Json.depthOfItems_le.mp (Nat.le_refl (Json.depthOfItems js)) j hj
      change depth + Json.depthOfItems js ≤ MAX_DEPTH at hdepth
      omega
    have hitems := canonicalItems_of_json items hjs hsafe hbelow
    rw [canonical, withinDepth, if_neg (by omega)]
    show (collect (canonicalItems items (depth + 1))).map _ = _
    rw [hitems, ← List.map_map, collect_ok]
    show Except.ok ('[' :: (Json.join _ ++ [']'])) = _
    rw [canonicalText, Json.sortBy, Json.render, Json.renderItems_eq, Json.sortByItems_eq,
      List.map_map]
    rfl
  | .dict members, j, depth, hjson, hsafe, hdepth => by
    rw [Py.Value.json, Option.map_eq_some_iff] at hjson
    obtain ⟨fields, hfields, rfl⟩ := hjson
    have hbelow : ∀ kv ∈ fields, depth + 1 + kv.2.depth ≤ MAX_DEPTH := by
      intro kv hkv
      have hle := Json.depthOfFields_le.mp (Nat.le_refl (Json.depthOfFields fields)) kv hkv
      change depth + Json.depthOfFields fields ≤ MAX_DEPTH at hdepth
      omega
    have hmembers := canonicalMembers_of_json members hfields hsafe hbelow
    rw [canonical, withinDepth, if_neg (by omega)]
    simp only [all_isText hfields, if_true, hmembers, sorted_entries, collect_ok]
    rw [canonicalText, Json.sortBy, Json.render]
    rfl
  | .other, _, _, hjson, _, _ => by cases hjson

theorem canonicalItems_of_json : ∀ (items : List Py.Value) {js : List Json} {depth : Nat},
    Py.Value.jsonItems items = some js → Py.Value.SafeNumbersItems items →
      (∀ j ∈ js, depth + j.depth ≤ MAX_DEPTH) →
        canonicalItems items depth = js.map (Except.ok ∘ canonicalText)
  | [], _, _, hjson, _, _ => by
    cases hjson
    rfl
  | v :: rest, js, depth, hjson, hsafe, hdepth => by
    rw [Py.Value.jsonItems] at hjson
    split at hjson
    · rename_i j more hj hmore
      cases hjson
      rw [List.forall_mem_cons] at hdepth
      rw [canonicalItems, canonical_of_json v hj hsafe.1 hdepth.1,
        canonicalItems_of_json rest hmore hsafe.2 hdepth.2]
      rfl
    · cases hjson

theorem canonicalMembers_of_json : ∀ (members : List (Key × Py.Value))
    {fields : List (String × Json)} {depth : Nat}, Py.Value.jsonMembers members = some fields →
      Py.Value.SafeNumbersMembers members → (∀ kv ∈ fields, depth + kv.2.depth ≤ MAX_DEPTH) →
        encodedKeys (canonicalMembers members depth) =
          some (fields.map fun kv => (kv.1, .ok (canonicalText kv.2)))
  | [], _, _, hjson, _, _ => by
    cases hjson
    rfl
  | (.other _, _) :: _, _, _, hjson, _, _ => by cases hjson
  | (.text key, v) :: rest, fields, depth, hjson, hsafe, hdepth => by
    rw [Py.Value.jsonMembers] at hjson
    split at hjson
    · rename_i text j more hkey hj hmore
      cases hjson
      rw [List.forall_mem_cons] at hdepth
      rw [canonicalMembers, encodedKeys, hkey, canonical_of_json v hj hsafe.1 hdepth.1,
        canonicalMembers_of_json rest hmore hsafe.2 hdepth.2]
      rfl
    · cases hjson

end

/-! ## 3. What is rejected -/

theorem eq_of_withinDepth {depth : Nat} {written : Except CanonicalError Text} {text : Text}
    (h : withinDepth depth written = .ok text) : depth ≤ MAX_DEPTH ∧ written = .ok text := by
  unfold withinDepth at h
  split at h
  · cases h
  · rename_i hdepth
    exact ⟨Nat.not_lt.mp hdepth, h⟩

theorem exists_of_map_ok {parts : Except CanonicalError (List Text)} {f : List Text → Text}
    {text : Text} (h : parts.map f = .ok text) : ∃ texts, parts = .ok texts := by
  cases parts with
  | error e => cases h
  | ok texts => exact ⟨texts, rfl⟩

/-- Where the sorted entries are all written, every entry is. -/
theorem entries_ok {entries : List (String × Except CanonicalError Text)} {texts : List Text}
    (h : (sorted entries).map entryText = texts.map .ok) :
    ∀ entry ∈ entries, ∃ text, entry.2 = .ok text := by
  intro entry hentry
  have hsorted : entry ∈ sorted entries := (List.mergeSort_perm entries _).mem_iff.mpr hentry
  have hmem : entryText entry ∈ (sorted entries).map entryText := List.mem_map_of_mem hsorted
  rw [h] at hmem
  obtain ⟨text, _, heq⟩ := List.mem_map.mp hmem
  obtain ⟨key, result⟩ := entry
  cases result with
  | error e => cases heq
  | ok value => exact ⟨value, rfl⟩

mutual

/-- A value that is written stands for a JSON value, its numbers safe and its depth allowed. -/
theorem json_of_canonical : ∀ (v : Py.Value) {depth : Nat} {text : Text},
    canonical v depth = .ok text →
      ∃ j, v.json = some j ∧ v.SafeNumbers ∧ depth + j.depth ≤ MAX_DEPTH
  | .none, depth, text, h => by
    rw [canonical] at h
    exact ⟨.null, rfl, trivial, (eq_of_withinDepth h).1⟩
  | .bool true, depth, text, h => by
    rw [canonical] at h
    exact ⟨.bool true, rfl, trivial, (eq_of_withinDepth h).1⟩
  | .bool false, depth, text, h => by
    rw [canonical] at h
    exact ⟨.bool false, rfl, trivial, (eq_of_withinDepth h).1⟩
  | .int i, depth, text, h => by
    rw [canonical] at h
    obtain ⟨hdepth, hint⟩ := eq_of_withinDepth h
    unfold integer at hint
    split at hint
    · cases hint
    · rename_i hsafe
      exact ⟨.int i, rfl, Nat.not_lt.mp hsafe, hdepth⟩
  | .float .nan, depth, text, h => by
    rw [canonical] at h
    cases (eq_of_withinDepth h).2
  | .float (.infinite _), depth, text, h => by
    rw [canonical] at h
    cases (eq_of_withinDepth h).2
  | .float (.finite negative coefficient exponent), depth, text, h => by
    rw [canonical] at h
    obtain ⟨hdepth, hfloat⟩ := eq_of_withinDepth h
    rw [number] at hfloat
    split at hfloat
    · cases hfloat
    · rename_i hsafe
      exact ⟨_, rfl, Bool.eq_false_iff.mpr hsafe, hdepth⟩
  | .str s, depth, text, h => by
    rw [canonical] at h
    obtain ⟨hdepth, hstring⟩ := eq_of_withinDepth h
    unfold string at hstring
    split at hstring
    · cases hstring
    · rename_i chars hchars
      refine ⟨.text chars, ?_, trivial, hdepth⟩
      rw [Py.Value.json, hchars]
      rfl
  | .list items, depth, text, h => by
    rw [canonical] at h
    obtain ⟨hdepth, hlist⟩ := eq_of_withinDepth h
    obtain ⟨texts, htexts⟩ := exists_of_map_ok hlist
    obtain ⟨js, hjs, hsafe, hbelow⟩ := json_of_canonicalItems items (eq_of_collect htexts)
    refine ⟨.array js, ?_, hsafe, ?_⟩
    · rw [Py.Value.json, hjs]
      rfl
    · have hle : Json.depthOfItems js ≤ MAX_DEPTH - depth := by
        rw [Json.depthOfItems_le]
        intro j hj
        have hj := hbelow j hj
        omega
      show depth + Json.depthOfItems js ≤ MAX_DEPTH
      omega
  | .dict members, depth, text, h => by
    rw [canonical] at h
    obtain ⟨hdepth, hdict⟩ := eq_of_withinDepth h
    split at hdict
    · split at hdict
      · cases hdict
      · rename_i entries hentries
        obtain ⟨texts, htexts⟩ := exists_of_map_ok hdict
        obtain ⟨fields, hfields, hsafe, hbelow⟩ :=
          json_of_canonicalMembers members hentries (entries_ok (eq_of_collect htexts))
        refine ⟨.object fields, ?_, hsafe, ?_⟩
        · rw [Py.Value.json, hfields]
          rfl
        · have hle : Json.depthOfFields fields ≤ MAX_DEPTH - depth := by
            rw [Json.depthOfFields_le]
            intro kv hkv
            have hkv := hbelow kv hkv
            omega
          show depth + Json.depthOfFields fields ≤ MAX_DEPTH
          omega
    · cases hdict
  | .other, depth, text, h => by
    rw [canonical] at h
    cases (eq_of_withinDepth h).2

theorem json_of_canonicalItems : ∀ (items : List Py.Value) {depth : Nat} {texts : List Text},
    canonicalItems items depth = texts.map .ok →
      ∃ js, Py.Value.jsonItems items = some js ∧ Py.Value.SafeNumbersItems items ∧
        ∀ j ∈ js, depth + j.depth ≤ MAX_DEPTH
  | [], _, _, _ => ⟨[], rfl, trivial, fun _ h => nomatch h⟩
  | v :: rest, depth, texts, h => by
    cases texts with
    | nil => cases h
    | cons text texts =>
      rw [canonicalItems, List.map_cons, List.cons.injEq] at h
      obtain ⟨j, hj, hsafe, hdepth⟩ := json_of_canonical v h.1
      obtain ⟨js, hjs, hsafes, hbelow⟩ := json_of_canonicalItems rest h.2
      refine ⟨j :: js, ?_, ⟨hsafe, hsafes⟩, List.forall_mem_cons.mpr ⟨hdepth, hbelow⟩⟩
      rw [Py.Value.jsonItems, hj, hjs]

theorem json_of_canonicalMembers : ∀ (members : List (Key × Py.Value)) {depth : Nat}
    {entries : List (String × Except CanonicalError Text)},
    encodedKeys (canonicalMembers members depth) = some entries →
      (∀ entry ∈ entries, ∃ text, entry.2 = .ok text) →
        ∃ fields, Py.Value.jsonMembers members = some fields ∧
          Py.Value.SafeNumbersMembers members ∧ ∀ kv ∈ fields, depth + kv.2.depth ≤ MAX_DEPTH
  | [], _, _, _, _ => ⟨[], rfl, trivial, fun _ h => nomatch h⟩
  | (.other _, _) :: _, _, _, h, _ => by cases h
  | (.text key, v) :: rest, depth, entries, h, hok => by
    rw [canonicalMembers, encodedKeys] at h
    split at h
    · rename_i text more hkey hmore
      cases h
      rw [List.forall_mem_cons] at hok
      obtain ⟨written, hwritten⟩ := hok.1
      obtain ⟨j, hj, hsafe, hdepth⟩ := json_of_canonical v hwritten
      obtain ⟨fields, hfields, hsafes, hbelow⟩ := json_of_canonicalMembers rest hmore hok.2
      refine ⟨(String.ofList text, j) :: fields, ?_, ⟨hsafe, hsafes⟩,
        List.forall_mem_cons.mpr ⟨hdepth, hbelow⟩⟩
      rw [Py.Value.jsonMembers, hkey, hj, hfields]
    · cases h

end

/-- The bytes of a value are those of its JSON value, and only values in the limits have them. -/
theorem canonicalBytes_eq_ok {v : Py.Value} {bytes : ByteArray} :
    canonicalBytes v = .ok bytes ↔
      InLimits v ∧ ∃ j, v.json = some j ∧ bytes = encode (canonicalText j) := by
  constructor
  · intro h
    unfold canonicalBytes at h
    split at h
    · cases h
    · rename_i text htext
      obtain ⟨j, hj, hsafe, hdepth⟩ := json_of_canonical v htext
      have heq := canonical_of_json v hj hsafe hdepth
      rw [htext] at heq
      cases heq
      split at h
      · cases h
      · rename_i hsize
        cases h
        rw [Nat.zero_add] at hdepth
        exact ⟨⟨j, hj, hsafe, hdepth, Nat.not_lt.mp hsize⟩, j, hj, rfl⟩
  · rintro ⟨⟨j, hj, hsafe, hdepth, hsize⟩, k, hk, rfl⟩
    rw [hj] at hk
    cases hk
    rw [canonicalBytes, canonical_of_json v hj hsafe (by omega)]
    exact if_neg (Nat.not_lt.mpr hsize)

/-! ## 4. What is read -/

mutual

/-- The JSON value of a value with distinct keys has distinct keys. -/
theorem distinctKeys_json : ∀ (v : Py.Value) {j : Json}, v.DistinctKeys → v.json = some j →
    j.DistinctKeys
  | .none, _, _, h => by cases h; trivial
  | .bool _, _, _, h => by cases h; trivial
  | .int _, _, _, h => by cases h; trivial
  | .float .nan, _, _, h => by cases h
  | .float (.infinite _), _, _, h => by cases h
  | .float (.finite _ _ _), _, _, h => by cases h; trivial
  | .str s, _, _, h => by
    rw [Py.Value.json, Option.map_eq_some_iff] at h
    obtain ⟨text, _, rfl⟩ := h
    trivial
  | .list items, _, hdistinct, h => by
    rw [Py.Value.json, Option.map_eq_some_iff] at h
    obtain ⟨js, hjs, rfl⟩ := h
    exact distinctKeys_jsonItems items hdistinct hjs
  | .dict members, _, hdistinct, h => by
    rw [Py.Value.json, Option.map_eq_some_iff] at h
    obtain ⟨fields, hfields, rfl⟩ := h
    have hnodup : (members.map Prod.fst).Nodup := hdistinct.1
    rw [jsonMembers_keys hfields] at hnodup
    exact ⟨hnodup.of_map keyOf, distinctKeys_jsonMembers members hdistinct.2 hfields⟩
  | .other, _, _, h => by cases h

theorem distinctKeys_jsonItems : ∀ (items : List Py.Value) {js : List Json},
    Py.Value.DistinctKeysItems items → Py.Value.jsonItems items = some js →
      Json.DistinctKeysItems js
  | [], _, _, h => by cases h; trivial
  | v :: rest, _, hdistinct, h => by
    rw [Py.Value.jsonItems] at h
    split at h
    · rename_i j js hj hjs
      cases h
      exact ⟨distinctKeys_json v hdistinct.1 hj, distinctKeys_jsonItems rest hdistinct.2 hjs⟩
    · cases h

theorem distinctKeys_jsonMembers : ∀ (members : List (Key × Py.Value))
    {fields : List (String × Json)},
    Py.Value.DistinctKeysMembers members → Py.Value.jsonMembers members = some fields →
      Json.DistinctKeysFields fields
  | [], _, _, h => by cases h; trivial
  | (.other _, _) :: _, _, _, h => by cases h
  | (.text key, v) :: rest, _, hdistinct, h => by
    rw [Py.Value.jsonMembers] at h
    split at h
    · rename_i text j fields _ hj hfields
      cases h
      exact ⟨distinctKeys_json v hdistinct.1 hj,
        distinctKeys_jsonMembers rest hdistinct.2 hfields⟩
    · cases h

end

theorem loads_encode (text : Text) : loads (encode text) = Json.parse text := by
  have hdecode : String.fromUTF8? (encode text) = some (String.ofList text) := by
    rw [encode, String.toUTF8_eq_toByteArray, String.fromUTF8?]
    exact dif_pos (String.ofList text).isValidUTF8
  rw [loads, hdecode]
  show Json.parse (String.ofList text).toList = _
  rw [String.toList_ofList]

theorem encode_injective {text other : Text} (h : encode text = encode other) : text = other := by
  rw [encode, encode, String.toUTF8_eq_toByteArray, String.toUTF8_eq_toByteArray,
    String.toByteArray_inj] at h
  exact String.ofList_injective h

/-- Exactly the values in the limits are written; without floats the bytes are read as the value
again, and they are those of another value exactly if the two are the same JSON value. -/
theorem canonical_bytes_faithful (v w : Document) :
    ((∃ bytes, canonicalBytes v.value = .ok bytes) ↔ InLimits v.value) ∧
      ∀ j k, v.value.json = some j → w.value.json = some k → j.FloatFree → k.FloatFree →
        ∀ bytes others, canonicalBytes v.value = .ok bytes → canonicalBytes w.value = .ok others →
          (∃ read, loads bytes = some read ∧ read.Same j) ∧ (bytes = others ↔ j.Same k) := by
  constructor
  · constructor
    · rintro ⟨bytes, h⟩
      exact (canonicalBytes_eq_ok.mp h).1
    · intro h
      obtain ⟨j, hj, _⟩ := id h
      exact ⟨encode (canonicalText j), canonicalBytes_eq_ok.mpr ⟨h, j, hj, rfl⟩⟩
  · intro j k hj hk hjfree hkfree bytes others hbytes hothers
    obtain ⟨_, j', hj', rfl⟩ := canonicalBytes_eq_ok.mp hbytes
    obtain ⟨_, k', hk', rfl⟩ := canonicalBytes_eq_ok.mp hothers
    rw [hj] at hj'
    rw [hk] at hk'
    cases hj'
    cases hk'
    have hjkeys := distinctKeys_json v.value v.distinct hj
    have hkkeys := distinctKeys_json w.value w.distinct hk
    have hjread := Json.readable_sortBy Utf16.le j hjfree
    have hkread := Json.readable_sortBy Utf16.le k hkfree
    constructor
    · refine ⟨Json.sortBy Utf16.le j, ?_, Json.same_sortBy keyOrder hjkeys⟩
      rw [loads_encode, canonicalText, Json.parse_render hjread]
    · rw [← Json.sortBy_eq_iff keyOrder j k hjkeys hkkeys]
      constructor
      · intro h
        exact Json.render_injective hjread hkread (encode_injective h)
      · intro h
        rw [canonicalText, canonicalText, h]

/-! ### Two orders of one dictionary -/

def orderedPair : Json := .object [("a", .int 2), ("b", .text ['é'])]

def reversedPair : Json := .object [("b", .text ['é']), ("a", .int 2)]

def orderedDict : Document :=
  ⟨.dict [(keyOf "a", .int 2), (keyOf "b", .str [.scalar 'é'])], by
    simp [Py.Value.DistinctKeys, Py.Value.DistinctKeysMembers, Py.keyOf_injective.eq_iff]⟩

def reversedDict : Document :=
  ⟨.dict [(keyOf "b", .str [.scalar 'é']), (keyOf "a", .int 2)], by
    simp [Py.Value.DistinctKeys, Py.Value.DistinctKeysMembers, Py.keyOf_injective.eq_iff]⟩

theorem same_pair : orderedPair.Same reversedPair :=
  ⟨rfl, ⟨.int 2, .tail _ (.head _), rfl⟩, ⟨.text ['é'], .head _, rfl⟩, trivial⟩

theorem canonicalText_orderedPair :
    canonicalText orderedPair = "\x7b\"a\":2,\"b\":\"é\"\x7d".toList := by
  have hsorted : Json.sortBy Utf16.le orderedPair = orderedPair := by
    show Json.object (List.mergeSort _ _) = _
    rw [List.mergeSort_of_pairwise]
    · rfl
    · decide
  rw [canonicalText, hsorted]
  decide

theorem canonicalText_reversedPair : canonicalText reversedPair = canonicalText orderedPair := by
  have hkeys : orderedPair.DistinctKeys := by
    show ["a", "b"].Nodup ∧ True ∧ True ∧ True
    decide
  have hkeys' : reversedPair.DistinctKeys := by
    show ["b", "a"].Nodup ∧ True ∧ True ∧ True
    decide
  rw [canonicalText, canonicalText,
    (Json.sortBy_eq_iff keyOrder orderedPair reversedPair hkeys hkeys').mpr same_pair]

theorem size_orderedPair : (encode (canonicalText orderedPair)).size ≤ MAX_BYTES := by
  rw [canonicalText_orderedPair]
  decide

theorem canonicalBytes_orderedDict :
    canonicalBytes orderedDict.value = .ok (encode (canonicalText orderedPair)) :=
  canonicalBytes_eq_ok.mpr ⟨⟨orderedPair, rfl,
    by
      show (2 : Int).natAbs ≤ MAX_SAFE_INTEGER ∧ True ∧ True
      decide,
    by decide, size_orderedPair⟩, orderedPair, rfl, rfl⟩

theorem canonicalBytes_reversedDict :
    canonicalBytes reversedDict.value = .ok (encode (canonicalText reversedPair)) :=
  canonicalBytes_eq_ok.mpr ⟨⟨reversedPair, rfl,
    by
      show True ∧ (2 : Int).natAbs ≤ MAX_SAFE_INTEGER ∧ True
      decide,
    by decide, by rw [canonicalText_reversedPair]; exact size_orderedPair⟩,
    reversedPair, rfl, rfl⟩

theorem canonical_bytes_faithful_reversed :
    canonicalBytes orderedDict.value = canonicalBytes reversedDict.value ∧
      ∃ bytes read, canonicalBytes orderedDict.value = .ok bytes ∧ loads bytes = some read ∧
        read.Same orderedPair := by
  have hfree : orderedPair.FloatFree := by
    simp [orderedPair, Json.FloatFree, Json.FloatFreeFields]
  have hfree' : reversedPair.FloatFree := by
    simp [reversedPair, Json.FloatFree, Json.FloatFreeFields]
  have hfaithful := (canonical_bytes_faithful orderedDict reversedDict).2 orderedPair reversedPair
    rfl rfl hfree hfree' _ _ canonicalBytes_orderedDict canonicalBytes_reversedDict
  obtain ⟨read, hread, hsame⟩ := hfaithful.1
  constructor
  · rw [canonicalBytes_orderedDict, canonicalBytes_reversedDict, hfaithful.2.mpr same_pair]
  · exact ⟨_, read, canonicalBytes_orderedDict, hread, hsame⟩

/-- `0.5`, built from none of the parts, is written too. -/
theorem float_is_written : ¬ ∀ v : Document, (∃ bytes, canonicalBytes v.value = .ok bytes) →
    ∃ j, v.value.json = some j ∧ j.FloatFree := by
  intro h
  have hsafe : Py.Value.SafeNumbers (.float (.finite false 5 (-1))) := by
    show exceedsSafe 5 (-1) = false
    decide
  have hlimits : canonicalBytes (.float (.finite false 5 (-1))) =
      .ok (encode (canonicalText (.float ['0', '.', '5']))) := by
    rw [canonicalBytes_eq_ok]
    exact ⟨⟨.float ['0', '.', '5'], rfl, hsafe, by decide, by decide +kernel⟩, _, rfl, rfl⟩
  obtain ⟨j, hj, hfree⟩ := h ⟨.float (.finite false 5 (-1)), trivial⟩ ⟨_, hlimits⟩
  cases hj
  exact hfree

end KiwiCatalog.Enrollment.Canonical
