import KiwiCatalog.Listings.Contracts
import KiwiCatalog.Publications.Accepted
import KiwiCatalog.Publications.ShareCodes

/-!
# Share codes on both sides — what the write path accepts and what readers hide

`validate_publish_payload` checks links as they stand in a text, `listing_has_share_code` without
the punctuation at their ends.  A row that passes the first is hidden by the second where that
punctuation closes the bracket of a host.
-/

set_option autoImplicit false

namespace KiwiCatalog.Listings

open Checks (bind_eq_ok check check_bind)
open Db (conform decodeJson encodeJson normalizedItems scalarText)
open Publications
open Url (Text strip)

/-! ## 1. The stored row -/

/-- The content columns of the row that a publish writes. -/
structure ContentColumns where
  title : Text
  category : Text
  summary : Text
  brand : Text
  sourceProductRef : Option Text
  sourceRevision : Text
  attributesJson : Text
  regionsJson : Text
  tagsJson : Text
  commercialHintsJson : Text
  handoffDestinationRef : Text

def contentColumns (codec : Json.Codec) (c : PublishFields) : ContentColumns where
  title := c.title.text
  category := c.category.text
  summary := (c.summary.map FieldText.text).getD []
  brand := (c.brand.map FieldText.text).getD []
  sourceProductRef := c.sourceProductRef.map FieldText.text
  sourceRevision := (c.sourceRevision.map FieldText.text).getD []
  attributesJson := encodeJson codec (attributesJson (c.attributes.getD []))
  regionsJson := encodeJson codec (textsJson (c.regions.getD []))
  tagsJson := encodeJson codec (textsJson (c.tags.getD []))
  commercialHintsJson := encodeJson codec (hintsJson (c.commercialHints.getD []))
  handoffDestinationRef := (c.handoffDestinationRef.map FieldText.text).getD []

/-- The values of the columns in `_LISTING_CONTENT_FIELDS`, as `_row_to_listing` reads them. -/
def contentValues (codec : Json.Codec) (row : ContentColumns) : List Json :=
  [.text row.title, .text row.category, .text row.summary, .text row.brand,
    row.sourceProductRef.elim .null Json.text, .text row.sourceRevision,
    decodeJson codec row.attributesJson (.object []),
    decodeJson codec row.regionsJson (.array []), decodeJson codec row.tagsJson (.array []),
    decodeJson codec row.commercialHintsJson (.object []), .text row.handoffDestinationRef]

/-- In any text of the value. -/
def containsShareCodePayload (env : TextEnv) (value : Json) : Bool :=
  value.texts.any (containsShareCodeLink env)

def listingHasShareCode (env : TextEnv) (codec : Json.Codec) (row : ContentColumns) : Bool :=
  (contentValues codec row).any (containsShareCodePayload env)

/-! ## 2. The texts of a row -/

/-- What a publish encodes. -/
def PublishFields.jsonColumns (c : PublishFields) : List Json :=
  [attributesJson (c.attributes.getD []), textsJson (c.regions.getD []),
    textsJson (c.tags.getD []), hintsJson (c.commercialHints.getD [])]

/-- The texts that are content of the listing. -/
def PublishFields.contentTexts (c : PublishFields) : List Text :=
  [c.title.text, c.category.text] ++ (c.summary.map FieldText.text).toList ++
    (c.brand.map FieldText.text).toList ++ (c.sourceProductRef.map FieldText.text).toList ++
    (c.sourceRevision.map FieldText.text).toList ++ c.jsonColumns.flatMap Json.texts ++
    (c.handoffDestinationRef.map FieldText.text).toList

theorem textsJson_texts (items : List (FieldText false)) :
    (textsJson items).texts = items.map FieldText.text := by
  unfold textsJson
  rw [Json.texts]
  induction items with
  | nil => rfl
  | cons item items ih =>
    rw [List.map_cons, Json.textsOfItems, ih]
    rfl

theorem sortKeys_textsJson (items : List (FieldText false)) :
    (textsJson items).sortKeys = textsJson items := by
  unfold textsJson
  rw [Json.sortKeys]
  congr 1
  induction items with
  | nil => rfl
  | cons item items ih =>
    rw [List.map_cons, Json.sortKeysItems, ih]
    rfl

/-- A list column gives its items back: they are stripped, and none is empty. -/
theorem conform_textsJson (items : List (FieldText false)) :
    conform (.array []) (textsJson items) = textsJson items := by
  have hitems : normalizedItems (items.map FieldText.json) = items.map FieldText.text := by
    induction items with
    | nil => rfl
    | cons item items ih =>
      have hnonempty : item.text.isEmpty = false := by
        simpa using item.nonempty rfl
      unfold normalizedItems at ih ⊢
      rw [List.map_cons]
      show ((strip item.text :: ((items.map FieldText.json).filterMap scalarText).map strip).filter
        _) = _
      rw [item.stripped, List.filter_cons_of_pos (by simp [hnonempty]), ih]
      rfl
  show Json.array ((normalizedItems (items.map FieldText.json)).map Json.text) = _
  rw [hitems, List.map_map]
  rfl

theorem decode_textsJson {codec : Json.Codec} {items : List (FieldText false)}
    (h : codec.RoundTrips (textsJson items)) :
    decodeJson codec (encodeJson codec (textsJson items)) (.array []) = textsJson items := by
  rw [Db.decodeJson_encodeJson h, sortKeys_textsJson, conform_textsJson]

/-- An object column gives its object back, with its keys sorted. -/
theorem mem_texts_decode_object {codec : Json.Codec} {fields : List (String × Json)} {s : Text}
    (h : codec.RoundTrips (.object fields)) :
    s ∈ (decodeJson codec (encodeJson codec (.object fields)) (.object [])).texts ↔
      s ∈ (Json.object fields).texts := by
  rw [Db.decodeJson_encodeJson h]
  exact Json.mem_texts_sortKeys (.object fields)

theorem mem_texts_getD {o : Option Text} {s : Text} (hs : s ≠ []) :
    s ∈ (Json.text (o.getD [])).texts ↔ s ∈ o.toList := by
  cases o with
  | none => simp [Json.texts, hs]
  | some t => simp [Json.texts]

theorem mem_texts_elim {o : Option Text} {s : Text} :
    s ∈ (o.elim Json.null Json.text).texts ↔ s ∈ o.toList := by
  cases o with
  | none => simp [Json.texts]
  | some t => simp [Json.texts]

/-- The row is read with the texts that the publish had, and empty ones. -/
theorem mem_texts_contentValues {codec : Json.Codec} {c : PublishFields}
    (hcodec : ∀ v ∈ c.jsonColumns, codec.RoundTrips v) {s : Text} (hs : s ≠ []) :
    (∃ v ∈ contentValues codec (contentColumns codec c), s ∈ v.texts) ↔ s ∈ c.contentTexts := by
  simp only [PublishFields.jsonColumns, List.forall_mem_cons] at hcodec
  obtain ⟨hattributes, hregions, htags, hhints, -⟩ := hcodec
  have hattributes' : s ∈ (decodeJson codec (encodeJson codec
      (attributesJson (c.attributes.getD []))) (.object [])).texts ↔
        s ∈ (attributesJson (c.attributes.getD [])).texts := mem_texts_decode_object hattributes
  have hhints' : s ∈ (decodeJson codec (encodeJson codec
      (hintsJson (c.commercialHints.getD []))) (.object [])).texts ↔
        s ∈ (hintsJson (c.commercialHints.getD [])).texts := mem_texts_decode_object hhints
  simp only [contentValues, contentColumns, PublishFields.contentTexts, PublishFields.jsonColumns,
    List.mem_cons, exists_eq_or_imp, List.not_mem_nil, or_false, exists_eq_left,
    mem_texts_getD hs, mem_texts_elim, decode_textsJson hregions, decode_textsJson htags,
    hattributes', hhints']
  simp only [Json.texts, List.mem_append, List.mem_cons, List.not_mem_nil, or_false,
    List.flatMap_cons, List.flatMap_nil, List.append_nil, or_assoc]

theorem mem_texts_fields {fields : List (String × Json)} {s : Text} :
    s ∈ (Json.object fields).texts ↔ ∃ kv ∈ fields, s ∈ kv.2.texts := by
  rw [Json.texts, Json.textsOfFields_eq, List.mem_flatMap]

theorem mem_texts_entry {α : Type} {key : String} {json : α → Json} {o : Option α} {s : Text} :
    (∃ kv ∈ entry key json o, s ∈ kv.2.texts) ↔ ∃ v, o = some v ∧ s ∈ (json v).texts := by
  cases o with
  | none => simp [entry]
  | some v => simp [entry]

theorem mem_texts_field {allowEmpty : Bool} {o : Option (FieldText allowEmpty)} {s : Text} :
    s ∈ (o.map FieldText.text).toList ↔ ∃ v, o = some v ∧ s ∈ v.json.texts := by
  cases o with
  | none => simp
  | some v => simp [FieldText.json, Json.texts]

/-- A column without a default text is that of what the publish had. -/
theorem mem_texts_column {α : Type} (json : List α → Json) {o : Option (List α)} {s : Text}
    (hnone : (json []).texts = []) :
    s ∈ (json (o.getD [])).texts ↔ ∃ v, o = some v ∧ s ∈ (json v).texts := by
  cases o with
  | none => simp [hnone]
  | some v => simp

/-- Each text of the listing is one of what the validation returns. -/
theorem mem_json_of_contentTexts {c : PublishFields} {s : Text} (h : s ∈ c.contentTexts) :
    s ∈ c.json.texts := by
  simp only [PublishFields.contentTexts, PublishFields.jsonColumns, List.mem_append, List.mem_cons,
    List.not_mem_nil, or_false, List.flatMap_cons, List.flatMap_nil, List.append_nil,
    mem_texts_field, mem_texts_column attributesJson rfl,
    mem_texts_column textsJson rfl, mem_texts_column hintsJson rfl,
    or_assoc] at h
  unfold PublishFields.json
  simp only [mem_texts_fields, List.mem_append, or_and_right, exists_or, mem_texts_entry,
    List.mem_cons, List.not_mem_nil, or_false, exists_eq_left, or_assoc]
  rcases h with h | h | h | h | h | h | h | h | h | h | h
  · simp [FieldText.json, Json.texts, h]
  · simp [FieldText.json, Json.texts, h]
  all_goals simp only [h, true_or, or_true]

theorem texts_of_textsJson {items : List (FieldText false)} {s : Text}
    (h : s ∈ (textsJson items).texts) : s.length ≤ maxStringLength := by
  rw [textsJson_texts] at h
  obtain ⟨item, -, rfl⟩ := List.mem_map.mp h
  exact item.bounded

theorem texts_of_fieldJson {allowEmpty : Bool} {t : FieldText allowEmpty} {s : Text}
    (h : s ∈ t.json.texts) : s.length ≤ maxStringLength := by
  rw [List.mem_singleton.mp h]
  exact t.bounded

theorem texts_of_attributesJson {fields : List (String × Scalar)} {s : Text}
    (h : s ∈ (attributesJson fields).texts) : s.length ≤ maxStringLength := by
  obtain ⟨kv, hkv, hs⟩ := mem_texts_fields.mp h
  obtain ⟨⟨key, v⟩, -, rfl⟩ := List.mem_map.mp hkv
  cases v with
  | text t bounded =>
    rw [List.mem_singleton.mp hs]
    exact bounded
  | int i => cases hs
  | float repr => cases hs
  | bool b => cases hs

theorem texts_of_hintsJson {fields : List (String × Hint)} {s : Text}
    (h : s ∈ (hintsJson fields).texts) : s.length ≤ maxStringLength := by
  obtain ⟨kv, hkv, hs⟩ := mem_texts_fields.mp h
  obtain ⟨⟨key, v⟩, -, rfl⟩ := List.mem_map.mp hkv
  cases v with
  | moq n => cases hs
  | text t => exact texts_of_fieldJson hs
  | flag b => cases hs
  | regions items => exact texts_of_textsJson hs

theorem length_of_contentTexts {c : PublishFields} {s : Text} (h : s ∈ c.contentTexts) :
    s.length ≤ maxStringLength := by
  simp only [PublishFields.contentTexts, PublishFields.jsonColumns, List.mem_append, List.mem_cons,
    List.not_mem_nil, or_false, List.flatMap_cons, List.flatMap_nil, List.append_nil,
    mem_texts_field, or_assoc] at h
  rcases h with rfl | rfl | h | h | h | h | h | h | h | h | h
  · exact c.title.bounded
  · exact c.category.bounded
  · obtain ⟨t, -, hs⟩ := h
    exact texts_of_fieldJson hs
  · obtain ⟨t, -, hs⟩ := h
    exact texts_of_fieldJson hs
  · obtain ⟨t, -, hs⟩ := h
    exact texts_of_fieldJson hs
  · obtain ⟨t, -, hs⟩ := h
    exact texts_of_fieldJson hs
  · exact texts_of_attributesJson h
  · exact texts_of_textsJson h
  · exact texts_of_textsJson h
  · exact texts_of_hintsJson h
  · obtain ⟨t, -, hs⟩ := h
    exact texts_of_fieldJson hs

/-! ## 3. Links -/

theorem containsShareCodeUrl_nil (env : TextEnv) : containsShareCodeUrl env [] = false := rfl

/-- The write path leaves a text as it is exactly if the text is no share-code link and has none. -/
theorem sanitizeShareCodeText_eq_self {env : TextEnv} {s : Text}
    (h : sanitizeShareCodeText env s = s) :
    containsShareCodeUrl env s = false ∧
      ∀ m ∈ textUrlRe.findall s, containsShareCodeUrl env m = false := by
  have hwhole : containsShareCodeUrl env s = false := by
    cases hcode : containsShareCodeUrl env s with
    | false => rfl
    | true =>
      rw [sanitizeShareCodeText, hcode, if_pos rfl] at h
      rw [← h, containsShareCodeUrl_nil] at hcode
      cases hcode
  refine ⟨hwhole, ?_⟩
  rw [sanitizeShareCodeText, hwhole, if_neg Bool.false_ne_true] at h
  have hsame := Pattern.eq_of_sub_eq_self ?_ h
  · intro m hm
    have hm' := hsame m hm
    split at hm'
    · -- the replacement is shorter than any link
      have hlength := length_of_findall hm
      rw [← hm'] at hlength
      exact absurd hlength (by decide)
    · rename_i hpass
      exact Bool.eq_false_iff.mpr hpass
  · intro m hm
    have hlength := length_of_findall hm
    split
    · right
      show 7 < m.length
      omega
    · exact .inl rfl

/-- Readers hide a text that the write path leaves exactly if a link in it loses its bracket. -/
theorem containsShareCodeLink_of_clean {env : TextEnv} {s : Text}
    (hlength : s.length ≤ maxStringLength) (h : sanitizeShareCodeText env s = s) :
    containsShareCodeLink env s = (textUrlRe.findall s).any losesBracket := by
  obtain ⟨hwhole, hlinks⟩ := sanitizeShareCodeText_eq_self h
  have hshort : ¬ maxShareCodeTextLength < s.length := by
    have hbounds : maxStringLength ≤ maxShareCodeTextLength := by decide
    omega
  have hcut : ∀ m ∈ textUrlRe.findall s,
      containsShareCodeUrl env (withoutTrailing m) = losesBracket m := fun m hm =>
    containsShareCodeUrl_withoutTrailing (urlChar_of_findall hm) (hlinks m hm)
  unfold containsShareCodeLink textUrls
  rw [hwhole, decide_eq_false hshort, Bool.false_or, Bool.false_or, Bool.eq_iff_iff,
    List.any_eq_true, List.any_eq_true]
  constructor
  · intro hfound
    obtain ⟨url, hurl, hcode⟩ := hfound
    obtain ⟨m, hm, rfl⟩ := List.mem_map.mp (List.mem_filter.mp hurl).1
    exact ⟨m, hm, (hcut m hm).symm.trans hcode⟩
  · intro hfound
    obtain ⟨m, hm, hloses⟩ := hfound
    have hcode := (hcut m hm).trans hloses
    refine ⟨withoutTrailing m, List.mem_filter.mpr ⟨List.mem_map_of_mem hm, ?_⟩, hcode⟩
    cases hurl : withoutTrailing m with
    | nil => rw [hurl, containsShareCodeUrl_nil] at hcode; cases hcode
    | cons c rest => rfl

/-! ## 4. Agreement -/

/-- The checks that a payload has passed leave every text of the listing as it is. -/
theorem clean_of_validated {env : ContractEnv} {payload : Json} {c : PublishFields}
    (h : validatePublishPayload env payload = .ok c) {s : Text} (hs : s ∈ c.contentTexts) :
    sanitizeShareCodeText env.text s = s := by
  cases payload with
  | object all =>
    obtain ⟨-, h⟩ := check_bind h
    obtain ⟨-, h⟩ := check_bind h
    obtain ⟨c', -, h⟩ := bind_eq_ok h
    obtain ⟨-, h⟩ := check_bind h
    obtain ⟨hclean, h⟩ := check_bind h
    rw [← Except.ok.inj h] at hs
    exact (Json.mapText_eq_self _ _).mp (of_decide_eq_true hclean) s (mem_json_of_contentTexts hs)
  | null => cases h
  | bool b => cases h
  | int i => cases h
  | float repr => cases h
  | text t => cases h
  | array items => cases h

/-- Readers hide the row of an accepted payload exactly if a link in one of its texts loses its
bracket. -/
theorem listingHasShareCode_of_validated {env : ContractEnv} {codec : Json.Codec} {payload : Json}
    {c : PublishFields} (h : validatePublishPayload env payload = .ok c)
    (hcodec : ∀ v ∈ c.jsonColumns, codec.RoundTrips v) :
    listingHasShareCode env.text codec (contentColumns codec c) = true ↔
      ∃ s ∈ c.contentTexts, ∃ m ∈ textUrlRe.findall s, losesBracket m = true := by
  have htext : ∀ s ∈ c.contentTexts,
      containsShareCodeLink env.text s = (textUrlRe.findall s).any losesBracket := fun s hs =>
    containsShareCodeLink_of_clean (length_of_contentTexts hs) (clean_of_validated h hs)
  unfold listingHasShareCode containsShareCodePayload
  simp only [List.any_eq_true]
  constructor
  · intro hfound
    obtain ⟨v, hv, s, hs, hlink⟩ := hfound
    have hne : s ≠ [] := by
      rintro rfl
      cases hlink
    have hmem := (mem_texts_contentValues hcodec hne).mp ⟨v, hv, hs⟩
    rw [htext s hmem] at hlink
    exact ⟨s, hmem, List.any_eq_true.mp hlink⟩
  · intro hfound
    obtain ⟨s, hs, hloses⟩ := hfound
    have hlink := (htext s hs).trans (List.any_eq_true.mpr hloses)
    have hne : s ≠ [] := by
      rintro rfl
      cases hlink
    obtain ⟨v, hv, hsv⟩ := (mem_texts_contentValues hcodec hne).mpr hs
    exact ⟨v, hv, s, hsv, hlink⟩

def pumpEnv : ContractEnv where
  text := asciiEnv
  scanSecrets := fun _ => []
  parseFreshUntil := fun _ => .error "fresh_until must be an ISO 8601 timestamp"

/-- Python's JSON of empty columns. -/
def emptyCodec : Json.Codec where
  dumps
    | .array _ => ['[', ']']
    | _ => ['\x7b', '\x7d']
  loads text := some (if text = ['[', ']'] then .array [] else .object [])

def fieldText (text : Text) (h : strip text = text ∧ text.length ≤ maxStringLength ∧ text ≠ [])
    {allowEmpty : Bool} : FieldText allowEmpty :=
  ⟨text, h.1, h.2.1, fun _ => h.2.2⟩

def pumpPayload (summary : Text) : List (String × Json) :=
  [("listing_type", .text "product".toList), ("owner_agent_id", .text "a1".toList),
    ("merchant_id", .text "m1".toList), ("source_product_ref", .text "sku1".toList),
    ("title", .text "Pump".toList), ("category", .text "parts".toList),
    ("summary", .text summary)]

def pumpFields (summary : FieldText true) : PublishFields where
  listingType := fieldText "product".toList (by decide)
  ownerAgentId := fieldText "a1".toList (by decide)
  merchantId := fieldText "m1".toList (by decide)
  title := fieldText "Pump".toList (by decide)
  category := fieldText "parts".toList (by decide)
  sourceProductRef := some (fieldText "sku1".toList (by decide))
  publisherListingKey := none
  summary := some summary
  brand := none
  sourceRevision := none
  attributes := none
  regions := none
  tags := none
  commercialHints := none
  handoffDestinationTypes := none
  handoffDestinationRef := none
  freshUntil := none

theorem unknownKeys_eq_nil {known : List String} {fields : List (String × Json)}
    (h : (fields.map Prod.fst).filter (fun key => !known.contains key) = []) :
    unknownKeys known fields = [] := by
  unfold unknownKeys
  rw [h, List.mergeSort_nil]

/-- A payload whose checks all pass is accepted. -/
theorem validatePublishPayload_of_checks {env : ContractEnv} {all payload : List (String × Json)}
    {c : PublishFields} (hpayload : all.filter (fun kv => !authFields.contains kv.1) = payload)
    (hknown : unknownKeys publishKeys payload = [])
    (hforbidden : (payload.map Prod.fst).filter forbiddenFields.contains = [])
    (hcanonical : canonicalFields env payload = .ok c) (hsecrets : env.scanSecrets c.json = [])
    (hclean : ∀ s ∈ c.json.texts, sanitizeShareCodeText env.text s = s) :
    validatePublishPayload env (.object all) = .ok c := by
  have hwhole : sanitizeShareCodeUrls env.text c.json = c.json :=
    (Json.mapText_eq_self _ _).mpr hclean
  simp only [validatePublishPayload, hpayload, hknown, hforbidden, hcanonical, hsecrets, hwhole,
    check, List.isEmpty_nil, decide_true, if_true, bind, Except.bind, pure, Except.pure]

theorem validate_pump (summary : FieldText true)
    (hcanonical : canonicalFields pumpEnv (pumpPayload summary.text) = .ok (pumpFields summary))
    (hsummary : sanitizeShareCodeText asciiEnv summary.text = summary.text) :
    validatePublishPayload pumpEnv (.object (pumpPayload summary.text)) =
      .ok (pumpFields summary) := by
  have hkept : (pumpPayload summary.text).filter (fun kv => !authFields.contains kv.1) =
      pumpPayload summary.text := by
    apply List.filter_eq_self.mpr
    simp only [pumpPayload, List.forall_mem_cons]
    decide
  have hknown : unknownKeys publishKeys (pumpPayload summary.text) = [] := by
    apply unknownKeys_eq_nil
    simp only [pumpPayload, List.map_cons, List.map_nil]
    decide
  have hforbidden : ((pumpPayload summary.text).map Prod.fst).filter forbiddenFields.contains =
      [] := by
    simp only [pumpPayload, List.map_cons, List.map_nil]
    decide
  have hsecrets : pumpEnv.scanSecrets (pumpFields summary).json = [] := rfl
  have hclean : ∀ s ∈ (pumpFields summary).json.texts,
      sanitizeShareCodeText pumpEnv.text s = s := by
    have hfixed : ∀ s ∈ ["product".toList, "a1".toList, "m1".toList, "Pump".toList, "parts".toList,
        "sku1".toList], sanitizeShareCodeText asciiEnv s = s := by decide
    intro s hs
    have hmem : s ∈ ["product".toList, "a1".toList, "m1".toList, "Pump".toList, "parts".toList,
        "sku1".toList] ++ [summary.text] := hs
    rcases List.mem_append.mp hmem with hs | hs
    · exact hfixed s hs
    · rw [List.mem_singleton.mp hs]
      exact hsummary
  exact validatePublishPayload_of_checks hkept hknown hforbidden hcanonical hsecrets hclean

def bracketSummary : FieldText true := fieldText "http://[::1]".toList (by decide)
def plainSummary : FieldText true := fieldText "see http://x.cn.".toList (by decide)

theorem emptyCodec_roundTrips (summary : FieldText true) :
    ∀ v ∈ (pumpFields summary).jsonColumns, emptyCodec.RoundTrips v := by
  have hobject : emptyCodec.RoundTrips (.object []) := by
    constructor
    · show some (Json.object []) = some (Json.object ([].mergeSort Json.keyOrder))
      rw [List.mergeSort_nil]
    · decide
  have harray : emptyCodec.RoundTrips (.array []) := ⟨rfl, by decide⟩
  intro v hv
  simp only [PublishFields.jsonColumns, List.mem_cons, List.not_mem_nil, or_false] at hv
  rcases hv with rfl | rfl | rfl | rfl
  · exact hobject
  · exact harray
  · exact harray
  · exact hobject

end KiwiCatalog.Listings
