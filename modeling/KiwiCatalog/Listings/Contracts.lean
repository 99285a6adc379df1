import KiwiCatalog.Db.JsonColumns
import KiwiCatalog.Lib.Checks
import KiwiCatalog.Publications.PublicText

/-!
# Contracts — what a publish payload may hold

`validate_publish_payload` and the fields that it returns.  Each text that it lets through is stripped
and bounded; the last check refuses share-code links in any of them.
-/

set_option autoImplicit false

namespace KiwiCatalog.Listings

open Checks (check)
open Publications (TextEnv containsShareCodeUrl redactShareCodeText)
open Url (Text strip)

def maxStringLength : Nat := 4096
def maxArrayLength : Nat := 256

/-- What the validation asks of the other modules and of the clock. -/
structure ContractEnv where
  text : TextEnv
  -- `scan_secrets`
  scanSecrets : Json → List String
  -- `_parse_fresh_until`
  parseFreshUntil : Json → Except String Text

/-! ## 1. Fields -/

/-- What `_require_str` returns. -/
structure FieldText (allowEmpty : Bool) where
  text : Text
  stripped : strip text = text
  bounded : text.length ≤ maxStringLength
  nonempty : allowEmpty = false → text ≠ []

def requireStr (value : Option Json) (field : String) (allowEmpty : Bool) :
    Except String (FieldText allowEmpty) :=
  match value with
  | some (.text s) =>
    if hempty : allowEmpty = false → strip s ≠ [] then
      if hlong : (strip s).length ≤ maxStringLength then
        .ok ⟨strip s, Url.strip_strip s, hlong, hempty⟩
      else .error (field ++ " exceeds 4096 characters")
    else .error (field ++ " must not be empty")
  | _ => .error (field ++ " must be a string")

def requireStrItems (field : String) : Nat → List Json → Except String (List (FieldText false))
  | _, [] => .ok []
  | i, item :: rest => do
    let first ← requireStr (some item) (field ++ "[" ++ toString i ++ "]") false
    let others ← requireStrItems field (i + 1) rest
    pure (first :: others)

def requireStrList (value : Json) (field : String) : Except String (List (FieldText false)) :=
  match value with
  | .array items =>
    if items.length ≤ maxArrayLength then requireStrItems field 0 items
    else .error (field ++ " must be an array of strings (<= 256)")
  | _ => .error (field ++ " must be an array of strings (<= 256)")

/-- A value of `attributes`. -/
inductive Scalar
  | text (s : Text) (bounded : s.length ≤ maxStringLength)
  | int (i : Int)
  | float (repr : Text)
  | bool (b : Bool)

/-- A value of `commercial_hints`. -/
inductive Hint
  | moq (n : Int)
  | text (s : FieldText false)
  | flag (b : Bool)
  | regions (items : List (FieldText false))

def attributeKeyChar (c : Char) : Bool := c.isAlphanum || c = '_'

/-- `re.fullmatch(r"[A-Za-z0-9_]{1,64}", key)`. -/
def isAttributeKey (key : String) : Bool :=
  1 ≤ key.toList.length && key.toList.length ≤ 64 && key.toList.all attributeKeyChar

def validateAttribute (key : String) : Json → Except String Scalar
  | .text s =>
    if h : s.length ≤ maxStringLength then .ok (.text s h)
    else .error ("attribute '" ++ key ++ "' exceeds 4096 characters")
  | .int i => .ok (.int i)
  | .float repr => .ok (.float repr)
  | .bool b => .ok (.bool b)
  | _ => .error ("attribute '" ++ key ++ "' must be a string, number, or boolean")

def validateAttributeFields : List (String × Json) → Except String (List (String × Scalar))
  | [] => .ok []
  | (key, item) :: rest => do
    check (isAttributeKey key) ("attribute key '" ++ key ++ "' has invalid characters")
    let first ← validateAttribute key item
    let others ← validateAttributeFields rest
    pure ((key, first) :: others)

def validateAttributes : Json → Except String (List (String × Scalar))
  | .object fields =>
    if fields.length ≤ 64 then validateAttributeFields fields
    else .error "attributes must be an object with <= 64 keys"
  | _ => .error "attributes must be an object with <= 64 keys"

def commercialHintsKeys : List String :=
  ["moq", "price_range_hint", "availability_hint", "lead_time_hint", "supports_bulk_quote",
    "supports_customization", "fulfillment_regions"]

/-- The keys outside of a list, as `sorted` has them. -/
def unknownKeys (known : List String) (fields : List (String × Json)) : List String :=
  ((fields.map Prod.fst).filter fun key => !known.contains key).mergeSort fun a b => ¬ b < a

/-- `repr` of a list of keys without quotes or escapes. -/
def reprKeys (keys : List String) : String :=
  "[" ++ ", ".intercalate (keys.map fun key => "'" ++ key ++ "'") ++ "]"

def validateHint (key : String) (item : Json) : Except String Hint :=
  if key = "moq" then
    match item with
    | .int n =>
      if 1 ≤ n then .ok (.moq n)
      else .error "commercial_hints.moq must be a positive integer"
    | _ => .error "commercial_hints.moq must be a positive integer"
  else if key = "supports_bulk_quote" || key = "supports_customization" then
    match item with
    | .bool b => .ok (.flag b)
    | _ => .error ("commercial_hints." ++ key ++ " must be a boolean")
  else if key = "fulfillment_regions" then
    (requireStrList item "commercial_hints.fulfillment_regions").map Hint.regions
  else (requireStr (some item) ("commercial_hints." ++ key) false).map Hint.text

def validateHintFields : List (String × Json) → Except String (List (String × Hint))
  | [] => .ok []
  | (key, item) :: rest => do
    let first ← validateHint key item
    let others ← validateHintFields rest
    pure ((key, first) :: others)

def validateCommercialHints : Json → Except String (List (String × Hint))
  | .object fields => do
    check (unknownKeys commercialHintsKeys fields).isEmpty
      ("commercial_hints has unknown keys: " ++
        reprKeys (unknownKeys commercialHintsKeys fields))
    validateHintFields fields
  | _ => .error "commercial_hints must be an object"

def handoffDestinationTypeNames : List String :=
  ["ucp_checkout", "ucp_order", "external_checkout_url", "merchant_checkout_session",
    "platform_deep_link", "buyer_erp_request", "procurement_request", "purchase_order_draft",
    "quote_document", "merchant_contact", "sales_handoff"]

def validateHandoffDestinationTypes (value : Json) : Except String (List (FieldText false)) := do
  let items ← requireStrList value "handoff_destination_types"
  match items.find? fun item => !handoffDestinationTypeNames.contains (String.ofList item.text) with
  | none => pure items
  | some item => .error ("handoff_destination_types has unknown value '" ++
      String.ofList item.text ++ "' (KTH vocabulary single source)")

/-! ## 2. The payload -/

/-- The dictionary that `validate_publish_payload` returns; an absent key is `none`. -/
structure PublishFields where
  listingType : FieldText false
  ownerAgentId : FieldText false
  merchantId : FieldText false
  title : FieldText false
  category : FieldText false
  sourceProductRef : Option (FieldText false)
  publisherListingKey : Option (FieldText false)
  summary : Option (FieldText true)
  brand : Option (FieldText true)
  sourceRevision : Option (FieldText true)
  attributes : Option (List (String × Scalar))
  regions : Option (List (FieldText false))
  tags : Option (List (FieldText false))
  commercialHints : Option (List (String × Hint))
  handoffDestinationTypes : Option (List (FieldText false))
  handoffDestinationRef : Option (FieldText false)
  freshUntil : Option Text

def FieldText.json {allowEmpty : Bool} (t : FieldText allowEmpty) : Json := .text t.text

def textsJson (items : List (FieldText false)) : Json := .array (items.map FieldText.json)

def Scalar.json : Scalar → Json
  | .text s _ => .text s
  | .int i => .int i
  | .float repr => .float repr
  | .bool b => .bool b

def Hint.json : Hint → Json
  | .moq n => .int n
  | .text s => s.json
  | .flag b => .bool b
  | .regions items => textsJson items

def attributesJson (fields : List (String × Scalar)) : Json :=
  .object (fields.map fun kv => (kv.1, kv.2.json))

def hintsJson (fields : List (String × Hint)) : Json :=
  .object (fields.map fun kv => (kv.1, kv.2.json))

/-- The key with its value, unless it is absent. -/
def entry {α : Type} (key : String) (json : α → Json) (value : Option α) : List (String × Json) :=
  (value.map fun v => (key, json v)).toList

def PublishFields.json (c : PublishFields) : Json :=
  .object <|
    [("listing_type", c.listingType.json), ("owner_agent_id", c.ownerAgentId.json),
      ("merchant_id", c.merchantId.json), ("title", c.title.json),
      ("category", c.category.json)] ++
    entry "source_product_ref" FieldText.json c.sourceProductRef ++
    entry "publisher_listing_key" FieldText.json c.publisherListingKey ++
    entry "summary" FieldText.json c.summary ++ entry "brand" FieldText.json c.brand ++
    entry "source_revision" FieldText.json c.sourceRevision ++
    entry "attributes" attributesJson c.attributes ++ entry "regions" textsJson c.regions ++
    entry "tags" textsJson c.tags ++ entry "commercial_hints" hintsJson c.commercialHints ++
    entry "handoff_destination_types" textsJson c.handoffDestinationTypes ++
    entry "handoff_destination_ref" FieldText.json c.handoffDestinationRef ++
    entry "fresh_until" Json.text c.freshUntil

def authFields : List String :=
  ["owner_token", "_auth_token", "_binding_jws", "admin_token", "idempotency_key",
    "_idempotency_key"]

def publishKeys : List String :=
  ["listing_type", "owner_agent_id", "merchant_id", "source_product_ref", "publisher_listing_key",
    "source_revision", "title", "summary", "category", "brand", "attributes", "regions", "tags",
    "commercial_hints", "handoff_destination_types", "handoff_destination_ref", "fresh_until"]

def forbiddenFields : List String :=
  ["merchant_cost", "cost", "floor_price", "private_inventory", "pricing_rule", "discount_policy",
    "customer_discount", "credential", "token", "api_key", "private_customer_data",
    "principal_memory", "credentials"]

/-- `if key in payload: validate(payload[key])`. -/
def optional {α : Type} (payload : List (String × Json)) (key : String)
    (validate : Json → Except String α) : Except String (Option α) :=
  match Json.field key payload with
  | none => .ok none
  | some value => (validate value).map some

/-- The same for a field that `null` leaves out as well. -/
def optionalStr (payload : List (String × Json)) (key : String) (allowEmpty : Bool) :
    Except String (Option (FieldText allowEmpty)) :=
  match Json.field key payload with
  | none => .ok none
  | some .null => .ok none
  | some value => (requireStr (some value) key allowEmpty).map some

def isNullOrAbsent (payload : List (String × Json)) (key : String) : Bool :=
  match Json.field key payload with
  | none => true
  | some .null => true
  | some _ => false

/-- A product has a reference, a capability perhaps a key of its publisher. -/
def identityFields (payload : List (String × Json)) (listingType : Text) :
    Except String (Option (FieldText false) × Option (FieldText false)) :=
  if listingType = "product".toList then do
    let ref ← requireStr (Json.field "source_product_ref" payload) "source_product_ref" false
    pure (some ref, none)
  else do
    check (isNullOrAbsent payload "source_product_ref")
      "capability listing must not carry source_product_ref"
    let key ← optionalStr payload "publisher_listing_key" false
    pure (none, key)

/-- A text of the write path without share-code links. -/
def sanitizeShareCodeText (env : TextEnv) (s : Text) : Text :=
  if containsShareCodeUrl env s then [] else redactShareCodeText env s

abbrev sanitizeShareCodeUrls (env : TextEnv) (value : Json) : Json :=
  Json.mapText (sanitizeShareCodeText env) value

/-- The checks of the fields one by one. -/
def canonicalFields (env : ContractEnv) (payload : List (String × Json)) :
    Except String PublishFields := do
  let listingType ← requireStr (Json.field "listing_type" payload) "listing_type" false
  check (listingType.text = "product".toList || listingType.text = "capability".toList)
    "listing_type must be one of ('product', 'capability')"
  let ownerAgentId ← requireStr (Json.field "owner_agent_id" payload) "owner_agent_id" false
  let merchantId ← requireStr (Json.field "merchant_id" payload) "merchant_id" false
  let identity ← identityFields payload listingType.text
  check ((Json.field "handoff_destination_types" payload).isNone ||
      listingType.text = "product".toList)
    "capability listing must not carry handoff_destination_types"
  let title ← requireStr (Json.field "title" payload) "title" false
  let category ← requireStr (Json.field "category" payload) "category" false
  let summary ← optionalStr payload "summary" true
  let brand ← optionalStr payload "brand" true
  let sourceRevision ← optionalStr payload "source_revision" true
  let attributes ← optional payload "attributes" validateAttributes
  let regions ← optional payload "regions" fun value => requireStrList value "regions"
  let tags ← optional payload "tags" fun value => requireStrList value "tags"
  let commercialHints ← optional payload "commercial_hints" validateCommercialHints
  let handoffDestinationTypes ←
    optional payload "handoff_destination_types" validateHandoffDestinationTypes
  let handoffDestinationRef ← optional payload "handoff_destination_ref" fun value =>
    requireStr (some value) "handoff_destination_ref" false
  let freshUntil ← optional payload "fresh_until" env.parseFreshUntil
  pure { listingType, ownerAgentId, merchantId, title, category
         sourceProductRef := identity.1
         publisherListingKey := identity.2
         summary, brand, sourceRevision, attributes, regions, tags, commercialHints
         handoffDestinationTypes, handoffDestinationRef, freshUntil }

def validatePublishPayload (env : ContractEnv) : Json → Except String PublishFields
  | .object all => do
    let payload := all.filter fun kv => !authFields.contains kv.1
    check (unknownKeys publishKeys payload).isEmpty
      ("publish payload has unknown fields: " ++ reprKeys (unknownKeys publishKeys payload))
    let forbidden := (payload.map Prod.fst).filter forbiddenFields.contains
    check forbidden.isEmpty
      ("publish payload contains forbidden private fields: " ++ reprKeys forbidden)
    let canonical ← canonicalFields env payload
    let secrets := env.scanSecrets canonical.json
    check secrets.isEmpty
      ("publish payload contains secret-like content at: " ++ reprKeys (secrets.take 3))
    check (sanitizeShareCodeUrls env.text canonical.json = canonical.json)
      "publish payload contains a share-code link"
    pure canonical
  | _ => .error "publish payload must be an object"

end KiwiCatalog.Listings
