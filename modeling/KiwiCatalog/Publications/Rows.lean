import KiwiCatalog.Db.JsonColumns
import KiwiCatalog.Feed.Follows
import KiwiCatalog.Lib.Checks
import KiwiCatalog.Publications.PublicText

/-!
# Publication rows — what merchants declare, and how it is read

The payload of a publication with its validation, the row that it is stored in, the view in which
every service reads the row, and the projection that the public gets.
-/

set_option autoImplicit false

namespace KiwiCatalog.Publications

open Checks (check)
open Db (decodeJson encodeJson scalarText)
open Url (Text strip)

structure PublicationEnv where
  text : TextEnv
  codec : Json.Codec
  -- `str` of a list or a dictionary
  repr : Json → Text
  -- `_normalize_expires_at` of a text that is not empty
  normalizeExpiresAt : Text → Except String Text
  -- `public_merchant_home_url`
  publicMerchantHomeUrl : String → Text

/-! ## 1. Payloads -/

structure FaqItem where
  question : Text
  answer : Text
  deriving DecidableEq

structure Canonical where
  merchantDisplayName : Text
  title : Text
  category : Text
  shopPlatform : Text
  summary : Text
  shopUrl : Text
  faq : List FaqItem
  expiresAt : Text

inductive Action
  | draft
  | publish
  deriving DecidableEq, Repr

/-- `bool(value)`. -/
def isTruthy : Json → Bool
  | .null => false
  | .bool b => b
  | .int i => i ≠ 0
  | .float repr => repr ≠ "0.0".toList && repr ≠ "-0.0".toList
  | .text s => !s.isEmpty
  | .array items => !items.isEmpty
  | .object fields => !fields.isEmpty

/-- `str(payload.get(key) or "")`. -/
def textOf (env : PublicationEnv) (payload : List (String × Json)) (key : String) : Text :=
  match Json.field key payload with
  | none => []
  | some value => if isTruthy value then (scalarText value).getD (env.repr value) else []

def maxFaqItems : Nat := 20
def maxFaqQuestion : Nat := 300
def maxFaqAnswer : Nat := 1000

def normalizeFaqItem (env : PublicationEnv) (i : Nat) : Json → Except String FaqItem
  | .object entry => do
    let question := strip (textOf env entry "question")
    let answer := strip (textOf env entry "answer")
    check (!question.isEmpty && !answer.isEmpty)
      ("faq[" ++ toString i ++ "] requires non-empty question and answer")
    check (question.length ≤ maxFaqQuestion) ("faq[" ++ toString i ++ "].question too long")
    check (answer.length ≤ maxFaqAnswer) ("faq[" ++ toString i ++ "].answer too long")
    pure ⟨question, answer⟩
  | _ => .error ("faq[" ++ toString i ++ "] must be an object")

def normalizeFaqItems (env : PublicationEnv) : Nat → List Json → Except String (List FaqItem)
  | _, [] => .ok []
  | i, entry :: rest => do
    let first ← normalizeFaqItem env i entry
    let others ← normalizeFaqItems env (i + 1) rest
    pure (first :: others)

def normalizeFaq (env : PublicationEnv) : Option Json → Except String (List FaqItem)
  | none => .ok []
  | some .null => .ok []
  | some (.text []) => .ok []
  | some (.array items) => do
    check (items.length ≤ maxFaqItems) "faq must have at most 20 items"
    normalizeFaqItems env 0 items
  | some _ => .error "faq must be a list of {question, answer} items"

/-- A text field within its limit. -/
def limited (env : PublicationEnv) (payload : List (String × Json)) (field : String)
    (limit : Nat) : Except String Text := do
  let value := strip (textOf env payload field)
  check (value.length ≤ limit) (field ++ " too long (max " ++ toString limit ++ ")")
  pure value

def shopUrlRefused : String :=
  "shop_url must not be a WorkBuddy service link, Agent endpoint, directory URL, or share-code URL"

/-- The message of a refused shop URL; a `ValueError` of `urlparse` has its own. -/
def ShopUrlError.message : ShopUrlError → String
  | .validation message => message
  | .value => "Invalid IPv6 URL"

def shopUrlField (env : PublicationEnv) (payload : List (String × Json)) : Except String Text :=
  match validateShopUrl env.text (textOf env payload "shop_url") with
  | .error e => .error e.message
  | .ok url => do
    check (url.isEmpty || isSafeLink env.text url) shopUrlRefused
    pure url

def expiresAtField (env : PublicationEnv) (payload : List (String × Json)) : Except String Text :=
  let text := strip (textOf env payload "expires_at")
  if text.isEmpty then .ok [] else env.normalizeExpiresAt text

def validateAction (env : PublicationEnv) (payload : List (String × Json)) : Except String Action :=
  let text := textOf env payload "action"
  let action := env.text.tables.lower (strip (if text.isEmpty then "draft".toList else text))
  if action = "draft".toList then .ok .draft
  else if action = "publish".toList then .ok .publish
  else .error "action must be one of ('draft', 'publish')"

def validatePayload (env : PublicationEnv) (payload : List (String × Json)) :
    Except String (Canonical × Action) := do
  let action ← validateAction env payload
  let merchantDisplayName ← limited env payload "merchant_display_name" 200
  let title ← limited env payload "title" 200
  let category ← limited env payload "category" 100
  let shopPlatform ← limited env payload "shop_platform" 100
  let summary ← limited env payload "summary" 2000
  check (!merchantDisplayName.isEmpty) "missing required field: merchant_display_name"
  check (!title.isEmpty) "missing required field: title"
  let shopUrl ← shopUrlField env payload
  let faq ← normalizeFaq env (Json.field "faq" payload)
  let expiresAt ← expiresAtField env payload
  pure (⟨merchantDisplayName, title, category, shopPlatform, summary, shopUrl, faq, expiresAt⟩,
    action)

/-! ## 2. Scans -/

/-- The public texts of the questions and answers, each with its label. -/
def faqTextPairs : Nat → List FaqItem → List (String × Text)
  | _, [] => []
  | i, item :: rest =>
    ("faq[" ++ toString i ++ "].question", item.question) ::
      ("faq[" ++ toString i ++ "].answer", item.answer) :: faqTextPairs (i + 1) rest

def publicTextPairs (c : Canonical) : List (String × Text) :=
  [("merchant_display_name", c.merchantDisplayName), ("title", c.title), ("category", c.category),
    ("summary", c.summary), ("shop_platform", c.shopPlatform)] ++ faqTextPairs 0 c.faq

/-- The labels of the texts that a scan hits. -/
def scan (hit : Text → Bool) (c : Canonical) : List String :=
  ((publicTextPairs c).filter fun pair => hit pair.2).map Prod.fst

def scanPrivateFields (env : TextEnv) : Canonical → List String := scan (isPrivateText env)

def scanUnsafePublicLinks (env : TextEnv) : Canonical → List String := scan (hasUnsafeLink env)

/-- What `create_publication` checks before it writes. -/
def acceptPayload (env : PublicationEnv) (payload : List (String × Json)) :
    Except String (Canonical × Action) := do
  let (canonical, action) ← validatePayload env payload
  let hits := scanPrivateFields env.text canonical
  check hits.isEmpty
    ("public fields must not contain private contact info (email or phone patterns rejected in: " ++
      ", ".intercalate hits ++ ")")
  let unsafeLinks := scanUnsafePublicLinks env.text canonical
  check unsafeLinks.isEmpty
    ("public fields must not contain WorkBuddy, Agent-endpoint or share-code links (rejected in: " ++
      ", ".intercalate unsafeLinks ++ ")")
  pure (canonical, action)

/-! ## 3. Rows and views -/

inductive Status
  | draft
  | published
  | withdrawn
  deriving DecidableEq, Repr

def Status.text : Status → Text
  | .draft => "draft".toList
  | .published => "published".toList
  | .withdrawn => "withdrawn".toList

structure Publication where
  publicationId : String
  merchantId : String
  status : Status
  merchantDisplayName : Text
  shopPlatform : Text
  shopUrl : Text
  title : Text
  category : Text
  summary : Text
  faqJson : Text
  publishedAt : Text
  expiresAt : Text
  version : Nat
  viewCount : Nat
  createdAt : Text
  updatedAt : Text
  deriving DecidableEq

/-- A row as services read it, with its questions and answers decoded. -/
structure PublicationView where
  publicationId : String
  merchantId : String
  status : Status
  merchantDisplayName : Text
  shopPlatform : Text
  shopUrl : Text
  title : Text
  category : Text
  summary : Text
  faq : List FaqItem
  publishedAt : Text
  expiresAt : Text
  version : Nat
  updatedAt : Text
  deriving DecidableEq

def FaqItem.json (item : FaqItem) : Json :=
  .object [("question", .text item.question), ("answer", .text item.answer)]

def faqJson (items : List FaqItem) : Json := .array (items.map FaqItem.json)

/-- The questions and answers among the items of a decoded column. -/
def faqItems (env : PublicationEnv) : Json → List FaqItem
  | .array items => items.filterMap fun
    | .object entry => some ⟨redactPublicText env.text (textOf env entry "question"),
        redactPublicText env.text (textOf env entry "answer")⟩
    | _ => none
  | _ => []

def rowToPublication (env : PublicationEnv) (row : Publication) : PublicationView where
  publicationId := row.publicationId
  merchantId := row.merchantId
  status := row.status
  merchantDisplayName := redactPublicText env.text row.merchantDisplayName
  shopPlatform := redactPublicText env.text row.shopPlatform
  shopUrl := safePublicShopUrl env.text row.shopUrl []
  title := redactPublicText env.text row.title
  category := redactPublicText env.text row.category
  summary := redactPublicText env.text row.summary
  faq := faqItems env (decodeJson env.codec row.faqJson (.array []))
  publishedAt := row.publishedAt
  expiresAt := row.expiresAt
  version := row.version
  updatedAt := row.updatedAt

def isUnexpired (expiresAt now : Text) : Bool := expiresAt.isEmpty || now < expiresAt

def PublicationView.isPubliclyVisible (p : PublicationView) (now : Text) : Bool :=
  p.status = .published && isUnexpired p.expiresAt now

/-! ## 4. The public projection -/

/-- What the public gets; `source_kind` and `inquiry_available` are constants. -/
structure PublicView where
  publicationId : String
  merchantId : String
  merchantDisplayName : Text
  title : Text
  category : Text
  summary : Text
  shopPlatform : Text
  shopUrl : Text
  publicHomeUrl : Text
  faq : List FaqItem
  status : Status
  version : Nat
  publishedAt : Text
  expiresAt : Text
  updatedAt : Text
  deriving DecidableEq

def FaqItem.redacted (env : TextEnv) (item : FaqItem) : FaqItem :=
  ⟨redactPublicText env item.question, redactPublicText env item.answer⟩

def publicProjection (env : PublicationEnv) (now : Text) (p : PublicationView) : PublicView where
  publicationId := p.publicationId
  merchantId := p.merchantId
  merchantDisplayName := redactPublicText env.text p.merchantDisplayName
  title := redactPublicText env.text p.title
  category := redactPublicText env.text p.category
  summary := redactPublicText env.text p.summary
  shopPlatform := redactPublicText env.text p.shopPlatform
  shopUrl := safePublicShopUrl env.text p.shopUrl []
  publicHomeUrl := if p.isPubliclyVisible now then env.publicMerchantHomeUrl p.merchantId else []
  faq := p.faq.map (FaqItem.redacted env.text)
  status := p.status
  version := p.version
  publishedAt := p.publishedAt
  expiresAt := p.expiresAt
  updatedAt := p.updatedAt

def PublicView.json (v : PublicView) : Json :=
  .object
    [("publication_id", .text v.publicationId.toList), ("merchant_id", .text v.merchantId.toList),
      ("merchant_display_name", .text v.merchantDisplayName), ("title", .text v.title),
      ("category", .text v.category), ("summary", .text v.summary),
      ("shop_platform", .text v.shopPlatform), ("shop_url", .text v.shopUrl),
      ("public_home_url", .text v.publicHomeUrl), ("faq", faqJson v.faq),
      ("source_kind", .text "merchant_declared".toList), ("status", .text v.status.text),
      ("version", .int v.version), ("published_at", .text v.publishedAt),
      ("expires_at", .text v.expiresAt), ("updated_at", .text v.updatedAt),
      ("inquiry_available", .bool false)]

def publicTextFields : List String :=
  ["merchant_display_name", "title", "category", "summary", "shop_platform"]

mutual

def sanitizePublicPayload (env : PublicationEnv) : Json → Json
  | .null => .null
  | .bool b => .bool b
  | .int i => .int i
  | .float repr => .float repr
  | .text s => .text (redactShareCodeText env.text s)
  | .array items => .array (sanitizePublicItems env items)
  | .object fields => .object (sanitizePublicFields env fields)

def sanitizePublicItems (env : PublicationEnv) : List Json → List Json
  | [] => []
  | v :: rest => sanitizePublicPayload env v :: sanitizePublicItems env rest

def sanitizePublicFields (env : PublicationEnv) : List (String × Json) → List (String × Json)
  | [] => []
  | (key, v) :: rest =>
    let cleaned :=
      if key = "shop_url" then
        .text (safePublicShopUrl env.text (textOf env [(key, v)] key) [])
      else match v with
        | .text s =>
          if key = "question" || key = "answer" || publicTextFields.contains key then
            .text (redactPublicText env.text s)
          else .text (redactShareCodeText env.text s)
        | _ => sanitizePublicPayload env v
    (key, cleaned) :: sanitizePublicFields env rest

end

/-- `merchant_public_events` of publications: payloads are JSON objects. -/
def eventPayloads (env : PublicationEnv) : Feed.Payloads Json where
  encodeJson payload := String.ofList (encodeJson env.codec payload)
  decodeJson text := decodeJson env.codec text.toList (.object [])
  sanitize := sanitizePublicPayload env
  category
    | .object fields => String.ofList (textOf env fields "category")
    | _ => ""

end KiwiCatalog.Publications
