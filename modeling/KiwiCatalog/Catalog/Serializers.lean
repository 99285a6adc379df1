import KiwiCatalog.Catalog.AgentWriters
import KiwiCatalog.Catalog.CapabilityTable
import KiwiCatalog.Discovery.UcpCredentials

/-!
# Serializers — the public view of an agent

A row never leaves as it is: what is returned is built anew from a few of its columns.
-/

set_option autoImplicit false

namespace KiwiCatalog.Catalog

open Discovery (Fields CapabilityRow SkillRow objectField arrayField itemsOf fieldsOf)
open Discovery.Ucp (isTruthy)
open Url (Text)

/-! ## 1. Dictionaries -/

/-- `dict[key] = value`: in place, or at the end. -/
def put (key : String) (v : Json) : Fields → Fields
  | [] => [(key, v)]
  | (k, w) :: rest => if k = key then (k, v) :: rest else (k, w) :: put key v rest

/-- `dict.setdefault(key, value)`. -/
def putDefault (key : String) (v : Json) (fields : Fields) : Fields :=
  if (Json.field key fields).isSome then fields else put key v fields

/-- `value or ""`. -/
def orEmpty (v : Json) : Json := if isTruthy v then v else .text []

/-- `if value: result[key] = value`. -/
def truthyField (key : String) (v : Json) : Fields := if isTruthy v then [(key, v)] else []

/-- `dict.get(key, default)`. -/
def getOr (key : String) (default : Json) (fields : Fields) : Json :=
  (Json.field key fields).getD default

def privateMerchantFields : List String :=
  ["automation_boundaries", "contact", "hours", "delivery_fee", "delivery_currency",
    "delivery_eta_minutes", "delivery_radius_km", "delivery_notes", "floor_price", "cost",
    "discount_policy", "agent_token", "merchant_token", "private_contact", "llm_prompt",
    "internal_strategy", "private_reputation_evidence"]

def privateCatalogFields : List String :=
  ["first_seen_at", "last_seen_at", "created_at", "updated_at", "provider_name"]

def stripPrivate (fields : Fields) (privateFields : List String) : Fields :=
  fields.filter fun kv => kv.1 ∉ privateFields

/-! ## 2. The parts of a view -/

/-- `public_merchant_ref`; `decodeJson` is `decode_json(value, [])`. -/
def publicMerchantRef (decodeJson : Text → List Json) (merchant : Fields) : Fields :=
  let safe := stripPrivate merchant privateMerchantFields
  ("id", orEmpty (Json.get "id" safe)) :: ("name", orEmpty (Json.get "name" safe)) ::
    (truthyField "city" (Json.get "city" safe) ++
      truthyField "service_area" (Json.get "service_area" safe) ++
      truthyField "domain"
        (if isTruthy (Json.get "canonical_domain" safe) then Json.get "canonical_domain" safe
          else Json.get "domain" safe) ++
      (match Json.get "tags" safe, Json.get "tags_json" safe with
        | .array tags, _ => [("tags", .array tags)]
        | _, .text tagsJson => [("tags", .array (decodeJson tagsJson))]
        | _, _ => []))

def publicCapabilitySummary (capability : CapabilityRow) : Fields :=
  ("capability_id", .text (if capability.namespace_ = [] then capability.capabilityId
    else capability.namespace_ ++ ':' :: capability.capabilityId)) ::
  truthyField "version" (.text capability.version)

def publicSkillSummary (decodeJson : Text → List Json) (skill : SkillRow) : Fields :=
  ("skill_id", .text skill.skillId) :: ("name", .text skill.name) ::
    (truthyField "description" (.text skill.description) ++
      arrayField "tags" (decodeJson skill.tagsJson))

def publicEndpointSummary (ep : EndpointRow) : Option Fields :=
  if ep.url = [] ∧ ep.kind ≠ "agent_card".toList ∧ ep.kind ≠ "ucp_profile".toList then none
  else some (("kind", .text ep.kind) ::
    (truthyField "url" (.text ep.url) ++ truthyField "protocol" (.text ep.protocol) ++
      truthyField "protocol_version" (.text ep.protocolVersion)))

def discover (discovery : Fields) (ep : EndpointRow) : Fields :=
  if ep.url = [] then discovery
  else if ep.kind = "agent_card".toList then put "agent_card_url" (.text ep.url) discovery
  else if ep.kind = "ucp_profile".toList then put "ucp_profile_url" (.text ep.url) discovery
  else if ep.kind = "a2a".toList then
    put "a2a_urls" (.array (itemsOf (Json.get "a2a_urls" discovery) ++ [.text ep.url])) discovery
  else discovery

def speak (protocols : Fields) (ep : EndpointRow) : Fields :=
  if (publicEndpointSummary ep).isNone ∨ ep.protocol = [] then protocols
  else
    let protocol := String.ofList ep.protocol
    let versions := itemsOf (Json.get protocol protocols)
    put protocol
      (.array (if ep.protocolVersion = [] ∨ versions.any (fun v => v.ownText = [ep.protocolVersion])
        then versions else versions ++ [.text ep.protocolVersion])) protocols

/-- The merchant's public reference, or what the row says of it. -/
def merchantBlock (decodeJson : Text → List Json) (safe : Fields) (merchant : Fields) : Fields :=
  if merchant ≠ [] then publicMerchantRef decodeJson merchant
  else
    let name := if isTruthy (Json.get "merchant_name" safe) then Json.get "merchant_name" safe
      else orEmpty (Json.get "display_name" safe)
    if isTruthy name then [("id", orEmpty (Json.get "merchant_id" safe)), ("name", name)] else []

def catalogSearchResult (decodeJson : Text → List Json) (catalogAgent merchant : Fields)
    (capabilities : List CapabilityRow) (endpoints : List EndpointRow) (skills : List SkillRow) :
    Fields :=
  let safe := stripPrivate catalogAgent privateCatalogFields
  [("catalog_agent_id", getOr "catalog_agent_id" (.text []) safe)] ++
    objectField "merchant" (merchantBlock decodeJson safe merchant) ++
    objectField "discovery" (endpoints.foldl discover []) ++
    objectField "protocols" (endpoints.foldl speak []) ++
    arrayField "capabilities" (capabilities.map fun capability =>
      Json.get "capability_id" (publicCapabilitySummary capability)) ++
    arrayField "skills" (skills.map fun skill => .object (publicSkillSummary decodeJson skill)) ++
    [("verification", .object (
      ("status", getOr "verification_status" (.text "discovered".toList) safe) ::
        truthyField "last_verified_at" (Json.get "last_verified_at" safe))),
    ("hosting", .object [("mode", getOr "hosting_mode" (.text "unknown".toList) safe)]),
    ("contract", .object [("name", .text "candidate-agent".toList),
      ("version", .text "1.0".toList)])]

def catalogAgentDetail (decodeJson : Text → List Json) (catalogAgent merchant : Fields)
    (capabilities : List CapabilityRow) (endpoints : List EndpointRow) (skills : List SkillRow) :
    Fields :=
  catalogSearchResult decodeJson catalogAgent merchant capabilities endpoints skills

def publicKeys : List String :=
  ["catalog_agent_id", "merchant", "discovery", "protocols", "capabilities", "skills",
    "verification", "hosting", "contract"]

/-- No other key is public. -/
theorem keys_catalogSearchResult (decodeJson : Text → List Json) (catalogAgent merchant : Fields)
    (capabilities : List CapabilityRow) (endpoints : List EndpointRow) (skills : List SkillRow) :
    ∀ key ∈ (catalogSearchResult decodeJson catalogAgent merchant capabilities endpoints
      skills).map Prod.fst, key ∈ publicKeys := by
  have hobject : ∀ (name : String) (fields : Fields), name ∈ publicKeys →
      ∀ key ∈ (objectField name fields).map Prod.fst, key ∈ publicKeys := by
    intro name fields hname key hkey
    rw [Discovery.keys_objectField key hkey]
    exact hname
  have harray : ∀ (name : String) (items : List Json), name ∈ publicKeys →
      ∀ key ∈ (arrayField name items).map Prod.fst, key ∈ publicKeys := by
    intro name items hname key hkey
    rw [Discovery.keys_arrayField key hkey]
    exact hname
  intro key hkey
  unfold catalogSearchResult at hkey
  simp only [List.map_append, List.mem_append, List.map_cons, List.map_nil, List.mem_cons,
    List.not_mem_nil, or_false] at hkey
  rcases hkey with (((((hkey | hkey) | hkey) | hkey) | hkey) | hkey) | hkey | hkey | hkey
  · rw [hkey]
    decide
  · exact hobject _ _ (by decide) key hkey
  · exact hobject _ _ (by decide) key hkey
  · exact hobject _ _ (by decide) key hkey
  · exact harray _ _ (by decide) key hkey
  · exact harray _ _ (by decide) key hkey
  · rw [hkey]
    decide
  · rw [hkey]
    decide
  · rw [hkey]
    decide

end KiwiCatalog.Catalog
