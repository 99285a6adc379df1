import KiwiCatalog.Discovery.Capabilities

/-!
# UCP — the parser of commerce profiles and their public projection

A profile in Kiwi's own shape, under a `ucp` key, is first brought into the standard one.
-/

set_option autoImplicit false

namespace KiwiCatalog.Discovery.Ucp

open Checks (check)
open Url (Text strip)

structure UcpProfileResult where
  sourceUrl : Text
  canonicalDomain : Text
  specificationVersion : Text
  serviceIdentityId : Text
  pub : Fields
  capabilities : List CapabilityRow
  skills : List SkillRow
  secretsQuarantined : List Text

/-! ## 1. The canonical shape -/

/-- `_first_declaration`. -/
def firstDeclaration : Json → Json
  | .array [] => .null
  | .array (v :: _) => v
  | v => v

/-- `bool(value)`. -/
def isTruthy : Json → Bool
  | .null => false
  | .bool b => b
  | .int i => i ≠ 0
  | .float repr => repr ≠ "0.0".toList && repr ≠ "-0.0".toList
  | .text s => s ≠ []
  | .array items => !items.isEmpty
  | .object fields => !fields.isEmpty

/-- `str(value or default)`. -/
def strOr (lib : Library) (value : Json) (default : Text) : Text :=
  if isTruthy value then lib.strOf value else default

/-- The text of a field without blanks around it, where it is not blank. -/
def stripped (key : String) (fields : Fields) : Option Text :=
  match Json.get key fields with
  | .text s => if strip s = [] then none else some (strip s)
  | _ => none

def strippedField (source target : String) (fields : Fields) : Fields :=
  match stripped source fields with
  | some s => [(target, .text s)]
  | none => []

/-- The declarations of a map of capabilities that are objects. -/
def inlineCapabilities (caps : Fields) : Fields :=
  caps.filterMap fun kv =>
    match firstDeclaration kv.2 with
    | .object declaration => some (kv.1, .object declaration)
    | _ => none

def inlineOf (svc : Fields) : Fields :=
  match Json.get "capabilities" svc with
  | .object caps => inlineCapabilities caps
  | _ => []

/-- The ids that a service declares itself. -/
def declaredIds (lib : Library) (svc : Fields) : List Text :=
  match Json.get "capabilities" svc with
  | .object caps => (inlineCapabilities caps).map fun kv => kv.1.toList
  | .array items => items.map lib.strOf
  | _ => []

/-- With the ids of the common map behind them that start with the id of the service. -/
def capabilityIds (lib : Library) (svcId : String) (svc capabilitiesMap : Fields) : List Text :=
  capabilitiesMap.foldl
    (fun ids kv =>
      let key := kv.1.toList
      if (svcId.toList ++ ['.']).isPrefixOf key && !ids.contains key then ids ++ [key] else ids)
    (declaredIds lib svc)

def endpointsOf (lib : Library) (svc : Fields) : List Json :=
  match Json.get "endpoints" svc with
  | .array items => items
  | _ =>
    match stripped "endpoint" svc with
    | none => []
    | some uri =>
      let transport := strip (strOr lib (Json.get "transport" svc) "a2a".toList)
      [.object (("uri", .text uri) ::
        ("protocol", .text (if transport = [] then "a2a".toList else transport)) ::
          strippedField "version" "version" svc)]

/-- The declaration of a capability: the service's own, or the common one. -/
def capabilityMeta (inline capabilitiesMap : Fields) (capId : Text) : Fields :=
  match Json.get (String.ofList capId) inline with
  | .object declaration => declaration
  | _ => fieldsOf (firstDeclaration (Json.get (String.ofList capId) capabilitiesMap))

def specificationEntry (inline capabilitiesMap : Fields) (capId : Text) : Json :=
  let declared := capabilityMeta inline capabilitiesMap capId
  .object (("id", .text capId) :: ("label", .text capId) ::
    (strippedField "version" "version" declared ++ strippedField "spec" "specUrl" declared ++
      strippedField "schema" "schemaUrl" declared))

def convertService (lib : Library) (capabilitiesMap : Fields) (svcId : String) (svc : Fields) :
    Json :=
  let capIds := capabilityIds lib svcId svc capabilitiesMap
  .object (("id", .text svcId.toList) ::
    ("type", .text (strOr lib (Json.get "type" svc) "commerce".toList)) ::
    ("capabilities", .array (capIds.map Json.text)) ::
    ("endpoints", .array (endpointsOf lib svc)) ::
    (pick isText (fun _ => false) [] ["description", "documentationUri"] svc ++
      arrayField "specifications" (capIds.map (specificationEntry (inlineOf svc) capabilitiesMap))))

def convertServices (lib : Library) (capabilitiesMap : Fields) :
    Fields → Except String (List Json)
  | [] => .ok []
  | (svcId, value) :: rest =>
    match firstDeclaration value with
    | .object svc => do
      let others ← convertServices lib capabilitiesMap rest
      pure (convertService lib capabilitiesMap svcId svc :: others)
    | _ =>
      .error ("ucp.services." ++ svcId ++ ": expected a JSON object or declaration array")

/-- The identity of the profile, or one of the domain. -/
def identityOf (lib : Library) (ucp : Fields) (canonicalDomain : Text) : Fields :=
  let identity := fieldsOf (Json.get "serviceIdentity" ucp)
  let name := if canonicalDomain = [] then "kiwi-agent".toList else canonicalDomain
  if strip (strOr lib (Json.get "id" identity) []) = [] then
    [("id", .text name), ("name", .text name)]
  else identity

/-- `_normalize_canonical_ucp`. -/
def normalizeCanonicalUcp (lib : Library) (parsed : Json) (canonicalDomain : Text) :
    Except String Json :=
  match Json.get "ucp" (fieldsOf parsed) with
  | .object ucp =>
    match stripped "version" ucp with
    | none => .error "ucp.version is required (canonical Kiwi UCP model)"
    | some version =>
      match Json.get "services" ucp with
      | .object (kv :: more) => do
        let services ←
          convertServices lib (fieldsOf (Json.get "capabilities" ucp)) (kv :: more)
        pure (.object (("specificationVersion", .text version) ::
          ("serviceIdentity", .object (identityOf lib ucp canonicalDomain)) ::
          ("services", .array services) ::
          pick isArray (fun _ => false) [] ["specifications"] ucp))
      | _ => .error "ucp.services must be a non-empty map (canonical Kiwi UCP model)"
  | _ => .ok parsed

/-! ## 2. Schema -/

/-- An object, or a text: a reference. -/
def validateAccess (value : Json) (label : String) : Except String Unit :=
  match value with
  | .null => .ok ()
  | .object _ => .ok ()
  | .text _ => .ok ()
  | _ => .error (label ++ ".access: expected a JSON object or string")

def validateEndpoint (label : String) (endpoint : Fields) : Except String Unit := do
  let _ ← requireStr endpoint "uri" label
  let _ ← requireStr endpoint "protocol" label
  let _ ← getOptionalStr endpoint "version" label
  validateAccess (Json.get "access" endpoint) label

def validateEndpoints (value : Json) (label : String) : Except String Unit :=
  match value with
  | .array (v :: rest) => validateItems (label ++ ".endpoints") validateEndpoint 0 (v :: rest)
  | _ => .error (label ++ ".endpoints: expected a non-empty list")

def validateServiceSpecification (label : String) (sp : Fields) : Except String Unit := do
  let _ ← requireStr sp "id" label
  let _ ← requireStr sp "label" label
  pure ()

def validateServiceSpecifications (value : Json) (label : String) : Except String Unit :=
  match value with
  | .null => .ok ()
  | .array items => validateItems (label ++ ".specifications") validateServiceSpecification 0 items
  | _ => .error (label ++ ".specifications: expected a list")

def validateService (label : String) (service : Fields) : Except String Unit := do
  let _ ← requireStr service "id" label
  let _ ← requireStr service "type" label
  let _ ← requireListOfStr service "capabilities" label
  let _ ← getOptionalStr service "description" label
  validateEndpoints (Json.get "endpoints" service) label
  let _ ← getOptionalStr service "documentationUri" label
  validateServiceSpecifications (Json.get "specifications" service) label

def validateServices (value : Json) : Except String Unit :=
  match value with
  | .array (v :: rest) => validateItems "ucp_profile.services" validateService 0 (v :: rest)
  | _ => .error "ucp_profile.services: expected a non-empty list"

def validateSpecification (label : String) (sp : Fields) : Except String Unit := do
  let _ ← requireStr sp "id" label
  let _ ← requireStr sp "label" label
  let _ ← getOptionalStr sp "openAPIDocument" label
  pure ()

def validateSpecifications (value : Json) : Except String Unit :=
  match value with
  | .null => .ok ()
  | .array items => validateItems "ucp_profile.specifications" validateSpecification 0 items
  | _ => .error "ucp_profile.specifications: expected a list"

/-! ## 3. Authority -/

def authorizeEndpoint (lib : Library) (canonical : Text) (label : String) (endpoint : Fields) :
    Except String Unit :=
  match Json.get "uri" endpoint with
  | .text uri => assertSameDomain lib uri canonical (label ++ ".uri")
  | _ => .ok ()

def authorizeService (lib : Library) (canonical : Text) (label : String) (service : Fields) :
    Except String Unit := do
  assertIfHttp lib (Json.get "documentationUri" service) canonical (label ++ ".documentationUri")
  validateObjects (label ++ ".endpoints") (authorizeEndpoint lib canonical) 0
    (itemsOf (Json.get "endpoints" service))

def authorizeSpecification (lib : Library) (canonical : Text) (label : String) (sp : Fields) :
    Except String Unit :=
  assertIfHttp lib (Json.get "openAPIDocument" sp) canonical (label ++ ".openAPIDocument")

/-- `_validate_authority`. -/
def validateAuthority (lib : Library) (profile : Fields) (canonical : Text) :
    Except String Unit := do
  assertIfHttp lib (Json.get "id" (fieldsOf (Json.get "serviceIdentity" profile))) canonical
    "ucp_profile.serviceIdentity.id"
  validateObjects "ucp_profile.services" (authorizeService lib canonical) 0
    (itemsOf (Json.get "services" profile))
  validateObjects "ucp_profile.specifications" (authorizeSpecification lib canonical) 0
    (itemsOf (Json.get "specifications" profile))

/-! ## 4. Projection -/

def isNonemptyText : Json → Bool
  | .text s => s ≠ []
  | _ => false

def projectOwner (skip : Text → Bool) (identity : Fields) : Fields :=
  match Json.get "owner" identity with
  | .object owner =>
    objectField "owner" (pick isPresent skip "serviceIdentity.owner".toList ["name", "url"] owner)
  | _ => []

def projectIdentity (skip : Text → Bool) (profile : Fields) : Fields :=
  let base := "serviceIdentity".toList
  match Json.get "serviceIdentity" profile with
  | .object identity =>
    objectField "serviceIdentity"
      (pick isPresent skip base ["id", "name", "description"] identity ++
        projectOwner skip identity ++ pick isObject skip base ["serviceArea"] identity)
  | _ => []

def specificationKeys : List String := ["id", "label", "version", "specUrl", "schemaUrl"]

def projectEndpoint (skip : Text → Bool) (base : Text) (j : Nat) (endpoint : Fields) : Fields :=
  let base := itemPath (childPath base "endpoints") j
  pick isPresent skip base ["uri", "protocol"] endpoint ++
    pick isText skip base ["version"] endpoint

def projectServiceSpecification (skip : Text → Bool) (base : Text) (j : Nat) (sp : Fields) :
    Fields :=
  pick isPresent skip (itemPath (childPath base "specifications") j) specificationKeys sp

def projectService (skip : Text → Bool) (i : Nat) (service : Fields) : Fields :=
  let base := itemPath "services".toList i
  pick isPresent skip base ["id", "type", "description"] service ++
    pick isArray skip base ["capabilities"] service ++
    arrayField "endpoints"
      (projectItems (projectEndpoint skip base) 0 (itemsOf (Json.get "endpoints" service))) ++
    pick isText skip base ["documentationUri"] service ++
    arrayField "specifications"
      (projectItems (projectServiceSpecification skip base) 0
        (itemsOf (Json.get "specifications" service)))

def projectSpecification (skip : Text → Bool) (j : Nat) (sp : Fields) : Fields :=
  let base := itemPath "specifications".toList j
  pick isPresent skip base specificationKeys sp ++ pick isText skip base ["openAPIDocument"] sp

/-- `_project_public`; the version is not asked for. -/
def projectPublic (skip : Text → Bool) (profile : Fields) : Fields :=
  ("specificationVersion", Json.get "specificationVersion" profile) ::
    (pick isNonemptyText skip [] ["implementationVersion"] profile ++
      projectIdentity skip profile ++
      arrayField "services"
        (projectItems (projectService skip) 0 (itemsOf (Json.get "services" profile))) ++
      arrayField "specifications"
        (projectItems (projectSpecification skip) 0 (itemsOf (Json.get "specifications" profile))))

/-! ## 5. The parser -/

structure ProfileHead where
  specificationVersion : Text
  identityId : Text
  identityName : Text

/-- Stages 1 to 3: schema, meaning and authority. -/
def validate (lib : Library) (policy : TrustPolicy) (canonical : Text) (profile : Fields) :
    Except String ProfileHead := do
  let specVersion ← requireStr profile "specificationVersion" "ucp_profile"
  let _ ← getOptionalStr profile "implementationVersion" "ucp_profile"
  let identity ←
    requireMapping (Json.get "serviceIdentity" profile) "ucp_profile.serviceIdentity"
  let identityId ← requireStr identity "id" "ucp_profile.serviceIdentity"
  let identityName ← requireStr identity "name" "ucp_profile.serviceIdentity"
  let _ ← getOptionalStr identity "description" "ucp_profile.serviceIdentity"
  validateServices (Json.get "services" profile)
  validateSpecifications (Json.get "specifications" profile)
  check (policy.allowedUcpVersions.contains specVersion)
    ("ucp_profile.specificationVersion '" ++ String.ofList specVersion ++
      "' is not an allowed UCP version (allowed: " ++ versionsText policy.allowedUcpVersions ++ ")")
  check (strip identityId ≠ []) "ucp_profile.serviceIdentity.id must be a non-empty string"
  check (strip identityName ≠ []) "ucp_profile.serviceIdentity.name must be a non-empty string"
  validateAuthority lib profile canonical
  pure ⟨specVersion, identityId, identityName⟩

def parse (lib : Library) (policy : TrustPolicy) (options : ParserOptions) (parsed : Json)
    (sourceUrl : Text) : Except String UcpProfileResult := do
  validateJsonBounds options.maxDepth options.maxNodes parsed
  let canonical ← canonicalDomainOf lib sourceUrl
  let normalized ← normalizeCanonicalUcp lib parsed canonical
  let profile ← requireMapping normalized "ucp_profile"
  let head ← validate lib policy canonical profile
  let secretPaths ← scanSecrets lib (.object profile)
  check (!(options.rejectOnSecret && !secretPaths.isEmpty))
    ("ucp_profile contains secret-like fields: " ++ pathsText secretPaths)
  let pub := projectPublic (skips secretPaths) profile
  pure
    { sourceUrl := sourceUrl
      canonicalDomain := canonical
      specificationVersion := head.specificationVersion
      serviceIdentityId := head.identityId
      pub := pub
      capabilities := extractUcpCapabilities pub canonical head.specificationVersion
      skills := extractUcpSkills pub
      secretsQuarantined := secretPaths }

end KiwiCatalog.Discovery.Ucp
