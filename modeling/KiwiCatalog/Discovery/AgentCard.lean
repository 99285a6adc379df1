import KiwiCatalog.Discovery.Capabilities

/-!
# Agent card — its parser and its public projection
-/

set_option autoImplicit false

namespace KiwiCatalog.Discovery.AgentCard

open Checks (check)
open Url (Text strip)

structure AgentCardResult where
  sourceUrl : Text
  canonicalDomain : Text
  name : Text
  version : Text
  pub : Fields
  capabilities : List CapabilityRow
  skills : List SkillRow
  secretsQuarantined : List Text

/-! ## 1. Schema -/

def validateProvider (card : Fields) : Except String Unit :=
  match Json.get "provider" card with
  | .null => .ok ()
  | .object provider => do
    let _ ← getOptionalStr provider "organization" "agent_card.provider"
    let _ ← getOptionalStr provider "url" "agent_card.provider"
    pure ()
  | _ => .error "agent_card.provider: expected a JSON object"

def validateSkill (skill : Fields) (label : String) : Except String Text := do
  let skillId ← requireStr skill "id" label
  let _ ← requireStr skill "name" label
  let _ ← getOptionalStr skill "description" label
  let _ ← getOptionalListOfStr skill "tags" label
  let _ ← getOptionalListOfStr skill "examples" label
  let _ ← getOptionalListOfStr skill "inputModes" label
  let _ ← getOptionalListOfStr skill "outputModes" label
  pure skillId

/-- The loop over the skills, with the ids that were seen. -/
def validateSkillItems (lib : Library) : Nat → List Text → List Json → Except String Unit
  | _, _, [] => .ok ()
  | i, seen, .object skill :: rest => do
    let label := "agent_card.skills." ++ toString i
    let skillId ← validateSkill skill label
    check (!seen.contains skillId) (label ++ ".id duplicate skill id: " ++ lib.repr skillId)
    validateSkillItems lib (i + 1) (skillId :: seen) rest
  | i, _, _ :: _ => .error ("agent_card.skills." ++ toString i ++ ": expected a JSON object")

def validateSkills (lib : Library) (value : Json) : Except String Unit :=
  match value with
  | .null => .ok ()
  | .array items => validateSkillItems lib 0 [] items
  | _ => .error "agent_card.skills: expected a list"

def validateFlag (caps : Fields) (key : String) : Except String Unit :=
  match Json.get key caps with
  | .null => .ok ()
  | .bool _ => .ok ()
  | _ => .error ("agent_card.capabilities." ++ key ++ ": expected a boolean")

def validateCapabilities (card : Fields) : Except String Unit :=
  match Json.get "capabilities" card with
  | .null => .ok ()
  | .object caps => do
    validateFlag caps "streaming"
    validateFlag caps "pushNotifications"
    validateFlag caps "stateTransitionHistory"
  | _ => .error "agent_card.capabilities: expected a JSON object"

def validateSecurityItems (lib : Library) (schemes : Option Fields) :
    Nat → List Json → Except String Unit
  | _, [] => .ok ()
  | i, .object item :: rest => do
    let label := "agent_card.security[" ++ toString i ++ "]"
    let scheme ← requireStr item "scheme" label
    let open_ := scheme = "none".toList || scheme = "anonymous".toList
    check (open_ || schemes.all fun fields => fields.any fun kv => kv.1.toList = scheme)
      (label ++ ".scheme: unknown scheme " ++ lib.repr scheme ++
        " (not present in agent_card.securitySchemes)")
    validateSecurityItems lib schemes (i + 1) rest
  | i, _ :: _ => .error ("agent_card.security[" ++ toString i ++ "]: expected a JSON object")

/-- The older form of `security`. -/
def validateSecurityObject (security : Fields) : Except String Unit := do
  match Json.get "authentication" security with
  | .null => pure ()
  | .object authn => do
    let _ ← getOptionalListOfStr authn "schemes" "agent_card.security.authentication"
    let _ ← getOptionalStr authn "credentials" "agent_card.security.authentication"
    pure ()
  | _ => .error "agent_card.security.authentication: expected a JSON object"
  match Json.get "authorization" security with
  | .null => pure ()
  | .object _ => pure ()
  | _ => .error "agent_card.security.authorization: expected a JSON object"

def validateSecurity (lib : Library) (card : Fields) : Except String Unit :=
  match Json.get "security" card with
  | .null => .ok ()
  | .array items =>
    match Json.get "securitySchemes" card with
    | .null => validateSecurityItems lib none 0 items
    | .object schemes => validateSecurityItems lib (some schemes) 0 items
    | _ => .error "agent_card.securitySchemes: expected a JSON object"
  | .object security => validateSecurityObject security
  | _ => .error "agent_card.security: expected a JSON array (A2A v1.0) or object"

def validateAgents (card : Fields) : Except String Unit :=
  match Json.get "agents" card with
  | .null => .ok ()
  | .object agents => do
    let _ ← getOptionalListOfStr agents "author" "agent_card.agents"
    pure ()
  | _ => .error "agent_card.agents: expected a JSON object"

/-! ## 2. Authority -/

def validateAuthority (lib : Library) (card : Fields) (canonical : Text) : Except String Unit := do
  match Json.get "url" card with
  | .text url => assertSameDomain lib url canonical "agent_card.url"
  | _ => pure ()
  assertIfHttp lib (Json.get "documentationUrl" card) canonical "agent_card.documentationUrl"
  match Json.get "provider" card with
  | .object provider =>
    assertIfHttp lib (Json.get "url" provider) canonical "agent_card.provider.url"
  | _ => pure ()

/-! ## 3. Projection -/

def projectProvider (skip : Text → Bool) (card : Fields) : Fields :=
  match Json.get "provider" card with
  | .object provider =>
    objectField "provider" (pick isPresent skip "provider".toList ["organization", "url"] provider)
  | _ => []

def projectSkill (skip : Text → Bool) (i : Nat) (skill : Fields) : Fields :=
  let base := itemPath "skills".toList i
  pick isPresent skip base ["id", "name", "description"] skill ++
    pick isArray skip base ["tags", "examples", "inputModes", "outputModes"] skill

def projectSkills (skip : Text → Bool) (card : Fields) : Fields :=
  arrayField "skills" (projectItems (projectSkill skip) 0 (itemsOf (Json.get "skills" card)))

def projectCapabilities (skip : Text → Bool) (card : Fields) : Fields :=
  match Json.get "capabilities" card with
  | .object caps =>
    objectField "capabilities" (pick isBool skip "capabilities".toList
      ["streaming", "pushNotifications", "stateTransitionHistory"] caps)
  | _ => []

def projectAgents (lib : Library) (skip : Text → Bool) (card : Fields) : Fields :=
  match Json.get "author" (fieldsOf (Json.get "agents" card)) with
  | .array items =>
    if skip "agents.author".toList then []
    else
      [("agents", .object [("author", .array (items.map fun a => .text (lib.strOf a)))])]
  | _ => []

/-- `_project_public`. -/
def projectPublic (lib : Library) (skip : Text → Bool) (card : Fields) : Fields :=
  pick isPresent skip [] ["name", "url", "version", "description", "documentationUrl"] card ++
    projectProvider skip card ++ projectSkills skip card ++ projectCapabilities skip card ++
    pick isArray skip [] ["defaultInputModes", "defaultOutputModes"] card ++
    projectAgents lib skip card

/-! ## 4. The parser -/

/-- The texts that the checks of a card find in it. -/
structure CardHead where
  name : Text
  version : Text
  url : Text

/-- Stages 1 to 3: schema, meaning and authority. -/
def validate (lib : Library) (policy : TrustPolicy) (canonical : Text) (card : Fields) :
    Except String CardHead := do
  let name ← requireStr card "name" "agent_card"
  let version ← requireStr card "version" "agent_card"
  let url ← requireStr card "url" "agent_card"
  let _ ← getOptionalStr card "description" "agent_card"
  let _ ← getOptionalStr card "documentationUrl" "agent_card"
  validateProvider card
  validateSkills lib (Json.get "skills" card)
  validateCapabilities card
  validateSecurity lib card
  let _ ← getOptionalListOfStr card "defaultInputModes" "agent_card"
  let _ ← getOptionalListOfStr card "defaultOutputModes" "agent_card"
  validateAgents card
  check (policy.allowedA2aVersions.contains version)
    ("agent_card.version '" ++ String.ofList version ++
      "' is not an allowed A2A version (allowed: " ++ versionsText policy.allowedA2aVersions ++ ")")
  check (strip name ≠ []) "agent_card.name must be a non-empty string"
  check (isHttpUrl lib (.text url))
    ("agent_card.url must be an http(s) URL, got " ++ lib.repr url)
  validateAuthority lib card canonical
  pure ⟨name, version, url⟩

def parse (lib : Library) (policy : TrustPolicy) (options : ParserOptions) (parsed : Json)
    (sourceUrl : Text) : Except String AgentCardResult := do
  validateJsonBounds options.maxDepth options.maxNodes parsed
  let canonical ← canonicalDomainOf lib sourceUrl
  let card ← requireMapping parsed "agent_card"
  let head ← validate lib policy canonical card
  let secretPaths ← scanSecrets lib (.object card)
  check (!(options.rejectOnSecret && !secretPaths.isEmpty))
    ("agent_card contains secret-like fields: " ++ pathsText secretPaths)
  let pub := projectPublic lib (skips secretPaths) card
  pure
    { sourceUrl := sourceUrl
      canonicalDomain := canonical
      name := head.name
      version := head.version
      pub := pub
      capabilities := extractAgentCardCapabilities pub head.version
      skills := extractAgentCardSkills lib pub
      secretsQuarantined := secretPaths }

end KiwiCatalog.Discovery.AgentCard
