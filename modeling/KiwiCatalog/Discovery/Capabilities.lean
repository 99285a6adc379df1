import KiwiCatalog.Discovery.Validation

/-!
# Capabilities — the rows of capabilities and skills that a projection has
-/

set_option autoImplicit false

namespace KiwiCatalog.Discovery

open Url (Text strip beforeLast behindLast)

structure CapabilityRow where
  namespace_ : Text
  capabilityId : Text
  version : Text
  required : Nat
  source : Text
  schemaUrl : Text
  specUrl : Text
  deriving DecidableEq

structure SkillRow where
  skillId : Text
  name : Text
  description : Text
  tagsJson : Text
  inputModesJson : Text
  outputModesJson : Text
  deriving DecidableEq

def capabilityRow (namespace_ capabilityId version source : Text) : CapabilityRow :=
  ⟨namespace_, capabilityId, version, 0, source, [], []⟩

/-- `_json_dumps`. -/
def jsonDumps (lib : Library) : Json → Text
  | .null => "[]".toList
  | v => lib.dumps v

/-- `split_capability_id`: at the last colon, or at the last dot where one stands before it. -/
def splitCapabilityId (value defaultNamespace : Text) : Text × Text :=
  let value := strip value
  if value = [] then (defaultNamespace, [])
  else if value.contains ':' then (beforeLast ':' value, behindLast ':' value)
  else if value.contains '.' && (beforeLast '.' value).contains '.' then
    (beforeLast '.' value, behindLast '.' value)
  else (defaultNamespace, value)

def cardFlags : List (String × String) :=
  [("streaming", "streaming"), ("pushNotifications", "push_notifications"),
    ("stateTransitionHistory", "state_transition_history")]

def isTrue : Json → Bool
  | .bool b => b
  | _ => false

def fieldsOf : Json → Fields
  | .object fields => fields
  | _ => []

def extractAgentCardCapabilities (pub : Fields) (version : Text) : List CapabilityRow :=
  let row (capabilityId : String) :=
    capabilityRow "a2a".toList capabilityId.toList version "agent_card".toList
  let caps := fieldsOf (Json.get "capabilities" pub)
  row "agent_card" :: (cardFlags.filter fun flag => isTrue (Json.get flag.1 caps)).map fun flag =>
    row flag.2

/-- `str(fields.get(key, ""))`. -/
def textColumn (lib : Library) (key : String) (fields : Fields) : Text :=
  match Json.field key fields with
  | none => []
  | some v => lib.strOf v

def skillRow (lib : Library) (skill : Fields) : SkillRow where
  skillId := textColumn lib "id" skill
  name := textColumn lib "name" skill
  description := textColumn lib "description" skill
  tagsJson := jsonDumps lib (Json.get "tags" skill)
  inputModesJson := jsonDumps lib (Json.get "inputModes" skill)
  outputModesJson := jsonDumps lib (Json.get "outputModes" skill)

/-- The objects of an array. -/
def objectsOf (items : List Json) : List Fields :=
  items.filterMap fun
    | .object fields => some fields
    | _ => none

def extractAgentCardSkills (lib : Library) (pub : Fields) : List SkillRow :=
  (objectsOf (itemsOf (Json.get "skills" pub))).map (skillRow lib)

def textsOf (items : List Json) : List Text :=
  items.filterMap fun
    | .text s => some s
    | _ => none

/-- The capabilities that the services of a projection declare. -/
def declaredCapabilities (pub : Fields) : List Text :=
  (objectsOf (itemsOf (Json.get "services" pub))).flatMap fun service =>
    textsOf (itemsOf (Json.get "capabilities" service))

def extractUcpCapabilities (pub : Fields) (defaultNamespace specificationVersion : Text) :
    List CapabilityRow :=
  capabilityRow "ucp".toList "profile".toList specificationVersion "ucp_profile".toList ::
    (declaredCapabilities pub).map fun capability =>
      let (namespace_, capabilityId) := splitCapabilityId capability defaultNamespace
      capabilityRow namespace_ capabilityId [] "ucp_profile".toList

/-- UCP profiles have no skills. -/
def extractUcpSkills (_ : Fields) : List SkillRow := []

end KiwiCatalog.Discovery
