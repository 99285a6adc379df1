import KiwiCatalog.Lib.Base64
import KiwiCatalog.Lib.Checks
import KiwiCatalog.Lib.Keyset
import KiwiCatalog.Publications.Store

/-!
# Agent pages — the catalog lists and searches agents in pages

A cursor is the base64 of the JSON of the last row's sort key.  What a caller sends as a cursor is
decoded, checked for its shape, and bound to the query.
-/

set_option autoImplicit false

namespace KiwiCatalog.Catalog.AgentPages

open Publications (likeContains)
open Url (Text splitOn strip)

/-! ## 1. Rows -/

/-- A row of `catalog_agents` with the columns that the queries read. -/
structure AgentRow where
  catalogAgentId : Text
  merchantId : Option Text
  displayName : Text
  providerName : Text
  canonicalDomain : Text
  verificationStatus : Text
  verificationLevel : Text
  freshnessState : Text
  administrativeState : Text
  handoffDestinationTypes : Text
  hostingMode : Text
  -- not null; an agent that was never verified has the empty text
  lastVerifiedAt : Text

structure AgentCapability where
  catalogAgentId : Text
  nameSpace : Text
  capabilityId : Text

structure AgentSkill where
  catalogAgentId : Text
  skillId : Text
  name : Text

structure AgentEndpoint where
  catalogAgentId : Text
  protocol : Text
  protocolVersion : Text

/-- The tables; the id is the primary key of the agents. -/
structure AgentTables where
  agents : List AgentRow
  -- ids and `tags_json`
  merchants : List (Text × Text)
  capabilities : List AgentCapability
  skills : List AgentSkill
  endpoints : List AgentEndpoint
  ids : (agents.map AgentRow.catalogAgentId).Nodup

/-- `AGENT_STATUS_RANK`. -/
def agentStatusRanks : List (Text × Nat) :=
  [("commerce_verified".toList, 0), ("agent_verified".toList, 1), ("domain_verified".toList, 2),
    ("profile_valid".toList, 3), ("discovered".toList, 4), ("stale".toList, 5),
    ("unreachable".toList, 6), ("suspended".toList, 7), ("rejected".toList, 8)]

def agentStatusRank (status : Text) : Nat := (agentStatusRanks.lookup status).getD 9

/-- `AGENT_STATUS_RANK_CASE`. -/
def agentStatusRankCase (row : AgentRow) : Nat :=
  if row.verificationStatus = "commerce_verified".toList then 0
  else if row.verificationStatus = "agent_verified".toList then 1
  else if row.verificationStatus = "domain_verified".toList then 2
  else if row.verificationStatus = "profile_valid".toList then 3
  else if row.verificationStatus = "discovered".toList then 4
  else if row.verificationStatus = "stale".toList then 5
  else if row.verificationStatus = "unreachable".toList then 6
  else if row.verificationStatus = "suspended".toList then 7
  else if row.verificationStatus = "rejected".toList then 8
  else 9

/-- `AGENT_ORDER_BY`: rank, `last_verified_at desc`, name and id. -/
def agentOrder (a b : AgentRow) : Bool :=
  !(agentStatusRankCase b < agentStatusRankCase a ||
    (agentStatusRankCase b = agentStatusRankCase a && (a.lastVerifiedAt < b.lastVerifiedAt ||
      (b.lastVerifiedAt = a.lastVerifiedAt && (b.displayName < a.displayName ||
        (b.displayName = a.displayName && b.catalogAgentId < a.catalogAgentId))))))

/-! ## 2. Cursors -/

/-- A Python string, as a cursor has it. -/
inductive PyText
  | text (t : Text)
  -- it holds half of a surrogate pair, which no UTF-8 text does
  | surrogate
  deriving DecidableEq

/-- An item of an array that `json.loads` returns. -/
inductive JsonItem
  | null
  | bool (b : Bool)
  | int (i : Int)
  | text (t : PyText)
  -- a number with a point, an array or an object
  | other
  deriving DecidableEq

inductive Loaded
  | array (items : List JsonItem)
  | other
  deriving DecidableEq

inductive LoadsError
  -- with the name of the class
  | valueError (className : String)
  | recursionError

/-- The module `json`. -/
structure CursorJson where
  dumps : List JsonItem → Text
  loads : Text → Except LoadsError Loaded

/-- What a query raises. -/
inductive QueryError
  | validation (message : String)
  | recursionError
  | overflowError
  | unicodeEncodeError
  deriving DecidableEq

/-- The keys of a cursor. -/
structure AgentCursor where
  rank : Option Int
  lastVerifiedAt : Option PyText
  name : PyText
  catalogAgentId : PyText
  deriving DecidableEq

def cursorPrefix : Text := "v2:".toList

/-- `[rank, last_verified_at, display_name, catalog_agent_id]`. -/
def cursorItems (rank : Int) (lastVerifiedAt : Option Text) (displayName catalogAgentId : Text) :
    List JsonItem :=
  [.int rank, (lastVerifiedAt.map fun t => JsonItem.text (.text t)).getD .null,
    .text (.text displayName), .text (.text catalogAgentId)]

def encodeAgentCursor (json : CursorJson) (rank : Int) (lastVerifiedAt : Option Text)
    (displayName catalogAgentId : Text) : Text :=
  let payload := json.dumps (cursorItems rank lastVerifiedAt displayName catalogAgentId)
  cursorPrefix ++ Base64.encode (String.ofList payload).toByteArray.data.toList

/-- The text behind the prefix, or the class of the error. -/
def payloadOf (encoded : Text) : Except String Text :=
  if encoded.all (fun c => c.toNat < 0x80) then
    match Base64.decode encoded with
    | none => .error "Error"
    | some bytes => match (ByteArray.mk bytes.toArray).utf8Decode? with
      | none => .error "UnicodeDecodeError"
      | some payload => .ok payload.toList
  else .error "UnicodeEncodeError"

/-- `rank is None or isinstance(rank, int) and not isinstance(rank, bool)`. -/
def rankOf : JsonItem → Option (Option Int)
  | .null => some none
  | .int i => some (some i)
  | _ => none

def lastVerifiedAtOf : JsonItem → Option (Option PyText)
  | .null => some none
  | .text t => some (some t)
  | _ => none

def textOf : JsonItem → Option PyText
  | .text t => some t
  | _ => none

/-- The shape and the types of the keys. -/
def keysOf : List JsonItem → Option AgentCursor
  | [rank, lastVerifiedAt, name, catalogAgentId] => do
    let rank ← rankOf rank
    let lastVerifiedAt ← lastVerifiedAtOf lastVerifiedAt
    let name ← textOf name
    let catalogAgentId ← textOf catalogAgentId
    pure ⟨rank, lastVerifiedAt, name, catalogAgentId⟩
  | _ => none

def Loaded.keys : Loaded → Option AgentCursor
  | .array items => keysOf items
  | .other => none

/-- `decode_agent_cursor`; `none` is a cursor of the old form. -/
def decodeAgentCursor (json : CursorJson) (cursor : Text) :
    Except QueryError (Option AgentCursor) :=
  if cursorPrefix.isPrefixOf cursor then
    match payloadOf (cursor.drop 3) with
    | .error className => .error (.validation ("malformed v2 agent cursor: " ++ className))
    | .ok payload => match json.loads payload with
      | .error (.valueError className) =>
        .error (.validation ("malformed v2 agent cursor: " ++ className))
      -- not among the exceptions that are caught
      | .error .recursionError => .error .recursionError
      | .ok loaded => match loaded.keys with
        | some keys => .ok (some keys)
        | none => .error (.validation "malformed v2 agent cursor: element shape/types")
  else .ok none

/-- The keys of `agent_cursor_predicate`. -/
def agentCursorKeys (json : CursorJson) (cursor : Text) : Except QueryError AgentCursor := do
  let keys ← decodeAgentCursor json cursor
  Checks.require keys (.validation
    "legacy single-key agent cursor is not supported; use the v2 cursor from next_cursor")

/-! ## 3. Parameters of a query -/

/-- SQLite's integers. -/
def bindInt (i : Int) : Except QueryError Int :=
  if -0x8000000000000000 ≤ i ∧ i < 0x8000000000000000 then .ok i else .error .overflowError

def bindText : PyText → Except QueryError Text
  | .text t => .ok t
  | .surrogate => .error .unicodeEncodeError

/-- `none` is bound as null. -/
def bindOption {α β : Type} (bind : α → Except QueryError β) :
    Option α → Except QueryError (Option β)
  | none => .ok none
  | some a => (bind a).map some

structure BoundCursor where
  rank : Option Int
  lastVerifiedAt : Option Text
  name : Text
  catalogAgentId : Text

def bindCursor (keys : AgentCursor) : Except QueryError BoundCursor := do
  let rank ← bindOption bindInt keys.rank
  let lastVerifiedAt ← bindOption bindText keys.lastVerifiedAt
  let name ← bindText keys.name
  let catalogAgentId ← bindText keys.catalogAgentId
  pure ⟨rank, lastVerifiedAt, name, catalogAgentId⟩

/-- The clauses of `agent_cursor_predicate` of a row.  A comparison with null is not true, and the
column is never null. -/
def cursorAdmits (cursor : BoundCursor) (row : AgentRow) : Bool :=
  let sameRank := cursor.rank = some (agentStatusRankCase row : Int)
  let sameTime := cursor.lastVerifiedAt = some row.lastVerifiedAt
  cursor.rank.any (fun rank => rank < (agentStatusRankCase row : Int)) ||
    (sameRank && cursor.lastVerifiedAt.any fun t => row.lastVerifiedAt < t) ||
    (sameRank && sameTime && cursor.name < row.displayName) ||
    (sameRank && sameTime && cursor.name = row.displayName &&
      cursor.catalogAgentId < row.catalogAgentId)

/-! ## 4. Queries -/

abbrev AgentCondition := AgentRow → Bool

/-- The last row of a full page, as a cursor. -/
def nextAgentCursor (json : CursorJson) (last : AgentRow) : Text :=
  encodeAgentCursor json (agentStatusRank last.verificationStatus) (some last.lastVerifiedAt)
    last.displayName last.catalogAgentId

/-- `paginate_agent_rows` of the rows that were fetched, one more than the limit. -/
def paginateAgentRows (json : CursorJson) (rows : List AgentRow) (limit : Nat) :
    List AgentRow × Option Text :=
  let page := rows.take limit
  (page, if limit < rows.length then page.getLast?.map (nextAgentCursor json) else none)

/-- The clause of a cursor; the empty cursor has none. -/
def cursorCondition (json : CursorJson) (cursor : Text) : Except QueryError AgentCondition :=
  if cursor.isEmpty then .ok fun _ => true
  else do
    let keys ← agentCursorKeys json cursor
    let bound ← bindCursor keys
    pure (cursorAdmits bound)

/-- `agent_page_query`, run and paginated. -/
def agentPage (json : CursorJson) (agents : List AgentRow) (conditions : List AgentCondition)
    (limit : Nat) (cursor : Text) : Except QueryError (List AgentRow × Option Text) := do
  let admits ← cursorCondition json cursor
  let fetched ← bindInt (limit + 1)
  pure (paginateAgentRows json
    (((agents.filter fun row => (conditions.all fun condition => condition row) && admits row)
      |>.mergeSort agentOrder).take fetched.toNat) limit)

def listCatalogAgents (json : CursorJson) (tables : AgentTables) (limit : Nat) (cursor : Text) :
    Except QueryError (List AgentRow × Option Text) :=
  agentPage json tables.agents [] limit cursor

def listCatalogAgentsByMerchant (json : CursorJson) (tables : AgentTables) (merchantId : Text)
    (limit : Nat) (cursor : Text) : Except QueryError (List AgentRow × Option Text) :=
  agentPage json tables.agents [fun row => row.merchantId = some merchantId] limit cursor

/-- The filters of a search; an empty text filters nothing. -/
structure AgentFilters where
  q : Text
  category : Text
  skill : Text
  capability : Text
  protocol : Text
  hostingMode : Text
  verificationStatus : Text
  verifiedAfter : Text
  verificationLevel : Text
  freshnessState : Text
  administrativeState : Text
  handoffDestinationTypes : Text

def whenSet (text : Text) (condition : AgentCondition) : List AgentCondition :=
  if text.isEmpty then [] else [condition]

/-- Its `json_each` is a parameter: whether a JSON column holds a text among its values. -/
def agentConditions (jsonEach : Text → Text → Bool) (tables : AgentTables)
    (filters : AgentFilters) : List AgentCondition :=
  let destinations := ((splitOn ',' filters.handoffDestinationTypes).map strip).filter
    fun destination => !destination.isEmpty
  whenSet filters.hostingMode (fun row => row.hostingMode = filters.hostingMode) ++
    whenSet filters.verificationStatus
      (fun row => row.verificationStatus = filters.verificationStatus) ++
    whenSet filters.verificationLevel
      (fun row => row.verificationLevel = filters.verificationLevel) ++
    whenSet filters.freshnessState (fun row => row.freshnessState = filters.freshnessState) ++
    whenSet filters.administrativeState
      (fun row => row.administrativeState = filters.administrativeState) ++
    (destinations.map fun destination row => jsonEach row.handoffDestinationTypes destination) ++
    whenSet filters.verifiedAfter (fun row => !decide (row.lastVerifiedAt < filters.verifiedAfter)) ++
    whenSet filters.q (fun row => likeContains filters.q row.displayName ||
      likeContains filters.q row.providerName || likeContains filters.q row.canonicalDomain) ++
    whenSet filters.category (fun row => tables.merchants.any fun merchant =>
      row.merchantId = some merchant.1 && likeContains filters.category merchant.2) ++
    whenSet filters.capability (fun row => tables.capabilities.any fun capability =>
      capability.catalogAgentId = row.catalogAgentId &&
        (capability.capabilityId = filters.capability ||
          capability.nameSpace ++ ':' :: capability.capabilityId = filters.capability)) ++
    whenSet filters.skill (fun row => tables.skills.any fun skill =>
      skill.catalogAgentId = row.catalogAgentId &&
        (skill.skillId = filters.skill || likeContains filters.skill skill.name)) ++
    whenSet filters.protocol (fun row => tables.endpoints.any fun endpoint =>
      endpoint.catalogAgentId = row.catalogAgentId &&
        (endpoint.protocol = filters.protocol || endpoint.protocolVersion = filters.protocol))

def searchCatalogAgents (json : CursorJson) (jsonEach : Text → Text → Bool) (tables : AgentTables)
    (filters : AgentFilters) (limit : Nat) (cursor : Text) :
    Except QueryError (List AgentRow × Option Text) :=
  agentPage json tables.agents (agentConditions jsonEach tables filters) limit cursor

end KiwiCatalog.Catalog.AgentPages
