import KiwiCatalog.Feed.Follows
import KiwiCatalog.Lib.Keyset
import KiwiCatalog.Lib.Quote
import KiwiCatalog.Listings.Rows
import KiwiCatalog.Listings.ShareCodeAgreement

/-!
# Listing search — pages of a search over rows of which some are hidden

`search_listings` with its cursors.  A page scans matching rows in batches, hides the ones with a
share code, and ends when it has enough rows, when there are no more, or when its budget is spent.
-/

set_option autoImplicit false

namespace KiwiCatalog.Listings.Search

open Checks (check)
open Feed (nowIsoText)
open IsoText (UtcClock)
open Publications (TextEnv likeContains)
open Trust (AdministrativeState)
open Url (Text quote splitOn unquote)

/-! ## 1. Rows -/

/-- A row of `commerce_listings` with the columns that a search reads. -/
structure ListingRow where
  id : Nat
  listingId : Text
  listingType : ListingType
  ownerAgentId : String
  content : ContentColumns
  handoffDestinationTypesJson : Text
  publicationState : PublicationState
  governanceHold : Nat
  freshness : ListingFreshness
  updatedAt : Text
  freshUntil : Text
  -- ids are `lst_` and hexadecimal digits, times are ISO texts
  listingId_plain : '|' ∉ listingId
  updatedAt_plain : '|' ∉ updatedAt

/-- A table with its primary key and the unique index of listing ids. -/
structure ListingTable where
  rows : List ListingRow
  ids : (rows.map ListingRow.id).Nodup
  listingIds : (rows.map ListingRow.listingId).Nodup

theorem bar_not_mem_nowIsoText (now : UtcClock) : '|' ∉ nowIsoText now :=
  IsoText.DateTime.not_mem_isoformat _ (by decide) (by decide)

/-- `expire_stale_listings`, of one row. -/
def expiredRow (now : UtcClock) (row : ListingRow) : ListingRow :=
  if row.freshness = .fresh ∧ row.freshUntil < nowIsoText now then
    { row with
      freshness := .stale
      updatedAt := nowIsoText now
      updatedAt_plain := bar_not_mem_nowIsoText now }
  else row

theorem expiredRow_ids (now : UtcClock) (row : ListingRow) :
    (expiredRow now row).id = row.id ∧ (expiredRow now row).listingId = row.listingId := by
  unfold expiredRow
  split <;> exact ⟨rfl, rfl⟩

def expireStaleListings (now : UtcClock) (table : ListingTable) : ListingTable where
  rows := table.rows.map (expiredRow now)
  ids := by
    rw [List.map_map]
    exact (List.map_congr_left fun row _ => (expiredRow_ids now row).1) ▸ table.ids
  listingIds := by
    rw [List.map_map]
    exact (List.map_congr_left fun row _ => (expiredRow_ids now row).2) ▸ table.listingIds

/-- `FRESH` comes first. -/
def freshnessRank : ListingFreshness → Nat
  | .fresh => 0
  | .stale => 1

/-- `order by rank asc, updated_at desc, id desc`. -/
def searchOrder (a b : ListingRow) : Bool :=
  !(freshnessRank b.freshness < freshnessRank a.freshness ||
    (freshnessRank b.freshness = freshnessRank a.freshness &&
      (a.updatedAt < b.updatedAt || (b.updatedAt = a.updatedAt && a.id < b.id))))

/-! ## 2. Cursors -/

def rankText (freshness : ListingFreshness) : Text :=
  match freshness with
  | .fresh => ['0']
  | .stale => ['1']

/-- `_encode_search_cursor` of a row. -/
def encodeSearchCursor (row : ListingRow) : Text :=
  quote (rankText row.freshness ++ '|' :: (row.updatedAt ++ '|' :: row.listingId))

/-- A decoded cursor; the old form has no rank. -/
structure SearchCursor where
  rank : Option Nat
  updatedAt : Text
  listingId : Text
  deriving DecidableEq

def decodeSearchCursor (cursor : Text) : Except String SearchCursor :=
  match splitOn '|' (unquote cursor) with
  | [rank, updatedAt, listingId] =>
    if rank = ['0'] then .ok ⟨some 0, updatedAt, listingId⟩
    else if rank = ['1'] then .ok ⟨some 1, updatedAt, listingId⟩
    else .error "unknown freshness rank in cursor"
  | [updatedAt, listingId] => .ok ⟨none, updatedAt, listingId⟩
  | _ => .error "malformed cursor"

/-- `(select id from commerce_listings where listing_id = ?)`. -/
def idOf (rows : List ListingRow) (listingId : Text) : Option Nat :=
  (Table.lookup ListingRow.listingId listingId rows).map ListingRow.id

/-- `id < (select id …)`; nothing is less than a missing id. -/
def idBefore (rows : List ListingRow) (row : ListingRow) (listingId : Text) : Bool :=
  (idOf rows listingId).any fun id => row.id < id

/-- `_search_cursor_predicate` of a row. -/
def cursorAdmits (rows : List ListingRow) (cursor : SearchCursor) (row : ListingRow) : Bool :=
  match cursor.rank with
  | none =>
    -- a comparison of row values, which a missing id leaves undecided for equal times
    row.updatedAt < cursor.updatedAt ||
      (row.updatedAt = cursor.updatedAt && idBefore rows row cursor.listingId)
  | some rank =>
    rank < freshnessRank row.freshness ||
      (freshnessRank row.freshness = rank &&
        (row.updatedAt < cursor.updatedAt ||
          (row.updatedAt = cursor.updatedAt && idBefore rows row cursor.listingId)))

/-! ## 3. Filters -/

/-- A value that a query binds. -/
inductive SqlValue
  | int (i : Int)
  | text (t : Text)

/-- What a query asks of a JSON column. -/
inductive JsonCondition
  -- `exists (select 1 from json_each(column) where value = ?)`
  | someValue (value : Text)
  -- `json_extract(column, '$.path') = ?`, `>= ?` and `<= ?`
  | equals (path : String) (value : SqlValue)
  | atLeast (path : String) (n : Int)
  | atMost (path : String) (n : Int)

structure SearchEnv where
  text : TextEnv
  codec : Json.Codec
  -- SQLite's JSON functions on the text of a column
  json : Text → JsonCondition → Bool

/-- A query with its texts stripped and its numbers and flags read; an empty text filters nothing. -/
structure ListingQuery where
  -- the paths and values of `attribute.<path>` keys
  attributes : List (String × Text)
  ownerAgentId : String
  q : Text
  listingType : Text
  category : Text
  brand : Text
  region : Text
  tag : Text
  minMoq : Option Int
  maxMoq : Option Int
  supportsBulkQuote : Option Bool
  supportsCustomization : Option Bool
  freshnessState : Text
  handoffDestinationType : Text
  limit : Option Int

def listingTypeOf (name : Text) : Except String ListingType :=
  if name = "product".toList then .ok .product
  else if name = "capability".toList then .ok .capability
  else .error "listing_type must be one of ('product', 'capability')"

def freshnessOf (name : Text) : Except String ListingFreshness :=
  if name = "FRESH".toList then .ok .fresh
  else if name = "STALE".toList then .ok .stale
  else .error "freshness_state must be one of ('FRESH', 'STALE')"

def searchLimit : Option Int → Except String Nat
  | none => .ok 20
  | some limit =>
    if 1 ≤ limit ∧ limit ≤ 100 then .ok limit.toNat
    else .error "limit must be between 1 and 100"

abbrev Condition := ListingRow → Bool

/-- No condition of an empty text. -/
def whenSet (text : Text) (condition : Condition) : List Condition :=
  if text.isEmpty then [] else [condition]

/-- The same for a text that may be refused. -/
def whenKnown {α : Type} (text : Text) (read : Text → Except String α) (condition : α → Condition) :
    Except String (List Condition) :=
  if text.isEmpty then .ok [] else (read text).map fun a => [condition a]

def whenMoq (env : SearchEnv) (key : String) (value : Option Int)
    (condition : Int → JsonCondition) : Except String (List Condition) :=
  match value with
  | none => .ok []
  | some n => do
    check (1 ≤ n) (key ++ " must be a positive integer")
    pure [fun row => env.json row.content.commercialHintsJson (condition n)]

def whenFlag (env : SearchEnv) (key : String) (value : Option Bool) : List Condition :=
  value.toList.map fun flag row =>
    env.json row.content.commercialHintsJson (.equals key (.int (if flag then 1 else 0)))

/-- Text values but `true` and `false`, which JSON reads as numbers. -/
def attributeCondition (env : SearchEnv) (path : String) (value : Text) : Condition := fun row =>
  env.json row.content.attributesJson (.equals path
    (if value = "true".toList then .int 1
      else if value = "false".toList then .int 0 else .text value))

def matchesText (q : Text) (row : ListingRow) : Bool :=
  likeContains q row.content.title || likeContains q row.content.category ||
    likeContains q row.content.brand || likeContains q row.content.summary ||
    row.content.sourceProductRef.any (likeContains q)

/-- The owner is neither suspended nor rejected. -/
def ownerAllowed (agents : List Agent) (row : ListingRow) : Bool :=
  !agents.any fun a => a.catalogAgentId = row.ownerAgentId &&
    (a.administrativeState = .suspended || a.administrativeState = .rejected)

def searchConditions (env : SearchEnv) (agents : List Agent) (query : ListingQuery) :
    Except String (List Condition) := do
  let listingType ← whenKnown query.listingType listingTypeOf fun t row => row.listingType = t
  let minMoq ← whenMoq env "min_moq" query.minMoq (.atLeast "moq")
  let maxMoq ← whenMoq env "max_moq" query.maxMoq (.atMost "moq")
  let freshness ← whenKnown query.freshnessState freshnessOf fun f row => row.freshness = f
  let active : List Condition :=
    [fun row => row.publicationState = .active, fun row => row.governanceHold = 0]
  let attributes := query.attributes.map fun kv => attributeCondition env kv.1 kv.2
  pure <| active ++
    whenSet query.ownerAgentId.toList (fun row => row.ownerAgentId = query.ownerAgentId) ++
    whenSet query.q (matchesText query.q) ++ listingType ++
    whenSet query.category (fun row => row.content.category = query.category) ++
    whenSet query.brand (fun row => row.content.brand = query.brand) ++
    whenSet query.region (fun row => env.json row.content.regionsJson (.someValue query.region)) ++
    whenSet query.tag (fun row => env.json row.content.tagsJson (.someValue query.tag)) ++
    minMoq ++ maxMoq ++ whenFlag env "supports_bulk_quote" query.supportsBulkQuote ++
    whenFlag env "supports_customization" query.supportsCustomization ++ freshness ++
    whenSet query.handoffDestinationType (fun row =>
      env.json row.handoffDestinationTypesJson (.someValue query.handoffDestinationType)) ++
    attributes ++ [ownerAllowed agents]

def satisfies (conditions : List Condition) (row : ListingRow) : Bool :=
  conditions.all fun condition => condition row

/-! ## 4. Pages -/

/-- `is_hidden_from_public` of a decoded row. -/
def isHiddenFromPublic (env : SearchEnv) (row : ListingRow) : Bool :=
  row.governanceHold = quarantineHold || listingHasShareCode env.text env.codec row.content

def isShown (env : SearchEnv) (row : ListingRow) : Bool := !isHiddenFromPublic env row

/-- `max_listing_scan_rows`. -/
def maxListingScanRows : Nat := 500

/-- The empty cursor adds no predicate. -/
def readCursor (rows : List ListingRow) (cursor : Text) : Except String Condition :=
  if cursor.isEmpty then .ok fun _ => true
  else match decodeSearchCursor cursor with
    | .ok decoded => .ok (cursorAdmits rows decoded)
    | .error e => .error ("malformed cursor: " ++ e)

/-- One query. -/
def fetchRows (rows : List ListingRow) (conditions : List Condition) (cursor : Text) (count : Nat) :
    Except String (List ListingRow) :=
  (readCursor rows cursor).map fun admits =>
    ((rows.filter fun row => satisfies conditions row && admits row).mergeSort searchOrder).take
      count

structure Scan where
  visible : List ListingRow
  lastScanned : Option ListingRow
  exhausted : Bool

/-- The loop over batches, with the visible rows so far, the last row scanned and the budget that is
left. -/
def scanRows (env : SearchEnv) (rows : List ListingRow) (conditions : List Condition)
    (limit batchSize : Nat) (cursor : Text) (visible : List ListingRow)
    (lastScanned : Option ListingRow) (budget : Nat) : Except String Scan :=
  let count := min batchSize budget
  if _hcount : count = 0 then
    -- a malformed cursor is refused before the budget is looked at
    (fetchRows rows conditions cursor 0).map fun _ => ⟨visible, lastScanned, true⟩
  else match fetchRows rows conditions cursor count with
    | .error e => .error e
    | .ok batch =>
      match batch.getLast? with
      | none => .ok ⟨visible, lastScanned, false⟩
      | some last =>
        let visible := visible ++ batch.filter (isShown env)
        if limit < visible.length then .ok ⟨visible, some last, false⟩
        else if batch.length < count then .ok ⟨visible, some last, false⟩
        else if budget ≤ count then .ok ⟨visible, some last, true⟩
        else scanRows env rows conditions limit batchSize (encodeSearchCursor last) visible
          (some last) (budget - count)
termination_by budget

/-- The rows of the page and the next cursor, which is empty at the end. -/
def pageOfScan (limit : Nat) (scan : Scan) : List ListingRow × Text :=
  let results := scan.visible.take limit
  if limit < scan.visible.length then
    (results, (results.getLast?.map encodeSearchCursor).getD [])
  else if scan.exhausted then (results, (scan.lastScanned.map encodeSearchCursor).getD [])
  else (results, [])

/-- The table afterwards, the page and the next cursor. -/
def searchListings (env : SearchEnv) (agents : List Agent) (table : ListingTable)
    (query : ListingQuery) (cursor : Text) (now : UtcClock) :
    Except String (ListingTable × List ListingRow × Text) := do
  let limit ← searchLimit query.limit
  let table := expireStaleListings now table
  let conditions ← searchConditions env agents query
  let scan ← scanRows env table.rows conditions limit (min (max (limit + 1) 20) 200) cursor [] none
    maxListingScanRows
  pure (table, pageOfScan limit scan)

end KiwiCatalog.Listings.Search
