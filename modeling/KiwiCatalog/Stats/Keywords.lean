import KiwiCatalog.Lib.JsonText
import KiwiCatalog.Lib.Keyset
import KiwiCatalog.Lib.Tally
import KiwiCatalog.Lib.Url
import Mathlib.Algebra.Order.Ring.Int
import Mathlib.Data.List.Dedup
import Mathlib.Data.List.Lex
import Mathlib.Data.Prod.Lex
import Mathlib.Data.String.Basic

/-!
# Stats.Keywords — the two rankings of what buyers search for

A search adds to a table of daily counters from inside its handler, and the transport writes a line
of the access log when the response is sent.  One ranking reads the counters, the other the lines.
Times are seconds of the UTC clock, whose texts order as they do.
-/

set_option autoImplicit false

namespace KiwiCatalog.Stats

open Url (Text isSpace)

/-! ## 1. Keywords -/

/-- Python's tables of Unicode. -/
structure Unicode where
  nfkc : Text → Text
  lower : Text → Text

inductive SearchType
  | agent
  | listing
  deriving DecidableEq, Repr

/-- The paths of a search. -/
inductive SearchPath
  | agents
  | legacyAgents
  | listings
  deriving DecidableEq, Repr

/-- `_search_type_from_path`, and the type that the handler of the path counts under. -/
def SearchPath.searchType : SearchPath → SearchType
  | .agents => .agent
  | .legacyAgents => .agent
  | .listings => .listing

def KEYWORD_CAP : Nat := 80
def KEYWORD_RETENTION_DAYS : Nat := 7
def KEYWORD_DAILY_MAX : Nat := 1000

def zeroWidth (c : Char) : Bool :=
  c.toNat = 0x200b || c.toNat = 0x200c || c.toNat = 0x200d || c.toNat = 0xfeff

/-- `text.split()`. -/
def words (text : Text) : List Text := (text.splitOnP isSpace).filter fun word => !word.isEmpty

def normalizeKeyword (u : Unicode) (query : Text) : Text :=
  (u.lower (List.intercalate [' '] (words ((u.nfkc query).filter fun c => !zeroWidth c)))).take
    KEYWORD_CAP

def dayOf (seconds : Nat) : Nat := seconds / 86400

/-! ## 2. The daily counters -/

structure KeywordKey where
  day : Nat
  searchType : SearchType
  keyword : Text
  deriving DecidableEq

/-- `searches` and `zero_results`. -/
structure Counts where
  searches : Nat
  zeroResults : Nat
  deriving DecidableEq, Repr

instance : Add Counts where
  add a b := ⟨a.searches + b.searches, a.zeroResults + b.zeroResults⟩

/-- The row of one search. -/
def oneSearch (resultCount : Nat) : Counts := ⟨1, if resultCount = 0 then 1 else 0⟩

abbrev KeywordRows := List (KeywordKey × Counts)

/-- The conditional upsert: a keyword that is there, or room for a new one. -/
def admitKeyword (key : KeywordKey) (counts : Counts) (rows : KeywordRows) : KeywordRows :=
  if rows.any (fun row => row.1 = key) ||
      (rows.filter fun row => row.1.day = key.day && row.1.searchType = key.searchType).length <
        KEYWORD_DAILY_MAX then
    Tally.bump key counts rows
  else rows

def recordBuyerKeyword (u : Unicode) (searchType : SearchType) (query : Text)
    (resultCount now : Nat) (rows : KeywordRows) : KeywordRows :=
  let keyword := normalizeKeyword u query
  if keyword.isEmpty then rows
  else
    -- `delete ... where day < cutoff`
    admitKeyword ⟨dayOf now, searchType, keyword⟩ (oneSearch resultCount)
      (rows.filter fun row => dayOf now < row.1.day + KEYWORD_RETENTION_DAYS)

/-! ## 3. The access log -/

def QUERY_SUMMARY_CAP : Nat := 500

def CREDENTIAL_PARAM_SUBSTRINGS : List Text :=
  ["token", "password", "passwd", "secret", "key", "code", "auth"].map String.toList

/-- `part in text`. -/
def hasPart (part text : Text) : Bool := text.tails.any fun rest => part.isPrefixOf rest

def isCredentialParam (u : Unicode) (name : Text) : Bool :=
  CREDENTIAL_PARAM_SUBSTRINGS.any fun token => hasPart token (u.lower name)

/-- What a line keeps of a query; no filters are no field. -/
structure Summary where
  q : Text
  filters : List (Text × Text)
  deriving DecidableEq

def fieldText (key value : Text) : Text := Json.quote key ++ [':', ' '] ++ Json.quote value

/-- `json.dumps(summary, ensure_ascii=False)`. -/
def Summary.dumps (s : Summary) : Text :=
  let filters := List.intercalate [',', ' '] (s.filters.map fun pair => fieldText pair.1 pair.2)
  ['\x7b'] ++ fieldText ['q'] s.q ++
    (if s.filters.isEmpty then []
      else [',', ' '] ++ Json.quote "filters".toList ++ [':', ' ', '\x7b'] ++ filters ++
        ['\x7d']) ++
    ['\x7d']

/-- `kept[key] = value`. -/
def setPair (key value : Text) (kept : List (Text × Text)) : List (Text × Text) :=
  if kept.any fun pair => pair.1 = key then
    kept.map fun pair => if pair.1 = key then (key, value) else pair
  else kept ++ [(key, value)]

def shrinkQuerySummary (s : Summary) (budget : Nat) : Summary where
  q := s.q.take (budget - 8)
  filters := (s.filters.take (max 1 (budget / 16))).foldl
    (fun kept pair => setPair (pair.1.take (budget / 4)) (pair.2.take (budget / 4)) kept) []

/-- The budgets above 32, each half of the one before. -/
def budgets : List Nat := [500, 250, 125, 62]

/-- What the text of the summary is read back as; `none` is the empty object. -/
def boundedQuerySummary (s : Summary) : Option Summary :=
  (s :: budgets.map (shrinkQuerySummary s)).find? fun shrunken =>
    shrunken.dumps.length ≤ QUERY_SUMMARY_CAP

/-- The parameters of a request, each with its last value. -/
abbrev Query := List (Text × Text)

/-- `query.get("q") or ""`. -/
def Query.q (query : Query) : Text :=
  ((query.find? fun pair => pair.1 = ['q']).map Prod.snd).getD []

def buildQuerySummary (u : Unicode) (query : Query) : Option Summary :=
  boundedQuerySummary ⟨query.q, query.filter fun pair =>
    pair.1 ≠ ['q'] && !isCredentialParam u pair.1⟩

structure AccessRow where
  occurredAt : Nat
  path : SearchPath
  querySummary : Option Summary
  resultCount : Option Nat
  deriving DecidableEq

/-! ## 4. Requests -/

/-- How a search ends: its results are sent, or its handler has counted them and they are not sent,
as where the client has them already, or there are none. -/
inductive Outcome
  | served (resultCount : Nat)
  | notSent (resultCount : Nat)
  | failed
  deriving DecidableEq, Repr

/-- What the handler has counted. -/
def Outcome.found : Outcome → Option Nat
  | .served n => some n
  | .notSent n => some n
  | .failed => none

/-- `result_count_from_body` of what is sent. -/
def Outcome.sent : Outcome → Option Nat
  | .served n => some n
  | .notSent _ => none
  | .failed => none

structure Request where
  path : SearchPath
  query : Query
  outcome : Outcome
  servedAt : Nat
  loggedAt : Nat
  -- behind the path, where the routes still match and the log sees a detail page
  trailingNewline : Bool
  -- whether the number of the line is a multiple of 50
  prunes : Bool

/-- The counters, and the lines of searches in the access log. -/
structure Tables where
  keywords : KeywordRows
  accessLog : List AccessRow

def pruneAccessLog (retentionDays now : Nat) (rows : List AccessRow) : List AccessRow :=
  rows.filter fun row => now ≤ row.occurredAt + retentionDays * 86400

/-- The line of a request, where it is one of a search. -/
def lineOf (u : Unicode) (r : Request) : Option AccessRow :=
  if r.trailingNewline then none
  else some ⟨r.loggedAt, r.path, buildQuerySummary u r.query, r.outcome.sent⟩

def recordAccess (u : Unicode) (retentionDays : Nat) (r : Request) (rows : List AccessRow) :
    List AccessRow :=
  let written := rows ++ (lineOf u r).toList
  if r.prunes then pruneAccessLog retentionDays r.loggedAt written else written

def serve (u : Unicode) (retentionDays : Nat) (t : Tables) (r : Request) : Tables where
  keywords := r.outcome.found.elim t.keywords fun n =>
    recordBuyerKeyword u r.path.searchType r.query.q n r.servedAt t.keywords
  accessLog := recordAccess u retentionDays r t.accessLog

/-- The tables after the requests, which start empty. -/
def run (u : Unicode) (retentionDays : Nat) (requests : List Request) : Tables :=
  requests.foldl (serve u retentionDays) ⟨[], []⟩

/-! ## 5. The rankings -/

structure Item where
  keyword : Text
  searches : Nat
  zeroResults : Nat
  agentSearches : Nat
  listingSearches : Nat
  deriving DecidableEq

inductive SortBy
  | searches
  | zeroResults
  deriving DecidableEq, Repr

/-- Every other text sorts by searches. -/
def SortBy.of (sort : String) : SortBy := if sort = "zero_results" then .zeroResults else .searches

def SortBy.primary (sort : SortBy) (item : Item) : Nat :=
  match sort with
  | .searches => item.searches
  | .zeroResults => item.zeroResults

/-- `order by {sort} desc, searches desc, keyword asc`. -/
def rankOrder (sort : SortBy) : Keyset Item (Int ×ₗ Int ×ₗ Text) :=
  Keyset.ofLinear fun item =>
    toLex (-(sort.primary item : Int), toLex (-(item.searches : Int), item.keyword))

def clampDays (days : Int) : Nat := (max 1 (min (if days = 0 then 14 else days) 90)).toNat

def clampLimit (limit : Int) : Nat := (max 1 (min (if limit = 0 then 20 else limit) 100)).toNat

/-- Whether a day is one of the last `days`. -/
def recent (today days day : Nat) : Bool := today < day + days

/-- The row of a group of `group by keyword`. -/
def groupItem (rows : KeywordRows) (keyword : Text) : Item where
  keyword := keyword
  searches := Tally.total Counts.searches (fun key => key.keyword = keyword) rows
  zeroResults := Tally.total Counts.zeroResults (fun key => key.keyword = keyword) rows
  agentSearches := Tally.total Counts.searches
    (fun key => key.keyword = keyword && key.searchType = .agent) rows
  listingSearches := Tally.total Counts.searches
    (fun key => key.keyword = keyword && key.searchType = .listing) rows

def keptRows (today : Nat) (days : Int) (rows : KeywordRows) : KeywordRows :=
  rows.filter fun row => recent today (clampDays days) row.1.day

def rank (sort : String) (limit : Int) (items : List Item) : List Item :=
  (items.mergeSort (rankOrder (SortBy.of sort)).inOrder).take (clampLimit limit)

/-- `top_keywords`. -/
def topKeywords (rows : KeywordRows) (today : Nat) (days limit : Int) (sort : String) :
    List Item :=
  rank sort limit (((keptRows today days rows).map fun row => row.1.keyword).dedup.map
    (groupItem (keptRows today days rows)))

/-- The fields of an entry of the merged dictionary. -/
structure Merged where
  searches : Nat
  zeroResults : Nat
  agentSearches : Nat
  listingSearches : Nat
  deriving DecidableEq, Repr

instance : Add Merged where
  add a b := ⟨a.searches + b.searches, a.zeroResults + b.zeroResults,
    a.agentSearches + b.agentSearches, a.listingSearches + b.listingSearches⟩

/-- What a bucket adds to the entry of its keyword. -/
def mergedOf (bucket : (Text × SearchType) × Counts) : Text × Merged :=
  (bucket.1.1, ⟨bucket.2.searches, bucket.2.zeroResults,
    if bucket.1.2 = .agent then bucket.2.searches else 0,
    if bucket.1.2 = .listing then bucket.2.searches else 0⟩)

/-- What a line adds to the buckets, which is nothing where its keyword is empty. -/
def bucketOf (u : Unicode) (row : AccessRow) : Option ((Text × SearchType) × Counts) :=
  let keyword := normalizeKeyword u ((row.querySummary.map Summary.q).getD [])
  if keyword.isEmpty then none
  else some ((keyword, row.path.searchType), oneSearch (row.resultCount.getD 0))

def itemOf (entry : Text × Merged) : Item :=
  ⟨entry.1, entry.2.searches, entry.2.zeroResults, entry.2.agentSearches, entry.2.listingSearches⟩

/-- `top_keywords_from_access_log`. -/
def topKeywordsFromAccessLog (u : Unicode) (rows : List AccessRow) (today : Nat)
    (days limit : Int) (sort : String) : List Item :=
  let kept := rows.filter fun row => recent today (clampDays days) (dayOf row.occurredAt)
  let agg := Tally.tally (kept.filterMap (bucketOf u))
  let merged := Tally.tally (agg.map mergedOf)
  rank sort limit (merged.map itemOf)

end KiwiCatalog.Stats
