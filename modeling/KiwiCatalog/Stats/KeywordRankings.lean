import KiwiCatalog.Stats.Keywords
import Mathlib.Data.List.Perm.Subperm

/-!
# Stats.KeywordRankings — when the two rankings agree

Both rankings are the ranking of searches: the counters are the searches tallied, and so are the
lines of the log, merged once more.  What is left is whether a request is the same search for both.
-/

set_option autoImplicit false

namespace KiwiCatalog.Stats

open Tally (bump tally total)
open Url (Text)

/-! ## 1. Ranking -/

theorem rankOrder_keyword {sort : SortBy} {a b : Item}
    (h : (rankOrder sort).key a = (rankOrder sort).key b) : a.keyword = b.keyword :=
  congrArg (fun key : Int ×ₗ Int ×ₗ Text => (ofLex (ofLex key).2).2) h

/-- Items of distinct keywords rank alike in every order. -/
theorem rank_of_perm (sort : String) (limit : Int) {items others : List Item}
    (hperm : items.Perm others) (hdistinct : (items.map Item.keyword).Nodup) :
    rank sort limit items = rank sort limit others := by
  have hsorted : ∀ list : List Item, (list.map Item.keyword).Nodup →
      (rankOrder (SortBy.of sort)).Sorted
        (list.mergeSort (rankOrder (SortBy.of sort)).inOrder) := by
    intro list hlist
    apply Keyset.sorted_mergeSort (Keyset.ofLinear_total _)
    apply List.pairwise_map.mpr
    apply (List.pairwise_map.mp hlist).imp
    intro a b hne heq
    exact hne (rankOrder_keyword heq)
  have hothers : (others.map Item.keyword).Nodup :=
    ((hperm.map Item.keyword).nodup_iff).mp hdistinct
  unfold rank
  rw [(hsorted items hdistinct).eq_of_perm (hsorted others hothers)]
  exact ((List.mergeSort_perm _ _).trans hperm).trans (List.mergeSort_perm _ _).symm

/-- Lists of distinct keywords with the same members. -/
theorem rank_groups (sort : String) (limit : Int) (item : Text → Item)
    (hitem : ∀ keyword, (item keyword).keyword = keyword) {keywords others : List Text}
    (hnodup : keywords.Nodup) (hothers : others.Nodup)
    (hsame : ∀ keyword, keyword ∈ keywords ↔ keyword ∈ others) :
    rank sort limit (keywords.map item) = rank sort limit (others.map item) := by
  apply rank_of_perm
  · exact ((List.perm_ext_iff_of_nodup hnodup hothers).mpr hsame).map item
  · rw [List.map_map]
    have hid : Item.keyword ∘ item = id := funext hitem
    rw [hid, List.map_id]
    exact hnodup

/-! ## 2. The ranking of searches -/

/-- A search, as a row of its own. -/
abbrev SearchEvent := KeywordKey × Counts

theorem add_searches (a b : Counts) : (a + b).searches = a.searches + b.searches := rfl

theorem add_zeroResults (a b : Counts) : (a + b).zeroResults = a.zeroResults + b.zeroResults := rfl

theorem mem_keywords_keptRows {today : Nat} {days : Int} {rows : KeywordRows} {keyword : Text} :
    (keyword ∈ (keptRows today days rows).map fun row => row.1.keyword) ↔
      ∃ key ∈ rows.map Prod.fst, recent today (clampDays days) key.day = true ∧
        key.keyword = keyword := by
  unfold keptRows
  constructor
  · intro h
    rcases List.mem_map.mp h with ⟨row, hrow, rfl⟩
    rcases List.mem_filter.mp hrow with ⟨hmem, hrecent⟩
    exact ⟨row.1, List.mem_map_of_mem hmem, hrecent, rfl⟩
  · rintro ⟨key, hkey, hrecent, rfl⟩
    rcases List.mem_map.mp hkey with ⟨row, hrow, rfl⟩
    exact List.mem_map.mpr ⟨row, List.mem_filter.mpr ⟨hrow, hrecent⟩, rfl⟩

/-- A group of the tallied searches is that of the searches. -/
theorem groupItem_tally (today : Nat) (days : Int) (events : List SearchEvent) (keyword : Text) :
    groupItem (keptRows today days (tally events)) keyword =
      groupItem (keptRows today days events) keyword := by
  have hsearches : ∀ p : KeywordKey → Bool, total Counts.searches p (keptRows today days
      (tally events)) = total Counts.searches p (keptRows today days events) := by
    intro p
    unfold keptRows
    rw [Tally.total_filter Counts.searches p (fun key => recent today (clampDays days) key.day),
      Tally.total_filter Counts.searches p (fun key => recent today (clampDays days) key.day),
      Tally.total_tally add_searches]
  have hzero : ∀ p : KeywordKey → Bool, total Counts.zeroResults p (keptRows today days
      (tally events)) = total Counts.zeroResults p (keptRows today days events) := by
    intro p
    unfold keptRows
    rw [Tally.total_filter Counts.zeroResults p (fun key => recent today (clampDays days) key.day),
      Tally.total_filter Counts.zeroResults p (fun key => recent today (clampDays days) key.day),
      Tally.total_tally add_zeroResults]
  unfold groupItem
  rw [hsearches, hzero, hsearches, hsearches]

/-- The counters rank as the searches that they count. -/
theorem topKeywords_tally (events : List SearchEvent) (today : Nat) (days limit : Int)
    (sort : String) :
    topKeywords (tally events) today days limit sort =
      topKeywords events today days limit sort := by
  unfold topKeywords
  rw [show groupItem (keptRows today days (tally events)) =
    groupItem (keptRows today days events) from funext (groupItem_tally today days events)]
  apply rank_groups _ _ _ (fun _ => rfl) (List.nodup_dedup _) (List.nodup_dedup _)
  intro keyword
  rw [List.mem_dedup, List.mem_dedup, mem_keywords_keptRows, mem_keywords_keptRows]
  constructor
  · rintro ⟨key, hkey, hrest⟩
    exact ⟨key, Tally.mem_keys_tally.mp hkey, hrest⟩
  · rintro ⟨key, hkey, hrest⟩
    exact ⟨key, Tally.mem_keys_tally.mpr hkey, hrest⟩

/-! ## 3. The ranking of the log -/

/-- The search that a line stands for. -/
def loggedRow (u : Unicode) (row : AccessRow) : Option SearchEvent :=
  (bucketOf u row).map fun bucket => (⟨dayOf row.occurredAt, bucket.1.2, bucket.1.1⟩, bucket.2)

/-- The bucket of a search. -/
def bucketOfEvent (event : SearchEvent) : (Text × SearchType) × Counts :=
  ((event.1.keyword, event.1.searchType), event.2)

/-- The buckets of the lines that are kept are those of the searches that are kept. -/
theorem filterMap_bucketOf (u : Unicode) (today : Nat) (days : Int) (rows : List AccessRow) :
    (rows.filter fun row => recent today (clampDays days) (dayOf row.occurredAt)).filterMap
        (bucketOf u) =
      (keptRows today days (rows.filterMap (loggedRow u))).map bucketOfEvent := by
  unfold keptRows
  induction rows with
  | nil => rfl
  | cons row rows ih =>
    rw [List.filter_cons, List.filterMap_cons]
    cases hbucket : bucketOf u row with
    | none =>
      have hnone : loggedRow u row = none := by rw [loggedRow, hbucket]; rfl
      rw [hnone]
      split
      · rw [List.filterMap_cons, hbucket]
        exact ih
      · exact ih
    | some bucket =>
      have hsome : loggedRow u row =
          some (⟨dayOf row.occurredAt, bucket.1.2, bucket.1.1⟩, bucket.2) := by
        rw [loggedRow, hbucket]
        rfl
      rw [hsome]
      simp only [List.filter_cons]
      split
      · rw [List.filterMap_cons, hbucket, List.map_cons]
        simp only
        rw [ih]
        rfl
      · exact ih

/-- A sum over the merged entries is the sum over the searches. -/
theorem total_merged {f : Merged → Nat} (hf : ∀ a b, f (a + b) = f a + f b)
    {g : Counts → Nat} (hg : ∀ a b, g (a + b) = g a + g b) {q : SearchType → Bool}
    (hmerge : ∀ bucket, f (mergedOf bucket).2 = if q bucket.1.2 then g bucket.2 else 0)
    (p : Text → Bool) (events : List SearchEvent) :
    total f p (tally ((tally (events.map bucketOfEvent)).map mergedOf)) =
      total g (fun key => p key.keyword && q key.searchType) events := by
  rw [Tally.total_tally hf]
  have hbuckets : total f p ((tally (events.map bucketOfEvent)).map mergedOf) =
      total g (fun key => p key.1 && q key.2) (tally (events.map bucketOfEvent)) := by
    apply Tally.total_map
    intro bucket
    rw [hmerge]
    show (if p bucket.1.1 then (if q bucket.1.2 then g bucket.2 else 0) else 0) = _
    cases p bucket.1.1 <;> cases q bucket.1.2 <;> rfl
  rw [hbuckets, Tally.total_tally hg]
  apply Tally.total_map
  intro event
  rfl

theorem mem_merged {events : List SearchEvent} {keyword : Text} :
    keyword ∈ (tally ((tally (events.map bucketOfEvent)).map mergedOf)).map Prod.fst ↔
      keyword ∈ events.map fun row => row.1.keyword := by
  rw [Tally.mem_keys_tally, List.map_map]
  have hkeys : (tally (events.map bucketOfEvent)).map (Prod.fst ∘ mergedOf) =
      ((tally (events.map bucketOfEvent)).map Prod.fst).map Prod.fst := by
    rw [List.map_map]
    rfl
  rw [hkeys]
  constructor
  · intro h
    rcases List.mem_map.mp h with ⟨bucket, hbucket, rfl⟩
    rw [Tally.mem_keys_tally, List.map_map] at hbucket
    rcases List.mem_map.mp hbucket with ⟨event, hevent, rfl⟩
    exact List.mem_map.mpr ⟨event, hevent, rfl⟩
  · intro h
    rcases List.mem_map.mp h with ⟨event, hevent, rfl⟩
    refine List.mem_map.mpr ⟨(event.1.keyword, event.1.searchType), ?_, rfl⟩
    rw [Tally.mem_keys_tally, List.map_map]
    exact List.mem_map.mpr ⟨event, hevent, rfl⟩

/-- An entry of the merged dictionary is the group of its keyword. -/
theorem itemOf_merged {events : List SearchEvent} {entry : Text × Merged}
    (hentry : entry ∈ tally ((tally (events.map bucketOfEvent)).map mergedOf)) :
    itemOf entry = groupItem events entry.1 := by
  have hnodup := Tally.nodup_tally ((tally (events.map bucketOfEvent)).map mergedOf)
  have hkey : ∀ f : Merged → Nat, f entry.2 = total f (fun keyword => keyword = entry.1)
      (tally ((tally (events.map bucketOfEvent)).map mergedOf)) := by
    intro f
    exact (Tally.total_key f hnodup hentry).symm
  unfold itemOf groupItem
  rw [hkey Merged.searches, hkey Merged.zeroResults, hkey Merged.agentSearches,
    hkey Merged.listingSearches]
  rw [@total_merged Merged.searches (fun _ _ => rfl) Counts.searches add_searches
      (fun _ => true) (fun _ => rfl),
    @total_merged Merged.zeroResults (fun _ _ => rfl) Counts.zeroResults add_zeroResults
      (fun _ => true) (fun _ => rfl),
    @total_merged Merged.agentSearches (fun _ _ => rfl) Counts.searches add_searches
      (fun type => type = .agent) (fun bucket => by simp [mergedOf]),
    @total_merged Merged.listingSearches (fun _ _ => rfl) Counts.searches add_searches
      (fun type => type = .listing) (fun bucket => by simp [mergedOf])]
  simp only [Bool.and_true]

/-- The lines of the log rank as the searches that they stand for. -/
theorem topKeywordsFromAccessLog_eq (u : Unicode) (rows : List AccessRow) (today : Nat)
    (days limit : Int) (sort : String) :
    topKeywordsFromAccessLog u rows today days limit sort =
      topKeywords (rows.filterMap (loggedRow u)) today days limit sort := by
  unfold topKeywordsFromAccessLog topKeywords
  simp only
  rw [filterMap_bucketOf]
  have hitems : (tally ((tally ((keptRows today days (rows.filterMap (loggedRow u))).map
      bucketOfEvent)).map mergedOf)).map itemOf =
      ((tally ((tally ((keptRows today days (rows.filterMap (loggedRow u))).map
        bucketOfEvent)).map mergedOf)).map Prod.fst).map
          (groupItem (keptRows today days (rows.filterMap (loggedRow u)))) := by
    rw [List.map_map]
    apply List.map_congr_left
    intro entry hentry
    exact itemOf_merged hentry
  rw [hitems]
  apply rank_groups _ _ _ (fun _ => rfl) (Tally.nodup_tally _) (List.nodup_dedup _)
  intro keyword
  rw [List.mem_dedup, mem_merged]

/-! ## 4. Requests -/

/-- The search that a request is for the counters. -/
def counted (u : Unicode) (r : Request) : Option SearchEvent :=
  r.outcome.found.bind fun n =>
    if (normalizeKeyword u r.query.q).isEmpty then none
    else some (⟨dayOf r.servedAt, r.path.searchType, normalizeKeyword u r.query.q⟩, oneSearch n)

/-- The `q` that the line of a request keeps. -/
def keptQ (u : Unicode) (r : Request) : Text :=
  ((buildQuerySummary u r.query).map Summary.q).getD []

/-- The keyword that the log has of a request. -/
def lineKeyword (u : Unicode) (r : Request) : Text :=
  if r.trailingNewline then [] else normalizeKeyword u (keptQ u r)

/-- The search that a request is for the log. -/
def logged (u : Unicode) (r : Request) : Option SearchEvent :=
  if (lineKeyword u r).isEmpty then none
  else some (⟨dayOf r.loggedAt, r.path.searchType, lineKeyword u r⟩,
    oneSearch (r.outcome.sent.getD 0))

/-- All requests lie in what is kept at `now`: seven days of counters, and the log's own days. -/
def Retained (retentionDays now : Nat) (requests : List Request) : Prop :=
  ∀ r ∈ requests, r.servedAt ≤ now ∧ dayOf now < dayOf r.servedAt + KEYWORD_RETENTION_DAYS ∧
    r.loggedAt ≤ now ∧ now ≤ r.loggedAt + retentionDays * 86400

def keywordsOf (day : Nat) (searchType : SearchType) (events : List SearchEvent) : List Text :=
  (events.filter fun event => event.1.day = day && event.1.searchType = searchType).map
    fun event => event.1.keyword

/-- No day has more keywords of a type than the cap. -/
def UnderCap (u : Unicode) (requests : List Request) : Prop :=
  ∀ day searchType, (keywordsOf day searchType
    (requests.filterMap (counted u))).dedup.length ≤ KEYWORD_DAILY_MAX

/-- What makes a request the same search for both: it is sent, in the day of its line, and the line
keeps the keyword; or the line keeps no keyword and the counters have counted none. -/
def SameSearch (u : Unicode) (r : Request) : Prop :=
  let keyword := normalizeKeyword u r.query.q
  let kept := lineKeyword u r
  match r.outcome with
  | .served _ => kept = keyword ∧ (keyword = [] ∨ dayOf r.servedAt = dayOf r.loggedAt)
  | .notSent n => kept = keyword ∧ (keyword = [] ∨ n = 0 ∧ dayOf r.servedAt = dayOf r.loggedAt)
  | .failed => kept = []

theorem logged_of_sameSearch {u : Unicode} {r : Request} (h : SameSearch u r) :
    logged u r = counted u r := by
  unfold SameSearch at h
  unfold logged counted
  cases houtcome : r.outcome with
  | failed =>
    rw [houtcome] at h
    have hkept : lineKeyword u r = [] := h
    rw [hkept]
    rfl
  | served n =>
    rw [houtcome] at h
    obtain ⟨hkept, hday⟩ := h
    rw [hkept]
    show (if (normalizeKeyword u r.query.q).isEmpty then none else some (_, oneSearch n)) =
      if (normalizeKeyword u r.query.q).isEmpty then none else some (_, oneSearch n)
    rcases hday with hnone | hday
    · rw [hnone]
      rfl
    · rw [hday]
  | notSent n =>
    rw [houtcome] at h
    obtain ⟨hkept, hday⟩ := h
    rw [hkept]
    show (if (normalizeKeyword u r.query.q).isEmpty then none else some (_, oneSearch 0)) =
      if (normalizeKeyword u r.query.q).isEmpty then none else some (_, oneSearch n)
    rcases hday with hnone | ⟨hn, hday⟩
    · rw [hnone]
      rfl
    · rw [hday, hn]

/-! ## 5. Runs -/

variable {u : Unicode} {retentionDays now : Nat}

theorem run_concat (requests : List Request) (r : Request) :
    run u retentionDays (requests ++ [r]) =
      serve u retentionDays (run u retentionDays requests) r :=
  List.foldl_append ..

/-- The log keeps every line of requests that are retained. -/
theorem accessLog_run {requests : List Request} (h : Retained retentionDays now requests) :
    (run u retentionDays requests).accessLog = requests.filterMap (lineOf u) := by
  induction requests using List.reverseRecOn with
  | nil => rfl
  | append_singleton requests r ih =>
    rw [run_concat, List.filterMap_append]
    show recordAccess u retentionDays r (run u retentionDays requests).accessLog = _
    rw [ih fun r' hr' => h r' (List.mem_append_left [r] hr')]
    have hline : [r].filterMap (lineOf u) = (lineOf u r).toList := by
      cases hr : lineOf u r <;> simp [hr]
    unfold recordAccess
    rw [hline]
    simp only
    split
    · apply List.filter_eq_self.mpr
      intro row hrow
      rw [← hline, ← List.filterMap_append] at hrow
      rcases List.mem_filterMap.mp hrow with ⟨r', hr', hrow'⟩
      have htime : row.occurredAt = r'.loggedAt := by
        unfold lineOf at hrow'
        split at hrow'
        · cases hrow'
        · cases hrow'
          rfl
      have hlast := h r (List.mem_append_right requests (List.mem_singleton_self r))
      have hold := h r' hr'
      rw [htime]
      apply decide_eq_true
      omega
    · rfl

theorem filterMap_loggedRow (requests : List Request) :
    (requests.filterMap (lineOf u)).filterMap (loggedRow u) =
      requests.filterMap (logged u) := by
  rw [List.filterMap_filterMap]
  apply List.filterMap_congr
  intro r _
  unfold lineOf logged lineKeyword
  split
  · rfl
  · show (bucketOf u _).map _ = _
    unfold bucketOf keptQ
    simp only
    split <;> rfl

theorem length_dedup_le {keywords others : List Text} (h : keywords ⊆ others) :
    keywords.dedup.length ≤ others.dedup.length := by
  apply List.Subperm.length_le
  apply List.Nodup.subperm (List.nodup_dedup keywords)
  intro keyword hkeyword
  exact List.mem_dedup.mpr (h (List.mem_dedup.mp hkeyword))

/-- A keyword that is new on its day is one more than those that are counted. -/
theorem keywordsOf_tally_lt {events : List SearchEvent} {event : SearchEvent}
    (hnew : event.1 ∉ (tally events).map Prod.fst) :
    (keywordsOf event.1.day event.1.searchType (tally events)).length <
      (keywordsOf event.1.day event.1.searchType (events ++ [event])).dedup.length := by
  have hmem : ∀ keyword ∈ keywordsOf event.1.day event.1.searchType (tally events),
      (⟨event.1.day, event.1.searchType, keyword⟩ : KeywordKey) ∈
        (tally events).map Prod.fst := by
    intro keyword hkeyword
    rcases List.mem_map.mp hkeyword with ⟨row, hrow, rfl⟩
    rcases List.mem_filter.mp hrow with ⟨htally, hplace⟩
    simp only [Bool.and_eq_true, decide_eq_true_eq] at hplace
    rw [← hplace.1, ← hplace.2]
    exact List.mem_map_of_mem htally
  have hnodup : (event.1.keyword ::
      keywordsOf event.1.day event.1.searchType (tally events)).Nodup := by
    rw [List.nodup_cons]
    constructor
    · intro h
      exact hnew (hmem _ h)
    · have hkeys := (List.pairwise_map.mp (Tally.nodup_tally events)).sublist
        (List.filter_sublist (p := fun row : SearchEvent =>
          row.1.day = event.1.day && row.1.searchType = event.1.searchType))
      apply List.pairwise_map.mpr
      apply List.Pairwise.imp_of_mem _ hkeys
      intro a b ha hb hne heq
      apply hne
      have ha' := (List.mem_filter.mp ha).2
      have hb' := (List.mem_filter.mp hb).2
      simp only [Bool.and_eq_true, decide_eq_true_eq] at ha' hb'
      cases a with
      | mk ka va =>
        cases b with
        | mk kb vb =>
          cases ka
          cases kb
          simp_all
  have hsub : event.1.keyword ::
      keywordsOf event.1.day event.1.searchType (tally events) ⊆
        (keywordsOf event.1.day event.1.searchType (events ++ [event])).dedup := by
    intro keyword hkeyword
    apply List.mem_dedup.mpr
    rcases List.mem_cons.mp hkeyword with rfl | hold
    · exact List.mem_map.mpr ⟨event, List.mem_filter.mpr ⟨by simp, by simp⟩, rfl⟩
    · rcases List.mem_map.mp (Tally.mem_keys_tally.mp (hmem keyword hold)) with ⟨row, hrow, hkey⟩
      refine List.mem_map.mpr ⟨row, List.mem_filter.mpr ⟨List.mem_append_left [event] hrow, ?_⟩, ?_⟩
      · rw [hkey]
        simp
      · rw [hkey]
  exact (hnodup.subperm hsub).length_le

/-- No counter of retained requests is old when the last of them is counted. -/
theorem filter_retained {requests : List Request} {r : Request}
    (h : Retained retentionDays now (requests ++ [r])) :
    ((tally (requests.filterMap (counted u))).filter fun row =>
      dayOf r.servedAt < row.1.day + KEYWORD_RETENTION_DAYS) =
        tally (requests.filterMap (counted u)) := by
  apply List.filter_eq_self.mpr
  intro row hrow
  have hkey := Tally.mem_keys_tally.mp (List.mem_map_of_mem hrow)
  rcases List.mem_map.mp hkey with ⟨event, hevent, heq⟩
  rcases List.mem_filterMap.mp hevent with ⟨r', hr', hcounted⟩
  have hday : event.1.day = dayOf r'.servedAt := by
    unfold counted at hcounted
    rcases Option.bind_eq_some_iff.mp hcounted with ⟨n, -, hn⟩
    split at hn
    · cases hn
    · cases hn
      rfl
  have hlast := h r (List.mem_append_right requests (List.mem_singleton_self r))
  have hold := h r' (List.mem_append_left [r] hr')
  have hle : dayOf r.servedAt ≤ dayOf now := Nat.div_le_div_right hlast.1
  rw [← heq, hday]
  apply decide_eq_true
  omega

/-- There is room for a keyword under the cap. -/
theorem admitKeyword_of_cap {events : List SearchEvent} {event : SearchEvent}
    (hcap : (keywordsOf event.1.day event.1.searchType (events ++ [event])).dedup.length ≤
      KEYWORD_DAILY_MAX) :
    admitKeyword event.1 event.2 (tally events) = tally (events ++ [event]) := by
  rw [Tally.tally_concat]
  unfold admitKeyword
  by_cases hany : (tally events).any (fun row => row.1 = event.1) = true
  · rw [hany, Bool.true_or, if_pos rfl]
  · have hnew : event.1 ∉ (tally events).map Prod.fst := by
      intro hmem
      rcases List.mem_map.mp hmem with ⟨row, hrow, hkey⟩
      exact hany (List.any_eq_true.mpr ⟨row, hrow, decide_eq_true hkey⟩)
    have hroom := keywordsOf_tally_lt hnew
    have hlength : ((tally events).filter fun row =>
        row.1.day = event.1.day && row.1.searchType = event.1.searchType).length <
          KEYWORD_DAILY_MAX := by
      rw [keywordsOf, List.length_map] at hroom
      exact Nat.lt_of_lt_of_le hroom hcap
    rw [decide_eq_true hlength, Bool.or_true, if_pos rfl]

/-- The counters of requests that are retained and under the cap are the tallied searches. -/
theorem keywords_run {requests : List Request} (h : Retained retentionDays now requests)
    (hcap : UnderCap u requests) :
    (run u retentionDays requests).keywords = tally (requests.filterMap (counted u)) := by
  induction requests using List.reverseRecOn with
  | nil => rfl
  | append_singleton requests r ih =>
    have hfront : UnderCap u requests := by
      intro day searchType
      apply Nat.le_trans _ (hcap day searchType)
      apply length_dedup_le
      intro keyword hkeyword
      rw [List.filterMap_append]
      unfold keywordsOf at hkeyword ⊢
      rw [List.filter_append, List.map_append]
      exact List.mem_append_left _ hkeyword
    have hold := ih (fun r' hr' => h r' (List.mem_append_left [r] hr')) hfront
    rw [run_concat, List.filterMap_append]
    show (r.outcome.found.elim (run u retentionDays requests).keywords fun n =>
      recordBuyerKeyword u r.path.searchType r.query.q n r.servedAt
        (run u retentionDays requests).keywords) = _
    rw [hold]
    cases hfound : r.outcome.found with
    | none =>
      have hnone : counted u r = none := by rw [counted, hfound]; rfl
      simp [hnone]
    | some n =>
      rw [Option.elim_some]
      unfold recordBuyerKeyword
      simp only
      by_cases hkeyword : (normalizeKeyword u r.query.q).isEmpty = true
      · have hnone : counted u r = none := by
          rw [counted, hfound, Option.bind_some, if_pos hkeyword]
        rw [if_pos hkeyword]
        simp [hnone]
      · have hsome : counted u r = some (⟨dayOf r.servedAt, r.path.searchType,
            normalizeKeyword u r.query.q⟩, oneSearch n) := by
          rw [counted, hfound, Option.bind_some, if_neg hkeyword]
        rw [if_neg hkeyword, filter_retained h]
        have hlist : [r].filterMap (counted u) = [(⟨dayOf r.servedAt, r.path.searchType,
            normalizeKeyword u r.query.q⟩, oneSearch n)] := by
          simp [hsome]
        rw [hlist]
        have hroom := hcap (dayOf r.servedAt) r.path.searchType
        rw [List.filterMap_append, hlist] at hroom
        exact @admitKeyword_of_cap (requests.filterMap (counted u)) (⟨dayOf r.servedAt,
          r.path.searchType, normalizeKeyword u r.query.q⟩, oneSearch n) hroom

/-- On requests that both count alike, the two rankings are the same list. -/
theorem rankings_agree (u : Unicode) (retentionDays now : Nat) (requests : List Request)
    (hretained : Retained retentionDays now requests) (hcap : UnderCap u requests)
    (hsame : ∀ r ∈ requests, SameSearch u r) (days limit : Int) (sort : String) :
    topKeywordsFromAccessLog u (run u retentionDays requests).accessLog (dayOf now) days limit
        sort =
      topKeywords (run u retentionDays requests).keywords (dayOf now) days limit sort := by
  have hevents : requests.filterMap (logged u) = requests.filterMap (counted u) := by
    apply List.filterMap_congr
    intro r hr
    exact logged_of_sameSearch (hsame r hr)
  rw [topKeywordsFromAccessLog_eq, accessLog_run hretained, filterMap_loggedRow, hevents,
    keywords_run hretained hcap, topKeywords_tally]

/-! ## 6. Small runs -/

/-- Python on ASCII. -/
def asciiUnicode : Unicode := ⟨id, fun text => text.map Char.toLower⟩

theorem underCap_of_length {requests : List Request} (h : requests.length ≤ KEYWORD_DAILY_MAX) :
    UnderCap u requests := by
  intro day searchType
  apply Nat.le_trans (List.dedup_sublist _).length_le
  unfold keywordsOf
  rw [List.length_map]
  exact Nat.le_trans (List.length_filter_le _ _) (Nat.le_trans (List.length_filterMap_le _ _) h)

def searchFor (q : String) (path : SearchPath) (outcome : Outcome) : Request :=
  ⟨path, [(['q'], q.toList)], outcome, 1000, 1000, false, false⟩

/-- Two spellings of a keyword, one without results. -/
def teaSearches : List Request :=
  [searchFor "Green  Tea" .agents (.served 3), searchFor "green tea " .listings (.served 0)]

theorem rankings_agree_tea :
    topKeywordsFromAccessLog asciiUnicode (run asciiUnicode 90 teaSearches).accessLog (dayOf 1000)
        14 20 "searches" =
      topKeywords (run asciiUnicode 90 teaSearches).keywords (dayOf 1000) 14 20 "searches" := by
  refine rankings_agree asciiUnicode 90 1000 teaSearches ?_ ?_ ?_ 14 20 "searches"
  · unfold Retained
    decide +kernel
  · exact underCap_of_length (by decide)
  · intro r hr
    rcases List.mem_cons.mp hr with rfl | hr
    · exact ⟨by decide +kernel, .inr rfl⟩
    · rw [List.mem_singleton.mp hr]
      exact ⟨by decide +kernel, .inr rfl⟩

/-- A search that failed is in the log's ranking, and no counter has it. -/
theorem failed_search_ranked :
    Retained 90 1000 [searchFor "tea" .agents .failed] ∧
      UnderCap asciiUnicode [searchFor "tea" .agents .failed] ∧
      topKeywordsFromAccessLog asciiUnicode
          (run asciiUnicode 90 [searchFor "tea" .agents .failed]).accessLog (dayOf 1000) 14 20
          "searches" ≠
        topKeywords (run asciiUnicode 90 [searchFor "tea" .agents .failed]).keywords (dayOf 1000)
          14 20 "searches" := by
  refine ⟨?_, underCap_of_length (by decide), ?_⟩
  · unfold Retained
    decide +kernel
  · intro heq
    have hlengths := congrArg List.length heq
    unfold topKeywordsFromAccessLog topKeywords rank at hlengths
    simp only [List.length_take, List.length_mergeSort] at hlengths
    revert hlengths
    decide +kernel

end KiwiCatalog.Stats
