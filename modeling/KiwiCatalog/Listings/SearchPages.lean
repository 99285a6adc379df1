import KiwiCatalog.Listings.Search
import KiwiCatalog.Publications.Store
import Mathlib.Data.Char
import Mathlib.Data.List.Lex
import Mathlib.Data.Prod.Lex

/-!
# Search pages — following the cursors of a search lists every match once

The search order is the order of a keyset, a cursor stands behind the key of a row, and a page ends
behind the last row that it returned, or behind the last one that it scanned.
-/

set_option autoImplicit false

namespace KiwiCatalog.Listings.Search

open Feed (nowIsoText)
open IsoText (UtcClock)
open Keyset (PageOf Pages exists_cut follow)
open Publications (asciiEnv firstClock)
open Url (Text quote splitOn unquote)

/-! ## 1. The order -/

/-- Ranks go up; times and numbers go down. -/
abbrev SearchKey := ℕ ×ₗ Textᵒᵈ ×ₗ ℕᵒᵈ

def searchKey (row : ListingRow) : SearchKey :=
  toLex (freshnessRank row.freshness,
    toLex (OrderDual.toDual row.updatedAt, OrderDual.toDual row.id))

theorem searchKey_lt (a b : ListingRow) :
    searchKey a < searchKey b ↔
      freshnessRank a.freshness < freshnessRank b.freshness ∨
        freshnessRank a.freshness = freshnessRank b.freshness ∧
          (b.updatedAt < a.updatedAt ∨ a.updatedAt = b.updatedAt ∧ b.id < a.id) := by
  unfold searchKey
  rw [Prod.Lex.toLex_lt_toLex, Prod.Lex.toLex_lt_toLex]
  rfl

def searchKeyset : Keyset ListingRow SearchKey := Keyset.ofLinear searchKey

theorem searchKeyset_total : searchKeyset.Total := Keyset.ofLinear_total searchKey

theorem searchKeyset_before (a b : ListingRow) :
    searchKeyset.before (searchKeyset.key a) (searchKeyset.key b) =
      (freshnessRank a.freshness < freshnessRank b.freshness ||
        (freshnessRank a.freshness = freshnessRank b.freshness &&
          (b.updatedAt < a.updatedAt || (a.updatedAt = b.updatedAt && b.id < a.id)))) := by
  rw [Bool.eq_iff_iff]
  simp only [Bool.or_eq_true, Bool.and_eq_true, decide_eq_true_eq]
  exact decide_eq_true_iff.trans (searchKey_lt a b)

theorem searchOrder_eq : searchOrder = searchKeyset.inOrder := by
  funext a b
  rw [Keyset.inOrder, searchKeyset_before]
  rfl

/-- Numbers differ, so keys do. -/
theorem nodup_searchKeys (table : ListingTable) : (table.rows.map searchKeyset.key).Nodup := by
  have hids : ((table.rows.map searchKeyset.key).map
      fun key => OrderDual.ofDual (ofLex (ofLex key).2).2).Nodup := by
    rw [List.map_map]
    exact table.ids
  exact hids.of_map _

/-- The matching rows in the search order. -/
def matching (rows : List ListingRow) (conditions : List Condition) : List ListingRow :=
  (rows.filter (satisfies conditions)).mergeSort searchOrder

theorem sorted_matching (table : ListingTable) (conditions : List Condition) :
    searchKeyset.Sorted (matching table.rows conditions) := by
  rw [matching, searchOrder_eq]
  apply Keyset.sorted_mergeSort searchKeyset_total
  exact (nodup_searchKeys table).sublist (List.filter_sublist.map _)

theorem mem_of_mem_matching {rows : List ListingRow} {conditions : List Condition}
    {row : ListingRow} (h : row ∈ matching rows conditions) : row ∈ rows :=
  List.mem_of_mem_filter ((List.mergeSort_perm _ _).mem_iff.mp h)

/-! ## 2. Cursors -/

theorem splitOn_cursor (row : ListingRow) :
    splitOn '|' (rankText row.freshness ++ '|' :: (row.updatedAt ++ '|' :: row.listingId)) =
      [rankText row.freshness, row.updatedAt, row.listingId] := by
  have hrank : '|' ∉ rankText row.freshness := by
    cases row.freshness <;> decide
  rw [Url.splitOn_append hrank, Url.splitOn_append row.updatedAt_plain,
    Url.splitOn_of_not_mem row.listingId_plain]

/-- A cursor of a row is accepted, and read back. -/
theorem decode_encodeSearchCursor (row : ListingRow) :
    decodeSearchCursor (encodeSearchCursor row) =
      .ok ⟨some (freshnessRank row.freshness), row.updatedAt, row.listingId⟩ := by
  unfold decodeSearchCursor encodeSearchCursor
  rw [Url.unquote_quote, splitOn_cursor]
  cases row.freshness <;> rfl

theorem encodeSearchCursor_ne_nil (row : ListingRow) : encodeSearchCursor row ≠ [] := by
  apply Url.quote_ne_nil
  cases row.freshness <;> exact List.cons_ne_nil _ _

theorem idOf_of_mem {table : ListingTable} {row : ListingRow} (h : row ∈ table.rows) :
    idOf table.rows row.listingId = some row.id := by
  have hunique : Table.KeyUnique ListingRow.listingId table.rows := table.listingIds
  rw [idOf, Table.lookup_of_mem hunique h]
  rfl

/-- The predicate of a row's cursor is the order of the keys. -/
theorem cursorAdmits_row {table : ListingTable} {row : ListingRow} (h : row ∈ table.rows)
    (other : ListingRow) :
    cursorAdmits table.rows
        ⟨some (freshnessRank row.freshness), row.updatedAt, row.listingId⟩ other =
      searchKeyset.before (searchKeyset.key row) (searchKeyset.key other) := by
  rw [searchKeyset_before]
  -- the two sides write their equations in opposite directions
  have hrank : decide (freshnessRank other.freshness = freshnessRank row.freshness) =
      decide (freshnessRank row.freshness = freshnessRank other.freshness) :=
    decide_eq_decide.mpr eq_comm
  have htime : decide (other.updatedAt = row.updatedAt) = decide (row.updatedAt = other.updatedAt) :=
    decide_eq_decide.mpr eq_comm
  simp only [cursorAdmits, idBefore, idOf_of_mem h, Option.any_some]
  rw [hrank, htime]

/-- The position of a cursor that a search of these rows is given. -/
def StandsAt (rows : List ListingRow) (cursor : Text) (position : Option SearchKey) : Prop :=
  (cursor = [] ∧ position = none) ∨
    ∃ row ∈ rows, cursor = encodeSearchCursor row ∧ position = some (searchKey row)

theorem standsAt_row {rows : List ListingRow} {row : ListingRow} (h : row ∈ rows) :
    StandsAt rows (encodeSearchCursor row) (some (searchKey row)) :=
  Or.inr ⟨row, h, rfl, rfl⟩

/-- The predicate of a cursor keeps the rows behind its position. -/
theorem readCursor_ok {table : ListingTable} {cursor : Text} {position : Option SearchKey}
    (h : StandsAt table.rows cursor position) :
    ∃ admits, readCursor table.rows cursor = .ok admits ∧
      ∀ sorted, sorted.filter admits = searchKeyset.remaining position sorted := by
  rcases h with ⟨rfl, rfl⟩ | ⟨row, hrow, rfl, rfl⟩
  · exact ⟨_, rfl, fun sorted => List.filter_eq_self.mpr fun _ _ => rfl⟩
  · apply Exists.intro (cursorAdmits table.rows
      ⟨some (freshnessRank row.freshness), row.updatedAt, row.listingId⟩)
    have hne : (encodeSearchCursor row).isEmpty = false := by
      rw [List.isEmpty_eq_false_iff]
      exact encodeSearchCursor_ne_nil row
    constructor
    · rw [readCursor, hne, decode_encodeSearchCursor]
      rfl
    · intro sorted
      exact List.filter_congr fun other _ => cursorAdmits_row hrow other

/-- A query reads the first of the remaining matches. -/
theorem fetchRows_ok {table : ListingTable} {conditions : List Condition} {cursor : Text}
    {position : Option SearchKey} (h : StandsAt table.rows cursor position) (count : Nat) :
    fetchRows table.rows conditions cursor count =
      .ok ((searchKeyset.remaining position (matching table.rows conditions)).take count) := by
  obtain ⟨admits, hread, hadmits⟩ := readCursor_ok h
  have hkept : ((table.rows.filter (satisfies conditions)).map searchKeyset.key).Nodup :=
    (nodup_searchKeys table).sublist (List.filter_sublist.map _)
  have hfilter : (table.rows.filter fun row => satisfies conditions row && admits row) =
      (table.rows.filter (satisfies conditions)).filter admits := by
    rw [List.filter_filter]
    exact List.filter_congr fun row _ => Bool.and_comm _ _
  have hsorted : ((table.rows.filter fun row => satisfies conditions row && admits row).mergeSort
      searchOrder) = searchKeyset.remaining position (matching table.rows conditions) := by
    rw [hfilter, matching, searchOrder_eq, Keyset.filter_mergeSort searchKeyset_total hkept, hadmits]
  rw [fetchRows, hread, ← hsorted]
  rfl

/-! ## 3. Scans -/

/-- What a scan from a position says of the rows that remain there. -/
structure ScanOf (env : SearchEnv) (limit : Nat) (before : List ListingRow)
    (beforeLast : Option ListingRow) (remaining : List ListingRow) (scan : Scan) : Prop where
  cut : ∃ first rest, remaining = first ++ rest ∧
    scan.visible = before ++ first.filter (isShown env) ∧
    scan.lastScanned = first.getLast?.or beforeLast ∧
    (scan.exhausted = true → first ≠ []) ∧
    (scan.exhausted = false → limit < scan.visible.length ∨ rest = [])

/-- A scan that ends with its first batch. -/
theorem ScanOf.batch {env : SearchEnv} {limit : Nat} {before remaining : List ListingRow}
    {beforeLast : Option ListingRow} {count : Nat} {exhausted : Bool} {last : ListingRow}
    (hlast : (remaining.take count).getLast? = some last)
    (hend : exhausted = false →
      limit < (before ++ (remaining.take count).filter (isShown env)).length ∨
        remaining.drop count = []) :
    ScanOf env limit before beforeLast remaining
      ⟨before ++ (remaining.take count).filter (isShown env), some last, exhausted⟩ := by
  have hne : remaining.take count ≠ [] := by
    intro hnil
    rw [hnil] at hlast
    cases hlast
  refine ⟨remaining.take count, remaining.drop count, (List.take_append_drop _ _).symm, rfl, ?_,
    fun _ => hne, hend⟩
  rw [hlast]
  rfl

/-- A batch before a scan. -/
theorem ScanOf.cons {env : SearchEnv} {limit : Nat} {before batch rest : List ListingRow}
    {beforeLast : Option ListingRow} {last : ListingRow} {scan : Scan}
    (hlast : batch.getLast? = some last)
    (h : ScanOf env limit (before ++ batch.filter (isShown env)) (some last) rest scan) :
    ScanOf env limit before beforeLast (batch ++ rest) scan := by
  obtain ⟨first, rest', hsplit, hvisible, hscanned, hexhausted, hend⟩ := h.cut
  refine ⟨batch ++ first, rest', ?_, ?_, ?_, ?_, hend⟩
  · rw [hsplit, List.append_assoc]
  · rw [hvisible, List.filter_append, List.append_assoc]
  · rw [hscanned, List.getLast?_append, hlast]
    cases first.getLast? <;> rfl
  · intro _ hnil
    rw [(List.append_eq_nil_iff.mp hnil).1] at hlast
    cases hlast

theorem scanRows_ok (env : SearchEnv) {table : ListingTable} (conditions : List Condition)
    (limit : Nat) {batchSize : Nat} (hbatch : 0 < batchSize) {cursor : Text}
    {position : Option SearchKey} (hstands : StandsAt table.rows cursor position) (before : List ListingRow)
    (beforeLast : Option ListingRow) {budget : Nat} (hbudget : 0 < budget) :
    ∃ scan, scanRows env table.rows conditions limit batchSize cursor before beforeLast budget =
        .ok scan ∧
      ScanOf env limit before beforeLast
        (searchKeyset.remaining position (matching table.rows conditions)) scan := by
  -- on the budget; each batch moves the position behind its last row
  induction budget using Nat.strong_induction_on generalizing cursor position before beforeLast with
  | h budget ih =>
    generalize hremaining : searchKeyset.remaining position (matching table.rows conditions) =
      remaining
    have hcount : ¬ min batchSize budget = 0 := by omega
    rw [scanRows, dif_neg hcount, fetchRows_ok hstands, hremaining]
    generalize hmin : min batchSize budget = count at hcount ⊢
    have hle : count ≤ budget := by omega
    simp only
    split
    · -- no row is left
      rename_i hnone
      have hnil : remaining = [] := by
        rcases List.take_eq_nil_iff.mp (List.getLast?_eq_none_iff.mp hnone) with hzero | hnil
        · exact absurd hzero hcount
        · exact hnil
      refine ⟨_, rfl, [], [], by rw [hnil, List.nil_append], ?_, rfl, ?_, fun _ => Or.inr rfl⟩
      · rw [List.filter_nil, List.append_nil]
      · intro htrue
        cases htrue
    · rename_i last hlast
      split
      · -- the page is full
        rename_i hfull
        exact ⟨_, rfl, ScanOf.batch hlast fun _ => Or.inl hfull⟩
      · split
        · -- the batch is short, so nothing is behind it
          rename_i hshort
          have hbehind : remaining.drop count = [] := by
            rw [List.length_take] at hshort
            rw [List.drop_eq_nil_iff]
            omega
          exact ⟨_, rfl, ScanOf.batch hlast fun _ => Or.inr hbehind⟩
        · split
          · -- the budget is spent
            refine ⟨_, rfl, ScanOf.batch hlast ?_⟩
            intro hfalse
            cases hfalse
          · rename_i hmore
            have hsplit := (List.take_append_drop count remaining).symm
            have hrest := (sorted_matching table conditions).remaining_getLast
              (hremaining.trans hsplit) hlast
            have hmem : last ∈ matching table.rows conditions := by
              have hsuffix := (sorted_matching table conditions).remaining_suffix position
              rw [hremaining] at hsuffix
              exact hsuffix.subset (List.mem_of_mem_take (List.mem_of_getLast? hlast))
            obtain ⟨scan, hscan, hof⟩ := ih (budget - count) (by omega)
              (standsAt_row (mem_of_mem_matching hmem))
              (before ++ (remaining.take count).filter (isShown env)) (some last) (by omega)
            apply Exists.intro scan
            apply And.intro hscan
            rw [hsplit]
            exact ScanOf.cons hlast (hrest ▸ hof)

/-! ## 4. Pages -/

/-- The empty cursor is the end. -/
def nextCursor (cursor : Text) : Option Text := if cursor.isEmpty then none else some cursor

theorem nextCursor_encode (row : ListingRow) :
    nextCursor (encodeSearchCursor row) = some (encodeSearchCursor row) := by
  have hne := List.isEmpty_eq_false_iff.mpr (encodeSearchCursor_ne_nil row)
  rw [nextCursor, hne]
  rfl

/-- A page that ends behind the last row of a start. -/
theorem pageOf_cut {env : SearchEnv} {rows first rest : List ListingRow} (hne : first ≠ [])
    (hmem : ∀ row ∈ first, row ∈ rows) :
    PageOf searchKeyset (isShown env) (StandsAt rows) (first ++ rest)
      (first.filter (isShown env),
        nextCursor ((first.getLast?.map encodeSearchCursor).getD [])) := by
  have hlast := List.getLast?_eq_getLast_of_ne_nil hne
  rw [hlast]
  show PageOf _ _ _ _ (_, nextCursor (encodeSearchCursor _))
  rw [nextCursor_encode]
  refine ⟨first, rest, rfl, rfl, ?_, ?_⟩
  · intro hnone
    cases hnone
  · rintro next ⟨⟩
    exact ⟨_, hlast, standsAt_row (hmem _ (List.getLast_mem hne))⟩

/-- A page of a scan ends behind the last row that it returns, or else behind all that was
scanned. -/
theorem pageOf_scan {env : SearchEnv} {limit : Nat} (hlimit : 0 < limit)
    {rows remaining : List ListingRow} {scan : Scan} (hmem : ∀ row ∈ remaining, row ∈ rows)
    (h : ScanOf env limit [] none remaining scan) :
    PageOf searchKeyset (isShown env) (StandsAt rows) remaining
      ((pageOfScan limit scan).1, nextCursor (pageOfScan limit scan).2) := by
  obtain ⟨first, rest, rfl, hvisible, hscanned, hexhausted, hend⟩ := h.cut
  rw [List.nil_append] at hvisible
  rw [Option.or_none] at hscanned
  have hmem_first : ∀ row ∈ first, row ∈ rows := fun row hrow => hmem row (List.mem_append_left _ hrow)
  by_cases hfull : limit < scan.visible.length
  · rw [hvisible] at hfull
    obtain ⟨shown, rest', rfl, hfilter, hlast⟩ := exists_cut hlimit (Nat.le_of_lt hfull)
    have hpage : pageOfScan limit scan =
        (shown.filter (isShown env), (shown.getLast?.map encodeSearchCursor).getD []) := by
      rw [pageOfScan, hvisible, if_pos hfull, ← hfilter, hlast, ← hfilter]
    have hne : shown ≠ [] := by
      rintro rfl
      exact Keyset.take_ne_nil hlimit (Nat.le_of_lt hfull) hfilter.symm
    rw [hpage, List.append_assoc]
    exact pageOf_cut hne fun row hrow => hmem_first row (List.mem_append_left _ hrow)
  · have hresults : scan.visible.take limit = first.filter (isShown env) := by
      rw [List.take_of_length_le (Nat.not_lt.mp hfull), hvisible]
    cases hspent : scan.exhausted with
    | true =>
      have hpage : pageOfScan limit scan =
          (first.filter (isShown env), (first.getLast?.map encodeSearchCursor).getD []) := by
        rw [pageOfScan, if_neg hfull, hspent, if_pos rfl, hscanned, hresults]
      rw [hpage]
      exact pageOf_cut (hexhausted hspent) hmem_first
    | false =>
      have hnil : rest = [] := (hend hspent).resolve_left hfull
      have hpage : pageOfScan limit scan = (first.filter (isShown env), []) := by
        rw [pageOfScan, if_neg hfull, hspent, if_neg (by decide), hresults]
      rw [hpage]
      refine ⟨first, rest, rfl, rfl, fun _ => by rw [hnil]; rfl, ?_⟩
      rintro next ⟨⟩

/-! ## 5. Searches -/

theorem searchLimit_pos {asked : Option Int} {limit : Nat} (h : searchLimit asked = .ok limit) :
    0 < limit := by
  cases asked with
  | none =>
    cases h
    decide
  | some n =>
    unfold searchLimit at h
    simp only at h
    split at h
    · rename_i hrange
      cases h
      omega
    · cases h

/-- Expiring again at the same time changes nothing. -/
theorem expireStaleListings_idem (now : UtcClock) (table : ListingTable) :
    expireStaleListings now (expireStaleListings now table) = expireStaleListings now table := by
  have hrow : ∀ row, expiredRow now (expiredRow now row) = expiredRow now row := by
    intro row
    by_cases hstale : row.freshness = .fresh ∧ row.freshUntil < nowIsoText now
    · have hrow' : (expiredRow now row).freshness = .stale := by
        rw [expiredRow, if_pos hstale]
      apply if_neg
      rw [hrow']
      rintro ⟨hfresh, -⟩
      cases hfresh
    · have hsame : expiredRow now row = row := if_neg hstale
      rw [hsame, hsame]
  have hrows : (expireStaleListings now (expireStaleListings now table)).rows =
      (expireStaleListings now table).rows := by
    show (table.rows.map (expiredRow now)).map (expiredRow now) = table.rows.map (expiredRow now)
    rw [List.map_map]
    exact List.map_congr_left fun row _ => hrow row
  cases hexpired : expireStaleListings now (expireStaleListings now table)
  cases hexpired' : expireStaleListings now table
  rw [hexpired, hexpired'] at hrows
  cases hrows
  rfl

/-- A search as a fetch of a page: the table and the cursor that go in, and those for the next. -/
def fetchPage (env : SearchEnv) (agents : List Agent) (query : ListingQuery) (now : UtcClock)
    (start : ListingTable × Text) : Option (List ListingRow × Option (ListingTable × Text)) :=
  (searchListings env agents start.1 query start.2 now).toOption.map fun page =>
    (page.2.1, (nextCursor page.2.2).map fun cursor => (page.1, cursor))

/-- The cursor stands at a position of the rows that the search expires first. -/
def Starts (now : UtcClock) (expired : ListingTable) (start : ListingTable × Text)
    (position : Option SearchKey) : Prop :=
  expireStaleListings now start.1 = expired ∧ StandsAt expired.rows start.2 position

theorem fetchPage_pages (env : SearchEnv) (agents : List Agent) {query : ListingQuery}
    {now : UtcClock} {limit : Nat} {conditions : List Condition} {expired : ListingTable}
    (hexpired : expireStaleListings now expired = expired)
    (hlimit : searchLimit query.limit = .ok limit)
    (hconditions : searchConditions env agents query = .ok conditions) :
    Pages searchKeyset (isShown env) (matching expired.rows conditions)
      (fetchPage env agents query now) (Starts now expired) := by
  rintro ⟨table, cursor⟩ position ⟨hrows, hstands⟩
  change expireStaleListings now table = expired at hrows
  have hbatch : 0 < min (max (limit + 1) 20) 200 := by omega
  have hbudget : 0 < maxListingScanRows := by decide
  obtain ⟨scan, hscan, hof⟩ := scanRows_ok env conditions limit hbatch hstands [] none hbudget
  have hsearch : searchListings env agents table query cursor now =
      .ok (expired, pageOfScan limit scan) := by
    simp only [searchListings, hlimit, hconditions, hrows, hscan, bind, Except.bind, pure,
      Except.pure]
  have hmem : ∀ row ∈ searchKeyset.remaining position (matching expired.rows conditions),
      row ∈ expired.rows := by
    intro row hrow
    have hsuffix := (sorted_matching expired conditions).remaining_suffix position
    exact mem_of_mem_matching (hsuffix.subset hrow)
  have hfetch : fetchPage env agents query now (table, cursor) =
      some ((pageOfScan limit scan).1,
        (nextCursor (pageOfScan limit scan).2).map fun cursor => (expired, cursor)) := by
    rw [fetchPage, hsearch]
    rfl
  have hpage := pageOf_scan (searchLimit_pos hlimit) hmem hof
  exact ⟨_, hfetch, hpage.map _ fun cursor position hstands => ⟨hexpired, hstands⟩⟩

/-- What the search would list without pages: the matching rows that are shown, in its order. -/
def listed (env : SearchEnv) (rows : List ListingRow) (conditions : List Condition) :
    List ListingRow :=
  (rows.filter fun row => satisfies conditions row && isShown env row).mergeSort searchOrder

theorem listed_eq {env : SearchEnv} {table : ListingTable} {conditions : List Condition} :
    listed env table.rows conditions =
      (matching table.rows conditions).filter (isShown env) := by
  have hkept : ((table.rows.filter (satisfies conditions)).map searchKeyset.key).Nodup :=
    (nodup_searchKeys table).sublist (List.filter_sublist.map _)
  have hfilter : (table.rows.filter fun row => satisfies conditions row && isShown env row) =
      (table.rows.filter (satisfies conditions)).filter (isShown env) := by
    rw [List.filter_filter]
    exact List.filter_congr fun row _ => Bool.and_comm _ _
  rw [listed, hfilter, matching, searchOrder_eq, Keyset.filter_mergeSort searchKeyset_total hkept]

theorem nodup_listed (env : SearchEnv) (table : ListingTable) (conditions : List Condition) :
    ((listed env table.rows conditions).map ListingRow.listingId).Nodup := by
  have hperm := (List.mergeSort_perm (table.rows.filter fun row =>
    satisfies conditions row && isShown env row) searchOrder).map ListingRow.listingId
  exact hperm.nodup_iff.mpr (table.listingIds.sublist (List.filter_sublist.map _))

/-- A next cursor is empty, or the cursor of a row. -/
theorem pageOfScan_cursor (limit : Nat) (scan : Scan) :
    (pageOfScan limit scan).2 = [] ∨
      ∃ row, (pageOfScan limit scan).2 = encodeSearchCursor row := by
  have hlast : ∀ row : Option ListingRow, (row.map encodeSearchCursor).getD [] = [] ∨
      ∃ r, (row.map encodeSearchCursor).getD [] = encodeSearchCursor r := by
    intro row
    cases row with
    | none => exact Or.inl rfl
    | some r => exact Or.inr ⟨r, rfl⟩
  unfold pageOfScan
  simp only
  split
  · exact hlast _
  · split
    · exact hlast _
    · exact Or.inl rfl

theorem cursor_accepted {env : SearchEnv} {agents : List Agent} {table expired : ListingTable}
    {query : ListingQuery} {cursor next : Text} {now : UtcClock} {rows : List ListingRow}
    (h : searchListings env agents table query cursor now = .ok (expired, rows, next))
    (hne : next ≠ []) : ∃ decoded, decodeSearchCursor next = .ok decoded := by
  unfold searchListings at h
  obtain ⟨limit, -, h⟩ := Checks.bind_eq_ok h
  obtain ⟨conditions, -, h⟩ := Checks.bind_eq_ok h
  obtain ⟨scan, -, h⟩ := Checks.bind_eq_ok h
  have hnext : (pageOfScan limit scan).2 = next :=
    congrArg (fun page : ListingTable × List ListingRow × Text => page.2.2) (Except.ok.inj h)
  rcases pageOfScan_cursor limit scan with hnil | ⟨row, hrow⟩
  · exact absurd (hnext.symm.trans hnil) hne
  · rw [← hnext, hrow, decode_encodeSearchCursor]
    exact ⟨_, rfl⟩

def plainSearchEnv : SearchEnv := ⟨asciiEnv, emptyCodec, fun _ _ => false⟩

def plainQuery : ListingQuery :=
  ⟨[], "", [], [], [], [], [], [], none, none, none, none, [], [], some 1⟩

def pumpRow (id : Nat) (listingId : Text) (h : '|' ∉ listingId) : ListingRow where
  id := id
  listingId := listingId
  listingType := .product
  ownerAgentId := "a1"
  content := contentColumns emptyCodec (pumpFields plainSummary)
  handoffDestinationTypesJson := []
  publicationState := .active
  governanceHold := 0
  freshness := .fresh
  updatedAt := "2026".toList
  freshUntil := "2027".toList
  listingId_plain := h
  updatedAt_plain := by decide

/-- Two listings of one time. -/
def pumpTable : ListingTable where
  rows := [pumpRow 1 "lst_1".toList (by decide), pumpRow 2 "lst_2".toList (by decide)]
  ids := by decide
  listingIds := by decide

def plainConditions : List Condition :=
  [fun row => row.publicationState = .active, fun row => row.governanceHold = 0, ownerAllowed []]

end KiwiCatalog.Listings.Search
