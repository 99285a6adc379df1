import KiwiCatalog.Catalog.AgentPages
import Mathlib.Data.Char
import Mathlib.Data.List.Lex
import Mathlib.Data.Prod.Lex

/-!
# Agent pagination — the three queries list every matching agent once

The order of the queries is the order of a keyset, and the cursor of a row reads back as its key.  A
cursor that no query sent out may raise what the queries do not catch.
-/

set_option autoImplicit false

namespace KiwiCatalog.Catalog.AgentPages

open Keyset (PageOf Pages follow pageOf_take)
open Url (Text)

/-! ## 1. The order -/

theorem rank_cons (status name : Text) (rank : Nat) (rest : List (Text × Nat)) :
    (((name, rank) :: rest).lookup status).getD 9 =
      if status = name then rank else (rest.lookup status).getD 9 := by
  rw [List.lookup_cons]
  by_cases h : status = name
  · rw [if_pos h, h, beq_self_eq_true]
    rfl
  · rw [if_neg h, beq_false_of_ne h]

/-- The table of ranks and the expression of the queries agree. -/
theorem agentStatusRank_eq (row : AgentRow) :
    agentStatusRank row.verificationStatus = agentStatusRankCase row := by
  unfold agentStatusRank agentStatusRanks
  simp only [rank_cons]
  rfl

theorem agentStatusRankCase_le (row : AgentRow) : agentStatusRankCase row ≤ 9 := by
  unfold agentStatusRankCase
  repeat' split
  all_goals omega

/-- Ranks, names and ids go up; times go down. -/
abbrev AgentKey := ℕ ×ₗ Textᵒᵈ ×ₗ Text ×ₗ Text

def agentKey (row : AgentRow) : AgentKey :=
  toLex (agentStatusRankCase row,
    toLex (OrderDual.toDual row.lastVerifiedAt, toLex (row.displayName, row.catalogAgentId)))

theorem agentKey_lt (a b : AgentRow) :
    agentKey a < agentKey b ↔
      agentStatusRankCase a < agentStatusRankCase b ∨
        agentStatusRankCase a = agentStatusRankCase b ∧
          (b.lastVerifiedAt < a.lastVerifiedAt ∨ a.lastVerifiedAt = b.lastVerifiedAt ∧
            (a.displayName < b.displayName ∨ a.displayName = b.displayName ∧
              a.catalogAgentId < b.catalogAgentId)) := by
  unfold agentKey
  rw [Prod.Lex.toLex_lt_toLex, Prod.Lex.toLex_lt_toLex, Prod.Lex.toLex_lt_toLex]
  rfl

def agentKeyset : Keyset AgentRow AgentKey := Keyset.ofLinear agentKey

theorem agentKeyset_total : agentKeyset.Total := Keyset.ofLinear_total agentKey

theorem agentKeyset_before (a b : AgentRow) :
    agentKeyset.before (agentKeyset.key a) (agentKeyset.key b) =
      (agentStatusRankCase a < agentStatusRankCase b ||
        (agentStatusRankCase a = agentStatusRankCase b &&
          (b.lastVerifiedAt < a.lastVerifiedAt || (a.lastVerifiedAt = b.lastVerifiedAt &&
            (a.displayName < b.displayName || (a.displayName = b.displayName &&
              a.catalogAgentId < b.catalogAgentId)))))) := by
  rw [Bool.eq_iff_iff]
  simp only [Bool.or_eq_true, Bool.and_eq_true, decide_eq_true_eq]
  exact decide_eq_true_iff.trans (agentKey_lt a b)

theorem agentOrder_eq : agentOrder = agentKeyset.inOrder := by
  funext a b
  rw [Keyset.inOrder, agentKeyset_before]
  rfl

theorem nodup_agentKeys (tables : AgentTables) :
    (tables.agents.map agentKeyset.key).Nodup := by
  have hids : ((tables.agents.map agentKeyset.key).map
      fun key => (ofLex (ofLex (ofLex key).2).2).2).Nodup := by
    rw [List.map_map]
    exact tables.ids
  exact hids.of_map _

/-! ## 2. Cursors -/

/-- The text under an encoding. -/
theorem payloadOf_encode (payload : Text) :
    payloadOf (Base64.encode (String.ofList payload).toByteArray.data.toList) = .ok payload := by
  have hascii : (Base64.encode (String.ofList payload).toByteArray.data.toList).all
      (fun c => c.toNat < 0x80) = true := by
    apply List.all_eq_true.mpr
    intro c hc
    exact decide_eq_true (Base64.encode_ascii _ c hc)
  have hbytes : ByteArray.mk (String.ofList payload).toByteArray.data.toList.toArray =
      payload.utf8Encode := by
    rw [Array.toArray_toList, String.toByteArray_ofList]
  rw [payloadOf, if_pos hascii, Base64.decode_encode]
  simp only [hbytes, List.utf8Decode?_utf8Encode]

/-- The keys of a cursor that was encoded. -/
def cursorKeys (rank : Int) (lastVerifiedAt : Option Text) (displayName catalogAgentId : Text) :
    AgentCursor :=
  ⟨some rank, lastVerifiedAt.map PyText.text, .text displayName, .text catalogAgentId⟩

/-- `json.loads` reads back what `json.dumps` wrote. -/
def CursorJson.ReadsBack (json : CursorJson) (items : List JsonItem) : Prop :=
  ∃ loaded, json.loads (json.dumps items) = .ok loaded ∧ loaded = .array items

theorem decode_encodeAgentCursor {json : CursorJson} {rank : Int} {lastVerifiedAt : Option Text}
    {displayName catalogAgentId : Text}
    (hjson : json.ReadsBack (cursorItems rank lastVerifiedAt displayName catalogAgentId)) :
    decodeAgentCursor json (encodeAgentCursor json rank lastVerifiedAt displayName catalogAgentId) =
      .ok (some (cursorKeys rank lastVerifiedAt displayName catalogAgentId)) := by
  obtain ⟨_, hloads, rfl⟩ := hjson
  have hkeys : (Loaded.array (cursorItems rank lastVerifiedAt displayName catalogAgentId)).keys =
      some (cursorKeys rank lastVerifiedAt displayName catalogAgentId) := by
    cases lastVerifiedAt <;> rfl
  unfold decodeAgentCursor encodeAgentCursor
  simp only
  have hdrop : ∀ rest : Text, (cursorPrefix ++ rest).drop 3 = rest := fun rest => rfl
  rw [if_pos (List.isPrefixOf_iff_prefix.mpr (List.prefix_append _ _)), hdrop, payloadOf_encode]
  simp only [hloads, hkeys]

/-- The codec reads back the keys of the rows. -/
def ReadsBackRows (json : CursorJson) (rows : List AgentRow) : Prop :=
  ∀ row ∈ rows, json.ReadsBack (cursorItems (agentStatusRank row.verificationStatus)
    (some row.lastVerifiedAt) row.displayName row.catalogAgentId)

/-- The clauses of a row's cursor are the order of the keys. -/
theorem cursorAdmits_row (row other : AgentRow) :
    cursorAdmits ⟨some (agentStatusRank row.verificationStatus : Int), some row.lastVerifiedAt,
        row.displayName, row.catalogAgentId⟩ other =
      agentKeyset.before (agentKeyset.key row) (agentKeyset.key other) := by
  rw [agentKeyset_before, agentStatusRank_eq, Bool.eq_iff_iff]
  simp only [cursorAdmits, Option.any_some, Option.some.injEq, Int.natCast_inj, Bool.or_eq_true,
    Bool.and_eq_true, decide_eq_true_eq, Int.ofNat_lt]
  constructor
  · rintro (((hrank | ⟨hrank, htime⟩) | ⟨⟨hrank, htime⟩, hname⟩) | ⟨⟨⟨hrank, htime⟩, hname⟩, hid⟩)
    · exact Or.inl hrank
    · exact Or.inr ⟨hrank, Or.inl htime⟩
    · exact Or.inr ⟨hrank, Or.inr ⟨htime, Or.inl hname⟩⟩
    · exact Or.inr ⟨hrank, Or.inr ⟨htime, Or.inr ⟨hname, hid⟩⟩⟩
  · rintro (hrank | ⟨hrank, htime | ⟨htime, hname | ⟨hname, hid⟩⟩⟩)
    · exact Or.inl (Or.inl (Or.inl hrank))
    · exact Or.inl (Or.inl (Or.inr ⟨hrank, htime⟩))
    · exact Or.inl (Or.inr ⟨⟨hrank, htime⟩, hname⟩)
    · exact Or.inr ⟨⟨⟨hrank, htime⟩, hname⟩, hid⟩

theorem nextAgentCursor_ne_nil (json : CursorJson) (row : AgentRow) :
    (nextAgentCursor json row).isEmpty = false := rfl

theorem bindInt_ok {i : Int} (h : -0x8000000000000000 ≤ i ∧ i < 0x8000000000000000) :
    bindInt i = .ok i := by
  unfold bindInt
  rw [if_pos h]

theorem bindCursor_ok {rank : Int} (h : -0x8000000000000000 ≤ rank ∧ rank < 0x8000000000000000)
    (lastVerifiedAt name catalogAgentId : Text) :
    bindCursor (cursorKeys rank (some lastVerifiedAt) name catalogAgentId) =
      .ok ⟨some rank, some lastVerifiedAt, name, catalogAgentId⟩ := by
  have hbind := bindInt_ok h
  simp only [bindCursor, cursorKeys, bindOption, hbind, bindText, bind, Except.bind, pure,
    Except.pure, Except.map, Option.map_some]

theorem cursorCondition_eq {json : CursorJson} {cursor : Text} {keys : AgentCursor}
    {bound : BoundCursor} (hne : cursor.isEmpty = false)
    (hkeys : agentCursorKeys json cursor = .ok keys) (hbind : bindCursor keys = .ok bound) :
    cursorCondition json cursor = .ok (cursorAdmits bound) := by
  simp only [cursorCondition, hne, hkeys, hbind, bind, Except.bind, pure, Except.pure,
    Bool.false_eq_true, if_false]

/-- The condition of a row's cursor keeps the rows behind it. -/
theorem cursorCondition_row {json : CursorJson} {rows : List AgentRow}
    (hjson : ReadsBackRows json rows) {row : AgentRow} (hrow : row ∈ rows) :
    cursorCondition json (nextAgentCursor json row) =
      .ok (cursorAdmits ⟨some (agentStatusRank row.verificationStatus : Int),
        some row.lastVerifiedAt, row.displayName, row.catalogAgentId⟩) := by
  have hrank : (agentStatusRank row.verificationStatus : Int) ≤ 9 := by
    rw [agentStatusRank_eq]
    exact Int.ofNat_le.mpr (agentStatusRankCase_le row)
  have hkeys : agentCursorKeys json (nextAgentCursor json row) =
      .ok (cursorKeys (agentStatusRank row.verificationStatus) (some row.lastVerifiedAt)
        row.displayName row.catalogAgentId) := by
    unfold agentCursorKeys nextAgentCursor
    rw [decode_encodeAgentCursor (hjson row hrow)]
    rfl
  apply cursorCondition_eq (nextAgentCursor_ne_nil json row) hkeys
  apply bindCursor_ok
  constructor <;> omega

/-! ## 3. Pages -/

/-- The position of a cursor that a query of these rows is given. -/
def StandsAt (json : CursorJson) (rows : List AgentRow) (cursor : Text)
    (position : Option AgentKey) : Prop :=
  (cursor = [] ∧ position = none) ∨
    ∃ row ∈ rows, cursor = nextAgentCursor json row ∧ position = some (agentKey row)

theorem cursorCondition_ok {json : CursorJson} {rows : List AgentRow}
    (hjson : ReadsBackRows json rows) {cursor : Text} {position : Option AgentKey}
    (h : StandsAt json rows cursor position) :
    ∃ admits, cursorCondition json cursor = .ok admits ∧
      ∀ sorted, sorted.filter admits = agentKeyset.remaining position sorted := by
  rcases h with ⟨rfl, rfl⟩ | ⟨row, hrow, rfl, rfl⟩
  · exact ⟨_, rfl, fun sorted => List.filter_eq_self.mpr fun _ _ => rfl⟩
  · refine ⟨_, cursorCondition_row hjson hrow, fun sorted => ?_⟩
    exact List.filter_congr fun other _ => cursorAdmits_row row other

/-- The matching agents in the declared order. -/
def matching (rows : List AgentRow) (conditions : List AgentCondition) : List AgentRow :=
  (rows.filter fun row => conditions.all fun condition => condition row).mergeSort agentOrder

theorem nodup_matchingKeys (tables : AgentTables) (conditions : List AgentCondition) :
    ((tables.agents.filter fun row => conditions.all fun condition => condition row).map
      agentKeyset.key).Nodup :=
  (nodup_agentKeys tables).sublist (List.filter_sublist.map _)

theorem sorted_matching (tables : AgentTables) (conditions : List AgentCondition) :
    agentKeyset.Sorted (matching tables.agents conditions) := by
  rw [matching, agentOrder_eq]
  exact Keyset.sorted_mergeSort agentKeyset_total (nodup_matchingKeys tables conditions)

theorem mem_of_mem_matching {rows : List AgentRow} {conditions : List AgentCondition}
    {row : AgentRow} (h : row ∈ matching rows conditions) : row ∈ rows :=
  List.mem_of_mem_filter ((List.mergeSort_perm _ _).mem_iff.mp h)

theorem nodup_matching (tables : AgentTables) (conditions : List AgentCondition) :
    ((matching tables.agents conditions).map AgentRow.catalogAgentId).Nodup := by
  have hperm := (List.mergeSort_perm (tables.agents.filter fun row =>
    conditions.all fun condition => condition row) agentOrder).map AgentRow.catalogAgentId
  exact hperm.nodup_iff.mpr (tables.ids.sublist (List.filter_sublist.map _))

theorem agentPage_eq {json : CursorJson} {agents : List AgentRow}
    {conditions : List AgentCondition} {limit : Nat} {cursor : Text} {admits : AgentCondition}
    {count : Int} (hread : cursorCondition json cursor = .ok admits)
    (hcount : (limit : Int) + 1 = count) (hbind : bindInt count = .ok count) :
    agentPage json agents conditions limit cursor =
      .ok (paginateAgentRows json
        (((agents.filter fun row => (conditions.all fun condition => condition row) && admits row)
          |>.mergeSort agentOrder).take count.toNat) limit) := by
  unfold agentPage
  rw [hcount]
  simp only [hread, hbind, bind, Except.bind, pure, Except.pure]

theorem agentPage_ok {json : CursorJson} {tables : AgentTables}
    (hjson : ReadsBackRows json tables.agents) (conditions : List AgentCondition) {limit : Nat}
    (hbound : limit + 1 < 0x8000000000000000) {cursor : Text} {position : Option AgentKey}
    (h : StandsAt json tables.agents cursor position) :
    agentPage json tables.agents conditions limit cursor =
      .ok (paginateAgentRows json
        ((agentKeyset.remaining position (matching tables.agents conditions)).take (limit + 1))
        limit) := by
  obtain ⟨admits, hread, hadmits⟩ := cursorCondition_ok hjson h
  have hbind : bindInt ((limit : Int) + 1) = .ok ((limit : Int) + 1) := by
    apply bindInt_ok
    constructor <;> omega
  have hfilter : (tables.agents.filter fun row =>
      (conditions.all fun condition => condition row) && admits row) =
      (tables.agents.filter fun row => conditions.all fun condition => condition row).filter
        admits := by
    rw [List.filter_filter]
    exact List.filter_congr fun row _ => Bool.and_comm _ _
  have hsorted : ((tables.agents.filter fun row =>
      (conditions.all fun condition => condition row) && admits row).mergeSort agentOrder) =
      agentKeyset.remaining position (matching tables.agents conditions) := by
    rw [hfilter, matching, agentOrder_eq,
      Keyset.filter_mergeSort agentKeyset_total (nodup_matchingKeys tables conditions), hadmits]
  have hcount : ((limit : Int) + 1).toNat = limit + 1 := by omega
  rw [agentPage_eq hread rfl hbind, hsorted, hcount]

/-- A page says whether more rows remain. -/
theorem pageOf_agents {json : CursorJson} {rows remaining : List AgentRow} {limit : Nat}
    (hlimit : 0 < limit) (hmem : ∀ row ∈ remaining, row ∈ rows) :
    PageOf agentKeyset (fun _ => true) (StandsAt json rows) remaining
      (paginateAgentRows json (remaining.take (limit + 1)) limit) := by
  have hpage : paginateAgentRows json (remaining.take (limit + 1)) limit =
      (remaining.take limit, if limit < remaining.length then
        (remaining.take limit).getLast?.map (nextAgentCursor json) else none) := by
    have htake : (remaining.take (limit + 1)).take limit = remaining.take limit := by
      rw [List.take_take, Nat.min_eq_left (Nat.le_succ limit)]
    have hmore : limit < (remaining.take (limit + 1)).length ↔ limit < remaining.length := by
      rw [List.length_take]
      omega
    simp only [paginateAgentRows, htake, hmore]
  rw [hpage]
  exact pageOf_take hlimit _ fun row hrow => Or.inr ⟨row, hmem row hrow, rfl, rfl⟩

theorem agentPage_pages {json : CursorJson} {tables : AgentTables}
    (hjson : ReadsBackRows json tables.agents) (conditions : List AgentCondition) {limit : Nat}
    (hlimit : 0 < limit) (hbound : limit + 1 < 0x8000000000000000) :
    Pages agentKeyset (fun _ => true) (matching tables.agents conditions)
      (fun cursor => (agentPage json tables.agents conditions limit cursor).toOption)
      (StandsAt json tables.agents) := by
  intro cursor position hstands
  have hmem : ∀ row ∈ agentKeyset.remaining position (matching tables.agents conditions),
      row ∈ tables.agents := by
    intro row hrow
    have hsuffix := (sorted_matching tables conditions).remaining_suffix position
    exact mem_of_mem_matching (hsuffix.subset hrow)
  refine ⟨_, ?_, pageOf_agents hlimit hmem⟩
  simp only [agentPage_ok hjson conditions hbound hstands]
  rfl

/-! ## 4. What a cursor may raise -/

/-- A page, or the error that becomes a refusal of the request. -/
def Contained {α : Type} (result : Except QueryError α) : Prop :=
  (∃ a, result = .ok a) ∨ ∃ message, result = .error (.validation message)

theorem contained_ok {α : Type} (a : α) : Contained (.ok a : Except QueryError α) :=
  Or.inl ⟨a, rfl⟩

theorem contained_validation {α : Type} (message : String) :
    Contained (.error (.validation message) : Except QueryError α) :=
  Or.inr ⟨message, rfl⟩

theorem contained_bind {α β : Type} {x : Except QueryError α} {f : α → Except QueryError β} :
    Contained (x >>= f) ↔ Contained x ∧ ∀ a, x = .ok a → Contained (f a) := by
  cases x with
  | ok a =>
    constructor
    · intro h
      refine ⟨contained_ok a, ?_⟩
      rintro _ ⟨⟩
      exact h
    · exact fun h => h.2 a rfl
  | error e =>
    constructor
    · rintro (⟨b, hb⟩ | ⟨message, hmessage⟩)
      · cases hb
      · cases hmessage
        refine ⟨contained_validation message, ?_⟩
        rintro _ ⟨⟩
    · rintro ⟨⟨a, ha⟩ | ⟨message, hmessage⟩, -⟩
      · cases ha
      · cases hmessage
        exact contained_validation message

/-- The keys that SQLite takes. -/
structure AgentCursor.Fits (keys : AgentCursor) : Prop where
  rank : ∀ i, keys.rank = some i → -0x8000000000000000 ≤ i ∧ i < 0x8000000000000000
  lastVerifiedAt : keys.lastVerifiedAt ≠ some .surrogate
  name : keys.name ≠ .surrogate
  catalogAgentId : keys.catalogAgentId ≠ .surrogate

/-- The text that a cursor of the new form encodes. -/
def IsPayload (cursor payload : Text) : Prop :=
  cursorPrefix.isPrefixOf cursor = true ∧ payloadOf (cursor.drop 3) = .ok payload

/-- A cursor whose payload does not nest too deep, and whose keys SQLite takes. -/
structure CursorFits (json : CursorJson) (cursor : Text) : Prop where
  shallow : ∀ payload, IsPayload cursor payload →
    ∀ e, json.loads payload = .error e → e ≠ .recursionError
  bindable : ∀ payload loaded keys, IsPayload cursor payload → json.loads payload = .ok loaded →
    loaded.keys = some keys → keys.Fits

theorem contained_bindInt (i : Int) : Contained (bindInt i) ↔ -0x8000000000000000 ≤ i ∧ i < 0x8000000000000000 := by
  unfold bindInt
  split
  · rename_i hrange
    exact iff_of_true (contained_ok i) hrange
  · rename_i hrange
    apply iff_of_false _ hrange
    rintro (⟨a, ha⟩ | ⟨message, hmessage⟩)
    · cases ha
    · cases hmessage

theorem contained_bindText (t : PyText) : Contained (bindText t) ↔ t ≠ .surrogate := by
  cases t with
  | text t => exact iff_of_true (contained_ok t) (fun h => by cases h)
  | surrogate =>
    apply iff_of_false _ (fun h => h rfl)
    rintro (⟨a, ha⟩ | ⟨message, hmessage⟩)
    · cases ha
    · cases hmessage

theorem contained_bindOption {α β : Type} (f : α → Except QueryError β) (a : Option α) :
    Contained (bindOption f a) ↔ ∀ x, a = some x → Contained (f x) := by
  cases a with
  | none =>
    apply iff_of_true (contained_ok none)
    rintro x ⟨⟩
  | some x =>
    have hmap : Contained ((f x).map some) ↔ Contained (f x) := by
      cases hx : f x with
      | ok b => exact iff_of_true (contained_ok (some b)) (contained_ok b)
      | error e =>
        constructor
        · rintro (⟨b, hb⟩ | ⟨message, hmessage⟩)
          · cases hb
          · cases hmessage
            exact contained_validation message
        · rintro (⟨b, hb⟩ | ⟨message, hmessage⟩)
          · cases hb
          · cases hmessage
            exact contained_validation message
    exact hmap.trans ⟨fun h y hy => by cases hy; exact h, fun h => h x rfl⟩

theorem contained_bindCursor (keys : AgentCursor) : Contained (bindCursor keys) ↔ keys.Fits := by
  unfold bindCursor
  simp only [contained_bind, contained_bindOption, contained_bindInt, contained_bindText]
  constructor
  · rintro ⟨hrank, hrest⟩
    obtain ⟨rank, hrank'⟩ : ∃ rank, bindOption bindInt keys.rank = .ok rank := by
      cases hkeys : keys.rank with
      | none => exact ⟨none, rfl⟩
      | some i => exact ⟨some i, by rw [bindOption, bindInt_ok (hrank i hkeys)]; rfl⟩
    obtain ⟨htime, hrest⟩ := hrest rank hrank'
    obtain ⟨time, htime'⟩ : ∃ time, bindOption bindText keys.lastVerifiedAt = .ok time := by
      cases hkeys : keys.lastVerifiedAt with
      | none => exact ⟨none, rfl⟩
      | some t =>
        cases t with
        | text t => exact ⟨some t, rfl⟩
        | surrogate => exact absurd rfl (htime _ hkeys)
    obtain ⟨hname, hrest⟩ := hrest time htime'
    obtain ⟨name, hname'⟩ : ∃ name, bindText keys.name = .ok name := by
      cases hkeys : keys.name with
      | text t => exact ⟨t, rfl⟩
      | surrogate => exact absurd hkeys hname
    exact ⟨hrank, fun h => htime _ h rfl, hname, (hrest name hname').1⟩
  · intro h
    refine ⟨h.rank, fun rank _ => ⟨?_, fun time _ => ⟨h.name, fun name _ => ⟨h.catalogAgentId,
      fun id _ => contained_ok _⟩⟩⟩⟩
    rintro t ht rfl
    exact h.lastVerifiedAt ht

/-- Decoding is contained unless the payload nests too deep. -/
theorem contained_decode (json : CursorJson) (cursor : Text) :
    Contained (decodeAgentCursor json cursor) ↔
      ∀ payload, IsPayload cursor payload →
        ∀ e, json.loads payload = .error e → e ≠ .recursionError := by
  unfold decodeAgentCursor
  split
  · rename_i hversion
    cases hpayload : payloadOf (cursor.drop 3) with
    | error className =>
      apply iff_of_true (contained_validation _)
      rintro payload ⟨-, hp⟩
      rw [hpayload] at hp
      cases hp
    | ok payload =>
      have honly : ∀ payload', IsPayload cursor payload' → payload' = payload := by
        rintro payload' ⟨-, hp⟩
        rw [hpayload] at hp
        exact (Except.ok.inj hp).symm
      simp only
      cases hloads : json.loads payload with
      | error e =>
        cases e with
        | valueError className =>
          apply iff_of_true (contained_validation _)
          intro payload' hp e he
          rw [honly payload' hp, hloads] at he
          cases he
          exact fun h => by cases h
        | recursionError =>
          apply iff_of_false
          · rintro (⟨a, ha⟩ | ⟨message, hmessage⟩)
            · cases ha
            · cases hmessage
          · exact fun h => h payload ⟨hversion, hpayload⟩ _ hloads rfl
      | ok loaded =>
        apply iff_of_true
        · simp only
          split
          · exact contained_ok _
          · exact contained_validation _
        · intro payload' hp e he
          rw [honly payload' hp, hloads] at he
          cases he
  · rename_i hversion
    apply iff_of_true (contained_ok _)
    rintro payload ⟨hp, -⟩
    exact absurd hp hversion

/-- The keys that a decoded cursor has. -/
theorem decodeAgentCursor_some {json : CursorJson} {cursor : Text} {keys : AgentCursor} :
    decodeAgentCursor json cursor = .ok (some keys) ↔
      ∃ payload loaded, IsPayload cursor payload ∧ json.loads payload = .ok loaded ∧
        loaded.keys = some keys := by
  unfold decodeAgentCursor
  constructor
  · intro h
    split at h
    · rename_i hversion
      split at h
      · cases h
      · rename_i payload hpayload
        split at h
        · cases h
        · cases h
        · rename_i loaded hloads
          split at h
          · rename_i keys' hkeys
            cases h
            exact ⟨payload, loaded, ⟨hversion, hpayload⟩, hloads, hkeys⟩
          · cases h
    · cases h
  · rintro ⟨payload, loaded, ⟨hversion, hpayload⟩, hloads, hkeys⟩
    rw [if_pos hversion]
    simp only [hpayload, hloads, hkeys]

theorem contained_require {α : Type} (value : Option α) (message : String) :
    Contained (Checks.require value (.validation message)) := by
  cases value with
  | none => exact contained_validation message
  | some a => exact contained_ok a

theorem contained_cursorCondition (json : CursorJson) (cursor : Text) :
    Contained (cursorCondition json cursor) ↔ CursorFits json cursor := by
  unfold cursorCondition agentCursorKeys
  split
  · rename_i hempty
    have hnil : cursor = [] := List.isEmpty_iff.mp hempty
    subst hnil
    have hnot : ∀ payload, ¬ IsPayload [] payload := fun payload h => by cases h.1
    exact iff_of_true (contained_ok _) ⟨fun payload h => absurd h (hnot payload),
      fun payload loaded keys h => absurd h (hnot payload)⟩
  · simp only [contained_bind, contained_bindCursor, contained_decode]
    constructor
    · rintro ⟨⟨hshallow, -⟩, hbind⟩
      refine ⟨hshallow, fun payload loaded keys hp hloads hkeys => ?_⟩
      have hdecode := decodeAgentCursor_some.mpr ⟨payload, loaded, hp, hloads, hkeys⟩
      exact (hbind keys (by rw [hdecode]; rfl)).1
    · intro h
      refine ⟨⟨h.shallow, fun keys _ => contained_require keys _⟩, fun keys hok => ?_⟩
      obtain ⟨decoded, hdecode, hrequire⟩ := Checks.bind_eq_ok hok
      rw [Checks.require_eq_ok hrequire] at hdecode
      obtain ⟨payload, loaded, hp, hloads, hkeys⟩ := decodeAgentCursor_some.mp hdecode
      exact ⟨h.bindable payload loaded keys hp hloads hkeys, fun _ _ => contained_ok _⟩

theorem contained_agentPage (json : CursorJson) (agents : List AgentRow)
    (conditions : List AgentCondition) {limit : Nat} (hbound : limit + 1 < 0x8000000000000000)
    (cursor : Text) :
    Contained (agentPage json agents conditions limit cursor) ↔ CursorFits json cursor := by
  unfold agentPage
  rw [contained_bind, contained_cursorCondition]
  apply and_iff_left
  intro admits _
  rw [contained_bind, contained_bindInt]
  refine ⟨?_, fun _ _ => contained_ok _⟩
  constructor <;> omega

/-! ## 5. The three queries -/

inductive AgentQuery
  | list
  | byMerchant (merchantId : Text)
  | search (filters : AgentFilters)

def AgentQuery.run (json : CursorJson) (jsonEach : Text → Text → Bool) (tables : AgentTables)
    (limit : Nat) (cursor : Text) : AgentQuery → Except QueryError (List AgentRow × Option Text)
  | list => listCatalogAgents json tables limit cursor
  | byMerchant merchantId => listCatalogAgentsByMerchant json tables merchantId limit cursor
  | search filters => searchCatalogAgents json jsonEach tables filters limit cursor

def AgentQuery.conditions (jsonEach : Text → Text → Bool) (tables : AgentTables) :
    AgentQuery → List AgentCondition
  | list => []
  | byMerchant merchantId => [fun row => row.merchantId = some merchantId]
  | search filters => agentConditions jsonEach tables filters

theorem AgentQuery.run_eq (json : CursorJson) (jsonEach : Text → Text → Bool)
    (tables : AgentTables) (limit : Nat) (cursor : Text) (query : AgentQuery) :
    query.run json jsonEach tables limit cursor =
      agentPage json tables.agents (query.conditions jsonEach tables) limit cursor := by
  cases query <;> rfl

/-- Following the cursors of a query from the empty one ends with the matching agents in order, each
of them once; the cursor of a key is decoded to that key; and a query with a cursor of the caller's
answers with a page or a refusal exactly for the cursors that fit. -/
theorem agent_pages (json : CursorJson) (jsonEach : Text → Text → Bool) (tables : AgentTables)
    (query : AgentQuery) {limit : Nat} (hlimit : 0 < limit) (hbound : limit + 1 < 0x8000000000000000)
    (hjson : ReadsBackRows json tables.agents) :
    (follow (fun cursor => (query.run json jsonEach tables limit cursor).toOption)
        (tables.agents.length + 1) [] =
        some (matching tables.agents (query.conditions jsonEach tables)) ∧
      ((matching tables.agents (query.conditions jsonEach tables)).map
        AgentRow.catalogAgentId).Nodup) ∧
    (∀ rank lastVerifiedAt displayName catalogAgentId,
      json.ReadsBack (cursorItems rank lastVerifiedAt displayName catalogAgentId) →
        decodeAgentCursor json
            (encodeAgentCursor json rank lastVerifiedAt displayName catalogAgentId) =
          .ok (some (cursorKeys rank lastVerifiedAt displayName catalogAgentId))) ∧
    ∀ cursor, Contained (query.run json jsonEach tables limit cursor) ↔
      CursorFits json cursor := by
  refine ⟨⟨?_, nodup_matching tables _⟩, fun _ _ _ _ h => decode_encodeAgentCursor h, ?_⟩
  · simp only [AgentQuery.run_eq]
    have hpages := agentPage_pages hjson (query.conditions jsonEach tables) hlimit hbound
    have hstart : StandsAt json tables.agents [] none := Or.inl ⟨rfl, rfl⟩
    have hfuel : (agentKeyset.remaining none
        (matching tables.agents (query.conditions jsonEach tables))).length <
          tables.agents.length + 1 := by
      apply Nat.lt_succ_of_le
      show (matching _ _).length ≤ _
      rw [matching, List.length_mergeSort]
      exact List.length_filter_le _ _
    rw [(sorted_matching tables _).follow_eq hpages hstart hfuel]
    congr 1
    exact List.filter_eq_self.mpr fun _ _ => rfl
  · intro cursor
    rw [AgentQuery.run_eq]
    exact contained_agentPage json tables.agents _ hbound cursor

def discoveredAgent (id : Text) : AgentRow where
  catalogAgentId := id
  merchantId := none
  displayName := ['A']
  providerName := []
  canonicalDomain := []
  verificationStatus := "discovered".toList
  verificationLevel := "discovered".toList
  freshnessState := "fresh".toList
  administrativeState := "active".toList
  handoffDestinationTypes := ['[', ']']
  hostingMode := "unknown".toList
  lastVerifiedAt := []

/-- Two agents of one name, never verified. -/
def discoveredTables : AgentTables where
  agents := [discoveredAgent ['a'], discoveredAgent ['b']]
  merchants := []
  capabilities := []
  skills := []
  endpoints := []
  ids := by decide

def discoveredItems (id : Text) : List JsonItem := cursorItems 4 (some []) ['A'] id

def overflowItems : List JsonItem :=
  [.int 0x8000000000000000, .null, .text (.text []), .text (.text [])]

/-- Python's JSON of these arrays. -/
def sampleJson : CursorJson where
  dumps items :=
    if items = discoveredItems ['a'] then "[4, \"\", \"A\", \"a\"]".toList
    else "[4, \"\", \"A\", \"b\"]".toList
  loads payload :=
    if payload = "[4, \"\", \"A\", \"a\"]".toList then .ok (.array (discoveredItems ['a']))
    else if payload = "[4, \"\", \"A\", \"b\"]".toList then .ok (.array (discoveredItems ['b']))
    else if payload = "[9223372036854775808, null, \"\", \"\"]".toList then
      .ok (.array overflowItems)
    else .error (.valueError "JSONDecodeError")

theorem sampleJson_readsBack : ReadsBackRows sampleJson discoveredTables.agents := by
  have ha : sampleJson.ReadsBack (discoveredItems ['a']) := ⟨_, rfl, rfl⟩
  have hb : sampleJson.ReadsBack (discoveredItems ['b']) := ⟨_, rfl, rfl⟩
  intro row hrow
  have hpair : row ∈ [discoveredAgent ['a'], discoveredAgent ['b']] := hrow
  rw [List.mem_cons, List.mem_singleton] at hpair
  rcases hpair with rfl | rfl
  · exact ha
  · exact hb

theorem agent_pages_discovered :
    follow (fun cursor => (AgentQuery.list.run sampleJson (fun _ _ => false) discoveredTables 1
        cursor).toOption) 3 [] =
      some (matching discoveredTables.agents []) :=
  (agent_pages sampleJson (fun _ _ => false) discoveredTables .list Nat.one_pos (by decide)
    sampleJson_readsBack).1.1

def overflowPayload : Text := "[9223372036854775808, null, \"\", \"\"]".toList

/-- A rank that no integer of SQLite is. -/
def overflowCursor : Text :=
  cursorPrefix ++ Base64.encode (String.ofList overflowPayload).toByteArray.data.toList

/-- The overflow is neither a page nor a refusal. -/
theorem overflow_escapes :
    ¬ Contained (listCatalogAgents sampleJson discoveredTables 20 overflowCursor) := by
  intro h
  have hfits := (contained_agentPage sampleJson discoveredTables.agents [] (by decide) _).mp h
  have hpayload : IsPayload overflowCursor overflowPayload :=
    ⟨List.isPrefixOf_iff_prefix.mpr (List.prefix_append _ _), payloadOf_encode overflowPayload⟩
  have hkeys := hfits.bindable _ _ _ hpayload rfl rfl
  exact absurd (hkeys.rank _ rfl).2 (by decide)

end KiwiCatalog.Catalog.AgentPages
