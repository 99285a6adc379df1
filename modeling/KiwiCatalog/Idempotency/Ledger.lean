import KiwiCatalog.Catalog.Payload
import KiwiCatalog.Lib.IsoText
import KiwiCatalog.Lib.Table

/-!
# Ledger — the rows of `agent_catalog_write_idempotency`

A request with an idempotency key claims the row of its triple, completes it with its response, and
is answered from it when it comes again.  A completion may prune the rows that were completed more
than seven days ago.
-/

set_option autoImplicit false

namespace KiwiCatalog.Idempotency

open IsoText

inductive Endpoint
  | register
  | refresh
  | verify
  | claim
  | suspend
  | reinstate
  | publish
  deriving DecidableEq, Repr

/-- The primary key. -/
structure Triple where
  endpoint : Endpoint
  actorKey : String
  idempotencyKey : String
  deriving DecidableEq, Repr

/-- What a request presents to the ledger and to the limiters; `domain` is the canonical domain of a
registration. -/
structure Request where
  triple : Triple
  requestHash : String
  domain : String
  deriving DecidableEq, Repr

/-- A request without a key takes no part in idempotency. -/
def Request.keyed (r : Request) : Bool := r.triple.idempotencyKey ≠ ""

inductive RowStatus
  | processing
  | completed
  deriving DecidableEq, Repr

structure LedgerRow (ρ : Type) where
  triple : Triple
  requestHash : String
  status : RowStatus
  response : Dict
  updatedAt : DateTime
  -- not stored: the request that inserted the row
  owner : ρ

inductive Failure
  | idempotencyConflict (message : String)
  | rateLimit (message : String)
  -- raised by the checks and the work of the handlers, or by the database
  | raised (what : String)
  deriving DecidableEq, Repr

variable {ρ : Type}

/-- `now_iso()`: the clock without its microseconds. -/
def nowIso (now : UtcClock) : DateTime :=
  .utc (now.1 / 1000000 * 1000000) (Nat.lt_of_le_of_lt (Nat.div_mul_le_self _ _) now.2)

/-! ## Statements -/

def replay (ledger : List (LedgerRow ρ)) (r : Request) : Except Failure (Option Dict) :=
  if r.keyed = false then .ok none
  else
    match Table.lookup LedgerRow.triple r.triple ledger with
    | none => .ok none
    | some row =>
      if row.requestHash ≠ r.requestHash then
        .error (.idempotencyConflict "idempotency key was reused with a different request")
      else if row.status ≠ .completed then
        .error (.idempotencyConflict "idempotent request is still processing")
      else .ok (some (row.response.set "idempotent" (.bool true)))

/-- The row that a claim inserts. -/
def claimRow (r : Request) (owner : ρ) (now : UtcClock) : LedgerRow ρ :=
  ⟨r.triple, r.requestHash, .processing, [], nowIso now, owner⟩

/-- The response to replay, or the ledger with the claim. -/
def claim (ledger : List (LedgerRow ρ)) (r : Request) (owner : ρ) (now : UtcClock) :
    Except Failure (Option Dict × List (LedgerRow ρ)) :=
  if r.keyed = false then .ok (none, ledger)
  else
    match Table.insert? LedgerRow.triple (claimRow r owner now) ledger with
    | some ledger' => .ok (none, ledger')
    | none =>
      match replay ledger r with
      | .error e => .error e
      | .ok response => .ok (response, ledger)

def retentionDays : Nat := 7

/-- `datetime.now(UTC) - timedelta(days=7)`. -/
def cutoff (now : UtcClock) : UtcClock :=
  ⟨now.1 - retentionDays * 86400000000, Nat.lt_of_le_of_lt (Nat.sub_le _ _) now.2⟩

/-- `delete … where status = 'completed' and updated_at < ?`, a comparison of texts. -/
def prune (now : UtcClock) (ledger : List (LedgerRow ρ)) : List (LedgerRow ρ) :=
  Table.deleteWhere (fun row => decide (row.status = .completed) &&
    decide (row.updatedAt.isoformat < (cutoff now).time.isoformat)) ledger

def pruneEvery : Nat := 128

/-- The rows that belong to the request, as the completion and the clearing select them. -/
def ofRequest (r : Request) (row : LedgerRow ρ) : Bool :=
  row.triple = r.triple && row.requestHash = r.requestHash

def completeRow (response : Dict) (now : UtcClock) (row : LedgerRow ρ) : LedgerRow ρ :=
  { row with status := .completed, response := response, updatedAt := nowIso now }

/-- `count` is the number of completions of the process, this one included. -/
def complete (ledger : List (LedgerRow ρ)) (r : Request) (response : Dict) (count : Nat)
    (now : UtcClock) : List (LedgerRow ρ) :=
  if r.keyed = false then ledger
  else
    Table.updateWhere (ofRequest r) (completeRow response now)
      (if count % pruneEvery = 0 then prune now ledger else ledger)

def clear (ledger : List (LedgerRow ρ)) (r : Request) : List (LedgerRow ρ) :=
  if r.keyed = false then ledger
  else Table.deleteWhere (fun row => ofRequest r row && decide (row.status = .processing)) ledger

/-! ## What the statements do -/

/-- A row of the triple that the request cannot be answered from. -/
def Mismatch (ledger : List (LedgerRow ρ)) (r : Request) : Prop :=
  r.keyed = true ∧ ∃ row ∈ ledger, row.triple = r.triple ∧ row.requestHash ≠ r.requestHash

theorem wall_nowIso_le (now : UtcClock) : (nowIso now).wall ≤ now.1 := Nat.div_mul_le_self _ _

theorem wall_nowIso_mono {now later : UtcClock} (h : now.1 ≤ later.1) :
    (nowIso now).wall ≤ (nowIso later).wall :=
  Nat.mul_le_mul_right _ (Nat.div_le_div_right h)

/-- The prune takes completed rows only, and none within the retention. -/
theorem mem_prune {now : UtcClock} {ledger : List (LedgerRow ρ)} {row : LedgerRow ρ} :
    row ∈ prune now ledger ↔ row ∈ ledger ∧
      (row.status = .completed → (cutoff now).1 ≤ row.updatedAt.wall) := by
  have htext : row.updatedAt.isoformat < (cutoff now).time.isoformat ↔
      row.updatedAt.wall < (cutoff now).1 := isoformat_lt_utc_iff row.updatedAt (cutoff now).2
  rw [prune, Table.mem_deleteWhere, Bool.and_eq_false_iff, decide_eq_false_iff_not,
    decide_eq_false_iff_not, htext]
  constructor
  · rintro ⟨hrow, hkept⟩
    refine ⟨hrow, fun hdone => ?_⟩
    rcases hkept with hopen | hlate
    · exact absurd hdone hopen
    · omega
  · rintro ⟨hrow, hkept⟩
    refine ⟨hrow, ?_⟩
    by_cases hdone : row.status = .completed
    · have hlate := hkept hdone
      exact .inr (by omega)
    · exact .inl hdone

theorem replay_of_mismatch {ledger : List (LedgerRow ρ)} {r : Request}
    (hunique : Table.KeyUnique LedgerRow.triple ledger) (h : Mismatch ledger r) :
    replay ledger r =
      .error (.idempotencyConflict "idempotency key was reused with a different request") := by
  obtain ⟨hkeyed, row, hrow, htriple, hhash⟩ := h
  have hlookup := Table.lookup_of_mem hunique hrow
  rw [htriple] at hlookup
  unfold replay
  rw [hkeyed, hlookup]
  simp [hhash]

theorem claim_of_mismatch {ledger : List (LedgerRow ρ)} {r : Request}
    (hunique : Table.KeyUnique LedgerRow.triple ledger) (h : Mismatch ledger r) (owner : ρ)
    (now : UtcClock) :
    claim ledger r owner now =
      .error (.idempotencyConflict "idempotency key was reused with a different request") := by
  have hreplay := replay_of_mismatch hunique h
  obtain ⟨hkeyed, row, hrow, htriple, -⟩ := h
  have hnone : Table.insert? LedgerRow.triple (claimRow r owner now) ledger = none := by
    unfold Table.insert?
    rw [if_pos]
    rw [List.any_eq_true]
    exact ⟨row, hrow, decide_eq_true htriple⟩
  unfold claim
  rw [hkeyed, hnone, hreplay]
  rfl

theorem replay_ok_none {ledger : List (LedgerRow ρ)} {r : Request} (hkeyed : r.keyed = true)
    (h : replay ledger r = .ok none) : ∀ row ∈ ledger, row.triple ≠ r.triple := by
  unfold replay at h
  rw [if_neg (by simp [hkeyed])] at h
  split at h
  · rename_i hlookup
    exact Table.lookup_eq_none.mp hlookup
  · split at h
    · cases h
    · split at h <;> cases h

/-- A claim that is to work inserts the row of a free triple. -/
theorem claim_inserted {ledger ledger' : List (LedgerRow ρ)} {r : Request} {owner : ρ}
    {now : UtcClock} (hkeyed : r.keyed = true)
    (h : claim ledger r owner now = .ok (none, ledger')) :
    (∀ row ∈ ledger, row.triple ≠ r.triple) ∧ ledger' = ledger ++ [claimRow r owner now] := by
  unfold claim at h
  rw [if_neg (by simp [hkeyed])] at h
  split at h
  · rename_i inserted hinsert
    obtain ⟨hfree, rfl⟩ := Table.insert?_eq_some hinsert
    exact ⟨hfree, (congrArg Prod.snd (Except.ok.inj h)).symm⟩
  · rename_i hinsert
    split at h
    · cases h
    · rename_i response hreplay
      have hnone : response = none := congrArg Prod.fst (Except.ok.inj h)
      rw [hnone] at hreplay
      -- the row that the insert has met is there
      have hfree := replay_ok_none hkeyed hreplay
      unfold Table.insert? at hinsert
      rw [if_neg] at hinsert
      · cases hinsert
      · rw [Bool.not_eq_true, List.any_eq_false]
        intro row hrow heq
        exact hfree row hrow (of_decide_eq_true heq)

/-- A claim that meets a row is answered as a lookup is. -/
theorem claim_replayed {ledger ledger' : List (LedgerRow ρ)} {r : Request} {owner : ρ}
    {now : UtcClock} {response : Dict} (hkeyed : r.keyed = true)
    (h : claim ledger r owner now = .ok (some response, ledger')) :
    replay ledger r = .ok (some response) := by
  unfold claim at h
  rw [if_neg (by simp [hkeyed])] at h
  split at h
  · cases h
  · split at h
    · cases h
    · rename_i response' hreplay
      have hsome : response' = some response := congrArg Prod.fst (Except.ok.inj h)
      rw [hsome] at hreplay
      exact hreplay

/-- Where there is no row of the triple, a request is neither answered nor refused. -/
theorem replay_of_free {ledger : List (LedgerRow ρ)} {r : Request}
    (h : ∀ row ∈ ledger, row.triple ≠ r.triple) : replay ledger r = .ok none := by
  unfold replay
  rw [Table.lookup_eq_none.mpr h]
  split <;> rfl

theorem replay_of_processing {ledger : List (LedgerRow ρ)} {r : Request} {row : LedgerRow ρ}
    (hkeyed : r.keyed = true) (hunique : Table.KeyUnique LedgerRow.triple ledger)
    (hrow : row ∈ ledger) (htriple : row.triple = r.triple)
    (hhash : row.requestHash = r.requestHash) (hstatus : row.status = .processing) :
    replay ledger r =
      .error (.idempotencyConflict "idempotent request is still processing") := by
  have hlookup := Table.lookup_of_mem hunique hrow
  rw [htriple] at hlookup
  unfold replay
  rw [hkeyed, hlookup]
  simp [hhash, hstatus]

theorem mem_complete {ledger : List (LedgerRow ρ)} {r : Request} {response : Dict} {count : Nat}
    {now : UtcClock} {row : LedgerRow ρ} (h : row ∈ complete ledger r response count now) :
    row ∈ ledger ∨ ∃ row₀ ∈ ledger, ofRequest r row₀ = true ∧ row = completeRow response now row₀ := by
  have hpruned : ∀ row₀ : LedgerRow ρ,
      row₀ ∈ (if count % pruneEvery = 0 then prune now ledger else ledger) → row₀ ∈ ledger := by
    intro row₀ hrow₀
    split at hrow₀
    · exact (mem_prune.mp hrow₀).1
    · exact hrow₀
  unfold complete at h
  split at h
  · exact .inl h
  · obtain ⟨row₀, hrow₀, heq⟩ := Table.mem_updateWhere.mp h
    split at heq
    · rename_i hof
      exact .inr ⟨row₀, hpruned row₀ hrow₀, hof, heq.symm⟩
    · rw [← heq]
      exact .inl (hpruned row₀ hrow₀)

/-- A row that a completion neither prunes nor completes stays. -/
theorem mem_complete_of {ledger : List (LedgerRow ρ)} {r : Request} {response : Dict} {count : Nat}
    {now : UtcClock} {row : LedgerRow ρ} (hrow : row ∈ ledger)
    (hlate : row.status = .completed → (cutoff now).1 ≤ row.updatedAt.wall)
    (hother : ofRequest r row = false) : row ∈ complete ledger r response count now := by
  unfold complete
  split
  · exact hrow
  · apply Table.mem_updateWhere_of_not _ hother
    split
    · exact mem_prune.mpr ⟨hrow, hlate⟩
    · exact hrow

/-- The claimed row of the request is completed, whatever is pruned. -/
theorem mem_complete_own {ledger : List (LedgerRow ρ)} {r : Request} {response : Dict} {count : Nat}
    {now : UtcClock} {row : LedgerRow ρ} (hkeyed : r.keyed = true) (hrow : row ∈ ledger)
    (hstatus : row.status = .processing) (hof : ofRequest r row = true) :
    completeRow response now row ∈ complete ledger r response count now := by
  unfold complete
  rw [if_neg (by simp [hkeyed])]
  apply Table.mem_updateWhere_of _ hof
  split
  · refine mem_prune.mpr ⟨hrow, fun hdone => ?_⟩
    rw [hstatus] at hdone
    cases hdone
  · exact hrow

/-- A completion leaves a row of each triple with its owner, but for the rows that it prunes. -/
theorem complete_keeps {ledger : List (LedgerRow ρ)} (r : Request) (response : Dict) (count : Nat)
    (now : UtcClock) {row : LedgerRow ρ} (hrow : row ∈ ledger) :
    (∃ row' ∈ complete ledger r response count now, row'.triple = row.triple ∧
        row'.owner = row.owner) ∨
      (row.status = .completed ∧ row.updatedAt.wall < (cutoff now).1) := by
  by_cases hpruned : row.status = .completed ∧ row.updatedAt.wall < (cutoff now).1
  · exact .inr hpruned
  · left
    have hlate : row.status = .completed → (cutoff now).1 ≤ row.updatedAt.wall :=
      fun hdone => Nat.le_of_not_lt fun hlt => hpruned ⟨hdone, hlt⟩
    cases hof : ofRequest r row with
    | false => exact ⟨row, mem_complete_of hrow hlate hof, rfl, rfl⟩
    | true =>
      unfold complete
      split
      · exact ⟨row, hrow, rfl, rfl⟩
      · refine ⟨completeRow response now row, Table.mem_updateWhere_of ?_ hof, rfl, rfl⟩
        split
        · exact mem_prune.mpr ⟨hrow, hlate⟩
        · exact hrow

theorem keyUnique_complete {ledger : List (LedgerRow ρ)}
    (h : Table.KeyUnique LedgerRow.triple ledger) (r : Request) (response : Dict) (count : Nat)
    (now : UtcClock) : Table.KeyUnique LedgerRow.triple (complete ledger r response count now) := by
  unfold complete
  split
  · exact h
  · apply Table.keyUnique_updateWhere
    · intro row
      rfl
    · split
      · exact Table.keyUnique_deleteWhere h
      · exact h

end KiwiCatalog.Idempotency
