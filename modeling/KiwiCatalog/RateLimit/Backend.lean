import KiwiCatalog.Lib.FixedWindow
import KiwiCatalog.Lib.IsoText
import KiwiCatalog.Lib.Table

/-!
# Backend — the limiter over one table of windows

`β` names the backend objects and `κ` the keys, in any number.  A window is named by the text of
its start, and old windows are found by comparing texts.
-/

set_option autoImplicit false

namespace KiwiCatalog.RateLimit

open FixedWindow IsoText

/-- The seconds from year 1 to 1970. -/
def epochSeconds : Nat := 62135596800

/-- A reading of the UTC clock, in microseconds from year 1. -/
structure Reading where
  micros : Nat
  epoch_le : epochSeconds * 1000000 ≤ micros
  lt_max : micros < maxMicroseconds

/-- `isoformat` of a naive time. -/
def naiveText (micros : Nat) : Text :=
  secondText (micros / 1000000) ++ fractionText (micros % 1000000)

def rateLimitRetentionDays : Nat := 7

def rateLimitPruneEvery : Nat := 128

structure WindowRow (κ : Type) where
  key : κ
  windowStart : Text
  requestCount : Nat
  updatedAt : Text

variable {β κ : Type} [DecidableEq β] [DecidableEq κ]

def WindowRow.id (r : WindowRow κ) : κ × Text := (r.key, r.windowStart)

/-- The shared table, and the `_consume_count` of each backend object. -/
structure Limiter (β κ : Type) where
  rows : List (WindowRow κ)
  consumeCount : β → Nat

/-- The retention, in microseconds. -/
def retention : Nat := rateLimitRetentionDays * 86400 * 1000000

def cutoff (now : Reading) : Text := naiveText (now.micros - retention)

/-- `_prune_expired_windows` with a window to keep. -/
def pruneExpiredWindows (now : Reading) (keepWindowStart : Text) (rows : List (WindowRow κ)) :
    List (WindowRow κ) :=
  Table.deleteWhere
    (fun r => decide (r.windowStart < cutoff now) && decide (r.windowStart ≠ keepWindowStart)) rows

/-- `insert … on conflict do update … where request_count < ?`; `none` is a row count of zero. -/
def upsert? (key : κ) (windowStart : Text) (limit : Int) (updatedAt : Text)
    (rows : List (WindowRow κ)) : Option (List (WindowRow κ)) :=
  match Table.lookup WindowRow.id (key, windowStart) rows with
  | none => some (rows ++ [⟨key, windowStart, 1, updatedAt⟩])
  | some r =>
    if (r.requestCount : Int) < limit then
      some (Table.updateWhere (fun r => decide (r.id = (key, windowStart)))
        (fun r => { r with requestCount := r.requestCount + 1, updatedAt := updatedAt }) rows)
    else none

/-- One call: who makes it, the readings of the clock in the order they are taken, and whether the
deletion raises a database error. -/
structure Call (β κ : Type) where
  backend : β
  key : κ
  current : Reading
  pruneNow : Reading
  updatedNow : Reading
  pruneFails : Bool

def prunes (consumeCount : Nat) : Bool :=
  consumeCount == 1 || consumeCount % rateLimitPruneEvery == 0

/-- The rows after the pruning of a call, if it prunes; an error of the database is passed over. -/
def pruned (s : Limiter β κ) (c : Call β κ) (windowStart : Text) : List (WindowRow κ) :=
  if prunes (s.consumeCount c.backend + 1) && !c.pruneFails then
    pruneExpiredWindows c.pruneNow windowStart s.rows
  else s.rows

/-- `consume` of a backend; the truth value is what it returns. -/
def consume (s : Limiter β κ) (c : Call β κ) (windowStart : Text) (limit : Int) :
    Bool × Limiter β κ :=
  let rows := pruned s c windowStart
  let consumeCount := fun b =>
    if b = c.backend then s.consumeCount b + 1 else s.consumeCount b
  match upsert? c.key windowStart limit (naiveText c.updatedNow.micros) rows with
  | some rows => (true, ⟨rows, consumeCount⟩)
  | none => (false, ⟨rows, consumeCount⟩)

/-- The second in which the window of a reading starts. -/
def windowSecond (current : Reading) (windowSeconds : Nat) : Nat :=
  epochSeconds + windowStart windowSeconds (current.micros / 1000000 - epochSeconds)

def fixedWindowStart (current : Reading) (windowSeconds : Nat) : Text :=
  secondText (windowSecond current windowSeconds)

/-- `false` is the `RateLimitError`. -/
def enforceRateLimit? (s : Limiter β κ) (c : Call β κ) (limit : Int) (windowSeconds : Nat) :
    Bool × Limiter β κ :=
  if limit ≤ 0 then (true, s)
  else consume s c (fixedWindowStart c.current windowSeconds) limit

/-- The limit and the window length of every key. -/
structure Policy (κ : Type) where
  limit : κ → Int
  windowSeconds : κ → Nat
  limit_pos : ∀ k, 0 < limit k
  window_pos : ∀ k, 0 < windowSeconds k
  window_le : ∀ k, windowSeconds k ≤ 86400

variable (policy : Policy κ)

def serve (s : Limiter β κ) (c : Call β κ) : Bool × Limiter β κ :=
  enforceRateLimit? s c (policy.limit c.key) (policy.windowSeconds c.key)

def Limiter.empty : Limiter β κ := ⟨[], fun _ => 0⟩

/-- The state after calls made in turn. -/
def serveAll (s : Limiter β κ) (calls : List (Call β κ)) : Limiter β κ :=
  calls.foldl (fun s c => (serve policy s c).2) s

def Call.window (c : Call β κ) : Text := fixedWindowStart c.current (policy.windowSeconds c.key)

/-- What a table says of a key and a window: no row is zero. -/
def counter (rows : List (WindowRow κ)) (key : κ) (window : Text) : Nat :=
  match Table.lookup WindowRow.id (key, window) rows with
  | none => 0
  | some r => r.requestCount

/-- The calls of a key in a window. -/
def callsOf (key : κ) (window : Text) (calls : List (Call β κ)) : List (Call β κ) :=
  calls.filter fun c => decide (c.key = key ∧ c.window policy = window)

def Call.readings (c : Call β κ) : List Nat :=
  [c.current.micros, c.pruneNow.micros, c.updatedNow.micros]

/-- The readings of the clock never decrease, from one call to the next as well as within one. -/
def Ordered (calls : List (Call β κ)) : Prop := (calls.flatMap Call.readings).Pairwise (· ≤ ·)

/-! ## What each statement does to a counter -/

omit [DecidableEq β] [DecidableEq κ] in
/-- The text order against a cutoff is the order of the times. -/
theorem secondText_lt_naiveText {second micros : Nat} (hs : second < maxSeconds)
    (hm : micros < maxMicroseconds) :
    secondText second < naiveText micros ↔ second * 1000000 < micros := by
  have hsec : micros / 1000000 < maxSeconds :=
    Nat.div_lt_of_lt_mul (by rwa [Nat.mul_comm])
  have hfraction : ([] : Text) < fractionText (micros % 1000000) ↔ micros % 1000000 ≠ 0 := by
    unfold fractionText
    by_cases hzero : micros % 1000000 = 0
    · simp [hzero]
    · simp [hzero]
  have happ := encodes_secondText.append_lt_iff hs hsec [] (fractionText (micros % 1000000))
  rw [List.append_nil] at happ
  rw [naiveText, happ, hfraction]
  omega

omit [DecidableEq β] in
theorem counter_prune_kept {now : Reading} {keep window : Text} {rows : List (WindowRow κ)} {k : κ}
    (h : ¬ (window < cutoff now ∧ window ≠ keep)) :
    counter (pruneExpiredWindows now keep rows) k window = counter rows k window := by
  have hlookup : Table.lookup WindowRow.id (k, window) (pruneExpiredWindows now keep rows) =
      Table.lookup WindowRow.id (k, window) rows := by
    apply Table.lookup_deleteWhere_of_ne
    intro r hr heq
    have hwindow : r.windowStart = window := congrArg Prod.snd heq
    rw [hwindow, Bool.and_eq_true, decide_eq_true_eq, decide_eq_true_eq] at hr
    exact h hr
  rw [counter, counter, hlookup]

omit [DecidableEq β] in
theorem counter_prune_dropped {now : Reading} {keep window : Text} {rows : List (WindowRow κ)}
    {k : κ} (h : window < cutoff now ∧ window ≠ keep) :
    counter (pruneExpiredWindows now keep rows) k window = 0 := by
  have hlookup : Table.lookup WindowRow.id (k, window) (pruneExpiredWindows now keep rows) =
      none := by
    rw [Table.lookup_eq_none]
    intro r hr heq
    have hwindow : r.windowStart = window := congrArg Prod.snd heq
    have hkept := (Table.mem_deleteWhere.mp hr).2
    rw [hwindow, decide_eq_true h.1, decide_eq_true h.2] at hkept
    cases hkept
  rw [counter, hlookup]

omit [DecidableEq β] in
/-- A request that is let through is counted, under its own key and window only. -/
theorem upsert?_eq_some {key : κ} {window : Text} {limit : Int} {updatedAt : Text}
    {rows rows' : List (WindowRow κ)} (h : upsert? key window limit updatedAt rows = some rows')
    (k : κ) (w : Text) :
    counter rows' k w = counter rows k w + (if k = key ∧ w = window then 1 else 0) := by
  unfold upsert? at h
  cases hrow : Table.lookup WindowRow.id (key, window) rows with
  | none =>
    rw [hrow] at h
    rw [← Option.some.inj h, counter, counter, Table.lookup_append]
    by_cases hself : k = key ∧ w = window
    · rw [hself.1, hself.2, hrow]
      simp [WindowRow.id]
    · -- the new row is not the one that is looked up
      have hne : ¬ (key, window) = (k, w) := fun heq =>
        hself ⟨(congrArg Prod.fst heq).symm, (congrArg Prod.snd heq).symm⟩
      rw [if_neg hself, WindowRow.id, if_neg hne, Option.or_none, Nat.add_zero]
  | some r =>
    rw [hrow] at h
    dsimp only at h
    by_cases hroom : (r.requestCount : Int) < limit
    · rw [if_pos hroom] at h
      rw [← Option.some.inj h, counter, counter,
        Table.lookup_updateWhere (by intro r'; rfl)]
      by_cases hself : k = key ∧ w = window
      · rw [hself.1, hself.2, hrow]
        simp
      · have hne : ¬ (k, w) = (key, window) := fun heq =>
          hself ⟨congrArg Prod.fst heq, congrArg Prod.snd heq⟩
        rw [if_neg hself, if_neg hne, Nat.add_zero]
    · rw [if_neg hroom] at h
      cases h

omit [DecidableEq β] in
theorem upsert?_isSome {key : κ} {window : Text} {limit : Int} (hlimit : 0 < limit)
    {updatedAt : Text} {rows : List (WindowRow κ)} :
    (upsert? key window limit updatedAt rows).isSome = true ↔
      (counter rows key window : Int) < limit := by
  unfold upsert? counter
  cases hrow : Table.lookup WindowRow.id (key, window) rows with
  | none => simpa using hlimit
  | some r =>
    by_cases hroom : (r.requestCount : Int) < limit
    · simp [hroom]
    · simp [hroom]

end KiwiCatalog.RateLimit
