import KiwiCatalog.Lib.IsoMicroseconds
import KiwiCatalog.Lib.Table
import Mathlib.Data.List.Sort

/-!
# Events — the public event stream of a merchant

`merchant_public_events` with its version and its timestamp for each merchant.  A timestamp is the
clock's unless the merchant's latest one is not before it; then it is one microsecond after that.
-/

set_option autoImplicit false

namespace KiwiCatalog.Feed

open IsoText

inductive EventType
  | productAdded
  | productUpdated
  | faqUpdated
  | serviceNotice
  | publicationWithdrawn
  deriving DecidableEq, Repr

/-- What the stream does with payloads: their JSON, the sanitising of links, their category. -/
structure Payloads (π : Type) where
  encodeJson : π → String
  decodeJson : String → π
  sanitize : π → π
  category : π → String

structure EventRow where
  eventId : String
  merchantId : String
  publicationId : String
  eventType : EventType
  version : Nat
  payloadJson : String
  createdAt : Text
  deriving DecidableEq, Repr

structure Event (π : Type) where
  eventId : String
  merchantId : String
  publicationId : String
  eventType : EventType
  version : Nat
  payload : π
  createdAt : Text

variable {π : Type}

def rowToEvent (payloads : Payloads π) (row : EventRow) : Event π :=
  ⟨row.eventId, row.merchantId, row.publicationId, row.eventType, row.version,
    payloads.sanitize (payloads.decodeJson row.payloadJson), row.createdAt⟩

/-- `where merchant_id = ?`, in the order of insertion. -/
def eventsOf (events : List EventRow) (merchantId : String) : List EventRow :=
  events.filter fun e => e.merchantId = merchantId

/-! ## Emission -/

/-- `max(version)`, where none is zero. -/
def maxVersion (rows : List EventRow) : Nat := rows.foldr (fun e v => max e.version v) 0

/-- `max(created_at)` of texts, where none is the empty text. -/
def maxCreatedAt (rows : List EventRow) : Text :=
  rows.foldr (fun e latest => if latest < e.createdAt then e.createdAt else latest) []

/-- One microsecond later; `none` is the overflow of the last year. -/
def nextMicrosecond (t : UtcClock) : Option UtcClock :=
  if h : t.1 + 1 < maxMicroseconds then some ⟨t.1 + 1, h⟩ else none

def nextVersionAndTimestamp (events : List EventRow) (merchantId : String) (now : UtcClock) :
    Option (Nat × Text) :=
  let rows := eventsOf events merchantId
  let version := maxVersion rows + 1
  let previous := maxCreatedAt rows
  if previous ≠ [] ∧ ¬ previous < now.text then
    ((fromisoformat previous).bind nextMicrosecond).map fun t => (version, t.text)
  else some (version, now.text)

/-- `none` is an exception: the overflow of the timestamp, or a taken id or version. -/
def emitPublicEvent (payloads : Payloads π) (events : List EventRow) (eventId merchantId : String)
    (publicationId : String) (eventType : EventType) (payload : π) (now : UtcClock) :
    Option (List EventRow) :=
  (nextVersionAndTimestamp events merchantId now).bind fun stamp =>
    let row : EventRow := ⟨eventId, merchantId, publicationId, eventType, stamp.1,
      payloads.encodeJson (payloads.sanitize payload), stamp.2⟩
    if events.any fun e => e.eventId = eventId ||
        (e.merchantId = merchantId && e.version = row.version)
    then none else some (events ++ [row])

/-! ## Reading after a watermark -/

/-- `order by created_at asc, version asc`. -/
def inOrder (a b : EventRow) : Bool :=
  a.createdAt < b.createdAt || (a.createdAt = b.createdAt && a.version ≤ b.version)

def rowsAfter (events : List EventRow) (merchantId : String) (lastSeenAt : Text) (limit : Nat) :
    List EventRow :=
  (((eventsOf events merchantId).filter fun e => lastSeenAt < e.createdAt).mergeSort inOrder).take
    limit

def listEventsAfter (payloads : Payloads π) (events : List EventRow) (merchantId : String)
    (lastSeenAt : Text) (limit : Nat) : List (Event π) :=
  (rowsAfter events merchantId lastSeenAt limit).map (rowToEvent payloads)

/-! ## The stream of a merchant -/

/-- Versions and timestamps of a merchant grow with each emission. -/
def Increasing (rows : List EventRow) : Prop :=
  rows.Pairwise fun a b => a.version < b.version ∧ a.createdAt < b.createdAt

/-- Every timestamp is a text of the clock. -/
def Stamped (events : List EventRow) : Prop := ∀ e ∈ events, ∃ t : UtcClock, e.createdAt = t.text

theorem le_maxVersion {rows : List EventRow} {e : EventRow} (he : e ∈ rows) :
    e.version ≤ maxVersion rows := by
  induction rows with
  | nil => cases he
  | cons r rows ih =>
    show e.version ≤ max r.version (maxVersion rows)
    rcases List.mem_cons.mp he with rfl | hmem
    · exact Nat.le_max_left _ _
    · exact (ih hmem).trans (Nat.le_max_right _ _)

theorem not_maxCreatedAt_lt {rows : List EventRow} {e : EventRow} (he : e ∈ rows) :
    ¬ maxCreatedAt rows < e.createdAt := by
  induction rows with
  | nil => cases he
  | cons r rows ih =>
    show ¬ (if maxCreatedAt rows < r.createdAt then r.createdAt else maxCreatedAt rows) < e.createdAt
    rcases List.mem_cons.mp he with rfl | hmem
    · split
      · exact List.lt_irrefl _
      · assumption
    · split
      · rename_i hlt
        exact fun h => ih hmem (List.lt_trans hlt h)
      · exact ih hmem

/-- The latest timestamp is that of a row, unless there is none. -/
theorem maxCreatedAt_mem {rows : List EventRow} (h : maxCreatedAt rows ≠ []) :
    ∃ e ∈ rows, e.createdAt = maxCreatedAt rows := by
  induction rows with
  | nil => exact absurd rfl h
  | cons r rows ih =>
    change (if maxCreatedAt rows < r.createdAt then r.createdAt else maxCreatedAt rows) ≠ [] at h
    show ∃ e ∈ r :: rows, e.createdAt =
      if maxCreatedAt rows < r.createdAt then r.createdAt else maxCreatedAt rows
    split at h
    · rename_i hlt
      exact ⟨r, List.mem_cons_self, (if_pos hlt).symm⟩
    · rename_i hnot
      obtain ⟨e, he, heq⟩ := ih h
      refine ⟨e, List.mem_cons_of_mem r he, ?_⟩
      rw [if_neg hnot]
      exact heq

theorem nextMicrosecond_some {t u : UtcClock} (h : nextMicrosecond t = some u) : u.1 = t.1 + 1 := by
  unfold nextMicrosecond at h
  split at h
  · rw [← Option.some.inj h]
  · cases h

theorem mem_eventsOf {events : List EventRow} {merchantId : String} {e : EventRow} :
    e ∈ eventsOf events merchantId ↔ e ∈ events ∧ e.merchantId = merchantId := by
  simp [eventsOf]

/-- The timestamp of the next event is a text of the clock, after every timestamp of the merchant;
it is the clock's own, or else some timestamp was not before the clock. -/
theorem nextVersionAndTimestamp_some {events : List EventRow} {merchantId : String}
    {now : UtcClock} {version : Nat} {createdAt : Text} (hstamped : Stamped events)
    (h : nextVersionAndTimestamp events merchantId now = some (version, createdAt)) :
    version = maxVersion (eventsOf events merchantId) + 1 ∧
      (∃ t : UtcClock, createdAt = t.text ∧ now.1 ≤ t.1) ∧
      ∀ e ∈ eventsOf events merchantId, e.createdAt < createdAt := by
  unfold nextVersionAndTimestamp at h
  simp only at h
  split at h
  · rename_i hbehind
    obtain ⟨e, he, hlatest⟩ := maxCreatedAt_mem hbehind.1
    obtain ⟨t, ht⟩ := hstamped e (mem_eventsOf.mp he).1
    rw [← hlatest, ht, fromisoformat_text, Option.bind_some] at h
    obtain ⟨u, hu, hstamp⟩ := Option.map_eq_some_iff.mp h
    have hnext := nextMicrosecond_some hu
    obtain ⟨hversion, hcreated⟩ := Prod.mk.inj hstamp
    have hnow : now.1 ≤ t.1 := by
      have hle := hbehind.2
      rw [← hlatest, ht] at hle
      exact (UtcClock.not_text_lt_iff t now).mp hle
    refine ⟨hversion.symm, ⟨u, hcreated.symm, by omega⟩, ?_⟩
    intro e' he'
    obtain ⟨t', ht'⟩ := hstamped e' (mem_eventsOf.mp he').1
    have hle := not_maxCreatedAt_lt he'
    rw [← hlatest, ht, ht'] at hle
    have hle' := (UtcClock.not_text_lt_iff t t').mp hle
    rw [← hcreated, ht']
    exact (UtcClock.text_lt_iff t' u).mpr (by omega)
  · rename_i hahead
    obtain ⟨hversion, hcreated⟩ := Prod.mk.inj (Option.some.inj h)
    refine ⟨hversion.symm, ⟨now, hcreated.symm, Nat.le_refl _⟩, ?_⟩
    intro e he
    rw [← hcreated]
    obtain ⟨t, ht⟩ := hstamped e (mem_eventsOf.mp he).1
    by_cases hnone : maxCreatedAt (eventsOf events merchantId) = []
    · -- the text of a clock is not empty
      have hle := not_maxCreatedAt_lt he
      rw [hnone, ht] at hle
      cases htext : t.text with
      | nil => exact absurd htext t.text_ne_nil
      | cons c rest =>
        rw [htext] at hle
        exact absurd (List.nil_lt_cons c rest) hle
    · have hlatest : maxCreatedAt (eventsOf events merchantId) < now.text := by
        by_contra hbehind
        exact hahead ⟨hnone, hbehind⟩
      obtain ⟨e', he', heq⟩ := maxCreatedAt_mem hnone
      obtain ⟨t', ht'⟩ := hstamped e' (mem_eventsOf.mp he').1
      have hle := not_maxCreatedAt_lt he
      rw [← heq, ht', ht] at hle
      rw [← heq, ht'] at hlatest
      have hle' := (UtcClock.not_text_lt_iff t' t).mp hle
      have hlt := (UtcClock.text_lt_iff t' now).mp hlatest
      rw [ht]
      exact (UtcClock.text_lt_iff t now).mpr (by omega)

end KiwiCatalog.Feed
