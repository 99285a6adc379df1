import KiwiCatalog.Feed.Follows
import KiwiCatalog.Lib.Keyset
import KiwiCatalog.Lib.Transition

/-!
# ExactlyOnce — what a buyer gets of a merchant's events

Emissions, follows, unfollows and fetches in any order, under a clock that does not go back.  A
period of following runs from a follow to the unfollow; what it has delivered is kept beside the
tables.  Watermarks are the clock's own times, while the timestamps of events run ahead of the clock
after a burst, so nothing is lost or delivered from before the follow only where the two do not
meet.
-/

set_option autoImplicit false

namespace KiwiCatalog.Feed

open IsoText
open Transition

variable {π : Type}

/-! ## The system -/

/-- What has happened since a follow. -/
structure Period (π : Type) where
  -- how many events the merchant had emitted before
  opened : Nat
  -- no category has been asked for
  unfiltered : Bool
  delivered : List (Event π)
  -- the last fetch fell short of the cap, and no event has been emitted since
  caughtUp : Bool

def Period.fetched (p : Period π) (events : List (Event π)) : Period π :=
  { p with delivered := p.delivered ++ events, caughtUp := events.length < updatesPerFollowCap }

structure System (π : Type) where
  events : List EventRow
  follows : List Follow
  clock : Nat
  -- not stored: the periods of the active follows
  period : String × String → Option (Period π)

inductive Op (π : Type)
  | emit (eventId merchantId publicationId : String) (eventType : EventType) (payload : π)
  | follow (buyerSubject merchantId category consentVersion : String)
  | unfollow (buyerSubject merchantId : String)
  | fetch (buyerSubject : String)

def perform (payloads : Payloads π) (names : Names) (now : UtcClock) (s : System π) :
    Op π → Option (System π)
  | .emit eventId merchantId publicationId eventType payload =>
    (emitPublicEvent payloads s.events eventId merchantId publicationId eventType payload now).map
      fun events => { s with
        events := events
        clock := now.1
        period := fun key => (s.period key).map fun p =>
          if key.2 = merchantId then { p with caughtUp := false } else p }
  | .follow buyerSubject merchantId category consentVersion =>
    let followed := followMerchant s.follows buyerSubject merchantId category consentVersion now
    let key := (buyerSubject, merchantId)
    some { s with
      follows := followed.1
      clock := now.1
      period := Function.update s.period key
        (if followed.2 then
          some ⟨(eventsOf s.events merchantId).length, category = "", [], false⟩
        else (s.period key).map fun p =>
          { p with unfiltered := p.unfiltered && category = "" }) }
  | .unfollow buyerSubject merchantId =>
    let unfollowed := unfollowMerchant s.follows buyerSubject merchantId now
    some { s with
      follows := unfollowed.1
      clock := now.1
      period := if unfollowed.2 then Function.update s.period (buyerSubject, merchantId) none
        else s.period }
  | .fetch buyerSubject =>
    let fetched := fetchUpdates payloads names s.events s.follows buyerSubject now
    some { s with
      follows := fetched.1
      clock := now.1
      period := fun key => if key.1 = buyerSubject then
          (s.period key).map fun p => p.fetched (returnedFor key.2 fetched.2)
        else s.period key }

/-- One transaction, at a reading of the clock that is not before the last one. -/
def Step (payloads : Payloads π) (names : Names) (cond : System π → UtcClock → Op π → Prop)
    (s s' : System π) : Prop :=
  ∃ now op, s.clock ≤ now.1 ∧ cond s now op ∧ perform payloads names now s op = some s'

def Init (s : System π) : Prop :=
  s.events = [] ∧ s.follows = [] ∧ ∀ key, s.period key = none

/-! ## Delivery -/

/-- The events of the merchant since the period began. -/
def since (payloads : Payloads π) (s : System π) (merchantId : String) (p : Period π) :
    List (Event π) :=
  ((eventsOf s.events merchantId).drop p.opened).map (rowToEvent payloads)

structure Delivered (payloads : Payloads π) (s : System π) (merchantId : String) (p : Period π) :
    Prop where
  once : p.delivered.Sublist (since payloads s merchantId p)
  inOrder : p.unfiltered = true → p.delivered <+: since payloads s merchantId p
  complete : p.unfiltered = true → p.caughtUp = true →
    p.delivered = since payloads s merchantId p

/-- A follow opens a period at a time that no event of the merchant is ahead of; an event is not
emitted at the very microsecond of the watermark of a follow without a category, unless the
merchant's timestamps have reached it. -/
def Separated (s : System π) (now : UtcClock) : Op π → Prop
  | .follow buyerSubject merchantId _ _ =>
    (getFollow s.follows buyerSubject merchantId).any Follow.isActive = false →
      ∀ e ∈ eventsOf s.events merchantId, ¬ now.text < e.createdAt
  | .emit _ merchantId _ _ _ =>
    ∀ f ∈ s.follows, f.merchantId = merchantId → f.isActive = true → f.category = "" →
      f.lastSeenAt = now.text → ∃ e ∈ eventsOf s.events merchantId, ¬ e.createdAt < now.text
  | _ => True

/-! ## The tables and the periods -/

structure Tables (s : System π) : Prop where
  keys : Table.KeyUnique Follow.key s.follows
  stamped : Stamped s.events
  increasing : ∀ merchantId, Increasing (eventsOf s.events merchantId)
  tracked : ∀ f ∈ s.follows, (s.period f.key).isSome = f.isActive
  followed : ∀ key p, s.period key = some p → ∃ f ∈ s.follows, f.key = key
  category : ∀ f ∈ s.follows, ∀ p, s.period f.key = some p → p.unfiltered = true → f.category = ""
  -- a watermark is a past reading of the clock or the timestamp of an event
  past : ∀ f ∈ s.follows, f.isActive = true →
    (∃ t : UtcClock, f.lastSeenAt = t.text ∧ t.1 ≤ s.clock) ∨
      ∃ e ∈ eventsOf s.events f.merchantId, f.lastSeenAt = e.createdAt

theorem eventsOf_append (events : List EventRow) (row : EventRow) (merchantId : String) :
    eventsOf (events ++ [row]) merchantId =
      eventsOf events merchantId ++ if row.merchantId = merchantId then [row] else [] := by
  unfold eventsOf
  rw [List.filter_append]
  congr 1
  by_cases h : row.merchantId = merchantId
  · simp [h]
  · simp [h]

/-- What an emission appends. -/
structure Emitted (events : List EventRow) (merchantId : String) (now : UtcClock) (row : EventRow) :
    Prop where
  merchant : row.merchantId = merchantId
  version : ∀ e ∈ eventsOf events merchantId, e.version < row.version
  createdAt : ∀ e ∈ eventsOf events merchantId, e.createdAt < row.createdAt
  stamp : ∃ t : UtcClock, row.createdAt = t.text ∧ now.1 ≤ t.1

theorem emitPublicEvent_some {payloads : Payloads π} {events events' : List EventRow}
    {eventId merchantId publicationId : String} {eventType : EventType} {payload : π}
    {now : UtcClock} (hstamped : Stamped events)
    (h : emitPublicEvent payloads events eventId merchantId publicationId eventType payload now =
      some events') : ∃ row, Emitted events merchantId now row ∧ events' = events ++ [row] := by
  unfold emitPublicEvent at h
  obtain ⟨⟨version, createdAt⟩, hstamp, h⟩ := Option.bind_eq_some_iff.mp h
  obtain ⟨hversion, htext, hlatest⟩ := nextVersionAndTimestamp_some hstamped hstamp
  simp only at h
  split at h
  · cases h
  · refine ⟨_, ⟨rfl, ?_, hlatest, htext⟩, (Option.some.inj h).symm⟩
    intro e he
    rw [hversion]
    exact Nat.lt_succ_of_le (le_maxVersion he)

/-- The columns of a follow that a write has to respect. -/
theorem tables_follows {s : System π} (h : Tables s) {p : Follow → Bool} {f : Follow → Follow}
    {period : String × String → Option (Period π)} {clock : Nat} (hclock : s.clock ≤ clock)
    (hkey : ∀ g, (f g).key = g.key)
    (htracked : ∀ g ∈ s.follows, (period g.key).isSome = (if p g then f g else g).isActive)
    (hperiod : ∀ key q, period key = some q → ∃ g ∈ s.follows, g.key = key)
    (hcategory : ∀ g ∈ s.follows, ∀ q, period g.key = some q → q.unfiltered = true →
      (if p g then f g else g).category = "")
    (hpast : ∀ g ∈ s.follows, p g = true → (f g).isActive = true →
      (∃ t : UtcClock, (f g).lastSeenAt = t.text ∧ t.1 ≤ clock) ∨
        ∃ e ∈ eventsOf s.events g.merchantId, (f g).lastSeenAt = e.createdAt) :
    Tables { s with follows := Table.updateWhere p f s.follows, clock := clock, period := period } := by
  have hsame : ∀ g, (if p g then f g else g).key = g.key := by
    intro g
    split
    · exact hkey g
    · rfl
  refine ⟨Table.keyUnique_updateWhere hkey h.keys, h.stamped, h.increasing, ?_, ?_, ?_, ?_⟩
  · intro g' hg'
    obtain ⟨g, hg, rfl⟩ := Table.mem_updateWhere.mp hg'
    rw [hsame]
    exact htracked g hg
  · intro key q hq
    obtain ⟨g, hg, hkey'⟩ := hperiod key q hq
    exact ⟨_, Table.mem_updateWhere.mpr ⟨g, hg, rfl⟩, (hsame g).trans hkey'⟩
  · intro g' hg' q hq hunfiltered
    obtain ⟨g, hg, rfl⟩ := Table.mem_updateWhere.mp hg'
    rw [hsame] at hq
    exact hcategory g hg q hq hunfiltered
  · intro g' hg' hactive
    obtain ⟨g, hg, rfl⟩ := Table.mem_updateWhere.mp hg'
    have hmerchant : (if p g then f g else g).merchantId = g.merchantId :=
      congrArg Prod.snd (hsame g)
    rw [hmerchant]
    by_cases hp : p g = true
    · rw [if_pos hp] at hactive ⊢
      exact hpast g hg hp hactive
    · rw [if_neg hp] at hactive ⊢
      rcases h.past g hg hactive with ⟨t, ht, hle⟩ | hevent
      · exact .inl ⟨t, ht, hle.trans hclock⟩
      · exact .inr hevent

theorem tables_emit {s : System π} (h : Tables s) {merchantId : String} {now : UtcClock}
    {row : EventRow} (hemitted : Emitted s.events merchantId now row) (hclock : s.clock ≤ now.1)
    {g : String × String → Period π → Period π} (hg : ∀ key p, (g key p).unfiltered = p.unfiltered) :
    Tables { s with
      events := s.events ++ [row]
      clock := now.1
      period := fun key => (s.period key).map (g key) } := by
  refine ⟨h.keys, ?_, ?_, ?_, ?_, ?_, ?_⟩
  · intro e he
    rcases List.mem_append.mp he with hold | hnew
    · exact h.stamped e hold
    · obtain ⟨t, ht, -⟩ := hemitted.stamp
      rw [List.mem_singleton.mp hnew]
      exact ⟨t, ht⟩
  · intro merchantId'
    show Increasing (eventsOf (s.events ++ [row]) merchantId')
    rw [eventsOf_append]
    by_cases hmerchant : row.merchantId = merchantId'
    · have hsame : merchantId = merchantId' := hemitted.merchant.symm.trans hmerchant
      rw [if_pos hmerchant, ← hsame]
      apply List.pairwise_append.mpr
      refine ⟨h.increasing merchantId, List.pairwise_singleton _ _, ?_⟩
      intro e he e' he'
      rw [List.mem_singleton.mp he']
      exact ⟨hemitted.version e he, hemitted.createdAt e he⟩
    · rw [if_neg hmerchant, List.append_nil]
      exact h.increasing merchantId'
  · intro f hf
    show ((s.period f.key).map (g f.key)).isSome = f.isActive
    rw [Option.isSome_map]
    exact h.tracked f hf
  · intro key q hq
    obtain ⟨p, hp, -⟩ := Option.map_eq_some_iff.mp hq
    exact h.followed key p hp
  · intro f hf q hq hunfiltered
    obtain ⟨p, hp, rfl⟩ := Option.map_eq_some_iff.mp hq
    rw [hg] at hunfiltered
    exact h.category f hf p hp hunfiltered
  · intro f hf hactive
    show (∃ t : UtcClock, f.lastSeenAt = t.text ∧ t.1 ≤ now.1) ∨
      ∃ e ∈ eventsOf (s.events ++ [row]) f.merchantId, f.lastSeenAt = e.createdAt
    rcases h.past f hf hactive with ⟨t, ht, hle⟩ | ⟨e, he, hsame⟩
    · exact .inl ⟨t, ht, hle.trans hclock⟩
    · right
      rw [eventsOf_append]
      exact ⟨e, List.mem_append_left _ he, hsame⟩

/-! ## The cut between what has been delivered and what has not -/

/-- The events of a merchant by their timestamps. -/
def stream : Keyset EventRow Text where
  key := EventRow.createdAt
  before a b := a < b
  before_trans hab hbc :=
    decide_eq_true (List.lt_trans (of_decide_eq_true hab) (of_decide_eq_true hbc))
  before_irrefl a := decide_eq_false (List.lt_irrefl a)

theorem Increasing.sorted {rows : List EventRow} (h : Increasing rows) : stream.Sorted rows :=
  h.imp fun hab => decide_eq_true hab.2

/-- A watermark cuts the merchant's events: it is behind none of those from before the period, and
what has been delivered are those since then that it is not behind. -/
structure Cut (payloads : Payloads π) (rows : List EventRow) (seenAt : Text) (p : Period π) :
    Prop where
  opened : p.opened ≤ rows.length
  before : ∀ e ∈ rows.take p.opened, stream.before seenAt e.createdAt = false
  once : p.delivered.Sublist
    ((stream.upTo seenAt (rows.drop p.opened)).map (rowToEvent payloads))
  all : p.unfiltered = true →
    p.delivered = (stream.upTo seenAt (rows.drop p.opened)).map (rowToEvent payloads)
  caughtUp : p.unfiltered = true → p.caughtUp = true →
    ∀ e ∈ rows.drop p.opened, stream.before seenAt e.createdAt = false

section Cut

variable {payloads : Payloads π} {rows : List EventRow} {seenAt : Text} {p : Period π}

/-- A period begins behind every event that there is. -/
theorem cut_opening {unfiltered : Bool} (h : ∀ e ∈ rows, ¬ seenAt < e.createdAt) :
    Cut payloads rows seenAt ⟨rows.length, unfiltered, [], false⟩ := by
  have hdrop : rows.drop rows.length = [] := List.drop_length
  refine ⟨Nat.le_refl _, ?_, ?_, ?_, ?_⟩
  · intro e he
    exact decide_eq_false (h e (List.mem_of_mem_take he))
  · exact List.nil_sublist _
  · intro _
    rw [hdrop]
    rfl
  · intro _ hcaughtUp
    cases hcaughtUp

theorem Cut.edit (h : Cut payloads rows seenAt p) (unfiltered : Bool) :
    Cut payloads rows seenAt { p with unfiltered := p.unfiltered && unfiltered } := by
  refine ⟨h.opened, h.before, h.once, ?_, ?_⟩
  · intro hboth
    exact h.all (Bool.and_eq_true_iff.mp hboth).1
  · intro hboth
    exact h.caughtUp (Bool.and_eq_true_iff.mp hboth).1

/-- An event behind the watermark is not delivered; only a category may lose it. -/
theorem Cut.append (h : Cut payloads rows seenAt p) {row : EventRow}
    (hunread : p.unfiltered = true → seenAt < row.createdAt) :
    Cut payloads (rows ++ [row]) seenAt { p with caughtUp := false } := by
  have hdrop : (rows ++ [row]).drop p.opened = rows.drop p.opened ++ [row] :=
    List.drop_append_of_le_length h.opened
  have htake : (rows ++ [row]).take p.opened = rows.take p.opened :=
    List.take_append_of_le_length h.opened
  refine ⟨?_, ?_, ?_, ?_, ?_⟩
  · show p.opened ≤ (rows ++ [row]).length
    rw [List.length_append]
    exact h.opened.trans (Nat.le_add_right _ _)
  · show ∀ e ∈ (rows ++ [row]).take p.opened, stream.before seenAt e.createdAt = false
    rw [htake]
    exact h.before
  · show p.delivered.Sublist
      ((stream.upTo seenAt ((rows ++ [row]).drop p.opened)).map (rowToEvent payloads))
    rw [hdrop, Keyset.upTo_append, List.map_append]
    exact h.once.trans (List.sublist_append_left _ _)
  · intro hunfiltered
    show p.delivered =
      (stream.upTo seenAt ((rows ++ [row]).drop p.opened)).map (rowToEvent payloads)
    have hnone : stream.upTo seenAt [row] = [] := by
      apply Keyset.upTo_eq_nil
      intro e he
      rw [List.mem_singleton.mp he]
      exact decide_eq_true (hunread hunfiltered)
    rw [hdrop, Keyset.upTo_append, hnone, List.append_nil]
    exact h.all hunfiltered
  · intro _ hcaughtUp
    cases hcaughtUp

/-- Events from before the period are never read. -/
theorem Cut.page_eq (h : Cut payloads rows seenAt p) (limit : Nat) :
    stream.page seenAt limit rows = stream.page seenAt limit (rows.drop p.opened) := by
  have hafter : stream.after seenAt rows = stream.after seenAt (rows.drop p.opened) := by
    conv_lhs => rw [← List.take_append_drop p.opened rows]
    rw [Keyset.after_append, Keyset.after_eq_nil h.before, List.nil_append]
  unfold Keyset.page
  rw [hafter]

/-- A fetch delivers a page and moves the watermark to its end. -/
theorem Cut.fetch (h : Cut payloads rows seenAt p) (hsorted : stream.Sorted rows)
    {found : List (Event π)}
    (hsub : found.Sublist
      ((stream.page seenAt updatesPerFollowCap rows).map (rowToEvent payloads)))
    (hall : p.unfiltered = true →
      found = (stream.page seenAt updatesPerFollowCap rows).map (rowToEvent payloads)) :
    Cut payloads rows (stream.lastKey seenAt (stream.page seenAt updatesPerFollowCap rows))
      (p.fetched found) := by
  have hsince := hsorted.sublist (List.drop_sublist p.opened rows)
  have hmoved := hsince.upTo_page seenAt updatesPerFollowCap
  have hwhole := (hsorted.upTo_page seenAt updatesPerFollowCap).1
  rw [← h.page_eq] at hmoved
  refine ⟨h.opened, ?_, ?_, ?_, ?_⟩
  · intro e he
    -- what the old watermark was not behind, the new one is not behind either
    have hold : e ∈ stream.upTo seenAt rows :=
      Keyset.mem_upTo.mpr ⟨List.mem_of_mem_take he, h.before e he⟩
    have hnew := List.mem_append_left (stream.page seenAt updatesPerFollowCap rows) hold
    rw [← hwhole] at hnew
    exact (Keyset.mem_upTo.mp hnew).2
  · show List.Sublist (p.delivered ++ found)
      ((stream.upTo _ (rows.drop p.opened)).map (rowToEvent payloads))
    rw [hmoved.1, List.map_append]
    exact h.once.append hsub
  · intro hunfiltered
    show p.delivered ++ found =
      (stream.upTo _ (rows.drop p.opened)).map (rowToEvent payloads)
    rw [hmoved.1, List.map_append, ← h.all hunfiltered, ← hall hunfiltered]
  · intro hunfiltered hcaughtUp e he
    have hshort : found.length < updatesPerFollowCap := of_decide_eq_true hcaughtUp
    rw [hall hunfiltered, List.length_map, h.page_eq, Keyset.page, List.length_take] at hshort
    have hrest : (stream.after seenAt (rows.drop p.opened)).drop updatesPerFollowCap = [] := by
      apply List.drop_eq_nil_of_le
      omega
    rw [hrest] at hmoved
    by_contra hbehind
    have hmem := Keyset.mem_after.mpr ⟨he, Bool.not_eq_false _ ▸ hbehind⟩
    change e ∈ stream.after _ (rows.drop p.opened) at hmem
    rw [hmoved.2] at hmem
    cases hmem

theorem Cut.delivered (h : Cut payloads rows seenAt p) (hsorted : stream.Sorted rows) :
    p.delivered.Sublist ((rows.drop p.opened).map (rowToEvent payloads)) ∧
      (p.unfiltered = true → p.delivered <+: (rows.drop p.opened).map (rowToEvent payloads)) ∧
      (p.unfiltered = true → p.caughtUp = true →
        p.delivered = (rows.drop p.opened).map (rowToEvent payloads)) := by
  have hsince := hsorted.sublist (List.drop_sublist p.opened rows)
  have hread := hsince.upTo_prefix seenAt
  refine ⟨?_, ?_, ?_⟩
  · exact h.once.trans (hread.sublist.map (rowToEvent payloads))
  · intro hunfiltered
    rw [h.all hunfiltered]
    exact hread.map (rowToEvent payloads)
  · intro hunfiltered hcaughtUp
    rw [h.all hunfiltered, Keyset.upTo_eq_self (h.caughtUp hunfiltered hcaughtUp)]

end Cut

structure Inv (payloads : Payloads π) (s : System π) : Prop where
  tables : Tables s
  cut : ∀ f ∈ s.follows, ∀ p, s.period f.key = some p →
    Cut payloads (eventsOf s.events f.merchantId) f.lastSeenAt p

section Steps

variable {payloads : Payloads π} {names : Names} {s s' : System π} {now : UtcClock}

theorem inv_init (h : Init s) : Inv payloads s := by
  obtain ⟨hevents, hfollows, hperiod⟩ := h
  have hnone : ∀ f ∈ s.follows, False := by
    intro f hf
    rw [hfollows] at hf
    cases hf
  refine ⟨⟨?_, ?_, ?_, ?_, ?_, ?_, ?_⟩, ?_⟩
  · rw [hfollows]
    exact List.nodup_nil
  · intro e he
    rw [hevents] at he
    cases he
  · intro merchantId
    rw [hevents]
    exact List.Pairwise.nil
  · exact fun f hf => (hnone f hf).elim
  · intro key p hp
    rw [hperiod key] at hp
    cases hp
  · exact fun f hf => (hnone f hf).elim
  · exact fun f hf => (hnone f hf).elim
  · exact fun f hf => (hnone f hf).elim

/-- The next event is after a watermark that it is separated from. -/
theorem seenAt_lt_emitted (h : Tables s) (hclock : s.clock ≤ now.1) {f : Follow} {row : EventRow}
    (hf : f ∈ s.follows) (hactive : f.isActive = true)
    (hemitted : Emitted s.events f.merchantId now row)
    (hsep : f.lastSeenAt = now.text →
      ∃ e ∈ eventsOf s.events f.merchantId, ¬ e.createdAt < now.text) :
    f.lastSeenAt < row.createdAt := by
  rcases h.past f hf hactive with ⟨t, ht, hle⟩ | ⟨e, he, hsame⟩
  · obtain ⟨t', ht', hnow⟩ := hemitted.stamp
    rw [ht, ht']
    apply (UtcClock.text_lt_iff t t').mpr
    by_contra hge
    -- both are the reading of the clock itself
    have hread : t = now := Subtype.ext (by omega)
    have hread' : t' = now := Subtype.ext (by omega)
    obtain ⟨e, he, hreached⟩ := hsep (ht.trans (congrArg UtcClock.text hread))
    have hlatest := hemitted.createdAt e he
    rw [ht', hread'] at hlatest
    exact hreached hlatest
  · rw [hsame]
    exact hemitted.createdAt e he

theorem inv_emit (h : Inv payloads s) (hclock : s.clock ≤ now.1) {merchantId : String}
    {row : EventRow} (hemitted : Emitted s.events merchantId now row)
    (hsep : ∀ f ∈ s.follows, f.merchantId = merchantId → f.isActive = true → f.category = "" →
      f.lastSeenAt = now.text → ∃ e ∈ eventsOf s.events merchantId, ¬ e.createdAt < now.text) :
    Inv payloads { s with
      events := s.events ++ [row]
      clock := now.1
      period := fun key => (s.period key).map fun p =>
        if key.2 = merchantId then { p with caughtUp := false } else p } := by
  refine ⟨?_, ?_⟩
  · apply tables_emit h.tables hemitted hclock
    intro key p
    show (if key.2 = merchantId then { p with caughtUp := false } else p).unfiltered = p.unfiltered
    split <;> rfl
  · intro f hf q hq
    obtain ⟨p, hp, hq⟩ := Option.map_eq_some_iff.mp hq
    have hcut := h.cut f hf p hp
    show Cut payloads (eventsOf (s.events ++ [row]) f.merchantId) f.lastSeenAt q
    rw [eventsOf_append, hemitted.merchant]
    by_cases hmerchant : f.merchantId = merchantId
    · rw [if_pos hmerchant.symm, ← hq, if_pos (show f.key.2 = merchantId from hmerchant)]
      apply hcut.append
      intro hunfiltered
      have hactive : f.isActive = true := by
        rw [← h.tables.tracked f hf, hp]
        rfl
      subst hmerchant
      exact seenAt_lt_emitted h.tables hclock hf hactive hemitted
        (hsep f hf rfl hactive (h.tables.category f hf p hp hunfiltered))
    · rw [if_neg (fun hsame => hmerchant hsame.symm), List.append_nil, ← hq,
        if_neg (show ¬ f.key.2 = merchantId from hmerchant)]
      exact hcut

/-- The first follow of a buyer and a merchant. -/
theorem inv_first_follow (h : Inv payloads s) (hclock : s.clock ≤ now.1) {row : Follow}
    (hfree : ∀ f ∈ s.follows, f.key ≠ row.key) (hactive : row.isActive = true)
    (hseen : row.lastSeenAt = now.text)
    (hsep : ∀ e ∈ eventsOf s.events row.merchantId, ¬ now.text < e.createdAt) :
    Inv payloads { s with
      follows := s.follows ++ [row]
      clock := now.1
      period := Function.update s.period row.key
        (some ⟨(eventsOf s.events row.merchantId).length, row.category = "", [], false⟩) } := by
  have hold : ∀ f ∈ s.follows, ∀ q : Option (Period π),
      Function.update s.period row.key q f.key = s.period f.key :=
    fun f hf q => Function.update_of_ne (hfree f hf) q s.period
  have hnew : ∀ {q : Period π}, Function.update s.period row.key
      (some ⟨(eventsOf s.events row.merchantId).length, row.category = "", [], false⟩) row.key =
        some q → ⟨(eventsOf s.events row.merchantId).length, row.category = "", [], false⟩ = q := by
    intro q hq
    rw [Function.update_self] at hq
    exact Option.some.inj hq
  refine ⟨⟨?_, h.tables.stamped, h.tables.increasing, ?_, ?_, ?_, ?_⟩, ?_⟩
  · exact Table.keyUnique_append h.tables.keys hfree
  · intro f hf
    show (Function.update s.period row.key _ f.key).isSome = f.isActive
    rcases List.mem_append.mp hf with hmem | hlast
    · rw [hold f hmem]
      exact h.tables.tracked f hmem
    · rw [List.mem_singleton.mp hlast, Function.update_self, hactive]
      rfl
  · intro key q hq
    by_cases hkey : key = row.key
    · exact ⟨row, List.mem_append_right _ (List.mem_singleton_self row), hkey.symm⟩
    · have hbefore := (Function.update_of_ne hkey _ s.period).symm.trans hq
      obtain ⟨f, hf, hfkey⟩ := h.tables.followed key q hbefore
      exact ⟨f, List.mem_append_left _ hf, hfkey⟩
  · intro f hf q hq hunfiltered
    rcases List.mem_append.mp hf with hmem | hlast
    · exact h.tables.category f hmem q ((hold f hmem _).symm.trans hq) hunfiltered
    · rw [List.mem_singleton.mp hlast] at hq ⊢
      rw [← hnew hq] at hunfiltered
      exact of_decide_eq_true hunfiltered
  · intro f hf hfactive
    rcases List.mem_append.mp hf with hmem | hlast
    · rcases h.tables.past f hmem hfactive with ⟨t, ht, hle⟩ | hevent
      · exact .inl ⟨t, ht, hle.trans hclock⟩
      · exact .inr hevent
    · rw [List.mem_singleton.mp hlast]
      exact .inl ⟨now, hseen, Nat.le_refl _⟩
  · intro f hf q hq
    rcases List.mem_append.mp hf with hmem | hlast
    · exact h.cut f hmem q ((hold f hmem _).symm.trans hq)
    · rw [List.mem_singleton.mp hlast] at hq ⊢
      rw [← hnew hq, hseen]
      exact cut_opening hsep

/-- A write to the follows, with what it does to their cuts. -/
theorem inv_follows (h : Inv payloads s) {p : Follow → Bool} {f : Follow → Follow}
    {period : String × String → Option (Period π)} (hclock : s.clock ≤ now.1)
    (hkey : ∀ g, (f g).key = g.key)
    (htracked : ∀ g ∈ s.follows, (period g.key).isSome = (if p g then f g else g).isActive)
    (hperiod : ∀ key q, period key = some q → ∃ g ∈ s.follows, g.key = key)
    (hcategory : ∀ g ∈ s.follows, ∀ q, period g.key = some q → q.unfiltered = true →
      (if p g then f g else g).category = "")
    (hpast : ∀ g ∈ s.follows, p g = true → (f g).isActive = true →
      (∃ t : UtcClock, (f g).lastSeenAt = t.text ∧ t.1 ≤ now.1) ∨
        ∃ e ∈ eventsOf s.events g.merchantId, (f g).lastSeenAt = e.createdAt)
    (hcut : ∀ g ∈ s.follows, ∀ q, period g.key = some q →
      Cut payloads (eventsOf s.events g.merchantId) (if p g then f g else g).lastSeenAt q) :
    Inv payloads
      { s with follows := Table.updateWhere p f s.follows, clock := now.1, period := period } := by
  refine ⟨tables_follows h.tables hclock hkey htracked hperiod hcategory hpast, ?_⟩
  intro g' hg' q hq
  obtain ⟨g, hg, rfl⟩ := Table.mem_updateWhere.mp hg'
  have hsame : (if p g then f g else g).key = g.key := by
    split
    · exact hkey g
    · rfl
  have hmerchant : (if p g then f g else g).merchantId = g.merchantId := congrArg Prod.snd hsame
  rw [hsame] at hq
  show Cut payloads (eventsOf s.events (if p g then f g else g).merchantId) _ q
  rw [hmerchant]
  exact hcut g hg q hq

/-- A follow of a buyer and a merchant that have a row: the period is a new one when the row was
cancelled; otherwise only the category changes. -/
theorem inv_follow_again (h : Inv payloads s) (hclock : s.clock ≤ now.1) {existing : Follow}
    (hexisting : existing ∈ s.follows) (category consentVersion : String) (updatedAt : Text)
    (hsep : existing.isActive = false →
      ∀ e ∈ eventsOf s.events existing.merchantId, ¬ now.text < e.createdAt) :
    Inv payloads { s with
      follows := Table.updateWhere (fun f => f.key = existing.key)
        (fun f => { f with
          category := category
          consentVersion := consentVersion
          status := .active
          lastSeenAt := if !existing.isActive then now.text else existing.lastSeenAt
          updatedAt := updatedAt }) s.follows
      clock := now.1
      period := Function.update s.period existing.key
        (if !existing.isActive then
          some ⟨(eventsOf s.events existing.merchantId).length, category = "", [], false⟩
        else (s.period existing.key).map fun p =>
          { p with unfiltered := p.unfiltered && category = "" }) } := by
  have hother : ∀ {g : Follow} (q : Option (Period π)), ¬ g.key = existing.key →
      Function.update s.period existing.key q g.key = s.period g.key :=
    fun q hne => Function.update_of_ne hne q s.period
  have hrow : ∀ g ∈ s.follows, g.key = existing.key → g = existing :=
    fun g hg hkey => Table.eq_of_key_eq h.tables.keys hg hexisting hkey
  have hperiod := h.tables.tracked existing hexisting
  apply inv_follows h hclock
  · exact fun _ => rfl
  · intro g hg
    by_cases hkey : g.key = existing.key
    · rw [hkey, Function.update_self, if_pos (decide_eq_true rfl)]
      cases hactive : existing.isActive with
      | false => rfl
      | true =>
        rw [hactive] at hperiod
        show (Option.map _ (s.period existing.key)).isSome = true
        rw [Option.isSome_map, hperiod]
    · rw [hother _ hkey, if_neg (by simpa using hkey)]
      exact h.tables.tracked g hg
  · intro key q hq
    by_cases hkey : key = existing.key
    · exact ⟨existing, hexisting, hkey.symm⟩
    · exact h.tables.followed key q (by rwa [Function.update_of_ne hkey] at hq)
  · intro g hg q hq hunfiltered
    by_cases hkey : g.key = existing.key
    · rw [hkey, Function.update_self] at hq
      rw [if_pos (decide_eq_true hkey)]
      show category = ""
      cases hactive : existing.isActive with
      | false =>
        rw [hactive] at hq
        rw [← Option.some.inj hq] at hunfiltered
        exact of_decide_eq_true hunfiltered
      | true =>
        rw [hactive] at hq
        obtain ⟨p, -, hq⟩ := Option.map_eq_some_iff.mp hq
        rw [← hq] at hunfiltered
        exact of_decide_eq_true (Bool.and_eq_true_iff.mp hunfiltered).2
    · rw [hother _ hkey] at hq
      rw [if_neg (by simpa using hkey)]
      exact h.tables.category g hg q hq hunfiltered
  · intro g hg hkey _
    rw [hrow g hg (of_decide_eq_true hkey)]
    cases hactive : existing.isActive with
    | false => exact .inl ⟨now, rfl, Nat.le_refl _⟩
    | true =>
      rcases h.tables.past existing hexisting hactive with ⟨t, ht, hle⟩ | hevent
      · exact .inl ⟨t, ht, hle.trans hclock⟩
      · exact .inr hevent
  · intro g hg q hq
    by_cases hkey : g.key = existing.key
    · rw [hkey, Function.update_self] at hq
      rw [if_pos (decide_eq_true hkey), hrow g hg hkey]
      cases hactive : existing.isActive with
      | false =>
        rw [hactive] at hq
        rw [← Option.some.inj hq]
        exact cut_opening (hsep hactive)
      | true =>
        rw [hactive] at hq
        obtain ⟨p, hp, hq⟩ := Option.map_eq_some_iff.mp hq
        rw [← hq]
        exact (h.cut existing hexisting p hp).edit _
    · rw [hother _ hkey] at hq
      rw [if_neg (by simpa using hkey)]
      exact h.cut g hg q hq

theorem inv_unfollow (h : Inv payloads s) (hclock : s.clock ≤ now.1) (key : String × String)
    (updatedAt : Text) :
    Inv payloads { s with
      follows := Table.updateWhere (fun f => f.key = key)
        (fun f => { f with status := .cancelled, updatedAt := updatedAt }) s.follows
      clock := now.1
      period := Function.update s.period key none } := by
  have hother : ∀ {key' : String × String}, ¬ key' = key →
      Function.update s.period key none key' = s.period key' :=
    fun hne => Function.update_of_ne hne none s.period
  -- a key that has a period afterwards is not the one that is unfollowed
  have hkept : ∀ key' q, Function.update s.period key none key' = some q →
      ¬ key' = key ∧ s.period key' = some q := by
    intro key' q hq
    by_cases hkey : key' = key
    · rw [hkey, Function.update_self] at hq
      cases hq
    · exact ⟨hkey, (hother hkey).symm.trans hq⟩
  apply inv_follows h hclock
  · exact fun _ => rfl
  · intro g hg
    by_cases hkey : g.key = key
    · rw [hkey, Function.update_self, if_pos (decide_eq_true rfl)]
      rfl
    · rw [hother hkey, if_neg (by simpa using hkey)]
      exact h.tables.tracked g hg
  · intro key' q hq
    exact h.tables.followed key' q (hkept key' q hq).2
  · intro g hg q hq hunfiltered
    obtain ⟨hkey, hq⟩ := hkept g.key q hq
    rw [if_neg (by simpa using hkey)]
    exact h.tables.category g hg q hq hunfiltered
  · intro g _ _ hactive
    cases hactive
  · intro g hg q hq
    obtain ⟨hkey, hq⟩ := hkept g.key q hq
    rw [if_neg (by simpa using hkey)]
    exact h.cut g hg q hq

theorem pending_eq {events : List EventRow} {f : Follow}
    (h : Increasing (eventsOf events f.merchantId)) :
    pending events f =
      stream.page f.lastSeenAt updatesPerFollowCap (eventsOf events f.merchantId) :=
  rowsAfter_eq h f.lastSeenAt updatesPerFollowCap

theorem advance_lastSeenAt (events : List EventRow) (f : Follow) :
    (advance events now f).lastSeenAt = stream.lastKey f.lastSeenAt (pending events f) := by
  have hlast : stream.lastKey f.lastSeenAt (pending events f) =
      (newSeenAt events f).getD f.lastSeenAt := rfl
  rw [hlast]
  unfold advance
  cases newSeenAt events f with
  | none => rfl
  | some seenAt => rfl

theorem advance_isActive (events : List EventRow) (f : Follow) :
    (advance events now f).isActive = f.isActive := by
  unfold advance
  split <;> rfl

theorem advance_category (events : List EventRow) (f : Follow) :
    (advance events now f).category = f.category := by
  unfold advance
  split <;> rfl

theorem matching_sublist (events : List EventRow) (f : Follow) :
    (matching payloads events f).Sublist ((pending events f).map (rowToEvent payloads)) :=
  List.filter_sublist

theorem matching_of_no_category {events : List EventRow} {f : Follow} (h : f.category = "") :
    matching payloads events f = (pending events f).map (rowToEvent payloads) := by
  apply List.filter_eq_self.mpr
  intro e _
  simp [h]

/-- A fetch leaves a watermark where it is or moves it to the timestamp of an event. -/
theorem advance_past (events : List EventRow) (f : Follow) :
    (advance events now f).lastSeenAt = f.lastSeenAt ∨
      ∃ e ∈ eventsOf events f.merchantId, (advance events now f).lastSeenAt = e.createdAt := by
  unfold advance
  cases hseen : newSeenAt events f with
  | none => exact .inl rfl
  | some seenAt =>
    right
    obtain ⟨e, he, hcreated⟩ := Option.map_eq_some_iff.mp hseen
    have hmem := (List.mergeSort_perm _ _).mem_iff.mp
      (List.mem_of_mem_take (List.mem_of_getLast? he))
    exact ⟨e, (List.mem_filter.mp hmem).1, hcreated.symm⟩

theorem inv_fetch (h : Inv payloads s) (hclock : s.clock ≤ now.1) (buyerSubject : String) :
    Inv payloads { s with
      follows := (fetchUpdates payloads names s.events s.follows buyerSubject now).1
      clock := now.1
      period := fun key => if key.1 = buyerSubject then
          (s.period key).map fun p => p.fetched (returnedFor key.2
            (fetchUpdates payloads names s.events s.follows buyerSubject now).2)
        else s.period key } := by
  -- the period of a key beforehand, with what the fetch does to it
  have hbefore : ∀ key q, (if key.1 = buyerSubject then
      (s.period key).map fun p => p.fetched (returnedFor key.2
        (fetchUpdates payloads names s.events s.follows buyerSubject now).2)
      else s.period key) = some q →
      ∃ p, s.period key = some p ∧ p.unfiltered = q.unfiltered ∧
        q = if key.1 = buyerSubject then p.fetched (returnedFor key.2
          (fetchUpdates payloads names s.events s.follows buyerSubject now).2) else p := by
    intro key q hq
    split at hq
    · rename_i hbuyer
      obtain ⟨p, hp, rfl⟩ := Option.map_eq_some_iff.mp hq
      exact ⟨p, hp, rfl, (if_pos hbuyer).symm⟩
    · rename_i hbuyer
      exact ⟨q, hq, rfl, (if_neg hbuyer).symm⟩
  rw [fetchUpdates_follows buyerSubject h.tables.keys]
  apply inv_follows h hclock
  · exact advance_key s.events now
  · intro g hg
    have hactive : (if g.buyerSubject = buyerSubject && g.isActive then advance s.events now g
        else g).isActive = g.isActive := by
      split
      · exact advance_isActive s.events g
      · rfl
    rw [hactive, ← h.tables.tracked g hg]
    split
    · exact Option.isSome_map
    · rfl
  · intro key q hq
    obtain ⟨p, hp, -⟩ := hbefore key q hq
    exact h.tables.followed key p hp
  · intro g hg q hq hunfiltered
    obtain ⟨p, hp, hsame, -⟩ := hbefore g.key q hq
    have hcategory := h.tables.category g hg p hp (hsame.trans hunfiltered)
    split
    · rw [advance_category, hcategory]
    · exact hcategory
  · intro g hg hp hactive
    rw [advance_isActive] at hactive
    rcases advance_past s.events g with hsame | hevent
    · rw [hsame]
      rcases h.tables.past g hg hactive with ⟨t, ht, hle⟩ | hevent
      · exact .inl ⟨t, ht, hle.trans hclock⟩
      · exact .inr hevent
    · exact .inr hevent
  · intro g hg q hq
    obtain ⟨p, hp, -, hq⟩ := hbefore g.key q hq
    have hcut := h.cut g hg p hp
    have hactive : g.isActive = true := by
      rw [← h.tables.tracked g hg, hp]
      rfl
    by_cases hbuyer : g.buyerSubject = buyerSubject
    · subst hbuyer
      rw [if_pos (show g.key.1 = g.buyerSubject from rfl), show g.key.2 = g.merchantId from rfl,
        fetchUpdates_returned h.tables.keys hg hactive] at hq
      have hincreasing := h.tables.increasing g.merchantId
      rw [if_pos (by simp [hactive]), advance_lastSeenAt, pending_eq hincreasing, hq]
      apply hcut.fetch hincreasing.sorted
      · rw [← pending_eq hincreasing]
        exact matching_sublist s.events g
      · intro hunfiltered
        rw [← pending_eq hincreasing]
        exact matching_of_no_category (h.tables.category g hg p hp hunfiltered)
    · rw [if_neg (show ¬ g.key.1 = buyerSubject from hbuyer)] at hq
      rw [if_neg (by simp [hbuyer]), hq]
      exact hcut

theorem inv_step (h : Inv payloads s) (hstep : Step payloads names Separated s s') :
    Inv payloads s' := by
  obtain ⟨now, op, hclock, hsep, hperform⟩ := hstep
  cases op with
  | emit eventId merchantId publicationId eventType payload =>
    obtain ⟨events, hevents, rfl⟩ := Option.map_eq_some_iff.mp hperform
    obtain ⟨row, hemitted, rfl⟩ := emitPublicEvent_some h.tables.stamped hevents
    exact inv_emit h hclock hemitted hsep
  | follow buyerSubject merchantId category consentVersion =>
    rw [← Option.some.inj hperform]
    simp only [Separated] at hsep
    cases hexisting : getFollow s.follows buyerSubject merchantId with
    | none =>
      rw [hexisting] at hsep
      rw [followMerchant_none hexisting]
      have hfree : ∀ f ∈ s.follows, f.key ≠ (newFollow buyerSubject merchantId category
          consentVersion now).key := Table.lookup_eq_none.mp hexisting
      exact inv_first_follow h hclock hfree rfl rfl (hsep rfl)
    | some existing =>
      rw [hexisting] at hsep
      rw [followMerchant_some hexisting]
      obtain ⟨hmem, hkey⟩ := Table.lookup_mem hexisting
      obtain ⟨rfl, rfl⟩ := Prod.mk.inj hkey
      exact inv_follow_again h hclock hmem category consentVersion (nowIsoText now) hsep
  | unfollow buyerSubject merchantId =>
    rw [← Option.some.inj hperform]
    simp only [unfollowMerchant]
    split
    · exact inv_unfollow h hclock (buyerSubject, merchantId) (nowIsoText now)
    · exact ⟨⟨h.tables.keys, h.tables.stamped, h.tables.increasing, h.tables.tracked,
        h.tables.followed, h.tables.category, fun f hf hactive => by
          rcases h.tables.past f hf hactive with ⟨t, ht, hle⟩ | hevent
          · exact .inl ⟨t, ht, hle.trans hclock⟩
          · exact .inr hevent⟩, h.cut⟩
  | fetch buyerSubject =>
    rw [← Option.some.inj hperform]
    exact inv_fetch h hclock buyerSubject

end Steps

/-- In every run that keeps watermarks and timestamps apart, each period of following delivers the
merchant's events since its follow once, in order and, once caught up, all of them; versions and
timestamps grow with every event. -/
theorem feed_exactly_once (payloads : Payloads π) (names : Names) {s : System π}
    (hreach : Reachable Init (Step payloads names Separated) s) :
    (∀ key p, s.period key = some p → Delivered payloads s key.2 p) ∧
      ∀ merchantId, Increasing (eventsOf s.events merchantId) := by
  have hinv : Inv payloads s := by
    apply reachable_invariant _ _ hreach
    · exact fun _ hinit => inv_init hinit
    · exact fun _ _ hstep h => inv_step h hstep
  refine ⟨?_, hinv.tables.increasing⟩
  intro key p hp
  obtain ⟨f, hf, rfl⟩ := hinv.tables.followed key p hp
  have hcut := hinv.cut f hf p hp
  obtain ⟨honce, hinOrder, hcomplete⟩ :=
    hcut.delivered (hinv.tables.increasing f.merchantId).sorted
  exact ⟨honce, hinOrder, hcomplete⟩

/-! ## One follow, one event, one fetch -/

def textPayloads : Payloads String := ⟨id, id, id, fun _ => ""⟩

def untouched : System String := ⟨[], [], 0, fun _ => none⟩

def followedAt (t : UtcClock) : System String :=
  ⟨[], [newFollow "account:1" "m1" "" "1" t], t.1,
    Function.update untouched.period ("account:1", "m1") (some ⟨0, true, [], false⟩)⟩

def offer (u : UtcClock) : EventRow := ⟨"e1", "m1", "p1", .productAdded, 1, "offer", u.text⟩

def offeredAt (t u : UtcClock) : System String :=
  ⟨[offer u], (followedAt t).follows, u.1, fun key => ((followedAt t).period key).map fun p =>
    if key.2 = "m1" then { p with caughtUp := false } else p⟩

/-- The fetch returns the event where its timestamp is after the follow's. -/
theorem fetch_offer (t u : UtcClock) :
    ∃ s, perform textPayloads id u (offeredAt t u) (.fetch "account:1") = some s ∧
      s.events = [offer u] ∧
      s.period ("account:1", "m1") = some ((⟨0, true, [], false⟩ : Period String).fetched
        (if t.1 < u.1 then [rowToEvent textPayloads (offer u)] else [])) := by
  have hkeys : Table.KeyUnique Follow.key (offeredAt t u).follows := List.nodup_singleton _
  have hincreasing : Increasing (eventsOf (offeredAt t u).events "m1") := List.pairwise_singleton _ _
  have hmem : newFollow "account:1" "m1" "" "1" t ∈ (offeredAt t u).follows :=
    List.mem_singleton_self _
  have hreturned : returnedFor "m1" (fetchUpdates textPayloads id (offeredAt t u).events
      (offeredAt t u).follows "account:1" u).2 =
        matching textPayloads [offer u] (newFollow "account:1" "m1" "" "1" t) :=
    fetchUpdates_returned hkeys hmem rfl
  have hpending : pending [offer u] (newFollow "account:1" "m1" "" "1" t) =
      if t.1 < u.1 then [offer u] else [] := by
    rw [pending_eq hincreasing]
    show (stream.after t.text [offer u]).take 100 = _
    have hbefore : ∀ r ∈ [offer u], stream.before t.text (stream.key r) = decide (t.1 < u.1) := by
      intro r hr
      rw [List.mem_singleton.mp hr]
      exact decide_eq_decide.mpr (UtcClock.text_lt_iff t u)
    by_cases hlt : t.1 < u.1
    · rw [decide_eq_true hlt] at hbefore
      rw [if_pos hlt, Keyset.after_eq_self hbefore]
      rfl
    · rw [decide_eq_false hlt] at hbefore
      rw [if_neg hlt, Keyset.after_eq_nil hbefore]
      rfl
  refine ⟨_, rfl, rfl, ?_⟩
  show some ((⟨0, true, [], false⟩ : Period String).fetched (returnedFor "m1" _)) = _
  rw [hreturned, matching_of_no_category rfl, hpending]
  split <;> rfl

/-- A buyer follows and gets the event of the microsecond after. -/
theorem feed_exactly_once_offer :
    ∃ s, Reachable Init (Step textPayloads id Separated) s ∧
      (∃ p, s.period ("account:1", "m1") = some p ∧ p.delivered.length = 1 ∧
        Delivered textPayloads s "m1" p) ∧
      ∀ merchantId, Increasing (eventsOf s.events merchantId) := by
  let t : UtcClock := ⟨63902822400000000, by decide⟩
  let u : UtcClock := ⟨63902822400000001, by decide⟩
  obtain ⟨s, hfetch, -, hperiod⟩ := fetch_offer t u
  have hreach : Reachable Init (Step textPayloads id Separated) s := by
    refine ⟨untouched, ⟨rfl, rfl, fun _ => rfl⟩, ?_⟩
    have hfollow : Step textPayloads id Separated untouched (followedAt t) := by
      refine ⟨t, .follow "account:1" "m1" "" "1", Nat.zero_le _, ?_, rfl⟩
      intro _ e he
      cases he
    have hemit : Step textPayloads id Separated (followedAt t) (offeredAt t u) := by
      refine ⟨u, .emit "e1" "m1" "p1" .productAdded "offer", by decide, ?_, rfl⟩
      intro f hf _ _ _ htie
      -- the watermark is that of the microsecond before
      rw [List.mem_singleton.mp hf] at htie
      exact absurd (congrArg Subtype.val (UtcClock.text_inj htie)) (by decide)
    have hlast : Step textPayloads id Separated (offeredAt t u) s :=
      ⟨u, .fetch "account:1", Nat.le_refl _, trivial, hfetch⟩
    exact ((Relation.ReflTransGen.refl.tail hfollow).tail hemit).tail hlast
  have hcontract := feed_exactly_once textPayloads id hreach
  exact ⟨s, hreach, ⟨_, hperiod, rfl, hcontract.1 _ _ hperiod⟩, hcontract.2⟩

/-- A buyer follows and an event is emitted at that very microsecond: a fetch that falls short of
the cap has not delivered it. -/
theorem tie_loses_event :
    ¬ ∀ s, Reachable Init (Step textPayloads id fun _ _ _ => True) s →
      ∀ key p, s.period key = some p → Delivered textPayloads s key.2 p := by
  intro hall
  -- 2026-01-01T00:00:00.000000+00:00
  let t : UtcClock := ⟨63902822400000000, by decide⟩
  obtain ⟨s, hfetch, hevents, hperiod⟩ := fetch_offer t t
  have hreach : Reachable Init (Step textPayloads id fun _ _ _ => True) s := by
    refine ⟨untouched, ⟨rfl, rfl, fun _ => rfl⟩, ?_⟩
    have hfollow : Step textPayloads id (fun _ _ _ => True) untouched (followedAt t) :=
      ⟨t, .follow "account:1" "m1" "" "1", Nat.zero_le _, trivial, rfl⟩
    have hemit : Step textPayloads id (fun _ _ _ => True) (followedAt t) (offeredAt t t) :=
      ⟨t, .emit "e1" "m1" "p1" .productAdded "offer", Nat.le_refl _, trivial, rfl⟩
    have hlast : Step textPayloads id (fun _ _ _ => True) (offeredAt t t) s :=
      ⟨t, .fetch "account:1", Nat.le_refl _, trivial, hfetch⟩
    exact ((Relation.ReflTransGen.refl.tail hfollow).tail hemit).tail hlast
  rw [if_neg (Nat.lt_irrefl _)] at hperiod
  have hcomplete := (hall s hreach _ _ hperiod).complete rfl rfl
  unfold since at hcomplete
  rw [hevents] at hcomplete
  exact absurd hcomplete (List.cons_ne_nil _ _).symm

end KiwiCatalog.Feed
