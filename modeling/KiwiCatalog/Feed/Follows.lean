import KiwiCatalog.Feed.Events
import KiwiCatalog.Idempotency.Ledger

/-!
# Follows — a buyer's follows and the updates that the buyer fetches

Each follow has a watermark, the text of a time: fetching delivers the events of the merchant after
it, at most a fixed number of them, and moves it to the last one delivered.
-/

set_option autoImplicit false

namespace KiwiCatalog.Feed

open Idempotency (nowIso)
open IsoText

inductive FollowStatus
  | active
  | cancelled
  deriving DecidableEq, Repr

structure Follow where
  buyerSubject : String
  merchantId : String
  category : String
  status : FollowStatus
  consentVersion : String
  lastSeenAt : Text
  createdAt : Text
  updatedAt : Text
  deriving DecidableEq, Repr

/-- The primary key. -/
def Follow.key (f : Follow) : String × String := (f.buyerSubject, f.merchantId)

def Follow.isActive (f : Follow) : Bool := f.status = .active

structure Update (π : Type) where
  merchantId : String
  merchantName : String
  events : List (Event π)
  lastSeenAt : Text

/-- The table of merchants, by their names. -/
abbrev Names := String → String

def updatesPerFollowCap : Nat := 100

/-- `now_iso()`. -/
def nowIsoText (now : UtcClock) : Text := (nowIso now).isoformat

variable {π : Type}

/-! ## Follow and unfollow -/

def getFollow (follows : List Follow) (buyerSubject merchantId : String) : Option Follow :=
  Table.lookup Follow.key (buyerSubject, merchantId) follows

def newFollow (buyerSubject merchantId category consentVersion : String) (now : UtcClock) :
    Follow :=
  ⟨buyerSubject, merchantId, category, .active, consentVersion, now.text, nowIsoText now,
    nowIsoText now⟩

/-- The rows afterwards, and whether a period of following begins: at the first follow, and at a
follow after an unfollow.  A follow that is active keeps its watermark. -/
def followMerchant (follows : List Follow) (buyerSubject merchantId category : String)
    (consentVersion : String) (now : UtcClock) : List Follow × Bool :=
  match getFollow follows buyerSubject merchantId with
  | none =>
    (follows ++ [newFollow buyerSubject merchantId category consentVersion now], true)
  | some existing =>
    let reactivated := !existing.isActive
    let lastSeenAt := if reactivated then now.text else existing.lastSeenAt
    (Table.updateWhere (fun f => f.key = (buyerSubject, merchantId))
      (fun f => { f with
        category := category
        consentVersion := consentVersion
        status := .active
        lastSeenAt := lastSeenAt
        updatedAt := nowIsoText now }) follows, reactivated)

section Follow

variable {follows : List Follow} {buyerSubject merchantId category consentVersion : String}
  {now : UtcClock}

theorem followMerchant_none (h : getFollow follows buyerSubject merchantId = none) :
    followMerchant follows buyerSubject merchantId category consentVersion now =
      (follows ++ [newFollow buyerSubject merchantId category consentVersion now], true) := by
  unfold followMerchant
  rw [h]

theorem followMerchant_some {existing : Follow}
    (h : getFollow follows buyerSubject merchantId = some existing) :
    followMerchant follows buyerSubject merchantId category consentVersion now =
      (Table.updateWhere (fun f => f.key = (buyerSubject, merchantId))
        (fun f => { f with
          category := category
          consentVersion := consentVersion
          status := .active
          lastSeenAt := if !existing.isActive then now.text else existing.lastSeenAt
          updatedAt := nowIsoText now }) follows, !existing.isActive) := by
  unfold followMerchant
  rw [h]

end Follow

/-- The rows afterwards, and whether an active follow was cancelled. -/
def unfollowMerchant (follows : List Follow) (buyerSubject merchantId : String) (now : UtcClock) :
    List Follow × Bool :=
  if (getFollow follows buyerSubject merchantId).any Follow.isActive then
    (Table.updateWhere (fun f => f.key = (buyerSubject, merchantId))
      (fun f => { f with status := .cancelled, updatedAt := nowIsoText now }) follows, true)
  else (follows, false)

/-! ## Fetching -/

/-- `order by created_at asc, merchant_id asc`. -/
def followOrder (a b : Follow) : Bool :=
  a.createdAt < b.createdAt || (a.createdAt = b.createdAt && ¬ b.merchantId < a.merchantId)

def activeFollows (follows : List Follow) (buyerSubject : String) : List Follow :=
  (follows.filter fun f => f.buyerSubject = buyerSubject && f.isActive).mergeSort followOrder

/-- The rows behind a fetch of one follow. -/
def pending (events : List EventRow) (f : Follow) : List EventRow :=
  rowsAfter events f.merchantId f.lastSeenAt updatesPerFollowCap

/-- Where the watermark goes; `none` is an empty fetch, which leaves it. -/
def newSeenAt (events : List EventRow) (f : Follow) : Option Text :=
  (pending events f).getLast?.map EventRow.createdAt

/-- The events of a fetch that the category of the follow lets through. -/
def matching (payloads : Payloads π) (events : List EventRow) (f : Follow) : List (Event π) :=
  ((pending events f).map (rowToEvent payloads)).filter fun e =>
    f.category = "" || payloads.category e.payload = f.category

/-- The loop's body, for a follow that was read before the loop. -/
def fetchFollow (payloads : Payloads π) (names : Names) (events : List EventRow) (now : UtcClock)
    (acc : List Follow × List (Update π)) (f : Follow) : List Follow × List (Update π) :=
  match newSeenAt events f with
  | none => acc
  | some seenAt =>
    let follows := Table.updateWhere (fun g => g.key = f.key)
      (fun g => { g with lastSeenAt := seenAt, updatedAt := nowIsoText now }) acc.1
    let found := matching payloads events f
    (follows, if found.isEmpty then acc.2
      else acc.2 ++ [⟨f.merchantId, names f.merchantId, found, seenAt⟩])

def fetchUpdates (payloads : Payloads π) (names : Names) (events : List EventRow)
    (follows : List Follow) (buyerSubject : String) (now : UtcClock) :
    List Follow × List (Update π) :=
  (activeFollows follows buyerSubject).foldl (fetchFollow payloads names events now) (follows, [])

/-- The events that a fetch has returned for a merchant. -/
def returnedFor (merchantId : String) (updates : List (Update π)) : List (Event π) :=
  (updates.filter fun u => u.merchantId = merchantId).flatMap Update.events

/-! ## What a fetch does -/

theorem rowsAfter_eq {events : List EventRow} {merchantId : String}
    (h : Increasing (eventsOf events merchantId)) (lastSeenAt : Text) (limit : Nat) :
    rowsAfter events merchantId lastSeenAt limit =
      ((eventsOf events merchantId).filter fun e => lastSeenAt < e.createdAt).take limit := by
  unfold rowsAfter
  congr 1
  apply List.mergeSort_of_pairwise
  -- the rows stand in the order of their timestamps already
  apply List.Pairwise.imp _ (h.sublist List.filter_sublist)
  intro a b hab
  simp [inOrder, hab.2]

/-- The row of a follow after a fetch of its buyer. -/
def advance (events : List EventRow) (now : UtcClock) (f : Follow) : Follow :=
  match newSeenAt events f with
  | none => f
  | some seenAt => { f with lastSeenAt := seenAt, updatedAt := nowIsoText now }

theorem advance_key (events : List EventRow) (now : UtcClock) (f : Follow) :
    (advance events now f).key = f.key := by
  unfold advance
  split <;> rfl

section Fetch

variable {payloads : Payloads π} {names : Names} {events : List EventRow} {now : UtcClock}

/-- Follows that the loop has yet to reach are as they were read. -/
theorem foldl_follows (rows : List Follow) (hrows : Table.KeyUnique Follow.key rows)
    (acc : List Follow × List (Update π))
    (hread : ∀ f ∈ rows, ∀ g ∈ acc.1, g.key = f.key → g = f) :
    (rows.foldl (fetchFollow payloads names events now) acc).1 =
      Table.updateWhere (fun g => rows.any fun f => f.key = g.key) (advance events now) acc.1 := by
  induction rows generalizing acc with
  | nil =>
    symm
    exact Table.updateWhere_of_absent fun _ _ => rfl
  | cons f rows ih =>
    rw [Table.KeyUnique, List.map_cons, List.nodup_cons] at hrows
    have hfirst : (fetchFollow payloads names events now acc f).1 =
        Table.updateWhere (fun g => f.key = g.key) (advance events now) acc.1 := by
      unfold fetchFollow
      cases hseen : newSeenAt events f with
      | none =>
        symm
        refine (List.map_congr_left fun g hg => ?_).trans (List.map_id _)
        by_cases hkey : f.key = g.key
        · rw [hread f List.mem_cons_self g hg hkey.symm, if_pos (decide_eq_true rfl), advance, hseen]
          rfl
        · rw [if_neg (by simpa using hkey)]
          rfl
      | some seenAt =>
        apply List.map_congr_left
        intro g hg
        by_cases hkey : g.key = f.key
        · rw [if_pos (decide_eq_true hkey), if_pos (decide_eq_true hkey.symm),
            hread f List.mem_cons_self g hg hkey, advance, hseen]
        · rw [if_neg (by simpa using hkey),
            if_neg (by simpa using fun h : f.key = g.key => hkey h.symm)]
    rw [List.foldl_cons, ih hrows.2, hfirst]
    · rw [Table.updateWhere, Table.updateWhere, List.map_map]
      apply List.map_congr_left
      intro g hg
      by_cases hkey : f.key = g.key
      · have hrest : ∀ f' ∈ rows, f'.key ≠ g.key := by
          intro f' hf' heq
          apply hrows.1
          rw [hkey, ← heq]
          exact List.mem_map_of_mem hf'
        simp only [Function.comp, hkey, decide_true, if_true, advance_key, List.any_cons,
          Bool.true_or]
        rw [if_neg]
        -- no other row of the loop has this key
        intro hany
        obtain ⟨f', hf', heq⟩ := List.any_eq_true.mp hany
        exact hrest f' hf' (of_decide_eq_true heq)
      · simp [hkey]
    · intro f' hf' g hg hkey
      rw [hfirst] at hg
      obtain ⟨g₀, hg₀, hg⟩ := Table.mem_updateWhere.mp hg
      split at hg
      · rename_i hsame
        subst hg
        rw [advance_key] at hkey
        have hclash : f.key = f'.key := (of_decide_eq_true hsame).trans hkey
        exact absurd (hclash ▸ List.mem_map_of_mem hf') hrows.1
      · subst hg
        exact hread f' (List.mem_cons_of_mem f hf') g₀ hg₀ hkey

theorem matching_of_none {f : Follow} (h : newSeenAt events f = none) :
    matching payloads events f = [] := by
  unfold newSeenAt at h
  rw [Option.map_eq_none_iff, List.getLast?_eq_none_iff] at h
  unfold matching
  rw [h]
  rfl

/-- What a fetch returns for a merchant are the matching events of its follows. -/
theorem foldl_returned (rows : List Follow) (acc : List Follow × List (Update π))
    (merchantId : String) :
    returnedFor merchantId (rows.foldl (fetchFollow payloads names events now) acc).2 =
      returnedFor merchantId acc.2 ++
        (rows.filter fun f => f.merchantId = merchantId).flatMap (matching payloads events) := by
  induction rows generalizing acc with
  | nil => simp
  | cons f rows ih =>
    have hfirst : returnedFor merchantId (fetchFollow payloads names events now acc f).2 =
        returnedFor merchantId acc.2 ++
          if f.merchantId = merchantId then matching payloads events f else [] := by
      unfold fetchFollow
      cases hseen : newSeenAt events f with
      | none =>
        rw [matching_of_none hseen]
        simp
      | some seenAt =>
        by_cases hempty : (matching payloads events f).isEmpty = true
        · have hnil := List.isEmpty_iff.mp hempty
          simp [hnil]
        · simp only [hempty, Bool.false_eq_true, if_false]
          by_cases hmerchant : f.merchantId = merchantId
          · simp [returnedFor, hmerchant]
          · simp [returnedFor, hmerchant]
    rw [List.foldl_cons, ih, hfirst, List.append_assoc, List.filter_cons]
    by_cases hmerchant : f.merchantId = merchantId
    · simp [hmerchant]
    · simp [hmerchant]

theorem mem_activeFollows {follows : List Follow} {buyerSubject : String} {f : Follow} :
    f ∈ activeFollows follows buyerSubject ↔
      f ∈ follows ∧ f.buyerSubject = buyerSubject ∧ f.isActive = true := by
  unfold activeFollows
  rw [(List.mergeSort_perm _ _).mem_iff]
  simp

theorem keyUnique_activeFollows {follows : List Follow} (buyerSubject : String)
    (h : Table.KeyUnique Follow.key follows) :
    Table.KeyUnique Follow.key (activeFollows follows buyerSubject) := by
  unfold activeFollows Table.KeyUnique
  rw [((List.mergeSort_perm _ _).map Follow.key).nodup_iff]
  exact h.sublist (List.filter_sublist.map Follow.key)

/-- A fetch moves the watermarks of the buyer's active follows. -/
theorem fetchUpdates_follows {follows : List Follow} (buyerSubject : String)
    (h : Table.KeyUnique Follow.key follows) :
    (fetchUpdates payloads names events follows buyerSubject now).1 =
      Table.updateWhere (fun f => f.buyerSubject = buyerSubject && f.isActive) (advance events now)
        follows := by
  unfold fetchUpdates
  rw [foldl_follows _ (keyUnique_activeFollows buyerSubject h)]
  · apply List.map_congr_left
    intro g hg
    congr 1
    rw [eq_iff_iff]
    constructor
    · intro hany
      obtain ⟨f, hf, hkey⟩ := List.any_eq_true.mp hany
      have hactive := mem_activeFollows.mp hf
      rw [← Table.eq_of_key_eq h hactive.1 hg (of_decide_eq_true hkey)]
      simp [hactive.2.1, hactive.2.2]
    · intro hactive
      simp only [Bool.and_eq_true, decide_eq_true_eq] at hactive
      exact List.any_eq_true.mpr ⟨g, mem_activeFollows.mpr ⟨hg, hactive⟩, decide_eq_true rfl⟩
  · intro f hf g hg hkey
    exact Table.eq_of_key_eq h hg (mem_activeFollows.mp hf).1 hkey

/-- For the merchant of an active follow a fetch returns what matches it. -/
theorem fetchUpdates_returned {follows : List Follow} {f : Follow}
    (h : Table.KeyUnique Follow.key follows) (hf : f ∈ follows) (hactive : f.isActive = true) :
    returnedFor f.merchantId
        (fetchUpdates payloads names events follows f.buyerSubject now).2 =
      matching payloads events f := by
  unfold fetchUpdates
  rw [foldl_returned]
  have honly : (activeFollows follows f.buyerSubject).filter (fun g => g.merchantId = f.merchantId) =
      [f] := by
    have hmem := mem_activeFollows.mpr ⟨hf, rfl, hactive⟩
    rw [← Table.filter_key_eq (keyUnique_activeFollows f.buyerSubject h) hmem]
    apply List.filter_congr
    intro g hg
    have hbuyer := (mem_activeFollows.mp hg).2.1
    simp [Follow.key, hbuyer]
  rw [honly]
  simp [returnedFor]

end Fetch

end KiwiCatalog.Feed
