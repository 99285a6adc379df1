import KiwiCatalog.RateLimit.Backend
import Mathlib.Data.List.Induction

/-!
# BackendAdmission — the first calls of a window, and no others

A call counts in the window of its own reading, which is younger than the retention by all but a
day.  What a deletion takes is older, so no later call is counted there.
-/

set_option autoImplicit false
set_option linter.unusedSectionVars false

namespace KiwiCatalog.RateLimit

open FixedWindow IsoText

variable {β κ : Type} [DecidableEq β] [DecidableEq κ] (policy : Policy κ)

/-! ## One call -/

theorem serve_eq (s : Limiter β κ) (c : Call β κ) :
    serve policy s c = consume s c (c.window policy) (policy.limit c.key) := by
  have hpos := policy.limit_pos c.key
  rw [serve, enforceRateLimit?, if_neg (by omega)]
  rfl

theorem consume_admits (s : Limiter β κ) (c : Call β κ) (window : Text) {limit : Int}
    (hlimit : 0 < limit) :
    (consume s c window limit).1 = true ↔
      (counter (pruned s c window) c.key window : Int) < limit := by
  rw [← @upsert?_isSome κ _ c.key window limit hlimit (naiveText c.updatedNow.micros), consume]
  cases upsert? c.key window limit (naiveText c.updatedNow.micros) (pruned s c window) with
  | none => simp
  | some rows => simp

theorem consume_counter (s : Limiter β κ) (c : Call β κ) (window : Text) (limit : Int) (k : κ)
    (w : Text) :
    counter (consume s c window limit).2.rows k w =
      counter (pruned s c window) k w +
        (if (consume s c window limit).1 = true ∧ k = c.key ∧ w = window then 1 else 0) := by
  rw [consume]
  cases h : upsert? c.key window limit (naiveText c.updatedNow.micros) (pruned s c window) with
  | none => simp
  | some rows => simpa using upsert?_eq_some h k w

theorem pruned_own (s : Limiter β κ) (c : Call β κ) (window : Text) (k : κ) :
    counter (pruned s c window) k window = counter s.rows k window := by
  unfold pruned
  split
  · exact counter_prune_kept fun h => h.2 rfl
  · rfl

/-- The deletion leaves a counter alone or takes one of an old window. -/
theorem pruned_counter (s : Limiter β κ) (c : Call β κ) (window : Text) (k : κ) (w : Text) :
    counter (pruned s c window) k w = counter s.rows k w ∨
      (counter (pruned s c window) k w = 0 ∧ w < cutoff c.pruneNow) := by
  unfold pruned
  split
  · by_cases hold : w < cutoff c.pruneNow ∧ w ≠ window
    · right
      exact ⟨counter_prune_dropped hold, hold.1⟩
    · left
      exact counter_prune_kept hold
  · left
    rfl

theorem secondText_lt_cutoff {second : Nat} (hs : second < maxSeconds) (now : Reading) :
    secondText second < cutoff now ↔ second * 1000000 + retention < now.micros := by
  have hlt := now.lt_max
  have hle := now.epoch_le
  have hretention : retention ≤ epochSeconds * 1000000 := by decide
  rw [cutoff, secondText_lt_naiveText hs (by omega)]
  omega

theorem pruned_recent (s : Limiter β κ) (c : Call β κ) (window : Text) (k : κ) {second : Nat}
    (hs : second < maxSeconds) (h : c.pruneNow.micros ≤ second * 1000000 + retention) :
    counter (pruned s c window) k (secondText second) = counter s.rows k (secondText second) := by
  rcases pruned_counter s c window k (secondText second) with hsame | ⟨_, hold⟩
  · exact hsame
  · rw [secondText_lt_cutoff hs] at hold
    omega

theorem windowSecond_lt (current : Reading) (windowSeconds : Nat) :
    windowSecond current windowSeconds < maxSeconds := by
  have hle := windowStart_le windowSeconds (current.micros / 1000000 - epochSeconds)
  have hlt := current.lt_max
  have hepoch := current.epoch_le
  unfold windowSecond
  unfold maxMicroseconds at hlt
  omega

/-- The window of a reading is younger than the retention. -/
theorem window_recent (c : Call β κ) :
    c.current.micros ≤
      windowSecond c.current (policy.windowSeconds c.key) * 1000000 + retention := by
  have hlt := lt_windowStart_add (c.current.micros / 1000000 - epochSeconds)
    (policy.window_pos c.key)
  have hle := policy.window_le c.key
  have hepoch := c.current.epoch_le
  have hretention : retention = 604800 * 1000000 := by decide
  unfold windowSecond
  omega

/-! ## A sequence of calls -/

/-- What the table says after `calls`: every counter is one of a window, and the counters of the
windows that are not old at `t` hold the calls, up to the limit. -/
structure Counted (calls : List (Call β κ)) (rows : List (WindowRow κ)) : Prop where
  named : ∀ k w, counter rows k w ≠ 0 → ∃ second < maxSeconds, w = secondText second
  counted : ∀ t, (∀ reading ∈ calls.flatMap Call.readings, reading ≤ t) →
    ∀ k second, second < maxSeconds → t ≤ second * 1000000 + retention →
      counter rows k (secondText second) =
        min (policy.limit k).toNat (callsOf policy k (secondText second) calls).length

theorem callsOf_append (calls : List (Call β κ)) (c : Call β κ) (k : κ) (w : Text) :
    (callsOf policy k w (calls ++ [c])).length =
      (callsOf policy k w calls).length + (if k = c.key ∧ w = c.window policy then 1 else 0) := by
  unfold callsOf
  rw [List.filter_append, List.length_append]
  by_cases hself : k = c.key ∧ w = c.window policy
  · rw [if_pos hself, List.filter_cons_of_pos (by simp [hself.1, hself.2])]
    rfl
  · have hnot : ¬ (c.key = k ∧ c.window policy = w) := fun h => hself ⟨h.1.symm, h.2.symm⟩
    rw [if_neg hself, List.filter_cons_of_neg (by simpa using hnot)]
    rfl

variable {policy}

/-- The counter that a call meets: the earlier calls of its key and window, up to the limit. -/
theorem Counted.own {calls : List (Call β κ)} {s : Limiter β κ} (h : Counted policy calls s.rows)
    {c : Call β κ} (hlast : ∀ reading ∈ calls.flatMap Call.readings, reading ≤ c.current.micros) :
    counter s.rows c.key (c.window policy) =
      min (policy.limit c.key).toNat (callsOf policy c.key (c.window policy) calls).length :=
  h.counted c.current.micros hlast c.key _ (windowSecond_lt c.current _) (window_recent policy c)

theorem Counted.admits {calls : List (Call β κ)} {s : Limiter β κ}
    (h : Counted policy calls s.rows) {c : Call β κ}
    (hlast : ∀ reading ∈ calls.flatMap Call.readings, reading ≤ c.current.micros) :
    (serve policy s c).1 = true ↔
      ((callsOf policy c.key (c.window policy) calls).length : Int) < policy.limit c.key := by
  have hpos := policy.limit_pos c.key
  rw [serve_eq, consume_admits s c _ hpos, pruned_own, h.own hlast]
  omega

/-- One more call. -/
theorem Counted.serve {calls : List (Call β κ)} {s : Limiter β κ}
    (h : Counted policy calls s.rows) {c : Call β κ}
    (hlast : ∀ reading ∈ calls.flatMap Call.readings, reading ≤ c.current.micros) :
    Counted policy (calls ++ [c]) (serve policy s c).2.rows where
  named k w hne := by
    rw [serve_eq, consume_counter] at hne
    by_cases hself : k = c.key ∧ w = c.window policy
    · exact ⟨_, windowSecond_lt c.current _, hself.2⟩
    · rw [if_neg fun hall => hself hall.2, Nat.add_zero] at hne
      rcases pruned_counter s c (c.window policy) k w with hsame | ⟨hzero, _⟩
      · rw [hsame] at hne
        exact h.named k w hne
      · exact absurd hzero hne
  counted t ht k second hs hrecent := by
    rw [List.flatMap_append] at ht
    have hbefore := h.counted t (fun x hx => ht x (List.mem_append_left _ hx)) k second hs hrecent
    have hprune : c.pruneNow.micros ≤ t :=
      ht _ (List.mem_append_right _ (by simp [Call.readings]))
    have hadmits := h.admits hlast
    have hpos := policy.limit_pos c.key
    rw [serve_eq] at hadmits
    rw [serve_eq, consume_counter, callsOf_append,
      pruned_recent s c _ k hs (by omega), hbefore]
    by_cases hself : k = c.key ∧ secondText second = c.window policy
    · rw [hself.1, hself.2]
      by_cases hin : (consume s c (c.window policy) (policy.limit c.key)).1 = true
      · have hroom := hadmits.mp hin
        rw [if_pos ⟨hin, rfl, rfl⟩, if_pos ⟨rfl, rfl⟩]
        omega
      · have hfull := mt hadmits.mpr hin
        rw [if_neg fun hall => hin hall.1, if_pos ⟨rfl, rfl⟩]
        omega
    · rw [if_neg fun hall => hself hall.2, if_neg hself, Nat.add_zero, Nat.add_zero]

theorem serveAll_append (s : Limiter β κ) (calls : List (Call β κ)) (c : Call β κ) :
    serveAll policy s (calls ++ [c]) = (serve policy (serveAll policy s calls) c).2 := by
  rw [serveAll, List.foldl_append]
  rfl

theorem Ordered.before {before after : List (Call β κ)} {c : Call β κ}
    (h : Ordered (before ++ c :: after)) :
    Ordered before ∧ (∀ reading ∈ before.flatMap Call.readings, reading ≤ c.current.micros) := by
  unfold Ordered at h
  rw [List.flatMap_append, List.pairwise_append] at h
  refine ⟨h.1, fun x hx => h.2.2 x hx _ ?_⟩
  rw [List.flatMap_cons]
  exact List.mem_append_left _ List.mem_cons_self

theorem counted_serveAll {calls : List (Call β κ)} (h : Ordered calls) :
    Counted policy calls (serveAll policy Limiter.empty calls).rows := by
  induction calls using List.reverseRecOn with
  | nil =>
    have hempty : ∀ (k : κ) (w : Text), counter ([] : List (WindowRow κ)) k w = 0 :=
      fun _ _ => rfl
    exact ⟨fun k w hne => absurd (hempty k w) hne, fun _ _ k second _ _ => by
      show counter ([] : List (WindowRow κ)) k _ = _
      rw [hempty, callsOf, List.filter_nil, List.length_nil, Nat.min_zero]⟩
  | append_singleton calls c ih =>
    have hsplit := h.before
    rw [serveAll_append]
    exact (ih hsplit.1).serve hsplit.2

/-! ## What a call is told, and what it changes -/

variable (policy)

def stateAfter (calls : List (Call β κ)) : Limiter β κ := serveAll policy Limiter.empty calls

/-- A call after the calls `before`. -/
structure Limited (before : List (Call β κ)) (c : Call β κ) : Prop where
  -- the first calls of the window, up to the limit
  admitted : (serve policy (stateAfter policy before) c).1 = true ↔
    ((callsOf policy c.key (c.window policy) before).length : Int) < policy.limit c.key
  -- the counter that the call meets, after its own deletion and all earlier ones
  keeps : counter (pruned (stateAfter policy before) c (c.window policy)) c.key (c.window policy) =
    min (policy.limit c.key).toNat (callsOf policy c.key (c.window policy) before).length
  refused : (serve policy (stateAfter policy before) c).1 = false → ∀ k ≠ c.key, ∀ w,
    counter (serve policy (stateAfter policy before) c).2.rows k w =
        counter (stateAfter policy before).rows k w ∨
      (counter (serve policy (stateAfter policy before) c).2.rows k w = 0 ∧
        ∃ second, w = secondText second ∧ second * 1000000 + retention < c.pruneNow.micros)

variable {policy}

/-- A refused call takes the counter of another key only with a window that is old. -/
theorem Counted.refused {calls : List (Call β κ)} {s : Limiter β κ}
    (h : Counted policy calls s.rows) (c : Call β κ) {k : κ} (hk : k ≠ c.key) (w : Text) :
    counter (RateLimit.serve policy s c).2.rows k w = counter s.rows k w ∨
      (counter (RateLimit.serve policy s c).2.rows k w = 0 ∧
        ∃ second, w = secondText second ∧ second * 1000000 + retention < c.pruneNow.micros) := by
  rw [serve_eq, consume_counter, if_neg fun hall => hk hall.2.1, Nat.add_zero]
  rcases pruned_counter s c (c.window policy) k w with hsame | ⟨hzero, hold⟩
  · left
    exact hsame
  · by_cases hcount : counter s.rows k w = 0
    · left
      rw [hzero, hcount]
    · obtain ⟨second, hs, rfl⟩ := h.named k w hcount
      right
      exact ⟨hzero, second, rfl, (secondText_lt_cutoff hs c.pruneNow).mp hold⟩

def hourly : Policy Nat where
  limit _ := 1
  windowSeconds _ := 3600
  limit_pos _ := by decide
  window_pos _ := by decide
  window_le _ := by decide

/-- A clock that starts two months before the end of the calendar. -/
def reading (day : Nat) (h : day < 50) : Reading where
  micros := (3652000 + day) * 86400 * 1000000
  epoch_le := by
    unfold epochSeconds
    omega
  lt_max := by
    have hmax : maxMicroseconds = 315537897600000000 := by decide
    omega

def callOn (day : Nat) (h : day < 50) (backend key : Nat) : Call Nat Nat where
  backend := backend
  key := key
  current := reading day h
  pruneNow := reading day h
  updatedNow := reading day h
  pruneFails := false

/-- Key 0 is counted; eight days later key 1 is counted and, by another backend, refused. -/
def threeCalls : List (Call Nat Nat) :=
  [callOn 0 (by decide) 0 0, callOn 8 (by decide) 0 1, callOn 8 (by decide) 1 1]

theorem ordered_threeCalls : Ordered threeCalls := by
  unfold Ordered
  decide

end KiwiCatalog.RateLimit
