import KiwiCatalog.Signature.RuntimeRequests
import KiwiCatalog.Lib.Transition
import KiwiCatalog.Lib.Update

/-!
# NonceReplay — a signed request is accepted once inside its window

Processes `π` verify requests over one nonce table, each with a prune counter of its own, while the
clock moves on and bindings come and go.  A row protects its request for as long as the request is
in the window, unless a prune takes it earlier.  The prune compares texts: a row signed with a
negative offset is written with an earlier wall clock than its instant has in UTC, and is taken too
early.
-/

set_option autoImplicit false
set_option linter.unusedSectionVars false

namespace KiwiCatalog.Signature

open IsoText Transition

variable {π : Type} [DecidableEq π]

/-! ## Runs -/

/-- A request that `verify_runtime_request` accepted at the clock time `time`. -/
structure Acceptance where
  keyId : String
  nonce : String
  issued : DateTime
  time : Nat

structure System (π : Type) where
  clock : UtcClock
  bindings : List SigningBinding
  rows : List NonceRow
  pruneCounter : π → Nat
  -- what was accepted so far, in order; no operation reads it
  accepted : List Acceptance

def System.store (s : System π) (p : π) : NonceStore := ⟨s.rows, s.pruneCounter p⟩

inductive Event (π : Type)
  | verify (p : π) (catalogAgentId : String) (jws : Jws) (expectedFields : Dict)
  -- the other callers of `consume_request_nonce`: enrollments, challenges and binding requests
  | consume (p : π) (keyId nonce issuedAt : String)
  -- a call whose transaction does not commit: the counter of the process moves on all the same
  | abandon (p : π)
  | rebind (bindings : List SigningBinding)
  | tick (clock : UtcClock)

def Started (s : System π) : Prop := s.rows = [] ∧ s.accepted = []

inductive Step (env : Env) : Event π → System π → System π → Prop
  | verify {s : System π} (p : π) (catalogAgentId : String) (jws : Jws) (expectedFields : Dict)
      (c : Checked) (payload : Dict) (store : NonceStore)
      (hcheck : checkRequest env s.bindings catalogAgentId jws expectedFields s.clock
        defaultClockSkewSeconds = .ok c)
      (haccept : verifyRuntimeRequest env s.bindings (s.store p) catalogAgentId jws expectedFields
        s.clock defaultClockSkewSeconds = .ok (payload, store)) :
      Step env (.verify p catalogAgentId jws expectedFields) s
        { s with
          rows := store.rows
          pruneCounter := Function.update s.pruneCounter p store.pruneCounter
          accepted := s.accepted ++ [⟨c.keyId, c.nonce, c.issued, s.clock.1⟩] }
  | verifyRefused {s : System π} (p : π) (catalogAgentId : String) (jws : Jws)
      (expectedFields : Dict) (refusal : Refusal)
      (hrefuse : verifyRuntimeRequest env s.bindings (s.store p) catalogAgentId jws expectedFields
        s.clock defaultClockSkewSeconds = .error refusal) :
      Step env (.verify p catalogAgentId jws expectedFields) s s
  | consume {s : System π} (p : π) (keyId nonce issuedAt : String) (store : NonceStore)
      (hconsume : consumeRequestNonce env (s.store p) keyId nonce issuedAt s.clock
        defaultClockSkewSeconds = .ok store) :
      Step env (.consume p keyId nonce issuedAt) s
        { s with
          rows := store.rows
          pruneCounter := Function.update s.pruneCounter p store.pruneCounter }
  | abandon {s : System π} (p : π) :
      Step env (.abandon p) s
        { s with pruneCounter := Function.update s.pruneCounter p (s.pruneCounter p + 1) }
  | rebind {s : System π} (bindings : List SigningBinding) :
      Step env (.rebind bindings) s { s with bindings := bindings }
  | tick {s : System π} (clock : UtcClock) (hle : s.clock.1 ≤ clock.1) :
      Step env (.tick clock) s { s with clock := clock }

def AnyStep (env : Env) (s t : System π) : Prop := ∃ event, Step env event s t

/-! ## The property and the condition -/

/-- No request is accepted again while its `issued_at` is still inside the window. -/
def ReplayFree (s : System π) : Prop :=
  s.accepted.Pairwise fun first second =>
    first.keyId = second.keyId → first.nonce = second.nonce →
      ¬ InWindow first.issued second.time defaultClockSkewSeconds

/-- The text of `expiresAt` is before the text of `now`, although its instant is not over. -/
def TextTooEarly (expiresAt : DateTime) (now : Nat) : Prop :=
  expiresAt.offset < 0 ∧ expiresAt.wall < now ∧ (now : Int) ≤ expiresAt.instant

/-- A call of process `p` with this `issued_at` prunes no row too early: neither a stored one nor
the one that it inserts. -/
def PrunesInTime (env : Env) (s : System π) (p : π) (issuedAt : String) : Prop :=
  s.pruneCounter p % pruneEvery = 0 →
    (∀ r ∈ s.rows, ¬ TextTooEarly r.expiresAt s.clock.1) ∧
    ∀ t, nonceExpiry env issuedAt defaultClockSkewSeconds = .ok t → ¬ TextTooEarly t s.clock.1

def Undisturbed (env : Env) (s : System π) : Event π → Prop
  | .verify p _ jws _ => PrunesInTime env s p jws.issuedAt
  | .consume p _ _ issuedAt => PrunesInTime env s p issuedAt
  | .abandon _ => True
  | .rebind _ => True
  | .tick _ => True

def UndisturbedStep (env : Env) (s t : System π) : Prop :=
  ∃ event, Step env event s t ∧ Undisturbed env s event

/-! ## What a call keeps -/

theorem inWindow_iff {issued : DateTime} {now : Nat} :
    InWindow issued now defaultClockSkewSeconds ↔
      (now : Int) ≤ issued.instant + 300000000 ∧ issued.instant ≤ now + 300000000 := by
  show ((now : Int) - issued.instant).natAbs ≤ 300000000 ↔ _
  omega

theorem instant_nonceExpiry {env : Env} {issuedAt : String} {issued t : DateTime}
    (hparse : parseIssuedAt env issuedAt = .ok issued)
    (h : nonceExpiry env issuedAt defaultClockSkewSeconds = .ok t) :
    t.instant = issued.instant + 300000000 := by
  obtain ⟨issued', hparse', hwall, hoffset⟩ := nonceExpiry_ok h
  have hsame : issued' = issued := Except.ok.inj (hparse'.symm.trans hparse)
  rw [hsame] at hwall hoffset
  have hwindow : t.wall = issued.wall + 300000000 := hwall
  unfold DateTime.instant
  omega

/-- Where the wall clock of an expiry is over and its instant is not, the text is too early. -/
theorem textTooEarly_of {t : DateTime} {now : Nat} (hwall : t.wall < now)
    (hinstant : (now : Int) ≤ t.instant) : TextTooEarly t now := by
  refine ⟨?_, hwall, hinstant⟩
  unfold DateTime.instant at hinstant
  omega

/-- A row that is not over stays through a call that prunes nothing too early. -/
theorem row_survives {env : Env} {s : System π} {p : π} {keyId nonce issuedAt : String}
    {store : NonceStore} {expiresAt : DateTime}
    (hconsume : consumeRequestNonce env (s.store p) keyId nonce issuedAt s.clock
      defaultClockSkewSeconds = .ok store)
    (hexpiry : nonceExpiry env issuedAt defaultClockSkewSeconds = .ok expiresAt)
    (hprune : PrunesInTime env s p issuedAt) {r : NonceRow}
    (hr : r ∈ s.rows ++ [⟨keyId, nonce, expiresAt⟩])
    (hlive : (s.clock.1 : Int) ≤ r.expiresAt.instant) : r ∈ store.rows := by
  obtain ⟨expiresAt', hexpiry', -, -, hrows⟩ := consumeRequestNonce_ok hconsume
  have hsame : expiresAt' = expiresAt := Except.ok.inj (hexpiry'.symm.trans hexpiry)
  rw [hsame] at hrows
  rw [hrows]
  split
  · rename_i hdue
    obtain ⟨hstored, hown⟩ := hprune hdue
    have hnot : ¬ TextTooEarly r.expiresAt s.clock.1 := by
      rcases List.mem_append.mp hr with hold | hnew
      · exact hstored r hold
      · rw [List.mem_singleton.mp hnew]
        exact hown expiresAt hexpiry
    exact mem_prune.mpr ⟨hr, fun hwall => hnot (textTooEarly_of hwall hlive)⟩
  · exact hr

/-! ## The invariant -/

/-- The row of an accepted request is stored. -/
def Protected (rows : List NonceRow) (a : Acceptance) : Prop :=
  ∃ r ∈ rows, r.key = (a.keyId, a.nonce) ∧ r.expiresAt.instant = a.issued.instant + 300000000

/-- Every accepted request is protected for as long as it is in the window. -/
structure SystemInv (s : System π) : Prop where
  past : ∀ a ∈ s.accepted, a.issued.instant ≤ s.clock.1 + 300000000
  kept : ∀ a ∈ s.accepted, (s.clock.1 : Int) ≤ a.issued.instant + 300000000 → Protected s.rows a
  replayFree : ReplayFree s

theorem systemInv_started {s : System π} (h : Started s) : SystemInv s := by
  have haccepted : s.accepted = [] := h.2
  have hnone : ∀ a, a ∉ s.accepted := by
    intro a
    rw [haccepted]
    exact List.not_mem_nil
  refine ⟨fun a ha => absurd ha (hnone a), fun a ha => absurd ha (hnone a), ?_⟩
  unfold ReplayFree
  rw [haccepted]
  exact .nil

theorem protected_consume {env : Env} {s : System π} {p : π} {keyId nonce issuedAt : String}
    {store : NonceStore} (hinv : SystemInv s)
    (hconsume : consumeRequestNonce env (s.store p) keyId nonce issuedAt s.clock
      defaultClockSkewSeconds = .ok store)
    (hprune : PrunesInTime env s p issuedAt) {a : Acceptance} (ha : a ∈ s.accepted)
    (hwindow : (s.clock.1 : Int) ≤ a.issued.instant + 300000000) : Protected store.rows a := by
  obtain ⟨r, hr, hkey, hinstant⟩ := hinv.kept a ha hwindow
  obtain ⟨expiresAt, hexpiry, -⟩ := consumeRequestNonce_ok hconsume
  have hmem : r ∈ s.rows ++ [⟨keyId, nonce, expiresAt⟩] := List.mem_append_left _ hr
  have hlive : (s.clock.1 : Int) ≤ r.expiresAt.instant := by
    rw [hinstant]
    exact hwindow
  exact ⟨r, row_survives hconsume hexpiry hprune hmem hlive, hkey, hinstant⟩

/-- The row that a call inserts protects its request. -/
theorem protected_own {env : Env} {s : System π} {p : π} {c : Checked} {store : NonceStore}
    (hconsume : consumeRequestNonce env (s.store p) c.keyId c.nonce c.issuedAt s.clock
      defaultClockSkewSeconds = .ok store)
    (hprune : PrunesInTime env s p c.issuedAt)
    (hparse : parseIssuedAt env c.issuedAt = .ok c.issued)
    (hwindow : (s.clock.1 : Int) ≤ c.issued.instant + 300000000) (time : Nat) :
    Protected store.rows ⟨c.keyId, c.nonce, c.issued, time⟩ := by
  obtain ⟨expiresAt, hexpiry, -⟩ := consumeRequestNonce_ok hconsume
  have hinstant := instant_nonceExpiry hparse hexpiry
  have hmem : (⟨c.keyId, c.nonce, expiresAt⟩ : NonceRow) ∈
      s.rows ++ [⟨c.keyId, c.nonce, expiresAt⟩] :=
    List.mem_append_right _ (List.mem_singleton.mpr rfl)
  have hlive : (s.clock.1 : Int) ≤ expiresAt.instant := by
    rw [hinstant]
    exact hwindow
  exact ⟨_, row_survives hconsume hexpiry hprune hmem hlive, rfl, hinstant⟩

theorem systemInv_verify {env : Env} {s : System π} {p : π} {catalogAgentId : String} {jws : Jws}
    {expectedFields : Dict} {c : Checked} {payload : Dict} {store : NonceStore}
    (hinv : SystemInv s)
    (hcheck : checkRequest env s.bindings catalogAgentId jws expectedFields s.clock
      defaultClockSkewSeconds = .ok c)
    (haccept : verifyRuntimeRequest env s.bindings (s.store p) catalogAgentId jws expectedFields
      s.clock defaultClockSkewSeconds = .ok (payload, store))
    (hprune : PrunesInTime env s p jws.issuedAt) :
    SystemInv { s with
      rows := store.rows
      pruneCounter := Function.update s.pruneCounter p store.pruneCounter
      accepted := s.accepted ++ [⟨c.keyId, c.nonce, c.issued, s.clock.1⟩] } := by
  obtain ⟨c', hcheck', hconsume, -⟩ := verifyRuntimeRequest_ok haccept
  have hsame : c' = c := Except.ok.inj (hcheck'.symm.trans hcheck)
  rw [hsame] at hconsume
  obtain ⟨hissuedAt, hparse, hwindow⟩ := checkRequest_ok hcheck
  rw [← hissuedAt] at hprune
  obtain ⟨hlate, hearly⟩ := inWindow_iff.mp hwindow
  refine ⟨?_, ?_, ?_⟩
  · intro a ha
    rcases List.mem_append.mp ha with hold | hnew
    · exact hinv.past a hold
    · rw [List.mem_singleton.mp hnew]
      exact hearly
  · intro a ha hin
    rcases List.mem_append.mp ha with hold | hnew
    · exact protected_consume hinv hconsume hprune hold hin
    · rw [List.mem_singleton.mp hnew]
      exact protected_own hconsume hprune hparse hlate _
  · show List.Pairwise _ (s.accepted ++ [_])
    rw [List.pairwise_append]
    refine ⟨hinv.replayFree, List.pairwise_singleton _ _, ?_⟩
    intro first hfirst second hsecond hkeyId hnonce hin
    rw [List.mem_singleton.mp hsecond] at hkeyId hnonce hin
    -- the row of the first acceptance makes the insert of the second fail
    obtain ⟨r, hr, hkey, -⟩ := hinv.kept first hfirst (inWindow_iff.mp hin).1
    obtain ⟨-, -, hfree, -⟩ := consumeRequestNonce_ok hconsume
    have hcontra : r.key = (c.keyId, c.nonce) := by
      rw [hkey]
      exact Prod.ext hkeyId hnonce
    exact hfree r hr hcontra

theorem systemInv_preserved (env : Env) :
    Preserves (UndisturbedStep env : System π → System π → Prop) SystemInv := by
  rintro s t ⟨event, hstep, hundisturbed⟩ hinv
  cases hstep with
  | verify p catalogAgentId jws expectedFields c payload store hcheck haccept =>
    exact systemInv_verify hinv hcheck haccept hundisturbed
  | verifyRefused => exact hinv
  | consume p keyId nonce issuedAt store hconsume =>
    refine ⟨hinv.past, ?_, hinv.replayFree⟩
    intro a ha hin
    exact protected_consume hinv hconsume hundisturbed ha hin
  | abandon p => exact ⟨hinv.past, hinv.kept, hinv.replayFree⟩
  | rebind bindings => exact ⟨hinv.past, hinv.kept, hinv.replayFree⟩
  | tick clock hle =>
    refine ⟨?_, ?_, hinv.replayFree⟩
    · intro a ha
      have hpast := hinv.past a ha
      show a.issued.instant ≤ clock.1 + 300000000
      omega
    · intro a ha hin
      change (clock.1 : Int) ≤ a.issued.instant + 300000000 at hin
      exact hinv.kept a ha (by omega)

/-- While no prune takes a row whose instant is not over, no request is accepted twice inside the
window of its `issued_at`. -/
theorem replay_free {env : Env} {s : System π} (hs : Reachable Started (UndisturbedStep env) s) :
    ReplayFree s :=
  (reachable_invariant (fun _ h => systemInv_started h) (systemInv_preserved env) hs).replayFree

/-! ## A request signed west of UTC -/

/-- Midnight of 2026-01-01, in microseconds. -/
def newYear : Nat := 63902822400000000

theorem newYear_lt : newYear < maxMicroseconds := by decide

/-- Midnight one hour west of UTC, which is 01:00 in UTC. -/
def newYearWest : DateTime := ⟨newYear, -3600000000, newYear_lt, by decide⟩

def exampleEnv : Env where
  fromisoformat text :=
    if text = "2026-01-01T00:00:00+00:00" then some (.aware (.utc newYear newYear_lt))
    else if text = "2026-01-01T00:00:00-01:00" then some (.aware newYearWest)
    else none
  verify x signature _ := some (decide (x = "x_1" ∧ signature = "sig_1"))

def exampleBinding : SigningBinding where
  bindingId := "b_1"
  catalogAgentId := "cagt_1"
  merchantId := "m_1"
  runtimeOrigin := "https://one.example"
  a2aEndpoint := "https://one.example/a2a"
  keyId := "key_1"
  keyThumbprint := "thumb_1"
  bindingVersion := 1
  serviceEpoch := 1
  status := .active
  expiresAt := ""
  keyJwk := [("kty", .text "OKP"), ("crv", .text "Ed25519"), ("x", .text "x_1")]

def examplePayload (issuedAt : String) : Dict :=
  [("binding_id", .text "b_1"), ("agent_id", .text "cagt_1"), ("issued_at", .text issuedAt),
    ("nonce", .text "nonce-aaaaaaaa")]

/-- A signed heartbeat. -/
def exampleJws (issuedAt : String) : Jws :=
  .decoded [("alg", .text "EdDSA"), ("kid", .text "key_1")] (examplePayload issuedAt) "sig_1"
    "header.payload"

def exampleChecked (issuedAt : String) (issued : DateTime) : Checked :=
  ⟨"key_1", "nonce-aaaaaaaa", issuedAt, issued, examplePayload issuedAt⟩

def exampleRow (expiresAt : DateTime) : NonceRow := ⟨"key_1", "nonce-aaaaaaaa", expiresAt⟩

def exampleAcceptance (issued : DateTime) (time : Nat) : Acceptance :=
  ⟨"key_1", "nonce-aaaaaaaa", issued, time⟩

/-- One process at a clock time. -/
def oneProcess (clock : UtcClock) (rows : List NonceRow) (counter : Nat)
    (accepted : List Acceptance) : System Unit :=
  ⟨clock, [exampleBinding], rows, fun _ => counter, accepted⟩

theorem started_oneProcess (clock : UtcClock) : Started (oneProcess clock [] 0 []) :=
  ⟨rfl, rfl⟩

theorem oneProcess_verifies (accepted : List Acceptance) {clock : UtcClock}
    {rows rows' : List NonceRow} {counter : Nat} {issuedAt : String} {issued : DateTime}
    (hcheck : checkRequest exampleEnv [exampleBinding] "cagt_1" (exampleJws issuedAt)
      [("agent_id", .text "cagt_1")] clock defaultClockSkewSeconds =
        .ok (exampleChecked issuedAt issued))
    (hconsume : consumeRequestNonce exampleEnv ⟨rows, counter⟩ "key_1" "nonce-aaaaaaaa" issuedAt
      clock defaultClockSkewSeconds = .ok ⟨rows', counter + 1⟩) :
    Step exampleEnv (.verify () "cagt_1" (exampleJws issuedAt) [("agent_id", .text "cagt_1")])
      (oneProcess clock rows counter accepted)
      (oneProcess clock rows' (counter + 1)
        (accepted ++ [exampleAcceptance issued clock.1])) := by
  have haccept := verifyRuntimeRequest_of hcheck hconsume
  have hstep := Step.verify (s := oneProcess clock rows counter accepted) () _ _ _ _ _ _ hcheck
    haccept
  rw [Update.update_unit] at hstep
  exact hstep

def clockUtc : UtcClock := ⟨newYear, newYear_lt⟩

theorem check_utc : checkRequest exampleEnv [exampleBinding] "cagt_1"
    (exampleJws "2026-01-01T00:00:00+00:00") [("agent_id", .text "cagt_1")] clockUtc
    defaultClockSkewSeconds =
      .ok (exampleChecked "2026-01-01T00:00:00+00:00" (.utc newYear newYear_lt)) := rfl

theorem consume_utc : consumeRequestNonce exampleEnv ⟨[], 0⟩ "key_1" "nonce-aaaaaaaa"
    "2026-01-01T00:00:00+00:00" clockUtc defaultClockSkewSeconds =
      .ok ⟨prune clockUtc [exampleRow ⟨newYear + 300000000, 0, by decide, by decide⟩], 1⟩ := rfl

/-- A heartbeat signed in UTC is accepted, and its row outlives the prune of its own call. -/
theorem replay_free_utc :
    ReplayFree (oneProcess clockUtc
      (prune clockUtc [exampleRow ⟨newYear + 300000000, 0, by decide, by decide⟩]) 1
      [exampleAcceptance (.utc newYear newYear_lt) newYear]) := by
  have hstep := oneProcess_verifies [] check_utc consume_utc
  have htime : PrunesInTime exampleEnv (oneProcess clockUtc [] 0 []) ()
      "2026-01-01T00:00:00+00:00" := by
    intro _
    refine ⟨fun r hr => absurd hr List.not_mem_nil, fun t ht hearly => ?_⟩
    obtain ⟨issued, hparse, -, hoffset⟩ := nonceExpiry_ok ht
    rw [← Except.ok.inj hparse] at hoffset
    have hwest := hearly.1
    rw [hoffset] at hwest
    exact absurd hwest (by decide)
  have hundisturbed : UndisturbedStep exampleEnv (oneProcess clockUtc [] 0 []) _ :=
    ⟨_, hstep, htime⟩
  exact replay_free (reachable_step (reachable_init (started_oneProcess clockUtc)) hundisturbed)

/-- 01:00 in UTC. -/
def clockWest : UtcClock := ⟨newYear + 3600000000, by decide⟩

def expiryWest : DateTime := ⟨newYear + 300000000, -3600000000, by decide, by decide⟩

theorem check_west : checkRequest exampleEnv [exampleBinding] "cagt_1"
    (exampleJws "2026-01-01T00:00:00-01:00") [("agent_id", .text "cagt_1")] clockWest
    defaultClockSkewSeconds =
      .ok (exampleChecked "2026-01-01T00:00:00-01:00" newYearWest) := rfl

/-- The row is written with `00:05` and is pruned at `01:00`. -/
theorem prune_west : prune clockWest [exampleRow expiryWest] = [] := by
  rw [prune_eq]
  have hover : expiryWest.wall < clockWest.1 := by decide
  simp [exampleRow, hover]

theorem consume_west : consumeRequestNonce exampleEnv ⟨[], 0⟩ "key_1" "nonce-aaaaaaaa"
    "2026-01-01T00:00:00-01:00" clockWest defaultClockSkewSeconds = .ok ⟨[], 1⟩ := by
  have hpruned : consumeRequestNonce exampleEnv ⟨[], 0⟩ "key_1" "nonce-aaaaaaaa"
      "2026-01-01T00:00:00-01:00" clockWest defaultClockSkewSeconds =
        .ok ⟨prune clockWest [exampleRow expiryWest], 1⟩ := rfl
  rw [hpruned, prune_west]

theorem consume_west_again : consumeRequestNonce exampleEnv ⟨[], 1⟩ "key_1" "nonce-aaaaaaaa"
    "2026-01-01T00:00:00-01:00" clockWest defaultClockSkewSeconds =
      .ok ⟨[exampleRow expiryWest], 2⟩ := rfl

/-- A heartbeat signed with the offset `-01:00` is accepted twice at the same clock time: the first
call prunes the row that it has just inserted. -/
theorem western_request_replayed :
    ¬ ∀ s : System Unit, Reachable Started (AnyStep exampleEnv) s → ReplayFree s := by
  intro hall
  have hfirst : AnyStep exampleEnv _ _ :=
    ⟨_, oneProcess_verifies [] check_west consume_west⟩
  have hsecond : AnyStep exampleEnv _ _ :=
    ⟨_, oneProcess_verifies [exampleAcceptance newYearWest clockWest.1] check_west
      consume_west_again⟩
  have hreach := reachable_step
    (reachable_step (reachable_init (started_oneProcess clockWest)) hfirst) hsecond
  have hfree := hall _ hreach
  have hpair := (List.pairwise_cons.mp hfree).1 _ List.mem_cons_self rfl rfl
  exact hpair (by decide)

end KiwiCatalog.Signature
