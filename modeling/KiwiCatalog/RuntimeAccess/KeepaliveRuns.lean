import KiwiCatalog.Lib.Transition
import KiwiCatalog.RuntimeAccess.KeepaliveSelection

/-!
# KeepaliveRuns — passes, grants and revocations in any order

The attempt that is stored with a consent is not before any probe under it, and a claim asks that
it lies the cooldown back.
-/

set_option autoImplicit false

namespace KiwiCatalog.Keepalive

open Binding (RuntimeBinding)
open IsoText (encodes_secondText offsetText secondText maxSeconds)
open Transition (Reachable reachable_init reachable_invariant reachable_step)

variable {env : Env} {sched : Scheduler} {now : Clock sched} {wall : Nat}

/-! ## 1. The system -/

/-- A probe that was sent; `consent` counts the grants for the agent before it. -/
structure Probe where
  agentId : String
  consent : Nat
  time : Nat
  deriving DecidableEq, Repr

structure System where
  tables : Tables
  -- not stored: the grants of each agent so far, and the probes in the order of the passes
  grants : String → Nat
  probes : List Probe

def System.probe (s : System) (time : Nat) (agentId : String) : Probe :=
  ⟨agentId, s.grants agentId, time⟩

/-- A pass that raises leaves no claim behind and probes nobody. -/
inductive Step (env : Env) (sched : Scheduler) : System → System → Prop
  | pass (s : System) (now : Clock sched) (wall : Nat) (t : Tables) (selected : List Candidate)
      (selects : candidates env sched now wall sched.pageSize s.tables = .ok (t, selected)) :
      Step env sched s { s with
        tables := t
        probes := s.probes ++
          ((woken env wall t selected).map Candidate.agentId).map (s.probe now.1) }
  | grant (s : System) (wall : Nat) (agentId merchantId termsVersion : String)
      (granted : grantable env wall s.tables agentId merchantId termsVersion = true) :
      Step env sched s { s with
        tables := grant agentId merchantId s.tables
        grants := Function.update s.grants agentId (s.grants agentId + 1) }
  | revoke (s : System) (agentId merchantId : String) :
      Step env sched s { s with tables := revoke agentId merchantId s.tables }
  -- whatever happens to the other tables
  | others (s : System) (t : Tables) (consents : t.consents = s.tables.consents) :
      Step env sched s { s with tables := t }

def Started (s : System) : Prop := s.probes = []

/-- Two probes of an agent under one consent are the cooldown apart. -/
def Spaced (sched : Scheduler) (probes : List Probe) : Prop :=
  probes.Pairwise fun p q =>
    p.agentId = q.agentId → p.consent = q.consent → p.time + sched.cooldownSeconds ≤ q.time

/-- The attempt that is stored with a consent is not before `time`. -/
def StoredFrom (t : Tables) (agentId : String) (time : Nat) : Prop :=
  ∃ k seconds, t.consents agentId = some k ∧ k.lastAttemptAt = isoText seconds ∧
    seconds < maxSeconds ∧ time ≤ seconds

/-! ## 2. The invariant -/

structure Timed (sched : Scheduler) (s : System) : Prop where
  spaced : Spaced sched s.probes
  counted : ∀ p ∈ s.probes, p.consent ≤ s.grants p.agentId
  stored : ∀ p ∈ s.probes, p.consent = s.grants p.agentId → StoredFrom s.tables p.agentId p.time

theorem encodes_isoText : IsoText.Encodes (19 + (offsetText 0).length) maxSeconds isoText :=
  encodes_secondText.append (offsetText 0)

theorem isoText_ne_nil {seconds : Nat} (h : seconds < maxSeconds) : isoText seconds ≠ [] := by
  intro hnil
  have hlength := encodes_isoText.length_eq seconds h
  rw [hnil, List.length_nil] at hlength
  omega

/-- A consent that can be claimed was last claimed the cooldown before. -/
theorem cooled {t : Tables} {agentId : String} {time : Nat}
    (hclaimable : claimable sched now t agentId = true) (hstored : StoredFrom t agentId time) :
    time + sched.cooldownSeconds ≤ now.1 := by
  obtain ⟨k, seconds, hconsent, hattempt, hmax, htime⟩ := hstored
  unfold claimable at hclaimable
  rw [hconsent, Option.any_some, hattempt] at hclaimable
  simp only [isoText_ne_nil hmax, decide_false, Bool.false_or, Bool.and_eq_true,
    Bool.not_eq_true', decide_eq_false_iff_not] at hclaimable
  have hcool := sched.cooldown_min
  have hnow := now.2
  have hbefore : ¬ now.1 - sched.cooldownSeconds < seconds := by
    intro hlt
    exact hclaimable.2 ((encodes_isoText.lt_iff _ (by omega) _ hmax).mpr hlt)
  omega

theorem storedFrom_attempt {t : Tables} {agentId claimed : String} {time : Nat}
    (hclaimed : agentId = claimed → time ≤ now.1) (hstored : StoredFrom t agentId time) :
    StoredFrom (attempt sched now claimed t) agentId time := by
  obtain ⟨k, seconds, hconsent, hattempt, hmax, htime⟩ := hstored
  unfold StoredFrom
  rw [consents_attempt, hconsent, Option.map_some]
  by_cases hself : agentId = claimed
  · rw [if_pos hself]
    exact ⟨_, now.1, rfl, rfl, now.2.2, hclaimed hself⟩
  · rw [if_neg hself]
    exact ⟨k, seconds, rfl, hattempt, hmax, htime⟩

/-- One claim, with its probe. -/
theorem Timed.claim {s : System} {agentId : String} (h : Timed sched s)
    (hclaimable : claimable sched now s.tables agentId = true) :
    Timed sched { s with
      tables := attempt sched now agentId s.tables
      probes := s.probes ++ [s.probe now.1 agentId] } where
  spaced := by
    apply List.pairwise_append.mpr
    refine ⟨h.spaced, List.pairwise_singleton _ _, ?_⟩
    intro p hp q hq
    rw [List.mem_singleton.mp hq]
    intro hagent hconsent
    have hagent' : p.agentId = agentId := hagent
    have hconsent' : p.consent = s.grants agentId := hconsent
    have hstored := h.stored p hp (by rw [hconsent', hagent'])
    rw [hagent'] at hstored
    exact cooled hclaimable hstored
  counted := by
    intro p hp
    rcases List.mem_append.mp hp with hold | hnew
    · exact h.counted p hold
    · rw [List.mem_singleton.mp hnew]
      exact Nat.le_refl _
  stored := by
    intro p hp hconsent
    rcases List.mem_append.mp hp with hold | hnew
    · have hstored := h.stored p hold hconsent
      apply storedFrom_attempt _ hstored
      intro hself
      rw [hself] at hstored
      have hcooled := cooled hclaimable hstored
      omega
    · rw [List.mem_singleton.mp hnew]
      show StoredFrom (attempt sched now agentId s.tables) agentId now.1
      cases hconsent : s.tables.consents agentId with
      | none =>
        unfold claimable at hclaimable
        rw [hconsent] at hclaimable
        cases hclaimable
      | some k =>
        unfold StoredFrom
        rw [consents_attempt, hconsent, Option.map_some, if_pos rfl]
        exact ⟨_, now.1, rfl, rfl, now.2.2, Nat.le_refl _⟩

theorem Timed.sublist {s : System} {probes : List Probe} (h : Timed sched s)
    (hsub : probes.Sublist s.probes) : Timed sched { s with probes := probes } where
  spaced := List.Pairwise.sublist hsub h.spaced
  counted p hp := h.counted p (hsub.subset hp)
  stored p hp := h.stored p (hsub.subset hp)

theorem Timed.pass {s : System} {t : Tables} {selected : List Candidate} (h : Timed sched s)
    (hselects : candidates env sched now wall sched.pageSize s.tables = .ok (t, selected)) :
    Timed sched { s with
      tables := t
      probes := s.probes ++
        ((woken env wall t selected).map Candidate.agentId).map (s.probe now.1) } := by
  have hsize : 0 < sched.pageSize := by
    unfold Scheduler.pageSize
    omega
  rw [candidates_eq hsize] at hselects
  have hclaims : Timed sched { s with
      tables := t
      probes := s.probes ++ (selected.map Candidate.agentId).map (s.probe now.1) } := by
    apply @scanRows_keeps env sched now wall (fun t' cs => Timed sched { s with
      tables := t', probes := s.probes ++ (cs.map Candidate.agentId).map (s.probe now.1) })
      _ _ _ _ _ hselects (by simpa using h)
    intro t' cs row secret hrow hcs
    have hnext := hcs.claim (isSome_consent_of_selects hrow).2
    rw [List.map_append, List.map_append, ← List.append_assoc]
    exact hnext
  apply hclaims.sublist
  apply List.Sublist.append_left
  exact (List.filter_sublist.map _).map _

theorem Timed.grant {s : System} (h : Timed sched s) (agentId merchantId : String) :
    Timed sched { s with
      tables := Keepalive.grant agentId merchantId s.tables
      grants := Function.update s.grants agentId (s.grants agentId + 1) } where
  spaced := h.spaced
  counted p hp := by
    have hcount := h.counted p hp
    show p.consent ≤ Function.update s.grants agentId (s.grants agentId + 1) p.agentId
    by_cases hself : p.agentId = agentId
    · rw [hself, Function.update_self]
      rw [hself] at hcount
      omega
    · rw [Function.update_of_ne hself]
      exact hcount
  stored p hp hconsent := by
    have hcount := h.counted p hp
    have hconsent' :
        p.consent = Function.update s.grants agentId (s.grants agentId + 1) p.agentId := hconsent
    by_cases hself : p.agentId = agentId
    · -- no probe is under the new consent yet
      rw [hself, Function.update_self] at hconsent'
      rw [hself] at hcount
      omega
    · rw [Function.update_of_ne hself] at hconsent'
      obtain ⟨k, seconds, hk, hrest⟩ := h.stored p hp hconsent'
      refine ⟨k, seconds, ?_, hrest⟩
      show Function.update s.tables.consents agentId _ p.agentId = some k
      rw [Function.update_of_ne hself]
      exact hk

theorem Timed.revoke {s : System} (h : Timed sched s) (agentId merchantId : String) :
    Timed sched { s with tables := Keepalive.revoke agentId merchantId s.tables } where
  spaced := h.spaced
  counted := h.counted
  stored p hp hconsent := by
    obtain ⟨k, seconds, hk, hattempt, hrest⟩ := h.stored p hp hconsent
    by_cases hself : p.agentId = agentId
    · rw [hself] at hk
      refine ⟨if k.merchantId = merchantId then { k with revoked := true } else k, seconds, ?_, ?_,
        hrest⟩
      · show Function.update s.tables.consents agentId _ p.agentId = _
        rw [hself, Function.update_self, hk, Option.map_some]
      · split <;> exact hattempt
    · refine ⟨k, seconds, ?_, hattempt, hrest⟩
      show Function.update s.tables.consents agentId _ p.agentId = some k
      rw [Function.update_of_ne hself]
      exact hk

theorem timed_preserved (env : Env) (sched : Scheduler) :
    Transition.Preserves (Step env sched) (Timed sched) := by
  intro s s' hstep h
  cases hstep with
  | pass now wall t selected hselects => exact h.pass hselects
  | grant wall agentId merchantId terms _ => exact h.grant agentId merchantId
  | revoke agentId merchantId => exact h.revoke agentId merchantId
  | others t hconsents =>
    refine ⟨h.spaced, h.counted, ?_⟩
    intro p hp hconsent
    obtain ⟨k, seconds, hk, hrest⟩ := h.stored p hp hconsent
    exact ⟨k, seconds, hconsents ▸ hk, hrest⟩

theorem spaced_of_reachable {s : System} (hs : Reachable Started (Step env sched) s) :
    Spaced sched s.probes := by
  have htimed : Timed sched s := by
    apply reachable_invariant _ (timed_preserved env sched) hs
    intro s₀ hstart
    have hnone : s₀.probes = [] := hstart
    constructor
    · rw [Spaced, hnone]
      exact List.Pairwise.nil
    · simp [hnone]
    · simp [hnone]
  exact htimed.spaced

/-! ## 3. The selection of every pass -/

/-- A pass probes exactly the first eligible rows, whatever the size of its pages. -/
def Exact (env : Env) (sched : Scheduler) (now : Clock sched) (wall : Nat) (t : Tables) : Prop :=
  ∀ pageSize, 0 < pageSize →
    probed env sched now wall pageSize t = .ok (firstEligible env sched now wall t)

/-- Every pass is exact but those that a row hinders, and the probes of all runs are spaced. -/
theorem keepalive_selection (env : Env) (sched : Scheduler) :
    (∀ (t : Tables) (now : Clock sched) (wall : Nat), Exact env sched now wall t ↔
      Unhindered env sched now wall t sched.maxAgents (ordered t)) ∧
    ∀ s, Reachable Started (Step env sched) s → Spaced sched s.probes := by
  constructor
  · intro t now wall
    constructor
    · intro hexact
      rcases @probed_cases env sched now wall 1 Nat.one_pos t with ⟨hclear, -⟩ | ⟨-, hraised⟩
      · exact hclear
      · rw [hexact 1 Nat.one_pos] at hraised
        cases hraised
    · intro hclear pageSize hsize
      rcases @probed_cases env sched now wall pageSize hsize t with ⟨-, hok⟩ | ⟨hblocked, -⟩
      · exact hok
      · exact absurd hclear hblocked
  · intro s hs
    exact spaced_of_reachable hs

/-- Two shops that are granted, each with a runtime and a secret. -/
def pairOf (first second : AgentRow) (hne : first.catalogAgentId ≠ second.catalogAgentId) :
    Tables where
  agents := [first, second]
  consents _ := some ⟨"merchant", RuntimeAccess.keepaliveTermsVersion, false, []⟩
  access :=
    { configs := [⟨first.catalogAgentId, 1, "sealed", "k1", .active, ""⟩,
        ⟨second.catalogAgentId, 1, "sealed", "k1", .active, ""⟩]
      consents := fun _ => some ⟨"merchant", RuntimeAccess.consentTermsVersion, false⟩ }
  bindings := [⟨"b1", first.catalogAgentId, "merchant", "https://one.example",
      "https://one.example/a2a", "", "", 1, 1, .active⟩,
    ⟨"b2", second.catalogAgentId, "merchant", "https://two.example",
      "https://two.example/a2a", "", "", 1, 1, .active⟩]
  expiresAt _ := .never
  agents_unique := by simp [hne]
  active_unique := by simp [RuntimeBinding.isActive, hne]

/-- A deployment that reads one text, which has no offset. -/
def openEnv : Env where
  custodyEnabled := true
  encryptSecret secret := (secret, "k1")
  decryptSecret ciphertext _ := some ciphertext
  safeEndpoint _ := true
  parse text := if text = "2026-01-01T00:00:00".toList then .escapes else .unreadable

theorem sixty_le_seventyFive : 60 ≤ 75 := by decide

theorem one_le_one : 1 ≤ 1 := by decide

theorem one_le_hundred : 1 ≤ 100 := by decide

def onePerPass : Scheduler where
  ttlSeconds := 900
  leadSeconds := 450
  cooldownSeconds := 75
  maxAgents := 1
  cooldown_min := sixty_le_seventyFive
  agents_min := one_le_one
  agents_max := one_le_hundred

def atThousand : Clock onePerPass := ⟨1000, by decide, by decide⟩

def freshWithoutOffset : AgentRow :=
  ⟨"a1", "merchant", .active, .active, .fresh, "2026-01-01T00:00:00".toList, by decide⟩

def staleAgent : AgentRow :=
  ⟨"a2", "merchant", .active, .active, .stale, "2026-01-02T00:00:00Z".toList, by decide⟩

def secondStale : AgentRow :=
  ⟨"a3", "merchant", .active, .active, .stale, "2026-01-03T00:00:00Z".toList, by decide⟩

def calmPair : Tables := pairOf staleAgent secondStale (by decide)

def hinderedPair : Tables := pairOf freshWithoutOffset staleAgent (by decide)

theorem ordered_calmPair : ordered calmPair = joined calmPair :=
  List.mergeSort_of_pairwise (by decide)

theorem ordered_hinderedPair : ordered hinderedPair = joined hinderedPair :=
  List.mergeSort_of_pairwise (by decide)

/-- The pass takes the first of two agents, and its probe is the only one. -/
theorem keepalive_selection_calmPair :
    Exact openEnv onePerPass atThousand 0 calmPair ∧
    ∃ s, Reachable Started (Step openEnv onePerPass) s ∧ s.probes = [⟨"a2", 0, 1000⟩] ∧
      Spaced onePerPass s.probes := by
  have hclear : Unhindered openEnv onePerPass atThousand 0 calmPair onePerPass.maxAgents
      (ordered calmPair) := by
    intro before row behind hsplit hrow
    have hstale : ∀ r ∈ joined calmPair, r.freshnessState = .stale := by decide +kernel
    have hmem : row ∈ joined calmPair := by
      rw [← ordered_calmPair, hsplit]
      simp
    rw [hinders, hstale row hmem] at hrow
    cases hrow.1
  have hexact := ((keepalive_selection openEnv onePerPass).1 calmPair atThousand 0).mpr hclear
  refine ⟨hexact, ?_⟩
  have hprobed := hexact onePerPass.pageSize (by decide)
  have hfirst : firstEligible openEnv onePerPass atThousand 0 calmPair = ["a2"] := by
    rw [firstEligible, ordered_calmPair]
    decide +kernel
  rw [hfirst, probed] at hprobed
  cases hrun : candidates openEnv onePerPass atThousand 0 onePerPass.pageSize calmPair with
  | error raised =>
    rw [hrun] at hprobed
    cases hprobed
  | ok scanned =>
    rw [hrun] at hprobed
    have hwoken : (woken openEnv 0 scanned.1 scanned.2).map Candidate.agentId = ["a2"] :=
      Except.ok.inj hprobed
    have hstart : Started ⟨calmPair, fun _ => 0, []⟩ := rfl
    have hstep := Step.pass ⟨calmPair, fun _ => 0, []⟩ atThousand 0 scanned.1 scanned.2 hrun
    have hreach := reachable_step (reachable_init hstart) hstep
    refine ⟨_, hreach, ?_, (keepalive_selection openEnv onePerPass).2 _ hreach⟩
    rw [hwoken]
    rfl

/-- A stored time without an offset stops the pass before the agent that is due. -/
theorem time_without_offset_stops_pass :
    firstEligible openEnv onePerPass atThousand 0 hinderedPair = ["a2"] ∧
      ¬ Exact openEnv onePerPass atThousand 0 hinderedPair := by
  constructor
  · rw [firstEligible, ordered_hinderedPair]
    decide +kernel
  · intro hexact
    rcases @probed_cases openEnv onePerPass atThousand 0 8 (by decide) hinderedPair with
      ⟨hclear, -⟩ | ⟨-, hraised⟩
    · cases hrows : joined hinderedPair with
      | nil =>
        have hsome : (joined hinderedPair).length = 2 := by decide +kernel
        rw [hrows] at hsome
        cases hsome
      | cons row rest =>
        have hrow : hinders openEnv row := by
          have hhead : (joined hinderedPair).head?.any (fun r =>
              r.freshnessState = .fresh && r.lastSeenAt ≠ [] &&
                openEnv.parse r.lastSeenAt = .escapes) = true := by decide +kernel
          rw [hrows] at hhead
          simpa [hinders, and_assoc] using hhead
        rw [ordered_hinderedPair, hrows] at hclear
        exact not_unhindered_cons hrow (by decide) hclear
    · rw [hexact 8 (by decide)] at hraised
      cases hraised

end KiwiCatalog.Keepalive
