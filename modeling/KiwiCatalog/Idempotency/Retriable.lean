import KiwiCatalog.Idempotency.AtMostOnce

/-!
# Retriable — what a failed request leaves in the ledger

The `except` block deletes the claim on a connection that is then closed without a commit.  The
claim goes away with its transaction, unless the handler has committed it on the way to the failure.
-/

set_option autoImplicit false
set_option linter.unusedSectionVars false

namespace KiwiCatalog.Idempotency

open Transition

variable {ρ π δ : Type} [DecidableEq ρ] [DecidableEq π]

/-- No claim is left, and the same request sent again is executed. -/
structure Retriable (ledger : List (LedgerRow ρ)) (r : Request) : Prop where
  noClaim : ∀ row ∈ ledger, row.triple = r.triple → row.status ≠ .processing
  executed : replay ledger r = .ok none

/-- The handler has claimed, and has committed since. -/
def CommittedSinceClaim (s : System ρ π δ) (p : ρ) : Prop :=
  (s.phase p).claimed? = some true

variable {env : Env ρ δ} {request : ρ → Request} {process : ρ → π} {s t : System ρ π δ} {p : ρ}

theorem not_retriable_of_claim {db : Db ρ δ} (h : HasClaim request db p) :
    ¬ Retriable db.ledger (request p) := by
  intro hretriable
  obtain ⟨row, hrow, htriple, -, -, hstatus⟩ := h
  exact hretriable.noClaim row hrow htriple hstatus

theorem retriable_of_free {ledger : List (LedgerRow ρ)} {r : Request}
    (h : ∀ row ∈ ledger, row.triple ≠ r.triple) : Retriable ledger r :=
  ⟨fun row hrow htriple => absurd htriple (h row hrow), replay_of_free h⟩

/-- A request that fails after its claim can be sent again exactly when its handler has not
committed since the claim. -/
theorem retriable_iff (hs : Reachable (Started request) (AnyStep env request process) s)
    (hkeyed : (request p).keyed = true)
    (hstep : Step env request process (.raises p) s t) :
    Retriable t.committed.ledger (request p) ↔ ¬ CommittedSinceClaim s p := by
  have hinv := reachable_inv hs
  cases hstep with
  | @raises _ _ midCommit e hphase =>
    have hclaiming := hinv.claiming p hkeyed midCommit hphase
    rw [rollback_clearing]
    show Retriable s.committed.ledger (request p) ↔ (s.phase p).claimed? ≠ some true
    rw [hphase]
    cases midCommit with
    | false =>
      obtain ⟨db, -, -, hfree⟩ := hclaiming
      have hnot : (some false : Option Bool) ≠ some true := by decide
      exact ⟨fun _ => hnot, fun _ => retriable_of_free hfree⟩
    | true =>
      have hleft := not_retriable_of_claim hclaiming.1
      exact ⟨fun h => absurd h hleft, fun h => absurd rfl h⟩

/-! ## The handlers that never commit on the way -/

/-- Verification and claiming commit before they use the network. -/
def Endpoint.atomic : Endpoint → Bool
  | .verify | .claim => false
  | _ => true

/-- What is left of the work of such a handler commits nowhere. -/
def PhaseAtomic : Phase δ → Prop
  | .work w midCommit => w.CommitFree ∧ midCommit = false
  | .complete _ midCommit => midCommit = false
  | _ => True

theorem phaseAtomic_afterClaim (env : Env ρ δ) (request : ρ → Request) {p : ρ}
    (h : (request p).triple.endpoint.atomic = true) : PhaseAtomic (afterClaim env request p) := by
  unfold afterClaim
  cases hendpoint : (request p).triple.endpoint with
  | register => exact ⟨(env.atomicWork p).2, rfl⟩
  | refresh => exact rfl
  | suspend => exact ⟨(env.atomicWork p).2, rfl⟩
  | reinstate => exact ⟨(env.atomicWork p).2, rfl⟩
  | publish => exact ⟨(env.atomicWork p).2, rfl⟩
  | verify =>
    rw [hendpoint] at h
    cases h
  | claim =>
    rw [hendpoint] at h
    cases h

theorem phaseAtomic_of_unclaimed {phase : Phase δ} (h : phase.unclaimed = true) :
    PhaseAtomic phase := by
  cases phase with
  | work => cases h
  | complete => cases h
  | begin => trivial
  | authenticate => trivial
  | lookup => trivial
  | check => trivial
  | writeLimit => trivial
  | domainLimit => trivial
  | claim => trivial
  | returning => trivial
  | ended => trivial

def AtomicInv (request : ρ → Request) (s : System ρ π δ) : Prop :=
  ∀ p, (request p).triple.endpoint.atomic = true → PhaseAtomic (s.phase p)

theorem atomicInv_goto {phase : Phase δ} (hinv : AtomicInv request s)
    (h : (request p).triple.endpoint.atomic = true → PhaseAtomic phase) :
    AtomicInv request (s.goto p phase) := by
  intro q hatomic
  by_cases hq : q = p
  · rw [hq] at hatomic ⊢
    rw [phase_goto_self]
    exact h hatomic
  · rw [phase_goto_of_ne hq]
    exact hinv q hatomic

theorem atomicInv_step {event : Event ρ} (hinv : AtomicInv request s)
    (hstep : Step env request process event s t) : AtomicInv request t := by
  have hown : ∀ {q : ρ} {phase : Phase δ}, s.phase q = phase →
      (request q).triple.endpoint.atomic = true → PhaseAtomic phase := by
    intro q phase hphase hatomic
    rw [← hphase]
    exact hinv q hatomic
  cases hstep with
  | ticks clock h => exact hinv
  | begins hphase hwrite => exact atomicInv_goto hinv fun _ => trivial
  | authenticates hphase hwrite h => exact atomicInv_goto hinv fun _ => trivial
  | looksUp hphase h =>
    exact atomicInv_goto hinv fun _ => phaseAtomic_of_unclaimed (unclaimed_afterLookup _)
  | replays hphase h => exact atomicInv_goto hinv fun _ => trivial
  | checks hphase h => exact atomicInv_goto hinv fun _ => trivial
  | skipsWriteLimit hphase hlimit =>
    exact atomicInv_goto hinv fun _ => phaseAtomic_of_unclaimed (unclaimed_afterWriteLimit _)
  | limitsWrites hphase hwrite hlimit h =>
    exact atomicInv_goto hinv fun _ => phaseAtomic_of_unclaimed (unclaimed_afterWriteLimit _)
  | skipsDomainLimit hphase hlimit => exact atomicInv_goto hinv fun _ => trivial
  | limitsDomain hphase hwrite hlimit h => exact atomicInv_goto hinv fun _ => trivial
  | skipsClaim hphase hkeyed => exact atomicInv_goto hinv (phaseAtomic_afterClaim env request)
  | claims hphase hwrite hkeyed h => exact atomicInv_goto hinv (phaseAtomic_afterClaim env request)
  | claimReplays hphase hwrite hkeyed h => exact atomicInv_goto hinv fun _ => trivial
  | refuses hwrite h => exact atomicInv_goto hinv fun _ => trivial
  | reads hphase =>
    apply atomicInv_goto hinv
    intro hatomic
    have hwork := hown hphase hatomic
    exact ⟨hwork.1 _, hwork.2⟩
  | writes hphase hwrite =>
    apply atomicInv_goto hinv
    intro hatomic
    have hwork := hown hphase hatomic
    exact ⟨hwork.1 _, hwork.2⟩
  | commits hphase =>
    apply atomicInv_goto hinv
    intro hatomic
    exact (hown hphase hatomic).1.elim
  | works hphase =>
    apply atomicInv_goto hinv
    intro hatomic
    exact (hown hphase hatomic).2
  | skipsCompletion hphase hkeyed => exact atomicInv_goto hinv fun _ => trivial
  | @completes _ q response midCommit count hphase hwrite hkeyed hcount =>
    have hnext : AtomicInv request (s.goto q (.returning response)) :=
      atomicInv_goto hinv fun _ => trivial
    exact hnext
  | returns hphase => exact atomicInv_goto hinv fun _ => trivial
  | raises e hphase =>
    rw [rollback_clearing]
    exact atomicInv_goto hinv fun _ => trivial
  | dies what hlive => exact atomicInv_goto hinv fun _ => trivial

/-- Registration, refresh, suspension, reinstatement and publication never commit between their
claim and a failure: what fails there can be sent again. -/
theorem not_committedSinceClaim
    (hs : Reachable (Started request) (AnyStep env request process) s)
    (hatomic : (request p).triple.endpoint.atomic = true) : ¬ CommittedSinceClaim s p := by
  have hinit : ∀ s : System ρ π δ, Started request s → AtomicInv request s := by
    intro s h q _
    obtain ⟨-, -, -, -, hphase⟩ := h
    rw [hphase q]
    cases (request q).triple.endpoint <;> trivial
  have hpreserves : Preserves (AnyStep env request process)
      fun s : System ρ π δ => AtomicInv request s := by
    intro s t hstep hinv
    obtain ⟨event, hstep⟩ := hstep
    exact atomicInv_step hinv hstep
  have hphase := reachable_invariant hinit hpreserves hs p hatomic
  intro hcommitted
  unfold CommittedSinceClaim at hcommitted
  cases hp : s.phase p <;> rw [hp] at hcommitted hphase <;> cases hcommitted
  · exact Bool.noConfusion hphase.2
  · exact Bool.noConfusion hphase

/-! ## A suspension and a verification that fail -/

/-- The failing suspension has not committed: its claim is gone. -/
theorem suspension_retriable :
    Retriable ((firstClaimed.rollback false).goto false
        (.ended (.error (.raised "suspension failed")))).committed.ledger (exampleRequest false) ↔
      ¬ CommittedSinceClaim firstClaimed false := by
  have hclaim : ExampleStep firstLimited firstClaimed :=
    ⟨_, .claims rfl (mayWrite_of_own rfl) rfl rfl⟩
  have hstep : Step exampleEnv exampleRequest oneProcess (.raises false) firstClaimed _ :=
    .raises (.raised "suspension failed") rfl
  rw [rollback_clearing] at hstep
  exact retriable_iff (reachable_step reachable_firstLimited hclaim) rfl hstep

def verifyRequest : Unit → Request := fun _ => ⟨⟨.verify, "actor_1", "key_1"⟩, "hash_1", ""⟩

/-- The profile fetch of the verification raises. -/
def verifyEnv : Env Unit Nat where
  writeLimit _ := 0
  registerDomainLimit := 0
  check _ _ := .ok ()
  authenticate _ tables := .ok tables
  atomicWork _ := ⟨.done [], trivial⟩
  refreshResponse _ := []
  verify _ := .raise (.raised "certificate verify failed")
  claimAgent _ := .done []

abbrev VerifyStep : System Unit Unit Nat → System Unit Unit Nat → Prop :=
  AnyStep verifyEnv verifyRequest fun _ => ()

def verifyStart : System Unit Unit Nat where
  clock := exampleStart.clock
  completionCount _ := 0
  committed := ⟨[], fun _ _ => 0, fun _ _ => 0, 0, [], fun _ => none⟩
  pending := none
  phase _ := .lookup

/-- Before the claim. -/
def verifyLimited : System Unit Unit Nat :=
  ((verifyStart.goto () .check).goto () .writeLimit).goto () .claim

def verifyClaimed : System Unit Unit Nat :=
  (verifyLimited.write () { verifyStart.committed with
    ledger := [claimRow (verifyRequest ()) () verifyStart.clock] }).goto ()
      (.work (.commit (verifyEnv.verify ())) false)

/-- The claim is committed, the fetch comes next. -/
def verifyCommitted : System Unit Unit Nat :=
  (verifyClaimed.commit ()).goto () (.work (verifyEnv.verify ()) true)

theorem reachable_verifyCommitted :
    Reachable (Started verifyRequest) VerifyStep verifyCommitted := by
  have hstart : Started verifyRequest verifyStart := ⟨rfl, rfl, fun _ => rfl, rfl, fun _ => rfl⟩
  have hlookup : VerifyStep verifyStart (verifyStart.goto () .check) := ⟨_, .looksUp rfl rfl⟩
  have hcheck : VerifyStep (verifyStart.goto () .check)
      ((verifyStart.goto () .check).goto () .writeLimit) := ⟨_, .checks rfl rfl⟩
  have hlimit : VerifyStep ((verifyStart.goto () .check).goto () .writeLimit) verifyLimited :=
    ⟨_, .skipsWriteLimit rfl rfl⟩
  have hclaim : VerifyStep verifyLimited verifyClaimed := by
    have hwrite : verifyLimited.MayWrite () := fun q db _ => rfl
    exact ⟨_, .claims rfl hwrite rfl rfl⟩
  have hcommit : VerifyStep verifyClaimed verifyCommitted := ⟨_, .commits rfl⟩
  have hlimited := reachable_step (reachable_step (reachable_step (reachable_init hstart) hlookup)
    hcheck) hlimit
  exact reachable_step (reachable_step hlimited hclaim) hcommit

/-- The verification fails, and its claim is left: the retry is refused as still processing. -/
theorem failed_verification_left_processing :
    ¬ ∀ s : System Unit Unit Nat, Reachable (Started verifyRequest) VerifyStep s →
      ∀ p t, (verifyRequest p).keyed = true →
        Step verifyEnv verifyRequest (fun _ => ()) (.raises p) s t →
          Retriable t.committed.ledger (verifyRequest p) := by
  intro hall
  have hstep : Step verifyEnv verifyRequest (fun _ => ()) (.raises ()) verifyCommitted _ :=
    .raises (.raised "certificate verify failed") rfl
  have hretriable := hall verifyCommitted reachable_verifyCommitted () _ rfl hstep
  refine hretriable.noClaim (claimRow (verifyRequest ()) () verifyStart.clock) ?_ rfl rfl
  exact List.mem_singleton.mpr rfl

end KiwiCatalog.Idempotency
