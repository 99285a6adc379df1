import KiwiCatalog.Queue.Execution

/-!
# ExecutionInvariant — the commit protocol of one task

The invariant ties the runner's position to the permission, the permission to the phase of
`commit()`, and the supervisor's position to what it decided.
-/

set_option autoImplicit false

namespace KiwiCatalog.Queue

open Transition

variable {task : VerificationTask} {hasCommit : Bool}

/-! ## The invariant -/

/-- `commit()` has done what a completed outcome asserts: it returned, or the service has none. -/
def CommitConfirmed (hasCommit : Bool) (phase : CommitPhase) : Prop :=
  phase = if hasCommit then .returned else .notStarted

/-- The result a runner or a supervisor may publish, against the phase of `commit()`. -/
def Publishable (hasCommit : Bool) (phase : CommitPhase) (r : VerificationTaskResult) : Prop :=
  (r.status = .completed ∧ CommitConfirmed hasCommit phase) ∨
    (r.status = .failed ∧ phase = .notStarted)

/-- The permission has been claimed and no result has been published under it. -/
def CommitPermission.Claimed (p : CommitPermission) : Prop :=
  p.state = .committing ∨ p.state = .unknown

/-- No claim has been granted and none but the first can be. -/
def CommitPermission.Unclaimed (p : CommitPermission) : Prop :=
  p.state = .running ∨ p.state = .timeout

/-- What the permission's state says by itself. -/
def PermissionFacts (hasCommit : Bool) (p : CommitPermission) (phase : CommitPhase) : Prop :=
  (p.Unclaimed → phase = .notStarted) ∧
    (p.state = .done → ∃ r, p.result = some r ∧ Publishable hasCommit phase r) ∧
    (p.state ≠ .done → p.result = none)

/-- What the runner's position says about the permission and the phase of `commit()`. -/
def RunnerFacts (hasCommit : Bool) (p : CommitPermission) (phase : CommitPhase) :
    RunnerPc → Prop
  | .notStarted | .creatingService | .checkingCancelled | .callingService _
  | .claimingCommit _ => p.Unclaimed
  | .commitStarted _ => p.Claimed ∧ phase = .notStarted
  | .inCommit _ => p.Claimed ∧ hasCommit = true
  | .buildingResult _ => p.Claimed ∧ CommitConfirmed hasCommit phase
  | .finishing r =>
      (p.Claimed ∧ r.status = .completed ∧ CommitConfirmed hasCommit phase) ∨
        (p.Unclaimed ∧ r.status = .failed)
  | .settingCommitError _ | .markingUncertain => p.Claimed
  | .closing | .exited => True

/-- The recorded decision is the permission it left, and a published result froze the commit. -/
def DecisionFacts (e : Execution) : Prop :=
  ∀ d, e.decision = some d →
    d = (e.permission.state, e.permission.result) ∧ d.1 ≠ .running ∧ d.1 ≠ .committing ∧
      (d.1 = .done → e.commitAtDecision = some e.commitPhase)

/-- The outcomes that a decision leaves possible; with no decision the runner never ran. -/
def Allows (decision : Option (PermissionState × Option VerificationTaskResult))
    (runner : RunnerPc) : OutcomeStatus → Prop
  | .completed => ∃ r, decision = some (.done, some r) ∧ r.status = .completed
  | .timeout => decision = some (.timeout, none)
  | .failed =>
      (decision = none ∧ runner = .notStarted) ∨ decision = some (.timeout, none) ∨
        ∃ r, decision = some (.done, some r) ∧ r.status = .failed
  | .unknown =>
      decision = some (.unknown, none) ∨
        ∃ r, decision = some (.done, some r) ∧ r.status = .completed

/-- What the supervisor's position says about the decision. -/
def SupervisorFacts (e : Execution) : SupervisorPc → Prop
  | .persistingRunning | .acquiringSlot | .startingRunner =>
      e.decision = none ∧ e.runner = .notStarted
  | .joining | .checkingAlive | .deciding => e.decision = none
  | .checkingState => e.decision = none ∧ e.runner = .exited
  | .finishingFailed => e.decision = none ∧ e.runner = .exited ∧ e.permission.state = .running
  | .readingCommitError => e.decision = some (.unknown, none)
  | .fencing _ | .persistingUnknown _ => Allows e.decision e.runner .unknown
  | .persistingFinish r => Allows e.decision e.runner r.status
  | .raising _ => Allows e.decision e.runner .failed
  | .persistingWorkerError r | .deletingPending r =>
      r.status = .failed ∧ Allows e.decision e.runner .failed
  | .recording r => Allows e.decision e.runner r.status
  | .recorded => ∃ r, e.outcome = some r ∧ Allows e.decision e.runner r.status

structure ExecutionInv (hasCommit : Bool) (e : Execution) : Prop where
  permission : PermissionFacts hasCommit e.permission e.commitPhase
  runner : RunnerFacts hasCommit e.permission e.commitPhase e.runner
  decision : DecisionFacts e
  supervisor : SupervisorFacts e e.supervisor
  unrecorded : e.supervisor ≠ .recorded → e.outcome = none

theorem executionInv_start (config : VerificationQueueConfig) (clock startedAt : Nat)
    (row : Option LedgerRow) (uncertainAgent : Option String) :
    ExecutionInv hasCommit (Execution.start config clock startedAt row uncertainAgent) where
  permission := by
    refine ⟨fun _ => rfl, fun h => ?_, fun _ => rfl⟩
    cases h
  runner := .inl rfl
  decision := by
    intro d hd
    cases hd
  supervisor := ⟨rfl, rfl⟩
  unrecorded := fun _ => rfl

/-! ## The runner's steps -/

/-- A runner step touches nothing that belongs to the supervisor. -/
theorem runnerStep_frame {e e' : Execution} (h : RunnerStep task hasCommit e e') :
    e'.supervisor = e.supervisor ∧ e'.decision = e.decision ∧
      e'.commitAtDecision = e.commitAtDecision ∧ e'.outcome = e.outcome ∧ e'.row = e.row ∧
      e'.uncertainAgent = e.uncertainAgent ∧ e'.startedAt = e.startedAt := by
  cases h <;> exact ⟨rfl, rfl, rfl, rfl, rfl, rfl, rfl⟩

theorem runnerStep_started {e e' : Execution} (h : RunnerStep task hasCommit e e') :
    e.runner ≠ .notStarted ∧ e.runner ≠ .exited := by
  cases h <;> simp_all

theorem finish_of_settled {p : CommitPermission} (hrun : p.state ≠ .running)
    (hcom : p.state ≠ .committing) (r : VerificationTaskResult) : p.finish r = p := by
  rcases CommitPermission.finish_cases r p with ⟨hopen, -⟩ | ⟨-, heq⟩
  · rcases hopen with h | h
    · exact absurd h hrun
    · exact absurd h hcom
  · exact heq

/-- Publishing a result that fits the commit phase keeps the permission's facts. -/
theorem permissionFacts_finish {p : CommitPermission} {phase : CommitPhase}
    {r : VerificationTaskResult} (hp : PermissionFacts hasCommit p phase)
    (hr : p.state = .running ∨ p.state = .committing → Publishable hasCommit phase r) :
    PermissionFacts hasCommit (p.finish r) phase := by
  rcases CommitPermission.finish_cases r p with ⟨hopen, heq⟩ | ⟨-, heq⟩
  · rw [heq]
    refine ⟨fun h => ?_, fun _ => ⟨r, rfl, hr hopen⟩, fun h => absurd rfl h⟩
    rcases h with h | h <;> cases h
  · rw [heq]
    exact hp

theorem permissionFacts_uncertain {p : CommitPermission} {phase : CommitPhase}
    (hp : PermissionFacts hasCommit p phase) (hclaimed : p.Claimed) :
    PermissionFacts hasCommit p.uncertain phase := by
  refine ⟨fun h => ?_, fun h => ?_, fun _ => ?_⟩
  · rcases h with h | h <;> cases h
  · cases h
  · apply hp.2.2
    rcases hclaimed with h | h <;> simp [h]

/-- A claimed permission carries no constraint on the phase of `commit()`. -/
theorem permissionFacts_of_claimed {p : CommitPermission} {phase phase' : CommitPhase}
    (hp : PermissionFacts hasCommit p phase) (hclaimed : p.Claimed) :
    PermissionFacts hasCommit p phase' := by
  refine ⟨fun h => ?_, fun h => ?_, hp.2.2⟩
  · rcases h with h | h <;> rcases hclaimed with h' | h' <;> rw [h] at h' <;> cases h'
  · rcases hclaimed with h' | h' <;> rw [h] at h' <;> cases h'

theorem runnerStep_permissionFacts {e e' : Execution} (h : RunnerStep task hasCommit e e')
    (hp : PermissionFacts hasCommit e.permission e.commitPhase)
    (hr : RunnerFacts hasCommit e.permission e.commitPhase e.runner) :
    PermissionFacts hasCommit e'.permission e'.commitPhase := by
  cases h with
  | claimGranted hpc hclaim =>
    obtain ⟨hrun, -, rfl⟩ := CommitPermission.claimCommit_true hclaim
    have hphase : e.commitPhase = .notStarted := hp.1 (.inl hrun)
    refine ⟨fun h => ?_, fun h => ?_, fun _ => hp.2.2 (by simp [hrun])⟩
    · exact hphase
    · cases h
  | claimRefused hpc hclaim =>
    rcases CommitPermission.claimCommit_false hclaim with ⟨-, rfl⟩ | ⟨hrun, rfl⟩
    · exact hp
    · refine ⟨fun _ => hp.1 (.inl hrun), fun h => ?_, fun _ => hp.2.2 (by simp [hrun])⟩
      cases h
  | callsCommit hpc hhas =>
    rw [hpc] at hr
    exact permissionFacts_of_claimed hp hr.1
  | commitReturns hpc =>
    rw [hpc] at hr
    exact permissionFacts_of_claimed hp hr.1
  | commitRaises exc hpc =>
    rw [hpc] at hr
    exact permissionFacts_of_claimed hp hr.1
  | commitAborts hpc =>
    rw [hpc] at hr
    exact permissionFacts_of_claimed hp hr.1
  | finishes hpc =>
    rw [hpc] at hr
    apply permissionFacts_finish hp
    intro _
    rcases hr with ⟨-, hstatus, hconfirmed⟩ | ⟨hunclaimed, hstatus⟩
    · exact .inl ⟨hstatus, hconfirmed⟩
    · exact .inr ⟨hstatus, hp.1 hunclaimed⟩
  | marksUncertain hpc =>
    rw [hpc] at hr
    exact permissionFacts_uncertain hp hr
  | _ => exact hp

theorem runnerStep_runnerFacts {e e' : Execution} (h : RunnerStep task hasCommit e e')
    (hp : PermissionFacts hasCommit e.permission e.commitPhase)
    (hr : RunnerFacts hasCommit e.permission e.commitPhase e.runner) :
    RunnerFacts hasCommit e'.permission e'.commitPhase e'.runner := by
  cases h with
  | factoryReturns hpc | callsService hpc hcancelled | serviceReturns res hpc =>
    rw [hpc] at hr
    exact hr
  | factoryRaises exc now hpc | serviceRaises exc now hpc =>
    rw [hpc] at hr
    exact .inr ⟨hr, rfl⟩
  | claimGranted hpc hclaim =>
    obtain ⟨hrun, -, rfl⟩ := CommitPermission.claimCommit_true hclaim
    exact ⟨.inl rfl, hp.1 (.inl hrun)⟩
  | callsCommit hpc hhas =>
    rw [hpc] at hr
    exact ⟨hr.1, hhas⟩
  | skipsCommit hpc hhas =>
    rw [hpc] at hr
    subst hhas
    exact hr
  | commitReturns hpc =>
    rw [hpc] at hr
    refine ⟨hr.1, ?_⟩
    rw [CommitConfirmed, hr.2, if_pos rfl]
  | commitRaises exc hpc | resultRaises exc hpc =>
    rw [hpc] at hr
    exact hr.1
  | resultBuilt now hpc =>
    rw [hpc] at hr
    exact .inl ⟨hr.1, rfl, hr.2⟩
  | setsCommitError hpc =>
    rw [hpc] at hr
    exact hr
  | _ => trivial

/-- Once the permission is settled, a runner step leaves its state and its result as they are,
and the phase of `commit()` too if a result was published. -/
theorem runnerStep_settled {e e' : Execution} (h : RunnerStep task hasCommit e e')
    (hr : RunnerFacts hasCommit e.permission e.commitPhase e.runner)
    (hrun : e.permission.state ≠ .running) (hcom : e.permission.state ≠ .committing) :
    e'.permission.state = e.permission.state ∧ e'.permission.result = e.permission.result ∧
      (e.permission.state = .done → e'.commitPhase = e.commitPhase) := by
  have hnot : e.permission.Claimed → e.permission.state = .unknown := fun hc =>
    hc.resolve_left hcom
  cases h with
  | claimGranted hpc hclaim => exact absurd (CommitPermission.claimCommit_true hclaim).1 hrun
  | claimRefused hpc hclaim =>
    rcases CommitPermission.claimCommit_false hclaim with ⟨-, rfl⟩ | ⟨hrun', -⟩
    · exact ⟨rfl, rfl, fun _ => rfl⟩
    · exact absurd hrun' hrun
  | callsCommit hpc hhas =>
    rw [hpc] at hr
    refine ⟨rfl, rfl, fun hdone => ?_⟩
    rw [hnot hr.1] at hdone
    cases hdone
  | commitReturns hpc | commitRaises exc hpc | commitAborts hpc =>
    rw [hpc] at hr
    refine ⟨rfl, rfl, fun hdone => ?_⟩
    rw [hnot hr.1] at hdone
    cases hdone
  | finishes hpc =>
    rw [finish_of_settled hrun hcom]
    exact ⟨rfl, rfl, fun _ => rfl⟩
  | marksUncertain hpc =>
    rw [hpc] at hr
    exact ⟨(hnot hr).symm, rfl, fun _ => rfl⟩
  | _ => exact ⟨rfl, rfl, fun _ => rfl⟩

theorem runnerStep_decisionFacts {e e' : Execution} (h : RunnerStep task hasCommit e e')
    (hr : RunnerFacts hasCommit e.permission e.commitPhase e.runner) (hd : DecisionFacts e) :
    DecisionFacts e' := by
  obtain ⟨-, hdec, hat, -⟩ := runnerStep_frame h
  intro d hd'
  rw [hdec] at hd'
  obtain ⟨heq, hrun, hcom, hdone⟩ := hd d hd'
  have hstate : d.1 = e.permission.state := congrArg Prod.fst heq
  rw [hstate] at hrun hcom
  obtain ⟨hs, hres, hphase⟩ := runnerStep_settled h hr hrun hcom
  refine ⟨by rw [heq, hs, hres], by rwa [hstate], by rwa [hstate], fun hd1 => ?_⟩
  rw [hat, hdone hd1, hphase (hstate ▸ hd1)]

theorem allows_runner {decision : Option (PermissionState × Option VerificationTaskResult)}
    {runner runner' : RunnerPc} {status : OutcomeStatus} (hrunner : runner ≠ .notStarted)
    (h : Allows decision runner status) : Allows decision runner' status := by
  cases status with
  | failed =>
    rcases h with ⟨-, hidle⟩ | h | h
    · exact absurd hidle hrunner
    · exact .inr (.inl h)
    · exact .inr (.inr h)
  | completed | timeout | unknown => exact h

theorem runnerStep_supervisorFacts {e e' : Execution} (h : RunnerStep task hasCommit e e')
    (hs : SupervisorFacts e e.supervisor) : SupervisorFacts e' e'.supervisor := by
  obtain ⟨hsup, hdec, -, hout, -⟩ := runnerStep_frame h
  obtain ⟨hidle, halive⟩ := runnerStep_started h
  rw [hsup]
  cases hpc : e.supervisor <;> rw [hpc] at hs
  case persistingRunning | acquiringSlot | startingRunner => exact absurd hs.2 hidle
  case checkingState => exact absurd hs.2 halive
  case finishingFailed => exact absurd hs.2.1 halive
  case joining | checkingAlive | deciding => exact hdec.trans hs
  case readingCommitError => exact hdec.trans hs
  case fencing | persistingUnknown | raising =>
    simp only [SupervisorFacts, hdec] at hs ⊢
    exact allows_runner hidle hs
  case persistingFinish | recording =>
    simp only [SupervisorFacts, hdec] at hs ⊢
    exact allows_runner hidle hs
  case persistingWorkerError | deletingPending =>
    simp only [SupervisorFacts, hdec] at hs ⊢
    exact ⟨hs.1, allows_runner hidle hs.2⟩
  case recorded =>
    obtain ⟨r, hr, hallows⟩ := hs
    simp only [SupervisorFacts, hdec, hout]
    exact ⟨r, hr, allows_runner hidle hallows⟩

theorem runnerStep_inv {e e' : Execution} (h : RunnerStep task hasCommit e e')
    (hi : ExecutionInv hasCommit e) : ExecutionInv hasCommit e' where
  permission := runnerStep_permissionFacts h hi.permission hi.runner
  runner := runnerStep_runnerFacts h hi.permission hi.runner
  decision := runnerStep_decisionFacts h hi.runner hi.decision
  supervisor := runnerStep_supervisorFacts h hi.supervisor
  unrecorded := by
    obtain ⟨hsup, -, -, hout, -⟩ := runnerStep_frame h
    rw [hsup, hout]
    exact hi.unrecorded

/-! ## The supervisor's steps -/

theorem decideDeadline_settles {p : CommitPermission} {phase : CommitPhase}
    (hp : PermissionFacts hasCommit p phase) :
    PermissionFacts hasCommit p.decideDeadline.2 phase ∧
      p.decideDeadline.2.state ≠ .running ∧ p.decideDeadline.2.state ≠ .committing := by
  have hstate := CommitPermission.decideDeadline_state p
  have hres := CommitPermission.decideDeadline_result p
  refine ⟨⟨fun h => ?_, fun h => ?_, fun h => ?_⟩, ?_, ?_⟩
  · apply hp.1
    rcases h with h | h <;> rw [hstate] at h <;> cases hs : p.state <;>
      simp_all [CommitPermission.Unclaimed]
  · rw [hres]
    apply hp.2.1
    rw [hstate] at h
    cases hs : p.state <;> simp_all
  · rw [hres]
    apply hp.2.2
    intro hdone
    rw [hstate, hdone] at h
    exact h rfl
  · rw [hstate]
    cases p.state <;> simp
  · rw [hstate]
    cases p.state <;> simp

theorem decideDeadline_runnerFacts {p : CommitPermission} {phase : CommitPhase} {pc : RunnerPc}
    (hr : RunnerFacts hasCommit p phase pc) :
    RunnerFacts hasCommit p.decideDeadline.2 phase pc := by
  have hstate := CommitPermission.decideDeadline_state p
  have hunclaimed : p.Unclaimed → p.decideDeadline.2.Unclaimed := by
    rintro (h | h) <;> rw [h] at hstate <;> exact .inr hstate
  have hclaimed : p.Claimed → p.decideDeadline.2.Claimed := by
    rintro (h | h) <;> rw [h] at hstate <;> exact .inr hstate
  cases pc with
  | notStarted | creatingService | checkingCancelled => exact hunclaimed hr
  | callingService | claimingCommit => exact hunclaimed hr
  | commitStarted | inCommit | buildingResult => exact ⟨hclaimed hr.1, hr.2⟩
  | finishing =>
    exact hr.imp (fun h => ⟨hclaimed h.1, h.2⟩) (fun h => ⟨hunclaimed h.1, h.2⟩)
  | settingCommitError | markingUncertain => exact hclaimed hr
  | closing | exited => trivial

/-- The three things a decision can be, read off a permission that satisfies its facts. -/
theorem decideDeadline_cases {p p' : CommitPermission} {phase : CommitPhase}
    {d : PermissionState × Option VerificationTaskResult}
    (hp : PermissionFacts hasCommit p phase) (h : p.decideDeadline = (d, p')) :
    d = (.timeout, none) ∨ d = (.unknown, none) ∨
      ∃ r, d = (.done, some r) ∧ Publishable hasCommit phase r := by
  obtain ⟨hp', hrun, hcom⟩ := decideDeadline_settles hp
  have hd : d = (p.decideDeadline.2.state, p.decideDeadline.2.result) := by
    rw [← CommitPermission.decideDeadline_decision, h]
  subst hd
  cases hs : p.decideDeadline.2.state with
  | running => exact absurd hs hrun
  | committing => exact absurd hs hcom
  | done =>
    obtain ⟨r, hres, hpub⟩ := hp'.2.1 hs
    exact .inr (.inr ⟨r, by rw [hres], hpub⟩)
  | timeout => exact .inl (by rw [hp'.2.2 (by simp [hs])])
  | unknown => exact .inr (.inl (by rw [hp'.2.2 (by simp [hs])]))

theorem supervisorStep_permissionFacts {e e' : Execution} (h : SupervisorStep task e e')
    (hi : ExecutionInv hasCommit e) : PermissionFacts hasCommit e'.permission e'.commitPhase := by
  cases h with
  | finishesFailed now hpc =>
    have hs := hi.supervisor
    rw [hpc] at hs
    apply permissionFacts_finish hi.permission
    intro _
    exact .inr ⟨rfl, hi.permission.1 (.inl hs.2.2)⟩
  | decidesUnknown hpc hdecide =>
    have hset := (decideDeadline_settles hi.permission).1
    rw [hdecide] at hset
    exact hset
  | decides now hpc hdecide hstate =>
    have hset := (decideDeadline_settles hi.permission).1
    rw [hdecide] at hset
    exact hset
  | _ => exact hi.permission

theorem supervisorStep_runnerFacts {e e' : Execution} (h : SupervisorStep task e e')
    (hi : ExecutionInv hasCommit e) :
    RunnerFacts hasCommit e'.permission e'.commitPhase e'.runner := by
  cases h with
  | runnerStarts hpc =>
    have hs := hi.supervisor
    have hr := hi.runner
    rw [hpc] at hs
    rw [hs.2] at hr
    exact hr
  | finishesFailed now hpc =>
    have hs := hi.supervisor
    rw [hpc] at hs
    rw [hs.2.1]
    trivial
  | decidesUnknown hpc hdecide =>
    have hr := decideDeadline_runnerFacts hi.runner
    rw [hdecide] at hr
    exact hr
  | decides now hpc hdecide hstate =>
    have hr := decideDeadline_runnerFacts hi.runner
    rw [hdecide] at hr
    exact hr
  | _ => exact hi.runner

/-- The decision just taken is the permission it left. -/
theorem decisionFacts_of_decide {e : Execution} {p : CommitPermission}
    {d : PermissionState × Option VerificationTaskResult} (hi : ExecutionInv hasCommit e)
    (hdecide : e.permission.decideDeadline = (d, p)) :
    d = (p.state, p.result) ∧ d.1 ≠ .running ∧ d.1 ≠ .committing := by
  obtain ⟨-, hrun, hcom⟩ := decideDeadline_settles hi.permission
  have hd := CommitPermission.decideDeadline_decision e.permission
  rw [hdecide] at hd hrun hcom
  have hd' : d = (p.state, p.result) := hd
  subst hd'
  exact ⟨rfl, hrun, hcom⟩

theorem supervisorStep_decisionFacts {e e' : Execution} (h : SupervisorStep task e e')
    (hi : ExecutionInv hasCommit e) : DecisionFacts e' := by
  have hs := hi.supervisor
  cases h with
  | finishesFailed now hpc =>
    rw [hpc] at hs
    intro d hd
    rw [hs.1] at hd
    cases hd
  | decidesUnknown hpc hdecide =>
    intro d hd
    cases hd
    obtain ⟨heq, hrun, hcom⟩ := decisionFacts_of_decide hi hdecide
    exact ⟨heq, hrun, hcom, fun _ => rfl⟩
  | decides now hpc hdecide hstate =>
    intro d hd
    cases hd
    obtain ⟨heq, hrun, hcom⟩ := decisionFacts_of_decide hi hdecide
    exact ⟨heq, hrun, hcom, fun _ => rfl⟩
  | _ => exact hi.decision

/-- A failed persistence of an outcome turns a published timeout or failure into a failure. -/
theorem allows_failed {decision : Option (PermissionState × Option VerificationTaskResult)}
    {runner : RunnerPc} {status : OutcomeStatus} {row : RowStatus}
    (hrow : status.rowStatus? = some row) (hstatus : status ≠ .completed)
    (h : Allows decision runner status) : Allows decision runner .failed := by
  cases status with
  | completed => exact absurd rfl hstatus
  | failed => exact h
  | timeout => exact .inr (.inl h)
  | unknown => cases hrow

theorem supervisorStep_supervisorFacts {e e' : Execution} (h : SupervisorStep task e e')
    (hi : ExecutionInv hasCommit e) : SupervisorFacts e' e'.supervisor := by
  have hs := hi.supervisor
  cases h with
  | runningPersisted hpc | slotAcquired hpc => rw [hpc] at hs; exact hs
  | runningRaises exc hpc hrow => rw [hpc] at hs; exact .inl hs
  | startRaises exc hpc => rw [hpc] at hs; exact .inl hs
  | slotTimesOut hpc hlate => rw [hpc] at hs; exact hs.1
  | runnerStarts hpc => rw [hpc] at hs; exact hs.1
  | joinReturns hpc hdone => rw [hpc] at hs; exact hs
  | runnerAlive hpc hrunner => rw [hpc] at hs; exact hs
  | runnerDead hpc hrunner => rw [hpc] at hs; exact ⟨hs, hrunner⟩
  | stateRunning hpc hstate => rw [hpc] at hs; exact ⟨hs.1, hs.2, hstate⟩
  | stateOther hpc hstate => rw [hpc] at hs; exact hs.1
  | finishesFailed now hpc => rw [hpc] at hs; exact hs.1
  | decidesUnknown hpc hdecide =>
    rcases decideDeadline_cases hi.permission hdecide with heq | heq | ⟨r, heq, -⟩
    · cases heq
    · cases heq; rfl
    · cases heq
  | decides now hpc hdecide hstate =>
    rcases decideDeadline_cases hi.permission hdecide with heq | heq | ⟨r, heq, hpub⟩
    · cases heq
      exact rfl
    · cases heq
      exact absurd rfl hstate
    · cases heq
      rcases hpub with ⟨hst, -⟩ | ⟨hst, -⟩
      · simp only [SupervisorFacts, Option.getD_some, hst, Allows]
        exact ⟨r, rfl, hst⟩
      · simp only [SupervisorFacts, Option.getD_some, hst, Allows]
        exact .inr (.inr ⟨r, rfl, hst⟩)
  | readsCommitError hpc => rw [hpc] at hs; exact .inl hs
  | fences hpc => rw [hpc] at hs; exact hs
  | unknownPersisted finishedAt now hpc => rw [hpc] at hs; exact hs
  | unknownRaises exc now hpc => rw [hpc] at hs; exact hs
  | finishPersisted finishedAt hpc hstatus => rw [hpc] at hs; exact hs
  | finishRaisesCompleted exc finishedAt hpc hcompleted hstatus hrow =>
    rw [hpc, SupervisorFacts, hcompleted] at hs
    exact .inr hs
  | finishRaises exc finishedAt hpc hcompleted hstatus hrow =>
    rw [hpc, SupervisorFacts] at hs
    exact allows_failed hstatus hcompleted hs
  | catches now hpc => rw [hpc] at hs; exact ⟨rfl, hs⟩
  | workerErrorPersisted finishedAt hpc hstatus => rw [hpc] at hs; exact hs
  | workerErrorRaises finishedAt hpc hstatus hrow => rw [hpc] at hs; exact hs
  | pendingDeleted hpc =>
    rw [hpc] at hs
    simpa only [SupervisorFacts, hs.1] using hs.2
  | deleteRaises hpc hrow =>
    rw [hpc] at hs
    simpa only [SupervisorFacts, hs.1] using hs.2
  | records hpc =>
    rw [hpc] at hs
    exact ⟨_, rfl, hs⟩

theorem supervisorStep_not_recorded {e e' : Execution} (h : SupervisorStep task e e') :
    e.supervisor ≠ .recorded := by
  intro hrec
  cases h <;> simp_all

theorem supervisorStep_unrecorded {e e' : Execution} (h : SupervisorStep task e e')
    (hi : ExecutionInv hasCommit e) : e'.supervisor ≠ .recorded → e'.outcome = none := by
  intro hne
  have hnone : e.outcome = none := hi.unrecorded (supervisorStep_not_recorded h)
  cases h with
  | records hpc => exact absurd rfl hne
  | _ => exact hnone

theorem supervisorStep_inv {e e' : Execution} (h : SupervisorStep task e e')
    (hi : ExecutionInv hasCommit e) : ExecutionInv hasCommit e' where
  permission := supervisorStep_permissionFacts h hi
  runner := supervisorStep_runnerFacts h hi
  decision := supervisorStep_decisionFacts h hi
  supervisor := supervisorStep_supervisorFacts h hi
  unrecorded := supervisorStep_unrecorded h hi

/-! ## Runs -/

theorem executionInv_preserved :
    Preserves (ExecutionStep task hasCommit) (ExecutionInv hasCommit) := by
  intro e e' h hi
  cases h with
  | runner h => exact runnerStep_inv h hi
  | supervisor h => exact supervisorStep_inv h hi
  | tick clock hclock =>
    have hs := hi.supervisor
    refine ⟨hi.permission, hi.runner, hi.decision, ?_, hi.unrecorded⟩
    cases hpc : e.supervisor <;> rw [hpc] at hs <;> exact hs

theorem executionInv_reachable {config : VerificationQueueConfig} {e : Execution}
    (he : Reachable (Execution.Started config) (ExecutionStep task hasCommit) e) :
    ExecutionInv hasCommit e := by
  apply reachable_invariant _ executionInv_preserved he
  rintro e₀ ⟨clock, startedAt, row, uncertainAgent, rfl⟩
  exact executionInv_start config clock startedAt row uncertainAgent

/-- The supervisor decides once. -/
theorem executionStep_decision {e e' : Execution} (h : ExecutionStep task hasCommit e e')
    (hi : ExecutionInv hasCommit e) {d : PermissionState × Option VerificationTaskResult}
    (hd : e.decision = some d) : e'.decision = some d := by
  cases h with
  | runner h => rw [(runnerStep_frame h).2.1, hd]
  | tick clock hclock => exact hd
  | supervisor h =>
    have hs := hi.supervisor
    cases h with
    | decidesUnknown hpc hdecide =>
      rw [hpc] at hs
      rw [show e.decision = none from hs] at hd
      cases hd
    | decides now hpc hdecide hstate =>
      rw [hpc] at hs
      rw [show e.decision = none from hs] at hd
      cases hd
    | _ => exact hd

theorem run_decision {e e' : Execution} (hrun : Run (ExecutionStep task hasCommit) e e')
    (hi : ExecutionInv hasCommit e) {d : PermissionState × Option VerificationTaskResult}
    (hd : e.decision = some d) : e'.decision = some d := by
  induction hrun with
  | refl => exact hd
  | tail hprefix hlast ih =>
    exact executionStep_decision hlast (run_preserves executionInv_preserved hprefix hi) ih

/-- A recorded outcome comes from the last position of the supervisor. -/
theorem supervisor_of_outcome {e : Execution} (hi : ExecutionInv hasCommit e)
    {r : VerificationTaskResult} (hr : e.outcome = some r) :
    e.supervisor = .recorded ∧ Allows e.decision e.runner r.status := by
  by_cases hrec : e.supervisor = .recorded
  · have hs := hi.supervisor
    rw [hrec] at hs
    obtain ⟨r', hr', hallows⟩ := hs
    rw [hr] at hr'
    cases hr'
    exact ⟨hrec, hallows⟩
  · rw [hi.unrecorded hrec] at hr
    cases hr

/-- After the outcome is recorded nothing touches it or the ledger row. -/
theorem executionStep_recorded {e e' : Execution} (h : ExecutionStep task hasCommit e e')
    (hrec : e.supervisor = .recorded) :
    e'.supervisor = .recorded ∧ e'.outcome = e.outcome ∧ e'.row = e.row := by
  cases h with
  | runner h =>
    obtain ⟨hsup, -, -, hout, hrow, -⟩ := runnerStep_frame h
    exact ⟨hsup.trans hrec, hout, hrow⟩
  | supervisor h => exact absurd hrec (supervisorStep_not_recorded h)
  | tick clock hclock => exact ⟨hrec, rfl, rfl⟩

theorem run_recorded {e e' : Execution} (hrun : Run (ExecutionStep task hasCommit) e e')
    (hrec : e.supervisor = .recorded) :
    e'.supervisor = .recorded ∧ e'.outcome = e.outcome ∧ e'.row = e.row := by
  induction hrun with
  | refl => exact ⟨hrec, rfl, rfl⟩
  | tail _ hlast ih =>
    obtain ⟨hsup, hout, hrow⟩ := ih
    obtain ⟨hsup', hout', hrow'⟩ := executionStep_recorded hlast hsup
    exact ⟨hsup', hout'.trans hout, hrow'.trans hrow⟩

/-- A recorded timeout means the permission timed out, so no claim was ever granted. -/
theorem commitPhase_of_timeout {e : Execution} (hi : ExecutionInv hasCommit e)
    {r : VerificationTaskResult} (hr : e.outcome = some r) (hst : r.status = .timeout) :
    e.commitPhase = .notStarted := by
  have hallows := (supervisor_of_outcome hi hr).2
  rw [hst] at hallows
  have heq := (hi.decision _ hallows).1
  have hstate : e.permission.state = .timeout := (congrArg Prod.fst heq).symm
  exact hi.permission.1 (.inr hstate)

theorem commitPhase_of_completed {e : Execution} (hi : ExecutionInv hasCommit e)
    {r : VerificationTaskResult} (hr : e.outcome = some r) (hst : r.status = .completed) :
    CommitConfirmed hasCommit e.commitPhase ∧ e.commitAtDecision = some e.commitPhase := by
  have hallows := (supervisor_of_outcome hi hr).2
  rw [hst] at hallows
  obtain ⟨r', hdec, hst'⟩ := hallows
  obtain ⟨heq, -, -, hfrozen⟩ := hi.decision _ hdec
  have hstate : e.permission.state = .done := (congrArg Prod.fst heq).symm
  have hres : e.permission.result = some r' := (congrArg Prod.snd heq).symm
  refine ⟨?_, hfrozen rfl⟩
  obtain ⟨r'', hres', hpub⟩ := hi.permission.2.1 hstate
  rw [hres] at hres'
  cases hres'
  rcases hpub with ⟨-, hconfirmed⟩ | ⟨hfailed, -⟩
  · exact hconfirmed
  · rw [hst'] at hfailed
    cases hfailed

theorem commitPhase_of_failed {e : Execution} (hi : ExecutionInv hasCommit e)
    {r : VerificationTaskResult} (hr : e.outcome = some r) (hst : r.status = .failed) :
    e.commitPhase = .notStarted := by
  have hallows := (supervisor_of_outcome hi hr).2
  rw [hst] at hallows
  rcases hallows with ⟨-, hidle⟩ | hdec | ⟨r', hdec, hst'⟩
  · have hrunner := hi.runner
    rw [hidle] at hrunner
    exact hi.permission.1 hrunner
  · have hstate : e.permission.state = .timeout :=
      (congrArg Prod.fst (hi.decision _ hdec).1).symm
    exact hi.permission.1 (.inr hstate)
  · have heq := (hi.decision _ hdec).1
    have hstate : e.permission.state = .done := (congrArg Prod.fst heq).symm
    have hres : e.permission.result = some r' := (congrArg Prod.snd heq).symm
    obtain ⟨r'', hres', hpub⟩ := hi.permission.2.1 hstate
    rw [hres] at hres'
    cases hres'
    rcases hpub with ⟨hcompleted, -⟩ | ⟨-, hphase⟩
    · rw [hst'] at hcompleted
      cases hcompleted
    · exact hphase

/-- A commit that raised, or that had not returned when the supervisor decided, is recorded as
unknown. -/
theorem unknown_of_unconfirmed {e : Execution} (hi : ExecutionInv hasCommit e)
    {r : VerificationTaskResult} (hr : e.outcome = some r) (hstarted : e.commitPhase ≠ .notStarted)
    (hlate : e.commitPhase = .raised ∨ e.commitAtDecision ≠ some .returned) :
    r.status = .unknown := by
  cases hst : r.status with
  | unknown => rfl
  | timeout => exact absurd (commitPhase_of_timeout hi hr hst) hstarted
  | failed => exact absurd (commitPhase_of_failed hi hr hst) hstarted
  | completed =>
    obtain ⟨hconfirmed, hat⟩ := commitPhase_of_completed hi hr hst
    have hreturned : e.commitPhase = .returned := by
      cases hasCommit with
      | true => exact hconfirmed
      | false => exact absurd hconfirmed hstarted
    rcases hlate with hraised | hnot
    · rw [hreturned] at hraised
      cases hraised
    · rw [hat, hreturned] at hnot
      exact absurd rfl hnot

/-- The commit protocol of the queue, over every interleaving of the runner, the supervisor and
the clock: a timeout never commits, a completion has committed, an unconfirmed commit is unknown,
and a decision stands against every later runner step. -/
theorem commit_protocol {config : VerificationQueueConfig} {e : Execution}
    (he : Reachable (Execution.Started config) (ExecutionStep task hasCommit) e) :
    (∀ r, e.outcome = some r → r.status = .timeout →
        ∀ e', Run (ExecutionStep task hasCommit) e e' → e'.commitPhase = .notStarted) ∧
      (∀ r, e.outcome = some r → r.status = .completed →
        e.commitPhase = if hasCommit then .returned else .notStarted) ∧
      (∀ r, e.outcome = some r → e.commitPhase ≠ .notStarted →
        (e.commitPhase = .raised ∨ e.commitAtDecision ≠ some .returned) → r.status = .unknown) ∧
      (∀ d, e.decision = some d → ∀ e', Run (ExecutionStep task hasCommit) e e' →
        e'.decision = some d ∧
          (∀ r, e'.outcome = some r → Allows (some d) e'.runner r.status) ∧
          (∀ e'', RunnerStep task hasCommit e' e'' →
            e''.outcome = e'.outcome ∧ e''.row = e'.row ∧ e''.decision = some d) ∧
          (∀ r, e.outcome = some r → e'.outcome = some r ∧ e'.row = e.row)) := by
  have hi := executionInv_reachable he
  refine ⟨?_, ?_, ?_, ?_⟩
  · intro r hr hst e' hrun
    obtain ⟨-, hout, -⟩ := run_recorded hrun (supervisor_of_outcome hi hr).1
    exact commitPhase_of_timeout (run_preserves executionInv_preserved hrun hi)
      (hout.trans hr) hst
  · intro r hr hst
    exact (commitPhase_of_completed hi hr hst).1
  · intro r hr hstarted hlate
    exact unknown_of_unconfirmed hi hr hstarted hlate
  · intro d hd e' hrun
    have hi' := run_preserves executionInv_preserved hrun hi
    have hd' := run_decision hrun hi hd
    refine ⟨hd', ?_, ?_, ?_⟩
    · intro r hr
      rw [← hd']
      exact (supervisor_of_outcome hi' hr).2
    · intro e'' hstep
      obtain ⟨-, hdec, -, hout, hrow, -⟩ := runnerStep_frame hstep
      exact ⟨hout, hrow, hdec.trans hd'⟩
    · intro r hr
      obtain ⟨-, hout, hrow⟩ := run_recorded hrun (supervisor_of_outcome hi hr).1
      exact ⟨hout.trans hr, hrow⟩

/-- The deadline passes while the service call is still under way. -/
theorem commit_protocol_timeout :
    ∃ (task : VerificationTask) (config : VerificationQueueConfig) (e : Execution)
      (r : VerificationTaskResult),
      Reachable (Execution.Started config) (ExecutionStep task true) e ∧
        e.outcome = some r ∧ r.status = .timeout ∧
        ∀ e', Run (ExecutionStep task true) e e' → e'.commitPhase = .notStarted := by
  let task : VerificationTask :=
    { catalogAgentId := "cagt_1", taskId := "vt-1", kind := .verify, actor := "admin",
      enqueuedAt := 0 }
  let config : VerificationQueueConfig := ⟨100, 2, 30, by decide, by decide, by decide⟩
  have hrun : Run (ExecutionStep task true)
      (Execution.start config 0 0 (some task.pendingRow) none) _ :=
    Relation.ReflTransGen.refl
      |>.tail (.supervisor (.runningPersisted rfl))
      |>.tail (.supervisor (.slotAcquired rfl))
      |>.tail (.supervisor (.runnerStarts rfl))
      |>.tail (.runner (.factoryReturns rfl))
      |>.tail (.runner (.callsService rfl rfl))
      |>.tail (.tick 30 (by decide))
      |>.tail (.supervisor (.joinReturns rfl (.inr (by decide))))
      |>.tail (.supervisor (.runnerAlive rfl (by decide)))
      |>.tail (.supervisor (.decides 30 rfl rfl (by decide)))
      |>.tail (.supervisor (.finishPersisted 30 rfl rfl))
      |>.tail (.supervisor (.records rfl))
  have hreach : Reachable (Execution.Started config) (ExecutionStep task true) _ :=
    ⟨_, ⟨0, 0, some task.pendingRow, none, rfl⟩, hrun⟩
  exact ⟨task, config, _, _, hreach, rfl, rfl, (commit_protocol hreach).1 _ rfl rfl⟩

end KiwiCatalog.Queue
