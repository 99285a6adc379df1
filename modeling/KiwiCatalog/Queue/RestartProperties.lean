import KiwiCatalog.Queue.RestartInvariant

/-!
# RestartProperties — the restart fence and the recovery of pending work
-/

set_option autoImplicit false
set_option linter.unusedSectionVars false

namespace KiwiCatalog.Queue

open Transition

variable {ω κ : Type} [DecidableEq ω] [DecidableEq κ]

/-! ## Admission -/

/-- The agent of a call that has passed the check for an unknown outcome. -/
def CallerPc.passed : CallerPc → Option String
  | .deduplicating req | .registering req => some req.catalogAgentId
  | pc => pc.holds.map VerificationTask.catalogAgentId

theorem passed_of_holds {pc : CallerPc} {t : VerificationTask} (h : pc.holds = some t) :
    pc.passed = some t.catalogAgentId := by
  cases pc <;> simp_all [CallerPc.passed, CallerPc.holds]

/-- A call of `enqueue` passes the check only for an agent without an unknown outcome. -/
theorem callerStep_passed {c : κ} {s s' : Scheduler ω κ} (hstep : CallerStep c s s') {a : String}
    (h : (s'.caller c).passed = some a) :
    (s.caller c).passed = some a ∨ s.uncertainAgents a = none := by
  have hself : ∀ pc, Function.update s.caller c pc c = pc := fun pc =>
    Function.update_self c pc s.caller
  cases hstep with
  | unblocked hpc hfence =>
    change (Function.update s.caller c _ c).passed = some a at h
    rw [hself] at h
    cases h
    exact .inr (isUncertain_eq_false.mp hfence)
  | refusedAtOnce hpc | unknownKind _ hpc | called _ _ _ hpc | blocked hpc
  | findsExisting hpc | reuses hpc | reuseMisses hpc | findsNone hpc | registers _ _ hpc
  | inserted hpc | insertSkipped hpc | insertRaises hpc | dropsUninserted hpc | locksOpen hpc
  | locksShut hpc | deletesRefused hpc | deleteRefusedRaises hpc | dropsRefused hpc
  | admissionBlocked _ _ hpc | admissionBlockedUnmarked _ _ hpc | passesFence hpc | puts hpc
  | overflows hpc | deletesOverflow hpc | deleteOverflowRaises hpc | dropsOverflow hpc =>
    change (Function.update s.caller c _ c).passed = some a at h
    rw [hself] at h
    rw [hpc]
    first | exact .inl h | cases h

/-- What a call admits is the task it holds, which has no result. -/
theorem callerStep_admitted {c : κ} {s s' : Scheduler ω κ} (hstep : CallerStep c s s') :
    s'.admitted = s.admitted ∨
      ∃ t, (s.caller c).holds = some t ∧ s'.admitted = s.admitted ++ [t] ∧
        s'.results = s.results := by
  cases hstep with
  | puts hpc hroom => exact .inr ⟨_, by rw [hpc]; rfl, rfl, rfl⟩
  | _ => exact .inl rfl

theorem schedulerStep_passed {s s' : Scheduler ω κ} (hstep : SchedulerStep s s') {a : String}
    (hunc : s.uncertainAgents a ≠ none) (h : ∀ c, (s.caller c).passed ≠ some a) (c : κ) :
    (s'.caller c).passed ≠ some a := by
  cases hstep with
  | shutsDown | closesLedger => exact h c
  | worker w hstep =>
    obtain ⟨-, hcaller, -⟩ := workerStep_history hstep
    rw [hcaller]
    exact h c
  | caller c' hstep =>
    by_cases hc : c = c'
    · subst hc
      intro hpass
      rcases callerStep_passed hstep hpass with hpass | hnone
      · exact h c hpass
      · exact hunc hnone
    · rw [callerStep_other hstep hc]
      exact h c

/-- No task of an agent is admitted while no call for it is past the check. -/
theorem schedulerStep_admitted {s s' : Scheduler ω κ} (hstep : SchedulerStep s s') {a : String}
    (h : ∀ c, (s.caller c).passed ≠ some a) (hadm : ∀ t ∈ s.admitted, t.catalogAgentId ≠ a) :
    ∀ t ∈ s'.admitted, t.catalogAgentId ≠ a := by
  cases hstep with
  | shutsDown | closesLedger => exact hadm
  | worker w hstep =>
    obtain ⟨heq, -⟩ := workerStep_history hstep
    rwa [heq]
  | caller c hstep =>
    rcases callerStep_admitted hstep with heq | ⟨t₀, hholds, heq, -⟩ <;> rw [heq]
    · exact hadm
    · intro t ht
      rcases List.mem_append.mp ht with ht | ht
      · exact hadm t ht
      · rw [List.mem_singleton] at ht
        subst ht
        exact fun hagent => h c (hagent ▸ passed_of_holds hholds)

/-! ## The fence of a row that was running at a crash -/

/-- The row is on the ledger, still running. -/
def KeptRunning (row : LedgerRow) (ledger : Ledger) : Prop :=
  ∃ row' ∈ ledger, row'.task = row.task ∧ row'.startedAt = row.startedAt ∧ row'.status = .running

/-- The fence that `row` keeps up in an instance. -/
structure FencedBy (s : Restart ω κ) (row : LedgerRow) : Prop where
  uncertain : s.queue.uncertainAgents row.catalogAgentId ≠ none
  closed : (s.queue.results row.taskId).isSome = true
  kept : KeptRunning row s.queue.ledger
  durable : KeptRunning row s.durable
  refused : ∀ c, (s.queue.caller c).passed ≠ some row.catalogAgentId
  admitted : ∀ t ∈ s.queue.admitted, t.catalogAgentId ≠ row.catalogAgentId

theorem fencedBy_moves {s : Restart ω κ} (hi : RestartInv s) {q : Scheduler ω κ} {durable : Ledger}
    (hstep : SchedulerStep s.queue q) (hcommit : durable = q.ledger ∨ durable = s.durable)
    {row : LedgerRow} (h : FencedBy s row) :
    FencedBy { s with queue := q, durable := durable } row := by
  have hkept : KeptRunning row q.ledger := by
    obtain ⟨row', hrow', htask, hstart, hrun⟩ := h.kept
    have hid : row'.taskId = row.taskId := congrArg VerificationTask.taskId htask
    refine ⟨row', ?_, htask, hstart, hrun⟩
    apply schedulerStep_keepsRow hstep hi.queue.placed hrow' (unresolved_iff.mpr (.inr hrun))
    rw [hid]
    exact h.closed
  refine ⟨schedulerStep_uncertain hstep h.uncertain, ?_, hkept, ?_,
    schedulerStep_passed hstep h.uncertain h.refused,
    schedulerStep_admitted hstep h.refused h.admitted⟩
  · obtain ⟨r, hr⟩ := Option.isSome_iff_exists.mp h.closed
    have hr' := schedulerStep_results hstep hi.queue hr
    simp [hr']
  · rcases hcommit with rfl | rfl
    · exact hkept
    · exact h.durable

/-- Construction over a ledger with the running row puts up the fence. -/
theorem fencedBy_restarts {s s' : Restart ω κ} (hi : RestartInv s) (h : Restart.Restarts s s')
    {row : LedgerRow} (hrow : KeptRunning row s.durable) : FencedBy s' row := by
  obtain ⟨hdurable, -, -, hre⟩ := restarts_ledger hi h
  have hkept : ∀ {marked : String → Prop} {ledger : Ledger},
      RemarkedAll marked s.durable ledger → KeptRunning row ledger := by
    intro marked ledger hmarked
    obtain ⟨row₀, hrow₀, htask, hstart, hrun⟩ := hrow
    obtain ⟨row', hrow', hremarked, -⟩ := hmarked.mem_left hrow₀
    exact ⟨row', hrow', hremarked.task.trans htask, hremarked.startedAt.trans hstart,
      hremarked.running hrun⟩
  cases h with
  | @reconstructs config env ledger hledger =>
    have hcrash := crashedRecovery_remarks hledger hi.keys
    have hkeys := hcrash.keys hi.keys
    obtain ⟨row', hrow', htask, -, hrun⟩ := hkept hcrash
    have hagent : row'.catalogAgentId = row.catalogAgentId :=
      congrArg VerificationTask.catalogAgentId htask
    have hid : row'.taskId = row.taskId := congrArg VerificationTask.taskId htask
    have hrunning : RunningAgent ledger row.catalogAgentId := ⟨row', hrow', hrun, hagent⟩
    have hopen : row' ∈ Scheduler.openRows ledger true :=
      (mem_recoveredRows hkeys).mpr ⟨hrow', unresolved_iff.mpr (.inr hrun)⟩
    refine ⟨?_, ?_, hdurable ▸ hkept hre, hkept hre, fun c hpass => ?_, fun t ht => ?_⟩
    · rw [← Option.isSome_iff_ne_none]
      exact (recoveredUncertain_isSome _ _).mpr ⟨row', hopen, hrun, hagent⟩
    · apply Scheduler.construct_results _ |>.mpr
      refine ⟨row', hopen, ?_, hid⟩
      rw [rowFenced_iff hkeys, hagent]
      exact hrunning
    · cases hpass
    · have hpending : t ∈ (Scheduler.construct config ledger true env s.queue.usedIds :
          Scheduler ω κ).pending := ht
      obtain ⟨r, -, -, hfree, rfl⟩ := (mem_construct_pending_iff hkeys).mp hpending
      exact fun heq => hfree (show RunningAgent ledger r.task.catalogAgentId from heq ▸ hrunning)

/-- The runs of one agent's tasks, over all instances. -/
def Restart.runsFor (s : Restart ω κ) (a : String) : List VerificationTask :=
  s.runs.filter fun t => t.catalogAgentId = a

theorem step_fencedBy {s s' : Restart ω κ} (hi : RestartInv s) (hstep : Restart.Step s s')
    {row : LedgerRow} (h : FencedBy s row) :
    FencedBy s' row ∧ s'.runsFor row.catalogAgentId = s.runsFor row.catalogAgentId := by
  cases hstep with
  | restarts hr =>
    obtain ⟨-, -, hruns, -⟩ := restarts_ledger hi hr
    refine ⟨fencedBy_restarts hi hr h.durable, ?_⟩
    rw [Restart.runsFor, hruns, Restart.runsFor]
  | moves hq hcommit =>
    have h' := fencedBy_moves hi hq hcommit h
    have hi' := restartInv_moves hi hq hcommit
    refine ⟨h', ?_⟩
    rcases schedulerStep_runs hq with hex | ⟨t, -, hex⟩
    · simp only [Restart.runsFor, Restart.runs, hex]
    · -- what is run has been admitted
      have hne := h'.admitted t (hi'.queue.history.executed t (hex ▸ List.mem_cons_self)).1
      simp [Restart.runsFor, Restart.runs, hex, hne]

/-- A row that was running at a crash keeps its agent from running in every later instance. -/
theorem run_fencedBy {s s' : Restart ω κ} (hi : RestartInv s) (hrun : Run Restart.Step s s')
    {row : LedgerRow} (h : FencedBy s row) :
    FencedBy s' row ∧ s'.runsFor row.catalogAgentId = s.runsFor row.catalogAgentId := by
  induction hrun with
  | refl => exact ⟨h, rfl⟩
  | tail hprefix hlast ih =>
    obtain ⟨hfence, hsame⟩ := ih
    obtain ⟨hfence', hsame'⟩ :=
      step_fencedBy (run_preserves restartInv_preserved hprefix hi) hlast hfence
    exact ⟨hfence', hsame'.trans hsame⟩

/-! ## Pending rows -/

/-- Where a worker is once its task's unknown outcome is settled. -/
def Stage.EndsUnknown : Stage → Prop
  | .persistingUnknown _ => True
  | .recording result => result.status = .unknown
  | _ => False

/-- The task has ended unknown, or is about to be recorded so. -/
def EndedUnknown (s : Scheduler ω κ) (t : VerificationTask) : Prop :=
  (∃ w fenced stage, s.worker w = .busy t fenced stage ∧ stage.EndsUnknown) ∨
    ∃ r, s.results t.taskId = some r ∧ r.status = .unknown

theorem stageStep_endsUnknown {task : VerificationTask} {sh sh' : Shared} {stage stage' : Stage}
    (h : StageStep task sh stage sh' stage') (hend : stage.EndsUnknown) : stage'.EndsUnknown := by
  cases h <;> first | exact hend.elim | rfl

theorem workerStep_endedUnknown {w : ω} {s s' : Scheduler ω κ} (hstep : WorkerStep w s s')
    {t : VerificationTask} (h : ∃ w fenced stage, s.worker w = .busy t fenced stage ∧
      stage.EndsUnknown) : EndedUnknown s' t := by
  obtain ⟨w', fenced, stage, hw', hend⟩ := h
  by_cases hww : w' = w
  · subst hww
    cases hstep with
    | works hpc hstage =>
      rw [hw'] at hpc
      cases hpc
      exact .inl ⟨w', _, _, Function.update_self _ _ _, stageStep_endsUnknown hstage hend⟩
    | records hpc =>
      rw [hw'] at hpc
      cases hpc
      exact .inr ⟨_, Function.update_self _ _ _, hend⟩
    | runs hpc | releases hpc =>
      rw [hw'] at hpc
      cases hpc
      exact hend.elim
    | seesOpen hpc | seesShutdown hpc | exits hpc | goesOn hpc | takesHandoff hpc | dequeues hpc
    | findsEmpty hpc | claims hpc | requeues hpc | carries hpc =>
      rw [hw'] at hpc
      cases hpc
  · obtain ⟨-, -, -, -, hother, -⟩ := workerStep_history hstep
    exact .inl ⟨w', fenced, stage, by rw [hother w' hww, hw'], hend⟩

theorem schedulerStep_endedUnknown {s s' : Scheduler ω κ} (hstep : SchedulerStep s s')
    (hi : SchedulerInv s) {t : VerificationTask} (h : EndedUnknown s t) : EndedUnknown s' t := by
  rcases h with hbusy | ⟨r, hr, hunknown⟩
  · cases hstep with
    | worker w hstep => exact workerStep_endedUnknown hstep hbusy
    | caller c hstep =>
      obtain ⟨hworker, -⟩ := callerStep_frame hstep
      left
      rwa [hworker]
    | shutsDown | closesLedger => exact .inl hbusy
  · exact .inr ⟨r, schedulerStep_results hstep hi hr, hunknown⟩

/-- How tasks end in an instance that was constructed with the agents in `fenced₀` fenced. -/
structure OutcomeInv (fenced₀ : String → Prop) (s : Scheduler ω κ) : Prop where
  busy : ∀ w t stage, s.worker w = .busy t false stage → stage ≠ .starting → t ∈ s.executed
  settled : ∀ t ∈ s.admitted, (s.results t.taskId).isSome = true →
    t ∈ s.executed ∨ s.uncertainAgents t.catalogAgentId ≠ none
  source : ∀ a, s.uncertainAgents a ≠ none →
    fenced₀ a ∨ ∃ t ∈ s.executed, t.catalogAgentId = a ∧ EndedUnknown s t

theorem schedulerStep_executed_mono {s s' : Scheduler ω κ} (hstep : SchedulerStep s s')
    {t : VerificationTask} (ht : t ∈ s.executed) : t ∈ s'.executed := by
  rcases schedulerStep_runs hstep with hex | ⟨t', -, hex⟩ <;> rw [hex]
  · exact ht
  · exact List.mem_cons_of_mem t' ht

theorem workerStep_busy {w : ω} {s s' : Scheduler ω κ} (hstep : WorkerStep w s s')
    (h : ∀ w t stage, s.worker w = .busy t false stage → stage ≠ .starting → t ∈ s.executed)
    (w' : ω) (t : VerificationTask) (stage : Stage) (hw' : s'.worker w' = .busy t false stage)
    (hstart : stage ≠ .starting) : t ∈ s'.executed := by
  by_cases hww : w' = w
  · subst hww
    cases hstep with
    | claims hpc =>
      rcases claim_cases s w' _ with ⟨-, -, -, heq⟩ | ⟨-, heq⟩ <;> rw [heq] at hw' <;>
        simp only [Function.update_self] at hw'
      · cases hw'
      · -- a claim that does not find the agent fenced is about to start
        injection hw' with _ hfenced hstage
        rw [hfenced, if_neg Bool.false_ne_true] at hstage
        exact absurd hstage.symm hstart
    | runs hpc =>
      change Function.update s.worker w' _ w' = _ at hw'
      rw [Function.update_self] at hw'
      cases hw'
      exact List.mem_cons_self
    | works hpc hstage =>
      change Function.update s.worker w' _ w' = _ at hw'
      rw [Function.update_self] at hw'
      cases hw'
      exact h w' t _ hpc (stageStep_stages hstage).1
    | records hpc =>
      change Function.update s.worker w' _ w' = _ at hw'
      rw [Function.update_self] at hw'
      cases hw'
      exact h w' t _ hpc (by simp)
    | releases hpc =>
      unfold Scheduler.release at hw'
      split at hw' <;> simp at hw'
    | _ => simp [Scheduler.setWorker] at hw'
  · obtain ⟨-, -, -, -, hother, -⟩ := workerStep_history hstep
    rw [hother w' hww] at hw'
    exact schedulerStep_executed_mono (.worker w hstep) (h w' t stage hw' hstart)

/-- A worker's step fences an agent only for a task that has been run. -/
theorem workerStep_fences {w : ω} {s s' : Scheduler ω κ} (hstep : WorkerStep w s s')
    (hi : SchedulerInv s)
    (hbusy : ∀ w t stage, s.worker w = .busy t false stage → stage ≠ .starting → t ∈ s.executed)
    {a : String} (hnone : s.uncertainAgents a = none) (hunc : s'.uncertainAgents a ≠ none) :
    ∃ t ∈ s'.executed, t.catalogAgentId = a ∧ EndedUnknown s' t := by
  cases hstep with
  | claims hpc =>
    rcases claim_cases s w _ with ⟨-, -, -, heq⟩ | ⟨-, heq⟩ <;> rw [heq] at hunc <;>
      exact absurd hnone hunc
  | releases hpc =>
    unfold Scheduler.release at hunc
    split at hunc <;> exact absurd hnone hunc
  | @works task fenced stage stage' sh hpc hstage =>
    rcases (stageStep_fences hstage).1 with heq | ⟨⟨reason, rfl⟩, heq⟩
    · exact absurd hnone (fun h => hunc ((congrFun heq a).trans h))
    · have hagent : a = task.catalogAgentId := by
        by_contra hne
        apply hunc
        change sh.uncertainAgents a = none
        rw [heq, Scheduler.fenceAgent, Function.update_of_ne hne]
        exact hnone
      subst hagent
      cases fenced with
      | true => exact absurd hnone (hi.slots.fenced w task _ hpc).2
      | false =>
        refine ⟨task, hbusy w task _ hpc (by simp), rfl, .inl ⟨w, false, stage', ?_, ?_⟩⟩
        · exact Function.update_self _ _ _
        · cases hstage
          trivial
  | _ => exact absurd hnone hunc

theorem workerStep_outcome {fenced₀ : String → Prop} {w : ω} {s s' : Scheduler ω κ}
    (hstep : WorkerStep w s s') (hi : SchedulerInv s) (h : OutcomeInv fenced₀ s) :
    OutcomeInv fenced₀ s' := by
  have hsched : SchedulerStep s s' := .worker w hstep
  refine ⟨workerStep_busy hstep h.busy, fun t ht hres => ?_, fun a hunc => ?_⟩
  · obtain ⟨hadm, -, -, -, -, hcase⟩ := workerStep_history hstep
    rw [hadm] at ht
    have hold : (s.results t.taskId).isSome = true →
        t ∈ s'.executed ∨ s'.uncertainAgents t.catalogAgentId ≠ none := fun hsome =>
      (h.settled t ht hsome).imp (schedulerStep_executed_mono hsched)
        (schedulerStep_uncertain hsched)
    rcases hcase with ⟨hr, -⟩ | ⟨task, fenced, result, hpc, hr, -⟩ <;> rw [hr] at hres
    · exact hold hres
    · rcases isSome_update.mp hres with hid | hsome
      · obtain ⟨place, hp⟩ := hi.placed
        have hw : (s.worker w).holds = some task := by
          rw [hpc]
          rfl
        obtain rfl := hp.admitted_inj ht (hp.held w task hw).1 hid
        cases fenced with
        | true => exact .inr (schedulerStep_uncertain hsched (hi.slots.fenced w t _ hpc).2)
        | false =>
          exact .inl (schedulerStep_executed_mono hsched (h.busy w t _ hpc (by simp)))
      · exact hold hsome
  · by_cases hnone : s.uncertainAgents a = none
    · exact .inr (workerStep_fences hstep hi h.busy hnone hunc)
    · refine (h.source a hnone).imp id ?_
      rintro ⟨t, ht, hagent, hend⟩
      exact ⟨t, schedulerStep_executed_mono hsched ht, hagent,
        schedulerStep_endedUnknown hsched hi hend⟩

theorem callerStep_outcome {fenced₀ : String → Prop} {c : κ} {s s' : Scheduler ω κ}
    (hstep : CallerStep c s s') (hi : SchedulerInv s) (h : OutcomeInv fenced₀ s) :
    OutcomeInv fenced₀ s' := by
  have hsched : SchedulerStep s s' := .caller c hstep
  obtain ⟨hworker, -, -, -, hex, -, -, hunc⟩ := callerStep_frame hstep
  obtain ⟨place, hp⟩ := hi.placed
  refine ⟨?_, fun t ht hres => ?_, fun a ha => ?_⟩
  · rw [hworker, hex]
    exact h.busy
  · have hold : t ∈ s.admitted → (s.results t.taskId).isSome = true →
        t ∈ s'.executed ∨ s'.uncertainAgents t.catalogAgentId ≠ none := fun hadm hsome =>
      (h.settled t hadm hsome).imp (schedulerStep_executed_mono hsched)
        (schedulerStep_uncertain hsched)
    rcases callerStep_admitted hstep with heq | ⟨t₀, hholds, heq, hr⟩ <;> rw [heq] at ht
    · rcases (callerStep_history hstep).1 with ⟨hr, -⟩ | ⟨task, result, hholds, hr, -⟩ <;>
        rw [hr] at hres
      · exact hold ht hres
      · rcases isSome_update.mp hres with hid | hsome
        · -- the task of a call is not admitted yet
          have hcov := hp.covered t ht
          rw [hid, hp.candidate c task hholds] at hcov
          exact hcov.elim
        · exact hold ht hsome
    · rw [hr] at hres
      rcases List.mem_append.mp ht with ht | ht
      · exact hold ht hres
      · rw [List.mem_singleton] at ht
        subst ht
        have hdone := (hp.done _).mp hres
        rw [hp.candidate c t hholds] at hdone
        cases hdone
  · have hold : s.uncertainAgents a ≠ none := by
      rcases hunc with heq | ⟨task, hfenced, heq⟩ <;> rw [heq] at ha
      · exact ha
      · by_cases hagent : a = task.catalogAgentId
        · rwa [hagent]
        · rwa [Scheduler.fenceAgent, Function.update_of_ne hagent] at ha
    refine (h.source a hold).imp id ?_
    rintro ⟨t, ht, hagent, hend⟩
    exact ⟨t, schedulerStep_executed_mono hsched ht, hagent,
      schedulerStep_endedUnknown hsched hi hend⟩

theorem outcomeInv_preserved (fenced₀ : String → Prop) :
    Preserves (SchedulerStep (ω := ω) (κ := κ)) fun s => SchedulerInv s ∧ OutcomeInv fenced₀ s := by
  rintro s s' hstep ⟨hi, h⟩
  refine ⟨schedulerInv_preserved hstep hi, ?_⟩
  cases hstep with
  | worker w hstep => exact workerStep_outcome hstep hi h
  | caller c hstep => exact callerStep_outcome hstep hi h
  | shutsDown | closesLedger => exact ⟨h.busy, h.settled, h.source⟩

theorem outcomeInv_constructed {s : Scheduler ω κ} (hs : s.Constructed) :
    OutcomeInv (fun a => s.uncertainAgents a ≠ none) s := by
  obtain ⟨place, hp⟩ := constructed_placed s hs
  obtain ⟨config, ledger, dbOpen, env, usedIds, -, -, rfl⟩ := hs
  refine ⟨fun w t stage hw => ?_, fun t ht hres => ?_, fun a ha => .inl ha⟩
  · cases hw
  · have hdone := (hp.done _).mp hres
    rw [(hp.pending t ht).2] at hdone
    cases hdone

/-- The instance has run to completion: every admitted task has a result. -/
def Scheduler.Complete (s : Scheduler ω κ) : Prop :=
  ∀ t ∈ s.admitted, (s.results t.taskId).isSome = true

theorem schedulerStep_admitted_mono {s s' : Scheduler ω κ} (hstep : SchedulerStep s s')
    {t : VerificationTask} (ht : t ∈ s.admitted) : t ∈ s'.admitted := by
  cases hstep with
  | shutsDown | closesLedger => exact ht
  | worker w hstep =>
    obtain ⟨heq, -⟩ := workerStep_history hstep
    rwa [heq]
  | caller c hstep =>
    rcases callerStep_admitted hstep with heq | ⟨t', -, heq, -⟩ <;> rw [heq]
    · exact ht
    · exact List.mem_append_left _ ht

/-- A task queued at start-up has been run when the instance is complete, unless another task of
its agent was run there and ended unknown. -/
theorem run_complete {s s' : Scheduler ω κ} (hs : s.Constructed) (hrun : Run SchedulerStep s s')
    {t : VerificationTask} (ht : t ∈ s.admitted) (hfree : s.uncertainAgents t.catalogAgentId = none)
    (hcomplete : s'.Complete) :
    t ∈ s'.executed ∨ ∃ t' ∈ s'.executed, t'.catalogAgentId = t.catalogAgentId ∧
      ∃ r, s'.results t'.taskId = some r ∧ r.status = .unknown := by
  obtain ⟨hi, h⟩ := run_preserves (outcomeInv_preserved _) hrun
    ⟨schedulerInv_init s hs, outcomeInv_constructed hs⟩
  have hadm : t ∈ s'.admitted :=
    run_preserves (P := fun u : Scheduler ω κ => t ∈ u.admitted)
      (fun _ _ hstep h => schedulerStep_admitted_mono hstep h) hrun ht
  rcases h.settled t hadm (hcomplete t hadm) with hex | hunc
  · exact .inl hex
  · rcases h.source _ hunc with hfenced | ⟨t', ht', hagent, hend⟩
    · exact absurd hfree hfenced
    · refine .inr ⟨t', ht', hagent, ?_⟩
      rcases hend with ⟨w, fenced, stage, hw, hstage⟩ | hresult
      · -- a worker still has it, so it has no result yet
        obtain ⟨place, hp⟩ := hi.placed
        have hholds : (s'.worker w).holds = some t' := by
          rw [hw, holds_busy]
          rintro rfl
          exact hstage
        exact absurd (hcomplete t' (hi.history.executed t' ht').1) (hp.no_result_of_held hholds)
      · exact hresult

theorem restarts_recovers {s s' : Restart ω κ} (hi : RestartInv s) (h : Restart.Restarts s s')
    {row : LedgerRow} (hrow : row ∈ s.durable) (hpend : row.status = .pending)
    (hfree : ¬ RunningAgent s.durable row.catalogAgentId) :
    s'.queue.Constructed ∧ row.task ∈ s'.queue.pending ∧ row.task ∈ s'.queue.admitted ∧
      s'.queue.uncertainAgents row.catalogAgentId = none := by
  cases h with
  | @reconstructs config env ledger hledger =>
    have hcrash := crashedRecovery_remarks hledger hi.keys
    have hkeys := hcrash.keys hi.keys
    have hmem : row ∈ ledger := by
      obtain ⟨row', hrow', -, hmark⟩ := hcrash.mem_left hrow
      by_cases heq : row' = row
      · rwa [← heq]
      · exact absurd (hmark heq) hfree
    rw [← hcrash.runningAgent] at hfree
    have hpending : row.task ∈ (Scheduler.construct config ledger true env s.queue.usedIds :
        Scheduler ω κ).pending :=
      (mem_construct_pending_iff hkeys).mpr ⟨row, hmem, hpend, hfree, rfl⟩
    refine ⟨⟨config, ledger, true, env, _, hkeys, hcrash.used hi.used, rfl⟩, hpending, hpending, ?_⟩
    by_contra hunc
    have hsome := Option.isSome_iff_ne_none.mpr hunc
    obtain ⟨r, hr, hrun, hagent⟩ := (recoveredUncertain_isSome _ _).mp hsome
    exact hfree ⟨r, Scheduler.openRows_mem hkeys hr, hrun, hagent⟩

/-! ## The contract -/

/-- What a crash in state `s` leaves to the later instances on the same ledger. -/
structure RestartContract (s : Restart ω κ) : Prop where
  /-- The agent of a running row is fenced for good, and the row stays. -/
  fence : ∀ row ∈ s.durable, row.status = .running → ∀ s₁, Restart.Restarts s s₁ →
    ∀ s₂, Run Restart.Step s₁ s₂ →
      FencedBy s₂ row ∧ s₂.runsFor row.catalogAgentId = s.runsFor row.catalogAgentId
  /-- Any other pending row is queued again.  It is run at most once in the next instance, and it
  has been run when that instance is complete unless the agent has been fenced meanwhile. -/
  recovered : ∀ row ∈ s.durable, row.status = .pending →
    ¬ RunningAgent s.durable row.catalogAgentId → ∀ s₁, Restart.Restarts s s₁ →
      row.task ∈ s₁.queue.pending ∧ ∀ q, Run SchedulerStep s₁.queue q →
        (q.executed.map VerificationTask.taskId).Nodup ∧
          (q.Complete → row.task ∈ q.executed ∨
            ∃ t ∈ q.executed, t.catalogAgentId = row.catalogAgentId ∧
              ∃ r, q.results t.taskId = some r ∧ r.status = .unknown)
  /-- The task of a terminal row is not run again, by any instance. -/
  terminal : ∀ row ∈ s.durable, row.unresolved = false → ∀ s', Run Restart.Step s s' →
    s'.runsOf row.taskId = s.runsOf row.taskId

/-- The restart fence, the recovery of pending rows and the end of terminal ones, at every point
of every sequence of queue steps and crashes. -/
theorem restart_contract {s : Restart ω κ} (hs : Reachable Restart.Started Restart.Step s) :
    RestartContract s := by
  have hi := restartInv_reachable hs
  refine ⟨fun row hrow hrun s₁ h₁ s₂ h₂ => ?_, fun row hrow hpend hfree s₁ h₁ => ?_,
    fun row hrow hclosed s' hrun => run_spent hi hrun (hi.spent row hrow hclosed)⟩
  · have hfence := fencedBy_restarts hi h₁ ⟨row, hrow, rfl, rfl, hrun⟩
    obtain ⟨hfence₂, hruns⟩ := run_fencedBy (restartInv_restarts hi h₁) h₂ hfence
    obtain ⟨-, -, hsame, -⟩ := restarts_ledger hi h₁
    refine ⟨hfence₂, hruns.trans ?_⟩
    rw [Restart.runsFor, hsame, Restart.runsFor]
  · obtain ⟨hcons, hpending, hadm, hnone⟩ := restarts_recovers hi h₁ hrow hpend hfree
    refine ⟨hpending, fun q hq => ⟨?_, run_complete hcons hq hadm hnone⟩⟩
    exact executed_ids_nodup (run_preserves schedulerInv_preserved hq (schedulerInv_init _ hcons))

/-! ## A recovered row that is not run -/

def queuedVerify : VerificationTask := ⟨"cagt_1", "vt-1", .verify, "admin", 0⟩

def queuedRefresh : VerificationTask := ⟨"cagt_1", "vt-2", .refresh, "admin", 0⟩

def smallConfig : VerificationQueueConfig := ⟨100, 2, 30, by decide, by decide, by decide⟩

/-- The steps of one instance, each with its write committed. -/
theorem run_committed {q q' : Scheduler ω κ} (hrun : Run SchedulerStep q q')
    (past : List VerificationTask) :
    Run Restart.Step ⟨q, q.ledger, past⟩ ⟨q', q'.ledger, past⟩ := by
  induction hrun with
  | refl => exact .refl
  | tail _ hlast ih => exact ih.tail (.moves hlast (.inl rfl))

/-- Two tasks of one agent have been admitted and none has been started. -/
theorem twoQueued_reachable : ∃ q : Scheduler Bool Bool,
    Run SchedulerStep (Scheduler.fresh smallConfig true) q ∧
      q.ledger = [queuedVerify.pendingRow, queuedRefresh.pendingRow] := by
  have hrun : Run SchedulerStep (Scheduler.fresh smallConfig true : Scheduler Bool Bool) _ :=
    Relation.ReflTransGen.refl
      |>.tail (.caller false (.called "cagt_1" "verify" "admin" rfl rfl rfl))
      |>.tail (.caller false (.unblocked rfl rfl))
      |>.tail (.caller false (.findsNone rfl rfl))
      |>.tail (.caller false (.registers "vt-1" 0 rfl List.not_mem_nil))
      |>.tail (.caller false (.inserted rfl rfl rfl))
      |>.tail (.caller false (.locksOpen rfl rfl rfl))
      |>.tail (.caller false (.passesFence rfl rfl))
      |>.tail (.caller false (.puts rfl (Nat.le_of_ble_eq_true rfl)))
      |>.tail (.caller true (.called "cagt_1" "refresh" "admin" rfl rfl rfl))
      |>.tail (.caller true (.unblocked rfl rfl))
      |>.tail (.caller true (.findsNone rfl rfl))
      |>.tail (.caller true (.registers "vt-2" 0 rfl (by decide)))
      |>.tail (.caller true (.inserted rfl rfl rfl))
      |>.tail (.caller true (.locksOpen rfl rfl rfl))
      |>.tail (.caller true (.passesFence rfl rfl))
      |>.tail (.caller true (.puts rfl (Nat.le_of_ble_eq_true rfl)))
  exact ⟨_, hrun, rfl⟩

theorem recoveredRows_twoQueued :
    recoveredRows [queuedVerify.pendingRow, queuedRefresh.pendingRow] =
      [queuedVerify.pendingRow, queuedRefresh.pendingRow] := by
  have hkeys : Table.KeyUnique LedgerRow.taskId
      [queuedVerify.pendingRow, queuedRefresh.pendingRow] := by
    simp [Table.KeyUnique, VerificationTask.pendingRow, queuedVerify, queuedRefresh]
  rw [recoveredRows_eq hkeys, loadPendingTasks]
  exact List.mergeSort_of_pairwise (by decide)

/-- The instance after a crash there, as constructed. -/
def twoRecovered (usedIds : List String) : Scheduler Bool Bool :=
  { Scheduler.fresh smallConfig true with
    tasks := [queuedVerify, queuedRefresh]
    pending := [queuedVerify, queuedRefresh]
    ledger := [queuedVerify.pendingRow, queuedRefresh.pendingRow]
    usedIds := usedIds
    admitted := [queuedVerify, queuedRefresh] }

theorem construct_twoQueued (env : RecoveryEnv) (usedIds : List String) :
    Scheduler.construct smallConfig [queuedVerify.pendingRow, queuedRefresh.pendingRow] true env
      usedIds = twoRecovered usedIds := by
  simp only [Scheduler.construct, if_true, recoveredRows_twoQueued]
  rfl

/-- The first task ends unknown, so the second is closed without a run. -/
theorem secondClosed_reachable (usedIds : List String) : ∃ q : Scheduler Bool Bool,
    Run SchedulerStep (twoRecovered usedIds) q ∧ q.Complete ∧ queuedRefresh ∉ q.executed := by
  have hrun : Run SchedulerStep (twoRecovered usedIds) _ :=
    Relation.ReflTransGen.refl
      |>.tail (.worker false (.seesOpen rfl rfl))
      |>.tail (.worker false (.dequeues rfl rfl))
      |>.tail (.worker false (.claims rfl))
      |>.tail (.worker false (.runs rfl))
      |>.tail (.worker false (.works rfl (.runningPersisted 0)))
      |>.tail (.worker false (.works rfl (.decidesUnknown (unknownReason none))))
      |>.tail (.worker false (.works rfl .fences))
      |>.tail (.worker false (.works rfl (.unknownPersisted 0 1 1)))
      |>.tail (.worker false (.records rfl))
      |>.tail (.worker true (.seesOpen rfl rfl))
      |>.tail (.worker true (.dequeues rfl rfl))
      |>.tail (.worker true (.claims rfl))
      |>.tail (.worker true (.works rfl .fences))
      |>.tail (.worker true (.works rfl (.unknownPersisted 0 1 1)))
      |>.tail (.worker true (.records rfl))
  refine ⟨_, hrun, fun t ht => ?_, ?_⟩
  · have hcases : t = queuedVerify ∨ t = queuedRefresh := by
      simpa using (show t ∈ [queuedVerify, queuedRefresh] from ht)
    rcases hcases with rfl | rfl <;> rfl
  · change queuedRefresh ∉ [queuedVerify]
    decide

/-- A pending row of an agent without running rows may stay without a run in a complete next
instance. -/
theorem recovered_not_run :
    ¬ ∀ s : Restart Bool Bool, Reachable Restart.Started Restart.Step s →
      ∀ row ∈ s.durable, row.status = .pending →
        ¬ RunningAgent s.durable row.catalogAgentId → ∀ s₁, Restart.Restarts s s₁ →
          ∀ q, Run SchedulerStep s₁.queue q → q.Complete → row.task ∈ q.executed := by
  intro hall
  obtain ⟨q, hrun, hledger⟩ := twoQueued_reachable
  let s : Restart Bool Bool := ⟨q, q.ledger, []⟩
  have hs : Reachable Restart.Started Restart.Step s :=
    ⟨_, ⟨fresh_constructed smallConfig true, rfl, rfl⟩, run_committed hrun []⟩
  have hdurable : s.durable = [queuedVerify.pendingRow, queuedRefresh.pendingRow] := hledger
  let env : RecoveryEnv := ⟨fun _ => none, fun _ => 0, fun _ => 0⟩
  obtain ⟨durable, hrestart⟩ : ∃ durable,
      Restart.Restarts s ⟨twoRecovered q.usedIds, durable, s.runs⟩ := by
    have h := Restart.Restarts.reconstructs (s := s) smallConfig env .refl
    rw [hdurable, construct_twoQueued] at h
    exact ⟨_, h⟩
  obtain ⟨q', hrun', hcomplete, hnot⟩ := secondClosed_reachable q.usedIds
  apply hnot
  refine hall s hs queuedRefresh.pendingRow ?_ rfl ?_ _ hrestart q' hrun' hcomplete
  · rw [hdurable]
    simp
  · rw [hdurable]
    rintro ⟨row, hrow, hstatus, -⟩
    have hcases : row = queuedVerify.pendingRow ∨ row = queuedRefresh.pendingRow := by
      simpa using hrow
    rcases hcases with rfl | rfl <;> cases hstatus

/-- The contract at a crash with two queued tasks of one agent. -/
theorem restart_contract_twoQueued : ∃ s : Restart Bool Bool,
    s.durable = [queuedVerify.pendingRow, queuedRefresh.pendingRow] ∧ RestartContract s := by
  obtain ⟨q, hrun, hledger⟩ := twoQueued_reachable
  have hs : Reachable Restart.Started Restart.Step (⟨q, q.ledger, []⟩ : Restart Bool Bool) :=
    ⟨_, ⟨fresh_constructed smallConfig true, rfl, rfl⟩, run_committed hrun []⟩
  exact ⟨_, hledger, restart_contract hs⟩

end KiwiCatalog.Queue
