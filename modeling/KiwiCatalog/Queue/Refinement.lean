import KiwiCatalog.Queue.ExecutionInvariant
import KiwiCatalog.Queue.SchedulerProperties

/-!
# Refinement — the supervised run inside the worker loop

`Scheduler` abstracts from the runner thread, the permission and the clock.  Every run of an
`Execution` is a run of the worker that supervises it, with the same ledger row, the same fence
and the same recorded outcome.
-/

set_option autoImplicit false
set_option linter.unusedSectionVars false

namespace KiwiCatalog.Queue

open Transition

variable {ω κ : Type} [DecidableEq ω] [DecidableEq κ]

/-- Where the worker stands while its execution is at a given position. -/
def SupervisorPc.stage : SupervisorPc → Stage
  | .persistingRunning => .persistingRunning
  | .acquiringSlot | .startingRunner | .joining | .checkingAlive | .checkingState
  | .finishingFailed | .deciding | .readingCommitError => .supervising
  | .fencing reason => .fencing reason
  | .persistingUnknown reason => .persistingUnknown reason
  | .persistingFinish result => .persistingFinish result
  | .raising exc => .raising exc
  | .persistingWorkerError result => .persistingWorkerError result
  | .deletingPending result => .deletingPending result
  | .recording result => .recording result
  | .recorded => .releasing

/-- The worker's view of an execution: the same row, the same fence, and the outcome stored once
the supervisor has recorded it. -/
structure Supervises (task : VerificationTask) (sh : Shared) (e : Execution) : Prop where
  row : fetchTaskRow sh.ledger task.taskId = e.row
  fence : sh.uncertainAgents task.catalogAgentId = e.uncertainAgent
  keys : Table.KeyUnique LedgerRow.taskId sh.ledger

/-- Every result the two parties hold or exchange is the task's own. -/
structure OwnOutcomes (task : VerificationTask) (e : Execution) : Prop where
  result : ∀ r, e.permission.result = some r → r.taskId = task.taskId
  runner : ∀ r, e.runner = .finishing r → r.taskId = task.taskId

theorem ownOutcomes_preserved {task : VerificationTask} {hasCommit : Bool} :
    Preserves (ExecutionStep task hasCommit) (OwnOutcomes task) := by
  have hfinish : ∀ {p : CommitPermission} {r : VerificationTaskResult},
      (∀ r', p.result = some r' → r'.taskId = task.taskId) → r.taskId = task.taskId →
        ∀ r', (p.finish r).result = some r' → r'.taskId = task.taskId := by
    intro p r hp hr r' hr'
    rcases CommitPermission.finish_cases r p with ⟨-, heq⟩ | ⟨-, heq⟩ <;> rw [heq] at hr'
    · cases hr'
      exact hr
    · exact hp r' hr'
  have hdecide : ∀ {p p' : CommitPermission} {d}, p.decideDeadline = (d, p') →
      p'.result = p.result := by
    intro p p' d hd
    rw [← CommitPermission.decideDeadline_result p, hd]
  intro e e' hstep h
  cases hstep with
  | tick clock hclock => exact ⟨h.result, h.runner⟩
  | runner hstep =>
    cases hstep with
    | factoryRaises exc now hpc | serviceRaises exc now hpc | resultBuilt now hpc =>
      refine ⟨h.result, fun r hr => ?_⟩
      cases hr
      rfl
    | claimGranted hpc hclaim =>
      obtain ⟨-, -, rfl⟩ := CommitPermission.claimCommit_true hclaim
      refine ⟨h.result, fun r hr => ?_⟩
      cases hr
    | claimRefused hpc hclaim =>
      refine ⟨?_, fun r hr => by cases hr⟩
      rcases CommitPermission.claimCommit_false hclaim with ⟨-, rfl⟩ | ⟨-, rfl⟩ <;> exact h.result
    | finishes hpc =>
      exact ⟨hfinish h.result (h.runner _ hpc), fun r hr => by cases hr⟩
    | _ => exact ⟨h.result, fun r hr => by cases hr⟩
  | supervisor hstep =>
    cases hstep with
    | runnerStarts hpc => exact ⟨h.result, fun r hr => by cases hr⟩
    | finishesFailed now hpc => exact ⟨hfinish h.result rfl, h.runner⟩
    | decidesUnknown hpc hd | decides now hpc hd hstate =>
      refine ⟨?_, h.runner⟩
      rw [hdecide hd]
      exact h.result
    | _ => exact ⟨h.result, h.runner⟩

theorem ownOutcomes_started {task : VerificationTask} {config : VerificationQueueConfig}
    {e : Execution} (h : e.Started config) : OwnOutcomes task e := by
  obtain ⟨clock, startedAt, row, uncertainAgent, rfl⟩ := h
  refine ⟨fun r hr => ?_, fun r hr => ?_⟩
  · cases hr
  · cases hr

/-! ## The statements of one row, seen through the table -/

theorem supervises_update {task : VerificationTask} {sh : Shared} {e : Execution}
    {f : LedgerRow → LedgerRow} (h : Supervises task sh e) (hf : ∀ r, (f r).taskId = r.taskId) :
    fetchTaskRow (Table.updateWhere (hasTaskId task.taskId) f sh.ledger) task.taskId =
        e.row.map f ∧
      Table.KeyUnique LedgerRow.taskId (Table.updateWhere (hasTaskId task.taskId) f sh.ledger) := by
  refine ⟨?_, Table.keyUnique_updateWhere hf h.keys⟩
  have hlookup := Table.lookup_updateWhere hf task.taskId task.taskId sh.ledger
  rw [if_pos rfl] at hlookup
  exact hlookup.trans (congrArg (Option.map f) h.row)

theorem supervises_deletePending {task : VerificationTask} {sh : Shared} {e : Execution}
    (h : Supervises task sh e) :
    fetchTaskRow (deletePendingTask sh.ledger task.taskId) task.taskId = deletePendingRow e.row ∧
      Table.KeyUnique LedgerRow.taskId (deletePendingTask sh.ledger task.taskId) := by
  refine ⟨?_, Table.keyUnique_deleteWhere h.keys⟩
  have hlookup := Table.lookup_deleteWhere_key h.keys task.taskId
    fun row => decide (row.status = .pending)
  refine hlookup.trans ?_
  rw [show Table.lookup LedgerRow.taskId task.taskId sh.ledger = e.row from h.row]
  cases e.row with
  | none => rfl
  | some row => simp [deletePendingRow, Option.filter]

/-- The write of a terminal outcome, done or undone when it raises. -/
theorem supervises_finish {task : VerificationTask} {sh : Shared} {e : Execution}
    {result : VerificationTaskResult} {status : RowStatus} {row' : Option LedgerRow}
    (finishedAt : Nat) (h : Supervises task sh e)
    (hstatus : result.status.rowStatus? = some status)
    (hrow : MayWrite (LedgerRow.finishWith status result finishedAt) e.row row') :
    ∃ sh', fetchTaskRow sh'.ledger task.taskId = row' ∧
      sh'.uncertainAgents = sh.uncertainAgents ∧ Table.KeyUnique LedgerRow.taskId sh'.ledger ∧
      (sh' = sh ∨ ∃ ledger count now,
        FinishWrite task.taskId result now sh.ledger sh.finishCount ledger count ∧
          sh' = { sh with ledger := ledger, finishCount := count }) := by
  rcases hrow with hrow | hrow
  · exact ⟨sh, h.row.trans hrow.symm, rfl, h.keys, .inl rfl⟩
  · have hwrite : FinishWrite task.taskId result finishedAt sh.ledger sh.finishCount _ _ :=
      .plain hstatus
    obtain ⟨hfetch, hkeys⟩ := supervises_update h
      (finish_taskId status result.verificationStatus result.error
        (serializeVerificationResult result.result) finishedAt)
    exact ⟨{ sh with ledger := _, finishCount := sh.finishCount + 1 }, hfetch.trans hrow.symm, rfl,
      hkeys, .inr ⟨_, _, finishedAt, hwrite, rfl⟩⟩

/-! ## One step -/

/-- A step of the execution is invisible to the worker loop, or one move of the busy worker, or
the recording of its result. -/
theorem executionStep_refines {task : VerificationTask} {hasCommit : Bool} {e e' : Execution}
    (hstep : ExecutionStep task hasCommit e e') (hi : ExecutionInv hasCommit e)
    (hown : OwnOutcomes task e) {sh : Shared} (h : Supervises task sh e) :
    (e'.supervisor.stage = e.supervisor.stage ∧ Supervises task sh e' ∧ e'.outcome = e.outcome) ∨
      (∃ sh', StageStep task sh e.supervisor.stage sh' e'.supervisor.stage ∧
        Supervises task sh' e' ∧ e'.outcome = e.outcome) ∨
      (∃ r, e.supervisor = .recording r ∧ e'.supervisor = .recorded ∧ e'.outcome = some r ∧
        Supervises task sh e') := by
  cases hstep with
  | tick clock hclock => exact .inl ⟨rfl, ⟨h.row, h.fence, h.keys⟩, rfl⟩
  | runner hstep =>
    obtain ⟨hsup, -, -, hout, hrow, hfence, -⟩ := runnerStep_frame hstep
    exact .inl ⟨by rw [hsup], ⟨h.row.trans hrow.symm, h.fence.trans hfence.symm, h.keys⟩, hout⟩
  | supervisor hstep =>
    cases hstep with
    | runningPersisted hpc =>
      obtain ⟨hfetch, hkeys⟩ := supervises_update h (markRunning_taskId e.startedAt)
      rw [hpc]
      exact .inr (.inl ⟨_, .runningPersisted e.startedAt, ⟨hfetch, h.fence, hkeys⟩, rfl⟩)
    | runningRaises exc hpc hrow =>
      rw [hpc]
      rcases hrow with rfl | rfl
      · exact .inr (.inl ⟨sh, .runningUndone exc, ⟨h.row, h.fence, h.keys⟩, rfl⟩)
      · obtain ⟨hfetch, hkeys⟩ := supervises_update h (markRunning_taskId e.startedAt)
        exact .inr (.inl ⟨_, .runningRaises e.startedAt exc, ⟨hfetch, h.fence, hkeys⟩, rfl⟩)
    | startRaises exc hpc =>
      rw [hpc]
      exact .inr (.inl ⟨sh, .superviseRaises exc, ⟨h.row, h.fence, h.keys⟩, rfl⟩)
    | slotAcquired hpc | slotTimesOut hpc hlate | runnerStarts hpc | joinReturns hpc hdone
    | runnerAlive hpc hrunner | runnerDead hpc hrunner | stateRunning hpc hstate
    | stateOther hpc hstate | finishesFailed now hpc | decidesUnknown hpc hdecide =>
      rw [hpc]
      exact .inl ⟨rfl, ⟨h.row, h.fence, h.keys⟩, rfl⟩
    | decides now hpc hdecide hstate =>
      rw [hpc]
      refine .inr (.inl ⟨sh, .decides _ ?_ ?_, ⟨h.row, h.fence, h.keys⟩, rfl⟩)
      · have hres : _ = e.permission.decideDeadline.1.2 := (congrArg (·.1.2) hdecide).symm
        rw [CommitPermission.decideDeadline_decision,
          CommitPermission.decideDeadline_result] at hres
        dsimp only at hres
        rw [hres]
        cases hr : e.permission.result with
        | none => rfl
        | some r => exact hown.result r hr
      · rcases decideDeadline_cases hi.permission hdecide with heq | heq | ⟨r, heq, hpub⟩
        · cases heq
          simp [timeoutOutcome]
        · cases heq
          exact absurd rfl hstate
        · cases heq
          rcases hpub with ⟨hst, -⟩ | ⟨hst, -⟩ <;> simp [hst]
    | readsCommitError hpc =>
      rw [hpc]
      exact .inr (.inl ⟨sh, .decidesUnknown _, ⟨h.row, h.fence, h.keys⟩, rfl⟩)
    | fences hpc =>
      rw [hpc]
      refine .inr (.inl ⟨_, .fences, ⟨h.row, ?_, h.keys⟩, rfl⟩)
      change Scheduler.fenceAgent sh.uncertainAgents task task.catalogAgentId = _
      rw [Scheduler.fenceAgent, Function.update_self, h.fence]
    | unknownPersisted finishedAt now hpc =>
      obtain ⟨hfetch, hkeys⟩ := supervises_update h (markUnknown_taskId _ finishedAt)
      rw [hpc]
      exact .inr (.inl ⟨_, .unknownPersisted e.startedAt finishedAt now,
        ⟨hfetch, h.fence, hkeys⟩, rfl⟩)
    | unknownRaises exc now hpc =>
      rw [hpc]
      exact .inr (.inl ⟨sh, .unknownRaises e.startedAt now exc, ⟨h.row, h.fence, h.keys⟩, rfl⟩)
    | finishPersisted finishedAt hpc hstatus =>
      obtain ⟨hfetch, hkeys⟩ := supervises_update h
        (finish_taskId _ _ _ (serializeVerificationResult _) finishedAt)
      rw [hpc]
      exact .inr (.inl ⟨_, .finishPersisted finishedAt (.plain hstatus),
        ⟨hfetch, h.fence, hkeys⟩, rfl⟩)
    | finishRaisesCompleted exc finishedAt hpc hcompleted hstatus hrow =>
      rw [hpc]
      obtain ⟨sh', hfetch, hunc, hkeys, hwrite⟩ := supervises_finish finishedAt h hstatus hrow
      exact .inr (.inl ⟨sh', .finishRaisesCompleted exc hcompleted hwrite,
        ⟨hfetch, (congrFun hunc _).trans h.fence, hkeys⟩, rfl⟩)
    | finishRaises exc finishedAt hpc hcompleted hstatus hrow =>
      rw [hpc]
      obtain ⟨sh', hfetch, hunc, hkeys, hwrite⟩ := supervises_finish finishedAt h hstatus hrow
      exact .inr (.inl ⟨sh', .finishRaises exc hcompleted hwrite,
        ⟨hfetch, (congrFun hunc _).trans h.fence, hkeys⟩, rfl⟩)
    | catches now hpc =>
      rw [hpc]
      exact .inr (.inl ⟨sh, .catches now, ⟨h.row, h.fence, h.keys⟩, rfl⟩)
    | workerErrorPersisted finishedAt hpc hstatus =>
      rw [hpc]
      obtain ⟨sh', hfetch, hunc, hkeys, hwrite⟩ :=
        supervises_finish finishedAt h hstatus (.inr rfl)
      exact .inr (.inl ⟨sh', .workerErrorWritten hwrite,
        ⟨hfetch, (congrFun hunc _).trans h.fence, hkeys⟩, rfl⟩)
    | workerErrorRaises finishedAt hpc hstatus hrow =>
      rw [hpc]
      obtain ⟨sh', hfetch, hunc, hkeys, hwrite⟩ := supervises_finish finishedAt h hstatus hrow
      exact .inr (.inl ⟨sh', .workerErrorWritten hwrite,
        ⟨hfetch, (congrFun hunc _).trans h.fence, hkeys⟩, rfl⟩)
    | pendingDeleted hpc =>
      obtain ⟨hfetch, hkeys⟩ := supervises_deletePending h
      rw [hpc]
      exact .inr (.inl ⟨_, .pendingDeleted, ⟨hfetch, h.fence, hkeys⟩, rfl⟩)
    | deleteRaises hpc hrow =>
      rw [hpc]
      rcases hrow with rfl | rfl
      · exact .inr (.inl ⟨sh, .deleteRaises, ⟨h.row, h.fence, h.keys⟩, rfl⟩)
      · obtain ⟨hfetch, hkeys⟩ := supervises_deletePending h
        exact .inr (.inl ⟨_, .pendingDeleted, ⟨hfetch, h.fence, hkeys⟩, rfl⟩)
    | records hpc => exact .inr (.inr ⟨_, hpc, rfl, rfl, ⟨h.row, h.fence, h.keys⟩⟩)

/-! ## Whole runs -/

/-- Every run of an execution is a run of the worker that supervises it. -/
theorem execution_lifts {task : VerificationTask} {hasCommit fenced : Bool} {e e' : Execution}
    (hrun : Run (ExecutionStep task hasCommit) e e') (hi : ExecutionInv hasCommit e)
    (hown : OwnOutcomes task e) {s : Scheduler ω κ} {w : ω} (hdb : s.dbOpen = true)
    (hpc : s.worker w = .busy task fenced e.supervisor.stage)
    (h : Supervises task s.shared e) (hnone : e.outcome = none) :
    ∃ s' : Scheduler ω κ, Run SchedulerStep s s' ∧ s'.dbOpen = true ∧
      s'.worker w = .busy task fenced e'.supervisor.stage ∧ Supervises task s'.shared e' ∧
      ∀ r, e'.outcome = some r → s'.results task.taskId = some r := by
  induction hrun with
  | refl =>
    refine ⟨s, .refl, hdb, hpc, h, fun r hr => ?_⟩
    rw [hnone] at hr
    cases hr
  | @tail e₁ e₂ hprefix hlast ih =>
    obtain ⟨s₁, hrun₁, hdb₁, hpc₁, h₁, hres₁⟩ := ih
    have hi₁ := run_preserves executionInv_preserved hprefix hi
    have hown₁ := run_preserves ownOutcomes_preserved hprefix hown
    rcases executionStep_refines hlast hi₁ hown₁ h₁ with
      ⟨hstage, h₂, hout⟩ | ⟨sh, hmove, h₂, hout⟩ | ⟨r, hrec, hdone, hout, h₂⟩
    · exact ⟨s₁, hrun₁, hdb₁, by rw [hpc₁, hstage], h₂, by rwa [hout]⟩
    · have hstep : SchedulerStep s₁ ((s₁.setShared sh).setWorker w
          (.busy task fenced e₂.supervisor.stage)) := .worker w (.works hpc₁ hmove)
      refine ⟨_, hrun₁.tail hstep, hdb₁, Function.update_self _ _ _, ?_, by rwa [hout]⟩
      have hshared : ((s₁.setShared sh).setWorker w
          (.busy task fenced e₂.supervisor.stage)).shared = sh := by
        simp [Scheduler.shared, Scheduler.setWorker, Scheduler.setShared, hdb₁]
      rw [hshared]
      exact h₂
    · rw [hrec] at hpc₁
      have hstep : SchedulerStep s₁ ((s₁.storeResult task.taskId r).setWorker w
          (.busy task fenced .releasing)) := .worker w (.records hpc₁)
      refine ⟨_, hrun₁.tail hstep, hdb₁, ?_, h₂, ?_⟩
      · rw [hdone]
        exact Function.update_self _ _ _
      · intro r' hr'
        rw [hout] at hr'
        cases hr'
        exact Function.update_self _ _ _

end KiwiCatalog.Queue
