import KiwiCatalog.Queue.SchedulerProperties

/-!
# TaskIds — the ids that `enqueue` hands out

A task can be found by other calls from its registration on, before its own call has stored and
queued it.  A call that fails takes its task back, and whoever has been given its id is left with
an id that no worker will ever answer.
-/

set_option autoImplicit false
set_option linter.unusedSectionVars false

namespace KiwiCatalog.Queue

open Transition

variable {ω κ : Type} [DecidableEq ω] [DecidableEq κ]

/-! ## Failing calls -/

/-- The call has ended after it registered a task and did not admit it. -/
def CallerPc.withdrawn : CallerPc → Bool
  | .finished .ledgerError | .finished .shutdownError | .finished .fullError
  | .finished .sqliteError => true
  | _ => false

/-- Registered and without a result, but neither admitted nor in the hands of a call. -/
def Abandoned (s : Scheduler ω κ) (taskId : String) : Prop :=
  ∃ task ∈ s.tasks, task.taskId = taskId ∧ s.results taskId = none ∧ task ∉ s.admitted ∧
    ∀ c, (s.caller c).holds ≠ some task

/-- The steps of a queue in which no failing call takes back or leaves behind a task that another
call has returned. -/
inductive HandoutStep : Scheduler ω κ → Scheduler ω κ → Prop
  | worker {s s' : Scheduler ω κ} (w : ω) (h : WorkerStep w s s') : HandoutStep s s'
  | caller {s s' : Scheduler ω κ} (c : κ) (h : CallerStep c s s')
      (hfails : ∀ task, (s.caller c).holds = some task → (s'.caller c).withdrawn = true →
        ∀ c', s.caller c' ≠ .finished (.returned task.taskId))
      (hreuses : ∀ taskId, s.caller c = .reusing taskId → ¬ Abandoned s taskId) :
      HandoutStep s s'
  | shutsDown {s : Scheduler ω κ} (hfree : s.enqueueLock = none) :
      HandoutStep s { s with shutdown := true }
  | closesLedger {s : Scheduler ω κ} (hshut : s.shutdown = true)
      (hjoined : ∀ w, s.worker w = .exited) (hfree : s.enqueueLock = none) :
      HandoutStep s { s with dbOpen := false }

theorem HandoutStep.schedulerStep {s s' : Scheduler ω κ} (h : HandoutStep s s') :
    SchedulerStep s s' := by
  cases h with
  | worker w h => exact .worker w h
  | caller c h => exact .caller c h
  | shutsDown hfree => exact .shutsDown hfree
  | closesLedger hshut hjoined hfree => exact .closesLedger hshut hjoined hfree

/-! ## What a step does to the register -/

theorem workerStep_tasks {w : ω} {s s' : Scheduler ω κ} (hstep : WorkerStep w s s') :
    s'.tasks = s.tasks ∧ s'.usedIds = s.usedIds := by
  cases hstep with
  | claims hpc =>
    rcases claim_cases s w _ with ⟨-, -, -, heq⟩ | ⟨-, heq⟩ <;> rw [heq] <;> exact ⟨rfl, rfl⟩
  | releases hpc =>
    unfold Scheduler.release
    split <;> exact ⟨rfl, rfl⟩
  | _ => exact ⟨rfl, rfl⟩

/-- A call registers a new task, takes its own off the register, or leaves the register alone. -/
theorem callerStep_tasks {c : κ} {s s' : Scheduler ω κ} (hstep : CallerStep c s s') :
    s'.tasks = s.tasks ∧ s'.usedIds = s.usedIds ∨
      (∃ req task, s.caller c = .registering req ∧ s'.caller c = .inserting task ∧
        task.catalogAgentId = req.catalogAgentId ∧ task.kind = req.kind ∧
        task.taskId ∉ s.usedIds ∧ s'.tasks = s.tasks ++ [task] ∧
        s'.usedIds = task.taskId :: s.usedIds) ∨
      ∃ task, (s.caller c).holds = some task ∧ (s'.caller c).withdrawn = true ∧
        s'.tasks = s.tasks.filter (fun t => t.taskId ≠ task.taskId) ∧ s'.usedIds = s.usedIds := by
  have hself : ∀ pc, Function.update s.caller c pc c = pc := fun pc =>
    Function.update_self c pc s.caller
  cases hstep with
  | @registers req taskId now hpc hfresh =>
    exact .inr (.inl ⟨req, _, hpc, hself _, rfl, rfl, hfresh, rfl, rfl⟩)
  | dropsUninserted hpc | dropsRefused hpc | dropsOverflow hpc =>
    refine .inr (.inr ⟨_, by rw [hpc]; rfl, ?_, rfl, rfl⟩)
    show (Function.update s.caller c _ c).withdrawn = true
    rw [hself]
    rfl
  | _ => exact .inl ⟨rfl, rfl⟩

/-- A call keeps its task in hand until it is admitted, has a result, or has been withdrawn. -/
theorem callerStep_disposal {c : κ} {s s' : Scheduler ω κ} (hstep : CallerStep c s s')
    {task : VerificationTask} (hholds : (s.caller c).holds = some task) :
    (s'.caller c).holds = some task ∨ task ∈ s'.admitted ∨
      (s'.results task.taskId).isSome = true ∨ (s'.caller c).withdrawn = true := by
  have hself : ∀ pc, Function.update s.caller c pc c = pc := fun pc =>
    Function.update_self c pc s.caller
  cases hstep with
  | puts hpc hroom =>
    rw [hpc] at hholds
    cases hholds
    exact .inr (.inl (List.mem_append_right _ (List.mem_singleton.mpr rfl)))
  | admissionBlocked finishedAt now hpc hfence =>
    rw [hpc] at hholds
    cases hholds
    exact .inr (.inr (.inl (isSome_update.mpr (.inl rfl))))
  | admissionBlockedUnmarked now exc hpc hfence =>
    rw [hpc] at hholds
    cases hholds
    exact .inr (.inr (.inl (isSome_update.mpr (.inl rfl))))
  | dropsUninserted hpc | dropsRefused hpc | dropsOverflow hpc | deleteRefusedRaises hpc
  | deleteOverflowRaises hpc =>
    refine .inr (.inr (.inr ?_))
    show (Function.update s.caller c _ c).withdrawn = true
    rw [hself]
    rfl
  | inserted hpc | insertSkipped hpc | insertRaises hpc | locksOpen hpc | locksShut hpc
  | deletesRefused hpc | passesFence hpc | overflows hpc | deletesOverflow hpc =>
    left
    rw [hpc] at hholds
    show (Function.update s.caller c _ c).holds = some task
    rw [hself]
    exact hholds
  | refusedAtOnce hpc | unknownKind _ hpc | called _ _ _ hpc | blocked hpc | unblocked hpc
  | findsExisting hpc | reuses hpc | reuseMisses hpc | findsNone hpc | registers _ _ hpc =>
    rw [hpc] at hholds
    cases hholds

/-- A call returns the id of a task that it has found on the register, or of its own, admitted. -/
theorem callerStep_returns {c : κ} {s s' : Scheduler ω κ} (hstep : CallerStep c s s')
    {taskId : String} (hfinished : s'.caller c = .finished (.returned taskId)) :
    s.caller c = .reusing taskId ∧ (∃ task ∈ s.tasks, task.taskId = taskId) ∧ s'.tasks = s.tasks ∨
      ∃ task, (s.caller c).holds = some task ∧ task.taskId = taskId ∧ task ∈ s'.admitted ∧
        s'.tasks = s.tasks := by
  have hself : ∀ pc, Function.update s.caller c pc c = pc := fun pc =>
    Function.update_self c pc s.caller
  cases hstep with
  | reuses hpc hmem =>
    have hid : EnqueueOutcome.returned _ = .returned taskId :=
      CallerPc.finished.inj ((hself _).symm.trans hfinished)
    cases hid
    obtain ⟨task, htask, heq⟩ := List.any_eq_true.mp hmem
    exact .inl ⟨hpc, ⟨task, htask, of_decide_eq_true heq⟩, rfl⟩
  | puts hpc hroom =>
    have hid : EnqueueOutcome.returned _ = .returned taskId :=
      CallerPc.finished.inj ((hself _).symm.trans hfinished)
    cases hid
    exact .inr ⟨_, by rw [hpc]; rfl, rfl,
      List.mem_append_right _ (List.mem_singleton.mpr rfl), rfl⟩
  | _ => cases (hself _).symm.trans hfinished

theorem callerStep_others {c c' : κ} {s s' : Scheduler ω κ} (hstep : CallerStep c s s')
    (hne : c' ≠ c) : s'.caller c' = s.caller c' :=
  (callerStep_lock hstep).1 c' hne

theorem workerStep_keepsResults {w : ω} {s s' : Scheduler ω κ} (hstep : WorkerStep w s s') {id : String}
    (h : (s.results id).isSome = true) : (s'.results id).isSome = true := by
  obtain ⟨-, -, -, -, -, hcase⟩ := workerStep_history hstep
  rcases hcase with ⟨heq, -⟩ | ⟨task, -, result, -, heq, -⟩ <;> rw [heq]
  · exact h
  · exact isSome_update.mpr (.inr h)

theorem callerStep_keepsResults {c : κ} {s s' : Scheduler ω κ} (hstep : CallerStep c s s') {id : String}
    (h : (s.results id).isSome = true) : (s'.results id).isSome = true := by
  rcases (callerStep_history hstep).1 with ⟨heq, -⟩ | ⟨task, result, -, heq, -⟩ <;> rw [heq]
  · exact h
  · exact isSome_update.mpr (.inr h)

theorem callerStep_keepsAdmitted {c : κ} {s s' : Scheduler ω κ} (hstep : CallerStep c s s')
    {task : VerificationTask} (h : task ∈ s.admitted) : task ∈ s'.admitted := by
  rcases (callerStep_history hstep).2 with heq | ⟨-, task', heq⟩ <;> rw [heq]
  · exact h
  · exact List.mem_append_left _ h

/-! ## Ids that are alive -/

/-- The id of a registered task that has a result, is admitted, or is in the hands of its call. -/
def Live (s : Scheduler ω κ) (taskId : String) : Prop :=
  ∃ task ∈ s.tasks, task.taskId = taskId ∧
    ((s.results taskId).isSome = true ∨ task ∈ s.admitted ∨
      ∃ c, (s.caller c).holds = some task)

/-- Every id that a call has returned is alive. -/
def HandoutInv (s : Scheduler ω κ) : Prop :=
  ∀ c taskId, s.caller c = .finished (.returned taskId) → Live s taskId

theorem live_of_not_abandoned {s : Scheduler ω κ} {taskId : String} {task : VerificationTask}
    (htask : task ∈ s.tasks) (hid : task.taskId = taskId) (h : ¬ Abandoned s taskId) :
    Live s taskId := by
  apply Classical.byContradiction
  intro hdead
  apply h
  refine ⟨task, htask, hid, ?_, ?_, ?_⟩
  · rw [← Option.not_isSome_iff_eq_none]
    intro hresult
    exact hdead ⟨task, htask, hid, .inl hresult⟩
  · intro hadmitted
    exact hdead ⟨task, htask, hid, .inr (.inl hadmitted)⟩
  · intro c hholds
    exact hdead ⟨task, htask, hid, .inr (.inr ⟨c, hholds⟩)⟩

/-- An id stays alive while its task stays registered and no call lets go of it. -/
theorem live_step {s s' : Scheduler ω κ} {taskId : String} (h : Live s taskId)
    (htasks : ∀ task ∈ s.tasks, task.taskId = taskId → task ∈ s'.tasks)
    (hresults : (s.results taskId).isSome = true → (s'.results taskId).isSome = true)
    (hadmitted : ∀ task ∈ s.admitted, task ∈ s'.admitted)
    (hholds : ∀ c task, task.taskId = taskId → (s.caller c).holds = some task →
      (s'.caller c).holds = some task ∨ task ∈ s'.admitted ∨
        (s'.results task.taskId).isSome = true) : Live s' taskId := by
  obtain ⟨task, htask, hid, hwhere⟩ := h
  refine ⟨task, htasks task htask hid, hid, ?_⟩
  rcases hwhere with hresult | hadm | ⟨c, hc⟩
  · exact .inl (hresults hresult)
  · exact .inr (.inl (hadmitted task hadm))
  · rcases hholds c task hid hc with hkept | hadm | hresult
    · exact .inr (.inr ⟨c, hkept⟩)
    · exact .inr (.inl hadm)
    · rw [hid] at hresult
      exact .inl hresult

theorem live_workerStep {w : ω} {s s' : Scheduler ω κ} {taskId : String}
    (hstep : WorkerStep w s s') (h : Live s taskId) : Live s' taskId := by
  obtain ⟨hadmitted, hcaller, -⟩ := workerStep_history hstep
  apply live_step h
  · intro task htask _
    rw [(workerStep_tasks hstep).1]
    exact htask
  · exact workerStep_keepsResults hstep
  · intro task htask
    rw [hadmitted]
    exact htask
  · intro c task _ hc
    rw [hcaller]
    exact .inl hc

/-- A step of a call leaves an id alive unless the call withdraws the task of that id. -/
theorem live_callerStep {c : κ} {s s' : Scheduler ω κ} {taskId : String}
    (hstep : CallerStep c s s') (h : Live s taskId)
    (hkeeps : ∀ task, (s.caller c).holds = some task → (s'.caller c).withdrawn = true →
      task.taskId ≠ taskId) : Live s' taskId := by
  apply live_step h
  · intro task htask hid
    rcases callerStep_tasks hstep with ⟨heq, -⟩ | ⟨-, new, -, -, -, -, -, heq, -⟩ |
      ⟨dropped, hholds, hwithdrawn, heq, -⟩ <;> rw [heq]
    · exact htask
    · exact List.mem_append_left _ htask
    · have hne := hkeeps dropped hholds hwithdrawn
      rw [← hid] at hne
      exact List.mem_filter.mpr ⟨htask, decide_eq_true hne.symm⟩
  · exact callerStep_keepsResults hstep
  · intro task htask
    exact callerStep_keepsAdmitted hstep htask
  · intro c' task hid hholds
    by_cases hcc : c' = c
    · rw [hcc] at hholds ⊢
      rcases callerStep_disposal hstep hholds with hkept | hadm | hresult | hwithdrawn
      · exact .inl hkept
      · exact .inr (.inl hadm)
      · exact .inr (.inr hresult)
      · exact absurd hid (hkeeps task hholds hwithdrawn)
    · rw [callerStep_others hstep hcc]
      exact .inl hholds

theorem handoutInv_step {s s' : Scheduler ω κ} (hstep : HandoutStep s s') (hplaced : Placed s)
    (hinv : HandoutInv s) : HandoutInv s' := by
  cases hstep with
  | worker w hstep =>
    intro c taskId hfinished
    rw [(workerStep_history hstep).2.1] at hfinished
    exact live_workerStep hstep (hinv c taskId hfinished)
  | caller c hstep hfails hreuses =>
    intro c' taskId hfinished
    by_cases hcc : c' = c
    · rw [hcc] at hfinished
      rcases callerStep_returns hstep hfinished with
        ⟨hreusing, ⟨task, htask, hid⟩, htasks⟩ | ⟨task, hholds, hid, hadmitted, htasks⟩
      · have hlive := live_of_not_abandoned htask hid (hreuses taskId hreusing)
        apply live_callerStep hstep hlive
        intro task' hholds
        rw [hreusing] at hholds
        cases hholds
      · obtain ⟨place, hp⟩ := hplaced
        refine ⟨task, ?_, hid, .inr (.inl hadmitted)⟩
        rw [htasks]
        exact hp.registered c task hholds
    · have hold : s.caller c' = .finished (.returned taskId) := by
        rw [← hfinished, callerStep_others hstep hcc]
      apply live_callerStep hstep (hinv c' taskId hold)
      intro task hholds hwithdrawn hid
      rw [← hid] at hold
      exact hfails task hholds hwithdrawn c' hold
  | shutsDown | closesLedger => exact hinv

theorem handoutInv_reachable {s : Scheduler ω κ}
    (hs : Reachable Scheduler.Constructed HandoutStep s) : SchedulerInv s ∧ HandoutInv s := by
  have hinit : ∀ s : Scheduler ω κ, s.Constructed → SchedulerInv s ∧ HandoutInv s := by
    intro s hconstructed
    refine ⟨schedulerInv_init s hconstructed, ?_⟩
    obtain ⟨config, ledger, dbOpen, env, usedIds, -, -, rfl⟩ := hconstructed
    intro c taskId hfinished
    cases hfinished
  have hpreserves : Preserves (HandoutStep (ω := ω) (κ := κ))
      fun s => SchedulerInv s ∧ HandoutInv s := by
    intro s s' hstep hinv
    exact ⟨schedulerInv_preserved hstep.schedulerStep hinv.1,
      handoutInv_step hstep hinv.1.placed hinv.2⟩
  exact reachable_invariant hinit hpreserves hs

/-! ## Drained queues -/

/-- The task of the id is queued, deferred behind its agent, held by a worker, or about to be
admitted by its call. -/
def OnItsWay (s : Scheduler ω κ) (taskId : String) : Prop :=
  ∃ task ∈ s.tasks, task.taskId = taskId ∧
    (task ∈ s.pending ∨ task ∈ s.agentDeferred task.catalogAgentId ∨
      (∃ w, (s.worker w).holds = some task) ∨ ∃ c, (s.caller c).holds = some task)

/-- The workers have nothing left to do, and no call of `enqueue` is about to give them more. -/
structure Drained (s : Scheduler ω κ) : Prop where
  pending : s.pending = []
  deferred : ∀ a, s.agentDeferred a = []
  workers : ∀ w, (s.worker w).holds = none
  callers : ∀ c, (s.caller c).holds = none

/-- One look of `wait(task_id)`, which looks again until there is a result. -/
def waitPoll (s : Scheduler ω κ) (taskId : String) : Option VerificationTaskResult :=
  s.results taskId

/-- `wait(task_id)` returns, whenever it is called from here on. -/
def WaitReturns (s : Scheduler ω κ) (taskId : String) : Prop :=
  ∃ result, ∀ s', Run SchedulerStep s s' → waitPoll s' taskId = some result

theorem answered_or_onItsWay {s : Scheduler ω κ} {taskId : String} (hplaced : Placed s)
    (h : Live s taskId) : (s.results taskId).isSome = true ∨ OnItsWay s taskId := by
  obtain ⟨task, htask, hid, hresult | hadmitted | ⟨c, hholds⟩⟩ := h
  · exact .inl hresult
  · obtain ⟨place, hp⟩ := hplaced
    have hcovered := hp.covered task hadmitted
    cases hplace : place task.taskId <;> rw [hplace] at hcovered
    · exact hcovered.elim
    · exact hcovered.elim
    · exact .inr ⟨task, htask, hid, .inl hcovered⟩
    · exact .inr ⟨task, htask, hid, .inr (.inl hcovered)⟩
    · exact .inr ⟨task, htask, hid, .inr (.inr (.inl ⟨_, hcovered⟩))⟩
    · rw [← hid]
      exact .inl hcovered
  · exact .inr ⟨task, htask, hid, .inr (.inr (.inr ⟨c, hholds⟩))⟩

theorem not_onItsWay_of_drained {s : Scheduler ω κ} {taskId : String} (h : Drained s) :
    ¬ OnItsWay s taskId := by
  intro hway
  obtain ⟨task, -, -, hpending | hdeferred | ⟨w, hholds⟩ | ⟨c, hholds⟩⟩ := hway
  · rw [h.pending] at hpending
    cases hpending
  · rw [h.deferred] at hdeferred
    cases hdeferred
  · rw [h.workers] at hholds
    cases hholds
  · rw [h.callers] at hholds
    cases hholds

/-- Once a worker has left its loop, the queue is drained but for the calls that are under way. -/
theorem drained_of_exited {s : Scheduler ω κ} (hinv : SchedulerInv s) {w : ω}
    (hexited : s.worker w = .exited) (hcallers : ∀ c, (s.caller c).holds = none) : Drained s := by
  have hall := (hinv.history.exited w hexited).2
  obtain ⟨place, hp⟩ := hinv.placed
  have hdone : ∀ task ∈ s.admitted, place task.taskId = .done :=
    fun task htask => (hp.done _).mp (hall task htask)
  refine ⟨?_, ?_, ?_, hcallers⟩
  · apply List.eq_nil_iff_forall_not_mem.mpr
    intro task htask
    have hplace := hp.pending task htask
    rw [hdone task hplace.1] at hplace
    cases hplace.2
  · intro a
    apply List.eq_nil_iff_forall_not_mem.mpr
    intro task htask
    have hplace := hp.deferred a task htask
    rw [hdone task hplace.1] at hplace
    cases hplace.2.2
  · intro w'
    cases hholds : (s.worker w').holds with
    | none => rfl
    | some task =>
      have hplace := hp.held w' task hholds
      rw [hdone task hplace.1] at hplace
      cases hplace.2

/-! ## The ids that were handed out -/

structure NoDangling (s : Scheduler ω κ) : Prop where
  /-- The task of a returned id has not been taken off the register. -/
  kept : ∀ c taskId, s.caller c = .finished (.returned taskId) →
    ∃ task ∈ s.tasks, task.taskId = taskId
  /-- It is answered or on its way to a worker. -/
  located : ∀ c taskId, s.caller c = .finished (.returned taskId) →
    (s.results taskId).isSome = true ∨ OnItsWay s taskId
  /-- Once the queue is drained it is answered, for good. -/
  answered : Drained s → ∀ c taskId, s.caller c = .finished (.returned taskId) →
    WaitReturns s taskId

/-- No id that a call has returned is left without an answer, in any run in which no failing call
takes back or leaves behind a task that another call has returned. -/
theorem no_dangling_id {s : Scheduler ω κ}
    (hs : Reachable Scheduler.Constructed HandoutStep s) : NoDangling s := by
  obtain ⟨hinv, hhandout⟩ := handoutInv_reachable hs
  have hlocated : ∀ c taskId, s.caller c = .finished (.returned taskId) →
      (s.results taskId).isSome = true ∨ OnItsWay s taskId :=
    fun c taskId hfinished => answered_or_onItsWay hinv.placed (hhandout c taskId hfinished)
  refine ⟨?_, hlocated, ?_⟩
  · intro c taskId hfinished
    obtain ⟨task, htask, hid, -⟩ := hhandout c taskId hfinished
    exact ⟨task, htask, hid⟩
  · intro hdrained c taskId hfinished
    rcases hlocated c taskId hfinished with hresult | hway
    · obtain ⟨result, heq⟩ := Option.isSome_iff_exists.mp hresult
      exact ⟨result, fun s' hrun => run_results hrun hinv heq⟩
    · exact absurd hway (not_onItsWay_of_drained hdrained)

/-! ## Two calls for one agent -/

/-- The id that the call has found and is about to return. -/
def CallerPc.found? : CallerPc → Option String
  | .reusing taskId => some taskId
  | _ => none

/-- A step at which a call neither fails nor returns the id of another one. -/
theorem HandoutStep.ofCaller (c : κ) {s s' : Scheduler ω κ} (h : CallerStep c s s')
    (hfails : (s'.caller c).withdrawn = false) (hfound : (s.caller c).found? = none) :
    HandoutStep s s' := by
  apply HandoutStep.caller c h
  · intro task _ hwithdrawn
    rw [hfails] at hwithdrawn
    cases hwithdrawn
  · intro taskId hreusing
    rw [hreusing] at hfound
    cases hfound

def exampleConfig : VerificationQueueConfig := ⟨16, 1, 20, by decide, by decide, by decide⟩

def exampleTask : VerificationTask := ⟨"cagt_1", "vt-1", .verify, "admin", 0⟩

/-- The second call is given the id while the first is still admitting the task, and the worker
answers both. -/
theorem shared_id_answered : ∃ s : Scheduler Unit Bool,
    s.caller false = .finished (.returned "vt-1") ∧
      s.caller true = .finished (.returned "vt-1") ∧ WaitReturns s "vt-1" := by
  have hheld : ∀ s : Scheduler Unit Bool, s.tasks = [exampleTask] →
      (s.caller false).holds = some exampleTask → ∀ taskId, ¬ Abandoned s taskId := by
    intro s htasks hholds taskId habandoned
    obtain ⟨task, htask, -, -, -, hnone⟩ := habandoned
    rw [htasks, List.mem_singleton] at htask
    rw [htask] at hnone
    exact hnone false hholds
  have hrun : Run HandoutStep (Scheduler.fresh exampleConfig true : Scheduler Unit Bool) _ :=
    Relation.ReflTransGen.refl
      |>.tail (.ofCaller false (.called "cagt_1" "verify" "admin" rfl rfl rfl) rfl rfl)
      |>.tail (.ofCaller false (.unblocked rfl rfl) rfl rfl)
      |>.tail (.ofCaller false (.findsNone rfl rfl) rfl rfl)
      |>.tail (.ofCaller false (.registers "vt-1" 0 rfl List.not_mem_nil) rfl rfl)
      |>.tail (.ofCaller true (.called "cagt_1" "verify" "admin" rfl rfl rfl) rfl rfl)
      |>.tail (.ofCaller true (.unblocked rfl rfl) rfl rfl)
      |>.tail (.ofCaller true (.findsExisting rfl rfl) rfl rfl)
      |>.tail (.caller true (.reuses rfl rfl) (fun _ hholds => by cases hholds)
        (fun taskId _ => hheld _ rfl rfl taskId))
      |>.tail (.ofCaller false (.inserted rfl rfl rfl) rfl rfl)
      |>.tail (.ofCaller false (.locksOpen rfl rfl rfl) rfl rfl)
      |>.tail (.ofCaller false (.passesFence rfl rfl) rfl rfl)
      |>.tail (.ofCaller false (.puts rfl (Nat.le_of_ble_eq_true rfl)) rfl rfl)
      |>.tail (.worker () (.seesOpen rfl rfl))
      |>.tail (.worker () (.dequeues rfl rfl))
      |>.tail (.worker () (.claims rfl))
      |>.tail (.worker () (.runs rfl))
      |>.tail (.worker () (.works rfl (.runningPersisted 0)))
      |>.tail (.worker () (.works rfl (.decidesUnknown (unknownReason none))))
      |>.tail (.worker () (.works rfl .fences))
      |>.tail (.worker () (.works rfl (.unknownPersisted 0 0 0)))
      |>.tail (.worker () (.records rfl))
  have hcontract := no_dangling_id ⟨_, fresh_constructed exampleConfig true, hrun⟩
  refine ⟨_, rfl, rfl, hcontract.answered ⟨rfl, fun _ => rfl, fun _ => rfl, ?_⟩ true "vt-1" rfl⟩
  intro c
  cases c <;> rfl

/-- The first call fails to store the task, and takes back what the second one has returned. -/
theorem shared_id_taken_back :
    ¬ ∀ s : Scheduler Unit Bool, Reachable Scheduler.Constructed SchedulerStep s →
      NoDangling s := by
  intro hall
  have hrun : Run SchedulerStep (Scheduler.fresh exampleConfig true : Scheduler Unit Bool) _ :=
    Relation.ReflTransGen.refl
      |>.tail (.caller false (.called "cagt_1" "verify" "admin" rfl rfl rfl))
      |>.tail (.caller false (.unblocked rfl rfl))
      |>.tail (.caller false (.findsNone rfl rfl))
      |>.tail (.caller false (.registers "vt-1" 0 rfl List.not_mem_nil))
      |>.tail (.caller true (.called "cagt_1" "verify" "admin" rfl rfl rfl))
      |>.tail (.caller true (.unblocked rfl rfl))
      |>.tail (.caller true (.findsExisting rfl rfl))
      |>.tail (.caller true (.reuses rfl rfl))
      |>.tail (.caller false (.insertRaises rfl rfl (.inl rfl)))
      |>.tail (.caller false (.dropsUninserted rfl))
  have hcontract := hall _ ⟨_, fresh_constructed exampleConfig true, hrun⟩
  obtain ⟨task, htask, -⟩ := hcontract.kept true "vt-1" rfl
  exact List.not_mem_nil htask

end KiwiCatalog.Queue
