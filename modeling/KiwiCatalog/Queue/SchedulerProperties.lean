import KiwiCatalog.Queue.SchedulerInvariant

/-!
# SchedulerProperties — serial execution, one place, one result, a clean drain

The contract of the queue over any number of workers and callers, read off its invariant.
-/

set_option autoImplicit false
set_option linter.unusedSectionVars false

namespace KiwiCatalog.Queue

open Transition

variable {ω κ : Type} [DecidableEq ω] [DecidableEq κ]

/-- The agent of the task a worker has claimed and not recorded, fenced or not. -/
def WorkerPc.working : WorkerPc → Option String
  | .busy _ _ .releasing => none
  | .busy task _ _ => some task.catalogAgentId
  | _ => none

/-! ## The fence -/

theorem fenceAgent_ne_none {uncertainAgents : String → Option String} {task : VerificationTask}
    {a : String} (h : uncertainAgents a ≠ none) :
    Scheduler.fenceAgent uncertainAgents task a ≠ none := by
  by_cases ha : a = task.catalogAgentId
  · subst ha
    simp [Scheduler.fenceAgent]
  · rwa [Scheduler.fenceAgent, Function.update_of_ne ha]

/-- An agent never leaves `_uncertain_agents`. -/
theorem schedulerStep_uncertain {s s' : Scheduler ω κ} (hstep : SchedulerStep s s') {a : String}
    (h : s.uncertainAgents a ≠ none) : s'.uncertainAgents a ≠ none := by
  cases hstep with
  | caller c hstep =>
    obtain ⟨-, -, -, -, -, -, -, heq | ⟨task, -, heq⟩⟩ := callerStep_frame hstep <;> rw [heq]
    · exact h
    · exact fenceAgent_ne_none h
  | shutsDown | closesLedger => exact h
  | worker w hstep =>
    cases hstep with
    | works hpc hstage =>
      obtain ⟨heq | ⟨-, heq⟩, -⟩ := stageStep_fences hstage
      · exact fun hnone => h ((congrFun heq a).symm.trans hnone)
      · exact fun hnone => fenceAgent_ne_none h ((congrFun heq a).symm.trans hnone)
    | claims hpc =>
      rcases claim_cases s w _ with ⟨-, -, -, heq⟩ | ⟨-, heq⟩ <;> rw [heq] <;> exact h
    | releases hpc =>
      unfold Scheduler.release
      split <;> exact h
    | _ => exact h

/-- No task of a fenced agent is run. -/
theorem schedulerStep_executed {s s' : Scheduler ω κ} (hstep : SchedulerStep s s')
    (hi : SchedulerInv s) {t : VerificationTask} (ht : t ∈ s'.executed)
    (hunc : s.uncertainAgents t.catalogAgentId ≠ none) : t ∈ s.executed := by
  cases hstep with
  | caller c hstep =>
    obtain ⟨-, -, -, -, hex, -⟩ := callerStep_frame hstep
    rwa [hex] at ht
  | shutsDown | closesLedger => exact ht
  | worker w hstep =>
    obtain ⟨-, -, -, -, -, hcase⟩ := workerStep_history hstep
    rcases hcase with ⟨-, -, hex | ⟨task, fenced, hpc, -, hex⟩⟩ | ⟨-, -, -, -, -, -, hex⟩
    · rwa [hex] at ht
    · rw [hex] at ht
      rcases List.mem_cons.mp ht with rfl | ht
      · cases fenced with
        | true => exact (hi.slots.fenced w t _ hpc).1.elim
        | false => exact absurd (hi.slots.starting w t hpc) hunc
      · exact ht
    · rwa [hex] at ht

theorem run_executed {s s' : Scheduler ω κ} (hrun : Run SchedulerStep s s')
    (hi : SchedulerInv s) {t : VerificationTask} (ht : t ∈ s'.executed)
    (hunc : s.uncertainAgents t.catalogAgentId ≠ none) : t ∈ s.executed := by
  induction hrun with
  | refl => exact ht
  | tail hprefix hlast ih =>
    have hfence : Preserves (SchedulerStep (ω := ω) (κ := κ))
        fun u => u.uncertainAgents t.catalogAgentId ≠ none :=
      fun _ _ hstep h => schedulerStep_uncertain hstep h
    apply ih
    exact schedulerStep_executed hlast (run_preserves schedulerInv_preserved hprefix hi) ht
      (run_preserves hfence hprefix hunc)

/-! ## Results -/

/-- A stored result is never replaced. -/
theorem schedulerStep_results {s s' : Scheduler ω κ} (hstep : SchedulerStep s s')
    (hi : SchedulerInv s) {id : String} {r : VerificationTaskResult}
    (h : s.results id = some r) : s'.results id = some r := by
  obtain ⟨place, hp⟩ := hi.placed
  have hdone : place id = .done := (hp.done id).mp (by simp [h])
  cases hstep with
  | caller c hstep =>
    rcases (callerStep_history hstep).1 with ⟨hr, -⟩ | ⟨task, result, hc, hr, -⟩ <;> rw [hr]
    · exact h
    · rw [Function.update_of_ne, h]
      rintro rfl
      rw [hp.candidate c task hc] at hdone
      cases hdone
  | shutsDown | closesLedger => exact h
  | worker w hstep =>
    obtain ⟨-, -, -, -, -, hcase⟩ := workerStep_history hstep
    rcases hcase with ⟨hr, -⟩ | ⟨task, fenced, result, hpc, hr, -⟩ <;> rw [hr]
    · exact h
    · rw [Function.update_of_ne, h]
      rintro rfl
      have hw : (s.worker w).holds = some task := by
        rw [hpc]
        rfl
      rw [(hp.held w task hw).2] at hdone
      cases hdone

theorem run_results {s s' : Scheduler ω κ} (hrun : Run SchedulerStep s s')
    (hi : SchedulerInv s) {id : String} {r : VerificationTaskResult}
    (h : s.results id = some r) : s'.results id = some r := by
  induction hrun with
  | refl => exact h
  | tail hprefix hlast ih =>
    exact schedulerStep_results hlast (run_preserves schedulerInv_preserved hprefix hi) ih

theorem place_unique {place : String → Place ω κ} {s : Scheduler ω κ} (h : PlaceInv place s)
    {t : VerificationTask} (ht : t ∈ s.admitted) : ∃! p : Place ω κ, Covered s t p := by
  refine ⟨place t.taskId, h.covered t ht, ?_⟩
  intro p hcov
  cases p with
  | absent | candidate => exact hcov.elim
  | pending => exact (h.pending t hcov).2.symm
  | deferred => exact (h.deferred _ t hcov).2.2.symm
  | held w => exact (h.held w t hcov).2.symm
  | done => exact ((h.done _).mp hcov).symm

theorem executed_ids_nodup {s : Scheduler ω κ} (hi : SchedulerInv s) :
    (s.executed.map VerificationTask.taskId).Nodup := by
  obtain ⟨place, hp⟩ := hi.placed
  apply hi.history.executedNodup.map_on
  intro t ht t' ht' hid
  exact hp.admitted_inj (hi.history.executed t ht).1 (hi.history.executed t' ht').1 hid

/-! ## The contract -/

/-- What the queue guarantees about the order of its workers. -/
structure SchedulingContract (s : Scheduler ω κ) : Prop where
  /-- At most one worker has claimed a task of an agent for execution and not recorded it. -/
  oneExecution : ∀ a w w', (s.worker w).executes = some a → (s.worker w').executes = some a →
    w = w'
  /-- Without an unknown outcome, at most one worker is between its claim and its hand-over. -/
  oneOwner : ∀ a, s.uncertainAgents a = none → ∀ w w', (s.worker w).owns = some a →
    (s.worker w').owns = some a → w = w'
  /-- A worker that claimed under a fence only records an unknown outcome. -/
  fencedWorker : ∀ w t stage, s.worker w = .busy t true stage → stage.Fenced
  onePlace : ∀ t ∈ s.admitted, ∃! p : Place ω κ, Covered s t p
  pendingNodup : s.pending.Nodup
  deferredNodup : ∀ a, (s.agentDeferred a).Nodup ∧
    ∀ t ∈ s.agentDeferred a, t.catalogAgentId = a
  executedOnce : (s.executed.map VerificationTask.taskId).Nodup
  recordedOnce : s.recorded.Nodup ∧ ∀ id, id ∈ s.recorded ↔ (s.results id).isSome = true
  resultKept : ∀ id r, s.results id = some r → ∀ s', Run SchedulerStep s s' →
    s'.results id = some r
  /-- A deferred task has an owner, or a handed-over task on its way, to pass the slot on. -/
  deferredServed : ∀ a, s.agentDeferred a ≠ [] →
    HasOwner s a ∨ ∃ t, s.agentPreclaimed a = some t ∧ t.catalogAgentId = a ∧ InTransit s t
  drained : ∀ w, s.worker w = .exited →
    s.shutdown = true ∧ ∀ t ∈ s.admitted, (s.results t.taskId).isSome = true
  fence : ∀ a, s.uncertainAgents a ≠ none → ∀ s', Run SchedulerStep s s' →
    ∀ t ∈ s'.executed, t.catalogAgentId = a → t ∈ s.executed

theorem schedulingContract_of_inv {s : Scheduler ω κ} (hi : SchedulerInv s) :
    SchedulingContract s := by
  obtain ⟨place, hp⟩ := hi.placed
  refine ⟨hi.slots.executing, hi.slots.single, fun w t stage hw => (hi.slots.fenced w t stage hw).1,
    fun t ht => place_unique hp ht, hp.pendingNodup,
    fun a => ⟨hp.deferredNodup a, fun t ht => (hp.deferred a t ht).2.1⟩, executed_ids_nodup hi,
    ⟨hi.history.recordedNodup, hi.history.recorded⟩,
    fun id r h s' hrun => run_results hrun hi h, ?_, hi.history.exited, ?_⟩
  · intro a ha
    rcases hi.slots.deferred a ha with howner | hpre
    · exact .inl howner
    · obtain ⟨t, ht⟩ := Option.ne_none_iff_exists'.mp hpre
      exact .inr ⟨t, ht, hi.slots.preclaimed a t ht⟩
  · intro a ha s' hrun t ht hagent
    subst hagent
    exact run_executed hrun hi ht ha

/-- Serial execution, unique placement, single results, served deferrals, a clean drain and the
fence, in every reachable state of a queue with any workers and callers. -/
theorem scheduling_contract {s : Scheduler ω κ}
    (hs : Reachable Scheduler.Constructed SchedulerStep s) : SchedulingContract s :=
  schedulingContract_of_inv (schedulerInv_reachable hs)

/-! ## Two workers on one fenced agent -/

/-- One agent, two tasks of different kinds.  The first ends unknown, which fences the agent, and
before its worker has recorded it a second worker claims the other task. -/
theorem overlap_reachable : ∃ s : Scheduler Bool Bool,
    Reachable Scheduler.Constructed SchedulerStep s ∧
      (s.worker false).working = some "cagt_1" ∧ (s.worker true).working = some "cagt_1" := by
  let config : VerificationQueueConfig := ⟨100, 2, 30, by decide, by decide, by decide⟩
  have hrun : Run SchedulerStep (Scheduler.fresh config true : Scheduler Bool Bool) _ :=
    Relation.ReflTransGen.refl
      |>.tail (.caller false (.called "cagt_1" "verify" "admin" rfl rfl rfl))
      |>.tail (.caller false (.unblocked rfl rfl))
      |>.tail (.caller false (.findsNone rfl rfl))
      |>.tail (.caller false (.registers "vt-1" 0 rfl List.not_mem_nil))
      |>.tail (.caller false (.inserted rfl rfl rfl))
      |>.tail (.caller false (.locksOpen rfl rfl rfl))
      |>.tail (.caller false (.passesFence rfl rfl))
      |>.tail (.caller false (.puts rfl (Nat.le_of_ble_eq_true rfl)))
      |>.tail (.caller true (.called "cagt_1" "refresh" "admin" rfl rfl rfl))
      |>.tail (.caller true (.unblocked rfl rfl))
      |>.tail (.caller true (.findsNone rfl rfl))
      |>.tail (.caller true (.registers "vt-2" 0 rfl (by decide)))
      |>.tail (.caller true (.inserted rfl rfl rfl))
      |>.tail (.caller true (.locksOpen rfl rfl rfl))
      |>.tail (.caller true (.passesFence rfl rfl))
      |>.tail (.caller true (.puts rfl (Nat.le_of_ble_eq_true rfl)))
      |>.tail (.worker false (.seesOpen rfl rfl))
      |>.tail (.worker false (.dequeues rfl rfl))
      |>.tail (.worker false (.claims rfl))
      |>.tail (.worker false (.runs rfl))
      |>.tail (.worker false (.works rfl (.runningPersisted 0)))
      |>.tail (.worker false (.works rfl (.decidesUnknown (unknownReason none))))
      |>.tail (.worker false (.works rfl .fences))
      |>.tail (.worker true (.seesOpen rfl rfl))
      |>.tail (.worker true (.dequeues rfl rfl))
      |>.tail (.worker true (.claims rfl))
  exact ⟨_, ⟨_, fresh_constructed config true, hrun⟩, rfl, rfl⟩

/-- Serialisation by agent does not extend to workers that claim under a fence. -/
theorem working_not_serial :
    ¬ ∀ s : Scheduler Bool Bool, Reachable Scheduler.Constructed SchedulerStep s →
      ∀ a w w', (s.worker w).working = some a → (s.worker w').working = some a → w = w' := by
  intro hserial
  obtain ⟨s, hs, hfalse, htrue⟩ := overlap_reachable
  cases hserial s hs "cagt_1" false true hfalse htrue

theorem scheduling_contract_overlap : ∃ s : Scheduler Bool Bool,
    (s.worker false).working = some "cagt_1" ∧ (s.worker true).working = some "cagt_1" ∧
      SchedulingContract s := by
  obtain ⟨s, hs, hfalse, htrue⟩ := overlap_reachable
  exact ⟨s, hfalse, htrue, scheduling_contract hs⟩

end KiwiCatalog.Queue
