import KiwiCatalog.Queue.Slots

/-!
# SchedulerInvariant — what holds in every reachable state of the queue

Placement and slots together with the history of runs and results, the enqueue lock and the exit
of the workers.
-/

set_option autoImplicit false
set_option linter.unusedSectionVars false

namespace KiwiCatalog.Queue

open Transition

variable {ω κ : Type} [DecidableEq ω] [DecidableEq κ]

/-- The task has been given to `_run_task_with_timeout` by a worker that has not recorded it. -/
def UnderWay (s : Scheduler ω κ) (task : VerificationTask) : Prop :=
  ∃ w fenced stage, s.worker w = .busy task fenced stage ∧ stage ≠ .starting ∧ stage ≠ .releasing

/-- Inside `with self._enqueue_lock`. -/
def CallerPc.locked : CallerPc → Bool
  | .deletingRefused _ | .droppingRefused _ | .checkingFence _ | .putting _ => true
  | _ => false

/-- Inside the lock, past the check of the shutdown flag. -/
def CallerPc.admitting : CallerPc → Bool
  | .checkingFence _ | .putting _ => true
  | _ => false

structure HistoryInv (s : Scheduler ω κ) : Prop where
  executedNodup : s.executed.Nodup
  executed : ∀ t ∈ s.executed, t ∈ s.admitted ∧
    ((s.results t.taskId).isSome = true ∨ UnderWay s t)
  recordedNodup : s.recorded.Nodup
  recorded : ∀ id, id ∈ s.recorded ↔ (s.results id).isSome = true
  lock : ∀ c, (s.caller c).locked = true → s.enqueueLock = some c
  admitting : ∀ c, (s.caller c).admitting = true → s.shutdown = false
  checking : ∀ w handoff, s.worker w = .checkingDrained handoff → s.shutdown = true
  exited : ∀ w, s.worker w = .exited → s.shutdown = true ∧
    ∀ t ∈ s.admitted, (s.results t.taskId).isSome = true

structure SchedulerInv (s : Scheduler ω κ) : Prop where
  placed : Placed s
  slots : SlotInv s
  history : HistoryInv s

/-! ## The history of runs and results -/

/-- A worker's step records at most the result of the task it holds, and runs at most that task. -/
theorem workerStep_history {w : ω} {s s' : Scheduler ω κ} (hstep : WorkerStep w s s') :
    s'.admitted = s.admitted ∧ s'.caller = s.caller ∧ s'.enqueueLock = s.enqueueLock ∧
      s'.shutdown = s.shutdown ∧ (∀ w', w' ≠ w → s'.worker w' = s.worker w') ∧
      ((s'.results = s.results ∧ s'.recorded = s.recorded ∧
          (s'.executed = s.executed ∨
            ∃ task fenced, s.worker w = .busy task fenced .starting ∧
              s'.worker w = .busy task fenced .persistingRunning ∧
              s'.executed = task :: s.executed)) ∨
        ∃ task fenced result, s.worker w = .busy task fenced (.recording result) ∧
          s'.results = Function.update s.results task.taskId (some result) ∧
          s'.recorded = task.taskId :: s.recorded ∧ s'.executed = s.executed) := by
  have hother : ∀ pc w', w' ≠ w → Function.update s.worker w pc w' = s.worker w' :=
    fun pc w' hw => Function.update_of_ne hw pc s.worker
  cases hstep with
  | claims hpc =>
    rcases claim_cases s w _ with ⟨-, -, -, heq⟩ | ⟨-, heq⟩ <;> rw [heq] <;>
      exact ⟨rfl, rfl, rfl, rfl, hother _, .inl ⟨rfl, rfl, .inl rfl⟩⟩
  | runs hpc =>
    exact ⟨rfl, rfl, rfl, rfl, hother _, .inl ⟨rfl, rfl, .inr ⟨_, _, hpc,
      Function.update_self _ _ _, rfl⟩⟩⟩
  | records hpc => exact ⟨rfl, rfl, rfl, rfl, hother _, .inr ⟨_, _, _, hpc, rfl, rfl, rfl⟩⟩
  | releases hpc =>
    unfold Scheduler.release
    split <;> exact ⟨rfl, rfl, rfl, rfl, hother _, .inl ⟨rfl, rfl, .inl rfl⟩⟩
  | _ => exact ⟨rfl, rfl, rfl, rfl, hother _, .inl ⟨rfl, rfl, .inl rfl⟩⟩

/-- A worker that is under way with a task stays so until it records a result for it. -/
theorem workerStep_underWay {w : ω} {s s' : Scheduler ω κ} (hstep : WorkerStep w s s')
    {t : VerificationTask} (h : UnderWay s t) :
    UnderWay s' t ∨ (s'.results t.taskId).isSome = true := by
  obtain ⟨w', fenced, stage, hw', hstart, hrel⟩ := h
  by_cases hww : w' = w
  · subst hww
    cases hstep with
    | works hpc hstage =>
      rw [hw'] at hpc
      cases hpc
      obtain ⟨-, -, hstart', hrel'⟩ := stageStep_stages hstage
      exact .inl ⟨w', _, _, Function.update_self _ _ _, hstart', hrel'⟩
    | records hpc =>
      rw [hw'] at hpc
      cases hpc
      right
      simp [Scheduler.setWorker, Scheduler.storeResult]
    | releases hpc =>
      rw [hw'] at hpc
      cases hpc
      exact absurd rfl hrel
    | runs hpc =>
      rw [hw'] at hpc
      cases hpc
      exact absurd rfl hstart
    | seesOpen hpc | seesShutdown hpc | exits hpc | goesOn hpc | takesHandoff hpc | dequeues hpc
    | findsEmpty hpc | claims hpc | requeues hpc | carries hpc =>
      rw [hw'] at hpc
      cases hpc
  · left
    obtain ⟨-, -, -, -, hother, -⟩ := workerStep_history hstep
    exact ⟨w', fenced, stage, by rw [hother w' hww, hw'], hstart, hrel⟩

/-- A worker leaves its loop only after it saw the shutdown and every registered task done. -/
theorem workerStep_exited {w : ω} {s s' : Scheduler ω κ} (hstep : WorkerStep w s s')
    (hw : s'.worker w = .exited) :
    (∃ handoff, s.worker w = .checkingDrained handoff) ∧ s.admittedDrained = true := by
  cases hstep with
  | exits hpc hdrained => exact ⟨⟨_, hpc⟩, hdrained⟩
  | claims hpc =>
    rcases claim_cases s w _ with ⟨-, -, -, heq⟩ | ⟨-, heq⟩ <;> rw [heq] at hw <;>
      simp at hw
  | releases hpc =>
    unfold Scheduler.release at hw
    split at hw <;> simp at hw
  | _ => simp [Scheduler.setWorker] at hw

theorem workerStep_checking {w : ω} {s s' : Scheduler ω κ} (hstep : WorkerStep w s s')
    {handoff : Option VerificationTask} (hw : s'.worker w = .checkingDrained handoff) :
    s.shutdown = true := by
  cases hstep with
  | seesShutdown hpc hshut => exact hshut
  | claims hpc =>
    rcases claim_cases s w _ with ⟨-, -, -, heq⟩ | ⟨-, heq⟩ <;> rw [heq] at hw <;>
      simp at hw
  | releases hpc =>
    unfold Scheduler.release at hw
    split at hw <;> simp at hw
  | _ => simp [Scheduler.setWorker] at hw

theorem isSome_update {results : String → Option VerificationTaskResult} {id id' : String}
    {result : VerificationTaskResult} :
    (Function.update results id (some result) id').isSome = true ↔
      id' = id ∨ (results id').isSome = true := by
  by_cases h : id' = id
  · subst h
    simp
  · simp [h]

/-- The task of a worker about to start has not been run before. -/
theorem not_executed_of_starting {s : Scheduler ω κ} {w : ω} {task : VerificationTask}
    {fenced : Bool} (hplaced : Placed s) (h : HistoryInv s)
    (hpc : s.worker w = .busy task fenced .starting) : task ∉ s.executed := by
  intro hmem
  obtain ⟨place, hp⟩ := hplaced
  have hw : (s.worker w).holds = some task := by
    rw [hpc]
    rfl
  rcases (h.executed task hmem).2 with hres | ⟨w', fenced', stage, hw', hstart, hrel⟩
  · exact hp.no_result_of_held hw hres
  · have hheld : (s.worker w').holds = some task := by
      rw [hw', holds_busy hrel]
    have heq : w' = w := hp.held_unique hheld hw
    subst heq
    rw [hpc] at hw'
    cases hw'
    exact hstart rfl

theorem workerStep_historyInv {w : ω} {s s' : Scheduler ω κ} (hstep : WorkerStep w s s')
    (hplaced : Placed s) (h : HistoryInv s) : HistoryInv s' := by
  obtain ⟨hadm, hcaller, hlock, hshut, hother, hcase⟩ := workerStep_history hstep
  have hmono : ∀ id, (s.results id).isSome = true → (s'.results id).isSome = true := by
    intro id hid
    rcases hcase with ⟨hres, -⟩ | ⟨task, fenced, result, -, hres, -⟩ <;> rw [hres]
    · exact hid
    · exact isSome_update.mpr (.inr hid)
  have hkeep : ∀ t ∈ s.executed, t ∈ s.admitted ∧
      ((s'.results t.taskId).isSome = true ∨ UnderWay s' t) := by
    intro t ht
    obtain ⟨htadm, hres | hway⟩ := h.executed t ht
    · exact ⟨htadm, .inl (hmono _ hres)⟩
    · exact ⟨htadm, (workerStep_underWay hstep hway).symm⟩
  refine ⟨?_, ?_, ?_, ?_, ?_, ?_, ?_, ?_⟩
  · rcases hcase with ⟨-, -, hex | ⟨task, fenced, hpc, -, hex⟩⟩ | ⟨-, -, -, -, -, -, hex⟩ <;> rw [hex]
    · exact h.executedNodup
    · exact List.nodup_cons.mpr ⟨not_executed_of_starting hplaced h hpc, h.executedNodup⟩
    · exact h.executedNodup
  · intro t ht
    rw [hadm]
    rcases hcase with ⟨-, -, hex | ⟨task, fenced, hpc, hpc', hex⟩⟩ | ⟨-, -, -, -, -, -, hex⟩
    · rw [hex] at ht
      exact hkeep t ht
    · rw [hex] at ht
      rcases List.mem_cons.mp ht with rfl | ht
      · obtain ⟨place, hp⟩ := hplaced
        have hw : (s.worker w).holds = some t := by
          rw [hpc]
          rfl
        exact ⟨(hp.held w t hw).1, .inr ⟨w, fenced, _, hpc', by simp, by simp⟩⟩
      · exact hkeep t ht
    · rw [hex] at ht
      exact hkeep t ht
  · rcases hcase with ⟨-, hrec, -⟩ | ⟨task, fenced, result, hpc, -, hrec, -⟩ <;> rw [hrec]
    · exact h.recordedNodup
    · refine List.nodup_cons.mpr ⟨?_, h.recordedNodup⟩
      intro hmem
      obtain ⟨place, hp⟩ := hplaced
      have hw : (s.worker w).holds = some task := by
        rw [hpc]
        rfl
      exact hp.no_result_of_held hw ((h.recorded _).mp hmem)
  · intro id
    rcases hcase with ⟨hres, hrec, -⟩ | ⟨task, fenced, result, -, hres, hrec, -⟩ <;> rw [hres, hrec]
    · exact h.recorded id
    · rw [isSome_update, List.mem_cons, h.recorded]
  · rw [hcaller, hlock]
    exact h.lock
  · rw [hcaller, hshut]
    exact h.admitting
  · intro w' handoff hw'
    rw [hshut]
    by_cases hww : w' = w
    · subst hww
      exact workerStep_checking hstep hw'
    · rw [hother w' hww] at hw'
      exact h.checking w' handoff hw'
  · intro w' hw'
    rw [hshut, hadm]
    have hpast : s.worker w' = .exited → s.shutdown = true ∧
        ∀ t ∈ s.admitted, (s'.results t.taskId).isSome = true := by
      intro hex
      obtain ⟨hs, hall⟩ := h.exited w' hex
      exact ⟨hs, fun t ht => hmono _ (hall t ht)⟩
    by_cases hww : w' = w
    · subst hww
      obtain ⟨⟨handoff, hchecking⟩, hdrained⟩ := workerStep_exited hstep hw'
      obtain ⟨place, hp⟩ := hplaced
      refine ⟨h.checking w' handoff hchecking, fun t ht => hmono _ ?_⟩
      exact List.all_eq_true.mp hdrained t (hp.admittedTasks t ht)
    · exact hpast (by rw [← hother w' hww, hw'])

theorem locked_of_admitting {pc : CallerPc} (h : pc.admitting = true) : pc.locked = true := by
  cases pc <;> first | rfl | cases h

/-- The lock and the position of the caller move together. -/
theorem callerStep_lock {c : κ} {s s' : Scheduler ω κ} (hstep : CallerStep c s s') :
    (∀ c', c' ≠ c → s'.caller c' = s.caller c') ∧
      (((s.caller c).locked = true ∨ s.enqueueLock = none) ∧
          s'.enqueueLock = (if (s'.caller c).locked then some c else none) ∨
        (s.caller c).locked = false ∧ (s'.caller c).locked = false ∧
          s'.enqueueLock = s.enqueueLock ∨
        (s.caller c).locked = true ∧ s'.enqueueLock = s.enqueueLock) ∧
      ((s'.caller c).admitting = true → (s.caller c).admitting = true ∨ s.shutdown = false) := by
  have hother : ∀ pc c', c' ≠ c → Function.update s.caller c pc c' = s.caller c' :=
    fun pc c' hc => Function.update_of_ne hc pc s.caller
  have hself : ∀ pc, Function.update s.caller c pc c = pc := fun pc =>
    Function.update_self c pc s.caller
  cases hstep with
  | locksOpen hpc hfree hopen =>
    refine ⟨hother _, .inl ⟨.inr hfree, ?_⟩, fun _ => .inr hopen⟩
    simp [Scheduler.setCaller, CallerPc.locked]
  | locksShut hpc hfree hshut =>
    refine ⟨hother _, .inl ⟨.inr hfree, ?_⟩, ?_⟩ <;>
      simp [Scheduler.setCaller, CallerPc.locked, CallerPc.admitting]
  | deletesRefused hpc =>
    refine ⟨hother _, .inr (.inr ⟨by rw [hpc]; rfl, rfl⟩), ?_⟩
    simp [Scheduler.setCaller, CallerPc.admitting]
  | passesFence hpc hfence =>
    exact ⟨hother _, .inr (.inr ⟨by rw [hpc]; rfl, rfl⟩), fun _ => .inl (by rw [hpc]; rfl)⟩
  | deleteRefusedRaises hpc | dropsRefused hpc | admissionBlocked _ _ hpc
  | admissionBlockedUnmarked _ _ hpc | puts hpc | overflows hpc =>
    refine ⟨hother _, .inl ⟨.inl (by rw [hpc]; rfl), ?_⟩, ?_⟩ <;>
      simp [Scheduler.setCaller, CallerPc.locked, CallerPc.admitting]
  | refusedAtOnce hpc | unknownKind _ hpc | called _ _ _ hpc | blocked hpc | unblocked hpc
  | findsExisting hpc | reuses hpc | reuseMisses hpc | findsNone hpc | registers _ _ hpc
  | inserted hpc | insertSkipped hpc | insertRaises hpc | dropsUninserted hpc
  | deletesOverflow hpc | deleteOverflowRaises hpc | dropsOverflow hpc =>
    refine ⟨hother _, .inr (.inl ⟨by rw [hpc]; rfl, ?_, rfl⟩), ?_⟩ <;>
      simp [Scheduler.setCaller, CallerPc.locked, CallerPc.admitting]

/-- A step of `enqueue` records at most the unknown outcome of its own task, and admits a task
only inside the lock. -/
theorem callerStep_history {c : κ} {s s' : Scheduler ω κ} (hstep : CallerStep c s s') :
    ((s'.results = s.results ∧ s'.recorded = s.recorded) ∨
        ∃ task result, (s.caller c).holds = some task ∧
          s'.results = Function.update s.results task.taskId (some result) ∧
          s'.recorded = task.taskId :: s.recorded) ∧
      (s'.admitted = s.admitted ∨
        (s.caller c).admitting = true ∧ ∃ task, s'.admitted = s.admitted ++ [task]) := by
  cases hstep with
  | admissionBlocked finishedAt now hpc hfence =>
    exact ⟨.inr ⟨_, _, by rw [hpc]; rfl, rfl, rfl⟩, .inl rfl⟩
  | admissionBlockedUnmarked now exc hpc hfence =>
    exact ⟨.inr ⟨_, _, by rw [hpc]; rfl, rfl, rfl⟩, .inl rfl⟩
  | puts hpc hroom => exact ⟨.inl ⟨rfl, rfl⟩, .inr ⟨by rw [hpc]; rfl, _, rfl⟩⟩
  | _ => exact ⟨.inl ⟨rfl, rfl⟩, .inl rfl⟩

theorem callerStep_historyInv {c : κ} {s s' : Scheduler ω κ} (hstep : CallerStep c s s')
    (hplaced : Placed s) (h : HistoryInv s) : HistoryInv s' := by
  obtain ⟨hworker, -, -, -, hexec, hshut, -, -⟩ := callerStep_frame hstep
  obtain ⟨hother, hlock, hadmitting⟩ := callerStep_lock hstep
  obtain ⟨hres, hadm⟩ := callerStep_history hstep
  have hmono : ∀ id, (s.results id).isSome = true → (s'.results id).isSome = true := by
    intro id hid
    rcases hres with ⟨hr, -⟩ | ⟨task, result, -, hr, -⟩ <;> rw [hr]
    · exact hid
    · exact isSome_update.mpr (.inr hid)
  have hadmMono : ∀ t ∈ s.admitted, t ∈ s'.admitted := by
    intro t ht
    rcases hadm with heq | ⟨-, task, heq⟩ <;> rw [heq]
    · exact ht
    · exact List.mem_append_left _ ht
  refine ⟨?_, ?_, ?_, ?_, ?_, ?_, ?_, ?_⟩
  · rw [hexec]
    exact h.executedNodup
  · intro t ht
    rw [hexec] at ht
    obtain ⟨htadm, hor⟩ := h.executed t ht
    refine ⟨hadmMono t htadm, hor.imp (hmono _) ?_⟩
    rintro ⟨w, fenced, stage, hw, hstart, hrel⟩
    exact ⟨w, fenced, stage, by rw [hworker, hw], hstart, hrel⟩
  · rcases hres with ⟨-, hrec⟩ | ⟨task, result, hc, -, hrec⟩ <;> rw [hrec]
    · exact h.recordedNodup
    · refine List.nodup_cons.mpr ⟨?_, h.recordedNodup⟩
      intro hmem
      obtain ⟨place, hp⟩ := hplaced
      have hdone := (hp.done _).mp ((h.recorded _).mp hmem)
      rw [hp.candidate c task hc] at hdone
      cases hdone
  · intro id
    rcases hres with ⟨hr, hrec⟩ | ⟨task, result, -, hr, hrec⟩ <;> rw [hr, hrec]
    · exact h.recorded id
    · rw [isSome_update, List.mem_cons, h.recorded]
  · intro c' hc'
    by_cases hcc : c' = c
    · subst hcc
      rcases hlock with ⟨-, hl⟩ | ⟨-, hfalse, -⟩ | ⟨hlocked, hl⟩
      · rw [hl, if_pos hc']
      · rw [hfalse] at hc'
        cases hc'
      · rw [hl]
        exact h.lock c' hlocked
    · rw [hother c' hcc] at hc'
      have hheld := h.lock c' hc'
      rcases hlock with ⟨hlocked | hfree, hl⟩ | ⟨-, -, hl⟩ | ⟨-, hl⟩
      · -- two callers would hold the lock
        rw [h.lock c hlocked] at hheld
        exact absurd (Option.some.inj hheld).symm hcc
      · rw [hfree] at hheld
        cases hheld
      · rw [hl, hheld]
      · rw [hl, hheld]
  · intro c' hc'
    rw [hshut]
    by_cases hcc : c' = c
    · subst hcc
      rcases hadmitting hc' with hold | hopen
      · exact h.admitting c' hold
      · exact hopen
    · rw [hother c' hcc] at hc'
      exact h.admitting c' hc'
  · intro w handoff hw
    rw [hworker] at hw
    rw [hshut]
    exact h.checking w handoff hw
  · intro w hw
    rw [hworker] at hw
    obtain ⟨hs, hall⟩ := h.exited w hw
    rw [hshut]
    refine ⟨hs, ?_⟩
    rcases hadm with heq | ⟨hopen, -⟩
    · rw [heq]
      exact fun t ht => hmono _ (hall t ht)
    · rw [h.admitting c hopen] at hs
      cases hs

/-! ## Runs -/

theorem historyInv_init (s : Scheduler ω κ) (h : s.Constructed) : HistoryInv s := by
  obtain ⟨config, ledger, dbOpen, env, usedIds, hkey, hused, rfl⟩ := h
  refine ⟨List.nodup_nil, ?_, ?_, ?_, ?_, ?_, ?_, ?_⟩
  · intro t ht
    cases ht
  · exact (Scheduler.openRows_nodup hkey dbOpen).sublist (List.filter_sublist.map _)
  · intro id
    rw [Scheduler.construct_results]
    change id ∈ List.map LedgerRow.taskId (List.filter
      (Scheduler.rowFenced (Scheduler.openRows ledger dbOpen)) (Scheduler.openRows ledger dbOpen)) ↔ _
    simp [and_assoc]
  · intro c hc
    cases hc
  · intro c hc
    cases hc
  · intro w handoff hw
    cases hw
  · intro w hw
    cases hw

theorem schedulerInv_init (s : Scheduler ω κ) (h : s.Constructed) : SchedulerInv s :=
  ⟨constructed_placed s h, slotInv_init s h, historyInv_init s h⟩

theorem schedulerInv_preserved : Preserves (SchedulerStep (ω := ω) (κ := κ)) SchedulerInv := by
  intro s s' hstep h
  refine ⟨placed_preserved hstep h.placed, ?_, ?_⟩
  · cases hstep with
    | worker w hstep => exact workerStep_slotInv hstep h.placed h.slots
    | caller c hstep => exact callerStep_slotInv hstep h.slots
    | shutsDown | closesLedger =>
      exact ⟨h.slots.preclaimed, h.slots.single, h.slots.exclusive, h.slots.running,
        h.slots.deferred, h.slots.executing, h.slots.fenced, h.slots.starting⟩
  · have hh := h.history
    cases hstep with
    | worker w hstep => exact workerStep_historyInv hstep h.placed hh
    | caller c hstep => exact callerStep_historyInv hstep h.placed hh
    | shutsDown hfree =>
      -- whoever is past the check of the flag holds the lock, and the lock is free
      refine ⟨hh.executedNodup, hh.executed, hh.recordedNodup, hh.recorded, hh.lock, ?_,
        fun _ _ _ => rfl, fun w hw => ⟨rfl, (hh.exited w hw).2⟩⟩
      intro c hc
      have hlock := hh.lock c (locked_of_admitting hc)
      rw [hfree] at hlock
      cases hlock
    | closesLedger hshut hjoined hfree =>
      exact ⟨hh.executedNodup, hh.executed, hh.recordedNodup, hh.recorded, hh.lock, hh.admitting,
        hh.checking, hh.exited⟩

theorem schedulerInv_reachable {s : Scheduler ω κ}
    (hs : Reachable Scheduler.Constructed SchedulerStep s) : SchedulerInv s :=
  reachable_invariant schedulerInv_init schedulerInv_preserved hs

end KiwiCatalog.Queue
