import KiwiCatalog.Queue.SchedulerProperties

/-!
# LedgerInvariant — what the durable rows say about the queue in memory

Every ledger write of the queue is aimed at one task, which its author holds.  So a row changes
only through the task's own worker or caller, and clean-up drops terminal rows only.
-/

set_option autoImplicit false
set_option linter.unusedSectionVars false

namespace KiwiCatalog.Queue

open Transition

variable {ω κ : Type} [DecidableEq ω] [DecidableEq κ]

/-! ## One task's statements -/

/-- A write aimed at `id`: other rows stay, unless they are terminal and get cleaned up. -/
structure Touches (id : String) (l l' : Ledger) : Prop where
  old : ∀ row ∈ l', row.taskId ≠ id → row ∈ l
  kept : ∀ row ∈ l, row.taskId ≠ id → row.unresolved = true → row ∈ l'
  keys : Table.KeyUnique LedgerRow.taskId l → Table.KeyUnique LedgerRow.taskId l'

/-- No row of `id` is opened: an unresolved row was unresolved before. -/
def NotOpened (id : String) (l l' : Ledger) : Prop :=
  ∀ row' ∈ l', row'.taskId = id → row'.unresolved = true →
    ∃ row ∈ l, row.taskId = id ∧ row.unresolved = true

theorem touches_refl (id : String) (l : Ledger) : Touches id l l :=
  ⟨fun _ h _ => h, fun _ h _ _ => h, fun h => h⟩

theorem Touches.trans {id : String} {l l' l'' : Ledger} (h : Touches id l l')
    (h' : Touches id l' l'') : Touches id l l'' :=
  ⟨fun row hrow hid => h.old row (h'.old row hrow hid) hid,
    fun row hrow hid hopen => h'.kept row (h.kept row hrow hid hopen) hid hopen,
    fun hkeys => h'.keys (h.keys hkeys)⟩

theorem notOpened_refl (id : String) (l : Ledger) : NotOpened id l l :=
  fun row hrow hid hopen => ⟨row, hrow, hid, hopen⟩

theorem NotOpened.trans {id : String} {l l' l'' : Ledger} (h : NotOpened id l l')
    (h' : NotOpened id l' l'') : NotOpened id l l'' := by
  intro row hrow hid hopen
  obtain ⟨row', hrow', hid', hopen'⟩ := h' row hrow hid hopen
  exact h row' hrow' hid' hopen'

theorem hasTaskId_iff {id : String} {row : LedgerRow} :
    hasTaskId id row = true ↔ row.taskId = id := by
  simp [hasTaskId]

theorem touches_update {id : String} {f : LedgerRow → LedgerRow}
    (hf : ∀ row, (f row).taskId = row.taskId) (l : Ledger) :
    Touches id l (Table.updateWhere (hasTaskId id) f l) := by
  refine ⟨?_, ?_, Table.keyUnique_updateWhere hf⟩
  · intro row hrow hid
    obtain ⟨row₀, hrow₀, heq⟩ := Table.mem_updateWhere.mp hrow
    by_cases h : hasTaskId id row₀ = true
    · rw [if_pos h] at heq
      have hsame : row.taskId = row₀.taskId := by rw [← heq, hf]
      exact absurd (hsame.trans (hasTaskId_iff.mp h)) hid
    · rw [if_neg h] at heq
      exact heq ▸ hrow₀
  · intro row hrow hid _
    apply Table.mem_updateWhere_of_not hrow
    simpa [hasTaskId] using hid

theorem notOpened_update {id : String} {f : LedgerRow → LedgerRow}
    (hopen : ∀ row, (f row).unresolved = true → row.unresolved = true) (l : Ledger) :
    NotOpened id l (Table.updateWhere (hasTaskId id) f l) := by
  intro row hrow hid hunres
  obtain ⟨row₀, hrow₀, heq⟩ := Table.mem_updateWhere.mp hrow
  by_cases h : hasTaskId id row₀ = true
  · rw [if_pos h] at heq
    subst heq
    exact ⟨row₀, hrow₀, hasTaskId_iff.mp h, hopen row₀ hunres⟩
  · rw [if_neg h] at heq
    subst heq
    exact ⟨row₀, hrow₀, hid, hunres⟩

theorem touches_delete {id : String} {p : LedgerRow → Bool}
    (hp : ∀ row, p row = true → row.taskId = id ∨ row.unresolved = false) (l : Ledger) :
    Touches id l (Table.deleteWhere p l) := by
  refine ⟨fun row hrow _ => (Table.mem_deleteWhere.mp hrow).1, ?_, Table.keyUnique_deleteWhere⟩
  intro row hrow hid hopen
  refine Table.mem_deleteWhere.mpr ⟨hrow, ?_⟩
  by_contra hne
  rcases hp row (by simpa using hne) with h | h
  · exact hid h
  · rw [h] at hopen
    cases hopen

theorem notOpened_delete {id : String} (p : LedgerRow → Bool) (l : Ledger) :
    NotOpened id l (Table.deleteWhere p l) :=
  fun row hrow hid hopen => ⟨row, (Table.mem_deleteWhere.mp hrow).1, hid, hopen⟩

/-! ## The ledger statements -/

theorem unresolved_iff {row : LedgerRow} :
    row.unresolved = true ↔ row.status = .pending ∨ row.status = .running := by
  simp [LedgerRow.unresolved]

theorem markUnknown_unresolved (error : String) (finishedAt : Nat) (row : LedgerRow)
    (h : (row.markUnknown error finishedAt).unresolved = true) : row.unresolved = true := by
  by_contra hne
  rw [LedgerRow.markUnknown, if_neg hne] at h
  exact hne h

theorem finish_unresolved (status : RowStatus) (vs error : String) (json : ResultJson)
    (finishedAt : Nat) (row : LedgerRow)
    (h : (row.finish status vs error json finishedAt).unresolved = true) :
    row.unresolved = true := by
  by_cases hrun : row.status = .running ∧ row.verificationStatus ≠ unknownOutcomeMarker
  · exact unresolved_iff.mpr (.inr hrun.1)
  · rwa [LedgerRow.finish, if_neg hrun] at h

/-- Clean-up selects terminal rows. -/
theorem expired_terminal {cutoff : Nat} {row : LedgerRow} (h : row.expired cutoff = true) :
    row.unresolved = false := by
  cases hs : row.status <;> simp_all [LedgerRow.expired, LedgerRow.unresolved]

theorem touches_finishTask (l : Ledger) (id : String) (status : RowStatus) (vs error : String)
    (json : ResultJson) (finishedAt : Nat) :
    Touches id l (finishTask l id status vs error json finishedAt) ∧
      NotOpened id l (finishTask l id status vs error json finishedAt) :=
  ⟨touches_update (finish_taskId status vs error json finishedAt) l,
    notOpened_update (finish_unresolved status vs error json finishedAt) l⟩

theorem touches_cleanup (l : Ledger) (id : String) (cutoff : Nat) :
    Touches id l (cleanupTerminalTasks l cutoff) ∧ NotOpened id l (cleanupTerminalTasks l cutoff) :=
  ⟨touches_delete (fun _ h => .inr (expired_terminal h)) l, notOpened_delete _ l⟩

theorem finishWrite_touches {id : String} {result : VerificationTaskResult} {now count count' : Nat}
    {l l' : Ledger} (h : FinishWrite id result now l count l' count') :
    Touches id l l' ∧ NotOpened id l l' := by
  cases h with
  | plain hstatus => exact touches_finishTask l id _ _ _ _ _
  | cleaning hstatus hperiod =>
    obtain ⟨ht, hn⟩ := touches_finishTask l id _ result.verificationStatus result.error
      (serializeVerificationResult result.result) now
    obtain ⟨ht', hn'⟩ := touches_cleanup _ id (now - cleanupAgeSeconds)
    exact ⟨ht.trans ht', hn.trans hn'⟩

/-- A busy worker writes to its own task's row, and opens it only when it marks it running. -/
theorem stageStep_touches {task : VerificationTask} {sh sh' : Shared} {stage stage' : Stage}
    (h : StageStep task sh stage sh' stage') :
    Touches task.taskId sh.ledger sh'.ledger ∧
      (stage ≠ .persistingRunning → NotOpened task.taskId sh.ledger sh'.ledger) := by
  have hfinish : ∀ {result : VerificationTaskResult} {sh' : Shared},
      (sh' = sh ∨ ∃ ledger count now,
        FinishWrite task.taskId result now sh.ledger sh.finishCount ledger count ∧
          sh' = { sh with ledger := ledger, finishCount := count }) →
      Touches task.taskId sh.ledger sh'.ledger ∧ NotOpened task.taskId sh.ledger sh'.ledger := by
    intro result sh' hwrite
    rcases hwrite with rfl | ⟨ledger, count, now, hw, rfl⟩
    · exact ⟨touches_refl _ _, notOpened_refl _ _⟩
    · exact finishWrite_touches hw
  cases h with
  | runningPersisted startedAt | runningRaises startedAt exc =>
    exact ⟨touches_update (markRunning_taskId startedAt) _, fun h => absurd rfl h⟩
  | unknownPersisted startedAt finishedAt now =>
    exact ⟨touches_update (markUnknown_taskId _ finishedAt) _,
      fun _ => notOpened_update (markUnknown_unresolved _ finishedAt) _⟩
  | finishPersisted now hwrite =>
    exact (finishWrite_touches hwrite).imp id fun h _ => h
  | finishRaisesCompleted exc hcompleted hwrite | finishRaises exc hcompleted hwrite
  | workerErrorWritten hwrite => exact (hfinish hwrite).imp id fun h _ => h
  | pendingDeleted =>
    refine ⟨touches_delete ?_ _, fun _ => notOpened_delete _ _⟩
    intro row hrow
    simp only [Bool.and_eq_true] at hrow
    exact .inl (hasTaskId_iff.mp hrow.1)
  | _ => exact ⟨touches_refl _ _, fun _ => notOpened_refl _ _⟩

/-! ## Steps of the queue -/

/-- The write of a caller to the row of the task it holds. -/
structure CallerWrite (s s' : Scheduler ω κ) (c : κ) (task : VerificationTask) : Prop where
  holds : (s.caller c).holds = some task
  touches : Touches task.taskId s.ledger s'.ledger
  /-- Its own row is pending, unless it has just closed the task with an unknown outcome. -/
  own : ∀ row ∈ s'.ledger, row.taskId = task.taskId →
    row ∈ s.ledger ∨ row.status = .pending ∨ (s'.results task.taskId).isSome = true

theorem callerStep_ledger {c : κ} {s s' : Scheduler ω κ} (hstep : CallerStep c s s') :
    s'.ledger = s.ledger ∨ ∃ task, CallerWrite s s' c task := by
  have hinsert : ∀ {task : VerificationTask} {ledger : Ledger},
      insertPendingTask s.ledger task = some ledger →
        Touches task.taskId s.ledger ledger ∧
          ∀ row ∈ ledger, row.taskId = task.taskId → row ∈ s.ledger ∨ row.status = .pending := by
    intro task ledger h
    obtain ⟨hfree, rfl⟩ := Table.insert?_eq_some h
    refine ⟨⟨?_, fun row hrow _ _ => List.mem_append_left _ hrow,
      fun hkeys => Table.keyUnique_insert? hkeys h⟩, ?_⟩
    · intro row hrow hid
      rcases List.mem_append.mp hrow with hrow | hrow
      · exact hrow
      · rw [List.mem_singleton] at hrow
        subst hrow
        exact absurd rfl hid
    · intro row hrow _
      rcases List.mem_append.mp hrow with hrow | hrow
      · exact .inl hrow
      · rw [List.mem_singleton] at hrow
        subst hrow
        exact .inr rfl
  have hdelete : ∀ (task : VerificationTask) (l : Ledger),
      (l = s.ledger ∨ l = deleteTask s.ledger task.taskId) →
        Touches task.taskId s.ledger l ∧ ∀ row ∈ l, row ∈ s.ledger := by
    intro task l hl
    rcases hl with rfl | rfl
    · exact ⟨touches_refl _ _, fun row hrow => hrow⟩
    · refine ⟨touches_delete (fun row h => .inl (hasTaskId_iff.mp h)) _, ?_⟩
      exact fun row hrow => (Table.mem_deleteWhere.mp hrow).1
  have hwrite : ∀ f : Ledger → Ledger, s.write f = s.ledger ∨ s.write f = f s.ledger := by
    intro f
    cases hdb : s.dbOpen <;> simp [Scheduler.write, hdb]
  cases hstep with
  | inserted hpc hdb hins =>
    obtain ⟨ht, hown⟩ := hinsert hins
    refine .inr ⟨_, by rw [hpc]; rfl, ht, fun row hrow hid => ?_⟩
    exact (hown row hrow hid).imp id .inl
  | insertRaises hpc hdb hw =>
    rcases hw with rfl | hins
    · exact .inl rfl
    · obtain ⟨ht, hown⟩ := hinsert hins
      refine .inr ⟨_, by rw [hpc]; rfl, ht, fun row hrow hid => ?_⟩
      exact (hown row hrow hid).imp id .inl
  | deletesRefused hpc | deletesOverflow hpc =>
    obtain ⟨ht, hold⟩ := hdelete _ _ (hwrite fun l => deleteTask l _)
    exact .inr ⟨_, by rw [hpc]; rfl, ht, fun row hrow _ => .inl (hold row hrow)⟩
  | deleteRefusedRaises hpc hdb hw | deleteOverflowRaises hpc hdb hw =>
    obtain ⟨ht, hold⟩ := hdelete _ _ hw
    exact .inr ⟨_, by rw [hpc]; rfl, ht, fun row hrow _ => .inl (hold row hrow)⟩
  | @admissionBlocked task finishedAt now hpc hfence =>
    refine .inr ⟨_, by rw [hpc]; rfl, ?_, fun row hrow hid => .inr (.inr ?_)⟩
    · rcases hwrite fun l => markTaskUnknown l task.taskId admissionBlockedReason finishedAt
        with h | h
      · exact h ▸ touches_refl _ _
      · exact h ▸ touches_update (markUnknown_taskId _ finishedAt) _
    · simp [Scheduler.storeResult, Scheduler.setCaller]
  | _ => exact .inl rfl

/-! ## Rows of tasks that have not been started -/

/-- The task a worker holds and has not yet marked running. -/
def WorkerPc.unstarted : WorkerPc → Option VerificationTask
  | .loopTop handoff | .checkingDrained handoff | .fetching handoff => handoff
  | .claiming task | .requeueing task => some task
  | .busy task _ .starting | .busy task _ .persistingRunning => some task
  | .busy _ _ _ | .exited => none

/-- A task with this id is being admitted, waits, or is about to be marked running. -/
def Unstarted (s : Scheduler ω κ) (id : String) : Prop :=
  (∃ t ∈ s.pending, t.taskId = id) ∨ (∃ a, ∃ t ∈ s.agentDeferred a, t.taskId = id) ∨
    (∃ w t, (s.worker w).unstarted = some t ∧ t.taskId = id) ∨
    ∃ c t, (s.caller c).holds = some t ∧ t.taskId = id

theorem holds_of_unstarted {pc : WorkerPc} {t : VerificationTask} (h : pc.unstarted = some t) :
    pc.holds = some t := by
  cases pc with
  | busy task fenced stage =>
    cases stage <;> first | exact h | cases h
  | _ => exact h

/-- The place of an unstarted task. -/
theorem place_of_unstarted {place : String → Place ω κ} {s : Scheduler ω κ}
    (h : PlaceInv place s) {id : String} (hu : Unstarted s id) :
    place id = .pending ∨ place id = .deferred ∨
      (∃ w t, place id = .held w ∧ (s.worker w).unstarted = some t ∧ t.taskId = id) ∨
      ∃ c, place id = .candidate c := by
  rcases hu with ⟨t, ht, rfl⟩ | ⟨a, t, ht, rfl⟩ | ⟨w, t, ht, rfl⟩ | ⟨c, t, ht, rfl⟩
  · exact .inl (h.pending t ht).2
  · exact .inr (.inl (h.deferred a t ht).2.2)
  · exact .inr (.inr (.inl ⟨w, t, (h.held w t (holds_of_unstarted ht)).2, ht, rfl⟩))
  · exact .inr (.inr (.inr ⟨c, h.candidate c t ht⟩))

/-- A finished task is not unstarted. -/
theorem not_unstarted_of_result {s : Scheduler ω κ} (hp : Placed s) {id : String}
    (hres : (s.results id).isSome = true) : ¬ Unstarted s id := by
  obtain ⟨place, h⟩ := hp
  intro hu
  have hdone := (h.done id).mp hres
  rcases place_of_unstarted h hu with hp | hp | ⟨w, t, hp, -, -⟩ | ⟨c, hp⟩ <;> rw [hdone] at hp <;>
    cases hp

/-- A task that its worker has started is not unstarted. -/
theorem not_unstarted_of_busy {s : Scheduler ω κ} (hp : Placed s) {w : ω}
    {task : VerificationTask} {fenced : Bool} {stage : Stage}
    (hpc : s.worker w = .busy task fenced stage) (hstart : stage ≠ .starting)
    (hrun : stage ≠ .persistingRunning) (hrel : stage ≠ .releasing) :
    ¬ Unstarted s task.taskId := by
  obtain ⟨place, h⟩ := hp
  intro hu
  have hw : (s.worker w).holds = some task := by
    rw [hpc, holds_busy hrel]
  have hheld := (h.held w task hw).2
  rcases place_of_unstarted h hu with hp | hp | ⟨w', t, hp, ht, -⟩ | ⟨c, hp⟩
  · rw [hheld] at hp
    cases hp
  · rw [hheld] at hp
    cases hp
  · rw [hheld] at hp
    cases hp
    rw [hpc] at ht
    cases stage <;> first | exact hstart rfl | exact hrun rfl | cases ht
  · rw [hheld] at hp
    cases hp

theorem unstarted_pending {s : Scheduler ω κ} {t : VerificationTask} (h : t ∈ s.pending) :
    Unstarted s t.taskId := .inl ⟨t, h, rfl⟩

theorem unstarted_deferred {s : Scheduler ω κ} {a : String} {t : VerificationTask}
    (h : t ∈ s.agentDeferred a) : Unstarted s t.taskId := .inr (.inl ⟨a, t, h, rfl⟩)

theorem unstarted_worker {s : Scheduler ω κ} {w : ω} {t : VerificationTask}
    (h : (s.worker w).unstarted = some t) : Unstarted s t.taskId :=
  .inr (.inr (.inl ⟨w, t, h, rfl⟩))

theorem unstarted_caller {s : Scheduler ω κ} {c : κ} {t : VerificationTask}
    (h : (s.caller c).holds = some t) : Unstarted s t.taskId :=
  .inr (.inr (.inr ⟨c, t, h, rfl⟩))

/-- One worker moves; what it and the lists hold afterwards was unstarted before. -/
theorem unstarted_move {s s' : Scheduler ω κ} {id : String} (hu : Unstarted s' id) (w : ω)
    {pc : WorkerPc} (hworker : s'.worker = Function.update s.worker w pc)
    (hcaller : s'.caller = s.caller) (hpending : ∀ t ∈ s'.pending, Unstarted s t.taskId)
    (hdeferred : ∀ a, ∀ t ∈ s'.agentDeferred a, Unstarted s t.taskId)
    (hpc : ∀ t, pc.unstarted = some t → Unstarted s t.taskId) : Unstarted s id := by
  rcases hu with ⟨t, ht, rfl⟩ | ⟨a, t, ht, rfl⟩ | ⟨w', t, ht, rfl⟩ | ⟨c, t, ht, rfl⟩
  · exact hpending t ht
  · exact hdeferred a t ht
  · rw [hworker] at ht
    by_cases hw : w' = w
    · subst hw
      rw [Function.update_self] at ht
      exact hpc t ht
    · rw [Function.update_of_ne hw] at ht
      exact unstarted_worker ht
  · rw [hcaller] at ht
    exact unstarted_caller ht

theorem workerStep_unstarted {w : ω} {s s' : Scheduler ω κ} (hstep : WorkerStep w s s')
    {id : String} (hu : Unstarted s' id) : Unstarted s id := by
  have hp : ∀ t ∈ s.pending, Unstarted s t.taskId := fun t ht => unstarted_pending ht
  have hd : ∀ a, ∀ t ∈ s.agentDeferred a, Unstarted s t.taskId :=
    fun a t ht => unstarted_deferred ht
  have hself : ∀ t, (s.worker w).unstarted = some t → Unstarted s t.taskId :=
    fun t ht => unstarted_worker ht
  cases hstep with
  | seesOpen hpc hopen | seesShutdown hpc hshut | goesOn hpc hdrained | takesHandoff hpc
  | findsEmpty hpc hpending | carries hpc hfull | runs hpc =>
    rw [hpc] at hself
    exact unstarted_move hu w rfl rfl hp hd hself
  | exits hpc hdrained =>
    refine unstarted_move hu w rfl rfl hp hd fun t ht => ?_
    cases ht
  | @dequeues task rest hpc hpending =>
    refine unstarted_move hu w rfl rfl (fun t ht => hp t ?_) hd fun t ht => hp t ?_
    · rw [hpending]
      exact List.mem_cons_of_mem task ht
    · rw [hpending]
      cases ht
      exact List.mem_cons_self
  | @claims task hpc =>
    rw [hpc] at hself
    rcases claim_cases s w task with ⟨-, -, -, heq⟩ | ⟨-, heq⟩ <;> rw [heq] at hu
    · refine unstarted_move hu w rfl rfl hp (fun a t ht => ?_) fun t ht => ?_
      · dsimp only at ht
        by_cases ha : a = task.catalogAgentId
        · subst ha
          rw [Function.update_self] at ht
          rcases List.mem_append.mp ht with ht | ht
          · exact hd _ t ht
          · rw [List.mem_singleton] at ht
            subst ht
            exact hself t rfl
        · rw [Function.update_of_ne ha] at ht
          exact hd a t ht
      · cases ht
    · refine unstarted_move hu w rfl rfl hp hd fun t ht => ?_
      split at ht <;> cases ht
      exact hself _ rfl
  | works hpc hstage =>
    refine unstarted_move hu w rfl rfl hp hd fun t ht => ?_
    cases hstage <;> cases ht
  | records hpc =>
    refine unstarted_move hu w rfl rfl hp hd fun t ht => ?_
    cases ht
  | @releases task fenced hpc =>
    unfold Scheduler.release at hu
    split at hu
    · refine unstarted_move hu w rfl rfl hp hd fun t ht => ?_
      cases ht
    · rename_i next waiting hdef
      have hmem : ∀ t ∈ next :: waiting, Unstarted s t.taskId :=
        fun t ht => hd task.catalogAgentId t (hdef ▸ ht)
      refine unstarted_move hu w rfl rfl hp (fun a t ht => ?_) fun t ht => ?_
      · dsimp only at ht
        by_cases ha : a = task.catalogAgentId
        · subst ha
          rw [Function.update_self] at ht
          exact hmem t (List.mem_cons_of_mem next ht)
        · rw [Function.update_of_ne ha] at ht
          exact hd a t ht
      · cases ht
        exact hmem _ List.mem_cons_self
  | requeues hpc hroom =>
    rw [hpc] at hself
    refine unstarted_move hu w rfl rfl (fun t ht => ?_) hd fun t ht => ?_
    · rcases List.mem_append.mp ht with ht | ht
      · exact hp t ht
      · rw [List.mem_singleton] at ht
        subst ht
        exact hself t rfl
    · cases ht

/-- The lists and the tasks of the callers after a step of `enqueue`. -/
theorem callerStep_holds {c : κ} {s s' : Scheduler ω κ} (hstep : CallerStep c s s') :
    (∀ t, (s'.caller c).holds = some t →
        (s.caller c).holds = some t ∨ t.taskId ∉ s.usedIds) ∧
      ∀ t ∈ s'.pending, t ∈ s.pending ∨ (s.caller c).holds = some t := by
  have hself : ∀ pc, Function.update s.caller c pc c = pc := fun pc =>
    Function.update_self c pc s.caller
  cases hstep with
  | registers taskId now hpc hfresh =>
    refine ⟨fun t ht => .inr ?_, fun t ht => .inl ht⟩
    change (Function.update s.caller c _ c).holds = some t at ht
    rw [hself] at ht
    cases ht
    exact hfresh
  | puts hpc hroom =>
    refine ⟨fun t ht => ?_, fun t ht => ?_⟩
    · change (Function.update s.caller c _ c).holds = some t at ht
      rw [hself] at ht
      cases ht
    · rcases List.mem_append.mp ht with ht | ht
      · exact .inl ht
      · rw [List.mem_singleton] at ht
        subst ht
        exact .inr (by rw [hpc]; rfl)
  | refusedAtOnce hpc | unknownKind _ hpc | called _ _ _ hpc | blocked hpc | unblocked hpc
  | findsExisting hpc | reuses hpc | reuseMisses hpc | findsNone hpc | inserted hpc
  | insertSkipped hpc | insertRaises hpc | dropsUninserted hpc | locksOpen hpc | locksShut hpc
  | deletesRefused hpc | deleteRefusedRaises hpc | dropsRefused hpc | admissionBlocked _ _ hpc
  | admissionBlockedUnmarked _ _ hpc | passesFence hpc | overflows hpc | deletesOverflow hpc
  | deleteOverflowRaises hpc | dropsOverflow hpc =>
    refine ⟨fun t ht => .inl ?_, fun t ht => .inl ht⟩
    change (Function.update s.caller c _ c).holds = some t at ht
    rw [hself] at ht
    rw [hpc]
    first | exact ht | cases ht

theorem callerStep_other {c : κ} {s s' : Scheduler ω κ} (hstep : CallerStep c s s') {c' : κ}
    (hc : c' ≠ c) : s'.caller c' = s.caller c' :=
  (callerStep_lock hstep).1 c' hc

/-- No step brings a task back among the unstarted, save by registering a new id. -/
theorem schedulerStep_unstarted {s s' : Scheduler ω κ} (hstep : SchedulerStep s s') {id : String}
    (hu : Unstarted s' id) : Unstarted s id ∨ id ∉ s.usedIds := by
  cases hstep with
  | shutsDown | closesLedger => exact .inl hu
  | worker w hstep => exact .inl (workerStep_unstarted hstep hu)
  | caller c hstep =>
    obtain ⟨hworker, -, hdef, -⟩ := callerStep_frame hstep
    obtain ⟨hholds, hpending⟩ := callerStep_holds hstep
    rcases hu with ⟨t, ht, rfl⟩ | ⟨a, t, ht, rfl⟩ | ⟨w, t, ht, rfl⟩ | ⟨c', t, ht, rfl⟩
    · rcases hpending t ht with ht | ht
      · exact .inl (unstarted_pending ht)
      · exact .inl (unstarted_caller ht)
    · rw [hdef] at ht
      exact .inl (unstarted_deferred ht)
    · rw [hworker] at ht
      exact .inl (unstarted_worker ht)
    · by_cases hc : c' = c
      · subst hc
        rcases hholds t ht with ht | hfresh
        · exact .inl (unstarted_caller ht)
        · exact .inr hfresh
      · rw [callerStep_other hstep hc] at ht
        exact .inl (unstarted_caller ht)

/-! ## One write of the ledger -/

theorem schedulerStep_usedIds {s s' : Scheduler ω κ} (hstep : SchedulerStep s s') {id : String}
    (h : id ∈ s.usedIds) : id ∈ s'.usedIds := by
  cases hstep with
  | shutsDown | closesLedger => exact h
  | caller c hstep =>
    cases hstep with
    | registers => exact List.mem_cons_of_mem _ h
    | _ => exact h
  | worker w hstep =>
    cases hstep with
    | claims hpc =>
      rcases claim_cases s w _ with ⟨-, -, -, heq⟩ | ⟨-, heq⟩ <;> rw [heq] <;> exact h
    | releases hpc =>
      unfold Scheduler.release
      split <;> exact h
    | _ => exact h

/-- A step that writes to the ledger, aimed at the open task `id` of its author. -/
structure LedgerWrite (s s' : Scheduler ω κ) (id : String) : Prop where
  unfinished : s.results id = none
  used : id ∈ s.usedIds
  touches : Touches id s.ledger s'.ledger
  own : Unstarted s' id → ∀ row ∈ s'.ledger, row.taskId = id → row ∈ s.ledger ∨ row.status = .pending
  opened : NotOpened id s.ledger s'.ledger ∨ Unstarted s id

theorem workerStep_ledger {w : ω} {s s' : Scheduler ω κ} (hstep : WorkerStep w s s')
    (hp : Placed s) : s'.ledger = s.ledger ∨ ∃ id, LedgerWrite s s' id := by
  cases hstep with
  | claims hpc =>
    rcases claim_cases s w _ with ⟨-, -, -, heq⟩ | ⟨-, heq⟩ <;> rw [heq] <;> exact .inl rfl
  | releases hpc =>
    unfold Scheduler.release
    split <;> exact .inl rfl
  | @works task fenced stage stage' sh hpc hstage =>
    cases hdb : s.dbOpen with
    | false =>
      left
      simp [Scheduler.setWorker, Scheduler.setShared, hdb]
    | true =>
      have hledger : ((s.setShared sh).setWorker w (.busy task fenced stage')).ledger =
          sh.ledger := by
        simp [Scheduler.setWorker, Scheduler.setShared, hdb]
      obtain ⟨hstart, hrel, hstart', hrel'⟩ := stageStep_stages hstage
      obtain ⟨htouch, hopen⟩ := stageStep_touches hstage
      have hrun' : stage' ≠ .persistingRunning := by
        cases hstage <;> simp
      have hplaced' := workerStep_placed (WorkerStep.works hpc hstage) hp
      have hnot := not_unstarted_of_busy hplaced' (Function.update_self w _ _) hstart' hrun' hrel'
      obtain ⟨place, h⟩ := hp
      have hw : (s.worker w).holds = some task := by
        rw [hpc, holds_busy hrel]
      refine .inr ⟨task.taskId, ?_, ?_, ?_, fun hu => absurd hu hnot, ?_⟩
      · simpa using h.no_result_of_held hw
      · apply h.used
        rw [(h.held w task hw).2]
        simp
      · rw [hledger]
        exact htouch
      · rw [hledger]
        by_cases hrun : stage = .persistingRunning
        · subst hrun
          exact .inr (unstarted_worker (by rw [hpc]; rfl))
        · exact .inl (hopen hrun)
  | _ => exact .inl rfl

theorem schedulerStep_ledger {s s' : Scheduler ω κ} (hstep : SchedulerStep s s') (hp : Placed s) :
    s'.ledger = s.ledger ∨ ∃ id, LedgerWrite s s' id := by
  cases hstep with
  | shutsDown | closesLedger => exact .inl rfl
  | worker w hstep => exact workerStep_ledger hstep hp
  | caller c hstep =>
    have hp' := callerStep_placed hstep hp
    rcases callerStep_ledger hstep with heq | ⟨task, hwrite⟩
    · exact .inl heq
    · obtain ⟨place, h⟩ := hp
      have hplace := h.candidate c task hwrite.holds
      refine .inr ⟨task.taskId, ?_, ?_, hwrite.touches, fun hu row hrow hid => ?_,
        .inr (unstarted_caller hwrite.holds)⟩
      · by_contra hne
        rw [(h.done _).mp (Option.isSome_iff_ne_none.mpr hne)] at hplace
        cases hplace
      · apply h.used
        rw [hplace]
        simp
      · rcases hwrite.own row hrow hid with hold | hpend | hres
        · exact .inl hold
        · exact .inr hpend
        · exact absurd hu (not_unstarted_of_result hp' hres)

/-! ## The invariant -/

/-- The primary key holds, every id on the ledger is a used one, and the row of a task that has
not been started is pending. -/
structure LedgerInv (s : Scheduler ω κ) : Prop where
  keys : Table.KeyUnique LedgerRow.taskId s.ledger
  used : ∀ row ∈ s.ledger, row.taskId ∈ s.usedIds
  unstarted : ∀ id, Unstarted s id → ∀ row ∈ s.ledger, row.taskId = id → row.status = .pending

theorem ledgerInv_step {s s' : Scheduler ω κ} (hstep : SchedulerStep s s') (hp : Placed s)
    (h : LedgerInv s) : LedgerInv s' := by
  have hused : ∀ row ∈ s.ledger, row.taskId ∈ s'.usedIds :=
    fun row hrow => schedulerStep_usedIds hstep (h.used row hrow)
  -- a row of the old ledger stays pending for as long as its task is unstarted
  have hold : ∀ id, Unstarted s' id → ∀ row ∈ s.ledger, row.taskId = id → row.status = .pending := by
    intro id hu row hrow hid
    rcases schedulerStep_unstarted hstep hu with hu | hfresh
    · exact h.unstarted id hu row hrow hid
    · exact absurd (hid ▸ h.used row hrow) hfresh
  rcases schedulerStep_ledger hstep hp with heq | ⟨id₀, hw⟩
  · refine ⟨?_, ?_, ?_⟩ <;> rw [heq]
    · exact h.keys
    · exact hused
    · exact hold
  · refine ⟨hw.touches.keys h.keys, fun row hrow => ?_, fun id hu row hrow hid => ?_⟩
    · by_cases hid : row.taskId = id₀
      · rw [hid]
        exact schedulerStep_usedIds hstep hw.used
      · exact hused row (hw.touches.old row hrow hid)
    · by_cases hid₀ : row.taskId = id₀
      · subst hid₀
        subst hid
        rcases hw.own hu row hrow rfl with hrow | hpend
        · exact hold _ hu row hrow rfl
        · exact hpend
      · exact hold id hu row (hw.touches.old row hrow hid₀) hid

/-- An unresolved row of another task than the one written to is kept, and no row is opened but
that of an unstarted task. -/
theorem schedulerStep_unresolved {s s' : Scheduler ω κ} (hstep : SchedulerStep s s')
    (hp : Placed s) {row : LedgerRow} (hrow : row ∈ s'.ledger) (hopen : row.unresolved = true) :
    (∃ row₀ ∈ s.ledger, row₀.taskId = row.taskId ∧ row₀.unresolved = true) ∨
      Unstarted s row.taskId := by
  rcases schedulerStep_ledger hstep hp with heq | ⟨id, hw⟩
  · rw [heq] at hrow
    exact .inl ⟨row, hrow, rfl, hopen⟩
  · by_cases hid : row.taskId = id
    · subst hid
      exact hw.opened.imp (fun h => h row hrow rfl hopen) fun h => h
    · exact .inl ⟨row, hw.touches.old row hrow hid, rfl, hopen⟩

/-- The open row of a finished task is out of every writer's reach. -/
theorem schedulerStep_keepsRow {s s' : Scheduler ω κ} (hstep : SchedulerStep s s')
    (hp : Placed s) {row : LedgerRow} (hrow : row ∈ s.ledger) (hopen : row.unresolved = true)
    (hres : (s.results row.taskId).isSome = true) : row ∈ s'.ledger := by
  rcases schedulerStep_ledger hstep hp with heq | ⟨id, hw⟩
  · rwa [heq]
  · apply hw.touches.kept row hrow ?_ hopen
    rintro rfl
    rw [hw.unfinished] at hres
    cases hres

/-- A run starts only an unstarted task. -/
theorem schedulerStep_runs {s s' : Scheduler ω κ} (hstep : SchedulerStep s s') :
    s'.executed = s.executed ∨
      ∃ t, Unstarted s t.taskId ∧ s'.executed = t :: s.executed := by
  cases hstep with
  | shutsDown | closesLedger => exact .inl rfl
  | caller c hstep =>
    obtain ⟨-, -, -, -, hex, -⟩ := callerStep_frame hstep
    exact .inl hex
  | worker w hstep =>
    obtain ⟨-, -, -, -, -, hcase⟩ := workerStep_history hstep
    rcases hcase with ⟨-, -, hex | ⟨task, fenced, hpc, -, hex⟩⟩ | ⟨-, -, -, -, -, -, hex⟩
    · exact .inl hex
    · exact .inr ⟨task, unstarted_worker (by rw [hpc]; rfl), hex⟩
    · exact .inl hex

end KiwiCatalog.Queue
