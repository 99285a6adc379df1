import KiwiCatalog.Queue.TaskIds

/-!
# Deduplication — one open task for each agent and kind

`enqueue` looks for an open task of its agent and kind in one critical section and registers its
own in another.  A call that comes between the two of another call finds nothing either.
-/

set_option autoImplicit false
set_option linter.unusedSectionVars false

namespace KiwiCatalog.Queue

open Transition

variable {ω κ : Type} [DecidableEq ω] [DecidableEq κ]

/-- The key of de-duplication. -/
def VerificationTask.pair (task : VerificationTask) : String × TaskKind :=
  (task.catalogAgentId, task.kind)

def EnqueueRequest.pair (req : EnqueueRequest) : String × TaskKind :=
  (req.catalogAgentId, req.kind)

/-- The id of a registered task of the pair without a result. -/
def Open (s : Scheduler ω κ) (pair : String × TaskKind) (taskId : String) : Prop :=
  ∃ task ∈ s.tasks, task.pair = pair ∧ task.taskId = taskId ∧ s.results taskId = none

def OneOpen (s : Scheduler ω κ) : Prop :=
  ∀ pair id id', Open s pair id → Open s pair id' → id = id'

/-- The steps of a queue in which a call registers its task only while its pair has no open one,
and no failing call takes back what another call has returned. -/
inductive DedupStep : Scheduler ω κ → Scheduler ω κ → Prop
  | worker {s s' : Scheduler ω κ} (w : ω) (h : WorkerStep w s s') : DedupStep s s'
  | caller {s s' : Scheduler ω κ} (c : κ) (h : CallerStep c s s')
      (hregisters : ∀ req, s.caller c = .registering req → s.existingId req = none)
      (hfails : ∀ task, (s.caller c).holds = some task → (s'.caller c).withdrawn = true →
        ∀ c', s.caller c' ≠ .finished (.returned task.taskId)) : DedupStep s s'
  | shutsDown {s : Scheduler ω κ} (hfree : s.enqueueLock = none) :
      DedupStep s { s with shutdown := true }
  | closesLedger {s : Scheduler ω κ} (hshut : s.shutdown = true)
      (hjoined : ∀ w, s.worker w = .exited) (hfree : s.enqueueLock = none) :
      DedupStep s { s with dbOpen := false }

theorem DedupStep.schedulerStep {s s' : Scheduler ω κ} (h : DedupStep s s') :
    SchedulerStep s s' := by
  cases h with
  | worker w h => exact .worker w h
  | caller c h => exact .caller c h
  | shutsDown hfree => exact .shutsDown hfree
  | closesLedger hshut hjoined hfree => exact .closesLedger hshut hjoined hfree

/-- The rows that a new queue takes over are of different pairs, fenced agents apart. -/
def DistinctRows (rows : List LedgerRow) : Prop :=
  ∀ row ∈ rows, ∀ row' ∈ rows, Scheduler.rowFenced rows row = false →
    row.task.pair = row'.task.pair → row.taskId = row'.taskId

/-- A queue just constructed over such a ledger. -/
def ConstructedDistinct (s : Scheduler ω κ) : Prop :=
  ∃ config ledger dbOpen env usedIds,
    Table.KeyUnique LedgerRow.taskId ledger ∧ (∀ row ∈ ledger, row.taskId ∈ usedIds) ∧
      DistinctRows (Scheduler.openRows ledger dbOpen) ∧
      s = Scheduler.construct config ledger dbOpen env usedIds

/-! ## The scan -/

theorem existingId_some {s : Scheduler ω κ} {req : EnqueueRequest} {taskId : String}
    (h : s.existingId req = some taskId) : Open s req.pair taskId := by
  unfold Scheduler.existingId at h
  obtain ⟨task, hfind, hid⟩ := Option.map_eq_some_iff.mp h
  have hmatch := List.find?_some hfind
  rw [Bool.and_eq_true_iff, Bool.and_eq_true_iff, Option.isNone_iff_eq_none] at hmatch
  have hagent : task.catalogAgentId = req.catalogAgentId := of_decide_eq_true hmatch.1.1
  have hkind : task.kind = req.kind := of_decide_eq_true hmatch.1.2
  refine ⟨task, List.mem_of_find?_eq_some hfind, ?_, hid, ?_⟩
  · rw [VerificationTask.pair, hagent, hkind]
    rfl
  · rw [← hid]
    exact hmatch.2

theorem existingId_none {s : Scheduler ω κ} {req : EnqueueRequest} {taskId : String}
    (h : s.existingId req = none) : ¬ Open s req.pair taskId := by
  intro hopen
  obtain ⟨task, htask, hpair, hid, hresult⟩ := hopen
  unfold Scheduler.existingId at h
  have hnot := List.find?_eq_none.mp (Option.map_eq_none_iff.mp h) task htask
  apply hnot
  rw [Bool.and_eq_true_iff, Bool.and_eq_true_iff, Option.isNone_iff_eq_none, hid]
  exact ⟨⟨decide_eq_true (congrArg Prod.fst hpair), decide_eq_true (congrArg Prod.snd hpair)⟩,
    hresult⟩

/-! ## One open task -/

structure DedupInv (s : Scheduler ω κ) : Prop where
  one : OneOpen s
  ids : (s.tasks.map VerificationTask.taskId).Nodup
  used : ∀ task ∈ s.tasks, task.taskId ∈ s.usedIds

/-- Results only come in, so an open task has been open before. -/
theorem open_back {s s' : Scheduler ω κ} {pair : String × TaskKind} {taskId : String}
    (hresults : ∀ id, (s.results id).isSome = true → (s'.results id).isSome = true)
    (hopen : Open s' pair taskId) (htasks : ∀ task ∈ s'.tasks, task.taskId = taskId → task ∈ s.tasks) :
    Open s pair taskId := by
  obtain ⟨task, htask, hpair, hid, hresult⟩ := hopen
  refine ⟨task, htasks task htask hid, hpair, hid, ?_⟩
  rw [← Option.not_isSome_iff_eq_none] at hresult ⊢
  exact fun hsome => hresult (hresults taskId hsome)

theorem dedupInv_sub {s s' : Scheduler ω κ} (hinv : DedupInv s)
    (hresults : ∀ id, (s.results id).isSome = true → (s'.results id).isSome = true)
    (htasks : s'.tasks.Sublist s.tasks) (hused : s'.usedIds = s.usedIds) : DedupInv s' where
  one := by
    intro pair id id' hopen hopen'
    exact hinv.one pair id id'
      (open_back hresults hopen fun task htask _ => htasks.subset htask)
      (open_back hresults hopen' fun task htask _ => htasks.subset htask)
  ids := hinv.ids.sublist (htasks.map _)
  used := by
    intro task htask
    rw [hused]
    exact hinv.used task (htasks.subset htask)

theorem dedupInv_register {s s' : Scheduler ω κ} {req : EnqueueRequest} {new : VerificationTask}
    (hinv : DedupInv s) (hnone : s.existingId req = none) (hpair : new.pair = req.pair)
    (hfresh : new.taskId ∉ s.usedIds)
    (hresults : ∀ id, (s.results id).isSome = true → (s'.results id).isSome = true)
    (htasks : s'.tasks = s.tasks ++ [new]) (hused : s'.usedIds = new.taskId :: s.usedIds) :
    DedupInv s' := by
  have hold : ∀ task ∈ s.tasks, task.taskId ≠ new.taskId := by
    intro task htask heq
    rw [← heq] at hfresh
    exact hfresh (hinv.used task htask)
  -- an open task of another id is an old one
  have hback : ∀ pair id, Open s' pair id → id ≠ new.taskId → Open s pair id := by
    intro pair id hopen hne
    apply open_back hresults hopen
    intro task htask hid
    rw [htasks] at htask
    rcases List.mem_append.mp htask with hmem | hnew
    · exact hmem
    · rw [List.mem_singleton.mp hnew] at hid
      exact absurd hid.symm hne
  have hnew : ∀ pair, Open s' pair new.taskId → pair = req.pair := by
    intro pair hopen
    obtain ⟨task, htask, hpair', hid, -⟩ := hopen
    rw [htasks] at htask
    rcases List.mem_append.mp htask with hmem | hlast
    · exact absurd hid (hold task hmem)
    · rw [List.mem_singleton.mp hlast] at hpair'
      rw [← hpair', hpair]
  refine ⟨?_, ?_, ?_⟩
  · intro pair id id' hopen hopen'
    by_cases hid : id = new.taskId
    · by_cases hid' : id' = new.taskId
      · rw [hid, hid']
      · rw [hid] at hopen
        have hopen₀ := hback pair id' hopen' hid'
        rw [hnew pair hopen] at hopen₀
        exact absurd hopen₀ (existingId_none hnone)
    · by_cases hid' : id' = new.taskId
      · rw [hid'] at hopen'
        have hopen₀ := hback pair id hopen hid
        rw [hnew pair hopen'] at hopen₀
        exact absurd hopen₀ (existingId_none hnone)
      · exact hinv.one pair id id' (hback pair id hopen hid) (hback pair id' hopen' hid')
  · rw [htasks, List.map_append, List.nodup_append]
    refine ⟨hinv.ids, List.nodup_singleton _, ?_⟩
    intro id hid id' hid'
    obtain ⟨task, htask, heq⟩ := List.mem_map.mp hid
    rw [List.map_singleton, List.mem_singleton] at hid'
    rw [← heq, hid']
    exact hold task htask
  · intro task htask
    rw [hused]
    rw [htasks] at htask
    rcases List.mem_append.mp htask with hmem | hlast
    · exact List.mem_cons_of_mem _ (hinv.used task hmem)
    · rw [List.mem_singleton.mp hlast]
      exact List.mem_cons_self

theorem dedupInv_preserved : Preserves (DedupStep (ω := ω) (κ := κ)) DedupInv := by
  intro s s' hstep hinv
  cases hstep with
  | worker w hstep =>
    have htasks := workerStep_tasks hstep
    apply dedupInv_sub hinv (fun _ => workerStep_keepsResults hstep) _ htasks.2
    rw [htasks.1]
  | caller c hstep hregisters hfails =>
    have hresults : ∀ id, (s.results id).isSome = true → (s'.results id).isSome = true :=
      fun _ => callerStep_keepsResults hstep
    rcases callerStep_tasks hstep with ⟨htasks, hused⟩ |
      ⟨req, new, hpc, -, hagent, hkind, hfresh, htasks, hused⟩ | ⟨dropped, -, -, htasks, hused⟩
    · apply dedupInv_sub hinv hresults _ hused
      rw [htasks]
    · have hpair : new.pair = req.pair := by
        rw [VerificationTask.pair, hagent, hkind]
        rfl
      exact dedupInv_register hinv (hregisters req hpc) hpair hfresh hresults htasks hused
    · apply dedupInv_sub hinv hresults _ hused
      rw [htasks]
      exact List.filter_sublist
  | shutsDown | closesLedger => exact ⟨hinv.one, hinv.ids, hinv.used⟩

theorem dedupInv_init (s : Scheduler ω κ) (h : ConstructedDistinct s) : DedupInv s := by
  obtain ⟨config, ledger, dbOpen, env, usedIds, hkey, hused, hdistinct, rfl⟩ := h
  have htasks : (Scheduler.construct config ledger dbOpen env usedIds : Scheduler ω κ).tasks =
      (Scheduler.openRows ledger dbOpen).map LedgerRow.task := rfl
  have hopenRow : ∀ pair id,
      Open (Scheduler.construct config ledger dbOpen env usedIds : Scheduler ω κ) pair id →
        ∃ row ∈ Scheduler.openRows ledger dbOpen, row.task.pair = pair ∧ row.taskId = id ∧
          Scheduler.rowFenced (Scheduler.openRows ledger dbOpen) row = false := by
    intro pair id hopen
    obtain ⟨task, htask, hpair, hid, hresult⟩ := hopen
    rw [htasks] at htask
    obtain ⟨row, hrow, heq⟩ := List.mem_map.mp htask
    have hrowId : row.taskId = id := by
      rw [← hid, ← heq]
      rfl
    refine ⟨row, hrow, by rw [heq, hpair], hrowId, ?_⟩
    rw [← Bool.not_eq_true]
    intro hfenced
    rw [← Option.not_isSome_iff_eq_none] at hresult
    exact hresult ((Scheduler.construct_results id).mpr ⟨row, hrow, hfenced, hrowId⟩)
  refine ⟨?_, ?_, ?_⟩
  · intro pair id id' hopen hopen'
    obtain ⟨row, hrow, hpair, hid, hfenced⟩ := hopenRow pair id hopen
    obtain ⟨row', hrow', hpair', hid', -⟩ := hopenRow pair id' hopen'
    rw [← hid, ← hid']
    exact hdistinct row hrow row' hrow' hfenced (hpair.trans hpair'.symm)
  · rw [htasks, List.map_map]
    exact Scheduler.openRows_nodup hkey dbOpen
  · intro task htask
    rw [htasks] at htask
    obtain ⟨row, hrow, heq⟩ := List.mem_map.mp htask
    rw [← heq]
    exact hused row (Scheduler.openRows_mem hkey hrow)

/-! ## One call -/

/-- The request of a call that has no task yet. -/
def CallerPc.asks? : CallerPc → Option EnqueueRequest
  | .checkingBlocker req | .deduplicating req | .registering req => some req
  | _ => none

/-- What is known of a call for `req` that began when the results were `before`: whatever it finds,
registers and returns is of the pair and had no result then. -/
structure CallInv (before : String → Option VerificationTaskResult) (req : EnqueueRequest) (c : κ)
    (s : Scheduler ω κ) : Prop where
  begun : s.caller c ≠ .idle
  past : ∀ id, s.results id = none → before id = none
  asks : ∀ req', (s.caller c).asks? = some req' → req' = req
  found : ∀ id, s.caller c = .reusing id → before id = none ∧ id ∈ s.usedIds ∧
    ∀ task ∈ s.tasks, task.taskId = id → task.pair = req.pair
  holds : ∀ task, (s.caller c).holds = some task →
    before task.taskId = none ∧ task.pair = req.pair
  returned : ∀ id, s.caller c = .finished (.returned id) → before id = none ∧
    ∃ task ∈ s.tasks, task.taskId = id ∧ task.pair = req.pair

theorem callerStep_asks {c : κ} {s s' : Scheduler ω κ} (hstep : CallerStep c s s')
    (hbegun : s.caller c ≠ .idle) : s'.caller c ≠ .idle ∧
      ∀ req, (s'.caller c).asks? = some req → (s.caller c).asks? = some req := by
  have hself : ∀ pc, Function.update s.caller c pc c = pc := fun pc =>
    Function.update_self c pc s.caller
  cases hstep with
  | refusedAtOnce hpc | unknownKind _ hpc | called _ _ _ hpc => exact absurd hpc hbegun
  | unblocked hpc | findsNone hpc =>
    refine ⟨fun h => CallerPc.noConfusion ((hself _).symm.trans h), fun req' h => ?_⟩
    have hreq := (congrArg CallerPc.asks? (hself _)).symm.trans h
    rw [hpc]
    exact hreq
  | _ =>
    refine ⟨fun h => CallerPc.noConfusion ((hself _).symm.trans h), fun req' h => ?_⟩
    cases (congrArg CallerPc.asks? (hself _)).symm.trans h

theorem callerStep_finds {c : κ} {s s' : Scheduler ω κ} (hstep : CallerStep c s s') {id : String}
    (h : s'.caller c = .reusing id) :
    ∃ req, s.caller c = .deduplicating req ∧ s.existingId req = some id ∧ s'.tasks = s.tasks ∧
      s'.usedIds = s.usedIds := by
  have hself : ∀ pc, Function.update s.caller c pc c = pc := fun pc =>
    Function.update_self c pc s.caller
  cases hstep with
  | findsExisting hpc hfound =>
    cases (hself _).symm.trans h
    exact ⟨_, hpc, hfound, rfl, rfl⟩
  | _ => cases (hself _).symm.trans h

theorem callerStep_obtains {c : κ} {s s' : Scheduler ω κ} (hstep : CallerStep c s s')
    {task : VerificationTask} (h : (s'.caller c).holds = some task) :
    (s.caller c).holds = some task ∨
      ∃ req, s.caller c = .registering req ∧ task.pair = req.pair ∧ task.taskId ∉ s.usedIds := by
  have hself : ∀ pc, Function.update s.caller c pc c = pc := fun pc =>
    Function.update_self c pc s.caller
  cases hstep with
  | registers taskId now hpc hfresh =>
    cases (congrArg CallerPc.holds (hself _)).symm.trans h
    exact .inr ⟨_, hpc, rfl, hfresh⟩
  | inserted hpc | insertSkipped hpc | insertRaises hpc | locksOpen hpc | locksShut hpc
  | deletesRefused hpc | passesFence hpc | overflows hpc | deletesOverflow hpc =>
    left
    have hheld := (congrArg CallerPc.holds (hself _)).symm.trans h
    rw [hpc]
    exact hheld
  | _ => cases (congrArg CallerPc.holds (hself _)).symm.trans h

/-- An id that has not been used has no result. -/
theorem result_of_unused {s : Scheduler ω κ} (hplaced : Placed s) {id : String}
    (h : id ∉ s.usedIds) : s.results id = none := by
  obtain ⟨place, hp⟩ := hplaced
  rw [← Option.not_isSome_iff_eq_none]
  intro hresult
  apply h
  apply hp.used
  rw [(hp.done id).mp hresult]
  intro heq
  cases heq

/-- What a step of the call itself keeps. -/
theorem callInv_own {before : String → Option VerificationTaskResult} {req : EnqueueRequest}
    {c : κ} {s s' : Scheduler ω κ} (hstep : CallerStep c s s') (hplaced : Placed s)
    (hdedup : DedupInv s) (hinv : CallInv before req c s) : CallInv before req c s' := by
  have hasks := callerStep_asks hstep hinv.begun
  have hpast : ∀ id, s'.results id = none → before id = none := by
    intro id hresult
    apply hinv.past
    rw [← Option.not_isSome_iff_eq_none] at hresult ⊢
    exact fun hsome => hresult (callerStep_keepsResults hstep hsome)
  refine ⟨hasks.1, hpast, fun req' h => hinv.asks req' (hasks.2 req' h), ?_, ?_, ?_⟩
  · intro id hreusing
    obtain ⟨req', hpc, hfound, htasks, hused⟩ := callerStep_finds hstep hreusing
    have hreq : req' = req := hinv.asks req' (by rw [hpc]; rfl)
    rw [hreq] at hfound
    obtain ⟨task, htask, hpair, hid, hresult⟩ := existingId_some hfound
    rw [htasks, hused]
    refine ⟨hinv.past id hresult, ?_, ?_⟩
    · rw [← hid]
      exact hdedup.used task htask
    · intro task' htask' hid'
      have hsame : task' = task :=
        List.inj_on_of_nodup_map hdedup.ids htask' htask (hid'.trans hid.symm)
      rw [hsame]
      exact hpair
  · intro task hholds
    rcases callerStep_obtains hstep hholds with hold | ⟨req', hpc, hpair, hfresh⟩
    · exact hinv.holds task hold
    · have hreq : req' = req := hinv.asks req' (by rw [hpc]; rfl)
      rw [hreq] at hpair
      exact ⟨hinv.past _ (result_of_unused hplaced hfresh), hpair⟩
  · intro id hfinished
    rcases callerStep_returns hstep hfinished with
      ⟨hreusing, ⟨task, htask, hid⟩, htasks⟩ | ⟨task, hholds, hid, -, htasks⟩
    · obtain ⟨hbefore, -, hpairs⟩ := hinv.found id hreusing
      rw [htasks]
      exact ⟨hbefore, task, htask, hid, hpairs task htask hid⟩
    · obtain ⟨hbefore, hpair⟩ := hinv.holds task hholds
      obtain ⟨place, hp⟩ := hplaced
      rw [hid] at hbefore
      rw [htasks]
      exact ⟨hbefore, task, hp.registered c task hholds, hid, hpair⟩

/-- What the steps of the others keep: they register under new ids and withdraw no returned task. -/
theorem callInv_other {before : String → Option VerificationTaskResult} {req : EnqueueRequest}
    {c : κ} {s s' : Scheduler ω κ} (hinv : CallInv before req c s)
    (hcaller : s'.caller c = s.caller c)
    (hresults : ∀ id, (s.results id).isSome = true → (s'.results id).isSome = true)
    (hused : ∀ id ∈ s.usedIds, id ∈ s'.usedIds)
    (hnew : ∀ task ∈ s'.tasks, task ∈ s.tasks ∨ task.taskId ∉ s.usedIds)
    (hkept : ∀ task ∈ s.tasks, s.caller c = .finished (.returned task.taskId) → task ∈ s'.tasks) :
    CallInv before req c s' := by
  refine ⟨?_, ?_, ?_, ?_, ?_, ?_⟩
  · rw [hcaller]
    exact hinv.begun
  · intro id hresult
    apply hinv.past
    rw [← Option.not_isSome_iff_eq_none] at hresult ⊢
    exact fun hsome => hresult (hresults id hsome)
  · rw [hcaller]
    exact hinv.asks
  · intro id hreusing
    rw [hcaller] at hreusing
    obtain ⟨hbefore, hmem, hpairs⟩ := hinv.found id hreusing
    refine ⟨hbefore, hused id hmem, ?_⟩
    intro task htask hid
    rcases hnew task htask with hold | hfresh
    · exact hpairs task hold hid
    · rw [hid] at hfresh
      exact absurd hmem hfresh
  · rw [hcaller]
    exact hinv.holds
  · intro id hfinished
    rw [hcaller] at hfinished
    obtain ⟨hbefore, task, htask, hid, hpair⟩ := hinv.returned id hfinished
    rw [← hid] at hfinished
    exact ⟨hbefore, task, hkept task htask hfinished, hid, hpair⟩

theorem callInv_step {before : String → Option VerificationTaskResult} {req : EnqueueRequest}
    {c : κ} {s s' : Scheduler ω κ} (hstep : DedupStep s s') (hplaced : Placed s)
    (hdedup : DedupInv s) (hinv : CallInv before req c s) : CallInv before req c s' := by
  cases hstep with
  | worker w hstep =>
    have htasks := workerStep_tasks hstep
    have hcaller : s'.caller c = s.caller c := by rw [(workerStep_history hstep).2.1]
    apply callInv_other hinv hcaller (fun _ => workerStep_keepsResults hstep)
    · rw [htasks.2]
      exact fun _ hid => hid
    · rw [htasks.1]
      exact fun _ htask => .inl htask
    · rw [htasks.1]
      exact fun _ htask _ => htask
  | caller c' hstep hregisters hfails =>
    by_cases hcc : c = c'
    · rw [hcc] at hinv ⊢
      exact callInv_own hstep hplaced hdedup hinv
    · apply callInv_other hinv (callerStep_others hstep hcc) (fun _ => callerStep_keepsResults hstep)
      · intro id hid
        rcases callerStep_tasks hstep with ⟨-, heq⟩ | ⟨-, new, -, -, -, -, -, -, heq⟩ |
          ⟨dropped, -, -, -, heq⟩ <;> rw [heq]
        · exact hid
        · exact List.mem_cons_of_mem _ hid
        · exact hid
      · intro task htask
        rcases callerStep_tasks hstep with ⟨heq, -⟩ | ⟨-, new, -, -, -, -, hfresh, heq, -⟩ |
          ⟨dropped, -, -, heq, -⟩ <;> rw [heq] at htask
        · exact .inl htask
        · rcases List.mem_append.mp htask with hold | hlast
          · exact .inl hold
          · rw [List.mem_singleton.mp hlast]
            exact .inr hfresh
        · exact .inl (List.mem_filter.mp htask).1
      · intro task htask hreturned
        rcases callerStep_tasks hstep with ⟨heq, -⟩ | ⟨-, new, -, -, -, -, -, heq, -⟩ |
          ⟨dropped, hholds, hwithdrawn, heq, -⟩ <;> rw [heq]
        · exact htask
        · exact List.mem_append_left _ htask
        · have hne := hfails dropped hholds hwithdrawn c
          refine List.mem_filter.mpr ⟨htask, decide_eq_true ?_⟩
          intro hid
          rw [hid] at hreturned
          exact hne hreturned
  | shutsDown | closesLedger =>
    exact ⟨hinv.begun, hinv.past, hinv.asks, hinv.found, hinv.holds, hinv.returned⟩

/-! ## Calls for one pair -/

/-- No task of the pair has got a result between the two states. -/
def NoResultBetween (pair : String × TaskKind) (s t : Scheduler ω κ) : Prop :=
  ∀ task ∈ t.tasks, task.pair = pair → (t.results task.taskId).isSome = true →
    (s.results task.taskId).isSome = true

structure Deduplicated (s : Scheduler ω κ) : Prop where
  /-- At most one registered task of a pair has no result. -/
  oneOpen : OneOpen s
  /-- Two calls for a pair, one of which begins here and the other now or later, return the same
  id unless there has been a result in between. -/
  sameId : ∀ c c' req req' s' t id id', s.caller c = .checkingBlocker req → Run DedupStep s s' →
    s'.caller c' = .checkingBlocker req' → req'.pair = req.pair → Run DedupStep s' t →
      t.caller c = .finished (.returned id) → t.caller c' = .finished (.returned id') →
        NoResultBetween req.pair s t → id = id'

structure QueueInv (s : Scheduler ω κ) : Prop where
  scheduler : SchedulerInv s
  dedup : DedupInv s

theorem queueInv_preserved : Preserves (DedupStep (ω := ω) (κ := κ)) QueueInv := by
  intro s s' hstep hinv
  exact ⟨schedulerInv_preserved hstep.schedulerStep hinv.scheduler,
    dedupInv_preserved hstep hinv.dedup⟩

theorem queueInv_init (s : Scheduler ω κ) (h : ConstructedDistinct s) : QueueInv s := by
  refine ⟨?_, dedupInv_init s h⟩
  obtain ⟨config, ledger, dbOpen, env, usedIds, hkey, hused, -, heq⟩ := h
  exact schedulerInv_init s ⟨config, ledger, dbOpen, env, usedIds, hkey, hused, heq⟩

/-- What is known of a call along a run from its beginning. -/
theorem callInv_run {req : EnqueueRequest} {c : κ} {s t : Scheduler ω κ}
    (hbegins : s.caller c = .checkingBlocker req) (hinv : QueueInv s) (hrun : Run DedupStep s t) :
    CallInv s.results req c t := by
  have hstart : CallInv s.results req c s := by
    refine ⟨?_, fun _ h => h, ?_, ?_, ?_, ?_⟩
    · rw [hbegins]
      exact CallerPc.noConfusion
    · intro req' hasks
      rw [hbegins] at hasks
      exact (Option.some.inj hasks).symm
    · intro id hreusing
      rw [hbegins] at hreusing
      cases hreusing
    · intro task hholds
      rw [hbegins] at hholds
      cases hholds
    · intro id hfinished
      rw [hbegins] at hfinished
      cases hfinished
  induction hrun with
  | refl => exact hstart
  | tail hprefix hlast ih =>
    have hinv' := run_preserves queueInv_preserved hprefix hinv
    exact callInv_step hlast hinv'.scheduler.placed hinv'.dedup ih

/-- A returned task of the pair is still open when no result has come in. -/
theorem open_of_returned {before : String → Option VerificationTaskResult} {req : EnqueueRequest}
    {c : κ} {s t : Scheduler ω κ} {id : String} (hcall : CallInv before req c t)
    (hfinished : t.caller c = .finished (.returned id))
    (hbefore : before id = none → s.results id = none) (hnone : NoResultBetween req.pair s t) :
    Open t req.pair id := by
  obtain ⟨hresult, task, htask, hid, hpair⟩ := hcall.returned id hfinished
  refine ⟨task, htask, hpair, hid, ?_⟩
  rw [← Option.not_isSome_iff_eq_none]
  intro hsome
  rw [← hid] at hsome
  have hearlier := hnone task htask hpair hsome
  rw [hid, hbefore hresult] at hearlier
  cases hearlier

theorem fresh_distinct (config : VerificationQueueConfig) (dbOpen : Bool) :
    ConstructedDistinct (Scheduler.fresh config dbOpen : Scheduler ω κ) := by
  refine ⟨config, [], dbOpen, ⟨fun _ => none, fun _ => 0, fun _ => 0⟩, [], List.nodup_nil,
    by simp, ?_, ?_⟩
  · intro row hrow
    have hkey : Table.KeyUnique LedgerRow.taskId [] := List.nodup_nil
    have hmem := Scheduler.openRows_mem hkey hrow
    cases hmem
  · have hrows : recoveredRows [] = [] := by simp [recoveredRows, loadPendingTasks]
    cases dbOpen <;> simp [Scheduler.fresh, Scheduler.construct, hrows, recoveredUncertain]

/-! ## Two calls at once -/

def CallerPc.isRegistering : CallerPc → Bool
  | .registering _ => true
  | _ => false

/-- A step at which a call neither fails nor registers. -/
theorem DedupStep.ofCaller (c : κ) {s s' : Scheduler ω κ} (h : CallerStep c s s')
    (hfails : (s'.caller c).withdrawn = false) (hnot : (s.caller c).isRegistering = false) :
    DedupStep s s' := by
  apply DedupStep.caller c h
  · intro req hregistering
    rw [hregistering] at hnot
    cases hnot
  · intro task _ hwithdrawn
    rw [hfails] at hwithdrawn
    cases hwithdrawn

end KiwiCatalog.Queue
