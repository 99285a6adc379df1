import KiwiCatalog.Queue.Restart

/-!
# RestartInvariant — what survives any number of crashes

A task whose row is terminal is spent.  A row that was running at a crash fences its agent in
every later instance.
-/

set_option autoImplicit false
set_option linter.unusedSectionVars false

namespace KiwiCatalog.Queue

open Transition

variable {ω κ : Type} [DecidableEq ω] [DecidableEq κ]

/-! ## Spent ids -/

/-- No task of this id is waiting to be started, and none can come back from the ledger. -/
structure Spent (s : Restart ω κ) (id : String) : Prop where
  used : id ∈ s.queue.usedIds
  idle : ¬ Unstarted s.queue id
  closed : ∀ row ∈ s.queue.ledger, row.taskId = id → row.unresolved = false
  closedDurable : ∀ row ∈ s.durable, row.taskId = id → row.unresolved = false

structure RestartInv (s : Restart ω κ) : Prop where
  queue : SchedulerInv s.queue
  ledger : LedgerInv s.queue
  keys : Table.KeyUnique LedgerRow.taskId s.durable
  used : ∀ row ∈ s.durable, row.taskId ∈ s.queue.usedIds
  spent : ∀ row ∈ s.durable, row.unresolved = false → Spent s row.taskId

theorem closed_of_terminal {ledger : Ledger} (hkeys : Table.KeyUnique LedgerRow.taskId ledger)
    {row : LedgerRow} (hrow : row ∈ ledger) (hclosed : row.unresolved = false) :
    ∀ row' ∈ ledger, row'.taskId = row.taskId → row'.unresolved = false := by
  intro row' hrow' hid
  rwa [row_inj hkeys hrow' hrow hid]

theorem not_unstarted_of_terminal {s : Scheduler ω κ} (h : LedgerInv s) {row : LedgerRow}
    (hrow : row ∈ s.ledger) (hclosed : row.unresolved = false) : ¬ Unstarted s row.taskId := by
  intro hu
  have hpend := h.unstarted _ hu row hrow rfl
  rw [unresolved_iff.mpr (.inl hpend)] at hclosed
  cases hclosed

/-- One step of the instance keeps a spent id spent. -/
theorem spent_moves {s : Restart ω κ} (hi : RestartInv s) {q : Scheduler ω κ} {durable : Ledger}
    (hstep : SchedulerStep s.queue q) (hcommit : durable = q.ledger ∨ durable = s.durable)
    {id : String} (h : Spent s id) : Spent { s with queue := q, durable := durable } id := by
  have hidle : ¬ Unstarted q id := by
    intro hu
    rcases schedulerStep_unstarted hstep hu with hu | hfresh
    · exact h.idle hu
    · exact hfresh h.used
  have hclosed : ∀ row ∈ q.ledger, row.taskId = id → row.unresolved = false := by
    intro row hrow hid
    by_contra hopen
    rw [Bool.not_eq_false] at hopen
    rcases schedulerStep_unresolved hstep hi.queue.placed hrow hopen with
      ⟨row₀, hrow₀, hid₀, hopen₀⟩ | hu
    · rw [h.closed row₀ hrow₀ (hid₀.trans hid)] at hopen₀
      cases hopen₀
    · exact h.idle (hid ▸ hu)
  refine ⟨schedulerStep_usedIds hstep h.used, hidle, hclosed, ?_⟩
  rcases hcommit with rfl | rfl
  · exact hclosed
  · exact h.closedDurable

theorem restartInv_moves {s : Restart ω κ} (hi : RestartInv s) {q : Scheduler ω κ}
    {durable : Ledger} (hstep : SchedulerStep s.queue q)
    (hcommit : durable = q.ledger ∨ durable = s.durable) :
    RestartInv { s with queue := q, durable := durable } := by
  have hledger := ledgerInv_step hstep hi.queue.placed hi.ledger
  refine ⟨schedulerInv_preserved hstep hi.queue, hledger, ?_, ?_, fun row hrow hclosed => ?_⟩
  · rcases hcommit with rfl | rfl
    · exact hledger.keys
    · exact hi.keys
  · rcases hcommit with rfl | rfl
    · exact hledger.used
    · exact fun row hrow => schedulerStep_usedIds hstep (hi.used row hrow)
  · rcases hcommit with rfl | rfl
    · have hall := closed_of_terminal hledger.keys hrow hclosed
      exact ⟨hledger.used row hrow, not_unstarted_of_terminal hledger hrow hclosed, hall, hall⟩
    · exact spent_moves hi hstep (.inr rfl) (hi.spent row hrow hclosed)

/-! ## Restarts -/

/-- The new instance is constructed over the durable rows, some of them marked unknown. -/
theorem restarts_ledger {s s' : Restart ω κ} (hi : RestartInv s) (h : Restart.Restarts s s') :
    s'.durable = s'.queue.ledger ∧ s'.queue.usedIds = s.queue.usedIds ∧ s'.runs = s.runs ∧
      RemarkedAll (RunningAgent s.durable) s.durable s'.durable := by
  cases h with
  | reconstructs config env hledger =>
    have hcrash := crashedRecovery_remarks hledger hi.keys
    have hlast := recovery_remarks (hcrash.keys hi.keys) env (List.Subset.refl _)
    have hsame : RunningAgent _ = RunningAgent s.durable :=
      funext fun agent => propext (hcrash.runningAgent agent)
    rw [hsame] at hlast
    exact ⟨rfl, rfl, rfl, hcrash.trans hlast⟩

theorem restarts_unstarted {s s' : Restart ω κ} (hi : RestartInv s) (h : Restart.Restarts s s')
    {id : String} (hu : Unstarted s'.queue id) :
    ∃ row ∈ s.durable, row.unresolved = true ∧ row.taskId = id := by
  cases h with
  | reconstructs config env hledger =>
    have hcrash := crashedRecovery_remarks hledger hi.keys
    obtain ⟨row', hrow', hpend, -, rfl⟩ := unstarted_construct (hcrash.keys hi.keys) hu
    obtain ⟨row, hrow, hre, -⟩ := hcrash.mem_right hrow'
    refine ⟨row, hrow, ?_, hre.taskId.symm⟩
    rw [← hre.unresolved]
    exact unresolved_iff.mpr (.inl hpend)

theorem spent_restarts {s s' : Restart ω κ} (hi : RestartInv s) (h : Restart.Restarts s s')
    {id : String} (hspent : Spent s id) : Spent s' id := by
  obtain ⟨hdurable, hused, -, hre⟩ := restarts_ledger hi h
  have hclosed : ∀ row ∈ s'.durable, row.taskId = id → row.unresolved = false := by
    intro row' hrow' hid
    obtain ⟨row, hrow, hremarked, -⟩ := hre.mem_right hrow'
    rw [hremarked.unresolved]
    exact hspent.closedDurable row hrow (hremarked.taskId.symm.trans hid)
  refine ⟨?_, fun hu => ?_, ?_, hclosed⟩
  · rw [hused]
    exact hspent.used
  · obtain ⟨row, hrow, hopen, hid⟩ := restarts_unstarted hi h hu
    rw [hspent.closedDurable row hrow hid] at hopen
    cases hopen
  · rwa [← hdurable]

theorem restarts_instance {s s' : Restart ω κ} (hi : RestartInv s) (h : Restart.Restarts s s') :
    SchedulerInv s'.queue ∧ LedgerInv s'.queue := by
  cases h with
  | reconstructs config env hledger =>
    have hcrash := crashedRecovery_remarks hledger hi.keys
    have hkeys := hcrash.keys hi.keys
    have hused := hcrash.used hi.used
    exact ⟨schedulerInv_init _ ⟨config, _, true, env, _, hkeys, hused, rfl⟩,
      ledgerInv_construct hkeys hused⟩

theorem restartInv_restarts {s s' : Restart ω κ} (hi : RestartInv s)
    (h : Restart.Restarts s s') : RestartInv s' := by
  obtain ⟨hdurable, hused, -, hre⟩ := restarts_ledger hi h
  obtain ⟨hqueue, hledger⟩ := restarts_instance hi h
  refine ⟨hqueue, hledger, ?_, ?_, fun row' hrow' hclosed => ?_⟩
  · rw [hdurable]
    exact hledger.keys
  · rw [hdurable]
    exact hledger.used
  · obtain ⟨row, hrow, hremarked, -⟩ := hre.mem_right hrow'
    rw [hremarked.taskId]
    rw [hremarked.unresolved] at hclosed
    exact spent_restarts hi h (hi.spent row hrow hclosed)

theorem restartInv_preserved : Preserves (Restart.Step (ω := ω) (κ := κ)) RestartInv := by
  intro s s' hstep hi
  cases hstep with
  | moves h hcommit => exact restartInv_moves hi h hcommit
  | restarts h => exact restartInv_restarts hi h

theorem restartInv_init (s : Restart ω κ) (h : s.Started) : RestartInv s := by
  obtain ⟨hcons, hdurable, -⟩ := h
  have hqueue := schedulerInv_init s.queue hcons
  obtain ⟨config, ledger, dbOpen, env, usedIds, hkeys, hused, heq⟩ := hcons
  have hledger : LedgerInv s.queue := heq ▸ ledgerInv_construct hkeys hused
  refine ⟨hqueue, hledger, ?_, ?_, fun row hrow hclosed => ?_⟩
  · rw [hdurable]
    exact hledger.keys
  · rw [hdurable]
    exact hledger.used
  · rw [hdurable] at hrow
    have hall := closed_of_terminal hledger.keys hrow hclosed
    exact ⟨hledger.used row hrow, not_unstarted_of_terminal hledger hrow hclosed, hall,
      by rwa [hdurable]⟩

theorem restartInv_reachable {s : Restart ω κ}
    (hs : Reachable Restart.Started Restart.Step s) : RestartInv s :=
  reachable_invariant restartInv_init restartInv_preserved hs

/-! ## A terminal row -/

/-- The runs of one task id, over all instances. -/
def Restart.runsOf (s : Restart ω κ) (id : String) : List VerificationTask :=
  s.runs.filter fun t => t.taskId = id

theorem step_spent {s s' : Restart ω κ} (hi : RestartInv s) (hstep : Restart.Step s s')
    {id : String} (h : Spent s id) : Spent s' id ∧ s'.runsOf id = s.runsOf id := by
  cases hstep with
  | restarts hr =>
    obtain ⟨-, -, hruns, -⟩ := restarts_ledger hi hr
    refine ⟨spent_restarts hi hr h, ?_⟩
    rw [Restart.runsOf, hruns, Restart.runsOf]
  | moves hq hcommit =>
    refine ⟨spent_moves hi hq hcommit h, ?_⟩
    rcases schedulerStep_runs hq with hex | ⟨t, hu, hex⟩
    · simp only [Restart.runsOf, Restart.runs, hex]
    · have hne : t.taskId ≠ id := fun hid => h.idle (hid ▸ hu)
      simp [Restart.runsOf, Restart.runs, hex, hne]

/-- A task with a terminal row is never run again. -/
theorem run_spent {s s' : Restart ω κ} (hi : RestartInv s) (hrun : Run Restart.Step s s')
    {id : String} (h : Spent s id) : s'.runsOf id = s.runsOf id := by
  suffices hall : Spent s' id ∧ s'.runsOf id = s.runsOf id from hall.2
  induction hrun with
  | refl => exact ⟨h, rfl⟩
  | tail hprefix hlast ih =>
    obtain ⟨hspent, hsame⟩ := ih
    obtain ⟨hspent', hsame'⟩ :=
      step_spent (run_preserves restartInv_preserved hprefix hi) hlast hspent
    exact ⟨hspent', hsame'.trans hsame⟩

end KiwiCatalog.Queue
