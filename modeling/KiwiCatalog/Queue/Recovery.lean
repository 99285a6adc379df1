import KiwiCatalog.Queue.Placement

/-!
# Recovery — what a new queue takes over from the ledger

The open rows come back in one piece: each is either queued for execution or, when its agent has
an old running row, closed with an unknown outcome.
-/

set_option autoImplicit false
set_option linter.unusedSectionVars false

namespace KiwiCatalog.Queue

variable {ω κ : Type} [DecidableEq ω] [DecidableEq κ]

theorem mem_loadPendingTasks {ledger : Ledger} {row : LedgerRow} :
    row ∈ loadPendingTasks ledger ↔ row ∈ ledger ∧ row.unresolved = true := by
  simp only [loadPendingTasks, List.mem_mergeSort, List.mem_filter]

/-- Under the primary key, reading a row again under its id gives the row itself. -/
theorem recoveredRows_eq {ledger : Ledger} (hkey : Table.KeyUnique LedgerRow.taskId ledger) :
    recoveredRows ledger = loadPendingTasks ledger := by
  have hself : ∀ row ∈ loadPendingTasks ledger, fetchTaskRow ledger row.taskId = some row := by
    intro row hrow
    exact Table.lookup_of_mem hkey (mem_loadPendingTasks.mp hrow).1
  unfold recoveredRows
  rw [List.filterMap_congr hself, List.filterMap_some]

theorem mem_recoveredRows {ledger : Ledger} (hkey : Table.KeyUnique LedgerRow.taskId ledger)
    {row : LedgerRow} : row ∈ recoveredRows ledger ↔ row ∈ ledger ∧ row.unresolved = true := by
  rw [recoveredRows_eq hkey, mem_loadPendingTasks]

theorem recoveredRows_nodup {ledger : Ledger} (hkey : Table.KeyUnique LedgerRow.taskId ledger) :
    ((recoveredRows ledger).map LedgerRow.taskId).Nodup := by
  rw [recoveredRows_eq hkey]
  have hperm : (loadPendingTasks ledger).Perm (ledger.filter LedgerRow.unresolved) :=
    List.mergeSort_perm _ _
  rw [(hperm.map LedgerRow.taskId).nodup_iff]
  exact hkey.sublist (List.filter_sublist.map _)

/-- An agent is fenced at start-up exactly when it has an old running row. -/
theorem recoveredUncertain_isSome (rows : List LedgerRow) (agent : String) :
    (recoveredUncertain rows agent).isSome = true ↔
      ∃ row ∈ rows, row.status = .running ∧ row.catalogAgentId = agent := by
  have hfold : ∀ (rows : List LedgerRow) (uncertain : String → Option String),
      (rows.foldl (fun (uncertain : String → Option String) row =>
        if row.status = .running then
          Function.update uncertain row.catalogAgentId (some row.taskId)
        else uncertain) uncertain agent).isSome = true ↔
      (uncertain agent).isSome = true ∨
        ∃ row ∈ rows, row.status = .running ∧ row.catalogAgentId = agent := by
    intro rows
    induction rows with
    | nil => simp
    | cons row rows ih =>
      intro uncertain
      rw [List.foldl_cons, ih]
      by_cases hrun : row.status = .running
      · rw [if_pos hrun]
        by_cases hagent : agent = row.catalogAgentId
        · subst hagent
          simp [hrun]
        · have hne : ¬ row.catalogAgentId = agent := fun h => hagent h.symm
          simp [Function.update_of_ne hagent, hne]
      · rw [if_neg hrun]
        simp [hrun]
  rw [recoveredUncertain, hfold]
  simp

theorem row_task_taskId (row : LedgerRow) : row.task.taskId = row.taskId := rfl

/-- In a list of rows with distinct ids, two rows with one id are one row. -/
theorem row_inj {rows : List LedgerRow} (hnodup : (rows.map LedgerRow.taskId).Nodup)
    {row row' : LedgerRow} (h : row ∈ rows) (h' : row' ∈ rows) (hid : row.taskId = row'.taskId) :
    row = row' :=
  List.inj_on_of_nodup_map hnodup h h' hid

namespace Scheduler

/-- The rows a new queue takes over. -/
def openRows (ledger : Ledger) (dbOpen : Bool) : List LedgerRow :=
  if dbOpen then recoveredRows ledger else []

def rowFenced (rows : List LedgerRow) (row : LedgerRow) : Bool :=
  (recoveredUncertain rows row.catalogAgentId).isSome

theorem openRows_nodup {ledger : Ledger} (hkey : Table.KeyUnique LedgerRow.taskId ledger)
    (dbOpen : Bool) : ((openRows ledger dbOpen).map LedgerRow.taskId).Nodup := by
  cases dbOpen with
  | true => exact recoveredRows_nodup hkey
  | false => exact List.nodup_nil

theorem openRows_mem {ledger : Ledger} (hkey : Table.KeyUnique LedgerRow.taskId ledger)
    {dbOpen : Bool} {row : LedgerRow} (h : row ∈ openRows ledger dbOpen) : row ∈ ledger := by
  cases dbOpen with
  | true => exact ((mem_recoveredRows hkey).mp h).1
  | false => cases h

section Construct

variable {config : VerificationQueueConfig} {ledger : Ledger} {dbOpen : Bool} {env : RecoveryEnv}
  {usedIds : List String}

theorem mem_construct_pending {t : VerificationTask} :
    t ∈ (construct config ledger dbOpen env usedIds : Scheduler ω κ).pending ↔
      ∃ row ∈ openRows ledger dbOpen,
        rowFenced (openRows ledger dbOpen) row = false ∧ row.task = t := by
  change t ∈ List.map LedgerRow.task (List.filter
    (fun row => (recoveredUncertain (openRows ledger dbOpen) row.catalogAgentId).isNone)
    (openRows ledger dbOpen)) ↔ _
  simp [rowFenced, and_assoc]

theorem construct_results (id : String) :
    ((construct config ledger dbOpen env usedIds : Scheduler ω κ).results id).isSome = true ↔
      ∃ row ∈ openRows ledger dbOpen,
        rowFenced (openRows ledger dbOpen) row = true ∧ row.taskId = id := by
  change (Option.map (recoveredOutcome env) (List.find? (fun row => decide (row.taskId = id))
    (List.filter (rowFenced (openRows ledger dbOpen)) (openRows ledger dbOpen)))).isSome = true ↔ _
  simp [List.find?_isSome]

theorem construct_placed (hkey : Table.KeyUnique LedgerRow.taskId ledger)
    (hused : ∀ row ∈ ledger, row.taskId ∈ usedIds) :
    Placed (construct config ledger dbOpen env usedIds : Scheduler ω κ) := by
  classical
  have hnodup := openRows_nodup hkey dbOpen
  let place : String → Place ω κ := fun id =>
    if ∃ row ∈ openRows ledger dbOpen,
      rowFenced (openRows ledger dbOpen) row = true ∧ row.taskId = id then .done
    else if ∃ row ∈ openRows ledger dbOpen, row.taskId = id then .pending
    else .absent
  have hmem {t : VerificationTask} :
      t ∈ (construct config ledger dbOpen env usedIds : Scheduler ω κ).pending ↔ _ :=
    mem_construct_pending
  have hpending : ∀ row ∈ openRows ledger dbOpen,
      rowFenced (openRows ledger dbOpen) row = false → place row.taskId = .pending := by
    intro row hrow hfree
    have hnot : ¬ ∃ row' ∈ openRows ledger dbOpen,
        rowFenced (openRows ledger dbOpen) row' = true ∧ row'.taskId = row.taskId := by
      rintro ⟨row', hrow', hf, hid⟩
      rw [row_inj hnodup hrow' hrow hid, hfree] at hf
      cases hf
    simp only [place, if_neg hnot, if_pos (⟨row, hrow, rfl⟩ : ∃ row' ∈ openRows ledger dbOpen,
      row'.taskId = row.taskId)]
  have hids : ((construct config ledger dbOpen env usedIds : Scheduler ω κ).pending.map
      VerificationTask.taskId).Nodup := by
    change (List.map VerificationTask.taskId (List.map LedgerRow.task (List.filter _ _))).Nodup
    rw [List.map_map]
    exact hnodup.sublist (List.filter_sublist.map _)
  refine ⟨place, ?_, hids.of_map, ?_, ?_, ?_, ?_, ?_, ?_, ?_, ?_, hids, ?_⟩
  · intro t ht
    refine ⟨ht, ?_⟩
    obtain ⟨row, hrow, hfree, rfl⟩ := hmem.mp ht
    exact hpending row hrow hfree
  · intro a t ht
    cases ht
  · intro a
    exact List.nodup_nil
  · intro w t ht
    cases ht
  · intro id
    rw [construct_results]
    simp only [place]
    split
    · rename_i hex
      simp only [hex]
    · rename_i hex
      simp only [hex, false_iff]
      split <;> simp
  · intro c t ht
    cases ht
  · intro c t ht
    cases ht
  · intro t ht
    obtain ⟨row, hrow, hfree, rfl⟩ := hmem.mp ht
    rw [row_task_taskId, hpending row hrow hfree]
    exact ht
  · intro id hid
    have hrow : ∃ row ∈ openRows ledger dbOpen, row.taskId = id := by
      by_contra hnot
      apply hid
      have hnot' : ¬ ∃ row ∈ openRows ledger dbOpen,
          rowFenced (openRows ledger dbOpen) row = true ∧ row.taskId = id := by
        rintro ⟨row, hrow, -, hrid⟩
        exact hnot ⟨row, hrow, hrid⟩
      simp only [place, if_neg hnot', if_neg hnot]
    obtain ⟨row, hrow, rfl⟩ := hrow
    exact hused row (openRows_mem hkey hrow)
  · intro t ht
    obtain ⟨row, hrow, -, rfl⟩ := hmem.mp ht
    exact List.mem_map_of_mem hrow

end Construct

end Scheduler

theorem constructed_placed (s : Scheduler ω κ) (h : s.Constructed) : Placed s := by
  obtain ⟨config, ledger, dbOpen, env, usedIds, hkey, hused, rfl⟩ := h
  exact Scheduler.construct_placed hkey hused

/-- A queue over an empty ledger. -/
def Scheduler.fresh (config : VerificationQueueConfig) (dbOpen : Bool) : Scheduler ω κ :=
  { tasks := []
    results := fun _ => none
    pending := []
    maxsize := max config.maxPending 1
    agentRunning := fun _ => false
    agentDeferred := fun _ => []
    agentPreclaimed := fun _ => none
    uncertainAgents := fun _ => none
    shutdown := false
    enqueueLock := none
    ledger := []
    dbOpen := dbOpen
    finishCount := 0
    worker := fun _ => .loopTop none
    caller := fun _ => .idle
    usedIds := []
    admitted := []
    executed := []
    recorded := [] }

theorem fresh_constructed (config : VerificationQueueConfig) (dbOpen : Bool) :
    (Scheduler.fresh config dbOpen : Scheduler ω κ).Constructed := by
  refine ⟨config, [], dbOpen, ⟨fun _ => none, fun _ => 0, fun _ => 0⟩, [], List.nodup_nil,
    by simp, ?_⟩
  have hrows : recoveredRows [] = [] := by simp [recoveredRows, loadPendingTasks]
  cases dbOpen <;> simp [Scheduler.fresh, Scheduler.construct, hrows, recoveredUncertain]

end KiwiCatalog.Queue
