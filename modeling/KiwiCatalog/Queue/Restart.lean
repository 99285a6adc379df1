import KiwiCatalog.Queue.LedgerInvariant

/-!
# Restart — queue instances one after the other on the same ledger

A process may crash at any moment, also while it recovers.  What is left is the ledger as it was
last committed; the next instance is constructed over it.  A failed commit leaves its transaction
open, so that the durable ledger may stay behind the one the connection shows.
-/

set_option autoImplicit false
set_option linter.unusedSectionVars false

namespace KiwiCatalog.Queue

open Transition

variable {ω κ : Type} [DecidableEq ω] [DecidableEq κ]

structure Restart (ω κ : Type) where
  queue : Scheduler ω κ
  durable : Ledger
  -- the runs of earlier instances
  past : List VerificationTask

namespace Restart

/-- The tasks handed to `_run_task_with_timeout` in any instance so far. -/
def runs (s : Restart ω κ) : List VerificationTask := s.queue.executed ++ s.past

/-- The open rows that a construction over `ledger` marks unknown. -/
def fencedRows (ledger : Ledger) : List LedgerRow :=
  (Scheduler.openRows ledger true).filter (Scheduler.rowFenced (Scheduler.openRows ledger true))

/-- A construction that dies after it has marked `n` rows. -/
inductive CrashedRecovery : Ledger → Ledger → Prop
  | after {ledger : Ledger} (env : RecoveryEnv) (n : Nat) :
      CrashedRecovery ledger (((fencedRows ledger).take n).foldl (markRecovered env) ledger)

/-- The process dies, and so may any number of its successors in their recovery; the next one
starts. -/
inductive Restarts : Restart ω κ → Restart ω κ → Prop
  | reconstructs {s : Restart ω κ} (config : VerificationQueueConfig) (env : RecoveryEnv)
      {ledger : Ledger} (hledger : Run CrashedRecovery s.durable ledger) :
      Restarts s
        { queue := Scheduler.construct config ledger true env s.queue.usedIds
          durable := (fencedRows ledger).foldl (markRecovered env) ledger
          past := s.runs }

inductive Step : Restart ω κ → Restart ω κ → Prop
  -- with its write committed, or left in an open transaction
  | moves {s : Restart ω κ} {queue : Scheduler ω κ} {durable : Ledger}
      (h : SchedulerStep s.queue queue) (hcommit : durable = queue.ledger ∨ durable = s.durable) :
      Step s { s with queue := queue, durable := durable }
  | restarts {s s' : Restart ω κ} (h : Restarts s s') : Step s s'

/-- The first instance, over any ledger whose primary key holds. -/
def Started (s : Restart ω κ) : Prop :=
  s.queue.Constructed ∧ s.durable = s.queue.ledger ∧ s.past = []

end Restart

/-! ## Marking rows unknown -/

/-- The agents with a running row. -/
def RunningAgent (ledger : Ledger) (agent : String) : Prop :=
  ∃ row ∈ ledger, row.status = .running ∧ row.catalogAgentId = agent

/-- `row'` is `row`, or `row` after it was marked unknown. -/
structure Remarked (row row' : LedgerRow) : Prop where
  task : row'.task = row.task
  startedAt : row'.startedAt = row.startedAt
  status : row' = row ∨ row.unresolved = true ∧ row'.status = .running

theorem remarked_refl (row : LedgerRow) : Remarked row row := ⟨rfl, rfl, .inl rfl⟩

namespace Remarked

variable {row row' row'' : LedgerRow}

theorem taskId (h : Remarked row row') : row'.taskId = row.taskId :=
  congrArg VerificationTask.taskId h.task

theorem agent (h : Remarked row row') : row'.catalogAgentId = row.catalogAgentId :=
  congrArg VerificationTask.catalogAgentId h.task

theorem unresolved (h : Remarked row row') : row'.unresolved = row.unresolved := by
  rcases h.status with rfl | ⟨hopen, hrun⟩
  · rfl
  · rw [hopen]
    exact unresolved_iff.mpr (.inr hrun)

theorem running (h : Remarked row row') (hrow : row.status = .running) :
    row'.status = .running := by
  rcases h.status with rfl | ⟨-, hrun⟩
  · exact hrow
  · exact hrun

theorem trans (h : Remarked row row') (h' : Remarked row' row'') : Remarked row row'' := by
  refine ⟨h'.task.trans h.task, h'.startedAt.trans h.startedAt, ?_⟩
  rcases h'.status with rfl | ⟨hopen, hrun⟩
  · exact h.status
  · rw [h.unresolved] at hopen
    exact .inr ⟨hopen, hrun⟩

theorem markUnknown (error : String) (finishedAt : Nat) (row : LedgerRow) :
    Remarked row (row.markUnknown error finishedAt) := by
  unfold LedgerRow.markUnknown
  split
  · rename_i hopen
    exact ⟨rfl, rfl, .inr ⟨hopen, rfl⟩⟩
  · exact remarked_refl row

end Remarked

/-- `ledger'` is `ledger` with some open rows of agents in `marked` marked unknown. -/
def RemarkedAll (marked : String → Prop) (ledger ledger' : Ledger) : Prop :=
  List.Forall₂
    (fun row row' => Remarked row row' ∧ (row' ≠ row → marked row.catalogAgentId)) ledger ledger'

theorem remarkedAll_refl (marked : String → Prop) (ledger : Ledger) :
    RemarkedAll marked ledger ledger :=
  List.forall₂_same.mpr fun row _ => ⟨remarked_refl row, fun h => absurd rfl h⟩

namespace RemarkedAll

variable {marked : String → Prop} {ledger ledger' ledger'' : Ledger}

theorem trans (h : RemarkedAll marked ledger ledger') (h' : RemarkedAll marked ledger' ledger'') :
    RemarkedAll marked ledger ledger'' := by
  induction h generalizing ledger'' with
  | nil => exact h'
  | @cons row row' rows rows' hrow hrows ih =>
    obtain ⟨row'', rows'', hrow', hrows', rfl⟩ := List.forall₂_cons_left_iff.mp h'
    refine .cons ⟨hrow.1.trans hrow'.1, fun hne => ?_⟩ (ih hrows')
    by_cases heq : row' = row
    · subst heq
      exact hrow'.2 hne
    · exact hrow.2 heq

theorem mem_right (h : RemarkedAll marked ledger ledger') {row' : LedgerRow}
    (hrow : row' ∈ ledger') :
    ∃ row ∈ ledger, Remarked row row' ∧ (row' ≠ row → marked row.catalogAgentId) := by
  induction h with
  | nil => cases hrow
  | cons hhead _ ih =>
    rcases List.mem_cons.mp hrow with rfl | hrow
    · exact ⟨_, List.mem_cons_self, hhead⟩
    · obtain ⟨row, hmem, h⟩ := ih hrow
      exact ⟨row, List.mem_cons_of_mem _ hmem, h⟩

theorem mem_left (h : RemarkedAll marked ledger ledger') {row : LedgerRow} (hrow : row ∈ ledger) :
    ∃ row' ∈ ledger', Remarked row row' ∧ (row' ≠ row → marked row.catalogAgentId) := by
  induction h with
  | nil => cases hrow
  | cons hhead _ ih =>
    rcases List.mem_cons.mp hrow with rfl | hrow
    · exact ⟨_, List.mem_cons_self, hhead⟩
    · obtain ⟨row', hmem, h⟩ := ih hrow
      exact ⟨row', List.mem_cons_of_mem _ hmem, h⟩

theorem taskIds (h : RemarkedAll marked ledger ledger') :
    ledger'.map LedgerRow.taskId = ledger.map LedgerRow.taskId := by
  induction h with
  | nil => rfl
  | cons hhead _ ih => rw [List.map_cons, List.map_cons, hhead.1.taskId, ih]

theorem keys (h : RemarkedAll marked ledger ledger') (hkeys : Table.KeyUnique LedgerRow.taskId ledger) :
    Table.KeyUnique LedgerRow.taskId ledger' := by
  unfold Table.KeyUnique at hkeys ⊢
  rwa [h.taskIds]

theorem used (h : RemarkedAll marked ledger ledger') {usedIds : List String}
    (hused : ∀ row ∈ ledger, row.taskId ∈ usedIds) : ∀ row ∈ ledger', row.taskId ∈ usedIds := by
  intro row' hrow'
  obtain ⟨row, hrow, hre, -⟩ := h.mem_right hrow'
  rw [hre.taskId]
  exact hused row hrow

/-- When only agents with a running row are marked, no other agent gets one. -/
theorem runningAgent (h : RemarkedAll (RunningAgent ledger) ledger ledger') (agent : String) :
    RunningAgent ledger' agent ↔ RunningAgent ledger agent := by
  constructor
  · rintro ⟨row', hrow', hrun, rfl⟩
    obtain ⟨row, hrow, hre, hmark⟩ := h.mem_right hrow'
    rw [hre.agent]
    by_cases heq : row' = row
    · subst heq
      exact ⟨row', hrow, hrun, rfl⟩
    · exact hmark heq
  · rintro ⟨row, hrow, hrun, rfl⟩
    obtain ⟨row', hrow', hre, -⟩ := h.mem_left hrow
    exact ⟨row', hrow', hre.running hrun, hre.agent⟩

end RemarkedAll

/-! ## What recovery does to the ledger -/

theorem remarkedAll_markRecovered {marked : String → Prop} {ledger : Ledger} {row : LedgerRow}
    (env : RecoveryEnv) (hkeys : Table.KeyUnique LedgerRow.taskId ledger)
    (hrow : ∃ row₀ ∈ ledger, row₀.taskId = row.taskId ∧ marked row₀.catalogAgentId) :
    RemarkedAll marked ledger (markRecovered env ledger row) := by
  unfold markRecovered
  split
  · unfold markTaskUnknown Table.updateWhere RemarkedAll
    rw [List.forall₂_map_right_iff, List.forall₂_same]
    intro r hr
    by_cases hid : hasTaskId row.taskId r = true
    · rw [if_pos hid]
      refine ⟨.markUnknown _ _ r, fun _ => ?_⟩
      obtain ⟨row₀, hrow₀, hid₀, hmark⟩ := hrow
      rwa [row_inj hkeys hr hrow₀ ((hasTaskId_iff.mp hid).trans hid₀.symm)]
    · rw [if_neg hid]
      exact ⟨remarked_refl r, fun h => absurd rfl h⟩
  · exact remarkedAll_refl marked ledger

theorem remarkedAll_foldl {marked : String → Prop} {ledger : Ledger} (env : RecoveryEnv)
    {rows : List LedgerRow} (hkeys : Table.KeyUnique LedgerRow.taskId ledger)
    (hrows : ∀ row ∈ rows, row ∈ ledger ∧ marked row.catalogAgentId) :
    RemarkedAll marked ledger (rows.foldl (markRecovered env) ledger) := by
  suffices h : ∀ acc, RemarkedAll marked ledger acc →
      RemarkedAll marked ledger (rows.foldl (markRecovered env) acc) from
    h ledger (remarkedAll_refl marked ledger)
  induction rows with
  | nil => exact fun acc hacc => hacc
  | cons row rows ih =>
    intro acc hacc
    obtain ⟨hrow, hmark⟩ := hrows row List.mem_cons_self
    obtain ⟨row', hrow', hre, -⟩ := hacc.mem_left hrow
    apply ih fun r hr => hrows r (List.mem_cons_of_mem row hr)
    apply hacc.trans (remarkedAll_markRecovered env (hacc.keys hkeys) ⟨row', hrow', hre.taskId, ?_⟩)
    rwa [hre.agent]

theorem rowFenced_iff {ledger : Ledger} (hkeys : Table.KeyUnique LedgerRow.taskId ledger)
    (row : LedgerRow) :
    Scheduler.rowFenced (Scheduler.openRows ledger true) row = true ↔
      RunningAgent ledger row.catalogAgentId := by
  rw [Scheduler.rowFenced, recoveredUncertain_isSome]
  constructor
  · rintro ⟨r, hr, hrun, hagent⟩
    exact ⟨r, Scheduler.openRows_mem hkeys hr, hrun, hagent⟩
  · rintro ⟨r, hr, hrun, hagent⟩
    exact ⟨r, (mem_recoveredRows hkeys).mpr ⟨hr, unresolved_iff.mpr (.inr hrun)⟩, hrun, hagent⟩

theorem mem_fencedRows {ledger : Ledger} (hkeys : Table.KeyUnique LedgerRow.taskId ledger)
    {row : LedgerRow} :
    row ∈ Restart.fencedRows ledger ↔
      row ∈ ledger ∧ row.unresolved = true ∧ RunningAgent ledger row.catalogAgentId := by
  rw [Restart.fencedRows, List.mem_filter, rowFenced_iff hkeys]
  exact ⟨fun ⟨h, hagent⟩ => and_assoc.mp ⟨(mem_recoveredRows hkeys).mp h, hagent⟩,
    fun ⟨hrow, hopen, hagent⟩ => ⟨(mem_recoveredRows hkeys).mpr ⟨hrow, hopen⟩, hagent⟩⟩

theorem recovery_remarks {ledger : Ledger} (hkeys : Table.KeyUnique LedgerRow.taskId ledger)
    (env : RecoveryEnv) {rows : List LedgerRow} (hrows : rows ⊆ Restart.fencedRows ledger) :
    RemarkedAll (RunningAgent ledger) ledger (rows.foldl (markRecovered env) ledger) := by
  apply remarkedAll_foldl env hkeys
  intro row hrow
  obtain ⟨hmem, -, hagent⟩ := (mem_fencedRows hkeys).mp (hrows hrow)
  exact ⟨hmem, hagent⟩

theorem crashedRecovery_remarks {ledger ledger' : Ledger}
    (hrun : Run Restart.CrashedRecovery ledger ledger')
    (hkeys : Table.KeyUnique LedgerRow.taskId ledger) :
    RemarkedAll (RunningAgent ledger) ledger ledger' := by
  induction hrun with
  | refl => exact remarkedAll_refl _ ledger
  | @tail crashed _ _ hlast ih =>
    cases hlast with
    | after env n =>
      have hmore := recovery_remarks (ih.keys hkeys) env
        (List.take_subset n (Restart.fencedRows crashed))
      have hsame : RunningAgent crashed = RunningAgent ledger :=
        funext fun agent => propext (ih.runningAgent agent)
      rw [hsame] at hmore
      exact ih.trans hmore

/-! ## The new instance -/

section Construct

variable {config : VerificationQueueConfig} {ledger : Ledger} {dbOpen : Bool} {env : RecoveryEnv}
  {usedIds : List String}

theorem construct_remarks (hkeys : Table.KeyUnique LedgerRow.taskId ledger) :
    RemarkedAll (RunningAgent ledger) ledger
      (Scheduler.construct config ledger dbOpen env usedIds : Scheduler ω κ).ledger := by
  cases dbOpen with
  | true => exact recovery_remarks hkeys env (List.Subset.refl (Restart.fencedRows ledger))
  | false => exact remarkedAll_refl _ ledger

theorem mem_construct_pending_iff (hkeys : Table.KeyUnique LedgerRow.taskId ledger)
    {t : VerificationTask} :
    t ∈ (Scheduler.construct config ledger true env usedIds : Scheduler ω κ).pending ↔
      ∃ row ∈ ledger, row.status = .pending ∧ ¬ RunningAgent ledger row.catalogAgentId ∧
        row.task = t := by
  rw [Scheduler.mem_construct_pending]
  constructor
  · rintro ⟨row, hrow, hfree, rfl⟩
    obtain ⟨hmem, hopen⟩ := (mem_recoveredRows hkeys).mp hrow
    have hnot : ¬ RunningAgent ledger row.catalogAgentId := by
      rw [← rowFenced_iff hkeys, hfree]
      simp
    refine ⟨row, hmem, ?_, hnot, rfl⟩
    rcases unresolved_iff.mp hopen with hpend | hrun
    · exact hpend
    · exact absurd ⟨row, hmem, hrun, rfl⟩ hnot
  · rintro ⟨row, hmem, hpend, hnot, rfl⟩
    refine ⟨row, (mem_recoveredRows hkeys).mpr ⟨hmem, unresolved_iff.mpr (.inl hpend)⟩, ?_, rfl⟩
    rwa [← Bool.not_eq_true, rowFenced_iff hkeys]

/-- Only a pending row of an agent without running rows is queued again. -/
theorem unstarted_construct (hkeys : Table.KeyUnique LedgerRow.taskId ledger) {id : String}
    (hu : Unstarted (Scheduler.construct config ledger dbOpen env usedIds : Scheduler ω κ) id) :
    ∃ row ∈ ledger, row.status = .pending ∧ ¬ RunningAgent ledger row.catalogAgentId ∧
      row.taskId = id := by
  rcases hu with ⟨t, ht, rfl⟩ | ⟨a, t, ht, -⟩ | ⟨w, t, ht, -⟩ | ⟨c, t, ht, -⟩
  · cases dbOpen with
    | true =>
      obtain ⟨row, hrow, hpend, hnot, rfl⟩ := (mem_construct_pending_iff hkeys).mp ht
      exact ⟨row, hrow, hpend, hnot, rfl⟩
    | false => cases ht
  all_goals cases ht

theorem ledgerInv_construct (hkeys : Table.KeyUnique LedgerRow.taskId ledger)
    (hused : ∀ row ∈ ledger, row.taskId ∈ usedIds) :
    LedgerInv (Scheduler.construct config ledger dbOpen env usedIds : Scheduler ω κ) := by
  have hremark : RemarkedAll (RunningAgent ledger) ledger
      (Scheduler.construct config ledger dbOpen env usedIds : Scheduler ω κ).ledger :=
    construct_remarks hkeys
  refine ⟨hremark.keys hkeys, hremark.used hused, fun id hu row' hrow' hid => ?_⟩
  obtain ⟨row, hrow, hpend, hnot, rfl⟩ := unstarted_construct hkeys hu
  obtain ⟨row₀, hrow₀, hre, hmark⟩ := hremark.mem_right hrow'
  obtain rfl := row_inj hkeys hrow₀ hrow (hre.taskId.symm.trans hid)
  by_cases heq : row' = row₀
  · rw [heq, hpend]
  · exact absurd (hmark heq) hnot

end Construct

end KiwiCatalog.Queue
