import KiwiCatalog.Queue.Scheduler

/-!
# Placement — every admitted task is in one place

A place is assigned to each task id, and the four structures of the queue, the callers and the
workers agree with it.  One step moves at most one task.
-/

set_option autoImplicit false
set_option linter.unusedSectionVars false

namespace KiwiCatalog.Queue

open Transition

variable {ω κ : Type}

inductive Place (ω κ : Type)
  | absent
  | candidate (c : κ)
  | pending
  | deferred
  | held (w : ω)
  | done

/-- The task a worker is responsible for: from its dequeue to its result, and a handed-over task
until it is queued again. -/
def WorkerPc.holds : WorkerPc → Option VerificationTask
  | .loopTop handoff | .checkingDrained handoff | .fetching handoff => handoff
  | .claiming task | .requeueing task => some task
  | .busy _ _ .releasing => none
  | .busy task _ _ => some task
  | .exited => none

/-- The task a call of `enqueue` has registered and not yet disposed of. -/
def CallerPc.holds : CallerPc → Option VerificationTask
  | .inserting task | .droppingUninserted task | .locking task | .deletingRefused task
  | .droppingRefused task | .checkingFence task | .putting task | .deletingOverflow task
  | .droppingOverflow task => some task
  | .idle | .checkingBlocker _ | .deduplicating _ | .reusing _ | .registering _
  | .finished _ => none

/-- The structure that a place names has the task. -/
def Covered (s : Scheduler ω κ) (task : VerificationTask) : Place ω κ → Prop
  | .absent | .candidate _ => False
  | .pending => task ∈ s.pending
  | .deferred => task ∈ s.agentDeferred task.catalogAgentId
  | .held w => (s.worker w).holds = some task
  | .done => (s.results task.taskId).isSome = true

structure PlaceInv (place : String → Place ω κ) (s : Scheduler ω κ) : Prop where
  pending : ∀ t ∈ s.pending, t ∈ s.admitted ∧ place t.taskId = .pending
  pendingNodup : s.pending.Nodup
  deferred : ∀ a, ∀ t ∈ s.agentDeferred a,
    t ∈ s.admitted ∧ t.catalogAgentId = a ∧ place t.taskId = .deferred
  deferredNodup : ∀ a, (s.agentDeferred a).Nodup
  held : ∀ w t, (s.worker w).holds = some t → t ∈ s.admitted ∧ place t.taskId = .held w
  done : ∀ id, (s.results id).isSome = true ↔ place id = .done
  candidate : ∀ c t, (s.caller c).holds = some t → place t.taskId = .candidate c
  registered : ∀ c t, (s.caller c).holds = some t → t ∈ s.tasks
  covered : ∀ t ∈ s.admitted, Covered s t (place t.taskId)
  used : ∀ id, place id ≠ .absent → id ∈ s.usedIds
  admittedIds : (s.admitted.map VerificationTask.taskId).Nodup
  admittedTasks : ∀ t ∈ s.admitted, t ∈ s.tasks

/-- Every admitted task is in exactly the place assigned to its id. -/
def Placed (s : Scheduler ω κ) : Prop := ∃ place, PlaceInv place s

namespace PlaceInv

variable {place : String → Place ω κ} {s s' : Scheduler ω κ}

theorem admitted_inj (h : PlaceInv place s) {t t' : VerificationTask} (ht : t ∈ s.admitted)
    (ht' : t' ∈ s.admitted) (hid : t.taskId = t'.taskId) : t = t' :=
  List.inj_on_of_nodup_map h.admittedIds ht ht' hid

/-- A step that moves no task keeps the assignment. -/
theorem congr (h : PlaceInv place s) (hpending : s'.pending = s.pending)
    (hdeferred : s'.agentDeferred = s.agentDeferred)
    (hheld : ∀ w, (s'.worker w).holds = (s.worker w).holds) (hresults : s'.results = s.results)
    (hcaller : ∀ c t, (s'.caller c).holds = some t → (s.caller c).holds = some t)
    (hused : s'.usedIds = s.usedIds) (hadmitted : s'.admitted = s.admitted)
    (htasks : ∀ t, (t ∈ s.admitted ∨ ∃ c, (s'.caller c).holds = some t) → t ∈ s.tasks →
      t ∈ s'.tasks) : PlaceInv place s' where
  pending := by rw [hpending, hadmitted]; exact h.pending
  pendingNodup := by rw [hpending]; exact h.pendingNodup
  deferred := by rw [hdeferred, hadmitted]; exact h.deferred
  deferredNodup := by rw [hdeferred]; exact h.deferredNodup
  held := by
    intro w t ht
    rw [hheld] at ht
    rw [hadmitted]
    exact h.held w t ht
  done := by rw [hresults]; exact h.done
  candidate := fun c t ht => h.candidate c t (hcaller c t ht)
  registered := fun c t ht => htasks t (.inr ⟨c, ht⟩) (h.registered c t (hcaller c t ht))
  covered := by
    intro t ht
    rw [hadmitted] at ht
    have hcov := h.covered t ht
    cases hp : place t.taskId <;> rw [hp] at hcov <;>
      simp_all only [Covered]
  used := by rw [hused]; exact h.used
  admittedIds := by rw [hadmitted]; exact h.admittedIds
  admittedTasks := by
    intro t ht
    rw [hadmitted] at ht
    exact htasks t (.inl ht) (h.admittedTasks t ht)

/-- A step that takes one admitted task out of its place and puts it into another one. -/
theorem move (h : PlaceInv place s) {task : VerificationTask} (dest : Place ω κ)
    (hadm : task ∈ s.admitted) (hto : Covered s' task dest)
    (hpending : ∀ t, t ∈ s'.pending ↔ (t ∈ s.pending ∧ t ≠ task) ∨ (t = task ∧ dest = .pending))
    (hpendingNodup : s'.pending.Nodup)
    (hdeferred : ∀ a t, t ∈ s'.agentDeferred a ↔
      (t ∈ s.agentDeferred a ∧ t ≠ task) ∨
        (t = task ∧ a = task.catalogAgentId ∧ dest = .deferred))
    (hdeferredNodup : ∀ a, (s'.agentDeferred a).Nodup)
    (hheld : ∀ w t, (s'.worker w).holds = some t ↔
      ((s.worker w).holds = some t ∧ t ≠ task) ∨ (t = task ∧ dest = .held w))
    (hdone : ∀ id, (s'.results id).isSome = true ↔
      ((s.results id).isSome = true ∧ id ≠ task.taskId) ∨ (id = task.taskId ∧ dest = .done))
    (hcaller : s'.caller = s.caller) (hused : s'.usedIds = s.usedIds)
    (hadmitted : s'.admitted = s.admitted) (htasks : s'.tasks = s.tasks) :
    PlaceInv (Function.update place task.taskId dest) s' := by
  have hother : ∀ t ∈ s.admitted, t ≠ task →
      Function.update place task.taskId dest t.taskId = place t.taskId := by
    intro t ht hne
    apply Function.update_of_ne
    intro hid
    exact hne (h.admitted_inj ht hadm hid)
  have hself : Function.update place task.taskId dest task.taskId = dest :=
    Function.update_self _ _ _
  refine ⟨?_, hpendingNodup, ?_, hdeferredNodup, ?_, ?_, ?_, ?_, ?_, ?_, ?_, ?_⟩
  · intro t ht
    rw [hadmitted]
    rcases (hpending t).mp ht with ⟨hmem, hne⟩ | ⟨rfl, rfl⟩
    · obtain ⟨hta, hp⟩ := h.pending t hmem
      exact ⟨hta, by rw [hother t hta hne, hp]⟩
    · exact ⟨hadm, hself⟩
  · intro a t ht
    rw [hadmitted]
    rcases (hdeferred a t).mp ht with ⟨hmem, hne⟩ | ⟨rfl, rfl, rfl⟩
    · obtain ⟨hta, hagent, hp⟩ := h.deferred a t hmem
      exact ⟨hta, hagent, by rw [hother t hta hne, hp]⟩
    · exact ⟨hadm, rfl, hself⟩
  · intro w t ht
    rw [hadmitted]
    rcases (hheld w t).mp ht with ⟨hmem, hne⟩ | ⟨rfl, rfl⟩
    · obtain ⟨hta, hp⟩ := h.held w t hmem
      exact ⟨hta, by rw [hother t hta hne, hp]⟩
    · exact ⟨hadm, hself⟩
  · intro id
    rw [hdone id]
    by_cases hid : id = task.taskId
    · subst hid
      rw [hself]
      simp
    · rw [Function.update_of_ne hid, ← h.done id]
      simp [hid]
  · intro c t ht
    rw [hcaller] at ht
    have hc := h.candidate c t ht
    have hcov := h.covered task hadm
    have hne : t.taskId ≠ task.taskId := by
      intro hid
      rw [← hid, hc] at hcov
      exact hcov
    rw [Function.update_of_ne hne, hc]
  · rw [hcaller, htasks]
    exact h.registered
  · intro t ht
    rw [hadmitted] at ht
    by_cases hne : t = task
    · subst hne
      rw [hself]
      exact hto
    · rw [hother t ht hne]
      have hcov := h.covered t ht
      cases hp : place t.taskId with
      | absent | candidate => rw [hp] at hcov; exact hcov.elim
      | pending => rw [hp] at hcov; exact (hpending t).mpr (.inl ⟨hcov, hne⟩)
      | deferred => rw [hp] at hcov; exact (hdeferred _ t).mpr (.inl ⟨hcov, hne⟩)
      | held w => rw [hp] at hcov; exact (hheld w t).mpr (.inl ⟨hcov, hne⟩)
      | done =>
        rw [hp] at hcov
        have hid : t.taskId ≠ task.taskId := fun hid => hne (h.admitted_inj ht hadm hid)
        exact (hdone t.taskId).mpr (.inl ⟨hcov, hid⟩)
  · intro id hid
    rw [hused]
    by_cases htask : id = task.taskId
    · apply h.used
      intro habs
      have hcov := h.covered task hadm
      rw [← htask, habs] at hcov
      exact hcov
    · rw [Function.update_of_ne htask] at hid
      exact h.used id hid
  · rw [hadmitted]
    exact h.admittedIds
  · rw [hadmitted, htasks]
    exact h.admittedTasks

end PlaceInv

/-! ## The workers' steps -/

variable [DecidableEq ω] [DecidableEq κ]

/-- A busy worker's own moves stay between the call and the result. -/
theorem stageStep_stages {task : VerificationTask} {sh sh' : Shared} {stage stage' : Stage}
    (h : StageStep task sh stage sh' stage') :
    stage ≠ .starting ∧ stage ≠ .releasing ∧ stage' ≠ .starting ∧ stage' ≠ .releasing := by
  cases h <;> simp

theorem holds_busy {task : VerificationTask} {fenced : Bool} {stage : Stage}
    (h : stage ≠ .releasing) : (WorkerPc.busy task fenced stage).holds = some task := by
  cases stage <;> first | rfl | exact absurd rfl h

theorem holds_update {worker : ω → WorkerPc} {w : ω} {pc : WorkerPc}
    (h : pc.holds = (worker w).holds) (w' : ω) :
    (Function.update worker w pc w').holds = (worker w').holds := by
  by_cases hw : w' = w
  · subst hw
    rw [Function.update_self, h]
  · rw [Function.update_of_ne hw]

namespace PlaceInv

variable {place : String → Place ω κ} {s : Scheduler ω κ}

theorem held_unique (h : PlaceInv place s) {w w' : ω} {t : VerificationTask}
    (hw : (s.worker w).holds = some t) (hw' : (s.worker w').holds = some t) : w = w' := by
  have hp := (h.held w t hw).2
  rw [(h.held w' t hw').2] at hp
  exact (Place.held.inj hp).symm

/-- The worker `w` gives up the task it held. -/
theorem held_leave (h : PlaceInv place s) {w : ω} {task : VerificationTask} {pc : WorkerPc}
    {dest : Place ω κ} (hw : (s.worker w).holds = some task) (hpc : pc.holds = none)
    (hdest : ∀ w', dest ≠ .held w') (w' : ω) (t : VerificationTask) :
    (Function.update s.worker w pc w').holds = some t ↔
      ((s.worker w').holds = some t ∧ t ≠ task) ∨ (t = task ∧ dest = .held w') := by
  by_cases hww : w' = w
  · subst hww
    rw [Function.update_self, hpc, hw]
    simp only [Option.some.injEq, hdest, and_false, or_false]
    constructor
    · intro h
      cases h
    · rintro ⟨rfl, hne⟩
      exact absurd rfl hne
  · rw [Function.update_of_ne hww]
    simp only [hdest, and_false, or_false]
    constructor
    · intro ht
      refine ⟨ht, ?_⟩
      rintro rfl
      exact hww (h.held_unique ht hw)
    · exact fun ht => ht.1

/-- The worker `w`, which held nothing, takes a task that no worker holds. -/
theorem held_enter (h : PlaceInv place s) {w : ω} {task : VerificationTask} {pc : WorkerPc}
    (hw : (s.worker w).holds = none) (hpc : pc.holds = some task)
    (hplace : ∀ w', place task.taskId ≠ .held w') (w' : ω) (t : VerificationTask) :
    (Function.update s.worker w pc w').holds = some t ↔
      ((s.worker w').holds = some t ∧ t ≠ task) ∨
        (t = task ∧ (Place.held w : Place ω κ) = .held w') := by
  by_cases hww : w' = w
  · subst hww
    rw [Function.update_self, hpc, hw]
    simp only [Option.some.injEq, reduceCtorEq, false_and, and_true, false_or]
    exact eq_comm
  · rw [Function.update_of_ne hww]
    have hne : ¬ (Place.held w : Place ω κ) = .held w' := fun he => hww (Place.held.inj he).symm
    simp only [hne, and_false, or_false]
    constructor
    · intro ht
      refine ⟨ht, ?_⟩
      rintro rfl
      exact hplace w' (h.held w' t ht).2
    · exact fun ht => ht.1

theorem no_result_of_held (h : PlaceInv place s) {w : ω} {t : VerificationTask}
    (hw : (s.worker w).holds = some t) : (s.results t.taskId).isSome ≠ true := by
  intro hsome
  have hdone := (h.done t.taskId).mp hsome
  rw [(h.held w t hw).2] at hdone
  cases hdone

/-- Once every registered task has a result no worker holds one. -/
theorem no_holder_of_drained (h : PlaceInv place s) (hdrained : s.admittedDrained = true)
    (w : ω) : (s.worker w).holds = none := by
  cases hw : (s.worker w).holds with
  | none => rfl
  | some t =>
    have ht := h.admittedTasks t (h.held w t hw).1
    have hres := List.all_eq_true.mp hdrained t ht
    exact absurd hres (h.no_result_of_held hw)

/-- Steps that change one worker's position but not the task it holds. -/
theorem setWorker (h : PlaceInv place s) {w : ω} {pc : WorkerPc}
    (hpc : pc.holds = (s.worker w).holds) : PlaceInv place (s.setWorker w pc) :=
  h.congr rfl rfl (holds_update hpc) rfl (fun _ _ ht => ht) rfl rfl (fun _ _ ht => ht)

end PlaceInv

theorem placed_dequeue {s : Scheduler ω κ} {w : ω} {task : VerificationTask}
    {rest : List VerificationTask} (h : Placed s) (hw : (s.worker w).holds = none)
    (hpending : s.pending = task :: rest) :
    Placed { s.setWorker w (.claiming task) with pending := rest } := by
  obtain ⟨place, h⟩ := h
  have hnodup := h.pendingNodup
  rw [hpending, List.nodup_cons] at hnodup
  obtain ⟨hadm, hplace⟩ := h.pending task (by simp [hpending])
  refine ⟨_, h.move (.held w) hadm ?_ ?_ hnodup.2 ?_ h.deferredNodup ?_ ?_ rfl rfl rfl rfl⟩
  · simp [Covered, Scheduler.setWorker, WorkerPc.holds]
  · intro t
    have hne : t ∈ rest → t ≠ task := fun ht he => hnodup.1 (he ▸ ht)
    simp only [hpending, List.mem_cons, reduceCtorEq, and_false, or_false]
    tauto
  · intro a t
    simp only [reduceCtorEq, and_false, or_false]
    refine ⟨fun ht => ⟨ht, ?_⟩, fun ht => ht.1⟩
    rintro rfl
    have hp := (h.deferred a t ht).2.2
    rw [hplace] at hp
    cases hp
  · exact h.held_enter hw rfl (by simp [hplace])
  · intro id
    simp only [reduceCtorEq, and_false, or_false]
    refine ⟨fun hid => ⟨hid, ?_⟩, fun hid => hid.1⟩
    rintro rfl
    have hp := (h.done _).mp hid
    rw [hplace] at hp
    cases hp

theorem placed_claim {s : Scheduler ω κ} {w : ω} {task : VerificationTask} (h : Placed s)
    (hpc : s.worker w = .claiming task) : Placed (s.claim w task) := by
  obtain ⟨place, h⟩ := h
  have hw : (s.worker w).holds = some task := by rw [hpc]; rfl
  obtain ⟨hadm, hplace⟩ := h.held w task hw
  unfold Scheduler.claim
  dsimp only
  split
  · have hnot : ∀ a t, t ∈ s.agentDeferred a → t ≠ task := by
      rintro a t ht rfl
      have hp := (h.deferred a t ht).2.2
      rw [hplace] at hp
      cases hp
    refine ⟨_, h.move .deferred hadm ?_ ?_ h.pendingNodup ?_ ?_ ?_ ?_ rfl rfl rfl rfl⟩
    · simp [Covered]
    · intro t
      simp only [reduceCtorEq, and_false, or_false]
      refine ⟨fun ht => ⟨ht, ?_⟩, fun ht => ht.1⟩
      rintro rfl
      have hp := (h.pending t ht).2
      rw [hplace] at hp
      cases hp
    · intro a t
      dsimp only
      by_cases ha : a = task.catalogAgentId
      · subst ha
        rw [Function.update_self, List.mem_append, List.mem_singleton]
        have := hnot task.catalogAgentId t
        tauto
      · rw [Function.update_of_ne ha]
        have := hnot a t
        tauto
    · intro a
      dsimp only
      by_cases ha : a = task.catalogAgentId
      · subst ha
        rw [Function.update_self, List.nodup_append]
        refine ⟨h.deferredNodup _, List.nodup_singleton _, ?_⟩
        intro t ht t' ht'
        rw [List.mem_singleton] at ht'
        subst ht'
        exact hnot _ t ht
      · rw [Function.update_of_ne ha]
        exact h.deferredNodup a
    · exact h.held_leave hw rfl (by simp)
    · intro id
      simp only [reduceCtorEq, and_false, or_false]
      refine ⟨fun hid => ⟨hid, ?_⟩, fun hid => hid.1⟩
      rintro rfl
      exact h.no_result_of_held hw hid
  · refine ⟨place, h.congr rfl rfl (holds_update ?_) rfl (fun _ _ ht => ht) rfl rfl
      (fun _ _ ht => ht)⟩
    rw [hw]
    split <;> rfl

theorem placed_record {s : Scheduler ω κ} {w : ω} {task : VerificationTask} {fenced : Bool}
    {result : VerificationTaskResult} (h : Placed s)
    (hpc : s.worker w = .busy task fenced (.recording result)) :
    Placed ((s.storeResult task.taskId result).setWorker w (.busy task fenced .releasing)) := by
  obtain ⟨place, h⟩ := h
  have hw : (s.worker w).holds = some task := by rw [hpc]; rfl
  obtain ⟨hadm, hplace⟩ := h.held w task hw
  refine ⟨_, h.move .done hadm ?_ ?_ h.pendingNodup ?_ h.deferredNodup ?_ ?_
    rfl rfl rfl rfl⟩
  · simp [Covered, Scheduler.storeResult, Scheduler.setWorker]
  · intro t
    simp only [reduceCtorEq, and_false, or_false]
    refine ⟨fun ht => ⟨ht, ?_⟩, fun ht => ht.1⟩
    rintro rfl
    have hp := (h.pending t ht).2
    rw [hplace] at hp
    cases hp
  · intro a t
    simp only [reduceCtorEq, and_false, or_false]
    refine ⟨fun ht => ⟨ht, ?_⟩, fun ht => ht.1⟩
    rintro rfl
    have hp := (h.deferred a t ht).2.2
    rw [hplace] at hp
    cases hp
  · exact h.held_leave hw rfl (by simp)
  · intro id
    by_cases hid : id = task.taskId
    · subst hid
      simp [Scheduler.storeResult, Scheduler.setWorker]
    · simp [Scheduler.storeResult, Scheduler.setWorker, hid]

theorem placed_release {s : Scheduler ω κ} {w : ω} {task : VerificationTask} {fenced : Bool}
    (h : Placed s) (hpc : s.worker w = .busy task fenced .releasing) :
    Placed (s.release w task.catalogAgentId) := by
  obtain ⟨place, h⟩ := h
  have hw : (s.worker w).holds = none := by rw [hpc]; rfl
  unfold Scheduler.release
  split
  · exact ⟨place, h.congr rfl rfl (holds_update (by rw [hw]; rfl)) rfl (fun _ _ ht => ht) rfl rfl
      (fun _ _ ht => ht)⟩
  · rename_i next waiting hdef
    have hnodup := h.deferredNodup task.catalogAgentId
    rw [hdef, List.nodup_cons] at hnodup
    obtain ⟨hadm, hagent, hplace⟩ := h.deferred task.catalogAgentId next (by simp [hdef])
    refine ⟨_, h.move (.held w) hadm ?_ ?_ h.pendingNodup ?_ ?_ ?_ ?_ rfl rfl rfl rfl⟩
    · simp [Covered, WorkerPc.holds]
    · intro t
      simp only [reduceCtorEq, and_false, or_false]
      refine ⟨fun ht => ⟨ht, ?_⟩, fun ht => ht.1⟩
      rintro rfl
      have hp := (h.pending t ht).2
      rw [hplace] at hp
      cases hp
    · intro a t
      simp only [reduceCtorEq, and_false, or_false]
      by_cases ha : a = task.catalogAgentId
      · subst ha
        rw [Function.update_self, hdef, List.mem_cons]
        have hne : t ∈ waiting → t ≠ next := fun ht he => hnodup.1 (he ▸ ht)
        tauto
      · rw [Function.update_of_ne ha]
        refine ⟨fun ht => ⟨ht, ?_⟩, fun ht => ht.1⟩
        rintro rfl
        exact ha ((h.deferred a t ht).2.1.symm.trans hagent)
    · intro a
      dsimp only
      by_cases ha : a = task.catalogAgentId
      · subst ha
        rw [Function.update_self]
        exact hnodup.2
      · rw [Function.update_of_ne ha]
        exact h.deferredNodup a
    · exact h.held_enter hw rfl (by simp [hplace])
    · intro id
      simp only [reduceCtorEq, and_false, or_false]
      refine ⟨fun hid => ⟨hid, ?_⟩, fun hid => hid.1⟩
      rintro rfl
      have hp := (h.done _).mp hid
      rw [hplace] at hp
      cases hp

theorem placed_requeue {s : Scheduler ω κ} {w : ω} {next : VerificationTask} (h : Placed s)
    (hpc : s.worker w = .requeueing next) :
    Placed { s.setWorker w (.loopTop none) with pending := s.pending ++ [next] } := by
  obtain ⟨place, h⟩ := h
  have hw : (s.worker w).holds = some next := by rw [hpc]; rfl
  obtain ⟨hadm, hplace⟩ := h.held w next hw
  have hnot : ∀ t ∈ s.pending, t ≠ next := by
    rintro t ht rfl
    have hp := (h.pending t ht).2
    rw [hplace] at hp
    cases hp
  refine ⟨_, h.move .pending hadm ?_ ?_ ?_ ?_ h.deferredNodup ?_ ?_ rfl rfl rfl rfl⟩
  · simp [Covered]
  · intro t
    simp only [List.mem_append, List.mem_singleton, and_true]
    have := hnot t
    tauto
  · rw [List.nodup_append]
    refine ⟨h.pendingNodup, List.nodup_singleton _, ?_⟩
    intro t ht t' ht'
    rw [List.mem_singleton] at ht'
    subst ht'
    exact hnot t ht
  · intro a t
    simp only [reduceCtorEq, and_false, or_false]
    refine ⟨fun ht => ⟨ht, ?_⟩, fun ht => ht.1⟩
    rintro rfl
    have hp := (h.deferred a t ht).2.2
    rw [hplace] at hp
    cases hp
  · exact h.held_leave hw rfl (by simp)
  · intro id
    simp only [reduceCtorEq, and_false, or_false]
    refine ⟨fun hid => ⟨hid, ?_⟩, fun hid => hid.1⟩
    rintro rfl
    exact h.no_result_of_held hw hid

theorem placed_setWorker {s : Scheduler ω κ} {w : ω} {pc : WorkerPc} (h : Placed s)
    (hpc : pc.holds = (s.worker w).holds) : Placed (s.setWorker w pc) := by
  obtain ⟨place, h⟩ := h
  exact ⟨place, h.setWorker hpc⟩

theorem workerStep_placed {w : ω} {s s' : Scheduler ω κ} (hstep : WorkerStep w s s')
    (h : Placed s) : Placed s' := by
  cases hstep with
  | seesOpen hpc hopen => exact placed_setWorker h (by rw [hpc]; rfl)
  | seesShutdown hpc hshut => exact placed_setWorker h (by rw [hpc]; rfl)
  | exits hpc hdrained =>
    obtain ⟨place, h⟩ := h
    exact ⟨place, h.setWorker (h.no_holder_of_drained hdrained w).symm⟩
  | goesOn hpc hdrained => exact placed_setWorker h (by rw [hpc]; rfl)
  | takesHandoff hpc => exact placed_setWorker h (by rw [hpc]; rfl)
  | dequeues hpc hpending => exact placed_dequeue h (by rw [hpc]; rfl) hpending
  | findsEmpty hpc hpending => exact placed_setWorker h (by rw [hpc]; rfl)
  | claims hpc => exact placed_claim h hpc
  | runs hpc =>
    obtain ⟨place, h⟩ := h
    exact ⟨place, h.congr rfl rfl (holds_update (by rw [hpc]; rfl)) rfl (fun _ _ ht => ht) rfl rfl
      (fun _ _ ht => ht)⟩
  | works hpc hstage =>
    obtain ⟨place, h⟩ := h
    obtain ⟨-, hrel, -, hrel'⟩ := stageStep_stages hstage
    refine ⟨place, h.congr rfl rfl (holds_update ?_) rfl (fun _ _ ht => ht) rfl rfl
      (fun _ _ ht => ht)⟩
    change _ = (s.worker w).holds
    rw [hpc, holds_busy hrel, holds_busy hrel']
  | records hpc => exact placed_record h hpc
  | releases hpc => exact placed_release h hpc
  | requeues hpc hroom => exact placed_requeue h hpc
  | carries hpc hfull => exact placed_setWorker h (by rw [hpc]; rfl)

/-! ## The steps of `enqueue` -/

theorem holds_setCaller {s : Scheduler ω κ} {c : κ} {pc : CallerPc}
    (h : ∀ t, pc.holds = some t → (s.caller c).holds = some t) (c' : κ) (t : VerificationTask)
    (ht : (Function.update s.caller c pc c').holds = some t) : (s.caller c').holds = some t := by
  by_cases hc : c' = c
  · subst hc
    rw [Function.update_self] at ht
    exact h t ht
  · rwa [Function.update_of_ne hc] at ht

namespace PlaceInv

variable {place : String → Place ω κ} {s : Scheduler ω κ}

theorem setCaller (h : PlaceInv place s) {c : κ} {pc : CallerPc}
    (hpc : ∀ t, pc.holds = some t → (s.caller c).holds = some t) :
    PlaceInv place (s.setCaller c pc) :=
  h.congr rfl rfl (fun _ => rfl) rfl (holds_setCaller hpc) rfl rfl (fun _ _ ht => ht)

/-- No admitted task has the id of a task still in the hands of a caller. -/
theorem admitted_ne_candidate (h : PlaceInv place s) {c : κ} {task t : VerificationTask}
    (hc : (s.caller c).holds = some task) (ht : t ∈ s.admitted) : t.taskId ≠ task.taskId := by
  intro hid
  have hcov := h.covered t ht
  rw [hid, h.candidate c task hc] at hcov
  exact hcov

/-- The caller gives its task up and takes it off the register. -/
theorem popCandidate (h : PlaceInv place s) {c : κ} {task : VerificationTask} {pc : CallerPc}
    (hc : (s.caller c).holds = some task) (hpc : pc.holds = none) :
    PlaceInv place ((s.popTask task.taskId).setCaller c pc) := by
  have hne : ∀ t, (t ∈ s.admitted ∨ ∃ c', (Function.update s.caller c pc c').holds = some t) →
      t.taskId ≠ task.taskId := by
    rintro t (hadm | ⟨c', hc'⟩)
    · exact h.admitted_ne_candidate hc hadm
    · by_cases hcc : c' = c
      · subst hcc
        rw [Function.update_self, hpc] at hc'
        cases hc'
      · rw [Function.update_of_ne hcc] at hc'
        intro hid
        have hp := h.candidate c' t hc'
        rw [hid, h.candidate c task hc] at hp
        exact hcc (Place.candidate.inj hp).symm
  have hkeep : ∀ t, (t ∈ s.admitted ∨ ∃ c', (Function.update s.caller c pc c').holds = some t) →
      t ∈ s.tasks → t ∈ (s.popTask task.taskId).tasks := by
    intro t hor ht
    exact List.mem_filter.mpr ⟨ht, by simpa using hne t hor⟩
  have hcaller : ∀ c' t, (Function.update s.caller c pc c').holds = some t →
      (s.caller c').holds = some t := holds_setCaller (by simp [hpc])
  exact ⟨h.pending, h.pendingNodup, h.deferred, h.deferredNodup, h.held, h.done,
    fun c' t ht => h.candidate c' t (hcaller c' t ht),
    fun c' t ht => hkeep t (.inr ⟨c', ht⟩) (h.registered c' t (hcaller c' t ht)), h.covered, h.used,
    h.admittedIds, fun t ht => hkeep t (.inl ht) (h.admittedTasks t ht)⟩

end PlaceInv

theorem placed_register {s s' : Scheduler ω κ} {c : κ} (task : VerificationTask) (h : Placed s)
    (hfresh : task.taskId ∉ s.usedIds) (hpc : (s.caller c).holds = none)
    (hs' : s' = { s.setCaller c (.inserting task) with
      tasks := s.tasks ++ [task], usedIds := task.taskId :: s.usedIds }) : Placed s' := by
  subst hs'
  obtain ⟨place, h⟩ := h
  have hne : ∀ id, place id ≠ .absent → id ≠ task.taskId := by
    rintro id hid rfl
    exact hfresh (h.used _ hid)
  have hkeep : ∀ {id : String} {p : Place ω κ}, place id = p → p ≠ .absent →
      Function.update place task.taskId (.candidate c) id = p := by
    rintro id p hid hp
    rw [Function.update_of_ne (hne id (by rw [hid]; exact hp)), hid]
  refine ⟨Function.update place task.taskId (.candidate c), ?_, h.pendingNodup, ?_,
    h.deferredNodup, ?_, ?_, ?_, ?_, ?_, ?_, h.admittedIds, ?_⟩
  · intro t ht
    exact ⟨(h.pending t ht).1, hkeep (h.pending t ht).2 (by simp)⟩
  · intro a t ht
    obtain ⟨hadm, hagent, hp⟩ := h.deferred a t ht
    exact ⟨hadm, hagent, hkeep hp (by simp)⟩
  · intro w t ht
    exact ⟨(h.held w t ht).1, hkeep (h.held w t ht).2 (by simp)⟩
  · intro id
    change (s.results id).isSome = true ↔ _
    by_cases hid : id = task.taskId
    · subst hid
      rw [Function.update_self, h.done]
      have habs : place task.taskId = .absent := by
        by_contra hp
        exact hfresh (h.used _ hp)
      simp [habs]
    · rw [Function.update_of_ne hid]
      exact h.done id
  · intro c' t ht
    by_cases hc : c' = c
    · subst hc
      simp only [Scheduler.setCaller, Function.update_self, CallerPc.holds,
        Option.some.injEq] at ht
      subst ht
      exact Function.update_self _ _ _
    · simp only [Scheduler.setCaller, Function.update_of_ne hc] at ht
      exact hkeep (h.candidate c' t ht) (by simp)
  · intro c' t ht
    by_cases hc : c' = c
    · subst hc
      simp only [Scheduler.setCaller, Function.update_self, CallerPc.holds,
        Option.some.injEq] at ht
      subst ht
      exact List.mem_append_right _ (List.mem_singleton.mpr rfl)
    · simp only [Scheduler.setCaller, Function.update_of_ne hc] at ht
      exact List.mem_append_left _ (h.registered c' t ht)
  · intro t ht
    have hcov := h.covered t ht
    have hpl : place t.taskId ≠ .absent := by
      intro habs
      rw [habs] at hcov
      exact hcov
    rw [hkeep rfl hpl]
    cases hp : place t.taskId <;> rw [hp] at hcov <;> exact hcov
  · intro id hid
    by_cases hself : id = task.taskId
    · exact hself ▸ List.mem_cons_self
    · rw [Function.update_of_ne hself] at hid
      exact List.mem_cons_of_mem _ (h.used id hid)
  · intro t ht
    exact List.mem_append_left _ (h.admittedTasks t ht)

theorem placed_put {s : Scheduler ω κ} {c : κ} {task : VerificationTask} (h : Placed s)
    (hc : (s.caller c).holds = some task) :
    Placed
      { s.setCaller c (.finished (.returned task.taskId)) with
        pending := s.pending ++ [task]
        enqueueLock := none
        admitted := s.admitted ++ [task] } := by
  obtain ⟨place, h⟩ := h
  have hcand := h.candidate c task hc
  have hne : ∀ {id : String}, place id ≠ .candidate c → id ≠ task.taskId := by
    rintro id hid rfl
    exact hid hcand
  have hkeep : ∀ {id : String} {p : Place ω κ}, place id = p → p ≠ .candidate c →
      Function.update place task.taskId .pending id = p := by
    rintro id p hid hp
    rw [Function.update_of_ne (hne (by rw [hid]; exact hp)), hid]
  have hself : Function.update place task.taskId .pending task.taskId = .pending :=
    Function.update_self _ _ _
  have hnotadm : ∀ t ∈ s.admitted, t ≠ task := by
    rintro t ht rfl
    exact h.admitted_ne_candidate hc ht rfl
  have hcaller : ∀ c' t, (Function.update s.caller c (.finished (.returned task.taskId)) c').holds =
      some t → c' ≠ c ∧ (s.caller c').holds = some t := by
    intro c' t ht
    by_cases hcc : c' = c
    · subst hcc
      simp [CallerPc.holds] at ht
    · rw [Function.update_of_ne hcc] at ht
      exact ⟨hcc, ht⟩
  refine ⟨Function.update place task.taskId .pending, ?_, ?_, ?_, h.deferredNodup, ?_, ?_, ?_, ?_,
    ?_, ?_, ?_, ?_⟩
  · intro t ht
    rcases List.mem_append.mp ht with ht | ht
    · exact ⟨List.mem_append_left _ (h.pending t ht).1, hkeep (h.pending t ht).2 (by simp)⟩
    · rw [List.mem_singleton] at ht
      subst ht
      exact ⟨by simp, hself⟩
  · change (s.pending ++ [task]).Nodup
    rw [List.nodup_append]
    refine ⟨h.pendingNodup, List.nodup_singleton _, ?_⟩
    intro t ht t' ht'
    rw [List.mem_singleton] at ht'
    subst ht'
    exact hnotadm t (h.pending t ht).1
  · intro a t ht
    obtain ⟨hadm, hagent, hp⟩ := h.deferred a t ht
    exact ⟨List.mem_append_left _ hadm, hagent, hkeep hp (by simp)⟩
  · intro w t ht
    exact ⟨List.mem_append_left _ (h.held w t ht).1, hkeep (h.held w t ht).2 (by simp)⟩
  · intro id
    change (s.results id).isSome = true ↔ _
    rw [h.done]
    by_cases hid : id = task.taskId
    · subst hid
      rw [hself, hcand]
      simp
    · rw [Function.update_of_ne hid]
  · intro c' t ht
    obtain ⟨hcc, ht⟩ := hcaller c' t ht
    exact hkeep (h.candidate c' t ht) (by simpa using hcc)
  · intro c' t ht
    exact h.registered c' t (hcaller c' t ht).2
  · intro t ht
    rcases List.mem_append.mp ht with ht | ht
    · have hcov := h.covered t ht
      have hpl : place t.taskId ≠ .candidate c := by
        intro hp
        rw [hp] at hcov
        exact hcov
      rw [hkeep rfl hpl]
      cases hp : place t.taskId <;> rw [hp] at hcov
      case pending => exact List.mem_append_left _ hcov
      all_goals exact hcov
    · rw [List.mem_singleton] at ht
      subst ht
      rw [hself]
      simp [Covered]
  · intro id hid
    by_cases hself' : id = task.taskId
    · exact h.used id (by rw [hself', hcand]; simp)
    · rw [Function.update_of_ne hself'] at hid
      exact h.used id hid
  · change ((s.admitted ++ [task]).map VerificationTask.taskId).Nodup
    rw [List.map_append, List.nodup_append]
    refine ⟨h.admittedIds, by simp, ?_⟩
    intro a ha b hb
    obtain ⟨t, ht, rfl⟩ := List.mem_map.mp ha
    rw [List.map_singleton, List.mem_singleton] at hb
    subst hb
    exact h.admitted_ne_candidate hc ht
  · intro t ht
    rcases List.mem_append.mp ht with ht | ht
    · exact h.admittedTasks t ht
    · rw [List.mem_singleton] at ht
      subst ht
      exact h.registered c t hc

theorem placed_block {s s' : Scheduler ω κ} {c : κ} {task : VerificationTask}
    {result : VerificationTaskResult} (pc : CallerPc) (h : Placed s)
    (hc : (s.caller c).holds = some task) (hpc : pc.holds = none)
    (hpending : s'.pending = s.pending) (hdeferred : s'.agentDeferred = s.agentDeferred)
    (hworker : s'.worker = s.worker) (hcaller : s'.caller = Function.update s.caller c pc)
    (hresults : s'.results = Function.update s.results task.taskId (some result))
    (hused : s'.usedIds = s.usedIds) (hadmitted : s'.admitted = s.admitted)
    (htasks : s'.tasks = s.tasks) : Placed s' := by
  obtain ⟨place, h⟩ := h
  have hcand := h.candidate c task hc
  have hkeep : ∀ {id : String} {p : Place ω κ}, place id = p → p ≠ .candidate c →
      Function.update place task.taskId .done id = p := by
    rintro id p hid hp
    rw [Function.update_of_ne, hid]
    rintro rfl
    rw [hcand] at hid
    exact hp hid.symm
  have hcaller' : ∀ c' t, (s'.caller c').holds = some t → c' ≠ c ∧ (s.caller c').holds = some t := by
    intro c' t ht
    rw [hcaller] at ht
    by_cases hcc : c' = c
    · subst hcc
      rw [Function.update_self, hpc] at ht
      cases ht
    · rw [Function.update_of_ne hcc] at ht
      exact ⟨hcc, ht⟩
  refine ⟨Function.update place task.taskId .done, ?_, ?_, ?_, ?_, ?_, ?_, ?_, ?_, ?_, ?_, ?_, ?_⟩
  · intro t ht
    rw [hpending] at ht
    rw [hadmitted]
    exact ⟨(h.pending t ht).1, hkeep (h.pending t ht).2 (by simp)⟩
  · rw [hpending]
    exact h.pendingNodup
  · intro a t ht
    rw [hdeferred] at ht
    rw [hadmitted]
    obtain ⟨hadm, hagent, hp⟩ := h.deferred a t ht
    exact ⟨hadm, hagent, hkeep hp (by simp)⟩
  · rw [hdeferred]
    exact h.deferredNodup
  · intro w t ht
    rw [hworker] at ht
    rw [hadmitted]
    exact ⟨(h.held w t ht).1, hkeep (h.held w t ht).2 (by simp)⟩
  · intro id
    rw [hresults]
    by_cases hid : id = task.taskId
    · subst hid
      simp
    · rw [Function.update_of_ne hid, Function.update_of_ne hid]
      exact h.done id
  · intro c' t ht
    obtain ⟨hcc, ht⟩ := hcaller' c' t ht
    exact hkeep (h.candidate c' t ht) (by simpa using hcc)
  · intro c' t ht
    rw [htasks]
    exact h.registered c' t (hcaller' c' t ht).2
  · intro t ht
    rw [hadmitted] at ht
    have hcov := h.covered t ht
    have hid := h.admitted_ne_candidate hc ht
    rw [Function.update_of_ne hid]
    cases hp : place t.taskId <;> rw [hp] at hcov
    case absent | candidate => exact hcov
    case pending => simpa only [Covered, hpending] using hcov
    case deferred => simpa only [Covered, hdeferred] using hcov
    case held => simpa only [Covered, hworker] using hcov
    case done => simpa only [Covered, hresults, Function.update_of_ne hid] using hcov
  · intro id hid
    rw [hused]
    by_cases hself : id = task.taskId
    · exact h.used id (by rw [hself, hcand]; simp)
    · rw [Function.update_of_ne hself] at hid
      exact h.used id hid
  · rw [hadmitted]
    exact h.admittedIds
  · rw [hadmitted, htasks]
    exact h.admittedTasks

theorem placed_setCaller {s : Scheduler ω κ} {c : κ} {pc : CallerPc} (h : Placed s)
    (hpc : ∀ t, pc.holds = some t → (s.caller c).holds = some t) : Placed (s.setCaller c pc) := by
  obtain ⟨place, h⟩ := h
  exact ⟨place, h.setCaller hpc⟩

theorem placed_popCandidate {s : Scheduler ω κ} {c : κ} {task : VerificationTask} (pc : CallerPc)
    (h : Placed s) (hc : (s.caller c).holds = some task) (hpc : pc.holds = none) :
    Placed ((s.popTask task.taskId).setCaller c pc) := by
  obtain ⟨place, h⟩ := h
  exact ⟨place, h.popCandidate hc hpc⟩

/-- The parts of the state that no place depends on. -/
theorem placed_congr {s s' : Scheduler ω κ} (h : Placed s) (hpending : s'.pending = s.pending)
    (hdeferred : s'.agentDeferred = s.agentDeferred) (hworker : s'.worker = s.worker)
    (hresults : s'.results = s.results) (hcaller : s'.caller = s.caller)
    (hused : s'.usedIds = s.usedIds) (hadmitted : s'.admitted = s.admitted)
    (htasks : s'.tasks = s.tasks) : Placed s' := by
  obtain ⟨place, h⟩ := h
  exact ⟨place, h.congr hpending hdeferred (fun w => by rw [hworker]) hresults
    (fun c t ht => by rwa [hcaller] at ht) hused hadmitted (fun t _ ht => by rwa [htasks])⟩

theorem callerStep_placed {c : κ} {s s' : Scheduler ω κ} (hstep : CallerStep c s s')
    (h : Placed s) : Placed s' := by
  have hnone : ∀ pc : CallerPc, pc.holds = none → Placed (s.setCaller c pc) := fun pc hpc =>
    placed_setCaller h (by simp [hpc])
  have hsame : ∀ {pc : CallerPc} {task : VerificationTask} (pc' : CallerPc), s.caller c = pc →
      pc.holds = some task → pc'.holds = some task → Placed (s.setCaller c pc') := by
    intro pc task pc' hpc hold hold'
    apply placed_setCaller h
    intro t ht
    rw [hpc, hold, ← hold', ht]
  cases hstep with
  | refusedAtOnce | unknownKind | called | blocked | unblocked | findsExisting | reuses
  | reuseMisses | findsNone => exact hnone _ rfl
  | registers taskId now hpc hfresh =>
    exact placed_register ⟨_, taskId, _, _, now⟩ h hfresh (by rw [hpc]; rfl) rfl
  | inserted hpc hdb hinsert =>
    exact placed_congr (hsame (.locking _) hpc rfl rfl) rfl rfl rfl rfl rfl rfl rfl rfl
  | insertSkipped hpc hdb => exact hsame _ hpc rfl rfl
  | insertRaises hpc hdb hwrite =>
    exact placed_congr (hsame (.droppingUninserted _) hpc rfl rfl) rfl rfl rfl rfl rfl rfl
      rfl rfl
  | dropsUninserted hpc => exact placed_popCandidate _ h (by rw [hpc]; rfl) rfl
  | locksOpen hpc hfree hopen =>
    exact placed_congr (hsame (.checkingFence _) hpc rfl rfl) rfl rfl rfl rfl rfl rfl rfl rfl
  | locksShut hpc hfree hshut =>
    exact placed_congr (hsame (.deletingRefused _) hpc rfl rfl) rfl rfl rfl rfl rfl rfl rfl
      rfl
  | deletesRefused hpc =>
    exact placed_congr (hsame (.droppingRefused _) hpc rfl rfl) rfl rfl rfl rfl rfl rfl rfl
      rfl
  | deleteRefusedRaises hpc hdb hwrite =>
    exact placed_congr (hnone (.finished .sqliteError) rfl) rfl rfl rfl rfl rfl rfl rfl rfl
  | dropsRefused hpc =>
    exact placed_congr
      (placed_popCandidate (.finished .shutdownError) h (by rw [hpc]; rfl) rfl)
      rfl rfl rfl rfl rfl rfl rfl rfl
  | admissionBlocked finishedAt now hpc hfence =>
    exact placed_block (.finished .outcomeUnknownError) h (by rw [hpc]; rfl) rfl
      rfl rfl rfl rfl rfl rfl rfl rfl
  | admissionBlockedUnmarked now exc hpc hfence =>
    exact placed_block (.finished .outcomeUnknownError) h (by rw [hpc]; rfl) rfl
      rfl rfl rfl rfl rfl rfl rfl rfl
  | passesFence hpc hfence => exact hsame _ hpc rfl rfl
  | puts hpc hroom => exact placed_put h (by rw [hpc]; rfl)
  | overflows hpc hfull =>
    exact placed_congr (hsame (.deletingOverflow _) hpc rfl rfl) rfl rfl rfl rfl rfl rfl rfl
      rfl
  | deletesOverflow hpc =>
    exact placed_congr (hsame (.droppingOverflow _) hpc rfl rfl) rfl rfl rfl rfl rfl rfl rfl
      rfl
  | deleteOverflowRaises hpc hdb hwrite =>
    exact placed_congr (hnone (.finished .sqliteError) rfl) rfl rfl rfl rfl rfl rfl rfl rfl
  | dropsOverflow hpc => exact placed_popCandidate _ h (by rw [hpc]; rfl) rfl

theorem placed_preserved : Preserves (SchedulerStep (ω := ω) (κ := κ)) Placed := by
  intro s s' hstep h
  cases hstep with
  | worker w hstep => exact workerStep_placed hstep h
  | caller c hstep => exact callerStep_placed hstep h
  | shutsDown hfree => exact placed_congr h rfl rfl rfl rfl rfl rfl rfl rfl
  | closesLedger hshut hjoined hfree => exact placed_congr h rfl rfl rfl rfl rfl rfl rfl rfl

end KiwiCatalog.Queue
