import KiwiCatalog.Queue.Recovery

/-!
# Slots — one running task for each agent

An agent's slot belongs to the worker that claimed its task, or to a deferred task that was handed
over and is on its way to a worker.  An agent with an unknown outcome loses this discipline: its
tasks are closed without being run, by any number of workers.
-/

set_option autoImplicit false
set_option linter.unusedSectionVars false

namespace KiwiCatalog.Queue

open Transition

variable {ω κ : Type} [DecidableEq ω] [DecidableEq κ]

/-- The agent whose slot a worker took at its claim and has not handed on. -/
def WorkerPc.owns : WorkerPc → Option String
  | .busy task _ _ => some task.catalogAgentId
  | _ => none

/-- A task on its way to its claim. -/
def WorkerPc.transit : WorkerPc → Option VerificationTask
  | .loopTop handoff | .checkingDrained handoff | .fetching handoff => handoff
  | .claiming task | .requeueing task => some task
  | .busy _ _ _ | .exited => none

/-- The agent whose task a worker claimed for execution and has not recorded. -/
def WorkerPc.executes : WorkerPc → Option String
  | .busy _ _ .releasing => none
  | .busy task false _ => some task.catalogAgentId
  | _ => none

/-- Where a worker can be with a task it claimed under a fence. -/
def Stage.Fenced : Stage → Prop
  | .fencing _ | .persistingUnknown _ | .recording _ | .releasing => True
  | _ => False

def InTransit (s : Scheduler ω κ) (task : VerificationTask) : Prop :=
  task ∈ s.pending ∨ ∃ w, (s.worker w).transit = some task

def HasOwner (s : Scheduler ω κ) (agent : String) : Prop :=
  ∃ w, (s.worker w).owns = some agent

structure SlotInv (s : Scheduler ω κ) : Prop where
  preclaimed : ∀ a task, s.agentPreclaimed a = some task →
    task.catalogAgentId = a ∧ InTransit s task
  single : ∀ a, s.uncertainAgents a = none → ∀ w w', (s.worker w).owns = some a →
    (s.worker w').owns = some a → w = w'
  exclusive : ∀ a, s.uncertainAgents a = none → HasOwner s a → s.agentPreclaimed a = none
  running : ∀ a, s.uncertainAgents a = none →
    (s.agentRunning a = true ↔ HasOwner s a ∨ s.agentPreclaimed a ≠ none)
  deferred : ∀ a, s.agentDeferred a ≠ [] → HasOwner s a ∨ s.agentPreclaimed a ≠ none
  executing : ∀ a w w', (s.worker w).executes = some a → (s.worker w').executes = some a → w = w'
  fenced : ∀ w task stage, s.worker w = .busy task true stage →
    stage.Fenced ∧ s.uncertainAgents task.catalogAgentId ≠ none
  starting : ∀ w task, s.worker w = .busy task false .starting →
    s.uncertainAgents task.catalogAgentId = none

theorem owns_of_executes {pc : WorkerPc} {a : String} (h : pc.executes = some a) :
    pc.owns = some a := by
  cases pc with
  | busy task fenced stage =>
    cases fenced <;> cases stage <;> first | exact h | cases h
  | _ => cases h

namespace SlotInv

variable {s s' : Scheduler ω κ}

/-- A step that leaves every slot with its owner. -/
theorem congr (h : SlotInv s) (howns : ∀ w, (s'.worker w).owns = (s.worker w).owns)
    (hexec : ∀ w a, (s'.worker w).executes = some a → (s.worker w).executes = some a)
    (htransit : ∀ a task, s.agentPreclaimed a = some task → InTransit s task →
      InTransit s' task)
    (hpre : s'.agentPreclaimed = s.agentPreclaimed) (hrun : s'.agentRunning = s.agentRunning)
    (hdef : s'.agentDeferred = s.agentDeferred) (hunc : s'.uncertainAgents = s.uncertainAgents)
    (hfenced : ∀ w task stage, s'.worker w = .busy task true stage →
      stage.Fenced ∧ s.uncertainAgents task.catalogAgentId ≠ none)
    (hstart : ∀ w task, s'.worker w = .busy task false .starting →
      s.worker w = .busy task false .starting) : SlotInv s' := by
  have howner : ∀ a, HasOwner s' a ↔ HasOwner s a := by
    intro a
    simp only [HasOwner, howns]
  refine ⟨?_, ?_, ?_, ?_, ?_, ?_, ?_, ?_⟩
  · intro a task ht
    rw [hpre] at ht
    obtain ⟨hagent, hin⟩ := h.preclaimed a task ht
    exact ⟨hagent, htransit a task ht hin⟩
  · intro a ha w w' hw hw'
    rw [hunc] at ha
    rw [howns] at hw hw'
    exact h.single a ha w w' hw hw'
  · intro a ha ho
    rw [hunc] at ha
    rw [hpre]
    exact h.exclusive a ha ((howner a).mp ho)
  · intro a ha
    rw [hunc] at ha
    rw [hrun, howner, hpre]
    exact h.running a ha
  · intro a ha
    rw [hdef] at ha
    rw [howner, hpre]
    exact h.deferred a ha
  · intro a w w' hw hw'
    exact h.executing a w w' (hexec w a hw) (hexec w' a hw')
  · intro w task stage hw
    rw [hunc]
    exact hfenced w task stage hw
  · intro w task hw
    rw [hunc]
    exact h.starting w task (hstart w task hw)

/-- Fencing an agent none of whose tasks is about to start. -/
theorem fence (h : SlotInv s) (task : VerificationTask)
    (hidle : ∀ w t, s.worker w = .busy t false .starting →
      t.catalogAgentId ≠ task.catalogAgentId) :
    SlotInv { s with uncertainAgents := Scheduler.fenceAgent s.uncertainAgents task } := by
  have hnone : ∀ a, Scheduler.fenceAgent s.uncertainAgents task a = none →
      s.uncertainAgents a = none := by
    intro a ha
    by_cases hagent : a = task.catalogAgentId
    · subst hagent
      simp [Scheduler.fenceAgent] at ha
    · rwa [Scheduler.fenceAgent, Function.update_of_ne hagent] at ha
  refine ⟨h.preclaimed, fun a ha => h.single a (hnone a ha), fun a ha => h.exclusive a (hnone a ha),
    fun a ha => h.running a (hnone a ha), h.deferred, h.executing, ?_, ?_⟩
  · intro w t stage hw
    obtain ⟨hstage, hunc⟩ := h.fenced w t stage hw
    exact ⟨hstage, fun ha => hunc (hnone _ ha)⟩
  · intro w t hw
    have hunc := h.starting w t hw
    change Scheduler.fenceAgent s.uncertainAgents task t.catalogAgentId = none
    rw [Scheduler.fenceAgent, Function.update_of_ne (hidle w t hw), hunc]

/-- The move of one worker whose position has no slot before or after it. -/
theorem setWorker (h : SlotInv s) {w : ω} {pc : WorkerPc} (hs' : s'.worker =
      Function.update s.worker w pc) (hfree : (s.worker w).owns = none) (hfree' : pc.owns = none)
    (htransit : ∀ a task, s.agentPreclaimed a = some task → InTransit s task →
      InTransit s' task)
    (hpre : s'.agentPreclaimed = s.agentPreclaimed) (hrun : s'.agentRunning = s.agentRunning)
    (hdef : s'.agentDeferred = s.agentDeferred)
    (hunc : s'.uncertainAgents = s.uncertainAgents) : SlotInv s' := by
  have hbusy : ∀ w' task fenced stage, s'.worker w' = .busy task fenced stage →
      s.worker w' = .busy task fenced stage := by
    intro w' task fenced stage hw
    rw [hs'] at hw
    by_cases hww : w' = w
    · subst hww
      rw [Function.update_self] at hw
      rw [hw] at hfree'
      cases hfree'
    · rwa [Function.update_of_ne hww] at hw
  have howns : ∀ w', (s'.worker w').owns = (s.worker w').owns := by
    intro w'
    rw [hs']
    by_cases hww : w' = w
    · subst hww
      rw [Function.update_self, hfree, hfree']
    · rw [Function.update_of_ne hww]
  apply h.congr howns ?_ htransit hpre hrun hdef hunc
  · exact fun w' task stage hw => h.fenced w' task stage (hbusy w' task true stage hw)
  · exact fun w' task hw => hbusy w' task false .starting hw
  · intro w' a hw
    have howned := owns_of_executes hw
    cases hpc : s'.worker w' with
    | busy task fenced stage =>
      rw [hbusy w' task fenced stage hpc, ← hpc]
      exact hw
    | _ => rw [hpc] at howned; cases howned

end SlotInv

theorem inTransit_setWorker {s s' : Scheduler ω κ} {w : ω} {pc : WorkerPc}
    (hs' : s'.worker = Function.update s.worker w pc)
    (hpending : ∀ task ∈ s.pending, InTransit s' task)
    (hpc : ∀ task, (s.worker w).transit = some task → InTransit s' task) (task : VerificationTask)
    (h : InTransit s task) : InTransit s' task := by
  rcases h with h | ⟨w', hw'⟩
  · exact hpending task h
  · by_cases hww : w' = w
    · subst hww
      exact hpc task hw'
    · exact .inr ⟨w', by rw [hs', Function.update_of_ne hww, hw']⟩

/-- A free worker moves on with the task it carries. -/
theorem slotInv_carry {s : Scheduler ω κ} {w : ω} {pc : WorkerPc} (h : SlotInv s)
    (hfree : (s.worker w).owns = none) (hfree' : pc.owns = none)
    (htransit : pc.transit = (s.worker w).transit) : SlotInv (s.setWorker w pc) := by
  refine h.setWorker rfl hfree hfree' (fun _ => ?_) rfl rfl rfl rfl
  refine fun t _ => inTransit_setWorker rfl ?_ ?_ t
  · exact fun task ht => .inl ht
  · intro task ht
    refine .inr ⟨w, ?_⟩
    change (Function.update s.worker w pc w).transit = some task
    rw [Function.update_self, htransit, ht]

/-- A free worker takes the first pending task. -/
theorem slotInv_dequeue {s : Scheduler ω κ} {w : ω} {task : VerificationTask}
    {rest : List VerificationTask} (h : SlotInv s) (hpc : s.worker w = .fetching none)
    (hpending : s.pending = task :: rest) :
    SlotInv { s.setWorker w (.claiming task) with pending := rest } := by
  refine h.setWorker rfl (by rw [hpc]; rfl) rfl (fun _ => ?_) rfl rfl rfl rfl
  refine fun t _ => inTransit_setWorker rfl ?_ ?_ t
  · intro t ht
    rw [hpending] at ht
    rcases List.mem_cons.mp ht with rfl | ht
    · refine .inr ⟨w, ?_⟩
      change (Function.update s.worker w (.claiming t) w).transit = some t
      rw [Function.update_self]
      rfl
    · exact .inl ht
  · intro t ht
    rw [hpc] at ht
    cases ht

/-- A free worker puts the task it carries back into the queue. -/
theorem slotInv_requeue {s : Scheduler ω κ} {w : ω} {next : VerificationTask} (h : SlotInv s)
    (hpc : s.worker w = .requeueing next) :
    SlotInv { s.setWorker w (.loopTop none) with pending := s.pending ++ [next] } := by
  refine h.setWorker rfl (by rw [hpc]; rfl) rfl (fun _ => ?_) rfl rfl rfl rfl
  refine fun t _ => inTransit_setWorker rfl ?_ ?_ t
  · exact fun t ht => .inl (List.mem_append_left _ ht)
  · intro t ht
    rw [hpc] at ht
    cases ht
    exact .inl (List.mem_append_right _ (List.mem_singleton.mpr rfl))

theorem isUncertain_eq_false {s : Scheduler ω κ} {a : String} :
    s.isUncertain a = false ↔ s.uncertainAgents a = none := by
  simp [Scheduler.isUncertain]

theorem isUncertain_eq_true {s : Scheduler ω κ} {a : String} :
    s.isUncertain a = true ↔ s.uncertainAgents a ≠ none := by
  simp [Scheduler.isUncertain, Option.isSome_iff_ne_none]

/-- The two outcomes of the block after a dequeue. -/
theorem claim_cases (s : Scheduler ω κ) (w : ω) (task : VerificationTask) :
    (s.agentRunning task.catalogAgentId = true ∧
        s.agentPreclaimed task.catalogAgentId ≠ some task ∧
        s.uncertainAgents task.catalogAgentId = none ∧
        s.claim w task =
          { s with
            agentDeferred := Function.update s.agentDeferred task.catalogAgentId
              (s.agentDeferred task.catalogAgentId ++ [task])
            worker := Function.update s.worker w (.loopTop none) }) ∨
      ((s.agentPreclaimed task.catalogAgentId = some task ∨
          s.uncertainAgents task.catalogAgentId ≠ none ∨
          s.agentRunning task.catalogAgentId = false) ∧
        s.claim w task =
          { s with
            agentPreclaimed :=
              if s.agentPreclaimed task.catalogAgentId = some task then
                Function.update s.agentPreclaimed task.catalogAgentId none
              else s.agentPreclaimed
            agentRunning :=
              if s.agentPreclaimed task.catalogAgentId = some task then s.agentRunning
              else Function.update s.agentRunning task.catalogAgentId true
            worker := Function.update s.worker w
              (.busy task (s.isUncertain task.catalogAgentId)
                (if s.isUncertain task.catalogAgentId then .fencing queuedBlockedReason
                  else .starting)) }) := by
  by_cases hpre : s.agentPreclaimed task.catalogAgentId = some task
  · exact .inr ⟨.inl hpre, by simp [Scheduler.claim, hpre]⟩
  · cases hrun : s.agentRunning task.catalogAgentId with
    | false => exact .inr ⟨.inr (.inr rfl), by simp [Scheduler.claim, hpre, hrun]⟩
    | true =>
      cases hunc : s.isUncertain task.catalogAgentId with
      | true =>
        refine .inr ⟨.inr (.inl (isUncertain_eq_true.mp hunc)), ?_⟩
        simp [Scheduler.claim, hpre, hrun, hunc]
      | false =>
        refine .inl ⟨rfl, hpre, isUncertain_eq_false.mp hunc, ?_⟩
        simp [Scheduler.claim, hpre, hrun, hunc]

/-- The claimed task is no longer in transit; every other handed-over task still is. -/
theorem inTransit_claim {s s' : Scheduler ω κ} {w : ω} {task task' : VerificationTask}
    {pc : WorkerPc} (hpc : s.worker w = .claiming task)
    (hs' : s'.worker = Function.update s.worker w pc) (hpending : s'.pending = s.pending)
    (hne : task' ≠ task) (h : InTransit s task') : InTransit s' task' := by
  rcases h with h | ⟨w', hw'⟩
  · exact .inl (by rwa [hpending])
  · refine .inr ⟨w', ?_⟩
    have hww : w' ≠ w := by
      rintro rfl
      rw [hpc] at hw'
      exact hne (Option.some.inj hw').symm
    rw [hs', Function.update_of_ne hww, hw']

theorem slotInv_defer {s : Scheduler ω κ} {w : ω} {task : VerificationTask} (h : SlotInv s)
    (hpc : s.worker w = .claiming task) (hrun : s.agentRunning task.catalogAgentId = true)
    (hpre : s.agentPreclaimed task.catalogAgentId ≠ some task)
    (hunc : s.uncertainAgents task.catalogAgentId = none) :
    SlotInv { s with
      agentDeferred := Function.update s.agentDeferred task.catalogAgentId
        (s.agentDeferred task.catalogAgentId ++ [task])
      worker := Function.update s.worker w (.loopTop none) } := by
  have hmoved : SlotInv { s with worker := Function.update s.worker w (.loopTop none) } := by
    refine h.setWorker rfl (by rw [hpc]; rfl) rfl ?_ rfl rfl rfl rfl
    intro a task' ht hin
    have hne : task' ≠ task := by
      rintro rfl
      obtain ⟨hagent, -⟩ := h.preclaimed a task' ht
      subst hagent
      exact hpre ht
    exact inTransit_claim hpc rfl rfl hne hin
  refine ⟨hmoved.preclaimed, hmoved.single, hmoved.exclusive, hmoved.running, ?_,
    hmoved.executing, hmoved.fenced, hmoved.starting⟩
  intro a ha
  by_cases hagent : a = task.catalogAgentId
  · subst hagent
    exact (hmoved.running _ hunc).mp hrun
  · apply hmoved.deferred a
    dsimp only at ha
    rwa [Function.update_of_ne hagent] at ha

theorem slotInv_take {s : Scheduler ω κ} {w : ω} {task : VerificationTask} (h : SlotInv s)
    (hpc : s.worker w = .claiming task)
    (hfree : s.agentPreclaimed task.catalogAgentId = some task ∨
      s.uncertainAgents task.catalogAgentId ≠ none ∨
      s.agentRunning task.catalogAgentId = false) :
    SlotInv { s with
      agentPreclaimed :=
        if s.agentPreclaimed task.catalogAgentId = some task then
          Function.update s.agentPreclaimed task.catalogAgentId none
        else s.agentPreclaimed
      agentRunning :=
        if s.agentPreclaimed task.catalogAgentId = some task then s.agentRunning
        else Function.update s.agentRunning task.catalogAgentId true
      worker := Function.update s.worker w
        (.busy task (s.isUncertain task.catalogAgentId)
          (if s.isUncertain task.catalogAgentId then .fencing queuedBlockedReason
            else .starting)) } := by
  generalize hs' : ({ s with
      agentPreclaimed := _
      agentRunning := _
      worker := _ } : Scheduler ω κ) = s'
  have hworker : s'.worker = Function.update s.worker w
      (.busy task (s.isUncertain task.catalogAgentId)
        (if s.isUncertain task.catalogAgentId then .fencing queuedBlockedReason
          else .starting)) := by rw [← hs']
  have hunc : s'.uncertainAgents = s.uncertainAgents := by rw [← hs']
  have hdef : s'.agentDeferred = s.agentDeferred := by rw [← hs']
  have hpending : s'.pending = s.pending := by rw [← hs']
  -- away from the task's agent nothing changes
  have hpreOther : ∀ a, a ≠ task.catalogAgentId → s'.agentPreclaimed a = s.agentPreclaimed a := by
    intro a ha
    rw [← hs']
    dsimp only
    split
    · rw [Function.update_of_ne ha]
    · rfl
  have hrunOther : ∀ a, a ≠ task.catalogAgentId → s'.agentRunning a = s.agentRunning a := by
    intro a ha
    rw [← hs']
    dsimp only
    split
    · rfl
    · rw [Function.update_of_ne ha]
  have hwself : s'.worker w = .busy task (s.isUncertain task.catalogAgentId)
      (if s.isUncertain task.catalogAgentId then .fencing queuedBlockedReason
        else .starting) := by rw [hworker, Function.update_self]
  have hwother : ∀ w', w' ≠ w → s'.worker w' = s.worker w' := by
    intro w' hw'
    rw [hworker, Function.update_of_ne hw']
  have hownsSelf : (s'.worker w).owns = some task.catalogAgentId := by rw [hwself]; rfl
  have hownsOther : ∀ w' a, (s'.worker w').owns = some a → a ≠ task.catalogAgentId →
      (s.worker w').owns = some a := by
    intro w' a hw' ha
    by_cases hww : w' = w
    · subst hww
      rw [hownsSelf] at hw'
      exact absurd (Option.some.inj hw').symm ha
    · rwa [hwother w' hww] at hw'
  have hkept : ∀ a, HasOwner s a → HasOwner s' a := by
    rintro a ⟨w', hw'⟩
    refine ⟨w', ?_⟩
    have hww : w' ≠ w := by
      rintro rfl
      rw [hpc] at hw'
      cases hw'
    rw [hwother w' hww, hw']
  -- the slot of an unfenced agent was free, or waiting for this very task
  have hslot : s.uncertainAgents task.catalogAgentId = none →
      ¬ HasOwner s task.catalogAgentId ∧ s'.agentPreclaimed task.catalogAgentId = none ∧
        s'.agentRunning task.catalogAgentId = true := by
    intro hnone
    by_cases hpre : s.agentPreclaimed task.catalogAgentId = some task
    · have hrun : s.agentRunning task.catalogAgentId = true :=
        (h.running _ hnone).mpr (.inr (by simp [hpre]))
      refine ⟨fun ho => ?_, ?_, ?_⟩
      · rw [h.exclusive _ hnone ho] at hpre
        cases hpre
      · rw [← hs']
        simp [hpre]
      · rw [← hs']
        simp [hpre, hrun]
    · have hidle : s.agentRunning task.catalogAgentId = false := by
        rcases hfree with hf | hf | hf
        · exact absurd hf hpre
        · exact absurd hnone hf
        · exact hf
      have hnot := (not_congr (h.running _ hnone)).mp (by simp [hidle])
      rw [not_or, not_not] at hnot
      refine ⟨hnot.1, ?_, ?_⟩
      · rw [← hs']
        simp [hnot.2]
      · rw [← hs']
        simp [hpre]
  refine ⟨?_, ?_, ?_, ?_, ?_, ?_, ?_, ?_⟩
  · intro a task' ht
    have hold : s.agentPreclaimed a = some task' ∧ task' ≠ task := by
      by_cases ha : a = task.catalogAgentId
      · subst ha
        by_cases hpre : s.agentPreclaimed task.catalogAgentId = some task
        · rw [← hs'] at ht
          simp [hpre] at ht
        · rw [← hs'] at ht
          simp only [if_neg hpre] at ht
          refine ⟨ht, ?_⟩
          rintro rfl
          exact hpre ht
      · rw [hpreOther a ha] at ht
        refine ⟨ht, ?_⟩
        rintro rfl
        exact ha (h.preclaimed a task' ht).1.symm
    obtain ⟨hagent, hin⟩ := h.preclaimed a task' hold.1
    exact ⟨hagent, inTransit_claim hpc hworker hpending hold.2 hin⟩
  · intro a ha w₁ w₂ h₁ h₂
    rw [hunc] at ha
    by_cases hagent : a = task.catalogAgentId
    · subst hagent
      have honly : ∀ w', (s'.worker w').owns = some task.catalogAgentId → w' = w := by
        intro w' hw'
        by_contra hne
        rw [hwother w' hne] at hw'
        exact (hslot ha).1 ⟨w', hw'⟩
      rw [honly w₁ h₁, honly w₂ h₂]
    · exact h.single a ha w₁ w₂ (hownsOther w₁ a h₁ hagent) (hownsOther w₂ a h₂ hagent)
  · rintro a ha ⟨w', hw'⟩
    rw [hunc] at ha
    by_cases hagent : a = task.catalogAgentId
    · subst hagent
      exact (hslot ha).2.1
    · rw [hpreOther a hagent]
      exact h.exclusive a ha ⟨w', hownsOther w' a hw' hagent⟩
  · intro a ha
    rw [hunc] at ha
    by_cases hagent : a = task.catalogAgentId
    · subst hagent
      exact ⟨fun _ => .inl ⟨w, hownsSelf⟩, fun _ => (hslot ha).2.2⟩
    · rw [hrunOther a hagent, hpreOther a hagent, h.running a ha]
      have howner : HasOwner s a ↔ HasOwner s' a :=
        ⟨hkept a, fun ⟨w', hw'⟩ => ⟨w', hownsOther w' a hw' hagent⟩⟩
      rw [howner]
  · intro a ha
    rw [hdef] at ha
    by_cases hagent : a = task.catalogAgentId
    · subst hagent
      exact .inl ⟨w, hownsSelf⟩
    · rw [hpreOther a hagent]
      exact (h.deferred a ha).imp (hkept a) id
  · intro a w₁ w₂ h₁ h₂
    have hothers : ∀ w', w' ≠ w → (s'.worker w').executes = some a →
        (s'.worker w).executes ≠ some a := by
      intro w' hne hw' hself
      have hown := owns_of_executes hself
      rw [hownsSelf] at hown
      have hagent : task.catalogAgentId = a := Option.some.inj hown
      subst hagent
      rw [hwother w' hne] at hw'
      have hnone : s.uncertainAgents task.catalogAgentId = none := by
        rw [hwself] at hself
        cases hu : s.isUncertain task.catalogAgentId with
        | true => rw [hu] at hself; cases hself
        | false => exact isUncertain_eq_false.mp hu
      exact (hslot hnone).1 ⟨w', owns_of_executes hw'⟩
    by_cases hw₁ : w₁ = w <;> by_cases hw₂ : w₂ = w
    · rw [hw₁, hw₂]
    · exact absurd (hw₁ ▸ h₁) (hothers w₂ hw₂ h₂)
    · exact absurd (hw₂ ▸ h₂) (hothers w₁ hw₁ h₁)
    · rw [hwother w₁ hw₁] at h₁
      rw [hwother w₂ hw₂] at h₂
      exact h.executing a w₁ w₂ h₁ h₂
  · intro w' task' stage hw'
    rw [hunc]
    by_cases hww : w' = w
    · subst hww
      rw [hwself] at hw'
      cases hu : s.isUncertain task.catalogAgentId with
      | true =>
        rw [hu] at hw'
        cases hw'
        exact ⟨trivial, isUncertain_eq_true.mp hu⟩
      | false =>
        rw [hu] at hw'
        cases hw'
    · rw [hwother w' hww] at hw'
      exact h.fenced w' task' stage hw'
  · intro w' task' hw'
    rw [hunc]
    by_cases hww : w' = w
    · subst hww
      rw [hwself] at hw'
      cases hu : s.isUncertain task.catalogAgentId with
      | true =>
        rw [hu] at hw'
        cases hw'
      | false =>
        rw [hu] at hw'
        cases hw'
        exact isUncertain_eq_false.mp hu
    · rw [hwother w' hww] at hw'
      exact h.starting w' task' hw'

theorem slotInv_claim {s : Scheduler ω κ} {w : ω} {task : VerificationTask} (h : SlotInv s)
    (hpc : s.worker w = .claiming task) : SlotInv (s.claim w task) := by
  rcases claim_cases s w task with ⟨hrun, hpre, hunc, heq⟩ | ⟨hfree, heq⟩
  · rw [heq]
    exact slotInv_defer h hpc hrun hpre hunc
  · rw [heq]
    exact slotInv_take h hpc hfree

/-- Two busy workers of one unfenced agent are one worker. -/
theorem SlotInv.owner_eq {s : Scheduler ω κ} (h : SlotInv s) {w w' : ω} {task : VerificationTask}
    {fenced : Bool} {stage : Stage} (hpc : s.worker w = .busy task fenced stage)
    (hunc : s.uncertainAgents task.catalogAgentId = none)
    (hw' : (s.worker w').owns = some task.catalogAgentId) : w' = w :=
  h.single _ hunc w' w hw' (by rw [hpc]; rfl)

theorem slotInv_release {s : Scheduler ω κ} {w : ω} {task : VerificationTask} {fenced : Bool}
    (h : SlotInv s) (hpc : s.worker w = .busy task fenced .releasing)
    (hagents : ∀ t ∈ s.agentDeferred task.catalogAgentId, t.catalogAgentId = task.catalogAgentId) :
    SlotInv (s.release w task.catalogAgentId) := by
  generalize hs' : s.release w task.catalogAgentId = s'
  have hpcs : ∃ pc : WorkerPc, pc.owns = none ∧
      s'.worker = Function.update s.worker w pc ∧
      ((s.agentDeferred task.catalogAgentId = [] ∧ s'.agentDeferred = s.agentDeferred ∧
          s'.agentPreclaimed = s.agentPreclaimed ∧
          s'.agentRunning = Function.update s.agentRunning task.catalogAgentId false) ∨
        ∃ next waiting, s.agentDeferred task.catalogAgentId = next :: waiting ∧
          pc = .requeueing next ∧
          s'.agentDeferred = Function.update s.agentDeferred task.catalogAgentId waiting ∧
          s'.agentPreclaimed =
            Function.update s.agentPreclaimed task.catalogAgentId (some next) ∧
          s'.agentRunning = Function.update s.agentRunning task.catalogAgentId true) := by
    rw [← hs']
    unfold Scheduler.release
    split
    · rename_i hdef
      exact ⟨.loopTop none, rfl, rfl, .inl ⟨hdef, rfl, rfl, rfl⟩⟩
    · rename_i next waiting hdef
      exact ⟨.requeueing next, rfl, rfl, .inr ⟨next, waiting, hdef, rfl, rfl, rfl, rfl⟩⟩
  have hframe : s'.uncertainAgents = s.uncertainAgents ∧ s'.pending = s.pending := by
    rw [← hs']
    unfold Scheduler.release
    split <;> exact ⟨rfl, rfl⟩
  obtain ⟨hunc, hpending⟩ := hframe
  obtain ⟨pc, hpcowns, hworker, hcase⟩ := hpcs
  have hwother : ∀ w', w' ≠ w → s'.worker w' = s.worker w' := by
    intro w' hw'
    rw [hworker, Function.update_of_ne hw']
  have howns : ∀ w' a, (s'.worker w').owns = some a → w' ≠ w ∧ (s.worker w').owns = some a := by
    intro w' a hw'
    have hww : w' ≠ w := by
      rintro rfl
      rw [hworker, Function.update_self, hpcowns] at hw'
      cases hw'
    exact ⟨hww, by rwa [hwother w' hww] at hw'⟩
  have hownerOther : ∀ a, a ≠ task.catalogAgentId → (HasOwner s' a ↔ HasOwner s a) := by
    intro a ha
    constructor
    · rintro ⟨w', hw'⟩
      exact ⟨w', (howns w' a hw').2⟩
    · rintro ⟨w', hw'⟩
      refine ⟨w', ?_⟩
      have hww : w' ≠ w := by
        rintro rfl
        rw [hpc] at hw'
        exact ha (Option.some.inj hw').symm
      rwa [hwother w' hww]
  have hnoowner : s.uncertainAgents task.catalogAgentId = none →
      ¬ HasOwner s' task.catalogAgentId := by
    rintro hnone ⟨w', hw'⟩
    obtain ⟨hww, hold⟩ := howns w' _ hw'
    exact hww (h.owner_eq hpc hnone hold)
  have hpreself : s.uncertainAgents task.catalogAgentId = none →
      s.agentPreclaimed task.catalogAgentId = none := fun hnone =>
    h.exclusive _ hnone ⟨w, by rw [hpc]; rfl⟩
  have hpreOther : ∀ a, a ≠ task.catalogAgentId → s'.agentPreclaimed a = s.agentPreclaimed a := by
    intro a ha
    rcases hcase with ⟨-, -, hp, -⟩ | ⟨next, waiting, -, -, -, hp, -⟩
    · rw [hp]
    · rw [hp, Function.update_of_ne ha]
  have hrunOther : ∀ a, a ≠ task.catalogAgentId → s'.agentRunning a = s.agentRunning a := by
    intro a ha
    rcases hcase with ⟨-, -, -, hr⟩ | ⟨next, waiting, -, -, -, -, hr⟩
    · rw [hr, Function.update_of_ne ha]
    · rw [hr, Function.update_of_ne ha]
  have htransit : ∀ t, InTransit s t → InTransit s' t := by
    rintro t (ht | ⟨w', hw'⟩)
    · exact .inl (by rwa [hpending])
    · refine .inr ⟨w', ?_⟩
      have hww : w' ≠ w := by
        rintro rfl
        rw [hpc] at hw'
        cases hw'
      rwa [hwother w' hww]
  refine ⟨?_, ?_, ?_, ?_, ?_, ?_, ?_, ?_⟩
  · intro a t ht
    by_cases ha : a = task.catalogAgentId
    · subst ha
      rcases hcase with ⟨-, -, hp, -⟩ | ⟨next, waiting, hdef, hreq, -, hp, -⟩
      · rw [hp] at ht
        exact (h.preclaimed _ t ht).imp id (htransit t)
      · rw [hp, Function.update_self] at ht
        cases ht
        refine ⟨hagents t (by simp [hdef]), .inr ⟨w, ?_⟩⟩
        rw [hworker, Function.update_self, hreq]
        rfl
    · rw [hpreOther a ha] at ht
      exact (h.preclaimed a t ht).imp id (htransit t)
  · intro a ha w₁ w₂ h₁ h₂
    rw [hunc] at ha
    exact h.single a ha w₁ w₂ (howns w₁ a h₁).2 (howns w₂ a h₂).2
  · intro a ha ho
    rw [hunc] at ha
    by_cases hagent : a = task.catalogAgentId
    · subst hagent
      exact absurd ho (hnoowner ha)
    · rw [hpreOther a hagent]
      exact h.exclusive a ha ((hownerOther a hagent).mp ho)
  · intro a ha
    rw [hunc] at ha
    by_cases hagent : a = task.catalogAgentId
    · subst hagent
      rcases hcase with ⟨-, -, hp, hr⟩ | ⟨next, waiting, -, -, -, hp, hr⟩
      · simp [hr, hp, hpreself ha, hnoowner ha]
      · simp [hr, hp]
    · rw [hrunOther a hagent, hpreOther a hagent, hownerOther a hagent]
      exact h.running a ha
  · intro a ha
    by_cases hagent : a = task.catalogAgentId
    · subst hagent
      rcases hcase with ⟨hdef, hd, -, -⟩ | ⟨next, waiting, -, -, -, hp, -⟩
      · rw [hd] at ha
        exact absurd hdef ha
      · exact .inr (by simp [hp])
    · rw [hpreOther a hagent, hownerOther a hagent]
      apply h.deferred a
      rcases hcase with ⟨-, hd, -, -⟩ | ⟨next, waiting, -, -, hd, -, -⟩
      · rwa [hd] at ha
      · rwa [hd, Function.update_of_ne hagent] at ha
  · intro a w₁ w₂ h₁ h₂
    have hex : ∀ w', (s'.worker w').executes = some a → (s.worker w').executes = some a := by
      intro w' hw'
      rwa [hwother w' (howns w' a (owns_of_executes hw')).1] at hw'
    exact h.executing a w₁ w₂ (hex w₁ h₁) (hex w₂ h₂)
  · intro w' t stage hw'
    rw [hunc]
    have hww := (howns w' t.catalogAgentId (by rw [hw']; rfl)).1
    rw [hwother w' hww] at hw'
    exact h.fenced w' t stage hw'
  · intro w' t hw'
    rw [hunc]
    have hww := (howns w' t.catalogAgentId (by rw [hw']; rfl)).1
    rw [hwother w' hww] at hw'
    exact h.starting w' t hw'

/-- A busy worker goes on with the same task. -/
theorem slotInv_busy {s s' : Scheduler ω κ} {w : ω} {task : VerificationTask} {fenced : Bool}
    {stage stage' : Stage} (h : SlotInv s) (hpc : s.worker w = .busy task fenced stage)
    (hs' : s'.worker = Function.update s.worker w (.busy task fenced stage'))
    (hrel : stage ≠ .releasing) (hstart : stage' ≠ .starting)
    (hfenced : fenced = true → stage'.Fenced) (hpending : s'.pending = s.pending)
    (hpre : s'.agentPreclaimed = s.agentPreclaimed) (hrun : s'.agentRunning = s.agentRunning)
    (hdef : s'.agentDeferred = s.agentDeferred) (hunc : s'.uncertainAgents = s.uncertainAgents) :
    SlotInv s' := by
  have hcases : ∀ w', (w' = w ∧ s'.worker w' = .busy task fenced stage') ∨
      s'.worker w' = s.worker w' := by
    intro w'
    by_cases hww : w' = w
    · exact .inl ⟨hww, by rw [hs', hww, Function.update_self]⟩
    · exact .inr (by rw [hs', Function.update_of_ne hww])
  refine h.congr ?_ ?_ ?_ hpre hrun hdef hunc ?_ ?_
  · intro w'
    rcases hcases w' with ⟨rfl, hw'⟩ | hw'
    · rw [hw', hpc]
      rfl
    · rw [hw']
  · intro w' a hw
    rcases hcases w' with ⟨rfl, hw'⟩ | hw'
    · have hagent : task.catalogAgentId = a := by
        have hown := owns_of_executes hw
        rw [hw'] at hown
        exact Option.some.inj hown
      subst hagent
      rw [hw'] at hw
      cases fenced with
      | true => cases stage' <;> cases hw
      | false =>
        rw [hpc]
        cases stage <;> first | rfl | exact absurd rfl hrel
    · rwa [hw'] at hw
  · rintro a t - (ht | ⟨w', hw'⟩)
    · exact .inl (by rwa [hpending])
    · refine .inr ⟨w', ?_⟩
      rcases hcases w' with ⟨rfl, -⟩ | heq
      · rw [hpc] at hw'
        cases hw'
      · rwa [heq]
  · intro w' t st hw
    rcases hcases w' with ⟨rfl, hw'⟩ | hw'
    · rw [hw'] at hw
      cases hw
      exact ⟨hfenced rfl, (h.fenced w' task stage hpc).2⟩
    · rw [hw'] at hw
      exact h.fenced w' t st hw
  · intro w' t hw
    rcases hcases w' with ⟨rfl, hw'⟩ | hw'
    · rw [hw'] at hw
      cases hw
      exact absurd rfl hstart
    · rwa [hw'] at hw

/-- A busy worker's move fences at most its own task's agent, and a fenced worker stays on the way
to its unknown outcome. -/
theorem stageStep_fences {task : VerificationTask} {sh sh' : Shared} {stage stage' : Stage}
    (h : StageStep task sh stage sh' stage') :
    (sh'.uncertainAgents = sh.uncertainAgents ∨
        ((∃ reason, stage = .fencing reason) ∧
          sh'.uncertainAgents = Scheduler.fenceAgent sh.uncertainAgents task)) ∧
      (stage.Fenced → stage'.Fenced) := by
  cases h with
  | fences => exact ⟨.inr ⟨⟨_, rfl⟩, rfl⟩, id⟩
  | finishRaisesCompleted exc hcompleted hwrite | finishRaises exc hcompleted hwrite =>
    refine ⟨.inl ?_, fun h => h.elim⟩
    rcases hwrite with rfl | ⟨ledger, count, now, -, rfl⟩ <;> rfl
  | workerErrorWritten hwrite =>
    refine ⟨.inl ?_, fun h => h.elim⟩
    rcases hwrite with rfl | ⟨ledger, count, now, -, rfl⟩ <;> rfl
  | _ => exact ⟨.inl rfl, fun h => by trivial⟩

theorem slotInv_work {s : Scheduler ω κ} {w : ω} {task : VerificationTask} {fenced : Bool}
    {stage stage' : Stage} {sh : Shared} (h : SlotInv s)
    (hpc : s.worker w = .busy task fenced stage)
    (hstage : StageStep task s.shared stage sh stage') :
    SlotInv ((s.setShared sh).setWorker w (.busy task fenced stage')) := by
  obtain ⟨-, hrel, hstart, -⟩ := stageStep_stages hstage
  obtain ⟨hunc, hkeep⟩ := stageStep_fences hstage
  have hfenced : fenced = true → stage'.Fenced := by
    rintro rfl
    exact hkeep (h.fenced w task stage hpc).1
  rcases hunc with hunc | ⟨⟨reason, rfl⟩, hunc⟩
  · exact slotInv_busy h hpc rfl hrel hstart hfenced rfl rfl rfl rfl hunc
  · have hfence := h.fence task fun w' t hw' hagent => by
      have hnone := h.starting w' t hw'
      have hw : w = w' := by
        cases fenced with
        | true => exact absurd (hagent ▸ hnone) (h.fenced w task _ hpc).2
        | false =>
          exact h.executing task.catalogAgentId w w' (by rw [hpc]; rfl) (by rw [hw', ← hagent]; rfl)
      subst hw
      rw [hpc] at hw'
      cases hw'
    exact slotInv_busy hfence hpc rfl hrel hstart hfenced rfl rfl rfl rfl hunc

theorem workerStep_slotInv {w : ω} {s s' : Scheduler ω κ} (hstep : WorkerStep w s s')
    (hplaced : Placed s) (h : SlotInv s) : SlotInv s' := by
  obtain ⟨place, hplace⟩ := hplaced
  cases hstep with
  | seesOpen hpc hopen => exact slotInv_carry h (by rw [hpc]; rfl) rfl (by rw [hpc]; rfl)
  | seesShutdown hpc hshut => exact slotInv_carry h (by rw [hpc]; rfl) rfl (by rw [hpc]; rfl)
  | exits hpc hdrained =>
    have hnone := hplace.no_holder_of_drained hdrained w
    refine slotInv_carry h (by rw [hpc]; rfl) rfl ?_
    rw [hpc] at hnone ⊢
    exact hnone.symm
  | goesOn hpc hdrained => exact slotInv_carry h (by rw [hpc]; rfl) rfl (by rw [hpc]; rfl)
  | takesHandoff hpc => exact slotInv_carry h (by rw [hpc]; rfl) rfl (by rw [hpc]; rfl)
  | dequeues hpc hpending => exact slotInv_dequeue h hpc hpending
  | findsEmpty hpc hpending => exact slotInv_carry h (by rw [hpc]; rfl) rfl (by rw [hpc]; rfl)
  | claims hpc => exact slotInv_claim h hpc
  | runs hpc =>
    refine slotInv_busy h hpc rfl (by simp) (by simp) ?_ rfl rfl rfl rfl rfl
    rintro rfl
    exact (h.fenced w _ _ hpc).1.elim
  | works hpc hstage => exact slotInv_work h hpc hstage
  | records hpc =>
    exact slotInv_busy h hpc rfl (by simp) (by simp) (fun _ => trivial) rfl rfl rfl rfl rfl
  | releases hpc => exact slotInv_release h hpc fun t ht => (hplace.deferred _ t ht).2.1
  | requeues hpc hroom => exact slotInv_requeue h hpc
  | carries hpc hfull => exact slotInv_carry h (by rw [hpc]; rfl) rfl (by rw [hpc]; rfl)

/-- What a step of `enqueue` can do to the state that workers share. -/
theorem callerStep_frame {c : κ} {s s' : Scheduler ω κ} (hstep : CallerStep c s s') :
    s'.worker = s.worker ∧ s'.agentRunning = s.agentRunning ∧
      s'.agentDeferred = s.agentDeferred ∧ s'.agentPreclaimed = s.agentPreclaimed ∧
      s'.executed = s.executed ∧ s'.shutdown = s.shutdown ∧
      (s'.pending = s.pending ∨ ∃ task, s'.pending = s.pending ++ [task]) ∧
      (s'.uncertainAgents = s.uncertainAgents ∨
        ∃ task, s.uncertainAgents task.catalogAgentId ≠ none ∧
          s'.uncertainAgents = Scheduler.fenceAgent s.uncertainAgents task) := by
  cases hstep with
  | admissionBlocked finishedAt now hpc hfence =>
    exact ⟨rfl, rfl, rfl, rfl, rfl, rfl, .inl rfl, .inr ⟨_, isUncertain_eq_true.mp hfence, rfl⟩⟩
  | admissionBlockedUnmarked now exc hpc hfence =>
    exact ⟨rfl, rfl, rfl, rfl, rfl, rfl, .inl rfl, .inr ⟨_, isUncertain_eq_true.mp hfence, rfl⟩⟩
  | puts hpc hroom => exact ⟨rfl, rfl, rfl, rfl, rfl, rfl, .inr ⟨_, rfl⟩, .inl rfl⟩
  | _ => exact ⟨rfl, rfl, rfl, rfl, rfl, rfl, .inl rfl, .inl rfl⟩

theorem callerStep_slotInv {c : κ} {s s' : Scheduler ω κ} (hstep : CallerStep c s s')
    (h : SlotInv s) : SlotInv s' := by
  obtain ⟨hworker, hrun, hdef, hpre, -, -, hpending, hunc⟩ := callerStep_frame hstep
  have htransit : ∀ t, InTransit s t → InTransit s' t := by
    rintro t (ht | ⟨w, hw⟩)
    · refine .inl ?_
      rcases hpending with heq | ⟨task, heq⟩ <;> rw [heq]
      · exact ht
      · exact List.mem_append_left _ ht
    · exact .inr ⟨w, by rwa [hworker]⟩
  have hsame : ∀ {u : Scheduler ω κ}, SlotInv u → u.worker = s.worker →
      u.agentPreclaimed = s.agentPreclaimed → u.agentRunning = s.agentRunning →
      u.agentDeferred = s.agentDeferred → u.pending = s.pending →
      s'.uncertainAgents = u.uncertainAgents → SlotInv s' := by
    intro u hu hw hp hr hd hpd hun
    refine hu.congr ?_ ?_ ?_ (hpre.trans hp.symm) (hrun.trans hr.symm) (hdef.trans hd.symm) hun
      ?_ ?_
    · intro w
      rw [hworker, hw]
    · intro w a hex
      rwa [hw, ← hworker]
    · intro a t _ ht
      apply htransit
      simpa only [InTransit, hw, hpd] using ht
    · intro w t stage hb
      rw [hworker, ← hw] at hb
      exact hu.fenced w t stage hb
    · intro w t hb
      rwa [hw, ← hworker]
  rcases hunc with hunc | ⟨task, hfenced, hunc⟩
  · exact hsame h rfl rfl rfl rfl rfl hunc
  · have hfence := h.fence task fun w t hw hagent => hfenced (hagent ▸ h.starting w t hw)
    exact hsame hfence rfl rfl rfl rfl rfl hunc

theorem slotInv_init (s : Scheduler ω κ) (h : s.Constructed) : SlotInv s := by
  obtain ⟨config, ledger, dbOpen, env, usedIds, hkey, hused, rfl⟩ := h
  refine ⟨?_, ?_, ?_, ?_, ?_, ?_, ?_, ?_⟩
  · intro a task ht
    cases ht
  · intro a _ w w' hw
    cases hw
  · rintro a _ ⟨w, hw⟩
    cases hw
  · intro a _
    constructor
    · intro hrun
      cases hrun
    · rintro (⟨w, hw⟩ | hne)
      · cases hw
      · exact absurd rfl hne
  · intro a ha
    exact absurd rfl ha
  · intro a w w' hw
    cases hw
  · intro w task stage hw
    cases hw
  · intro w task hw
    cases hw

end KiwiCatalog.Queue
