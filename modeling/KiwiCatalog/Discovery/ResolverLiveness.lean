import KiwiCatalog.Discovery.ResolverInvariant
import KiwiCatalog.Lib.Fairness

/-!
# ResolverLiveness — what every interleaving of the resolver keeps, and what it comes to

The invariant bounds the admitted items at every moment.  Along a run in which threads go on and
callables end, an admitted item moves up the queue, is taken, and gives its slot back.
-/

set_option autoImplicit false

namespace KiwiCatalog.Discovery.Dns

open Concurrency Fairness

variable {ε α : Type} {s t : System ε α}

/-! ## 1. Every moment -/

/-- The admitted items at `put_nowait`, in the queue or with a worker. -/
def System.load (s : System ε α) : Nat :=
  s.entering.length + s.refused.length + s.workQueue.items.length +
    total WorkerAt.holding s.workers

structure Bounded (s : System ε α) : Prop where
  load : s.load ≤ slots
  free : s.admission.value + s.load = slots
  room : ∀ item ∈ s.entering, s.workQueue.putNowait item ≠ none
  never_full : s.refused = []
  released : ∀ item, s.releases item ≤ s.admissions item ∧ s.admissions item ≤ 1
  ran : ∀ item, s.runs item ≤ 1
  cancelled : ∀ item, Event.cancelled item ∈ s.history → Event.ran item ∉ s.history
  alive : ∀ w, s.workers w ≠ .terminated

theorem Invariant.admitted_once (h : Invariant s) (item : Nat) : s.admissions item ≤ 1 := by
  have honce := h.counts.once item
  split at honce
  · omega
  · omega

theorem Invariant.bounded (h : Invariant s) : Bounded s where
  load := by
    have hslots := h.counts.slots_taken
    unfold System.load
    omega
  free := by
    have hslots := h.counts.slots_taken
    unfold System.load
    omega
  room := by
    intro item hitem hput
    exact absurd (Queue.putNowait_none hput) (Nat.not_le_of_lt (h.counts.room hitem))
  never_full := h.counts.no_refusal
  released := by
    intro item
    have haccount := h.counts.account item
    exact ⟨by omega, h.admitted_once item⟩
  ran := by
    intro item
    rcases h.futures.ran item with ⟨-, hruns⟩ | ⟨-, hruns⟩
    · omega
    · omega
  cancelled := by
    intro item hcancelled hran
    have hnot := Future.not_started_of_cancelled (h.futures.cancelled item hcancelled)
    rcases h.futures.ran item with ⟨hstarted, -⟩ | ⟨-, hruns⟩
    · exact hnot hstarted
    · exact List.count_eq_zero.mp hruns hran
  alive := fun w => (h.counts.calm w).1

/-! ## 2. What one step does to an item -/

theorem mem_history_of_worker {w : Fin 2} {e : Event} (h : WorkerStep s w t)
    (he : e ∈ s.history) : e ∈ t.history := by
  cases h with
  | start hw hset => exact List.mem_append_left _ he
  | release hw hrelease => exact List.mem_append_left _ he
  | _ => exact he

theorem mem_history_of_step {e : Event} (h : Step s t) (he : e ∈ s.history) : e ∈ t.history := by
  cases h with
  | acquire hc hacquire => exact List.mem_append_left _ he
  | giveBack hitem hrelease => exact List.mem_append_left _ he
  | cancel hitem hdone => exact List.mem_append_left _ he
  | worker w hworker => exact mem_history_of_worker hworker he
  | _ => exact he

/-- A step of one worker leaves the other where it is. -/
theorem workers_of_worker {w w' : Fin 2} (h : WorkerStep s w t) (hne : w' ≠ w) :
    t.workers w' = s.workers w' := by
  cases h with
  | _ => exact Function.update_of_ne hne _ _

/-- Who moves is a worker. -/
theorem workers_of_step (h : Step s t) (w : Fin 2) :
    t.workers w = s.workers w ∨ WorkerStep s w t := by
  cases h with
  | worker w' hworker =>
    by_cases heq : w = w'
    · exact .inr (heq ▸ hworker)
    · exact .inl (workers_of_worker hworker heq)
  | _ => exact .inl rfl

/-- The steps that a worker has before it, with its item. -/
def WorkerAt.toGo : WorkerAt ε α → Nat
  | getting => 0
  | taken _ => 5
  | running _ => 4
  | ended _ _ => 3
  | leaving _ _ => 2
  | released _ => 1
  | terminated => 0

theorem WorkerAt.toGo_le (place : WorkerAt ε α) : place.toGo ≤ 5 := by
  cases place with
  | _ => simp [toGo]

/-- A worker takes a step with what it has. -/
structure GoesOn (s t : System ε α) (w : Fin 2) : Prop where
  queue : t.workQueue.items = s.workQueue.items
  nearer : (t.workers w).toGo < (s.workers w).toGo
  keeps : ∀ item, (s.workers w).item? = some item →
    Event.released item ∈ t.history ∨ (t.workers w).item? = some item

theorem GoesOn.of_places {w : Fin 2} {old new : WorkerAt ε α} (hs : s.workers w = old)
    (ht : t.workers w = new) (hqueue : t.workQueue.items = s.workQueue.items)
    (hnearer : new.toGo < old.toGo)
    (hkeeps : ∀ item, old.item? = some item →
      Event.released item ∈ t.history ∨ new.item? = some item) : GoesOn s t w := by
  rw [← hs, ← ht] at hnearer
  rw [← hs, ← ht] at hkeeps
  exact ⟨hqueue, hnearer, hkeeps⟩

theorem worker_step (h : Invariant s) {w : Fin 2} (hstep : WorkerStep s w t) :
    (∃ item, s.workers w = .getting ∧ s.workQueue.items = item :: t.workQueue.items ∧
      t.workers w = .taken item) ∨ GoesOn s t w := by
  have hself : ∀ place : WorkerAt ε α, Function.update s.workers w place w = place :=
    fun place => Function.update_self _ _ _
  cases hstep with
  | @get item q hw hget =>
    obtain ⟨hitems, -, -⟩ := Queue.get_eq hget
    exact .inl ⟨item, hw, hitems, hself _⟩
  | start hw hset =>
    have hless : 4 < 5 := by decide
    exact .inr (.of_places hw (hself _) rfl hless fun item hitem => .inr hitem)
  | skip hw hset =>
    have hless : 2 < 5 := by decide
    exact .inr (.of_places hw (hself _) rfl hless fun item hitem => .inr hitem)
  | @unexpected item hw hset =>
    have huntaken := h.futures.untaken item (.inr (.inr (.inr (.inr ⟨w, hw⟩))))
    exact absurd hset (Future.setRunning_ne_none huntaken)
  | finish outcome hw =>
    have hless : 3 < 4 := by decide
    exact .inr (.of_places hw (hself _) rfl hless fun item hitem => .inr hitem)
  | settle hw hset =>
    have hless : 2 < 3 := by decide
    exact .inr (.of_places hw (hself _) rfl hless fun item hitem => .inr hitem)
  | @invalid item outcome hw hset =>
    have hrunning := h.futures.in_hand item ⟨w, .inr ⟨outcome, hw⟩⟩
    rw [hrunning] at hset
    cases hset
  | release hw hrelease =>
    apply Or.inr
    apply GoesOn.of_places hw
    · exact hself _
    · rfl
    · show 1 < 2
      decide
    · intro item hitem
      rw [← Option.some.inj hitem]
      exact .inl (List.mem_append_right _ List.mem_cons_self)
  | releaseRaises hw hrelease => exact absurd hrelease (h.counts.slot_to_give hw)
  | @done raised q hw hdone =>
    cases raised with
    | true => exact absurd hw (h.counts.calm w).2.2
    | false =>
      obtain ⟨-, hitems, -⟩ := Queue.taskDone_eq hdone
      have hless : 0 < 1 := by decide
      exact .inr (.of_places hw (hself _) hitems hless nofun)
  | doneRaises hw hdone => exact absurd hdone (h.counts.task_to_end hw)

theorem item_of_worker (h : Invariant s) {w : Fin 2} (hstep : WorkerStep s w t) {item : Nat}
    (hitem : (s.workers w).item? = some item) : Event.released item ∈ t.history ∨
      (t.workers w).item? = some item ∧ (t.workers w).toGo < (s.workers w).toGo := by
  rcases worker_step h hstep with ⟨head, hw, -, -⟩ | hon
  · rw [hw] at hitem
    cases hitem
  · rcases hon.keeps item hitem with hreleased | hkept
    · exact .inl hreleased
    · exact .inr ⟨hkept, hon.nearer⟩

/-- The steps of the first worker before it takes the item out, at most. -/
def System.distance (item : Nat) (s : System ε α) : Nat :=
  6 * s.workQueue.items.idxOf item + (s.workers ⟨0, Nat.two_pos⟩).toGo

theorem System.distance_eq (item : Nat) (s : System ε α) :
    s.distance item = 6 * s.workQueue.items.idxOf item + (s.workers 0).toGo := rfl

theorem queue_of_worker (h : Invariant s) {w : Fin 2} (hstep : WorkerStep s w t) {item : Nat}
    (hitem : item ∈ s.workQueue.items) : (∃ w', (t.workers w').item? = some item) ∨
      item ∈ t.workQueue.items ∧ t.distance item ≤ s.distance item ∧
        (w = 0 → t.distance item < s.distance item) := by
  rw [System.distance_eq, System.distance_eq]
  rcases worker_step h hstep with ⟨head, -, hitems, hw⟩ | hon
  · rw [hitems] at hitem
    by_cases heq : head = item
    · left
      refine ⟨w, ?_⟩
      rw [hw, heq]
      rfl
    · -- one place up in the queue
      have hbound := (t.workers 0).toGo_le
      have hplace : s.workQueue.items.idxOf item = t.workQueue.items.idxOf item + 1 := by
        rw [hitems]
        exact List.idxOf_cons_ne _ heq
      rcases List.mem_cons.mp hitem with hhead | htail
      · exact absurd hhead.symm heq
      · exact .inr ⟨htail, by omega, fun _ => by omega⟩
  · right
    rw [hon.queue]
    by_cases hfirst : w = 0
    · subst hfirst
      have hnearer := hon.nearer
      exact ⟨hitem, by omega, fun _ => by omega⟩
    · rw [workers_of_worker hstep (Ne.symm hfirst)]
      exact ⟨hitem, Nat.le_refl _, fun hzero => absurd hzero hfirst⟩

theorem queue_of_step (h : Invariant s) (hstep : Step s t) {item : Nat}
    (hitem : item ∈ s.workQueue.items) : (∃ w, (t.workers w).item? = some item) ∨
      item ∈ t.workQueue.items ∧ t.distance item ≤ s.distance item := by
  cases hstep with
  | worker w hworker =>
    rcases queue_of_worker h hworker hitem with htaken | ⟨hqueue, hle, -⟩
    · exact .inl htaken
    · exact .inr ⟨hqueue, hle⟩
  | @put item' q hentering hput =>
    right
    rw [Queue.putNowait_eq hput]
    refine ⟨List.mem_append_left _ hitem, ?_⟩
    show 6 * (s.workQueue.items ++ [item']).idxOf item + _ ≤ _
    rw [List.idxOf_append_of_mem hitem]
    exact Nat.le_refl _
  | _ => exact .inr ⟨hitem, Nat.le_refl _⟩

theorem entering_of_step (h : Invariant s) (hstep : Step s t) {item : Nat}
    (hitem : item ∈ s.entering) : item ∈ t.workQueue.items ∨ item ∈ t.entering := by
  cases hstep with
  | acquire hc hacquire => exact .inr (List.mem_append_left _ hitem)
  | @put item' q hentering hput =>
    by_cases heq : item = item'
    · left
      rw [Queue.putNowait_eq hput, heq]
      exact List.mem_append_right _ List.mem_cons_self
    · exact .inr ((List.mem_erase_of_ne heq).mpr hitem)
  | @full item' hentering hput =>
    exact absurd (Queue.putNowait_none hput) (Nat.not_le_of_lt (h.counts.room hentering))
  | worker w hworker =>
    right
    cases hworker with
    | _ => exact hitem
  | _ => exact .inr hitem

/-! ## 3. Fair runs -/

def Idle (w : Fin 2) (s : System ε α) : Prop :=
  s.workers w = .getting ∧ s.workQueue.items = [] ∨ s.workers w = .terminated

/-- A run in which threads go on: a callable ends, and a call with a slot comes to the end of its
`put_nowait`. -/
structure FairRun (ε α : Type) extends Path (Started (ε := ε) (α := α)) Step where
  workers_go_on : ∀ w, Fair state (Idle w) fun s t => WorkerStep s w t
  calls_go_on : ∀ item n, ∃ m, n ≤ m ∧ item ∉ (state m).entering

namespace FairRun

variable (run : FairRun ε α)

theorem invariant (n : Nat) : Invariant (run.state n) :=
  reachable_invariant (run.toPath.reachable n)

/-- A worker with an item comes to the release of its slot. -/
theorem held_leads (w : Fin 2) (item : Nat) :
    Leads run.state (fun s => (s.workers w).item? = some item)
      (fun s => Event.released item ∈ s.history) := by
  apply leads_of_rank (fun s => (s.workers w).toGo) (run.workers_go_on w)
  · rintro n hitem (⟨hgetting, -⟩ | hterminated)
    · rw [hgetting] at hitem
      cases hitem
    · rw [hterminated] at hitem
      cases hitem
  · intro n hitem
    have hmoves : (run.state (n + 1)).workers w = (run.state n).workers w ∨
        WorkerStep (run.state n) w (run.state (n + 1)) := by
      rcases run.next n with hsame | hstep
      · exact .inl (by rw [hsame])
      · exact workers_of_step hstep w
    rcases hmoves with hsame | hworker
    · rw [hsame]
      exact .inr ⟨hitem, Nat.le_refl _⟩
    · rcases item_of_worker (run.invariant n) hworker hitem with hreleased | ⟨hkept, hless⟩
      · exact .inl hreleased
      · exact .inr ⟨hkept, Nat.le_of_lt hless⟩
  · intro n hitem hworker
    exact item_of_worker (run.invariant n) hworker hitem

/-- A queued item comes to a worker. -/
theorem queued_leads (item : Nat) :
    Leads run.state (fun s => item ∈ s.workQueue.items)
      (fun s => ∃ w, (s.workers w).item? = some item) := by
  apply leads_of_rank (System.distance item) (run.workers_go_on 0)
  · rintro n hitem (⟨-, hempty⟩ | hterminated)
    · rw [hempty] at hitem
      exact List.not_mem_nil hitem
    · exact ((run.invariant n).counts.calm 0).1 hterminated
  · intro n hitem
    rcases run.next n with hsame | hstep
    · rw [hsame]
      exact .inr ⟨hitem, Nat.le_refl _⟩
    · exact queue_of_step (run.invariant n) hstep hitem
  · intro n hitem hworker
    rcases queue_of_worker (run.invariant n) hworker hitem with htaken | ⟨hqueue, -, hless⟩
    · exact .inl htaken
    · exact .inr ⟨hqueue, hless rfl⟩

/-- A call with a slot comes to put its item into the queue. -/
theorem entering_leads (item : Nat) :
    Leads run.state (fun s => item ∈ s.entering) (fun s => item ∈ s.workQueue.items) := by
  apply leads_of_ends
  · exact run.calls_go_on item
  · intro n hitem
    rcases run.next n with hsame | hstep
    · rw [hsame]
      exact .inr hitem
    · exact entering_of_step (run.invariant n) hstep hitem

/-- An admitted item is in one of the places of a slot, or has given it back. -/
theorem admitted_leads (item : Nat) :
    Leads run.state (fun s => Event.admitted item ∈ s.history)
      (fun s => Event.released item ∈ s.history) := by
  have htaken : Leads run.state (fun s => ∃ w, (s.workers w).item? = some item)
      (fun s => Event.released item ∈ s.history) := by
    rintro n ⟨w, hw⟩
    exact run.held_leads w item n hw
  have hqueued := (run.queued_leads item).trans htaken
  intro n hadmitted
  have haccount := (run.invariant n).counts.account item
  have hpos : 0 < (run.state n).admissions item := List.count_pos_iff.mpr hadmitted
  by_cases hreleased : Event.released item ∈ (run.state n).history
  · exact ⟨n, Nat.le_refl n, hreleased⟩
  · have hzero : (run.state n).releases item = 0 := List.count_eq_zero.mpr hreleased
    rw [hzero] at haccount
    unfold System.held at haccount
    by_cases hentering : item ∈ (run.state n).entering
    · exact (run.entering_leads item).trans hqueued n hentering
    · by_cases hqueue : item ∈ (run.state n).workQueue.items
      · exact hqueued n hqueue
      · rw [List.count_eq_zero.mpr hentering, List.count_eq_zero.mpr hqueue,
          (run.invariant n).counts.no_refusal, List.count_nil] at haccount
        -- so a worker has it
        apply htaken n
        by_contra hnone
        have hholds : ∀ w, ((run.state n).workers w).holds item = 0 := by
          intro w
          unfold WorkerAt.holds
          exact if_neg fun hw => hnone ⟨w, hw⟩
        unfold total at haccount
        rw [hholds 0, hholds 1] at haccount
        omega

theorem mem_history {n m : Nat} (h : n ≤ m) {e : Event} (he : e ∈ (run.state n).history) :
    e ∈ (run.state m).history :=
  Transition.run_relates (R := fun s t : System ε α => e ∈ s.history → e ∈ t.history)
    (fun _ hs => hs) (fun hst htu hs => htu (hst hs)) (P := fun _ => True)
    (fun _ _ _ _ => trivial) (fun _ hstep hs => mem_history_of_step hstep hs) trivial
    (run.toPath.run h) he

end FairRun

/-- Whatever the order of the steps, at most six items are admitted at a time and none is refused,
run twice or run after its cancellation; and each gives its slot back exactly once. -/
theorem resolver_bounded (ε α : Type) :
    (∀ s : System ε α, Transition.Reachable Started Step s → Bounded s) ∧
    ∀ (run : FairRun ε α) (n item : Nat), Event.admitted item ∈ (run.state n).history →
      ∃ m, n ≤ m ∧ ∀ k, m ≤ k → (run.state k).releases item = 1 := by
  constructor
  · exact fun s h => (reachable_invariant h).bounded
  · intro run n item hadmitted
    obtain ⟨m, hnm, hreleased⟩ := run.admitted_leads item n hadmitted
    refine ⟨m, hnm, fun k hmk => ?_⟩
    have hpos : 0 < (run.state k).releases item :=
      List.count_pos_iff.mpr (run.mem_history hmk hreleased)
    have hle := (run.invariant k).bounded.released item
    omega

/-! ## 4. A short run -/

def oneTaken : Semaphore := ⟨6, 5, by decide⟩

def queued : System Unit Unit := { init with
  admission := oneTaken, workQueue := ⟨6, [0], 1⟩, calls := 1, returned := [0]
  history := [.admitted 0] }

def second : Fin 2 := ⟨1, Nat.one_lt_two⟩

def given : System Unit Unit :=
  ({ queued with workQueue := ⟨6, [], 1⟩ } : System Unit Unit).move second (.taken 0)

def started : System Unit Unit :=
  ((given.setFuture 0 .running).move second (.running 0)).record (.ran 0)

def raised : System Unit Unit := started.move second (.ended 0 (.error ()))

def settled : System Unit Unit :=
  (raised.setFuture 0 (.finished (.error ()))).move second (.leaving 0 false)

def freed : System Unit Unit :=
  (({ settled with admission := .ofSlots 6 } : System Unit Unit).move second (.released false)).record
    (.released 0)

/-- The moments of one call, whose callable raises. -/
def moment : Nat → System Unit Unit
  | 0 => init
  | 1 => { init with calls := 1, waiting := [⟨0, true⟩] }
  | 2 => { init with calls := 1, admission := oneTaken, entering := [0], history := [.admitted 0] }
  | 3 => queued
  | 4 => given
  | 5 => started
  | 6 => raised
  | 7 => settled
  | 8 => freed
  | _ => ({ freed with workQueue := .empty 6 } : System Unit Unit).move second .getting

theorem moment_next (n : Nat) : moment (n + 1) = moment n ∨ Step (moment n) (moment (n + 1)) := by
  match n with
  | 0 => exact .inr (.call true)
  | 1 => exact .inr (.acquire (c := ⟨0, true⟩) List.mem_cons_self rfl)
  | 2 => exact .inr (@Step.put Unit Unit (moment 2) 0 ⟨6, [0], 1⟩ List.mem_cons_self rfl)
  | 3 => exact .inr (.worker second (.get rfl rfl))
  | 4 => exact .inr (.worker second (.start rfl rfl))
  | 5 => exact .inr (.worker second (.finish _ rfl))
  | 6 => exact .inr (.worker second (.settle rfl rfl))
  | 7 => exact .inr (.worker second (.release rfl rfl))
  | 8 => exact .inr (.worker second (@WorkerStep.done Unit Unit freed second false (.empty 6) rfl rfl))
  | n + 9 => exact .inl rfl

theorem moment_idle (w : Fin 2) (n : Nat) : Idle w (moment (n + 9)) := by
  left
  match w with
  | 0 => exact ⟨rfl, rfl⟩
  | 1 => exact ⟨rfl, rfl⟩

theorem moment_workers (w : Fin 2) : Fair moment (Idle w) fun s t => WorkerStep s w t :=
  fun n => ⟨n + 9, Nat.le_add_right _ _, .inl (moment_idle w n)⟩

theorem moment_calls (item n : Nat) : ∃ m, n ≤ m ∧ item ∉ (moment m).entering :=
  ⟨n + 9, Nat.le_add_right _ _, List.not_mem_nil⟩

def shortRun : FairRun Unit Unit := ⟨⟨moment, rfl, moment_next⟩, moment_workers, moment_calls⟩

theorem short_run_releases :
    ∃ m, 2 ≤ m ∧ ∀ k, m ≤ k → (shortRun.state k).releases 0 = 1 :=
  (resolver_bounded Unit Unit).2 shortRun 2 0 List.mem_cons_self

end KiwiCatalog.Discovery.Dns
