import KiwiCatalog.Discovery.BoundedResolver

/-!
# ResolverInvariant — slots, items and futures along a run

The free slots and the places where a slot is taken add up to six, and an item is in one place at a
time.  So the queue has room for whoever has a slot, and no worker meets a future that it does not
expect.
-/

set_option autoImplicit false

namespace KiwiCatalog.Discovery.Dns

open Concurrency

variable {ε α : Type} {s t : System ε α}

/-! ## 1. Counting -/

/-- A worker on the way of no exception. -/
def WorkerAt.Calm (place : WorkerAt ε α) : Prop :=
  place ≠ .terminated ∧ (∀ item, place ≠ .leaving item true) ∧ place ≠ .released true

structure Counts (s : System ε α) : Prop where
  initial : s.admission.initial = slots
  maxsize : s.workQueue.maxsize = slots
  slots_taken : s.admission.value + s.entering.length + s.refused.length +
    s.workQueue.items.length + total WorkerAt.holding s.workers = slots
  open_tasks : s.workQueue.unfinishedTasks =
    s.workQueue.items.length + total WorkerAt.undone s.workers
  account : ∀ item, s.admissions item = s.releases item + s.held item
  once : ∀ item, (s.waiting.map Call.number).count item + s.admissions item ≤
    if item < s.calls then 1 else 0
  no_refusal : s.refused = []
  calm : ∀ w, (s.workers w).Calm

theorem count_record (history : List Event) (e e' : Event) :
    (history ++ [e]).count e' = history.count e' + if e = e' then 1 else 0 := by
  rw [List.count_append, List.count_singleton]
  by_cases h : e = e'
  · rw [if_pos h, h]
    simp
  · rw [if_neg h]
    simp [h]

theorem Counts.setFuture (h : Counts s) (item : Nat) (f : Future ε α) :
    Counts (s.setFuture item f) :=
  ⟨h.initial, h.maxsize, h.slots_taken, h.open_tasks, h.account, h.once, h.no_refusal, h.calm⟩

/-- Events that are no admission and no release count nothing. -/
theorem Counts.record (h : Counts s) {e : Event} (hadmitted : ∀ item, e ≠ .admitted item)
    (hreleased : ∀ item, e ≠ .released item) : Counts (s.record e) := by
  have hadmissions : ∀ item, (s.record e).admissions item = s.admissions item := by
    intro item
    unfold System.admissions System.record
    rw [count_record, if_neg (hadmitted item)]
    rfl
  have hreleases : ∀ item, (s.record e).releases item = s.releases item := by
    intro item
    unfold System.releases System.record
    rw [count_record, if_neg (hreleased item)]
    rfl
  exact
    { initial := h.initial
      maxsize := h.maxsize
      slots_taken := h.slots_taken
      open_tasks := h.open_tasks
      account := by
        intro item
        rw [hadmissions, hreleases]
        exact h.account item
      once := by
        intro item
        rw [hadmissions]
        exact h.once item
      no_refusal := h.no_refusal
      calm := h.calm }

theorem calm_update {workers : Fin 2 → WorkerAt ε α} (h : ∀ w, (workers w).Calm) {w : Fin 2}
    {place : WorkerAt ε α} (hplace : place.Calm) :
    ∀ w', (Function.update workers w place w').Calm := by
  intro w'
  by_cases hw : w' = w
  · rw [hw, Function.update_self]
    exact hplace
  · rw [Function.update_of_ne hw]
    exact h w'

/-- A worker that keeps its item. -/
theorem Counts.move (h : Counts s) {w : Fin 2} {place : WorkerAt ε α}
    (hitem : place.item? = (s.workers w).item?) (hundone : place.undone = (s.workers w).undone)
    (hcalm : place.Calm) : Counts (s.move w place) := by
  have htotal : ∀ f : WorkerAt ε α → Nat, f place = f (s.workers w) →
      total f (Function.update s.workers w place) = total f s.workers := by
    intro f hf
    have hupdate := total_update f s.workers w place
    omega
  have hholding : place.holding = (s.workers w).holding := by
    unfold WorkerAt.holding
    rw [hitem]
  have hholds : ∀ item, place.holds item = (s.workers w).holds item := by
    intro item
    unfold WorkerAt.holds
    rw [hitem]
  exact
    { initial := h.initial
      maxsize := h.maxsize
      slots_taken := by
        show _ + total WorkerAt.holding (Function.update s.workers w place) = _
        rw [htotal _ hholding]
        exact h.slots_taken
      open_tasks := by
        show _ = _ + total WorkerAt.undone (Function.update s.workers w place)
        rw [htotal _ hundone]
        exact h.open_tasks
      account := by
        intro item
        have haccount := h.account item
        unfold System.held at haccount ⊢
        show s.admissions item = s.releases item + (s.entering.count item +
          s.refused.count item + s.workQueue.items.count item +
            total (WorkerAt.holds item) (Function.update s.workers w place))
        rw [htotal _ (hholds item)]
        exact haccount
      once := h.once
      no_refusal := h.no_refusal
      calm := calm_update h.calm hcalm }

theorem WorkerAt.holding_of_item {place : WorkerAt ε α} {item : Nat}
    (h : place.item? = some item) : place.holding = 1 := by
  unfold holding
  rw [h]
  rfl

theorem WorkerAt.holds_of_item {place : WorkerAt ε α} {item : Nat}
    (h : place.item? = some item) (item' : Nat) :
    place.holds item' = if item = item' then 1 else 0 := by
  unfold holds
  rw [h]
  by_cases heq : item = item'
  · rw [if_pos (congrArg some heq), if_pos heq]
  · rw [if_neg (fun hsome => heq (Option.some.inj hsome)), if_neg heq]

theorem WorkerAt.holding_of_none {place : WorkerAt ε α} (h : place.item? = none) :
    place.holding = 0 := by
  unfold holding
  rw [h]
  rfl

theorem WorkerAt.holds_of_none {place : WorkerAt ε α} (h : place.item? = none) (item : Nat) :
    place.holds item = 0 := by
  unfold holds
  rw [h]
  rfl

theorem init_counts : Counts (init : System ε α) where
  initial := rfl
  maxsize := rfl
  slots_taken := rfl
  open_tasks := rfl
  account := fun _ => rfl
  once := fun _ => Nat.zero_le _
  no_refusal := rfl
  calm := fun _ => ⟨nofun, nofun, nofun⟩

/-! ## 2. What each operation keeps -/

theorem Counts.get (h : Counts s) {w : Fin 2} {item : Nat} {q : Queue Nat}
    (hw : s.workers w = .getting) (hget : s.workQueue.get = some (item, q)) :
    Counts (({ s with workQueue := q } : System ε α).move w (.taken item)) := by
  obtain ⟨hitems, hmaxsize, htasks⟩ := Queue.get_eq hget
  have hlength := congrArg List.length hitems
  rw [List.length_cons] at hlength
  have hslots := h.slots_taken
  have hopen := h.open_tasks
  have hholding := total_update WorkerAt.holding s.workers w (.taken item)
  have hundone := total_update WorkerAt.undone s.workers w (.taken item)
  rw [hw] at hholding hundone
  change _ + 0 = _ + 1 at hholding
  change _ + 0 = _ + 1 at hundone
  exact
    { initial := h.initial
      maxsize := hmaxsize.trans h.maxsize
      slots_taken := by
        show s.admission.value + s.entering.length + s.refused.length + q.items.length +
          total WorkerAt.holding (Function.update s.workers w (.taken item)) = slots
        omega
      open_tasks := by
        show q.unfinishedTasks = q.items.length +
          total WorkerAt.undone (Function.update s.workers w (.taken item))
        omega
      account := by
        intro item'
        have haccount := h.account item'
        have hholds := total_update (WorkerAt.holds item') s.workers w (.taken item)
        rw [hw, WorkerAt.holds_of_none rfl,
          WorkerAt.holds_of_item (show (WorkerAt.taken item : WorkerAt ε α).item? = some item from
            rfl)] at hholds
        unfold System.held at haccount ⊢
        rw [hitems, List.count_cons] at haccount
        show s.admissions item' = s.releases item' + (s.entering.count item' +
          s.refused.count item' + q.items.count item' +
            total (WorkerAt.holds item') (Function.update s.workers w (.taken item)))
        by_cases heq : item = item'
        · simp only [heq, beq_self_eq_true, if_true] at haccount hholds ⊢
          omega
        · simp only [heq, beq_iff_eq, if_false] at haccount hholds ⊢
          omega
      once := h.once
      no_refusal := h.no_refusal
      calm := calm_update h.calm ⟨nofun, nofun, nofun⟩ }

theorem Counts.release (h : Counts s) {w : Fin 2} {item : Nat} {sem : Semaphore}
    (hw : s.workers w = .leaving item false) (hrelease : s.admission.release = some sem) :
    Counts ((({ s with admission := sem } : System ε α).move w (.released false)).record
      (.released item)) := by
  obtain ⟨hinitial, hvalue⟩ := Semaphore.release_eq hrelease
  have hslots := h.slots_taken
  have hopen := h.open_tasks
  have hholding := total_update WorkerAt.holding s.workers w (.released false)
  have hundone := total_update WorkerAt.undone s.workers w (.released false)
  rw [hw] at hholding hundone
  change _ + 1 = _ + 0 at hholding
  change _ + 1 = _ + 1 at hundone
  exact
    { initial := hinitial.trans h.initial
      maxsize := h.maxsize
      slots_taken := by
        show sem.value + s.entering.length + s.refused.length + s.workQueue.items.length +
          total WorkerAt.holding (Function.update s.workers w (.released false)) = slots
        omega
      open_tasks := by
        show s.workQueue.unfinishedTasks = s.workQueue.items.length +
          total WorkerAt.undone (Function.update s.workers w (.released false))
        omega
      account := by
        intro item'
        have haccount := h.account item'
        have hholds := total_update (WorkerAt.holds item') s.workers w (.released false)
        have hitem : (WorkerAt.leaving item false : WorkerAt ε α).item? = some item := rfl
        have hnone : (WorkerAt.released false : WorkerAt ε α).item? = none := rfl
        rw [hw, WorkerAt.holds_of_item hitem, WorkerAt.holds_of_none hnone] at hholds
        unfold System.held at haccount ⊢
        show (s.history ++ [Event.released item]).count (.admitted item') =
          (s.history ++ [Event.released item]).count (.released item') +
            (s.entering.count item' + s.refused.count item' + s.workQueue.items.count item' +
              total (WorkerAt.holds item') (Function.update s.workers w (.released false)))
        have hother : Event.released item ≠ .admitted item' := nofun
        rw [count_record, count_record, if_neg hother]
        unfold System.admissions System.releases at haccount
        by_cases heq : item = item'
        · rw [if_pos heq] at hholds
          rw [if_pos (congrArg Event.released heq)]
          omega
        · rw [if_neg heq] at hholds
          rw [if_neg fun hevent => heq (Event.released.inj hevent)]
          omega
      once := by
        intro item'
        show _ + (s.history ++ [Event.released item]).count (.admitted item') ≤ _
        have hother : Event.released item ≠ .admitted item' := nofun
        rw [count_record, if_neg hother]
        exact h.once item'
      no_refusal := h.no_refusal
      calm := calm_update h.calm ⟨nofun, nofun, nofun⟩ }

theorem Counts.done (h : Counts s) {w : Fin 2} {q : Queue Nat}
    (hw : s.workers w = .released false) (hdone : s.workQueue.taskDone = some q) :
    Counts (({ s with workQueue := q } : System ε α).move w .getting) := by
  obtain ⟨hmaxsize, hitems, htasks⟩ := Queue.taskDone_eq hdone
  have hslots := h.slots_taken
  have hopen := h.open_tasks
  have hholding := total_update WorkerAt.holding s.workers w .getting
  have hundone := total_update WorkerAt.undone s.workers w .getting
  rw [hw] at hholding hundone
  change _ + 0 = _ + 0 at hholding
  change _ + 1 = _ + 0 at hundone
  exact
    { initial := h.initial
      maxsize := hmaxsize.trans h.maxsize
      slots_taken := by
        show s.admission.value + s.entering.length + s.refused.length + q.items.length +
          total WorkerAt.holding (Function.update s.workers w .getting) = slots
        rw [hitems]
        omega
      open_tasks := by
        show q.unfinishedTasks = q.items.length +
          total WorkerAt.undone (Function.update s.workers w .getting)
        rw [hitems]
        omega
      account := by
        intro item
        have haccount := h.account item
        have hholds := total_update (WorkerAt.holds item) s.workers w .getting
        rw [hw, WorkerAt.holds_of_none rfl, WorkerAt.holds_of_none rfl] at hholds
        unfold System.held at haccount ⊢
        show s.admissions item = s.releases item + (s.entering.count item +
          s.refused.count item + q.items.count item +
            total (WorkerAt.holds item) (Function.update s.workers w .getting))
        rw [hitems]
        omega
      once := h.once
      no_refusal := h.no_refusal
      calm := calm_update h.calm ⟨nofun, nofun, nofun⟩ }

theorem Counts.call (h : Counts s) (timed : Bool) :
    Counts { s with calls := s.calls + 1, waiting := s.waiting ++ [⟨s.calls, timed⟩] } :=
  { initial := h.initial
    maxsize := h.maxsize
    slots_taken := h.slots_taken
    open_tasks := h.open_tasks
    account := h.account
    once := by
      intro item
      have honce := h.once item
      show ((s.waiting ++ [Call.mk s.calls timed]).map Call.number).count item +
        s.admissions item ≤ _
      rw [List.map_append, List.count_append, List.map_singleton, List.count_singleton]
      show _ ≤ if item < s.calls + 1 then 1 else 0
      by_cases heq : s.calls = item
      · subst heq
        rw [if_neg (Nat.lt_irrefl _)] at honce
        rw [if_pos (Nat.lt_succ_self _)]
        simp only [beq_self_eq_true, if_true]
        omega
      · simp only [beq_false_of_ne heq, Bool.false_eq_true, if_false]
        by_cases hcall : item < s.calls
        · rw [if_pos hcall] at honce
          rw [if_pos (Nat.lt_succ_of_lt hcall)]
          omega
        · rw [if_neg hcall] at honce
          omega
    no_refusal := h.no_refusal
    calm := h.calm }

theorem count_erase_call {waiting : List Call} {c : Call} (hc : c ∈ waiting) (item : Nat) :
    ((waiting.erase c).map Call.number).count item + (if c.number = item then 1 else 0) =
      (waiting.map Call.number).count item := by
  have hperm := (List.perm_cons_erase hc).map Call.number
  rw [hperm.count_eq, List.map_cons, List.count_cons]
  by_cases heq : c.number = item
  · simp [heq]
  · simp [heq]

theorem mem_of_erase_call {waiting : List Call} {c : Call} {item : Nat}
    (h : item ∈ (waiting.erase c).map Call.number) : item ∈ waiting.map Call.number :=
  List.map_subset _ List.erase_subset h

theorem Counts.acquire (h : Counts s) {c : Call} {sem : Semaphore} (hc : c ∈ s.waiting)
    (hacquire : s.admission.acquire = some sem) :
    Counts (({ s with
      admission := sem
      waiting := s.waiting.erase c
      entering := s.entering ++ [c.number] } : System ε α).record (.admitted c.number)) := by
  obtain ⟨hinitial, hvalue⟩ := Semaphore.acquire_eq hacquire
  have hslots := h.slots_taken
  exact
    { initial := hinitial.trans h.initial
      maxsize := h.maxsize
      slots_taken := by
        show sem.value + (s.entering ++ [c.number]).length + s.refused.length +
          s.workQueue.items.length + total WorkerAt.holding s.workers = slots
        rw [List.length_append, List.length_singleton]
        omega
      open_tasks := h.open_tasks
      account := by
        intro item
        have haccount := h.account item
        unfold System.held System.admissions System.releases at haccount
        show (s.history ++ [Event.admitted c.number]).count (.admitted item) =
          (s.history ++ [Event.admitted c.number]).count (.released item) +
            ((s.entering ++ [c.number]).count item + s.refused.count item +
              s.workQueue.items.count item + total (WorkerAt.holds item) s.workers)
        have hother : Event.admitted c.number ≠ .released item := nofun
        rw [count_record, count_record, if_neg hother, List.count_append, List.count_singleton]
        by_cases heq : c.number = item
        · rw [if_pos (congrArg Event.admitted heq)]
          simp only [heq, beq_self_eq_true, if_true]
          omega
        · rw [if_neg fun hevent => heq (Event.admitted.inj hevent)]
          simp only [beq_false_of_ne heq, Bool.false_eq_true, if_false]
          omega
      once := by
        intro item
        have honce := h.once item
        have hwaiting := count_erase_call hc item
        unfold System.admissions at honce
        show ((s.waiting.erase c).map Call.number).count item +
          (s.history ++ [Event.admitted c.number]).count (.admitted item) ≤ _
        rw [count_record]
        by_cases heq : c.number = item
        · rw [if_pos heq] at hwaiting
          rw [if_pos (congrArg Event.admitted heq)]
          show _ ≤ if item < s.calls then 1 else 0
          omega
        · rw [if_neg heq] at hwaiting
          rw [if_neg fun hevent => heq (Event.admitted.inj hevent)]
          show _ ≤ if item < s.calls then 1 else 0
          omega
      no_refusal := h.no_refusal
      calm := h.calm }

theorem Counts.expire (h : Counts s) {c : Call} (hc : c ∈ s.waiting) :
    Counts { s with waiting := s.waiting.erase c } :=
  { initial := h.initial
    maxsize := h.maxsize
    slots_taken := h.slots_taken
    open_tasks := h.open_tasks
    account := h.account
    once := by
      intro item
      have honce := h.once item
      have hwaiting := count_erase_call hc item
      show ((s.waiting.erase c).map Call.number).count item + s.admissions item ≤
        if item < s.calls then 1 else 0
      omega
    no_refusal := h.no_refusal
    calm := h.calm }

theorem Counts.put (h : Counts s) {item : Nat} {q : Queue Nat} (hitem : item ∈ s.entering)
    (hput : s.workQueue.putNowait item = some q) :
    Counts { s with
      workQueue := q
      entering := s.entering.erase item
      returned := s.returned ++ [item] } := by
  have hq := Queue.putNowait_eq hput
  have herase := List.length_erase_of_mem hitem
  have hpos := List.length_pos_of_mem hitem
  have hslots := h.slots_taken
  have hopen := h.open_tasks
  have hlength : q.items.length = s.workQueue.items.length + 1 := by
    rw [hq]
    exact List.length_append
  have htasks : q.unfinishedTasks = s.workQueue.unfinishedTasks + 1 := by
    rw [hq]
  exact
    { initial := h.initial
      maxsize := by
        rw [hq]
        exact h.maxsize
      slots_taken := by
        show s.admission.value + (s.entering.erase item).length + s.refused.length +
          q.items.length + total WorkerAt.holding s.workers = slots
        omega
      open_tasks := by
        show q.unfinishedTasks = q.items.length + total WorkerAt.undone s.workers
        omega
      account := by
        intro item'
        have haccount := h.account item'
        unfold System.held at haccount ⊢
        show s.admissions item' = s.releases item' + ((s.entering.erase item).count item' +
          s.refused.count item' + q.items.count item' + total (WorkerAt.holds item') s.workers)
        have hentering := (List.perm_cons_erase hitem).count_eq item'
        rw [List.count_cons] at hentering
        rw [hq, List.count_append, List.count_singleton]
        omega
      once := h.once
      no_refusal := h.no_refusal
      calm := h.calm }

/-- A call with a slot finds room in the queue. -/
theorem Counts.room (h : Counts s) {item : Nat} (hitem : item ∈ s.entering) :
    s.workQueue.items.length < s.workQueue.maxsize := by
  have hpos := List.length_pos_of_mem hitem
  have hslots := h.slots_taken
  rw [h.maxsize]
  omega

/-- A worker with an item has a slot to give back. -/
theorem Counts.slot_to_give (h : Counts s) {w : Fin 2} {item : Nat} {raised : Bool}
    (hw : s.workers w = .leaving item raised) : s.admission.release ≠ none := by
  intro hnone
  have hfull := Semaphore.release_none hnone
  have hslots := h.slots_taken
  have hle := le_total WorkerAt.holding s.workers w
  have hholding : (s.workers w).holding = 1 := WorkerAt.holding_of_item (by rw [hw]; rfl)
  rw [h.initial] at hfull
  omega

theorem Counts.task_to_end (h : Counts s) {w : Fin 2} {raised : Bool}
    (hw : s.workers w = .released raised) : s.workQueue.taskDone ≠ none := by
  intro hnone
  have hzero := Queue.taskDone_none hnone
  have hopen := h.open_tasks
  have hle := le_total WorkerAt.undone s.workers w
  have hundone : (s.workers w).undone = 1 := by
    rw [hw]
    rfl
  omega

/-- A worker with an item is the only place that has it. -/
theorem Counts.alone (h : Counts s) {w : Fin 2} {item : Nat}
    (hw : (s.workers w).item? = some item) :
    item < s.calls ∧ item ∉ s.waiting.map Call.number ∧ item ∉ s.entering ∧
      item ∉ s.workQueue.items ∧ ∀ w', (s.workers w').item? = some item → w' = w := by
  have haccount := h.account item
  have honce := h.once item
  have hholds : (s.workers w).holds item = 1 := by
    rw [WorkerAt.holds_of_item hw, if_pos rfl]
  have hle := le_total (WorkerAt.holds item) s.workers w
  unfold System.held at haccount
  split at honce
  · rename_i hcall
    refine ⟨hcall, ?_, ?_, ?_, ?_⟩
    · exact List.count_eq_zero.mp (by omega)
    · exact List.count_eq_zero.mp (by omega)
    · exact List.count_eq_zero.mp (by omega)
    · intro w' hw'
      by_contra hne
      have hholds' : (s.workers w').holds item = 1 := by
        rw [WorkerAt.holds_of_item hw', if_pos rfl]
      -- both workers would have a slot for it
      have hboth : total (WorkerAt.holds item) s.workers =
          (s.workers w).holds item + (s.workers w').holds item := by
        unfold total
        match w, w', hne with
        | 0, 0, hne => exact absurd rfl hne
        | 0, 1, _ => rfl
        | 1, 0, _ => exact Nat.add_comm _ _
        | 1, 1, hne => exact absurd rfl hne
      omega
  · omega

/-! ## 3. Futures -/

/-- No worker has looked at the item's future. -/
def System.Untouched (s : System ε α) (item : Nat) : Prop :=
  s.calls ≤ item ∨ item ∈ s.waiting.map Call.number ∨ item ∈ s.entering ∨
    item ∈ s.workQueue.items ∨ ∃ w, s.workers w = .taken item

/-- A worker has started the item's callable and has not settled its future. -/
def System.InHand (s : System ε α) (item : Nat) : Prop :=
  ∃ w, s.workers w = .running item ∨ ∃ outcome, s.workers w = .ended item outcome

structure FutureFacts (s : System ε α) : Prop where
  untaken : ∀ item, s.Untouched item → (s.futures item).Untaken
  in_hand : ∀ item, s.InHand item → s.futures item = .running
  ran : ∀ item, ((s.futures item).Started ∧ s.runs item = 1) ∨
    (¬ (s.futures item).Started ∧ s.runs item = 0)
  cancelled : ∀ item, Event.cancelled item ∈ s.history → (s.futures item).Cancelled

theorem init_futureFacts : FutureFacts (init : System ε α) where
  untaken := fun _ _ => .inl rfl
  in_hand := by
    rintro item ⟨w, hrunning | ⟨outcome, hended⟩⟩
    · cases hrunning
    · cases hended
  ran := fun _ => .inr ⟨Future.not_started_of_untaken (.inl rfl), rfl⟩
  cancelled := fun _ h => absurd h List.not_mem_nil

/-- A step that changes no future, starts nothing and cancels nothing. -/
theorem FutureFacts.of_same (h : FutureFacts s) (hfutures : t.futures = s.futures)
    (huntouched : ∀ item, t.Untouched item → s.Untouched item)
    (hhand : ∀ item, t.InHand item → s.InHand item)
    (hruns : ∀ item, t.runs item = s.runs item)
    (hcancelled : ∀ item, Event.cancelled item ∈ t.history → Event.cancelled item ∈ s.history) :
    FutureFacts t where
  untaken := by
    intro item hitem
    rw [hfutures]
    exact h.untaken item (huntouched item hitem)
  in_hand := by
    intro item hitem
    rw [hfutures]
    exact h.in_hand item (hhand item hitem)
  ran := by
    intro item
    rw [hfutures, hruns]
    exact h.ran item
  cancelled := by
    intro item hitem
    rw [hfutures]
    exact h.cancelled item (hcancelled item hitem)

/-- What another worker does with an item it does as before. -/
theorem taken_of_move {w : Fin 2} {place : WorkerAt ε α} {item : Nat}
    (hplace : place ≠ .taken item) (h : ∃ w', (s.move w place).workers w' = .taken item) :
    ∃ w', s.workers w' = .taken item := by
  obtain ⟨w', hw'⟩ := h
  refine ⟨w', ?_⟩
  change Function.update s.workers w place w' = .taken item at hw'
  by_cases heq : w' = w
  · rw [heq, Function.update_self] at hw'
    exact absurd hw' hplace
  · rwa [Function.update_of_ne heq] at hw'

theorem inHand_of_move {w : Fin 2} {place : WorkerAt ε α} {item : Nat}
    (hrunning : place ≠ .running item) (hended : ∀ outcome, place ≠ .ended item outcome)
    (h : (s.move w place).InHand item) : s.InHand item := by
  obtain ⟨w', hw'⟩ := h
  refine ⟨w', ?_⟩
  change Function.update s.workers w place w' = .running item ∨
    ∃ outcome, Function.update s.workers w place w' = .ended item outcome at hw'
  by_cases heq : w' = w
  · rw [heq, Function.update_self] at hw'
    rcases hw' with hr | ⟨outcome, he⟩
    · exact absurd hr hrunning
    · exact absurd he (hended outcome)
  · rwa [Function.update_of_ne heq] at hw'

/-- A worker gives up an item, or takes the next step with it, without a look at a future. -/
theorem FutureFacts.move (h : FutureFacts s) {w : Fin 2} {place : WorkerAt ε α}
    (htaken : ∀ item, place ≠ .taken item) (hrunning : ∀ item, place ≠ .running item)
    (hended : ∀ item outcome, place = .ended item outcome → s.InHand item) :
    FutureFacts (s.move w place) := by
  apply h.of_same (t := s.move w place) rfl
  · rintro item (hcalls | hwaiting | hentering | hitems | hworker)
    · exact .inl hcalls
    · exact .inr (.inl hwaiting)
    · exact .inr (.inr (.inl hentering))
    · exact .inr (.inr (.inr (.inl hitems)))
    · exact .inr (.inr (.inr (.inr (taken_of_move (htaken item) hworker))))
  · intro item hhand
    by_cases hplace : ∃ outcome, place = .ended item outcome
    · obtain ⟨outcome, heq⟩ := hplace
      exact hended item outcome heq
    · exact inHand_of_move (hrunning item) (fun outcome heq => hplace ⟨outcome, heq⟩) hhand
  · exact fun _ => rfl
  · exact fun _ hitem => hitem

theorem runs_record (s : System ε α) (e : Event) (item : Nat) :
    (s.record e).runs item = s.runs item + if e = .ran item then 1 else 0 :=
  count_record s.history e (.ran item)

theorem mem_record {s : System ε α} {e e' : Event} (h : e' ∈ (s.record e).history) :
    e' ∈ s.history ∨ e' = e := by
  rcases List.mem_append.mp h with hold | hnew
  · exact .inl hold
  · exact .inr (List.mem_singleton.mp hnew)

/-- An admission and a release change no future. -/
theorem FutureFacts.record (h : FutureFacts s) {e : Event} (hran : ∀ item, e ≠ .ran item)
    (hcancelled : ∀ item, e ≠ .cancelled item) : FutureFacts (s.record e) := by
  apply h.of_same (t := s.record e) rfl (fun _ hitem => hitem) (fun _ hitem => hitem)
  · intro item
    rw [runs_record, if_neg (hran item)]
    rfl
  · intro item hmem
    rcases mem_record hmem with hold | hnew
    · exact hold
    · exact absurd hnew.symm (hcancelled item)

/-- Nobody else has a look at the future of an item that a worker has. -/
theorem untouched_of_setFuture (hcounts : Counts s) {w : Fin 2} {item item' : Nat}
    {f : Future ε α} {place : WorkerAt ε α} (hw : (s.workers w).item? = some item)
    (htaken : ∀ item', place ≠ .taken item')
    (h : ((s.setFuture item f).move w place).Untouched item') :
    item' ≠ item ∧ s.Untouched item' := by
  obtain ⟨hcalls, hwaiting, hentering, hitems, halone⟩ := hcounts.alone hw
  constructor
  · rintro rfl
    rcases h with hnew | hwait | henter | hqueue | ⟨w', hw'⟩
    · exact Nat.not_le_of_lt hcalls hnew
    · exact hwaiting hwait
    · exact hentering henter
    · exact hitems hqueue
    · change Function.update s.workers w place w' = .taken item' at hw'
      by_cases heq : w' = w
      · rw [heq, Function.update_self] at hw'
        exact htaken item' hw'
      · rw [Function.update_of_ne heq] at hw'
        exact heq (halone w' (by rw [hw']; rfl))
  · rcases h with hnew | hwait | henter | hqueue | hworker
    · exact .inl hnew
    · exact .inr (.inl hwait)
    · exact .inr (.inr (.inl henter))
    · exact .inr (.inr (.inr (.inl hqueue)))
    · exact .inr (.inr (.inr (.inr (taken_of_move (htaken item') hworker))))

/-- A worker leaves an item whose future it has settled, or found cancelled. -/
theorem FutureFacts.leave (h : FutureFacts s) (hcounts : Counts s) {w : Fin 2} {item : Nat}
    {f : Future ε α} (hw : (s.workers w).item? = some item)
    (hstarted : f.Started ↔ (s.futures item).Started)
    (hcancelled : (s.futures item).Cancelled → f.Cancelled) :
    FutureFacts ((s.setFuture item f).move w (.leaving item false)) where
  untaken := by
    intro item' hitem
    have hplace : ∀ other, (WorkerAt.leaving item false : WorkerAt ε α) ≠ .taken other := nofun
    obtain ⟨hne, hold⟩ := untouched_of_setFuture hcounts hw hplace hitem
    show (Function.update s.futures item f item').Untaken
    rw [Function.update_of_ne hne]
    exact h.untaken item' hold
  in_hand := by
    intro item' hitem
    have hrunning : (WorkerAt.leaving item false : WorkerAt ε α) ≠ .running item' := nofun
    have hended : ∀ outcome, (WorkerAt.leaving item false : WorkerAt ε α) ≠
        .ended item' outcome := nofun
    have hold : s.InHand item' := inHand_of_move (s := s.setFuture item f) hrunning hended hitem
    obtain ⟨w', hw'⟩ := hitem
    change Function.update s.workers w (.leaving item false) w' = .running item' ∨
      ∃ outcome, Function.update s.workers w (.leaving item false) w' = .ended item' outcome at hw'
    have hother : w' ≠ w := by
      rintro rfl
      rw [Function.update_self] at hw'
      rcases hw' with hrunning | ⟨outcome, hended⟩
      · cases hrunning
      · cases hended
    have hne : item' ≠ item := by
      rintro rfl
      rw [Function.update_of_ne hother] at hw'
      apply hother
      apply (hcounts.alone hw).2.2.2.2
      rcases hw' with hrunning | ⟨outcome, hended⟩
      · rw [hrunning]
        rfl
      · rw [hended]
        rfl
    show Function.update s.futures item f item' = .running
    rw [Function.update_of_ne hne]
    exact h.in_hand item' hold
  ran := by
    intro item'
    show ((Function.update s.futures item f item').Started ∧ s.runs item' = 1) ∨
      (¬ (Function.update s.futures item f item').Started ∧ s.runs item' = 0)
    by_cases heq : item' = item
    · rw [heq, Function.update_self, hstarted]
      exact h.ran item
    · rw [Function.update_of_ne heq]
      exact h.ran item'
  cancelled := by
    intro item' hitem
    show (Function.update s.futures item f item').Cancelled
    by_cases heq : item' = item
    · rw [heq, Function.update_self]
      rw [heq] at hitem
      exact hcancelled (h.cancelled item hitem)
    · rw [Function.update_of_ne heq]
      exact h.cancelled item' hitem

/-- A worker starts the callable of an item whose future was pending. -/
theorem FutureFacts.start (h : FutureFacts s) (hcounts : Counts s) {w : Fin 2} {item : Nat}
    (hw : s.workers w = .taken item) (hpending : s.futures item = .pending) :
    FutureFacts (((s.setFuture item .running).move w (.running item)).record (.ran item)) where
  untaken := by
    intro item' hitem
    have hitem? : (s.workers w).item? = some item := by rw [hw]; rfl
    have hplace : ∀ other, (WorkerAt.running item : WorkerAt ε α) ≠ .taken other := nofun
    obtain ⟨hne, hold⟩ := untouched_of_setFuture (f := .running) hcounts hitem? hplace hitem
    show (Function.update s.futures item .running item').Untaken
    rw [Function.update_of_ne hne]
    exact h.untaken item' hold
  in_hand := by
    intro item' hitem
    show Function.update s.futures item .running item' = .running
    by_cases heq : item' = item
    · rw [heq, Function.update_self]
    · rw [Function.update_of_ne heq]
      apply h.in_hand item'
      have hplace : (WorkerAt.running item : WorkerAt ε α) ≠ .running item' :=
        fun hsame => heq (WorkerAt.running.inj hsame).symm
      exact inHand_of_move (s := s.setFuture item .running) hplace nofun hitem
  ran := by
    intro item'
    rw [runs_record]
    show ((Function.update s.futures item .running item').Started ∧ s.runs item' + _ = 1) ∨
      (¬ (Function.update s.futures item .running item').Started ∧ s.runs item' + _ = 0)
    by_cases heq : item' = item
    · rw [heq, Function.update_self, if_pos rfl]
      rcases h.ran item with ⟨hstarted, -⟩ | ⟨-, hruns⟩
      · rw [hpending] at hstarted
        exact absurd hstarted (Future.not_started_of_untaken (.inl rfl))
      · exact .inl ⟨.inl rfl, by rw [hruns]⟩
    · rw [Function.update_of_ne heq, if_neg fun hevent => heq (Event.ran.inj hevent).symm]
      exact h.ran item'
  cancelled := by
    intro item' hitem
    have hold : Event.cancelled item' ∈ s.history := by
      rcases mem_record hitem with hold | hnew
      · exact hold
      · cases hnew
    have hcancelled := h.cancelled item' hold
    show (Function.update s.futures item .running item').Cancelled
    by_cases heq : item' = item
    · -- a pending future has not been cancelled
      rw [heq, hpending] at hcancelled
      rcases hcancelled with hc | hc
      · cases hc
      · cases hc
    · rw [Function.update_of_ne heq]
      exact hcancelled

/-- A cancellation, whether it succeeds or not. -/
theorem FutureFacts.cancel (h : FutureFacts s) (item : Nat) :
    FutureFacts (s.setFuture item (s.futures item).cancel.1) where
  untaken := by
    intro item' hitem
    have hold := h.untaken item' hitem
    show (Function.update s.futures item (s.futures item).cancel.1 item').Untaken
    by_cases heq : item' = item
    · rw [heq, Function.update_self]
      rw [heq] at hold
      exact Future.untaken_cancel hold
    · rw [Function.update_of_ne heq]
      exact hold
  in_hand := by
    intro item' hitem
    have hold := h.in_hand item' hitem
    show Function.update s.futures item (s.futures item).cancel.1 item' = .running
    by_cases heq : item' = item
    · rw [heq] at hold
      rw [heq, Function.update_self, hold]
      rfl
    · rw [Function.update_of_ne heq]
      exact hold
  ran := by
    intro item'
    show ((Function.update s.futures item (s.futures item).cancel.1 item').Started ∧ _) ∨
      (¬ (Function.update s.futures item (s.futures item).cancel.1 item').Started ∧ _)
    by_cases heq : item' = item
    · rw [heq, Function.update_self, Future.started_cancel_iff]
      exact h.ran item
    · rw [Function.update_of_ne heq]
      exact h.ran item'
  cancelled := by
    intro item' hitem
    have hold := h.cancelled item' hitem
    show (Function.update s.futures item (s.futures item).cancel.1 item').Cancelled
    by_cases heq : item' = item
    · rw [heq] at hold
      rw [heq, Function.update_self]
      exact Future.cancelled_cancel hold
    · rw [Function.update_of_ne heq]
      exact hold

theorem FutureFacts.recordCancelled (h : FutureFacts s) {item : Nat}
    (hitem : (s.futures item).Cancelled) : FutureFacts (s.record (.cancelled item)) where
  untaken := h.untaken
  in_hand := h.in_hand
  ran := by
    intro item'
    have hother : Event.cancelled item ≠ .ran item' := nofun
    rw [runs_record, if_neg hother]
    exact h.ran item'
  cancelled := by
    intro item' hmem
    rcases mem_record hmem with hold | hnew
    · exact h.cancelled item' hold
    · rw [Event.cancelled.inj hnew]
      exact hitem

/-- What a worker takes from the queue was in the queue. -/
theorem FutureFacts.get (h : FutureFacts s) {w : Fin 2} {item : Nat} {q : Queue Nat}
    (hget : s.workQueue.get = some (item, q)) :
    FutureFacts (({ s with workQueue := q } : System ε α).move w (.taken item)) := by
  obtain ⟨hitems, -, -⟩ := Queue.get_eq hget
  apply h.of_same (t := ({ s with workQueue := q } : System ε α).move w (.taken item)) rfl
  · rintro item' (hcalls | hwaiting | hentering | hqueue | ⟨w', hw'⟩)
    · exact .inl hcalls
    · exact .inr (.inl hwaiting)
    · exact .inr (.inr (.inl hentering))
    · apply Or.inr ∘ Or.inr ∘ Or.inr ∘ Or.inl
      rw [hitems]
      exact List.mem_cons_of_mem _ hqueue
    · change Function.update s.workers w (.taken item) w' = .taken item' at hw'
      by_cases heq : w' = w
      · rw [heq, Function.update_self] at hw'
        apply Or.inr ∘ Or.inr ∘ Or.inr ∘ Or.inl
        rw [hitems, WorkerAt.taken.inj hw']
        exact List.mem_cons_self
      · rw [Function.update_of_ne heq] at hw'
        exact .inr (.inr (.inr (.inr ⟨w', hw'⟩)))
  · intro item' hhand
    have hrunning : (WorkerAt.taken item : WorkerAt ε α) ≠ .running item' := nofun
    have hended : ∀ outcome, (WorkerAt.taken item : WorkerAt ε α) ≠ .ended item' outcome := nofun
    exact inHand_of_move (s := { s with workQueue := q }) hrunning hended hhand
  · exact fun _ => rfl
  · exact fun _ hitem => hitem

/-! ## 4. Every run -/

structure Invariant (s : System ε α) : Prop where
  counts : Counts s
  futures : FutureFacts s

theorem invariant_worker {w : Fin 2} (h : Invariant s) (hstep : WorkerStep s w t) :
    Invariant t := by
  obtain ⟨hcounts, hfutures⟩ := h
  cases hstep with
  | get hw hget => exact ⟨hcounts.get hw hget, hfutures.get hget⟩
  | @start item f hw hset =>
    obtain ⟨hpending, rfl⟩ := Future.setRunning_eq_true hset
    have hadmitted : ∀ item', Event.ran item ≠ .admitted item' := nofun
    have hreleased : ∀ item', Event.ran item ≠ .released item' := nofun
    refine ⟨Counts.record ?_ hadmitted hreleased, hfutures.start hcounts hw hpending⟩
    apply (hcounts.setFuture _ _).move
    · show _ = (s.workers w).item?
      rw [hw]
      rfl
    · show _ = (s.workers w).undone
      rw [hw]
      rfl
    · exact ⟨nofun, nofun, nofun⟩
  | @skip item f hw hset =>
    obtain ⟨hcancelled, rfl⟩ := Future.setRunning_eq_false hset
    constructor
    · apply (hcounts.setFuture _ _).move
      · show _ = (s.workers w).item?
        rw [hw]
        rfl
      · show _ = (s.workers w).undone
        rw [hw]
        rfl
      · exact ⟨nofun, nofun, nofun⟩
    · apply hfutures.leave hcounts
      · rw [hw]
        rfl
      · rw [hcancelled]
        exact iff_of_false (Future.not_started_of_cancelled (.inr rfl))
          (Future.not_started_of_cancelled (.inl rfl))
      · exact fun _ => .inr rfl
  | @unexpected item hw hset =>
    have huntaken := hfutures.untaken item (.inr (.inr (.inr (.inr ⟨w, hw⟩))))
    exact absurd hset (Future.setRunning_ne_none huntaken)
  | @finish item outcome hw =>
    constructor
    · apply hcounts.move
      · rw [hw]
        rfl
      · rw [hw]
        rfl
      · exact ⟨nofun, nofun, nofun⟩
    · apply hfutures.move
      · exact nofun
      · exact nofun
      · intro item' outcome' heq
        injection heq with hitem
        exact ⟨w, .inl (hitem ▸ hw)⟩
  | @settle item outcome f hw hset =>
    have hrunning := hfutures.in_hand item ⟨w, .inr ⟨outcome, hw⟩⟩
    rw [hrunning] at hset
    have hf : f = .finished outcome := (Option.some.inj hset).symm
    constructor
    · apply (hcounts.setFuture _ _).move
      · show _ = (s.workers w).item?
        rw [hw]
        rfl
      · show _ = (s.workers w).undone
        rw [hw]
        rfl
      · exact ⟨nofun, nofun, nofun⟩
    · apply hfutures.leave hcounts
      · rw [hw]
        rfl
      · rw [hf, hrunning]
        exact iff_of_true (.inr ⟨outcome, rfl⟩) (.inl rfl)
      · intro hcancelled
        rw [hrunning] at hcancelled
        exact absurd (.inl rfl) (Future.not_started_of_cancelled hcancelled)
  | @invalid item outcome hw hset =>
    have hrunning := hfutures.in_hand item ⟨w, .inr ⟨outcome, hw⟩⟩
    rw [hrunning] at hset
    cases hset
  | @release item raised sem hw hrelease =>
    cases raised with
    | true => exact absurd hw ((hcounts.calm w).2.1 item)
    | false =>
      have hran : ∀ item', Event.released item ≠ .ran item' := nofun
      have hcancelled : ∀ item', Event.released item ≠ .cancelled item' := nofun
      refine ⟨hcounts.release hw hrelease, FutureFacts.record ?_ hran hcancelled⟩
      apply FutureFacts.move (s := { s with admission := sem })
      · exact hfutures.of_same rfl (fun _ hitem => hitem) (fun _ hitem => hitem) (fun _ => rfl)
          (fun _ hitem => hitem)
      · exact nofun
      · exact nofun
      · exact nofun
  | @releaseRaises item raised hw hrelease => exact absurd hrelease (hcounts.slot_to_give hw)
  | @done raised q hw hdone =>
    cases raised with
    | true => exact absurd hw (hcounts.calm w).2.2
    | false =>
      obtain ⟨-, hitems, -⟩ := Queue.taskDone_eq hdone
      refine ⟨hcounts.done hw hdone, ?_⟩
      apply FutureFacts.move (s := { s with workQueue := q })
      · apply hfutures.of_same (t := { s with workQueue := q }) rfl
        · rintro item (hcalls | hwaiting | hentering | hqueue | hworker)
          · exact .inl hcalls
          · exact .inr (.inl hwaiting)
          · exact .inr (.inr (.inl hentering))
          · exact .inr (.inr (.inr (.inl (hitems ▸ hqueue))))
          · exact .inr (.inr (.inr (.inr hworker)))
        · exact fun _ hitem => hitem
        · exact fun _ => rfl
        · exact fun _ hitem => hitem
      · exact nofun
      · exact nofun
      · exact nofun
  | @doneRaises raised hw hdone => exact absurd hdone (hcounts.task_to_end hw)

/-- What a call does before its item is in the queue, and after. -/
theorem invariant_step (h : Invariant s) (hstep : Step s t) : Invariant t := by
  obtain ⟨hcounts, hfutures⟩ := h
  cases hstep with
  | call timed =>
    refine ⟨hcounts.call timed, ?_⟩
    apply hfutures.of_same
    · rfl
    · rintro item (hcalls | hwaiting | hentering | hqueue | hworker)
      · exact .inl (Nat.le_of_succ_le hcalls)
      · change item ∈ (s.waiting ++ [Call.mk s.calls timed]).map Call.number at hwaiting
        rw [List.map_append, List.mem_append] at hwaiting
        rcases hwaiting with hold | hnew
        · exact .inr (.inl hold)
        · exact .inl (Nat.le_of_eq (List.mem_singleton.mp hnew).symm)
      · exact .inr (.inr (.inl hentering))
      · exact .inr (.inr (.inr (.inl hqueue)))
      · exact .inr (.inr (.inr (.inr hworker)))
    · exact fun _ hitem => hitem
    · exact fun _ => rfl
    · exact fun _ hitem => hitem
  | @acquire c sem hc hacquire =>
    have hran : ∀ item, Event.admitted c.number ≠ .ran item := nofun
    have hcancelled : ∀ item, Event.admitted c.number ≠ .cancelled item := nofun
    refine ⟨hcounts.acquire hc hacquire, FutureFacts.record ?_ hran hcancelled⟩
    apply hfutures.of_same
    · rfl
    · rintro item (hcalls | hwaiting | hentering | hqueue | hworker)
      · exact .inl hcalls
      · exact .inr (.inl (mem_of_erase_call hwaiting))
      · rcases List.mem_append.mp hentering with hold | hnew
        · exact .inr (.inr (.inl hold))
        · rw [List.mem_singleton.mp hnew]
          exact .inr (.inl (List.mem_map_of_mem hc))
      · exact .inr (.inr (.inr (.inl hqueue)))
      · exact .inr (.inr (.inr (.inr hworker)))
    · exact fun _ hitem => hitem
    · exact fun _ => rfl
    · exact fun _ hitem => hitem
  | @expire c hc htimed hacquire =>
    refine ⟨hcounts.expire hc, ?_⟩
    apply hfutures.of_same
    · rfl
    · rintro item (hcalls | hwaiting | hrest)
      · exact .inl hcalls
      · exact .inr (.inl (mem_of_erase_call hwaiting))
      · exact .inr (.inr hrest)
    · exact fun _ hitem => hitem
    · exact fun _ => rfl
    · exact fun _ hitem => hitem
  | @put item q hitem hput =>
    refine ⟨hcounts.put hitem hput, ?_⟩
    have hq := Queue.putNowait_eq hput
    apply hfutures.of_same
    · rfl
    · rintro item' (hcalls | hwaiting | hentering | hqueue | hworker)
      · exact .inl hcalls
      · exact .inr (.inl hwaiting)
      · exact .inr (.inr (.inl (List.mem_of_mem_erase hentering)))
      · change item' ∈ q.items at hqueue
        rw [hq, List.mem_append] at hqueue
        rcases hqueue with hold | hnew
        · exact .inr (.inr (.inr (.inl hold)))
        · rw [List.mem_singleton.mp hnew]
          exact .inr (.inr (.inl hitem))
      · exact .inr (.inr (.inr (.inr hworker)))
    · exact fun _ hitem => hitem
    · exact fun _ => rfl
    · exact fun _ hitem => hitem
  | @full item hitem hput =>
    exact absurd (Queue.putNowait_none hput) (Nat.not_le_of_lt (hcounts.room hitem))
  | giveBack hitem hrelease =>
    rw [hcounts.no_refusal] at hitem
    exact absurd hitem List.not_mem_nil
  | giveBackRaises hitem hrelease =>
    rw [hcounts.no_refusal] at hitem
    exact absurd hitem List.not_mem_nil
  | @cancel item hitem hdone =>
    have hadmitted : ∀ item', Event.cancelled item ≠ .admitted item' := nofun
    have hreleased : ∀ item', Event.cancelled item ≠ .released item' := nofun
    refine ⟨(hcounts.setFuture _ _).record hadmitted hreleased, ?_⟩
    apply (hfutures.cancel item).recordCancelled
    show (Function.update s.futures item (s.futures item).cancel.1 item).Cancelled
    rw [Function.update_self]
    exact Future.cancelled_of_cancel hdone
  | @cancelFails item hitem hdone => exact ⟨hcounts.setFuture _ _, hfutures.cancel item⟩
  | worker w hworker => exact invariant_worker ⟨hcounts, hfutures⟩ hworker

theorem reachable_invariant (h : Transition.Reachable Started Step s) : Invariant s := by
  apply Transition.reachable_invariant ?_ ?_ h
  · rintro s rfl
    exact ⟨init_counts, init_futureFacts⟩
  · exact fun s t hstep hs => invariant_step hs hstep

end KiwiCatalog.Discovery.Dns
