import KiwiCatalog.Lib.Concurrency
import KiwiCatalog.Lib.Transition
import Mathlib.Logic.Function.Basic

/-!
# BoundedResolver — two workers behind a semaphore and a queue

A submit call takes a slot, puts its item into the queue and returns the item's future; a worker
takes the item out, runs its callable unless the future has been cancelled, and gives the slot back.
Calls, cancellations and workers take their steps in any order, and a callable may end in any way.
-/

set_option autoImplicit false

namespace KiwiCatalog.Discovery.Dns

open Concurrency

variable {ε α : Type}

/-! ## 1. States -/

def slots : Nat := 6

/-- The number of a submit call stands for its item, `(future, fn, args, kwargs)`. -/
structure Call where
  number : Nat
  -- with an `admission_timeout`
  timed : Bool
  deriving DecidableEq

/-- Where a worker stands in `_worker`. -/
inductive WorkerAt (ε α : Type)
  | getting
  | taken (item : Nat)
  | running (item : Nat)
  -- the callable has returned or raised
  | ended (item : Nat) (outcome : Except ε α)
  -- in the `finally` clause, perhaps on the way of an exception
  | leaving (item : Nat) (raised : Bool)
  | released (raised : Bool)
  | terminated

inductive Event
  | admitted (item : Nat)
  | released (item : Nat)
  | ran (item : Nat)
  | cancelled (item : Nat)
  deriving DecidableEq

structure System (ε α : Type) where
  admission : Semaphore
  workQueue : Queue Nat
  futures : Nat → Future ε α
  workers : Fin 2 → WorkerAt ε α
  calls : Nat
  -- in `admission.acquire`
  waiting : List Call
  -- between `acquire` and `put_nowait`
  entering : List Nat
  -- `put_nowait` has raised
  refused : List Nat
  returned : List Nat
  history : List Event

def init : System ε α where
  admission := .ofSlots slots
  workQueue := .empty slots
  futures := fun _ => .pending
  workers := fun _ => .getting
  calls := 0
  waiting := []
  entering := []
  refused := []
  returned := []
  history := []

/-! ## 2. Steps -/

/-- A worker goes on. -/
def System.move (s : System ε α) (w : Fin 2) (place : WorkerAt ε α) : System ε α :=
  { s with workers := Function.update s.workers w place }

def System.setFuture (s : System ε α) (item : Nat) (f : Future ε α) : System ε α :=
  { s with futures := Function.update s.futures item f }

def System.record (s : System ε α) (e : Event) : System ε α :=
  { s with history := s.history ++ [e] }

/-- `_worker`. -/
inductive WorkerStep (s : System ε α) (w : Fin 2) : System ε α → Prop
  | get {item : Nat} {q : Queue Nat} (hw : s.workers w = .getting)
    (hget : s.workQueue.get = some (item, q)) :
    WorkerStep s w (({ s with workQueue := q } : System ε α).move w (.taken item))
  | start {item : Nat} {f : Future ε α} (hw : s.workers w = .taken item)
    (hset : (s.futures item).setRunningOrNotifyCancel = some (f, true)) :
    WorkerStep s w (((s.setFuture item f).move w (.running item)).record (.ran item))
  | skip {item : Nat} {f : Future ε α} (hw : s.workers w = .taken item)
    (hset : (s.futures item).setRunningOrNotifyCancel = some (f, false)) :
    WorkerStep s w ((s.setFuture item f).move w (.leaving item false))
  | unexpected {item : Nat} (hw : s.workers w = .taken item)
    (hset : (s.futures item).setRunningOrNotifyCancel = none) :
    WorkerStep s w (s.move w (.leaving item true))
  | finish {item : Nat} (outcome : Except ε α) (hw : s.workers w = .running item) :
    WorkerStep s w (s.move w (.ended item outcome))
  | settle {item : Nat} {outcome : Except ε α} {f : Future ε α}
    (hw : s.workers w = .ended item outcome)
    (hset : (s.futures item).setOutcome outcome = some f) :
    WorkerStep s w ((s.setFuture item f).move w (.leaving item false))
  | invalid {item : Nat} {outcome : Except ε α} (hw : s.workers w = .ended item outcome)
    (hset : (s.futures item).setOutcome outcome = none) :
    WorkerStep s w (s.move w (.leaving item true))
  | release {item : Nat} {raised : Bool} {sem : Semaphore}
    (hw : s.workers w = .leaving item raised) (hrelease : s.admission.release = some sem) :
    WorkerStep s w ((({ s with admission := sem } : System ε α).move w
      (.released raised)).record (.released item))
  | releaseRaises {item : Nat} {raised : Bool} (hw : s.workers w = .leaving item raised)
    (hrelease : s.admission.release = none) : WorkerStep s w (s.move w .terminated)
  | done {raised : Bool} {q : Queue Nat} (hw : s.workers w = .released raised)
    (hdone : s.workQueue.taskDone = some q) :
    WorkerStep s w (({ s with workQueue := q } : System ε α).move w
      (if raised then .terminated else .getting))
  | doneRaises {raised : Bool} (hw : s.workers w = .released raised)
    (hdone : s.workQueue.taskDone = none) : WorkerStep s w (s.move w .terminated)

/-- `submit`, the futures that it has returned, and the workers. -/
inductive Step (s : System ε α) : System ε α → Prop
  | call (timed : Bool) :
    Step s { s with calls := s.calls + 1, waiting := s.waiting ++ [⟨s.calls, timed⟩] }
  | acquire {c : Call} {sem : Semaphore} (hc : c ∈ s.waiting)
    (hacquire : s.admission.acquire = some sem) :
    Step s (({ s with
      admission := sem
      waiting := s.waiting.erase c
      entering := s.entering ++ [c.number] } : System ε α).record (.admitted c.number))
  -- the `TimeoutError`
  | expire {c : Call} (hc : c ∈ s.waiting) (htimed : c.timed = true)
    (hacquire : s.admission.acquire = none) : Step s { s with waiting := s.waiting.erase c }
  | put {item : Nat} {q : Queue Nat} (hitem : item ∈ s.entering)
    (hput : s.workQueue.putNowait item = some q) :
    Step s { s with
      workQueue := q
      entering := s.entering.erase item
      returned := s.returned ++ [item] }
  | full {item : Nat} (hitem : item ∈ s.entering) (hput : s.workQueue.putNowait item = none) :
    Step s { s with
      entering := s.entering.erase item
      refused := s.refused ++ [item] }
  -- `admission.release()` of the call whose `put_nowait` has raised
  | giveBack {item : Nat} {sem : Semaphore} (hitem : item ∈ s.refused)
    (hrelease : s.admission.release = some sem) :
    Step s (({ s with
      admission := sem
      refused := s.refused.erase item } : System ε α).record (.released item))
  | giveBackRaises {item : Nat} (hitem : item ∈ s.refused)
    (hrelease : s.admission.release = none) :
    Step s { s with refused := s.refused.erase item }
  | cancel {item : Nat} (hitem : item ∈ s.returned) (hdone : (s.futures item).cancel.2 = true) :
    Step s ((s.setFuture item (s.futures item).cancel.1).record (.cancelled item))
  | cancelFails {item : Nat} (hitem : item ∈ s.returned)
    (hdone : (s.futures item).cancel.2 = false) :
    Step s (s.setFuture item (s.futures item).cancel.1)
  | worker (w : Fin 2) {t : System ε α} (h : WorkerStep s w t) : Step s t

/-- A resolver that has just been built, in any number of steps. -/
def Started (s : System ε α) : Prop := s = init

/-! ## 3. What workers hold -/

/-- The sum over the workers. -/
def total (f : WorkerAt ε α → Nat) (workers : Fin 2 → WorkerAt ε α) : Nat :=
  f (workers 0) + f (workers 1)

theorem total_update (f : WorkerAt ε α → Nat) (workers : Fin 2 → WorkerAt ε α) (w : Fin 2)
    (place : WorkerAt ε α) :
    total f (Function.update workers w place) + f (workers w) = total f workers + f place := by
  unfold total
  match w with
  | 0 =>
    rw [Function.update_self, Function.update_of_ne (by decide)]
    omega
  | 1 =>
    rw [Function.update_self, Function.update_of_ne (by decide)]
    omega

theorem le_total (f : WorkerAt ε α → Nat) (workers : Fin 2 → WorkerAt ε α) (w : Fin 2) :
    f (workers w) ≤ total f workers := by
  unfold total
  match w with
  | 0 => exact Nat.le_add_right _ _
  | 1 => exact Nat.le_add_left _ _

/-- The item of a worker, from `get` to the release of its slot. -/
def WorkerAt.item? : WorkerAt ε α → Option Nat
  | getting => none
  | taken item => some item
  | running item => some item
  | ended item _ => some item
  | leaving item _ => some item
  | released _ => none
  | terminated => none

/-- Whether a worker has an item. -/
def WorkerAt.holding (place : WorkerAt ε α) : Nat := if place.item?.isSome then 1 else 0

/-- Whether a worker has this item. -/
def WorkerAt.holds (item : Nat) (place : WorkerAt ε α) : Nat :=
  if place.item? = some item then 1 else 0

/-- Whether a worker has yet to call `task_done`. -/
def WorkerAt.undone : WorkerAt ε α → Nat
  | getting => 0
  | terminated => 0
  | _ => 1

/-- The slots that are taken for this item. -/
def System.held (s : System ε α) (item : Nat) : Nat :=
  s.entering.count item + s.refused.count item + s.workQueue.items.count item +
    total (WorkerAt.holds item) s.workers

def System.admissions (s : System ε α) (item : Nat) : Nat := s.history.count (.admitted item)
def System.releases (s : System ε α) (item : Nat) : Nat := s.history.count (.released item)
def System.runs (s : System ε α) (item : Nat) : Nat := s.history.count (.ran item)

end KiwiCatalog.Discovery.Dns
