import Mathlib.Data.List.Basic

/-!
# Concurrency — the semaphore, the queue and the future of Python's standard library

Each operation takes place under the lock of its object, so it is one step.  A call that would wait
is one that cannot be made yet; a call that raises has no new state.
-/

set_option autoImplicit false

namespace Concurrency

/-! ## 1. `threading.BoundedSemaphore` -/

structure Semaphore where
  initial : Nat
  value : Nat
  bounded : value ≤ initial

def Semaphore.ofSlots (slots : Nat) : Semaphore := ⟨slots, slots, Nat.le_refl slots⟩

/-- `acquire()`; `none` waits for a slot. -/
def Semaphore.acquire (s : Semaphore) : Option Semaphore :=
  if 0 < s.value then some ⟨s.initial, s.value - 1, Nat.le_trans (Nat.sub_le _ _) s.bounded⟩
  else none

/-- `release()`; `none` is the `ValueError` of a slot too many. -/
def Semaphore.release (s : Semaphore) : Option Semaphore :=
  if h : s.value < s.initial then some ⟨s.initial, s.value + 1, h⟩ else none

theorem Semaphore.acquire_eq {s t : Semaphore} (h : s.acquire = some t) :
    t.initial = s.initial ∧ t.value + 1 = s.value := by
  unfold acquire at h
  split at h
  · rename_i hfree
    rw [← Option.some.inj h]
    exact ⟨rfl, Nat.sub_add_cancel hfree⟩
  · cases h

theorem Semaphore.release_eq {s t : Semaphore} (h : s.release = some t) :
    t.initial = s.initial ∧ t.value = s.value + 1 := by
  unfold release at h
  split at h
  · rw [← Option.some.inj h]
    exact ⟨rfl, rfl⟩
  · cases h

theorem Semaphore.release_none {s : Semaphore} (h : s.release = none) : s.initial ≤ s.value := by
  unfold release at h
  split at h
  · cases h
  · rename_i hfull
    exact Nat.le_of_not_lt hfull

/-! ## 2. `queue.Queue` -/

structure Queue (κ : Type) where
  maxsize : Nat
  items : List κ
  unfinishedTasks : Nat

namespace Queue

variable {κ : Type} {q r : Queue κ} {k : κ}

def empty (maxsize : Nat) : Queue κ := ⟨maxsize, [], 0⟩

/-- `put_nowait(k)`; `none` is `Full`. -/
def putNowait (q : Queue κ) (k : κ) : Option (Queue κ) :=
  if q.items.length < q.maxsize then some ⟨q.maxsize, q.items ++ [k], q.unfinishedTasks + 1⟩
  else none

/-- `get()`; `none` waits for an item. -/
def get (q : Queue κ) : Option (κ × Queue κ) :=
  match q.items with
  | [] => none
  | k :: rest => some (k, ⟨q.maxsize, rest, q.unfinishedTasks⟩)

/-- `task_done()`; `none` is the `ValueError` of a call too many. -/
def taskDone (q : Queue κ) : Option (Queue κ) :=
  if 0 < q.unfinishedTasks then some ⟨q.maxsize, q.items, q.unfinishedTasks - 1⟩ else none

theorem putNowait_eq (h : q.putNowait k = some r) :
    r = ⟨q.maxsize, q.items ++ [k], q.unfinishedTasks + 1⟩ := by
  unfold putNowait at h
  split at h
  · exact (Option.some.inj h).symm
  · cases h

theorem putNowait_none (h : q.putNowait k = none) : q.maxsize ≤ q.items.length := by
  unfold putNowait at h
  split at h
  · cases h
  · rename_i hfull
    exact Nat.le_of_not_lt hfull

theorem get_eq (h : q.get = some (k, r)) :
    q.items = k :: r.items ∧ r.maxsize = q.maxsize ∧ r.unfinishedTasks = q.unfinishedTasks := by
  unfold get at h
  split at h
  · cases h
  · rename_i hitems
    injection h with hpair
    injection hpair with hk hr
    rw [← hk, ← hr]
    exact ⟨hitems, rfl, rfl⟩

theorem taskDone_eq (h : q.taskDone = some r) :
    r.maxsize = q.maxsize ∧ r.items = q.items ∧ r.unfinishedTasks + 1 = q.unfinishedTasks := by
  unfold taskDone at h
  split at h
  · rename_i hopen
    rw [← Option.some.inj h]
    exact ⟨rfl, rfl, Nat.sub_add_cancel hopen⟩
  · cases h

theorem taskDone_none (h : q.taskDone = none) : q.unfinishedTasks = 0 := by
  unfold taskDone at h
  split at h
  · cases h
  · rename_i hnone
    exact Nat.eq_zero_of_not_pos hnone

end Queue

/-! ## 3. `concurrent.futures.Future` -/

/-- The state of a future; a callable returns a value or raises an exception. -/
inductive Future (ε α : Type)
  | pending
  | running
  | cancelled
  | cancelledAndNotified
  | finished (outcome : Except ε α)

namespace Future

variable {ε α : Type} {f g : Future ε α}

/-- `cancel()`, with what it returns. -/
def cancel : Future ε α → Future ε α × Bool
  | pending => (cancelled, true)
  | running => (running, false)
  | finished outcome => (finished outcome, false)
  | cancelled => (cancelled, true)
  | cancelledAndNotified => (cancelledAndNotified, true)

/-- `set_running_or_notify_cancel()`, with what it returns; `none` is the `RuntimeError`. -/
def setRunningOrNotifyCancel : Future ε α → Option (Future ε α × Bool)
  | pending => some (running, true)
  | cancelled => some (cancelledAndNotified, false)
  | running => none
  | cancelledAndNotified => none
  | finished _ => none

/-- `set_result` and `set_exception`; `none` is the `InvalidStateError`. -/
def setOutcome (outcome : Except ε α) : Future ε α → Option (Future ε α)
  | pending => some (finished outcome)
  | running => some (finished outcome)
  | cancelled => none
  | cancelledAndNotified => none
  | finished _ => none

/-- No worker has looked at the future. -/
def Untaken (f : Future ε α) : Prop := f = pending ∨ f = cancelled

/-- The callable has been started. -/
def Started (f : Future ε α) : Prop := f = running ∨ ∃ outcome, f = finished outcome

/-- The future has been cancelled, whether a worker has seen it or not. -/
def Cancelled (f : Future ε α) : Prop := f = cancelled ∨ f = cancelledAndNotified

theorem not_started_of_untaken (h : f.Untaken) : ¬ f.Started := by
  rintro (hrunning | ⟨outcome, hfinished⟩)
  · rcases h with rfl | rfl <;> cases hrunning
  · rcases h with rfl | rfl <;> cases hfinished

theorem not_started_of_cancelled (h : f.Cancelled) : ¬ f.Started := by
  rintro (hrunning | ⟨outcome, hfinished⟩)
  · rcases h with rfl | rfl <;> cases hrunning
  · rcases h with rfl | rfl <;> cases hfinished

/-- Cancelling leaves alone what is not pending. -/
theorem cancel_of_not_pending (h : f ≠ pending) : f.cancel.1 = f := by
  cases f with
  | pending => exact absurd rfl h
  | running => rfl
  | cancelled => rfl
  | cancelledAndNotified => rfl
  | finished outcome => rfl

theorem untaken_cancel (h : f.Untaken) : f.cancel.1.Untaken := by
  rcases h with rfl | rfl
  · exact .inr rfl
  · exact .inr rfl

theorem started_cancel_iff : f.cancel.1.Started ↔ f.Started := by
  cases f with
  | pending => exact ⟨fun h => absurd h (not_started_of_untaken (.inr rfl)),
      fun h => absurd h (not_started_of_untaken (.inl rfl))⟩
  | running => exact Iff.rfl
  | cancelled => exact Iff.rfl
  | cancelledAndNotified => exact Iff.rfl
  | finished outcome => exact Iff.rfl

theorem cancelled_of_cancel (h : f.cancel.2 = true) : f.cancel.1.Cancelled := by
  cases f with
  | pending => exact .inl rfl
  | running => cases h
  | cancelled => exact .inl rfl
  | cancelledAndNotified => exact .inr rfl
  | finished outcome => cases h

theorem cancelled_cancel (h : f.Cancelled) : f.cancel.1.Cancelled := by
  rcases h with rfl | rfl
  · exact .inl rfl
  · exact .inr rfl

theorem setRunning_eq_true (h : f.setRunningOrNotifyCancel = some (g, true)) :
    f = pending ∧ g = running := by
  cases f with
  | pending => exact ⟨rfl, (congrArg Prod.fst (Option.some.inj h)).symm⟩
  | cancelled => cases h
  | running => cases h
  | cancelledAndNotified => cases h
  | finished outcome => cases h

theorem setRunning_eq_false (h : f.setRunningOrNotifyCancel = some (g, false)) :
    f = cancelled ∧ g = cancelledAndNotified := by
  cases f with
  | cancelled => exact ⟨rfl, (congrArg Prod.fst (Option.some.inj h)).symm⟩
  | pending => cases h
  | running => cases h
  | cancelledAndNotified => cases h
  | finished outcome => cases h

theorem setRunning_ne_none (h : f.Untaken) : f.setRunningOrNotifyCancel ≠ none := by
  rcases h with rfl | rfl <;> exact Option.some_ne_none _

end Future

end Concurrency
