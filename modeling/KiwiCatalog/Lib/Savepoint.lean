import Mathlib.Data.List.Basic

/-!
# Savepoint — a connection, its transaction and the savepoints inside

What a transaction has written is seen by its connection only.  Savepoints are named and nested;
going back to one drops those inside it and keeps it.
-/

set_option autoImplicit false

namespace Savepoint

variable {δ : Type}

structure Transaction (δ : Type) where
  current : δ
  -- the innermost first
  savepoints : List (String × δ)

structure Connection (δ : Type) where
  committed : δ
  transaction : Option (Transaction δ)

namespace Connection

def inTransaction (c : Connection δ) : Bool := c.transaction.isSome

/-- What the connection reads. -/
def contents (c : Connection δ) : δ :=
  match c.transaction with
  | none => c.committed
  | some t => t.current

/-- A write; outside a transaction it is committed at once. -/
def write (c : Connection δ) (d : δ) : Connection δ :=
  match c.transaction with
  | none => { c with committed := d }
  | some t => { c with transaction := some { t with current := d } }

/-- `BEGIN`; `none` is a transaction within a transaction. -/
def begin (c : Connection δ) : Option (Connection δ) :=
  match c.transaction with
  | none => some { c with transaction := some ⟨c.committed, []⟩ }
  | some _ => none

/-- `SAVEPOINT name` inside a transaction. -/
def savepoint (name : String) (c : Connection δ) : Option (Connection δ) :=
  c.transaction.map fun t =>
    { c with transaction := some { t with savepoints := (name, t.current) :: t.savepoints } }

/-- The savepoints from the innermost one of the name on. -/
def from? (name : String) (t : Transaction δ) : List (String × δ) :=
  t.savepoints.dropWhile fun s => s.1 ≠ name

/-- `RELEASE SAVEPOINT name`; `none` is an unknown name. -/
def release (name : String) (c : Connection δ) : Option (Connection δ) :=
  match c.transaction with
  | none => none
  | some t =>
    match from? name t with
    | [] => none
    | _ :: outer => some { c with transaction := some { t with savepoints := outer } }

/-- `ROLLBACK TO SAVEPOINT name`. -/
def rollbackTo (name : String) (c : Connection δ) : Option (Connection δ) :=
  match c.transaction with
  | none => none
  | some t =>
    match from? name t with
    | [] => none
    | s :: outer => some { c with transaction := some ⟨s.2, s :: outer⟩ }

def rollback (c : Connection δ) : Connection δ := { c with transaction := none }

def commit (c : Connection δ) : Connection δ := ⟨c.contents, none⟩

/-! ### What is read behind a statement -/

@[simp] theorem contents_write (c : Connection δ) (d : δ) : (c.write d).contents = d := by
  unfold write contents
  cases c.transaction <;> rfl

@[simp] theorem inTransaction_write (c : Connection δ) (d : δ) :
    (c.write d).inTransaction = c.inTransaction := by
  unfold write inTransaction
  cases c.transaction <;> rfl

@[simp] theorem write_write (c : Connection δ) (d d' : δ) : (c.write d).write d' = c.write d' := by
  unfold write
  cases c.transaction <;> rfl

theorem write_contents (c : Connection δ) : c.write c.contents = c := by
  obtain ⟨committed, transaction⟩ := c
  cases transaction <;> rfl

theorem committed_write {c : Connection δ} (h : c.inTransaction = true) (d : δ) :
    (c.write d).committed = c.committed := by
  unfold inTransaction at h
  unfold write
  cases htransaction : c.transaction with
  | none =>
    rw [htransaction] at h
    cases h
  | some t => rfl

/-! ### What a statement undoes -/

/-- Writes inside a savepoint are gone when one goes back to it and releases it. -/
theorem rollbackTo_write {name : String} {c inner : Connection δ}
    (h : c.savepoint name = some inner) (d : δ) :
    ∃ back, (inner.write d).rollbackTo name = some back ∧ back.release name = some c := by
  obtain ⟨committed, transaction⟩ := c
  cases transaction with
  | none => cases h
  | some t =>
    cases h
    refine ⟨⟨committed, some ⟨t.current, (name, t.current) :: t.savepoints⟩⟩, ?_, ?_⟩
    · simp [write, rollbackTo, from?]
    · simp [release, from?]

/-- Releasing a savepoint keeps the writes inside it. -/
theorem release_write {name : String} {c inner : Connection δ}
    (h : c.savepoint name = some inner) (d : δ) :
    (inner.write d).release name = some (c.write d) := by
  obtain ⟨committed, transaction⟩ := c
  cases transaction with
  | none => cases h
  | some t =>
    cases h
    simp [write, release, from?]

theorem savepoint_isSome {c : Connection δ} (h : c.inTransaction = true) (name : String) :
    ∃ inner, c.savepoint name = some inner ∧ inner.contents = c.contents := by
  obtain ⟨committed, transaction⟩ := c
  cases transaction with
  | none => cases h
  | some t => exact ⟨_, rfl, rfl⟩

/-- A transaction that is begun and rolled back leaves no trace. -/
theorem rollback_begin {c own : Connection δ} (h : c.begin = some own) (d : δ) :
    (own.write d).rollback = c := by
  obtain ⟨committed, transaction⟩ := c
  cases transaction with
  | some t => cases h
  | none =>
    cases h
    rfl

theorem commit_begin {c own : Connection δ} (h : c.begin = some own) (d : δ) :
    (own.write d).commit = c.write d := by
  obtain ⟨committed, transaction⟩ := c
  cases transaction with
  | some t => cases h
  | none =>
    cases h
    rfl

theorem begin_isSome {c : Connection δ} (h : c.inTransaction = false) :
    ∃ own, c.begin = some own ∧ own.inTransaction = true ∧ own.contents = c.contents := by
  obtain ⟨committed, transaction⟩ := c
  cases transaction with
  | some t => cases h
  | none => exact ⟨_, rfl, rfl, rfl⟩

end Connection

end Savepoint
