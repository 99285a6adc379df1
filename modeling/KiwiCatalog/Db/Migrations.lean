import KiwiCatalog.Lib.Checks
import KiwiCatalog.Lib.Savepoint
import Mathlib.Data.List.Induction

/-!
# Db.Migrations — `run_migrations` and the transaction it runs in

The chain of migrations stands in a savepoint.  The runner opens a transaction of its own unless
its caller has one, and ends no other.  Statements fail as the faults of a run say.
-/

set_option autoImplicit false

namespace KiwiCatalog.Db

open Savepoint (Connection)

open Checks (bind_eq_ok)

variable {α ε : Type}

/-! ## 1. Migrations -/

/-- Schema and rows, and `PRAGMA user_version`. -/
structure Database (α : Type) where
  contents : α
  userVersion : Int

/-- `apply` gives what its statements have written, also where one of them has raised. -/
structure Migration (α ε : Type) where
  version : Int
  apply : Database α → Database α × Option ε

/-- The statements of the runner that raise in a run. -/
structure Faults (ε : Type) where
  -- a statement that SQLite refuses
  refused : ε
  beginImmediate : Option ε
  readVersion : Option ε
  savepoint : Option ε
  storeVersion : Int → Option ε
  release : Option ε
  commit : Option ε
  -- the statements that clean up
  rollbackTo : Option ε
  releaseRolledBack : Option ε
  rollback : Option ε

/-- No rollback fails. -/
structure Faults.RollbackWorks (faults : Faults ε) : Prop where
  rollbackTo : faults.rollbackTo = none
  releaseRolledBack : faults.releaseRolledBack = none
  rollback : faults.rollback = none

def SAVEPOINT : String := "kiwi_migrations"

/-- A statement: it raises its fault, or `refused` where there is no result. -/
def execute (faults : Faults ε) (fault : Option ε)
    (result : Option (Connection (Database α))) : Except ε (Connection (Database α)) :=
  match fault, result with
  | some e, _ => .error e
  | none, none => .error faults.refused
  | none, some c => .ok c

/-! ## 2. The runner -/

/-- The loop: the connection it leaves, and what it has raised. -/
def applyPending (faults : Faults ε) (currentVersion : Int) :
    List (Migration α ε) → Connection (Database α) → Connection (Database α) × Option ε
  | [], c => (c, none)
  | migration :: rest, c =>
    if migration.version ≤ currentVersion then applyPending faults currentVersion rest c
    else
      let applied := migration.apply c.contents
      match applied.2 with
      | some e => (c.write applied.1, some e)
      | none =>
        match faults.storeVersion migration.version with
        | some e => (c.write applied.1, some e)
        | none =>
          applyPending faults currentVersion rest
            (c.write { applied.1 with userVersion := migration.version })

/-- The `try` block; the flag is `savepoint_created`. -/
def chain (migrations : List (Migration α ε)) (faults : Faults ε)
    (c : Connection (Database α)) : Connection (Database α) × Bool × Option ε :=
  match faults.readVersion with
  | some e => (c, false, some e)
  | none =>
    match execute faults faults.savepoint (c.savepoint SAVEPOINT) with
    | .error e => (c, false, some e)
    | .ok inner =>
      let applied := applyPending faults c.contents.userVersion migrations inner
      match applied.2 with
      | some e => (applied.1, true, some e)
      | none =>
        match execute faults faults.release (applied.1.release SAVEPOINT) with
        | .error e => (applied.1, true, some e)
        | .ok outer => (outer, true, none)

/-- The `except` block: an error of a statement that cleans up takes the place of the first. -/
def cleanUp (faults : Faults ε) (ownTx created : Bool) (e : ε) (c : Connection (Database α)) :
    Connection (Database α) × ε :=
  let savepointGone : Except (Connection (Database α) × ε) (Connection (Database α)) :=
    if created then
      match execute faults faults.rollbackTo (c.rollbackTo SAVEPOINT) with
      | .error e => .error (c, e)
      | .ok back =>
        match execute faults faults.releaseRolledBack (back.release SAVEPOINT) with
        | .error e => .error (back, e)
        | .ok outer => .ok outer
    else .ok c
  match savepointGone with
  | .error stopped => stopped
  | .ok c =>
    if ownTx then
      match faults.rollback with
      | some e => (c, e)
      | none => (c.rollback, e)
    else (c, e)

/-- `conn.commit()`; a rollback that fails behind it is passed over. -/
def commitOwn (faults : Faults ε) (c : Connection (Database α)) :
    Connection (Database α) × Option ε :=
  match faults.commit with
  | none => (c.commit, none)
  | some e =>
    match faults.rollback with
    | some _ => (c, some e)
    | none => (c.rollback, some e)

def runMigrations (migrations : List (Migration α ε)) (faults : Faults ε)
    (c : Connection (Database α)) : Connection (Database α) × Option ε :=
  let ownTx := !c.inTransaction
  let started := if ownTx then execute faults faults.beginImmediate c.begin else .ok c
  match started with
  | .error e => (c, some e)
  | .ok started =>
    let done := chain migrations faults started
    match done.2.2 with
    | some e =>
      let left := cleanUp faults ownTx done.2.1 e done.1
      (left.1, some left.2)
    | none => if ownTx then commitOwn faults done.1 else (done.1, none)

/-! ## 3. What a run is meant to do -/

/-- The migrations above the stored version, in their order. -/
def pending (stored : Int) (migrations : List (Migration α ε)) : List (Migration α ε) :=
  migrations.filter fun migration => stored < migration.version

/-- Each migration once, its version stored behind it; the first error ends it. -/
def migrate (faults : Faults ε) : List (Migration α ε) → Database α → Except ε (Database α)
  | [], d => .ok d
  | migration :: rest, d =>
    match (migration.apply d).2, faults.storeVersion migration.version with
    | some e, _ => .error e
    | none, some e => .error e
    | none, none =>
      migrate faults rest { (migration.apply d).1 with userVersion := migration.version }

def raiseIf (fault : Option ε) : Except ε Unit :=
  match fault with
  | some e => .error e
  | none => .ok ()

/-- The chain without its savepoint. -/
def attemptChain (migrations : List (Migration α ε)) (faults : Faults ε) (d : Database α) :
    Except ε (Database α) := do
  raiseIf faults.readVersion
  raiseIf faults.savepoint
  let migrated ← migrate faults (pending d.userVersion migrations) d
  raiseIf faults.release
  pure migrated

/-- The new database, or the error of the first statement that fails. -/
def attempt (migrations : List (Migration α ε)) (faults : Faults ε) (ownTx : Bool)
    (d : Database α) : Except ε (Database α) := do
  raiseIf (if ownTx then faults.beginImmediate else none)
  let migrated ← attemptChain migrations faults d
  raiseIf (if ownTx then faults.commit else none)
  pure migrated

/-- The highest version that a run may leave. -/
def lastVersion (stored : Int) (migrations : List (Migration α ε)) : Int :=
  migrations.getLast?.elim stored fun migration => max stored migration.version

/-- All of the attempt or nothing of it, in the transaction that the caller has. -/
structure OwnsTransaction (migrations : List (Migration α ε)) (faults : Faults ε)
    (c : Connection (Database α)) (result : Connection (Database α) × Option ε) : Prop where
  applied : ∀ d, attempt migrations faults (!c.inTransaction) c.contents = .ok d →
    result = (c.write d, none) ∧ d.userVersion = lastVersion c.contents.userVersion migrations
  failed : ∀ e, attempt migrations faults (!c.inTransaction) c.contents = .error e →
    result = (c, some e)
  transaction : result.1.inTransaction = c.inTransaction
  caller : c.inTransaction = true → result.1.committed = c.committed

/-! ## 4. The loop -/

/-- The loop writes what migrating gives; an error leaves some writes behind. -/
theorem applyPending_eq (faults : Faults ε) (stored : Int) (migrations : List (Migration α ε)) :
    ∀ c : Connection (Database α),
      (∀ d, migrate faults (pending stored migrations) c.contents = .ok d →
        applyPending faults stored migrations c = (c.write d, none)) ∧
      (∀ e, migrate faults (pending stored migrations) c.contents = .error e →
        ∃ d, applyPending faults stored migrations c = (c.write d, some e)) := by
  induction migrations with
  | nil =>
    intro c
    constructor
    · intro d h
      cases h
      rw [c.write_contents]
      rfl
    · intro e h
      cases h
  | cons migration rest ih =>
    intro c
    rw [applyPending, pending]
    by_cases hversion : migration.version ≤ stored
    · rw [if_pos hversion, List.filter_cons_of_neg (by simpa using hversion)]
      exact ih c
    · rw [if_neg hversion, List.filter_cons_of_pos (by simpa using hversion), migrate]
      cases hraised : (migration.apply c.contents).2 with
      | some e =>
        simp only [hraised]
        constructor
        · intro d h
          cases h
        · intro e' h
          cases h
          exact ⟨(migration.apply c.contents).1, rfl⟩
      | none =>
        simp only [hraised]
        cases hstored : faults.storeVersion migration.version with
        | some e =>
          constructor
          · intro d h
            cases h
          · intro e' h
            cases h
            exact ⟨(migration.apply c.contents).1, rfl⟩
        | none =>
          have hrest := ih (c.write { (migration.apply c.contents).1 with
            userVersion := migration.version })
          rw [Connection.contents_write] at hrest
          constructor
          · intro d h
            rw [← Connection.write_write c _ d]
            exact hrest.1 d h
          · intro e h
            obtain ⟨d, hd⟩ := hrest.2 e h
            refine ⟨d, ?_⟩
            rw [← Connection.write_write c _ d]
            exact hd

theorem execute_eq_ok {faults : Faults ε} {fault : Option ε} {c : Connection (Database α)}
    (h : fault = none) : execute faults fault (some c) = .ok c := by
  rw [h]
  rfl

theorem execute_eq_error {faults : Faults ε} {fault : Option ε} {e : ε}
    (result : Option (Connection (Database α))) (h : fault = some e) :
    execute faults fault result = .error e := by
  rw [h]
  cases result <;> rfl

/-- Where the chain stops: before its savepoint, or with some writes inside it. -/
def StoppedAt (c stopped : Connection (Database α)) : Bool → Prop
  | false => stopped = c
  | true => ∃ inner d, c.savepoint SAVEPOINT = some inner ∧ stopped = inner.write d

/-- The chain does what it would do without its savepoint. -/
theorem chain_eq (migrations : List (Migration α ε)) (faults : Faults ε)
    {c : Connection (Database α)} (hc : c.inTransaction = true) :
    (∀ d, attemptChain migrations faults c.contents = .ok d →
      chain migrations faults c = (c.write d, true, none)) ∧
    (∀ e, attemptChain migrations faults c.contents = .error e →
      ∃ stopped created, chain migrations faults c = (stopped, created, some e) ∧
        StoppedAt c stopped created) := by
  obtain ⟨inner, hinner, hcontents⟩ := Connection.savepoint_isSome hc SAVEPOINT
  unfold chain attemptChain
  cases hread : faults.readVersion with
  | some e =>
    constructor
    · intro d h
      cases h
    · intro e' h
      cases h
      exact ⟨c, false, rfl, rfl⟩
  | none =>
    cases hsavepoint : faults.savepoint with
    | some e =>
      simp only [execute_eq_error _ rfl]
      constructor
      · intro d h
        cases h
      · intro e' h
        cases h
        exact ⟨c, false, rfl, rfl⟩
    | none =>
      simp only [hinner, execute_eq_ok]
      have happlied := applyPending_eq faults c.contents.userVersion migrations inner
      rw [hcontents] at happlied
      cases hmigrate : migrate faults (pending c.contents.userVersion migrations) c.contents with
      | error e =>
        obtain ⟨d, hd⟩ := happlied.2 e hmigrate
        rw [hd]
        constructor
        · intro d' h
          cases h
        · intro e' h
          cases h
          exact ⟨inner.write d, true, rfl, inner, d, hinner, rfl⟩
      | ok migrated =>
        rw [happlied.1 migrated hmigrate]
        cases hrelease : faults.release with
        | some e =>
          simp only [execute_eq_error _ rfl]
          constructor
          · intro d h
            cases h
          · intro e' h
            cases h
            exact ⟨inner.write migrated, true, rfl, inner, migrated, hinner, rfl⟩
        | none =>
          simp only [Connection.release_write hinner, execute_eq_ok]
          constructor
          · intro d h
            cases h
            rfl
          · intro e h
            cases h

/-- Cleaning up goes back to where the chain has begun and keeps the error. -/
theorem cleanUp_eq {faults : Faults ε} (hrollback : faults.RollbackWorks) (ownTx : Bool)
    {created : Bool} (e : ε) {c stopped : Connection (Database α)}
    (h : StoppedAt c stopped created) :
    cleanUp faults ownTx created e stopped = (if ownTx then c.rollback else c, e) := by
  cases created with
  | false =>
    cases h
    unfold cleanUp
    cases ownTx with
    | false => rfl
    | true =>
      simp only [hrollback.rollback]
      rfl
  | true =>
    obtain ⟨inner, d, hinner, rfl⟩ := h
    obtain ⟨back, hback, hreleased⟩ := Connection.rollbackTo_write hinner d
    unfold cleanUp
    rw [hback, hrollback.rollbackTo, hrollback.releaseRolledBack, hrollback.rollback]
    cases ownTx with
    | false => simp [execute, hreleased]
    | true => simp [execute, hreleased]

/-! ## 5. The stored version -/

theorem migrate_version {faults : Faults ε} (migrations : List (Migration α ε)) :
    ∀ {d migrated : Database α}, migrate faults migrations d = .ok migrated →
      migrated.userVersion = migrations.getLast?.elim d.userVersion fun m => m.version := by
  induction migrations with
  | nil =>
    intro d migrated h
    cases h
    rfl
  | cons migration rest ih =>
    intro d migrated h
    rw [migrate] at h
    split at h
    · cases h
    · cases h
    · rw [ih h]
      cases rest with
      | nil => rfl
      | cons next more => rw [List.getLast?_cons_cons]; simp [List.getLast?_cons]

/-- Where versions increase, the last one is pending unless nothing is. -/
theorem lastVersion_pending (stored : Int) (migrations : List (Migration α ε))
    (hsorted : migrations.Pairwise fun m m' => m.version < m'.version) :
    ((pending stored migrations).getLast?.elim stored fun m => m.version) =
      lastVersion stored migrations := by
  induction migrations using List.reverseRecOn with
  | nil => rfl
  | append_singleton front last =>
    rw [List.pairwise_append] at hsorted
    obtain ⟨_, _, hbelow⟩ := hsorted
    rw [lastVersion, List.getLast?_concat, pending, List.filter_append]
    by_cases hlast : stored < last.version
    · rw [List.filter_cons_of_pos (by simpa using hlast), List.filter_nil, List.getLast?_concat]
      show last.version = max stored last.version
      omega
    · have hnone : front.filter (fun m => stored < m.version) = [] := by
        rw [List.filter_eq_nil_iff]
        intro m hm
        have hm' := hbelow m hm last (List.mem_singleton_self last)
        simp only [decide_eq_true_eq]
        omega
      rw [hnone, List.filter_cons_of_neg (by simpa using hlast)]
      show stored = max stored last.version
      omega

theorem attemptChain_version {migrations : List (Migration α ε)} {faults : Faults ε}
    (hsorted : migrations.Pairwise fun m m' => m.version < m'.version) {d migrated : Database α}
    (h : attemptChain migrations faults d = .ok migrated) :
    migrated.userVersion = lastVersion d.userVersion migrations := by
  unfold attemptChain at h
  obtain ⟨_, _, h⟩ := bind_eq_ok h
  obtain ⟨_, _, h⟩ := bind_eq_ok h
  obtain ⟨done, hdone, h⟩ := bind_eq_ok h
  obtain ⟨_, _, h⟩ := bind_eq_ok h
  cases h
  rw [migrate_version _ hdone, lastVersion_pending d.userVersion migrations hsorted]

/-! ## 6. The transaction -/

/-- In the caller's transaction. -/
theorem runMigrations_outer (migrations : List (Migration α ε)) {faults : Faults ε}
    (hrollback : faults.RollbackWorks) {c : Connection (Database α)}
    (hc : c.inTransaction = true) :
    (∀ d, attempt migrations faults false c.contents = .ok d →
      runMigrations migrations faults c = (c.write d, none)) ∧
    (∀ e, attempt migrations faults false c.contents = .error e →
      runMigrations migrations faults c = (c, some e)) := by
  have hchain := chain_eq migrations faults hc
  have hattempt : attempt migrations faults false c.contents =
      attemptChain migrations faults c.contents := by
    show (attemptChain migrations faults c.contents >>= fun migrated => _) = _
    cases attemptChain migrations faults c.contents <;> rfl
  rw [hattempt]
  unfold runMigrations
  rw [hc]
  constructor
  · intro d hd
    simp only [Bool.not_true, Bool.false_eq_true, if_false, hchain.1 d hd]
  · intro e he
    obtain ⟨stopped, created, hstopped, hat⟩ := hchain.2 e he
    simp only [Bool.not_true, Bool.false_eq_true, if_false, hstopped,
      cleanUp_eq hrollback false e hat]

/-- In a transaction of its own. -/
theorem runMigrations_own (migrations : List (Migration α ε)) {faults : Faults ε}
    (hrollback : faults.RollbackWorks) {c : Connection (Database α)}
    (hc : c.inTransaction = false) :
    (∀ d, attempt migrations faults true c.contents = .ok d →
      runMigrations migrations faults c = (c.write d, none)) ∧
    (∀ e, attempt migrations faults true c.contents = .error e →
      runMigrations migrations faults c = (c, some e)) := by
  obtain ⟨own, hown, htransaction, hcontents⟩ := Connection.begin_isSome hc
  have hchain := chain_eq migrations faults htransaction
  rw [hcontents] at hchain
  have hback : own.rollback = c := by
    have h := Connection.rollback_begin hown own.contents
    rw [Connection.write_contents] at h
    exact h
  unfold runMigrations attempt
  rw [hc]
  cases hbegin : faults.beginImmediate with
  | some e =>
    simp only [Bool.not_false, if_true, execute_eq_error _ rfl]
    constructor
    · intro d h
      cases h
    · intro e' h
      cases h
      rfl
  | none =>
    simp only [Bool.not_false, if_true, hown, execute_eq_ok]
    cases hdone : attemptChain migrations faults c.contents with
    | error e =>
      obtain ⟨stopped, created, hstopped, hat⟩ := hchain.2 e hdone
      simp only [hstopped, cleanUp_eq hrollback true e hat, if_true, hback]
      constructor
      · intro d h
        cases h
      · intro e' h
        cases h
        rfl
    | ok migrated =>
      simp only [hchain.1 migrated hdone]
      unfold commitOwn
      cases hcommit : faults.commit with
      | none =>
        simp only [Connection.commit_begin hown]
        constructor
        · intro d h
          cases h
          rfl
        · intro e h
          cases h
      | some e =>
        simp only [hrollback.rollback, Connection.rollback_begin hown]
        constructor
        · intro d h
          cases h
        · intro e' h
          cases h
          rfl

def addRow (version : Int) (row : Nat) (raised : Option String) : Migration (List Nat) String :=
  ⟨version, fun d => ({ d with contents := d.contents ++ [row] }, raised)⟩

def noFaults : Faults String :=
  ⟨"refused", none, none, none, fun _ => none, none, none, none, none, none⟩

/-- A caller that has written the row 7. -/
def callerInTransaction : Connection (Database (List Nat)) := ⟨⟨[], 1⟩, some ⟨⟨[7], 1⟩, []⟩⟩

end KiwiCatalog.Db
