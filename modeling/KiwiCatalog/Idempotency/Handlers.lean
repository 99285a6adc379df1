import KiwiCatalog.Idempotency.Ledger
import KiwiCatalog.Lib.FixedWindow
import KiwiCatalog.Lib.Transition
import KiwiCatalog.Lib.Update

/-!
# Handlers — the catalog writes that carry an idempotency key, over one database

Each request `ρ` is a session of its own.  A statement that writes opens a transaction, of which
there is one at a time; a session without one reads what is committed.  The session commits when
the handler returns and rolls back when it raises.  The tables beside the ledger and the limits are
a parameter `δ`, the checks and the work of the handlers are programs over them; `π` names the
processes.
-/

set_option autoImplicit false
set_option linter.unusedSectionVars false

namespace KiwiCatalog.Idempotency

open IsoText FixedWindow

/-! ## Work -/

/-- What a handler does with its connection after the claim: statements, commits, and in the end a
response or an exception. -/
inductive Script (δ : Type)
  | done (response : Dict)
  | raise (e : Failure)
  | read (k : δ → Script δ)
  | write (f : δ → δ) (k : δ → Script δ)
  | commit (k : Script δ)

/-- No path of the script commits. -/
def Script.CommitFree {δ : Type} : Script δ → Prop
  | .done _ => True
  | .raise _ => True
  | .read k => ∀ d, (k d).CommitFree
  | .write _ k => ∀ d, (k d).CommitFree
  | .commit _ => False

/-- What the handlers do besides idempotency and limits.  Each request brings its own, so that the
retries of a request may fare differently. -/
structure Env (ρ δ : Type) where
  writeLimit : Endpoint → Nat
  registerDomainLimit : Nat
  -- the agent is known and the credentials allow the write
  check : ρ → δ → Except Failure Unit
  -- `v1_publish_listing` authenticates in its transaction, and a signature consumes its nonce there
  authenticate : ρ → δ → Except Failure δ
  -- registration, suspension, reinstatement and publication (usage count included)
  atomicWork : ρ → { w : Script δ // w.CommitFree }
  refreshResponse : ρ → Dict
  -- `VerificationService.verify`: commits between the fetches
  verify : ρ → Script δ
  -- `agent_catalog_writes.claim_catalog_agent`: commits before the domain challenge
  claimAgent : ρ → Script δ

/-! ## State -/

/-- A write of the work of a request, by its triple. -/
structure Effect (ρ : Type) where
  triple : Triple
  owner : ρ
  time : Nat

structure Db (ρ δ : Type) where
  ledger : List (LedgerRow ρ)
  writeLimits : Counters String
  domainLimits : Counters String
  tables : δ
  -- not stored: the writes of keyed work and the first completion of each request
  effects : List (Effect ρ)
  completedAt : ρ → Option Nat

/-- Where the handler of a request is; `midCommit` says whether it has committed since its claim. -/
inductive Phase (δ : Type)
  | begin
  | authenticate
  | lookup
  | check
  | writeLimit
  | domainLimit
  | claim
  | work (w : Script δ) (midCommit : Bool)
  | complete (response : Dict) (midCommit : Bool)
  | returning (response : Dict)
  | ended (result : Except Failure Dict)

/-- The handler has not claimed and has not ended. -/
def Phase.unclaimed {δ : Type} : Phase δ → Bool
  | .begin | .authenticate | .lookup | .check | .writeLimit | .domainLimit | .claim => true
  | _ => false

/-- The next statement writes. -/
def Phase.writes {δ : Type} : Phase δ → Bool
  | .begin | .authenticate | .writeLimit | .domainLimit | .claim => true
  | _ => false

/-- Between the claim and the completion; whether there has been a commit since the claim. -/
def Phase.claimed? {δ : Type} : Phase δ → Option Bool
  | .work _ midCommit => some midCommit
  | .complete _ midCommit => some midCommit
  | _ => none

structure System (ρ π δ : Type) where
  clock : UtcClock
  completionCount : π → Nat
  committed : Db ρ δ
  -- the open write transaction: its session and what it sees
  pending : Option (ρ × Db ρ δ)
  phase : ρ → Phase δ

variable {ρ π δ : Type} [DecidableEq ρ] [DecidableEq π]

/-- What the statements of a session see. -/
def System.view (s : System ρ π δ) (p : ρ) : Db ρ δ :=
  match s.pending with
  | some (q, db) => if q = p then db else s.committed
  | none => s.committed

/-- A session may write when no other one has an open transaction. -/
def System.MayWrite (s : System ρ π δ) (p : ρ) : Prop :=
  ∀ q db, s.pending = some (q, db) → q = p

def System.goto (s : System ρ π δ) (p : ρ) (phase : Phase δ) : System ρ π δ :=
  { s with phase := Function.update s.phase p phase }

/-- A writing statement: its effect stays in the transaction. -/
def System.write (s : System ρ π δ) (p : ρ) (db : Db ρ δ) : System ρ π δ :=
  { s with pending := some (p, db) }

def System.release (s : System ρ π δ) (p : ρ) : Option (ρ × Db ρ δ) :=
  match s.pending with
  | some (q, db) => if q = p then none else some (q, db)
  | none => none

def System.commit (s : System ρ π δ) (p : ρ) : System ρ π δ :=
  { s with committed := s.view p, pending := s.release p }

def System.rollback (s : System ρ π δ) (p : ρ) : System ρ π δ :=
  { s with pending := s.release p }

/-- `clear_catalog_write_idempotency_claim` of the `except` block.  Where another session has the
open transaction the deletion waits for it, or fails. -/
def System.clearing (s : System ρ π δ) (p : ρ) (r : Request) : System ρ π δ :=
  match s.release p with
  | some _ => s
  | none => s.write p { s.view p with ledger := clear (s.view p).ledger r }

/-! ## The handlers -/

/-- Publication opens its transaction first; the others begin with the ledger. -/
def entryPhase : Endpoint → Phase δ
  | .publish => .begin
  | _ => .lookup

/-- Registration and publication have no checks between the ledger and the budget. -/
def afterLookup : Endpoint → Phase δ
  | .register | .publish => .writeLimit
  | _ => .check

/-- Registration has a budget for the domain as well. -/
def afterWriteLimit : Endpoint → Phase δ
  | .register => .domainLimit
  | _ => .claim

/-- The `try` block. -/
def afterClaim (env : Env ρ δ) (request : ρ → Request) (p : ρ) : Phase δ :=
  match (request p).triple.endpoint with
  | .register | .suspend | .reinstate | .publish => .work (env.atomicWork p).1 false
  | .refresh => .complete (env.refreshResponse p) false
  | .verify => .work (.commit (env.verify p)) false
  | .claim => .work (env.claimAgent p) false

def writeWindowSeconds : Nat := 60

def domainWindowSeconds : Nat := 3600

/-- `enforce_rate_limit`; `none` is the `RateLimitError`. -/
def enforceRateLimit (limit windowSeconds : Nat) (key : String) (now : UtcClock)
    (counters : Counters String) : Option (Counters String) :=
  if limit = 0 then some counters
  else
    let seconds := now.1 / 1000000
    let window := windowStart windowSeconds seconds
    consume? (FixedWindow.prune (seconds - 604800) window counters) key window limit

def writeLimits (env : Env ρ δ) (r : Request) (now : UtcClock) (db : Db ρ δ) :
    Option (Counters String) :=
  enforceRateLimit (env.writeLimit r.triple.endpoint) writeWindowSeconds r.triple.actorKey now
    db.writeLimits

def domainLimits (env : Env ρ δ) (r : Request) (now : UtcClock) (db : Db ρ δ) :
    Option (Counters String) :=
  enforceRateLimit env.registerDomainLimit domainWindowSeconds r.domain now db.domainLimits

/-- The exception of the statement that an unclaimed session executes next, if it raises one. -/
def refusal (env : Env ρ δ) (request : ρ → Request) (s : System ρ π δ) (p : ρ) : Option Failure :=
  match s.phase p with
  | .authenticate =>
    match env.authenticate p (s.view p).tables with
    | .error e => some e
    | .ok _ => none
  | .lookup =>
    match replay (s.view p).ledger (request p) with
    | .error e => some e
    | .ok _ => none
  | .check =>
    match env.check p (s.view p).tables with
    | .error e => some e
    | .ok _ => none
  | .writeLimit =>
    match writeLimits env (request p) s.clock (s.view p) with
    | none => some (.rateLimit "agent catalog write")
    | some _ => none
  | .domainLimit =>
    match domainLimits env (request p) s.clock (s.view p) with
    | none => some (.rateLimit "agent catalog register domain")
    | some _ => none
  | .claim =>
    match claim (s.view p).ledger (request p) p s.clock with
    | .error e => some e
    | .ok _ => none
  | _ => none

theorem refusal_writeLimit {env : Env ρ δ} {request : ρ → Request} {s : System ρ π δ} {p : ρ}
    (hphase : s.phase p = .writeLimit)
    (hnone : writeLimits env (request p) s.clock (s.view p) = none) :
    refusal env request s p = some (.rateLimit "agent catalog write") := by
  unfold refusal
  rw [hphase]
  dsimp only
  rw [hnone]

/-- The effect of a writing statement of the work. -/
def workWrite (r : Request) (p : ρ) (now : UtcClock) (f : δ → δ) (db : Db ρ δ) : Db ρ δ :=
  { db with
    tables := f db.tables
    effects := if r.keyed = true then db.effects ++ [⟨r.triple, p, now.1⟩] else db.effects }

/-- `complete_catalog_write_idempotency`, as the `count`-th completion of the process. -/
def completion (r : Request) (p : ρ) (response : Dict) (count : Nat) (now : UtcClock)
    (db : Db ρ δ) : Db ρ δ :=
  { db with
    ledger := complete db.ledger r response count now
    completedAt := if db.completedAt p = none
      then Function.update db.completedAt p (some (nowIso now).wall) else db.completedAt }

inductive Event (ρ : Type)
  | runs (p : ρ)
  -- an exception strikes in the `try` block of the handler
  | raises (p : ρ)
  -- the process dies, or the database refuses a statement before the claim
  | dies (p : ρ)
  | ticks

inductive Step (env : Env ρ δ) (request : ρ → Request) (process : ρ → π) :
    Event ρ → System ρ π δ → System ρ π δ → Prop
  | ticks {s : System ρ π δ} (clock : UtcClock) (h : s.clock.1 ≤ clock.1) :
      Step env request process .ticks s { s with clock := clock }
  -- `BEGIN IMMEDIATE`
  | begins {s : System ρ π δ} {p : ρ} (hphase : s.phase p = .begin) (hwrite : s.MayWrite p) :
      Step env request process (.runs p) s ((s.write p (s.view p)).goto p .authenticate)
  | authenticates {s : System ρ π δ} {p : ρ} {tables : δ} (hphase : s.phase p = .authenticate)
      (hwrite : s.MayWrite p) (h : env.authenticate p (s.view p).tables = .ok tables) :
      Step env request process (.runs p) s
        ((s.write p { s.view p with tables := tables }).goto p .lookup)
  | looksUp {s : System ρ π δ} {p : ρ} (hphase : s.phase p = .lookup)
      (h : replay (s.view p).ledger (request p) = .ok none) :
      Step env request process (.runs p) s (s.goto p (afterLookup (request p).triple.endpoint))
  | replays {s : System ρ π δ} {p : ρ} {response : Dict} (hphase : s.phase p = .lookup)
      (h : replay (s.view p).ledger (request p) = .ok (some response)) :
      Step env request process (.runs p) s ((s.commit p).goto p (.ended (.ok response)))
  | checks {s : System ρ π δ} {p : ρ} (hphase : s.phase p = .check)
      (h : env.check p (s.view p).tables = .ok ()) :
      Step env request process (.runs p) s (s.goto p .writeLimit)
  | skipsWriteLimit {s : System ρ π δ} {p : ρ} (hphase : s.phase p = .writeLimit)
      (hlimit : env.writeLimit (request p).triple.endpoint = 0) :
      Step env request process (.runs p) s
        (s.goto p (afterWriteLimit (request p).triple.endpoint))
  | limitsWrites {s : System ρ π δ} {p : ρ} {counters : Counters String}
      (hphase : s.phase p = .writeLimit) (hwrite : s.MayWrite p)
      (hlimit : env.writeLimit (request p).triple.endpoint ≠ 0)
      (h : writeLimits env (request p) s.clock (s.view p) = some counters) :
      Step env request process (.runs p) s
        ((s.write p { s.view p with writeLimits := counters }).goto p
          (afterWriteLimit (request p).triple.endpoint))
  | skipsDomainLimit {s : System ρ π δ} {p : ρ} (hphase : s.phase p = .domainLimit)
      (hlimit : env.registerDomainLimit = 0) :
      Step env request process (.runs p) s (s.goto p .claim)
  | limitsDomain {s : System ρ π δ} {p : ρ} {counters : Counters String}
      (hphase : s.phase p = .domainLimit) (hwrite : s.MayWrite p)
      (hlimit : env.registerDomainLimit ≠ 0)
      (h : domainLimits env (request p) s.clock (s.view p) = some counters) :
      Step env request process (.runs p) s
        ((s.write p { s.view p with domainLimits := counters }).goto p .claim)
  -- without a key the ledger is left alone
  | skipsClaim {s : System ρ π δ} {p : ρ} (hphase : s.phase p = .claim)
      (hkeyed : (request p).keyed = false) :
      Step env request process (.runs p) s (s.goto p (afterClaim env request p))
  | claims {s : System ρ π δ} {p : ρ} {ledger : List (LedgerRow ρ)}
      (hphase : s.phase p = .claim) (hwrite : s.MayWrite p) (hkeyed : (request p).keyed = true)
      (h : claim (s.view p).ledger (request p) p s.clock = .ok (none, ledger)) :
      Step env request process (.runs p) s
        ((s.write p { s.view p with ledger := ledger }).goto p (afterClaim env request p))
  -- the row has appeared since the lookup
  | claimReplays {s : System ρ π δ} {p : ρ} {response : Dict} {ledger : List (LedgerRow ρ)}
      (hphase : s.phase p = .claim) (hwrite : s.MayWrite p) (hkeyed : (request p).keyed = true)
      (h : claim (s.view p).ledger (request p) p s.clock = .ok (some response, ledger)) :
      Step env request process (.runs p) s ((s.commit p).goto p (.ended (.ok response)))
  | refuses {s : System ρ π δ} {p : ρ} {e : Failure}
      (hwrite : (s.phase p).writes = true → s.MayWrite p)
      (h : refusal env request s p = some e) :
      Step env request process (.runs p) s ((s.rollback p).goto p (.ended (.error e)))
  | reads {s : System ρ π δ} {p : ρ} {k : δ → Script δ} {midCommit : Bool}
      (hphase : s.phase p = .work (.read k) midCommit) :
      Step env request process (.runs p) s (s.goto p (.work (k (s.view p).tables) midCommit))
  | writes {s : System ρ π δ} {p : ρ} {f : δ → δ} {k : δ → Script δ} {midCommit : Bool}
      (hphase : s.phase p = .work (.write f k) midCommit) (hwrite : s.MayWrite p) :
      Step env request process (.runs p) s
        ((s.write p (workWrite (request p) p s.clock f (s.view p))).goto p
          (.work (k (s.view p).tables) midCommit))
  | commits {s : System ρ π δ} {p : ρ} {k : Script δ} {midCommit : Bool}
      (hphase : s.phase p = .work (.commit k) midCommit) :
      Step env request process (.runs p) s ((s.commit p).goto p (.work k true))
  | works {s : System ρ π δ} {p : ρ} {response : Dict} {midCommit : Bool}
      (hphase : s.phase p = .work (.done response) midCommit) :
      Step env request process (.runs p) s (s.goto p (.complete response midCommit))
  | skipsCompletion {s : System ρ π δ} {p : ρ} {response : Dict} {midCommit : Bool}
      (hphase : s.phase p = .complete response midCommit) (hkeyed : (request p).keyed = false) :
      Step env request process (.runs p) s (s.goto p (.returning response))
  | completes {s : System ρ π δ} {p : ρ} {response : Dict} {midCommit : Bool} {count : Nat}
      (hphase : s.phase p = .complete response midCommit) (hwrite : s.MayWrite p)
      (hkeyed : (request p).keyed = true)
      (hcount : count = s.completionCount (process p) + 1) :
      Step env request process (.runs p) s
        { (s.write p (completion (request p) p response count s.clock (s.view p))).goto p
            (.returning response) with
          completionCount := Function.update s.completionCount (process p) count }
  | returns {s : System ρ π δ} {p : ρ} {response : Dict} (hphase : s.phase p = .returning response) :
      Step env request process (.runs p) s ((s.commit p).goto p (.ended (.ok response)))
  -- the claim is deleted in the transaction that is then rolled back
  | raises {s : System ρ π δ} {p : ρ} {midCommit : Bool} (e : Failure)
      (hphase : (s.phase p).claimed? = some midCommit) :
      Step env request process (.raises p) s
        (((s.clearing p (request p)).rollback p).goto p (.ended (.error e)))
  | dies {s : System ρ π δ} {p : ρ} (what : String) (hlive : ∀ result, s.phase p ≠ .ended result) :
      Step env request process (.dies p) s
        ((s.rollback p).goto p (.ended (.error (.raised what))))

def AnyStep (env : Env ρ δ) (request : ρ → Request) (process : ρ → π) (s t : System ρ π δ) : Prop :=
  ∃ event, Step env request process event s t

/-- The ledger is empty and every request is still to come. -/
def Started (request : ρ → Request) (s : System ρ π δ) : Prop :=
  s.committed.ledger = [] ∧ s.committed.effects = [] ∧ (∀ p, s.committed.completedAt p = none) ∧
    s.pending = none ∧ ∀ p, s.phase p = entryPhase (request p).triple.endpoint

/-! ## Budgets -/

section Budgets

variable {limit windowSeconds : Nat} {key : String} {now : UtcClock} {counters counters' : Counters String}

/-- A budget lets a request through while the count of its window is below the limit. -/
theorem enforceRateLimit_isSome (hlimit : limit ≠ 0) :
    (enforceRateLimit limit windowSeconds key now counters).isSome = true ↔
      counters key (windowStart windowSeconds (now.1 / 1000000)) < limit := by
  unfold enforceRateLimit
  rw [if_neg hlimit]
  dsimp only
  unfold consume?
  rw [prune_keep]
  split
  · rename_i hroom
    simp only [Option.isSome_some, true_iff]
    omega
  · rename_i hfull
    simp only [Option.isSome_none, Bool.false_eq_true, false_iff]
    omega

theorem enforceRateLimit_counts (hlimit : limit ≠ 0)
    (h : enforceRateLimit limit windowSeconds key now counters = some counters') :
    counters' key (windowStart windowSeconds (now.1 / 1000000)) =
      counters key (windowStart windowSeconds (now.1 / 1000000)) + 1 := by
  unfold enforceRateLimit at h
  rw [if_neg hlimit] at h
  have hcount := (consume?_eq_some h (Nat.pos_of_ne_zero hlimit) key
    (windowStart windowSeconds (now.1 / 1000000))).1
  rw [prune_keep, if_pos ⟨rfl, rfl⟩] at hcount
  exact hcount

end Budgets

/-! ## Moves -/

section Moves

variable {s : System ρ π δ} {p q : ρ} {db : Db ρ δ} {phase : Phase δ}

theorem view_of_pending (h : s.pending = some (p, db)) : s.view p = db := by
  unfold System.view
  rw [h]
  exact if_pos rfl

theorem view_of_not_pending (h : ∀ db, s.pending ≠ some (p, db)) : s.view p = s.committed := by
  unfold System.view
  split
  · rename_i q db hpending
    have hne : q ≠ p := fun heq => h db (heq ▸ hpending)
    exact if_neg hne
  · rfl

theorem release_of_pending (h : s.pending = some (p, db)) : s.release p = none := by
  unfold System.release
  rw [h]
  exact if_pos rfl

theorem release_of_not_pending (h : ∀ db, s.pending ≠ some (p, db)) : s.release p = s.pending := by
  unfold System.release
  split
  · rename_i q db hpending
    have hne : q ≠ p := fun heq => h db (heq ▸ hpending)
    rw [if_neg hne, hpending]
  · rename_i hpending
    exact hpending.symm

/-- A session has the open transaction, or it sees what is committed. -/
theorem pending_or_not (s : System ρ π δ) (p : ρ) :
    (∃ db, s.pending = some (p, db)) ∨ ∀ db, s.pending ≠ some (p, db) := by
  by_cases h : ∃ db, s.pending = some (p, db)
  · exact .inl h
  · exact .inr fun db hdb => h ⟨db, hdb⟩

theorem release_eq_some (h : s.release p = some (q, db)) : s.pending = some (q, db) ∧ q ≠ p := by
  rcases pending_or_not s p with ⟨db', hpending⟩ | hnot
  · rw [release_of_pending hpending] at h
    cases h
  · rw [release_of_not_pending hnot] at h
    refine ⟨h, fun heq => ?_⟩
    rw [heq] at h
    exact hnot db h

@[simp] theorem phase_goto_self : (s.goto p phase).phase p = phase := Function.update_self ..

theorem phase_goto_of_ne (h : q ≠ p) : (s.goto p phase).phase q = s.phase q :=
  Function.update_of_ne h ..

@[simp] theorem committed_goto : (s.goto p phase).committed = s.committed := rfl

@[simp] theorem pending_goto : (s.goto p phase).pending = s.pending := rfl

@[simp] theorem clock_goto : (s.goto p phase).clock = s.clock := rfl

@[simp] theorem view_goto : (s.goto p phase).view q = s.view q := rfl

/-- Clearing the claim before the rollback is of no effect. -/
theorem rollback_clearing (r : Request) : (s.clearing p r).rollback p = s.rollback p := by
  unfold System.clearing
  split
  · rfl
  · rename_i hrelease
    have hwritten : ∀ db, (s.write p db).release p = none := fun db => release_of_pending rfl
    unfold System.rollback
    rw [hwritten, hrelease]
    rfl

end Moves

end KiwiCatalog.Idempotency
