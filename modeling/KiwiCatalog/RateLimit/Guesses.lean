import KiwiCatalog.Lib.FixedWindow
import KiwiCatalog.Lib.Transition
import KiwiCatalog.Lib.Update

/-!
# Guesses — the endpoints that compare a presented secret with a stored one

Each such request is counted under the keys of its subject before it compares.  Five endpoints
commit the count in a transaction of its own; the connector exchange counts, compares and commits
in one.  `ρ` names the requests, in any number.
-/

set_option autoImplicit false

namespace KiwiCatalog.RateLimit

open FixedWindow

/-- `actor_key` of `merchant_application_limits`. -/
inductive Key
  | login (email : String)
  | registerVerify (email : String)
  | registerVerifyIp (ipRange : String)
  | verifyEmail (email : String)
  | resetPassword (email : String)
  | enrollmentAuthorize (accountId : Nat)
  | enrollmentPairing (enrollmentId : String)
  | connectorExchange (requestId : String)
  deriving DecidableEq, Repr

/-- The limits in the environment, where they are integers. -/
structure Env where
  loginRateLimit : Option Int
  exchangeRateLimit : Option Int
  deriving DecidableEq, Repr

/-- `_login_rate_limit_per_15min`. -/
def loginRateLimit (env : Env) : Nat :=
  match env.loginRateLimit with
  | some value => if 0 < value then value.toNat else 10
  | none => 10

/-- `_limit_from_env` with the default of the exchange. -/
def exchangeRateLimit (env : Env) : Nat :=
  match env.exchangeRateLimit with
  | some value => value.toNat
  | none => 60

/-- The configured limit of a key; zero is none. -/
def limitOf (env : Env) : Key → Nat
  | .login _ | .registerVerify _ | .verifyEmail _ | .resetPassword _ => loginRateLimit env
  | .registerVerifyIp _ => max (loginRateLimit env * 5) 20
  | .enrollmentAuthorize _ | .enrollmentPairing _ => 10
  | .connectorExchange _ => exchangeRateLimit env

inductive Request
  | login (email : String)
  | registerVerify (email ipRange : String)
  | verifyEmail (email : String)
  | resetPassword (email : String)
  | authorizeEnrollment (accountId : Nat) (enrollmentId : String)
  | exchange (requestId : String)
  deriving DecidableEq, Repr

/-- The keys that a request is counted under, by transaction. -/
def Request.transactions : Request → List (List Key)
  | .login email => [[.login email.toLower]]
  | .registerVerify email ipRange => [[.registerVerify email], [.registerVerifyIp ipRange]]
  | .verifyEmail email => [[.verifyEmail email.toLower]]
  | .resetPassword email => [[.resetPassword email.toLower]]
  | .authorizeEnrollment accountId enrollmentId =>
    [[.enrollmentAuthorize accountId, .enrollmentPairing enrollmentId]]
  | .exchange requestId => [[.connectorExchange requestId]]

def Request.isExchange : Request → Bool
  | .exchange _ => true
  | _ => false

/-- The window of every limit here, in seconds. -/
def windowSeconds : Nat := 900

/-- Seven days, in seconds. -/
def retentionSeconds : Nat := 604800

/-- `enforce_rate_limit`; `none` is the `RateLimitError`. -/
def enforceRateLimit (env : Env) (now : Nat) (key : Key) (c : Counters Key) :
    Option (Counters Key) :=
  if limitOf env key = 0 then some c
  else
    let window := windowStart windowSeconds now
    consume? (prune (now - retentionSeconds) window c) key window (limitOf env key)

/-- The limits of one transaction, in turn. -/
def enforceAll (env : Env) (now : Nat) : List Key → Counters Key → Option (Counters Key)
  | [], c => some c
  | key :: keys, c =>
    match enforceRateLimit env now key c with
    | some c => enforceAll env now keys c
    | none => none

inductive Pc
  -- the transactions to come and the keys and windows counted so far
  | counting (todo : List (List Key)) (charges : List (Key × Nat))
  | ended

structure System (ρ : Type) where
  clock : Nat
  counters : Counters Key
  pc : ρ → Pc
  -- not stored: the requests whose count has been committed, by key and window
  charged : Key → Nat → List ρ
  -- not stored: the requests that have carried out their comparison
  compared : Key → Nat → List ρ

variable {ρ : Type} [DecidableEq ρ]

/-- The charges of one transaction at `now`. -/
def chargesAt (now : Nat) (keys : List Key) : List (Key × Nat) :=
  keys.map fun key => (key, windowStart windowSeconds now)

def record (charges : List (Key × Nat)) (r : ρ) (f : Key → Nat → List ρ) : Key → Nat → List ρ :=
  fun k w => if (k, w) ∈ charges then r :: f k w else f k w

inductive Event
  | exchangeFails
  | other
  deriving DecidableEq, Repr

inductive Step (env : Env) (request : ρ → Request) : Event → System ρ → System ρ → Prop
  | ticks {s : System ρ} (now : Nat) (h : s.clock ≤ now) :
      Step env request .other s { s with clock := now }
  -- the count is committed on its own
  | counts {s : System ρ} {r : ρ} {keys : List Key} {todo : List (List Key)}
      {charges : List (Key × Nat)} {counters : Counters Key}
      (hpc : s.pc r = .counting (keys :: todo) charges)
      (hexchange : (request r).isExchange = false)
      (h : enforceAll env s.clock keys s.counters = some counters) :
      Step env request .other s
        { s with
          counters := counters
          pc := Function.update s.pc r (.counting todo (charges ++ chargesAt s.clock keys))
          charged := record (chargesAt s.clock keys) r s.charged }
  | compares {s : System ρ} {r : ρ} {charges : List (Key × Nat)}
      (hpc : s.pc r = .counting [] charges) :
      Step env request .other s
        { s with
          pc := Function.update s.pc r .ended
          compared := record charges r s.compared }
  -- a limit is reached, or the request fails before its comparison: nothing more is committed
  | ends {s : System ρ} {r : ρ} :
      Step env request .other s { s with pc := Function.update s.pc r .ended }
  -- the code is right and the exchange commits
  | exchanges {s : System ρ} {r : ρ} {keys : List Key} {counters : Counters Key}
      (hpc : s.pc r = .counting [keys] []) (hexchange : (request r).isExchange = true)
      (h : enforceAll env s.clock keys s.counters = some counters) :
      Step env request .other s
        { s with
          counters := counters
          pc := Function.update s.pc r .ended
          charged := record (chargesAt s.clock keys) r s.charged
          compared := record (chargesAt s.clock keys) r s.compared }
  -- the comparison is carried out, an exception follows and the transaction is rolled back
  | exchangeFails {s : System ρ} {r : ρ} {keys : List Key} {counters : Counters Key}
      (hpc : s.pc r = .counting [keys] []) (hexchange : (request r).isExchange = true)
      (h : enforceAll env s.clock keys s.counters = some counters) :
      Step env request .exchangeFails s
        { s with
          pc := Function.update s.pc r .ended
          compared := record (chargesAt s.clock keys) r s.compared }

/-- Nothing is counted and every request is still to come. -/
def Started (request : ρ → Request) (s : System ρ) : Prop :=
  (∀ k w, s.counters k w = 0) ∧ (∀ r, s.pc r = .counting (request r).transactions []) ∧
    (∀ k w, s.charged k w = []) ∧ ∀ k w, s.compared k w = []

/-- Under each key and in each window, at most as many requests have compared as the limit says. -/
def WithinBudget (env : Env) (s : System ρ) : Prop :=
  ∀ k w, 0 < limitOf env k → (s.compared k w).length ≤ limitOf env k

def AnyStep (env : Env) (request : ρ → Request) (s s' : System ρ) : Prop :=
  ∃ event, Step env request event s s'

/-- Steps of a run in which no exchange fails after its comparison. -/
def CountedStep (env : Env) (request : ρ → Request) (s s' : System ρ) : Prop :=
  Step env request .other s s'

end KiwiCatalog.RateLimit
