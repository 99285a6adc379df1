import KiwiCatalog.Binding.Store
import KiwiCatalog.Catalog.Payload
import KiwiCatalog.Lib.Checks
import KiwiCatalog.Lib.IsoText
import KiwiCatalog.Lib.Table

/-!
# RuntimeRequests — signed requests of a bound runtime and their nonces

`verify_runtime_request` checks the signature against the active binding of the key, the signed
fields against the request, and `issued_at` against the clock, and then consumes the nonce.
`consume_request_nonce` relies on the primary key `(key_id, nonce)`; every 64th call of a process
also deletes the rows whose `expires_at` text is before the text of the current time.
-/

set_option autoImplicit false

namespace KiwiCatalog.Signature

open Checks IsoText

/-! ## Requests -/

inductive Refusal
  | permissionDenied (message : String)
  | validationError (message : String)
  -- an exception that no caller maps to a refusal of the request
  | uncaught (what : String)
  deriving DecidableEq, Repr

/-- A request signature as far as it decodes. -/
inductive Jws
  -- not a text, or not of three segments
  | malformed
  | undecodable (exc : String)
  -- header or payload is not an object
  | notObjects
  | decoded (header payload : Dict) (signature signingInput : String)
  deriving DecidableEq, Repr

/-- `str(payload.get("issued_at", ""))`. -/
def Jws.issuedAt : Jws → String
  | .decoded _ payload _ _ => payload.str "issued_at"
  | _ => ""

/-- What `datetime.fromisoformat` returns. -/
inductive Parsed
  | naive (wall : Nat) (h : wall < maxMicroseconds)
  | aware (t : DateTime)

/-- `replace(tzinfo=timezone.utc)` for a naive value. -/
def Parsed.assumeUtc : Parsed → DateTime
  | .naive wall h => .utc wall h
  | .aware t => t

structure Env where
  fromisoformat : String → Option Parsed
  -- the Ed25519 key with this `x` coordinate, its signature and the signed text; `none` where the
  -- coordinate is not a key
  verify : String → String → String → Option Bool

/-- The parts of `runtime_bindings` that only signatures read. -/
structure SigningBinding extends Binding.RuntimeBinding where
  expiresAt : String
  keyJwk : Dict
  deriving DecidableEq, Repr

/-! ## The checks of `verify_runtime_request` -/

def defaultClockSkewSeconds : Nat := 300

def allowedJwsAlgs : List String := ["EdDSA"]

/-- `kid` of a header with an allowed algorithm. -/
def headerKid (header : Dict) : Except Refusal String :=
  if allowedJwsAlgs.contains ((header.nonempty? "alg").getD "") = false then
    .error (.permissionDenied ("unsupported JWS alg: " ++ ((header.get? "alg").getD .null).repr))
  else
    match header.nonempty? "kid" with
    | none => .error (.permissionDenied "request signature missing kid")
    | some kid => .ok kid

def findBinding (bindings : List SigningBinding) (catalogAgentId kid : String) :
    Except Refusal SigningBinding :=
  match (bindings.filter fun b => b.catalogAgentId = catalogAgentId && b.keyId = kid &&
      b.isActive).argmax fun b => b.bindingVersion with
  | none => .error (.permissionDenied "no active binding for this key")
  | some b => .ok b

def checkBindingExpiry (env : Env) (b : SigningBinding) (now : UtcClock) : Except Refusal Unit :=
  if b.expiresAt = "" then .ok ()
  else
    match env.fromisoformat b.expiresAt with
    | none => .error (.permissionDenied ("binding expiry is malformed: " ++ b.expiresAt))
    | some (.naive _ _) =>
      .error (.uncaught "can't compare offset-naive and offset-aware datetimes")
    | some (.aware t) =>
      if t.instant ≤ now.1 then .error (.permissionDenied "runtime binding expired") else .ok ()

def publicKeyFromJwk (jwk : Dict) : Except Refusal String :=
  if jwk.get? "kty" ≠ some (.text "OKP") ∨ jwk.get? "crv" ≠ some (.text "Ed25519") then
    .error (.permissionDenied "binding key is not an Ed25519 public JWK")
  else
    match jwk.nonempty? "x" with
    | none => .error (.permissionDenied "binding key JWK missing x")
    | some x => .ok x

def checkSignature (env : Env) (x signature signingInput : String) : Except Refusal Unit :=
  match env.verify x signature signingInput with
  | none => .error (.uncaught "An Ed25519 public key is 32 bytes long")
  | some false => .error (.permissionDenied "request signature verification failed")
  | some true => .ok ()

def checkBindingId (payload : Dict) (binding : SigningBinding) : Except Refusal Unit :=
  if payload.str "binding_id" ≠ binding.bindingId then
    .error (.permissionDenied "signature binding_id mismatch")
  else .ok ()

/-- How signed fields are compared. -/
def normalize : Value → String
  | .bool b => if b then "true" else "false"
  | v => v.str

/-- Each field of the request is signed with the value that the request has. -/
def checkFields (payload : Dict) : Dict → Except Refusal Unit
  | [] => .ok ()
  | (field, actual) :: rest =>
    match payload.get? field with
    | none =>
      .error (.validationError ("request signature does not cover required field: " ++ field))
    | some v =>
      if normalize v ≠ normalize actual then
        .error (.permissionDenied ("signature field mismatch: " ++ field))
      else checkFields payload rest

/-- `fromisoformat`, with UTC where no offset is written. -/
def parseIssuedAt (env : Env) (issuedAt : String) : Except Refusal DateTime :=
  match env.fromisoformat issuedAt with
  | none => .error (.validationError ("signature issued_at is malformed: " ++ issuedAt))
  | some p => .ok p.assumeUtc

/-- `abs((current - issued).total_seconds()) <= clock_skew_seconds`. -/
def InWindow (issued : DateTime) (now : Nat) (clockSkewSeconds : Nat) : Prop :=
  ((now : Int) - issued.instant).natAbs ≤ clockSkewSeconds * 1000000

instance (issued : DateTime) (now clockSkewSeconds : Nat) :
    Decidable (InWindow issued now clockSkewSeconds) :=
  inferInstanceAs (Decidable (_ ≤ _))

def checkWindow (issued : DateTime) (now : UtcClock) (clockSkewSeconds : Nat) :
    Except Refusal Unit :=
  if InWindow issued now.1 clockSkewSeconds then .ok ()
  else .error (.permissionDenied "request signature outside the allowed clock skew window")

def payloadNonce (payload : Dict) : Except Refusal String :=
  match payload.nonempty? "nonce" with
  | none => .error (.validationError "request signature missing nonce")
  | some nonce => .ok nonce

/-- A request that passed every check and has still to consume its nonce. -/
structure Checked where
  keyId : String
  nonce : String
  issuedAt : String
  issued : DateTime
  payload : Dict

def checkDecoded (env : Env) (bindings : List SigningBinding) (catalogAgentId : String)
    (header payload : Dict) (signature signingInput : String) (expectedFields : Dict)
    (now : UtcClock) (clockSkewSeconds : Nat) : Except Refusal Checked := do
  let kid ← headerKid header
  let binding ← findBinding bindings catalogAgentId kid
  checkBindingExpiry env binding now
  let x ← publicKeyFromJwk binding.keyJwk
  checkSignature env x signature signingInput
  checkBindingId payload binding
  checkFields payload expectedFields
  let issued ← parseIssuedAt env (payload.str "issued_at")
  checkWindow issued now clockSkewSeconds
  let nonce ← payloadNonce payload
  return ⟨binding.keyId, nonce, payload.str "issued_at", issued, payload⟩

def checkRequest (env : Env) (bindings : List SigningBinding) (catalogAgentId : String)
    (jws : Jws) (expectedFields : Dict) (now : UtcClock) (clockSkewSeconds : Nat) :
    Except Refusal Checked :=
  match jws with
  | .malformed => .error (.permissionDenied "missing or malformed request signature")
  | .undecodable exc => .error (.permissionDenied ("malformed request signature: " ++ exc))
  | .notObjects => .error (.permissionDenied "malformed request signature")
  | .decoded header payload signature signingInput =>
    checkDecoded env bindings catalogAgentId header payload signature signingInput expectedFields
      now clockSkewSeconds

/-! ## Nonces -/

/-- A row of `control_plane_nonces`.  Its column `expires_at` holds the text of `expiresAt`. -/
structure NonceRow where
  keyId : String
  nonce : String
  expiresAt : DateTime

def NonceRow.key (r : NonceRow) : String × String := (r.keyId, r.nonce)

/-- The table, and the counter of the process that makes the call. -/
structure NonceStore where
  rows : List NonceRow
  pruneCounter : Nat

def minNonceLength : Nat := 8

def maxNonceLength : Nat := 128

def pruneEvery : Nat := 64

/-- `delete from control_plane_nonces where expires_at < ?`, a comparison of texts. -/
def prune (now : UtcClock) (rows : List NonceRow) : List NonceRow :=
  Table.deleteWhere (fun r => decide (r.expiresAt.isoformat < now.time.isoformat)) rows

/-- The expiry that a nonce signed at `issuedAt` is stored with. -/
def nonceExpiry (env : Env) (issuedAt : String) (windowSeconds : Nat) : Except Refusal DateTime := do
  let issued ← parseIssuedAt env issuedAt
  match issued.add? (windowSeconds * 1000000) with
  | none => throw (.uncaught "date value out of range")
  | some expiresAt => return expiresAt

def checkNonceLength (nonce : String) : Except Refusal Unit :=
  if nonce.length < minNonceLength ∨ maxNonceLength < nonce.length then
    .error (.validationError "request nonce length must be within 8..128")
  else .ok ()

def consumeRequestNonce (env : Env) (store : NonceStore) (keyId nonce issuedAt : String)
    (now : UtcClock) (windowSeconds : Nat) : Except Refusal NonceStore := do
  checkNonceLength nonce
  let expiresAt ← nonceExpiry env issuedAt windowSeconds
  match Table.insert? NonceRow.key ⟨keyId, nonce, expiresAt⟩ store.rows with
  | none => throw (.permissionDenied "request signature replayed (nonce already used)")
  | some rows =>
    return {
      rows := if store.pruneCounter % pruneEvery = 0 then prune now rows else rows
      pruneCounter := store.pruneCounter + 1 }

def verifyRuntimeRequest (env : Env) (bindings : List SigningBinding) (store : NonceStore)
    (catalogAgentId : String) (jws : Jws) (expectedFields : Dict) (now : UtcClock)
    (clockSkewSeconds : Nat) : Except Refusal (Dict × NonceStore) := do
  let c ← checkRequest env bindings catalogAgentId jws expectedFields now clockSkewSeconds
  let store' ← consumeRequestNonce env store c.keyId c.nonce c.issuedAt now clockSkewSeconds
  return (c.payload, store')

/-! ## What each operation does -/

/-- The deletion compares texts, and so wall clocks: an offset does not count. -/
theorem mem_prune {now : UtcClock} {rows : List NonceRow} {r : NonceRow} :
    r ∈ prune now rows ↔ r ∈ rows ∧ ¬ r.expiresAt.wall < now.1 := by
  have htext : r.expiresAt.isoformat < now.time.isoformat ↔ r.expiresAt.wall < now.1 :=
    isoformat_lt_utc_iff r.expiresAt now.2
  rw [prune, Table.mem_deleteWhere, decide_eq_false_iff_not, htext]

theorem prune_eq (now : UtcClock) (rows : List NonceRow) :
    prune now rows = rows.filter fun r => decide (¬ r.expiresAt.wall < now.1) := by
  apply List.filter_congr
  intro r _
  have htext : r.expiresAt.isoformat < now.time.isoformat ↔ r.expiresAt.wall < now.1 :=
    isoformat_lt_utc_iff r.expiresAt now.2
  by_cases hlt : r.expiresAt.wall < now.1
  · simp [htext, hlt]
  · simp [htext, hlt]

theorem nonceExpiry_ok {env : Env} {issuedAt : String} {windowSeconds : Nat} {t : DateTime}
    (h : nonceExpiry env issuedAt windowSeconds = .ok t) :
    ∃ issued, parseIssuedAt env issuedAt = .ok issued ∧
      t.wall = issued.wall + windowSeconds * 1000000 ∧ t.offset = issued.offset := by
  obtain ⟨issued, hparse, hrest⟩ := bind_eq_ok h
  refine ⟨issued, hparse, ?_⟩
  split at hrest
  · cases hrest
  · rename_i e hadd
    rw [← Except.ok.inj hrest]
    exact DateTime.add?_eq_some hadd

/-- A nonce is consumed once: its row was not there, and it is there unless the call prunes it. -/
theorem consumeRequestNonce_ok {env : Env} {store store' : NonceStore}
    {keyId nonce issuedAt : String} {now : UtcClock} {windowSeconds : Nat}
    (h : consumeRequestNonce env store keyId nonce issuedAt now windowSeconds = .ok store') :
    ∃ expiresAt, nonceExpiry env issuedAt windowSeconds = .ok expiresAt ∧
      (∀ r ∈ store.rows, r.key ≠ (keyId, nonce)) ∧
      store'.pruneCounter = store.pruneCounter + 1 ∧
      store'.rows = if store.pruneCounter % pruneEvery = 0
        then prune now (store.rows ++ [⟨keyId, nonce, expiresAt⟩])
        else store.rows ++ [⟨keyId, nonce, expiresAt⟩] := by
  obtain ⟨_, -, hrest⟩ := bind_eq_ok h
  obtain ⟨expiresAt, hexpiry, hrest⟩ := bind_eq_ok hrest
  refine ⟨expiresAt, hexpiry, ?_⟩
  split at hrest
  · cases hrest
  · rename_i rows hinsert
    obtain ⟨hfree, rfl⟩ := Table.insert?_eq_some hinsert
    rw [← Except.ok.inj hrest]
    exact ⟨hfree, rfl, rfl⟩

theorem checkDecoded_ok {env : Env} {bindings : List SigningBinding} {catalogAgentId : String}
    {header payload : Dict} {signature signingInput : String} {expectedFields : Dict}
    {now : UtcClock} {clockSkewSeconds : Nat} {c : Checked}
    (h : checkDecoded env bindings catalogAgentId header payload signature signingInput
      expectedFields now clockSkewSeconds = .ok c) :
    c.issuedAt = payload.str "issued_at" ∧ parseIssuedAt env c.issuedAt = .ok c.issued ∧
      InWindow c.issued now.1 clockSkewSeconds := by
  obtain ⟨_, -, h⟩ := bind_eq_ok h
  obtain ⟨_, -, h⟩ := bind_eq_ok h
  obtain ⟨_, -, h⟩ := bind_eq_ok h
  obtain ⟨_, -, h⟩ := bind_eq_ok h
  obtain ⟨_, -, h⟩ := bind_eq_ok h
  obtain ⟨_, -, h⟩ := bind_eq_ok h
  obtain ⟨_, -, h⟩ := bind_eq_ok h
  obtain ⟨issued, hparse, h⟩ := bind_eq_ok h
  obtain ⟨_, hwindow, h⟩ := bind_eq_ok h
  obtain ⟨_, -, h⟩ := bind_eq_ok h
  rw [← Except.ok.inj h]
  refine ⟨rfl, hparse, ?_⟩
  unfold checkWindow at hwindow
  split at hwindow
  · assumption
  · cases hwindow

theorem checkRequest_ok {env : Env} {bindings : List SigningBinding} {catalogAgentId : String}
    {jws : Jws} {expectedFields : Dict} {now : UtcClock} {clockSkewSeconds : Nat} {c : Checked}
    (h : checkRequest env bindings catalogAgentId jws expectedFields now clockSkewSeconds = .ok c) :
    c.issuedAt = jws.issuedAt ∧ parseIssuedAt env c.issuedAt = .ok c.issued ∧
      InWindow c.issued now.1 clockSkewSeconds := by
  cases jws with
  | malformed => cases h
  | undecodable exc => cases h
  | notObjects => cases h
  | decoded header payload signature signingInput => exact checkDecoded_ok h

theorem verifyRuntimeRequest_ok {env : Env} {bindings : List SigningBinding} {store : NonceStore}
    {catalogAgentId : String} {jws : Jws} {expectedFields : Dict} {now : UtcClock}
    {clockSkewSeconds : Nat} {payload : Dict} {store' : NonceStore}
    (h : verifyRuntimeRequest env bindings store catalogAgentId jws expectedFields now
      clockSkewSeconds = .ok (payload, store')) :
    ∃ c, checkRequest env bindings catalogAgentId jws expectedFields now clockSkewSeconds = .ok c ∧
      consumeRequestNonce env store c.keyId c.nonce c.issuedAt now clockSkewSeconds = .ok store' ∧
      c.payload = payload := by
  obtain ⟨c, hcheck, h⟩ := bind_eq_ok h
  obtain ⟨store₁, hconsume, h⟩ := bind_eq_ok h
  have hpair := Except.ok.inj h
  have hpayload : c.payload = payload := congrArg Prod.fst hpair
  have hstore : store₁ = store' := congrArg Prod.snd hpair
  rw [hstore] at hconsume
  exact ⟨c, hcheck, hconsume, hpayload⟩

theorem verifyRuntimeRequest_of {env : Env} {bindings : List SigningBinding}
    {store store' : NonceStore} {catalogAgentId : String} {jws : Jws} {expectedFields : Dict}
    {now : UtcClock} {clockSkewSeconds : Nat} {c : Checked}
    (hcheck : checkRequest env bindings catalogAgentId jws expectedFields now clockSkewSeconds =
      .ok c)
    (hconsume : consumeRequestNonce env store c.keyId c.nonce c.issuedAt now clockSkewSeconds =
      .ok store') :
    verifyRuntimeRequest env bindings store catalogAgentId jws expectedFields now
      clockSkewSeconds = .ok (c.payload, store') := by
  unfold verifyRuntimeRequest
  rw [hcheck]
  show (do let store' ← consumeRequestNonce env store c.keyId c.nonce c.issuedAt now
                clockSkewSeconds
           return (c.payload, store')) = _
  rw [hconsume]
  rfl

end KiwiCatalog.Signature
