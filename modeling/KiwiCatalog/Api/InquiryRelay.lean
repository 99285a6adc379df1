import KiwiCatalog.Api.Limits
import KiwiCatalog.Lib.Base64Std
import KiwiCatalog.Lib.Quote
import KiwiCatalog.RuntimeAccess.Readers
import KiwiCatalog.RuntimeAccess.ShareParameter

/-!
# Api.InquiryRelay — what the relay of inquiries gives back

The relay sends the signed bytes to the runtime, with the gate secret in the URL, and looks through
the answer before it hands it on.  What other code raises is a value of the model here, and so is
what the runtime answers.
-/

set_option autoImplicit false

namespace KiwiCatalog.Inquiry

open Api (Bytes Library Raised Text decodeUtf8)
open Binding (currentActiveBinding)
open Checks (check require)
open Py (Fields Key Str keyOf lit ofText scalars)
open RuntimeAccess (Db activeConsent activeRuntimeAccess appendShareParameter stripSlashes)

/-! ## 1. The request -/

structure Env where
  access : RuntimeAccess.Env
  lib : Library
  urls : Url.Tables
  -- `json.loads` of bytes; `none` is a `ValueError` or a `RecursionError`
  loadsBytes : Bytes → Option Py.Value
  -- the integer that a float is equal to
  wholeNumber : Py.Float64 → Option Int
  -- the search for the secret runs into the recursion limit of the interpreter
  overflows : Text → Py.Value → Bool

inductive Failure
  | validation (message : String)
  | notFound (message : String)
  | rateLimited
  -- `decrypt_secret`
  | runtime
  | raised (e : Raised)
  deriving DecidableEq, Repr

def Failure.documented : Failure → Bool
  | .validation _ => true
  | .notFound _ => true
  | .rateLimited => true
  | .runtime => false
  | .raised _ => false

def invalidRequest : Failure := .validation "invalid inquiry request"

def unavailable : Failure := .notFound "public inquiry is not available"

def HEADERS : List String :=
  ["content-type", "content-digest", "signature", "signature-input", "a2a-version",
    "a2a-extensions"]

def METHODS : List String :=
  ["SendMessage", "GetTask", "ListTasks", "CancelTask", "message/send", "tasks/get"]

def isText (text : Str) : Option Py.Value → Bool
  | some (.str s) => s = text
  | _ => false

/-- The encoded body and the headers, of their types. -/
def supplied (payload : Fields) : Option (Str × Fields) :=
  match Py.get (keyOf "_raw_inquiry_body_b64") payload,
    Py.get (keyOf "_inquiry_headers") payload with
  | some (.str encoded), some (.dict headers) => some (encoded, headers)
  | _, _ => none

/-- The signed bytes, and the headers that are still unchecked. -/
def rawBody (payload : Fields) : Except Failure (Bytes × Fields) := do
  let found ← require (supplied payload) invalidRequest
  check (found.1.length ≤ 87384) invalidRequest
  let raw ← require ((scalars found.1).bind Base64.decodeStd) invalidRequest
  check (!raw.isEmpty && raw.length ≤ 65536) invalidRequest
  return (raw, found.2)

/-- `json.loads(raw.decode("utf-8"))` and its `except` clause. -/
def decodeMessage (env : Env) (raw : Bytes) : Except Failure Py.Value :=
  (decodeUtf8 raw).elim (.error invalidRequest) fun text =>
    match env.lib.loads text with
    | .ok message => .ok message
    | .error .unicodeDecode => .error invalidRequest
    | .error .jsonDecode => .error invalidRequest
    | .error .recursion => .error invalidRequest
    | .error e => .error (.raised e)

/-- `method in _METHODS`; `none` is a `TypeError`, for a list and a dictionary have no hash. -/
def methodKnown : Option Py.Value → Option Bool
  | some (.str s) => some (METHODS.any fun name => lit name = s)
  | some (.list _) => none
  | some (.dict _) => none
  | _ => some false

/-- A text or an integer that is no `bool`. -/
def requestIdOf : Option Py.Value → Option Py.Value
  | some (.str s) => some (.str s)
  | some (.int i) => some (.int i)
  | _ => none

def messageFields : Py.Value → Option Fields
  | .dict fields => some fields
  | _ => none

def messageId (message : Py.Value) : Except Failure Py.Value := do
  let fields ← require (messageFields message) (.validation "unsupported inquiry method")
  check (isText (lit "2.0") (Py.get (keyOf "jsonrpc") fields))
    (.validation "unsupported inquiry method")
  let known ← require (methodKnown (Py.get (keyOf "method") fields)) (.raised .type)
  check known (.validation "unsupported inquiry method")
  require (requestIdOf (Py.get (keyOf "id") fields)) (.validation "inquiry id is required")

def headerName : Key → Option Str
  | .text s => if HEADERS.any fun name => lit name = s then some s else none
  | .other _ => none

def headerValue : Py.Value → Option Str
  | .str s =>
    if s.isEmpty || 4096 < s.length || s.contains (.scalar '\r') || s.contains (.scalar '\n')
    then none else some s
  | _ => none

def headerOf (field : Key × Py.Value) : Option (Str × Str) :=
  (headerName field.1).bind fun name => (headerValue field.2).map fun value => (name, value)

/-- `headers["content-type"].split(";", 1)[0].strip().lower() == "application/json"`; no character
beyond ASCII lowers to one of its letters. -/
def isJsonType (value : Str) : Bool :=
  (scalars (value.takeWhile fun c => c ≠ .scalar ';')).any fun text =>
    (Url.strip text).map Char.toLower = "application/json".toList

def header (name : String) (headers : List (Str × Str)) : Option Str :=
  (headers.find? fun h => h.1 = lit name).map Prod.snd

def acceptHeaders (fields : Fields) : Except Failure (List (Str × Str)) := do
  let headers ← require (fields.mapM headerOf) (.validation "invalid inquiry header")
  check (["content-type", "content-digest", "signature", "signature-input"].all fun name =>
    (header name headers).isSome) (.validation "signed inquiry headers are required")
  check ((header "content-type" headers).any isJsonType)
    (.validation "inquiry content type must be application/json")
  return headers

structure Accepted where
  raw : Bytes
  requestId : Py.Value
  headers : List (Str × Str)

/-- The checks of `forward` on its request. -/
def accept (env : Env) (payload : Fields) : Except Failure Accepted := do
  let body ← rawBody payload
  let message ← decodeMessage env body.1
  let requestId ← messageId message
  let headers ← acceptHeaders body.2
  return ⟨body.1, requestId, headers⟩

/-! ## 2. The gate -/

/-- `_current_binding` of the consent to inquiries. -/
def currentBinding (now : Nat) (db : Db) (agentId merchantId bindingId : String) : Bool :=
  (RuntimeAccess.agentRow db agentId).any fun a =>
    a.standing merchantId && a.freshnessState ≠ .unreachable &&
      (db.bindings.find? fun b => b.catalogAgentId = agentId && b.merchantId = merchantId &&
        b.bindingId = bindingId && b.isActive).any fun b =>
          (db.expiresAt b.bindingId).valid now

def enabled (env : Env) (now : Nat) (db : Db) (agentId : String) : Bool :=
  (db.around.inquiryConsents agentId).any fun k =>
    k.termsVersion = RuntimeAccess.inquiryTermsVersion && !k.revoked &&
      currentBinding now db agentId k.merchantId k.bindingId && env.access.custodyEnabled &&
      (activeConsent db.access agentId).isSome && (activeRuntimeAccess db.access agentId).isSome &&
      db.around.publications agentId = some .active

structure Gate where
  target : Text
  secret : Text

/-- The state in which a request meets the gate: the budget of its address and the tables. -/
structure World where
  limited : Bool
  now : Nat
  db : Db
  agentId : String

/-- The binding and the configuration that are in force. -/
def opened (env : Env) (w : World) :
    Except Failure (Binding.RuntimeBinding × RuntimeAccess.AccessConfig) := do
  check (!w.limited) .rateLimited
  check (enabled env w.now w.db w.agentId) unavailable
  let binding ← require (currentActiveBinding w.db.bindings w.agentId) unavailable
  let config ← require (activeRuntimeAccess w.db.access w.agentId) unavailable
  check (binding.a2aEndpoint = stripSlashes binding.runtimeOrigin ++ "/a2a") unavailable
  return (binding, config)

def appended (env : Env) (endpoint secret : Text) : Except Failure Text :=
  match appendShareParameter env.urls endpoint secret with
  | .ok target => .ok target
  | .error (.validation message) => .error (.validation message)
  | .error .valueError => .error (.raised .value)

def gate (env : Env) (w : World) : Except Failure Gate := do
  let found ← opened env w
  let secret ← require (env.access.decryptSecret found.2.secretCiphertext found.2.keyId) .runtime
  let target ← appended env found.1.a2aEndpoint.toList secret.toList
  return ⟨target, secret.toList⟩

/-! ## 3. The answer -/

/-- `part in s`. -/
def hasPart (part s : Str) : Bool := s.tails.any fun rest => part.isPrefixOf rest

/-- The secret, or what `quote` makes of it. -/
def detects (secret : Text) (s : Str) : Bool :=
  hasPart (ofText secret) s || hasPart (ofText (Url.quote secret)) s

def keyText : Key → Option Str
  | .text s => some s
  | .other _ => none

mutual

/-- `_contains_gate_secret`. -/
def containsGateSecret (secret : Text) : Py.Value → Bool
  | .str s => detects secret s
  | .list items => containsGateSecretItems secret items
  | .dict members => containsGateSecretMembers secret members
  | _ => false

def containsGateSecretItems (secret : Text) : List Py.Value → Bool
  | [] => false
  | v :: rest => containsGateSecret secret v || containsGateSecretItems secret rest

def containsGateSecretMembers (secret : Text) : List (Key × Py.Value) → Bool
  | [] => false
  | (key, v) :: rest =>
    (keyText key).any (detects secret) || containsGateSecret secret v ||
      containsGateSecretMembers secret rest

end

/-- `response.get("id") == request_id`, where the request's is a text or an integer. -/
def sameId (env : Env) : Option Py.Value → Py.Value → Bool
  | some (.str s), .str t => s = t
  | some (.int i), .int j => i = j
  | some (.bool b), .int j => (if b then 1 else 0) = j
  | some (.float x), .int j => env.wholeNumber x = some j
  | _, _ => false

def responseKeys : List Key := [keyOf "jsonrpc", keyOf "id", keyOf "result", keyOf "error"]

/-- The checks of an answer but the last. -/
def wellFormed (env : Env) (requestId : Py.Value) (response : Fields) : Bool :=
  isText (lit "2.0") (Py.get (keyOf "jsonrpc") response) &&
    sameId env (Py.get (keyOf "id") response) requestId &&
    (response.all fun field => responseKeys.contains field.1) &&
    (Py.get (keyOf "result") response).isSome != (Py.get (keyOf "error") response).isSome

/-- `_relay_failure`. -/
def relayFailure (requestId : Py.Value) : Fields :=
  [(keyOf "__status__", .int 502), (keyOf "__no_store__", .bool true),
    (keyOf "jsonrpc", .str (lit "2.0")), (keyOf "id", requestId),
    (keyOf "error", .dict [(keyOf "code", .int (-32000)),
      (keyOf "message", .str (lit "商家服务暂不可用，请稍后重试"))])]

def relayResponse (env : Env) (requestId : Py.Value) (secret : Text) (response : Fields) :
    Except Failure Fields :=
  if !wellFormed env requestId response then .ok (relayFailure requestId)
  else if env.overflows secret (.dict response) then .error (.raised .recursion)
  else if containsGateSecret secret (.dict response) then .ok (relayFailure requestId)
  else .ok (Py.set (keyOf "__no_store__") (.bool true) response)

/-- What the runtime does: an exception is `none`, else the status and the body. -/
abbrev Upstream := Text → Bytes → List (Str × Str) → Option (Int × Bytes)

def relay (env : Env) (requestId : Py.Value) (secret : Text) (result : Option (Int × Bytes)) :
    Except Failure Fields :=
  result.elim (.ok (relayFailure requestId)) fun answer =>
    if answer.1 ≠ 200 then .ok (relayFailure requestId)
    else ((env.loadsBytes answer.2).bind messageFields).elim (.ok (relayFailure requestId))
      (relayResponse env requestId secret)

def forward (env : Env) (w : World) (upstream : Upstream) (payload : Fields) :
    Except Failure Fields := do
  let accepted ← accept env payload
  let gate ← gate env w
  relay env accepted.requestId gate.secret
    (upstream gate.target accepted.raw accepted.headers)

end KiwiCatalog.Inquiry
