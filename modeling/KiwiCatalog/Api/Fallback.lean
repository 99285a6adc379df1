import KiwiCatalog.Api.Limits
import KiwiCatalog.Api.RouteTable
import KiwiCatalog.Lib.Base64Std
import KiwiCatalog.Lib.Query

/-!
# Api.Fallback — a request on the fallback transport

From the scope and the messages of the body to the call of the handler, and from what the handler
returns to the messages of the response.
-/

set_option autoImplicit false

namespace KiwiCatalog.Api

open Checks (check require)

open Py (CodePoint Str Key Fields lit ofText keyOf)

/-! ## 1. The request -/

structure Scope where
  method : Str
  path : Str
  headers : List (Bytes × Bytes)
  -- the host of `client`; `none` is a server that does not tell
  client : Option Str
  queryString : Bytes

/-- `str(scope.get("method") or "GET").upper()`. -/
def Scope.upperMethod (lib : Library) (scope : Scope) : Str :=
  lib.upper (if scope.method.isEmpty then lit "GET" else scope.method)

def Scope.pathOrRoot (scope : Scope) : Str := if scope.path.isEmpty then lit "/" else scope.path

/-- `value.decode("latin1")`. -/
def latin1 (value : Bytes) : Str := value.map fun b => .scalar (Char.ofNat b.toNat)

/-- The headers with their names in lower case. -/
def decodedHeaders (lib : Library) (headers : List (Bytes × Bytes)) : List (Str × Str) :=
  headers.map fun header => (lib.lower (latin1 header.1), latin1 header.2)

/-- `headers.get(name, "")` of the dictionary of the headers, which keeps the last of a name. -/
def headerOf (lib : Library) (headers : List (Bytes × Bytes)) (name : String) : Str :=
  (((decodedHeaders lib headers).reverse.find? fun header => header.1 = lit name).map
    Prod.snd).getD []

def isSpace : CodePoint → Bool
  | .scalar c => Url.isSpace c
  | .surrogate _ => false

/-- The string without what `p` holds of at its ends. -/
def stripWhere (p : CodePoint → Bool) (s : Str) : Str :=
  ((s.dropWhile p).reverse.dropWhile p).reverse

def strip (s : Str) : Str := stripWhere isSpace s

def comma : CodePoint := .scalar ','

def trustedProxies (lib : Library) (cfg : Config) : List Str :=
  if (strip cfg.trustedProxies).isEmpty then [lit "127.0.0.1", lit "::1"]
  else ((cfg.trustedProxies.splitOn comma).filter fun p => !(strip p).isEmpty).map
    fun p => lib.lower (strip p)

def resolveClientIp (lib : Library) (cfg : Config) (xff : Str) (directPeer : Option Str) : Str :=
  let peer := strip (directPeer.getD [])
  if !peer.isEmpty && (trustedProxies lib cfg).contains (lib.lower peer) &&
      !(strip xff).isEmpty then
    let first := strip (xff.takeWhile (· ≠ comma))
    if first.isEmpty then peer else first
  else peer

def contentLength (lib : Library) (headers : List (Bytes × Bytes)) : Int :=
  let value := headerOf lib headers "content-length"
  if value.isEmpty then 0 else (lib.parseInt value).getD 0

/-- The body, read chunk by chunk; `none` is a body beyond the maximum. -/
def readBody (maximum : Nat) : Nat → List Bytes → Option Bytes
  | _, [] => some []
  | size, chunk :: rest =>
    if size + chunk.length > maximum then none
    else (readBody maximum (size + chunk.length) rest).map (chunk ++ ·)

/-- `{key: values[-1]}` of `parse_qs`; bytes that do not decode are no query. -/
def queryOf (queryString : Bytes) : List (Text × Text) :=
  let fields := Url.parseQsl ((decodeUtf8 queryString).getD [])
  (fields.map Prod.fst).dedup.map fun key =>
    (key, ((fields.reverse.find? fun field => field.1 = key).map Prod.snd).getD [])

/-! ## 2. The payload -/

/-- What ends a request before its handler. -/
inductive Stop
  -- a 400 that is sent without `_send_json`
  | plain (error : Str)
  | refused (status : Int) (error : Str)
  | raised (e : Raised)

/-- `json.loads` of the body and its two `except` clauses. -/
def decodeBody (lib : Library) (body : Bytes) : Except Stop Fields :=
  match decodeUtf8 body with
  | none => .error (.plain (lit "invalid JSON request body"))
  | some text =>
    match lib.loads (if text.isEmpty then ['\x7b', '\x7d'] else text) with
    | .error .recursion => .error (.plain (lit JSON_DEPTH_ERROR))
    | .error .unicodeDecode => .error (.plain (lit "invalid JSON request body"))
    | .error .jsonDecode => .error (.plain (lit "invalid JSON request body"))
    | .error e => .error (.raised e)
    | .ok (.dict fields) => .ok fields
    | .ok _ => .error (.plain (lit "JSON request body must be an object"))

def LimitError.stop : LimitError → Stop
  | .payloadTooLarge => .refused 413 (lit LimitError.payloadTooLarge.message)
  | .validation message => .refused 400 (lit message)

/-- The route of inquiries, by the text of the path. -/
def isInquiry (method path : Str) : Bool :=
  method = lit "POST" && (lit "/v1/agents/").isPrefixOf path &&
    (lit "/public-inquiry").isSuffixOf path

def popAll (names : List String) (fields : Fields) : Fields :=
  names.foldl (fun fields name => Py.pop (keyOf name) fields) fields

def setText (name : String) (value : Str) (fields : Fields) : Fields :=
  Py.set (keyOf name) (.str value) fields

/-- A field that is only set where there is a value. -/
def setNonempty (name : String) (value : Str) (fields : Fields) : Fields :=
  if value.isEmpty then fields else setText name value fields

/-- The token of an `Authorization` header. -/
def bearerToken (lib : Library) (authorization : Str) : Str :=
  if (lit "bearer ").isPrefixOf (lib.lower authorization) then strip (authorization.drop 7) else []

def payloadWithAuth (lib : Library) (payload : Fields)
    (authorization idempotencyKey bindingJws : Str) : Fields :=
  let merged := popAll ["_auth_token", "_binding_jws", "_origin", "_referer"] payload
  let merged := setNonempty "_auth_token" (bearerToken lib authorization) merged
  let merged := setNonempty "idempotency_key" idempotencyKey merged
  if bindingJws.isEmpty then merged else setText "_binding_jws" (strip bindingJws) merged

/-- The names of the headers that an inquiry takes with it. -/
def inquiryHeaderNames : List String :=
  ["content-type", "content-digest", "signature", "signature-input", "a2a-version",
    "a2a-extensions"]

def inquiryHeaders (lib : Library) (headers : List (Bytes × Bytes)) : List (Str × Str) :=
  (decodedHeaders lib headers).filter fun header =>
    inquiryHeaderNames.any fun name => lit name = header.1

/-- A dictionary of texts. -/
def headerDict (headers : List (Str × Str)) : Py.Value :=
  .dict (headers.map fun header => (.text header.1, .str header.2))

/-- The payload with the fields of the transport. -/
def withTransport (lib : Library) (cfg : Config) (scope : Scope) (payload : Fields) : Fields :=
  let header := headerOf lib scope.headers
  let payload := popAll ["_cookie", "_buyer_id", "_client_ip"] payload
  let payload := payloadWithAuth lib payload (header "authorization") (header "idempotency-key")
    (header "x-kiwi-binding-jws")
  let payload := setNonempty "_cookie" (header "cookie") payload
  let payload := setText "_origin" (header "origin") payload
  let payload := setText "_referer" (header "referer") payload
  let payload := setNonempty "_buyer_id" (header "x-buyer-id") payload
  let payload := Py.pop (keyOf "_client_ip") payload
  setText "_client_ip" (resolveClientIp lib cfg (header "x-forwarded-for") scope.client) payload

/-- The fields of an inquiry; two headers of one name are refused. -/
def withInquiry (lib : Library) (scope : Scope) (body : Bytes) (payload : Fields) : Option Fields :=
  let forwarded := inquiryHeaders lib scope.headers
  if (forwarded.map Prod.fst).Nodup then
    let payload := setText "_raw_inquiry_body_b64" (ofText (Base64.encodeStd body)) payload
    some (Py.set (keyOf "_inquiry_headers") (headerDict forwarded) payload)
  else none

/-- The payload for the handler, and the fields of it that are trusted. -/
def admitBody (lib : Library) (cfg : Config) (scope : Scope) (body : Bytes) :
    Except Stop (Fields × List String) := do
  let decoded ← decodeBody lib body
  (validatePayload lib cfg (.dict decoded) []).mapError LimitError.stop
  if isInquiry (scope.upperMethod lib) scope.pathOrRoot then
    let payload := withTransport lib cfg scope (popAll INQUIRY_TRANSPORT_KEYS decoded)
    let payload ← require (withInquiry lib scope body payload)
      (.refused 400 (lit "duplicate inquiry header"))
    pure (payload, INQUIRY_TRANSPORT_KEYS)
  else pure (withTransport lib cfg scope decoded, [])

/-- The request up to the call of the handler; the chunks end with the last message of the body. -/
def admitRequest (lib : Library) (cfg : Config) (resolver : Str → Str → Bool × Bool) (scope : Scope)
    (chunks : List Bytes) : Except Stop (Fields × List String) := do
  let method := scope.upperMethod lib
  let path := scope.pathOrRoot
  let maximum := cfg.maxRequestBodyBytes
  check (contentLength lib scope.headers ≤ maximum) (.refused 413 (lit "request body is too large"))
  let (pathKnown, methodAllowed) := resolver method path
  check pathKnown (.refused 404 (lit "No route for " ++ method ++ lit " " ++ path))
  check methodAllowed (.refused 405 (lit "Method not allowed for " ++ method ++ lit " " ++ path))
  let body ← require (readBody maximum 0 chunks) (.refused 413 (lit "request body is too large"))
  admitBody lib cfg scope body

/-! ## 3. The default handler -/

/-- The handler that `handle_request` calls, with its parameters; `none` is an error response. -/
def handleRequest (lib : Library) (cfg : Config) (specs : List ExtensionRoute) (method path : Str)
    (payload : Fields) (trusted : List String) : Option (Handler × Params) :=
  match validatePayload lib cfg (.dict payload) trusted with
  | .error _ => none
  | .ok () =>
    match dispatchRequest (allRoutes specs) (lib.upper method) path with
    | .handler handler params => some (handler, params)
    | _ => none

/-- The call of a handler: the payload and the query that it is given. -/
structure HandlerCall where
  handler : Handler
  params : Params
  payload : Fields
  query : List (Text × Text)

/-- The handler that a request reaches. -/
def dispatched (lib : Library) (cfg : Config) (specs : List ExtensionRoute) (scope : Scope)
    (chunks : List Bytes) : Option HandlerCall :=
  match admitRequest lib cfg (fun method => resolveRoute (allRoutes specs) (lib.upper method)) scope
    chunks with
  | .ok (payload, trusted) =>
    (handleRequest lib cfg specs (scope.upperMethod lib) scope.pathOrRoot payload trusted).map
      fun called => ⟨called.1, called.2, payload, queryOf scope.queryString⟩
  | .error _ => none

end KiwiCatalog.Api
