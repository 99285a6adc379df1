import KiwiCatalog.Lib.Json
import KiwiCatalog.Lib.Url

/-!
# Fetcher — the fetch of a profile, with its redirects

`fetch` as a function of what the network answers: each hop is one resolution and one exchange, and
every library call of a hop may raise.  A run also gives the resolutions and the connections that it
made, in order.
-/

set_option autoImplicit false

namespace KiwiCatalog.Discovery.Fetcher

open Url (Text before behind behindLast beforeLast strip)

/-! ## Exceptions -/

/-- The classes that some `except` tells apart. -/
inductive Exc
  -- `FetchError` and its subclasses
  | fetchError
  | ssrfBlock
  | fetchLimit
  -- `OSError` and subclasses of it
  | osError
  | urlError
  | gaierror
  | timeout
  | httpException
  -- `ValueError` and a subclass of it
  | valueError
  | unicodeError
  | other
  deriving DecidableEq, Repr

namespace Exc

def isFetchError (e : Exc) : Bool := e = fetchError || e = ssrfBlock || e = fetchLimit

def isOSError (e : Exc) : Bool := e = osError || e = urlError || e = gaierror || e = timeout

/-- What the `except` clauses of `_make_request` make of an exception. -/
def converted (e : Exc) : Exc := if e.isOSError || e = httpException then fetchError else e

/-- What those of `_fetch` make of it. -/
def wrapped (e : Exc) : Exc := if e.isOSError then fetchError else e

end Exc

/-! ## Addresses -/

inductive Ip
  | v4 (address : BitVec 32)
  | v6 (address : BitVec 128)
  deriving DecidableEq, Repr

/-- A network of addresses of `width` bits, by its first address and the length of its prefix. -/
structure Network (width : Nat) where
  name : String
  first : BitVec width
  prefixLength : Nat

def Network.contains {width : Nat} (net : Network width) (address : BitVec width) : Bool :=
  address >>> (width - net.prefixLength) = net.first >>> (width - net.prefixLength)

def metadataIp : BitVec 32 := 0xa9fea9fe#32

def extraBlockedV4 : List (Network 32) :=
  [⟨"0.0.0.0/8", 0#32, 8⟩,
    ⟨"100.64.0.0/10", 0x64400000#32, 10⟩,
    ⟨"198.18.0.0/15", 0xc6120000#32, 15⟩,
    ⟨"240.0.0.0/4", 0xf0000000#32, 4⟩,
    ⟨"198.51.100.0/24", 0xc6336400#32, 24⟩,
    ⟨"203.0.113.0/24", 0xcb007100#32, 24⟩]

def linkLocalV6 : Network 128 := ⟨"fe80::/10", 0xfe80#128 <<< 112, 10⟩

def extraBlockedV6 : List (Network 128) :=
  [⟨"fec0::/10", 0xfec0#128 <<< 112, 10⟩, ⟨"ff00::/8", 0xff00#128 <<< 112, 8⟩]

def ipv4MappedV6 : Network 128 := ⟨"::ffff:0:0/96", 0xffff#128 <<< 32, 96⟩

def nat64V6 : Network 128 := ⟨"64:ff9b::/96", 0x64ff9b#128 <<< 96, 96⟩

def ipv4CompatibleV6 : Network 128 := ⟨"::/96", 0#128, 96⟩

/-! ## The library -/

inductive LoadsError
  | jsonDecode
  | recursion
  -- a `ValueError` for an integer of too many digits
  | intDigits
  deriving DecidableEq, Repr

/-- The parts of Python's library that depend on its tables or its version, and `json.loads`. -/
structure Library where
  tables : Url.Tables
  -- the value of a decimal digit
  digit : Char → Option Nat
  -- `ipaddress.ip_address`, and properties of addresses
  ipAddress : Text → Option Ip
  isLoopback : Ip → Bool
  isPrivate : Ip → Bool
  isLinkLocal : Ip → Bool
  -- the URL that a `Location` leads to from a URL, after `urlunparse`, `quote` and `urljoin`
  join : Text → Text → Except Exc Text
  loads : Text → Except LoadsError Json

/-- The digits of an `int` literal, with single underscores between them. -/
def Library.digits (lib : Library) : Text → Option (List Nat)
  | [] => none
  | [c] => (lib.digit c).map fun d => [d]
  | c :: '_' :: rest =>
    match lib.digit c, lib.digits rest with
    | some d, some ds => some (d :: ds)
    | _, _ => none
  | c :: rest =>
    match lib.digit c, lib.digits rest with
    | some d, some ds => some (d :: ds)
    | _, _ => none

/-- `int(text)`; `none` is a `ValueError`. -/
def Library.int (lib : Library) (text : Text) : Option Int :=
  let magnitude (t : Text) : Option Nat := do
    let ds ← lib.digits t
    if ds.length ≤ 4300 then some (ds.foldl (fun n d => n * 10 + d) 0) else none
  match strip text with
  | '-' :: rest => (magnitude rest).map fun n => -Int.ofNat n
  | '+' :: rest => (magnitude rest).map Int.ofNat
  | rest => (magnitude rest).map Int.ofNat

/-! ## What is blocked -/

def blockedV4 (lib : Library) (address : BitVec 32) : Option String :=
  if lib.isLoopback (.v4 address) then some "loopback address"
  else if address = metadataIp then some "cloud metadata endpoint"
  else if lib.isPrivate (.v4 address) then some "private network address"
  else if lib.isLinkLocal (.v4 address) then some "link-local address"
  else (extraBlockedV4.find? fun net => net.contains address).map fun net =>
    "blocked range " ++ net.name

def blockedV6 (lib : Library) (address : BitVec 128) : Option String :=
  let low := address.setWidth 32
  if lib.isLoopback (.v6 address) then some "loopback address"
  else if lib.isPrivate (.v6 address) then some "private network address"
  else if lib.isLinkLocal (.v6 address) || linkLocalV6.contains address then
    some "link-local address"
  else
    match extraBlockedV6.find? fun net => net.contains address with
    | some net => some ("blocked range " ++ net.name)
    | none =>
      match (if ipv4MappedV6.contains address then blockedV4 lib low else none) with
      | some reason => some ("IPv4-mapped " ++ reason)
      | none =>
        if nat64V6.contains address || ipv4CompatibleV6.contains address then
          (blockedV4 lib low).map fun reason => "embedded-IPv4 " ++ reason
        else none

/-- `_is_blocked_ip`, with its reason. -/
def isBlockedIp (lib : Library) : Ip → Option String
  | .v4 address => blockedV4 lib address
  | .v6 address => blockedV6 lib address

/-! ## URLs -/

structure TrustPolicy where
  requireHttps : Bool
  allowedSchemes : List Text
  allowedPorts : List Nat
  redirectLimit : Int
  maxProfileBytes : Int
  profileMaxAgeSeconds : Int

def https : Text := "https".toList
def http : Text := "http".toList

def defaultPort (scheme : Text) : Nat := if scheme = https then 443 else 80

/-- `_port_of`: a port of zero counts as none. -/
def portOf (parsed : Url.Split) (scheme : Text) : Except Exc Nat :=
  match parsed.port with
  | none => .error .ssrfBlock
  | some none => .ok (defaultPort scheme)
  | some (some port) => .ok (if port = 0 then defaultPort scheme else port)

def validateUrl (lib : Library) (policy : TrustPolicy) (url : Text) : Except Exc Url.Split :=
  if url = [] then .error .ssrfBlock
  else
    match Url.urlsplit lib.tables url with
    | none => .error .ssrfBlock
    | some parsed =>
      if parsed.scheme ≠ http ∧ parsed.scheme ≠ https then .error .ssrfBlock
      else if parsed.scheme ∉ policy.allowedSchemes then .error .ssrfBlock
      else if parsed.hostname lib.tables = [] then .error .ssrfBlock
      else .ok parsed

/-- A URL that passed the checks before its name is resolved. -/
structure Admitted where
  scheme : Text
  hostname : Text
  port : Nat
  deriving DecidableEq, Repr

/-- The checks that `_fetch` and `_validate_redirect_target` share. -/
def validateTarget (lib : Library) (policy : TrustPolicy) (url : Text) : Except Exc Admitted :=
  match validateUrl lib policy url with
  | .error e => .error e
  | .ok parsed =>
    match portOf parsed parsed.scheme with
    | .error e => .error e
    | .ok port =>
      if policy.requireHttps ∧ parsed.scheme ≠ https then .error .ssrfBlock
      else if port ∉ policy.allowedPorts then .error .ssrfBlock
      else .ok ⟨parsed.scheme, parsed.hostname lib.tables, port⟩

/-! ## Resolution -/

inductive DnsOutcome
  -- the deadline passes before it, or in it
  | late
  -- the resolver's queue does not take it
  | refused
  | raised (e : Exc)
  | answered (addresses : List Text)
  deriving DecidableEq, Repr

/-- `_resolve_hostname`. -/
def resolveHostname (lib : Library) : DnsOutcome → Except Exc (List Ip)
  | .late => .error .fetchError
  | .refused => .error .fetchError
  | .raised e =>
    if e = .timeout then .error .fetchError
    else if e = .gaierror then .error .ssrfBlock
    else .error e
  | .answered addresses => .ok (addresses.filterMap lib.ipAddress).eraseDups

/-- `_resolve_and_validate`, for the addresses of the answer. -/
def firstValid (lib : Library) (ips : List Ip) : Except Exc Ip :=
  match ips with
  | [] => .error .ssrfBlock
  | ip :: rest =>
    if (ip :: rest).all fun ip => (isBlockedIp lib ip).isNone then .ok ip else .error .ssrfBlock

/-! ## Requests -/

/-- `urllib.request.Request`, with its `Host` header. -/
structure Request where
  fullUrl : Text
  type : Text
  -- percent-decoded
  host : Text
  hostHeader : Text
  deriving DecidableEq, Repr

/-- `unwrap`. -/
def unwrap (url : Text) : Text :=
  let stripped := strip url
  let inner := if stripped.head? = some '<' ∧ stripped.getLast? = some '>' then
      strip (stripped.drop 1).dropLast
    else stripped
  if inner.take 4 = ['U', 'R', 'L', ':'] then strip (inner.drop 4) else inner

/-- `_splittag`: what stands before the last `#`, and the whole text where nothing follows it. -/
def splitTag (url : Text) : Text × Text :=
  if url.contains '#' then (beforeLast '#' url, url) else (url, url)

def typeChar (c : Char) : Bool := c ≠ '/' && c ≠ ':'

/-- `_splittype`: the type, in lower case, and the rest. -/
def splitType (url : Text) : Option (Text × Text) :=
  let type := url.takeWhile typeChar
  let rest := url.dropWhile typeChar
  if type ≠ [] ∧ rest.head? = some ':' then some (type.map Char.toLower, rest.drop 1) else none

/-- `_splithost`; no host is the empty text. -/
def splitHost (rest : Text) : Text :=
  if rest.take 2 = ['/', '/'] then (rest.drop 2).takeWhile Url.netlocChar else []

/-- A URL without a type is a `ValueError`. -/
def newRequest (url hostHeader : Text) : Except Exc Request :=
  let (bare, whole) := splitTag (unwrap url)
  match splitType bare with
  | none => .error .valueError
  | some (type, rest) =>
    let fullUrl := if behindLast '#' whole = [] then bare else whole
    .ok ⟨fullUrl, type, Url.unquote (splitHost rest), hostHeader⟩

/-- The `Host` header of `_make_request`. -/
def hostHeader (scheme hostname : Text) (port : Nat) : Text :=
  let name := if hostname.contains ':' then '[' :: hostname ++ [']'] else hostname
  if port = defaultPort scheme then name else name ++ ':' :: (toString port).toList

/-- The host and the port that `http.client` reads; a bad one is an `InvalidURL`. -/
def clientHostPort (lib : Library) (default : Nat) (host : Text) : Except Exc (Text × Int) :=
  if host.contains ':' && !(behindLast ':' host).contains ']' then
    match lib.int (behindLast ':' host) with
    | some port => .ok (beforeLast ':' host, port)
    | none =>
      if behindLast ':' host = [] then .ok (beforeLast ':' host, default)
      else .error .httpException
  else .ok (host, default)

def clientPort (lib : Library) (default : Nat) (host : Text) : Except Exc Int :=
  match clientHostPort lib default host with
  | .error e => .error e
  | .ok (host, port) =>
    if host.any fun c => c.toNat ≤ 0x20 || c.toNat = 0x7f then .error .httpException else .ok port

/-! ## Connections -/

/-- The addresses that were verified, by hostname and port; the latest first. -/
abbrev Store := List ((Text × Nat) × Ip)

def Store.get? (store : Store) (hostname : Text) (port : Nat) : Option Ip :=
  (store.find? fun entry => entry.1 = (hostname, port)).map Prod.snd

/-- What `create_connection` is called with, and for which request. -/
structure Connection where
  ip : Ip
  port : Int
  -- of the URL of the request, and its type
  scheme : Text
  urlHost : Text
  urlPort : Nat
  hostHeader : Text
  deriving DecidableEq, Repr

/-- `http_open` and `https_open`, up to the connection. -/
def connect (lib : Library) (store : Store) (req : Request) : Except Exc Connection :=
  if req.host = [] then .error .urlError
  else if req.type ≠ http ∧ req.type ≠ https then .error .urlError
  else
    match Url.urlsplit lib.tables req.fullUrl with
    | none => .error .valueError
    | some parsed =>
      match portOf parsed req.type with
      | .error e => .error e
      | .ok port =>
        if parsed.hostname lib.tables = [] then .error .other
        else
          match store.get? (parsed.hostname lib.tables) port with
          | none => .error .ssrfBlock
          | some ip =>
            match clientPort lib (defaultPort req.type) req.host with
            | .error e => .error e
            | .ok clientPort =>
              .ok ⟨ip, clientPort, req.type, parsed.hostname lib.tables, port, req.hostHeader⟩

/-! ## Responses -/

/-- A read of the body: bytes, of which none is the end. -/
inductive Read
  | chunk (bytes : List Nat)
  | late
  | raised (e : Exc)
  deriving DecidableEq, Repr

structure Response where
  status : Nat
  headers : List (Text × Text)
  reads : List Read
  -- what reading the body of a redirect to its end raises
  drained : Option Exc
  -- the deadline has passed, before the body is read or after it
  lateOpened : Bool
  lateRead : Bool
  deriving DecidableEq, Repr

inductive Exchange
  | raised (e : Exc)
  | responded (response : Response)
  deriving DecidableEq, Repr

structure Hop where
  dns : DnsOutcome
  -- the deadline has passed where the request is made: before the resolution, or after it
  lateBefore : Bool
  lateAfter : Bool
  exchange : Exchange
  deriving DecidableEq, Repr

/-- A value under a name of a header, however it is written. -/
def header (lib : Library) (name : String) (headers : List (Text × Text)) : List Text :=
  (headers.filter fun field => lib.tables.lower field.1 = name.toList).map Prod.snd

/-- `_read_limited`; a list that ends is a body that does. -/
def readLimited (maxBytes : Int) : List Read → List Nat → Except Exc (List Nat)
  | [], bytes => .ok bytes
  | .late :: _, _ => .error .fetchLimit
  | .raised e :: _, _ => .error e
  | .chunk chunk :: rest, bytes =>
    if chunk = [] then .ok bytes
    else if maxBytes < (bytes ++ chunk).length then .error .fetchLimit
    else readLimited maxBytes rest (bytes ++ chunk)

structure FetchResult where
  -- the request whose response it is, or the first one
  url : Text
  statusCode : Nat
  body : Text
  rawBytes : List Nat
  etag : Option Text
  lastModified : Option Text
  cacheControl : Option Text
  maxAge : Option Int
  parsed : Option Json

def jsonMaxDepth : Nat := 20
def jsonMaxNodes : Nat := 10000

mutual

/-- `_walk`, with the count of the nodes before and after. -/
def walk (depth count : Nat) : Json → Option Nat
  | .array items =>
    if jsonMaxDepth < depth ∨ jsonMaxNodes < count + 1 then none
    else walkItems (depth + 1) (count + 1) items
  | .object fields =>
    if jsonMaxDepth < depth ∨ jsonMaxNodes < count + 1 then none
    else walkFields (depth + 1) (count + 1) fields
  | _ => if jsonMaxDepth < depth ∨ jsonMaxNodes < count + 1 then none else some (count + 1)

def walkItems (depth count : Nat) : List Json → Option Nat
  | [] => some count
  | v :: rest =>
    match walk depth count v with
    | none => none
    | some count => walkItems depth count rest

def walkFields (depth count : Nat) : List (String × Json) → Option Nat
  | [] => some count
  | (_, v) :: rest =>
    match walk depth count v with
    | none => none
    | some count => walkFields depth count rest

end

/-- The body as JSON; `null` is not checked. -/
def parseBody (lib : Library) (body : Text) : Except Exc (Option Json) :=
  match lib.loads body with
  | .error .jsonDecode => .error .fetchLimit
  | .error .recursion => .error .fetchLimit
  | .error .intDigits => .error .valueError
  | .ok .null => .ok none
  | .ok parsed => if (walk 0 0 parsed).isNone then .error .fetchLimit else .ok (some parsed)

/-- `_parse_max_age_from_header`: the first directive of that name. -/
def parseMaxAge (lib : Library) (cacheControl : Text) : Option Int :=
  let directives := (Url.splitOn ',' (lib.tables.lower cacheControl)).map strip
  match directives.find? fun d => d.take 8 = "max-age=".toList with
  | none => none
  | some directive => lib.int (behind '=' directive)

/-- `_process_response`, and the checks of the deadline around it.  A status that gets here is one
of 200 to 299. -/
def processResponse (lib : Library) (policy : TrustPolicy) (url : Text) (r : Response) :
    Except Exc FetchResult :=
  if r.lateOpened then .error .fetchError
  else
    match readLimited policy.maxProfileBytes r.reads [] with
    | .error e => .error e
    | .ok raw =>
      let body := Url.decode .start (raw.map .byte)
      match (if raw = [] then .ok none else parseBody lib body) with
      | .error e => .error e
      | .ok parsed =>
        if r.lateRead then .error .fetchError
        else
          let nonempty (name : String) : Option Text :=
            (header lib name r.headers).getLast?.filter fun value => value ≠ []
          let cacheControl := nonempty "cache-control"
          .ok
            { url := url
              statusCode := r.status
              body := if raw = [] then [] else body
              rawBytes := raw
              etag := nonempty "etag"
              lastModified := nonempty "last-modified"
              cacheControl := cacheControl
              maxAge := (cacheControl.bind (parseMaxAge lib)).map fun age =>
                min age (policy.profileMaxAgeSeconds * 2)
              parsed := parsed }

/-- A response that urllib raises as an `HTTPError`: its body counts for nothing where it is too
long. -/
def processHttpError (policy : TrustPolicy) (url : Text) (r : Response) : Except Exc FetchResult :=
  match readLimited policy.maxProfileBytes r.reads [] with
  | .error e => if e = .fetchLimit then finish [] else .error e
  | .ok raw => finish raw
where
  finish (raw : List Nat) : Except Exc FetchResult :=
    if r.lateRead then .error .fetchError
    else .ok ⟨url, r.status, [], raw, none, none, none, none, none⟩

/-! ## Redirects -/

/-- The opener: the request, and what its redirect handler keeps. -/
structure Opener where
  request : Request
  store : Store
  redirects : Nat
  -- `redirect_dict`, each visit once
  visited : List Text

inductive Redirected
  -- an `HTTPError`
  | refused
  | raised (e : Exc)
  | followed (opener : Opener)

/-- What a run does on the network. -/
inductive NetEvent
  | resolved (hostname : Text) (port : Nat) (ips : List Ip)
  | connected (connection : Connection)
  deriving DecidableEq, Repr

def spacesEscaped (url : Text) : Text := url.flatMap fun c => if c = ' ' then ['%', '2', '0'] else [c]

/-- The end of `http_error_302`, behind the checks of the new URL: loops, and the old body. -/
def enterRedirect (o : Opener) (r : Response) (next : Hop) (newUrl : Text) (store : Store) :
    Redirected :=
  match newRequest (spacesEscaped newUrl) o.request.hostHeader with
  | .error e => .raised e
  | .ok request =>
    if next.lateAfter then .raised .fetchError
    else if 4 ≤ o.visited.count newUrl ∨ 10 ≤ o.visited.eraseDups.length then .refused
    else
      match r.drained with
      | some e => .raised e
      | none => .followed ⟨request, store, o.redirects + 1, newUrl :: o.visited⟩

/-- The resolution of the new name. -/
def resolveRedirect (lib : Library) (o : Opener) (r : Response) (next : Hop) (newUrl : Text)
    (target : Admitted) : List NetEvent × Redirected :=
  match resolveHostname lib next.dns with
  | .error e => ([], .raised e)
  | .ok ips =>
    let events := [.resolved target.hostname target.port ips]
    match firstValid lib ips with
    | .error e => (events, .raised e)
    | .ok ip =>
      (events, enterRedirect o r next newUrl (((target.hostname, target.port), ip) :: o.store))

/-- `redirect_request` of the catalog. -/
def redirectRequest (lib : Library) (policy : TrustPolicy) (o : Opener) (r : Response) (next : Hop)
    (newUrl : Text) : List NetEvent × Redirected :=
  if policy.redirectLimit < o.redirects + 1 then ([], .raised .ssrfBlock)
  else if next.lateBefore then ([], .raised .fetchError)
  else
    match validateTarget lib policy newUrl with
    | .error e => ([], .raised e)
    | .ok target => resolveRedirect lib o r next newUrl target

/-- The URL that a redirect leads to, or why it is not followed. -/
def redirectUrl (lib : Library) (req : Request) (r : Response) : Option (Except Exc Text) :=
  match (header lib "location" r.headers ++ header lib "uri" r.headers).head? with
  | none => none
  | some location =>
    match Url.urlsplit lib.tables location with
    | none => some (.error .valueError)
    | some parsed =>
      if parsed.scheme ∈ [http, https, "ftp".toList, []] then some (lib.join req.fullUrl location)
      else none

/-- `http_error_302`. -/
def redirect (lib : Library) (policy : TrustPolicy) (o : Opener) (r : Response) (next : Hop) :
    List NetEvent × Redirected :=
  match redirectUrl lib o.request r with
  | none => ([], .refused)
  | some (.error e) => ([], .raised e)
  | some (.ok newUrl) => redirectRequest lib policy o r next newUrl

def isRedirect (status : Nat) : Bool :=
  status = 301 || status = 302 || status = 303 || status = 307 || status = 308

def isSuccess (status : Nat) : Bool := 200 ≤ status && status < 300

/-- What the network answers where it answers nothing more. -/
def silence : Hop := ⟨.late, false, false, .raised .timeout⟩

/-! ## The fetch -/

/-- `opener.open`, and what becomes of its response; `url` is the one that is fetched. -/
def openRequest (lib : Library) (policy : TrustPolicy) (url : Text) :
    Opener → List Hop → List NetEvent × Except Exc FetchResult
  | _, [] => ([], .error .timeout)
  | o, hop :: rest =>
    match connect lib o.store o.request with
    | .error e => ([], .error e)
    | .ok connection =>
      match hop.exchange with
      | .raised e => ([.connected connection], .error e)
      | .responded r =>
        if isSuccess r.status then
          ([.connected connection], processResponse lib policy o.request.fullUrl r)
        else if isRedirect r.status then
          match redirect lib policy o r (rest.head?.getD silence) with
          | (events, .refused) =>
            (.connected connection :: events, processHttpError policy url r)
          | (events, .raised e) => (.connected connection :: events, .error e)
          | (events, .followed next) =>
            let (later, result) := openRequest lib policy url next rest
            (.connected connection :: (events ++ later), result)
        else ([.connected connection], processHttpError policy url r)

/-- `_make_request`. -/
def makeRequest (lib : Library) (policy : TrustPolicy) (url : Text) (target : Admitted) (ip : Ip)
    (hops : List Hop) : List NetEvent × Except Exc FetchResult :=
  match newRequest url (hostHeader target.scheme target.hostname target.port) with
  | .error e => ([], .error e)
  | .ok request =>
    if (hops.head?.getD silence).lateAfter then ([], .error .fetchError)
    else
      let (events, result) :=
        openRequest lib policy url ⟨request, [((target.hostname, target.port), ip)], 0, []⟩ hops
      (events, result.mapError Exc.converted)

/-- `ProfileFetcher.fetch`. -/
def fetch (lib : Library) (policy : TrustPolicy) (url : Text) (hops : List Hop) :
    List NetEvent × Except Exc FetchResult :=
  match validateTarget lib policy url with
  | .error e => ([], .error e)
  | .ok target =>
    match resolveHostname lib (hops.head?.getD silence).dns with
    | .error e => ([], .error e)
    | .ok ips =>
      let resolved := .resolved target.hostname target.port ips
      match firstValid lib ips with
      | .error e => ([resolved], .error e)
      | .ok ip =>
        let (events, result) := makeRequest lib policy url target ip hops
        (resolved :: events, result.mapError Exc.wrapped)

end KiwiCatalog.Discovery.Fetcher
