import KiwiCatalog.Lib.Pattern
import KiwiCatalog.Lib.Url

/-!
# Public text — links, share codes and contact data in what merchants publish

Texts of merchants are scanned when they are written and sanitised when they are read.  Both sides
find links in a text, cut the punctuation off their ends, and decide whether a link may be public.
-/

set_option autoImplicit false

namespace KiwiCatalog.Publications

open Url (Text)

/-- What the deployment and Python's own tables decide. -/
structure TextEnv where
  tables : Url.Tables
  -- `\d` of a pattern
  isDecimal : Char → Bool
  -- an address that is not global
  internalAddress : Text → Bool
  -- `_directory_hosts`
  directoryHosts : List Text

/-- The tables on ASCII texts without an address but that of the host itself. -/
def asciiEnv : TextEnv where
  tables := ⟨fun _ => false, fun host => host = "::1".toList, fun text => text.map Char.toLower⟩
  isDecimal := Char.isDigit
  internalAddress := fun address => address = "::1".toList
  directoryHosts := []

/-! ## 1. Links in a text -/

def urlTrailingPunctuation : Text := ".,;:!?)]\x7d，。；：！？）》】\"'".toList

/-- `[^\s<>"']`. -/
def urlChar (c : Char) : Bool :=
  !Url.isSpace c && c ≠ '<' && c ≠ '>' && c ≠ '"' && c ≠ '\''

/-- `https?://` in any case, and one more character of the link. -/
def startsLink (text : Text) : Bool :=
  let tail := text.drop 4
  -- the long s is an `s` in any case
  let tail := if tail.head?.any fun c => c = 's' || c = 'S' || c = 'ſ' then tail.drop 1 else tail
  Url.startsWithLower "http".toList text && tail.take 3 = Url.slashes &&
    (tail.drop 3).head?.any urlChar

/-- `_TEXT_URL_RE`: its first characters are characters of links as well. -/
def textUrlRe : Pattern := fun _ c rest =>
  if startsLink (c :: rest) then some (rest.takeWhile urlChar).length else none

def isTrailing (c : Char) : Bool := urlTrailingPunctuation.contains c

/-- A link without the punctuation at its end, and that punctuation. -/
def withoutTrailing (raw : Text) : Text := (raw.reverse.dropWhile isTrailing).reverse
def trailing (raw : Text) : Text := (raw.reverse.takeWhile isTrailing).reverse

def textUrls (text : Text) : List Text :=
  ((textUrlRe.findall text).map withoutTrailing).filter fun url => !url.isEmpty

/-! ## 2. Share codes -/

def maxPercentDecodeRounds : Nat := 5
def maxPercentDecodeLength : Nat := 65536
def maxShareCodeTextLength : Nat := 262144

/-- The loop, with the rounds that are left; the flag says that the text may still be encoded. -/
def decodeRounds : Nat → Text → Text × Bool
  | 0, current => (current, Url.unquote current ≠ current)
  | rounds + 1, current =>
    if Url.unquote current = current then (current, false)
    else if maxPercentDecodeLength < (Url.unquote current).length then ([], true)
    else decodeRounds rounds (Url.unquote current)

def decodePercentBounded (value : Text) : Text × Bool :=
  if maxPercentDecodeLength < value.length then ([], true)
  else decodeRounds maxPercentDecodeRounds value

/-- The rest of a text behind a word, whatever the case of the text. -/
def dropWord : Text → Text → Option Text
  | [], text => some text
  | _ :: _, [] => none
  | c :: word, d :: text =>
    if d = c || d = c.toUpper || (c = 's' && d = 'ſ') then dropWord word text else none

/-- `share[-_]?code`, at the start of a text. -/
def startsShareCode (text : Text) : Bool :=
  (dropWord "share".toList text).any fun rest =>
    (rest.head?.any (fun c => c = '-' || c = '_') &&
      (dropWord "code".toList (rest.drop 1)).isSome) || (dropWord "code".toList rest).isSome

/-- `_SHARE_CODE_RE.search(text)`. -/
def hasShareCode (text : Text) : Bool := text.tails.any startsShareCode

def componentHasShareCode (component : Text) : Bool :=
  (decodePercentBounded component).2 || hasShareCode (decodePercentBounded component).1

def urlHasShareCode (env : TextEnv) (raw : Text) : Bool :=
  match Url.urlsplit env.tables raw with
  | none => true
  | some parsed => [parsed.path, parsed.query, parsed.fragment].any componentHasShareCode

def isWebUrl (raw : Text) : Bool :=
  Url.startsWithLower ("http".toList ++ Url.slashes) raw ||
    Url.startsWithLower ("https".toList ++ Url.slashes) raw

def isControl (c : Char) : Bool := c.toNat < 0x20 || c.toNat = 0x7f

def containsShareCodeUrl (env : TextEnv) (value : Text) : Bool :=
  let raw := Url.strip value
  if !isWebUrl raw then false
  else if maxShareCodeTextLength < raw.length then true
  else match Url.urlsplit env.tables raw with
    | none => true
    | some parsed => parsed.hasCredentials || raw.any isControl || urlHasShareCode env raw

def containsShareCodeLink (env : TextEnv) (text : Text) : Bool :=
  maxShareCodeTextLength < text.length || containsShareCodeUrl env text ||
    (textUrls text).any (containsShareCodeUrl env)

def linkRemoved : Text := "[链接已移除]".toList

def redactShareCodeText (env : TextEnv) (text : Text) : Text :=
  textUrlRe.sub (fun url => if containsShareCodeUrl env url then linkRemoved else url) text

/-! ## 3. Public links -/

inductive ShopUrlError
  | validation (message : String)
  -- raised by `urlparse`
  | value
  deriving DecidableEq, Repr

def maxShopUrl : Nat := 500

def isHttp (scheme : Text) : Bool := scheme = "http".toList || scheme = "https".toList

def stripBrackets (host : Text) : Text :=
  ((host.dropWhile fun c => c = '[' || c = ']').reverse.dropWhile fun c =>
    c = '[' || c = ']').reverse

def validateShopUrl (env : TextEnv) (raw : Text) : Except ShopUrlError Text :=
  let url := Url.strip raw
  if url.isEmpty then .ok []
  else if maxShopUrl < url.length then .error (.validation "shop_url too long")
  else match Url.urlsplit env.tables url with
    | none => .error .value
    | some parsed =>
      if !isHttp parsed.scheme then
        .error (.validation "shop_url must be an http or https URL")
      else if (parsed.hostname env.tables).isEmpty then
        .error (.validation "shop_url must include a host")
      else if env.internalAddress (stripBrackets (parsed.hostname env.tables)) then
        .error (.validation "shop_url must not point to a private or internal address")
      else .ok url

def workbuddyHosts : List String := ["workbuddy.host", "workbuddy.cn"]
def workbuddyHostSuffixes : List String := [".workbuddy.host", ".workbuddy.cn"]
def firstPartyHosts : List String := ["kiwi.harrylabsj.com"]
def firstPartyHostSuffixes : List String := [".kiwi.harrylabsj.com"]
def shareCodeParamNames : List String := ["sharecode", "share_code", "share-code"]

/-- A host of a list, or one that ends in a suffix of another. -/
def isHostOf (hosts suffixes : List String) (host : Text) : Bool :=
  hosts.any (fun h => h.toList = host) || suffixes.any fun suffix => suffix.toList.isSuffixOf host

def isWorkbuddyHost : Text → Bool := isHostOf workbuddyHosts workbuddyHostSuffixes

def isFirstPartyHost : Text → Bool := isHostOf firstPartyHosts firstPartyHostSuffixes

/-- `hostname.lower().rstrip(".")`. -/
def plainHost (env : TextEnv) (parsed : Url.Split) : Text :=
  ((env.tables.lower (parsed.hostname env.tables)).reverse.dropWhile (· = '.')).reverse

def isAgentPath (path : Text) : Bool :=
  "/a2a".toList.isPrefixOf path || "/.well-known/".toList.isPrefixOf path

/-- A name that stays encoded, or whose decoded form is one of those given. -/
def isNamed (env : TextEnv) (names : List String) (name : Text) : Bool :=
  (decodePercentBounded name).2 ||
    names.any fun n => n.toList = env.tables.lower (decodePercentBounded name).1

/-- The path as a public link must not have it. -/
def pathRefused (env : TextEnv) (path : Text) : Bool :=
  let decoded := decodePercentBounded (if path.isEmpty then ['/'] else path)
  decoded.2 || isAgentPath decoded.1 ||
    ((Url.splitOn '/' decoded.1).filter fun segment => !segment.isEmpty).any
      (isNamed env ("a2a" :: shareCodeParamNames))

/-- The query or the fragment as a public link must not have it. -/
def parametersRefused (env : TextEnv) (component : Text) : Bool :=
  (Url.queryNames component).any (isNamed env shareCodeParamNames) ||
    (decodePercentBounded component).2 ||
    hasShareCode (env.tables.lower (decodePercentBounded component).1)

structure UrlKey where
  scheme : Text
  host : Text
  port : Option Nat
  path : Text
  query : Text
  fragment : Text
  deriving DecidableEq

/-- `_url_key`. -/
def urlKey (env : TextEnv) (raw : Text) : Option UrlKey :=
  (Url.urlsplit env.tables raw).bind fun parsed =>
    if !isHttp (env.tables.lower parsed.scheme) || (parsed.hostname env.tables).isEmpty then none
    else parsed.port.map fun port =>
      ⟨env.tables.lower parsed.scheme, plainHost env parsed, port,
        if parsed.path.isEmpty then ['/'] else parsed.path, parsed.query, parsed.fragment⟩

/-- What `safe_public_shop_url` refuses in a URL that validates. -/
def isUnsafe (env : TextEnv) (blockedUrls : List Text) (url : Text) (parsed : Url.Split) : Bool :=
  let host := plainHost env parsed
  !isHttp parsed.scheme || (parsed.hostname env.tables).isEmpty || parsed.hasCredentials ||
    url.any isControl || isWorkbuddyHost host || isFirstPartyHost host ||
    env.directoryHosts.contains host || urlHasShareCode env url || pathRefused env parsed.path ||
    parametersRefused env parsed.query || parametersRefused env parsed.fragment ||
    (urlKey env url).isNone ||
    blockedUrls.any fun blocked => !blocked.isEmpty && urlKey env blocked = urlKey env url

/-- The empty text is no link. -/
def safePublicShopUrl (env : TextEnv) (raw : Text) (blockedUrls : List Text) : Text :=
  match validateShopUrl env raw with
  | .error _ => []
  | .ok url =>
    match Url.urlsplit env.tables url with
    | none => []
    | some parsed => if url.isEmpty || isUnsafe env blockedUrls url parsed then [] else url

def isSafeLink (env : TextEnv) (url : Text) : Bool := !(safePublicShopUrl env url []).isEmpty

/-! ## 4. Contact data -/

/-- `[^@\s]`. -/
def emailChar (c : Char) : Bool := c ≠ '@' && !Url.isSpace c

/-- `_EMAIL_RE`: a run, an `@`, and a run with a dot that is neither its first nor its last
character; both runs are as long as they can be. -/
def emailRe : Pattern := fun _ c rest =>
  let name := (c :: rest).takeWhile emailChar
  let domain := ((c :: rest).drop (name.length + 1)).takeWhile emailChar
  if !name.isEmpty && ((c :: rest).drop name.length).head? = some '@' &&
      ((domain.drop 1).dropLast).contains '.'
  then some (name.length + domain.length) else none

/-- `_CN_MOBILE_RE`. -/
def cnMobileRe (env : TextEnv) : Pattern := fun before c rest =>
  if !before.any env.isDecimal && c = '1' && rest.head?.any (fun d => '3' ≤ d && d ≤ '9') &&
      ((rest.drop 1).take 9).length = 9 && ((rest.drop 1).take 9).all env.isDecimal &&
      !(rest.drop 10).head?.any env.isDecimal
  then some 10 else none

/-- `[\d\s\-()]`. -/
def phoneChar (env : TextEnv) (c : Char) : Bool :=
  env.isDecimal c || Url.isSpace c || c = '-' || c = '(' || c = ')'

/-- `_INTL_PHONE_RE`: the longest run whose last character is a digit behind at least seven more. -/
def intlPhoneRe (env : TextEnv) : Pattern := fun _ c rest =>
  let run := rest.takeWhile (phoneChar env)
  let number := (run.reverse.dropWhile fun d => !env.isDecimal d).reverse
  if c = '+' && rest.head?.any env.isDecimal && 9 ≤ number.length then some number.length else none

def hidden : Text := "[已隐藏]".toList

def redactUnsafeTextLinks (env : TextEnv) (text : Text) : Text :=
  textUrlRe.sub (fun raw =>
    if (withoutTrailing raw).isEmpty || isSafeLink env (withoutTrailing raw) then raw
    else linkRemoved ++ trailing raw) text

def redactPublicText (env : TextEnv) (text : Text) : Text :=
  (intlPhoneRe env).sub (fun _ => hidden)
    ((cnMobileRe env).sub (fun _ => hidden)
      (emailRe.sub (fun _ => hidden) (redactUnsafeTextLinks env text)))

/-- The scans of a text: private contact data, and links that may not be public. -/
def isPrivateText (env : TextEnv) (text : Text) : Bool :=
  emailRe.search text || (cnMobileRe env).search text || (intlPhoneRe env).search text

def hasUnsafeLink (env : TextEnv) (text : Text) : Bool :=
  (textUrls text).any fun url => !isSafeLink env url

end KiwiCatalog.Publications
