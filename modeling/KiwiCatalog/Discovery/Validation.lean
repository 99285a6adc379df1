import KiwiCatalog.Lib.Checks
import KiwiCatalog.Lib.JsonTree
import KiwiCatalog.Lib.Url

/-!
# Validation — the stages that the profile parsers share

Bounds, typed fields, authorities, and the scan for credentials.  Paths of the scan are keys and
indices with dots between them.
-/

set_option autoImplicit false

namespace KiwiCatalog.Discovery

open Checks (check)
open Url (Text strip)

/-- What the parsers take from Python's tables, and from `str` and `repr`. -/
structure Library where
  tables : Url.Tables
  -- `str(value)`, of a value that is no text
  str : Json → Text
  repr : Text → String
  -- `json.dumps(value, ensure_ascii=False, separators=(",", ":"))`
  dumps : Json → Text
  -- `\w`, beyond ASCII
  wordBeyondAscii : Char → Bool

def Library.strOf (lib : Library) : Json → Text
  | .text s => s
  | v => lib.str v

abbrev Fields := List (String × Json)

structure TrustPolicy where
  allowedA2aVersions : List Text
  allowedUcpVersions : List Text

/-- `', '.join(sorted(versions)) or 'none'`. -/
def versionsText (versions : List Text) : String :=
  if versions = [] then "none"
  else ", ".intercalate ((versions.map String.ofList).mergeSort fun a b => ¬ b < a)

/-- The arguments of a parser. -/
structure ParserOptions where
  rejectOnSecret : Bool
  maxDepth : Nat
  maxNodes : Nat

/-! ## 1. Bounds -/

mutual

/-- `_walk`, with the count of the nodes before and after. -/
def walk (maxDepth maxNodes depth count : Nat) : Json → Except String Nat
  | .array items =>
    if maxDepth < depth then .error ("profile exceeds max JSON depth of " ++ toString maxDepth)
    else if maxNodes < count + 1 then
      .error ("profile exceeds max JSON node count of " ++ toString maxNodes)
    else walkItems maxDepth maxNodes (depth + 1) (count + 1) items
  | .object fields =>
    if maxDepth < depth then .error ("profile exceeds max JSON depth of " ++ toString maxDepth)
    else if maxNodes < count + 1 then
      .error ("profile exceeds max JSON node count of " ++ toString maxNodes)
    else walkFields maxDepth maxNodes (depth + 1) (count + 1) fields
  | _ =>
    if maxDepth < depth then .error ("profile exceeds max JSON depth of " ++ toString maxDepth)
    else if maxNodes < count + 1 then
      .error ("profile exceeds max JSON node count of " ++ toString maxNodes)
    else .ok (count + 1)

def walkItems (maxDepth maxNodes depth count : Nat) : List Json → Except String Nat
  | [] => .ok count
  | v :: rest =>
    match walk maxDepth maxNodes depth count v with
    | .error e => .error e
    | .ok count => walkItems maxDepth maxNodes depth count rest

def walkFields (maxDepth maxNodes depth count : Nat) : Fields → Except String Nat
  | [] => .ok count
  | (_, v) :: rest =>
    match walk maxDepth maxNodes depth count v with
    | .error e => .error e
    | .ok count => walkFields maxDepth maxNodes depth count rest

end

def validateJsonBounds (maxDepth maxNodes : Nat) (value : Json) : Except String Unit :=
  (walk maxDepth maxNodes 0 0 value).map fun _ => ()

/-! ## 2. Typed fields -/

def typeName : Json → String
  | .null => "NoneType"
  | .bool _ => "bool"
  | .int _ => "int"
  | .float _ => "float"
  | .text _ => "str"
  | .array _ => "list"
  | .object _ => "dict"

def requireMapping (value : Json) (label : String) : Except String Fields :=
  match value with
  | .object fields => .ok fields
  | _ => .error (label ++ ": expected a JSON object, got " ++ typeName value)

def requireStr (fields : Fields) (key label : String) : Except String Text :=
  match Json.field key fields with
  | none => .error (label ++ "." ++ key ++ ": missing required field")
  | some (.text s) => .ok s
  | some v => .error (label ++ "." ++ key ++ ": expected a string, got " ++ typeName v)

def getOptionalStr (fields : Fields) (key label : String) : Except String (Option Text) :=
  match Json.get key fields with
  | .null => .ok none
  | .text s => .ok (some s)
  | v => .error (label ++ "." ++ key ++ ": expected a string, got " ++ typeName v)

def textItems : List Json → Option (List Text)
  | [] => some []
  | .text s :: rest => (textItems rest).map fun texts => s :: texts
  | _ :: _ => none

/-- The texts of a list of texts. -/
def listOfStr : Json → Option (List Text)
  | .array items => textItems items
  | _ => none

def requireListOfStr (fields : Fields) (key label : String) : Except String (List Text) :=
  match Json.field key fields with
  | none => .error (label ++ "." ++ key ++ ": missing required field")
  | some v =>
    match listOfStr v with
    | none => .error (label ++ "." ++ key ++ ": expected a list of strings")
    | some texts => .ok texts

def getOptionalListOfStr (fields : Fields) (key label : String) :
    Except String (Option (List Text)) :=
  match Json.get key fields with
  | .null => .ok none
  | v =>
    match listOfStr v with
    | none => .error (label ++ "." ++ key ++ ": expected a list of strings")
    | some texts => .ok (some texts)

/-- A list of objects, each with a check and its index in the label. -/
def validateItems (label : String) (validate : String → Fields → Except String Unit) :
    Nat → List Json → Except String Unit
  | _, [] => .ok ()
  | i, .object fields :: rest => do
    validate (label ++ "." ++ toString i) fields
    validateItems label validate (i + 1) rest
  | i, _ :: _ => .error (label ++ "." ++ toString i ++ ": expected a JSON object")

/-- The same for the objects among the items. -/
def validateObjects (label : String) (validate : String → Fields → Except String Unit) :
    Nat → List Json → Except String Unit
  | _, [] => .ok ()
  | i, .object fields :: rest => do
    validate (label ++ "." ++ toString i) fields
    validateObjects label validate (i + 1) rest
  | i, _ :: rest => validateObjects label validate (i + 1) rest

/-! ## 3. URLs and authorities -/

def isHttpUrl (lib : Library) (value : Json) : Bool :=
  match value with
  | .text [] => false
  | .text url =>
    match Url.urlsplit lib.tables url with
    | none => false
    | some parsed =>
      (parsed.scheme = "http".toList || parsed.scheme = "https".toList) &&
        parsed.hostname lib.tables ≠ []
  | _ => false

def canonicalDomainOf (lib : Library) (url : Text) : Except String Text :=
  match Url.urlsplit lib.tables url with
  | none => .error ("invalid source URL '" ++ String.ofList url ++ "'")
  | some parsed =>
    if parsed.hostname lib.tables = [] then
      .error ("source URL '" ++ String.ofList url ++ "' has no hostname")
    else .ok (lib.tables.lower (parsed.hostname lib.tables))

/-- `host.lower().rstrip(".")`. -/
def authorityOf (lib : Library) (host : Text) : Text :=
  ((lib.tables.lower host).reverse.dropWhile fun c => c = '.').reverse

def isSameAuthority (lib : Library) (host canonical : Text) : Bool :=
  let host := authorityOf lib host
  let canonical := authorityOf lib canonical
  host = canonical || ('.' :: canonical).isSuffixOf host

def assertSameDomain (lib : Library) (url canonical : Text) (label : String) : Except String Unit :=
  if isHttpUrl lib (.text url) then
    match canonicalDomainOf lib url with
    | .error e => .error e
    | .ok host =>
      check (isSameAuthority lib host canonical) (label ++ ": declared host '" ++
        String.ofList host ++ "' does not match fetch source domain '" ++
        String.ofList canonical ++ "'")
  else .error (label ++ ": expected an http(s) URL, got " ++ lib.repr url)

/-- The check of a URL that need not be one for the web. -/
def assertIfHttp (lib : Library) (value : Json) (canonical : Text) (label : String) :
    Except String Unit :=
  match value with
  | .text url => if isHttpUrl lib value then assertSameDomain lib url canonical label else .ok ()
  | _ => .ok ()

/-! ## 4. Names and values of credentials -/

def secretWords : List String :=
  ["token", "tokens", "api_key", "api-key", "apikey", "apikeys", "password", "passwords", "passwd",
    "pass", "secret", "secrets", "private_key", "private-key", "privatekey", "bearer", "bearers"]

/-- `re.IGNORECASE`, for a letter in lower case: three of them match letters beyond ASCII. -/
def sameIgnoringCase (letter c : Char) : Bool :=
  c = letter || c = letter.toUpper || (letter = 'i' && (c.toNat = 0x130 || c.toNat = 0x131)) ||
    (letter = 'k' && c.toNat = 0x212a) || (letter = 's' && c.toNat = 0x17f)

/-- What follows the word, where the text starts with it. -/
def afterWord : Text → Text → Option Text
  | [], text => some text
  | _ :: _, [] => none
  | letter :: word, c :: text => if sameIgnoringCase letter c then afterWord word text else none

def isSeparator (c : Char) : Bool := c = '.' || c = '_' || c = '-'

/-- `[._-]|$`; the end is also in front of a last line end. -/
def endsWord (text : Text) : Bool := text.head?.all isSeparator || text = ['\n']

/-- `_SECRET_FIELD_RE.search`, from a position where a word may start or not. -/
def secretFieldFrom : Bool → Text → Bool
  | _, [] => false
  | starts, c :: rest =>
    (starts && secretWords.any fun word => (afterWord word.toList (c :: rest)).any endsWord) ||
      secretFieldFrom (isSeparator c) rest

def isSecretField (name : String) : Bool := secretFieldFrom true name.toList

/-- The letters that a class of ASCII letters has besides them under `re.IGNORECASE`. -/
def caseLetter (c : Char) : Bool :=
  c.toNat = 0x130 || c.toNat = 0x131 || c.toNat = 0x17f || c.toNat = 0x212a

def bearerChar (c : Char) : Bool :=
  c.isAlphanum || caseLetter c || "._~+/=-".toList.contains c

def basicChar (c : Char) : Bool := c.isAlphanum || caseLetter c || c = '+' || c = '/'

/-- What follows the word and blanks, at the start of a text. -/
def afterScheme (word : String) (text : Text) : Option Text :=
  match afterWord word.toList text with
  | some rest => if rest.head?.any Url.isSpace then some (rest.dropWhile Url.isSpace) else none
  | none => none

def isBearer (text : Text) : Bool :=
  (afterScheme "bearer" text).any fun token =>
    ((afterWord "eyj".toList token).any fun rest => 2 ≤ (rest.takeWhile bearerChar).length) ||
      16 ≤ (token.takeWhile bearerChar).length

def isBasic (text : Text) : Bool :=
  (afterScheme "basic" text).any fun token => 8 ≤ (token.takeWhile basicChar).length

def keyLabelChar (c : Char) : Bool := c.isUpper || c.isDigit || c = ' '

/-- `[A-Z0-9 ]*PRIVATE KEY-----`. -/
def endsKeyLabel : Text → Bool
  | [] => false
  | c :: rest =>
    "PRIVATE KEY-----".toList.isPrefixOf (c :: rest) || (keyLabelChar c && endsKeyLabel rest)

def hasPrivateKey : Text → Bool
  | [] => false
  | c :: rest =>
    ("-----BEGIN ".toList.isPrefixOf (c :: rest) && endsKeyLabel ((c :: rest).drop 11)) ||
      hasPrivateKey rest

def jwtChar (c : Char) : Bool := c.isAlphanum || c = '_' || c = '-'

/-- `[A-Za-z0-9_-]{6,}` and what follows all of it. -/
def afterJwtPart (text : Text) : Option Text :=
  if 6 ≤ (text.takeWhile jwtChar).length then some (text.dropWhile jwtChar) else none

def afterDot : Text → Option Text
  | '.' :: rest => some rest
  | _ => none

def isJwt (text : Text) : Bool :=
  "eyJ".toList.isPrefixOf text &&
    (afterJwtPart (text.drop 3) >>= afterDot >>= afterJwtPart >>= afterDot >>=
      afterJwtPart).isSome

/-- `\w`. -/
def isWordChar (lib : Library) (c : Char) : Bool :=
  if c.toNat < 0x80 then c.isAlphanum || c = '_' else lib.wordBeyondAscii c

/-- `sk-[A-Za-z0-9]{20,}\b`, and the like. -/
def isKeyOf (lib : Library) (word : String) (text : Text) : Bool :=
  let key := text.drop word.toList.length
  word.toList.isPrefixOf text && 20 ≤ (key.takeWhile Char.isAlphanum).length &&
    !(key.dropWhile Char.isAlphanum).head?.any (isWordChar lib)

/-- `AKIA[0-9A-Z]{16}\b`. -/
def isAwsKey (lib : Library) (text : Text) : Bool :=
  let key := text.drop 4
  "AKIA".toList.isPrefixOf text && (key.take 16).length = 16 &&
    (key.take 16).all (fun c => c.isUpper || c.isDigit) &&
      !(key.drop 16).head?.any (isWordChar lib)

/-- The three patterns of keys, from a position behind a character. -/
def hasKeyFrom (lib : Library) : Option Char → Text → Bool
  | _, [] => false
  | before, c :: rest =>
    (!before.any (isWordChar lib) &&
      (isAwsKey lib (c :: rest) || isKeyOf lib "ghp_" (c :: rest) ||
        isKeyOf lib "sk-" (c :: rest))) ||
      hasKeyFrom lib (some c) rest

/-- `_is_secret_value`. -/
def isSecretValue (lib : Library) (value : Text) : Bool :=
  isBearer value || isBasic value || hasPrivateKey value || isJwt value || hasKeyFrom lib none value

/-! ## 5. The scan -/

def maxSecrets : Nat := 64

/-- `f"{path}.{key}" if path else str(key)`. -/
def childPath (path : Text) (key : String) : Text :=
  if path = [] then key.toList else path ++ '.' :: key.toList

def itemPath (path : Text) (i : Nat) : Text := path ++ '.' :: (toString i).toList

/-- A field that the scan reports: by its name, or a text by its value. -/
def isFlagged (lib : Library) (key : String) (item : Json) : Bool :=
  isSecretField key || item.ownText.any (isSecretValue lib)

def capError : String :=
  "profile contains more than " ++ toString maxSecrets ++
    " secret-like fields; refusing to scan past the cap"

mutual

/-- `_scan`, with the paths that were found before and after.  A text is looked at as the value of a
field only. -/
def scan (lib : Library) (path : Text) (paths : List Text) : Json → Except String (List Text)
  | .object fields => scanFields lib path paths fields
  | .array items => scanItems lib path 0 paths items
  | _ => .ok paths

def scanItems (lib : Library) (path : Text) (i : Nat) (paths : List Text) :
    List Json → Except String (List Text)
  | [] => .ok paths
  | item :: rest =>
    if maxSecrets ≤ paths.length then .error capError
    else
      match scan lib (itemPath path i) paths item with
      | .error e => .error e
      | .ok paths => scanItems lib path (i + 1) paths rest

def scanFields (lib : Library) (path : Text) (paths : List Text) :
    Fields → Except String (List Text)
  | [] => .ok paths
  | (key, item) :: rest =>
    if maxSecrets ≤ paths.length then .error capError
    else if isFlagged lib key item then
      scanFields lib path (paths ++ [childPath path key]) rest
    else
      match scan lib (childPath path key) paths item with
      | .error e => .error e
      | .ok paths => scanFields lib path paths rest

end

def scanSecrets (lib : Library) (value : Json) : Except String (List Text) := scan lib [] [] value

/-- `_skip`: the path is reported, or one below it. -/
def skips (paths : List Text) (path : Text) : Bool :=
  paths.contains path || paths.any fun p => (path ++ ['.']).isPrefixOf p

/-- `, '.join(secret_paths[:8])`. -/
def pathsText (paths : List Text) : String :=
  ", ".intercalate ((paths.take 8).map String.ofList)

/-! ## 6. Projections -/

/-- The fields of the keys whose value is of a kind and whose path is not skipped. -/
def pick (kind : Json → Bool) (skip : Text → Bool) (base : Text) (keys : List String)
    (fields : Fields) : Fields :=
  keys.filterMap fun key =>
    if kind (Json.get key fields) && !skip (childPath base key) then
      some (key, Json.get key fields)
    else none

def isPresent : Json → Bool
  | .null => false
  | _ => true

def isText : Json → Bool
  | .text _ => true
  | _ => false

def isBool : Json → Bool
  | .bool _ => true
  | _ => false

def isArray : Json → Bool
  | .array _ => true
  | _ => false

def isObject : Json → Bool
  | .object _ => true
  | _ => false

/-- A field for an object, or an array, that is not empty. -/
def objectField (key : String) (fields : Fields) : Fields :=
  if fields.isEmpty then [] else [(key, .object fields)]

def arrayField (key : String) (items : List Json) : Fields :=
  if items.isEmpty then [] else [(key, .array items)]

/-- The items that are objects, each by its index; those of which nothing is left are dropped. -/
def projectItems (project : Nat → Fields → Fields) : Nat → List Json → List Json
  | _, [] => []
  | i, .object fields :: rest =>
    if (project i fields).isEmpty then projectItems project (i + 1) rest
    else .object (project i fields) :: projectItems project (i + 1) rest
  | i, _ :: rest => projectItems project (i + 1) rest

/-- The items of an array; none of anything else. -/
def itemsOf : Json → List Json
  | .array items => items
  | _ => []

end KiwiCatalog.Discovery
