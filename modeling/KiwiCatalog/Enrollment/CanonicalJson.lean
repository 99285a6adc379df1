import KiwiCatalog.Lib.JsonOrder
import KiwiCatalog.Lib.JsonText
import KiwiCatalog.Lib.PyValue
import KiwiCatalog.Lib.Utf16

/-!
# Enrollment.CanonicalJson — the bytes that an enrollment digest is taken of

`canonical_bytes` writes a Python value as JSON with its keys in UTF-16 order, or raises.  The
values are Python's: strings may hold lone surrogates, dictionaries may have other keys than
strings, and there are values of other types.
-/

set_option autoImplicit false

namespace KiwiCatalog.Enrollment.Canonical

open Py (CodePoint Float64 Key scalars)

abbrev Text := List Char

/-- A Python value with its dictionaries as they can be. -/
structure Document where
  value : Py.Value
  distinct : value.DistinctKeys

/-! ## 1. `_string` and `_number` -/

def MAX_SAFE_INTEGER : Nat := 2 ^ 53 - 1

def MAX_DEPTH : Nat := 32

def MAX_BYTES : Nat := 1024 * 1024

/-- The checks that raise a `ValidationError`. -/
inductive CanonicalError
  | surrogate
  | unsafeInteger
  | notFinite
  | unsafeNumber
  | depth
  | keyNotString
  | notJson
  | size
  deriving DecidableEq

def CanonicalError.message : CanonicalError → String
  | .surrogate => "enrollment JSON contains an invalid Unicode surrogate"
  | .unsafeInteger => "enrollment JSON integer exceeds JavaScript safe range"
  | .notFinite => "enrollment JSON numbers must be finite"
  | .unsafeNumber => "enrollment JSON number exceeds JavaScript safe range"
  | .depth => "enrollment JSON exceeds maximum nesting depth"
  | .keyNotString => "enrollment JSON object keys must be strings"
  | .notJson => "enrollment value is not JSON-compatible"
  | .size => "enrollment JSON exceeds maximum size"

/-- `_string`. -/
def string (value : List CodePoint) : Except CanonicalError Text :=
  match scalars value with
  | none => .error .surrogate
  | some text => .ok (Json.quote text)

/-- `abs(value) > MAX_SAFE_INTEGER`. -/
def exceedsSafe (coefficient : Nat) (exponent : Int) : Bool :=
  if 0 ≤ exponent then coefficient * 10 ^ exponent.toNat > MAX_SAFE_INTEGER
  else coefficient > MAX_SAFE_INTEGER * 10 ^ (-exponent).toNat

/-- `abs(value) >= 1e-6`. -/
def atLeastMillionth (coefficient : Nat) (exponent : Int) : Bool :=
  if -6 ≤ exponent then coefficient ≥ 1 else coefficient ≥ 10 ^ (-6 - exponent).toNat

/-- `text.rstrip(c)`. -/
def rstrip (c : Char) (text : Text) : Text := (text.reverse.dropWhile (· = c)).reverse

/-- `format(Decimal(repr(value)), "f")` of a positive number; `repr` gives an integer a `.0`. -/
def fixed (coefficient : Nat) (exponent : Int) : Text :=
  if 0 ≤ exponent then Nat.toDigits 10 (coefficient * 10 ^ exponent.toNat) ++ ['.', '0']
  else
    let places := (-exponent).toNat
    let fraction := Nat.toDigits 10 (coefficient % 10 ^ places)
    Nat.toDigits 10 (coefficient / 10 ^ places) ++
      '.' :: (List.replicate (places - fraction.length) '0' ++ fraction)

/-- The coefficient of `repr(value)` with an exponent: a point after its first digit. -/
def pointed : Text → Text
  | [] => []
  | [d] => [d]
  | d :: rest => d :: '.' :: rest

/-- A positive number by its shortest decimal. -/
def positive (coefficient : Nat) (exponent : Int) : Text :=
  if atLeastMillionth coefficient exponent then rstrip '.' (rstrip '0' (fixed coefficient exponent))
  else
    let digits := Nat.toDigits 10 coefficient
    pointed digits ++ 'e' :: Json.intText (exponent + (digits.length - 1 : Nat))

def floatText (negative : Bool) (coefficient : Nat) (exponent : Int) : Text :=
  (if negative then ['-'] else []) ++
    if coefficient = 0 then ['0'] else positive coefficient exponent

/-- `_number` of an integer. -/
def integer (value : Int) : Except CanonicalError Text :=
  if value.natAbs > MAX_SAFE_INTEGER then .error .unsafeInteger else .ok (Json.intText value)

/-- `_number` of a float. -/
def number : Float64 → Except CanonicalError Text
  | .nan => .error .notFinite
  | .infinite _ => .error .notFinite
  | .finite negative coefficient exponent =>
    if exceedsSafe coefficient exponent then .error .unsafeNumber
    else .ok (floatText negative coefficient exponent)

/-! ## 2. `_canonical` -/

/-- The parts of a `join`, up to the first that raises. -/
def collect : List (Except CanonicalError Text) → Except CanonicalError (List Text)
  | [] => .ok []
  | .error e :: _ => .error e
  | .ok part :: rest => (collect rest).map (part :: ·)

variable {β : Type}

/-- The members under their keys, which the sort encodes; `none` where one does not encode. -/
def encodedKeys : List (Key × β) → Option (List (String × β))
  | [] => some []
  | (.text key, b) :: rest =>
    match scalars key, encodedKeys rest with
    | some text, some entries => some ((String.ofList text, b) :: entries)
    | _, _ => none
  | (.other _, _) :: _ => none

/-- `sorted(value, key=lambda key: key.encode("utf-16-be"))`. -/
def sorted (entries : List (String × β)) : List (String × β) :=
  entries.mergeSort fun a b => Utf16.le a.1 b.1

/-- `_string(key) + ":" + _canonical(value[key])`. -/
def entryText (entry : String × Except CanonicalError Text) : Except CanonicalError Text :=
  entry.2.map (Json.fieldText entry.1)

/-- The first check of `_canonical`. -/
def withinDepth (depth : Nat) (written : Except CanonicalError Text) :
    Except CanonicalError Text :=
  if depth > MAX_DEPTH then .error .depth else written

mutual

/-- `_canonical`. -/
def canonical : Py.Value → Nat → Except CanonicalError Text
  | .none, depth => withinDepth depth (.ok ['n', 'u', 'l', 'l'])
  | .bool true, depth => withinDepth depth (.ok ['t', 'r', 'u', 'e'])
  | .bool false, depth => withinDepth depth (.ok ['f', 'a', 'l', 's', 'e'])
  | .int i, depth => withinDepth depth (integer i)
  | .float x, depth => withinDepth depth (number x)
  | .str s, depth => withinDepth depth (string s)
  | .list items, depth =>
    withinDepth depth <|
      (collect (canonicalItems items (depth + 1))).map fun parts =>
        '[' :: (Json.join parts ++ [']'])
  | .dict members, depth =>
    withinDepth depth <|
      if members.all (fun member => member.1.isText) then
        -- every key is encoded before the first value is looked at
        match encodedKeys (canonicalMembers members (depth + 1)) with
        | none => .error .surrogate
        | some entries =>
          (collect ((sorted entries).map entryText)).map fun parts =>
            '\x7b' :: (Json.join parts ++ ['\x7d'])
      else .error .keyNotString
  | .other, depth => withinDepth depth (.error .notJson)

/-- The values of a list, each written or raising when its turn comes. -/
def canonicalItems : List Py.Value → Nat → List (Except CanonicalError Text)
  | [], _ => []
  | v :: rest, depth => canonical v depth :: canonicalItems rest depth

def canonicalMembers : List (Key × Py.Value) → Nat → List (Key × Except CanonicalError Text)
  | [], _ => []
  | (key, v) :: rest, depth => (key, canonical v depth) :: canonicalMembers rest depth

end

/-- `text.encode("utf-8")`. -/
def encode (text : Text) : ByteArray := (String.ofList text).toUTF8

def canonicalBytes (value : Py.Value) : Except CanonicalError ByteArray :=
  match canonical value 0 with
  | .error e => .error e
  | .ok text => if (encode text).size > MAX_BYTES then .error .size else .ok (encode text)

/-- `json.loads` of the bytes. -/
def loads (bytes : ByteArray) : Option Json :=
  match String.fromUTF8? bytes with
  | none => none
  | some text => Json.parse text.toList

end KiwiCatalog.Enrollment.Canonical
