import KiwiCatalog.Lib.Checks
import KiwiCatalog.Lib.PyValue

/-!
# Api.Limits — what Python gives, and the limits of a JSON payload

The functions of Python that the transport uses, with the exceptions they raise, and
`validate_payload` with its counter of nodes.
-/

set_option autoImplicit false

namespace KiwiCatalog.Api

open Py (Str Key Fields lit ofText scalars)

abbrev Text := List Char

abbrev Bytes := List UInt8

/-! ## 1. Python -/

inductive Raised
  | unicodeDecode
  | unicodeEncode
  | jsonDecode
  | value
  | type
  | overflow
  | recursion
  deriving DecidableEq, Repr

/-- `except ValueError`: its own class and the three below it. -/
def Raised.isValueError : Raised → Bool
  | .unicodeDecode => true
  | .unicodeEncode => true
  | .jsonDecode => true
  | .value => true
  | .type => false
  | .overflow => false
  | .recursion => false

structure Library where
  upper : Str → Str
  lower : Str → Str
  -- `int` of a string; `none` is a `ValueError`
  parseInt : Str → Option Int
  -- `json.loads`
  loads : Text → Except Raised Py.Value
  -- `json.dumps(value, ensure_ascii=False, separators=(",", ":"))`
  dumpsCompact : Py.Value → Except Raised Str
  -- `json.dumps(value, ensure_ascii=False, sort_keys=True)`
  dumps : Py.Value → Except Raised Str
  -- `str(value)`
  str : Py.Value → Except Raised Str
  -- `int(value)`
  int : Py.Value → Except Raised Int
  -- `hashlib.sha256(body).hexdigest()`
  sha256 : Bytes → Text

/-- What the environment variables of the process say. -/
structure Config where
  maxRequestBodyBytes : Nat
  trustedProxies : Str

/-- `text.encode("utf-8")`. -/
def encodeUtf8 (text : Str) : Except Raised Bytes :=
  match scalars text with
  | none => .error .unicodeEncode
  | some chars => .ok (String.ofList chars).toUTF8.data.toList

/-- `body.decode("utf-8")`; `none` is a `UnicodeDecodeError`. -/
def decodeUtf8 (body : Bytes) : Option Text :=
  (String.fromUTF8? body.toByteArray).map String.toList

theorem decodeUtf8_utf8Encode (text : Text) :
    decodeUtf8 text.utf8Encode.data.toList = some text := by
  have hbytes : text.utf8Encode.data.toList.toByteArray = text.utf8Encode := by
    apply ByteArray.ext
    simp
  have htext : String.fromUTF8 text.utf8Encode ByteArray.isValidUTF8_utf8Encode =
      String.ofList text := by
    apply String.toByteArray_inj.mp
    rw [String.toByteArray_ofList]
    rfl
  rw [decodeUtf8, hbytes, String.fromUTF8?, dif_pos ByteArray.isValidUTF8_utf8Encode, htext,
    Option.map_some, String.toList_ofList]

theorem length_le_size_utf8Encode (text : Text) : text.length ≤ text.utf8Encode.size := by
  induction text with
  | nil => exact Nat.zero_le _
  | cons c rest ih =>
    have hpos := Char.utf8Size_pos c
    rw [List.utf8Encode_cons, ByteArray.size_append, List.utf8Encode_singleton,
      List.size_toByteArray, String.length_utf8EncodeChar, List.length_cons]
    omega

/-- A text is not longer than its bytes. -/
theorem length_decodeUtf8 {body : Bytes} {text : Text} (h : decodeUtf8 body = some text) :
    text.length ≤ body.length := by
  unfold decodeUtf8 at h
  obtain ⟨s, hs, rfl⟩ := Option.map_eq_some_iff.mp h
  unfold String.fromUTF8? at hs
  split at hs
  · rename_i hvalid
    cases hs
    have hsize := length_le_size_utf8Encode (String.fromUTF8 body.toByteArray hvalid).toList
    rw [String.utf8Encode_toList] at hsize
    rw [← List.size_toByteArray (l := body)]
    exact hsize
  · cases hs

/-! ## 2. `validate_payload` -/

def MAX_JSON_DEPTH : Nat := 16
def MAX_JSON_ITEMS : Nat := 1000
def MAX_JSON_STRING_CHARS : Nat := 65536
def MAX_JSON_NODES : Nat := 10000

inductive LimitError
  | payloadTooLarge
  | validation (message : String)
  deriving DecidableEq, Repr

def JSON_DEPTH_ERROR : String := "JSON request body nesting must be <= 16"

def LimitError.message : LimitError → String
  | .payloadTooLarge => "request body is too large"
  | .validation message => message

/-- The fields that the transport sets itself. -/
def INQUIRY_TRANSPORT_KEYS : List String :=
  ["_auth_token", "_binding_jws", "_origin", "_referer", "_cookie", "_buyer_id", "_client_ip",
    "_raw_inquiry_body_b64", "_inquiry_headers", "idempotency_key"]

def isSkipped (skip : List String) (key : Key) : Bool := skip.any fun name => Py.keyOf name = key

/-- The bytes of the payload as JSON. -/
def encodedSize (lib : Library) (payload : Py.Value) : Except LimitError Nat :=
  match (do encodeUtf8 (← lib.dumpsCompact payload) : Except Raised Bytes) with
  | .ok bytes => .ok bytes.length
  | .error .recursion => .error (.validation JSON_DEPTH_ERROR)
  | .error _ => .error (.validation "JSON request body contains unsupported values")

mutual

/-- `walk`, from the number of nodes so far to the number behind the value. -/
def walk (skip : List String) : Py.Value → Nat → Nat → Except LimitError Nat
  | value, depth, nodes =>
    if nodes + 1 > MAX_JSON_NODES then
      .error (.validation "JSON request body must contain at most 10000 values")
    else if depth > MAX_JSON_DEPTH then .error (.validation JSON_DEPTH_ERROR)
    else
      match value with
      | .str s =>
        if s.length > MAX_JSON_STRING_CHARS then
          .error (.validation "JSON strings must be <= 65536 characters")
        else .ok (nodes + 1)
      | .dict members =>
        if members.length > MAX_JSON_ITEMS then
          .error (.validation "JSON objects must contain at most 1000 fields")
        else walkMembers skip members depth (nodes + 1)
      | .list items =>
        if items.length > MAX_JSON_ITEMS then
          .error (.validation "JSON arrays must contain at most 1000 items")
        else walkItems skip items depth (nodes + 1)
      | _ => .ok (nodes + 1)

def walkItems (skip : List String) : List Py.Value → Nat → Nat → Except LimitError Nat
  | [], _, nodes => .ok nodes
  | child :: rest, depth, nodes =>
    match walk skip child (depth + 1) nodes with
    | .error e => .error e
    | .ok nodes => walkItems skip rest depth nodes

def walkMembers (skip : List String) : List (Key × Py.Value) → Nat → Nat → Except LimitError Nat
  | [], _, nodes => .ok nodes
  | (key, child) :: rest, depth, nodes =>
    if !key.isText then .error (.validation "JSON object keys must be strings")
    else if depth = 0 && isSkipped skip key then walkMembers skip rest depth nodes
    else
      match walk skip child (depth + 1) nodes with
      | .error e => .error e
      | .ok nodes => walkMembers skip rest depth nodes

end

/-- The payload without the fields that are skipped. -/
def visiblePayload (skip : List String) : Py.Value → Py.Value
  | .dict members => .dict (members.filter fun member => !isSkipped skip member.1)
  | value => value

def validatePayload (lib : Library) (cfg : Config) (payload : Py.Value) (skip : List String) :
    Except LimitError Unit := do
  let size ← encodedSize lib (visiblePayload skip payload)
  Checks.check (size ≤ cfg.maxRequestBodyBytes) .payloadTooLarge
  let _ ← walk skip payload 0 0

end KiwiCatalog.Api
