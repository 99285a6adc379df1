import KiwiCatalog.Lib.Json
import KiwiCatalog.Lib.Url

/-!
# JSON columns — `encode_json` and `decode_json`

A decoded column has the type of its default.  A list is decoded to a list of texts: whatever is not
a scalar is dropped from it.
-/

set_option autoImplicit false

namespace KiwiCatalog.Db

open Url (Text strip)

def encodeJson (codec : Json.Codec) (value : Json) : Text := codec.dumps value

/-- `str(item)` of a scalar; `none` is an item that a list column skips. -/
def scalarText : Json → Option Text
  | .null => none
  | .bool b => some (if b then "True" else "False").toList
  | .int i => some (toString i).toList
  | .float repr => some repr
  | .text s => some s
  | .array _ => none
  | .object _ => none

def normalizedItems (items : List Json) : List Text :=
  ((items.filterMap scalarText).map strip).filter fun text => !text.isEmpty

/-- A decoded value in the type of the default. -/
def conform : Json → Json → Json
  | .array _, .array items => .array ((normalizedItems items).map Json.text)
  | .array default, _ => .array default
  | .object _, .object fields => .object fields
  | .object default, _ => .object default
  | _, decoded => decoded

def decodeJson (codec : Json.Codec) (value : Text) (default : Json) : Json :=
  if value.isEmpty then default else (codec.loads value).elim default (conform default)

theorem decodeJson_encodeJson {codec : Json.Codec} {value : Json} (h : codec.RoundTrips value)
    (default : Json) :
    decodeJson codec (encodeJson codec value) default = conform default value.sortKeys := by
  have hne : (codec.dumps value).isEmpty = false := by
    cases htext : codec.dumps value with
    | nil => exact absurd htext h.2
    | cons c rest => rfl
  unfold decodeJson encodeJson
  rw [hne, h.1]
  rfl

/-- A list column gives texts, and no object. -/
theorem decodeJson_array (codec : Json.Codec) (value : Text) :
    ∃ texts : List Text, decodeJson codec value (.array []) = .array (texts.map Json.text) := by
  have hconform : ∀ decoded, ∃ texts : List Text,
      conform (.array []) decoded = .array (texts.map Json.text) := by
    intro decoded
    cases decoded with
    | array items => exact ⟨normalizedItems items, rfl⟩
    | null => exact ⟨[], rfl⟩
    | bool b => exact ⟨[], rfl⟩
    | int i => exact ⟨[], rfl⟩
    | float repr => exact ⟨[], rfl⟩
    | text s => exact ⟨[], rfl⟩
    | object fields => exact ⟨[], rfl⟩
  unfold decodeJson
  split
  · exact ⟨[], rfl⟩
  · cases codec.loads value with
    | none => exact ⟨[], rfl⟩
    | some decoded => exact hconform decoded

end KiwiCatalog.Db
