import Mathlib.Data.List.Basic

/-!
# Base64 — the alphabet for URLs, and that decoding undoes encoding

Decoding is lenient: it passes over characters outside of the alphabet, reads both alphabets, and
stops at the padding that ends a group of four.
-/

set_option autoImplicit false

namespace Base64

/-! ## Digits -/

def digit (n : Nat) : Char :=
  if n < 26 then Char.ofNat (0x41 + n)
  else if n < 52 then Char.ofNat (0x61 + (n - 26))
  else if n < 62 then Char.ofNat (0x30 + (n - 52))
  else if n = 62 then '-' else '_'

def value (c : Char) : Option Nat :=
  if 'A' ≤ c ∧ c ≤ 'Z' then some (c.toNat - 0x41)
  else if 'a' ≤ c ∧ c ≤ 'z' then some (c.toNat - 0x61 + 26)
  else if '0' ≤ c ∧ c ≤ '9' then some (c.toNat - 0x30 + 52)
  else if c = '-' ∨ c = '+' then some 62
  else if c = '_' ∨ c = '/' then some 63
  else none

theorem digit_facts {n : Nat} (h : n < 64) :
    value (digit n) = some n ∧ digit n ≠ '=' ∧ (digit n).toNat < 0x80 := by
  have hall : (List.range 64).all
      (fun n => value (digit n) = some n ∧ digit n ≠ '=' ∧ (digit n).toNat < 0x80) = true := by
    decide
  exact of_decide_eq_true (List.all_eq_true.mp hall n (List.mem_range.mpr h))

/-! ## Groups of three bytes -/

/-- `base64.urlsafe_b64encode`. -/
def encode : List UInt8 → List Char
  | [] => []
  | [a] => [digit (a.toNat / 4), digit (a.toNat % 4 * 16), '=', '=']
  | [a, b] =>
    [digit (a.toNat / 4), digit (a.toNat % 4 * 16 + b.toNat / 16), digit (b.toNat % 16 * 4), '=']
  | a :: b :: c :: rest =>
    digit (a.toNat / 4) :: digit (a.toNat % 4 * 16 + b.toNat / 16) ::
      digit (b.toNat % 16 * 4 + c.toNat / 64) :: digit (c.toNat % 64) :: encode rest

/-- The loop of `base64.urlsafe_b64decode`, with the place in the group of four, the bits that are
left over, and the number of `=` behind the last digit. -/
def decodeFrom : Nat → Nat → Nat → List Char → Option (List UInt8)
  | place, _, _, [] => if place = 0 then some [] else none
  | place, left, pads, c :: rest =>
    if c = '=' then
      if 2 ≤ place ∧ 4 ≤ place + (pads + 1) then some []
      else decodeFrom place left (if 2 ≤ place then pads + 1 else pads) rest
    else match value c with
      | none => decodeFrom place left pads rest
      | some v =>
        if place = 0 then decodeFrom 1 v 0 rest
        else if place = 1 then
          (decodeFrom 2 (v % 16) 0 rest).map (UInt8.ofNat (left * 4 + v / 16) :: ·)
        else if place = 2 then
          (decodeFrom 3 (v % 4) 0 rest).map (UInt8.ofNat (left * 16 + v / 4) :: ·)
        else (decodeFrom 0 0 0 rest).map (UInt8.ofNat (left * 64 + v) :: ·)

def decode (text : List Char) : Option (List UInt8) := decodeFrom 0 0 0 text

/-! ## The round trip -/

theorem decodeFrom_digit {v : Nat} (h : v < 64) (place left pads : Nat) (rest : List Char) :
    decodeFrom place left pads (digit v :: rest) =
      if place = 0 then decodeFrom 1 v 0 rest
      else if place = 1 then
        (decodeFrom 2 (v % 16) 0 rest).map (UInt8.ofNat (left * 4 + v / 16) :: ·)
      else if place = 2 then
        (decodeFrom 3 (v % 4) 0 rest).map (UInt8.ofNat (left * 16 + v / 4) :: ·)
      else (decodeFrom 0 0 0 rest).map (UInt8.ofNat (left * 64 + v) :: ·) := by
  obtain ⟨hvalue, hne, -⟩ := digit_facts h
  rw [decodeFrom, if_neg hne, hvalue]

theorem decodeFrom_first {v : Nat} (h : v < 64) (left pads : Nat) (rest : List Char) :
    decodeFrom 0 left pads (digit v :: rest) = decodeFrom 1 v 0 rest :=
  decodeFrom_digit h 0 left pads rest

theorem decodeFrom_second {v : Nat} (h : v < 64) (left pads : Nat) (rest : List Char) :
    decodeFrom 1 left pads (digit v :: rest) =
      (decodeFrom 2 (v % 16) 0 rest).map (UInt8.ofNat (left * 4 + v / 16) :: ·) :=
  decodeFrom_digit h 1 left pads rest

theorem decodeFrom_third {v : Nat} (h : v < 64) (left pads : Nat) (rest : List Char) :
    decodeFrom 2 left pads (digit v :: rest) =
      (decodeFrom 3 (v % 4) 0 rest).map (UInt8.ofNat (left * 16 + v / 4) :: ·) :=
  decodeFrom_digit h 2 left pads rest

theorem decodeFrom_fourth {v : Nat} (h : v < 64) (left pads : Nat) (rest : List Char) :
    decodeFrom 3 left pads (digit v :: rest) =
      (decodeFrom 0 0 0 rest).map (UInt8.ofNat (left * 64 + v) :: ·) :=
  decodeFrom_digit h 3 left pads rest

/-- A byte from two parts of it. -/
theorem ofNat_of_eq (b : UInt8) {n : Nat} (h : n = b.toNat) : UInt8.ofNat n = b := by
  rw [h, UInt8.ofNat_toNat]

theorem decode_one (a : UInt8) : decode (encode [a]) = some [a] := by
  have ha := a.toNat_lt
  show decodeFrom 0 0 0 [digit (a.toNat / 4), digit (a.toNat % 4 * 16), '=', '='] = _
  rw [decodeFrom_first (by omega), decodeFrom_second (by omega)]
  -- the first `=` is not enough, the second ends the text
  show some [UInt8.ofNat (a.toNat / 4 * 4 + a.toNat % 4 * 16 / 16)] = _
  rw [ofNat_of_eq a (by omega)]

theorem decode_two (a b : UInt8) : decode (encode [a, b]) = some [a, b] := by
  have ha := a.toNat_lt
  have hb := b.toNat_lt
  show decodeFrom 0 0 0 [digit (a.toNat / 4), digit (a.toNat % 4 * 16 + b.toNat / 16),
    digit (b.toNat % 16 * 4), '='] = _
  rw [decodeFrom_first (by omega), decodeFrom_second (by omega), decodeFrom_third (by omega)]
  show some [UInt8.ofNat (a.toNat / 4 * 4 + (a.toNat % 4 * 16 + b.toNat / 16) / 16),
    UInt8.ofNat ((a.toNat % 4 * 16 + b.toNat / 16) % 16 * 16 + b.toNat % 16 * 4 / 4)] = _
  rw [ofNat_of_eq a (by omega), ofNat_of_eq b (by omega)]

theorem decode_group (a b c : UInt8) (rest : List UInt8) :
    decode (encode (a :: b :: c :: rest)) =
      (decode (encode rest)).map fun bytes => a :: b :: c :: bytes := by
  have ha := a.toNat_lt
  have hb := b.toNat_lt
  have hc := c.toNat_lt
  show decodeFrom 0 0 0 (digit (a.toNat / 4) :: digit (a.toNat % 4 * 16 + b.toNat / 16) ::
    digit (b.toNat % 16 * 4 + c.toNat / 64) :: digit (c.toNat % 64) :: encode rest) =
      (decodeFrom 0 0 0 (encode rest)).map fun bytes => a :: b :: c :: bytes
  rw [decodeFrom_first (by omega), decodeFrom_second (by omega), decodeFrom_third (by omega), decodeFrom_fourth (by omega),
    ofNat_of_eq a (by omega), ofNat_of_eq b (by omega),
    ofNat_of_eq c (by omega), Option.map_map, Option.map_map]
  rfl

theorem decode_encode (bytes : List UInt8) : decode (encode bytes) = some bytes := by
  induction bytes using encode.induct with
  | case1 => rfl
  | case2 a => exact decode_one a
  | case3 a b => exact decode_two a b
  | case4 a b c rest ih => rw [decode_group, ih, Option.map_some]

/-- What is encoded is ASCII. -/
theorem encode_ascii (bytes : List UInt8) : ∀ c ∈ encode bytes, c.toNat < 0x80 := by
  have hdigit : ∀ {n : Nat}, n < 64 → (digit n).toNat < 0x80 := fun h => (digit_facts h).2.2
  have hpad : '='.toNat < 0x80 := by decide
  induction bytes using encode.induct with
  | case1 =>
    intro c hc
    cases hc
  | case2 a =>
    have ha := a.toNat_lt
    simp only [encode, List.forall_mem_cons]
    exact ⟨hdigit (by omega), hdigit (by omega), hpad, hpad, fun c hc => absurd hc List.not_mem_nil⟩
  | case3 a b =>
    have ha := a.toNat_lt
    have hb := b.toNat_lt
    simp only [encode, List.forall_mem_cons]
    exact ⟨hdigit (by omega), hdigit (by omega), hdigit (by omega), hpad,
      fun c hc => absurd hc List.not_mem_nil⟩
  | case4 a b c rest ih =>
    have ha := a.toNat_lt
    have hb := b.toNat_lt
    have hc := c.toNat_lt
    simp only [encode, List.forall_mem_cons]
    exact ⟨hdigit (by omega), hdigit (by omega), hdigit (by omega), hdigit (by omega), ih⟩

end Base64
