import KiwiCatalog.Lib.Base64

/-!
# Base64Std — the standard alphabet

The same digits but for the last two.  Decoding with validation refuses other characters, and what
it gives is shorter than what it is given.
-/

set_option autoImplicit false

namespace Base64

def standardChar (c : Char) : Char := if c = '-' then '+' else if c = '_' then '/' else c

/-- `base64.b64encode`. -/
def encodeStd (bytes : List UInt8) : List Char := (encode bytes).map standardChar

def isStandard (c : Char) : Bool := c = '=' || ((value c).isSome && c ≠ '-' && c ≠ '_')

/-- `base64.b64decode(text, validate=True)`. -/
def decodeStd (text : List Char) : Option (List UInt8) :=
  if text.all isStandard then decode text else none

theorem value_standardChar (c : Char) : value (standardChar c) = value c := by
  unfold standardChar
  split
  · rename_i hc
    rw [hc]
    rfl
  · split
    · rename_i hc
      rw [hc]
      rfl
    · rfl

theorem standardChar_eq_pad {c : Char} : standardChar c = '=' ↔ c = '=' := by
  unfold standardChar
  split
  · rename_i hc
    rw [hc]
    decide
  · split
    · rename_i hc
      rw [hc]
      decide
    · exact Iff.rfl

/-- Decoding reads both alphabets. -/
theorem decodeFrom_map_standardChar (text : List Char) : ∀ place left pads,
    decodeFrom place left pads (text.map standardChar) = decodeFrom place left pads text := by
  induction text with
  | nil => intro place left pads; rfl
  | cons c rest ih =>
    intro place left pads
    rw [List.map_cons, decodeFrom, decodeFrom, value_standardChar]
    simp only [standardChar_eq_pad, ih]

theorem isStandard_digit {n : Nat} (h : n < 64) : isStandard (standardChar (digit n)) = true := by
  have hall : (List.range 64).all (fun n => isStandard (standardChar (digit n))) = true := by decide
  exact List.all_eq_true.mp hall n (List.mem_range.mpr h)

theorem all_isStandard_encodeStd (bytes : List UInt8) :
    (encodeStd bytes).all isStandard = true := by
  have hpad : isStandard (standardChar '=') = true := by decide
  unfold encodeStd
  induction bytes using encode.induct with
  | case1 => rfl
  | case2 a =>
    have ha := a.toNat_lt
    simp only [encode, List.map_cons, List.map_nil, List.all_cons, List.all_nil, Bool.and_true,
      hpad, isStandard_digit (show a.toNat / 4 < 64 by omega),
      isStandard_digit (show a.toNat % 4 * 16 < 64 by omega)]
  | case3 a b =>
    have ha := a.toNat_lt
    have hb := b.toNat_lt
    simp only [encode, List.map_cons, List.map_nil, List.all_cons, List.all_nil, Bool.and_true,
      hpad, isStandard_digit (show a.toNat / 4 < 64 by omega),
      isStandard_digit (show a.toNat % 4 * 16 + b.toNat / 16 < 64 by omega),
      isStandard_digit (show b.toNat % 16 * 4 < 64 by omega)]
  | case4 a b c rest ih =>
    have ha := a.toNat_lt
    have hb := b.toNat_lt
    have hc := c.toNat_lt
    simp only [encode, List.map_cons, List.all_cons, ih, Bool.and_true,
      isStandard_digit (show a.toNat / 4 < 64 by omega),
      isStandard_digit (show a.toNat % 4 * 16 + b.toNat / 16 < 64 by omega),
      isStandard_digit (show b.toNat % 16 * 4 + c.toNat / 64 < 64 by omega),
      isStandard_digit (show c.toNat % 64 < 64 by omega)]

theorem decodeStd_encodeStd (bytes : List UInt8) : decodeStd (encodeStd bytes) = some bytes := by
  rw [decodeStd, all_isStandard_encodeStd, if_pos rfl, encodeStd, decode,
    decodeFrom_map_standardChar]
  exact decode_encode bytes

/-- The characters that are still owed to a group of four. -/
def owed (place : Nat) : Nat := if place = 0 then 0 else 4 - place

/-- Four characters give three bytes at most. -/
theorem length_decodeFrom (text : List Char) : ∀ place left pads bytes, place < 4 →
    decodeFrom place left pads text = some bytes →
      4 * bytes.length ≤ 3 * text.length + owed place := by
  induction text with
  | nil =>
    intro place left pads bytes _ h
    rw [decodeFrom] at h
    split at h
    · cases h
      exact Nat.zero_le _
    · cases h
  | cons c rest ih =>
    intro place left pads bytes hplace h
    rw [decodeFrom] at h
    rw [List.length_cons]
    split at h
    · split at h
      · cases h
        exact Nat.zero_le _
      · have hrest := ih _ _ _ _ hplace h
        omega
    · split at h
      · have hrest := ih _ _ _ _ hplace h
        omega
      · split at h
        · rename_i hzero
          have hrest := ih 1 _ _ _ (by decide) h
          rw [hzero]
          have howed : owed 1 = 3 ∧ owed 0 = 0 := by decide
          omega
        · split at h
          · rename_i hone
            obtain ⟨more, hmore, rfl⟩ := Option.map_eq_some_iff.mp h
            have hrest := ih 2 _ _ _ (by decide) hmore
            have howed : owed 2 = 2 ∧ owed 1 = 3 := by decide
            rw [hone, List.length_cons]
            omega
          · split at h
            · rename_i htwo
              obtain ⟨more, hmore, rfl⟩ := Option.map_eq_some_iff.mp h
              have hrest := ih 3 _ _ _ (by decide) hmore
              have howed : owed 3 = 1 ∧ owed 2 = 2 := by decide
              rw [htwo, List.length_cons]
              omega
            · rename_i hnotZero hnotOne hnotTwo
              obtain ⟨more, hmore, rfl⟩ := Option.map_eq_some_iff.mp h
              have hrest := ih 0 _ _ _ (by decide) hmore
              have howed : owed 0 = 0 ∧ owed 3 = 1 := by decide
              have hthree : place = 3 := by omega
              rw [hthree, List.length_cons]
              omega

theorem length_decodeStd {text : List Char} {bytes : List UInt8}
    (h : decodeStd text = some bytes) : 4 * bytes.length ≤ 3 * text.length := by
  unfold decodeStd at h
  split at h
  · have hlength := length_decodeFrom text 0 0 0 bytes (by decide) h
    have howed : owed 0 = 0 := rfl
    omega
  · cases h

end Base64
