import KiwiCatalog.Lib.Url

/-!
# Quote — percent-encoding, and that decoding undoes it

`quote` leaves letters, digits and four marks, and writes every other character as the bytes of its
UTF-8 form.
-/

set_option autoImplicit false

namespace Url

/-! ## Encoding -/

def hexDigit (n : Nat) : Char := Char.ofNat (if n < 10 then 0x30 + n else 0x37 + n)

/-- The UTF-8 form of a character. -/
def utf8 (c : Char) : List Nat :=
  let n := c.toNat
  if n < 0x80 then [n]
  else if n < 0x800 then [0xc0 + n / 64, 0x80 + n % 64]
  else if n < 0x10000 then [0xe0 + n / 4096, 0x80 + n / 64 % 64, 0x80 + n % 64]
  else [0xf0 + n / 262144, 0x80 + n / 4096 % 64, 0x80 + n / 64 % 64, 0x80 + n % 64]

def unreserved (c : Char) : Bool :=
  c.isAlphanum || c = '_' || c = '.' || c = '-' || c = '~'

def quoteByte (b : Nat) : Text := ['%', hexDigit (b / 16), hexDigit (b % 16)]

def quoteChar (c : Char) : Text := if unreserved c then [c] else (utf8 c).flatMap quoteByte

/-- `urllib.parse.quote(text, safe="")`. -/
def quote (text : Text) : Text := text.flatMap quoteChar

/-! ## Bytes -/

theorem hexValue_hexDigit {n : Nat} (h : n < 16) : hexValue (hexDigit n) = some n := by
  have hall : (List.range 16).all (fun n => hexValue (hexDigit n) = some n) = true := by decide
  exact of_decide_eq_true (List.all_eq_true.mp hall n (List.mem_range.mpr h))

theorem pieces_quoteByte {b : Nat} (h : b < 256) (rest : Text) :
    pieces (quoteByte b ++ rest) = .byte b :: pieces rest := by
  have hhigh := hexValue_hexDigit (show b / 16 < 16 by omega)
  have hlow := hexValue_hexDigit (show b % 16 < 16 by omega)
  show pieces ('%' :: hexDigit (b / 16) :: hexDigit (b % 16) :: rest) = _
  rw [pieces, hhigh, hlow]
  show Piece.byte (b / 16 * 16 + b % 16) :: pieces rest = _
  rw [show b / 16 * 16 + b % 16 = b by omega]

theorem pieces_quoteBytes {bytes : List Nat} (h : ∀ b ∈ bytes, b < 256) (rest : Text) :
    pieces (bytes.flatMap quoteByte ++ rest) = bytes.map Piece.byte ++ pieces rest := by
  induction bytes with
  | nil => rfl
  | cons b bytes ih =>
    rw [List.flatMap_cons, List.append_assoc, pieces_quoteByte (h b List.mem_cons_self),
      ih fun b' hb' => h b' (List.mem_cons_of_mem b hb')]
    rfl

theorem pieces_of_ne_percent {c : Char} (h : c ≠ '%') (rest : Text) :
    pieces (c :: rest) = .of c :: pieces rest := by
  rw [pieces]
  intro a b tail heq
  exact fun _ => h heq

theorem toNat_bounds (c : Char) : c.toNat < 0x110000 ∧ ¬ (0xd800 ≤ c.toNat ∧ c.toNat < 0xe000) := by
  have hvalid : c.toNat < 0xd800 ∨ (0xdfff < c.toNat ∧ c.toNat < 0x110000) := c.valid
  omega

theorem utf8_lt (c : Char) : ∀ b ∈ utf8 c, b < 256 := by
  have hbounds := toNat_bounds c
  unfold utf8
  simp only
  split
  · simp only [List.mem_singleton, forall_eq]
    omega
  · split
    · simp only [List.mem_cons, List.not_mem_nil, or_false, forall_eq_or_imp, forall_eq]
      omega
    · split
      · simp only [List.mem_cons, List.not_mem_nil, or_false, forall_eq_or_imp, forall_eq]
        omega
      · simp only [List.mem_cons, List.not_mem_nil, or_false, forall_eq_or_imp, forall_eq]
        omega

/-! ## Decoding -/

/-- The first byte of a character. -/
theorem decode_first (b : Nat) (rest : List Piece) :
    decode .start (.byte b :: rest) = (Utf8.first b).2 ++ decode (Utf8.first b).1 rest := rfl

theorem decode_expected {state next : Utf8} {out : Text} {b : Nat}
    (h : state.expected b = some (next, out)) (rest : List Piece) :
    decode state (.byte b :: rest) = out ++ decode next rest := by
  rw [decode, h]

/-- A byte that the decoder expects and that does not end its character. -/
theorem decode_more {state : Utf8} {more bits b : Nat}
    (h : state.expected b = some (Utf8.continued (more + 1) bits b)) (rest : List Piece) :
    decode state (.byte b :: rest) = decode (.tail more (bits * 64 + (b - 0x80))) rest :=
  decode_expected h rest

/-- The last byte of a character. -/
theorem decode_last {bits b : Nat} (h : 0x80 ≤ b ∧ b ≤ 0xbf) (rest : List Piece) :
    decode (.tail 0 bits) (.byte b :: rest) =
      Char.ofNat (bits * 64 + (b - 0x80)) :: decode .start rest := by
  have hexpected : (Utf8.tail 0 bits).expected b = some (Utf8.continued 0 bits b) :=
    if_pos (by simpa using h)
  exact decode_expected hexpected rest

theorem decode_tail {more bits b : Nat} (h : 0x80 ≤ b ∧ b ≤ 0xbf) (rest : List Piece) :
    decode (.tail (more + 1) bits) (.byte b :: rest) =
      decode (.tail more (bits * 64 + (b - 0x80))) rest := by
  have hexpected : (Utf8.tail (more + 1) bits).expected b =
      some (Utf8.continued (more + 1) bits b) := if_pos (by simpa using h)
  exact decode_more hexpected rest

theorem decode_afterE0 {b : Nat} (h : 0xa0 ≤ b ∧ b ≤ 0xbf) (rest : List Piece) :
    decode .afterE0 (.byte b :: rest) = decode (.tail 0 (0 * 64 + (b - 0x80))) rest := by
  have hexpected : Utf8.afterE0.expected b = some (Utf8.continued 1 0 b) :=
    if_pos (by simpa using h)
  exact decode_more hexpected rest

theorem decode_afterED {b : Nat} (h : 0x80 ≤ b ∧ b ≤ 0x9f) (rest : List Piece) :
    decode .afterED (.byte b :: rest) = decode (.tail 0 (0xd * 64 + (b - 0x80))) rest := by
  have hexpected : Utf8.afterED.expected b = some (Utf8.continued 1 0xd b) :=
    if_pos (by simpa using h)
  exact decode_more hexpected rest

theorem decode_afterF0 {b : Nat} (h : 0x90 ≤ b ∧ b ≤ 0xbf) (rest : List Piece) :
    decode .afterF0 (.byte b :: rest) = decode (.tail 1 (0 * 64 + (b - 0x80))) rest := by
  have hexpected : Utf8.afterF0.expected b = some (Utf8.continued 2 0 b) :=
    if_pos (by simpa using h)
  exact decode_more hexpected rest

theorem decode_afterF4 {b : Nat} (h : 0x80 ≤ b ∧ b ≤ 0x8f) (rest : List Piece) :
    decode .afterF4 (.byte b :: rest) = decode (.tail 1 (4 * 64 + (b - 0x80))) rest := by
  have hexpected : Utf8.afterF4.expected b = some (Utf8.continued 2 4 b) :=
    if_pos (by simpa using h)
  exact decode_more hexpected rest

/-- Two bytes. -/
theorem decode_two {n : Nat} (hlow : 0x80 ≤ n) (hhigh : n < 0x800) (rest : List Piece) :
    decode .start (.byte (0xc0 + n / 64) :: .byte (0x80 + n % 64) :: rest) =
      Char.ofNat n :: decode .start rest := by
  have hfirst : Utf8.first (0xc0 + n / 64) = (.tail 0 (n / 64), []) := by
    unfold Utf8.first
    rw [if_neg (by omega), if_pos (by simp; omega)]
    rw [show 0xc0 + n / 64 - 0xc0 = n / 64 by omega]
  rw [decode_first, hfirst]
  show decode (.tail 0 (n / 64)) _ = _
  rw [decode_last (by omega), show n / 64 * 64 + (0x80 + n % 64 - 0x80) = n by omega]

/-- Three bytes; the second one is bounded behind `E0` and `ED`. -/
theorem decode_three {n : Nat} (hlow : 0x800 ≤ n) (hhigh : n < 0x10000)
    (hsurrogate : ¬ (0xd800 ≤ n ∧ n < 0xe000)) (rest : List Piece) :
    decode .start (.byte (0xe0 + n / 4096) :: .byte (0x80 + n / 64 % 64) ::
      .byte (0x80 + n % 64) :: rest) = Char.ofNat n :: decode .start rest := by
  have hsecond : decode (Utf8.first (0xe0 + n / 4096)).1
      (.byte (0x80 + n / 64 % 64) :: .byte (0x80 + n % 64) :: rest) =
        decode (.tail 0 (n / 64)) (.byte (0x80 + n % 64) :: rest) := by
    by_cases hzero : n / 4096 = 0
    · have hfirst : (Utf8.first (0xe0 + n / 4096)).1 = .afterE0 := by rw [hzero]; rfl
      rw [hfirst, decode_afterE0 (by omega),
        show 0 * 64 + (0x80 + n / 64 % 64 - 0x80) = n / 64 by omega]
    · by_cases hd : n / 4096 = 0xd
      · have hfirst : (Utf8.first (0xe0 + n / 4096)).1 = .afterED := by rw [hd]; rfl
        rw [hfirst, decode_afterED (by omega),
          show 0xd * 64 + (0x80 + n / 64 % 64 - 0x80) = n / 64 by omega]
      · have hfirst : (Utf8.first (0xe0 + n / 4096)).1 = .tail 1 (n / 4096) := by
          unfold Utf8.first
          rw [if_neg (by omega), if_neg (by simp; omega), if_neg (by omega), if_neg (by omega),
            if_pos (by simp; omega)]
          rw [show 0xe0 + n / 4096 - 0xe0 = n / 4096 by omega]
        rw [hfirst, decode_tail (by omega),
          show n / 4096 * 64 + (0x80 + n / 64 % 64 - 0x80) = n / 64 by omega]
  have hnone : (Utf8.first (0xe0 + n / 4096)).2 = [] := by
    unfold Utf8.first
    rw [if_neg (by omega), if_neg (by simp; omega)]
    split
    · rfl
    · split
      · rfl
      · rw [if_pos (by simp; omega)]
  rw [decode_first, hnone, List.nil_append, hsecond, decode_last (by omega),
    show n / 64 * 64 + (0x80 + n % 64 - 0x80) = n by omega]

/-- Four bytes; the second one is bounded behind `F0` and `F4`. -/
theorem decode_four {n : Nat} (hlow : 0x10000 ≤ n) (hhigh : n < 0x110000) (rest : List Piece) :
    decode .start (.byte (0xf0 + n / 262144) :: .byte (0x80 + n / 4096 % 64) ::
      .byte (0x80 + n / 64 % 64) :: .byte (0x80 + n % 64) :: rest) =
        Char.ofNat n :: decode .start rest := by
  have hsecond : decode (Utf8.first (0xf0 + n / 262144)).1 (.byte (0x80 + n / 4096 % 64) ::
      .byte (0x80 + n / 64 % 64) :: .byte (0x80 + n % 64) :: rest) =
        decode (.tail 1 (n / 4096)) (.byte (0x80 + n / 64 % 64) :: .byte (0x80 + n % 64) ::
          rest) := by
    by_cases hzero : n / 262144 = 0
    · have hfirst : (Utf8.first (0xf0 + n / 262144)).1 = .afterF0 := by rw [hzero]; rfl
      rw [hfirst, decode_afterF0 (by omega),
        show 0 * 64 + (0x80 + n / 4096 % 64 - 0x80) = n / 4096 by omega]
    · by_cases hfour : n / 262144 = 4
      · have hfirst : (Utf8.first (0xf0 + n / 262144)).1 = .afterF4 := by rw [hfour]; rfl
        rw [hfirst, decode_afterF4 (by omega),
          show 4 * 64 + (0x80 + n / 4096 % 64 - 0x80) = n / 4096 by omega]
      · have hfirst : (Utf8.first (0xf0 + n / 262144)).1 = .tail 2 (n / 262144) := by
          unfold Utf8.first
          rw [if_neg (by omega), if_neg (by simp; omega), if_neg (by omega), if_neg (by omega),
            if_neg (by simp; omega), if_neg (by omega), if_pos (by simp; omega)]
          rw [show 0xf0 + n / 262144 - 0xf0 = n / 262144 by omega]
        rw [hfirst, decode_tail (by omega),
          show n / 262144 * 64 + (0x80 + n / 4096 % 64 - 0x80) = n / 4096 by omega]
  have hnone : (Utf8.first (0xf0 + n / 262144)).2 = [] := by
    have hcases : n / 262144 = 0 ∨ n / 262144 = 1 ∨ n / 262144 = 2 ∨ n / 262144 = 3 ∨
        n / 262144 = 4 := by omega
    rcases hcases with h | h | h | h | h <;> rw [h] <;> rfl
  rw [decode_first, hnone, List.nil_append, hsecond, decode_tail (by omega),
    show n / 4096 * 64 + (0x80 + n / 64 % 64 - 0x80) = n / 64 by omega, decode_last (by omega),
    show n / 64 * 64 + (0x80 + n % 64 - 0x80) = n by omega]

/-- The bytes of a character are decoded to it. -/
theorem decode_utf8 (c : Char) (rest : List Piece) :
    decode .start ((utf8 c).map Piece.byte ++ rest) = c :: decode .start rest := by
  obtain ⟨hlast, hsurrogate⟩ := toNat_bounds c
  have hc : Char.ofNat c.toNat = c := Char.ofNat_toNat c
  unfold utf8
  simp only
  split
  · rename_i hascii
    show decode .start (.byte c.toNat :: rest) = _
    have hfirst : Utf8.first c.toNat = (.start, [Char.ofNat c.toNat]) := if_pos hascii
    rw [decode_first, hfirst, hc]
    rfl
  · split
    · exact (decode_two (by omega) (by omega) rest).trans (by rw [hc])
    · split
      · exact (decode_three (by omega) (by omega) hsurrogate rest).trans (by rw [hc])
      · exact (decode_four (by omega) hlast rest).trans (by rw [hc])

theorem unreserved_ascii {c : Char} (h : unreserved c = true) : c.toNat < 0x80 := by
  change (((decide (c.val ≥ 'A'.val ∧ c.val ≤ 'Z'.val) ||
    (decide (c.val ≥ 'a'.val) && decide (c.val ≤ 'z'.val))) ||
    (decide (c.val ≥ '0'.val) && decide (c.val ≤ '9'.val))) || decide (c = '_') ||
    decide (c = '.') || decide (c = '-') || decide (c = '~')) = true at h
  simp only [Bool.or_eq_true, Bool.and_eq_true, decide_eq_true_eq, ge_iff_le,
    UInt32.le_iff_toNat_le] at h
  have hletters : 'Z'.val.toNat < 0x80 ∧ 'z'.val.toNat < 0x80 ∧ '9'.val.toNat < 0x80 := by decide
  rcases h with (((((h | h) | h) | rfl) | rfl) | rfl) | rfl
  · exact h.2.trans_lt hletters.1
  · exact h.2.trans_lt hletters.2.1
  · exact h.2.trans_lt hletters.2.2
  all_goals decide

theorem decode_quoteChar (c : Char) (rest : Text) :
    decode .start (pieces (quoteChar c ++ rest)) = c :: decode .start (pieces rest) := by
  unfold quoteChar
  split
  · rename_i hplain
    have hne : c ≠ '%' := by
      rintro rfl
      exact absurd hplain (by decide)
    have hascii := unreserved_ascii hplain
    show decode .start (pieces (c :: rest)) = _
    rw [pieces_of_ne_percent hne, Piece.of, if_pos hascii, decode_first]
    show (Utf8.first c.toNat).2 ++ decode (Utf8.first c.toNat).1 _ = _
    have hfirst : Utf8.first c.toNat = (.start, [Char.ofNat c.toNat]) := if_pos hascii
    rw [hfirst, Char.ofNat_toNat]
    rfl
  · rw [pieces_quoteBytes (utf8_lt c), decode_utf8]

/-- Decoding undoes encoding, whatever the text. -/
theorem unquote_quote (text : Text) : unquote (quote text) = text := by
  unfold unquote quote
  induction text with
  | nil => rfl
  | cons c text ih => rw [List.flatMap_cons, decode_quoteChar, ih]

theorem quote_ne_nil {text : Text} (h : text ≠ []) : quote text ≠ [] := by
  intro hnil
  apply h
  rw [← unquote_quote text, hnil]
  rfl

/-! ## Fields -/

theorem splitOn_of_not_mem {c : Char} {field : Text} (h : c ∉ field) :
    splitOn c field = [field] := by
  induction field with
  | nil => rfl
  | cons d field ih =>
    rw [List.mem_cons, not_or] at h
    rw [splitOn, if_neg (Ne.symm h.1), ih h.2]

theorem splitOn_append {c : Char} {field : Text} (h : c ∉ field) (rest : Text) :
    splitOn c (field ++ c :: rest) = field :: splitOn c rest := by
  induction field with
  | nil => rw [List.nil_append, splitOn, if_pos rfl]
  | cons d field ih =>
    rw [List.mem_cons, not_or] at h
    rw [List.cons_append, splitOn, if_neg (Ne.symm h.1), ih h.2]

end Url
