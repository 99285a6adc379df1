import KiwiCatalog.Lib.Json
import Mathlib.Data.List.TakeWhile

/-!
# JsonText — writing a JSON value and reading it

The text of a value has no blanks and escapes only what it must.  The reader is that of RFC 8259,
blanks included; a number with a fraction or an exponent is kept as it is written.
-/

set_option autoImplicit false

namespace Json

abbrev Text := List Char

/-! ## 1. Writing -/

/-- `",".join(parts)`. -/
def join : List Text → Text
  | [] => []
  | [part] => part
  | part :: next :: rest => part ++ ',' :: join (next :: rest)

def hexDigit (n : Nat) : Char := Char.ofNat (if n < 10 then 0x30 + n else 0x57 + n)

/-- A character in a string; `"`, `\` and the controls are escaped. -/
def escapeChar (c : Char) : Text :=
  if c = '"' then ['\\', '"']
  else if c = '\\' then ['\\', '\\']
  else if c = '\n' then ['\\', 'n']
  else if c = '\r' then ['\\', 'r']
  else if c = '\t' then ['\\', 't']
  else if c = Char.ofNat 0x0c then ['\\', 'f']
  else if c = Char.ofNat 0x08 then ['\\', 'b']
  else if c.toNat < 0x20 then
    ['\\', 'u', '0', '0', hexDigit (c.toNat / 16), hexDigit (c.toNat % 16)]
  else [c]

/-- `json.dumps(text, ensure_ascii=False)`. -/
def quote (text : Text) : Text := '"' :: (text.flatMap escapeChar ++ ['"'])

/-- `str(i)`. -/
def intText (i : Int) : Text :=
  if i < 0 then '-' :: Nat.toDigits 10 i.natAbs else Nat.toDigits 10 i.natAbs

/-- A field with its key. -/
def fieldText (key : String) (value : Text) : Text := quote key.toList ++ ':' :: value

mutual

/-- `json.dumps(value, ensure_ascii=False, separators=(",", ":"))`. -/
def render : Json → Text
  | .null => ['n', 'u', 'l', 'l']
  | .bool true => ['t', 'r', 'u', 'e']
  | .bool false => ['f', 'a', 'l', 's', 'e']
  | .int i => intText i
  | .float repr => repr
  | .text s => quote s
  | .array items => '[' :: (join (renderItems items) ++ [']'])
  | .object fields => '\x7b' :: (join (renderFields fields) ++ ['\x7d'])

def renderItems : List Json → List Text
  | [] => []
  | v :: rest => render v :: renderItems rest

def renderFields : List (String × Json) → List Text
  | [] => []
  | (key, v) :: rest => fieldText key (render v) :: renderFields rest

end

/-- `"," + blank` between parts. -/
def joinWith (blank : Text) : List Text → Text
  | [] => []
  | [part] => part
  | part :: next :: rest => part ++ ',' :: (blank ++ joinWith blank (next :: rest))

def fieldTextWith (blank : Text) (key : String) (value : Text) : Text :=
  quote key.toList ++ ':' :: (blank ++ value)

mutual

/-- The text of a value with blanks after the commas and the colons. -/
def renderWith (blank : Text) : Json → Text
  | .null => ['n', 'u', 'l', 'l']
  | .bool true => ['t', 'r', 'u', 'e']
  | .bool false => ['f', 'a', 'l', 's', 'e']
  | .int i => intText i
  | .float repr => repr
  | .text s => quote s
  | .array items => '[' :: (joinWith blank (renderItemsWith blank items) ++ [']'])
  | .object fields => '\x7b' :: (joinWith blank (renderFieldsWith blank fields) ++ ['\x7d'])

def renderItemsWith (blank : Text) : List Json → List Text
  | [] => []
  | v :: rest => renderWith blank v :: renderItemsWith blank rest

def renderFieldsWith (blank : Text) : List (String × Json) → List Text
  | [] => []
  | (key, v) :: rest => fieldTextWith blank key (renderWith blank v) :: renderFieldsWith blank rest

end

/-- `json.dumps(value, ensure_ascii=False)`. -/
def dumps (v : Json) : Text := renderWith [' '] v

theorem joinWith_nil (parts : List Text) : joinWith [] parts = join parts := by
  match parts with
  | [] => rfl
  | [part] => rfl
  | part :: next :: rest =>
    show part ++ ',' :: joinWith [] (next :: rest) = part ++ ',' :: join (next :: rest)
    rw [joinWith_nil]

mutual

theorem renderWith_nil : ∀ v : Json, renderWith [] v = render v
  | .null => rfl
  | .bool true => rfl
  | .bool false => rfl
  | .int _ => rfl
  | .float _ => rfl
  | .text _ => rfl
  | .array items => by rw [renderWith, render, joinWith_nil, renderItemsWith_nil]
  | .object fields => by rw [renderWith, render, joinWith_nil, renderFieldsWith_nil]

theorem renderItemsWith_nil : ∀ items : List Json, renderItemsWith [] items = renderItems items
  | [] => rfl
  | v :: rest => by rw [renderItemsWith, renderItems, renderWith_nil, renderItemsWith_nil]

theorem renderFieldsWith_nil : ∀ fields : List (String × Json),
    renderFieldsWith [] fields = renderFields fields
  | [] => rfl
  | (key, v) :: rest => by
    rw [renderFieldsWith, renderFields, renderWith_nil, renderFieldsWith_nil]
    rfl

end

/-! ## 2. Reading -/

def isSpace (c : Char) : Bool := c = ' ' || c = '\t' || c = '\n' || c = '\r'

def skipSpace (text : Text) : Text := text.dropWhile isSpace

def hexValue (c : Char) : Option Nat :=
  if c.isDigit then some (c.toNat - 0x30)
  else if 'a' ≤ c ∧ c ≤ 'f' then some (c.toNat - 0x57)
  else if 'A' ≤ c ∧ c ≤ 'F' then some (c.toNat - 0x37)
  else none

/-- The four hexadecimal digits of a `\u` escape. -/
def readHex : Text → Option (Nat × Text)
  | a :: b :: c :: d :: rest =>
    match hexValue a, hexValue b, hexValue c, hexValue d with
    | some a, some b, some c, some d => some (((a * 16 + b) * 16 + c) * 16 + d, rest)
    | _, _, _, _ => none
  | _ => none

def isHigh (n : Nat) : Bool := 0xd800 ≤ n && n < 0xdc00

def isLow (n : Nat) : Bool := 0xdc00 ≤ n && n < 0xe000

/-- A `\u` escape; two surrogates make one character, and one alone makes none. -/
def readUnit (text : Text) : Option (Char × Text) :=
  match readHex text with
  | none => none
  | some (n, rest) =>
    if isHigh n then
      match rest with
      | '\\' :: 'u' :: more =>
        match readHex more with
        | some (m, rest) =>
          if isLow m then some (Char.ofNat (0x10000 + (n - 0xd800) * 1024 + (m - 0xdc00)), rest)
          else none
        | none => none
      | _ => none
    else if isLow n then none
    else some (Char.ofNat n, rest)

/-- What stands after a backslash. -/
def readEscape : Text → Option (Char × Text)
  | '"' :: rest => some ('"', rest)
  | '\\' :: rest => some ('\\', rest)
  | '/' :: rest => some ('/', rest)
  | 'b' :: rest => some (Char.ofNat 0x08, rest)
  | 'f' :: rest => some (Char.ofNat 0x0c, rest)
  | 'n' :: rest => some ('\n', rest)
  | 'r' :: rest => some ('\r', rest)
  | 't' :: rest => some ('\t', rest)
  | 'u' :: rest => readUnit rest
  | _ => none

/-- A string after its opening mark; each character costs one unit of fuel. -/
def readString : Nat → Text → Option (Text × Text)
  | 0, _ => none
  | _ + 1, [] => none
  | fuel + 1, c :: rest =>
    if c = '"' then some ([], rest)
    else if c = '\\' then
      match readEscape rest with
      | none => none
      | some (e, rest) => (readString fuel rest).map fun p => (e :: p.1, p.2)
    else if c.toNat < 0x20 then none
    else (readString fuel rest).map fun p => (c :: p.1, p.2)

/-- The digits at the start, at least one. -/
def readDigits (text : Text) : Option (Text × Text) :=
  if (text.takeWhile Char.isDigit).isEmpty then none
  else some (text.takeWhile Char.isDigit, text.dropWhile Char.isDigit)

/-- `0`, or digits that do not start with `0`. -/
def readInteger (text : Text) : Option (Text × Text) :=
  match readDigits text with
  | some ('0' :: _ :: _, _) => none
  | read => read

def readFraction : Text → Option (Text × Text)
  | '.' :: rest => (readDigits rest).map fun p => ('.' :: p.1, p.2)
  | other => some ([], other)

/-- Digits after a sign or none. -/
def readSigned : Text → Option (Text × Text)
  | '+' :: rest => (readDigits rest).map fun p => ('+' :: p.1, p.2)
  | '-' :: rest => (readDigits rest).map fun p => ('-' :: p.1, p.2)
  | other => readDigits other

def readExponent : Text → Option (Text × Text)
  | [] => some ([], [])
  | c :: rest =>
    if c = 'e' ∨ c = 'E' then (readSigned rest).map fun p => (c :: p.1, p.2)
    else some ([], c :: rest)

/-- The number of a sign, digits and what follows them. -/
def numberOf (negative : Bool) (digits tail : Text) : Json :=
  if tail.isEmpty then
    .int (if negative then -(Nat.ofDigitChars 10 digits 0 : Int) else Nat.ofDigitChars 10 digits 0)
  else .float ((if negative then ['-'] else []) ++ digits ++ tail)

/-- A number without its sign. -/
def readUnsigned (negative : Bool) (input : Text) : Option (Json × Text) :=
  match readInteger input with
  | none => none
  | some (digits, rest) =>
    match readFraction rest with
    | none => none
    | some (fraction, rest) =>
      match readExponent rest with
      | none => none
      | some (exponent, rest) => some (numberOf negative digits (fraction ++ exponent), rest)

def readNumber : Text → Option (Json × Text)
  | '-' :: rest => readUnsigned true rest
  | other => readUnsigned false other

/-- A comma or the closing mark after an item. -/
def afterItem (close : Char) (text : Text) : Option (Bool × Text) :=
  match skipSpace text with
  | [] => none
  | c :: rest => if c = ',' then some (true, rest) else if c = close then some (false, rest) else none

/-- A key and the colon after it. -/
def readKey (text : Text) : Option (String × Text) :=
  match skipSpace text with
  | '"' :: rest =>
    match readString rest.length rest with
    | none => none
    | some (key, rest) =>
      match skipSpace rest with
      | ':' :: rest => some (String.ofList key, rest)
      | _ => none
  | _ => none

mutual

/-- A value at the start of a text; each value and each comma cost one unit of fuel. -/
def readValue : Nat → Text → Option (Json × Text)
  | 0, _ => none
  | fuel + 1, input =>
    match input with
    | 'n' :: 'u' :: 'l' :: 'l' :: rest => some (.null, rest)
    | 't' :: 'r' :: 'u' :: 'e' :: rest => some (.bool true, rest)
    | 'f' :: 'a' :: 'l' :: 's' :: 'e' :: rest => some (.bool false, rest)
    | '"' :: rest => (readString rest.length rest).map fun p => (.text p.1, p.2)
    | '[' :: rest =>
      match skipSpace rest with
      | ']' :: rest => some (.array [], rest)
      | rest => (readItems fuel rest).map fun p => (.array p.1, p.2)
    | '\x7b' :: rest =>
      match skipSpace rest with
      | '\x7d' :: rest => some (.object [], rest)
      | rest => (readFields fuel rest).map fun p => (.object p.1, p.2)
    | other => readNumber other

/-- The items of an array up to its end, at least one. -/
def readItems : Nat → Text → Option (List Json × Text)
  | 0, _ => none
  | fuel + 1, input =>
    match readValue fuel (skipSpace input) with
    | none => none
    | some (v, rest) =>
      match afterItem ']' rest with
      | none => none
      | some (false, rest) => some ([v], rest)
      | some (true, rest) => (readItems fuel rest).map fun p => (v :: p.1, p.2)

/-- The fields of an object up to its end, at least one. -/
def readFields : Nat → Text → Option (List (String × Json) × Text)
  | 0, _ => none
  | fuel + 1, input =>
    match readKey input with
    | none => none
    | some (key, rest) =>
      match readValue fuel (skipSpace rest) with
      | none => none
      | some (v, rest) =>
        match afterItem '\x7d' rest with
        | none => none
        | some (false, rest) => some ([(key, v)], rest)
        | some (true, rest) => (readFields fuel rest).map fun p => ((key, v) :: p.1, p.2)

end

/-- `json.loads(text)`; `none` is a text that is no JSON. -/
def parse (text : Text) : Option Json :=
  match readValue (text.length + 1) (skipSpace text) with
  | some (v, rest) => if (skipSpace rest).isEmpty then some v else none
  | none => none


/-! ## 3. A number is read as it was written -/

/-- What follows a number in a value ends it. -/
def EndsNumber (rest : Text) : Prop :=
  ∀ c more, rest = c :: more → c.isDigit = false ∧ c ≠ '.' ∧ c ≠ 'e' ∧ c ≠ 'E'

theorem endsNumber_nil : EndsNumber [] := by
  intro c more h
  cases h

theorem endsNumber_cons {c : Char} {more : Text}
    (h : c.isDigit = false ∧ c ≠ '.' ∧ c ≠ 'e' ∧ c ≠ 'E') : EndsNumber (c :: more) := by
  intro d tail heq
  cases heq
  exact h

theorem readDigits_append {digits rest : Text} (hdigits : ∀ c ∈ digits, c.isDigit = true)
    (hne : digits ≠ []) (hrest : EndsNumber rest) :
    readDigits (digits ++ rest) = some (digits, rest) := by
  have hstop : rest.takeWhile Char.isDigit = [] ∧ rest.dropWhile Char.isDigit = rest := by
    cases rest with
    | nil => exact ⟨rfl, rfl⟩
    | cons c more =>
      have hc := (hrest c more rfl).1
      rw [List.takeWhile_cons, List.dropWhile_cons, hc]
      exact ⟨rfl, rfl⟩
  have htake : (digits ++ rest).takeWhile Char.isDigit = digits := by
    rw [List.takeWhile_append_of_pos hdigits, hstop.1, List.append_nil]
  have hdrop : (digits ++ rest).dropWhile Char.isDigit = rest := by
    rw [List.dropWhile_append_of_pos hdigits, hstop.2]
  rw [readDigits, htake, hdrop, if_neg]
  rw [List.isEmpty_iff]
  exact hne

theorem isDigit_toDigits {n : Nat} {c : Char} (h : c ∈ Nat.toDigits 10 n) : c.isDigit = true :=
  Nat.isDigit_of_mem_toDigits (by decide) (by decide) h

/-- A number other than zero does not start with `0`. -/
theorem head_toDigits_ne {n : Nat} (h : 0 < n) : (Nat.toDigits 10 n).head? ≠ some '0' := by
  induction n using Nat.strong_induction_on with
  | _ n ih =>
    rw [Nat.toDigits_eq_if (by decide)]
    split
    · rename_i hsmall
      have hall : (List.range 10).all
          (fun n => n = 0 || [Nat.digitChar n].head? ≠ some '0') = true := by decide
      have hn := List.all_eq_true.mp hall n (List.mem_range.mpr hsmall)
      rw [Bool.or_eq_true, decide_eq_true_eq, decide_eq_true_eq] at hn
      exact hn.resolve_left (by omega)
    · rw [List.head?_append_of_ne_nil _ Nat.toDigits_ne_nil]
      exact ih (n / 10) (by omega) (by omega)

theorem readInteger_toDigits (n : Nat) {rest : Text} (hrest : EndsNumber rest) :
    readInteger (Nat.toDigits 10 n ++ rest) = some (Nat.toDigits 10 n, rest) := by
  rw [readInteger, readDigits_append (fun c => isDigit_toDigits) Nat.toDigits_ne_nil hrest]
  split
  · rename_i second more tail heq
    have hdigits : Nat.toDigits 10 n = '0' :: second :: more :=
      congrArg Prod.fst (Option.some.inj heq)
    by_cases hzero : n = 0
    · rw [hzero] at hdigits
      cases hdigits
    · have hhead := head_toDigits_ne (Nat.pos_of_ne_zero hzero)
      rw [hdigits] at hhead
      exact absurd rfl hhead
  · rfl

theorem readFraction_of_ends {rest : Text} (hrest : EndsNumber rest) :
    readFraction rest = some ([], rest) := by
  unfold readFraction
  split
  · rename_i more
    exact absurd rfl (hrest '.' more rfl).2.1
  · rfl

theorem readExponent_of_ends {rest : Text} (hrest : EndsNumber rest) :
    readExponent rest = some ([], rest) := by
  cases rest with
  | nil => rfl
  | cons c more =>
    have hc := (hrest c more rfl).2.2
    rw [readExponent, if_neg]
    exact fun h => h.elim hc.1 hc.2

theorem readUnsigned_toDigits (negative : Bool) (n : Nat) {rest : Text}
    (hrest : EndsNumber rest) :
    readUnsigned negative (Nat.toDigits 10 n ++ rest) =
      some (.int (if negative then -(n : Int) else n), rest) := by
  rw [readUnsigned, readInteger_toDigits n hrest]
  simp only [readFraction_of_ends hrest, readExponent_of_ends hrest, List.append_nil]
  rw [numberOf, Nat.ofDigitChars_ten_toDigits]
  rfl

/-- An integer is read as it was written. -/
theorem readNumber_intText (i : Int) {rest : Text} (hrest : EndsNumber rest) :
    readNumber (intText i ++ rest) = some (.int i, rest) := by
  unfold intText
  split
  · show readUnsigned true (Nat.toDigits 10 i.natAbs ++ rest) = _
    rw [readUnsigned_toDigits true i.natAbs hrest]
    have hi : -(i.natAbs : Int) = i := by omega
    simp only [if_true, hi]
  · have hhead : readNumber (Nat.toDigits 10 i.natAbs ++ rest) =
        readUnsigned false (Nat.toDigits 10 i.natAbs ++ rest) := by
      unfold readNumber
      split
      · rename_i more heq
        cases hdigits : Nat.toDigits 10 i.natAbs with
        | nil => exact absurd hdigits Nat.toDigits_ne_nil
        | cons d ds =>
          rw [hdigits, List.cons_append, List.cons.injEq] at heq
          have hd : d.isDigit = true := isDigit_toDigits (n := i.natAbs) (by simp [hdigits])
          rw [heq.1] at hd
          exact absurd hd (by decide)
      · rfl
    rw [hhead, readUnsigned_toDigits false i.natAbs hrest]
    have hi : (i.natAbs : Int) = i := by omega
    simp only [Bool.false_eq_true, if_false, hi]

/-! ## 4. A string is read as it was written -/

theorem hexValue_hexDigit {n : Nat} (h : n < 16) : hexValue (hexDigit n) = some n := by
  have hall : (List.range 16).all (fun n => hexValue (hexDigit n) = some n) = true := by decide
  exact of_decide_eq_true (List.all_eq_true.mp hall n (List.mem_range.mpr h))

/-- The escape of a control is read as the control. -/
theorem readUnit_control {c : Char} (h : c.toNat < 0x20) (rest : Text) :
    readUnit ('0' :: '0' :: hexDigit (c.toNat / 16) :: hexDigit (c.toNat % 16) :: rest) =
      some (c, rest) := by
  have hhigh := hexValue_hexDigit (show c.toNat / 16 < 16 by omega)
  have hlow := hexValue_hexDigit (show c.toNat % 16 < 16 by omega)
  have hzero : hexValue '0' = some 0 := rfl
  have hread : readHex ('0' :: '0' :: hexDigit (c.toNat / 16) :: hexDigit (c.toNat % 16) :: rest) =
      some (c.toNat, rest) := by
    simp only [readHex, hzero, hhigh, hlow]
    congr 2
    omega
  have hnotHigh : isHigh c.toNat = false := by
    rw [isHigh, Bool.and_eq_false_iff, decide_eq_false_iff_not]
    exact .inl (by omega)
  have hnotLow : isLow c.toNat = false := by
    rw [isLow, Bool.and_eq_false_iff, decide_eq_false_iff_not]
    exact .inl (by omega)
  simp only [readUnit, hread, hnotHigh, hnotLow, Bool.false_eq_true, if_false, Char.ofNat_toNat]

/-- One character of a string is read from its escape. -/
theorem readString_escapeChar (fuel : Nat) (c : Char) (rest : Text) :
    readString (fuel + 1) (escapeChar c ++ rest) =
      (readString fuel rest).map fun p => (c :: p.1, p.2) := by
  have hescaped : ∀ e tail, readEscape tail = some (e, rest) →
      readString (fuel + 1) ('\\' :: tail) = (readString fuel rest).map fun p => (e :: p.1, p.2) := by
    intro e tail h
    rw [readString, if_neg (by decide), if_pos rfl, h]
  unfold escapeChar
  split
  · rename_i hc
    rw [hc]
    exact hescaped _ _ rfl
  split
  · rename_i hc
    rw [hc]
    exact hescaped _ _ rfl
  split
  · rename_i hc
    rw [hc]
    exact hescaped _ _ rfl
  split
  · rename_i hc
    rw [hc]
    exact hescaped _ _ rfl
  split
  · rename_i hc
    rw [hc]
    exact hescaped _ _ rfl
  split
  · rename_i hc
    rw [hc]
    exact hescaped _ _ rfl
  split
  · rename_i hc
    rw [hc]
    exact hescaped _ _ rfl
  split
  · rename_i hcontrol
    exact hescaped c _ (readUnit_control hcontrol rest)
  · rename_i hquote hback _ _ _ _ _ hcontrol
    show readString (fuel + 1) (c :: rest) = _
    rw [readString, if_neg hquote, if_neg hback, if_neg hcontrol]

theorem readString_quoted (s : Text) : ∀ fuel, s.length < fuel → ∀ rest : Text,
    readString fuel (s.flatMap escapeChar ++ '"' :: rest) = some (s, rest) := by
  induction s with
  | nil =>
    intro fuel hfuel rest
    cases fuel with
    | zero => cases hfuel
    | succ fuel => rfl
  | cons c s ih =>
    intro fuel hfuel rest
    cases fuel with
    | zero => cases hfuel
    | succ fuel =>
      rw [List.flatMap_cons, List.append_assoc, readString_escapeChar,
        ih fuel (Nat.lt_of_succ_lt_succ hfuel)]
      rfl

theorem length_escapeChar_pos (c : Char) : 0 < (escapeChar c).length := by
  unfold escapeChar
  grind

theorem length_le_flatMap_escapeChar (s : Text) : s.length ≤ (s.flatMap escapeChar).length := by
  induction s with
  | nil => exact Nat.le_refl 0
  | cons c s ih =>
    have hc := length_escapeChar_pos c
    rw [List.flatMap_cons, List.length_append, List.length_cons]
    omega

/-- A string is read as it was written, with the fuel of what is left to read. -/
theorem readString_quote (s : Text) (rest : Text) :
    readString (s.flatMap escapeChar ++ '"' :: rest).length
      (s.flatMap escapeChar ++ '"' :: rest) = some (s, rest) := by
  apply readString_quoted
  have hs := length_le_flatMap_escapeChar s
  rw [List.length_append, List.length_cons]
  omega

/-! ## 5. A value is read as it was written -/

/-- The text of a float, which is read as this float wherever a number ends. -/
def FloatText (repr : Text) : Prop :=
  ∀ rest, EndsNumber rest → readNumber (repr ++ rest) = some (.float repr, rest)

mutual

/-- Every float in the value is kept as a text of a float. -/
def Readable : Json → Prop
  | .float repr => FloatText repr
  | .array items => ReadableItems items
  | .object fields => ReadableFields fields
  | _ => True

def ReadableItems : List Json → Prop
  | [] => True
  | v :: rest => Readable v ∧ ReadableItems rest

def ReadableFields : List (String × Json) → Prop
  | [] => True
  | (_, v) :: rest => Readable v ∧ ReadableFields rest

end

/-- A number starts with its sign or with a digit. -/
theorem head_of_readNumber {input rest : Text} {v : Json} (h : readNumber input = some (v, rest)) :
    ∃ c more, input = c :: more ∧ (c = '-' ∨ c.isDigit = true) := by
  cases input with
  | nil => cases h
  | cons c more =>
    refine ⟨c, more, rfl, ?_⟩
    by_cases hsign : c = '-'
    · exact .inl hsign
    by_cases hdigit : c.isDigit = true
    · exact .inr hdigit
    · -- without a digit there is no integer to read
      have hnone : readDigits (c :: more) = none := by
        rw [readDigits, List.takeWhile_cons, if_neg hdigit]
        rfl
      have hnumber : readNumber (c :: more) = readUnsigned false (c :: more) := by
        unfold readNumber
        split
        · rename_i heq
          exact absurd (List.cons.inj heq).1 hsign
        · rfl
      rw [hnumber, readUnsigned, readInteger, hnone] at h
      cases h

/-- A text that starts as a number does is no other value. -/
theorem readValue_number {c : Char} (h : c = '-' ∨ c.isDigit = true) (fuel : Nat) (more : Text) :
    readValue (fuel + 1) (c :: more) = readNumber (c :: more) := by
  have hne : c ≠ 'n' ∧ c ≠ 't' ∧ c ≠ 'f' ∧ c ≠ '"' ∧ c ≠ '[' ∧ c ≠ '\x7b' := by
    rcases h with rfl | hdigit
    · decide
    · refine ⟨?_, ?_, ?_, ?_, ?_, ?_⟩ <;> rintro rfl <;> exact absurd hdigit (by decide)
  rw [readValue]
  all_goals
    intro rest heq
    have hc := (List.cons.inj heq).1
    simp only [hc, ne_eq, not_true_eq_false, false_and, and_false] at hne

/-- The text of a value starts with a mark of its own: no blank, and no closing mark. -/
theorem head_renderWith (blank : Text) : ∀ v : Json, Readable v →
    ∃ c more, renderWith blank v = c :: more ∧ isSpace c = false ∧ c ≠ ']' := by
  have hnumber : ∀ {repr : Text} {v : Json}, readNumber (repr ++ []) = some (v, []) →
      ∃ c more, repr = c :: more ∧ isSpace c = false ∧ c ≠ ']' := by
    intro repr v hread
    rw [List.append_nil] at hread
    obtain ⟨c, more, heq, hc⟩ := head_of_readNumber hread
    refine ⟨c, more, heq, ?_⟩
    rcases hc with rfl | hdigit
    · decide
    · constructor
      · by_contra hspace
        rw [Bool.not_eq_false, isSpace] at hspace
        simp only [Bool.or_eq_true, decide_eq_true_eq] at hspace
        rcases hspace with ((rfl | rfl) | rfl) | rfl <;> exact absurd hdigit (by decide)
      · rintro rfl
        exact absurd hdigit (by decide)
  intro v hv
  cases v with
  | null => exact ⟨'n', _, rfl, by decide, by decide⟩
  | bool b =>
    cases b with
    | true => exact ⟨'t', _, rfl, by decide, by decide⟩
    | false => exact ⟨'f', _, rfl, by decide, by decide⟩
  | int i =>
    apply hnumber (readNumber_intText i endsNumber_nil)
  | float repr => exact hnumber (hv [] endsNumber_nil)
  | text s => exact ⟨'"', _, rfl, by decide, by decide⟩
  | array items => exact ⟨'[', _, rfl, by decide, by decide⟩
  | object fields => exact ⟨'\x7b', _, rfl, by decide, by decide⟩

theorem skipSpace_cons {c : Char} (h : isSpace c = false) (rest : Text) :
    skipSpace (c :: rest) = c :: rest := by
  rw [skipSpace, List.dropWhile_cons, h]
  rfl

/-- No blank is skipped before the text of a value. -/
theorem skipSpace_renderWith {blank : Text} {v : Json} (hv : Readable v) (rest : Text) :
    skipSpace (renderWith blank v ++ rest) = renderWith blank v ++ rest := by
  obtain ⟨c, more, heq, hc, _⟩ := head_renderWith blank v hv
  rw [heq]
  exact skipSpace_cons hc (more ++ rest)

theorem afterItem_comma (close : Char) (rest : Text) :
    afterItem close (',' :: rest) = some (true, rest) := rfl

/-- What is read past blanks is read with more blanks before it. -/
theorem skipSpace_append {blank : Text} (hblank : blank.all isSpace = true) (rest : Text) :
    skipSpace (blank ++ rest) = skipSpace rest := by
  rw [skipSpace, List.dropWhile_append_of_pos (List.all_eq_true.mp hblank)]
  rfl

theorem readItems_blank {blank : Text} (hblank : blank.all isSpace = true) (fuel : Nat)
    (rest : Text) : readItems fuel (blank ++ rest) = readItems fuel rest := by
  cases fuel with
  | zero => rw [readItems, readItems]
  | succ fuel => rw [readItems, readItems, skipSpace_append hblank]

theorem readFields_blank {blank : Text} (hblank : blank.all isSpace = true) (fuel : Nat)
    (rest : Text) : readFields fuel (blank ++ rest) = readFields fuel rest := by
  cases fuel with
  | zero => rw [readFields, readFields]
  | succ fuel => rw [readFields, readFields, readKey, readKey, skipSpace_append hblank]

theorem readKey_fieldTextWith (blank : Text) (key : String) (value rest : Text) :
    readKey (fieldTextWith blank key value ++ rest) = some (key, blank ++ (value ++ rest)) := by
  have htext : fieldTextWith blank key value ++ rest = '"' ::
      (key.toList.flatMap escapeChar ++ '"' :: (':' :: (blank ++ (value ++ rest)))) := by
    simp only [fieldTextWith, quote, List.cons_append, List.append_assoc, List.nil_append]
  rw [htext, readKey, skipSpace_cons (by decide)]
  simp only [readString_quote, skipSpace_cons (show isSpace ':' = false by decide),
    String.ofList_toList]

theorem length_le_fieldTextWith (blank : Text) (key : String) (value : Text) :
    value.length ≤ (fieldTextWith blank key value).length := by
  rw [fieldTextWith, List.length_append, List.length_cons, List.length_append]
  omega

theorem head_joinWith_items (blank : Text) (v : Json) (items : List Json) (hv : Readable v) :
    ∃ c more, joinWith blank (renderItemsWith blank (v :: items)) = c :: more ∧
      isSpace c = false ∧ c ≠ ']' := by
  obtain ⟨c, more, heq, hc⟩ := head_renderWith blank v hv
  cases items with
  | nil => exact ⟨c, more, heq, hc⟩
  | cons w items =>
    refine ⟨c, more ++ ',' :: (blank ++ joinWith blank (renderItemsWith blank (w :: items))), ?_,
      hc⟩
    show renderWith blank v ++
      ',' :: (blank ++ joinWith blank (renderItemsWith blank (w :: items))) = _
    rw [heq]
    rfl

theorem head_joinWith_fields (blank : Text) (key : String) (v : Json)
    (fields : List (String × Json)) :
    ∃ more, joinWith blank (renderFieldsWith blank ((key, v) :: fields)) = '"' :: more := by
  cases fields with
  | nil => exact ⟨_, rfl⟩
  | cons field fields => exact ⟨_, rfl⟩

theorem readValue_array {c : Char} (hspace : isSpace c = false) (hclose : c ≠ ']') (fuel : Nat)
    (more : Text) : readValue (fuel + 1) ('[' :: c :: more) =
      (readItems fuel (c :: more)).map fun p => (.array p.1, p.2) := by
  rw [readValue, skipSpace_cons hspace]
  split
  · rename_i heq
    exact absurd (List.cons.inj heq).1 hclose
  · rfl

theorem readValue_object (fuel : Nat) (more : Text) :
    readValue (fuel + 1) ('\x7b' :: '"' :: more) =
      (readFields fuel ('"' :: more)).map fun p => (.object p.1, p.2) := by
  rw [readValue, skipSpace_cons (by decide)]
  split
  · rename_i heq
    exact absurd (List.cons.inj heq).1 (by decide)
  · rfl

mutual

/-- A value is read from its text, whatever ends it. -/
theorem readValue_renderWith {blank : Text} (hblank : blank.all isSpace = true) :
    ∀ v : Json, Readable v → ∀ fuel, (renderWith blank v).length ≤ fuel →
      ∀ rest, EndsNumber rest → readValue fuel (renderWith blank v ++ rest) = some (v, rest)
  | v, hv, 0, hfuel, _, _ => by
    obtain ⟨c, more, heq, _⟩ := head_renderWith blank v hv
    rw [heq] at hfuel
    cases hfuel
  | .null, _, fuel + 1, _, _, _ => rfl
  | .bool true, _, fuel + 1, _, _, _ => rfl
  | .bool false, _, fuel + 1, _, _, _ => rfl
  | .int i, _, fuel + 1, _, rest, hrest => by
    have hread := readNumber_intText i hrest
    obtain ⟨c, more, heq, hc⟩ := head_of_readNumber hread
    show readValue (fuel + 1) (intText i ++ rest) = _
    rw [heq, readValue_number hc, ← heq, hread]
  | .float repr, hv, fuel + 1, _, rest, hrest => by
    have hread := hv rest hrest
    obtain ⟨c, more, heq, hc⟩ := head_of_readNumber hread
    show readValue (fuel + 1) (repr ++ rest) = _
    rw [heq, readValue_number hc, ← heq, hread]
  | .text s, _, fuel + 1, _, rest, _ => by
    have htext : renderWith blank (.text s) ++ rest =
        '"' :: (s.flatMap escapeChar ++ '"' :: rest) := by
      simp only [renderWith, quote, List.cons_append, List.append_assoc, List.nil_append]
    rw [htext, readValue, readString_quote]
    rfl
  | .array [], _, fuel + 1, _, _, _ => rfl
  | .array (v :: items), hv, fuel + 1, hfuel, rest, _ => by
    have hlength : (joinWith blank (renderItemsWith blank (v :: items))).length < fuel := by
      simp only [renderWith, List.length_cons, List.length_append, List.length_nil] at hfuel
      omega
    have hread := readItems_joinWith hblank v items hv.1 hv.2 fuel hlength rest
    have htext : renderWith blank (.array (v :: items)) ++ rest =
        '[' :: (joinWith blank (renderItemsWith blank (v :: items)) ++ ']' :: rest) := by
      simp only [renderWith, List.cons_append, List.append_assoc, List.nil_append]
    obtain ⟨c, more, hjoin, hspace, hclose⟩ := head_joinWith_items blank v items hv.1
    rw [htext, hjoin, List.cons_append, readValue_array hspace hclose, ← List.cons_append,
      ← hjoin, hread]
    rfl
  | .object [], _, fuel + 1, _, _, _ => rfl
  | .object ((key, v) :: fields), hv, fuel + 1, hfuel, rest, _ => by
    have hlength : (joinWith blank (renderFieldsWith blank ((key, v) :: fields))).length < fuel := by
      simp only [renderWith, List.length_cons, List.length_append, List.length_nil] at hfuel
      omega
    have hread := readFields_joinWith hblank key v fields hv.1 hv.2 fuel hlength rest
    have htext : renderWith blank (.object ((key, v) :: fields)) ++ rest = '\x7b' ::
        (joinWith blank (renderFieldsWith blank ((key, v) :: fields)) ++ '\x7d' :: rest) := by
      simp only [renderWith, List.cons_append, List.append_assoc, List.nil_append]
    obtain ⟨more, hjoin⟩ := head_joinWith_fields blank key v fields
    rw [htext, hjoin, List.cons_append, readValue_object, ← List.cons_append, ← hjoin, hread]
    rfl

theorem readItems_joinWith {blank : Text} (hblank : blank.all isSpace = true) :
    ∀ (v : Json) (items : List Json), Readable v → ReadableItems items → ∀ fuel,
      (joinWith blank (renderItemsWith blank (v :: items))).length < fuel → ∀ rest,
        readItems fuel (joinWith blank (renderItemsWith blank (v :: items)) ++ ']' :: rest) =
          some (v :: items, rest)
  | _, _, _, _, 0, hfuel, _ => by cases hfuel
  | v, [], hv, _, fuel + 1, hfuel, rest => by
    have hvalue := readValue_renderWith hblank v hv fuel (Nat.le_of_lt_succ hfuel) (']' :: rest)
      (endsNumber_cons (by decide))
    show readItems (fuel + 1) (renderWith blank v ++ ']' :: rest) = _
    rw [readItems, skipSpace_renderWith hv, hvalue]
    rfl
  | v, w :: items, hv, hitems, fuel + 1, hfuel, rest => by
    have hjoin : joinWith blank (renderItemsWith blank (v :: w :: items)) ++ ']' :: rest =
        renderWith blank v ++ ',' :: (blank ++
          (joinWith blank (renderItemsWith blank (w :: items)) ++ ']' :: rest)) := by
      show (renderWith blank v ++
        ',' :: (blank ++ joinWith blank (renderItemsWith blank (w :: items)))) ++ _ = _
      rw [List.append_assoc, List.cons_append, List.append_assoc]
    have hlength : (renderWith blank v).length +
        (joinWith blank (renderItemsWith blank (w :: items))).length + 1 ≤ fuel := by
      change (renderWith blank v ++
        ',' :: (blank ++ joinWith blank (renderItemsWith blank (w :: items)))).length <
          fuel + 1 at hfuel
      rw [List.length_append, List.length_cons, List.length_append] at hfuel
      omega
    have hvalue := readValue_renderWith hblank v hv fuel (by omega)
      (',' :: (blank ++ (joinWith blank (renderItemsWith blank (w :: items)) ++ ']' :: rest)))
      (endsNumber_cons (by decide))
    have hmore := readItems_joinWith hblank w items hitems.1 hitems.2 fuel (by omega) rest
    rw [hjoin, readItems, skipSpace_renderWith hv, hvalue]
    show (readItems fuel (blank ++ _)).map _ = _
    rw [readItems_blank hblank, hmore]
    rfl

theorem readFields_joinWith {blank : Text} (hblank : blank.all isSpace = true) :
    ∀ (key : String) (v : Json) (fields : List (String × Json)), Readable v →
      ReadableFields fields → ∀ fuel,
      (joinWith blank (renderFieldsWith blank ((key, v) :: fields))).length < fuel → ∀ rest,
        readFields fuel
          (joinWith blank (renderFieldsWith blank ((key, v) :: fields)) ++ '\x7d' :: rest) =
            some ((key, v) :: fields, rest)
  | _, _, _, _, _, 0, hfuel, _ => by cases hfuel
  | key, v, [], hv, _, fuel + 1, hfuel, rest => by
    have hlength : (renderWith blank v).length ≤ fuel := by
      have hfield := length_le_fieldTextWith blank key (renderWith blank v)
      change (fieldTextWith blank key (renderWith blank v)).length < fuel + 1 at hfuel
      omega
    have hvalue := readValue_renderWith hblank v hv fuel hlength ('\x7d' :: rest)
      (endsNumber_cons (by decide))
    show readFields (fuel + 1) (fieldTextWith blank key (renderWith blank v) ++ '\x7d' :: rest) = _
    rw [readFields, readKey_fieldTextWith]
    simp only [skipSpace_append hblank, skipSpace_renderWith hv, hvalue]
    rfl
  | key, v, (next, w) :: fields, hv, hfields, fuel + 1, hfuel, rest => by
    have hjoin :
        joinWith blank (renderFieldsWith blank ((key, v) :: (next, w) :: fields)) ++ '\x7d' :: rest =
          fieldTextWith blank key (renderWith blank v) ++ ',' :: (blank ++
            (joinWith blank (renderFieldsWith blank ((next, w) :: fields)) ++ '\x7d' :: rest)) := by
      show (fieldTextWith blank key (renderWith blank v) ++
        ',' :: (blank ++ joinWith blank (renderFieldsWith blank ((next, w) :: fields)))) ++ _ = _
      rw [List.append_assoc, List.cons_append, List.append_assoc]
    have hlength : (renderWith blank v).length +
        (joinWith blank (renderFieldsWith blank ((next, w) :: fields))).length + 1 ≤ fuel := by
      have hfield := length_le_fieldTextWith blank key (renderWith blank v)
      change (fieldTextWith blank key (renderWith blank v) ++
        ',' :: (blank ++ joinWith blank (renderFieldsWith blank ((next, w) :: fields)))).length <
          fuel + 1 at hfuel
      rw [List.length_append, List.length_cons, List.length_append] at hfuel
      omega
    have hvalue := readValue_renderWith hblank v hv fuel (by omega)
      (',' :: (blank ++
        (joinWith blank (renderFieldsWith blank ((next, w) :: fields)) ++ '\x7d' :: rest)))
      (endsNumber_cons (by decide))
    have hmore := readFields_joinWith hblank next w fields hfields.1 hfields.2 fuel (by omega) rest
    rw [hjoin, readFields, readKey_fieldTextWith]
    simp only [skipSpace_append hblank, skipSpace_renderWith hv, hvalue, afterItem_comma]
    rw [readFields_blank hblank, hmore]
    rfl

end

/-- The text of a value is a JSON text, and it is read as this value. -/
theorem parse_renderWith {blank : Text} (hblank : blank.all isSpace = true) {v : Json}
    (hv : Readable v) : parse (renderWith blank v) = some v := by
  have hskip := @skipSpace_renderWith blank v hv []
  have hread := readValue_renderWith hblank v hv ((renderWith blank v).length + 1)
    (Nat.le_succ _) [] endsNumber_nil
  rw [List.append_nil] at hskip hread
  rw [parse, hskip, hread]
  rfl

theorem parse_render {v : Json} (hv : Readable v) : parse (render v) = some v := by
  rw [← renderWith_nil]
  exact parse_renderWith rfl hv

theorem parse_dumps {v : Json} (hv : Readable v) : parse (dumps v) = some v :=
  parse_renderWith (by decide) hv

/-- Values with one text are one value. -/
theorem render_injective {v w : Json} (hv : Readable v) (hw : Readable w)
    (h : render v = render w) : v = w := by
  have hread := parse_render hv
  rw [h, parse_render hw] at hread
  exact (Option.some.inj hread).symm

end Json
