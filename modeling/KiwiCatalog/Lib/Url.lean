import Mathlib.Data.List.TakeWhile

/-!
# Url — splitting URLs and undoing percent encoding, as Python's `urllib.parse` does

Texts are lists of characters.  What a text loses at its end when closing punctuation is cut off it
is lost at the end of each part as well: parts, escapes and user names are otherwise the same.
-/

set_option autoImplicit false

namespace Url

abbrev Text := List Char

/-- The tables of Unicode and of addresses that the splitting consults. -/
structure Tables where
  -- NFKC turns the character into one of `/?#@:` and others; none of these composes with another
  expandsToDelimiter : Char → Bool
  -- `_check_bracketed_host`: an IPv6 address or an IPvFuture one
  bracketedHost : Text → Bool
  lower : Text → Text

/-! ## 1. Characters -/

/-- `str.isspace`, and `\s` of a pattern. -/
def isSpace (c : Char) : Bool :=
  (0x9 ≤ c.toNat && c.toNat ≤ 0xd) || (0x1c ≤ c.toNat && c.toNat ≤ 0x20) || c.toNat = 0x85 ||
    c.toNat = 0xa0 || c.toNat = 0x1680 || (0x2000 ≤ c.toNat && c.toNat ≤ 0x200a) ||
    c.toNat = 0x2028 || c.toNat = 0x2029 || c.toNat = 0x202f || c.toNat = 0x205f ||
    c.toNat = 0x3000

/-- `str.strip()`. -/
def strip (text : Text) : Text :=
  ((text.dropWhile isSpace).reverse.dropWhile isSpace).reverse

/-- `text.lower().startswith(word)`, where no letter of the word is one that characters beyond ASCII
lower to. -/
def startsWithLower : Text → Text → Bool
  | [], _ => true
  | _ :: _, [] => false
  | c :: word, d :: text => (d = c || d = c.toUpper) && startsWithLower word text

/-- What stands before the first `c`, and after it. -/
def before (c : Char) (text : Text) : Text := text.takeWhile (· ≠ c)
def behind (c : Char) (text : Text) : Text := (text.dropWhile (· ≠ c)).drop 1

/-- What stands after the last `c`, and before it. -/
def behindLast (c : Char) (text : Text) : Text := (text.reverse.takeWhile (· ≠ c)).reverse
def beforeLast (c : Char) (text : Text) : Text :=
  ((text.reverse.dropWhile (· ≠ c)).drop 1).reverse

theorem dropWhile_eq_self_of_head {p : Char → Bool} {text : Text}
    (h : ∀ c ∈ text.head?, p c = false) : text.dropWhile p = text := by
  cases text with
  | nil => rfl
  | cons c rest =>
    rw [List.dropWhile_cons_of_neg]
    rw [h c rfl]
    exact Bool.false_ne_true

theorem head_dropWhile {p : Char → Bool} {text : Text} :
    ∀ c ∈ (text.dropWhile p).head?, p c = false := by
  intro c hc
  have hnot := List.head?_dropWhile_not p text
  rw [hc] at hnot
  simpa using hnot

theorem strip_strip (text : Text) : strip (strip text) = strip text := by
  have hfront : (strip text).dropWhile isSpace = strip text := by
    have hstart : strip text <+: text.dropWhile isSpace := by
      unfold strip
      have hend := List.dropWhile_suffix isSpace (l := (text.dropWhile isSpace).reverse)
      rw [← List.reverse_prefix, List.reverse_reverse] at hend
      exact hend
    obtain ⟨q, hq⟩ := hstart
    apply dropWhile_eq_self_of_head
    intro c hc
    have hhead : c ∈ (text.dropWhile isSpace).head? := by
      rw [← hq, List.head?_append, hc]
      rfl
    exact head_dropWhile c hhead
  have hback : (strip text).reverse.dropWhile isSpace = (strip text).reverse := by
    unfold strip
    rw [List.reverse_reverse]
    exact dropWhile_eq_self_of_head head_dropWhile
  unfold strip at hfront hback ⊢
  rw [hfront, hback, List.reverse_reverse]

/-- A stripped text behind one that starts with no blank. -/
theorem strip_append_strip {front text : Text} (hfront : ∀ c ∈ front.head?, isSpace c = false)
    (hsome : front ≠ []) (htext : strip text ≠ []) :
    strip (front ++ strip text) = front ++ strip text := by
  have hhead : ∀ first rest : Text, first ≠ [] → (first ++ rest).head? = first.head? := by
    intro first rest hne
    cases first with
    | nil => exact absurd rfl hne
    | cons c _ => rfl
  have hstart : (front ++ strip text).dropWhile isSpace = front ++ strip text := by
    apply dropWhile_eq_self_of_head
    intro c hc
    rw [hhead _ _ hsome] at hc
    exact hfront c hc
  have hend : (front ++ strip text).reverse.dropWhile isSpace = (front ++ strip text).reverse := by
    apply dropWhile_eq_self_of_head
    intro c hc
    rw [List.reverse_append, hhead _ _ (by simpa using htext)] at hc
    unfold strip at hc
    rw [List.reverse_reverse] at hc
    exact head_dropWhile c hc
  rw [strip, hstart, hend, List.reverse_reverse]

/-! ## 2. `urlsplit` -/

structure Split where
  scheme : Text
  netloc : Text
  path : Text
  query : Text
  fragment : Text
  deriving DecidableEq

/-- Without leading blanks and control characters, and without tabs and line ends. -/
def cleaned (url : Text) : Text :=
  (url.dropWhile fun c => c.toNat ≤ 0x20).filter fun c => c ≠ '\t' && c ≠ '\r' && c ≠ '\n'

def schemeChar (c : Char) : Bool := c.isAlphanum || c = '+' || c = '-' || c = '.'

/-- The scheme, in lower case, and what follows its colon. -/
def splitScheme (url : Text) : Text × Text :=
  if url.contains ':' && (before ':' url).head?.any Char.isAlpha && (before ':' url).all schemeChar
  then ((before ':' url).map Char.toLower, behind ':' url) else ([], url)

def netlocChar (c : Char) : Bool := c ≠ '/' && c ≠ '?' && c ≠ '#'

/-- No data before the brackets, and behind them only a port. -/
def checkBrackets (t : Tables) (hostnameAndPort : Text) : Bool :=
  let port := behind ']' (behind '[' hostnameAndPort)
  (before '[' hostnameAndPort).isEmpty && (port.isEmpty || port.head? = some ':') &&
    t.bracketedHost (before ']' (behind '[' hostnameAndPort))

/-- `_check_bracketed_netloc`, where the netloc has both brackets. -/
def checkBracketedNetloc (t : Tables) (netloc : Text) : Bool :=
  let hostnameAndPort := behindLast '@' netloc
  if hostnameAndPort.contains '[' then checkBrackets t hostnameAndPort
  else t.bracketedHost (before ':' hostnameAndPort)

/-- `_checknetloc`: no character of the netloc hides a delimiter. -/
def checkNetloc (t : Tables) (netloc : Text) : Bool := !netloc.any t.expandsToDelimiter

def netlocAccepted (t : Tables) (netloc : Text) : Bool :=
  (netloc.contains '[' == netloc.contains ']') &&
    (!netloc.contains '[' || checkBracketedNetloc t netloc) && checkNetloc t netloc

/-- The path, the query and the fragment. -/
def splitRest (scheme netloc rest : Text) : Split :=
  let front := before '#' rest
  ⟨scheme, netloc, before '?' front, behind '?' front, behind '#' rest⟩

/-- `none` is a `ValueError`. -/
def urlsplit (t : Tables) (url : Text) : Option Split :=
  let (scheme, rest) := splitScheme (cleaned url)
  if rest.take 2 = ['/', '/'] then
    let netloc := (rest.drop 2).takeWhile netlocChar
    if netlocAccepted t netloc then
      some (splitRest scheme netloc ((rest.drop 2).dropWhile netlocChar))
    else none
  else some (splitRest scheme [] rest)

namespace Split

/-- `_userinfo`. -/
def userinfo (s : Split) : Text := beforeLast '@' s.netloc

def username (s : Split) : Text := before ':' s.userinfo

def password (s : Split) : Text := behind ':' s.userinfo

def hasCredentials (s : Split) : Bool := !s.username.isEmpty || !s.password.isEmpty

/-- `hostname`, where none is the empty text. -/
def hostname (t : Tables) (s : Split) : Text :=
  let hostnameAndPort := behindLast '@' s.netloc
  let host := if hostnameAndPort.contains '[' then before ']' (behind '[' hostnameAndPort)
    else before ':' hostnameAndPort
  -- the zone of an address keeps its case
  t.lower (before '%' host) ++ host.dropWhile (· ≠ '%')

/-- `port`: the outer `none` is a `ValueError`, the inner one no port. -/
def port (s : Split) : Option (Option Nat) :=
  let hostnameAndPort := behindLast '@' s.netloc
  let text := behind ':'
    (if hostnameAndPort.contains '[' then behind ']' (behind '[' hostnameAndPort)
      else hostnameAndPort)
  let number := text.foldl (fun n c => n * 10 + (c.toNat - 0x30)) 0
  if text.isEmpty then some none
  else if text.all Char.isDigit && number ≤ 65535 then some (some number) else none

end Split

/-! ## 3. `unquote` -/

def hexValue (c : Char) : Option Nat :=
  if c.isDigit then some (c.toNat - 0x30)
  else if 'a' ≤ c && c ≤ 'f' then some (c.toNat - 0x57)
  else if 'A' ≤ c && c ≤ 'F' then some (c.toNat - 0x37)
  else none

/-- A byte of the ASCII runs of a text, or a character beyond ASCII. -/
inductive Piece
  | byte (b : Nat)
  | char (c : Char)

def Piece.of (c : Char) : Piece := if c.toNat < 0x80 then .byte c.toNat else .char c

/-- `unquote_to_bytes` of the ASCII runs. -/
def pieces : Text → List Piece
  | '%' :: a :: b :: rest =>
    match hexValue a, hexValue b with
    | some high, some low => .byte (high * 16 + low) :: pieces rest
    | _, _ => .byte 0x25 :: pieces (a :: b :: rest)
  | c :: rest => .of c :: pieces rest
  | [] => []

/-- Where a UTF-8 decoder stands: what it expects next, with the bits that it has read. -/
inductive Utf8
  | start
  | tail (more bits : Nat)
  | afterE0
  | afterED
  | afterF0
  | afterF4

def replacement : Char := Char.ofNat 0xfffd

def Utf8.continued (more bits b : Nat) : Utf8 × List Char :=
  let bits := bits * 64 + (b - 0x80)
  match more with
  | 0 => (.start, [Char.ofNat bits])
  | more + 1 => (.tail more bits, [])

/-- The next byte of a character; `none` where it cannot be one. -/
def Utf8.expected : Utf8 → Nat → Option (Utf8 × List Char)
  | .start, _ => none
  | .tail more bits, b => if 0x80 ≤ b && b ≤ 0xbf then some (continued more bits b) else none
  | .afterE0, b => if 0xa0 ≤ b && b ≤ 0xbf then some (continued 1 0 b) else none
  | .afterED, b => if 0x80 ≤ b && b ≤ 0x9f then some (continued 1 0xd b) else none
  | .afterF0, b => if 0x90 ≤ b && b ≤ 0xbf then some (continued 2 0 b) else none
  | .afterF4, b => if 0x80 ≤ b && b ≤ 0x8f then some (continued 2 4 b) else none

/-- The first byte of a character. -/
def Utf8.first (b : Nat) : Utf8 × List Char :=
  if b < 0x80 then (.start, [Char.ofNat b])
  else if 0xc2 ≤ b && b ≤ 0xdf then (.tail 0 (b - 0xc0), [])
  else if b = 0xe0 then (.afterE0, [])
  else if b = 0xed then (.afterED, [])
  else if 0xe1 ≤ b && b ≤ 0xef then (.tail 1 (b - 0xe0), [])
  else if b = 0xf0 then (.afterF0, [])
  else if 0xf1 ≤ b && b ≤ 0xf3 then (.tail 2 (b - 0xf0), [])
  else if b = 0xf4 then (.afterF4, [])
  else (.start, [replacement])

/-- What replaces a character that was not finished. -/
def Utf8.flush : Utf8 → List Char
  | .start => []
  | _ => [replacement]

/-- `bytes.decode("utf-8", "replace")` of each run of bytes. -/
def decode : Utf8 → List Piece → Text
  | state, [] => state.flush
  | state, .char c :: rest => state.flush ++ c :: decode .start rest
  | state, .byte b :: rest =>
    match state.expected b with
    | some (next, out) => out ++ decode next rest
    | none => state.flush ++ ((Utf8.first b).2 ++ decode (Utf8.first b).1 rest)

def unquote (text : Text) : Text := decode .start (pieces text)

/-- `text.split(c)`. -/
def splitOn (c : Char) : Text → List Text
  | [] => [[]]
  | d :: rest =>
    if d = c then [] :: splitOn c rest
    else match splitOn c rest with
      | [] => [[d]]
      | first :: others => (d :: first) :: others

/-- The names of `parse_qsl(query, keep_blank_values=True)`. -/
def queryNames (query : Text) : List Text :=
  ((splitOn '&' query).filter fun field => !field.isEmpty).map fun field =>
    unquote ((before '=' field).map fun c => if c = '+' then ' ' else c)

/-! ## 4. Texts with closing punctuation behind them -/

/-- A character that ends no escape, no user name, no path and no fragment. -/
def closing (c : Char) : Bool :=
  c ≠ '%' && (hexValue c).isNone && c ≠ '@' && c ≠ '#' && c ≠ '/' && c ≠ '['

/-- The longer text is the shorter one and closing punctuation. -/
def ClosedBy (short long : Text) : Prop := ∃ q, (∀ c ∈ q, closing c = true) ∧ long = short ++ q

theorem ClosedBy.refl (text : Text) : ClosedBy text text :=
  ⟨[], fun _ hc => absurd hc List.not_mem_nil, (List.append_nil text).symm⟩

theorem closing_facts {c : Char} (h : closing c = true) :
    c ≠ '%' ∧ hexValue c = none ∧ c ≠ '@' ∧ c ≠ '#' ∧ c ≠ '/' ∧ c ≠ '[' := by
  simpa [closing, and_assoc] using h

theorem ClosedBy.takeWhile {short long : Text} (h : ClosedBy short long) (p : Char → Bool) :
    ClosedBy (short.takeWhile p) (long.takeWhile p) := by
  obtain ⟨q, hq, rfl⟩ := h
  rw [List.takeWhile_append]
  split
  · rename_i hall
    have hsame : short.takeWhile p = short :=
      (List.takeWhile_prefix p).eq_of_length hall
    rw [hsame]
    exact ⟨q.takeWhile p, fun c hc => hq c ((List.takeWhile_sublist p).subset hc), rfl⟩
  · exact .refl _

theorem ClosedBy.dropWhile {short long : Text} (h : ClosedBy short long) (p : Char → Bool) :
    ClosedBy (short.dropWhile p) (long.dropWhile p) := by
  obtain ⟨q, hq, rfl⟩ := h
  rw [List.dropWhile_append]
  split
  · rename_i hnone
    rw [List.isEmpty_iff.mp hnone]
    exact ⟨q.dropWhile p, fun c hc => hq c ((List.dropWhile_sublist p).subset hc), rfl⟩
  · exact ⟨q, hq, rfl⟩

theorem ClosedBy.drop {short long : Text} (h : ClosedBy short long) (n : Nat) :
    ClosedBy (short.drop n) (long.drop n) := by
  obtain ⟨q, hq, rfl⟩ := h
  rw [List.drop_append]
  exact ⟨q.drop (n - short.length), fun c hc => hq c (List.mem_of_mem_drop hc), rfl⟩

theorem ClosedBy.before {short long : Text} (h : ClosedBy short long) (c : Char) :
    ClosedBy (before c short) (before c long) :=
  h.takeWhile _

theorem ClosedBy.behind {short long : Text} (h : ClosedBy short long) (c : Char) :
    ClosedBy (behind c short) (behind c long) :=
  (h.dropWhile _).drop 1

theorem ClosedBy.mem {short long : Text} (h : ClosedBy short long) {c : Char} (hc : c ∈ short) :
    c ∈ long := by
  obtain ⟨q, -, rfl⟩ := h
  exact List.mem_append_left q hc

theorem ClosedBy.length_le {short long : Text} (h : ClosedBy short long) :
    short.length ≤ long.length := by
  obtain ⟨q, -, rfl⟩ := h
  rw [List.length_append]
  exact Nat.le_add_right _ _

/-- A bracket that opens is never cut off. -/
theorem ClosedBy.mem_open {short long : Text} (h : ClosedBy short long) :
    '[' ∈ short ↔ '[' ∈ long := by
  obtain ⟨q, hq, rfl⟩ := h
  rw [List.mem_append]
  constructor
  · exact .inl
  · rintro (hshort | hmem)
    · exact hshort
    · exact absurd rfl (closing_facts (hq '[' hmem)).2.2.2.2.2

theorem ClosedBy.beforeLast {short long : Text} (h : ClosedBy short long) :
    beforeLast '@' long = beforeLast '@' short := by
  obtain ⟨q, hq, rfl⟩ := h
  unfold Url.beforeLast
  rw [List.reverse_append, List.dropWhile_append_of_pos]
  intro c hc
  simpa using (closing_facts (hq c (List.mem_reverse.mp hc))).2.2.1

theorem ClosedBy.behindLast {short long : Text} (h : ClosedBy short long) :
    ClosedBy (behindLast '@' short) (behindLast '@' long) := by
  obtain ⟨q, hq, rfl⟩ := h
  refine ⟨q, hq, ?_⟩
  unfold Url.behindLast
  rw [List.reverse_append, List.takeWhile_append_of_pos, List.reverse_append, List.reverse_reverse]
  intro c hc
  simpa using (closing_facts (hq c (List.mem_reverse.mp hc))).2.2.1

theorem ClosedBy.splitRest {short long : Text} (h : ClosedBy short long) (scheme netloc : Text) :
    ClosedBy (splitRest scheme netloc short).path (splitRest scheme netloc long).path ∧
      ClosedBy (splitRest scheme netloc short).query (splitRest scheme netloc long).query ∧
      ClosedBy (splitRest scheme netloc short).fragment (splitRest scheme netloc long).fragment :=
  ⟨(h.before '#').before '?', (h.before '#').behind '?', h.behind '#'⟩

/-! ### Escapes -/

theorem pieces_cons {c : Char} (h : c ≠ '%') (rest : Text) :
    pieces (c :: rest) = .of c :: pieces rest := by
  rw [pieces]
  intro _ _ _ hpercent _
  exact h hpercent

/-- A percent sign without two hexadecimal digits behind it stands for itself. -/
theorem pieces_percent {rest : Text} (h : ∀ a b more, rest = a :: b :: more →
    hexValue a = none ∨ hexValue b = none) : pieces ('%' :: rest) = .byte 0x25 :: pieces rest := by
  match rest with
  | [] => rfl
  | [a] => rfl
  | a :: b :: more =>
    rw [pieces]
    rcases h a b more rfl with hnone | hnone
    · rw [hnone]
    · rw [hnone]
      cases hexValue a <;> rfl

/-- The same where one of the two characters behind the sign is no digit. -/
theorem pieces_percent_of_none {a b : Char}
    (h : ∀ high low, hexValue a = some high → hexValue b = some low → False) (rest : Text) :
    pieces ('%' :: a :: b :: rest) = .byte 0x25 :: pieces (a :: b :: rest) := by
  apply pieces_percent
  intro x y tail heq
  injection heq with ha htail
  injection htail with hb _
  rw [← ha, ← hb]
  cases hx : hexValue a with
  | none => exact .inl rfl
  | some high =>
    cases hy : hexValue b with
    | none => exact .inr rfl
    | some low => exact (h high low hx hy).elim

theorem pieces_of_closing {q : Text} (h : ∀ c ∈ q, closing c = true) :
    pieces q = q.map Piece.of := by
  induction q with
  | nil => rfl
  | cons c q ih =>
    have hc := (closing_facts (h c List.mem_cons_self)).1
    rw [pieces_cons hc, ih fun d hd => h d (List.mem_cons_of_mem c hd)]
    rfl

/-- No escape reaches past a character that is no hexadecimal digit. -/
theorem pieces_append_of_head (text : Text) {q : Text} (h : ∀ c ∈ q.head?, hexValue c = none) :
    pieces (text ++ q) = pieces text ++ pieces q := by
  induction text using pieces.induct with
  | case1 a b rest high low hhigh hlow ih =>
    show pieces ('%' :: a :: b :: (rest ++ q)) = _
    rw [pieces, pieces, hhigh, hlow]
    show _ :: pieces (rest ++ q) = _
    rw [ih]
    rfl
  | case2 a b rest hnone ih =>
    show pieces ('%' :: a :: b :: (rest ++ q)) = _
    rw [pieces_percent_of_none hnone, pieces_percent_of_none hnone]
    exact congrArg _ ih
  | case3 c rest hplain ih =>
    show pieces (c :: (rest ++ q)) = _
    by_cases hc : c = '%'
    · -- fewer than two characters stand behind the percent sign, so `q` starts within two of it
      have hbehind : ∀ a b more, rest ++ q = a :: b :: more →
          hexValue a = none ∨ hexValue b = none := by
        intro a b more heq
        match rest with
        | [] =>
          rw [List.nil_append] at heq
          exact .inl (h a (by rw [heq]; rfl))
        | [x] =>
          have hq : q = b :: more := (List.cons.inj heq).2
          exact .inr (h b (by rw [hq]; rfl))
        | x :: y :: tail => exact (hplain x y tail hc rfl).elim
      have hshort : ∀ a b more, rest = a :: b :: more → hexValue a = none ∨ hexValue b = none :=
        fun a b more heq => (hplain a b more hc heq).elim
      rw [hc, pieces_percent hbehind, pieces_percent hshort, ih]
      rfl
    · rw [pieces_cons hc, pieces_cons hc, ih]
      rfl
  | case4 => rfl

/-- No escape reaches into closing punctuation. -/
theorem pieces_append (text : Text) {q : Text} (h : ∀ c ∈ q, closing c = true) :
    pieces (text ++ q) = pieces text ++ q.map Piece.of := by
  have hhead : ∀ c ∈ q.head?, hexValue c = none :=
    fun c hc => (closing_facts (h c (List.mem_of_mem_head? hc))).2.1
  rw [pieces_append_of_head text hhead, pieces_of_closing h]

theorem Utf8.expected_ascii (state : Utf8) {b : Nat} (h : b < 0x80) : state.expected b = none := by
  cases state with
  | start => rfl
  | tail more bits => exact if_neg (by simp; omega)
  | afterE0 => exact if_neg (by simp; omega)
  | afterED => exact if_neg (by simp; omega)
  | afterF0 => exact if_neg (by simp; omega)
  | afterF4 => exact if_neg (by simp; omega)

/-- A character of the text ends an unfinished one. -/
theorem decode_of (state : Utf8) (c : Char) (rest : List Piece) :
    decode state (.of c :: rest) = state.flush ++ c :: decode .start rest := by
  unfold Piece.of
  split
  · rename_i hascii
    have hfirst : Utf8.first c.toNat = (.start, [c]) := by
      unfold Utf8.first
      rw [if_pos hascii, Char.ofNat_toNat]
    rw [decode, Utf8.expected_ascii state hascii, hfirst]
    rfl
  · rfl

theorem decode_map_of (state : Utf8) (q : Text) :
    decode state (q.map Piece.of) = state.flush ++ q := by
  induction q generalizing state with
  | nil => rw [List.map_nil, decode, List.append_nil]
  | cons c q ih => rw [List.map_cons, decode_of, ih]; rfl

theorem decode_append (state : Utf8) (ps : List Piece) (q : Text) :
    decode state (ps ++ q.map Piece.of) = decode state ps ++ q := by
  induction ps generalizing state with
  | nil => exact decode_map_of state q
  | cons piece ps ih =>
    cases piece with
    | char c =>
      show state.flush ++ c :: decode .start (ps ++ q.map Piece.of) = _
      rw [ih, decode, List.append_assoc]
      rfl
    | byte b =>
      show decode state (.byte b :: (ps ++ q.map Piece.of)) = _
      rw [decode, decode]
      cases state.expected b with
      | some moved => simp only [ih, List.append_assoc]
      | none => simp only [ih, List.append_assoc]

theorem ClosedBy.unquote {short long : Text} (h : ClosedBy short long) :
    ∃ q, (∀ c ∈ q, closing c = true) ∧ long = short ++ q ∧
      Url.unquote long = Url.unquote short ++ q := by
  obtain ⟨q, hq, rfl⟩ := h
  refine ⟨q, hq, rfl, ?_⟩
  unfold Url.unquote
  rw [pieces_append short hq, decode_append]

/-! ### The netloc -/

theorem mem_around_last {c d : Char} {text : Text} (h : d ∈ text) (hne : d ≠ c) :
    d ∈ beforeLast c text ∨ d ∈ behindLast c text := by
  unfold beforeLast behindLast
  rw [List.mem_reverse, List.mem_reverse]
  have hmem : d ∈ text.reverse.takeWhile (· ≠ c) ++ text.reverse.dropWhile (· ≠ c) := by
    rw [List.takeWhile_append_dropWhile]
    exact List.mem_reverse.mpr h
  rcases List.mem_append.mp hmem with hbehind | hdrop
  · exact .inr hbehind
  · left
    have hhead := List.head?_dropWhile_not (fun x => decide (x ≠ c)) text.reverse
    cases hcut : text.reverse.dropWhile (fun x => decide (x ≠ c)) with
    | nil =>
      rw [hcut] at hdrop
      cases hdrop
    | cons x rest =>
      rw [hcut] at hdrop hhead
      have hx : x = c := by simpa using hhead
      rcases List.mem_cons.mp hdrop with hd | hrest
      · exact absurd (hd.trans hx) hne
      · exact hrest

theorem userinfo_of_no_credentials {s : Split} (h : s.hasCredentials = false) :
    ∀ c ∈ s.userinfo, c = ':' := by
  have hempty : s.username = [] ∧ s.password = [] := by
    simpa [Split.hasCredentials] using h
  intro c hc
  by_contra hne
  have hsplit : s.username ++ s.userinfo.dropWhile (· ≠ ':') = s.userinfo :=
    List.takeWhile_append_dropWhile
  rw [hempty.1, List.nil_append] at hsplit
  have hpassword := hempty.2
  unfold Split.password behind at hpassword
  rw [hsplit] at hpassword
  cases huser : s.userinfo with
  | nil =>
    rw [huser] at hc
    cases hc
  | cons d rest =>
    rw [huser] at hc hpassword hsplit
    have hrest : rest = [] := hpassword
    have hd : d = ':' := by
      have hhead := List.head?_dropWhile_not (fun x => decide (x ≠ ':')) (d :: rest)
      rw [hsplit] at hhead
      simpa using hhead
    rw [hrest, List.mem_singleton] at hc
    exact hne (hc.trans hd)

theorem netlocAccepted_iff {t : Tables} {netloc : Text} :
    netlocAccepted t netloc = true ↔ ('[' ∈ netloc ↔ ']' ∈ netloc) ∧
      ('[' ∈ netloc → checkBracketedNetloc t netloc = true) ∧ checkNetloc t netloc = true := by
  unfold netlocAccepted
  rw [Bool.and_eq_true, Bool.and_eq_true, and_assoc, beq_iff_eq, Bool.eq_iff_iff,
    List.contains_iff_mem, List.contains_iff_mem]
  apply and_congr_right
  intro _
  apply and_congr_left
  intro _
  rw [Bool.or_eq_true, Bool.not_eq_true', ← Bool.not_eq_true, List.contains_iff_mem]
  exact imp_iff_not_or.symm

theorem ClosedBy.checkNetloc {t : Tables} {short long : Text} (h : ClosedBy short long)
    (hlong : checkNetloc t long = true) : Url.checkNetloc t short = true := by
  unfold Url.checkNetloc at hlong ⊢
  rw [Bool.not_eq_true', List.any_eq_false] at hlong ⊢
  exact fun c hc => hlong c (h.mem hc)

theorem checkBrackets_iff {t : Tables} {hostnameAndPort : Text} :
    checkBrackets t hostnameAndPort = true ↔ before '[' hostnameAndPort = [] ∧
      (behind ']' (behind '[' hostnameAndPort) = [] ∨
        (behind ']' (behind '[' hostnameAndPort)).head? = some ':') ∧
      t.bracketedHost (before ']' (behind '[' hostnameAndPort)) = true := by
  simp [checkBrackets, and_assoc]

theorem before_append {c : Char} {text : Text} (h : c ∈ text) (rest : Text) :
    before c (text ++ rest) = before c text := by
  unfold before
  rw [List.takeWhile_append, if_neg]
  intro hall
  have hsame := (List.takeWhile_prefix (p := (· ≠ c)) (l := text)).eq_of_length hall
  rw [← hsame] at h
  simpa using List.mem_takeWhile_imp h

theorem behind_append {c : Char} {text : Text} (h : c ∈ text) (rest : Text) :
    behind c (text ++ rest) = behind c text ++ rest := by
  unfold behind
  cases hcut : text.dropWhile (· ≠ c) with
  | nil =>
    have hall := List.dropWhile_eq_nil_iff.mp hcut c h
    simp at hall
  | cons d tail =>
    rw [List.dropWhile_append, hcut, if_neg (by simp)]
    rfl

/-- Where nothing stands before a character, all others stand behind it. -/
theorem mem_behind_of_before {c d : Char} {text : Text} (hfront : before c text = [])
    (hne : d ≠ c) (hmem : d ∈ text) : d ∈ behind c text := by
  unfold before at hfront
  cases text with
  | nil => cases hmem
  | cons e rest =>
    by_cases he : e = c
    · have hrest : d ∈ rest := by
        rcases List.mem_cons.mp hmem with heq | hrest
        · exact absurd (heq.trans he) hne
        · exact hrest
      unfold behind
      rw [List.dropWhile_cons_of_neg (by simpa using he)]
      exact hrest
    · rw [List.takeWhile_cons_of_pos (by simpa using he)] at hfront
      cases hfront

/-- The host between the brackets is the same where the closing one is kept. -/
theorem ClosedBy.checkBrackets {t : Tables} {short long : Text} (h : ClosedBy short long)
    (hopen : '[' ∈ short) (hclose : ']' ∈ short) (hlong : checkBrackets t long = true) :
    Url.checkBrackets t short = true := by
  obtain ⟨q, -, rfl⟩ := h
  obtain ⟨hfront, hport, haddress⟩ := checkBrackets_iff.mp hlong
  rw [before_append hopen] at hfront
  have hinside := mem_behind_of_before hfront (by decide) hclose
  rw [behind_append hopen, behind_append hinside] at hport
  rw [behind_append hopen, before_append hinside] at haddress
  refine checkBrackets_iff.mpr ⟨hfront, ?_, haddress⟩
  cases hrest : Url.behind ']' (Url.behind '[' short) with
  | nil => exact .inl rfl
  | cons c rest =>
    rw [hrest] at hport
    rcases hport with hnil | hhead
    · cases hnil
    · exact .inr hhead

/-- Without credentials, a netloc that is accepted is also accepted without its closing
punctuation, unless that takes the bracket that closes its host. -/
theorem ClosedBy.netlocAccepted {t : Tables} {short : Text} {s : Split}
    (h : ClosedBy short s.netloc) (hlong : netlocAccepted t s.netloc = true)
    (hcredentials : s.hasCredentials = false) :
    Url.netlocAccepted t short = true ↔ ('[' ∈ short → ']' ∈ short) := by
  obtain ⟨hboth, hbrackets, hhidden⟩ := netlocAccepted_iff.mp hlong
  rw [netlocAccepted_iff]
  constructor
  · intro haccepted hopen
    exact haccepted.1.mp hopen
  · intro hkept
    have hiff : '[' ∈ short ↔ ']' ∈ short :=
      ⟨hkept, fun hclose => h.mem_open.mpr (hboth.mpr (h.mem hclose))⟩
    refine ⟨hiff, ?_, h.checkNetloc hhidden⟩
    intro hopen
    have huser : ∀ c ∈ Url.beforeLast '@' short, c = ':' := by
      intro c hc
      rw [← h.beforeLast] at hc
      exact userinfo_of_no_credentials hcredentials c hc
    have hhost : ∀ c, c ≠ '@' → c ≠ ':' → c ∈ short → c ∈ Url.behindLast '@' short := by
      intro c hat hcolon hc
      rcases mem_around_last hc hat with hin | hin
      · exact absurd (huser c hin) hcolon
      · exact hin
    have hopen' := hhost '[' (by decide) (by decide) hopen
    have hclose' := hhost ']' (by decide) (by decide) (hkept hopen)
    have hwhole := hbrackets (h.mem hopen)
    unfold checkBracketedNetloc at hwhole ⊢
    have hlast := h.behindLast
    simp only [List.contains_iff_mem.mpr hopen', List.contains_iff_mem.mpr (hlast.mem hopen'),
      if_true] at hwhole ⊢
    exact hlast.checkBrackets hopen' hclose' hwhole

/-! ## 5. Web addresses -/

/-- `//`, behind the colon of a scheme. -/
def slashes : Text := [':', '/', '/']

/-- The netloc of a URL and what follows it, where the URL is a scheme, a colon and two slashes. -/
def netlocOf (url : Text) : Text := ((behind ':' url).drop 2).takeWhile netlocChar
def restOf (url : Text) : Text := ((behind ':' url).drop 2).dropWhile netlocChar

theorem startsWithLower_append {word text : Text} (h : startsWithLower word text = true)
    (rest : Text) : startsWithLower word (text ++ rest) = true := by
  induction word generalizing text with
  | nil => cases text <;> cases rest <;> rfl
  | cons c word ih =>
    cases text with
    | nil => cases h
    | cons d text =>
      have hboth := Bool.and_eq_true_iff.mp h
      exact Bool.and_eq_true_iff.mpr ⟨hboth.1, ih hboth.2⟩

/-- The letters of a scheme stand for themselves and their upper case. -/
def Letters (scheme : Text) : Prop :=
  scheme ≠ [] ∧ ∀ c ∈ scheme, c.isAlpha = true ∧ c.toUpper.isAlpha = true

theorem startsWithLower_split {scheme text : Text}
    (hscheme : ∀ c ∈ scheme, c.isAlpha = true ∧ c.toUpper.isAlpha = true)
    (h : startsWithLower (scheme ++ slashes) text = true) :
    ∃ front rest, text = front ++ ':' :: '/' :: '/' :: rest ∧ front.length = scheme.length ∧
      ∀ c ∈ front, c.isAlpha = true := by
  induction scheme generalizing text with
  | nil =>
    refine ⟨[], text.drop 3, ?_, rfl, fun _ hc => absurd hc List.not_mem_nil⟩
    match text with
    | [] => cases h
    | [c] => simp [slashes, startsWithLower] at h
    | [c, d] => simp [slashes, startsWithLower] at h
    | c :: d :: e :: rest =>
      have hsame : (c = ':' ∧ d = '/') ∧ e = '/' := by
        simpa [slashes, startsWithLower, and_assoc] using h
      rw [hsame.1.1, hsame.1.2, hsame.2]
      rfl
  | cons c scheme ih =>
    cases text with
    | nil => cases h
    | cons d text =>
      have hboth := Bool.and_eq_true_iff.mp h
      obtain ⟨front, rest, htext, hlength, halpha⟩ :=
        ih (fun e he => hscheme e (List.mem_cons_of_mem c he)) hboth.2
      refine ⟨d :: front, rest, congrArg _ htext, congrArg (· + 1) hlength, ?_⟩
      intro e he
      rcases List.mem_cons.mp he with rfl | hmem
      · have hc := hscheme c List.mem_cons_self
        rcases Bool.or_eq_true_iff.mp hboth.1 with hsame | hupper
        · rw [of_decide_eq_true hsame]
          exact hc.1
        · rw [of_decide_eq_true hupper]
          exact hc.2
      · exact halpha e hmem

theorem ne_of_isAlpha {c d : Char} (hc : c.isAlpha = true) (hd : d.isAlpha = false) : c ≠ d := by
  intro heq
  rw [heq, hd] at hc
  cases hc

theorem isAlpha_gt_blank {c : Char} (h : c.isAlpha = true) : ¬ c.toNat ≤ 0x20 := by
  change (decide (c.val ≥ 'A'.val ∧ c.val ≤ 'Z'.val) ||
    (decide (c.val ≥ 'a'.val) && decide (c.val ≤ 'z'.val))) = true at h
  simp [UInt32.le_iff_toNat_le] at h
  omega

theorem urlsplit_web {t : Tables} {scheme url : Text} (hscheme : Letters scheme)
    (hweb : startsWithLower (scheme ++ slashes) url = true)
    (hclean : ∀ c ∈ url, c ≠ '\t' ∧ c ≠ '\r' ∧ c ≠ '\n') :
    urlsplit t url = if netlocAccepted t (netlocOf url) then
      some (splitRest ((before ':' url).map Char.toLower) (netlocOf url) (restOf url))
    else none := by
  obtain ⟨front, rest, htext, hlength, halpha⟩ := startsWithLower_split hscheme.2 hweb
  have hcolon : before ':' url = front := by
    unfold before
    rw [htext, List.takeWhile_append_of_pos]
    · simp
    · intro c hc
      simpa using ne_of_isAlpha (halpha c hc) rfl
  have hbehind : behind ':' url = '/' :: '/' :: rest := by
    unfold behind
    rw [htext, List.dropWhile_append_of_pos]
    · simp
    · intro c hc
      simpa using ne_of_isAlpha (halpha c hc) rfl
  obtain ⟨c, front', rfl⟩ : ∃ c front', front = c :: front' := by
    cases front with
    | nil => exact absurd (List.length_eq_zero_iff.mp hlength.symm) hscheme.1
    | cons c front' => exact ⟨c, front', rfl⟩
  have hcleaned : cleaned url = url := by
    unfold cleaned
    have hkept : url.dropWhile (fun c => decide (c.toNat ≤ 0x20)) = url := by
      rw [htext]
      exact List.dropWhile_cons_of_neg
        (by simpa using isAlpha_gt_blank (halpha c List.mem_cons_self))
    rw [hkept, List.filter_eq_self]
    intro d hd
    simpa [and_assoc] using hclean d hd
  have hsplit : splitScheme url = ((before ':' url).map Char.toLower, behind ':' url) := by
    unfold splitScheme
    rw [if_pos]
    rw [hcolon]
    have hmem : ':' ∈ url := by
      rw [htext]
      simp
    simp only [Bool.and_eq_true, List.contains_iff_mem, List.head?_cons, Option.any_some]
    refine ⟨⟨hmem, halpha c List.mem_cons_self⟩, ?_⟩
    apply List.all_eq_true.mpr
    intro d hd
    simp [schemeChar, Char.isAlphanum, halpha d hd]
  unfold urlsplit netlocOf restOf
  rw [hcleaned, hsplit, hbehind]
  rfl

/-- Two web addresses of which one is the other with closing punctuation behind it: where the
longer one is split and has no credentials, so is the shorter one, unless it has lost the bracket
that closes its host. -/
theorem ClosedBy.urlsplit {t : Tables} {scheme short long : Text} {s : Split}
    (h : ClosedBy short long) (hscheme : Letters scheme)
    (hweb : startsWithLower (scheme ++ slashes) short = true)
    (hclean : ∀ c ∈ long, c ≠ '\t' ∧ c ≠ '\r' ∧ c ≠ '\n')
    (hlong : urlsplit t long = some s) (hcredentials : s.hasCredentials = false) :
    if '[' ∈ netlocOf short → ']' ∈ netlocOf short then
      ∃ s', Url.urlsplit t short = some s' ∧ s'.hasCredentials = false ∧
        ClosedBy s'.path s.path ∧ ClosedBy s'.query s.query ∧ ClosedBy s'.fragment s.fragment
    else Url.urlsplit t short = none := by
  have hnetloc : ClosedBy (netlocOf short) (netlocOf long) :=
    ((h.behind ':').drop 2).takeWhile netlocChar
  have hrest : ClosedBy (restOf short) (restOf long) :=
    ((h.behind ':').drop 2).dropWhile netlocChar
  have hweb' : startsWithLower (scheme ++ slashes) long = true := by
    obtain ⟨q, -, rfl⟩ := h
    exact startsWithLower_append hweb q
  rw [urlsplit_web hscheme hweb' hclean] at hlong
  rw [urlsplit_web hscheme hweb fun c hc => hclean c (h.mem hc)]
  by_cases haccepted : Url.netlocAccepted t (netlocOf long) = true
  · rw [if_pos haccepted] at hlong
    have hs := Option.some.inj hlong
    have hsame : s.netloc = netlocOf long := by rw [← hs]; rfl
    have hiff := ClosedBy.netlocAccepted (hsame ▸ hnetloc) (hsame ▸ haccepted) hcredentials
    by_cases hkept : '[' ∈ netlocOf short → ']' ∈ netlocOf short
    · rw [if_pos hkept, if_pos (hiff.mpr hkept)]
      refine ⟨_, rfl, ?_, ?_⟩
      · rw [← hs] at hcredentials
        unfold Split.hasCredentials Split.username Split.password Split.userinfo at hcredentials ⊢
        change (!(Url.before ':' (Url.beforeLast '@' (netlocOf short))).isEmpty ||
          !(Url.behind ':' (Url.beforeLast '@' (netlocOf short))).isEmpty) = false
        rw [← hnetloc.beforeLast]
        exact hcredentials
      · rw [← hs]
        exact hrest.splitRest _ _
    · rw [if_neg hkept, if_neg (fun hacc => hkept (hiff.mp hacc))]
  · rw [if_neg haccepted] at hlong
    cases hlong

end Url
