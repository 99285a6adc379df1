import Mathlib.Data.List.Basic

/-!
# Pattern — finding and replacing the matches of a pattern in a text

A pattern says how far it matches from a position; it never matches the empty text.  Matches are
found from the left and do not overlap.
-/

set_option autoImplicit false

/-- How many more characters the match at a position takes, from the character before it, its first
character and the rest of the text. -/
abbrev Pattern := Option Char → Char → List Char → Option Nat

namespace Pattern

/-- A piece of a text: a character outside of every match, or a match. -/
inductive Token
  | plain (c : Char)
  | found (text : List Char)

def Token.text : Token → List Char
  | .plain c => [c]
  | .found text => text

/-- The pieces of a text whose first `skip` characters belong to the last match. -/
def tokens (p : Pattern) : Nat → Option Char → List Char → List Token
  | _, _, [] => []
  | skip + 1, _, c :: rest => tokens p skip (some c) rest
  | 0, before, c :: rest =>
    match p before c rest with
    | none => .plain c :: tokens p 0 (some c) rest
    | some more => .found (c :: rest.take more) :: tokens p more (some c) rest

/-- `[m.group(0) for m in re.finditer(text)]`. -/
def findall (p : Pattern) (text : List Char) : List (List Char) :=
  (tokens p 0 none text).filterMap fun
    | .plain _ => none
    | .found m => some m

/-- `re.search(text) is not None`. -/
def search (p : Pattern) (text : List Char) : Bool := !(findall p text).isEmpty

def Token.replaced (f : List Char → List Char) : Token → List Char
  | .plain c => [c]
  | .found m => f m

/-- `re.sub(f, text)`. -/
def sub (p : Pattern) (f : List Char → List Char) (text : List Char) : List Char :=
  (tokens p 0 none text).flatMap (Token.replaced f)

/-! ## Replacing -/

theorem mem_findall {p : Pattern} {text m : List Char} :
    m ∈ findall p text ↔ Token.found m ∈ tokens p 0 none text := by
  unfold findall
  rw [List.mem_filterMap]
  constructor
  · rintro ⟨token, htoken, heq⟩
    cases token with
    | plain c => cases heq
    | found m' => rwa [← Option.some.inj heq]
  · exact fun h => ⟨.found m, h, rfl⟩

/-- A match is what the pattern takes at some position of the text. -/
theorem found_of_mem_tokens {p : Pattern} {skip : Nat} {start : Option Char} {text m : List Char}
    (h : Token.found m ∈ tokens p skip start text) :
    ∃ before c rest more, p before c rest = some more ∧ m = c :: rest.take more := by
  induction text generalizing skip start with
  | nil => cases h
  | cons c rest ih =>
    cases skip with
    | succ skip => exact ih h
    | zero =>
      simp only [tokens] at h
      cases hp : p start c rest with
      | none =>
        rw [hp] at h
        rcases List.mem_cons.mp h with heq | hrest
        · cases heq
        · exact ih hrest
      | some more =>
        rw [hp] at h
        rcases List.mem_cons.mp h with heq | hrest
        · injection heq with heq
          exact ⟨start, c, rest, more, hp, heq⟩
        · exact ih hrest

/-- The pieces make up the text. -/
theorem flatMap_tokens (p : Pattern) (skip : Nat) (before : Option Char) (text : List Char) :
    (tokens p skip before text).flatMap Token.text = text.drop skip := by
  induction text generalizing skip before with
  | nil => simp [tokens]
  | cons c rest ih =>
    cases skip with
    | succ skip => exact ih skip (some c)
    | zero =>
      simp only [tokens]
      cases p before c rest with
      | none => simpa [Token.text] using ih 0 (some c)
      | some more =>
        rw [List.flatMap_cons, ih more (some c)]
        show c :: rest.take more ++ rest.drop more = c :: rest
        rw [List.cons_append, List.take_append_drop]

theorem sub_eq_self {p : Pattern} {f : List Char → List Char} {text : List Char}
    (h : ∀ m ∈ findall p text, f m = m) : sub p f text = text := by
  have hpieces : sub p f text = (tokens p 0 none text).flatMap Token.text := by
    apply List.flatMap_congr
    intro token htoken
    cases token with
    | plain c => rfl
    | found m => exact h m (mem_findall.mpr htoken)
  rw [hpieces]
  exact flatMap_tokens p 0 none text

theorem sub_of_not_search {p : Pattern} {f : List Char → List Char} {text : List Char}
    (h : search p text = false) : sub p f text = text := by
  apply sub_eq_self
  intro m hm
  have hnone : findall p text = [] := by simpa [search] using h
  rw [hnone] at hm
  cases hm

theorem length_flatMap_le {α : Type*} {f g : α → List Char} {l : List α}
    (hle : ∀ a ∈ l, (f a).length ≤ (g a).length) : (l.flatMap f).length ≤ (l.flatMap g).length := by
  induction l with
  | nil => simp
  | cons a l ih =>
    have hfirst := hle a List.mem_cons_self
    have hrest := ih fun b hb => hle b (List.mem_cons_of_mem a hb)
    rw [List.flatMap_cons, List.flatMap_cons, List.length_append, List.length_append]
    omega

/-- Pieces none of which grows keep their lengths where the whole does. -/
theorem length_eq_of_flatMap {α : Type*} {f g : α → List Char} {l : List α}
    (hle : ∀ a ∈ l, (f a).length ≤ (g a).length)
    (heq : (l.flatMap f).length = (l.flatMap g).length) :
    ∀ a ∈ l, (f a).length = (g a).length := by
  induction l with
  | nil => simp
  | cons a l ih =>
    have hfirst := hle a List.mem_cons_self
    have hrest : ∀ b ∈ l, (f b).length ≤ (g b).length :=
      fun b hb => hle b (List.mem_cons_of_mem a hb)
    have hwhole := length_flatMap_le hrest
    rw [List.flatMap_cons, List.flatMap_cons, List.length_append, List.length_append] at heq
    intro b hb
    rcases List.mem_cons.mp hb with rfl | hmem
    · omega
    · exact ih hrest (by omega) b hmem

/-- Where a replacement that is not the match itself is shorter, an unchanged text has had none. -/
theorem eq_of_sub_eq_self {p : Pattern} {f : List Char → List Char} {text : List Char}
    (hshort : ∀ m ∈ findall p text, f m = m ∨ (f m).length < m.length)
    (h : sub p f text = text) : ∀ m ∈ findall p text, f m = m := by
  have hle : ∀ token ∈ tokens p 0 none text, (token.replaced f).length ≤ token.text.length := by
    intro token htoken
    cases token with
    | plain c => exact Nat.le_refl 1
    | found m =>
      show (f m).length ≤ m.length
      rcases hshort m (mem_findall.mpr htoken) with heq | hlt
      · exact Nat.le_of_eq (congrArg List.length heq)
      · exact Nat.le_of_lt hlt
  have hwhole : ((tokens p 0 none text).flatMap (Token.replaced f)).length =
      ((tokens p 0 none text).flatMap Token.text).length := by
    rw [flatMap_tokens]
    exact congrArg List.length h
  intro m hm
  have hsame : (f m).length = m.length :=
    length_eq_of_flatMap hle hwhole (.found m) (mem_findall.mp hm)
  rcases hshort m hm with heq | hlt
  · exact heq
  · omega

end Pattern
