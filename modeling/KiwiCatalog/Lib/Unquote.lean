import KiwiCatalog.Lib.Query
import Mathlib.Logic.Function.Iterate

/-!
# Unquote — decoding percent escapes again and again

A text is decoded until decoding no longer changes it.  A character that is neither a percent sign
nor a hexadecimal digit parts what stands before it from what stands behind it, so what is written
out without escapes stays through every pass.
-/

set_option autoImplicit false

namespace Url

/-! ## 1. One pass -/

theorem decode_append_of (state : Utf8) (ps : List Piece) (c : Char) (qs : List Piece) :
    decode state (ps ++ .of c :: qs) = decode state ps ++ c :: decode .start qs := by
  induction ps generalizing state with
  | nil => exact decode_of state c qs
  | cons piece ps ih =>
    cases piece with
    | char d =>
      show state.flush ++ d :: decode .start (ps ++ .of c :: qs) = _
      rw [ih, decode, List.append_assoc]
      rfl
    | byte b =>
      show decode state (.byte b :: (ps ++ .of c :: qs)) = _
      rw [decode, decode]
      cases state.expected b with
      | some moved => simp only [ih, List.append_assoc]
      | none => simp only [ih, List.append_assoc]

theorem unquote_cons {c : Char} (h : c ≠ '%') (text : Text) :
    unquote (c :: text) = c :: unquote text := by
  unfold unquote
  rw [pieces_cons h, decode_of]
  rfl

/-- Neither a percent sign nor a hexadecimal digit. -/
def parts (c : Char) : Bool := c ≠ '%' && (hexValue c).isNone

theorem unquote_append_cons {c : Char} (h : parts c = true) (front rest : Text) :
    unquote (front ++ c :: rest) = unquote front ++ c :: unquote rest := by
  have hfacts : c ≠ '%' ∧ hexValue c = none := by
    simpa [parts] using h
  have hhead : ∀ d ∈ (c :: rest).head?, hexValue d = none := by
    intro d hd
    rw [← Option.some.inj hd]
    exact hfacts.2
  unfold unquote
  rw [pieces_append_of_head front hhead, pieces_cons hfacts.1, decode_append_of]

theorem unquote_of_no_percent {text : Text} (h : '%' ∉ text) : unquote text = text := by
  induction text with
  | nil => rfl
  | cons c rest ih =>
    have hc : c ≠ '%' := fun heq => h (heq ▸ List.mem_cons_self)
    rw [unquote_cons hc, ih fun hmem => h (List.mem_cons_of_mem c hmem)]

theorem length_pieces_le (text : Text) : (pieces text).length ≤ text.length := by
  induction text using pieces.induct with
  | case1 a b rest high low hhigh hlow ih =>
    rw [pieces, hhigh, hlow]
    show (pieces rest).length + 1 ≤ rest.length + 3
    omega
  | case2 a b rest hnone ih =>
    rw [pieces_percent_of_none hnone]
    exact Nat.succ_le_succ ih
  | case3 c rest hplain ih =>
    by_cases hc : c = '%'
    · rw [hc, pieces_percent fun a b more heq => (hplain a b more hc heq).elim]
      exact Nat.succ_le_succ ih
    · rw [pieces_cons hc]
      exact Nat.succ_le_succ ih
  | case4 => exact Nat.le_refl 0

theorem length_continued_le (more bits b : Nat) :
    (Utf8.continued more bits b).2.length + (Utf8.continued more bits b).1.flush.length ≤ 1 := by
  cases more with
  | zero => exact Nat.le_refl 1
  | succ more => exact Nat.le_refl 1

/-- A byte leads to one character, at once or when the next one is no part of it. -/
theorem length_first_le (b : Nat) :
    (Utf8.first b).2.length + (Utf8.first b).1.flush.length ≤ 1 := by
  unfold Utf8.first
  repeat (split; exact Nat.le_refl 1)
  exact Nat.le_refl 1

theorem length_of_continued {more bits b : Nat} {test : Bool} {next : Utf8} {out : List Char}
    (h : (if test then some (Utf8.continued more bits b) else none) = some (next, out)) :
    out.length + next.flush.length ≤ 1 := by
  have hle := length_continued_le more bits b
  cases test with
  | false => cases h
  | true =>
    rw [if_pos rfl] at h
    rw [Option.some.inj h] at hle
    exact hle

theorem length_expected_le {state next : Utf8} {b : Nat} {out : List Char}
    (h : state.expected b = some (next, out)) : out.length + next.flush.length ≤ 1 := by
  cases state with
  | start => cases h
  | tail more bits => exact length_of_continued h
  | afterE0 => exact length_of_continued h
  | afterED => exact length_of_continued h
  | afterF0 => exact length_of_continued h
  | afterF4 => exact length_of_continued h

/-- No piece becomes more than one character, and what was not finished becomes one more. -/
theorem length_decode_le (state : Utf8) (ps : List Piece) :
    (decode state ps).length ≤ ps.length + state.flush.length := by
  induction ps generalizing state with
  | nil =>
    rw [decode]
    exact Nat.le_add_left _ _
  | cons piece ps ih =>
    cases piece with
    | char c =>
      have hrest := ih .start
      rw [decode, List.length_append, List.length_cons, List.length_cons]
      change (decode .start ps).length ≤ ps.length + 0 at hrest
      omega
    | byte b =>
      rw [decode, List.length_cons]
      cases hexpected : state.expected b with
      | some moved =>
        have hstep := length_expected_le (show state.expected b = some (moved.1, moved.2) from
          hexpected)
        have hrest := ih moved.1
        show (moved.2 ++ decode moved.1 ps).length ≤ _
        rw [List.length_append]
        omega
      | none =>
        have hstep := length_first_le b
        have hrest := ih (Utf8.first b).1
        show (state.flush ++ ((Utf8.first b).2 ++ decode (Utf8.first b).1 ps)).length ≤ _
        rw [List.length_append, List.length_append]
        omega

theorem length_unquote_le (text : Text) : (unquote text).length ≤ text.length := by
  have hdecode := length_decode_le .start (pieces text)
  have hpieces := length_pieces_le text
  change (unquote text).length ≤ (pieces text).length + 0 at hdecode
  omega

theorem length_iterate_unquote_le (k : Nat) (text : Text) :
    (unquote^[k] text).length ≤ text.length := by
  induction k generalizing text with
  | zero => exact Nat.le_refl _
  | succ k ih => exact Nat.le_trans (ih (unquote text)) (length_unquote_le text)

theorem iterate_unquote_append {c : Char} (h : parts c = true) (k : Nat) (front rest : Text) :
    unquote^[k] (front ++ c :: rest) = unquote^[k] front ++ c :: unquote^[k] rest := by
  induction k generalizing front rest with
  | zero => rfl
  | succ k ih =>
    show unquote^[k] (unquote (front ++ c :: rest)) = _
    rw [unquote_append_cons h, ih]
    rfl

/-! ## 2. Fields -/

/-- A field without escapes is a field of the decoded text as well. -/
theorem mem_splitOn_unquote {c : Char} (hc : parts c = true) {text field : Text}
    (hmem : field ∈ splitOn c text) (hplain : '%' ∉ field) : field ∈ splitOn c (unquote text) := by
  by_cases hseparated : c ∈ text
  · obtain ⟨first, rest, htext, hfirst⟩ := List.eq_append_cons_of_mem hseparated
    rw [htext, splitOn_append hfirst] at hmem
    rw [htext, unquote_append_cons hc, splitOn_append_separator]
    apply List.mem_append.mpr
    rcases List.mem_cons.mp hmem with hfield | hrest
    · left
      rw [← hfield] at hfirst ⊢
      rw [unquote_of_no_percent hplain, splitOn_of_not_mem hfirst]
      exact List.mem_singleton_self field
    · right
      -- the fields behind the first separator are those of a shorter text
      have hshorter : rest.length < text.length := by
        rw [htext, List.length_append, List.length_cons]
        omega
      exact mem_splitOn_unquote hc hrest hplain
  · rw [splitOn_of_not_mem hseparated, List.mem_singleton] at hmem
    rw [← hmem, unquote_of_no_percent hplain, splitOn_of_not_mem (hmem ▸ hseparated)]
    exact List.mem_singleton_self field
termination_by text.length

/-! ## 3. Every pass -/

/-- Some number of passes leads to the decoded text, and one more does not change it. -/
def DecodesTo (text decoded : Text) : Prop :=
  (∃ passes, unquote^[passes] text = decoded) ∧ unquote decoded = decoded

/-- What a pass keeps and the decoded text does not have, the text has after no number of passes. -/
theorem DecodesTo.never {text decoded : Text} (h : DecodesTo text decoded) {p : Text → Prop}
    (hkept : ∀ t, p t → p (unquote t)) (hnot : ¬ p decoded) (k : Nat) :
    ¬ p (unquote^[k] text) := by
  obtain ⟨⟨passes, hpasses⟩, hfixed⟩ := h
  intro hk
  have hmore : ∀ n, p (unquote^[n] (unquote^[k] text)) := by
    intro n
    induction n with
    | zero => exact hk
    | succ n ih =>
      rw [Function.iterate_succ_apply']
      exact hkept _ ih
  have hend : unquote^[passes] (unquote^[k] text) = decoded := by
    rw [← Function.iterate_add_apply, Nat.add_comm, Function.iterate_add_apply, hpasses,
      Function.iterate_fixed hfixed]
  exact hnot (hend ▸ hmore passes)

/-- The same of a test. -/
theorem DecodesTo.eq_false {text decoded : Text} (h : DecodesTo text decoded) {p : Text → Bool}
    (hkept : ∀ t, p t = true → p (unquote t) = true) (hnot : p decoded = false) (k : Nat) :
    p (unquote^[k] text) = false := by
  rw [← Bool.not_eq_true] at hnot ⊢
  exact @DecodesTo.never text decoded h (fun t => p t = true) hkept hnot k

end Url
