import KiwiCatalog.Publications.ShopLinks

/-!
# Decoded parts — parts of a URL that decode to the end and have no share code then

Such a part stays one when it is split at a character that no escape has, and two of them are one
together with a character between them that no share code has either.
-/

set_option autoImplicit false

namespace KiwiCatalog.Publications

open Url (Text)

/-! ## 1. Splitting a part -/

/-- The passes decode the text to the end, and it has no share code then. -/
def DecodesClean (text : Text) : Prop :=
  Url.unquote (Url.unquote^[maxPercentDecodeRounds] text) =
      Url.unquote^[maxPercentDecodeRounds] text ∧
    hasShareCode (Url.unquote^[maxPercentDecodeRounds] text) = false

theorem decodeRounds_eq (rounds : Nat) {text : Text} (h : text.length ≤ maxPercentDecodeLength) :
    decodeRounds rounds text = (Url.unquote^[rounds] text,
      decide (Url.unquote (Url.unquote^[rounds] text) ≠ Url.unquote^[rounds] text)) := by
  induction rounds generalizing text with
  | zero => rfl
  | succ rounds ih =>
    have hshorter := Url.length_unquote_le text
    unfold decodeRounds
    by_cases hfixed : Url.unquote text = text
    · rw [if_pos hfixed, Function.iterate_fixed hfixed, hfixed]
      simp
    · rw [if_neg hfixed, if_neg (by omega), ih (by omega)]
      rfl

theorem componentHasShareCode_eq_false_iff {component : Text} :
    componentHasShareCode component = false ↔
      component.length ≤ maxPercentDecodeLength ∧ DecodesClean component := by
  unfold componentHasShareCode decodePercentBounded DecodesClean
  by_cases hlong : maxPercentDecodeLength < component.length
  · rw [if_pos hlong]
    constructor
    · intro h
      cases h
    · intro h
      exact absurd h.1 (Nat.not_le_of_lt hlong)
  · rw [if_neg hlong, decodeRounds_eq _ (Nat.le_of_not_lt hlong), Bool.or_eq_false_iff]
    simp [Nat.le_of_not_lt hlong]

theorem decodesClean_of_plain {text : Text} (hplain : '%' ∉ text)
    (hcode : hasShareCode text = false) : DecodesClean text := by
  have hfixed := Url.unquote_of_no_percent hplain
  unfold DecodesClean
  rw [Function.iterate_fixed hfixed]
  exact ⟨hfixed, hcode⟩

theorem decodesClean_nil : DecodesClean [] := decodesClean_of_plain List.not_mem_nil rfl

theorem hasShareCode_right {front rest : Text} (h : hasShareCode (front ++ rest) = false) :
    hasShareCode rest = false := by
  apply Bool.eq_false_iff.mpr
  intro hcode
  obtain ⟨tail, htail, hstarts⟩ := List.any_eq_true.mp hcode
  have hwhole : hasShareCode (front ++ rest) = true := by
    apply List.any_eq_true.mpr
    refine ⟨tail, ?_, hstarts⟩
    rw [List.mem_tails] at htail ⊢
    exact htail.trans (List.suffix_append front rest)
  rw [hwhole] at h
  cases h

theorem hasShareCode_left {front rest : Text} (h : hasShareCode (front ++ rest) = false) :
    hasShareCode front = false := by
  apply Bool.eq_false_iff.mpr
  intro hcode
  rw [hasShareCode_append hcode rest] at h
  cases h

/-- A character that escapes do not reach past splits a text that decodes to the end. -/
theorem DecodesClean.split {front rest : Text} (hhead : ∀ c ∈ rest.head?, Url.parts c = true)
    (h : DecodesClean (front ++ rest)) : DecodesClean front ∧ DecodesClean rest := by
  cases rest with
  | nil =>
    rw [List.append_nil] at h
    exact ⟨h, decodesClean_nil⟩
  | cons c rest =>
    have hc : Url.parts c = true := hhead c rfl
    have hwhole := Url.iterate_unquote_append hc maxPercentDecodeRounds front rest
    have hrest := Url.iterate_unquote_append hc maxPercentDecodeRounds [] rest
    have hnil : Url.unquote^[maxPercentDecodeRounds] [] = [] := Function.iterate_fixed rfl _
    rw [hnil, List.nil_append, List.nil_append] at hrest
    obtain ⟨hfixed, hcode⟩ := h
    rw [hwhole] at hfixed hcode
    rw [Url.unquote_append_cons hc] at hfixed
    -- neither side grows, so none of them becomes shorter
    have hfront := Url.length_unquote_le (Url.unquote^[maxPercentDecodeRounds] front)
    have hback := Url.length_unquote_le (Url.unquote^[maxPercentDecodeRounds] rest)
    have hlengths := congrArg List.length hfixed
    rw [List.length_append, List.length_append, List.length_cons, List.length_cons] at hlengths
    obtain ⟨hleft, hright⟩ := List.append_inj hfixed (by omega)
    refine ⟨⟨hleft, hasShareCode_left hcode⟩, ?_⟩
    unfold DecodesClean
    rw [hrest]
    have hsame := Url.unquote_append_cons hc [] (Url.unquote^[maxPercentDecodeRounds] rest)
    rw [List.nil_append, show Url.unquote [] = [] from rfl, List.nil_append] at hsame
    exact ⟨hsame.trans hright, hasShareCode_right hcode⟩

theorem DecodesClean.behind {c : Char} {rest : Text} (hc : Url.parts c = true)
    (h : DecodesClean (c :: rest)) : DecodesClean rest := by
  have hiterate := Url.iterate_unquote_append hc maxPercentDecodeRounds [] rest
  have hnil : Url.unquote^[maxPercentDecodeRounds] [] = [] := Function.iterate_fixed rfl _
  rw [hnil, List.nil_append, List.nil_append] at hiterate
  unfold DecodesClean at h
  rw [hiterate] at h
  have hfixed := h.1
  have hsame := Url.unquote_append_cons hc [] (Url.unquote^[maxPercentDecodeRounds] rest)
  rw [List.nil_append, show Url.unquote [] = [] from rfl, List.nil_append] at hsame
  rw [hsame] at hfixed
  exact ⟨(List.cons.inj hfixed).2, @hasShareCode_right [c] _ h.2⟩

theorem eq_around (c : Char) (text : Text) :
    text = Url.before c text ∧ Url.behind c text = [] ∨
      text = Url.before c text ++ c :: Url.behind c text := by
  have hsplit := @List.takeWhile_append_dropWhile _ (fun d => decide (d ≠ c)) text
  unfold Url.before Url.behind
  cases hrest : text.dropWhile fun d => decide (d ≠ c) with
  | nil =>
    rw [hrest, List.append_nil] at hsplit
    exact .inl ⟨hsplit.symm, rfl⟩
  | cons d rest =>
    have hd : d = c := by
      have hstop := @Url.head_dropWhile (fun d => decide (d ≠ c)) text d (by rw [hrest]; rfl)
      simpa using hstop
    rw [hrest, hd] at hsplit
    exact .inr hsplit.symm

theorem DecodesClean.around {c : Char} {text : Text} (hc : Url.parts c = true)
    (h : DecodesClean text) :
    DecodesClean (Url.before c text) ∧ DecodesClean (Url.behind c text) := by
  rcases eq_around c text with ⟨hwhole, hnone⟩ | hsplit
  · rw [← hwhole, hnone]
    exact ⟨h, decodesClean_nil⟩
  · rw [hsplit] at h
    have hhead : ∀ d ∈ (c :: Url.behind c text).head?, Url.parts d = true := by
      intro d hd
      rw [← Option.some.inj hd]
      exact hc
    have hboth := h.split hhead
    exact ⟨hboth.1, hboth.2.behind hc⟩

/-! ## 2. Joining two parts -/

/-- No share code and no escape has the character. -/
def separates (c : Char) : Bool := Url.parts c && !"sharecodSHARECODſ-_".toList.contains c

theorem parts_of_separates {c : Char} (h : separates c = true) : Url.parts c = true :=
  (Bool.and_eq_true_iff.mp h).1

theorem dropWord_separated {word front rest more : Text} {c : Char}
    (hc : ∀ x ∈ word, (c = x || c = x.toUpper || (x = 's' && c = 'ſ')) = false)
    (h : dropWord word (front ++ c :: rest) = some more) :
    ∃ more', dropWord word front = some more' ∧ more = more' ++ c :: rest := by
  induction word generalizing front with
  | nil =>
    have hmore : front ++ c :: rest = more := by
      cases front <;> exact Option.some.inj h
    exact ⟨front, by cases front <;> rfl, hmore.symm⟩
  | cons x word ih =>
    cases front with
    | nil =>
      change (if c = x || c = x.toUpper || (x = 's' && c = 'ſ')
        then dropWord word rest else none) = some more at h
      rw [hc x List.mem_cons_self] at h
      cases h
    | cons d front =>
      change (if d = x || d = x.toUpper || (x = 's' && d = 'ſ')
        then dropWord word (front ++ c :: rest) else none) = some more at h
      split at h
      · rename_i hsame
        obtain ⟨more', hmore', heq⟩ := ih (fun y hy => hc y (List.mem_cons_of_mem x hy)) h
        refine ⟨more', ?_, heq⟩
        unfold dropWord
        rw [if_pos hsame]
        exact hmore'
      · cases h

/-- The letters of both words, and the two signs between them. -/
theorem letters_of_separates {c : Char} (h : separates c = true) :
    (∀ x ∈ "share".toList, (c = x || c = x.toUpper || (x = 's' && c = 'ſ')) = false) ∧
      (∀ x ∈ "code".toList, (c = x || c = x.toUpper || (x = 's' && c = 'ſ')) = false) ∧
        c ≠ '-' ∧ c ≠ '_' := by
  have hnot : ∀ x ∈ "sharecodSHARECODſ-_".toList, c ≠ x := by
    intro x hx heq
    rw [heq] at h
    have hcontains := List.contains_iff_mem.mpr hx
    simp only [separates, hcontains, Bool.not_true, Bool.and_false] at h
    cases h
  have hword : ∀ word : Text, word.all (fun x => "sharecodSHARECODſ-_".toList.contains x &&
      "sharecodSHARECODſ-_".toList.contains x.toUpper) = true →
        ∀ x ∈ word, (c = x || c = x.toUpper || (x = 's' && c = 'ſ')) = false := by
    intro word hall x hx
    have hboth := Bool.and_eq_true_iff.mp (List.all_eq_true.mp hall x hx)
    have hlower := hnot x (List.contains_iff_mem.mp hboth.1)
    have hupper := hnot x.toUpper (List.contains_iff_mem.mp hboth.2)
    have hlong := hnot 'ſ' (by decide)
    simp [hlower, hupper, hlong]
  exact ⟨hword _ (by decide), hword _ (by decide), hnot '-' (by decide), hnot '_' (by decide)⟩

theorem startsShareCode_separated {front rest : Text} {c : Char} (hc : separates c = true)
    (h : startsShareCode (front ++ c :: rest) = true) : startsShareCode front = true := by
  obtain ⟨hshare, hcode, hdash, hunder⟩ := letters_of_separates hc
  unfold startsShareCode at h ⊢
  obtain ⟨more, hmore, hends⟩ := (Option.any_eq_true _ _).mp h
  obtain ⟨more', hmore', rfl⟩ := dropWord_separated hshare hmore
  rw [hmore', Option.any_some]
  apply Bool.or_eq_true_iff.mpr
  rcases Bool.or_eq_true_iff.mp hends with hsign | hjoined
  · left
    obtain ⟨hhead, hword⟩ := Bool.and_eq_true_iff.mp hsign
    cases more' with
    | nil => simp [hdash, hunder] at hhead
    | cons e more' =>
      obtain ⟨last, hlast⟩ := Option.isSome_iff_exists.mp hword
      obtain ⟨last', hlast', -⟩ := dropWord_separated hcode hlast
      apply Bool.and_eq_true_iff.mpr
      refine ⟨hhead, ?_⟩
      show (dropWord "code".toList more').isSome = true
      rw [hlast']
      rfl
  · right
    obtain ⟨last, hlast⟩ := Option.isSome_iff_exists.mp hjoined
    obtain ⟨last', hlast', -⟩ := dropWord_separated hcode hlast
    rw [hlast']
    rfl

theorem hasShareCode_join {front rest : Text} {c : Char} (hc : separates c = true)
    (hfront : hasShareCode front = false) (hrest : hasShareCode rest = false) :
    hasShareCode (front ++ c :: rest) = false := by
  apply Bool.eq_false_iff.mpr
  intro h
  obtain ⟨tail, htail, hstarts⟩ := List.any_eq_true.mp h
  obtain ⟨before, hsplit⟩ := (List.mem_tails _ _).mp htail
  rcases List.append_eq_append_iff.mp hsplit with ⟨middle, hmiddle, hback⟩ | ⟨middle, -, hback⟩
  · -- the code starts before the character
    rw [hback] at hstarts
    apply Bool.eq_false_iff.mp hfront
    apply List.any_eq_true.mpr
    refine ⟨middle, ?_, startsShareCode_separated hc hstarts⟩
    rw [List.mem_tails, hmiddle]
    exact List.suffix_append _ _
  · cases middle with
    | nil =>
      rw [List.nil_append] at hback
      rw [← hback, ← List.nil_append (c :: rest)] at hstarts
      cases startsShareCode_separated hc hstarts
    | cons d middle =>
      injection hback with _ hrest'
      apply Bool.eq_false_iff.mp hrest
      apply List.any_eq_true.mpr
      refine ⟨tail, ?_, hstarts⟩
      rw [List.mem_tails, hrest']
      exact List.suffix_append _ _

/-- Two texts that decode to the end do so with such a character between them. -/
theorem DecodesClean.join {front rest : Text} {c : Char} (hc : separates c = true)
    (hfront : DecodesClean front) (hrest : DecodesClean rest) :
    DecodesClean (front ++ c :: rest) := by
  have hparts := parts_of_separates hc
  unfold DecodesClean
  rw [Url.iterate_unquote_append hparts, Url.unquote_append_cons hparts, hfront.1, hrest.1]
  exact ⟨rfl, hasShareCode_join hc hfront.2 hrest.2⟩

theorem DecodesClean.of_around {c : Char} {text : Text} (hc : separates c = true)
    (hbefore : DecodesClean (Url.before c text)) (hbehind : DecodesClean (Url.behind c text)) :
    DecodesClean text := by
  rcases eq_around c text with ⟨hwhole, -⟩ | hsplit
  · rw [hwhole]
    exact hbefore
  · rw [hsplit]
    exact hbefore.join hc hbehind

end KiwiCatalog.Publications
