import KiwiCatalog.Publications.ShareCodes
import Mathlib.Data.List.DropRight

/-!
# Spliced links — a text whose refused links have been replaced

A link is a run of characters that ends at a blank, a quote or an angle bracket.  The placeholder
has no letter with which a link could start, so the links of the new text are those that were kept.
-/

set_option autoImplicit false

namespace KiwiCatalog.Publications

open Pattern (Token)
open Url (Text)

/-! ## 1. How a link starts -/

/-- `https?://`, in any case. -/
inductive LinkStart : Text → Prop
  | http {a b c d : Char} (h : Url.startsWithLower "http".toList [a, b, c, d] = true) :
    LinkStart [a, b, c, d, ':', '/', '/']
  | https {a b c d s : Char} (h : Url.startsWithLower "http".toList [a, b, c, d] = true)
    (hs : (s = 's' || s = 'S' || s = 'ſ') = true) : LinkStart [a, b, c, d, s, ':', '/', '/']

theorem letters_of_startsWith {a b c d : Char}
    (h : Url.startsWithLower "http".toList [a, b, c, d] = true) :
    (a = 'h' ∨ a = 'H') ∧ (b = 't' ∨ b = 'T') ∧ (c = 't' ∨ c = 'T') ∧ (d = 'p' ∨ d = 'P') := by
  simpa [Url.startsWithLower, and_assoc] using h

theorem startsLink_append {w : Text} (h : LinkStart w) {d : Char} (hd : urlChar d = true)
    (rest : Text) : startsLink (w ++ d :: rest) = true := by
  cases h with
  | http h =>
    simp [startsLink, Url.startsWithLower, Url.slashes, hd] at h ⊢
    exact h
  | https h hs =>
    simp only [Bool.or_eq_true, decide_eq_true_eq] at hs
    simp [startsLink, Url.startsWithLower, Url.slashes, hd, hs] at h ⊢
    exact h

theorem exists_of_slashes {tail : Text} (h : tail.take 3 = Url.slashes)
    (hnext : (tail.drop 3).head?.any urlChar = true) :
    ∃ d rest, tail = ':' :: '/' :: '/' :: d :: rest ∧ urlChar d = true := by
  have hsplit := List.take_append_drop 3 tail
  rw [h] at hsplit
  obtain ⟨d, hd, hchar⟩ := (Option.any_eq_true _ _).mp hnext
  obtain ⟨rest, hrest⟩ := List.head?_eq_some_iff.mp hd
  rw [hrest] at hsplit
  exact ⟨d, rest, hsplit.symm, hchar⟩

theorem linkStart_of_startsLink {text : Text} (h : startsLink text = true) :
    ∃ w d rest, LinkStart w ∧ text = w ++ d :: rest ∧ urlChar d = true := by
  unfold startsLink at h
  simp only [Bool.and_eq_true] at h
  obtain ⟨⟨hword, hslashes⟩, hnext⟩ := h
  obtain ⟨a, b, c, d, tail, rfl, hfour⟩ : ∃ a b c d tail, text = a :: b :: c :: d :: tail ∧
      Url.startsWithLower "http".toList [a, b, c, d] = true := by
    match text, hword with
    | a :: b :: c :: d :: tail, hword => exact ⟨a, b, c, d, tail, rfl, by
        simpa [Url.startsWithLower] using hword⟩
    | [], hword => cases hword
    | [a], hword => simp [Url.startsWithLower] at hword
    | [a, b], hword => simp [Url.startsWithLower] at hword
    | [a, b, c], hword => simp [Url.startsWithLower] at hword
  simp only [List.drop_succ_cons, List.drop_zero] at hslashes hnext
  split at hslashes
  · rename_i hs
    rw [if_pos hs] at hnext
    obtain ⟨s, hsome, hletter⟩ := (Option.any_eq_true _ _).mp hs
    obtain ⟨more, rfl⟩ := List.head?_eq_some_iff.mp hsome
    obtain ⟨e, rest, heq, he⟩ := exists_of_slashes (of_decide_eq_true hslashes) hnext
    rw [List.drop_succ_cons, List.drop_zero] at heq
    exact ⟨_, e, rest, .https hfour hletter, by rw [heq]; rfl, he⟩
  · rename_i hs
    rw [if_neg hs] at hnext
    obtain ⟨e, rest, heq, he⟩ := exists_of_slashes (of_decide_eq_true hslashes) hnext
    exact ⟨_, e, rest, .http hfour, by rw [heq]; rfl, he⟩

/-- Of the characters of a given text, by looking at each. -/
theorem forall_of_all {P : Char → Prop} [DecidablePred P] {text : Text}
    (h : text.all (fun c => decide (P c)) = true) : ∀ c ∈ text, P c :=
  fun c hc => of_decide_eq_true (List.all_eq_true.mp h c hc)

/-- The characters with which a link starts. -/
theorem LinkStart.not_mem {w : Text} (h : LinkStart w) {x : Char}
    (hx : x ∉ "hHtTpPsSſ:/".toList) : x ∉ w := by
  have hword : ∀ {a b c d : Char}, Url.startsWithLower "http".toList [a, b, c, d] = true →
      ∀ y ∈ [a, b, c, d], y ∈ "hHtTpPsSſ:/".toList := by
    intro a b c d h
    apply forall_of_all
    rcases letters_of_startsWith h with ⟨rfl | rfl, rfl | rfl, rfl | rfl, rfl | rfl⟩ <;> decide
  have hslashes : ∀ y ∈ Url.slashes, y ∈ "hHtTpPsSſ:/".toList := forall_of_all (by decide)
  intro hmem
  apply hx
  cases h with
  | http h =>
    rcases List.mem_append.mp (show x ∈ [_, _, _, _] ++ Url.slashes from hmem) with hfour | hrest
    · exact hword h x hfour
    · exact hslashes x hrest
  | https h hs =>
    rcases List.mem_append.mp (show x ∈ [_, _, _, _] ++ _ :: Url.slashes from hmem) with
      hfour | hrest
    · exact hword h x hfour
    · rcases List.mem_cons.mp hrest with rfl | hmore
      · simp only [Bool.or_eq_true, decide_eq_true_eq] at hs
        rcases hs with (rfl | rfl) | rfl <;> decide
      · exact hslashes x hmore

theorem urlChar_of_linkStart {w : Text} (h : LinkStart w) : ∀ c ∈ w, urlChar c = true := by
  have hall : "hHtTpPsSſ:/".toList.all urlChar = true := by decide
  intro c hc
  by_contra hnot
  exact h.not_mem (fun hmem => hnot (List.all_eq_true.mp hall c hmem)) hc

/-- Only an `h` starts a link. -/
theorem head_of_startsLink {c : Char} {rest : Text} (h : startsLink (c :: rest) = true) :
    c = 'h' ∨ c = 'H' := by
  simp only [startsLink, Bool.and_eq_true] at h
  have hword : (c = 'h' || c = 'h'.toUpper) && _ := h.1.1
  simpa using (Bool.and_eq_true_iff.mp hword).1

theorem urlChar_of_startsLink {c : Char} {rest : Text} (h : startsLink (c :: rest) = true) :
    urlChar c = true := by
  rcases head_of_startsLink h with rfl | rfl <;> decide

/-- The run of a link starts a link itself, whatever stands behind it. -/
theorem startsLink_takeWhile {text : Text} (h : startsLink text = true) (q : Text) :
    startsLink (text.takeWhile urlChar ++ q) = true := by
  obtain ⟨w, d, rest, hw, rfl, hd⟩ := linkStart_of_startsLink h
  rw [List.takeWhile_append_of_pos (urlChar_of_linkStart hw), List.takeWhile_cons_of_pos hd,
    List.append_assoc]
  exact startsLink_append hw hd _

/-! ## 2. The links of a text -/

theorem tokens_skip (skip : Nat) (start : Option Char) (text : Text) :
    Pattern.tokens textUrlRe skip start text = Pattern.tokens textUrlRe 0 none (text.drop skip) := by
  induction text generalizing skip start with
  | nil => cases skip <;> rfl
  | cons c rest ih =>
    cases skip with
    | zero =>
      -- the pattern does not look at the character before a link
      rw [List.drop_zero]
      rfl
    | succ skip => exact ih skip (some c)

theorem drop_takeWhile_length (p : Char → Bool) (text : Text) :
    text.drop (text.takeWhile p).length = text.dropWhile p := by
  induction text with
  | nil => rfl
  | cons c rest ih =>
    by_cases hc : p c = true
    · rw [List.takeWhile_cons_of_pos hc, List.dropWhile_cons_of_pos hc]
      exact ih
    · rw [List.takeWhile_cons_of_neg hc, List.dropWhile_cons_of_neg hc]
      rfl

theorem tokens_plain {c : Char} {rest : Text} (h : startsLink (c :: rest) = false) :
    Pattern.tokens textUrlRe 0 none (c :: rest) =
      .plain c :: Pattern.tokens textUrlRe 0 none rest := by
  have hnone : textUrlRe none c rest = none := by
    unfold textUrlRe
    rw [h]
    rfl
  simp only [Pattern.tokens, hnone]
  rw [tokens_skip, List.drop_zero]

theorem tokens_link {text : Text} (h : startsLink text = true) :
    Pattern.tokens textUrlRe 0 none text = .found (text.takeWhile urlChar) ::
      Pattern.tokens textUrlRe 0 none (text.dropWhile urlChar) := by
  cases text with
  | nil => cases h
  | cons c rest =>
    have hc := urlChar_of_startsLink h
    have hsome : textUrlRe none c rest = some (rest.takeWhile urlChar).length := by
      unfold textUrlRe
      rw [h]
      rfl
    have hrun : rest.take (rest.takeWhile urlChar).length = rest.takeWhile urlChar :=
      (List.prefix_iff_eq_take.mp (List.takeWhile_prefix urlChar)).symm
    simp only [Pattern.tokens, hsome]
    rw [tokens_skip, drop_takeWhile_length, hrun, List.takeWhile_cons_of_pos hc,
      List.dropWhile_cons_of_pos hc]

theorem length_dropWhile_lt {text : Text} (h : startsLink text = true) :
    (text.dropWhile urlChar).length < text.length := by
  have height := length_of_startsLink h
  have hsplit := congrArg List.length (@List.takeWhile_append_dropWhile _ urlChar text)
  rw [List.length_append] at hsplit
  omega

/-- Along a text: behind a character that starts no link, and behind a link. -/
@[elab_as_elim]
theorem links_induction {motive : Text → Prop} (nil : motive [])
    (plain : ∀ c rest, startsLink (c :: rest) = false → motive rest → motive (c :: rest))
    (link : ∀ text, startsLink text = true → motive (text.dropWhile urlChar) → motive text)
    (text : Text) : motive text := by
  have hall : ∀ n (text : Text), text.length ≤ n → motive text := by
    intro n
    induction n with
    | zero =>
      intro text hlength
      rw [List.eq_nil_of_length_eq_zero (Nat.le_zero.mp hlength)]
      exact nil
    | succ n ih =>
      intro text hlength
      cases text with
      | nil => exact nil
      | cons c rest =>
        rw [List.length_cons] at hlength
        by_cases h : startsLink (c :: rest) = true
        · have hshorter := length_dropWhile_lt h
          rw [List.length_cons] at hshorter
          exact link (c :: rest) h (ih _ (by omega))
        · exact plain c rest (Bool.eq_false_iff.mpr h) (ih rest (by omega))
  exact hall text.length text (Nat.le_refl _)

theorem findall_plain {c : Char} {rest : Text} (h : startsLink (c :: rest) = false) :
    textUrlRe.findall (c :: rest) = textUrlRe.findall rest := by
  unfold Pattern.findall
  rw [tokens_plain h]
  rfl

theorem findall_link {text : Text} (h : startsLink text = true) :
    textUrlRe.findall text =
      text.takeWhile urlChar :: textUrlRe.findall (text.dropWhile urlChar) := by
  unfold Pattern.findall
  rw [tokens_link h]
  rfl

/-- A text without the letter with which links start goes by. -/
theorem findall_append {front : Text} (h : ∀ c ∈ front, c ≠ 'h' ∧ c ≠ 'H') (text : Text) :
    textUrlRe.findall (front ++ text) = textUrlRe.findall text := by
  induction front with
  | nil => rfl
  | cons c front ih =>
    have hplain : startsLink (c :: (front ++ text)) = false := by
      apply Bool.eq_false_iff.mpr
      intro hstarts
      have hc := h c List.mem_cons_self
      rcases head_of_startsLink hstarts with hlower | hupper
      · exact hc.1 hlower
      · exact hc.2 hupper
    rw [List.cons_append, findall_plain hplain, ih fun d hd => h d (List.mem_cons_of_mem c hd)]

/-! ## 3. Replaced links -/

/-- The text with another one for each of its refused links. -/
def replaceLinks (env : TextEnv) (placeholder text : Text) : Text :=
  textUrlRe.sub (fun url => if containsShareCodeUrl env url then placeholder else url) text

theorem redact_eq_replaceLinks (env : TextEnv) (text : Text) :
    redactShareCodeText env text = replaceLinks env linkRemoved text := rfl

theorem replaceLinks_nil (env : TextEnv) (placeholder : Text) :
    replaceLinks env placeholder [] = [] := rfl

theorem replaceLinks_plain {env : TextEnv} {placeholder : Text} {c : Char} {rest : Text}
    (h : startsLink (c :: rest) = false) :
    replaceLinks env placeholder (c :: rest) = c :: replaceLinks env placeholder rest := by
  unfold replaceLinks Pattern.sub
  rw [tokens_plain h]
  rfl

theorem replaceLinks_link {env : TextEnv} {placeholder text : Text}
    (h : startsLink text = true) :
    replaceLinks env placeholder text =
      (if containsShareCodeUrl env (text.takeWhile urlChar) then placeholder
        else text.takeWhile urlChar) ++
          replaceLinks env placeholder (text.dropWhile urlChar) := by
  unfold replaceLinks Pattern.sub
  rw [tokens_link h]
  rfl

/-- The characters, with a text for each hole. -/
def fill (placeholder : Text) (cells : List (Option Char)) : Text :=
  cells.flatMap fun cell => cell.elim placeholder fun c => [c]

theorem fill_some (placeholder : Text) (c : Char) (cells : List (Option Char)) :
    fill placeholder (some c :: cells) = c :: fill placeholder cells := rfl

theorem fill_none (placeholder : Text) (cells : List (Option Char)) :
    fill placeholder (none :: cells) = placeholder ++ fill placeholder cells := rfl

theorem fill_append (placeholder kept : Text) (cells : List (Option Char)) :
    fill placeholder (kept.map some ++ cells) = kept ++ fill placeholder cells := by
  induction kept with
  | nil => rfl
  | cons c kept ih =>
    rw [List.map_cons, List.cons_append, fill_some, ih]
    rfl

/-- What stands before the first character of a placeholder has been kept. -/
theorem kept_of_fill {placeholder front rest : Text} {cells : List (Option Char)} {d : Char}
    (hstart : placeholder.head? = some d) (hfront : d ∉ front)
    (h : fill placeholder cells = front ++ rest) :
    ∃ more, cells = front.map some ++ more ∧ fill placeholder more = rest := by
  induction front generalizing cells with
  | nil => exact ⟨cells, rfl, h⟩
  | cons c front ih =>
    rw [List.mem_cons, not_or] at hfront
    cases cells with
    | nil => cases h
    | cons cell cells =>
      cases cell with
      | none =>
        rw [fill_none] at h
        have hhead := congrArg List.head? h
        rw [List.head?_append, hstart] at hhead
        exact absurd (Option.some.inj hhead) hfront.1
      | some e =>
        rw [fill_some, List.cons_append] at h
        injection h with he hrest
        obtain ⟨more, rfl, hmore⟩ := ih hfront.2 hrest
        exact ⟨more, by rw [he]; rfl, hmore⟩

/-- The cells are the characters of the text, with a hole for some of its links. -/
inductive Holed : Text → List (Option Char) → Prop
  | nil : Holed [] []
  | char (c : Char) {text : Text} {cells : List (Option Char)} (h : Holed text cells) :
    Holed (c :: text) (some c :: cells)
  | link {url text : Text} {cells : List (Option Char)} (hurl : startsLink url = true)
    (hchars : ∀ c ∈ url, urlChar c = true) (hend : ∀ c ∈ text.head?, urlChar c = false)
    (h : Holed text cells) : Holed (url ++ text) (none :: cells)

theorem Holed.append_left (front : Text) {text : Text} {cells : List (Option Char)}
    (h : Holed text cells) : Holed (front ++ text) (front.map some ++ cells) := by
  induction front with
  | nil => exact h
  | cons c front ih => exact .char c ih

/-- What has been kept stands in the text. -/
theorem Holed.front {front text : Text} {cells : List (Option Char)}
    (h : Holed text (front.map some ++ cells)) :
    ∃ rest, text = front ++ rest ∧ Holed rest cells := by
  induction front generalizing text with
  | nil => exact ⟨text, rfl, h⟩
  | cons c front ih =>
    cases h with
    | char _ hrest =>
      obtain ⟨rest, rfl, hholed⟩ := ih hrest
      exact ⟨rest, rfl, hholed⟩

/-- The next character is the same one, or a link starts with it. -/
theorem Holed.head {text : Text} {cell : Option Char} {cells : List (Option Char)}
    (h : Holed text (cell :: cells)) :
    ∃ e rest, text = e :: rest ∧ (cell = some e ∨ cell = none ∧ (e = 'h' ∨ e = 'H')) := by
  cases h with
  | char e hrest => exact ⟨e, _, rfl, .inl rfl⟩
  | @link url text _ hurl hchars hend hrest =>
    cases url with
    | nil => cases hurl
    | cons e url => exact ⟨e, url ++ text, rfl, .inr ⟨rfl, head_of_startsLink hurl⟩⟩

/-- Whatever replaces the refused links, the holes are the same. -/
theorem exists_holed (env : TextEnv) (text : Text) :
    ∃ cells, Holed text cells ∧
      ∀ placeholder, replaceLinks env placeholder text = fill placeholder cells := by
  induction text using links_induction with
  | nil => exact ⟨[], .nil, fun _ => rfl⟩
  | plain c rest hplain ih =>
    obtain ⟨cells, hholed, hfill⟩ := ih
    refine ⟨some c :: cells, .char c hholed, ?_⟩
    intro placeholder
    rw [replaceLinks_plain hplain, hfill, fill_some]
  | link text hlink ih =>
    obtain ⟨cells, hholed, hfill⟩ := ih
    have hsplit := @List.takeWhile_append_dropWhile _ urlChar text
    have hrun : startsLink (text.takeWhile urlChar) = true := by
      have happend := startsLink_takeWhile hlink []
      rwa [List.append_nil] at happend
    by_cases hrefused : containsShareCodeUrl env (text.takeWhile urlChar) = true
    · refine ⟨none :: cells, ?_, ?_⟩
      · have hlinked : Holed (text.takeWhile urlChar ++ text.dropWhile urlChar) (none :: cells) :=
          .link hrun (fun c hc => List.mem_takeWhile_imp hc) Url.head_dropWhile hholed
        rwa [hsplit] at hlinked
      · intro placeholder
        rw [replaceLinks_link hlink, if_pos hrefused, hfill, fill_none]
    · refine ⟨(text.takeWhile urlChar).map some ++ cells, ?_, ?_⟩
      · have hkept := hholed.append_left (text.takeWhile urlChar)
        rwa [hsplit] at hkept
      · intro placeholder
        rw [replaceLinks_link hlink, if_neg hrefused, hfill, fill_append]

/-- No link starts where none has started before. -/
theorem startsLink_of_redact {env : TextEnv} {text : Text}
    (h : startsLink (redactShareCodeText env text) = true) : startsLink text = true := by
  obtain ⟨cells, hholed, hfill⟩ := exists_holed env text
  rw [redact_eq_replaceLinks, hfill] at h
  obtain ⟨w, d, rest', hw, hsplit, hd⟩ := linkStart_of_startsLink h
  obtain ⟨more, rfl, hmore⟩ := kept_of_fill rfl (hw.not_mem (by decide)) hsplit
  obtain ⟨rest, rfl, hrest⟩ := hholed.front
  cases more with
  | nil => cases hmore
  | cons cell more =>
    obtain ⟨e, tail, rfl, he⟩ := hrest.head
    apply startsLink_append hw
    rcases he with rfl | ⟨-, rfl | rfl⟩
    · rw [fill_some] at hmore
      injection hmore with hed
      rw [hed]
      exact hd
    · decide
    · decide

/-- What is no character of a link is the next one in both texts. -/
theorem urlChar_head_redact {env : TextEnv} {text : Text}
    (h : ∀ c ∈ text.head?, urlChar c = false) :
    ∀ c ∈ (redactShareCodeText env text).head?, urlChar c = false := by
  cases text with
  | nil => exact fun c hc => nomatch hc
  | cons e rest =>
    have hnot := h e rfl
    have hplain : startsLink (e :: rest) = false := by
      apply Bool.eq_false_iff.mpr
      intro hstarts
      rw [urlChar_of_startsLink hstarts] at hnot
      cases hnot
    rw [redact_eq_replaceLinks, replaceLinks_plain hplain]
    exact h

theorem linkRemoved_plain : ∀ c ∈ linkRemoved, c ≠ 'h' ∧ c ≠ 'H' := by
  have hall : linkRemoved.all (fun c => c ≠ 'h' && c ≠ 'H') = true := by decide
  intro c hc
  simpa using List.all_eq_true.mp hall c hc

/-- A run of characters, and what stands behind its end. -/
theorem run_of_append {p : Char → Bool} {front rest : Text} (hchars : ∀ c ∈ front, p c = true)
    (hend : ∀ c ∈ rest.head?, p c = false) :
    (front ++ rest).takeWhile p = front ∧ (front ++ rest).dropWhile p = rest := by
  constructor
  · rw [List.takeWhile_append_of_pos hchars]
    cases rest with
    | nil => simp
    | cons c rest =>
      rw [List.takeWhile_cons_of_neg (by simp [hend c rfl]), List.append_nil]
  · rw [List.dropWhile_append_of_pos hchars]
    exact Url.dropWhile_eq_self_of_head hend

/-- The links of a text in which refused ones have been replaced are those that were kept. -/
theorem findall_redact (env : TextEnv) (text : Text) :
    textUrlRe.findall (redactShareCodeText env text) =
      (textUrlRe.findall text).filter fun m => !containsShareCodeUrl env m := by
  induction text using links_induction with
  | nil => rfl
  | plain c rest hplain ih =>
    have hsame := @replaceLinks_plain env linkRemoved c rest hplain
    have hplain' : startsLink (c :: redactShareCodeText env rest) = false := by
      apply Bool.eq_false_iff.mpr
      intro hstarts
      rw [redact_eq_replaceLinks, ← hsame] at hstarts
      rw [startsLink_of_redact hstarts] at hplain
      cases hplain
    rw [redact_eq_replaceLinks, hsame, ← redact_eq_replaceLinks, findall_plain hplain',
      findall_plain hplain, ih]
  | link text hlink ih =>
    rw [redact_eq_replaceLinks, replaceLinks_link hlink, ← redact_eq_replaceLinks,
      findall_link hlink]
    by_cases hrefused : containsShareCodeUrl env (text.takeWhile urlChar) = true
    · rw [if_pos hrefused, findall_append linkRemoved_plain, ih, List.filter_cons_of_neg]
      simp [hrefused]
    · rw [if_neg hrefused]
      have hchars : ∀ c ∈ text.takeWhile urlChar, urlChar c = true :=
        fun c hc => List.mem_takeWhile_imp hc
      -- what ended the link ends it still
      have hend : ∀ c ∈ (redactShareCodeText env (text.dropWhile urlChar)).head?,
          urlChar c = false := urlChar_head_redact Url.head_dropWhile
      have hrun := run_of_append hchars hend
      rw [findall_link (startsLink_takeWhile hlink _), hrun.1, hrun.2, ih, List.filter_cons_of_pos]
      simp [hrefused]

/-! ## 4. The blanks around a text -/

theorem strip_eq_rdropWhile (text : Text) :
    Url.strip text = (text.dropWhile Url.isSpace).rdropWhile Url.isSpace := rfl

/-- Nothing is cut off before a character that is kept. -/
theorem rdropWhile_append {p : Char → Bool} {front : Text} (h : ∀ c ∈ front, p c = false)
    (rest : Text) : (front ++ rest).rdropWhile p = front ++ rest.rdropWhile p := by
  unfold List.rdropWhile
  rw [List.reverse_append, List.dropWhile_append]
  split
  · rename_i hnone
    rw [List.isEmpty_iff.mp hnone, List.reverse_nil, List.append_nil,
      Url.dropWhile_eq_self_of_head, List.reverse_reverse]
    exact fun c hc => h c (List.mem_reverse.mp (List.mem_of_mem_head? hc))
  · rw [List.reverse_append, List.reverse_reverse]

theorem rdropWhile_cons (p : Char → Bool) (c : Char) (rest : Text) :
    (c :: rest).rdropWhile p =
      if rest.rdropWhile p = [] then [c].rdropWhile p else c :: rest.rdropWhile p := by
  unfold List.rdropWhile
  rw [List.reverse_cons, List.dropWhile_append]
  by_cases hnone : rest.reverse.dropWhile p = []
  · rw [hnone]
    rfl
  · rw [if_neg (by simpa using hnone), if_neg (by simpa using hnone), List.reverse_append]
    rfl

theorem startsLink_mono {text : Text} (h : startsLink text = true) (q : Text) :
    startsLink (text ++ q) = true := by
  obtain ⟨w, d, rest, hw, rfl, hd⟩ := linkStart_of_startsLink h
  rw [List.append_assoc, List.cons_append]
  exact startsLink_append hw hd _

theorem plain_of_isSpace {c : Char} (h : Url.isSpace c = true) (rest : Text) :
    startsLink (c :: rest) = false := by
  apply Bool.eq_false_iff.mpr
  intro hstarts
  rw [not_isSpace_of_urlChar (urlChar_of_startsLink hstarts)] at h
  cases h

section

variable {env : TextEnv} {placeholder : Text}

theorem replaceLinks_eq_nil_iff (hne : placeholder ≠ []) {text : Text} :
    replaceLinks env placeholder text = [] ↔ text = [] := by
  constructor
  · intro h
    obtain ⟨cells, hholed, hfill⟩ := exists_holed env text
    rw [hfill] at h
    cases hholed with
    | nil => rfl
    | char c hrest => cases h
    | link hurl hchars hend hrest =>
      rw [fill_none] at h
      exact absurd (List.append_eq_nil_iff.mp h).1 hne
  · intro h
    rw [h]
    rfl

/-- A link and its placeholder have no blank. -/
theorem isSpace_replaced (hblank : ∀ c ∈ placeholder, Url.isSpace c = false) (text : Text) :
    ∀ c ∈ (if containsShareCodeUrl env (text.takeWhile urlChar) then placeholder
      else text.takeWhile urlChar), Url.isSpace c = false := by
  intro c hc
  split at hc
  · exact hblank c hc
  · exact not_isSpace_of_urlChar (List.mem_takeWhile_imp hc)

theorem dropWhile_replaceLinks (hne : placeholder ≠ [])
    (hblank : ∀ c ∈ placeholder, Url.isSpace c = false) (text : Text) :
    (replaceLinks env placeholder text).dropWhile Url.isSpace =
      replaceLinks env placeholder (text.dropWhile Url.isSpace) := by
  induction text with
  | nil => rfl
  | cons c rest ih =>
    by_cases hc : Url.isSpace c = true
    · rw [replaceLinks_plain (plain_of_isSpace hc rest), List.dropWhile_cons_of_pos hc,
        List.dropWhile_cons_of_pos hc, ih]
    · rw [@List.dropWhile_cons_of_neg _ _ c rest hc]
      apply Url.dropWhile_eq_self_of_head
      by_cases hlink : startsLink (c :: rest) = true
      · rw [replaceLinks_link hlink]
        intro d hd
        rw [List.head?_append] at hd
        apply isSpace_replaced hblank (c :: rest) d
        apply List.mem_of_mem_head?
        -- neither the link nor its placeholder is empty
        split at hd
        · rename_i hrefused
          rw [if_pos hrefused]
          cases placeholder with
          | nil => exact absurd rfl hne
          | cons e more => exact hd
        · rename_i hkept
          rw [if_neg hkept]
          rw [List.takeWhile_cons_of_pos (urlChar_of_startsLink hlink)] at hd ⊢
          exact hd
      · rw [replaceLinks_plain (Bool.eq_false_iff.mpr hlink)]
        intro d hd
        rw [← Option.some.inj hd]
        exact Bool.eq_false_iff.mpr hc

theorem rdropWhile_replaceLinks (hne : placeholder ≠ [])
    (hblank : ∀ c ∈ placeholder, Url.isSpace c = false) (text : Text) :
    (replaceLinks env placeholder text).rdropWhile Url.isSpace =
      replaceLinks env placeholder (text.rdropWhile Url.isSpace) := by
  induction text using links_induction with
  | nil => rfl
  | plain c rest hplain ih =>
    have hcut : ∀ kept, kept <+: rest → startsLink (c :: kept) = false := by
      intro kept hkept
      obtain ⟨q, rfl⟩ := hkept
      apply Bool.eq_false_iff.mpr
      intro hstarts
      have hwhole : startsLink (c :: (kept ++ q)) = true := startsLink_mono hstarts q
      rw [hwhole] at hplain
      cases hplain
    rw [replaceLinks_plain hplain, rdropWhile_cons, rdropWhile_cons _ c rest, ih]
    by_cases hrest : rest.rdropWhile Url.isSpace = []
    · rw [if_pos hrest, hrest, if_pos (replaceLinks_nil env placeholder),
        List.rdropWhile_singleton]
      split
      · rfl
      · rw [replaceLinks_plain (hcut [] List.nil_prefix)]
        rfl
    · rw [if_neg hrest, if_neg fun hnil => hrest ((replaceLinks_eq_nil_iff hne).mp hnil),
        replaceLinks_plain (hcut _ (List.rdropWhile_prefix _ rest))]
  | link text hlink ih =>
    have hchars : ∀ c ∈ text.takeWhile urlChar, urlChar c = true :=
      fun c hc => List.mem_takeWhile_imp hc
    have hsplit := @List.takeWhile_append_dropWhile _ urlChar text
    have hend : ∀ c ∈ ((text.dropWhile urlChar).rdropWhile Url.isSpace).head?,
        urlChar c = false := by
      intro c hc
      obtain ⟨q, hq⟩ := List.rdropWhile_prefix Url.isSpace (text.dropWhile urlChar)
      apply @Url.head_dropWhile urlChar text c
      rw [← hq, List.head?_append, hc]
      rfl
    have hrun := run_of_append hchars hend
    have hcut : text.rdropWhile Url.isSpace =
        text.takeWhile urlChar ++ (text.dropWhile urlChar).rdropWhile Url.isSpace := by
      rw [← rdropWhile_append fun c hc => not_isSpace_of_urlChar (hchars c hc), hsplit]
    rw [replaceLinks_link hlink, rdropWhile_append (isSpace_replaced hblank text), ih, hcut,
      replaceLinks_link (startsLink_takeWhile hlink _), hrun.1, hrun.2]

/-- Links are replaced in a text as they are without the blanks around it. -/
theorem strip_replaceLinks (hne : placeholder ≠ [])
    (hblank : ∀ c ∈ placeholder, Url.isSpace c = false) (text : Text) :
    Url.strip (replaceLinks env placeholder text) =
      replaceLinks env placeholder (Url.strip text) := by
  rw [strip_eq_rdropWhile, dropWhile_replaceLinks hne hblank, rdropWhile_replaceLinks hne hblank]
  rfl

end

end KiwiCatalog.Publications
