import KiwiCatalog.Publications.DecodedParts
import KiwiCatalog.Publications.SplicedLinks

/-!
# Sanitised links — a web address in which refused links have been replaced

A text that is a web address as a whole may have refused links in it.  It passes with the
placeholder for them unless that stands in the authority or makes one part too long.
-/

set_option autoImplicit false

namespace KiwiCatalog.Publications

open Url (Letters Text)

/-! ## 1. Web addresses as a whole -/

/-- The authority is accepted, and has neither a user name nor a password. -/
def netlocPasses (t : Url.Tables) (netloc : Text) : Prop :=
  Url.netlocAccepted t netloc = true ∧ (Url.splitRest [] netloc []).hasCredentials = false

/-- The path, the query and the fragment. -/
def partsOf (rest : Text) : List Text :=
  [Url.before '?' (Url.before '#' rest), Url.behind '?' (Url.before '#' rest), Url.behind '#' rest]

theorem containsShareCodeUrl_web_iff {env : TextEnv} {url : Text} (hstrip : Url.strip url = url)
    (hweb : isWebUrl url = true) :
    containsShareCodeUrl env url = false ↔ url.length ≤ maxShareCodeTextLength ∧
      (∀ c ∈ url, isControl c = false) ∧ netlocPasses env.tables (Url.netlocOf url) ∧
        ∀ part ∈ partsOf (Url.restOf url), componentHasShareCode part = false := by
  unfold containsShareCodeUrl
  simp only [hstrip, hweb, Bool.not_true, Bool.false_eq_true, if_false]
  by_cases hlong : maxShareCodeTextLength < url.length
  · rw [if_pos hlong]
    constructor
    · intro h
      cases h
    · intro h
      exact absurd h.1 (Nat.not_le_of_lt hlong)
  · rw [if_neg hlong]
    have hshort := Nat.le_of_not_lt hlong
    by_cases hcontrol : ∀ c ∈ url, isControl c = false
    · have hclean : ∀ c ∈ url, c ≠ '\t' ∧ c ≠ '\r' ∧ c ≠ '\n' := by
        intro c hc
        have hc' := hcontrol c hc
        refine ⟨?_, ?_, ?_⟩
        · rintro rfl
          exact absurd hc' (by decide)
        · rintro rfl
          exact absurd hc' (by decide)
        · rintro rfl
          exact absurd hc' (by decide)
      have hany : url.any isControl = false := by
        rw [List.any_eq_false]
        exact fun c hc => Bool.eq_false_iff.mp (hcontrol c hc)
      obtain ⟨scheme, hscheme, hstarts⟩ := isWebUrl_scheme hweb
      unfold urlHasShareCode
      rw [Url.urlsplit_web hscheme hstarts hclean]
      by_cases haccepted : Url.netlocAccepted env.tables (Url.netlocOf url) = true
      · rw [if_pos haccepted]
        change (Url.Split.hasCredentials _ || url.any isControl ||
          (partsOf (Url.restOf url)).any componentHasShareCode) = false ↔ _
        rw [hany, Bool.or_false, Bool.or_eq_false_iff, List.any_eq_false]
        constructor
        · intro h
          refine ⟨hshort, hcontrol, ⟨haccepted, h.1⟩, ?_⟩
          exact fun part hpart => Bool.eq_false_iff.mpr (h.2 part hpart)
        · intro h
          exact ⟨h.2.2.1.2, fun part hpart => Bool.eq_false_iff.mp (h.2.2.2 part hpart)⟩
      · rw [if_neg haccepted]
        constructor
        · intro h
          cases h
        · intro h
          exact absurd h.2.2.1.1 haccepted
    · have hany : url.any isControl = true := by
        rw [List.any_eq_true]
        by_contra hnone
        apply hcontrol
        intro c hc
        exact Bool.eq_false_iff.mpr fun h => hnone ⟨c, hc, h⟩
      constructor
      · intro h
        split at h
        · cases h
        · rw [hany, Bool.or_true, Bool.true_or] at h
          cases h
      · intro h
        exact absurd h.2.1 hcontrol

/-- What a web address starts with, whatever follows. -/
structure WebStart (w : Text) : Prop where
  start : LinkStart w
  web (rest : Text) : isWebUrl (w ++ rest) = true
  netlocOf (rest : Text) : Url.netlocOf (w ++ rest) = rest.takeWhile Url.netlocChar
  restOf (rest : Text) : Url.restOf (w ++ rest) = rest.dropWhile Url.netlocChar

/-- What stands around the first of its characters. -/
theorem around_first {c : Char} {front : Text} (h : c ∉ front) (rest : Text) :
    Url.before c (front ++ c :: rest) = front ∧ Url.behind c (front ++ c :: rest) = rest := by
  have hchars : ∀ d ∈ front, decide (d ≠ c) = true := by
    intro d hd
    apply decide_eq_true
    rintro rfl
    exact h hd
  have hend : ∀ d ∈ (c :: rest).head?, decide (d ≠ c) = false := by
    intro d hd
    rw [← Option.some.inj hd]
    simp
  have hcut := run_of_append hchars hend
  refine ⟨hcut.1, ?_⟩
  unfold Url.behind
  rw [hcut.2]
  rfl

theorem colon_of_letters {a b c d : Char}
    (h : Url.startsWithLower "http".toList [a, b, c, d] = true) : ':' ∉ [a, b, c, d] := by
  rcases letters_of_startsWith h with ⟨rfl | rfl, rfl | rfl, rfl | rfl, rfl | rfl⟩ <;> decide

theorem webStart_of_word {word : Text} (hcolon : ':' ∉ word)
    (hstart : LinkStart (word ++ Url.slashes))
    (hweb : ∀ rest, isWebUrl ((word ++ Url.slashes) ++ rest) = true) :
    WebStart (word ++ Url.slashes) := by
  have hbehind : ∀ rest, Url.behind ':' ((word ++ Url.slashes) ++ rest) = '/' :: '/' :: rest := by
    intro rest
    have hsplit := (around_first hcolon ('/' :: '/' :: rest)).2
    rw [List.append_assoc]
    exact hsplit
  refine ⟨hstart, hweb, ?_, ?_⟩
  · intro rest
    unfold Url.netlocOf
    rw [hbehind]
    rfl
  · intro rest
    unfold Url.restOf
    rw [hbehind]
    rfl

/-- The scheme, a colon and two slashes at the start of a text. -/
theorem split_slashes {scheme url : Text} (hscheme : Letters scheme)
    (h : Url.startsWithLower (scheme ++ Url.slashes) url = true) :
    ∃ word rest, word.length = scheme.length ∧ url = (word ++ Url.slashes) ++ rest ∧
      Url.startsWithLower (scheme ++ Url.slashes) (word ++ Url.slashes) = true := by
  obtain ⟨word, rest, rfl, hlength, -⟩ := Url.startsWithLower_split hscheme.2 h
  have hurl : word ++ ':' :: '/' :: '/' :: rest = (word ++ Url.slashes) ++ rest := by
    rw [List.append_assoc]
    rfl
  refine ⟨word, rest, hlength, hurl, ?_⟩
  rw [← h]
  apply startsWithLower_congr
  have hfits : (scheme ++ Url.slashes).length ≤ (word ++ Url.slashes).length := by
    rw [List.length_append, List.length_append, hlength]
  rw [hurl, List.take_append_of_le_length hfits]

theorem exists_webStart {url : Text} (h : isWebUrl url = true) :
    ∃ w rest, WebStart w ∧ url = w ++ rest := by
  rcases Bool.or_eq_true_iff.mp h with hhttp | hhttps
  · obtain ⟨word, rest, hlength, hurl, hword⟩ := split_slashes letters_http hhttp
    obtain ⟨a, b, c, d, rfl⟩ := List.length_eq_four.mp hlength
    have hfour : Url.startsWithLower "http".toList [a, b, c, d] = true := by
      simp [Url.startsWithLower, Url.slashes] at hword ⊢
      exact hword
    have hweb : ∀ rest, isWebUrl (([a, b, c, d] ++ Url.slashes) ++ rest) = true :=
      fun rest => Bool.or_eq_true_iff.mpr (.inl (Url.startsWithLower_append hword rest))
    exact ⟨_, rest, webStart_of_word (colon_of_letters hfour) (.http hfour) hweb, hurl⟩
  · obtain ⟨word, rest, hlength, hurl, hword⟩ := split_slashes letters_https hhttps
    obtain ⟨a, b, c, d, s, rfl⟩ : ∃ a b c d s, word = [a, b, c, d, s] := by
      obtain ⟨a, tail, rfl⟩ := List.exists_of_length_succ word hlength
      obtain ⟨b, c, d, s, rfl⟩ := List.length_eq_four.mp (Nat.succ.inj hlength)
      exact ⟨a, b, c, d, s, rfl⟩
    have hall : Url.startsWithLower "http".toList [a, b, c, d] = true ∧ (s = 's' ∨ s = 'S') := by
      simp [Url.startsWithLower, Url.slashes, and_assoc] at hword ⊢
      exact hword
    have hs : (s = 's' || s = 'S' || s = 'ſ') = true := by
      rcases hall.2 with rfl | rfl <;> rfl
    have hcolon : ':' ∉ [a, b, c, d, s] := by
      intro hmem
      rcases List.mem_append.mp (show ':' ∈ [a, b, c, d] ++ [s] from hmem) with hfour | hlast
      · exact colon_of_letters hall.1 hfour
      · rw [← List.mem_singleton.mp hlast] at hs
        exact absurd hs (by decide)
    have hweb : ∀ rest, isWebUrl (([a, b, c, d, s] ++ Url.slashes) ++ rest) = true :=
      fun rest => Bool.or_eq_true_iff.mpr (.inr (Url.startsWithLower_append hword rest))
    exact ⟨_, rest, webStart_of_word hcolon (.https hall.1 hs) hweb, hurl⟩

/-! ## 2. The parts behind the authority -/

theorem partsOf_clean_iff {rest : Text} :
    (∀ part ∈ partsOf rest, DecodesClean part) ↔ DecodesClean rest := by
  constructor
  · intro h
    have hpath := h _ (List.mem_cons_self)
    have hquery := h _ (List.mem_cons_of_mem _ List.mem_cons_self)
    have hfragment := h _ (List.mem_cons_of_mem _ (List.mem_cons_of_mem _ List.mem_cons_self))
    have hfront : DecodesClean (Url.before '#' rest) :=
      DecodesClean.of_around (by decide) hpath hquery
    exact hfront.of_around (by decide) hfragment
  · intro h
    obtain ⟨hfront, hfragment⟩ := h.around (show Url.parts '#' = true by decide)
    obtain ⟨hpath, hquery⟩ := hfront.around (show Url.parts '?' = true by decide)
    intro part hpart
    simp only [partsOf, List.mem_cons, List.not_mem_nil, or_false] at hpart
    rcases hpart with rfl | rfl | rfl
    · exact hpath
    · exact hquery
    · exact hfragment

theorem hexValue_of_isSpace {c : Char} (h : Url.isSpace c = true) : Url.hexValue c = none := by
  have hrange : ¬ (0x30 ≤ c.toNat ∧ c.toNat ≤ 0x39) ∧ ¬ (0x41 ≤ c.toNat ∧ c.toNat ≤ 0x46) ∧
      ¬ (0x61 ≤ c.toNat ∧ c.toNat ≤ 0x66) := by
    simp only [Url.isSpace, Bool.or_eq_true, Bool.and_eq_true, decide_eq_true_eq] at h
    omega
  have hle : ∀ d e : Char, d ≤ e ↔ d.toNat ≤ e.toNat := by
    intro d e
    rw [Char.le_def, UInt32.le_iff_toNat_le]
    rfl
  unfold Url.hexValue
  rw [if_neg, if_neg, if_neg]
  · rw [Bool.and_eq_true, decide_eq_true_eq, decide_eq_true_eq, hle, hle]
    exact hrange.2.1
  · rw [Bool.and_eq_true, decide_eq_true_eq, decide_eq_true_eq, hle, hle]
    exact hrange.2.2
  · change ¬ (decide ('0' ≤ c) && decide (c ≤ '9')) = true
    rw [Bool.and_eq_true, decide_eq_true_eq, decide_eq_true_eq, hle, hle]
    exact hrange.1

/-- What ends a link is no part of an escape. -/
theorem parts_of_not_urlChar {c : Char} (h : urlChar c = false) : Url.parts c = true := by
  by_cases hspace : Url.isSpace c = true
  · have hpercent : c ≠ '%' := by
      intro heq
      rw [heq] at hspace
      exact absurd hspace (by decide)
    unfold Url.parts
    rw [decide_eq_true hpercent, hexValue_of_isSpace hspace]
    rfl
  · have hcases : ((c = '<' ∨ c = '>') ∨ c = '"') ∨ c = '\'' := by
      by_contra hnone
      simp only [not_or] at hnone
      have hchar : urlChar c = true := by
        simp [urlChar, hspace, hnone.1.1.1, hnone.1.1.2, hnone.1.2, hnone.2]
      rw [hchar] at h
      cases h
    rcases hcases with ((rfl | rfl) | rfl) | rfl
    · decide
    · decide
    · decide
    · decide
/-- A text that decodes to the end does so with the placeholder for some of its links. -/
theorem DecodesClean.fill {text : Text} {cells : List (Option Char)} (h : Holed text cells) :
    ∀ front, DecodesClean (front ++ text) → DecodesClean (front ++ fill linkRemoved cells) := by
  induction h with
  | nil => exact fun front h => h
  | char c hrest ih =>
    intro front h
    have happend := ih (front ++ [c])
    rw [List.append_assoc, List.append_assoc] at happend
    exact happend h
  | @link url text cells hurl hchars hend hrest ih =>
    intro front h
    have hstart : ∀ c ∈ (url ++ text).head?, Url.parts c = true := by
      cases url with
      | nil => cases hurl
      | cons e more =>
        intro c hc
        rw [← Option.some.inj hc]
        rcases head_of_startsLink hurl with rfl | rfl <;> decide
    obtain ⟨hfront, hlink⟩ := h.split hstart
    have htext := (hlink.split fun c hc => parts_of_not_urlChar (hend c hc)).2
    have hfilled : DecodesClean (Publications.fill linkRemoved cells) := ih [] htext
    have hinside : DecodesClean "链接已移除".toList :=
      decodesClean_of_plain (by decide) (by decide)
    -- the brackets keep the placeholder apart from what stands around it
    have hbehind : DecodesClean ("链接已移除".toList ++ ']' :: Publications.fill linkRemoved cells) :=
      hinside.join (by decide) hfilled
    have hplaceholder : linkRemoved = '[' :: ("链接已移除".toList ++ [']']) := by decide
    have hfill : Publications.fill linkRemoved (none :: cells) =
        '[' :: ("链接已移除".toList ++ ']' :: Publications.fill linkRemoved cells) := by
      rw [Publications.fill, List.flatMap_cons]
      show linkRemoved ++ Publications.fill linkRemoved cells = _
      rw [hplaceholder, List.cons_append, List.append_assoc, List.singleton_append]
    rw [hfill]
    exact hfront.join (by decide) hbehind

/-! ## 3. Masked links -/

/-- In no web address that passes. -/
def maskChar : Char := '\x00'

/-- As long as the placeholder. -/
def mask : Text := List.replicate linkRemoved.length maskChar

/-- The text with its refused links masked. -/
def maskLinks (env : TextEnv) (text : Text) : Text := replaceLinks env mask text

/-- Without the difference between the placeholder and the mask. -/
def blur (c : Char) : Char := if linkRemoved.contains c then maskChar else c

def Same (left right : Text) : Prop := left.map blur = right.map blur

theorem blur_of_not_mem {c : Char} (h : c ∉ linkRemoved) : blur c = c := by
  unfold blur
  rw [if_neg]
  rwa [List.contains_iff_mem]

theorem blur_of_mem {c : Char} (h : c ∈ linkRemoved) : blur c = maskChar := by
  unfold blur
  rw [if_pos]
  rwa [List.contains_iff_mem]

theorem same_fill (cells : List (Option Char)) :
    Same (fill linkRemoved cells) (fill mask cells) := by
  have hmask : linkRemoved.map blur = mask.map blur := by decide
  unfold Same
  induction cells with
  | nil => rfl
  | cons cell cells ih =>
    cases cell with
    | none => rw [fill_none, fill_none, List.map_append, List.map_append, hmask, ih]
    | some c => rw [fill_some, fill_some, List.map_cons, List.map_cons, ih]

theorem Same.length {left right : Text} (h : Same left right) : left.length = right.length := by
  have hlength := congrArg List.length h
  rwa [List.length_map, List.length_map] at hlength

section

variable {p : Char → Bool} {left right : Text}

theorem blur_comp (hp : ∀ c ∈ linkRemoved, p c = p maskChar) : p ∘ blur = p := by
  funext c
  show p (blur c) = p c
  by_cases hc : c ∈ linkRemoved
  · rw [blur_of_mem hc, hp c hc]
  · rw [blur_of_not_mem hc]

theorem Same.takeWhile (hp : ∀ c ∈ linkRemoved, p c = p maskChar) (h : Same left right) :
    Same (left.takeWhile p) (right.takeWhile p) := by
  have hcut : ∀ text : Text, (text.takeWhile p).map blur = (text.map blur).takeWhile p := by
    intro text
    rw [List.takeWhile_map, blur_comp hp]
  unfold Same at h ⊢
  rw [hcut, hcut, h]

theorem Same.dropWhile (hp : ∀ c ∈ linkRemoved, p c = p maskChar) (h : Same left right) :
    Same (left.dropWhile p) (right.dropWhile p) := by
  have hcut : ∀ text : Text, (text.dropWhile p).map blur = (text.map blur).dropWhile p := by
    intro text
    rw [List.dropWhile_map, blur_comp hp]
  unfold Same at h ⊢
  rw [hcut, hcut, h]

end

theorem differs_of_mem {c : Char} (hc : c ∉ linkRemoved ∧ c ≠ maskChar) :
    ∀ d ∈ linkRemoved, decide (d ≠ c) = decide (maskChar ≠ c) := by
  intro d hd
  have hne : d ≠ c := by
    rintro rfl
    exact hc.1 hd
  rw [decide_eq_true hne, decide_eq_true hc.2.symm]

theorem Same.before {left right : Text} {c : Char} (hc : c ∉ linkRemoved ∧ c ≠ maskChar)
    (h : Same left right) : Same (Url.before c left) (Url.before c right) :=
  h.takeWhile (differs_of_mem hc)

theorem Same.behind {left right : Text} {c : Char} (hc : c ∉ linkRemoved ∧ c ≠ maskChar)
    (h : Same left right) : Same (Url.behind c left) (Url.behind c right) := by
  have hcut := h.dropWhile (differs_of_mem hc)
  unfold Same at hcut ⊢
  unfold Url.behind
  rw [List.map_drop, List.map_drop, hcut]

/-- A text without masks has the other's characters where it has not the placeholder's. -/
theorem Same.forall_iff {left right : Text} (h : Same left right) (hmask : maskChar ∉ left)
    (P : Char → Prop) : (∀ c ∈ linkRemoved ++ left, P c) ↔
      ∀ c ∈ linkRemoved ++ right, c = maskChar ∨ P c := by
  -- what is left as it is in one text stands in the other
  have hmove : ∀ {one other : Text}, Same one other → ∀ c ∈ one, c ∉ linkRemoved →
      c ≠ maskChar → c ∈ other := by
    intro one other hsame c hc hplain hne
    have hblur : c ∈ one.map blur := List.mem_map.mpr ⟨c, hc, blur_of_not_mem hplain⟩
    rw [hsame] at hblur
    obtain ⟨d, hd, heq⟩ := List.mem_map.mp hblur
    by_cases hplaced : d ∈ linkRemoved
    · rw [blur_of_mem hplaced] at heq
      exact absurd heq.symm hne
    · rw [blur_of_not_mem hplaced] at heq
      rw [← heq]
      exact hd
  constructor
  · intro hall c hc
    by_cases hplaced : c ∈ linkRemoved
    · exact .inr (hall c (List.mem_append_left _ hplaced))
    · by_cases hne : c = maskChar
      · exact .inl hne
      · rcases List.mem_append.mp hc with hin | hright
        · exact absurd hin hplaced
        · exact .inr (hall c (List.mem_append_right _ (hmove h.symm c hright hplaced hne)))
  · intro hall c hc
    rcases List.mem_append.mp hc with hplaced | hleft
    · rcases hall c (List.mem_append_left _ hplaced) with heq | hP
      · rw [heq] at hplaced
        exact absurd hplaced (by decide)
      · exact hP
    · by_cases hplaced : c ∈ linkRemoved
      · rcases hall c (List.mem_append_left _ hplaced) with heq | hP
        · rw [heq] at hplaced
          exact absurd hplaced (by decide)
        · exact hP
      · have hne : c ≠ maskChar := fun heq => hmask (heq ▸ hleft)
        rcases hall c (List.mem_append_right _ (hmove h c hleft hplaced hne)) with heq | hP
        · exact absurd heq hne
        · exact hP

/-! ## 4. The authority -/

theorem beforeLast_append_of_mem {c : Char} {back : Text} (h : c ∈ back) (front : Text) :
    Url.beforeLast c (front ++ back) = front ++ Url.beforeLast c back := by
  have hsome : back.reverse.dropWhile (fun d => decide (d ≠ c)) ≠ [] := by
    intro hnil
    have hall := List.dropWhile_eq_nil_iff.mp hnil c (List.mem_reverse.mpr h)
    simp at hall
  unfold Url.beforeLast
  rw [List.reverse_append, List.dropWhile_append, if_neg (by simpa using hsome)]
  cases hcut : back.reverse.dropWhile fun d => decide (d ≠ c) with
  | nil => exact absurd hcut hsome
  | cons d rest => simp

section

variable {c : Char} {back : Text}

theorem ne_of_not_mem (h : c ∉ back) : ∀ d ∈ back.reverse, decide (d ≠ c) = true := by
  intro d hd
  apply decide_eq_true
  rintro rfl
  exact h (List.mem_reverse.mp hd)

theorem beforeLast_append_of_not_mem (h : c ∉ back) (front : Text) :
    Url.beforeLast c (front ++ back) = Url.beforeLast c front := by
  unfold Url.beforeLast
  rw [List.reverse_append, List.dropWhile_append_of_pos (ne_of_not_mem h)]

theorem behindLast_append_of_not_mem (h : c ∉ back) (front : Text) :
    Url.behindLast c (front ++ back) = Url.behindLast c front ++ back := by
  unfold Url.behindLast
  rw [List.reverse_append, List.takeWhile_append_of_pos (ne_of_not_mem h), List.reverse_append,
    List.reverse_reverse]

end

theorem mem_of_mem_behindLast {c d : Char} {text : Text} (h : d ∈ Url.behindLast c text) :
    d ∈ text := by
  unfold Url.behindLast at h
  exact List.mem_reverse.mp ((List.takeWhile_prefix _).subset (List.mem_reverse.mp h))

theorem hasCredentials_congr {netloc netloc' : Text}
    (h : Url.beforeLast '@' netloc = Url.beforeLast '@' netloc') :
    (Url.splitRest [] netloc []).hasCredentials = (Url.splitRest [] netloc' []).hasCredentials := by
  change (!(Url.before ':' (Url.beforeLast '@' netloc)).isEmpty ||
    !(Url.behind ':' (Url.beforeLast '@' netloc)).isEmpty) = _
  rw [h]
  rfl

/-- Without credentials, only colons stand before the last `@`. -/
theorem colon_of_netlocPasses {t : Url.Tables} {netloc : Text} (h : netlocPasses t netloc) :
    ∀ c ∈ Url.beforeLast '@' netloc, c = ':' :=
  Url.userinfo_of_no_credentials h.2

theorem expands_of_netlocPasses {t : Url.Tables} {netloc : Text} (h : netlocPasses t netloc) :
    ∀ c ∈ netloc, t.expandsToDelimiter c = false := by
  have hcheck := (Url.netlocAccepted_iff.mp h.1).2.2
  unfold Url.checkNetloc at hcheck
  rw [Bool.not_eq_true', List.any_eq_false] at hcheck
  exact fun c hc => Bool.eq_false_iff.mpr (hcheck c hc)

/-- The host and the port, where one of them has a bracket. -/
theorem brackets_of_netlocPasses {t : Url.Tables} {netloc : Text} (h : netlocPasses t netloc)
    (hopen : '[' ∈ Url.behindLast '@' netloc) :
    Url.checkBrackets t (Url.behindLast '@' netloc) = true := by
  have hcheck := (Url.netlocAccepted_iff.mp h.1).2.1 (mem_of_mem_behindLast hopen)
  unfold Url.checkBracketedNetloc at hcheck
  simp only [List.contains_iff_mem.mpr hopen, if_true] at hcheck
  exact hcheck

/-- A placeholder in an authority is refused unless a host in brackets stands before it and what
follows it could stand in a port. -/
theorem netlocPasses_placeholder {t : Url.Tables} {front letters more : Text}
    (hs : netlocPasses t (front ++ letters)) {e : Char} {rest : Text} (hhead : letters = e :: rest)
    (he : e ≠ ':') (hletters : ∀ c ∈ letters, c ≠ '@' ∧ c ≠ '[' ∧ c ≠ ']')
    (hodd : ∃ c ∈ front, c ≠ ':' ∧ c ≠ '@') :
    netlocPasses t (front ++ (linkRemoved ++ more)) ↔ '[' ∈ front ∧
      ∀ c ∈ linkRemoved ++ more, c ≠ '@' ∧ t.expandsToDelimiter c = false := by
  have hletters_at : '@' ∉ letters := fun hmem => (hletters '@' hmem).1 rfl
  constructor
  · intro hr
    have hbracket : '[' ∈ linkRemoved := by decide
    have hcolon := colon_of_netlocPasses hr
    have hat : '@' ∉ linkRemoved ++ more := by
      intro hmem
      have hbefore := beforeLast_append_of_mem hmem front
      rcases List.mem_append.mp hmem with hplaced | hmore
      · exact absurd hplaced (by decide)
      · rw [beforeLast_append_of_mem hmore] at hbefore
        have hin : '[' ∈ Url.beforeLast '@' (front ++ (linkRemoved ++ more)) := by
          rw [hbefore]
          exact List.mem_append_right _ (List.mem_append_left _ hbracket)
        exact absurd (hcolon '[' hin) (by decide)
    refine ⟨?_, ?_⟩
    · -- else nothing but colons and `@` would stand before the placeholder
      by_contra hnone
      have hlast := behindLast_append_of_not_mem hat front
      have hopen : '[' ∈ Url.behindLast '@' (front ++ (linkRemoved ++ more)) := by
        rw [hlast]
        exact List.mem_append_right _ (List.mem_append_left _ hbracket)
      have hbrackets := (Url.checkBrackets_iff.mp (brackets_of_netlocPasses hr hopen)).1
      rw [hlast] at hbrackets
      have hempty : Url.behindLast '@' front = [] := by
        cases hbehind : Url.behindLast '@' front with
        | nil => rfl
        | cons d tail =>
          have hd : d ∈ front := mem_of_mem_behindLast (by rw [hbehind]; exact List.mem_cons_self)
          have hne : d ≠ '[' := by
            rintro rfl
            exact hnone hd
          rw [hbehind, List.cons_append] at hbrackets
          unfold Url.before at hbrackets
          rw [List.takeWhile_cons, if_pos (by simpa using hne)] at hbrackets
          cases hbrackets
      obtain ⟨c, hc, hnotColon, hnotAt⟩ := hodd
      rcases Url.mem_around_last hc hnotAt with hbefore | hbehind
      · rw [beforeLast_append_of_not_mem hat] at hcolon
        exact hnotColon (hcolon c hbefore)
      · rw [hempty] at hbehind
        cases hbehind
    · intro c hc
      refine ⟨?_, expands_of_netlocPasses hr c (List.mem_append_right _ hc)⟩
      rintro rfl
      exact hat hc
  · rintro ⟨hopen, hall⟩
    have hat : '@' ∉ linkRemoved ++ more := fun hmem => (hall '@' hmem).1 rfl
    have hcolon := colon_of_netlocPasses hs
    rw [beforeLast_append_of_not_mem hletters_at] at hcolon
    have hclose : ']' ∈ front := by
      have hboth := (Url.netlocAccepted_iff.mp hs.1).1.mp (List.mem_append_left _ hopen)
      rcases List.mem_append.mp hboth with hfront | hlast
      · exact hfront
      · exact absurd rfl (hletters ']' hlast).2.2
    have hhost : ∀ c, c ≠ ':' → c ≠ '@' → c ∈ front → c ∈ Url.behindLast '@' front := by
      intro c hnotColon hnotAt hc
      rcases Url.mem_around_last hc hnotAt with hbefore | hbehind
      · exact absurd (hcolon c hbefore) hnotColon
      · exact hbehind
    have hopen' := hhost '[' (by decide) (by decide) hopen
    have hclose' := hhost ']' (by decide) (by decide) hclose
    have hlast := behindLast_append_of_not_mem hletters_at front
    have hlast' := behindLast_append_of_not_mem hat front
    have hbrackets := brackets_of_netlocPasses hs
      (by rw [hlast]; exact List.mem_append_left _ hopen')
    rw [hlast, Url.checkBrackets_iff, Url.before_append hopen', Url.behind_append hopen'] at hbrackets
    obtain ⟨hfront, hport, haddress⟩ := hbrackets
    have hinside := Url.mem_behind_of_before hfront (by decide) hclose'
    rw [Url.behind_append hinside] at hport
    rw [Url.before_append hinside] at haddress
    -- the letters of a link start no port, so there is a colon before them
    have hcolon' : ∃ port, Url.behind ']' (Url.behind '[' (Url.behindLast '@' front)) =
        ':' :: port := by
      cases hrest : Url.behind ']' (Url.behind '[' (Url.behindLast '@' front)) with
      | nil =>
        rw [hrest, hhead] at hport
        rcases hport with hnil | hstart
        · cases hnil
        · exact absurd (Option.some.inj hstart) he
      | cons d port =>
        rw [hrest] at hport
        rcases hport with hnil | hstart
        · cases hnil
        · have hd : d = ':' := Option.some.inj hstart
          exact ⟨port, by rw [hd]⟩
    obtain ⟨port, hport'⟩ := hcolon'
    refine ⟨Url.netlocAccepted_iff.mpr ⟨?_, ?_, ?_⟩, ?_⟩
    · exact ⟨fun _ => List.mem_append_left _ hclose, fun _ => List.mem_append_left _ hopen⟩
    · intro _
      unfold Url.checkBracketedNetloc
      simp only [hlast', List.contains_iff_mem.mpr (List.mem_append_left _ hopen'), if_true]
      rw [Url.checkBrackets_iff, Url.before_append hopen', Url.behind_append hopen',
        Url.behind_append hinside, Url.before_append hinside, hport']
      exact ⟨hfront, .inr rfl, haddress⟩
    · unfold Url.checkNetloc
      rw [Bool.not_eq_true', List.any_eq_false]
      intro c hc
      apply Bool.eq_false_iff.mp
      rcases List.mem_append.mp hc with hfront' | hback
      · exact expands_of_netlocPasses hs c (List.mem_append_left _ hfront')
      · exact (hall c hback).2
    · rw [← hs.2]
      apply hasCredentials_congr
      rw [beforeLast_append_of_not_mem hat, beforeLast_append_of_not_mem hletters_at]

/-! ## 5. Where the links of a web address stand -/

/-- A refused link in the authority has a host in brackets before it, and behind it what could
stand in a port. -/
def authorityFits (env : TextEnv) (netloc : Text) : Bool :=
  !netloc.contains maskChar || ((Url.before maskChar netloc).contains '[' &&
    (linkRemoved ++ Url.behind maskChar netloc).all fun c =>
      decide (c = maskChar) || (decide (c ≠ '@') && !env.tables.expandsToDelimiter c))

def partsFit (rest : Text) : Bool :=
  (partsOf rest).all fun part => decide (part.length ≤ maxPercentDecodeLength)

/-- Where the text is a web address as a whole, its refused links leave the authority alone, and
no part becomes too long. -/
def linkFits (env : TextEnv) (text : Text) : Bool :=
  let url := maskLinks env (Url.strip text)
  !isWebUrl url || (authorityFits env (Url.netlocOf url) && partsFit (Url.restOf url))

theorem mem_fill {placeholder text : Text} {cells : List (Option Char)} (h : Holed text cells) :
    ∀ c ∈ fill placeholder cells, c ∈ text ∨ c ∈ placeholder := by
  induction h with
  | nil => exact fun c hc => nomatch hc
  | char d hrest ih =>
    intro c hc
    rw [fill_some] at hc
    rcases List.mem_cons.mp hc with rfl | hmore
    · exact .inl List.mem_cons_self
    · rcases ih c hmore with htext | hplaced
      · exact .inl (List.mem_cons_of_mem d htext)
      · exact .inr hplaced
  | link hurl hchars hend hrest ih =>
    intro c hc
    rw [fill_none] at hc
    rcases List.mem_append.mp hc with hplaced | hmore
    · exact .inr hplaced
    · rcases ih c hmore with htext | hplaced
      · exact .inl (List.mem_append_right _ htext)
      · exact .inr hplaced

/-- A link is longer than its placeholder. -/
theorem length_fill {text : Text} {cells : List (Option Char)} (h : Holed text cells) :
    (fill linkRemoved cells).length ≤ text.length := by
  induction h with
  | nil => exact Nat.le_refl _
  | char c hrest ih =>
    rw [fill_some, List.length_cons, List.length_cons]
    omega
  | @link url text cells hurl hchars hend hrest ih =>
    have height := length_of_startsLink hurl
    rw [List.takeWhile_eq_self_iff.mpr hchars] at height
    have hseven : linkRemoved.length = 7 := by decide
    rw [fill_none, List.length_append, List.length_append]
    omega

/-- What stands before the last two slashes of a link's start. -/
theorem LinkStart.authority {w : Text} (h : LinkStart w) :
    ∃ e rest, w = (e :: rest) ++ ['/', '/'] ∧ e ≠ ':' ∧
      ∀ c ∈ e :: rest, Url.netlocChar c = true ∧ c ≠ '@' ∧ c ≠ '[' ∧ c ≠ ']' := by
  cases h with
  | @http a b c d h =>
    refine ⟨a, [b, c, d, ':'], rfl, ?_, forall_of_all ?_⟩
    · rcases (letters_of_startsWith h).1 with rfl | rfl <;> decide
    · rcases letters_of_startsWith h with ⟨rfl | rfl, rfl | rfl, rfl | rfl, rfl | rfl⟩ <;> decide
  | @https a b c d s h hs =>
    refine ⟨a, [b, c, d, s, ':'], rfl, ?_, forall_of_all ?_⟩
    · rcases (letters_of_startsWith h).1 with rfl | rfl <;> decide
    · simp only [Bool.or_eq_true, decide_eq_true_eq] at hs
      rcases letters_of_startsWith h with ⟨rfl | rfl, rfl | rfl, rfl | rfl, rfl | rfl⟩ <;>
        rcases hs with (rfl | rfl) | rfl <;> decide

theorem authorityFits_iff {env : TextEnv} {front : Text} (h : maskChar ∉ front) (more : Text) :
    authorityFits env (front ++ (mask ++ more)) = true ↔ '[' ∈ front ∧
      ∀ c ∈ linkRemoved ++ more, c = maskChar ∨
        (c ≠ '@' ∧ env.tables.expandsToDelimiter c = false) := by
  have hmask : ∀ c ∈ mask.tail, c = maskChar := fun c hc =>
    List.eq_of_mem_replicate (List.mem_of_mem_tail hc)
  have hsplit : front ++ (mask ++ more) = front ++ maskChar :: (mask.tail ++ more) := rfl
  have haround := around_first h (mask.tail ++ more)
  have hmem : (front ++ maskChar :: (mask.tail ++ more)).contains maskChar = true := by
    rw [List.contains_iff_mem]
    exact List.mem_append_right _ List.mem_cons_self
  unfold authorityFits
  rw [hsplit, hmem, haround.1, haround.2, Bool.not_true, Bool.false_or, Bool.and_eq_true,
    List.contains_iff_mem, List.all_eq_true]
  simp only [Bool.or_eq_true, Bool.and_eq_true, decide_eq_true_eq, Bool.not_eq_true',
    List.mem_append]
  apply and_congr_right
  intro _
  constructor
  · intro hall c hc
    apply hall c
    rcases hc with hplaced | hmore
    · exact .inl hplaced
    · exact .inr (.inr hmore)
  · intro hall c hc
    rcases hc with hplaced | hmasked | hmore
    · exact hall c (.inl hplaced)
    · exact .inl (hmask c hmasked)
    · exact hall c (.inr hmore)

theorem parts_of_not_netlocChar {c : Char} (h : Url.netlocChar c = false) : Url.parts c = true := by
  have hcases : c = '/' ∨ c = '?' ∨ c = '#' := by
    by_contra hnone
    simp only [not_or] at hnone
    have hchar : Url.netlocChar c = true := by
      simp [Url.netlocChar, hnone.1, hnone.2.1, hnone.2.2]
    rw [hchar] at h
    cases h
  rcases hcases with rfl | rfl | rfl
  · decide
  · decide
  · decide

section

variable {env : TextEnv} {text : Text} {cells : List (Option Char)}

/-- No hole in the authority: it is the same in all texts. -/
theorem authority_kept (h : Holed text cells)
    (hnone : maskChar ∉ (fill mask cells).takeWhile Url.netlocChar)
    (hnetloc : netlocPasses env.tables (text.takeWhile Url.netlocChar))
    (hclean : DecodesClean (text.dropWhile Url.netlocChar)) :
    DecodesClean ((fill linkRemoved cells).dropWhile Url.netlocChar) ∧
      netlocPasses env.tables ((fill linkRemoved cells).takeWhile Url.netlocChar) := by
  have hsplit := @List.takeWhile_append_dropWhile _ Url.netlocChar (fill mask cells)
  have hchars : ∀ c ∈ (fill mask cells).takeWhile Url.netlocChar, Url.netlocChar c = true :=
    fun c hc => List.mem_takeWhile_imp hc
  have hstop := @Url.head_dropWhile Url.netlocChar (fill mask cells)
  generalize (fill mask cells).takeWhile Url.netlocChar = netloc at hsplit hchars hnone
  generalize (fill mask cells).dropWhile Url.netlocChar = behind at hsplit hstop
  obtain ⟨more, rfl, rfl⟩ := kept_of_fill rfl hnone hsplit.symm
  obtain ⟨rest, rfl, hrest⟩ := h.front
  -- what ends the authority is the next character of each text
  have hends : (∀ c ∈ rest.head?, Url.netlocChar c = false) ∧
      ∀ c ∈ (fill linkRemoved more).head?, Url.netlocChar c = false := by
    cases hrest with
    | nil => exact ⟨fun c hc => (nomatch hc), fun c hc => (nomatch hc)⟩
    | char c _ => exact ⟨hstop, hstop⟩
    | link _ _ _ _ => exact absurd (hstop maskChar rfl) (by decide)
  have hcut := run_of_append hchars hends.1
  have hcut' := run_of_append hchars hends.2
  rw [hcut.1] at hnetloc
  rw [hcut.2] at hclean
  rw [fill_append, hcut'.1, hcut'.2]
  exact ⟨DecodesClean.fill hrest [] hclean, hnetloc⟩

/-- A hole in the authority: a link starts there. -/
theorem authority_replaced (h : Holed text cells) (hplain : maskChar ∉ text)
    (hapart : ∀ (front : Text) (more : List (Option Char)),
      cells = front.map some ++ none :: more →
      ∃ c ∈ front, urlChar c = false)
    (hsome : maskChar ∈ (fill mask cells).takeWhile Url.netlocChar)
    (hnetloc : netlocPasses env.tables (text.takeWhile Url.netlocChar))
    (hclean : DecodesClean (text.dropWhile Url.netlocChar)) :
    DecodesClean ((fill linkRemoved cells).dropWhile Url.netlocChar) ∧
      (netlocPasses env.tables ((fill linkRemoved cells).takeWhile Url.netlocChar) ↔
        authorityFits env ((fill mask cells).takeWhile Url.netlocChar) = true) := by
  have hsplit := @List.takeWhile_append_dropWhile _ Url.netlocChar (fill mask cells)
  have hchars : ∀ c ∈ (fill mask cells).takeWhile Url.netlocChar, Url.netlocChar c = true :=
    fun c hc => List.mem_takeWhile_imp hc
  obtain ⟨front, back, hfirst, hnot⟩ := List.eq_append_cons_of_mem hsome
  rw [hfirst] at hsplit hchars
  rw [List.append_assoc, List.cons_append] at hsplit
  have hfront : ∀ c ∈ front, Url.netlocChar c = true :=
    fun c hc => hchars c (List.mem_append_left _ hc)
  clear hfirst hchars
  obtain ⟨more, rfl, hmore⟩ := kept_of_fill rfl hnot hsplit.symm
  obtain ⟨rest, rfl, hrest⟩ := h.front
  cases hrest with
  | nil => cases hmore
  | char c _ =>
    rw [fill_some] at hmore
    injection hmore with hc
    rw [hc] at hplain
    exact absurd (List.mem_append_right _ List.mem_cons_self) hplain
  | @link url text cells hurl hends hend hrest =>
    obtain ⟨w, d, tail, hw, rfl, hd⟩ := linkStart_of_startsLink hurl
    obtain ⟨e, letters, rfl, he, hletters⟩ := hw.authority
    have hmask : ∀ c ∈ mask, Url.netlocChar c = true := forall_of_all (by decide)
    have hplaced : ∀ c ∈ linkRemoved, Url.netlocChar c = true := forall_of_all (by decide)
    have hstop : ∀ c ∈ ('/' :: '/' :: d :: tail ++ text).head?, Url.netlocChar c = false := by
      intro c hc
      rw [← Option.some.inj hc]
      decide
    have hlink : (e :: letters ++ ['/', '/'] ++ d :: tail) ++ text =
        (e :: letters) ++ ('/' :: '/' :: d :: tail ++ text) := by simp
    have hcut := run_of_append (fun c hc => (hletters c hc).1) hstop
    rw [hlink, List.takeWhile_append_of_pos hfront, hcut.1] at hnetloc
    rw [hlink, List.dropWhile_append_of_pos hfront, hcut.2] at hclean
    rw [fill_append, fill_append, fill_none, fill_none, List.takeWhile_append_of_pos hfront,
      List.takeWhile_append_of_pos hfront, List.takeWhile_append_of_pos hplaced,
      List.takeWhile_append_of_pos hmask, List.dropWhile_append_of_pos hfront,
      List.dropWhile_append_of_pos hplaced, authorityFits_iff hnot]
    constructor
    · -- behind the link, the text is clean, and so it is with its own links replaced
      have htext := (hclean.split fun c hc => parts_of_not_urlChar (hend c hc)).2
      have hfilled : DecodesClean (fill linkRemoved cells) := DecodesClean.fill hrest [] htext
      rw [← @List.takeWhile_append_dropWhile _ Url.netlocChar (fill linkRemoved cells)] at hfilled
      exact (hfilled.split fun c hc => parts_of_not_netlocChar (Url.head_dropWhile c hc)).2
    · have hodd : ∃ c ∈ front, c ≠ ':' ∧ c ≠ '@' := by
        obtain ⟨c, hc, hnotChar⟩ := hapart front cells rfl
        refine ⟨c, hc, ?_, ?_⟩
        · rintro rfl
          exact absurd hnotChar (by decide)
        · rintro rfl
          exact absurd hnotChar (by decide)
      have hsame : Same ((fill linkRemoved cells).takeWhile Url.netlocChar)
          ((fill mask cells).takeWhile Url.netlocChar) :=
        (same_fill cells).takeWhile (forall_of_all (by decide))
      have hmasks : maskChar ∉ (fill linkRemoved cells).takeWhile Url.netlocChar := by
        intro hmem
        rcases mem_fill hrest _ ((List.takeWhile_prefix _).subset hmem) with htext | hin
        · exact hplain (List.mem_append_right _ (List.mem_append_right _ htext))
        · exact absurd hin (by decide)
      rw [netlocPasses_placeholder hnetloc rfl he (fun c hc => (hletters c hc).2) hodd]
      apply and_congr_right
      intro _
      exact hsame.forall_iff hmasks _

end

/-! ## 6. Links replaced in a web address -/

theorem maskChar_not_mem {w : Text} (h : LinkStart w) : maskChar ∉ w := h.not_mem (by decide)

/-- Before a refused link stands a character that belongs to no link, where the text starts with
one that is kept. -/
theorem apart_of_replaceLinks {env : TextEnv} {w text front : Text} {more : List (Option Char)}
    (hw : LinkStart w) (h : Holed text (front.map some ++ none :: more))
    (hfill : replaceLinks env mask (w ++ text) =
      w ++ fill mask (front.map some ++ none :: more)) : ∃ c ∈ front, urlChar c = false := by
  by_contra hnone
  have hfront : ∀ c ∈ front, urlChar c = true := by
    intro c hc
    by_contra hnot
    exact hnone ⟨c, hc, Bool.eq_false_iff.mpr hnot⟩
  obtain ⟨rest, rfl, hrest⟩ := h.front
  generalize hcells : none :: more = cells at hrest
  cases hrest with
  | nil => cases hcells
  | char _ _ => cases hcells
  | @link url text more' hurl hchars hend hrest =>
    injection hcells with _ hmore
    obtain ⟨e, tail, rfl⟩ : ∃ e tail, url = e :: tail := by
      cases url with
      | nil => cases hurl
      | cons e tail => exact ⟨e, tail, rfl⟩
    have he := head_of_startsLink hurl
    have hlead : ∀ c ∈ w ++ (front ++ e :: tail), urlChar c = true := by
      intro c hc
      rcases List.mem_append.mp hc with hstart | hback
      · exact urlChar_of_linkStart hw c hstart
      · rcases List.mem_append.mp hback with hin | hlink
        · exact hfront c hin
        · exact hchars c hlink
    have hstarts : startsLink (w ++ (front ++ (e :: tail ++ text))) = true := by
      cases front with
      | nil => exact startsLink_append hw (hchars e List.mem_cons_self) _
      | cons d front => exact startsLink_append hw (hfront d List.mem_cons_self) _
    have hrun : (w ++ (front ++ (e :: tail ++ text))).takeWhile urlChar =
        w ++ (front ++ e :: tail) := by
      have hsplit : w ++ (front ++ (e :: tail ++ text)) = (w ++ (front ++ e :: tail)) ++ text := by
        simp
      rw [hsplit]
      exact (run_of_append hlead hend).1
    rw [replaceLinks_link hstarts, hrun, fill_append, fill_none] at hfill
    split at hfill
    · -- the text would start with the mask
      have hhead := congrArg List.head? hfill
      cases w with
      | nil => cases hw
      | cons c w =>
        have hc : maskChar = c := Option.some.inj hhead
        exact maskChar_not_mem hw (hc ▸ List.mem_cons_self)
    · rw [List.append_assoc, List.append_assoc] at hfill
      have hback := List.append_cancel_left (List.append_cancel_left hfill)
      injection hback with hhead _
      rw [hhead] at he
      exact absurd he (by decide)

theorem partsFit_iff {rest masked : Text} (hclean : DecodesClean rest) (hsame : Same rest masked) :
    (∀ part ∈ partsOf rest, componentHasShareCode part = false) ↔ partsFit masked = true := by
  have hfront : Same (Url.before '#' rest) (Url.before '#' masked) := hsame.before (by decide)
  have hlengths : (partsOf rest).map List.length = (partsOf masked).map List.length := by
    have hpath := (hfront.before (show '?' ∉ linkRemoved ∧ '?' ≠ maskChar by decide)).length
    have hquery := (hfront.behind (show '?' ∉ linkRemoved ∧ '?' ≠ maskChar by decide)).length
    have hfragment := (hsame.behind (show '#' ∉ linkRemoved ∧ '#' ≠ maskChar by decide)).length
    simp only [partsOf, List.map_cons, List.map_nil, hpath, hquery, hfragment]
  have hparts := partsOf_clean_iff.mpr hclean
  have hfits : ∀ text : Text, (∀ part ∈ partsOf text, part.length ≤ maxPercentDecodeLength) ↔
      ∀ n ∈ (partsOf text).map List.length, n ≤ maxPercentDecodeLength := by
    intro text
    rw [List.forall_mem_map]
  have hwhole : partsFit masked = true ↔
      ∀ part ∈ partsOf masked, part.length ≤ maxPercentDecodeLength := by
    simp [partsFit]
  rw [hwhole, hfits, ← hlengths, ← hfits]
  constructor
  · intro h part hpart
    exact (componentHasShareCode_eq_false_iff.mp (h part hpart)).1
  · intro h part hpart
    exact componentHasShareCode_eq_false_iff.mpr ⟨h part hpart, hparts part hpart⟩

/-- A text that passes and is a web address passes with its refused links replaced exactly if they
leave the authority alone and no part becomes too long. -/
theorem containsShareCodeUrl_redact_strip {env : TextEnv} {text : Text}
    (hstrip : Url.strip text = text) (hpass : containsShareCodeUrl env text = false) :
    containsShareCodeUrl env (redactShareCodeText env text) = false ↔ linkFits env text = true := by
  obtain ⟨cells, hholed, hfill⟩ := exists_holed env text
  have hblank : ∀ c ∈ linkRemoved, Url.isSpace c = false := forall_of_all (by decide)
  have hstrip' : Url.strip (fill linkRemoved cells) = fill linkRemoved cells := by
    rw [← hfill, strip_replaceLinks (by decide) hblank, hstrip]
  unfold linkFits maskLinks
  rw [redact_eq_replaceLinks, hfill, hstrip, hfill]
  change _ ↔ (!isWebUrl (fill mask cells) || (authorityFits env (Url.netlocOf (fill mask cells)) &&
    partsFit (Url.restOf (fill mask cells)))) = true
  by_cases hweb : isWebUrl (fill mask cells) = true
  · obtain ⟨w, rest, hw, hsplit⟩ := exists_webStart hweb
    obtain ⟨more, rfl, hmore⟩ := kept_of_fill rfl (maskChar_not_mem hw.start) hsplit
    obtain ⟨text, rfl, hrest⟩ := hholed.front
    rw [containsShareCodeUrl_web_iff hstrip (hw.web text), hw.netlocOf, hw.restOf] at hpass
    obtain ⟨hlength, hcontrol, hnetloc, hparts⟩ := hpass
    have hplain : maskChar ∉ text := by
      intro hmem
      exact absurd (hcontrol maskChar (List.mem_append_right w hmem)) (by decide)
    have hclean : DecodesClean (text.dropWhile Url.netlocChar) := by
      rw [← partsOf_clean_iff]
      exact fun part hpart => (componentHasShareCode_eq_false_iff.mp (hparts part hpart)).2
    have hboth : DecodesClean ((fill linkRemoved more).dropWhile Url.netlocChar) ∧
        (netlocPasses env.tables ((fill linkRemoved more).takeWhile Url.netlocChar) ↔
          authorityFits env ((fill mask more).takeWhile Url.netlocChar) = true) := by
      by_cases hsome : maskChar ∈ (fill mask more).takeWhile Url.netlocChar
      · apply authority_replaced hrest hplain ?_ hsome hnetloc hclean
        rintro front cells rfl
        apply apart_of_replaceLinks hw.start hrest
        rw [hfill, fill_append]
      · obtain ⟨hfilled, hpasses⟩ := authority_kept hrest hsome hnetloc hclean
        have hfits : authorityFits env ((fill mask more).takeWhile Url.netlocChar) = true := by
          unfold authorityFits
          rw [Bool.eq_false_iff.mpr fun h => hsome (List.contains_iff_mem.mp h)]
          rfl
        exact ⟨hfilled, fun _ => hfits, fun _ => hpasses⟩
    have hnetlocChar : ∀ c ∈ linkRemoved, Url.netlocChar c = Url.netlocChar maskChar :=
      forall_of_all (by decide)
    have hsame := (same_fill more).dropWhile hnetlocChar
    rw [fill_append] at hstrip'
    rw [fill_append, fill_append, containsShareCodeUrl_web_iff hstrip' (hw.web _), hw.netlocOf,
      hw.restOf, hw.web, hw.netlocOf, hw.restOf, Bool.not_true, Bool.false_or, Bool.and_eq_true,
      ← hboth.2, ← partsFit_iff hboth.1 hsame]
    have hshorter := length_fill hholed
    rw [fill_append] at hshorter
    constructor
    · exact fun h => h.2.2
    · intro h
      refine ⟨by omega, ?_, h⟩
      intro c hc
      rw [← fill_append linkRemoved w more] at hc
      rcases mem_fill hholed c hc with htext | hplaced
      · exact hcontrol c htext
      · have hall : ∀ d ∈ linkRemoved, isControl d = false := forall_of_all (by decide)
        exact hall c hplaced
  · -- neither text is a web address
    have hweb' : isWebUrl (fill linkRemoved cells) = false := by
      apply Bool.eq_false_iff.mpr
      intro h
      obtain ⟨w, rest, hw, hsplit⟩ := exists_webStart h
      obtain ⟨more, rfl, -⟩ := kept_of_fill rfl (hw.start.not_mem (by decide)) hsplit
      apply hweb
      rw [fill_append]
      exact hw.web _
    have hpass' : containsShareCodeUrl env (fill linkRemoved cells) = false := by
      unfold containsShareCodeUrl
      simp only [hstrip', hweb', Bool.not_false, if_true]
    rw [hpass', Bool.eq_false_iff.mpr hweb]
    exact ⟨fun _ => rfl, fun _ => rfl⟩

theorem containsShareCodeUrl_strip (env : TextEnv) (text : Text) :
    containsShareCodeUrl env (Url.strip text) = containsShareCodeUrl env text := by
  unfold containsShareCodeUrl
  simp only [Url.strip_strip]

theorem containsShareCodeUrl_redact {env : TextEnv} {text : Text}
    (hpass : containsShareCodeUrl env text = false) :
    containsShareCodeUrl env (redactShareCodeText env text) = false ↔ linkFits env text = true := by
  have hblank : ∀ c ∈ linkRemoved, Url.isSpace c = false := forall_of_all (by decide)
  have hfits : linkFits env (Url.strip text) = linkFits env text := by
    unfold linkFits
    rw [Url.strip_strip]
  rw [← containsShareCodeUrl_strip] at hpass
  rw [← containsShareCodeUrl_strip, redact_eq_replaceLinks, strip_replaceLinks (by decide) hblank,
    ← hfits]
  exact containsShareCodeUrl_redact_strip (Url.strip_strip text) hpass

end KiwiCatalog.Publications
