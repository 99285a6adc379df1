import KiwiCatalog.Publications.PublicText
import Mathlib.Data.List.Infix

/-!
# Share codes — a link with and without the punctuation at its end

The write path looks at a link as it stands in the text, the read path at the link without the
punctuation at its end.  The two agree unless that punctuation has the bracket that closes the
link's host.
-/

set_option autoImplicit false

namespace KiwiCatalog.Publications

open Url (Text ClosedBy closing Letters)

/-! ## 1. Links found in a text -/

theorem closing_of_trailing {c : Char} (h : isTrailing c = true) : closing c = true := by
  have hall : urlTrailingPunctuation.all closing = true := by decide
  exact List.all_eq_true.mp hall c (List.contains_iff_mem.mp h)

theorem closedBy_withoutTrailing (raw : Text) : ClosedBy (withoutTrailing raw) raw := by
  refine ⟨trailing raw, ?_, ?_⟩
  · intro c hc
    exact closing_of_trailing (List.mem_takeWhile_imp (List.mem_reverse.mp hc))
  · unfold withoutTrailing trailing
    rw [← List.reverse_append, List.takeWhile_append_dropWhile, List.reverse_reverse]

theorem urlChar_of_findall {text m : Text} (h : m ∈ textUrlRe.findall text) :
    ∀ c ∈ m, urlChar c = true := by
  obtain ⟨_, c, rest, more, hmatch, rfl⟩ :=
    Pattern.found_of_mem_tokens (Pattern.mem_findall.mp h)
  unfold textUrlRe at hmatch
  split at hmatch
  · rename_i hstarts
    have hrun : rest.take (rest.takeWhile urlChar).length = rest.takeWhile urlChar :=
      (List.prefix_iff_eq_take.mp (List.takeWhile_prefix urlChar)).symm
    rw [← Option.some.inj hmatch, hrun]
    intro d hd
    rcases List.mem_cons.mp hd with rfl | hrest
    · -- the first character is an `h` in either case
      have hletter : d = 'h' ∨ d = 'H' := by
        simp only [startsLink, Bool.and_eq_true] at hstarts
        have hword : (d = 'h' || d = 'h'.toUpper) && _ := hstarts.1.1
        simpa using (Bool.and_eq_true_iff.mp hword).1
      rcases hletter with rfl | rfl
      · decide
      · decide
    · exact List.mem_takeWhile_imp hrest
  · cases hmatch

theorem urlChar_of_letter {word d : Char} (hword : word ∈ "http".toList)
    (h : (d = word || d = word.toUpper) = true) : urlChar d = true := by
  have hall : "http".toList.all (fun c => urlChar c && urlChar c.toUpper) = true := by decide
  have hletter := Bool.and_eq_true_iff.mp (List.all_eq_true.mp hall word hword)
  rcases Bool.or_eq_true_iff.mp h with hd | hd
  · rw [of_decide_eq_true hd]
    exact hletter.1
  · rw [of_decide_eq_true hd]
    exact hletter.2

theorem takeWhile_of_startsWithLower {word text : Text} (hword : ∀ c ∈ word, c ∈ "http".toList)
    (h : Url.startsWithLower word text = true) :
    (text.takeWhile urlChar).length = word.length +
      ((text.drop word.length).takeWhile urlChar).length := by
  induction word generalizing text with
  | nil => simp
  | cons c word ih =>
    cases text with
    | nil => cases h
    | cons d text =>
      have hboth := Bool.and_eq_true_iff.mp h
      have hd := urlChar_of_letter (hword c List.mem_cons_self) hboth.1
      have hrest := ih (fun c' hc' => hword c' (List.mem_cons_of_mem c hc')) hboth.2
      rw [List.takeWhile_cons_of_pos hd, List.length_cons, hrest]
      simp only [List.length_cons, List.drop_succ_cons]
      omega

theorem slashes_length {tail : Text} (h : tail.take 3 = Url.slashes)
    (hnext : (tail.drop 3).head?.any urlChar = true) : 4 ≤ (tail.takeWhile urlChar).length := by
  have hall : Url.slashes.all urlChar = true := by decide
  have hslashes : ∀ c ∈ Url.slashes, urlChar c = true := List.all_eq_true.mp hall
  have hsplit := List.take_append_drop 3 tail
  rw [h] at hsplit
  rw [← hsplit, List.takeWhile_append_of_pos hslashes, List.length_append]
  cases hdrop : tail.drop 3 with
  | nil => rw [hdrop] at hnext; cases hnext
  | cons c rest =>
    rw [hdrop] at hnext
    rw [List.takeWhile_cons_of_pos (by simpa using hnext)]
    show 4 ≤ 3 + (rest.takeWhile urlChar).length.succ
    omega

/-- A link has at least eight characters. -/
theorem length_of_startsLink {text : Text} (h : startsLink text = true) :
    8 ≤ (text.takeWhile urlChar).length := by
  unfold startsLink at h
  simp only [Bool.and_eq_true] at h
  obtain ⟨⟨hword, hslashes⟩, hnext⟩ := h
  have hfour := takeWhile_of_startsWithLower (fun c hc => hc) hword
  rw [hfour]
  show 8 ≤ 4 + ((text.drop 4).takeWhile urlChar).length
  split at hslashes
  · rename_i hs
    rw [if_pos hs] at hnext
    cases htail : text.drop 4 with
    | nil => rw [htail] at hs; cases hs
    | cons c rest =>
      rw [htail] at hs hslashes hnext
      have hc : urlChar c = true := by
        have hcases : (c = 's' ∨ c = 'S') ∨ c = 'ſ' := by simpa using hs
        rcases hcases with (rfl | rfl) | rfl <;> decide
      have hrest := slashes_length (of_decide_eq_true hslashes) hnext
      simp only [List.drop_succ_cons, List.drop_zero] at hrest
      rw [List.takeWhile_cons_of_pos hc, List.length_cons]
      omega
  · rename_i hs
    rw [if_neg hs] at hnext
    have hrest := slashes_length (of_decide_eq_true hslashes) hnext
    omega

theorem length_of_findall {text m : Text} (h : m ∈ textUrlRe.findall text) : 8 ≤ m.length := by
  obtain ⟨_, c, rest, more, hmatch, rfl⟩ :=
    Pattern.found_of_mem_tokens (Pattern.mem_findall.mp h)
  unfold textUrlRe at hmatch
  split at hmatch
  · rename_i hstarts
    have height := length_of_startsLink hstarts
    have hrun : rest.take (rest.takeWhile urlChar).length = rest.takeWhile urlChar :=
      (List.prefix_iff_eq_take.mp (List.takeWhile_prefix urlChar)).symm
    rw [← Option.some.inj hmatch, hrun]
    rw [List.takeWhile_cons] at height
    split at height
    · exact height
    · cases height
  · cases hmatch

theorem not_isSpace_of_urlChar {c : Char} (h : urlChar c = true) : Url.isSpace c = false := by
  simp only [urlChar, Bool.and_eq_true] at h
  simpa using h.1.1.1.1

theorem strip_eq_self {text : Text} (h : ∀ c ∈ text, Url.isSpace c = false) :
    Url.strip text = text := by
  have hkept : ∀ l : Text, (∀ c ∈ l, Url.isSpace c = false) → l.dropWhile Url.isSpace = l := by
    intro l hl
    cases l with
    | nil => rfl
    | cons c rest =>
      rw [List.dropWhile_cons_of_neg]
      rw [hl c List.mem_cons_self]
      exact Bool.false_ne_true
  unfold Url.strip
  rw [hkept text h, hkept text.reverse fun c hc => h c (List.mem_reverse.mp hc),
    List.reverse_reverse]

theorem isControlFree {text : Text} (h : ∀ c ∈ text, urlChar c = true) :
    ∀ c ∈ text, c ≠ '\t' ∧ c ≠ '\r' ∧ c ≠ '\n' := by
  intro c hc
  have hspace := not_isSpace_of_urlChar (h c hc)
  refine ⟨?_, ?_, ?_⟩
  · rintro rfl
    exact absurd hspace (by decide)
  · rintro rfl
    exact absurd hspace (by decide)
  · rintro rfl
    exact absurd hspace (by decide)

theorem letters_of_all {scheme : Text} (hne : scheme ≠ [])
    (h : scheme.all (fun c => c.isAlpha && c.toUpper.isAlpha) = true) : Letters scheme := by
  refine ⟨hne, ?_⟩
  intro c hc
  exact Bool.and_eq_true_iff.mp (List.all_eq_true.mp h c hc)

theorem letters_http : Letters "http".toList := by
  apply letters_of_all
  · decide
  · decide

theorem letters_https : Letters "https".toList := by
  apply letters_of_all
  · decide
  · decide

/-- Cutting punctuation off leaves what ends in another character. -/
theorem withoutTrailing_append {front rest : Text} {c : Char} (hc : isTrailing c = false) :
    withoutTrailing (front ++ c :: rest) = front ++ c :: withoutTrailing rest := by
  unfold withoutTrailing
  rw [show front ++ c :: rest = (front ++ [c]) ++ rest by simp, List.reverse_append,
    List.dropWhile_append]
  split
  · rename_i hall
    rw [List.isEmpty_iff.mp hall, List.reverse_append, List.reverse_singleton, List.singleton_append,
      List.dropWhile_cons_of_neg (by rw [hc]; exact Bool.false_ne_true)]
    simp
  · rw [List.reverse_append, List.reverse_reverse]
    simp

theorem startsWithLower_congr {word text text' : Text}
    (h : text.take word.length = text'.take word.length) :
    Url.startsWithLower word text = Url.startsWithLower word text' := by
  induction word generalizing text text' with
  | nil => cases text <;> cases text' <;> rfl
  | cons c word ih =>
    cases text with
    | nil =>
      cases text' with
      | nil => rfl
      | cons d rest => cases h
    | cons d rest =>
      cases text' with
      | nil => cases h
      | cons d' rest' =>
        obtain ⟨rfl, htail⟩ := List.cons.inj h
        show ((d = c || d = c.toUpper) && _) = ((d = c || d = c.toUpper) && _)
        rw [ih htail]

/-- The punctuation at the end of a web address is behind its slashes. -/
theorem startsWithLower_withoutTrailing {scheme m : Text} (hscheme : Letters scheme)
    (h : Url.startsWithLower (scheme ++ Url.slashes) m = true) :
    Url.startsWithLower (scheme ++ Url.slashes) (withoutTrailing m) = true := by
  obtain ⟨front, rest, rfl, hlength, -⟩ := Url.startsWithLower_split hscheme.2 h
  rw [← h]
  apply startsWithLower_congr
  have hcut : withoutTrailing (front ++ ':' :: '/' :: '/' :: rest) =
      front ++ ':' :: '/' :: '/' :: withoutTrailing rest := by
    have hcut : withoutTrailing ((front ++ [':', '/']) ++ '/' :: rest) =
        (front ++ [':', '/']) ++ '/' :: withoutTrailing rest := withoutTrailing_append (by decide)
    simpa using hcut
  rw [hcut]
  simp [hlength, Url.slashes, List.take_append]

/-! ## 2. Share codes in a part of a URL -/

theorem dropWord_append {word text rest : Text} (h : dropWord word text = some rest) (q : Text) :
    dropWord word (text ++ q) = some (rest ++ q) := by
  induction word generalizing text with
  | nil =>
    have hrest : text = rest := by
      cases text <;> exact Option.some.inj h
    rw [hrest]
    cases rest <;> cases q <;> rfl
  | cons c word ih =>
    cases text with
    | nil => cases h
    | cons d text =>
      unfold dropWord at h
      split at h
      · rename_i hsame
        show (if d = c || d = c.toUpper || (c = 's' && d = 'ſ') then dropWord word (text ++ q)
          else none) = _
        rw [if_pos hsame]
        exact ih h
      · cases h

theorem startsShareCode_append {text : Text} (h : startsShareCode text = true) (q : Text) :
    startsShareCode (text ++ q) = true := by
  unfold startsShareCode at h ⊢
  obtain ⟨rest, hrest, hcode⟩ := (Option.any_eq_true _ _).mp h
  rw [dropWord_append hrest q, Option.any_some]
  rcases Bool.or_eq_true_iff.mp hcode with hseparated | hjoined
  · obtain ⟨hseparator, hword⟩ := Bool.and_eq_true_iff.mp hseparated
    obtain ⟨c, hc, -⟩ := (Option.any_eq_true _ _).mp hseparator
    obtain ⟨tail, rfl⟩ := List.head?_eq_some_iff.mp hc
    obtain ⟨more, hmore⟩ := Option.isSome_iff_exists.mp hword
    apply Bool.or_eq_true_iff.mpr
    left
    apply Bool.and_eq_true_iff.mpr
    refine ⟨hseparator, ?_⟩
    have htail : dropWord "code".toList (tail ++ q) = some (more ++ q) := dropWord_append hmore q
    show (dropWord "code".toList (tail ++ q)).isSome = true
    rw [htail]
    rfl
  · obtain ⟨more, hmore⟩ := Option.isSome_iff_exists.mp hjoined
    apply Bool.or_eq_true_iff.mpr
    right
    rw [dropWord_append hmore q]
    rfl

theorem hasShareCode_append {text : Text} (h : hasShareCode text = true) (q : Text) :
    hasShareCode (text ++ q) = true := by
  obtain ⟨tail, htail, hstarts⟩ := List.any_eq_true.mp h
  apply List.any_eq_true.mpr
  refine ⟨tail ++ q, ?_, startsShareCode_append hstarts q⟩
  obtain ⟨front, rfl⟩ := (List.mem_tails _ _).mp htail
  rw [List.mem_tails, List.append_assoc]
  exact List.suffix_append front (tail ++ q)

theorem decodeRounds_closedBy (rounds : Nat) {short long : Text} (h : ClosedBy short long)
    (hdone : (decodeRounds rounds long).2 = false) :
    (decodeRounds rounds short).2 = false ∧
      ClosedBy (decodeRounds rounds short).1 (decodeRounds rounds long).1 := by
  induction rounds generalizing short long with
  | zero =>
    obtain ⟨q, hq, hlong, hunquote⟩ := h.unquote
    refine ⟨?_, h⟩
    have hsame : Url.unquote long = long := by simpa [decodeRounds] using hdone
    rw [hunquote, hlong] at hsame
    simpa [decodeRounds] using List.append_cancel_right hsame
  | succ rounds ih =>
    obtain ⟨q, hq, hlong, hunquote⟩ := h.unquote
    have hiff : Url.unquote short = short ↔ Url.unquote long = long := by
      rw [hunquote, hlong]
      exact ⟨fun heq => by rw [heq], List.append_cancel_right⟩
    have hclosed : ClosedBy (Url.unquote short) (Url.unquote long) := ⟨q, hq, hunquote⟩
    unfold decodeRounds at hdone ⊢
    by_cases hfix : Url.unquote long = long
    · rw [if_pos hfix] at hdone
      rw [if_pos hfix, if_pos (hiff.mpr hfix)]
      exact ⟨rfl, h⟩
    · rw [if_neg hfix] at hdone
      rw [if_neg hfix, if_neg fun heq => hfix (hiff.mp heq)]
      have hlength := hclosed.length_le
      by_cases hbig : maxPercentDecodeLength < (Url.unquote long).length
      · rw [if_pos hbig] at hdone
        cases hdone
      · rw [if_neg hbig] at hdone
        rw [if_neg hbig, if_neg (by omega)]
        exact ih hclosed hdone

/-- A part of a URL without a share code has none without its closing punctuation. -/
theorem componentHasShareCode_closedBy {short long : Text} (h : ClosedBy short long)
    (hlong : componentHasShareCode long = false) : componentHasShareCode short = false := by
  unfold componentHasShareCode at hlong ⊢
  rw [Bool.or_eq_false_iff] at hlong ⊢
  unfold decodePercentBounded at hlong ⊢
  have hlength := h.length_le
  by_cases hbig : maxPercentDecodeLength < long.length
  · rw [if_pos hbig] at hlong
    cases hlong.1
  · rw [if_neg hbig] at hlong
    rw [if_neg (by omega)]
    obtain ⟨hdone, q, -, hdecoded⟩ := decodeRounds_closedBy maxPercentDecodeRounds h hlong.1
    refine ⟨hdone, ?_⟩
    by_contra hcode
    have hfound := hasShareCode_append (Bool.not_eq_false _ ▸ hcode) q
    rw [← hdecoded, hlong.2] at hfound
    cases hfound

/-! ## 3. A link and the link without its punctuation -/

/-- The punctuation at the end of a web address has the bracket that closes its host. -/
def losesBracket (url : Text) : Bool :=
  isWebUrl url && (Url.netlocOf (withoutTrailing url)).contains '[' &&
    !(Url.netlocOf (withoutTrailing url)).contains ']'

theorem containsShareCodeUrl_of_web {env : TextEnv} {url : Text}
    (hchars : ∀ c ∈ url, urlChar c = true) (hweb : isWebUrl url = true) :
    containsShareCodeUrl env url = false ↔ ¬ maxShareCodeTextLength < url.length ∧
      ∃ parsed, Url.urlsplit env.tables url = some parsed ∧ parsed.hasCredentials = false ∧
        (∀ c ∈ url, isControl c = false) ∧
        componentHasShareCode parsed.path = false ∧ componentHasShareCode parsed.query = false ∧
        componentHasShareCode parsed.fragment = false := by
  unfold containsShareCodeUrl
  simp only [strip_eq_self fun c hc => not_isSpace_of_urlChar (hchars c hc), hweb, Bool.not_true,
    Bool.false_eq_true, if_false]
  by_cases hlong : maxShareCodeTextLength < url.length
  · simp [hlong]
  · rw [if_neg hlong]
    unfold urlHasShareCode
    cases Url.urlsplit env.tables url with
    | none => simp
    | some parsed => simp [hlong, and_assoc]

theorem containsShareCodeUrl_of_not_web {env : TextEnv} {url : Text}
    (hchars : ∀ c ∈ url, urlChar c = true) (hweb : isWebUrl url = false) :
    containsShareCodeUrl env url = false := by
  unfold containsShareCodeUrl
  simp only [strip_eq_self fun c hc => not_isSpace_of_urlChar (hchars c hc), hweb, Bool.not_false,
    if_true]

theorem isWebUrl_scheme {url : Text} (h : isWebUrl url = true) :
    ∃ scheme, Letters scheme ∧ Url.startsWithLower (scheme ++ Url.slashes) url = true := by
  rcases Bool.or_eq_true_iff.mp h with hhttp | hhttps
  · exact ⟨_, letters_http, hhttp⟩
  · exact ⟨_, letters_https, hhttps⟩

theorem isWebUrl_append {url : Text} (h : isWebUrl url = true) (q : Text) :
    isWebUrl (url ++ q) = true := by
  rcases Bool.or_eq_true_iff.mp h with hhttp | hhttps
  · exact Bool.or_eq_true_iff.mpr (.inl (Url.startsWithLower_append hhttp q))
  · exact Bool.or_eq_true_iff.mpr (.inr (Url.startsWithLower_append hhttps q))

theorem isWebUrl_withoutTrailing {url : Text} :
    isWebUrl (withoutTrailing url) = isWebUrl url := by
  rw [Bool.eq_iff_iff]
  constructor
  · intro h
    obtain ⟨q, -, hq⟩ := closedBy_withoutTrailing url
    rw [hq]
    exact isWebUrl_append h q
  · intro h
    rcases Bool.or_eq_true_iff.mp h with hhttp | hhttps
    · exact Bool.or_eq_true_iff.mpr (.inl (startsWithLower_withoutTrailing letters_http hhttp))
    · exact Bool.or_eq_true_iff.mpr (.inr (startsWithLower_withoutTrailing letters_https hhttps))

/-- A link that passes as it stands passes without its punctuation, unless that has the bracket
that closes its host. -/
theorem containsShareCodeUrl_withoutTrailing {env : TextEnv} {url : Text}
    (hchars : ∀ c ∈ url, urlChar c = true) (hpass : containsShareCodeUrl env url = false) :
    containsShareCodeUrl env (withoutTrailing url) = losesBracket url := by
  have hclosed := closedBy_withoutTrailing url
  have hchars' : ∀ c ∈ withoutTrailing url, urlChar c = true :=
    fun c hc => hchars c (hclosed.mem hc)
  cases hweb : isWebUrl url with
  | false =>
    have hweb' := isWebUrl_withoutTrailing.trans hweb
    rw [containsShareCodeUrl_of_not_web hchars' hweb', losesBracket, hweb]
    rfl
  | true =>
    have hweb' := isWebUrl_withoutTrailing.trans hweb
    obtain ⟨hshort, parsed, hsplit, hcredentials, hcontrol, hpath, hquery, hfragment⟩ :=
      (containsShareCodeUrl_of_web hchars hweb).mp hpass
    obtain ⟨scheme, hscheme, hstarts⟩ := isWebUrl_scheme hweb'
    have hcut := hclosed.urlsplit hscheme hstarts (isControlFree hchars) hsplit hcredentials
    have hlength := hclosed.length_le
    by_cases hkept : '[' ∈ Url.netlocOf (withoutTrailing url) →
        ']' ∈ Url.netlocOf (withoutTrailing url)
    · rw [if_pos hkept] at hcut
      obtain ⟨parsed', hsplit', hcredentials', hpath', hquery', hfragment'⟩ := hcut
      have hpass' : containsShareCodeUrl env (withoutTrailing url) = false := by
        rw [containsShareCodeUrl_of_web hchars' hweb']
        refine ⟨by omega, parsed', hsplit', hcredentials', ?_, ?_, ?_, ?_⟩
        · exact fun c hc => hcontrol c (hclosed.mem hc)
        · exact componentHasShareCode_closedBy hpath' hpath
        · exact componentHasShareCode_closedBy hquery' hquery
        · exact componentHasShareCode_closedBy hfragment' hfragment
      have hkeeps : losesBracket url = false := by
        unfold losesBracket
        rw [hweb, Bool.true_and, Bool.and_eq_false_iff, Bool.not_eq_false', ← Bool.not_eq_true,
          List.contains_iff_mem, List.contains_iff_mem]
        exact imp_iff_not_or.mp hkept
      rw [hpass', hkeeps]
    · rw [if_neg hkept] at hcut
      have hfail : containsShareCodeUrl env (withoutTrailing url) = true := by
        by_contra hpass'
        obtain ⟨-, parsed', hsplit', -⟩ :=
          (containsShareCodeUrl_of_web hchars' hweb').mp (Bool.eq_false_iff.mpr hpass')
        rw [hcut] at hsplit'
        cases hsplit'
      have hloses : losesBracket url = true := by
        obtain ⟨hopen, hclose⟩ := Classical.not_imp.mp hkept
        unfold losesBracket
        rw [hweb, List.contains_iff_mem.mpr hopen,
          Bool.eq_false_iff.mpr fun h => hclose (List.contains_iff_mem.mp h)]
        rfl
      rw [hfail, hloses]

end KiwiCatalog.Publications
