import KiwiCatalog.Discovery.Fetcher

/-!
# Fetch requests — the request that a checked URL becomes

`urlsplit` drops blanks in front of a URL and the tabs and line ends in it; `Request` strips the
URL and keeps the rest.  Where the one reads `http` or `https`, the other reads a type, and the
same one if it is one of these.
-/

set_option autoImplicit false

namespace KiwiCatalog.Discovery.Fetcher

open Url (Text before behind strip beforeLast schemeChar cleaned splitScheme)

/-! ## The front of a URL -/

/-- A blank or a control character, or a character of an escaped space. -/
def frontBlank (c : Char) : Bool := c.toNat ≤ 0x20 || c = '%' || c = '2' || c = '0'

def keptChar (c : Char) : Bool := c ≠ '\t' && c ≠ '\r' && c ≠ '\n'

/-- Blanks, a scheme with tabs and line ends in it, and its colon. -/
structure Front (text blanks scheme rest : Text) : Prop where
  eq : text = blanks ++ (scheme ++ ':' :: rest)
  blank : ∀ c ∈ blanks, frontBlank c = true
  starts : ∃ c ∈ scheme.head?, c.isAlpha = true
  chars : ∀ c ∈ scheme, schemeChar c = true ∨ keptChar c = false

theorem frontBlank_facts {c : Char} (h : frontBlank c = true) :
    typeChar c = true ∧ c ≠ '#' ∧ c ≠ '<' ∧ c ≠ 'U' ∧ c.isAlpha = false := by
  simp only [frontBlank, Bool.or_eq_true, decide_eq_true_eq] at h
  have hother : ∀ d : Char, ¬ d.toNat ≤ 0x20 → d ≠ '%' → d ≠ '2' → d ≠ '0' → c ≠ d := by
    intro d hd h1 h2 h3 hsame
    subst hsame
    rcases h with ((hle | rfl) | rfl) | rfl
    · exact hd hle
    · exact h1 rfl
    · exact h2 rfl
    · exact h3 rfl
  refine ⟨?_, ?_, ?_, ?_, ?_⟩
  · rw [typeChar, Bool.and_eq_true, decide_eq_true_eq, decide_eq_true_eq]
    exact ⟨hother '/' (by decide) (by decide) (by decide) (by decide),
      hother ':' (by decide) (by decide) (by decide) (by decide)⟩
  · exact hother '#' (by decide) (by decide) (by decide) (by decide)
  · exact hother '<' (by decide) (by decide) (by decide) (by decide)
  · exact hother 'U' (by decide) (by decide) (by decide) (by decide)
  · by_contra halpha
    rw [Bool.not_eq_false] at halpha
    rcases h with ((hle | rfl) | rfl) | rfl
    · exact Url.isAlpha_gt_blank halpha hle
    · cases halpha
    · cases halpha
    · cases halpha

theorem schemeChar_ne {c d : Char} (h : schemeChar c = true ∨ keptChar c = false)
    (hd : schemeChar d = false) (hkept : keptChar d = true) : c ≠ d := by
  rintro rfl
  rcases h with hscheme | hdropped
  · rw [hd] at hscheme
    cases hscheme
  · rw [hkept] at hdropped
    cases hdropped

theorem Front.typeChars {text blanks scheme rest : Text} (h : Front text blanks scheme rest) :
    ∀ c ∈ blanks ++ scheme, typeChar c = true ∧ c ≠ '#' := by
  intro c hc
  rcases List.mem_append.mp hc with hc | hc
  · have hfacts := frontBlank_facts (h.blank c hc)
    exact ⟨hfacts.1, hfacts.2.1⟩
  · have hchar := h.chars c hc
    rw [typeChar, Bool.and_eq_true, decide_eq_true_eq, decide_eq_true_eq]
    exact ⟨⟨schemeChar_ne hchar rfl rfl, schemeChar_ne hchar rfl rfl⟩,
      schemeChar_ne hchar rfl rfl⟩

/-- A URL of which `urlsplit` reads a scheme. -/
theorem front_of_split {url scheme rest : Text}
    (h : splitScheme (cleaned url) = (scheme, rest)) (hscheme : scheme ≠ []) :
    ∃ blanks raw behind, Front url blanks raw behind ∧ (∀ c ∈ blanks, c.toNat ≤ 0x20) ∧
      scheme = (raw.filter keptChar).map Char.toLower := by
  unfold splitScheme at h
  split at h
  · rename_i hparts
    rw [Bool.and_eq_true, Bool.and_eq_true, List.contains_iff_mem] at hparts
    obtain ⟨⟨hcolon, hhead⟩, hall⟩ := hparts
    cases h
    let blanks := url.takeWhile fun c => decide (c.toNat ≤ 0x20)
    let kept := url.dropWhile fun c => decide (c.toNat ≤ 0x20)
    have hcleaned : cleaned url = kept.filter keptChar := rfl
    have hmem : ':' ∈ kept := by
      rw [hcleaned, List.mem_filter] at hcolon
      exact hcolon.1
    let raw := kept.takeWhile fun c => decide (c ≠ ':')
    obtain ⟨behind, hkept⟩ : ∃ behind, kept = raw ++ ':' :: behind := by
      have hsplit := List.takeWhile_append_dropWhile (p := fun c => decide (c ≠ ':')) (l := kept)
      cases hdrop : kept.dropWhile fun c => decide (c ≠ ':') with
      | nil =>
        have hnone := List.dropWhile_eq_nil_iff.mp hdrop ':' hmem
        exact absurd rfl (of_decide_eq_true hnone)
      | cons c behind =>
        have hc : c = ':' := by
          have hfirst := @Url.head_dropWhile (fun c => decide (c ≠ ':')) kept c
            (by rw [hdrop]; rfl)
          simpa using hfirst
        subst hc
        rw [hdrop] at hsplit
        exact ⟨behind, hsplit.symm⟩
    have hraw : before ':' (cleaned url) = raw.filter keptChar := by
      rw [hcleaned, hkept, List.filter_append, List.filter_cons_of_pos (by decide)]
      unfold before
      rw [List.takeWhile_append_of_pos, List.takeWhile_cons_of_neg (by simp), List.append_nil]
      intro c hc
      exact List.mem_takeWhile_imp (p := fun c => decide (c ≠ ':')) (List.mem_filter.mp hc).1
    rw [hraw] at hhead hall
    refine ⟨blanks, raw, behind, ⟨?_, ?_, ?_, ?_⟩, ?_, by rw [hraw]⟩
    · show url = blanks ++ (raw ++ ':' :: behind)
      rw [← hkept]
      exact List.takeWhile_append_dropWhile.symm
    · intro c hc
      have hle := List.mem_takeWhile_imp (p := fun c : Char => decide (c.toNat ≤ 0x20)) hc
      rw [frontBlank, hle]
      rfl
    · -- the first character is no blank, so it is kept
      cases hfirst : raw with
      | nil =>
        rw [hfirst] at hhead
        cases hhead
      | cons c more =>
        have hc : decide (c.toNat ≤ 0x20) = false := by
          apply @Url.head_dropWhile (fun c => decide (c.toNat ≤ 0x20)) url
          show c ∈ kept.head?
          rw [hkept, hfirst]
          rfl
        rw [decide_eq_false_iff_not] at hc
        have hkeeps : keptChar c = true := by
          by_contra hdropped
          simp only [keptChar, Bool.and_eq_true, decide_eq_true_eq, not_and_or, not_not] at hdropped
          rcases hdropped with (rfl | rfl) | rfl <;> exact hc (by decide)
        rw [hfirst, List.filter_cons_of_pos hkeeps] at hhead
        exact ⟨c, rfl, hhead⟩
    · intro c hc
      cases hkeeps : keptChar c with
      | false => exact Or.inr rfl
      | true => exact Or.inl (List.all_eq_true.mp hall c (List.mem_filter.mpr ⟨hc, hkeeps⟩))
    · intro c hc
      exact of_decide_eq_true
        (List.mem_takeWhile_imp (p := fun c : Char => decide (c.toNat ≤ 0x20)) hc)
  · cases h
    exact absurd rfl hscheme

theorem spacesEscaped_append (a b : Text) :
    spacesEscaped (a ++ b) = spacesEscaped a ++ spacesEscaped b :=
  List.flatMap_append ..

theorem spacesEscaped_eq_self {text : Text} (h : ∀ c ∈ text, c ≠ ' ') :
    spacesEscaped text = text := by
  induction text with
  | nil => rfl
  | cons c rest ih =>
    unfold spacesEscaped at ih ⊢
    rw [List.flatMap_cons, if_neg (h c List.mem_cons_self),
      ih fun d hd => h d (List.mem_cons_of_mem c hd)]
    rfl

theorem Front.escaped {text blanks scheme rest : Text} (h : Front text blanks scheme rest)
    (hblank : ∀ c ∈ blanks, c.toNat ≤ 0x20) :
    Front (spacesEscaped text) (spacesEscaped blanks) scheme (spacesEscaped rest) := by
  have hscheme : spacesEscaped scheme = scheme :=
    spacesEscaped_eq_self fun c hc => schemeChar_ne (h.chars c hc) rfl rfl
  refine ⟨?_, ?_, h.starts, h.chars⟩
  · rw [h.eq, spacesEscaped_append, spacesEscaped_append, hscheme]
    rfl
  · intro c hc
    obtain ⟨d, hd, hmem⟩ := List.mem_flatMap.mp hc
    by_cases hspace : d = ' '
    · rw [if_pos hspace] at hmem
      simp only [List.mem_cons, List.not_mem_nil, or_false] at hmem
      rcases hmem with rfl | rfl | rfl <;> decide
    · rw [if_neg hspace, List.mem_singleton] at hmem
      subst hmem
      rw [frontBlank, decide_eq_true (hblank c hd)]
      rfl

/-! ## What a request makes of the front -/

theorem isSpace_of_isAlpha {c : Char} (h : c.isAlpha = true) : Url.isSpace c = false := by
  by_contra hspace
  rw [Bool.not_eq_false] at hspace
  have hrange : c.toNat ≤ 0x20 ∨ 0x80 ≤ c.toNat := by
    simp only [Url.isSpace, Bool.or_eq_true, Bool.and_eq_true, decide_eq_true_eq] at hspace
    omega
  rcases hrange with hlow | hhigh
  · exact Url.isAlpha_gt_blank h hlow
  · change (decide (c.val ≥ 'A'.val ∧ c.val ≤ 'Z'.val) ||
      (decide (c.val ≥ 'a'.val) && decide (c.val ≤ 'z'.val))) = true at h
    simp [UInt32.le_iff_toNat_le] at h
    have hval : c.toNat = c.val.toNat := rfl
    omega

/-- Stripping takes blanks from the front, and leaves the scheme and the colon. -/
theorem Front.strip {text blanks scheme rest : Text} (h : Front text blanks scheme rest) :
    ∃ blanks' rest', Front (strip text) blanks' scheme rest' := by
  obtain ⟨c, hc, halpha⟩ := h.starts
  obtain ⟨more, rfl⟩ : ∃ more, scheme = c :: more := List.head?_eq_some_iff.mp hc
  have hfront : text.dropWhile Url.isSpace =
      blanks.dropWhile Url.isSpace ++ ((c :: more) ++ ':' :: rest) := by
    have hrest : ((c :: more) ++ ':' :: rest).dropWhile Url.isSpace = (c :: more) ++ ':' :: rest :=
      List.dropWhile_cons_of_neg (by rw [isSpace_of_isAlpha halpha]; exact Bool.false_ne_true)
    rw [h.eq, List.dropWhile_append]
    split
    · rename_i hnone
      rw [List.isEmpty_iff.mp hnone, hrest]
      rfl
    · rfl
  refine ⟨blanks.dropWhile Url.isSpace, (rest.reverse.dropWhile Url.isSpace).reverse, ?_, ?_,
    h.starts, h.chars⟩
  · unfold Url.strip
    rw [hfront, List.reverse_append, List.reverse_append, List.reverse_cons, List.append_assoc,
      List.append_assoc, List.dropWhile_append]
    -- the colon is not a blank
    split
    · rename_i hnone
      rw [List.isEmpty_iff.mp hnone, List.singleton_append,
        List.dropWhile_cons_of_neg (by decide)]
      simp
    · simp
  · intro d hd
    exact h.blank d ((List.dropWhile_suffix _).subset hd)

theorem Front.head_ne {text blanks scheme rest : Text} (h : Front text blanks scheme rest) :
    text.head? ≠ some '<' := by
  rw [h.eq]
  cases hblanks : blanks with
  | cons c more =>
    have hfacts := frontBlank_facts (h.blank c (hblanks ▸ List.mem_cons_self))
    exact fun hhead => hfacts.2.2.1 (Option.some.inj hhead)
  | nil =>
    obtain ⟨c, hc, halpha⟩ := h.starts
    obtain ⟨more, rfl⟩ : ∃ more, scheme = c :: more := List.head?_eq_some_iff.mp hc
    exact fun hhead => Url.ne_of_isAlpha halpha rfl (Option.some.inj hhead)

theorem Front.before_colon {text blanks scheme rest : Text} (h : Front text blanks scheme rest) :
    before ':' text = blanks ++ scheme := by
  unfold before
  rw [h.eq, ← List.append_assoc, List.takeWhile_append_of_pos,
    List.takeWhile_cons_of_neg (by simp), List.append_nil]
  intro c hc
  have htype := (h.typeChars c hc).1
  rw [typeChar, Bool.and_eq_true] at htype
  exact htype.2

/-- `URL:` in front would make the scheme `url`. -/
theorem Front.not_url {text blanks scheme rest : Text} (h : Front text blanks scheme rest)
    (hscheme : (scheme.filter keptChar).map Char.toLower ≠ ['u', 'r', 'l']) :
    text.take 4 ≠ ['U', 'R', 'L', ':'] := by
  intro htake
  have htext := List.take_append_drop 4 text
  rw [htake] at htext
  have hbefore := h.before_colon
  have hurl : before ':' text = ['U', 'R', 'L'] := by
    rw [← htext]
    rfl
  rw [hurl] at hbefore
  cases hblanks : blanks with
  | cons c more =>
    rw [hblanks] at hbefore
    have hfacts := frontBlank_facts (h.blank c (hblanks ▸ List.mem_cons_self))
    exact hfacts.2.2.2.1 (List.cons.inj hbefore).1.symm
  | nil =>
    rw [hblanks, List.nil_append] at hbefore
    rw [← hbefore] at hscheme
    exact hscheme (by decide)

theorem Front.unwrap {text blanks scheme rest : Text} (h : Front text blanks scheme rest)
    (hscheme : (scheme.filter keptChar).map Char.toLower ≠ ['u', 'r', 'l']) :
    ∃ blanks' rest', Front (unwrap text) blanks' scheme rest' := by
  obtain ⟨blanks', rest', hstrip⟩ := h.strip
  have hsame : Fetcher.unwrap text = Url.strip text := by
    unfold Fetcher.unwrap
    dsimp only
    have hplain : ¬ ((Url.strip text).head? = some '<' ∧ (Url.strip text).getLast? = some '>') :=
      fun hwrapped => hstrip.head_ne hwrapped.1
    rw [if_neg hplain, if_neg (hstrip.not_url hscheme)]
  rw [hsame]
  exact ⟨blanks', rest', hstrip⟩

/-- What stands before the last `#` has the same front. -/
theorem Front.splitTag {text blanks scheme rest : Text} (h : Front text blanks scheme rest) :
    ∃ rest', Front (splitTag text).1 blanks scheme rest' := by
  unfold Fetcher.splitTag
  split
  · rename_i hmem
    rw [List.contains_iff_mem, h.eq, ← List.append_assoc, List.mem_append, List.mem_cons] at hmem
    have hrest : '#' ∈ rest := by
      rcases hmem with hfront | hcolon | hrest
      · exact absurd rfl (h.typeChars '#' hfront).2
      · cases hcolon
      · exact hrest
    refine ⟨beforeLast '#' rest, ?_, h.blank, h.starts, h.chars⟩
    have hlast : rest.reverse.dropWhile (fun c => decide (c ≠ '#')) ≠ [] := by
      intro hnone
      have hall := List.dropWhile_eq_nil_iff.mp hnone '#' (List.mem_reverse.mpr hrest)
      exact of_decide_eq_true hall rfl
    show beforeLast '#' text = _
    unfold beforeLast
    rw [h.eq, ← List.append_assoc, List.reverse_append, List.reverse_cons, List.append_assoc,
      List.dropWhile_append, if_neg (by simpa using hlast), List.drop_append_of_le_length
        (List.length_pos_iff.mpr hlast)]
    simp
  · exact ⟨rest, h⟩

theorem Front.splitType {text blanks scheme rest : Text} (h : Front text blanks scheme rest) :
    splitType text = some ((blanks ++ scheme).map Char.toLower, rest) := by
  have htypes : ∀ c ∈ blanks ++ scheme, typeChar c = true := fun c hc => (h.typeChars c hc).1
  have htake : text.takeWhile typeChar = blanks ++ scheme := by
    rw [h.eq, ← List.append_assoc, List.takeWhile_append_of_pos htypes,
      List.takeWhile_cons_of_neg (by decide), List.append_nil]
  have hdrop : text.dropWhile typeChar = ':' :: rest := by
    rw [h.eq, ← List.append_assoc, List.dropWhile_append_of_pos htypes,
      List.dropWhile_cons_of_neg (by decide)]
  have hnonempty : blanks ++ scheme ≠ [] := by
    obtain ⟨c, hc, -⟩ := h.starts
    obtain ⟨more, rfl⟩ : ∃ more, scheme = c :: more := List.head?_eq_some_iff.mp hc
    exact List.append_ne_nil_of_right_ne_nil blanks (List.cons_ne_nil c more)
  unfold Fetcher.splitType
  dsimp only
  rw [htake, hdrop, if_pos ⟨hnonempty, rfl⟩]
  rfl

/-- A URL with a front is one for a request, and its type is the front without the colon. -/
theorem Front.newRequest {text blanks scheme rest : Text} (h : Front text blanks scheme rest)
    (hscheme : (scheme.filter keptChar).map Char.toLower ≠ ['u', 'r', 'l']) (hostHeader : Text) :
    ∃ request blanks', newRequest text hostHeader = .ok request ∧
      request.hostHeader = hostHeader ∧ (∀ c ∈ blanks', frontBlank c = true) ∧
      request.type = (blanks' ++ scheme).map Char.toLower := by
  obtain ⟨blanks', rest', hunwrap⟩ := h.unwrap hscheme
  obtain ⟨rest'', htag⟩ := hunwrap.splitTag
  unfold Fetcher.newRequest
  dsimp only
  rw [htag.splitType]
  exact ⟨_, blanks', rfl, rfl, htag.blank, rfl⟩

theorem isAlpha_of_toLower {c d : Char} (h : c.toLower = d) (hd : d.isAlpha = true) :
    c.isAlpha = true := by
  unfold Char.toLower at h
  split at h
  · rename_i hupper
    show (c.isUpper || c.isLower) = true
    rw [Bool.or_eq_true]
    exact Or.inl (decide_eq_true hupper)
  · rw [h]
    exact hd

/-- A type of letters is the scheme that `urlsplit` reads. -/
theorem type_eq_scheme {blanks scheme type : Text} (hblank : ∀ c ∈ blanks, frontBlank c = true)
    (htype : (blanks ++ scheme).map Char.toLower = type) (halpha : ∀ c ∈ type, c.isAlpha = true) :
    type = (scheme.filter keptChar).map Char.toLower := by
  have hletters : ∀ c ∈ blanks ++ scheme, c.isAlpha = true := by
    intro c hc
    exact isAlpha_of_toLower rfl (halpha _ (htype ▸ List.mem_map_of_mem hc))
  have hblanks : blanks = [] := by
    cases hblanks : blanks with
    | nil => rfl
    | cons c more =>
      have hc : c ∈ blanks := hblanks ▸ List.mem_cons_self
      have hnot := (frontBlank_facts (hblank c hc)).2.2.2.2
      rw [hletters c (List.mem_append_left scheme hc)] at hnot
      cases hnot
  have hkept : scheme.filter keptChar = scheme := by
    rw [List.filter_eq_self]
    intro c hc
    have hc := hletters c (List.mem_append_right blanks hc)
    simp only [keptChar, Bool.and_eq_true, decide_eq_true_eq]
    exact ⟨⟨Url.ne_of_isAlpha hc rfl, Url.ne_of_isAlpha hc rfl⟩, Url.ne_of_isAlpha hc rfl⟩
  rw [← htype, hblanks, hkept]
  rfl

/-! ## Checked URLs -/

theorem urlsplit_scheme {t : Url.Tables} {url : Text} {parsed : Url.Split}
    (h : Url.urlsplit t url = some parsed) : parsed.scheme = (splitScheme (cleaned url)).1 := by
  unfold Url.urlsplit at h
  dsimp only at h
  split at h
  · split at h
    · cases h
      rfl
    · cases h
  · cases h
    rfl

theorem validateUrl_ok {lib : Library} {policy : TrustPolicy} {url : Text} {parsed : Url.Split}
    (h : validateUrl lib policy url = .ok parsed) :
    Url.urlsplit lib.tables url = some parsed ∧ (parsed.scheme = http ∨ parsed.scheme = https) ∧
      parsed.scheme ∈ policy.allowedSchemes := by
  unfold validateUrl at h
  split at h
  · cases h
  · split at h
    · cases h
    · rename_i parsed' hsplit
      split at h
      · cases h
      · rename_i hweb
        split at h
        · cases h
        · rename_i hallowed
          split at h
          · cases h
          · cases h
            rw [not_not] at hallowed
            refine ⟨hsplit, ?_, hallowed⟩
            by_contra hneither
            exact hweb (not_or.mp hneither)

/-- What the checks of a URL have found out. -/
structure Checked (lib : Library) (policy : TrustPolicy) (url : Text) (target : Admitted) :
    Prop where
  parsed : ∃ parsed, Url.urlsplit lib.tables url = some parsed ∧ parsed.scheme = target.scheme
  web : target.scheme = http ∨ target.scheme = https
  allowed : target.scheme ∈ policy.allowedSchemes
  encrypted : policy.requireHttps = true → target.scheme = https
  port : target.port ∈ policy.allowedPorts

theorem validateTarget_ok {lib : Library} {policy : TrustPolicy} {url : Text} {target : Admitted}
    (h : validateTarget lib policy url = .ok target) : Checked lib policy url target := by
  unfold validateTarget at h
  split at h
  · cases h
  · rename_i parsed hvalid
    obtain ⟨hsplit, hweb, hallowed⟩ := validateUrl_ok hvalid
    split at h
    · cases h
    · split at h
      · cases h
      · rename_i hhttps
        split at h
        · cases h
        · rename_i hport
          cases h
          rw [not_not] at hport
          refine ⟨⟨parsed, hsplit, rfl⟩, hweb, hallowed, fun hrequired => ?_, hport⟩
          by_contra hne
          exact hhttps ⟨hrequired, hne⟩

theorem web_isAlpha {scheme : Text} (h : scheme = http ∨ scheme = https) :
    ∀ c ∈ scheme, c.isAlpha = true := by
  rcases h with rfl | rfl
  · have hall : http.all Char.isAlpha = true := by decide
    exact fun c hc => List.all_eq_true.mp hall c hc
  · have hall : https.all Char.isAlpha = true := by decide
    exact fun c hc => List.all_eq_true.mp hall c hc

/-- A checked URL, with its spaces escaped or not, is one for a request. -/
theorem newRequest_of_validated {lib : Library} {policy : TrustPolicy} {url : Text}
    {target : Admitted} (h : validateTarget lib policy url = .ok target) {text : Text}
    (htext : text = url ∨ text = spacesEscaped url) (hostHeader : Text) :
    ∃ request, newRequest text hostHeader = .ok request ∧ request.hostHeader = hostHeader ∧
      (request.type = http ∨ request.type = https → request.type = target.scheme) := by
  have hchecked := validateTarget_ok h
  obtain ⟨parsed, hsplit, hparsed⟩ := hchecked.parsed
  have hscheme := (urlsplit_scheme hsplit).symm.trans hparsed
  have hsplit' : splitScheme (cleaned url) = (target.scheme, (splitScheme (cleaned url)).2) := by
    rw [← hscheme]
  have hnonempty : target.scheme ≠ [] := by
    rcases hchecked.web with hweb | hweb <;> rw [hweb] <;> decide
  obtain ⟨blanks, scheme, rest, hfront, hblank, hsame⟩ := front_of_split hsplit' hnonempty
  have hurl : (scheme.filter keptChar).map Char.toLower ≠ ['u', 'r', 'l'] := by
    rw [← hsame]
    rcases hchecked.web with hweb | hweb <;> rw [hweb] <;> decide
  have hfront' : ∃ blanks' rest', Front text blanks' scheme rest' := by
    rcases htext with rfl | rfl
    · exact ⟨blanks, rest, hfront⟩
    · exact ⟨_, _, hfront.escaped hblank⟩
  obtain ⟨blanks', rest', hfront'⟩ := hfront'
  obtain ⟨request, blanks'', hrequest, hheader, hblank'', htype⟩ :=
    hfront'.newRequest hurl hostHeader
  refine ⟨request, hrequest, hheader, fun hweb => ?_⟩
  rw [type_eq_scheme hblank'' htype.symm (web_isAlpha hweb), hsame]

end KiwiCatalog.Discovery.Fetcher
