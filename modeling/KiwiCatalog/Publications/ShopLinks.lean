import KiwiCatalog.Lib.Unquote
import KiwiCatalog.Publications.ShareCodes

/-!
# Shop links — what a link that passes has in none of its disguises

A share code, a segment or a prefix that a pass of decoding shows is still there after every later
pass, and the check looks at the text that no pass changes any more.  What gets through is an empty
user name before the host, and an address with a dot behind it.
-/

set_option autoImplicit false

namespace KiwiCatalog.Publications

open Url (Text DecodesTo)

/-! ## 1. What decoding keeps -/

theorem dropWord_unquote {word text rest : Text} (hword : ∀ c ∈ word, c ≠ '%' ∧ c.toUpper ≠ '%')
    (h : dropWord word text = some rest) :
    dropWord word (Url.unquote text) = some (Url.unquote rest) := by
  induction word generalizing text with
  | nil =>
    have hrest : text = rest := by
      cases text <;> exact Option.some.inj h
    rw [hrest]
    cases Url.unquote rest <;> rfl
  | cons c word ih =>
    cases text with
    | nil => cases h
    | cons d text =>
      unfold dropWord at h
      split at h
      · rename_i hsame
        have hplain : d ≠ '%' := by
          intro hd
          obtain ⟨hc, hupper⟩ := hword c List.mem_cons_self
          rw [hd] at hsame
          simp [Ne.symm hc, Ne.symm hupper] at hsame
        rw [Url.unquote_cons hplain]
        show (if d = c || d = c.toUpper || (c = 's' && d = 'ſ')
          then dropWord word (Url.unquote text) else none) = _
        rw [if_pos hsame]
        exact ih (fun x hx => hword x (List.mem_cons_of_mem c hx)) h
      · cases h

/-- The letters of the two words of a share code. -/
theorem plain_of_all {word : Text}
    (h : word.all (fun c => c ≠ '%' && c.toUpper ≠ '%') = true) :
    ∀ c ∈ word, c ≠ '%' ∧ c.toUpper ≠ '%' := by
  intro c hc
  simpa using List.all_eq_true.mp h c hc

theorem startsShareCode_unquote {text : Text} (h : startsShareCode text = true) :
    startsShareCode (Url.unquote text) = true := by
  unfold startsShareCode at h ⊢
  obtain ⟨rest, hrest, hcode⟩ := (Option.any_eq_true _ _).mp h
  rw [dropWord_unquote (plain_of_all (by decide)) hrest, Option.any_some]
  apply Bool.or_eq_true_iff.mpr
  rcases Bool.or_eq_true_iff.mp hcode with hseparated | hjoined
  · left
    obtain ⟨hseparator, hword⟩ := Bool.and_eq_true_iff.mp hseparated
    obtain ⟨c, hc, hdash⟩ := (Option.any_eq_true _ _).mp hseparator
    obtain ⟨tail, rfl⟩ := List.head?_eq_some_iff.mp hc
    obtain ⟨more, hmore⟩ := Option.isSome_iff_exists.mp hword
    have hplain : c ≠ '%' := by
      intro hpercent
      rw [hpercent] at hdash
      exact absurd hdash (by decide)
    rw [Url.unquote_cons hplain]
    apply Bool.and_eq_true_iff.mpr
    refine ⟨hdash, ?_⟩
    show (dropWord "code".toList (Url.unquote tail)).isSome = true
    have hcode : dropWord "code".toList tail = some more := hmore
    rw [dropWord_unquote (plain_of_all (by decide)) hcode]
    rfl
  · right
    obtain ⟨more, hmore⟩ := Option.isSome_iff_exists.mp hjoined
    rw [dropWord_unquote (plain_of_all (by decide)) hmore]
    rfl

/-- A share code starts with a letter that no escape has. -/
theorem parts_of_startsShareCode {text : Text} (h : startsShareCode text = true) :
    ∃ c rest, text = c :: rest ∧ Url.parts c = true := by
  unfold startsShareCode at h
  obtain ⟨rest, hrest, -⟩ := (Option.any_eq_true _ _).mp h
  cases text with
  | nil => cases hrest
  | cons c tail =>
    refine ⟨c, tail, rfl, ?_⟩
    change (if c = 's' || c = 's'.toUpper || ('s' = 's' && c = 'ſ')
      then dropWord "hare".toList tail else none) = some rest at hrest
    split at hrest
    · rename_i hletter
      have hcases : (c = 's' ∨ c = 'S') ∨ c = 'ſ' := by simpa using hletter
      rcases hcases with (rfl | rfl) | rfl
      · decide
      · decide
      · decide
    · cases hrest

theorem hasShareCode_unquote {text : Text} (h : hasShareCode text = true) :
    hasShareCode (Url.unquote text) = true := by
  obtain ⟨tail, htail, hstarts⟩ := List.any_eq_true.mp h
  obtain ⟨front, rfl⟩ := (List.mem_tails _ _).mp htail
  obtain ⟨c, rest, rfl, hc⟩ := parts_of_startsShareCode hstarts
  have hplain : c ≠ '%' := by
    have hfacts := hc
    simp only [Url.parts, Bool.and_eq_true] at hfacts
    exact of_decide_eq_true hfacts.1
  rw [Url.unquote_append_cons hc]
  apply List.any_eq_true.mpr
  refine ⟨c :: Url.unquote rest, ?_, ?_⟩
  · rw [List.mem_tails]
    exact List.suffix_append _ _
  · rw [← Url.unquote_cons hplain]
    exact startsShareCode_unquote hstarts

theorem isPrefixOf_unquote {word text : Text} (hword : '%' ∉ word)
    (h : word.isPrefixOf text = true) : word.isPrefixOf (Url.unquote text) = true := by
  obtain ⟨rest, rfl⟩ := List.isPrefixOf_iff_prefix.mp h
  induction word with
  | nil => rfl
  | cons c word ih =>
    rw [List.mem_cons, not_or] at hword
    rw [List.cons_append, Url.unquote_cons (Ne.symm hword.1)]
    have hrest := ih hword.2 (List.isPrefixOf_iff_prefix.mpr (List.prefix_append word rest))
    simpa using hrest

theorem isAgentPath_unquote {path : Text} (h : isAgentPath path = true) :
    isAgentPath (Url.unquote path) = true := by
  unfold isAgentPath at h ⊢
  apply Bool.or_eq_true_iff.mpr
  rcases Bool.or_eq_true_iff.mp h with ha2a | hwellKnown
  · exact .inl (isPrefixOf_unquote (by decide) ha2a)
  · exact .inr (isPrefixOf_unquote (by decide) hwellKnown)

/-! ## 2. The text that no pass changes -/

theorem decodesTo_of_decodeRounds {rounds : Nat} {text decoded : Text}
    (h : decodeRounds rounds text = (decoded, false)) : DecodesTo text decoded := by
  induction rounds generalizing text with
  | zero =>
    have hpair := Prod.mk.inj h
    have hfixed : Url.unquote text = text := by simpa using hpair.2
    rw [← hpair.1]
    exact ⟨⟨0, rfl⟩, hfixed⟩
  | succ rounds ih =>
    unfold decodeRounds at h
    split at h
    · rename_i hfixed
      rw [← (Prod.mk.inj h).1]
      exact ⟨⟨0, rfl⟩, hfixed⟩
    · split at h
      · cases h
      · obtain ⟨⟨passes, hpasses⟩, hfixed⟩ := ih h
        exact ⟨⟨passes + 1, hpasses⟩, hfixed⟩

theorem decodesTo_decodePercentBounded {text : Text}
    (h : (decodePercentBounded text).2 = false) :
    DecodesTo text (decodePercentBounded text).1 := by
  unfold decodePercentBounded at h ⊢
  split at h
  · cases h
  · rename_i hshort
    rw [if_neg hshort]
    exact decodesTo_of_decodeRounds (Prod.ext rfl h)

theorem decodePercentBounded_of_fixed {text : Text} (hfixed : Url.unquote text = text)
    (h : (decodePercentBounded text).2 = false) : (decodePercentBounded text).1 = text := by
  obtain ⟨⟨passes, hpasses⟩, -⟩ := decodesTo_decodePercentBounded h
  rw [← hpasses]
  exact Function.iterate_fixed hfixed passes

/-- No pass of decoding shows a share code in a part that passes. -/
theorem hasShareCode_iterate {component : Text} (h : componentHasShareCode component = false)
    (k : Nat) : hasShareCode (Url.unquote^[k] component) = false := by
  obtain ⟨hdecoded, hcode⟩ := Bool.or_eq_false_iff.mp h
  have hkept : ∀ t, hasShareCode t = true → hasShareCode (Url.unquote t) = true :=
    fun t ht => hasShareCode_unquote ht
  exact (decodesTo_decodePercentBounded hdecoded).eq_false hkept hcode k

/-! ## 3. The path -/

/-- What Python's tables and `ipaddress` say of every text. -/
structure PlainTables (env : TextEnv) : Prop where
  lower_nil : env.tables.lower [] = []
  lower_percent : ∀ text, '%' ∈ text → '%' ∈ env.tables.lower text
  -- the digits of an address may be in either case
  address_lower : ∀ text, env.internalAddress (env.tables.lower text) = true →
    env.internalAddress text = true
  -- an address is written without brackets
  address_brackets : ∀ text, env.internalAddress text = true → '[' ∉ text ∧ ']' ∉ text

def HasA2aSegment (env : TextEnv) (path : Text) : Prop :=
  ∃ segment ∈ Url.splitOn '/' path, env.tables.lower segment = "a2a".toList

theorem not_percent_of_a2a {env : TextEnv} (tables : PlainTables env) {segment : Text}
    (h : env.tables.lower segment = "a2a".toList) : '%' ∉ segment := by
  intro hpercent
  have hlower := tables.lower_percent segment hpercent
  rw [h] at hlower
  exact absurd hlower (by decide)

theorem hasA2aSegment_unquote {env : TextEnv} (tables : PlainTables env) {path : Text}
    (h : HasA2aSegment env path) : HasA2aSegment env (Url.unquote path) := by
  obtain ⟨segment, hmem, hlower⟩ := h
  refine ⟨segment, ?_, hlower⟩
  exact Url.mem_splitOn_unquote (by decide) hmem (not_percent_of_a2a tables hlower)

theorem not_hasA2aSegment_nil {env : TextEnv} (tables : PlainTables env) :
    ¬ HasA2aSegment env [] := by
  rintro ⟨segment, hmem, hlower⟩
  rw [List.mem_singleton.mp hmem, tables.lower_nil] at hlower
  exact absurd hlower (by decide)

/-- The segments of a path that passes. -/
theorem not_hasA2aSegment {env : TextEnv} (tables : PlainTables env) {decoded : Text}
    (h : ((Url.splitOn '/' decoded).filter fun segment => !segment.isEmpty).any
      (isNamed env ("a2a" :: shareCodeParamNames)) = false) : ¬ HasA2aSegment env decoded := by
  rintro ⟨segment, hmem, hlower⟩
  have hsome : segment ≠ [] := by
    intro hnil
    rw [hnil, tables.lower_nil] at hlower
    exact absurd hlower (by decide)
  have hkept : segment ∈ (Url.splitOn '/' decoded).filter fun segment => !segment.isEmpty :=
    List.mem_filter.mpr ⟨hmem, by simpa using hsome⟩
  have hnamed := List.any_eq_false.mp h segment hkept
  rw [Bool.not_eq_true] at hnamed
  obtain ⟨hdecoded, hnames⟩ := Bool.or_eq_false_iff.mp hnamed
  -- a segment without a percent sign is decoded already
  have hfixed := Url.unquote_of_no_percent (not_percent_of_a2a tables hlower)
  rw [decodePercentBounded_of_fixed hfixed hdecoded, hlower, List.any_cons] at hnames
  exact absurd (Bool.or_eq_false_iff.mp hnames).1 (by decide)

theorem path_of_pathRefused {env : TextEnv} (tables : PlainTables env) {path : Text}
    (h : pathRefused env path = false) (k : Nat) :
    ¬ HasA2aSegment env (Url.unquote^[k] path) ∧ isAgentPath (Url.unquote^[k] path) = false := by
  cases hpath : path with
  | nil =>
    rw [Function.iterate_fixed (show Url.unquote [] = [] from rfl)]
    exact ⟨not_hasA2aSegment_nil tables, rfl⟩
  | cons c rest =>
    rw [← hpath]
    have hdefault : (if path.isEmpty then ['/'] else path) = path := by
      rw [hpath]
      rfl
    unfold pathRefused at h
    rw [hdefault] at h
    obtain ⟨hfront, hsegments⟩ := Bool.or_eq_false_iff.mp h
    obtain ⟨hdecoded, hprefix⟩ := Bool.or_eq_false_iff.mp hfront
    have hdecodes := decodesTo_decodePercentBounded hdecoded
    constructor
    · apply hdecodes.never
      · exact fun t ht => hasA2aSegment_unquote tables ht
      · exact not_hasA2aSegment tables hsegments
    · have hkept : ∀ t, isAgentPath t = true → isAgentPath (Url.unquote t) = true :=
        fun t ht => isAgentPath_unquote ht
      exact hdecodes.eq_false hkept hprefix k

/-! ## 4. The authority -/

theorem eq_around_last {c : Char} {text : Text} (h : c ∈ text) :
    text = Url.beforeLast c text ++ c :: Url.behindLast c text := by
  unfold Url.beforeLast Url.behindLast
  have hmem : c ∈ text.reverse := List.mem_reverse.mpr h
  obtain ⟨back, front, hsplit, hback⟩ := List.eq_append_cons_of_mem hmem
  have hrun : text.reverse.takeWhile (· ≠ c) = back ∧
      text.reverse.dropWhile (· ≠ c) = c :: front := by
    have hall : ∀ d ∈ back, decide (d ≠ c) = true := by
      intro d hd
      exact decide_eq_true fun heq => hback (heq ▸ hd)
    rw [hsplit, List.takeWhile_append_of_pos hall, List.dropWhile_append_of_pos hall]
    simp
  have htext : text = (back ++ c :: front).reverse := by
    rw [← hsplit, List.reverse_reverse]
  rw [hrun.1, hrun.2, htext]
  simp

/-- The authority starts with an empty user name, with or without an empty password behind it. -/
def emptyUserinfo (netloc : Text) : Bool :=
  ['@'].isPrefixOf netloc || [':', '@'].isPrefixOf netloc

theorem mem_of_emptyUserinfo {netloc : Text} (h : emptyUserinfo netloc = true) : '@' ∈ netloc := by
  rcases Bool.or_eq_true_iff.mp h with hname | hboth
  · exact (List.isPrefixOf_iff_prefix.mp hname).subset (by decide)
  · exact (List.isPrefixOf_iff_prefix.mp hboth).subset (by decide)

theorem emptyUserinfo_of_no_credentials {s : Url.Split} (h : s.hasCredentials = false)
    (hmem : '@' ∈ s.netloc) : emptyUserinfo s.netloc = true := by
  have hempty : s.username = [] ∧ s.password = [] := by
    simpa [Url.Split.hasCredentials] using h
  have hnetloc : s.netloc = s.userinfo ++ '@' :: Url.behindLast '@' s.netloc := eq_around_last hmem
  have hcolon := Url.userinfo_of_no_credentials h
  apply Bool.or_eq_true_iff.mpr
  cases huser : s.userinfo with
  | nil =>
    rw [huser, List.nil_append] at hnetloc
    rw [hnetloc]
    exact .inl rfl
  | cons c rest =>
    -- the password is all that stands behind the first colon
    have hc : c = ':' := hcolon c (by rw [huser]; exact List.mem_cons_self)
    have hpassword := hempty.2
    unfold Url.Split.password Url.behind at hpassword
    rw [huser, hc] at hpassword
    have hrest : rest = [] := by simpa using hpassword
    rw [huser, hc, hrest] at hnetloc
    rw [hnetloc]
    exact .inr rfl

/-- A host that is an address, which is not global, with dots behind it. -/
def dottedAddress (env : TextEnv) (parsed : Url.Split) : Bool :=
  (env.tables.lower (parsed.hostname env.tables)).getLast? = some '.' &&
    env.internalAddress (plainHost env parsed)

theorem stripBrackets_of_not_mem {host : Text} (hopen : '[' ∉ host) (hclose : ']' ∉ host) :
    stripBrackets host = host := by
  have hkept : ∀ text : Text, '[' ∉ text → ']' ∉ text →
      text.dropWhile (fun c => c = '[' || c = ']') = text := by
    intro text ho hc
    apply Url.dropWhile_eq_self_of_head
    intro c hhead
    have hmem := List.mem_of_mem_head? hhead
    have hne : c ≠ '[' ∧ c ≠ ']' := ⟨fun h => ho (h ▸ hmem), fun h => hc (h ▸ hmem)⟩
    simp [hne]
  unfold stripBrackets
  rw [hkept host hopen hclose, hkept host.reverse (by simpa using hopen) (by simpa using hclose),
    List.reverse_reverse]

theorem plainHost_of_no_dot {env : TextEnv} {parsed : Url.Split}
    (h : (env.tables.lower (parsed.hostname env.tables)).getLast? ≠ some '.') :
    plainHost env parsed = env.tables.lower (parsed.hostname env.tables) := by
  unfold plainHost
  rw [Url.dropWhile_eq_self_of_head, List.reverse_reverse]
  intro c hc
  rw [List.head?_reverse] at hc
  apply decide_eq_false
  intro hdot
  exact h (hdot ▸ hc)

/-- The check of the host sees every address that no dot disguises. -/
theorem internalAddress_plainHost {env : TextEnv} (tables : PlainTables env) {parsed : Url.Split}
    (hchecked : env.internalAddress (stripBrackets (parsed.hostname env.tables)) = false)
    (hdots : dottedAddress env parsed = false) :
    env.internalAddress (plainHost env parsed) = false := by
  rw [← Bool.not_eq_true]
  intro haddress
  have hnodot : (env.tables.lower (parsed.hostname env.tables)).getLast? ≠ some '.' := by
    intro hdot
    have hboth : dottedAddress env parsed = true :=
      Bool.and_eq_true_iff.mpr ⟨decide_eq_true hdot, haddress⟩
    rw [hboth] at hdots
    cases hdots
  rw [plainHost_of_no_dot hnodot] at haddress
  have hhost := tables.address_lower _ haddress
  obtain ⟨hopen, hclose⟩ := tables.address_brackets _ hhost
  rw [stripBrackets_of_not_mem hopen hclose, hhost] at hchecked
  cases hchecked

/-! ## 5. The check -/

/-- What a link on a public page has and has not, whatever a reader decodes. -/
structure PublicLink (env : TextEnv) (parsed : Url.Split) : Prop where
  web : isHttp parsed.scheme = true
  no_share_code : ∀ component ∈ [parsed.path, parsed.query, parsed.fragment], ∀ k,
    hasShareCode (Url.unquote^[k] component) = false
  no_a2a_segment : ∀ k, ¬ HasA2aSegment env (Url.unquote^[k] parsed.path)
  no_agent_prefix : ∀ k, isAgentPath (Url.unquote^[k] parsed.path) = false
  no_userinfo : '@' ∉ parsed.netloc
  no_platform_host : isWorkbuddyHost (plainHost env parsed) = false ∧
    isFirstPartyHost (plainHost env parsed) = false ∧ plainHost env parsed ∉ env.directoryHosts
  global_host : env.internalAddress (plainHost env parsed) = false

theorem validateShopUrl_strip (env : TextEnv) (raw : Text) :
    validateShopUrl env (Url.strip raw) = validateShopUrl env raw := by
  unfold validateShopUrl
  rw [Url.strip_strip]

theorem validateShopUrl_eq_ok {env : TextEnv} {raw url : Text}
    (h : validateShopUrl env raw = .ok url) (hurl : url ≠ []) :
    url = Url.strip raw ∧ ∀ parsed, Url.urlsplit env.tables url = some parsed →
      env.internalAddress (stripBrackets (parsed.hostname env.tables)) = false := by
  unfold validateShopUrl at h
  dsimp only at h
  split at h
  · exact absurd (Except.ok.inj h).symm hurl
  · split at h
    · cases h
    · split at h
      · cases h
      · rename_i parsed hsplit
        split at h
        · cases h
        · split at h
          · cases h
          · split at h
            · cases h
            · rename_i hglobal
              have hstrip := Except.ok.inj h
              refine ⟨hstrip.symm, ?_⟩
              intro parsed' hsplit'
              rw [← hstrip, hsplit] at hsplit'
              rw [← Option.some.inj hsplit']
              exact Bool.eq_false_iff.mpr hglobal

/-- A link that passes is the text without the blanks around it. -/
theorem checks_of_safePublicShopUrl {env : TextEnv} {raw link : Text} {blockedUrls : List Text}
    (h : safePublicShopUrl env raw blockedUrls = link) (hlink : link ≠ []) :
    link = Url.strip raw ∧ ∃ parsed, Url.urlsplit env.tables link = some parsed ∧
      env.internalAddress (stripBrackets (parsed.hostname env.tables)) = false ∧
      isUnsafe env blockedUrls link parsed = false := by
  unfold safePublicShopUrl at h
  split at h
  · exact absurd h.symm hlink
  · rename_i url hvalid
    split at h
    · exact absurd h.symm hlink
    · rename_i parsed hsplit
      split at h
      · exact absurd h.symm hlink
      · rename_i hsafe
        rw [Bool.not_eq_true, Bool.or_eq_false_iff] at hsafe
        subst h
        obtain ⟨hstrip, hglobal⟩ := validateShopUrl_eq_ok hvalid hlink
        exact ⟨hstrip, parsed, hsplit, hglobal parsed hsplit, hsafe.2⟩

theorem safePublicShopUrl_strip (env : TextEnv) (raw : Text) (blockedUrls : List Text) :
    safePublicShopUrl env (Url.strip raw) blockedUrls = safePublicShopUrl env raw blockedUrls := by
  unfold safePublicShopUrl
  rw [validateShopUrl_strip]

/-- What passes has every property but those that a user name and a dot get around. -/
theorem publicLink_of_checks {env : TextEnv} (tables : PlainTables env) {blockedUrls : List Text}
    {url : Text} {parsed : Url.Split} (hsplit : Url.urlsplit env.tables url = some parsed)
    (haddress : env.internalAddress (stripBrackets (parsed.hostname env.tables)) = false)
    (hsafe : isUnsafe env blockedUrls url parsed = false)
    (huser : emptyUserinfo parsed.netloc = false) (hdots : dottedAddress env parsed = false) :
    PublicLink env parsed := by
  simp only [isUnsafe, Bool.or_eq_false_iff] at hsafe
  obtain ⟨⟨⟨⟨⟨⟨⟨⟨⟨⟨⟨⟨hweb, -⟩, hcredentials⟩, -⟩, hworkbuddy⟩, hfirstParty⟩, hdirectory⟩, hcode⟩,
    hpath⟩, -⟩, -⟩, -⟩, -⟩ := hsafe
  have hcomponents : ∀ component ∈ [parsed.path, parsed.query, parsed.fragment],
      componentHasShareCode component = false := by
    intro component hmem
    unfold urlHasShareCode at hcode
    rw [hsplit] at hcode
    exact Bool.eq_false_iff.mpr (List.any_eq_false.mp hcode component hmem)
  exact
    { web := by simpa using hweb
      no_share_code := fun component hmem => hasShareCode_iterate (hcomponents component hmem)
      no_a2a_segment := fun k => (path_of_pathRefused tables hpath k).1
      no_agent_prefix := fun k => (path_of_pathRefused tables hpath k).2
      no_userinfo := by
        intro hmem
        rw [emptyUserinfo_of_no_credentials hcredentials hmem] at huser
        cases huser
      no_platform_host := by
        refine ⟨hworkbuddy, hfirstParty, ?_⟩
        intro hmem
        rw [List.contains_iff_mem.mpr hmem] at hdirectory
        cases hdirectory
      global_host := internalAddress_plainHost tables haddress hdots }

/-- ASCII, and one address that is not global. -/
def loopbackEnv : TextEnv :=
  { asciiEnv with
    internalAddress := fun address => address = "127.0.0.1".toList
    directoryHosts := ["catalog.example".toList] }

theorem eq_of_toLower {c d : Char} (hd : d.isLower = false) (h : c.toLower = d) : c = d := by
  unfold Char.toLower at h
  split at h
  · rename_i hupper
    exfalso
    subst h
    change (decide (c.val + ('a'.val - 'A'.val) ≥ 'a'.val) &&
      decide (c.val + ('a'.val - 'A'.val) ≤ 'z'.val)) = false at hd
    simp [UInt32.le_iff_toNat_le] at hd hupper
    omega
  · exact h

theorem eq_of_map_toLower {text word : Text} (hword : word.all (fun c => !c.isLower) = true)
    (h : text.map Char.toLower = word) : text = word := by
  induction word generalizing text with
  | nil => exact List.map_eq_nil_iff.mp h
  | cons d word ih =>
    obtain ⟨c, rest, rfl, hc, hrest⟩ := List.map_eq_cons_iff.mp h
    rw [List.all_cons, Bool.and_eq_true, Bool.not_eq_true'] at hword
    rw [eq_of_toLower hword.1 hc, ih hword.2 hrest]

theorem loopback_tables : PlainTables loopbackEnv where
  lower_nil := rfl
  lower_percent := by
    intro text hmem
    exact List.mem_map.mpr ⟨'%', hmem, rfl⟩
  address_lower := by
    intro text h
    apply decide_eq_true
    exact eq_of_map_toLower (by decide) (of_decide_eq_true h)
  address_brackets := by
    intro text h
    rw [show text = "127.0.0.1".toList from of_decide_eq_true h]
    decide

end KiwiCatalog.Publications
