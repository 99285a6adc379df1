import KiwiCatalog.Lib.Quote

/-!
# Query — the fields of a query, and URLs put together from their parts

`urlunsplit` undoes `urlsplit`, also where the query has been replaced.
-/

set_option autoImplicit false

namespace Url

/-! ## 1. `parse_qsl` -/

def unquotePlus (text : Text) : Text := unquote (text.map fun c => if c = '+' then ' ' else c)

/-- `parse_qsl(query, keep_blank_values=True)`. -/
def parseQsl (query : Text) : List (Text × Text) :=
  ((splitOn '&' query).filter fun field => !field.isEmpty).map fun field =>
    (unquotePlus (before '=' field), unquotePlus (behind '=' field))

/-- `text.rstrip(c)`. -/
def rstrip (c : Char) (text : Text) : Text := (text.reverse.dropWhile (· = c)).reverse

theorem splitOn_ne_nil (c : Char) (text : Text) : splitOn c text ≠ [] := by
  cases text with
  | nil => exact List.cons_ne_nil _ _
  | cons d text =>
    rw [splitOn]
    split
    · exact List.cons_ne_nil _ _
    · split <;> exact List.cons_ne_nil _ _

/-- A separator ends the last field of what stands before it. -/
theorem splitOn_append_separator (c : Char) (text rest : Text) :
    splitOn c (text ++ c :: rest) = splitOn c text ++ splitOn c rest := by
  induction text with
  | nil =>
    show (if c = c then [] :: splitOn c rest else _) = [] :: splitOn c rest
    rw [if_pos rfl]
  | cons d text ih =>
    rw [List.cons_append, splitOn, ih, splitOn]
    by_cases hd : d = c
    · rw [if_pos hd, if_pos hd]
      rfl
    · rw [if_neg hd, if_neg hd]
      cases hfields : splitOn c text with
      | nil => exact absurd hfields (splitOn_ne_nil c text)
      | cons field fields => rfl

/-- The fields with the separators between them. -/
theorem intercalate_splitOn (c : Char) (text : Text) :
    List.intercalate [c] (splitOn c text) = text := by
  induction text with
  | nil => rfl
  | cons d text ih =>
    rw [splitOn]
    cases hfields : splitOn c text with
    | nil => exact absurd hfields (splitOn_ne_nil c text)
    | cons field fields =>
      rw [hfields] at ih
      split
      · rename_i hd
        rw [hd, ← ih]
        cases fields <;> rfl
      · rw [← ih]
        cases fields <;> rfl

theorem unreserved_hexDigit {n : Nat} (h : n < 16) : unreserved (hexDigit n) = true := by
  have hall : (List.range 16).all (fun n => unreserved (hexDigit n)) = true := by decide
  exact List.all_eq_true.mp hall n (List.mem_range.mpr h)

/-- What a quoted text is made of. -/
theorem mem_quote {c : Char} {text : Text} (h : c ∈ quote text) : unreserved c = true ∨ c = '%' := by
  obtain ⟨d, -, hc⟩ := List.mem_flatMap.mp h
  unfold quoteChar at hc
  split at hc
  · rename_i hplain
    rw [List.mem_singleton.mp hc]
    exact .inl hplain
  · obtain ⟨b, hb, hc⟩ := List.mem_flatMap.mp hc
    have hlt := utf8_lt d b hb
    unfold quoteByte at hc
    simp only [List.mem_cons, List.not_mem_nil, or_false] at hc
    rcases hc with rfl | rfl | rfl
    · exact .inr rfl
    · exact .inl (unreserved_hexDigit (by omega))
    · exact .inl (unreserved_hexDigit (by omega))

theorem ne_of_mem_quote {c d : Char} {text : Text} (h : c ∈ quote text) (hd : unreserved d = false)
    (hpercent : d ≠ '%') : c ≠ d := by
  intro heq
  rw [heq] at h
  rcases mem_quote h with hplain | hsame
  · rw [hd] at hplain
    cases hplain
  · exact hpercent hsame

theorem unquotePlus_quote (text : Text) : unquotePlus (quote text) = text := by
  unfold unquotePlus
  have hsame : (quote text).map (fun c => if c = '+' then ' ' else c) = quote text := by
    refine (List.map_congr_left (g := id) ?_).trans (List.map_id _)
    intro c hc
    exact if_neg (ne_of_mem_quote hc (by decide) (by decide))
  rw [hsame, unquote_quote]

/-! ## 2. `urlunsplit` -/

/-- `uses_netloc`. -/
def usesNetloc : List String :=
  ["", "ftp", "http", "gopher", "nntp", "telnet", "imap", "wais", "file", "mms", "https", "shttp",
    "snews", "prospero", "rtsp", "rtsps", "rtspu", "rsync", "svn", "svn+ssh", "sftp", "nfs", "git",
    "git+ssh", "ws", "wss"]

/-- The netloc and the path. -/
def unsplitHierarchy (s : Split) : Text :=
  if !s.netloc.isEmpty || (!s.scheme.isEmpty && usesNetloc.any fun scheme => scheme.toList = s.scheme)
      || s.path.take 2 = ['/', '/'] then
    ['/', '/'] ++ s.netloc ++
      (if !s.path.isEmpty && s.path.head? ≠ some '/' then '/' :: s.path else s.path)
  else s.path

def urlunsplit (s : Split) : Text :=
  (if s.scheme.isEmpty then [] else s.scheme ++ [':']) ++ unsplitHierarchy s ++
    (if s.query.isEmpty then [] else '?' :: s.query) ++
    (if s.fragment.isEmpty then [] else '#' :: s.fragment)

/-! ## 3. What `urlsplit` finds -/

/-- No character that the splitting takes out. -/
def Printed (text : Text) : Prop := ∀ c ∈ text, c ≠ '\t' ∧ c ≠ '\r' ∧ c ≠ '\n'

/-- The parts of a URL with a netloc. -/
structure Parts (t : Tables) (s : Split) : Prop where
  accepted : netlocAccepted t s.netloc = true
  netloc : ∀ c ∈ s.netloc, netlocChar c = true
  path : s.path = [] ∨ s.path.head? = some '/'
  pathEnds : ∀ c ∈ s.path, c ≠ '?' ∧ c ≠ '#'
  queryEnds : ∀ c ∈ s.query, c ≠ '#'
  printed : Printed s.netloc ∧ Printed s.path ∧ Printed s.query

theorem mem_of_mem_before {c d : Char} {text : Text} (h : c ∈ before d text) :
    c ∈ text ∧ c ≠ d := by
  have hne := List.mem_takeWhile_imp h
  exact ⟨(List.takeWhile_sublist _).subset h, by simpa using hne⟩

theorem mem_of_mem_behind {c d : Char} {text : Text} (h : c ∈ behind d text) : c ∈ text :=
  (List.dropWhile_sublist _).subset (List.mem_of_mem_drop h)

theorem printed_cleaned (url : Text) : Printed (cleaned url) := by
  intro c hc
  have hkept := (List.mem_filter.mp hc).2
  simpa [and_assoc] using hkept

theorem Printed.subset {text more : Text} (h : Printed more) (hsub : ∀ c ∈ text, c ∈ more) :
    Printed text := fun c hc => h c (hsub c hc)

theorem printed_splitScheme {url : Text} (h : Printed url) : Printed (splitScheme url).2 := by
  unfold splitScheme
  split
  · exact h.subset fun c hc => mem_of_mem_behind hc
  · exact h

theorem head_dropWhile_netloc (text : Text) :
    text.dropWhile netlocChar = [] ∨
      ∃ c, (text.dropWhile netlocChar).head? = some c ∧ (c = '/' ∨ c = '?' ∨ c = '#') := by
  cases hrest : text.dropWhile netlocChar with
  | nil => exact .inl rfl
  | cons c rest =>
    have hnot := List.head?_dropWhile_not netlocChar text
    rw [hrest] at hnot
    refine .inr ⟨c, rfl, ?_⟩
    have hc : netlocChar c = false := by simpa using hnot
    unfold netlocChar at hc
    by_contra hother
    simp only [not_or] at hother
    simp [hother.1, hother.2.1, hother.2.2] at hc

theorem parts_of_urlsplit {t : Tables} {url : Text} {s : Split} (h : urlsplit t url = some s)
    (hnetloc : s.netloc ≠ []) : Parts t s := by
  have hprinted := printed_splitScheme (printed_cleaned url)
  unfold urlsplit at h
  rcases hscheme : splitScheme (cleaned url) with ⟨scheme, rest⟩
  rw [hscheme] at h hprinted
  dsimp only at h hprinted
  split at h
  · split at h
    · rename_i haccepted
      cases h
      have hbelow : ∀ c ∈ (rest.drop 2).dropWhile netlocChar, c ∈ rest := fun c hc =>
        List.mem_of_mem_drop ((List.dropWhile_sublist _).subset hc)
      constructor
      · exact haccepted
      · exact fun c hc => List.mem_takeWhile_imp hc
      · show before '?' (before '#' _) = [] ∨ _
        cases head_dropWhile_netloc (rest.drop 2) with
        | inl hnil =>
          rw [hnil]
          exact .inl rfl
        | inr hhead =>
          obtain ⟨c, hc, hends⟩ := hhead
          cases hrest : (rest.drop 2).dropWhile netlocChar with
          | nil =>
            rw [hrest] at hc
            cases hc
          | cons d more =>
            rw [hrest] at hc
            cases hc
            rcases hends with rfl | rfl | rfl
            · exact .inr rfl
            · exact .inl rfl
            · exact .inl rfl
      · intro c hc
        obtain ⟨hfront, hquery⟩ := mem_of_mem_before hc
        exact ⟨hquery, (mem_of_mem_before hfront).2⟩
      · intro c hc
        exact (mem_of_mem_before (mem_of_mem_behind hc)).2
      · refine ⟨hprinted.subset fun c hc => ?_, hprinted.subset fun c hc => ?_,
          hprinted.subset fun c hc => ?_⟩
        · exact List.mem_of_mem_drop ((List.takeWhile_sublist _).subset hc)
        · exact hbelow c (mem_of_mem_before (mem_of_mem_before hc).1).1
        · exact hbelow c (mem_of_mem_before (mem_of_mem_behind hc)).1
    · cases h
  · cases h
    exact absurd rfl hnetloc

theorem before_of_not_mem {c : Char} {text : Text} (h : ∀ d ∈ text, d ≠ c) : before c text = text :=
  List.takeWhile_eq_self_iff.mpr fun d hd => by simpa using h d hd

theorem before_append_self {c : Char} {text : Text} (h : ∀ d ∈ text, d ≠ c) (rest : Text) :
    before c (text ++ c :: rest) = text := by
  unfold before
  rw [List.takeWhile_append_of_pos fun d hd => by simpa using h d hd]
  simp

theorem behind_append_self {c : Char} {text : Text} (h : ∀ d ∈ text, d ≠ c) (rest : Text) :
    behind c (text ++ c :: rest) = rest := by
  unfold behind
  rw [List.dropWhile_append_of_pos fun d hd => by simpa using h d hd]
  simp

theorem behind_of_not_mem {c : Char} {text : Text} (h : ∀ d ∈ text, d ≠ c) : behind c text = [] := by
  unfold behind
  rw [List.dropWhile_eq_nil_iff.mpr fun d hd => by simpa using h d hd]
  rfl

/-- A web address put together with another query is split into the same other parts. -/
theorem urlsplit_urlunsplit {t : Tables} {s : Split} (h : Parts t s) {scheme : Text}
    (hscheme : Letters scheme) (hlower : s.scheme = scheme) (hsame : scheme.map Char.toLower = scheme)
    (hnetloc : s.netloc ≠ []) {query : Text} (hquery : query ≠ []) (hends : ∀ c ∈ query, c ≠ '#')
    (hprinted : Printed query) :
    urlsplit t (urlunsplit { s with query := query, fragment := [] }) =
      some { s with query := query, fragment := [] } := by
  have hpath : (if !s.path.isEmpty && s.path.head? ≠ some '/' then '/' :: s.path else s.path) =
      s.path := by
    rcases h.path with hnil | hhead
    · rw [hnil]
      rfl
    · rw [if_neg]
      simp [hhead]
  have hurl : urlunsplit { s with query := query, fragment := [] } =
      scheme ++ ':' :: '/' :: '/' :: (s.netloc ++ (s.path ++ '?' :: query)) := by
    unfold urlunsplit unsplitHierarchy
    dsimp only
    rw [hpath, List.isEmpty_eq_false_iff.mpr hnetloc, List.isEmpty_eq_false_iff.mpr hquery, hlower,
      List.isEmpty_eq_false_iff.mpr hscheme.1]
    simp
  have hcolon : ∀ c ∈ scheme, c ≠ ':' := fun c hc => ne_of_isAlpha (hscheme.2 c hc).1 rfl
  have hweb : startsWithLower (scheme ++ slashes)
      (scheme ++ ':' :: '/' :: '/' :: (s.netloc ++ (s.path ++ '?' :: query))) = true := by
    have hself : ∀ word rest : Text, startsWithLower word (word ++ rest) = true := by
      intro word rest
      induction word with
      | nil => cases rest <;> rfl
      | cons c word ih =>
        show ((decide (c = c) || decide (c = c.toUpper)) && startsWithLower word (word ++ rest)) = true
        rw [ih, decide_eq_true rfl]
        rfl
    have hmore := hself (scheme ++ slashes) (s.netloc ++ (s.path ++ '?' :: query))
    rw [List.append_assoc] at hmore
    exact hmore
  have hclean : ∀ c ∈ scheme ++ ':' :: '/' :: '/' :: (s.netloc ++ (s.path ++ '?' :: query)),
      c ≠ '\t' ∧ c ≠ '\r' ∧ c ≠ '\n' := by
    intro c hc
    simp only [List.mem_append, List.mem_cons] at hc
    rcases hc with hc | rfl | rfl | rfl | hc | hc | rfl | hc
    · have halpha := (hscheme.2 c hc).1
      exact ⟨ne_of_isAlpha halpha rfl, ne_of_isAlpha halpha rfl, ne_of_isAlpha halpha rfl⟩
    · decide
    · decide
    · decide
    · exact h.printed.1 c hc
    · exact h.printed.2.1 c hc
    · decide
    · exact hprinted c hc
  rw [hurl, urlsplit_web hscheme hweb hclean]
  -- the netloc ends where the path or the query starts
  have hstop : ∀ c ∈ (s.path ++ '?' :: query).head?, netlocChar c = false := by
    intro c hc
    rcases h.path with hnil | hhead
    · rw [hnil] at hc
      cases hc
      rfl
    · rw [List.head?_append, hhead] at hc
      cases hc
      rfl
  have hnetlocOf : netlocOf (scheme ++ ':' :: '/' :: '/' :: (s.netloc ++ (s.path ++ '?' :: query))) =
      s.netloc := by
    unfold netlocOf
    rw [behind_append_self hcolon]
    show (s.netloc ++ (s.path ++ '?' :: query)).takeWhile netlocChar = s.netloc
    rw [List.takeWhile_append_of_pos h.netloc]
    cases hrest : s.path ++ '?' :: query with
    | nil => simp
    | cons c rest =>
      rw [hrest] at hstop
      rw [List.takeWhile_cons_of_neg (by rw [hstop c rfl]; exact Bool.false_ne_true),
        List.append_nil]
  have hrestOf : restOf (scheme ++ ':' :: '/' :: '/' :: (s.netloc ++ (s.path ++ '?' :: query))) =
      s.path ++ '?' :: query := by
    unfold restOf
    rw [behind_append_self hcolon]
    show (s.netloc ++ (s.path ++ '?' :: query)).dropWhile netlocChar = _
    rw [List.dropWhile_append_of_pos h.netloc]
    exact dropWhile_eq_self_of_head hstop
  have hfragment : ∀ c ∈ s.path ++ '?' :: query, c ≠ '#' := by
    intro c hc
    simp only [List.mem_append, List.mem_cons] at hc
    rcases hc with hc | rfl | hc
    · exact (h.pathEnds c hc).2
    · decide
    · exact hends c hc
  rw [hnetlocOf, if_pos h.accepted, hrestOf, before_append_self hcolon, hsame]
  unfold splitRest
  dsimp only
  rw [before_of_not_mem hfragment, behind_of_not_mem hfragment,
    before_append_self fun c hc => (h.pathEnds c hc).1,
    behind_append_self fun c hc => (h.pathEnds c hc).1, hlower]

end Url
