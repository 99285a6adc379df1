import KiwiCatalog.Lib.Query

/-!
# Share parameter — the access code at the end of a runtime's URL
-/

set_option autoImplicit false

namespace KiwiCatalog.RuntimeAccess

open Url (Text Split parseQsl quote rstrip splitOn urlsplit urlunsplit)

/-! ## 1. `append_share_parameter` -/

def parameterName : Text := "sharecode".toList

inductive ShareError
  | valueError
  | validation (message : String)
  deriving DecidableEq

/-- `f"{PARAMETER_NAME}={quote(str(secret), safe='')}"`. -/
def shareParameter (secret : Text) : Text := parameterName ++ '=' :: quote secret

def shareQuery (query secret : Text) : Text :=
  let existing := rstrip '&' query
  if existing.isEmpty then shareParameter secret else existing ++ '&' :: shareParameter secret

def appendShareParameter (t : Url.Tables) (url secret : Text) : Except ShareError Text :=
  match urlsplit t url with
  | none => .error .valueError
  | some parts =>
    if parts.scheme ≠ "https".toList || parts.netloc.isEmpty then
      .error (.validation "share parameter target must be an HTTPS URL")
    else if !parts.fragment.isEmpty then
      .error (.validation "share parameter target must not carry a fragment")
    else if parts.hasCredentials then
      .error (.validation "share parameter target must not carry userinfo")
    else if (parseQsl parts.query).any fun pair => pair.1 = parameterName then
      .error (.validation "share parameter target already carries the parameter")
    else .ok (urlunsplit { parts with query := shareQuery parts.query secret, fragment := [] })

/-- The query without the fields of the parameter's name, each with a separator. -/
def withoutParameter (query : Text) : Text :=
  List.intercalate ['&'] ((splitOn '&' query).filter fun field =>
    field.isEmpty || Url.unquotePlus (Url.before '=' field) ≠ parameterName)

/-- What the URL and the one with the parameter have to do with each other, where `existing` is the
part of the query that is kept. -/
structure Composed (t : Url.Tables) (parts : Split) (existing result secret : Text) : Prop where
  split : urlsplit t result = some { parts with
    query := (if existing = [] then [] else existing ++ ['&']) ++ shareParameter secret }
  found : ((parseQsl ((if existing = [] then [] else existing ++ ['&']) ++
    shareParameter secret)).filter fun pair => pair.1 = parameterName) = [(parameterName, secret)]
  removed : withoutParameter ((if existing = [] then [] else existing ++ ['&']) ++
    shareParameter secret) = existing

/-! ## 2. The appended field -/

theorem separator_not_mem (secret : Text) : '&' ∉ shareParameter secret := by
  unfold shareParameter
  rw [List.mem_append, List.mem_cons]
  rintro (hname | hequals | hvalue)
  · exact absurd hname (by decide)
  · exact absurd hequals (by decide)
  · exact Url.ne_of_mem_quote hvalue (by decide) (by decide) rfl

/-- The name has letters only. -/
theorem parameterName_ne {c : Char} (h : c ∈ parameterName) :
    c ≠ '=' ∧ c ≠ '#' ∧ c ≠ '\t' ∧ c ≠ '\r' ∧ c ≠ '\n' := by
  have hall : parameterName.all (fun c =>
      c ≠ '=' && c ≠ '#' && c ≠ '\t' && c ≠ '\r' && c ≠ '\n') = true := by decide
  have hc := List.all_eq_true.mp hall c h
  simp only [Bool.and_eq_true, decide_eq_true_eq] at hc
  exact ⟨hc.1.1.1.1, hc.1.1.1.2, hc.1.1.2, hc.1.2, hc.2⟩

theorem shareParameter_ne_nil (secret : Text) : shareParameter secret ≠ [] := List.cons_ne_nil _ _

theorem name_shareParameter (secret : Text) :
    Url.unquotePlus (Url.before '=' (shareParameter secret)) = parameterName := by
  rw [shareParameter, Url.before_append_self fun c hc => (parameterName_ne hc).1]
  decide

theorem value_shareParameter (secret : Text) :
    Url.unquotePlus (Url.behind '=' (shareParameter secret)) = secret := by
  rw [shareParameter, Url.behind_append_self fun c hc => (parameterName_ne hc).1,
    Url.unquotePlus_quote]

/-- The fields of the query with the parameter. -/
theorem splitOn_shareQuery (existing secret : Text) :
    splitOn '&' ((if existing = [] then [] else existing ++ ['&']) ++ shareParameter secret) =
      (if existing = [] then [] else splitOn '&' existing) ++ [shareParameter secret] := by
  have hone := Url.splitOn_of_not_mem (separator_not_mem secret)
  split
  · exact hone
  · rw [List.append_assoc]
    show splitOn '&' (existing ++ '&' :: shareParameter secret) = _
    rw [Url.splitOn_append_separator, hone]

/-! ## 3. The query that is kept -/

theorem rstrip_append (c : Char) (text : Text) :
    ∃ n, text = rstrip c text ++ List.replicate n c := by
  refine ⟨(text.reverse.takeWhile (· = c)).length, ?_⟩
  have hcut : text.reverse.takeWhile (· = c) =
      List.replicate (text.reverse.takeWhile (· = c)).length c :=
    List.eq_replicate_iff.mpr ⟨rfl, fun d hd => by simpa using List.mem_takeWhile_imp hd⟩
  have hwhole := List.takeWhile_append_dropWhile (p := (· = c)) (l := text.reverse)
  rw [hcut] at hwhole
  have hback := congrArg List.reverse hwhole
  rw [List.reverse_reverse, List.reverse_append, List.reverse_replicate] at hback
  exact hback.symm

theorem mem_of_mem_rstrip {c d : Char} {text : Text} (h : d ∈ rstrip c text) : d ∈ text :=
  List.mem_reverse.mp ((List.dropWhile_sublist _).subset (List.mem_reverse.mp h))

/-- Separators at the end add no pair. -/
theorem parseQsl_rstrip (query : Text) : parseQsl (rstrip '&' query) = parseQsl query := by
  obtain ⟨n, hquery⟩ := rstrip_append '&' query
  have hmore : ∀ n, parseQsl (rstrip '&' query ++ List.replicate n '&') =
      parseQsl (rstrip '&' query) := by
    intro n
    induction n with
    | zero => rw [List.replicate_zero, List.append_nil]
    | succ n ih =>
      rw [← ih, List.replicate_succ', ← List.append_assoc]
      unfold parseQsl
      rw [Url.splitOn_append_separator, List.filter_append, List.map_append]
      exact List.append_nil _
  calc parseQsl (rstrip '&' query) = parseQsl (rstrip '&' query ++ List.replicate n '&') :=
        (hmore n).symm
    _ = parseQsl query := by rw [← hquery]

/-- No field of the name of the parameter. -/
theorem kept_of_parseQsl {query field : Text}
    (h : ((parseQsl query).any fun pair => pair.1 = parameterName) = false)
    (hfield : field ∈ splitOn '&' query) :
    (field.isEmpty || Url.unquotePlus (Url.before '=' field) ≠ parameterName) = true := by
  cases hempty : field.isEmpty with
  | true => rfl
  | false =>
    rw [Bool.false_or, decide_eq_true_eq]
    intro hname
    rw [List.any_eq_false] at h
    refine h (Url.unquotePlus (Url.before '=' field), Url.unquotePlus (Url.behind '=' field)) ?_
      (decide_eq_true hname)
    exact List.mem_map_of_mem (List.mem_filter.mpr ⟨hfield, by rw [hempty]; rfl⟩)

theorem found_shareQuery {existing : Text} (secret : Text)
    (h : ((parseQsl existing).any fun pair => pair.1 = parameterName) = false) :
    ((parseQsl ((if existing = [] then [] else existing ++ ['&']) ++
      shareParameter secret)).filter fun pair => pair.1 = parameterName) =
        [(parameterName, secret)] := by
  have hown : ((([shareParameter secret].filter fun field => !field.isEmpty).map fun field =>
      (Url.unquotePlus (Url.before '=' field), Url.unquotePlus (Url.behind '=' field))).filter
        fun pair => pair.1 = parameterName) = [(parameterName, secret)] := by
    rw [List.filter_cons_of_pos (by
      rw [List.isEmpty_eq_false_iff.mpr (shareParameter_ne_nil secret)]
      rfl), List.filter_nil, List.map_singleton, name_shareParameter, value_shareParameter]
    exact List.filter_cons_of_pos (decide_eq_true rfl)
  have hnone : (parseQsl existing).filter (fun pair => pair.1 = parameterName) = [] := by
    rw [List.filter_eq_nil_iff]
    exact List.any_eq_false.mp h
  unfold parseQsl
  rw [splitOn_shareQuery]
  split
  · exact hown
  · rw [List.filter_append, List.map_append, List.filter_append, hown]
    unfold parseQsl at hnone
    rw [hnone]
    rfl

theorem withoutParameter_shareQuery {existing : Text} (secret : Text)
    (h : ((parseQsl existing).any fun pair => pair.1 = parameterName) = false) :
    withoutParameter ((if existing = [] then [] else existing ++ ['&']) ++
      shareParameter secret) = existing := by
  have hdropped : [shareParameter secret].filter (fun field =>
      field.isEmpty || Url.unquotePlus (Url.before '=' field) ≠ parameterName) = [] := by
    apply List.filter_cons_of_neg
    rw [List.isEmpty_eq_false_iff.mpr (shareParameter_ne_nil secret), name_shareParameter]
    simp
  unfold withoutParameter
  rw [splitOn_shareQuery, List.filter_append, hdropped, List.append_nil]
  split
  · rename_i hnil
    rw [hnil]
    rfl
  · rw [List.filter_eq_self.mpr fun field hfield => kept_of_parseQsl h hfield,
      Url.intercalate_splitOn]

/-! ## 4. The URL -/

theorem https_letters : Url.Letters "https".toList := by
  have hall : "https".toList.all (fun c => c.isAlpha && c.toUpper.isAlpha) = true := by decide
  refine ⟨List.cons_ne_nil _ _, fun c hc => ?_⟩
  exact Bool.and_eq_true_iff.mp (List.all_eq_true.mp hall c hc)

theorem mem_shareParameter {c : Char} {secret : Text} (h : c ∈ shareParameter secret) :
    c ≠ '#' ∧ c ≠ '\t' ∧ c ≠ '\r' ∧ c ≠ '\n' := by
  unfold shareParameter at h
  rw [List.mem_append, List.mem_cons] at h
  rcases h with hname | rfl | hvalue
  · exact (parameterName_ne hname).2
  · decide
  · exact ⟨Url.ne_of_mem_quote hvalue (by decide) (by decide),
      Url.ne_of_mem_quote hvalue (by decide) (by decide),
      Url.ne_of_mem_quote hvalue (by decide) (by decide),
      Url.ne_of_mem_quote hvalue (by decide) (by decide)⟩

theorem shareQuery_eq (query secret : Text) :
    shareQuery query secret =
      (if rstrip '&' query = [] then [] else rstrip '&' query ++ ['&']) ++
        shareParameter secret := by
  unfold shareQuery
  dsimp only
  by_cases hnil : rstrip '&' query = []
  · rw [if_pos hnil, hnil]
    rfl
  · rw [if_neg hnil, List.isEmpty_eq_false_iff.mpr hnil, List.append_assoc]
    rfl

/-- An URL that is accepted keeps its scheme, its authority and its path, and its query without the
separators at the end; behind it stands the parameter alone, with the secret as its value. -/
theorem share_parameter_composed (t : Url.Tables) (url secret result : Text)
    (h : appendShareParameter t url secret = .ok result) :
    ∃ parts, urlsplit t url = some parts ∧
      Composed t parts (rstrip '&' parts.query) result secret := by
  unfold appendShareParameter at h
  cases hsplit : urlsplit t url with
  | none =>
    rw [hsplit] at h
    cases h
  | some parts =>
    rw [hsplit] at h
    dsimp only at h
    split at h
    · cases h
    · rename_i hweb
      split at h
      · cases h
      · rename_i hfragment
        split at h
        · cases h
        · split at h
          · cases h
          · rename_i hparameter
            rw [← Except.ok.inj h]
            rw [Bool.or_eq_true, not_or, decide_eq_true_eq, not_not] at hweb
            rw [Bool.not_eq_true, Bool.not_eq_false', List.isEmpty_iff] at hfragment
            rw [Bool.not_eq_true, ← parseQsl_rstrip] at hparameter
            have hnetloc : parts.netloc ≠ [] := by
              intro hnil
              rw [hnil] at hweb
              exact hweb.2 rfl
            have hparts := Url.parts_of_urlsplit hsplit hnetloc
            have hquery : ∀ c ∈ shareQuery parts.query secret,
                c ≠ '#' ∧ c ≠ '\t' ∧ c ≠ '\r' ∧ c ≠ '\n' := by
              intro c hc
              rw [shareQuery_eq, List.mem_append] at hc
              rcases hc with hkept | hadded
              · split at hkept
                · cases hkept
                · rw [List.mem_append, List.mem_singleton] at hkept
                  rcases hkept with hc | rfl
                  · have hmem := mem_of_mem_rstrip hc
                    exact ⟨hparts.queryEnds c hmem, hparts.printed.2.2 c hmem⟩
                  · decide
              · exact mem_shareParameter hadded
            have hsome : shareQuery parts.query secret ≠ [] := by
              rw [shareQuery_eq]
              exact List.append_ne_nil_of_right_ne_nil _ (shareParameter_ne_nil secret)
            refine ⟨parts, rfl, ?_, found_shareQuery secret hparameter,
              withoutParameter_shareQuery secret hparameter⟩
            have hagain := Url.urlsplit_urlunsplit hparts https_letters hweb.1 (by decide) hnetloc
              hsome (fun c hc => (hquery c hc).1) (fun c hc => (hquery c hc).2)
            rw [hagain, ← shareQuery_eq, ← hfragment]

/-- Tables for URLs of ASCII characters without brackets. -/
def plainTables : Url.Tables where
  expandsToDelimiter := fun _ => false
  bracketedHost := fun _ => false
  lower := List.map Char.toLower

theorem share_parameter_composed_a2a :
    appendShareParameter plainTables "https://shop.example/a2a?b=2&a=%20".toList "a&b".toList =
        .ok "https://shop.example/a2a?b=2&a=%20&sharecode=a%26b".toList ∧
      ∃ parts, urlsplit plainTables "https://shop.example/a2a?b=2&a=%20".toList = some parts ∧
        Composed plainTables parts (rstrip '&' parts.query)
          "https://shop.example/a2a?b=2&a=%20&sharecode=a%26b".toList "a&b".toList := by
  have haccepted : appendShareParameter plainTables "https://shop.example/a2a?b=2&a=%20".toList
      "a&b".toList = .ok "https://shop.example/a2a?b=2&a=%20&sharecode=a%26b".toList := by
    decide +kernel
  exact ⟨haccepted, share_parameter_composed _ _ _ _ haccepted⟩

/-- A separator at the end of the query does not stay. -/
theorem trailing_separator_dropped :
    ¬ ∀ (t : Url.Tables) (url secret result : Text),
      appendShareParameter t url secret = .ok result →
        ∃ parts, urlsplit t url = some parts ∧ Composed t parts parts.query result secret := by
  intro hall
  obtain ⟨parts, hparts, hcomposed⟩ := hall plainTables "https://shop.example/a2a?a=1&".toList
    "code-1".toList "https://shop.example/a2a?a=1&sharecode=code-1".toList (by decide +kernel)
  have hsplit : urlsplit plainTables "https://shop.example/a2a?a=1&".toList =
      some ⟨"https".toList, "shop.example".toList, "/a2a".toList, "a=1&".toList, []⟩ := by
    decide +kernel
  have hresult : urlsplit plainTables "https://shop.example/a2a?a=1&sharecode=code-1".toList =
      some ⟨"https".toList, "shop.example".toList, "/a2a".toList,
        "a=1&sharecode=code-1".toList, []⟩ := by decide +kernel
  cases hsplit.symm.trans hparts
  have hquery := congrArg Split.query (Option.some.inj (hresult.symm.trans hcomposed.split))
  exact absurd hquery (by decide +kernel)

end KiwiCatalog.RuntimeAccess
