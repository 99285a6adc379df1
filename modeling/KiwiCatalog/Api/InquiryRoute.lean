import KiwiCatalog.Api.RouteTable

/-!
# Api.InquiryRoute — the requests that reach the route of inquiries

No other route of the table takes them, and the pattern of the route lets a newline end the path.
-/

set_option autoImplicit false

namespace KiwiCatalog.Api

open Py (Str lit ofText)

/-! ## 1. Dispatch -/

/-- The first route of the method that the path matches is dispatched. -/
theorem dispatchFrom_eq_handler {method path : Str} {handler : Handler} {params : Params}
    (routes : List RouteEntry) : ∀ matched,
      dispatchFrom method path matched routes = .handler handler params ↔
        ∃ entry, routes.find? (fun entry => (entry.params path).isSome && entry.allows method) =
          some entry ∧ entry.handler = handler ∧ entry.params path = some params := by
  induction routes with
  | nil =>
    intro matched
    rw [dispatchFrom, List.find?_nil]
    constructor
    · intro h
      split at h <;> cases h
    · rintro ⟨entry, hentry, _⟩
      cases hentry
  | cons entry rest ih =>
    intro matched
    rw [dispatchFrom, List.find?_cons]
    cases hparams : entry.params path with
    | none => exact ih matched
    | some found =>
      show (if entry.allows method then Dispatched.handler entry.handler found
        else dispatchFrom method path true rest) = .handler handler params ↔ _
      cases hallows : entry.allows method with
      | true =>
        rw [if_pos rfl]
        constructor
        · intro h
          injection h with hhandler hfound
          exact ⟨entry, rfl, hhandler, by rw [hparams, hfound]⟩
        · rintro ⟨other, hother, hhandler, hfound⟩
          cases hother
          rw [hparams] at hfound
          cases hfound
          rw [hhandler]
      | false => exact ih true

/-- The resolver lets through what is dispatched. -/
theorem resolveRoute_of_handler {routes : List RouteEntry} {method path : Str} {handler : Handler}
    {params : Params} (h : dispatchRequest routes method path = .handler handler params) :
    resolveRoute routes method path = (true, true) := by
  obtain ⟨entry, hfound, _, _⟩ := (dispatchFrom_eq_handler routes false).mp h
  have hentry := List.find?_some hfound
  rw [Bool.and_eq_true] at hentry
  have hknown : entry ∈ routes.filter fun entry => (entry.params path).isSome :=
    List.mem_filter.mpr ⟨List.mem_of_find?_eq_some hfound, hentry.1⟩
  have hallowed : ((routes.filter fun entry => (entry.params path).isSome).any fun entry =>
      entry.allows method) = true :=
    List.any_eq_true.mpr ⟨entry, hknown, hentry.2⟩
  show (!(routes.filter fun entry => (entry.params path).isSome).isEmpty, _) = (true, true)
  rw [hallowed]
  cases hempty : routes.filter fun entry => (entry.params path).isSome with
  | nil =>
    rw [hempty] at hknown
    cases hknown
  | cons first rest => rfl

/-! ## 2. Parts of a template -/

theorem matchParts_literal {part next : Str} {parts segments : List Str} {params : Params}
    (hpart : isParameter part = false) :
    matchParts (part :: next :: parts) segments = some params ↔
      ∃ rest, segments = part :: rest ∧ matchParts (next :: parts) rest = some params := by
  cases segments with
  | nil =>
    constructor
    · intro h
      cases h
    · rintro ⟨rest, hrest, _⟩
      cases hrest
  | cons segment segments =>
    show (if isParameter part then _ else if segment = part then matchParts (next :: parts) segments
      else none) = some params ↔ _
    rw [hpart, if_neg Bool.false_ne_true]
    constructor
    · intro h
      split at h
      · rename_i heq
        exact ⟨segments, by rw [heq], h⟩
      · cases h
    · rintro ⟨rest, hrest, h⟩
      cases hrest
      rw [if_pos rfl]
      exact h

theorem matchParts_parameter {part next : Str} {parts segments : List Str} {params : Params}
    (hpart : isParameter part = true) :
    matchParts (part :: next :: parts) segments = some params ↔
      ∃ segment rest more, segment ≠ [] ∧ segments = segment :: rest ∧
        matchParts (next :: parts) rest = some more ∧
        params = (parameterName part, segment) :: more := by
  cases segments with
  | nil =>
    constructor
    · intro h
      cases h
    · rintro ⟨segment, rest, more, _, hrest, _⟩
      cases hrest
  | cons segment segments =>
    show (if isParameter part then if segment.isEmpty then none else
      (matchParts (next :: parts) segments).map ((parameterName part, segment) :: ·) else _) =
        some params ↔ _
    rw [hpart, if_pos rfl]
    constructor
    · intro h
      split at h
      · cases h
      · rename_i hne
        obtain ⟨more, hmore, rfl⟩ := Option.map_eq_some_iff.mp h
        exact ⟨segment, segments, more, fun hnil => hne (by rw [hnil]; rfl), rfl, hmore, rfl⟩
    · rintro ⟨other, rest, more, hne, hrest, hmore, rfl⟩
      cases hrest
      rw [if_neg (fun hempty => hne (List.isEmpty_iff.mp hempty)), hmore]
      rfl

theorem matchParts_last {part : Str} {segments : List Str} {params : Params}
    (hpart : isParameter part = false) :
    matchParts [part] segments = some params ↔
      (segments = [part] ∨ segments = [part ++ [newline]]) ∧ params = [] := by
  cases segments with
  | nil =>
    constructor
    · intro h
      cases h
    · rintro ⟨h | h, _⟩ <;> cases h
  | cons segment segments =>
    cases segments with
    | cons other rest =>
      constructor
      · intro h
        have hnone : matchParts [part] (segment :: other :: rest) = none := by
          show (if isParameter part then _ else if segment = part then none else none) = none
          rw [hpart, if_neg Bool.false_ne_true, ite_self]
        rw [hnone] at h
        cases h
      · rintro ⟨h | h, _⟩ <;> cases h
    | nil =>
      show (if isParameter part then _ else
        if segment = part || segment = part ++ [newline] then some [] else none) = some params ↔ _
      rw [hpart, if_neg Bool.false_ne_true]
      constructor
      · intro h
        split at h
        · rename_i hsegment
          cases h
          rw [Bool.or_eq_true, decide_eq_true_eq, decide_eq_true_eq] at hsegment
          rcases hsegment with rfl | rfl
          · exact ⟨Or.inl rfl, rfl⟩
          · exact ⟨Or.inr rfl, rfl⟩
        · cases h
      · rintro ⟨h | h, rfl⟩
        · cases h
          rw [decide_eq_true rfl, Bool.true_or, if_pos rfl]
        · cases h
          rw [decide_eq_true (p := part ++ [newline] = part ++ [newline]) rfl, Bool.or_true,
            if_pos rfl]

/-! ## 3. The route of inquiries -/

def inquiryTemplate : String := "/v1/agents/{catalog_agent_id}/public-inquiry"

theorem routeTable_forward : (routeTable.all fun entry => entry.handler ≠ .forward ||
    (entry.methods = ["POST"] && entry.pathTemplate = inquiryTemplate)) = true := by
  decide

/-- `forward` has one route. -/
theorem forward_entry {entry : RouteEntry} (h : entry ∈ routeTable)
    (hhandler : entry.handler = .forward) :
    entry.methods = ["POST"] ∧ entry.pathTemplate = inquiryTemplate := by
  have hforward := List.all_eq_true.mp routeTable_forward entry h
  rw [hhandler] at hforward
  simpa using hforward

/-- The path of an agent's inquiries. -/
def inquiryPath (agentId : Str) : Str := lit "/v1/agents/" ++ agentId ++ lit "/public-inquiry"

theorem splitOn_inquiryTemplate : (lit inquiryTemplate).splitOn slash =
    [[], lit "v1", lit "agents", lit "{catalog_agent_id}", lit "public-inquiry"] := by
  decide

/-- A segment of a path has no slash. -/
theorem slash_not_mem (path : Str) : ∀ segment ∈ path.splitOn slash, slash ∉ segment := by
  induction path with
  | nil =>
    intro segment hsegment
    rw [List.splitOn_nil, List.mem_singleton] at hsegment
    rw [hsegment]
    exact List.not_mem_nil
  | cons c rest ih =>
    intro segment hsegment
    rw [List.splitOn_cons_eq_if_modifyHead] at hsegment
    split at hsegment
    · rcases List.mem_cons.mp hsegment with rfl | hmem
      · exact List.not_mem_nil
      · exact ih segment hmem
    · rename_i hc
      cases hsplit : rest.splitOn slash with
      | nil => exact absurd hsplit (List.splitOn_ne_nil slash rest)
      | cons first others =>
        rw [hsplit] at hsegment ih
        rcases List.mem_cons.mp hsegment with rfl | hmem
        · intro hslash
          rcases List.mem_cons.mp hslash with heq | hin
          · rw [heq] at hc
            exact hc (beq_self_eq_true c)
          · exact ih first (List.mem_cons_self ..) hin
        · exact ih segment (List.mem_cons_of_mem _ hmem)

theorem intercalate_agent (agentId last : Str) :
    List.intercalate [slash] [[], lit "v1", lit "agents", agentId, last] =
      lit "/v1/agents/" ++ agentId ++ slash :: last := by
  show [] ++ ([slash] ++ (lit "v1" ++ ([slash] ++ (lit "agents" ++ ([slash] ++ (agentId ++
    ([slash] ++ (last ++ [])))))))) = _
  rw [List.append_nil, List.append_assoc]
  rfl

theorem splitOn_agent {agentId last : Str} (hagent : slash ∉ agentId) (hlast : slash ∉ last) :
    (List.intercalate [slash] [[], lit "v1", lit "agents", agentId, last]).splitOn slash =
      [[], lit "v1", lit "agents", agentId, last] := by
  refine List.splitOn_intercalate slash ?_ (List.cons_ne_nil _ _)
  have hv1 : slash ∉ lit "v1" := by decide
  have hagents : slash ∉ lit "agents" := by decide
  intro segment hsegment
  simp only [List.mem_cons, List.not_mem_nil, or_false] at hsegment
  rcases hsegment with rfl | rfl | rfl | rfl | rfl
  · exact List.not_mem_nil
  · exact hv1
  · exact hagents
  · exact hagent
  · exact hlast

/-- The paths that reach the route of inquiries: the newline at the end is that of `$`. -/
theorem matchPath_inquiry {path : Str} {params : Params} :
    matchPath (lit inquiryTemplate) path = some params ↔
      ∃ agentId, agentId ≠ [] ∧ slash ∉ agentId ∧
        (path = inquiryPath agentId ∨ path = inquiryPath agentId ++ [newline]) ∧
        params = [(lit "catalog_agent_id", agentId)] := by
  have hinquiry (agentId : Str) : List.intercalate [slash]
      [[], lit "v1", lit "agents", agentId, lit "public-inquiry"] = inquiryPath agentId := by
    rw [intercalate_agent, inquiryPath]
    rfl
  have hnewline (agentId : Str) : List.intercalate [slash]
      [[], lit "v1", lit "agents", agentId, lit "public-inquiry" ++ [newline]] =
        inquiryPath agentId ++ [newline] := by
    rw [intercalate_agent, inquiryPath, List.append_assoc _ (lit "/public-inquiry")]
    rfl
  rw [matchPath, splitOn_inquiryTemplate, matchParts_literal (by decide)]
  constructor
  · rintro ⟨rest, hrest, h⟩
    rw [matchParts_literal (by decide)] at h
    obtain ⟨rest, rfl, h⟩ := h
    rw [matchParts_literal (by decide)] at h
    obtain ⟨rest, rfl, h⟩ := h
    rw [matchParts_parameter (by decide)] at h
    obtain ⟨agentId, rest, more, hne, rfl, h, rfl⟩ := h
    rw [matchParts_last (by decide)] at h
    obtain ⟨hlast, rfl⟩ := h
    have hpath : List.intercalate [slash] (path.splitOn slash) = path :=
      List.intercalate_splitOn slash
    refine ⟨agentId, hne, ?_, ?_, rfl⟩
    · apply slash_not_mem path agentId
      rw [hrest]
      simp
    · rcases hlast with rfl | rfl
      · rw [hrest, hinquiry] at hpath
        exact Or.inl hpath.symm
      · rw [hrest, hnewline] at hpath
        exact Or.inr hpath.symm
  · rintro ⟨agentId, hne, hslash, hpath, rfl⟩
    have hlast : ∃ last, path.splitOn slash = [[], lit "v1", lit "agents", agentId, last] ∧
        (last = lit "public-inquiry" ∨ last = lit "public-inquiry" ++ [newline]) := by
      rcases hpath with rfl | rfl
      · refine ⟨lit "public-inquiry", ?_, Or.inl rfl⟩
        rw [← hinquiry]
        exact splitOn_agent hslash (by decide)
      · refine ⟨lit "public-inquiry" ++ [newline], ?_, Or.inr rfl⟩
        rw [← hnewline]
        exact splitOn_agent hslash (by decide)
    obtain ⟨last, hsplit, hlast⟩ := hlast
    refine ⟨_, hsplit, ?_⟩
    rw [matchParts_literal (by decide)]
    refine ⟨_, rfl, ?_⟩
    rw [matchParts_literal (by decide)]
    refine ⟨_, rfl, ?_⟩
    rw [matchParts_parameter (by decide)]
    refine ⟨agentId, _, [], hne, rfl, ?_, rfl⟩
    rw [matchParts_last (by decide)]
    rcases hlast with rfl | rfl
    · exact ⟨Or.inl rfl, rfl⟩
    · exact ⟨Or.inr rfl, rfl⟩

/-- What a part of a template asks of a segment at least. -/
def fits (part segment : Str) : Bool :=
  isParameter part || segment = part || segment = part ++ [newline]

theorem forall₂_of_matchParts {parts segments : List Str} {params : Params}
    (h : matchParts parts segments = some params) :
    List.Forall₂ (fun part segment => fits part segment = true) parts segments := by
  induction parts, segments using matchParts.induct generalizing params with
  | case1 => exact List.Forall₂.nil
  | case2 part segment hpart hempty =>
    rw [matchParts, if_pos hpart, if_pos hempty] at h
    cases h
  | case3 part segment hpart hempty =>
    exact List.Forall₂.cons (by rw [fits, hpart]; rfl) List.Forall₂.nil
  | case4 part segment hpart hsegment =>
    refine List.Forall₂.cons ?_ List.Forall₂.nil
    rw [fits, Bool.or_assoc, hsegment, Bool.or_true]
  | case5 part segment hpart hsegment =>
    rw [matchParts, if_neg hpart, if_neg hsegment] at h
    cases h
  | case6 part parts segment segments hparts hpart hempty =>
    rw [matchParts, if_pos hpart, if_pos hempty] at h
    · cases h
    · exact hparts
  | case7 part parts segment segments hparts hpart hempty ih =>
    rw [matchParts, if_pos hpart, if_neg hempty] at h
    · obtain ⟨more, hmore, _⟩ := Option.map_eq_some_iff.mp h
      exact List.Forall₂.cons (by rw [fits, hpart]; rfl) (ih hmore)
    · exact hparts
  | case8 part parts segments hparts hpart ih =>
    rw [matchParts, if_neg hpart, if_pos rfl] at h
    · exact List.Forall₂.cons (by rw [fits, decide_eq_true rfl, Bool.or_true]; rfl) (ih h)
    · exact hparts
  | case9 part parts segment segments hparts hpart hsegment =>
    rw [matchParts, if_neg hpart, if_neg hsegment] at h
    · cases h
    · exact hparts
  | case10 parts segments hnil hone hmore =>
    rw [matchParts] at h
    · cases h
    · exact hnil
    · exact hone
    · exact hmore

/-- Whether a template fits `/v1/agents/<id>/<last>`. -/
def fitsAgent (last : Str) : List Str → Bool
  | [root, version, collection, _, part] =>
    fits root [] && fits version (lit "v1") && fits collection (lit "agents") && fits part last
  | _ => false

/-- Only `forward` takes an inquiry. -/
def inquiryOnly (entry : RouteEntry) : Bool :=
  entry.handler = .forward || !entry.allows (lit "POST") ||
    !(fitsAgent (lit "public-inquiry") ((lit entry.pathTemplate).splitOn slash) ||
      fitsAgent (lit "public-inquiry" ++ [newline]) ((lit entry.pathTemplate).splitOn slash))

theorem lit_ofList (text : List Char) : lit (String.ofList text) = ofText text := by
  unfold lit
  rw [String.toList_ofList]

/-- `fitsAgent` for any two words. -/
def fitsWords (version collection last : Str) : List Str → Bool
  | [root, first, second, _, part] =>
    fits root [] && fits first version && fits second collection && fits part last
  | _ => false

/-- Whether a template takes an inquiry that ends in the word. -/
def takesInquiry (last : Str) (template : List Char) : Bool :=
  fitsWords (ofText ['v', '1']) (ofText ['a', 'g', 'e', 'n', 't', 's']) last
    ((ofText template).splitOn slash)

/-- The last word of the path, without and with a newline. -/
def inquiryWord : Str :=
  ofText ['p', 'u', 'b', 'l', 'i', 'c', '-', 'i', 'n', 'q', 'u', 'i', 'r', 'y']

/-- Characters are compared where they are, so that no template has to be decoded. -/
theorem inquiryOnly_of_template {methods : List String} {handler : Handler} {template : List Char}
    (h : (takesInquiry inquiryWord template || takesInquiry (inquiryWord ++ [newline]) template) =
      false) : inquiryOnly ⟨methods, String.ofList template, handler⟩ = true := by
  have hversion : lit "v1" = ofText ['v', '1'] := lit_ofList _
  have hcollection : lit "agents" = ofText ['a', 'g', 'e', 'n', 't', 's'] := lit_ofList _
  have hlast : lit "public-inquiry" = inquiryWord := lit_ofList _
  have hfits : ∀ last, fitsAgent last ((ofText template).splitOn slash) =
      takesInquiry last template := by
    intro last
    unfold takesInquiry
    rw [← hversion, ← hcollection]
    rfl
  show (_ || !(fitsAgent (lit "public-inquiry") ((lit (String.ofList template)).splitOn slash) ||
    fitsAgent (lit "public-inquiry" ++ [newline])
      ((lit (String.ofList template)).splitOn slash))) = true
  rw [lit_ofList template, hlast, hfits, hfits, h, Bool.not_false, Bool.or_true]

theorem inquiryOnly_of_method {method : List Char} {template : String} {handler : Handler}
    (h : ofText method ≠ ofText ['P', 'O', 'S', 'T']) :
    inquiryOnly (route (String.ofList method) template handler) = true := by
  have hpost : lit "POST" = ofText ['P', 'O', 'S', 'T'] := lit_ofList _
  have hallows : (route (String.ofList method) template handler).allows (lit "POST") = false := by
    show (decide (lit (String.ofList method) = lit "POST") || false) = false
    rw [lit_ofList, hpost, decide_eq_false h]
    rfl
  rw [inquiryOnly, hallows, Bool.not_false, Bool.or_true, Bool.true_or]

theorem all_inquiryOnly_cons {entry : RouteEntry} {rest : List RouteEntry}
    (h : inquiryOnly entry = true) (hrest : rest.all inquiryOnly = true) :
    (entry :: rest).all inquiryOnly = true := by
  rw [List.all_cons, h, hrest]
  rfl

theorem inquiryOnly_of_forward {entry : RouteEntry} (h : entry.handler = .forward) :
    inquiryOnly entry = true := by
  rw [inquiryOnly, h]
  rfl

/-- No other route of the table takes an inquiry. -/
theorem routeTable_inquiry : (routeTable.all fun entry =>
    entry.handler = .forward || !entry.allows (lit "POST") ||
      !(fitsAgent (lit "public-inquiry") ((lit entry.pathTemplate).splitOn slash) ||
        fitsAgent (lit "public-inquiry" ++ [newline]) ((lit entry.pathTemplate).splitOn slash))) =
      true := by
  show routeTable.all inquiryOnly = true
  unfold routeTable
  repeat first
    | refine all_inquiryOnly_cons (inquiryOnly_of_template (by decide)) ?_
    | refine all_inquiryOnly_cons (inquiryOnly_of_method (by decide)) ?_
    | refine all_inquiryOnly_cons (inquiryOnly_of_forward rfl) ?_
  exact List.all_nil

theorem fitsAgent_of_params {entry : RouteEntry} {agentId : Str} {params : Params} (last : Str)
    (hagent : slash ∉ agentId) (hlast : slash ∉ last)
    (h : entry.params (lit "/v1/agents/" ++ agentId ++ slash :: last) = some params) :
    fitsAgent last ((lit entry.pathTemplate).splitOn slash) = true := by
  rw [RouteEntry.params, matchPath, ← intercalate_agent, splitOn_agent hagent hlast] at h
  have hfits := forall₂_of_matchParts h
  generalize (lit entry.pathTemplate).splitOn slash = parts at hfits ⊢
  cases hfits with
  | cons hroot hfits => cases hfits with
    | cons hversion hfits => cases hfits with
      | cons hcollection hfits => cases hfits with
        | cons _ hfits => cases hfits with
          | cons hpart hfits => cases hfits with
            | nil => rw [fitsAgent, hroot, hversion, hcollection, hpart]; rfl

/-- The requests that `forward` is dispatched for. -/
theorem dispatchRequest_forward {specs : List ExtensionRoute} {method path : Str}
    {params : Params} :
    dispatchRequest (allRoutes specs) method path = .handler .forward params ↔
      method = lit "POST" ∧ matchPath (lit inquiryTemplate) path = some params := by
  rw [dispatchRequest, dispatchFrom_eq_handler]
  constructor
  · rintro ⟨entry, hfound, hhandler, hparams⟩
    have hallows := List.find?_some hfound
    rw [Bool.and_eq_true] at hallows
    have htable : entry ∈ routeTable := by
      rcases List.mem_append.mp (List.mem_of_find?_eq_some hfound) with htable | hextension
      · exact htable
      · obtain ⟨i, hi, rfl⟩ := List.mem_mapIdx.mp hextension
        cases hhandler
    obtain ⟨hmethods, htemplate⟩ := forward_entry htable hhandler
    constructor
    · have hmethod := hallows.2
      rw [RouteEntry.allows, hmethods] at hmethod
      simp only [List.any_cons, List.any_nil, Bool.or_false, decide_eq_true_eq] at hmethod
      exact hmethod.symm
    · rw [RouteEntry.params, htemplate] at hparams
      exact hparams
  · rintro ⟨rfl, hmatch⟩
    -- the route of inquiries is in the table, so the first route found is in the table too
    have hentry : route "POST" inquiryTemplate .forward ∈ routeTable :=
      List.mem_of_getElem? (i := 26) rfl
    have hsome : (routeTable.find? fun entry =>
        (entry.params path).isSome && entry.allows (lit "POST")).isSome = true := by
      rw [List.find?_isSome]
      refine ⟨_, hentry, ?_⟩
      show ((matchPath (lit inquiryTemplate) path).isSome && _) = true
      rw [hmatch]
      rfl
    obtain ⟨entry, hfound⟩ := Option.isSome_iff_exists.mp hsome
    have hallows := List.find?_some hfound
    rw [Bool.and_eq_true] at hallows
    obtain ⟨found, hfoundParams⟩ := Option.isSome_iff_exists.mp hallows.1
    have hhandler : entry.handler = .forward := by
      obtain ⟨agentId, _, hslash, hpath, _⟩ := matchPath_inquiry.mp hmatch
      have honly := List.all_eq_true.mp routeTable_inquiry entry (List.mem_of_find?_eq_some hfound)
      rw [hallows.2] at honly
      rcases hpath with rfl | rfl
      · have hfits := fitsAgent_of_params (lit "public-inquiry") hslash (by decide) hfoundParams
        rw [hfits] at honly
        simpa using honly
      · rw [inquiryPath, List.append_assoc _ (lit "/public-inquiry")] at hfoundParams
        have hfits := fitsAgent_of_params (lit "public-inquiry" ++ [newline]) hslash (by decide)
          hfoundParams
        rw [hfits] at honly
        simpa using honly
    refine ⟨entry, ?_, hhandler, ?_⟩
    · rw [allRoutes, List.find?_append, hfound]
      rfl
    · rw [RouteEntry.params, (forward_entry (List.mem_of_find?_eq_some hfound) hhandler).2]
      exact hmatch

end KiwiCatalog.Api
