import KiwiCatalog.Api.InquiryRoute

/-!
# Api.DispatchExact — dispatch by segments

What the pattern of a template matches is compared with the segments of the path, one by one.  The
two differ where the last segment is literal and the path has a newline behind it.
-/

set_option autoImplicit false

namespace KiwiCatalog.Api

open Py (Str lit)

/-! ## 1. Matching segment by segment -/

def segmentMatches (part segment : Str) : Bool :=
  if isParameter part then !segment.isEmpty else segment = part

/-- As many segments, the literal ones equal and those of parameters not empty. -/
def segmentsMatch : List Str → List Str → Bool
  | [], [] => true
  | part :: parts, segment :: segments =>
    segmentMatches part segment && segmentsMatch parts segments
  | _, _ => false

/-- The last segment is literal, and the path has a newline behind it. -/
def newlineMatch : List Str → List Str → Bool
  | [part], [segment] => !isParameter part && segment = part ++ [newline]
  | part :: parts, segment :: segments =>
    segmentMatches part segment && newlineMatch parts segments
  | _, _ => false

/-- The parameters of a template and what stands in their place. -/
def pathParams : List Str → List Str → Params
  | part :: parts, segment :: segments =>
    if isParameter part then (parameterName part, segment) :: pathParams parts segments
    else pathParams parts segments
  | _, _ => []

def RouteEntry.parts (entry : RouteEntry) : List Str := (lit entry.pathTemplate).splitOn slash

def RouteEntry.matchesExactly (entry : RouteEntry) (path : Str) : Bool :=
  segmentsMatch entry.parts (path.splitOn slash)

def RouteEntry.matchesNewline (entry : RouteEntry) (path : Str) : Bool :=
  newlineMatch entry.parts (path.splitOn slash)

/-- A template whose pattern compiles: its groups have different names, which are identifiers. -/
structure RouteEntry.WellFormed (isIdentifier : Str → Bool) (entry : RouteEntry) : Prop where
  names : ((entry.parts.filter isParameter).map parameterName).Nodup
  identifiers : ∀ part ∈ entry.parts, isParameter part = true →
    isIdentifier (parameterName part) = true

/-- The path that a template is of, for the parameters. -/
def substitute (params : Params) (part : Str) : Str :=
  if isParameter part then
    ((params.find? fun param => param.1 = parameterName part).map Prod.snd).getD []
  else part

def RouteEntry.pathOf (entry : RouteEntry) (params : Params) : Str :=
  List.intercalate [slash] (entry.parts.map (substitute params))

/-- The first entry of the method that the path matches segment by segment. -/
def firstExact (routes : List RouteEntry) (method path : Str) : Option RouteEntry :=
  routes.find? fun entry => entry.matchesExactly path && entry.allows method

/-- The first entry of the method that the path matches, with or without the newline. -/
def firstMatching (routes : List RouteEntry) (method path : Str) : Option RouteEntry :=
  routes.find? fun entry =>
    (entry.matchesExactly path || entry.matchesNewline path) && entry.allows method

def RouteEntry.paramsOf (entry : RouteEntry) (path : Str) : Params :=
  pathParams entry.parts (path.splitOn slash)

/-- An entry takes the path by the newline, and no entry behind it would do with its parameters. -/
def NewlineFirst (routes : List RouteEntry) (method path : Str) : Prop :=
  ∃ entry, firstMatching routes method path = some entry ∧ entry.matchesExactly path = false ∧
    ∀ other, firstExact routes method path = some other → other.handler = entry.handler →
      other.pathOf (entry.paramsOf path) ≠ path

/-- What is claimed of the dispatch of a request; the method is the one in upper case. -/
structure DispatchExact (routes : List RouteEntry) (method path : Str) : Prop where
  called : ∀ handler params, dispatchRequest routes method path = .handler handler params →
    ∃ entry, firstExact routes method path = some entry ∧ entry.handler = handler ∧
      entry.pathOf params = path
  calls : ∀ entry, firstExact routes method path = some entry →
    ∃ params, dispatchRequest routes method path = .handler entry.handler params
  resolver : (resolveRoute routes method path = (true, true) ↔
      ∃ handler params, dispatchRequest routes method path = .handler handler params) ∧
    (resolveRoute routes method path = (true, false) ↔
      dispatchRequest routes method path = .methodNotAllowed) ∧
    (resolveRoute routes method path = (false, false) ↔
      dispatchRequest routes method path = .notFound)

/-! ## 2. The pattern of a template -/

/-- The pattern of a template accepts the two ways of matching and no other. -/
theorem matchParts_eq (parts segments : List Str) : matchParts parts segments =
    if segmentsMatch parts segments || newlineMatch parts segments then
      some (pathParams parts segments)
    else none := by
  induction parts, segments using matchParts.induct with
  | case1 => rfl
  | case2 part segment hpart hempty =>
    rw [matchParts, if_pos hpart, if_pos hempty]
    simp [segmentsMatch, segmentMatches, newlineMatch, hpart, hempty]
  | case3 part segment hpart hempty =>
    rw [matchParts, if_pos hpart, if_neg hempty]
    simp [segmentsMatch, segmentMatches, pathParams, hpart, hempty]
  | case4 part segment hpart hsegment =>
    rw [matchParts, if_neg hpart, if_pos hsegment]
    simp only [Bool.or_eq_true, decide_eq_true_eq] at hsegment
    simp [segmentsMatch, segmentMatches, newlineMatch, pathParams, hpart, hsegment]
  | case5 part segment hpart hsegment =>
    rw [matchParts, if_neg hpart, if_neg hsegment]
    simp only [Bool.or_eq_true, decide_eq_true_eq, not_or] at hsegment
    simp [segmentsMatch, segmentMatches, newlineMatch, hpart, hsegment]
  | case6 part parts segment segments hparts hpart hempty =>
    rw [matchParts, if_pos hpart, if_pos hempty, newlineMatch]
    · simp [segmentsMatch, segmentMatches, hpart, hempty]
    · exact hparts
    · exact hparts
  | case7 part parts segment segments hparts hpart hempty ih =>
    rw [matchParts, if_pos hpart, if_neg hempty, newlineMatch, ih]
    · have hne : segment.isEmpty = false := Bool.eq_false_iff.mpr hempty
      simp only [segmentsMatch, segmentMatches, pathParams, hpart, hne, if_true, Bool.not_false,
        Bool.true_and]
      split <;> rfl
    · exact hparts
    · exact hparts
  | case8 part parts segments hparts hpart ih =>
    rw [matchParts, if_neg hpart, if_pos rfl, newlineMatch, ih]
    · simp [segmentsMatch, segmentMatches, pathParams, hpart]
    · exact hparts
    · exact hparts
  | case9 part parts segment segments hparts hpart hsegment =>
    rw [matchParts, if_neg hpart, if_neg hsegment, newlineMatch]
    · simp [segmentsMatch, segmentMatches, hpart, hsegment]
    · exact hparts
    · exact hparts
  | case10 parts segments hnil hone hmore =>
    rw [matchParts]
    · cases parts with
      | nil =>
        cases segments with
        | nil => exact absurd rfl (hnil rfl)
        | cons segment segments => rfl
      | cons part parts =>
        cases segments with
        | nil =>
          cases parts <;> rfl
        | cons segment segments => exact absurd rfl (hmore _ _ _ _ rfl)
    · exact hnil
    · exact hone
    · exact hmore

theorem RouteEntry.params_eq (entry : RouteEntry) (path : Str) : entry.params path =
    if entry.matchesExactly path || entry.matchesNewline path then some (entry.paramsOf path)
    else none :=
  matchParts_eq entry.parts (path.splitOn slash)

theorem RouteEntry.isSome_params (entry : RouteEntry) (path : Str) :
    (entry.params path).isSome = (entry.matchesExactly path || entry.matchesNewline path) := by
  rw [entry.params_eq]
  split
  · rename_i h
    rw [h]
    rfl
  · rename_i h
    rw [Bool.not_eq_true] at h
    rw [h]
    rfl

/-! ## 3. What is dispatched -/

theorem find?_params (routes : List RouteEntry) (method path : Str) :
    (routes.find? fun entry => (entry.params path).isSome && entry.allows method) =
      firstMatching routes method path := by
  unfold firstMatching
  simp only [RouteEntry.isSome_params]

theorem dispatchRequest_eq_handler {routes : List RouteEntry} {method path : Str}
    {handler : Handler} {params : Params} :
    dispatchRequest routes method path = .handler handler params ↔
      ∃ entry, firstMatching routes method path = some entry ∧ entry.handler = handler ∧
        entry.paramsOf path = params := by
  rw [dispatchRequest, dispatchFrom_eq_handler, find?_params]
  constructor
  · rintro ⟨entry, hentry, hhandler, hparams⟩
    refine ⟨entry, hentry, hhandler, ?_⟩
    rw [entry.params_eq, Option.ite_none_right_eq_some] at hparams
    exact Option.some.inj hparams.2
  · rintro ⟨entry, hentry, hhandler, hparams⟩
    refine ⟨entry, hentry, hhandler, ?_⟩
    have hmatches := List.find?_some hentry
    rw [Bool.and_eq_true] at hmatches
    rw [entry.params_eq, hmatches.1, hparams]
    rfl

/-- Without a handler, the flag of the loop tells the two errors apart. -/
theorem dispatchFrom_of_none {method path : Str} (routes : List RouteEntry) : ∀ matched,
    firstMatching routes method path = none → dispatchFrom method path matched routes =
      if matched || routes.any fun entry => (entry.params path).isSome then .methodNotAllowed
      else .notFound := by
  induction routes with
  | nil =>
    intro matched _
    rw [dispatchFrom, List.any_nil, Bool.or_false]
  | cons entry rest ih =>
    intro matched hnone
    rw [← find?_params, List.find?_cons] at hnone
    rw [dispatchFrom, List.any_cons]
    cases hparams : entry.params path with
    | none =>
      rw [hparams] at hnone
      exact ih matched (by rw [← find?_params]; exact hnone)
    | some params =>
      rw [hparams] at hnone
      cases hallows : entry.allows method with
      | true =>
        rw [hallows] at hnone
        cases hnone
      | false =>
        rw [hallows] at hnone
        show dispatchFrom method path true rest = _
        rw [ih true (by rw [← find?_params]; exact hnone)]
        simp

/-- The resolver and the dispatch walk the table with one result. -/
theorem resolver_agrees (routes : List RouteEntry) (method path : Str) :
    (resolveRoute routes method path = (true, true) ↔
        ∃ handler params, dispatchRequest routes method path = .handler handler params) ∧
      (resolveRoute routes method path = (true, false) ↔
        dispatchRequest routes method path = .methodNotAllowed) ∧
      (resolveRoute routes method path = (false, false) ↔
        dispatchRequest routes method path = .notFound) := by
  cases hfirst : firstMatching routes method path with
  | some entry =>
    have hdispatch : dispatchRequest routes method path =
        .handler entry.handler (entry.paramsOf path) :=
      dispatchRequest_eq_handler.mpr ⟨entry, hfirst, rfl, rfl⟩
    rw [resolveRoute_of_handler hdispatch, hdispatch]
    simp
  | none =>
    have hdispatch := dispatchFrom_of_none routes false hfirst
    rw [Bool.false_or] at hdispatch
    have hallowed : ((routes.filter fun entry => (entry.params path).isSome).any fun entry =>
        entry.allows method) = false := by
      rw [← find?_params, List.find?_eq_none] at hfirst
      rw [List.any_eq_false]
      intro entry hentry hallows
      obtain ⟨hmem, hsome⟩ := List.mem_filter.mp hentry
      exact hfirst entry hmem (by rw [hsome, hallows]; rfl)
    have hknown : (!(routes.filter fun entry => (entry.params path).isSome).isEmpty) =
        routes.any fun entry => (entry.params path).isSome := by
      rw [Bool.eq_iff_iff]
      simp [List.any_eq_true, Option.isSome_iff_ne_none]
    have hresolve : resolveRoute routes method path =
        (routes.any fun entry => (entry.params path).isSome, false) := by
      rw [← hknown, ← hallowed]
      rfl
    rw [hresolve, dispatchRequest, hdispatch]
    cases routes.any fun entry => (entry.params path).isSome <;> simp

/-! ## 4. The path of a template -/

theorem substitute_cons_of_ne {name : Str} {value : Str} {params : Params} {part : Str}
    (h : parameterName part ≠ name) :
    substitute ((name, value) :: params) part = substitute params part := by
  unfold substitute
  rw [List.find?_cons, decide_eq_false (fun heq => h heq.symm)]

/-- The parameters of a match give back the segments. -/
theorem map_substitute {parts : List Str} :
    ∀ {segments : List Str}, ((parts.filter isParameter).map parameterName).Nodup →
      segmentsMatch parts segments = true →
        parts.map (substitute (pathParams parts segments)) = segments := by
  induction parts with
  | nil =>
    intro segments _ hmatch
    cases segments with
    | nil => rfl
    | cons segment segments => cases hmatch
  | cons part parts ih =>
    intro segments hnames hmatch
    cases segments with
    | nil => cases hmatch
    | cons segment segments =>
      rw [segmentsMatch, Bool.and_eq_true] at hmatch
      obtain ⟨hsegment, hrest⟩ := hmatch
      rw [List.map_cons]
      cases hpart : isParameter part with
      | false =>
        rw [List.filter_cons_of_neg (by rw [hpart]; exact Bool.false_ne_true)] at hnames
        rw [segmentMatches, hpart] at hsegment
        have heq : segment = part := of_decide_eq_true hsegment
        rw [pathParams, hpart, if_neg Bool.false_ne_true, ih hnames hrest, substitute, hpart,
          if_neg Bool.false_ne_true, heq]
      | true =>
        rw [List.filter_cons_of_pos hpart, List.map_cons, List.nodup_cons] at hnames
        rw [pathParams, hpart, if_pos rfl]
        congr 1
        · rw [substitute, hpart, if_pos rfl, List.find?_cons, decide_eq_true rfl]
          rfl
        · rw [← ih hnames.2 hrest]
          apply List.map_congr_left
          intro other hother
          rw [ih hnames.2 hrest]
          cases hother' : isParameter other with
          | false => rw [substitute, substitute, hother', if_neg Bool.false_ne_true,
              if_neg Bool.false_ne_true]
          | true =>
            apply substitute_cons_of_ne
            intro heq
            rw [← heq] at hnames
            exact hnames.1 (List.mem_map_of_mem (List.mem_filter.mpr ⟨hother, hother'⟩))

theorem RouteEntry.pathOf_paramsOf {entry : RouteEntry} {path : Str}
    {isIdentifier : Str → Bool} (hentry : entry.WellFormed isIdentifier)
    (h : entry.matchesExactly path = true) : entry.pathOf (entry.paramsOf path) = path := by
  rw [RouteEntry.pathOf, RouteEntry.paramsOf, map_substitute hentry.names h]
  exact List.intercalate_splitOn slash

/-- An exact match that comes first is the first exact match. -/
theorem firstExact_of_firstMatching {routes : List RouteEntry} {method path : Str}
    {entry : RouteEntry} (h : firstMatching routes method path = some entry)
    (hexact : entry.matchesExactly path = true) : firstExact routes method path = some entry := by
  unfold firstMatching at h
  unfold firstExact
  rw [List.find?_eq_some_iff_append] at h ⊢
  obtain ⟨hmatches, before, after, hroutes, hbefore⟩ := h
  rw [Bool.and_eq_true] at hmatches
  refine ⟨by rw [hexact, hmatches.2]; rfl, before, after, hroutes, ?_⟩
  intro other hother
  have hnone := hbefore other hother
  rw [Bool.not_eq_true', Bool.and_eq_false_iff, Bool.or_eq_false_iff] at hnone
  rw [Bool.not_eq_true', Bool.and_eq_false_iff]
  rcases hnone with hnone | hnone
  · exact Or.inl hnone.1
  · exact Or.inr hnone

theorem isSome_firstMatching {routes : List RouteEntry} {method path : Str} {entry : RouteEntry}
    (h : firstExact routes method path = some entry) :
    ∃ first, firstMatching routes method path = some first := by
  rw [← Option.isSome_iff_exists, firstMatching, List.find?_isSome]
  have hexact := List.find?_some h
  rw [Bool.and_eq_true] at hexact
  refine ⟨entry, List.mem_of_find?_eq_some h, ?_⟩
  rw [hexact.1, hexact.2]
  rfl

/-- Dispatch is by segments but where a literal segment takes a newline behind it. -/
theorem dispatchExact_iff (upper : Str → Str) (isIdentifier : Str → Bool)
    (routes : List RouteEntry) (hroutes : ∀ entry ∈ routes, entry.WellFormed isIdentifier)
    (method path : Str) :
    DispatchExact routes (upper method) path ↔ ¬NewlineFirst routes (upper method) path := by
  constructor
  · rintro hdispatch ⟨entry, hentry, _, hnone⟩
    obtain ⟨other, hother, hhandler, hpath⟩ := hdispatch.called entry.handler
      (entry.paramsOf path) (dispatchRequest_eq_handler.mpr ⟨entry, hentry, rfl, rfl⟩)
    exact hnone other hother hhandler hpath
  · intro hnewline
    -- the entry that is called, or one behind it that would do as well
    have hcalled : ∀ entry, firstMatching routes (upper method) path = some entry →
        ∃ other, firstExact routes (upper method) path = some other ∧
          other.handler = entry.handler ∧ other.pathOf (entry.paramsOf path) = path := by
      intro entry hentry
      cases hexact : entry.matchesExactly path with
      | true =>
        have hwellFormed := hroutes entry (List.mem_of_find?_eq_some hentry)
        exact ⟨entry, firstExact_of_firstMatching hentry hexact, rfl,
          RouteEntry.pathOf_paramsOf hwellFormed hexact⟩
      | false =>
        by_contra hnone
        apply hnewline
        refine ⟨entry, hentry, hexact, ?_⟩
        intro other hother hhandler hpath
        exact hnone ⟨other, hother, hhandler, hpath⟩
    constructor
    · intro handler params hhandler
      obtain ⟨entry, hentry, rfl, rfl⟩ := dispatchRequest_eq_handler.mp hhandler
      exact hcalled entry hentry
    · intro entry hentry
      obtain ⟨first, hfirst⟩ := isSome_firstMatching hentry
      obtain ⟨other, hother, hhandler, _⟩ := hcalled first hfirst
      rw [hentry] at hother
      cases hother
      exact ⟨first.paramsOf path,
        dispatchRequest_eq_handler.mpr ⟨first, hfirst, hhandler.symm, rfl⟩⟩
    · exact resolver_agrees routes (upper method) path

/-! ### Two paths -/

def agentRoutes : List RouteEntry :=
  [route "GET" "/health" (.named "_health"), route "GET" "/v1/agents/{id}" (.named "_v1_get_agent")]

theorem dispatchExact_agent : DispatchExact agentRoutes (lit "GET") (lit "/v1/agents/a") := by
  have hwellFormed : ∀ entry ∈ agentRoutes, entry.WellFormed (fun name => !name.isEmpty) := by
    intro entry hentry
    simp only [agentRoutes, List.mem_cons, List.not_mem_nil, or_false] at hentry
    rcases hentry with rfl | rfl
    · constructor
      · decide +kernel
      · decide +kernel
    · constructor
      · decide +kernel
      · decide +kernel
  refine (dispatchExact_iff id (fun name => !name.isEmpty) agentRoutes hwellFormed (lit "GET")
    (lit "/v1/agents/a")).mpr ?_
  rintro ⟨entry, hentry, hexact, _⟩
  have hall : (firstMatching agentRoutes (lit "GET") (lit "/v1/agents/a")).all
      (fun entry => entry.matchesExactly (lit "/v1/agents/a")) = true := by
    decide +kernel
  rw [show firstMatching agentRoutes (lit "GET") (lit "/v1/agents/a") = some entry from hentry,
    Option.all_some, hexact] at hall
  cases hall

/-- The pattern of `/health` takes `/health\n` too. -/
theorem newline_health_dispatched :
    ¬DispatchExact agentRoutes (lit "GET") (lit "/health\n") := by
  intro hdispatch
  have hfirst : (firstMatching agentRoutes (lit "GET") (lit "/health\n")).isSome = true := by
    decide +kernel
  obtain ⟨entry, hentry⟩ := Option.isSome_iff_exists.mp hfirst
  obtain ⟨other, hother, _⟩ := hdispatch.called entry.handler (entry.paramsOf (lit "/health\n"))
    (dispatchRequest_eq_handler.mpr ⟨entry, hentry, rfl, rfl⟩)
  have hnone : (firstExact agentRoutes (lit "GET") (lit "/health\n")).isNone = true := by
    decide +kernel
  rw [hother] at hnone
  cases hnone

end KiwiCatalog.Api
