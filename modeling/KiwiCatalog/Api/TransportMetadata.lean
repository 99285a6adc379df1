import KiwiCatalog.Api.Fallback
import KiwiCatalog.Api.InquiryRoute

/-!
# Api.TransportMetadata — what a client can write into the fields of the transport

The transport tells inquiries by the text of the path, the dispatch by the pattern of a route.  The
two differ on a path that a newline ends: the handler of inquiries then gets the client's own copy
of the raw body and of the headers.
-/

set_option autoImplicit false

namespace KiwiCatalog.Api

open Checks (bind_eq_ok check_bind require_bind)

open Py (Str Key Fields lit ofText keyOf get)

/-! ## 1. The fields of the transport -/

/-- The metadata that never comes from the client. -/
def metadataNames : List String :=
  ["_auth_token", "_binding_jws", "_origin", "_referer", "_cookie", "_buyer_id", "_client_ip"]

/-- The metadata of a request: what the transport writes into an empty payload. -/
def transportMetadata (lib : Library) (cfg : Config) (headers : List (Bytes × Bytes))
    (client : Option Str) : Fields :=
  withTransport lib cfg ⟨[], [], headers, client, []⟩ []

/-- All that the transport may write. -/
def injected (lib : Library) (cfg : Config) (headers : List (Bytes × Bytes)) (client : Option Str)
    (body : Bytes) : Fields :=
  transportMetadata lib cfg headers client ++
    [(keyOf "_raw_inquiry_body_b64", .str (ofText (Base64.encodeStd body))),
      (keyOf "_inquiry_headers", headerDict (inquiryHeaders lib headers))]

/-- The fields of an inquiry are those of the request that is received. -/
structure IsReceived (lib : Library) (headers : List (Bytes × Bytes)) (body : Bytes)
    (payload : Fields) : Prop where
  body : ∃ text, get (keyOf "_raw_inquiry_body_b64") payload = some (.str (ofText text)) ∧
    Base64.decodeStd text = some body
  headers : get (keyOf "_inquiry_headers") payload =
    some (headerDict (inquiryHeaders lib headers))

/-- What the claim on the transport says of a call of a handler. -/
structure Unforgeable (lib : Library) (cfg : Config) (scope : Scope) (chunks : List Bytes)
    (call : HandlerCall) : Prop where
  metadata : ∀ name ∈ metadataNames, get (keyOf name) call.payload =
    get (keyOf name) (transportMetadata lib cfg scope.headers scope.client)
  inquiry : call.handler = .forward → IsReceived lib scope.headers chunks.flatten call.payload
  checked : ∃ decoded, decodeBody lib chunks.flatten = .ok decoded ∧
    validatePayload lib cfg (.dict decoded) [] = .ok () ∧
    ∀ field ∈ call.payload,
      field ∈ decoded ∨ field ∈ injected lib cfg scope.headers scope.client chunks.flatten

/-- What the transport relies on of Python's strings and of its `json`. -/
structure Library.Lawful (lib : Library) : Prop where
  upper_upper : ∀ s, lib.upper (lib.upper s) = lib.upper s
  loads_empty : lib.loads ['\x7b', '\x7d'] = .ok (.dict [])
  -- a string of a document is not longer than its literal
  loads_length : ∀ text fields key s, lib.loads text = .ok (.dict fields) →
    (key, .str s) ∈ fields → s.length ≤ text.length

/-- A `POST` to the path of inquiries with a newline behind it. -/
def IsNewlineInquiry (method path : Str) : Prop :=
  method = lit "POST" ∧ ∃ agentId, agentId ≠ [] ∧ slash ∉ agentId ∧
    path = inquiryPath agentId ++ [newline]

/-! ## 2. Fields that are written and taken away -/

theorem get_popAll (name : String) (names : List String) (fields : Fields) :
    get (keyOf name) (popAll names fields) =
      if name ∈ names then none else get (keyOf name) fields := by
  unfold popAll
  induction names generalizing fields with
  | nil => rw [List.foldl_nil, if_neg List.not_mem_nil]
  | cons first rest ih =>
    rw [List.foldl_cons, ih]
    by_cases hrest : name ∈ rest
    · rw [if_pos hrest, if_pos (List.mem_cons_of_mem _ hrest)]
    · rw [if_neg hrest]
      by_cases hfirst : name = first
      · rw [hfirst, Py.get_pop_self, if_pos (List.mem_cons_self ..)]
      · rw [Py.get_pop_of_ne (fun heq => hfirst (Py.keyOf_injective heq)), if_neg]
        intro hmem
        rcases List.mem_cons.mp hmem with h | h
        · exact hfirst h
        · exact hrest h

theorem get_pop_name (name other : String) (fields : Fields) :
    get (keyOf name) (Py.pop (keyOf other) fields) =
      if name = other then none else get (keyOf name) fields := by
  by_cases h : name = other
  · rw [h, Py.get_pop_self, if_pos rfl]
  · rw [Py.get_pop_of_ne (fun heq => h (Py.keyOf_injective heq)), if_neg h]

theorem get_set_name (name other : String) (value : Py.Value) (fields : Fields) :
    get (keyOf name) (Py.set (keyOf other) value fields) =
      if name = other then some value else get (keyOf name) fields := by
  by_cases h : name = other
  · rw [h, Py.get_set_self, if_pos rfl]
  · rw [Py.get_set_of_ne (fun heq => h (Py.keyOf_injective heq)), if_neg h]

theorem get_setText (name other : String) (value : Str) (fields : Fields) :
    get (keyOf name) (setText other value fields) =
      if name = other then some (.str value) else get (keyOf name) fields :=
  get_set_name name other (.str value) fields

theorem get_setNonempty (name other : String) (value : Str) (fields : Fields) :
    get (keyOf name) (setNonempty other value fields) =
      if name = other ∧ value ≠ [] then some (.str value) else get (keyOf name) fields := by
  unfold setNonempty
  cases value with
  | nil => simp
  | cons c rest => simp [get_setText]

theorem get_payloadWithAuth (lib : Library) (name : String) (payload : Fields)
    (authorization idempotencyKey bindingJws : Str) :
    get (keyOf name) (payloadWithAuth lib payload authorization idempotencyKey bindingJws) =
      if name = "_binding_jws" ∧ bindingJws ≠ [] then some (.str (strip bindingJws))
      else if name = "idempotency_key" ∧ idempotencyKey ≠ [] then some (.str idempotencyKey)
      else if name = "_auth_token" ∧ bearerToken lib authorization ≠ [] then
        some (.str (bearerToken lib authorization))
      else if name ∈ ["_auth_token", "_binding_jws", "_origin", "_referer"] then none
      else get (keyOf name) payload := by
  unfold payloadWithAuth
  cases bindingJws with
  | nil => simp [get_setNonempty, get_popAll]
  | cons c rest => simp [get_setText, get_setNonempty, get_popAll]

/-- The metadata are written as into an empty payload. -/
theorem get_withTransport_of_mem (lib : Library) (cfg : Config) (scope : Scope) {name : String}
    (hname : name ∈ metadataNames) (payload : Fields) :
    get (keyOf name) (withTransport lib cfg scope payload) =
      get (keyOf name) (transportMetadata lib cfg scope.headers scope.client) := by
  simp only [metadataNames, List.mem_cons, List.not_mem_nil, or_false] at hname
  rcases hname with rfl | rfl | rfl | rfl | rfl | rfl | rfl <;>
    simp [withTransport, transportMetadata, get_setText, get_setNonempty, get_pop_name,
      get_payloadWithAuth, get_popAll]

/-- The transport leaves the other fields. -/
theorem get_withTransport_of_not_mem (lib : Library) (cfg : Config) (scope : Scope) {name : String}
    (hname : name ∉ "idempotency_key" :: metadataNames) (payload : Fields) :
    get (keyOf name) (withTransport lib cfg scope payload) = get (keyOf name) payload := by
  simp only [metadataNames, List.mem_cons, List.not_mem_nil, or_false, not_or] at hname
  obtain ⟨hkey, hauth, hjws, horigin, hreferer, hcookie, hbuyer, hclient⟩ := hname
  simp [withTransport, get_setText, get_setNonempty, get_pop_name, get_payloadWithAuth,
    get_popAll, *]

theorem mem_of_mem_popAll {field : Key × Py.Value} (names : List String) {fields : Fields}
    (h : field ∈ popAll names fields) : field ∈ fields := by
  unfold popAll at h
  induction names generalizing fields with
  | nil => exact h
  | cons first rest ih =>
    rw [List.foldl_cons] at h
    exact (List.mem_filter.mp (ih h)).1

theorem mem_set {field : Key × Py.Value} {key : Key} {value : Py.Value} {fields : Fields} :
    field ∈ Py.set key value fields ↔ field = (key, value) ∨ field ∈ fields ∧ field.1 ≠ key := by
  unfold Py.set
  split
  · rename_i hany
    rw [List.mem_map]
    constructor
    · rintro ⟨other, hother, heq⟩
      split at heq
      · exact Or.inl heq.symm
      · rename_i hne
        rw [← heq]
        exact Or.inr ⟨hother, hne⟩
    · rintro (rfl | ⟨hmem, hne⟩)
      · obtain ⟨other, hother, hkey⟩ := List.any_eq_true.mp hany
        exact ⟨other, hother, if_pos (of_decide_eq_true hkey)⟩
      · exact ⟨field, hmem, if_neg hne⟩
  · rename_i hany
    rw [List.mem_append, List.mem_singleton, or_comm]
    have hne (h : field ∈ fields) : field.1 ≠ key := fun hkey =>
      hany (List.any_eq_true.mpr ⟨field, h, decide_eq_true hkey⟩)
    constructor
    · rintro (h | h)
      · exact Or.inl h
      · exact Or.inr ⟨h, hne h⟩
    · rintro (h | h)
      · exact Or.inl h
      · exact Or.inr h.1

/-! ## 3. Where the fields of a payload come from -/

/-- Every field is a field of `decoded` or of `written`. -/
def Within (decoded fields written : Fields) : Prop :=
  ∀ field ∈ fields, field ∈ decoded ∨ field ∈ written

theorem Within.refl (decoded written : Fields) : Within decoded decoded written :=
  fun _ h => Or.inl h

section

variable {decoded fields written : Fields}

theorem Within.pop (h : Within decoded fields written) (key : Key) :
    Within decoded (Py.pop key fields) (Py.pop key written) := by
  intro field hfield
  obtain ⟨hmem, hkey⟩ := List.mem_filter.mp hfield
  rcases h field hmem with hdecoded | hwritten
  · exact Or.inl hdecoded
  · exact Or.inr (List.mem_filter.mpr ⟨hwritten, hkey⟩)

theorem Within.popAll (h : Within decoded fields written) (names : List String) :
    Within decoded (popAll names fields) (popAll names written) := by
  unfold KiwiCatalog.Api.popAll
  induction names generalizing fields written with
  | nil => exact h
  | cons first rest ih => exact ih (h.pop (keyOf first))

theorem Within.set (h : Within decoded fields written) (key : Key) (value : Py.Value) :
    Within decoded (Py.set key value fields) (Py.set key value written) := by
  intro field hfield
  rcases mem_set.mp hfield with heq | ⟨hmem, hne⟩
  · exact Or.inr (mem_set.mpr (Or.inl heq))
  · rcases h field hmem with hdecoded | hwritten
    · exact Or.inl hdecoded
    · exact Or.inr (mem_set.mpr (Or.inr ⟨hwritten, hne⟩))

theorem Within.setText (h : Within decoded fields written) (name : String) (value : Str) :
    Within decoded (setText name value fields) (setText name value written) :=
  h.set (keyOf name) (.str value)

theorem Within.setNonempty (h : Within decoded fields written) (name : String) (value : Str) :
    Within decoded (setNonempty name value fields) (setNonempty name value written) := by
  unfold KiwiCatalog.Api.setNonempty
  split
  · exact h
  · exact h.setText name value

theorem Within.payloadWithAuth (h : Within decoded fields written) (lib : Library)
    (authorization idempotencyKey bindingJws : Str) :
    Within decoded (payloadWithAuth lib fields authorization idempotencyKey bindingJws)
      (payloadWithAuth lib written authorization idempotencyKey bindingJws) := by
  have hmerged := ((h.popAll ["_auth_token", "_binding_jws", "_origin", "_referer"]).setNonempty
    "_auth_token" (bearerToken lib authorization)).setNonempty "idempotency_key" idempotencyKey
  unfold KiwiCatalog.Api.payloadWithAuth
  cases bindingJws with
  | nil => exact hmerged
  | cons c rest => exact hmerged.setText "_binding_jws" (strip (c :: rest))

/-- The transport adds what it would write into an empty payload. -/
theorem Within.withTransport (h : Within decoded fields []) (lib : Library) (cfg : Config)
    (scope : Scope) : Within decoded (withTransport lib cfg scope fields)
      (transportMetadata lib cfg scope.headers scope.client) := by
  have hauth := (h.popAll ["_cookie", "_buyer_id", "_client_ip"]).payloadWithAuth lib
    (headerOf lib scope.headers "authorization") (headerOf lib scope.headers "idempotency-key")
    (headerOf lib scope.headers "x-kiwi-binding-jws")
  have hcookie := ((hauth.setNonempty "_cookie" (headerOf lib scope.headers "cookie")).setText
    "_origin" (headerOf lib scope.headers "origin")).setText "_referer"
      (headerOf lib scope.headers "referer")
  have hclient := (hcookie.setNonempty "_buyer_id" (headerOf lib scope.headers "x-buyer-id")).pop
    (keyOf "_client_ip")
  exact hclient.setText "_client_ip"
    (resolveClientIp lib cfg (headerOf lib scope.headers "x-forwarded-for") scope.client)

theorem Within.withInquiry {lib : Library} {scope : Scope} {body : Bytes} {payload : Fields}
    (h : Within decoded fields written)
    (hpayload : withInquiry lib scope body fields = some payload) :
    Within decoded payload (written ++
      [(keyOf "_raw_inquiry_body_b64", .str (ofText (Base64.encodeStd body))),
        (keyOf "_inquiry_headers", headerDict (inquiryHeaders lib scope.headers))]) := by
  unfold KiwiCatalog.Api.withInquiry at hpayload
  rw [Option.ite_none_right_eq_some] at hpayload
  cases hpayload.2
  intro field hfield
  rcases mem_set.mp hfield with rfl | ⟨hmem, _⟩
  · exact Or.inr (by simp)
  · rcases mem_set.mp hmem with rfl | ⟨hmem, _⟩
    · exact Or.inr (by simp)
    · rcases h field hmem with hdecoded | hwritten
      · exact Or.inl hdecoded
      · exact Or.inr (List.mem_append_left _ hwritten)

end

/-! ## 4. A request that reaches a handler -/

theorem readBody_eq_some {maximum : Nat} {chunks : List Bytes} :
    ∀ {size body}, readBody maximum size chunks = some body → body = chunks.flatten := by
  induction chunks with
  | nil =>
    intro size body h
    cases h
    rfl
  | cons chunk rest ih =>
    intro size body h
    rw [readBody] at h
    split at h
    · cases h
    · obtain ⟨more, hmore, rfl⟩ := Option.map_eq_some_iff.mp h
      rw [ih hmore, List.flatten_cons]

/-- The payload of a body that is admitted. -/
structure IsAdmitted (lib : Library) (cfg : Config) (scope : Scope) (body : Bytes)
    (decoded payload : Fields) : Prop where
  decodes : decodeBody lib body = .ok decoded
  valid : validatePayload lib cfg (.dict decoded) [] = .ok ()
  inquiry : isInquiry (scope.upperMethod lib) scope.pathOrRoot = true →
    withInquiry lib scope body
      (withTransport lib cfg scope (popAll INQUIRY_TRANSPORT_KEYS decoded)) = some payload
  other : isInquiry (scope.upperMethod lib) scope.pathOrRoot = false →
    payload = withTransport lib cfg scope decoded

theorem mapError_eq_ok {ε ε' α : Type} {x : Except ε α} {f : ε → ε'} {a : α}
    (h : x.mapError f = .ok a) : x = .ok a := by
  cases x with
  | error e => cases h
  | ok b =>
    cases h
    rfl

theorem admitBody_eq_ok {lib : Library} {cfg : Config} {scope : Scope} {body : Bytes}
    {payload : Fields} {trusted : List String}
    (h : admitBody lib cfg scope body = .ok (payload, trusted)) :
    ∃ decoded, IsAdmitted lib cfg scope body decoded payload := by
  unfold admitBody at h
  obtain ⟨decoded, hdecoded, h⟩ := bind_eq_ok h
  obtain ⟨_, hvalid, h⟩ := bind_eq_ok h
  refine ⟨decoded, hdecoded, mapError_eq_ok hvalid, ?_, ?_⟩
  · intro hinquiry
    rw [if_pos hinquiry] at h
    obtain ⟨forwarded, hforwarded, h⟩ := require_bind h
    cases h
    exact hforwarded
  · intro hinquiry
    rw [if_neg (by rw [hinquiry]; exact Bool.false_ne_true)] at h
    cases h
    rfl

theorem admitRequest_eq_ok {lib : Library} {cfg : Config} {resolver : Str → Str → Bool × Bool}
    {scope : Scope} {chunks : List Bytes} {payload : Fields} {trusted : List String}
    (h : admitRequest lib cfg resolver scope chunks = .ok (payload, trusted)) :
    admitBody lib cfg scope chunks.flatten = .ok (payload, trusted) := by
  unfold admitRequest at h
  obtain ⟨_, h⟩ := check_bind h
  obtain ⟨_, h⟩ := check_bind h
  obtain ⟨_, h⟩ := check_bind h
  obtain ⟨body, hbody, h⟩ := require_bind h
  rw [← readBody_eq_some hbody]
  exact h

theorem handleRequest_eq_some {lib : Library} {cfg : Config} {specs : List ExtensionRoute}
    {method path : Str} {payload : Fields} {trusted : List String} {called : Handler × Params}
    (h : handleRequest lib cfg specs method path payload trusted = some called) :
    dispatchRequest (allRoutes specs) (lib.upper method) path =
      .handler called.1 called.2 := by
  unfold handleRequest at h
  split at h
  · cases h
  · split at h
    · rename_i hdispatch
      cases h
      exact hdispatch
    · cases h

theorem dispatched_eq_some {lib : Library} {cfg : Config} {specs : List ExtensionRoute}
    {scope : Scope} {chunks : List Bytes} {call : HandlerCall}
    (h : dispatched lib cfg specs scope chunks = some call) :
    dispatchRequest (allRoutes specs) (lib.upper (scope.upperMethod lib)) scope.pathOrRoot =
        .handler call.handler call.params ∧
      ∃ decoded, IsAdmitted lib cfg scope chunks.flatten decoded call.payload := by
  unfold dispatched at h
  split at h
  · rename_i payload trusted hadmit
    obtain ⟨called, hcalled, rfl⟩ := Option.map_eq_some_iff.mp h
    exact ⟨handleRequest_eq_some hcalled, admitBody_eq_ok (admitRequest_eq_ok hadmit)⟩
  · cases h

/-- What a request needs to reach its handler. -/
theorem dispatched_isSome {lib : Library} {cfg : Config} {specs : List ExtensionRoute}
    {scope : Scope} {chunks : List Bytes} {handler : Handler} {params : Params} (body : Bytes)
    (hlength : contentLength lib scope.headers ≤ cfg.maxRequestBodyBytes)
    (hdispatch : dispatchRequest (allRoutes specs) (lib.upper (scope.upperMethod lib))
      scope.pathOrRoot = .handler handler params)
    (hbody : readBody cfg.maxRequestBodyBytes 0 chunks = some body)
    (hvalid : (admitBody lib cfg scope body >>= fun admitted =>
      (validatePayload lib cfg (.dict admitted.1) admitted.2).mapError LimitError.stop).isOk =
        true) : (dispatched lib cfg specs scope chunks).isSome = true := by
  obtain ⟨_, hok⟩ : ∃ done, (admitBody lib cfg scope body >>= fun admitted =>
      (validatePayload lib cfg (.dict admitted.1) admitted.2).mapError LimitError.stop) =
        .ok done := by
    revert hvalid
    generalize (admitBody lib cfg scope body >>= _) = result
    intro hvalid
    cases result with
    | error e => cases hvalid
    | ok done => exact ⟨done, rfl⟩
  obtain ⟨admitted, hadmitted, hok⟩ := bind_eq_ok hok
  obtain ⟨payload, trusted⟩ := admitted
  have hadmit : admitRequest lib cfg (fun method => resolveRoute (allRoutes specs)
      (lib.upper method)) scope chunks = .ok (payload, trusted) := by
    rw [admitRequest, resolveRoute_of_handler hdispatch, hbody, decide_eq_true hlength]
    exact hadmitted
  rw [dispatched, hadmit]
  show (Option.map _ (handleRequest lib cfg specs (scope.upperMethod lib) scope.pathOrRoot payload
    trusted)).isSome = true
  rw [handleRequest, mapError_eq_ok hok, hdispatch]
  rfl

/-! ## 5. The two tests of the path -/

theorem isInquiry_inquiryPath (agentId : Str) :
    isInquiry (lit "POST") (inquiryPath agentId) = true := by
  have hprefix : (lit "/v1/agents/").isPrefixOf (inquiryPath agentId) = true := by
    rw [List.isPrefixOf_iff_prefix, inquiryPath, List.append_assoc]
    exact List.prefix_append ..
  have hsuffix : (lit "/public-inquiry").isSuffixOf (inquiryPath agentId) = true := by
    rw [List.isSuffixOf_iff_suffix, inquiryPath]
    exact List.suffix_append ..
  rw [isInquiry, hprefix, hsuffix, decide_eq_true rfl]
  rfl

/-- A path that a newline ends does not end in the text of the route. -/
theorem isInquiry_newline (method path : Str) : isInquiry method (path ++ [newline]) = false := by
  have hsuffix : (lit "/public-inquiry").isSuffixOf (path ++ [newline]) = false := by
    rw [Bool.eq_false_iff, ne_eq, List.isSuffixOf_iff_suffix]
    rintro ⟨front, hfront⟩
    have hlast : (front ++ lit "/public-inquir") ++ [.scalar 'y'] = path ++ [newline] := by
      rw [← hfront, List.append_assoc]
      rfl
    cases (List.append_inj' hlast rfl).2
  rw [isInquiry, hsuffix, Bool.and_false]

theorem decodeBody_eq_ok {lib : Library} {body : Bytes} {decoded : Fields}
    (h : decodeBody lib body = .ok decoded) :
    ∃ text, decodeUtf8 body = some text ∧
      lib.loads (if text.isEmpty then ['\x7b', '\x7d'] else text) = .ok (.dict decoded) := by
  unfold decodeBody at h
  split at h
  · cases h
  · rename_i text htext
    refine ⟨text, htext, ?_⟩
    split at h
    · cases h
    · cases h
    · cases h
    · cases h
    · rename_i fields hfields
      cases h
      exact hfields
    · cases h

/-- No string of a document decodes to the document that it stands in. -/
theorem not_decodes_to_itself {lib : Library} (hlib : lib.Lawful) {body : Bytes}
    {decoded : Fields} (h : decodeBody lib body = .ok decoded) {key : Key} {text : Text}
    (hfield : get key decoded = some (.str (ofText text))) : Base64.decodeStd text ≠ some body := by
  obtain ⟨document, hdocument, hloads⟩ := decodeBody_eq_ok h
  intro hdecode
  have hbytes := Base64.length_decodeStd hdecode
  have hchars := length_decodeUtf8 hdocument
  split at hloads
  · -- an empty body is read as an empty object
    rw [hlib.loads_empty] at hloads
    cases hloads
    cases hfield
  · rename_i hempty
    have hstring := hlib.loads_length _ _ _ _ hloads (Py.mem_of_get hfield)
    rw [ofText, List.length_map] at hstring
    have hpos : 0 < document.length := by
      rw [List.length_pos_iff]
      rintro rfl
      exact hempty rfl
    omega

/-! ## 6. What the handlers get -/

theorem get_withInquiry {lib : Library} {scope : Scope} {body : Bytes} {payload forwarded : Fields}
    (h : withInquiry lib scope body payload = some forwarded) {name : String}
    (hraw : name ≠ "_raw_inquiry_body_b64") (hheaders : name ≠ "_inquiry_headers") :
    get (keyOf name) forwarded = get (keyOf name) payload := by
  unfold withInquiry at h
  rw [Option.ite_none_right_eq_some] at h
  cases h.2
  rw [get_set_name, if_neg hheaders, get_setText, if_neg hraw]

theorem isReceived_withInquiry {lib : Library} {scope : Scope} {body : Bytes}
    {payload forwarded : Fields} (h : withInquiry lib scope body payload = some forwarded) :
    IsReceived lib scope.headers body forwarded := by
  unfold withInquiry at h
  rw [Option.ite_none_right_eq_some] at h
  cases h.2
  constructor
  · refine ⟨Base64.encodeStd body, ?_, Base64.decodeStd_encodeStd body⟩
    rw [get_set_name, if_neg (by decide), get_setText, if_pos rfl]
  · rw [get_set_name, if_pos rfl]

theorem metadata_of_isAdmitted {lib : Library} {cfg : Config} {scope : Scope} {body : Bytes}
    {decoded payload : Fields} (h : IsAdmitted lib cfg scope body decoded payload) {name : String}
    (hname : name ∈ metadataNames) : get (keyOf name) payload =
      get (keyOf name) (transportMetadata lib cfg scope.headers scope.client) := by
  cases hinquiry : isInquiry (scope.upperMethod lib) scope.pathOrRoot with
  | false => rw [h.other hinquiry, get_withTransport_of_mem lib cfg scope hname]
  | true =>
    have hraw : name ≠ "_raw_inquiry_body_b64" := by
      rintro rfl
      revert hname
      decide
    have hheaders : name ≠ "_inquiry_headers" := by
      rintro rfl
      revert hname
      decide
    rw [get_withInquiry (h.inquiry hinquiry) hraw hheaders,
      get_withTransport_of_mem lib cfg scope hname]

/-- A payload holds fields of the client, which are checked, and those of the transport. -/
theorem within_of_isAdmitted {lib : Library} {cfg : Config} {scope : Scope} {body : Bytes}
    {decoded payload : Fields} (h : IsAdmitted lib cfg scope body decoded payload) :
    Within decoded payload (injected lib cfg scope.headers scope.client body) := by
  cases hinquiry : isInquiry (scope.upperMethod lib) scope.pathOrRoot with
  | false =>
    rw [h.other hinquiry]
    intro field hfield
    rcases (Within.refl decoded []).withTransport lib cfg scope field hfield with hin | hin
    · exact Or.inl hin
    · exact Or.inr (List.mem_append_left _ hin)
  | true =>
    have hpopped : Within decoded (popAll INQUIRY_TRANSPORT_KEYS decoded) [] :=
      fun field hfield => Or.inl (mem_of_mem_popAll INQUIRY_TRANSPORT_KEYS hfield)
    exact (hpopped.withTransport lib cfg scope).withInquiry (h.inquiry hinquiry)

theorem isInquiry_of_forward {lib : Library} (hlib : lib.Lawful) {specs : List ExtensionRoute}
    {scope : Scope} {params : Params}
    (h : dispatchRequest (allRoutes specs) (lib.upper (scope.upperMethod lib)) scope.pathOrRoot =
      .handler .forward params) :
    isInquiry (scope.upperMethod lib) scope.pathOrRoot = true ∨
      IsNewlineInquiry (scope.upperMethod lib) scope.pathOrRoot := by
  obtain ⟨hmethod, hmatch⟩ := dispatchRequest_forward.mp h
  rw [Scope.upperMethod, hlib.upper_upper] at hmethod
  obtain ⟨agentId, hne, hslash, hpath, _⟩ := matchPath_inquiry.mp hmatch
  rw [Scope.upperMethod, hmethod]
  rcases hpath with hpath | hpath
  · left
    rw [hpath]
    exact isInquiry_inquiryPath agentId
  · right
    exact ⟨rfl, agentId, hne, hslash, hpath⟩

theorem forward_of_isNewlineInquiry {lib : Library} (hlib : lib.Lawful)
    {specs : List ExtensionRoute} {scope : Scope} {handler : Handler} {params : Params}
    (hnewline : IsNewlineInquiry (scope.upperMethod lib) scope.pathOrRoot)
    (h : dispatchRequest (allRoutes specs) (lib.upper (scope.upperMethod lib)) scope.pathOrRoot =
      .handler handler params) : handler = .forward := by
  obtain ⟨hmethod, agentId, hne, hslash, hpath⟩ := hnewline
  have hforward : dispatchRequest (allRoutes specs) (lib.upper (scope.upperMethod lib))
      scope.pathOrRoot = .handler .forward [(lit "catalog_agent_id", agentId)] := by
    rw [dispatchRequest_forward]
    refine ⟨?_, matchPath_inquiry.mpr ⟨agentId, hne, hslash, Or.inr hpath, rfl⟩⟩
    rw [← hmethod, Scope.upperMethod, hlib.upper_upper]
  rw [hforward] at h
  injection h with hhandler
  exact hhandler.symm

/-- The metadata of a call cannot be forged but where a newline ends the path of an inquiry. -/
theorem unforgeable_iff (lib : Library) (hlib : lib.Lawful) (cfg : Config)
    (specs : List ExtensionRoute) (scope : Scope) (chunks : List Bytes) (call : HandlerCall)
    (h : dispatched lib cfg specs scope chunks = some call) :
    Unforgeable lib cfg scope chunks call ↔
      ¬IsNewlineInquiry (scope.upperMethod lib) scope.pathOrRoot := by
  obtain ⟨hdispatch, decoded, hpayload⟩ := dispatched_eq_some h
  constructor
  · intro hunforgeable hnewline
    have hinquiry : isInquiry (scope.upperMethod lib) scope.pathOrRoot = false := by
      obtain ⟨_, agentId, _, _, hpath⟩ := hnewline
      rw [hpath]
      exact isInquiry_newline _ _
    have hforward := forward_of_isNewlineInquiry hlib hnewline hdispatch
    obtain ⟨text, hraw, hdecode⟩ := (hunforgeable.inquiry hforward).body
    -- the raw body is a field of the client's document, which is too short to hold it
    rw [hpayload.other hinquiry, get_withTransport_of_not_mem lib cfg scope (by decide)] at hraw
    exact not_decodes_to_itself hlib hpayload.decodes hraw hdecode
  · intro hnewline
    constructor
    · intro name hname
      exact metadata_of_isAdmitted hpayload hname
    · intro hforward
      rw [hforward] at hdispatch
      rcases isInquiry_of_forward hlib hdispatch with hinquiry | hends
      · exact isReceived_withInquiry (hpayload.inquiry hinquiry)
      · exact absurd hends hnewline
    · exact ⟨decoded, hpayload.decodes, hpayload.valid, within_of_isAdmitted hpayload⟩

/-! ### Two requests -/

/-- `json.dumps` of a dictionary of texts that need no escapes. -/
def plainDumps : Py.Value → Except Raised Str
  | .dict fields =>
    .ok (lit "\x7b" ++ List.intercalate (lit ",") (fields.map plainField) ++ lit "\x7d")
  | _ => .error .type
where
  plainField : Key × Py.Value → Str
    | (.text key, .str value) => lit "\"" ++ key ++ lit "\":\"" ++ value ++ lit "\""
    | _ => []

def forgedText : Text := "\x7b\"_raw_inquiry_body_b64\":\"e30=\"\x7d".toList

def forgedFields : Fields := [(keyOf "_raw_inquiry_body_b64", .str (lit "e30="))]

/-- Python on the two documents, with methods and names of headers in their case. -/
def plainLibrary : Library where
  upper := id
  lower := id
  parseInt := fun _ => none
  loads := fun text =>
    if text = forgedText then .ok (.dict forgedFields)
    else if text = ['\x7b', '\x7d'] then .ok (.dict [])
    else .error .jsonDecode
  dumpsCompact := plainDumps
  dumps := plainDumps
  str := fun _ => .error .type
  int := fun _ => .error .type
  sha256 := fun _ => []

theorem lawful_plainLibrary : plainLibrary.Lawful := by
  constructor
  · intro s
    rfl
  · rfl
  · intro text fields key s hloads hmem
    unfold plainLibrary at hloads
    dsimp only at hloads
    split at hloads
    · rename_i htext
      cases hloads
      rw [forgedFields, List.mem_singleton] at hmem
      cases hmem
      rw [htext]
      decide
    · split at hloads
      · cases hloads
        cases hmem
      · cases hloads

def defaultConfig : Config := ⟨1048576, []⟩

def inquiryScope : Scope := ⟨lit "POST", lit "/v1/agents/a/public-inquiry", [], none, []⟩

def newlineScope : Scope := ⟨lit "POST", lit "/v1/agents/a/public-inquiry\n", [], none, []⟩

def forgedBody : Bytes := (String.ofList forgedText).toUTF8.data.toList

theorem decodeUtf8_forgedBody : decodeUtf8 forgedBody = some forgedText := by
  rw [forgedBody, String.toUTF8_eq_toByteArray, String.toByteArray_ofList]
  exact decodeUtf8_utf8Encode forgedText

/-- A request for the inquiries of the agent `a`. -/
theorem dispatchRequest_a {path : Str}
    (hpath : path = inquiryPath (lit "a") ∨ path = inquiryPath (lit "a") ++ [newline]) :
    dispatchRequest (allRoutes []) (lit "POST") path =
      .handler .forward [(lit "catalog_agent_id", lit "a")] := by
  rw [dispatchRequest_forward]
  refine ⟨rfl, matchPath_inquiry.mpr ⟨lit "a", ?_, ?_, hpath, rfl⟩⟩
  · decide
  · decide

theorem unforgeable_iff_inquiry : ∃ call,
    dispatched plainLibrary defaultConfig [] inquiryScope [forgedBody] = some call ∧
      Unforgeable plainLibrary defaultConfig inquiryScope [forgedBody] call := by
  have hsome : (dispatched plainLibrary defaultConfig [] inquiryScope [forgedBody]).isSome =
      true :=
    dispatched_isSome forgedBody (by decide) (dispatchRequest_a (Or.inl rfl)) rfl
      (by decide +kernel)
  obtain ⟨call, hcall⟩ := Option.isSome_iff_exists.mp hsome
  refine ⟨call, hcall, (unforgeable_iff plainLibrary lawful_plainLibrary defaultConfig []
    inquiryScope [forgedBody] call hcall).mpr ?_⟩
  rintro ⟨_, agentId, _, _, hpath⟩
  have hlast := congrArg List.getLast? hpath
  rw [List.getLast?_concat] at hlast
  revert hlast
  decide

/-- With the newline, the handler of inquiries gets the client's own copy of the body. -/
theorem newline_inquiry_forged : ∃ call,
    dispatched plainLibrary defaultConfig [] newlineScope [forgedBody] = some call ∧
      call.handler = .forward ∧
      get (keyOf "_raw_inquiry_body_b64") call.payload = some (.str (lit "e30=")) ∧
      ¬Unforgeable plainLibrary defaultConfig newlineScope [forgedBody] call := by
  have hforward := dispatchRequest_a (Or.inr (rfl : newlineScope.path = _))
  have hsome : (dispatched plainLibrary defaultConfig [] newlineScope [forgedBody]).isSome =
      true :=
    dispatched_isSome forgedBody (by decide) hforward rfl (by decide +kernel)
  obtain ⟨call, hcall⟩ := Option.isSome_iff_exists.mp hsome
  obtain ⟨hdispatch, decoded, hpayload⟩ := dispatched_eq_some hcall
  have hhandler : call.handler = .forward := by
    have hcalled : Dispatched.handler call.handler call.params = .handler .forward _ :=
      hdispatch.symm.trans hforward
    injection hcalled
  obtain ⟨text, htext, hloads⟩ := decodeBody_eq_ok hpayload.decodes
  have hforged : some text = some forgedText := htext.symm.trans decodeUtf8_forgedBody
  cases hforged
  cases hloads
  have hraw : get (keyOf "_raw_inquiry_body_b64") call.payload = some (.str (lit "e30=")) := by
    rw [hpayload.other (isInquiry_newline (lit "POST") (inquiryPath (lit "a"))),
      get_withTransport_of_not_mem plainLibrary defaultConfig newlineScope (by decide)]
    rfl
  refine ⟨call, hcall, hhandler, hraw, ?_⟩
  intro hunforgeable
  obtain ⟨encoded, hencoded, hdecode⟩ := (hunforgeable.inquiry hhandler).body
  rw [hraw] at hencoded
  have hchars : encoded.length = 4 := by
    have hlength := congrArg List.length (Py.Value.str.inj (Option.some.inj hencoded))
    rw [ofText, List.length_map] at hlength
    rw [← hlength]
    rfl
  have hbytes := Base64.length_decodeStd hdecode
  have hbody : 4 < forgedBody.length := by decide +kernel
  have hlong : 4 * forgedBody.length ≤ 3 * encoded.length := hbytes
  omega

end KiwiCatalog.Api
