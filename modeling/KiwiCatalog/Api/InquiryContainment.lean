import KiwiCatalog.Api.InquiryRelay

/-!
# Api.InquiryContainment — what the relay lets out

Which exceptions leave the relay and which answers it hands on.  The search for the secret knows two
of its spellings, ids are compared by Python's equality, and some exceptions are not foreseen; the
main result says that nothing else is wrong.
-/

set_option autoImplicit false

namespace KiwiCatalog.Inquiry

open Api (Bytes Raised Text decodeUtf8)
open Checks (OnlyRaises onlyRaises_bind onlyRaises_check onlyRaises_ok onlyRaises_require)
open Py (Fields Key Str keyOf lit ofText)
open RuntimeAccess (appendShareParameter)

/-! ## 1. Strings and spellings -/

mutual

/-- The strings and the keys at any depth. -/
def strings : Py.Value → List Str
  | .str s => [s]
  | .list items => stringsOfItems items
  | .dict members => stringsOfMembers members
  | _ => []

def stringsOfItems : List Py.Value → List Str
  | [] => []
  | v :: rest => strings v ++ stringsOfItems rest

def stringsOfMembers : List (Key × Py.Value) → List Str
  | [] => []
  | (key, v) :: rest => (keyText key).toList ++ strings v ++ stringsOfMembers rest

end

mutual

/-- The search looks at every string and at every key. -/
theorem containsGateSecret_eq (secret : Text) :
    ∀ v, containsGateSecret secret v = (strings v).any (detects secret)
  | .str s => by simp [containsGateSecret, strings]
  | .list items => containsGateSecretItems_eq secret items
  | .dict members => containsGateSecretMembers_eq secret members
  | .none => rfl
  | .bool _ => rfl
  | .int _ => rfl
  | .float _ => rfl
  | .other => rfl

theorem containsGateSecretItems_eq (secret : Text) :
    ∀ items, containsGateSecretItems secret items = (stringsOfItems items).any (detects secret)
  | [] => rfl
  | v :: rest => by
    rw [containsGateSecretItems, stringsOfItems, List.any_append, containsGateSecret_eq secret v,
      containsGateSecretItems_eq secret rest]

theorem containsGateSecretMembers_eq (secret : Text) :
    ∀ members, containsGateSecretMembers secret members =
      (stringsOfMembers members).any (detects secret)
  | [] => rfl
  | (key, v) :: rest => by
    have hkey : (keyText key).any (detects secret) = (keyText key).toList.any (detects secret) := by
      cases keyText key <;> simp
    rw [containsGateSecretMembers, stringsOfMembers, List.any_append, List.any_append, ← hkey,
      containsGateSecret_eq secret v, containsGateSecretMembers_eq secret rest]

end

/-- A spelling of bytes by escapes, in digits of either case. -/
def Escapes : List Nat → Text → Prop
  | [], text => text = []
  | b :: bytes, text => ∃ high low rest, text = '%' :: high :: low :: rest ∧
      Url.hexValue high = some (b / 16) ∧ Url.hexValue low = some (b % 16) ∧ Escapes bytes rest

/-- A spelling of a text: each character is itself or the escapes of its bytes. -/
def Spells : Text → Text → Prop
  | [], text => text = []
  | c :: rest, text => ∃ piece more, text = piece ++ more ∧
      (piece = [c] ∨ Escapes (Url.utf8 c) piece) ∧ Spells rest more

/-- A string has the secret in it, literally or percent-encoded. -/
def Shows (secret : Text) (s : Str) : Prop := ∃ text, Spells secret text ∧ ofText text <:+: s

/-! ## 2. The property -/

/-- The dictionary without the mark for the transport. -/
def sent (reply : Fields) : Fields := Py.pop (keyOf "__no_store__") reply

/-- A response of the runtime that may be handed on. -/
structure Relayed (requestId : Py.Value) (secret : Text) (response : Fields) : Prop where
  version : Py.get (keyOf "jsonrpc") response = some (.str (lit "2.0"))
  id : Py.get (keyOf "id") response = some requestId
  oneOf : (Py.get (keyOf "result") response).isSome ≠ (Py.get (keyOf "error") response).isSome
  hidden : ∀ s ∈ strings (.dict response), ¬ Shows secret s

/-- The relay gives the fixed body or a response that may be handed on, and raises what is
documented. -/
structure Contained (env : Env) (w : World) (upstream : Upstream) (payload : Fields) : Prop where
  documented : OnlyRaises (fun e => e.documented = true) (forward env w upstream payload)
  relayed : ∀ accepted g reply, accept env payload = .ok accepted → gate env w = .ok g →
    forward env w upstream payload = .ok reply →
      reply = relayFailure accepted.requestId ∨
        Relayed accepted.requestId g.secret (sent reply)

/-! ## 3. The condition -/

/-- The message is read, or refused with an exception that is caught, and its method has a hash. -/
def Readable (env : Env) (payload : Fields) : Prop :=
  ∀ body text, rawBody payload = .ok body → decodeUtf8 body.1 = some text →
    (∀ e, env.lib.loads text = .error e →
      e = .unicodeDecode ∨ e = .jsonDecode ∨ e = .recursion) ∧
    ∀ fields, env.lib.loads text = .ok (.dict fields) →
      isText (lit "2.0") (Py.get (keyOf "jsonrpc") fields) = true →
        methodKnown (Py.get (keyOf "method") fields) ≠ none

/-- The secret in force decrypts, and the endpoint in force is a URL. -/
def Opens (env : Env) (w : World) : Prop :=
  ∀ binding config, opened env w = .ok (binding, config) →
    env.access.decryptSecret config.secretCiphertext config.keyId ≠ none ∧
      Url.urlsplit env.urls binding.a2aEndpoint.toList ≠ none

/-- An answer that the search can be run on, which finds the secret in it where it is shown or where
the id is equal to the request's and another value. -/
structure Harmless (env : Env) (requestId : Py.Value) (secret : Text) (response : Fields) :
    Prop where
  shallow : env.overflows secret (.dict response) = false
  found : (∃ s ∈ strings (.dict response), Shows secret s) →
    ∃ s ∈ strings (.dict response), detects secret s = true
  sameKind : (∃ b, Py.get (keyOf "id") response = some (.bool b)) ∨
      (∃ x, Py.get (keyOf "id") response = some (.float x)) →
    ∃ s ∈ strings (.dict response), detects secret s = true

/-! ## 4. Exceptions -/

theorem rawBody_onlyRaises (payload : Fields) :
    OnlyRaises (fun e => e.documented = true) (rawBody payload) := by
  unfold rawBody
  simp only [onlyRaises_bind, onlyRaises_require, onlyRaises_check]
  exact ⟨fun _ => rfl, fun _ _ => ⟨fun _ => rfl, fun _ _ => ⟨fun _ => rfl, fun _ _ =>
    ⟨fun _ => rfl, fun _ _ => onlyRaises_ok _ _⟩⟩⟩⟩

theorem acceptHeaders_onlyRaises (fields : Fields) :
    OnlyRaises (fun e => e.documented = true) (acceptHeaders fields) := by
  unfold acceptHeaders
  simp only [onlyRaises_bind, onlyRaises_require, onlyRaises_check]
  exact ⟨fun _ => rfl, fun _ _ => ⟨fun _ => rfl, fun _ _ => ⟨fun _ => rfl, fun _ _ =>
    onlyRaises_ok _ _⟩⟩⟩

theorem decodeMessage_onlyRaises (env : Env) (raw : Bytes) :
    OnlyRaises (fun e => e.documented = true) (decodeMessage env raw) ↔
      ∀ text, decodeUtf8 raw = some text → ∀ e, env.lib.loads text = .error e →
        e = .unicodeDecode ∨ e = .jsonDecode ∨ e = .recursion := by
  unfold decodeMessage
  cases decodeUtf8 raw with
  | none =>
    constructor
    · intro _ text htext
      cases htext
    · intro _ e he
      cases he
      rfl
  | some text =>
    simp only [Option.elim, Option.some.injEq, forall_eq']
    cases env.lib.loads text with
    | ok message =>
      constructor
      · intro _ e he
        cases he
      · intro _
        exact onlyRaises_ok _ _
    | error e =>
      constructor
      · intro h e' he'
        cases he'
        cases e with
        | unicodeDecode => exact .inl rfl
        | jsonDecode => exact .inr (.inl rfl)
        | recursion => exact .inr (.inr rfl)
        | unicodeEncode => exact absurd (h _ rfl) (by decide)
        | value => exact absurd (h _ rfl) (by decide)
        | type => exact absurd (h _ rfl) (by decide)
        | overflow => exact absurd (h _ rfl) (by decide)
      · intro h e' he'
        rcases h e rfl with rfl | rfl | rfl <;> cases he' <;> rfl

theorem messageFields_eq_some {message : Py.Value} {fields : Fields} :
    messageFields message = some fields ↔ message = .dict fields := by
  cases message <;> simp [messageFields]

theorem messageId_onlyRaises (message : Py.Value) :
    OnlyRaises (fun e => e.documented = true) (messageId message) ↔
      ∀ fields, message = .dict fields →
        isText (lit "2.0") (Py.get (keyOf "jsonrpc") fields) = true →
          methodKnown (Py.get (keyOf "method") fields) ≠ none := by
  unfold messageId
  simp only [onlyRaises_bind, onlyRaises_require, onlyRaises_check]
  constructor
  · intro h fields hfields hversion hmethod
    have hrest := h.2 fields (by rw [messageFields_eq_some.mpr hfields]; rfl)
    have hraised := (hrest.2 () (by rw [hversion]; rfl)).1 hmethod
    cases hraised
  · intro h
    refine ⟨fun _ => rfl, ?_⟩
    intro fields hfields
    refine ⟨fun _ => rfl, ?_⟩
    intro _ hversion
    constructor
    · intro hmethod
      have hdict := messageFields_eq_some.mp (Checks.require_eq_ok hfields)
      exact absurd hmethod (h fields hdict (Checks.check_eq_ok hversion))
    · intro _ _
      exact ⟨fun _ => rfl, fun _ _ _ => rfl⟩

theorem decodeMessage_eq_ok {env : Env} {raw : Bytes} {message : Py.Value} :
    decodeMessage env raw = .ok message ↔
      ∃ text, decodeUtf8 raw = some text ∧ env.lib.loads text = .ok message := by
  unfold decodeMessage
  cases decodeUtf8 raw with
  | none =>
    constructor
    · intro h
      cases h
    · rintro ⟨text, htext, _⟩
      cases htext
  | some text =>
    simp only [Option.elim, Option.some.injEq, exists_eq_left']
    cases env.lib.loads text with
    | ok message' => simp
    | error e => cases e <;> simp

/-- The checks of a request raise what is documented where its message can be read. -/
theorem accept_onlyRaises (env : Env) (payload : Fields) :
    OnlyRaises (fun e => e.documented = true) (accept env payload) ↔ Readable env payload := by
  unfold accept
  simp only [onlyRaises_bind, decodeMessage_onlyRaises, messageId_onlyRaises, decodeMessage_eq_ok]
  constructor
  · intro h body text hbody htext
    obtain ⟨hloads, hmethod⟩ := h.2 body hbody
    refine ⟨hloads text htext, ?_⟩
    intro fields hfields
    exact (hmethod (.dict fields) ⟨text, htext, hfields⟩).1 fields rfl
  · intro h
    refine ⟨rawBody_onlyRaises payload, ?_⟩
    intro body hbody
    refine ⟨fun text htext => (h body text hbody htext).1, ?_⟩
    rintro message ⟨text, htext, hmessage⟩
    constructor
    · rintro fields rfl
      exact (h body text hbody htext).2 fields hmessage
    · intro requestId _
      exact ⟨acceptHeaders_onlyRaises body.2, fun _ _ => onlyRaises_ok _ _⟩

theorem appended_onlyRaises (env : Env) (endpoint secret : Text) :
    OnlyRaises (fun e => e.documented = true) (appended env endpoint secret) ↔
      Url.urlsplit env.urls endpoint ≠ none := by
  unfold appended
  constructor
  · intro h hnone
    have hraised : appendShareParameter env.urls endpoint secret = .error .valueError := by
      unfold appendShareParameter
      rw [hnone]
    rw [hraised] at h
    exact absurd (h _ rfl) (by decide)
  · intro hsome
    cases happend : appendShareParameter env.urls endpoint secret with
    | ok target => exact onlyRaises_ok _ _
    | error e =>
      cases e with
      | validation message =>
        intro e he
        cases he
        rfl
      | valueError =>
        -- every other branch gives a message or a URL
        unfold appendShareParameter at happend
        cases hsplit : Url.urlsplit env.urls endpoint with
        | none => exact absurd hsplit hsome
        | some parts =>
          rw [hsplit] at happend
          simp only at happend
          split at happend <;> try cases happend
          split at happend <;> try cases happend
          split at happend <;> try cases happend
          split at happend <;> cases happend

theorem opened_onlyRaises (env : Env) (w : World) :
    OnlyRaises (fun e => e.documented = true) (opened env w) := by
  unfold opened
  simp only [onlyRaises_bind, onlyRaises_require, onlyRaises_check]
  exact ⟨fun _ => rfl, fun _ _ => ⟨fun _ => rfl, fun _ _ => ⟨fun _ => rfl, fun _ _ =>
    ⟨fun _ => rfl, fun _ _ => ⟨fun _ => rfl, fun _ _ => onlyRaises_ok _ _⟩⟩⟩⟩⟩

/-- The gate raises what is documented where it opens. -/
theorem gate_onlyRaises (env : Env) (w : World) :
    OnlyRaises (fun e => e.documented = true) (gate env w) ↔ Opens env w := by
  unfold gate
  simp only [onlyRaises_bind, onlyRaises_require, appended_onlyRaises]
  constructor
  · intro h binding config hopened
    obtain ⟨hdecrypts, happends⟩ := h.2 (binding, config) hopened
    have hsome : env.access.decryptSecret config.secretCiphertext config.keyId ≠ none := by
      intro hnone
      exact absurd (hdecrypts hnone) (by decide)
    refine ⟨hsome, ?_⟩
    obtain ⟨secret, hsecret⟩ := Option.ne_none_iff_exists'.mp hsome
    exact (happends secret (by rw [hsecret]; rfl)).1
  · intro h
    refine ⟨opened_onlyRaises env w, ?_⟩
    intro found hopened
    obtain ⟨hsome, hurl⟩ := h found.1 found.2 hopened
    refine ⟨fun hnone => absurd hnone hsome, ?_⟩
    intro secret _
    exact ⟨hurl, fun _ _ => onlyRaises_ok _ _⟩

/-! ## 5. The answer -/

/-- An id that is equal to the request's and of its kind is the request's. -/
theorem id_of_sameId {env : Env} {found : Option Py.Value} {requestId : Py.Value}
    (hsame : sameId env found requestId = true)
    (hbool : ∀ b, found ≠ some (.bool b)) (hfloat : ∀ x, found ≠ some (.float x)) :
    found = some requestId := by
  unfold sameId at hsame
  split at hsame
  · rw [of_decide_eq_true hsame]
  · rw [of_decide_eq_true hsame]
  · exact absurd rfl (hbool _)
  · exact absurd rfl (hfloat _)
  · cases hsame

theorem requestId_not_bool {message requestId : Py.Value} (h : messageId message = .ok requestId) :
    (∀ b, requestId ≠ .bool b) ∧ ∀ x, requestId ≠ .float x := by
  unfold messageId at h
  obtain ⟨fields, -, h⟩ := Checks.bind_eq_ok h
  obtain ⟨-, h⟩ := Checks.check_bind h
  obtain ⟨known, -, h⟩ := Checks.bind_eq_ok h
  obtain ⟨-, h⟩ := Checks.check_bind h
  have hid := Checks.require_eq_ok h
  unfold requestIdOf at hid
  split at hid
  · cases hid
    exact ⟨by simp, by simp⟩
  · cases hid
    exact ⟨by simp, by simp⟩
  · cases hid

theorem absent_of_wellFormed {env : Env} {requestId : Py.Value} {response : Fields}
    (h : wellFormed env requestId response = true) {key : Key} (hkey : key ∉ responseKeys) :
    Py.get key response = none := by
  unfold wellFormed at h
  simp only [Bool.and_eq_true] at h
  apply Py.get_eq_none.mpr
  intro field hfield heq
  have hknown := List.all_eq_true.mp h.1.2 field hfield
  rw [List.contains_iff_mem, heq] at hknown
  exact hkey hknown

theorem wellFormed_facts {env : Env} {requestId : Py.Value} {response : Fields}
    (h : wellFormed env requestId response = true) :
    Py.get (keyOf "jsonrpc") response = some (.str (lit "2.0")) ∧
      sameId env (Py.get (keyOf "id") response) requestId = true ∧
      (Py.get (keyOf "result") response).isSome ≠ (Py.get (keyOf "error") response).isSome := by
  unfold wellFormed at h
  simp only [Bool.and_eq_true, bne_iff_ne, ne_eq] at h
  refine ⟨?_, h.1.1.2, h.2⟩
  have hversion := h.1.1.1
  unfold isText at hversion
  split at hversion
  · rename_i s hs
    rw [hs, of_decide_eq_true hversion]
  · cases hversion

/-- A response that is handed on is no fixed body. -/
theorem set_ne_relayFailure {env : Env} {requestId : Py.Value} {response : Fields}
    (h : wellFormed env requestId response = true) (mark : Py.Value) :
    Py.set (keyOf "__no_store__") mark response ≠ relayFailure requestId := by
  intro heq
  have hstatus := congrArg (Py.get (keyOf "__status__")) heq
  rw [Py.get_set_of_ne (by decide), absent_of_wellFormed h (by decide)] at hstatus
  cases hstatus

/-- What the relay makes of an answer is right where the answer is harmless, and only there. -/
theorem relayResponse_iff {env : Env} {requestId : Py.Value} {secret : Text} {response : Fields}
    (hbool : ∀ b, requestId ≠ .bool b) (hfloat : ∀ x, requestId ≠ .float x) :
    (OnlyRaises (fun e => e.documented = true) (relayResponse env requestId secret response) ∧
      ∀ reply, relayResponse env requestId secret response = .ok reply →
        reply = relayFailure requestId ∨ Relayed requestId secret (sent reply)) ↔
      (wellFormed env requestId response = true → Harmless env requestId secret response) := by
  unfold relayResponse
  cases hwell : wellFormed env requestId response with
  | false =>
    constructor
    · intro _ h
      cases h
    · intro _
      refine ⟨onlyRaises_ok _ _, ?_⟩
      intro reply hreply
      exact .inl (Except.ok.inj hreply).symm
  | true =>
    have hsent : sent (Py.set (keyOf "__no_store__") (.bool true) response) = response :=
      Py.pop_set_of_absent (absent_of_wellFormed hwell (by decide)) _
    have hsearch := containsGateSecret_eq secret (.dict response)
    cases hdeep : env.overflows secret (.dict response) with
    | true =>
      constructor
      · intro h
        exact absurd (h.1 _ rfl) (by decide)
      · intro h
        rw [(h rfl).shallow] at hdeep
        cases hdeep
    | false =>
      cases hfound : containsGateSecret secret (.dict response) with
      | true =>
        rw [hfound] at hsearch
        have hsome := List.any_eq_true.mp hsearch.symm
        constructor
        · intro _ _
          exact ⟨hdeep, fun _ => hsome, fun _ => hsome⟩
        · intro _
          refine ⟨onlyRaises_ok _ _, ?_⟩
          intro reply hreply
          exact .inl (Except.ok.inj hreply).symm
      | false =>
        rw [hfound] at hsearch
        have hnone : ¬ ∃ s ∈ strings (.dict response), detects secret s = true := by
          rw [← List.any_eq_true, ← hsearch]
          exact Bool.false_ne_true
        constructor
        · intro h _
          rcases h.2 _ rfl with hfailure | hrelayed
          · exact absurd hfailure (set_ne_relayFailure hwell _)
          · rw [hsent] at hrelayed
            refine ⟨hdeep, ?_, ?_⟩
            · rintro ⟨s, hs, hshown⟩
              exact absurd hshown (hrelayed.hidden s hs)
            · rintro (⟨b, hb⟩ | ⟨x, hx⟩)
              · rw [hrelayed.id, Option.some.injEq] at hb
                exact absurd hb (hbool b)
              · rw [hrelayed.id, Option.some.injEq] at hx
                exact absurd hx (hfloat x)
        · intro h
          obtain ⟨hversion, hid, hone⟩ := wellFormed_facts hwell
          obtain ⟨-, hshown, hkind⟩ := h rfl
          refine ⟨onlyRaises_ok _ _, ?_⟩
          intro reply hreply
          right
          rw [← Except.ok.inj hreply, hsent]
          have hsame := id_of_sameId hid (fun b hb => hnone (hkind (.inl ⟨b, hb⟩)))
            (fun x hx => hnone (hkind (.inr ⟨x, hx⟩)))
          exact ⟨hversion, hsame, hone, fun s hs hs' => hnone (hshown ⟨s, hs, hs'⟩)⟩

/-! ## 6. The relay -/

/-- The answer of the runtime to an accepted request, where it is a JSON object. -/
def answered (env : Env) (upstream : Upstream) (accepted : Accepted) (g : Gate) : Option Fields :=
  (upstream g.target accepted.raw accepted.headers).bind fun answer =>
    if answer.1 = 200 then (env.loadsBytes answer.2).bind messageFields else none

theorem relay_eq (env : Env) (upstream : Upstream) (accepted : Accepted) (g : Gate) :
    relay env accepted.requestId g.secret (upstream g.target accepted.raw accepted.headers) =
      (answered env upstream accepted g).elim (.ok (relayFailure accepted.requestId))
        (relayResponse env accepted.requestId g.secret) := by
  unfold relay answered
  cases upstream g.target accepted.raw accepted.headers with
  | none => rfl
  | some answer =>
    simp only [Option.elim_some, Option.bind_some]
    by_cases hstatus : answer.1 = 200
    · rw [if_neg (not_not.mpr hstatus), if_pos hstatus]
    · rw [if_pos hstatus, if_neg hstatus]
      rfl

/-- The relay is contained on a request exactly where it can be read, and, once it is accepted, the
gate opens and what answers it with the shape of a response is harmless. -/
theorem contained_iff (env : Env) (w : World) (upstream : Upstream) (payload : Fields) :
    Contained env w upstream payload ↔
      Readable env payload ∧ ∀ accepted, accept env payload = .ok accepted →
        Opens env w ∧ ∀ g response, gate env w = .ok g →
          answered env upstream accepted g = some response →
            wellFormed env accepted.requestId response = true →
              Harmless env accepted.requestId g.secret response := by
  have hid : ∀ accepted, accept env payload = .ok accepted →
      (∀ b, accepted.requestId ≠ .bool b) ∧ ∀ x, accepted.requestId ≠ .float x := by
    intro accepted h
    unfold accept at h
    obtain ⟨body, -, h⟩ := Checks.bind_eq_ok h
    obtain ⟨message, -, h⟩ := Checks.bind_eq_ok h
    obtain ⟨requestId, hrequest, h⟩ := Checks.bind_eq_ok h
    obtain ⟨headers, -, h⟩ := Checks.bind_eq_ok h
    cases h
    exact requestId_not_bool hrequest
  have hraises : OnlyRaises (fun e => e.documented = true) (forward env w upstream payload) ↔
      Readable env payload ∧ ∀ accepted, accept env payload = .ok accepted →
        Opens env w ∧ ∀ g, gate env w = .ok g →
          OnlyRaises (fun e => e.documented = true)
            (relay env accepted.requestId g.secret
              (upstream g.target accepted.raw accepted.headers)) := by
    unfold forward
    simp only [onlyRaises_bind, accept_onlyRaises, gate_onlyRaises]
  have hforward : ∀ accepted g, accept env payload = .ok accepted → gate env w = .ok g →
      forward env w upstream payload = relay env accepted.requestId g.secret
        (upstream g.target accepted.raw accepted.headers) := by
    intro accepted g haccept hgate
    unfold forward
    rw [haccept]
    show (gate env w >>= _) = _
    rw [hgate]
    rfl
  constructor
  · intro h
    obtain ⟨hreadable, hrest⟩ := hraises.mp h.documented
    refine ⟨hreadable, ?_⟩
    intro accepted haccept
    refine ⟨(hrest accepted haccept).1, ?_⟩
    intro g response hgate hanswer
    have hrelay := relay_eq env upstream accepted g
    rw [hanswer, Option.elim_some] at hrelay
    apply (relayResponse_iff (hid accepted haccept).1 (hid accepted haccept).2).mp
    constructor
    · rw [← hrelay]
      exact (hrest accepted haccept).2 g hgate
    · intro reply hreply
      apply h.relayed accepted g reply haccept hgate
      rw [hforward accepted g haccept hgate, hrelay, hreply]
  · rintro ⟨hreadable, hrest⟩
    constructor
    · apply hraises.mpr
      refine ⟨hreadable, ?_⟩
      intro accepted haccept
      refine ⟨(hrest accepted haccept).1, ?_⟩
      intro g hgate
      rw [relay_eq]
      cases hanswer : answered env upstream accepted g with
      | none => exact onlyRaises_ok _ _
      | some response =>
        exact ((relayResponse_iff (hid accepted haccept).1 (hid accepted haccept).2).mpr
          ((hrest accepted haccept).2 g response hgate hanswer)).1
    · intro accepted g reply haccept hgate hreply
      rw [hforward accepted g haccept hgate, relay_eq] at hreply
      cases hanswer : answered env upstream accepted g with
      | none =>
        rw [hanswer] at hreply
        exact .inl (Except.ok.inj hreply).symm
      | some response =>
        rw [hanswer] at hreply
        exact ((relayResponse_iff (hid accepted haccept).1 (hid accepted haccept).2).mpr
          ((hrest accepted haccept).2 g response hgate hanswer)).2 reply hreply

/-! ## 7. A secret with a slash -/

def askText : Text := "\x7b\"jsonrpc\":\"2.0\",\"method\":\"GetTask\",\"id\":1\x7d".toList

def askFields : Fields :=
  [(keyOf "jsonrpc", .str (lit "2.0")), (keyOf "method", .str (lit "GetTask")),
    (keyOf "id", .int 1)]

def askBytes : Bytes := (String.ofList askText).toUTF8.data.toList

def askHeaders : Fields :=
  [(keyOf "content-type", .str (lit "application/json")), (keyOf "content-digest", .str (lit "d")),
    (keyOf "signature", .str (lit "s")), (keyOf "signature-input", .str (lit "i"))]

def askPayload : Fields :=
  [(keyOf "_raw_inquiry_body_b64", .str (ofText (Base64.encodeStd askBytes))),
    (keyOf "_inquiry_headers", .dict askHeaders)]

def answerText : Text := "\x7b\"jsonrpc\":\"2.0\",\"id\":1,\"result\":\"a%2fb\"\x7d".toList

def answerFields : Fields :=
  [(keyOf "jsonrpc", .str (lit "2.0")), (keyOf "id", .int 1), (keyOf "result", .str (lit "a%2fb"))]

def answerBytes : Bytes := (String.ofList answerText).toUTF8.data.toList

/-- Python on the two documents. -/
def askEnv : Env where
  access := ⟨true, fun secret => (secret, "k1"), fun ciphertext _ => some ciphertext, fun _ => true⟩
  lib :=
    { upper := id
      lower := id
      parseInt := fun _ => none
      loads := fun text => if text = askText then .ok (.dict askFields) else .error .jsonDecode
      dumpsCompact := fun _ => .error .type
      dumps := fun _ => .error .type
      str := fun _ => .error .type
      int := fun _ => .error .type
      sha256 := fun _ => [] }
  urls := ⟨fun _ => false, fun _ => false, fun text => text.map Char.toLower⟩
  loadsBytes body := if body = answerBytes then some (.dict answerFields) else none
  wholeNumber _ := none
  overflows _ _ := false

/-- An agent whose gate secret is `a/b`. -/
def askWorld : World where
  limited := false
  now := 0
  agentId := "agent"
  db :=
    { bindings := [⟨"b1", "agent", "merchant", "https://shop.example", "https://shop.example/a2a",
        "", "", 1, 1, .active⟩]
      expiresAt := fun _ => .never
      access :=
        { configs := [⟨"agent", 1, "a/b", "k1", .active, ""⟩]
          consents := fun _ => some ⟨"merchant", RuntimeAccess.consentTermsVersion, false⟩ }
      around :=
        { agents := [⟨"agent", "merchant", .active, .active, .fresh, none⟩]
          follows := fun _ _ => none
          publications := fun _ => some .active
          keepaliveConsents := fun _ => none
          inquiryConsents := fun _ =>
            some ⟨"merchant", "b1", RuntimeAccess.inquiryTermsVersion, false⟩ } }

theorem decodeUtf8_askBytes : decodeUtf8 askBytes = some askText := by
  rw [askBytes, String.toUTF8_eq_toByteArray, String.toByteArray_ofList]
  exact Api.decodeUtf8_utf8Encode askText

theorem rawBody_askPayload : rawBody askPayload = .ok (askBytes, askHeaders) := by
  have hsupplied : supplied askPayload =
      some (ofText (Base64.encodeStd askBytes), askHeaders) := rfl
  have hdecoded : (Py.scalars (ofText (Base64.encodeStd askBytes))).bind Base64.decodeStd =
      some askBytes := by
    rw [Py.scalars_ofText]
    exact Base64.decodeStd_encodeStd askBytes
  unfold rawBody
  rw [hsupplied]
  apply Checks.bind_ok_iff.mpr
  refine ⟨_, rfl, Checks.bind_ok_iff.mpr ⟨(), ?_, Checks.bind_ok_iff.mpr ⟨askBytes, ?_,
    Checks.bind_ok_iff.mpr ⟨(), ?_, rfl⟩⟩⟩⟩
  · exact Checks.check_ok_iff.mpr (by decide)
  · rw [hdecoded]
    rfl
  · exact Checks.check_ok_iff.mpr (by decide)

theorem accept_askPayload :
    ∃ headers, accept askEnv askPayload = .ok ⟨askBytes, .int 1, headers⟩ := by
  have hsome : (acceptHeaders askHeaders).toOption.isSome = true := by decide
  cases hheaders : acceptHeaders askHeaders with
  | error e =>
    rw [hheaders] at hsome
    cases hsome
  | ok headers =>
    refine ⟨headers, ?_⟩
    have hloads : askEnv.lib.loads askText = .ok (.dict askFields) := by
      show (if askText = askText then Except.ok (Py.Value.dict askFields)
        else .error Raised.jsonDecode) = _
      rw [if_pos rfl]
    have hmessage := decodeMessage_eq_ok.mpr ⟨askText, decodeUtf8_askBytes, hloads⟩
    exact Checks.bind_ok_iff.mpr ⟨_, rawBody_askPayload, Checks.bind_ok_iff.mpr ⟨_, hmessage,
      Checks.bind_ok_iff.mpr ⟨_, rfl, Checks.bind_ok_iff.mpr ⟨headers, hheaders, rfl⟩⟩⟩⟩

theorem relay_of_loads {env : Env} {requestId : Py.Value} {secret : Text} {body : Bytes}
    {response : Fields} (h : env.loadsBytes body = some (.dict response)) :
    relay env requestId secret (some (200, body)) =
      relayResponse env requestId secret response := by
  unfold relay
  rw [Option.elim_some, h]
  rfl

/-- The runtime writes the slash as `%2f`, which the search does not know. -/
theorem lower_case_escape_relayed :
    ¬ Contained askEnv askWorld (fun _ _ _ => some (200, answerBytes)) askPayload := by
  intro h
  obtain ⟨headers, haccept⟩ := accept_askPayload
  have hsecret : (gate askEnv askWorld).toOption.map Gate.secret = some "a/b".toList := by
    decide +kernel
  cases hgate : gate askEnv askWorld with
  | error e =>
    rw [hgate] at hsecret
    cases hsecret
  | ok g =>
    rw [hgate] at hsecret
    have hg : g.secret = "a/b".toList := Option.some.inj hsecret
    have hwell : wellFormed askEnv (.int 1) answerFields = true := by decide +kernel
    have hclean : containsGateSecret "a/b".toList (.dict answerFields) = false := by
      decide +kernel
    have hforward : forward askEnv askWorld (fun _ _ _ => some (200, answerBytes)) askPayload =
        .ok (Py.set (keyOf "__no_store__") (.bool true) answerFields) := by
      refine Checks.bind_ok_iff.mpr ⟨_, haccept, Checks.bind_ok_iff.mpr ⟨g, hgate, ?_⟩⟩
      have hloads : askEnv.loadsBytes answerBytes = some (.dict answerFields) := by
        show (if answerBytes = answerBytes then some (Py.Value.dict answerFields) else none) = _
        rw [if_pos rfl]
      have hrelay := @relay_of_loads askEnv (.int 1) "a/b".toList answerBytes answerFields hloads
      rw [hg]
      apply hrelay.trans
      unfold relayResponse
      rw [hwell, hclean]
      rfl
    rcases h.relayed _ g _ haccept hgate hforward with hfailure | hrelayed
    · exact set_ne_relayFailure hwell _ hfailure
    · have hsent : sent (Py.set (keyOf "__no_store__") (.bool true) answerFields) = answerFields :=
        Py.pop_set_of_absent (absent_of_wellFormed hwell (by decide)) _
      rw [hsent, hg] at hrelayed
      apply hrelayed.hidden (lit "a%2fb") (by decide +kernel)
      refine ⟨"a%2fb".toList, ⟨['a'], "%2fb".toList, rfl, .inl rfl, "%2f".toList, ['b'], rfl,
        .inr ?_, ['b'], [], rfl, .inl rfl, rfl⟩, List.infix_rfl⟩
      exact ⟨'2', 'f', [], rfl, by decide, by decide, rfl⟩

end KiwiCatalog.Inquiry
