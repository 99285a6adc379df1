import KiwiCatalog.Discovery.FetchRequests

/-!
# Fetch errors — what a fetch raises

The `except` clauses of a fetch name `OSError` and `HTTPException`, and the resolution of the first
name is outside of them.  What else a library call raises leaves the fetch as it is.
-/

set_option autoImplicit false

namespace KiwiCatalog.Discovery.Fetcher

open Url (Text)

/-- No `except` clause of `_make_request` converts it. -/
def Exc.escapes (e : Exc) : Bool := !(e.isFetchError || e.isOSError || decide (e = .httpException))

/-- The result is such an exception. -/
def Escaping {α : Type} (result : Except Exc α) : Prop := ∃ e, result = .error e ∧ e.escapes = true

/-- `fetch` returns, or raises a `FetchError` of some class. -/
def Contained (result : Except Exc FetchResult) : Prop :=
  ∀ e, result = .error e → e.isFetchError = true

/-! ## Where a library call raises something else -/

/-- Reading the body does. -/
def ReadEscapes (policy : TrustPolicy) (r : Response) : Prop :=
  Escaping (readLimited policy.maxProfileBytes r.reads [])

/-- `json.loads` does, on an integer of too many digits in the body that was read. -/
def JsonEscapes (lib : Library) (policy : TrustPolicy) (r : Response) : Prop :=
  ∃ raw, readLimited policy.maxProfileBytes r.reads [] = .ok raw ∧ raw ≠ [] ∧
    lib.loads (Url.decode .start (raw.map .byte)) = .error .intDigits

/-- The new URL of a redirect that passes the checks before its name is resolved. -/
structure Resolving (lib : Library) (policy : TrustPolicy) (o : Opener) (r : Response) (next : Hop)
    (newUrl : Text) (target : Admitted) : Prop where
  leads : redirectUrl lib o.request r = some (.ok newUrl)
  within : ¬ policy.redirectLimit < o.redirects + 1
  inTime : next.lateBefore = false
  admitted : validateTarget lib policy newUrl = .ok target

inductive RedirectEscapes (lib : Library) (policy : TrustPolicy) (o : Opener) (r : Response)
    (next : Hop) : Prop
  -- `urlparse` or `urljoin` does, on the `Location`
  | location {e : Exc} (h : redirectUrl lib o.request r = some (.error e)) (he : e.escapes = true)
  -- the resolver does, on the new name
  | resolver {newUrl : Text} {target : Admitted} {e : Exc}
      (hresolving : Resolving lib policy o r next newUrl target) (h : next.dns = .raised e)
      (he : e.escapes = true)
  -- reading the body of the redirect to its end does, where it is followed
  | drains {newUrl : Text} {target : Admitted} {ips : List Ip} {ip : Ip} {e : Exc}
      (hresolving : Resolving lib policy o r next newUrl target)
      (hips : resolveHostname lib next.dns = .ok ips) (hip : firstValid lib ips = .ok ip)
      (hlate : next.lateAfter = false)
      (hloop : ¬ (4 ≤ o.visited.count newUrl ∨ 10 ≤ o.visited.eraseDups.length))
      (h : r.drained = some e) (he : e.escapes = true)

/-- A request does, or a later one of the chain. -/
inductive OpenEscapes (lib : Library) (policy : TrustPolicy) : Opener → List Hop → Prop
  -- the URL is not one for `urlparse` any more, as the request has it
  | request {o : Opener} {hop : Hop} {rest : List Hop} {e : Exc}
      (h : connect lib o.store o.request = .error e) (he : e.escapes = true) :
      OpenEscapes lib policy o (hop :: rest)
  -- the connection does
  | exchange {o : Opener} {hop : Hop} {rest : List Hop} {connection : Connection} {e : Exc}
      (hconnect : connect lib o.store o.request = .ok connection) (h : hop.exchange = .raised e)
      (he : e.escapes = true) : OpenEscapes lib policy o (hop :: rest)
  | body {o : Opener} {hop : Hop} {rest : List Hop} {connection : Connection} {r : Response}
      (hconnect : connect lib o.store o.request = .ok connection)
      (hexchange : hop.exchange = .responded r) (hsuccess : isSuccess r.status = true)
      (hopened : r.lateOpened = false) (h : ReadEscapes policy r ∨ JsonEscapes lib policy r) :
      OpenEscapes lib policy o (hop :: rest)
  | errorBody {o : Opener} {hop : Hop} {rest : List Hop} {connection : Connection} {r : Response}
      (hconnect : connect lib o.store o.request = .ok connection)
      (hexchange : hop.exchange = .responded r) (hsuccess : isSuccess r.status = false)
      (hrefused : isRedirect r.status = true →
        (redirect lib policy o r (rest.head?.getD silence)).2 = .refused)
      (h : ReadEscapes policy r) : OpenEscapes lib policy o (hop :: rest)
  | redirects {o : Opener} {hop : Hop} {rest : List Hop} {connection : Connection} {r : Response}
      (hconnect : connect lib o.store o.request = .ok connection)
      (hexchange : hop.exchange = .responded r) (hsuccess : isSuccess r.status = false)
      (hredirect : isRedirect r.status = true)
      (h : RedirectEscapes lib policy o r (rest.head?.getD silence)) :
      OpenEscapes lib policy o (hop :: rest)
  | onward {o next : Opener} {hop : Hop} {rest : List Hop} {connection : Connection} {r : Response}
      (hconnect : connect lib o.store o.request = .ok connection)
      (hexchange : hop.exchange = .responded r) (hsuccess : isSuccess r.status = false)
      (hredirect : isRedirect r.status = true)
      (hfollowed : (redirect lib policy o r (rest.head?.getD silence)).2 = .followed next)
      (h : OpenEscapes lib policy next rest) : OpenEscapes lib policy o (hop :: rest)

/-- The resolver does on the first name, or what follows it. -/
inductive FetchEscapes (lib : Library) (policy : TrustPolicy) (url : Text) (hops : List Hop) : Prop
  -- an `OSError` too, where it is none of the two that are caught there
  | resolver {target : Admitted} {e : Exc} (htarget : validateTarget lib policy url = .ok target)
      (h : (hops.head?.getD silence).dns = .raised e) (hfetch : e.isFetchError = false)
      (hcaught : e ≠ .timeout ∧ e ≠ .gaierror)
  | opens {target : Admitted} {ips : List Ip} {ip : Ip} {request : Request}
      (htarget : validateTarget lib policy url = .ok target)
      (hips : resolveHostname lib (hops.head?.getD silence).dns = .ok ips)
      (hip : firstValid lib ips = .ok ip)
      (hrequest : newRequest url (hostHeader target.scheme target.hostname target.port) =
        .ok request)
      (hlate : (hops.head?.getD silence).lateAfter = false)
      (h : OpenEscapes lib policy ⟨request, [((target.hostname, target.port), ip)], 0, []⟩ hops)

/-! ## Exceptions that are converted -/

theorem converted_isFetchError (e : Exc) : e.converted.isFetchError = !e.escapes := by
  cases e <;> rfl

theorem wrapped_converted (e : Exc) : e.converted.wrapped = e.converted := by
  cases e <;> rfl

theorem not_escaping_ok {α : Type} (a : α) : ¬ Escaping (Except.ok a : Except Exc α) := by
  rintro ⟨e, he, -⟩
  cases he

theorem escaping_error {α : Type} {e : Exc} :
    Escaping (Except.error e : Except Exc α) ↔ e.escapes = true := by
  constructor
  · rintro ⟨e', he, hescapes⟩
    cases he
    exact hescapes
  · exact fun hescapes => ⟨e, rfl, hescapes⟩

theorem contained_converted (result : Except Exc FetchResult) :
    Contained ((result.mapError Exc.converted).mapError Exc.wrapped) ↔ ¬ Escaping result := by
  cases result with
  | ok r =>
    refine ⟨fun _ => not_escaping_ok r, fun _ e he => ?_⟩
    cases he
  | error e =>
    rw [escaping_error, Bool.not_eq_true]
    show (∀ e', Except.error e.converted.wrapped = Except.error e' → _) ↔ _
    rw [wrapped_converted]
    constructor
    · intro h
      have hfetch := h e.converted rfl
      rw [converted_isFetchError, Bool.not_eq_true'] at hfetch
      exact hfetch
    · intro h e' he
      cases he
      rw [converted_isFetchError, h]
      rfl

/-! ## Responses -/

theorem validateTarget_error {lib : Library} {policy : TrustPolicy} {url : Text} {e : Exc}
    (h : validateTarget lib policy url = .error e) : e = .ssrfBlock := by
  have hvalidate : ∀ {e}, validateUrl lib policy url = .error e → e = .ssrfBlock := by
    intro e h
    unfold validateUrl at h
    repeat' split at h
    all_goals cases h
    all_goals rfl
  have hport : ∀ {parsed scheme e}, portOf parsed scheme = .error e → e = .ssrfBlock := by
    intro parsed scheme e h
    unfold portOf at h
    split at h
    all_goals cases h
    rfl
  unfold validateTarget at h
  split at h
  · rename_i e' he
    cases h
    exact hvalidate he
  · split at h
    · rename_i e' he
      cases h
      exact hport he
    · split at h
      · cases h
        rfl
      · split at h
        · cases h
          rfl
        · cases h

theorem firstValid_error {lib : Library} {ips : List Ip} {e : Exc}
    (h : firstValid lib ips = .error e) : e = .ssrfBlock := by
  unfold firstValid at h
  split at h
  · cases h
    rfl
  · split at h
    all_goals cases h
    rfl

/-- An exception of the resolution that leaves `_make_request` is the resolver's. -/
theorem resolveHostname_escapes {lib : Library} {dns : DnsOutcome} :
    Escaping (resolveHostname lib dns) ↔ ∃ e, dns = .raised e ∧ e.escapes = true := by
  cases dns with
  | late => simp [resolveHostname, escaping_error, Exc.escapes, Exc.isFetchError]
  | refused => simp [resolveHostname, escaping_error, Exc.escapes, Exc.isFetchError]
  | answered addresses => simp [resolveHostname, not_escaping_ok]
  | raised e =>
    have hsame : Escaping (resolveHostname lib (.raised e)) ↔ e.escapes = true := by
      simp only [resolveHostname]
      split
      · rename_i htimeout
        rw [escaping_error, htimeout]
        decide
      · split
        · rename_i hgai
          rw [escaping_error, hgai]
          decide
        · exact escaping_error
    rw [hsame]
    constructor
    · exact fun he => ⟨e, rfl, he⟩
    · rintro ⟨e', he', hescapes⟩
      cases he'
      exact hescapes

theorem parseBody_escapes {lib : Library} {body : Text} :
    Escaping (parseBody lib body) ↔ lib.loads body = .error .intDigits := by
  unfold parseBody
  split
  · simp [escaping_error, Exc.escapes, Exc.isFetchError, *]
  · simp [escaping_error, Exc.escapes, Exc.isFetchError, *]
  · simp [escaping_error, Exc.escapes, Exc.isFetchError, Exc.isOSError, *]
  · simp [not_escaping_ok, *]
  · split <;> simp [escaping_error, not_escaping_ok, Exc.escapes, Exc.isFetchError, *]

theorem processResponse_escapes {lib : Library} {policy : TrustPolicy} {url : Text} {r : Response} :
    Escaping (processResponse lib policy url r) ↔
      r.lateOpened = false ∧ (ReadEscapes policy r ∨ JsonEscapes lib policy r) := by
  unfold processResponse ReadEscapes JsonEscapes
  split
  · rename_i hlate
    simp [escaping_error, Exc.escapes, Exc.isFetchError, hlate]
  · rename_i hopened
    rw [Bool.not_eq_true] at hopened
    cases hread : readLimited policy.maxProfileBytes r.reads [] with
    | error e => simp [escaping_error, hopened]
    | ok raw =>
      dsimp only
      have hparse : Escaping (if raw = [] then .ok none else
          parseBody lib (Url.decode .start (raw.map .byte))) ↔
            raw ≠ [] ∧ lib.loads (Url.decode .start (raw.map .byte)) = .error .intDigits := by
        by_cases hempty : raw = []
        · rw [if_pos hempty]
          simp [not_escaping_ok, hempty]
        · rw [if_neg hempty, parseBody_escapes]
          simp [hempty]
      have hjson : (r.lateOpened = false ∧ (Escaping (Except.ok raw : Except Exc (List Nat)) ∨
          ∃ raw', Except.ok raw = (Except.ok raw' : Except Exc (List Nat)) ∧ raw' ≠ [] ∧
            lib.loads (Url.decode .start (raw'.map .byte)) = .error .intDigits)) ↔
              raw ≠ [] ∧ lib.loads (Url.decode .start (raw.map .byte)) = .error .intDigits := by
        simp [hopened, not_escaping_ok]
      rw [hjson, ← hparse]
      cases hparsed : (if raw = [] then .ok none else
          parseBody lib (Url.decode .start (raw.map .byte)) : Except Exc (Option Json)) with
      | error e => simp [escaping_error]
      | ok parsed =>
        dsimp only
        split
        · simp [escaping_error, not_escaping_ok, Exc.escapes, Exc.isFetchError]
        · simp [not_escaping_ok]

theorem processHttpError_escapes {policy : TrustPolicy} {url : Text} {r : Response} :
    Escaping (processHttpError policy url r) ↔ ReadEscapes policy r := by
  have hfinish : ∀ raw, ¬ Escaping (processHttpError.finish url r raw) := by
    intro raw
    unfold processHttpError.finish
    split
    · rw [escaping_error]
      decide
    · exact not_escaping_ok _
  unfold processHttpError ReadEscapes
  split
  · rename_i e hread
    rw [hread]
    split
    · rename_i hlimit
      rw [escaping_error, hlimit]
      exact iff_of_false (hfinish []) (by decide)
    · rw [escaping_error, escaping_error]
  · rename_i raw hread
    rw [hread]
    simp [hfinish, not_escaping_ok]

/-! ## Redirects and requests -/

/-- The exception that ends the redirect is one that escapes. -/
def RaisesEscaping (redirected : Redirected) : Prop :=
  ∃ e, redirected = .raised e ∧ e.escapes = true

theorem raisesEscaping_raised {e : Exc} : RaisesEscaping (.raised e) ↔ e.escapes = true := by
  constructor
  · rintro ⟨e', he, hescapes⟩
    cases he
    exact hescapes
  · exact fun hescapes => ⟨e, rfl, hescapes⟩

theorem enterRedirect_raises {lib : Library} {policy : TrustPolicy} {o : Opener} {r : Response}
    {next : Hop} {newUrl : Text} {target : Admitted} {store : Store}
    (htarget : validateTarget lib policy newUrl = .ok target) :
    RaisesEscaping (enterRedirect o r next newUrl store) ↔
      next.lateAfter = false ∧
        ¬ (4 ≤ o.visited.count newUrl ∨ 10 ≤ o.visited.eraseDups.length) ∧
          ∃ e, r.drained = some e ∧ e.escapes = true := by
  obtain ⟨request, hrequest, -⟩ :=
    newRequest_of_validated htarget (Or.inr rfl) o.request.hostHeader
  unfold enterRedirect
  rw [hrequest]
  dsimp only
  split
  · rename_i hlate
    rw [raisesEscaping_raised]
    exact iff_of_false (by decide) fun h => by rw [hlate] at h; cases h.1
  · rename_i hlate
    rw [Bool.not_eq_true] at hlate
    split
    · rename_i hloop
      refine iff_of_false ?_ fun h => h.2.1 hloop
      rintro ⟨e, he, -⟩
      cases he
    · rename_i hloop
      cases hdrained : r.drained with
      | some e =>
        rw [raisesEscaping_raised]
        constructor
        · exact fun he => ⟨hlate, hloop, e, rfl, he⟩
        · rintro ⟨-, -, e', he', hescapes⟩
          cases he'
          exact hescapes
      | none =>
        refine iff_of_false ?_ ?_
        · rintro ⟨e, he, -⟩
          cases he
        · rintro ⟨-, -, e, he, -⟩
          cases he

theorem redirectEscapes_of_raises {lib : Library} {policy : TrustPolicy} {o : Opener} {r : Response}
    {next : Hop} (h : RaisesEscaping (redirect lib policy o r next).2) :
    RedirectEscapes lib policy o r next := by
  have hno : ∀ {e : Exc}, e.escapes = false → ¬ RaisesEscaping (.raised e) := by
    intro e he hraises
    rw [raisesEscaping_raised, he] at hraises
    cases hraises
  unfold redirect at h
  split at h
  · obtain ⟨e, he, -⟩ := h
    cases he
  · rename_i e hleads
    exact .location hleads ((raisesEscaping_raised).mp h)
  · rename_i newUrl hleads
    unfold redirectRequest at h
    split at h
    · exact absurd h (hno rfl)
    · rename_i hwithin
      split at h
      · exact absurd h (hno rfl)
      · rename_i hbefore
        rw [Bool.not_eq_true] at hbefore
        split at h
        · rename_i e htarget
          rw [validateTarget_error htarget] at h
          exact absurd h (hno rfl)
        · rename_i target htarget
          have hresolving : Resolving lib policy o r next newUrl target :=
            ⟨hleads, hwithin, hbefore, htarget⟩
          unfold resolveRedirect at h
          split at h
          · rename_i e hresolve
            have hescapes := (raisesEscaping_raised).mp h
            obtain ⟨e', hdns, he'⟩ := (resolveHostname_escapes).mp ⟨e, hresolve, hescapes⟩
            exact .resolver hresolving hdns he'
          · rename_i ips hips
            dsimp only at h
            split at h
            · rename_i e hvalid
              rw [firstValid_error hvalid] at h
              exact absurd h (hno rfl)
            · rename_i ip hip
              obtain ⟨hlate, hloop, e, hdrained, he⟩ := (enterRedirect_raises htarget).mp h
              exact .drains hresolving hips hip hlate hloop hdrained he

theorem redirect_of_resolving {lib : Library} {policy : TrustPolicy} {o : Opener}
    {r : Response} {next : Hop} {newUrl : Text} {target : Admitted}
    (h : Resolving lib policy o r next newUrl target) :
    redirect lib policy o r next = resolveRedirect lib o r next newUrl target := by
  unfold redirect
  rw [h.leads]
  dsimp only
  unfold redirectRequest
  rw [if_neg h.within, h.inTime, if_neg Bool.false_ne_true, h.admitted]

theorem redirect_raises {lib : Library} {policy : TrustPolicy} {o : Opener} {r : Response}
    {next : Hop} :
    RaisesEscaping (redirect lib policy o r next).2 ↔ RedirectEscapes lib policy o r next := by
  refine ⟨redirectEscapes_of_raises, fun h => ?_⟩
  cases h with
  | location hleads he =>
    unfold redirect
    rw [hleads]
    exact (raisesEscaping_raised).mpr he
  | resolver hresolving hdns he =>
    obtain ⟨e, hresolve, hescapes⟩ := (@resolveHostname_escapes lib _).mpr ⟨_, hdns, he⟩
    rw [redirect_of_resolving hresolving, resolveRedirect, hresolve]
    exact (raisesEscaping_raised).mpr hescapes
  | drains hresolving hips hip hlate hloop hdrained he =>
    rw [redirect_of_resolving hresolving, resolveRedirect, hips]
    dsimp only
    rw [hip]
    exact (enterRedirect_raises hresolving.admitted).mpr ⟨hlate, hloop, _, hdrained, he⟩

theorem openEscapes_of_escaping {lib : Library} {policy : TrustPolicy} {url : Text}
    (hops : List Hop) {o : Opener} (h : Escaping (openRequest lib policy url o hops).2) :
    OpenEscapes lib policy o hops := by
  induction hops generalizing o with
  | nil =>
    rw [openRequest, escaping_error] at h
    cases h
  | cons hop rest ih =>
    rw [openRequest] at h
    split at h
    · rename_i e hconnect
      exact .request hconnect ((escaping_error).mp h)
    · rename_i connection hconnect
      split at h
      · rename_i e hexchange
        exact .exchange hconnect hexchange ((escaping_error).mp h)
      · rename_i r hexchange
        split at h
        · rename_i hsuccess
          obtain ⟨hopened, hbody⟩ := (processResponse_escapes).mp h
          exact .body hconnect hexchange hsuccess hopened hbody
        · rename_i hsuccess
          rw [Bool.not_eq_true] at hsuccess
          split at h
          · rename_i hredirect
            split at h
            · rename_i events hrefused
              refine .errorBody hconnect hexchange hsuccess (fun _ => ?_)
                ((processHttpError_escapes).mp h)
              rw [hrefused]
            · rename_i events e hraised
              refine .redirects hconnect hexchange hsuccess hredirect ((redirect_raises).mp ?_)
              rw [hraised]
              exact (raisesEscaping_raised).mpr ((escaping_error).mp h)
            · rename_i events next hfollowed
              refine @OpenEscapes.onward _ _ _ next _ _ _ _ hconnect hexchange hsuccess hredirect ?_ (ih h)
              rw [hfollowed]
          · rename_i hredirect
            exact .errorBody hconnect hexchange hsuccess (fun hyes => absurd hyes hredirect)
              ((processHttpError_escapes).mp h)

theorem escaping_of_openEscapes {lib : Library} {policy : TrustPolicy} {url : Text} {o : Opener}
    {hops : List Hop} (h : OpenEscapes lib policy o hops) :
    Escaping (openRequest lib policy url o hops).2 := by
  induction h with
  | request hconnect he =>
    rw [openRequest, hconnect]
    exact (escaping_error).mpr he
  | exchange hconnect hexchange he =>
    rw [openRequest, hconnect]
    dsimp only
    rw [hexchange]
    exact (escaping_error).mpr he
  | body hconnect hexchange hsuccess hopened hbody =>
    rw [openRequest, hconnect]
    dsimp only
    rw [hexchange]
    dsimp only
    rw [if_pos hsuccess]
    exact (processResponse_escapes).mpr ⟨hopened, hbody⟩
  | @errorBody o hop rest connection r hconnect hexchange hsuccess hrefused hread =>
    rw [openRequest, hconnect]
    dsimp only
    rw [hexchange]
    dsimp only
    rw [hsuccess, if_neg Bool.false_ne_true]
    split
    · rename_i hredirect
      have hrefused := hrefused hredirect
      split
      · exact (processHttpError_escapes).mpr hread
      · rename_i hraised
        rw [hraised] at hrefused
        cases hrefused
      · rename_i hfollowed
        rw [hfollowed] at hrefused
        cases hrefused
    · exact (processHttpError_escapes).mpr hread
  | @redirects o hop rest connection r hconnect hexchange hsuccess hredirect hescapes =>
    obtain ⟨e, hraised, he⟩ := (redirect_raises).mpr hescapes
    rw [openRequest, hconnect]
    dsimp only
    rw [hexchange]
    dsimp only
    rw [hsuccess, if_neg Bool.false_ne_true, if_pos hredirect]
    split
    · rename_i hrefused
      rw [hrefused] at hraised
      cases hraised
    · rename_i hagain
      rw [hagain] at hraised
      cases hraised
      exact (escaping_error).mpr he
    · rename_i hfollowed
      rw [hfollowed] at hraised
      cases hraised
  | @onward o next hop rest connection r hconnect hexchange hsuccess hredirect hfollowed _ ih =>
    rw [openRequest, hconnect]
    dsimp only
    rw [hexchange]
    dsimp only
    rw [hsuccess, if_neg Bool.false_ne_true, if_pos hredirect]
    split
    · rename_i hrefused
      rw [hrefused] at hfollowed
      cases hfollowed
    · rename_i hraised
      rw [hraised] at hfollowed
      cases hfollowed
    · rename_i hagain
      rw [hagain] at hfollowed
      cases hfollowed
      exact ih

/-! ## The fetch -/

theorem makeRequest_contained {lib : Library} {policy : TrustPolicy} {url : Text}
    {target : Admitted} {ip : Ip} {hops : List Hop}
    (htarget : validateTarget lib policy url = .ok target) :
    Contained ((makeRequest lib policy url target ip hops).2.mapError Exc.wrapped) ↔
      ¬ ∃ request, newRequest url (hostHeader target.scheme target.hostname target.port) =
          .ok request ∧ (hops.head?.getD silence).lateAfter = false ∧
            OpenEscapes lib policy ⟨request, [((target.hostname, target.port), ip)], 0, []⟩ hops := by
  obtain ⟨request, hrequest, -⟩ := newRequest_of_validated htarget (Or.inl rfl)
    (hostHeader target.scheme target.hostname target.port)
  unfold makeRequest
  rw [hrequest]
  dsimp only
  split
  · rename_i hlate
    refine iff_of_true (fun e he => ?_) ?_
    · cases he
      rfl
    · rintro ⟨-, -, hnot, -⟩
      rw [hlate] at hnot
      cases hnot
  · rename_i hlate
    rw [Bool.not_eq_true] at hlate
    rw [contained_converted, not_iff_not]
    constructor
    · exact fun hescaping => ⟨request, rfl, hlate, openEscapes_of_escaping hops hescaping⟩
    · rintro ⟨request', hsame, -, hopens⟩
      cases hsame
      exact escaping_of_openEscapes hopens

/-- The exceptions of the first resolution that nothing catches. -/
theorem resolveHostname_contained {lib : Library} {dns : DnsOutcome} {e : Exc}
    (h : resolveHostname lib dns = .error e) :
    e.isFetchError = true ↔
      ¬ ∃ e', dns = .raised e' ∧ e'.isFetchError = false ∧ e' ≠ .timeout ∧ e' ≠ .gaierror := by
  cases dns with
  | late =>
    cases h
    simp [Exc.isFetchError]
  | refused =>
    cases h
    simp [Exc.isFetchError]
  | answered addresses => cases h
  | raised e' =>
    simp only [resolveHostname] at h
    split at h
    · rename_i htimeout
      cases h
      simp [Exc.isFetchError, htimeout]
    · rename_i htimeout
      split at h
      · rename_i hgai
        cases h
        simp [Exc.isFetchError, hgai]
      · rename_i hgai
        cases h
        simp [htimeout, hgai]

/-- A fetch returns or raises a `FetchError`, unless a library call raises something else on the
way: the resolver, the connection, the parse of a `Location`, a read, or `json.loads`. -/
theorem fetch_contained (lib : Library) (policy : TrustPolicy) (url : Text) (hops : List Hop) :
    Contained (fetch lib policy url hops).2 ↔ ¬ FetchEscapes lib policy url hops := by
  unfold fetch
  cases htarget : validateTarget lib policy url with
  | error e =>
    refine iff_of_true (fun e' he => ?_) ?_
    · cases he
      rw [validateTarget_error htarget]
      rfl
    · rintro (⟨h, -⟩ | ⟨h, -⟩)
      · rw [htarget] at h
        cases h
      · rw [htarget] at h
        cases h
  | ok target =>
    dsimp only
    cases hips : resolveHostname lib (hops.head?.getD silence).dns with
    | error e =>
      have hiff := resolveHostname_contained hips
      constructor
      · rintro hcontained (⟨-, hdns, hfetch, hcaught⟩ | ⟨-, hok, -⟩)
        · exact hiff.mp (hcontained e rfl) ⟨_, hdns, hfetch, hcaught⟩
        · rw [hips] at hok
          cases hok
      · intro hnot e' he
        cases he
        rw [hiff]
        rintro ⟨e', hdns, hfetch, hcaught⟩
        exact hnot (.resolver htarget hdns hfetch hcaught)
    | ok ips =>
      dsimp only
      -- an answer is not an exception
      have hanswered : ∀ e, (hops.head?.getD silence).dns = .raised e → e.isFetchError = false →
          e ≠ .timeout ∧ e ≠ .gaierror → False := by
        intro e hdns hfetch hcaught
        rw [hdns] at hips
        simp only [resolveHostname] at hips
        rw [if_neg hcaught.1, if_neg hcaught.2] at hips
        cases hips
      cases hip : firstValid lib ips with
      | error e =>
        refine iff_of_true (fun e' he => ?_) ?_
        · cases he
          rw [firstValid_error hip]
          rfl
        · rintro (⟨-, hdns, hfetch, hcaught⟩ | ⟨-, hok, hvalid, -⟩)
          · exact hanswered _ hdns hfetch hcaught
          · rw [hips] at hok
            cases hok
            rw [hip] at hvalid
            cases hvalid
      | ok ip =>
        dsimp only
        rw [makeRequest_contained htarget, not_iff_not]
        constructor
        · rintro ⟨request, hrequest, hlate, hopens⟩
          exact .opens htarget hips hip hrequest hlate hopens
        · rintro (⟨-, hdns, hfetch, hcaught⟩ | ⟨htarget', hips', hip', hrequest, hlate, hopens⟩)
          · exact absurd (hanswered _ hdns hfetch hcaught) id
          · rw [htarget] at htarget'
            cases htarget'
            rw [hips] at hips'
            cases hips'
            rw [hip] at hip'
            cases hip'
            exact ⟨_, hrequest, hlate, hopens⟩

/-- A library of ASCII texts that knows one address by its text, one of none of the special kinds. -/
def asciiLibrary : Library where
  tables := ⟨fun _ => false, fun _ => false, fun text => text.map Char.toLower⟩
  digit c := if c.isDigit then some (c.toNat - '0'.toNat) else none
  ipAddress text := if text = "93.184.216.34".toList then some (.v4 0x5db8d822#32) else none
  isLoopback _ := false
  isPrivate _ := false
  isLinkLocal _ := false
  join _ location := .ok location
  loads _ := .ok .null

def httpsPolicy : TrustPolicy := ⟨true, [https], [443], 3, 1000, 60⟩

/-- A name with an empty label is no IDNA name, and the resolution of the first name is outside of
the `try`. -/
theorem empty_label_escapes :
    ¬ Contained (fetch asciiLibrary httpsPolicy "https://a..b/card.json".toList
      [⟨.raised .unicodeError, false, false, .raised .timeout⟩]).2 := by
  intro h
  have hraised : (fetch asciiLibrary httpsPolicy "https://a..b/card.json".toList
      [⟨.raised .unicodeError, false, false, .raised .timeout⟩]).2 = .error .unicodeError := rfl
  exact absurd (h .unicodeError hraised) (by decide)

end KiwiCatalog.Discovery.Fetcher
