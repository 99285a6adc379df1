import KiwiCatalog.Discovery.FetchErrors
import KiwiCatalog.Lib.Trace

/-!
# Fetch pinning — where the connections of a fetch go

A connection takes its address from the store, and the store holds what the validator resolved.
Its port is the one that `http.client` reads in the percent-decoded authority, and its `Host` the
one of the first request: `urllib` copies the headers to the next request.
-/

set_option autoImplicit false

namespace KiwiCatalog.Discovery.Fetcher

open Url (Text)

namespace NetEvent

def isResolved : NetEvent → Bool
  | .resolved .. => true
  | .connected _ => false

def isConnected : NetEvent → Bool
  | .resolved .. => false
  | .connected _ => true

end NetEvent

/-! ## Pinned connections -/

/-- The address is from an answer for this name and port, and the answer has no blocked address. -/
def Answered (lib : Library) (past : List NetEvent) (hostname : Text) (port : Nat) (ip : Ip) :
    Prop :=
  ∃ ips, .resolved hostname port ips ∈ past ∧ ip ∈ ips ∧ ∀ ip ∈ ips, isBlockedIp lib ip = none

structure PinnedAt (lib : Library) (policy : TrustPolicy) (past : List NetEvent) (c : Connection) :
    Prop where
  address : Answered lib past c.urlHost c.urlPort c.ip
  scheme : c.scheme ∈ policy.allowedSchemes
  encrypted : policy.requireHttps = true → c.scheme = https
  port : ∃ port ∈ policy.allowedPorts, c.port = Int.ofNat port
  host : c.hostHeader = hostHeader c.scheme c.urlHost c.urlPort

/-- At most as many of them as the redirects allow: one more, for the first request. -/
def Within (policy : TrustPolicy) (n : Nat) : Prop := Int.ofNat n ≤ max policy.redirectLimit 0 + 1

/-- Every connection is pinned; there is a resolution for each redirect that is followed, and for
the first name. -/
structure FetchPinned (lib : Library) (policy : TrustPolicy) (log : List NetEvent) : Prop where
  each : Trace.Each (fun past event => ∀ c, event = .connected c → PinnedAt lib policy past c) log
  resolutions : Within policy (log.countP NetEvent.isResolved)
  connections : Within policy (log.countP NetEvent.isConnected)

/-! ## Requests that go astray -/

/-- The request is for another authority than the first one, or the port that `http.client` reads
is none of the allowed ones. -/
def Stray (lib : Library) (policy : TrustPolicy) (first : Text) (o : Opener) (c : Connection) :
    Prop :=
  connect lib o.store o.request = .ok c ∧
    ((∀ port ∈ policy.allowedPorts, c.port ≠ Int.ofNat port) ∨
      hostHeader c.scheme c.urlHost c.urlPort ≠ first)

/-- A request does, or a later one of the chain. -/
inductive OpenStrays (lib : Library) (policy : TrustPolicy) (first : Text) :
    Opener → List Hop → Prop
  | request {o : Opener} {hop : Hop} {rest : List Hop} {c : Connection}
      (h : Stray lib policy first o c) : OpenStrays lib policy first o (hop :: rest)
  | onward {o next : Opener} {hop : Hop} {rest : List Hop} {c : Connection} {r : Response}
      (hconnect : connect lib o.store o.request = .ok c) (hexchange : hop.exchange = .responded r)
      (hsuccess : isSuccess r.status = false) (hredirect : isRedirect r.status = true)
      (hfollowed : (redirect lib policy o r (rest.head?.getD silence)).2 = .followed next)
      (h : OpenStrays lib policy first next rest) : OpenStrays lib policy first o (hop :: rest)

inductive FetchStrays (lib : Library) (policy : TrustPolicy) (url : Text) (hops : List Hop) : Prop
  | opens {target : Admitted} {ips : List Ip} {ip : Ip} {request : Request}
      (htarget : validateTarget lib policy url = .ok target)
      (hips : resolveHostname lib (hops.head?.getD silence).dns = .ok ips)
      (hip : firstValid lib ips = .ok ip)
      (hrequest : newRequest url (hostHeader target.scheme target.hostname target.port) =
        .ok request)
      (hlate : (hops.head?.getD silence).lateAfter = false)
      (h : OpenStrays lib policy (hostHeader target.scheme target.hostname target.port)
        ⟨request, [((target.hostname, target.port), ip)], 0, []⟩ hops)

/-! ## Steps -/

theorem firstValid_ok {lib : Library} {ips : List Ip} {ip : Ip} (h : firstValid lib ips = .ok ip) :
    ip ∈ ips ∧ ∀ ip ∈ ips, isBlockedIp lib ip = none := by
  unfold firstValid at h
  split at h
  · cases h
  · split at h
    · rename_i hall
      cases h
      refine ⟨List.mem_cons_self, fun ip hip => ?_⟩
      exact Option.isNone_iff_eq_none.mp (List.all_eq_true.mp hall ip hip)
    · cases h

/-- What a connection is made of. -/
structure Connects (store : Store) (req : Request) (c : Connection) : Prop where
  ip : store.get? c.urlHost c.urlPort = some c.ip
  scheme : c.scheme = req.type
  web : req.type = http ∨ req.type = https
  hostHeader : c.hostHeader = req.hostHeader

theorem connect_ok {lib : Library} {store : Store} {req : Request} {c : Connection}
    (h : connect lib store req = .ok c) : Connects store req c := by
  unfold connect at h
  split at h
  · cases h
  · split at h
    · cases h
    · rename_i hweb
      split at h
      · cases h
      · split at h
        · cases h
        · split at h
          · cases h
          · split at h
            · cases h
            · rename_i ip hip
              split at h
              · cases h
              · cases h
                refine ⟨hip, rfl, ?_, rfl⟩
                by_contra hneither
                exact hweb (not_or.mp hneither)

theorem Store.mem_of_get? {store : Store} {hostname : Text} {port : Nat} {ip : Ip}
    (h : store.get? hostname port = some ip) : ((hostname, port), ip) ∈ store := by
  unfold Store.get? at h
  rw [Option.map_eq_some_iff] at h
  obtain ⟨entry, hfind, rfl⟩ := h
  have hkey := List.find?_some hfind
  rw [decide_eq_true_eq] at hkey
  rw [← hkey]
  exact List.mem_of_find?_eq_some hfind

/-- A redirect that is followed: its URL was checked, and its name resolved. -/
structure Followed (lib : Library) (policy : TrustPolicy) (o : Opener) (events : List NetEvent)
    (next : Opener) (newUrl : Text) (target : Admitted) (ips : List Ip) (ip : Ip) : Prop where
  admitted : validateTarget lib policy newUrl = .ok target
  events : events = [.resolved target.hostname target.port ips]
  valid : firstValid lib ips = .ok ip
  request : newRequest (spacesEscaped newUrl) o.request.hostHeader = .ok next.request
  store : next.store = ((target.hostname, target.port), ip) :: o.store
  redirects : next.redirects = o.redirects + 1

/-- A redirect resolves no name, or one within the limit. -/
inductive RedirectDoes (lib : Library) (policy : TrustPolicy) (o : Opener) :
    List NetEvent × Redirected → Prop
  | nothing {outcome : Redirected} (h : ∀ next, outcome ≠ .followed next) :
      RedirectDoes lib policy o ([], outcome)
  | resolves {hostname : Text} {port : Nat} {ips : List Ip} {outcome : Redirected}
      (hlimit : Int.ofNat (o.redirects + 1) ≤ policy.redirectLimit)
      (hfollowed : ∀ next, outcome = .followed next → ∃ newUrl target ip,
        Followed lib policy o [.resolved hostname port ips] next newUrl target ips ip) :
      RedirectDoes lib policy o ([.resolved hostname port ips], outcome)

theorem enterRedirect_followed {o next : Opener} {r : Response} {hop : Hop} {newUrl : Text}
    {store : Store} (h : enterRedirect o r hop newUrl store = .followed next) :
    newRequest (spacesEscaped newUrl) o.request.hostHeader = .ok next.request ∧
      next.store = store ∧ next.redirects = o.redirects + 1 := by
  unfold enterRedirect at h
  split at h
  · cases h
  · rename_i request hrequest
    split at h
    · cases h
    · split at h
      · cases h
      · split at h
        · cases h
        · cases h
          exact ⟨hrequest, rfl, rfl⟩

theorem redirect_does (lib : Library) (policy : TrustPolicy) (o : Opener) (r : Response)
    (hop : Hop) : RedirectDoes lib policy o (redirect lib policy o r hop) := by
  have hraised : ∀ e next, Redirected.raised e ≠ .followed next := by
    intro e next h
    cases h
  unfold redirect
  split
  · refine .nothing fun next h => ?_
    cases h
  · exact .nothing (hraised _)
  · unfold redirectRequest
    split
    · exact .nothing (hraised _)
    · rename_i hlimit
      split
      · exact .nothing (hraised _)
      · split
        · exact .nothing (hraised _)
        · rename_i target htarget
          have hlimit' : Int.ofNat (o.redirects + 1) ≤ policy.redirectLimit := by
            show ((o.redirects + 1 : Nat) : Int) ≤ _
            omega
          unfold resolveRedirect
          split
          · exact .nothing (hraised _)
          · dsimp only
            split
            · exact .resolves hlimit' fun next h => absurd h (hraised _ next)
            · rename_i ips hips ip hvalid
              refine .resolves hlimit' fun next h => ?_
              obtain ⟨hrequest, hstore, hredirects⟩ := enterRedirect_followed h
              exact ⟨_, target, ip, htarget, rfl, hvalid, hrequest, hstore, hredirects⟩

/-! ## The log -/

theorem Answered.mono {lib : Library} {past past' : List NetEvent} {hostname : Text} {port : Nat}
    {ip : Ip} (h : Answered lib past hostname port ip) (hsub : past ⊆ past') :
    Answered lib past' hostname port ip := by
  obtain ⟨ips, hmem, hrest⟩ := h
  exact ⟨ips, hsub hmem, hrest⟩

variable {lib : Library} {policy : TrustPolicy} {log : List NetEvent}

theorem FetchPinned.resolved (h : FetchPinned lib policy log) (hostname : Text) (port : Nat)
    (ips : List Ip) (hwithin : Within policy (log.countP NetEvent.isResolved + 1)) :
    FetchPinned lib policy (log ++ [.resolved hostname port ips]) := by
  refine ⟨Trace.each_concat h.each fun c hc => ?_, ?_, ?_⟩
  · cases hc
  · rw [List.countP_append]
    exact hwithin
  · rw [List.countP_append]
    exact h.connections

theorem FetchPinned.connected (h : FetchPinned lib policy log) {c : Connection}
    (hc : PinnedAt lib policy log c)
    (hwithin : Within policy (log.countP NetEvent.isConnected + 1)) :
    FetchPinned lib policy (log ++ [.connected c]) := by
  refine ⟨Trace.each_concat h.each fun c' hc' => ?_, ?_, ?_⟩
  · cases hc'
    exact hc
  · rw [List.countP_append]
    exact h.resolutions
  · rw [List.countP_append]
    exact hwithin

/-! ## The invariant of the chain -/

/-- What holds where a request is opened. -/
structure Chained (lib : Library) (policy : TrustPolicy) (first : Text) (log : List NetEvent)
    (o : Opener) : Prop where
  store : ∀ hostname port ip, ((hostname, port), ip) ∈ o.store → Answered lib log hostname port ip
  header : o.request.hostHeader = first
  scheme : o.request.type = http ∨ o.request.type = https →
    o.request.type ∈ policy.allowedSchemes ∧ (policy.requireHttps = true → o.request.type = https)
  limit : Int.ofNat o.redirects ≤ max policy.redirectLimit 0
  resolutions : log.countP NetEvent.isResolved = o.redirects + 1
  connections : log.countP NetEvent.isConnected = o.redirects

variable {first : Text} {o : Opener}

/-- A request for a checked URL has its scheme, or one that is not opened. -/
theorem scheme_of_validated {url text hostHeader : Text} {target : Admitted} {request : Request}
    (htarget : validateTarget lib policy url = .ok target)
    (htext : text = url ∨ text = spacesEscaped url)
    (hrequest : newRequest text hostHeader = .ok request) :
    request.hostHeader = hostHeader ∧ (request.type = http ∨ request.type = https →
      request.type ∈ policy.allowedSchemes ∧
        (policy.requireHttps = true → request.type = https)) := by
  obtain ⟨request', hrequest', hheader, htype⟩ :=
    newRequest_of_validated htarget htext hostHeader
  rw [hrequest] at hrequest'
  cases hrequest'
  have hchecked := validateTarget_ok htarget
  refine ⟨hheader, fun hweb => ?_⟩
  rw [htype hweb]
  exact ⟨hchecked.allowed, hchecked.encrypted⟩

/-- A connection of a request that does not stray is pinned. -/
theorem Chained.pinnedAt (h : Chained lib policy first log o) {c : Connection}
    (hconnect : connect lib o.store o.request = .ok c) (hstray : ¬ Stray lib policy first o c) :
    PinnedAt lib policy log c := by
  have hc := connect_ok hconnect
  obtain ⟨hallowed, hencrypted⟩ := h.scheme hc.web
  have hstraight : ¬ ((∀ port ∈ policy.allowedPorts, c.port ≠ Int.ofNat port) ∨
      hostHeader c.scheme c.urlHost c.urlPort ≠ first) := fun hbad => hstray ⟨hconnect, hbad⟩
  rw [not_or, not_not] at hstraight
  refine ⟨?_, ?_, ?_, ?_, ?_⟩
  · exact h.store _ _ _ (Store.mem_of_get? hc.ip)
  · rw [hc.scheme]
    exact hallowed
  · rw [hc.scheme]
    exact hencrypted
  · simpa using hstraight.1
  · rw [hc.hostHeader, h.header, hstraight.2]

theorem Chained.followed (h : Chained lib policy first log o) {c : Connection}
    {hostname : Text} {port : Nat} {ips : List Ip} {next : Opener} {newUrl : Text}
    {target : Admitted} {ip : Ip}
    (hlimit : Int.ofNat (o.redirects + 1) ≤ policy.redirectLimit)
    (hnext : Followed lib policy o [.resolved hostname port ips] next newUrl target ips ip) :
    Chained lib policy first (log ++ [.connected c] ++ [.resolved hostname port ips]) next := by
  obtain ⟨hheader, hscheme⟩ := scheme_of_validated hnext.admitted (Or.inr rfl) hnext.request
  have hpast : log ⊆ log ++ [.connected c] ++ [.resolved hostname port ips] := by
    intro event hevent
    exact List.mem_append_left _ (List.mem_append_left _ hevent)
  refine ⟨?_, ?_, hscheme, ?_, ?_, ?_⟩
  · intro hostname' port' ip' hmem
    rw [hnext.store, List.mem_cons] at hmem
    cases hmem with
    | inl hnew =>
      cases hnew
      obtain ⟨hip, hvalid⟩ := firstValid_ok hnext.valid
      rw [hnext.events]
      exact ⟨ips, List.mem_append_right _ List.mem_cons_self, hip, hvalid⟩
    | inr hold => exact (h.store _ _ _ hold).mono hpast
  · rw [hheader, h.header]
  · rw [hnext.redirects]
    exact le_trans hlimit (le_max_left _ _)
  · rw [List.countP_append, List.countP_append, h.resolutions, hnext.redirects]
    rfl
  · rw [List.countP_append, List.countP_append, h.connections, hnext.redirects]
    rfl

theorem Chained.resolution_within (h : Chained lib policy first log o)
    (hlimit : Int.ofNat (o.redirects + 1) ≤ policy.redirectLimit) :
    Within policy (log.countP NetEvent.isResolved + 1) := by
  rw [h.resolutions]
  have hmax : policy.redirectLimit ≤ max policy.redirectLimit 0 := le_max_left _ _
  have hcast : Int.ofNat (o.redirects + 1 + 1) = Int.ofNat (o.redirects + 1) + 1 := rfl
  show Int.ofNat (o.redirects + 1 + 1) ≤ _
  omega

theorem Chained.connection_within (h : Chained lib policy first log o) :
    Within policy (log.countP NetEvent.isConnected + 1) := by
  rw [h.connections]
  have hlimit := h.limit
  have hcast : Int.ofNat (o.redirects + 1) = Int.ofNat o.redirects + 1 := rfl
  show Int.ofNat (o.redirects + 1) ≤ _
  omega

/-- What a redirect adds to the log. -/
theorem Chained.redirected (h : Chained lib policy first log o) {c : Connection}
    {did : List NetEvent × Redirected} (hdoes : RedirectDoes lib policy o did)
    (hpinned : FetchPinned lib policy (log ++ [.connected c])) :
    FetchPinned lib policy (log ++ [.connected c] ++ did.1) ∧
      ∀ next, did.2 = .followed next →
        Chained lib policy first (log ++ [.connected c] ++ did.1) next := by
  cases hdoes with
  | nothing hnot =>
    rw [List.append_nil]
    exact ⟨hpinned, fun next hnext => absurd hnext (hnot next)⟩
  | resolves hlimit hfollowed =>
    refine ⟨hpinned.resolved _ _ _ ?_, fun next hnext => ?_⟩
    · rw [List.countP_append]
      exact h.resolution_within hlimit
    · obtain ⟨newUrl, target, ip, hnext⟩ := hfollowed next hnext
      exact h.followed hlimit hnext

/-! ## A chain without stray requests -/

/-- Along the requests: each connection is pinned, and the redirect behind it keeps the
invariant. -/
theorem openRequest_pinned {url : Text} (hops : List Hop) {o : Opener}
    (hchained : Chained lib policy first log o) (hpinned : FetchPinned lib policy log)
    (hstraight : ¬ OpenStrays lib policy first o hops) :
    FetchPinned lib policy (log ++ (openRequest lib policy url o hops).1) := by
  induction hops generalizing log o with
  | nil =>
    rw [openRequest, List.append_nil]
    exact hpinned
  | cons hop rest ih =>
    rw [openRequest]
    split
    · rw [List.append_nil]
      exact hpinned
    · rename_i c hconnect
      have hc := hchained.pinnedAt hconnect fun hstray => hstraight (.request hstray)
      have hconnected := hpinned.connected hc hchained.connection_within
      split
      · exact hconnected
      · rename_i r hexchange
        split
        · exact hconnected
        · rename_i hsuccess
          rw [Bool.not_eq_true] at hsuccess
          split
          · rename_i hredirect
            obtain ⟨hevents, hnext⟩ := hchained.redirected
              (redirect_does lib policy o r (rest.head?.getD silence)) hconnected
            split
            · rename_i events hrefused
              rw [hrefused, List.append_assoc] at hevents
              exact hevents
            · rename_i events e hraised
              rw [hraised, List.append_assoc] at hevents
              exact hevents
            · rename_i events next hfollowed
              rw [hfollowed] at hevents hnext
              have hlater := ih (hnext next rfl) hevents fun hstrays => hstraight
                (.onward hconnect hexchange hsuccess hredirect (by rw [hfollowed]) hstrays)
              rw [List.append_assoc, List.append_assoc] at hlater
              exact hlater
          · exact hconnected

/-! ## A chain with one -/

theorem newRequest_hostHeader {url hostHeader : Text} {request : Request}
    (h : newRequest url hostHeader = .ok request) : request.hostHeader = hostHeader := by
  unfold newRequest at h
  dsimp only at h
  split at h
  · cases h
  · cases h
    rfl

theorem followed_hostHeader {r : Response} {hop : Hop} {next : Opener}
    (h : (redirect lib policy o r hop).2 = .followed next) :
    next.request.hostHeader = o.request.hostHeader := by
  have hdoes := redirect_does lib policy o r hop
  revert h hdoes
  generalize redirect lib policy o r hop = did
  intro h hdoes
  cases hdoes with
  | nothing hnot => exact absurd h (hnot next)
  | resolves hlimit hfollowed =>
    obtain ⟨newUrl, target, ip, hnext⟩ := hfollowed next h
    exact newRequest_hostHeader hnext.request

/-- Along a chain with a stray request: the connection of that request, with the header of the
first one. -/
theorem stray_connection {url : Text} {hops : List Hop} (h : OpenStrays lib policy first o hops)
    (hheader : o.request.hostHeader = first) :
    ∃ c, .connected c ∈ (openRequest lib policy url o hops).1 ∧ c.hostHeader = first ∧
      ((∀ port ∈ policy.allowedPorts, c.port ≠ Int.ofNat port) ∨
        hostHeader c.scheme c.urlHost c.urlPort ≠ first) := by
  induction h with
  | @request o hop rest c hstray =>
    refine ⟨c, ?_, ?_, hstray.2⟩
    · -- whatever comes of the request, its connection is the first event
      rw [openRequest, hstray.1]
      dsimp only
      repeat' split
      all_goals exact List.mem_cons_self
    · rw [(connect_ok hstray.1).hostHeader]
      exact hheader
  | @onward o next hop rest c r hconnect hexchange hsuccess hredirect hfollowed _ ih =>
    obtain ⟨c', hmem, hc'⟩ := ih ((followed_hostHeader hfollowed).trans hheader)
    refine ⟨c', ?_, hc'⟩
    rw [openRequest, hconnect]
    dsimp only
    rw [hexchange]
    dsimp only
    rw [hsuccess, if_neg Bool.false_ne_true, if_pos hredirect]
    split
    · rename_i hrefused
      rw [hrefused] at hfollowed
      cases hfollowed
    · rename_i hraised
      rw [hraised] at hfollowed
      cases hfollowed
    · rename_i events next' hagain
      rw [hagain] at hfollowed
      cases hfollowed
      exact List.mem_cons_of_mem _ (List.mem_append_right _ hmem)

/-! ## The fetch -/

theorem fetchPinned_nil : FetchPinned lib policy [] := by
  refine ⟨Trace.each_nil, ?_, ?_⟩
  · show (0 : Int) ≤ max policy.redirectLimit 0 + 1
    omega
  · show (0 : Int) ≤ max policy.redirectLimit 0 + 1
    omega

theorem fetchPinned_resolved (hostname : Text) (port : Nat) (ips : List Ip) :
    FetchPinned lib policy [.resolved hostname port ips] := by
  apply fetchPinned_nil.resolved hostname port ips
  show (1 : Int) ≤ max policy.redirectLimit 0 + 1
  omega

theorem chained_first {url : Text} {target : Admitted} {ips : List Ip} {ip : Ip} {request : Request}
    (htarget : validateTarget lib policy url = .ok target) (hip : firstValid lib ips = .ok ip)
    (hrequest : newRequest url (hostHeader target.scheme target.hostname target.port) =
      .ok request) :
    Chained lib policy (hostHeader target.scheme target.hostname target.port)
      [.resolved target.hostname target.port ips]
      ⟨request, [((target.hostname, target.port), ip)], 0, []⟩ := by
  obtain ⟨hheader, hscheme⟩ := scheme_of_validated htarget (Or.inl rfl) hrequest
  refine ⟨?_, hheader, hscheme, le_max_right _ _, rfl, rfl⟩
  intro hostname port ip' hmem
  rw [List.mem_singleton] at hmem
  cases hmem
  obtain ⟨hmem, hvalid⟩ := firstValid_ok hip
  exact ⟨ips, List.mem_cons_self, hmem, hvalid⟩

/-- The connections of a fetch are pinned exactly where no request of the chain strays. -/
theorem fetch_pinned (lib : Library) (policy : TrustPolicy) (url : Text) (hops : List Hop) :
    FetchPinned lib policy (fetch lib policy url hops).1 ↔ ¬ FetchStrays lib policy url hops := by
  constructor
  · rintro hpinned ⟨htarget, hips, hip, hrequest, hlate, hstrays⟩
    obtain ⟨c, hmem, hheader, hastray⟩ :=
      stray_connection hstrays (newRequest_hostHeader hrequest)
    have hlog : .connected c ∈ (fetch lib policy url hops).1 := by
      unfold fetch
      rw [htarget]
      dsimp only
      rw [hips]
      dsimp only
      rw [hip]
      dsimp only
      unfold makeRequest
      rw [hrequest]
      dsimp only
      rw [hlate, if_neg Bool.false_ne_true]
      exact List.mem_cons_of_mem _ hmem
    obtain ⟨past, hpast⟩ := hpinned.each.mem hlog
    have hc := hpast c rfl
    cases hastray with
    | inl hport =>
      obtain ⟨port, hallowed, hsame⟩ := hc.port
      exact hport port hallowed hsame
    | inr hhost => exact hhost (hc.host.symm.trans hheader)
  · intro hstraight
    unfold fetch
    split
    · exact fetchPinned_nil
    · rename_i target htarget
      split
      · exact fetchPinned_nil
      · rename_i ips hips
        dsimp only
        split
        · exact fetchPinned_resolved _ _ _
        · rename_i ip hip
          unfold makeRequest
          split
          · exact fetchPinned_resolved _ _ _
          · rename_i request hrequest
            split
            · exact fetchPinned_resolved _ _ _
            · rename_i hlate
              rw [Bool.not_eq_true] at hlate
              exact openRequest_pinned hops (chained_first htarget hip hrequest)
                (fetchPinned_resolved _ _ _) fun hstrays =>
                  hstraight (.opens htarget hips hip hrequest hlate hstrays)

/-! ## A redirect to another host -/

/-- Two hops, each with a public address; the first one leads to the second. -/
def movedHops (location : Text) : List Hop :=
  let dns : DnsOutcome := .answered ["93.184.216.34".toList]
  let moved : Response := ⟨302, [("Location".toList, location)], [], none, false, false⟩
  [⟨dns, false, false, .responded moved⟩, ⟨dns, false, false, .raised .osError⟩]

/-- The second request names the first host. -/
theorem redirected_host_is_first :
    ¬ FetchPinned asciiLibrary httpsPolicy (fetch asciiLibrary httpsPolicy
      "https://a.example/card.json".toList (movedHops "https://b.example/".toList)).1 := by
  intro h
  have hmem : .connected ⟨.v4 0x5db8d822#32, 443, https, "b.example".toList, 443,
      "a.example".toList⟩ ∈ (fetch asciiLibrary httpsPolicy "https://a.example/card.json".toList
        (movedHops "https://b.example/".toList)).1 := by
    decide +kernel
  obtain ⟨past, hpast⟩ := h.each.mem hmem
  have hhost := (hpast _ rfl).host
  revert hhost
  decide +kernel

end KiwiCatalog.Discovery.Fetcher
