import KiwiCatalog.Binding.StoreProperties
import KiwiCatalog.Lib.Url

/-!
# Binding requests — first binds that wait for the merchant

A runtime asks for a binding, and the merchant confirms or rejects.  Each operation writes before it
reads the requests, so it runs under SQLite's write lock and is one step.  Request ids are texts as
they come in the path.
-/

set_option autoImplicit false

namespace KiwiCatalog.Binding.Requests

open Transition
open Url (Text strip)

/-! ## Rows -/

inductive RequestStatus
  | pending
  | confirmed
  | rejected
  | expired
  deriving DecidableEq, Repr

/-- A row of `runtime_binding_requests`. -/
structure BindingRequest where
  id : Text
  agentId : String
  merchantId : String
  decl : Declaration
  generation : Nat
  nonce : String
  status : RequestStatus
  expiresAt : Nat
  deriving DecidableEq, Repr

inductive RequestError
  | tooManyPending
  -- the primary key
  | integrity
  | notFound
  | decided (status : RequestStatus)
  | emptyNote
  | binding (e : BindError)
  deriving DecidableEq, Repr

namespace BindingRequest

def setStatus (status : RequestStatus) (r : BindingRequest) : BindingRequest :=
  { r with status := status }

def isPending (agentId : String) (r : BindingRequest) : Bool :=
  r.agentId = agentId && r.status = .pending

end BindingRequest

/-! ## Operations -/

def expireStale (now : Nat) (agentId : String) (requests : List BindingRequest) :
    List BindingRequest :=
  Table.updateWhere (fun r => r.isPending agentId && r.expiresAt ≤ now)
    (BindingRequest.setStatus .expired) requests

def pendingOf (agentId : String) (requests : List BindingRequest) : List BindingRequest :=
  requests.filter fun r => r.isPending agentId

/-- `create_request`, for a row that is pending. -/
def createRequest (maxPending now : Nat) (row : BindingRequest) (requests : List BindingRequest) :
    Except RequestError (List BindingRequest) :=
  let requests := expireStale now row.agentId requests
  if maxPending ≤ (pendingOf row.agentId requests).length then .error .tooManyPending
  else
    match Table.insert? BindingRequest.id row requests with
    | none => .error .integrity
    | some requests => .ok requests

/-- `_load_pending_request`, after the expiry. -/
def loadPending (agentId : String) (requestId : Text) (requests : List BindingRequest) :
    Except RequestError BindingRequest :=
  match requests.find? fun r => r.id = strip requestId && r.agentId = agentId with
  | none => .error .notFound
  | some r =>
    if r.status = .expired then .error .notFound
    else if r.status = .pending then .ok r
    else .error (.decided r.status)

/-- The update of a decision compares with the id as it came. -/
def setDecided (status : RequestStatus) (requestId : Text) (requests : List BindingRequest) :
    List BindingRequest :=
  Table.updateWhere (fun r => decide (r.id = requestId)) (BindingRequest.setStatus status) requests

/-- The other pending requests of the agent go. -/
def expirePending (agentId : String) (requests : List BindingRequest) : List BindingRequest :=
  Table.updateWhere (BindingRequest.isPending agentId) (BindingRequest.setStatus .expired) requests

/-- `confirm_request`: the request that it has loaded, the bindings and the requests after it. -/
def confirmRequest (now : Nat) (agentId merchantId : String) (requestId : Text)
    (bindings : List RuntimeBinding) (requests : List BindingRequest) :
    Except RequestError (BindingRequest × List RuntimeBinding × List BindingRequest) :=
  let requests := expireStale now agentId requests
  match loadPending agentId requestId requests with
  | .error e => .error e
  | .ok req =>
    match confirmBinding bindings agentId merchantId req.decl with
    | .error e => .error (.binding e)
    | .ok bindings =>
      .ok (req, bindings, expirePending agentId (setDecided .confirmed requestId requests))

/-- `reject_request`. -/
def rejectRequest (now : Nat) (agentId : String) (requestId note : Text)
    (requests : List BindingRequest) : Except RequestError (BindingRequest × List BindingRequest) :=
  if strip note = [] then .error .emptyNote
  else
    let requests := expireStale now agentId requests
    match loadPending agentId requestId requests with
    | .error e => .error e
    | .ok req => .ok (req, setDecided .rejected requestId requests)

/-! ## The system -/

inductive Decision
  | confirmed (requestId : Text)
  | rejected (requestId : Text)
  deriving DecidableEq, Repr

def Decision.requestId : Decision → Text
  | confirmed requestId => requestId
  | rejected requestId => requestId

structure System where
  clock : Nat
  bindings : List RuntimeBinding
  requests : List BindingRequest
  -- not stored: the decisions that reported success, with the request that each has loaded
  decisions : List Decision

inductive Event
  | confirms (agentId : String) (requestId : Text)
  | rejects (agentId : String) (requestId : Text)
  | other

inductive Step (maxPending : Nat) : Event → System → System → Prop
  | ticks {s : System} (now : Nat) (h : s.clock ≤ now) :
      Step maxPending .other s { s with clock := now }
  -- a list of the pending requests, and a decision that fails: its handler commits even so
  | expires {s : System} (agentId : String) :
      Step maxPending .other s { s with requests := expireStale s.clock agentId s.requests }
  -- generated ids have no space at their ends
  | creates {s : System} {row : BindingRequest} {requests : List BindingRequest}
      (hid : strip row.id = row.id) (hstatus : row.status = .pending)
      (h : createRequest maxPending s.clock row s.requests = .ok requests) :
      Step maxPending .other s { s with requests := requests }
  | confirms {s : System} {agentId merchantId : String} {requestId : Text} {req : BindingRequest}
      {bindings : List RuntimeBinding} {requests : List BindingRequest}
      (h : confirmRequest s.clock agentId merchantId requestId s.bindings s.requests =
        .ok (req, bindings, requests)) :
      Step maxPending (.confirms agentId requestId) s
        { s with
          bindings := bindings
          requests := requests
          decisions := .confirmed req.id :: s.decisions }
  -- what follows these writes raises, and the handler commits them
  | confirmFails {s : System} {agentId merchantId : String} {requestId : Text}
      {req : BindingRequest} {bindings : List RuntimeBinding} {requests : List BindingRequest}
      (h : confirmRequest s.clock agentId merchantId requestId s.bindings s.requests =
        .ok (req, bindings, requests)) :
      Step maxPending .other s { s with bindings := bindings, requests := requests }
  | rejects {s : System} {agentId : String} {requestId note : Text} {req : BindingRequest}
      {requests : List BindingRequest}
      (h : rejectRequest s.clock agentId requestId note s.requests = .ok (req, requests)) :
      Step maxPending (.rejects agentId requestId) s
        { s with requests := requests, decisions := .rejected req.id :: s.decisions }
  -- the other writes of the bindings
  | binds {s : System} {agentId merchantId : String} {decl : Declaration}
      {existing : Option RuntimeBinding} {bindings : List RuntimeBinding}
      (hread : ReadEarlier s.bindings agentId existing)
      (h : insertActiveBinding s.bindings agentId merchantId decl existing = .ok bindings) :
      Step maxPending .other s { s with bindings := bindings }
  | enrolls {s : System} {agentId merchantId : String} {decl : Declaration} {expectedVersion : Nat}
      {bindings : List RuntimeBinding}
      (h : enrollmentBinding s.bindings agentId merchantId decl expectedVersion = .ok bindings) :
      Step maxPending .other s { s with bindings := bindings }
  | revokes {s : System} {agentId bindingId : String} {bindings : List RuntimeBinding}
      (h : revokeRuntimeBinding s.bindings agentId bindingId = .ok bindings) :
      Step maxPending .other s { s with bindings := bindings }

def Started (s : System) : Prop := s.bindings = [] ∧ s.requests = [] ∧ s.decisions = []

/-! ## The contract -/

/-- The requests that can still be confirmed. -/
def unexpired (s : System) (agentId : String) : List BindingRequest :=
  (pendingOf agentId s.requests).filter fun r => s.clock < r.expiresAt

structure Flow (maxPending : Nat) (s : System) : Prop where
  bounded : ∀ agentId, (unexpired s agentId).length ≤ maxPending
  -- no request has two decisions
  once : (s.decisions.map Decision.requestId).Nodup

/-- The one active binding of the agent is what the request asks for. -/
def BoundBy (bindings : List RuntimeBinding) (agentId : String) (req : BindingRequest) : Prop :=
  ∃ binding ∈ bindings, binding.catalogAgentId = agentId ∧ binding.isActive = true ∧
    binding.keyId = req.decl.keyId ∧ binding.keyThumbprint = req.decl.keyThumbprint ∧
    binding.runtimeOrigin = req.decl.runtimeOrigin ∧ binding.a2aEndpoint = req.decl.a2aEndpoint ∧
    ∀ r ∈ bindings, r.catalogAgentId = agentId → r.isActive = true → r = binding

/-- What a step does to the requests that were decided or expired, and what a confirmation
leaves. -/
structure StepFlow (event : Event) (s s' : System) : Prop where
  final : ∀ r ∈ s.requests, r.status ≠ .pending →
    r ∈ s'.requests ∧ ∀ d ∈ s'.decisions, d.requestId = r.id → d ∈ s.decisions
  confirmed : ∀ agentId requestId, event = .confirms agentId requestId →
    (∃ req ∈ s.requests, req.id = strip requestId ∧ req.agentId = agentId ∧
      BoundBy s'.bindings agentId req) ∧ pendingOf agentId s'.requests = []

/-- A rejection has the id without space at its ends. -/
def Undisturbed : Event → Prop
  | .rejects _ requestId => strip requestId = requestId
  | _ => True

def AnyStep (maxPending : Nat) (s s' : System) : Prop := ∃ event, Step maxPending event s s'

def UndisturbedStep (maxPending : Nat) (s s' : System) : Prop :=
  ∃ event, Undisturbed event ∧ Step maxPending event s s'

/-! ## Settling requests -/

/-- The row as it was, or one that was pending and no longer is. -/
def Settled (r r' : BindingRequest) : Prop :=
  r' = r ∨ r.status = .pending ∧ ∃ status, status ≠ .pending ∧ r' = r.setStatus status

/-- Every row settles or stays. -/
def Settles (requests requests' : List BindingRequest) : Prop :=
  List.Forall₂ Settled requests requests'

theorem Settled.trans {a b c : BindingRequest} (hab : Settled a b) (hbc : Settled b c) :
    Settled a c := by
  rcases hab with rfl | ⟨hpending, status, hstatus, rfl⟩
  · exact hbc
  · rcases hbc with rfl | ⟨hagain, -⟩
    · exact Or.inr ⟨hpending, status, hstatus, rfl⟩
    · exact absurd hagain hstatus

theorem Settled.id_eq {r r' : BindingRequest} (h : Settled r r') :
    r'.id = r.id ∧ r'.agentId = r.agentId ∧ (r'.status = .pending → r' = r) := by
  rcases h with rfl | ⟨-, status, hstatus, rfl⟩
  · exact ⟨rfl, rfl, fun _ => rfl⟩
  · exact ⟨rfl, rfl, fun hpending => absurd hpending hstatus⟩

theorem Settles.trans {a b c : List BindingRequest} (hab : Settles a b) (hbc : Settles b c) :
    Settles a c := by
  induction hab generalizing c with
  | nil => exact hbc
  | cons hhead _ ih =>
    cases hbc with
    | cons hhead' htail' => exact List.Forall₂.cons (hhead.trans hhead') (ih htail')

/-- An update of pending rows. -/
theorem settles_updateWhere {p : BindingRequest → Bool} {status : RequestStatus}
    (hstatus : status ≠ .pending) {requests : List BindingRequest}
    (hp : ∀ r ∈ requests, p r = true → r.status = .pending) :
    Settles requests (Table.updateWhere p (BindingRequest.setStatus status) requests) := by
  unfold Settles Table.updateWhere
  rw [List.forall₂_map_right_iff, List.forall₂_same]
  intro r hr
  by_cases hpr : p r = true
  · rw [if_pos hpr]
    exact Or.inr ⟨hp r hr hpr, status, hstatus, rfl⟩
  · rw [if_neg hpr]
    exact Or.inl rfl

section Settles

variable {requests requests' : List BindingRequest}

theorem Settles.ids (h : Settles requests requests') :
    requests'.map BindingRequest.id = requests.map BindingRequest.id := by
  induction h with
  | nil => rfl
  | cons hhead _ ih => rw [List.map_cons, List.map_cons, ih, hhead.id_eq.1]

theorem Settles.before (h : Settles requests requests') {r' : BindingRequest} (hr' : r' ∈ requests') :
    ∃ r ∈ requests, Settled r r' := by
  induction h with
  | nil => cases hr'
  | @cons r r'' rest rest' hhead _ ih =>
    rcases List.mem_cons.mp hr' with rfl | hmem
    · exact ⟨r, List.mem_cons_self, hhead⟩
    · obtain ⟨x, hx, hsettled⟩ := ih hmem
      exact ⟨x, List.mem_cons_of_mem _ hx, hsettled⟩

theorem Settles.after (h : Settles requests requests') {r : BindingRequest} (hr : r ∈ requests) :
    ∃ r' ∈ requests', Settled r r' := by
  induction h with
  | nil => cases hr
  | @cons x x' rest rest' hhead _ ih =>
    rcases List.mem_cons.mp hr with rfl | hmem
    · exact ⟨x', List.mem_cons_self, hhead⟩
    · obtain ⟨r', hr', hsettled⟩ := ih hmem
      exact ⟨r', List.mem_cons_of_mem _ hr', hsettled⟩

/-- A row that is not pending stays. -/
theorem Settles.keeps (h : Settles requests requests') {r : BindingRequest} (hr : r ∈ requests)
    (hstatus : r.status ≠ .pending) : r ∈ requests' := by
  obtain ⟨r', hr', hsettled⟩ := h.after hr
  rcases hsettled with rfl | ⟨hpending, -⟩
  · exact hr'
  · exact absurd hpending hstatus

/-- A row that is pending was there before. -/
theorem Settles.pending (h : Settles requests requests') {r : BindingRequest} (hr : r ∈ requests')
    (hstatus : r.status = .pending) : r ∈ requests := by
  obtain ⟨r₀, hr₀, hsettled⟩ := h.before hr
  rw [hsettled.id_eq.2.2 hstatus]
  exact hr₀

theorem Settles.keys (h : Settles requests requests')
    (hunique : Table.KeyUnique BindingRequest.id requests)
    (hstripped : ∀ r ∈ requests, strip r.id = r.id) :
    Table.KeyUnique BindingRequest.id requests' ∧ ∀ r ∈ requests', strip r.id = r.id := by
  unfold Table.KeyUnique at hunique ⊢
  refine ⟨h.ids ▸ hunique, fun r hr => ?_⟩
  obtain ⟨r₀, hr₀, hsettled⟩ := h.before hr
  rw [hsettled.id_eq.1]
  exact hstripped r₀ hr₀

theorem Settles.pendingOf_length (h : Settles requests requests') (agentId : String) :
    (pendingOf agentId requests').length ≤ (pendingOf agentId requests).length := by
  induction h with
  | nil => exact Nat.le_refl _
  | @cons r r' rest rest' hhead _ ih =>
    unfold pendingOf at ih ⊢
    rw [List.filter_cons, List.filter_cons]
    by_cases hpending : r'.isPending agentId = true
    · have hstatus : r'.status = .pending := by
        rw [BindingRequest.isPending, Bool.and_eq_true, decide_eq_true_eq, decide_eq_true_eq]
          at hpending
        exact hpending.2
      have hsame : r' = r := hhead.id_eq.2.2 hstatus
      subst hsame
      rw [if_pos hpending, if_pos hpending, List.length_cons, List.length_cons]
      omega
    · rw [if_neg hpending]
      split
      · rw [List.length_cons]
        omega
      · exact ih

end Settles

/-! ## What an operation does to the requests -/

theorem isPending_true {agentId : String} {r : BindingRequest} (h : r.isPending agentId = true) :
    r.agentId = agentId ∧ r.status = .pending := by
  rw [BindingRequest.isPending, Bool.and_eq_true, decide_eq_true_eq, decide_eq_true_eq] at h
  exact h

theorem settles_expireStale (now : Nat) (agentId : String) (requests : List BindingRequest) :
    Settles requests (expireStale now agentId requests) := by
  apply settles_updateWhere (by decide)
  intro r _ hr
  rw [Bool.and_eq_true] at hr
  exact (isPending_true hr.1).2

theorem settles_expirePending (agentId : String) (requests : List BindingRequest) :
    Settles requests (expirePending agentId requests) := by
  apply settles_updateWhere (by decide)
  exact fun r _ hr => (isPending_true hr).2

theorem pendingOf_expirePending (agentId : String) (requests : List BindingRequest) :
    pendingOf agentId (expirePending agentId requests) = [] := by
  unfold pendingOf
  rw [List.filter_eq_nil_iff]
  intro r hr hpending
  obtain ⟨r₀, -, rfl⟩ := Table.mem_updateWhere.mp hr
  by_cases hr₀ : r₀.isPending agentId = true
  · rw [if_pos hr₀] at hpending
    have hstatus := (isPending_true hpending).2
    cases hstatus
  · rw [if_neg hr₀] at hpending
    exact hr₀ hpending

theorem loadPending_ok {agentId : String} {requestId : Text} {requests : List BindingRequest}
    {req : BindingRequest} (h : loadPending agentId requestId requests = .ok req) :
    req ∈ requests ∧ req.id = strip requestId ∧ req.agentId = agentId ∧ req.status = .pending := by
  unfold loadPending at h
  split at h
  · cases h
  · rename_i r hfind
    split at h
    · cases h
    · split at h
      · rename_i hpending
        cases h
        have hfound := List.find?_some hfind
        rw [Bool.and_eq_true, decide_eq_true_eq, decide_eq_true_eq] at hfound
        exact ⟨List.mem_of_find?_eq_some hfind, hfound.1, hfound.2, hpending⟩
      · cases h

/-- The rows that the update of a decision reaches: the loaded one, or none where the id came with
space at its ends. -/
theorem settles_setDecided {status : RequestStatus} (hstatus : status ≠ .pending)
    {requestId : Text} {requests : List BindingRequest} {req : BindingRequest}
    (hunique : Table.KeyUnique BindingRequest.id requests)
    (hstripped : ∀ r ∈ requests, strip r.id = r.id) (hreq : req ∈ requests)
    (hid : req.id = strip requestId) (hpending : req.status = .pending) :
    Settles requests (setDecided status requestId requests) := by
  apply settles_updateWhere hstatus
  intro r hr hsame
  rw [decide_eq_true_eq] at hsame
  have hrid : r.id = req.id := by rw [hid, ← hsame, hstripped r hr]
  rw [Table.eq_of_key_eq hunique hr hreq hrid]
  exact hpending

/-- What a confirmation does: the loaded request was pending, and afterwards the agent has no
pending one. -/
theorem confirmRequest_ok {now : Nat} {agentId merchantId : String} {requestId : Text}
    {bindings bindings' : List RuntimeBinding} {requests requests' : List BindingRequest}
    {req : BindingRequest} (hunique : Table.KeyUnique BindingRequest.id requests)
    (hstripped : ∀ r ∈ requests, strip r.id = r.id)
    (h : confirmRequest now agentId merchantId requestId bindings requests =
      .ok (req, bindings', requests')) :
    req ∈ requests ∧ req.id = strip requestId ∧ req.agentId = agentId ∧ req.status = .pending ∧
      Settles requests requests' ∧ pendingOf agentId requests' = [] ∧
      confirmBinding bindings agentId merchantId req.decl = .ok bindings' := by
  unfold confirmRequest at h
  dsimp only at h
  split at h
  · cases h
  · rename_i loaded hload
    split at h
    · cases h
    · rename_i written hbinding
      cases h
      obtain ⟨hmem, hid, hagent, hpending⟩ := loadPending_ok hload
      have hexpired := settles_expireStale now agentId requests
      obtain ⟨hunique', hstripped'⟩ := hexpired.keys hunique hstripped
      have hdecided : Settles (expireStale now agentId requests)
          (setDecided .confirmed requestId (expireStale now agentId requests)) :=
        settles_setDecided (by decide) hunique' hstripped' hmem hid hpending
      exact ⟨hexpired.pending hmem hpending, hid, hagent, hpending,
        hexpired.trans (hdecided.trans (settles_expirePending agentId _)),
        pendingOf_expirePending agentId _, hbinding⟩

/-- What a rejection does, where its id has no space at its ends. -/
theorem rejectRequest_ok {now : Nat} {agentId : String} {requestId note : Text}
    {requests requests' : List BindingRequest} {req : BindingRequest}
    (hunique : Table.KeyUnique BindingRequest.id requests)
    (hstripped : ∀ r ∈ requests, strip r.id = r.id) (hclean : strip requestId = requestId)
    (h : rejectRequest now agentId requestId note requests = .ok (req, requests')) :
    req ∈ requests ∧ req.status = .pending ∧ Settles requests requests' ∧
      ∀ r ∈ requests', r.id = req.id → r.status ≠ .pending := by
  unfold rejectRequest at h
  split at h
  · cases h
  · dsimp only at h
    split at h
    · cases h
    · rename_i loaded hload
      cases h
      obtain ⟨hmem, hid, -, hpending⟩ := loadPending_ok hload
      have hexpired := settles_expireStale now agentId requests
      obtain ⟨hunique', hstripped'⟩ := hexpired.keys hunique hstripped
      have hdecided : Settles (expireStale now agentId requests)
          (setDecided .rejected requestId (expireStale now agentId requests)) :=
        settles_setDecided (by decide) hunique' hstripped' hmem hid hpending
      refine ⟨hexpired.pending hmem hpending, hpending, hexpired.trans hdecided, ?_⟩
      intro r hr hsame
      rw [hid, hclean] at hsame
      obtain ⟨r₀, -, rfl⟩ := Table.mem_updateWhere.mp hr
      by_cases hr₀ : r₀.id = requestId
      · rw [if_pos (decide_eq_true hr₀)]
        exact fun hrejected => by cases hrejected
      · rw [if_neg (by simpa using hr₀)] at hsame
        exact absurd hsame hr₀

/-- The new binding is active, and no other one of the agent is. -/
theorem boundBy_confirm {bindings bindings' : List RuntimeBinding} {agentId merchantId : String}
    {req : BindingRequest} (h : StoreInv bindings)
    (hok : confirmBinding bindings agentId merchantId req.decl = .ok bindings') :
    BoundBy bindings' agentId req := by
  have hinv := storeInv_confirm h hok
  obtain ⟨hinserted, hstore⟩ := supersede_ok hok
  let version := maxVersion bindings agentId + 1
  let row := newRow agentId merchantId (bindId agentId version) req.decl version
  have hrow : row ∈ bindings ++ [row] := List.mem_append_right _ (List.mem_singleton_self row)
  have hmem : row ∈ bindings' := by
    rw [hstore]
    cases hold : (rowsOf bindings agentId).find? RuntimeBinding.isActive with
    | none => exact hrow
    | some old =>
      have hmem := (mem_rowsOf.mp (List.mem_of_find?_eq_some hold)).1
      apply Table.mem_updateWhere_of_not hrow
      exact decide_eq_false fun hid => hinserted.idFree old hmem hid.symm
  refine ⟨row, hmem, rfl, rfl, rfl, rfl, rfl, rfl, ?_⟩
  intro r hr hagent hactive
  exact (storeContract_of_inv hinv).oneActive r hr row hmem hagent hactive rfl

/-! ## The invariant -/

structure FlowInv (maxPending : Nat) (s : System) : Prop where
  bindings : StoreInv s.bindings
  unique : Table.KeyUnique BindingRequest.id s.requests
  stripped : ∀ r ∈ s.requests, strip r.id = r.id
  bounded : ∀ agentId, (pendingOf agentId s.requests).length ≤ maxPending
  decided : ∀ d ∈ s.decisions, ∃ r ∈ s.requests, r.id = d.requestId ∧ r.status ≠ .pending
  once : (s.decisions.map Decision.requestId).Nodup

theorem FlowInv.flow {maxPending : Nat} {s : System} (h : FlowInv maxPending s) :
    Flow maxPending s where
  bounded agentId := Nat.le_trans (List.length_filter_le _ _) (h.bounded agentId)
  once := h.once

theorem FlowInv.setBindings {maxPending : Nat} {s : System} (h : FlowInv maxPending s)
    {bindings : List RuntimeBinding} (hbindings : StoreInv bindings) :
    FlowInv maxPending { s with bindings := bindings } :=
  ⟨hbindings, h.unique, h.stripped, h.bounded, h.decided, h.once⟩

/-- Requests that settle. -/
theorem FlowInv.settles {maxPending : Nat} {s : System} (h : FlowInv maxPending s)
    {requests : List BindingRequest} (hsettles : Settles s.requests requests) :
    FlowInv maxPending { s with requests := requests } := by
  obtain ⟨hunique, hstripped⟩ := hsettles.keys h.unique h.stripped
  refine ⟨h.bindings, hunique, hstripped, ?_, ?_, h.once⟩
  · exact fun agentId => Nat.le_trans (hsettles.pendingOf_length agentId) (h.bounded agentId)
  · intro d hd
    obtain ⟨r, hr, hid, hstatus⟩ := h.decided d hd
    exact ⟨r, hsettles.keeps hr hstatus, hid, hstatus⟩

/-- A decision on a request that was pending and is not now. -/
theorem FlowInv.decide {maxPending : Nat} {s : System} (h : FlowInv maxPending s) {d : Decision}
    {r : BindingRequest} (hr : r ∈ s.requests) (hid : r.id = d.requestId)
    (hstatus : r.status ≠ .pending) (hnew : ∀ x ∈ s.decisions, x.requestId ≠ d.requestId) :
    FlowInv maxPending { s with decisions := d :: s.decisions } := by
  refine ⟨h.bindings, h.unique, h.stripped, h.bounded, ?_, ?_⟩
  · intro x hx
    rcases List.mem_cons.mp hx with rfl | hx
    · exact ⟨r, hr, hid, hstatus⟩
    · exact h.decided x hx
  · refine List.nodup_cons.mpr ⟨fun hmem => ?_, h.once⟩
    obtain ⟨x, hx, hsame⟩ := List.mem_map.mp hmem
    exact hnew x hx hsame

/-- A request that is pending has no decision. -/
theorem FlowInv.not_decided {maxPending : Nat} {s : System} (h : FlowInv maxPending s)
    {r : BindingRequest} (hr : r ∈ s.requests) (hpending : r.status = .pending) :
    ∀ d ∈ s.decisions, d.requestId ≠ r.id := by
  intro d hd hsame
  obtain ⟨x, hx, hid, hstatus⟩ := h.decided d hd
  rw [Table.eq_of_key_eq h.unique hx hr (hid.trans hsame)] at hstatus
  exact hstatus hpending

theorem createRequest_ok {maxPending now : Nat} {row : BindingRequest}
    {requests requests' : List BindingRequest}
    (h : createRequest maxPending now row requests = .ok requests') :
    (pendingOf row.agentId (expireStale now row.agentId requests)).length < maxPending ∧
      Table.insert? BindingRequest.id row (expireStale now row.agentId requests) =
        some requests' := by
  unfold createRequest at h
  dsimp only at h
  split at h
  · cases h
  · rename_i hfew
    split at h
    · cases h
    · rename_i inserted hinsert
      cases h
      exact ⟨Nat.lt_of_not_le hfew, hinsert⟩

theorem flowInv_creates {maxPending : Nat} {s : System} (h : FlowInv maxPending s)
    {row : BindingRequest} {requests : List BindingRequest} (hid : strip row.id = row.id)
    (hok : createRequest maxPending s.clock row s.requests = .ok requests) :
    FlowInv maxPending { s with requests := requests } := by
  obtain ⟨hfew, hinsert⟩ := createRequest_ok hok
  have hexpired := h.settles (settles_expireStale s.clock row.agentId s.requests)
  obtain ⟨-, rfl⟩ := Table.insert?_eq_some hinsert
  refine ⟨h.bindings, Table.keyUnique_insert? hexpired.unique hinsert, ?_, ?_, ?_, h.once⟩
  · intro r hr
    rcases List.mem_append.mp hr with hr | hr
    · exact hexpired.stripped r hr
    · rw [List.mem_singleton.mp hr]
      exact hid
  · intro agentId
    show (pendingOf agentId (_ ++ [row])).length ≤ maxPending
    unfold pendingOf
    rw [List.filter_append, List.length_append]
    by_cases hrow : row.isPending agentId = true
    · rw [← (isPending_true hrow).1]
      have hone := List.length_filter_le (fun r => BindingRequest.isPending row.agentId r) [row]
      rw [List.length_singleton] at hone
      change (List.filter _ _).length < maxPending at hfew
      omega
    · rw [List.filter_cons_of_neg hrow, List.filter_nil, List.length_nil, Nat.add_zero]
      exact hexpired.bounded agentId
  · intro d hd
    obtain ⟨r, hr, hrest⟩ := hexpired.decided d hd
    exact ⟨r, List.mem_append_left _ hr, hrest⟩

theorem flowInv_confirms {maxPending : Nat} {s : System} (h : FlowInv maxPending s)
    {agentId merchantId : String} {requestId : Text} {req : BindingRequest}
    {bindings : List RuntimeBinding} {requests : List BindingRequest}
    (hok : confirmRequest s.clock agentId merchantId requestId s.bindings s.requests =
      .ok (req, bindings, requests)) :
    FlowInv maxPending { s with bindings := bindings, requests := requests } ∧
      ∃ r ∈ requests, r.id = req.id ∧ r.status ≠ .pending := by
  obtain ⟨hreq, -, hagent, -, hsettles, hnone, hbinding⟩ :=
    confirmRequest_ok h.unique h.stripped hok
  refine ⟨(h.settles hsettles).setBindings (storeInv_confirm h.bindings hbinding), ?_⟩
  obtain ⟨r, hr, hsettled⟩ := hsettles.after hreq
  refine ⟨r, hr, hsettled.id_eq.1, fun hpending => ?_⟩
  -- the agent has no pending request
  have hmem : r ∈ pendingOf agentId requests := by
    rw [pendingOf, List.mem_filter, BindingRequest.isPending, Bool.and_eq_true, decide_eq_true_eq,
      decide_eq_true_eq]
    exact ⟨hr, hsettled.id_eq.2.1.trans hagent, hpending⟩
  rw [hnone] at hmem
  cases hmem

theorem flowInv_step {maxPending : Nat} {event : Event} {s s' : System}
    (hundisturbed : Undisturbed event) (hstep : Step maxPending event s s')
    (h : FlowInv maxPending s) : FlowInv maxPending s' := by
  cases hstep with
  | ticks now hle => exact ⟨h.bindings, h.unique, h.stripped, h.bounded, h.decided, h.once⟩
  | expires agentId => exact h.settles (settles_expireStale s.clock agentId s.requests)
  | creates hid hstatus hok => exact flowInv_creates h hid hok
  | confirms hok =>
    obtain ⟨hreq, -, -, hpending, -⟩ := confirmRequest_ok h.unique h.stripped hok
    obtain ⟨hwritten, r, hr, hid, hstatus⟩ := flowInv_confirms h hok
    exact hwritten.decide hr hid hstatus (h.not_decided hreq hpending)
  | confirmFails hok => exact (flowInv_confirms h hok).1
  | rejects hok =>
    obtain ⟨hreq, hpending, hsettles, hafter⟩ :=
      rejectRequest_ok h.unique h.stripped hundisturbed hok
    obtain ⟨r, hr, hsettled⟩ := hsettles.after hreq
    have hid := hsettled.id_eq.1
    exact (h.settles hsettles).decide hr hid (hafter r hr hid) (h.not_decided hreq hpending)
  | binds hread hok => exact h.setBindings (storeInv_insertActive h.bindings hread hok)
  | enrolls hok =>
    have hinsert := (enrollmentBinding_ok hok).2
    exact h.setBindings
      (storeInv_insertActive h.bindings (readEarlier_currentActive s.bindings _) hinsert)
  | revokes hok => exact h.setBindings (storeInv_revoke h.bindings hok)

theorem flowInv_started (maxPending : Nat) (s : System) (h : Started s) : FlowInv maxPending s := by
  obtain ⟨hbindings, hrequests, hdecisions⟩ := h
  refine ⟨storeInv_empty s.bindings hbindings, ?_, ?_, ?_, ?_, ?_⟩
  · rw [hrequests]
    exact List.nodup_nil
  · rw [hrequests]
    exact fun r hr => absurd hr List.not_mem_nil
  · rw [hrequests]
    exact fun _ => Nat.zero_le maxPending
  · rw [hdecisions]
    exact fun d hd => absurd hd List.not_mem_nil
  · rw [hdecisions]
    exact List.nodup_nil

/-! ## What a step does -/

theorem stepFlow_other {s s' : System}
    (hkeeps : ∀ r ∈ s.requests, r.status ≠ .pending → r ∈ s'.requests)
    (hdecisions : s'.decisions = s.decisions) : StepFlow .other s s' where
  final r hr hstatus := ⟨hkeeps r hr hstatus, fun d hd _ => hdecisions ▸ hd⟩
  confirmed _ _ hevent := by cases hevent

/-- A decision on a pending request is on none that was decided or expired. -/
theorem final_of_settles {maxPending : Nat} {s s' : System} (h : FlowInv maxPending s)
    (hsettles : Settles s.requests s'.requests) {req : BindingRequest} (hreq : req ∈ s.requests)
    (hpending : req.status = .pending) {d : Decision} (hid : d.requestId = req.id)
    (hdecisions : s'.decisions = d :: s.decisions) :
    ∀ r ∈ s.requests, r.status ≠ .pending →
      r ∈ s'.requests ∧ ∀ x ∈ s'.decisions, x.requestId = r.id → x ∈ s.decisions := by
  intro r hr hstatus
  refine ⟨hsettles.keeps hr hstatus, fun x hx hsame => ?_⟩
  rw [hdecisions] at hx
  rcases List.mem_cons.mp hx with rfl | hx
  · rw [Table.eq_of_key_eq h.unique hr hreq (hsame.symm.trans hid)] at hstatus
    exact absurd hpending hstatus
  · exact hx

theorem step_flow {maxPending : Nat} {event : Event} {s s' : System}
    (hundisturbed : Undisturbed event) (hstep : Step maxPending event s s')
    (h : FlowInv maxPending s) : StepFlow event s s' := by
  cases hstep with
  | ticks now hle => exact stepFlow_other (fun r hr _ => hr) rfl
  | expires agentId =>
    exact stepFlow_other (fun r hr => (settles_expireStale s.clock agentId _).keeps hr) rfl
  | creates hid hstatus hok =>
    rename_i row requests
    obtain ⟨-, hinsert⟩ := createRequest_ok hok
    obtain ⟨-, rfl⟩ := Table.insert?_eq_some hinsert
    refine stepFlow_other (fun r hr hkept => List.mem_append_left _ ?_) rfl
    exact (settles_expireStale s.clock row.agentId _).keeps hr hkept
  | confirms hok =>
    obtain ⟨hreq, hid, hagent, hpending, hsettles, hnone, hbinding⟩ :=
      confirmRequest_ok h.unique h.stripped hok
    refine ⟨final_of_settles h hsettles hreq hpending rfl rfl, ?_⟩
    intro agentId' requestId' hevent
    cases hevent
    exact ⟨⟨_, hreq, hid, hagent, boundBy_confirm h.bindings hbinding⟩, hnone⟩
  | confirmFails hok =>
    obtain ⟨-, -, -, -, hsettles, -⟩ := confirmRequest_ok h.unique h.stripped hok
    exact stepFlow_other (fun r hr => hsettles.keeps hr) rfl
  | rejects hok =>
    obtain ⟨hreq, hpending, hsettles, -⟩ := rejectRequest_ok h.unique h.stripped hundisturbed hok
    refine ⟨final_of_settles h hsettles hreq hpending rfl rfl, ?_⟩
    intro agentId' requestId' hevent
    cases hevent
  | binds hread hok => exact stepFlow_other (fun r hr _ => hr) rfl
  | enrolls hok => exact stepFlow_other (fun r hr _ => hr) rfl
  | revokes hok => exact stepFlow_other (fun r hr _ => hr) rfl

/-- In every run in which no rejection has space at the ends of its id, the pending requests of an
agent stay within the maximum, no request is decided twice or after its expiry, and a confirmation
leaves the one binding that its request asks for. -/
theorem binding_requests {maxPending : Nat} {s : System}
    (hs : Reachable Started (UndisturbedStep maxPending) s) :
    Flow maxPending s ∧
      ∀ event s', Undisturbed event → Step maxPending event s s' → StepFlow event s s' := by
  have hinv : FlowInv maxPending s :=
    reachable_invariant (flowInv_started maxPending)
      (fun _ _ ⟨_, hundisturbed, hstep⟩ h => flowInv_step hundisturbed hstep h) hs
  exact ⟨hinv.flow, fun _ _ hundisturbed hstep => step_flow hundisturbed hstep hinv⟩

/-- A request of a runtime. -/
def askedRow : BindingRequest :=
  ⟨"breq_1".toList, "cagt_1", "m_1", firstDeclaration, 1, "n_1", .pending, 72⟩

def beforeAsking : System := ⟨0, [], [], []⟩

def afterAsking : System := { beforeAsking with requests := [askedRow] }

theorem asked_reachable {maxPending : Nat} (h : 0 < maxPending) :
    Reachable Started (UndisturbedStep maxPending) afterAsking := by
  have hcreated : createRequest maxPending 0 askedRow [] = .ok [askedRow] := by
    rw [createRequest, if_neg]
    · rfl
    · exact Nat.not_le.mpr h
  exact reachable_step (reachable_init ⟨rfl, rfl, rfl⟩)
    ⟨.other, trivial, .creates (s := beforeAsking) (by decide) rfl hcreated⟩

theorem binding_requests_rejected :
    ∃ s : System, s.decisions ≠ [] ∧ Flow 3 s ∧
      ∀ event s', Undisturbed event → Step 3 event s s' → StepFlow event s s' := by
  have hasked := @asked_reachable 3 (by decide)
  have hrejected := reachable_step hasked
    ⟨.rejects "cagt_1" "breq_1".toList, rfl,
      @Step.rejects 3 afterAsking "cagt_1" _ "no".toList askedRow
        [askedRow.setStatus .rejected] (by decide +kernel)⟩
  exact ⟨_, List.cons_ne_nil _ _, binding_requests hrejected⟩

/-- A rejection with a space before the id reports success, and the request is still pending. -/
theorem padded_rejection_is_lost :
    ¬ ∀ s : System, Reachable Started (AnyStep 3) s → Flow 3 s := by
  intro hall
  have hasked : Reachable Started (AnyStep 3) afterAsking :=
    reachable_mono (fun ⟨event, _, hstep⟩ => ⟨event, hstep⟩) (asked_reachable (by decide))
  have hlost : Reachable Started (AnyStep 3)
      { afterAsking with decisions := [.rejected "breq_1".toList] } :=
    reachable_step hasked
      ⟨.rejects "cagt_1" " breq_1".toList,
        @Step.rejects 3 afterAsking "cagt_1" _ "no".toList askedRow [askedRow] (by decide +kernel)⟩
  have htwice := reachable_step hlost
    ⟨.rejects "cagt_1" "breq_1".toList,
      @Step.rejects 3 { afterAsking with decisions := [.rejected "breq_1".toList] } "cagt_1" _
        "no".toList askedRow [askedRow.setStatus .rejected] (by decide +kernel)⟩
  exact absurd (hall _ htwice).once (by decide)

end KiwiCatalog.Binding.Requests
