import KiwiCatalog.Lib.Transition
import KiwiCatalog.Lib.Update

/-!
# Connector identity — one token, for the account that approved

One request of a connector for an identity, which accounts approve or deny and the connector
exchanges.  A decision resolves its session first, which writes, so its reads are under SQLite's
write lock; an exchange holds the lock before it reads only where its limiter counts.  `ρ` names the
requests to the server, in any number; codes are numbers, and a digest stands for what it is of.
-/

set_option autoImplicit false
set_option linter.unusedSectionVars false

namespace KiwiCatalog.Accounts.ConnectorIdentity

open Transition
open Update (forall_update)

/-! ## The row -/

inductive Status
  | pending
  | approved
  | denied
  | consumed
  deriving DecidableEq, Repr

/-- A row of `connector_identity_requests`. -/
structure RequestRow where
  status : Status
  accountId : Nat
  merchantId : String
  code : Option Nat
  expiresAt : Nat
  deriving DecidableEq, Repr

/-- The account of a session. -/
structure SessionAccount where
  accountId : Nat
  merchantId : String
  emailVerified : Bool
  deriving DecidableEq, Repr

/-- A day. -/
def retentionSeconds : Nat := 86400

def expired (now : Nat) (row : RequestRow) : Bool := row.expiresAt < now

/-- `load_request`. -/
def loadRequest (now : Nat) (row : Option RequestRow) : Option RequestRow :=
  row.filter fun row => !expired now row

/-- What `approve_request` checks. -/
def mayApprove (account : SessionAccount) (row : RequestRow) : Bool :=
  row.status = .pending && account.emailVerified && account.merchantId ≠ ""

/-- What `exchange` checks. -/
def mayExchange (code : Nat) (row : RequestRow) : Bool :=
  row.status = .approved && row.code = some code

def approveRow (account : SessionAccount) (code : Nat) (row : RequestRow) : RequestRow :=
  { row with
    status := .approved
    accountId := account.accountId
    merchantId := account.merchantId
    code := some code }

def denyRow (account : SessionAccount) (row : RequestRow) : RequestRow :=
  { row with status := .denied, accountId := account.accountId }

def consumeRow (row : RequestRow) : RequestRow := { row with status := .consumed }

/-- `update … where request_id = ? and status = ?`. -/
def updateWhereStatus (status : Status) (f : RequestRow → RequestRow) (row : Option RequestRow) :
    Option RequestRow :=
  row.map fun row => if row.status = status then f row else row

/-- Whether such an update matches. -/
def hasStatus (status : Status) (row : Option RequestRow) : Bool :=
  row.any fun row => row.status = status

/-! ## The system -/

inductive Decision
  | approve
  | deny
  deriving DecidableEq, Repr

inductive Pc
  | idle
  | deciding (account : SessionAccount) (decision : Decision)
  -- the row was loaded, and passed the checks of the decision
  | decided (account : SessionAccount) (decision : Decision)
  | exchanging (code : Nat)
  | exchanged (code loadedAt : Nat) (record : RequestRow)
  | ended
  deriving DecidableEq, Repr

/-- An approval that succeeded. -/
structure Approval where
  accountId : Nat
  merchantId : String
  code : Nat
  deriving DecidableEq, Repr

/-- A token that was issued to an exchange. -/
structure Token where
  accountId : Nat
  merchantId : String
  presented : Nat
  loadedAt : Nat
  deriving DecidableEq, Repr

structure System (ρ : Type) where
  clock : Nat
  row : Option RequestRow
  lock : Option ρ
  pc : ρ → Pc
  nextCode : Nat
  -- not stored: whether the request was created, and when it expires
  created : Option Nat
  -- not stored: what was reported
  approvals : List Approval
  denials : List Nat
  tokens : List Token

variable {ρ : Type} [DecidableEq ρ]

namespace System

def mayWrite (s : System ρ) (r : ρ) : Bool := s.lock = none || s.lock = some r

/-- The end of a transaction. -/
def finish (s : System ρ) (r : ρ) : System ρ :=
  { s with
    pc := Function.update s.pc r .ended
    lock := if s.lock = some r then none else s.lock }

end System

inductive Step : System ρ → System ρ → Prop
  | ticks {s : System ρ} (now : Nat) (h : s.clock ≤ now) : Step s { s with clock := now }
  | creates {s : System ρ} (ttl : Nat) (hlock : s.lock = none) (hnew : s.created = none) :
      Step s
        { s with
          row := some ⟨.pending, 0, "", none, s.clock + ttl⟩
          created := some (s.clock + ttl) }
  -- `_purge_stale`
  | purges {s : System ρ} {row : RequestRow} (hlock : s.lock = none) (hrow : s.row = some row)
      (hold : row.expiresAt + retentionSeconds < s.clock) : Step s { s with row := none }
  -- `resolve_session` inserts the merchant of the account where it is missing
  | decideOpens {s : System ρ} {r : ρ} (account : SessionAccount) (decision : Decision)
      (hpc : s.pc r = .idle) (hlock : s.lock = none) :
      Step s
        { s with
          pc := Function.update s.pc r (.deciding account decision)
          lock := some r }
  | approveLoads {s : System ρ} {r : ρ} {account : SessionAccount} {row : RequestRow}
      (hpc : s.pc r = .deciding account .approve) (hload : loadRequest s.clock s.row = some row)
      (hmay : mayApprove account row = true) :
      Step s { s with pc := Function.update s.pc r (.decided account .approve) }
  | denyLoads {s : System ρ} {r : ρ} {account : SessionAccount} {row : RequestRow}
      (hpc : s.pc r = .deciding account .deny) (hload : loadRequest s.clock s.row = some row)
      (hpending : row.status = .pending) :
      Step s { s with pc := Function.update s.pc r (.decided account .deny) }
  | decideFails {s : System ρ} {r : ρ} {account : SessionAccount} {decision : Decision}
      (hpc : s.pc r = .deciding account decision) : Step s (s.finish r)
  | approves {s : System ρ} {r : ρ} {account : SessionAccount}
      (hpc : s.pc r = .decided account .approve) (hwrite : s.mayWrite r = true)
      (hmatch : hasStatus .pending s.row = true) :
      Step s
        ({ s with
          row := updateWhereStatus .pending (approveRow account s.nextCode) s.row
          nextCode := s.nextCode + 1
          approvals := ⟨account.accountId, account.merchantId, s.nextCode⟩ :: s.approvals }.finish r)
  | approveFails {s : System ρ} {r : ρ} {account : SessionAccount}
      (hpc : s.pc r = .decided account .approve) (hmatch : hasStatus .pending s.row = false) :
      Step s (s.finish r)
  -- success is reported whether or not the update matches
  | denies {s : System ρ} {r : ρ} {account : SessionAccount}
      (hpc : s.pc r = .decided account .deny) (hwrite : s.mayWrite r = true) :
      Step s
        ({ s with
          row := updateWhereStatus .pending (denyRow account) s.row
          denials := account.accountId :: s.denials }.finish r)
  -- the limiter counts in the transaction of the exchange
  | exchangeOpensLocked {s : System ρ} {r : ρ} (code : Nat) (hpc : s.pc r = .idle)
      (hlock : s.lock = none) :
      Step s
        { s with
          pc := Function.update s.pc r (.exchanging code)
          lock := some r }
  -- a limit of zero
  | exchangeOpens {s : System ρ} {r : ρ} (code : Nat) (hpc : s.pc r = .idle) :
      Step s { s with pc := Function.update s.pc r (.exchanging code) }
  | exchangeLoads {s : System ρ} {r : ρ} {code : Nat} {row : RequestRow}
      (hpc : s.pc r = .exchanging code) (hload : loadRequest s.clock s.row = some row)
      (hmay : mayExchange code row = true) :
      Step s { s with pc := Function.update s.pc r (.exchanged code s.clock row) }
  | exchangeFails {s : System ρ} {r : ρ} {code : Nat} (hpc : s.pc r = .exchanging code) :
      Step s (s.finish r)
  | exchanges {s : System ρ} {r : ρ} {code loadedAt : Nat} {record : RequestRow}
      (hpc : s.pc r = .exchanged code loadedAt record) (hwrite : s.mayWrite r = true)
      (hmatch : hasStatus .approved s.row = true) :
      Step s
        ({ s with
          row := updateWhereStatus .approved consumeRow s.row
          tokens := ⟨record.accountId, record.merchantId, code, loadedAt⟩ :: s.tokens }.finish r)
  | exchangeLoses {s : System ρ} {r : ρ} {code loadedAt : Nat} {record : RequestRow}
      (hpc : s.pc r = .exchanged code loadedAt record)
      (hmatch : hasStatus .approved s.row = false) : Step s (s.finish r)

/-- Before the request is created. -/
def Started (s : System ρ) : Prop :=
  s.row = none ∧ s.lock = none ∧ (∀ r, s.pc r = .idle) ∧ s.created = none ∧ s.approvals = [] ∧
    s.denials = [] ∧ s.tokens = []

/-! ## The protocol -/

/-- The token is the approval's, for the code that it returned, presented in time. -/
def Token.Of (token : Token) (a : Approval) (expiresAt : Option Nat) : Prop :=
  token.accountId = a.accountId ∧ token.merchantId = a.merchantId ∧ token.presented = a.code ∧
    ∃ t, expiresAt = some t ∧ token.loadedAt ≤ t

/-- One token at most, of an approval that succeeded, and none where a denial did. -/
structure Protocol (s : System ρ) : Prop where
  once : s.tokens.length ≤ 1
  bound : ∀ token ∈ s.tokens, ∃ a ∈ s.approvals, token.Of a s.created
  denied : s.denials ≠ [] → s.tokens = []

/-- A denied or consumed request gets no other status. -/
def KeepsTerminal (s s' : System ρ) : Prop :=
  ∀ row, s.row = some row → (row.status = .denied ∨ row.status = .consumed) →
    ∀ row', s'.row = some row' → row'.status = row.status

/-! ## The invariant -/

/-- The row carries the approval. -/
def RequestRow.Carries (row : RequestRow) (a : Approval) : Prop :=
  row.accountId = a.accountId ∧ row.merchantId = a.merchantId ∧ row.code = some a.code

/-- What was reported, by the status of the row. -/
def Reported (s : System ρ) (row : RequestRow) : Prop :=
  match row.status with
  | .pending => s.approvals = [] ∧ s.tokens = [] ∧ s.denials = []
  | .approved => (∃ a, s.approvals = [a] ∧ row.Carries a) ∧ s.tokens = [] ∧ s.denials = []
  | .denied => s.approvals = [] ∧ s.tokens = []
  | .consumed => s.denials = [] ∧ s.tokens ≠ []

/-- A decision holds the lock from its start, and a decision that was checked finds the row
pending. -/
def PcInv (s : System ρ) (r : ρ) : Pc → Prop
  | .deciding _ _ => s.lock = some r
  | .decided _ _ => s.lock = some r ∧ hasStatus .pending s.row = true
  | .exchanged code loadedAt record =>
    (∃ a ∈ s.approvals, record.Carries a ∧ code = a.code) ∧ ∃ t, s.created = some t ∧ loadedAt ≤ t
  | _ => True

structure ProtocolInv (s : System ρ) : Prop where
  protocol : Protocol s
  reported : ∀ row, s.row = some row → Reported s row
  expires : ∀ row, s.row = some row → s.created = some row.expiresAt
  fresh : s.created = none → s.row = none ∧ s.approvals = [] ∧ s.denials = [] ∧ s.tokens = []
  pc : ∀ r, PcInv s r (s.pc r)

theorem hasStatus_some {status : Status} {row : Option RequestRow}
    (h : hasStatus status row = true) : ∃ r, row = some r ∧ r.status = status := by
  obtain ⟨r, hr, hstatus⟩ := Option.any_eq_true .. |>.mp h
  exact ⟨r, hr, of_decide_eq_true hstatus⟩

theorem loadRequest_some {now : Nat} {row : Option RequestRow} {r : RequestRow}
    (h : loadRequest now row = some r) : row = some r ∧ now ≤ r.expiresAt := by
  obtain ⟨hrow, hlive⟩ := Option.filter_eq_some_iff.mp h
  rw [expired, Bool.not_eq_true', decide_eq_false_iff_not] at hlive
  exact ⟨hrow, by omega⟩

/-! ## Who holds the lock -/

def IsDecision : Pc → Prop
  | .deciding _ _ => True
  | .decided _ _ => True
  | _ => False

theorem PcInv.lock {s : System ρ} {r : ρ} {pc : Pc} (h : PcInv s r pc) (hdecision : IsDecision pc) :
    s.lock = some r := by
  cases pc with
  | deciding account decision => exact h
  | decided account decision => exact h.1
  | _ => cases hdecision

/-- While a request may write, no other one is in a decision. -/
theorem ProtocolInv.not_decision {s : System ρ} (h : ProtocolInv s) {r r' : ρ}
    (hwrite : s.mayWrite r = true) (hne : r' ≠ r) : ¬ IsDecision (s.pc r') := by
  intro hdecision
  have hlock := (h.pc r').lock hdecision
  rw [System.mayWrite, hlock, Bool.or_eq_true, decide_eq_true_eq, decide_eq_true_eq] at hwrite
  rcases hwrite with hnone | hsame
  · cases hnone
  · exact hne (Option.some.inj hsame)

theorem ProtocolInv.not_decision_free {s : System ρ} (h : ProtocolInv s) (hlock : s.lock = none)
    (r : ρ) : ¬ IsDecision (s.pc r) := by
  intro hdecision
  have hheld := (h.pc r).lock hdecision
  rw [hlock] at hheld
  cases hheld

/-- What an exchange has loaded stays an approval. -/
theorem PcInv.of_not_decision {s s' : System ρ} {r : ρ} {pc : Pc} (h : PcInv s r pc)
    (hnot : ¬ IsDecision pc) (happrovals : ∀ a ∈ s.approvals, a ∈ s'.approvals)
    (hcreated : ∀ t, s.created = some t → s'.created = some t) : PcInv s' r pc := by
  cases pc with
  | deciding account decision => exact absurd trivial hnot
  | decided account decision => exact absurd trivial hnot
  | exchanged code loadedAt record =>
    obtain ⟨⟨a, ha, hrest⟩, t, ht, hle⟩ := h
    exact ⟨⟨a, happrovals a ha, hrest⟩, t, hcreated t ht, hle⟩
  | _ => trivial

/-- A step that leaves the row and the reports, and takes the lock from no other request. -/
theorem protocolInv_frame {s : System ρ} (s' : System ρ) {r : ρ} {pc : Pc} (h : ProtocolInv s)
    (hrow : s'.row = s.row) (hcreated : s'.created = s.created)
    (happrovals : s'.approvals = s.approvals) (hdenials : s'.denials = s.denials)
    (htokens : s'.tokens = s.tokens) (hpcs : s'.pc = Function.update s.pc r pc)
    (hlock : ∀ r', r' ≠ r → s.lock = some r' → s'.lock = some r') (hself : PcInv s' r pc) :
    ProtocolInv s' := by
  have hprotocol : Protocol s' := by
    refine ⟨by rw [htokens]; exact h.protocol.once, ?_, ?_⟩
    · rw [htokens, happrovals, hcreated]
      exact h.protocol.bound
    · rw [htokens, hdenials]
      exact h.protocol.denied
  refine ⟨hprotocol, ?_, ?_, ?_, ?_⟩
  · intro row hsome
    unfold Reported
    rw [happrovals, hdenials, htokens]
    exact h.reported row (hrow ▸ hsome)
  · rw [hcreated]
    exact fun row hsome => h.expires row (hrow ▸ hsome)
  · rw [hcreated, hrow, happrovals, hdenials, htokens]
    exact h.fresh
  · rw [hpcs]
    apply forall_update hself
    intro r' hne
    have hold := h.pc r'
    cases hpc : s.pc r' with
    | deciding account decision =>
      rw [hpc] at hold
      exact hlock r' hne hold
    | decided account decision =>
      rw [hpc] at hold
      exact ⟨hlock r' hne hold.1, hrow ▸ hold.2⟩
    | exchanged code loadedAt record =>
      rw [hpc] at hold
      unfold PcInv
      rw [happrovals, hcreated]
      exact hold
    | _ => trivial

theorem protocolInv_finish {s : System ρ} (h : ProtocolInv s) (r : ρ) :
    ProtocolInv (s.finish r) := by
  apply protocolInv_frame (s.finish r) h rfl rfl rfl rfl rfl rfl
  · intro r' hne hheld
    show (if s.lock = some r then none else s.lock) = some r'
    rw [if_neg, hheld]
    rw [hheld]
    exact fun hsame => hne (Option.some.inj hsame)
  · trivial

/-- A write of the row by a request that ends with it. -/
theorem protocolInv_write {s : System ρ} (s' : System ρ) {r : ρ} (h : ProtocolInv s)
    (hwrite : s.mayWrite r = true) (hpcs : s'.pc = Function.update s.pc r .ended)
    (happrovals : ∀ a ∈ s.approvals, a ∈ s'.approvals) (hcreated : s'.created = s.created)
    {row row' : RequestRow} (hrow : s.row = some row) (hrow' : s'.row = some row')
    (hexpires : row'.expiresAt = row.expiresAt) (hprotocol : Protocol s')
    (hreported : Reported s' row') : ProtocolInv s' := by
  have hcreated' : s'.created = some row'.expiresAt := by
    rw [hcreated, hexpires]
    exact h.expires row hrow
  refine ⟨hprotocol, ?_, ?_, ?_, ?_⟩
  · intro x hx
    rw [hrow'] at hx
    cases hx
    exact hreported
  · intro x hx
    rw [hrow'] at hx
    cases hx
    exact hcreated'
  · intro hnone
    rw [hcreated'] at hnone
    cases hnone
  · rw [hpcs]
    have hothers : ∀ r', r' ≠ r → PcInv s' r' (s.pc r') := by
      intro r' hne
      exact (h.pc r').of_not_decision (h.not_decision hwrite hne) happrovals
        fun t ht => hcreated.trans ht
    have hself : PcInv s' r .ended := trivial
    exact forall_update hself hothers

/-! ## The writes -/

theorem protocolInv_approves {s : System ρ} (h : ProtocolInv s) {r : ρ} {account : SessionAccount}
    (hwrite : s.mayWrite r = true) (hmatch : hasStatus .pending s.row = true) :
    ProtocolInv
      ({ s with
        row := updateWhereStatus .pending (approveRow account s.nextCode) s.row
        nextCode := s.nextCode + 1
        approvals := ⟨account.accountId, account.merchantId, s.nextCode⟩ :: s.approvals }.finish
          r) := by
  obtain ⟨row, hrow, hstatus⟩ := hasStatus_some hmatch
  have hreported := h.reported row hrow
  unfold Reported at hreported
  rw [hstatus] at hreported
  obtain ⟨happrovals, htokens, hdenials⟩ := hreported
  have hrow' : updateWhereStatus .pending (approveRow account s.nextCode) s.row =
      some (approveRow account s.nextCode row) := by
    rw [hrow]
    exact congrArg some (if_pos hstatus)
  refine protocolInv_write _ h hwrite rfl (fun a ha => List.mem_cons_of_mem _ ha) rfl hrow hrow' rfl ?_ ?_
  · refine ⟨?_, ?_, fun _ => htokens⟩
    · show s.tokens.length ≤ 1
      rw [htokens]
      exact Nat.zero_le 1
    · intro token htoken
      change token ∈ s.tokens at htoken
      rw [htokens] at htoken
      cases htoken
  · refine ⟨⟨⟨account.accountId, account.merchantId, s.nextCode⟩, ?_, rfl, rfl, rfl⟩, htokens,
      hdenials⟩
    show _ :: s.approvals = [_]
    rw [happrovals]

/-- The lock has kept the row pending since it was loaded. -/
theorem protocolInv_denies {s : System ρ} (h : ProtocolInv s) {r : ρ} {account : SessionAccount}
    (hpc : s.pc r = .decided account .deny) (hwrite : s.mayWrite r = true) :
    ProtocolInv
      ({ s with
        row := updateWhereStatus .pending (denyRow account) s.row
        denials := account.accountId :: s.denials }.finish r) := by
  have hdecided : PcInv s r (.decided account .deny) := hpc ▸ h.pc r
  obtain ⟨row, hrow, hstatus⟩ := hasStatus_some hdecided.2
  have hreported := h.reported row hrow
  unfold Reported at hreported
  rw [hstatus] at hreported
  obtain ⟨happrovals, htokens, -⟩ := hreported
  have hrow' : updateWhereStatus .pending (denyRow account) s.row = some (denyRow account row) := by
    rw [hrow]
    exact congrArg some (if_pos hstatus)
  refine protocolInv_write _ h hwrite rfl (fun a ha => ha) rfl hrow hrow' rfl ?_ ?_
  · exact ⟨h.protocol.once, h.protocol.bound, fun _ => htokens⟩
  · exact ⟨happrovals, htokens⟩

theorem protocolInv_exchanges {s : System ρ} (h : ProtocolInv s) {r : ρ} {code loadedAt : Nat}
    {record : RequestRow} (hpc : s.pc r = .exchanged code loadedAt record)
    (hwrite : s.mayWrite r = true) (hmatch : hasStatus .approved s.row = true) :
    ProtocolInv
      ({ s with
        row := updateWhereStatus .approved consumeRow s.row
        tokens := ⟨record.accountId, record.merchantId, code, loadedAt⟩ :: s.tokens }.finish
          r) := by
  have hloaded : PcInv s r (.exchanged code loadedAt record) := hpc ▸ h.pc r
  obtain ⟨⟨a, ha, hcarries, hcode⟩, t, hcreated, hle⟩ := hloaded
  obtain ⟨row, hrow, hstatus⟩ := hasStatus_some hmatch
  have hreported := h.reported row hrow
  unfold Reported at hreported
  rw [hstatus] at hreported
  obtain ⟨-, htokens, hdenials⟩ := hreported
  have hrow' : updateWhereStatus .approved consumeRow s.row = some (consumeRow row) := by
    rw [hrow]
    exact congrArg some (if_pos hstatus)
  refine protocolInv_write _ h hwrite rfl (fun a ha => ha) rfl hrow hrow' rfl ?_ ?_
  · refine ⟨?_, ?_, fun hdenied => absurd hdenials hdenied⟩
    · show (_ :: s.tokens).length ≤ 1
      rw [htokens]
      exact Nat.le_refl 1
    · intro token htoken
      change token ∈ _ :: s.tokens at htoken
      rw [htokens, List.mem_singleton] at htoken
      subst htoken
      exact ⟨a, ha, hcarries.1, hcarries.2.1, hcode, t, hcreated, hle⟩
  · exact ⟨hdenials, List.cons_ne_nil _ _⟩

/-- A row that goes away leaves what was reported. -/
theorem protocolInv_purges {s : System ρ} (h : ProtocolInv s) (hlock : s.lock = none)
    {row : RequestRow} (hrow : s.row = some row) : ProtocolInv { s with row := none } := by
  refine ⟨⟨h.protocol.once, h.protocol.bound, h.protocol.denied⟩, ?_, ?_, ?_, ?_⟩
  · intro x hx
    cases hx
  · intro x hx
    cases hx
  · intro hnone
    have hcreated := h.expires row hrow
    change s.created = none at hnone
    rw [hnone] at hcreated
    cases hcreated
  · exact fun r => (h.pc r).of_not_decision (h.not_decision_free hlock r) (fun a ha => ha)
      fun t ht => ht

theorem protocolInv_creates {s : System ρ} (h : ProtocolInv s) (hlock : s.lock = none)
    (hnew : s.created = none) (ttl : Nat) :
    ProtocolInv
      { s with
        row := some ⟨.pending, 0, "", none, s.clock + ttl⟩
        created := some (s.clock + ttl) } := by
  obtain ⟨-, happrovals, hdenials, htokens⟩ := h.fresh hnew
  refine ⟨⟨h.protocol.once, ?_, h.protocol.denied⟩, ?_, ?_, ?_, ?_⟩
  · intro token htoken
    change token ∈ s.tokens at htoken
    rw [htokens] at htoken
    cases htoken
  · intro row hrow
    cases hrow
    exact ⟨happrovals, htokens, hdenials⟩
  · intro row hrow
    cases hrow
    rfl
  · intro hnone
    cases hnone
  · intro r
    refine (h.pc r).of_not_decision (h.not_decision_free hlock r) (fun a ha => ha) ?_
    intro t ht
    rw [hnew] at ht
    cases ht

theorem mayExchange_true {code : Nat} {row : RequestRow} (h : mayExchange code row = true) :
    row.status = .approved ∧ row.code = some code := by
  rw [mayExchange, Bool.and_eq_true, decide_eq_true_eq, decide_eq_true_eq] at h
  exact h

/-- What an exchange loads is the approval. -/
theorem pcInv_exchangeLoads {s : System ρ} (h : ProtocolInv s) {code : Nat} {row : RequestRow}
    (hload : loadRequest s.clock s.row = some row) (hmay : mayExchange code row = true) :
    (∃ a ∈ s.approvals, row.Carries a ∧ code = a.code) ∧
      ∃ t, s.created = some t ∧ s.clock ≤ t := by
  obtain ⟨hrow, hlive⟩ := loadRequest_some hload
  obtain ⟨hstatus, hcode⟩ := mayExchange_true hmay
  have hreported := h.reported row hrow
  unfold Reported at hreported
  rw [hstatus] at hreported
  obtain ⟨⟨a, happrovals, hcarries⟩, -, -⟩ := hreported
  refine ⟨⟨a, by rw [happrovals]; exact List.mem_singleton_self a, hcarries, ?_⟩, row.expiresAt,
    h.expires row hrow, hlive⟩
  exact Option.some.inj (hcode.symm.trans hcarries.2.2)

theorem protocolInv_preserved : Preserves (Step (ρ := ρ)) ProtocolInv := by
  intro s s' hstep h
  cases hstep with
  | ticks now hle =>
    exact ⟨⟨h.protocol.once, h.protocol.bound, h.protocol.denied⟩, h.reported, h.expires, h.fresh,
      h.pc⟩
  | creates ttl hlock hnew => exact protocolInv_creates h hlock hnew ttl
  | purges hlock hrow hold => exact protocolInv_purges h hlock hrow
  | decideOpens account decision hpc hlock =>
    refine protocolInv_frame _ h rfl rfl rfl rfl rfl rfl ?_ ?_
    · intro r' _ hheld
      rw [hlock] at hheld
      cases hheld
    · rfl
  | approveLoads hpc hload hmay =>
    rename_i r account row
    have hlock : PcInv s r (.deciding account .approve) := hpc ▸ h.pc r
    obtain ⟨hrow, -⟩ := loadRequest_some hload
    rw [mayApprove, Bool.and_eq_true, Bool.and_eq_true, decide_eq_true_eq] at hmay
    refine protocolInv_frame _ h rfl rfl rfl rfl rfl rfl (fun _ _ hheld => hheld) ?_
    refine ⟨hlock, ?_⟩
    rw [hrow]
    exact decide_eq_true hmay.1.1
  | denyLoads hpc hload hpending =>
    rename_i r account row
    have hlock : PcInv s r (.deciding account .deny) := hpc ▸ h.pc r
    obtain ⟨hrow, -⟩ := loadRequest_some hload
    refine protocolInv_frame _ h rfl rfl rfl rfl rfl rfl (fun _ _ hheld => hheld) ?_
    refine ⟨hlock, ?_⟩
    rw [hrow]
    exact decide_eq_true hpending
  | decideFails hpc => exact protocolInv_finish h _
  | approves hpc hwrite hmatch => exact protocolInv_approves h hwrite hmatch
  | approveFails hpc hmatch => exact protocolInv_finish h _
  | denies hpc hwrite => exact protocolInv_denies h hpc hwrite
  | exchangeOpensLocked code hpc hlock =>
    refine protocolInv_frame _ h rfl rfl rfl rfl rfl rfl ?_ ?_
    · intro r' _ hheld
      rw [hlock] at hheld
      cases hheld
    · trivial
  | exchangeOpens code hpc =>
    refine protocolInv_frame _ h rfl rfl rfl rfl rfl rfl (fun _ _ hheld => hheld) ?_
    trivial
  | exchangeLoads hpc hload hmay =>
    refine protocolInv_frame _ h rfl rfl rfl rfl rfl rfl (fun _ _ hheld => hheld) ?_
    exact pcInv_exchangeLoads h hload hmay
  | exchangeFails hpc => exact protocolInv_finish h _
  | exchanges hpc hwrite hmatch => exact protocolInv_exchanges h hpc hwrite hmatch
  | exchangeLoses hpc hmatch => exact protocolInv_finish h _

theorem protocolInv_started (s : System ρ) (h : Started s) : ProtocolInv s := by
  obtain ⟨hrow, hlock, hpc, hcreated, happrovals, hdenials, htokens⟩ := h
  refine ⟨⟨?_, ?_, ?_⟩, ?_, ?_, fun _ => ⟨hrow, happrovals, hdenials, htokens⟩, ?_⟩
  · rw [htokens]
    exact Nat.zero_le 1
  · rw [htokens]
    exact fun token htoken => absurd htoken List.not_mem_nil
  · exact fun hdenied => absurd hdenials hdenied
  · rw [hrow]
    exact fun row hsome => by cases hsome
  · rw [hrow]
    exact fun row hsome => by cases hsome
  · intro r
    rw [hpc]
    trivial

/-! ## Terminal statuses -/

theorem keepsTerminal_update {status : Status} {f : RequestRow → RequestRow}
    (hstatus : status ≠ .denied ∧ status ≠ .consumed) {row row' : RequestRow}
    (hterminal : row.status = .denied ∨ row.status = .consumed)
    (h : updateWhereStatus status f (some row) = some row') : row'.status = row.status := by
  have hne : row.status ≠ status := by
    rintro rfl
    rcases hterminal with hdenied | hconsumed
    · exact hstatus.1 hdenied
    · exact hstatus.2 hconsumed
  have hsame : updateWhereStatus status f (some row) = some row := congrArg some (if_neg hne)
  rw [hsame] at h
  rw [Option.some.inj h]

theorem keepsTerminal_of_row_eq {s s' : System ρ} (h : s'.row = s.row) : KeepsTerminal s s' := by
  intro row hrow _ row' hrow'
  rw [h, hrow] at hrow'
  rw [Option.some.inj hrow']

theorem step_keepsTerminal {s s' : System ρ} (h : ProtocolInv s) (hstep : Step s s') :
    KeepsTerminal s s' := by
  cases hstep with
  | creates ttl hlock hnew =>
    intro row hrow
    rw [(h.fresh hnew).1] at hrow
    cases hrow
  | purges hlock hrow hold =>
    intro row _ _ row' hrow'
    cases hrow'
  | approves hpc hwrite hmatch =>
    intro row hrow hterminal row' hrow'
    change updateWhereStatus _ _ s.row = _ at hrow'
    rw [hrow] at hrow'
    exact keepsTerminal_update (by decide) hterminal hrow'
  | denies hpc hwrite =>
    intro row hrow hterminal row' hrow'
    change updateWhereStatus _ _ s.row = _ at hrow'
    rw [hrow] at hrow'
    exact keepsTerminal_update (by decide) hterminal hrow'
  | exchanges hpc hwrite hmatch =>
    intro row hrow hterminal row' hrow'
    change updateWhereStatus _ _ s.row = _ at hrow'
    rw [hrow] at hrow'
    exact keepsTerminal_update (by decide) hterminal hrow'
  | _ => exact keepsTerminal_of_row_eq rfl

/-- In every run the request yields one token at most, for the approval that succeeded and the code
that it returned, presented before it expired, and none where a denial succeeded; and no step changes
a denied or a consumed status. -/
theorem connector_identity {s : System ρ} (hs : Reachable Started Step s) :
    Protocol s ∧ ∀ s', Step s s' → KeepsTerminal s s' := by
  have hinv := reachable_invariant protocolInv_started protocolInv_preserved hs
  exact ⟨hinv.protocol, fun s' hstep => step_keepsTerminal hinv hstep⟩

/-- One account approves, and the connector exchanges the code that it got. -/
def begun : System Nat := ⟨0, none, none, fun _ => .idle, 7, none, [], [], []⟩

def owner : SessionAccount := ⟨1, "mrc_1", true⟩

theorem connector_identity_exchanged :
    ∃ s : System Nat, s.tokens ≠ [] ∧ Protocol s ∧ ∀ s', Step s s' → KeepsTerminal s s' := by
  have hbegun : Reachable Started Step begun :=
    reachable_init ⟨rfl, rfl, fun _ => rfl, rfl, rfl, rfl, rfl⟩
  have hcreated := reachable_step hbegun (.creates 60 rfl rfl)
  have hdeciding := reachable_step hcreated (.decideOpens (r := 1) owner .approve rfl rfl)
  have hdecided := reachable_step hdeciding (@Step.approveLoads Nat _ _ 1 owner _ rfl rfl rfl)
  have happroved := reachable_step hdecided (@Step.approves Nat _ _ 1 owner rfl rfl rfl)
  have hexchanging := reachable_step happroved (@Step.exchangeOpensLocked Nat _ _ 2 7 rfl rfl)
  have hexchanged := reachable_step hexchanging (@Step.exchangeLoads Nat _ _ 2 7 _ rfl rfl rfl)
  have hdone := reachable_step hexchanged (@Step.exchanges Nat _ _ 2 7 0 _ rfl rfl rfl)
  exact ⟨_, List.cons_ne_nil _ _, connector_identity hdone⟩

end KiwiCatalog.Accounts.ConnectorIdentity
