import KiwiCatalog.Lib.Transition
import KiwiCatalog.Lib.Update
import Mathlib.Data.List.Nodup

/-!
# Merchant identity — the merchant of an account and the decisions on its applications

One account with its applications.  `ensure_merchant_id` and `approve_application` give the account
a merchant, and approvals issue tokens.  Each reads before its transaction.  `ρ` names the requests,
in any number; generated merchant ids are numbers.
-/

set_option autoImplicit false
set_option linter.unusedSectionVars false

namespace KiwiCatalog.Accounts.MerchantIdentity

open Transition
open Update (forall_update)

/-! ## Rows -/

inductive ApplicationStatus
  | pending
  | approved
  | rejected
  deriving DecidableEq, Repr

inductive TokenStatus
  | active
  | revoked
  deriving DecidableEq, Repr

/-- A row of `merchant_tokens`. -/
structure TokenRow where
  token : String
  status : TokenStatus
  deriving DecidableEq, Repr

/-- The columns that the operations decide on. -/
structure Db where
  -- `merchant_accounts.merchant_id`, where it is not empty
  merchantId : Option Nat
  applications : Nat → Option ApplicationStatus
  tokens : Nat → Option TokenRow

/-- The guarded update of `ensure_merchant_id`. -/
def fillMerchantId (merchantId : Nat) (db : Db) : Db :=
  { db with merchantId := db.merchantId.or (some merchantId) }

/-- What `approve_application` writes. -/
def approveApplication (application merchantId : Nat) (token : String) (db : Db) : Db where
  merchantId := some merchantId
  applications := Function.update db.applications application (some .approved)
  tokens := Function.update db.tokens merchantId (some ⟨token, .active⟩)

/-- What `reject_application` writes. -/
def rejectApplication (application : Nat) (db : Db) : Db :=
  { db with applications := Function.update db.applications application (some .rejected) }

/-- `rotate_token` and `revoke_token`, of a merchant with a row. -/
def writeToken (merchantId : Nat) (row : TokenRow) (db : Db) : Db :=
  { db with tokens := Function.update db.tokens merchantId (some row) }

/-! ## The system -/

inductive Pc
  | idle
  -- the merchant id that was read
  | ensuring (existing : Option Nat)
  | approving (application : Nat) (existing : Option Nat)
  | rejecting (application : Nat)
  | ended
  deriving DecidableEq, Repr

/-- A token that an approval returned. -/
structure Approval where
  application : Nat
  merchantId : Nat
  token : String
  deriving DecidableEq, Repr

structure System (ρ : Type) where
  db : Db
  pc : ρ → Pc
  nextMerchant : Nat
  -- not stored: the merchant ids that the account has had, and those that were returned for it
  ids : List Nat
  returned : List Nat
  -- not stored: the applications that were decided
  decided : List Nat
  -- not stored: the approvals behind which no rotation, revocation or approval of another
  -- application has come
  standing : List Approval

variable {ρ : Type} [DecidableEq ρ]

/-- The approvals that stand beside one of `application`. -/
def besides (application merchantId : Nat) (standing : List Approval) : List Approval :=
  standing.filter fun x => x.merchantId ≠ merchantId || x.application = application

def without (merchantId : Nat) (standing : List Approval) : List Approval :=
  standing.filter fun x => x.merchantId ≠ merchantId

inductive Event (ρ : Type)
  | fills (r : ρ)
  | approves (r : ρ)
  | rejects (r : ρ)
  | other

inductive Step : Event ρ → System ρ → System ρ → Prop
  | ensureReads {s : System ρ} {r : ρ} (hpc : s.pc r = .idle) :
      Step .other s { s with pc := Function.update s.pc r (.ensuring s.db.merchantId) }
  | returns {s : System ρ} {r : ρ} {merchantId : Nat} (hpc : s.pc r = .ensuring (some merchantId)) :
      Step .other s
        { s with
          pc := Function.update s.pc r .ended
          returned := merchantId :: s.returned }
  -- the id is returned whether or not the update has met its guard
  | fills {s : System ρ} {r : ρ} (hpc : s.pc r = .ensuring none) :
      Step (.fills r) s
        { s with
          db := fillMerchantId s.nextMerchant s.db
          pc := Function.update s.pc r .ended
          nextMerchant := s.nextMerchant + 1
          ids := if s.db.merchantId = none then s.nextMerchant :: s.ids else s.ids
          returned := s.nextMerchant :: s.returned }
  | approveReads {s : System ρ} {r : ρ} {application : Nat} (hpc : s.pc r = .idle)
      (hpending : s.db.applications application = some .pending) :
      Step .other s
        { s with pc := Function.update s.pc r (.approving application s.db.merchantId) }
  -- neither update has a condition on what was read
  | approves {s : System ρ} {r : ρ} {application : Nat} {existing : Option Nat} (token : String)
      (hpc : s.pc r = .approving application existing) :
      Step (.approves r) s
        { s with
          db := approveApplication application (existing.getD s.nextMerchant) token s.db
          pc := Function.update s.pc r .ended
          nextMerchant := s.nextMerchant + 1
          ids := existing.getD s.nextMerchant :: s.ids
          returned := existing.getD s.nextMerchant :: s.returned
          decided := application :: s.decided
          standing := ⟨application, existing.getD s.nextMerchant, token⟩ ::
            besides application (existing.getD s.nextMerchant) s.standing }
  | rejectReads {s : System ρ} {r : ρ} {application : Nat} (hpc : s.pc r = .idle)
      (hpending : s.db.applications application = some .pending) :
      Step .other s { s with pc := Function.update s.pc r (.rejecting application) }
  | rejects {s : System ρ} {r : ρ} {application : Nat} (hpc : s.pc r = .rejecting application) :
      Step (.rejects r) s
        { s with
          db := rejectApplication application s.db
          pc := Function.update s.pc r .ended
          decided := application :: s.decided }
  | applies {s : System ρ} {application : Nat} (hnew : s.db.applications application = none) :
      Step .other s
        { s with
          db := { s.db with
            applications := Function.update s.db.applications application (some .pending) } }
  | writesToken {s : System ρ} {merchantId : Nat} (row : TokenRow)
      (hrow : s.db.tokens merchantId ≠ none) :
      Step .other s
        { s with
          db := writeToken merchantId row s.db
          standing := without merchantId s.standing }

/-- No request under way; the account may have a merchant already. -/
def Started (s : System ρ) : Prop :=
  (∀ r, s.pc r = .idle) ∧ s.ids = s.db.merchantId.toList ∧ s.returned = [] ∧ s.decided = [] ∧ s.standing = []

/-- The account has one merchant, which all operations return; applications are decided once; and a
token that was returned is active while its approval stands. -/
structure Coherent (s : System ρ) : Prop where
  stable : ∀ id ∈ s.ids, s.db.merchantId = some id
  returned : ∀ id ∈ s.returned, s.db.merchantId = some id
  once : s.decided.Nodup
  tokens : ∀ x ∈ s.standing, s.db.tokens x.merchantId = some ⟨x.token, .active⟩

/-- What was read still holds: the account has no merchant yet, or the one that was read, and the
application is pending. -/
def Undisturbed (s : System ρ) : Event ρ → Prop
  | .fills _ => s.db.merchantId = none
  | .approves r => ∀ application existing, s.pc r = .approving application existing →
    s.db.merchantId = existing ∧ s.db.applications application = some .pending
  | .rejects r => ∀ application, s.pc r = .rejecting application →
    s.db.applications application = some .pending
  | .other => True

def AnyStep (s s' : System ρ) : Prop := ∃ event, Step event s s'

def UndisturbedStep (s s' : System ρ) : Prop := ∃ event, Undisturbed s event ∧ Step event s s'

/-! ## The invariant -/

/-- A merchant id that was read is the one of the account. -/
def PcReads (merchantId : Option Nat) : Pc → Prop
  | .ensuring (some id) => merchantId = some id
  | _ => True

structure IdentityInv (s : System ρ) : Prop where
  coherent : Coherent s
  decided : ∀ application ∈ s.decided, ∃ status, s.db.applications application = some status ∧
    status ≠ .pending
  standing : ∀ x ∈ s.standing, x.application ∈ s.decided
  reads : ∀ r, PcReads s.db.merchantId (s.pc r)

theorem identityInv_setPc {s : System ρ} (h : IdentityInv s) {r : ρ} {pc : Pc}
    (hpc : PcReads s.db.merchantId pc) : IdentityInv { s with pc := Function.update s.pc r pc } :=
  ⟨⟨h.coherent.stable, h.coherent.returned, h.coherent.once, h.coherent.tokens⟩, h.decided,
    h.standing, forall_update hpc fun r' _ => h.reads r'⟩

/-- A read that found a merchant stays right when the account has the merchant it had. -/
theorem PcReads.of_none {pc : Pc} (h : PcReads none pc) (merchantId : Option Nat) :
    PcReads merchantId pc := by
  cases pc with
  | ensuring existing =>
    cases existing with
    | none => trivial
    | some id => cases h
  | _ => trivial

theorem identityInv_fills {s : System ρ} (h : IdentityInv s) {r : ρ}
    (hnone : s.db.merchantId = none) :
    IdentityInv
      { s with
        db := fillMerchantId s.nextMerchant s.db
        pc := Function.update s.pc r .ended
        nextMerchant := s.nextMerchant + 1
        ids := if s.db.merchantId = none then s.nextMerchant :: s.ids else s.ids
        returned := s.nextMerchant :: s.returned } := by
  have hfilled : (fillMerchantId s.nextMerchant s.db).merchantId = some s.nextMerchant := by
    rw [fillMerchantId, hnone]
    rfl
  refine ⟨⟨?_, ?_, h.coherent.once, h.coherent.tokens⟩, h.decided, h.standing, ?_⟩
  · intro id hid
    change id ∈ (if s.db.merchantId = none then s.nextMerchant :: s.ids else s.ids) at hid
    rw [if_pos hnone] at hid
    rcases List.mem_cons.mp hid with rfl | hold
    · exact hfilled
    · have hstable := h.coherent.stable id hold
      rw [hnone] at hstable
      cases hstable
  · intro id hid
    rcases List.mem_cons.mp hid with rfl | hold
    · exact hfilled
    · have hreturned := h.coherent.returned id hold
      rw [hnone] at hreturned
      cases hreturned
  · exact forall_update trivial fun r' _ => (hnone ▸ h.reads r').of_none _

theorem mem_besides {application merchantId : Nat} {standing : List Approval} {x : Approval}
    (h : x ∈ besides application merchantId standing) :
    x ∈ standing ∧ (x.merchantId ≠ merchantId ∨ x.application = application) := by
  obtain ⟨hmem, hkept⟩ := List.mem_filter.mp h
  rw [Bool.or_eq_true, decide_eq_true_eq, decide_eq_true_eq] at hkept
  exact ⟨hmem, hkept⟩

/-- A pending application has not been decided. -/
theorem IdentityInv.undecided {s : System ρ} (h : IdentityInv s) {application : Nat}
    (hpending : s.db.applications application = some .pending) : application ∉ s.decided := by
  intro hmem
  obtain ⟨status, hstatus, hne⟩ := h.decided application hmem
  rw [hpending] at hstatus
  exact hne (Option.some.inj hstatus).symm

/-- A decision leaves the other applications as they are. -/
theorem IdentityInv.decided_update {s : System ρ} (h : IdentityInv s) {application : Nat}
    {status : ApplicationStatus} (hstatus : status ≠ .pending) :
    ∀ a ∈ application :: s.decided, ∃ status',
      Function.update s.db.applications application (some status) a = some status' ∧
        status' ≠ .pending := by
  intro a ha
  by_cases heq : a = application
  · subst heq
    exact ⟨status, Function.update_self .., hstatus⟩
  · rw [Function.update_of_ne heq]
    exact h.decided a ((List.mem_cons.mp ha).resolve_left heq)

theorem identityInv_approves {s : System ρ} (h : IdentityInv s) {r : ρ} {application : Nat}
    {existing : Option Nat} (token : String) (hexisting : s.db.merchantId = existing)
    (hpending : s.db.applications application = some .pending) :
    IdentityInv
      { s with
        db := approveApplication application (existing.getD s.nextMerchant) token s.db
        pc := Function.update s.pc r .ended
        nextMerchant := s.nextMerchant + 1
        ids := existing.getD s.nextMerchant :: s.ids
        returned := existing.getD s.nextMerchant :: s.returned
        decided := application :: s.decided
        standing := ⟨application, existing.getD s.nextMerchant, token⟩ ::
          besides application (existing.getD s.nextMerchant) s.standing } := by
  have hkept : ∀ id, s.db.merchantId = some id → existing.getD s.nextMerchant = id := by
    intro id hid
    rw [← hexisting, hid]
    rfl
  refine ⟨⟨?_, ?_, ?_, ?_⟩, h.decided_update (by decide), ?_, ?_⟩
  · intro id hid
    rcases List.mem_cons.mp hid with rfl | hold
    · rfl
    · exact congrArg some (hkept id (h.coherent.stable id hold))
  · intro id hid
    rcases List.mem_cons.mp hid with rfl | hold
    · rfl
    · exact congrArg some (hkept id (h.coherent.returned id hold))
  · exact List.nodup_cons.mpr ⟨h.undecided hpending, h.coherent.once⟩
  · intro x hx
    rcases List.mem_cons.mp hx with rfl | hx
    · exact Function.update_self ..
    · obtain ⟨hmem, hne | hsame⟩ := mem_besides hx
      · exact (Function.update_of_ne hne _ _).trans (h.coherent.tokens x hmem)
      · -- no approval of a pending application stands
        exact absurd (hsame ▸ h.standing x hmem) (h.undecided hpending)
  · intro x hx
    rcases List.mem_cons.mp hx with rfl | hx
    · exact List.mem_cons_self
    · exact List.mem_cons_of_mem _ (h.standing x (mem_besides hx).1)
  · have hreads : ∀ r', PcReads (some (existing.getD s.nextMerchant)) (s.pc r') := by
      intro r'
      have hbefore := h.reads r'
      cases hpc : s.pc r' with
      | ensuring read =>
        cases read with
        | none => trivial
        | some id =>
          rw [hpc] at hbefore
          exact congrArg some (hkept id hbefore)
      | _ => trivial
    exact forall_update trivial fun r' _ => hreads r'

theorem identityInv_rejects {s : System ρ} (h : IdentityInv s) {r : ρ} {application : Nat}
    (hpending : s.db.applications application = some .pending) :
    IdentityInv
      { s with
        db := rejectApplication application s.db
        pc := Function.update s.pc r .ended
        decided := application :: s.decided } :=
  ⟨⟨h.coherent.stable, h.coherent.returned,
      List.nodup_cons.mpr ⟨h.undecided hpending, h.coherent.once⟩, h.coherent.tokens⟩,
    h.decided_update (by decide), fun x hx => List.mem_cons_of_mem _ (h.standing x hx),
    forall_update trivial fun r' _ => h.reads r'⟩

theorem identityInv_applies {s : System ρ} (h : IdentityInv s) {application : Nat}
    (hnew : s.db.applications application = none) :
    IdentityInv
      { s with
        db := { s.db with
          applications := Function.update s.db.applications application (some .pending) } } := by
  refine ⟨⟨h.coherent.stable, h.coherent.returned, h.coherent.once, h.coherent.tokens⟩, ?_,
    h.standing, h.reads⟩
  intro a ha
  obtain ⟨status, hstatus, hne⟩ := h.decided a ha
  have hother : a ≠ application := by
    rintro rfl
    rw [hnew] at hstatus
    cases hstatus
  exact ⟨status, (Function.update_of_ne hother _ _).trans hstatus, hne⟩

theorem identityInv_writesToken {s : System ρ} (h : IdentityInv s) (merchantId : Nat)
    (row : TokenRow) :
    IdentityInv
      { s with
        db := writeToken merchantId row s.db
        standing := without merchantId s.standing } := by
  have hmem : ∀ x ∈ without merchantId s.standing, x ∈ s.standing ∧ x.merchantId ≠ merchantId := by
    intro x hx
    obtain ⟨hmem, hne⟩ := List.mem_filter.mp hx
    exact ⟨hmem, of_decide_eq_true hne⟩
  refine ⟨⟨h.coherent.stable, h.coherent.returned, h.coherent.once, ?_⟩, h.decided,
    fun x hx => h.standing x (hmem x hx).1, h.reads⟩
  intro x hx
  exact (Function.update_of_ne (hmem x hx).2 _ _).trans (h.coherent.tokens x (hmem x hx).1)

theorem identityInv_preserved : Preserves (UndisturbedStep (ρ := ρ)) IdentityInv := by
  rintro s s' ⟨event, hundisturbed, hstep⟩ h
  cases hstep with
  | ensureReads hpc =>
    apply identityInv_setPc h
    cases hid : s.db.merchantId with
    | none => trivial
    | some id => rfl
  | returns hpc =>
    rename_i r merchantId
    have hid : PcReads s.db.merchantId (.ensuring (some merchantId)) := hpc ▸ h.reads r
    refine ⟨⟨h.coherent.stable, ?_, h.coherent.once, h.coherent.tokens⟩, h.decided, h.standing,
      forall_update trivial fun r' _ => h.reads r'⟩
    intro id hmem
    rcases List.mem_cons.mp hmem with rfl | hold
    · exact hid
    · exact h.coherent.returned id hold
  | fills hpc => exact identityInv_fills h hundisturbed
  | approveReads hpc hpending => exact identityInv_setPc h trivial
  | approves token hpc =>
    obtain ⟨hexisting, hpending⟩ := hundisturbed _ _ hpc
    exact identityInv_approves h token hexisting hpending
  | rejectReads hpc hpending => exact identityInv_setPc h trivial
  | rejects hpc => exact identityInv_rejects h (hundisturbed _ hpc)
  | applies hnew => exact identityInv_applies h hnew
  | writesToken row hrow => exact identityInv_writesToken h _ row

theorem identityInv_started (s : System ρ) (h : Started s) : IdentityInv s := by
  obtain ⟨hpc, hids, hreturned, hdecided, hstanding⟩ := h
  refine ⟨⟨?_, ?_, ?_, ?_⟩, ?_, ?_, ?_⟩
  · rw [hids]
    exact fun id hid => Option.mem_toList.mp hid
  · rw [hreturned]
    exact fun id hid => absurd hid List.not_mem_nil
  · rw [hdecided]
    exact List.nodup_nil
  · rw [hstanding]
    exact fun x hx => absurd hx List.not_mem_nil
  · rw [hdecided]
    exact fun a ha => absurd ha List.not_mem_nil
  · rw [hstanding]
    exact fun x hx => absurd hx List.not_mem_nil
  · intro r
    rw [hpc]
    trivial

/-- In every run in which what an operation has read still holds when it writes, the account keeps
one merchant, applications are decided once, and returned tokens are active while they stand. -/
theorem identity_coherent {s : System ρ} (hs : Reachable Started UndisturbedStep s) : Coherent s :=
  (reachable_invariant identityInv_started identityInv_preserved hs).coherent

/-! ## Two sessions that find no merchant -/

def newAccount : System Nat :=
  ⟨⟨none, fun application => if application = 0 then some .pending else none, fun _ => none⟩,
    fun _ => .idle, 7, [], [], [], []⟩

theorem newAccount_started : Started newAccount := ⟨fun _ => rfl, rfl, rfl, rfl, rfl⟩

/-- Both requests have read that there is none. -/
def bothReadNone : System Nat :=
  { newAccount with
    pc := Function.update (Function.update (fun _ => .idle) 0 (.ensuring none)) 1 (.ensuring none) }

theorem bothReadNone_reachable : Reachable Started UndisturbedStep bothReadNone := by
  have hstart : Reachable Started UndisturbedStep newAccount := reachable_init newAccount_started
  have hfirst := reachable_step hstart ⟨.other, trivial, @Step.ensureReads Nat _ _ 0 rfl⟩
  exact reachable_step hfirst ⟨.other, trivial, @Step.ensureReads Nat _ _ 1 rfl⟩

/-- The first has filled the column. -/
def firstFilled : System Nat :=
  { bothReadNone with
    db := fillMerchantId 7 bothReadNone.db
    pc := Function.update bothReadNone.pc 0 .ended
    nextMerchant := 8
    ids := [7]
    returned := [7] }

theorem firstFilled_step : Step (.fills 0) bothReadNone firstFilled :=
  @Step.fills Nat _ bothReadNone 0 rfl

theorem identity_coherent_filled : firstFilled.returned ≠ [] ∧ Coherent firstFilled :=
  ⟨List.cons_ne_nil _ _, identity_coherent
    (reachable_step bothReadNone_reachable ⟨.fills 0, rfl, firstFilled_step⟩)⟩

/-- The second returns an id that the account does not have. -/
theorem unstored_id_returned :
    ¬ ∀ s : System Nat, Reachable Started AnyStep s → Coherent s := by
  intro h
  have hread : Reachable Started AnyStep bothReadNone :=
    reachable_mono (fun ⟨event, _, hstep⟩ => ⟨event, hstep⟩) bothReadNone_reachable
  have hfilled := reachable_step hread ⟨_, firstFilled_step⟩
  have hsecond := reachable_step hfilled ⟨_, @Step.fills Nat _ firstFilled 1 rfl⟩
  exact absurd ((h _ hsecond).returned 8 List.mem_cons_self) (by decide)

end KiwiCatalog.Accounts.MerchantIdentity
