import KiwiCatalog.Lib.Transition
import KiwiCatalog.Lib.Update
import Mathlib.Data.List.Nodup

/-!
# Registration — an account needs a ticket for its address

A code is issued for an address, a ticket is returned for the code, and an account is created for
the ticket.  A verification reads the row of the address and writes it in a later transaction.
Addresses are normalised, and a digest stands for what it is of.  `ρ` names the requests, in any
number.
-/

set_option autoImplicit false
set_option linter.unusedSectionVars false

namespace KiwiCatalog.Accounts.Registration

open Transition
open Update (forall_update)

/-! ## Rows -/

/-- A row of `registration_verifications`: the code and the ticket with the times at which they
expire, where they are not empty. -/
structure Verification where
  code : Option (String × Nat)
  ticket : Option (Nat × Nat)
  deriving DecidableEq, Repr

/-- Fifteen minutes. -/
def registrationTtl : Nat := 900

/-- A day. -/
def keepSeconds : Nat := 86400

/-- `coalesce(nullif(ticket_expires_at, ''), code_expires_at)`. -/
def Verification.expiresAt (row : Verification) : Option Nat :=
  (row.ticket.map Prod.snd).or (row.code.map Prod.snd)

/-- A row that `purge_expired_registrations` keeps. -/
def kept (now : Nat) (row : Verification) : Bool :=
  match row.expiresAt with
  | some expiresAt => !decide (expiresAt + keepSeconds < now)
  -- the empty text is before every time
  | none => false

abbrev Rows := String → Option Verification

def purgeExpiredRegistrations (now : Nat) (rows : Rows) : Rows :=
  fun email => (rows email).filter (kept now)

/-- `start_registration`. -/
def startRegistration (now : Nat) (email code : String) (rows : Rows) : Rows :=
  Function.update rows email (some ⟨some (code, now + registrationTtl), none⟩)

/-- The row that `verify_registration_code` accepts a code for. -/
def acceptsCode (now : Nat) (code : String) (row : Verification) : Bool :=
  row.code.any fun stored => stored.1 = code && !decide (stored.2 < now)

/-- The update of `verify_registration_code`, which no row may be left for. -/
def storeTicket (now : Nat) (email : String) (ticket : Nat) (rows : Rows) : Rows :=
  Function.update rows email
    ((rows email).map fun _ => ⟨none, some (ticket, now + registrationTtl)⟩)

/-- The row that `consume_registration_ticket` deletes. -/
def acceptsTicket (now ticket : Nat) (row : Verification) : Bool :=
  row.ticket.any fun stored => stored.1 = ticket && now < stored.2

def deleteRow (email : String) (rows : Rows) : Rows := Function.update rows email none

/-! ## The system -/

/-- A code that was issued; no two have one number. -/
structure Issue where
  number : Nat
  email : String
  code : String
  expiresAt : Nat
  deriving DecidableEq, Repr

/-- A ticket that was returned, for a code that was read at `readAt`. -/
structure Grant where
  ticket : Nat
  presented : String
  readAt : Nat
  issue : Issue
  deriving DecidableEq, Repr

/-- An account that was created, with the code that was the latest for its address. -/
structure Creation where
  email : String
  ticket : Nat
  latest : Option Issue
  deriving DecidableEq, Repr

inductive Pc
  | idle
  -- no account has the address
  | unregistered (email : String)
  -- the code is the one of the row
  | matched (email code : String) (readAt : Nat) (issue : Issue)
  | ended
  deriving DecidableEq, Repr

structure System (ρ : Type) where
  clock : Nat
  rows : Rows
  accounts : List String
  pc : ρ → Pc
  nextTicket : Nat
  -- not stored: how many codes were issued, and the latest of an address
  issues : Nat
  latest : String → Option Issue
  -- not stored: the tickets returned and the accounts created
  grants : List Grant
  created : List Creation

variable {ρ : Type} [DecidableEq ρ]

inductive Event (ρ : Type)
  | verifies (r : ρ)
  | other

inductive Step : Event ρ → System ρ → System ρ → Prop
  | ticks {s : System ρ} (now : Nat) (h : s.clock ≤ now) : Step .other s { s with clock := now }
  | startReads {s : System ρ} {r : ρ} {email : String} (hpc : s.pc r = .idle)
      (hfree : email ∉ s.accounts) :
      Step .other s { s with pc := Function.update s.pc r (.unregistered email) }
  -- the transaction from the purge to the commit
  | starts {s : System ρ} {r : ρ} {email : String} (code : String)
      (hpc : s.pc r = .unregistered email) :
      Step .other s
        { s with
          rows := startRegistration s.clock email code (purgeExpiredRegistrations s.clock s.rows)
          pc := Function.update s.pc r .ended
          issues := s.issues + 1
          latest := Function.update s.latest email
            (some ⟨s.issues, email, code, s.clock + registrationTtl⟩) }
  | verifyReads {s : System ρ} {r : ρ} {email code : String} {row : Verification} {issue : Issue}
      (hpc : s.pc r = .idle) (hrow : s.rows email = some row)
      (haccepts : acceptsCode s.clock code row = true) (hissue : s.latest email = some issue) :
      Step .other s
        { s with pc := Function.update s.pc r (.matched email code s.clock issue) }
  | verifies {s : System ρ} {r : ρ} {email code : String} {readAt : Nat} {issue : Issue}
      (hpc : s.pc r = .matched email code readAt issue) :
      Step (.verifies r) s
        { s with
          rows := storeTicket s.clock email s.nextTicket s.rows
          pc := Function.update s.pc r .ended
          nextTicket := s.nextTicket + 1
          grants := ⟨s.nextTicket, code, readAt, issue⟩ :: s.grants }
  -- the transaction of `register_account`, from the ticket to the account
  | registers {s : System ρ} {email : String} {ticket : Nat} {row : Verification}
      (hrow : s.rows email = some row) (haccepts : acceptsTicket s.clock ticket row = true)
      (hfree : email ∉ s.accounts) :
      Step .other s
        { s with
          rows := deleteRow email s.rows
          accounts := email :: s.accounts
          created := ⟨email, ticket, s.latest email⟩ :: s.created }

/-- No row and no request under way; some accounts may exist. -/
def Started (s : System ρ) : Prop :=
  (∀ email, s.rows email = none) ∧ (∀ r, s.pc r = .idle) ∧ s.grants = [] ∧ s.created = []

/-! ## What a ticket is good for -/

/-- The account was created for a ticket that was returned for the latest code of its address. -/
def Earned (grants : List Grant) (c : Creation) : Prop :=
  ∃ g ∈ grants, g.ticket = c.ticket ∧ c.latest = some g.issue ∧ g.issue.email = c.email ∧
    g.presented = g.issue.code ∧ g.readAt ≤ g.issue.expiresAt

/-- Every account was created so, and no two for one ticket. -/
structure Protected (s : System ρ) : Prop where
  earned : ∀ c ∈ s.created, Earned s.grants c
  once : (s.created.map Creation.ticket).Nodup

/-- No code has been issued for the address since the verification has read its row. -/
def Undisturbed (s : System ρ) : Event ρ → Prop
  | .verifies r => ∀ email code readAt issue, s.pc r = .matched email code readAt issue →
    s.latest email = some issue
  | .other => True

def AnyStep (s s' : System ρ) : Prop := ∃ event, Step event s s'

def UndisturbedStep (s s' : System ρ) : Prop := ∃ event, Undisturbed s event ∧ Step event s s'

/-! ## The invariant -/

/-- The code of a row is the latest one of the address. -/
def CodeIsLatest (latest : String → Option Issue) (email : String) (row : Verification) : Prop :=
  ∀ stored, row.code = some stored → ∃ issue, latest email = some issue ∧
    issue.email = email ∧ issue.code = stored.1 ∧ issue.expiresAt = stored.2

/-- The ticket of a row was returned for the latest code, and no account was created for it. -/
def TicketIsLatest (s : System ρ) (email : String) (row : Verification) : Prop :=
  ∀ stored, row.ticket = some stored →
    (∃ g ∈ s.grants, g.ticket = stored.1 ∧ s.latest email = some g.issue ∧ g.issue.email = email ∧
      g.presented = g.issue.code ∧ g.readAt ≤ g.issue.expiresAt) ∧
    ∀ c ∈ s.created, c.ticket ≠ stored.1

/-- A verification has matched the code of its issue. -/
def PcMatched : Pc → Prop
  | .matched email code readAt issue =>
    issue.email = email ∧ issue.code = code ∧ readAt ≤ issue.expiresAt
  | _ => True

structure RegistrationInv (s : System ρ) : Prop where
  codes : ∀ email row, s.rows email = some row → CodeIsLatest s.latest email row
  tickets : ∀ email row, s.rows email = some row → TicketIsLatest s email row
  matched : ∀ r, PcMatched (s.pc r)
  fresh : ∀ g ∈ s.grants, g.ticket < s.nextTicket
  distinct : (s.grants.map Grant.ticket).Nodup
  createdFresh : ∀ c ∈ s.created, c.ticket < s.nextTicket
  prot : Protected s

theorem acceptsCode_some {now : Nat} {code : String} {row : Verification}
    (h : acceptsCode now code row = true) :
    ∃ expiresAt, row.code = some (code, expiresAt) ∧ now ≤ expiresAt := by
  unfold acceptsCode at h
  obtain ⟨stored, hstored, hmatch⟩ := Option.any_eq_true .. |>.mp h
  rw [Bool.and_eq_true, decide_eq_true_eq, Bool.not_eq_true', decide_eq_false_iff_not] at hmatch
  refine ⟨stored.2, ?_, by omega⟩
  rw [hstored, ← hmatch.1]

theorem acceptsTicket_some {now ticket : Nat} {row : Verification}
    (h : acceptsTicket now ticket row = true) :
    ∃ expiresAt, row.ticket = some (ticket, expiresAt) := by
  unfold acceptsTicket at h
  obtain ⟨stored, hstored, hmatch⟩ := Option.any_eq_true .. |>.mp h
  rw [Bool.and_eq_true, decide_eq_true_eq] at hmatch
  refine ⟨stored.2, ?_⟩
  rw [hstored, ← hmatch.1]

theorem Earned.mono {grants grants' : List Grant} (h : ∀ g ∈ grants, g ∈ grants') {c : Creation}
    (hc : Earned grants c) : Earned grants' c := by
  obtain ⟨g, hg, hrest⟩ := hc
  exact ⟨g, h g hg, hrest⟩

/-- Two returned tickets of one value are one. -/
theorem grant_unique {s : System ρ} (h : RegistrationInv s) {g g' : Grant} (hg : g ∈ s.grants)
    (hg' : g' ∈ s.grants) (hticket : g.ticket = g'.ticket) : g = g' :=
  List.inj_on_of_nodup_map h.distinct hg hg' hticket

theorem registrationInv_setPc {s : System ρ} (h : RegistrationInv s) {r : ρ} {pc : Pc}
    (hpc : PcMatched pc) : RegistrationInv { s with pc := Function.update s.pc r pc } where
  codes := h.codes
  tickets := h.tickets
  matched := forall_update hpc fun r' _ => h.matched r'
  fresh := h.fresh
  distinct := h.distinct
  createdFresh := h.createdFresh
  prot := ⟨h.prot.earned, h.prot.once⟩

/-- A new code takes the ticket of its address away. -/
theorem registrationInv_starts {s : System ρ} (h : RegistrationInv s) {r : ρ}
    {email code : String} :
    RegistrationInv
      { s with
        rows := startRegistration s.clock email code (purgeExpiredRegistrations s.clock s.rows)
        pc := Function.update s.pc r .ended
        issues := s.issues + 1
        latest := Function.update s.latest email
          (some ⟨s.issues, email, code, s.clock + registrationTtl⟩) } := by
  have hrows : ∀ email' row, startRegistration s.clock email code
      (purgeExpiredRegistrations s.clock s.rows) email' = some row →
      (email' = email ∧ row = ⟨some (code, s.clock + registrationTtl), none⟩) ∨
        (email' ≠ email ∧ s.rows email' = some row) := by
    intro email' row hrow
    by_cases heq : email' = email
    · subst heq
      rw [startRegistration, Function.update_self] at hrow
      exact Or.inl ⟨rfl, (Option.some.inj hrow).symm⟩
    · rw [startRegistration, Function.update_of_ne heq] at hrow
      exact Or.inr ⟨heq, (Option.filter_eq_some_iff.mp hrow).1⟩
  refine ⟨?_, ?_, forall_update trivial fun r' _ => h.matched r', h.fresh, h.distinct,
    h.createdFresh, ⟨h.prot.earned, h.prot.once⟩⟩
  · intro email' row hrow stored hstored
    rcases hrows email' row hrow with ⟨rfl, rfl⟩ | ⟨hne, hold⟩
    · cases hstored
      exact ⟨_, Function.update_self .., rfl, rfl, rfl⟩
    · obtain ⟨issue, hissue, hrest⟩ := h.codes email' row hold stored hstored
      exact ⟨issue, (Function.update_of_ne hne _ _).trans hissue, hrest⟩
  · intro email' row hrow stored hstored
    rcases hrows email' row hrow with ⟨rfl, rfl⟩ | ⟨hne, hold⟩
    · cases hstored
    · obtain ⟨⟨g, hg, hticket, hlatest, hrest⟩, hcreated⟩ := h.tickets email' row hold stored hstored
      exact ⟨⟨g, hg, hticket, (Function.update_of_ne hne _ _).trans hlatest, hrest⟩, hcreated⟩

/-- The ticket of an undisturbed verification is for the latest code. -/
theorem registrationInv_verifies {s : System ρ} (h : RegistrationInv s) {r : ρ}
    {email code : String} {readAt : Nat} {issue : Issue}
    (hpc : s.pc r = .matched email code readAt issue) (hlatest : s.latest email = some issue) :
    RegistrationInv
      { s with
        rows := storeTicket s.clock email s.nextTicket s.rows
        pc := Function.update s.pc r .ended
        nextTicket := s.nextTicket + 1
        grants := ⟨s.nextTicket, code, readAt, issue⟩ :: s.grants } := by
  have hmatched : PcMatched (.matched email code readAt issue) := hpc ▸ h.matched r
  obtain ⟨hemail, hcode, hread⟩ := hmatched
  have hrows : ∀ email' row, storeTicket s.clock email s.nextTicket s.rows email' = some row →
      (email' = email ∧ row = ⟨none, some (s.nextTicket, s.clock + registrationTtl)⟩) ∨
        (email' ≠ email ∧ s.rows email' = some row) := by
    intro email' row hrow
    by_cases heq : email' = email
    · subst heq
      rw [storeTicket, Function.update_self] at hrow
      obtain ⟨_, -, rfl⟩ := Option.map_eq_some_iff.mp hrow
      exact Or.inl ⟨rfl, rfl⟩
    · rw [storeTicket, Function.update_of_ne heq] at hrow
      exact Or.inr ⟨heq, hrow⟩
  refine ⟨?_, ?_, forall_update trivial fun r' _ => h.matched r', ?_, ?_, ?_, ?_, h.prot.once⟩
  · intro email' row hrow stored hstored
    rcases hrows email' row hrow with ⟨rfl, rfl⟩ | ⟨-, hold⟩
    · cases hstored
    · exact h.codes email' row hold stored hstored
  · intro email' row hrow stored hstored
    rcases hrows email' row hrow with ⟨rfl, rfl⟩ | ⟨-, hold⟩
    · cases hstored
      refine ⟨⟨_, List.mem_cons_self, rfl, hlatest, hemail, hcode.symm, hread⟩, fun c hc => ?_⟩
      exact Nat.ne_of_lt (h.createdFresh c hc)
    · obtain ⟨⟨g, hg, hrest⟩, hcreated⟩ := h.tickets email' row hold stored hstored
      exact ⟨⟨g, List.mem_cons_of_mem _ hg, hrest⟩, hcreated⟩
  · intro g hg
    rcases List.mem_cons.mp hg with rfl | hold
    · exact Nat.lt_succ_self _
    · exact Nat.lt_succ_of_lt (h.fresh g hold)
  · show (s.nextTicket :: s.grants.map Grant.ticket).Nodup
    refine List.nodup_cons.mpr ⟨fun hmem => ?_, h.distinct⟩
    obtain ⟨g, hg, hticket⟩ := List.mem_map.mp hmem
    exact absurd hticket (Nat.ne_of_lt (h.fresh g hg))
  · exact fun c hc => Nat.lt_succ_of_lt (h.createdFresh c hc)
  · exact fun c hc => (h.prot.earned c hc).mono fun g hg => List.mem_cons_of_mem _ hg

/-- The row goes with its ticket. -/
theorem registrationInv_registers {s : System ρ} (h : RegistrationInv s) {email : String}
    {ticket : Nat} {row : Verification} (hrow : s.rows email = some row)
    (haccepts : acceptsTicket s.clock ticket row = true) :
    RegistrationInv
      { s with
        rows := deleteRow email s.rows
        accounts := email :: s.accounts
        created := ⟨email, ticket, s.latest email⟩ :: s.created } := by
  obtain ⟨expiresAt, hticket⟩ := acceptsTicket_some haccepts
  obtain ⟨⟨g, hg, hgticket, hlatest, hemail, hpresented, hread⟩, hunused⟩ :=
    h.tickets email row hrow _ hticket
  have hrows : ∀ email' row', deleteRow email s.rows email' = some row' →
      email' ≠ email ∧ s.rows email' = some row' := by
    intro email' row' hrow'
    by_cases heq : email' = email
    · subst heq
      rw [deleteRow, Function.update_self] at hrow'
      cases hrow'
    · rw [deleteRow, Function.update_of_ne heq] at hrow'
      exact ⟨heq, hrow'⟩
  refine ⟨fun email' row' hrow' => h.codes email' row' (hrows email' row' hrow').2, ?_, h.matched,
    h.fresh, h.distinct, ?_, ?_, ?_⟩
  · intro email' row' hrow' stored hstored
    obtain ⟨hne, hold⟩ := hrows email' row' hrow'
    obtain ⟨⟨g', hg', hticket', hlatest', hemail', hrest⟩, hcreated⟩ :=
      h.tickets email' row' hold stored hstored
    refine ⟨⟨g', hg', hticket', hlatest', hemail', hrest⟩, fun c hc => ?_⟩
    rcases List.mem_cons.mp hc with rfl | hc
    · -- a ticket is for one address
      intro hsame
      have hgrant := grant_unique h hg hg' (by rw [hgticket, hticket']; exact hsame)
      exact hne (by rw [← hemail', ← hgrant, hemail])
    · exact hcreated c hc
  · intro c hc
    rcases List.mem_cons.mp hc with rfl | hc
    · show ticket < s.nextTicket
      rw [← show g.ticket = ticket from hgticket]
      exact h.fresh g hg
    · exact h.createdFresh c hc
  · intro c hc
    rcases List.mem_cons.mp hc with rfl | hc
    · exact ⟨g, hg, hgticket, hlatest, hemail, hpresented, hread⟩
    · exact h.prot.earned c hc
  · show (ticket :: s.created.map Creation.ticket).Nodup
    refine List.nodup_cons.mpr ⟨fun hmem => ?_, h.prot.once⟩
    obtain ⟨c, hc, hsame⟩ := List.mem_map.mp hmem
    exact hunused c hc hsame

theorem registrationInv_preserved :
    Preserves (UndisturbedStep (ρ := ρ)) RegistrationInv := by
  rintro s s' ⟨event, hundisturbed, hstep⟩ h
  cases hstep with
  | ticks now hle =>
    exact ⟨h.codes, h.tickets, h.matched, h.fresh, h.distinct, h.createdFresh,
      ⟨h.prot.earned, h.prot.once⟩⟩
  | startReads hpc hfree => exact registrationInv_setPc h trivial
  | starts code hpc => exact registrationInv_starts h
  | verifyReads hpc hrow haccepts hissue =>
    obtain ⟨expiresAt, hcode, hle⟩ := acceptsCode_some haccepts
    obtain ⟨issue', hissue', hemail, hsame, hexpires⟩ := h.codes _ _ hrow _ hcode
    rw [hissue] at hissue'
    cases hissue'
    exact registrationInv_setPc h ⟨hemail, hsame, hexpires ▸ hle⟩
  | verifies hpc => exact registrationInv_verifies h hpc (hundisturbed _ _ _ _ hpc)
  | registers hrow haccepts hfree => exact registrationInv_registers h hrow haccepts

theorem registrationInv_started (s : System ρ) (h : Started s) : RegistrationInv s := by
  obtain ⟨hrows, hpc, hgrants, hcreated⟩ := h
  constructor
  · intro email row hrow
    rw [hrows] at hrow
    cases hrow
  · intro email row hrow
    rw [hrows] at hrow
    cases hrow
  · intro r
    rw [hpc]
    trivial
  · intro g hg
    rw [hgrants] at hg
    cases hg
  · rw [hgrants]
    exact List.nodup_nil
  · intro c hc
    rw [hcreated] at hc
    cases hc
  · refine ⟨fun c hc => ?_, ?_⟩
    · rw [hcreated] at hc
      cases hc
    · rw [hcreated]
      exact List.nodup_nil

/-- In every run in which no code is issued for an address between the read and the update of a
verification of that address, accounts are created for tickets of the latest code only. -/
theorem registrations_protected {s : System ρ} (hs : Reachable Started UndisturbedStep s) :
    Protected s :=
  (reachable_invariant registrationInv_started registrationInv_preserved hs).prot

/-! ## A code that is sent again while the first is verified -/

def emptyRegistrations : System Nat where
  clock := 0
  rows _ := none
  accounts := []
  pc _ := .idle
  nextTicket := 0
  issues := 0
  latest _ := none
  grants := []
  created := []

theorem emptyRegistrations_started : Started emptyRegistrations :=
  ⟨fun _ => rfl, fun _ => rfl, rfl, rfl⟩

/-- A code is issued and read back. -/
theorem first_code_matched :
    ∃ s : System Nat, Reachable Started UndisturbedStep s ∧
      s.pc 1 = .matched "a@b.c" "111111" 0 ⟨0, "a@b.c", "111111", 900⟩ ∧
      s.latest "a@b.c" = some ⟨0, "a@b.c", "111111", 900⟩ ∧ s.pc 2 = .idle ∧ s.accounts = [] ∧
      s.created = [] ∧ s.grants = [] ∧ s.clock = 0 ∧ s.nextTicket = 0 ∧ s.issues = 1 ∧
      s.rows "a@b.c" = some ⟨some ("111111", 900), none⟩ := by
  have hstart : Reachable Started UndisturbedStep emptyRegistrations :=
    reachable_init emptyRegistrations_started
  have hchecked := reachable_step hstart ⟨.other, trivial,
    @Step.startReads Nat _ _ 0 "a@b.c" rfl List.not_mem_nil⟩
  have hissued := reachable_step hchecked ⟨.other, trivial,
    @Step.starts Nat _ _ 0 "a@b.c" "111111" rfl⟩
  have hread := reachable_step hissued ⟨.other, trivial,
    @Step.verifyReads Nat _ _ 1 "a@b.c" "111111" ⟨some ("111111", 900), none⟩
      ⟨0, "a@b.c", "111111", 900⟩ rfl rfl rfl rfl⟩
  exact ⟨_, hread, rfl, rfl, rfl, rfl, rfl, rfl, rfl, rfl, rfl, rfl⟩

theorem registrations_protected_first :
    ∃ s : System Nat, s.created ≠ [] ∧ Protected s := by
  obtain ⟨s, hs, hpc, hlatest, -, haccounts, -, -, hclock, hticket, -, hrow⟩ := first_code_matched
  have hundisturbed : Undisturbed s (.verifies 1) := by
    intro email code readAt issue hmatched
    rw [hpc] at hmatched
    cases hmatched
    exact hlatest
  have hverified := reachable_step hs ⟨_, hundisturbed, .verifies hpc⟩
  have hstored : storeTicket s.clock "a@b.c" s.nextTicket s.rows "a@b.c" =
      some ⟨none, some (0, 900)⟩ := by
    rw [storeTicket, Function.update_self, hrow, hclock, hticket]
    rfl
  have haccepts : acceptsTicket s.clock 0 ⟨none, some (0, 900)⟩ = true := by
    rw [hclock]
    rfl
  have hfree : "a@b.c" ∉ s.accounts := by
    rw [haccounts]
    exact List.not_mem_nil
  have hregistered := reachable_step hverified ⟨.other, trivial,
    @Step.registers Nat _ _ "a@b.c" 0 _ hstored haccepts hfree⟩
  exact ⟨_, List.cons_ne_nil _ _, registrations_protected hregistered⟩

/-- The verification stores its ticket over the code that was sent again: the account is created for
the first code. -/
theorem stale_ticket_accepted :
    ¬ ∀ s : System Nat, Reachable Started AnyStep s → Protected s := by
  intro h
  obtain ⟨s, hs, hpc, -, hidle, haccounts, -, hgrants, hclock, hticket, hissues, hrow⟩ :=
    first_code_matched
  have hfree : "a@b.c" ∉ s.accounts := by
    rw [haccounts]
    exact List.not_mem_nil
  have hany : Reachable Started AnyStep s :=
    reachable_mono (fun ⟨event, _, hstep⟩ => ⟨event, hstep⟩) hs
  have hchecked := reachable_step hany ⟨_, .startReads hidle hfree⟩
  have hpc₂ : Function.update s.pc 2 (.unregistered "a@b.c") 2 = .unregistered "a@b.c" :=
    Function.update_self ..
  have hissued := reachable_step hchecked ⟨_, @Step.starts Nat _ _ 2 "a@b.c" "222222" hpc₂⟩
  have hpc' : (Function.update (Function.update s.pc 2 (.unregistered "a@b.c")) 2 .ended) 1 =
      .matched "a@b.c" "111111" 0 ⟨0, "a@b.c", "111111", 900⟩ := hpc
  have hverified := reachable_step hissued ⟨_, @Step.verifies Nat _ _ 1 _ _ _ _ hpc'⟩
  have hstored : storeTicket s.clock "a@b.c" s.nextTicket
      (startRegistration s.clock "a@b.c" "222222" (purgeExpiredRegistrations s.clock s.rows))
        "a@b.c" = some ⟨none, some (0, 900)⟩ := by
    rw [storeTicket, Function.update_self, startRegistration, Function.update_self, hclock, hticket]
    rfl
  have haccepts : acceptsTicket s.clock 0 ⟨none, some (0, 900)⟩ = true := by
    rw [hclock]
    rfl
  have hregistered := reachable_step hverified ⟨_,
    @Step.registers Nat _ _ "a@b.c" 0 _ hstored haccepts hfree⟩
  obtain ⟨g, hg, -, hlatest, -⟩ := (h _ hregistered).earned _ List.mem_cons_self
  have honly : g ∈ [(⟨s.nextTicket, "111111", 0, ⟨0, "a@b.c", "111111", 900⟩⟩ : Grant)] := by
    rw [← hgrants]
    exact hg
  rw [List.mem_singleton.mp honly] at hlatest
  -- the latest issue is the second
  have hnumber : (1 : Nat) = 0 := by
    rw [← hissues]
    exact congrArg Issue.number (Option.some.inj hlatest)
  exact absurd hnumber (by decide)

end KiwiCatalog.Accounts.Registration
