import KiwiCatalog.Lib.Transition
import KiwiCatalog.Lib.Update
import Mathlib.Data.List.Nodup

/-!
# Password reset — codes, passwords and the sessions they give

One account under any number of requests, which `ρ` names.  A reset, a login and a verification of
the address read the account, and write it in a later transaction.  A digest or a hash stands for
what it is of.
-/

set_option autoImplicit false
set_option linter.unusedSectionVars false

namespace KiwiCatalog.Accounts.PasswordReset

open Transition
open Update (forall_update)

/-! ## The account -/

/-- A code that was issued; no two have one number. -/
structure ResetCode where
  number : Nat
  code : String
  expiresAt : Nat
  deriving DecidableEq, Repr

/-- A password; its number says how many were before it. -/
structure Password where
  number : Nat
  text : String
  deriving DecidableEq, Repr

/-- What a session was issued on. -/
inductive Strength
  | password (number : Nat)
  | emailCode
  deriving DecidableEq, Repr

structure Session where
  token : Nat
  strength : Strength
  expiresAt : Nat
  deriving DecidableEq, Repr

/-- The row of `merchant_accounts` and its sessions. -/
structure Account where
  password : Password
  active : Bool
  emailVerified : Bool
  -- the two pairs of columns, where they are not empty
  resetCode : Option ResetCode
  verificationCode : Option (String × Nat)
  sessions : List Session
  deriving DecidableEq, Repr

/-- Fifteen minutes. -/
def codeTtl : Nat := 900

/-- Seven days. -/
def sessionTtl : Nat := 604800

/-- `issue_password_reset`. -/
def issuePasswordReset (now number : Nat) (code : String) (a : Account) : Account :=
  { a with resetCode := some ⟨number, code, now + codeTtl⟩ }

/-- What `reset_password` checks. -/
def acceptsReset (now : Nat) (code : String) (stored : ResetCode) : Bool :=
  stored.code = code && !decide (stored.expiresAt < now)

/-- What it writes. -/
def resetPassword (newPassword : String) (a : Account) : Account :=
  { a with
    password := ⟨a.password.number + 1, newPassword⟩
    emailVerified := true
    resetCode := none
    sessions := [] }

/-- `authenticate`, and the check of the address behind it. -/
def authenticates (password : String) (a : Account) : Bool :=
  a.password.text = password && a.active && a.emailVerified

/-- `create_session`. -/
def createSession (now token : Nat) (strength : Strength) (a : Account) : Account :=
  { a with sessions := a.sessions ++ [⟨token, strength, now + sessionTtl⟩] }

/-- What `verify_email` and `verify_email_code` check. -/
def acceptsEmailCode (now : Nat) (code : String) (a : Account) : Bool :=
  !a.emailVerified && a.verificationCode.any fun stored =>
    stored.1 = code && !decide (stored.2 < now)

/-- What `verify_email_code` writes. -/
def verifyEmailCode (a : Account) : Account :=
  { a with emailVerified := true, verificationCode := none }

/-- A session that resolves to the account. -/
def resolves (now : Nat) (session : Session) : Bool := !decide (session.expiresAt < now)

/-! ## The system -/

inductive Pc
  | idle
  -- the code is the one of the row
  | resetting (newPassword presented : String) (readAt : Nat) (code : ResetCode)
  -- the password is the one of the row
  | loggingIn (password : Password)
  | verifying
  | ended
  deriving DecidableEq, Repr

/-- A reset that reported success, with the number of the latest code at its commit. -/
structure Reset where
  presented : String
  readAt : Nat
  code : ResetCode
  latest : Nat
  deriving DecidableEq, Repr

structure System (ρ : Type) where
  clock : Nat
  account : Account
  pc : ρ → Pc
  nextToken : Nat
  -- not stored: how many codes were issued
  issues : Nat
  -- not stored: the resets that reported success
  resets : List Reset

variable {ρ : Type} [DecidableEq ρ]

inductive Event (ρ : Type)
  | resets (r : ρ)
  | logsIn (r : ρ)
  | other

inductive Step : Event ρ → System ρ → System ρ → Prop
  | ticks {s : System ρ} (now : Nat) (h : s.clock ≤ now) : Step .other s { s with clock := now }
  -- the only read before the update finds the account
  | forgets {s : System ρ} (code : String) :
      Step .other s
        { s with
          account := issuePasswordReset s.clock (s.issues + 1) code s.account
          issues := s.issues + 1 }
  | resetReads {s : System ρ} {r : ρ} {code newPassword : String} {stored : ResetCode}
      (hpc : s.pc r = .idle) (hstored : s.account.resetCode = some stored)
      (haccepts : acceptsReset s.clock code stored = true) :
      Step .other s
        { s with pc := Function.update s.pc r (.resetting newPassword code s.clock stored) }
  -- the update has no condition on the code
  | resets {s : System ρ} {r : ρ} {newPassword presented : String} {readAt : Nat}
      {code : ResetCode} (hpc : s.pc r = .resetting newPassword presented readAt code) :
      Step (.resets r) s
        { s with
          account := resetPassword newPassword s.account
          pc := Function.update s.pc r .ended
          resets := ⟨presented, readAt, code, s.issues⟩ :: s.resets }
  | loginReads {s : System ρ} {r : ρ} {password : String} (hpc : s.pc r = .idle)
      (hauth : authenticates password s.account = true) :
      Step .other s
        { s with pc := Function.update s.pc r (.loggingIn s.account.password) }
  | logsIn {s : System ρ} {r : ρ} {password : Password} (hpc : s.pc r = .loggingIn password) :
      Step (.logsIn r) s
        { s with
          account := createSession s.clock s.nextToken (.password password.number) s.account
          pc := Function.update s.pc r .ended
          nextToken := s.nextToken + 1 }
  | verifyReads {s : System ρ} {r : ρ} {code : String} (hpc : s.pc r = .idle)
      (haccepts : acceptsEmailCode s.clock code s.account = true) :
      Step .other s { s with pc := Function.update s.pc r .verifying }
  | verifies {s : System ρ} {r : ρ} (hpc : s.pc r = .verifying) :
      Step .other s
        { s with
          account := createSession s.clock s.nextToken .emailCode (verifyEmailCode s.account)
          pc := Function.update s.pc r .ended
          nextToken := s.nextToken + 1 }
  -- `issue_verification`
  | sendsCode {s : System ρ} (code : String) :
      Step .other s
        { s with account := { s.account with verificationCode := some (code, s.clock + codeTtl) } }
  -- a logout, or a session that is found expired
  | endsSession {s : System ρ} (session : Session) :
      Step .other s
        { s with account := { s.account with sessions := s.account.sessions.erase session } }
  | setsStatus {s : System ρ} (active : Bool) :
      Step .other s { s with account := { s.account with active := active } }

/-- An account without sessions and reset codes, and no request under way. -/
def Started (s : System ρ) : Prop :=
  s.account.sessions = [] ∧ s.account.resetCode = none ∧ (∀ r, s.pc r = .idle) ∧ s.resets = []

/-! ## What a reset is good for -/

/-- The reset presented the code that was issued last, before it expired. -/
structure Reset.Earned (x : Reset) : Prop where
  presented : x.presented = x.code.code
  latest : x.code.number = x.latest
  unexpired : x.readAt ≤ x.code.expiresAt

/-- Resets are earned, each by another code, and the sessions that were issued on a password were
issued on the present one. -/
structure Protected (s : System ρ) : Prop where
  earned : ∀ x ∈ s.resets, x.Earned
  once : (s.resets.map fun x => x.code.number).Nodup
  sessions : ∀ session ∈ s.account.sessions, resolves s.clock session = true →
    ∀ n, session.strength = .password n → n = s.account.password.number

/-- The row still has the code that the reset has read, or the password that the login has. -/
def Undisturbed (s : System ρ) : Event ρ → Prop
  | .resets r => ∀ newPassword presented readAt code,
    s.pc r = .resetting newPassword presented readAt code → s.account.resetCode = some code
  | .logsIn r => ∀ password, s.pc r = .loggingIn password → s.account.password = password
  | .other => True

def AnyStep (s s' : System ρ) : Prop := ∃ event, Step event s s'

def UndisturbedStep (s s' : System ρ) : Prop := ∃ event, Undisturbed s event ∧ Step event s s'

/-! ## The invariant -/

def PcMatched : Pc → Prop
  | .resetting _ presented readAt code => presented = code.code ∧ readAt ≤ code.expiresAt
  | _ => True

structure ResetInv (s : System ρ) : Prop where
  -- the code of the row is the latest one, and has not been used
  latest : ∀ code, s.account.resetCode = some code →
    code.number = s.issues ∧ ∀ x ∈ s.resets, x.code.number ≠ code.number
  bounded : ∀ x ∈ s.resets, x.code.number ≤ s.issues
  matched : ∀ r, PcMatched (s.pc r)
  earned : ∀ x ∈ s.resets, x.Earned
  once : (s.resets.map fun x => x.code.number).Nodup
  sessions : ∀ session ∈ s.account.sessions, ∀ n, session.strength = .password n →
    n = s.account.password.number

theorem ResetInv.prot {s : System ρ} (h : ResetInv s) : Protected s :=
  ⟨h.earned, h.once, fun session hmem _ => h.sessions session hmem⟩

theorem resetInv_setPc {s : System ρ} (h : ResetInv s) {r : ρ} {pc : Pc} (hpc : PcMatched pc) :
    ResetInv { s with pc := Function.update s.pc r pc } :=
  ⟨h.latest, h.bounded, forall_update hpc fun r' _ => h.matched r', h.earned, h.once, h.sessions⟩

/-- A new session is on the present password, or on none. -/
theorem resetInv_createSession {s : System ρ} (h : ResetInv s) {r : ρ} {a : Account}
    {strength : Strength} (hcode : a.resetCode = s.account.resetCode)
    (hpassword : a.password = s.account.password) (hsessions : a.sessions = s.account.sessions)
    (hstrength : ∀ n, strength = .password n → n = s.account.password.number) :
    ResetInv
      { s with
        account := createSession s.clock s.nextToken strength a
        pc := Function.update s.pc r .ended
        nextToken := s.nextToken + 1 } where
  latest code hsome := h.latest code (hcode ▸ hsome)
  bounded := h.bounded
  matched := forall_update trivial fun r' _ => h.matched r'
  earned := h.earned
  once := h.once
  sessions session hmem n hn := by
    show n = a.password.number
    rw [hpassword]
    change session ∈ a.sessions ++ _ at hmem
    rw [hsessions, List.mem_append, List.mem_singleton] at hmem
    rcases hmem with hold | rfl
    · exact h.sessions session hold n hn
    · exact hstrength n hn

/-- A write of columns that no reset reads, which adds no session. -/
theorem resetInv_account {s : System ρ} (h : ResetInv s) {a : Account}
    (hcode : a.resetCode = s.account.resetCode) (hpassword : a.password = s.account.password)
    (hsessions : ∀ session ∈ a.sessions, session ∈ s.account.sessions) :
    ResetInv { s with account := a } where
  latest code hsome := h.latest code (hcode ▸ hsome)
  bounded := h.bounded
  matched := h.matched
  earned := h.earned
  once := h.once
  sessions session hmem n hn := by
    show n = a.password.number
    rw [hpassword]
    exact h.sessions session (hsessions session hmem) n hn

theorem resetInv_forgets {s : System ρ} (h : ResetInv s) (code : String) :
    ResetInv
      { s with
        account := issuePasswordReset s.clock (s.issues + 1) code s.account
        issues := s.issues + 1 } where
  latest stored hsome := by
    cases hsome
    -- every code that was used was issued before
    exact ⟨rfl, fun x hx => Nat.ne_of_lt (Nat.lt_succ_of_le (h.bounded x hx))⟩
  bounded x hx := Nat.le_succ_of_le (h.bounded x hx)
  matched := h.matched
  earned := h.earned
  once := h.once
  sessions := h.sessions

theorem resetInv_resets {s : System ρ} (h : ResetInv s) {r : ρ} {newPassword presented : String}
    {readAt : Nat} {code : ResetCode}
    (hpc : s.pc r = .resetting newPassword presented readAt code)
    (hcode : s.account.resetCode = some code) :
    ResetInv
      { s with
        account := resetPassword newPassword s.account
        pc := Function.update s.pc r .ended
        resets := ⟨presented, readAt, code, s.issues⟩ :: s.resets } where
  latest stored hsome := by cases hsome
  bounded x hx := by
    rcases List.mem_cons.mp hx with rfl | hx
    · exact Nat.le_of_eq (h.latest code hcode).1
    · exact h.bounded x hx
  matched := forall_update trivial fun r' _ => h.matched r'
  earned x hx := by
    have hmatched : PcMatched (.resetting newPassword presented readAt code) := hpc ▸ h.matched r
    rcases List.mem_cons.mp hx with rfl | hx
    · exact ⟨hmatched.1, (h.latest code hcode).1, hmatched.2⟩
    · exact h.earned x hx
  once := by
    refine List.nodup_cons.mpr ⟨fun hmem => ?_, h.once⟩
    obtain ⟨x, hx, hsame⟩ := List.mem_map.mp hmem
    exact (h.latest code hcode).2 x hx hsame
  sessions session hmem := by cases hmem

theorem acceptsReset_true {now : Nat} {code : String} {stored : ResetCode}
    (h : acceptsReset now code stored = true) : code = stored.code ∧ now ≤ stored.expiresAt := by
  rw [acceptsReset, Bool.and_eq_true, decide_eq_true_eq, Bool.not_eq_true',
    decide_eq_false_iff_not] at h
  exact ⟨h.1.symm, by omega⟩

theorem resetInv_preserved : Preserves (UndisturbedStep (ρ := ρ)) ResetInv := by
  rintro s s' ⟨event, hundisturbed, hstep⟩ h
  cases hstep with
  | ticks now hle => exact ⟨h.latest, h.bounded, h.matched, h.earned, h.once, h.sessions⟩
  | forgets code => exact resetInv_forgets h code
  | resetReads hpc hstored haccepts => exact resetInv_setPc h (acceptsReset_true haccepts)
  | resets hpc => exact resetInv_resets h hpc (hundisturbed _ _ _ _ hpc)
  | loginReads hpc hauth => exact resetInv_setPc h trivial
  | logsIn hpc =>
    apply resetInv_createSession h rfl rfl rfl
    rintro n ⟨⟩
    rw [hundisturbed _ hpc]
  | verifyReads hpc haccepts => exact resetInv_setPc h trivial
  | verifies hpc =>
    apply resetInv_createSession (a := verifyEmailCode _) h rfl rfl rfl
    rintro n ⟨⟩
  | sendsCode code => exact resetInv_account h rfl rfl fun _ hmem => hmem
  | endsSession session => exact resetInv_account h rfl rfl fun _ hmem => List.mem_of_mem_erase hmem
  | setsStatus active => exact resetInv_account h rfl rfl fun _ hmem => hmem

theorem resetInv_started (s : System ρ) (h : Started s) : ResetInv s := by
  obtain ⟨hsessions, hcode, hpc, hresets⟩ := h
  constructor
  · intro code hsome
    rw [hcode] at hsome
    cases hsome
  · intro x hx
    rw [hresets] at hx
    cases hx
  · intro r
    rw [hpc]
    trivial
  · intro x hx
    rw [hresets] at hx
    cases hx
  · rw [hresets]
    exact List.nodup_nil
  · intro session hmem
    rw [hsessions] at hmem
    cases hmem

/-- In every run whose resets find the code that they have read, and whose logins the password, in
the transaction that writes, resets are earned and end the sessions of earlier passwords. -/
theorem resets_protected {s : System ρ} (hs : Reachable Started UndisturbedStep s) : Protected s :=
  (reachable_invariant resetInv_started resetInv_preserved hs).prot

/-! ## A login whose password is reset before its session is inserted -/

def oldAccount : Account := ⟨⟨0, "old"⟩, true, true, none, none, []⟩

def oldSystem : System Nat := ⟨0, oldAccount, fun _ => .idle, 0, 0, []⟩

theorem oldSystem_started : Started oldSystem := ⟨rfl, rfl, fun _ => rfl, rfl⟩

/-- The login 0 has checked the password, and the reset 1 the code. -/
def bothRead : System Nat :=
  ⟨0, issuePasswordReset 0 1 "111111" oldAccount,
    Function.update (Function.update (fun _ => .idle) 0 (.loggingIn ⟨0, "old"⟩)) 1
      (.resetting "new" "111111" 0 ⟨1, "111111", 900⟩), 0, 1, []⟩

theorem bothRead_reachable : Reachable Started UndisturbedStep bothRead := by
  have hstart : Reachable Started UndisturbedStep oldSystem := reachable_init oldSystem_started
  have hissued := reachable_step hstart ⟨.other, trivial, .forgets "111111"⟩
  have hlogin := reachable_step hissued ⟨.other, trivial, @Step.loginReads Nat _ _ 0 "old" rfl rfl⟩
  exact reachable_step hlogin ⟨.other, trivial,
    @Step.resetReads Nat _ _ 1 "111111" "new" ⟨1, "111111", 900⟩ rfl rfl rfl⟩

/-- The reset has committed. -/
def resetDone : System Nat :=
  { bothRead with
    account := resetPassword "new" bothRead.account
    pc := Function.update bothRead.pc 1 .ended
    resets := [⟨"111111", 0, ⟨1, "111111", 900⟩, 1⟩] }

theorem resetDone_step : Step (.resets 1) bothRead resetDone :=
  @Step.resets Nat _ bothRead 1 "new" "111111" 0 ⟨1, "111111", 900⟩ rfl

theorem resets_protected_done : resetDone.resets ≠ [] ∧ Protected resetDone := by
  have hundisturbed : Undisturbed bothRead (.resets 1) := by
    rintro newPassword presented readAt code ⟨⟩
    rfl
  exact ⟨List.cons_ne_nil _ _,
    resets_protected (reachable_step bothRead_reachable ⟨_, hundisturbed, resetDone_step⟩)⟩

/-- The session of the old password outlives the reset. -/
theorem old_session_survives :
    ¬ ∀ s : System Nat, Reachable Started AnyStep s → Protected s := by
  intro h
  have hread : Reachable Started AnyStep bothRead :=
    reachable_mono (fun ⟨event, _, hstep⟩ => ⟨event, hstep⟩) bothRead_reachable
  have hdone := reachable_step hread ⟨_, resetDone_step⟩
  have hlogged := reachable_step hdone ⟨_, @Step.logsIn Nat _ resetDone 0 ⟨0, "old"⟩ rfl⟩
  have hold := (h _ hlogged).sessions ⟨0, .password 0, sessionTtl⟩ List.mem_cons_self rfl 0 rfl
  exact absurd hold (by decide)

end KiwiCatalog.Accounts.PasswordReset
