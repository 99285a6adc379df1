import KiwiCatalog.Binding.StoreProperties
import KiwiCatalog.Enrollment.Authorization

/-!
# Takeover — which binding an enrollment bind may revoke

The version that an authorization has read pins the binding which the bind can find: any other
insertion moves the maximum past it, and a revocation only takes active bindings away.
-/

set_option autoImplicit false
set_option linter.unusedSectionVars false

namespace KiwiCatalog.Enrollment

open Transition
open Binding hiding Step

variable {ε κ β : Type} [DecidableEq ε] [DecidableEq κ] [DecidableEq β]

/-! ## What an expected version pins -/

/-- The maximum has passed `version`, or it is `version` and the active bindings that the agent has
from the merchant are for the key. -/
structure Pinned (store : List RuntimeBinding) (agentId merchantId keyThumbprint : String)
    (version : Nat) : Prop where
  le : version ≤ (rowsOf store agentId).length
  sameKey : version = (rowsOf store agentId).length →
    SameKey store agentId merchantId keyThumbprint

/-- An operation on the bindings gives an agent one more row, or at most takes active ones away. -/
def Advances (store store' : List RuntimeBinding) : Prop :=
  ∀ agentId, (rowsOf store agentId).length < (rowsOf store' agentId).length ∨
    ((rowsOf store agentId).length = (rowsOf store' agentId).length ∧
      ∀ r ∈ store', r.catalogAgentId = agentId → r.isActive = true → r ∈ store)

theorem pinned_advances {store store' : List RuntimeBinding} (h : Advances store store')
    {agentId merchantId keyThumbprint : String} {version : Nat}
    (hp : Pinned store agentId merchantId keyThumbprint version) :
    Pinned store' agentId merchantId keyThumbprint version := by
  have hle := hp.le
  rcases h agentId with hmore | ⟨hsame, hkept⟩
  · exact ⟨by omega, fun heq => by omega⟩
  · refine ⟨by omega, fun heq r hr hagent hactive hmerchant => ?_⟩
    have hr' := hkept r hr hagent hactive
    exact hp.sameKey (by omega) r hr' hagent hactive hmerchant

theorem advances_revokeRow (store : List RuntimeBinding) (bindingId : String) :
    Advances store (revokeRow store bindingId) := by
  intro agentId
  right
  have hlength : (rowsOf (revokeRow store bindingId) agentId).length =
      (rowsOf store agentId).length := by
    rw [rowsOf_revokeRow]
    exact List.length_map _
  refine ⟨hlength.symm, fun r hr _ hactive => ?_⟩
  rcases mem_revokeRow hr with ⟨hr, -⟩ | ⟨r₀, -, -, rfl⟩
  · exact hr
  · cases hactive

theorem advances_supersede {store store' : List RuntimeBinding} {row : RuntimeBinding}
    {existing : Option RuntimeBinding} (h : supersede store row existing = .ok store') :
    Advances store store' := by
  obtain ⟨-, rfl⟩ := supersede_ok h
  have hrevoked : Advances (store ++ [row]) (revokeSuperseded (store ++ [row]) existing) := by
    cases existing with
    | none => exact fun agentId => .inr ⟨rfl, fun r hr _ _ => hr⟩
    | some binding => exact advances_revokeRow _ _
  intro agentId
  have hlength := congrArg List.length (rowsOf_append store row agentId)
  rw [List.length_append] at hlength
  by_cases hagent : row.catalogAgentId = agentId
  · rw [if_pos hagent, List.length_singleton] at hlength
    left
    rcases hrevoked agentId with hmore | ⟨hsame, -⟩ <;> omega
  · rw [if_neg hagent, List.length_nil] at hlength
    rcases hrevoked agentId with hmore | ⟨hsame, hkept⟩
    · left
      omega
    · right
      refine ⟨by omega, fun r hr hagent' hactive => ?_⟩
      rcases List.mem_append.mp (hkept r hr hagent' hactive) with hr' | hr'
      · exact hr'
      · rw [List.mem_singleton.mp hr'] at hagent'
        exact absurd hagent' hagent

theorem advances_revoke {store store' : List RuntimeBinding} {agentId bindingId : String}
    (h : revokeRuntimeBinding store agentId bindingId = .ok store') : Advances store store' := by
  unfold revokeRuntimeBinding at h
  split at h
  · cases h
  · split at h
    · cases h
      exact fun agentId => .inr ⟨rfl, fun r hr _ _ => hr⟩
    · cases h
      exact advances_revokeRow _ _

/-! ## The guard -/

/-- What the guard is worth: where key ids identify keys and the merchant has one active binding,
an enrollment that passes it is for the active key. -/
theorem sameKey_of_guard {store : List RuntimeBinding} {merchantId keyId keyThumbprint : String}
    (hguard : refusesTakeover store merchantId keyId = false) (hmerchant : merchantId ≠ "")
    (hone : ∀ r ∈ store, ∀ r' ∈ store, r.merchantId = merchantId → r'.merchantId = merchantId →
      r.isActive = true → r'.isActive = true → r = r')
    (hkey : ∀ r ∈ store, r.merchantId = merchantId → r.isActive = true → r.keyId = keyId →
      r.keyThumbprint = keyThumbprint) (agentId : String) :
    SameKey store agentId merchantId keyThumbprint := by
  intro r hr _ hactive howner
  unfold refusesTakeover at hguard
  rw [if_neg hmerchant] at hguard
  split at hguard
  · rename_i hnone
    have hfree := List.find?_eq_none.mp hnone r hr
    simp [howner, hactive] at hfree
  · rename_i seen hseen
    have hmem := List.mem_of_find?_eq_some hseen
    have hseen' := List.find?_some hseen
    simp only [Bool.and_eq_true, decide_eq_true_eq] at hseen'
    have hsame := hone r hr seen hmem howner hseen'.1 hactive hseen'.2
    subst hsame
    exact hkey r hr howner hactive (by simpa using hguard)

/-! ## The invariant -/

structure EnrollmentInv (material : ε → Material) (s : System ε κ β) : Prop where
  store : StoreInv s.store
  versioned : ∀ k e merchantId agentId latest,
    s.authorize k = .versioned e merchantId agentId latest →
      Pinned s.store agentId merchantId (material e).keyThumbprint latest
  authorized : ∀ e row, s.enrollment e = some row → row.status = .authorized →
    ∃ latest, row.expectedBindingVersion = latest + 1 ∧
      Pinned s.store row.catalogAgentId row.merchantId (material e).keyThumbprint latest
  binds : NoTakeover s.binds

variable {material : ε → Material} {s : System ε κ β}

theorem enrollmentInv_store (h : EnrollmentInv material s) {store : List RuntimeBinding}
    (hinv : StoreInv store) (hadvances : Advances s.store store) :
    EnrollmentInv material { s with store := store } := by
  refine ⟨hinv, fun k e m a latest hk => ?_, fun e row hrow hstatus => ?_, h.binds⟩
  · exact pinned_advances hadvances (h.versioned k e m a latest hk)
  · obtain ⟨latest, hexpected, hpinned⟩ := h.authorized e row hrow hstatus
    exact ⟨latest, hexpected, pinned_advances hadvances hpinned⟩

theorem enrollmentInv_setAuthorize (h : EnrollmentInv material s) {k : κ} {pc : AuthorizePc ε}
    (hpc : ∀ e merchantId agentId latest, pc = .versioned e merchantId agentId latest →
      Pinned s.store agentId merchantId (material e).keyThumbprint latest) :
    EnrollmentInv material (s.setAuthorize k pc) := by
  refine ⟨h.store, fun k' e m a latest hk => ?_, h.authorized, h.binds⟩
  change Function.update s.authorize k pc k' = _ at hk
  by_cases heq : k' = k
  · subst heq
    rw [Function.update_self] at hk
    exact hpc e m a latest hk
  · rw [Function.update_of_ne heq] at hk
    exact h.versioned k' e m a latest hk

theorem enrollmentInv_setEnrollment (h : EnrollmentInv material s) {e : ε} {row : EnrollmentRow}
    (hrow : row.status = .authorized → ∃ latest, row.expectedBindingVersion = latest + 1 ∧
      Pinned s.store row.catalogAgentId row.merchantId (material e).keyThumbprint latest) :
    EnrollmentInv material (s.setEnrollment e row) := by
  refine ⟨h.store, h.versioned, fun e' row' hrow' hstatus => ?_, h.binds⟩
  change Function.update s.enrollment e (some row) e' = some row' at hrow'
  by_cases heq : e' = e
  · subst heq
    rw [Function.update_self] at hrow'
    cases hrow'
    exact hrow hstatus
  · rw [Function.update_of_ne heq] at hrow'
    exact h.authorized e' row' hrow' hstatus

theorem enrollmentInv_setBind (h : EnrollmentInv material s) {b : β} {pc : BindPc ε} :
    EnrollmentInv material (s.setBind b pc) :=
  ⟨h.store, h.versioned, h.authorized, h.binds⟩

theorem enrollmentInv_agent (h : EnrollmentInv material s)
    {agent : String → Option AgentState} : EnrollmentInv material { s with agent := agent } :=
  ⟨h.store, h.versioned, h.authorized, h.binds⟩

/-- The bind finds the version that was pinned, so what it revokes is for its key. -/
theorem enrollmentInv_bind (h : EnrollmentInv material s) {b : β} {e : ε} {agentId : String}
    {decl : Declaration} {row : EnrollmentRow} {agent : AgentState} {store : List RuntimeBinding}
    (hrow : s.enrollment e = some row) (hstatus : row.status = .authorized)
    (hagentId : row.catalogAgentId = agentId)
    (hbind : enrollmentBinding s.store agentId agent.merchantId decl row.expectedBindingVersion =
      .ok store) :
    EnrollmentInv material
      { (s.setEnrollment e { row with status := .bound }).setBind b .done with
        store := store
        binds :=
          s.binds ++
            [⟨row.merchantId, (material e).keyThumbprint, currentActiveBinding s.store agentId⟩] } := by
  obtain ⟨hversion, hinsert⟩ := enrollmentBinding_ok hbind
  have hstore := storeInv_insertActive h.store (readEarlier_currentActive _ _) hinsert
  have hbound : EnrollmentInv material
      ((s.setEnrollment e { row with status := .bound }).setBind b .done) :=
    enrollmentInv_setBind (enrollmentInv_setEnrollment h fun hstatus => by cases hstatus)
  rw [insertActiveBinding_eq] at hinsert
  have hnext := enrollmentInv_store hbound hstore (advances_supersede hinsert)
  refine ⟨hnext.store, hnext.versioned, hnext.authorized, fun x hx r hr hmerchant => ?_⟩
  rcases List.mem_append.mp hx with hx | hx
  · exact h.binds x hx r hr hmerchant
  · rw [List.mem_singleton.mp hx] at hr hmerchant ⊢
    obtain ⟨latest, hexpected, hpinned⟩ := h.authorized e row hrow hstatus
    rw [hagentId] at hpinned
    obtain ⟨hmem, hagent, hactive⟩ := mem_of_currentActive hr
    have hmax := h.store.maxVersion_eq agentId
    have hlatest : latest = (rowsOf s.store agentId).length := by omega
    exact hpinned.sameKey hlatest r hmem hagent hactive hmerchant

theorem pinned_maxVersion {store : List RuntimeBinding} (h : StoreInv store)
    {agentId merchantId keyThumbprint : String}
    (hkey : SameKey store agentId merchantId keyThumbprint) :
    Pinned store agentId merchantId keyThumbprint (maxVersion store agentId) := by
  have hmax := h.maxVersion_eq agentId
  exact ⟨by omega, fun _ => hkey⟩

theorem enrollmentInv_preserved :
    Preserves (UndisturbedStep material : System ε κ β → System ε κ β → Prop)
      (EnrollmentInv material) := by
  rintro s s' ⟨event, hundisturbed, hstep⟩ h
  cases hstep with
  | createsDevice hnew => exact enrollmentInv_setEnrollment h fun hstatus => by cases hstatus
  | authorizeReads m hpc hrow hstatus hmerchant =>
    exact enrollmentInv_setAuthorize h fun _ _ _ _ hpc => by cases hpc
  | authorizeGuards hpc hguard =>
    exact enrollmentInv_setAuthorize h fun _ _ _ _ hpc => by cases hpc
  | authorizeFindsAgent hpc hagent howner =>
    exact enrollmentInv_setAuthorize h fun _ _ _ _ hpc => by cases hpc
  | authorizeCreatesAgent hpc hnew =>
    exact enrollmentInv_agent (enrollmentInv_setAuthorize h fun _ _ _ _ hpc => by cases hpc)
  | authorizeReadsVersion hpc hagent howner hactive =>
    apply enrollmentInv_setAuthorize h
    intro e' m' a' latest' heq
    cases heq
    exact pinned_maxVersion h.store (hundisturbed _ _ _ hpc)
  | @authorizeCommits _ k e m a latest row hpc hrow hstatus =>
    have hset : EnrollmentInv material (s.setEnrollment e ⟨.authorized, m, a, latest + 1⟩) :=
      enrollmentInv_setEnrollment h fun _ => ⟨latest, rfl, h.versioned k e m a latest hpc⟩
    exact enrollmentInv_setAuthorize hset fun _ _ _ _ hpc => by cases hpc
  | authorizeFails => exact enrollmentInv_setAuthorize h fun _ _ _ _ hpc => by cases hpc
  | bindReads hpc hrow hstatus hdecl => exact enrollmentInv_setBind h
  | bindCommits hpc hdecl hrow hstatus hagentId hagent howner hactive hbind =>
    exact enrollmentInv_bind h hrow hstatus hagentId hbind
  | bindFails => exact enrollmentInv_setBind h
  | closes hrow hstatus =>
    apply enrollmentInv_setEnrollment h
    intro hauthorized
    change _ = EnrollmentStatus.authorized at hauthorized
    rcases hstatus with rfl | rfl | rfl <;> cases hauthorized
  | creates hread hok =>
    have hinv := storeInv_insertActive h.store hread hok
    exact enrollmentInv_store h hinv (advances_supersede hok)
  | confirms hok => exact enrollmentInv_store h (storeInv_confirm h.store hok) (advances_supersede hok)
  | revokes hok => exact enrollmentInv_store h (storeInv_revoke h.store hok) (advances_revoke hok)
  | setsAgent agentId agent => exact enrollmentInv_agent h

theorem enrollmentInv_started (s : System ε κ β) (h : Started s) : EnrollmentInv material s := by
  obtain ⟨hstore, henrollment, hauthorize, -, hbinds⟩ := h
  refine ⟨storeInv_empty s.store hstore, fun k e m a latest hk => ?_, fun e row hrow => ?_, ?_⟩
  · rw [hauthorize] at hk
    cases hk
  · rw [henrollment] at hrow
    cases hrow
  · rw [hbinds]
    exact fun x hx => by cases hx

/-- In every run in which each authorization reads its version while no other key of the merchant
is active on the agent, no enrollment bind takes over a binding of another key. -/
theorem no_takeover {s : System ε κ β}
    (hs : Reachable Started (UndisturbedStep material) s) : NoTakeover s.binds :=
  (reachable_invariant enrollmentInv_started enrollmentInv_preserved hs).binds

/-! ## An enrollment that names the active key id -/

/-- A device request under the key id of the active binding, with the key of its choice. -/
def reuseKeyId (keyThumbprint : String) (_ : Unit) : Material :=
  ⟨"key_1", keyThumbprint, "https://other.example", "https://other.example/a2a", 1⟩

def reuseDeclaration (keyThumbprint : String) : Declaration :=
  ⟨"b_2", "https://other.example", "https://other.example/a2a", "key_1", keyThumbprint, 1⟩

/-- The merchant has a binding, and the enrollment has passed the guard. -/
def passedGuard : System Unit Unit Unit where
  store := [boundRow]
  agent := fun _ => some ⟨"m_1", .active⟩
  enrollment := fun _ => some ⟨.readyForAuthorization, "", "", 1⟩
  authorize := fun _ => .hasAgent () "m_1" "cagt_1"
  bind := fun _ => .idle
  binds := []

/-- The runtime of the enrollment is bound. -/
def rebound (keyThumbprint : String) : System Unit Unit Unit where
  store :=
    [boundRow.revoke, newRow "cagt_1" "m_1" "b_2" (reuseDeclaration keyThumbprint) 2]
  agent := fun _ => some ⟨"m_1", .active⟩
  enrollment := fun _ => some ⟨.bound, "m_1", "cagt_1", 2⟩
  authorize := fun _ => .done
  bind := fun _ => .done
  binds := [⟨"m_1", keyThumbprint, some boundRow⟩]

/-- Steps other than the reading of the version are undisturbed. -/
def OtherStep (material : Unit → Material) (s s' : System Unit Unit Unit) : Prop :=
  Step material .other s s'

theorem reaches_others {material : Unit → Material} {s s' : System Unit Unit Unit}
    (hs : @Reachable (System Unit Unit Unit) Started (UndisturbedStep material) s)
    (h : Run (OtherStep material) s s') :
    @Reachable (System Unit Unit Unit) Started (UndisturbedStep material) s' :=
  reachable_run hs (h.lift id fun _ _ hstep => ⟨.other, trivial, hstep⟩)

theorem anyStep_of_undisturbed {s s' : System ε κ β} (h : UndisturbedStep material s s') :
    AnyStep material s s' := by
  obtain ⟨event, -, hstep⟩ := h
  exact ⟨event, hstep⟩

theorem passedGuard_reachable (keyThumbprint : String) :
    @Reachable (System Unit Unit Unit) Started (UndisturbedStep (reuseKeyId keyThumbprint))
      passedGuard := by
  have hstart : @Reachable (System Unit Unit Unit) Started (UndisturbedStep (reuseKeyId keyThumbprint))
      ⟨[], fun _ => some ⟨"m_1", .active⟩, fun _ => none, fun _ => .idle, fun _ => .idle, []⟩ :=
    reachable_init ⟨rfl, fun _ => rfl, fun _ => rfl, fun _ => rfl, rfl⟩
  apply reaches_others hstart
  have hbound : OtherStep (reuseKeyId keyThumbprint)
      ⟨[], fun _ => some ⟨"m_1", .active⟩, fun _ => none, fun _ => .idle, fun _ => .idle, []⟩
      ⟨[boundRow], fun _ => some ⟨"m_1", .active⟩, fun _ => none, fun _ => .idle, fun _ => .idle,
        []⟩ :=
    @Step.creates Unit Unit Unit _ _ _ _ _ "cagt_1" "m_1" firstDeclaration none [boundRow] trivial
      rfl
  have hrun := (Relation.ReflTransGen.single hbound).tail (.createsDevice (e := ()) rfl)
  have hread := hrun.tail (.authorizeReads (k := ()) (e := ()) "m_1" rfl rfl rfl (by decide))
  have hguard := hread.tail (.authorizeGuards (k := ()) rfl rfl)
  have hagent := hguard.tail (@Step.authorizeFindsAgent Unit Unit Unit _ _ _ _ _ () () "m_1"
    "cagt_1" ⟨"m_1", .active⟩ rfl rfl rfl)
  simp only [System.setAuthorize, System.setEnrollment, Update.update_unit] at hagent
  exact hagent

/-- The authorization reads its version, commits, and the runtime binds. -/
theorem rebound_steps (keyThumbprint : String) :
    ∃ s, Step (reuseKeyId keyThumbprint) (.readsVersion ()) passedGuard s ∧
      Run (OtherStep (reuseKeyId keyThumbprint)) s (rebound keyThumbprint) := by
  refine ⟨_, @Step.authorizeReadsVersion Unit Unit Unit _ _ _ _ _ () () "m_1" "cagt_1"
    ⟨"m_1", .active⟩ rfl rfl rfl rfl, ?_⟩
  have hdeclares : (reuseKeyId keyThumbprint ()).declares (reuseDeclaration keyThumbprint) :=
    ⟨rfl, rfl, rfl, rfl, rfl⟩
  have hcommit := (Relation.ReflTransGen.refl (r := OtherStep (reuseKeyId keyThumbprint))).tail
    (@Step.authorizeCommits Unit Unit Unit _ _ _ _ (passedGuard.setAuthorize () (.versioned () "m_1"
      "cagt_1" 1)) () () "m_1" "cagt_1" 1 ⟨.readyForAuthorization, "", "", 1⟩ rfl rfl rfl)
  have hread := hcommit.tail (@Step.bindReads Unit Unit Unit _ _ _ _ _ () ()
    ⟨.authorized, "m_1", "cagt_1", 2⟩ (reuseDeclaration keyThumbprint) rfl rfl rfl hdeclares)
  have hbind := hread.tail (@Step.bindCommits Unit Unit Unit _ _ _ _ _ () () "cagt_1"
    (reuseDeclaration keyThumbprint) ⟨.authorized, "m_1", "cagt_1", 2⟩ ⟨"m_1", .active⟩
    (rebound keyThumbprint).store rfl hdeclares rfl rfl rfl rfl rfl rfl rfl)
  simp only [System.setAuthorize, System.setEnrollment, System.setBind, Update.update_unit] at hbind
  exact hbind

/-- The same key may bind again. -/
theorem no_takeover_sameKey : NoTakeover (rebound "thumb_1").binds := by
  obtain ⟨s, hreads, hrun⟩ := rebound_steps "thumb_1"
  have hundisturbed : Undisturbed (reuseKeyId "thumb_1") passedGuard (.readsVersion ()) := by
    intro e merchantId agentId heq r hr _ _ _
    rw [List.mem_singleton.mp hr]
    rfl
  have hversion := reachable_step (passedGuard_reachable "thumb_1") ⟨_, hundisturbed, hreads⟩
  exact no_takeover (reaches_others hversion hrun)

/-- Another key under the same key id takes the binding over. -/
theorem takeover_by_keyId :
    ¬ ∀ (material : Unit → Material) (s : System Unit Unit Unit),
      Reachable Started (AnyStep material) s → NoTakeover s.binds := by
  intro h
  obtain ⟨s, hreads, hrun⟩ := rebound_steps "thumb_2"
  have hguard : Reachable Started (AnyStep (reuseKeyId "thumb_2")) passedGuard :=
    reachable_mono anyStep_of_undisturbed (passedGuard_reachable "thumb_2")
  have hbound := reachable_run (reachable_step hguard ⟨_, hreads⟩)
    (hrun.lift id fun _ _ hstep => ⟨.other, hstep⟩)
  have hnone := h (reuseKeyId "thumb_2") _ hbound
  have hsame := hnone _ List.mem_cons_self boundRow rfl rfl
  exact absurd hsame (by decide)

end KiwiCatalog.Enrollment
