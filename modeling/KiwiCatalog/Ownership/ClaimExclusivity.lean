import KiwiCatalog.Ownership.Claims

/-!
# ClaimExclusivity — an agent that has been claimed stays claimed

The owner that a successful claim has written stays in every run whose claims and registrations
write over no other owner.  A claim that gives up its transaction for the challenge can.
-/

set_option autoImplicit false
set_option linter.unusedSectionVars false

namespace KiwiCatalog.Ownership

open Transition

variable {κ γ : Type} [DecidableEq κ] [DecidableEq γ]

/-! ## Owners -/

def Owns (agents : List AgentRow) (catalogAgentId merchantId : String) : Prop :=
  ∃ row, agentOf agents catalogAgentId = some row ∧ row.merchantId = merchantId

theorem Owns.unique {agents : List AgentRow} {catalogAgentId m m' : String}
    (h : Owns agents catalogAgentId m) (h' : Owns agents catalogAgentId m') : m = m' := by
  obtain ⟨row, hrow, rfl⟩ := h
  obtain ⟨row', hrow', rfl⟩ := h'
  rw [hrow] at hrow'
  rw [Option.some.inj hrow']

/-- Every owner is kept. -/
def KeepsOwners (agents agents' : List AgentRow) : Prop :=
  ∀ catalogAgentId merchantId, merchantId ≠ "" → Owns agents catalogAgentId merchantId →
    Owns agents' catalogAgentId merchantId

theorem agentOf_update {f : AgentRow → AgentRow}
    (hid : ∀ r, (f r).catalogAgentId = r.catalogAgentId) (catalogAgentId id : String)
    (agents : List AgentRow) :
    agentOf (Table.updateWhere (fun r => r.catalogAgentId = catalogAgentId) f agents) id =
      if id = catalogAgentId then (agentOf agents id).map f else agentOf agents id :=
  Table.lookup_updateWhere hid catalogAgentId id agents

theorem keepsOwners_update {f : AgentRow → AgentRow}
    (hid : ∀ r, (f r).catalogAgentId = r.catalogAgentId)
    (hmerchant : ∀ r, (f r).merchantId = r.merchantId) (catalogAgentId : String)
    (agents : List AgentRow) :
    KeepsOwners agents
      (Table.updateWhere (fun r => r.catalogAgentId = catalogAgentId) f agents) := by
  intro id merchantId _ howns
  obtain ⟨row, hrow, howner⟩ := howns
  have hlookup := agentOf_update hid catalogAgentId id agents
  rw [hrow] at hlookup
  split at hlookup
  · exact ⟨f row, hlookup, (hmerchant row).trans howner⟩
  · exact ⟨row, hlookup, howner⟩

/-- Writing the owner keeps every owner when there was no other. -/
theorem keepsOwners_updateAgent {agents agents' : List AgentRow} {catalogAgentId merchantId : String}
    {f : AgentRow → AgentRow} (hid : ∀ r, (f r).catalogAgentId = r.catalogAgentId)
    (hmerchant : ∀ r, (f r).merchantId = merchantId)
    (howned : OwnedAtMostBy agents catalogAgentId merchantId)
    (h : updateAgent? agents catalogAgentId merchantId f = some agents') :
    KeepsOwners agents agents' := by
  unfold updateAgent? at h
  split at h
  · cases h
  · cases h
    intro id m hm howns
    obtain ⟨row, hrow, howner⟩ := howns
    have hlookup := agentOf_update hid catalogAgentId id agents
    rw [hrow] at hlookup
    split at hlookup
    · rename_i heq
      subst heq
      have hm' : m = merchantId := by
        rcases howned row hrow with hempty | hsame
        · exact absurd (howner.symm.trans hempty) hm
        · exact howner.symm.trans hsame
      exact ⟨f row, hlookup, (hmerchant row).trans hm'.symm⟩
    · exact ⟨row, hlookup, howner⟩

theorem keepsOwners_insert {agents agents' : List AgentRow} {row : AgentRow}
    (h : insertAgent? agents row = some agents') : KeepsOwners agents agents' := by
  unfold insertAgent? at h
  split at h
  · cases h
  · obtain ⟨-, rfl⟩ := Table.insert?_eq_some h
    intro id m _ howns
    obtain ⟨row', hrow', howner⟩ := howns
    refine ⟨row', ?_, howner⟩
    unfold agentOf Table.lookup at hrow' ⊢
    rw [List.find?_append, hrow']
    rfl

/-! ## What a write does -/

theorem setMerchant_id (m : String) (r : AgentRow) :
    (r.setMerchant m).catalogAgentId = r.catalogAgentId := rfl

theorem reregister_id (req : RegisterRequest) (r : AgentRow) :
    (r.reregister req).catalogAgentId = r.catalogAgentId := rfl

/-- A claim that passes its checks names a merchant. -/
theorem claimRead_merchant {agents : List AgentRow} {catalogAgentId merchantId : String}
    {agent : AgentRow} (h : claimRead agents catalogAgentId merchantId = .ok agent) :
    merchantId ≠ "" := by
  unfold claimRead at h
  split at h
  · cases h
  · assumption

theorem claimWrite_ok {agents agents' : List AgentRow} {agent : AgentRow} {merchantId : String}
    (h : claimWrite agents agent merchantId = .ok agents') :
    setCatalogAgentMerchant? agents agent.catalogAgentId merchantId = some agents' := by
  unfold claimWrite at h
  split at h
  · cases h
  · split at h
    · cases h
    · rename_i hset
      rw [hset]
      exact congrArg some (Except.ok.inj h)

theorem owns_setMerchant {agents agents' : List AgentRow} {catalogAgentId merchantId : String}
    {row : AgentRow} (hrow : agentOf agents catalogAgentId = some row)
    (h : setCatalogAgentMerchant? agents catalogAgentId merchantId = some agents') :
    Owns agents' catalogAgentId merchantId := by
  unfold setCatalogAgentMerchant? updateAgent? at h
  split at h
  · cases h
  · cases h
    refine ⟨row.setMerchant merchantId, ?_, rfl⟩
    rw [agentOf_update (setMerchant_id merchantId), if_pos rfl, hrow]
    rfl

theorem keepsOwners_register {agents agents' : List AgentRow} {target : Option AgentRow}
    {req : RegisterRequest} {newId : String} {now : Nat}
    (hundisturbed : RegisterUndisturbed agents (.selected req target))
    (h : registerWrite agents target req newId now = some agents') :
    KeepsOwners agents agents' := by
  cases target with
  | none => exact keepsOwners_insert h
  | some row => exact keepsOwners_updateAgent (reregister_id req) (fun _ => rfl) hundisturbed h

/-! ## The invariant -/

/-- The merchant of a claim that has passed its first checks. -/
def ClaimPc.merchant? : ClaimPc → Option String
  | .proving _ merchantId | .proven _ merchantId _ => some merchantId
  | .idle | .opened _ _ | .refused | .succeeded => none

structure OwnershipInv (s : System κ γ) : Prop where
  merchant : ∀ c m, (s.claim c).merchant? = some m → m ≠ ""
  owned : ∀ x ∈ s.successes, x.merchantId ≠ "" ∧ Owns s.agents x.catalogAgentId x.merchantId
  domain : ∀ x ∈ s.successes, ∀ d, x.provenDomain = some d → d = x.domain

theorem ownershipInv_setClaim {s : System κ γ} (h : OwnershipInv s) {c : κ} {pc : ClaimPc}
    (hpc : ∀ m, pc.merchant? = some m → m ≠ "") : OwnershipInv (s.setClaim c pc) := by
  refine ⟨fun c' m hm => ?_, h.owned, h.domain⟩
  change (Function.update s.claim c pc c').merchant? = some m at hm
  by_cases hc : c' = c
  · subst hc
    rw [Function.update_self] at hm
    exact hpc m hm
  · rw [Function.update_of_ne hc] at hm
    exact h.merchant c' m hm

theorem ownershipInv_agents {s : System κ γ} (h : OwnershipInv s) {agents : List AgentRow}
    (hkeeps : KeepsOwners s.agents agents) : OwnershipInv { s with agents := agents } := by
  refine ⟨h.merchant, fun x hx => ?_, h.domain⟩
  have hx' := h.owned x hx
  exact ⟨hx'.1, hkeeps _ _ hx'.1 hx'.2⟩

theorem ownershipInv_succeed {s : System κ γ} (h : OwnershipInv s) {c : κ} {agent row : AgentRow}
    {merchantId : String} {domain : Option String} {agents : List AgentRow}
    (hpc : s.claim c = .proven agent merchantId domain)
    (hwrite : claimWrite s.agents agent merchantId = .ok agents)
    (hrow : agentOf s.agents agent.catalogAgentId = some row)
    (hundisturbed : ClaimUndisturbed s.agents (s.claim c)) :
    OwnershipInv
      (s.succeed c agents ⟨agent.catalogAgentId, merchantId, domain, row.canonicalDomain⟩) := by
  rw [hpc] at hundisturbed
  obtain ⟨howned, hdomain⟩ := hundisturbed
  have hset := claimWrite_ok hwrite
  have hkeeps := keepsOwners_updateAgent (setMerchant_id merchantId) (fun _ => rfl) howned hset
  have hmerchant : merchantId ≠ "" := h.merchant c merchantId (by rw [hpc]; rfl)
  have hagents := ownershipInv_agents h hkeeps
  have hended : OwnershipInv ({ s with agents := agents }.setClaim c .succeeded) :=
    ownershipInv_setClaim hagents fun _ hm => by cases hm
  refine ⟨hended.merchant, fun x hx => ?_, fun x hx => ?_⟩
  · rcases List.mem_append.mp hx with hx | hx
    · exact hended.owned x hx
    · rw [List.mem_singleton.mp hx]
      exact ⟨hmerchant, owns_setMerchant hrow hset⟩
  · rcases List.mem_append.mp hx with hx | hx
    · exact h.domain x hx
    · rw [List.mem_singleton.mp hx]
      exact hdomain row hrow

theorem ownershipInv_preserved :
    Preserves (UndisturbedStep : System κ γ → System κ γ → Prop) OwnershipInv := by
  rintro s s' ⟨event, hundisturbed, hstep⟩ h
  have hlock : ∀ {s : System κ γ} {lock : Option (Party κ γ)}, OwnershipInv s →
      OwnershipInv { s with lock := lock } := fun h => ⟨h.merchant, h.owned, h.domain⟩
  have hregistration : ∀ {s : System κ γ} {g : γ} {pc : RegisterPc}, OwnershipInv s →
      OwnershipInv (s.setRegistration g pc) := fun h => ⟨h.merchant, h.owned, h.domain⟩
  have hidle : ∀ {pc : ClaimPc}, pc.merchant? = none → ∀ m, pc.merchant? = some m → m ≠ "" := by
    intro pc hpc m hm
    rw [hpc] at hm
    cases hm
  cases hstep with
  | claimOpensLocked id m hpc hlocked => exact hlock (ownershipInv_setClaim h (hidle rfl))
  | claimOpens id m hpc => exact ownershipInv_setClaim h (hidle rfl)
  | claimRefused hpc hread => exact hlock (ownershipInv_setClaim h (hidle rfl))
  | claimReadsHosted hpc hread hhosted =>
    apply ownershipInv_setClaim h
    intro m hm
    cases hm
    exact claimRead_merchant hread
  | claimReads hpc hread hhosted =>
    apply hlock
    apply ownershipInv_setClaim h
    intro m hm
    cases hm
    exact claimRead_merchant hread
  | @claimProves _ c agent merchantId hpc =>
    apply ownershipInv_setClaim h
    intro m hm
    cases hm
    exact h.merchant c merchantId (by rw [hpc]; rfl)
  | claimDenied hpc => exact ownershipInv_setClaim h (hidle rfl)
  | claimSucceeds hpc hlocked hwrite hrow =>
    exact ownershipInv_succeed h hpc hwrite hrow hundisturbed
  | claimFails hpc hwrite => exact hlock (ownershipInv_setClaim h (hidle rfl))
  | registerOpensLocked req hpc hlocked => exact hlock (hregistration h)
  | registerOpens req hpc => exact hregistration h
  | registerReads hpc hread => exact hregistration h
  | registerRefused hpc hread => exact hlock (hregistration h)
  | @registers _ g req target agents newId now hpc hlocked hwrite =>
    change RegisterUndisturbed s.agents (s.registration g) at hundisturbed
    rw [hpc] at hundisturbed
    exact hlock (hregistration (ownershipInv_agents h (keepsOwners_register hundisturbed hwrite)))
  | registerFails newId now hpc hwrite => exact hlock (hregistration h)
  | inserts hlocked hinsert => exact ownershipInv_agents h (keepsOwners_insert hinsert)
  | setsDomain id domain hlocked =>
    have hkeeps := keepsOwners_update (f := AgentRow.setDomain domain) (fun _ => rfl)
      (fun _ => rfl) id s.agents
    exact ownershipInv_agents h hkeeps
  | governs id state hlocked =>
    have hkeeps := keepsOwners_update (f := AgentRow.setAdministrativeState state) (fun _ => rfl)
      (fun _ => rfl) id s.agents
    exact ownershipInv_agents h hkeeps

theorem ownershipInv_started (s : System κ γ) (h : Started s) : OwnershipInv s := by
  obtain ⟨-, hclaim, -, -, hsuccesses⟩ := h
  refine ⟨fun c m hm => ?_, fun x hx => ?_, fun x hx => ?_⟩
  · rw [hclaim] at hm
    cases hm
  · rw [hsuccesses] at hx
    cases hx
  · rw [hsuccesses] at hx
    cases hx

/-- An agent that nobody owns. -/
def unownedAgent : AgentRow :=
  ⟨"cagt_1", "", "shop.example", .selfRegistered, .active, 0⟩

/-- Two merchants have passed the challenge. -/
def bothProven : System Bool Unit where
  agents := [unownedAgent]
  claim c := .proven unownedAgent (if c then "m_b" else "m_a") (some "shop.example")
  registration _ := .idle
  lock := none
  successes := []

theorem setClaim_setClaim (s : System κ γ) (c : κ) (pc pc' : ClaimPc) :
    (s.setClaim c pc).setClaim c pc' = s.setClaim c pc' := by
  unfold System.setClaim
  rw [Function.update_idem]

theorem release_of_free {s : System κ γ} (h : s.lock = none) (p : Party κ γ) : s.release p = s := by
  obtain ⟨agents, claim, registration, lock, successes⟩ := s
  cases h
  rfl

/-- An idle claim may read, give up its transaction and pass the challenge. -/
theorem proven_reachable {s : System κ γ} (hs : Reachable Started UndisturbedStep s) {c : κ}
    {agent : AgentRow} {catalogAgentId merchantId : String} (hpc : s.claim c = .idle)
    (hlock : s.lock = none) (hread : claimRead s.agents catalogAgentId merchantId = .ok agent)
    (hhosted : agent.sourceType ≠ .hosted) :
    Reachable Started UndisturbedStep
      (s.setClaim c (.proven agent merchantId (some agent.canonicalDomain))) := by
  have hself : ∀ pc, (s.setClaim c pc).claim c = pc := fun pc => Function.update_self ..
  have hopened := reachable_step hs
    ⟨.opens, trivial, .claimOpens catalogAgentId merchantId hpc⟩
  have hproving := reachable_step hopened
    ⟨.reads, trivial, .claimReads (hself _) hread hhosted⟩
  rw [setClaim_setClaim, release_of_free (show (s.setClaim c _).lock = none from hlock)] at hproving
  have hproven := reachable_step hproving ⟨.reads, trivial, .claimProves (hself _)⟩
  rwa [setClaim_setClaim] at hproven

theorem bothProven_reachable :
    @Reachable (System Bool Unit) Started UndisturbedStep bothProven := by
  have hstart : @Reachable (System Bool Unit) Started UndisturbedStep
      ⟨[unownedAgent], fun _ => .idle, fun _ => .idle, none, []⟩ :=
    reachable_init ⟨List.nodup_singleton _, fun _ => rfl, fun _ => rfl, rfl, rfl⟩
  have hfirst := @proven_reachable Bool Unit _ _ _ hstart false unownedAgent "cagt_1" "m_a" rfl rfl
    rfl (by decide)
  have hsecond := @proven_reachable Bool Unit _ _ _ hfirst true unownedAgent "cagt_1" "m_b" rfl rfl
    rfl (by decide)
  have hclaim : bothProven = ((⟨[unownedAgent], fun _ => .idle, fun _ => .idle, none, []⟩ :
      System Bool Unit).setClaim false (.proven unownedAgent "m_a" (some "shop.example"))).setClaim
        true (.proven unownedAgent "m_b" (some "shop.example")) := by
    unfold bothProven System.setClaim
    congr 1
    funext c
    cases c <;> rfl
  rw [hclaim]
  exact hsecond

/-- The first of the two to write has claimed the agent. -/
def firstClaimed : System Bool Unit :=
  bothProven.succeed false [unownedAgent.setMerchant "m_a"]
    ⟨"cagt_1", "m_a", some "shop.example", "shop.example"⟩

theorem firstClaims : Step (.claims false) bothProven firstClaimed :=
  @Step.claimSucceeds Bool Unit _ _ bothProven false unownedAgent unownedAgent "m_a"
    (some "shop.example") _ rfl rfl rfl rfl

end KiwiCatalog.Ownership
