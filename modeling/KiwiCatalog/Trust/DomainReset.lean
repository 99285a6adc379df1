import KiwiCatalog.Trust.Verification

/-!
# DomainReset — derived rows and the tenure of the domain

What each transaction does to the derived rows, and the invariant of undisturbed runs.
-/

set_option autoImplicit false
set_option linter.unusedSectionVars false

namespace KiwiCatalog.Trust

open Transition

variable {web : Web}

/-! ## What each statement does -/

theorem staleEndpoint_fits {canonical : String} {e : Endpoint}
    (h : staleEndpoint web canonical e = false) : EndpointFits web canonical e := by
  unfold staleEndpoint at h
  split at h
  · cases h
  · rename_i hhttp
    split at h
    · rename_i hcloud
      exact .inl hcloud
    · right
      have hurl : isHttpUrl web e.url = true := by
        simp only [Bool.or_eq_true, not_or, Bool.not_eq_true', Bool.not_eq_false] at hhttp
        exact hhttp.2
      cases hhost : canonicalDomainOf web e.url with
      | none => simp [hhost] at h
      | some host => simpa [isUnder, hurl, hhost] using h

namespace AgentRecord

/-- The synchronisation of the cloud endpoints touches no other row, and the only profile address
it writes is the cloud card. -/
structure Synced (web : Web) (r r' : AgentRecord) : Prop where
  agent : r'.agent = r.agent
  tenure : r'.tenure = r.tenure
  snapshots : r'.snapshots = r.snapshots
  capabilities : r'.capabilities = r.capabilities
  skills : r'.skills = r.skills
  verifications : r'.verifications = r.verifications
  endpoints : ∀ e ∈ r'.endpoints,
    e ∈ r.endpoints ∨ e.row.kind = .a2a ∨ e.row.url = web.cloudCardUrl

theorem Synced.trans {r r' r'' : AgentRecord} (h : Synced web r r') (h' : Synced web r' r'') :
    Synced web r r'' := by
  refine ⟨h'.agent.trans h.agent, h'.tenure.trans h.tenure, h'.snapshots.trans h.snapshots,
    h'.capabilities.trans h.capabilities, h'.skills.trans h.skills,
    h'.verifications.trans h.verifications, fun e he => ?_⟩
  rcases h'.endpoints e he with he | hnew
  · exact h.endpoints e he
  · exact .inr hnew

theorem synced_endpoints {r : AgentRecord} {endpoints : List (Stamped Endpoint)}
    (h : ∀ e ∈ endpoints, e ∈ r.endpoints ∨ e.row.kind = .a2a ∨ e.row.url = web.cloudCardUrl) :
    Synced web r { r with endpoints := endpoints } := ⟨rfl, rfl, rfl, rfl, rfl, rfl, h⟩

theorem synced_syncA2aRow (r : AgentRecord) : Synced web r r.syncA2aRow := by
  unfold syncA2aRow
  split
  · split
    · exact synced_endpoints fun e he => .inl (mem_deleteEndpoints.mp he).1
    · refine synced_endpoints fun e he => ?_
      rcases mem_upsertEndpoint he with rfl | he
      · exact .inr (.inl rfl)
      · exact .inl he
  · exact synced_endpoints fun e he => .inl (mem_deleteEndpoints.mp he).1

theorem synced_syncCardRow (r : AgentRecord) : Synced web r (r.syncCardRow web) := by
  unfold syncCardRow
  split
  · refine synced_endpoints fun e he => ?_
    rcases mem_upsertEndpoint he with rfl | he
    · exact .inr (.inr rfl)
    · exact .inl he
  · exact synced_endpoints fun e he => .inl (mem_deleteEndpoints.mp he).1

theorem synced_syncCloudEndpoints (r : AgentRecord) : Synced web r (r.syncCloudEndpoints web) :=
  (synced_syncA2aRow r).trans (synced_syncCardRow _)

/-- The declared fields of a registration are stamped with the present tenure. -/
structure Declared (r r' : AgentRecord) : Prop where
  agent : r'.agent = r.agent
  tenure : r'.tenure = r.tenure
  snapshots : r'.snapshots = r.snapshots
  verifications : r'.verifications = r.verifications
  capabilities : ∀ c ∈ r'.capabilities, c ∈ r.capabilities ∨ c.tenure = r.tenure
  skills : ∀ s ∈ r'.skills, s ∈ r.skills ∨ s.tenure = r.tenure
  endpoints : ∀ e ∈ r'.endpoints, e ∈ r.endpoints ∨ e.tenure = r.tenure

theorem declared_refl (r : AgentRecord) : Declared r r :=
  ⟨rfl, rfl, rfl, rfl, fun _ h => .inl h, fun _ h => .inl h, fun _ h => .inl h⟩

theorem Declared.trans {r r' r'' : AgentRecord} (h : Declared r r') (h' : Declared r' r'') :
    Declared r r'' := by
  refine ⟨h'.agent.trans h.agent, h'.tenure.trans h.tenure, h'.snapshots.trans h.snapshots,
    h'.verifications.trans h.verifications, fun c hc => ?_, fun s hs => ?_, fun e he => ?_⟩
  · rcases h'.capabilities c hc with hc | hnew
    · exact h.capabilities c hc
    · exact .inr (hnew.trans h.tenure)
  · rcases h'.skills s hs with hs | hnew
    · exact h.skills s hs
    · exact .inr (hnew.trans h.tenure)
  · rcases h'.endpoints e he with he | hnew
    · exact h.endpoints e he
    · exact .inr (hnew.trans h.tenure)

theorem declared_upsert (r : AgentRecord) (kind : EndpointKind) (url : String) :
    Declared r (r.upsertProfileEndpoint kind url r.tenure) := by
  refine ⟨rfl, rfl, rfl, rfl, fun _ h => .inl h, fun _ h => .inl h, fun e he => ?_⟩
  rcases mem_upsertEndpoint he with rfl | he
  · exact .inr rfl
  · exact .inl he

theorem declared_ite {r : AgentRecord} (p : Prop) [Decidable p] {r' : AgentRecord}
    (h : Declared r r') : Declared r (if p then r else r') := by
  split
  · exact declared_refl r
  · exact h

theorem mem_map_stamp {α : Type} {r : AgentRecord} {rows : List α} {x : Stamped α}
    (h : x ∈ rows.map r.stamp) : x.tenure = r.tenure := by
  obtain ⟨row, -, rfl⟩ := List.mem_map.mp h
  rfl

theorem declared_declare (r : AgentRecord) (req : RegisterRequest) :
    Declared r (r.declare req) := by
  have hcaps : ∀ r : AgentRecord,
      Declared r (r.replaceCapabilities (req.capabilities.map r.stamp)) := fun r =>
    ⟨rfl, rfl, rfl, rfl, fun _ h => .inr (mem_map_stamp h), fun _ h => .inl h, fun _ h => .inl h⟩
  have hskills : ∀ r : AgentRecord, Declared r (r.replaceSkills (req.skills.map r.stamp)) :=
    fun r =>
      ⟨rfl, rfl, rfl, rfl, fun _ h => .inl h, fun _ h => .inr (mem_map_stamp h), fun _ h => .inl h⟩
  unfold declare
  exact (declared_ite _ (hcaps r)).trans <| (declared_ite _ (hskills _)).trans <|
    (declared_ite _ (declared_upsert _ _ _)).trans (declared_ite _ (declared_upsert _ _ _))

end AgentRecord

open AgentRecord

/-! ## What stays bound -/

theorem RowsBound.synced {t : Nat} {r r' : AgentRecord} (h : RowsBound t r) (hs : Synced web r r') :
    RowsBound t r' := by
  refine ⟨?_, ?_, ?_, ?_⟩
  · rw [hs.snapshots]
    exact h.snapshots
  · rw [hs.capabilities]
    exact h.capabilities
  · rw [hs.skills]
    exact h.skills
  · rw [hs.verifications]
    exact h.verifications

theorem EndpointsBound.synced {t : Nat} {domain : String} {r r' : AgentRecord}
    (h : EndpointsBound web t domain r) (hs : Synced web r r') :
    EndpointsBound web t domain r' := by
  intro e he hprofile
  rcases hs.endpoints e he with he | ha2a | hcloud
  · exact h e he hprofile
  · rw [ha2a] at hprofile
    cases hprofile
  · exact .inr (.inl hcloud)

/-- Writes to other columns leave the derived rows. -/
structure SameRows (r r' : AgentRecord) : Prop where
  snapshots : r'.snapshots = r.snapshots
  capabilities : r'.capabilities = r.capabilities
  skills : r'.skills = r.skills
  verifications : r'.verifications = r.verifications
  endpoints : r'.endpoints = r.endpoints

theorem RowsBound.sameRows {t : Nat} {r r' : AgentRecord} (h : RowsBound t r) (hs : SameRows r r') :
    RowsBound t r' := by
  refine ⟨?_, ?_, ?_, ?_⟩
  · rw [hs.snapshots]
    exact h.snapshots
  · rw [hs.capabilities]
    exact h.capabilities
  · rw [hs.skills]
    exact h.skills
  · rw [hs.verifications]
    exact h.verifications

theorem EndpointsBound.sameRows {t : Nat} {domain : String} {r r' : AgentRecord}
    (h : EndpointsBound web t domain r) (hs : SameRows r r') :
    EndpointsBound web t domain r' := by
  unfold EndpointsBound
  rw [hs.endpoints]
  exact h

theorem CarriesNothing.sameRows {domain : String} {r r' : AgentRecord}
    (h : CarriesNothing web domain r) (hs : SameRows r r') : CarriesNothing web domain r' := by
  refine ⟨hs.snapshots.trans h.snapshots, hs.capabilities.trans h.capabilities,
    hs.skills.trans h.skills, ?_, ?_⟩
  · rw [hs.verifications]
    exact h.verifications
  · rw [hs.endpoints]
    exact h.endpoints

theorem RowsBound.declared {r r' : AgentRecord} (h : RowsBound r.tenure r) (hd : Declared r r') :
    RowsBound r.tenure r' := by
  refine ⟨?_, fun c hc => ?_, fun s hs => ?_, ?_⟩
  · rw [hd.snapshots]
    exact h.snapshots
  · exact (hd.capabilities c hc).elim (h.capabilities c) id
  · exact (hd.skills s hs).elim (h.skills s) id
  · rw [hd.verifications]
    exact h.verifications

theorem EndpointsBound.declared {domain : String} {r r' : AgentRecord}
    (h : EndpointsBound web r.tenure domain r) (hd : Declared r r') :
    EndpointsBound web r.tenure domain r' := by
  intro e he hprofile
  rcases hd.endpoints e he with he | hnew
  · exact h e he hprofile
  · exact .inl hnew

theorem endpointsBound_purge (t : Nat) (canonical : String) (r : AgentRecord) :
    EndpointsBound web t canonical (r.purgeStaleProfileEndpoints web canonical) := by
  intro e he _
  exact .inr (staleEndpoint_fits (mem_deleteEndpoints.mp he).2)

theorem rowsBound_purge (t : Nat) (r : AgentRecord) : RowsBound t r.purgeDomainBoundClaims := by
  refine ⟨?_, ?_, ?_, ?_⟩ <;> intro x hx <;> cases hx

theorem CarriesNothing.rows {domain : String} {r : AgentRecord} (h : CarriesNothing web domain r)
    (t : Nat) : RowsBound t r := by
  refine ⟨?_, ?_, ?_, fun v hv hpassed => ?_⟩
  · simp [h.snapshots]
  · simp [h.capabilities]
  · simp [h.skills]
  · rw [h.verifications v hv] at hpassed
    cases hpassed

theorem CarriesNothing.endpointsBound {domain : String} {r : AgentRecord}
    (h : CarriesNothing web domain r) (t : Nat) : EndpointsBound web t domain r :=
  fun e he hprofile => .inr (h.endpoints e he hprofile)

theorem CarriesNothing.synced {domain : String} {r r' : AgentRecord}
    (h : CarriesNothing web domain r) (hs : Synced web r r') : CarriesNothing web domain r' := by
  refine ⟨hs.snapshots.trans h.snapshots, hs.capabilities.trans h.capabilities,
    hs.skills.trans h.skills, ?_, fun e he hprofile => ?_⟩
  · rw [hs.verifications]
    exact h.verifications
  · rcases hs.endpoints e he with he | ha2a | hcloud
    · exact h.endpoints e he hprofile
    · rw [ha2a] at hprofile
      cases hprofile
    · exact .inl hcloud

/-! ## The transactions -/

theorem current_synced {r r' : AgentRecord} (h : Current web r) (hs : Synced web r r') :
    Current web r' := by
  refine ⟨?_, ?_⟩
  · rw [hs.tenure]
    exact h.rows.synced hs
  · rw [hs.tenure, hs.agent]
    exact h.endpoints.synced hs

theorem blank_synced {r r' : AgentRecord} (h : Blank web r) (hs : Synced web r r') :
    Blank web r' := by
  intro hdomain domain
  rw [hs.agent] at hdomain
  exact (h hdomain domain).synced hs

theorem setDomain_same {r : AgentRecord} {domain : String}
    (h : domain = r.agent.canonicalDomain) : (r.setDomain domain).tenure = r.tenure := by
  simp [setDomain, h]

/-- A reopened record that is bound to the requested domain stays so through the declarations. -/
theorem current_declare {r : AgentRecord} {req : RegisterRequest}
    (hdomain : r.agent.canonicalDomain = req.domain) (hrows : RowsBound r.tenure r)
    (hend : EndpointsBound web r.tenure req.domain r) :
    Current web ((r.declare req).syncCloudEndpoints web) := by
  have hd := declared_declare r req
  apply current_synced ?_ (synced_syncCloudEndpoints _)
  refine ⟨?_, ?_⟩
  · rw [hd.tenure]
    exact hrows.declared hd
  · rw [hd.tenure, hd.agent, hdomain]
    exact hend.declared hd

/-- The purge of a registration leaves nothing of the earlier domain. -/
theorem current_purge {r : AgentRecord} {req : RegisterRequest}
    (hdomain : r.agent.canonicalDomain = req.domain) :
    Current web (((r.purgeDomainBoundClaims.declare req).purgeStaleProfileEndpoints web
      req.domain).syncCloudEndpoints web) := by
  have hd := declared_declare r.purgeDomainBoundClaims req
  apply current_synced ?_ (synced_syncCloudEndpoints _)
  have htenure : ((r.purgeDomainBoundClaims.declare req).purgeStaleProfileEndpoints web
      req.domain).tenure = r.tenure := hd.tenure
  have hagent : ((r.purgeDomainBoundClaims.declare req).purgeStaleProfileEndpoints web
      req.domain).agent.canonicalDomain = req.domain :=
    (congrArg CatalogAgent.canonicalDomain hd.agent).trans hdomain
  refine ⟨?_, ?_⟩
  · have hrows := (rowsBound_purge r.tenure r).declared hd
    rw [htenure]
    exact ⟨hrows.snapshots, hrows.capabilities, hrows.skills, hrows.verifications⟩
  · rw [hagent]
    exact endpointsBound_purge _ _ _

/-- A registration resets what it must when it notices the change. -/
theorem current_register {r : AgentRecord} (h : Current web r) {prior : String}
    {req : RegisterRequest} (hregister : RegisterUndisturbed web r prior req) :
    Current web (r.register web prior req) := by
  have hsame : SameRows r (r.reopen req) := ⟨rfl, rfl, rfl, rfl, rfl⟩
  unfold register
  cases hchanged : decide (prior ≠ "") && decide (prior ≠ req.domain) with
  | true => exact current_purge rfl
  | false =>
    have hkept : ¬ (prior ≠ "" ∧ prior ≠ req.domain) := by
      simpa only [Bool.and_eq_false_iff, decide_eq_false_iff_not, ← not_and_or] using hchanged
    simp only [Bool.false_eq_true, if_false]
    apply current_declare rfl
    · rcases hregister with heq | hnotice | hnothing
      · have htenure : (r.reopen req).tenure = r.tenure := setDomain_same heq
        rw [htenure]
        exact h.rows.sameRows hsame
      · exact absurd hnotice hkept
      · exact (hnothing.sameRows hsame).rows _
    · rcases hregister with heq | hnotice | hnothing
      · have htenure : (r.reopen req).tenure = r.tenure := setDomain_same heq
        rw [htenure, heq]
        exact h.endpoints.sameRows hsame
      · exact absurd hnotice hkept
      · exact (hnothing.sameRows hsame).endpointsBound _

/-- The record has gone on: tenures only grow, within one the domain stays, and a domain is
never given up. -/
structure Extends (r r' : AgentRecord) : Prop where
  le : r.tenure ≤ r'.tenure
  domain : r'.tenure = r.tenure → r'.agent.canonicalDomain = r.agent.canonicalDomain
  ne : r.agent.canonicalDomain ≠ "" → r'.agent.canonicalDomain ≠ ""

theorem extends_same {r r' : AgentRecord} (htenure : r'.tenure = r.tenure)
    (hdomain : r'.agent.canonicalDomain = r.agent.canonicalDomain) : Extends r r' := by
  refine ⟨Nat.le_of_eq htenure.symm, fun _ => hdomain, ?_⟩
  rw [hdomain]
  exact id

theorem extends_setDomain {r r' : AgentRecord} {domain : String} (hne : domain ≠ "")
    (htenure : r'.tenure = (r.setDomain domain).tenure)
    (hdomain : r'.agent.canonicalDomain = domain) : Extends r r' := by
  by_cases hsame : domain = r.agent.canonicalDomain
  · rw [setDomain_same hsame] at htenure
    exact extends_same htenure (hdomain.trans hsame)
  · have hnext : r'.tenure = r.tenure + 1 := by
      rw [htenure]
      simp [setDomain, hsame]
    refine ⟨by omega, fun h => by omega, fun _ => ?_⟩
    rw [hdomain]
    exact hne

/-- Whatever it purges, a registration leaves the requested domain in the tenure it begins. -/
theorem register_frame (web : Web) (r : AgentRecord) (prior : String) (req : RegisterRequest) :
    (r.register web prior req).agent.canonicalDomain = req.domain ∧
      (r.register web prior req).tenure = (r.setDomain req.domain).tenure := by
  have hdecl : ∀ r₁ : AgentRecord, r₁.agent = (r.reopen req).agent →
      r₁.tenure = (r.reopen req).tenure →
        (r₁.declare req).agent.canonicalDomain = req.domain ∧
          (r₁.declare req).tenure = (r.setDomain req.domain).tenure := by
    intro r₁ hagent htenure
    have hd := declared_declare r₁ req
    exact ⟨congrArg CatalogAgent.canonicalDomain (hd.agent.trans hagent), hd.tenure.trans htenure⟩
  have hsync : ∀ r₁ : AgentRecord, r₁.agent.canonicalDomain = req.domain ∧
      r₁.tenure = (r.setDomain req.domain).tenure →
        (r₁.syncCloudEndpoints web).agent.canonicalDomain = req.domain ∧
          (r₁.syncCloudEndpoints web).tenure = (r.setDomain req.domain).tenure := by
    rintro r₁ ⟨hdomain, htenure⟩
    have hs : Synced web r₁ (r₁.syncCloudEndpoints web) := synced_syncCloudEndpoints r₁
    exact ⟨(congrArg CatalogAgent.canonicalDomain hs.agent).trans hdomain,
      hs.tenure.trans htenure⟩
  unfold register
  cases decide (prior ≠ "") && decide (prior ≠ req.domain) with
  | true => exact hsync _ (hdecl (r.reopen req).purgeDomainBoundClaims rfl rfl)
  | false => exact hsync _ (hdecl (r.reopen req) rfl rfl)

/-! ### Bindings -/

theorem current_insertVerifications {r : AgentRecord} (h : Current web r)
    (rows : List Verification) : Current web (r.insertVerifications rows r.tenure) := by
  refine ⟨⟨h.rows.snapshots, h.rows.capabilities, h.rows.skills, fun v hv hpassed => ?_⟩,
    h.endpoints⟩
  rcases List.mem_append.mp hv with hv | hv
  · exact h.rows.verifications v hv hpassed
  · obtain ⟨v', -, rfl⟩ := List.mem_map.mp hv
    rfl

/-- Changing the domain is sound for a record that carries nothing. -/
theorem current_setDomain {r : AgentRecord} (h : Current web r) {domain : String}
    (hset : domain = r.agent.canonicalDomain ∨ CarriesNothing web domain r) :
    Current web (r.setDomain domain) := by
  have hsame : SameRows r (r.setDomain domain) := ⟨rfl, rfl, rfl, rfl, rfl⟩
  rcases hset with heq | hnothing
  · refine ⟨?_, ?_⟩ <;> rw [setDomain_same heq]
    · exact h.rows.sameRows hsame
    · subst heq
      exact h.endpoints.sameRows hsame
  · exact ⟨(hnothing.sameRows hsame).rows _, (hnothing.sameRows hsame).endpointsBound _⟩

theorem current_sameRows {r r' : AgentRecord} (h : Current web r) (hs : SameRows r r')
    (htenure : r'.tenure = r.tenure)
    (hdomain : r'.agent.canonicalDomain = r.agent.canonicalDomain) : Current web r' := by
  refine ⟨?_, ?_⟩ <;> rw [htenure]
  · exact h.rows.sameRows hs
  · rw [hdomain]
    exact h.endpoints.sameRows hs

theorem current_setBinding {r : AgentRecord} (h : Current web r) (a2aEndpoint : Option String) :
    Current web (r.setBinding web a2aEndpoint) := by
  have hsame : SameRows r { r with activeBinding := a2aEndpoint } := ⟨rfl, rfl, rfl, rfl, rfl⟩
  exact current_synced (current_sameRows h hsame rfl rfl) (synced_syncCloudEndpoints _)

theorem setBinding_frame (web : Web) (r : AgentRecord) (a2aEndpoint : Option String) :
    (r.setBinding web a2aEndpoint).agent = r.agent ∧
      (r.setBinding web a2aEndpoint).tenure = r.tenure := by
  have hs : Synced web { r with activeBinding := a2aEndpoint } (r.setBinding web a2aEndpoint) :=
    synced_syncCloudEndpoints _
  exact ⟨hs.agent, hs.tenure⟩

/-- An enrollment bind that changes the domain resets nothing, so there must be nothing. -/
theorem current_enrollmentBind {r : AgentRecord} (h : Current web r) {host a2aEndpoint : String}
    (hbind : EnrollmentUndisturbed web r host a2aEndpoint) :
    Current web (r.enrollmentBind web host a2aEndpoint) := by
  obtain ⟨hagent, -⟩ := setBinding_frame web r (some a2aEndpoint)
  apply current_insertVerifications
  apply current_setDomain (current_setBinding h _)
  rw [hagent]
  exact hbind

theorem current_confirmRequest {r : AgentRecord} (h : Current web r) (hblank : Blank web r)
    (host a2aEndpoint : String) : Current web (r.confirmRequest web host a2aEndpoint) := by
  apply current_insertVerifications
  apply current_setBinding
  split
  · rename_i hempty
    exact current_setDomain h (.inr (hblank hempty host))
  · exact h

theorem enrollmentBind_frame (web : Web) (r : AgentRecord) (host a2aEndpoint : String) :
    (r.enrollmentBind web host a2aEndpoint).agent.canonicalDomain = host ∧
      (r.enrollmentBind web host a2aEndpoint).tenure = (r.setDomain host).tenure := by
  obtain ⟨hagent, htenure⟩ := setBinding_frame web r (some a2aEndpoint)
  refine ⟨rfl, ?_⟩
  change ((r.setBinding web (some a2aEndpoint)).setDomain host).tenure = _
  unfold setDomain
  rw [hagent, htenure]

theorem confirmRequest_frame (web : Web) (r : AgentRecord) {host : String} (hhost : host ≠ "")
    (a2aEndpoint : String) : Extends r (r.confirmRequest web host a2aEndpoint) ∧
      (r.confirmRequest web host a2aEndpoint).agent.canonicalDomain ≠ "" := by
  have hframe : ∀ r₁ : AgentRecord,
      ((r₁.setBinding web (some a2aEndpoint)).recordActiveBindingEvidence).agent = r₁.agent ∧
        ((r₁.setBinding web (some a2aEndpoint)).recordActiveBindingEvidence).tenure = r₁.tenure :=
    fun r₁ => setBinding_frame web r₁ (some a2aEndpoint)
  unfold confirmRequest
  dsimp only
  split
  · obtain ⟨hagent, htenure⟩ := hframe (r.setDomain host)
    have hdomain := congrArg CatalogAgent.canonicalDomain hagent
    refine ⟨extends_setDomain hhost htenure hdomain, ?_⟩
    rw [hdomain]
    exact hhost
  · rename_i hne
    obtain ⟨hagent, htenure⟩ := hframe r
    have hdomain := congrArg CatalogAgent.canonicalDomain hagent
    refine ⟨extends_same htenure hdomain, ?_⟩
    rw [hdomain]
    exact hne

/-! ### The two writes of a run -/

theorem mem_rows {α : Type} {p : Stamped Profile} {rows : Profile → List α} {x : Stamped α}
    (h : x ∈ p.rows rows) : x.tenure = p.tenure := by
  obtain ⟨row, -, rfl⟩ := List.mem_map.mp h
  rfl

/-- The mid-run write is sound when what it stores belongs to the present tenure. -/
theorem current_storeProfiles {r : AgentRecord} (h : Current web r) {urls : ProfileUrls}
    {tenure : Nat} {card ucp : Stamped Profile} (hcard : card.tenure = r.tenure)
    (hucp : ucp.tenure = r.tenure)
    (hurls : tenure = r.tenure ∨
      (EndpointFits web r.agent.canonicalDomain ⟨.agentCard, urls.agentCard⟩ ∧
        EndpointFits web r.agent.canonicalDomain ⟨.ucpProfile, urls.ucpProfile⟩)) :
    Current web (r.storeProfiles urls tenure card ucp) := by
  have happend : ∀ {α : Type} (rows : Profile → List α), ∀ x ∈ card.rows rows ++ ucp.rows rows,
      x.tenure = r.tenure := by
    intro α rows x hx
    rcases List.mem_append.mp hx with hx | hx
    · exact (mem_rows hx).trans hcard
    · exact (mem_rows hx).trans hucp
  refine ⟨⟨fun s hs => ?_, happend _, happend _, h.rows.verifications⟩, fun e he hprofile => ?_⟩
  · rcases List.mem_append.mp hs with hs | hs
    · exact h.rows.snapshots s hs
    · simp only [List.mem_cons, List.not_mem_nil, or_false] at hs
      rcases hs with rfl | rfl
      · exact hcard
      · exact hucp
  · rcases mem_upsertEndpoint he with rfl | he
    · exact hurls.imp id And.right
    · rcases mem_upsertEndpoint he with rfl | he
      · exact hurls.imp id And.left
      · exact h.endpoints e he hprofile

/-- The second write passes nothing unless domain control has passed. -/
theorem passed_stageVerifications {domainPassed identityPassed commercePassed : Bool}
    {v : Verification} (hv : v ∈ stageVerifications domainPassed identityPassed commercePassed)
    (hpassed : v.passed = true) : domainPassed = true := by
  cases domainPassed with
  | true => rfl
  | false =>
    rw [List.mem_singleton.mp hv] at hpassed
    cases hpassed

theorem current_persist {r : AgentRecord} (h : Current web r) {tenure : Nat} {domainPassed : Bool}
    (identityPassed commercePassed : Bool) (hpersist : tenure = r.tenure ∨ domainPassed = false) :
    Current web (r.insertVerifications
      (stageVerifications domainPassed identityPassed commercePassed) tenure) := by
  refine ⟨⟨h.rows.snapshots, h.rows.capabilities, h.rows.skills, fun v hv hpassed => ?_⟩,
    h.endpoints⟩
  rcases List.mem_append.mp hv with hv | hv
  · exact h.rows.verifications v hv hpassed
  · obtain ⟨v', hv', rfl⟩ := List.mem_map.mp hv
    have hdomain := passed_stageVerifications hv' hpassed
    rcases hpersist with heq | hfailed
    · exact heq
    · rw [hdomain] at hfailed
      cases hfailed

end KiwiCatalog.Trust
