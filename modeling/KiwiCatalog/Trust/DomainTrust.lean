import KiwiCatalog.Trust.DomainReset

/-!
# DomainTrust — undisturbed runs leave nothing of an earlier domain

The reset holds in every run in which no commit of a verification run or of a registration
overtakes a change of the domain, and no enrollment bind changes the domain of an agent with
derived rows.  Outside such runs it fails.
-/

set_option autoImplicit false
set_option linter.unusedSectionVars false

namespace KiwiCatalog.Trust

open Transition AgentRecord

variable {ρ γ : Type} [DecidableEq ρ] [DecidableEq γ] {web : Web}

/-! ## The invariant -/

/-- The profiles a run holds. -/
def RunPc.contents : RunPc → List (Stamped Profile)
  | .haveCard _ _ _ card => [card]
  | .haveProfiles _ _ _ card ucp => [card, ucp]
  | _ => []

/-- A run that has read the domain read a tenure up to now, and what it holds belongs to the present
tenure if that is the one. -/
structure RunFacts (r : AgentRecord) (pc : RunPc) : Prop where
  le : ∀ t, pc.tenure? = some t → t ≤ r.tenure
  domain : pc.tenure? ≠ none → r.agent.canonicalDomain ≠ ""
  contents : pc.tenure? = some r.tenure → ∀ p ∈ pc.contents, p.tenure = r.tenure

structure SystemInv (web : Web) (s : System ρ γ) : Prop where
  current : Current web s.record
  blank : Blank web s.record
  runs : ∀ r, RunFacts s.record (s.run r)

theorem runFacts_extends {r r' : AgentRecord} {pc : RunPc} (h : RunFacts r pc)
    (hext : Extends r r') : RunFacts r' pc := by
  refine ⟨fun t ht => Nat.le_trans (h.le t ht) hext.le, fun ht => hext.ne (h.domain ht),
    fun ht p hp => ?_⟩
  -- a run that has read the new tenure leaves no room for an older one
  have hsame : r'.tenure = r.tenure := by
    have hle := h.le _ ht
    have hle' := hext.le
    omega
  rw [hsame] at ht ⊢
  exact h.contents ht p hp

theorem runFacts_none {r : AgentRecord} {pc : RunPc} (h : pc.tenure? = none) : RunFacts r pc := by
  refine ⟨?_, ?_, ?_⟩ <;> rw [h] <;> simp

/-- A write of the record alone. -/
theorem systemInv_record {s : System ρ γ} (h : SystemInv web s) {record : AgentRecord}
    {registration : γ → Option String} (hcurrent : Current web record)
    (hblank : Blank web record) (hext : Extends s.record record) :
    SystemInv web { s with record := record, registration := registration } :=
  ⟨hcurrent, hblank, fun r => runFacts_extends (h.runs r) hext⟩

theorem systemInv_run {s : System ρ γ} (h : SystemInv web s) {r : ρ} {pc : RunPc}
    (hpc : RunFacts s.record pc) :
    SystemInv web { s with run := Function.update s.run r pc } := by
  refine ⟨h.current, h.blank, fun r' => ?_⟩
  change RunFacts s.record (Function.update s.run r pc r')
  by_cases hr : r' = r
  · subst hr
    rwa [Function.update_self]
  · rw [Function.update_of_ne hr]
    exact h.runs r'

theorem mem_of_latestSnapshot {r : AgentRecord} {profileType : ProfileType}
    {latest : Stamped ProfileSnapshot} (h : r.latestSnapshot profileType = some latest) :
    latest ∈ r.snapshots :=
  List.mem_of_mem_filter (List.mem_of_getLast? h)

/-- A step of a run that only reads. -/
theorem runFacts_reads {r r' : AgentRecord} {pc pc' : RunPc}
    (hstep : RunStep web .reads r pc r' pc') (hcurrent : Current web r) (h : RunFacts r pc) :
    r' = r ∧ RunFacts r pc' := by
  have hsnapshot : ∀ {profileType latest}, r.latestSnapshot profileType = some latest →
      latest.tenure = r.tenure := fun hlatest =>
    hcurrent.rows.snapshots _ (mem_of_latestSnapshot hlatest)
  cases hstep with
  | starts hactive | readsUrls hcard hucp | givesUp => exact ⟨rfl, runFacts_none rfl⟩
  | readsDomain hdomain hcard hucp =>
    refine ⟨rfl, fun t ht => ?_, fun _ => hdomain, fun _ p hp => by cases hp⟩
    cases ht
    exact Nat.le_refl _
  | fetchesCard card =>
    refine ⟨rfl, h.le, h.domain, fun ht p hp => ?_⟩
    rw [List.mem_singleton.mp hp]
    exact Option.some.inj ht
  | reusesCard card hlatest =>
    refine ⟨rfl, h.le, h.domain, fun ht p hp => ?_⟩
    rw [List.mem_singleton.mp hp]
    exact hsnapshot hlatest
  | fetchesUcp ucp =>
    refine ⟨rfl, h.le, h.domain, fun ht p hp => ?_⟩
    rcases List.mem_cons.mp hp with rfl | hp
    · exact h.contents ht p List.mem_cons_self
    · rw [List.mem_singleton.mp hp]
      exact Option.some.inj ht
  | reusesUcp ucp hlatest =>
    refine ⟨rfl, h.le, h.domain, fun ht p hp => ?_⟩
    rcases List.mem_cons.mp hp with rfl | hp
    · exact h.contents ht p List.mem_cons_self
    · rw [List.mem_singleton.mp hp]
      exact hsnapshot hlatest
  | failsDomain | provesDomain hdomain hcard hucp =>
    exact ⟨rfl, h.le, h.domain, fun _ p hp => by cases hp⟩

/-! ## Undisturbed steps -/

theorem systemInv_runStep {s : System ρ γ} (h : SystemInv web s) {r : ρ} {action : RunAction}
    {record : AgentRecord} {pc : RunPc} (hstep : RunStep web action s.record (s.run r) record pc)
    (hundisturbed : Undisturbed web s (.run r action)) :
    SystemInv web { s with record := record, run := Function.update s.run r pc } := by
  have hfacts := h.runs r
  generalize hpc : s.run r = pc₀ at hstep hfacts
  cases action with
  | reads =>
    obtain ⟨rfl, hfacts'⟩ := runFacts_reads hstep h.current hfacts
    exact systemInv_run h hfacts'
  | stores =>
    change StoreUndisturbed web s.record (s.run r) at hundisturbed
    rw [hpc] at hundisturbed
    cases hstep with
    | @stores _ expected urls tenure card ucp =>
      have hdomain := hfacts.domain (by simp [RunPc.tenure?])
      have hcontents : card.tenure = s.record.tenure ∧ ucp.tenure = s.record.tenure := by
        rcases hundisturbed with rfl | ⟨hcard, hucp, -⟩
        · have hall := hfacts.contents rfl
          exact ⟨hall card List.mem_cons_self,
            hall ucp (List.mem_cons_of_mem _ List.mem_cons_self)⟩
        · exact ⟨hcard, hucp⟩
      have hcurrent := current_storeProfiles h.current hcontents.1 hcontents.2
        (hundisturbed.imp id fun hfits => hfits.2.2)
      have hrecord : SystemInv web
          { s with record := s.record.storeProfiles urls tenure card ucp } :=
        systemInv_record h hcurrent (fun hempty => absurd hempty hdomain) (extends_same rfl rfl)
      apply systemInv_run hrecord
      exact ⟨hfacts.le, fun _ => hdomain, fun _ p hp => by cases hp⟩
  | persists =>
    change PersistUndisturbed s.record (s.run r) at hundisturbed
    rw [hpc] at hundisturbed
    cases hstep with
    | @persists _ expected urls tenure domainPassed identityPassed commercePassed hcheck =>
      have hdomain := hfacts.domain (by simp [RunPc.tenure?])
      have hcurrent := current_persist h.current identityPassed commercePassed hundisturbed
      have hrecord : SystemInv web { s with record := s.record.insertVerifications _ tenure } :=
        systemInv_record h hcurrent (fun hempty => absurd hempty hdomain) (extends_same rfl rfl)
      exact systemInv_run hrecord (runFacts_none rfl)

theorem systemInv_preserved :
    Preserves (UndisturbedStep web : System ρ γ → System ρ γ → Prop) (SystemInv web) := by
  rintro s s' ⟨event, hundisturbed, hstep⟩ h
  cases hstep with
  | run hrun => exact systemInv_runStep h hrun hundisturbed
  | registrationReads g => exact ⟨h.current, h.blank, h.runs⟩
  | @registers _ g prior req hprior =>
    obtain ⟨hdomain, htenure⟩ := register_frame web s.record prior req
    exact systemInv_record h (current_register h.current (hundisturbed prior hprior))
      (fun hempty => absurd (hdomain.symm.trans hempty) req.domain_ne)
      (extends_setDomain req.domain_ne htenure hdomain)
  | enrollmentBinds host a2aEndpoint hhost =>
    obtain ⟨hdomain, htenure⟩ := enrollmentBind_frame web s.record host a2aEndpoint
    exact systemInv_record h (current_enrollmentBind h.current hundisturbed)
      (fun hempty => absurd (hdomain.symm.trans hempty) hhost)
      (extends_setDomain hhost htenure hdomain)
  | confirms host a2aEndpoint hhost =>
    obtain ⟨hext, hne⟩ := confirmRequest_frame web s.record hhost a2aEndpoint
    exact systemInv_record h (current_confirmRequest h.current h.blank host a2aEndpoint)
      (fun hempty => absurd hempty hne) hext
  | governs agent hdomain =>
    have hsame : SameRows s.record { s.record with agent := agent } := ⟨rfl, rfl, rfl, rfl, rfl⟩
    exact systemInv_record h (current_sameRows h.current hsame rfl hdomain)
      (fun hempty d => (h.blank (hdomain.symm.trans hempty) d).sameRows hsame)
      (extends_same rfl hdomain)
  | syncs a2aEndpoint publication =>
    have hsame : SameRows s.record
        { s.record with activeBinding := a2aEndpoint, publication := publication } :=
      ⟨rfl, rfl, rfl, rfl, rfl⟩
    have hblank : Blank web
        { s.record with activeBinding := a2aEndpoint, publication := publication } :=
      fun hempty d => (h.blank hempty d).sameRows hsame
    have hs : Synced web { s.record with activeBinding := a2aEndpoint, publication := publication }
        _ := synced_syncCloudEndpoints _
    exact systemInv_record h (current_synced (current_sameRows h.current hsame rfl rfl) hs)
      (blank_synced hblank hs)
      (extends_same hs.tenure (congrArg CatalogAgent.canonicalDomain hs.agent))

theorem systemInv_started (s : System ρ γ) (h : Started web s) : SystemInv web s := by
  obtain ⟨-, hcurrent, hblank, hruns, -⟩ := h
  refine ⟨hcurrent, hblank, fun r => ?_⟩
  rw [hruns]
  exact runFacts_none rfl

/-- In every run whose commits are undisturbed, the agent carries nothing derived from a domain it
had before, in every state reached. -/
theorem domain_reset_of_undisturbed {s : System ρ γ}
    (hs : Reachable (Started web) (UndisturbedStep web) s) : Current web s.record :=
  (reachable_invariant systemInv_started systemInv_preserved hs).current

/-! ## A store that a registration overtakes -/

def exampleUrls : ProfileUrls :=
  ⟨"https://a.example/agent-card.json", "https://a.example/ucp.json"⟩

def exampleWeb : Web where
  urlparse url :=
    if url = exampleUrls.agentCard || url = exampleUrls.ucpProfile then
      some ⟨"https", some "a.example"⟩
    else none
  cloudCardUrl := "https://catalog.example/v1/agents/cagt_1/agent-card.json"

/-- A fresh registration under `a.example`. -/
def exampleRecord : AgentRecord where
  agent := ⟨"a.example", "m_1", "", .selfRegistered, .direct, .active, .active⟩
  snapshots := []
  capabilities := []
  skills := []
  verifications := []
  endpoints := [⟨⟨.agentCard, exampleUrls.agentCard⟩, 0⟩, ⟨⟨.ucpProfile, exampleUrls.ucpProfile⟩, 0⟩]
  activeBinding := none
  publication := none
  tenure := 0

/-- The merchant moves to `b.example`. -/
def moveRequest : RegisterRequest where
  domain := "b.example"
  domain_ne := by decide
  merchantId := "m_1"
  hostingMode := .direct
  capabilities := []
  skills := []
  agentCardUrl := ""
  ucpProfileUrl := ""

def exampleProfile (url : String) : Stamped Profile := ⟨⟨url, "", [], []⟩, 0⟩

/-- One run has fetched both profiles and one registration has selected the agent. -/
def fetchedSystem : System Unit Unit where
  record := exampleRecord
  run := fun _ => .haveProfiles exampleRecord.agent exampleUrls 0
    (exampleProfile exampleUrls.agentCard) (exampleProfile exampleUrls.ucpProfile)
  registration := fun _ => some "a.example"

theorem anyStep_of_undisturbed {s s' : System ρ γ} (h : UndisturbedStep web s s') :
    AnyStep web s s' := by
  obtain ⟨event, -, hstep⟩ := h
  exact ⟨event, hstep⟩

theorem reads_unit {s : System Unit Unit}
    (hs : @Reachable (System Unit Unit) (Started web) (UndisturbedStep web) s) {pc : RunPc}
    (h : RunStep web .reads s.record (s.run ()) s.record pc) :
    @Reachable (System Unit Unit) (Started web) (UndisturbedStep web)
      { s with run := fun _ => pc } := by
  have hmove : UndisturbedStep web s { s with run := Function.update s.run () pc } :=
    ⟨.run () .reads, trivial, .run h⟩
  rw [Update.update_unit] at hmove
  exact reachable_step hs hmove

theorem toList_toLower (s : String) : s.toLower.toList = s.toList.map Char.toLower :=
  String.toList_map

theorem exampleUrls_under : isUnder exampleWeb exampleUrls.agentCard "a.example" = true ∧
    isUnder exampleWeb exampleUrls.ucpProfile "a.example" = true := by
  constructor <;>
    simp [isUnder, isHttpUrl, canonicalDomainOf, isSameAuthority, exampleWeb, exampleUrls,
      normalizeHost, toList_toLower]

theorem fetchedSystem_reachable :
    Reachable (Started exampleWeb) (UndisturbedStep exampleWeb) fetchedSystem := by
  have hstart : Reachable (Started exampleWeb) (UndisturbedStep exampleWeb)
      (⟨exampleRecord, fun _ => .idle, fun _ => none⟩ : System Unit Unit) := by
    apply reachable_init
    refine ⟨rfl, ⟨⟨?_, ?_, ?_, ?_⟩, ?_⟩, fun hempty => ?_, fun _ => rfl, fun _ => rfl⟩
    · exact fun _ h => by cases h
    · exact fun _ h => by cases h
    · exact fun _ h => by cases h
    · exact fun _ h => by cases h
    · intro e he _
      left
      simp only [exampleRecord, List.mem_cons, List.not_mem_nil, or_false] at he
      rcases he with rfl | rfl <;> rfl
    · exact absurd hempty (by decide)
  have hselected := reachable_step hstart ⟨.registrationReads (), trivial, .registrationReads ()⟩
  rw [Update.update_unit] at hselected
  have hstarted := reads_unit hselected (.starts rfl)
  have hurls := reads_unit hstarted (@RunStep.readsUrls _ _ _ exampleUrls rfl rfl)
  have hdomain := reads_unit hurls
    (.readsDomain (by decide) exampleUrls_under.1 exampleUrls_under.2)
  have hcard := reads_unit hdomain (.fetchesCard (exampleProfile exampleUrls.agentCard).row)
  exact reads_unit hcard (.fetchesUcp (exampleProfile exampleUrls.ucpProfile).row)

/-- The run stores its profiles in time, and the registration resets them. -/
theorem domain_reset_of_undisturbed_move :
    Current exampleWeb ((exampleRecord.storeProfiles exampleUrls 0
      (exampleProfile exampleUrls.agentCard) (exampleProfile exampleUrls.ucpProfile)).register
        exampleWeb "a.example" moveRequest) := by
  have hstored := reachable_step fetchedSystem_reachable
    ⟨.run () .stores, .inl rfl, .run .stores⟩
  have hmoved := reachable_step hstored
    ⟨.registers () moveRequest, fun prior hprior => ?_, .registers moveRequest rfl⟩
  · exact domain_reset_of_undisturbed hmoved
  · cases hprior
    exact .inr (.inl ⟨by decide, by decide⟩)

/-- The registration moves to `b.example` and resets; then the run stores what it fetched from
`a.example`. -/
theorem stale_profiles_stored :
    ¬ ∀ s : System Unit Unit, Reachable (Started exampleWeb) (AnyStep exampleWeb) s →
      Current exampleWeb s.record := by
  intro h
  have hfetched : Reachable (Started exampleWeb) (AnyStep exampleWeb) fetchedSystem :=
    reachable_mono anyStep_of_undisturbed fetchedSystem_reachable
  have hmoved := reachable_step hfetched ⟨.registers () moveRequest, .registers moveRequest rfl⟩
  have hstored := reachable_step hmoved ⟨.run () .stores, .run .stores⟩
  have hcurrent := (h _ hstored).rows.snapshots
    ((exampleProfile exampleUrls.agentCard).snapshot .agentCard)
    (List.mem_append_right _ List.mem_cons_self)
  -- the registration has begun a new tenure
  have htenure : (exampleRecord.register exampleWeb "a.example" moveRequest).tenure = 1 :=
    (register_frame exampleWeb exampleRecord "a.example" moveRequest).2
  change 0 = (exampleRecord.register exampleWeb "a.example" moveRequest).tenure at hcurrent
  omega

end KiwiCatalog.Trust
