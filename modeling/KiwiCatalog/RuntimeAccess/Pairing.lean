import KiwiCatalog.RuntimeAccess.Readers

/-!
# Pairing — origin, configuration and consent of one committed state

What a statement adds to what a reader has read, the invariant of undisturbed runs, and the run in
which a rotation falls between two reads.
-/

set_option autoImplicit false
set_option linter.unusedSectionVars false

namespace KiwiCatalog.RuntimeAccess

open Transition

variable {env : Env} {sched : Schedule}

/-! ## What one statement adds -/

inductive Fact
  | consent
  | origin
  | config
  deriving DecidableEq, Repr

/-- The fact that a statement reads, if it is one of those that a delivery rests on. -/
def Statement.fact : Statement → Option Fact
  | .custodyConsent => some .consent
  | .binding | .relayBinding => some .origin
  | .config => some .config
  | _ => none

def Found.has (f : Found) : Fact → Bool
  | .consent => f.consent
  | .origin => f.origin.isSome
  | .config => f.config.isSome

/-- A statement keeps what was found, except for the fact that it reads at the state before it. -/
structure Adds (env : Env) (db : Db) (fact : Option Fact) (f f' : Found) : Prop where
  agentId : f'.agentId = f.agentId
  consent : f'.consent = f.consent ∨ (fact = some .consent ∧ ConsentActive db f.agentId)
  origin : f'.origin = f.origin ∨
    (fact = some .origin ∧ ∀ origin, f'.origin = some origin → OriginActive db f.agentId origin)
  config : f'.config = f.config ∨
    (fact = some .config ∧ ∀ version secret, f'.config = some (version, secret) →
      ConfigActive env db f.agentId version secret)

theorem adds_same (db : Db) (fact : Option Fact) {f f' : Found} (hagent : f'.agentId = f.agentId)
    (hconsent : f'.consent = f.consent) (horigin : f'.origin = f.origin)
    (hconfig : f'.config = f.config) : Adds env db fact f f' :=
  ⟨hagent, .inl hconsent, .inl horigin, .inl hconfig⟩

theorem adds_refl (db : Db) (fact : Option Fact) (f : Found) : Adds env db fact f f :=
  adds_same db fact rfl rfl rfl rfl

theorem adds_origin {db : Db} {f : Found} {b : Binding.RuntimeBinding}
    (hb : Binding.currentActiveBinding db.bindings f.agentId = some b) :
    Adds env db (some .origin) f { f with origin := some b.runtimeOrigin } := by
  refine ⟨rfl, .inl rfl, .inr ⟨rfl, ?_⟩, .inl rfl⟩
  intro origin horigin
  cases horigin
  exact originActive_of_current hb

theorem adds_config {db : Db} {f : Found} {c : AccessConfig} {secret : String}
    (hc : activeRuntimeAccess db.access f.agentId = some c)
    (hsecret : env.decryptSecret c.secretCiphertext c.keyId = some secret) :
    Adds env db (some .config) f { f with config := some (c.configVersion, secret) } := by
  refine ⟨rfl, .inl rfl, .inl rfl, .inr ⟨rfl, ?_⟩⟩
  intro version secret' hconfig
  cases hconfig
  exact configActive_of_find hc hsecret

theorem read_adds {now : Nat} {db : Db} {f f' : Found} {statement : Statement}
    (h : statement.read env now db f = some f') : Adds env db statement.fact f f' := by
  cases statement <;> simp only [Statement.read] at h
  case custodyConsent =>
    split at h
    · rename_i hcond
      cases h
      have hactive : ConsentActive db f.agentId := by
        intro hnone
        rw [hnone] at hcond
        exact absurd hcond.2 (by decide)
      exact ⟨rfl, .inr ⟨rfl, hactive⟩, .inl rfl, .inl rfl⟩
    · cases h
  case config =>
    split at h
    · cases h
    · rename_i c hc
      split at h
      · cases h
      · rename_i secret hsecret
        cases h
        exact adds_config hc hsecret
  case binding =>
    split at h
    · cases h
    · rename_i b hb
      cases h
      exact adds_origin hb
  case relayBinding =>
    split at h
    · cases h
    · rename_i b hb
      split at h
      · cases h
      · cases h
        exact adds_origin hb
  -- the other statements check their row and at most carry its merchant and binding on
  all_goals
    repeat' split at h
    all_goals
      cases h
    all_goals
      exact adds_same db _ rfl rfl rfl rfl

theorem Adds.has {db : Db} {fact : Option Fact} {f f' : Found} (h : Adds env db fact f f') {k : Fact}
    (hk : fact ≠ some k) : f'.has k = f.has k := by
  cases k with
  | consent =>
    rcases h.consent with heq | ⟨hfact, -⟩
    · show f'.consent = f.consent
      exact heq
    · exact absurd hfact hk
  | origin =>
    rcases h.origin with heq | ⟨hfact, -⟩
    · show f'.origin.isSome = f.origin.isSome
      rw [heq]
    · exact absurd hfact hk
  | config =>
    rcases h.config with heq | ⟨hfact, -⟩
    · show f'.config.isSome = f.config.isSome
      rw [heq]
    · exact absurd hfact hk

theorem Found.PairHolds.adds {db : Db} {fact : Option Fact} {f f' : Found}
    (h : f.PairHolds env db) (hadds : Adds env db fact f f') : f'.PairHolds env db := by
  constructor
  · intro origin horigin
    rw [hadds.agentId]
    rcases hadds.origin with heq | ⟨-, hnew⟩
    · rw [heq] at horigin
      exact h.origin origin horigin
    · exact hnew origin horigin
  · intro version secret hconfig
    rw [hadds.agentId]
    rcases hadds.config with heq | ⟨-, hnew⟩
    · rw [heq] at hconfig
      exact h.config version secret hconfig
    · exact hnew version secret hconfig

theorem Found.Holds.adds {db : Db} {fact : Option Fact} {f f' : Found}
    (h : f.Holds env db) (hadds : Adds env db fact f f') : f'.Holds env db := by
  refine ⟨h.toPairHolds.adds hadds, ?_⟩
  intro hconsent
  rw [hadds.agentId]
  rcases hadds.consent with heq | ⟨-, hnew⟩
  · rw [heq] at hconsent
    exact h.consent hconsent
  · exact hnew

/-- A statement that reads none of the facts leaves them in whatever state they held in. -/
theorem Found.Holds.adds_none {db db' : Db} {f f' : Found} (h : f.Holds env db')
    (hadds : Adds env db none f f') : f'.Holds env db' := by
  have horigin : f'.origin = f.origin := hadds.origin.resolve_right fun hnew => by cases hnew.1
  have hconfig : f'.config = f.config := hadds.config.resolve_right fun hnew => by cases hnew.1
  have hconsent : f'.consent = f.consent := hadds.consent.resolve_right fun hnew => by cases hnew.1
  refine ⟨⟨?_, ?_⟩, ?_⟩
  · rw [horigin, hadds.agentId]
    exact h.origin
  · rw [hconfig, hadds.agentId]
    exact h.config
  · rw [hconsent, hadds.agentId]
    exact h.consent

/-! ## Each fact is read once -/

def toRead (todo : List Statement) : List Fact := todo.filterMap Statement.fact

/-- The statements to come read each fact at most once, and none that has been read. -/
structure ReadsOnce (f : Found) (todo : List Statement) : Prop where
  nodup : (toRead todo).Nodup
  lacks : ∀ k ∈ toRead todo, f.has k = false

theorem ReadsOnce.step {db : Db} {f f' : Found} {statement : Statement} {todo : List Statement}
    (h : ReadsOnce f (statement :: todo)) (hadds : Adds env db statement.fact f f') :
    ReadsOnce f' todo := by
  cases hfact : statement.fact with
  | none =>
    have htodo : toRead (statement :: todo) = toRead todo := List.filterMap_cons_none hfact
    rw [hfact] at hadds
    refine ⟨htodo ▸ h.nodup, ?_⟩
    intro k hk
    rw [hadds.has (k := k) (Option.some_ne_none k).symm]
    exact h.lacks k (htodo ▸ hk)
  | some fact =>
    have htodo : toRead (statement :: todo) = fact :: toRead todo := List.filterMap_cons_some hfact
    have hnodup := h.nodup
    rw [htodo, List.nodup_cons] at hnodup
    refine ⟨hnodup.2, ?_⟩
    intro k hk
    have hne : statement.fact ≠ some k := by
      rw [hfact]
      intro heq
      cases heq
      exact hnodup.1 hk
    rw [hadds.has hne]
    exact h.lacks k (htodo ▸ List.mem_cons_of_mem _ hk)

theorem Found.Complete.has {f : Found} (h : f.Complete) (k : Fact) : f.has k = true := by
  cases k with
  | consent => exact h.1
  | origin => exact Option.isSome_iff_ne_none.mpr h.2.1
  | config => exact Option.isSome_iff_ne_none.mpr h.2.2

/-- Once everything has been read, the statements to come only check. -/
theorem ReadsOnce.fact_none {f : Found} {statement : Statement} {todo : List Statement}
    (h : ReadsOnce f (statement :: todo)) (hcomplete : f.Complete) : statement.fact = none := by
  cases hfact : statement.fact with
  | none => rfl
  | some fact =>
    have hmem : fact ∈ toRead (statement :: todo) := by
      unfold toRead
      rw [List.filterMap_cons_some hfact]
      exact List.mem_cons_self
    have hlacks := h.lacks fact hmem
    rw [hcomplete.has] at hlacks
    cases hlacks

theorem readsOnce_start {agentId : String} {todo : List Statement} (h : (toRead todo).Nodup) :
    ReadsOnce ⟨agentId, "", "", false, none, none⟩ todo := by
  refine ⟨h, ?_⟩
  intro k _
  cases k <;> rfl

theorem readsOnce_wake (found : Found) :
    ReadsOnce { found with consent := false } keepaliveEnabled := by
  have hread : toRead keepaliveEnabled = [.consent] := by decide
  refine ⟨hread ▸ (by decide), ?_⟩
  intro k hk
  rw [hread, List.mem_singleton] at hk
  rw [hk]
  rfl

/-! ## The invariant -/

/-- A reader stands on the present state until it has read everything, and from then on some state
since its start has all of it. -/
structure ReaderInv (env : Env) (log : History Db) (reader : Reader) : Prop where
  start : reader.start ≤ log.time
  once : ReadsOnce reader.found reader.todo
  holds : ¬ reader.found.Complete → reader.found.Holds env log.current
  seen : reader.found.Complete → log.Within reader.start log.time (reader.found.Holds env)

structure SystemInv (env : Env) {ρ π : Type} (s : System ρ π) : Prop where
  readers : ∀ r reader, s.readers r = some reader → ReaderInv env s.log reader
  passes : ∀ p, ∀ f ∈ (s.passes p).held, f.PairHolds env s.db
  waiting : ∀ f ∈ s.waiting, f.PairHolds env s.db
  sent : ∀ d ∈ s.sent, d.finish ≤ s.log.time ∧ s.log.Within d.start d.finish (Paired env d)

theorem readerInv_start (log : History Db) {f : Found} {todo : List Statement}
    (honce : ReadsOnce f todo) (hconsent : f.consent = false) (hholds : f.PairHolds env log.current) :
    ReaderInv env log ⟨log.time, todo, f⟩ := by
  refine ⟨Nat.le_refl _, honce, ?_, ?_⟩
  · intro _
    refine ⟨hholds, ?_⟩
    intro h
    rw [hconsent] at h
    cases h
  · intro hcomplete
    have h : f.consent = true := hcomplete.1
    rw [hconsent] at h
    cases h

theorem ReaderInv.read {log : History Db} {start now : Nat} {statement : Statement}
    {todo : List Statement} {found found' : Found}
    (h : ReaderInv env log ⟨start, statement :: todo, found⟩)
    (hread : statement.read env now log.current found = some found') :
    ReaderInv env log ⟨start, todo, found'⟩ := by
  have hadds := read_adds hread
  by_cases hcomplete : found.Complete
  · have hnone := h.once.fact_none hcomplete
    rw [hnone] at hadds
    have hsame : ∀ k, found'.has k = found.has k := fun k =>
      hadds.has (Option.some_ne_none k).symm
    have hcomplete' : found'.Complete := by
      refine ⟨?_, ?_, ?_⟩
      · exact (hsame .consent).trans (hcomplete.has _)
      · exact Option.isSome_iff_ne_none.mp ((hsame .origin).trans (hcomplete.has _))
      · exact Option.isSome_iff_ne_none.mp ((hsame .config).trans (hcomplete.has _))
    refine ⟨h.start, h.once.step (hnone ▸ hadds), fun hnot => absurd hcomplete' hnot, ?_⟩
    intro _
    obtain ⟨t, hfrom, hto, hholds⟩ := h.seen hcomplete
    exact ⟨t, hfrom, hto, hholds.adds_none hadds⟩
  · have hholds := (h.holds hcomplete).adds hadds
    refine ⟨h.start, h.once.step hadds, fun _ => hholds, ?_⟩
    intro _
    exact History.within_current h.start hholds

theorem ReaderInv.commit {log : History Db} {reader : Reader} {db : Db}
    (h : ReaderInv env log reader)
    (hkeeps : ¬ reader.found.Complete → reader.found.Holds env db) :
    ReaderInv env (log.commit db) reader := by
  refine ⟨?_, h.once, ?_, ?_⟩
  · have hstart := h.start
    rw [History.time_commit]
    omega
  · rw [History.current_commit]
    exact hkeeps
  · intro hcomplete
    have hseen := (h.seen hcomplete).commit (Nat.le_refl _) db
    rw [History.time_commit]
    exact hseen.mono (by omega)

theorem delivery_paired {log : History Db} {start version : Nat} {found : Found}
    {origin secret : String} (h : ReaderInv env log ⟨start, [], found⟩)
    (hconsent : found.consent = true) (horigin : found.origin = some origin)
    (hconfig : found.config = some (version, secret)) :
    log.Within start log.time
      (Paired env ⟨found.agentId, origin, version, secret, start, log.time⟩) := by
  have hcomplete : found.Complete := by
    refine ⟨hconsent, ?_, ?_⟩
    · rw [horigin]
      exact Option.some_ne_none _
    · rw [hconfig]
      exact Option.some_ne_none _
  obtain ⟨t, hfrom, hto, hholds⟩ := h.seen hcomplete
  exact ⟨t, hfrom, hto, hholds.origin origin horigin, hholds.config version secret hconfig,
    hholds.consent hconsent⟩

/-! ## The page -/

theorem originActive_of_joined {db : Db} {row : PageRow} (h : row ∈ joined db) :
    OriginActive db row.agentId row.runtimeOrigin := by
  obtain ⟨a, -, hrow⟩ := List.mem_flatMap.mp h
  obtain ⟨b, hb, rfl⟩ := List.mem_map.mp hrow
  have hfilter := List.mem_filter.mp hb
  have hcond := hfilter.2
  simp only [Bool.and_eq_true, decide_eq_true_eq] at hcond
  exact ⟨b, hfilter.1, hcond.1.1, hcond.1.2, rfl⟩

theorem mem_joined_of_mem_page {db : Db} {cursor : Option Cursor} {row : PageRow}
    (h : row ∈ page sched db cursor) : row ∈ joined db := by
  have hsorted := List.mem_of_mem_take h
  rw [List.mem_insertionSort] at hsorted
  exact (List.mem_filter.mp hsorted).1

theorem pairHolds_of_page {db : Db} {cursor : Option Cursor} {row : PageRow}
    (h : row ∈ page sched db cursor) : row.found.PairHolds env db := by
  constructor
  · intro origin horigin
    cases horigin
    exact originActive_of_joined (mem_joined_of_mem_page h)
  · intro version secret hconfig
    cases hconfig

/-- The claims of a pass leave bindings, configurations and consents alone. -/
theorem holds_writeAttempts {f : Found} {now : Nat} {claimed : List String} {db : Db} :
    f.Holds env db → f.Holds env (writeAttempts now claimed db) :=
  fun h => ⟨⟨h.origin, h.config⟩, h.consent⟩

theorem pairHolds_writeAttempts {f : Found} {now : Nat} {claimed : List String} {db : Db} :
    f.PairHolds env db → f.PairHolds env (writeAttempts now claimed db) :=
  fun h => ⟨h.origin, h.config⟩

/-! ## One step -/

section Steps

variable {ρ π : Type} [DecidableEq ρ] [DecidableEq π] {s : System ρ π}

theorem systemInv_commit (db : Db) (hs : SystemInv env s)
    (hreaders : ∀ r reader, s.readers r = some reader → ¬ reader.found.Complete →
      reader.found.Holds env db)
    (hpasses : ∀ p, ∀ f ∈ (s.passes p).held, f.PairHolds env db)
    (hwaiting : ∀ f ∈ s.waiting, f.PairHolds env db) :
    SystemInv env { s with log := s.log.commit db } := by
  have hdb : System.db { s with log := s.log.commit db } = db := History.current_commit ..
  refine ⟨?_, ?_, ?_, ?_⟩
  · intro r reader hr
    exact (hs.readers r reader hr).commit (hreaders r reader hr)
  · rw [hdb]
    exact hpasses
  · rw [hdb]
    exact hwaiting
  · intro d hd
    have hsent := hs.sent d hd
    refine ⟨?_, hsent.2.commit hsent.1 db⟩
    show d.finish ≤ s.log.time + 1
    have hfinish := hsent.1
    omega

theorem systemInv_reader {r : ρ} {x : Option Reader} (hs : SystemInv env s)
    (hx : ∀ reader, x = some reader → ReaderInv env s.log reader) :
    SystemInv env { s with readers := Function.update s.readers r x } := by
  refine ⟨?_, hs.passes, hs.waiting, hs.sent⟩
  exact Update.forall_update (P := fun _ x => ∀ reader, x = some reader → ReaderInv env s.log reader)
    hx fun r' _ => hs.readers r'

theorem systemInv_pass {p : π} (pass : Pass) (hs : SystemInv env s)
    (hpass : ∀ f ∈ pass.held, f.PairHolds env s.db) :
    SystemInv env { s with passes := Function.update s.passes p pass } := by
  refine ⟨hs.readers, ?_, hs.waiting, hs.sent⟩
  exact Update.forall_update (P := fun _ pass => ∀ f ∈ Pass.held pass, f.PairHolds env s.db) hpass
    fun p' _ => hs.passes p'

/-- A pass that goes on holds nothing but what it held. -/
theorem systemInv_subset {p : π} (pass : Pass) (hs : SystemInv env s)
    (hsubset : ∀ f ∈ pass.held, f ∈ (s.passes p).held) :
    SystemInv env { s with passes := Function.update s.passes p pass } :=
  systemInv_pass pass hs fun f hf => hs.passes p f (hsubset f hf)

theorem systemInv_writer (hs : SystemInv env s) (writer : Option π) :
    SystemInv env { s with writer := writer } :=
  ⟨hs.readers, hs.passes, hs.waiting, hs.sent⟩

theorem systemInv_wake {r : ρ} {found : Found} (hs : SystemInv env s)
    (hfound : found ∈ s.waiting) :
    SystemInv env { s with
      readers := Function.update s.readers r (some (wake s found))
      waiting := s.waiting.erase found } := by
  have hpair := hs.waiting found hfound
  have hwake : ReaderInv env s.log (wake s found) :=
    readerInv_start s.log (readsOnce_wake found) rfl ⟨hpair.origin, hpair.config⟩
  have hstep := systemInv_reader (r := r) (x := some (wake s found)) hs
    fun reader hreader => by
      cases hreader
      exact hwake
  exact ⟨hstep.readers, hstep.passes,
    fun f hf => hs.waiting f (List.mem_of_mem_erase hf), hstep.sent⟩

theorem systemInv_request {r : ρ} {todo : List Statement} (hs : SystemInv env s) (agentId : String)
    (htodo : (toRead todo).Nodup) :
    SystemInv env { s with
      readers := Function.update s.readers r (some (request s agentId todo)) } := by
  refine systemInv_reader hs ?_
  intro reader hreader
  cases hreader
  refine readerInv_start s.log (readsOnce_start htodo) rfl ⟨?_, ?_⟩
  · intro origin horigin
    cases horigin
  · intro version secret hconfig
    cases hconfig

theorem systemInv_delivers {r : ρ} {start version : Nat} {found : Found} {origin secret : String}
    (hs : SystemInv env s) (hr : s.readers r = some ⟨start, [], found⟩)
    (hconsent : found.consent = true) (horigin : found.origin = some origin)
    (hconfig : found.config = some (version, secret)) :
    SystemInv env { s with
      readers := Function.update s.readers r none
      sent := ⟨found.agentId, origin, version, secret, start, s.log.time⟩ :: s.sent } := by
  have hreader := hs.readers r _ hr
  have hidle := systemInv_reader (r := r) (x := none) hs fun reader hx => by cases hx
  refine ⟨hidle.readers, hidle.passes, hidle.waiting, ?_⟩
  intro d hd
  rcases List.mem_cons.mp hd with rfl | hd
  · exact ⟨Nat.le_refl _, delivery_paired hreader hconsent horigin hconfig⟩
  · exact hs.sent d hd

end Steps

variable {ρ π : Type} [DecidableEq ρ] [DecidableEq π]

theorem systemInv_preserved :
    Preserves (UndisturbedStep (ρ := ρ) (π := π) env sched) (SystemInv env) := by
  rintro s s' ⟨event, hstep, hcond⟩ hs
  cases hstep with
  | commits hfree h => exact systemInv_commit _ hs hcond.1 hcond.2.1 hcond.2.2
  | releaseBegins agentId buyer hr =>
    have htodo : toRead (getMerchantAccess buyer) = [.consent, .origin, .config] := rfl
    exact systemInv_request hs agentId (htodo ▸ by decide)
  | relayBegins agentId hr => exact systemInv_request hs agentId (by decide)
  | wakeBegins hr hfound => exact systemInv_wake hs hfound
  | reads now hr h =>
    refine systemInv_reader hs ?_
    intro reader hreader
    cases hreader
    exact (hs.readers _ _ hr).read h
  | delivers hr hconsent horigin hconfig => exact systemInv_delivers hs hr hconsent horigin hconfig
  | ends r => exact systemInv_reader hs fun reader hx => by cases hx
  | drops found =>
    exact ⟨hs.readers, hs.passes, fun f hf => hs.waiting f (List.mem_of_mem_erase hf), hs.sent⟩
  | passBegins hp => exact systemInv_pass _ hs fun f hf => by cases hf
  | @passPages _ p scan hp hroom =>
    refine systemInv_pass _ hs ?_
    intro f hf
    rcases List.mem_append.mp hf with hrow | hselected
    · obtain ⟨row, hmem, rfl⟩ := List.mem_map.mp hrow
      exact pairHolds_of_page hmem
    · have hheld := hs.passes p f
      rw [hp] at hheld
      exact hheld hselected
  | @passSkips _ p scan row rows now hp hrows hskip =>
    refine systemInv_subset _ hs ?_
    intro f hf
    rw [hp]
    show f ∈ scan.rows.map PageRow.found ++ scan.selected
    rw [hrows]
    exact List.mem_cons_of_mem _ hf
  | @passPicks _ p scan row rows now hp hrows hdue hsafe =>
    refine systemInv_subset _ hs ?_
    intro f hf
    rw [hp]
    show f ∈ scan.rows.map PageRow.found ++ scan.selected
    rw [hrows]
    exact hf
  | @passReads _ p scan statement todo found found' now hp h =>
    refine systemInv_pass _ hs ?_
    have hheld := hs.passes p
    rw [hp] at hheld
    intro f hf
    rcases List.mem_cons.mp hf with rfl | hf
    · exact (hheld found List.mem_cons_self).adds (read_adds h)
    · exact hheld f (List.mem_cons_of_mem _ hf)
  | @passDrops _ p scan statement todo found now hp h =>
    refine systemInv_subset _ hs ?_
    intro f hf
    rw [hp]
    exact List.mem_cons_of_mem _ hf
  | @passClaims _ p scan found now hp hwriter hclaim =>
    have hstep := systemInv_subset (p := p) (.scanning { scan with
      selected := scan.selected ++ [found]
      claimed := found.agentId :: scan.claimed
      rows := if scan.selected.length + 1 < sched.maxAgents then scan.rows else []
      full := scan.selected.length + 1 < sched.maxAgents && scan.full }) hs (by
        intro f hf
        rw [hp]
        rcases List.mem_append.mp hf with hrow | hselected
        · -- the rows that remain are rows that were there
          have hrow' : f ∈ scan.rows.map PageRow.found := by
            dsimp only at hrow
            split at hrow
            · exact hrow
            · cases hrow
          exact List.mem_cons_of_mem _ (List.mem_append_left _ hrow')
        · rcases List.mem_append.mp hselected with hselected | hnew
          · exact List.mem_cons_of_mem _ (List.mem_append_right _ hselected)
          · rw [List.mem_singleton.mp hnew]
            exact List.mem_cons_self)
    exact systemInv_writer hstep (some p)
  | @passCools _ p scan found now hp hclaim =>
    refine systemInv_subset _ hs ?_
    intro f hf
    rw [hp]
    exact List.mem_cons_of_mem _ hf
  | @passTurns _ p scan hp hrows hfull =>
    refine systemInv_subset _ hs ?_
    intro f hf
    rw [hp]
    exact List.mem_append_right _ hf
  | passEnds hp hrows hfull hclaimed => exact systemInv_pass _ hs fun f hf => by cases hf
  | @passCommits _ p scan now hp hrows hfull hwriter =>
    have hcommit := systemInv_commit (writeAttempts now scan.claimed s.db) hs
      (fun r reader hr hpart => holds_writeAttempts ((hs.readers r reader hr).holds hpart))
      (fun p f hf => pairHolds_writeAttempts (hs.passes p f hf))
      (fun f hf => pairHolds_writeAttempts (hs.waiting f hf))
    have hselected := hcommit.passes p
    have hidle := systemInv_pass (p := p) .idle hcommit fun f hf => by cases hf
    refine ⟨hidle.readers, hidle.passes, ?_, hidle.sent⟩
    intro f hf
    rcases List.mem_append.mp hf with hf | hf
    · exact hidle.waiting f hf
    · refine hselected f ?_
      show f ∈ (s.passes p).held
      rw [hp]
      exact List.mem_append_right _ hf
  | passFails p =>
    have hidle := systemInv_pass (p := p) .idle hs fun f hf => by cases hf
    exact systemInv_writer hidle _

theorem systemInv_started (s : System ρ π) (h : Started s) : SystemInv env s := by
  obtain ⟨-, hwaiting, hsent, hpasses, hreaders⟩ := h
  refine ⟨?_, ?_, ?_, ?_⟩
  · intro r reader hr
    rw [hreaders r] at hr
    cases hr
  · intro p f hf
    rw [hpasses p] at hf
    cases hf
  · rw [hwaiting]
    intro f hf
    cases hf
  · rw [hsent]
    intro d hd
    cases hd

/-- While transactions leave alone what the readers have read and not yet used, every secret that
is released or sent goes with the origin, the version and the consent of one committed state since
the release, relay or wake began. -/
theorem access_paired {s : System ρ π}
    (h : Reachable Started (UndisturbedStep env sched) s) :
    ∀ d ∈ s.sent, s.log.Within d.start d.finish (Paired env d) := by
  intro d hd
  have hinv := reachable_invariant systemInv_started systemInv_preserved h
  exact (hinv.sent d hd).2

/-! ## One agent whose runtime moves -/

instance (db : Db) (agentId origin : String) : Decidable (OriginActive db agentId origin) :=
  inferInstanceAs (Decidable (∃ b ∈ db.bindings, _))

instance (env : Env) (db : Db) (agentId : String) (version : Nat) (secret : String) :
    Decidable (ConfigActive env db agentId version secret) :=
  inferInstanceAs (Decidable (∃ c ∈ db.access.configs, _))

def exampleEnv : Env := ⟨true, fun secret => (secret, "k_1"), fun text _ => some text, fun _ => true⟩

def exampleSchedule : Schedule := ⟨900, 450, 75, 10⟩

def declared (bindingId origin : String) : Binding.Declaration :=
  ⟨bindingId, origin, origin ++ "/a2a", "key_1", "thumb_1", 1⟩

/-- The first runtime is bound, its configuration is version 1. -/
def boundDb : Db where
  bindings := [Binding.newRow "cagt_1" "m_1" "b_1" (declared "b_1" "https://one.example") 1]
  expiresAt := fun _ => .never
  access := ⟨[⟨"cagt_1", 1, "one", "k_1", .active, ""⟩],
    fun _ => some ⟨"m_1", consentTermsVersion, false⟩⟩
  around := ⟨[⟨"cagt_1", "m_1", .active, .active, .fresh, some 0⟩], fun _ _ => some true,
    fun _ => some .active, fun _ => none, fun _ => none⟩

def written (db : Db) (write : Write) : Db :=
  match write.apply exampleEnv db with
  | .ok db => db
  | .error _ => db

def rotatedDb : Db :=
  written boundDb (.binding (.create "cagt_1" "m_1" (declared "b_2" "https://two.example")) .never)

def stagedDb : Db := written rotatedDb (.stage "cagt_1" 1 "two")

def activatedDb : Db := written stagedDb (.activate "cagt_1" 2)

def boundLog : History Db := ⟨0, fun _ => boundDb⟩

def movedLog : History Db := ((boundLog.commit rotatedDb).commit stagedDb).commit activatedDb

def quiet (log : History Db) (reader : Option Reader) (sent : List Delivery) : System Unit Unit :=
  ⟨log, none, fun _ => .idle, [], fun _ => reader, sent⟩

def foundNothing : Found := ⟨"cagt_1", "", "", false, none, none⟩

/-- After the consent and the binding have been read. -/
def foundBinding : Found := ⟨"cagt_1", "m_1", "", true, some "https://one.example", none⟩

theorem started_quiet : Started (quiet boundLog none []) :=
  ⟨rfl, rfl, rfl, fun _ => rfl, fun _ => rfl⟩

theorem quiet_begins (log : History Db) :
    UndisturbedStep exampleEnv exampleSchedule (quiet log none [])
      (quiet log (some ⟨log.time, getMerchantAccess "buyer_1", foundNothing⟩) []) := by
  refine ⟨.other, ?_, trivial⟩
  have hstep : Step exampleEnv exampleSchedule .other _ _ :=
    .releaseBegins (s := quiet log none []) (r := ()) "cagt_1" "buyer_1" rfl
  rw [Update.update_unit] at hstep
  exact hstep

theorem quiet_reads {log : History Db} {start : Nat} {statement : Statement}
    {todo : List Statement} {found found' : Found}
    (h : statement.read exampleEnv 0 log.current found = some found') :
    UndisturbedStep exampleEnv exampleSchedule
      (quiet log (some ⟨start, statement :: todo, found⟩) [])
      (quiet log (some ⟨start, todo, found'⟩) []) := by
  refine ⟨.other, ?_, trivial⟩
  have hstep : Step exampleEnv exampleSchedule .other _ _ :=
    .reads (s := quiet log (some ⟨start, statement :: todo, found⟩) []) (r := ()) 0 rfl h
  rw [Update.update_unit] at hstep
  exact hstep

theorem quiet_delivers {log : History Db} {start version : Nat} (found : Found)
    {origin secret : String} (hconsent : found.consent = true) (horigin : found.origin = some origin)
    (hconfig : found.config = some (version, secret)) :
    UndisturbedStep exampleEnv exampleSchedule (quiet log (some ⟨start, [], found⟩) [])
      (quiet log none [⟨found.agentId, origin, version, secret, start, log.time⟩]) := by
  refine ⟨.other, ?_, trivial⟩
  have hstep : Step exampleEnv exampleSchedule .other _ _ :=
    .delivers (s := quiet log (some ⟨start, [], found⟩) []) (r := ()) rfl hconsent horigin hconfig
  rw [Update.update_unit] at hstep
  exact hstep

/-- The request has read the binding and comes to the configuration. -/
theorem reachable_foundBinding :
    @Reachable (System Unit Unit) Started (UndisturbedStep exampleEnv exampleSchedule)
      (quiet boundLog (some ⟨0, [.config], foundBinding⟩) []) := by
  have hagent : Statement.read exampleEnv 0 boundLog.current foundNothing .agent =
      some { foundNothing with merchantId := "m_1" } := by decide
  have hfollow : Statement.read exampleEnv 0 boundLog.current
      { foundNothing with merchantId := "m_1" } (.follow "buyer_1") =
      some { foundNothing with merchantId := "m_1" } := by decide
  have hconsent : Statement.read exampleEnv 0 boundLog.current
      { foundNothing with merchantId := "m_1" } .custodyConsent =
      some { foundNothing with merchantId := "m_1", consent := true } := by decide
  have hbinding : Statement.read exampleEnv 0 boundLog.current
      { foundNothing with merchantId := "m_1", consent := true } .binding =
      some foundBinding := by decide
  have hbegun := reachable_step (reachable_init started_quiet) (quiet_begins boundLog)
  have hread := reachable_step (reachable_step hbegun (quiet_reads hagent)) (quiet_reads hfollow)
  exact reachable_step (reachable_step hread (quiet_reads hconsent)) (quiet_reads hbinding)

/-- Nothing is committed between the reads: the pair is that of the first commit. -/
theorem access_paired_undisturbed :
    boundLog.Within 0 0 (Paired exampleEnv ⟨"cagt_1", "https://one.example", 1, "one", 0, 0⟩) := by
  have hconfig : Statement.read exampleEnv 0 boundLog.current foundBinding .config =
      some { foundBinding with config := some (1, "one") } := by decide
  have hread := reachable_step reachable_foundBinding (quiet_reads hconfig)
  have hsent := reachable_step hread
    (quiet_delivers { foundBinding with config := some (1, "one") } rfl rfl rfl)
  exact access_paired hsent _ List.mem_cons_self

theorem commits_quiet {log : History Db} {reader : Option Reader} {write : Write} {db : Db}
    (h : transact exampleEnv log.current [write] = .ok db) :
    AnyStep exampleEnv exampleSchedule (quiet log reader []) (quiet (log.commit db) reader []) :=
  ⟨.commits db, .commits rfl h⟩

/-- The runtime moves and its new configuration is activated between the two reads: the old origin
is released with the new secret. -/
theorem mixed_pair_released :
    ¬ ∀ s : System Unit Unit,
      Reachable Started (AnyStep exampleEnv exampleSchedule) s →
        ∀ d ∈ s.sent, s.log.Within d.start d.finish (Paired exampleEnv d) := by
  intro hall
  have hany : ∀ {s s' : System Unit Unit}, UndisturbedStep exampleEnv exampleSchedule s s' →
      AnyStep exampleEnv exampleSchedule s s' := fun hstep =>
    ⟨hstep.choose, hstep.choose_spec.1⟩
  have hfound := reachable_mono hany reachable_foundBinding
  have hrotate : transact exampleEnv boundLog.current
      [.binding (.create "cagt_1" "m_1" (declared "b_2" "https://two.example")) .never] =
        .ok rotatedDb := rfl
  have hstage : transact exampleEnv (boundLog.commit rotatedDb).current
      [.stage "cagt_1" 1 "two"] = .ok stagedDb := rfl
  have hactivate : transact exampleEnv ((boundLog.commit rotatedDb).commit stagedDb).current
      [.activate "cagt_1" 2] = .ok activatedDb := rfl
  have hrotated := reachable_step hfound (commits_quiet hrotate)
  have hstaged := reachable_step hrotated (commits_quiet hstage)
  have hmoved := reachable_step hstaged (commits_quiet hactivate)
  have hconfig : Statement.read exampleEnv 0 movedLog.current foundBinding .config =
      some { foundBinding with config := some (2, "two") } := by decide
  have hread := reachable_step hmoved (hany (quiet_reads hconfig))
  have hsent := reachable_step hread (hany
    (quiet_delivers { foundBinding with config := some (2, "two") } rfl rfl rfl))
  obtain ⟨t, -, ht, hpaired⟩ := hall _ hsent _ List.mem_cons_self
  have horigin := hpaired.origin
  have hversion := hpaired.config
  change t ≤ 3 at ht
  -- the first state has the origin, only the last one has the version
  have hcases : t = 0 ∨ t = 1 ∨ t = 2 ∨ t = 3 := by omega
  rcases hcases with rfl | rfl | rfl | rfl
  · exact absurd hversion (by decide)
  · exact absurd horigin (by decide)
  · exact absurd horigin (by decide)
  · exact absurd horigin (by decide)

end KiwiCatalog.RuntimeAccess
