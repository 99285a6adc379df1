import KiwiCatalog.Idempotency.Handlers

/-!
# AtMostOnce — the work of a triple commits once within the retention

A claimed row stays until it is completed, and a completed one until it is older than the retention:
while it is there no other request of the triple gets past the ledger.
-/

set_option autoImplicit false
set_option linter.unusedSectionVars false

namespace KiwiCatalog.Idempotency

open IsoText Transition

variable {ρ π δ : Type} [DecidableEq ρ] [DecidableEq π]

/-! ## What holds of one database state -/

/-- The retention, in microseconds. -/
def retention : Nat := 604800000000

/-- The first completion of the request is longer ago than the retention. -/
def Retired (db : Db ρ δ) (owner : ρ) (now : Nat) : Prop :=
  ∃ t, db.completedAt owner = some t ∧ t + retention < now

/-- Writes of the work of one triple are the writes of one request, or the earlier one was completed
longer than the retention before the later one. -/
def AtMostOnce (db : Db ρ δ) : Prop :=
  db.effects.Pairwise fun first second =>
    first.triple = second.triple → first.owner ≠ second.owner →
      Retired db first.owner second.time

structure DbInv (now : UtcClock) (db : Db ρ δ) : Prop where
  unique : Table.KeyUnique LedgerRow.triple db.ledger
  owned : ∀ e ∈ db.effects, (∃ row ∈ db.ledger, row.triple = e.triple ∧ row.owner = e.owner) ∨
    Retired db e.owner now.1
  completed : ∀ row ∈ db.ledger, row.status = .completed →
    ∃ t, db.completedAt row.owner = some t ∧ t ≤ row.updatedAt.wall
  past : ∀ owner t, db.completedAt owner = some t → t ≤ (nowIso now).wall
  once : AtMostOnce db

/-- The row that the request has claimed and not completed. -/
def HasClaim (request : ρ → Request) (db : Db ρ δ) (p : ρ) : Prop :=
  ∃ row ∈ db.ledger, row.triple = (request p).triple ∧
    row.requestHash = (request p).requestHash ∧ row.owner = p ∧ row.status = .processing

/-- The same as far as idempotency goes. -/
structure SameLedger (db db' : Db ρ δ) : Prop where
  ledger : db.ledger = db'.ledger
  effects : db.effects = db'.effects
  completedAt : db.completedAt = db'.completedAt

section Database

variable {request : ρ → Request} {now : UtcClock} {db db' : Db ρ δ} {p : ρ}

theorem retired_mono {owner : ρ} {time time' : Nat} (h : Retired db owner time)
    (hle : time ≤ time') : Retired db owner time' := by
  obtain ⟨t, hcompleted, hlt⟩ := h
  exact ⟨t, hcompleted, by omega⟩

/-- A completion that is on record stays on record. -/
theorem retired_of_keeps {owner : ρ} {time : Nat} (h : Retired db owner time)
    (hkeeps : ∀ owner t, db.completedAt owner = some t → db'.completedAt owner = some t) :
    Retired db' owner time := by
  obtain ⟨t, hcompleted, hlt⟩ := h
  exact ⟨t, hkeeps owner t hcompleted, hlt⟩

theorem dbInv_later {later : UtcClock} (h : DbInv now db) (hle : now.1 ≤ later.1) :
    DbInv later db where
  unique := h.unique
  owned := by
    intro e he
    rcases h.owned e he with hrow | hretired
    · exact .inl hrow
    · exact .inr (retired_mono hretired hle)
  completed := h.completed
  past := by
    intro owner t ht
    have hpast := h.past owner t ht
    have hmono := wall_nowIso_mono hle
    omega
  once := h.once

theorem dbInv_same (h : DbInv now db) (hsame : SameLedger db' db) : DbInv now db' := by
  have hkeeps : ∀ owner t, db.completedAt owner = some t → db'.completedAt owner = some t := by
    intro owner t ht
    rw [hsame.completedAt]
    exact ht
  refine ⟨?_, ?_, ?_, ?_, ?_⟩
  · rw [hsame.ledger]
    exact h.unique
  · intro e he
    rw [hsame.effects] at he
    rcases h.owned e he with hrow | hretired
    · rw [hsame.ledger]
      exact .inl hrow
    · exact .inr (retired_of_keeps hretired hkeeps)
  · intro row hrow hdone
    rw [hsame.ledger] at hrow
    rw [hsame.completedAt]
    exact h.completed row hrow hdone
  · rw [hsame.completedAt]
    exact h.past
  · unfold AtMostOnce
    rw [hsame.effects]
    exact h.once.imp fun hab htriple howner => retired_of_keeps (hab htriple howner) hkeeps

theorem dbInv_claim (h : DbInv now db) (r : Request) (p : ρ)
    (hfree : ∀ row ∈ db.ledger, row.triple ≠ r.triple) :
    DbInv now { db with ledger := db.ledger ++ [claimRow r p now] } := by
  refine ⟨?_, ?_, ?_, h.past, h.once⟩
  · have hinsert : Table.insert? LedgerRow.triple (claimRow r p now) db.ledger =
        some (db.ledger ++ [claimRow r p now]) := by
      unfold Table.insert?
      rw [if_neg]
      rw [Bool.not_eq_true, List.any_eq_false]
      intro row hrow heq
      exact hfree row hrow (of_decide_eq_true heq)
    exact Table.keyUnique_insert? h.unique hinsert
  · intro e he
    rcases h.owned e he with ⟨row, hrow, hof⟩ | hretired
    · exact .inl ⟨row, List.mem_append_left _ hrow, hof⟩
    · exact .inr hretired
  · intro row hrow hdone
    rcases List.mem_append.mp hrow with hold | hnew
    · exact h.completed row hold hdone
    · rw [List.mem_singleton.mp hnew] at hdone
      cases hdone

/-- The row of a claim is the only one of its triple. -/
theorem owner_of_claim (hunique : Table.KeyUnique LedgerRow.triple db.ledger)
    (hclaim : HasClaim request db p) {row : LedgerRow ρ} (hrow : row ∈ db.ledger)
    (htriple : row.triple = (request p).triple) : row.owner = p ∧ row.status = .processing := by
  obtain ⟨own, hown, htriple', -, howner, hstatus⟩ := hclaim
  have hlookup := Table.lookup_of_mem hunique hrow
  have hlookup' := Table.lookup_of_mem hunique hown
  rw [htriple', ← htriple, hlookup] at hlookup'
  rw [Option.some.inj hlookup']
  exact ⟨howner, hstatus⟩

theorem dbInv_work (h : DbInv now db) (f : δ → δ)
    (hclaim : (request p).keyed = true → HasClaim request db p) :
    DbInv now (workWrite (request p) p now f db) := by
  unfold workWrite
  by_cases hkeyed : (request p).keyed = true
  · rw [if_pos hkeyed]
    have hrow := hclaim hkeyed
    refine ⟨h.unique, ?_, h.completed, h.past, ?_⟩
    · intro e he
      rcases List.mem_append.mp he with hold | hnew
      · exact h.owned e hold
      · rw [List.mem_singleton.mp hnew]
        obtain ⟨row, hmem, htriple, -, howner, -⟩ := hrow
        exact .inl ⟨row, hmem, htriple, howner⟩
    · show List.Pairwise _ (db.effects ++ [_])
      rw [List.pairwise_append]
      refine ⟨h.once, List.pairwise_singleton _ _, ?_⟩
      intro first hfirst second hsecond htriple howner
      rw [List.mem_singleton.mp hsecond] at htriple howner ⊢
      -- the row of the earlier write would be the claim of this one
      rcases h.owned first hfirst with ⟨row, hmem, hrowTriple, hrowOwner⟩ | hretired
      · have hown := owner_of_claim h.unique hrow hmem (hrowTriple.trans htriple)
        exact absurd (hrowOwner.symm.trans hown.1) howner
      · exact hretired
  · rw [if_neg hkeyed]
    exact dbInv_same h ⟨rfl, rfl, rfl⟩

theorem completedAt_completion (r : Request) (p : ρ) (response : Dict) (count : Nat)
    (now : UtcClock) (db : Db ρ δ) :
    (∀ owner t, db.completedAt owner = some t →
      (completion r p response count now db).completedAt owner = some t) ∧
    (∃ t, (completion r p response count now db).completedAt p = some t) ∧
    ∀ owner t, (completion r p response count now db).completedAt owner = some t →
      db.completedAt owner = some t ∨ t = (nowIso now).wall := by
  unfold completion
  dsimp only
  cases hp : db.completedAt p with
  | none =>
    rw [if_pos rfl]
    refine ⟨?_, ⟨_, Function.update_self ..⟩, ?_⟩
    · intro owner t ht
      have hne : owner ≠ p := fun heq => by
        rw [heq, hp] at ht
        cases ht
      rw [Function.update_of_ne hne]
      exact ht
    · intro owner t ht
      by_cases heq : owner = p
      · rw [heq, Function.update_self] at ht
        exact .inr (Option.some.inj ht).symm
      · rw [Function.update_of_ne heq] at ht
        exact .inl ht
  | some t₀ =>
    rw [if_neg (by simp)]
    exact ⟨fun _ _ ht => ht, ⟨t₀, hp⟩, fun _ _ ht => .inl ht⟩

theorem dbInv_completion (h : DbInv now db) (hclaim : HasClaim request db p) (response : Dict)
    (count : Nat) : DbInv now (completion (request p) p response count now db) := by
  obtain ⟨hkeeps, ⟨t, ht⟩, hfrom⟩ :=
    completedAt_completion (request p) p response count now db
  have hpast : ∀ owner t,
      (completion (request p) p response count now db).completedAt owner = some t →
        t ≤ (nowIso now).wall := by
    intro owner t ht
    rcases hfrom owner t ht with hold | hnew
    · exact h.past owner t hold
    · omega
  refine ⟨keyUnique_complete h.unique _ _ _ _, ?_, ?_, hpast, ?_⟩
  · intro e he
    rcases h.owned e he with ⟨row, hrow, htriple, howner⟩ | hretired
    · rcases complete_keeps (request p) response count now hrow with
        ⟨row', hrow', htriple', howner'⟩ | ⟨hdone, hold⟩
      · exact .inl ⟨row', hrow', htriple'.trans htriple, howner'.trans howner⟩
      · obtain ⟨t, hcompleted, hle⟩ := h.completed row hrow hdone
        have hcutoff : row.updatedAt.wall < now.1 - retention := hold
        rw [howner] at hcompleted
        exact .inr ⟨t, hkeeps _ _ hcompleted, by omega⟩
    · exact .inr (retired_of_keeps hretired hkeeps)
  · intro row hrow hdone
    rcases mem_complete hrow with hold | ⟨row₀, hrow₀, hof, rfl⟩
    · obtain ⟨t, hcompleted, hle⟩ := h.completed row hold hdone
      exact ⟨t, hkeeps _ _ hcompleted, hle⟩
    · have htriple : row₀.triple = (request p).triple := by
        unfold ofRequest at hof
        exact of_decide_eq_true (Bool.and_eq_true_iff.mp hof).1
      have hown : row₀.owner = p := (owner_of_claim h.unique hclaim hrow₀ htriple).1
      refine ⟨t, ?_, hpast p t ht⟩
      show (completion (request p) p response count now db).completedAt row₀.owner = some t
      rw [hown]
      exact ht
  · exact h.once.imp fun hab htriple howner => retired_of_keeps (hab htriple howner) hkeeps

/-- A completion leaves the claims of the other requests alone. -/
theorem hasClaim_completion {q : ρ} (h : DbInv now db) (hclaim : HasClaim request db p)
    (hother : HasClaim request db q) (hne : q ≠ p) (response : Dict) (count : Nat) :
    HasClaim request (completion (request p) p response count now db) q := by
  obtain ⟨row, hrow, htriple, hhash, howner, hstatus⟩ := hother
  refine ⟨row, mem_complete_of hrow ?_ ?_, htriple, hhash, howner, hstatus⟩
  · intro hdone
    rw [hstatus] at hdone
    cases hdone
  · cases hof : ofRequest (request p) row with
    | false => rfl
    | true =>
      unfold ofRequest at hof
      have hsame : row.triple = (request p).triple :=
        of_decide_eq_true (Bool.and_eq_true_iff.mp hof).1
      have hown := (owner_of_claim h.unique hclaim hrow hsame).1
      exact absurd (howner.symm.trans hown) hne

end Database

/-! ## The invariant of the system -/

/-- Where the claim of an unfinished request is: in its open transaction, or, once it has committed,
in every database state that there is. -/
def Claiming (request : ρ → Request) (s : System ρ π δ) (p : ρ) : Bool → Prop
  | false => ∃ db, s.pending = some (p, db) ∧ HasClaim request db p ∧
      ∀ row ∈ s.committed.ledger, row.triple ≠ (request p).triple
  | true => HasClaim request s.committed p ∧
      ∀ q db, s.pending = some (q, db) → HasClaim request db p

structure SystemInv (request : ρ → Request) (s : System ρ π δ) : Prop where
  committedInv : DbInv s.clock s.committed
  pendingInv : ∀ q db, s.pending = some (q, db) → DbInv s.clock db
  quiet : ∀ q db, s.pending = some (q, db) → (s.phase q).unclaimed = true →
    SameLedger db s.committed
  claiming : ∀ p, (request p).keyed = true → ∀ midCommit,
    (s.phase p).claimed? = some midCommit → Claiming request s p midCommit

section System

variable {request : ρ → Request} {s : System ρ π δ} {p : ρ}

theorem view_inv (hinv : SystemInv request s) (p : ρ) : DbInv s.clock (s.view p) := by
  rcases pending_or_not s p with ⟨db, hpending⟩ | hnot
  · rw [view_of_pending hpending]
    exact hinv.pendingInv p db hpending
  · rw [view_of_not_pending hnot]
    exact hinv.committedInv

theorem view_quiet (hinv : SystemInv request s) (hphase : (s.phase p).unclaimed = true) :
    SameLedger (s.view p) s.committed := by
  rcases pending_or_not s p with ⟨db, hpending⟩ | hnot
  · rw [view_of_pending hpending]
    exact hinv.quiet p db hpending hphase
  · rw [view_of_not_pending hnot]
    exact ⟨rfl, rfl, rfl⟩

theorem hasClaim_view {midCommit : Bool} (h : Claiming request s p midCommit) :
    HasClaim request (s.view p) p := by
  cases midCommit with
  | false =>
    obtain ⟨db, hpending, hclaim, -⟩ := h
    rw [view_of_pending hpending]
    exact hclaim
  | true =>
    rcases pending_or_not s p with ⟨db, hpending⟩ | hnot
    · rw [view_of_pending hpending]
      exact h.2 p db hpending
    · rw [view_of_not_pending hnot]
      exact h.1

/-- A step of the handler that touches no database state. -/
theorem systemInv_goto {phase : Phase δ} (hinv : SystemInv request s)
    (hquiet : phase.unclaimed = true → (s.phase p).unclaimed = true)
    (hclaiming : (request p).keyed = true → ∀ midCommit, phase.claimed? = some midCommit →
      Claiming request s p midCommit) : SystemInv request (s.goto p phase) := by
  refine ⟨hinv.committedInv, hinv.pendingInv, ?_, ?_⟩
  · intro q db hpending hphase
    by_cases hq : q = p
    · rw [hq, phase_goto_self] at hphase
      rw [hq] at hpending
      exact hinv.quiet p db hpending (hquiet hphase)
    · rw [phase_goto_of_ne hq] at hphase
      exact hinv.quiet q db hpending hphase
  · intro q hkeyed midCommit hphase
    by_cases hq : q = p
    · rw [hq] at hkeyed hphase ⊢
      rw [phase_goto_self] at hphase
      exact hclaiming hkeyed midCommit hphase
    · rw [phase_goto_of_ne hq] at hphase
      exact hinv.claiming q hkeyed midCommit hphase

/-- A writing statement of a session that may write. -/
theorem systemInv_write {db : Db ρ δ} {phase : Phase δ} (hinv : SystemInv request s)
    (hwrite : s.MayWrite p) (hdb : DbInv s.clock db)
    (hquiet : phase.unclaimed = true → SameLedger db s.committed)
    (hothers : ∀ q, q ≠ p → (request q).keyed = true → HasClaim request (s.view p) q →
      HasClaim request db q)
    (hclaiming : (request p).keyed = true → ∀ midCommit, phase.claimed? = some midCommit →
      Claiming request (s.write p db) p midCommit) :
    SystemInv request ((s.write p db).goto p phase) := by
  have hpending : ∀ q db', ((s.write p db).goto p phase).pending = some (q, db') →
      q = p ∧ db' = db := by
    intro q db' h
    have hpair := Option.some.inj h
    exact ⟨(congrArg Prod.fst hpair).symm, (congrArg Prod.snd hpair).symm⟩
  refine ⟨hinv.committedInv, ?_, ?_, ?_⟩
  · intro q db' h
    rw [(hpending q db' h).2]
    exact hdb
  · intro q db' h hphase
    obtain ⟨hq, hdb'⟩ := hpending q db' h
    rw [hq, phase_goto_self] at hphase
    rw [hdb']
    exact hquiet hphase
  · intro q hkeyed midCommit hphase
    by_cases hq : q = p
    · rw [hq] at hkeyed hphase ⊢
      rw [phase_goto_self] at hphase
      exact hclaiming hkeyed midCommit hphase
    · rw [phase_goto_of_ne hq] at hphase
      have hold := hinv.claiming q hkeyed midCommit hphase
      cases midCommit with
      | false =>
        obtain ⟨db', hpending', -⟩ := hold
        exact absurd (hwrite q db' hpending') hq
      | true =>
        obtain ⟨hcommitted, hall⟩ := hold
        refine ⟨hcommitted, fun q' db' h => ?_⟩
        rw [(hpending q' db' h).2]
        apply hothers q hq hkeyed
        rcases pending_or_not s p with ⟨db₀, hpending₀⟩ | hnot
        · rw [view_of_pending hpending₀]
          exact hall p db₀ hpending₀
        · rw [view_of_not_pending hnot]
          exact hcommitted

/-- The end of a transaction without its effect. -/
theorem systemInv_rollback {result : Except Failure Dict} (hinv : SystemInv request s) :
    SystemInv request ((s.rollback p).goto p (.ended result)) := by
  have hpending : ∀ q db, s.release p = some (q, db) → s.pending = some (q, db) :=
    fun q db h => (release_eq_some h).1
  refine ⟨hinv.committedInv, fun q db h => hinv.pendingInv q db (hpending q db h), ?_, ?_⟩
  · intro q db h hphase
    have hq : q ≠ p := (release_eq_some h).2
    rw [phase_goto_of_ne hq] at hphase
    exact hinv.quiet q db (hpending q db h) hphase
  · intro q hkeyed midCommit hphase
    by_cases hq : q = p
    · rw [hq, phase_goto_self] at hphase
      cases hphase
    · rw [phase_goto_of_ne hq] at hphase
      have hold := hinv.claiming q hkeyed midCommit hphase
      cases midCommit with
      | false =>
        obtain ⟨db, hpending', hclaim, hfree⟩ := hold
        have hnot : ∀ db', s.pending ≠ some (p, db') := by
          intro db' h
          rw [hpending'] at h
          exact hq (congrArg Prod.fst (Option.some.inj h))
        refine ⟨db, ?_, hclaim, hfree⟩
        show s.release p = some (q, db)
        rw [release_of_not_pending hnot]
        exact hpending'
      | true => exact ⟨hold.1, fun q' db h => hold.2 q' db (hpending q' db h)⟩

/-- A commit, after which the handler works on or has ended. -/
theorem systemInv_commit {phase : Phase δ} (hinv : SystemInv request s)
    (hphase' : phase.unclaimed = false)
    (hclaimed : (request p).keyed = true → ∀ midCommit, phase.claimed? = some midCommit →
      midCommit = true ∧ ∃ old, Claiming request s p old) :
    SystemInv request ((s.commit p).goto p phase) := by
  rcases pending_or_not s p with ⟨db, hpending⟩ | hnot
  · have hview : s.view p = db := view_of_pending hpending
    have hnone : s.release p = none := release_of_pending hpending
    have hno : ∀ q db', ((s.commit p).goto p phase).pending ≠ some (q, db') := by
      intro q db' h
      have hsome : s.release p = some (q, db') := h
      rw [hnone] at hsome
      cases hsome
    refine ⟨view_inv hinv p, fun q db' h => absurd h (hno q db'),
      fun q db' h => absurd h (hno q db'), ?_⟩
    intro q hkeyed midCommit hphase
    by_cases hq : q = p
    · rw [hq] at hkeyed hphase ⊢
      rw [phase_goto_self] at hphase
      obtain ⟨hmid, old, hold⟩ := hclaimed hkeyed midCommit hphase
      rw [hmid]
      exact ⟨hasClaim_view hold, fun q' db' h => absurd h (hno q' db')⟩
    · rw [phase_goto_of_ne hq] at hphase
      have hold := hinv.claiming q hkeyed midCommit hphase
      cases midCommit with
      | false =>
        obtain ⟨db', hpending', -⟩ := hold
        rw [hpending] at hpending'
        exact absurd (congrArg Prod.fst (Option.some.inj hpending')).symm hq
      | true =>
        refine ⟨?_, fun q' db' h => absurd h (hno q' db')⟩
        show HasClaim request (s.view p) q
        rw [hview]
        exact hold.2 p db hpending
  · -- nothing is open: the commit is of no effect
    have hsame : s.commit p = s := by
      unfold System.commit
      rw [view_of_not_pending hnot, release_of_not_pending hnot]
    rw [hsame]
    apply systemInv_goto hinv
    · intro h
      rw [hphase'] at h
      cases h
    · intro hkeyed midCommit hphase
      obtain ⟨hmid, old, hold⟩ := hclaimed hkeyed midCommit hphase
      rw [hmid]
      cases old with
      | true => exact hold
      | false =>
        obtain ⟨db, hpending, -⟩ := hold
        exact absurd hpending (hnot db)

theorem systemInv_started (h : Started request s) : SystemInv request s := by
  obtain ⟨hledger, heffects, hcompleted, hpending, hphase⟩ := h
  have hno : ∀ q db, s.pending ≠ some (q, db) := by
    intro q db hsome
    rw [hpending] at hsome
    cases hsome
  refine ⟨⟨?_, ?_, ?_, ?_, ?_⟩, fun q db h => absurd h (hno q db), fun q db h => absurd h (hno q db),
    ?_⟩
  · rw [hledger]
    exact List.nodup_nil
  · rw [heffects]
    intro e he
    cases he
  · rw [hledger]
    intro row hrow
    cases hrow
  · intro owner t ht
    rw [hcompleted] at ht
    cases ht
  · unfold AtMostOnce
    rw [heffects]
    exact .nil
  · intro p _ midCommit hclaimed
    rw [hphase p] at hclaimed
    cases hendpoint : (request p).triple.endpoint <;> rw [hendpoint] at hclaimed <;> cases hclaimed

end System

/-! ## Every step keeps it -/

section Steps

variable {env : Env ρ δ} {request : ρ → Request} {process : ρ → π} {s : System ρ π δ} {p : ρ}

theorem unclaimed_afterLookup (endpoint : Endpoint) :
    (afterLookup endpoint : Phase δ).unclaimed = true := by
  cases endpoint <;> rfl

theorem unclaimed_afterWriteLimit (endpoint : Endpoint) :
    (afterWriteLimit endpoint : Phase δ).unclaimed = true := by
  cases endpoint <;> rfl

theorem claimed_afterClaim (env : Env ρ δ) (request : ρ → Request) (p : ρ) :
    (afterClaim env request p).claimed? = some false ∧
      (afterClaim env request p).unclaimed = false := by
  unfold afterClaim
  cases (request p).triple.endpoint <;> exact ⟨rfl, rfl⟩

theorem claimed_of_unclaimed {phase : Phase δ} (h : phase.unclaimed = true) :
    phase.claimed? = none := by
  cases phase with
  | work => cases h
  | complete => cases h
  | begin => rfl
  | authenticate => rfl
  | lookup => rfl
  | check => rfl
  | writeLimit => rfl
  | domainLimit => rfl
  | claim => rfl
  | returning => rfl
  | ended => rfl

/-- From one statement before the claim to another. -/
theorem systemInv_goto_unclaimed {phase : Phase δ} (hinv : SystemInv request s)
    (hphase : (s.phase p).unclaimed = true) (hnext : phase.unclaimed = true) :
    SystemInv request (s.goto p phase) := by
  apply systemInv_goto hinv (fun _ => hphase)
  intro _ midCommit hclaimed
  rw [claimed_of_unclaimed hnext] at hclaimed
  cases hclaimed

/-- A write before the claim leaves the ledger as it is. -/
theorem systemInv_write_unclaimed {db : Db ρ δ} {phase : Phase δ} (hinv : SystemInv request s)
    (hwrite : s.MayWrite p) (hphase : (s.phase p).unclaimed = true)
    (hnext : phase.unclaimed = true) (hsame : SameLedger db (s.view p)) :
    SystemInv request ((s.write p db).goto p phase) := by
  have hview := view_quiet hinv hphase
  apply systemInv_write hinv hwrite (dbInv_same (view_inv hinv p) hsame)
  · intro _
    exact ⟨hsame.ledger.trans hview.ledger, hsame.effects.trans hview.effects,
      hsame.completedAt.trans hview.completedAt⟩
  · rintro q - - ⟨row, hrow, hof⟩
    refine ⟨row, ?_, hof⟩
    rw [hsame.ledger]
    exact hrow
  · intro _ midCommit hclaimed
    rw [claimed_of_unclaimed hnext] at hclaimed
    cases hclaimed

theorem systemInv_claims {ledger : List (LedgerRow ρ)} (hinv : SystemInv request s)
    (hphase : s.phase p = .claim) (hwrite : s.MayWrite p) (hkeyed : (request p).keyed = true)
    (h : claim (s.view p).ledger (request p) p s.clock = .ok (none, ledger)) :
    SystemInv request
      ((s.write p { s.view p with ledger := ledger }).goto p (afterClaim env request p)) := by
  obtain ⟨hclaimed, hunclaimed⟩ := claimed_afterClaim env request p
  have hview : SameLedger (s.view p) s.committed := view_quiet hinv (by rw [hphase]; rfl)
  obtain ⟨hfree, rfl⟩ := claim_inserted hkeyed h
  apply systemInv_write hinv hwrite (dbInv_claim (view_inv hinv p) _ _ hfree)
  · intro hquiet
    rw [hunclaimed] at hquiet
    cases hquiet
  · rintro q - - ⟨row, hrow, hof⟩
    exact ⟨row, List.mem_append_left _ hrow, hof⟩
  · intro _ midCommit hphase'
    rw [hclaimed] at hphase'
    rw [← Option.some.inj hphase']
    refine ⟨_, rfl, ⟨claimRow (request p) p s.clock, ?_, rfl, rfl, rfl, rfl⟩, ?_⟩
    · exact List.mem_append_right _ (List.mem_singleton.mpr rfl)
    · show ∀ row ∈ s.committed.ledger, row.triple ≠ (request p).triple
      rw [← hview.ledger]
      exact hfree

/-- A statement of the work. -/
theorem systemInv_writes {f : δ → δ} {w : Script δ} {phase : Phase δ} {midCommit : Bool}
    (hinv : SystemInv request s) (hphase : s.phase p = .work w midCommit) (hwrite : s.MayWrite p)
    (hnext : phase.unclaimed = false) (hclaimed : phase.claimed? = some midCommit) :
    SystemInv request
      ((s.write p (workWrite (request p) p s.clock f (s.view p))).goto p phase) := by
  have hclaiming : (request p).keyed = true → Claiming request s p midCommit :=
    fun hkeyed => hinv.claiming p hkeyed midCommit (by rw [hphase]; rfl)
  have hkept : ∀ q, HasClaim request (s.view p) q →
      HasClaim request (workWrite (request p) p s.clock f (s.view p)) q := fun _ h => h
  apply systemInv_write hinv hwrite
  · exact dbInv_work (view_inv hinv p) f fun hkeyed => hasClaim_view (hclaiming hkeyed)
  · intro hquiet
    rw [hnext] at hquiet
    cases hquiet
  · exact fun q _ _ h => hkept q h
  · intro hkeyed midCommit' hphase'
    rw [hclaimed] at hphase'
    rw [← Option.some.inj hphase']
    have hold := hclaiming hkeyed
    have hown := hkept p (hasClaim_view hold)
    cases midCommit with
    | false => exact ⟨_, rfl, hown, hold.choose_spec.2.2⟩
    | true =>
      refine ⟨hold.1, fun q db h => ?_⟩
      have hdb : workWrite (request p) p s.clock f (s.view p) = db :=
        congrArg Prod.snd (Option.some.inj h)
      rw [← hdb]
      exact hown

theorem systemInv_completes {response : Dict} {midCommit : Bool} {count : Nat}
    (hinv : SystemInv request s) (hphase : s.phase p = .complete response midCommit)
    (hwrite : s.MayWrite p) (hkeyed : (request p).keyed = true) :
    SystemInv request
      ((s.write p (completion (request p) p response count s.clock (s.view p))).goto p
        (.returning response)) := by
  have hclaim : HasClaim request (s.view p) p :=
    hasClaim_view (hinv.claiming p hkeyed midCommit (by rw [hphase]; rfl))
  have hview := view_inv hinv p
  apply systemInv_write hinv hwrite (dbInv_completion hview hclaim response count)
  · intro hquiet
    cases hquiet
  · exact fun q hq _ h => hasClaim_completion hview hclaim h hq response count
  · intro _ midCommit' hphase'
    cases hphase'

/-- What the step does not read of a system does not matter. -/
theorem systemInv_counts {counts : π → Nat} (hinv : SystemInv request s) :
    SystemInv request { s with completionCount := counts } :=
  ⟨hinv.committedInv, hinv.pendingInv, hinv.quiet, hinv.claiming⟩

theorem systemInv_step {event : Event ρ} {t : System ρ π δ} (hinv : SystemInv request s)
    (hstep : Step env request process event s t) : SystemInv request t := by
  cases hstep with
  | ticks clock h =>
    exact ⟨dbInv_later hinv.committedInv h, fun q db hp => dbInv_later (hinv.pendingInv q db hp) h,
      hinv.quiet, hinv.claiming⟩
  | @begins _ p hphase hwrite =>
    exact systemInv_write_unclaimed hinv hwrite (by rw [hphase]; rfl) rfl ⟨rfl, rfl, rfl⟩
  | @authenticates _ p tables hphase hwrite h =>
    exact systemInv_write_unclaimed hinv hwrite (by rw [hphase]; rfl) rfl ⟨rfl, rfl, rfl⟩
  | @looksUp _ p hphase h =>
    exact systemInv_goto_unclaimed hinv (by rw [hphase]; rfl) (unclaimed_afterLookup _)
  | @replays _ p response hphase h =>
    exact systemInv_commit hinv rfl fun _ _ hclaimed => by cases hclaimed
  | @checks _ p hphase h =>
    exact systemInv_goto_unclaimed hinv (by rw [hphase]; rfl) rfl
  | @skipsWriteLimit _ p hphase hlimit =>
    exact systemInv_goto_unclaimed hinv (by rw [hphase]; rfl) (unclaimed_afterWriteLimit _)
  | @limitsWrites _ p counters hphase hwrite hlimit h =>
    exact systemInv_write_unclaimed hinv hwrite (by rw [hphase]; rfl)
      (unclaimed_afterWriteLimit _) ⟨rfl, rfl, rfl⟩
  | @skipsDomainLimit _ p hphase hlimit =>
    exact systemInv_goto_unclaimed hinv (by rw [hphase]; rfl) rfl
  | @limitsDomain _ p counters hphase hwrite hlimit h =>
    exact systemInv_write_unclaimed hinv hwrite (by rw [hphase]; rfl) rfl ⟨rfl, rfl, rfl⟩
  | @skipsClaim _ p hphase hkeyed =>
    obtain ⟨-, hunclaimed⟩ := claimed_afterClaim env request p
    apply systemInv_goto hinv
    · intro h
      rw [hunclaimed] at h
      cases h
    · intro h
      rw [hkeyed] at h
      cases h
  | @claims _ p ledger hphase hwrite hkeyed h =>
    exact systemInv_claims hinv hphase hwrite hkeyed h
  | @claimReplays _ p response ledger hphase hwrite hkeyed h =>
    exact systemInv_commit hinv rfl fun _ _ hclaimed => by cases hclaimed
  | refuses hwrite h => exact systemInv_rollback hinv
  | @reads _ p k midCommit hphase =>
    apply systemInv_goto hinv
    · intro h
      cases h
    · intro hkeyed midCommit' h
      rw [← Option.some.inj h]
      exact hinv.claiming p hkeyed midCommit (by rw [hphase]; rfl)
  | @writes _ p f k midCommit hphase hwrite =>
    exact systemInv_writes hinv hphase hwrite rfl rfl
  | @commits _ p k midCommit hphase =>
    apply systemInv_commit hinv rfl
    intro hkeyed midCommit' h
    have hold := hinv.claiming p hkeyed midCommit (by rw [hphase]; rfl)
    exact ⟨(Option.some.inj h).symm, midCommit, hold⟩
  | @works _ p response midCommit hphase =>
    apply systemInv_goto hinv
    · intro h
      cases h
    · intro hkeyed midCommit' h
      rw [← Option.some.inj h]
      exact hinv.claiming p hkeyed midCommit (by rw [hphase]; rfl)
  | @skipsCompletion _ p response midCommit hphase hkeyed =>
    apply systemInv_goto hinv
    · intro h
      cases h
    · intro _ midCommit' h
      cases h
  | @completes _ p response midCommit count hphase hwrite hkeyed hcount =>
    exact systemInv_counts (systemInv_completes hinv hphase hwrite hkeyed)
  | @returns _ p response hphase =>
    exact systemInv_commit hinv rfl fun _ _ hclaimed => by cases hclaimed
  | @raises _ p midCommit e hphase =>
    rw [rollback_clearing]
    exact systemInv_rollback hinv
  | dies what hlive => exact systemInv_rollback hinv

theorem reachable_inv (hs : Reachable (Started request) (AnyStep env request process) s) :
    SystemInv request s := by
  have hpreserves : Preserves (AnyStep env request process)
      fun s : System ρ π δ => SystemInv request s := by
    intro s t hstep hinv
    obtain ⟨event, hstep⟩ := hstep
    exact systemInv_step hinv hstep
  exact reachable_invariant (fun _ h => systemInv_started h) hpreserves hs

/-! ## A triple that is taken by another request -/

/-- Nothing is committed, and the request goes on before its claim or is refused: by the ledger
lookup and by the claim with a conflict. -/
structure Repelled (s t : System ρ π δ) (p : ρ) : Prop where
  committed : t.committed = s.committed
  refused : (t.phase p).unclaimed = true ∨ ∃ e, t.phase p = .ended (.error e) ∧
    (s.phase p = .lookup ∨ s.phase p = .claim → ∃ message, e = .idempotencyConflict message)

theorem repelled_goto {phase : Phase δ} (h : phase.unclaimed = true) :
    Repelled s (s.goto p phase) p :=
  ⟨rfl, .inl (by rw [phase_goto_self]; exact h)⟩

theorem repelled_write {db : Db ρ δ} {phase : Phase δ} (h : phase.unclaimed = true) :
    Repelled s ((s.write p db).goto p phase) p :=
  ⟨rfl, .inl (by rw [phase_goto_self]; exact h)⟩

/-- The lookup and the claim of a taken triple raise the conflict. -/
theorem refusal_of_mismatch {e : Failure} (hinv : SystemInv request s)
    (hmismatch : Mismatch (s.view p).ledger (request p)) (h : refusal env request s p = some e)
    (hphase : s.phase p = .lookup ∨ s.phase p = .claim) :
    ∃ message, e = .idempotencyConflict message := by
  have hunique := (view_inv hinv p).unique
  unfold refusal at h
  rcases hphase with hphase | hphase
  · rw [hphase] at h
    dsimp only at h
    rw [replay_of_mismatch hunique hmismatch] at h
    exact ⟨_, (Option.some.inj h).symm⟩
  · rw [hphase] at h
    dsimp only at h
    rw [claim_of_mismatch hunique hmismatch] at h
    exact ⟨_, (Option.some.inj h).symm⟩

theorem repelled_of_mismatch {t : System ρ π δ} (hinv : SystemInv request s)
    (hunclaimed : (s.phase p).unclaimed = true)
    (hmismatch : Mismatch s.committed.ledger (request p))
    (hstep : Step env request process (.runs p) s t) : Repelled s t p := by
  have hview : Mismatch (s.view p).ledger (request p) := by
    rw [(view_quiet hinv hunclaimed).ledger]
    exact hmismatch
  have hunique := (view_inv hinv p).unique
  -- the phases after the claim do not arise
  have habsurd : ∀ {phase : Phase δ}, s.phase p = phase → phase.unclaimed = false → False := by
    intro phase hphase hnot
    rw [hphase, hnot] at hunclaimed
    cases hunclaimed
  cases hstep with
  | begins hphase hwrite => exact repelled_write rfl
  | authenticates hphase hwrite h => exact repelled_write rfl
  | looksUp hphase h => exact repelled_goto (unclaimed_afterLookup _)
  | replays hphase h =>
    rw [replay_of_mismatch hunique hview] at h
    cases h
  | checks hphase h => exact repelled_goto rfl
  | skipsWriteLimit hphase hlimit => exact repelled_goto (unclaimed_afterWriteLimit _)
  | limitsWrites hphase hwrite hlimit h => exact repelled_write (unclaimed_afterWriteLimit _)
  | skipsDomainLimit hphase hlimit => exact repelled_goto rfl
  | limitsDomain hphase hwrite hlimit h => exact repelled_write rfl
  | skipsClaim hphase hkeyed =>
    rw [hmismatch.1] at hkeyed
    cases hkeyed
  | claims hphase hwrite hkeyed h =>
    rw [claim_of_mismatch hunique hview] at h
    cases h
  | claimReplays hphase hwrite hkeyed h =>
    rw [claim_of_mismatch hunique hview] at h
    cases h
  | @refuses _ _ e hwrite h =>
    refine ⟨rfl, .inr ⟨e, phase_goto_self, ?_⟩⟩
    exact refusal_of_mismatch hinv hview h
  | reads hphase => exact (habsurd hphase rfl).elim
  | writes hphase hwrite => exact (habsurd hphase rfl).elim
  | commits hphase => exact (habsurd hphase rfl).elim
  | works hphase => exact (habsurd hphase rfl).elim
  | skipsCompletion hphase hkeyed => exact (habsurd hphase rfl).elim
  | completes hphase hwrite hkeyed hcount => exact (habsurd hphase rfl).elim
  | returns hphase => exact (habsurd hphase rfl).elim

/-- In every run the writes of one triple are those of one request, within the retention; a request
whose triple is taken by another commits nothing and is refused; and a prune removes completed rows
only. -/
theorem writes_at_most_once
    (hs : Reachable (Started request) (AnyStep env request process) s) :
    AtMostOnce s.committed ∧
      (∀ p t, (s.phase p).unclaimed = true → Mismatch s.committed.ledger (request p) →
        Step env request process (.runs p) s t → Repelled s t p) ∧
      ∀ (now : UtcClock) (ledger : List (LedgerRow ρ)), ∀ row ∈ ledger,
        row ∉ prune now ledger → row.status = .completed := by
  have hinv := reachable_inv hs
  refine ⟨hinv.committedInv.once, ?_, ?_⟩
  · intro p t hunclaimed hmismatch hstep
    exact repelled_of_mismatch hinv hunclaimed hmismatch hstep
  · intro now ledger row hrow hpruned
    cases hstatus : row.status with
    | completed => rfl
    | processing =>
      refine absurd (mem_prune.mpr ⟨hrow, fun hdone => ?_⟩) hpruned
      rw [hstatus] at hdone
      cases hdone

end Steps

/-! ## Two suspensions under one key -/

/-- One write a minute, and work that counts the suspensions. -/
def exampleEnv : Env Bool Nat where
  writeLimit _ := 1
  registerDomainLimit := 0
  check _ _ := .ok ()
  authenticate _ tables := .ok tables
  atomicWork _ := ⟨.write (· + 1) fun _ => .done [("ok", .bool true)], fun _ => trivial⟩
  refreshResponse _ := []
  verify _ := .done []
  claimAgent _ := .done []

/-- The same triple for different agents. -/
def exampleRequest (second : Bool) : Request where
  triple := ⟨.suspend, "actor_1", "key_1"⟩
  requestHash := if second then "hash_2" else "hash_1"
  domain := ""

def oneProcess : Bool → Unit := fun _ => ()

def exampleStart : System Bool Unit Nat where
  clock := ⟨0, by decide⟩
  completionCount _ := 0
  committed := ⟨[], fun _ _ => 0, fun _ _ => 0, 0, [], fun _ => none⟩
  pending := none
  phase _ := .lookup

/-- Both requests have found no row. -/
def bothLookedUp : System Bool Unit Nat := (exampleStart.goto false .check).goto true .check

def firstCounters : FixedWindow.Counters String :=
  (writeLimits exampleEnv (exampleRequest false) exampleStart.clock exampleStart.committed).getD
    exampleStart.committed.writeLimits

def firstWindow : Nat := FixedWindow.windowStart writeWindowSeconds (exampleStart.clock.1 / 1000000)

/-- What the first request sees after its budget and its claim. -/
def claimedDb : Db Bool Nat :=
  { exampleStart.committed with
    writeLimits := firstCounters
    ledger := [claimRow (exampleRequest false) false exampleStart.clock] }

def suspendedDb : Db Bool Nat :=
  completion (exampleRequest false) false [("ok", .bool true)] 1 exampleStart.clock
    (workWrite (exampleRequest false) false exampleStart.clock (· + 1) claimedDb)

theorem exampleStart_started : Started exampleRequest exampleStart :=
  ⟨rfl, rfl, fun _ => rfl, rfl, fun _ => rfl⟩

abbrev ExampleStep : System Bool Unit Nat → System Bool Unit Nat → Prop :=
  AnyStep exampleEnv exampleRequest oneProcess

theorem reachable_bothLookedUp : Reachable (Started exampleRequest) ExampleStep bothLookedUp := by
  have hfirst : ExampleStep exampleStart (exampleStart.goto false .check) :=
    ⟨_, .looksUp rfl rfl⟩
  have hsecond : ExampleStep (exampleStart.goto false .check) bothLookedUp :=
    ⟨_, .looksUp rfl rfl⟩
  exact reachable_step (reachable_step (reachable_init exampleStart_started) hfirst) hsecond

theorem mayWrite_of_none {s : System Bool Unit Nat} (h : s.pending = none) (p : Bool) :
    s.MayWrite p := by
  intro q db hpending
  rw [h] at hpending
  cases hpending

theorem mayWrite_of_own {s : System Bool Unit Nat} {p : Bool} {db : Db Bool Nat}
    (h : s.pending = some (p, db)) : s.MayWrite p := by
  intro q db' hpending
  rw [h] at hpending
  exact (congrArg Prod.fst (Option.some.inj hpending)).symm

theorem writeLimits_first :
    writeLimits exampleEnv (exampleRequest false) exampleStart.clock exampleStart.committed =
      some firstCounters := by
  have hroom : (writeLimits exampleEnv (exampleRequest false) exampleStart.clock
      exampleStart.committed).isSome = true :=
    (enforceRateLimit_isSome (by decide)).mpr (by decide)
  unfold firstCounters
  cases h : writeLimits exampleEnv (exampleRequest false) exampleStart.clock
      exampleStart.committed with
  | none =>
    rw [h] at hroom
    cases hroom
  | some counters => rfl

/-- The budget of the minute is used up. -/
theorem writeLimits_second :
    writeLimits exampleEnv (exampleRequest true) exampleStart.clock suspendedDb = none := by
  have hcount := enforceRateLimit_counts (by decide) writeLimits_first
  cases h : writeLimits exampleEnv (exampleRequest true) exampleStart.clock suspendedDb with
  | none => rfl
  | some counters =>
    have hsome : (writeLimits exampleEnv (exampleRequest true) exampleStart.clock
        suspendedDb).isSome = true := by
      rw [h]
      rfl
    have hroom : firstCounters "actor_1" firstWindow < 1 :=
      (enforceRateLimit_isSome (by decide)).mp hsome
    have hused : firstCounters "actor_1" firstWindow = 0 + 1 := hcount
    omega

/-- The first request, from its check to the claim. -/
def firstLimited : System Bool Unit Nat :=
  ((bothLookedUp.goto false .writeLimit).write false
    { exampleStart.committed with writeLimits := firstCounters }).goto false .claim

/-- In its work. -/
def firstClaimed : System Bool Unit Nat :=
  (firstLimited.write false claimedDb).goto false (afterClaim exampleEnv exampleRequest false)

def firstWorked : System Bool Unit Nat :=
  (firstClaimed.write false
    (workWrite (exampleRequest false) false exampleStart.clock (· + 1) claimedDb)).goto false
      (.work (.done [("ok", .bool true)]) false)

def firstAnswering : System Bool Unit Nat :=
  firstWorked.goto false (.complete [("ok", .bool true)] false)

def firstCompleted : System Bool Unit Nat :=
  { (firstAnswering.write false suspendedDb).goto false (.returning [("ok", .bool true)]) with
    completionCount := Function.update firstAnswering.completionCount () 1 }

theorem reachable_firstLimited : Reachable (Started exampleRequest) ExampleStep firstLimited := by
  have hcheck : ExampleStep bothLookedUp (bothLookedUp.goto false .writeLimit) :=
    ⟨_, .checks rfl rfl⟩
  have hlimit : ExampleStep (bothLookedUp.goto false .writeLimit) firstLimited :=
    ⟨_, .limitsWrites rfl (mayWrite_of_none rfl false) (by decide) writeLimits_first⟩
  exact reachable_step (reachable_step reachable_bothLookedUp hcheck) hlimit

theorem reachable_firstCompleted :
    Reachable (Started exampleRequest) ExampleStep firstCompleted := by
  have hclaim : ExampleStep firstLimited firstClaimed :=
    ⟨_, .claims rfl (mayWrite_of_own rfl) rfl rfl⟩
  have hwork : ExampleStep firstClaimed firstWorked :=
    ⟨_, .writes (k := fun _ => .done [("ok", .bool true)]) rfl (mayWrite_of_own rfl)⟩
  have hdone : ExampleStep firstWorked firstAnswering := ⟨_, .works rfl⟩
  have hcomplete : ExampleStep firstAnswering firstCompleted := by
    have hstep : Step exampleEnv exampleRequest oneProcess (.runs false) firstAnswering _ :=
      .completes rfl (mayWrite_of_own rfl) rfl rfl
    exact ⟨_, hstep⟩
  exact reachable_step (reachable_step (reachable_step
    (reachable_step reachable_firstLimited hclaim) hwork) hdone) hcomplete

/-- The first request has answered, and the second one comes to its budget. -/
def firstEnded : System Bool Unit Nat :=
  ((firstCompleted.commit false).goto false (.ended (.ok [("ok", .bool true)]))).goto true
    .writeLimit

theorem reachable_firstEnded : Reachable (Started exampleRequest) ExampleStep firstEnded := by
  have hreturn : ExampleStep firstCompleted
      ((firstCompleted.commit false).goto false (.ended (.ok [("ok", .bool true)]))) :=
    ⟨_, .returns rfl⟩
  have hcheck : ExampleStep
      ((firstCompleted.commit false).goto false (.ended (.ok [("ok", .bool true)]))) firstEnded :=
    ⟨_, .checks rfl rfl⟩
  exact reachable_step (reachable_step reachable_firstCompleted hreturn) hcheck

/-- The suspension is committed once, and the second request is kept from its claim. -/
theorem suspended_once :
    AtMostOnce firstEnded.committed ∧
      (∀ p t, (firstEnded.phase p).unclaimed = true →
        Mismatch firstEnded.committed.ledger (exampleRequest p) →
          Step exampleEnv exampleRequest oneProcess (.runs p) firstEnded t →
            Repelled firstEnded t p) ∧
      ∀ (now : UtcClock) (ledger : List (LedgerRow Bool)), ∀ row ∈ ledger,
        row ∉ prune now ledger → row.status = .completed :=
  writes_at_most_once reachable_firstEnded

/-- The second request found the triple free, and is refused by its budget when the triple is
taken: by no conflict. -/
theorem taken_triple_rate_limited :
    ¬ ∀ s : System Bool Unit Nat, Reachable (Started exampleRequest) ExampleStep s →
      ∀ p t, (s.phase p).unclaimed = true → Mismatch s.committed.ledger (exampleRequest p) →
        Step exampleEnv exampleRequest oneProcess (.runs p) s t →
          ∀ result, t.phase p = .ended result →
            ∃ message, result = .error (.idempotencyConflict message) := by
  intro hall
  have hmismatch : Mismatch firstEnded.committed.ledger (exampleRequest true) := by
    refine ⟨rfl, completeRow [("ok", .bool true)] exampleStart.clock
      (claimRow (exampleRequest false) false exampleStart.clock), ?_, rfl, by decide⟩
    exact List.mem_singleton.mpr rfl
  have hrefusal : refusal exampleEnv exampleRequest firstEnded true =
      some (.rateLimit "agent catalog write") := by
    have hnone : writeLimits exampleEnv (exampleRequest true) firstEnded.clock
        (firstEnded.view true) = none := writeLimits_second
    exact refusal_writeLimit rfl hnone
  have hstep : Step exampleEnv exampleRequest oneProcess (.runs true) firstEnded _ :=
    .refuses (fun _ => mayWrite_of_none rfl true) hrefusal
  obtain ⟨message, heq⟩ := hall firstEnded reachable_firstEnded true _ rfl hmismatch hstep _
    phase_goto_self
  cases heq

end KiwiCatalog.Idempotency
