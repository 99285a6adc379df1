import KiwiCatalog.RateLimit.Guesses
import Mathlib.Data.List.Nodup
import Mathlib.Data.List.Perm.Subperm

/-!
# GuessBudget — no more comparisons than the limit

A comparison that is counted in a committed transaction before it is carried out stays counted.
The failed comparison of a connector exchange takes its own count back.
-/

set_option autoImplicit false
set_option linter.unusedSectionVars false

namespace KiwiCatalog.RateLimit

open FixedWindow Transition

variable {ρ : Type} [DecidableEq ρ] {env : Env} {request : ρ → Request}

/-! ## One transaction -/

theorem current_window_recent (now : Nat) :
    now - retentionSeconds ≤ windowStart windowSeconds now := by
  have hlt := lt_windowStart_add now (show 0 < windowSeconds by decide)
  unfold windowSeconds retentionSeconds at *
  omega

theorem enforceRateLimit_some {now : Nat} {key : Key} {c c' : Counters Key}
    (h : enforceRateLimit env now key c = some c') {k : Key} {w : Nat} (hk : 0 < limitOf env k)
    (hw : now - retentionSeconds ≤ w) :
    c' k w = c k w + (if k = key ∧ w = windowStart windowSeconds now then 1 else 0) ∧
      (k = key → w = windowStart windowSeconds now → c' k w ≤ limitOf env k) := by
  unfold enforceRateLimit at h
  split at h
  · rename_i hzero
    cases h
    have hne : k ≠ key := by
      rintro rfl
      omega
    rw [if_neg fun hself => hne hself.1]
    exact ⟨rfl, fun heq => absurd heq hne⟩
  · rename_i hpos
    have hconsumed := consume?_eq_some h (by omega) k w
    rw [prune_of_le hw] at hconsumed
    refine ⟨hconsumed.1, fun heq hwindow => ?_⟩
    subst heq
    exact hconsumed.2 rfl hwindow

/-- A transaction counts each of its keys once, within the limit. -/
theorem enforceAll_some {now : Nat} {keys : List Key} {c c' : Counters Key}
    (h : enforceAll env now keys c = some c') (hnodup : keys.Nodup) {k : Key} {w : Nat}
    (hk : 0 < limitOf env k) (hw : now - retentionSeconds ≤ w) :
    c' k w = c k w + (if (k, w) ∈ chargesAt now keys then 1 else 0) ∧
      ((k, w) ∈ chargesAt now keys → c' k w ≤ limitOf env k) := by
  induction keys generalizing c with
  | nil =>
    cases h
    exact ⟨rfl, fun hmem => by cases hmem⟩
  | cons key keys ih =>
    unfold enforceAll at h
    split at h
    · rename_i c₁ hfirst
      have hone := enforceRateLimit_some hfirst hk hw
      have hrest := ih h (List.nodup_cons.mp hnodup).2
      have hmem : (k, w) ∈ chargesAt now (key :: keys) ↔
          (k = key ∧ w = windowStart windowSeconds now) ∨ (k, w) ∈ chargesAt now keys := by
        simp [chargesAt]
      by_cases hself : k = key ∧ w = windowStart windowSeconds now
      · -- the key does not come again
        have hnot : (k, w) ∉ chargesAt now keys := by
          intro hin
          obtain ⟨key', hkey', heq⟩ := List.mem_map.mp hin
          have hsame : key' = key := (congrArg Prod.fst heq).trans hself.1
          exact (List.nodup_cons.mp hnodup).1 (hsame ▸ hkey')
        rw [if_pos hself] at hone
        rw [if_neg hnot] at hrest
        rw [if_pos (hmem.mpr (.inl hself))]
        have hle := hone.2 hself.1 hself.2
        exact ⟨by omega, fun _ => by omega⟩
      · rw [if_neg hself] at hone
        have hiff : (k, w) ∈ chargesAt now (key :: keys) ↔ (k, w) ∈ chargesAt now keys :=
          hmem.trans (or_iff_right hself)
        rw [if_congr hiff rfl rfl]
        refine ⟨by omega, fun hin => hrest.2 (hiff.mp hin)⟩
    · cases h

theorem transactions_nodup (q : Request) : ∀ keys ∈ q.transactions, keys.Nodup := by
  intro keys hkeys
  cases q <;> simp only [Request.transactions, List.mem_cons, List.not_mem_nil, or_false] at hkeys
  case registerVerify => rcases hkeys with rfl | rfl <;> exact List.nodup_singleton _
  case authorizeEnrollment =>
    subst hkeys
    simp
  all_goals
    subst hkeys
    exact List.nodup_singleton _

/-! ## The invariant -/

theorem length_record (charges : List (Key × Nat)) (r : ρ) (f : Key → Nat → List ρ) (k : Key)
    (w : Nat) :
    (record charges r f k w).length = (f k w).length + if (k, w) ∈ charges then 1 else 0 := by
  unfold record
  split <;> rfl

theorem mem_record {charges : List (Key × Nat)} {r r' : ρ} {f : Key → Nat → List ρ} {k : Key}
    {w : Nat} : r' ∈ record charges r f k w ↔ (r' = r ∧ (k, w) ∈ charges) ∨ r' ∈ f k w := by
  unfold record
  split
  · rename_i hin
    simp [hin]
  · rename_i hin
    simp [hin]

/-- What a request that still counts has behind it. -/
structure Pending (s : System ρ) (r : ρ) (todo : List (List Key))
    (charges : List (Key × Nat)) : Prop where
  nodup : ∀ keys ∈ todo, keys.Nodup
  charged : ∀ c ∈ charges, r ∈ s.charged c.1 c.2
  notCompared : ∀ k w, r ∉ s.compared k w

structure BudgetInv (env : Env) (s : System ρ) : Prop where
  counted : ∀ k w, 0 < limitOf env k → s.clock - retentionSeconds ≤ w →
    s.counters k w = (s.charged k w).length
  within : ∀ k w, 0 < limitOf env k → (s.charged k w).length ≤ limitOf env k
  subset : ∀ k w, s.compared k w ⊆ s.charged k w
  nodup : ∀ k w, (s.compared k w).Nodup
  pending : ∀ r todo charges, s.pc r = .counting todo charges → Pending s r todo charges

theorem budgetInv_ticks {s : System ρ} (h : BudgetInv env s) {now : Nat} (hnow : s.clock ≤ now) :
    BudgetInv env { s with clock := now } := by
  refine ⟨fun k w hk hw => ?_, h.within, h.subset, h.nodup, fun r todo charges hpc => ?_⟩
  · change now - retentionSeconds ≤ w at hw
    exact h.counted k w hk (by omega)
  · have hp := h.pending r todo charges hpc
    exact ⟨hp.nodup, hp.charged, hp.notCompared⟩

/-- The commit of a transaction that counts `r`. -/
theorem budgetInv_counts {s : System ρ} (h : BudgetInv env s) {r : ρ} {keys : List Key}
    {counters : Counters Key} (hnodup : keys.Nodup)
    (hok : enforceAll env s.clock keys s.counters = some counters) :
    BudgetInv env
      { s with
        counters := counters
        charged := record (chargesAt s.clock keys) r s.charged } := by
  have hcounted : ∀ k w, 0 < limitOf env k → s.clock - retentionSeconds ≤ w →
      counters k w = (record (chargesAt s.clock keys) r s.charged k w).length := by
    intro k w hk hw
    have hone := (enforceAll_some hok hnodup hk hw).1
    rw [length_record, hone, h.counted k w hk hw]
  refine ⟨hcounted, fun k w hk => ?_, fun k w r' hr' => ?_, h.nodup, fun r' todo charges hpc => ?_⟩
  · by_cases hin : (k, w) ∈ chargesAt s.clock keys
    · -- the window is the present one, so the counter tells
      have hw : s.clock - retentionSeconds ≤ w := by
        obtain ⟨key, -, heq⟩ := List.mem_map.mp hin
        have hrecent := current_window_recent s.clock
        have hsame : windowStart windowSeconds s.clock = w := congrArg Prod.snd heq
        omega
      have hle := (enforceAll_some hok hnodup hk hw).2 hin
      have heq := hcounted k w hk hw
      change (record (chargesAt s.clock keys) r s.charged k w).length ≤ _
      omega
    · have hle := h.within k w hk
      change (record (chargesAt s.clock keys) r s.charged k w).length ≤ _
      rw [length_record, if_neg hin]
      exact hle
  · exact mem_record.mpr (.inr (h.subset k w hr'))
  · have hp := h.pending r' todo charges hpc
    exact ⟨hp.nodup, fun c hc => mem_record.mpr (.inr (hp.charged c hc)), hp.notCompared⟩

/-- A comparison by a request that has been charged and has not compared yet. -/
theorem budgetInv_compares {s : System ρ} (h : BudgetInv env s) {r : ρ}
    {charges : List (Key × Nat)} (hcharged : ∀ c ∈ charges, r ∈ s.charged c.1 c.2)
    (hfresh : ∀ k w, r ∉ s.compared k w) :
    BudgetInv env
      { s with
        pc := Function.update s.pc r .ended
        compared := record charges r s.compared } := by
  refine ⟨h.counted, h.within, fun k w r' hr' => ?_, fun k w => ?_, fun r' todo charges' hpc => ?_⟩
  · rcases mem_record.mp hr' with ⟨rfl, hin⟩ | hr'
    · exact hcharged _ hin
    · exact h.subset k w hr'
  · change (record charges r s.compared k w).Nodup
    unfold record
    split
    · exact List.nodup_cons.mpr ⟨hfresh k w, h.nodup k w⟩
    · exact h.nodup k w
  · change Function.update s.pc r .ended r' = _ at hpc
    by_cases hr : r' = r
    · subst hr
      rw [Function.update_self] at hpc
      cases hpc
    · rw [Function.update_of_ne hr] at hpc
      have hp := h.pending r' todo charges' hpc
      refine ⟨hp.nodup, hp.charged, fun k w hin => ?_⟩
      rcases mem_record.mp hin with ⟨heq, -⟩ | hin
      · exact hr heq
      · exact hp.notCompared k w hin

theorem budgetInv_setPc {s : System ρ} (h : BudgetInv env s) {r : ρ} {pc : Pc}
    (hpc : ∀ todo charges, pc = .counting todo charges → Pending s r todo charges) :
    BudgetInv env { s with pc := Function.update s.pc r pc } := by
  refine ⟨h.counted, h.within, h.subset, h.nodup, fun r' todo charges hr' => ?_⟩
  change Function.update s.pc r pc r' = _ at hr'
  have hp : Pending s r' todo charges := by
    by_cases hr : r' = r
    · subst hr
      rw [Function.update_self] at hr'
      exact hpc todo charges hr'
    · rw [Function.update_of_ne hr] at hr'
      exact h.pending r' todo charges hr'
  exact ⟨hp.nodup, hp.charged, hp.notCompared⟩

theorem budgetInv_preserved :
    Preserves (CountedStep env request : System ρ → System ρ → Prop) (BudgetInv env) := by
  intro s s' hstep h
  cases hstep with
  | ticks now hnow => exact budgetInv_ticks h hnow
  | @counts _ r keys todo charges counters hpc hexchange hok =>
    have hp := h.pending r _ _ hpc
    have hnodup := hp.nodup keys List.mem_cons_self
    have hcounts := budgetInv_counts (r := r) h hnodup hok
    apply budgetInv_setPc hcounts
    intro todo' charges' heq
    cases heq
    refine ⟨fun keys' hkeys' => hp.nodup keys' (List.mem_cons_of_mem _ hkeys'), fun c hc => ?_,
      hp.notCompared⟩
    rcases List.mem_append.mp hc with hc | hc
    · exact mem_record.mpr (.inr (hp.charged c hc))
    · exact mem_record.mpr (.inl ⟨rfl, hc⟩)
  | @compares _ r charges hpc =>
    have hp := h.pending r _ _ hpc
    exact budgetInv_compares h hp.charged hp.notCompared
  | ends => exact budgetInv_setPc h fun _ _ heq => by cases heq
  | @exchanges _ r keys counters hpc hexchange hok =>
    have hp := h.pending r _ _ hpc
    have hcounts := budgetInv_counts (r := r) h (hp.nodup keys List.mem_cons_self) hok
    exact budgetInv_compares hcounts (fun c hc => mem_record.mpr (.inl ⟨rfl, hc⟩)) hp.notCompared

theorem budgetInv_started (s : System ρ) (h : Started request s) : BudgetInv env s := by
  obtain ⟨hcounters, hpc, hcharged, hcompared⟩ := h
  refine ⟨fun k w _ _ => ?_, fun k w _ => ?_, fun k w => ?_, fun k w => ?_,
    fun r todo charges heq => ?_⟩
  · rw [hcounters, hcharged]
    rfl
  · rw [hcharged]
    exact Nat.zero_le _
  · rw [hcompared]
    exact List.nil_subset _
  · rw [hcompared]
    exact List.nodup_nil
  · rw [hpc] at heq
    cases heq
    refine ⟨transactions_nodup (request r), fun c hc => ?_, fun k w => ?_⟩
    · cases hc
    · rw [hcompared]
      exact List.not_mem_nil

/-- In every run in which no exchange fails after its comparison, the comparisons carried out under
a key in a window number at most the configured limit. -/
theorem guess_budget {s : System ρ} (hs : Reachable (Started request) (CountedStep env request) s) :
    WithinBudget env s := by
  have hinv : BudgetInv env s := reachable_invariant budgetInv_started budgetInv_preserved hs
  intro k w hk
  have hle := (List.subperm_of_subset (hinv.nodup k w) (hinv.subset k w)).length_le
  exact Nat.le_trans hle (hinv.within k w hk)

/-! ## A code guessed at the exchange -/

/-- One exchange in a quarter of an hour. -/
def oneExchange : Env := ⟨none, some 1⟩

def guesses (_ : Bool) : Request := .exchange "r_1"

def fresh : System Bool :=
  ⟨0, fun _ _ => 0, fun _ => .counting [[.connectorExchange "r_1"]] [], fun _ _ => [],
    fun _ _ => []⟩

theorem fresh_started : Started guesses fresh :=
  ⟨fun _ _ => rfl, fun _ => rfl, fun _ _ => rfl, fun _ _ => rfl⟩

/-- The budget is met by a first exchange with the right code. -/
theorem guess_budget_first :
    ∃ s : System Bool, s.compared (.connectorExchange "r_1") 0 = [false] ∧
      WithinBudget oneExchange s := by
  have hexchange : CountedStep oneExchange guesses fresh _ :=
    @Step.exchanges Bool _ oneExchange guesses fresh false [.connectorExchange "r_1"] _ rfl rfl rfl
  exact ⟨_, rfl, guess_budget (reachable_step (reachable_init fresh_started) hexchange)⟩

/-- Two wrong codes are both compared: the first took its count back. -/
theorem failed_guesses_uncounted :
    ¬ ∀ s : System Bool, Reachable (Started guesses) (AnyStep oneExchange guesses) s →
      WithinBudget oneExchange s := by
  intro h
  have hfirst : AnyStep oneExchange guesses fresh _ :=
    ⟨_, @Step.exchangeFails Bool _ oneExchange guesses fresh false [.connectorExchange "r_1"] _ rfl
      rfl rfl⟩
  have hsecond : AnyStep oneExchange guesses _ _ :=
    ⟨_, @Step.exchangeFails Bool _ oneExchange guesses
      { fresh with
        pc := Function.update fresh.pc false .ended
        compared := record [(.connectorExchange "r_1", 0)] false fresh.compared } true
      [.connectorExchange "r_1"] _ rfl rfl rfl⟩
  have hreach := reachable_step (reachable_step (reachable_init fresh_started) hfirst) hsecond
  have hbudget := h _ hreach (.connectorExchange "r_1") 0 (by decide)
  exact absurd hbudget (by decide)

end KiwiCatalog.RateLimit
