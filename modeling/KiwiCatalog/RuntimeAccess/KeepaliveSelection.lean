import KiwiCatalog.RuntimeAccess.KeepalivePass

/-!
# KeepaliveSelection — the pass against the unpaged selection

A claim changes one stored attempt and nothing that a page shows, so the pages put together are the
rows in order, and a pass is the loop over all of them.
-/

set_option autoImplicit false

namespace KiwiCatalog.Keepalive

variable (env : Env) (sched : Scheduler) (now : Clock sched) (wall : Nat)

/-! ## 1. A claim -/

theorem consents_attempt (claimed : String) (t : Tables) (agentId : String) :
    (attempt sched now claimed t).consents agentId =
      (t.consents agentId).map fun k =>
        if agentId = claimed then { k with lastAttemptAt := isoText now.1 } else k := by
  by_cases hself : agentId = claimed
  · subst hself
    simp [attempt, Tables.setConsent]
  · simp [attempt, Tables.setConsent, hself]

/-- A test of a consent that the attempt has no part in. -/
theorem any_consents_attempt (claimed : String) (t : Tables) (agentId : String)
    {test : Consent → Bool} (htest : ∀ k stamp, test { k with lastAttemptAt := stamp } = test k) :
    ((attempt sched now claimed t).consents agentId).any test = (t.consents agentId).any test := by
  rw [consents_attempt]
  cases t.consents agentId with
  | none => rfl
  | some k =>
    show test (if agentId = claimed then { k with lastAttemptAt := isoText now.1 } else k) = test k
    split
    · exact htest k _
    · rfl

theorem enabled_attempt (claimed : String) (t : Tables) (agentId : String) :
    enabled env wall (attempt sched now claimed t) agentId = enabled env wall t agentId :=
  any_consents_attempt sched now claimed t agentId fun _ _ => rfl

theorem pageRow_attempt (claimed : String) (t : Tables) (a : AgentRow)
    (b : Binding.RuntimeBinding) :
    pageRow (attempt sched now claimed t) a b = pageRow t a b := by
  unfold pageRow
  rw [consents_attempt]
  cases t.consents a.catalogAgentId with
  | none => rfl
  | some k =>
    have hlisted : ∀ stamp, listed (attempt sched now claimed t) a b
        { k with lastAttemptAt := stamp } = listed t a b k := fun _ => rfl
    rw [Option.map_some]
    split <;> simp [Option.filter, hlisted]

theorem joined_attempt (claimed : String) (t : Tables) :
    joined (attempt sched now claimed t) = joined t := by
  have hrow : pageRow (attempt sched now claimed t) = pageRow t := by
    funext a b
    exact pageRow_attempt sched now claimed t a b
  unfold joined
  rw [hrow]
  rfl

/-- A claim has no part in the choice of another agent. -/
theorem selects_attempt {claimed : String} (t : Tables) {row : PageRow}
    (hother : row.agentId ≠ claimed) :
    selects env sched now wall (attempt sched now claimed t) row =
      selects env sched now wall t row := by
  have hclaimable : claimable sched now (attempt sched now claimed t) row.agentId =
      claimable sched now t row.agentId := by
    unfold claimable
    rw [consents_attempt]
    simp [hother]
  unfold selects
  rw [enabled_attempt, hclaimable]
  rfl

/-! ## 2. The loop over the rows -/

def Stamp.micros : Stamp → Option Int
  | .at micros => some micros
  | _ => none

/-- A row that is stored as something else than fresh, or that is in the lead before its end. -/
def due (row : PageRow) : Bool :=
  row.freshnessState ≠ .fresh || (row.lastSeenAt ≠ [] &&
    (env.parse row.lastSeenAt).micros.any fun seen =>
      ((sched.ttlSeconds - sched.leadSeconds : Nat) : Int) * 1000000 ≤
        (now.1 : Int) * 1000000 - seen)

/-- The rows that are due, of agents with consent, a safe endpoint and a secret that decrypts, and
out of cooldown. -/
def eligible (t : Tables) (row : PageRow) : Bool :=
  due env sched now row && env.safeEndpoint row.runtimeOrigin && enabled env wall t row.agentId &&
    (secretOf env t row.agentId).isSome && claimable sched now t row.agentId

/-- A row that is stored as fresh, with a time that raises what `_probe_due` does not catch. -/
def hinders (row : PageRow) : Prop :=
  row.freshnessState = .fresh ∧ row.lastSeenAt ≠ [] ∧ env.parse row.lastSeenAt = .escapes

/-- Every such row stands behind `n` rows that are selected. -/
def Unhindered (t : Tables) (n : Nat) (rows : List PageRow) : Prop :=
  ∀ before row behind, rows = before ++ row :: behind → hinders env row →
    n ≤ (before.filter (eligible env sched now wall t)).length

variable {env sched now wall}

theorem probeDue_of_hinders {row : PageRow} (h : hinders env row) :
    probeDue env sched now row = .error .clock := by
  unfold probeDue
  rw [if_neg (not_not.mpr h.1), if_neg h.2.1, h.2.2]

theorem probeDue_of_not_hinders {row : PageRow} (h : ¬ hinders env row) :
    probeDue env sched now row = .ok (due env sched now row) := by
  unfold probeDue due
  by_cases hfresh : row.freshnessState = .fresh
  · by_cases hnone : row.lastSeenAt = []
    · simp [hfresh, hnone]
    · rw [if_neg (not_not.mpr hfresh), if_neg hnone]
      cases hparse : env.parse row.lastSeenAt with
      | «at» seen => simp [hfresh, hnone, Stamp.micros]
      | unreadable => simp [hfresh, Stamp.micros]
      | escapes => exact absurd ⟨hfresh, hnone, hparse⟩ h
  · simp [hfresh]

theorem isSome_takes (t : Tables) (row : PageRow) :
    (takes env sched now wall t row (due env sched now row)).isSome =
      eligible env sched now wall t row := by
  unfold takes selects eligible
  cases due env sched now row <;> cases env.safeEndpoint row.runtimeOrigin <;>
    cases enabled env wall t row.agentId <;> cases secretOf env t row.agentId <;>
    cases claimable sched now t row.agentId <;> rfl

theorem unhindered_nil (t : Tables) (n : Nat) : Unhindered env sched now wall t n [] := by
  intro before row behind hsplit
  simp at hsplit

/-- A row that does not hinder, in front. -/
theorem unhindered_cons {t : Tables} {n : Nat} {row : PageRow} {rest : List PageRow}
    (hrow : ¬ hinders env row) :
    Unhindered env sched now wall t n (row :: rest) ↔
      Unhindered env sched now wall t
        (if eligible env sched now wall t row then n - 1 else n) rest := by
  have hcount : ∀ before : List PageRow,
      (n ≤ ((row :: before).filter (eligible env sched now wall t)).length ↔
        (if eligible env sched now wall t row then n - 1 else n) ≤
          (before.filter (eligible env sched now wall t)).length) := by
    intro before
    by_cases hrow' : eligible env sched now wall t row = true
    · simp only [List.filter_cons, hrow', if_true, List.length_cons]
      omega
    · simp [hrow']
  constructor
  · intro h before r behind hsplit hr
    apply (hcount before).mp
    exact h (row :: before) r behind (by rw [hsplit, List.cons_append]) hr
  · intro h before r behind hsplit hr
    cases before with
    | nil =>
      rw [List.nil_append, List.cons.injEq] at hsplit
      exact absurd (hsplit.1 ▸ hr) hrow
    | cons first before =>
      rw [List.cons_append, List.cons.injEq] at hsplit
      rw [← hsplit.1]
      exact (hcount before).mpr (h before r behind hsplit.2 hr)

/-- A row that hinders, in front. -/
theorem not_unhindered_cons {t : Tables} {n : Nat} {row : PageRow} {rest : List PageRow}
    (hrow : hinders env row) (hn : 0 < n) :
    ¬ Unhindered env sched now wall t n (row :: rest) := by
  intro h
  have hzero := h [] row rest rfl hrow
  simp only [List.filter_nil, List.length_nil] at hzero
  omega

theorem unhindered_zero (t : Tables) (rows : List PageRow) :
    Unhindered env sched now wall t 0 rows := by
  intro before row behind _ _
  exact Nat.zero_le _

/-- How the loop ends: with the first rows that are selected, or with the exception. -/
theorem scanRows_cases {t₀ : Tables} {rows : List PageRow}
    (hnodup : (rows.map PageRow.agentId).Nodup) {t : Tables} {candidates : List Candidate}
    (hroom : candidates.length < sched.maxAgents)
    (hsame : ∀ row ∈ rows, selects env sched now wall t row = selects env sched now wall t₀ row) :
    (Unhindered env sched now wall t₀ (sched.maxAgents - candidates.length) rows ∧
      ∃ t' new, scanRows env sched now wall rows t candidates = .ok (t', candidates ++ new) ∧
        new.map Candidate.agentId = ((rows.filter (eligible env sched now wall t₀)).take
          (sched.maxAgents - candidates.length)).map PageRow.agentId) ∨
    (¬ Unhindered env sched now wall t₀ (sched.maxAgents - candidates.length) rows ∧
      scanRows env sched now wall rows t candidates = .error .clock) := by
  induction rows generalizing t candidates with
  | nil =>
    left
    exact ⟨unhindered_nil t₀ _, t, [], by simp [scanRows], by simp⟩
  | cons row rest ih =>
    rw [List.map_cons, List.nodup_cons] at hnodup
    by_cases hrow : hinders env row
    · right
      refine ⟨not_unhindered_cons hrow (by omega), ?_⟩
      unfold scanRows
      rw [probeDue_of_hinders hrow]
      rfl
    · rw [unhindered_cons hrow]
      unfold scanRows
      rw [probeDue_of_not_hinders hrow]
      have htakes : takes env sched now wall t row (due env sched now row) =
          takes env sched now wall t₀ row (due env sched now row) := by
        unfold takes
        rw [hsame row List.mem_cons_self]
      have hselected := @isSome_takes env sched now wall t₀ row
      rw [← htakes] at hselected
      cases hsecret : takes env sched now wall t row (due env sched now row) with
      | none =>
        have hnot : eligible env sched now wall t₀ row = false := by
          rw [← hselected, hsecret]
          rfl
        simp only [Except.bind, hsecret, Option.elim, hnot, Bool.false_eq_true, if_false,
          List.filter_cons]
        exact ih hnodup.2 hroom fun r hr => hsame r (List.mem_cons_of_mem row hr)
      | some secret =>
        have hyes : eligible env sched now wall t₀ row = true := by
          rw [← hselected, hsecret]
          rfl
        simp only [Except.bind, hsecret, Option.elim, hyes, if_true, List.filter_cons]
        by_cases hfull : sched.maxAgents ≤ candidates.length + 1
        · -- the last place
          have hone : sched.maxAgents - candidates.length = 1 := by omega
          rw [if_pos hfull, hone]
          left
          exact ⟨unhindered_zero t₀ rest, _, [candidate row secret], rfl, rfl⟩
        · rw [if_neg hfull]
          have hlength : (candidates ++ [candidate row secret]).length = candidates.length + 1 := by
            simp
          have hleft : sched.maxAgents - candidates.length =
              sched.maxAgents - (candidates.length + 1) + 1 := by omega
          have hrest := @ih hnodup.2 (attempt sched now row.agentId t)
            (candidates ++ [candidate row secret]) (by omega) (by
              intro r hr
              have hother : r.agentId ≠ row.agentId := by
                intro heq
                exact hnodup.1 (heq ▸ List.mem_map_of_mem hr)
              rw [selects_attempt env sched now wall t hother]
              exact hsame r (List.mem_cons_of_mem row hr))
          rw [hlength] at hrest
          rw [hleft, Nat.add_sub_cancel, List.take_succ_cons, List.map_cons]
          rcases hrest with ⟨hclear, t', new, hscan, hnew⟩ | ⟨hblocked, hraised⟩
          · left
            refine ⟨hclear, t', candidate row secret :: new, ?_, ?_⟩
            · rw [hscan, List.append_assoc, List.singleton_append]
            · rw [List.map_cons, hnew]
              rfl
          · right
            exact ⟨hblocked, hraised⟩

/-! ## 3. The loop over the pages -/

theorem scanRows_cons (row : PageRow) (rest : List PageRow) (t : Tables)
    (candidates : List Candidate) :
    scanRows env sched now wall (row :: rest) t candidates =
      (probeDue env sched now row).bind fun due =>
        (takes env sched now wall t row due).elim (scanRows env sched now wall rest t candidates)
          fun secret =>
            if sched.maxAgents ≤ candidates.length + 1 then
              .ok (attempt sched now row.agentId t, candidates ++ [candidate row secret])
            else
              scanRows env sched now wall rest (attempt sched now row.agentId t)
                (candidates ++ [candidate row secret]) :=
  rfl

theorem scanRows_append {rows rest : List PageRow} {t : Tables} {candidates : List Candidate}
    (hroom : candidates.length < sched.maxAgents) :
    scanRows env sched now wall (rows ++ rest) t candidates =
      (scanRows env sched now wall rows t candidates).bind fun scanned =>
        if sched.maxAgents ≤ scanned.2.length then .ok scanned
        else scanRows env sched now wall rest scanned.1 scanned.2 := by
  induction rows generalizing t candidates with
  | nil =>
    simp only [List.nil_append, scanRows, Except.bind]
    rw [if_neg (by omega)]
  | cons row rows ih =>
    rw [List.cons_append, scanRows_cons, scanRows_cons]
    cases probeDue env sched now row with
    | error raised => rfl
    | ok due =>
      simp only [Except.bind]
      cases takes env sched now wall t row due with
      | none =>
        simp only [Option.elim]
        exact ih hroom
      | some secret =>
        simp only [Option.elim]
        by_cases hfull : sched.maxAgents ≤ candidates.length + 1
        · rw [if_pos hfull, if_pos hfull]
          simp only
          rw [if_pos (by simpa using hfull)]
        · rw [if_neg hfull, if_neg hfull]
          apply ih
          rw [List.length_append, List.length_singleton]
          omega

/-- What every claim keeps, the loop keeps. -/
theorem scanRows_keeps {P : Tables → List Candidate → Prop}
    (hclaim : ∀ t candidates row secret, selects env sched now wall t row = some secret →
      P t candidates →
        P (attempt sched now row.agentId t) (candidates ++ [candidate row secret]))
    {rows : List PageRow} {t : Tables} {candidates : List Candidate}
    {scanned : Tables × List Candidate}
    (h : scanRows env sched now wall rows t candidates = .ok scanned) (hP : P t candidates) :
    P scanned.1 scanned.2 := by
  induction rows generalizing t candidates with
  | nil =>
    cases h
    exact hP
  | cons row rows ih =>
    rw [scanRows_cons] at h
    cases hdue : probeDue env sched now row with
    | error raised =>
      rw [hdue] at h
      cases h
    | ok due =>
      rw [hdue] at h
      simp only [Except.bind] at h
      cases hsecret : takes env sched now wall t row due with
      | none =>
        rw [hsecret] at h
        exact ih h hP
      | some secret =>
        have hselected : selects env sched now wall t row = some secret := by
          unfold takes at hsecret
          split at hsecret
          · exact hsecret
          · cases hsecret
        have hnext := hclaim t candidates row secret hselected hP
        rw [hsecret] at h
        simp only [Option.elim] at h
        split at h
        · cases h
          exact hnext
        · exact ih h hnext

theorem joined_of_scanRows {rows : List PageRow} {t : Tables} {candidates : List Candidate}
    {scanned : Tables × List Candidate}
    (h : scanRows env sched now wall rows t candidates = .ok scanned) :
    joined scanned.1 = joined t := by
  apply @scanRows_keeps env sched now wall (fun t' _ => joined t' = joined t) _ _ _ _ _ h rfl
  intro t' _ row _ _ hsame
  rw [joined_attempt, hsame]

theorem agentId_of_pageRow {t : Tables} {a : AgentRow} {b : Binding.RuntimeBinding} {row : PageRow}
    (h : pageRow t a b = some row) : row.agentId = a.catalogAgentId := by
  unfold pageRow at h
  cases hkept : (t.consents a.catalogAgentId).filter (listed t a b) with
  | none =>
    rw [hkept] at h
    cases h
  | some k =>
    rw [hkept] at h
    cases h
    rfl

/-- One active binding an agent. -/
theorem length_active_le_one (t : Tables) (agentId : String) :
    (t.bindings.filter fun b => b.isActive && b.catalogAgentId = agentId).length ≤ 1 := by
  have hcount := List.nodup_iff_count_le_one.mp t.active_unique agentId
  rw [List.count, List.countP_map, List.countP_eq_length_filter, List.filter_filter] at hcount
  apply Nat.le_trans (Nat.le_of_eq _) hcount
  congr 1
  apply List.filter_congr
  intro b _
  simp only [Function.comp_apply, beq_eq_decide]
  exact Bool.and_comm _ _

theorem joined_nodup (t : Tables) : ((joined t).map PageRow.agentId).Nodup := by
  unfold joined
  rw [List.map_flatMap, List.nodup_flatMap]
  have hids : ∀ a : AgentRow, ∀ id ∈ ((t.bindings.filter fun b =>
      b.isActive && b.catalogAgentId = a.catalogAgentId).filterMap (pageRow t a)).map
        PageRow.agentId, id = a.catalogAgentId := by
    intro a id hid
    rcases List.mem_map.mp hid with ⟨row, hrow, rfl⟩
    rcases List.mem_filterMap.mp hrow with ⟨b, -, hb⟩
    exact agentId_of_pageRow hb
  constructor
  · intro a _
    have hlength := Nat.le_trans (List.length_filterMap_le (pageRow t a) _)
      (length_active_le_one t a.catalogAgentId)
    cases hrows : (t.bindings.filter fun b =>
        b.isActive && b.catalogAgentId = a.catalogAgentId).filterMap (pageRow t a) with
    | nil => exact List.nodup_nil
    | cons row rows =>
      rw [hrows, List.length_cons] at hlength
      have hnil : rows = [] := List.length_eq_zero_iff.mp (by omega)
      rw [hnil]
      exact List.nodup_singleton _
  · apply (List.pairwise_map.mp t.agents_unique).imp
    intro a a' hne id hid hid'
    exact hne ((hids a id hid).symm.trans (hids a' id hid'))

theorem ordered_nodup (t : Tables) : ((ordered t).map PageRow.agentId).Nodup :=
  ((List.mergeSort_perm (joined t) rowOrder.inOrder).map PageRow.agentId).nodup_iff.mpr
    (joined_nodup t)

theorem ordered_sorted (t : Tables) : rowOrder.Sorted (ordered t) := by
  apply Keyset.sorted_mergeSort (Keyset.ofLinear_total _)
  have hnodup := List.pairwise_map.mp (joined_nodup t)
  apply List.pairwise_map.mpr
  apply hnodup.imp
  intro a b hne heq
  exact hne (congrArg (fun cursor : Cursor => (ofLex cursor).2) heq)

/-- The pages from a cursor on are the rows after it, whatever their size. -/
theorem scanPages_eq {pageSize : Nat} (hsize : 0 < pageSize) {fuel : Nat} {cursor : Cursor}
    {t : Tables} {candidates : List Candidate}
    (hfuel : (rowOrder.after cursor (ordered t)).length < fuel) :
    scanPages env sched now wall pageSize fuel cursor t candidates =
      if sched.maxAgents ≤ candidates.length then .ok (t, candidates)
      else scanRows env sched now wall (rowOrder.after cursor (ordered t)) t candidates := by
  induction fuel generalizing cursor t candidates with
  | zero => omega
  | succ fuel ih =>
    unfold scanPages
    by_cases hfull : sched.maxAgents ≤ candidates.length
    · rw [if_pos hfull, if_pos hfull]
    · rw [if_neg hfull, if_neg hfull]
      have hcut := ((ordered_sorted t).upTo_page cursor pageSize).2
      have hpage : page pageSize t cursor = (rowOrder.after cursor (ordered t)).take pageSize := rfl
      have hsplit := List.take_append_drop pageSize (rowOrder.after cursor (ordered t))
      by_cases hempty : (page pageSize t cursor).isEmpty = true
      · rw [if_pos hempty]
        rw [hpage, List.isEmpty_iff, List.take_eq_nil_iff] at hempty
        have hnone := hempty.resolve_left (by omega)
        rw [hnone]
        rfl
      · rw [if_neg hempty]
        by_cases hshort : (page pageSize t cursor).length < pageSize
        · -- the last page
          have hall : page pageSize t cursor = rowOrder.after cursor (ordered t) := by
            rw [hpage, List.length_take] at hshort
            exact List.take_of_length_le (by omega)
          rw [hall] at hshort ⊢
          cases scanRows env sched now wall (rowOrder.after cursor (ordered t)) t candidates with
          | error raised => rfl
          | ok scanned => simp [Except.bind, hshort]
        · conv_rhs => rw [← hsplit]
          rw [scanRows_append (by omega), ← hpage]
          cases hscan : scanRows env sched now wall (page pageSize t cursor) t candidates with
          | error raised => rfl
          | ok scanned =>
            have hsame : ordered scanned.1 = ordered t := by
              unfold ordered
              rw [joined_of_scanRows hscan]
            simp only [Except.bind]
            rw [if_neg hshort, ih, hsame]
            · show _ = if sched.maxAgents ≤ scanned.2.length then Except.ok scanned else _
              rw [show rowOrder.after (rowOrder.lastKey cursor (page pageSize t cursor))
                (ordered t) = (rowOrder.after cursor (ordered t)).drop pageSize from hcut]
            · rw [hsame, show rowOrder.after (rowOrder.lastKey cursor (page pageSize t cursor))
                (ordered t) = (rowOrder.after cursor (ordered t)).drop pageSize from hcut,
                List.length_drop]
              rw [hpage, List.length_take] at hshort
              omega

/-! ## 4. The pass -/

theorem named_of_mem_joined {t : Tables} {row : PageRow} (h : row ∈ joined t) :
    row.agentId ≠ "" := by
  rcases List.mem_flatMap.mp h with ⟨a, -, hrow⟩
  rcases List.mem_filterMap.mp hrow with ⟨b, -, hb⟩
  rw [agentId_of_pageRow hb]
  exact a.named

/-- The first cursor stands before every row. -/
theorem after_start (t : Tables) : rowOrder.after (toLex ([], "")) (ordered t) = ordered t := by
  apply Keyset.after_eq_self
  intro row hrow
  have hnamed := named_of_mem_joined ((List.mergeSort_perm _ _).mem_iff.mp hrow)
  apply decide_eq_true
  apply Prod.Lex.toLex_lt_toLex.mpr
  cases hseen : row.lastSeenAt with
  | nil =>
    right
    refine ⟨rfl, ?_⟩
    show "" < row.agentId
    rw [String.lt_iff_toList_lt]
    cases hid : row.agentId.toList with
    | nil => exact absurd (String.toList_eq_nil_iff.mp hid) hnamed
    | cons c rest => exact List.nil_lt_cons c rest
  | cons c rest =>
    left
    exact List.nil_lt_cons c rest

theorem candidates_eq {pageSize : Nat} (hsize : 0 < pageSize) (t : Tables) :
    candidates env sched now wall pageSize t = scanRows env sched now wall (ordered t) t [] := by
  unfold candidates
  rw [scanPages_eq hsize, after_start, if_neg]
  · have hsome := sched.agents_min
    rw [List.length_nil]
    omega
  · rw [after_start]
    show ((joined t).mergeSort rowOrder.inOrder).length < _
    rw [List.length_mergeSort]
    omega

variable (env sched now wall)

/-- The agents that a pass sends a probe to. -/
def probed (pageSize : Nat) (t : Tables) : Except Raised (List String) :=
  (candidates env sched now wall pageSize t).map fun scanned =>
    (woken env wall scanned.1 scanned.2).map Candidate.agentId

/-- The first of the rows that are eligible, in order. -/
def firstEligible (t : Tables) : List String :=
  (((ordered t).filter (eligible env sched now wall t)).take sched.maxAgents).map PageRow.agentId

variable {env sched now wall}

theorem isSome_consent_of_selects {t : Tables} {row : PageRow} {secret : String}
    (h : selects env sched now wall t row = some secret) :
    enabled env wall t row.agentId = true ∧ claimable sched now t row.agentId = true := by
  unfold selects at h
  split at h
  · rename_i hsafe
    rw [Bool.and_eq_true] at hsafe
    cases hclaimable : claimable sched now t row.agentId with
    | true => exact ⟨hsafe.2, rfl⟩
    | false =>
      rw [hclaimable] at h
      simp at h
  · cases h

/-- Nothing of a pass takes a candidate out before it is sent to. -/
theorem woken_of_scanRows {rows : List PageRow} {t : Tables} {scanned : Tables × List Candidate}
    (h : scanRows env sched now wall rows t [] = .ok scanned) :
    woken env wall scanned.1 scanned.2 = scanned.2 := by
  have hall : ∀ c ∈ scanned.2, enabled env wall scanned.1 c.agentId = true := by
    apply @scanRows_keeps env sched now wall
      (fun t' cs => ∀ c ∈ cs, enabled env wall t' c.agentId = true) _ _ _ _ _ h (by simp)
    intro t' cs row secret hselects hcs c hc
    rw [enabled_attempt]
    rcases List.mem_append.mp hc with hold | hnew
    · exact hcs c hold
    · rw [List.mem_singleton.mp hnew]
      exact (isSome_consent_of_selects hselects).1
  exact List.filter_eq_self.mpr hall

/-- A pass probes the first eligible rows, unless a row hinders it. -/
theorem probed_cases {pageSize : Nat} (hsize : 0 < pageSize) (t : Tables) :
    (Unhindered env sched now wall t sched.maxAgents (ordered t) ∧
      probed env sched now wall pageSize t = .ok (firstEligible env sched now wall t)) ∨
    (¬ Unhindered env sched now wall t sched.maxAgents (ordered t) ∧
      probed env sched now wall pageSize t = .error .clock) := by
  have hroom : ([] : List Candidate).length < sched.maxAgents := sched.agents_min
  have hscan := @scanRows_cases env sched now wall t (ordered t) (ordered_nodup t) t [] hroom
    fun _ _ => rfl
  unfold probed
  rw [candidates_eq hsize]
  rcases hscan with ⟨hclear, t', new, hok, hnew⟩ | ⟨hblocked, hraised⟩
  · left
    refine ⟨hclear, ?_⟩
    have hwoken := woken_of_scanRows hok
    rw [hok]
    show Except.ok ((woken env wall t' ([] ++ new)).map Candidate.agentId) = _
    rw [show woken env wall t' ([] ++ new) = [] ++ new from hwoken, List.nil_append, hnew]
    rfl
  · right
    refine ⟨hblocked, ?_⟩
    rw [hraised]
    rfl

end KiwiCatalog.Keepalive
