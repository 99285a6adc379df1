import KiwiCatalog.Accounts.MerchantTokens

/-!
# TokenAuthority — the last token that was issued, while its row is active

Every writer either issues a token into a row or makes a row one that no token matches.  Both are
writes to the row of one merchant, and what the readers see is carried from one to the next.
-/

set_option autoImplicit false

namespace KiwiCatalog.Accounts.MerchantTokens

open Transition

/-! ## Runs -/

structure System where
  db : Db
  -- not stored: the tokens that were issued, the last one first
  issued : List Issue

/-- A token that was not generated before. -/
def Fresh (token : String) (issued : List Issue) : Prop :=
  ∀ i ∈ issued, i.token ≠ token

inductive Step (env : Env) : System → System → Prop
  | registers {s : System} {db : Db} (r : Registration) (accountId : Nat) (fresh : String)
      (h : registerAccount r accountId fresh s.db = .ok db) :
      Step env s { s with db := db }
  | approves {s : System} {db : Db} {merchantId : String} (applicationId : Nat)
      (fresh random : String) (hfresh : Fresh (generateMerchantToken random) s.issued)
      (h : approveApplication env applicationId fresh random s.db = .ok (db, merchantId)) :
      Step env s
        { db := db, issued := ⟨merchantId, generateMerchantToken random⟩ :: s.issued }
  | rotates {s : System} {db : Db} (merchantId random : String)
      (hfresh : Fresh (generateMerchantToken random) s.issued)
      (h : rotateToken env merchantId random s.db = .ok db) :
      Step env s
        { db := db, issued := ⟨merchantId, generateMerchantToken random⟩ :: s.issued }
  | revokes {s : System} {db : Db} (merchantId : String)
      (h : revokeToken merchantId s.db = .ok db) :
      Step env s { s with db := db }
  | backfills {s : System} {db : Db} {issued : List Issue} (random : String → String)
      (h : backfillLegacyMerchantTokens env random s.db = .ok (db, issued))
      (hdistinct : (issued.map Issue.token).Nodup)
      (hfresh : ∀ i ∈ issued, Fresh i.token s.issued) :
      Step env s { db := db, issued := issued.reverse ++ s.issued }
  -- what else is written: accounts, applications and the shadow rows of merchants
  | others {s : System} (accounts : List Account) (applications : List Application)
      (merchants : List Merchant) (hkeys : Table.KeyUnique Merchant.id merchants) :
      Step env s { s with
        db := { s.db with
          accounts := accounts, applications := applications, merchants := merchants } }

/-- No token has been issued; merchants, accounts and applications may be there. -/
def Started (s : System) : Prop :=
  s.db.tokens = [] ∧ s.issued = [] ∧ Table.KeyUnique Merchant.id s.db.merchants

def lastIssued (merchantId : String) (issued : List Issue) : Option String :=
  (issued.find? fun i => decide (i.merchantId = merchantId)).map Issue.token

/-! ## The ledger of tokens -/

structure Ledger where
  tokens : List TokenRow
  issued : List Issue

def System.ledger (s : System) : Ledger := ⟨s.db.tokens, s.issued⟩

def rowOf (merchantId : String) (tokens : List TokenRow) : Option TokenRow :=
  Table.lookup TokenRow.merchantId merchantId tokens

/-- The row of one merchant is written, and the others are left alone. -/
structure Writes (tokens tokens' : List TokenRow) (row : TokenRow) : Prop where
  keys : Table.KeyUnique TokenRow.merchantId tokens → Table.KeyUnique TokenRow.merchantId tokens'
  rows : ∀ k, rowOf k tokens' = if k = row.merchantId then some row else rowOf k tokens

inductive LedgerStep (env : Env) : Ledger → Ledger → Prop
  | issues {l : Ledger} {tokens : List TokenRow} (row : TokenRow) (random : String)
      (hfresh : Fresh (generateMerchantToken random) l.issued)
      (hhash : row.tokenHash = env.digest (generateMerchantToken random))
      (hwrites : Writes l.tokens tokens row) :
      LedgerStep env l ⟨tokens, ⟨row.merchantId, generateMerchantToken random⟩ :: l.issued⟩
  | retires {l : Ledger} {tokens : List TokenRow} (row : TokenRow) (hrow : row.status = .revoked)
      (hwrites : Writes l.tokens tokens row) :
      LedgerStep env l ⟨tokens, l.issued⟩

/-! ## What each statement writes -/

theorem writes_replace (row : TokenRow) (tokens : List TokenRow) :
    Writes tokens (insertOrReplace row tokens) row := by
  have hfree : ∀ r ∈ Table.deleteWhere (fun r => decide (r.merchantId = row.merchantId)) tokens,
      r.merchantId ≠ row.merchantId := by
    intro r hr
    simpa using (Table.mem_deleteWhere.mp hr).2
  constructor
  · intro hkeys
    exact Table.keyUnique_append (Table.keyUnique_deleteWhere hkeys) hfree
  · intro k
    rw [rowOf, insertOrReplace, Table.lookup_append]
    by_cases hk : k = row.merchantId
    · subst hk
      rw [Table.lookup_eq_none.mpr hfree, if_pos rfl, if_pos rfl, Option.none_or]
    · have hother : ∀ r : TokenRow, decide (r.merchantId = row.merchantId) = true →
          r.merchantId ≠ k := by
        intro r hr heq
        rw [decide_eq_true_eq] at hr
        exact hk (heq.symm.trans hr)
      rw [Table.lookup_deleteWhere_of_ne hother, if_neg (Ne.symm hk), if_neg hk, Option.or_none,
        rowOf]

theorem writes_insert {row : TokenRow} {tokens : List TokenRow}
    (hnone : rowOf row.merchantId tokens = none) :
    Writes tokens (insertOrIgnore row tokens) row := by
  have hfree : ∀ r ∈ tokens, r.merchantId ≠ row.merchantId := Table.lookup_eq_none.mp hnone
  have hinsert : insertOrIgnore row tokens = tokens ++ [row] := by
    rw [insertOrIgnore, Table.insert?, if_neg (by simpa using hfree)]
    rfl
  rw [hinsert]
  constructor
  · exact fun hkeys => Table.keyUnique_append hkeys hfree
  · intro k
    rw [rowOf, Table.lookup_append]
    by_cases hk : k = row.merchantId
    · subst hk
      rw [Table.lookup_eq_none.mpr hfree, if_pos rfl, if_pos rfl, Option.none_or]
    · rw [if_neg (Ne.symm hk), if_neg hk, Option.or_none, rowOf]

theorem insertOrIgnore_of_row {row r : TokenRow} {tokens : List TokenRow}
    (h : rowOf row.merchantId tokens = some r) : insertOrIgnore row tokens = tokens := by
  have hmem := Table.lookup_mem h
  rw [insertOrIgnore, Table.insert?, if_pos]
  · rfl
  · rw [List.any_eq_true]
    exact ⟨r, hmem.1, decide_eq_true hmem.2⟩

theorem writes_update {merchantId : String} {f : TokenRow → TokenRow}
    (hf : ∀ r, (f r).merchantId = r.merchantId) {r : TokenRow} {tokens : List TokenRow}
    (h : rowOf merchantId tokens = some r) :
    Writes tokens (updateToken merchantId f tokens) (f r) := by
  have hkey : (f r).merchantId = merchantId := (hf r).trans (Table.lookup_mem h).2
  constructor
  · exact fun hkeys => Table.keyUnique_updateWhere hf hkeys
  · intro k
    rw [hkey, rowOf, updateToken, Table.lookup_updateWhere hf]
    by_cases hk : k = merchantId
    · subst hk
      unfold rowOf at h
      rw [if_pos rfl, if_pos rfl, h]
      rfl
    · rw [if_neg hk, if_neg hk]
      rfl

/-! ## What each writer does to the ledger -/

theorem ensureMerchantId_tokens (accountId : Nat) (nameHint fresh : String) (db : Db) :
    (ensureMerchantId accountId nameHint fresh db).1.tokens = db.tokens := by
  unfold ensureMerchantId
  split
  · rfl
  · rfl

theorem plantPlaceholder_run (env : Env) (merchantId : String) (tokens : List TokenRow)
    (issued : List Issue) :
    Run (LedgerStep env) ⟨tokens, issued⟩ ⟨plantPlaceholder merchantId tokens, issued⟩ := by
  unfold plantPlaceholder
  split
  · exact .refl
  · cases hrow : rowOf merchantId tokens with
    | none => exact .single (.retires ⟨merchantId, "", "", .revoked⟩ rfl (writes_insert hrow))
    | some r => rw [insertOrIgnore_of_row hrow]

theorem registerAccount_run (env : Env) {r : Registration} {accountId : Nat} {fresh : String}
    {db db' : Db} (h : registerAccount r accountId fresh db = .ok db') (issued : List Issue) :
    Run (LedgerStep env) ⟨db.tokens, issued⟩ ⟨db'.tokens, issued⟩ := by
  unfold registerAccount at h
  split at h
  · cases h
  · split at h
    · cases h
    · dsimp only at h
      -- the new account and its shadow row leave the table alone
      generalize hensure : ensureMerchantId accountId r.merchantName fresh _ = ensured at h
      have htokens : ensured.1.tokens = db.tokens := by
        rw [← hensure, ensureMerchantId_tokens]
      rw [← Except.ok.inj h]
      show Run _ _ (⟨plantPlaceholder ensured.2 ensured.1.tokens, issued⟩ : Ledger)
      rw [htokens]
      exact plantPlaceholder_run env _ _ _

theorem approveApplication_step {env : Env} {applicationId : Nat} {fresh random : String}
    {db db' : Db} {merchantId : String}
    (h : approveApplication env applicationId fresh random db = .ok (db', merchantId))
    {issued : List Issue} (hfresh : Fresh (generateMerchantToken random) issued) :
    LedgerStep env ⟨db.tokens, issued⟩
      ⟨db'.tokens, ⟨merchantId, generateMerchantToken random⟩ :: issued⟩ := by
  unfold approveApplication at h
  split at h
  · cases h
  · split at h
    · cases h
    · dsimp only at h
      split at h
      · cases h
      · rename_i row _ _ _ encrypted _
        cases h
        have hwrites := writes_replace
          ⟨approvedMerchantId (linkedAccount row db.accounts) fresh db.accounts,
            env.digest (generateMerchantToken random), encrypted, .active⟩ db.tokens
        exact @LedgerStep.issues env ⟨db.tokens, issued⟩ _ _ random hfresh rfl hwrites

theorem rotateToken_step {env : Env} {merchantId random : String} {db db' : Db}
    (h : rotateToken env merchantId random db = .ok db') {issued : List Issue}
    (hfresh : Fresh (generateMerchantToken random) issued) :
    LedgerStep env ⟨db.tokens, issued⟩
      ⟨db'.tokens, ⟨merchantId, generateMerchantToken random⟩ :: issued⟩ := by
  unfold rotateToken at h
  split at h
  · cases h
  · rename_i r hrow
    dsimp only at h
    split at h
    · cases h
    · rename_i encrypted hencrypt
      cases h
      have hwrites := writes_update
        (f := TokenRow.rotate (env.digest (generateMerchantToken random)) encrypted)
        (fun _ => rfl) hrow
      have hkey : r.merchantId = merchantId := (Table.lookup_mem hrow).2
      subst hkey
      exact .issues (r.rotate _ encrypted) random hfresh rfl hwrites

theorem revokeToken_run (env : Env) {merchantId : String} {db db' : Db}
    (h : revokeToken merchantId db = .ok db') (issued : List Issue) :
    Run (LedgerStep env) ⟨db.tokens, issued⟩ ⟨db'.tokens, issued⟩ := by
  unfold revokeToken at h
  split at h
  · cases h
  · rename_i r hrow
    split at h
    · cases h
      exact .refl
    · cases h
      exact .single (.retires r.revoke rfl (writes_update (f := TokenRow.revoke) (fun _ => rfl) hrow))

/-- Each merchant of the list has no row yet when its turn comes. -/
theorem backfillRows_run {env : Env} {random : String → String} {rows : List Merchant}
    {tokens tokens' : List TokenRow} {issued past : List Issue}
    (h : backfillRows env random rows tokens = .ok (tokens', issued))
    (hids : (rows.map Merchant.id).Nodup) (hnone : ∀ m ∈ rows, rowOf m.id tokens = none)
    (hdistinct : (issued.map Issue.token).Nodup) (hfresh : ∀ i ∈ issued, Fresh i.token past) :
    Run (LedgerStep env) ⟨tokens, past⟩ ⟨tokens', issued.reverse ++ past⟩ := by
  induction rows generalizing tokens issued past with
  | nil =>
    cases h
    exact .refl
  | cons m rest ih =>
    unfold backfillRows at h
    dsimp only at h
    split at h
    · cases h
    · rename_i encrypted hencrypt
      split at h
      · cases h
      · rename_i tokens₂ issued₂ hrest
        cases h
        rw [List.map_cons, List.nodup_cons] at hids hdistinct
        have hwrites := @writes_insert
          ⟨m.id, env.digest (generateMerchantToken (random m.id)), encrypted, .active⟩ tokens
          (hnone m List.mem_cons_self)
        have hfirst := @LedgerStep.issues env ⟨tokens, past⟩ _ _ (random m.id)
          (hfresh _ List.mem_cons_self) rfl hwrites
        rw [List.reverse_cons, List.append_assoc]
        refine .head hfirst (ih hrest hids.2 ?_ hdistinct.2 ?_)
        · intro n hn
          have hne : n.id ≠ m.id := fun heq => hids.1 (heq ▸ List.mem_map_of_mem hn)
          rw [hwrites.rows, if_neg hne]
          exact hnone n (List.mem_cons_of_mem _ hn)
        · intro i hi j hj
          rcases List.mem_cons.mp hj with rfl | hj
          · exact fun heq => hdistinct.1 (heq ▸ List.mem_map_of_mem hi)
          · exact hfresh i (List.mem_cons_of_mem _ hi) j hj

theorem legacyMerchants_ids {db : Db} (h : Table.KeyUnique Merchant.id db.merchants) :
    ((legacyMerchants db).map Merchant.id).Nodup := by
  have hperm := (List.mergeSort_perm (db.merchants.filter fun m =>
    (Table.lookup TokenRow.merchantId m.id db.tokens).isNone) fun m n => m.id ≤ n.id).map
      Merchant.id
  exact hperm.nodup_iff.mpr (h.sublist (List.filter_sublist.map Merchant.id))

theorem legacyMerchants_none {db : Db} {m : Merchant} (h : m ∈ legacyMerchants db) :
    rowOf m.id db.tokens = none := by
  unfold legacyMerchants at h
  rw [List.mem_mergeSort, List.mem_filter, Option.isNone_iff_eq_none] at h
  exact h.2

theorem step_ledger {env : Env} {s t : System} (h : Step env s t)
    (hkeys : Table.KeyUnique Merchant.id s.db.merchants) :
    Run (LedgerStep env) s.ledger t.ledger := by
  cases h with
  | registers r accountId fresh h => exact registerAccount_run env h s.issued
  | approves applicationId fresh random hfresh h =>
    exact .single (approveApplication_step h hfresh)
  | rotates merchantId random hfresh h => exact .single (rotateToken_step h hfresh)
  | revokes merchantId h => exact revokeToken_run env h s.issued
  | backfills random h hdistinct hfresh =>
    unfold backfillLegacyMerchantTokens at h
    split at h
    · cases h
    · rename_i hrows
      cases h
      exact backfillRows_run hrows (legacyMerchants_ids hkeys)
        (fun m hm => legacyMerchants_none hm) hdistinct hfresh
  | others accounts applications merchants hkeys => exact .refl

/-! ## The invariant -/

theorem merchants_insert {merchant : Merchant} {merchants : List Merchant}
    (h : Table.KeyUnique Merchant.id merchants) :
    Table.KeyUnique Merchant.id (ensureMerchant merchant merchants) := by
  unfold ensureMerchant
  cases hinsert : Table.insert? Merchant.id merchant merchants with
  | none => exact h
  | some merchants' => exact Table.keyUnique_insert? h hinsert

theorem ensureMerchantId_merchants {accountId : Nat} {nameHint fresh : String} {db : Db}
    (h : Table.KeyUnique Merchant.id db.merchants) :
    Table.KeyUnique Merchant.id (ensureMerchantId accountId nameHint fresh db).1.merchants := by
  unfold ensureMerchantId
  split
  · exact h
  · exact merchants_insert h

theorem step_merchants {env : Env} {s t : System} (h : Step env s t)
    (hkeys : Table.KeyUnique Merchant.id s.db.merchants) :
    Table.KeyUnique Merchant.id t.db.merchants := by
  cases h with
  | registers r accountId fresh h =>
    unfold registerAccount at h
    split at h
    · cases h
    · split at h
      · cases h
      · cases h
        exact ensureMerchantId_merchants hkeys
  | approves applicationId fresh random hfresh h =>
    unfold approveApplication at h
    split at h
    · cases h
    · split at h
      · cases h
      · dsimp only at h
        split at h
        · cases h
        · cases h
          exact merchants_insert hkeys
  | rotates merchantId random hfresh h =>
    unfold rotateToken at h
    split at h
    · cases h
    · dsimp only at h
      split at h
      · cases h
      · cases h
        exact hkeys
  | revokes merchantId h =>
    unfold revokeToken at h
    split at h
    · cases h
    · split at h
      · cases h
        exact hkeys
      · cases h
        exact hkeys
  | backfills random h hdistinct hfresh =>
    unfold backfillLegacyMerchantTokens at h
    split at h
    · cases h
    · cases h
      exact hkeys
  | others accounts applications merchants hkeys => exact hkeys

/-- An active row holds the digest of the last token of its merchant. -/
structure LedgerInv (env : Env) (l : Ledger) : Prop where
  keys : Table.KeyUnique TokenRow.merchantId l.tokens
  active : ∀ k r, rowOf k l.tokens = some r → r.status = .active →
    ∃ token, lastIssued k l.issued = some token ∧ r.tokenHash = env.digest token
  distinct : (l.issued.map Issue.token).Nodup
  generated : ∀ i ∈ l.issued, ∃ random, i.token = generateMerchantToken random

theorem lastIssued_cons (k : String) (i : Issue) (issued : List Issue) :
    lastIssued k (i :: issued) =
      if i.merchantId = k then some i.token else lastIssued k issued := by
  unfold lastIssued
  rw [List.find?_cons]
  by_cases h : i.merchantId = k
  · simp [h]
  · simp [h]

theorem LedgerInv.step {env : Env} : Preserves (LedgerStep env) (LedgerInv env) := by
  intro l l' hstep hinv
  cases hstep with
  | issues row random hfresh hhash hwrites =>
    constructor
    · exact hwrites.keys hinv.keys
    · intro k r hrow hactive
      rw [hwrites.rows] at hrow
      rw [lastIssued_cons]
      by_cases hk : k = row.merchantId
      · rw [if_pos hk] at hrow
        rw [if_pos hk.symm, ← Option.some.inj hrow]
        exact ⟨_, rfl, hhash⟩
      · rw [if_neg hk] at hrow
        rw [if_neg (Ne.symm hk)]
        exact hinv.active k r hrow hactive
    · rw [List.map_cons, List.nodup_cons]
      refine ⟨fun hmem => ?_, hinv.distinct⟩
      obtain ⟨i, hi, heq⟩ := List.mem_map.mp hmem
      exact hfresh i hi heq
    · intro i hi
      rcases List.mem_cons.mp hi with rfl | hi
      · exact ⟨random, rfl⟩
      · exact hinv.generated i hi
  | retires row hrevoked hwrites =>
    refine ⟨hwrites.keys hinv.keys, ?_, hinv.distinct, hinv.generated⟩
    intro k r hrow hactive
    rw [hwrites.rows] at hrow
    by_cases hk : k = row.merchantId
    · rw [if_pos hk] at hrow
      rw [← Option.some.inj hrow, hrevoked] at hactive
      cases hactive
    · rw [if_neg hk] at hrow
      exact hinv.active k r hrow hactive

structure SystemInv (env : Env) (s : System) : Prop where
  ledger : LedgerInv env s.ledger
  merchants : Table.KeyUnique Merchant.id s.db.merchants

theorem SystemInv.init {env : Env} {s : System} (h : Started s) : SystemInv env s := by
  obtain ⟨htokens, hissued, hmerchants⟩ := h
  refine ⟨?_, hmerchants⟩
  have hledger : s.ledger = ⟨[], []⟩ := by rw [System.ledger, htokens, hissued]
  rw [hledger]
  refine ⟨List.nodup_nil, ?_, List.nodup_nil, ?_⟩
  · intro k r hrow
    cases hrow
  · intro i hi
    cases hi

theorem SystemInv.step {env : Env} : Preserves (Step env) (SystemInv env) := by
  intro s t hstep hinv
  exact ⟨run_preserves LedgerInv.step (step_ledger hstep hinv.merchants) hinv.ledger,
    step_merchants hstep hinv.merchants⟩

/-! ## The readers -/

/-- The token that a merchant's row stands for. -/
def Current (l : Ledger) (merchantId token : String) : Prop :=
  ∃ r, rowOf merchantId l.tokens = some r ∧ r.status = .active ∧
    lastIssued merchantId l.issued = some token

theorem lastIssued_mem {k token : String} {issued : List Issue}
    (h : lastIssued k issued = some token) : (⟨k, token⟩ : Issue) ∈ issued := by
  obtain ⟨i, hfind, rfl⟩ := Option.map_eq_some_iff.mp h
  have hk := List.find?_some hfind
  rw [decide_eq_true_eq] at hk
  subst hk
  exact List.mem_of_find?_eq_some hfind

/-- A token was issued once. -/
theorem LedgerInv.issued_once {env : Env} {l : Ledger} (hinv : LedgerInv env l) {i j : Issue}
    (hi : i ∈ l.issued) (hj : j ∈ l.issued) (h : i.token = j.token) : i = j :=
  List.inj_on_of_nodup_map hinv.distinct hi hj h

theorem LedgerInv.token_ne_empty {env : Env} {l : Ledger} (hinv : LedgerInv env l)
    {k token : String} (h : lastIssued k l.issued = some token) : token ≠ "" := by
  obtain ⟨random, hrandom⟩ := hinv.generated _ (lastIssued_mem h)
  dsimp only at hrandom
  rw [hrandom]
  intro hempty
  have hlength := congrArg String.length hempty
  rw [generateMerchantToken, String.length_append] at hlength
  have hmark : merchantTokenPrefix.length = 4 := by decide
  rw [hmark] at hlength
  simp at hlength

/-- A row's digest is met by the last token only. -/
theorem LedgerInv.active_iff {env : Env} {l : Ledger} (hinv : LedgerInv env l) {k : String}
    {r : TokenRow} (hrow : rowOf k l.tokens = some r) (text : String) :
    (r.status = .active ∧ r.tokenHash = env.digest text) ↔
      lastIssued k l.issued = some text ∧ r.status = .active := by
  constructor
  · rintro ⟨hactive, hhash⟩
    obtain ⟨token, hlast, htoken⟩ := hinv.active k r hrow hactive
    have heq : token = text := env.digest_injective (htoken.symm.trans hhash)
    rw [← heq]
    exact ⟨hlast, hactive⟩
  · rintro ⟨hlast, hactive⟩
    obtain ⟨token, hlast', htoken⟩ := hinv.active k r hrow hactive
    have heq : token = text := Option.some.inj (hlast'.symm.trans hlast)
    rw [← heq]
    exact ⟨hactive, htoken⟩

theorem requireMerchantToken_iff {env : Env} {s : System} (hinv : LedgerInv env s.ledger)
    {k : String} {r : TokenRow} (hrow : rowOf k s.db.tokens = some r) (p : Payload) :
    requireMerchantToken env p k s.db = .ok () ↔
      lastIssued k s.issued = some p.presented ∧ r.status = .active := by
  obtain ⟨hmem, hkey⟩ := Table.lookup_mem hrow
  unfold requireMerchantToken
  dsimp only
  split
  · rename_i hempty
    constructor
    · intro h
      have howner : p.ownerToken = "" := by
        by_contra hne
        rw [Payload.presented, if_neg hne] at hempty
        exact hne hempty
      unfold requireOwnerToken at h
      split at h
      · cases h
      · cases h
    · rintro ⟨hlast, -⟩
      rw [hempty] at hlast
      exact absurd rfl (hinv.token_ne_empty hlast)
  · have hrows : (s.db.tokens.filter fun r => decide (r.merchantId = k)) = [r] := by
      rw [← hkey]
      exact Table.filter_key_eq hinv.keys hmem
    show _ ↔ lastIssued k s.ledger.issued = some p.presented ∧ r.status = .active
    rw [hrows, if_pos (List.cons_ne_nil _ _), ← hinv.active_iff hrow p.presented]
    split
    · rename_i hany
      simp only [List.any_cons, List.any_nil, Bool.or_false, Bool.and_eq_true,
        decide_eq_true_eq] at hany
      exact iff_of_true rfl ⟨hany.1, hany.2.symm⟩
    · rename_i hany
      refine iff_of_false (by intro h; cases h) fun hall => hany ?_
      simp only [List.any_cons, List.any_nil, Bool.or_false, Bool.and_eq_true,
        decide_eq_true_eq]
      exact ⟨hall.1, hall.2.symm⟩

theorem resolveMerchantByToken_iff {env : Env} {s : System} (hinv : LedgerInv env s.ledger)
    {k : String} {r : TokenRow} (hrow : rowOf k s.db.tokens = some r) (text : String) :
    (resolveMerchantByToken env text s.db).map TokenRow.merchantId = some k ↔
      lastIssued k s.issued = some text ∧ r.status = .active := by
  show _ ↔ lastIssued k s.ledger.issued = some text ∧ r.status = .active
  have hfound : ∀ r', resolveMerchantByToken env text s.db = some r' →
      lastIssued r'.merchantId s.ledger.issued = some text ∧ r'.status = .active := by
    intro r' hfind
    have hmem := List.mem_of_find?_eq_some hfind
    have hmatch := List.find?_some hfind
    rw [Bool.and_eq_true, decide_eq_true_eq, decide_eq_true_eq] at hmatch
    exact (hinv.active_iff (Table.lookup_of_mem hinv.keys hmem) text).mp hmatch
  constructor
  · intro hmap
    obtain ⟨r', hfind, hkey⟩ := Option.map_eq_some_iff.mp hmap
    have hmem := List.mem_of_find?_eq_some hfind
    have hlookup : rowOf k s.db.tokens = some r' := by
      rw [← hkey]
      exact Table.lookup_of_mem hinv.keys hmem
    rw [hrow] at hlookup
    cases hlookup
    rw [← hkey]
    exact hfound r hfind
  · intro hcurrent
    have hmatch := (hinv.active_iff hrow text).mpr hcurrent
    cases hfind : resolveMerchantByToken env text s.db with
    | none =>
      -- the merchant's own row matches
      unfold resolveMerchantByToken at hfind
      rw [List.find?_eq_none] at hfind
      exact absurd (by simp [hmatch.1, hmatch.2]) (hfind r (Table.lookup_mem hrow).1)
    | some r' =>
      have hsame := hinv.issued_once (lastIssued_mem (hfound r' hfind).1)
        (lastIssued_mem hcurrent.1) rfl
      rw [Option.map_some, show r'.merchantId = k from congrArg Issue.merchantId hsame]

/-! ## Tokens that were given up -/

theorem lastIssued_head {k : String} {i : Issue} {issued : List Issue} {token : String}
    (hfresh : Fresh i.token issued) (hmem : ∃ j ∈ issued, j.token = token)
    (h : lastIssued k (i :: issued) = some token) :
    i.merchantId ≠ k ∧ lastIssued k issued = some token := by
  rw [lastIssued_cons] at h
  by_cases hk : i.merchantId = k
  · rw [if_pos hk] at h
    obtain ⟨j, hj, htoken⟩ := hmem
    exact absurd (htoken.trans (Option.some.inj h).symm) (hfresh j hj)
  · rw [if_neg hk] at h
    exact ⟨hk, h⟩

/-- A token that was issued and stands for no row. -/
structure GivenUp (token : String) (l : Ledger) : Prop where
  issued : ∃ i ∈ l.issued, i.token = token
  notCurrent : ∀ k, ¬ Current l k token

theorem GivenUp.step {env : Env} {token : String} :
    Preserves (LedgerStep env) (GivenUp token) := by
  intro l l' hstep h
  cases hstep with
  | issues row random hfresh hhash hwrites =>
    obtain ⟨i, hi, htoken⟩ := h.issued
    refine ⟨⟨i, List.mem_cons_of_mem _ hi, htoken⟩, ?_⟩
    rintro k ⟨r, hrow, hactive, hlast⟩
    obtain ⟨hne, hlast'⟩ := lastIssued_head hfresh h.issued hlast
    rw [hwrites.rows, if_neg (Ne.symm hne)] at hrow
    exact h.notCurrent k ⟨r, hrow, hactive, hlast'⟩
  | retires row hrevoked hwrites =>
    refine ⟨h.issued, ?_⟩
    rintro k ⟨r, hrow, hactive, hlast⟩
    rw [hwrites.rows] at hrow
    by_cases hk : k = row.merchantId
    · rw [if_pos hk] at hrow
      rw [← Option.some.inj hrow, hrevoked] at hactive
      cases hactive
    · rw [if_neg hk] at hrow
      exact h.notCurrent k ⟨r, hrow, hactive, hlast⟩

/-- A row is never taken away. -/
theorem row_kept {env : Env} {k : String} :
    Preserves (LedgerStep env) fun l => (rowOf k l.tokens).isSome = true := by
  have hwritten : ∀ {tokens tokens' : List TokenRow} {row : TokenRow}, Writes tokens tokens' row →
      (rowOf k tokens).isSome = true → (rowOf k tokens').isSome = true := by
    intro tokens tokens' row hwrites h
    rw [hwrites.rows]
    split
    · rfl
    · exact h
  intro l l' hstep h
  cases hstep with
  | issues row random hfresh hhash hwrites => exact hwritten hwrites h
  | retires row hrevoked hwrites => exact hwritten hwrites h

/-- What every step of the ledger keeps, a run of the system keeps. -/
theorem run_ledger {env : Env} {P : Ledger → Prop} (hP : Preserves (LedgerStep env) P)
    {s t : System} (hrun : Run (Step env) s t) (hinv : SystemInv env s) (hs : P s.ledger) :
    P t.ledger ∧ SystemInv env t := by
  induction hrun with
  | refl => exact ⟨hs, hinv⟩
  | tail _ hlast ih =>
    exact ⟨run_preserves hP (step_ledger hlast ih.2.merchants) ih.1, SystemInv.step hlast ih.2⟩

/-! ## Authority -/

/-- `require_merchant_token` with a connection lets the request through. -/
def Accepts (env : Env) (db : Db) (p : Payload) (merchantId : String) : Prop :=
  requireMerchantToken env p merchantId db = .ok ()

/-- The credential of a merchant with a row. -/
structure Authority (env : Env) (s : System) : Prop where
  accepted : ∀ k r p, rowOf k s.db.tokens = some r →
    (Accepts env s.db p k ↔ lastIssued k s.issued = some p.presented ∧ r.status = .active)
  resolved : ∀ k r p, rowOf k s.db.tokens = some r →
    ((resolveMerchantByToken env p.presented s.db).map TokenRow.merchantId = some k ↔
      Accepts env s.db p k)
  hmac : ∀ k r p owner, rowOf k s.db.tokens = some r →
    env.ownerToken owner = some p.presented → ¬ Accepts env s.db p k
  -- a merchant keeps its row, and a token that was superseded or revoked is not taken up again
  kept : ∀ t, Run (Step env) s t → ∀ k r, rowOf k s.db.tokens = some r →
    (rowOf k t.db.tokens).isSome = true
  retired : ∀ t, Run (Step env) s t → ∀ i ∈ s.issued,
    ¬ Current s.ledger i.merchantId i.token →
      ∀ k r p, rowOf k t.db.tokens = some r → p.presented = i.token → ¬ Accepts env t.db p k

theorem generated_ne_hex {env : Env} {owner text random : String}
    (h : env.ownerToken owner = some text) : generateMerchantToken random ≠ text := by
  intro heq
  have hhex := env.ownerToken_hex owner text h
  rw [← heq, generateMerchantToken, String.toList_append, List.all_append] at hhex
  have hmark : (merchantTokenPrefix.toList.all fun c =>
      c.isDigit || ('a' ≤ c && c ≤ 'f')) = false := by decide
  rw [hmark] at hhex
  cases hhex

/-- The digest of one token, and something else for every other text. -/
def sampleDigest (token : String) : String :=
  if token = "mkt_a" then "47d330249515bf1dffd8ebb7741b388f6591179cd6685b80fbbb9dfd92cca0ff"
  else "-" ++ token

theorem sampleDigest_injective : Function.Injective sampleDigest := by
  have hother : ∀ text : String,
      "47d330249515bf1dffd8ebb7741b388f6591179cd6685b80fbbb9dfd92cca0ff" ≠ "-" ++ text := by
    intro text heq
    have hlist := congrArg String.toList heq
    rw [String.toList_append] at hlist
    cases hlist
  intro a b h
  unfold sampleDigest at h
  split at h
  · rename_i ha
    split at h
    · rename_i hb
      exact ha.trans hb.symm
    · exact absurd h (hother b)
  · split at h
    · exact absurd h.symm (hother a)
    · have hlist := congrArg String.toList h
      rw [String.toList_append, String.toList_append] at hlist
      exact String.toList_inj.mp (List.append_cancel_left hlist)

def sampleEnv : Env where
  digest := sampleDigest
  encrypt token := some token
  legacyHmacEnabled := true
  ownerToken _ := none
  digest_injective := sampleDigest_injective
  ownerToken_hex := by
    intro merchantId text h
    cases h

/-- One account whose merchant has been given a token. -/
def rotated : System where
  db := {
    accounts := [⟨1, "a@example.com", "mkt_shop_1", "Shop", "1", ""⟩]
    applications := []
    merchants := [⟨"mkt_shop_1", "Shop"⟩]
    tokens := [⟨"mkt_shop_1", sampleDigest "mkt_a", "mkt_a", .active⟩] }
  issued := [⟨"mkt_shop_1", "mkt_a"⟩]

end KiwiCatalog.Accounts.MerchantTokens
