import KiwiCatalog.Accounts.Handlers

/-!
# Atomicity — what a handler that raises leaves behind

A handler that raises leaves the database as it was exactly when no statement before the raise has
changed it.  Each handler is shown to be one-way: what its first effective write does, the later
ones do not take back.
-/

set_option autoImplicit false

namespace KiwiCatalog.Accounts

open Work

variable {now : Nat} {s s' : Db}

/-! ## Rules for one-way work -/

/-- A write that makes `P` true, and changes nothing where `P` is true already, is one-way when the
work after it keeps `P`. -/
theorem oneWay_write {w : Db → Except Error Db} {k : Task} (P : Db → Prop)
    (hfix : ∀ s', w s = .ok s' → P (core now s) → core now s' = core now s)
    (hest : ∀ s', w s = .ok s' → P (core now s'))
    (hkeeps : k.Keeps fun s => P (core now s))
    (hk : ∀ s', w s = .ok s' → core now s' = core now s → k.OneWay (core now) s') :
    OneWay (core now) (.write w k) s := by
  intro s' hw
  by_cases hP : P (core now s)
  · have hsame := hfix s' hw hP
    exact .inl ⟨hsame, hk s' hw hsame⟩
  · exact .inr ⟨P, hP, hest s' hw, hkeeps⟩

/-- An exempt write may stand anywhere. -/
theorem oneWay_exempt {w : Db → Except Error Db} {k : Task}
    (hw : ∀ s', w s = .ok s' → core now s' = core now s)
    (hk : ∀ s, k.OneWay (core now) s) : OneWay (core now) (.write w k) s :=
  fun s' h => .inl ⟨hw s' h, hk s'⟩

theorem oneWay_orElse {α : Type} {x : Option α} {e : Error} {k : α → Task}
    (hk : ∀ a, x = some a → (k a).OneWay (core now) s) : (orElse x e k).OneWay (core now) s := by
  cases x with
  | none => exact trivial
  | some a => exact hk a rfl

theorem keeps_orElse {P : Db → Prop} {α : Type} {x : Option α} {e : Error} {k : α → Task}
    (hk : ∀ a, (k a).Keeps P) : (orElse x e k).Keeps P := by
  cases x with
  | none => exact trivial
  | some a => exact hk a

theorem keeps_write {P : Db → Prop} {w : Db → Except Error Db} {k : Task}
    (hw : ∀ s s', w s = .ok s' → P s → P s') (hk : k.Keeps P) : Keeps P (.write w k) :=
  ⟨hw, hk⟩

/-! ## The exempt writes -/

theorem core_setLimits {limits : Option (FixedWindow.Counters String)}
    (h : s.setLimits limits = .ok s') : core now s' = core now s := by
  cases limits with
  | none => cases h
  | some limits =>
    cases h
    rfl

theorem core_countRequest {key : String} {limit : Nat} (h : s.countRequest key limit now = .ok s') :
    core now s' = core now s := by
  unfold Db.countRequest at h
  exact core_setLimits h

theorem lapse_lapse (r : BindingRequest) : (r.lapse now).lapse now = r.lapse now := by
  by_cases h : r.status = .pending ∧ r.expiresAt ≤ now
  · have hlapse : r.lapse now = { r with status := .expired, decidedAt := now } := if_pos h
    rw [hlapse]
    exact if_neg (by simp)
  · have hlapse : r.lapse now = r := if_neg h
    rw [hlapse, hlapse]

theorem core_expireStale {agentId : String} (h : s.expireStale agentId now = .ok s') :
    core now s' = core now s := by
  cases h
  have hrequests : ∀ r : BindingRequest,
      (if r.catalogAgentId = agentId then r.lapse now else r).lapse now = r.lapse now := by
    intro r
    split
    · exact lapse_lapse r
    · rfl
  unfold core
  congr 1
  funext id
  dsimp only
  rw [Option.map_map]
  congr 1
  funext r
  exact hrequests r

theorem core_expireEnrollment {enrollmentId : String} {row : EnrollmentRow}
    (hrow : s.enrollments enrollmentId = some row) (hdue : row.overdue now = true)
    (h : s.expireEnrollment enrollmentId = .ok s') : core now s' = core now s := by
  cases h
  unfold core
  congr 1
  funext id
  dsimp only [setRow]
  split
  · rename_i hid
    rw [hid, hrow]
    have hlapse : row.lapse now = { row with status := .expired } := if_pos hdue
    have hlapsed : EnrollmentRow.lapse now { row with status := .expired } =
        { row with status := .expired } := if_neg (by simp [EnrollmentRow.overdue])
    show some (EnrollmentRow.lapse now { row with status := .expired }) = some (row.lapse now)
    rw [hlapse, hlapsed]
  · rfl

theorem oneWay_limited {env : Env} {surface : String} {account : Account} {k : Task}
    (hk : ∀ s, k.OneWay (core now) s) : (limited env surface account now k).OneWay (core now) s := by
  unfold limited
  split
  · exact hk s
  · exact oneWay_exempt (fun s' h => core_countRequest h) hk

theorem oneWay_accountView {env : Env} {account : Account} {k : Option TokenInfo → Task}
    (hk : ∀ token s, (k token).OneWay (core now) s) :
    (accountView env account k).OneWay (core now) s := by
  unfold accountView
  rw [oneWay_read]
  split
  · exact trivial
  · exact hk _ s

/-! ## Insertions and last writes -/

/-- The last write of a work has nothing after it that could take it back. -/
theorem oneWay_last {w : Db → Except Error Db} {k : Task} (hkeeps : ∀ P, k.Keeps P)
    (hk : ∀ s, k.OneWay (core now) s) : OneWay (core now) (.write w k) s := by
  intro s' _
  by_cases hsame : core now s' = core now s
  · exact .inl ⟨hsame, hk s'⟩
  · exact .inr ⟨fun c => c = core now s', fun heq => hsame heq.symm, rfl, hkeeps _⟩

theorem me_oneWay (env : Env) (account : Account) : (me env account).OneWay (core now) s := by
  refine oneWay_accountView ?_
  intro token s
  split
  · exact trivial
  · exact oneWay_last (fun _ => trivial) fun _ => trivial

/-- An insertion changes the core, so only what follows matters, and that must not undo it. -/
theorem oneWay_insert {w : Db → Except Error Db} {k : Task} (count : Db → Nat)
    (hcount : ∀ s', w s = .ok s' → count (core now s) < count (core now s'))
    (hkeeps : k.Keeps fun t => count (core now s) < count (core now t)) :
    OneWay (core now) (.write w k) s := by
  refine oneWay_write (fun c => count (core now s) < count c) ?_ hcount hkeeps ?_
  · intro s' _ h
    exact absurd h (Nat.lt_irrefl _)
  · intro s' hw hsame
    have hlt := hcount s' hw
    rw [hsame] at hlt
    exact absurd hlt (Nat.lt_irrefl _)

theorem requestToken_oneWay (env : Env) (account : Account) (req : TokenRequest) :
    (requestToken env account req now).OneWay (core now) s := by
  refine oneWay_limited ?_
  intro s
  split
  · exact trivial
  · refine oneWay_accountView ?_
    intro token s
    split
    · exact trivial
    · rw [oneWay_read]
      split
      · exact trivial
      · split
        · exact trivial
        · refine oneWay_insert (fun c => c.applications.length) ?_ ?_
          · intro s' h
            cases h
            show s.applications.length < (s.applications ++ [_]).length
            rw [List.length_append, List.length_singleton]
            omega
          · refine keeps_write ?_ (keeps_write ?_ trivial)
            · intro t t' h hP
              cases h
              exact hP
            · intro t t' h hP
              cases h
              exact hP

theorem insertAgent_length {row : AgentRow} (h : s.insertAgent row = .ok s') :
    s.agents.length < s'.agents.length := by
  unfold Db.insertAgent at h
  split at h
  · cases h
  · cases h
    show s.agents.length < (s.agents ++ [row]).length
    rw [List.length_append, List.length_singleton]
    omega

theorem createAgent_oneWay (env : Env) (account : Account) (fresh : String) :
    (createAgent env account fresh now).OneWay (core now) s := by
  refine oneWay_limited ?_
  intro s
  split
  · exact trivial
  · rw [oneWay_read]
    split
    · exact trivial
    · have hlength : ∀ {row : AgentRow} (s' : Db), s.insertAgent row = .ok s' →
          (core now s).agents.length < (core now s').agents.length := by
        intro row s' h
        have hlt := insertAgent_length h
        exact hlt
      refine oneWay_insert (fun c => c.agents.length) hlength ?_
      refine keeps_write ?_ (keeps_write ?_ fun t => keeps_orElse fun _ => trivial)
      · intro t t' h hP
        cases h
        exact hP
      · intro t t' h hP
        cases h
        exact hP

/-! ## Endpoints -/

/-- The rows of an agent and a kind. -/
def kindRows (agentId : String) (kind : Trust.EndpointKind) (rows : List EndpointRow) :
    List EndpointRow :=
  rows.filter fun e => e.catalogAgentId = agentId && e.kind = kind

theorem kindRows_upsert_of_ne {row : EndpointRow} {agentId : String} {kind : Trust.EndpointKind}
    (hkind : row.kind ≠ kind) (rows : List EndpointRow) :
    kindRows agentId kind (upsertEndpoint row rows) = kindRows agentId kind rows := by
  induction rows with
  | nil =>
    show List.filter _ [row] = []
    rw [List.filter_cons_of_neg (by simp [hkind])]
    rfl
  | cons e rows ih =>
    unfold upsertEndpoint
    split
    · rename_i hsame
      have he : e.kind ≠ kind := hsame.2 ▸ hkind
      show List.filter _ (row :: rows) = List.filter _ (e :: rows)
      rw [List.filter_cons_of_neg (by simp [hkind]), List.filter_cons_of_neg (by simp [he])]
    · unfold kindRows at ih ⊢
      rw [List.filter_cons, List.filter_cons, ih]

theorem upsert_of_kindRows {row : EndpointRow} (rows : List EndpointRow)
    (h : kindRows row.catalogAgentId row.kind (upsertEndpoint row rows) =
      kindRows row.catalogAgentId row.kind rows) : upsertEndpoint row rows = rows := by
  induction rows with
  | nil =>
    have hrow : kindRows row.catalogAgentId row.kind [row] = [row] :=
      List.filter_cons_of_pos (by simp)
    change kindRows row.catalogAgentId row.kind [row] = [] at h
    rw [hrow] at h
    cases h
  | cons e rows ih =>
    unfold upsertEndpoint at h ⊢
    split at h
    · rename_i hsame
      rw [if_pos hsame]
      unfold kindRows at h
      rw [List.filter_cons_of_pos (by simp), List.filter_cons_of_pos (by simp [hsame])] at h
      rw [(List.cons.inj h).1]
    · rename_i hother
      rw [if_neg hother]
      unfold kindRows at h ih
      rw [List.filter_cons_of_neg (by simpa using hother),
        List.filter_cons_of_neg (by simpa using hother)] at h
      rw [ih h]

theorem kindRows_delete_of_ne {p : EndpointRow → Bool} {agentId : String}
    {kind : Trust.EndpointKind} (hp : ∀ e, p e = true → e.kind ≠ kind) (rows : List EndpointRow) :
    kindRows agentId kind (Table.deleteWhere p rows) = kindRows agentId kind rows := by
  unfold kindRows Table.deleteWhere
  rw [List.filter_filter]
  apply List.filter_congr
  intro e _
  cases hpe : p e with
  | false => simp
  | true => simp [hp e hpe]

theorem delete_of_kindRows {p : EndpointRow → Bool} {agentId : String} {kind : Trust.EndpointKind}
    (hp : ∀ e, p e = true → e.catalogAgentId = agentId ∧ e.kind = kind) (rows : List EndpointRow)
    (h : kindRows agentId kind (Table.deleteWhere p rows) = kindRows agentId kind rows) :
    Table.deleteWhere p rows = rows := by
  unfold Table.deleteWhere
  rw [List.filter_eq_self]
  intro e he
  cases hpe : p e with
  | false => rfl
  | true =>
    -- a deleted row would be missing among the rows of its kind
    have hrow : e ∈ kindRows agentId kind rows :=
      List.mem_filter.mpr ⟨he, by simp [hp e hpe]⟩
    rw [← h] at hrow
    have hdeleted := (Table.mem_deleteWhere.mp (List.mem_filter.mp hrow).1).2
    rw [hpe] at hdeleted
    cases hdeleted

theorem core_endpoints {rows : List EndpointRow} (h : rows = s.endpoints) :
    core now { s with endpoints := rows } = core now s := by
  rw [h]

/-- A work leaves the rows of an agent and a kind alone. -/
def KeepsKind (now : Nat) (agentId : String) (kind : Trust.EndpointKind) (k : Task) : Prop :=
  ∀ rows, k.Keeps fun t => kindRows agentId kind (core now t).endpoints = rows

theorem oneWay_upsertEndpoint {row : EndpointRow} {k : Task}
    (hkeeps : KeepsKind now row.catalogAgentId row.kind k) (hk : ∀ s, k.OneWay (core now) s) :
    OneWay (core now) (.write (Db.upsertEndpoint row) k) s := by
  refine oneWay_write (fun c => kindRows row.catalogAgentId row.kind c.endpoints =
    kindRows row.catalogAgentId row.kind (upsertEndpoint row s.endpoints)) ?_ ?_ (hkeeps _) ?_
  · intro s' h hrows
    cases h
    exact core_endpoints (upsert_of_kindRows s.endpoints hrows.symm)
  · intro s' h
    cases h
    rfl
  · exact fun s' _ _ => hk s'

theorem oneWay_deleteEndpoints {p : EndpointRow → Bool} {agentId : String}
    {kind : Trust.EndpointKind} {k : Task}
    (hp : ∀ e, p e = true → e.catalogAgentId = agentId ∧ e.kind = kind)
    (hkeeps : KeepsKind now agentId kind k) (hk : ∀ s, k.OneWay (core now) s) :
    OneWay (core now) (.write (Db.deleteEndpoints p) k) s := by
  refine oneWay_write (fun c => kindRows agentId kind c.endpoints =
    kindRows agentId kind (Table.deleteWhere p s.endpoints)) ?_ ?_ (hkeeps _) ?_
  · intro s' h hrows
    cases h
    exact core_endpoints (delete_of_kindRows hp s.endpoints hrows.symm)
  · intro s' h
    cases h
    rfl
  · exact fun s' _ _ => hk s'

/-- A work keeps what does not depend on the endpoints through the synchronisation. -/
theorem keeps_sync {env : Env} {agentId : String} {P : Db → Prop} {k : Task}
    (hP : ∀ t rows, P t → P { t with endpoints := rows }) (hk : k.Keeps P) :
    (syncCloudEndpoints env agentId now k).Keeps P := by
  have hcard : (syncCardRow env agentId now k).Keeps P := by
    intro t
    dsimp only
    split <;> exact keeps_write (fun t t' h hPt => by cases h; exact hP t _ hPt) hk
  intro t
  dsimp only
  split <;> exact keeps_write (fun t t' h hPt => by cases h; exact hP t _ hPt) hcard

theorem keepsKind_syncCardRow {env : Env} {agentId : String} {k : Task}
    (hk : KeepsKind now agentId .a2a k) :
    KeepsKind now agentId .a2a (syncCardRow env agentId now k) := by
  have hne : Trust.EndpointKind.agentCard ≠ .a2a := by decide
  intro rows t
  dsimp only
  split
  · refine keeps_write ?_ (hk rows)
    intro t t' h hrows
    cases h
    show kindRows agentId .a2a (upsertEndpoint _ t.endpoints) = rows
    rw [kindRows_upsert_of_ne hne]
    exact hrows
  · refine keeps_write ?_ (hk rows)
    intro t t' h hrows
    cases h
    show kindRows agentId .a2a (Table.deleteWhere _ t.endpoints) = rows
    rw [kindRows_delete_of_ne]
    · exact hrows
    · intro e he hkind
      simp [hkind] at he

theorem syncCloudEndpoints_oneWay {env : Env} {agentId : String} {k : Task}
    (ha2a : KeepsKind now agentId .a2a k) (hcard : KeepsKind now agentId .agentCard k)
    (hk : ∀ s, k.OneWay (core now) s) :
    (syncCloudEndpoints env agentId now k).OneWay (core now) s := by
  have hcardRow : ∀ s, (syncCardRow env agentId now k).OneWay (core now) s := by
    intro s
    unfold syncCardRow
    rw [oneWay_read]
    dsimp only
    split
    · exact oneWay_upsertEndpoint hcard hk
    · refine oneWay_deleteEndpoints ?_ hcard hk
      intro e he
      simp only [Bool.and_eq_true, decide_eq_true_eq] at he
      exact he.1
  unfold syncCloudEndpoints syncA2aRow
  rw [oneWay_read]
  dsimp only
  split
  · exact oneWay_upsertEndpoint (keepsKind_syncCardRow ha2a) hcardRow
  · refine oneWay_deleteEndpoints ?_ (keepsKind_syncCardRow ha2a) hcardRow
    intro e he
    simpa using he

/-! ## The card state -/

theorem keepsKind_write {agentId : String} {kind : Trust.EndpointKind} {w : Db → Except Error Db}
    {k : Task} (hw : ∀ t t', w t = .ok t' → t'.endpoints = t.endpoints)
    (hk : KeepsKind now agentId kind k) : KeepsKind now agentId kind (.write w k) := by
  intro rows
  refine keeps_write ?_ (hk rows)
  intro t t' h hrows
  show kindRows agentId kind t'.endpoints = rows
  rw [hw t t' h]
  exact hrows

theorem keepsKind_done (agentId : String) (kind : Trust.EndpointKind) (reply : Reply) :
    KeepsKind now agentId kind (.done reply) := fun _ => trivial

theorem endpoints_appendAudit {agentId actor event : String} (t t' : Db)
    (h : t.appendAudit agentId actor event = .ok t') : t'.endpoints = t.endpoints := by
  cases h
  rfl

theorem endpoints_cancelEnrollments {agentId : String} (t t' : Db)
    (h : t.cancelEnrollments agentId = .ok t') : t'.endpoints = t.endpoints := by
  cases h
  rfl

/-- Later statements leave the publications alone, so that the row stands. -/
theorem oneWay_writePublication {agentId : String} {row : Publication} {k : Task}
    (hkeeps : k.Keeps fun t => t.publications agentId = some row)
    (hk : ∀ s, k.OneWay (core now) s) :
    OneWay (core now) (.write (Db.writePublication agentId row) k) s := by
  refine oneWay_write (fun c => c.publications agentId = some row) ?_ ?_ hkeeps ?_
  · intro s' h hrow
    cases h
    have hsame : (fun id => if id = agentId then some row else s.publications id) =
        s.publications := by
      funext id
      split
      · rename_i hid
        rw [hid]
        exact hrow.symm
      · rfl
    show core now { s with
      publications := fun id => if id = agentId then some row else s.publications id } = core now s
    rw [hsame]
  · intro s' h
    cases h
    exact if_pos rfl
  · exact fun s' _ _ => hk s'

theorem oneWay_cancelEnrollments {agentId agentId' actor event : String} {reply : Reply} :
    OneWay (core now) (.write (Db.cancelEnrollments agentId)
      (.write (Db.appendAudit agentId' actor event) (.done reply))) s := by
  intro s' h
  by_cases hsame : core now s' = core now s
  · exact .inl ⟨hsame, oneWay_last (fun _ => trivial) fun _ => trivial⟩
  · -- only the enrollments can differ
    refine .inr ⟨fun c => c.enrollments = (core now s').enrollments, ?_, rfl, ?_⟩
    · intro heq
      apply hsame
      cases h
      unfold core at heq ⊢
      dsimp only at heq ⊢
      rw [heq]
    · refine keeps_write ?_ trivial
      intro t t' ht hP
      cases ht
      exact hP

theorem setMyCardState_oneWay (env : Env) (account : Account) (agentId : String)
    (action : CardAction) (expectedRevision : Option Int) :
    (setMyCardState env account agentId action expectedRevision now).OneWay (core now) s := by
  have haudit : ∀ {kind : Trust.EndpointKind} {actor event : String} {reply : Reply},
      KeepsKind now agentId kind (.write (Db.appendAudit agentId actor event) (.done reply)) :=
    fun {kind} => keepsKind_write endpoints_appendAudit (keepsKind_done agentId kind _)
  -- a pause and a withdrawal differ in the state and the text of the event only
  have hset : ∀ (state : RuntimeAccess.PublicationState) (revision : Int) (actor event : String) (reply : Reply)
      (s : Db), (setPublicationState env agentId state revision now <|
        .write (Db.cancelEnrollments agentId) <|
        .write (Db.appendAudit agentId actor event) <| .done reply).OneWay (core now) s := by
    intro state revision actor event reply s
    refine oneWay_orElse ?_
    intro current _
    split
    · exact trivial
    · refine oneWay_writePublication ?_ ?_
      · refine keeps_sync (fun t rows hP => hP) (keeps_write ?_ (keeps_write ?_ trivial))
        · intro t t' h hP
          cases h
          exact hP
        · intro t t' h hP
          cases h
          exact hP
      · intro s
        exact syncCloudEndpoints_oneWay (keepsKind_write endpoints_cancelEnrollments haudit)
          (keepsKind_write endpoints_cancelEnrollments haudit) fun s => oneWay_cancelEnrollments
  refine oneWay_limited ?_
  intro s
  refine oneWay_orElse ?_
  intro revision _
  refine oneWay_orElse ?_
  intro row _
  cases action with
  | resume =>
    refine oneWay_orElse ?_
    intro card _
    rw [oneWay_read]
    split
    · exact trivial
    · refine oneWay_orElse ?_
      intro etag _
      refine oneWay_writePublication ?_ ?_
      · refine keeps_sync (fun t rows hP => hP) (keeps_write ?_ trivial)
        intro t t' h hP
        cases h
        exact hP
      · intro s
        exact syncCloudEndpoints_oneWay haudit haudit fun s =>
          oneWay_last (fun _ => trivial) fun _ => trivial
  | pause => exact hset .paused revision _ _ _ s
  | withdraw => exact hset .withdrawn revision _ _ _ s

/-! ## The profile -/

/-- A statement on the account that writes `f` where it is not there, before work that keeps it. -/
theorem oneWay_updateAccount {accountId : Nat} {f : Account → Account} {k : Task}
    (P : Account → Prop) (hP : ∀ a, P (f a)) (hfix : ∀ a, P a → f a = a)
    (hkeeps : k.Keeps fun t => ∀ a, t.accounts accountId = some a → P a)
    (hk : ∀ s, k.OneWay (core now) s) :
    OneWay (core now) (.write (Db.updateAccount accountId f) k) s := by
  refine oneWay_write (fun c => ∀ a, c.accounts accountId = some a → P a) ?_ ?_ hkeeps ?_
  · intro s' h hall
    cases h
    have hsame : setRow accountId f s.accounts = s.accounts := by
      funext id
      unfold setRow
      split
      · rename_i hid
        subst hid
        cases hrow : s.accounts id with
        | none => rfl
        | some a => exact congrArg some (hfix a (hall a hrow))
      · rfl
    show core now { s with accounts := setRow accountId f s.accounts } = core now s
    rw [hsame]
  · intro s' h
    cases h
    intro a ha
    change setRow accountId f s.accounts accountId = some a at ha
    unfold setRow at ha
    rw [if_pos rfl] at ha
    obtain ⟨a₀, -, rfl⟩ := Option.map_eq_some_iff.mp ha
    exact hP a₀
  · exact fun s' _ _ => hk s'

theorem keeps_updateAccount {accountId : Nat} {f : Account → Account} {k : Task}
    {P : Account → Prop} (hf : ∀ a, P a → P (f a))
    (hk : k.Keeps fun t => ∀ a, t.accounts accountId = some a → P a) :
    Keeps (fun t => ∀ a, t.accounts accountId = some a → P a)
      (.write (Db.updateAccount accountId f) k) := by
  refine keeps_write ?_ hk
  intro t t' h hall a ha
  cases h
  change setRow accountId f t.accounts accountId = some a at ha
  unfold setRow at ha
  rw [if_pos rfl] at ha
  obtain ⟨a₀, ha₀, rfl⟩ := Option.map_eq_some_iff.mp ha
  exact hf a₀ (hall a₀ ha₀)

theorem oneWay_setField {value : String} {w : Db → Except Error Db} {k : Task}
    (hw : OneWay (core now) (.write w k) s) (hk : k.OneWay (core now) s) :
    (setField value w k).OneWay (core now) s := by
  unfold setField
  split
  · exact hk
  · exact hw

theorem keeps_setField {P : Db → Prop} {value : String} {w : Db → Except Error Db} {k : Task}
    (hw : Keeps P (.write w k)) (hk : k.Keeps P) : (setField value w k).Keeps P := by
  unfold setField
  split
  · exact hk
  · exact hw

theorem keeps_accountView {env : Env} {account : Account} {k : Option TokenInfo → Task}
    {P : Db → Prop} (hk : ∀ token, (k token).Keeps P) : (accountView env account k).Keeps P := by
  intro t
  dsimp only
  split
  · exact trivial
  · exact hk _

theorem keeps_profileView (env : Env) (account : Account) (P : Db → Prop) :
    (profileView env account).Keeps P :=
  fun _ => keeps_orElse fun _ => keeps_accountView fun _ => trivial

theorem profileView_oneWay (env : Env) (account : Account) :
    (profileView env account).OneWay (core now) s :=
  oneWay_orElse fun _ _ => oneWay_accountView fun _ _ => trivial

theorem accounts_setAgentId {accountId : Nat} {agentId : String} (t t' : Db)
    (h : t.setAgentId accountId agentId = .ok t') : t'.accounts = t.accounts := by
  unfold Db.setAgentId at h
  split at h
  · cases h
    rfl
  · cases h
    rfl

/-- A later statement of the update keeps what an earlier one wrote to the account. -/
abbrev KeepsAccount (accountId : Nat) (P : Account → Prop) (k : Task) : Prop :=
  k.Keeps fun t => ∀ a, t.accounts accountId = some a → P a

theorem keeps_updateAgentId {env : Env} {account : Account} {req : ProfileRequest}
    {P : Account → Prop} : KeepsAccount account.accountId P (updateAgentId env account req) := by
  refine keeps_setField (keeps_write ?_ (keeps_profileView env account _))
    (keeps_profileView env account _)
  intro t t' h hP
  rw [accounts_setAgentId t t' h]
  exact hP

theorem keeps_updateWechat {env : Env} {account : Account} {req : ProfileRequest}
    {P : Account → Prop} (hP : ∀ a, P a → P { a with wechat := req.wechat, updatedAt := now }) :
    KeepsAccount account.accountId P (updateWechat env account req now) :=
  keeps_setField (keeps_updateAccount hP keeps_updateAgentId) keeps_updateAgentId

theorem keeps_updatePhone {env : Env} {account : Account} {req : ProfileRequest}
    {P : Account → Prop} (hP : ∀ a, P a → P { a with phone := req.phone, updatedAt := now })
    (hP' : ∀ a, P a → P { a with wechat := req.wechat, updatedAt := now }) :
    KeepsAccount account.accountId P (updatePhone env account req now) :=
  keeps_setField (keeps_updateAccount hP (keeps_updateWechat hP')) (keeps_updateWechat hP')

theorem updateAgentId_oneWay (env : Env) (account : Account) (req : ProfileRequest) :
    (updateAgentId env account req).OneWay (core now) s :=
  oneWay_setField
    (oneWay_last (keeps_profileView env account) fun _ => profileView_oneWay env account)
    (profileView_oneWay env account)

theorem updateWechat_oneWay (env : Env) (account : Account) (req : ProfileRequest) :
    (updateWechat env account req now).OneWay (core now) s := by
  refine oneWay_setField ?_ (updateAgentId_oneWay env account req)
  refine oneWay_updateAccount (fun a => a.wechat = req.wechat ∧ a.updatedAt = now)
    (fun a => ⟨rfl, rfl⟩) ?_ keeps_updateAgentId fun s => updateAgentId_oneWay env account req
  intro a h
  rw [← h.1, ← h.2]

theorem updatePhone_oneWay (env : Env) (account : Account) (req : ProfileRequest) :
    (updatePhone env account req now).OneWay (core now) s := by
  refine oneWay_setField ?_ (updateWechat_oneWay env account req)
  refine oneWay_updateAccount (fun a => a.phone = req.phone ∧ a.updatedAt = now)
    (fun a => ⟨rfl, rfl⟩) ?_ (keeps_updateWechat fun a h => ⟨h.1, rfl⟩)
    fun s => updateWechat_oneWay env account req
  intro a h
  rw [← h.1, ← h.2]

theorem updateProfile_oneWay (env : Env) (account : Account) (req : ProfileRequest) :
    (updateProfile env account req now).OneWay (core now) s := by
  unfold updateProfile
  split
  · exact trivial
  · refine oneWay_setField ?_ (updatePhone_oneWay env account req)
    refine oneWay_updateAccount (fun a => a.merchantName = req.merchantName ∧ a.updatedAt = now)
      (fun a => ⟨rfl, rfl⟩) ?_
      (keeps_updatePhone (fun a h => ⟨h.1, rfl⟩) fun a h => ⟨h.1, rfl⟩)
      fun s => updatePhone_oneWay env account req
    intro a h
    rw [← h.1, ← h.2]

/-! ## The decision on a binding request -/

theorem loadPendingRequest_oneWay {agentId requestId : String} {k : BindingRequest → Task}
    (hk : ∀ req s, (s.requests requestId = some req ∧ req.status = .pending) →
      (k req).OneWay (core now) s) :
    (loadPendingRequest agentId requestId now k).OneWay (core now) s := by
  refine oneWay_exempt (fun s' h => core_expireStale h) ?_
  intro s
  refine oneWay_orElse ?_
  intro req hreq
  have hrow : s.requests requestId = some req := (Option.filter_eq_some_iff.mp hreq).1
  split
  · exact trivial
  · exact trivial
  · exact trivial
  · rename_i hstatus
    exact hk req s ⟨hrow, hstatus⟩

/-- What the statements after the insertion keep: the number of bindings has grown. -/
abbrev Grown (n : Nat) (t : Db) : Prop := n < t.bindings.length

theorem insertBinding_length {row : Binding.RuntimeBinding} (h : s.insertBinding row = .ok s') :
    s.bindings.length < s'.bindings.length := by
  unfold Db.insertBinding Binding.insertRow? at h
  split at h
  · cases h
  · rename_i rows hrows
    cases h
    split at hrows
    · cases hrows
    · cases hrows
      show s.bindings.length < (s.bindings ++ [row]).length
      rw [List.length_append, List.length_singleton]
      omega

theorem keeps_activateLinked {env : Env} {agentId : String} {version n : Nat} {k : Task}
    (hk : k.Keeps (Grown n)) : (activateLinked env agentId version now k).Keeps (Grown n) := by
  have haccess : ∀ {f : RuntimeAccess.AccessTables → RuntimeAccess.AccessTables} (t t' : Db), t.setAccess f = .ok t' →
      Grown n t → Grown n t' := by
    intro f t t' h hP
    cases h
    exact hP
  unfold activateLinked
  split
  · exact hk
  · intro t
    dsimp only
    split
    · exact trivial
    · exact hk
    · exact keeps_write haccess (keeps_write haccess (keeps_write haccess hk))

theorem keeps_recordEvidence {agentId bindingId : String} {n : Nat} {k : Task}
    (hk : k.Keeps (Grown n)) : (recordEvidence agentId bindingId now k).Keeps (Grown n) := by
  intro t
  dsimp only
  split
  · exact trivial
  · refine keeps_write ?_ (keeps_write ?_ fun t => keeps_write ?_ hk)
    · intro t t' h hP
      cases h
      exact hP
    · intro t t' h hP
      cases h
      exact hP
    · intro t t' h hP
      cases h
      exact hP

theorem keeps_revokeSuperseded {active : Option Binding.RuntimeBinding} {n : Nat} {k : Task}
    (hk : k.Keeps (Grown n)) : (revokeSuperseded active k).Keeps (Grown n) := by
  cases active with
  | none => exact hk
  | some active =>
    refine keeps_write ?_ hk
    intro t t' h hP
    cases h
    show n < (Binding.revokeRow t.bindings active.bindingId).length
    unfold Binding.revokeRow Table.updateWhere
    rw [List.length_map]
    exact hP

theorem keeps_fillDomain {env : Env} {row : AgentRow} {origin : String} {n : Nat}
    {k : String → Task} (hk : ∀ canonical, (k canonical).Keeps (Grown n)) :
    (fillDomain env row origin now k).Keeps (Grown n) := by
  unfold fillDomain
  split
  · exact hk _
  · refine keeps_orElse ?_
    intro canonical
    refine keeps_write ?_ (hk canonical)
    intro t t' h hP
    cases h
    exact hP

theorem keeps_confirmEffects {env : Env} {row : AgentRow} {requestId bindingId : String}
    {req : BindingRequest} {version n : Nat} {active : Option Binding.RuntimeBinding} :
    (confirmEffects env row requestId req bindingId version active now).Keeps (Grown n) := by
  have haudit : ∀ {actor event : String} {reply : Reply},
      Keeps (Grown n) (.write (Db.appendAudit row.catalogAgentId actor event) (.done reply)) := by
    intro actor event reply
    refine keeps_write ?_ trivial
    intro t t' h hP
    cases h
    exact hP
  refine keeps_revokeSuperseded (keeps_write ?_ (keeps_write ?_ (keeps_fillDomain ?_)))
  · intro t t' h hP
    cases h
    exact hP
  · intro t t' h hP
    cases h
    exact hP
  · intro canonical
    exact keeps_sync (fun t rows hP => hP) (keeps_recordEvidence (keeps_activateLinked haudit))

theorem confirmRequest_oneWay (env : Env) (account : Account) (agentId requestId : String) :
    (confirmRequest env account agentId requestId now).OneWay (core now) s := by
  refine oneWay_limited ?_
  intro s
  refine oneWay_orElse ?_
  intro row _
  refine loadPendingRequest_oneWay ?_
  intro req s _
  rw [oneWay_read]
  split
  · exact trivial
  · rw [oneWay_read]
    refine oneWay_insert (fun c => c.bindings.length) ?_ keeps_confirmEffects
    intro s' h
    have hlt := insertBinding_length h
    exact hlt

/-- The decided request stays rejected. -/
abbrev Rejected (requestId : String) (t : Db) : Prop :=
  ∃ r, t.requests requestId = some r ∧ r.status = .rejected

theorem lapse_rejected {r : BindingRequest} : (r.lapse now).status = .rejected ↔
    r.status = .rejected := by
  unfold BindingRequest.lapse
  split
  · rename_i h
    simp [h.1]
  · exact Iff.rfl

theorem rejected_core {requestId : String} {t : Db} :
    Rejected requestId (core now t) ↔ Rejected requestId t := by
  constructor
  · rintro ⟨r, hr, hstatus⟩
    obtain ⟨r₀, hr₀, rfl⟩ := Option.map_eq_some_iff.mp hr
    exact ⟨r₀, hr₀, lapse_rejected.mp hstatus⟩
  · rintro ⟨r, hr, hstatus⟩
    exact ⟨r.lapse now, Option.map_eq_some_iff.mpr ⟨r, hr, rfl⟩, lapse_rejected.mpr hstatus⟩

theorem keeps_invalidateLinked {agentId requestId : String} {version : Nat} {k : Task}
    (hk : k.Keeps fun t => Rejected requestId (core now t)) :
    (invalidateLinked agentId version k).Keeps fun t => Rejected requestId (core now t) := by
  unfold invalidateLinked
  split
  · exact hk
  · intro t
    dsimp only
    split
    · exact hk
    · split
      · exact hk
      · refine keeps_write ?_ hk
        intro t t' h hP
        cases h
        exact hP

theorem rejectRequest_oneWay (env : Env) (account : Account) (agentId requestId note : String) :
    (rejectRequest env account agentId requestId note now).OneWay (core now) s := by
  refine oneWay_limited ?_
  intro s
  refine oneWay_orElse ?_
  intro row _
  split
  · exact trivial
  · refine loadPendingRequest_oneWay ?_
    rintro req s ⟨hreq, hpending⟩
    have hbefore : ¬ Rejected requestId (core now s) := by
      rw [rejected_core]
      rintro ⟨r, hr, hstatus⟩
      rw [hreq] at hr
      cases hr
      rw [hpending] at hstatus
      cases hstatus
    intro s' h
    refine .inr ⟨Rejected requestId, hbefore, ?_, ?_⟩
    · cases h
      rw [rejected_core]
      refine ⟨req.decide .rejected now note, ?_, rfl⟩
      show setRow requestId _ s.requests requestId = _
      unfold setRow
      rw [if_pos rfl, hreq]
      rfl
    · intro t
      refine keeps_invalidateLinked (keeps_write ?_ trivial)
      intro t t' h hP
      cases h
      exact hP

/-! ## The read handlers -/

theorem getAgentCard_oneWay (account : Account) (agentId : String) :
    (getAgentCard account agentId now).OneWay (core now) s :=
  oneWay_orElse fun _ _ => oneWay_exempt (fun _ h => core_expireStale h) fun _ => trivial

theorem listPending_oneWay (account : Account) (agentId : String) :
    (listPending account agentId now).OneWay (core now) s :=
  oneWay_orElse fun _ _ => oneWay_exempt (fun _ h => core_expireStale h) fun _ => trivial

theorem listAgents_oneWay (account : Account) : (listAgents account).OneWay (core now) s := by
  unfold listAgents
  split
  · exact trivial
  · exact trivial

theorem enrollmentPreview_oneWay (account : Account) (row : EnrollmentRow) :
    (enrollmentPreview account row now).OneWay (core now) s := by
  unfold enrollmentPreview
  rw [oneWay_read]
  split
  · exact trivial
  · exact trivial

theorem enrollmentDetail_oneWay (account : Account) (enrollmentId : String) :
    (enrollmentDetail account enrollmentId now).OneWay (core now) s := by
  refine oneWay_exempt (fun s' h => core_countRequest h) ?_
  intro s
  refine oneWay_orElse ?_
  intro row hrow
  unfold expireOverdue
  split
  · rename_i hdue
    intro s' h
    exact .inl ⟨core_expireEnrollment hrow hdue h, enrollmentPreview_oneWay account row⟩
  · exact enrollmentPreview_oneWay account row

/-! ## The handlers -/

theorem task_oneWay (env : Env) (account : Account) (now : Nat) (h : Handler) (s : Db) :
    (h.task env account now).OneWay (core now) s := by
  cases h with
  | me => exact me_oneWay env account
  | tokenRequest req => exact requestToken_oneWay env account req
  | profile req => exact updateProfile_oneWay env account req
  | createAgent fresh => exact createAgent_oneWay env account fresh
  | listAgents => exact listAgents_oneWay account
  | getAgentCard agentId => exact getAgentCard_oneWay account agentId
  | setAgentCardState agentId action revision =>
    exact setMyCardState_oneWay env account agentId action revision
  | listPendingBindings agentId => exact listPending_oneWay account agentId
  | confirmBinding agentId requestId => exact confirmRequest_oneWay env account agentId requestId
  | rejectBinding agentId requestId note =>
    exact rejectRequest_oneWay env account agentId requestId note
  | enrollmentDetail enrollmentId => exact enrollmentDetail_oneWay account enrollmentId

/-- A handler that raises after the session is resolved commits the database as it was, exempt
writes apart, exactly when it raises before the first statement that would change it: a statement
fails no later than that one, or the work itself makes no change. -/
theorem handler_atomic_iff {env : Env} {token fresh : String} {now : Nat} {h : Handler}
    {fault : Option Nat} {db resolved committed : Db} {account : Account} {e : Error}
    (hsession : resolveSession token fresh now db = (resolved, some account))
    (hraise : handle env token fresh now h fault db = (committed, .error e)) :
    core now committed = core now resolved ↔
      ∀ n, (h.task env account now).ChangesAt (core now) resolved n → StrikesBy fault n := by
  have hexec : exec .interrupted (h.task env account now) fault resolved =
      (committed, .error e) := by
    unfold handle at hraise
    rw [hsession] at hraise
    exact hraise
  have hiff : core now (exec Error.interrupted (h.task env account now) fault resolved).1 =
      core now resolved ↔ (h.task env account now).Quiet (core now) fault resolved :=
    exec_core_iff fault resolved (task_oneWay env account now h resolved)
  rw [hexec, quiet_iff] at hiff
  exact hiff

/-! ## One account that confirms a binding request -/

def exampleEnv : Env where
  loginRateLimit := 0
  access := RuntimeAccess.Env.mk true (fun secret => (secret, "k_1")) (fun text _ => some text)
    fun _ => true
  decryptToken := some
  normalizeDomain := some
  web := ⟨fun _ => some ⟨"https", some "shop.example"⟩, ""⟩
  cardUrl := fun agentId => agentId

def exampleAccount : Account := ⟨1, "a", "m_1", "Shop", "", "", 0, 0⟩

def exampleRequest : BindingRequest :=
  ⟨"cagt_1", ⟨"", "https://shop.example", "https://shop.example/a2a", "key_1", "thumb_1", 1⟩,
    .pending, 900, 0, "", 0⟩

/-- The merchant's agent has one pending request and no binding. -/
def requestedDb : Db where
  limits := fun _ _ => 0
  sessions := fun _ => some ⟨1, 900⟩
  accounts := fun _ => some exampleAccount
  merchants := fun _ => some "Shop"
  applications := []
  tokens := fun _ => none
  agents := [⟨"cagt_1", "m_1", "Shop", "shop.example", ⟨.discovered, .fresh, .active⟩, 0, 0⟩]
  endpoints := []
  publications := fun _ => none
  cards := fun _ _ => none
  enrollments := fun _ => none
  requests := fun id => if id = "req_1" then some exampleRequest else none
  bindings := []
  verifications := []
  access := ⟨[], fun _ => none⟩
  audit := []

def resolvedDb : Db := (resolveSession "session_1" "m_2" 0 requestedDb).1

/-- The confirmation, cut off at the statement after the insertion of the binding. -/
def cutConfirmation : Db × Except Error Reply :=
  handle exampleEnv "session_1" "m_2" 0 (.confirmBinding "cagt_1" "req_1") (some 6) requestedDb

theorem cutConfirmation_raises :
    handle exampleEnv "session_1" "m_2" 0 (.confirmBinding "cagt_1" "req_1") (some 6) requestedDb =
      (cutConfirmation.1, .error .interrupted) := Prod.ext rfl rfl

theorem cutConfirmation_differs : core 0 cutConfirmation.1 ≠ core 0 resolvedDb := by
  intro heq
  have hlength : cutConfirmation.1.bindings.length = resolvedDb.bindings.length :=
    congrArg (fun c => c.bindings.length) heq
  exact absurd hlength (by decide)

theorem handler_atomic_iff_cut :
    ¬ ∀ n, (Handler.task exampleEnv exampleAccount 0 (.confirmBinding "cagt_1" "req_1")).ChangesAt
      (core 0) resolvedDb n → StrikesBy (some 6) n := by
  intro hquiet
  have hsession : resolveSession "session_1" "m_2" 0 requestedDb =
      (resolvedDb, some exampleAccount) := rfl
  exact cutConfirmation_differs
    ((handler_atomic_iff hsession cutConfirmation_raises).mpr hquiet)

/-- The confirmation that is cut off leaves an active binding behind. -/
theorem halfway_confirmation_committed :
    ¬ ∀ (env : Env) (token fresh : String) (now : Nat) (h : Handler) (fault : Option Nat)
      (db resolved committed : Db) (account : Account) (e : Error),
      resolveSession token fresh now db = (resolved, some account) →
        handle env token fresh now h fault db = (committed, .error e) →
          core now committed = core now resolved := by
  intro hall
  exact cutConfirmation_differs (hall exampleEnv "session_1" "m_2" 0 (.confirmBinding "cagt_1" "req_1")
    (some 6) requestedDb resolvedDb cutConfirmation.1 exampleAccount .interrupted rfl
    cutConfirmation_raises)

end KiwiCatalog.Accounts
