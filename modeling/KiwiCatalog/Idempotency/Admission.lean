import KiwiCatalog.Idempotency.Ledger
import KiwiCatalog.Lib.Transition
import KiwiCatalog.Queue.Scheduler

/-!
# Admission — the verification queue after a catalog write, and what a replay says of it

Registration, refresh and reinstatement complete their row in their transaction and enqueue a
verification after it has committed.  Only a refresh whose earlier verification is of unknown
outcome goes back to the ledger.
-/

set_option autoImplicit false

namespace KiwiCatalog.Idempotency

open IsoText Transition Queue

/-! ## The handlers after their work -/

/-- A write that enqueues, with what its response quotes of the work. -/
inductive Write
  | register (catalogAgent : Value)
  | refresh (catalogAgentId verificationStatus : String)
  | reinstate (catalogAgentId previousStatus verificationStatus : String) (stages : Value)
  deriving DecidableEq, Repr

def Write.endpoint : Write → Endpoint
  | .register _ => .register
  | .refresh _ _ => .refresh
  | .reinstate _ _ _ _ => .reinstate

/-- The response that the transaction stores. -/
def Write.response : Write → Dict
  | .register catalogAgent =>
    [("ok", .bool true), ("catalog_agent", catalogAgent), ("verification_enqueued", .bool true),
      ("task_id", .text ""), ("idempotent", .bool false)]
  | .refresh catalogAgentId verificationStatus =>
    [("ok", .bool true), ("catalog_agent_id", .text catalogAgentId),
      ("verification_status", .text verificationStatus), ("refresh_enqueued", .bool true),
      ("task_id", .text ""), ("idempotent", .bool false)]
  | .reinstate catalogAgentId previousStatus verificationStatus stages =>
    [("ok", .bool true), ("catalog_agent_id", .text catalogAgentId),
      ("previous_status", .text previousStatus), ("verification_status", .text verificationStatus),
      ("stages", stages), ("idempotent", .bool false)]

/-- Where the handler is after its transaction. -/
inductive Tail
  | enqueuing
  -- the response is to be stored again
  | correcting (response : Dict)
  | ended (result : Except Failure Dict)

def outcomeUnknownReason : String :=
  "prior verification outcome unknown; reconciliation required"

def notEnqueued (flag reason : String) (response : Dict) : Dict :=
  Dict.set "queue_reason" (.text reason) (Dict.set flag (.bool false) response)

/-- The exception of `enqueue`, where the handler lets it through. -/
def queueFailure : EnqueueOutcome → Failure
  | .returned _ => .raised ""
  | .shutdownError => .raised "VerificationQueueShutdownError"
  | .valueError => .raised "ValueError"
  | .outcomeUnknownError => .raised "VerificationQueueOutcomeUnknownError"
  | .ledgerError => .raised "VerificationQueueLedgerError"
  | .fullError => .raised "VerificationQueueFullError"
  | .keyError => .raised "KeyError"
  | .sqliteError => .raised "sqlite3.Error"

/-- `register_catalog_agent` after its transaction. -/
def registerTail (response : Dict) : EnqueueOutcome → Tail
  | .returned taskId => .ended (.ok (Dict.set "task_id" (.text taskId) response))
  | .outcomeUnknownError =>
    .ended (.ok (notEnqueued "verification_enqueued" outcomeUnknownReason response))
  | .fullError =>
    .ended (.ok (notEnqueued "verification_enqueued"
      "verification queue full; verify later via the verify endpoint" response))
  | outcome => .ended (.error (queueFailure outcome))

/-- `refresh_catalog_agent` after its transaction. -/
def refreshTail (response : Dict) : EnqueueOutcome → Tail
  | .returned taskId => .ended (.ok (Dict.set "task_id" (.text taskId) response))
  | .outcomeUnknownError =>
    .correcting (notEnqueued "refresh_enqueued" outcomeUnknownReason response)
  | outcome => .ended (.error (queueFailure outcome))

/-- `reinstate_catalog_agent` after its transaction. -/
def reinstateTail (response : Dict) : EnqueueOutcome → Tail
  | .returned taskId =>
    .ended (.ok (Dict.set "verify_task_id" (.text taskId)
      (Dict.set "verify_enqueued" (.bool true) response)))
  | .outcomeUnknownError =>
    .ended (.ok (notEnqueued "verify_enqueued" outcomeUnknownReason response))
  | .fullError | .ledgerError | .shutdownError =>
    .ended (.ok (notEnqueued "verify_enqueued"
      "verification queue unavailable; verify later via the verify endpoint" response))
  | outcome => .ended (.error (queueFailure outcome))

def Write.tail : Write → EnqueueOutcome → Tail
  | .register catalogAgent => registerTail (Write.register catalogAgent).response
  | .refresh catalogAgentId verificationStatus =>
    refreshTail (Write.refresh catalogAgentId verificationStatus).response
  | .reinstate catalogAgentId previousStatus verificationStatus stages =>
    reinstateTail (Write.reinstate catalogAgentId previousStatus verificationStatus stages).response

/-- A reinstated agent is verified again only where it is back at `discovered`. -/
def Write.enqueues : Write → Bool
  | .reinstate _ _ verificationStatus _ => verificationStatus = "discovered"
  | _ => true

/-! ## The ledger from the transaction on -/

structure Admission (ρ : Type) where
  ledger : List (LedgerRow ρ)
  tail : Tail
  -- how the call of `enqueue` has ended
  outcome : Option EnqueueOutcome

variable {ρ : Type}

/-- The rows that a request of session `q` completes or clears are its own. -/
def OwnRows (ledger : List (LedgerRow ρ)) (r : Request) (q : ρ) : Prop :=
  ∀ row ∈ ledger, ofRequest r row = true → row.owner = q

/-- The handler of session `p` goes on, or another session commits a statement on the ledger. -/
inductive AdmissionStep (w : Write) (r : Request) (p : ρ) : Admission ρ → Admission ρ → Prop
  | enqueues {s : Admission ρ} (outcome : EnqueueOutcome) (htail : s.tail = .enqueuing)
      (hwrite : w.enqueues = true) :
      AdmissionStep w r p s { s with tail := w.tail outcome, outcome := some outcome }
  | skipsQueue {s : Admission ρ} (htail : s.tail = .enqueuing) (hwrite : w.enqueues = false) :
      AdmissionStep w r p s { s with tail := .ended (.ok w.response) }
  | corrects {s : Admission ρ} {response : Dict} (count : Nat) (now : UtcClock)
      (htail : s.tail = .correcting response) :
      AdmissionStep w r p s
        { s with
          ledger := complete s.ledger r response count now
          tail := .ended (.ok response) }
  | dies {s : Admission ρ} (what : String) (hlive : ∀ result, s.tail ≠ .ended result) :
      AdmissionStep w r p s { s with tail := .ended (.error (.raised what)) }
  | claims {s : Admission ρ} {ledger : List (LedgerRow ρ)} {response : Option Dict} (q : ρ)
      (r' : Request) (now : UtcClock) (hother : q ≠ p)
      (h : claim s.ledger r' q now = .ok (response, ledger)) :
      AdmissionStep w r p s { s with ledger := ledger }
  | completes {s : Admission ρ} (q : ρ) (r' : Request) (response : Dict) (count : Nat)
      (now : UtcClock) (hother : q ≠ p) (hown : OwnRows s.ledger r' q) :
      AdmissionStep w r p s { s with ledger := complete s.ledger r' response count now }
  | clears {s : Admission ρ} (q : ρ) (r' : Request) (hother : q ≠ p)
      (hown : OwnRows s.ledger r' q) :
      AdmissionStep w r p s { s with ledger := clear s.ledger r' }

/-- The transaction of session `p` has completed its claim and committed. -/
def Committed (w : Write) (r : Request) (p : ρ) (s : Admission ρ) : Prop :=
  ∃ ledger count now, r.keyed = true ∧ r.triple.endpoint = w.endpoint ∧
    (∃ row ∈ ledger, row.owner = p ∧ row.status = .processing) ∧
    (∀ row ∈ ledger, row.owner = p → ofRequest r row = true) ∧
    s = ⟨complete ledger r w.response count now, .enqueuing, none⟩

/-! ## What the row of the request holds -/

/-- The response of a refresh that was not enqueued. -/
def Write.corrected (w : Write) : Dict :=
  notEnqueued "refresh_enqueued" outcomeUnknownReason w.response

/-- The refresh has stored its response again. -/
def Corrected (w : Write) (s : Admission ρ) : Prop :=
  w.endpoint = .refresh ∧ s.outcome = some .outcomeUnknownError ∧
    ∃ response, s.tail = .ended (.ok response)

structure AdmissionInv (w : Write) (r : Request) (p : ρ) (s : Admission ρ) : Prop where
  keyed : r.keyed = true
  before : s.tail = .enqueuing → s.outcome = none
  correcting : ∀ response, s.tail = .correcting response →
    w.endpoint = .refresh ∧ s.outcome = some .outcomeUnknownError ∧ response = w.corrected
  own : ∀ row ∈ s.ledger, row.owner = p → ofRequest r row = true ∧
    (¬ Corrected w s → row.response = w.response) ∧ (Corrected w s → row.response = w.corrected)

section Invariant

variable {w : Write} {r : Request} {p : ρ} {s t : Admission ρ}

theorem claim_rows {ledger ledger' : List (LedgerRow ρ)} {r : Request} {q : ρ} {now : UtcClock}
    {response : Option Dict} (h : claim ledger r q now = .ok (response, ledger')) :
    ∀ row ∈ ledger', row ∈ ledger ∨ row.owner = q := by
  intro row hrow
  by_cases hkeyed : r.keyed = true
  · cases response with
    | none =>
      rw [(claim_inserted hkeyed h).2] at hrow
      rcases List.mem_append.mp hrow with hold | hnew
      · exact .inl hold
      · rw [List.mem_singleton.mp hnew]
        exact .inr rfl
    | some response =>
      unfold claim at h
      rw [if_neg (by simp [hkeyed])] at h
      split at h
      · cases h
      · split at h
        · cases h
        · have hsame : ledger = ledger' := congrArg Prod.snd (Except.ok.inj h)
          rw [hsame]
          exact .inl hrow
  · unfold claim at h
    rw [if_pos (by simpa using hkeyed)] at h
    have hsame : ledger = ledger' := congrArg Prod.snd (Except.ok.inj h)
    rw [hsame]
    exact .inl hrow

theorem complete_own {ledger : List (LedgerRow ρ)} {response : Dict} {count : Nat} {now : UtcClock}
    {row : LedgerRow ρ} (hkeyed : r.keyed = true) (hrow : row ∈ complete ledger r response count now)
    (hof : ofRequest r row = true) : row.response = response := by
  unfold complete at hrow
  rw [if_neg (by simp [hkeyed])] at hrow
  obtain ⟨row₀, -, heq⟩ := Table.mem_updateWhere.mp hrow
  split at heq
  · rw [← heq]
    rfl
  · rename_i hnot
    rw [heq] at hnot
    exact absurd hof hnot

/-- Rows that other sessions add or complete are none of the request. -/
theorem admissionInv_ledger {ledger : List (LedgerRow ρ)} (hinv : AdmissionInv w r p s)
    (hrows : ∀ row ∈ ledger, row ∈ s.ledger ∨ row.owner ≠ p) :
    AdmissionInv w r p { s with ledger := ledger } where
  keyed := hinv.keyed
  before := hinv.before
  correcting := hinv.correcting
  own := by
    intro row hrow howner
    rcases hrows row hrow with hold | hother
    · exact hinv.own row hold howner
    · exact absurd howner hother

theorem admissionInv_committed (h : Committed w r p s) : AdmissionInv w r p s := by
  obtain ⟨ledger, count, now, hkeyed, -, -, hown, rfl⟩ := h
  have hnot : ¬ Corrected w ⟨complete ledger r w.response count now, .enqueuing, none⟩ := by
    intro hcorrected
    cases hcorrected.2.1
  refine ⟨hkeyed, fun _ => rfl, fun response htail => Tail.noConfusion htail, ?_⟩
  intro row hrow howner
  have hof : ofRequest r row = true := by
    rcases mem_complete hrow with hold | ⟨row₀, hrow₀, hof, heq⟩
    · exact hown row hold howner
    · rw [heq]
      exact hof
  exact ⟨hof, fun _ => complete_own hkeyed hrow hof, fun hcorrected => absurd hcorrected hnot⟩

/-- The handler goes on without a statement on the ledger. -/
theorem admissionInv_tail {tail : Tail} {outcome : Option EnqueueOutcome}
    (hinv : AdmissionInv w r p s) (hcorrected : ¬ Corrected w s)
    (hcorrected' : ¬ Corrected w { s with tail := tail, outcome := outcome })
    (hbefore : tail ≠ .enqueuing)
    (hcorrecting : ∀ response, tail = .correcting response →
      w.endpoint = .refresh ∧ outcome = some .outcomeUnknownError ∧ response = w.corrected) :
    AdmissionInv w r p { s with tail := tail, outcome := outcome } where
  keyed := hinv.keyed
  before h := absurd h hbefore
  correcting := hcorrecting
  own := by
    intro row hrow howner
    have hrow' := hinv.own row hrow howner
    exact ⟨hrow'.1, fun _ => hrow'.2.1 hcorrected, fun h => absurd h hcorrected'⟩

theorem tail_ne_enqueuing (w : Write) (outcome : EnqueueOutcome) : w.tail outcome ≠ .enqueuing := by
  cases w <;> cases outcome <;> exact fun h => Tail.noConfusion h

theorem tail_correcting {outcome : EnqueueOutcome} {response : Dict}
    (h : w.tail outcome = .correcting response) :
    w.endpoint = .refresh ∧ outcome = .outcomeUnknownError ∧ response = w.corrected := by
  cases w <;> cases outcome <;> cases h
  exact ⟨rfl, rfl, rfl⟩

/-- A refresh of unknown outcome does not end without its correction. -/
theorem not_corrected_tail {outcome : EnqueueOutcome} (s : Admission ρ) :
    ¬ Corrected w { s with tail := w.tail outcome, outcome := some outcome } := by
  intro hcorrected
  obtain ⟨hendpoint, houtcome, response, htail⟩ := hcorrected
  cases Option.some.inj houtcome
  cases w <;> cases hendpoint
  cases htail

theorem admissionInv_step (hstep : AdmissionStep w r p s t) (hinv : AdmissionInv w r p s) :
    AdmissionInv w r p t := by
  have hlive : (∀ result, s.tail ≠ .ended result) → ¬ Corrected w s := by
    intro hlive hcorrected
    obtain ⟨-, -, response, htail⟩ := hcorrected
    exact hlive _ htail
  have hwaiting : s.tail = .enqueuing → ¬ Corrected w s := by
    intro htail
    apply hlive
    intro result hended
    rw [htail] at hended
    cases hended
  cases hstep with
  | enqueues outcome htail hwrite =>
    apply admissionInv_tail hinv (hwaiting htail) (not_corrected_tail s) (tail_ne_enqueuing w outcome)
    intro response hcorrecting
    have hfacts := tail_correcting hcorrecting
    exact ⟨hfacts.1, congrArg some hfacts.2.1, hfacts.2.2⟩
  | skipsQueue htail hwrite =>
    apply admissionInv_tail hinv (hwaiting htail) _ (fun h => Tail.noConfusion h)
      (fun _ h => Tail.noConfusion h)
    intro hcorrected
    have hnone := hinv.before htail
    have hsome : s.outcome = some .outcomeUnknownError := hcorrected.2.1
    rw [hnone] at hsome
    cases hsome
  | @corrects response count now htail =>
    have hfacts := hinv.correcting response htail
    have hcorrected : Corrected w { s with
        ledger := complete s.ledger r response count now, tail := .ended (.ok response) } :=
      ⟨hfacts.1, hfacts.2.1, response, rfl⟩
    refine ⟨hinv.keyed, fun h => Tail.noConfusion h, fun _ h => Tail.noConfusion h, ?_⟩
    intro row hrow howner
    have hof : ofRequest r row = true := by
      rcases mem_complete hrow with hold | ⟨row₀, hrow₀, hof, heq⟩
      · exact (hinv.own row hold howner).1
      · rw [heq]
        exact hof
    refine ⟨hof, fun h => absurd hcorrected h, fun _ => ?_⟩
    rw [complete_own hinv.keyed hrow hof, hfacts.2.2]
  | dies what hended =>
    apply admissionInv_tail hinv (hlive hended) _ (fun h => Tail.noConfusion h)
      (fun _ h => Tail.noConfusion h)
    intro hcorrected
    obtain ⟨-, -, response, htail⟩ := hcorrected
    cases htail
  | claims q r' now hother hclaim =>
    apply admissionInv_ledger hinv
    intro row hrow
    rcases claim_rows hclaim row hrow with hold | hnew
    · exact .inl hold
    · rw [hnew]
      exact .inr hother
  | completes q r' response count now hother hown =>
    apply admissionInv_ledger hinv
    intro row hrow
    rcases mem_complete hrow with hold | ⟨row₀, hrow₀, hof, heq⟩
    · exact .inl hold
    · right
      have howner : row.owner = q := by
        rw [heq]
        exact hown row₀ hrow₀ hof
      rw [howner]
      exact hother
  | clears q r' hother hown =>
    apply admissionInv_ledger hinv
    intro row hrow
    left
    unfold clear at hrow
    split at hrow
    · exact hrow
    · exact (Table.mem_deleteWhere.mp hrow).1

end Invariant

/-! ## Honest replays -/

/-- The call returned the id of a task, a new one or that of the task that is there already. -/
def admits : EnqueueOutcome → Bool
  | .returned _ => true
  | _ => false

/-- The flag that the stored response carries; a reinstatement adds its own only to what it
returns. -/
def Write.flag? : Write → Option String
  | .register _ => some "verification_enqueued"
  | .refresh _ _ => some "refresh_enqueued"
  | .reinstate _ _ _ _ => none

def admissionFlags : List String :=
  ["verification_enqueued", "refresh_enqueued", "verify_enqueued"]

/-- What a replay may say of the enqueue of its request. -/
structure Honest (w : Write) (outcome : EnqueueOutcome) (envelope : Dict) : Prop where
  claimed : ∀ flag ∈ admissionFlags, envelope.get? flag = some (.bool true) → admits outcome = true
  equal : ∀ flag, w.flag? = some flag → envelope.get? flag = some (.bool (admits outcome))

/-- The stored response tells how the enqueue has ended: it was admitted, or its failure has been
stored. -/
def Recorded (w : Write) (outcome : EnqueueOutcome) (tail : Tail) : Prop :=
  match w with
  | .register _ => admits outcome = true
  | .refresh _ _ => admits outcome = true ∨
      (outcome = .outcomeUnknownError ∧ ∃ response, tail = .ended (.ok response))
  | .reinstate _ _ _ _ => True

theorem replay_row {ledger : List (LedgerRow ρ)} {retry : Request} {envelope : Dict}
    (h : replay ledger retry = .ok (some envelope)) :
    ∃ row ∈ ledger, row.triple = retry.triple ∧
      envelope = row.response.set "idempotent" (.bool true) := by
  unfold replay at h
  split at h
  · cases h
  · split at h
    · cases h
    · rename_i row hlookup
      split at h
      · cases h
      · split at h
        · cases h
        · have hrow := Table.lookup_mem hlookup
          exact ⟨row, hrow.1, hrow.2, (Option.some.inj (Except.ok.inj h)).symm⟩

theorem flag_replayed {flag : String} (hflag : flag ∈ admissionFlags) (response : Dict) :
    (response.set "idempotent" (.bool true)).get? flag = response.get? flag := by
  rw [Dict.get?_set, if_neg]
  intro heq
  rw [← heq] at hflag
  exact absurd hflag (by decide)

/-- A replay of the response as it was stored first. -/
theorem honest_response (w : Write) (outcome : EnqueueOutcome) :
    Honest w outcome (w.response.set "idempotent" (.bool true)) ↔
      (w.flag?.isSome = true → admits outcome = true) := by
  have hget : ∀ flag ∈ admissionFlags, w.response.get? flag =
      if w.flag? = some flag then some (.bool true) else none := by
    intro flag hflag
    rcases List.mem_cons.mp hflag with rfl | hrest
    · cases w <;> rfl
    · rcases List.mem_cons.mp hrest with rfl | hlast
      · cases w <;> rfl
      · rw [List.mem_singleton.mp hlast]
        cases w <;> rfl
  have hmem : ∀ flag, w.flag? = some flag → flag ∈ admissionFlags := by
    intro flag hflag
    cases w <;> cases hflag <;> decide
  constructor
  · intro h hsome
    obtain ⟨flag, hflag⟩ := Option.isSome_iff_exists.mp hsome
    have hstored := hget flag (hmem flag hflag)
    rw [if_pos hflag, ← flag_replayed (hmem flag hflag), h.equal flag hflag] at hstored
    exact Value.bool.inj (Option.some.inj hstored)
  · intro hadmits
    refine ⟨?_, ?_⟩
    · intro flag hflag henvelope
      rw [flag_replayed hflag, hget flag hflag] at henvelope
      split at henvelope
      · rename_i hown
        exact hadmits (Option.isSome_iff_exists.mpr ⟨flag, hown⟩)
      · cases henvelope
    · intro flag hflag
      rw [flag_replayed (hmem flag hflag), hget flag (hmem flag hflag), if_pos hflag,
        hadmits (Option.isSome_iff_exists.mpr ⟨flag, hflag⟩)]

theorem honest_corrected {w : Write} (hrefresh : w.endpoint = .refresh) :
    Honest w .outcomeUnknownError (w.corrected.set "idempotent" (.bool true)) := by
  cases w <;> cases hrefresh
  refine ⟨?_, ?_⟩
  · intro flag hflag henvelope
    rw [flag_replayed hflag] at henvelope
    rcases List.mem_cons.mp hflag with rfl | hrest
    · cases henvelope
    · rcases List.mem_cons.mp hrest with rfl | hlast
      · cases henvelope
      · rw [List.mem_singleton.mp hlast] at henvelope
        cases henvelope
  · intro flag hflag
    cases hflag
    rfl

/-- The call that ran the handler is told the truth, whatever its replays are told. -/
theorem returned_honest {w : Write} {outcome : EnqueueOutcome} {response : Dict} {flag : String}
    (hflag : w.flag? = some flag)
    (h : w.tail outcome = .ended (.ok response) ∨ w.tail outcome = .correcting response) :
    response.get? flag = some (.bool (admits outcome)) := by
  cases w <;> cases hflag <;> cases outcome <;> rcases h with h | h <;> cases h <;> rfl

/-- A replay is honest when the response that the transaction stored is true of the enqueue, or
the refresh has stored it again. -/
theorem honest_iff {w : Write} {r retry : Request} {p : ρ} {s : Admission ρ}
    {outcome : EnqueueOutcome} {envelope : Dict}
    (hs : Reachable (Committed w r p) (AdmissionStep w r p) s) (houtcome : s.outcome = some outcome)
    (hown : ∀ row ∈ s.ledger, row.triple = retry.triple → row.owner = p)
    (hreplay : replay s.ledger retry = .ok (some envelope)) :
    Honest w outcome envelope ↔ Recorded w outcome s.tail := by
  have hpreserves : Preserves (AdmissionStep w r p) fun s : Admission ρ => AdmissionInv w r p s :=
    fun _ _ hstep hinv => admissionInv_step hstep hinv
  have hinv : AdmissionInv w r p s :=
    reachable_invariant (fun _ h => admissionInv_committed h) hpreserves hs
  obtain ⟨row, hrow, htriple, henvelope⟩ := replay_row hreplay
  have hresponse := (hinv.own row hrow (hown row hrow htriple)).2
  by_cases hcorrected : Corrected w s
  · have hunknown : outcome = .outcomeUnknownError := by
      have hsame := hcorrected.2.1
      rw [houtcome] at hsame
      exact Option.some.inj hsame
    rw [henvelope, hresponse.2 hcorrected, hunknown]
    apply iff_of_true (honest_corrected hcorrected.1)
    cases w with
    | register _ => cases hcorrected.1
    | refresh _ _ => exact .inr ⟨rfl, hcorrected.2.2⟩
    | reinstate _ _ _ _ => trivial
  · rw [henvelope, hresponse.1 hcorrected, honest_response]
    cases w with
    | register _ => exact ⟨fun h => h rfl, fun h _ => h⟩
    | refresh _ _ =>
      constructor
      · intro h
        exact .inl (h rfl)
      · intro h _
        rcases h with hadmits | ⟨hunknown, hended⟩
        · exact hadmits
        · rw [hunknown] at houtcome
          exact absurd ⟨rfl, houtcome, hended⟩ hcorrected
    | reinstate _ _ _ _ => exact ⟨fun _ => trivial, fun _ h => Bool.noConfusion h⟩

/-! ## A corrected refresh, and a registration that the queue refused -/

theorem firstMoment_lt : 0 < maxMicroseconds := by decide

def firstMoment : UtcClock := ⟨0, firstMoment_lt⟩

def exampleWrite (endpoint : Endpoint) : Request :=
  ⟨⟨endpoint, "actor_1", "key_1"⟩, "hash_1", "shop.example"⟩

def staleRefresh : Write := .refresh "cagt_1" "stale"

def newRegistration : Write := .register (.other "cagt_1")

/-- The transaction of the only session has committed. -/
def justCommitted (w : Write) : Admission Unit where
  ledger := complete [claimRow (exampleWrite w.endpoint) () firstMoment] (exampleWrite w.endpoint)
    w.response 1 firstMoment
  tail := .enqueuing
  outcome := none

theorem committed_justCommitted (w : Write) :
    Committed w (exampleWrite w.endpoint) () (justCommitted w) := by
  refine ⟨_, 1, firstMoment, rfl, rfl, ⟨_, List.mem_singleton.mpr rfl, rfl, rfl⟩, ?_, rfl⟩
  intro row hrow _
  rw [List.mem_singleton.mp hrow]
  exact Bool.and_eq_true_iff.mpr ⟨decide_eq_true rfl, decide_eq_true rfl⟩

def unknownRefresh : Admission Unit :=
  { justCommitted staleRefresh with
    tail := staleRefresh.tail .outcomeUnknownError, outcome := some .outcomeUnknownError }

def correctedRefresh : Admission Unit :=
  { unknownRefresh with
    ledger := complete unknownRefresh.ledger (exampleWrite .refresh) staleRefresh.corrected 2
      firstMoment
    tail := .ended (.ok staleRefresh.corrected) }

theorem reachable_correctedRefresh :
    Reachable (Committed staleRefresh (exampleWrite .refresh) ())
      (AdmissionStep staleRefresh (exampleWrite .refresh) ()) correctedRefresh := by
  have hunknown : AdmissionStep staleRefresh (exampleWrite .refresh) ()
      (justCommitted staleRefresh) unknownRefresh := .enqueues .outcomeUnknownError rfl rfl
  have hcorrects : AdmissionStep staleRefresh (exampleWrite .refresh) ()
      unknownRefresh correctedRefresh := .corrects 2 firstMoment rfl
  have hstart : Reachable (Committed staleRefresh (exampleWrite .refresh) ())
      (AdmissionStep staleRefresh (exampleWrite .refresh) ()) (justCommitted staleRefresh) :=
    reachable_init (committed_justCommitted staleRefresh)
  exact reachable_step (reachable_step hstart hunknown) hcorrects

/-- The refresh of unknown outcome is replayed as not enqueued. -/
theorem correctedRefresh_honest :
    Honest staleRefresh .outcomeUnknownError
        (staleRefresh.corrected.set "idempotent" (.bool true)) ↔
      Recorded staleRefresh .outcomeUnknownError correctedRefresh.tail := by
  have hreplay : replay correctedRefresh.ledger (exampleWrite .refresh) =
      .ok (some (staleRefresh.corrected.set "idempotent" (.bool true))) := rfl
  exact honest_iff reachable_correctedRefresh rfl (fun _ _ _ => rfl) hreplay

/-- The queue is full, and the replay says that the verification is enqueued. -/
theorem refused_registration_replayed :
    ¬ ∀ s : Admission Unit,
      Reachable (Committed newRegistration (exampleWrite .register) ())
        (AdmissionStep newRegistration (exampleWrite .register) ()) s →
      ∀ outcome envelope, s.outcome = some outcome →
        replay s.ledger (exampleWrite .register) = .ok (some envelope) →
          Honest newRegistration outcome envelope := by
  intro hall
  have hrefused : AdmissionStep newRegistration (exampleWrite .register) ()
      (justCommitted newRegistration)
      { justCommitted newRegistration with
        tail := newRegistration.tail .fullError, outcome := some .fullError } :=
    .enqueues .fullError rfl rfl
  have hstart : Reachable (Committed newRegistration (exampleWrite .register) ())
      (AdmissionStep newRegistration (exampleWrite .register) ()) (justCommitted newRegistration) :=
    reachable_init (committed_justCommitted newRegistration)
  have hhonest := hall _ (reachable_step hstart hrefused) .fullError _ rfl rfl
  have hadmits := hhonest.claimed "verification_enqueued" (by decide) rfl
  cases hadmits

end KiwiCatalog.Idempotency
