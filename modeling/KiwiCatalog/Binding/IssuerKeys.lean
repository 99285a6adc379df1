import KiwiCatalog.Lib.Table
import KiwiCatalog.Lib.Transition
import KiwiCatalog.Lib.Update
import KiwiCatalog.Lib.Url

/-!
# Issuer keys — the states of the keys behind the binding claims

The states stand in one file.  An instance is loaded from it, changes states in memory and persists
them.  `κ` is what a private key file holds, and `ρ` names the instances, in any number.
-/

set_option autoImplicit false
set_option linter.unusedSectionVars false

namespace KiwiCatalog.Binding.IssuerKeys

open Transition
open Update (forall_update)
open Url (Text strip)

/-! ## Key states -/

/-- `ISSUER_KEY_STATES`. -/
inductive KeyState
  | prepared
  | active
  | verifyOnly
  | retired
  | compromised
  deriving DecidableEq, Repr

namespace KeyState

def text : KeyState → Text
  | prepared => "PREPARED".toList
  | active => "ACTIVE".toList
  | verifyOnly => "VERIFY_ONLY".toList
  | retired => "RETIRED".toList
  | compromised => "COMPROMISED".toList

def ofText? (t : Text) : Option KeyState :=
  [prepared, active, verifyOnly, retired, compromised].find? fun state => state.text = t

theorem ofText?_text (state : KeyState) : ofText? state.text = some state := by
  cases state <;> decide

theorem text_of_ofText? {t : Text} {state : KeyState} (h : ofText? t = some state) :
    state.text = t := by
  have hfound := List.find?_some h
  exact of_decide_eq_true hfound

theorem text_injective {state state' : KeyState} (h : state.text = state'.text) :
    state = state' := by
  have hsame := ofText?_text state
  rw [h, ofText?_text] at hsame
  exact (Option.some.inj hsame).symm

theorem strip_text (state : KeyState) : strip state.text = state.text := by
  cases state <;> decide

end KeyState

inductive IssuerKeyError
  | malformedEntry
  | keyFileMissing
  | notEd25519
  | noKeys
  | unknownState (state : Text)
  | unknownKid (kid : Text)
  | refused (kid : Text) (current : KeyState)
  | noActive
  | multipleActive
  deriving DecidableEq, Repr

/-! ## Key sets -/

structure Entry (κ : Type) where
  kid : Text
  state : KeyState
  key : κ
  deriving DecidableEq, Repr

def Entry.withState {κ : Type} (state : KeyState) (e : Entry κ) : Entry κ := { e with state := state }

/-- The entry, where its key id has another value. -/
def Entry.replacedBy {κ : Type} (new e : Entry κ) : Entry κ :=
  { e with state := new.state, key := new.key }

/-- `IssuerKeySet`; the entries are a dictionary by key id. -/
structure KeySet (κ : Type) where
  entries : List (Entry κ)
  unique : Table.KeyUnique Entry.kid entries

namespace KeySet

variable {κ : Type}

def empty : KeySet κ := ⟨[], List.nodup_nil⟩

def stateOf (set : KeySet κ) (kid : Text) : Option KeyState :=
  (Table.lookup Entry.kid kid set.entries).map Entry.state

/-- `entry["state"] = state`. -/
def setState (set : KeySet κ) (kid : Text) (state : KeyState) : KeySet κ where
  entries := Table.updateWhere (fun e => decide (e.kid = kid)) (Entry.withState state) set.entries
  unique := Table.keyUnique_updateWhere (f := Entry.withState state) (fun _ => rfl) set.unique

/-- The entries after `entries[kid] = …`; a dictionary keeps the place of a key that it has. -/
def putEntries (entries : List (Entry κ)) (e : Entry κ) : List (Entry κ) :=
  if entries.all fun e' => decide (e'.kid ≠ e.kid) then entries ++ [e]
  else Table.updateWhere (fun e' => decide (e'.kid = e.kid)) e.replacedBy entries

theorem keyUnique_putEntries {entries : List (Entry κ)} (h : Table.KeyUnique Entry.kid entries)
    (e : Entry κ) : Table.KeyUnique Entry.kid (putEntries entries e) := by
  unfold putEntries
  split
  · rename_i hnew
    apply Table.keyUnique_append h
    intro e' he'
    exact of_decide_eq_true (List.all_eq_true.mp hnew e' he')
  · exact Table.keyUnique_updateWhere (f := e.replacedBy) (fun _ => rfl) h

def put (set : KeySet κ) (e : Entry κ) : KeySet κ :=
  ⟨putEntries set.entries e, keyUnique_putEntries set.unique e⟩

/-- COMPROMISED is terminal. -/
def transition (set : KeySet κ) (kid state : Text) : Except IssuerKeyError (KeySet κ) :=
  match KeyState.ofText? state with
  | none => .error (.unknownState state)
  | some state =>
    match set.stateOf kid with
    | none => .error (.unknownKid kid)
    | some current =>
      if current = .compromised ∧ state ≠ current then .error (.refused kid current)
      else .ok (set.setState kid state)

def signingIdentity (set : KeySet κ) : Except IssuerKeyError (Entry κ) :=
  match set.entries.filter fun e => e.state = .active with
  | [] => .error .noActive
  | [e] => .ok e
  | _ => .error .multipleActive

/-- The published keys, which the verifiers of claims fetch. -/
def issuerKeys (set : KeySet κ) : List (Entry κ) :=
  (set.entries.filter fun e => e.state = .active || e.state = .verifyOnly).mergeSort
    fun a b => !List.lex b.kid a.kid fun c d => decide (c.toNat < d.toNat)

/-- A claim signed by the key is verified, or a new one is signed by it. -/
def Accepts (set : KeySet κ) (kid : Text) : Prop :=
  (∃ e ∈ set.issuerKeys, e.kid = kid) ∨ ∃ e, set.signingIdentity = .ok e ∧ e.kid = kid

theorem stateOf_setState (set : KeySet κ) (kid kid' : Text) (state : KeyState) :
    (set.setState kid state).stateOf kid' =
      if kid' = kid then (set.stateOf kid').map fun _ => state else set.stateOf kid' := by
  unfold stateOf setState
  dsimp only
  rw [Table.lookup_updateWhere (f := Entry.withState state) fun _ => rfl]
  split
  · rw [Option.map_map, Option.map_map]
    rfl
  · rfl

theorem stateOf_put (set : KeySet κ) (e : Entry κ) (kid : Text) :
    (set.put e).stateOf kid = if kid = e.kid then some e.state else set.stateOf kid := by
  unfold stateOf put putEntries
  dsimp only
  split
  · rename_i hnew
    rw [Table.lookup, Table.lookup, List.find?_append]
    split
    · rename_i hsame
      subst hsame
      have hnone : set.entries.find? (fun e' => decide (e'.kid = e.kid)) = none := by
        rw [List.find?_eq_none]
        intro e' he' heq
        exact of_decide_eq_true (List.all_eq_true.mp hnew e' he') (of_decide_eq_true heq)
      rw [hnone, List.find?_singleton, if_pos (decide_eq_true rfl)]
      rfl
    · rename_i hne
      rw [List.find?_singleton, if_neg (by simpa using fun h => hne h.symm), Option.or_none]
  · rename_i hold
    rw [Table.lookup_updateWhere (f := e.replacedBy) fun _ => rfl]
    split
    · rename_i hsame
      subst hsame
      rw [Bool.not_eq_true, List.all_eq_false] at hold
      obtain ⟨e', he', hkid⟩ := hold
      rw [decide_eq_true_eq, not_not] at hkid
      rw [← hkid, Table.lookup_of_mem set.unique he']
      rfl
    · rfl

theorem stateOf_of_mem (set : KeySet κ) {e : Entry κ} (he : e ∈ set.entries) :
    set.stateOf e.kid = some e.state := by
  rw [stateOf, Table.lookup_of_mem set.unique he]
  rfl

/-- A key that is accepted is one of the set, in a state that signs or verifies. -/
theorem Accepts.stateOf {set : KeySet κ} {kid : Text} (h : set.Accepts kid) :
    ∃ state, set.stateOf kid = some state ∧ (state = .active ∨ state = .verifyOnly) := by
  rcases h with ⟨e, he, rfl⟩ | ⟨e, hsigning, rfl⟩
  · rw [issuerKeys, List.mem_mergeSort, List.mem_filter, Bool.or_eq_true, decide_eq_true_eq,
      decide_eq_true_eq] at he
    exact ⟨e.state, set.stateOf_of_mem he.1, he.2⟩
  · unfold signingIdentity at hsigning
    split at hsigning
    · cases hsigning
    · rename_i e' hactive
      cases hsigning
      have he : e ∈ set.entries.filter fun e => e.state = .active := by
        rw [hactive]
        exact List.mem_singleton_self e
      rw [List.mem_filter, decide_eq_true_eq] at he
      exact ⟨e.state, set.stateOf_of_mem he.1, Or.inl he.2⟩
    · cases hsigning

theorem transition_ok {set set' : KeySet κ} {kid stateText : Text}
    (h : set.transition kid stateText = .ok set') :
    ∃ state, set' = set.setState kid state ∧
      ∀ current, set.stateOf kid = some current → current = .compromised → state = .compromised := by
  unfold transition at h
  split at h
  · cases h
  · split at h
    · cases h
    · rename_i state _ _ current hcurrent
      split at h
      · cases h
      · rename_i hmay
        cases h
        refine ⟨state, rfl, ?_⟩
        intro current' hcurrent' hcompromised
        rw [hcurrent] at hcurrent'
        cases hcurrent'
        by_contra hne
        exact hmay ⟨hcompromised, fun hsame => hne (hsame.trans hcompromised)⟩

end KeySet

/-! ## The file -/

/-- An item of `keys`; a member that is missing is an empty text. -/
structure KeyItem where
  kid : Text
  state : Text
  privateKeyFile : Text
  deriving DecidableEq, Repr

section File

variable {κ : Type}

def loadItem (readKey : Text → Except IssuerKeyError κ) (set : KeySet κ) (item : KeyItem) :
    Except IssuerKeyError (KeySet κ) :=
  match KeyState.ofText? (strip item.state) with
  | none => .error .malformedEntry
  | some state =>
    if strip item.kid = [] ∨ strip item.privateKeyFile = [] then .error .malformedEntry
    else (readKey (strip item.privateKeyFile)).map fun key => set.put ⟨strip item.kid, state, key⟩

def loadIssuerKeySet (readKey : Text → Except IssuerKeyError κ) (file : List KeyItem) :
    Except IssuerKeyError (KeySet κ) := do
  let set ← file.foldlM (loadItem readKey) KeySet.empty
  if set.entries.isEmpty then .error .noKeys else .ok set

/-- What `persist` writes: an item with a key id that the instance has gets its state. -/
def persist (set : KeySet κ) (file : List KeyItem) : List KeyItem :=
  file.map fun item =>
    match set.stateOf (strip item.kid) with
    | some state => { item with state := state.text }
    | none => item

/-- The file lists the key id in the state. -/
def Lists (file : List KeyItem) (kid : Text) (state : KeyState) : Prop :=
  ∃ item ∈ file, strip item.kid = kid ∧ strip item.state = state.text

/-- No item of the key id has another text. -/
def ListsOnly (file : List KeyItem) (kid : Text) (state : KeyState) : Prop :=
  ∀ item ∈ file, strip item.kid = kid → strip item.state = state.text

theorem loadItem_ok {readKey : Text → Except IssuerKeyError κ} {set set' : KeySet κ}
    {item : KeyItem} (h : loadItem readKey set item = .ok set') :
    ∃ state key, state.text = strip item.state ∧ set' = set.put ⟨strip item.kid, state, key⟩ := by
  unfold loadItem at h
  split at h
  · cases h
  · rename_i state hstate
    split at h
    · cases h
    · cases hread : readKey (strip item.privateKeyFile) with
      | error e =>
        rw [hread] at h
        cases h
      | ok key =>
        rw [hread] at h
        cases h
        exact ⟨state, key, KeyState.text_of_ofText? hstate, rfl⟩

/-- Loading leaves each key id in the state of an item of it, and of no other. -/
theorem foldlM_loadItem {readKey : Text → Except IssuerKeyError κ} (file : List KeyItem)
    {set set' : KeySet κ} (h : file.foldlM (loadItem readKey) set = .ok set') :
    (∀ kid state, set'.stateOf kid = some state → set.stateOf kid = some state ∨
      Lists file kid state) ∧
    (∀ item ∈ file, (set'.stateOf (strip item.kid)).isSome = true) ∧
    ∀ kid, (set.stateOf kid).isSome = true → (set'.stateOf kid).isSome = true := by
  induction file generalizing set with
  | nil =>
    cases h
    exact ⟨fun _ _ hstate => Or.inl hstate, fun item hitem => absurd hitem List.not_mem_nil,
      fun _ hsome => hsome⟩
  | cons item rest ih =>
    rw [List.foldlM_cons] at h
    cases hitem : loadItem readKey set item with
    | error e =>
      rw [hitem] at h
      cases h
    | ok loaded =>
      rw [hitem] at h
      obtain ⟨hfrom, hall, hkeeps⟩ := ih h
      obtain ⟨state, key, htext, rfl⟩ := loadItem_ok hitem
      have hput : ((set.put ⟨strip item.kid, state, key⟩).stateOf (strip item.kid)).isSome =
          true := by
        rw [KeySet.stateOf_put, if_pos rfl]
        rfl
      refine ⟨?_, ?_, ?_⟩
      · intro kid state' hstate'
        rcases hfrom kid state' hstate' with hset | ⟨item', hmem, hlists⟩
        · rw [KeySet.stateOf_put] at hset
          split at hset
          · rename_i hkid
            rw [← Option.some.inj hset]
            exact Or.inr ⟨item, List.mem_cons_self, hkid.symm, htext.symm⟩
          · exact Or.inl hset
        · exact Or.inr ⟨item', List.mem_cons_of_mem _ hmem, hlists⟩
      · intro item' hmem
        rcases List.mem_cons.mp hmem with rfl | hmem
        · exact hkeeps _ hput
        · exact hall item' hmem
      · intro kid hsome
        apply hkeeps
        rw [KeySet.stateOf_put]
        split
        · rfl
        · exact hsome

theorem loadIssuerKeySet_ok {readKey : Text → Except IssuerKeyError κ} {file : List KeyItem}
    {set : KeySet κ} (h : loadIssuerKeySet readKey file = .ok set) :
    (∀ kid state, set.stateOf kid = some state → Lists file kid state) ∧
      ∀ item ∈ file, (set.stateOf (strip item.kid)).isSome = true := by
  unfold loadIssuerKeySet at h
  cases hfold : file.foldlM (loadItem readKey) KeySet.empty with
  | error e =>
    rw [hfold] at h
    cases h
  | ok loaded =>
    rw [hfold] at h
    change (if loaded.entries.isEmpty then _ else _) = _ at h
    split at h
    · cases h
    · cases h
      obtain ⟨hfrom, hall, -⟩ := foldlM_loadItem file hfold
      refine ⟨fun kid state hstate => (hfrom kid state hstate).resolve_left ?_, hall⟩
      intro hempty
      cases hempty

/-- What is written for a key id is the state that the instance has for it. -/
theorem mem_persist {set : KeySet κ} {file : List KeyItem} {item : KeyItem}
    (h : item ∈ persist set file) :
    ∃ old ∈ file, old.kid = item.kid ∧
      ((∃ state, set.stateOf (strip old.kid) = some state ∧ item.state = state.text) ∨
        set.stateOf (strip old.kid) = none ∧ item.state = old.state) := by
  obtain ⟨old, hold, rfl⟩ := List.mem_map.mp h
  refine ⟨old, hold, ?_⟩
  cases hstate : set.stateOf (strip old.kid) with
  | none => exact ⟨rfl, Or.inr ⟨rfl, rfl⟩⟩
  | some state => exact ⟨rfl, Or.inl ⟨state, rfl, rfl⟩⟩

theorem listsOnly_persist {set : KeySet κ} {file : List KeyItem} {kid : Text} {state : KeyState}
    (hstate : set.stateOf kid = some state) : ListsOnly (persist set file) kid state := by
  intro item hitem hkid
  obtain ⟨old, -, hold, hwritten⟩ := mem_persist hitem
  rw [hold, hkid, hstate] at hwritten
  rcases hwritten with ⟨state', hsame, htext⟩ | ⟨hnone, -⟩
  · rw [htext, Option.some.inj hsame]
    exact KeyState.strip_text state'
  · cases hnone

end File

/-! ## The system -/

structure System (κ ρ : Type) where
  file : List KeyItem
  instances : ρ → Option (KeySet κ)
  -- not stored: what was persisted, the latest first, and what of it before each instance was loaded
  persisted : List (List KeyItem)
  before : ρ → List (List KeyItem)

variable {κ ρ : Type} [DecidableEq ρ]

inductive Event (ρ : Type)
  | persists (r : ρ)
  | other

/-- The operations that succeed; one that fails changes nothing. -/
inductive Step : Event ρ → System κ ρ → System κ ρ → Prop
  | loads {s : System κ ρ} {r : ρ} (readKey : Text → Except IssuerKeyError κ) {set : KeySet κ}
      (hload : loadIssuerKeySet readKey s.file = .ok set) :
      Step .other s
        { s with
          instances := Function.update s.instances r (some set)
          before := Function.update s.before r s.persisted }
  -- a rotation, a revocation and a mark differ in the state
  | transitions {s : System κ ρ} {r : ρ} {set set' : KeySet κ} (kid state : Text)
      (hset : s.instances r = some set) (hok : set.transition kid state = .ok set') :
      Step .other s { s with instances := Function.update s.instances r (some set') }
  | persists {s : System κ ρ} {r : ρ} {set : KeySet κ} (hset : s.instances r = some set) :
      Step (.persists r) s
        { s with
          file := persist set s.file
          persisted := persist set s.file :: s.persisted }

def Started (s : System κ ρ) : Prop :=
  (∀ r, s.instances r = none) ∧ s.persisted = [] ∧ ∀ r, s.before r = []

/-- What was once persisted as compromised is not persisted as anything else, and an instance that is
loaded after that does not accept it. -/
structure StayCompromised (s : System κ ρ) : Prop where
  listed : s.persisted.Pairwise fun later earlier =>
    ∀ kid, Lists earlier kid .compromised → ListsOnly later kid .compromised
  refused : ∀ r set, s.instances r = some set → ∀ file ∈ s.before r, ∀ kid,
    Lists file kid .compromised → ¬ set.Accepts kid

/-- The instance has the key id in another state, while the file that was persisted last lists it as
compromised. -/
def Stale (s : System κ ρ) (set : KeySet κ) : Prop :=
  s.persisted ≠ [] ∧ ∃ kid state, Lists s.file kid .compromised ∧ set.stateOf kid = some state ∧
    state ≠ .compromised

def Undisturbed (s : System κ ρ) : Event ρ → Prop
  | .persists r => ∀ set, s.instances r = some set → ¬ Stale s set
  | .other => True

def AnyStep (s s' : System κ ρ) : Prop := ∃ event, Step event s s'

def UndisturbedStep (s s' : System κ ρ) : Prop := ∃ event, Undisturbed s event ∧ Step event s s'

/-! ## The invariant -/

structure KeysInv (s : System κ ρ) : Prop where
  listed : s.persisted.Pairwise fun later earlier =>
    ∀ kid, Lists earlier kid .compromised → ListsOnly later kid .compromised
  current : ∀ file ∈ s.persisted, ∀ kid, Lists file kid .compromised →
    ListsOnly s.file kid .compromised
  -- no other key ids come into the file
  known : ∀ r set, s.instances r = some set → ∀ item ∈ s.file,
    (set.stateOf (strip item.kid)).isSome = true
  loaded : ∀ r set, s.instances r = some set → ∀ file ∈ s.before r, ∀ kid,
    Lists file kid .compromised → ∀ state, set.stateOf kid = some state → state = .compromised

theorem KeysInv.stay {s : System κ ρ} (h : KeysInv s) : StayCompromised s where
  listed := h.listed
  refused r set hset file hfile kid hlists haccepts := by
    obtain ⟨state, hstate, haccepted⟩ := haccepts.stateOf
    have hcompromised := h.loaded r set hset file hfile kid hlists state hstate
    subst hcompromised
    rcases haccepted with hactive | hverify
    · cases hactive
    · cases hverify

theorem update_eq_some {instances : ρ → Option (KeySet κ)} {r r' : ρ} {new set : KeySet κ}
    (h : Function.update instances r (some new) r' = some set) :
    r' = r ∧ set = new ∨ r' ≠ r ∧ instances r' = some set := by
  by_cases hr : r' = r
  · rw [hr, Function.update_self] at h
    exact Or.inl ⟨hr, (Option.some.inj h).symm⟩
  · rw [Function.update_of_ne hr] at h
    exact Or.inr ⟨hr, h⟩

theorem keysInv_loads {s : System κ ρ} (h : KeysInv s) {r : ρ}
    {readKey : Text → Except IssuerKeyError κ} {set : KeySet κ}
    (hload : loadIssuerKeySet readKey s.file = .ok set) :
    KeysInv
      { s with
        instances := Function.update s.instances r (some set)
        before := Function.update s.before r s.persisted } where
  listed := h.listed
  current := h.current
  known r' set' hset' := by
    rcases update_eq_some hset' with ⟨-, rfl⟩ | ⟨-, hset'⟩
    · exact (loadIssuerKeySet_ok hload).2
    · exact h.known r' set' hset'
  loaded r' set' hset' := by
    show ∀ file ∈ Function.update s.before r s.persisted r', _
    rcases update_eq_some hset' with ⟨rfl, rfl⟩ | ⟨hr, hset'⟩
    · rw [Function.update_self]
      intro file hfile kid hlists state hstate
      -- the state is that of an item of the file
      obtain ⟨item, hitem, hkid, htext⟩ := (loadIssuerKeySet_ok hload).1 kid state hstate
      exact KeyState.text_injective
        (htext.symm.trans (h.current file hfile kid hlists item hitem hkid))
    · rw [Function.update_of_ne hr]
      exact h.loaded r' set' hset'

theorem keysInv_transitions {s : System κ ρ} (h : KeysInv s) {r : ρ} {set set' : KeySet κ}
    {kid stateText : Text} (hset : s.instances r = some set)
    (hok : set.transition kid stateText = .ok set') :
    KeysInv { s with instances := Function.update s.instances r (some set') } := by
  obtain ⟨state, rfl, hterminal⟩ := KeySet.transition_ok hok
  refine ⟨h.listed, h.current, ?_, ?_⟩
  · intro r' set₁ hset₁
    rcases update_eq_some hset₁ with ⟨-, rfl⟩ | ⟨-, hset₁⟩
    · intro item hitem
      have hknown := h.known r set hset item hitem
      rw [KeySet.stateOf_setState]
      split
      · rw [Option.isSome_map]
        exact hknown
      · exact hknown
    · exact h.known r' set₁ hset₁
  · intro r' set₁ hset₁
    rcases update_eq_some hset₁ with ⟨rfl, rfl⟩ | ⟨-, hset₁⟩
    · intro file hfile kid' hlists state' hstate'
      have hloaded := h.loaded r' set hset file hfile kid' hlists
      rw [KeySet.stateOf_setState] at hstate'
      split at hstate'
      · rename_i hkid
        obtain ⟨current, hcurrent, hnew⟩ := Option.map_eq_some_iff.mp hstate'
        rw [← hnew]
        exact hterminal current (hkid ▸ hcurrent) (hloaded current hcurrent)
      · exact hloaded state' hstate'
    · exact h.loaded r' set₁ hset₁

/-- The instance knows every key id of the file, and its state is the one of all items of it. -/
theorem keysInv_persists {s : System κ ρ} (h : KeysInv s) {r : ρ} {set : KeySet κ}
    (hset : s.instances r = some set) (hfresh : ¬ Stale s set) :
    KeysInv
      { s with
        file := persist set s.file
        persisted := persist set s.file :: s.persisted } := by
  have hknown := h.known r set hset
  -- an item that is written is one of the file, with the state of the instance
  have hitems : ∀ item ∈ persist set s.file, ∃ old ∈ s.file, strip old.kid = strip item.kid ∧
      ∃ state, set.stateOf (strip item.kid) = some state ∧ strip item.state = state.text := by
    intro item hitem
    obtain ⟨old, hold, hkid, hwritten⟩ := mem_persist hitem
    refine ⟨old, hold, by rw [hkid], ?_⟩
    rcases hwritten with ⟨state, hstate, htext⟩ | ⟨hnone, -⟩
    · exact ⟨state, hkid ▸ hstate, by rw [htext, KeyState.strip_text]⟩
    · have hsome := hknown old hold
      rw [hnone] at hsome
      cases hsome
  have holder : ∀ file ∈ s.persisted, ∀ kid, Lists file kid .compromised →
      ListsOnly (persist set s.file) kid .compromised := by
    intro file hfile kid hlists item hitem hkid
    obtain ⟨old, hold, hsame, state, hstate, htext⟩ := hitems item hitem
    rw [hkid] at hsame hstate
    have hlisted : Lists s.file kid .compromised :=
      ⟨old, hold, hsame, h.current file hfile kid hlists old hold hsame⟩
    have hcompromised : state = .compromised := by
      by_contra hne
      exact hfresh ⟨List.ne_nil_of_mem hfile, kid, state, hlisted, hstate, hne⟩
    rw [htext, hcompromised]
  have hself : ∀ kid, Lists (persist set s.file) kid .compromised →
      ListsOnly (persist set s.file) kid .compromised := by
    rintro kid ⟨item, hitem, hkid, hcompromised⟩
    obtain ⟨-, -, -, state, hstate, htext⟩ := hitems item hitem
    rw [htext] at hcompromised
    rw [← KeyState.text_injective hcompromised]
    exact listsOnly_persist (hkid ▸ hstate)
  refine ⟨List.pairwise_cons.mpr ⟨holder, h.listed⟩, ?_, ?_, h.loaded⟩
  · intro file hfile
    rcases List.mem_cons.mp hfile with rfl | hfile
    · exact hself
    · exact holder file hfile
  · intro r' set' hset' item hitem
    obtain ⟨old, hold, hsame, -⟩ := hitems item hitem
    rw [← hsame]
    exact h.known r' set' hset' old hold

theorem keysInv_preserved : Preserves (UndisturbedStep (κ := κ) (ρ := ρ)) KeysInv := by
  rintro s s' ⟨event, hundisturbed, hstep⟩ h
  cases hstep with
  | loads readKey hload => exact keysInv_loads h hload
  | transitions kid state hset hok => exact keysInv_transitions h hset hok
  | persists hset => exact keysInv_persists h hset (hundisturbed _ hset)

theorem keysInv_started (s : System κ ρ) (h : Started s) : KeysInv s := by
  obtain ⟨hinstances, hpersisted, -⟩ := h
  refine ⟨?_, ?_, ?_, ?_⟩
  · rw [hpersisted]
    exact List.Pairwise.nil
  · rw [hpersisted]
    exact fun file hfile => absurd hfile List.not_mem_nil
  · intro r set hset
    rw [hinstances] at hset
    cases hset
  · intro r set hset
    rw [hinstances] at hset
    cases hset

/-- In every run in which no instance that is stale on a compromised key persists, compromised keys
stay so. -/
theorem compromised_keys_stay {s : System κ ρ} (hs : Reachable Started UndisturbedStep s) :
    StayCompromised s :=
  (reachable_invariant keysInv_started keysInv_preserved hs).stay

/-- One active key. -/
def oneKey : List KeyItem := [⟨"key-1".toList, "ACTIVE".toList, "key-1.pem".toList⟩]

def oneKeyStart : System Unit Nat := ⟨oneKey, fun _ => none, [], fun _ => []⟩

def oneKeySet (state : KeyState) : KeySet Unit := ⟨[⟨"key-1".toList, state, ()⟩], List.nodup_singleton _⟩

/-- What each of two instances has loaded. -/
def bothLoaded : System Unit Nat :=
  { oneKeyStart with
    instances :=
      Function.update (Function.update (fun _ => none) 1 (some (oneKeySet .active))) 2
        (some (oneKeySet .active))
    before := Function.update (Function.update (fun _ => []) 1 []) 2 [] }

/-- One of them has marked the key and persisted the mark. -/
def markPersisted : System Unit Nat :=
  { bothLoaded with
    file := persist (oneKeySet .compromised) oneKey
    instances := Function.update bothLoaded.instances 1 (some (oneKeySet .compromised))
    persisted := [persist (oneKeySet .compromised) oneKey] }

theorem oneKeySet_loads :
    loadIssuerKeySet (fun _ => .ok ()) oneKey = .ok (oneKeySet .active) := by
  rfl

theorem oneKeySet_marks :
    (oneKeySet .active).transition "key-1".toList "COMPROMISED".toList =
      .ok (oneKeySet .compromised) := by
  rfl

theorem bothLoaded_reachable : Reachable Started UndisturbedStep bothLoaded := by
  have hstart : Reachable Started UndisturbedStep oneKeyStart :=
    reachable_init ⟨fun _ => rfl, rfl, fun _ => rfl⟩
  have hone := reachable_step hstart
    ⟨.other, trivial, @Step.loads Unit Nat _ _ 1 (fun _ => .ok ()) _ oneKeySet_loads⟩
  exact reachable_step hone
    ⟨.other, trivial, @Step.loads Unit Nat _ _ 2 (fun _ => .ok ()) _ oneKeySet_loads⟩

theorem markPersisted_reachable : Reachable Started UndisturbedStep markPersisted := by
  have hmarked := reachable_step bothLoaded_reachable
    ⟨.other, trivial, @Step.transitions Unit Nat _ _ 1 _ _ _ _ rfl oneKeySet_marks⟩
  -- nothing was persisted before
  exact reachable_step hmarked
    ⟨.persists 1, fun _ _ hstale => hstale.1 rfl, @Step.persists Unit Nat _ _ 1 _ rfl⟩

theorem compromised_keys_stay_marked :
    Lists markPersisted.file "key-1".toList .compromised ∧ StayCompromised markPersisted :=
  ⟨⟨_, List.mem_singleton_self _, rfl, rfl⟩, compromised_keys_stay markPersisted_reachable⟩

/-- The other instance persists the state that it has loaded. -/
theorem stale_instance_revives :
    ¬ ∀ s : System Unit Nat, Reachable Started AnyStep s → StayCompromised s := by
  intro hall
  have hmarked : Reachable Started AnyStep markPersisted :=
    reachable_mono (fun ⟨event, _, hstep⟩ => ⟨event, hstep⟩) markPersisted_reachable
  have hrevived := reachable_step hmarked
    ⟨.persists 2, @Step.persists Unit Nat _ _ 2 (oneKeySet .active) rfl⟩
  have hlisted := (List.pairwise_cons.mp (hall _ hrevived).listed).1 _ (List.mem_singleton_self _)
    "key-1".toList ⟨_, List.mem_singleton_self _, rfl, rfl⟩
  have htext := hlisted _ (List.mem_singleton_self _) rfl
  exact absurd htext (by decide)

end KiwiCatalog.Binding.IssuerKeys
