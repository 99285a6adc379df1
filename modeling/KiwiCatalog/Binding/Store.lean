import KiwiCatalog.Lib.Table
import KiwiCatalog.Lib.Transition
import Mathlib.Data.List.MinMax

/-!
# Binding store — the runtime bindings of the catalog

`runtime_bindings` with its primary key and its unique index on agent and version, and the
operations that insert a binding or revoke one.  Rows are never deleted.
-/

set_option autoImplicit false

namespace KiwiCatalog.Binding

inductive BindingStatus
  | active
  | paused
  | revoked
  deriving DecidableEq, Repr

structure RuntimeBinding where
  bindingId : String
  catalogAgentId : String
  merchantId : String
  runtimeOrigin : String
  a2aEndpoint : String
  keyId : String
  keyThumbprint : String
  bindingVersion : Nat
  serviceEpoch : Nat
  status : BindingStatus
  deriving DecidableEq, Repr

/-- What a request declares about the binding; an empty `bindingId` is none. -/
structure Declaration where
  bindingId : String
  runtimeOrigin : String
  a2aEndpoint : String
  keyId : String
  keyThumbprint : String
  serviceEpoch : Nat
  deriving DecidableEq, Repr

inductive BindError
  | conflict
  -- the unique index
  | integrity
  | notFound
  deriving DecidableEq, Repr

def RuntimeBinding.isActive (r : RuntimeBinding) : Bool := r.status = .active

def RuntimeBinding.revoke (r : RuntimeBinding) : RuntimeBinding := { r with status := .revoked }

/-! ## Statements -/

def rowsOf (store : List RuntimeBinding) (agentId : String) : List RuntimeBinding :=
  store.filter fun r => r.catalogAgentId = agentId

/-- `coalesce(max(binding_version), 0)`. -/
def maxVersion (store : List RuntimeBinding) (agentId : String) : Nat :=
  (rowsOf store agentId).foldr (fun r v => max r.bindingVersion v) 0

def currentActiveBinding (store : List RuntimeBinding) (agentId : String) :
    Option RuntimeBinding :=
  ((rowsOf store agentId).filter RuntimeBinding.isActive).argmax RuntimeBinding.bindingVersion

/-- `agent_id[-8:]`. -/
def lastEight (agentId : String) : String :=
  String.ofList (agentId.toList.drop (agentId.toList.length - 8))

def bindId (agentId : String) (version : Nat) : String :=
  "bind_" ++ lastEight agentId ++ "_" ++ toString version

/-- The insert fails on a taken `binding_id` and on a taken version of the agent. -/
def insertRow? (store : List RuntimeBinding) (row : RuntimeBinding) :
    Option (List RuntimeBinding) :=
  if store.any fun r =>
      r.bindingId = row.bindingId ||
        (r.catalogAgentId = row.catalogAgentId && r.bindingVersion = row.bindingVersion)
  then none else some (store ++ [row])

def revokeRow (store : List RuntimeBinding) (bindingId : String) : List RuntimeBinding :=
  Table.updateWhere (fun r => r.bindingId = bindingId) RuntimeBinding.revoke store

/-! ## Operations -/

def newRow (agentId merchantId bindingId : String) (decl : Declaration) (version : Nat) :
    RuntimeBinding :=
  ⟨bindingId, agentId, merchantId, decl.runtimeOrigin, decl.a2aEndpoint, decl.keyId,
    decl.keyThumbprint, version, decl.serviceEpoch, .active⟩

/-- The checks and writes that every insertion shares: the id must be free, the new row goes in and
the binding that it supersedes is revoked. -/
def supersede (store : List RuntimeBinding) (row : RuntimeBinding)
    (existing : Option RuntimeBinding) : Except BindError (List RuntimeBinding) :=
  if store.any fun r => r.bindingId = row.bindingId then .error .conflict
  else match insertRow? store row with
    | none => .error .integrity
    | some store =>
      match existing with
      | none => .ok store
      | some binding => .ok (revokeRow store binding.bindingId)

/-- The version that `_insert_active_binding` gives: it counts on from the active binding, and from
nothing when there is none. -/
def nextVersion (existing : Option RuntimeBinding) : Nat :=
  match existing with
  | some binding => binding.bindingVersion + 1
  | none => 1

def Declaration.idFor (decl : Declaration) (agentId : String) (version : Nat) : String :=
  if decl.bindingId = "" then bindId agentId version else decl.bindingId

def insertActiveBinding (store : List RuntimeBinding) (agentId merchantId : String)
    (decl : Declaration) (existing : Option RuntimeBinding) :
    Except BindError (List RuntimeBinding) :=
  let version := nextVersion existing
  supersede store (newRow agentId merchantId (decl.idFor agentId version) decl version) existing

/-- The binding that `confirm_request` writes; the declaration is that of the stored request. -/
def confirmBinding (store : List RuntimeBinding) (agentId merchantId : String)
    (decl : Declaration) : Except BindError (List RuntimeBinding) :=
  let version := maxVersion store agentId + 1
  supersede store (newRow agentId merchantId (bindId agentId version) decl version)
    ((rowsOf store agentId).find? RuntimeBinding.isActive)

/-- The binding that `_create_enrollment_binding` commits. -/
def enrollmentBinding (store : List RuntimeBinding) (agentId merchantId : String)
    (decl : Declaration) (expectedVersion : Nat) : Except BindError (List RuntimeBinding) :=
  if maxVersion store agentId + 1 ≠ expectedVersion then .error .conflict
  else insertActiveBinding store agentId merchantId decl (currentActiveBinding store agentId)

def revokeRuntimeBinding (store : List RuntimeBinding) (agentId bindingId : String) :
    Except BindError (List RuntimeBinding) :=
  match (rowsOf store agentId).find? fun r => r.bindingId = bindingId with
  | none => .error .notFound
  | some r => if r.status = .revoked then .ok store else .ok (revokeRow store bindingId)

/-- An operation whose authorization (a grant, a confirmation, a signature, an admin token) has
been checked. -/
inductive Op
  -- the first bind and the rotation of `create_runtime_binding`
  | create (agentId merchantId : String) (decl : Declaration)
  | confirm (agentId merchantId : String) (decl : Declaration)
  | enroll (agentId merchantId : String) (decl : Declaration) (expectedVersion : Nat)
  | revoke (agentId bindingId : String)
  deriving DecidableEq, Repr

def Op.apply (store : List RuntimeBinding) : Op → Except BindError (List RuntimeBinding)
  | .create agentId merchantId decl =>
    insertActiveBinding store agentId merchantId decl (currentActiveBinding store agentId)
  | .confirm agentId merchantId decl => confirmBinding store agentId merchantId decl
  | .enroll agentId merchantId decl expectedVersion =>
    enrollmentBinding store agentId merchantId decl expectedVersion
  | .revoke agentId bindingId => revokeRuntimeBinding store agentId bindingId

/-- The binding that an operation read before others committed: it may be revoked by now. -/
def ReadEarlier (store : List RuntimeBinding) (agentId : String) :
    Option RuntimeBinding → Prop
  | none => True
  | some binding => ∃ r ∈ store, r.catalogAgentId = agentId ∧ r.bindingId = binding.bindingId ∧
      r.bindingVersion = binding.bindingVersion

/-- Operations that go through.  The first bind and the rotation read the active binding before
their transaction; the others decide within it. -/
inductive Step (store store' : List RuntimeBinding) : Prop
  | creates {agentId merchantId : String} {decl : Declaration} {existing : Option RuntimeBinding}
      (hread : ReadEarlier store agentId existing)
      (h : insertActiveBinding store agentId merchantId decl existing = .ok store')
  | confirms {agentId merchantId : String} {decl : Declaration}
      (h : confirmBinding store agentId merchantId decl = .ok store')
  | enrolls {agentId merchantId : String} {decl : Declaration} {expectedVersion : Nat}
      (h : enrollmentBinding store agentId merchantId decl expectedVersion = .ok store')
  | revokes {agentId bindingId : String}
      (h : revokeRuntimeBinding store agentId bindingId = .ok store')

/-! ## What the store keeps -/

/-- A row as it was inserted. -/
def RuntimeBinding.issue (r : RuntimeBinding) : String × String × Nat :=
  (r.bindingId, r.catalogAgentId, r.bindingVersion)

structure StoreContract (store : List RuntimeBinding) : Prop where
  oneActive : ∀ r ∈ store, ∀ r' ∈ store, r.catalogAgentId = r'.catalogAgentId →
    r.isActive = true → r'.isActive = true → r = r'
  -- rows stand in the order of their insertion
  increasing : ∀ agentId,
    (rowsOf store agentId).Pairwise fun r r' => r.bindingVersion < r'.bindingVersion
  idsUnique : Table.KeyUnique RuntimeBinding.bindingId store
  -- nothing issued is ever given up, so no id comes back
  keeps : ∀ store', Transition.Run Step store store' →
    store.map RuntimeBinding.issue <+: store'.map RuntimeBinding.issue

/-- Generated ids of the agent stand on its own rows of that version only. -/
def GeneratedIdsOwn (store : List RuntimeBinding) (agentId : String) : Prop :=
  ∀ r ∈ store, ∀ version, r.bindingId = bindId agentId version →
    r.catalogAgentId = agentId ∧ r.bindingVersion = version

/-- The declared id is free; without one, the generated ids are the agent's own. -/
def IdAvailable (store : List RuntimeBinding) (agentId : String) (decl : Declaration) : Prop :=
  if decl.bindingId = "" then GeneratedIdsOwn store agentId
  else ∀ r ∈ store, r.bindingId ≠ decl.bindingId

/-- What the operations document as their preconditions beyond the authorization. -/
def Permitted (store : List RuntimeBinding) : Op → Prop
  | .create agentId _ decl => IdAvailable store agentId decl
  | .confirm agentId _ _ => GeneratedIdsOwn store agentId
  | .enroll agentId _ decl expectedVersion =>
    IdAvailable store agentId decl ∧ expectedVersion = maxVersion store agentId + 1
  | .revoke agentId bindingId => ∃ r ∈ store, r.catalogAgentId = agentId ∧ r.bindingId = bindingId

def Accepts (store : List RuntimeBinding) (op : Op) : Prop :=
  ∃ store', op.apply store = .ok store'

/-- A first bind or an enrollment bind finds an active binding of the agent, or no row at all. -/
def NotAfterRevocation (store : List RuntimeBinding) : Op → Prop
  | .create agentId _ _ | .enroll agentId _ _ _ =>
    currentActiveBinding store agentId ≠ none ∨ rowsOf store agentId = []
  | .confirm _ _ _ | .revoke _ _ => True

end KiwiCatalog.Binding
