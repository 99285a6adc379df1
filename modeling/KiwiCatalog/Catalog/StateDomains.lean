import KiwiCatalog.Trust.Rows

/-!
# State domains — three orthogonal domains and the legacy status they fold to

`verification_status` is a projection for the consumers of the older interface; evidence, freshness
and administration each have a column of their own.
-/

set_option autoImplicit false

namespace KiwiCatalog.Catalog

open Trust (AdministrativeState)

inductive VerificationLevel
  | discovered
  | profileValid
  | domainVerified
  | agentVerified
  | commerceVerified
  deriving DecidableEq, Repr

inductive FreshnessState
  | fresh
  | stale
  | unreachable
  deriving DecidableEq, Repr

/-- The values that the CHECK of `verification_status` allows. -/
inductive VerificationStatus
  | level (level : VerificationLevel)
  | stale
  | unreachable
  | suspended
  | rejected
  deriving DecidableEq, Repr

/-- `rejected > suspended > unreachable > stale > verification_level`. -/
def foldVerificationStatus (level : VerificationLevel) (freshness : FreshnessState)
    (administrative : AdministrativeState) : VerificationStatus :=
  if administrative = .rejected then .rejected
  else if administrative = .suspended then .suspended
  else if freshness = .unreachable then .unreachable
  else if freshness = .stale then .stale
  else .level level

structure Domains where
  level : VerificationLevel
  freshness : FreshnessState
  administrative : AdministrativeState
  deriving DecidableEq, Repr

def Domains.fold (d : Domains) : VerificationStatus :=
  foldVerificationStatus d.level d.freshness d.administrative

/-- `_domains_for_legacy_status`; its last branch is for texts that the CHECK refuses. -/
def domainsForLegacyStatus : VerificationStatus → Domains
  | .level level => ⟨level, .fresh, .active⟩
  | .stale => ⟨.discovered, .stale, .active⟩
  | .unreachable => ⟨.discovered, .unreachable, .active⟩
  | .suspended => ⟨.discovered, .fresh, .suspended⟩
  | .rejected => ⟨.discovered, .fresh, .rejected⟩

/-- The derived domains fold back to the status they were derived from. -/
@[simp] theorem fold_domainsForLegacyStatus (status : VerificationStatus) :
    (domainsForLegacyStatus status).fold = status := by
  cases status <;> rfl

/-- An agent that is not in good standing is never projected as anything else. -/
theorem fold_of_not_active {d : Domains} (h : d.administrative ≠ .active) :
    d.fold = .suspended ∨ d.fold = .rejected := by
  unfold Domains.fold foldVerificationStatus
  cases hadmin : d.administrative with
  | active => exact absurd hadmin h
  | suspended => exact .inl rfl
  | rejected => exact .inr rfl

end KiwiCatalog.Catalog
