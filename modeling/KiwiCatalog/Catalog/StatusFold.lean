import KiwiCatalog.Catalog.AgentWriters
import KiwiCatalog.Lib.Transition

/-!
# StatusFold — `verification_status` stays the fold of the three domains

Every public writer keeps the projection.  The update below them keeps it where the fields that it
is given and those that it leaves alone fold to the status that it writes.
-/

set_option autoImplicit false

namespace KiwiCatalog.Catalog

open Trust (AdministrativeState)
open Checks Transition

/-! ## Texts -/

theorem VerificationLevel.ofText?_text (value : VerificationLevel) :
    VerificationLevel.ofText? value.text = some value := by
  cases value <;> rfl

theorem FreshnessState.ofText?_text (value : FreshnessState) :
    FreshnessState.ofText? value.text = some value := by
  cases value <;> rfl

theorem administrativeOfText?_text (value : AdministrativeState) :
    administrativeOfText? (administrativeText value) = some value := by
  cases value <;> rfl

theorem VerificationLevel.text_of {text : String} {value : VerificationLevel}
    (h : VerificationLevel.ofText? text = some value) : text = value.text := by
  unfold VerificationLevel.ofText? at h
  split at h <;> cases h <;> rfl

theorem FreshnessState.text_of {text : String} {value : FreshnessState}
    (h : FreshnessState.ofText? text = some value) : text = value.text := by
  unfold FreshnessState.ofText? at h
  split at h <;> cases h <;> rfl

theorem administrativeText_of {text : String} {value : AdministrativeState}
    (h : administrativeOfText? text = some value) : text = administrativeText value := by
  unfold administrativeOfText? at h
  split at h <;> cases h <;> rfl

/-- The fold of the domains that are given, an absent one being the empty text. -/
def foldGiven (level : Option VerificationLevel) (freshness : Option FreshnessState)
    (administrative : Option AdministrativeState) : Option VerificationStatus :=
  if administrative = some .rejected then some .rejected
  else if administrative = some .suspended then some .suspended
  else if freshness = some .unreachable then some .unreachable
  else if freshness = some .stale then some .stale
  else level.map VerificationStatus.level

theorem ofText?_foldText (level : Option VerificationLevel) (freshness : Option FreshnessState)
    (administrative : Option AdministrativeState) :
    VerificationStatus.ofText? (foldText ((level.map VerificationLevel.text).getD "")
      ((freshness.map FreshnessState.text).getD "")
      ((administrative.map administrativeText).getD "")) =
        foldGiven level freshness administrative := by
  rcases level with _ | _ | _ | _ | _ | _ <;> rcases freshness with _ | _ | _ | _ <;>
    rcases administrative with _ | _ | _ | _ <;> rfl

theorem foldGiven_some (d : Domains) :
    foldGiven (some d.level) (some d.freshness) (some d.administrative) = some d.fold := by
  obtain ⟨level, freshness, administrative⟩ := d
  cases freshness <;> cases administrative <;> rfl

/-! ## When the update keeps the fold -/

/-- The row projects its domains. -/
def Folded (row : AgentRow) : Prop := row.verificationStatus = row.domains.fold

/-- `stale` and `unreachable` say nothing of the level, `suspended` and `rejected` nothing of the
level and the freshness. -/
def VerificationStatus.aboutLevel : VerificationStatus → Bool
  | .level _ => true
  | _ => false

def VerificationStatus.aboutFreshness : VerificationStatus → Bool
  | .suspended | .rejected => false
  | _ => true

/-- The domain is not passed with the status, or what the column will hold is what the status
stands for. -/
def Agrees {α : Type} (ofText? : String → Option α) (fields : Dict) (column : String)
    (stored wanted : α) : Prop :=
  fields.get? column = none ∨ stateColumn ofText? fields column stored = some wanted

/-- A status that is written comes with domains that it stands for. -/
def ClearStatus (fields : Dict) (status : VerificationStatus) (stored : Domains) : Prop :=
  Agrees administrativeOfText? fields "administrative_state" stored.administrative
      (domainsForLegacyStatus status).administrative ∧
    (status.aboutFreshness = true →
      Agrees FreshnessState.ofText? fields "freshness_state" stored.freshness
        (domainsForLegacyStatus status).freshness) ∧
    (status.aboutLevel = true →
      Agrees VerificationLevel.ofText? fields "verification_level" stored.level
        (domainsForLegacyStatus status).level)

/-- Of domains that are written without a status, each one that is left out and outranks the one
that decides is stored neutral. -/
def ClearDomains (fields : Dict) (stored : Domains) : Prop :=
  strOrEmpty fields "administrative_state" = "rejected" ∨
    strOrEmpty fields "administrative_state" = "suspended" ∨
    (given? fields "administrative_state" = none → stored.administrative = .active) ∧
      (strOrEmpty fields "freshness_state" = "unreachable" ∨
        strOrEmpty fields "freshness_state" = "stale" ∨
        (given? fields "freshness_state" = none → stored.freshness = .fresh))

def ClearFields (fields : Dict) (stored : Domains) : Prop :=
  match given? fields "verification_status" with
  | some (.text text) => ∀ status, VerificationStatus.ofText? text = some status →
      ClearStatus fields status stored
  | some _ => True
  | none => (has fields "verification_level" || has fields "freshness_state" ||
      has fields "administrative_state") = true → ClearDomains fields stored

/-- What the status stands for is what folds to it. -/
theorem fold_eq_iff (status : VerificationStatus) (d : Domains) :
    status = d.fold ↔ d.administrative = (domainsForLegacyStatus status).administrative ∧
      (status.aboutFreshness = true → d.freshness = (domainsForLegacyStatus status).freshness) ∧
      (status.aboutLevel = true → d.level = (domainsForLegacyStatus status).level) := by
  obtain ⟨level, freshness, administrative⟩ := d
  cases status <;> cases freshness <;> cases administrative <;>
    simp [Domains.fold, foldVerificationStatus, domainsForLegacyStatus,
      VerificationStatus.aboutFreshness, VerificationStatus.aboutLevel, eq_comm]

/-- A partial fold is the fold of the whole row exactly when what is left out is neutral. -/
theorem foldGiven_eq_iff {level : Option VerificationLevel} {freshness : Option FreshnessState}
    {administrative : Option AdministrativeState} {status : VerificationStatus} (stored : Domains)
    (h : foldGiven level freshness administrative = some status) :
    status = Domains.fold ⟨level.getD stored.level, freshness.getD stored.freshness,
        administrative.getD stored.administrative⟩ ↔
      administrative = some .rejected ∨ administrative = some .suspended ∨
        (administrative = none → stored.administrative = .active) ∧
          (freshness = some .unreachable ∨ freshness = some .stale ∨
            (freshness = none → stored.freshness = .fresh)) := by
  obtain ⟨level₀, freshness₀, administrative₀⟩ := stored
  rcases administrative with _ | _ | _ | _ <;> rcases freshness with _ | _ | _ | _ <;>
    cases level <;> cases h <;> cases administrative₀ <;> cases freshness₀ <;>
      simp [Domains.fold, foldVerificationStatus]

/-! ## The columns after an update -/

section Columns

variable {α : Type} {ofText? : String → Option α} {text : α → String} {fields : Dict}
  {column key value : String} {old new wanted : α}

theorem given?_set_of_ne (h : key ≠ column) :
    given? (fields.set key (.text value)) column = given? fields column := by
  unfold given?
  rw [Dict.get?_set, if_neg h]

theorem given?_set_self : given? (fields.set key (.text value)) key = some (.text value) := by
  unfold given?
  rw [Dict.get?_set, if_pos rfl]

theorem stateColumn_set_of_ne (h : key ≠ column) :
    stateColumn ofText? (fields.set key (.text value)) column old =
      stateColumn ofText? fields column old := by
  unfold stateColumn
  rw [given?_set_of_ne h]

theorem stateColumn_set_self :
    stateColumn ofText? (fields.set key (.text value)) key old = ofText? value := by
  unfold stateColumn
  rw [given?_set_self]

theorem get?_setDefault_of_ne (h : key ≠ column) :
    (setDefault key (.text value) fields).get? column = fields.get? column := by
  unfold setDefault
  split
  · rfl
  · rw [Dict.get?_set, if_neg h]

theorem stateColumn_setDefault_of_ne (h : key ≠ column) :
    stateColumn ofText? (setDefault key (.text value) fields) column old =
      stateColumn ofText? fields column old := by
  unfold stateColumn given?
  rw [get?_setDefault_of_ne h]

/-- What a domain column holds when the status is written: it agrees with the status exactly when
it is what the status stands for. -/
theorem agrees_iff (htext : ofText? (text wanted) = some wanted)
    (h : stateColumn ofText? (setDefault column (.text (text wanted)) fields) column old =
      some new) :
    new = wanted ↔ Agrees ofText? fields column old wanted := by
  unfold setDefault at h
  split at h
  · rename_i hhas
    have hsome : fields.get? column ≠ none := Option.isSome_iff_ne_none.mp hhas
    unfold Agrees
    rw [h]
    constructor
    · intro heq
      exact .inr (congrArg some heq)
    · intro hagrees
      rcases hagrees with hnone | heq
      · exact absurd hnone hsome
      · exact Option.some.inj heq
  · rename_i hhas
    rw [stateColumn_set_self, htext] at h
    apply iff_of_true (Option.some.inj h).symm
    exact .inl (Option.not_isSome_iff_eq_none.mp hhas)

/-- A domain column after an update: what was supplied, or what was stored. -/
theorem stateColumn_supplied (htext : ∀ {t value}, ofText? t = some value → t = text value)
    (h : stateColumn ofText? fields column old = some new) :
    ∃ supplied : Option α, new = supplied.getD old ∧
      strOrEmpty fields column = (supplied.map text).getD "" ∧
      (given? fields column = none ↔ supplied = none) := by
  unfold stateColumn at h
  split at h
  · rename_i hnone
    refine ⟨none, (Option.some.inj h).symm, ?_, iff_of_true hnone rfl⟩
    unfold given? at hnone
    unfold strOrEmpty
    split at hnone
    · rename_i hnull
      rw [hnull]
      rfl
    · rw [hnone]
      rfl
  · rename_i value hgiven
    refine ⟨some new, rfl, ?_, by rw [hgiven]; simp⟩
    have hget : fields.get? column = some (.text value) := by
      unfold given? at hgiven
      split at hgiven
      · cases hgiven
      · exact hgiven
    unfold strOrEmpty
    rw [hget]
    exact htext h
  · cases h

end Columns

/-- The state columns that an update with these fields leaves. -/
structure StateWritten (fields : Dict) (row row' : AgentRow) : Prop where
  status : stateColumn VerificationStatus.ofText? fields "verification_status"
    row.verificationStatus = some row'.verificationStatus
  level : stateColumn VerificationLevel.ofText? fields "verification_level"
    row.domains.level = some row'.domains.level
  freshness : stateColumn FreshnessState.ofText? fields "freshness_state"
    row.domains.freshness = some row'.domains.freshness
  administrative : stateColumn administrativeOfText? fields "administrative_state"
    row.domains.administrative = some row'.domains.administrative

theorem storeRow_ok {db : Database} {id : String} {row : AgentRow} {table table' : AgentTable}
    (h : storeRow db id row table = .ok table') : table' = Function.update table id (some row) := by
  unfold storeRow at h
  split at h
  · exact (Except.ok.inj h).symm
  · cases h

theorem stampVerified_column {α : Type} {ofText? : String → Option α} {now column : String}
    {fields : Dict} {old : α} (h : column ∈ stateColumns) :
    stateColumn ofText? (stampVerified now fields) column old =
      stateColumn ofText? fields column old := by
  unfold stampVerified
  split
  · apply stateColumn_set_of_ne
    intro heq
    rw [← heq] at h
    exact absurd h (by decide)
  · rfl

theorem updateCatalogAgent_ok {db : Database} {now id : String} {fields : Dict}
    {table table' : AgentTable} (h : updateCatalogAgent db now id fields table = .ok table') :
    ∃ row row', table id = some row ∧ table' = Function.update table id (some row') ∧
      StateWritten (deriveState fields) row row' := by
  unfold updateCatalogAgent at h
  split at h
  · cases h
  · rename_i row hrow
    dsimp only at h
    split at h
    · rename_i hnone
      have hkept : ∀ column ∈ stateColumns,
          given? (stampVerified now (deriveState fields)) column = none := by
        intro column hcolumn
        have hmem : column ∈ stateColumns ++ otherColumns := List.mem_append_left _ hcolumn
        exact Option.isNone_iff_eq_none.mp (List.all_eq_true.mp hnone column hmem)
      have hstored : ∀ {α : Type} (ofText? : String → Option α) (column : String) (old : α),
          column ∈ stateColumns → stateColumn ofText? (deriveState fields) column old = some old := by
        intro α ofText? column old hcolumn
        rw [← stampVerified_column hcolumn]
        unfold stateColumn
        rw [hkept column hcolumn]
      refine ⟨row, row, hrow, ?_, hstored _ _ _ (by decide), hstored _ _ _ (by decide),
        hstored _ _ _ (by decide), hstored _ _ _ (by decide)⟩
      rw [← hrow, Function.update_eq_self]
      exact (Except.ok.inj h).symm
    · split at h
      · rename_i status level freshness administrative hstatus hlevel hfreshness hadministrative
        refine ⟨row, _, hrow, storeRow_ok h, ?_, ?_, ?_, ?_⟩
        · rw [← stampVerified_column (by decide)]
          exact hstatus
        · rw [← stampVerified_column (by decide)]
          exact hlevel
        · rw [← stampVerified_column (by decide)]
          exact hfreshness
        · rw [← stampVerified_column (by decide)]
          exact hadministrative
      · cases h

/-! ## The update -/

/-- With a status: the domains that it leaves agree with it. -/
theorem folded_of_status {fields : Dict} {value : Value} {row row' : AgentRow}
    (hgiven : given? fields "verification_status" = some value)
    (h : StateWritten (deriveState fields) row row') :
    Folded row' ↔ ClearFields fields row.domains := by
  obtain ⟨hstatus, hlevel, hfreshness, hadministrative⟩ := h
  unfold deriveState at hstatus hlevel hfreshness hadministrative
  rw [hgiven] at hstatus hlevel hfreshness hadministrative
  dsimp only at hstatus hlevel hfreshness hadministrative
  rw [stateColumn_setDefault_of_ne (by decide), stateColumn_setDefault_of_ne (by decide),
    stateColumn_setDefault_of_ne (by decide)] at hstatus
  rw [stateColumn_setDefault_of_ne (by decide), stateColumn_setDefault_of_ne (by decide)] at hlevel
  rw [stateColumn_setDefault_of_ne (by decide)] at hfreshness
  unfold stateColumn at hstatus
  rw [hgiven] at hstatus
  unfold ClearFields
  rw [hgiven]
  cases value with
  | text text =>
    dsimp only at hstatus ⊢
    unfold domainsForLegacyValue at hlevel hfreshness hadministrative
    dsimp only at hlevel hfreshness hadministrative
    rw [hstatus] at hlevel hfreshness hadministrative ⊢
    dsimp only at hlevel hfreshness hadministrative
    -- the defaults that were set before do not touch the column of the next one
    have hagreesLevel := agrees_iff (VerificationLevel.ofText?_text _) hlevel
    have hagreesFreshness := agrees_iff (FreshnessState.ofText?_text _) hfreshness
    have hagreesAdministrative := agrees_iff (administrativeOfText?_text _) hadministrative
    unfold Agrees at hagreesLevel hagreesFreshness hagreesAdministrative
    rw [get?_setDefault_of_ne (by decide), stateColumn_setDefault_of_ne (by decide)]
      at hagreesFreshness
    rw [get?_setDefault_of_ne (by decide), get?_setDefault_of_ne (by decide),
      stateColumn_setDefault_of_ne (by decide), stateColumn_setDefault_of_ne (by decide)]
      at hagreesAdministrative
    unfold Folded
    rw [fold_eq_iff, hagreesLevel, hagreesFreshness, hagreesAdministrative]
    constructor
    · intro hclear status heq
      rw [← Option.some.inj heq]
      exact hclear
    · intro hclear
      exact hclear _ rfl
  | null | bool _ | int _ | other _ => cases hstatus

/-- With domains only: what is left out is neutral where it would decide. -/
theorem folded_of_domains {fields : Dict} {row row' : AgentRow}
    (hgiven : given? fields "verification_status" = none)
    (hdomains : (has fields "verification_level" || has fields "freshness_state" ||
      has fields "administrative_state") = true)
    (h : StateWritten (deriveState fields) row row') :
    Folded row' ↔ ClearFields fields row.domains := by
  obtain ⟨hstatus, hlevel, hfreshness, hadministrative⟩ := h
  unfold deriveState at hstatus hlevel hfreshness hadministrative
  rw [hgiven] at hstatus hlevel hfreshness hadministrative
  dsimp only at hstatus hlevel hfreshness hadministrative
  rw [if_pos hdomains] at hstatus hlevel hfreshness hadministrative
  rw [stateColumn_set_self] at hstatus
  rw [stateColumn_set_of_ne (by decide)] at hlevel hfreshness hadministrative
  obtain ⟨level, hlevelNew, hlevelText, -⟩ :=
    stateColumn_supplied VerificationLevel.text_of hlevel
  obtain ⟨freshness, hfreshnessNew, hfreshnessText, hfreshnessNone⟩ :=
    stateColumn_supplied FreshnessState.text_of hfreshness
  obtain ⟨administrative, hadminNew, hadminText, hadminNone⟩ :=
    stateColumn_supplied administrativeText_of hadministrative
  rw [hlevelText, hfreshnessText, hadminText, ofText?_foldText] at hstatus
  have hrow : row'.domains = ⟨level.getD row.domains.level,
      freshness.getD row.domains.freshness, administrative.getD row.domains.administrative⟩ := by
    rw [← hlevelNew, ← hfreshnessNew, ← hadminNew]
  unfold Folded ClearFields
  rw [hgiven, hrow, foldGiven_eq_iff row.domains hstatus]
  dsimp only
  rw [hdomains]
  unfold ClearDomains
  rw [hfreshnessText, hadminText, hfreshnessNone, hadminNone]
  have hadminEq : ∀ value : AdministrativeState, administrative = some value ↔
      (administrative.map administrativeText).getD "" = administrativeText value := by
    intro value
    rcases administrative with _ | _ | _ | _ <;> cases value <;> decide
  have hfreshnessEq : ∀ value : FreshnessState, freshness = some value ↔
      (freshness.map FreshnessState.text).getD "" = value.text := by
    intro value
    rcases freshness with _ | _ | _ | _ <;> cases value <;> decide
  rw [hadminEq .rejected, hadminEq .suspended, hfreshnessEq .unreachable, hfreshnessEq .stale]
  exact ⟨fun hclear _ => hclear, fun hclear => hclear rfl⟩

theorem folded_of_others {fields : Dict} {row row' : AgentRow} (hrow : Folded row)
    (hgiven : given? fields "verification_status" = none)
    (hdomains : (has fields "verification_level" || has fields "freshness_state" ||
      has fields "administrative_state") = false)
    (h : StateWritten (deriveState fields) row row') :
    Folded row' ↔ ClearFields fields row.domains := by
  have hderive : deriveState fields = fields := by
    unfold deriveState
    rw [hgiven]
    dsimp only
    rw [hdomains]
    rfl
  rw [hderive] at h
  obtain ⟨hstatus, hlevel, hfreshness, hadministrative⟩ := h
  rw [Bool.or_eq_false_iff, Bool.or_eq_false_iff] at hdomains
  have hkept : ∀ {α : Type} {ofText? : String → Option α} {column : String} {old new : α},
      has fields column = false → stateColumn ofText? fields column old = some new → new = old := by
    intro α ofText? column old new hnot hcolumn
    have hnone : given? fields column = none := by
      unfold given?
      rw [Option.not_isSome_iff_eq_none.mp (Bool.eq_false_iff.mp hnot)]
    unfold stateColumn at hcolumn
    rw [hnone] at hcolumn
    exact (Option.some.inj hcolumn).symm
  have hstatusKept : row'.verificationStatus = row.verificationStatus := by
    unfold stateColumn at hstatus
    rw [hgiven] at hstatus
    exact (Option.some.inj hstatus).symm
  have hdomainsKept : row'.domains = row.domains := by
    have hlevelKept := hkept hdomains.1.1 hlevel
    have hfreshnessKept := hkept hdomains.1.2 hfreshness
    have hadministrativeKept := hkept hdomains.2 hadministrative
    show (⟨row'.domains.level, row'.domains.freshness, row'.domains.administrative⟩ : Domains) = _
    rw [hlevelKept, hfreshnessKept, hadministrativeKept]
  apply iff_of_true
  · unfold Folded
    rw [hstatusKept, hdomainsKept]
    exact hrow
  · unfold ClearFields
    rw [hgiven]
    dsimp only
    rw [hdomains.1.1, hdomains.1.2, hdomains.2]
    intro hfalse
    cases hfalse

/-- The update keeps the fold of a row exactly for clear fields. -/
theorem folded_update_iff {fields : Dict} {row row' : AgentRow} (hrow : Folded row)
    (h : StateWritten (deriveState fields) row row') :
    Folded row' ↔ ClearFields fields row.domains := by
  cases hgiven : given? fields "verification_status" with
  | some value => exact folded_of_status hgiven h
  | none =>
    cases hdomains : has fields "verification_level" || has fields "freshness_state" ||
        has fields "administrative_state" with
    | true => exact folded_of_domains hgiven hdomains h
    | false => exact folded_of_others hrow hgiven hdomains h

/-! ## The writers -/

def FoldedTable (table : AgentTable) : Prop := ∀ id row, table id = some row → Folded row

section Writers

variable {db : Database} {now id : String} {table table' : AgentTable}

theorem foldedTable_update {row : AgentRow} (h : FoldedTable table) (hrow : Folded row) :
    FoldedTable (Function.update table id (some row)) := by
  intro id' row' hlookup
  by_cases hid : id' = id
  · rw [hid, Function.update_self] at hlookup
    rw [← Option.some.inj hlookup]
    exact hrow
  · rw [Function.update_of_ne hid] at hlookup
    exact h id' row' hlookup

theorem foldedTable_insert {args : AgentArgs} (h : FoldedTable table)
    (hwrite : insertCatalogAgent db now id args table = .ok table') : FoldedTable table' := by
  unfold insertCatalogAgent at hwrite
  split at hwrite
  · rename_i status hfree hstatus
    rw [storeRow_ok hwrite]
    apply foldedTable_update h
    show status = (domainsForLegacyValue (.text args.verificationStatus)).fold
    unfold domainsForLegacyValue
    dsimp only
    rw [hstatus]
    exact (fold_domainsForLegacyStatus status).symm
  · cases hwrite
  · cases hwrite

theorem foldedTable_updateCatalogAgent {fields : Dict} (h : FoldedTable table)
    (hclear : ∀ row, table id = some row → ClearFields fields row.domains)
    (hwrite : updateCatalogAgent db now id fields table = .ok table') : FoldedTable table' := by
  obtain ⟨row, row', hrow, htable, hwritten⟩ := updateCatalogAgent_ok hwrite
  rw [htable]
  apply foldedTable_update h
  exact (folded_update_iff (h id row hrow) hwritten).mpr (hclear row hrow)

/-- An upsert passes a status and no domains. -/
theorem clearFields_upsert (args : AgentArgs) (stored : Domains) :
    ClearFields (args.fields now) stored := by
  intro status _
  exact ⟨.inl rfl, fun _ => .inl rfl, fun _ => .inl rfl⟩

theorem foldedTable_upsert {args : AgentArgs} (h : FoldedTable table)
    (hwrite : upsertCatalogAgent db now id args table = .ok table') : FoldedTable table' := by
  unfold upsertCatalogAgent at hwrite
  split at hwrite
  · exact foldedTable_insert h hwrite
  · exact foldedTable_updateCatalogAgent h (fun row _ => clearFields_upsert args row.domains) hwrite

/-- `set_state_domains` passes all three domains and their fold. -/
theorem clearFields_setStateDomains (args : StateArgs) (d stored : Domains) :
    ClearFields (args.fields db d) stored := by
  intro status hstatus
  have hfold := ofText?_foldText (some d.level) (some d.freshness) (some d.administrative)
  rw [foldGiven_some] at hfold
  have hsame : status = d.fold := Option.some.inj (hstatus.symm.trans hfold)
  obtain ⟨hadministrative, hfreshness, hlevel⟩ := (fold_eq_iff status d).mp hsame
  refine ⟨.inr ?_, fun habout => .inr ?_, fun habout => .inr ?_⟩
  · rw [← hadministrative]
    exact administrativeOfText?_text d.administrative
  · rw [← hfreshness habout]
    exact FreshnessState.ofText?_text d.freshness
  · rw [← hlevel habout]
    exact VerificationLevel.ofText?_text d.level

theorem foldedTable_setStateDomains {args : StateArgs} (h : FoldedTable table)
    (hwrite : setStateDomains db now id args table = .ok table') : FoldedTable table' := by
  obtain ⟨current, -, hwrite⟩ := require_bind hwrite
  obtain ⟨level, -, hwrite⟩ := bind_eq_ok hwrite
  obtain ⟨freshness, -, hwrite⟩ := bind_eq_ok hwrite
  obtain ⟨administrative, -, hwrite⟩ := bind_eq_ok hwrite
  obtain ⟨-, hwrite⟩ := check_bind hwrite
  exact foldedTable_updateCatalogAgent h
    (fun row _ => clearFields_setStateDomains args _ row.domains) hwrite

theorem foldedTable_touch (h : FoldedTable table)
    (hwrite : touchCatalogAgent db now id table = .ok table') : FoldedTable table' := by
  obtain ⟨current, hcurrent, hwrite⟩ := require_bind hwrite
  obtain ⟨seen, hseen, hwrite⟩ := bind_eq_ok hwrite
  have hfolded : FoldedTable seen := by
    rw [storeRow_ok hseen]
    exact foldedTable_update h (h id current hcurrent)
  split at hwrite
  · exact foldedTable_setStateDomains hfolded hwrite
  · rw [← Except.ok.inj hwrite]
    exact hfolded

theorem foldedTable_setMerchant {merchantId : String} (h : FoldedTable table)
    (hwrite : setCatalogAgentMerchant db now id merchantId table = .ok table') :
    FoldedTable table' := by
  apply foldedTable_updateCatalogAgent h _ hwrite
  intro row _ hfalse
  cases hfalse

/-- A registration leaves the row discovered. -/
theorem upsert_discovered {args : AgentArgs}
    (hwrite : upsertCatalogAgent db now id { args with verificationStatus := "discovered" } table =
      .ok table') :
    ∃ row, table' id = some row ∧ row.verificationStatus = .level .discovered := by
  unfold upsertCatalogAgent at hwrite
  split at hwrite
  · unfold insertCatalogAgent at hwrite
    split at hwrite
    · rename_i status hfree hstatus
      rw [storeRow_ok hwrite, Function.update_self]
      exact ⟨_, rfl, (Option.some.inj hstatus).symm⟩
    · cases hwrite
    · cases hwrite
  · obtain ⟨row, row', -, htable, hwritten⟩ := updateCatalogAgent_ok hwrite
    rw [htable, Function.update_self]
    exact ⟨row', rfl, (Option.some.inj hwritten.status).symm⟩

/-- A discovered row is in good standing: to reopen it changes nothing. -/
theorem reopen_discovered {row : AgentRow} (h : FoldedTable table) (hrow : table id = some row)
    (hstatus : row.verificationStatus = .level .discovered) : reopen id table = table := by
  have hactive : row.domains.administrative = .active := by
    have hfolded : row.verificationStatus = row.domains.fold := h id row hrow
    rw [hstatus] at hfolded
    exact ((fold_eq_iff _ _).mp hfolded).1
  unfold reopen
  rw [hrow]
  dsimp only
  have hsame : { row with domains := { row.domains with administrative := .active } } = row := by
    rw [← hactive]
  rw [hsame, ← hrow, Function.update_eq_self]

theorem foldedTable_register {args : AgentArgs} {types : List String} (h : FoldedTable table)
    (hwrite : registerCatalogAgent db now id args types table = .ok table') :
    FoldedTable table' := by
  obtain ⟨written, hupsert, hwrite⟩ := bind_eq_ok hwrite
  have hfolded := foldedTable_upsert h hupsert
  obtain ⟨row, hrow, hstatus⟩ := upsert_discovered hupsert
  rw [reopen_discovered hfolded hrow hstatus] at hwrite
  dsimp only at hwrite
  split at hwrite
  · rw [← Except.ok.inj hwrite]
    exact hfolded
  · obtain ⟨-, hwrite⟩ := check_bind hwrite
    exact foldedTable_setStateDomains hfolded hwrite

end Writers

/-! ## Any run of the writers -/

/-- A call of the update below the public writers passes clear fields. -/
def WriterCall.Clear (table : AgentTable) (id : String) : WriterCall → Prop
  | .update fields => ∀ row, table id = some row → ClearFields fields row.domains
  | _ => True

/-- A writer that succeeds; one that raises changes nothing. -/
def Writes (db : Database) (table table' : AgentTable) : Prop :=
  ∃ now id call, WriterCall.perform db now id table call = .ok table'

def ClearlyWrites (db : Database) (table table' : AgentTable) : Prop :=
  ∃ now id call, call.Clear table id ∧ WriterCall.perform db now id table call = .ok table'

theorem foldedTable_call {db : Database} {now id : String} {table table' : AgentTable}
    {call : WriterCall} (h : FoldedTable table)
    (hwrite : WriterCall.perform db now id table call = .ok table') :
    FoldedTable table' ↔ call.Clear table id := by
  cases call with
  | insert args => exact iff_of_true (foldedTable_insert h hwrite) trivial
  | update fields =>
    constructor
    · intro hfolded row hrow
      obtain ⟨row₀, row', hrow₀, htable, hwritten⟩ := updateCatalogAgent_ok hwrite
      rw [hrow] at hrow₀
      rw [← Option.some.inj hrow₀] at hwritten
      apply (folded_update_iff (h id row hrow) hwritten).mp
      apply hfolded id
      rw [htable, Function.update_self]
    · intro hclear
      exact foldedTable_updateCatalogAgent h hclear hwrite
  | upsert args => exact iff_of_true (foldedTable_upsert h hwrite) trivial
  | setVerificationStatus status lastVerifiedAt =>
    exact iff_of_true (foldedTable_setStateDomains h hwrite) trivial
  | touch => exact iff_of_true (foldedTable_touch h hwrite) trivial
  | setStateDomains args => exact iff_of_true (foldedTable_setStateDomains h hwrite) trivial
  | setMerchant merchantId => exact iff_of_true (foldedTable_setMerchant h hwrite) trivial
  | register args types => exact iff_of_true (foldedTable_register h hwrite) trivial

/-- The projection does not hide that an agent is suspended or rejected. -/
def Reported (row : AgentRow) : Prop :=
  row.domains.administrative ≠ .active →
    row.verificationStatus = .suspended ∨ row.verificationStatus = .rejected

theorem reported_of_folded {row : AgentRow} (h : Folded row) : Reported row := by
  intro hadministrative
  rw [h]
  exact fold_of_not_active hadministrative

/-- A writer keeps the projection of a table exactly when its fields are clear, and so every row
of a run of such writers is projected. -/
theorem status_fold_iff (db : Database) :
    (∀ now id table table' call, FoldedTable table →
      WriterCall.perform db now id table call = .ok table' →
        (FoldedTable table' ↔ call.Clear table id)) ∧
    ∀ table, Reachable FoldedTable (ClearlyWrites db) table →
      FoldedTable table ∧ ∀ id row, table id = some row → Reported row := by
  constructor
  · intro now id table table' call h hwrite
    exact foldedTable_call h hwrite
  · intro table hs
    have hpreserves : Preserves (ClearlyWrites db) FoldedTable := by
      intro table table' hstep h
      obtain ⟨now, id, call, hclear, hwrite⟩ := hstep
      exact (foldedTable_call h hwrite).mpr hclear
    have hfolded := reachable_invariant (fun _ h => h) hpreserves hs
    exact ⟨hfolded, fun id row hrow => reported_of_folded (hfolded id row hrow)⟩

/-! ## A suspension, and a stale agent that is suspended -/

def laxDatabase : Database := ⟨fun _ _ _ => true, fun _ => "[]"⟩

def verifiedAgent : AgentRow := ⟨.level .agentVerified, ⟨.agentVerified, .fresh, .active⟩, fun _ => .null⟩

def suspendedAgent : AgentRow := ⟨.suspended, ⟨.agentVerified, .fresh, .suspended⟩, fun _ => .null⟩

/-- A table with one row. -/
def single (row : AgentRow) : AgentTable := fun id => if id = "cagt_1" then some row else none

theorem foldedTable_single {row : AgentRow} (h : Folded row) : FoldedTable (single row) := by
  intro id row' hlookup
  unfold single at hlookup
  split at hlookup
  · rw [← Option.some.inj hlookup]
    exact h
  · cases hlookup

def suspension : WriterCall := .setStateDomains { administrativeState := some "suspended" }

/-- The suspended agent is reported as such, and keeps its level. -/
theorem suspension_reported : ∃ table row,
    WriterCall.perform laxDatabase "t1" "cagt_1" (single verifiedAgent) suspension = .ok table ∧
      table "cagt_1" = some row ∧ row.domains.level = .agentVerified ∧ Folded row := by
  have hwrite : ∃ table,
      WriterCall.perform laxDatabase "t1" "cagt_1" (single verifiedAgent) suspension = .ok table ∧
        ∃ row, table "cagt_1" = some row ∧ row.domains.level = .agentVerified :=
    ⟨_, rfl, _, rfl, rfl⟩
  obtain ⟨table, hperform, row, hrow, hlevel⟩ := hwrite
  have hfolded : FoldedTable (single verifiedAgent) := foldedTable_single rfl
  have hkept := (status_fold_iff laxDatabase).1 "t1" "cagt_1" (single verifiedAgent) table suspension
    hfolded hperform
  exact ⟨table, row, hperform, hrow, hlevel, hkept.mpr trivial "cagt_1" row hrow⟩

/-- Of the three domains only the freshness is passed, and a suspended agent is reported stale. -/
theorem suspended_reported_stale :
    ¬ ∀ table, Reachable FoldedTable (Writes laxDatabase) table →
      FoldedTable table ∧ ∀ id row, table id = some row → Reported row := by
  intro hall
  have hwrite : ∃ table, WriterCall.perform laxDatabase "t1" "cagt_1" (single suspendedAgent)
      (.update [("freshness_state", .text "stale")]) = .ok table ∧
        ∃ row, table "cagt_1" = some row ∧ row.verificationStatus = .stale ∧
          row.domains.administrative = .suspended :=
    ⟨_, rfl, _, rfl, rfl, rfl⟩
  obtain ⟨table, hperform, row, hrow, hstatus, hadministrative⟩ := hwrite
  have hstart : FoldedTable (single suspendedAgent) := foldedTable_single rfl
  have hs : Reachable FoldedTable (Writes laxDatabase) table :=
    reachable_step (reachable_init hstart) ⟨"t1", "cagt_1", _, hperform⟩
  have hreported := (hall table hs).2 "cagt_1" row hrow
  unfold Reported at hreported
  rw [hstatus, hadministrative] at hreported
  rcases hreported (by decide) with h | h
  · cases h
  · cases h

end KiwiCatalog.Catalog
