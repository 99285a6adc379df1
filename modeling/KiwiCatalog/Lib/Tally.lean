import Mathlib.Algebra.Ring.Nat
import Mathlib.Data.List.Induction
import Mathlib.Data.List.Nodup

/-!
# Tally — counters by key

An amount is added to the counter of its key, and a key that is new starts with it.  Whatever the
order of the amounts, the sums over keys are the sums over the amounts.
-/

set_option autoImplicit false

namespace Tally

variable {κ ω : Type} [DecidableEq κ] [Add ω]

/-- `rows.setdefault(key, 0)`, and the amount added. -/
def bump (key : κ) (amount : ω) (rows : List (κ × ω)) : List (κ × ω) :=
  if rows.any fun row => row.1 = key then
    rows.map fun row => if row.1 = key then (row.1, row.2 + amount) else row
  else rows ++ [(key, amount)]

def bumpAll (rows entries : List (κ × ω)) : List (κ × ω) :=
  entries.foldl (fun rows entry => bump entry.1 entry.2 rows) rows

def tally (entries : List (κ × ω)) : List (κ × ω) := bumpAll [] entries

/-- A sum over the rows of some keys. -/
def total {κ ω : Type} (f : ω → Nat) (p : κ → Bool) (rows : List (κ × ω)) : Nat :=
  ((rows.filter fun row => p row.1).map fun row => f row.2).sum

theorem tally_append (entries more : List (κ × ω)) :
    tally (entries ++ more) = bumpAll (tally entries) more :=
  List.foldl_append ..

theorem tally_concat (entries : List (κ × ω)) (entry : κ × ω) :
    tally (entries ++ [entry]) = bump entry.1 entry.2 (tally entries) :=
  tally_append entries [entry]

/-! ## Keys -/

theorem keys_bump (key : κ) (amount : ω) (rows : List (κ × ω)) :
    (bump key amount rows).map Prod.fst =
      if key ∈ rows.map Prod.fst then rows.map Prod.fst else rows.map Prod.fst ++ [key] := by
  have hany : (rows.any fun row => row.1 = key) = true ↔ key ∈ rows.map Prod.fst := by
    simp [List.any_eq_true]
  unfold bump
  by_cases hkey : key ∈ rows.map Prod.fst
  · rw [if_pos (hany.mpr hkey), if_pos hkey, List.map_map]
    apply List.map_congr_left
    intro row _
    show (if row.1 = key then (row.1, row.2 + amount) else row).1 = row.1
    split <;> rfl
  · rw [if_neg (fun h => hkey (hany.mp h)), if_neg hkey, List.map_append]
    rfl

theorem mem_keys_bump {key other : κ} {amount : ω} {rows : List (κ × ω)} :
    other ∈ (bump key amount rows).map Prod.fst ↔ other ∈ rows.map Prod.fst ∨ other = key := by
  rw [keys_bump]
  split
  · rename_i hkey
    constructor
    · exact .inl
    · rintro (h | rfl)
      · exact h
      · exact hkey
  · rw [List.mem_append, List.mem_singleton]

theorem nodup_bump {key : κ} {amount : ω} {rows : List (κ × ω)}
    (h : (rows.map Prod.fst).Nodup) : ((bump key amount rows).map Prod.fst).Nodup := by
  rw [keys_bump]
  split
  · exact h
  · rename_i hkey
    exact List.nodup_append.mpr ⟨h, List.nodup_singleton key, by
      intro a ha b hb heq
      rw [List.mem_singleton.mp hb] at heq
      exact hkey (heq ▸ ha)⟩

theorem nodup_tally (entries : List (κ × ω)) : ((tally entries).map Prod.fst).Nodup := by
  induction entries using List.reverseRecOn with
  | nil => exact List.nodup_nil
  | append_singleton entries entry ih =>
    rw [tally_concat]
    exact nodup_bump ih

theorem mem_keys_tally {key : κ} {entries : List (κ × ω)} :
    key ∈ (tally entries).map Prod.fst ↔ key ∈ entries.map Prod.fst := by
  induction entries using List.reverseRecOn with
  | nil => exact Iff.rfl
  | append_singleton entries entry ih =>
    rw [tally_concat, mem_keys_bump, ih, List.map_append, List.mem_append, List.map_singleton,
      List.mem_singleton]

/-! ## Sums -/

theorem total_cons {κ ω : Type} (f : ω → Nat) (p : κ → Bool) (row : κ × ω)
    (rows : List (κ × ω)) :
    total f p (row :: rows) = (if p row.1 then f row.2 else 0) + total f p rows := by
  unfold total
  rw [List.filter_cons]
  split
  · rw [List.map_cons, List.sum_cons]
  · rw [Nat.zero_add]

theorem total_append {κ ω : Type} (f : ω → Nat) (p : κ → Bool) (rows more : List (κ × ω)) :
    total f p (rows ++ more) = total f p rows + total f p more := by
  unfold total
  rw [List.filter_append, List.map_append, List.sum_append]

theorem total_filter {κ ω : Type} (f : ω → Nat) (p q : κ → Bool) (rows : List (κ × ω)) :
    total f p (rows.filter fun row => q row.1) = total f (fun key => p key && q key) rows := by
  unfold total
  rw [List.filter_filter]

/-- A sum over rows that are made of others. -/
theorem total_map {κ ω κ' ω' : Type} {f : ω → Nat} {p : κ → Bool} {f' : ω' → Nat} {p' : κ' → Bool}
    {g : κ' × ω' → κ × ω}
    (h : ∀ row, (if p (g row).1 then f (g row).2 else 0) = if p' row.1 then f' row.2 else 0)
    (rows : List (κ' × ω')) : total f p (rows.map g) = total f' p' rows := by
  induction rows with
  | nil => rfl
  | cons row rows ih => rw [List.map_cons, total_cons, total_cons, ih, h row]

/-- An amount adds to the sums that its key is in. -/
theorem total_bump {f : ω → Nat} (hf : ∀ a b, f (a + b) = f a + f b) (p : κ → Bool) (key : κ)
    (amount : ω) {rows : List (κ × ω)} (h : (rows.map Prod.fst).Nodup) :
    total f p (bump key amount rows) = total f p rows + if p key then f amount else 0 := by
  unfold bump
  split
  · rename_i hany
    induction rows with
    | nil => cases hany
    | cons row rows ih =>
      rw [List.map_cons, List.nodup_cons] at h
      rw [List.map_cons, total_cons, total_cons]
      by_cases hrow : row.1 = key
      · -- no other row has the key
        have hrest : (rows.map fun r => if r.1 = key then (r.1, r.2 + amount) else r) = rows := by
          conv_rhs => rw [← List.map_id rows]
          apply List.map_congr_left
          intro r hr
          rw [if_neg]
          · rfl
          · intro heq
            exact h.1 (hrow ▸ heq ▸ List.mem_map_of_mem hr)
        rw [hrest, if_pos hrow, hrow, hf]
        split <;> omega
      · have hmore : (rows.any fun r => r.1 = key) = true := by
          rw [List.any_cons, decide_eq_false hrow, Bool.false_or] at hany
          exact hany
        rw [if_neg hrow, ih h.2 hmore]
        omega
  · rw [total_append, total_cons]
    rfl

theorem total_tally {f : ω → Nat} (hf : ∀ a b, f (a + b) = f a + f b) (p : κ → Bool)
    (entries : List (κ × ω)) : total f p (tally entries) = total f p entries := by
  induction entries using List.reverseRecOn with
  | nil => rfl
  | append_singleton entries entry ih =>
    rw [tally_concat, total_bump hf p _ _ (nodup_tally entries), ih, total_append, total_cons]
    rfl

/-- The sum of one key is its counter. -/
theorem total_key {κ ω : Type} [DecidableEq κ] (f : ω → Nat) {rows : List (κ × ω)}
    (h : (rows.map Prod.fst).Nodup) {row : κ × ω} (hrow : row ∈ rows) :
    total f (fun key => key = row.1) rows = f row.2 := by
  have hnone : ∀ others : List (κ × ω), row.1 ∉ others.map Prod.fst →
      total f (fun key => key = row.1) others = 0 := by
    intro others hothers
    unfold total
    rw [List.filter_eq_nil_iff.mpr]
    · rfl
    · intro other hother heq
      exact hothers (of_decide_eq_true heq ▸ List.mem_map_of_mem hother)
  induction rows with
  | nil => cases hrow
  | cons other rows ih =>
    rw [List.map_cons, List.nodup_cons] at h
    rw [total_cons]
    rcases List.mem_cons.mp hrow with rfl | hmem
    · rw [if_pos (decide_eq_true rfl), hnone rows h.1, Nat.add_zero]
    · have hne : other.1 ≠ row.1 := fun heq => h.1 (heq ▸ List.mem_map_of_mem hmem)
      rw [if_neg (by simpa using hne), ih h.2 hmem, Nat.zero_add]

end Tally
