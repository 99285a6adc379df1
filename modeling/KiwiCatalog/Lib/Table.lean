import Mathlib.Data.List.Basic
import Mathlib.Data.List.Nodup

/-!
# Table — rows in a list, with the statements of a SQL table

A table is the list of its rows in insertion order.  A primary key is a function of the row;
`KeyUnique` says no two rows share one.
-/

set_option autoImplicit false

namespace Table

variable {ρ κ : Type*}

/-- `update … set f where p`. -/
def updateWhere (p : ρ → Bool) (f : ρ → ρ) (t : List ρ) : List ρ :=
  t.map fun r => if p r then f r else r

/-- `delete … where p`. -/
def deleteWhere (p : ρ → Bool) (t : List ρ) : List ρ :=
  t.filter fun r => !p r

section Keyed

variable [DecidableEq κ] (key : ρ → κ)

/-- `select … where key = k`. -/
def lookup (k : κ) (t : List ρ) : Option ρ :=
  t.find? fun r => decide (key r = k)

/-- `insert` under a primary key: `none` is the integrity error. -/
def insert? (r : ρ) (t : List ρ) : Option (List ρ) :=
  if t.any fun r' => decide (key r' = key r) then none else some (t ++ [r])

/-- Inserts one after the other, until one fails. -/
def insertAll? : List ρ → List ρ → Option (List ρ)
  | [], t => some t
  | r :: rows, t => (insert? key r t).bind (insertAll? rows)

/-- `delete … where p`, and the new rows behind what is left. -/
def replaceWhere? (p : ρ → Bool) (rows t : List ρ) : Option (List ρ) :=
  insertAll? key rows (deleteWhere p t)

/-- No two rows have the same key. -/
def KeyUnique (t : List ρ) : Prop := (t.map key).Nodup

end Keyed

theorem mem_updateWhere {p : ρ → Bool} {f : ρ → ρ} {t : List ρ} {r : ρ} :
    r ∈ updateWhere p f t ↔ ∃ r₀ ∈ t, (if p r₀ then f r₀ else r₀) = r := by
  simp only [updateWhere, List.mem_map]

theorem mem_updateWhere_of_not {p : ρ → Bool} {f : ρ → ρ} {t : List ρ} {r : ρ}
    (hr : r ∈ t) (hp : p r = false) : r ∈ updateWhere p f t :=
  mem_updateWhere.mpr ⟨r, hr, by simp [hp]⟩

theorem mem_updateWhere_of {p : ρ → Bool} {f : ρ → ρ} {t : List ρ} {r : ρ}
    (hr : r ∈ t) (hp : p r = true) : f r ∈ updateWhere p f t :=
  mem_updateWhere.mpr ⟨r, hr, by simp [hp]⟩

theorem updateWhere_congr {p : ρ → Bool} {f g : ρ → ρ} {t : List ρ}
    (h : ∀ r ∈ t, p r = true → f r = g r) : updateWhere p f t = updateWhere p g t := by
  apply List.map_congr_left
  intro r hr
  by_cases hp : p r = true
  · rw [if_pos hp, if_pos hp]
    exact h r hr hp
  · rw [if_neg hp, if_neg hp]

/-- Two updates, the second one of rows that the first one has written. -/
theorem updateWhere_updateWhere {p q : ρ → Bool} {f g : ρ → ρ} (t : List ρ)
    (hq : ∀ r, p r = false → q r = false) :
    updateWhere q g (updateWhere p f t) =
      updateWhere p (fun r => if q (f r) then g (f r) else f r) t := by
  rw [updateWhere, updateWhere, List.map_map]
  apply List.map_congr_left
  intro r _
  by_cases hp : p r = true
  · simp [hp]
  · have hnot : p r = false := Bool.eq_false_iff.mpr hp
    simp [hnot, hq r hnot]

/-- An update that keeps the rows within a filter, or outside, commutes with it. -/
theorem filter_updateWhere {p q : ρ → Bool} {f : ρ → ρ} {t : List ρ}
    (h : ∀ r ∈ t, p r = true → q (f r) = q r) :
    (updateWhere p f t).filter q = updateWhere p f (t.filter q) := by
  induction t with
  | nil => rfl
  | cons r t ih =>
    have hrest := ih fun r' hr' => h r' (List.mem_cons_of_mem r hr')
    have hkeeps : q (if p r then f r else r) = q r := by
      split
      · rename_i hp
        exact h r List.mem_cons_self hp
      · rfl
    show ((if p r then f r else r) :: updateWhere p f t).filter q = _
    rw [List.filter_cons, List.filter_cons, hkeeps, hrest]
    cases hq : q r with
    | true => rfl
    | false => rfl

theorem countP_updateWhere_le {p q : ρ → Bool} {f : ρ → ρ} {t : List ρ}
    (h : ∀ r ∈ t, p r = true → q (f r) = true → q r = true) :
    (updateWhere p f t).countP q ≤ t.countP q := by
  induction t with
  | nil => exact Nat.le_refl 0
  | cons r t ih =>
    have hrest := ih fun r' hr' => h r' (List.mem_cons_of_mem r hr')
    have hhead := h r List.mem_cons_self
    rw [updateWhere, List.map_cons, List.countP_cons, List.countP_cons]
    have hone : ∀ a b : Bool, (a = true → b = true) →
        (if a = true then 1 else 0) ≤ (if b = true then 1 else 0) := by decide
    apply Nat.add_le_add hrest
    apply hone
    intro hq
    by_cases hp : p r = true
    · rw [if_pos hp] at hq
      exact hhead hp hq
    · rw [if_neg hp] at hq
      exact hq

theorem mem_deleteWhere {p : ρ → Bool} {t : List ρ} {r : ρ} :
    r ∈ deleteWhere p t ↔ r ∈ t ∧ p r = false := by
  simp [deleteWhere]

section Keyed

variable [DecidableEq κ] {key : ρ → κ}

theorem lookup_mem {k : κ} {t : List ρ} {r : ρ} (h : lookup key k t = some r) :
    r ∈ t ∧ key r = k :=
  ⟨List.mem_of_find?_eq_some h, by simpa using List.find?_some h⟩

theorem lookup_eq_none {k : κ} {t : List ρ} :
    lookup key k t = none ↔ ∀ r ∈ t, key r ≠ k := by
  simp [lookup]

theorem insert?_eq_some {r : ρ} {t t' : List ρ} (h : insert? key r t = some t') :
    (∀ r' ∈ t, key r' ≠ key r) ∧ t' = t ++ [r] := by
  unfold insert? at h
  split at h
  · cases h
  · rename_i hfree
    refine ⟨?_, (Option.some.inj h).symm⟩
    simpa using hfree

theorem lookup_append (k : κ) (t : List ρ) (r : ρ) :
    lookup key k (t ++ [r]) = (lookup key k t).or (if key r = k then some r else none) := by
  unfold lookup
  rw [List.find?_append, List.find?_singleton]
  simp

/-- Updating the row under `k` by a function that keeps keys acts on the looked-up row only. -/
theorem lookup_updateWhere {f : ρ → ρ} (hf : ∀ r, key (f r) = key r) (k k' : κ) (t : List ρ) :
    lookup key k' (updateWhere (fun r => decide (key r = k)) f t) =
      if k' = k then (lookup key k' t).map f else lookup key k' t := by
  induction t with
  | nil => simp [lookup, updateWhere]
  | cons r t ih =>
    simp only [updateWhere, lookup, List.map_cons, List.find?_cons] at ih ⊢
    by_cases hk : key r = k
    · by_cases hk' : k' = k
      · simp [hk, hk', hf]
      · have hne : ¬ key r = k' := fun h => hk' (h.symm.trans hk)
        have hne' : k ≠ k' := fun h => hk' h.symm
        simp only [hk, decide_true, if_true, hf, hk', if_false, decide_eq_true_eq] at ih ⊢
        simp only [hne', decide_false]
        exact ih
    · by_cases hr : key r = k'
      · have hne : ¬ k' = k := fun h => hk (hr.trans h)
        simp [hr, hne]
      · simp only [hk, hr, decide_false, Bool.false_eq_true, if_false]
        exact ih

omit [DecidableEq κ] in
theorem updateWhere_keys {p : ρ → Bool} {f : ρ → ρ} (hf : ∀ r, key (f r) = key r) (t : List ρ) :
    (updateWhere p f t).map key = t.map key := by
  rw [updateWhere, List.map_map]
  apply List.map_congr_left
  intro r _
  by_cases hp : p r = true <;> simp [hp, hf]

omit [DecidableEq κ] in
theorem keyUnique_updateWhere {p : ρ → Bool} {f : ρ → ρ} (hf : ∀ r, key (f r) = key r)
    {t : List ρ} (ht : KeyUnique key t) : KeyUnique key (updateWhere p f t) := by
  unfold KeyUnique at ht ⊢
  rw [updateWhere_keys hf]
  exact ht

omit [DecidableEq κ] in
theorem keyUnique_deleteWhere {p : ρ → Bool} {t : List ρ} (ht : KeyUnique key t) :
    KeyUnique key (deleteWhere p t) :=
  ht.sublist (List.filter_sublist.map key)

theorem keyUnique_insert? {r : ρ} {t t' : List ρ} (ht : KeyUnique key t)
    (h : insert? key r t = some t') : KeyUnique key t' := by
  obtain ⟨hfree, rfl⟩ := insert?_eq_some h
  unfold KeyUnique at ht ⊢
  rw [List.map_append, List.nodup_append]
  refine ⟨ht, by simp, ?_⟩
  intro a ha b hb
  obtain ⟨r', hr', rfl⟩ := List.mem_map.mp ha
  rw [List.map_singleton, List.mem_singleton] at hb
  subst hb
  exact hfree r' hr'

/-- Under a unique key, a row of the table is the one its key looks up. -/
theorem lookup_of_mem {t : List ρ} (ht : KeyUnique key t) {r : ρ} (hr : r ∈ t) :
    lookup key (key r) t = some r := by
  induction t with
  | nil => cases hr
  | cons r' t ih =>
    rw [KeyUnique, List.map_cons, List.nodup_cons] at ht
    rcases List.mem_cons.mp hr with rfl | hmem
    · simp [lookup]
    · have hne : key r' ≠ key r := fun h => ht.1 (h ▸ List.mem_map_of_mem hmem)
      have hrest := ih ht.2 hmem
      simpa [lookup, List.find?_cons, hne] using hrest

/-- Under a unique key, two rows of the table with one key are the same row. -/
theorem eq_of_key_eq {t : List ρ} (ht : KeyUnique key t) {r r' : ρ} (hr : r ∈ t) (hr' : r' ∈ t)
    (h : key r = key r') : r = r' := by
  have hlookup := lookup_of_mem ht hr
  rw [h, lookup_of_mem ht hr'] at hlookup
  exact (Option.some.inj hlookup).symm

theorem keyUnique_append {t : List ρ} (ht : KeyUnique key t) {r : ρ}
    (hfree : ∀ r' ∈ t, key r' ≠ key r) : KeyUnique key (t ++ [r]) := by
  apply keyUnique_insert? ht
  rw [insert?, if_neg]
  simpa using hfree

/-- Under a unique key, the rows with the key of a row of the table are that row. -/
theorem filter_key_eq {t : List ρ} (ht : KeyUnique key t) {r : ρ} (hr : r ∈ t) :
    t.filter (fun r' => decide (key r' = key r)) = [r] := by
  induction t with
  | nil => cases hr
  | cons r' t ih =>
    rw [KeyUnique, List.map_cons, List.nodup_cons] at ht
    rcases List.mem_cons.mp hr with rfl | hmem
    · have habsent : t.filter (fun r' => decide (key r' = key r)) = [] := by
        rw [List.filter_eq_nil_iff]
        intro r' hr' heq
        exact ht.1 (of_decide_eq_true heq ▸ List.mem_map_of_mem hr')
      rw [List.filter_cons_of_pos (by simp), habsent]
    · have hne : ¬ key r' = key r := fun heq => ht.1 (heq ▸ List.mem_map_of_mem hmem)
      rw [List.filter_cons_of_neg (by simpa using hne)]
      exact ih ht.2 hmem

omit [DecidableEq κ] in
theorem updateWhere_of_absent {p : ρ → Bool} {f : ρ → ρ} {t : List ρ}
    (h : ∀ r ∈ t, p r = false) : updateWhere p f t = t := by
  refine (List.map_congr_left fun r hr => ?_).trans (List.map_id t)
  rw [h r hr]
  rfl

/-- An update under a unique key moves a count by what it does to its one row. -/
theorem countP_updateWhere_key {t : List ρ} (ht : KeyUnique key t) (q : ρ → Bool) (f : ρ → ρ)
    {r : ρ} (hr : r ∈ t) :
    (updateWhere (fun r' => decide (key r' = key r)) f t).countP q + (if q r = true then 1 else 0) =
      t.countP q + (if q (f r) = true then 1 else 0) := by
  induction t with
  | nil => cases hr
  | cons r' t ih =>
    rw [KeyUnique, List.map_cons, List.nodup_cons] at ht
    rw [updateWhere, List.map_cons, List.countP_cons, List.countP_cons]
    rcases List.mem_cons.mp hr with rfl | hmem
    · -- the other rows have other keys
      have habsent : updateWhere (fun r' => decide (key r' = key r)) f t = t := by
        apply updateWhere_of_absent
        intro r' hr'
        rw [decide_eq_false_iff_not]
        intro heq
        exact ht.1 (heq ▸ List.mem_map_of_mem hr')
      rw [updateWhere] at habsent
      rw [habsent, if_pos (decide_eq_true rfl)]
      omega
    · have hne : ¬ key r' = key r := fun heq => ht.1 (heq ▸ List.mem_map_of_mem hmem)
      have hrest := ih ht.2 hmem
      rw [updateWhere] at hrest
      have hother : (if decide (key r' = key r) = true then f r' else r') = r' :=
        if_neg fun heq => hne (of_decide_eq_true heq)
      rw [hother]
      omega

/-- Deleting rows of other keys does not change a lookup. -/
theorem lookup_deleteWhere_of_ne {p : ρ → Bool} {k : κ} (hp : ∀ r, p r = true → key r ≠ k)
    (t : List ρ) : lookup key k (deleteWhere p t) = lookup key k t := by
  induction t with
  | nil => rfl
  | cons r t ih =>
    unfold deleteWhere lookup at ih ⊢
    cases hr : p r with
    | true =>
      have hne : key r ≠ k := hp r hr
      simp [hr, hne, ih]
    | false =>
      by_cases hk : key r = k
      · simp [hr, hk]
      · simp [hr, hk, ih]

/-- Deleting the row under `k` when it satisfies `q`. -/
theorem lookup_deleteWhere_key {t : List ρ} (ht : KeyUnique key t) (k : κ) (q : ρ → Bool) :
    lookup key k (deleteWhere (fun r => decide (key r = k) && q r) t) =
      (lookup key k t).filter fun r => !q r := by
  induction t with
  | nil => rfl
  | cons r t ih =>
    rw [KeyUnique, List.map_cons, List.nodup_cons] at ht
    have hrest := ih ht.2
    unfold deleteWhere lookup at hrest ⊢
    by_cases hk : key r = k
    · subst hk
      have hnone : List.find? (fun r' => decide (key r' = key r)) t = none := by
        rw [List.find?_eq_none]
        intro r' hr'
        have hne : key r' ≠ key r := fun h => ht.1 (h ▸ List.mem_map_of_mem hr')
        simpa using hne
      cases hq : q r with
      | true =>
        rw [List.filter_cons_of_neg (by simp [hq]), hrest, hnone,
          List.find?_cons_of_pos (by simp), Option.filter_some, hq]
        rfl
      | false =>
        rw [List.filter_cons_of_pos (by simp [hq]), List.find?_cons_of_pos (by simp),
          List.find?_cons_of_pos (by simp), Option.filter_some, hq]
        rfl
    · simp only [hk, decide_false, Bool.false_and, Bool.not_false, List.filter_cons_of_pos,
        List.find?_cons_of_neg, Bool.false_eq_true, not_false_eq_true] at hrest ⊢
      exact hrest

theorem insert?_of_free {r : ρ} {t : List ρ} (h : ∀ r' ∈ t, key r' ≠ key r) :
    insert? key r t = some (t ++ [r]) := by
  rw [insert?, if_neg]
  simpa using h

/-- Inserts all succeed where the keys are new and differ from each other. -/
theorem insertAll?_eq_some {rows t t' : List ρ} :
    insertAll? key rows t = some t' ↔
      (rows.map key).Nodup ∧ (∀ r ∈ rows, ∀ r' ∈ t, key r' ≠ key r) ∧ t' = t ++ rows := by
  induction rows generalizing t with
  | nil => simp [insertAll?, eq_comm]
  | cons r rows ih =>
    rw [insertAll?, Option.bind_eq_some_iff, List.map_cons, List.nodup_cons]
    constructor
    · rintro ⟨t₁, hinsert, hrest⟩
      obtain ⟨hfree, rfl⟩ := insert?_eq_some hinsert
      obtain ⟨hnodup, hothers, rfl⟩ := ih.mp hrest
      refine ⟨⟨?_, hnodup⟩, ?_, by simp⟩
      · -- a later row of the same key would meet this one
        intro hmem
        obtain ⟨r', hr', heq⟩ := List.mem_map.mp hmem
        exact hothers r' hr' r (by simp) heq.symm
      · intro r' hr'
        cases List.mem_cons.mp hr' with
        | inl heq => exact heq ▸ hfree
        | inr hmem => exact fun old hold => hothers r' hmem old (by simp [hold])
    · rintro ⟨⟨hapart, hnodup⟩, hothers, rfl⟩
      refine ⟨t ++ [r], insert?_of_free (hothers r List.mem_cons_self), ih.mpr ⟨hnodup, ?_, ?_⟩⟩
      · intro r' hr' old hold
        cases List.mem_append.mp hold with
        | inl hmem => exact hothers r' (List.mem_cons_of_mem r hr') old hmem
        | inr hmem =>
          rw [List.mem_singleton.mp hmem]
          exact fun heq => hapart (heq ▸ List.mem_map_of_mem hr')
      · rw [List.append_assoc, List.singleton_append]

/-- A replacement deletes every row that could have the key of a new one. -/
theorem replaceWhere?_eq_some {p : ρ → Bool} {rows t t' : List ρ}
    (hp : ∀ r ∈ rows, ∀ r', key r' = key r → p r' = true) :
    replaceWhere? key p rows t = some t' ↔
      (rows.map key).Nodup ∧ t' = deleteWhere p t ++ rows := by
  rw [replaceWhere?, insertAll?_eq_some]
  constructor
  · exact fun h => ⟨h.1, h.2.2⟩
  · rintro ⟨hnodup, rfl⟩
    refine ⟨hnodup, ?_, rfl⟩
    intro r hr r' hr' heq
    have hleft := (mem_deleteWhere.mp hr').2
    rw [hp r hr r' heq] at hleft
    cases hleft

end Keyed

end Table
