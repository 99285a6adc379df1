import KiwiCatalog.Discovery.Validation

/-!
# Secret scan — what the scan of a profile finds

A value is clean when no name in it is a secret one and no text that is the value of a field is a
credential.  The scan reports a path for each value that is not, and goes on below the others; the
items of arrays that are texts it does not look at.
-/

set_option autoImplicit false

namespace KiwiCatalog.Discovery

open Url (Text)

/-- No secret name, and no credential as the value of a field. -/
structure Clean (lib : Library) (v : Json) : Prop where
  names : ∀ n ∈ v.names, isSecretField n = false
  memberTexts : ∀ s ∈ v.memberTexts, isSecretValue lib s = false

variable {lib : Library}

/-! ## 1. Clean values -/

theorem isFlagged_eq_false {key : String} {v : Json} :
    isFlagged lib key v = false ↔
      isSecretField key = false ∧ ∀ s, v = .text s → isSecretValue lib s = false := by
  rw [isFlagged, Bool.or_eq_false_iff, List.any_eq_false]
  refine and_congr_right fun _ => ?_
  constructor
  · intro h s hs
    have hnot := h s (Json.mem_ownText.mpr hs)
    rwa [Bool.not_eq_true] at hnot
  · intro h s hs
    rw [h s (Json.mem_ownText.mp hs)]
    exact Bool.false_ne_true

theorem clean_object {fields : Fields} :
    Clean lib (.object fields) ↔
      ∀ kv ∈ fields, isFlagged lib kv.1 kv.2 = false ∧ Clean lib kv.2 := by
  constructor
  · intro h kv hkv
    refine ⟨isFlagged_eq_false.mpr ⟨?_, fun s hs => ?_⟩, ⟨fun n hn => ?_, fun s hs => ?_⟩⟩
    · exact h.names kv.1 (Json.mem_namesOfFields.mpr ⟨kv, hkv, .inl rfl⟩)
    · exact h.memberTexts s (Json.mem_memberTextsOfFields.mpr ⟨kv, hkv, .inl hs⟩)
    · exact h.names n (Json.mem_namesOfFields.mpr ⟨kv, hkv, .inr hn⟩)
    · exact h.memberTexts s (Json.mem_memberTextsOfFields.mpr ⟨kv, hkv, .inr hs⟩)
  · intro h
    refine ⟨fun n hn => ?_, fun s hs => ?_⟩
    · obtain ⟨kv, hkv, hn⟩ := Json.mem_namesOfFields.mp hn
      obtain ⟨hflag, hclean⟩ := h kv hkv
      cases hn with
      | inl hname =>
        rw [hname]
        exact (isFlagged_eq_false.mp hflag).1
      | inr hbelow => exact hclean.names n hbelow
    · obtain ⟨kv, hkv, hs⟩ := Json.mem_memberTextsOfFields.mp hs
      obtain ⟨hflag, hclean⟩ := h kv hkv
      cases hs with
      | inl hown => exact (isFlagged_eq_false.mp hflag).2 s hown
      | inr hbelow => exact hclean.memberTexts s hbelow

theorem clean_array {items : List Json} :
    Clean lib (.array items) ↔ ∀ v ∈ items, Clean lib v := by
  constructor
  · intro h v hv
    refine ⟨fun n hn => ?_, fun s hs => ?_⟩
    · exact h.names n (Json.mem_namesOfItems.mpr ⟨v, hv, hn⟩)
    · exact h.memberTexts s (Json.mem_memberTextsOfItems.mpr ⟨v, hv, hs⟩)
  · intro h
    refine ⟨fun n hn => ?_, fun s hs => ?_⟩
    · obtain ⟨v, hv, hn⟩ := Json.mem_namesOfItems.mp hn
      exact (h v hv).names n hn
    · obtain ⟨v, hv, hs⟩ := Json.mem_memberTextsOfItems.mp hs
      exact (h v hv).memberTexts s hs

/-- A value that holds no others. -/
theorem clean_leaf {v : Json} (hnames : v.names = []) (htexts : v.memberTexts = []) :
    Clean lib v := by
  constructor
  · rw [hnames]
    exact fun _ h => nomatch h
  · rw [htexts]
    exact fun _ h => nomatch h

theorem clean_sortKeys {v : Json} : Clean lib v.sortKeys ↔ Clean lib v := by
  constructor
  · intro h
    refine ⟨fun n hn => ?_, fun s hs => ?_⟩
    · exact h.names n ((Json.mem_names_sortKeys v).mpr hn)
    · exact h.memberTexts s ((Json.mem_memberTexts_sortKeys v).mpr hs)
  · intro h
    refine ⟨fun n hn => ?_, fun s hs => ?_⟩
    · exact h.names n ((Json.mem_names_sortKeys v).mp hn)
    · exact h.memberTexts s ((Json.mem_memberTexts_sortKeys v).mp hs)

/-! ## 2. Paths -/

/-- The path is one below another. -/
def Below (path p : Text) : Prop := path ++ ['.'] <+: p

theorem childPath_ne_nil {path : Text} (h : path ≠ []) (key : String) : childPath path key ≠ [] := by
  rw [childPath, if_neg h]
  simp

theorem below_childPath {path : Text} (h : path ≠ []) (key : String) :
    Below path (childPath path key) := by
  rw [childPath, if_neg h]
  exact ⟨key.toList, by simp⟩

theorem itemPath_ne_nil (path : Text) (i : Nat) : itemPath path i ≠ [] := by
  simp [itemPath]

theorem below_itemPath (path : Text) (i : Nat) : Below path (itemPath path i) :=
  ⟨(toString i).toList, by simp [itemPath]⟩

theorem Below.trans {path middle p : Text} (h : Below path middle) (h' : Below middle p) :
    Below path p :=
  List.IsPrefix.trans h (List.IsPrefix.trans (List.prefix_append middle ['.']) h')

theorem skips_eq_false {found : List Text} {path : Text} :
    skips found path = false ↔ path ∉ found ∧ ∀ p ∈ found, ¬ Below path p := by
  rw [skips, Bool.or_eq_false_iff, List.any_eq_false]
  refine and_congr ?_ ?_
  · rw [← Bool.not_eq_true, List.contains_iff_mem]
  · refine forall₂_congr fun p _ => not_congr ?_
    exact List.isPrefixOf_iff_prefix

/-! ## 3. What a scan reports -/

mutual

theorem scan_subset {path : Text} {paths found : List Text} : ∀ {v : Json},
    scan lib path paths v = .ok found → paths ⊆ found
  | .object _, h => scanFields_subset h
  | .array _, h => scanItems_subset h
  | .null, h => by cases h; exact List.Subset.refl _
  | .bool _, h => by cases h; exact List.Subset.refl _
  | .int _, h => by cases h; exact List.Subset.refl _
  | .float _, h => by cases h; exact List.Subset.refl _
  | .text _, h => by cases h; exact List.Subset.refl _

theorem scanItems_subset {path : Text} {i : Nat} {paths found : List Text} :
    ∀ {items : List Json}, scanItems lib path i paths items = .ok found → paths ⊆ found
  | [], h => by cases h; exact List.Subset.refl _
  | v :: rest, h => by
    rw [scanItems] at h
    split at h
    · cases h
    · split at h
      · cases h
      · rename_i middle hfirst
        exact List.Subset.trans (scan_subset hfirst) (scanItems_subset h)

theorem scanFields_subset {path : Text} {paths found : List Text} :
    ∀ {fields : Fields}, scanFields lib path paths fields = .ok found → paths ⊆ found
  | [], h => by cases h; exact List.Subset.refl _
  | (key, v) :: rest, h => by
    rw [scanFields] at h
    split at h
    · cases h
    · split at h
      · exact List.Subset.trans (List.subset_append_left paths _) (scanFields_subset h)
      · split at h
        · cases h
        · rename_i middle hfirst
          exact List.Subset.trans (scan_subset hfirst) (scanFields_subset h)

end

/-- A path that is reported below the value, or below some path where the value is the whole. -/
def Reports (found : List Text) (path : Text) : Prop := ∃ p ∈ found, path ≠ [] → Below path p

theorem Reports.mono {found found' : List Text} {path : Text} (h : Reports found path)
    (hsub : found ⊆ found') : Reports found' path := by
  obtain ⟨p, hp, hbelow⟩ := h
  exact ⟨p, hsub hp, hbelow⟩

theorem Reports.of_child {found : List Text} {path : Text} {key : String}
    (h : Reports found (childPath path key)) : Reports found path := by
  obtain ⟨p, hp, hbelow⟩ := h
  refine ⟨p, hp, fun hpath => ?_⟩
  exact (below_childPath hpath key).trans (hbelow (childPath_ne_nil hpath key))

theorem Reports.of_item {found : List Text} {path : Text} {i : Nat}
    (h : Reports found (itemPath path i)) : Reports found path := by
  obtain ⟨p, hp, hbelow⟩ := h
  exact ⟨p, hp, fun _ => (below_itemPath path i).trans (hbelow (itemPath_ne_nil path i))⟩

mutual

/-- Every value that is scanned is clean, or something below it is reported. -/
theorem scan_clean {path : Text} {paths found : List Text} : ∀ {v : Json},
    scan lib path paths v = .ok found → Clean lib v ∨ Reports found path
  | .object fields, h => by
    cases scanFields_clean h with
    | inl hclean => exact .inl (clean_object.mpr hclean)
    | inr hreports => exact .inr hreports
  | .array items, h => by
    cases scanItems_clean h with
    | inl hclean => exact .inl (clean_array.mpr hclean)
    | inr hreports => exact .inr hreports
  | .null, _ => .inl (clean_leaf rfl rfl)
  | .bool _, _ => .inl (clean_leaf rfl rfl)
  | .int _, _ => .inl (clean_leaf rfl rfl)
  | .float _, _ => .inl (clean_leaf rfl rfl)
  | .text _, _ => .inl (clean_leaf rfl rfl)

theorem scanItems_clean {path : Text} {i : Nat} {paths found : List Text} :
    ∀ {items : List Json}, scanItems lib path i paths items = .ok found →
      (∀ v ∈ items, Clean lib v) ∨ Reports found path
  | [], _ => .inl fun _ h => nomatch h
  | v :: rest, h => by
    rw [scanItems] at h
    split at h
    · cases h
    · split at h
      · cases h
      · rename_i middle hfirst
        cases scan_clean hfirst with
        | inr hreports => exact .inr (hreports.mono (scanItems_subset h)).of_item
        | inl hclean =>
          cases scanItems_clean h with
          | inr hreports => exact .inr hreports
          | inl hrest =>
            left
            intro w hw
            cases List.mem_cons.mp hw with
            | inl heq => exact heq ▸ hclean
            | inr hmem => exact hrest w hmem

theorem scanFields_clean {path : Text} {paths found : List Text} :
    ∀ {fields : Fields}, scanFields lib path paths fields = .ok found →
      (∀ kv ∈ fields, isFlagged lib kv.1 kv.2 = false ∧ Clean lib kv.2) ∨ Reports found path
  | [], _ => .inl fun _ h => nomatch h
  | (key, v) :: rest, h => by
    rw [scanFields] at h
    split at h
    · cases h
    · split at h
      · -- the field is reported itself
        right
        refine ⟨childPath path key, scanFields_subset h ?_, fun hpath => below_childPath hpath key⟩
        exact List.mem_append_right _ List.mem_cons_self
      · rename_i hflag
        rw [Bool.not_eq_true] at hflag
        split at h
        · cases h
        · rename_i middle hfirst
          cases scan_clean hfirst with
          | inr hreports => exact .inr (hreports.mono (scanFields_subset h)).of_child
          | inl hclean =>
            cases scanFields_clean h with
            | inr hreports => exact .inr hreports
            | inl hrest =>
              left
              intro kv hkv
              cases List.mem_cons.mp hkv with
              | inl heq => exact heq ▸ ⟨hflag, hclean⟩
              | inr hmem => exact hrest kv hmem

end

mutual

/-- The scan of a clean value reports nothing. -/
theorem scan_of_clean {path : Text} {paths : List Text} (hcap : paths.length < maxSecrets) :
    ∀ {v : Json}, Clean lib v → scan lib path paths v = .ok paths
  | .object _, h => scanFields_of_clean hcap (clean_object.mp h)
  | .array _, h => scanItems_of_clean hcap (clean_array.mp h)
  | .null, _ => rfl
  | .bool _, _ => rfl
  | .int _, _ => rfl
  | .float _, _ => rfl
  | .text _, _ => rfl

theorem scanItems_of_clean {path : Text} {i : Nat} {paths : List Text}
    (hcap : paths.length < maxSecrets) : ∀ {items : List Json}, (∀ v ∈ items, Clean lib v) →
      scanItems lib path i paths items = .ok paths
  | [], _ => rfl
  | v :: rest, h => by
    rw [scanItems, if_neg (Nat.not_le.mpr hcap), scan_of_clean hcap (h v List.mem_cons_self)]
    exact scanItems_of_clean hcap fun w hw => h w (List.mem_cons_of_mem v hw)

theorem scanFields_of_clean {path : Text} {paths : List Text}
    (hcap : paths.length < maxSecrets) : ∀ {fields : Fields},
      (∀ kv ∈ fields, isFlagged lib kv.1 kv.2 = false ∧ Clean lib kv.2) →
      scanFields lib path paths fields = .ok paths
  | [], _ => rfl
  | (key, v) :: rest, h => by
    obtain ⟨hflag, hclean⟩ := h (key, v) List.mem_cons_self
    rw [scanFields, if_neg (Nat.not_le.mpr hcap), hflag, if_neg Bool.false_ne_true,
      scan_of_clean hcap hclean]
    exact scanFields_of_clean hcap fun kv hkv => h kv (List.mem_cons_of_mem _ hkv)

end

/-! ## 4. Scanned places -/

/-- The scan that found these paths has gone through the value at this path. -/
def Scanned (lib : Library) (found : List Text) (path : Text) (v : Json) : Prop :=
  ∃ paths paths', scan lib path paths v = .ok paths' ∧ paths' ⊆ found

theorem scanFields_mem {path : Text} {paths found : List Text} {fields : Fields} {key : String}
    {v : Json} (h : scanFields lib path paths fields = .ok found) (hmem : (key, v) ∈ fields) :
    (isFlagged lib key v = true ∧ childPath path key ∈ found) ∨
      (isFlagged lib key v = false ∧ Scanned lib found (childPath path key) v) := by
  induction fields generalizing paths with
  | nil => cases hmem
  | cons kv rest ih =>
    rw [scanFields] at h
    split at h
    · cases h
    · split at h
      · rename_i hflag
        cases List.mem_cons.mp hmem with
        | inl heq =>
          cases heq
          left
          refine ⟨hflag, scanFields_subset h ?_⟩
          exact List.mem_append_right _ List.mem_cons_self
        | inr hmem => exact ih h hmem
      · rename_i hflag
        rw [Bool.not_eq_true] at hflag
        split at h
        · cases h
        · rename_i middle hfirst
          cases List.mem_cons.mp hmem with
          | inl heq =>
            cases heq
            exact .inr ⟨hflag, paths, middle, hfirst, scanFields_subset h⟩
          | inr hmem => exact ih h hmem

theorem Scanned.field {found : List Text} {path : Text} {fields : Fields} {key : String} {v : Json}
    (h : Scanned lib found path (.object fields)) (hmem : (key, v) ∈ fields) :
    (isFlagged lib key v = true ∧ childPath path key ∈ found) ∨
      (isFlagged lib key v = false ∧ Scanned lib found (childPath path key) v) := by
  obtain ⟨paths, paths', hscan, hsub⟩ := h
  cases scanFields_mem hscan hmem with
  | inl hflagged => exact .inl ⟨hflagged.1, hsub hflagged.2⟩
  | inr hbelow =>
    obtain ⟨hflag, q, q', hq, hq'⟩ := hbelow
    exact .inr ⟨hflag, q, q', hq, List.Subset.trans hq' hsub⟩

theorem scanItems_get {path : Text} {i j : Nat} {paths found : List Text} {items : List Json}
    {v : Json} (h : scanItems lib path i paths items = .ok found) (hget : items[j]? = some v) :
    Scanned lib found (itemPath path (i + j)) v := by
  induction items generalizing i j paths with
  | nil => cases hget
  | cons w rest ih =>
    rw [scanItems] at h
    split at h
    · cases h
    · split at h
      · cases h
      · rename_i middle hfirst
        cases j with
        | zero =>
          cases hget
          exact ⟨paths, middle, hfirst, scanItems_subset h⟩
        | succ j =>
          have hrest := ih h hget
          rw [Nat.add_right_comm] at hrest
          exact hrest

theorem Scanned.item {found : List Text} {path : Text} {items : List Json} {j : Nat} {v : Json}
    (h : Scanned lib found path (.array items)) (hget : items[j]? = some v) :
    Scanned lib found (itemPath path j) v := by
  obtain ⟨paths, paths', hscan, hsub⟩ := h
  have hitem := scanItems_get hscan hget
  rw [Nat.zero_add] at hitem
  obtain ⟨q, q', hq, hq'⟩ := hitem
  exact ⟨q, q', hq, List.Subset.trans hq' hsub⟩

/-- A scanned value with no report below it is clean. -/
theorem Scanned.clean {found : List Text} {path : Text} {v : Json} (h : Scanned lib found path v)
    (hpath : path ≠ []) (hnone : ∀ p ∈ found, ¬ Below path p) : Clean lib v := by
  obtain ⟨paths, paths', hscan, hsub⟩ := h
  cases scan_clean hscan with
  | inl hclean => exact hclean
  | inr hreports =>
    obtain ⟨p, hp, hbelow⟩ := hreports
    exact absurd (hbelow hpath) (hnone p (hsub hp))

/-- Where nothing is reported, the whole is clean. -/
theorem clean_of_scanSecrets {v : Json} (h : scanSecrets lib v = .ok []) : Clean lib v := by
  cases scan_clean h with
  | inl hclean => exact hclean
  | inr hreports =>
    obtain ⟨p, hp, -⟩ := hreports
    cases hp

end KiwiCatalog.Discovery
