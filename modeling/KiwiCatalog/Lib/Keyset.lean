import Mathlib.Data.List.Basic
import Mathlib.Order.Lattice

/-!
# Keyset — reading an ordered list in pages that start after a key

Rows stand in the strict order of their keys.  A page is the first rows after a key, and the next
page starts after the key of its last row.
-/

set_option autoImplicit false

/-- A key of rows and a strict order of the keys. -/
structure Keyset (ρ κ : Type*) where
  key : ρ → κ
  before : κ → κ → Bool
  before_trans : ∀ {a b c}, before a b = true → before b c = true → before a c = true
  before_irrefl : ∀ a, before a a = false

namespace Keyset

variable {ρ κ : Type*} (K : Keyset ρ κ)

/-- The keyset of a linear order of the keys. -/
def ofLinear [LinearOrder κ] (key : ρ → κ) : Keyset ρ κ where
  key := key
  before a b := @decide (a < b) (LinearOrder.toDecidableLT a b)
  before_trans hab hbc :=
    decide_eq_true (lt_trans (of_decide_eq_true hab) (of_decide_eq_true hbc))
  before_irrefl a := decide_eq_false (lt_irrefl a)

def Sorted (rows : List ρ) : Prop := rows.Pairwise fun a b => K.before (K.key a) (K.key b) = true

/-- The rows after a key. -/
def after (k : κ) (rows : List ρ) : List ρ := rows.filter fun r => K.before k (K.key r)

/-- The other rows. -/
def upTo (k : κ) (rows : List ρ) : List ρ := rows.filter fun r => !K.before k (K.key r)

def page (k : κ) (limit : Nat) (rows : List ρ) : List ρ := (K.after k rows).take limit

/-- The key of the last row, or the one before where there is no row. -/
def lastKey (k : κ) (rows : List ρ) : κ := (rows.getLast?.map K.key).getD k

variable {K}

theorem mem_after {k : κ} {rows : List ρ} {r : ρ} :
    r ∈ K.after k rows ↔ r ∈ rows ∧ K.before k (K.key r) = true :=
  List.mem_filter

theorem mem_upTo {k : κ} {rows : List ρ} {r : ρ} :
    r ∈ K.upTo k rows ↔ r ∈ rows ∧ K.before k (K.key r) = false := by
  simp [upTo]

theorem after_append (k : κ) (rows rest : List ρ) :
    K.after k (rows ++ rest) = K.after k rows ++ K.after k rest :=
  List.filter_append ..

theorem upTo_append (k : κ) (rows rest : List ρ) :
    K.upTo k (rows ++ rest) = K.upTo k rows ++ K.upTo k rest :=
  List.filter_append ..

theorem after_eq_nil {k : κ} {rows : List ρ} (h : ∀ r ∈ rows, K.before k (K.key r) = false) :
    K.after k rows = [] := by
  apply List.filter_eq_nil_iff.mpr
  intro r hr
  simp [h r hr]

theorem after_eq_self {k : κ} {rows : List ρ} (h : ∀ r ∈ rows, K.before k (K.key r) = true) :
    K.after k rows = rows :=
  List.filter_eq_self.mpr h

theorem upTo_eq_self {k : κ} {rows : List ρ} (h : ∀ r ∈ rows, K.before k (K.key r) = false) :
    K.upTo k rows = rows := by
  apply List.filter_eq_self.mpr
  intro r hr
  simp [h r hr]

theorem upTo_eq_nil {k : κ} {rows : List ρ} (h : ∀ r ∈ rows, K.before k (K.key r) = true) :
    K.upTo k rows = [] := by
  apply List.filter_eq_nil_iff.mpr
  intro r hr
  simp [h r hr]

theorem Sorted.tail {r : ρ} {rows : List ρ} (h : K.Sorted (r :: rows)) : K.Sorted rows :=
  (List.pairwise_cons.mp h).2

theorem Sorted.sublist {rows rows' : List ρ} (h : K.Sorted rows) (hsub : rows'.Sublist rows) :
    K.Sorted rows' :=
  List.Pairwise.sublist hsub h

/-- A key cuts the rows in two. -/
theorem Sorted.upTo_append_after {rows : List ρ} (h : K.Sorted rows) (k : κ) :
    K.upTo k rows ++ K.after k rows = rows := by
  induction rows with
  | nil => rfl
  | cons r rows ih =>
    by_cases hr : K.before k (K.key r) = true
    · -- everything behind a row after the key is after it too
      have hall : ∀ r' ∈ r :: rows, K.before k (K.key r') = true := by
        intro r' hr'
        rcases List.mem_cons.mp hr' with rfl | hmem
        · exact hr
        · exact K.before_trans hr ((List.pairwise_cons.mp h).1 r' hmem)
      rw [upTo_eq_nil hall, after_eq_self hall, List.nil_append]
    · have hnot : K.before k (K.key r) = false := Bool.eq_false_iff.mpr hr
      have htail := ih h.tail
      have hupTo : K.upTo k (r :: rows) = r :: K.upTo k rows := by simp [upTo, hnot]
      have hafter : K.after k (r :: rows) = K.after k rows := by simp [after, hnot]
      rw [hupTo, hafter, List.cons_append, htail]

theorem Sorted.upTo_prefix {rows : List ρ} (h : K.Sorted rows) (k : κ) : K.upTo k rows <+: rows :=
  ⟨_, h.upTo_append_after k⟩

/-- The last key of a start of the rows cuts them behind it. -/
theorem Sorted.cut_lastKey {first rest : List ρ} (h : K.Sorted (first ++ rest)) (hne : first ≠ [])
    (k : κ) :
    K.upTo (K.lastKey k first) (first ++ rest) = first ∧
      K.after (K.lastKey k first) (first ++ rest) = rest := by
  obtain ⟨front, last, rfl⟩ : ∃ front last, first = front ++ [last] :=
    ⟨first.dropLast, first.getLast hne, (List.dropLast_append_getLast hne).symm⟩
  have hlast : K.lastKey k (front ++ [last]) = K.key last := by simp [lastKey]
  obtain ⟨hfront, -, hrest⟩ := List.pairwise_append.mp h
  have hbefore : ∀ r ∈ front ++ [last], K.before (K.key last) (K.key r) = false := by
    intro r hr
    rcases List.mem_append.mp hr with hmem | hmem
    · have hlt := (List.pairwise_append.mp hfront).2.2 r hmem last (List.mem_singleton_self last)
      by_contra hgt
      have hself := K.before_trans hlt (Bool.not_eq_false _ ▸ hgt)
      rw [K.before_irrefl] at hself
      cases hself
    · rw [List.mem_singleton.mp hmem]
      exact K.before_irrefl _
  have hbehind : ∀ r ∈ rest, K.before (K.key last) (K.key r) = true :=
    hrest last (List.mem_append_right front (List.mem_singleton_self last))
  rw [hlast, upTo_append, after_append, upTo_eq_self hbefore, upTo_eq_nil hbehind,
    after_eq_nil hbefore, after_eq_self hbehind, List.append_nil, List.nil_append]
  exact ⟨rfl, rfl⟩

/-- A page moves the cut behind its rows. -/
theorem Sorted.upTo_page {rows : List ρ} (h : K.Sorted rows) (k : κ) (limit : Nat) :
    K.upTo (K.lastKey k (K.page k limit rows)) rows = K.upTo k rows ++ K.page k limit rows ∧
      K.after (K.lastKey k (K.page k limit rows)) rows = (K.after k rows).drop limit := by
  by_cases hempty : K.page k limit rows = []
  · rw [hempty, List.append_nil]
    refine ⟨rfl, ?_⟩
    show K.after k rows = (K.after k rows).drop limit
    rcases List.take_eq_nil_iff.mp hempty with rfl | hnone
    · rfl
    · rw [hnone, List.drop_nil]
  · have hsplit : rows = (K.upTo k rows ++ K.page k limit rows) ++ (K.after k rows).drop limit := by
      rw [List.append_assoc, page, List.take_append_drop, h.upTo_append_after]
    have hne : K.upTo k rows ++ K.page k limit rows ≠ [] := by
      intro hnil
      exact hempty (List.append_eq_nil_iff.mp hnil).2
    have hlast : K.lastKey k (K.upTo k rows ++ K.page k limit rows) =
        K.lastKey k (K.page k limit rows) := by
      unfold lastKey
      rw [List.getLast?_append_of_ne_nil _ hempty]
    have hcut := Sorted.cut_lastKey (hsplit ▸ h) hne k
    rw [← hsplit, hlast] at hcut
    exact hcut

/-! ## Sorting -/

/-- Of two keys that differ, one is before the other. -/
def Total (K : Keyset ρ κ) : Prop := ∀ a b, a = b ∨ K.before a b = true ∨ K.before b a = true

theorem ofLinear_total [LinearOrder κ] (key : ρ → κ) : (ofLinear key).Total := by
  intro a b
  rcases lt_trichotomy a b with hlt | heq | hgt
  · exact Or.inr (Or.inl (decide_eq_true hlt))
  · exact Or.inl heq
  · exact Or.inr (Or.inr (decide_eq_true hgt))

/-- `order by` the key. -/
def inOrder (K : Keyset ρ κ) (a b : ρ) : Bool := !K.before (K.key b) (K.key a)

theorem before_asymm {a b : κ} (h : K.before a b = true) : K.before b a = false := by
  by_contra hback
  have hself := K.before_trans h (Bool.not_eq_false _ ▸ hback)
  rw [K.before_irrefl] at hself
  cases hself

theorem inOrder_trans (htotal : K.Total) (a b c : ρ) (hab : K.inOrder a b = true)
    (hbc : K.inOrder b c = true) : K.inOrder a c = true := by
  unfold inOrder at hab hbc ⊢
  rw [Bool.not_eq_true'] at hab hbc ⊢
  by_contra hca
  have hca' : K.before (K.key c) (K.key a) = true := Bool.not_eq_false _ ▸ hca
  rcases htotal (K.key a) (K.key b) with heq | hlt | hgt
  · rw [← heq, hca'] at hbc
    cases hbc
  · rw [K.before_trans hca' hlt] at hbc
    cases hbc
  · rw [hgt] at hab
    cases hab

theorem inOrder_total (a b : ρ) : (K.inOrder a b || K.inOrder b a) = true := by
  unfold inOrder
  cases hlt : K.before (K.key b) (K.key a) with
  | false => rfl
  | true => rw [before_asymm hlt]; rfl

theorem sorted_mergeSort (htotal : K.Total) {rows : List ρ} (hkeys : (rows.map K.key).Nodup) :
    K.Sorted (rows.mergeSort K.inOrder) := by
  have hordered : (rows.mergeSort K.inOrder).Pairwise fun a b => K.inOrder a b = true :=
    List.pairwise_mergeSort (inOrder_trans htotal) inOrder_total rows
  have hperm := (List.mergeSort_perm rows K.inOrder).map K.key
  have hdistinct : (rows.mergeSort K.inOrder).Pairwise fun a b => K.key a ≠ K.key b :=
    List.pairwise_map.mp (hperm.nodup_iff.mpr hkeys)
  apply (hordered.and hdistinct).imp
  intro a b h
  rcases htotal (K.key a) (K.key b) with heq | hlt | hgt
  · exact absurd heq h.2
  · exact hlt
  · have hnot : K.before (K.key b) (K.key a) = false := by simpa [inOrder] using h.1
    rw [hgt] at hnot
    cases hnot

theorem Sorted.eq_of_perm {rows rows' : List ρ} (h : K.Sorted rows) (h' : K.Sorted rows')
    (hperm : rows.Perm rows') : rows = rows' := by
  apply hperm.eq_of_pairwise _ h h'
  intro a b _ _ hab hba
  rw [before_asymm hab] at hba
  cases hba

/-- What is sorted of some rows is what is kept of the sorted ones. -/
theorem filter_mergeSort (htotal : K.Total) {rows : List ρ} (hkeys : (rows.map K.key).Nodup)
    (p : ρ → Bool) :
    (rows.filter p).mergeSort K.inOrder = (rows.mergeSort K.inOrder).filter p := by
  have hkept : ((rows.filter p).map K.key).Nodup := hkeys.sublist (List.filter_sublist.map K.key)
  apply (sorted_mergeSort htotal hkept).eq_of_perm
  · exact (sorted_mergeSort htotal hkeys).sublist List.filter_sublist
  · exact (List.mergeSort_perm _ _).trans ((List.mergeSort_perm rows K.inOrder).filter p).symm

/-! ## Following the cursors -/

/-- The rows after a position; the start is before all of them. -/
def remaining (position : Option κ) (rows : List ρ) : List ρ :=
  position.elim rows fun k => K.after k rows

/-- All rows of the pages from a cursor on; `none` is a refused cursor, or no fuel. -/
def follow {γ : Type*} (fetch : γ → Option (List ρ × Option γ)) : Nat → γ → Option (List ρ)
  | 0, _ => none
  | fuel + 1, cursor => (fetch cursor).bind fun page =>
    match page.2 with
    | none => some page.1
    | some next => (follow fetch fuel next).map (page.1 ++ ·)

/-- A page is what is visible of a start of the remaining rows; the next cursor, if there is one,
stands behind that start, and without one nothing visible remains. -/
structure PageOf {γ : Type*} (K : Keyset ρ κ) (visible : ρ → Bool) (reads : γ → Option κ → Prop)
    (remaining : List ρ) (page : List ρ × Option γ) : Prop where
  cut : ∃ first rest, remaining = first ++ rest ∧ page.1 = first.filter visible ∧
    (page.2 = none → rest.filter visible = []) ∧
    ∀ next, page.2 = some next → ∃ last, first.getLast? = some last ∧ reads next (some (K.key last))

theorem take_ne_nil {rows : List ρ} {n : Nat} (hn : 0 < n) (h : n ≤ rows.length) :
    rows.take n ≠ [] := by
  intro hnil
  have hlength := congrArg List.length hnil
  rw [List.length_take, Nat.min_eq_left h, List.length_nil] at hlength
  omega

/-- The first visible rows are what is visible of a start that ends in the last of them. -/
theorem exists_cut {visible : ρ → Bool} {rows : List ρ} {n : Nat} (hn : 0 < n)
    (h : n ≤ (rows.filter visible).length) :
    ∃ first rest, rows = first ++ rest ∧ first.filter visible = (rows.filter visible).take n ∧
      first.getLast? = ((rows.filter visible).take n).getLast? := by
  induction rows generalizing n with
  | nil => exact absurd h (Nat.not_le.mpr hn)
  | cons r rows ih =>
    cases hr : visible r with
    | false =>
      rw [List.filter_cons_of_neg (by simp [hr])] at h ⊢
      obtain ⟨first, rest, hsplit, hvisible, hlast⟩ := ih hn h
      have hne : first ≠ [] := by
        rintro rfl
        exact take_ne_nil hn h hvisible.symm
      refine ⟨r :: first, rest, by rw [hsplit]; rfl, ?_, ?_⟩
      · rw [List.filter_cons_of_neg (by simp [hr]), hvisible]
      · rw [← hlast, List.getLast?_cons_of_ne_nil hne]
    | true =>
      rw [List.filter_cons_of_pos hr] at h ⊢
      obtain ⟨n, rfl⟩ := Nat.exists_eq_succ_of_ne_zero (Nat.ne_of_gt hn)
      rw [List.take_succ_cons]
      by_cases hzero : n = 0
      · subst hzero
        exact ⟨[r], rows, rfl, by simp [hr], by simp⟩
      · have hpos : 0 < n := Nat.pos_of_ne_zero hzero
        have hle : n ≤ (rows.filter visible).length := Nat.le_of_succ_le_succ h
        obtain ⟨first, rest, hsplit, hvisible, hlast⟩ := ih hpos hle
        have hne : first ≠ [] := by
          rintro rfl
          exact take_ne_nil hpos hle hvisible.symm
        refine ⟨r :: first, rest, by rw [hsplit]; rfl, ?_, ?_⟩
        · rw [List.filter_cons_of_pos hr, hvisible]
        · rw [List.getLast?_cons_of_ne_nil hne, hlast,
            List.getLast?_cons_of_ne_nil (take_ne_nil hpos hle)]

/-- Every cursor that stands somewhere is answered by a page from there. -/
def Pages {γ : Type*} (K : Keyset ρ κ) (visible : ρ → Bool) (rows : List ρ)
    (fetch : γ → Option (List ρ × Option γ)) (reads : γ → Option κ → Prop) : Prop :=
  ∀ cursor position, reads cursor position → ∃ page, fetch cursor = some page ∧
    PageOf K visible reads (K.remaining position rows) page

/-- A page under another form of cursors. -/
theorem PageOf.map {γ δ : Type*} {visible : ρ → Bool} {reads : γ → Option κ → Prop}
    {reads' : δ → Option κ → Prop} {remaining : List ρ} {page : List ρ × Option γ} (f : γ → δ)
    (hreads : ∀ cursor position, reads cursor position → reads' (f cursor) position)
    (h : PageOf K visible reads remaining page) :
    PageOf K visible reads' remaining (page.1, page.2.map f) := by
  obtain ⟨first, rest, hsplit, hpage, hnone, hnext⟩ := h.cut
  refine ⟨first, rest, hsplit, hpage, fun hend => hnone (Option.map_eq_none_iff.mp hend), ?_⟩
  intro next heq
  obtain ⟨cursor, hcursor, rfl⟩ := Option.map_eq_some_iff.mp heq
  obtain ⟨last, hlast, hread⟩ := hnext cursor hcursor
  exact ⟨last, hlast, hreads cursor _ hread⟩

/-- The first rows, with a cursor of the last of them where more remain. -/
theorem pageOf_take {γ : Type*} {reads : γ → Option κ → Prop} {remaining : List ρ} {limit : Nat}
    (hlimit : 0 < limit) (cursorOf : ρ → γ)
    (hreads : ∀ r ∈ remaining, reads (cursorOf r) (some (K.key r))) :
    PageOf K (fun _ => true) reads remaining
      (remaining.take limit,
        if limit < remaining.length then (remaining.take limit).getLast?.map cursorOf
        else none) := by
  refine ⟨remaining.take limit, remaining.drop limit, (List.take_append_drop _ _).symm,
    (List.filter_eq_self.mpr fun _ _ => rfl).symm, ?_, ?_⟩
  · intro hnone
    have hshort : remaining.length ≤ limit := by
      by_contra hlong
      have hne := take_ne_nil hlimit (Nat.le_of_not_le hlong)
      change (if limit < remaining.length then _ else none) = none at hnone
      rw [if_pos (Nat.not_le.mp hlong), List.getLast?_eq_getLast_of_ne_nil hne] at hnone
      cases hnone
    rw [List.drop_eq_nil_of_le hshort, List.filter_nil]
  · intro next hnext
    change (if limit < remaining.length then _ else none) = some next at hnext
    split at hnext
    · obtain ⟨last, hlast, rfl⟩ := Option.map_eq_some_iff.mp hnext
      exact ⟨last, hlast, hreads last (List.mem_of_mem_take (List.mem_of_getLast? hlast))⟩
    · cases hnext

theorem Sorted.remaining_suffix {rows : List ρ} (h : K.Sorted rows) (position : Option κ) :
    K.remaining position rows <:+ rows := by
  cases position with
  | none => exact List.suffix_refl rows
  | some k => exact ⟨_, h.upTo_append_after k⟩

/-- Behind the last row of a start of the remaining rows, the others remain. -/
theorem Sorted.remaining_getLast {rows first rest : List ρ} {position : Option κ} {last : ρ}
    (h : K.Sorted rows) (hsplit : K.remaining position rows = first ++ rest)
    (hlast : first.getLast? = some last) : K.remaining (some (K.key last)) rows = rest := by
  obtain ⟨front, hfront⟩ := h.remaining_suffix position
  rw [hsplit, ← List.append_assoc] at hfront
  have hne : front ++ first ≠ [] := by
    intro hnil
    rw [(List.append_eq_nil_iff.mp hnil).2] at hlast
    cases hlast
  have hkey : K.lastKey (K.key last) (front ++ first) = K.key last := by
    have hfirst : first ≠ [] := by
      rintro rfl
      cases hlast
    unfold lastKey
    rw [List.getLast?_append_of_ne_nil _ hfirst, hlast]
    rfl
  have hcut := (Sorted.cut_lastKey (hfront.symm ▸ h) hne (K.key last)).2
  rw [hkey, hfront] at hcut
  exact hcut

/-- Following the cursors from a position ends, with what is visible of the rows after it. -/
theorem Sorted.follow_eq {γ : Type*} {visible : ρ → Bool} {rows : List ρ}
    {fetch : γ → Option (List ρ × Option γ)} {reads : γ → Option κ → Prop} (h : K.Sorted rows)
    (hpages : Pages K visible rows fetch reads) {cursor : γ} {position : Option κ}
    (hreads : reads cursor position) {fuel : Nat}
    (hfuel : (K.remaining position rows).length < fuel) :
    follow fetch fuel cursor = some ((K.remaining position rows).filter visible) := by
  induction fuel generalizing cursor position with
  | zero => omega
  | succ fuel ih =>
    obtain ⟨page, hfetch, first, rest, hsplit, hpage, hnone, hnext⟩ := hpages cursor position hreads
    rw [follow, hfetch, Option.bind_some]
    cases hcursor : page.2 with
    | none =>
      show some page.1 = _
      rw [hsplit, List.filter_append, hnone hcursor, List.append_nil, hpage]
    | some next =>
      obtain ⟨last, hlast, hreads'⟩ := hnext next hcursor
      have hrest := h.remaining_getLast hsplit hlast
      have hfirst : 0 < first.length := by
        cases first with
        | nil => cases hlast
        | cons r first => exact Nat.succ_pos _
      have hshort : (K.remaining (some (K.key last)) rows).length < fuel := by
        rw [hsplit, List.length_append] at hfuel
        rw [hrest]
        omega
      show (follow fetch fuel next).map (page.1 ++ ·) = _
      rw [ih hreads' hshort, hrest, hsplit, List.filter_append, hpage]
      rfl

end Keyset
