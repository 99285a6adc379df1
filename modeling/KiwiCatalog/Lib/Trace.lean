import Mathlib.Data.List.Basic

/-!
# Trace — the events of a run, each with those before it
-/

set_option autoImplicit false

namespace Trace

variable {α : Type*}

/-- Each event of the log stands in the relation to the events before it. -/
def Each (P : List α → α → Prop) (log : List α) : Prop :=
  ∀ before a after, log = before ++ a :: after → P before a

variable {P : List α → α → Prop}

theorem each_nil : Each P [] := by
  intro before a after h
  cases before <;> cases h

theorem each_concat {log : List α} {a : α} (hlog : Each P log) (ha : P log a) :
    Each P (log ++ [a]) := by
  intro before b after h
  -- the event is the last one, or one of the log
  cases List.eq_nil_or_concat after with
  | inl hnil =>
    subst hnil
    have hlast := List.append_inj' h rfl
    rw [← hlast.1, ← (List.cons.inj hlast.2).1]
    exact ha
  | inr hconcat =>
    obtain ⟨rest, c, rfl⟩ := hconcat
    rw [List.concat_eq_append, ← List.cons_append, ← List.append_assoc] at h
    exact hlog before b rest (List.append_inj' h rfl).1

/-- What is asked of the event alone. -/
theorem Each.mem {log : List α} {a : α} (h : Each P log) (ha : a ∈ log) : ∃ before, P before a := by
  obtain ⟨before, after, hsplit⟩ := List.append_of_mem ha
  exact ⟨before, h before a after hsplit⟩

end Trace
