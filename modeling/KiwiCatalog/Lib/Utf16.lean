import Mathlib.Data.List.Basic

/-!
# Utf16 — the order of strings by their UTF-16 form

A character beyond the basic plane is two surrogates, which come before the last characters of
the plane: this order of strings is not that of their code points.
-/

set_option autoImplicit false

namespace Utf16

/-- The code units of a character. -/
def units (c : Char) : List Nat :=
  if c.toNat < 0x10000 then [c.toNat]
  else [0xd800 + (c.toNat - 0x10000) / 1024, 0xdc00 + (c.toNat - 0x10000) % 1024]

/-- The bytes of a code unit, the high one first. -/
def unitBytes (unit : Nat) : List Nat := [unit / 256, unit % 256]

def bytes (c : Char) : List Nat := (units c).flatMap unitBytes

/-- `text.encode("utf-16-be")`. -/
def encode (text : List Char) : List Nat := text.flatMap bytes

theorem notSurrogate (c : Char) : ¬ (0xd800 ≤ c.toNat ∧ c.toNat < 0xe000) := by
  have hvalid : c.toNat < 0xd800 ∨ (0xdfff < c.toNat ∧ c.toNat < 0x110000) := c.valid
  omega

theorem toNat_lt (c : Char) : c.toNat < 0x110000 := by
  have hvalid : c.toNat < 0xd800 ∨ (0xdfff < c.toNat ∧ c.toNat < 0x110000) := c.valid
  omega

theorem bytes_of_small {c : Char} (h : c.toNat < 0x10000) :
    bytes c = [c.toNat / 256, c.toNat % 256] := by
  rw [bytes, units, if_pos h]
  rfl

theorem bytes_of_large {c : Char} (h : ¬ c.toNat < 0x10000) :
    bytes c = [(0xd800 + (c.toNat - 0x10000) / 1024) / 256,
      (0xd800 + (c.toNat - 0x10000) / 1024) % 256,
      (0xdc00 + (c.toNat - 0x10000) % 1024) / 256,
      (0xdc00 + (c.toNat - 0x10000) % 1024) % 256] := by
  rw [bytes, units, if_neg h]
  rfl

/-- The first character is read off the bytes. -/
theorem bytes_append_inj {c d : Char} {rest others : List Nat}
    (h : bytes c ++ rest = bytes d ++ others) : c = d ∧ rest = others := by
  have hc := notSurrogate c
  have hd := notSurrogate d
  have hclt := toNat_lt c
  have hdlt := toNat_lt d
  suffices hnat : c.toNat = d.toNat by
    have heq : c = d := Char.toNat_inj.mp hnat
    rw [heq] at h
    exact ⟨heq, List.append_cancel_left h⟩
  by_cases hsmall : c.toNat < 0x10000
  · by_cases hsmall' : d.toNat < 0x10000
    · rw [bytes_of_small hsmall, bytes_of_small hsmall'] at h
      simp only [List.cons_append, List.cons.injEq] at h
      omega
    · -- the high byte of a surrogate is that of no character of the plane
      rw [bytes_of_small hsmall, bytes_of_large hsmall'] at h
      simp only [List.cons_append, List.cons.injEq] at h
      omega
  · by_cases hsmall' : d.toNat < 0x10000
    · rw [bytes_of_large hsmall, bytes_of_small hsmall'] at h
      simp only [List.cons_append, List.cons.injEq] at h
      omega
    · rw [bytes_of_large hsmall, bytes_of_large hsmall'] at h
      simp only [List.cons_append, List.cons.injEq] at h
      omega

theorem bytes_ne_nil (c : Char) : bytes c ≠ [] := by
  by_cases hsmall : c.toNat < 0x10000
  · rw [bytes_of_small hsmall]
    exact List.cons_ne_nil _ _
  · rw [bytes_of_large hsmall]
    exact List.cons_ne_nil _ _

/-- Texts with one UTF-16 form are one text. -/
theorem encode_injective {s t : List Char} (h : encode s = encode t) : s = t := by
  induction s generalizing t with
  | nil =>
    cases t with
    | nil => rfl
    | cons d t =>
      rw [encode, encode, List.flatMap_nil, List.flatMap_cons] at h
      exact absurd (List.append_eq_nil_iff.mp h.symm).1 (bytes_ne_nil d)
  | cons c s ih =>
    cases t with
    | nil =>
      rw [encode, encode, List.flatMap_nil, List.flatMap_cons] at h
      exact absurd (List.append_eq_nil_iff.mp h).1 (bytes_ne_nil c)
    | cons d t =>
      rw [encode, encode, List.flatMap_cons, List.flatMap_cons] at h
      have hfirst := bytes_append_inj h
      rw [hfirst.1, ih hfirst.2]

/-! ## The order of the bytes -/

/-- Byte strings in lexicographic order. -/
def bytesLe : List Nat → List Nat → Bool
  | [], _ => true
  | _ :: _, [] => false
  | a :: s, b :: t => a < b || (a = b && bytesLe s t)

theorem bytesLe_cons {a b : Nat} {s t : List Nat} :
    bytesLe (a :: s) (b :: t) = true ↔ a < b ∨ a = b ∧ bytesLe s t = true := by
  rw [bytesLe, Bool.or_eq_true, Bool.and_eq_true, decide_eq_true_eq, decide_eq_true_eq]

theorem bytesLe_total (s t : List Nat) : bytesLe s t = true ∨ bytesLe t s = true := by
  induction s generalizing t with
  | nil => exact .inl rfl
  | cons a s ih =>
    cases t with
    | nil => exact .inr rfl
    | cons b t =>
      rw [bytesLe_cons, bytesLe_cons]
      rcases Nat.lt_trichotomy a b with hlt | heq | hlt
      · exact .inl (.inl hlt)
      · exact (ih t).imp (fun h => .inr ⟨heq, h⟩) fun h => .inr ⟨heq.symm, h⟩
      · exact .inr (.inl hlt)

theorem bytesLe_trans {s t u : List Nat} (hst : bytesLe s t = true) (htu : bytesLe t u = true) :
    bytesLe s u = true := by
  induction s generalizing t u with
  | nil => rfl
  | cons a s ih =>
    cases t with
    | nil => cases hst
    | cons b t =>
      cases u with
      | nil => cases htu
      | cons c u =>
        rw [bytesLe_cons] at hst htu ⊢
        rcases hst with hab | ⟨hab, hst⟩
        · rcases htu with hbc | ⟨hbc, _⟩
          · exact .inl (by omega)
          · exact .inl (by omega)
        · rcases htu with hbc | ⟨hbc, htu⟩
          · exact .inl (by omega)
          · exact .inr ⟨hab.trans hbc, ih hst htu⟩

theorem bytesLe_antisymm {s t : List Nat} (hst : bytesLe s t = true) (hts : bytesLe t s = true) :
    s = t := by
  induction s generalizing t with
  | nil =>
    cases t with
    | nil => rfl
    | cons b t => cases hts
  | cons a s ih =>
    cases t with
    | nil => cases hst
    | cons b t =>
      rw [bytesLe_cons] at hst hts
      rcases hst with hab | ⟨hab, hst⟩
      · exact absurd hts (by omega)
      · rcases hts with hba | ⟨_, hts⟩
        · exact absurd hab (by omega)
        · rw [hab, ih hst hts]

/-- The order of strings by their UTF-16 forms. -/
def le (a b : String) : Bool := bytesLe (encode a.toList) (encode b.toList)

theorem le_total (a b : String) : (le a b || le b a) = true := by
  rw [Bool.or_eq_true]
  exact bytesLe_total _ _

theorem le_trans (a b c : String) (hab : le a b = true) (hbc : le b c = true) :
    le a c = true := bytesLe_trans hab hbc

/-- The order is antisymmetric: no two strings have one form. -/
theorem le_antisymm (a b : String) (hab : le a b = true) (hba : le b a = true) : a = b :=
  String.toList_inj.mp (encode_injective (bytesLe_antisymm hab hba))

/-- Beyond the basic plane the order is not that of the code points. -/
example : le "𐀀" "｡" = true ∧ "｡" < "𐀀" := by decide

end Utf16
