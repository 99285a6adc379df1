import KiwiCatalog.Lib.IsoText

/-!
# IsoMicroseconds — UTC texts that always write six digits of a second

`isoformat(timespec="microseconds")` of a UTC time has one width, so its texts order as the times
do, and the time can be read back from it.
-/

set_option autoImplicit false

namespace IsoText

/-! ## 1. Writing -/

def microsecondText (wall : Nat) : Text :=
  (secondText (wall / 1000000) ++ '.' :: digits 6 (wall % 1000000)) ++ offsetText 0

theorem Encodes.append {width bound : Nat} {f : Nat → Text} (hf : Encodes width bound f)
    (rest : Text) : Encodes (width + rest.length) bound fun n => f n ++ rest where
  length_eq n hn := by rw [List.length_append, hf.length_eq n hn]
  lt_iff m hm n hn := by
    rw [hf.append_lt_iff hm hn]
    constructor
    · rintro (hlt | ⟨_, hlt⟩)
      · exact hlt
      · exact absurd hlt (List.lt_irrefl rest)
    · exact .inl

theorem encodes_microsecondText :
    Encodes (26 + (offsetText 0).length) maxMicroseconds microsecondText := by
  apply Encodes.append
  exact encodes_secondText.radix ((encodes_digits 6).cons '.')

/-- `isoformat(timespec="microseconds")`. -/
def UtcClock.text (now : UtcClock) : Text := microsecondText now.1

theorem UtcClock.text_lt_iff (s t : UtcClock) : s.text < t.text ↔ s.1 < t.1 :=
  encodes_microsecondText.lt_iff s.1 s.2 t.1 t.2

theorem UtcClock.text_inj {s t : UtcClock} (h : s.text = t.text) : s = t :=
  Subtype.ext (encodes_microsecondText.inj s.2 t.2 h)

theorem UtcClock.not_text_lt_iff (s t : UtcClock) : ¬ s.text < t.text ↔ t.1 ≤ s.1 := by
  rw [UtcClock.text_lt_iff]
  exact Nat.not_lt

theorem UtcClock.text_ne_nil (t : UtcClock) : t.text ≠ [] := by
  intro h
  have hlength := encodes_microsecondText.length_eq t.1 t.2
  rw [show microsecondText t.1 = [] from h, List.length_nil] at hlength
  omega

/-! ## 2. Reading -/

def digitValue (c : Char) : Nat := c.toNat - 48

/-- A number from its decimal digits, the most significant one first. -/
def number (text : Text) : Nat := text.foldl (fun n c => n * 10 + digitValue c) 0

theorem digitValue_digit {n : Nat} (h : n < 10) : digitValue (digit n) = n := by
  have hall : ∀ n < 10, digitValue (digit n) = n := by decide
  exact hall n h

theorem number_digits (width n : Nat) : number (digits width n) = n % 10 ^ width := by
  induction width generalizing n with
  | zero =>
    show 0 = n % 1
    omega
  | succ width ih =>
    have hprefix := ih (n / 10)
    unfold number at hprefix ⊢
    rw [digits, List.foldl_append, hprefix]
    show n / 10 % 10 ^ width * 10 + digitValue (digit (n % 10)) = n % 10 ^ (width + 1)
    rw [digitValue_digit (Nat.mod_lt n (by decide)), Nat.pow_succ', Nat.mod_mul]
    omega

theorem number_digits_of_lt {width n : Nat} (h : n < 10 ^ width) : number (digits width n) = n := by
  rw [number_digits, Nat.mod_eq_of_lt h]

/-- The day of a date. -/
def dayFrom (year month day : Nat) : Nat :=
  daysBeforeYear year + (daysBeforeMonth (isLeap year) month + (day - 1))

theorem dayFrom_fields (day : Nat) :
    dayFrom (yearOf day) (monthOf (isLeap (yearOf day)) (dayOfYear day))
      (dayOfMonth (isLeap (yearOf day)) (dayOfYear day) + 1) = day := by
  have hyear : daysBeforeYear (yearOf day) ≤ day := start_slot_le daysBeforeYear 9999 rfl day
  have hmonth : daysBeforeMonth (isLeap (yearOf day))
      (monthOf (isLeap (yearOf day)) (dayOfYear day)) ≤ dayOfYear day :=
    start_slot_le _ 12 (daysBeforeMonth_zero _) (dayOfYear day)
  unfold dayFrom dayOfMonth
  have hsum : daysBeforeYear (yearOf day) + dayOfYear day = day := by
    unfold dayOfYear
    omega
  omega

/-- The wall clock from the fields of its text, which begin at fixed places. -/
def wallFrom (text : Text) : Nat :=
  let field (start width : Nat) := number ((text.drop start).take width)
  let day := dayFrom (field 0 4) (field 5 2) (field 8 2)
  (day * 86400 + (field 11 2 * 3600 + field 14 2 * 60 + field 17 2)) * 1000000 + field 20 6

/-- `datetime.fromisoformat`, of the texts that `UtcClock.text` writes. -/
def fromisoformat (text : Text) : Option UtcClock :=
  if h : wallFrom text < maxMicroseconds then
    if UtcClock.text ⟨wallFrom text, h⟩ = text then some ⟨wallFrom text, h⟩ else none
  else none

/-- `YYYY-MM-DDTHH:MM:SS.ffffff` and what follows. -/
def layout (year month day hour minute second micros : Nat) (rest : Text) : Text :=
  ((digits 4 year ++ '-' :: (digits 2 month ++ '-' :: digits 2 day)) ++
    'T' :: ((digits 2 hour ++ ':' :: digits 2 minute) ++ ':' :: digits 2 second)) ++
      '.' :: digits 6 micros ++ rest

theorem wallFrom_layout (year month day hour minute second micros : Nat) (rest : Text)
    (hyear : year < 10 ^ 4) (hmonth : month < 10 ^ 2) (hday : day < 10 ^ 2) (hhour : hour < 10 ^ 2)
    (hminute : minute < 10 ^ 2) (hsecond : second < 10 ^ 2) (hmicros : micros < 10 ^ 6) :
    wallFrom (layout year month day hour minute second micros rest) =
      (dayFrom year month day * 86400 + (hour * 3600 + minute * 60 + second)) * 1000000 +
        micros := by
  -- each field is the digits that stand at its place
  have hfields : wallFrom (layout year month day hour minute second micros rest) =
      (dayFrom (number (digits 4 year)) (number (digits 2 month)) (number (digits 2 day)) * 86400 +
        (number (digits 2 hour) * 3600 + number (digits 2 minute) * 60 +
          number (digits 2 second))) * 1000000 + number (digits 6 micros) := rfl
  rw [hfields, number_digits_of_lt hyear, number_digits_of_lt hmonth, number_digits_of_lt hday,
    number_digits_of_lt hhour, number_digits_of_lt hminute, number_digits_of_lt hsecond,
    number_digits_of_lt hmicros]

theorem wallFrom_microsecondText {wall : Nat} (h : wall < maxMicroseconds) :
    wallFrom (microsecondText wall) = wall := by
  have hday : wall / 1000000 / 86400 < maxDays := by
    unfold maxMicroseconds maxSeconds at h
    omega
  have hyear : yearOf (wall / 1000000 / 86400) ≤ 9999 := slot_le _ _ _
  have hmonth : monthOf (isLeap (yearOf (wall / 1000000 / 86400)))
      (dayOfYear (wall / 1000000 / 86400)) ≤ 12 := slot_le _ _ _
  have hdayOfMonth := dayOfMonth_lt (isLeap (yearOf (wall / 1000000 / 86400))) (dayOfYear_lt hday)
  have hread := wallFrom_layout (yearOf (wall / 1000000 / 86400))
    (monthOf (isLeap (yearOf (wall / 1000000 / 86400))) (dayOfYear (wall / 1000000 / 86400)))
    (dayOfMonth (isLeap (yearOf (wall / 1000000 / 86400))) (dayOfYear (wall / 1000000 / 86400)) + 1)
    (wall / 1000000 % 86400 / 60 / 60) (wall / 1000000 % 86400 / 60 % 60)
    (wall / 1000000 % 86400 % 60) (wall % 1000000) (offsetText 0)
    (by omega) (by omega) (by omega) (by omega) (by omega) (by omega) (by omega)
  rw [dayFrom_fields] at hread
  have htext : microsecondText wall = layout _ _ _ _ _ _ _ (offsetText 0) := rfl
  rw [htext, hread]
  omega

theorem fromisoformat_text (t : UtcClock) : fromisoformat t.text = some t := by
  have hwall : wallFrom t.text = t.1 := wallFrom_microsecondText t.2
  have hlt : wallFrom t.text < maxMicroseconds := by rw [hwall]; exact t.2
  have heq : (⟨wallFrom t.text, hlt⟩ : UtcClock) = t := Subtype.ext hwall
  unfold fromisoformat
  rw [dif_pos hlt, heq, if_pos rfl]

end IsoText
