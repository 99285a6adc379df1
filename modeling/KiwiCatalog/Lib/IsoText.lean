import Mathlib.Data.Nat.Find
import Mathlib.Data.Int.Order.Basic
import Mathlib.Data.Char
import Mathlib.Data.List.Lex
import Mathlib.Algebra.Ring.Nat

/-!
# IsoText — the ISO text of a date and time, and the order of such texts

Texts are compared character by character.  `Encodes` says that a fixed-width text orders as the
number it writes does; the fields of a date and time are encoded one after the other.  The text of
an aware time writes its wall clock and then its offset, so against a UTC text it compares by wall
clock alone.
-/

set_option autoImplicit false

namespace IsoText

/-! ## 1. Fixed-width texts -/

abbrev Text := List Char

/-- Below `bound`, `f` writes `width` characters that order as their numbers do. -/
structure Encodes (width bound : Nat) (f : Nat → Text) : Prop where
  length_eq : ∀ n < bound, (f n).length = width
  lt_iff : ∀ m < bound, ∀ n < bound, (f m < f n ↔ m < n)

/-- Between texts with heads of one length, the heads decide unless they are equal. -/
theorem append_lt_append_iff : ∀ {a b x y : Text}, a.length = b.length →
    (a ++ x < b ++ y ↔ a < b ∨ a = b ∧ x < y)
  | [], [], x, y, _ => by simp
  | c :: a, d :: b, x, y, h => by
    have hrest := append_lt_append_iff (x := x) (y := y) (Nat.succ.inj h)
    rw [List.cons_append, List.cons_append, List.cons_lt_cons_iff, List.cons_lt_cons_iff, hrest,
      List.cons.injEq]
    tauto

theorem Encodes.inj {width bound : Nat} {f : Nat → Text} (hf : Encodes width bound f) {m n : Nat}
    (hm : m < bound) (hn : n < bound) (h : f m = f n) : m = n := by
  have hmn : ¬ m < n := fun hlt => List.lt_irrefl (f n) (h ▸ (hf.lt_iff m hm n hn).mpr hlt)
  have hnm : ¬ n < m := fun hlt => List.lt_irrefl (f n) (h ▸ (hf.lt_iff n hn m hm).mpr hlt)
  omega

theorem Encodes.append_lt_iff {width bound : Nat} {f : Nat → Text} (hf : Encodes width bound f)
    {m n : Nat} (hm : m < bound) (hn : n < bound) (x y : Text) :
    f m ++ x < f n ++ y ↔ m < n ∨ m = n ∧ x < y := by
  have hlen : (f m).length = (f n).length := by rw [hf.length_eq m hm, hf.length_eq n hn]
  have heq : f m = f n ↔ m = n := ⟨hf.inj hm hn, fun h => h ▸ rfl⟩
  rw [append_lt_append_iff hlen, hf.lt_iff m hm n hn, heq]

/-- Two fields: a head, and a tail that may depend on the head, when the numbers order as the pairs
of fields do. -/
theorem Encodes.field {width width' bound bound' M : Nat} {f : Nat → Text} {g : Nat → Nat → Text}
    {q r : Nat → Nat} (hf : Encodes width bound f) (hg : ∀ h < bound, Encodes width' bound' (g h))
    (hq : ∀ k < M, q k < bound) (hr : ∀ k < M, r k < bound')
    (hlex : ∀ j < M, ∀ k < M, (j < k ↔ q j < q k ∨ q j = q k ∧ r j < r k)) :
    Encodes (width + width') M fun k => f (q k) ++ g (q k) (r k) where
  length_eq k hk := by
    rw [List.length_append, hf.length_eq _ (hq k hk), (hg _ (hq k hk)).length_eq _ (hr k hk)]
  lt_iff j hj k hk := by
    rw [hf.append_lt_iff (hq j hj) (hq k hk), hlex j hj k hk]
    constructor
    · rintro (hlt | ⟨heq, hlt⟩)
      · exact .inl hlt
      · rw [heq] at hlt
        exact .inr ⟨heq, ((hg _ (hq k hk)).lt_iff _ (hr j hj) _ (hr k hk)).mp hlt⟩
    · rintro (hlt | ⟨heq, hlt⟩)
      · exact .inl hlt
      · rw [heq]
        exact .inr ⟨rfl, ((hg _ (hq k hk)).lt_iff _ (hr j hj) _ (hr k hk)).mpr hlt⟩

theorem Encodes.cons {width bound : Nat} {f : Nat → Text} (hf : Encodes width bound f) (c : Char) :
    Encodes (width + 1) bound fun n => c :: f n where
  length_eq n hn := by rw [List.length_cons, hf.length_eq n hn]
  lt_iff m hm n hn := by
    rw [List.cons_lt_cons_iff, ← hf.lt_iff m hm n hn]
    simp

/-- A head that counts whole blocks of `bound'`, and the rest of the block. -/
theorem Encodes.radix {width width' bound bound' : Nat} {f g : Nat → Text}
    (hf : Encodes width bound f) (hg : Encodes width' bound' g) :
    Encodes (width + width') (bound * bound') fun k => f (k / bound') ++ g (k % bound') := by
  apply hf.field (g := fun _ => g) (fun _ _ => hg)
  · intro k hk
    exact Nat.div_lt_of_lt_mul (by rwa [Nat.mul_comm])
  · intro k hk
    apply Nat.mod_lt
    exact Nat.pos_of_ne_zero fun h => by simp [h] at hk
  · intro j _ k _
    have hj := Nat.div_add_mod j bound'
    have hk := Nat.div_add_mod k bound'
    constructor
    · intro hlt
      rcases Nat.lt_or_eq_of_le (Nat.div_le_div_right (c := bound') hlt.le) with hq | hq
      · exact .inl hq
      · rw [hq] at hj
        exact .inr ⟨hq, by omega⟩
    · rintro (hq | ⟨hq, hr⟩)
      · exact Nat.lt_of_div_lt_div hq
      · rw [hq] at hj
        omega

/-! ## 2. Decimal fields -/

def digit (n : Nat) : Char := Char.ofNat (48 + n)

/-- `n` in `width` decimal digits, with leading zeros. -/
def digits : Nat → Nat → Text
  | 0, _ => []
  | width + 1, n => digits width (n / 10) ++ [digit (n % 10)]

theorem encodes_digit : Encodes 1 10 fun n => [digit n] where
  length_eq _ _ := rfl
  lt_iff m hm n hn := by
    have h : ∀ m < 10, ∀ n < 10, ([digit m] < [digit n] ↔ m < n) := by decide
    exact h m hm n hn

theorem encodes_digits (width : Nat) : Encodes width (10 ^ width) (digits width) := by
  induction width with
  | zero =>
    refine ⟨fun _ _ => rfl, fun m hm n hn => ?_⟩
    have h : m = n := by omega
    rw [h]
    exact iff_of_false (List.not_lt_nil _) (Nat.lt_irrefl _)
  | succ width ih => exact ih.radix encodes_digit

theorem Encodes.mono {width bound bound' : Nat} {f : Nat → Text} (hf : Encodes width bound f)
    (h : bound' ≤ bound) : Encodes width bound' f :=
  ⟨fun n hn => hf.length_eq n (by omega), fun m hm n hn => hf.lt_iff m (by omega) n (by omega)⟩

theorem Encodes.succ {width bound : Nat} {f : Nat → Text} (hf : Encodes width (bound + 1) f) :
    Encodes width bound fun n => f (n + 1) where
  length_eq n hn := hf.length_eq (n + 1) (by omega)
  lt_iff m hm n hn := by
    rw [hf.lt_iff (m + 1) (by omega) (n + 1) (by omega)]
    omega

/-! ## 3. The calendar

Days, and so wall clocks, are counted from the first day of year 1. -/

def isLeap (year : Nat) : Bool :=
  year % 4 == 0 && (year % 100 != 0 || year % 400 == 0)

def daysBeforeYear (year : Nat) : Nat :=
  (year - 1) * 365 + (year - 1) / 4 - (year - 1) / 100 + (year - 1) / 400

def daysBeforeMonth (leap : Bool) (month : Nat) : Nat :=
  [0, 0, 31, 59, 90, 120, 151, 181, 212, 243, 273, 304, 334].getD month 0 +
    if leap && 2 < month then 1 else 0

/-- The last index up to `last` whose start is not after `d`. -/
def slot (start : Nat → Nat) (last d : Nat) : Nat :=
  Nat.findGreatest (fun i => start i ≤ d) last

def yearOf (day : Nat) : Nat := slot daysBeforeYear 9999 day

def dayOfYear (day : Nat) : Nat := day - daysBeforeYear (yearOf day)

def monthOf (leap : Bool) (day : Nat) : Nat := slot (daysBeforeMonth leap) 12 day

/-- From zero, as `dayOfYear` is. -/
def dayOfMonth (leap : Bool) (day : Nat) : Nat :=
  day - daysBeforeMonth leap (monthOf leap day)

/-- The number of days up to the last one of year 9999. -/
def maxDays : Nat := 3652059

def maxSeconds : Nat := maxDays * 86400

def maxMicroseconds : Nat := maxSeconds * 1000000

section Slots

variable (start : Nat → Nat) (last : Nat)

theorem start_slot_le (h0 : start 0 = 0) (d : Nat) : start (slot start last d) ≤ d := by
  have hzero : start 0 ≤ d := by omega
  exact Nat.findGreatest_spec (P := fun i => start i ≤ d) (Nat.zero_le last) hzero

variable {start last} in
theorem lt_start_of_slot_lt {d i : Nat} (hi : slot start last d < i) (hlast : i ≤ last) :
    d < start i := by
  have h : ¬ start i ≤ d :=
    Nat.findGreatest_is_greatest (P := fun i => start i ≤ d) hi hlast
  omega

theorem slot_le (d : Nat) : slot start last d ≤ last := Nat.findGreatest_le last

theorem slot_mono {d e : Nat} (h : d ≤ e) : slot start last d ≤ slot start last e :=
  Nat.findGreatest_mono (fun i (hi : start i ≤ d) => show start i ≤ e by omega) (Nat.le_refl last)

/-- Numbers order as their slots, and inside a slot as the distance from its start. -/
theorem lt_iff_slot (h0 : start 0 = 0) (d e : Nat) :
    d < e ↔ slot start last d < slot start last e ∨ slot start last d = slot start last e ∧
      d - start (slot start last d) < e - start (slot start last e) := by
  have hd : start (slot start last d) ≤ d := start_slot_le start last h0 d
  have he : start (slot start last e) ≤ e := start_slot_le start last h0 e
  constructor
  · intro hlt
    rcases Nat.lt_or_eq_of_le (slot_mono start last hlt.le) with hs | hs
    · exact .inl hs
    · rw [hs] at hd
      right
      rw [hs]
      exact ⟨rfl, by omega⟩
  · rintro (hs | ⟨hs, hlt⟩)
    · have hde := lt_start_of_slot_lt hs (slot_le start last e)
      omega
    · rw [hs] at hlt hd
      omega

end Slots

theorem daysBeforeMonth_zero (leap : Bool) : daysBeforeMonth leap 0 = 0 := by
  cases leap <;> rfl

theorem dayOfMonth_lt (leap : Bool) {day : Nat} (hday : day < 366) : dayOfMonth leap day < 99 := by
  have h : ∀ leap : Bool, ∀ month : Nat, month ≤ 12 →
      daysBeforeMonth leap (month + 1) ≤ daysBeforeMonth leap month + 31 ∨ month = 12 := by decide
  unfold dayOfMonth
  rcases h leap (monthOf leap day) (slot_le _ _ day) with hnext | hlast
  · have hlt : monthOf leap day = 12 ∨ monthOf leap day < 12 := by
      have hle : monthOf leap day ≤ 12 := slot_le _ _ day
      omega
    rcases hlt with hlast | hlt
    · rw [hlast]
      have h12 : 334 ≤ daysBeforeMonth leap 12 := by cases leap <;> decide
      omega
    · have hday' : day < daysBeforeMonth leap (monthOf leap day + 1) :=
        lt_start_of_slot_lt (Nat.lt_succ_self _) hlt
      omega
  · rw [hlast]
    have h12 : 334 ≤ daysBeforeMonth leap 12 := by cases leap <;> decide
    omega

theorem daysBeforeYear_succ (year : Nat) :
    daysBeforeYear (year + 1) ≤ daysBeforeYear year + 366 := by
  unfold daysBeforeYear
  omega

theorem dayOfYear_lt {day : Nat} (hday : day < maxDays) : dayOfYear day < 366 := by
  unfold dayOfYear
  have hle : yearOf day ≤ 9999 := slot_le _ _ day
  have hnext : day < daysBeforeYear (yearOf day + 1) := by
    by_cases hlast : yearOf day = 9999
    · rw [hlast]
      exact hday
    · exact lt_start_of_slot_lt (Nat.lt_succ_self _) (by omega)
  have hstep := daysBeforeYear_succ (yearOf day)
  omega

/-! ## 4. Date, time of day and offset -/

/-- `MM-DD` of a day of a year. -/
def monthDayText (leap : Bool) (day : Nat) : Text :=
  digits 2 (monthOf leap day) ++ '-' :: digits 2 (dayOfMonth leap day + 1)

/-- `YYYY-MM-DD`. -/
def dateText (day : Nat) : Text :=
  digits 4 (yearOf day) ++ '-' :: monthDayText (isLeap (yearOf day)) (dayOfYear day)

/-- `HH:MM`, of a number of minutes. -/
def minuteText (minutes : Nat) : Text := digits 2 (minutes / 60) ++ ':' :: digits 2 (minutes % 60)

/-- `HH:MM:SS`, of a number of seconds. -/
def timeText (seconds : Nat) : Text := minuteText (seconds / 60) ++ ':' :: digits 2 (seconds % 60)

/-- `YYYY-MM-DDTHH:MM:SS`. -/
def secondText (seconds : Nat) : Text := dateText (seconds / 86400) ++ 'T' :: timeText (seconds % 86400)

/-- The fraction of a second, written only when there is one. -/
def fractionText (micros : Nat) : Text :=
  if micros = 0 then [] else '.' :: digits 6 micros

/-- `+HH:MM[:SS[.ffffff]]` of an offset in microseconds. -/
def offsetText (offset : Int) : Text :=
  let micros := offset.natAbs
  let seconds := micros / 1000000
  (if offset < 0 then '-' else '+') :: minuteText (seconds / 60) ++
    if micros % 60000000 = 0 then []
    else ':' :: digits 2 (seconds % 60) ++ fractionText (micros % 1000000)

theorem encodes_minuteText : Encodes 5 1440 minuteText := by
  have hhours : Encodes 2 24 (digits 2) := (encodes_digits 2).mono (by decide)
  have hminutes : Encodes 2 60 (digits 2) := (encodes_digits 2).mono (by decide)
  exact hhours.radix (hminutes.cons ':')

theorem encodes_timeText : Encodes 8 86400 timeText := by
  have hseconds : Encodes 2 60 (digits 2) := (encodes_digits 2).mono (by decide)
  exact encodes_minuteText.radix (hseconds.cons ':')

theorem encodes_monthDayText (leap : Bool) : Encodes 5 366 (monthDayText leap) := by
  have hday : Encodes 3 99 fun n => '-' :: digits 2 (n + 1) := (encodes_digits 2).succ.cons '-'
  apply (encodes_digits 2).field (g := fun _ n => '-' :: digits 2 (n + 1)) (fun _ _ => hday)
  · intro k _
    have hle : monthOf leap k ≤ 12 := slot_le _ _ k
    show monthOf leap k < 100
    omega
  · intro k hk
    exact dayOfMonth_lt leap hk
  · intro j _ k _
    exact lt_iff_slot _ _ (daysBeforeMonth_zero leap) j k

theorem encodes_dateText : Encodes 10 maxDays dateText := by
  have hmonthDay : ∀ year < 10 ^ 4, Encodes 6 366 fun n => '-' :: monthDayText (isLeap year) n :=
    fun year _ => (encodes_monthDayText (isLeap year)).cons '-'
  apply (encodes_digits 4).field hmonthDay
  · intro k _
    have hle : yearOf k ≤ 9999 := slot_le _ _ k
    show yearOf k < 10000
    omega
  · intro k hk
    exact dayOfYear_lt hk
  · intro j _ k _
    exact lt_iff_slot _ _ rfl j k

theorem encodes_secondText : Encodes 19 maxSeconds secondText :=
  encodes_dateText.radix (encodes_timeText.cons 'T')

/-! ## 5. Aware times -/

/-- An aware date and time: a wall clock in microseconds, and how far it is ahead of UTC. -/
structure DateTime where
  wall : Nat
  offset : Int
  wall_lt : wall < maxMicroseconds
  offset_lt : offset.natAbs < 86400000000

namespace DateTime

/-- The microsecond of the UTC clock, before year 1 too. -/
def instant (t : DateTime) : Int := t.wall - t.offset

def utc (wall : Nat) (h : wall < maxMicroseconds) : DateTime where
  wall := wall
  offset := 0
  wall_lt := h
  offset_lt := by decide

/-- The same offset `micros` later; `none` is past year 9999. -/
def add? (t : DateTime) (micros : Nat) : Option DateTime :=
  if h : t.wall + micros < maxMicroseconds then
    some { wall := t.wall + micros, offset := t.offset, wall_lt := h, offset_lt := t.offset_lt }
  else none

def isoformat (t : DateTime) : Text :=
  secondText (t.wall / 1000000) ++ (fractionText (t.wall % 1000000) ++ offsetText t.offset)

@[simp] theorem instant_utc (wall : Nat) (h : wall < maxMicroseconds) :
    (utc wall h).instant = wall := by
  show (wall : Int) - 0 = wall
  omega

@[simp] theorem wall_utc (wall : Nat) (h : wall < maxMicroseconds) : (utc wall h).wall = wall := rfl

theorem add?_eq_some {t u : DateTime} {micros : Nat} (h : t.add? micros = some u) :
    u.wall = t.wall + micros ∧ u.offset = t.offset := by
  unfold add? at h
  split at h
  · rw [← Option.some.inj h]
    exact ⟨rfl, rfl⟩
  · cases h

end DateTime

/-- A reading of the UTC clock, in microseconds. -/
abbrev UtcClock := { wall : Nat // wall < maxMicroseconds }

def UtcClock.time (now : UtcClock) : DateTime := .utc now.1 now.2

/-- What follows the minutes of an offset. -/
def offsetRest (offset : Int) : Text :=
  if offset.natAbs % 60000000 = 0 then []
  else ':' :: digits 2 (offset.natAbs / 1000000 % 60) ++ fractionText (offset.natAbs % 1000000)

theorem offsetText_eq (offset : Int) :
    offsetText offset = (if offset < 0 then '-' else '+') ::
      (minuteText (offset.natAbs / 1000000 / 60) ++ offsetRest offset) := rfl

theorem offsetText_zero : offsetText 0 = '+' :: (minuteText 0 ++ []) := rfl

/-- No offset is written before the one of UTC. -/
theorem not_offsetText_lt_utc {offset : Int} (h : offset.natAbs < 86400000000) :
    ¬ offsetText offset < offsetText 0 := by
  rw [offsetText_eq, offsetText_zero, List.cons_lt_cons_iff,
    encodes_minuteText.append_lt_iff (by omega) (by omega)]
  split
  · have hlt : ¬ '-' < '+' := by decide
    have hne : '-' ≠ '+' := by decide
    simp [hlt, hne]
  · simp

theorem offsetText_lt_fraction (offset : Int) {micros : Nat} (h : micros ≠ 0) (rest : Text) :
    offsetText offset < fractionText micros ++ rest := by
  rw [offsetText_eq, fractionText, if_neg h, List.cons_append, List.cons_lt_cons_iff]
  left
  split <;> decide

/-- The order of the texts after the seconds is the order of the fractions. -/
theorem fraction_lt_iff {micros micros' : Nat} (hm : micros < 1000000) (hm' : micros' < 1000000)
    {offset : Int} (ho : offset.natAbs < 86400000000) :
    fractionText micros ++ offsetText offset < fractionText micros' ++ offsetText 0 ↔
      micros < micros' := by
  have hnot := not_offsetText_lt_utc ho
  by_cases h : micros = 0
  · subst h
    by_cases h' : micros' = 0
    · subst h'
      simpa [fractionText] using hnot
    · have hlt : offsetText offset < fractionText micros' ++ offsetText 0 :=
        offsetText_lt_fraction offset h' _
      have hpos : 0 < micros' := Nat.pos_of_ne_zero h'
      simpa [fractionText, hpos] using hlt
  · by_cases h' : micros' = 0
    · subst h'
      have hlt := offsetText_lt_fraction 0 h (offsetText offset)
      have hge : ¬ fractionText micros ++ offsetText offset < offsetText 0 :=
        fun hcontra => List.lt_asymm hcontra hlt
      simpa [fractionText] using hge
    · unfold fractionText
      rw [if_neg h, if_neg h', List.cons_append, List.cons_append, List.cons_lt_cons_iff,
        (encodes_digits 6).append_lt_iff hm hm']
      simp [hnot]

/-- Against a UTC text, a time is written before it exactly when its wall clock is earlier: the
offset moves the instant, not the text. -/
theorem isoformat_lt_utc_iff (t : DateTime) {wall : Nat} (h : wall < maxMicroseconds) :
    t.isoformat < (DateTime.utc wall h).isoformat ↔ t.wall < wall := by
  have ht := t.wall_lt
  have hsec : ∀ w < maxMicroseconds, w / 1000000 < maxSeconds := by
    intro w hw
    exact Nat.div_lt_of_lt_mul (by rwa [Nat.mul_comm])
  show secondText (t.wall / 1000000) ++ (fractionText (t.wall % 1000000) ++ offsetText t.offset) <
    secondText (wall / 1000000) ++ (fractionText (wall % 1000000) ++ offsetText 0) ↔ _
  rw [encodes_secondText.append_lt_iff (hsec _ ht) (hsec _ h),
    fraction_lt_iff (Nat.mod_lt _ (by decide)) (Nat.mod_lt _ (by decide)) t.offset_lt]
  omega

/-! ## 6. The characters of a text -/

theorem isDigit_digit {n : Nat} (h : n < 10) : (digit n).isDigit = true := by
  have hall : (List.range 10).all (fun n => (digit n).isDigit) = true := by decide
  exact List.all_eq_true.mp hall n (List.mem_range.mpr h)

theorem isDigit_of_digits {width n : Nat} {c : Char} (h : c ∈ digits width n) :
    c.isDigit = true := by
  induction width generalizing n with
  | zero => cases h
  | succ width ih =>
    rcases List.mem_append.mp h with hmem | hmem
    · exact ih hmem
    · rw [List.mem_singleton.mp hmem]
      exact isDigit_digit (Nat.mod_lt n (by decide))

/-- The marks between the digits. -/
def isoMarks : Text := ['-', 'T', ':', '+', '.']

/-- The text of a time has digits and marks only. -/
theorem DateTime.not_mem_isoformat (t : DateTime) {c : Char} (hdigit : c.isDigit = false)
    (hmark : c ∉ isoMarks) : c ∉ t.isoformat := by
  have hdigits : ∀ width n, c ∉ digits width n := by
    intro width n hmem
    rw [isDigit_of_digits hmem] at hdigit
    cases hdigit
  simp only [isoMarks, List.mem_cons, List.not_mem_nil, or_false, not_or] at hmark
  obtain ⟨hdash, hT, hcolon, hplus, hdot⟩ := hmark
  have hminutes : ∀ minutes, c ∉ minuteText minutes := by
    intro minutes
    simp [minuteText, hdigits, hcolon]
  have hfraction : ∀ micros, c ∉ fractionText micros := by
    intro micros
    unfold fractionText
    split
    · exact List.not_mem_nil
    · simp [hdigits, hdot]
  have hoffset : c ∉ offsetText t.offset := by
    rw [offsetText_eq, List.mem_cons, List.mem_append]
    unfold offsetRest
    rintro (hsign | hmem | hrest)
    · split at hsign
      · exact hdash hsign
      · exact hplus hsign
    · exact hminutes _ hmem
    · split at hrest
      · cases hrest
      · simp [hdigits, hfraction, hcolon] at hrest
  simp [isoformat, secondText, dateText, monthDayText, timeText, hdigits, hminutes, hfraction,
    hoffset, hdash, hT, hcolon]

end IsoText
