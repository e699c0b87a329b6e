import Mathlib.Tactic

/-!
# The Gregorian calendar

Dates and times as a calendar has them, and as the number of seconds since the beginning of some
year, the epoch. In `DateTime.seconds` the days of a month are counted from zero; a date that is
counted in this way (`Counted`) is given by its number of seconds (`Counted.eq_of_seconds`).
-/

namespace Gregorian

/-- The rule for leap years. -/
def isLeap (y : ℕ) : Bool := y % 4 == 0 && (y % 100 != 0 || y % 400 == 0)

/-- The length of a year. -/
def daysInYear (y : ℕ) : ℕ := if isLeap y then 366 else 365

/-- The length of a month in a common year. -/
def commonDays : ℕ → ℕ
  | 1 | 3 | 5 | 7 | 8 | 10 | 12 => 31
  | 4 | 6 | 9 | 11 => 30
  | 2 => 28
  | _ => 0

/-- The length of a month. -/
def daysInMonth (y m : ℕ) : ℕ := commonDays m + if m = 2 ∧ isLeap y = true then 1 else 0

/-- The days of a year in front of a month. -/
def daysBeforeMonth (y m : ℕ) : ℕ := ∑ k ∈ Finset.range m, daysInMonth y k

/-- The days from the beginning of the epoch to that of a year. -/
def daysBeforeYear (epoch y : ℕ) : ℕ := ∑ k ∈ Finset.Ico epoch y, daysInYear k

lemma daysBeforeMonth_succ (y m : ℕ) :
    daysBeforeMonth y (m + 1) = daysBeforeMonth y m + daysInMonth y m :=
  Finset.sum_range_succ _ _

lemma daysBeforeYear_succ {epoch y : ℕ} (hy : epoch ≤ y) :
    daysBeforeYear epoch (y + 1) = daysBeforeYear epoch y + daysInYear y :=
  Finset.sum_Ico_succ_top hy _

lemma daysBeforeMonth_mono (y : ℕ) : Monotone (daysBeforeMonth y) := fun _ _ hle =>
  Finset.sum_le_sum_of_subset (Finset.range_mono hle)

lemma daysBeforeYear_mono (epoch : ℕ) : Monotone (daysBeforeYear epoch) := fun _ _ hle =>
  Finset.sum_le_sum_of_subset (Finset.Ico_subset_Ico_right hle)

lemma daysBeforeMonth_eq (y m : ℕ) : daysBeforeMonth y m =
    (∑ k ∈ Finset.range m, commonDays k) + if 2 < m ∧ isLeap y = true then 1 else 0 := by
  induction m with
  | zero => rfl
  | succ m ih =>
    rw [daysBeforeMonth_succ, ih, daysInMonth, Finset.sum_range_succ]
    cases isLeap y with
    | true =>
      simp only [and_true]
      split_ifs <;> omega
    | false =>
      simp only [Bool.false_eq_true, and_false, if_false]
      omega

lemma daysBeforeMonth_thirteen (y : ℕ) : daysBeforeMonth y 13 = daysInYear y := by
  unfold daysBeforeMonth daysInYear
  simp only [Finset.sum_range_succ, Finset.sum_range_zero, daysInMonth, commonDays]
  cases isLeap y <;> rfl

lemma le_daysBeforeYear (epoch n : ℕ) : n * 365 ≤ daysBeforeYear epoch (epoch + n) := by
  induction n with
  | zero => exact Nat.zero_le _
  | succ n ih =>
    have hyear : 365 ≤ daysInYear (epoch + n) := by
      unfold daysInYear
      split <;> norm_num
    rw [← Nat.add_assoc, daysBeforeYear_succ (Nat.le_add_right _ _), Nat.succ_mul]
    exact Nat.add_le_add ih hyear

lemma daysInYear_le (y : ℕ) : daysInYear y ≤ 366 := by
  unfold daysInYear
  split <;> norm_num

lemma daysInMonth_le {y m : ℕ} (hm : m ≤ 12) : daysInMonth y m ≤ 31 := by
  have hcommon : ∀ m ≤ 12, commonDays m + (if m = 2 then 1 else 0) ≤ 31 := by decide
  have hle := hcommon m hm
  unfold daysInMonth
  split_ifs at hle ⊢ <;> omega

lemma index_unique {f : ℕ → ℕ} (hf : Monotone f) {j k n : ℕ} (hj : f j ≤ n)
    (hj' : n < f (j + 1)) (hk : f k ≤ n) (hk' : n < f (k + 1)) : j = k := by
  rcases Nat.lt_trichotomy j k with hlt | rfl | hlt
  · exact absurd ((hf hlt).trans hk) (not_le.mpr hj')
  · rfl
  · exact absurd ((hf hlt).trans hj) (not_le.mpr hk')

/-- A date and a time of the day. -/
structure DateTime where
  year : ℕ
  month : ℕ
  day : ℕ
  hour : ℕ
  minute : ℕ
  second : ℕ
  deriving DecidableEq, Repr

namespace DateTime

variable {epoch : ℕ} {s t : DateTime}

/-- The time of the day is one. -/
structure InDay (t : DateTime) : Prop where
  hour_lt : t.hour < 24
  minute_lt : t.minute < 60
  second_lt : t.second < 60

/-- A date of the calendar, from the epoch on. -/
structure Valid (epoch : ℕ) (t : DateTime) : Prop extends InDay t where
  epoch_le : epoch ≤ t.year
  month_pos : 1 ≤ t.month
  month_le : t.month ≤ 12
  day_pos : 1 ≤ t.day
  day_le : t.day ≤ daysInMonth t.year t.month

/-- A date whose days are counted from zero. -/
structure Counted (epoch : ℕ) (t : DateTime) : Prop extends InDay t where
  epoch_le : epoch ≤ t.year
  month_pos : 1 ≤ t.month
  month_le : t.month ≤ 12
  day_lt : t.day < daysInMonth t.year t.month

/-- The days from the beginning of the epoch. -/
def days (epoch : ℕ) (t : DateTime) : ℕ :=
  daysBeforeYear epoch t.year + daysBeforeMonth t.year t.month + t.day

/-- The seconds from the beginning of the epoch. -/
def seconds (epoch : ℕ) (t : DateTime) : ℕ :=
  t.days epoch * 86400 + t.hour * 3600 + t.minute * 60 + t.second

lemma Counted.dayOfYear_lt (h : t.Counted epoch) :
    daysBeforeMonth t.year t.month + t.day < daysBeforeMonth t.year (t.month + 1) := by
  rw [daysBeforeMonth_succ]
  exact Nat.add_lt_add_left h.day_lt _

lemma Counted.days_lt (h : t.Counted epoch) : t.days epoch < daysBeforeYear epoch (t.year + 1) := by
  have hmonth := h.dayOfYear_lt
  have hyear := daysBeforeMonth_mono t.year (Nat.add_le_add_right h.month_le 1)
  rw [daysBeforeMonth_thirteen] at hyear
  rw [daysBeforeYear_succ h.epoch_le, days]
  omega

/-- The number of seconds gives the date. -/
lemma Counted.eq_of_seconds (hs : s.Counted epoch) (ht : t.Counted epoch)
    (h : s.seconds epoch = t.seconds epoch) : s = t := by
  obtain ⟨hhour, hminute, hsecond⟩ := hs.toInDay
  obtain ⟨hhour', hminute', hsecond'⟩ := ht.toInDay
  unfold seconds at h
  have hdays : s.days epoch = t.days epoch := by omega
  have hyear : s.year = t.year := by
    have hle : ∀ r : DateTime, daysBeforeYear epoch r.year ≤ r.days epoch := fun r =>
      (Nat.le_add_right _ _).trans (Nat.le_add_right _ _)
    exact index_unique (daysBeforeYear_mono epoch) (hle s) hs.days_lt (hdays ▸ hle t)
      (hdays ▸ ht.days_lt)
  have hofYear : daysBeforeMonth s.year s.month + s.day =
      daysBeforeMonth t.year t.month + t.day := by
    unfold days at hdays
    rw [hyear] at hdays ⊢
    omega
  have hmonth : s.month = t.month := by
    have hlt := ht.dayOfYear_lt
    rw [← hofYear, ← hyear] at hlt
    refine index_unique (daysBeforeMonth_mono s.year) (Nat.le_add_right _ _) hs.dayOfYear_lt ?_ hlt
    rw [hofYear, hyear]
    exact Nat.le_add_right _ _
  rw [hyear, hmonth] at hofYear
  rw [DateTime.mk.injEq]
  refine ⟨hyear, hmonth, ?_, ?_, ?_, ?_⟩ <;> omega

end DateTime

end Gregorian
