import Btos.Lib.Gregorian
import Btos.Lib.Loop

/-!
# Dates of the real-time clock

`clocktime.cpp`: a date and time as the milliseconds since the beginning of the year 2000, and back.
A `datetime` counts the days of a month from one, but `epoch2datetime` counts them from zero.

* `datetime2epoch_ofDate` and `epoch2datetime_spec` say what the two functions compute, in terms of
  the Gregorian calendar.

Main results: `datetime2epoch_epoch2datetime` and `epoch2datetime_datetime2epoch_iff`.
-/

open Gregorian Loop List Option Int32

namespace Rtc

/-- `datetime`. -/
structure Datetime where
  day : Int32
  month : Int32
  year : Int32
  hour : Int32
  minute : Int32
  second : Int32
  deriving DecidableEq, Repr

/-- `epochYear`. -/
def epochYear : Int32 := 2000

/-- `secondsPerMinute`. -/
def secondsPerMinute : UInt64 := 60

/-- `secondsPerHour`. -/
def secondsPerHour : UInt64 := secondsPerMinute * 60

/-- `secondsPerDay`. -/
def secondsPerDay : UInt64 := secondsPerHour * 24

/-- `secondsPerMonth`. -/
def secondsPerMonth : List UInt64 :=
  [0, 31 * secondsPerDay, 28 * secondsPerDay, 31 * secondsPerDay, 30 * secondsPerDay,
    31 * secondsPerDay, 30 * secondsPerDay, 31 * secondsPerDay, 31 * secondsPerDay,
    30 * secondsPerDay, 31 * secondsPerDay, 30 * secondsPerDay, 31 * secondsPerDay]

/-- `is_leap_year`. -/
def isLeapYear (year : Int32) : Bool :=
  year % 4 == 0 && (year % 100 != 0 || year % 400 == 0)

/-- `seconds_in_year`. -/
def secondsInYear (year : Int32) : UInt64 :=
  if isLeapYear year then 366 * secondsPerDay else 365 * secondsPerDay

/-- `seconds_in_month`; `none` is an access outside of the table. -/
def secondsInMonth (month year : Int32) : Option UInt64 :=
  secondsPerMonth[month.toUInt32.toNat]?.map fun seconds =>
    if month == 2 && isLeapYear year then seconds + secondsPerDay else seconds

/-- An `int` as a `uint64_t`. -/
def ofInt (x : Int32) : UInt64 := x.toInt64.toUInt64

/-- `datetime2epoch`; `none` is an access outside of the table of months. -/
def datetime2epoch (dt : Datetime) : Option UInt64 :=
  let ret := ofInt dt.second + ofInt dt.minute * secondsPerMinute +
    ofInt dt.hour * secondsPerHour + ofInt dt.day * secondsPerDay
  -- the table starts with a month 0, which has no days
  let months := (List.range dt.month.toUInt32.toNat).foldlM
    (fun ret m => secondsPerMonth[m]?.map (ret + ·)) ret
  months.map fun ret =>
    let ret := (List.range (dt.year.toInt - epochYear.toInt).toNat).foldl
      (fun ret y => ret + secondsInYear (epochYear + .ofNat y)) ret
    -- the leap day of this year, which the table does not have
    let ret := if isLeapYear dt.year && decide (dt.month > 2) then ret + secondsPerDay else ret
    ret * 1000

/-- `(unsigned)n`. -/
def unsigned (n : UInt64) : UInt64 := n.toUInt32.toUInt64

/-- One of the loops of `epoch2datetime`: as long as there is a `unit` left, it is taken away and a
field is incremented. `limit` is what the unit is compared as. -/
def unitLoop (limit : UInt64 → UInt64) (unit : Datetime → Option UInt64)
    (next : Datetime → Datetime) : ℕ → UInt64 × Datetime → Option (UInt64 × Datetime) :=
  whileDo (fun s => (unit s.2).map fun n => decide (s.1 ≥ limit n))
    fun s => (unit s.2).map fun n => (s.1 - n, next s.2)

/-- `epoch2datetime`, with at most `rounds` rounds of each loop. -/
def epoch2datetime (rounds : ℕ) (ep : UInt64) : Option Datetime := do
  let s ← unitLoop unsigned (fun dt => some (secondsInYear dt.year))
    (fun dt => { dt with year := dt.year + 1 }) rounds (ep / 1000, ⟨0, 0, epochYear, 0, 0, 0⟩)
  let s ← unitLoop unsigned (fun dt => secondsInMonth dt.month dt.year)
    (fun dt => { dt with month := dt.month + 1 }) rounds s
  let s ← unitLoop id (fun _ => some secondsPerDay)
    (fun dt => { dt with day := dt.day + 1 }) rounds s
  let s ← unitLoop id (fun _ => some secondsPerHour)
    (fun dt => { dt with hour := dt.hour + 1 }) rounds s
  let s ← unitLoop id (fun _ => some secondsPerMinute)
    (fun dt => { dt with minute := dt.minute + 1 }) rounds s
  some { s.2 with second := s.1.toUInt32.toInt32 }

/-! ## Dates of the calendar -/

/-- The `datetime` of a date. -/
def Datetime.ofDate (t : DateTime) : Datetime :=
  ⟨.ofNat t.day, .ofNat t.month, .ofNat t.year, .ofNat t.hour, .ofNat t.minute, .ofNat t.second⟩

lemma ofNat_mod_eq_zero {y k : ℕ} (hy : y < 2 ^ 31) (hk : k < 2 ^ 31) :
    Int32.ofNat y % Int32.ofNat k = 0 ↔ y % k = 0 := by
  have hlt : y % k < 2 ^ 31 := (Nat.mod_le y k).trans_lt hy
  rw [← Int32.ofNat_mod hy hk, ← Int32.toInt_inj, toInt_ofNat_of_lt hlt, Int32.toInt_zero]
  exact Int.natCast_eq_zero

lemma isLeapYear_ofNat {y : ℕ} (hy : y < 2 ^ 31) : isLeapYear (.ofNat y) = isLeap y := by
  have h4 := ofNat_mod_eq_zero hy (by norm_num : 4 < 2 ^ 31)
  have h100 := ofNat_mod_eq_zero hy (by norm_num : 100 < 2 ^ 31)
  have h400 := ofNat_mod_eq_zero hy (by norm_num : 400 < 2 ^ 31)
  rw [Bool.eq_iff_iff]
  simp only [isLeapYear, isLeap, Bool.and_eq_true, Bool.or_eq_true, beq_iff_eq, bne_iff_ne]
  exact and_congr h4 (or_congr (not_congr h100) h400)

lemma secondsInYear_ofNat {y : ℕ} (hy : y < 2 ^ 31) :
    secondsInYear (.ofNat y) = .ofNat (daysInYear y * 86400) := by
  rw [secondsInYear, isLeapYear_ofNat hy, daysInYear]
  cases isLeap y with
  | true => exact (by decide : 366 * secondsPerDay = .ofNat (366 * 86400))
  | false => exact (by decide : 365 * secondsPerDay = .ofNat (365 * 86400))

lemma secondsPerMonth_getElem {m : ℕ} (hm : m ≤ 12) :
    secondsPerMonth[m]? = some (.ofNat (commonDays m * 86400)) := by
  revert m
  decide

/-- The length of a month. -/
lemma secondsInMonth_ofNat {m y : ℕ} (hm : m ≤ 12) (hy : y < 2 ^ 31) :
    secondsInMonth (.ofNat m) (.ofNat y) = some (.ofNat (daysInMonth y m * 86400)) := by
  have hindex : (Int32.ofNat m).toUInt32.toNat = m := by
    rw [Int32.toUInt32_ofNat', UInt32.toNat_ofNat_of_lt' (by omega : m < 2 ^ 32)]
  have htwo : (Int32.ofNat m == 2) = decide (m = 2) := by
    revert m
    decide
  rw [secondsInMonth, hindex, secondsPerMonth_getElem hm, isLeapYear_ofNat hy, htwo, daysInMonth,
    map_some, Nat.add_mul, UInt64.ofNat_add]
  split_ifs with hfeb hfeb' hfeb'
  · rfl
  · exact absurd (by simpa using hfeb) hfeb'
  · exact absurd (by simpa using hfeb') hfeb
  · rw [Nat.zero_mul]
    exact congrArg some (UInt64.add_zero _).symm

/-! ## From a date to milliseconds -/

/-- The numbers of a date are those of an `int`, and its month is in the table. -/
structure Fits (t : DateTime) : Prop where
  month_le : t.month ≤ 12
  year_lt : t.year < 2 ^ 31
  day_lt : t.day < 2 ^ 31
  hour_lt : t.hour < 2 ^ 31
  minute_lt : t.minute < 2 ^ 31
  second_lt : t.second < 2 ^ 31

lemma ofInt_ofNat {n : ℕ} (hn : n < 2 ^ 31) : ofInt (.ofNat n) = .ofNat n := by
  have hle : (n : ℤ) ≤ Int32.maxValue.toInt := by
    show (n : ℤ) ≤ 2147483647
    omega
  rw [ofInt, Int32.toInt64_ofNat' hle, Int64.toUInt64_ofNat']

lemma foldlM_secondsPerMonth {m : ℕ} (hm : m ≤ 13) (ret : UInt64) :
    (range m).foldlM (fun ret m => secondsPerMonth[m]?.map (ret + ·)) ret =
      some (ret + .ofNat ((∑ k ∈ Finset.range m, commonDays k) * 86400)) := by
  induction m with
  | zero => exact congrArg some (UInt64.add_zero ret).symm
  | succ m ih =>
    rw [range_succ, foldlM_append, ih (by omega), Finset.sum_range_succ, Nat.add_mul,
      UInt64.ofNat_add, ← UInt64.add_assoc]
    show (some _ : Option UInt64).bind _ = _
    rw [bind_some, foldlM_cons, secondsPerMonth_getElem (by omega)]
    rfl

/-- The loop over the years. -/
lemma foldl_secondsInYear {n : ℕ} (hn : 2000 + n ≤ 2 ^ 31) (ret : UInt64) :
    (range n).foldl (fun ret y => ret + secondsInYear (epochYear + .ofNat y)) ret =
      ret + .ofNat (daysBeforeYear 2000 (2000 + n) * 86400) := by
  induction n with
  | zero =>
    exact (UInt64.add_zero ret).symm
  | succ n ih =>
    have hyear : epochYear + .ofNat n = .ofNat (2000 + n) := (Int32.ofNat_add 2000 n).symm
    rw [range_succ, foldl_append, ih (by omega), ← Nat.add_assoc,
      daysBeforeYear_succ (Nat.le_add_right _ _), Nat.add_mul, UInt64.ofNat_add,
      ← UInt64.add_assoc, foldl_cons, foldl_nil, hyear, secondsInYear_ofNat (by omega)]

/-- What `datetime2epoch` computes. -/
lemma datetime2epoch_ofDate {t : DateTime} (ht : Fits t) :
    datetime2epoch (.ofDate t) = some (.ofNat (t.seconds 2000 * 1000)) := by
  obtain ⟨hmonth, hyear, hday, hhour, hminute, hsecond⟩ := ht
  have hindex : (Int32.ofNat t.month).toUInt32.toNat = t.month := by
    rw [Int32.toUInt32_ofNat', UInt32.toNat_ofNat_of_lt' (by omega : t.month < 2 ^ 32)]
  have hyears : ((Int32.ofNat t.year).toInt - epochYear.toInt).toNat = t.year - 2000 := by
    rw [toInt_ofNat_of_lt hyear]
    show ((t.year : ℤ) - 2000).toNat = _
    omega
  have hlater : Int32.ofNat t.month > 2 ↔ 2 < t.month :=
    Int32.ofNat_lt_iff_lt (by norm_num : 2 < 2 ^ 31) (by omega)
  -- no years are added for a date before 2000
  have hsum : daysBeforeYear 2000 (2000 + (t.year - 2000)) = daysBeforeYear 2000 t.year := by
    rcases Nat.le_total 2000 t.year with hle | hle
    · rw [Nat.add_sub_cancel' hle]
    · rw [Nat.sub_eq_zero_of_le hle, daysBeforeYear, daysBeforeYear, Finset.Ico_eq_empty_of_le hle]
      rfl
  unfold datetime2epoch Datetime.ofDate
  dsimp only
  rw [hindex, foldlM_secondsPerMonth (by omega), hyears, ofInt_ofNat hsecond, ofInt_ofNat hminute,
    ofInt_ofNat hhour, ofInt_ofNat hday, isLeapYear_ofNat hyear, map_some,
    foldl_secondsInYear (by omega), hsum]
  -- Without the leap day, all sums are those of natural numbers.
  have hcommon : ∀ months years : ℕ,
      UInt64.ofNat t.second + UInt64.ofNat t.minute * secondsPerMinute +
        UInt64.ofNat t.hour * secondsPerHour + UInt64.ofNat t.day * secondsPerDay +
        .ofNat (months * 86400) + .ofNat (years * 86400) =
      .ofNat ((years + months + t.day) * 86400 + t.hour * 3600 + t.minute * 60 + t.second) := by
    intro months years
    have hminutes : secondsPerMinute = .ofNat 60 := rfl
    have hhours : secondsPerHour = .ofNat 3600 := rfl
    have hdays : secondsPerDay = .ofNat 86400 := rfl
    rw [hminutes, hhours, hdays]
    simp only [← UInt64.ofNat_mul, ← UInt64.ofNat_add]
    exact congrArg UInt64.ofNat (by ring)
  have hleap : (isLeap t.year && decide (Int32.ofNat t.month > 2)) =
      decide (2 < t.month ∧ isLeap t.year = true) := by
    rw [Bool.eq_iff_iff]
    simp only [Bool.and_eq_true, decide_eq_true_eq, hlater]
    exact and_comm
  rw [hcommon, hleap, DateTime.seconds, DateTime.days, daysBeforeMonth_eq, UInt64.ofNat_mul]
  refine congrArg (fun ret : UInt64 => some (ret * 1000)) ?_
  by_cases hday : 2 < t.month ∧ isLeap t.year = true
  · rw [decide_eq_true hday, if_pos hday, if_pos rfl]
    show _ + UInt64.ofNat 86400 = _
    rw [← UInt64.ofNat_add]
    exact congrArg UInt64.ofNat (by ring)
  · rw [decide_eq_false hday, if_neg hday, if_neg Bool.false_ne_true, Nat.add_zero]

/-! ## From milliseconds to a date -/

/-- A loop finds the interval that `r` is in, if `c` are the sums of the units. -/
lemma unitLoop_spec (limit : UInt64 → UInt64) (unit : Datetime → Option UInt64)
    (next : Datetime → Datetime) (f : ℕ → Datetime) (c : ℕ → ℕ) {r K : ℕ}
    (hnext : ∀ k < K, next (f k) = f (k + 1))
    (hunit : ∀ k < K, ∃ n, unit (f k) = some n ∧ limit n = n ∧ c (k + 1) = c k + n.toNat)
    (hK : r < c K) {ep : UInt64} (hep : c 0 + ep.toNat = r) :
    ∃ j ep', (∀ rounds, K < rounds → unitLoop limit unit next rounds (ep, f 0) = some (ep', f j)) ∧
      j < K ∧ c j + ep'.toNat = r ∧ r < c (j + 1) := by
  -- What is left of `K` is the variant: the loop never gets there, because of `hK`.
  let I : ℕ → UInt64 × Datetime → Prop := fun m s =>
    ∃ j, j + m = K ∧ 0 < m ∧ s.2 = f j ∧ c j + s.1.toNat = r
  have hround : ∀ m (s : UInt64 × Datetime), I m s →
      ((unit s.2).map fun n => decide (s.1 ≥ limit n)) = some false ∨
      ((unit s.2).map fun n => decide (s.1 ≥ limit n)) = some true ∧ ∃ s' l,
        ((unit s.2).map fun n => (s.1 - n, next s.2)) = some s' ∧ l < m ∧ I l s' := by
    rintro m ⟨ep, dt⟩ ⟨j, hjm, hm, hdt, hj⟩
    obtain ⟨n, hn, hlimit, hc⟩ := hunit j (by omega)
    dsimp only at hdt hj ⊢
    rw [hdt, hn, map_some, map_some, hlimit]
    by_cases hle : ep ≥ n
    · have hle' : n.toNat ≤ ep.toNat := UInt64.le_iff_toNat_le.mp hle
      have hsub : (ep - n).toNat = ep.toNat - n.toNat := UInt64.toNat_sub_of_le _ _ hle
      -- the last interval is not used up, since `r` is below the end of it
      have hm1 : m ≠ 1 := by
        rintro rfl
        rw [← hjm, hc] at hK
        omega
      refine .inr ⟨by rw [decide_eq_true hle], _, m - 1, rfl, by omega, j + 1, by omega, by omega,
        hnext j (by omega), ?_⟩
      dsimp only
      omega
    · exact .inl (by rw [decide_eq_false hle])
  have hpos : K ≠ 0 := by
    rintro rfl
    omega
  have hstart : I K (ep, f 0) := ⟨0, Nat.zero_add K, Nat.pos_of_ne_zero hpos, rfl, hep⟩
  obtain ⟨⟨ep', dt⟩, m, hloop, ⟨j, hjm, hm, hdt, hj⟩, hexit⟩ := whileDo_total hround hstart
  obtain ⟨n, hn, hlimit, hc⟩ := hunit j (by omega)
  dsimp only at hdt hj hexit
  rw [hdt, hn, map_some, hlimit, some.injEq, decide_eq_false_iff_not, ge_iff_le,
    UInt64.le_iff_toNat_le] at hexit
  refine ⟨j, ep', fun rounds hrounds => ?_, by omega, hj, by omega⟩
  rw [← hdt]
  exact hloop rounds (by omega)

lemma unsigned_eq {n : UInt64} (hn : n.toNat < 2 ^ 32) : unsigned n = n := by
  rw [← UInt64.toNat_inj, unsigned, UInt32.toNat_toUInt64, UInt64.toNat_toUInt32]
  exact Nat.mod_eq_of_lt hn

lemma toNat_days {d : ℕ} (hd : d ≤ 366) : (UInt64.ofNat (d * 86400)).toNat = d * 86400 :=
  UInt64.toNat_ofNat_of_lt' (by omega : d * 86400 < 2 ^ 64)

/-- The loop that counts the years. -/
lemma yearLoop_spec (ep : UInt64) (hep : ep.toNat ≤ 2 ^ 64 / 1000) :
    ∃ y ep', (∀ rounds, 2 ^ 31 < rounds →
      unitLoop unsigned (fun dt => some (secondsInYear dt.year))
        (fun dt => { dt with year := dt.year + 1 }) rounds (ep, ⟨0, 0, epochYear, 0, 0, 0⟩) =
      some (ep', .ofDate ⟨y, 0, 0, 0, 0, 0⟩)) ∧ 2000 ≤ y ∧ y < 2 ^ 31 ∧
      daysBeforeYear 2000 y * 86400 + ep'.toNat = ep.toNat ∧ ep'.toNat < daysInYear y * 86400 := by
  have hsucc : ∀ k, daysBeforeYear 2000 (2000 + (k + 1)) * 86400 =
      daysBeforeYear 2000 (2000 + k) * 86400 + daysInYear (2000 + k) * 86400 := by
    intro k
    rw [← Nat.add_assoc, daysBeforeYear_succ (Nat.le_add_right _ _), Nat.add_mul]
  -- After so many years there is nothing left of 64 bits.
  have hfar : ep.toNat < daysBeforeYear 2000 (2000 + 2 ^ 30) * 86400 :=
    lt_of_lt_of_le (by omega : ep.toNat < 2 ^ 30 * 365 * 86400)
      (Nat.mul_le_mul_right 86400 (le_daysBeforeYear 2000 (2 ^ 30)))
  have hstart : daysBeforeYear 2000 (2000 + 0) * 86400 + ep.toNat = ep.toNat := by
    simp [daysBeforeYear]
  obtain ⟨j, ep', hloop, hj, hsum, hlt⟩ := unitLoop_spec unsigned
    (fun dt => some (secondsInYear dt.year)) (fun dt => { dt with year := dt.year + 1 })
    (fun k => .ofDate ⟨2000 + k, 0, 0, 0, 0, 0⟩) (fun k => daysBeforeYear 2000 (2000 + k) * 86400)
    (fun k _ => congrArg (Datetime.mk 0 0 · 0 0 0) (Int32.ofNat_add (2000 + k) 1).symm)
    (fun k hk => by
      have hle := daysInYear_le (2000 + k)
      have htoNat := toNat_days hle
      refine ⟨_, congrArg some (secondsInYear_ofNat ?_), unsigned_eq ?_, ?_⟩
      · show 2000 + k < 2 ^ 31
        omega
      · rw [htoNat]
        omega
      · rw [htoNat]
        exact hsucc k) hfar hstart
  rw [hsucc] at hlt
  exact ⟨2000 + j, ep', fun rounds hrounds => hloop rounds (by omega), by omega, by omega, hsum,
    by omega⟩

/-- The loop that counts the months. Month 0 has no days, so that it is left at once. -/
lemma monthLoop_spec {y : ℕ} (hy : y < 2 ^ 31) {ep : UInt64}
    (hep : ep.toNat < daysInYear y * 86400) :
    ∃ m ep', (∀ rounds, 2 ^ 31 < rounds →
      unitLoop unsigned (fun dt => secondsInMonth dt.month dt.year)
        (fun dt => { dt with month := dt.month + 1 }) rounds (ep, .ofDate ⟨y, 0, 0, 0, 0, 0⟩) =
      some (ep', .ofDate ⟨y, m, 0, 0, 0, 0⟩)) ∧ 1 ≤ m ∧ m ≤ 12 ∧
      daysBeforeMonth y m * 86400 + ep'.toNat = ep.toNat ∧ ep'.toNat < daysInMonth y m * 86400 := by
  have hsucc : ∀ k, daysBeforeMonth y (k + 1) * 86400 =
      daysBeforeMonth y k * 86400 + daysInMonth y k * 86400 := by
    intro k
    rw [daysBeforeMonth_succ, Nat.add_mul]
  have hyear : ep.toNat < daysBeforeMonth y 13 * 86400 := by
    rwa [daysBeforeMonth_thirteen]
  have hstart : daysBeforeMonth y 0 * 86400 + ep.toNat = ep.toNat := by
    simp [daysBeforeMonth]
  obtain ⟨m, ep', hloop, hm, hsum, hlt⟩ := unitLoop_spec unsigned
    (fun dt => secondsInMonth dt.month dt.year) (fun dt => { dt with month := dt.month + 1 })
    (fun k => .ofDate ⟨y, k, 0, 0, 0, 0⟩) (fun k => daysBeforeMonth y k * 86400)
    (fun k _ => congrArg (Datetime.mk 0 · (.ofNat y) 0 0 0) (Int32.ofNat_add k 1).symm)
    (fun k hk => by
      have hle : daysInMonth y k ≤ 366 := (daysInMonth_le (by omega)).trans (by norm_num)
      have htoNat := toNat_days hle
      refine ⟨_, secondsInMonth_ofNat ?_ hy, unsigned_eq ?_, ?_⟩
      · show k ≤ 12
        omega
      · rw [htoNat]
        omega
      · rw [htoNat]
        exact hsucc k) hyear hstart
  rw [hsucc] at hlt
  refine ⟨m, ep', fun rounds hrounds => hloop rounds (by omega), ?_, by omega, hsum, by omega⟩
  rcases Nat.eq_zero_or_pos m with rfl | hpos
  -- the loop does not stop in month 0: it is empty
  · have hnone : daysInMonth y 0 = 0 := by simp [daysInMonth, commonDays]
    omega
  · exact hpos

/-- The loops that count days, hours and minutes. -/
lemma fixedLoop_spec (n : UInt64) (next : Datetime → Datetime) (f : ℕ → Datetime)
    (hnext : ∀ k, next (f k) = f (k + 1)) {K : ℕ} (hK : K < 2 ^ 31) {ep : UInt64}
    (hep : ep.toNat < K * n.toNat) :
    ∃ j ep', (∀ rounds, 2 ^ 31 < rounds →
      unitLoop id (fun _ => some n) next rounds (ep, f 0) = some (ep', f j)) ∧
      j < K ∧ j * n.toNat + ep'.toNat = ep.toNat ∧ ep'.toNat < n.toNat := by
  obtain ⟨j, ep', hloop, hj, hsum, hlt⟩ := unitLoop_spec id (fun _ => some n) next f
    (fun k => k * n.toNat) (fun k _ => hnext k) (fun k _ => ⟨n, rfl, rfl, Nat.succ_mul k _⟩) hep
    ((congrArg (· + ep.toNat) (Nat.zero_mul _)).trans (Nat.zero_add _))
  rw [Nat.succ_mul] at hlt
  exact ⟨j, ep', fun rounds hrounds => hloop rounds (by omega), hj, hsum, by omega⟩

lemma toInt32_toUInt32 (ep : UInt64) : ep.toUInt32.toInt32 = .ofNat ep.toNat := by
  rw [← toBitVec_inj, Int32.toBitVec_ofNat']
  apply BitVec.eq_of_toNat_eq
  exact UInt64.toNat_toUInt32 ep

/-- What `epoch2datetime` computes, in any number of rounds that is large enough. -/
lemma epoch2datetime_spec (e : UInt64) : ∃ t : DateTime, t.Counted 2000 ∧ t.year < 2 ^ 31 ∧
    t.seconds 2000 = e.toNat / 1000 ∧
    ∀ rounds, 2 ^ 31 < rounds → epoch2datetime rounds e = some (.ofDate t) := by
  have hdiv : (e / 1000).toNat = e.toNat / 1000 := UInt64.toNat_div e 1000
  have he := e.toNat_lt
  obtain ⟨y, ep1, hyears, hy, hy', hsum1, hlt1⟩ := yearLoop_spec (e / 1000) (by omega)
  obtain ⟨m, ep2, hmonths, hm, hm', hsum2, hlt2⟩ := monthLoop_spec hy' hlt1
  have hshort := daysInMonth_le (y := y) hm'
  obtain ⟨d, ep3, hdays, hd, hsum3, hlt3⟩ := fixedLoop_spec secondsPerDay
    (fun dt => { dt with day := dt.day + 1 }) (fun k => .ofDate ⟨y, m, k, 0, 0, 0⟩)
    (fun k => congrArg (Datetime.mk · (.ofNat m) (.ofNat y) 0 0 0) (Int32.ofNat_add k 1).symm)
    (by omega) hlt2
  obtain ⟨h, ep4, hhours, hh, hsum4, hlt4⟩ := fixedLoop_spec secondsPerHour
    (fun dt => { dt with hour := dt.hour + 1 }) (fun k => .ofDate ⟨y, m, d, k, 0, 0⟩)
    (fun k => congrArg (Datetime.mk (.ofNat d) (.ofNat m) (.ofNat y) · 0 0)
      (Int32.ofNat_add k 1).symm) (by norm_num : 24 < 2 ^ 31) hlt3
  obtain ⟨n, ep5, hminutes, hn, hsum5, hlt5⟩ := fixedLoop_spec secondsPerMinute
    (fun dt => { dt with minute := dt.minute + 1 }) (fun k => .ofDate ⟨y, m, d, h, k, 0⟩)
    (fun k => congrArg (Datetime.mk (.ofNat d) (.ofNat m) (.ofNat y) (.ofNat h) · 0)
      (Int32.ofNat_add k 1).symm) (by norm_num : 60 < 2 ^ 31) hlt4
  -- each loop leaves less than one of its units for the next one
  refine ⟨⟨y, m, d, h, n, ep5.toNat⟩, ⟨⟨hh, hn, hlt5⟩, hy, hm, hm', hd⟩, hy', ?_,
    fun rounds hrounds => ?_⟩
  · have hsum3 : d * 86400 + ep3.toNat = ep2.toNat := hsum3
    have hsum4 : h * 3600 + ep4.toNat = ep3.toNat := hsum4
    have hsum5 : n * 60 + ep5.toNat = ep4.toNat := hsum5
    rw [DateTime.seconds, DateTime.days, ← hdiv, ← hsum1, ← hsum2, ← hsum3, ← hsum4, ← hsum5]
    ring
  · unfold epoch2datetime
    rw [hyears rounds hrounds, bind_eq_bind, bind_some, hmonths rounds hrounds,
      bind_some, hdays rounds hrounds, bind_some, hhours rounds hrounds,
      bind_some, hminutes rounds hrounds, bind_some, toInt32_toUInt32]
    rfl

/-! ## There and back -/

lemma fits_of_inDay {t : DateTime} (ht : t.InDay) (hmonth : t.month ≤ 12)
    (hyear : t.year < 2 ^ 31) (hday : t.day ≤ daysInMonth t.year t.month) : Fits t := by
  have hshort := daysInMonth_le (y := t.year) hmonth
  obtain ⟨hhour, hminute, hsecond⟩ := ht
  refine ⟨hmonth, hyear, ?_, ?_, ?_, ?_⟩ <;> omega

/-- A date can be read off its `datetime`. -/
lemma ofDate_inj {s t : DateTime} (hs : Fits s) (ht : Fits t)
    (h : Datetime.ofDate s = .ofDate t) : s = t := by
  have hinj : ∀ {a b : ℕ}, a < 2 ^ 31 → b < 2 ^ 31 → Int32.ofNat a = .ofNat b → a = b := by
    intro a b ha hb hab
    have hint := congrArg Int32.toInt hab
    rwa [toInt_ofNat_of_lt ha, toInt_ofNat_of_lt hb, Int.natCast_inj] at hint
  have hmonth := hs.month_le
  have hmonth' := ht.month_le
  rw [Datetime.ofDate, Datetime.ofDate, Datetime.mk.injEq] at h
  obtain ⟨hd, hm, hy, hh, hn, hc⟩ := h
  rw [DateTime.mk.injEq]
  exact ⟨hinj hs.year_lt ht.year_lt hy, hinj (by omega) (by omega) hm, hinj hs.day_lt ht.day_lt hd,
    hinj hs.hour_lt ht.hour_lt hh, hinj hs.minute_lt ht.minute_lt hn,
    hinj hs.second_lt ht.second_lt hc⟩

/-- The date of a number of milliseconds, and back: whole seconds are left. -/
lemma exists_date (e : UInt64) : ∃ t : DateTime, t.Counted 2000 ∧
    (∀ rounds, 2 ^ 31 < rounds → epoch2datetime rounds e = some (.ofDate t)) ∧
    datetime2epoch (.ofDate t) = some (e / 1000 * 1000) := by
  obtain ⟨t, ht, hyear, hseconds, hrounds⟩ := epoch2datetime_spec e
  have hfits := fits_of_inDay ht.toInDay ht.month_le hyear ht.day_lt.le
  have hmilliseconds : UInt64.ofNat (t.seconds 2000 * 1000) = e / 1000 * 1000 := by
    have hdiv : (e / 1000).toNat = t.seconds 2000 := (UInt64.toNat_div e 1000).trans hseconds.symm
    rw [UInt64.ofNat_mul, ← hdiv, UInt64.ofNat_toNat]
    rfl
  exact ⟨t, ht, hrounds, (datetime2epoch_ofDate hfits).trans (congrArg some hmilliseconds)⟩

/-- A number of milliseconds becomes a date, and that becomes the milliseconds of whole seconds. -/
theorem datetime2epoch_epoch2datetime (e : UInt64) :
    ∃ dt, (∀ rounds, 2 ^ 31 < rounds → epoch2datetime rounds e = some dt) ∧
      (1 ≤ dt.month ∧ dt.month ≤ 12) ∧ (0 ≤ dt.hour ∧ dt.hour < 24) ∧
      (0 ≤ dt.minute ∧ dt.minute < 60) ∧ (0 ≤ dt.second ∧ dt.second < 60) ∧
      datetime2epoch dt = some (e / 1000 * 1000) := by
  obtain ⟨t, ht, hrounds, hback⟩ := exists_date e
  have hmonth := ht.month_le
  have hhour := ht.hour_lt
  have hminute := ht.minute_lt
  have hsecond := ht.second_lt
  refine ⟨.ofDate t, hrounds, ⟨?_, ?_⟩, ⟨?_, ?_⟩, ⟨?_, ?_⟩, ⟨?_, ?_⟩, hback⟩
  · exact (Int32.ofNat_le_iff_le (by norm_num : 1 < 2 ^ 31) (by omega)).mpr ht.month_pos
  · exact (Int32.ofNat_le_iff_le (by omega) (by norm_num : 12 < 2 ^ 31)).mpr hmonth
  · exact zero_le_ofNat_of_lt (by omega)
  · exact (Int32.ofNat_lt_iff_lt (by omega) (by norm_num : 24 < 2 ^ 31)).mpr hhour
  · exact zero_le_ofNat_of_lt (by omega)
  · exact (Int32.ofNat_lt_iff_lt (by omega) (by norm_num : 60 < 2 ^ 31)).mpr hminute
  · exact zero_le_ofNat_of_lt (by omega)
  · exact (Int32.ofNat_lt_iff_lt (by omega) (by norm_num : 60 < 2 ^ 31)).mpr hsecond

/-- A date becomes a number of milliseconds, and that becomes the date again, if and only if it is
not the last day of its month and the milliseconds have 64 bits. -/
theorem epoch2datetime_datetime2epoch_iff {t : DateTime} (ht : t.Valid 2000)
    (hyear : t.year < 2 ^ 31) :
    (∃ ep, datetime2epoch (.ofDate t) = some ep ∧
      ∀ rounds, 2 ^ 31 < rounds → epoch2datetime rounds ep = some (.ofDate t)) ↔
    t.day < daysInMonth t.year t.month ∧ t.seconds 2000 * 1000 < 2 ^ 64 := by
  have hfits := fits_of_inDay ht.toInDay ht.month_le hyear ht.day_le
  have htoNat : (UInt64.ofNat (t.seconds 2000 * 1000)).toNat = t.seconds 2000 * 1000 % 2 ^ 64 :=
    UInt64.toNat_ofNat'
  obtain ⟨s, hs, hyear', hseconds, hrounds⟩ :=
    epoch2datetime_spec (.ofNat (t.seconds 2000 * 1000))
  rw [htoNat] at hseconds
  constructor
  · rintro ⟨ep, hep, hback⟩
    rw [datetime2epoch_ofDate hfits, some.injEq] at hep
    subst hep
    -- What comes back has its days counted from zero.
    have heq := (hrounds (2 ^ 31 + 1) (by norm_num)).symm.trans (hback (2 ^ 31 + 1) (by norm_num))
    have hsfits := fits_of_inDay hs.toInDay hs.month_le hyear' hs.day_lt.le
    obtain rfl := ofDate_inj hsfits hfits (some.inj heq)
    exact ⟨hs.day_lt, by omega⟩
  · rintro ⟨hday, hlt⟩
    rw [Nat.mod_eq_of_lt hlt, Nat.mul_div_cancel _ (by norm_num)] at hseconds
    have hcounted : t.Counted 2000 :=
      ⟨ht.toInDay, ht.epoch_le, ht.month_pos, ht.month_le, hday⟩
    -- counted from zero, only one date has these seconds
    obtain rfl := hs.eq_of_seconds hcounted hseconds
    exact ⟨_, datetime2epoch_ofDate hfits, hrounds⟩

/-- A day in front of the leap day. -/
def leapFebruary : DateTime := ⟨2000, 2, 28, 23, 59, 59⟩

theorem leapFebruary_comes_back : leapFebruary.Valid 2000 ∧
    ∃ ep, datetime2epoch (.ofDate leapFebruary) = some ep ∧
      ∀ rounds, 2 ^ 31 < rounds → epoch2datetime rounds ep = some (.ofDate leapFebruary) := by
  have hvalid : leapFebruary.Valid 2000 :=
    ⟨⟨by decide, by decide, by decide⟩, by decide, by decide, by decide, by decide, by decide⟩
  exact ⟨hvalid, (epoch2datetime_datetime2epoch_iff hvalid (by decide)).mpr ⟨by decide, by decide⟩⟩

/-- The last day of January comes back as day 0 of February. -/
theorem exists_lastDay : ∃ t : DateTime, t.Valid 2000 ∧ ∃ ep, datetime2epoch (.ofDate t) = some ep ∧
    ∀ rounds, 2 ^ 31 < rounds →
      epoch2datetime rounds ep = some (.ofDate ⟨2000, 2, 0, 0, 0, 0⟩) ∧
      epoch2datetime rounds ep ≠ some (.ofDate t) := by
  let t : DateTime := ⟨2000, 1, 31, 0, 0, 0⟩
  let s : DateTime := ⟨2000, 2, 0, 0, 0, 0⟩
  have ht : t.Valid 2000 :=
    ⟨⟨by decide, by decide, by decide⟩, by decide, by decide, by decide, by decide, by decide⟩
  have hs : s.Counted 2000 :=
    ⟨⟨by decide, by decide, by decide⟩, by decide, by decide, by decide, by decide⟩
  have hfits : Fits t := fits_of_inDay ht.toInDay ht.month_le (by decide) ht.day_le
  obtain ⟨r, hr, -, hseconds, hrounds⟩ := epoch2datetime_spec (.ofNat (t.seconds 2000 * 1000))
  obtain rfl : r = s := hr.eq_of_seconds hs (hseconds.trans (by decide))
  refine ⟨t, ht, _, datetime2epoch_ofDate hfits, fun rounds hlt => ⟨hrounds rounds hlt, ?_⟩⟩
  rw [hrounds rounds hlt]
  decide

end Rtc
