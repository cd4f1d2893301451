import DocFlow.Lib.Json

/-!
# Dates and times

The arithmetic of Python's `datetime`: the proleptic Gregorian calendar from year 1 to year 9999.  A
date has an ordinal (`Date.toOrdinal`), each ordinal is that of a date (`fromOrdinal`), and a time of a
day has the microseconds since the day before the first one (`DateTime.micros`).

* `toOrdinal_lt_iff`, `micros_lt_iff`: later is later in the fields.
* `fromOrdinal_spec`, `ofMicros_eq_some`: the fields are found again.
* `isoformat_lt_iff`: the texts of times are in the order of the times.
-/

namespace DocFlow.Calendar

open Json (digitChar)

/-! ## Dates -/

def isLeap (year : Nat) : Bool := year % 4 = 0 && (year % 100 ≠ 0 || year % 400 = 0)

/-- `_days_before_year`. -/
def daysBeforeYear (year : Nat) : Nat :=
  (year - 1) * 365 + (year - 1) / 4 - (year - 1) / 100 + (year - 1) / 400

def daysInMonth (leap : Bool) (month : Nat) : Nat :=
  if month = 2 then (if leap then 29 else 28)
  else if month = 4 ∨ month = 6 ∨ month = 9 ∨ month = 11 then 30
  else 31

/-- `_days_before_month`. -/
def daysBeforeMonth (leap : Bool) (month : Nat) : Nat :=
  [0, 0, 31, 59, 90, 120, 151, 181, 212, 243, 273, 304, 334].getD month 365 +
    if 2 < month ∧ leap = true then 1 else 0

/-- The fields are those of a day. -/
structure ValidDate (year month day : Nat) : Prop where
  year_range : 1 ≤ year ∧ year ≤ 9999
  month_range : 1 ≤ month ∧ month ≤ 12
  day_range : 1 ≤ day ∧ day ≤ daysInMonth (isLeap year) month

instance (year month day : Nat) : Decidable (ValidDate year month day) :=
  decidable_of_iff ((1 ≤ year ∧ year ≤ 9999) ∧ (1 ≤ month ∧ month ≤ 12) ∧
      1 ≤ day ∧ day ≤ daysInMonth (isLeap year) month)
    ⟨fun h => ⟨h.1, h.2.1, h.2.2⟩, fun h => ⟨h.year_range, h.month_range, h.day_range⟩⟩

structure Date where
  year : Nat
  month : Nat
  day : Nat
  valid : ValidDate year month day
deriving DecidableEq, Repr

/-- `_ymd2ord`. -/
def ordinalOf (year month day : Nat) : Nat :=
  daysBeforeYear year + daysBeforeMonth (isLeap year) month + day

def Date.toOrdinal (d : Date) : Nat := ordinalOf d.year d.month d.day

/-- `_MAXORDINAL`. -/
def maxOrdinal : Nat := 3652059

/-! ## Ordinals in order -/

theorem daysBeforeMonth_succ : ∀ leap : Bool, ∀ month < 13, 1 ≤ month →
    daysBeforeMonth leap month + daysInMonth leap month =
      if month = 12 then 365 + (if leap then 1 else 0) else daysBeforeMonth leap (month + 1) := by
  decide

theorem daysBeforeYear_succ {year : Nat} (h : 1 ≤ year) :
    daysBeforeYear (year + 1) = daysBeforeYear year + 365 + (if isLeap year then 1 else 0) := by
  obtain ⟨y, rfl⟩ : ∃ y, year = y + 1 := ⟨year - 1, by omega⟩
  have h4 := Nat.succ_div (a := y) (b := 4)
  have h100 := Nat.succ_div (a := y) (b := 100)
  have h400 := Nat.succ_div (a := y) (b := 400)
  simp only [Nat.dvd_iff_mod_eq_zero] at h4 h100 h400
  have hle : y / 100 ≤ y / 4 := Nat.div_le_div_left (by omega) (by omega)
  have hmod4 : (y + 1) % 100 = 0 → (y + 1) % 4 = 0 := by omega
  have hmod100 : (y + 1) % 400 = 0 → (y + 1) % 100 = 0 := by omega
  have hleap : isLeap (y + 1) = true ↔
      (y + 1) % 4 = 0 ∧ ((y + 1) % 100 ≠ 0 ∨ (y + 1) % 400 = 0) := by
    rw [isLeap, Bool.and_eq_true, Bool.or_eq_true, decide_eq_true_eq, decide_eq_true_eq,
      decide_eq_true_eq]
  simp only [daysBeforeYear, Nat.add_sub_cancel, h4, h100, h400, hleap]
  generalize (y + 1) % 4 = r4 at *
  generalize (y + 1) % 100 = r100 at *
  generalize (y + 1) % 400 = r400 at *
  split_ifs <;> omega

theorem daysBeforeMonth_mono (leap : Bool) {m m' : Nat} (hm : 1 ≤ m) (hm' : m' ≤ 12) (h : m < m') :
    daysBeforeMonth leap m + daysInMonth leap m ≤ daysBeforeMonth leap m' := by
  induction m' with
  | zero => omega
  | succ k ih =>
    have hsucc := daysBeforeMonth_succ leap k (by omega) (by omega)
    rw [if_neg (by omega)] at hsucc
    obtain hlt | rfl := Nat.lt_succ_iff_lt_or_eq.mp h
    · have hle := ih (by omega) hlt
      omega
    · omega

theorem daysBeforeYear_mono {y y' : Nat} (hy : 1 ≤ y) (h : y < y') :
    daysBeforeYear y + 365 + (if isLeap y then 1 else 0) ≤ daysBeforeYear y' := by
  induction y' with
  | zero => omega
  | succ k ih =>
    have hsucc := daysBeforeYear_succ (show 1 ≤ k by omega)
    obtain hlt | rfl := Nat.lt_succ_iff_lt_or_eq.mp h
    · have hle := ih hlt
      omega
    · omega

/-- A date is inside of its year. -/
theorem Date.dayOfYear_le (d : Date) : daysBeforeMonth (isLeap d.year) d.month + d.day ≤
    365 + (if isLeap d.year then 1 else 0) := by
  have hday := d.valid.day_range
  have hmonth := d.valid.month_range
  have hlast := daysBeforeMonth_succ (isLeap d.year) 12 (by omega) (by omega)
  rw [if_pos rfl] at hlast
  obtain hlt | heq := Nat.lt_or_eq_of_le hmonth.2
  · have hle := daysBeforeMonth_mono (isLeap d.year) hmonth.1 le_rfl hlt
    omega
  · rw [heq] at hday ⊢
    omega

/-- The order of the fields. -/
def Date.Before (d d' : Date) : Prop :=
  d.year < d'.year ∨ (d.year = d'.year ∧ (d.month < d'.month ∨
    (d.month = d'.month ∧ d.day < d'.day)))

theorem Date.toOrdinal_lt {d d' : Date} (h : d.Before d') : d.toOrdinal < d'.toOrdinal := by
  have hday := d.valid.day_range
  have hday' := d'.valid.day_range
  have hinside := d.dayOfYear_le
  unfold Date.toOrdinal ordinalOf
  obtain hyear | ⟨hyear, hmonth | ⟨hmonth, hdays⟩⟩ := h
  · have hle := daysBeforeYear_mono d.valid.year_range.1 hyear
    omega
  · have hle := daysBeforeMonth_mono (isLeap d.year) d.valid.month_range.1 d'.valid.month_range.2 hmonth
    rw [← hyear]
    omega
  · rw [hyear, hmonth]
    omega

theorem Date.trichotomy (d d' : Date) : d.Before d' ∨ d = d' ∨ d'.Before d := by
  obtain ⟨y, m, day, hv⟩ := d
  obtain ⟨y', m', day', hv'⟩ := d'
  simp only [Date.Before, Date.mk.injEq]
  omega

theorem Date.toOrdinal_lt_iff (d d' : Date) : d.toOrdinal < d'.toOrdinal ↔ d.Before d' := by
  refine ⟨fun h => ?_, Date.toOrdinal_lt⟩
  obtain hbefore | rfl | hafter := Date.trichotomy d d'
  · exact hbefore
  · exact absurd h (lt_irrefl _)
  · exact absurd (h.trans (Date.toOrdinal_lt hafter)) (lt_irrefl _)

theorem Date.toOrdinal_inj {d d' : Date} : d.toOrdinal = d'.toOrdinal ↔ d = d' := by
  refine ⟨fun h => ?_, fun h => congrArg _ h⟩
  obtain hbefore | heq | hafter := Date.trichotomy d d'
  · exact absurd (Date.toOrdinal_lt hbefore) (by omega)
  · exact heq
  · exact absurd (Date.toOrdinal_lt hafter) (by omega)

/-! ## Dates from ordinals -/

/-- The month and the day in it, of the day `n` of a year, from 0 on. -/
def monthDay (leap : Bool) (n : Nat) : Nat × Nat :=
  let month := (n + 50) / 32
  if n < daysBeforeMonth leap month then (month - 1, n - daysBeforeMonth leap (month - 1) + 1)
  else (month, n - daysBeforeMonth leap month + 1)

/-- `_ord2ymd`. -/
def ord2ymd (ordinal : Nat) : Nat × Nat × Nat :=
  let n := ordinal - 1
  let n400 := n / 146097
  let n := n % 146097
  let n100 := n / 36524
  let n := n % 36524
  let n4 := n / 1461
  let n := n % 1461
  let n1 := n / 365
  let n := n % 365
  let year := n400 * 400 + n100 * 100 + n4 * 4 + n1 + 1
  if n1 = 4 ∨ n100 = 4 then (year - 1, 12, 31)
  else
    let leap := n1 = 3 && (n4 ≠ 24 || n100 = 3)
    (year, monthDay leap n)

theorem monthDay_spec : ∀ leap : Bool, ∀ n < 365,
    (1 ≤ (monthDay leap n).1 ∧ (monthDay leap n).1 ≤ 12) ∧
      (1 ≤ (monthDay leap n).2 ∧ (monthDay leap n).2 ≤ daysInMonth leap (monthDay leap n).1) ∧
      daysBeforeMonth leap (monthDay leap n).1 + (monthDay leap n).2 = n + 1 := by
  decide +kernel

/-- The days before the year after `a` periods of 400 years, `b` of 100, `c` of 4, and `e` years. -/
theorem daysBeforeYear_eq (a : Nat) {b c e : Nat} (hb : b ≤ 3) (hc : c ≤ 24) (he : e ≤ 3) :
    daysBeforeYear (a * 400 + b * 100 + c * 4 + e + 1) =
      146097 * a + 36524 * b + 1461 * c + 365 * e := by
  have h4 : (a * 400 + b * 100 + c * 4 + e) / 4 = 100 * a + 25 * b + c := by omega
  have h100 : (a * 400 + b * 100 + c * 4 + e) / 100 = 4 * a + b := by omega
  have h400 : (a * 400 + b * 100 + c * 4 + e) / 400 = a := by omega
  rw [daysBeforeYear, Nat.add_sub_cancel, h4, h100, h400]
  omega

theorem isLeap_eq (a : Nat) {b c e : Nat} (hb : b ≤ 3) (hc : c ≤ 24) (he : e ≤ 3) :
    isLeap (a * 400 + b * 100 + c * 4 + e + 1) = (e = 3 && (c ≠ 24 || b = 3)) := by
  have h4 : (a * 400 + b * 100 + c * 4 + e + 1) % 4 = 0 ↔ e = 3 := by omega
  have h100 : e = 3 → ((a * 400 + b * 100 + c * 4 + e + 1) % 100 = 0 ↔ c = 24) := by omega
  have h400 : e = 3 → c = 24 → ((a * 400 + b * 100 + c * 4 + e + 1) % 400 = 0 ↔ b = 3) := by omega
  rw [isLeap, Bool.eq_iff_iff]
  simp only [Bool.and_eq_true, Bool.or_eq_true, decide_eq_true_eq, ne_eq]
  rw [h4]
  refine and_congr_right fun he => ?_
  rw [h100 he]
  by_cases hc : c = 24
  · rw [hc] at h400 ⊢
    rw [h400 he rfl]
  · simp [hc]

/-- **Each ordinal is that of the date that is computed.** -/
theorem ord2ymd_spec {n : Nat} (h : 1 ≤ n) (hmax : n ≤ maxOrdinal) :
    ValidDate (ord2ymd n).1 (ord2ymd n).2.1 (ord2ymd n).2.2 ∧
      ordinalOf (ord2ymd n).1 (ord2ymd n).2.1 (ord2ymd n).2.2 = n := by
  unfold maxOrdinal at hmax
  -- the periods, and what is left of them
  obtain ⟨a, ha⟩ : ∃ a, a = (n - 1) / 146097 := ⟨_, rfl⟩
  obtain ⟨b, hb⟩ : ∃ b, b = (n - 1) % 146097 / 36524 := ⟨_, rfl⟩
  obtain ⟨c, hc⟩ : ∃ c, c = (n - 1) % 146097 % 36524 / 1461 := ⟨_, rfl⟩
  obtain ⟨e, he⟩ : ∃ e, e = (n - 1) % 146097 % 36524 % 1461 / 365 := ⟨_, rfl⟩
  obtain ⟨r, hr⟩ : ∃ r, r = (n - 1) % 146097 % 36524 % 1461 % 365 := ⟨_, rfl⟩
  have hsum : n - 1 = 146097 * a + 36524 * b + 1461 * c + 365 * e + r := by omega
  have hb4 : b ≤ 4 := by omega
  have hc24 : c ≤ 24 := by omega
  have he4 : e ≤ 4 := by omega
  have hr365 : r < 365 := by omega
  have hymd : ord2ymd n =
      if e = 4 ∨ b = 4 then (a * 400 + b * 100 + c * 4 + e + 1 - 1, 12, 31)
      else (a * 400 + b * 100 + c * 4 + e + 1, monthDay (e = 3 && (c ≠ 24 || b = 3)) r) := by
    rw [ha, hb, hc, he, hr]
    rfl
  rw [hymd]
  by_cases hlast : e = 4 ∨ b = 4
  · -- the last day of a leap year
    obtain ⟨b', c', hb', hc', hyear, hleap, hn⟩ : ∃ b' c', b' ≤ 3 ∧ c' ≤ 24 ∧
        a * 400 + b * 100 + c * 4 + e + 1 - 1 = a * 400 + b' * 100 + c' * 4 + 3 + 1 ∧
        (c' ≠ 24 ∨ b' = 3) ∧ n = 146097 * a + 36524 * b' + 1461 * c' + 365 * 3 + 366 := by
      obtain rfl | rfl := hlast
      · exact ⟨b, c, by omega, by omega, by omega, by omega, by omega⟩
      · exact ⟨3, 24, by omega, by omega, by omega, by omega, by omega⟩
    have hisLeap : isLeap (a * 400 + b' * 100 + c' * 4 + 3 + 1) = true := by
      rw [isLeap_eq a hb' hc' le_rfl]
      simpa using hleap
    rw [if_pos hlast, hyear]
    refine ⟨⟨⟨by omega, ?_⟩, show 1 ≤ 12 ∧ 12 ≤ 12 by decide, ?_⟩, ?_⟩
    · show a * 400 + b' * 100 + c' * 4 + 3 + 1 ≤ 9999
      omega
    · show 1 ≤ 31 ∧ 31 ≤ daysInMonth (isLeap (a * 400 + b' * 100 + c' * 4 + 3 + 1)) 12
      rw [hisLeap]
      decide
    · show ordinalOf (a * 400 + b' * 100 + c' * 4 + 3 + 1) 12 31 = n
      have hmonths : daysBeforeMonth true 12 = 335 := rfl
      rw [ordinalOf, daysBeforeYear_eq a hb' hc' le_rfl, hisLeap, hmonths, hn]
  · rw [not_or] at hlast
    have hb3 : b ≤ 3 := by omega
    have he3 : e ≤ 3 := by omega
    obtain ⟨hmonth, hday, hdays⟩ := monthDay_spec (e = 3 && (c ≠ 24 || b = 3)) r hr365
    rw [if_neg (not_or.mpr hlast)]
    have hleap := isLeap_eq a hb3 hc24 he3
    refine ⟨⟨⟨by omega, ?_⟩, hmonth, ?_⟩, ?_⟩
    · show a * 400 + b * 100 + c * 4 + e + 1 ≤ 9999
      omega
    · rw [hleap]
      exact hday
    · simp only [ordinalOf]
      rw [daysBeforeYear_eq a hb3 hc24 he3, hleap]
      omega

def fromOrdinal (n : Nat) (h : 1 ≤ n ∧ n ≤ maxOrdinal) : Date :=
  ⟨(ord2ymd n).1, (ord2ymd n).2.1, (ord2ymd n).2.2, (ord2ymd_spec h.1 h.2).1⟩

theorem toOrdinal_fromOrdinal (n : Nat) (h : 1 ≤ n ∧ n ≤ maxOrdinal) :
    (fromOrdinal n h).toOrdinal = n :=
  (ord2ymd_spec h.1 h.2).2

theorem Date.toOrdinal_range (d : Date) : 1 ≤ d.toOrdinal ∧ d.toOrdinal ≤ maxOrdinal := by
  have hday := d.valid.day_range
  have hyear := d.valid.year_range
  have hinside := d.dayOfYear_le
  have hle := daysBeforeYear_mono hyear.1 (show d.year < 10000 by omega)
  have hlast : daysBeforeYear 10000 = maxOrdinal := rfl
  unfold Date.toOrdinal ordinalOf
  omega

/-! ## Times -/

structure DateTime where
  date : Date
  hour : Nat
  minute : Nat
  second : Nat
  microsecond : Nat
  valid : hour < 24 ∧ minute < 60 ∧ second < 60 ∧ microsecond < 1000000
deriving DecidableEq, Repr

/-- The microseconds since the day before the first. -/
def DateTime.micros (d : DateTime) : Nat :=
  (((d.date.toOrdinal * 24 + d.hour) * 60 + d.minute) * 60 + d.second) * 1000000 + d.microsecond

/-- The order of the fields. -/
def DateTime.Before (d d' : DateTime) : Prop :=
  d.date.Before d'.date ∨ (d.date = d'.date ∧ (d.hour < d'.hour ∨ (d.hour = d'.hour ∧
    (d.minute < d'.minute ∨ (d.minute = d'.minute ∧ (d.second < d'.second ∨
      (d.second = d'.second ∧ d.microsecond < d'.microsecond)))))))

theorem micros_lt_iff (d d' : DateTime) : d.micros < d'.micros ↔ d.Before d' := by
  have hv := d.valid
  have hv' := d'.valid
  rw [DateTime.Before, ← Date.toOrdinal_lt_iff, ← Date.toOrdinal_inj]
  unfold DateTime.micros
  omega

theorem micros_inj {d d' : DateTime} : d.micros = d'.micros ↔ d = d' := by
  refine ⟨fun h => ?_, fun h => congrArg _ h⟩
  have hv := d.valid
  have hv' := d'.valid
  unfold DateTime.micros at h
  have hdate : d.date.toOrdinal = d'.date.toOrdinal := by omega
  obtain ⟨date, hour, minute, second, microsecond, hd⟩ := d
  obtain ⟨date', hour', minute', second', microsecond', hd'⟩ := d'
  simp only [Date.toOrdinal_inj] at hdate
  subst hdate
  simp only [DateTime.mk.injEq, true_and] at h ⊢
  omega

def microsPerDay : Nat := 86400000000

/-- The time at `t` microseconds; there is none before the first year or after the last. -/
def ofMicros (t : Int) : Option DateTime :=
  let day := (t / microsPerDay).toNat
  let rest := (t % microsPerDay).toNat
  if h : 1 ≤ day ∧ day ≤ maxOrdinal then
    some {
      date := fromOrdinal day h
      hour := rest / 3600000000
      minute := rest / 60000000 % 60
      second := rest / 1000000 % 60
      microsecond := rest % 1000000
      valid := by
        have hrest : rest < 86400000000 := by
          simp only [rest, microsPerDay]
          omega
        omega }
  else none

/-- **The time at a number of microseconds has that number.** -/
theorem ofMicros_eq_some {t : Int} {d : DateTime} : ofMicros t = some d ↔ (d.micros : Int) = t := by
  have hmicros : ∀ d' : DateTime, ofMicros t = some d' → (d'.micros : Int) = t := by
    intro d' h
    unfold ofMicros at h
    simp only at h
    split at h
    · next hday =>
      obtain rfl := Option.some.inj h
      simp only [DateTime.micros, toOrdinal_fromOrdinal, microsPerDay] at hday ⊢
      omega
    · cases h
  refine ⟨hmicros d, fun h => ?_⟩
  have hrange := d.date.toOrdinal_range
  have hv := d.valid
  have hday : 1 ≤ (t / microsPerDay).toNat ∧ (t / microsPerDay).toNat ≤ maxOrdinal := by
    have heq : (t / microsPerDay).toNat = d.date.toOrdinal := by
      rw [← h, DateTime.micros, microsPerDay]
      omega
    rw [heq]
    exact hrange
  cases hsome : ofMicros t with
  | none =>
    unfold ofMicros at hsome
    simp only at hsome
    rw [dif_pos hday] at hsome
    cases hsome
  | some d' =>
    have hd' := hmicros d' hsome
    rw [micros_inj.mp (Int.ofNat.inj (hd'.trans h.symm))]

/-! ## Texts -/

/-- A number with `k` digits. -/
def padded : Nat → Nat → Text
  | 0, _ => []
  | k + 1, n => digitChar (n / 10 ^ k % 10) :: padded k n

/-- `isoformat()` of a time in UTC; microseconds are left out when there are none. -/
def isoformat (d : DateTime) : Text :=
  padded 4 d.date.year ++ '-' :: (padded 2 d.date.month ++ '-' :: (padded 2 d.date.day ++ 'T' ::
    (padded 2 d.hour ++ ':' :: (padded 2 d.minute ++ ':' :: (padded 2 d.second ++
      if d.microsecond = 0 then "+00:00".toList
      else '.' :: (padded 6 d.microsecond ++ "+00:00".toList))))))

example : isoformat ⟨⟨2024, 2, 29, by decide⟩, 23, 5, 0, 70, by decide⟩ =
    "2024-02-29T23:05:00.000070+00:00".toList := by decide

open Text (codes)

theorem toNat_digitChar : ∀ d < 10, (digitChar d).toNat = 48 + d := by decide

/-- Numbers of two digits in some base, in the order of the first, then the second. -/
theorem mixed_lt_iff {p x y a b : Nat} (ha : a < p) (hb : b < p) :
    x * p + a < y * p + b ↔ x < y ∨ (x = y ∧ a < b) := by
  obtain hlt | rfl | hgt := Nat.lt_trichotomy x y
  · have hmul : (x + 1) * p ≤ y * p := Nat.mul_le_mul_right p hlt
    rw [Nat.add_mul, Nat.one_mul] at hmul
    omega
  · omega
  · have hmul : (y + 1) * p ≤ x * p := Nat.mul_le_mul_right p hgt
    rw [Nat.add_mul, Nat.one_mul] at hmul
    omega

theorem mixed_eq_iff {p x y a b : Nat} (ha : a < p) (hb : b < p) :
    x * p + a = y * p + b ↔ x = y ∧ a = b := by
  have hlt := mixed_lt_iff (x := x) (y := y) ha hb
  have hgt := mixed_lt_iff (x := y) (y := x) hb ha
  omega

/-- Texts that begin with a number of the same width: the number decides, then the rest. -/
theorem padded_append_lt (k m n : Nat) (s t : Text) :
    codes (padded k m ++ s) < codes (padded k n ++ t) ↔
      m % 10 ^ k < n % 10 ^ k ∨ (m % 10 ^ k = n % 10 ^ k ∧ codes s < codes t) := by
  induction k with
  | zero => simp [padded, Nat.mod_one]
  | succ k ih =>
    have hpos : 0 < 10 ^ k := Nat.pow_pos (by omega)
    have hm := Nat.mod_lt m hpos
    have hn := Nat.mod_lt n hpos
    have hmod : ∀ l : Nat, l % 10 ^ (k + 1) = l / 10 ^ k % 10 * 10 ^ k + l % 10 ^ k := by
      intro l
      rw [Nat.mod_pow_succ]
      ring
    have hcons : ∀ (l : Nat) (u : Text), codes (padded (k + 1) l ++ u) =
        (48 + l / 10 ^ k % 10) :: codes (padded k l ++ u) := by
      intro l u
      rw [padded, List.cons_append, codes, List.map_cons,
        toNat_digitChar _ (Nat.mod_lt _ (by omega))]
      rfl
    rw [hcons, hcons, List.cons_lt_cons_iff, ih, hmod, hmod, mixed_lt_iff hm hn,
      mixed_eq_iff hm hn, Nat.add_lt_add_iff_left, Nat.add_left_cancel_iff]
    tauto

theorem cons_lt (c : Char) (s t : Text) : codes (c :: s) < codes (c :: t) ↔ codes s < codes t := by
  rw [codes, List.map_cons, codes, List.map_cons, List.cons_lt_cons_iff]
  simp [codes]

/-- The part of the text for the microseconds. -/
theorem microseconds_lt {m n : Nat} (hm : m < 1000000) (hn : n < 1000000) :
    codes (if m = 0 then "+00:00".toList else '.' :: (padded 6 m ++ "+00:00".toList)) <
        codes (if n = 0 then "+00:00".toList else '.' :: (padded 6 n ++ "+00:00".toList)) ↔
      m < n := by
  have hfirst : ∀ s t : Text, codes ('+' :: s) < codes ('.' :: t) := by
    intro s t
    rw [codes, List.map_cons, codes, List.map_cons, List.cons_lt_cons_iff]
    exact .inl (by decide)
  by_cases hm0 : m = 0
  · by_cases hn0 : n = 0
    · rw [if_pos hm0, if_pos hn0, hm0, hn0]
      simp
    · rw [if_pos hm0, if_neg hn0]
      exact iff_of_true (hfirst _ _) (by omega)
  · by_cases hn0 : n = 0
    · rw [if_neg hm0, if_pos hn0]
      exact iff_of_false (hfirst _ _).asymm (by omega)
    · rw [if_neg hm0, if_neg hn0, cons_lt, padded_append_lt]
      have hself : ¬ codes "+00:00".toList < codes "+00:00".toList := lt_irrefl _
      simp only [hself, and_false, or_false]
      omega

/-- **The texts are in the order of the times.** -/
theorem isoformat_lt_iff (d d' : DateTime) :
    codes (isoformat d) < codes (isoformat d') ↔ d.micros < d'.micros := by
  have hv := d.valid
  have hv' := d'.valid
  have hyear := d.date.valid.year_range
  have hyear' := d'.date.valid.year_range
  have hmonth := d.date.valid.month_range
  have hmonth' := d'.date.valid.month_range
  have hday : ∀ e : Date, e.day < 100 := by
    intro e
    have hle := e.valid.day_range
    have hmax : ∀ leap : Bool, ∀ m < 13, daysInMonth leap m ≤ 31 := by decide
    have hbound := hmax (isLeap e.year) e.month (by have := e.valid.month_range; omega)
    omega
  have hd := hday d.date
  have hd' := hday d'.date
  have hdate : d.date = d'.date ↔
      d.date.year = d'.date.year ∧ d.date.month = d'.date.month ∧ d.date.day = d'.date.day := by
    obtain ⟨⟨y, m, day, hvalid⟩, -⟩ := d
    obtain ⟨⟨y', m', day', hvalid'⟩, -⟩ := d'
    simp
  rw [micros_lt_iff, DateTime.Before, Date.Before, hdate, isoformat, isoformat]
  simp only [padded_append_lt, cons_lt, microseconds_lt hv.2.2.2 hv'.2.2.2]
  omega

end DocFlow.Calendar
