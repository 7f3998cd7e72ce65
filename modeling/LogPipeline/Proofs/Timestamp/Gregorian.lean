/-
The calendar by its rules. A year has twelve months of fixed lengths but
for February, and which years are leap years is told by three divisions;
the number of a day is found by counting years, months and days
(`Date.dayNumber`). None of the era arithmetic of `Date.ofDays` is in
these definitions, and here the two are shown to agree: the date of a day
exists and has that day's number (`exists_ofDays`, `dayNumber_ofDays`).

Both sides meet at the first of March. `marchStart` is its number in
closed form: the leap day is the last of the year that begins there. The
year within an era is an estimate by division; it never goes down and is
right on the first and the last day of each of the 400 years, so it is
right on all of them (`yearOfEra_eq`).
-/
import LogPipeline.Calendar
import Mathlib.Algebra.Order.Ring.Int

namespace LogPipeline.Date

-- ============================================================ the rules

/-- Every fourth year, but of the years that end a century every fourth. -/
def isLeap (year : Int) : Bool := year % 4 = 0 && (year % 100 ≠ 0 || year % 400 = 0)

def monthLengths (leap : Bool) : List Nat :=
  [31, if leap then 29 else 28, 31, 30, 31, 30, 31, 31, 30, 31, 30, 31]

def yearLength (year : Int) : Int := (monthLengths (isLeap year)).sum

/-- The days from the start of 1970 to the start of the year, counted year
by year in either direction. -/
def yearStart (year : Int) : Int :=
  ((List.range (year - 1970).toNat).map fun k : Nat => yearLength (1970 + k)).sum
    - ((List.range (1970 - year).toNat).map fun k : Nat => yearLength (1969 - k)).sum

/-- The days of the year before the month. -/
def monthStart (leap : Bool) (month : Nat) : Nat := ((monthLengths leap).take (month - 1)).sum

def monthLength (leap : Bool) (month : Nat) : Nat := (monthLengths leap).getD (month - 1) 0

/-- The calendar has such a day. -/
structure Exists (d : Date) : Prop where
  month_pos : 1 ≤ d.month
  month_le : d.month ≤ 12
  day_pos : 1 ≤ d.day
  day_le : d.day ≤ monthLength (isLeap d.year) d.month

instance (d : Date) : Decidable d.Exists :=
  decidable_of_iff (1 ≤ d.month ∧ d.month ≤ 12 ∧ 1 ≤ d.day
      ∧ d.day ≤ monthLength (isLeap d.year) d.month)
    ⟨fun ⟨hpos, hle, hday, hday'⟩ => ⟨hpos, hle, hday, hday'⟩,
      fun ⟨hpos, hle, hday, hday'⟩ => ⟨hpos, hle, hday, hday'⟩⟩

/-- The number of the day, counted from 1 January 1970. -/
def dayNumber (d : Date) : Int :=
  yearStart d.year + monthStart (isLeap d.year) d.month + (d.day - 1)

-- ============================================================== years

/-- A year is one day longer for every multiple of 4 and of 400 that it is,
and one shorter for every multiple of 100. -/
theorem yearLength_eq (year : Int) :
    yearLength year = 365 + (year / 4 - (year - 1) / 4) - (year / 100 - (year - 1) / 100)
      + (year / 400 - (year - 1) / 400) := by
  unfold yearLength isLeap
  by_cases h4 : year % 4 = 0
  · by_cases h100 : year % 100 = 0
    · by_cases h400 : year % 400 = 0
      · simp [h4, h100, h400, monthLengths]
        omega
      · simp [h4, h100, h400, monthLengths]
        omega
    · simp [h4, h100, monthLengths]
      omega
  · simp [h4, monthLengths]
    omega

/-- Counted year by year, the days up to a year come to the closed form. -/
theorem yearStart_eq (year : Int) :
    yearStart year
      = 365 * year + (year - 1) / 4 - (year - 1) / 100 + (year - 1) / 400 - 719527 := by
  have hafter (n : Nat) : ((List.range n).map fun k : Nat => yearLength (1970 + k)).sum
      = 365 * n + (1969 + n) / 4 - (1969 + n) / 100 + (1969 + n) / 400 - 477 := by
    induction n with
    | zero => rfl
    | succ n ih =>
      rw [List.range_succ, List.map_append, List.sum_append, ih]
      simp only [List.map_cons, List.map_nil, List.sum_cons, List.sum_nil, yearLength_eq]
      omega
  have hbefore (n : Nat) : ((List.range n).map fun k : Nat => yearLength (1969 - k)).sum
      = 365 * n - (1969 - n) / 4 + (1969 - n) / 100 - (1969 - n) / 400 + 477 := by
    induction n with
    | zero => rfl
    | succ n ih =>
      rw [List.range_succ, List.map_append, List.sum_append, ih]
      simp only [List.map_cons, List.map_nil, List.sum_cons, List.sum_nil, yearLength_eq]
      omega
  unfold yearStart
  rw [hafter, hbefore]
  omega

/-- A year ends where the next one starts. -/
theorem yearStart_succ (year : Int) : yearStart (year + 1) = yearStart year + yearLength year := by
  rw [yearStart_eq, yearStart_eq, yearLength_eq]
  omega

theorem yearStart_mono {y y' : Int} (h : y ≤ y') : yearStart y ≤ yearStart y' := by
  -- A century is 25 times four years, so what it takes away was added before.
  have hcentury : (y - 1) / 100 = (y - 1) / 4 / 25 ∧ (y' - 1) / 100 = (y' - 1) / 4 / 25 := by
    omega
  rw [yearStart_eq, yearStart_eq, hcentury.1, hcentury.2]
  omega

/-- The number of the first of March. -/
def marchStart (year : Int) : Int :=
  365 * year + year / 4 - year / 100 + year / 400 - 719468

/-- The first of March is found behind January and February. -/
theorem yearStart_march (year : Int) :
    yearStart year + 59 + (isLeap year).toNat = marchStart year := by
  have hleap : ((isLeap year).toNat : Int) = yearLength year - 365 := by
    unfold yearLength
    cases isLeap year <;> rfl
  rw [hleap, yearLength_eq, yearStart_eq]
  unfold marchStart
  omega

/-- The year after begins 306 days after the first of March. -/
theorem yearStart_after_march (year : Int) : yearStart (year + 1) = marchStart year + 306 := by
  rw [yearStart_eq]
  unfold marchStart
  omega

-- ============================================================= months

/-- From March on, the months before make up the days that a line of slope
30.6 passes. -/
theorem monthStart_march : ∀ leap, ∀ m < 10,
    monthStart leap (m + 3) = 59 + leap.toNat + (153 * m + 2) / 5 := by
  decide

/-- January and February come last in a year that starts with March. -/
theorem monthStart_january : ∀ leap, ∀ m < 12, 10 ≤ m →
    monthStart leap (m - 9) + 306 = (153 * m + 2) / 5 := by
  decide

/-- From March on the rule gives each month its length, in leap years and
others. -/
theorem monthLength_march : ∀ leap, ∀ m < 10,
    (153 * m + 2) / 5 + monthLength leap (m + 3) = (153 * (m + 1) + 2) / 5 := by
  decide

theorem monthLength_january : ∀ leap, monthLength leap 1 = 31 := by
  decide

theorem monthLength_february : ∀ leap, monthLength leap 2 = 28 + leap.toNat := by
  decide

theorem monthLength_le : ∀ leap, ∀ month ≤ 12, monthLength leap month ≤ 31 := by
  decide

/-- A month ends before a later one begins. -/
theorem monthStart_add_length_le : ∀ leap, ∀ m' ≤ 12, ∀ m < m', 1 ≤ m →
    monthStart leap m + monthLength leap m ≤ monthStart leap m' := by
  decide +kernel

/-- No month reaches beyond its year. -/
theorem monthStart_add_length_le_year : ∀ leap, ∀ m ≤ 12, 1 ≤ m →
    monthStart leap m + monthLength leap m ≤ (monthLengths leap).sum := by
  decide +kernel

-- =============================================================== eras

theorem yearOfEra_mono {a b : Nat} (h : a ≤ b) (hb : b < 146097) : yearOfEra a ≤ yearOfEra b := by
  induction b with
  | zero => exact Nat.le_of_eq (congrArg yearOfEra (Nat.le_zero.1 h))
  | succ b ih =>
    by_cases hab : a = b + 1
    · exact Nat.le_of_eq (congrArg yearOfEra hab)
    · apply Nat.le_trans (ih (by omega) (by omega))
      apply Nat.div_le_div_right
      omega

/-- The last day of a year of the era; that of the last one is its leap day. -/
def lastDay (yoe : Nat) : Nat := daysBeforeYear (yoe + 1) - 1 + yoe / 399

/-- The first and the last day of a year of the era are counted to it. -/
theorem yearOfEra_ends : ∀ yoe < 400, yearOfEra (daysBeforeYear yoe) = yoe
    ∧ yearOfEra (lastDay yoe) = yoe ∧ lastDay yoe < 146097 := by
  decide +kernel

/-- Every day of the era is in one of its years. -/
theorem exists_yearOfEra (doe : Nat) : ∀ n, doe < daysBeforeYear n →
    ∃ yoe < n, daysBeforeYear yoe ≤ doe ∧ doe < daysBeforeYear (yoe + 1)
  | 0, h => absurd h (Nat.not_lt_zero doe)
  | n + 1, h => by
    by_cases hn : doe < daysBeforeYear n
    · obtain ⟨yoe, hyoe, hin⟩ := exists_yearOfEra doe n hn
      exact ⟨yoe, Nat.lt_succ_of_lt hyoe, hin⟩
    · exact ⟨n, Nat.lt_succ_self n, Nat.le_of_not_lt hn, h⟩

/-- A day of the era lies in the year that is found for it. -/
theorem yearOfEra_eq {doe : Nat} (h : doe < 146097) :
    yearOfEra doe < 400 ∧ daysBeforeYear (yearOfEra doe) ≤ doe
      ∧ doe ≤ lastDay (yearOfEra doe) := by
  have hyear : ∃ yoe < 400, daysBeforeYear yoe ≤ doe ∧ doe ≤ lastDay yoe := by
    by_cases hlast : doe < daysBeforeYear 400
    · obtain ⟨yoe, hyoe, hle, hlt⟩ := exists_yearOfEra doe 400 hlast
      refine ⟨yoe, hyoe, hle, ?_⟩
      unfold lastDay
      omega
    · have hday : daysBeforeYear 400 = 146096 := rfl
      have hends : daysBeforeYear 399 ≤ 146096 ∧ lastDay 399 = 146096 := by decide
      exact ⟨399, by omega, by omega, by omega⟩
  obtain ⟨yoe, hyoe, hle, hlt⟩ := hyear
  obtain ⟨hfirst, hlast, hend⟩ := yearOfEra_ends yoe hyoe
  have hfound : yearOfEra doe = yoe := by
    apply Nat.le_antisymm
    · rw [← hlast]
      exact yearOfEra_mono hlt hend
    · rw [← hfirst]
      exact yearOfEra_mono hle h
  rw [hfound]
  exact ⟨hyoe, hle, hlt⟩

/-- The first of March, from the era and the year of the era. -/
theorem marchStart_era (era : Int) {yoe : Nat} (h : yoe < 400) :
    marchStart (yoe + era * 400) = era * 146097 + daysBeforeYear yoe - 719468 := by
  unfold marchStart daysBeforeYear
  omega

/-- After the last day of a year of the era comes a first of March. -/
theorem marchStart_succ_era (era : Int) {yoe : Nat} (h : yoe < 400) :
    marchStart (yoe + era * 400 + 1) = era * 146097 + lastDay yoe + 1 - 719468 := by
  unfold marchStart lastDay daysBeforeYear
  omega

-- =============================================================== days

/-- For a day that exists the era arithmetic gives its number. -/
theorem toDays_eq_dayNumber {d : Date} (h : d.Exists) : d.toDays = d.dayNumber := by
  obtain ⟨year, month, day⟩ := d
  obtain ⟨hpos, hle, hday, -⟩ := h
  dsimp only at hpos hle hday
  have hera (y : Int) : y / 400 * 146097 + daysBeforeYear (y % 400).toNat - 719468
      = marchStart y := by
    have hyoe := marchStart_era (y / 400) (show (y % 400).toNat < 400 by omega)
    rw [← hyoe]
    congr 1
    omega
  unfold toDays dayNumber
  dsimp only
  by_cases hmonth : month ≤ 2
  · have hmarch := hera (year - 1)
    have hstart := monthStart_january (isLeap year) (month + 9) (by omega) (by omega)
    have hyear := yearStart_after_march (year - 1)
    rw [Int.sub_add_cancel] at hyear
    rw [Nat.add_sub_cancel] at hstart
    rw [if_pos hmonth, if_neg (by omega)]
    omega
  · have hmarch := hera year
    have hstart := monthStart_march (isLeap year) (month - 3) (by omega)
    have hyear := yearStart_march year
    rw [Nat.sub_add_cancel (by omega)] at hstart
    rw [if_neg hmonth, if_pos (by omega)]
    omega

/-- The date `doy` days after the first of March of the year. -/
def fromMarch (year : Int) (doy : Nat) : Date :=
  let mp := (5 * doy + 2) / 153
  let month := if mp < 10 then mp + 3 else mp - 9
  ⟨if month ≤ 2 then year + 1 else year, month, doy - (153 * mp + 2) / 5 + 1⟩

/-- Before the next first of March there is such a date, and this is its number. -/
theorem exists_fromMarch {year : Int} {doy : Nat}
    (h : marchStart year + doy < marchStart (year + 1)) :
    (fromMarch year doy).Exists ∧ (fromMarch year doy).dayNumber = marchStart year + doy := by
  have hlength : (doy : Int) < 365 + (isLeap (year + 1)).toNat := by
    have hnext := yearStart_march (year + 1)
    have hafter := yearStart_after_march year
    omega
  have hleap : (isLeap (year + 1)).toNat ≤ 1 := Bool.toNat_le _
  unfold fromMarch
  generalize hmp : (5 * doy + 2) / 153 = mp
  dsimp only
  by_cases hmarch : mp < 10
  · -- from March to December, in the year itself
    have hlater : ¬ mp + 3 ≤ 2 := by omega
    have hstart := monthStart_march (isLeap year) mp hmarch
    have hmonth := monthLength_march (isLeap year) mp hmarch
    have hyear := yearStart_march year
    rw [if_pos hmarch, if_neg hlater]
    constructor
    · constructor <;> dsimp only <;> omega
    · unfold dayNumber
      dsimp only
      omega
  · -- January or February, in the year after
    have hlast : mp = 10 ∨ mp = 11 := by omega
    have hearly : mp - 9 ≤ 2 := by omega
    have hstart := monthStart_january (isLeap (year + 1)) mp (by omega) (by omega)
    have hyear := yearStart_after_march year
    rw [if_neg hmarch, if_pos hearly]
    constructor
    · rcases hlast with rfl | rfl
      · have hjanuary : monthLength (isLeap (year + 1)) (10 - 9) = 31 := monthLength_january _
        constructor <;> dsimp only <;> omega
      · have hfebruary :
            monthLength (isLeap (year + 1)) (11 - 9) = 28 + (isLeap (year + 1)).toNat :=
          monthLength_february _
        constructor <;> dsimp only <;> omega
    · unfold dayNumber
      dsimp only
      omega

/-- The date of a day is counted from the first of March before it. -/
theorem ofDays_fromMarch (n : Int) : ∃ (year : Int) (doy : Nat), ofDays n = fromMarch year doy
    ∧ marchStart year + doy = n ∧ n < marchStart (year + 1) := by
  obtain ⟨hyoe, hle, hlast⟩ := yearOfEra_eq
    (show ((n + 719468) % 146097).toNat < 146097 by omega)
  refine ⟨_, _, rfl, ?_, ?_⟩
  · rw [marchStart_era _ hyoe]
    omega
  · rw [marchStart_succ_era _ hyoe]
    omega

/-- The date of a day is one that the calendar has. -/
theorem exists_ofDays (n : Int) : (ofDays n).Exists := by
  obtain ⟨year, doy, hdate, hn, hlt⟩ := ofDays_fromMarch n
  rw [hdate]
  exact (exists_fromMarch (hn ▸ hlt)).1

/-- And its number is that of the day. -/
theorem dayNumber_ofDays (n : Int) : (ofDays n).dayNumber = n := by
  obtain ⟨year, doy, hdate, hn, hlt⟩ := ofDays_fromMarch n
  rw [hdate, (exists_fromMarch (hn ▸ hlt)).2, hn]

/-- The two ways of the era arithmetic undo each other. -/
theorem toDays_ofDays (n : Int) : (ofDays n).toDays = n := by
  rw [toDays_eq_dayNumber (exists_ofDays n), dayNumber_ofDays]

theorem Exists.day_le_longest {d : Date} (h : d.Exists) : d.day ≤ 31 :=
  Nat.le_trans h.day_le (monthLength_le _ _ h.month_le)

/-- The number of a day lies within its year. -/
theorem dayNumber_in_year {d : Date} (h : d.Exists) :
    yearStart d.year ≤ d.dayNumber ∧ d.dayNumber < yearStart (d.year + 1) := by
  obtain ⟨hpos, hle, hday, hlength⟩ := h
  have hmonth := monthStart_add_length_le_year (isLeap d.year) d.month hle hpos
  rw [yearStart_succ]
  unfold dayNumber yearLength
  omega

/-- A later number is that of a later year, month or day of the month. -/
theorem lex_of_dayNumber_lt {d d' : Date} (hd : d.Exists) (hd' : d'.Exists)
    (h : d.dayNumber < d'.dayNumber) :
    d.year < d'.year
      ∨ d.year = d'.year ∧ (d.month < d'.month ∨ d.month = d'.month ∧ d.day < d'.day) := by
  have hin := dayNumber_in_year hd
  have hin' := dayNumber_in_year hd'
  rcases Int.lt_trichotomy d.year d'.year with hyear | hyear | hyear
  · exact .inl hyear
  · refine .inr ⟨hyear, ?_⟩
    unfold dayNumber at h
    rw [hyear] at h
    rcases Nat.lt_trichotomy d.month d'.month with hmonth | hmonth | hmonth
    · exact .inl hmonth
    · refine .inr ⟨hmonth, ?_⟩
      rw [hmonth] at h
      omega
    · have hends := monthStart_add_length_le (isLeap d'.year) d.month hd.month_le d'.month hmonth
        hd'.month_pos
      have hlast := hd'.day_le
      have hfirst := hd.day_pos
      omega
  · have hmono := yearStart_mono (show d'.year + 1 ≤ d.year from hyear)
    omega

end LogPipeline.Date
