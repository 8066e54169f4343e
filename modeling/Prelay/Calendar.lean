import Mathlib.Algebra.Order.Ring.Int
import Mathlib.Data.Int.ConditionallyCompleteOrder
import Mathlib.Tactic.IntervalCases

namespace Calendar

section years

def isLeap (year : ℤ) : Bool := year % 4 = 0 ∧ (year % 100 ≠ 0 ∨ year % 400 = 0)

def leapDay (year : ℤ) : ℤ := if isLeap year then 1 else 0

def yearStart (year : ℤ) : ℤ := 365 * (year - 1) + (year - 1) / 4 - (year - 1) / 100 + (year - 1) / 400 - 719162

theorem leapDay_cases (year : ℤ) : leapDay year = 0 ∨ leapDay year = 1 := by
  unfold leapDay
  split_ifs
  · exact .inr rfl
  · exact .inl rfl

theorem yearStart_succ (year : ℤ) : yearStart (year + 1) = yearStart year + 365 + leapDay year := by
  unfold yearStart leapDay isLeap
  simp only [Bool.decide_and, Bool.decide_or, Bool.and_eq_true, Bool.or_eq_true, decide_eq_true_eq]
  split_ifs with h
  · omega
  · omega

/-- The year of a day: an estimate that is at most one year off, set right. -/
def yearOf (days : ℤ) : ℤ :=
  let estimate := 400 * (days + 719162) / 146097 + 1
  if days < yearStart estimate then estimate - 1
  else if yearStart (estimate + 1) ≤ days then estimate + 1
  else estimate

theorem yearOf_spec (days : ℤ) : yearStart (yearOf days) ≤ days ∧ days < yearStart (yearOf days + 1) := by
  unfold yearOf
  dsimp only
  generalize hestimate : 400 * (days + 719162) / 146097 + 1 = estimate
  have hlow : yearStart (estimate - 1) ≤ days := by
    unfold yearStart
    omega
  have hhigh : days < yearStart (estimate + 1 + 1) := by
    unfold yearStart
    omega
  split_ifs with hbefore hafter
  · rw [sub_add_cancel]
    exact ⟨hlow, hbefore⟩
  · exact ⟨hafter, hhigh⟩
  · exact ⟨not_lt.mp hbefore, not_le.mp hafter⟩

theorem yearStart_strictMono : StrictMono yearStart := by
  apply strictMono_int_of_lt_succ
  intro year
  rw [yearStart_succ]
  rcases leapDay_cases year with h | h <;> omega

theorem yearOf_eq {year days : ℤ} (hstart : yearStart year ≤ days) (hend : days < yearStart (year + 1)) :
    yearOf days = year := by
  obtain ⟨hlow, hhigh⟩ := yearOf_spec days
  have hle := yearStart_strictMono.lt_iff_lt.mp (lt_of_le_of_lt hstart hhigh)
  have hge := yearStart_strictMono.lt_iff_lt.mp (lt_of_le_of_lt hlow hend)
  omega

end years

section months

def monthOffset (leap : ℤ) : ℕ → ℤ
  | 1 => 0
  | 2 => 31
  | 3 => 59 + leap
  | 4 => 90 + leap
  | 5 => 120 + leap
  | 6 => 151 + leap
  | 7 => 181 + leap
  | 8 => 212 + leap
  | 9 => 243 + leap
  | 10 => 273 + leap
  | 11 => 304 + leap
  | 12 => 334 + leap
  | _ => 365 + leap

def monthLength (leap : ℤ) (month : ℕ) : ℤ := monthOffset leap (month + 1) - monthOffset leap month

def monthOf (leap days : ℤ) : ℕ := Nat.findGreatest (fun month => monthOffset leap month ≤ days) 12

theorem monthOf_range {leap days : ℤ} (hstart : 0 ≤ days) : 1 ≤ monthOf leap days ∧ monthOf leap days ≤ 12 :=
  ⟨Nat.le_findGreatest (by decide) hstart, Nat.findGreatest_le 12⟩

theorem monthOf_spec {leap days : ℤ} (hstart : 0 ≤ days) (hend : days < 365 + leap) :
    monthOffset leap (monthOf leap days) ≤ days ∧ days < monthOffset leap (monthOf leap days + 1) := by
  refine ⟨@Nat.findGreatest_spec 1 (fun month => monthOffset leap month ≤ days) _ 12 (by decide) hstart, ?_⟩
  rcases Nat.lt_or_ge (monthOf leap days) 12 with h | h
  · exact not_le.mp (Nat.findGreatest_is_greatest (Nat.lt_succ_self _) h)
  · rw [le_antisymm (monthOf_range hstart).2 h]
    exact hend

theorem monthLength_bounds {leap : ℤ} (hleap : leap = 0 ∨ leap = 1) {month : ℕ} (hfirst : 1 ≤ month) (hlast : month ≤ 12) :
    28 ≤ monthLength leap month ∧ monthLength leap month ≤ 31 := by
  unfold monthLength
  interval_cases month <;> simp only [monthOffset, Nat.reduceAdd] <;> omega

theorem monthOffset_nonneg {leap : ℤ} (hleap : leap = 0 ∨ leap = 1) {month : ℕ} (hfirst : 1 ≤ month) (hlast : month ≤ 12) :
    0 ≤ monthOffset leap month ∧ monthOffset leap (month + 1) ≤ 365 + leap := by
  interval_cases month <;> simp only [monthOffset, Nat.reduceAdd] <;> omega

theorem monthOffset_mono {leap : ℤ} (hleap : leap = 0 ∨ leap = 1) {first second : ℕ} (hfirst : 1 ≤ first)
    (hle : first ≤ second) (hlast : second ≤ 13) : monthOffset leap first ≤ monthOffset leap second := by
  induction second, hle using Nat.le_induction with
  | base => exact le_refl _
  | succ second hle ih =>
    have hlength := monthLength_bounds hleap (hfirst.trans hle) (by omega : second ≤ 12)
    unfold monthLength at hlength
    have hstep := ih (by omega)
    omega

theorem monthOf_eq {leap days : ℤ} (hleap : leap = 0 ∨ leap = 1) {month : ℕ} (hfirst : 1 ≤ month) (hlast : month ≤ 12)
    (hstart : monthOffset leap month ≤ days) (hend : days < monthOffset leap (month + 1)) : monthOf leap days = month := by
  have hrange := monthOffset_nonneg hleap hfirst hlast
  obtain ⟨hlow, hhigh⟩ := @monthOf_spec leap days (by omega) (by omega)
  have hof := @monthOf_range leap days (by omega)
  rcases lt_trichotomy (monthOf leap days) month with h | h | h
  · have hmono := monthOffset_mono hleap (Nat.le_add_left 1 _) (Nat.succ_le_of_lt h) (by omega)
    omega
  · exact h
  · have hmono := monthOffset_mono hleap (Nat.le_add_left 1 _) (Nat.succ_le_of_lt h) (by omega)
    omega

end months

structure Date where
  year : ℤ
  month : ℕ
  day : ℤ
  month_range : 1 ≤ month ∧ month ≤ 12
  day_range : 1 ≤ day ∧ day ≤ monthLength (leapDay year) month

namespace Date

theorem ext' {a b : Date} (hyear : a.year = b.year) (hmonth : a.month = b.month) (hday : a.day = b.day) : a = b := by
  cases a
  cases b
  simp only at hyear hmonth hday
  subst hyear hmonth hday
  rfl

def toDays (date : Date) : ℤ := yearStart date.year + monthOffset (leapDay date.year) date.month + (date.day - 1)

def ofDays (days : ℤ) : Date where
  year := yearOf days
  month := monthOf (leapDay (yearOf days)) (days - yearStart (yearOf days))
  day := days - yearStart (yearOf days) -
    monthOffset (leapDay (yearOf days)) (monthOf (leapDay (yearOf days)) (days - yearStart (yearOf days))) + 1
  month_range := monthOf_range (sub_nonneg.mpr (yearOf_spec days).1)
  day_range := by
    obtain ⟨hlow, hhigh⟩ := yearOf_spec days
    rw [yearStart_succ] at hhigh
    obtain ⟨hstart, hend⟩ := @monthOf_spec (leapDay (yearOf days)) (days - yearStart (yearOf days)) (by omega) (by omega)
    unfold monthLength
    omega

@[simp]
theorem toDays_ofDays (days : ℤ) : (ofDays days).toDays = days := by
  unfold toDays ofDays
  dsimp only
  omega

variable (date : Date)

theorem toDays_month : monthOffset (leapDay date.year) date.month ≤ date.toDays - yearStart date.year ∧
    date.toDays - yearStart date.year < monthOffset (leapDay date.year) (date.month + 1) := by
  have hday := date.day_range
  unfold monthLength at hday
  unfold toDays
  omega

theorem toDays_year : yearStart date.year ≤ date.toDays ∧ date.toDays < yearStart (date.year + 1) := by
  have hmonth := date.toDays_month
  have hrange := monthOffset_nonneg (leapDay_cases date.year) date.month_range.1 date.month_range.2
  rw [yearStart_succ]
  omega

@[simp]
theorem ofDays_toDays : ofDays date.toDays = date := by
  have hyear := yearOf_eq date.toDays_year.1 date.toDays_year.2
  have hmonth := monthOf_eq (leapDay_cases date.year) date.month_range.1 date.month_range.2 date.toDays_month.1
    date.toDays_month.2
  apply ext'
  · exact hyear
  · unfold ofDays
    dsimp only
    rw [hyear, hmonth]
  · unfold ofDays
    dsimp only
    rw [hyear, hmonth]
    unfold toDays
    omega

def withDay (day : ℤ) (h : 1 ≤ day ∧ day ≤ 28) : Date :=
  { date with
    day := day
    day_range := by
      have hlength := monthLength_bounds (leapDay_cases date.year) date.month_range.1 date.month_range.2
      omega }

def firstDayOfMonth : Date := date.withDay 1 (by decide)

def newYear (year : ℤ) : Date where
  year := year
  month := 1
  day := 1
  month_range := by decide
  day_range := by
    have hlength := monthLength_bounds (leapDay_cases year) (le_refl 1) (by decide)
    omega

def firstDayOfNextMonth : Date :=
  if h : date.month = 12 then newYear (date.year + 1)
  else
    { year := date.year
      month := date.month + 1
      day := 1
      month_range := by
        have hrange := date.month_range
        omega
      day_range := by
        have hrange := date.month_range
        have hlength := monthLength_bounds (leapDay_cases date.year) (Nat.le_add_left 1 date.month) (by omega)
        omega }

def firstDayOfPreviousMonth : Date :=
  if h : date.month = 1 then
    { year := date.year - 1
      month := 12
      day := 1
      month_range := by decide
      day_range := by
        have hlength := @monthLength_bounds _ (leapDay_cases (date.year - 1)) 12 (by decide) (le_refl 12)
        omega }
  else
    { year := date.year
      month := date.month - 1
      day := 1
      month_range := by
        have hrange := date.month_range
        omega
      day_range := by
        have hrange := date.month_range
        have hlength := @monthLength_bounds _ (leapDay_cases date.year) (date.month - 1) (by omega) (by omega)
        omega }

/-- The first of January 1970 was a Thursday. -/
def numDaysFromMonday : ℤ := (date.toDays + 3) % 7

def addDays (days : ℤ) : Date := ofDays (date.toDays + days)

@[simp]
theorem addDays_toDays (days : ℤ) : (date.addDays days).toDays = date.toDays + days := toDays_ofDays _

theorem withDay_toDays (day : ℤ) (h : 1 ≤ day ∧ day ≤ 28) :
    (date.withDay day h).toDays = date.toDays + (day - date.day) := by
  unfold toDays withDay
  dsimp only
  omega

theorem newYear_toDays (year : ℤ) : (newYear year).toDays = yearStart year := by
  unfold toDays newYear
  simp only [monthOffset]
  omega

theorem firstDayOfNextMonth_day : date.firstDayOfNextMonth.day = 1 := by
  unfold firstDayOfNextMonth
  split_ifs <;> rfl

theorem firstDayOfNextMonth_toDays :
    date.firstDayOfNextMonth.toDays = date.toDays + (monthLength (leapDay date.year) date.month - date.day + 1) := by
  unfold firstDayOfNextMonth
  split_ifs with h
  · rw [newYear_toDays, yearStart_succ]
    unfold toDays monthLength
    rw [h]
    simp only [monthOffset]
    omega
  · unfold toDays monthLength
    dsimp only
    omega

theorem nextMonth_toDays : date.firstDayOfMonth.firstDayOfNextMonth.toDays =
    date.toDays + (monthLength (leapDay date.year) date.month - date.day + 1) := by
  rw [firstDayOfNextMonth_toDays, firstDayOfMonth, withDay_toDays]
  dsimp only [withDay]
  omega

theorem ofDays_within {days : ℤ} (h : 1 ≤ date.day + days ∧ date.day + days ≤ monthLength (leapDay date.year) date.month) :
    ofDays (date.toDays + days) = { date with day := date.day + days, day_range := h } := by
  have hfurther : ({ date with day := date.day + days, day_range := h } : Date).toDays = date.toDays + days := by
    unfold toDays
    dsimp only
    omega
  rw [← hfurther, ofDays_toDays]

theorem ofDays_further (days : ℤ) (hnonneg : 0 ≤ days)
    (hend : date.day + days ≤ monthLength (leapDay date.year) date.month) :
    (ofDays (date.toDays + days)).day = date.day + days := by
  have hday := date.day_range
  rw [ofDays_within date ⟨by omega, hend⟩]

theorem firstDayOfPreviousMonth_day : date.firstDayOfPreviousMonth.day = 1 := by
  unfold firstDayOfPreviousMonth
  split_ifs <;> rfl

theorem nextMonth_previousMonth (h : date.day = 1) : date.firstDayOfPreviousMonth.firstDayOfNextMonth = date := by
  have hmonth := date.month_range
  unfold firstDayOfPreviousMonth
  split_ifs with hfirst
  · apply ext'
    · exact sub_add_cancel date.year 1
    · exact hfirst.symm
    · exact h.symm
  · unfold firstDayOfNextMonth
    rw [dif_neg (by dsimp only; omega)]
    apply ext'
    · rfl
    · dsimp only
      omega
    · exact h.symm

theorem previousMonth_lt (h : date.day = 1) : date.firstDayOfPreviousMonth.toDays < date.toDays ∧
    date.toDays ≤ date.firstDayOfPreviousMonth.toDays + 31 := by
  have hlength := monthLength_bounds (leapDay_cases date.firstDayOfPreviousMonth.year)
    date.firstDayOfPreviousMonth.month_range.1 date.firstDayOfPreviousMonth.month_range.2
  have hnext := date.firstDayOfPreviousMonth.firstDayOfNextMonth_toDays
  rw [nextMonth_previousMonth date h, firstDayOfPreviousMonth_day] at hnext
  omega

theorem firstDayOfMonth_of_day (h : date.day = 1) : date.firstDayOfMonth = date := ext' rfl rfl h.symm

theorem firstDayOfMonth_before (h : date.day = 1) :
    (ofDays (date.toDays - 1)).firstDayOfMonth = date.firstDayOfPreviousMonth := by
  have hprevious := date.firstDayOfPreviousMonth_day
  have hlength := monthLength_bounds (leapDay_cases date.firstDayOfPreviousMonth.year)
    date.firstDayOfPreviousMonth.month_range.1 date.firstDayOfPreviousMonth.month_range.2
  have hnext := date.firstDayOfPreviousMonth.firstDayOfNextMonth_toDays
  rw [nextMonth_previousMonth date h, hprevious] at hnext
  have hdays : date.toDays - 1 = date.firstDayOfPreviousMonth.toDays +
      (monthLength (leapDay date.firstDayOfPreviousMonth.year) date.firstDayOfPreviousMonth.month - 1) := by
    omega
  rw [hdays, ofDays_within _ (by omega)]
  exact firstDayOfMonth_of_day _ hprevious

theorem year_before (year : ℤ) : (ofDays ((newYear year).toDays - 1)).year = year - 1 := by
  have hlast : yearStart (year - 1) ≤ yearStart year - 1 :=
    Int.le_sub_one_of_lt (yearStart_strictMono (sub_one_lt year))
  rw [newYear_toDays]
  apply yearOf_eq hlast
  rw [sub_add_cancel]
  exact sub_one_lt _

end Date

end Calendar
