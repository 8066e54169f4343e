import Prelay.Calendar
import Prelay.Tiling

namespace Prelay.Stats

open Calendar Tiling

/-- Instants are counted in nanoseconds. -/
def hours (n : ℤ) : ℤ := 3600000000000 * n

def days (n : ℤ) : ℤ := 86400000000000 * n

def beijingOffset : ℤ := hours 8

def beijingDay (instant : ℤ) : ℤ := (instant + beijingOffset) / days 1

def dateNaive (instant : ℤ) : Date := Date.ofDays (beijingDay instant)

def midnight (day : ℤ) : ℤ := days day - beijingOffset

def beijingStartOfDay (date : Date) : ℤ := midnight date.toDays

inductive StatsRange where
  | today | yesterday | thisWeek | lastWeek | thisMonth | lastMonth | thisYear | lastYear | all
  deriving DecidableEq

inductive ModelStatsScope where
  | personal | team
  deriving DecidableEq

structure TimeBounds where
  start : ℤ
  stop : ℤ
  deriving DecidableEq

inductive TimelineGranularity where
  | hour | sixHours | day | halfMonth | month
  deriving DecidableEq

structure TimelineBucket where
  label : String
  bounds : TimeBounds
  deriving DecidableEq

section ranges

def TimeBounds.fromBeijingDates (start stop : Date) : TimeBounds := ⟨beijingStartOfDay start, beijingStartOfDay stop⟩

def StatsRange.bounds (range : StatsRange) (now : ℤ) : Option TimeBounds :=
  let today := dateNaive now
  match range with
  | .today => some (.fromBeijingDates today (today.addDays 1))
  | .yesterday => some (.fromBeijingDates (today.addDays (-1)) today)
  | .thisWeek =>
    let start := today.addDays (-today.numDaysFromMonday)
    some (.fromBeijingDates start (start.addDays 7))
  | .lastWeek =>
    let stop := today.addDays (-today.numDaysFromMonday)
    some (.fromBeijingDates (stop.addDays (-7)) stop)
  | .thisMonth =>
    let start := today.firstDayOfMonth
    some (.fromBeijingDates start start.firstDayOfNextMonth)
  | .lastMonth =>
    let stop := today.firstDayOfMonth
    some (.fromBeijingDates stop.firstDayOfPreviousMonth stop)
  | .thisYear => some (.fromBeijingDates (.newYear today.year) (.newYear (today.year + 1)))
  | .lastYear => some (.fromBeijingDates (.newYear (today.year - 1)) (.newYear today.year))
  | .all => none

def StatsRange.timelineGranularity : StatsRange → TimelineGranularity
  | .today | .yesterday => .hour
  | .thisWeek | .lastWeek => .sixHours
  | .thisMonth | .lastMonth => .day
  | .thisYear | .lastYear => .halfMonth
  | .all => .month

def allTimelineBounds (earliest now : ℤ) : TimeBounds :=
  .fromBeijingDates (dateNaive earliest).firstDayOfMonth (dateNaive now).firstDayOfMonth.firstDayOfNextMonth

def allDailyBounds (earliest now : ℤ) : TimeBounds :=
  .fromBeijingDates (dateNaive earliest) ((dateNaive now).addDays 1)

/-- The bounds of a timeline; without activities there are none for the whole history. -/
def timelineBounds (range : StatsRange) (granularity : TimelineGranularity) (earliest : Option ℤ) (now : ℤ) :
    Option TimeBounds :=
  match range.bounds now with
  | some bounds => some bounds
  | none => earliest.map (fun earliest =>
    match granularity with
    | .day => allDailyBounds earliest now
    | _ => allTimelineBounds earliest now)

end ranges

section buckets

def nextStart (granularity : TimelineGranularity) (start : ℤ) : ℤ :=
  match granularity with
  | .hour => start + hours 1
  | .sixHours => start + hours 6
  | .day => start + days 1
  | .halfMonth =>
    let date := dateNaive start
    beijingStartOfDay
      (if date.day ≤ 15 then date.withDay 16 (by decide) else date.firstDayOfMonth.firstDayOfNextMonth)
  | .month => beijingStartOfDay (dateNaive start).firstDayOfMonth.firstDayOfNextMonth

def digits (width n : ℕ) : String := String.ofList ((Nat.toDigits 10 n).leftpad width '0')

def formatYear (year : ℤ) : String :=
  if 0 ≤ year ∧ year < 10000 then digits 4 year.toNat
  else (if year < 0 then "-" else "+") ++ digits 4 year.natAbs

def formatDate (date : Date) : String :=
  formatYear date.year ++ "-" ++ digits 2 date.month ++ "-" ++ digits 2 date.day.toNat

def formatTime (instant : ℤ) : String :=
  let second := (instant + beijingOffset) % days 1 / 1000000000
  digits 2 (second / 3600).toNat ++ ":" ++ digits 2 (second / 60 % 60).toNat ++ ":" ++ digits 2 (second % 60).toNat

def bucketLabel (granularity : TimelineGranularity) (start : ℤ) : String :=
  match granularity with
  | .hour | .sixHours => formatDate (dateNaive start) ++ " " ++ formatTime start
  | .day | .halfMonth | .month => formatDate (dateNaive start)

theorem beijingDay_midnight (day : ℤ) : beijingDay (midnight day) = day := by
  unfold beijingDay midnight days
  omega

theorem midnight_beijingDay (instant : ℤ) :
    midnight (beijingDay instant) ≤ instant ∧ instant < midnight (beijingDay instant + 1) := by
  unfold midnight beijingDay days
  omega

theorem midnight_le {day day' : ℤ} : midnight day ≤ midnight day' ↔ day ≤ day' := by
  unfold midnight days
  omega

theorem midnight_lt {day day' : ℤ} : midnight day < midnight day' ↔ day < day' := by
  unfold midnight days
  omega

theorem dateNaive_toDays (instant : ℤ) : (dateNaive instant).toDays = beijingDay instant := Date.toDays_ofDays _

theorem dateNaive_midnight (date : Date) : dateNaive (beijingStartOfDay date) = date := by
  unfold dateNaive beijingStartOfDay
  rw [beijingDay_midnight, Date.ofDays_toDays]

theorem lt_startOfDay {instant : ℤ} {date : Date} (h : beijingDay instant < date.toDays) :
    instant < beijingStartOfDay date := by
  apply (midnight_beijingDay instant).2.trans_le
  apply midnight_le.mpr
  omega

theorem lt_nextStart (granularity : TimelineGranularity) (start : ℤ) : start < nextStart granularity start := by
  have htoday := dateNaive_toDays start
  have hrange := (dateNaive start).day_range
  cases granularity with
  | hour =>
    dsimp only [nextStart, hours]
    omega
  | sixHours =>
    dsimp only [nextStart, hours]
    omega
  | day =>
    dsimp only [nextStart, days]
    omega
  | halfMonth =>
    apply lt_startOfDay
    split_ifs with hday
    · rw [Date.withDay_toDays]
      omega
    · rw [Date.nextMonth_toDays]
      omega
  | month =>
    apply lt_startOfDay
    rw [Date.nextMonth_toDays]
    omega

def timelineBuckets (bounds : TimeBounds) (granularity : TimelineGranularity) : List TimelineBucket :=
  if bounds.start < bounds.stop then
    ⟨bucketLabel granularity bounds.start, ⟨bounds.start, nextStart granularity bounds.start⟩⟩ ::
      timelineBuckets ⟨nextStart granularity bounds.start, bounds.stop⟩ granularity
  else []
termination_by (bounds.stop - bounds.start).toNat
decreasing_by
  have := lt_nextStart granularity bounds.start
  omega

def TimelineBucket.tile (bucket : TimelineBucket) : ℤ × ℤ := (bucket.bounds.start, bucket.bounds.stop)

theorem timelineBuckets_tiles {granularity : TimelineGranularity} {grid : Set ℤ}
    (hsteps : Steps (nextStart granularity) grid) {bounds : TimeBounds} (hstart : bounds.start ∈ grid)
    (hstop : bounds.stop ∈ grid) (hle : bounds.start ≤ bounds.stop) :
    Tiles bounds.start bounds.stop ((timelineBuckets bounds granularity).map TimelineBucket.tile) := by
  induction bounds using timelineBuckets.induct granularity with
  | case1 bounds hlt ih =>
    rw [timelineBuckets, if_pos hlt, List.map_cons]
    apply Tiles.cons (lt_nextStart granularity bounds.start)
    exact ih (hsteps.mem _ hstart) hstop (hsteps.first _ hstart _ hstop hlt)
  | case2 bounds hnot =>
    rw [timelineBuckets, if_neg hnot, le_antisymm hle (not_lt.mp hnot)]
    exact Tiles.nil _

end buckets

section grids

def midnights (P : Date → Prop) : Set ℤ := {x | ∃ date, P date ∧ x = beijingStartOfDay date}

theorem steps_month : Steps (nextStart .month) (midnights (fun date => date.day = 1)) where
  lt := lt_nextStart .month
  mem x _ := ⟨_, Date.firstDayOfNextMonth_day _, rfl⟩
  first := by
    rintro x ⟨date, hdate, rfl⟩ y ⟨other, hother, rfl⟩ hlt
    have hfurther := date.ofDays_further (other.toDays - date.toDays)
    rw [add_sub_cancel, Date.ofDays_toDays] at hfurther
    have hlater := midnight_lt.mp hlt
    apply midnight_le.mpr
    rw [dateNaive_midnight, Date.nextMonth_toDays]
    omega

theorem steps_halfMonth : Steps (nextStart .halfMonth) (midnights (fun date => date.day = 1 ∨ date.day = 16)) where
  lt := lt_nextStart .halfMonth
  mem x _ := by
    refine ⟨_, ?_, rfl⟩
    split_ifs
    · exact .inr rfl
    · exact .inl (Date.firstDayOfNextMonth_day _)
  first := by
    rintro x ⟨date, hdate, rfl⟩ y ⟨other, hother, rfl⟩ hlt
    have hfurther := date.ofDays_further (other.toDays - date.toDays)
    rw [add_sub_cancel, Date.ofDays_toDays] at hfurther
    have hlater := midnight_lt.mp hlt
    have hlength := monthLength_bounds (leapDay_cases date.year) date.month_range.1 date.month_range.2
    apply midnight_le.mpr
    rw [dateNaive_midnight]
    split_ifs with hday
    · rw [Date.withDay_toDays]
      omega
    · rw [Date.nextMonth_toDays]
      omega

theorem exists_dates {range : StatsRange} {granularity : TimelineGranularity} {earliest : Option ℤ} {now : ℤ}
    {bounds : TimeBounds} (hearliest : ∀ instant ∈ earliest, instant ≤ now)
    (h : timelineBounds range granularity earliest now = some bounds) :
    ∃ start stop : Date, bounds = .fromBeijingDates start stop ∧ start.toDays < stop.toDays := by
  have hyears : ∀ year : ℤ, (Date.newYear year).toDays < (Date.newYear (year + 1)).toDays := by
    intro year
    rw [Date.newYear_toDays, Date.newYear_toDays]
    exact yearStart_strictMono (lt_add_one year)
  cases range with
  | all =>
    obtain ⟨instant, hinstant, rfl⟩ := Option.map_eq_some_iff.mp h
    have hday : beijingDay instant ≤ beijingDay now :=
      Int.ediv_le_ediv (by decide) (add_le_add_left (hearliest instant hinstant) _)
    have hfirst := dateNaive_toDays instant
    have hnow := dateNaive_toDays now
    have hmonth := (dateNaive now).day_range
    have hbefore := (dateNaive instant).day_range
    cases granularity with
    | day =>
      refine ⟨_, _, rfl, ?_⟩
      rw [Date.addDays_toDays]
      omega
    | _ =>
      refine ⟨_, _, rfl, ?_⟩
      rw [Date.nextMonth_toDays, Date.firstDayOfMonth, Date.withDay_toDays]
      omega
  | today | yesterday | thisWeek | lastWeek =>
    obtain rfl := Option.some.inj h
    refine ⟨_, _, rfl, ?_⟩
    simp only [Date.addDays_toDays]
    omega
  | thisMonth =>
    obtain rfl := Option.some.inj h
    have hday := (dateNaive now).day_range
    refine ⟨_, _, rfl, ?_⟩
    rw [Date.nextMonth_toDays, Date.firstDayOfMonth, Date.withDay_toDays]
    omega
  | lastMonth =>
    obtain rfl := Option.some.inj h
    refine ⟨_, _, rfl, ?_⟩
    exact (Date.previousMonth_lt _ rfl).1
  | thisYear =>
    obtain rfl := Option.some.inj h
    exact ⟨_, _, rfl, hyears _⟩
  | lastYear =>
    obtain rfl := Option.some.inj h
    refine ⟨_, _, rfl, ?_⟩
    have hbefore := hyears ((dateNaive now).year - 1)
    rwa [sub_add_cancel] at hbefore

theorem bounds_days {range : StatsRange} {now : ℤ} {bounds : TimeBounds} (h : range.bounds now = some bounds) :
    bounds.stop ≤ bounds.start + days 366 := by
  have hspan {start stop : Date} (hle : stop.toDays ≤ start.toDays + 366) :
      beijingStartOfDay stop ≤ beijingStartOfDay start + days 366 := by
    unfold beijingStartOfDay midnight days
    omega
  have hyear (year : ℤ) : (Date.newYear (year + 1)).toDays ≤ (Date.newYear year).toDays + 366 := by
    rw [Date.newYear_toDays, Date.newYear_toDays, yearStart_succ]
    have := leapDay_cases year
    omega
  cases range with
  | all => cases h
  | today | yesterday | thisWeek | lastWeek =>
    obtain rfl := Option.some.inj h
    apply hspan
    simp only [Date.addDays_toDays]
    omega
  | thisMonth =>
    obtain rfl := Option.some.inj h
    have hlength := monthLength_bounds (leapDay_cases (dateNaive now).year) (dateNaive now).month_range.1
      (dateNaive now).month_range.2
    apply hspan
    rw [Date.nextMonth_toDays, Date.firstDayOfMonth, Date.withDay_toDays]
    omega
  | lastMonth =>
    obtain rfl := Option.some.inj h
    apply hspan
    exact (Date.previousMonth_lt _ rfl).2.trans (by omega)
  | thisYear =>
    obtain rfl := Option.some.inj h
    exact hspan (hyear _)
  | lastYear =>
    obtain rfl := Option.some.inj h
    apply hspan
    have hbefore := hyear ((dateNaive now).year - 1)
    rwa [sub_add_cancel] at hbefore

theorem tiles_of_dvd {granularity : TimelineGranularity} (step : ℤ) (hstep : 0 < step)
    (hnext : nextStart granularity = (· + step)) {bounds : TimeBounds} (hlt : bounds.start < bounds.stop)
    (hdvd : step ∣ bounds.stop - bounds.start) :
    Tiles bounds.start bounds.stop ((timelineBuckets bounds granularity).map TimelineBucket.tile) := by
  have hsteps := steps_add hstep bounds.start
  rw [← hnext] at hsteps
  refine timelineBuckets_tiles hsteps ?_ hdvd hlt.le
  change step ∣ bounds.start - bounds.start
  rw [sub_self]
  exact dvd_zero step

theorem tiles_day {start stop : Date} (hlt : start.toDays < stop.toDays) :
    Tiles (beijingStartOfDay start) (beijingStartOfDay stop)
      ((timelineBuckets (.fromBeijingDates start stop) .day).map TimelineBucket.tile) := by
  have hbounds : (TimeBounds.fromBeijingDates start stop).start < (TimeBounds.fromBeijingDates start stop).stop :=
    midnight_lt.mpr hlt
  refine tiles_of_dvd (days 1) (by decide) rfl hbounds ⟨stop.toDays - start.toDays, ?_⟩
  unfold TimeBounds.fromBeijingDates beijingStartOfDay midnight days
  dsimp only
  omega

end grids

theorem tiles_daily {range : StatsRange} {earliest : Option ℤ} {now : ℤ} (hearliest : ∀ instant ∈ earliest, instant ≤ now)
    {bounds : TimeBounds} (h : timelineBounds range .day earliest now = some bounds) :
    Tiles bounds.start bounds.stop ((timelineBuckets bounds .day).map TimelineBucket.tile) := by
  obtain ⟨start, stop, rfl, hlt⟩ := exists_dates hearliest h
  exact tiles_day hlt

theorem tiles_granularity {range : StatsRange} {earliest : Option ℤ} {now : ℤ}
    (hearliest : ∀ instant ∈ earliest, instant ≤ now) {bounds : TimeBounds}
    (h : timelineBounds range range.timelineGranularity earliest now = some bounds) :
    Tiles bounds.start bounds.stop ((timelineBuckets bounds range.timelineGranularity).map TimelineBucket.tile) := by
  obtain ⟨start, stop, rfl, hlt⟩ := exists_dates hearliest h
  cases range with
  | today | yesterday =>
    refine tiles_of_dvd (hours 1) (by decide) rfl (midnight_lt.mpr hlt) ⟨24 * (stop.toDays - start.toDays), ?_⟩
    unfold TimeBounds.fromBeijingDates beijingStartOfDay midnight days hours
    dsimp only
    omega
  | thisWeek | lastWeek =>
    refine tiles_of_dvd (hours 6) (by decide) rfl (midnight_lt.mpr hlt) ⟨4 * (stop.toDays - start.toDays), ?_⟩
    unfold TimeBounds.fromBeijingDates beijingStartOfDay midnight days hours
    dsimp only
    omega
  | thisMonth | lastMonth => exact tiles_day hlt
  | thisYear =>
    obtain hbounds := Option.some.inj h
    rw [← hbounds]
    exact timelineBuckets_tiles steps_halfMonth ⟨_, .inl rfl, rfl⟩ ⟨_, .inl rfl, rfl⟩
      (hbounds ▸ (midnight_lt.mpr hlt).le)
  | lastYear =>
    obtain hbounds := Option.some.inj h
    rw [← hbounds]
    exact timelineBuckets_tiles steps_halfMonth ⟨_, .inl rfl, rfl⟩ ⟨_, .inl rfl, rfl⟩
      (hbounds ▸ (midnight_lt.mpr hlt).le)
  | all =>
    obtain ⟨instant, hinstant, hbounds⟩ := Option.map_eq_some_iff.mp h
    rw [← hbounds]
    exact timelineBuckets_tiles steps_month ⟨_, rfl, rfl⟩ ⟨_, Date.firstDayOfNextMonth_day _, rfl⟩
      (hbounds ▸ (midnight_lt.mpr hlt).le)

/-- The buckets of a timeline are adjacent, none is empty, and they make up its bounds. -/
theorem timeline_tiles {range : StatsRange} {granularity : TimelineGranularity}
    (hgranularity : granularity = range.timelineGranularity ∨ granularity = .day) {earliest : Option ℤ} {now : ℤ}
    (hearliest : ∀ instant ∈ earliest, instant ≤ now) {bounds : TimeBounds}
    (h : timelineBounds range granularity earliest now = some bounds) :
    Tiles bounds.start bounds.stop ((timelineBuckets bounds granularity).map TimelineBucket.tile) := by
  rcases hgranularity with rfl | rfl
  · exact tiles_granularity hearliest h
  · exact tiles_daily hearliest h

theorem timeline_tiles_all : ∃ bounds, timelineBounds .all .month (some 0) 1767225600000000000 = some bounds ∧
    Tiles bounds.start bounds.stop ((timelineBuckets bounds .month).map TimelineBucket.tile) := by
  have hbounds : timelineBounds .all .month (some 0) 1767225600000000000 =
      some (allTimelineBounds 0 1767225600000000000) := rfl
  have hearliest : ∀ instant ∈ some (0 : ℤ), instant ≤ 1767225600000000000 := by
    intro instant hinstant
    rw [← Option.some.inj hinstant]
    decide
  exact ⟨_, hbounds, timeline_tiles (.inl rfl) hearliest hbounds⟩

section adjoining

/-- The ranges that end where another one starts. -/
inductive Precedes : StatsRange → StatsRange → Prop
  | day : Precedes .yesterday .today
  | week : Precedes .lastWeek .thisWeek
  | month : Precedes .lastMonth .thisMonth
  | year : Precedes .lastYear .thisYear

theorem beijingDay_before (day : ℤ) : beijingDay (midnight day - 1) = day - 1 := by
  unfold beijingDay midnight days
  omega

theorem dateNaive_before (date : Date) : dateNaive (beijingStartOfDay date - 1) = Date.ofDays (date.toDays - 1) := by
  unfold dateNaive beijingStartOfDay
  rw [beijingDay_before]

theorem before_toDays (day : ℤ) : (dateNaive (midnight day - 1)).toDays = day - 1 := by
  rw [dateNaive_toDays, beijingDay_before]

theorem now_within {start stop : Date} {now : ℤ} (hstart : start.toDays ≤ beijingDay now)
    (hstop : beijingDay now < stop.toDays) : beijingStartOfDay start ≤ now ∧ now < beijingStartOfDay stop := by
  obtain ⟨hlow, hhigh⟩ := midnight_beijingDay now
  refine ⟨(midnight_le.mpr hstart).trans hlow, hhigh.trans_le ?_⟩
  apply midnight_le.mpr
  omega

theorem range_around {last this : StatsRange} (h : Precedes last this) (now : ℤ) :
    ∃ bounds before, this.bounds now = some bounds ∧ last.bounds now = some before ∧ bounds.start ≤ now ∧
      now < bounds.stop ∧ before.stop = bounds.start := by
  have hnow := dateNaive_toDays now
  cases h with
  | day =>
    have hwithin : beijingStartOfDay (dateNaive now) ≤ now ∧ now < beijingStartOfDay ((dateNaive now).addDays 1) := by
      apply now_within
      · omega
      · rw [Date.addDays_toDays]
        omega
    exact ⟨_, _, rfl, rfl, hwithin.1, hwithin.2, rfl⟩
  | week =>
    have hwithin : beijingStartOfDay ((dateNaive now).addDays (-(dateNaive now).numDaysFromMonday)) ≤ now ∧
        now < beijingStartOfDay (((dateNaive now).addDays (-(dateNaive now).numDaysFromMonday)).addDays 7) := by
      unfold Date.numDaysFromMonday
      apply now_within
      · rw [Date.addDays_toDays]
        omega
      · rw [Date.addDays_toDays, Date.addDays_toDays]
        omega
    exact ⟨_, _, rfl, rfl, hwithin.1, hwithin.2, rfl⟩
  | month =>
    have hday := (dateNaive now).day_range
    have hwithin : beijingStartOfDay (dateNaive now).firstDayOfMonth ≤ now ∧
        now < beijingStartOfDay (dateNaive now).firstDayOfMonth.firstDayOfNextMonth := by
      apply now_within
      · rw [Date.firstDayOfMonth, Date.withDay_toDays]
        omega
      · rw [Date.nextMonth_toDays]
        omega
    exact ⟨_, _, rfl, rfl, hwithin.1, hwithin.2, rfl⟩
  | year =>
    have hwithin : beijingStartOfDay (.newYear (dateNaive now).year) ≤ now ∧
        now < beijingStartOfDay (.newYear ((dateNaive now).year + 1)) := by
      obtain ⟨hlow, hhigh⟩ := (dateNaive now).toDays_year
      apply now_within
      · rw [Date.newYear_toDays]
        omega
      · rw [Date.newYear_toDays]
        omega
    exact ⟨_, _, rfl, rfl, hwithin.1, hwithin.2, rfl⟩

theorem range_before {last this : StatsRange} (h : Precedes last this) {now : ℤ} {bounds : TimeBounds}
    (hbounds : this.bounds now = some bounds) : this.bounds (bounds.start - 1) = last.bounds now := by
  cases h with
  | day =>
    obtain rfl := Option.some.inj hbounds
    apply congrArg some
    change TimeBounds.fromBeijingDates (dateNaive (beijingStartOfDay (dateNaive now) - 1))
      ((dateNaive (beijingStartOfDay (dateNaive now) - 1)).addDays 1) = _
    unfold TimeBounds.fromBeijingDates beijingStartOfDay
    simp only [Date.addDays_toDays, before_toDays, sub_add_cancel]
    rfl
  | week =>
    obtain ⟨start, hstart⟩ : ∃ start, start = (dateNaive now).addDays (-(dateNaive now).numDaysFromMonday) := ⟨_, rfl⟩
    have hdays : start.toDays = (dateNaive now).toDays - ((dateNaive now).toDays + 3) % 7 := by
      rw [hstart, Date.addDays_toDays]
      rfl
    obtain rfl : TimeBounds.fromBeijingDates start (start.addDays 7) = bounds := by
      rw [hstart]
      exact Option.some.inj hbounds
    have hlast : StatsRange.bounds .lastWeek now = some (.fromBeijingDates (start.addDays (-7)) start) := by
      rw [hstart]
      rfl
    rw [hlast]
    apply congrArg some
    have hmonday : ((start.toDays - 1 + 3) % 7 : ℤ) = 6 := by
      omega
    unfold TimeBounds.fromBeijingDates beijingStartOfDay Date.numDaysFromMonday
    simp only [Date.addDays_toDays, before_toDays, hmonday]
    apply congrArg₂ TimeBounds.mk
    · apply congrArg midnight
      omega
    · apply congrArg midnight
      omega
  | month =>
    obtain rfl := Option.some.inj hbounds
    apply congrArg some
    change TimeBounds.fromBeijingDates (dateNaive (beijingStartOfDay (dateNaive now).firstDayOfMonth - 1)).firstDayOfMonth
      (dateNaive (beijingStartOfDay (dateNaive now).firstDayOfMonth - 1)).firstDayOfMonth.firstDayOfNextMonth = _
    rw [dateNaive_before, Date.firstDayOfMonth_before _ rfl, Date.nextMonth_previousMonth _ rfl]
  | year =>
    obtain rfl := Option.some.inj hbounds
    apply congrArg some
    change TimeBounds.fromBeijingDates (.newYear (dateNaive (beijingStartOfDay (.newYear (dateNaive now).year) - 1)).year)
      (.newYear ((dateNaive (beijingStartOfDay (.newYear (dateNaive now).year) - 1)).year + 1)) = _
    rw [dateNaive_before, Date.year_before, sub_add_cancel]

/-- A range that precedes another is the range of the instant before the other one starts. -/
theorem last_range {last this : StatsRange} (h : Precedes last this) (now : ℤ) :
    ∃ bounds before, this.bounds now = some bounds ∧ last.bounds now = some before ∧
      bounds.start ≤ now ∧ now < bounds.stop ∧ before.stop = bounds.start ∧
      this.bounds (bounds.start - 1) = some before := by
  obtain ⟨bounds, before, hbounds, hbefore, hstart, hstop, hmeet⟩ := range_around h now
  refine ⟨bounds, before, hbounds, hbefore, hstart, hstop, hmeet, ?_⟩
  rw [range_before h hbounds]
  exact hbefore

/-- The first instant of March 2024 in Beijing. -/
theorem last_range_month : ∃ bounds before, StatsRange.bounds .thisMonth 1709222400000000000 = some bounds ∧
    StatsRange.bounds .lastMonth 1709222400000000000 = some before ∧
    bounds.start ≤ 1709222400000000000 ∧ 1709222400000000000 < bounds.stop ∧ before.stop = bounds.start ∧
    StatsRange.bounds .thisMonth (bounds.start - 1) = some before :=
  last_range .month 1709222400000000000

end adjoining

end Prelay.Stats
