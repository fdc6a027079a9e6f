import EastApi.Lib.GoBase
import Mathlib.Data.Int.Order.Basic
import Mathlib.Order.Monotone.Basic

/-! Go's `time.Time` at a resolution of seconds: the calendar of `Date` and `AddDate`, and the wall
clock of a time zone.  Instants are Unix seconds.  `Location.le_addDate` says that a step of at
least one month in the calendar does not go back in time. -/

namespace Go

open Int

/-- The days from 1 January 1970 to the first day of a month.  Months are counted from January of
the year 0; the years inside start in March, so that the leap day is the last day of one. -/
def monthStart (month : Int) : Int :=
  let year := (month - 2) / 12
  365 * year + year / 4 - year / 100 + year / 400 + (153 * ((month - 2) % 12) + 2) / 5 - 719468

theorem monthStart_succ (month : Int) : monthStart month + 28 ≤ monthStart (month + 1) ∧
    monthStart (month + 1) ≤ monthStart month + 31 := by
  simp only [monthStart]
  by_cases last : (month - 2) % 12 = 11
  · have year : (month + 1 - 2) / 12 = (month - 2) / 12 + 1 := by omega
    have first : (month + 1 - 2) % 12 = 0 := by omega
    rw [year, first, last]
    omega
  · have year : (month + 1 - 2) / 12 = (month - 2) / 12 := by omega
    have next : (month + 1 - 2) % 12 = (month - 2) % 12 + 1 := by omega
    rw [year, next]
    omega

theorem monthStart_add (month : Int) : ∀ n : Nat,
    monthStart month + 28 * n ≤ monthStart (month + n) ∧
      monthStart (month + n) ≤ monthStart month + 31 * n
  | 0 => by simp
  | n + 1 => by
    have before := monthStart_add month n
    have step := monthStart_succ (month + n)
    rw [show month + ((n + 1 : Nat) : Int) = month + n + 1 by omega]
    omega

theorem monthStart_le (later : month ≤ next) : monthStart month ≤ monthStart next :=
  monotone_int_of_le_succ (fun month => by
    have := monthStart_succ month
    omega) later

/-- A date as a month counted from January of the year 0, and a day of that month from 1. -/
structure Civil where
  (monthIndex day : Int)
deriving DecidableEq, Repr

def Civil.year (c : Civil) : Int := c.monthIndex / 12

def Civil.month (c : Civil) : Int := c.monthIndex % 12 + 1

def civil (days : Int) : Civil :=
  let d := days + 719468
  let n400 := d / 146097
  let d := d % 146097
  let n100 := min (d / 36524) 3
  let d := d - 36524 * n100
  let n4 := d / 1461
  let d := d % 1461
  let n1 := min (d / 365) 3
  let d := d - 365 * n1
  let month := (5 * d + 2) / 153
  { monthIndex := 12 * (400 * n400 + 100 * n100 + 4 * n4 + n1) + month + 2
    day := d - (153 * month + 2) / 5 + 1 }

def dayNumber (year month day : Int) : Int := monthStart (12 * year + (month - 1)) + (day - 1)

theorem Civil.dayNumber_add (c : Civil) (years months days : Int) :
    dayNumber (c.year + years) (c.month + months) (c.day + days) =
      monthStart (c.monthIndex + (12 * years + months)) + (c.day - 1) + days := by
  have month : 12 * (c.year + years) + (c.month + months - 1) =
      c.monthIndex + (12 * years + months) := by
    simp only [year, Civil.month]
    omega
  rw [dayNumber, month]
  omega

theorem monthStart_cycles (h100 : 0 ≤ n100 ∧ n100 ≤ 3) (h4 : 0 ≤ n4 ∧ n4 ≤ 24)
    (h1 : 0 ≤ n1 ∧ n1 ≤ 3) (hm : 0 ≤ month ∧ month ≤ 11) :
    monthStart (12 * (400 * n400 + 100 * n100 + 4 * n4 + n1) + month + 2) =
      146097 * n400 + 36524 * n100 + 1461 * n4 + 365 * n1 + (153 * month + 2) / 5 - 719468 := by
  simp only [monthStart]
  generalize hy : 400 * n400 + 100 * n100 + 4 * n4 + n1 = y
  have year : (12 * y + month + 2 - 2) / 12 = y := by omega
  have rest : (12 * y + month + 2 - 2) % 12 = month := by omega
  have y4 : y / 4 = 100 * n400 + 25 * n100 + n4 := by omega
  have y100 : y / 100 = 4 * n400 + n100 := by omega
  have y400 : y / 400 = n400 := by omega
  rw [year, rest, y4, y100, y400]
  omega

theorem civil_cycles (days : Int) : ∃ n400 n100 n4 n1 month day : Int,
    (0 ≤ n100 ∧ n100 ≤ 3) ∧ (0 ≤ n4 ∧ n4 ≤ 24) ∧ (0 ≤ n1 ∧ n1 ≤ 3) ∧ (0 ≤ month ∧ month ≤ 11) ∧
      (0 ≤ day ∧ day ≤ 365 ∧ month = (5 * day + 2) / 153) ∧
      ((day < 365 ∨ n1 = 3) ∧ (1461 * n4 + 365 * n1 + day < 36524 ∨ n100 = 3)) ∧
      days + 719468 = 146097 * n400 + 36524 * n100 + 1461 * n4 + 365 * n1 + day ∧
      civil days = ⟨12 * (400 * n400 + 100 * n100 + 4 * n4 + n1) + month + 2,
        day - (153 * month + 2) / 5 + 1⟩ := by
  refine ⟨_, _, _, _, _, _, ?_, ?_, ?_, ?_, ⟨?_, ?_, rfl⟩, ?_, ?_, rfl⟩ <;> omega

theorem monthStart_civil (days : Int) :
    monthStart (civil days).monthIndex + ((civil days).day - 1) = days := by
  obtain ⟨n400, n100, n4, n1, month, day, b100, b4, b1, hm, -, -, split, eq⟩ := civil_cycles days
  rw [eq, monthStart_cycles b100 b4 b1 hm]
  dsimp only
  omega

theorem civil_day (days : Int) :
    1 ≤ (civil days).day ∧ days < monthStart ((civil days).monthIndex + 1) := by
  obtain ⟨n400, n100, n4, n1, month, day, b100, b4, b1, hm, _, leap, split, eq⟩ :=
    civil_cycles days
  rw [eq]
  refine ⟨by dsimp only; omega, ?_⟩
  by_cases last : month = 11
  · subst last
    simp only [monthStart]
    generalize hy : 400 * n400 + 100 * n100 + 4 * n4 + n1 = y
    have year : (12 * y + 11 + 2 + 1 - 2) / 12 = y + 1 := by omega
    have rest : (12 * y + 11 + 2 + 1 - 2) % 12 = 0 := by omega
    rw [year, rest]
    have y4 : (y + 1) / 4 = 100 * n400 + 25 * n100 + n4 + (n1 + 1) / 4 := by omega
    have y100 : (y + 1) / 100 = 4 * n400 + n100 + (4 * n4 + n1 + 1) / 100 := by omega
    have y400 : (y + 1) / 400 = n400 + (100 * n100 + 4 * n4 + n1 + 1) / 400 := by omega
    rw [y4, y100, y400]
    -- The years of a cycle have 365 days but the last of four, and of four centuries.
    rcases Int.lt_or_eq_of_le b1.2 with short | rfl
    · omega
    rcases Int.lt_or_eq_of_le b4.2 with short | rfl
    · omega
    rcases Int.lt_or_eq_of_le b100.2 with short | rfl <;> omega
  · dsimp only
    rw [show 12 * (400 * n400 + 100 * n100 + 4 * n4 + n1) + month + 2 + 1 =
      12 * (400 * n400 + 100 * n100 + 4 * n4 + n1) + (month + 1) + 2 by omega,
      monthStart_cycles b100 b4 b1 (by omega)]
    omega

theorem civil_monthStart (month : Int) : civil (monthStart month) = ⟨month, 1⟩ := by
  obtain ⟨first, before⟩ := civil_day (monthStart month)
  have here := monthStart_civil (monthStart month)
  have same : (civil (monthStart month)).monthIndex = month := by
    rcases Int.lt_trichotomy (civil (monthStart month)).monthIndex month with less | same | more
    · have := monthStart_le (show (civil (monthStart month)).monthIndex + 1 ≤ month by omega)
      omega
    · exact same
    · have := monthStart_succ month
      have := monthStart_le (show month + 1 ≤ _ from more)
      omega
  rw [same] at here
  have day : (civil (monthStart month)).day = 1 := by omega
  cases hc : civil (monthStart month) with
  | mk m d => simp_all

theorem monthStart_next_le (start : (civil first).day = 1) (later : day < first) :
    monthStart ((civil day).monthIndex + 1) ≤ first := by
  have here := monthStart_civil day
  have there := monthStart_civil first
  have inside := (civil_day day).1
  rcases Int.lt_or_le (civil day).monthIndex (civil first).monthIndex with less | more
  · have := monthStart_le (show (civil day).monthIndex + 1 ≤ (civil first).monthIndex by omega)
    omega
  · have := monthStart_le more
    omega

example : civil 19782 = ⟨12 * 2024 + 1, 29⟩ := by decide

/-- `Time.Add` with a product of `time.Duration`s, whose nanoseconds wrap at 64 bits. -/
def addDuration (t nanoseconds : Int) : Int := t + wrap64 nanoseconds / 1000000000

theorem le_addDuration (forward : 0 ≤ nanoseconds) (fits : nanoseconds < 2 ^ 63) :
    t ≤ addDuration t nanoseconds := by
  rw [addDuration, wrap64_of_fits (by omega) fits]
  omega

/-- A time zone: the seconds that its wall clock is ahead of UTC at an instant, at most a day. -/
structure Location where
  offset : Int → Int
  bounded : ∀ t, -86400 ≤ offset t ∧ offset t ≤ 86400

def utc : Location := ⟨fun _ => 0, fun _ => by omega⟩

namespace Location

variable (loc : Location)

def wall (t : Int) : Int := t + loc.offset t

def unix (wall : Int) : Int :=
  let offset := loc.offset wall
  if offset ≠ 0 then wall - loc.offset (wall - offset) else wall

def date (year month day clock : Int) : Int := loc.unix (dayNumber year month day * 86400 + clock)

def civil (t : Int) : Civil := Go.civil (loc.wall t / 86400)

def addDate (t years months days : Int) : Int :=
  let c := loc.civil t
  loc.date (c.year + years) (c.month + months) (c.day + days) (loc.wall t % 86400)

def weekday (t : Int) : Int := (loc.wall t / 86400 + 4) % 7

theorem unix_ge (wall : Int) : wall - 86400 ≤ loc.unix wall := by
  simp only [unix]
  have bound := loc.bounded (wall - loc.offset wall)
  split <;> omega

theorem wall_ge (t : Int) : t - 86400 ≤ loc.wall t := by
  have bound := loc.bounded t
  simp only [wall]
  omega

theorem le_addDate (t years months : Int) (forward : 1 ≤ 12 * years + months) :
    t ≤ loc.addDate t years months 0 := by
  obtain ⟨n, hn⟩ : ∃ n : Nat, 12 * years + months = (n + 1 : Nat) :=
    ⟨(12 * years + months - 1).toNat, by omega⟩
  have here := monthStart_civil (loc.wall t / 86400)
  have later := monthStart_add (Go.civil (loc.wall t / 86400)).monthIndex (n + 1)
  have behind := loc.wall_ge t
  simp only [addDate, date, civil, Civil.dayNumber_add, hn]
  refine le_trans ?_ (loc.unix_ge _)
  omega

/-- No change of the clocks skips a midnight or goes back over one.  It does not hold of a zone that
puts its clocks forward at 00:00. -/
structure Midnights : Prop where
  exist : ∀ day, loc.wall (loc.unix (day * 86400)) = day * 86400
  later : ∀ t day, loc.wall t < day * 86400 → t < loc.unix (day * 86400)

def Fixed (seconds : Int) : Prop := ∀ t, loc.offset t = seconds

/-- West of Greenwich the clocks go forward by `gap` at the instant `change`, which would be 00:00
of `day`, after two days with one offset.  Nothing is said of the zone at other times. -/
structure SkipsMidnight (change day gap : Int) : Prop where
  forward : 0 < gap ∧ gap ≤ 86400
  west : day * 86400 < change
  before : ∀ t, change - 172800 ≤ t → t < change → loc.offset t = day * 86400 - change
  after : loc.offset change = day * 86400 - change + gap

variable {loc}

theorem Fixed.wall (h : loc.Fixed seconds) (t : Int) : loc.wall t = t + seconds := by
  rw [Location.wall, h t]

theorem Fixed.unix (h : loc.Fixed seconds) (wall : Int) : loc.unix wall = wall - seconds := by
  simp only [Location.unix, h wall, h (wall - seconds)]
  split <;> omega

theorem Fixed.midnights (h : loc.Fixed seconds) : loc.Midnights where
  exist day := by
    rw [h.wall, h.unix]
    omega
  later t day before := by
    rw [h.wall] at before
    rw [h.unix]
    omega

theorem utc_fixed : utc.Fixed 0 := fun _ => rfl

theorem date_civil (c : Civil) (clock : Int) :
    loc.date c.year c.month c.day clock =
      loc.unix ((monthStart c.monthIndex + (c.day - 1)) * 86400 + clock) := by
  have month : 12 * c.year + (c.month - 1) = c.monthIndex := by
    simp only [Civil.year, Civil.month]
    omega
  rw [date, dayNumber, month]

theorem addDate_midnight (midnight : loc.wall t = day * 86400) (months days : Int) :
    loc.addDate t 0 months days =
      loc.unix ((monthStart ((Go.civil day).monthIndex + months) +
        ((Go.civil day).day - 1) + days) * 86400) := by
  have here : loc.wall t / 86400 = day := by omega
  have clock : loc.wall t % 86400 = 0 := by omega
  simp only [addDate, date, civil, here, clock, Civil.dayNumber_add]
  simp only [mul_zero, zero_add, add_zero]

namespace Midnights

theorem addDays (zone : loc.Midnights) (t days : Int) :
    loc.addDate (loc.date (loc.civil t).year (loc.civil t).month (loc.civil t).day 0) 0 0 days =
      loc.unix ((loc.wall t / 86400 + days) * 86400) := by
  generalize hday : loc.wall t / 86400 = day
  have here := monthStart_civil day
  have today : loc.date (loc.civil t).year (loc.civil t).month (loc.civil t).day 0 =
      loc.unix (day * 86400) := by
    rw [date_civil, civil, hday, here, add_zero]
  rw [today, addDate_midnight (zone.exist day), add_zero, here]

theorem nextMonth (zone : loc.Midnights) (t : Int) :
    loc.addDate (loc.date (loc.civil t).year (loc.civil t).month 1 0) 0 1 0 =
      loc.unix (monthStart ((loc.civil t).monthIndex + 1) * 86400) := by
  have first := loc.date_civil ⟨(loc.civil t).monthIndex, 1⟩ 0
  simp only [sub_self, add_zero] at first
  have same : loc.date (loc.civil t).year (loc.civil t).month 1 0 =
      loc.unix (monthStart (loc.civil t).monthIndex * 86400) := first
  rw [same, addDate_midnight (zone.exist _), civil_monthStart]
  simp only [sub_self, add_zero]

end Midnights

namespace SkipsMidnight

variable (skips : loc.SkipsMidnight change day gap)
include skips

theorem unix_midnight : loc.unix (day * 86400) = change - gap := by
  have bound := (loc.bounded (change - 1)).1
  rw [skips.before _ (by omega) (by omega)] at bound
  have west := skips.west
  have wall := skips.before (day * 86400) (by omega) west
  simp only [unix, wall, sub_sub_cancel, skips.after]
  rw [if_pos (by omega)]
  omega

theorem unix_before : loc.unix ((day - 1) * 86400) = change - 86400 := by
  have bound := (loc.bounded (change - 1)).1
  rw [skips.before _ (by omega) (by omega)] at bound
  have west := skips.west
  have wall := skips.before ((day - 1) * 86400) (by omega) (by omega)
  simp only [unix, wall]
  rw [if_pos (by omega), skips.before _ (by omega) (by omega)]
  omega

/-- `time.Date` finds a time of the day before for the midnight that is skipped. -/
theorem next_day (today : change - 86400 ≤ t ∧ t < change) :
    loc.addDate (loc.date (loc.civil t).year (loc.civil t).month (loc.civil t).day 0) 0 0 1 =
      change - gap := by
  have wall : ∀ t, change - 86400 ≤ t ∧ t < change → loc.wall t = t + (day * 86400 - change) :=
    fun t today => by rw [Location.wall, skips.before t (by omega) today.2]
  have first : loc.date (loc.civil t).year (loc.civil t).month (loc.civil t).day 0 =
      change - 86400 := by
    rw [date_civil, civil, wall t today,
      show (t + (day * 86400 - change)) / 86400 = day - 1 by omega, monthStart_civil, add_zero,
      skips.unix_before]
  have midnight : loc.wall (change - 86400) = (day - 1) * 86400 := by
    rw [wall _ (by omega)]
    omega
  rw [first, addDate_midnight midnight, add_zero, monthStart_civil, sub_add_cancel,
    skips.unix_midnight]

end SkipsMidnight

end Location

end Go
