import EastApi.Lib.GoTime
import Mathlib.Data.Nat.Find

/-! `time.Date` and `Time.AddDate` as they compute, in words of 64 bits.  Every step but the
division of the days of the centuries commutes with the reduction to a word, so that up to dates far
beyond the last one of an `int64` the result is the word of the exact one. -/

namespace Go

open Int

theorem wrap64_wrap64_sub (a b : Int) : wrap64 (wrap64 a - b) = wrap64 (a - b) := by
  unfold wrap64
  exact bmod_sub_bmod

/-- A quantity that rises by less than half a word in each step is negative in its word at the first
step at which it does not fit. -/
theorem exists_wrap64_neg {exact : Int → Int} (first : exact 1 < 2 ^ 63)
    (slow : ∀ n, 1 ≤ n → exact (n + 1) ≤ exact n + 2 ^ 62) (positive : 1 ≤ last)
    (beyond : 2 ^ 63 ≤ exact last) :
    ∃ n, 1 ≤ n ∧ n ≤ last ∧ exact n < 2 ^ 64 ∧ wrap64 (exact n) < 0 := by
  have reached : ∃ k : ℕ, 2 ^ 63 ≤ exact (k + 1) := by
    refine ⟨(last - 1).toNat, ?_⟩
    rwa [show ((last - 1).toNat : Int) + 1 = last by omega]
  -- the step before the first one that does not fit still fits
  have least := Nat.find_spec reached
  have bound : Nat.find reached ≤ (last - 1).toNat := by
    refine Nat.find_min' reached ?_
    rwa [show ((last - 1).toNat : Int) + 1 = last by omega]
  generalize found : Nat.find reached = k at least bound
  cases k with
  | zero =>
    simp only [Nat.cast_zero, zero_add] at least
    omega
  | succ k =>
    have before : ¬ 2 ^ 63 ≤ exact (k + 1) := Nat.find_min reached (by omega)
    have step := slow (k + 1) (by omega)
    have same : ((k + 1 : ℕ) : Int) + 1 = k + 1 + 1 := by omega
    rw [same] at least
    refine ⟨k + 1 + 1, by omega, by omega, by omega, ?_⟩
    rw [wrap64_of_overflow least (by omega)]
    omega

def absoluteYears : Int := 292277022400

def absoluteUnixDay : Int := absoluteYears / 400 * 146097 + 719468

/-- `dateToAbsDays`: the years start in March, and what is multiplied wraps as a `uint64`. -/
def dateToAbsDays (year month day : Int) : Int :=
  let janFeb := if month < 3 then 1 else 0
  let amonth := month + 12 * janFeb
  let y := (year - janFeb + absoluteYears) % 2 ^ 64
  let ayday := (979 * amonth - 2919) / 32
  let cday := 1461 * (y % 100) / 4
  let centurydays := 146097 * (y / 100) % 2 ^ 64 / 4
  (centurydays + cday + ayday + day - 1) % 2 ^ 64

theorem dateToAbsDays_eq (hyear : 0 ≤ year ∧ year < 2 ^ 45) (hmonth : 1 ≤ month ∧ month ≤ 12)
    (hday : 1 ≤ day ∧ day ≤ 31) :
    dateToAbsDays year month day = dayNumber year month day + absoluteUnixDay := by
  simp only [dateToAbsDays, dayNumber, monthStart, absoluteUnixDay, absoluteYears]
  generalize hj : (if month < 3 then (1 : Int) else 0) = janFeb
  have start : (12 * year + (month - 1) - 2) / 12 = year - janFeb := by
    split at hj <;> omega
  have rest : (12 * year + (month - 1) - 2) % 12 = month + 12 * janFeb - 3 := by
    split at hj <;> omega
  have range : 3 ≤ month + 12 * janFeb ∧ month + 12 * janFeb ≤ 14 := by
    split at hj <;> omega
  have inside : -1 ≤ year - janFeb ∧ year - janFeb < 2 ^ 45 := by
    split at hj <;> omega
  rw [start, rest]
  generalize year - janFeb = y at inside
  generalize month + 12 * janFeb = amonth at range
  have word : (y + 292277022400) % 2 ^ 64 = y + 292277022400 := by omega
  have century : (y + 292277022400) / 100 = y / 100 + 2922770224 := by omega
  have cyear : (y + 292277022400) % 100 = y % 100 := by omega
  have ayday : (979 * amonth - 2919) / 32 = (153 * (amonth - 3) + 2) / 5 := by omega
  -- the years of a century, and the centuries
  have quarter : y / 4 = 25 * (y / 100) + y % 100 / 4 := by omega
  have cycle : y / 400 = y / 100 / 4 := by omega
  rw [word, century, cyear, ayday, quarter, cycle]
  generalize hm : (153 * (amonth - 3) + 2) / 5 = m
  have hm : 0 ≤ m ∧ m ≤ 337 := by omega
  generalize hr : y % 100 = r
  generalize hc : y / 100 = c
  have whole : y = 100 * c + r := by omega
  have small : 0 ≤ 146097 * (c + 2922770224) ∧ 146097 * (c + 2922770224) < 2 ^ 63 := by omega
  have days : 146097 * (c + 2922770224) / 4 = 36524 * c + c / 4 + 730692556 * 146097 := by omega
  rw [emod_eq_of_lt small.1 (by omega), days]
  have yday : 1461 * r / 4 = 365 * r + r / 4 := by omega
  have low : 0 ≤ r / 4 ∧ r / 4 ≤ 24 := by omega
  have quarters : 0 ≤ c / 4 + 730692556 ∧ c / 4 < 2 ^ 40 := by omega
  rw [yday, emod_eq_of_lt (by omega) (by omega), whole]
  omega

def date64 (year month day clock : Int) : Int :=
  let m := wrap64 (month - 1)
  let days := dateToAbsDays (wrap64 (year + m / 12)) (m % 12 + 1) day - absoluteUnixDay
  wrap64 (days * 86400 + clock)

theorem date64_eq (hmonth : 1 ≤ month ∧ month < 2 ^ 62)
    (hyear : 0 ≤ year ∧ year + (month - 1) / 12 < 2 ^ 45) (hday : 1 ≤ day ∧ day ≤ 31)
    (clock : Int) :
    date64 year month day clock = wrap64 (dayNumber year month day * 86400 + clock) := by
  have small : wrap64 (month - 1) = month - 1 := wrap64_of_fits (by omega) (by omega)
  have fits : wrap64 (year + (month - 1) / 12) = year + (month - 1) / 12 :=
    wrap64_of_fits (by omega) (by omega)
  have same : dayNumber (year + (month - 1) / 12) ((month - 1) % 12 + 1) day =
      dayNumber year month day := by
    rw [dayNumber, dayNumber,
      show 12 * (year + (month - 1) / 12) + ((month - 1) % 12 + 1 - 1) = 12 * year + (month - 1) by
        omega]
  simp only [date64, small, fits]
  rw [dateToAbsDays_eq (by omega) (by omega) hday, same, Int.add_sub_cancel]

theorem civil_day_le (days : Int) : (civil days).day ≤ 31 := by
  have here := monthStart_civil days
  have inside := (civil_day days).2
  have step := (monthStart_succ (civil days).monthIndex).2
  omega

theorem civil_recent (from1969 : -2 ≤ days) (to2100 : days < 47847) :
    12 * 1969 ≤ (civil days).monthIndex ∧ (civil days).monthIndex < 12 * 2101 := by
  have here := monthStart_civil days
  obtain ⟨first, before⟩ := civil_day days
  constructor
  · by_contra early
    have := monthStart_le (show (civil days).monthIndex + 1 ≤ 12 * 1969 by omega)
    have : monthStart (12 * 1969) = -365 := by decide
    omega
  · by_contra late
    have := monthStart_le (show 12 * 2101 ≤ (civil days).monthIndex by omega)
    have : monthStart (12 * 2101) = 47847 := by decide
    omega

namespace Location

variable (loc : Location)

def offsetOf (wall : Int) : Int :=
  if loc.offset wall ≠ 0 then loc.offset (wrap64 (wall - loc.offset wall)) else 0

def unix64 (wall : Int) : Int := wrap64 (wall - loc.offsetOf wall)

def addDate64 (t years months days : Int) : Int :=
  let c := loc.civil t
  loc.unix64 (date64 (wrap64 (c.year + years)) (wrap64 (c.month + months)) (wrap64 (c.day + days))
    (loc.wall t % 86400))

def reading (t months : Int) : Int :=
  (monthStart ((loc.civil t).monthIndex + months) + ((loc.civil t).day - 1)) * 86400 +
    loc.wall t % 86400

def reached (t months : Int) : Int :=
  loc.reading t months - loc.offsetOf (wrap64 (loc.reading t months))

theorem offsetOf_bounds (wall : Int) : -86400 ≤ loc.offsetOf wall ∧ loc.offsetOf wall ≤ 86400 := by
  unfold offsetOf
  split
  · exact loc.bounded _
  · omega

theorem reading_zero (t : Int) : loc.reading t 0 = loc.wall t := by
  have here := monthStart_civil (loc.wall t / 86400)
  rw [reading, civil, add_zero, here]
  omega

theorem reading_add (t months : Int) (n : ℕ) :
    loc.reading t months + 2419200 * n ≤ loc.reading t (months + n) ∧
      loc.reading t (months + n) ≤ loc.reading t months + 2678400 * n := by
  obtain ⟨low, high⟩ := monthStart_add ((loc.civil t).monthIndex + months) n
  simp only [reading, ← add_assoc]
  omega

theorem reached_near (t months : Int) :
    loc.reading t months - 86400 ≤ loc.reached t months ∧
      loc.reached t months ≤ loc.reading t months + 86400 := by
  have bounds := loc.offsetOf_bounds (wrap64 (loc.reading t months))
  rw [reached]
  omega

theorem wall_near (t : Int) : t - 86400 ≤ loc.wall t ∧ loc.wall t ≤ t + 86400 := by
  have bounds := loc.bounded t
  rw [wall]
  omega

theorem reached_add (t months : Int) {n : ℕ} (some : 0 < n) :
    loc.reached t months < loc.reached t (months + n) ∧
      loc.reached t (months + n) ≤ loc.reached t months + 2678400 * n + 172800 := by
  have reading := loc.reading_add t months n
  have near := loc.reached_near t months
  have near' := loc.reached_near t (months + n)
  omega

theorem reached_bounds (t : Int) (n : ℕ) :
    t + 2419200 * n - 172800 ≤ loc.reached t n ∧ loc.reached t n ≤ t + 2678400 * n + 172800 := by
  have reading := loc.reading_add t 0 n
  rw [reading_zero, zero_add] at reading
  have near := loc.reached_near t n
  have wall := loc.wall_near t
  omega

/-- From an instant between 1970 and 2100 `AddDate` finds the instant in a word, for all months that
are not out of all bounds. -/
theorem addDate64_eq (recent : 0 ≤ t ∧ t < 4102444800) (forward : 0 ≤ years ∧ 0 ≤ months)
    (bounded : 12 * years + months < 2 ^ 43) :
    loc.addDate64 t years months 0 = wrap64 (loc.reached t (12 * years + months)) := by
  have wall := loc.wall_near t
  obtain ⟨early, late⟩ := civil_recent (show -2 ≤ loc.wall t / 86400 by omega)
    (show loc.wall t / 86400 < 47847 by omega)
  have first := (civil_day (loc.wall t / 86400)).1
  have last := civil_day_le (loc.wall t / 86400)
  have year : (loc.civil t).year = (Go.civil (loc.wall t / 86400)).monthIndex / 12 := rfl
  have month : (loc.civil t).month = (Go.civil (loc.wall t / 86400)).monthIndex % 12 + 1 := rfl
  have day : (loc.civil t).day = (Go.civil (loc.wall t / 86400)).day := rfl
  have index : (loc.civil t).monthIndex = (Go.civil (loc.wall t / 86400)).monthIndex := rfl
  have fits : wrap64 ((loc.civil t).year + years) = (loc.civil t).year + years :=
    wrap64_of_fits (by omega) (by omega)
  have fits' : wrap64 ((loc.civil t).month + months) = (loc.civil t).month + months :=
    wrap64_of_fits (by omega) (by omega)
  have fits'' : wrap64 ((loc.civil t).day + 0) = (loc.civil t).day + 0 :=
    wrap64_of_fits (by omega) (by omega)
  simp only [addDate64, fits, fits', fits'']
  rw [date64_eq (by omega) (by omega) (by omega), Civil.dayNumber_add, add_zero, unix64,
    wrap64_wrap64_sub]
  rfl

theorem addDate64_eq_addDate (recent : 0 ≤ t ∧ t < 4102444800) (forward : 0 ≤ years ∧ 0 ≤ months)
    (bounded : 12 * years + months < 2 ^ 41) :
    loc.addDate64 t years months 0 = loc.addDate t years months 0 := by
  obtain ⟨n, hn⟩ : ∃ n : ℕ, 12 * years + months = n := ⟨(12 * years + months).toNat, by omega⟩
  have late := loc.reading_add t 0 n
  rw [reading_zero, zero_add] at late
  have wall := loc.wall_near t
  have bounds := loc.reached_bounds t n
  have offset := loc.bounded (loc.reading t n)
  have plain : loc.addDate t years months 0 = loc.unix (loc.reading t n) := by
    simp only [addDate, date, Civil.dayNumber_add, hn]
    rw [add_zero, reading]
  have fits : wrap64 (loc.reading t n) = loc.reading t n := wrap64_of_fits (by omega) (by omega)
  have fits' : wrap64 (loc.reading t n - loc.offset (loc.reading t n)) =
      loc.reading t n - loc.offset (loc.reading t n) := wrap64_of_fits (by omega) (by omega)
  have same : loc.reached t n = loc.unix (loc.reading t n) := by
    simp only [reached, offsetOf, unix, fits, fits']
    split
    · rfl
    · omega
  rw [loc.addDate64_eq recent forward (by omega), hn, wrap64_of_fits (by omega) (by omega), same,
    plain]

end Location

end Go
