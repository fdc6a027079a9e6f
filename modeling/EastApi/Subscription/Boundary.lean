import EastApi.Subscription.ResetLoop

/-! Where the resets of the calendar fall.  In a zone with a fixed offset `calcNextResetTime` gives
the next boundary, and a reset leaves a subscription at the last one that has come. -/

namespace EastApi.Subscription

open Go

def ResetPeriod.calendar : ResetPeriod → Bool
  | .daily | .weekly | .monthly => true
  | .never | .custom => false

def boundary (loc : Location) (period : ResetPeriod) (t : Int) : Prop :=
  loc.wall t % 86400 = 0 ∧
    match period with
    | .daily => True
    | .weekly => loc.weekday t = 1
    | .monthly => (loc.civil t).day = 1
    | .never | .custom => False

section
variable {loc : Location} {seconds : Int} (fixed : loc.Fixed seconds)
include fixed

theorem daily_least (t : Int) :
    IsLeast {c | boundary loc .daily c ∧ t < c} (loc.unix ((loc.wall t / 86400 + 1) * 86400)) := by
  rw [fixed.unix, fixed.wall]
  constructor
  · refine ⟨⟨?_, trivial⟩, by omega⟩
    rw [fixed.wall]
    omega
  · rintro c ⟨⟨midnight, -⟩, later⟩
    rw [fixed.wall] at midnight
    omega

theorem weekly_least (t : Int) :
    IsLeast {c | boundary loc .weekly c ∧ t < c}
      (loc.unix ((loc.wall t / 86400 + (8 - if loc.weekday t = 0 then 7 else loc.weekday t)) *
        86400)) := by
  rw [fixed.unix]
  simp only [Location.weekday, fixed.wall]
  constructor
  · refine ⟨⟨?_, ?_⟩, ?_⟩
    · rw [fixed.wall]
      omega
    · simp only [Location.weekday, fixed.wall]
      split <;> omega
    · split <;> omega
  · rintro c ⟨⟨midnight, monday⟩, later⟩
    simp only [Location.weekday, fixed.wall] at midnight monday
    split <;> omega

theorem monthly_least (t : Int) :
    IsLeast {c | boundary loc .monthly c ∧ t < c}
      (loc.unix (monthStart ((loc.civil t).monthIndex + 1) * 86400)) := by
  generalize hday : loc.wall t / 86400 = day
  have civil_t : loc.civil t = Go.civil day := by rw [Location.civil, hday]
  have next := (civil_day day).2
  rw [civil_t, fixed.unix]
  rw [fixed.wall] at hday
  constructor
  · refine ⟨⟨?_, ?_⟩, by omega⟩
    · rw [fixed.wall]
      omega
    · have wall : loc.wall (monthStart ((Go.civil day).monthIndex + 1) * 86400 - seconds) / 86400 =
          monthStart ((Go.civil day).monthIndex + 1) := by
        rw [fixed.wall]
        omega
      simp only [Location.civil, wall, civil_monthStart]
  · rintro c ⟨⟨midnight, first⟩, later⟩
    rw [fixed.wall] at midnight
    simp only [Location.civil, fixed.wall] at first
    have := monthStart_next_le first (show day < (c + seconds) / 86400 by omega)
    omega

variable {plan : SubscriptionPlan}
  (calendar : (normalizeResetPeriod plan.quotaResetPeriod).calendar = true)
include calendar

theorem calcNext_follows (ends : 0 < endUnix) :
    CatchUp.Follows (fun t => calcNextResetTime loc t plan endUnix)
      (boundary loc (normalizeResetPeriod plan.quotaResetPeriod)) endUnix := by
  have cut : ∀ next, untilEnd next endUnix = if endUnix < next then 0 else next := by
    intro next
    simp only [untilEnd, ends, true_and]
  intro t _
  simp only [calcNextResetTime, fixed.midnights.addDays, fixed.midnights.nextMonth, cut]
  cases period : normalizeResetPeriod plan.quotaResetPeriod with
  | daily => exact ⟨_, daily_least fixed t, rfl⟩
  | weekly => exact ⟨_, weekly_least fixed t, rfl⟩
  | monthly => exact ⟨_, monthly_least fixed t, rfl⟩
  | never | custom =>
    rw [period] at calendar
    contradiction

omit fixed in
theorem periodic_of_calendar : normalizeResetPeriod plan.quotaResetPeriod ≠ .never := by
  intro never
  rw [never] at calendar
  contradiction

/-- The resets of a daily, weekly or monthly plan: the used amount is set to zero if and only if a
boundary has come since the base, the last one becomes the time of the last reset and the one after
it that of the next.  A second call at the same time changes nothing. -/
theorem calendar_reset {sub : UserSubscription} {now : Int} (start : 0 ≤ sub.startTime)
    (ends : 0 < sub.endTime)
    (last : sub.lastResetTime = 0 ∨ sub.startTime ≤ sub.lastResetTime) :
    let marks := boundary loc (normalizeResetPeriod plan.quotaResetPeriod)
    let base := if sub.lastResetTime = 0 then sub.startTime else sub.lastResetTime
    let come := {b | marks b ∧ base < b ∧ b ≤ min now sub.endTime}
    let skipped := 0 < sub.nextResetTime ∧ now < sub.nextResetTime
    ∃ row, (∃ enough, ∀ fuel ≥ enough,
        maybeResetUserSubscriptionWithPlanTx loc fuel sub plan now = some row ∧
        maybeResetUserSubscriptionWithPlanTx loc fuel row plan now = some row) ∧
      (come.Nonempty ∧ ¬ skipped → row.amountUsed = 0 ∧ IsGreatest come row.lastResetTime ∧
        ∃ b, IsLeast {c | marks c ∧ row.lastResetTime < c} b ∧
          row.nextResetTime = if sub.endTime < b then 0 else b) ∧
      (¬ (come.Nonempty ∧ ¬ skipped) → row.amountUsed = sub.amountUsed) := by
  intro marks base come skipped
  have base_eq : resetBase sub = base := by
    simp only [resetBase, base]
    split <;> split <;> omega
  have base_nonneg : 0 ≤ resetBase sub := by
    rw [base_eq]
    simp only [base]
    split <;> omega
  have follows := calcNext_follows fixed calendar ends
  have due_iff : resetDue loc now sub plan ↔ come.Nonempty ∧ ¬ skipped := by
    have come_iff : (0 < calcNextResetTime loc (resetBase sub) plan sub.endTime ∧
        calcNextResetTime loc (resetBase sub) plan sub.endTime ≤ now) ↔ come.Nonempty := by
      rw [follows.come_iff base_nonneg, base_eq]
      rfl
    constructor
    · rintro ⟨reached, -, reset⟩
      exact ⟨come_iff.mp reset, reached⟩
    · rintro ⟨boundary, reached⟩
      exact ⟨reached, periodic_of_calendar calendar, come_iff.mpr boundary⟩
  have ends : ∃ fuel row,
      maybeResetUserSubscriptionWithPlanTx loc fuel sub plan now = some row := by
    apply maybeReset_forward
    intro t
    apply calcNext_forward_of_calendar fun _ => fixed.midnights
    intro custom
    rw [custom] at calendar
    contradiction
  obtain ⟨enough, row, ended⟩ := ends
  refine ⟨row, ⟨enough, fun fuel more => ⟨maybeReset_mono ended more,
    maybeReset_again ended more⟩⟩, ?_, ?_⟩
  · intro reset
    have due := due_iff.mpr reset
    obtain ⟨eq, run⟩ := maybeReset_due_some ended due
    obtain ⟨greatest, next⟩ := follows.loop_greatest enough _ base_nonneg due.2.2 run
    rw [base_eq] at greatest
    obtain ⟨b, least, after⟩ := follows row.lastResetTime (by
      have := greatest.1.2.1
      rw [base_eq] at base_nonneg
      omega)
    exact ⟨by rw [eq], greatest, b, least, next.trans after⟩
  · intro calm
    rcases maybeReset_some ended with ⟨-, same | ⟨due, -⟩⟩
    · exact same
    · exact absurd (due_iff.mp due) calm

end

def monthlyPlan : SubscriptionPlan := { id := 1, quotaResetPeriod := "monthly" }

def januaryRow : UserSubscription :=
  { id := 1, userId := 7, planId := 1, amountTotal := 100, amountUsed := 60
    startTime := 1706659200, endTime := 1738281600, status := .active
    lastResetTime := 1706659200, nextResetTime := 1706745600
    upgradeGroup := "", prevUserGroup := "" }

/-- On 1 March 2024 the used amount is reset, as of that day. -/
theorem calendar_reset_march :
    utc.Fixed 0 ∧ ∃ row enough, (∀ fuel ≥ enough,
      maybeResetUserSubscriptionWithPlanTx utc fuel januaryRow monthlyPlan 1709300000 =
        some row) ∧ row.amountUsed = 0 ∧ 1709251200 ≤ row.lastResetTime := by
  obtain ⟨row, ⟨enough, ended⟩, reset, -⟩ := @calendar_reset utc 0 Location.utc_fixed monthlyPlan
    (by decide) januaryRow 1709300000 (by decide) (by decide) (by decide)
  have march : boundary utc .monthly 1709251200 := ⟨by decide, by decide⟩
  obtain ⟨zero, greatest, -⟩ := reset ⟨⟨1709251200, march, by decide, by decide⟩, by decide⟩
  exact ⟨Location.utc_fixed, row, enough, fun fuel more => (ended fuel more).1, zero,
    greatest.2 ⟨march, by decide, by decide⟩⟩

end EastApi.Subscription
