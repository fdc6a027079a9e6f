import EastApi.Lib.CatchUp
import EastApi.Subscription.Charge
import EastApi.Subscription.Plan

/-! The catch-up loop of `maybeResetUserSubscriptionWithPlanTx`.  The periods of the calendar always
go forward in a zone that skips no midnight, and a daily one does not get past a midnight that is
skipped.  A custom period is a product of nanoseconds that wraps at 64 bits, so it may be any number
of seconds, and the loop stays where it is when that is zero. -/

namespace EastApi.Subscription

open Go Function Option Int

/-- The whole seconds that a custom period comes out as. -/
def customStep (plan : SubscriptionPlan) : Int :=
  wrap64 (plan.quotaResetCustomSeconds * 1000000000) / 1000000000

/-- A custom period does not overflow. -/
def SubscriptionPlan.fits (plan : SubscriptionPlan) : Prop :=
  normalizeResetPeriod plan.quotaResetPeriod = .custom →
    plan.quotaResetCustomSeconds * 1000000000 < 2 ^ 63

/-- The zone has the midnights that the plan is reset at, if there are any. -/
def SubscriptionPlan.datedIn (plan : SubscriptionPlan) (loc : Location) : Prop :=
  normalizeResetPeriod plan.quotaResetPeriod ∈ [ResetPeriod.daily, .weekly, .monthly] →
    loc.Midnights

section
variable {loc : Location} {plan : SubscriptionPlan}

theorem untilEnd_forward (later : base < next) (endUnix : Int) :
    untilEnd next endUnix = 0 ∨ base < untilEnd next endUnix := by
  unfold untilEnd
  split
  · exact .inl rfl
  · exact .inr later

theorem midnight_later (zone : loc.Midnights) (later : loc.wall base / 86400 < day) :
    base < loc.unix (day * 86400) := by
  apply zone.later
  omega

theorem calcNext_forward_of_calendar (dated : plan.datedIn loc)
    (calendar : normalizeResetPeriod plan.quotaResetPeriod ≠ .custom) (base endUnix : Int) :
    calcNextResetTime loc base plan endUnix = 0 ∨
      base < calcNextResetTime loc base plan endUnix := by
  simp only [calcNextResetTime]
  cases period : normalizeResetPeriod plan.quotaResetPeriod with
  | never => exact .inl rfl
  | daily =>
    have zone := dated (by simp [period])
    simp only [zone.addDays]
    apply untilEnd_forward
    apply midnight_later zone
    omega
  | weekly =>
    have zone := dated (by simp [period])
    have weekday : 0 ≤ loc.weekday base ∧ loc.weekday base ≤ 6 := by
      unfold Location.weekday
      omega
    simp only [zone.addDays]
    apply untilEnd_forward
    apply midnight_later zone
    split <;> omega
  | monthly =>
    have zone := dated (by simp [period])
    simp only [zone.nextMonth]
    apply untilEnd_forward
    apply midnight_later zone
    exact (civil_day _).2
  | custom => exact absurd period calendar

theorem calcNext_custom (custom : normalizeResetPeriod plan.quotaResetPeriod = .custom)
    (positive : 0 < plan.quotaResetCustomSeconds) (base endUnix : Int) :
    calcNextResetTime loc base plan endUnix = untilEnd (base + customStep plan) endUnix := by
  simp only [calcNextResetTime, custom, if_neg (show ¬ plan.quotaResetCustomSeconds ≤ 0 by omega)]
  rfl

/-- A plan whose reset times go forward: every one but those with a custom period that comes out as
zero or less. -/
theorem calcNext_forward (dated : plan.datedIn loc)
    (step : normalizeResetPeriod plan.quotaResetPeriod = .custom →
      0 < plan.quotaResetCustomSeconds → 0 < customStep plan) (base endUnix : Int) :
    calcNextResetTime loc base plan endUnix = 0 ∨
      base < calcNextResetTime loc base plan endUnix := by
  by_cases custom : normalizeResetPeriod plan.quotaResetPeriod = .custom
  · rcases Int.lt_or_le 0 plan.quotaResetCustomSeconds with positive | none
    · rw [calcNext_custom custom positive]
      apply untilEnd_forward
      have := step custom positive
      omega
    · exact .inl (by simp only [calcNextResetTime, custom, if_pos none])
  · exact calcNext_forward_of_calendar dated custom base endUnix

theorem resetLoop_eq (endTime now : Int) (fuel : Nat) : ∀ base next : Int,
    resetLoop loc plan endTime now fuel base next =
      CatchUp.loop (fun t => calcNextResetTime loc t plan endTime) now fuel base next := by
  induction fuel with
  | zero => intro base next; rfl
  | succ fuel ih =>
    intro base next
    rw [resetLoop, CatchUp.loop]
    split
    · exact ih _ _
    · rfl

theorem resetLoop_forward (forward : ∀ t, calcNextResetTime loc t plan endTime = 0 ∨
      t < calcNextResetTime loc t plan endTime) (now base next : Int) :
    ∃ fuel r, resetLoop loc plan endTime now fuel base next = some r := by
  simp only [resetLoop_eq]
  refine ⟨_, CatchUp.loop_ends (fun t => if 0 < t then (now + 1 - t).toNat else 0)
    (fun t come => ?_) _ base next le_rfl⟩
  have := forward t
  rw [if_pos come.1]
  split <;> omega

theorem maybeReset_due (due : resetDue loc now sub plan) (fuel : Nat) :
    maybeResetUserSubscriptionWithPlanTx loc fuel sub plan now =
      (resetLoop loc plan sub.endTime now fuel (resetBase sub)
        (calcNextResetTime loc (resetBase sub) plan sub.endTime)).map fun (base, next) =>
          { sub with amountUsed := 0, lastResetTime := base, nextResetTime := next } := by
  obtain ⟨reached, periodic, come⟩ := due
  rw [maybeResetUserSubscriptionWithPlanTx, if_neg reached, if_neg periodic]
  simp only [if_pos come]

section
variable (h : maybeResetUserSubscriptionWithPlanTx loc fuel sub plan now = some row)
include h

theorem maybeReset_mono {fuel' : Nat} (more : fuel ≤ fuel') :
    maybeResetUserSubscriptionWithPlanTx loc fuel' sub plan now = some row := by
  by_cases due : resetDue loc now sub plan
  · rw [maybeReset_due due] at h ⊢
    obtain ⟨r, run, rfl⟩ := map_eq_some_iff.mp h
    rw [resetLoop_eq] at run ⊢
    rw [CatchUp.loop_mono more run]
    rfl
  · rw [← h]
    unfold maybeResetUserSubscriptionWithPlanTx
    split
    · rfl
    split
    · rfl
    simp only
    split
    · exact absurd ⟨by assumption, by assumption, by assumption⟩ due
    · rfl

theorem maybeReset_due_some (due : resetDue loc now sub plan) :
    row = { sub with
      amountUsed := 0, lastResetTime := row.lastResetTime, nextResetTime := row.nextResetTime } ∧
    CatchUp.loop (fun t => calcNextResetTime loc t plan sub.endTime) now fuel (resetBase sub)
      (calcNextResetTime loc (resetBase sub) plan sub.endTime) =
        some (row.lastResetTime, row.nextResetTime) := by
  rw [maybeReset_due due] at h
  obtain ⟨r, run, rfl⟩ := map_eq_some_iff.mp h
  exact ⟨rfl, by rw [← resetLoop_eq, run]⟩

theorem maybeReset_due_next (due : resetDue loc now sub plan) :
    ¬ (0 < row.nextResetTime ∧ row.nextResetTime ≤ now) ∧
    (0 < row.lastResetTime ∧ row.lastResetTime ≤ now) ∧
    row.nextResetTime = calcNextResetTime loc row.lastResetTime plan sub.endTime := by
  obtain ⟨-, run⟩ := maybeReset_due_some h due
  obtain ⟨ended, ⟨-, first⟩ | ⟨come, next⟩⟩ := CatchUp.loop_some run
  · rw [first] at ended
    exact absurd due.2.2 ended
  · exact ⟨ended, come, next⟩

theorem maybeReset_not_due (calm : ¬ resetDue loc now sub plan) :
    row = sub ∨ sub.nextResetTime = 0 ∧ now < row.nextResetTime ∧ 0 < row.nextResetTime ∧
      row = { sub with nextResetTime := row.nextResetTime, lastResetTime := resetBase sub } := by
  revert h
  fun_cases maybeResetUserSubscriptionWithPlanTx loc fuel sub plan now <;> intro h
  case case3 reached periodic _ _ due => exact absurd ⟨reached, periodic, due⟩ calm
  case case4 ahead unset =>
    cases h
    exact .inr ⟨unset.1, lt_of_not_ge fun late => ahead ⟨unset.2, late⟩, unset.2, rfl⟩
  all_goals exact .inl (some.inj h).symm

theorem maybeReset_again (more : fuel ≤ fuel') :
    maybeResetUserSubscriptionWithPlanTx loc fuel' row plan now = some row := by
  by_cases due : resetDue loc now sub plan
  · obtain ⟨ended, come, next⟩ := maybeReset_due_next h due
    obtain ⟨eq, -⟩ := maybeReset_due_some h due
    have ends : row.endTime = sub.endTime := by rw [eq]
    have base : resetBase row = row.lastResetTime := if_neg (by omega)
    rw [maybeResetUserSubscriptionWithPlanTx]
    split
    · rfl
    rw [if_neg due.2.1]
    simp only [base, ends, ← next]
    rw [if_neg ended, if_neg (by omega)]
  · rcases maybeReset_not_due h due with rfl | ⟨-, ahead, positive, -⟩
    · exact maybeReset_mono h more
    · rw [maybeResetUserSubscriptionWithPlanTx, if_pos ⟨positive, ahead⟩]

end

theorem maybeReset_of_loop (ends : resetDue loc now sub plan → ∃ fuel r,
      resetLoop loc plan sub.endTime now fuel (resetBase sub)
        (calcNextResetTime loc (resetBase sub) plan sub.endTime) = some r) :
    ∃ fuel row, maybeResetUserSubscriptionWithPlanTx loc fuel sub plan now = some row := by
  by_cases due : resetDue loc now sub plan
  · obtain ⟨fuel, r, run⟩ := ends due
    exact ⟨fuel, _, by rw [maybeReset_due due, run]; rfl⟩
  · exact ⟨0, ne_none_iff_exists'.mp (maybeReset_ends due)⟩

theorem maybeReset_forward
    (forward : ∀ t, calcNextResetTime loc t plan sub.endTime = 0 ∨
      t < calcNextResetTime loc t plan sub.endTime) (now : Int) :
    ∃ fuel row, maybeResetUserSubscriptionWithPlanTx loc fuel sub plan now = some row :=
  maybeReset_of_loop fun _ => resetLoop_forward forward _ _ _

/-- A reset that is due and whose next time is its own next time does not end. -/
theorem maybeReset_stuck (due : resetDue loc now sub plan)
    (next : calcNextResetTime loc (resetBase sub) plan sub.endTime = t)
    (still : calcNextResetTime loc t plan sub.endTime = t) (fuel : Nat) :
    maybeResetUserSubscriptionWithPlanTx loc fuel sub plan now = none := by
  have come := due.2.2
  rw [next] at come
  rw [maybeReset_due due, resetLoop_eq, next, CatchUp.loop_stuck come still, map_none]

/-- The custom period of an accepted plan comes out as zero, and the base of the subscription has
come. -/
structure Stuck (now : Int) (sub : UserSubscription) (plan : SubscriptionPlan) : Prop where
  reached : ¬ (0 < sub.nextResetTime ∧ now < sub.nextResetTime)
  custom : normalizeResetPeriod plan.quotaResetPeriod = .custom
  positive : 0 < plan.quotaResetCustomSeconds
  still : customStep plan = 0
  come : 0 < resetBase sub ∧ resetBase sub ≤ now
  beforeEnd : ¬ (0 < sub.endTime ∧ sub.endTime < resetBase sub)

theorem Stuck.next (h : Stuck now sub plan) :
    calcNextResetTime loc (resetBase sub) plan sub.endTime = resetBase sub := by
  rw [calcNext_custom h.custom h.positive, h.still, add_zero, untilEnd, if_neg h.beforeEnd]

theorem Stuck.never_ends (h : Stuck now sub plan) (fuel : Nat) :
    maybeResetUserSubscriptionWithPlanTx loc fuel sub plan now = none := by
  have due : resetDue loc now sub plan := by
    refine ⟨h.reached, by rw [h.custom]; decide, ?_⟩
    rw [h.next]
    exact h.come
  exact maybeReset_stuck due h.next h.next fuel

/-- The base of a daily subscription is on the day before a midnight that is skipped, and the time
that is found for that midnight has come. -/
structure AtSkipped (loc : Location) (change day gap now : Int) (sub : UserSubscription)
    (plan : SubscriptionPlan) : Prop where
  skips : loc.SkipsMidnight change day gap
  daily : normalizeResetPeriod plan.quotaResetPeriod = .daily
  reached : ¬ (0 < sub.nextResetTime ∧ now < sub.nextResetTime)
  base : change - 86400 ≤ resetBase sub ∧ resetBase sub < change
  come : 0 < change - gap ∧ change - gap ≤ now
  unended : sub.endTime ≤ 0 ∨ change - gap ≤ sub.endTime

section
variable (h : AtSkipped loc change day gap now sub plan)
include h

theorem AtSkipped.next (today : change - 86400 ≤ t ∧ t < change) :
    calcNextResetTime loc t plan sub.endTime = change - gap := by
  have unended := h.unended
  simp only [calcNextResetTime, h.daily, h.skips.next_day today, untilEnd]
  rw [if_neg (by omega)]

theorem AtSkipped.still : calcNextResetTime loc (change - gap) plan sub.endTime = change - gap := by
  have := h.skips.forward
  exact h.next (by omega)

theorem AtSkipped.due : resetDue loc now sub plan := by
  refine ⟨h.reached, by rw [h.daily]; decide, ?_⟩
  rw [h.next h.base]
  exact h.come

end

theorem stuck_of_still (custom : normalizeResetPeriod plan.quotaResetPeriod = .custom)
    (positive : 0 < plan.quotaResetCustomSeconds) (still : customStep plan = 0)
    (due : resetDue loc now sub plan) : Stuck now sub plan := by
  obtain ⟨reached, -, come⟩ := due
  rw [calcNext_custom custom positive, still, add_zero, untilEnd] at come
  split at come
  · omega
  next beforeEnd => exact ⟨reached, custom, positive, still, come, beforeEnd⟩

theorem maybeReset_ends_of_not_stuck (dated : plan.datedIn loc) (free : ¬ Stuck now sub plan) :
    ∃ fuel row, maybeResetUserSubscriptionWithPlanTx loc fuel sub plan now = some row := by
  apply maybeReset_of_loop
  intro due
  by_cases back : normalizeResetPeriod plan.quotaResetPeriod = .custom ∧
      0 < plan.quotaResetCustomSeconds ∧ customStep plan ≤ 0
  · obtain ⟨custom, positive, step⟩ := back
    have negative : customStep plan < 0 := by
      rcases Int.lt_or_eq_of_le step with less | still
      · exact less
      · exact absurd (stuck_of_still custom positive still due) free
    simp only [resetLoop_eq]
    refine ⟨_, CatchUp.loop_ends toNat (fun t come => ?_) _ _ _ le_rfl⟩
    simp only [calcNext_custom custom positive, untilEnd]
    split <;> omega
  · apply resetLoop_forward
    intro t
    apply calcNext_forward dated
    intro custom positive
    rcases Int.lt_or_le 0 (customStep plan) with step | step
    · exact step
    · exact absurd ⟨custom, positive, step⟩ back

end

def longPeriod : PlanRequest :=
  { title := "Pro", priceAmount := 10
    plan := { id := 0, quotaResetPeriod := "custom", quotaResetCustomSeconds := 2 ^ 55 } }

def Charges.mapRows (c : Charges) (f : UserSubscription → UserSubscription) : Charges :=
  { c with subs := c.subs.map f }

theorem Charges.save_mapRows {c : Charges} (unique : c.ids.Nodup)
    (ids : ∀ r ∈ c.subs, (f r).id = r.id) (hs : s ∈ c.subs) (same : new.id = s.id) :
    (c.mapRows f).save new = c.mapRows (update f s new) := by
  simp only [save, mapRows, List.map_map, Charges.mk.injEq, and_true]
  refine List.map_congr_left fun r hr => ?_
  simp only [comp_apply, ids r hr, same]
  by_cases own : r = s
  · simp [own]
  · rw [update_of_ne own, if_neg fun h => own (c.eq_of_id unique hr hs h)]

def Charges.resetRow (c : Charges) (loc : Location) (fuel : Nat) (now : Int)
    (s : UserSubscription) : UserSubscription :=
  match c.plan {} s.planId with
  | .error _ => s
  | .ok plan => (maybeResetUserSubscriptionWithPlanTx loc fuel s plan now).getD s

theorem Charges.resetRow_ok {c : Charges} {fuel : Nat} {plan : SubscriptionPlan}
    (loaded : c.plan {} s.planId = .ok plan)
    (run : maybeResetUserSubscriptionWithPlanTx loc fuel s plan now = some row) :
    c.resetRow loc fuel now s = row := by
  simp only [resetRow, loaded, run, getD_some]

def Charges.resetSeen (c : Charges) (loc : Location) (fuel : Nat) (now : Int)
    (seen : List UserSubscription) (r : UserSubscription) : UserSubscription :=
  if r ∈ seen then c.resetRow loc fuel now r else r

theorem Charges.mapRows_unseen (c : Charges) (loc : Location) (fuel : Nat) (now : Int) :
    c.mapRows (c.resetSeen loc fuel now []) = c := by
  have same : c.resetSeen loc fuel now [] = fun r => r := by
    funext r
    simp [resetSeen]
  rw [mapRows, same, List.map_id']

def Charges.resets (c : Charges) (loc : Location) (fuel : Nat) (now : Int) : Prop :=
  ∀ s ∈ c.subs, ∀ plan, c.plan {} s.planId = .ok plan →
    maybeResetUserSubscriptionWithPlanTx loc fuel s plan now = some (c.resetRow loc fuel now s)

section
variable {loc : Location} {fuel : Nat} {now : Int} {c : Charges}

theorem Charges.resets_of_fits
    (fits : ∀ s ∈ c.subs, ∀ plan, c.plans s.planId = some plan → plan.fits ∧ plan.datedIn loc)
    (now : Int) :
    ∃ enough, ∀ fuel ≥ enough, c.resets loc fuel now := by
  suffices all : ∀ l : List UserSubscription, (∀ s ∈ l, s ∈ c.subs) → ∃ enough, ∀ fuel ≥ enough,
      ∀ s ∈ l, ∀ plan, c.plan {} s.planId = .ok plan →
        maybeResetUserSubscriptionWithPlanTx loc fuel s plan now =
          some (c.resetRow loc fuel now s) from all c.subs fun _ hs => hs
  intro l
  induction l with
  | nil => exact fun _ => ⟨0, by simp⟩
  | cons s rest ih =>
    intro rows
    obtain ⟨enough, others⟩ := ih fun t ht => rows t (by simp [ht])
    cases loaded : c.plan {} s.planId with
    | error message =>
      refine ⟨enough, fun fuel more t ht plan own => ?_⟩
      rcases List.mem_cons.mp ht with rfl | ht
      · rw [loaded] at own
        contradiction
      · exact others fuel more t ht plan own
    | ok plan =>
      have ⟨fits, dated⟩ := fits s (rows s (by simp)) plan (Charges.plan_ok loaded)
      have step : normalizeResetPeriod plan.quotaResetPeriod = .custom →
          0 < plan.quotaResetCustomSeconds → 0 < customStep plan := by
        intro custom positive
        rw [customStep, wrap64_of_fits (by omega) (fits custom)]
        omega
      obtain ⟨last, row, ended⟩ := maybeReset_forward (calcNext_forward dated step · s.endTime) now
      refine ⟨max enough last, fun fuel more t ht plan' own => ?_⟩
      rcases List.mem_cons.mp ht with rfl | ht
      · have run := maybeReset_mono ended (show last ≤ fuel by omega)
        obtain rfl : plan = plan' := Except.ok.inj (loaded.symm.trans own)
        rw [Charges.resetRow_ok loaded run, run]
      · exact others fuel (by omega) t ht plan' own

theorem resetRow_eq (s : UserSubscription) :
    ∃ used last next, (used = s.amountUsed ∨ used = 0) ∧ c.resetRow loc fuel now s =
      { s with amountUsed := used, lastResetTime := last, nextResetTime := next } := by
  cases loaded : c.plan {} s.planId with
  | error message =>
    exact ⟨s.amountUsed, s.lastResetTime, s.nextResetTime, .inl rfl, by
      simp only [Charges.resetRow, loaded]⟩
  | ok plan =>
    cases run : maybeResetUserSubscriptionWithPlanTx loc fuel s plan now with
    | none =>
      exact ⟨s.amountUsed, s.lastResetTime, s.nextResetTime, .inl rfl, by
        simp only [Charges.resetRow, loaded, run, getD_none]⟩
    | some row =>
      rw [Charges.resetRow_ok loaded run]
      by_cases due : resetDue loc now s plan
      · exact ⟨_, _, _, .inr rfl, (maybeReset_due_some run due).1⟩
      · rcases maybeReset_not_due run due with same | ⟨-, -, -, eq⟩
        · exact ⟨_, _, _, .inl rfl, same⟩
        · exact ⟨_, _, _, .inl rfl, eq⟩

@[simp] theorem resetRow_id (s : UserSubscription) : (c.resetRow loc fuel now s).id = s.id := by
  obtain ⟨used, last, next, -, eq⟩ := @resetRow_eq loc fuel now c s
  rw [eq]

@[simp] theorem resetSeen_id (seen : List UserSubscription) (r : UserSubscription) :
    (c.resetSeen loc fuel now seen r).id = r.id := by
  unfold Charges.resetSeen
  split
  · exact resetRow_id r
  · rfl

theorem update_resetSeen (seen : List UserSubscription) (s : UserSubscription) :
    update (c.resetSeen loc fuel now seen) s (c.resetRow loc fuel now s) =
      c.resetSeen loc fuel now (seen ++ [s]) := by
  funext r
  by_cases own : r = s <;> simp [Charges.resetSeen, own]

theorem saveReset_seen (unique : c.ids.Nodup) (hs : s ∈ c.subs) (unread : s ∉ seen) :
    (if c.resetRow loc fuel now s = s then c.mapRows (c.resetSeen loc fuel now seen)
      else (c.mapRows (c.resetSeen loc fuel now seen)).save (c.resetRow loc fuel now s)) =
      c.mapRows (c.resetSeen loc fuel now (seen ++ [s])) := by
  rw [← update_resetSeen]
  split
  next same =>
    have keep := update_eq_self s (c.resetSeen loc fuel now seen)
    rw [show c.resetSeen loc fuel now seen s = s from if_neg unread] at keep
    rw [same, keep]
  · exact Charges.save_mapRows unique (fun r _ => resetSeen_id seen r) hs (resetRow_id s)

end

/-- A zone whose clocks go forward by an hour once. -/
def springForward (offset change : Int) (west : -86400 ≤ offset ∧ offset ≤ -3600) : Location where
  offset t := if t < change then offset else offset + 3600
  bounded t := by
    split <;> omega

theorem springForward_skips (midnight : change + offset = day * 86400) :
    (springForward offset change west).SkipsMidnight change day 3600 where
  forward := by decide
  west := by omega
  before t _ less := by
    simp only [springForward, if_pos less]
    omega
  after := by
    simp only [springForward, lt_irrefl, if_false]
    omega

/-- A daily plan does not get past a midnight that is skipped, in any zone that skips one. -/
theorem daily_never_ends (h : AtSkipped loc change day gap now sub plan) (fuel : Nat) :
    maybeResetUserSubscriptionWithPlanTx loc fuel sub plan now = none :=
  maybeReset_stuck h.due (h.next h.base) h.still fuel

/-- The midnight of 4 November 2018 in São Paulo. -/
theorem saoPaulo_skips :
    (springForward (-10800) 1541300400 (by decide)).SkipsMidnight 1541300400 17839 3600 :=
  springForward_skips (by decide)

theorem daily_never_ends_sao_paulo :
    maybeResetUserSubscriptionWithPlanTx (springForward (-10800) 1541300400 (by decide)) 999
      ⟨1, 7, 1, 0, 0, 1541250000, 0, .active, 0, 0, "", ""⟩
      { id := 1, quotaResetPeriod := "daily" } 1541300400 = none :=
  daily_never_ends ⟨saoPaulo_skips, by decide, by decide, by decide, by decide, by decide⟩ 999

end EastApi.Subscription
