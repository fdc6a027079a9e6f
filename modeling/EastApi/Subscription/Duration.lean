import EastApi.Lib.GoDate64
import EastApi.Subscription.Plan

/-! The end of a subscription, for every duration that the Go types hold.  The units of an hour, a
day and a second are multiplied to nanoseconds of 64 bits, and the calendar counts in words of 64
bits. -/

namespace EastApi.Subscription

open Go Int

section
variable (loc : Location)

def calcPlanEndTime64 (start : Int) (plan : SubscriptionPlan) : Except String Int :=
  if plan.durationValue ≤ 0 ∧ plan.durationUnit ≠ .custom then .error "duration_value must be > 0"
  else match plan.durationUnit with
    | .year => .ok (loc.addDate64 start plan.durationValue 0 0)
    | .month => .ok (loc.addDate64 start 0 plan.durationValue 0)
    | .day => .ok (addDuration start (plan.durationValue * 24 * 3600000000000))
    | .hour => .ok (addDuration start (plan.durationValue * 3600000000000))
    | .custom =>
      if plan.customSeconds ≤ 0 then .error "custom_seconds must be > 0"
      else .ok (addDuration start (plan.customSeconds * 1000000000))
    | .other unit => .error ("invalid duration_unit: " ++ unit)

theorem calcPlanEndTime64_eq (recent : 0 ≤ start ∧ start < 4102444800)
    (column : plan.durationValue < 2 ^ 31) :
    calcPlanEndTime64 loc start plan = calcPlanEndTime loc start plan := by
  unfold calcPlanEndTime64 calcPlanEndTime
  split
  · rfl
  next positive =>
    cases unit : plan.durationUnit with
    | year =>
      have forward : 0 ≤ plan.durationValue ∧ (0 : Int) ≤ 0 := by simp [unit] at positive; omega
      simp only [loc.addDate64_eq_addDate recent forward (by omega)]
    | month =>
      have forward : (0 : Int) ≤ 0 ∧ 0 ≤ plan.durationValue := by simp [unit] at positive; omega
      simp only [loc.addDate64_eq_addDate recent forward (by omega)]
    | day => rfl
    | hour => rfl
    | custom => rfl
    | other unit => rfl

def SubscriptionPlan.lasting (plan : SubscriptionPlan) (n : Int) : SubscriptionPlan :=
  if plan.durationUnit = .custom then { plan with customSeconds := n }
  else { plan with durationValue := n }

def EndsInOrder (start : Int) (plan : SubscriptionPlan) (last : Int) : Prop :=
  ∃ ends : Int → Int,
    (∀ n, 1 ≤ n → n ≤ last →
      calcPlanEndTime64 loc start (plan.lasting n) = .ok (ends n) ∧ start < ends n) ∧
    ∀ m n, 1 ≤ m → m < n → n ≤ last → ends m < ends n

def Fits (start : Int) : DurationUnit → Int → Prop
  | .year, n => loc.reached start (12 * n) < 2 ^ 63
  | .month, n => loc.reached start n < 2 ^ 63
  | .day, n => n * 86400000000000 < 2 ^ 63
  | .hour, n => n * 3600000000000 < 2 ^ 63
  | .custom, n => n * 1000000000 < 2 ^ 63
  | .other _, _ => False

variable {loc}

/-- The end is read from the word of a quantity that rises with the duration, and is not after the
start if the word is negative. -/
structure Counted (loc : Location) (start : Int) (plan : SubscriptionPlan)
    (quantity read : Int → Int) : Prop where
  ends : ∀ n, 1 ≤ n → quantity n < 2 ^ 64 →
    calcPlanEndTime64 loc start (plan.lasting n) = .ok (read (wrap64 (quantity n)))
  rises : ∀ m n, 1 ≤ m → m < n → quantity m < quantity n
  slow : ∀ n, 1 ≤ n → quantity (n + 1) ≤ quantity n + 2 ^ 62
  first : 0 ≤ quantity 1 ∧ quantity 1 < 2 ^ 63
  later : ∀ m n, 1 ≤ m → m < n → read (quantity m) < read (quantity n)
  after : start < read (quantity 1)
  behind : ∀ x, x < 0 → read x ≤ start

theorem Counted.endsInOrder_iff {quantity read : Int → Int}
    (counted : Counted loc start plan quantity read) (positive : 1 ≤ last) :
    EndsInOrder loc start plan last ↔ quantity last < 2 ^ 63 := by
  constructor
  · rintro ⟨ends, each, _⟩
    by_contra beyond
    obtain ⟨n, low, high, word, negative⟩ :=
      exists_wrap64_neg counted.first.2 counted.slow positive (not_lt.mp beyond)
    obtain ⟨value, after⟩ := each n low high
    rw [counted.ends n low word] at value
    have behind := counted.behind _ negative
    rw [Except.ok.inj value] at behind
    omega
  · intro fits
    have exact : ∀ n, 1 ≤ n → n ≤ last →
        wrap64 (quantity n) = quantity n ∧ quantity n < 2 ^ 63 := by
      intro n low high
      have upper : quantity n < 2 ^ 63 := by
        rcases lt_or_eq_of_le high with less | rfl
        · exact lt_trans (counted.rises n last low less) fits
        · exact fits
      have lower : 0 ≤ quantity n := by
        rcases lt_or_eq_of_le low with less | rfl
        · exact le_of_lt (lt_of_le_of_lt counted.first.1 (counted.rises 1 n (le_refl 1) less))
        · exact counted.first.1
      exact ⟨wrap64_of_fits (by omega) upper, upper⟩
    refine ⟨fun n => read (quantity n), fun n low high => ?_, fun m n low less _ =>
      counted.later m n low less⟩
    obtain ⟨word, upper⟩ := exact n low high
    refine ⟨by rw [counted.ends n low (by omega), word], ?_⟩
    rcases lt_or_eq_of_le low with less | rfl
    · exact lt_trans counted.after (counted.later 1 n (le_refl 1) less)
    · exact counted.after

theorem counted_seconds (unit : 1 ≤ seconds ∧ seconds ≤ 86400)
    (ends : ∀ n, 1 ≤ n → calcPlanEndTime64 loc start (plan.lasting n) =
      .ok (addDuration start (n * (seconds * 1000000000)))) :
    Counted loc start plan (fun n => n * (seconds * 1000000000))
      (fun x => start + x / 1000000000) := by
  have exact : ∀ n : Int, n * (seconds * 1000000000) / 1000000000 = n * seconds := by
    intro n
    rw [← Int.mul_assoc]
    exact Int.mul_ediv_cancel _ (by decide)
  have rises : ∀ m n : Int, m < n → m * seconds < n * seconds :=
    fun m n less => Int.mul_lt_mul_of_pos_right less (by omega)
  constructor
  · exact fun n low _ => ends n low
  · intro m n _ less
    have := rises m n less
    simp only [← Int.mul_assoc]
    omega
  · intro n _
    have next : (n + 1) * (seconds * 1000000000) =
        n * (seconds * 1000000000) + seconds * 1000000000 := by rw [Int.add_mul, Int.one_mul]
    rw [next]
    omega
  · omega
  · intro m n _ less
    have := rises m n less
    simp only [exact]
    omega
  · simp only [exact]
    omega
  · intro x negative
    show start + x / 1000000000 ≤ start
    omega

theorem counted_months (recent : 0 ≤ start ∧ start < 4102444800) {months : ℕ}
    (unit : 1 ≤ months ∧ months ≤ 12)
    (ends : ∀ n : Int, 1 ≤ n → months * n < 2 ^ 43 →
      calcPlanEndTime64 loc start (plan.lasting n) =
        .ok (wrap64 (loc.reached start (months * n)))) :
    Counted loc start plan (fun n => loc.reached start (months * n)) id := by
  have rises : ∀ m n : Int, 1 ≤ m → m < n →
      loc.reached start (months * m) < loc.reached start (months * n) := by
    intro m n _ less
    obtain ⟨k, hk⟩ : ∃ k : ℕ, n = m + (k + 1 : ℕ) := ⟨(n - m - 1).toNat, by omega⟩
    have more := (loc.reached_add start (months * m)
      (show 0 < months * (k + 1) from Nat.mul_pos (by omega) (by omega))).1
    rwa [hk, mul_add, ← natCast_mul]
  have first := loc.reached_bounds start months
  constructor
  · intro n low word
    refine ends n low ?_
    obtain ⟨k, rfl⟩ : ∃ k : ℕ, n = k := ⟨n.toNat, by omega⟩
    have bounds := loc.reached_bounds start (months * k)
    rw [natCast_mul] at bounds
    omega
  · exact rises
  · intro n low
    have step := (loc.reached_add start (months * n) (show 0 < months by omega)).2
    rw [mul_add, mul_one]
    omega
  · simp only [mul_one]
    omega
  · exact rises
  · simp only [mul_one, id]
    omega
  · intro x negative
    show x ≤ start
    omega

end

/-- For one unit, the plans with durations up to a bound end after they start and in the order of
their durations exactly if the greatest one fits. -/
theorem ends_in_order_iff (loc : Location) {start : Int}
    (recent : 0 ≤ start ∧ start < 4102444800) (plan : SubscriptionPlan) {last : Int}
    (positive : 1 ≤ last) :
    EndsInOrder loc start plan last ↔ Fits loc start plan.durationUnit last := by
  cases unit : plan.durationUnit with
  | year =>
    refine (counted_months recent (by decide : 1 ≤ 12 ∧ 12 ≤ 12) fun n low bound => ?_)
      |>.endsInOrder_iff positive
    simp only [calcPlanEndTime64, SubscriptionPlan.lasting, unit, reduceCtorEq, if_false]
    rw [if_neg (by simp; omega), loc.addDate64_eq recent (by omega) (by omega), add_zero]
    rfl
  | month =>
    have counted : Counted loc start plan (fun n => loc.reached start ((1 : ℕ) * n)) id := by
      refine counted_months recent (by decide) fun n low bound => ?_
      simp only [calcPlanEndTime64, SubscriptionPlan.lasting, unit, reduceCtorEq, if_false]
      rw [if_neg (by simp; omega), loc.addDate64_eq recent (by omega) (by omega), Nat.cast_one,
        one_mul, mul_zero, zero_add]
    have fits := counted.endsInOrder_iff positive
    rwa [Nat.cast_one, one_mul] at fits
  | day =>
    refine (counted_seconds (by decide : (1 : Int) ≤ 86400 ∧ (86400 : Int) ≤ 86400) fun n low => ?_)
      |>.endsInOrder_iff positive
    simp only [calcPlanEndTime64, SubscriptionPlan.lasting, unit, reduceCtorEq, if_false]
    rw [if_neg (by simp; omega), mul_assoc]
    rfl
  | hour =>
    refine (counted_seconds (by decide : (1 : Int) ≤ 3600 ∧ (3600 : Int) ≤ 86400) fun n low => ?_)
      |>.endsInOrder_iff positive
    simp only [calcPlanEndTime64, SubscriptionPlan.lasting, unit, reduceCtorEq, if_false]
    rw [if_neg (by simp; omega)]
    rfl
  | custom =>
    refine (counted_seconds (by decide : (1 : Int) ≤ 1 ∧ (1 : Int) ≤ 86400) fun n low => ?_)
      |>.endsInOrder_iff positive
    simp only [calcPlanEndTime64, SubscriptionPlan.lasting, unit, if_true]
    rw [if_neg (by simp), if_neg (by omega)]
    rfl
  | other name =>
    refine iff_of_false ?_ id
    rintro ⟨_, each, _⟩
    obtain ⟨value, _⟩ := each 1 (le_refl 1) positive
    simp [calcPlanEndTime64, SubscriptionPlan.lasting, unit] at value

theorem calcPlanEndTime64_eq_longest :
    calcPlanEndTime64 utc 1700000000 { id := 1, durationValue := 2 ^ 31 - 1 } =
      calcPlanEndTime utc 1700000000 { id := 1, durationValue := 2 ^ 31 - 1 } :=
  calcPlanEndTime64_eq utc (by decide) (by decide)

/-- A year of months. -/
theorem ends_in_order_iff_monthly : EndsInOrder utc 1700000000 { id := 1 } 12 :=
  (ends_in_order_iff utc (by decide) { id := 1 } (by decide)).mpr
    (show utc.reached 1700000000 12 < 2 ^ 63 by decide)

def durationRequest (unit : DurationUnit) (n : Int) : PlanRequest where
  title := "pro"
  priceAmount := 10
  plan := { id := 0, durationUnit := unit, durationValue := n, customSeconds := n }

def createdEnd (unit : DurationUnit) (n : Int) : Option (Except String Int) :=
  (adminCreateSubscriptionPlan (fun _ => true) 1 (durationRequest unit n)).toOption.map
    (calcPlanEndTime64 utc 1700000000)

/-- In each unit there is a plan that ends before it starts, one more than a plan that ends after
it; and a unit that is not known is stored, but has no end. -/
theorem created_plan_ends_before_start :
    [(DurationUnit.hour, 2562047), (.day, 106751), (.custom, 9223372036), (.year, 292277024573),
      (.month, 3507324294876)].Forall (fun (unit, n) =>
        (∃ e, createdEnd unit n = some (.ok e) ∧ 1700000000 < e) ∧
        (∃ e, createdEnd unit (n + 1) = some (.ok e) ∧ e < 1700000000)) ∧
    createdEnd (.other "week") 1 = some (.error "invalid duration_unit: week") := by
  refine ⟨⟨⟨⟨_, rfl, by decide⟩, _, rfl, by decide⟩, ⟨⟨_, rfl, by decide⟩, _, rfl, by decide⟩,
    ⟨⟨_, rfl, by decide⟩, _, rfl, by decide⟩, ⟨⟨_, rfl, by decide⟩, _, rfl, by decide⟩,
    ⟨⟨_, rfl, by decide⟩, _, rfl, by decide⟩⟩, rfl⟩

end EastApi.Subscription
