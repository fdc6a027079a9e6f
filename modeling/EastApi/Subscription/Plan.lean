import EastApi.Subscription.Model
import Mathlib.Algebra.Order.Ring.Rat

/-! The checks that the handlers of an administrator make before they store a subscription plan. -/

namespace EastApi.Subscription

open Go

def ResetPeriod.name : ResetPeriod → String
  | .never => "never"
  | .daily => "daily"
  | .weekly => "weekly"
  | .monthly => "monthly"
  | .custom => "custom"

@[simp] theorem normalizeResetPeriod_name (period : ResetPeriod) :
    normalizeResetPeriod period.name = period := by
  cases period <;> decide

structure PlanRequest where
  title : String
  priceAmount : ℚ
  plan : SubscriptionPlan
deriving Repr

def PlanRequest.row (req : PlanRequest) (id : Int) : SubscriptionPlan :=
  let unit := if req.plan.durationUnit = .other "" then .month else req.plan.durationUnit
  { req.plan with
    id := id
    durationUnit := unit
    durationValue :=
      if req.plan.durationValue ≤ 0 ∧ unit ≠ .custom then 1 else req.plan.durationValue
    upgradeGroup := trimSpace req.plan.upgradeGroup
    quotaResetPeriod := (normalizeResetPeriod req.plan.quotaResetPeriod).name }

def PlanRequest.check (req : PlanRequest) (groups : String → Bool) (id : Int) :
    Except String SubscriptionPlan :=
  let plan := req.row id
  if trimSpace req.title = "" then .error "套餐标题不能为空"
  else if req.priceAmount < 0 then .error "价格不能为负数"
  else if 9999 < req.priceAmount then .error "价格不能超过9999"
  else if plan.maxPurchasePerUser < 0 then .error "购买上限不能为负数"
  else if plan.totalAmount < 0 then .error "总额度不能为负数"
  else if plan.upgradeGroup ≠ "" ∧ groups plan.upgradeGroup = false then .error "升级分组不存在"
  else if plan.quotaResetPeriod = "custom" ∧ plan.quotaResetCustomSeconds ≤ 0 then
    .error "自定义重置周期需大于0秒"
  else .ok plan

def adminCreateSubscriptionPlan (groups : String → Bool) (newId : Int) (req : PlanRequest) :
    Except String SubscriptionPlan :=
  req.check groups newId

def adminUpdateSubscriptionPlan (groups : String → Bool) (id : Int) (req : PlanRequest) :
    Except String SubscriptionPlan :=
  if id ≤ 0 then .error "无效的ID" else req.check groups id

def Accepted (plan : SubscriptionPlan) : Prop :=
  ∃ groups id req, adminCreateSubscriptionPlan groups id req = .ok plan ∨
    adminUpdateSubscriptionPlan groups id req = .ok plan

theorem PlanRequest.check_ok {req : PlanRequest} {id : Int} {plan : SubscriptionPlan}
    (h : req.check groups id = .ok plan) :
    plan = req.row id ∧
      ¬ (plan.quotaResetPeriod = "custom" ∧ plan.quotaResetCustomSeconds ≤ 0) := by
  simp only [check] at h
  iterate 6
    split at h
    · cases h
  split at h
  · cases h
  next custom =>
    cases h
    exact ⟨rfl, custom⟩

theorem Accepted.custom_pos {plan : SubscriptionPlan} (accepted : Accepted plan)
    (custom : normalizeResetPeriod plan.quotaResetPeriod = .custom) :
    0 < plan.quotaResetCustomSeconds := by
  obtain ⟨groups, id, req, stored⟩ := accepted
  have checked : req.check groups id = .ok plan := by
    rcases stored with created | updated
    · exact created
    · unfold adminUpdateSubscriptionPlan at updated
      split at updated
      · cases updated
      · exact updated
  obtain ⟨rfl, positive⟩ := PlanRequest.check_ok checked
  have period : (req.row id).quotaResetPeriod = "custom" := by
    simp only [PlanRequest.row, normalizeResetPeriod_name] at custom ⊢
    rw [custom]
    rfl
  rcases Int.lt_or_le 0 (req.row id).quotaResetCustomSeconds with yes | no
  · exact yes
  · exact absurd ⟨period, no⟩ positive

end EastApi.Subscription
