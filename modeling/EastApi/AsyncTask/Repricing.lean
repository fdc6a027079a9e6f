import EastApi.AsyncTask.Submit

/-! The price of a task that has reported its tokens (`service/task_billing.go`).
`RecalculateTaskQuotaByTokens` looks up the pair of the task's group with itself. -/

namespace EastApi.AsyncTask.Submit

open Go

structure Task where
  userId : Int
  (group originModelName : String)
  billingContext : Option TaskBillingContext

def initTask (settings : Settings) (info : RelayInfo) : Task where
  userId := info.userId
  group := info.usingGroup
  originModelName := info.originModelName
  billingContext := some
    { modelPrice := info.priceData.modelPrice
      groupRatio := info.priceData.groupRatioInfo.groupRatio
      modelRatio := info.priceData.modelRatio
      otherRatios := info.priceData.otherRatios
      originModelName := info.originModelName
      perCallBilling := info.originModelName ∈ settings.taskPricePatches ||
        info.priceData.usePrice }

def taskModelName (task : Task) : String :=
  match task.billingContext with
  | some context =>
    if context.originModelName ≠ "" then context.originModelName else task.originModelName
  | none => task.originModelName

structure Repricing where
  (groupRatio otherMultiplier : ℚ)
  actualQuota : Int

def taskGroup (users : Int → Option String) (task : Task) : String :=
  if task.group = "" then (users task.userId).getD "" else task.group

/-- `RecalculateTaskQuotaByTokens` up to its call of `RecalculateTaskQuota`, if it comes to that.
The groups of the users are those at that time.  The product of the ratios is exact here, not of
`float64`. -/
def recalculateTaskQuotaByTokens (settings : Settings) (users : Int → Option String) (task : Task)
    (totalTokens : Int) : Option Repricing :=
  if totalTokens ≤ 0 then none
  else
    let (modelRatio, hasRatioSetting, _) := settings.modelRatio (taskModelName task)
    if !hasRatioSetting ∨ modelRatio ≤ 0 then none
    else
      let group := taskGroup users task
      if group = "" then none
      else
        let finalGroupRatio :=
          (settings.getGroupGroupRatio group group).getD (settings.getGroupRatio group)
        let otherMultiplier := match task.billingContext with
          | some context =>
            (context.otherRatios.values.filter fun r => r ≠ 1 ∧ 0 < r).prod
          | none => 1
        some
          { groupRatio := finalGroupRatio
            otherMultiplier
            actualQuota :=
              truncate (totalTokens * modelRatio * finalGroupRatio * otherMultiplier) }

/-- The entries of the two tables that decide if the ratio stays: that of the user's group with the
group in use, that of the task's group with itself, and the plain ratios where one is missing. -/
def SameGroupRatio (settings : Settings) (userGroup usingGroup : String) : Prop :=
  let group := if usingGroup = "" then userGroup else usingGroup
  match settings.getGroupGroupRatio userGroup usingGroup,
      settings.getGroupGroupRatio group group with
  | some special, some own => special = own
  | some special, none => special = settings.getGroupRatio group
  | none, some own => own = settings.getGroupRatio usingGroup
  | none, none => settings.getGroupRatio usingGroup = settings.getGroupRatio group

theorem sameGroupRatio_iff (userGroup usingGroup group : String)
    (ofTask : group = if usingGroup = "" then userGroup else usingGroup) :
    SameGroupRatio settings userGroup usingGroup ↔
      (settings.getGroupGroupRatio userGroup usingGroup).getD
          (settings.getGroupRatio usingGroup) =
        (settings.getGroupGroupRatio group group).getD (settings.getGroupRatio group) := by
  unfold SameGroupRatio
  dsimp only
  rw [← ofTask]
  cases settings.getGroupGroupRatio userGroup usingGroup <;>
    cases settings.getGroupGroupRatio group group <;> simp [eq_comm]

theorem handleGroupRatio_info (autoGroup : Option String) (info : RelayInfo) :
    (handleGroupRatio settings autoGroup info).2 =
      { info with usingGroup := autoGroup.getD info.usingGroup } := by
  unfold handleGroupRatio
  dsimp only
  split <;> rfl

theorem relayTaskSubmit_group
    (submitted : relayTaskSubmit settings attempt info = (after, some charging)) :
    charging.userId = info.userId ∧
      charging.usingGroup = attempt.autoGroup.getD info.usingGroup ∧
      charging.priceData.groupRatioInfo.groupRatio =
        (settings.getGroupGroupRatio info.userGroup (attempt.autoGroup.getD info.usingGroup)).getD
          (settings.getGroupRatio (attempt.autoGroup.getD info.usingGroup)) := by
  obtain ⟨-, grouped, group, charged⟩ := relayTaskSubmit_charging submitted
  obtain ⟨ratio, relay⟩ := Prod.ext_iff.mp group
  rw [handleGroupRatio_info] at relay
  dsimp only at ratio relay
  refine ⟨?_, ?_, ?_⟩
  · rw [charged, relay]
  · rw [charged, relay]
  · rw [ratio, handleGroupRatio]
    dsimp only
    split <;> rename_i entry <;> rw [entry] <;> rfl

theorem recalculate_groupRatio
    (repriced : recalculateTaskQuotaByTokens settings users task totalTokens = some repricing) :
    repricing.groupRatio =
      (settings.getGroupGroupRatio (taskGroup users task) (taskGroup users task)).getD
        (settings.getGroupRatio (taskGroup users task)) := by
  revert repriced
  fun_cases recalculateTaskQuotaByTokens settings users task totalTokens <;>
    intro repriced <;> cases repriced
  rfl

/-- The group ratio of a task that is priced again by its tokens is the one stored at its
submission, just if the entries of the two tables agree. -/
theorem repricing_group_ratio_iff {attempt : Attempt} {info after charging : RelayInfo}
    (submitted : relayTaskSubmit settings attempt info = (after, some charging))
    {users : Int → Option String} (member : users info.userId = some info.userGroup)
    {totalTokens : Int} {repricing : Repricing}
    (repriced : recalculateTaskQuotaByTokens settings users (initTask settings charging)
      totalTokens = some repricing) :
    (initTask settings charging).billingContext.map (·.groupRatio) = some repricing.groupRatio ↔
      SameGroupRatio settings info.userGroup (attempt.autoGroup.getD info.usingGroup) := by
  obtain ⟨userId, group, ratio⟩ := relayTaskSubmit_group submitted
  have again := recalculate_groupRatio repriced
  have ofTask : taskGroup users (initTask settings charging) =
      if attempt.autoGroup.getD info.usingGroup = "" then info.userGroup
      else attempt.autoGroup.getD info.usingGroup := by
    simp only [taskGroup, initTask, group, userId, member, Option.getD_some]
  rw [sameGroupRatio_iff _ _ _ ofTask, ← ratio, ← again]
  simp [initTask]

def vipSettings : Settings where
  groupGroupRatio userGroup := if userGroup = "vip" then
    some fun usingGroup => if usingGroup = "default" then some (1 / 2) else none else none
  modelRatio name := (1, true, name)

def taskInfo (userGroup : String) : RelayInfo where
  userId := 1
  userGroup
  usingGroup := "default"

def plainAttempt : Attempt where
  modelName := "sora-2"
  estimate := ∅

def defaultCharging : RelayInfo :=
  (relayTaskSubmit vipSettings plainAttempt (taskInfo "default")).2.getD (taskInfo "default")

theorem repricing_group_ratio_iff_default :
    ∃ repricing,
      recalculateTaskQuotaByTokens vipSettings (fun _ => some "default")
          (initTask vipSettings defaultCharging) 1000 = some repricing ∧
        (initTask vipSettings defaultCharging).billingContext.map (·.groupRatio) =
          some repricing.groupRatio := by
  have submitted : relayTaskSubmit vipSettings plainAttempt (taskInfo "default") =
      (_, some defaultCharging) := rfl
  have repriced : recalculateTaskQuotaByTokens vipSettings (fun _ => some "default")
      (initTask vipSettings defaultCharging) 1000 = some _ := rfl
  have same : SameGroupRatio vipSettings "default" "default" := by
    rw [sameGroupRatio_iff "default" "default" "default" rfl]
  exact ⟨_, repriced, (repricing_group_ratio_iff submitted rfl repriced).mpr same⟩

/-- A user of the group `vip` is charged half in advance, and the full ratio for the tokens. -/
theorem repricing_drops_special_ratio :
    ((relayTaskSubmit vipSettings plainAttempt (taskInfo "vip")).2.map fun charging =>
      (charging.priceData.groupRatioInfo.groupRatio,
        (recalculateTaskQuotaByTokens vipSettings (fun _ => some "vip")
          (initTask vipSettings charging) 1000).map (·.groupRatio))) =
      some (1 / 2, some 1) := by
  decide +kernel

end EastApi.AsyncTask.Submit
