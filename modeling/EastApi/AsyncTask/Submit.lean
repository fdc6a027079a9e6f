import EastApi.Lib.GoFloat
import EastApi.Lib.GoText
import Mathlib.Data.List.AList

/-! The price of an asynchronous task (`relay/relay_task.go`, `relay/helper/price.go`).
`ResolveOriginTask` puts the ratios of the origin into a price that every attempt replaces.  So they
are in force just where the adaptor estimates them again. -/

namespace EastApi.AsyncTask.Submit

open Go

/-- The map `OtherRatios`; a nil map is empty. -/
abbrev Ratios := AList fun _ : String => ℚ

def Ratios.values (ratios : Ratios) : List ℚ := ratios.entries.map fun entry => entry.2

def Ratios.add (ratios : Ratios) (key : String) (ratio : ℚ) : Ratios :=
  if ratio ≤ 0 then ratios else ratios.insert key ratio

def Ratios.addAll (ratios added : Ratios) : Ratios :=
  added.entries.foldl (fun ratios entry => ratios.add entry.1 entry.2) ratios

structure GroupRatioInfo where
  groupRatio : ℚ := 1
  groupSpecialRatio : ℚ := -1
  hasSpecialRatio : Bool := false

structure PriceData where
  freeModel : Bool := false
  modelPrice : ℚ := 0
  modelRatio : ℚ := 0
  otherRatios : Ratios := ∅
  usePrice : Bool := false
  quota : Int := 0
  groupRatioInfo : GroupRatioInfo := {}

def PriceData.addOtherRatio (p : PriceData) (key : String) (ratio : ℚ) : PriceData :=
  { p with otherRatios := p.otherRatios.add key ratio }

structure Settings where
  groupRatio : String → Option ℚ := fun _ => none
  groupGroupRatio : String → Option (String → Option ℚ) := fun _ => none
  modelPrice : String → Option ℚ := fun _ => none
  defaultModelPrice : String → Option ℚ := fun _ => none
  modelRatio : String → ℚ × Bool × String
  isAdmin : Int → Bool := fun _ => false
  quotaPerUnit : ℚ := 500000
  enableFreeModelPreConsume : Bool := true
  taskPricePatches : List String := []

def Settings.getGroupRatio (settings : Settings) (name : String) : ℚ :=
  (settings.groupRatio name).getD 1

def Settings.getGroupGroupRatio (settings : Settings) (userGroup usingGroup : String) : Option ℚ :=
  (settings.groupGroupRatio userGroup).bind fun ratios => ratios usingGroup

structure RelayInfo where
  userId : Int
  (userGroup usingGroup : String)
  originModelName : String := ""
  isRemix : Bool := false
  acceptUnsetRatioModel : Bool := false
  priceData : PriceData := {}
  billing : Option Int := none

structure TaskBillingContext where
  modelPrice : ℚ := 0
  groupRatio : ℚ := 0
  modelRatio : ℚ := 0
  otherRatios : Ratios := ∅
  originModelName : String := ""
  perCallBilling : Bool := false

structure OriginTask where
  billingContext : Option TaskBillingContext
  seconds : String := ""
  size : String := ""

def resolveOriginTask (origin : OriginTask) (info : RelayInfo) : RelayInfo :=
  if info.isRemix then
    match origin.billingContext with
    | some context =>
      { info with
        priceData := context.otherRatios.entries.foldl (fun p entry =>
          p.addOtherRatio entry.1 entry.2) info.priceData }
    | none =>
      let seconds := if (atoi origin.seconds).1 ≤ 0 then 4 else (atoi origin.seconds).1
      let size : ℚ :=
        if origin.size = "1792x1024" ∨ origin.size = "1024x1792" then 1666667 / 1000000 else 1
      { info with
        priceData.otherRatios :=
          (info.priceData.otherRatios.insert "seconds" seconds).insert "size" size }
  else info

variable (settings : Settings)

def handleGroupRatio (autoGroup : Option String) (info : RelayInfo) : GroupRatioInfo × RelayInfo :=
  let info := { info with usingGroup := autoGroup.getD info.usingGroup }
  match settings.getGroupGroupRatio info.userGroup info.usingGroup with
  | some ratio => (⟨ratio, ratio, true⟩, info)
  | none => ({ groupRatio := settings.getGroupRatio info.usingGroup }, info)

def modelPriceNotConfiguredError (modelName : String) (userId : Int) : String :=
  if settings.isAdmin userId then
    s!"模型 {modelName} 的价格未配置。请前往「系统设置 → 运营设置」开启自用模式，或在「系统设置 → 分组与模型定价设置」中为该模型配置价格；" ++
    s!"Model {modelName} price not configured. Go to System Settings → Operation Settings " ++
    "to enable self-use mode, or configure the model price in " ++
    "System Settings → Group & Model Pricing."
  else
    s!"模型 {modelName} 的价格尚未由管理员配置，暂时无法使用，请联系站点管理员开启该模型；" ++
    s!"Model {modelName} has not been priced by the administrator yet. " ++
    "Please contact the site administrator to enable this model."

/-- The price of a call.  The product, like that of `priceByRatio`, is exact here; the code takes it
in `float64`, whose rounding may change the quota. -/
def priceByCall (groupRatioInfo : GroupRatioInfo) (modelPrice : ℚ) : PriceData :=
  let free := !settings.enableFreeModelPreConsume &&
    (groupRatioInfo.groupRatio = 0 || modelPrice = 0)
  { freeModel := free
    modelPrice
    usePrice := true
    quota := if free then 0
      else truncate (modelPrice * settings.quotaPerUnit * groupRatioInfo.groupRatio)
    groupRatioInfo }

def priceByRatio (groupRatioInfo : GroupRatioInfo) (modelRatio : ℚ) : PriceData :=
  let free := !settings.enableFreeModelPreConsume &&
    (groupRatioInfo.groupRatio = 0 || modelRatio = 0)
  { freeModel := free
    modelPrice := -1
    modelRatio
    quota := if free then 0
      else truncate (modelRatio / 2 * settings.quotaPerUnit * groupRatioInfo.groupRatio)
    groupRatioInfo }

def modelPriceHelperPerCall (autoGroup : Option String) (info : RelayInfo) :
    Except String PriceData × RelayInfo :=
  let (groupRatioInfo, info) := handleGroupRatio settings autoGroup info
  match (settings.modelPrice info.originModelName).or
      (settings.defaultModelPrice info.originModelName) with
  | some modelPrice => (.ok (priceByCall settings groupRatioInfo modelPrice), info)
  | none =>
    let (modelRatio, success, matchName) := settings.modelRatio info.originModelName
    if !success ∧ !info.acceptUnsetRatioModel then
      (.error (modelPriceNotConfiguredError settings matchName info.userId), info)
    else (.ok (priceByRatio settings groupRatioInfo modelRatio), info)

def applyOtherRatios (modelName : String) (order : List ℚ) (quota : Int) : Int :=
  if modelName ∈ settings.taskPricePatches then quota
  else order.foldl (fun quota ra => if ra ≠ 1 then truncate (quota * ra) else quota) quota

/-- What an attempt finds: an error before the price, or the name of the model, the group of
`auto_group`, what the adaptor estimates, and the order in which `range` visits a map. -/
structure Attempt where
  rejected : Bool := false
  modelName : String
  autoGroup : Option String := none
  estimate : Ratios
  order : Ratios → List ℚ := Ratios.values

def relayTaskSubmit (attempt : Attempt) (info : RelayInfo) : RelayInfo × Option RelayInfo :=
  if attempt.rejected then (info, none)
  else
    let info := { info with originModelName := attempt.modelName }
    match modelPriceHelperPerCall settings attempt.autoGroup info with
    | (.error _, info) => (info, none)
    | (.ok priceData, info) =>
      let priceData := attempt.estimate.entries.foldl (fun p entry =>
        p.addOtherRatio entry.1 entry.2) priceData
      let quota := applyOtherRatios settings attempt.modelName
        (attempt.order priceData.otherRatios) priceData.quota
      let info := { info with priceData := { priceData with quota } }
      -- only the first attempt charges
      let billing := if info.billing.isNone ∧ !info.priceData.freeModel then
        some info.priceData.quota else info.billing
      ({ info with billing }, some info)

def relayTask : List Attempt → RelayInfo → List (Attempt × RelayInfo)
  | [], _ => []
  | attempt :: rest, info =>
    match relayTaskSubmit settings attempt info with
    | (info, some charging) => (attempt, charging) :: relayTask rest info
    | (info, none) => relayTask rest info

theorem Ratios.lookup_add (ratios : Ratios) (key other : String) (ratio : ℚ) :
    (ratios.add key ratio).lookup other =
      if 0 < ratio ∧ other = key then some ratio else ratios.lookup other := by
  unfold Ratios.add
  by_cases positive : 0 < ratio
  · rw [if_neg (not_le.mpr positive)]
    by_cases own : other = key
    · subst own
      rw [if_pos ⟨positive, rfl⟩, AList.lookup_insert]
    · rw [if_neg fun h => own h.2, AList.lookup_insert_ne own]
  · rw [if_pos (not_lt.mp positive), if_neg fun h => positive h.1]

theorem foldl_addOtherRatio (entries : List (Sigma fun _ : String => ℚ)) (p : PriceData) :
    entries.foldl (fun p entry => p.addOtherRatio entry.1 entry.2) p =
      { p with
        otherRatios :=
          entries.foldl (fun ratios entry => ratios.add entry.1 entry.2) p.otherRatios } := by
  induction entries generalizing p with
  | nil => rfl
  | cons entry rest ih => exact ih _

theorem lookup_foldl_add {entries : List (Sigma fun _ : String => ℚ)} (nodup : entries.NodupKeys)
    (ratios : Ratios) (key : String) :
    (entries.foldl (fun ratios entry => ratios.add entry.1 entry.2) ratios).lookup key =
      ((entries.dlookup key).filter (0 < ·)).or (ratios.lookup key) := by
  induction entries generalizing ratios with
  | nil => simp
  | cons entry rest ih =>
    obtain ⟨name, ratio⟩ := entry
    obtain ⟨fresh, nodup⟩ := List.nodupKeys_cons.mp nodup
    rw [List.foldl_cons, ih nodup, Ratios.lookup_add]
    by_cases own : key = name
    · subst own
      rw [List.dlookup_eq_none.mpr fresh, List.dlookup_cons_eq]
      by_cases positive : 0 < ratio <;> simp [Option.filter, positive]
    · rw [List.dlookup_cons_ne _ _ own]
      simp [own]

theorem Ratios.lookup_addAll (ratios added : Ratios) (key : String) :
    (ratios.addAll added).lookup key =
      ((added.lookup key).filter (0 < ·)).or (ratios.lookup key) :=
  lookup_foldl_add added.nodupKeys ratios key

variable {settings}

theorem modelPriceHelperPerCall_ok
    (priced : modelPriceHelperPerCall settings autoGroup info = (.ok p, after)) :
    p.otherRatios = ∅ ∧ (p.groupRatioInfo, after) = handleGroupRatio settings autoGroup info := by
  simp only [modelPriceHelperPerCall] at priced
  split at priced
  · cases priced
    exact ⟨rfl, rfl⟩
  · split at priced <;> cases priced
    exact ⟨rfl, rfl⟩

theorem relayTaskSubmit_charging
    (submitted : relayTaskSubmit settings attempt info = (after, some charging)) :
    charging.priceData.otherRatios = Ratios.addAll ∅ attempt.estimate ∧
      ∃ grouped, (charging.priceData.groupRatioInfo, grouped) =
          handleGroupRatio settings attempt.autoGroup
            { info with originModelName := attempt.modelName } ∧
        charging = { grouped with priceData := charging.priceData } := by
  simp only [relayTaskSubmit] at submitted
  split at submitted
  · cases submitted
  split at submitted
  · cases submitted
  next p grouped priced =>
    obtain ⟨others, group⟩ := modelPriceHelperPerCall_ok priced
    rw [foldl_addOtherRatio, others] at submitted
    cases submitted
    exact ⟨rfl, grouped, group, rfl⟩

theorem mem_relayTask (mem : (attempt, charging) ∈ relayTask settings attempts info) :
    charging.priceData.otherRatios = Ratios.addAll ∅ attempt.estimate := by
  induction attempts generalizing info with
  | nil => cases mem
  | cons first rest ih =>
    unfold relayTask at mem
    split at mem
    next submitted =>
      rcases List.mem_cons.mp mem with same | mem
      · cases same
        exact (relayTaskSubmit_charging submitted).1
      · exact ih mem
    · exact ih mem

/-- In every attempt of a remix, the ratios in force are those of the origin's billing context with
what the adaptor estimates on top, just if the adaptor estimates a positive ratio for every key of
the origin. -/
theorem remix_ratios_iff (origin : OriginTask) (context : TaskBillingContext) (info : RelayInfo)
    {attempts : List Attempt} {attempt : Attempt} {charging : RelayInfo}
    (mem : (attempt, charging) ∈ relayTask settings attempts
      (resolveOriginTask { origin with billingContext := some context }
        { info with isRemix := true })) :
    (∀ key, charging.priceData.otherRatios.lookup key =
        (context.otherRatios.addAll attempt.estimate).lookup key) ↔
      ∀ key ∈ context.otherRatios,
        ∃ ratio, 0 < ratio ∧ attempt.estimate.lookup key = some ratio := by
  rw [mem_relayTask mem]
  refine forall_congr' fun key => ?_
  rw [Ratios.lookup_addAll, Ratios.lookup_addAll, AList.lookup_empty]
  cases estimated : attempt.estimate.lookup key with
  | none => simp [eq_comm (a := none), AList.lookup_eq_none]
  | some ratio =>
    by_cases positive : 0 < ratio
    · simp [Option.filter, positive]
    · simp [Option.filter, positive, eq_comm (a := none), AList.lookup_eq_none]

def oneTenth : Settings where
  modelPrice _ := some (1 / 10)
  modelRatio _ := (0, false, "")

def eightSeconds : OriginTask where
  billingContext := some { otherRatios := (∅ : Ratios).insert "seconds" 8 }

def remixInfo : RelayInfo where
  userId := 1
  userGroup := "default"
  usingGroup := "default"
  isRemix := true

def estimatesSeconds : Attempt where
  modelName := "sora-2"
  estimate := (∅ : Ratios).insert "seconds" 4

theorem remix_ratios_iff_estimated :
    ∃ charging, (estimatesSeconds, charging) ∈
        relayTask oneTenth [estimatesSeconds] (resolveOriginTask eightSeconds remixInfo) ∧
      ∀ key, charging.priceData.otherRatios.lookup key =
        (Ratios.addAll ((∅ : Ratios).insert "seconds" 8) estimatesSeconds.estimate).lookup key := by
  have mem : (estimatesSeconds, _) ∈
      relayTask oneTenth [estimatesSeconds] (resolveOriginTask eightSeconds remixInfo) :=
    List.mem_cons_self
  refine ⟨_, mem, (remix_ratios_iff eightSeconds _ remixInfo mem).mpr fun key known => ?_⟩
  obtain rfl : key = "seconds" :=
    ((AList.mem_insert _).mp known).resolve_right (AList.notMem_empty _)
  exact ⟨4, by norm_num, AList.lookup_insert _⟩

/-- The adaptor of Sora estimates nothing for a remix: the eight seconds are charged as one. -/
theorem remix_loses_seconds :
    ((relayTask oneTenth [⟨false, "sora-2", none, ∅, Ratios.values⟩]
        (resolveOriginTask eightSeconds remixInfo)).map fun entry =>
      (entry.2.priceData.otherRatios.lookup "seconds", entry.2.priceData.quota)) =
      [(none, 50000)] := by
  decide +kernel

end EastApi.AsyncTask.Submit
