import EastApi.AsyncTask.Refund
import EastApi.AsyncTask.Repricing
import EastApi.AsyncTask.Selection
import EastApi.Subscription.Charge

/-! What a task has cost, next to the quota that is stored with it.  So the stored quota is what the
task has cost only while every billing call leaves the funding source alone. -/

namespace EastApi.AsyncTask

open Run Subscription Submit Function

/-- The used amount of a subscription, 0 for one that is not there. -/
def usedAmount (subs : Charges) (id : Int) : Int :=
  ((subs.subs.find? (·.id = id)).map (·.amountUsed)).getD 0

/-- The subscription row that pays for the task. -/
def Task.payer (task : Task) (subs : Charges) : Option UserSubscription :=
  subs.subs.find? (·.id = task.privateData.subscriptionId)

/-- `taskAdjustFunding`: what the funding source of the task is charged for a difference of `delta`,
or `none` where the subscription refuses it. -/
def taskAdjustFunding (subs : Charges) (task : Task) (delta : Int) : Option Int :=
  if taskIsSubscription task then
    match postConsumeUserSubscriptionDelta subs task.privateData.subscriptionId delta with
    | .ok after => some (usedAmount after task.privateData.subscriptionId -
        usedAmount subs task.privateData.subscriptionId)
    | .error _ => none
  else some delta

/-- What `RefundTaskQuota` charges the funding source: not positive for a positive quota. -/
def refundCharge (subs : Charges) (task : Task) : Int :=
  if task.quota = 0 then 0 else (taskAdjustFunding subs task (-task.quota)).getD 0

/-- `RecalculateTaskQuota`: the task with its quota in memory, and what it has charged. -/
def recalculateTaskQuota (subs : Charges) (task : Task) (actualQuota : Int) : Task × Int :=
  if actualQuota ≤ 0 then (task, 0)
  else if actualQuota - task.quota = 0 then (task, 0)
  else match taskAdjustFunding subs task (actualQuota - task.quota) with
    | none => (task, 0)
    | some charge => ({ task with quota := actualQuota }, charge)

/-- `settleTaskBillingOnComplete` up to its call of `RecalculateTaskQuota`, if it comes to that.
`adjusted` is what `AdjustBillingOnComplete` of the adaptor returns. -/
def settleTaskBillingOnComplete (settings : Settings) (users : Int → Option String)
    (priced : Submit.Task) (adjusted totalTokens : Int) : Option Int :=
  if priced.billingContext.any (·.perCallBilling) then none
  else if 0 < adjusted then some adjusted
  else if 0 < totalTokens then
    (recalculateTaskQuotaByTokens settings users priced totalTokens).map (·.actualQuota)
  else none

/-- What a submission was charged in advance: nothing for a free model, or a quota from the wallet
or from a subscription, which gives at least one unit. -/
inductive Prepaid
  | free
  | wallet (quota : Int)
  | subscription (quota : Int)
deriving DecidableEq, Repr

/-- What `RelayTask` has charged for a task when it stores it: the charge in advance, and the
difference to the final quota in `SettleBilling`.  A wallet is not charged a negative quota in
advance, but the difference is taken to it. -/
def Prepaid.charge (subs : Charges) (task : Task) : Prepaid → Int
  | .free => task.quota
  | .wallet quota => (if quota ≤ 0 then 0 else quota) + (task.quota - quota)
  | .subscription quota =>
    let pre := if quota ≤ 0 then 1 else quota
    pre + if task.quota - pre = 0 then 0
      else (taskAdjustFunding subs task (task.quota - pre)).getD 0

/-- The task and its workers, the tokens that each worker's last answer reported, and the net amount
that the funding source has been charged for the task. -/
structure Account (ω : Type) where
  sys : Sys ω
  tokens : ω → Int
  net : Int

/-- An action of a worker with what it finds outside of the task: the subscriptions, the settings,
the groups of the users, and the adjustment of the adaptor. -/
structure Move (ω : Type) where
  action : Action ω
  subs : Charges
  settings : Settings
  users : Int → Option String
  adjusted : Int

section
variable {ω : Type} [DecidableEq ω] (cfg : Config) (priced : Submit.Task)

def Account.actualQuota (s : Account ω) (m : Move ω) (w : ω) : Option Int :=
  settleTaskBillingOnComplete m.settings m.users priced m.adjusted (s.tokens w)

def Account.step (s : Account ω) (m : Move ω) : Option (Account ω) :=
  (AsyncTask.step cfg s.sys m.action).map fun sys =>
    match m.action with
    | .video w body _ =>
      { s with
        sys
        tokens := update s.tokens w
          (((body.bind VideoBody.answer).map (·.totalTokens)).getD 0) }
    | .sunoItem w item =>
      match s.sys.phase w, sys.phase w with
      | .holding _ copy, .saving new =>
        if item.fails copy then { s with sys, net := s.net + refundCharge m.subs new }
        else { s with sys }
      | _, _ => { s with sys }
    | .bill w =>
      match s.sys.phase w with
      | .billing _ task .refund => { s with sys, net := s.net + refundCharge m.subs task }
      | .billing loader task .settle =>
        match s.actualQuota priced m w with
        | none => { s with sys }
        | some actual =>
          let settled := recalculateTaskQuota m.subs task actual
          { s with
            sys := sys.setPhase w (.afterWrite loader settled.1 none)
            net := s.net + settled.2 }
      | _ => { s with sys }
    | _ => { s with sys }

def Account.submitted (row : Task) (prepaid : Prepaid) (subs : Charges) : Account ω where
  sys := Sys.start row
  tokens := fun _ => 0
  net := prepaid.charge subs row

/-- The subscription that pays for the task has no room for a difference, or is not there. -/
def Refuses (subs : Charges) (task : Task) (delta : Int) : Prop :=
  taskIsSubscription task = true ∧ ∀ sub, task.payer subs = some sub →
    0 < sub.amountTotal ∧ sub.amountTotal < sub.amountUsed + delta

/-- The refund of the task gives nothing back: its quota is 0, or it is paid by a subscription that
is not there, has nothing used, or has no room for a negative quota. -/
def RefundsNothing (subs : Charges) (task : Task) : Prop :=
  task.quota = 0 ∨ taskIsSubscription task = true ∧ ∀ sub, task.payer subs = some sub →
    sub.amountUsed = 0 ∧ 0 ≤ task.quota ∨
      0 < sub.amountTotal ∧ sub.amountTotal < sub.amountUsed - task.quota

/-- The charge in advance and the final quota add up: a wallet was not charged a negative quota in
advance, and a subscription was charged the final quota or takes the whole difference to it. -/
def Prepaid.addsUp (subs : Charges) (task : Task) : Prepaid → Prop
  | .free => True
  | .wallet quota => 0 ≤ quota
  | .subscription quota =>
    let pre := if quota ≤ 0 then 1 else quota
    task.quota = pre ∨ taskIsSubscription task = false ∨ ∃ sub, task.payer subs = some sub ∧
      0 ≤ sub.amountUsed + (task.quota - pre) ∧
      (0 < sub.amountTotal → sub.amountUsed + (task.quota - pre) ≤ sub.amountTotal)

/-- The settlement for `actual` leaves the quota as it is: there is no price, it is the quota that
was charged, or the subscription has no room for the difference. -/
def SettlesAsStored (subs : Charges) (task : Task) (actual : Int) : Prop :=
  actual ≤ 0 ∨ actual = task.quota ∨ Refuses subs task (actual - task.quota)

/-- A refund, of a failed Suno item or of a worker that owes one, gives nothing back, and a
settlement leaves the quota as it is. -/
def billsAsStored (s : Account ω) (m : Move ω) : Prop :=
  match m.action with
  | .sunoItem w item => ∀ copy, s.sys.phase w = .holding .poll copy →
      taskNeedsUpdate cfg.marshal copy item = true → item.fails copy = true →
        RefundsNothing m.subs copy
  | .bill w => ∀ loader task call, s.sys.phase w = .billing loader task call →
      match call with
      | .refund => RefundsNothing m.subs task
      | .settle => ∀ actual, s.actualQuota priced m w = some actual →
          SettlesAsStored m.subs task actual
  | _ => True

end

theorem usedAmount_save {subs : Charges} {id : Int}
    (found : subs.subs.find? (·.id = id) = some sub) (used : Int) :
    usedAmount (subs.save { sub with amountUsed := used }) id = used := by
  have own : sub.id = id := by simpa using List.find?_some found
  let row : UserSubscription → UserSubscription := fun s =>
    if s.id = sub.id then { sub with amountUsed := used } else s
  have same : (fun s : UserSubscription => decide (s.id = id)) ∘ row =
      fun s => decide (s.id = id) := by
    funext s
    simp only [row, comp_apply]
    split <;> simp_all
  rw [usedAmount, Charges.save, List.find?_map, same, found]
  simp

theorem taskAdjustFunding_eq (subs : Charges) (task : Task) (nonzero : delta ≠ 0) :
    taskAdjustFunding subs task delta =
      if taskIsSubscription task then (task.payer subs).bind fun sub =>
        if 0 < sub.amountTotal ∧ sub.amountTotal < sub.amountUsed + delta then none
        else some (max (sub.amountUsed + delta) 0 - sub.amountUsed)
      else some delta := by
  unfold taskAdjustFunding
  split
  next paid =>
    have named : 0 < task.privateData.subscriptionId := by
      simp only [taskIsSubscription, Bool.and_eq_true, decide_eq_true_eq] at paid
      exact paid.2
    rw [postConsumeUserSubscriptionDelta, if_neg (by omega), if_neg nonzero, Task.payer]
    cases found : subs.subs.find? (·.id = task.privateData.subscriptionId) with
    | none => rfl
    | some sub =>
      simp only [Option.bind_some]
      by_cases full : 0 < sub.amountTotal ∧ sub.amountTotal < sub.amountUsed + delta
      · rw [if_pos full, if_pos (by omega)]
      · rw [if_neg full, if_neg (by omega)]
        simp only [usedAmount_save found]
        simp [usedAmount, found]
  · rfl

theorem taskAdjustFunding_none_iff (subs : Charges) (task : Task) (nonzero : delta ≠ 0) :
    taskAdjustFunding subs task delta = none ↔ Refuses subs task delta := by
  rw [taskAdjustFunding_eq subs task nonzero, Refuses]
  cases taskIsSubscription task <;> cases task.payer subs <;> simp

theorem refundCharge_eq_zero_iff (subs : Charges) (task : Task) :
    refundCharge subs task = 0 ↔ RefundsNothing subs task := by
  unfold refundCharge RefundsNothing
  by_cases zero : task.quota = 0
  · simp [zero]
  rw [if_neg zero, taskAdjustFunding_eq subs task (by omega)]
  cases taskIsSubscription task with
  | false => simp [zero]
  | true =>
    cases task.payer subs with
    | none => simp
    | some sub =>
      simp only [if_true, Option.bind_some, zero, false_or, true_and, Option.some.injEq,
        forall_eq']
      split
      · simp
        omega
      · simp
        omega

theorem Prepaid.charge_eq_iff (subs : Charges) (task : Task) (prepaid : Prepaid) :
    task.quota = prepaid.charge subs task ↔ prepaid.addsUp subs task := by
  cases prepaid with
  | free => simp [charge, addsUp]
  | wallet quota =>
    simp only [charge, addsUp]
    split <;> omega
  | subscription quota =>
    simp only [charge, addsUp]
    generalize (if quota ≤ 0 then 1 else quota) = pre
    by_cases exact_ : task.quota = pre
    · simp [exact_]
    rw [if_neg (by omega), taskAdjustFunding_eq subs task (by omega)]
    cases taskIsSubscription task with
    | false => simp
    | true =>
      cases task.payer subs with
      | none => simp [exact_]
      | some sub =>
        simp only [if_true, Option.bind_some, exact_, false_or, Option.some.injEq,
          exists_eq_left', Bool.true_eq_false]
        split
        · simp
          omega
        · simp
          omega

section
variable {ω : Type} [DecidableEq ω]

structure QuotaKept (q : Int) (s : Sys ω) : Prop where
  row : s.row.quota = q
  copies : ∀ w c, (s.phase w).task = some c → c.quota = q

variable {s t : Sys ω} {w : ω}

theorem QuotaKept.update (h : QuotaKept q s) (row : t.row.quota = q)
    (phase : t.phase = update s.phase w p) (hp : ∀ c, p.task = some c → c.quota = q) :
    QuotaKept q t := by
  refine ⟨row, ?_⟩
  rw [phase, forall_update_iff s.phase fun _ r => ∀ c, r.task = some c → c.quota = q]
  exact ⟨hp, fun v _ => h.copies v⟩

omit [DecidableEq ω] in
theorem QuotaKept.holding (h : QuotaKept q s) (hold : s.phase w = .holding loader c) :
    c.quota = q :=
  h.copies w c (by simp [hold, Phase.task])

theorem writeVideo_quota (hrow : row.quota = q) (hnew : new.quota = q) :
    (writeVideo row copy new billing).row.quota = q := by
  rcases writeVideo_row row copy new billing with h | h <;> rw [h] <;> assumption

theorem QuotaKept.step (h : QuotaKept q s) (hs : step cfg s a = some t) : QuotaKept q t := by
  have keep : ∀ {c c' : Task}, c.quota = q → SameCharge c c' → c'.quota = q :=
    fun hc charge => charge.quota.trans hc
  cases step_effect cfg hs with
  | load => exact h.update h.row rfl fun c hc => by cases hc; exact h.row
  | videoStop hold _ read =>
    exact h.update h.row rfl fun c hc => by
      cases hc
      exact keep (h.holding hold) (readVideo_stop _ read)
  | video hold _ read =>
    have new := keep (h.holding hold) (readVideo_write _ read).1
    exact h.update (writeVideo_quota h.row new) rfl fun c hc => by
      rw [task_afterWrite hc]
      exact new
  | sweepWon hold =>
    have copy := h.holding hold
    exact h.update copy rfl fun c hc => by
      rw [task_afterWrite hc]
      exact copy
  | realtimeWon hold =>
    exact h.update (keep (h.holding hold) (realtimeTask_charge _ _ _)) rfl fun c hc => by cases hc
  | sunoSkip hold | sunoItem hold =>
    have copy := h.holding hold
    exact h.update h.row rfl fun c hc => by cases hc; exact copy
  | @sunoSave w task save =>
    have saved : task.quota = q := h.copies w task (by simp [save, Phase.task])
    exact h.update saved rfl fun c hc => by cases hc; exact saved
  | @bill w loader task call owed =>
    exact h.update h.row rfl fun c hc => by
      rw [task_afterWrite hc]
      exact h.copies w task (by simp [owed, Phase.task])
  | @again w task done =>
    exact h.update h.row rfl fun c hc => by
      cases hc
      exact h.copies w task (by simp [done, Phase.task])
  | _ => exact h.update h.row rfl fun c hc => by cases hc

def PollersSettle (s : Sys ω) : Prop :=
  ∀ w loader task, s.phase w = .billing loader task .settle → loader = .poll

theorem PollersSettle.update (h : PollersSettle s) (phase : t.phase = update s.phase w p)
    (hp : ∀ loader task, p = .billing loader task .settle → loader = .poll) : PollersSettle t := by
  intro v loader task hv
  rw [phase] at hv
  rcases of_update_eq hv with ⟨-, own⟩ | ⟨-, other⟩
  · exact hp loader task own
  · exact h v loader task other

theorem afterWrite_none_ne_billing (loader loader' : Loader) (task task' : Task)
    (call : BillingCall) : Phase.afterWrite loader task none ≠ .billing loader' task' call := by
  cases loader <;> simp [Phase.afterWrite]

theorem PollersSettle.step (h : PollersSettle s) (hs : step cfg s a = some t) :
    PollersSettle t := by
  cases step_effect cfg hs with
  | @video w body now copy new billing =>
    refine h.update rfl fun loader task hp => ?_
    generalize (writeVideo s.row copy new billing).billing = owed at hp
    cases owed with
    | none => exact absurd hp (afterWrite_none_ne_billing _ _ _ _ _)
    | some call => cases hp; rfl
  | @sweepWon w now copy =>
    refine h.update rfl fun loader task hp => ?_
    unfold sweepBilling at hp
    split at hp
    · cases hp
    · exact absurd hp (afterWrite_none_ne_billing _ _ _ _ _)
  | bill =>
    exact h.update rfl fun loader task hp => absurd hp (afterWrite_none_ne_billing _ _ _ _ _)
  | _ => exact h.update rfl fun loader task hp => by cases hp

structure Balanced (s : Account ω) : Prop where
  kept : QuotaKept s.net s.sys
  settles : PollersSettle s.sys

theorem recalculateTaskQuota_of_settles (h : SettlesAsStored subs task actual) :
    recalculateTaskQuota subs task actual = (task, 0) := by
  unfold recalculateTaskQuota
  split
  · rfl
  next positive =>
    split
    · rfl
    next different =>
      rcases h with none | same | refused
      · exact absurd none positive
      · exact absurd (by omega) different
      · rw [(taskAdjustFunding_none_iff subs task different).mpr refused]

theorem recalculateTaskQuota_of_not_settles (h : ¬ SettlesAsStored subs task actual) :
    actual ≠ task.quota ∧
      (recalculateTaskQuota subs task actual).1 = { task with quota := actual } := by
  simp only [SettlesAsStored, not_or] at h
  obtain ⟨positive, different, taken⟩ := h
  rw [← taskAdjustFunding_none_iff subs task (by omega)] at taken
  obtain ⟨charge, taken⟩ := Option.ne_none_iff_exists'.mp taken
  refine ⟨different, ?_⟩
  rw [recalculateTaskQuota, if_neg positive, if_neg (by omega), taken]

variable {s : Account ω}

theorem settle_balanced_iff (kept : QuotaKept s.net sys) (settles : PollersSettle sys)
    (quota : task.quota = s.net) :
    Balanced { s with
        sys := sys.setPhase w
          (.afterWrite .poll (recalculateTaskQuota subs task actual).1 none)
        net := s.net + (recalculateTaskQuota subs task actual).2 } ↔
      SettlesAsStored subs task actual := by
  constructor
  · intro balanced
    by_contra changes
    obtain ⟨different, copy⟩ := recalculateTaskQuota_of_not_settles changes
    have row : s.net = s.net + (recalculateTaskQuota subs task actual).2 :=
      kept.row.symm.trans balanced.kept.row
    have mine := balanced.kept.copies w _ (by rw [Sys.setPhase_same, copy]; rfl)
    dsimp only at mine
    omega
  · intro same
    rw [recalculateTaskQuota_of_settles same]
    refine ⟨?_, settles.update rfl fun loader task hp =>
      absurd hp (afterWrite_none_ne_billing _ _ _ _ _)⟩
    rw [show s.net + (0 : Int) = s.net by omega]
    exact kept.update kept.row rfl fun c hc => by
      rw [task_afterWrite hc]
      exact quota

omit [DecidableEq ω] in
theorem balanced_of_net (kept : QuotaKept s.net sys) (settles : PollersSettle sys) :
    Balanced { s with sys := sys, net := s.net + charge } ↔ charge = 0 := by
  constructor
  · intro balanced
    have row : s.net = s.net + charge := kept.row.symm.trans balanced.kept.row
    omega
  · rintro rfl
    exact ⟨by rw [show s.net + (0 : Int) = s.net by omega]; exact kept, settles⟩

theorem Balanced.step_iff {t : Account ω} (h : Balanced s) (hs : s.step cfg priced m = some t) :
    Balanced t ↔ billsAsStored cfg priced s m := by
  obtain ⟨sys, hsys, rfl⟩ := Option.map_eq_some_iff.mp hs
  have kept := h.kept.step hsys
  have settles := h.settles.step hsys
  obtain ⟨action, subs, settings, users, adjusted⟩ := m
  cases action with
  | sunoItem w item =>
    simp only [billsAsStored]
    simp only [step] at hsys
    split at hsys
    next copy hold =>
      split at hsys
      · split at hsys
        next update =>
          cases hsys
          -- the item changes neither the quota nor the funding of the copy
          have same : refundCharge subs (sunoTask copy item) = refundCharge subs copy := rfl
          simp only [hold, Sys.setPhase_same, same]
          by_cases fails : item.fails copy = true
          · rw [if_pos fails, balanced_of_net kept settles, refundCharge_eq_zero_iff]
            exact ⟨fun zero c hc _ _ => by cases hc; exact zero, fun ok => ok copy rfl update fails⟩
          · rw [if_neg fails]
            exact iff_of_true ⟨kept, settles⟩ fun c hc _ fails' => by
              cases hc
              exact absurd fails' fails
        next skip =>
          cases hsys
          simp only [hold, Sys.setPhase_same]
          exact iff_of_true ⟨kept, settles⟩ fun c hc update => by
            cases hc
            exact absurd update skip
      · contradiction
    · contradiction
  | bill w =>
    simp only [billsAsStored]
    simp only [step] at hsys
    split at hsys <;> cases hsys
    rename_i loader task call owed
    have quota : task.quota = s.net := h.kept.copies w task (by simp [owed, Phase.task])
    simp only [owed]
    cases call with
    | refund =>
      rw [balanced_of_net kept settles, refundCharge_eq_zero_iff]
      exact ⟨fun zero l c call hc => by cases hc; exact zero, fun ok => ok loader task _ rfl⟩
    | settle =>
      obtain rfl := h.settles w loader task owed
      cases settled : s.actualQuota priced ⟨.bill w, subs, settings, users, adjusted⟩ w with
      | none =>
        refine iff_of_true ⟨kept, settles⟩ fun l c call hc => ?_
        cases hc
        simp
      | some actual =>
        refine (settle_balanced_iff kept settles quota).trans ?_
        exact ⟨fun same l c call hc => by cases hc; simpa using same,
          fun ok => ok .poll task .settle rfl actual rfl⟩
  | _ => exact iff_of_true ⟨kept, settles⟩ trivial

omit [DecidableEq ω] in
theorem Balanced.submitted {row : Task} (charged : row.quota = prepaid.charge subs row) :
    Balanced (Account.submitted row prepaid subs : Account ω) :=
  ⟨⟨charged, fun _ _ hc => by cases hc⟩, fun _ _ _ hp => by cases hp⟩

/-- A submission stores what it was charged exactly if its charges add up.  From there, in any run
of the workers in which no billing call changes what the task has cost, the stored quota is at every
point the net amount that the funding source was charged.  The next billing call that does change it
is the first to break this, in the row or in a copy that may still be stored. -/
theorem stored_quota_is_net (row : Task) (prepaid : Prepaid) (subs : Charges) :
    (row.quota = prepaid.charge subs row ↔ prepaid.addsUp subs row) ∧
    (prepaid.addsUp subs row → ∀ (moves : List (Move ω)) (s : Account ω),
      Path (billsAsStored cfg priced) (Account.step cfg priced)
        (Account.submitted row prepaid subs) moves s →
      s.sys.row.quota = s.net ∧
        ∀ m t, s.step cfg priced m = some t → (Balanced t ↔ billsAsStored cfg priced s m)) := by
  refine ⟨prepaid.charge_eq_iff subs row, fun adds moves s run => ?_⟩
  have balanced : Balanced s :=
    run.invariant (I := Balanced) (fun _ _ _ h ok hs => (h.step_iff hs).mpr ok)
      (.submitted ((prepaid.charge_eq_iff subs row).mpr adds))
  exact ⟨balanced.kept.row, fun m t hs => balanced.step_iff hs⟩

end

def tokenPriced : Submit.Task where
  userId := 7
  group := "default"
  originModelName := "seedance"
  billingContext := none

def noSubscriptions : Charges where
  subs := []
  plans := fun _ => none
  records := []

def completion (adjusted : Int) : List (Move Bool) :=
  [.load true .poll 0,
   .video true (some ⟨none, some { status := "SUCCESS" }, .unparsable, "1"⟩) 100000,
   .bill true].map fun a =>
    ⟨a, noSubscriptions, { modelRatio := fun name => (1, true, name) }, fun _ => none, adjusted⟩

theorem stored_quota_is_net_exact :
    ∃ s, exec (Account.step raceConfig tokenPriced)
        (.submitted raceTask (.wallet 400) noSubscriptions) (completion 500) = some s ∧
      s.sys.row.status = .success ∧ s.sys.row.quota = s.net := by
  have path : Path (billsAsStored raceConfig tokenPriced) (Account.step raceConfig tokenPriced)
      (.submitted raceTask (.wallet 400) noSubscriptions) (completion 500) _ :=
    .cons trivial rfl <| .cons trivial rfl <| .cons (by
      intro loader task call owed
      cases owed
      intro actual settled
      cases settled
      exact .inr (.inl rfl)) rfl <| .nil _
  exact ⟨_, rfl, rfl, ((stored_quota_is_net raceTask (.wallet 400) noSubscriptions).2
    (show (0 : Int) ≤ 400 by decide) _ _ path).1⟩

/-- A task of quota 500 for which the adaptor settles 800: the wallet has been charged 800, no
worker has anything left to do, and the stored quota is still 500. -/
theorem settled_quota_not_stored :
    ∃ s, exec (Account.step raceConfig tokenPriced)
        (.submitted raceTask (.wallet 500) noSubscriptions) (completion 800) = some s ∧
      s.sys.quiescent ∧ s.sys.row.status = .success ∧ s.sys.row.quota = 500 ∧ s.net = 800 := by
  refine ⟨_, rfl, ?_, rfl, rfl, rfl⟩
  intro w
  cases w <;> exact ⟨rfl, rfl⟩

end EastApi.AsyncTask
