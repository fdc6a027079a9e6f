import EastApi.Payment.Model

/-! What `ManualCompleteTopUp` adds for a pending order, and what the completion of the order's own
payment method adds. -/

namespace EastApi.Payment

open Go

def noFailure : Nat → Option String := fun _ => none

def Db.quotaOf (db : Db) (userId : Int) : Int := ((db.users userId).map (·.quota)).getD 0

variable (cfg : Config)

def addedManually (now : Int) (tradeNo : String) (userId : Int) (db : Db) : Int :=
  ((Call.manualCompleteTopUp tradeNo).run cfg noFailure now db).1.quotaOf userId -
    db.quotaOf userId

def ownCompletion (now : Int) (customer : String) (tradeNo : String) (order : TopUp) (db : Db) :
    Db :=
  if order.paymentMethod = "stripe" then
    ((Call.recharge tradeNo customer).run cfg noFailure now db).1
  else if order.paymentMethod = "creem" then
    ((Call.rechargeCreem tradeNo customer).run cfg noFailure now db).1
  else if order.paymentMethod = "waffo" then
    ((Call.rechargeWaffo tradeNo).run cfg noFailure now db).1
  else (epayNotify cfg noFailure {} tradeNo db).1

def addedByOwn (now : Int) (customer : String) (tradeNo : String) (order : TopUp) (db : Db) :
    Int :=
  (ownCompletion cfg now customer tradeNo order db).quotaOf order.userId - db.quotaOf order.userId

def sameUnit (order : TopUp) : Prop :=
  (order.paymentMethod = "stripe" → -1 < order.money * cfg.quotaPerUnit) ∧
  (order.paymentMethod = "creem" → 0 ≤ order.amount ∧
    0 ≤ order.amount * (cfg.quotaPerUnit - 1) ∧ order.amount * (cfg.quotaPerUnit - 1) < 1)

variable {cfg} {db : Db} {tradeNo : String} {order : TopUp} {user : User} {now : Int}

theorem quotaOf_completed (hasUser : db.users userId = some user) (completeTime : Int)
    (source : Row) (quota : Int) (fields : Fields) :
    (((Write.saveOrder tradeNo order completeTime).apply db).credit ⟨source, userId, quota⟩
      fields).quotaOf userId = db.quotaOf userId + quota := by
  simp [Write.apply, Db.credit, Db.quotaOf, hasUser]

theorem complete_run (quota : Int) (fields : Fields) (n : Nat) :
    (complete tradeNo order now quota fields).run Write.apply noFailure n db =
      .ok (((Write.saveOrder tradeNo order now).apply db).credit
        ⟨.order tradeNo, order.userId, quota⟩ fields) := by
  simp [complete, Transaction.run, noFailure, Write.apply]

theorem withOrder_run (found : db.orders tradeNo = some order) (body : TopUp → Tx) :
    (withOrder tradeNo body).run Write.apply noFailure 0 db =
      (body order).run Write.apply noFailure 1 db := by
  simp [withOrder, Transaction.run, noFailure, found]

section
variable (named : tradeNo ≠ "") (found : db.orders tradeNo = some order)
  (pending : order.status = .pending) (hasUser : db.users order.userId = some user)

include named found pending hasUser

theorem addedManually_eq :
    addedManually cfg now tradeNo order.userId db = max 0 (cfg.manualQuota order) := by
  simp only [addedManually, Call.run, Call.check, if_neg named, Call.body, manualCompleteTopUp,
    withOrder_run found, pending]
  by_cases positive : cfg.manualQuota order ≤ 0
  · simp [positive, Transaction.run]
  · simp only [reduceCtorEq, if_false, ne_eq, not_true_eq_false, if_neg positive, complete_run,
      quotaOf_completed hasUser]
    omega

theorem addedByOwn_stripe (stripe : order.paymentMethod = "stripe") (customer : String) :
    addedByOwn cfg now customer tradeNo order db = cfg.quotaOfMoney order.money := by
  rw [addedByOwn, ownCompletion, if_pos stripe]
  simp only [Call.run, Call.check, if_neg named, Call.body, recharge, withOrder_run found, pending,
    stripe, ne_eq, not_true_eq_false, if_false, complete_run, quotaOf_completed hasUser]
  omega

theorem addedByOwn_creem (creem : order.paymentMethod = "creem") (customer : String) :
    addedByOwn cfg now customer tradeNo order db = order.amount := by
  have others : order.paymentMethod ≠ "stripe" := by simp [creem]
  rw [addedByOwn, ownCompletion, if_neg others, if_pos creem]
  simp only [Call.run, Call.check, if_neg named, Call.body, rechargeCreem, withOrder_run found,
    pending, creem, ne_eq, not_true_eq_false, if_false]
  by_cases anonymous : customer = ""
  · simp only [if_pos anonymous, complete_run, quotaOf_completed hasUser]
    omega
  · simp [anonymous, Transaction.run, noFailure, Write.apply, Db.credit, Db.quotaOf, hasUser]

theorem addedByOwn_waffo (waffo : order.paymentMethod = "waffo") (customer : String) :
    addedByOwn cfg now customer tradeNo order db = max 0 (cfg.quotaOfAmount order.amount) := by
  have others : order.paymentMethod ≠ "stripe" ∧ order.paymentMethod ≠ "creem" := by
    simp [waffo]
  rw [addedByOwn, ownCompletion, if_neg others.1, if_neg others.2, if_pos waffo]
  simp only [Call.run, Call.check, if_neg named, Call.body, rechargeWaffo, withOrder_run found,
    pending, waffo]
  by_cases positive : cfg.quotaOfAmount order.amount ≤ 0
  · simp [positive, Transaction.run]
  · simp only [reduceCtorEq, if_false, ne_eq, not_true_eq_false, if_neg positive, complete_run,
      quotaOf_completed hasUser]
    omega

omit named in
theorem addedByOwn_epay (epay : ownsCallback order.paymentMethod = false) (customer : String) :
    addedByOwn cfg now customer tradeNo order db = max 0 (cfg.quotaOfAmount order.amount) := by
  obtain ⟨⟨stripe, creem⟩, waffo⟩ : (order.paymentMethod ≠ "stripe" ∧
      order.paymentMethod ≠ "creem") ∧ order.paymentMethod ≠ "waffo" := by
    simpa [ownsCallback] using epay
  rw [addedByOwn, ownCompletion, if_neg stripe, if_neg creem, if_neg waffo]
  simp only [epayNotify, noFailure, found, epay, pending]
  by_cases negative : cfg.quotaOfAmount order.amount < 0
  · simp [negative, Write.apply, Db.quotaOf]
    omega
  · simp only [Bool.not_true, Bool.false_eq_true, ne_eq, not_true_eq_false, or_self, if_false,
      negative, quotaOf_completed hasUser]
    omega

end

theorem max_quotaOfAmount_iff (cfg : Config) (amount : Int) :
    max 0 (cfg.quotaOfAmount amount) = amount ↔
      0 ≤ amount ∧ 0 ≤ amount * (cfg.quotaPerUnit - 1) ∧ amount * (cfg.quotaPerUnit - 1) < 1 := by
  rcases lt_trichotomy amount 0 with negative | rfl | positive
  · constructor <;> omega
  · simp [Config.quotaOfAmount, truncate]
  · have exact_iff := truncate_eq_pos_iff (x := amount * cfg.quotaPerUnit) positive
    have same : max 0 (cfg.quotaOfAmount amount) = amount ↔ cfg.quotaOfAmount amount = amount := by
      omega
    rw [same, Config.quotaOfAmount, exact_iff, mul_sub, mul_one]
    constructor
    · rintro ⟨lower, upper⟩
      exact ⟨positive.le, by linarith, by linarith⟩
    · rintro ⟨-, lower, upper⟩
      exact ⟨by linarith, by linarith⟩

/-- For every pending order of every payment method: the two completions add the same just if the
order is read in the same unit. -/
theorem manual_adds_own_iff (named : tradeNo ≠ "") (found : db.orders tradeNo = some order)
    (pending : order.status = .pending) (hasUser : db.users order.userId = some user)
    (customer : String) :
    addedManually cfg now tradeNo order.userId db = addedByOwn cfg now customer tradeNo order db ↔
      sameUnit cfg order := by
  rw [addedManually_eq named found pending hasUser]
  by_cases stripe : order.paymentMethod = "stripe"
  · rw [addedByOwn_stripe named found pending hasUser stripe, Config.manualQuota, if_pos stripe]
    have creem : order.paymentMethod ≠ "creem" := by simp [stripe]
    have unit : sameUnit cfg order ↔ -1 < order.money * cfg.quotaPerUnit :=
      ⟨fun h => h.1 stripe, fun h => ⟨fun _ => h, fun own => absurd own creem⟩⟩
    rw [unit, ← truncate_nonneg_iff, ← Config.quotaOfMoney]
    omega
  rw [Config.manualQuota, if_neg stripe]
  by_cases creem : order.paymentMethod = "creem"
  · rw [addedByOwn_creem named found pending hasUser creem, max_quotaOfAmount_iff]
    simp [sameUnit, creem]
  have unit : sameUnit cfg order := ⟨fun h => absurd h stripe, fun h => absurd h creem⟩
  by_cases waffo : order.paymentMethod = "waffo"
  · rw [addedByOwn_waffo named found pending hasUser waffo]
    simp [unit]
  · have epay : ownsCallback order.paymentMethod = false := by
      simp [ownsCallback, stripe, creem, waffo]
    rw [addedByOwn_epay found pending hasUser epay]
    simp [unit]

def oneOrder (order : TopUp) : Db where
  orders := Function.update (fun _ => none) "ref" (some order)
  codes := fun _ => none
  users := Function.update (fun _ => none) order.userId (some { quota := 0 })
  credits := []

theorem manual_adds_own_iff_stripe :
    let order : TopUp := { userId := 7, amount := 10, money := 5, paymentMethod := "stripe" }
    addedManually {} 0 "ref" 7 (oneOrder order) =
      addedByOwn {} 0 "cus" "ref" order (oneOrder order) := by
  intro order
  have found : (oneOrder order).orders "ref" = some order := by simp [oneOrder]
  have hasUser : (oneOrder order).users order.userId = some { quota := 0 } := by simp [oneOrder]
  refine (manual_adds_own_iff (by decide) found rfl hasUser "cus").mpr ⟨fun _ => ?_, ?_⟩
  · norm_num [order]
  · simp [order]

/-- A Creem product of a quota of 500000 is completed by hand for 500000 times as much. -/
theorem creem_completed_by_hand :
    let order : TopUp := { userId := 7, amount := 500000, money := 1, paymentMethod := "creem" }
    addedManually {} 0 "ref" 7 (oneOrder order) = 250000000000 ∧
      addedByOwn {} 0 "" "ref" order (oneOrder order) = 500000 := by
  decide +kernel

end EastApi.Payment
