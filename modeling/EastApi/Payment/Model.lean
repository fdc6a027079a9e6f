import EastApi.Lib.GoFloat
import EastApi.Lib.Transaction

/-! Orders and redemption codes, and the calls that turn them into quota: `ManualCompleteTopUp`,
`Recharge`, `RechargeCreem`, `RechargeWaffo` and `Redeem` are transactions, and `EpayNotify` writes
the order and the user in two statements of their own. -/

namespace EastApi.Payment

open Go Function

inductive Status
  | pending | success | failed | expired
deriving DecidableEq, Repr

structure TopUp where
  (userId amount : Int)
  money : ℚ
  paymentMethod : String
  createTime : Int := 0
  completeTime : Int := 0
  status : Status := .pending
deriving DecidableEq, Repr

inductive CodeStatus
  | enabled | disabled | used
deriving DecidableEq, Repr

structure Redemption where
  quota : Int
  status : CodeStatus := .enabled
  redeemedTime : Int := 0
  usedUserId : Int := 0
  /-- Zero for a code that does not expire. -/
  expiredTime : Int := 0
deriving DecidableEq, Repr

structure User where
  quota : Int
  email : String := ""
  stripeCustomer : String := ""
deriving DecidableEq, Repr

inductive Row
  | order (tradeNo : String)
  | code (key : String)
  | user (id : Int)
deriving DecidableEq, Repr

structure Credit where
  source : Row
  (userId quota : Int)
deriving DecidableEq, Repr

structure Db where
  orders : String → Option TopUp
  codes : String → Option Redemption
  users : Int → Option User
  credits : List Credit

structure Fields where
  email : Option String := none
  stripeCustomer : Option String := none

def TopUp.completed (order : TopUp) (completeTime : Int) : TopUp :=
  { order with completeTime := completeTime, status := .success }

def Redemption.redeemed (code : Redemption) (now userId : Int) : Redemption :=
  { code with redeemedTime := now, status := .used, usedUserId := userId }

inductive Write
  | saveOrder (tradeNo : String) (order : TopUp) (completeTime : Int)
  | saveCode (key : String) (code : Redemption) (now userId : Int)
  /-- `quota = quota + ?` on the row of a user. -/
  | credit (c : Credit) (fields : Fields)

def Write.row : Write → Row
  | .saveOrder tradeNo _ _ => .order tradeNo
  | .saveCode key _ _ _ => .code key
  | .credit c _ => .user c.userId

def Db.credit (db : Db) (c : Credit) (fields : Fields) : Db :=
  match db.users c.userId with
  | none => db
  | some user =>
    { db with
      users := update db.users c.userId (some
        { quota := user.quota + c.quota
          email := fields.email.getD user.email
          stripeCustomer := fields.stripeCustomer.getD user.stripeCustomer })
      credits := db.credits ++ [c] }

def Write.apply : Write → Db → Db
  | .saveOrder tradeNo order completeTime, db =>
    { db with orders := update db.orders tradeNo (some (order.completed completeTime)) }
  | .saveCode key code now userId, db =>
    { db with codes := update db.codes key (some (code.redeemed now userId)) }
  | .credit c fields, db => db.credit c fields

def Db.creditsOf (db : Db) (source : Row) : List Credit :=
  db.credits.filter (·.source = source)

structure Config where
  quotaPerUnit : ℚ := 500000

variable (cfg : Config)

def Config.quotaOfAmount (amount : Int) : Int := truncate (amount * cfg.quotaPerUnit)

def Config.quotaOfMoney (money : ℚ) : Int := truncate (money * cfg.quotaPerUnit)

def Config.manualQuota (order : TopUp) : Int :=
  if order.paymentMethod = "stripe" then cfg.quotaOfMoney order.money
  else cfg.quotaOfAmount order.amount

inductive Call
  | manualCompleteTopUp (tradeNo : String)
  | recharge (referenceId customerId : String)
  | rechargeCreem (referenceId customerEmail : String)
  | rechargeWaffo (tradeNo : String)
  | redeem (key : String) (userId : Int)
deriving DecidableEq, Repr

def Call.check : Call → Option String
  | .manualCompleteTopUp tradeNo => if tradeNo = "" then some "未提供订单号" else none
  | .recharge referenceId _ => if referenceId = "" then some "未提供支付单号" else none
  | .rechargeCreem referenceId _ => if referenceId = "" then some "未提供支付单号" else none
  | .rechargeWaffo tradeNo => if tradeNo = "" then some "未提供支付单号" else none
  | .redeem key userId =>
    if key = "" then some "未提供兑换码"
    else if userId = 0 then some "无效的 user id"
    else none

abbrev Tx := Transaction Db Write String

def withOrder (tradeNo : String) (body : TopUp → Tx) : Tx :=
  .select (some "充值订单不存在") fun db =>
    match db.orders tradeNo with
    | none => .abort "充值订单不存在"
    | some order => body order

def complete (tradeNo : String) (order : TopUp) (now quota : Int) (fields : Fields) : Tx :=
  .write (.saveOrder tradeNo order now) <|
  .write (.credit ⟨.order tradeNo, order.userId, quota⟩ fields) .commit

def manualCompleteTopUp (now : Int) (tradeNo : String) : Tx :=
  withOrder tradeNo fun order =>
    if order.status = .success then .commit
    else if order.status ≠ .pending then .abort "订单状态不是待支付，无法补单"
    else if cfg.manualQuota order ≤ 0 then .abort "无效的充值额度"
    else complete tradeNo order now (cfg.manualQuota order) {}

def recharge (now : Int) (referenceId customerId : String) : Tx :=
  withOrder referenceId fun order =>
    if order.paymentMethod ≠ "stripe" then .abort "payment method mismatch"
    else if order.status ≠ .pending then .abort "充值订单状态错误"
    else complete referenceId order now (cfg.quotaOfMoney order.money)
      { stripeCustomer := some customerId }

/-- The quota of a Creem order is its amount.  The email is set for a user who has none. -/
def rechargeCreem (now : Int) (referenceId customerEmail : String) : Tx :=
  withOrder referenceId fun order =>
    if order.paymentMethod ≠ "creem" then .abort "payment method mismatch"
    else if order.status ≠ .pending then .abort "充值订单状态错误"
    else if customerEmail = "" then complete referenceId order now order.amount {}
    else
      .write (.saveOrder referenceId order now) <|
      .select none fun db =>
        match db.users order.userId with
        | none => .abort "record not found"
        | some user =>
          .write (.credit ⟨.order referenceId, order.userId, order.amount⟩
            { email := if user.email = "" then some customerEmail else none }) .commit

def rechargeWaffo (now : Int) (tradeNo : String) : Tx :=
  withOrder tradeNo fun order =>
    if order.paymentMethod ≠ "waffo" then .abort "payment method mismatch"
    else if order.status = .success then .commit
    else if order.status ≠ .pending then .abort "充值订单状态错误"
    else if cfg.quotaOfAmount order.amount ≤ 0 then .abort "无效的充值额度"
    else complete tradeNo order now (cfg.quotaOfAmount order.amount) {}

def redeem (now : Int) (key : String) (userId : Int) : Tx :=
  .select (some "无效的兑换码") fun db =>
    match db.codes key with
    | none => .abort "无效的兑换码"
    | some code =>
      if code.status ≠ .enabled then .abort "该兑换码已被使用"
      else if code.expiredTime ≠ 0 ∧ code.expiredTime < now then .abort "该兑换码已过期"
      else
        .write (.credit ⟨.code key, userId, code.quota⟩ {}) <|
        .write (.saveCode key code now userId) .commit

def Call.body (now : Int) : Call → Tx
  | .manualCompleteTopUp tradeNo => Payment.manualCompleteTopUp cfg now tradeNo
  | .recharge referenceId customerId => Payment.recharge cfg now referenceId customerId
  | .rechargeCreem referenceId customerEmail => Payment.rechargeCreem now referenceId customerEmail
  | .rechargeWaffo tradeNo => Payment.rechargeWaffo cfg now tradeNo
  | .redeem key userId => Payment.redeem now key userId

def Call.program (now : Int) (call : Call) : Tx :=
  match call.check with
  | some message => .abort message
  | none => call.body cfg now

def Call.report (call : Call) (message : String) : String :=
  match call with
  | .manualCompleteTopUp _ => message
  | .redeem _ _ => "redeem.failed"
  | _ => "充值失败，请稍后重试"

def Call.run (fails : Nat → Option String) (now : Int) (call : Call) (db : Db) :
    Db × Except String Unit :=
  match call.check with
  | some message => (db, .error message)
  | none =>
    match (call.body cfg now).run Write.apply fails 0 db with
    | .ok db' => (db', .ok ())
    | .error message => (db, .error (call.report message))

structure Delivery where
  verified : Bool := true
  tradeSuccess : Bool := true
deriving DecidableEq, Repr

def ownsCallback (paymentMethod : String) : Bool :=
  paymentMethod = "stripe" || paymentMethod = "creem" || paymentMethod = "waffo"

/-- `GetTopUpByTradeNo`, `topUp.Update` and `IncreaseUserQuota` are the statements 0, 1 and 2.
The answer is written before any of them, and the order keeps its time of completion. -/
def epayNotify (fails : Nat → Option String) (d : Delivery) (tradeNo : String) (db : Db) :
    Db × String :=
  if !d.verified then (db, "fail")
  else if !d.tradeSuccess ∨ fails 0 ≠ none then (db, "success")
  else match db.orders tradeNo with
    | none => (db, "success")
    | some order =>
      if ownsCallback order.paymentMethod ∨ order.status ≠ .pending ∨ fails 1 ≠ none then
        (db, "success")
      else
        let saved := (Write.saveOrder tradeNo order order.completeTime).apply db
        let quotaToAdd := cfg.quotaOfAmount order.amount
        if quotaToAdd < 0 ∨ fails 2 ≠ none then (saved, "success")
        else (saved.credit ⟨.order tradeNo, order.userId, quotaToAdd⟩ {}, "success")

end EastApi.Payment
