import EastApi.Lib.GoText
import EastApi.Payment.Epay

/-! An order for a top-up by Epay (`RequestEpay`), and the quota that its callback credits.  Where
amounts are shown in tokens, the price is computed from the quotient of the amount by the quota per
unit, while the order keeps the whole part of it, which the callback multiplies back: a remainder is
paid for and not credited. -/

namespace EastApi.Payment

open Go Int

inductive QuotaDisplayType
  | usd | cny | tokens | custom
deriving DecidableEq, Repr

/-- The settings of top-ups: `payMethods` are the types of the methods, and `epayConfigured` tells
whether `GetEpayClient` has a client. -/
structure TopUpSettings where
  quotaDisplayType : QuotaDisplayType
  minTopUp : Int := 1
  price : ℚ
  topupGroupRatio : String → Option ℚ := fun _ => none
  amountDiscount : Int → Option ℚ := fun _ => none
  payMethods : List String
  epayConfigured : Bool := true

structure EpayRequest where
  amount : Int
  paymentMethod : String
deriving DecidableEq, Repr

section
variable (cfg : Config) (settings : TopUpSettings)

def TopUpSettings.ratioOf (group : String) : ℚ :=
  let ratio := (settings.topupGroupRatio group).getD 1
  if ratio = 0 then 1 else ratio

def TopUpSettings.discountOf (amount : Int) : ℚ :=
  match settings.amountDiscount amount with
  | some discount => if 0 < discount then discount else 1
  | none => 1

def getPayMoney (amount : Int) (group : String) : ℚ :=
  let dAmount :=
    if settings.quotaDisplayType = .tokens then decimalDiv amount cfg.quotaPerUnit else amount
  inexactFloat64
    (dAmount * settings.price * settings.ratioOf group * settings.discountOf amount)

def getMinTopup : Int :=
  if settings.quotaDisplayType = .tokens then truncate (settings.minTopUp * cfg.quotaPerUnit)
  else settings.minTopUp

def cent : ℚ := 5764607523034235 / 2 ^ 59

def orderAmount (amount : Int) : Int :=
  if settings.quotaDisplayType = .tokens then truncate (decimalDiv amount cfg.quotaPerUnit)
  else amount

/-- `RequestEpay` of a user in a group, under the trade number that is drawn.  `GetUserGroup`,
`client.Purchase` and `topUp.Insert` are the statements 0, 1 and 2; trade numbers are unique. -/
def requestEpay (fails : Nat → Option String) (now userId : Int) (group tradeNo : String)
    (req : EpayRequest) (db : Db) : Except String Db :=
  if req.amount < getMinTopup cfg settings then
    .error ("充值数量不能小于 " ++ toString (getMinTopup cfg settings))
  else if fails 0 ≠ none then .error "获取用户分组失败"
  else if getPayMoney cfg settings req.amount group < cent then .error "充值金额过低"
  else if req.paymentMethod ∉ settings.payMethods then .error "支付方式不存在"
  else if !settings.epayConfigured then .error "当前管理员未配置支付信息"
  else if fails 1 ≠ none then .error "拉起支付失败"
  else if fails 2 ≠ none ∨ db.orders tradeNo ≠ none then .error "创建订单失败"
  else .ok { db with
    orders := Function.update db.orders tradeNo (some {
      userId := userId
      amount := orderAmount cfg settings req.amount
      money := getPayMoney cfg settings req.amount group
      paymentMethod := req.paymentMethod
      createTime := now }) }

end

section
variable {cfg : Config} {settings : TopUpSettings} {fails : Nat → Option String} {now userId : Int}
  {group tradeNo : String} {req : EpayRequest} {db made : Db}

theorem requestEpay_ok
    (ordered : requestEpay cfg settings fails now userId group tradeNo req db = .ok made) :
    cent ≤ getPayMoney cfg settings req.amount group ∧
    made.orders tradeNo = some {
      userId := userId
      amount := orderAmount cfg settings req.amount
      money := getPayMoney cfg settings req.amount group
      paymentMethod := req.paymentMethod
      createTime := now } ∧
    made.users = db.users := by
  revert ordered
  fun_cases requestEpay cfg settings fails now userId group tradeNo req db <;>
    intro ordered <;> cases ordered
  next price _ _ _ _ => exact ⟨not_lt.mp price, Function.update_self .., rfl⟩

theorem amount_pos (price : 0 < settings.price)
    (ratio : ∀ r, settings.topupGroupRatio group = some r → 0 < r) (unit : 0 < cfg.quotaPerUnit)
    (paid : cent ≤ getPayMoney cfg settings amount group) : 0 < amount := by
  by_contra nonpos
  have cast : (amount : ℚ) ≤ 0 := by exact_mod_cast not_lt.mp nonpos
  have quantity : (if settings.quotaDisplayType = .tokens then
      decimalDiv amount cfg.quotaPerUnit else amount) ≤ 0 := by
    split
    · exact decimalDiv_nonpos cast unit
    · exact cast
  have positive : 0 < settings.ratioOf group := by
    unfold TopUpSettings.ratioOf
    cases found : settings.topupGroupRatio group with
    | none => simp
    | some r => simp [ratio r found, (ratio r found).ne']
  have discount : 0 < settings.discountOf amount := by
    unfold TopUpSettings.discountOf
    split
    · split
      · assumption
      · norm_num
    · norm_num
  have money : getPayMoney cfg settings amount group ≤ 0 := by
    refine inexactFloat64_nonpos ?_
    exact mul_nonpos_of_nonpos_of_nonneg (mul_nonpos_of_nonpos_of_nonneg
      (mul_nonpos_of_nonpos_of_nonneg quantity price.le) positive.le) discount.le
  have some : (0 : ℚ) < cent := by norm_num [cent]
  linarith

variable {quotaPerUnit : Int}

theorem quotaOfAmount_int (unit : cfg.quotaPerUnit = quotaPerUnit) (amount : Int) :
    cfg.quotaOfAmount amount = amount * quotaPerUnit := by
  rw [Config.quotaOfAmount, unit, ← cast_mul, truncate_intCast]

section
variable (positive : 0 < quotaPerUnit) (unit : cfg.quotaPerUnit = quotaPerUnit)
  (tokens : settings.quotaDisplayType = .tokens) (price : 0 < settings.price)
  (ratio : ∀ r, settings.topupGroupRatio group = some r → 0 < r)
  (ordered : requestEpay cfg settings fails now userId group tradeNo req db = .ok made)
  (method : ownsCallback req.paymentMethod = false) {later : Db} {user : User}
  (kept : later.orders tradeNo = made.orders tradeNo) (known : later.users userId = some user)

include positive unit tokens price ratio ordered method kept known

theorem epayNotify_tokens :
    (epayNotify cfg noFailure {} tradeNo later).1.quotaOf userId = later.quotaOf userId +
      truncate (decimalDiv req.amount quotaPerUnit) * quotaPerUnit := by
  obtain ⟨paid, stored, _⟩ := requestEpay_ok ordered
  have cast : (0 : ℚ) < quotaPerUnit := by exact_mod_cast positive
  have amount : 0 < req.amount := amount_pos price ratio (by rw [unit]; exact cast) paid
  have whole : orderAmount cfg settings req.amount =
      truncate (decimalDiv req.amount quotaPerUnit) := by rw [orderAmount, if_pos tokens, unit]
  have units : 0 ≤ truncate (decimalDiv req.amount quotaPerUnit) := by
    refine (truncate_nonneg_iff _).mpr ?_
    have := decimalDiv_nonneg (show (0 : ℚ) ≤ req.amount by exact_mod_cast amount.le) cast
    linarith
  have quota := quotaOfAmount_int unit (orderAmount cfg settings req.amount)
  have nonneg : 0 ≤ cfg.quotaOfAmount (orderAmount cfg settings req.amount) := by
    rw [quota, whole]
    exact mul_nonneg units positive.le
  rw [epayNotify_completes (kept.trans stored) method rfl nonneg, Db.complete,
    quotaOf_completed known, quota, whole]

/-- The callback of an order in tokens credits the amount that the price was computed for exactly if
that is a multiple of the quota per unit. -/
theorem tokens_credited_iff :
    (epayNotify cfg noFailure {} tradeNo later).1.quotaOf userId =
        later.quotaOf userId + req.amount ↔ quotaPerUnit ∣ req.amount := by
  rw [epayNotify_tokens positive unit tokens price ratio ordered method kept known,
    add_right_inj]
  constructor
  · intro credited
    rw [mul_comm] at credited
    exact ⟨_, credited.symm⟩
  · rintro ⟨n, multiple⟩
    rw [multiple, decimalDiv_mul positive, truncate_intCast, mul_comm]

/-- With a quota per unit of at most 16 digits the remainder is what is paid for and not
credited. -/
theorem tokens_credited_eq (digits : quotaPerUnit ≤ 10 ^ 16) :
    (epayNotify cfg noFailure {} tradeNo later).1.quotaOf userId =
      later.quotaOf userId + (req.amount - req.amount % quotaPerUnit) := by
  have amount : 0 < req.amount := amount_pos price ratio
    (by rw [unit]; exact_mod_cast positive) (requestEpay_ok ordered).1
  rw [epayNotify_tokens positive unit tokens price ratio ordered method kept known,
    truncate_decimalDiv amount.le positive digits]
  have split := mul_ediv_add_emod req.amount quotaPerUnit
  rw [mul_comm (req.amount / quotaPerUnit)]
  omega

end

end

def tokenSettings : TopUpSettings where
  quotaDisplayType := .tokens
  price := 1
  payMethods := ["alipay", "wxpay"]

def oneUser : Db where
  orders := fun _ => none
  codes := fun _ => none
  users := fun id => if id = 7 then some { quota := 0 } else none
  credits := []

def tokenOrder (amount : Int) : Except String Db :=
  requestEpay {} tokenSettings noFailure 0 7 "default" "USR7NO1" ⟨amount, "alipay"⟩ oneUser

/-- Two units are credited in full. -/
theorem tokens_credited_iff_whole :
    ∃ made, tokenOrder 1000000 = .ok made ∧
      (epayNotify {} noFailure {} "USR7NO1" made).1.quotaOf 7 = made.quotaOf 7 + 1000000 := by
  have accepted : (tokenOrder 1000000).toOption.isSome = true := by decide +kernel
  cases ordered : tokenOrder 1000000 with
  | error message => simp [ordered, Except.toOption] at accepted
  | ok made =>
    have known : made.users 7 = some { quota := 0 } :=
      congrFun (requestEpay_ok ordered).2.2 7
    refine ⟨made, rfl, (tokens_credited_iff (show (0 : Int) < 500000 by decide) rfl rfl
      (show (0 : ℚ) < 1 by norm_num) (fun r found => by cases found) ordered rfl rfl known).mpr
      ⟨2, rfl⟩⟩

/-- One unit and a half are paid for, and one is credited. -/
theorem tokens_remainder_lost :
    getPayMoney {} tokenSettings 750000 "default" = 3 / 2 ∧
    (tokenOrder 750000).toOption.map
      (fun made => (epayNotify {} noFailure {} "USR7NO1" made).1.quotaOf 7) = some 500000 := by
  decide +kernel

end EastApi.Payment
