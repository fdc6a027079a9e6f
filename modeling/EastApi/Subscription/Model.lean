import EastApi.Lib.GoTime
import Mathlib.Data.List.Sort

/-! Subscription plans, the subscriptions of users, and the calls that create and end them.  A plan
may move its buyer into another group; the three calls that end a subscription move the user back.
The tables hold the group of every user, the rows of `user_subscriptions` and the next id. -/

namespace EastApi.Subscription

open Go

/-- The column `duration_unit`. -/
inductive DurationUnit
  | year | month | day | hour | custom
  | other (s : String)
deriving DecidableEq, Repr

inductive ResetPeriod
  | never | daily | weekly | monthly | custom
deriving DecidableEq, Repr

structure SubscriptionPlan where
  id : Int
  durationUnit : DurationUnit := .month
  durationValue : Int := 1
  customSeconds : Int := 0
  maxPurchasePerUser : Int := 0
  upgradeGroup : String := ""
  totalAmount : Int := 0
  quotaResetPeriod : String := "never"
  quotaResetCustomSeconds : Int := 0
deriving DecidableEq, Repr

inductive SubStatus
  | active | expired | cancelled
deriving DecidableEq, Repr

structure UserSubscription where
  (id userId planId amountTotal amountUsed startTime endTime : Int)
  status : SubStatus
  (lastResetTime nextResetTime : Int)
  (upgradeGroup prevUserGroup : String)
deriving DecidableEq, Repr

section
variable (loc : Location)

/-- `DurationValue` is a 32-bit column, so the calendar does not overflow; the durations in
nanoseconds may. -/
def calcPlanEndTime (start : Int) (plan : SubscriptionPlan) : Except String Int :=
  if plan.durationValue ≤ 0 ∧ plan.durationUnit ≠ .custom then .error "duration_value must be > 0"
  else match plan.durationUnit with
    | .year => .ok (loc.addDate start plan.durationValue 0 0)
    | .month => .ok (loc.addDate start 0 plan.durationValue 0)
    | .day => .ok (addDuration start (plan.durationValue * 24 * 3600000000000))
    | .hour => .ok (addDuration start (plan.durationValue * 3600000000000))
    | .custom =>
      if plan.customSeconds ≤ 0 then .error "custom_seconds must be > 0"
      else .ok (addDuration start (plan.customSeconds * 1000000000))
    | .other unit => .error ("invalid duration_unit: " ++ unit)

def normalizeResetPeriod (period : String) : ResetPeriod :=
  match trimSpace period with
  | "daily" => .daily
  | "weekly" => .weekly
  | "monthly" => .monthly
  | "custom" => .custom
  | _ => .never

def untilEnd (next endUnix : Int) : Int := if 0 < endUnix ∧ endUnix < next then 0 else next

def calcNextResetTime (base : Int) (plan : SubscriptionPlan) (endUnix : Int) : Int :=
  let c := loc.civil base
  match normalizeResetPeriod plan.quotaResetPeriod with
  | .never => 0
  | .daily => untilEnd (loc.addDate (loc.date c.year c.month c.day 0) 0 0 1) endUnix
  | .weekly =>
    -- Monday is 1 and Sunday 7
    let weekday := if loc.weekday base = 0 then 7 else loc.weekday base
    untilEnd (loc.addDate (loc.date c.year c.month c.day 0) 0 0 (8 - weekday)) endUnix
  | .monthly => untilEnd (loc.addDate (loc.date c.year c.month 1 0) 0 1 0) endUnix
  | .custom =>
    if plan.quotaResetCustomSeconds ≤ 0 then 0
    else untilEnd (addDuration base (plan.quotaResetCustomSeconds * 1000000000)) endUnix

end

structure Tables where
  group : Int → String
  subs : List UserSubscription
  nextId : Int

def UserSubscription.endsBefore (a b : UserSubscription) : Prop :=
  a.endTime < b.endTime ∨ a.endTime = b.endTime ∧ a.id < b.id

instance (a b : UserSubscription) : Decidable (a.endsBefore b) :=
  inferInstanceAs (Decidable (_ ∨ _))

def latest : List UserSubscription → Option UserSubscription
  | [] => none
  | s :: rest =>
    match latest rest with
    | none => some s
    | some best => if best.endsBefore s then some s else some best

def Tables.setGroup (db : Tables) (userId : Int) (group : String) : Tables :=
  { db with group := Function.update db.group userId group }

def upgrading (userId now : Int) (s : UserSubscription) : Bool :=
  s.userId = userId && s.status = .active && now < s.endTime && s.upgradeGroup ≠ ""

/-- The tables after the subscription `sub` has been taken from its user, and the group that the
user goes back to, or `""`. -/
def downgradeUserGroupForSubscriptionTx (db : Tables) (sub : UserSubscription) (now : Int) :
    Tables × String :=
  let upgradeGroup := trimSpace sub.upgradeGroup
  let currentGroup := db.group sub.userId
  let prevGroup := trimSpace sub.prevUserGroup
  if upgradeGroup = "" then (db, "")
  else if currentGroup ≠ upgradeGroup then (db, "")
  else if db.subs.any (fun s => upgrading sub.userId now s && s.id ≠ sub.id) then (db, "")
  else if prevGroup = "" ∨ prevGroup = currentGroup then (db, "")
  else (db.setGroup sub.userId prevGroup, prevGroup)

def prevGroup (db : Tables) (userId : Int) (upgradeGroup : String) : String :=
  if upgradeGroup ≠ "" ∧ db.group userId ≠ upgradeGroup then db.group userId else ""

def newSubscription (loc : Location) (db : Tables) (userId : Int) (plan : SubscriptionPlan)
    (now endUnix : Int) : UserSubscription :=
  let nextReset := calcNextResetTime loc now plan endUnix
  { id := db.nextId
    userId := userId
    planId := plan.id
    amountTotal := plan.totalAmount
    amountUsed := 0
    startTime := now
    endTime := endUnix
    status := .active
    lastResetTime := if 0 < nextReset then now else 0
    nextResetTime := nextReset
    upgradeGroup := trimSpace plan.upgradeGroup
    prevUserGroup := prevGroup db userId (trimSpace plan.upgradeGroup) }

def Tables.insert (db : Tables) (sub : UserSubscription) : Tables :=
  let db' := if sub.upgradeGroup ≠ "" ∧ db.group sub.userId ≠ sub.upgradeGroup then
      db.setGroup sub.userId sub.upgradeGroup else db
  { db' with subs := db.subs ++ [sub], nextId := db.nextId + 1 }

def createUserSubscriptionFromPlanTx (loc : Location) (db : Tables) (userId : Int)
    (plan : SubscriptionPlan) (now : Int) : Except String (Tables × UserSubscription) :=
  if plan.id = 0 then .error "invalid plan"
  else if userId ≤ 0 then .error "invalid user id"
  else if 0 < plan.maxPurchasePerUser ∧ plan.maxPurchasePerUser ≤
      (db.subs.filter fun s => s.userId = userId && s.planId = plan.id).length then
    .error "已达到该套餐购买上限"
  else match calcPlanEndTime loc now plan with
    | .error message => .error message
    | .ok endUnix =>
      let sub := newSubscription loc db userId plan now endUnix
      .ok (db.insert sub, sub)

def downgradeMessage (target : String) : String :=
  if target ≠ "" then "用户分组将回退到 " ++ target else ""

def cancelRow (id now : Int) (s : UserSubscription) : UserSubscription :=
  if s.id = id then { s with status := .cancelled, endTime := now } else s

def Tables.cancel (db : Tables) (id now : Int) : Tables :=
  { db with subs := db.subs.map (cancelRow id now) }

def adminInvalidateUserSubscription (db : Tables) (userSubscriptionId now : Int) :
    Except String (Tables × String) :=
  if userSubscriptionId ≤ 0 then .error "invalid userSubscriptionId"
  else match db.subs.find? (·.id = userSubscriptionId) with
    | none => .error "record not found"
    | some sub =>
      let (db', target) :=
        downgradeUserGroupForSubscriptionTx (db.cancel userSubscriptionId now) sub now
      .ok (db', downgradeMessage target)

def adminDeleteUserSubscription (db : Tables) (userSubscriptionId now : Int) :
    Except String (Tables × String) :=
  if userSubscriptionId ≤ 0 then .error "invalid userSubscriptionId"
  else match db.subs.find? (·.id = userSubscriptionId) with
    | none => .error "record not found"
    | some sub =>
      let (db', target) := downgradeUserGroupForSubscriptionTx db sub now
      .ok ({ db' with subs := db'.subs.filter (·.id ≠ userSubscriptionId) },
        downgradeMessage target)

def isDue (now : Int) (s : UserSubscription) : Bool :=
  s.status = .active && 0 < s.endTime && s.endTime ≤ now

def dueUsers (db : Tables) (limit now : Int) : List Int :=
  let limit := if limit ≤ 0 then 200 else limit
  let rows := (db.subs.filter (isDue now)).insertionSort fun a b => ¬ b.endsBefore a
  ((rows.take limit.toNat).map (·.userId)).filter (0 < ·) |>.dedup

def restoreGroup (db : Tables) (userId : Int) (last : UserSubscription) : Tables :=
  let upgradeGroup := trimSpace last.upgradeGroup
  let prevGroup := trimSpace last.prevUserGroup
  if upgradeGroup = "" ∨ prevGroup = "" then db
  else if db.group userId ≠ upgradeGroup ∨ db.group userId = prevGroup then db
  else db.setGroup userId prevGroup

def expireRow (userId now : Int) (s : UserSubscription) : UserSubscription :=
  if s.userId = userId ∧ isDue now s = true then { s with status := .expired } else s

def Tables.expire (db : Tables) (userId now : Int) : Tables :=
  { db with subs := db.subs.map (expireRow userId now) }

def expireUser (now : Int) (db : Tables) (userId : Int) : Tables :=
  let db' := db.expire userId now
  if db'.subs.any (upgrading userId now) then db'
  else
    match latest (db'.subs.filter fun s =>
        s.userId = userId && s.status = .expired && s.upgradeGroup ≠ "") with
    | none => db'
    | some last => restoreGroup db' userId last

/-- `ExpireDueSubscriptions`: the tables, and the number of rows expired.  The users are visited in
the order of a Go map, which is arbitrary. -/
def expireDueSubscriptions (db : Tables) (order : List Int) (now : Int) : Tables × Nat :=
  (order.foldl (expireUser now) db,
    (db.subs.filter fun s => isDue now s && order.contains s.userId).length)

end EastApi.Subscription
