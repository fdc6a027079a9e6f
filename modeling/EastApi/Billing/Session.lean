import EastApi.Subscription.Charge

/-! A billing session: `NewBillingSession` debits a token and one of the two funding sources before
a request is relayed, `Settle` adjusts both to the actual amount, and `Refund` gives both back from
a goroutine. -/

namespace EastApi.Billing

open Go Subscription

structure Token where
  id : Int
  key : String
  (remainQuota usedQuota : Int)
deriving DecidableEq, Repr

structure Store where
  quota : Int → Int
  tokens : List Token
  charges : Charges

inductive Source
  | wallet | subscription
deriving DecidableEq, Repr

structure RelayInfo where
  (userId tokenId : Int)
  tokenKey : String
  tokenUnlimited : Bool := false
  tokenQuota : Int := 0
  isPlayground : Bool := false
  forcePreConsume : Bool := false
  requestId : String
  billingPreference : String := ""
  userQuota : Int := 0
  finalPreConsumedQuota : Int := 0
  billingSource : Option Source := none
  subscriptionId : Int := 0
  subscriptionPreConsumed : Int := 0
  subscriptionPostDelta : Int := 0
  subscriptionAmountTotal : Int := 0
  subscriptionAmountUsedAfterPreConsume : Int := 0
deriving DecidableEq, Repr

inductive ErrorCode
  | preConsumeTokenQuotaFailed | insufficientUserQuota | updateDataError | queryDataError
deriving DecidableEq, Repr

structure NewAPIError where
  message : String
  errorCode : ErrorCode
  statusCode : Nat
  (skipRetry recordErrorLog : Bool)
deriving DecidableEq, Repr

def newError (message : String) (code : ErrorCode) : NewAPIError := ⟨message, code, 500, true, true⟩

def forbidden (message : String) (code : ErrorCode) : NewAPIError :=
  ⟨message, code, 403, true, false⟩

def orFail {α : Type} (fault : Option String) (result : Except String α) : Except String α :=
  match fault with
  | some message => .error message
  | none => result

def Store.addUserQuota (st : Store) (id amount : Int) : Store :=
  { st with quota := Function.update st.quota id (st.quota id + amount) }

def Token.debit (id amount : Int) (token : Token) : Token :=
  if token.id = id then
    { token with
      remainQuota := token.remainQuota - amount
      usedQuota := token.usedQuota + amount }
  else token

def Store.debitToken (st : Store) (id amount : Int) : Store :=
  { st with tokens := st.tokens.map (Token.debit id amount) }

def nonNegative (quota : Int) (st : Store) : Except String Store :=
  if quota < 0 then .error "quota 不能为负数！" else .ok st

def decreaseUserQuota (st : Store) (id quota : Int) : Except String Store :=
  nonNegative quota (st.addUserQuota id (-quota))

def increaseUserQuota (st : Store) (id quota : Int) : Except String Store :=
  nonNegative quota (st.addUserQuota id quota)

def decreaseTokenQuota (st : Store) (id quota : Int) : Except String Store :=
  nonNegative quota (st.debitToken id quota)

def increaseTokenQuota (st : Store) (id quota : Int) : Except String Store :=
  nonNegative quota (st.debitToken id (-quota))

structure SubscriptionFunding where
  requestId : String
  (userId amount : Int)
  subscriptionId : Int := 0
  preConsumed : Int := 0
  amountTotal : Int := 0
  amountUsedAfter : Int := 0
deriving DecidableEq, Repr

inductive FundingSource
  | wallet (userId consumed : Int)
  | subscription (funding : SubscriptionFunding)
deriving DecidableEq, Repr

def FundingSource.source : FundingSource → Source
  | .wallet .. => .wallet
  | .subscription _ => .subscription

/-- The settings and the clocks that a session reads: `GetTrustQuota`, `FormatQuota`, the time of
the process and the time of the database, and the fuel of a subscription's reset loop. -/
structure Config where
  trustQuota : Int
  formatQuota : Int → String
  loc : Location
  fuel : Nat
  (now dbNow : Int)

structure AttemptFaults where
  getUserQuota : Option String := none
  getToken : Option String := none
  decreaseToken : Option String := none
  decreaseUser : Option String := none
  subscription : Faults := {}
  increaseToken : Option String := none

def FundingSource.preConsume (cfg : Config) (faults : AttemptFaults) (st : Store)
    (funding : FundingSource) (amount : Int) : Tx (Store × FundingSource) :=
  match funding with
  | .wallet userId consumed =>
    if amount ≤ 0 then some (.ok (st, .wallet userId consumed))
    else match orFail faults.decreaseUser (decreaseUserQuota st userId amount) with
      | .error message => some (.error message)
      | .ok st => some (.ok (st, .wallet userId amount))
  | .subscription f =>
    match preConsumeUserSubscription cfg.loc cfg.fuel faults.subscription st.charges f.requestId
        f.userId f.amount cfg.dbNow with
    | none => none
    | some (.error message) => some (.error message)
    | some (.ok (charges, res)) =>
      some (.ok ({ st with charges }, .subscription
        { f with
          subscriptionId := res.userSubscriptionId
          preConsumed := res.preConsumed
          amountTotal := res.amountTotal
          amountUsedAfter := res.amountUsedAfter }))

def FundingSource.settle (fault : Option String) (st : Store) (delta : Int) :
    FundingSource → Except String Store
  | .wallet userId _ =>
    if delta = 0 then .ok st
    else orFail fault (if 0 < delta then decreaseUserQuota st userId delta
      else increaseUserQuota st userId (wrap64 (-delta)))
  | .subscription f =>
    if delta = 0 then .ok st
    else orFail fault ((postConsumeUserSubscriptionDelta st.charges f.subscriptionId delta).map
      fun charges => { st with charges })

/-- An operation with `n` more attempts after a failed one; `faults i` is the error of the attempt
that has `i` more. -/
def refundWithRetry {α : Type} (faults : Nat → Option String) (op : Except String α) :
    Nat → Except String α
  | 0 => orFail (faults 0) op
  | n + 1 =>
    match orFail (faults (n + 1)) op with
    | .ok result => .ok result
    | .error _ => refundWithRetry faults op n

def FundingSource.refund (faults : Nat → Option String) (st : Store) :
    FundingSource → Except String Store
  | .wallet userId consumed =>
    if consumed ≤ 0 then .ok st
    else orFail (faults 0) (increaseUserQuota st userId consumed)
  | .subscription f =>
    if f.preConsumed ≤ 0 then .ok st
    else refundWithRetry faults ((refundSubscriptionPreConsume st.charges f.requestId).map
      fun charges => { st with charges }) 2

structure Session where
  relayInfo : RelayInfo
  funding : FundingSource
  preConsumedQuota : Int := 0
  tokenConsumed : Int := 0
  fundingSettled : Bool := false
  settled : Bool := false
  refunded : Bool := false
deriving DecidableEq, Repr

def Session.shouldTrust (cfg : Config) (s : Session) : Bool :=
  !s.relayInfo.forcePreConsume && 0 < cfg.trustQuota &&
  (s.relayInfo.tokenUnlimited || cfg.trustQuota < s.relayInfo.tokenQuota) &&
  match s.funding.source with
  | .wallet => cfg.trustQuota < s.relayInfo.userQuota
  | .subscription => false

def Session.syncRelayInfo (s : Session) : Session :=
  let info :=
    { s.relayInfo with
      finalPreConsumedQuota := s.preConsumedQuota
      billingSource := some s.funding.source }
  { s with relayInfo :=
      match s.funding with
      | .subscription sub =>
        { info with
          subscriptionId := sub.subscriptionId
          subscriptionPreConsumed := sub.preConsumed
          subscriptionPostDelta := 0
          subscriptionAmountTotal := sub.amountTotal
          subscriptionAmountUsedAfterPreConsume := sub.amountUsedAfter }
      | .wallet .. => { info with subscriptionId := 0, subscriptionPreConsumed := 0 } }

def subConsume (preConsumedQuota : Int) : Int :=
  if preConsumedQuota ≤ 0 then 1 else preConsumedQuota

def walletSession (info : RelayInfo) (userQuota : Int) : Session where
  relayInfo := { info with userQuota }
  funding := .wallet info.userId 0

def subscriptionSession (info : RelayInfo) (preConsumedQuota : Int) : Session where
  relayInfo := info
  funding := .subscription
    { requestId := info.requestId, userId := info.userId, amount := subConsume preConsumedQuota }

section
variable (cfg : Config) (faults : AttemptFaults) (st : Store)

def preConsumeTokenQuota (info : RelayInfo) (quota : Int) : Except String Store :=
  if quota < 0 then .error "quota 不能为负数！"
  else if info.isPlayground then .ok st
  else match orFail faults.getToken (match st.tokens.find? (·.key = info.tokenKey) with
      | some token => .ok token
      | none => .error "record not found") with
    | .error message => .error message
    | .ok token =>
      if !info.tokenUnlimited ∧ token.remainQuota < quota then
        .error ("token quota is not enough, token remain quota: " ++
          cfg.formatQuota token.remainQuota ++ ", need quota: " ++ cfg.formatQuota quota)
      else orFail faults.decreaseToken (decreaseTokenQuota st info.tokenId quota)

def fundingError (message : String) : NewAPIError :=
  if contains message "no active subscription" ∨ contains message "subscription quota insufficient"
  then forbidden ("订阅额度不足或未配置订阅: " ++ message) .insufficientUserQuota
  else newError message .updateDataError

def Session.rollBackToken (s : Session) : Store :=
  if 0 < s.tokenConsumed ∧ !s.relayInfo.isPlayground then
    match orFail faults.increaseToken
        (increaseTokenQuota st s.relayInfo.tokenId s.tokenConsumed) with
    | .ok st => st
    | .error _ => st
  else st

def Session.preConsume (s : Session) (quota : Int) : Option (Store × Except NewAPIError Session) :=
  let effectiveQuota := if s.shouldTrust cfg then 0 else quota
  match if 0 < effectiveQuota then preConsumeTokenQuota cfg faults st s.relayInfo effectiveQuota
      else .ok st with
  | .error message => some (st, .error (forbidden message .preConsumeTokenQuotaFailed))
  | .ok debited =>
    let s := if 0 < effectiveQuota then { s with tokenConsumed := effectiveQuota } else s
    match s.funding.preConsume cfg faults debited effectiveQuota with
    | none => none
    | some (.error message) =>
      some (s.rollBackToken faults debited, .error (fundingError message))
    | some (.ok (st, funding)) =>
      some (st, .ok
        ({ s with funding, preConsumedQuota := effectiveQuota } : Session).syncRelayInfo)

def tryWallet (info : RelayInfo) (preConsumedQuota : Int) :
    Option (Store × Except NewAPIError Session) :=
  match orFail faults.getUserQuota (.ok (st.quota info.userId)) with
  | .error message => some (st, .error (newError message .queryDataError))
  | .ok userQuota =>
    if userQuota ≤ 0 then
      some (st, .error (forbidden ("用户额度不足, 剩余额度: " ++ cfg.formatQuota userQuota)
        .insufficientUserQuota))
    else if wrap64 (userQuota - preConsumedQuota) < 0 then
      some (st, .error (forbidden ("预扣费额度失败, 用户剩余额度: " ++ cfg.formatQuota userQuota ++
        ", 需要预扣费额度: " ++ cfg.formatQuota preConsumedQuota) .insufficientUserQuota))
    else (walletSession info userQuota).preConsume cfg faults st preConsumedQuota

def trySubscription (info : RelayInfo) (preConsumedQuota : Int) :
    Option (Store × Except NewAPIError Session) :=
  (subscriptionSession info preConsumedQuota).preConsume cfg faults st (subConsume preConsumedQuota)

end

inductive BillingPreference
  | subscriptionFirst | walletFirst | subscriptionOnly | walletOnly
deriving DecidableEq, Repr

def normalizeBillingPreference (pref : String) : BillingPreference :=
  match trimSpace pref with
  | "wallet_first" => .walletFirst
  | "subscription_only" => .subscriptionOnly
  | "wallet_only" => .walletOnly
  | _ => .subscriptionFirst

structure SessionFaults where
  hasActive : Option String := none
  attempt : Source → AttemptFaults := fun _ => {}

def hasActiveUserSubscription (cfg : Config) (fault : Option String) (st : Store) (userId : Int) :
    Except String Bool :=
  if userId ≤ 0 then .error "invalid userId"
  else orFail fault (.ok (st.charges.hasActive userId cfg.now))

def orElse (first : Option (Store × Except NewAPIError Session))
    (second : Store → Option (Store × Except NewAPIError Session)) :
    Option (Store × Except NewAPIError Session) :=
  match first with
  | some (st, .error err) =>
    if err.errorCode = .insufficientUserQuota then second st else some (st, .error err)
  | result => result

def newBillingSession (cfg : Config) (faults : SessionFaults) (st : Store) (info : RelayInfo)
    (preConsumedQuota : Int) : Option (Store × Except NewAPIError Session) :=
  let wallet st := tryWallet cfg (faults.attempt .wallet) st info preConsumedQuota
  let subscription st := trySubscription cfg (faults.attempt .subscription) st info preConsumedQuota
  match normalizeBillingPreference info.billingPreference with
  | .subscriptionOnly => subscription st
  | .walletOnly => wallet st
  | .walletFirst => orElse (wallet st) subscription
  | .subscriptionFirst =>
    match hasActiveUserSubscription cfg faults.hasActive st info.userId with
    | .error message => some (st, .error (newError message .queryDataError))
    | .ok false => wallet st
    | .ok true => orElse (subscription st) wallet

def Session.adjustToken (fault : Option String) (st : Store) (s : Session) (delta : Int) :
    Except String Store :=
  if s.relayInfo.isPlayground then .ok st
  else orFail fault (if 0 < delta then decreaseTokenQuota st s.relayInfo.tokenId delta
    else increaseTokenQuota st s.relayInfo.tokenId (wrap64 (-delta)))

structure SettleFaults where
  funding : Option String := none
  token : Option String := none

def Session.commit (s : Session) (delta : Int) : Session :=
  { s with
    fundingSettled := true
    settled := true
    relayInfo :=
      if s.funding.source = .subscription then
        { s.relayInfo with
          subscriptionPostDelta := wrap64 (s.relayInfo.subscriptionPostDelta + delta) }
      else s.relayInfo }

def Session.settle (faults : SettleFaults) (st : Store) (s : Session) (actualQuota : Int) :
    Store × Session × Option String :=
  let delta := wrap64 (actualQuota - s.preConsumedQuota)
  if s.settled then (st, s, none)
  else if delta = 0 then (st, { s with settled := true }, none)
  else match if s.fundingSettled then .ok st else s.funding.settle faults.funding st delta with
    | .error message => (st, s, some message)
    | .ok st =>
      match s.adjustToken faults.token st delta with
      | .ok st => (st, s.commit delta, none)
      | .error message => (st, s.commit delta, some message)

def Session.needsRefund (s : Session) : Bool :=
  !s.settled && !s.refunded && !s.fundingSettled &&
  (0 < s.tokenConsumed || match s.funding with
    | .subscription sub => 0 < sub.preConsumed
    | .wallet .. => false)

structure RefundBody where
  tokenId : Int
  isPlayground : Bool
  tokenConsumed : Int
  funding : FundingSource
  fundingDone : Bool := false
deriving DecidableEq, Repr

def Session.refund (s : Session) : Session × Option RefundBody :=
  if s.settled ∨ s.refunded ∨ !s.needsRefund then (s, none)
  else ({ s with refunded := true },
    some { tokenId := s.relayInfo.tokenId, isPlayground := s.relayInfo.isPlayground,
           tokenConsumed := s.tokenConsumed, funding := s.funding })

def RefundBody.refundToken (fault : Option String) (st : Store) (body : RefundBody) :
    Except String Store :=
  if 0 < body.tokenConsumed ∧ !body.isPlayground then
    orFail fault (increaseTokenQuota st body.tokenId body.tokenConsumed)
  else .ok st

theorem orFail_ok {α : Type} {result : Except String α} {a : α} (h : orFail fault result = .ok a) :
    result = .ok a := by
  cases fault with
  | none => exact h
  | some message => contradiction

theorem nonNegative_ok (h : nonNegative quota st = .ok st') : 0 ≤ quota ∧ st = st' := by
  unfold nonNegative at h
  split at h
  · contradiction
  · exact ⟨by omega, Except.ok.inj h⟩

end EastApi.Billing
