import EastApi.Billing.Session

/-! What `NewBillingSession` takes.  A session that it returns has debited one funding source and
the token, by the amount that it records; an error leaves the store as it was, also where the first
of two sources has been tried and given up. -/

namespace EastApi.Billing

open Go Subscription Function List

variable {quota : Int} {st st' : Store}

def FundingSource.debitQuota (amount : Int) (quota : Int → Int) : FundingSource → Int → Int
  | .wallet userId _ => update quota userId (quota userId - amount)
  | .subscription _ => quota

def FundingSource.debitAmounts (amount : Int) (amounts : List (Int × Int)) :
    FundingSource → List (Int × Int)
  | .wallet .. => amounts
  | .subscription f => amounts.map (raise f.subscriptionId amount)

@[ext] structure Balances where
  quota : Int → Int
  amounts : List (Int × Int)
  tokens : List Token

def Store.balances (st : Store) : Balances := ⟨st.quota, st.charges.amounts, st.tokens⟩

def Balances.debit (funding : FundingSource) (tokenId fromFunding fromToken : Int) (b : Balances) :
    Balances where
  quota := funding.debitQuota fromFunding b.quota
  amounts := funding.debitAmounts fromFunding b.amounts
  tokens := b.tokens.map (Token.debit tokenId fromToken)

theorem Token.debit_debit (id a b : Int) (token : Token) :
    (token.debit id a).debit id b = token.debit id (a + b) := by
  unfold Token.debit
  by_cases own : token.id = id
  · simp only [own, ↓reduceIte]
    congr 1 <;> omega
  · simp only [own, ↓reduceIte]

theorem map_debit_zero (id : Int) (tokens : List Token) :
    tokens.map (Token.debit id 0) = tokens := by
  have same : Token.debit id 0 = fun token => token := by
    funext token
    unfold Token.debit
    split <;> simp
  rw [same, map_id']

theorem Balances.debit_zero (funding : FundingSource) (tokenId : Int) (b : Balances) :
    b.debit funding tokenId 0 0 = b := by
  ext1
  · cases funding with
    | wallet userId consumed => simp [debit, FundingSource.debitQuota]
    | subscription f => rfl
  · cases funding with
    | wallet userId consumed => rfl
    | subscription f => exact map_raise_zero _ _
  · exact map_debit_zero tokenId b.tokens

theorem Balances.debit_debit (funding : FundingSource) (tokenId a x a' x' : Int) (b : Balances) :
    (b.debit funding tokenId a x).debit funding tokenId a' x' =
      b.debit funding tokenId (a + a') (x + x') := by
  ext1
  · cases funding with
    | wallet userId consumed =>
      simp only [debit, FundingSource.debitQuota, update_idem, update_self]
      congr 1
      omega
    | subscription f => rfl
  · cases funding with
    | wallet userId consumed => rfl
    | subscription f => exact map_raise_raise _ a a' b.amounts
  · simp only [debit, map_map]
    exact map_congr_left fun token _ => Token.debit_debit tokenId x x' token

def RelayInfo.tokenShare (info : RelayInfo) (amount : Int) : Int :=
  if info.isPlayground then 0 else amount

theorem RelayInfo.tokenShare_add (info : RelayInfo) (a b : Int) :
    info.tokenShare a + info.tokenShare b = info.tokenShare (a + b) := by
  unfold tokenShare
  split <;> rfl

theorem RelayInfo.tokenShare_zero (info : RelayInfo) : info.tokenShare 0 = 0 := by
  unfold tokenShare
  split <;> rfl

theorem balances_debitToken (funding : FundingSource) (tokenId x : Int) (st : Store) :
    (st.debitToken tokenId x).balances = st.balances.debit funding tokenId 0 x := by
  have none := st.balances.debit_zero funding tokenId
  ext1
  · exact (congrArg Balances.quota none).symm
  · exact (congrArg Balances.amounts none).symm
  · rfl

theorem balances_addUserQuota (st : Store) (userId consumed tokenId amount : Int) :
    (st.addUserQuota userId (-amount)).balances =
      st.balances.debit (.wallet userId consumed) tokenId amount 0 := by
  ext1
  · rfl
  · rfl
  · exact (map_debit_zero _ _).symm

variable {cfg : Config} {faults : AttemptFaults} {info : RelayInfo}

theorem preConsumeTokenQuota_ok (h : preConsumeTokenQuota cfg faults st info quota = .ok st') :
    st' = st.debitToken info.tokenId (info.tokenShare quota) := by
  revert h
  fun_cases preConsumeTokenQuota cfg faults st info quota <;> intro h
  case case2 playground =>
    cases h
    simp [RelayInfo.tokenShare, playground, Store.debitToken, map_debit_zero]
  case case5 playground _ _ _ =>
    obtain ⟨-, rfl⟩ := nonNegative_ok (orFail_ok h)
    simp [RelayInfo.tokenShare, playground]
  all_goals cases h

variable {s : Session}

theorem rollBackToken_debited (st : Store) (compensated : faults.increaseToken = none)
    (nonneg : 0 ≤ s.tokenConsumed) :
    s.rollBackToken faults
      (st.debitToken s.relayInfo.tokenId (s.relayInfo.tokenShare s.tokenConsumed)) = st := by
  have back (x : Int) : (st.debitToken s.relayInfo.tokenId x).debitToken s.relayInfo.tokenId (-x)
      = st := by
    simp only [Store.debitToken, map_map, comp_def, Token.debit_debit,
      Int.add_right_neg, map_debit_zero]
  unfold Session.rollBackToken RelayInfo.tokenShare
  by_cases playground : s.relayInfo.isPlayground
  · simp [playground, Store.debitToken, map_debit_zero]
  by_cases positive : 0 < s.tokenConsumed
  · simp only [positive, playground, Bool.not_false, and_self, ↓reduceIte, compensated, orFail,
      increaseTokenQuota, nonNegative, Bool.false_eq_true, show ¬ s.tokenConsumed < 0 by omega]
    exact back _
  · have zero : s.tokenConsumed = 0 := by omega
    simp [zero, playground, Store.debitToken, map_debit_zero]

structure Ready (st : Store) (info : RelayInfo) : Prop where
  fresh : ∀ r ∈ st.charges.records, r.requestId ≠ info.requestId
  unique : st.charges.ids.Nodup

def Store.Due (cfg : Config) (st : Store) (info : RelayInfo) (id : Int) : Prop :=
  st.charges.Due cfg.loc cfg.dbNow (st.charges.candidates info.userId cfg.dbNow) id

def Refreshed (cfg : Config) (info : RelayInfo) (st : Store) (base : Balances) : Prop :=
  ∃ ids, (∀ id ∈ ids, st.Due cfg info id) ∧
    base = { st.balances with amounts := st.balances.amounts.map (clear ids) }

theorem Refreshed.refl (cfg : Config) (info : RelayInfo) (st : Store) :
    Refreshed cfg info st st.balances :=
  ⟨[], by simp, by rw [map_clear_nil]⟩

theorem Refreshed.eq_of_calm {base : Balances} (h : Refreshed cfg info st base)
    (calm : ∀ id, ¬ st.Due cfg info id) : base = st.balances := by
  obtain ⟨ids, due, rfl⟩ := h
  obtain rfl : ids = [] := eq_nil_iff_forall_not_mem.mpr fun id hid => calm id (due id hid)
  rw [map_clear_nil]

theorem Refreshed.of_debitToken {id x : Int} (funding : FundingSource)
    (h : Refreshed cfg info (st.debitToken id x) base) :
    ∃ base', Refreshed cfg info st base' ∧ base = base'.debit funding id 0 x := by
  obtain ⟨ids, due, rfl⟩ := h
  refine ⟨_, ⟨ids, due, rfl⟩, ?_⟩
  have none := Balances.debit_zero funding id
    { st.balances with amounts := st.balances.amounts.map (clear ids) }
  ext1
  · exact (congrArg Balances.quota none).symm
  · exact (congrArg Balances.amounts none).symm
  · rfl

/-- A funding source of a request that has given `amount`.  A subscription is one of the user's, and
has a record of the charge. -/
def FundingSource.Holds (info : RelayInfo) (amount : Int) (before after : Charges) :
    FundingSource → Prop
  | .wallet userId consumed => userId = info.userId ∧ consumed = max amount 0
  | .subscription f =>
    f.requestId = info.requestId ∧ f.preConsumed = amount ∧ 0 < amount ∧
    (∃ sub ∈ before.subs, sub.userId = info.userId ∧ sub.id = f.subscriptionId) ∧
    after.records.find? (fun r => r.requestId = info.requestId) =
      some ⟨info.requestId, info.userId, f.subscriptionId, amount, .consumed⟩

def FundingSource.BelongsTo (info : RelayInfo) (st : Store) : FundingSource → Prop
  | .wallet userId _ => userId = info.userId
  | .subscription f =>
    ∃ sub ∈ st.charges.subs, sub.userId = info.userId ∧ sub.id = f.subscriptionId

variable {amount : Int} {funding : FundingSource}

theorem FundingSource.Holds.belongsTo {after : Charges}
    (h : funding.Holds info amount st.charges after) :
    funding.BelongsTo info st := by
  cases funding with
  | wallet userId consumed => exact h.1
  | subscription f => exact h.2.2.2.1

structure Given (cfg : Config) (info : RelayInfo) (source : Source) (amount : Int)
    (before after : Store) (funding : FundingSource) : Prop where
  source : funding.source = source
  debited : ∃ base, Refreshed cfg info before base ∧
    after.balances = base.debit funding info.tokenId (max amount 0) 0
  holds : funding.Holds info amount before.charges after.charges

variable {after : Store}

theorem wallet_given
    (h : (FundingSource.wallet info.userId 0).preConsume cfg faults st amount =
      some (.ok (after, funding))) : Given cfg info .wallet amount st after funding := by
  simp only [FundingSource.preConsume] at h
  split at h
  · cases h
    have none := max_eq_right (by assumption : amount ≤ 0)
    refine ⟨rfl, ⟨_, .refl cfg info st, ?_⟩, rfl, none.symm⟩
    rw [none, Balances.debit_zero]
  split at h
  · simp at h
  next taken =>
    obtain ⟨-, rfl⟩ := nonNegative_ok (orFail_ok taken)
    cases h
    have all : max amount 0 = amount := max_eq_left (by omega)
    refine ⟨rfl, ⟨_, .refl cfg info st, ?_⟩, rfl, all.symm⟩
    rw [all]
    exact balances_addUserQuota st info.userId amount info.tokenId amount

theorem subscription_given (ready : Ready st info) (positive : 0 < amount)
    (requestId : f.requestId = info.requestId) (userId : f.userId = info.userId)
    (asked : f.amount = amount)
    (h : (FundingSource.subscription f).preConsume cfg faults st amount =
      some (.ok (after, funding))) : Given cfg info .subscription amount st after funding := by
  simp only [FundingSource.preConsume, requestId, userId, asked] at h
  split at h
  · contradiction
  · simp at h
  rename_i charges result run
  cases h
  obtain ⟨preConsumed, ⟨ids, due, amounts⟩, records, sub, hsub, id⟩ :=
    preConsume_taken ready.fresh run ready.unique
  have all : max amount 0 = amount := max_eq_left (by omega)
  refine ⟨rfl, ⟨_, ⟨ids, due, rfl⟩, ?_⟩, rfl, preConsumed, positive,
    ⟨sub, (mem_candidates.mp hsub).1, (mem_candidates.mp hsub).2.1, id⟩, ?_⟩
  · rw [all]
    ext1
    · rfl
    · exact amounts
    · exact (map_debit_zero _ _).symm
  · simp [records, find?_append, find_fresh ready.fresh]

structure Opened (cfg : Config) (info : RelayInfo) (before after : Store) (s : Session) : Prop where
  tokenId : s.relayInfo.tokenId = info.tokenId
  isPlayground : s.relayInfo.isPlayground = info.isPlayground
  debited : ∃ base, Refreshed cfg info before base ∧
    after.balances = base.debit s.funding info.tokenId (max s.preConsumedQuota 0)
      (info.tokenShare (max s.preConsumedQuota 0))
  holds : s.funding.Holds info s.preConsumedQuota before.charges after.charges
  tokenConsumed : s.tokenConsumed = max s.preConsumedQuota 0
  settled : s.settled = false
  fundingSettled : s.fundingSettled = false
  refunded : s.refunded = false

theorem Ready.debitToken (ready : Ready st info) (id amount : Int) :
    Ready (st.debitToken id amount) info :=
  ⟨ready.fresh, ready.unique⟩

theorem syncRelayInfo_keeps (cfg : Config) (s : Session) :
    s.syncRelayInfo.relayInfo.tokenId = s.relayInfo.tokenId ∧
    s.syncRelayInfo.relayInfo.isPlayground = s.relayInfo.isPlayground ∧
    s.syncRelayInfo.shouldTrust cfg = s.shouldTrust cfg := by
  unfold Session.syncRelayInfo Session.shouldTrust
  cases s.funding <;> exact ⟨rfl, rfl, rfl⟩

/-- What an attempt to take `quota` may return: an error leaves the store as it was, and a session
has taken what it records, which is nothing if it is trusted. -/
structure Attempt (cfg : Config) (info : RelayInfo) (quota : Int) (st : Store)
    (result : Option (Store × Except NewAPIError Session)) : Prop where
  error : ∀ after err, result = some (after, .error err) → after = st
  ok : ∀ after s, result = some (after, .ok s) → Opened cfg info st after s ∧
    ∃ asked, (asked = quota ∨ asked = subConsume quota) ∧
      s.preConsumedQuota = if s.shouldTrust cfg then 0 else asked

/-- The attempt also ends where no reset is due. -/
def Attempts (cfg : Config) (info : RelayInfo) (quota : Int) (st : Store)
    (result : Option (Store × Except NewAPIError Session)) : Prop :=
  Attempt cfg info quota st result ∧ ((∀ id, ¬ st.Due cfg info id) → result ≠ none)

theorem Attempts.of_error (err : NewAPIError) :
    Attempts cfg info quota st (some (st, .error err)) :=
  ⟨⟨fun after err' same => (Prod.mk.inj (Option.some.inj same)).1.symm,
    fun after s same => by simp at same⟩, by simp⟩

theorem tokenStage_ok (h : (if 0 < amount then preConsumeTokenQuota cfg faults st info amount
      else .ok st) = .ok st') :
    st' = st.debitToken info.tokenId (info.tokenShare (max amount 0)) := by
  split at h
  · rw [max_eq_left (by omega)]
    exact preConsumeTokenQuota_ok h
  · rw [max_eq_right (by omega), ← Except.ok.inj h]
    simp [RelayInfo.tokenShare, Store.debitToken, map_debit_zero]

theorem preConsume_recorded (h : s.preConsume cfg faults st quota = some (after, .ok s')) :
    s'.preConsumedQuota = if s.shouldTrust cfg then 0 else quota := by
  revert h
  fun_cases s.preConsume cfg faults st quota <;> intro h <;> cases h
  rfl

theorem preConsume_opened (cfg : Config) (st : Store) (info : RelayInfo)
    (quota : Int) (compensated : faults.increaseToken = none)
    (tokenId : s.relayInfo.tokenId = info.tokenId)
    (isPlayground : s.relayInfo.isPlayground = info.isPlayground)
    (new : s = { relayInfo := s.relayInfo, funding := s.funding })
    (effective : (if s.shouldTrust cfg then 0 else quota) = amount)
    (gives : ∀ x after funding,
      s.funding.preConsume cfg faults (st.debitToken info.tokenId x) amount =
        some (.ok (after, funding)) →
        Given cfg info s.funding.source amount (st.debitToken info.tokenId x) after funding) :
    (∀ after err, s.preConsume cfg faults st quota = some (after, .error err) → after = st) ∧
    (∀ after s', s.preConsume cfg faults st quota = some (after, .ok s') →
      Opened cfg info st after s' ∧
      s'.preConsumedQuota = (if s'.shouldTrust cfg then 0 else quota)) ∧
    ((∀ x, s.funding.preConsume cfg faults (st.debitToken info.tokenId x) amount ≠ none) →
      s.preConsume cfg faults st quota ≠ none) := by
  have share (x : Int) : s.relayInfo.tokenShare x = info.tokenShare x := by
    rw [RelayInfo.tokenShare, RelayInfo.tokenShare, isPlayground]
  unfold Session.preConsume
  simp only [effective]
  split
  · exact ⟨fun after err same => (Prod.mk.inj (Option.some.inj same)).1.symm,
      fun after s' same => by simp at same, by simp⟩
  rename_i debited taken
  obtain rfl := tokenStage_ok taken
  have consumed : (if 0 < amount then { s with tokenConsumed := amount } else s) =
      { s with tokenConsumed := max amount 0 } := by
    split
    · rw [max_eq_left (by omega)]
    · rw [max_eq_right (by omega), new]
  rw [consumed, tokenId]
  split
  next stuck => exact ⟨fun after err same => by simp at same, fun after s' same => by simp at same,
      fun ends => absurd stuck (ends _)⟩
  · -- the funding source has failed
    have back := rollBackToken_debited st (s := { s with tokenConsumed := max amount 0 })
      compensated (le_max_right amount 0)
    refine ⟨fun after err same => ?_, fun after s' same => by simp at same, by simp⟩
    rw [← (Prod.mk.inj (Option.some.inj same)).1, ← tokenId]
    exact back
  next after funding run =>
    obtain ⟨source, ⟨_, reset, paid⟩, holds⟩ := gives _ after funding run
    obtain ⟨base, refreshed, rfl⟩ := reset.of_debitToken funding
    rw [Balances.debit_debit, Int.zero_add, Int.add_zero, share] at paid
    obtain ⟨keepsId, keepsPlayground, keepsTrust⟩ := syncRelayInfo_keeps cfg
      { s with funding, preConsumedQuota := amount, tokenConsumed := max amount 0 }
    refine ⟨fun after err same => by simp at same, fun after' s' same => ?_, by simp⟩
    obtain ⟨rfl, session⟩ := Prod.mk.inj (Option.some.inj same)
    cases session
    refine ⟨⟨keepsId.trans tokenId, keepsPlayground.trans isPlayground, ⟨base, refreshed, paid⟩,
      holds, rfl, ?_, ?_, ?_⟩, ?_⟩
    on_goal 4 =>
      rw [keepsTrust, Session.shouldTrust, source]
      exact effective.symm
    all_goals rw [new]; rfl

section
variable {cfg : Config} {faults : AttemptFaults} {st : Store} {info : RelayInfo}

theorem tryWallet_attempt (cfg : Config) (st : Store) (info : RelayInfo) (quota : Int)
    (compensated : faults.increaseToken = none) :
    Attempts cfg info quota st (tryWallet cfg faults st info quota) := by
  unfold tryWallet
  split
  · exact .of_error _
  rename_i userQuota _
  split
  · exact .of_error _
  split
  · exact .of_error _
  obtain ⟨error, ok, ends⟩ := preConsume_opened cfg st info quota
    (s := walletSession info userQuota) compensated rfl rfl rfl rfl
    fun x after funding => wallet_given
  refine ⟨⟨error, fun after s made => ⟨(ok after s made).1, quota, .inl rfl, (ok after s made).2⟩⟩,
    fun _ => ends fun x => ?_⟩
  generalize (if (walletSession info userQuota).shouldTrust cfg then 0 else quota) = amount
  simp only [walletSession, FundingSource.preConsume]
  split
  · simp
  · split <;> simp

theorem trySubscription_attempt (quota : Int) (ready : Ready st info)
    (compensated : faults.increaseToken = none) :
    Attempts cfg info quota st (trySubscription cfg faults st info quota) := by
  have positive : 0 < subConsume quota := by
    unfold subConsume
    split <;> omega
  have untrusted : (subscriptionSession info quota).shouldTrust cfg = false := by
    simp [Session.shouldTrust, subscriptionSession, FundingSource.source]
  obtain ⟨error, ok, ends⟩ := preConsume_opened cfg st info (subConsume quota)
    (s := subscriptionSession info quota) compensated rfl rfl rfl (if_neg (by simp [untrusted]))
    fun x after funding => subscription_given (ready.debitToken info.tokenId x) positive rfl rfl rfl
  refine ⟨⟨error, fun after s made => ⟨(ok after s made).1, _, .inr rfl, (ok after s made).2⟩⟩,
    fun calm => ends fun x => ?_⟩
  simp only [subscriptionSession, FundingSource.preConsume]
  split
  · exact absurd (by assumption) (preConsume_ends calm)
  all_goals simp

end

theorem Attempts.orElse (one : Attempts cfg info quota st first)
    (other : Attempts cfg info quota st (second st)) :
    Attempts cfg info quota st (orElse first second) := by
  unfold Billing.orElse
  split
  next after err =>
    obtain rfl := one.1.error after err rfl
    split
    · exact other
    · exact .of_error err
  · exact one

section
variable {cfg : Config} {faults : SessionFaults} {st : Store} {info : RelayInfo}

theorem newBillingSession_attempt (quota : Int) (ready : Ready st info)
    (compensated : ∀ source, (faults.attempt source).increaseToken = none) :
    Attempts cfg info quota st (newBillingSession cfg faults st info quota) := by
  have wallet := tryWallet_attempt cfg st info quota (compensated .wallet)
  have subscription : Attempts cfg info quota st _ :=
    trySubscription_attempt quota ready (compensated .subscription)
  unfold newBillingSession
  simp only
  split
  · exact subscription
  · exact wallet
  · exact wallet.orElse subscription
  · split
    · exact .of_error _
    · exact wallet
    · exact subscription.orElse wallet

theorem newBillingSession_opened (ready : Ready st info)
    (compensated : ∀ source, (faults.attempt source).increaseToken = none)
    (made : newBillingSession cfg faults st info quota = some (after, .ok s)) :
    Opened cfg info st after s ∧ (0 ≤ quota → 0 ≤ s.preConsumedQuota) := by
  obtain ⟨opened, asked, amount, pre⟩ :=
    (newBillingSession_attempt quota ready compensated).1.ok after s made
  refine ⟨opened, fun nonneg => ?_⟩
  have : 0 ≤ asked := by
    unfold subConsume at amount
    split at amount <;> omega
  rw [pre]
  split <;> omega

end

/-- `NewBillingSession` is all or nothing: it returns, with an error it leaves the store as it was,
and a session has taken what it records from exactly one funding source of the user and from the
token: the whole quota, or nothing where it is trusted, and nothing from the token in the
playground. -/
theorem session_all_or_nothing {cfg : Config} (faults : SessionFaults) {st : Store}
    {info : RelayInfo} {quota : Int} (positive : 0 < quota) (ready : Ready st info)
    (calm : ∀ id, ¬ st.Due cfg info id)
    (compensated : ∀ source, (faults.attempt source).increaseToken = none) :
    ∃ after result, newBillingSession cfg faults st info quota = some (after, result) ∧
      match result with
      | .error _ => after = st
      | .ok s =>
        s.preConsumedQuota = (if s.shouldTrust cfg then 0 else quota) ∧
        s.funding.BelongsTo info st ∧
        after.balances = st.balances.debit s.funding info.tokenId s.preConsumedQuota
          (info.tokenShare s.preConsumedQuota) := by
  obtain ⟨attempt, ends⟩ : Attempts cfg info quota st _ :=
    newBillingSession_attempt quota ready compensated
  obtain ⟨⟨after, result⟩, made⟩ := Option.ne_none_iff_exists'.mp (ends calm)
  refine ⟨after, result, made, ?_⟩
  cases result with
  | error err => exact attempt.error after err made
  | ok s =>
    obtain ⟨opened, asked, amount, pre⟩ := attempt.ok after s made
    obtain ⟨base, refreshed, debited⟩ := opened.debited
    obtain rfl : asked = quota := by
      rw [subConsume, if_neg (by omega), or_self] at amount
      exact amount
    have nonneg : max s.preConsumedQuota 0 = s.preConsumedQuota := by
      refine max_eq_left ?_
      rw [pre]
      split <;> omega
    rw [refreshed.eq_of_calm calm, nonneg] at debited
    exact ⟨pre, opened.holds.belongsTo, debited⟩

def sampleStore : Store where
  quota := fun _ => 1000
  tokens := [⟨3, "sk-a", 900, 0⟩]
  charges := ⟨[⟨1, 7, 1, 120, 100, 0, 5000, .active, 0, 0, "", ""⟩], fun _ => some { id := 1 }, []⟩

def sampleInfo : RelayInfo where
  userId := 7
  tokenId := 3
  tokenKey := "sk-a"
  requestId := "r1"

def sampleConfig : Config := ⟨5000000, fun _ => "", utc, 0, 1000, 1000⟩

theorem sample_ready : Ready sampleStore sampleInfo where
  fresh := fun r hr => by cases hr
  unique := by decide

theorem sample_calm (id : Int) : ¬ sampleStore.Due sampleConfig sampleInfo id := by
  rintro ⟨sub, -, -, plan, found, -, periodic, -⟩
  obtain rfl : { id := 1 } = plan := Option.some.inj found
  exact periodic (by decide)

/-- The subscription cannot give 200: the debit of the token is rolled back, and the wallet pays. -/
theorem session_all_or_nothing_fallback :
    ∃ after s, newBillingSession sampleConfig {} sampleStore sampleInfo 200 = some (after, .ok s) ∧
      s.funding = .wallet 7 200 ∧
      after.balances = sampleStore.balances.debit (.wallet 7 200) 3 200 200 := by
  obtain ⟨after, result, run, spec⟩ := session_all_or_nothing {} (by decide : (0 : Int) < 200)
    sample_ready sample_calm fun _ => rfl
  have outcome : (newBillingSession sampleConfig {} sampleStore sampleInfo 200).map
      (fun r => r.2.toOption.map fun s => (s.preConsumedQuota, s.funding)) =
        some (some (200, .wallet 7 200)) := by decide
  rw [run] at outcome
  cases result with
  | error err => simp [Except.toOption] at outcome
  | ok s =>
    obtain ⟨pre, funding⟩ := Prod.mk.inj (Option.some.inj (Option.some.inj outcome))
    have debited := spec.2.2
    rw [pre, funding] at debited
    exact ⟨after, s, run, funding, debited⟩

end EastApi.Billing
