import EastApi.Billing.Precharge
import EastApi.Lib.Run

/-! A realtime session: `Relay` opens a billing session, `OpenaiRealtimeHandler` reads the events of
the client and of the upstream in two goroutines and charges each usage with `PreWssConsumeQuota`,
and `PostWssConsumeQuota` writes the log at the end.  The session of `Relay` is refunded after an
error only, and nothing settles it. -/

namespace EastApi.Billing.Realtime

open Go Run Subscription Option

structure RealtimeUsage where
  totalTokens : Int := 0
  inputTokens : Int := 0
  outputTokens : Int := 0
  cachedTokens : Int := 0
  inputText : Int := 0
  inputAudio : Int := 0
  outputText : Int := 0
  outputAudio : Int := 0
deriving DecidableEq

def RealtimeUsage.add (a b : RealtimeUsage) : RealtimeUsage where
  totalTokens := wrap64 (a.totalTokens + b.totalTokens)
  inputTokens := wrap64 (a.inputTokens + b.inputTokens)
  outputTokens := wrap64 (a.outputTokens + b.outputTokens)
  cachedTokens := wrap64 (a.cachedTokens + b.cachedTokens)
  inputText := wrap64 (a.inputText + b.inputText)
  inputAudio := wrap64 (a.inputAudio + b.inputAudio)
  outputText := wrap64 (a.outputText + b.outputText)
  outputAudio := wrap64 (a.outputAudio + b.outputAudio)

def inputUsage (text audio : Int) : RealtimeUsage where
  totalTokens := wrap64 (text + audio)
  inputTokens := wrap64 (text + audio)
  inputText := text
  inputAudio := audio

def outputUsage (text audio : Int) : RealtimeUsage where
  totalTokens := wrap64 (text + audio)
  outputTokens := wrap64 (text + audio)
  outputText := text
  outputAudio := audio

structure RatioSetting where
  (completionRatio audioRatio audioCompletionRatio modelRatio groupRatio : String → ℚ)
  groupGroupRatio : String → String → Option ℚ
  quotaPerUnit : ℚ

structure QuotaInfo where
  usage : RealtimeUsage
  modelName : String
  usePrice : Bool
  modelPrice : ℚ := 0
  (modelRatio groupRatio : ℚ)

def calculateAudioQuota (rs : RatioSetting) (info : QuotaInfo) : Int :=
  if info.usePrice then
    wrap64 (truncate (info.modelPrice * rs.quotaPerUnit * info.groupRatio))
  else
    let completionRatio := rs.completionRatio info.modelName
    let audioRatio := rs.audioRatio info.modelName
    let audioCompletionRatio := rs.audioCompletionRatio info.modelName
    let ratio := info.groupRatio * info.modelRatio
    let quota := (info.usage.inputText + info.usage.outputText * completionRatio +
      info.usage.inputAudio * audioRatio +
      info.usage.outputAudio * audioRatio * audioCompletionRatio) * ratio
    let quota := if ratio ≠ 0 ∧ quota ≤ 0 then 1 else quota
    wrap64 (roundAway quota)

structure Info where
  relay : RelayInfo
  usePrice : Bool := false
  (originModelName upstreamModelName userGroup usingGroup : String)
  autoGroup : Option String := none
  priceUsePrice : Bool := false
  priceModelPrice : ℚ := 0
  priceModelRatio : ℚ := 0
  priceGroupRatio : ℚ := 0

/-- What `PreWssConsumeQuota` reads, from a cache or from the tables, and the errors of its
writes. -/
structure Reads where
  userQuota : Except String Int
  /-- `UnlimitedQuota` and `RemainQuota` of the token. -/
  token : Except String (Bool × Int)
  decreaseFunding : Option String := none
  decreaseToken : Option String := none

/-- The outcome of a charge. `charged` is what the funding source was charged, which can be followed
by an error of the token. -/
structure Charge where
  store : Store
  info : Info
  charged : Option Int := none
  error : Option String := none

def consumeFunding (fault : Option String) (st : Store) (info : RelayInfo) (quota : Int) :
    Except String (Store × RelayInfo) :=
  if info.billingSource = some .subscription then
    if info.subscriptionId = 0 then .error "subscription id is missing"
    else if quota = 0 then .ok (st, info)
    else (orFail fault (postConsumeUserSubscriptionDelta st.charges info.subscriptionId quota)).map
      fun charges => ({ st with charges }, { info with
        subscriptionPostDelta := wrap64 (info.subscriptionPostDelta + quota) })
  else (orFail fault (if 0 < quota then decreaseUserQuota st info.userId quota
      else increaseUserQuota st info.userId (wrap64 (-quota)))).map fun st => (st, info)

def consumeToken (fault : Option String) (st : Store) (info : RelayInfo) (quota : Int) :
    Except String Store :=
  if info.isPlayground then .ok st
  else orFail fault (if 0 < quota then decreaseTokenQuota st info.tokenId quota
    else increaseTokenQuota st info.tokenId (wrap64 (-quota)))

def postConsumeQuota (reads : Reads) (st : Store) (info : Info) (quota : Int) : Charge :=
  match consumeFunding reads.decreaseFunding st info.relay quota with
  | .error message => { store := st, info, error := some message }
  | .ok (st, relay) =>
    match consumeToken reads.decreaseToken st relay quota with
    | .error message =>
      { store := st, info := { info with relay }, charged := some quota, error := some message }
    | .ok st => { store := st, info := { info with relay }, charged := some quota }

def Info.withAutoGroup (info : Info) : Info :=
  match info.autoGroup with
  | some group => { info with usingGroup := group }
  | none => info

def Info.actualGroupRatio (rs : RatioSetting) (info : Info) : ℚ :=
  (rs.groupGroupRatio info.userGroup info.usingGroup).getD (rs.groupRatio info.usingGroup)

section
variable (rs : RatioSetting) (formatQuota : Int → String)

def preWssConsumeQuota (reads : Reads) (st : Store) (info : Info) (usage : RealtimeUsage) :
    Charge :=
  if info.usePrice then { store := st, info }
  else match reads.userQuota with
    | .error message => { store := st, info, error := some message }
    | .ok userQuota =>
      match reads.token with
      | .error message => { store := st, info, error := some message }
      | .ok (unlimited, remain) =>
        let info := info.withAutoGroup
        let quota := calculateAudioQuota rs
          { usage, modelName := info.originModelName, usePrice := info.usePrice,
            modelRatio := rs.modelRatio info.originModelName,
            groupRatio := info.actualGroupRatio rs }
        if userQuota < quota then
          { store := st, info, error := some ("user quota is not enough, user quota: " ++
              formatQuota userQuota ++ ", need quota: " ++ formatQuota quota) }
        else if !unlimited ∧ remain < quota then
          { store := st, info, error := some ("token quota is not enough, token remain quota: " ++
              formatQuota remain ++ ", need quota: " ++ formatQuota quota) }
        else postConsumeQuota reads st info quota

inductive Phase
  | relaying | flushUsage | flushLocal | settling | ended
deriving DecidableEq

structure State where
  store : Store
  info : Info
  usage : RealtimeUsage := {}
  localUsage : RealtimeUsage := {}
  sumUsage : RealtimeUsage := {}
  clientReads : Bool := true
  targetReads : Bool := true
  phase : Phase := .relaying
  /-- What `PreWssConsumeQuota` has charged, call by call. -/
  charged : List Int := []
  /-- The quota of the consume log. -/
  logged : Option Int := none
  /-- What `PostWssConsumeQuota` has added to the used quota of the user and of the channel. -/
  usedQuota : Int := 0

inductive Event
  /-- A message of the client, with the tokens counted in it. -/
  | client (text audio : Int)
  /-- `response.done`; tokens are counted where it has no usage. -/
  | responseDone (usage : Option RealtimeUsage) (text audio : Int) (reads : Reads)
  /-- `session.created` and `session.updated`. -/
  | session
  /-- Another message of the upstream. -/
  | upstream (text audio : Int)
  /-- A reader ends, by a close or by an error. -/
  | clientEnds | targetEnds
  /-- The select of the handler is left. -/
  | leave
  | flushUsage (reads : Reads)
  | flushLocal (reads : Reads)
  | post

def State.preConsumeUsage (s : State) (reads : Reads) (usage : RealtimeUsage) :
    State × Option String :=
  let r := preWssConsumeQuota rs formatQuota reads s.store s.info usage
  ({ s with
    sumUsage := s.sumUsage.add usage
    store := r.store
    info := r.info
    charged := s.charged ++ r.charged.toList }, r.error)

def State.chargeUsage (s : State) (reads : Reads) (usage : RealtimeUsage) (clear : State → State) :
    State :=
  match s.preConsumeUsage rs formatQuota reads usage with
  | (s, some _) => { s with targetReads := false }
  | (s, none) => clear s

def State.postWssConsumeQuota (s : State) : State :=
  let quota := calculateAudioQuota rs
    { usage := s.sumUsage, modelName := s.info.upstreamModelName, usePrice := s.info.priceUsePrice,
      modelPrice := s.info.priceModelPrice, modelRatio := s.info.priceModelRatio,
      groupRatio := s.info.priceGroupRatio }
  if s.sumUsage.totalTokens = 0 then { s with logged := some 0 }
  else { s with logged := some quota, usedQuota := s.usedQuota + quota }

def State.step (s : State) : Event → Option State
  | .client text audio =>
    if s.clientReads then some { s with localUsage := s.localUsage.add (inputUsage text audio) }
    else none
  | .responseDone usage text audio reads =>
    if s.targetReads ∧ s.phase ≠ .ended then
      match usage with
      | some usage =>
        let s := { s with usage := s.usage.add usage }
        some (s.chargeUsage rs formatQuota reads s.usage fun s =>
          { s with usage := {}, localUsage := {} })
      | none =>
        let s := { s with localUsage := s.localUsage.add (inputUsage text audio) }
        some (s.chargeUsage rs formatQuota reads s.localUsage fun s => { s with localUsage := {} })
    else none
  | .session => if s.targetReads then some s else none
  | .upstream text audio =>
    if s.targetReads then some { s with localUsage := s.localUsage.add (outputUsage text audio) }
    else none
  | .clientEnds => some { s with clientReads := false }
  | .targetEnds => some { s with targetReads := false }
  | .leave => if s.phase = .relaying then some { s with phase := .flushUsage } else none
  | .flushUsage reads =>
    if s.phase = .flushUsage then
      if s.usage.totalTokens ≠ 0 then
        some { (s.preConsumeUsage rs formatQuota reads s.usage).1 with phase := .flushLocal }
      else some { s with phase := .flushLocal }
    else none
  | .flushLocal reads =>
    if s.phase = .flushLocal then
      if s.localUsage.totalTokens ≠ 0 then
        some { (s.preConsumeUsage rs formatQuota reads s.localUsage).1 with phase := .settling }
      else some { s with phase := .settling }
    else none
  | .post =>
    if s.phase = .settling then some { s.postWssConsumeQuota rs with phase := .ended } else none

end

theorem quota_addUserQuota (st : Store) (id amount : Int) :
    (st.addUserQuota id amount).quota id = st.quota id + amount := Function.update_self ..

theorem consumeFunding_wallet (wallet : info.billingSource ≠ some .subscription)
    (lower : -2 ^ 63 ≤ quota) (h : consumeFunding fault st info quota = .ok (st', info')) :
    info' = info ∧ st'.quota info.userId = st.quota info.userId - quota := by
  rw [consumeFunding, if_neg wallet] at h
  obtain ⟨rfl, run⟩ : info' = info ∧ orFail fault (if 0 < quota then
      decreaseUserQuota st info.userId quota
      else increaseUserQuota st info.userId (wrap64 (-quota))) = .ok st' := by
    generalize orFail fault _ = result at h ⊢
    cases result with
    | error message => cases h
    | ok st1 =>
      cases h
      exact ⟨rfl, rfl⟩
  refine ⟨rfl, ?_⟩
  replace run := orFail_ok run
  split at run
  · obtain ⟨-, rfl⟩ := nonNegative_ok run
    rw [quota_addUserQuota]
    omega
  · obtain ⟨nonneg, rfl⟩ := nonNegative_ok run
    -- the least `int` is its own negative, and is refused
    have small : -quota < 2 ^ 63 := by
      by_contra large
      have : wrap64 (-quota) = -quota - 2 ^ 64 := wrap64_of_overflow (by omega) (by omega)
      omega
    rw [quota_addUserQuota, wrap64_of_fits (by omega) small]
    omega

theorem consumeToken_quota (h : consumeToken fault st info quota = .ok st') :
    st'.quota = st.quota := by
  unfold consumeToken at h
  split at h
  · cases h
    rfl
  · replace h := orFail_ok h
    split at h <;> obtain ⟨-, rfl⟩ := nonNegative_ok h <;> rfl

structure Info.PaysFrom (info : Info) (user : Int) : Prop where
  user : info.relay.userId = user
  wallet : info.relay.billingSource ≠ some .subscription

structure Charge.Taken (r : Charge) (user before : Int) : Prop where
  pays : r.info.PaysFrom user
  quota : r.store.quota user = before - r.charged.getD 0

theorem postConsumeQuota_taken (pays : info.PaysFrom user) (lower : -2 ^ 63 ≤ quota) :
    (postConsumeQuota reads st info quota).Taken user (st.quota user) := by
  obtain ⟨rfl, wallet⟩ := pays
  unfold postConsumeQuota
  split
  · exact ⟨⟨rfl, wallet⟩, by simp⟩
  next st1 relay run =>
    obtain ⟨rfl, paid⟩ := consumeFunding_wallet wallet lower run
    split
    · exact ⟨⟨rfl, wallet⟩, paid⟩
    next st2 token =>
      refine ⟨⟨rfl, wallet⟩, ?_⟩
      rw [consumeToken_quota token]
      exact paid

theorem preWssConsumeQuota_taken (pays : info.PaysFrom user) (usage : RealtimeUsage) :
    (preWssConsumeQuota rs formatQuota reads st info usage).Taken user (st.quota user) := by
  have auto : info.withAutoGroup.PaysFrom user := by
    unfold Info.withAutoGroup
    split <;> exact ⟨pays.user, pays.wallet⟩
  fun_cases preWssConsumeQuota rs formatQuota reads st info usage
  case case1 | case2 | case3 => exact ⟨pays, by simp⟩
  case case4 | case5 => exact ⟨auto, by simp⟩
  refine postConsumeQuota_taken auto ?_
  change _ ≤ calculateAudioQuota rs _
  unfold calculateAudioQuota
  split <;> exact (wrap64_bounds _).1

structure State.Paid (user opened : Int) (s : State) : Prop where
  pays : s.info.PaysFrom user
  quota : s.store.quota user = opened - s.charged.sum

section
variable {rs : RatioSetting} {formatQuota : Int → String} {user opened : Int} {s t : State}

theorem State.Paid.preConsumeUsage (h : s.Paid user opened) (reads : Reads)
    (usage : RealtimeUsage) :
    (s.preConsumeUsage rs formatQuota reads usage).1.Paid user opened := by
  have taken : (preWssConsumeQuota rs formatQuota reads s.store s.info usage).Taken user
    (s.store.quota user) := preWssConsumeQuota_taken h.pays usage
  refine ⟨taken.pays, ?_⟩
  simp only [State.preConsumeUsage, taken.quota, h.quota, List.sum_append]
  cases (preWssConsumeQuota rs formatQuota reads s.store s.info usage).charged with
  | none => simp
  | some quota =>
    simp only [getD_some, toList_some, List.sum_singleton]
    omega

theorem State.Paid.congr (h : s.Paid user opened) (store : t.store = s.store)
    (info : t.info = s.info) (charged : t.charged = s.charged) : t.Paid user opened :=
  ⟨info ▸ h.pays, by rw [store, charged, h.quota]⟩

theorem State.Paid.chargeUsage (h : s.Paid user opened) (reads : Reads) (usage : RealtimeUsage)
    {clear : State → State} (clears : ∀ s : State, (clear s).store = s.store ∧
      (clear s).info = s.info ∧ (clear s).charged = s.charged) :
    (s.chargeUsage rs formatQuota reads usage clear).Paid user opened := by
  have paid : (s.preConsumeUsage rs formatQuota reads usage).1.Paid user opened :=
    h.preConsumeUsage reads usage
  unfold State.chargeUsage
  split
  next run =>
    rw [run] at paid
    exact paid.congr rfl rfl rfl
  next after run =>
    rw [run] at paid
    obtain ⟨store, info, charged⟩ := clears after
    exact paid.congr store info charged

theorem State.Paid.step (h : s.Paid user opened) {e : Event}
    (hs : s.step rs formatQuota e = some t) : t.Paid user opened := by
  cases e with
  | client | session | upstream | leave =>
    obtain ⟨-, ⟨⟩⟩ := ite_none_right_eq_some.mp hs
    exact h.congr rfl rfl rfl
  | clientEnds | targetEnds =>
    cases hs
    exact h.congr rfl rfl rfl
  | responseDone usage text audio reads =>
    obtain ⟨-, hs⟩ := ite_none_right_eq_some.mp hs
    cases usage with
    | some _ | none =>
      cases hs
      refine State.Paid.chargeUsage ?_ reads _ fun _ => ⟨rfl, rfl, rfl⟩
      exact h.congr rfl rfl rfl
  | flushUsage reads =>
    obtain ⟨-, hs⟩ := ite_none_right_eq_some.mp hs
    split at hs <;> cases hs
    · exact (h.preConsumeUsage reads s.usage).congr rfl rfl rfl
    · exact h.congr rfl rfl rfl
  | flushLocal reads =>
    obtain ⟨-, hs⟩ := ite_none_right_eq_some.mp hs
    split at hs <;> cases hs
    · exact (h.preConsumeUsage reads s.localUsage).congr rfl rfl rfl
    · exact h.congr rfl rfl rfl
  | post =>
    obtain ⟨-, ⟨⟩⟩ := ite_none_right_eq_some.mp hs
    unfold State.postWssConsumeQuota
    simp only
    split <;> exact h.congr rfl rfl rfl

end

theorem rollBackToken_quota (faults : AttemptFaults) (st : Store) (s : Session) :
    (s.rollBackToken faults st).quota = st.quota := by
  fun_cases s.rollBackToken faults st <;> try rfl
  next run =>
    obtain ⟨-, rfl⟩ := nonNegative_ok (orFail_ok run)
    rfl

theorem tokenStage_quota
    (h : (if 0 < quota then preConsumeTokenQuota cfg faults st info quota else .ok st) = .ok st') :
    st'.quota = st.quota := by
  split at h
  · rw [preConsumeTokenQuota_ok h]
    rfl
  · cases h
    rfl

/-- What an attempt does to the wallets: an error leaves them, and a session that is paid from a
wallet has taken what it records. -/
structure Takes (cfg : Config) (info : RelayInfo) (quota : Int) (st : Store)
    (result : Option (Store × Except NewAPIError Session)) : Prop where
  error : ∀ after err, result = some (after, .error err) → after.quota = st.quota
  ok : ∀ after s, result = some (after, .ok s) → s.funding.source = .wallet →
    s.relayInfo.userId = info.userId ∧ s.relayInfo.billingSource = some .wallet ∧
      s.preConsumedQuota = (if s.shouldTrust cfg then 0 else quota) ∧
      after.quota info.userId = st.quota info.userId - max s.preConsumedQuota 0

theorem Takes.of_error (err : NewAPIError) : Takes cfg info quota st (some (st, .error err)) := by
  constructor
  · intro after err' same
    rw [← (Prod.mk.inj (some.inj same)).1]
  · intro after s same
    simp at same

section
variable {after : Store}

theorem funding_preConsume_source {funding funding' : FundingSource}
    (h : funding.preConsume cfg faults st amount = some (.ok (after, funding'))) :
    funding'.source = funding.source := by
  revert h
  fun_cases funding.preConsume cfg faults st amount <;> intro h <;> cases h <;> rfl

theorem wallet_preConsume
    (h : (FundingSource.wallet userId consumed).preConsume cfg faults st amount =
      some (.ok (after, funding))) : after.quota userId = st.quota userId - max amount 0 := by
  simp only [FundingSource.preConsume] at h
  split at h
  · cases h
    omega
  split at h
  · simp at h
  next taken =>
    obtain ⟨-, rfl⟩ := nonNegative_ok (orFail_ok taken)
    cases h
    rw [quota_addUserQuota]
    omega

theorem tokenStage_session (s : Session) (amount : Int) :
    (if 0 < amount then { s with tokenConsumed := amount } else s) =
      { s with tokenConsumed := if 0 < amount then amount else s.tokenConsumed } := by
  split <;> rfl

theorem preConsume_takes {s : Session} (relayUser : s.relayInfo.userId = info.userId)
    (user : ∀ id consumed, s.funding = .wallet id consumed → id = info.userId) :
    Takes cfg info quota st (s.preConsume cfg faults st quota) := by
  unfold Session.preConsume
  simp only
  split
  · exact .of_error _
  rename_i debited taken
  have kept := tokenStage_quota taken
  rw [tokenStage_session]
  split
  · exact ⟨fun _ _ same => by simp at same, fun _ _ same => by simp at same⟩
  · refine ⟨fun after err same => ?_, fun _ _ same => by simp at same⟩
    rw [← (Prod.mk.inj (some.inj same)).1, rollBackToken_quota, kept]
  next after funding run =>
    refine ⟨fun _ _ same => by simp at same, fun after' s' same wallet => ?_⟩
    obtain ⟨rfl, session⟩ := Prod.mk.inj (some.inj same)
    cases session
    have source := funding_preConsume_source run
    rw [(syncRelayInfo_keeps cfg _).2.2]
    cases funding with
    | subscription f => cases wallet
    | wallet id consumed =>
      refine ⟨relayUser, rfl, ?_, ?_⟩
      · simp only [Session.shouldTrust, source]
        rfl
      · cases given : s.funding with
        | subscription f => simp [given, FundingSource.source] at source
        | wallet id consumed =>
          obtain rfl := user id consumed given
          rw [← kept]
          simp only [given] at run
          exact wallet_preConsume run

theorem tryWallet_takes : Takes cfg info quota st (tryWallet cfg faults st info quota) := by
  fun_cases tryWallet cfg faults st info quota
  case case1 | case2 | case3 => exact .of_error _
  exact preConsume_takes rfl fun id consumed same => by cases same; rfl

theorem preConsume_source {s s' : Session}
    (h : s.preConsume cfg faults st quota = some (after, .ok s')) :
    s'.funding.source = s.funding.source := by
  revert h
  fun_cases s.preConsume cfg faults st quota <;> intro h <;> cases h
  next staged _ run =>
    simp only [staged, tokenStage_session] at run
    exact funding_preConsume_source run

theorem trySubscription_takes (asked : Int) :
    Takes cfg info quota st (trySubscription cfg faults st info asked) := by
  have takes : Takes cfg info (subConsume asked) st (trySubscription cfg faults st info asked) :=
    preConsume_takes rfl fun id consumed same => by cases same
  refine ⟨takes.error, fun after s same wallet => ?_⟩
  rw [preConsume_source same] at wallet
  cases wallet

theorem Takes.orElse (one : Takes cfg info quota st first)
    (two : ∀ st', Takes cfg info quota st' (second st')) :
    Takes cfg info quota st (orElse first second) := by
  unfold Billing.orElse
  split
  next st' err =>
    have kept := one.error st' err rfl
    split
    · refine ⟨fun after err' same => ((two st').error after err' same).trans kept,
        fun after s same wallet => ?_⟩
      rw [← kept]
      exact (two st').ok after s same wallet
    · refine ⟨fun after err' same => ?_, fun _ _ same => by simp at same⟩
      rw [← (Prod.mk.inj (some.inj same)).1, kept]
  · exact one

theorem newBillingSession_takes :
    Takes cfg info quota st (newBillingSession cfg faults st info quota) := by
  unfold newBillingSession
  simp only
  split
  · exact trySubscription_takes quota
  · exact tryWallet_takes
  · exact tryWallet_takes.orElse fun _ => trySubscription_takes quota
  · split
    · exact .of_error _
    · exact tryWallet_takes
    · exact (trySubscription_takes quota).orElse fun _ => tryWallet_takes

end

def sessionInfo (info : RelayInfo) : Option Session → RelayInfo
  | some s => s.relayInfo
  | none => info

def State.start (store : Store) (info : Info) : State := { store, info }

def preCharge : Option Session → Int
  | some s => max s.preConsumedQuota 0
  | none => 0

section
variable {cfg : Config} {faults : SessionFaults} {cpu : Processor} {p : Pricing} {fast : Bool}
  {mode : RelayMode} {param : String} {promptTokens : Int} {before opened : Store}
  {relayInfo : RelayInfo} {session : Option Session} {rs : RatioSetting}
  (relayed : relay cfg faults cpu p fast mode param promptTokens before relayInfo .base =
    some (opened, .ok session))
  (wallet : ∀ s ∈ session, s.funding.source = .wallet ∧ s.shouldTrust cfg = false)
  (fresh : relayInfo.billingSource = none)

include relayed wallet fresh

theorem relay_takes :
    (sessionInfo relayInfo session).userId = relayInfo.userId ∧
      (sessionInfo relayInfo session).billingSource ≠ some .subscription ∧
      opened.quota relayInfo.userId = before.quota relayInfo.userId - preCharge session ∧
      ∃ data, modelPriceHelper cpu p promptTokens {} = .ok data ∧
        (preCharge session = 0 ↔ data.freeModel = true ∨ data.quotaToPreConsume ≤ 0) := by
  obtain ⟨data, priced, ⟨free, rfl, rfl⟩ | ⟨charged, s, rfl, made⟩⟩ := relay_ok rfl relayed
  · exact ⟨rfl, by simp [sessionInfo, fresh], by simp [preCharge], data, priced,
      iff_of_true rfl (.inl free)⟩
  obtain ⟨source, trust⟩ := wallet s rfl
  obtain ⟨user, paysFrom, recorded, paid⟩ := newBillingSession_takes.ok _ s made source
  rw [trust, if_neg (by simp)] at recorded
  refine ⟨user, by simp [sessionInfo, paysFrom], paid, data, priced, ?_⟩
  simp only [preCharge, recorded, charged, Bool.false_eq_true, false_or]
  omega

/-- A realtime session at any point up to the end of `PostWssConsumeQuota`: the wallet has paid the
charges of the usages so far and the pre-charge of `Relay`.  So it has paid just the usages exactly
if the model is free or the pre-charge is nothing. -/
theorem realtime_net_iff {info : Info} (own : info.relay = sessionInfo relayInfo session)
    (events : List Event) {s : State}
    (run : Free (State.step rs cfg.formatQuota) (.start opened info) events s) :
    before.quota relayInfo.userId - s.store.quota relayInfo.userId =
        preCharge session + s.charged.sum ∧
      (before.quota relayInfo.userId - s.store.quota relayInfo.userId = s.charged.sum ↔
        ∃ data, modelPriceHelper cpu p promptTokens {} = .ok data ∧
          (data.freeModel = true ∨ data.quotaToPreConsume ≤ 0)) := by
  obtain ⟨user, source, taken, data, priced, free⟩ := relay_takes relayed wallet fresh
  have start : (State.start opened info).Paid relayInfo.userId (opened.quota relayInfo.userId) :=
    ⟨⟨own ▸ user, own ▸ source⟩, by simp [State.start]⟩
  have paid := run.invariant (I := State.Paid relayInfo.userId (opened.quota relayInfo.userId))
    (fun _ _ _ h _ hs => h.step hs) start
  have net : before.quota relayInfo.userId - s.store.quota relayInfo.userId =
      preCharge session + s.charged.sum := by
    rw [paid.quota, taken]
    omega
  refine ⟨net, ?_⟩
  rw [net]
  constructor
  · intro same
    exact ⟨data, priced, free.mp (by omega)⟩
  · rintro ⟨data', priced', nothing⟩
    obtain rfl := Except.ok.inj (priced.symm.trans priced')
    have := free.mpr nothing
    omega

end

def plainRatios : RatioSetting where
  completionRatio := fun _ => 1
  audioRatio := fun _ => 1
  audioCompletionRatio := fun _ => 1
  modelRatio := fun _ => 1
  groupRatio := fun _ => 1
  groupGroupRatio := fun _ _ => none
  quotaPerUnit := 500000

def oneResponse : List Event :=
  let reads : Reads := { userQuota := .ok 500, token := .ok (false, 400) }
  [.responseDone (some { totalTokens := 30, inputText := 10, outputText := 20 }) 0 0 reads,
   .targetEnds, .leave, .flushUsage reads, .flushLocal reads, .post]

def realtimeInfo : RelayInfo := { sampleInfo with billingPreference := "wallet_only" }

def realtimeCall (relay : RelayInfo) : Info where
  relay := relay
  originModelName := "rt"
  upstreamModelName := "rt"
  userGroup := "default"
  usingGroup := "default"

def relaySession (p : Pricing) : Option (Store × Except RelayError (Option Session)) :=
  relay sampleConfig {} amd64 p true .unknown "" 0 sampleStore realtimeInfo .base

def realtimeSample (p : Pricing) : Option (Store × Option Session × State) :=
  match relaySession p with
  | some (opened, .ok session) =>
    (exec (State.step plainRatios sampleConfig.formatQuota)
      (.start opened (realtimeCall (sessionInfo realtimeInfo session))) oneResponse).map
        fun s => (opened, session, s)
  | _ => none

theorem of_realtimeSample (h : realtimeSample p = some (opened, session, s)) :
    relaySession p = some (opened, .ok session) ∧
      exec (State.step plainRatios sampleConfig.formatQuota)
        (.start opened (realtimeCall (sessionInfo realtimeInfo session))) oneResponse = some s := by
  unfold realtimeSample at h
  split at h
  next relayed =>
    obtain ⟨s', ran, same⟩ := map_eq_some_iff.mp h
    obtain ⟨rfl, rfl, rfl⟩ : _ ∧ _ ∧ _ := by simpa using same
    exact ⟨relayed, ran⟩
  · contradiction

/-- A model with a price of 0 per call is not charged in advance: the 30 tokens are all that the
wallet pays. -/
theorem realtime_net_iff_unpriced :
    ∃ opened session s, realtimeSample { matchName := "rt", modelPrice := some 0 } =
        some (opened, session, s) ∧ s.phase = .ended ∧ s.charged = [30] ∧
      sampleStore.quota 7 - s.store.quota 7 = 30 := by
  have ends : (realtimeSample { matchName := "rt", modelPrice := some 0 }).map (fun r =>
      (r.2.1.map fun s => (s.funding.source, s.shouldTrust sampleConfig), r.2.2.phase,
        r.2.2.charged)) = some (some (.wallet, false), .ended, [30]) := by decide +kernel
  obtain ⟨⟨opened, session, s⟩, sample, same⟩ := map_eq_some_iff.mp ends
  obtain ⟨billed, phase, charged⟩ : session.map (fun s => (s.funding.source,
      s.shouldTrust sampleConfig)) = some (.wallet, false) ∧ s.phase = .ended ∧
      s.charged = [30] := by simpa using same
  obtain ⟨relayed, ran⟩ := of_realtimeSample sample
  have wallet : ∀ s ∈ session, s.funding.source = .wallet ∧ s.shouldTrust sampleConfig = false := by
    rintro s rfl
    simpa using billed
  have run := Path.of_exec (p := fun _ => True) ran fun _ _ => trivial
  have net := (realtime_net_iff relayed wallet rfl rfl oneResponse run).2.mpr
    ⟨⟨false, 0⟩, by decide +kernel, .inr (by decide)⟩
  rw [charged, List.sum_singleton] at net
  exact ⟨opened, session, s, sample, phase, charged, net⟩

/-- A session of 30 tokens with a pre-charge of 500: the wallet pays 530. -/
theorem realtime_precharge_kept :
    ∃ opened session s, relaySession { matchName := "rt" } = some (opened, .ok session) ∧
      exec (State.step plainRatios sampleConfig.formatQuota)
        (.start opened (realtimeCall (sessionInfo realtimeInfo session))) oneResponse = some s ∧
      s.phase = .ended ∧ s.charged = [30] ∧ sampleStore.quota 7 - s.store.quota 7 = 530 := by
  have ends : (realtimeSample { matchName := "rt" }).map (fun r => (r.2.2.phase, r.2.2.charged,
      sampleStore.quota 7 - r.2.2.store.quota 7)) = some (.ended, [30], 530) := by decide +kernel
  obtain ⟨⟨opened, session, s⟩, sample, same⟩ := map_eq_some_iff.mp ends
  obtain ⟨phase, charged, net⟩ : s.phase = .ended ∧ s.charged = [30] ∧
      sampleStore.quota 7 - s.store.quota 7 = 530 := by simpa using same
  obtain ⟨relayed, ran⟩ := of_realtimeSample sample
  exact ⟨opened, session, s, relayed, ran, phase, charged, net⟩

end EastApi.Billing.Realtime
