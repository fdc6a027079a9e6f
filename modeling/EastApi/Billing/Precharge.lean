import EastApi.Billing.AllOrNothing
import EastApi.Billing.Pricing

/-! The pre-charge that a session records and the amount that is taken.  They differ where the token
limit of a request is so large that the price becomes negative and the wallet pays it. -/

namespace EastApi.Billing

open Go Option

/-- The user's subscriptions do not give the one unit that they are asked for where the price is not
positive. -/
def refusesUnit (cfg : Config) (faults : SessionFaults) (st : Store) (info : RelayInfo) : Prop :=
  ∃ err, trySubscription cfg (faults.attempt .subscription) st info 0 = some (st, .error err) ∧
    err.errorCode = .insufficientUserQuota

def asksWallet (cfg : Config) (faults : SessionFaults) (st : Store) (info : RelayInfo) : Prop :=
  match normalizeBillingPreference info.billingPreference with
  | .subscriptionOnly => False
  | .walletOnly | .walletFirst => True
  | .subscriptionFirst =>
    match hasActiveUserSubscription cfg faults.hasActive st info.userId with
    | .error _ => False
    | .ok false => True
    | .ok true => refusesUnit cfg faults st info

structure WalletAccepts (cfg : Config) (faults : SessionFaults) (st : Store) (info : RelayInfo)
    (quota : Int) : Prop where
  read : (faults.attempt .wallet).getUserQuota = none
  positive : 0 < st.quota info.userId
  enough : 0 ≤ wrap64 (st.quota info.userId - quota)
  untrusted : (walletSession info (st.quota info.userId)).shouldTrust cfg = false

theorem trySubscription_nonneg
    (made : trySubscription cfg faults st info quota = some (after, .ok s)) :
    0 ≤ s.preConsumedQuota := by
  rw [preConsume_recorded made]
  unfold subConsume
  split
  · omega
  · split <;> omega

section
variable (cfg : Config) (faults : SessionFaults) (st : Store) (info : RelayInfo)

theorem tryWallet_negative_iff (negative : quota < 0) :
    (∃ after s, tryWallet cfg (faults.attempt .wallet) st info quota = some (after, .ok s) ∧
      s.preConsumedQuota < 0) ↔ WalletAccepts cfg faults st info quota := by
  constructor
  · rintro ⟨after, s, made, recorded⟩
    unfold tryWallet at made
    cases read : (faults.attempt .wallet).getUserQuota with
    | some message => simp [read, orFail] at made
    | none =>
      simp only [read, orFail] at made
      split at made
      · simp at made
      split at made
      · simp at made
      refine ⟨read, by omega, by omega, ?_⟩
      rw [preConsume_recorded made] at recorded
      split at recorded
      · omega
      next untrusted => simpa using untrusted
  · intro accepts
    have positive := accepts.positive
    have enough := accepts.enough
    have run : (walletSession info (st.quota info.userId)).preConsume cfg
        (faults.attempt .wallet) st quota =
          some (st, .ok ({ walletSession info (st.quota info.userId) with
            preConsumedQuota := quota } : Session).syncRelayInfo) := by
      simp only [Session.preConsume, accepts.untrusted, Bool.false_eq_true, ↓reduceIte,
        show ¬ 0 < quota by omega]
      simp only [walletSession, FundingSource.preConsume, show quota ≤ 0 by omega, ↓reduceIte]
    refine ⟨st, _, ?_, lt_of_eq_of_lt (preConsume_recorded run) ?_⟩
    · simp only [tryWallet, accepts.read, orFail]
      rw [if_neg (by omega), if_neg (by omega)]
      exact run
    · rw [accepts.untrusted]
      exact negative

theorem trySubscription_negative (attempt : AttemptFaults) (negative : quota < 0) :
    trySubscription cfg attempt st info quota = trySubscription cfg attempt st info 0 := by
  have unit : subConsume quota = subConsume 0 := by
    rw [subConsume, subConsume, if_pos (by omega), if_pos (by omega)]
  simp only [trySubscription, subscriptionSession, unit]

variable {cfg faults st info}

theorem negative_recorded_iff (negative : quota < 0) (ready : Ready st info)
    (compensated : ∀ source, (faults.attempt source).increaseToken = none) :
    (∃ after s, newBillingSession cfg faults st info quota = some (after, .ok s) ∧
      s.preConsumedQuota < 0) ↔
    asksWallet cfg faults st info ∧ WalletAccepts cfg faults st info quota := by
  have wallet := tryWallet_negative_iff cfg faults st info negative
  have unit := trySubscription_negative cfg st info (faults.attempt .subscription) negative
  cases pref : normalizeBillingPreference info.billingPreference with
  | subscriptionOnly =>
    simp only [newBillingSession, asksWallet, pref, false_and, iff_false]
    rintro ⟨after, s, made, recorded⟩
    have := trySubscription_nonneg made
    omega
  | walletOnly =>
    simp only [newBillingSession, asksWallet, pref, true_and]
    exact wallet
  | walletFirst =>
    simp only [newBillingSession, asksWallet, pref, true_and]
    rw [← wallet]
    unfold orElse
    split
    next failed =>
      simp only [failed, some.injEq, Prod.mk.injEq, reduceCtorEq, and_false, false_and,
        exists_false, iff_false]
      rintro ⟨after, s, made, recorded⟩
      split at made
      · have := trySubscription_nonneg made
        omega
      · simp at made
    · exact Iff.rfl
  | subscriptionFirst =>
    cases active : hasActiveUserSubscription cfg faults.hasActive st info.userId with
    | error message => simp [newBillingSession, asksWallet, pref, active]
    | ok found =>
      cases found with
      | false =>
        simp only [newBillingSession, asksWallet, pref, active, true_and]
        exact wallet
      | true =>
        simp only [newBillingSession, asksWallet, pref, active, refusesUnit, unit]
        have attempt : Attempts cfg info 0 st _ :=
          trySubscription_attempt 0 ready (compensated .subscription)
        unfold orElse
        split
        next after err run =>
          obtain rfl := attempt.1.error after err run
          by_cases short : err.errorCode = .insufficientUserQuota
          · simp only [short, ↓reduceIte, wallet, run]
            simp [short]
          · simp [run, short]
        next given =>
          constructor
          · rintro ⟨after, s, made, recorded⟩
            have := trySubscription_nonneg made
            omega
          · rintro ⟨⟨err, run, -⟩, -⟩
            exact absurd run (given st err)

end

structure Pricing.NonNegative (p : Pricing) (counts : TokenCountMeta) : Prop where
  modelPrice : ∀ price, p.modelPrice = some price → 0 ≤ price
  imagePriceRatio : 0 ≤ counts.imagePriceRatio
  quotaPerUnit : 0 ≤ p.quotaPerUnit
  modelRatio : 0 ≤ p.modelRatio
  groupRatio : 0 ≤ p.groupRatio

/-- A request for `tokens` tokens whose negative price the wallet pays. -/
structure Underpaid (cfg : Config) (faults : SessionFaults) (p : Pricing) (st : Store)
    (info : RelayInfo) (tokens : Int) : Prop where
  byTokens : p.modelPrice = none
  configured : p.ratioSet ∨ p.acceptUnsetRatio
  negative : tokens * (p.modelRatio * p.groupRatio) ≤ -1
  asked : asksWallet cfg faults st info
  read : (faults.attempt .wallet).getUserQuota = none
  positive : 0 < st.quota info.userId
  room : st.quota info.userId < 2 ^ 63 + ⌈tokens * (p.modelRatio * p.groupRatio)⌉
  untrusted : (walletSession info (st.quota info.userId)).shouldTrust cfg = false

theorem underpaid_of_price (nonneg : p.NonNegative counts) (fits : st.quota info.userId < 2 ^ 63)
    (priced : modelPriceHelper cpu p promptTokens counts = .ok data)
    (negative : data.quotaToPreConsume < 0) (asked : asksWallet cfg faults st info)
    (accepts : WalletAccepts cfg faults st info data.quotaToPreConsume) :
    Underpaid cfg faults p st info (p.preConsumedTokens promptTokens counts) := by
  have of_priced {price x : ℚ} (same : p.priced price (cpu.toInt x) = data) :
      x ≤ -1 ∧ st.quota info.userId < 2 ^ 63 + ⌈x⌉ := by
    unfold Pricing.priced at same
    split at same <;> subst same
    · simp at negative
    · exact (cpu.toInt_negative_iff x accepts.positive fits).mp ⟨negative, accepts.enough⟩
  unfold modelPriceHelper at priced
  cases price : p.modelPrice with
  | none =>
    simp only [price] at priced
    split at priced
    · simp at priced
    rename_i configured
    obtain ⟨small, room⟩ := of_priced (Except.ok.inj priced)
    refine ⟨price, ?_, small, asked, accepts.read, accepts.positive, room, accepts.untrusted⟩
    by_cases set : p.ratioSet
    · exact .inl set
    · exact .inr (by simpa [set] using configured)
  | some modelPrice =>
    simp only [price] at priced
    obtain ⟨small, -⟩ := of_priced (Except.ok.inj priced)
    have cost : 0 ≤ (if counts.imagePriceRatio ≠ 0 then modelPrice * counts.imagePriceRatio
        else modelPrice) := by
      split
      · exact mul_nonneg (nonneg.modelPrice _ price) nonneg.imagePriceRatio
      · exact nonneg.modelPrice _ price
    have := mul_nonneg (mul_nonneg cost nonneg.quotaPerUnit) nonneg.groupRatio
    linarith

theorem Underpaid.price
    (h : Underpaid cfg faults p st info (p.preConsumedTokens promptTokens counts))
    (cpu : Processor) (fits : st.quota info.userId < 2 ^ 63) :
    ∃ quota, modelPriceHelper cpu p promptTokens counts = .ok ⟨false, quota⟩ ∧ quota < 0 ∧
      WalletAccepts cfg faults st info quota := by
  have negative := h.negative
  obtain ⟨below, enough⟩ := (cpu.toInt_negative_iff _ h.positive fits).mpr ⟨h.negative, h.room⟩
  refine ⟨_, ?_, below, h.read, h.positive, enough, h.untrusted⟩
  have configured : ¬ (!p.ratioSet ∧ !p.acceptUnsetRatio) := by
    rintro ⟨unset, refused⟩
    rcases h.configured with set | accepted
    · simp [set] at unset
    · simp [accepted] at refused
  have charged : ¬ (p.groupRatio = 0 ∨ p.modelRatio = 0) := by
    rintro (zero | zero) <;> rw [zero] at negative <;> norm_num at negative
  simp only [modelPriceHelper, h.byTokens, configured, ↓reduceIte, Pricing.priced, charged,
    and_false]

theorem relay_ok (valid : getAndValidateRequest mode param request = .ok accepted)
    (relayed : relay cfg faults cpu p fast mode param promptTokens st info request =
      some (after, .ok session)) :
    ∃ data, modelPriceHelper cpu p promptTokens (accepted.tokenCountMeta fast) = .ok data ∧
      (data.freeModel = true ∧ after = st ∧ session = none ∨ data.freeModel = false ∧
        ∃ s, session = some s ∧
          newBillingSession cfg faults st info data.quotaToPreConsume = some (after, .ok s)) := by
  revert relayed
  fun_cases relay cfg faults cpu p fast mode param promptTokens st info request <;>
    intro relayed <;> cases relayed
  next read data priced free =>
    cases valid.symm.trans read
    exact ⟨data, priced, .inl ⟨free, rfl, rfl⟩⟩
  next read data priced charged s made =>
    cases valid.symm.trans read
    exact ⟨data, priced, .inr ⟨by simpa using charged, s, rfl, made⟩⟩

/-- The pre-charge that a session records is not negative, and is what was taken from the funding
source and from the token, for just the requests that are not `Underpaid`. -/
theorem recorded_precharge_iff {cfg : Config} {faults : SessionFaults} (cpu : Processor)
    {p : Pricing}
    {fast : Bool} {mode : RelayMode} {param : String} {promptTokens : Int} {st : Store}
    {info : RelayInfo} {request accepted : Request} (ready : Ready st info)
    (compensated : ∀ source, (faults.attempt source).increaseToken = none)
    (fits : st.quota info.userId < 2 ^ 63)
    (valid : getAndValidateRequest mode param request = .ok accepted)
    (nonneg : p.NonNegative (accepted.tokenCountMeta fast)) :
    (∀ after s, relay cfg faults cpu p fast mode param promptTokens st info request =
        some (after, .ok (some s)) →
      0 ≤ s.preConsumedQuota ∧ ∃ base, Refreshed cfg info st base ∧
        after.balances = base.debit s.funding info.tokenId s.preConsumedQuota
          (info.tokenShare s.preConsumedQuota)) ↔
    ¬ Underpaid cfg faults p st info
      (p.preConsumedTokens promptTokens (accepted.tokenCountMeta fast)) := by
  constructor
  · intro recorded underpaid
    obtain ⟨quota, priced, negative, accepts⟩ := underpaid.price cpu fits
    obtain ⟨after, s, made, below⟩ :=
      (negative_recorded_iff negative ready compensated).mpr ⟨underpaid.asked, accepts⟩
    have relayed : relay cfg faults cpu p fast mode param promptTokens st info request =
        some (after, .ok (some s)) := by
      simp only [relay, valid, priced, made, Bool.false_eq_true, ↓reduceIte]
    have := (recorded after s relayed).1
    omega
  · intro sound after s relayed
    obtain ⟨data, priced, ⟨-, -, none⟩ | ⟨-, _, same, made⟩⟩ := relay_ok valid relayed
    · cases none
    cases same
    obtain ⟨opened, kept⟩ := newBillingSession_opened ready compensated made
    have pre : 0 ≤ s.preConsumedQuota := by
      by_contra below
      have negative : data.quotaToPreConsume < 0 := by
        by_contra quota
        exact below (kept (by omega))
      obtain ⟨asked, accepts⟩ := (negative_recorded_iff negative ready compensated).mp
        ⟨after, s, made, by omega⟩
      exact sound (underpaid_of_price nonneg fits priced negative asked accepts)
    obtain ⟨base, refreshed, debited⟩ := opened.debited
    rw [max_eq_left pre] at debited
    exact ⟨pre, base, refreshed, debited⟩

def walletInfo : RelayInfo := { sampleInfo with billingPreference := "wallet_only" }

def chatRequest (maxCompletionTokens : UInt64) : Request :=
  .text { model := "gpt-4o", messages := 1, maxCompletionTokens := some maxCompletionTokens }

def amd64 : Processor := .amd64

def relaySample (maxCompletionTokens : UInt64) :
    Option (Store × Except RelayError (Option Session)) :=
  relay sampleConfig {} amd64 { matchName := "gpt-4o" } true .chatCompletions "" 0 sampleStore
    walletInfo (chatRequest maxCompletionTokens)

theorem session_of_toOption {result : Except RelayError (Option Session)}
    (h : result.toOption.map (fun s => s.map (·.preConsumedQuota)) = some (some pre)) :
    ∃ s, result = .ok (some s) ∧ s.preConsumedQuota = pre := by
  cases result with
  | error err => simp [Except.toOption] at h
  | ok session =>
    obtain ⟨s, rfl, same⟩ := map_eq_some_iff.mp (some.inj h)
    exact ⟨s, rfl, same⟩

/-- A limit of `2^64 - 1000` tokens is read as -1000.  The session records a pre-charge of -500, and
nothing is taken or given. -/
theorem negative_precharge_recorded :
    ∃ after s, relaySample 18446744073709550616 = some (after, .ok (some s)) ∧
      s.preConsumedQuota = -500 ∧ after.quota 7 = sampleStore.quota 7 ∧
      after.tokens = sampleStore.tokens := by
  have ends : (relaySample 18446744073709550616).map (fun r => (r.1.quota 7, r.1.tokens,
      r.2.toOption.map fun s => s.map (·.preConsumedQuota))) =
        some (1000, sampleStore.tokens, some (some (-500))) := by decide +kernel
  obtain ⟨⟨after, result⟩, relayed, same⟩ := map_eq_some_iff.mp ends
  obtain ⟨quota, tokens, recorded⟩ : after.quota 7 = 1000 ∧ after.tokens = sampleStore.tokens ∧
      result.toOption.map (fun s => s.map (·.preConsumedQuota)) = some (some (-500)) := by
    simpa using same
  obtain ⟨s, rfl, pre⟩ := session_of_toOption recorded
  exact ⟨after, s, relayed, pre, quota, tokens⟩

/-- A limit of 100 tokens. -/
theorem recorded_precharge_small :
    ∃ after s, relaySample 100 = some (after, .ok (some s)) ∧
      after.balances = sampleStore.balances.debit s.funding 3 600 600 := by
  have ready : Ready sampleStore walletInfo := ⟨sample_ready.fresh, sample_ready.unique⟩
  have nonneg : Pricing.NonNegative { matchName := "gpt-4o" }
      ((chatRequest 100).tokenCountMeta true) :=
    ⟨fun _ h => (by contradiction), le_refl 0, by norm_num, by norm_num, by norm_num⟩
  have tokens : Pricing.preConsumedTokens { matchName := "gpt-4o" } 0
      ((chatRequest 100).tokenCountMeta true) = 600 := by decide
  have sound : ∀ after s, relaySample 100 = some (after, .ok (some s)) → 0 ≤ s.preConsumedQuota ∧
      ∃ base, Refreshed sampleConfig walletInfo sampleStore base ∧
        after.balances = base.debit s.funding 3 s.preConsumedQuota s.preConsumedQuota := by
    refine (recorded_precharge_iff amd64 ready (fun _ => rfl) (by decide) rfl nonneg).mpr ?_
    intro underpaid
    have negative := underpaid.negative
    rw [tokens] at negative
    norm_num at negative
  have ends : (relaySample 100).map (fun r => r.2.toOption.map fun s =>
      s.map (·.preConsumedQuota)) = some (some (some 600)) := by decide +kernel
  obtain ⟨⟨after, result⟩, relayed, same⟩ := map_eq_some_iff.mp ends
  obtain ⟨s, rfl, pre⟩ := session_of_toOption same
  obtain ⟨-, base, refreshed, debited⟩ := sound after s relayed
  rw [pre, refreshed.eq_of_calm sample_calm] at debited
  exact ⟨after, s, relayed, debited⟩

end EastApi.Billing
