import EastApi.Billing.Session
import EastApi.Lib.Reserve
import EastApi.Lib.Run

/-! Any number of requests that pay from one wallet with one token, statement by statement.  A
request that has passed a check is not seen by the next one until it debits. -/

namespace EastApi.Billing.Overdraw

open Go List

inductive Phase
  | idle
  | quotaChecked (s : Session)
  | tokenChecked (s : Session)
  | tokenTaken (s : Session)
  | rollingBack (s : Session) (error : NewAPIError)
  | done (result : Except NewAPIError Session)

/-- Where a request stands when the quota of its user was enough.  One that is trusted debits
nothing, and one of the playground has no token. -/
def walletChecked (cfg : Config) (info : RelayInfo) (quota userQuota : Int) : Phase :=
  let s := walletSession info userQuota
  let effectiveQuota := if s.shouldTrust cfg then 0 else quota
  if 0 < effectiveQuota then
    if info.isPlayground then .tokenTaken { s with tokenConsumed := effectiveQuota }
    else .quotaChecked s
  else .done (.ok ({ s with preConsumedQuota := effectiveQuota } : Session).syncRelayInfo)

def advance (cfg : Config) (info : RelayInfo) (quota : Int) (st : Store) (fault : Option String) :
    Phase → Option (Store × Phase)
  | .idle =>
    match orFail fault (.ok (st.quota info.userId)) with
    | .error message => some (st, .done (.error (newError message .queryDataError)))
    | .ok userQuota =>
      if userQuota ≤ 0 then
        some (st, .done (.error (forbidden ("用户额度不足, 剩余额度: " ++ cfg.formatQuota userQuota)
          .insufficientUserQuota)))
      else if wrap64 (userQuota - quota) < 0 then
        some (st, .done (.error (forbidden ("预扣费额度失败, 用户剩余额度: " ++
          cfg.formatQuota userQuota ++ ", 需要预扣费额度: " ++ cfg.formatQuota quota)
          .insufficientUserQuota)))
      else some (st, walletChecked cfg info quota userQuota)
  | .quotaChecked s =>
    match orFail fault (match st.tokens.find? (·.key = info.tokenKey) with
      | some token => .ok token
      | none => .error "record not found") with
    | .error message => some (st, .done (.error (forbidden message .preConsumeTokenQuotaFailed)))
    | .ok token =>
      if !info.tokenUnlimited ∧ token.remainQuota < quota then
        some (st, .done (.error (forbidden ("token quota is not enough, token remain quota: " ++
          cfg.formatQuota token.remainQuota ++ ", need quota: " ++ cfg.formatQuota quota)
          .preConsumeTokenQuotaFailed)))
      else some (st, .tokenChecked s)
  | .tokenChecked s =>
    match orFail fault (decreaseTokenQuota st info.tokenId quota) with
    | .error message => some (st, .done (.error (forbidden message .preConsumeTokenQuotaFailed)))
    | .ok st => some (st, .tokenTaken { s with tokenConsumed := quota })
  | .tokenTaken s =>
    match orFail fault (decreaseUserQuota st info.userId quota) with
    | .error message =>
      if 0 < s.tokenConsumed ∧ !info.isPlayground then
        some (st, .rollingBack s (fundingError message))
      else some (st, .done (.error (fundingError message)))
    | .ok st =>
      some (st, .done (.ok ({ s with
        funding := .wallet info.userId quota
        preConsumedQuota := quota } : Session).syncRelayInfo))
  | .rollingBack s error =>
    match orFail fault (increaseTokenQuota st info.tokenId s.tokenConsumed) with
    | .ok st => some (st, .done (.error error))
    | .error _ => some (st, .done (.error error))
  | .done _ => none

/-- The failure of the statement that an attempt makes next. -/
def faultAt (faults : AttemptFaults) : Phase → Option String
  | .idle => faults.getUserQuota
  | .quotaChecked _ => faults.getToken
  | .tokenChecked _ => faults.decreaseToken
  | .tokenTaken _ => faults.decreaseUser
  | .rollingBack _ _ => faults.increaseToken
  | .done _ => none

/-- The first `n` statements of an attempt that runs alone. -/
def alone (cfg : Config) (info : RelayInfo) (quota : Int) (faults : AttemptFaults) :
    ℕ → Store → Phase → Option (Store × Phase)
  | 0, st, p => some (st, p)
  | n + 1, st, p => (advance cfg info quota st (faultAt faults p) p).bind fun (st, p) =>
    alone cfg info quota faults n st p

def Ends (cfg : Config) (info : RelayInfo) (quota : Int) (faults : AttemptFaults) (st : Store)
    (p : Phase) (out : Option (Store × Except NewAPIError Session)) : Prop :=
  ∃ st' result n, out = some (st', result) ∧
    alone cfg info quota faults n st p = some (st', .done result)

theorem Ends.done (st : Store) (result : Except NewAPIError Session) :
    Ends cfg info quota faults st (.done result) (some (st, result)) :=
  ⟨st, result, 0, rfl, rfl⟩

theorem Ends.cons (h : advance cfg info quota st (faultAt faults p) p = some (st', p'))
    (rest : Ends cfg info quota faults st' p' out) : Ends cfg info quota faults st p out := by
  obtain ⟨last, result, n, rfl, run⟩ := rest
  refine ⟨last, result, n + 1, rfl, ?_⟩
  rw [alone, h]
  exact run

def preConsumeFunding (cfg : Config) (faults : AttemptFaults) (st : Store) (s : Session)
    (quota : Int) : Option (Store × Except NewAPIError Session) :=
  match s.funding.preConsume cfg faults st quota with
  | none => none
  | some (.error message) => some (s.rollBackToken faults st, .error (fundingError message))
  | some (.ok (st, funding)) =>
    some (st, .ok ({ s with funding, preConsumedQuota := quota } : Session).syncRelayInfo)

structure SameRequest (info : RelayInfo) (s : Session) : Prop where
  funding : s.funding = .wallet info.userId 0
  tokenId : s.relayInfo.tokenId = info.tokenId
  tokenKey : s.relayInfo.tokenKey = info.tokenKey
  unlimited : s.relayInfo.tokenUnlimited = info.tokenUnlimited
  playground : s.relayInfo.isPlayground = info.isPlayground

theorem tokenTaken_ends (faults : AttemptFaults) (positive : 0 < quota)
    (same : SameRequest info s) :
    Ends cfg info quota faults st (.tokenTaken s) (preConsumeFunding cfg faults st s quota) := by
  simp only [preConsumeFunding, FundingSource.preConsume, same.funding,
    if_neg (not_le.mpr positive)]
  cases debit : orFail faults.decreaseUser (decreaseUserQuota st info.userId quota) with
  | ok st' => exact .cons (by simp only [advance, faultAt, debit]) (.done st' _)
  | error message =>
    simp only [Session.rollBackToken, same.playground, same.tokenId]
    split
    next taken =>
      have next : advance cfg info quota st (faultAt faults (.tokenTaken s)) (.tokenTaken s) =
          some (st, .rollingBack s (fundingError message)) := by
        simp only [advance, faultAt, debit, if_pos taken]
      refine .cons next ?_
      cases back : orFail faults.increaseToken
          (increaseTokenQuota st info.tokenId s.tokenConsumed) with
      | ok st' => exact .cons (by simp only [advance, faultAt, back]) (.done st' _)
      | error _ => exact .cons (by simp only [advance, faultAt, back]) (.done st _)
    next untaken =>
      exact .cons (by simp only [advance, faultAt, debit, if_neg untaken]) (.done st _)

theorem quotaChecked_ends (faults : AttemptFaults) (positive : 0 < quota)
    (same : SameRequest info s) (tokenized : ¬ info.isPlayground = true) :
    Ends cfg info quota faults st (.quotaChecked s)
      (match preConsumeTokenQuota cfg faults st s.relayInfo quota with
        | .error message => some (st, .error (forbidden message .preConsumeTokenQuotaFailed))
        | .ok debited =>
          preConsumeFunding cfg faults debited { s with tokenConsumed := quota } quota) := by
  simp only [preConsumeTokenQuota, if_neg (show ¬ quota < 0 by omega), same.playground,
    if_neg tokenized, same.tokenKey, same.unlimited, same.tokenId]
  cases read : orFail faults.getToken (match st.tokens.find? (·.key = info.tokenKey) with
      | some token => .ok token
      | none => .error "record not found") with
  | error message => exact .cons (by simp only [advance, faultAt, read]) (.done st _)
  | ok token =>
    by_cases less : !info.tokenUnlimited ∧ token.remainQuota < quota
    · simp only [if_pos less]
      exact .cons (by simp only [advance, faultAt, read, if_pos less]) (.done st _)
    · have next : advance cfg info quota st (faultAt faults (.quotaChecked s)) (.quotaChecked s) =
          some (st, .tokenChecked s) := by
        simp only [advance, faultAt, read, if_neg less]
      refine .cons next ?_
      simp only [if_neg less]
      cases debit : orFail faults.decreaseToken (decreaseTokenQuota st info.tokenId quota) with
      | error message =>
        exact .cons (by simp only [advance, faultAt, debit]) (.done st _)
      | ok st' =>
        have next : advance cfg info quota st (faultAt faults (.tokenChecked s)) (.tokenChecked s) =
            some (st', .tokenTaken { s with tokenConsumed := quota }) := by
          simp only [advance, faultAt, debit]
        refine .cons next (tokenTaken_ends faults positive ?_)
        exact ⟨same.funding, same.tokenId, same.tokenKey, same.unlimited, same.playground⟩

theorem walletChecked_ends (faults : AttemptFaults) (userQuota : Int) :
    Ends cfg info quota faults st (walletChecked cfg info quota userQuota)
      ((walletSession info userQuota).preConsume cfg faults st quota) := by
  simp only [walletChecked, Session.preConsume]
  by_cases trusted : (walletSession info userQuota).shouldTrust cfg = true
  · simp only [if_pos trusted, lt_irrefl, if_false]
    exact .done st _
  simp only [if_neg trusted]
  by_cases positive : 0 < quota
  · simp only [if_pos positive]
    by_cases playground : info.isPlayground = true
    · have free : preConsumeTokenQuota cfg faults st
          (walletSession info userQuota).relayInfo quota = .ok st := by
        rw [preConsumeTokenQuota, if_neg (show ¬ quota < 0 by omega)]
        exact if_pos playground
      simp only [if_pos playground, free]
      exact tokenTaken_ends faults positive ⟨rfl, rfl, rfl, rfl, rfl⟩
    · simp only [if_neg playground]
      exact quotaChecked_ends faults positive ⟨rfl, rfl, rfl, rfl, rfl⟩ playground
  · simp only [if_neg positive, walletSession, FundingSource.preConsume,
      if_pos (not_lt.mp positive)]
    exact .done st _

theorem tryWallet_alone (faults : AttemptFaults) :
    Ends cfg info quota faults st .idle (tryWallet cfg faults st info quota) := by
  unfold tryWallet
  cases read : orFail faults.getUserQuota (.ok (st.quota info.userId)) with
  | error message => exact .cons (by simp only [advance, faultAt, read]) (.done st _)
  | ok userQuota =>
    simp only
    split
    next empty => exact .cons (by simp only [advance, faultAt, read, if_pos empty]) (.done st _)
    rename_i rich
    split
    next less =>
      exact .cons (by simp only [advance, faultAt, read, if_neg rich, if_pos less]) (.done st _)
    rename_i enough
    have next : advance cfg info quota st (faultAt faults .idle) .idle =
        some (st, walletChecked cfg info quota userQuota) := by
      simp only [advance, faultAt, read, if_neg rich, if_neg enough]
    exact .cons next (walletChecked_ends faults userQuota)

structure Sys (ω : Type) where
  store : Store
  phase : ω → Phase

structure Action (ω : Type) where
  request : ω
  fault : Option String := none

def heldQuota (quota : Int) : Phase → Int
  | .quotaChecked _ => quota
  | .tokenChecked _ => quota
  | .tokenTaken _ => quota
  | _ => 0

def heldToken (quota : Int) : Phase → Int
  | .tokenChecked _ => quota
  | _ => 0

section
variable {ω : Type} [DecidableEq ω] (cfg : Config) (info : ω → RelayInfo) (quota : ω → Int)

def step (s : Sys ω) (a : Action ω) : Option (Sys ω) :=
  (advance cfg (info a.request) (quota a.request) s.store a.fault (s.phase a.request)).map
    fun (store, p) => ⟨store, Function.update s.phase a.request p⟩

/-- The condition on a check: what it compares with leaves enough for the requests that have passed
the same check and have not debited yet, or it does not pass. -/
def leavesEnough [Fintype ω] (s : Sys ω) (a : Action ω) : Prop :=
  let info := info a.request
  match s.phase a.request with
  | .idle =>
    let userQuota := s.store.quota info.userId
    userQuota < quota a.request ∨ (walletSession info userQuota).shouldTrust cfg = true ∨
      Reserve.total (fun w => heldQuota (quota w)) s.phase + quota a.request ≤ userQuota
  | .quotaChecked _ => ∀ token ∈ s.store.tokens, token.key = info.tokenKey →
    token.remainQuota < quota a.request ∨
      Reserve.total (fun w => heldToken (quota w)) s.phase + quota a.request ≤ token.remainQuota
  | _ => True

end

/-- What one statement does to the store and to what the request holds. -/
inductive Effect (cfg : Config) (info : RelayInfo) (quota : Int) (st : Store) (p : Phase) :
    Store → Phase → Prop
  /-- The request ends, or goes on with what it holds. -/
  | move {p' : Phase} (fromQuota : heldQuota quota p' ≤ heldQuota quota p)
      (fromToken : heldToken quota p' ≤ heldToken quota p) : Effect cfg info quota st p st p'
  | checkQuota {p' : Phase} (idle : p = .idle) (enough : quota ≤ st.quota info.userId)
      (untrusted : (walletSession info (st.quota info.userId)).shouldTrust cfg = false)
      (held : heldQuota quota p' = quota ∧ heldToken quota p' = 0) :
      Effect cfg info quota st p st p'
  | checkToken {s : Session} {token : Token} (checked : p = .quotaChecked s)
      (found : st.tokens.find? (·.key = info.tokenKey) = some token)
      (enough : info.tokenUnlimited = true ∨ quota ≤ token.remainQuota) :
      Effect cfg info quota st p st (.tokenChecked s)
  /-- The token is debited, or gets back what was taken. -/
  | debitToken {p' : Phase} {amount : Int} (fromQuota : heldQuota quota p' ≤ heldQuota quota p)
      (fromToken : heldToken quota p' ≤ heldToken quota p - amount) :
      Effect cfg info quota st p (st.debitToken info.tokenId amount) p'
  | debitUser {s : Session} {result : Except NewAPIError Session} (taken : p = .tokenTaken s) :
      Effect cfg info quota st p (st.addUserQuota info.userId (-quota)) (.done result)

theorem heldQuota_nonneg (positive : 0 < quota) (p : Phase) : 0 ≤ heldQuota quota p := by
  cases p <;> simp only [heldQuota] <;> omega

theorem heldToken_nonneg (positive : 0 < quota) (p : Phase) : 0 ≤ heldToken quota p := by
  cases p <;> simp only [heldToken] <;> omega

theorem Effect.done (positive : 0 < quota) (result : Except NewAPIError Session) :
    Effect cfg info quota st p st (.done result) :=
  .move (heldQuota_nonneg positive p) (heldToken_nonneg positive p)

theorem advance_effect (positive : 0 < quota) (fits : quota < 2 ^ 63)
    (h : advance cfg info quota st fault p = some (st', p')) :
    Effect cfg info quota st p st' p' := by
  revert h
  fun_cases advance cfg info quota st fault p <;> intro h <;> cases h
  case case1 | case2 | case3 | case5 | case6 | case8 | case11 | case14 => exact .done positive _
  next read rich wraps =>
    obtain rfl := Except.ok.inj (orFail_ok read)
    by_cases trusted : (walletSession info (st.quota info.userId)).shouldTrust cfg = true
    · simp only [walletChecked, if_pos trusted, lt_irrefl, if_false]
      exact .done positive _
    · -- only a difference under the smallest `int` would wrap to one that is not negative
      have enough : quota ≤ st.quota info.userId := by
        by_contra less
        rw [wrap64_of_fits (by omega) (by omega)] at wraps
        omega
      refine .checkQuota rfl enough (Bool.eq_false_iff.mpr trusted) ?_
      simp only [walletChecked, if_neg trusted, if_pos positive]
      split <;> exact ⟨rfl, rfl⟩
  next token read enough =>
    have found : st.tokens.find? (·.key = info.tokenKey) = some token := by
      have read := orFail_ok read
      split at read <;> cases read
      assumption
    refine .checkToken rfl found ?_
    cases unlimited : info.tokenUnlimited with
    | true => exact .inl rfl
    | false => exact .inr (not_lt.mp fun less => enough ⟨by rw [unlimited]; rfl, less⟩)
  next debit =>
    obtain ⟨-, rfl⟩ := nonNegative_ok (orFail_ok debit)
    exact .debitToken le_rfl (by simp [heldToken])
  next => exact .move (heldQuota_nonneg positive _) le_rfl
  next debit =>
    obtain ⟨-, rfl⟩ := nonNegative_ok (orFail_ok debit)
    exact .debitUser rfl
  next back =>
    obtain ⟨taken, rfl⟩ := nonNegative_ok (orFail_ok back)
    exact .debitToken le_rfl (by simp [heldToken, taken])

/-- The token of the requests, as the primary key and the unique key of the table determine it. -/
structure TokenTable (id : Int) (key : String) (tokens : List Token) : Prop where
  unique : (tokens.map (·.id)).Nodup
  keyed : ∀ token ∈ tokens, token.key = key → token.id = id

@[simp] theorem Token.debit_id (id amount : Int) (token : Token) :
    (token.debit id amount).id = token.id := by
  unfold Token.debit
  split <;> rfl

@[simp] theorem Token.debit_key (id amount : Int) (token : Token) :
    (token.debit id amount).key = token.key := by
  unfold Token.debit
  split <;> rfl

theorem TokenTable.debit {id : Int} (h : TokenTable id key tokens) (amount : Int) :
    TokenTable id key (tokens.map (Token.debit id amount)) where
  unique := by
    rw [map_map]
    simpa [Function.comp_def] using h.unique
  keyed := by
    intro token member own
    obtain ⟨row, hrow, rfl⟩ := mem_map.mp member
    rw [Token.debit_key] at own
    rw [Token.debit_id]
    exact h.keyed row hrow own

section
variable {ω : Type} [Fintype ω] [DecidableEq ω]

structure Shared (user tokenId : Int) (tokenKey : String) (info : ω → RelayInfo) : Prop where
  userId : ∀ w, (info w).userId = user
  tokenId : ∀ w, (info w).tokenId = tokenId
  tokenKey : ∀ w, (info w).tokenKey = tokenKey
  limited : ∀ w, (info w).tokenUnlimited = false

structure Covers (quota : ω → Int) (user tokenId : Int) (tokenKey : String) (s : Sys ω) : Prop where
  wallet : Reserve.Covered (fun w => heldQuota (quota w)) (s.store.quota user) s.phase
  token : ∀ token ∈ s.store.tokens, token.id = tokenId →
    Reserve.Covered (fun w => heldToken (quota w)) token.remainQuota s.phase
  table : TokenTable tokenId tokenKey s.store.tokens

theorem Covers.step {s t : Sys ω} (shared : Shared user tokenId tokenKey info)
    (amounts : ∀ w, 0 < quota w ∧ quota w < 2 ^ 63) (h : Covers quota user tokenId tokenKey s)
    (ok : leavesEnough cfg info quota s a) (hstep : step cfg info quota s a = some t) :
    Covers quota user tokenId tokenKey t := by
  obtain ⟨⟨store, p'⟩, next, rfl⟩ := Option.map_eq_some_iff.mp hstep
  obtain ⟨positive, fits⟩ := amounts a.request
  have effect := advance_effect positive fits next
  cases effect with
  | move fromQuota fromToken =>
    exact ⟨h.wallet.keep fromQuota,
      fun token member own => (h.token token member own).keep fromToken,
      h.table⟩
  | checkQuota idle enough untrusted held =>
    simp only [leavesEnough, idle, shared.userId] at ok
    rw [shared.userId] at enough untrusted
    refine ⟨.reserve ?_, fun token member own => (h.token token member own).keep ?_, h.table⟩
    · show _ ≤ s.store.quota user + _
      rw [held.1, idle]
      rcases ok with less | trusted | left
      · omega
      · rw [untrusted] at trusted
        contradiction
      · simpa [heldQuota] using left
    · rw [held.2, idle]
      exact le_rfl
  | checkToken checked found enough =>
    rename_i session read
    simp only [leavesEnough, checked] at ok
    have member := mem_of_find?_eq_some found
    have own : read.key = (info a.request).tokenKey := by simpa using find?_some found
    have id : read.id = tokenId := h.table.keyed read member (own.trans (shared.tokenKey _))
    refine ⟨h.wallet.keep ?_, fun token hmem hid => .reserve ?_, h.table⟩
    · rw [checked]
      exact le_rfl
    · -- the row that was read is the one with the token's id
      obtain rfl : token = read :=
        inj_on_of_nodup_map h.table.unique hmem member (hid.trans id.symm)
      rw [shared.limited] at enough
      have left := ok token member own
      rw [checked]
      simp only [heldToken]
      rcases enough with unlimited | enough
      · contradiction
      · omega
  | debitToken fromQuota fromToken =>
    rename_i amount
    rw [shared.tokenId]
    refine ⟨h.wallet.keep fromQuota, fun token member own => ?_, h.table.debit amount⟩
    obtain ⟨row, hrow, rfl⟩ := mem_map.mp member
    rw [Token.debit_id] at own
    have lowered : (row.debit tokenId amount).remainQuota = row.remainQuota + -amount := by
      simp only [Token.debit, if_pos own]
      omega
    rw [lowered]
    exact (h.token row hrow own).move fromToken
  | debitUser taken =>
    have moved : ((s.store.addUserQuota (info a.request).userId (-quota a.request)).quota user) =
        s.store.quota user + -quota a.request := by
      simp [Store.addUserQuota, shared.userId]
    refine ⟨?_, fun token member own => (h.token token member own).keep ?_, h.table⟩
    · simp only [moved]
      apply h.wallet.move
      rw [taken]
      simp [heldQuota]
    · rw [taken]
      exact le_rfl

/-- While every check leaves enough for the requests that have passed it before, neither the wallet
nor the token is overdrawn. -/
theorem never_overdrawn (shared : Shared user tokenId tokenKey info)
    (amounts : ∀ w, 0 < quota w ∧ quota w < 2 ^ 63) {st : Store} (wallet : 0 ≤ st.quota user)
    (table : TokenTable tokenId tokenKey st.tokens)
    (remain : ∀ token ∈ st.tokens, token.id = tokenId → 0 ≤ token.remainQuota)
    {as : List (Action ω)} {t : Sys ω}
    (path : Run.Path (leavesEnough cfg info quota) (step cfg info quota)
      ⟨st, fun _ => .idle⟩ as t) :
    0 ≤ t.store.quota user ∧
      ∀ token ∈ t.store.tokens, token.id = tokenId → 0 ≤ token.remainQuota := by
  have start : Covers quota user tokenId tokenKey ⟨st, fun _ : ω => .idle⟩ :=
    ⟨.start (fun _ => rfl) wallet,
      fun token member own => .start (fun _ => rfl) (remain token member own), table⟩
  have covers := path.invariant (fun _ _ _ h ok hstep => h.step shared amounts ok hstep) start
  refine ⟨covers.wallet.nonneg fun w p => heldQuota_nonneg (amounts w).1 p, ?_⟩
  intro token member own
  exact (covers.token token member own).nonneg fun w p => heldToken_nonneg (amounts w).1 p

end

def noTrust : Config where
  trustQuota := 0
  formatQuota := toString
  loc := utc
  fuel := 0
  now := 0
  dbNow := 0

def walletStore (quota remain : Int) : Store where
  quota id := if id = 7 then quota else 0
  tokens := [⟨1, "k", remain, 0⟩]
  charges := ⟨[], fun _ => none, []⟩

def walletRequest (_ : Fin 2) : RelayInfo :=
  { userId := 7, tokenId := 1, tokenKey := "k", requestId := "r",
    billingPreference := "wallet_only" }

/-- Two requests for 100 with a wallet and a token of 100: both pass both checks before either of
them debits. -/
theorem overdrawn_by_two :
    ∃ t, Run.exec (step noTrust walletRequest fun _ => 100)
        ⟨walletStore 100 100, fun _ => .idle⟩
        [⟨0, none⟩, ⟨1, none⟩, ⟨0, none⟩, ⟨1, none⟩, ⟨0, none⟩, ⟨1, none⟩, ⟨0, none⟩, ⟨1, none⟩] =
          some t ∧
      t.store.quota 7 = -100 ∧ t.store.tokens = [⟨1, "k", -100, 200⟩] := by
  refine ⟨_, rfl, ?_, ?_⟩ <;> decide +kernel

/-- One request after the other, with 150 of each: the second one is refused. -/
theorem never_overdrawn_in_turn :
    ∃ t, Run.Path (leavesEnough noTrust walletRequest fun _ => 100)
        (step noTrust walletRequest fun _ => 100) ⟨walletStore 150 150, fun _ => .idle⟩
        [⟨0, none⟩, ⟨0, none⟩, ⟨0, none⟩, ⟨0, none⟩, ⟨1, none⟩] t ∧
      (0 ≤ t.store.quota 7 ∧ ∀ token ∈ t.store.tokens, token.id = 1 → 0 ≤ token.remainQuota) ∧
      t.store.quota 7 = 50 := by
  have shared : Shared 7 1 "k" walletRequest := ⟨by simp [walletRequest], by simp [walletRequest],
    by simp [walletRequest], by simp [walletRequest]⟩
  have table : TokenTable 1 "k" (walletStore 150 150).tokens := ⟨by decide, by decide⟩
  refine Run.Path.exists_and (.cons ?_ rfl (.cons ?_ rfl (.cons trivial rfl (.cons trivial rfl
    (.cons ?_ rfl (.nil _)))))) fun path =>
      ⟨never_overdrawn shared (by decide) (by decide) table (by decide) path, ?_⟩
  · exact .inr (.inr (by decide +kernel))
  · intro token member own
    exact .inr (by revert token; decide +kernel)
  · exact .inl (by decide +kernel)
  · decide +kernel

end EastApi.Billing.Overdraw
