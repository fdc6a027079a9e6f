import EastApi.Billing.AllOrNothing
import EastApi.Lib.Run

/-! The calls on a billing session after it is made: `Settle` and `Refund` in any order, and the
goroutine of a refund, whose two halves run at any later time.  A step is a call whose store
operations all succeed. -/

namespace EastApi.Billing

open Go Subscription Run Option Int Except

inductive Outcome
  | settled (actual : Int)
  | refunded
deriving DecidableEq, Repr

structure Life where
  store : Store
  session : Session
  bodies : List RefundBody
  outcome : Option Outcome

inductive Call
  | settle (actual : Int)
  | refund
  | body (i : Nat)
deriving DecidableEq, Repr

def Life.start (store : Store) (session : Session) : Life := ⟨store, session, [], none⟩

def RefundBody.next (st : Store) (body : RefundBody) : Except String (Store × List RefundBody) :=
  if body.fundingDone then (body.refundToken none st).map fun st => (st, [])
  else (body.funding.refund (fun _ => none) st).map fun st =>
    (st, [{ body with fundingDone := true }])

def step (life : Life) : Call → Option Life
  | .settle actual =>
    match life.session.settle {} life.store actual with
    | (_, _, some _) => none
    | (store, session, none) =>
      some { life with
        store, session
        outcome := if life.session.settled then life.outcome
          else life.outcome.or (some (.settled actual)) }
  | .refund =>
    match life.session.refund with
    | (_, none) => some life
    | (session, some body) =>
      some { life with
        session
        bodies := life.bodies ++ [body]
        outcome := life.outcome.or (some .refunded) }
  | .body i =>
    match life.bodies[i]? with
    | none => none
    | some body =>
      match body.next life.store with
      | .error _ => none
      | .ok (store, rest) =>
        some { life with store, bodies := life.bodies.take i ++ rest ++ life.bodies.drop (i + 1) }

def net (preConsumed : Int) : Option Outcome → Int
  | none => preConsumed
  | some (.settled actual) => actual
  | some .refunded => 0

def FundingSource.Room (delta : Int) (amounts : List (Int × Int)) : FundingSource → Prop
  | .wallet .. => True
  | .subscription f => ∀ e ∈ amounts, e.1 = f.subscriptionId → 0 ≤ e.2 + delta

def settleable (life : Life) : Call → Prop
  | .settle actual =>
    let delta := actual - life.session.preConsumedQuota
    life.session.settled ∨ delta = 0 ∨
    life.session.refunded = false ∧ -2 ^ 63 < delta ∧ delta < 2 ^ 63 ∧
      life.session.funding.Room delta life.store.charges.amounts
  | .refund | .body _ => True

def Balances.ids (b : Balances) : List Int := b.amounts.map Prod.fst

variable {st : Store} {funding : FundingSource}

theorem unique_of_debit {base : Balances} (unique : base.ids.Nodup)
    (h : st.balances = base.debit funding tokenId a x) : st.charges.ids.Nodup := by
  have same : st.charges.ids = base.ids := by
    rw [Charges.ids_eq]
    change st.balances.ids = _
    rw [h]
    cases funding with
    | wallet userId consumed => rfl
    | subscription f => exact map_fst_raise _ _ _
  rw [same]
  exact unique

variable {st' : Store}

theorem settle_debited (tokenId : Int) (unique : st.charges.ids.Nodup) (lower : -2 ^ 63 < delta)
    (upper : delta < 2 ^ 63) (room : funding.Room delta st.charges.amounts)
    (h : funding.settle none st delta = .ok st') :
    st'.balances = st.balances.debit funding tokenId delta 0 := by
  by_cases zero : delta = 0
  · subst zero
    have same : st = st' := by
      cases funding <;> exact ok.inj h
    rw [← same, Balances.debit_zero]
  cases funding with
  | wallet userId consumed =>
    simp only [FundingSource.settle, zero, ↓reduceIte, orFail] at h
    split at h
    · obtain ⟨-, rfl⟩ := nonNegative_ok h
      exact balances_addUserQuota st userId consumed tokenId delta
    · rw [wrap64_of_fits (by omega) (by omega)] at h
      obtain ⟨-, rfl⟩ := nonNegative_ok h
      exact balances_addUserQuota st userId consumed tokenId delta
  | subscription f =>
    simp only [FundingSource.settle, zero, ↓reduceIte, orFail] at h
    cases posted : postConsumeUserSubscriptionDelta st.charges f.subscriptionId delta with
    | error message =>
      rw [posted] at h
      contradiction
    | ok charges =>
      rw [posted] at h
      cases h
      ext1
      · rfl
      · exact (postConsume_raised unique room posted).1
      · exact (map_debit_zero _ _).symm

variable {s : Session}

theorem adjustToken_debited (lower : -2 ^ 63 < delta) (upper : delta < 2 ^ 63)
    (h : s.adjustToken none st delta = .ok st') :
    st' = st.debitToken s.relayInfo.tokenId (s.relayInfo.tokenShare delta) := by
  unfold Session.adjustToken at h
  unfold RelayInfo.tokenShare
  by_cases playground : s.relayInfo.isPlayground
  · simp only [playground, ↓reduceIte] at h ⊢
    rw [Store.debitToken, map_debit_zero, ok.inj h]
  simp only [playground, Bool.false_eq_true, ↓reduceIte, orFail] at h ⊢
  split at h
  · exact (nonNegative_ok h).2.symm
  · rw [wrap64_of_fits (by omega) (by omega)] at h
    rw [← (nonNegative_ok h).2, neg_neg]

variable {info : RelayInfo}

theorem refund_debited (tokenId : Int) (nonneg : 0 ≤ amount)
    (holds : funding.Holds info amount before st.charges) (unique : st.charges.ids.Nodup)
    (room : funding.Room (-amount) st.charges.amounts)
    (h : funding.refund (fun _ => none) st = .ok st') :
    st'.balances = st.balances.debit funding tokenId (-amount) 0 := by
  cases funding with
  | wallet userId consumed =>
    obtain ⟨-, rfl⟩ := holds
    rw [max_eq_left nonneg] at h ⊢
    simp only [FundingSource.refund, orFail] at h
    split at h
    · obtain rfl : amount = 0 := by omega
      rw [← Except.ok.inj h, neg_zero, Balances.debit_zero]
    · obtain ⟨-, rfl⟩ := nonNegative_ok h
      have back := balances_addUserQuota st userId amount tokenId (-amount)
      rwa [neg_neg] at back
  | subscription f =>
    obtain ⟨requestId, preConsumed, positive, -, found⟩ := holds
    simp only [FundingSource.refund, preConsumed, requestId, show ¬ amount ≤ 0 by omega, ↓reduceIte]
      at h
    cases lowered : refundSubscriptionPreConsume st.charges info.requestId with
    | error message => simp [lowered, refundWithRetry, orFail, Except.map] at h
    | ok charges =>
      simp only [lowered, refundWithRetry, orFail, Except.map] at h
      cases h
      have full : ∀ e ∈ st.charges.amounts, e.1 = f.subscriptionId → amount ≤ e.2 := by
        intro e he same
        have := room e he same
        omega
      ext1
      · rfl
      · exact refund_lowered found rfl positive unique full lowered
      · exact (map_debit_zero _ _).symm

theorem refundToken_debited {body : RefundBody} (tokenId : body.tokenId = info.tokenId)
    (isPlayground : body.isPlayground = info.isPlayground)
    (tokenConsumed : body.tokenConsumed = amount) (nonneg : 0 ≤ amount)
    (h : body.refundToken none st = .ok st') :
    st' = st.debitToken info.tokenId (info.tokenShare (-amount)) := by
  unfold RefundBody.refundToken at h
  unfold RelayInfo.tokenShare
  rw [tokenConsumed, isPlayground, tokenId] at h
  by_cases playground : info.isPlayground
  · simp only [playground, Bool.not_true, Bool.false_eq_true, and_false, ↓reduceIte] at h ⊢
    rw [Store.debitToken, map_debit_zero, ok.inj h]
  by_cases positive : 0 < amount
  · simp only [playground, positive, Bool.not_false, and_self, Bool.false_eq_true, ↓reduceIte,
      orFail] at h ⊢
    exact (nonNegative_ok h).2.symm
  · obtain rfl : amount = 0 := by omega
    simp only [lt_irrefl, false_and, ↓reduceIte] at h
    simp only [neg_zero, ite_self, Store.debitToken, map_debit_zero]
    exact (ok.inj h).symm

/-- Where a session stands between the calls: what has been taken so far, which goroutine is
pending, and which call has taken effect. -/
inductive Stage (info : RelayInfo) (before : Charges) (base : Balances) (funding : FundingSource)
    (pre : Int) (s : Session) : Store → List RefundBody → Option Outcome → Prop
  | opened {st : Store} : s.settled = false → s.fundingSettled = false → s.refunded = false →
      st.balances = base.debit funding info.tokenId pre (info.tokenShare pre) →
      funding.Holds info pre before st.charges →
      Stage info before base funding pre s st [] none
  | settled {st : Store} (actual : Int) : s.settled = true →
      st.balances = base.debit funding info.tokenId actual (info.tokenShare actual) →
      Stage info before base funding pre s st [] (some (.settled actual))
  | refunding {st : Store} : s.refunded = true →
      st.balances = base.debit funding info.tokenId pre (info.tokenShare pre) →
      funding.Holds info pre before st.charges →
      Stage info before base funding pre s st
        [⟨info.tokenId, info.isPlayground, pre, funding, false⟩] (some .refunded)
  | halfway {st : Store} : s.refunded = true →
      st.balances = base.debit funding info.tokenId 0 (info.tokenShare pre) →
      Stage info before base funding pre s st
        [⟨info.tokenId, info.isPlayground, pre, funding, true⟩] (some .refunded)
  | refunded {st : Store} : s.refunded = true → st.balances = base →
      Stage info before base funding pre s st [] (some .refunded)

structure BilledTo (info : RelayInfo) (payer : FundingSource) (pre : Int) (s : Session) : Prop where
  funding : s.funding = payer
  preConsumed : s.preConsumedQuota = pre
  tokenConsumed : s.tokenConsumed = pre
  tokenId : s.relayInfo.tokenId = info.tokenId
  isPlayground : s.relayInfo.isPlayground = info.isPlayground

theorem BilledTo.commit (h : BilledTo info payer pre s) (delta : Int) :
    BilledTo info payer pre (s.commit delta) := by
  refine ⟨h.funding, h.preConsumed, h.tokenConsumed, ?_, ?_⟩
  · unfold Session.commit
    simp only
    split <;> exact h.tokenId
  · unfold Session.commit
    simp only
    split <;> exact h.isPlayground

/-- What holds of a session and its store between any two calls, with the balances `base` before the
pre-charge. -/
structure Billed (info : RelayInfo) (before : Charges) (base : Balances) (payer : FundingSource)
    (pre : Int) (life : Life) : Prop where
  nonneg : 0 ≤ pre
  unique : base.ids.Nodup
  used : ∀ e ∈ base.amounts, 0 ≤ e.2
  session : BilledTo info payer pre life.session
  stage : Stage info before base payer pre life.session life.store life.bodies life.outcome

theorem settle_cases (h : s.settle {} st actual = (st', s', none)) :
    (s.settled = true ∧ st' = st ∧ s' = s) ∨
    (s.settled = false ∧ wrap64 (actual - s.preConsumedQuota) = 0 ∧ st' = st ∧
      s' = { s with settled := true }) ∨
    (s.settled = false ∧ wrap64 (actual - s.preConsumedQuota) ≠ 0 ∧
      s' = s.commit (wrap64 (actual - s.preConsumedQuota)) ∧ ∃ mid,
      (if s.fundingSettled then .ok st
        else s.funding.settle none st (wrap64 (actual - s.preConsumedQuota))) = .ok mid ∧
      s.adjustToken none mid (wrap64 (actual - s.preConsumedQuota)) = .ok st') := by
  revert h
  fun_cases Session.settle {} st s actual <;> intro h <;> cases h
  next settled => exact .inl ⟨settled, rfl, rfl⟩
  next open_ same => exact .inr (.inl ⟨by simpa using open_, same, rfl, rfl⟩)
  next open_ differs mid funded adjusted =>
    exact .inr (.inr ⟨by simpa using open_, differs, rfl, mid, funded, adjusted⟩)

section
variable {info : RelayInfo} {before : Charges} {base : Balances} {payer : FundingSource} {pre : Int}
  {life t : Life}

theorem single_found {i : Nat} (found : [b][i]? = some body) : i = 0 ∧ b = body := by
  cases i with
  | zero => exact ⟨rfl, some.inj found⟩
  | succ i => simp at found

variable (h : Billed info before base payer pre life)
include h

theorem Billed.settleOpen {actual : Int} (open_ : life.session.fundingSettled = false)
    (debited : life.store.balances = base.debit payer info.tokenId pre (info.tokenShare pre))
    (lower : -2 ^ 63 < actual - pre) (upper : actual - pre < 2 ^ 63)
    (room : payer.Room (actual - pre) life.store.charges.amounts)
    (funded : (if life.session.fundingSettled then .ok life.store
      else life.session.funding.settle none life.store (actual - pre)) = .ok mid)
    (adjusted : life.session.adjustToken none mid (actual - pre) = .ok st) :
    st.balances = base.debit payer info.tokenId actual (info.tokenShare actual) := by
  rw [if_neg (by simp [open_]), h.session.funding] at funded
  have paid := settle_debited info.tokenId (unique_of_debit h.unique debited) lower upper room
    funded
  have token := adjustToken_debited lower upper adjusted
  have share : life.session.relayInfo.tokenShare (actual - pre) =
      info.tokenShare (actual - pre) := by
    rw [RelayInfo.tokenShare, RelayInfo.tokenShare, h.session.isPlayground]
  have total : pre + (actual - pre) = actual := by omega
  rw [token, h.session.tokenId, share, balances_debitToken payer, paid, debited,
    Balances.debit_debit, Balances.debit_debit, add_zero, zero_add,
    RelayInfo.tokenShare_add, total]

theorem Billed.settle (ok : settleable life (.settle actual))
    (taken : step life (.settle actual) = some t) : Billed info before base payer pre t := by
  have stage := h.stage
  have preConsumed := h.session.preConsumed
  simp only [settleable, preConsumed, h.session.funding] at ok
  simp only [step] at taken
  split at taken
  · contradiction
  rename_i st s settled
  cases taken
  rcases settle_cases settled with ⟨done, rfl, rfl⟩ | ⟨unsettled, zero, rfl, rfl⟩ |
    ⟨unsettled, nonzero, rfl, mid, funded, adjusted⟩
  · simp only [done, ↓reduceIte]
    exact h
  · -- the difference is zero
    rw [preConsumed] at zero
    have same : actual = pre := by
      rcases ok with done | none | ⟨-, lower, upper, -⟩
      · rw [unsettled] at done
        contradiction
      · omega
      · rw [wrap64_of_fits (by omega) upper] at zero
        omega
    subst same
    refine ⟨h.nonneg, h.unique, h.used, { h.session with }, ?_⟩
    simp only [unsettled, Bool.false_eq_true, ↓reduceIte]
    generalize life.bodies = bodies, life.outcome = outcome at stage ⊢
    cases stage with
    | opened _ _ _ debited _ => exact .settled actual rfl debited
    | settled _ done _ =>
      rw [unsettled] at done
      contradiction
    | refunding late debited holds => exact .refunding late debited holds
    | halfway late debited => exact .halfway late debited
    | refunded late debited => exact .refunded late debited
  · rw [preConsumed] at nonzero funded adjusted
    rcases ok with done | none | ⟨early, lower, upper, room⟩
    · rw [unsettled] at done
      contradiction
    · rw [none] at nonzero
      contradiction
    rw [wrap64_of_fits (by omega) upper] at funded adjusted
    refine ⟨h.nonneg, h.unique, h.used, h.session.commit _, ?_⟩
    simp only [unsettled, Bool.false_eq_true, ↓reduceIte]
    generalize life.bodies = bodies, life.outcome = outcome at stage ⊢
    cases stage with
    | opened _ unfunded _ debited _ =>
      exact .settled actual rfl (h.settleOpen unfunded debited lower upper room funded adjusted)
    | settled _ done _ =>
      rw [unsettled] at done
      contradiction
    | refunding late _ _ | halfway late _ | refunded late _ =>
      rw [early] at late
      contradiction

theorem Billed.refund (taken : step life .refund = some t) :
    Billed info before base payer pre t := by
  have stage := h.stage
  simp only [step] at taken
  split at taken
  · cases taken
    exact h
  rename_i s body refunds
  cases taken
  unfold Session.refund at refunds
  split at refunds
  · simp at refunds
  rename_i active
  obtain ⟨rfl, sent⟩ := Prod.mk.injEq .. ▸ refunds
  cases sent
  refine ⟨h.nonneg, h.unique, h.used, { h.session with }, ?_⟩
  rw [h.session.tokenId, h.session.isPlayground, h.session.tokenConsumed, h.session.funding]
  generalize life.bodies = bodies, life.outcome = outcome at stage ⊢
  cases stage with
  | opened _ _ _ debited holds => exact .refunding rfl debited holds
  | settled _ done _ => exact absurd (.inl done) active
  | refunding late _ _ | halfway late _ | refunded late _ => exact absurd (.inr (.inl late)) active

theorem Billed.room (debited : st.balances = base.debit payer info.tokenId pre x) :
    payer.Room (-pre) st.charges.amounts := by
  cases payer with
  | wallet userId consumed => trivial
  | subscription f =>
    intro e he same
    have amounts : st.charges.amounts = base.amounts.map (raise f.subscriptionId pre) :=
      congrArg Balances.amounts debited
    rw [amounts] at he
    obtain ⟨entry, member, rfl⟩ := List.mem_map.mp he
    have used := h.used entry member
    unfold raise at same ⊢
    split
    · simp only
      omega
    next other =>
      rw [if_neg other] at same
      contradiction

theorem Billed.body (taken : step life (.body i) = some t) :
    Billed info before base payer pre t := by
  have stage := h.stage
  simp only [step] at taken
  split at taken
  · contradiction
  rename_i body found
  split at taken
  · contradiction
  rename_i st rest ran
  cases taken
  refine ⟨h.nonneg, h.unique, h.used, h.session, ?_⟩
  generalize life.bodies = bodies, life.outcome = outcome at stage found ⊢
  cases stage with
  | opened | settled | refunded => simp at found
  | refunding late debited holds =>
    obtain ⟨rfl, rfl⟩ := single_found found
    simp only [RefundBody.next, Bool.false_eq_true, ↓reduceIte] at ran
    cases paidBack : payer.refund (fun _ => none) life.store with
    | error message =>
      rw [paidBack] at ran
      contradiction
    | ok after =>
      rw [paidBack] at ran
      cases ran
      have back := refund_debited info.tokenId h.nonneg holds (unique_of_debit h.unique debited)
        (h.room debited) paidBack
      rw [debited, Balances.debit_debit, Int.add_right_neg, Int.add_zero] at back
      exact .halfway late back
  | halfway late debited =>
    obtain ⟨rfl, rfl⟩ := single_found found
    simp only [RefundBody.next, ↓reduceIte] at ran
    cases paidBack : RefundBody.refundToken none life.store
        ⟨info.tokenId, info.isPlayground, pre, payer, true⟩ with
    | error message =>
      rw [paidBack] at ran
      contradiction
    | ok after =>
      rw [paidBack] at ran
      cases ran
      obtain rfl := refundToken_debited rfl rfl rfl h.nonneg paidBack
      have back := balances_debitToken payer info.tokenId (info.tokenShare (-pre)) life.store
      rw [debited, Balances.debit_debit, RelayInfo.tokenShare_add, Int.add_right_neg, Int.add_zero,
        RelayInfo.tokenShare_zero, Balances.debit_zero] at back
      exact .refunded late back

theorem Billed.step (ok : settleable life call) (taken : step life call = some t) :
    Billed info before base payer pre t := by
  cases call with
  | settle actual => exact h.settle ok taken
  | refund => exact h.refund taken
  | body i => exact h.body taken

end

theorem Opened.billed (opened : Opened cfg info before after s) (nonneg : 0 ≤ s.preConsumedQuota)
    (unique : before.charges.ids.Nodup) (used : ∀ sub ∈ before.charges.subs, 0 ≤ sub.amountUsed) :
    ∃ base, Refreshed cfg info before base ∧
      Billed info before.charges base s.funding s.preConsumedQuota (Life.start after s) := by
  obtain ⟨base, refreshed, debited⟩ := opened.debited
  have all : max s.preConsumedQuota 0 = s.preConsumedQuota := max_eq_left nonneg
  refine ⟨base, refreshed, nonneg, ?_, ?_,
    ⟨rfl, rfl, opened.tokenConsumed.trans all, opened.tokenId, opened.isPlayground⟩,
    .opened opened.settled opened.fundingSettled opened.refunded (all ▸ debited) opened.holds⟩
  · obtain ⟨ids, -, rfl⟩ := refreshed
    rw [Charges.ids_eq, ← map_fst_clear ids] at unique
    exact unique
  · obtain ⟨ids, -, rfl⟩ := refreshed
    intro e he
    obtain ⟨entry, member, rfl⟩ := List.mem_map.mp he
    obtain ⟨sub, hsub, rfl⟩ := List.mem_map.mp member
    unfold clear
    split
    · exact le_refl 0
    · exact used sub hsub

/-- There are balances before the pre-charge, with the resets that were due, such that in every run
of calls that are all `settleable`, once no goroutine is pending, the amount taken from the funding
source and from the token is what the first effective call says: the actual amount of a settlement,
zero after a refund, and the pre-consumed amount if there was none. -/
theorem settled_or_refunded {cfg : Config} (faults : SessionFaults) {before after : Store}
    {info : RelayInfo} {quota : Int} {s : Session} (nonneg : 0 ≤ quota) (ready : Ready before info)
    (compensated : ∀ source, (faults.attempt source).increaseToken = none)
    (used : ∀ sub ∈ before.charges.subs, 0 ≤ sub.amountUsed)
    (made : newBillingSession cfg faults before info quota = some (after, .ok s)) :
    ∃ base, Refreshed cfg info before base ∧
      ∀ calls t, Path settleable step (Life.start after s) calls t → t.bodies = [] →
        t.store.balances = base.debit s.funding info.tokenId (net s.preConsumedQuota t.outcome)
          (info.tokenShare (net s.preConsumedQuota t.outcome)) := by
  obtain ⟨opened, pre⟩ := newBillingSession_opened ready compensated made
  obtain ⟨base, refreshed, start⟩ := opened.billed (pre nonneg) ready.unique used
  refine ⟨base, refreshed, fun calls t run ended => ?_⟩
  have stage := (run.invariant (fun _ _ _ hl ok taken => Billed.step hl ok taken) start).stage
  rw [ended] at stage
  generalize t.outcome = outcome at stage ⊢
  cases stage with
  | opened _ _ _ debited _ => exact debited
  | settled actual _ debited => exact debited
  | refunded _ same => rw [same, net, RelayInfo.tokenShare_zero, Balances.debit_zero]

def sampleLife (calls : List Call) : Option Life :=
  (newBillingSession sampleConfig {} sampleStore sampleInfo 200).bind fun r =>
    r.2.toOption.bind fun s => exec step (Life.start r.1 s) calls

theorem sampleLife_run (h : sampleLife calls = some t) :
    ∃ after s, newBillingSession sampleConfig {} sampleStore sampleInfo 200 = some (after, .ok s) ∧
      exec step (Life.start after s) calls = some t := by
  obtain ⟨⟨after, result⟩, made, found⟩ := bind_eq_some_iff.mp h
  obtain ⟨s, opened, run⟩ := bind_eq_some_iff.mp found
  cases result with
  | error err => simp [Except.toOption] at opened
  | ok s' =>
    obtain rfl := some.inj opened
    exact ⟨after, s', made, run⟩

/-- A settlement after the refund has ended takes the difference to what was given back. -/
theorem settled_after_refund :
    ∃ after s t,
      newBillingSession sampleConfig {} sampleStore sampleInfo 200 = some (after, .ok s) ∧
      Free step (Life.start after s) [.refund, .body 0, .body 0, .settle 300] t ∧
      t.bodies = [] ∧ net s.preConsumedQuota t.outcome = 0 ∧
      sampleStore.quota 7 = 1000 ∧ t.store.quota 7 = 900 := by
  have ends : (sampleLife [.refund, .body 0, .body 0, .settle 300]).map
      (fun t => (t.bodies, t.outcome, t.store.quota 7)) =
        some ([], some .refunded, 900) := by decide
  obtain ⟨t, found, result⟩ := map_eq_some_iff.mp ends
  obtain ⟨after, s, made, run⟩ := sampleLife_run found
  obtain ⟨bodies, outcome, quota⟩ : t.bodies = [] ∧ t.outcome = some .refunded ∧
      t.store.quota 7 = 900 := by simpa using result
  exact ⟨after, s, t, made, Path.of_exec run fun _ _ => trivial, bodies, by rw [outcome]; rfl, rfl,
    quota⟩

/-- A settlement with 300, and a refund that comes too late. -/
theorem settled_or_refunded_settlement :
    ∃ after s t,
      newBillingSession sampleConfig {} sampleStore sampleInfo 200 = some (after, .ok s) ∧
      Path settleable step (Life.start after s) [.settle 300, .refund] t ∧
      t.store.balances = sampleStore.balances.debit s.funding 3 300 300 := by
  have opens : (newBillingSession sampleConfig {} sampleStore sampleInfo 200).map
      (fun r => r.2.toOption.map fun s => (s.preConsumedQuota, s.refunded, s.funding)) =
        some (some (200, false, .wallet 7 200)) := by decide
  have ends : (sampleLife [.settle 300, .refund]).map (fun t => (t.bodies, t.outcome)) =
      some ([], some (.settled 300)) := by decide
  obtain ⟨t, found, result⟩ := map_eq_some_iff.mp ends
  obtain ⟨bodies, outcome⟩ := Prod.mk.inj result
  obtain ⟨after, s, made, run⟩ := sampleLife_run found
  obtain ⟨mid, settles, rest⟩ := bind_eq_some_iff.mp run
  obtain ⟨last, refunds, same⟩ := bind_eq_some_iff.mp rest
  obtain rfl := some.inj same
  obtain ⟨pre, refunded, funding⟩ : s.preConsumedQuota = 200 ∧ s.refunded = false ∧
      s.funding = .wallet 7 200 := by simpa [made, Except.toOption] using opens
  have ok : settleable (Life.start after s) (.settle 300) := by
    refine .inr (.inr ⟨refunded, ?_, ?_, ?_⟩)
    · simp [Life.start, pre]
    · simp [Life.start, pre]
    · simp [Life.start, funding, FundingSource.Room]
  have path : Path settleable step (Life.start after s) [.settle 300, .refund] last :=
    .cons ok settles (.cons trivial refunds (.nil _))
  obtain ⟨base, refreshed, taken⟩ := settled_or_refunded {} (by decide : (0 : Int) ≤ 200)
    sample_ready (fun _ => rfl) (by decide) made
  have total := taken _ last path bodies
  rw [outcome, refreshed.eq_of_calm sample_calm] at total
  exact ⟨after, s, last, made, path, total⟩

end EastApi.Billing
