import EastApi.Billing.Lifecycle
import EastApi.Relay.AutoGroup

/-! The pre-charge of a request in `Relay`, from the end of `PreConsumeBilling` on.  A deferred
function refunds the session if the variable `newAPIError` holds an error, and the panic is caught
after it by the recovery of the server.  A panic leaves the variable as it is: in the first attempt
it holds no error, and the pre-charge is kept. -/

namespace EastApi.Relay.Release

open Billing Run

inductive HelperEnd
  | returned (err : Option ApiError)
  | panicked

structure HelperRun where
  settles : Option Int := none
  panics : Bool := false

def HelperRun.ends (h : HelperRun) (a : Attempt) : HelperEnd :=
  if h.panics then .panicked else .returned a.answer

inductive Phase
  /-- Before the next pass of the loop. -/
  | looping
  /-- The function is left; its deferred function has not run. -/
  | leaving
  | ended
deriving DecidableEq

structure Request where
  loop : Loop
  life : Life
  newAPIError : Option ApiError := none
  phase : Phase := .looping
  panicked : Bool := false
  helped : ℕ := 0

inductive Event
  /-- A pass of the loop, with what the helper does if it is called. -/
  | pass (attempt : Attempt) (helper : HelperRun)
  /-- The loop condition fails. -/
  | exhaust
  /-- The deferred function. -/
  | deferred
  /-- A half of the goroutine of a refund. -/
  | goroutine

def HelperRun.settle (h : HelperRun) (life : Life) : Option Life :=
  match h.settles with
  | none => some life
  | some actual => Billing.step life (.settle actual)

def Request.afterHelper (cfg : Config) (r : Request) : HelperEnd → Request
  | .panicked => { r with phase := .leaving, panicked := true }
  | .returned none => { r with newAPIError := none, phase := .leaving }
  | .returned (some e) =>
    let r := { r with newAPIError := some (normalizeViolationFeeError e) }
    if shouldRetry cfg r.loop.context r.newAPIError (cfg.retryTimes - r.loop.param.getRetry) then
      { r with loop.param := r.loop.param.increaseRetry }
    else { r with phase := .leaving }

def Request.pass (cfg : Config) (a : Attempt) (h : HelperRun) (r : Request) : Option Request :=
  match getChannel cfg a r.loop with
  | (some e, loop) => some { r with loop, newAPIError := some e, phase := .leaving }
  | (none, loop) =>
    let loop := { loop with useChannel := loop.useChannel ++ [loop.context.channelId] }
    match a.bodyError with
    | some e => some { r with loop, newAPIError := some e, phase := .leaving }
    | none =>
      (h.settle r.life).map fun life =>
        Request.afterHelper cfg
          { r with loop := { loop with channelMeta := true }, life, helped := r.helped + 1 }
          (h.ends a)

def Request.step (cfg : Config) (r : Request) : Event → Option Request
  | .pass a h =>
    if r.phase = .looping ∧ r.loop.param.getRetry ≤ cfg.retryTimes then r.pass cfg a h else none
  | .exhaust =>
    if r.phase = .looping ∧ cfg.retryTimes < r.loop.param.getRetry then
      some { r with phase := .leaving }
    else none
  | .deferred =>
    if r.phase = .leaving then
      match r.newAPIError with
      | none => some { r with phase := .ended }
      | some _ => (Billing.step r.life .refund).map fun life => { r with life, phase := .ended }
    else none
  | .goroutine => (Billing.step r.life (.body 0)).map fun life => { r with life }

/-- Helpers settle with an amount that is not negative, and one that returns without an error has
settled. -/
def sensible (r : Request) : Event → Prop
  | .pass a h => (∀ actual, h.settles = some actual → 0 ≤ actual ∧ actual < 2 ^ 63) ∧
      (h.ends a = .returned none → h.settles ≠ none ∨ r.life.session.settled = true)
  | _ => True

theorem settle_session (h : Billing.step life (.settle actual) = some t) :
    t.session.settled = true ∧ t.session.refunded = life.session.refunded := by
  simp only [Billing.step] at h
  split at h <;> cases h
  next settled =>
    rcases settle_cases settled with ⟨done, _, rfl⟩ | ⟨_, _, _, rfl⟩ | ⟨_, _, rfl, _⟩
    · exact ⟨done, rfl⟩
    · exact ⟨rfl, rfl⟩
    · exact ⟨rfl, rfl⟩

theorem body_session (h : Billing.step life (.body i) = some t) : t.session = life.session := by
  simp only [Billing.step] at h
  split at h <;> try cases h
  split at h <;> cases h
  rfl

theorem settleable_early (h : Billed info before base payer pre life) (fits : pre < 2 ^ 63)
    (early : life.session.refunded = false) (nonneg : 0 ≤ actual) (small : actual < 2 ^ 63) :
    settleable life (.settle actual) := by
  by_cases settled : life.session.settled = true
  · exact .inl settled
  · have pre_nonneg := h.nonneg
    refine .inr (.inr ⟨early, ?_, ?_, ?_⟩)
    · rw [h.session.preConsumed]
      omega
    · rw [h.session.preConsumed]
      omega
    · rw [h.session.preConsumed, h.session.funding]
      have stage := h.stage
      generalize life.bodies = bodies, life.outcome = outcome at stage
      cases stage with
      | opened _ _ _ debited _ =>
        have room := h.room debited
        cases payer with
        | wallet userId consumed => trivial
        | subscription f =>
          intro e member same
          have := room e member same
          omega
      | settled _ done _ => exact absurd done settled
      | refunding late _ _ | halfway late _ | refunded late _ =>
        rw [early] at late
        cases late

theorem refund_session (h : Billed info before base payer pre life) (positive : 0 < pre)
    (early : life.session.refunded = false) (taken : Billing.step life .refund = some t) :
    t.session.settled = true ∨ t.session.refunded = true := by
  by_cases settled : life.session.settled = true
  · left
    simp only [Billing.step, Session.refund, settled, true_or, if_true] at taken
    cases taken
    exact settled
  · right
    have open_ : life.session.fundingSettled = false := by
      have stage := h.stage
      generalize life.bodies = bodies, life.outcome = outcome at stage
      cases stage with
      | opened _ unfunded _ _ _ => exact unfunded
      | settled _ done _ => exact absurd done settled
      | refunding late _ _ | halfway late _ | refunded late _ =>
        rw [early] at late
        cases late
    have needs : life.session.needsRefund = true := by
      have taken : 0 < life.session.tokenConsumed := h.session.tokenConsumed ▸ positive
      simp [Session.needsRefund, settled, early, open_, taken]
    simp only [Billing.step, Session.refund, settled, early, needs] at taken
    cases taken
    rfl

structure Pending (info : Billing.RelayInfo) (before : Subscription.Charges) (base : Balances)
    (payer : FundingSource) (pre : Int) (r : Request) : Prop where
  billed : Billed info before base payer pre r.life
  early : r.phase ≠ .ended → r.life.session.refunded = false
  looping : r.phase = .looping → r.panicked = false ∧ (r.newAPIError = none ↔ r.helped = 0)
  unused : r.phase = .looping → r.newAPIError = none → r.loop.param.getRetry = 0
  left : r.phase ≠ .looping → r.newAPIError = none →
    r.life.session.settled = true ∨ r.panicked = true ∧ r.helped = 1
  first : r.panicked = true → r.helped = 1 → r.newAPIError = none
  kept : r.newAPIError = none → r.life.session.refunded = false
  ended : r.phase = .ended → r.newAPIError ≠ none →
    r.life.session.settled = true ∨ r.life.session.refunded = true

section
variable (h : Pending info before base payer pre r)
include h

theorem Pending.fail (looping : r.phase = .looping) (loop : Loop) (e : ApiError) :
    Pending info before base payer pre
      { r with loop, newAPIError := some e, phase := .leaving } where
  billed := h.billed
  early _ := h.early (by rw [looping]; nofun)
  looping := nofun
  unused := nofun
  left := nofun
  first panicked := absurd ((h.looping looping).1.symm.trans panicked) nofun
  kept := nofun
  ended := nofun

theorem Pending.helper (fits : pre < 2 ^ 63) (looping : r.phase = .looping) {helper : HelperRun}
    (amounts : ∀ actual, helper.settles = some actual → 0 ≤ actual ∧ actual < 2 ^ 63)
    (settled : helper.settle r.life = some life) :
    Billed info before base payer pre life ∧ life.session.refunded = false ∧
      (helper.settles ≠ none ∨ r.life.session.settled = true → life.session.settled = true) := by
  have early := h.early (by rw [looping]; nofun)
  revert settled
  fun_cases HelperRun.settle helper r.life <;> intro settled
  next none =>
    cases settled
    exact ⟨h.billed, early, fun some => some.resolve_left fun h => h none⟩
  next actual some =>
    obtain ⟨nonneg, small⟩ := amounts actual some
    obtain ⟨done, same⟩ := settle_session settled
    exact ⟨h.billed.settle (settleable_early h.billed fits early nonneg small) settled,
      same.trans early, fun _ => done⟩

theorem Pending.pass (fits : pre < 2 ^ 63) (looping : r.phase = .looping) {helper : HelperRun}
    (ok : sensible r (.pass a helper)) (passed : r.pass cfg a helper = some t) :
    Pending info before base payer pre t := by
  revert passed
  fun_cases Request.pass cfg a helper r <;> intro passed <;> try cases passed
  · exact h.fail looping _ _
  · exact h.fail looping _ _
  obtain ⟨life, settled, rfl⟩ := Option.map_eq_some_iff.mp passed
  obtain ⟨billed, early, done⟩ := h.helper fits looping ok.1 settled
  obtain ⟨calm, count⟩ := h.looping looping
  have calls {p : Prop} (panicked : r.panicked = true) : p :=
    absurd (calm.symm.trans panicked) nofun
  cases ends : helper.ends a with
  | panicked =>
    refine ⟨billed, fun _ => early, nofun, nofun, fun _ none => ?_, fun _ one => ?_,
      fun _ => early, nofun⟩
    · exact .inr ⟨rfl, by simpa [Request.afterHelper] using count.mp none⟩
    · exact count.mpr (by simpa [Request.afterHelper] using one)
  | returned err =>
    cases err with
    | none =>
      exact ⟨billed, fun _ => early, nofun, nofun, fun _ _ => .inl (done (ok.2 ends)),
        fun panicked => calls panicked, fun _ => early, nofun⟩
    | some e =>
      unfold Request.afterHelper
      dsimp only
      split
      · exact ⟨billed, fun _ => early, fun _ => ⟨calm, iff_of_false nofun nofun⟩, nofun,
          fun left => absurd looping left, fun panicked => calls panicked, nofun,
          fun ended => absurd (looping.symm.trans ended) nofun⟩
      · exact ⟨billed, fun _ => early, nofun, nofun, nofun, fun panicked => calls panicked, nofun,
          nofun⟩

theorem Pending.step (positive : 0 < pre) (fits : pre < 2 ^ 63) (ok : sensible r event)
    (taken : r.step cfg event = some t) : Pending info before base payer pre t := by
  revert ok taken
  fun_cases Request.step cfg r event <;> intro ok taken <;> try cases taken
  next ready => exact h.pass fits ready.1 ok taken
  next ready =>
    -- the first pass is always made, so that there is an error
    have failed : r.newAPIError ≠ none := by
      intro none
      have := h.unused ready.1 none
      omega
    exact ⟨h.billed, fun _ => h.early (by rw [ready.1]; nofun), nofun, nofun,
      fun _ none => absurd none failed,
      fun panicked => absurd ((h.looping ready.1).1.symm.trans panicked) nofun, h.kept, nofun⟩
  next leaving none =>
    have early := h.early (by rw [leaving]; nofun)
    exact ⟨h.billed, fun _ => early, nofun, nofun, fun _ => h.left (by rw [leaving]; nofun),
      h.first, fun _ => early, fun _ failed => absurd none failed⟩
  next leaving _ failed =>
    obtain ⟨life, refunds, rfl⟩ := Option.map_eq_some_iff.mp taken
    have failed : r.newAPIError ≠ none := by
      rw [failed]
      nofun
    exact ⟨h.billed.refund refunds, fun ended => absurd rfl ended, nofun, nofun,
      fun _ none => absurd none failed, h.first, fun none => absurd none failed,
      fun _ _ => refund_session h.billed positive (h.early (by rw [leaving]; nofun)) refunds⟩
  next =>
    obtain ⟨life, ran, rfl⟩ := Option.map_eq_some_iff.mp taken
    have same : life.session = r.life.session := body_session ran
    refine ⟨h.billed.body ran, ?_, h.looping, h.unused, ?_, h.first, ?_, ?_⟩ <;> rw [same]
    · exact h.early
    · exact h.left
    · exact h.kept
    · exact h.ended

end

def Released (info : Billing.RelayInfo) (base : Balances) (payer : FundingSource) (life : Life) :
    Prop :=
  ∃ outcome, life.outcome = some outcome ∧
    life.store.balances = base.debit payer info.tokenId (net 0 (some outcome))
      (info.tokenShare (net 0 (some outcome)))

def Request.start (loop : Loop) (store : Store) (session : Billing.Session) : Request :=
  { loop, life := Life.start store session }

theorem released_iff (h : Billed info before base payer pre life) (idle : life.bodies = []) :
    Released info base payer life ↔
      life.session.settled = true ∨ life.session.refunded = true := by
  have stage := h.stage
  unfold Released
  rw [idle] at stage
  generalize life.outcome = outcome at stage ⊢
  cases stage with
  | opened unsettled _ early _ _ => simp [unsettled, early]
  | settled actual done debited => exact iff_of_true ⟨_, rfl, debited⟩ (.inl done)
  | refunded late same =>
    refine iff_of_true ⟨_, rfl, ?_⟩ (.inr late)
    rw [same, net, RelayInfo.tokenShare_zero, Balances.debit_zero]

theorem Pending.released_iff (h : Pending info before base payer pre r) (ended : r.phase = .ended)
    (idle : r.life.bodies = []) :
    Released info base payer r.life ↔
      (r.panicked = true → r.helped ≠ 1 ∨ r.life.session.settled = true) := by
  rw [Release.released_iff h.billed idle]
  by_cases none : r.newAPIError = none
  · have kept := h.kept none
    have left := h.left (by rw [ended]; nofun) none
    simp only [kept, Bool.false_eq_true, or_false]
    constructor
    · exact fun settled _ => .inr settled
    · intro only
      rcases left with settled | ⟨panicked, first⟩
      · exact settled
      · exact (only panicked).resolve_left fun other => other first
  · refine iff_of_true (h.ended ended none) fun panicked => .inl fun first => ?_
    exact none (h.first panicked first)

/-- For every request whose billing session has taken a positive amount, there are balances before
the pre-charge such that in every run, with any number of retries and any end of every attempt, once
the deferred function and the goroutine of its refund have run: the session is settled to the actual
amount or all is given back, unless the helper of the first attempt panics before it settles. -/
theorem precharge_released_iff {billing : Billing.Config} (faults : SessionFaults)
    {before after : Store} {info : Billing.RelayInfo} {quota : Int} {s : Billing.Session}
    (ready : Ready before info)
    (compensated : ∀ source, (faults.attempt source).increaseToken = none)
    (used : ∀ sub ∈ before.charges.subs, 0 ≤ sub.amountUsed)
    (made : newBillingSession billing faults before info quota = some (after, .ok s))
    (positive : 0 < s.preConsumedQuota) (fits : s.preConsumedQuota < 2 ^ 63)
    (cfg : Config) (c : Context) (tokenGroup : String) (relayInfo : AsyncTask.Submit.RelayInfo) :
    ∃ base, Refreshed billing info before base ∧
      ∀ events t, Path sensible (Request.step cfg)
          (Request.start (enter cfg c tokenGroup relayInfo) after s) events t →
        t.phase = .ended → t.life.bodies = [] →
        (Released info base s.funding t.life ↔
          (t.panicked = true → t.helped ≠ 1 ∨ t.life.session.settled = true)) := by
  obtain ⟨opened, -⟩ := newBillingSession_opened ready compensated made
  obtain ⟨base, refreshed, billed⟩ := opened.billed positive.le ready.unique used
  have start : Pending info before.charges base s.funding s.preConsumedQuota
      (Request.start (enter cfg c tokenGroup relayInfo) after s) :=
    ⟨billed, fun _ => opened.refunded, fun _ => ⟨rfl, iff_of_true rfl rfl⟩, fun _ _ => rfl,
      fun left => absurd rfl left, nofun, fun _ => opened.refunded, nofun⟩
  refine ⟨base, refreshed, fun events t run ended idle => ?_⟩
  exact (run.invariant (fun _ _ _ h ok taken => h.step positive fits ok taken)
    start).released_iff ended idle

def sampleLoop : Loop :=
  enter (exampleConfig 1 ["a"]) crossContext "auto" (genRelayInfo crossContext 7 "gpt-4")

def sampleRequest (events : List Event) : Option Request :=
  (newBillingSession sampleConfig {} sampleStore sampleInfo 200).bind fun r =>
    r.2.toOption.bind fun s =>
      exec (Request.step (exampleConfig 1 ["a"])) (Request.start sampleLoop r.1 s) events

theorem sensible_unsettled (unsettled : helper.settles = none) (fails : a.answer ≠ none)
    (r : Request) : sensible r (.pass a helper) := by
  refine ⟨fun actual settles => absurd (unsettled.symm.trans settles) nofun, fun ends => ?_⟩
  unfold HelperRun.ends at ends
  split at ends
  · cases ends
  · exact absurd (HelperEnd.returned.inj ends) fails

theorem sampleRequest_run (h : sampleRequest events = some t)
    (ok : ∀ e ∈ events, ∀ r, sensible r e) :
    ∃ after s, newBillingSession sampleConfig {} sampleStore sampleInfo 200 = some (after, .ok s) ∧
      Path sensible (Request.step (exampleConfig 1 ["a"])) (Request.start sampleLoop after s)
        events t := by
  obtain ⟨⟨after, result⟩, made, found⟩ := Option.bind_eq_some_iff.mp h
  obtain ⟨s, opened, run⟩ := Option.bind_eq_some_iff.mp found
  cases result with
  | error err => simp [Except.toOption] at opened
  | ok s' =>
    obtain rfl := Option.some.inj opened
    exact ⟨after, s', made, (Path.of_exec run ok).mono fun r _ all => all r⟩

/-- The helper of the first attempt panics: the deferred function does nothing, and 200 of the 1000
in the wallet stay taken, though nothing is settled. -/
theorem precharge_kept_on_panic :
    ∃ after s t,
      newBillingSession sampleConfig {} sampleStore sampleInfo 200 = some (after, .ok s) ∧
      Path sensible (Request.step (exampleConfig 1 ["a"])) (Request.start sampleLoop after s)
        [.pass keyFailure { panics := true }, .deferred] t ∧
      t.phase = .ended ∧ t.life.bodies = [] ∧ t.life.session.settled = false ∧
      sampleStore.quota 7 = 1000 ∧ t.life.store.quota 7 = 800 ∧
      ∀ base, ¬ Released sampleInfo base s.funding t.life := by
  have ends : (sampleRequest [.pass keyFailure { panics := true }, .deferred]).map
      (fun t => (t.phase, t.life.bodies, t.life.session.settled, t.life.store.quota 7,
        t.life.outcome)) = some (.ended, [], false, 800, none) := by decide
  obtain ⟨t, found, result⟩ := Option.map_eq_some_iff.mp ends
  obtain ⟨after, s, made, run⟩ := sampleRequest_run found fun e member r => by
    rcases List.mem_pair.mp member with rfl | rfl
    · exact sensible_unsettled rfl (by nofun) r
    · trivial
  simp only [Prod.mk.injEq] at result
  obtain ⟨ended, idle, unsettled, left, outcome⟩ := result
  refine ⟨after, s, t, made, run, ended, idle, unsettled, rfl, left, ?_⟩
  rintro base ⟨_, known, -⟩
  exact absurd (outcome.symm.trans known) nofun

/-- The helper of the first attempt fails and that of the second one panics: all is given back. -/
theorem precharge_released_iff_second :
    ∃ after s t,
      newBillingSession sampleConfig {} sampleStore sampleInfo 200 = some (after, .ok s) ∧
      Path sensible (Request.step (exampleConfig 1 ["a"])) (Request.start sampleLoop after s)
        [.pass keyFailure {}, .pass keyFailure { panics := true }, .deferred, .goroutine,
          .goroutine] t ∧
      t.panicked = true ∧ t.helped = 2 ∧
      Released sampleInfo sampleStore.balances s.funding t.life := by
  have opens : (newBillingSession sampleConfig {} sampleStore sampleInfo 200).map
      (fun r => r.2.toOption.map (·.preConsumedQuota)) = some (some 200) := by decide
  have ends : (sampleRequest [.pass keyFailure {}, .pass keyFailure { panics := true }, .deferred,
      .goroutine, .goroutine]).map (fun t => (t.phase, t.life.bodies, t.panicked, t.helped)) =
        some (.ended, [], true, 2) := by decide +kernel
  obtain ⟨t, found, result⟩ := Option.map_eq_some_iff.mp ends
  obtain ⟨after, s, made, run⟩ := sampleRequest_run found fun e member r => by
    simp only [List.mem_cons, List.not_mem_nil, or_false] at member
    rcases member with rfl | rfl | rfl | rfl | rfl
    · exact sensible_unsettled rfl (by nofun) r
    · exact sensible_unsettled rfl (by nofun) r
    · trivial
    · trivial
    · trivial
  simp only [Prod.mk.injEq] at result
  obtain ⟨ended, idle, panicked, helped⟩ := result
  have pre : s.preConsumedQuota = 200 := by simpa [made, Except.toOption] using opens
  obtain ⟨base, refreshed, released⟩ := precharge_released_iff {} sample_ready
    (fun _ => rfl) (by decide) made (by rw [pre]; decide) (by rw [pre]; decide)
    (exampleConfig 1 ["a"]) crossContext "auto" (genRelayInfo crossContext 7 "gpt-4")
  rw [refreshed.eq_of_calm sample_calm] at released
  refine ⟨after, s, t, made, run, panicked, helped, (released _ t run ended idle).mpr ?_⟩
  exact fun _ => .inl (by rw [helped]; decide)

end EastApi.Relay.Release
