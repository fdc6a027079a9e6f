import EastApi.Billing.Session
import Mathlib.Tactic.Ring
import Mathlib.Tactic.Positivity

/-! The refund of a subscription, statement by statement.  `RefundSubscriptionPreConsume` marks the
record in a transaction of its own, but `PostConsumeUserSubscriptionDelta`, which it calls inside,
lowers the used amount in another one on the global handle. -/

namespace EastApi.Billing

open Go Subscription

structure PostFaults where
  start : Option String := none
  findSub : Option String := none
  saveSub : Option String := none
  commit : Option String := none

structure RefundFaults where
  start : Option String := none
  findRecord : Option String := none
  post : PostFaults := {}
  saveRecord : Option String := none
  commit : Option String := none

/-- `PostConsumeUserSubscriptionDelta` with statements that may fail.  Its transaction undoes what
it has written. -/
def postConsumeWith (faults : PostFaults) (c : Charges) (userSubscriptionId delta : Int) :
    Except String Charges :=
  if userSubscriptionId ≤ 0 then .error "invalid userSubscriptionId"
  else if delta = 0 then .ok c
  else orFail faults.start <| orFail faults.findSub <|
    match postConsumeUserSubscriptionDelta c userSubscriptionId delta with
    | .error message => .error message
    | .ok c' => orFail faults.saveSub (orFail faults.commit (.ok c'))

def RefundFaults.finish (faults : RefundFaults) (undone done : Charges) :
    Charges × Except String Unit :=
  match faults.saveRecord, faults.commit with
  | some message, _ => (undone, .error message)
  | none, some message => (undone, .error message)
  | none, none => (done, .ok ())

/-- `RefundSubscriptionPreConsume` with statements that may fail: the tables that it leaves, and
its error.  What the inner transaction has committed stays. -/
def refundAttempt (requestId : String) (faults : RefundFaults) (c : Charges) :
    Charges × Except String Unit :=
  if trimSpace requestId = "" then (c, .error "requestId is empty")
  else match faults.start, faults.findRecord, c.records.find? (·.requestId = requestId) with
    | some message, _, _ => (c, .error message)
    | none, some message, _ => (c, .error message)
    | none, none, none => (c, .error "record not found")
    | none, none, some record =>
      if record.status = .refunded then
        match faults.commit with
        | some message => (c, .error message)
        | none => (c, .ok ())
      else if record.preConsumed ≤ 0 then faults.finish c (c.markRefunded requestId)
      else match postConsumeWith faults.post c record.userSubscriptionId (-record.preConsumed) with
        | .error message => (c, .error message)
        | .ok c' => faults.finish c' (c'.markRefunded requestId)

def refundAttempts (requestId : String) :
    List RefundFaults → Charges → String → Charges × Except String Unit
  | [], c, lastErr => (c, .error lastErr)
  | faults :: rest, c, _ =>
    match refundAttempt requestId faults c with
    | (c', .ok ()) => (c', .ok ())
    | (c', .error message) => refundAttempts requestId rest c' message

def SubscriptionFunding.refund (funding : SubscriptionFunding) (faults : Nat → RefundFaults)
    (c : Charges) : Charges × Except String Unit :=
  if funding.preConsumed ≤ 0 then (c, .ok ())
  else refundAttempts funding.requestId [faults 0, faults 1, faults 2] c ""

def RefundFaults.takes (faults : RefundFaults) : Bool :=
  faults.start.isNone && faults.findRecord.isNone && faults.post.start.isNone &&
  faults.post.findSub.isNone && faults.post.saveSub.isNone && faults.post.commit.isNone

def RefundFaults.completes (faults : RefundFaults) : Bool :=
  faults.saveRecord.isNone && faults.commit.isNone

def innerCommits : List RefundFaults → Nat
  | [] => 0
  | faults :: rest =>
    if faults.takes then if faults.completes then 1 else innerCommits rest + 1
    else innerCommits rest

def usedOf (c : Charges) (id : Int) : Option Int :=
  (c.subs.find? (·.id = id)).map (·.amountUsed)

structure Outstanding (c : Charges) (requestId : String) (record : PreConsumeRecord)
    (sub : UserSubscription) : Prop where
  recorded : c.records.find? (·.requestId = requestId) = some record
  consumed : record.status = .consumed
  positive : 0 < record.preConsumed
  held : c.subs.find? (·.id = record.userSubscriptionId) = some sub

structure Refundable (requestId : String) (record : PreConsumeRecord) (sub : UserSubscription) :
    Prop where
  named : trimSpace requestId ≠ ""
  valid : 0 < record.userSubscriptionId
  within : ¬ (0 < sub.amountTotal ∧ sub.amountTotal < sub.amountUsed - record.preConsumed)

section
variable {c : Charges} {requestId : String} {record : PreConsumeRecord} {sub : UserSubscription}

theorem Outstanding.id (h : Outstanding c requestId record sub) :
    sub.id = record.userSubscriptionId := by
  simpa using List.find?_some h.held

theorem Outstanding.used (h : Outstanding c requestId record sub) :
    usedOf c record.userSubscriptionId = some sub.amountUsed := by
  rw [usedOf, h.held]
  rfl

theorem find_save {id : Int} (found : c.subs.find? (·.id = id) = some sub) (same : new.id = id) :
    (c.save new).subs.find? (·.id = id) = some new := by
  simp only [Charges.save]
  generalize c.subs = rows at found
  induction rows with
  | nil => simp at found
  | cons r rest ih =>
    by_cases own : r.id = id
    · simp [own, same]
    · simp only [List.find?_cons, own, decide_false] at found
      have other : ¬ r.id = new.id := fun h => own (h.trans same)
      simp only [List.map_cons, if_neg other, List.find?_cons, own, decide_false]
      exact ih found

theorem Outstanding.lower (h : Outstanding c requestId record sub) :
    Outstanding (c.save { sub with amountUsed := sub.amountUsed - record.preConsumed }) requestId
      record { sub with amountUsed := sub.amountUsed - record.preConsumed } where
  recorded := h.recorded
  consumed := h.consumed
  positive := h.positive
  held := find_save h.held h.id

theorem Refundable.lower (h : Refundable requestId record sub) (positive : 0 < record.preConsumed) :
    Refundable requestId record { sub with amountUsed := sub.amountUsed - record.preConsumed } where
  named := h.named
  valid := h.valid
  within := by
    have := h.within
    simp only
    omega

variable (h : Outstanding c requestId record sub)
include h

section
variable (room : record.preConsumed ≤ sub.amountUsed)
include room

theorem post_lowers (able : Refundable requestId record sub) :
    postConsumeUserSubscriptionDelta c record.userSubscriptionId (-record.preConsumed) =
      .ok (c.save { sub with amountUsed := sub.amountUsed - record.preConsumed }) := by
  have valid := able.valid
  have positive := h.positive
  have newUsed : max (sub.amountUsed + -record.preConsumed) 0 =
      sub.amountUsed - record.preConsumed := by omega
  rw [postConsumeUserSubscriptionDelta, if_neg (by omega), if_neg (by omega), h.held]
  simp only [newUsed, if_neg able.within]

theorem attempt_takes (able : Refundable requestId record sub) (takes : faults.takes = true) :
    let lowered := c.save { sub with amountUsed := sub.amountUsed - record.preConsumed }
    refundAttempt requestId faults c =
      faults.finish lowered (lowered.markRefunded requestId) := by
  have valid := able.valid
  have positive := h.positive
  simp only [RefundFaults.takes, Bool.and_eq_true, Option.isNone_iff_eq_none] at takes
  obtain ⟨⟨⟨⟨⟨start, find⟩, postStart⟩, postFind⟩, postSave⟩, postCommit⟩ := takes
  have post : postConsumeWith faults.post c record.userSubscriptionId (-record.preConsumed) =
      .ok (c.save { sub with amountUsed := sub.amountUsed - record.preConsumed }) := by
    rw [postConsumeWith, if_neg (by omega), if_neg (by omega), post_lowers h room able]
    simp only [postStart, postFind, postSave, postCommit, orFail]
  have unmarked : ¬ record.status = .refunded := by
    rw [h.consumed]
    decide
  simp only [refundAttempt, if_neg able.named, start, find, h.recorded, if_neg unmarked,
    if_neg (show ¬ record.preConsumed ≤ 0 by omega), post]

theorem post_fails (faults : PostFaults) (stops : 0 < record.userSubscriptionId →
      ¬ (0 < sub.amountTotal ∧ sub.amountTotal < sub.amountUsed - record.preConsumed) →
      ¬ (faults.start = none ∧ faults.findSub = none ∧ faults.saveSub = none ∧
        faults.commit = none)) :
    ∃ message, postConsumeWith faults c record.userSubscriptionId (-record.preConsumed) =
      .error message := by
  have positive := h.positive
  by_cases invalid : record.userSubscriptionId ≤ 0
  · exact ⟨_, by rw [postConsumeWith, if_pos invalid]⟩
  rw [postConsumeWith, if_neg invalid, if_neg (by omega)]
  cases start : faults.start with
  | some message => exact ⟨message, rfl⟩
  | none =>
  cases find : faults.findSub with
  | some message => exact ⟨message, rfl⟩
  | none =>
  simp only [orFail]
  have newUsed : max (sub.amountUsed + -record.preConsumed) 0 =
      sub.amountUsed - record.preConsumed := by omega
  by_cases exceeds : 0 < sub.amountTotal ∧ sub.amountTotal < sub.amountUsed - record.preConsumed
  · simp only [postConsumeUserSubscriptionDelta, if_neg invalid,
      if_neg (show ¬ -record.preConsumed = 0 by omega), h.held, newUsed, if_pos exceeds]
    exact ⟨_, rfl⟩
  · simp only [postConsumeUserSubscriptionDelta, if_neg invalid,
      if_neg (show ¬ -record.preConsumed = 0 by omega), h.held, newUsed, if_neg exceeds]
    cases save : faults.saveSub with
    | some message => exact ⟨message, rfl⟩
    | none =>
    cases commit : faults.commit with
    | some message => exact ⟨message, rfl⟩
    | none => exact absurd ⟨start, find, save, commit⟩ (stops (by omega) exceeds)

theorem attempt_fails (faults : RefundFaults)
    (stops : ¬ (Refundable requestId record sub ∧ faults.takes = true)) :
    ∃ message, refundAttempt requestId faults c = (c, .error message) := by
  have positive := h.positive
  have unmarked : ¬ record.status = .refunded := by
    rw [h.consumed]
    decide
  rw [refundAttempt]
  split
  · exact ⟨_, rfl⟩
  rename_i named
  cases start : faults.start with
  | some message => exact ⟨message, rfl⟩
  | none =>
  cases find : faults.findRecord with
  | some message => exact ⟨message, rfl⟩
  | none =>
  simp only [h.recorded, if_neg unmarked, if_neg (show ¬ record.preConsumed ≤ 0 by omega)]
  obtain ⟨message, failed⟩ := post_fails h room faults.post fun valid within calm =>
    stops ⟨⟨named, valid, within⟩, by
      simp [RefundFaults.takes, start, find, calm]⟩
  exact ⟨message, by rw [failed]⟩

end

end

/-- What the attempts leave: the used amount is lowered once for each inner commit, and the call
succeeds only after one. -/
theorem attempts_used (l : List RefundFaults) : ∀ {c : Charges} {requestId : String}
    {record : PreConsumeRecord} {sub : UserSubscription}, Outstanding c requestId record sub →
    l.length * record.preConsumed ≤ sub.amountUsed → Refundable requestId record sub →
    ∀ lastErr, usedOf (refundAttempts requestId l c lastErr).1 record.userSubscriptionId =
      some (sub.amountUsed - innerCommits l * record.preConsumed) ∧
      ((refundAttempts requestId l c lastErr).2 = .ok () → 0 < innerCommits l) := by
  induction l with
  | nil =>
    intro c requestId record sub h _ _ lastErr
    simp [refundAttempts, innerCommits, h.used]
  | cons faults rest ih =>
    intro c requestId record sub h room able lastErr
    have positive := h.positive
    have rest_nonneg : 0 ≤ (rest.length : Int) * record.preConsumed := by positivity
    have split : ((faults :: rest).length : Int) * record.preConsumed =
        rest.length * record.preConsumed + record.preConsumed := by
      rw [List.length_cons]
      push_cast
      ring
    rw [split] at room
    by_cases takes : faults.takes = true
    · have taken := attempt_takes h (by omega) able takes
      by_cases completes : faults.completes = true
      · have both := completes
        simp only [RefundFaults.completes, Bool.and_eq_true, Option.isNone_iff_eq_none] at both
        simp only [refundAttempts, taken, RefundFaults.finish, both, innerCommits, if_pos takes,
          if_pos completes]
        refine ⟨?_, fun _ => Nat.one_pos⟩
        have lowered := h.lower.used
        simp only [usedOf, Charges.markRefunded] at lowered ⊢
        rw [lowered]
        simp
      · obtain ⟨message, failed⟩ : ∃ message, faults.finish
            (c.save { sub with amountUsed := sub.amountUsed - record.preConsumed })
            ((c.save { sub with amountUsed := sub.amountUsed - record.preConsumed }).markRefunded
              requestId) =
            (c.save { sub with amountUsed := sub.amountUsed - record.preConsumed },
              .error message) := by
          simp only [RefundFaults.completes, Bool.and_eq_true,
            Option.isNone_iff_eq_none] at completes
          unfold RefundFaults.finish
          split
          · exact ⟨_, rfl⟩
          · exact ⟨_, rfl⟩
          · exact absurd ⟨by assumption, by assumption⟩ completes
        obtain ⟨used, committed⟩ := ih h.lower (by simp only; omega) (able.lower positive) message
        simp only [refundAttempts, taken, failed, innerCommits, if_pos takes, if_neg completes]
        refine ⟨?_, fun _ => Nat.succ_pos _⟩
        rw [used]
        push_cast
        refine congrArg some ?_
        ring
    · obtain ⟨message, failed⟩ := attempt_fails h (by omega) faults
        fun both => takes both.2
      simp only [refundAttempts, failed, innerCommits, if_neg takes]
      exact ih h (by omega) able message

theorem attempts_unable (l : List RefundFaults) : ∀ {c : Charges} {requestId : String}
    {record : PreConsumeRecord} {sub : UserSubscription}, Outstanding c requestId record sub →
    record.preConsumed ≤ sub.amountUsed → ¬ Refundable requestId record sub →
    ∀ lastErr, ∃ message, refundAttempts requestId l c lastErr = (c, .error message) := by
  induction l with
  | nil =>
    intro c requestId record sub _ _ _ lastErr
    exact ⟨lastErr, rfl⟩
  | cons faults rest ih =>
    intro c requestId record sub h room unable lastErr
    obtain ⟨message, failed⟩ := attempt_fails h room faults fun both => unable both.1
    simp only [refundAttempts, failed]
    exact ih h room unable message

/-- `SubscriptionFunding.Refund` gives the amount back at most once, and once when it succeeds, if
and only if at most one of its attempts commits the inner transaction. -/
theorem refund_once_iff {c : Charges} {funding : SubscriptionFunding} {record : PreConsumeRecord}
    {sub : UserSubscription} (charged : 0 < funding.preConsumed)
    (h : Outstanding c funding.requestId record sub)
    (room : 3 * record.preConsumed ≤ sub.amountUsed) (faults : Nat → RefundFaults) :
    let out := funding.refund faults c
    let used := usedOf out.1 record.userSubscriptionId
    ((used = some sub.amountUsed ∨ used = some (sub.amountUsed - record.preConsumed)) ∧
      (out.2 = .ok () → used = some (sub.amountUsed - record.preConsumed))) ↔
    (Refundable funding.requestId record sub →
      innerCommits [faults 0, faults 1, faults 2] ≤ 1) := by
  have positive := h.positive
  simp only [SubscriptionFunding.refund, if_neg (show ¬ funding.preConsumed ≤ 0 by omega)]
  by_cases able : Refundable funding.requestId record sub
  · obtain ⟨used, committed⟩ := attempts_used [faults 0, faults 1, faults 2] h
      (by simp only [List.length_cons, List.length_nil]; omega) able ""
    generalize innerCommits [faults 0, faults 1, faults 2] = k at used committed ⊢
    rw [used]
    simp only [Option.some.injEq, able, true_implies]
    constructor
    · rintro ⟨once, -⟩
      rcases Nat.lt_or_ge 1 k with twice | most
      · have := Int.mul_le_mul_of_nonneg_right (show (2 : Int) ≤ k by omega) positive.le
        omega
      · exact most
    · intro most
      obtain rfl | rfl : k = 0 ∨ k = 1 := by omega
      · exact ⟨.inl (by simp), fun ok => absurd (committed ok) (by decide)⟩
      · exact ⟨.inr (by simp), fun _ => by simp⟩
  · obtain ⟨message, failed⟩ := attempts_unable [faults 0, faults 1, faults 2] h (by omega) able ""
    rw [failed]
    simp [h.used, able]

def oneCharge : Charges where
  subs := [{ id := 1, userId := 7, planId := 1, amountTotal := 100, amountUsed := 30
             startTime := 1706659200, endTime := 1738281600, status := .active
             lastResetTime := 0, nextResetTime := 0, upgradeGroup := "", prevUserGroup := "" }]
  plans _ := none
  records := [⟨"r1", 7, 1, 10, .consumed⟩]

def oneFunding : SubscriptionFunding :=
  { requestId := "r1", userId := 7, amount := 10, subscriptionId := 1, preConsumed := 10 }

/-- The first commit of the record fails after the inner one, and the second attempt succeeds: the
amount is given back twice. -/
theorem refunded_twice :
    let faults : Nat → RefundFaults := fun i => if i = 0 then { commit := some "timeout" } else {}
    usedOf (oneFunding.refund faults oneCharge).1 1 = some 10 ∧
      (oneFunding.refund faults oneCharge).2 = .ok () := by
  decide +kernel

/-- A first attempt that fails before the inner commit is made up for by the second. -/
theorem refund_once_iff_retry :
    let faults : Nat → RefundFaults := fun i =>
      if i = 0 then { post := { commit := some "timeout" } } else {}
    Outstanding oneCharge "r1" ⟨"r1", 7, 1, 10, .consumed⟩ (oneCharge.subs.head (by decide)) ∧
      (usedOf (oneFunding.refund faults oneCharge).1 1 = some 30 ∨
        usedOf (oneFunding.refund faults oneCharge).1 1 = some 20) := by
  intro faults
  have unpaid : Outstanding oneCharge "r1" ⟨"r1", 7, 1, 10, .consumed⟩
      (oneCharge.subs.head (by decide)) :=
    ⟨by decide, rfl, by decide, by decide⟩
  exact ⟨unpaid, ((@refund_once_iff _ oneFunding _ _ (by decide) unpaid (by decide) faults).mpr
    fun _ => by decide).1⟩

end EastApi.Billing
