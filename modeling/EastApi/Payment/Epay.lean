import EastApi.Payment.Manual

/-! The callbacks of Epay and the completions by hand of one order, one after the other as
`LockOrder` has them, with errors of any statements.  `EpayNotify` saves the order and credits the
user in two statements that no transaction joins; `creditGoesThrough` is what the second has to
meet for the status of the order to tell what was credited. -/

namespace EastApi.Payment

open Go Run

inductive Action
  | epayNotify (d : Delivery) (fails : Nat → Option String)
  | adminCompleteTopUp (now : Int) (fails : Nat → Option String)

variable (cfg : Config) (tradeNo : String)

def step (db : Db) : Action → Option Db
  | .epayNotify d fails => some (Payment.epayNotify cfg fails d tradeNo db).1
  | .adminCompleteTopUp now fails =>
    some ((Call.manualCompleteTopUp tradeNo).run cfg fails now db).1

def saves (d : Delivery) (fails : Nat → Option String) (order : TopUp) : Prop :=
  d.verified = true ∧ d.tradeSuccess = true ∧ fails 0 = none ∧
    ownsCallback order.paymentMethod = false ∧ order.status = .pending ∧ fails 1 = none

/-- A callback that saves the order has a quota to add that is not negative, and the statement that
adds it does not fail. -/
def creditGoesThrough (db : Db) : Action → Prop
  | .epayNotify d fails => ∀ order, db.orders tradeNo = some order → saves d fails order →
      0 ≤ cfg.quotaOfAmount order.amount ∧ fails 2 = none
  | .adminCompleteTopUp _ _ => True

def Db.complete (db : Db) (tradeNo : String) (order : TopUp) (completeTime quota : Int) : Db :=
  ((Write.saveOrder tradeNo order completeTime).apply db).credit
    ⟨.order tradeNo, order.userId, quota⟩ {}

variable {cfg tradeNo} {db : Db} {order : TopUp} {user : User}

theorem epayNotify_cases (found : db.orders tradeNo = some order) (d : Delivery)
    (fails : Nat → Option String)
    (through : saves d fails order → 0 ≤ cfg.quotaOfAmount order.amount ∧ fails 2 = none) :
    (epayNotify cfg fails d tradeNo db).1 = db ∨
    (ownsCallback order.paymentMethod = false ∧ order.status = .pending ∧
      (epayNotify cfg fails d tradeNo db).1 =
        db.complete tradeNo order order.completeTime (cfg.quotaOfAmount order.amount)) := by
  simp only [epayNotify, found]
  split
  · exact .inl rfl
  rename_i verified
  split
  · exact .inl rfl
  rename_i read
  split
  · exact .inl rfl
  rename_i saved
  obtain ⟨success, first⟩ : d.tradeSuccess = true ∧ fails 0 = none := by simpa using read
  obtain ⟨method, pending, second⟩ : ownsCallback order.paymentMethod = false ∧
      order.status = .pending ∧ fails 1 = none := by simpa using saved
  obtain ⟨quota, third⟩ :=
    through ⟨by simpa using verified, success, first, method, pending, second⟩
  rw [if_neg (by simp [third]; omega)]
  exact .inr ⟨method, pending, rfl⟩

theorem manualComplete_cases (found : db.orders tradeNo = some order) (now : Int)
    (fails : Nat → Option String) :
    ((Call.manualCompleteTopUp tradeNo).run cfg fails now db).1 = db ∨
    (order.status = .pending ∧ ((Call.manualCompleteTopUp tradeNo).run cfg fails now db).1 =
      db.complete tradeNo order now (cfg.manualQuota order)) := by
  simp only [Call.run]
  split
  · exact .inl rfl
  simp only [Call.body, manualCompleteTopUp, withOrder, Transaction.run, found]
  cases fails 0 with
  | some message => exact .inl rfl
  | none =>
    simp only
    by_cases success : order.status = .success
    · rw [if_pos success]
      simp only [Transaction.run]
      cases fails 1 <;> exact .inl rfl
    rw [if_neg success]
    by_cases pending : order.status = .pending
    · rw [if_neg (not_not.mpr pending)]
      by_cases empty : cfg.manualQuota order ≤ 0
      · rw [if_pos empty]
        exact .inl rfl
      rw [if_neg empty]
      simp only [complete, Transaction.run]
      cases fails 1 <;> cases fails 2 <;> cases fails 3 <;>
        first | exact .inl rfl | exact .inr ⟨pending, rfl⟩
    · rw [if_pos pending]
      exact .inl rfl

theorem epayNotify_completes (found : db.orders tradeNo = some order)
    (method : ownsCallback order.paymentMethod = false) (pending : order.status = .pending)
    (positive : 0 ≤ cfg.quotaOfAmount order.amount) :
    (epayNotify cfg noFailure {} tradeNo db).1 =
      db.complete tradeNo order order.completeTime (cfg.quotaOfAmount order.amount) := by
  simp [epayNotify, noFailure, found, method, pending, Int.not_lt.mpr positive, Db.complete]

theorem manualQuota_epay (method : ownsCallback order.paymentMethod = false) :
    cfg.manualQuota order = cfg.quotaOfAmount order.amount := by
  rw [Config.manualQuota, if_neg]
  intro stripe
  simp [ownsCallback, stripe] at method

theorem step_cases (found : s.orders tradeNo = some order)
    (ok : creditGoesThrough cfg tradeNo s a) (hs : step cfg tradeNo s a = some t) :
    t = s ∨ (order.status = .pending ∧
      ∃ completeTime, t = s.complete tradeNo order completeTime (cfg.manualQuota order)) := by
  cases a with
  | epayNotify d fails =>
    cases hs
    rcases epayNotify_cases found d fails (ok order found) with same | ⟨method, pending, done⟩
    · exact .inl same
    · rw [← manualQuota_epay method] at done
      exact .inr ⟨pending, _, done⟩
  | adminCompleteTopUp now fails =>
    cases hs
    rcases manualComplete_cases found now fails with same | ⟨pending, done⟩
    · exact .inl same
    · exact .inr ⟨pending, _, done⟩

theorem complete_orders (db : Db) (tradeNo : String) (order : TopUp) (completeTime quota : Int) :
    (db.complete tradeNo order completeTime quota).orders tradeNo =
      some (order.completed completeTime) := by
  simp only [Db.complete, Write.apply, Db.credit]
  split <;> simp

theorem complete_creditsOf (hasUser : db.users order.userId = some user)
    (completeTime quota : Int) :
    (db.complete tradeNo order completeTime quota).creditsOf (.order tradeNo) =
      db.creditsOf (.order tradeNo) ++ [⟨.order tradeNo, order.userId, quota⟩] := by
  simp [Db.complete, Write.apply, Db.credit, hasUser, Db.creditsOf]

theorem quotaOf_some (hasUser : db.users userId = some user) : db.quotaOf userId = user.quota := by
  simp [Db.quotaOf, hasUser]

/-- The order is as it was made and nothing is credited for it, or it is a success and its quota is
credited once. -/
inductive Settled (cfg : Config) (tradeNo : String) (order : TopUp) (quota : Int) (db : Db) : Prop
  | pending (found : db.orders tradeNo = some order)
      (uncredited : db.creditsOf (.order tradeNo) = [])
      (unchanged : ∃ user, db.users order.userId = some user ∧ user.quota = quota)
  | success (saved : TopUp) (found : db.orders tradeNo = some saved)
      (completed : saved.status = .success)
      (credited : db.creditsOf (.order tradeNo) =
        [⟨.order tradeNo, order.userId, cfg.manualQuota order⟩])
      (added : ∃ user, db.users order.userId = some user ∧
        user.quota = quota + cfg.manualQuota order)

theorem Settled.complete (uncredited : db.creditsOf (.order tradeNo) = [])
    (hasUser : db.users order.userId = some user) (before : user.quota = quota)
    (completeTime : Int) :
    Settled cfg tradeNo order quota
      (db.complete tradeNo order completeTime (cfg.manualQuota order)) := by
  refine .success _ (complete_orders _ _ _ _ _) rfl ?_ ?_
  · rw [complete_creditsOf hasUser, uncredited, List.nil_append]
  · simp [Db.complete, Write.apply, Db.credit, hasUser, before]

theorem Settled.step (h : Settled cfg tradeNo order quota s)
    (ok : creditGoesThrough cfg tradeNo s a) (hs : step cfg tradeNo s a = some t) :
    Settled cfg tradeNo order quota t := by
  cases h with
  | pending found uncredited unchanged =>
    obtain ⟨user, hasUser, before⟩ := unchanged
    rcases step_cases found ok hs with rfl | ⟨-, completeTime, rfl⟩
    · exact .pending found uncredited ⟨user, hasUser, before⟩
    · exact .complete uncredited hasUser before completeTime
  | success saved found completed credited added =>
    rcases step_cases found ok hs with rfl | ⟨again, -⟩
    · exact .success saved found completed credited added
    · rw [completed] at again
      cases again

/-- In every run of callbacks and completions by hand in which no credit of a saved order gets lost:
the order is a success just if its quota was credited once, it is pending just if nothing was
credited, the user's quota has grown by what was credited, and a callback without errors completes
an Epay order that is still pending. -/
theorem success_iff_credited_once {as : List Action} {t : Db}
    (found : db.orders tradeNo = some order) (pending : order.status = .pending)
    (hasUser : db.users order.userId = some user)
    (uncredited : db.creditsOf (.order tradeNo) = [])
    (path : Path (creditGoesThrough cfg tradeNo) (step cfg tradeNo) db as t) :
    ∃ now, t.orders tradeNo = some now ∧
      (now.status = .success ↔ t.creditsOf (.order tradeNo) =
        [⟨.order tradeNo, order.userId, cfg.manualQuota order⟩]) ∧
      (now.status = .pending ↔ t.creditsOf (.order tradeNo) = []) ∧
      t.quotaOf order.userId = db.quotaOf order.userId +
        ((t.creditsOf (.order tradeNo)).map (·.quota)).sum ∧
      (now.status = .pending → ownsCallback order.paymentMethod = false →
        0 ≤ cfg.quotaOfAmount order.amount →
        ∃ done, (epayNotify cfg noFailure {} tradeNo t).1.orders tradeNo = some done ∧
          done.status = .success ∧
          (epayNotify cfg noFailure {} tradeNo t).1.creditsOf (.order tradeNo) =
            [⟨.order tradeNo, order.userId, cfg.manualQuota order⟩]) := by
  have start : Settled cfg tradeNo order user.quota db :=
    .pending found uncredited ⟨user, hasUser, rfl⟩
  have final := path.invariant (I := Settled cfg tradeNo order user.quota)
    (fun _ _ _ h ok hs => h.step ok hs) start
  cases final with
  | pending foundNow uncreditedNow unchanged =>
    obtain ⟨userNow, hasUserNow, before⟩ := unchanged
    refine ⟨order, foundNow, ?_, ?_, ?_, fun _ method positive => ?_⟩
    · simp [pending, uncreditedNow]
    · simp [pending, uncreditedNow]
    · simp [uncreditedNow, quotaOf_some hasUser, quotaOf_some hasUserNow, before]
    · rw [epayNotify_completes foundNow method pending positive, ← manualQuota_epay method]
      refine ⟨_, complete_orders _ _ _ _ _, rfl, ?_⟩
      rw [complete_creditsOf hasUserNow, uncreditedNow, List.nil_append]
  | success saved foundNow completed credited added =>
    obtain ⟨userNow, hasUserNow, after⟩ := added
    refine ⟨saved, foundNow, ?_, ?_, ?_, fun stillPending => ?_⟩
    · simp [completed, credited]
    · simp [completed, credited]
    · simp [credited, quotaOf_some hasUser, quotaOf_some hasUserNow, after]
    · rw [completed] at stillPending
      cases stillPending

def alipayOrder : TopUp := { userId := 7, amount := 10, money := 73, paymentMethod := "alipay" }

def saveFails (n : Nat) : Option String := if n = 1 then some "deadlock" else none

/-- A callback fails to save the order, and the next one completes it. -/
theorem success_iff_credited_once_redelivery :
    ∃ t now, Path (creditGoesThrough {} "ref") (step {} "ref") (oneOrder alipayOrder)
        [.epayNotify {} saveFails, .epayNotify {} noFailure] t ∧
      t.orders "ref" = some now ∧
      t.quotaOf 7 = 0 + ((t.creditsOf (.order "ref")).map (·.quota)).sum ∧
      t.quotaOf 7 = 5000000 := by
  have found : (oneOrder alipayOrder).orders "ref" = some alipayOrder := by simp [oneOrder]
  have hasUser : (oneOrder alipayOrder).users alipayOrder.userId = some { quota := 0 } := by
    simp [oneOrder]
  have first : creditGoesThrough {} "ref" (oneOrder alipayOrder) (.epayNotify {} saveFails) := by
    rintro order - ⟨-, -, -, -, -, saved⟩
    cases saved
  have second : creditGoesThrough {} "ref" (oneOrder alipayOrder) (.epayNotify {} noFailure) := by
    intro order here _
    rw [found] at here
    cases here
    exact ⟨by decide +kernel, rfl⟩
  have unsaved : step {} "ref" (oneOrder alipayOrder) (.epayNotify {} saveFails) =
      some (oneOrder alipayOrder) := by
    simp [step, epayNotify, saveFails, oneOrder]
  have path : Path (creditGoesThrough {} "ref") (step {} "ref") (oneOrder alipayOrder)
      [.epayNotify {} saveFails, .epayNotify {} noFailure] _ :=
    .cons first unsaved (.cons second rfl (.nil _))
  obtain ⟨now, foundNow, -, -, sum, -⟩ :=
    success_iff_credited_once found rfl hasUser (by rfl) path
  exact ⟨_, now, path, foundNow, sum, by decide +kernel⟩

/-- The order is saved, the credit fails, and no later callback makes up for it. -/
theorem saved_without_credit :
    (exec (step {} "ref") (oneOrder alipayOrder)
      [.epayNotify {} fun n => if n = 2 then some "deadlock" else none, .epayNotify {} noFailure,
        .adminCompleteTopUp 0 noFailure]).map
      (fun t => ((t.orders "ref").map (·.status), t.creditsOf (.order "ref"), t.quotaOf 7)) =
      some (some .success, [], 0) := by
  decide +kernel

end EastApi.Payment
