import EastApi.Lib.Run
import EastApi.Lib.Versioned
import EastApi.Subscription.ResetLoop

/-! Calls of `PreConsumeUserSubscription` and `PostConsumeUserSubscriptionDelta` on one table,
statement by statement.  The queries of both are plain reads of what is committed, and `tx.Save`
writes every column of the row.  `savesCurrent` is what the writes have to meet for no charge to be
lost. -/

namespace EastApi.Subscription.Concurrent

open Go Run List Function

inductive Call
  | preConsume (requestId : String) (userId amount now : Int)
  | postConsume (userSubscriptionId delta : Int)
deriving DecidableEq, Repr

inductive Phase
  | idle
  /-- There is no record under the request id. -/
  | recordChecked
  /-- The candidates have been loaded, and these are left to look at. -/
  | scanning (rest : List UserSubscription)
  | charging (sub : UserSubscription)
  | recorded (sub : UserSubscription)
  /-- `PostConsumeUserSubscriptionDelta` has loaded the row. -/
  | loaded (sub : UserSubscription)
  /-- The row has been written, and the transaction is not committed. -/
  | written (subscriptionId amount : Int)
  | done
deriving DecidableEq, Repr

structure Sys (ω : Type) where
  subs : List (Versioned UserSubscription ω)
  plans : Int → Option SubscriptionPlan
  records : List PreConsumeRecord
  phase : ω → Phase
  charged : List (Int × Int)

inductive Action (ω : Type)
  /-- The call makes its next statement. -/
  | step (w : ω)
  /-- The call ends with an error of that statement, and its transaction is rolled back. -/
  | fail (w : ω)

section
variable {ω : Type} [DecidableEq ω]

def Sys.committed (s : Sys ω) : Charges := ⟨s.subs.map (·.row), s.plans, s.records⟩

def Sys.setPhase (s : Sys ω) (w : ω) (p : Phase) : Sys ω :=
  { s with phase := update s.phase w p }

def stageRow (w : ω) (sub : UserSubscription) (v : Versioned UserSubscription ω) :
    Versioned UserSubscription ω :=
  if v.row.id = sub.id then v.stage w sub else v

def Sys.save (s : Sys ω) (w : ω) (sub : UserSubscription) (p : Phase) : Option (Sys ω) :=
  if s.subs.all fun v => v.row.id ≠ sub.id || v.writable w then
    some ({ s with subs := s.subs.map (stageRow w sub) }.setPhase w p)
  else none

def Sys.abort (s : Sys ω) (w : ω) : Sys ω :=
  { s with subs := s.subs.map (Versioned.rollback w) }.setPhase w .done

def Sys.commit (s : Sys ω) (w : ω) (created : List PreConsumeRecord) (id amount : Int) : Sys ω :=
  { s with
    subs := s.subs.map (Versioned.commit w)
    records := s.records ++ created
    charged := s.charged ++ [(id, amount)] }.setPhase w .done

variable (loc : Location) (fuel : Nat) (calls : ω → Call)

def Sys.preConsume (s : Sys ω) (w : ω) (requestId : String) (userId amount now : Int) :
    Option (Sys ω) :=
  match s.phase w with
  | .idle =>
    if userId ≤ 0 ∨ trimSpace requestId = "" ∨ amount ≤ 0 then some (s.abort w)
    else match s.records.find? (·.requestId = requestId) with
      | none => some (s.setPhase w .recordChecked)
      | some existing =>
        if existing.status = .refunded then some (s.abort w)
        else some (s.commit w [] existing.userSubscriptionId amount)
  | .recordChecked =>
    if s.committed.candidates userId now = [] then some (s.abort w)
    else some (s.setPhase w (.scanning (s.committed.candidates userId now)))
  | .scanning [] => some (s.abort w)
  | .scanning (candidate :: rest) =>
    match s.committed.plan {} candidate.planId with
    | .error _ => some (s.abort w)
    | .ok plan =>
      match maybeResetUserSubscriptionWithPlanTx loc fuel candidate plan now with
      | none => none
      | some sub =>
        let next : Phase := if 0 < sub.amountTotal ∧ sub.amountTotal - sub.amountUsed < amount then
          .scanning rest else .charging sub
        if sub = candidate then some (s.setPhase w next) else s.save w sub next
  | .charging sub =>
    match s.records.find? (·.requestId = requestId) with
    | none => some (s.setPhase w (.recorded sub))
    | some existing =>
      if existing.status = .refunded then some (s.abort w)
      else some (s.commit w [] existing.userSubscriptionId amount)
  | .recorded sub =>
    s.save w { sub with amountUsed := sub.amountUsed + amount } (.written sub.id amount)
  | .written id amount => some (s.commit w [⟨requestId, userId, id, amount, .consumed⟩] id amount)
  | _ => none

def Sys.postConsume (s : Sys ω) (w : ω) (userSubscriptionId delta : Int) : Option (Sys ω) :=
  match s.phase w with
  | .idle =>
    if userSubscriptionId ≤ 0 then some (s.abort w)
    else if delta = 0 then some (s.commit w [] userSubscriptionId 0)
    else match s.committed.subs.find? (·.id = userSubscriptionId) with
      | none => some (s.abort w)
      | some sub => some (s.setPhase w (.loaded sub))
  | .loaded sub =>
    let newUsed := max (sub.amountUsed + delta) 0
    if 0 < sub.amountTotal ∧ sub.amountTotal < newUsed then some (s.abort w)
    else s.save w { sub with amountUsed := newUsed } (.written sub.id delta)
  | .written id amount => some (s.commit w [] id amount)
  | _ => none

def step (s : Sys ω) : Action ω → Option (Sys ω)
  | .step w =>
    match calls w with
    | .preConsume requestId userId amount now =>
      s.preConsume loc fuel w requestId userId amount now
    | .postConsume userSubscriptionId delta => s.postConsume w userSubscriptionId delta
  | .fail w => if s.phase w = .done then none else some (s.abort w)

/-- The stored row has the used amount that a copy of it was loaded with. -/
def Sys.current (s : Sys ω) (sub : UserSubscription) : Prop :=
  ∀ v ∈ s.subs, v.row.id = sub.id → v.row.amountUsed = sub.amountUsed

instance (s : Sys ω) (sub : UserSubscription) : Decidable (s.current sub) :=
  inferInstanceAs (Decidable (∀ v ∈ s.subs, _ → _))

/-- A row that is written finds the used amount that its copy was loaded with.  The request id is
new, no reset is due, and the used amount does not fall under zero. -/
def savesCurrent (s : Sys ω) : Action ω → Prop
  | .step w =>
    match calls w, s.phase w with
    | .preConsume requestId _ _ _, .idle => ∀ r ∈ s.records, r.requestId ≠ requestId
    | .preConsume _ _ _ now, .scanning (candidate :: _) =>
      (candidate.nextResetTime = 0 → s.current candidate) ∧
        ∀ plan, s.plans candidate.planId = some plan → ¬ resetDue loc now candidate plan
    | .preConsume requestId _ _ _, .charging _ => ∀ r ∈ s.records, r.requestId ≠ requestId
    | .preConsume _ _ _ _, .recorded sub => s.current sub
    | .postConsume _ delta, .loaded sub => s.current sub ∧ 0 ≤ sub.amountUsed + delta
    | _, _ => True
  | .fail _ => True

def Phase.owed (id : Int) : Phase → Int
  | .written subscriptionId amount => if subscriptionId = id then amount else 0
  | _ => 0

inductive Effect (s : Sys ω) (w : ω) : Sys ω → Prop
  | read {p : Phase} (before : ∀ id, (s.phase w).owed id = 0) (after : ∀ id, p.owed id = 0) :
      Effect s w (s.setPhase w p)
  /-- It writes a row with what the commit will add. -/
  | save {sub : UserSubscription} {p : Phase} (before : ∀ id, (s.phase w).owed id = 0)
      (free : ∀ v ∈ s.subs, v.row.id = sub.id → v.writable w = true)
      (adds : ∀ v ∈ s.subs, v.row.id = sub.id →
        sub.amountUsed = v.row.amountUsed + p.owed sub.id)
      (only : ∀ id, id ≠ sub.id → p.owed id = 0) :
      Effect s w ({ s with subs := s.subs.map (stageRow w sub) }.setPhase w p)
  | commit {created : List PreConsumeRecord} {subscriptionId amount : Int}
      (owes : ∀ id, (s.phase w).owed id = if subscriptionId = id then amount else 0) :
      Effect s w (s.commit w created subscriptionId amount)
  | abort : Effect s w (s.abort w)

variable {loc fuel calls}

theorem save_effect {s t : Sys ω} (before : ∀ id, (s.phase w).owed id = 0)
    (adds : ∀ v ∈ s.subs, v.row.id = sub.id → sub.amountUsed = v.row.amountUsed + p.owed sub.id)
    (only : ∀ id, id ≠ sub.id → p.owed id = 0) (h : s.save w sub p = some t) : Effect s w t := by
  unfold Sys.save at h
  split at h <;> cases h
  rename_i free
  refine .save before (fun v hv same => ?_) adds only
  have := all_eq_true.mp free v hv
  simpa [same] using this

theorem preConsume_effect {s t : Sys ω} (call : calls w = .preConsume requestId userId amount now)
    (current : savesCurrent loc calls s (.step w))
    (h : s.preConsume loc fuel w requestId userId amount now = some t) : Effect s w t := by
  simp only [savesCurrent, call] at current
  revert h
  fun_cases Sys.preConsume loc fuel s w requestId userId amount now <;> intro h
  case case9 | case17 => cases h
  case case1 | case5 | case7 | case8 => cases h; exact .abort
  case case2 phase _ _ | case6 phase _ | case12 phase _ =>
    cases h
    exact .read (fun _ => by rw [phase]; rfl) fun _ => rfl
  case case3 phase _ _ found _ | case4 phase _ _ found _ | case13 phase _ found _
      | case14 phase _ found _ =>
    simp only [phase] at current
    simp [find_fresh current] at found
  case case10 next phase _ _ =>
    cases h
    exact .read (fun _ => by rw [phase]; rfl) fun _ => by simp only [next]; split <;> rfl
  case case11 rest phase plan loaded sub reset next changed =>
    simp only [phase] at current
    have after : ∀ id, next.owed id = 0 := by
      intro id
      simp only [next]
      split <;> rfl
    have calm := current.2 plan (Charges.plan_ok loaded)
    obtain ⟨unset, -, -, eq⟩ := (maybeReset_not_due reset calm).resolve_left changed
    refine save_effect (fun _ => by rw [phase]; rfl) (fun v hv same => ?_) (fun id _ => after id) h
    rw [after, Int.add_zero, eq]
    rw [eq] at same
    exact (current.1 unset v hv same).symm
  case case15 phase =>
    simp only [phase] at current
    refine save_effect (fun _ => by rw [phase]; rfl) ?_ ?_ h
    · intro v hv same
      simp only [Phase.owed, if_true]
      rw [current v hv same]
    · intro id other
      exact if_neg (Ne.symm other)
  case case16 phase =>
    cases h
    exact .commit fun id => by rw [phase]; rfl

theorem postConsume_effect (call : calls w = .postConsume userSubscriptionId delta)
    (current : savesCurrent loc calls s (.step w))
    (h : s.postConsume w userSubscriptionId delta = some t) : Effect s w t := by
  simp only [savesCurrent, call] at current
  revert h
  fun_cases Sys.postConsume s w userSubscriptionId delta <;> intro h
  case case8 => cases h
  case case1 | case3 | case5 => cases h; exact .abort
  case case2 phase _ _ =>
    cases h
    exact .commit fun id => by rw [phase]; split <;> rfl
  case case4 phase _ _ _ _ =>
    cases h
    exact .read (fun _ => by rw [phase]; rfl) fun _ => rfl
  case case6 phase _ _ =>
    simp only [phase] at current
    refine save_effect (fun _ => by rw [phase]; rfl) ?_ ?_ h
    · intro v hv same
      simp only [Phase.owed, if_true]
      rw [current.1 v hv same]
      exact max_eq_left current.2
    · intro id other
      exact if_neg (Ne.symm other)
  case case7 phase =>
    cases h
    exact .commit fun id => by rw [phase]; rfl

theorem step_effect {s t : Sys ω} (current : savesCurrent loc calls s a)
    (h : step loc fuel calls s a = some t) : ∃ w, Effect s w t := by
  cases a with
  | fail w =>
    simp only [step] at h
    split at h
    · contradiction
    · cases h
      exact ⟨w, .abort⟩
  | step w =>
    refine ⟨w, ?_⟩
    simp only [step] at h
    cases call : calls w with
    | preConsume requestId userId amount now =>
      simp only [call] at h
      exact preConsume_effect call current h
    | postConsume userSubscriptionId delta =>
      simp only [call] at h
      exact postConsume_effect call current h

def chargedTo (id : Int) (charged : List (Int × Int)) : Int :=
  (charged.map fun entry => if entry.1 = id then entry.2 else 0).sum

/-- Every row holds its initial amount and the charges that have returned success; a version of it
that is not committed is a version of the same row, with what its writer will have charged. -/
structure Accounted (initial : Int → Int) (s : Sys ω) : Prop where
  sameId : ∀ v ∈ s.subs, ∀ w new, v.staged = some (w, new) → new.id = v.row.id
  balanced : ∀ v ∈ s.subs, Versioned.Balanced (fun sub => sub.amountUsed)
    (initial v.row.id + chargedTo v.row.id s.charged) (fun w => (s.phase w).owed v.row.id) v

theorem owed_setPhase (s : Sys ω) (w : ω) (p : Phase) (id : Int) :
    (fun v => ((s.setPhase w p).phase v).owed id) =
      update (fun v => (s.phase v).owed id) w (p.owed id) :=
  funext fun v => apply_update (fun _ phase => Phase.owed id phase) s.phase w p v

theorem Accounted.commit_id (h : Accounted initial s) (hv : v ∈ s.subs) (w : ω) :
    (v.commit w).row.id = v.row.id := by
  fun_cases v.commit w <;> try rfl
  next staged => exact h.sameId v hv _ _ staged

theorem Accounted.effect {s t : Sys ω} (h : Accounted initial s) (effect : Effect s w t) :
    Accounted initial t := by
  cases effect with
  | read before after =>
    refine ⟨h.sameId, fun v hv => ?_⟩
    rw [owed_setPhase, after, ← before v.row.id, update_eq_self w]
    exact h.balanced v hv
  | @save sub p before free adds only =>
    refine ⟨fun v' hv' u new staged => ?_, fun v' hv' => ?_⟩
    · obtain ⟨v, hv, rfl⟩ := mem_map.mp hv'
      unfold stageRow at staged ⊢
      split at staged
      next own =>
        obtain ⟨-, rfl⟩ := Prod.mk.inj (Option.some.inj staged)
        rw [if_pos own]
        exact own.symm
      next other =>
        rw [if_neg other]
        exact h.sameId v hv u new staged
    · obtain ⟨v, hv, rfl⟩ := mem_map.mp hv'
      rw [owed_setPhase]
      unfold stageRow
      split
      next own =>
        have balanced := (h.balanced v hv).stage (free v hv own) (adds v hv own)
        rw [← own] at balanced
        exact balanced
      next other =>
        rw [only _ other, ← before v.row.id, update_eq_self w]
        exact h.balanced v hv
  | @commit created subscriptionId amount owes =>
    refine ⟨fun v' hv' u new staged => ?_, fun v' hv' => ?_⟩
    · obtain ⟨v, hv, rfl⟩ := mem_map.mp hv'
      rw [h.commit_id hv]
      exact h.sameId v hv u new (Versioned.staged_of_commit staged)
    · obtain ⟨v, hv, rfl⟩ := mem_map.mp hv'
      have balanced := (h.balanced v hv).commit w
      simp only [owes v.row.id] at balanced
      rw [h.commit_id hv, Sys.commit, owed_setPhase, Sys.setPhase]
      simp only [chargedTo, map_append, sum_append, map_cons, map_nil, sum_singleton,
        ← Int.add_assoc]
      exact balanced
  | abort =>
    refine ⟨fun v' hv' u new staged => ?_, fun v' hv' => ?_⟩
    · obtain ⟨v, hv, rfl⟩ := mem_map.mp hv'
      rw [Versioned.rollback_row]
      exact h.sameId v hv u new (Versioned.staged_of_rollback staged)
    · obtain ⟨v, hv, rfl⟩ := mem_map.mp hv'
      rw [Versioned.rollback_row, Sys.abort, owed_setPhase]
      exact (h.balanced v hv).rollback w

/-- In every run whose writes find the used amount that their copies were loaded with, no charge is
lost. -/
theorem no_charge_lost (initial : Int → Int) {s t : Sys ω} {as : List (Action ω)}
    (idle : ∀ w, s.phase w = .idle) (free : ∀ v ∈ s.subs, v.staged = none)
    (uncharged : s.charged = []) (start : ∀ v ∈ s.subs, v.row.amountUsed = initial v.row.id)
    (path : Path (savesCurrent loc calls) (step loc fuel calls) s as t) :
    ∀ v ∈ t.subs, v.row.amountUsed = initial v.row.id + chargedTo v.row.id t.charged := by
  have begins : Accounted initial s := by
    refine ⟨fun v hv w new staged => ?_, fun v hv => ⟨?_, fun w new staged => ?_, fun w owes => ?_⟩⟩
    · rw [free v hv] at staged
      contradiction
    · simp [uncharged, chargedTo, start v hv]
    · rw [free v hv] at staged
      contradiction
    · rw [idle w] at owes
      exact absurd rfl owes
  have final : Accounted initial t := path.invariant
    (fun s a t h current hstep => by
      obtain ⟨w, effect⟩ := step_effect current hstep
      exact h.effect effect) begins
  exact fun v hv => (final.balanced v hv).row

end

def twoRequests : Bool → Call
  | true => .preConsume "r1" 7 10 1706700000
  | false => .preConsume "r2" 7 20 1706700000

def unlimitedRow : UserSubscription :=
  { id := 1, userId := 7, planId := 1, amountTotal := 0, amountUsed := 0
    startTime := 1706659200, endTime := 1738281600, status := .active
    lastResetTime := 0, nextResetTime := 0, upgradeGroup := "", prevUserGroup := "" }

def unlimitedTables (ω : Type) : Sys ω where
  subs := [{ row := unlimitedRow }]
  plans _ := some { id := 1 }
  records := []
  phase _ := .idle
  charged := []

/-- Both load the row before one of them writes it: both succeed, and the charge of 10 is lost. -/
theorem charge_overwritten :
    (exec (step utc 0 twoRequests) (unlimitedTables Bool)
      [.step true, .step false, .step true, .step false, .step true, .step false,
       .step true, .step false, .step true, .step true, .step false, .step false]).map (fun t =>
        (t.subs.map (·.row.amountUsed), t.charged)) = some ([20], [(1, 10), (1, 20)]) := by
  decide +kernel

def chargeAndSettle : Bool → Call
  | true => .preConsume "r1" 7 10 1706700000
  | false => .postConsume 1 20

/-- A settlement runs between the statements of a charge, before the charge has loaded the row. -/
theorem no_charge_lost_settlement :
    ∃ t, Path (savesCurrent utc chargeAndSettle) (step utc 0 chargeAndSettle) (unlimitedTables Bool)
      [.step true, .step false, .step false, .step false, .step true, .step true, .step true,
        .step true, .step true] t ∧ t.charged = [(1, 20), (1, 10)] ∧
      ∀ v ∈ t.subs, v.row.amountUsed = 0 + chargedTo v.row.id t.charged := by
  refine Path.exists_and (.cons (by nofun) rfl <| .cons trivial rfl <|
    .cons ⟨by decide, by decide⟩ rfl <| .cons trivial rfl <| .cons trivial rfl <|
    .cons ⟨fun _ => by decide, fun plan stored => ?_⟩ rfl <| .cons (by nofun) rfl <|
    .cons (fun v hv _ => ?_) rfl <| .cons trivial rfl <| .nil _) fun path => ⟨rfl, ?_⟩
  · cases stored
    exact fun due => due.2.1 rfl
  · obtain rfl := mem_singleton.mp hv
    rfl
  · exact no_charge_lost (fun _ => 0) (fun _ => rfl)
      (fun v hv => by obtain rfl := mem_singleton.mp hv; rfl) rfl
      (fun v hv => by obtain rfl := mem_singleton.mp hv; rfl) path

end EastApi.Subscription.Concurrent
