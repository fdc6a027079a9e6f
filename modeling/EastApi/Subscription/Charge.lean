import EastApi.Subscription.Model

/-! What requests take from subscriptions: `PreConsumeUserSubscription` with the periodic reset of
the used amount, `PostConsumeUserSubscriptionDelta` and `RefundSubscriptionPreConsume`.  The
catch-up loop of a reset has a fuel; `none` is a loop that has not ended with it. -/

namespace EastApi.Subscription

open Go List

inductive RecordStatus
  | consumed | refunded
deriving DecidableEq, Repr

structure PreConsumeRecord where
  requestId : String
  (userId userSubscriptionId preConsumed : Int)
  status : RecordStatus
deriving DecidableEq, Repr

structure Charges where
  subs : List UserSubscription
  plans : Int → Option SubscriptionPlan
  records : List PreConsumeRecord

structure Faults where
  findRecord : Option String := none
  findSubs : Option String := none
  findPlan : Option String := none
  saveReset : Option String := none
  createRecord : Option String := none
  saveSub : Option String := none
  commit : Option String := none

/-- A transaction: `none` while its loop has not ended, its error, or its result. -/
abbrev Tx (α : Type) := Option (Except String α)

structure PreConsumeResult where
  (userSubscriptionId preConsumed amountTotal amountUsedBefore amountUsedAfter : Int)
deriving DecidableEq, Repr

def Charges.save (c : Charges) (sub : UserSubscription) : Charges :=
  { c with subs := c.subs.map fun s => if s.id = sub.id then sub else s }

section
variable (loc : Location) (fuel : Nat)

def resetLoop (plan : SubscriptionPlan) (endTime now : Int) : Nat → Int → Int → Option (Int × Int)
  | 0, base, next => if 0 < next ∧ next ≤ now then none else some (base, next)
  | fuel + 1, base, next =>
    if 0 < next ∧ next ≤ now then
      resetLoop plan endTime now fuel next (calcNextResetTime loc next plan endTime)
    else some (base, next)

def resetBase (sub : UserSubscription) : Int :=
  if sub.lastResetTime ≤ 0 then sub.startTime else sub.lastResetTime

/-- The row after `maybeResetUserSubscriptionWithPlanTx`; it is saved if it differs. -/
def maybeResetUserSubscriptionWithPlanTx (sub : UserSubscription) (plan : SubscriptionPlan)
    (now : Int) : Option UserSubscription :=
  if 0 < sub.nextResetTime ∧ now < sub.nextResetTime then some sub
  else if normalizeResetPeriod plan.quotaResetPeriod = .never then some sub
  else
    let base := resetBase sub
    let next := calcNextResetTime loc base plan sub.endTime
    if 0 < next ∧ next ≤ now then
      (resetLoop loc plan sub.endTime now fuel base next).map fun (base, next) =>
        { sub with amountUsed := 0, lastResetTime := base, nextResetTime := next }
    else if sub.nextResetTime = 0 ∧ 0 < next then
      some { sub with nextResetTime := next, lastResetTime := base }
    else some sub

def Charges.plan (c : Charges) (faults : Faults) (id : Int) : Except String SubscriptionPlan :=
  if id ≤ 0 then .error "invalid plan id"
  else match faults.findPlan, c.plans id with
    | some message, _ => .error message
    | none, none => .error "record not found"
    | none, some plan => .ok plan

def Charges.resetCandidate (c : Charges) (faults : Faults) (candidate : UserSubscription)
    (plan : SubscriptionPlan) (now : Int) : Tx (Charges × UserSubscription) :=
  match maybeResetUserSubscriptionWithPlanTx loc fuel candidate plan now with
  | none => none
  | some sub =>
    if sub = candidate then some (.ok (c, sub))
    else match faults.saveReset with
      | some message => some (.error message)
      | none => some (.ok (c.save sub, sub))

/-- The record and the row of a charge.  A record that cannot be created may be there already. -/
def Charges.consume (c : Charges) (faults : Faults) (requestId : String) (userId amount : Int)
    (sub : UserSubscription) : Except String (Charges × PreConsumeResult) :=
  match faults.createRecord with
  | some message =>
    match c.records.find? (·.requestId = requestId) with
    | none => .error message
    | some dup =>
      if dup.status = .refunded then .error "subscription pre-consume already refunded"
      else .ok (c, ⟨sub.id, dup.preConsumed, sub.amountTotal, sub.amountUsed, sub.amountUsed⟩)
  | none =>
    match faults.saveSub with
    | some message => .error message
    | none =>
      let used := sub.amountUsed + amount
      .ok ({ c.save { sub with amountUsed := used } with
             records := c.records ++ [⟨requestId, userId, sub.id, amount, .consumed⟩] },
           ⟨sub.id, amount, sub.amountTotal, sub.amountUsed, used⟩)

def consumeFirst (faults : Faults) (requestId : String) (userId amount now : Int) :
    List UserSubscription → Charges → Tx (Charges × PreConsumeResult)
  | [], _ => some (.error ("subscription quota insufficient, need=" ++ toString amount))
  | candidate :: rest, c =>
    match c.plan faults candidate.planId with
    | .error message => some (.error message)
    | .ok plan =>
      match c.resetCandidate loc fuel faults candidate plan now with
      | none => none
      | some (.error message) => some (.error message)
      | some (.ok (c, sub)) =>
        if 0 < sub.amountTotal ∧ sub.amountTotal - sub.amountUsed < amount then
          consumeFirst faults requestId userId amount now rest c
        else some (c.consume faults requestId userId amount sub)

def Charges.candidates (c : Charges) (userId now : Int) : List UserSubscription :=
  (c.subs.filter fun s => s.userId = userId && s.status = .active && now < s.endTime).insertionSort
    fun a b => ¬ b.endsBefore a

def preConsumeUserSubscription (faults : Faults) (c : Charges) (requestId : String)
    (userId amount now : Int) : Tx (Charges × PreConsumeResult) :=
  if userId ≤ 0 then some (.error "invalid userId")
  else if trimSpace requestId = "" then some (.error "requestId is empty")
  else if amount ≤ 0 then some (.error "amount must be > 0")
  else match faults.findRecord, c.records.find? (·.requestId = requestId) with
    | some message, _ => some (.error message)
    | none, some existing =>
      if existing.status = .refunded then
        some (.error "subscription pre-consume already refunded")
      else match c.subs.find? (·.id = existing.userSubscriptionId) with
        | none => some (.error "record not found")
        | some sub => some (.ok (c,
            ⟨sub.id, existing.preConsumed, sub.amountTotal, sub.amountUsed, sub.amountUsed⟩))
    | none, none =>
      if faults.findSubs.isSome ∨ c.candidates userId now = [] then
        some (.error "no active subscription")
      else match consumeFirst loc fuel faults requestId userId amount now
          (c.candidates userId now) c, faults.commit with
        | none, _ => none
        | some (.error message), _ => some (.error message)
        | some (.ok _), some message => some (.error message)
        | some (.ok result), none => some (.ok result)

end

def Charges.hasActive (c : Charges) (userId now : Int) : Bool :=
  c.subs.any fun s => s.userId = userId && s.status = .active && now < s.endTime

def postConsumeUserSubscriptionDelta (c : Charges) (userSubscriptionId delta : Int) :
    Except String Charges :=
  if userSubscriptionId ≤ 0 then .error "invalid userSubscriptionId"
  else if delta = 0 then .ok c
  else match c.subs.find? (·.id = userSubscriptionId) with
    | none => .error "record not found"
    | some sub =>
      let newUsed := max (sub.amountUsed + delta) 0
      if 0 < sub.amountTotal ∧ sub.amountTotal < newUsed then
        .error ("subscription used exceeds total, used=" ++ toString newUsed ++ " total=" ++
          toString sub.amountTotal)
      else .ok (c.save { sub with amountUsed := newUsed })

def Charges.markRefunded (c : Charges) (requestId : String) : Charges :=
  { c with records := c.records.map fun r =>
      if r.requestId = requestId then { r with status := .refunded } else r }

def refundSubscriptionPreConsume (c : Charges) (requestId : String) : Except String Charges :=
  if trimSpace requestId = "" then .error "requestId is empty"
  else match c.records.find? (·.requestId = requestId) with
    | none => .error "record not found"
    | some record =>
      if record.status = .refunded then .ok c
      else if record.preConsumed ≤ 0 then .ok (c.markRefunded requestId)
      else (postConsumeUserSubscriptionDelta c record.userSubscriptionId (-record.preConsumed)).map
        fun c => c.markRefunded requestId

def Charges.amounts (c : Charges) : List (Int × Int) := c.subs.map fun s => (s.id, s.amountUsed)

def raise (id amount : Int) (entry : Int × Int) : Int × Int :=
  if entry.1 = id then (entry.1, entry.2 + amount) else entry

theorem map_raise_zero (id : Int) (entries : List (Int × Int)) :
    entries.map (raise id 0) = entries := by
  have same : raise id 0 = fun entry => entry := by
    funext entry
    unfold raise
    split <;> simp
  rw [same, map_id']

theorem map_raise_raise (id a b : Int) (entries : List (Int × Int)) :
    (entries.map (raise id a)).map (raise id b) = entries.map (raise id (a + b)) := by
  rw [map_map]
  refine map_congr_left fun entry _ => ?_
  simp only [Function.comp_apply, raise]
  split
  · rw [Int.add_assoc]
  · rfl

def Charges.ids (c : Charges) : List Int := c.subs.map fun s => s.id

theorem Charges.ids_eq (c : Charges) : c.ids = c.amounts.map Prod.fst := by
  simp [ids, amounts]

theorem map_fst_raise (id amount : Int) (entries : List (Int × Int)) :
    (entries.map (raise id amount)).map Prod.fst = entries.map Prod.fst := by
  rw [map_map]
  refine map_congr_left fun entry _ => ?_
  simp only [Function.comp_apply, raise]
  split <;> rfl

theorem Charges.eq_of_id (c : Charges) (unique : c.ids.Nodup) (ha : a ∈ c.subs) (hb : b ∈ c.subs)
    (same : a.id = b.id) : a = b :=
  inj_on_of_nodup_map unique ha hb same

variable {c : Charges} {sub : UserSubscription}

theorem Charges.save_amounts (amount : Int)
    (raised : ∀ r ∈ c.subs, r.id = sub.id → sub.amountUsed = r.amountUsed + amount) :
    (c.save sub).amounts = c.amounts.map (raise sub.id amount) := by
  simp only [amounts, save, map_map]
  refine map_congr_left fun r hr => ?_
  simp only [Function.comp_apply, raise]
  split
  next same => rw [raised r hr same, same]
  · rfl

def clear (ids : List Int) (entry : Int × Int) : Int × Int :=
  if entry.1 ∈ ids then (entry.1, 0) else entry

theorem map_clear_nil (entries : List (Int × Int)) : entries.map (clear []) = entries := by
  have same : clear [] = fun entry => entry := by
    funext entry
    simp [clear]
  rw [same, map_id']

theorem map_clear_clear (ids ids' : List Int) (entries : List (Int × Int)) :
    (entries.map (clear ids)).map (clear ids') = entries.map (clear (ids ++ ids')) := by
  rw [map_map]
  refine map_congr_left fun entry _ => ?_
  by_cases one : entry.1 ∈ ids <;> by_cases other : entry.1 ∈ ids' <;> simp [clear, one, other]

theorem map_fst_clear (ids : List Int) (entries : List (Int × Int)) :
    (entries.map (clear ids)).map Prod.fst = entries.map Prod.fst := by
  rw [map_map]
  refine map_congr_left fun entry _ => ?_
  simp only [Function.comp_apply, clear]
  split <;> rfl

theorem Charges.save_clears (zero : sub.amountUsed = 0) :
    (c.save sub).amounts = c.amounts.map (clear [sub.id]) := by
  simp only [amounts, save, map_map]
  refine map_congr_left fun r _ => ?_
  by_cases own : r.id = sub.id <;> simp [clear, own, zero]

def resetDue (loc : Location) (now : Int) (sub : UserSubscription) (plan : SubscriptionPlan) :
    Prop :=
  ¬ (0 < sub.nextResetTime ∧ now < sub.nextResetTime) ∧
  normalizeResetPeriod plan.quotaResetPeriod ≠ .never ∧
  0 < calcNextResetTime loc (resetBase sub) plan sub.endTime ∧
  calcNextResetTime loc (resetBase sub) plan sub.endTime ≤ now

theorem maybeReset_some
    (h : maybeResetUserSubscriptionWithPlanTx loc fuel sub plan now = some new) :
    new.id = sub.id ∧
    (new.amountUsed = sub.amountUsed ∨ resetDue loc now sub plan ∧ new.amountUsed = 0) := by
  revert h
  fun_cases maybeResetUserSubscriptionWithPlanTx loc fuel sub plan now <;> intro h
  case case3 reached periodic _ _ late =>
    obtain ⟨times, -, rfl⟩ := Option.map_eq_some_iff.mp h
    exact ⟨rfl, .inr ⟨⟨reached, periodic, late.1, late.2⟩, rfl⟩⟩
  all_goals cases h; exact ⟨rfl, .inl rfl⟩

theorem maybeReset_ends (calm : ¬ resetDue loc now sub plan) :
    maybeResetUserSubscriptionWithPlanTx loc fuel sub plan now ≠ none := by
  fun_cases maybeResetUserSubscriptionWithPlanTx loc fuel sub plan now <;> try simp
  next reached periodic _ _ late => exact absurd ⟨reached, periodic, late.1, late.2⟩ calm

def Charges.Agrees (c : Charges) (s : UserSubscription) : Prop :=
  ∀ r ∈ c.subs, r.id = s.id → r.amountUsed = s.amountUsed

variable {s : UserSubscription}

theorem Charges.Agrees.save (h : c.Agrees s) (other : s.id ≠ sub.id) : (c.save sub).Agrees s := by
  intro r hr id
  obtain ⟨row, hrow, rfl⟩ := mem_map.mp hr
  by_cases hit : row.id = sub.id
  · rw [if_pos hit] at id
    exact absurd id.symm other
  · rw [if_neg hit] at id ⊢
    exact h row hrow id

theorem Charges.agrees_saved (c : Charges) (sub : UserSubscription) : (c.save sub).Agrees sub := by
  intro r hr id
  obtain ⟨row, -, rfl⟩ := mem_map.mp hr
  by_cases hit : row.id = sub.id
  · rw [if_pos hit]
  · rw [if_neg hit] at id
    exact absurd id hit

variable {loc : Location} {fuel : Nat} {faults : Faults} {c' : Charges} {now : Int}
  {plan : SubscriptionPlan}

theorem resetCandidate_plans
    (h : c.resetCandidate loc fuel faults s plan now = some (.ok (c', sub))) :
    c'.plans = c.plans := by
  revert h
  fun_cases c.resetCandidate loc fuel faults s plan now <;> intro h <;> cases h <;> rfl

theorem resetCandidate_ends (calm : ¬ resetDue loc now s plan) :
    c.resetCandidate loc fuel faults s plan now ≠ none := by
  fun_cases c.resetCandidate loc fuel faults s plan now <;> try simp
  next none => exact maybeReset_ends calm none

theorem resetCandidate_ok (agrees : c.Agrees s)
    (h : c.resetCandidate loc fuel faults s plan now = some (.ok (c', sub))) :
    sub.id = s.id ∧ c'.records = c.records ∧ c'.Agrees sub ∧
    (∀ t : UserSubscription, t.id ≠ s.id → c.Agrees t → c'.Agrees t) ∧
    ∃ ids, (∀ id ∈ ids, id = s.id ∧ resetDue loc now s plan) ∧
      c'.amounts = c.amounts.map (clear ids) := by
  revert h
  fun_cases Charges.resetCandidate loc fuel c faults s plan now <;> intro h <;> cases h
  · exact ⟨rfl, rfl, agrees, fun t _ ht => ht, [], by simp, (map_clear_nil _).symm⟩
  next reset _ =>
    obtain ⟨id, used⟩ := maybeReset_some reset
    refine ⟨id, rfl, c.agrees_saved sub, fun t other ht => ht.save (id ▸ other), ?_⟩
    rcases used with same | ⟨late, zero⟩
    · refine ⟨[], by simp, ?_⟩
      rw [map_clear_nil, ← map_raise_zero sub.id c.amounts]
      exact Charges.save_amounts 0 fun r hr hid => by
        rw [same, agrees r hr (hid.trans id), Int.add_zero]
    · exact ⟨[sub.id], by simp [id, late], Charges.save_clears zero⟩

def Charges.Due (c : Charges) (loc : Location) (now : Int) (l : List UserSubscription) (id : Int) :
    Prop :=
  ∃ s ∈ l, s.id = id ∧ ∃ plan, c.plans s.planId = some plan ∧ resetDue loc now s plan

/-- A charge of one of the subscriptions `l`: it raises the used amount of that one, after resets
that were due, and leaves a record under the request. -/
structure Taken (loc : Location) (now : Int) (requestId : String) (userId amount : Int)
    (l : List UserSubscription) (c c' : Charges) (result : PreConsumeResult) : Prop where
  preConsumed : result.preConsumed = amount
  amounts : ∃ ids, (∀ id ∈ ids, c.Due loc now l id) ∧
    c'.amounts = (c.amounts.map (clear ids)).map (raise result.userSubscriptionId amount)
  records : c'.records =
    c.records ++ [⟨requestId, userId, result.userSubscriptionId, amount, .consumed⟩]
  sub : ∃ s ∈ l, s.id = result.userSubscriptionId

variable {requestId : String}

theorem find_fresh {records : List PreConsumeRecord}
    (fresh : ∀ r ∈ records, r.requestId ≠ requestId) :
    records.find? (fun r => r.requestId = requestId) = none := by
  rw [find?_eq_none]
  intro r hr same
  exact fresh r hr (by simpa using same)

theorem consume_ok {result : PreConsumeResult} (fresh : ∀ r ∈ c.records, r.requestId ≠ requestId)
    (agrees : c.Agrees sub) (h : c.consume faults requestId userId amount sub = .ok (c', result)) :
    result.preConsumed = amount ∧ result.userSubscriptionId = sub.id ∧
    c'.amounts = c.amounts.map (raise sub.id amount) ∧
    c'.records = c.records ++ [⟨requestId, userId, sub.id, amount, .consumed⟩] := by
  simp only [Charges.consume, find_fresh fresh] at h
  split at h
  · cases h
  split at h
  · cases h
  cases h
  refine ⟨rfl, rfl, ?_, rfl⟩
  exact Charges.save_amounts amount fun r hr hid => by rw [agrees r hr hid]

theorem Charges.plan_ok {id : Int} (h : c.plan faults id = .ok plan) : c.plans id = some plan := by
  revert h
  fun_cases c.plan faults id <;> intro h <;> cases h
  assumption

section
variable {loc : Location} {fuel : Nat} {faults : Faults} {requestId : String}
  {userId amount now : Int}

theorem consumeFirst_taken {result : PreConsumeResult} (l : List UserSubscription) :
    ∀ c : Charges, (∀ r ∈ c.records, r.requestId ≠ requestId) → (∀ s ∈ l, c.Agrees s) →
      (l.map fun s => s.id).Nodup →
      consumeFirst loc fuel faults requestId userId amount now l c = some (.ok (c', result)) →
      Taken loc now requestId userId amount l c c' result := by
  induction l with
  | nil =>
    intro c _ _ _ h
    simp [consumeFirst] at h
  | cons s rest ih =>
    intro c fresh agrees distinct h
    obtain ⟨first, distinct⟩ := nodup_cons.mp distinct
    simp only [consumeFirst] at h
    split at h
    · simp at h
    rename_i plan found
    split at h
    · cases h
    · simp at h
    rename_i c1 sub reset
    obtain ⟨id, records, agreesSub, keeps, ids, due, amounts⟩ :=
      resetCandidate_ok (agrees s (by simp)) reset
    have dueFirst : ∀ id ∈ ids, c.Due loc now (s :: rest) id := fun id hid =>
      ⟨s, by simp, (due id hid).1.symm, plan, Charges.plan_ok found, (due id hid).2⟩
    split at h
    · -- this one is used up, and the charge is of a later one
      have agreesRest : ∀ t ∈ rest, c1.Agrees t := fun t ht =>
        keeps t (fun same => first (mem_map.mpr ⟨t, ht, same⟩)) (agrees t (by simp [ht]))
      obtain ⟨preConsumed, ⟨later, dueLater, raised⟩, recorded, t, ht, hid⟩ :=
        ih c1 (records ▸ fresh) agreesRest distinct h
      refine ⟨preConsumed, ⟨ids ++ later, ?_, ?_⟩, records ▸ recorded, t, by simp [ht], hid⟩
      · intro id hid
        rcases mem_append.mp hid with mine | theirs
        · exact dueFirst id mine
        · obtain ⟨t, ht, same, plan, hplan, late⟩ := dueLater id theirs
          exact ⟨t, by simp [ht], same, plan, resetCandidate_plans reset ▸ hplan, late⟩
      · rw [raised, amounts, map_clear_clear]
    · obtain ⟨preConsumed, hid, raised, recorded⟩ :=
        consume_ok (records ▸ fresh) agreesSub (Option.some.inj h)
      refine ⟨preConsumed, ⟨ids, dueFirst, ?_⟩, ?_, s, by simp, ?_⟩
      · rw [raised, amounts, hid]
      · rw [recorded, records, hid]
      · rw [hid, id]

theorem consumeFirst_ends (l : List UserSubscription) : ∀ c : Charges,
    (∀ id, ¬ c.Due loc now l id) →
      consumeFirst loc fuel faults requestId userId amount now l c ≠ none := by
  induction l with
  | nil => intro c _; simp [consumeFirst]
  | cons s rest ih =>
    intro c calm
    simp only [consumeFirst]
    split
    · simp
    rename_i plan found
    have due : ¬ resetDue loc now s plan := fun late =>
      calm s.id ⟨s, by simp, rfl, plan, Charges.plan_ok found, late⟩
    split
    · exact absurd (by assumption) (resetCandidate_ends due)
    · simp
    rename_i c1 sub reset
    split
    · refine ih c1 fun id => ?_
      rintro ⟨t, ht, same, plan, hplan, late⟩
      refine calm id ⟨t, by simp [ht], same, plan, ?_, late⟩
      rw [← resetCandidate_plans reset]
      exact hplan
    · simp

variable {c : Charges}

theorem mem_candidates :
    s ∈ c.candidates userId now ↔
      s ∈ c.subs ∧ s.userId = userId ∧ s.status = .active ∧ now < s.endTime := by
  simp [Charges.candidates, mem_insertionSort, and_assoc]

theorem candidates_distinct (unique : c.ids.Nodup) :
    ((c.candidates userId now).map fun s => s.id).Nodup := by
  have sorted := (perm_insertionSort (fun a b => ¬ b.endsBefore a)
    (c.subs.filter fun s => s.userId = userId && s.status = .active && now < s.endTime)).map
      fun s => s.id
  refine sorted.nodup_iff.mpr (List.Nodup.sublist ?_ unique)
  exact List.Sublist.map _ filter_sublist

section
variable (fresh : ∀ r ∈ c.records, r.requestId ≠ requestId)
  (h : preConsumeUserSubscription loc fuel faults c requestId userId amount now =
    some (.ok (c', result)))
include fresh h

theorem preConsume_first :
    0 < amount ∧ consumeFirst loc fuel faults requestId userId amount now
      (c.candidates userId now) c = some (.ok (c', result)) := by
  revert h
  fun_cases preConsumeUserSubscription loc fuel faults c requestId userId amount now <;> intro h <;>
    cases h
  next found _ =>
    rw [find_fresh fresh] at found
    cases found
  next positive _ _ _ _ run => exact ⟨by omega, run⟩

theorem preConsume_taken (unique : c.ids.Nodup) :
    Taken loc now requestId userId amount (c.candidates userId now) c c' result := by
  have agrees : ∀ s ∈ c.candidates userId now, c.Agrees s := by
    intro s hs r hr hid
    rw [c.eq_of_id unique hr (mem_candidates.mp hs).1 hid]
  exact consumeFirst_taken _ c fresh agrees (candidates_distinct unique)
    (preConsume_first fresh h).2

end

theorem preConsume_ends (calm : ∀ id, ¬ c.Due loc now (c.candidates userId now) id) :
    preConsumeUserSubscription loc fuel faults c requestId userId amount now ≠ none := by
  fun_cases preConsumeUserSubscription loc fuel faults c requestId userId amount now <;> try simp
  next run => exact consumeFirst_ends _ c calm run

end

theorem postConsume_ok {id delta : Int} (h : postConsumeUserSubscriptionDelta c id delta = .ok c') :
    delta = 0 ∧ c' = c ∨ ∃ sub ∈ c.subs, sub.id = id ∧ delta ≠ 0 ∧
      c' = c.save { sub with amountUsed := max (sub.amountUsed + delta) 0 } := by
  revert h
  fun_cases postConsumeUserSubscriptionDelta c id delta <;> intro h <;> cases h
  next zero => exact .inl ⟨zero, rfl⟩
  next nonzero sub found _ _ =>
    exact .inr ⟨sub, mem_of_find?_eq_some found, by simpa using find?_some found, nonzero,
      rfl⟩

theorem postConsume_raised {id delta : Int} (unique : c.ids.Nodup)
    (room : ∀ e ∈ c.amounts, e.1 = id → 0 ≤ e.2 + delta)
    (h : postConsumeUserSubscriptionDelta c id delta = .ok c') :
    c'.amounts = c.amounts.map (raise id delta) ∧ c'.records = c.records := by
  obtain ⟨rfl, rfl⟩ | ⟨sub, member, rfl, -, rfl⟩ := postConsume_ok h
  · exact ⟨(map_raise_zero ..).symm, rfl⟩
  · have kept := room (sub.id, sub.amountUsed) (mem_map_of_mem member) rfl
    refine ⟨Charges.save_amounts delta fun r hr same => ?_, rfl⟩
    rw [c.eq_of_id unique hr member same]
    exact max_eq_left kept

theorem refund_lowered {record : PreConsumeRecord}
    (found : c.records.find? (fun r => r.requestId = requestId) = some record)
    (consumed : record.status = .consumed) (positive : 0 < record.preConsumed)
    (unique : c.ids.Nodup)
    (room : ∀ e ∈ c.amounts, e.1 = record.userSubscriptionId → record.preConsumed ≤ e.2)
    (h : refundSubscriptionPreConsume c requestId = .ok c') :
    c'.amounts = c.amounts.map (raise record.userSubscriptionId (-record.preConsumed)) := by
  simp only [refundSubscriptionPreConsume, found] at h
  split at h
  · cases h
  rw [if_neg (by rw [consumed]; decide), if_neg (by omega)] at h
  cases lowered : postConsumeUserSubscriptionDelta c record.userSubscriptionId
      (-record.preConsumed) with
  | error message =>
    rw [lowered] at h
    cases h
  | ok c1 =>
    rw [lowered] at h
    cases h
    exact (postConsume_raised unique (fun e he same => by have := room e he same; omega) lowered).1

end EastApi.Subscription
