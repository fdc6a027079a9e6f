import EastApi.Lib.Run
import EastApi.Subscription.Choice

/-! Whether the used amount of a subscription accounts for the charges of its period.  A ledger
keeps, beside the tables, each request with what the calls for it have added and whether its
subscription has been reset since. -/

namespace EastApi.Subscription.Period

open Go List Function

structure Request where
  requestId : String
  (userId subscriptionId preConsumed deltas : Int)
  refunded : Bool
  /-- Its subscription has not been reset since. -/
  current : Bool
deriving DecidableEq, Repr

def Request.record (r : Request) : PreConsumeRecord :=
  ⟨r.requestId, r.userId, r.subscriptionId, r.preConsumed,
    if r.refunded then .refunded else .consumed⟩

def Request.counts (r : Request) : Bool := r.current && !r.refunded

def Request.live (r : Request) : Int := if r.counts then r.preConsumed + r.deltas else 0

def live (requests : List Request) (id : Int) : Int :=
  (requests.map fun r => if r.subscriptionId = id then r.live else 0).sum

structure Ledger where
  tables : Charges
  requests : List Request

inductive Action
  | preConsume (requestId : String) (userId amount now : Int)
  | settle (requestId : String) (delta : Int)
  | refund (requestId : String)
  | reset (id now : Int)
deriving DecidableEq, Repr

/-- The time from which the next reset of a subscription is counted.  A reset always moves it, and
nothing else does. -/
def base (c : Charges) (id : Int) : Option Int := (c.subs.find? (·.id = id)).map resetBase

def Request.aged (before after : Charges) (r : Request) : Request :=
  { r with current := r.current && base before r.subscriptionId = base after r.subscriptionId }

def Request.settled (delta : Int) (r : Request) : Request := { r with deltas := r.deltas + delta }

def Request.givenBack (r : Request) : Request := { r with refunded := true }

def change (requestId : String) (f : Request → Request) (requests : List Request) :
    List Request :=
  requests.map fun r => if r.requestId = requestId then f r else r

/-- One call.  A call that fails changes nothing; a loop that has not ended with its fuel is no
step. -/
def step (loc : Location) (fuel : Nat) (s : Ledger) : Action → Option Ledger
  | .preConsume requestId userId amount now =>
    match preConsumeUserSubscription loc fuel {} s.tables requestId userId amount now with
    | none => none
    | some (.error _) => some s
    | some (.ok (tables, result)) =>
      some ⟨tables, s.requests.map (Request.aged s.tables tables) ++
        [⟨requestId, userId, result.userSubscriptionId, result.preConsumed, 0, false, true⟩]⟩
  | .settle requestId delta =>
    match s.requests.find? (·.requestId = requestId) with
    | none => some s
    | some r =>
      match postConsumeUserSubscriptionDelta s.tables r.subscriptionId delta with
      | .error _ => some s
      | .ok tables =>
        some ⟨tables, change requestId (Request.settled delta) s.requests⟩
  | .refund requestId =>
    match refundSubscriptionPreConsume s.tables requestId with
    | .error _ => some s
    | .ok tables => some ⟨tables, change requestId Request.givenBack s.requests⟩
  | .reset id now =>
    match s.tables.subs.find? (·.id = id) with
    | none => some s
    | some sub =>
      match s.tables.plan {} sub.planId with
      | .error _ => some s
      | .ok plan =>
        match s.tables.resetCandidate loc fuel {} sub plan now with
        | none => none
        | some (.error _) => some s
        | some (.ok (tables, _)) => some ⟨tables, s.requests.map (Request.aged s.tables tables)⟩

/-- The condition on a call: a settlement or refund is of a request of the current period and does
not take more than has been used, or it finds nothing used that it could take from; what is
refunded has not been settled. -/
def withinPeriod (s : Ledger) : Action → Prop
  | .preConsume requestId _ _ _ => ∀ r ∈ s.tables.records, r.requestId ≠ requestId
  | .settle requestId delta => ∀ r ∈ s.requests, r.requestId = requestId →
    ∀ sub ∈ s.tables.subs, sub.id = r.subscriptionId →
      if r.counts then 0 ≤ sub.amountUsed + delta
      else delta = 0 ∨ delta < 0 ∧ sub.amountUsed = 0
  | .refund requestId => ∀ r ∈ s.requests, r.requestId = requestId → r.refunded = false →
    ∀ sub ∈ s.tables.subs, sub.id = r.subscriptionId →
      if r.current then r.deltas = 0 ∧ r.preConsumed ≤ sub.amountUsed else sub.amountUsed = 0
  | .reset _ _ => True

@[simp] theorem live_append (l l' : List Request) (id : Int) :
    live (l ++ l') id = live l id + live l' id := by
  simp [live]

theorem live_cons (r : Request) (l : List Request) (id : Int) :
    live (r :: l) id = (if r.subscriptionId = id then r.live else 0) + live l id := by
  simp [live]

theorem change_same (distinct : (l.map (·.requestId)).Nodup) (hr : r ∈ l) (same : f r = r) :
    change r.requestId f l = l := by
  unfold change
  conv_rhs => rw [← map_id' l]
  refine map_congr_left fun q hq => ?_
  split
  next own => rw [inj_on_of_nodup_map distinct hq hr own, same]
  · rfl

theorem live_change (same : ∀ r, (f r).subscriptionId = r.subscriptionId) (l : List Request)
    (distinct : (l.map (·.requestId)).Nodup) (hr : r ∈ l) (id : Int) :
    live (change r.requestId f l) id =
      live l id + if r.subscriptionId = id then (f r).live - r.live else 0 := by
  induction l with
  | nil => simp at hr
  | cons q rest ih =>
    obtain ⟨first, distinct⟩ := nodup_cons.mp distinct
    rcases mem_cons.mp hr with rfl | hr
    · -- no later request has this id
      have others : change r.requestId f rest = rest := by
        unfold change
        conv_rhs => rw [← map_id' rest]
        refine map_congr_left fun q hq => if_neg fun eq => ?_
        exact first (mem_map.mpr ⟨q, hq, eq⟩)
      have step : change r.requestId f (r :: rest) = f r :: rest := by
        show (if r.requestId = r.requestId then f r else r) :: change r.requestId f rest = _
        rw [if_pos rfl, others]
      rw [step, live_cons, live_cons, same]
      split <;> omega
    · have other : q.requestId ≠ r.requestId := fun eq =>
        first (mem_map.mpr ⟨r, hr, eq.symm⟩)
      have step : change r.requestId f (q :: rest) = q :: change r.requestId f rest := by
        simp [change, other]
      rw [step, live_cons, live_cons, ih distinct hr]
      omega

theorem live_aged_same {before after : Charges} {id : Int} (same : base before id = base after id)
    (l : List Request) : live (l.map (Request.aged before after)) id = live l id := by
  simp only [live, map_map]
  congr 1
  refine map_congr_left fun r _ => ?_
  simp only [comp_apply, Request.aged, Request.live, Request.counts]
  by_cases own : r.subscriptionId = id
  · subst own
    simp [same]
  · simp [own]

theorem live_aged_moved {before after : Charges} {id : Int} (moved : base before id ≠ base after id)
    (l : List Request) : live (l.map (Request.aged before after)) id = 0 := by
  induction l with
  | nil => rfl
  | cons r rest ih =>
    rw [map_cons, live_cons, ih]
    by_cases own : r.subscriptionId = id
    · subst own
      simp [Request.aged, Request.live, Request.counts, moved]
    · simp [Request.aged, own]

theorem Request.settled_live (delta : Int) (r : Request) :
    (r.settled delta).live - r.live = if r.counts then delta else 0 := by
  have same : (r.settled delta).counts = r.counts := rfl
  unfold Request.live
  rw [same]
  by_cases counts : r.counts = true
  · simp only [if_pos counts, Request.settled]
    omega
  · simp only [if_neg counts, Int.sub_zero]

theorem Request.givenBack_live {r : Request} (consumed : r.refunded = false) :
    r.givenBack.live - r.live = if r.current then -(r.preConsumed + r.deltas) else 0 := by
  by_cases current : r.current = true <;>
    simp [Request.live, Request.counts, Request.givenBack, consumed, current]

structure Resetting (f : UserSubscription → UserSubscription) : Prop where
  id : ∀ r, (f r).id = r.id
  used : ∀ r, resetBase (f r) = resetBase r ∧ (f r).amountUsed = r.amountUsed ∨
    resetBase (f r) ≠ resetBase r ∧ (f r).amountUsed = 0

section
variable {loc : Location} {fuel : Nat} {now : Int} {c : Charges}

theorem maybeReset_base
    (h : maybeResetUserSubscriptionWithPlanTx loc fuel sub plan now = some row) :
    resetBase row = resetBase sub ∧ row.amountUsed = sub.amountUsed ∨
      resetBase row ≠ resetBase sub ∧ row.amountUsed = 0 := by
  by_cases due : resetDue loc now sub plan
  · obtain ⟨ended, come, next⟩ := maybeReset_due_next h due
    obtain ⟨eq, -⟩ := maybeReset_due_some h due
    have last : resetBase row = row.lastResetTime := if_neg (by omega)
    refine .inr ⟨fun same => ended ?_, by rw [eq]⟩
    -- the reset after the base had come, the one after the last has not
    rw [next, ← last, same]
    exact due.2.2
  · rcases maybeReset_not_due h due with rfl | ⟨-, -, -, eq⟩
    · exact .inl ⟨rfl, rfl⟩
    · refine .inl ⟨?_, by rw [eq]⟩
      rw [eq]
      by_cases unset : sub.lastResetTime ≤ 0
      · simp [resetBase, unset]
      · simp [resetBase, unset]

variable (loc fuel now c) in
theorem resetSeen_resetting (seen : List UserSubscription) :
    Resetting (c.resetSeen loc fuel now seen) := by
  refine ⟨resetSeen_id seen, fun r => ?_⟩
  unfold Charges.resetSeen
  split
  · unfold Charges.resetRow
    split
    · exact .inl ⟨rfl, rfl⟩
    next plan _ =>
      cases run : maybeResetUserSubscriptionWithPlanTx loc fuel r plan now with
      | none => exact .inl ⟨rfl, rfl⟩
      | some row => exact maybeReset_base run
  · exact .inl ⟨rfl, rfl⟩

end

def raised (id amount : Int) (r : UserSubscription) : UserSubscription :=
  if r.id = id then { r with amountUsed := r.amountUsed + amount } else r

@[simp] theorem raised_id (id amount : Int) (r : UserSubscription) :
    (raised id amount r).id = r.id := by
  unfold raised
  split <;> rfl

@[simp] theorem resetBase_raised (id amount : Int) (r : UserSubscription) :
    resetBase (raised id amount r) = resetBase r := by
  unfold raised
  split <;> rfl

theorem raised_used (id amount : Int) (r : UserSubscription) :
    (raised id amount r).amountUsed = r.amountUsed + if id = r.id then amount else 0 := by
  simp only [raised, @eq_comm _ id]
  split <;> simp

section
variable {c : Charges} {f : UserSubscription → UserSubscription}

theorem mapRows_ids (ids : ∀ r, (f r).id = r.id) : (c.mapRows f).ids = c.ids := by
  simp [Charges.ids, Charges.mapRows, ids]

theorem base_mapRows (ids : ∀ r, (f r).id = r.id) (id : Int) :
    base (c.mapRows f) id = (c.subs.find? (·.id = id)).map fun r => resetBase (f r) := by
  have same : (fun r : UserSubscription => decide (r.id = id)) ∘ f =
      fun r => decide (r.id = id) := by
    funext r
    rw [comp_apply, ids]
  simp only [base, Charges.mapRows, find?_map, Option.map_map, same]
  rfl

theorem find_row (unique : c.ids.Nodup) (hr : r ∈ c.subs) :
    c.subs.find? (·.id = r.id) = some r := by
  obtain ⟨q, found⟩ := Option.isSome_iff_exists.mp
    (find?_isSome.mpr ⟨r, hr, by simp⟩ : (c.subs.find? (·.id = r.id)).isSome)
  rw [found, c.eq_of_id unique (mem_of_find?_eq_some found) hr
    (by simpa using find?_some found)]

theorem postConsume_raises {c' : Charges} {id delta moved : Int} (unique : c.ids.Nodup)
    (row : ∀ r ∈ c.subs, r.id = id → delta ≠ 0 →
      max (r.amountUsed + delta) 0 = r.amountUsed + moved)
    (still : delta = 0 → moved = 0)
    (h : postConsumeUserSubscriptionDelta c id delta = .ok c') :
    c' = c.mapRows (raised id moved) := by
  obtain ⟨zero, rfl⟩ | ⟨sub, member, rfl, nonzero, rfl⟩ := postConsume_ok h
  · have same : raised id 0 = fun r => r := by
      funext r
      unfold raised
      split <;> simp
    rw [still zero, same, Charges.mapRows, map_id']
  · simp only [Charges.save, Charges.mapRows, Charges.mk.injEq, and_true]
    refine map_congr_left fun r hr => ?_
    unfold raised
    split
    next same => rw [c.eq_of_id unique hr member same, row sub member rfl nonzero]
    · rfl

end

structure Books (s : Ledger) : Prop where
  unique : s.tables.ids.Nodup
  records : s.tables.records = s.requests.map Request.record
  distinct : (s.requests.map (·.requestId)).Nodup
  positive : ∀ r ∈ s.requests, 0 < r.preConsumed
  used : ∀ sub ∈ s.tables.subs, sub.amountUsed = live s.requests sub.id

section
variable {c : Charges} {requests : List Request}

theorem Books.reset (h : Books ⟨c, requests⟩) {f : UserSubscription → UserSubscription}
    (resets : Resetting f) :
    Books ⟨c.mapRows f, requests.map (Request.aged c (c.mapRows f))⟩ where
  unique := by
    show (c.mapRows f).ids.Nodup
    rw [mapRows_ids resets.id]
    exact h.unique
  records := by
    simp only [map_map]
    exact h.records
  distinct := by
    simp only [map_map]
    exact h.distinct
  positive := by
    intro r hr
    obtain ⟨q, hq, rfl⟩ := mem_map.mp hr
    exact h.positive q hq
  used := by
    intro sub hsub
    obtain ⟨r, hr, rfl⟩ := mem_map.mp hsub
    have found := find_row h.unique hr
    have before : base c r.id = some (resetBase r) := by rw [base, found]; rfl
    have after : base (c.mapRows f) r.id = some (resetBase (f r)) := by
      rw [base_mapRows resets.id, found]
      rfl
    rw [resets.id]
    rcases resets.used r with ⟨same, used⟩ | ⟨moved, used⟩
    · rw [used, live_aged_same (by rw [before, after, same])]
      exact h.used r hr
    · rw [used, live_aged_moved]
      rw [before, after]
      exact fun eq => moved (Option.some.inj eq).symm

theorem Books.charge (h : Books ⟨c, requests⟩) (fresh : ∀ r ∈ c.records, r.requestId ≠ requestId)
    (userId id : Int) (positive : 0 < amount) :
    Books ⟨{ c.mapRows (raised id amount) with
        records := c.records ++ [⟨requestId, userId, id, amount, .consumed⟩] },
      requests ++ [⟨requestId, userId, id, amount, 0, false, true⟩]⟩ where
  unique := by
    show (c.mapRows (raised id amount)).ids.Nodup
    rw [mapRows_ids (raised_id id amount)]
    exact h.unique
  records := by
    have records : c.records = requests.map Request.record := h.records
    simp [records, Request.record]
  distinct := by
    rw [map_append, nodup_append]
    refine ⟨h.distinct, by simp, ?_⟩
    intro a ha b hb same
    obtain ⟨r, hr, rfl⟩ := mem_map.mp ha
    have record : r.record ∈ c.records := by
      rw [show c.records = _ from h.records]
      exact mem_map_of_mem hr
    exact fresh _ record (by simpa [Request.record] using same.trans (by simpa using hb))
  positive := by
    intro r hr
    rcases mem_append.mp hr with old | new
    · exact h.positive r old
    · obtain rfl := mem_singleton.mp new
      exact positive
  used := by
    intro sub hsub
    obtain ⟨r, hr, rfl⟩ := mem_map.mp hsub
    have used : r.amountUsed = live requests r.id := h.used r hr
    rw [raised_used, raised_id, live_append, used]
    simp [live, Request.live, Request.counts]

theorem Books.change (h : Books ⟨c, requests⟩) (f : Request → Request) (hr : r ∈ requests)
    (kept : ∀ q, (f q).requestId = q.requestId ∧
      (f q).subscriptionId = q.subscriptionId ∧ (f q).preConsumed = q.preConsumed)
    {records : List PreConsumeRecord}
    (recorded : records = (Period.change r.requestId f requests).map Request.record) :
    Books ⟨{ c.mapRows (raised r.subscriptionId ((f r).live - r.live)) with records := records },
      Period.change r.requestId f requests⟩ where
  unique := by
    show (c.mapRows (raised r.subscriptionId ((f r).live - r.live))).ids.Nodup
    rw [mapRows_ids (raised_id _ _)]
    exact h.unique
  records := recorded
  distinct := by
    have same : (Period.change r.requestId f requests).map (·.requestId) =
        requests.map (·.requestId) := by
      simp only [Period.change, map_map]
      refine map_congr_left fun q _ => ?_
      simp only [comp_apply]
      split
      · exact (kept q).1
      · rfl
    simp only [same]
    exact h.distinct
  positive := by
    intro q hq
    obtain ⟨p, hp, rfl⟩ := mem_map.mp hq
    have positive := h.positive p hp
    split
    · rw [(kept p).2.2]
      exact positive
    · exact positive
  used := by
    intro sub hsub
    obtain ⟨row, hrow, rfl⟩ := mem_map.mp hsub
    have used : row.amountUsed = live requests row.id := h.used row hrow
    rw [raised_used, raised_id, used,
      live_change (fun q => (kept q).2.1) requests h.distinct hr]

end

section
variable {loc : Location} {fuel : Nat} {now : Int} {requestId : String} {userId amount : Int}
  {c : Charges} {seen : List UserSubscription} {sub : UserSubscription}

theorem charged_raised (unique : c.ids.Nodup) (hsub : sub ∈ c.subs) :
    c.charged loc fuel now requestId userId amount seen sub =
      { (c.mapRows (c.resetSeen loc fuel now (seen ++ [sub]))).mapRows (raised sub.id amount) with
        records := c.records ++ [⟨requestId, userId, sub.id, amount, .consumed⟩] } := by
  simp only [Charges.charged, Charges.mapRows, map_map, Charges.mk.injEq, and_true]
  refine map_congr_left fun r hr => ?_
  simp only [comp_apply, raised, resetSeen_id]
  by_cases own : r = sub
  · simp [own, Charges.resetSeen]
  · have other : r.id ≠ sub.id := fun same => own (c.eq_of_id unique hr hsub same)
    simp [own, other, Charges.resetSeen]

theorem aged_charged (unique : c.ids.Nodup) (hsub : sub ∈ c.subs) :
    Request.aged c (c.charged loc fuel now requestId userId amount seen sub) =
      Request.aged c (c.mapRows (c.resetSeen loc fuel now (seen ++ [sub]))) := by
  have same : ∀ id, base (c.charged loc fuel now requestId userId amount seen sub) id =
      base (c.mapRows (c.resetSeen loc fuel now (seen ++ [sub]))) id := by
    intro id
    rw [charged_raised unique hsub]
    exact (base_mapRows (raised_id sub.id amount) id).trans (by simp [base])
  funext r
  simp only [Request.aged, same]

end

section
variable {loc : Location} {fuel : Nat} {s t : Ledger}

theorem Books.step_preConsume (h : Books s)
    (fresh : ∀ r ∈ s.tables.records, r.requestId ≠ requestId)
    (hstep : step loc fuel s (.preConsume requestId userId amount now) = some t) : Books t := by
  simp only [step] at hstep
  split at hstep
  · cases hstep
  · cases hstep
    exact h
  rename_i tables result run
  cases hstep
  obtain ⟨positive, seen, sub, hsub, rfl, id, amount⟩ := preConsume_charged h.unique fresh run
  have resets := resetSeen_resetting loc fuel now s.tables (seen ++ [sub])
  have after := (h.reset resets).charge fresh userId sub.id positive
  rw [aged_charged h.unique hsub, charged_raised h.unique hsub, id, amount]
  exact after

theorem Books.step_settle (h : Books s) {delta : Int}
    (ok : withinPeriod s (.settle requestId delta))
    (hstep : step loc fuel s (.settle requestId delta) = some t) : Books t := by
  simp only [step] at hstep
  split at hstep
  · cases hstep
    exact h
  rename_i r found
  have member := mem_of_find?_eq_some found
  obtain rfl : r.requestId = requestId := by simpa using find?_some found
  split at hstep
  · cases hstep
    exact h
  rename_i tables run
  cases hstep
  have recorded : s.tables.records =
      (Period.change r.requestId (Request.settled delta) s.requests).map Request.record := by
    rw [h.records, Period.change, map_map]
    refine map_congr_left fun q _ => ?_
    simp only [comp_apply]
    split <;> rfl
  have after := h.change (Request.settled delta) member (fun _ => ⟨rfl, rfl, rfl⟩) recorded
  rw [Request.settled_live] at after
  rw [postConsume_raises h.unique (fun row hrow own nonzero => ?_) (fun zero => ?_) run]
  · exact after
  · have room := ok r member rfl row hrow own
    split at room <;> rename_i counts
    · rw [if_pos counts]
      exact max_eq_left room
    · rw [if_neg counts]
      omega
  · rw [zero]
    exact ite_self 0

theorem Books.step_refund (h : Books s) {requestId : String}
    (ok : withinPeriod s (.refund requestId))
    (hstep : step loc fuel s (.refund requestId) = some t) : Books t := by
  simp only [step] at hstep
  split at hstep
  · cases hstep
    exact h
  rename_i tables run
  cases hstep
  simp only [refundSubscriptionPreConsume, h.records, find?_map] at run
  split at run
  · cases run
  split at run
  · cases run
  rename_i record found
  obtain ⟨r, first, rfl⟩ := Option.map_eq_some_iff.mp found
  have member := mem_of_find?_eq_some first
  have own := find?_some first
  obtain rfl : r.requestId = requestId := of_decide_eq_true own
  split at run
  next refunded =>
    cases run
    rw [change_same h.distinct member]
    · exact h
    · have done : r.refunded = true := by simpa [Request.record] using refunded
      simp only [Request.givenBack, ← done]
  rename_i consumed
  have consumed : r.refunded = false := by simpa [Request.record] using consumed
  rw [if_neg (show ¬ r.record.preConsumed ≤ 0 from not_le.mpr (h.positive r member))] at run
  cases lowered : postConsumeUserSubscriptionDelta s.tables r.record.userSubscriptionId
      (-r.record.preConsumed) with
  | error message => simp [lowered, Except.map] at run
  | ok paid =>
  rw [lowered] at run
  cases run
  have recorded : (s.tables.markRefunded r.requestId).records =
      (Period.change r.requestId Request.givenBack s.requests).map Request.record := by
    simp only [Charges.markRefunded, h.records, Period.change, map_map]
    refine map_congr_left fun q _ => ?_
    by_cases own : q.requestId = r.requestId <;> simp [Request.record, Request.givenBack, own]
  have after := h.change Request.givenBack member (fun _ => ⟨rfl, rfl, rfl⟩) recorded
  rw [Request.givenBack_live consumed] at after
  have room := ok r member rfl consumed
  rw [postConsume_raises h.unique (fun row hrow own nonzero => ?_) (fun zero => ?_) lowered]
  · exact after
  · have room := room row hrow own
    have positive := h.positive r member
    show max (row.amountUsed + -r.preConsumed) 0 = _
    split at room <;> rename_i current
    · rw [if_pos current]
      omega
    · rw [if_neg current]
      omega
  · have positive := h.positive r member
    exact absurd zero (by show ¬ -r.preConsumed = 0; omega)

theorem Books.step_reset (h : Books s) {id now : Int}
    (hstep : step loc fuel s (.reset id now) = some t) : Books t := by
  simp only [step] at hstep
  split at hstep
  · cases hstep
    exact h
  rename_i sub found
  split at hstep
  · cases hstep
    exact h
  rename_i plan loaded
  have member := mem_of_find?_eq_some found
  cases run : maybeResetUserSubscriptionWithPlanTx loc fuel sub plan now with
  | none => simp [Charges.resetCandidate, run] at hstep
  | some row =>
    have tables := @resetCandidate_seen loc fuel now s.tables h.unique sub [] plan row member
      (by simp) loaded run
    rw [Charges.mapRows_unseen] at tables
    rw [tables] at hstep
    cases hstep
    exact h.reset (resetSeen_resetting loc fuel now s.tables [sub])

theorem Books.step {a : Action} (h : Books s) (ok : withinPeriod s a)
    (hstep : Period.step loc fuel s a = some t) : Books t := by
  cases a with
  | preConsume => exact h.step_preConsume ok hstep
  | settle => exact h.step_settle ok hstep
  | refund => exact h.step_refund ok hstep
  | reset => exact h.step_reset hstep

/-- While settlements and refunds come before the reset of their subscription, every used amount is
what the requests of the period add up to. -/
theorem used_by_period {tables : Charges} (unique : tables.ids.Nodup)
    (noRecords : tables.records = []) (unused : ∀ sub ∈ tables.subs, sub.amountUsed = 0)
    {as : List Action} {t : Ledger}
    (path : Run.Path withinPeriod (Period.step loc fuel) ⟨tables, []⟩ as t) :
    ∀ sub ∈ t.tables.subs, sub.amountUsed = live t.requests sub.id := by
  have start : Books ⟨tables, []⟩ := ⟨unique, noRecords, by simp, by simp, unused⟩
  exact (path.invariant (fun _ _ _ h ok hstep => h.step ok hstep) start).used

end

def daily : Charges where
  subs :=
    [{ id := 1, userId := 7, planId := 1, amountTotal := 100, amountUsed := 0
       startTime := 1706788800, endTime := 1709294400, status := .active
       lastResetTime := 1706788800, nextResetTime := 1706832000, upgradeGroup := ""
       prevUserGroup := "" }]
  plans id := if id = 1 then some { id := 1, quotaResetPeriod := "daily" } else none
  records := []

/-- A request of the first day is refunded on the second, where another has taken 30: nothing of
them is left in the used amount. -/
theorem new_period_refunded :
    ∃ t, Run.exec (step utc 3) ⟨daily, []⟩
        [.preConsume "r1" 7 60 1706800000, .reset 1 1706840000,
          .preConsume "r2" 7 30 1706850000, .refund "r1"] = some t ∧
      t.tables.amounts = [(1, 0)] ∧ live t.requests 1 = 30 := by
  refine ⟨_, rfl, ?_, ?_⟩ <;> decide +kernel

/-- A refund on the same day, and a settlement of the next one. -/
theorem used_by_period_same_day :
    ∃ t, Run.Path withinPeriod (step utc 3) ⟨daily, []⟩
        [.preConsume "r1" 7 60 1706800000, .refund "r1", .reset 1 1706840000,
          .preConsume "r2" 7 30 1706850000, .settle "r2" (-10)] t ∧
      (∀ sub ∈ t.tables.subs, sub.amountUsed = live t.requests sub.id) ∧
      t.tables.amounts = [(1, 20)] := by
  refine Run.Path.exists_and (.cons ?_ rfl (.cons ?_ rfl (.cons trivial rfl (.cons ?_ rfl
    (.cons ?_ rfl (.nil _)))))) fun path => ⟨used_by_period (by decide) rfl (by decide) path, ?_⟩
  on_goal 5 => decide +kernel
  all_goals
    simp only [withinPeriod]
    decide +kernel

end EastApi.Subscription.Period
