import EastApi.Subscription.ResetLoop

/-! Which subscription pays for a request.  `PreConsumeUserSubscription` looks at the active
subscriptions of the user in the order of their ends, resets and saves each one that it looks at,
and takes the amount from the first one that covers it. -/

namespace EastApi.Subscription

open Go List

def Charges.after (c : Charges) : Tx (Charges × PreConsumeResult) → Charges
  | some (.ok (c', _)) => c'
  | _ => c

def UserSubscription.covers (s : UserSubscription) (amount : Int) : Prop :=
  s.amountTotal ≤ 0 ∨ amount ≤ s.amountTotal - s.amountUsed

instance (s : UserSubscription) (amount : Int) : Decidable (s.covers amount) :=
  inferInstanceAs (Decidable (_ ∨ _))

def UserSubscription.within (s : UserSubscription) : Prop :=
  0 < s.amountTotal → 0 ≤ s.amountUsed ∧ s.amountUsed ≤ s.amountTotal

def Charges.loadable (c : Charges) : Prop :=
  ∀ s ∈ c.subs, ∃ plan, c.plan {} s.planId = .ok plan

section
variable {loc : Location} {fuel : Nat} {now : Int} {c : Charges}

variable (unique : c.ids.Nodup)
include unique

theorem resetCandidate_seen (hs : s ∈ c.subs) (unread : s ∉ seen)
    (loaded : c.plan {} s.planId = .ok plan)
    (run : maybeResetUserSubscriptionWithPlanTx loc fuel s plan now = some row) :
    (c.mapRows (c.resetSeen loc fuel now seen)).resetCandidate loc fuel {} s plan now =
      some (.ok (c.mapRows (c.resetSeen loc fuel now (seen ++ [s])),
        c.resetRow loc fuel now s)) := by
  rw [← saveReset_seen unique hs unread, Charges.resetRow_ok loaded run]
  simp only [Charges.resetCandidate, run]
  split <;> rfl

def Charges.charged (c : Charges) (loc : Location) (fuel : Nat) (now : Int) (requestId : String)
    (userId amount : Int) (seen : List UserSubscription) (s : UserSubscription) : Charges :=
  let row := c.resetRow loc fuel now s
  { c with
    subs := c.subs.map fun r =>
      if r = s then { row with amountUsed := row.amountUsed + amount }
      else c.resetSeen loc fuel now seen r
    records := c.records ++ [⟨requestId, userId, s.id, amount, .consumed⟩] }

variable (requestId : String) (userId amount : Int)

theorem consume_seen (hs : s ∈ c.subs) :
    (c.mapRows (c.resetSeen loc fuel now (seen ++ [s]))).consume {} requestId userId amount
        (c.resetRow loc fuel now s) =
      .ok (c.charged loc fuel now requestId userId amount seen s,
        let row := c.resetRow loc fuel now s
        ⟨s.id, amount, row.amountTotal, row.amountUsed, row.amountUsed + amount⟩) := by
  simp only [Charges.consume]
  rw [Charges.save_mapRows unique (fun r _ => resetSeen_id (seen ++ [s]) r) hs
    (show ({ c.resetRow loc fuel now s with
      amountUsed := (c.resetRow loc fuel now s).amountUsed + amount } : UserSubscription).id = s.id
      from resetRow_id s)]
  simp only [Except.ok.injEq, Prod.mk.injEq, and_true, Charges.charged, Charges.mapRows,
    Charges.mk.injEq, resetRow_id]
  refine map_congr_left fun r _ => ?_
  by_cases own : r = s
  · simp [own]
  · simp [Charges.resetSeen, own]

theorem consumeFirst_seen (hs : s ∈ c.subs) (unread : s ∉ seen)
    (loaded : c.plan {} s.planId = .ok plan)
    (run : maybeResetUserSubscriptionWithPlanTx loc fuel s plan now = some row)
    (rest : List UserSubscription) :
    consumeFirst loc fuel {} requestId userId amount now (s :: rest)
        (c.mapRows (c.resetSeen loc fuel now seen)) =
      if (c.resetRow loc fuel now s).covers amount then
        some (.ok (c.charged loc fuel now requestId userId amount seen s,
          let row := c.resetRow loc fuel now s
          ⟨s.id, amount, row.amountTotal, row.amountUsed, row.amountUsed + amount⟩))
      else consumeFirst loc fuel {} requestId userId amount now rest
        (c.mapRows (c.resetSeen loc fuel now (seen ++ [s]))) := by
  have here : (c.mapRows (c.resetSeen loc fuel now seen)).plan {} s.planId = .ok plan := loaded
  simp only [consumeFirst, here, resetCandidate_seen unique hs unread loaded run,
    consume_seen unique requestId userId amount hs]
  split
  next less =>
    rw [if_neg]
    unfold UserSubscription.covers
    omega
  next enough =>
    rw [if_pos]
    unfold UserSubscription.covers
    omega

/-- The rows before the one that pays do not cover the amount; without such a row the charge fails,
and so it does at a row without a plan or with a reset that does not end. -/
theorem consumeFirst_outcome (l : List UserSubscription) : ∀ seen : List UserSubscription,
    (seen ++ l).Nodup → (∀ s ∈ l, s ∈ c.subs) →
    ∃ out, consumeFirst loc fuel {} requestId userId amount now l
        (c.mapRows (c.resetSeen loc fuel now seen)) = out ∧
      ((∃ before s rest result, l = before ++ s :: rest ∧
          (∀ t ∈ before, ¬ (c.resetRow loc fuel now t).covers amount) ∧
          (c.resetRow loc fuel now s).covers amount ∧ out = some (.ok
            (c.charged loc fuel now requestId userId amount (seen ++ before) s, result)) ∧
          result.userSubscriptionId = s.id ∧ result.preConsumed = amount) ∨
        (∀ s ∈ l, ¬ (c.resetRow loc fuel now s).covers amount) ∧
          (∃ message, out = some (.error message)) ∨
        (∃ s ∈ l, ∀ plan, c.plan {} s.planId = .ok plan →
            maybeResetUserSubscriptionWithPlanTx loc fuel s plan now = none) ∧
          ∀ done, out ≠ some (.ok done)) := by
  induction l with
  | nil => exact fun _ _ _ => ⟨_, rfl, .inr (.inl ⟨by simp, _, rfl⟩)⟩
  | cons s rest ih =>
    intro seen distinct rows
    have unread : s ∉ seen := fun hs => (nodup_append.mp distinct).2.2 s hs s (by simp) rfl
    cases loaded : c.plan {} s.planId with
    | error message =>
      have here : (c.mapRows (c.resetSeen loc fuel now seen)).plan {} s.planId = .error message :=
        loaded
      exact ⟨_, rfl, .inr (.inr ⟨⟨s, by simp, by simp [loaded]⟩, by simp [consumeFirst, here]⟩)⟩
    | ok plan =>
      cases run : maybeResetUserSubscriptionWithPlanTx loc fuel s plan now with
      | none =>
        have here : (c.mapRows (c.resetSeen loc fuel now seen)).plan {} s.planId = .ok plan :=
          loaded
        exact ⟨_, rfl, .inr (.inr ⟨⟨s, by simp, by simp [loaded, run]⟩,
          by simp [consumeFirst, here, Charges.resetCandidate, run]⟩)⟩
      | some row =>
        rw [consumeFirst_seen unique requestId userId amount (rows s (by simp)) unread loaded run]
        split
        next covers =>
          refine ⟨_, rfl, .inl ⟨[], s, rest, _, rfl, by simp, covers, by rw [append_nil], ?_, ?_⟩⟩
          · rfl
          · rfl
        next short =>
          obtain ⟨out, run, first | ⟨shorts, fails⟩ | ⟨⟨t, ht, stuck⟩, fails⟩⟩ :=
            ih (seen ++ [s]) (by simpa using distinct) fun t ht => rows t (by simp [ht])
          · obtain ⟨before, t, later, result, rfl, shorts, covers, ok, paid⟩ := first
            exact ⟨out, run, .inl ⟨s :: before, t, later, result, rfl,
              by simpa [short] using shorts, covers, by simpa using ok, paid⟩⟩
          · exact ⟨out, run, .inr (.inl ⟨by simpa [short] using shorts, fails⟩)⟩
          · exact ⟨out, run, .inr (.inr ⟨⟨t, by simp [ht], stuck⟩, fails⟩)⟩

end

section
variable {loc : Location} {fuel : Nat} {now userId amount : Int} {c : Charges} {requestId : String}

theorem preConsume_charged (unique : c.ids.Nodup)
    (fresh : ∀ r ∈ c.records, r.requestId ≠ requestId)
    (h : preConsumeUserSubscription loc fuel {} c requestId userId amount now =
      some (.ok (c', result))) :
    0 < amount ∧ ∃ seen s, s ∈ c.subs ∧
      c' = c.charged loc fuel now requestId userId amount seen s ∧
      result.userSubscriptionId = s.id ∧ result.preConsumed = amount := by
  obtain ⟨positive, run⟩ := preConsume_first fresh h
  obtain ⟨out, eq, first⟩ := consumeFirst_outcome unique requestId userId amount
    (c.candidates userId now) [] (candidates_distinct unique).of_map
    fun s hs => (mem_candidates.mp hs).1
  rw [c.mapRows_unseen, run] at eq
  subst eq
  obtain ⟨before, s, rest, _, split, -, -, ok, paid⟩ | ⟨-, message, fails⟩ | ⟨-, fails⟩ := first
  · have row : s ∈ c.candidates userId now := by simp [split]
    cases ok
    exact ⟨positive, before, s, (mem_candidates.mp row).1, rfl, paid⟩
  · cases fails
  · exact absurd rfl (fails _)

theorem candidates_sorted : (c.candidates userId now).Pairwise fun a b => ¬ b.endsBefore a := by
  have total : Std.Total fun a b : UserSubscription => ¬ b.endsBefore a :=
    ⟨fun a b => by unfold UserSubscription.endsBefore; omega⟩
  have trans : IsTrans UserSubscription fun a b => ¬ b.endsBefore a :=
    ⟨fun a b d => by unfold UserSubscription.endsBefore; omega⟩
  exact pairwise_insertionSort _ _

theorem mem_before_iff (unique : c.ids.Nodup)
    (split : c.candidates userId now = before ++ s :: rest) (r : UserSubscription) :
    r ∈ before ↔ r ∈ (c.candidates userId now).filter (·.endsBefore s) := by
  have sorted : (before ++ s :: rest).Pairwise fun a b => ¬ b.endsBefore a :=
    split ▸ candidates_sorted
  have distinct : ((before ++ s :: rest).map fun t => t.id).Nodup :=
    split ▸ candidates_distinct unique
  obtain ⟨-, behind, across⟩ := pairwise_append.mp sorted
  rw [mem_filter, split, decide_eq_true_eq]
  constructor
  · intro hr
    refine ⟨by simp [hr], ?_⟩
    have order := across r hr s (by simp)
    have other : r.id ≠ s.id := by
      rw [map_append, map_cons] at distinct
      exact (nodup_append.mp distinct).2.2 _ (mem_map_of_mem hr) _ (by simp)
    unfold UserSubscription.endsBefore at order ⊢
    omega
  · rintro ⟨hr, earlier⟩
    rcases mem_append.mp hr with before | behindOrSelf
    · exact before
    rcases mem_cons.mp behindOrSelf with rfl | later
    · unfold UserSubscription.endsBefore at earlier
      omega
    · exact absurd earlier ((pairwise_cons.mp behind).1 r later)

theorem resetRow_within (within : s.within) : (c.resetRow loc fuel now s).within := by
  obtain ⟨used, last, next, amount, eq⟩ := @resetRow_eq loc fuel now c s
  rw [eq]
  intro limited
  have bounds := within limited
  rcases amount with same | zero
  · rw [same]
    exact bounds
  · rw [zero]
    exact ⟨le_rfl, limited.le⟩

theorem charged_within (positive : 0 < amount) (hs : s ∈ c.subs)
    (covers : (c.resetRow loc fuel now s).covers amount) (within : ∀ r ∈ c.subs, r.within)
    (seen : List UserSubscription) :
    ∀ r ∈ (c.charged loc fuel now requestId userId amount seen s).subs, r.within := by
  intro row hrow
  obtain ⟨r, hr, rfl⟩ := mem_map.mp hrow
  split
  · intro limited
    have bounds := resetRow_within (within s hs) limited
    unfold UserSubscription.covers at covers
    simp only at limited ⊢
    omega
  unfold Charges.resetSeen
  split
  · exact resetRow_within (within r hr)
  · exact within r hr

def Charges.canPay (c : Charges) (loc : Location) (fuel : Nat) (now userId amount : Int)
    (s : UserSubscription) : Prop :=
  (s ∈ c.subs ∧ s.userId = userId ∧ s.status = .active ∧ now < s.endTime) ∧
    (c.resetRow loc fuel now s).covers amount

def Charges.PaidByFirst (c : Charges) (loc : Location) (fuel : Nat) (now : Int)
    (requestId : String) (userId amount : Int) (c' : Charges) : Prop :=
  ∃ s, c.canPay loc fuel now userId amount s ∧
    (∀ t, c.canPay loc fuel now userId amount t → t = s ∨ s.endsBefore t) ∧
    c' = c.charged loc fuel now requestId userId amount
      ((c.candidates userId now).filter (·.endsBefore s)) s

variable (unique : c.ids.Nodup) (loads : c.loadable) (resets : c.resets loc fuel now)
  (user : 0 < userId)
  (named : trimSpace requestId ≠ "") (fresh : ∀ r ∈ c.records, r.requestId ≠ requestId)
  (positive : 0 < amount)
include unique loads resets user named fresh positive

theorem preConsume_outcome :
    (∃ c' result, preConsumeUserSubscription loc fuel {} c requestId userId amount now =
      some (.ok (c', result)) ∧ c.PaidByFirst loc fuel now requestId userId amount c') ∨
    (¬ ∃ s, c.canPay loc fuel now userId amount s) ∧ ∃ message,
      preConsumeUserSubscription loc fuel {} c requestId userId amount now =
        some (.error message) := by
  obtain ⟨out, run, first⟩ := consumeFirst_outcome unique requestId userId amount
    (c.candidates userId now) [] (candidates_distinct unique).of_map
    fun s hs => (mem_candidates.mp hs).1
  rw [c.mapRows_unseen] at run
  simp only [preConsumeUserSubscription, find_fresh fresh, if_neg (show ¬ userId ≤ 0 by omega),
    if_neg named, if_neg (show ¬ amount ≤ 0 by omega)]
  obtain ⟨before, s, rest, result, split, short, covers, rfl, -⟩ | ⟨short, message, rfl⟩ |
    ⟨⟨s, hs, stuck⟩, -⟩ := first
  · have rows : s ∈ c.candidates userId now := by simp [split]
    refine .inl ⟨_, result, by simp [run, ne_nil_of_mem rows]; rfl, s,
      ⟨mem_candidates.mp rows, covers⟩, ?_,
      by simp only [Charges.charged, Charges.resetSeen, mem_before_iff unique split]⟩
    rintro t ⟨ht, pays⟩
    have order : ¬ t.endsBefore s := fun earlier => short t ((mem_before_iff unique split t).mpr
      (mem_filter.mpr ⟨mem_candidates.mpr ht, by simpa⟩)) pays
    by_cases same : t.id = s.id
    · exact .inl (c.eq_of_id unique ht.1 (mem_candidates.mp rows).1 same)
    · refine .inr ?_
      unfold UserSubscription.endsBefore at order ⊢
      omega
  · refine .inr ⟨?_, ?_⟩
    · rintro ⟨s, member, covers⟩
      exact short s (mem_candidates.mpr member) covers
    split
    · exact ⟨_, rfl⟩
    · exact ⟨_, by rw [run]⟩
  · have hs := (mem_candidates.mp hs).1
    obtain ⟨plan, loaded⟩ := loads s hs
    have := stuck plan loaded
    rw [resets s hs plan loaded] at this
    contradiction

end

def twoSubscriptions : Charges where
  subs :=
    [{ id := 1, userId := 7, planId := 1, amountTotal := 100, amountUsed := 60
       startTime := 1706659200, endTime := 1709164800, status := .active
       lastResetTime := 0, nextResetTime := 0, upgradeGroup := "", prevUserGroup := "" },
     { id := 2, userId := 7, planId := 2, amountTotal := 0, amountUsed := 5
       startTime := 1706659200, endTime := 1738281600, status := .active
       lastResetTime := 0, nextResetTime := 0, upgradeGroup := "", prevUserGroup := "" }]
  plans id := if id = 1 then some { id := 1 }
    else some { id := 2, quotaResetPeriod := "daily" }
  records := []

def beforeSkipped : Charges where
  subs := [⟨1, 7, 1, 100, 0, 1541250000, 1572786000, .active, 0, 1541296800, "", ""⟩]
  plans _ := some { id := 1, quotaResetPeriod := "daily" }
  records := []

end EastApi.Subscription
