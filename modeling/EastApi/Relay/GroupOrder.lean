import EastApi.Relay.AutoGroup

/-! The order in which a request that always fails visits the auto groups.  The loop leaves a group
after `RetryTimes + 1` attempts instead, and a retry number beyond the priorities of the group
stands for its last one. -/

namespace EastApi.Relay

open Channels Levels List Option Nat

def groupPriorities (cfg : Config) (cache : Cache) (model group : String) : List Int :=
  descending (((cache.candidates cfg.channels group model).filterMap cache.channelsIDM).map
    (·.getPriority))

def visits (attempts : List Loop) : List (Option String × Option Int) :=
  attempts.map fun t => (t.context.autoGroup, t.context.channel.map (·.getPriority))

/-- The order of the comment: the groups one after the other, each with its priorities from the
highest to the lowest. -/
def documentedOrder (cfg : Config) (cache : Cache) (model : String) (groups : List String) :
    List (Option String × Option Int) :=
  groups.flatMap fun g => (groupPriorities cfg cache model g).map fun p => (some g, some p)

/-- A request for which `Distribute` selects the channel itself, with a token of the group `auto`
and cross-group retry. -/
structure Distribution.Plain (d : Distribution) : Prop where
  auto : d.usingGroup = "auto"
  cross : d.crossGroupRetry = true
  specific : d.specific = none
  preferred : d.preferred = none
  model : d.modelName ≠ ""
  fair : Fair d.intn

/-- A pass that meets the cache of the request and fails with an error that is retried. -/
structure Attempt.Fails (cfg : Config) (d : Distribution) (a : Attempt) : Prop where
  cache : a.cache = d.cache
  fair : Fair a.intn
  key : a.keyError = none
  body : a.bodyError = none
  answer : ∃ e, a.answer = some e ∧
    shouldRetry cfg d.context (some (normalizeViolationFeeError e)) 1 = true

theorem lookup_eq {env : Channels.Env} {retry : ℕ}
    (h : getRandomSatisfiedChannel env cache group model retry intn = some x) :
    lookup env cache intn model group retry = x := by
  simp only [lookup, h, get_some]

theorem exists_lookup {cfg : Config} {cs : List Channel}
    (serves : Serves cfg.channels cache group model cs) (nonempty : cs ≠ []) (fair : Fair intn)
    (retry : ℕ) :
    ∃ channel, lookup cfg.channels cache intn model group retry = .ok (some channel) ∧
      level (cs.map (·.getPriority)) retry = some channel.getPriority := by
  obtain ⟨channel, target, -, served⟩ := getRandomSatisfiedChannel_served serves nonempty retry fair
  exact ⟨channel, lookup_eq served, (mem_targets.mp target).2⟩

theorem shouldRetry_congr (skip : c.affinitySkipRetry = c'.affinitySkipRetry)
    (specific : c.specificChannelId = c'.specificChannelId) (hn : 0 < n) (hm : 0 < m) :
    shouldRetry cfg c e n = shouldRetry cfg c' e m := by
  cases e with
  | none => rfl
  | some e =>
    unfold shouldRetry
    dsimp only
    rw [skip, specific, if_neg (show ¬ n ≤ 0 by omega), if_neg (show ¬ m ≤ 0 by omega)]

def groupPlan (retryTimes : ℕ) (groups : List String) : List (String × ℕ) :=
  groups.flatMap fun g => (range' 0 (retryTimes + 1)).map (g, ·)

def planFrom (retryTimes : ℕ) (groups : List String) (i r : ℕ) : List (String × ℕ) :=
  match groups.drop i with
  | [] => []
  | g :: rest => (range' r (retryTimes + 1 - r)).map (g, ·) ++ groupPlan retryTimes rest

theorem planFrom_zero (retryTimes : ℕ) (groups : List String) (i : ℕ) :
    planFrom retryTimes groups i 0 = groupPlan retryTimes (groups.drop i) := by
  unfold planFrom
  split
  next none =>
    rw [none]
    rfl
  next g rest some_group =>
    rw [some_group]
    rfl

theorem planFrom_cons {retryTimes : ℕ} (inside : r ≤ retryTimes)
    (h : planFrom retryTimes groups i r = b :: rest) :
    groups[i]? = some b.1 ∧ b.2 = r ∧
      rest = if r < retryTimes then planFrom retryTimes groups i (r + 1)
        else planFrom retryTimes groups (i + 1) 0 := by
  unfold planFrom at h
  split at h
  · cases h
  next g later some_group =>
    have here : groups[i]? = some g := by
      rw [← add_zero i, ← getElem?_drop, some_group]
      rfl
    have tail : groups.drop (i + 1) = later := by
      rw [← drop_drop, some_group]
      rfl
    rw [show retryTimes + 1 - r = retryTimes - r + 1 by omega, range'_succ, map_cons,
      cons_append] at h
    cases h
    refine ⟨here, rfl, ?_⟩
    split
    · unfold planFrom
      rw [some_group, show retryTimes + 1 - (r + 1) = retryTimes - r by omega]
    · rw [planFrom_zero, tail, show retryTimes - r = 0 by omega]
      rfl

structure Standing (d : Distribution) (i r : ℕ) (s : Loop) : Prop where
  crossing : Crossing d.userGroup s
  later : s.channelMeta = true
  model : s.param.modelName = d.modelName
  skip : s.context.affinitySkipRetry = d.context.affinitySkipRetry
  specific : s.context.specificChannelId = d.context.specificChannelId
  index : s.index = i
  retry : s.param.getRetry = r

def Visited (cfg : Config) (d : Distribution) (t : Loop) (b : String × ℕ) : Prop :=
  t.context.autoGroup = some b.1 ∧ ∃ channel, t.context.channel = some channel ∧
    level (((d.cache.candidates cfg.channels b.1 d.modelName).filterMap d.cache.channelsIDM).map
      (·.getPriority)) b.2 = some channel.getPriority

def Distribution.Stocked (cfg : Config) (d : Distribution) : Prop :=
  ∀ g ∈ getUserAutoGroup cfg d.userGroup,
    ∃ cs, cs ≠ [] ∧ Serves cfg.channels d.cache g d.modelName cs

section
variable {cfg : Config} {d : Distribution} {a : Attempt} {s : Loop} {i r : ℕ}

theorem Standing.retryAt_zero (h : Standing d i r s) : s.retryAt 0 = r := by
  rw [Loop.retryAt, if_pos rfl, h.retry]

variable {g : String}

theorem Standing.selects (h : Standing d i r s) (stocked : d.Stocked cfg) (fails : a.Fails cfg d)
    (listed : (getUserAutoGroup cfg d.userGroup)[i]? = some g) :
    ∃ u channel, getChannel cfg a s = (none, u) ∧ Selects cfg a s u 0 g channel ∧
      level (((d.cache.candidates cfg.channels g d.modelName).filterMap
        d.cache.channelsIDM).map (·.getPriority)) r = some channel.getPriority := by
  obtain ⟨cs, nonempty, serves⟩ := stocked g (mem_of_getElem? listed)
  have listed' : (getUserAutoGroup cfg s.context.userGroup)[s.index + 0]? = some g := by
    rw [h.crossing.user, h.index]
    exact listed
  obtain ⟨channel, hit, prio⟩ := exists_lookup serves nonempty fails.fair r
  rw [← fails.cache, ← h.model, ← h.retryAt_zero] at hit
  obtain ⟨u, got⟩ := exists_getChannel h.later h.crossing.auto fails.key listed' hit
  obtain ⟨k, group, ch, sel⟩ := getChannel_selects h.later h.crossing.auto got
  obtain rfl : k = 0 := by
    by_contra further
    exact sel.before 0 g (by omega) listed' channel hit
  obtain rfl : g = group := some.inj (listed'.symm.trans sel.listed)
  obtain rfl : channel = ch := by simpa using hit.symm.trans sel.hit
  exact ⟨u, channel, got, sel, by rwa [serves.channels]⟩

theorem Standing.visit (h : Standing d i r s) (stocked : d.Stocked cfg) (fails : a.Fails cfg d)
    (inside : r ≤ cfg.retryTimes) (some_retry : 0 < cfg.retryTimes)
    (listed : (getUserAutoGroup cfg d.userGroup)[i]? = some g) :
    ∃ t, pass cfg a s = .again t ∧ Visited cfg d t (g, r) ∧
      if r < cfg.retryTimes then Standing d i (r + 1) t.next else Standing d (i + 1) 0 t.next := by
  obtain ⟨u, channel, got, sel, prio⟩ := h.selects stocked fails listed
  obtain ⟨e, answer, retried⟩ := fails.answer
  have exhausts : s.Exhausts cfg 0 ↔ ¬ r < cfg.retryTimes := by
    rw [Loop.Exhausts, h.retryAt_zero, h.crossing.cross]
    simp
  have positive : (0 : Int) < cfg.retryTimes - u.param.getRetry := by
    rw [sel.param_eq]
    split
    · simpa [RetryParam.setRetry, RetryParam.resetRetryNextTry, RetryParam.getRetry]
        using some_retry
    next remaining =>
      rw [exhausts, not_not] at remaining
      rw [if_pos rfl, h.retry]
      omega
  have context : u.context = { s.context with
      autoGroup := some g
      autoGroupIndex := u.context.autoGroupIndex
      channel := some channel } := by
    rw [sel.state]
  have turn : pass cfg a s = .again u.attempted := by
    refine pass_again got fails.body answer ?_
    rw [← retried]
    refine shouldRetry_congr ?_ ?_ positive (by decide)
    · rw [context]
      exact h.skip
    · rw [context]
      exact h.specific
  have crossing := (h.crossing.again (h.retry ▸ inside) turn).1
  have next := sel.next h.crossing.ready
  have standing : ∀ i' r', u.attempted.next.index = i' → u.attempted.next.param.getRetry = r' →
      Standing d i' r' u.attempted.next := by
    intro i' r' index retry
    refine ⟨crossing, rfl, ?_, ?_, ?_, index, retry⟩
    · simpa [Loop.attempted, sel.keeps.2] using h.model
    · exact (congrArg Context.affinitySkipRetry context).trans h.skip
    · exact (congrArg Context.specificChannelId context).trans h.specific
  refine ⟨u.attempted, turn, ⟨congrArg Context.autoGroup context, channel,
    congrArg Context.channel context, prio⟩, ?_⟩
  split
  next more =>
    rw [if_neg (fun full => exhausts.mp full more), h.index, h.retryAt_zero] at next
    exact standing _ _ next.1 next.2
  next full =>
    rw [if_pos (exhausts.mpr full), h.index] at next
    exact standing _ _ next.1 next.2

variable {world : List Attempt}

theorem Standing.run (h : Standing d i r s) (stocked : d.Stocked cfg)
    (inside : r ≤ cfg.retryTimes) (some_retry : 0 < cfg.retryTimes)
    (fails : ∀ a ∈ world, a.Fails cfg d)
    (long : (planFrom cfg.retryTimes (getUserAutoGroup cfg d.userGroup) i r).length <
      world.length) :
    List.Forall₂ (Visited cfg d) (relay cfg world s).attempts
      (planFrom cfg.retryTimes (getUserAutoGroup cfg d.userGroup) i r) := by
  refine (Retrying.run_eq Loop.next (P := fun plan s => ∃ i r, Standing d i r s ∧
    r ≤ cfg.retryTimes ∧ plan = planFrom cfg.retryTimes (getUserAutoGroup cfg d.userGroup) i r)
    ?_ ?_ fails long ⟨i, r, h, inside, rfl⟩).1
  · rintro a s ⟨g, r'⟩ plan fails ⟨i, r, h, inside, first⟩
    obtain ⟨listed, rfl, rest⟩ := planFrom_cons inside first.symm
    obtain ⟨t, turn, visited, next⟩ := h.visit stocked fails inside some_retry listed
    refine ⟨decide_eq_true (h.retry ▸ inside), t, turn, visited, ?_⟩
    split at next
    next more =>
      rw [if_pos more] at rest
      exact ⟨i, r' + 1, next, more, rest⟩
    next full =>
      rw [if_neg full] at rest
      exact ⟨i + 1, 0, next, zero_le _, rest⟩
  · rintro a s fails ⟨i, r, h, inside, empty⟩ -
    have behind : (getUserAutoGroup cfg d.userGroup).length ≤ i := by
      rw [← drop_eq_nil_iff]
      by_contra some_group
      obtain ⟨g, rest, split⟩ := exists_cons_of_ne_nil some_group
      rw [planFrom, split, show cfg.retryTimes + 1 - r = cfg.retryTimes - r + 1 by omega] at empty
      cases empty
    refine pass_stop (fun t got => ?_)
    obtain ⟨k, group, channel, sel⟩ := getChannel_selects h.later h.crossing.auto got
    have listed := sel.listed
    rw [h.crossing.user, h.index, getElem?_eq_none (by omega)] at listed
    cases listed

variable {rest : List String}

theorem distribute_plain (plain : d.Plain) (stocked : d.Stocked cfg)
    (groups : getUserAutoGroup cfg d.userGroup = g :: rest) :
    ∃ channel, level (((d.cache.candidates cfg.channels g d.modelName).filterMap
        d.cache.channelsIDM).map (·.getPriority)) 0 = some channel.getPriority ∧
      distribute cfg d = some { d.context with
        autoGroup := some g
        autoGroupIndex := some (if cfg.retryTimes = 0 then 1 else 0)
        channel := some channel } := by
  obtain ⟨cs, nonempty, serves⟩ := stocked g (groups ▸ mem_cons_self)
  obtain ⟨channel, hit, prio⟩ := exists_lookup serves nonempty plain.fair 0
  have listed : (getUserAutoGroup cfg d.userGroup)[0]? = some g := by rw [groups]; rfl
  have normal : distribute cfg d = d.select cfg := by
    rw [distribute, plain.specific, plain.preferred]
    exact if_neg plain.model
  cases selected : d.select cfg with
  | none => exact absurd hit (select_none plain.auto selected listed channel)
  | some c =>
    obtain ⟨k, group, ch, there, found, before, rfl⟩ := select_found plain.auto selected
    obtain rfl : k = 0 := by
      by_contra further
      exact before 0 g (by omega) listed channel hit
    obtain rfl : g = group := some.inj (listed.symm.trans there)
    obtain rfl : channel = ch := by simpa using hit.symm.trans found
    refine ⟨channel, by rwa [serves.channels], ?_⟩
    rw [normal, selected, plain.cross]
    simp

variable {t : Loop}

theorem relay_again (within : s.param.getRetry ≤ cfg.retryTimes) (turn : pass cfg a s = .again t) :
    (relay cfg (a :: world) s).attempts = t :: (relay cfg world t.next).attempts := by
  simp [relay, Retrying.run, within, turn]

theorem relay_last (within : s.param.getRetry ≤ cfg.retryTimes) (turn : pass cfg a s = .last t) :
    (relay cfg (a :: world) s).attempts = [t] := by
  simp [relay, Retrying.run, within, turn]

theorem relay_beyond (beyond : cfg.retryTimes < s.param.getRetry) :
    (relay cfg world s).attempts = [] := by
  cases world with
  | nil => rfl
  | cons a world => simp [relay, Retrying.run, not_le.mpr beyond]

def Distribution.entered (cfg : Config) (d : Distribution) (userId : Int) (c : Context) : Loop :=
  enter cfg c d.usingGroup (genRelayInfo c userId d.modelName)

theorem serve_eq (distributed : distribute cfg d = some c) (userId : Int) (world : List Attempt) :
    serve cfg d userId world = (relay cfg world (d.entered cfg userId c)).attempts := by
  rw [serve, distributed]
  rfl

structure Entered (d : Distribution) (c : Context) (s : Loop) : Prop where
  context : s.context = c
  fresh : s.channelMeta = false
  retry : s.param.getRetry = 0
  ready : s.param.resetNextTry = false
  group : s.param.tokenGroup = d.usingGroup
  model : s.param.modelName = d.modelName

variable (cfg d) in
theorem entered_spec (userId : Int) (c : Context) : Entered d c (d.entered cfg userId c) := by
  refine ⟨rfl, rfl, rfl, rfl, rfl, ?_⟩
  unfold Distribution.entered enter AsyncTask.Submit.handleGroupRatio
  dsimp only
  split <;> rfl

theorem serve_plan (plain : d.Plain) (stocked : d.Stocked cfg) (some_retry : 0 < cfg.retryTimes)
    (userId : Int) (fails : ∀ a ∈ world, a.Fails cfg d)
    (long : (groupPlan cfg.retryTimes (getUserAutoGroup cfg d.userGroup)).length < world.length)
    (groups : getUserAutoGroup cfg d.userGroup = g :: rest) :
    List.Forall₂ (Visited cfg d) (serve cfg d userId world)
      (groupPlan cfg.retryTimes (getUserAutoGroup cfg d.userGroup)) := by
  obtain ⟨channel, prio, distributed⟩ := distribute_plain plain stocked groups
  rw [serve_eq distributed, if_neg (by omega)]
  obtain ⟨context, fresh, zero, ready, auto, model⟩ := entered_spec cfg d userId
    { d.context with autoGroup := some g, autoGroupIndex := some 0, channel := some channel }
  generalize d.entered cfg userId _ = s at *
  have crossing : Crossing d.userGroup s :=
    ⟨by rw [context]; rfl, auto.trans plain.auto, by rw [context]; exact plain.cross, ready,
      fun _ => zero⟩
  cases world with
  | nil => exact absurd long (not_lt_zero _)
  | cons a world =>
    have failing := fails a mem_cons_self
    obtain ⟨e, answer, retried⟩ := failing.answer
    have turn : pass cfg a s = .again s.attempted := by
      refine pass_again (getChannel_first fresh) failing.body answer ?_
      rw [← retried]
      refine shouldRetry_congr ?_ ?_ (by rw [zero]; omega) (by decide)
      · rw [context]
      · rw [context]
    have plan : groupPlan cfg.retryTimes (getUserAutoGroup cfg d.userGroup) =
        (g, 0) :: planFrom cfg.retryTimes (getUserAutoGroup cfg d.userGroup) 0 1 := by
      rw [groups]
      rfl
    have standing : Standing d 0 1 s.attempted.next := by
      refine ⟨(crossing.again (by omega) turn).1, rfl, ?_, ?_, ?_, ?_, ?_⟩
      · simpa [Loop.attempted] using model
      · exact (congrArg Context.affinitySkipRetry context).trans rfl
      · exact (congrArg Context.specificChannelId context).trans rfl
      · exact congrArg (fun c => c.autoGroupIndex.getD 0) context
      · have := s.param.getRetry_increaseRetry ready
        rwa [zero] at this
    rw [relay_again (by omega) turn, plan]
    refine .cons ⟨congrArg Context.autoGroup context, channel, congrArg Context.channel context,
      prio⟩ (standing.run stocked some_retry some_retry
        (fun b hb => fails b (mem_cons_of_mem a hb)) ?_)
    rw [plan, length_cons, length_cons] at long
    omega

theorem serve_single (plain : d.Plain) (stocked : d.Stocked cfg) (no_retry : cfg.retryTimes = 0)
    (userId : Int) (fails : ∀ a ∈ world, a.Fails cfg d) (long : 0 < world.length)
    (groups : getUserAutoGroup cfg d.userGroup = g :: rest) :
    List.Forall₂ (Visited cfg d) (serve cfg d userId world) [(g, 0)] := by
  obtain ⟨channel, prio, distributed⟩ := distribute_plain plain stocked groups
  rw [serve_eq distributed, if_pos no_retry]
  obtain ⟨context, fresh, zero, ready, -, -⟩ := entered_spec cfg d userId
    { d.context with autoGroup := some g, autoGroupIndex := some 1, channel := some channel }
  generalize d.entered cfg userId _ = s at *
  have visited : Visited cfg d s.attempted (g, 0) :=
    ⟨congrArg Context.autoGroup context, channel, congrArg Context.channel context, prio⟩
  cases world with
  | nil => exact absurd long (not_lt_zero _)
  | cons a world =>
    have failing := fails a mem_cons_self
    obtain ⟨e, answer, -⟩ := failing.answer
    by_cases retried : shouldRetry cfg s.context (some (normalizeViolationFeeError e))
        (cfg.retryTimes - s.param.getRetry) = true
    · have turn := pass_again (getChannel_first fresh) failing.body answer retried
      have beyond : cfg.retryTimes < s.attempted.next.param.getRetry := by
        have := s.param.getRetry_increaseRetry ready
        rw [no_retry]
        exact this ▸ succ_pos _
      rw [relay_again (by omega) turn, relay_beyond beyond]
      exact .cons visited .nil
    · have turn : pass cfg a s = .last s.attempted := by
        simp [pass, getChannel_first fresh, failing.body, answer, retried, Loop.attempted]
      rw [relay_last (by omega) turn]
      exact .cons visited .nil

theorem groupPlan_length (retryTimes : ℕ) (groups : List String) :
    (groupPlan retryTimes groups).length = (retryTimes + 1) * groups.length := by
  induction groups with
  | nil => rfl
  | cons g rest ih =>
    have split : groupPlan retryTimes (g :: rest) =
        (range' 0 (retryTimes + 1)).map (g, ·) ++ groupPlan retryTimes rest := rfl
    rw [split, length_append, ih, length_map, length_range', length_cons]
    ring

theorem visits_eq {attempts : List Loop}
    (h : List.Forall₂ (Visited cfg d) attempts plan) :
    visits attempts = plan.map fun b => (some b.1, level (((d.cache.candidates cfg.channels b.1
      d.modelName).filterMap d.cache.channelsIDM).map (·.getPriority)) b.2) := by
  induction h with
  | nil => rfl
  | cons made _ ih =>
    obtain ⟨group, channel, chosen, prio⟩ := made
    rw [visits, map_cons, ← visits, ih, map_cons, group, chosen, map_some, prio]

theorem single_group_order
    (all : (groupPriorities cfg d.cache d.modelName g).length = cfg.retryTimes + 1) :
    (groupPlan cfg.retryTimes [g]).map (fun b => (some b.1, level (((d.cache.candidates
        cfg.channels b.1 d.modelName).filterMap d.cache.channelsIDM).map (·.getPriority)) b.2)) =
      documentedOrder cfg d.cache d.modelName [g] := by
  have left : groupPlan cfg.retryTimes [g] =
      (range' 0 (cfg.retryTimes + 1)).map (g, ·) := append_nil _
  have right : documentedOrder cfg d.cache d.modelName [g] =
      (groupPriorities cfg d.cache d.modelName g).map fun p => (some g, some p) :=
    append_nil _
  rw [left, right, List.map_map]
  refine ext_getElem (by simp [all]) fun j inside inside' => ?_
  rw [length_map, all] at inside'
  have clamp : min j ((groupPriorities cfg d.cache d.modelName g).length - 1) = j := by omega
  have here : j < (groupPriorities cfg d.cache d.modelName g).length := by omega
  simp only [getElem_map, getElem_range', Function.comp_apply, zero_add, one_mul]
  rw [level, ← groupPriorities, clamp, getElem?_eq_getElem here]

end

/-- Auto groups that all have channels for the model, at least as many attempts as they have
priorities, an unchanged cache and only errors that are retried: the groups are visited in the
documented order exactly if there is no group, or a single one with as many priorities as
attempts. -/
theorem documented_order_iff (cfg : Config) {d : Distribution} (plain : d.Plain)
    (stocked : d.Stocked cfg)
    (enough : ((getUserAutoGroup cfg d.userGroup).map fun g =>
      (groupPriorities cfg d.cache d.modelName g).length).sum ≤ cfg.retryTimes + 1)
    (userId : Int) {world : List Attempt} (fails : ∀ a ∈ world, a.Fails cfg d)
    (long : (cfg.retryTimes + 1) * (getUserAutoGroup cfg d.userGroup).length < world.length) :
    visits (serve cfg d userId world) =
        documentedOrder cfg d.cache d.modelName (getUserAutoGroup cfg d.userGroup) ↔
      getUserAutoGroup cfg d.userGroup = [] ∨ ∃ g, getUserAutoGroup cfg d.userGroup = [g] ∧
        (groupPriorities cfg d.cache d.modelName g).length = cfg.retryTimes + 1 := by
  have positive : ∀ g ∈ getUserAutoGroup cfg d.userGroup,
      0 < (groupPriorities cfg d.cache d.modelName g).length := by
    intro g hg
    obtain ⟨cs, nonempty, serves⟩ := stocked g hg
    rw [groupPriorities, serves.channels]
    exact length_descending_pos (by simpa using nonempty)
  cases groups : getUserAutoGroup cfg d.userGroup with
  | nil =>
    have aborted : d.select cfg = none := by
      by_contra some_context
      obtain ⟨c, selected⟩ := ne_none_iff_exists'.mp some_context
      obtain ⟨k, group, channel, listed, -⟩ := select_found plain.auto selected
      rw [groups] at listed
      simp at listed
    have normal : distribute cfg d = none := by
      rw [distribute, plain.specific, plain.preferred, ← aborted]
      exact if_neg plain.model
    refine iff_of_true ?_ (.inl rfl)
    rw [serve, normal]
    rfl
  | cons g rest =>
    rw [groups, map_cons, sum_cons] at enough
    have first := positive g (groups ▸ mem_cons_self)
    have others : rest.length ≤
        (rest.map fun g => (groupPriorities cfg d.cache d.modelName g).length).sum := by
      rw [← length_map]
      refine length_le_sum_of_one_le _ fun n hn => ?_
      obtain ⟨g', hg', rfl⟩ := mem_map.mp hn
      exact positive g' (groups ▸ mem_cons_of_mem g hg')
    have plan : List.Forall₂ (Visited cfg d) (serve cfg d userId world)
        (groupPlan cfg.retryTimes (g :: rest)) := by
      by_cases no_retry : cfg.retryTimes = 0
      · -- a single attempt is enough only if there is one group with one priority
        have alone : rest = [] := length_eq_zero_iff.mp (by omega)
        rw [no_retry, alone]
        exact serve_single plain stocked no_retry userId fails (by omega) groups
      · rw [← groups]
        exact serve_plan plain stocked (by omega) userId fails (by rwa [groupPlan_length]) groups
    rw [visits_eq plan]
    constructor
    · intro same
      have lengths := congrArg length same
      simp only [length_map, groupPlan_length, documentedOrder, length_flatMap, map_cons, sum_cons,
        length_cons] at lengths
      have alone : rest = [] := by
        by_contra some_group
        have := length_pos_iff.mpr some_group
        have := Nat.le_mul_of_pos_right (cfg.retryTimes + 1) this
        rw [Nat.mul_add, Nat.mul_one] at lengths
        omega
      subst alone
      refine .inr ⟨g, rfl, ?_⟩
      simpa using lengths.symm
    · rintro (none | ⟨g', only, all⟩)
      · cases none
      · cases only
        exact single_group_order all

def prioritized (id priority : Int) : Channel where
  id := id
  status := .enabled
  models := "gpt-4"
  group := "a,b"
  priority := some priority

def twoPriorities : Cache := pairCache (prioritized 1 10) (prioritized 2 0)

def exampleRequest : Distribution where
  userGroup := "default"
  usingGroup := "auto"
  crossGroupRetry := true
  modelName := "gpt-4"
  cache := twoPriorities
  intn := fun _ => 0

def exampleFailure : Attempt where
  cache := twoPriorities
  intn := fun _ => 0
  answer := some { errorCode := "bad_response_status_code", statusCode := 500 }

theorem fair_zero : Fair fun _ => 0 := fun _ positive => ⟨le_rfl, positive⟩

theorem exampleRequest_plain : exampleRequest.Plain :=
  ⟨rfl, rfl, rfl, rfl, by decide, fair_zero⟩

theorem exampleRequest_stocked (retryTimes : ℕ) (groups : List String) :
    exampleRequest.Stocked (exampleConfig retryTimes groups) :=
  fun g _ => ⟨[prioritized 1 10, prioritized 2 0], by simp,
    pairCache_serves plainEnv (prioritized 1 10) (prioritized 2 0) g "gpt-4"⟩

theorem exampleFailure_fails (retryTimes n : ℕ) (groups : List String) :
    ∀ a ∈ replicate n exampleFailure,
      a.Fails (exampleConfig retryTimes groups) exampleRequest := by
  intro a ha
  obtain rfl := eq_of_mem_replicate ha
  exact ⟨rfl, fair_zero, rfl, rfl, _, rfl, rfl⟩

theorem example_priorities (retryTimes : ℕ) (groups : List String) (g : String) :
    groupPriorities (exampleConfig retryTimes groups) twoPriorities "gpt-4" g = [10, 0] := by
  have channels := (pairCache_serves plainEnv (prioritized 1 10) (prioritized 2 0) g
    "gpt-4").channels
  have env : (exampleConfig retryTimes groups).channels = plainEnv := rfl
  rw [groupPriorities, env, twoPriorities, channels]
  exact descending_of_falling (by decide)

theorem example_count (retryTimes : ℕ) (groups : List String) :
    ((getUserAutoGroup (exampleConfig retryTimes groups) exampleRequest.userGroup).map fun g =>
      (groupPriorities (exampleConfig retryTimes groups) exampleRequest.cache
        exampleRequest.modelName g).length).sum = groups.length * 2 := by
  have all : getUserAutoGroup (exampleConfig retryTimes groups) exampleRequest.userGroup =
      groups := filter_eq_self.mpr fun _ _ => rfl
  have two : ∀ g, (groupPriorities (exampleConfig retryTimes groups) exampleRequest.cache
      exampleRequest.modelName g).length = 2 :=
    fun g => congrArg length (example_priorities retryTimes groups g)
  simp [all, two]

/-- One group with two priorities and one retry: both priorities are visited. -/
theorem documented_order_iff_single :
    visits (serve (exampleConfig 1 ["a"]) exampleRequest 1 (replicate 3 exampleFailure)) =
      documentedOrder (exampleConfig 1 ["a"]) twoPriorities "gpt-4" ["a"] :=
  (documented_order_iff (exampleConfig 1 ["a"]) exampleRequest_plain
    (exampleRequest_stocked 1 ["a"]) (example_count 1 ["a"]).le 1 (exampleFailure_fails 1 3 ["a"])
    (by decide)).mpr (.inr ⟨"a", rfl, congrArg length (example_priorities 1 ["a"] "a")⟩)

/-- Two groups with two priorities each and three retries, as in the comment: the second priority
of the first group is used three times before the second group. -/
theorem comment_order_missed :
    exampleRequest.Plain ∧ exampleRequest.Stocked (exampleConfig 3 ["a", "b"]) ∧
      (∀ a ∈ replicate 9 exampleFailure,
        a.Fails (exampleConfig 3 ["a", "b"]) exampleRequest) ∧
      visits (serve (exampleConfig 3 ["a", "b"]) exampleRequest 1
          (replicate 9 exampleFailure)) =
        [(some "a", some 10), (some "a", some 0), (some "a", some 0), (some "a", some 0),
          (some "b", some 10), (some "b", some 0), (some "b", some 0), (some "b", some 0)] ∧
      documentedOrder (exampleConfig 3 ["a", "b"]) twoPriorities "gpt-4" ["a", "b"] =
        [(some "a", some 10), (some "a", some 0), (some "b", some 10), (some "b", some 0)] := by
  have plan := serve_plan exampleRequest_plain (exampleRequest_stocked 3 ["a", "b"]) (by decide) 1
    (exampleFailure_fails 3 9 ["a", "b"]) (by decide) rfl
  have priorities : ∀ g, descending (((exampleRequest.cache.candidates
      (exampleConfig 3 ["a", "b"]).channels g exampleRequest.modelName).filterMap
      exampleRequest.cache.channelsIDM).map (·.getPriority)) = [10, 0] :=
    example_priorities 3 ["a", "b"]
  refine ⟨exampleRequest_plain, exampleRequest_stocked 3 _, exampleFailure_fails 3 9 _, ?_, ?_⟩
  · rw [visits_eq plan]
    simp only [level, priorities]
    decide
  · simp [documentedOrder, example_priorities]

end EastApi.Relay
