import EastApi.Relay.GroupOrder

/-! Without cross-group retry a request is meant to stay in the group of its first attempt.  The
normal selection of `Distribute` stores the index of that group, and the later attempts start from
it.  An affinity hit stores the group only: the first retry starts from the first auto group. -/

namespace EastApi.Relay

open Channels List Option Nat

def offers (env : Channels.Env) (cache : Cache) (model group : String) : Bool :=
  cache.candidates env group model ≠ [] &&
    (cache.candidates env group model).all fun id => (cache.channelsIDM id).isSome

theorem offers_iff :
    offers env cache model group = true ↔ ∃ cs, cs ≠ [] ∧ Serves env cache group model cs := by
  simp only [offers, Bool.and_eq_true, decide_eq_true_eq, List.all_eq_true,
    isSome_iff_ne_none]
  constructor
  · rintro ⟨some_candidate, cached⟩
    obtain ⟨cs, serves⟩ := exists_cached cached
    refine ⟨cs, fun none => some_candidate ?_, serves⟩
    simpa [Serves, none] using serves
  · rintro ⟨cs, nonempty, serves⟩
    constructor
    · intro none
      rw [Serves, none, map_nil, eq_comm, map_eq_nil_iff] at serves
      exact nonempty serves
    · intro id listed missing
      have : cache.channelsIDM id ∈ cs.map some := serves ▸ mem_map_of_mem listed
      obtain ⟨c, -, found⟩ := mem_map.mp this
      rw [missing] at found
      cases found

structure Attempt.Steady (d : Distribution) (a : Attempt) : Prop where
  cache : a.cache = d.cache
  fair : Fair a.intn

def Distribution.affinity (cfg : Config) (d : Distribution) : Option String :=
  d.preferred.bind fun preferred =>
    if preferred.isEnabled then d.affinityGroup cfg preferred else none

def Distribution.firstOffer (cfg : Config) (d : Distribution) : Option String :=
  (getUserAutoGroup cfg d.userGroup).find? (offers cfg.channels d.cache d.modelName)

section
variable {cfg : Config} {d : Distribution} {group : String} {a : Attempt} {s t : Loop}

variable {cache : Cache} {model : String}

theorem exists_lookup_of_offers (h : offers cfg.channels cache model group = true)
    (fair : Fair intn) (retry : ℕ) :
    ∃ channel, lookup cfg.channels cache intn model group retry = .ok (some channel) := by
  obtain ⟨cs, nonempty, serves⟩ := offers_iff.mp h
  obtain ⟨channel, hit, -⟩ := exists_lookup serves nonempty fair retry
  exact ⟨channel, hit⟩

theorem offers_of_lookup {retry : ℕ} {channel : Channel}
    (hit : lookup cfg.channels cache intn model group retry = .ok (some channel)) :
    offers cfg.channels cache model group = true := by
  rcases serves_or_error cfg.channels cache group model with ⟨cs, serves⟩ | fails
  · refine offers_iff.mpr ⟨cs, ?_, serves⟩
    rintro rfl
    rw [lookup_eq (getRandomSatisfiedChannel_none serves retry intn)] at hit
    cases hit
  · obtain ⟨e, error⟩ := fails retry intn
    rw [lookup_eq error] at hit
    cases hit

theorem find_offers {l : List String} {k : ℕ} (here : l[k]? = some group)
    (hit : offers cfg.channels cache model group = true)
    (before : ∀ j g, j < k → l[j]? = some g → offers cfg.channels cache model g = false) :
    l.find? (offers cfg.channels cache model) = some group := by
  rw [find?_eq_some_iff_getElem]
  obtain ⟨inside, same⟩ := List.getElem?_eq_some_iff.mp here
  refine ⟨hit, k, inside, same, fun j lt => ?_⟩
  rw [before j _ lt (getElem?_eq_getElem _)]
  rfl

structure Staying (cfg : Config) (d : Distribution) (group : String) (s : Loop) : Prop where
  user : s.context.userGroup = d.userGroup
  single : s.context.crossGroupRetry = false
  auto : s.param.tokenGroup = "auto"
  model : s.param.modelName = d.modelName
  payer : s.info.userGroup = d.userGroup
  used : s.context.autoGroup = some group
  ratio : s.info.priceData.groupRatioInfo = groupRatio cfg d.userGroup group
  ahead : ∀ g, ((getUserAutoGroup cfg d.userGroup).drop s.index).find?
    (offers cfg.channels d.cache d.modelName) = some g → g = group

theorem Selects.first {k : ℕ} {channel : Channel} (sel : Selects cfg a s t k group channel)
    (steady : a.Steady d) (user : s.context.userGroup = d.userGroup)
    (model : s.param.modelName = d.modelName) :
    ((getUserAutoGroup cfg d.userGroup).drop s.index).find?
        (offers cfg.channels d.cache d.modelName) = some group ∧
      ((getUserAutoGroup cfg d.userGroup).drop (s.index + k)).find?
        (offers cfg.channels d.cache d.modelName) = some group := by
  have listed := sel.listed
  have hit := sel.hit
  have before := sel.before
  rw [user] at listed before
  rw [steady.cache, model] at hit before
  have given := offers_of_lookup hit
  constructor
  · refine find_offers (by rwa [getElem?_drop]) given fun j g lt at_j => ?_
    rw [getElem?_drop] at at_j
    by_contra offered
    rw [Bool.not_eq_false] at offered
    obtain ⟨ch, found⟩ := exists_lookup_of_offers offered steady.fair (s.retryAt j)
    exact before j g lt at_j ch found
  · exact find_offers (k := 0) (by rwa [getElem?_drop]) given
      fun j g lt => absurd lt (not_lt_zero j)

theorem Staying.attempt (h : Staying cfg d group s) (steady : a.Steady d)
    (turn : pass cfg a s = .again t ∨ pass cfg a s = .last t) : Staying cfg d group t := by
  obtain ⟨u, got, rfl⟩ := pass_attempt turn
  cases later : s.channelMeta with
  | false =>
    rw [getChannel_first later] at got
    obtain rfl : s = u := by simpa using got
    exact ⟨h.user, h.single, h.auto, h.model, h.payer, h.used, h.ratio, h.ahead⟩
  | true =>
    obtain ⟨k, group', channel, sel⟩ := getChannel_selects later h.auto got
    obtain ⟨first, next⟩ := sel.first steady h.user h.model
    obtain rfl : group' = group := h.ahead group' first
    have stays : ¬ s.Exhausts cfg k := fun full => by
      rw [Loop.Exhausts, h.single] at full
      cases full.1
    have index : u.index = s.index + k := by
      rw [sel.state, Loop.index, if_neg stays]
      rfl
    have same : u.attempted.index = s.index + k := index
    refine ⟨?_, ?_, sel.keeps.1.trans h.auto, sel.keeps.2.trans h.model, ?_, ?_, ?_, ?_⟩
    · rw [sel.state]
      exact h.user
    · rw [sel.state]
      exact h.single
    · rw [sel.state]
      exact h.payer
    · rw [sel.state]
      rfl
    · rw [sel.state, ← h.payer]
      rfl
    · intro g found
      rw [same, next] at found
      exact (some.inj found).symm

theorem Staying.next (h : Staying cfg d group s) : Staying cfg d group s.next :=
  ⟨h.user, h.single, by simpa using h.auto, by simpa using h.model, h.payer, h.used, h.ratio,
    h.ahead⟩

theorem Staying.run (h : Staying cfg d group s) {world : List Attempt}
    (steady : ∀ a ∈ world, a.Steady d) :
    ∀ t ∈ (relay cfg world s).attempts, Staying cfg d group t :=
  Retrying.run_forall Loop.next (I := Staying cfg d group)
    (fun _ _ _ ok h _ turn => ⟨h.attempt ok (.inl turn), (h.attempt ok (.inl turn)).next⟩)
    (fun _ _ _ ok h _ turn => h.attempt ok (.inr turn)) steady h

theorem distribute_affinity (specific : d.specific = none) (model : d.modelName ≠ "")
    (auto : d.usingGroup = "auto") (hit : d.affinity cfg = some group) :
    ∃ preferred, distribute cfg d =
      some { d.context with autoGroup := some group, channel := some preferred } := by
  obtain ⟨preferred, known, chosen⟩ := bind_eq_some_iff.mp hit
  split at chosen
  next enabled =>
    refine ⟨preferred, ?_⟩
    rw [distribute, specific]
    dsimp only
    rw [if_neg model, known]
    dsimp only
    rw [if_pos enabled, chosen]
    dsimp only
    rw [if_pos auto]
  · cases chosen

variable {c : Context}

theorem distribute_normal (specific : d.specific = none) (miss : d.affinity cfg = none)
    (distributed : distribute cfg d = some c) : d.select cfg = some c := by
  revert distributed
  fun_cases distribute cfg d
  case case4 | case6 | case8 => exact id
  case case5 => simp_all [Distribution.affinity]
  all_goals simp_all

variable (cfg d) in
theorem entered_price (userId : Int) (used : c.autoGroup = some group) :
    (d.entered cfg userId c).info.userGroup = c.userGroup ∧
      (d.entered cfg userId c).info.priceData.groupRatioInfo =
        groupRatio cfg c.userGroup group := by
  have price : AsyncTask.Submit.handleGroupRatio cfg.pricing c.autoGroup
      (genRelayInfo c userId d.modelName) = (groupRatio cfg c.userGroup group,
        { genRelayInfo c userId d.modelName with usingGroup := group }) := by
    rw [used]
    exact handleGroupRatio_auto cfg group _
  rw [Distribution.entered, enter, price]
  exact ⟨rfl, rfl⟩

theorem entered_staying (userId : Int) (auto : d.usingGroup = "auto")
    (user : c.userGroup = d.userGroup) (single : c.crossGroupRetry = false)
    (used : c.autoGroup = some group)
    (ahead : ∀ g, ((getUserAutoGroup cfg d.userGroup).drop (c.autoGroupIndex.getD 0)).find?
      (offers cfg.channels d.cache d.modelName) = some g → g = group) :
    Staying cfg d group (d.entered cfg userId c) := by
  obtain ⟨payer, price⟩ := entered_price cfg d userId used
  rw [user] at payer price
  exact ⟨user, single, auto, (entered_spec cfg d userId c).model, payer, used, price, ahead⟩

theorem Entered.attempt (entered : Entered d c s)
    (turn : pass cfg a s = .again t ∨ pass cfg a s = .last t) : t = s.attempted := by
  obtain ⟨u, got, rfl⟩ := pass_attempt turn
  rw [getChannel_first entered.fresh] at got
  obtain rfl : s = u := by simpa using got
  rfl

theorem relay_once (entered : Entered d c s)
    (once : cfg.retryTimes = 0 ∨ c.affinitySkipRetry = true) (world : List Attempt) :
    ∀ t ∈ (relay cfg world s).attempts, t = s.attempted := by
  have within : s.param.getRetry ≤ cfg.retryTimes := entered.retry ▸ zero_le _
  intro t ht
  cases world with
  | nil => exact absurd ht not_mem_nil
  | cons a world =>
    cases turn : pass cfg a s with
    | again u =>
      obtain rfl := entered.attempt (.inl turn)
      rw [relay_again within turn] at ht
      rcases once with none | skip
      · have beyond : cfg.retryTimes < s.attempted.next.param.getRetry := by
          have := s.param.getRetry_increaseRetry entered.ready
          rw [none]
          exact this ▸ succ_pos _
        rw [relay_beyond beyond] at ht
        exact mem_singleton.mp ht
      · obtain ⟨e, n, retried⟩ := pass_retried turn
        have : s.attempted.context.affinitySkipRetry = true := by
          rw [← skip, ← entered.context]
          rfl
        simp [shouldRetry, this] at retried
    | last u =>
      obtain rfl := entered.attempt (.inr turn)
      rw [relay_last within turn] at ht
      exact mem_singleton.mp ht
    | stop u =>
      simp [relay, Retrying.run, within, turn] at ht

def channelFailure (cache : Cache) : Attempt where
  cache := cache
  intn := fun _ => 0
  answer := some { errorCode := "channel:invalid_key", statusCode := 401 }

theorem channelFailure_steady : (channelFailure d.cache).Steady d := ⟨rfl, fair_zero⟩

theorem channelFailure_retried (free : c.affinitySkipRetry = false) (n : Int) :
    shouldRetry cfg c (some (normalizeViolationFeeError
      { errorCode := "channel:invalid_key", statusCode := 401 })) n = true := by
  have channel : isChannelError (normalizeViolationFeeError
      { errorCode := "channel:invalid_key", statusCode := 401 }) = true := by decide
  simp [shouldRetry, free, channel]

theorem second_attempt (entered : Entered d c s) (auto : d.usingGroup = "auto")
    (user : c.userGroup = d.userGroup) (index : c.autoGroupIndex = none)
    (free : c.affinitySkipRetry = false) (some_retry : 0 < cfg.retryTimes)
    (first : d.firstOffer cfg = some group) :
    ∃ t ∈ (relay cfg [channelFailure d.cache, channelFailure d.cache] s).attempts,
      t.context.autoGroup = some group := by
  have turn : pass cfg (channelFailure d.cache) s = .again s.attempted :=
    pass_again (getChannel_first entered.fresh) rfl rfl
      (channelFailure_retried (by rw [entered.context, free]) _)
  rw [relay_again (entered.retry ▸ zero_le _) turn]
  generalize next : s.attempted.next = u
  have context : u.context = c := by rw [← next, ← entered.context]; rfl
  have later : u.channelMeta = true := by rw [← next]; rfl
  have token : u.param.tokenGroup = "auto" := by
    rw [← next, ← auto, ← entered.group]
    exact s.param.increaseRetry_tokenGroup
  have model : u.param.modelName = d.modelName := by
    rw [← next, ← entered.model]
    exact s.param.increaseRetry_modelName
  have start : u.index = 0 := by rw [Loop.index, context, index]; rfl
  have within : u.param.getRetry ≤ cfg.retryTimes := by
    have := s.param.getRetry_increaseRetry entered.ready
    rw [entered.retry] at this
    rw [← next]
    exact this ▸ some_retry
  -- the second pass finds the group that comes first
  obtain ⟨given, j, inside, listed, before⟩ := find?_eq_some_iff_getElem.mp first
  obtain ⟨ch, hit⟩ := exists_lookup_of_offers given fair_zero (u.retryAt j)
  have listed' : (getUserAutoGroup cfg u.context.userGroup)[u.index + j]? = some group := by
    rw [context, user, start, zero_add, List.getElem?_eq_some_iff]
    exact ⟨inside, listed⟩
  rw [← model] at hit
  obtain ⟨v, got⟩ := exists_getChannel (a := channelFailure d.cache) later token rfl listed' hit
  obtain ⟨k, group', channel, sel⟩ := getChannel_selects later token got
  have same := (sel.first channelFailure_steady (by rw [context, user]) model).1
  rw [start, drop_zero, ← Distribution.firstOffer, first] at same
  cases same
  have used : v.attempted.context.autoGroup = some group := by
    rw [sel.state]
    rfl
  have turn' : pass cfg (channelFailure d.cache) u = .again v.attempted := by
    refine pass_again got rfl rfl (channelFailure_retried ?_ _)
    rw [sel.state]
    exact (congrArg Context.affinitySkipRetry context).trans free
  exact ⟨v.attempted, by rw [relay_again within turn']; simp, used⟩

end

/-- A token of the group `auto` without cross-group retry, with the cache unchanged: every attempt
uses the group of the first one and is priced by its ratio, unless the first channel comes from the
affinity, retries are allowed, and another auto group comes first. -/
theorem group_fixed_iff (cfg : Config) {d : Distribution} (auto : d.usingGroup = "auto")
    (single : d.crossGroupRetry = false) (specific : d.specific = none) {c : Context}
    (distributed : distribute cfg d = some c) (userId : Int) :
    ∃ group, c.autoGroup = some group ∧
      ((∀ world : List Attempt, (∀ a ∈ world, a.Steady d) → ∀ t ∈ serve cfg d userId world,
          t.context.autoGroup = some group ∧
            t.info.priceData.groupRatioInfo = groupRatio cfg d.userGroup group) ↔
        (d.affinity cfg ≠ none → cfg.retryTimes = 0 ∨ d.skipRetry = true ∨
          ∀ g, d.firstOffer cfg = some g → g = group)) := by
  cases hit : d.affinity cfg with
  | some group =>
    have model : d.modelName ≠ "" := by
      rintro empty
      rw [distribute, specific] at distributed
      simp [empty] at distributed
    obtain ⟨preferred, chosen⟩ := distribute_affinity specific model auto hit
    obtain rfl := some.inj (chosen.symm.trans distributed)
    have skip : d.context.affinitySkipRetry = d.skipRetry := by
      simp [Distribution.context, specific]
    have entered := entered_spec cfg d userId
      { d.context with autoGroup := some group, channel := some preferred }
    refine ⟨group, rfl, ?_⟩
    simp only [serve_eq chosen]
    constructor
    · intro fixed _
      by_contra other
      push Not at other
      obtain ⟨retries, free, g, first, apart⟩ := other
      obtain ⟨t, attempt, used⟩ := second_attempt entered auto rfl rfl
        (by simpa [skip] using free) (pos_of_ne_zero retries) first
      have same := (fixed _ (by simpa using channelFailure_steady) t attempt).1
      exact apart (some.inj (used.symm.trans same))
    · intro condition world steady t attempt
      rcases condition (by simp) with none | no_retry | ahead
      · rw [relay_once entered (.inl none) world t attempt]
        exact ⟨rfl, (entered_price cfg d userId rfl).2⟩
      · rw [relay_once entered (.inr (skip.trans no_retry)) world t attempt]
        exact ⟨rfl, (entered_price cfg d userId rfl).2⟩
      · have staying := (entered_staying userId auto (c := { d.context with
          autoGroup := some group, channel := some preferred }) rfl single rfl ahead).run steady t
          attempt
        exact ⟨staying.used, staying.ratio⟩
  | none =>
    obtain ⟨k, group, channel, listed, found, -, rfl⟩ :=
      select_found auto (distribute_normal specific hit distributed)
    refine ⟨group, rfl, iff_of_true ?_ fun some_hit => absurd rfl some_hit⟩
    intro world steady t attempt
    have index : (if d.crossGroupRetry = true ∧ cfg.retryTimes ≤ 0 then k + 1 else k) = k :=
      if_neg (by simp [single])
    rw [index] at distributed
    rw [serve_eq distributed] at attempt
    have ahead : ((getUserAutoGroup cfg d.userGroup).drop k).find?
        (offers cfg.channels d.cache d.modelName) = some group :=
      find_offers (k := 0) (by rwa [getElem?_drop]) (offers_of_lookup found)
        fun j g lt => absurd lt (not_lt_zero j)
    have staying := (entered_staying userId auto (c := { d.context with
      autoGroup := some group, autoGroupIndex := some k, channel := some channel }) rfl single rfl
      fun g here => some.inj (here.symm.trans ahead)).run steady t attempt
    exact ⟨staying.used, staying.ratio⟩

def splitCache : Cache where
  group2model2channels := fun group =>
    if group = "a" then some fun _ => [1] else if group = "b" then some fun _ => [2] else none
  channelsIDM := fun id =>
    if id = 1 then some (weighted 1 3) else if id = 2 then some (weighted 2 1) else none

def stickyRequest (preferred : Option Channel) : Distribution where
  userGroup := "default"
  usingGroup := "auto"
  crossGroupRetry := false
  modelName := "gpt-4"
  preferred := preferred
  cache := splitCache
  intn := fun _ => 0

/-- Without an affinity every attempt is made in the first group. -/
theorem group_fixed_iff_normal :
    ∃ group, ((distribute (exampleConfig 1 ["a", "b"]) (stickyRequest none)).bind
        (·.autoGroup)) = some group ∧
      ∀ world : List Attempt, (∀ a ∈ world, a.Steady (stickyRequest none)) →
        ∀ t ∈ serve (exampleConfig 1 ["a", "b"]) (stickyRequest none) 1 world,
          t.context.autoGroup = some group ∧ t.info.priceData.groupRatioInfo =
            groupRatio (exampleConfig 1 ["a", "b"]) "default" group := by
  have distributed : ∃ c, distribute (exampleConfig 1 ["a", "b"]) (stickyRequest none) = some c :=
    ⟨_, rfl⟩
  obtain ⟨c, distributed⟩ := distributed
  obtain ⟨group, first, fixed⟩ := group_fixed_iff (exampleConfig 1 ["a", "b"]) rfl rfl rfl
    distributed 1
  exact ⟨group, by rw [distributed]; exact first, fixed.mpr fun hit => absurd rfl hit⟩

/-- An affinity hit on the group `b`: after a channel error the retry goes to the group `a`. -/
theorem affinity_group_left :
    (stickyRequest (some (weighted 2 1))).affinity (exampleConfig 1 ["a", "b"]) = some "b" ∧
      (channelFailure splitCache).Steady (stickyRequest (some (weighted 2 1))) ∧
      (serve (exampleConfig 1 ["a", "b"]) (stickyRequest (some (weighted 2 1))) 1
        [channelFailure splitCache, channelFailure splitCache]).map
          (fun t => (t.context.autoGroup, t.context.channelId)) =
        [(some "b", 2), (some "a", 1)] :=
  ⟨by decide, channelFailure_steady, by decide⟩

end EastApi.Relay
