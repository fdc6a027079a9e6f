import EastApi.Channels.Pick
import EastApi.Channels.Query
import EastApi.Channels.Rebuild

/-! The selection of a channel from the memory cache against the selection from the database, on
tables in which the abilities mirror the channels.  They part where a model is listed under its
normalized name only, where a retry finds no ability, and where a channel of weight 0 stands beside
one of a positive weight. -/

namespace EastApi.Channels

open Go Levels Weighted List Option

def handleThinkingBudgetModel (name start wildcard : String) : String :=
  if hasPrefix name start && contains name "-thinking-" then wildcard else name

def formatMatchingModelName (name : String) : String :=
  let name :=
    if hasPrefix name "gemini-2.5-flash-lite" then
      handleThinkingBudgetModel name "gemini-2.5-flash-lite" "gemini-2.5-flash-lite-thinking-*"
    else if hasPrefix name "gemini-2.5-flash" then
      handleThinkingBudgetModel name "gemini-2.5-flash" "gemini-2.5-flash-thinking-*"
    else if hasPrefix name "gemini-2.5-pro" then
      handleThinkingBudgetModel name "gemini-2.5-pro" "gemini-2.5-pro-thinking-*"
    else name
  let name := if hasPrefix name "gpt-4-gizmo" then "gpt-4-gizmo-*" else name
  if hasPrefix name "gpt-4o-gizmo" then "gpt-4o-gizmo-*" else name

/-- A selection, as a function of the random numbers. -/
abbrev Selection := (Int → Int) → Option (Except String (Option Channel))

def Selection.CanReturn (f : Selection) (id : Int) : Prop :=
  ∃ intn, Fair intn ∧ ∃ c, f intn = some (.ok (some c)) ∧ c.id = id

def Selection.CanBeNone (f : Selection) : Prop := ∃ intn, Fair intn ∧ f intn = some (.ok none)

/-- Two selections may return the same channels, and report none in the same cases. -/
structure Selection.Agrees (f g : Selection) : Prop where
  channels : ∀ id, f.CanReturn id ↔ g.CanReturn id
  none : f.CanBeNone ↔ g.CanBeNone

theorem share_pos_iff : 0 < share l c ↔ total Channel.getWeight l = 0 ∨ 0 < c.getWeight := by
  unfold share smoothing
  split
  next zero => exact iff_of_true (by omega) (.inl zero)
  next positive => split <;> simp [positive]

theorem cache_none_iff (serves : Serves env cache group model cs) (retry : ℕ) :
    Selection.CanBeNone (getRandomSatisfiedChannel env cache group model retry) ↔ cs = [] := by
  constructor
  · rintro ⟨intn, fair, none⟩
    by_contra nonempty
    obtain ⟨c, -, -, served⟩ := getRandomSatisfiedChannel_served serves nonempty retry fair
    rw [served] at none
    cases none
  · rintro rfl
    exact ⟨drawing 1 0, drawing_fair (by omega) (by omega),
      getRandomSatisfiedChannel_none serves retry _⟩

theorem cache_returns_iff (serves : Serves env cache group model cs) (retry : ℕ) (id : Int) :
    Selection.CanReturn (getRandomSatisfiedChannel env cache group model retry) id ↔
      ∃ c ∈ targets cs retry, c.id = id ∧ 0 < share (targets cs retry) c := by
  constructor
  · rintro ⟨intn, fair, c, returned, same⟩
    by_cases empty : cs = []
    · subst empty
      rw [getRandomSatisfiedChannel_none serves] at returned
      cases returned
    · obtain ⟨d, mem, positive, served⟩ := getRandomSatisfiedChannel_served serves empty retry fair
      obtain rfl : d = c := by simpa [served] using returned
      exact ⟨d, mem, same, positive⟩
  · rintro ⟨c, mem, same, positive⟩
    obtain ⟨intn, fair, served⟩ := exists_served serves mem positive
    exact ⟨intn, fair, c, served, same⟩

def levelRows (rows : List Ability) (retry : ℕ) : List Ability :=
  rows.filter fun a => level (rows.map (·.priority)) retry = some a.priority

theorem mem_levelRows :
    a ∈ levelRows rows retry ↔
      a ∈ rows ∧ level (rows.map (·.priority)) retry = some a.priority := by
  simp [levelRows]

theorem levelRows_ne_nil (nonempty : rows ≠ []) (retry : ℕ) :
    levelRows rows retry ≠ [] := by
  obtain ⟨a, ha, here⟩ := exists_mem_level (·.priority) nonempty retry
  exact ne_nil_of_mem (mem_levelRows.mpr ⟨ha, here⟩)

theorem getPriority_eq (nonempty : rows ≠ [])
    (here : level (rows.map (·.priority)) retry = some p) :
    getPriority rows retry = some (.ok p) := by
  have positive := length_descending_pos (show rows.map (·.priority) ≠ [] by simpa using nonempty)
  have same : distinctPriorities rows = descending (rows.map (·.priority)) := rfl
  rw [level, ← same] at here
  rw [← same] at positive
  unfold getPriority
  dsimp only
  rw [if_neg (ne_nil_of_length_pos positive)]
  split
  next beyond =>
    rw [show min retry ((distinctPriorities rows).length - 1) =
      (distinctPriorities rows).length - 1 by omega] at here
    rw [getLast?_eq_getElem?, here, map_some]
  next inside =>
    rw [show min retry ((distinctPriorities rows).length - 1) = retry by omega] at here
    rw [if_neg (by omega), Int.toNat_natCast, here, map_some]

theorem level_zero_eq_max (l : List Int) : level l 0 = l.max? := by
  cases l with
  | nil => simp [level, descending]
  | cons b rest =>
    obtain ⟨p, here⟩ := exists_level (cons_ne_nil b rest) 0
    have rank := level_rank here
    rw [Nat.zero_min, countP_eq_zero] at rank
    rw [here, eq_comm, max?_eq_some_iff]
    refine ⟨mem_of_level here, fun q hq => ?_⟩
    simpa using rank q (mem_dedup.mpr hq)

theorem getChannelQuery_eq (nonempty : matching abilities group model ≠ []) (retry : ℕ) :
    getChannelQuery abilities group model retry =
      some (.ok (levelRows (matching abilities group model) retry)) := by
  obtain ⟨p, here⟩ := exists_level
    (show (matching abilities group model).map (·.priority) ≠ [] by simpa using nonempty) retry
  unfold getChannelQuery
  dsimp only
  split
  next first =>
    obtain rfl : retry = 0 := by omega
    rw [← level_zero_eq_max]
    rfl
  · simp only [getPriority_eq nonempty here, levelRows, here, some.injEq, eq_comm]
    rfl

theorem getChannelQuery_empty (empty : matching abilities group model = []) (retry : ℕ) :
    getChannelQuery abilities group model retry =
      if retry = 0 then some (.ok []) else some (.error "数据库一致性被破坏") := by
  unfold getChannelQuery
  dsimp only
  rw [empty]
  by_cases first : retry = 0
  · rw [if_pos (by omega), if_pos first]
    rfl
  · rw [if_neg (by omega), if_neg first]
    simp [getPriority, distinctPriorities, Except.map]

section
variable (order : RowOrder)

def Store.Owned (s : Store) : Prop :=
  ∀ a ∈ s.abilities, ∃ c, s.channels.find a.channelId = some c

theorem getChannel_picks
    (query : getChannelQuery s.abilities.rows group model retry = some (.ok rows))
    (fits : total Ability.share rows < 2 ^ 63) {intn : Int → Int} {d : ℕ}
    (drawn : intn (total Ability.share rows) = d) (below : d < total Ability.share rows)
    (picked : scanLax Ability.share (order.byWeight rows) d = some a)
    (found : s.channels.find a.channelId = some c) :
    getChannel order s group model retry intn = some (.ok (some c)) := by
  have sum := order.total_byWeight Ability.share rows
  have range : wrap64 (weightSum (order.byWeight rows)) = (total Ability.share rows : ℕ) := by
    rw [weightSum_eq, sum, Nat.mod_eq_of_lt (by omega)]
    exact wrap64_of_fits (by omega) (by omega)
  unfold getChannel
  rw [query]
  simp only [bind_some, if_neg (ne_nil_of_mem (scanLax_mem picked)), range, drawn]
  rw [if_neg (by omega), pickAbility_eq (by omega) (by omega), picked, map_some,
    getD_some, found]

theorem getChannel_empty (empty : matching s.abilities.rows group model = []) (retry : ℕ)
    (intn : Int → Int) :
    getChannel order s group model retry intn =
      if retry = 0 then some (.ok none) else some (.error "数据库一致性被破坏") := by
  have none : order.byWeight [] = [] := (order.perm []).eq_nil
  unfold getChannel
  rw [getChannelQuery_empty empty]
  split
  · rw [bind_some]
    dsimp only
    rw [none, if_pos rfl]
  · rfl

variable {s : Store} (owned : s.Owned)
  (query : getChannelQuery s.abilities.rows group model retry = some (.ok rows))
  (nonempty : rows ≠ []) (fits : total Ability.share rows < 2 ^ 63)
include owned query nonempty fits

theorem database_picks (fair : Fair intn) :
    ∃ a ∈ rows, ∃ c, s.channels.find a.channelId = some c ∧
      getChannel order s group model retry intn = some (.ok (some c)) := by
  have sum := order.total_byWeight Ability.share rows
  have positive : 0 < total Ability.share rows := by
    obtain ⟨a, ha⟩ := exists_mem_of_ne_nil _ nonempty
    exact Nat.lt_of_lt_of_le (share_pos a) (le_total_of_mem ha)
  obtain ⟨nonneg, below⟩ := fair _ (Int.natCast_pos.mpr positive)
  obtain ⟨d, drawn⟩ := Int.eq_ofNat_of_zero_le nonneg
  obtain ⟨a, picked⟩ := scanLax_isSome (w := Ability.share) (r := d)
    (order.byWeight_ne_nil nonempty) (by omega)
  have mem : a ∈ rows := order.mem_byWeight.mp (scanLax_mem picked)
  obtain ⟨c, found⟩ := owned a (mem_of_mem_filter ((getChannelQuery_rows query).subset mem))
  exact ⟨a, mem, c, found, getChannel_picks order query fits drawn (by omega) picked found⟩

theorem database_returns_iff (id : Int) :
    Selection.CanReturn (getChannel order s group model retry) id ↔
      ∃ a ∈ rows, a.channelId = id := by
  constructor
  · rintro ⟨intn, fair, c, returned, same⟩
    obtain ⟨a, mem, d, found, picks⟩ := database_picks order owned query nonempty fits fair
    obtain rfl : d = c := by simpa [picks] using returned
    exact ⟨a, mem, (Table.find_eq_some.mp found).2.symm.trans same⟩
  · rintro ⟨a, mem, same⟩
    have listed : a ∈ order.byWeight rows := order.mem_byWeight.mpr mem
    have large : 1 < a.share := by
      unfold Ability.share
      omega
    obtain ⟨d, below, -, picked⟩ := exists_scanLax listed large
    have sum := order.total_byWeight Ability.share rows
    obtain ⟨c, found⟩ := owned a (mem_of_mem_filter ((getChannelQuery_rows query).subset mem))
    exact ⟨drawing (total Ability.share rows) d, drawing_fair (by omega) (by omega), c,
      getChannel_picks order query fits (drawing_self _ _) (by omega) picked found,
      (Table.find_eq_some.mp found).2.trans same⟩

end

def Channel.Offers (c : Channel) (group model : String) : Prop :=
  c.isEnabled = true ∧ group ∈ c.groups ∧ model ∈ c.modelNames

section
variable {s : Store} {env : Env} {old : Int → Option Channel} {cache : Cache}

theorem Store.Mirrored.owned (h : s.Mirrored) : s.Owned := by
  intro a ha
  obtain ⟨c, hc, has⟩ := (h a).mp ha
  exact ⟨c, Table.find_eq_some.mpr ⟨hc, has.owner.symm⟩⟩

theorem Store.Mirrored.mem_matching_iff (h : s.Mirrored) :
    a ∈ matching s.abilities.rows group model ↔
      ∃ c ∈ s.channels, c.Offers group model ∧ c.ability (group, model) = a := by
  rw [mem_matching, ← Table.mem_rows, h a]
  constructor
  · rintro ⟨⟨c, hc, p, hp, rfl⟩, rfl, rfl, enabled⟩
    obtain ⟨hg, hm⟩ := mem_pairs.mp hp
    exact ⟨c, hc, ⟨enabled, hg, hm⟩, rfl⟩
  · rintro ⟨c, hc, ⟨enabled, hg, hm⟩, rfl⟩
    exact ⟨⟨c, hc, (group, model), mem_pairs.mpr ⟨hg, hm⟩, rfl⟩, rfl, rfl, enabled⟩

theorem Store.Mirrored.covered (h : s.Mirrored) : Covered s.channels s.abilities.rows := by
  intro c hc enabled group hg
  obtain ⟨model, hm⟩ := exists_mem_of_ne_nil _ (modelNames_ne_nil c)
  exact ⟨c.ability (group, model),
    (h _).mpr ⟨c, hc, (group, model), mem_pairs.mpr ⟨hg, hm⟩, rfl⟩, rfl⟩

theorem mem_listed_iff (built : initChannelCache env old s.channels s.abilities.rows = some cache)
    {id : Int} :
    id ∈ cache.listed group model ↔ ∃ c ∈ s.channels, c.id = id ∧ c.Offers group model := by
  rw [← count_pos_iff, count_listed built]
  constructor
  · intro positive
    cases found : s.channels.find id with
    | none => simp [found] at positive
    | some c =>
      obtain ⟨hc, same⟩ := Table.find_eq_some.mp found
      rw [found, map_some, getD_some, Channel.named] at positive
      split at positive
      next enabled =>
        exact ⟨c, hc, same, enabled, count_pos_iff.mp (Nat.pos_of_mul_pos_right positive),
          count_pos_iff.mp (Nat.pos_of_mul_pos_left positive)⟩
      · omega
  · rintro ⟨c, hc, same, enabled, hg, hm⟩
    rw [Table.find_eq_some.mpr ⟨hc, same⟩, map_some, getD_some, Channel.named,
      if_pos enabled]
    exact Nat.mul_pos (count_pos_iff.mpr hg) (count_pos_iff.mpr hm)

theorem prepareChannel_keeps (env : Env) (old : Int → Option Channel) (c : Channel) :
    (prepareChannel env old c).id = c.id ∧
      (prepareChannel env old c).getPriority = c.getPriority ∧
      (prepareChannel env old c).getWeight = c.getWeight := by
  fun_cases prepareChannel env old c <;> exact ⟨rfl, rfl, rfl⟩

def Store.CachedFor (s : Store) (env : Env) (old : Int → Option Channel) (group model : String)
    (cs : List Channel) : Prop :=
  ∀ c', c' ∈ cs ↔ ∃ c ∈ s.channels, c.Offers group model ∧ prepareChannel env old c = c'

theorem exists_listed (built : initChannelCache env old s.channels s.abilities.rows = some cache)
    (group model : String) :
    ∃ cs : List Channel, (cache.listed group model).map cache.channelsIDM = cs.map some ∧
      s.CachedFor env old group model cs := by
  have cached : ∀ c ∈ s.channels, cache.channelsIDM c.id = some (prepareChannel env old c) := by
    intro c hc
    obtain ⟨m, -, rfl⟩ := map_eq_some_iff.mp built
    simp [Table.find_eq_some.mpr ⟨hc, rfl⟩]
  have all : ∀ id ∈ cache.listed group model, cache.channelsIDM id ≠ none := by
    intro id hid
    obtain ⟨c, hc, rfl, -⟩ := (mem_listed_iff built).mp hid
    simp [cached c hc]
  obtain ⟨cs, same⟩ := exists_cached all
  refine ⟨cs, same, fun c' => ?_⟩
  rw [← List.mem_map_of_injective (some_injective Channel), ← same, List.mem_map]
  constructor
  · rintro ⟨id, hid, found⟩
    obtain ⟨c, hc, rfl, offers⟩ := (mem_listed_iff built).mp hid
    rw [cached c hc] at found
    exact ⟨c, hc, offers, some.inj found⟩
  · rintro ⟨c, hc, offers, rfl⟩
    exact ⟨c.id, (mem_listed_iff built).mpr ⟨c, hc, rfl, offers⟩, cached c hc⟩

end

/-- The two selections may return the same channels: the channels that a retry is served by all
have weight 0 or all have a positive weight; and for a model that no channel has, the first attempt
finds none under the normalized name either. -/
def sameOffers (env : Env) (abilities : List Ability) (group model : String) (retry : ℕ) : Prop :=
  if matching abilities group model = [] then
    retry = 0 ∧ matching abilities group (env.formatMatchingModelName model) = []
  else
    (∀ a ∈ levelRows (matching abilities group model) retry, a.weight = 0) ∨
      ∀ a ∈ levelRows (matching abilities group model) retry, 0 < a.weight

section
variable {s : Store} {env : Env} {old : Int → Option Channel} {cache : Cache}
  {group model : String} {cs : List Channel}

variable {retry : ℕ}

/-- Of the channels that a retry is served by, the cache returns all exactly if no weight 0 stands
beside a positive one. -/
theorem returns_all_iff {l : List Ability}
    (apart : ∀ a ∈ l, ∀ b ∈ l, a.channelId = b.channelId → a = b) :
    (∀ id, (∃ a ∈ l, a.channelId = id ∧ ((∀ b ∈ l, b.weight = 0) ∨ 0 < a.weight)) ↔
      ∃ a ∈ l, a.channelId = id) ↔ (∀ a ∈ l, a.weight = 0) ∨ ∀ a ∈ l, 0 < a.weight := by
  constructor
  · intro same
    refine or_iff_not_imp_left.mpr fun mixed a ha => ?_
    obtain ⟨b, hb, channel, positive⟩ := (same a.channelId).mpr ⟨a, ha, rfl⟩
    rw [← apart b hb a ha channel]
    exact positive.resolve_left mixed
  · rintro uniform id
    constructor
    · rintro ⟨a, ha, channel, -⟩
      exact ⟨a, ha, channel⟩
    · rintro ⟨a, ha, channel⟩
      exact ⟨a, ha, channel, uniform.imp_right fun all => all a ha⟩

theorem agrees_of_empty (order : RowOrder) (empty : matching s.abilities.rows group model = [])
    (serves : Serves env cache group model cs) :
    Selection.Agrees (getRandomSatisfiedChannel env cache group model retry)
        (getChannel order s group model retry) ↔
      retry = 0 ∧ cs = [] := by
  have silent : ∀ intn c, getChannel order s group model retry intn ≠ some (.ok (some c)) := by
    intro intn c
    rw [getChannel_empty order empty]
    split <;> simp
  have none_iff : Selection.CanBeNone (getChannel order s group model retry) ↔ retry = 0 := by
    unfold Selection.CanBeNone
    simp only [getChannel_empty order empty]
    by_cases first : retry = 0
    · simpa [first] using ⟨_, drawing_fair (n := 1) (d := 0) (by omega) (by omega)⟩
    · simp [first]
  constructor
  · rintro ⟨channels, none⟩
    have vacant : cs = [] := by
      by_contra nonempty
      obtain ⟨c, -, -, served⟩ := getRandomSatisfiedChannel_served serves nonempty retry
        (drawing_fair (n := 1) (d := 0) (by omega) (by omega))
      obtain ⟨intn, -, d, returned, -⟩ := (channels c.id).mp
        ⟨_, drawing_fair (by omega) (by omega), c, served, rfl⟩
      exact silent intn d returned
    exact ⟨none_iff.mp (none.mp ((cache_none_iff serves retry).mpr vacant)), vacant⟩
  · rintro ⟨first, vacant⟩
    refine ⟨fun id => ?_, (cache_none_iff serves retry).trans (iff_of_true vacant ?_)⟩
    · rw [cache_returns_iff serves, vacant]
      refine iff_of_false (by simp [mem_targets]) ?_
      rintro ⟨intn, -, d, returned, -⟩
      exact silent intn d returned
    · exact none_iff.mpr first

variable (h : s.Mirrored)
include h

section
variable (own : s.CachedFor env old group model cs)
include own

theorem Store.Mirrored.rows_iff (id p : Int) (w : ℕ) :
    (∃ c' ∈ cs, c'.id = id ∧ c'.getPriority = p ∧ c'.getWeight = w) ↔
      ∃ a ∈ matching s.abilities.rows group model,
        a.channelId = id ∧ a.priority = p ∧ a.weight = w := by
  unfold Store.CachedFor at own
  simp only [own, h.mem_matching_iff]
  constructor
  · rintro ⟨_, ⟨c, hc, offers, rfl⟩, hid, hp, hw⟩
    obtain ⟨same, priority, weight⟩ := prepareChannel_keeps env old c
    exact ⟨_, ⟨c, hc, offers, rfl⟩, same.symm.trans hid, priority.symm.trans hp,
      weight.symm.trans hw⟩
  · rintro ⟨_, ⟨c, hc, offers, rfl⟩, hid, hp, hw⟩
    obtain ⟨same, priority, weight⟩ := prepareChannel_keeps env old c
    exact ⟨_, ⟨c, hc, offers, rfl⟩, same.trans hid, priority.trans hp, weight.trans hw⟩

theorem Store.Mirrored.nil_iff : cs = [] ↔ matching s.abilities.rows group model = [] := by
  unfold Store.CachedFor at own
  simp only [eq_nil_iff_forall_not_mem, own, h.mem_matching_iff]
  constructor
  · rintro none a ⟨c, hc, offers, -⟩
    exact none _ ⟨c, hc, offers, rfl⟩
  · rintro none c' ⟨c, hc, offers, -⟩
    exact none _ ⟨c, hc, offers, rfl⟩

theorem Store.Mirrored.targets_iff (retry : ℕ) (id : Int) (w : ℕ) :
    (∃ c' ∈ targets cs retry, c'.id = id ∧ c'.getWeight = w) ↔
      ∃ a ∈ levelRows (matching s.abilities.rows group model) retry,
        a.channelId = id ∧ a.weight = w := by
  have same : level (cs.map (·.getPriority)) retry =
      level ((matching s.abilities.rows group model).map (·.priority)) retry := by
    refine level_congr (fun p => ?_) retry
    simp only [List.mem_map]
    constructor
    · rintro ⟨c', hc', hp⟩
      obtain ⟨a, ha, -, priority, -⟩ := (h.rows_iff own _ p _).mp ⟨c', hc', rfl, hp, rfl⟩
      exact ⟨a, ha, priority⟩
    · rintro ⟨a, ha, hp⟩
      obtain ⟨c', hc', -, priority, -⟩ := (h.rows_iff own _ p _).mpr ⟨a, ha, rfl, hp, rfl⟩
      exact ⟨c', hc', priority⟩
  simp only [mem_targets, mem_levelRows, same]
  constructor
  · rintro ⟨c', ⟨hc', here⟩, hid, hw⟩
    obtain ⟨a, ha, channel, priority, weight⟩ :=
      (h.rows_iff own id _ w).mp ⟨c', hc', hid, rfl, hw⟩
    exact ⟨a, ⟨ha, priority ▸ here⟩, channel, weight⟩
  · rintro ⟨a, ⟨ha, here⟩, hid, hw⟩
    obtain ⟨c', hc', channel, priority, weight⟩ :=
      (h.rows_iff own id _ w).mpr ⟨a, ha, hid, rfl, hw⟩
    exact ⟨c', ⟨hc', priority ▸ here⟩, channel, weight⟩

theorem Store.Mirrored.cache_returns_iff (serves : Serves env cache group model cs) (retry : ℕ)
    (id : Int) :
    Selection.CanReturn (getRandomSatisfiedChannel env cache group model retry) id ↔
      ∃ a ∈ levelRows (matching s.abilities.rows group model) retry, a.channelId = id ∧
        ((∀ b ∈ levelRows (matching s.abilities.rows group model) retry, b.weight = 0) ∨
          0 < a.weight) := by
  have zero : total Channel.getWeight (targets cs retry) = 0 ↔
      ∀ b ∈ levelRows (matching s.abilities.rows group model) retry, b.weight = 0 := by
    rw [total_eq_zero_iff]
    constructor
    · intro all b hb
      obtain ⟨c, hc, -, weight⟩ := (h.targets_iff own retry _ _).mpr ⟨b, hb, rfl, rfl⟩
      rw [← weight, all c hc]
    · intro all c hc
      obtain ⟨b, hb, -, weight⟩ := (h.targets_iff own retry _ _).mp ⟨c, hc, rfl, rfl⟩
      rw [← weight, all b hb]
  rw [Channels.cache_returns_iff serves]
  simp only [share_pos_iff, zero]
  constructor
  · rintro ⟨c, hc, hid, positive⟩
    obtain ⟨a, ha, channel, weight⟩ := (h.targets_iff own retry id _).mp ⟨c, hc, hid, rfl⟩
    exact ⟨a, ha, channel, weight ▸ positive⟩
  · rintro ⟨a, ha, hid, positive⟩
    obtain ⟨c, hc, channel, weight⟩ := (h.targets_iff own retry id _).mpr ⟨a, ha, hid, rfl⟩
    exact ⟨c, hc, channel, weight ▸ positive⟩

theorem agrees_of_rows (order : RowOrder) (nonempty : matching s.abilities.rows group model ≠ [])
    (serves : Serves env cache group model cs) (fits : total Ability.share
      (levelRows (matching s.abilities.rows group model) retry) < 2 ^ 63) :
    Selection.Agrees (getRandomSatisfiedChannel env cache group model retry)
        (getChannel order s group model retry) ↔
      (∀ a ∈ levelRows (matching s.abilities.rows group model) retry, a.weight = 0) ∨
        ∀ a ∈ levelRows (matching s.abilities.rows group model) retry, 0 < a.weight := by
  have query := getChannelQuery_eq nonempty retry
  have selected : levelRows (matching s.abilities.rows group model) retry ≠ [] :=
    levelRows_ne_nil nonempty retry
  have apart : ∀ a ∈ levelRows (matching s.abilities.rows group model) retry,
      ∀ b ∈ levelRows (matching s.abilities.rows group model) retry,
      a.channelId = b.channelId → a = b := by
    intro a ha b hb same
    obtain ⟨ma, ga, na, -⟩ := mem_matching.mp (mem_levelRows.mp ha).1
    obtain ⟨mb, gb, nb, -⟩ := mem_matching.mp (mem_levelRows.mp hb).1
    exact Table.eq_of_key ma mb (by rw [Ability.pk, Ability.pk, ga, gb, na, nb, same])
  rw [← returns_all_iff apart]
  simp only [← h.cache_returns_iff own serves,
    ← database_returns_iff order h.owned query selected fits]
  constructor
  · exact fun agrees => agrees.channels
  · refine fun channels => ⟨channels, (cache_none_iff serves retry).trans (iff_of_false ?_ ?_)⟩
    · exact fun vacant => nonempty ((h.nil_iff own).mp vacant)
    · rintro ⟨intn, fair, none⟩
      obtain ⟨a, -, c, -, picks⟩ := database_picks order h.owned query selected fits fair
      rw [picks] at none
      cases none

end

variable (group model) in
theorem candidates_of_rows
    (built : initChannelCache env old s.channels s.abilities.rows = some cache) :
    cache.candidates env group model = cache.listed group
      (if matching s.abilities.rows group model = [] then env.formatMatchingModelName model
        else model) := by
  obtain ⟨cs, cached, own⟩ := exists_listed built group model
  have listed : cache.listed group model = [] ↔ matching s.abilities.rows group model = [] := by
    rw [← h.nil_iff own, ← map_eq_nil_iff (f := cache.channelsIDM), cached,
      map_eq_nil_iff]
  unfold Cache.candidates
  by_cases empty : matching s.abilities.rows group model = []
  · rw [if_pos (listed.mpr empty), if_pos empty]
  · rw [if_neg (fun none => empty (listed.mp none)), if_neg empty]

theorem Store.Mirrored.agrees_iff
    (built : initChannelCache env old s.channels s.abilities.rows = some cache) (order : RowOrder)
    (fits : total Ability.share
      (levelRows (matching s.abilities.rows group model) retry) < 2 ^ 63) :
    Selection.Agrees (getRandomSatisfiedChannel env cache group model retry)
        (getChannel order s group model retry) ↔
      sameOffers env s.abilities.rows group model retry := by
  have candidates := candidates_of_rows group model h built
  unfold sameOffers
  split
  next empty =>
    rw [if_pos empty] at candidates
    obtain ⟨cs, cached, own⟩ := exists_listed built group (env.formatMatchingModelName model)
    have serves : Serves env cache group model cs := by rw [Serves, candidates, cached]
    rw [← h.nil_iff own]
    exact agrees_of_empty order empty serves
  next nonempty =>
    rw [if_neg nonempty] at candidates
    obtain ⟨cs, cached, own⟩ := exists_listed built group model
    have serves : Serves env cache group model cs := by rw [Serves, candidates, cached]
    exact agrees_of_rows h own order nonempty serves fits

theorem Store.Mirrored.exists_cache (env : Env) (old : Int → Option Channel) :
    ∃ cache, initChannelCache env old s.channels s.abilities.rows = some cache :=
  isSome_iff_exists.mp
    ((initChannelCache_isSome_iff env old s.channels s.abilities.rows).mpr h.covered)

end

/-- Tables that mirror each other, any group, model and retry: the cache that is built from them
and the database may return the same channels, and report none in the same cases, exactly if the
offers are the same. -/
theorem cache_database_agree_iff (env : Env) (order : RowOrder) (old : Int → Option Channel)
    {s : Store} (mirrored : s.Mirrored) (group model : String) (retry : ℕ)
    (fits : total Ability.share
      (levelRows (matching s.abilities.rows group model) retry) < 2 ^ 63) :
    ∃ cache, initChannelCache env old s.channels s.abilities.rows = some cache ∧
      (Selection.Agrees (getRandomSatisfiedChannel env cache group model retry)
          (getChannel order s group model retry) ↔
        sameOffers env s.abilities.rows group model retry) := by
  obtain ⟨cache, built⟩ := mirrored.exists_cache env old
  exact ⟨cache, built, mirrored.agrees_iff built order fits⟩

def namingEnv : Env := { plainEnv with formatMatchingModelName := formatMatchingModelName }

theorem tagged_rows (retry : ℕ) :
    levelRows (matching (singleStore taggedChannel).abilities.rows "vip" "gpt-4") retry =
      [taggedChannel.ability ("vip", "gpt-4")] := by
  have rows : matching (singleStore taggedChannel).abilities.rows "vip" "gpt-4" =
      [taggedChannel.ability ("vip", "gpt-4")] := by decide
  rw [rows]
  simp [levelRows, level, descending]

theorem cache_database_agree_iff_tagged :
    ∃ cache, initChannelCache namingEnv (fun _ => none) (singleStore taggedChannel).channels
        (singleStore taggedChannel).abilities.rows = some cache ∧
      Selection.Agrees (getRandomSatisfiedChannel namingEnv cache "vip" "gpt-4" (2 : ℕ))
        (getChannel stableOrder (singleStore taggedChannel) "vip" "gpt-4" (2 : ℕ)) := by
  obtain ⟨cache, built, agree⟩ := cache_database_agree_iff namingEnv stableOrder (fun _ => none)
    (singleStore_mirrored (c := taggedChannel) (by decide)) "vip" "gpt-4" 2
    (by rw [tagged_rows]; decide)
  refine ⟨cache, built, agree.mpr ?_⟩
  unfold sameOffers
  rw [if_neg (by decide), tagged_rows]
  exact .inr (by decide)

def mixedStore : Store :=
  ⟨⟨[weighted 1 0, weighted 2 5], by decide⟩, ⟨[plainAbility 1 0, plainAbility 2 5], by decide⟩⟩

theorem mixedStore_mirrored : mixedStore.Mirrored := by
  have first : channelView.idx (weighted 1 0) = [("default", "gpt-4")] := by decide
  have second : channelView.idx (weighted 2 5) = [("default", "gpt-4")] := by decide
  intro a
  constructor
  · intro ha
    rcases mem_pair.mp ha with rfl | rfl
    · exact ⟨weighted 1 0, by simp [mixedStore, Table.mem_rows], ("default", "gpt-4"),
        by simp [first], rfl⟩
    · exact ⟨weighted 2 5, by simp [mixedStore, Table.mem_rows], ("default", "gpt-4"),
        by simp [second], rfl⟩
  · rintro ⟨c, hc, p, hp, rfl⟩
    rcases mem_pair.mp hc with rfl | rfl
    · rw [first, mem_singleton] at hp
      subst hp
      exact mem_pair.mpr (.inl rfl)
    · rw [second, mem_singleton] at hp
      subst hp
      exact mem_pair.mpr (.inr rfl)

def gizmoChannel : Channel where
  id := 1
  status := .enabled
  models := "gpt-4-gizmo-*"
  group := "default"

/-- The channel of weight 0 comes from the database only, the channel that is listed under the
normalized name from the cache only, and without any channel a retry fails in the database. -/
theorem cache_database_part :
    [(mixedStore, "gpt-4", 0), (singleStore gizmoChannel, "gpt-4-gizmo-abc", 0),
      (singleStore gizmoChannel, "gpt-4", 1)].Forall fun (s, model, retry) =>
      s.Mirrored ∧ ∃ cache,
        initChannelCache namingEnv (fun _ => none) s.channels s.abilities.rows = some cache ∧
        ¬ Selection.Agrees (getRandomSatisfiedChannel namingEnv cache "default" model (retry : ℕ))
          (getChannel stableOrder s "default" model (retry : ℕ)) := by
  have part : ∀ (s : Store) (model : String) (retry : ℕ), s.Mirrored →
      total Ability.share (levelRows (matching s.abilities.rows "default" model) retry) < 2 ^ 63 →
      ¬ sameOffers namingEnv s.abilities.rows "default" model retry →
      s.Mirrored ∧ ∃ cache,
        initChannelCache namingEnv (fun _ => none) s.channels s.abilities.rows = some cache ∧
        ¬ Selection.Agrees (getRandomSatisfiedChannel namingEnv cache "default" model retry)
          (getChannel stableOrder s "default" model retry) := by
    intro s model retry mirrored fits differ
    obtain ⟨cache, built⟩ := mirrored.exists_cache namingEnv fun _ => none
    exact ⟨mirrored, cache, built, fun agrees =>
      differ ((mirrored.agrees_iff built stableOrder fits).mp agrees)⟩
  have gizmo : (singleStore gizmoChannel).Mirrored := singleStore_mirrored (by decide)
  have rows : levelRows (matching mixedStore.abilities.rows "default" "gpt-4") 0 =
      [plainAbility 1 0, plainAbility 2 5] := by
    rw [show matching mixedStore.abilities.rows "default" "gpt-4" =
      [plainAbility 1 0, plainAbility 2 5] by decide]
    simp [levelRows, level, descending, plainAbility]
  refine ⟨part _ _ _ mixedStore_mirrored ?_ ?_, part _ _ _ gizmo ?_ ?_, part _ _ _ gizmo ?_ ?_⟩
  · rw [rows]
    decide
  · rw [sameOffers, if_neg (by decide), rows]
    decide
  all_goals first
    | rw [sameOffers, if_pos (by decide)]
      decide
    | rw [show matching (singleStore gizmoChannel).abilities.rows "default" _ = [] by decide]
      decide

end EastApi.Channels
