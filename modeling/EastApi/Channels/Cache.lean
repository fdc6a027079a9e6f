import EastApi.Channels.Model
import EastApi.Lib.Run
import Mathlib.Data.List.Dedup
import Mathlib.Data.List.Sort

/-! The memory cache of the channels (`model/channel_cache.go`).  `UpdateChannelStatus` changes the
status of a cached channel and is to take a disabled one off the lists: `CacheUpdateChannelStatus`
takes one occurrence off each list, and `handlerMultiKeyUpdate` none. -/

namespace EastApi.Channels

open Go Run List Function Option

/-- What the cache rests on: `common.Unmarshal` of an array of keys, `sort.Slice` by falling rank,
which leaves the order of equal ranks open, and `FormatMatchingModelName`. -/
structure Env where
  parseArray : String → Option (List String)
  sortSlice : (Int → Int) → List Int → List Int
  sort_perm : ∀ rank l, (sortSlice rank l).Perm l
  sort_falling : ∀ rank l, (sortSlice rank l).Pairwise fun i j => rank j ≤ rank i
  formatMatchingModelName : String → String

/-- `map[string]map[string][]int`.  A group without an entry has a nil map. -/
abbrev GroupMap := String → Option (String → List Int)

structure Cache where
  group2model2channels : GroupMap
  channelsIDM : Int → Option Channel

def Cache.listed (cache : Cache) (group model : String) : List Int :=
  ((cache.group2model2channels group).map fun models => models model).getD []

def abilityGroups (abilities : List Ability) : GroupMap := fun group =>
  if group ∈ abilities.map (·.group) then some fun _ => [] else none

/-- `m[group][model] = append(m[group][model], id)`.  `none` is the panic of an assignment into a
nil map. -/
def appendChannel (id : Int) (group : String) (m : GroupMap) (model : String) : Option GroupMap :=
  (m group).map fun models =>
    update m group (some (update models model (models model ++ [id])))

def addChannel (m : GroupMap) (c : Channel) : Option GroupMap :=
  if c.isEnabled then
    c.groups.foldlM (fun m group => c.modelNames.foldlM (appendChannel c.id group) m) m
  else some m

section
variable (env : Env)

def prepareChannel (old : Int → Option Channel) (c : Channel) : Channel :=
  if c.channelInfo.isMultiKey then
    let c := { c with keys := c.getKeys env.parseArray }
    match old c.id with
    | some o =>
      if c.channelInfo.isPolling ∧ o.channelInfo.isMultiKey ∧ o.channelInfo.isPolling then
        { c with channelInfo.multiKeyPollingIndex := o.channelInfo.multiKeyPollingIndex }
      else c
    | none => c
  else c

def sortLists (channels : Table Channel.id) (m : GroupMap) : GroupMap := fun group =>
  (m group).map fun models model =>
    env.sortSlice (fun id => ((channels.find id).map (·.getPriority)).getD 0) (models model)

def initChannelCache (old : Int → Option Channel) (channels : Table Channel.id)
    (abilities : List Ability) : Option Cache :=
  (channels.rows.foldlM addChannel (abilityGroups abilities)).map fun m =>
    { group2model2channels := sortLists env channels m
      channelsIDM := fun id => (channels.find id).map (prepareChannel env old) }

def inconsistent (id : Int) : String :=
  "数据库一致性错误，渠道# " ++ toString id ++ " 不存在，请联系管理员修复"

def pickByWeight (smoothingFactor smoothingAdjustment : Int) :
    List Channel → Int → Except String (Option Channel)
  | [], _ => .error "channel not found"
  | c :: rest, randomWeight =>
    let randomWeight := randomWeight - (c.getWeight * smoothingFactor + smoothingAdjustment)
    if randomWeight < 0 then .ok (some c)
    else pickByWeight smoothingFactor smoothingAdjustment rest randomWeight

def pickChannel (intn : Int → Int) (targets : List Channel) : Except String (Option Channel) :=
  let sumWeight : Int := (targets.map fun c => (c.getWeight : Int)).foldl (· + ·) 0
  let count : Int := targets.length
  if sumWeight = 0 then pickByWeight 1 100 targets (intn (count * 100))
  else if sumWeight.tdiv count < 10 then pickByWeight 100 0 targets (intn (sumWeight * 100))
  else pickByWeight 1 0 targets (intn sumWeight)

def sortedUniquePriorities (channels : List Channel) : List Int :=
  (channels.map (·.getPriority)).dedup.mergeSort fun a b => b ≤ a

def chooseByPriority (group model : String) (retry : Int) (intn : Int → Int)
    (channels : List Channel) : Option (Except String (Option Channel)) :=
  let priorities := sortedUniquePriorities channels
  let count : Int := priorities.length
  let retry := if count ≤ retry then count - 1 else retry
  (if retry < 0 then none else priorities[retry.toNat]?).map fun target =>
    let targets := channels.filter (·.getPriority = target)
    if targets = [] then
      .error ("no channel found, group: " ++ group ++ ", model: " ++ model ++ ", priority: " ++
        toString target)
    else pickChannel intn targets

def Cache.candidates (cache : Cache) (group model : String) : List Int :=
  if cache.listed group model = [] then
    cache.listed group (env.formatMatchingModelName model)
  else cache.listed group model

def getRandomSatisfiedChannel (cache : Cache) (group model : String) (retry : Int)
    (intn : Int → Int) : Option (Except String (Option Channel)) :=
  match cache.candidates env group model with
  | [] => some (.ok none)
  | [id] =>
    match cache.channelsIDM id with
    | some c => some (.ok (some c))
    | none => some (.error (inconsistent id))
  | ids =>
    match ids.find? fun id => (cache.channelsIDM id).isNone with
    | some id => some (.error (inconsistent id))
    | none => chooseByPriority group model retry intn (ids.filterMap cache.channelsIDM)

def cacheUpdateChannelStatus (cache : Cache) (id : Int) (status : ChannelStatus) : Cache where
  channelsIDM := update cache.channelsIDM id
    ((cache.channelsIDM id).map fun c => { c with status := status })
  group2model2channels :=
    if status ≠ .enabled then
      fun group => (cache.group2model2channels group).map fun models model =>
        (models model).erase id
    else cache.group2model2channels

structure StatusCall where
  channelId : Int
  usingKey : String
  status : ChannelStatus
  reason : String
  now : Int

def updateCachedStatus (cache : Cache) (call : StatusCall) : Cache :=
  match cache.channelsIDM call.channelId with
  | none => cache
  | some c =>
    if c.channelInfo.isMultiKey then
      { cache with
        channelsIDM := update cache.channelsIDM call.channelId
          (some (handlerMultiKeyUpdate env.parseArray c call.usingKey call.status call.reason
            call.now)) }
    else if c.status = call.status then cache
    else cacheUpdateChannelStatus cache call.channelId call.status

end

def ListsEnabled (cache : Cache) : Prop :=
  ∀ group model, ∀ id ∈ cache.listed group model,
    ∃ c, cache.channelsIDM id = some c ∧ c.status = .enabled

theorem prepareChannel_status (env : Env) (old : Int → Option Channel) (c : Channel) :
    (prepareChannel env old c).status = c.status := by
  fun_cases prepareChannel env old c <;> rfl

def GroupMap.count (m : GroupMap) (group model : String) (id : Int) : Nat :=
  ((m group).map fun models => (models model).count id).getD 0

variable {id : Int}

theorem count_appendChannel (run : appendChannel id g m mo = some m') (group model : String)
    (i : Int) :
    m'.count group model i =
      m.count group model i + if group = g ∧ model = mo ∧ i = id then 1 else 0 := by
  obtain ⟨models, found, rfl⟩ := map_eq_some_iff.mp run
  unfold GroupMap.count
  by_cases sameGroup : group = g
  · subst sameGroup
    rw [update_self, found]
    by_cases sameModel : model = mo
    · subst sameModel
      by_cases own : i = id
      · simp [own]
      · simp [own, count_eq_zero]
    · simp [sameModel]
  · simp [sameGroup]

theorem count_models {models : List String} (run : models.foldlM (appendChannel id g) m = some m')
    (group model : String) (i : Int) :
    m'.count group model i =
      m.count group model i + if group = g ∧ i = id then models.count model else 0 := by
  induction models generalizing m with
  | nil => cases run; simp
  | cons mo rest ih =>
    rw [foldlM_cons] at run
    obtain ⟨mid, first, run⟩ := bind_eq_some_iff.mp run
    rw [ih run, count_appendChannel first, count_cons]
    by_cases own : group = g ∧ i = id
    · by_cases same : mo = model
      · simp [own.1, own.2, same]
        omega
      · simp [own.1, own.2, same, Ne.symm same]
    · have other : ¬ (group = g ∧ model = mo ∧ i = id) := fun h => own ⟨h.1, h.2.2⟩
      simp [own, other]

theorem count_groups {groups models : List String}
    (run : groups.foldlM (fun m g => models.foldlM (appendChannel id g) m) m = some m')
    (group model : String) (i : Int) :
    m'.count group model i =
      m.count group model i + if i = id then groups.count group * models.count model else 0 := by
  induction groups generalizing m with
  | nil => cases run; simp
  | cons g rest ih =>
    rw [foldlM_cons] at run
    obtain ⟨mid, first, run⟩ := bind_eq_some_iff.mp run
    rw [ih run, count_models first, count_cons]
    by_cases own : i = id
    · by_cases same : g = group
      · simp [own, same, Nat.add_mul]
        omega
      · simp [own, same, Ne.symm same]
    · simp [own]

def Channel.named (c : Channel) (group model : String) : Nat :=
  if c.isEnabled then c.groups.count group * c.modelNames.count model else 0

theorem count_addChannel (run : addChannel m c = some m') (group model : String) (i : Int) :
    m'.count group model i =
      m.count group model i + if i = c.id then c.named group model else 0 := by
  unfold addChannel at run
  split at run
  next enabled =>
    rw [count_groups run]
    simp [Channel.named, enabled]
  next disabled =>
    cases run
    simp [Channel.named, disabled]

theorem count_channels {rows : List Channel} (ids : (rows.map Channel.id).Nodup)
    (run : rows.foldlM addChannel m = some m') (group model : String) (i : Int) :
    m'.count group model i = m.count group model i +
      ((rows.find? (·.id = i)).map fun c => c.named group model).getD 0 := by
  induction rows generalizing m with
  | nil => cases run; simp
  | cons c rest ih =>
    rw [foldlM_cons] at run
    obtain ⟨mid, first, run⟩ := bind_eq_some_iff.mp run
    rw [map_cons, nodup_cons] at ids
    rw [ih ids.2 run, count_addChannel first]
    by_cases own : c.id = i
    · have later : rest.find? (·.id = i) = none :=
        find?_eq_none.mpr fun d hd => by
          simpa using fun same : d.id = i => ids.1 (mem_map.mpr ⟨d, hd, same.trans own.symm⟩)
      simp [own, later]
    · simp [own, Ne.symm own]

section
variable {channels : Table Channel.id}
  (built : initChannelCache env old channels abilities = some cache)
include built

/-- A cache that has been built lists an enabled channel as often as it names the group and the
model, and no other. -/
theorem count_listed (group model : String) (id : Int) :
    (cache.listed group model).count id =
      ((channels.find id).map fun c => c.named group model).getD 0 := by
  obtain ⟨m, run, rfl⟩ := map_eq_some_iff.mp built
  have sorted : ((Cache.mk (sortLists env channels m) fun id =>
      (channels.find id).map (prepareChannel env old)).listed group model).count id =
        m.count group model id := by
    simp only [Cache.listed, sortLists, GroupMap.count]
    cases m group with
    | none => rfl
    | some models => exact (env.sort_perm _ _).count_eq id
  have empty : (abilityGroups abilities).count group model id = 0 := by
    unfold abilityGroups GroupMap.count
    dsimp only
    split <;> rfl
  rw [sorted, count_channels channels.nodup run, empty, Nat.zero_add]
  rfl

theorem ListsEnabled.init : ListsEnabled cache := by
  intro group model id hid
  have listed := count_listed built group model id
  obtain ⟨m, -, rfl⟩ := map_eq_some_iff.mp built
  cases found : channels.find id with
  | none => simp [found, count_eq_zero, hid] at listed
  | some c =>
    refine ⟨prepareChannel env old c, by simp [found], (prepareChannel_status env old c).trans ?_⟩
    by_contra disabled
    simp [found, Channel.named, Channel.isEnabled, disabled, count_eq_zero, hid] at listed

theorem count_listed_le_one
    (once : ∀ c, channels.find id = some c → c.groups.Nodup ∧ c.modelNames.Nodup)
    (group model : String) : (cache.listed group model).count id ≤ 1 := by
  rw [count_listed built]
  cases found : channels.find id with
  | none => simp
  | some c =>
    obtain ⟨groups, models⟩ := once c found
    have both : c.groups.count group * c.modelNames.count model ≤ 1 * 1 :=
      Nat.mul_le_mul (nodup_iff_count_le_one.mp groups group)
        (nodup_iff_count_le_one.mp models model)
    simp only [map_some, getD_some, Channel.named]
    split <;> omega

end

theorem pickByWeight_mem (h : pickByWeight factor adjustment targets r = .ok (some c)) :
    c ∈ targets := by
  induction targets generalizing r with
  | nil => cases h
  | cons t rest ih =>
    unfold pickByWeight at h
    dsimp only at h
    split at h
    · cases h
      exact mem_cons_self
    · exact mem_cons_of_mem _ (ih h)

theorem pickChannel_mem (h : pickChannel intn targets = .ok (some c)) : c ∈ targets := by
  unfold pickChannel at h
  dsimp only at h
  split at h
  · exact pickByWeight_mem h
  · split at h <;> exact pickByWeight_mem h

variable {retry : Int}

theorem chooseByPriority_mem
    (h : chooseByPriority group model retry intn channels = some (.ok (some c))) :
    c ∈ channels := by
  obtain ⟨target, -, h⟩ := map_eq_some_iff.mp h
  dsimp only at h
  split at h
  · contradiction
  · exact mem_of_mem_filter (pickChannel_mem h)

theorem getRandomSatisfiedChannel_listed
    (h : getRandomSatisfiedChannel env cache group model retry intn = some (.ok (some c))) :
    ∃ id ∈ cache.candidates env group model, cache.channelsIDM id = some c := by
  revert h
  fun_cases getRandomSatisfiedChannel env cache group model retry intn <;> intro h <;> try cases h
  next id ids found => exact ⟨id, by simp [ids], found⟩
  next => exact mem_filterMap.mp (chooseByPriority_mem h)

theorem ListsEnabled.chosen (h : ListsEnabled cache)
    (chosen : getRandomSatisfiedChannel env cache group model retry intn = some (.ok (some c))) :
    c.status = .enabled := by
  obtain ⟨id, hid, found⟩ := getRandomSatisfiedChannel_listed chosen
  have listed : ∃ model', id ∈ cache.listed group model' := by
    unfold Cache.candidates at hid
    split at hid
    · exact ⟨_, hid⟩
    · exact ⟨_, hid⟩
  obtain ⟨model', hid⟩ := listed
  obtain ⟨c', found', enabled⟩ := h group model' id hid
  rw [found] at found'
  cases found'
  exact enabled

/-- The call leaves no disabled channel on a list.  A channel with one key that is disabled is on
each list at most once.  A channel with many keys is on no list; or it has no keys and is enabled by
the call; or it is enabled and, of as many keys as it is said to have, one is left without a
status. -/
def keepsLists (env : Env) (cache : Cache) (call : StatusCall) : Prop :=
  ∀ c, cache.channelsIDM call.channelId = some c →
    if c.channelInfo.isMultiKey then
      (if c.getKeys env.parseArray = [] then call.status = .enabled
        else c.status = .enabled ∧ c.channelInfo.statusesAfter
          (keyIndex (c.getKeys env.parseArray) call.usingKey) call.status <
            c.channelInfo.multiKeySize) ∨
        ∀ group model, call.channelId ∉ cache.listed group model
    else c.status ≠ call.status → call.status ≠ .enabled →
      ∀ group model, (cache.listed group model).count call.channelId ≤ 1

theorem handlerMultiKeyUpdate_enabled_iff (c : Channel) (call : StatusCall) :
    (handlerMultiKeyUpdate parseArray c call.usingKey call.status call.reason
      call.now).status = .enabled ↔
      if c.getKeys parseArray = [] then call.status = .enabled
      else c.status = .enabled ∧ c.channelInfo.statusesAfter
        (keyIndex (c.getKeys parseArray) call.usingKey) call.status <
          c.channelInfo.multiKeySize := by
  rw [handlerMultiKeyUpdate_status]
  split
  · rfl
  · split
    next full => simp [Int.not_lt.mpr full]
    next room => simp [Int.not_le.mp room]

/-- Lists that have lost some ids, and a channel that has changed: what is left to show is that the
channel is enabled or listed no more. -/
theorem ListsEnabled.change_iff {cache' : Cache} (h : ListsEnabled cache)
    (lists : ∀ group model, ∀ i ≠ id, i ∈ cache'.listed group model →
      i ∈ cache.listed group model)
    (channels : cache'.channelsIDM = update cache.channelsIDM id (some c)) :
    ListsEnabled cache' ↔ c.status = .enabled ∨ ∀ group model, id ∉ cache'.listed group model := by
  constructor
  · intro h'
    by_cases enabled : c.status = .enabled
    · exact .inl enabled
    · refine .inr fun group model hid => enabled ?_
      obtain ⟨c', found, status⟩ := h' group model id hid
      rw [channels, update_self] at found
      cases found
      exact status
  · intro own group model i hi
    by_cases same : i = id
    · subst same
      rcases own with enabled | gone
      · exact ⟨c, by rw [channels, update_self], enabled⟩
      · exact absurd hi (gone group model)
    · rw [channels, update_of_ne same]
      exact h group model i (lists group model i same hi)

theorem listed_disable (cache : Cache) (id : Int) {status : ChannelStatus}
    (disabled : status ≠ .enabled) (group model : String) :
    (cacheUpdateChannelStatus cache id status).listed group model =
      (cache.listed group model).erase id := by
  unfold Cache.listed cacheUpdateChannelStatus
  dsimp only
  rw [if_pos disabled]
  cases cache.group2model2channels group <;> simp

theorem not_mem_erase_iff {l : List Int} : id ∉ l.erase id ↔ l.count id ≤ 1 := by
  rw [← count_eq_zero, count_erase_self]
  omega

theorem ListsEnabled.step_iff (h : ListsEnabled cache) (call : StatusCall) :
    ListsEnabled (updateCachedStatus env cache call) ↔ keepsLists env cache call := by
  unfold updateCachedStatus keepsLists
  split
  next missing => exact iff_of_true h fun c found => by rw [missing] at found; contradiction
  next c found =>
    have only : ∀ P : Channel → Prop,
        (∀ c', cache.channelsIDM call.channelId = some c' → P c') ↔ P c := by
      intro P
      rw [found]
      exact ⟨fun all => all c rfl, fun hc c' same => by cases same; exact hc⟩
    rw [only]
    split
    · rw [← handlerMultiKeyUpdate_enabled_iff]
      exact h.change_iff (fun _ _ _ _ hi => hi) rfl
    · split
      next same => exact iff_of_true h fun different => absurd same different
      next different =>
        have channels : (cacheUpdateChannelStatus cache call.channelId
            call.status).channelsIDM = update cache.channelsIDM call.channelId
              (some { c with status := call.status }) := by
          simp [cacheUpdateChannelStatus, found]
        by_cases disabled : call.status = .enabled
        · have kept : ListsEnabled (cacheUpdateChannelStatus cache call.channelId call.status) := by
            rw [h.change_iff (fun _ _ _ _ hi => by rw [disabled] at hi; exact hi) channels]
            exact .inl disabled
          exact iff_of_true kept fun _ wrong => absurd disabled wrong
        · rw [h.change_iff (fun _ _ _ _ hi => by
            rw [listed_disable cache call.channelId disabled] at hi
            exact mem_of_mem_erase hi) channels]
          simp only [listed_disable cache call.channelId disabled, not_mem_erase_iff, disabled,
            false_or, ne_eq, not_false_eq_true, different, forall_const]

/-- A cache built from any two tables and any status calls after it, each of which takes the channel
that it disables off the lists: every listed channel is enabled, and so is every channel that is
chosen.  The next call keeps this exactly if it meets the condition too. -/
theorem chosen_channel_enabled {env : Env} {old : Int → Option Channel}
    {channels : Table Channel.id} {abilities : List Ability} {cache : Cache}
    (built : initChannelCache env old channels abilities = some cache) (calls : List StatusCall)
    (s : Cache)
    (run : Path (keepsLists env) (fun s call => some (updateCachedStatus env s call)) cache calls
      s) :
    ListsEnabled s ∧
      (∀ group model retry intn c,
        getRandomSatisfiedChannel env s group model retry intn = some (.ok (some c)) →
          c.status = .enabled) ∧
      ∀ call, ListsEnabled (updateCachedStatus env s call) ↔ keepsLists env s call := by
  have enabled : ListsEnabled s :=
    run.invariant (I := ListsEnabled)
      (fun s call t h ok step => by cases step; exact (h.step_iff call).mpr ok) (.init built)
  exact ⟨enabled, fun _ _ _ _ _ chosen => enabled.chosen chosen, fun call => enabled.step_iff call⟩

def plainEnv : Env where
  parseArray := fun _ => none
  sortSlice := fun rank l => l.insertionSort fun i j => rank j ≤ rank i
  sort_perm := fun _ l => List.perm_insertionSort _ l
  sort_falling := fun rank l => by
    have total : Std.Total fun i j => rank j ≤ rank i := ⟨fun i j => Int.le_total _ _⟩
    have trans : IsTrans Int fun i j => rank j ≤ rank i := ⟨fun i j k h1 h2 => Int.le_trans h2 h1⟩
    exact List.pairwise_insertionSort _ l
  formatMatchingModelName := fun name => name

def defaultChannel (id : Int) (models : String) (key : String) (info : ChannelInfo) : Channel where
  id := id
  key := key
  status := .enabled
  models := models
  group := "default"
  channelInfo := info

def singleCache (c : Channel) : Option Cache :=
  initChannelCache plainEnv (fun _ => none) ⟨[c], by simp⟩ c.newAbilities

def mixedTable : Table Channel.id :=
  ⟨[defaultChannel 1 "gpt-4,gpt-4o" "sk" {},
    defaultChannel 2 "gpt-4" "k1\nk2" { isMultiKey := true, multiKeySize := 2 }], by decide⟩

def mixedCache : Option Cache :=
  initChannelCache plainEnv (fun _ => none) mixedTable
    (mixedTable.rows.flatMap Channel.newAbilities)

def mixedCalls : List StatusCall :=
  [⟨2, "k2", .autoDisabled, "401", 0⟩, ⟨1, "sk", .manuallyDisabled, "off", 0⟩]

/-- A channel with two keys loses one of them, and another channel is disabled. -/
theorem chosen_channel_enabled_once :
    ∃ cache s, mixedCache = some cache ∧
      Path (keepsLists plainEnv) (fun s call => some (updateCachedStatus plainEnv s call)) cache
        mixedCalls s ∧
      ListsEnabled s ∧ s.listed "default" "gpt-4" = [2] := by
  obtain ⟨cache, s, built, path, listed⟩ : ∃ cache s, mixedCache = some cache ∧
      Path (keepsLists plainEnv) (fun s call => some (updateCachedStatus plainEnv s call)) cache
        mixedCalls s ∧ s.listed "default" "gpt-4" = [2] := by
    refine ⟨_, _, rfl, .cons (fun c found => ?_) rfl <| .cons (fun c found => ?_) rfl <| .nil _,
      by decide⟩
    · cases found
      exact .inl (by decide)
    · cases found
      exact fun _ _ group model => count_listed_le_one (show mixedCache = some _ from rfl)
        (fun c found => by cases found; decide) group model
  exact ⟨cache, s, built, path, (chosen_channel_enabled built _ _ path).1, listed⟩

/-- A channel that names a model twice is on the list of it twice and is still chosen after it was
disabled.  A channel whose only key was disabled is chosen as well, and with the status
`autoDisabled`. -/
theorem disabled_channel_chosen :
    ∃ twice keyed,
      singleCache (defaultChannel 1 "gpt-4,gpt-4" "sk" {}) = some twice ∧
      singleCache (defaultChannel 2 "gpt-4" "k" { isMultiKey := true, multiKeySize := 1 }) =
        some keyed ∧
      ((getRandomSatisfiedChannel plainEnv
          (updateCachedStatus plainEnv twice ⟨1, "sk", .manuallyDisabled, "off", 0⟩)
          "default" "gpt-4" 0 fun _ => 0).map fun r => r.toOption.map fun c => c.map (·.status)) =
        some (some (some .manuallyDisabled)) ∧
      ((getRandomSatisfiedChannel plainEnv
          (updateCachedStatus plainEnv keyed ⟨2, "k", .autoDisabled, "401", 0⟩)
          "default" "gpt-4" 0 fun _ => 0).map fun r => r.toOption.map fun c => c.map (·.status)) =
        some (some (some .autoDisabled)) := by
  exact ⟨_, _, rfl, rfl, by decide, by decide⟩

end EastApi.Channels
