import EastApi.AsyncTask.Submit
import EastApi.Channels.Agreement
import EastApi.Lib.Retrying

/-! The retry loop of `Relay` with the selection of a channel for each attempt.  A token of the
group `auto` goes through the auto groups of its user: the index of the current group is kept in the
context, and the retry counter, which selects the priority inside a group, in a `RetryParam`. -/

namespace EastApi.Relay

open Channels Go Option

structure RetryParam where
  (tokenGroup modelName : String)
  retry : Option ℕ := none
  resetNextTry : Bool := false

namespace RetryParam

def getRetry (p : RetryParam) : ℕ := p.retry.getD 0

def setRetry (p : RetryParam) (retry : ℕ) : RetryParam := { p with retry := some retry }

def increaseRetry (p : RetryParam) : RetryParam :=
  if p.resetNextTry then { p with resetNextTry := false }
  else { p with retry := some (p.getRetry + 1) }

def resetRetryNextTry (p : RetryParam) : RetryParam := { p with resetNextTry := true }

variable (p : RetryParam)

@[simp] theorem increaseRetry_tokenGroup : p.increaseRetry.tokenGroup = p.tokenGroup := by
  unfold increaseRetry
  split <;> rfl

@[simp] theorem increaseRetry_modelName : p.increaseRetry.modelName = p.modelName := by
  unfold increaseRetry
  split <;> rfl

@[simp] theorem increaseRetry_resetNextTry : p.increaseRetry.resetNextTry = false := by
  unfold increaseRetry
  split
  · rfl
  next kept => exact Bool.not_eq_true _ ▸ kept

theorem getRetry_increaseRetry (ready : p.resetNextTry = false) :
    p.increaseRetry.getRetry = p.getRetry + 1 := by
  rw [increaseRetry, ready]
  rfl

end RetryParam

/-- The settings that the selection of a channel and the decision about a retry depend on.
`usable` tells whether `GetUserUsableGroups` of the first group has the second. -/
structure Config where
  retryTimes : ℕ
  autoGroups : List String
  usable : String → String → Bool
  retryRanges : List (Int × Int) :=
    [(100, 199), (300, 399), (401, 407), (409, 499), (500, 503), (505, 523), (525, 599)]
  pricing : AsyncTask.Submit.Settings
  channels : Channels.Env

/-- The keys of the request context that the loop reads and writes.  `channel` stands for those that
`SetupContextForSelectedChannel` writes. -/
structure Context where
  (userGroup usingGroup : String)
  crossGroupRetry : Bool
  specificChannelId : Bool := false
  affinitySkipRetry : Bool := false
  autoGroup : Option String := none
  autoGroupIndex : Option ℕ := none
  channel : Option Channel := none

def Context.channelId (c : Context) : Int := (c.channel.map (·.id)).getD 0

section
variable (cfg : Config)

def getUserAutoGroup (userGroup : String) : List String :=
  cfg.autoGroups.filter (cfg.usable userGroup)

def lookup (env : Channels.Env) (cache : Cache) (intn : Int → Int) (model group : String)
    (retry : ℕ) : Except String (Option Channel) :=
  (getRandomSatisfiedChannel env cache group model retry intn).get
    (getRandomSatisfiedChannel_isSome env cache group model retry intn)

structure Search where
  found : Option (Channel × String)
  context : Context
  param : RetryParam

def priorityRetry (start : ℕ) (p : RetryParam) (i : ℕ) : ℕ := if start < i then 0 else p.getRetry

/-- The loop over the auto groups, from the one with the index `i` on.  An error of a lookup is
ignored like a missing channel. -/
def searchGroups (retryTimes : ℕ) (find : String → ℕ → Except String (Option Channel))
    (start : ℕ) : List String → ℕ → Context → RetryParam → Search
  | [], _, c, p => ⟨none, c, p⟩
  | group :: rest, i, c, p =>
    match find group (priorityRetry start p i) with
    | .ok (some channel) =>
      let c := { c with autoGroup := some group }
      if c.crossGroupRetry ∧ retryTimes ≤ priorityRetry start p i then
        ⟨some (channel, group), { c with autoGroupIndex := some (i + 1) },
          (p.setRetry 0).resetRetryNextTry⟩
      else ⟨some (channel, group), { c with autoGroupIndex := some i }, p⟩
    | _ =>
      searchGroups retryTimes find start rest (i + 1) { c with autoGroupIndex := some (i + 1) }
        (p.setRetry 0)

structure Selected where
  channel : Except String (Option Channel)
  selectGroup : String
  context : Context
  param : RetryParam

def cacheGetRandomSatisfiedChannel (find : String → ℕ → Except String (Option Channel))
    (c : Context) (p : RetryParam) : Selected :=
  if p.tokenGroup = "auto" then
    if cfg.autoGroups = [] then ⟨.error "auto groups is not enabled", p.tokenGroup, c, p⟩
    else
      let start := c.autoGroupIndex.getD 0
      let search := searchGroups cfg.retryTimes find start
        ((getUserAutoGroup cfg c.userGroup).drop start) start c p
      ⟨.ok (search.found.map Prod.fst), (search.found.map Prod.snd).getD p.tokenGroup,
        search.context, search.param⟩
  else ⟨find p.tokenGroup p.getRetry, p.tokenGroup, c, p⟩

/-- `NewAPIError`, as far as the retries depend on it.  `message` is its text, `openAIMessage` the
one that a client gets. -/
structure ApiError where
  errorCode : String
  statusCode : Int
  skipRetry : Bool := false
  message : String := ""
  openAIMessage : String := ""

def hasCSAMViolationMarker (e : ApiError) : Bool :=
  contains e.message "Failed check: SAFETY_CHECK_TYPE" ||
    contains e.message "Content violates usage guidelines" ||
    contains e.openAIMessage "Failed check: SAFETY_CHECK_TYPE"

def normalizeViolationFeeError (e : ApiError) : ApiError :=
  if hasCSAMViolationMarker e then
    { e with
      errorCode := "violation_fee.grok.csam", skipRetry := true, message := e.openAIMessage }
  else if hasPrefix e.errorCode "violation_fee." then
    { e with skipRetry := true, message := e.openAIMessage }
  else e

def isChannelError (e : ApiError) : Bool := hasPrefix e.errorCode "channel:"

def matchRanges (code : Int) : List (Int × Int) → Bool
  | [] => false
  | (first, last) :: rest =>
    if code < first then false else if code ≤ last then true else matchRanges code rest

def shouldRetryByStatusCode (code : Int) : Bool :=
  if code = 504 ∨ code = 524 then false
  else if code < 100 ∨ 599 < code then false
  else matchRanges code cfg.retryRanges

def shouldRetry (c : Context) (openaiErr : Option ApiError) (retryTimes : Int) : Bool :=
  match openaiErr with
  | none => false
  | some e =>
    if c.affinitySkipRetry then false
    else if isChannelError e then true
    else if e.skipRetry then false
    else if retryTimes ≤ 0 then false
    else if c.specificChannelId then false
    else if 200 ≤ e.statusCode ∧ e.statusCode < 300 then false
    else if e.statusCode < 100 ∨ 599 < e.statusCode then true
    else if e.errorCode = "bad_response_body" then false
    else shouldRetryByStatusCode cfg e.statusCode

/-- What a pass of the loop meets: the channel cache and the random numbers of its selection, the
error of `GetNextEnabledKey`, that of reading the body, and the error that the attempt ends with. -/
structure Attempt where
  cache : Cache
  intn : Int → Int
  keyError : Option ApiError := none
  bodyError : Option ApiError := none
  answer : Option ApiError := none

/-- The state of the loop.  `channelMeta` tells whether `info.ChannelMeta` is set. -/
structure Loop where
  context : Context
  param : RetryParam
  info : AsyncTask.Submit.RelayInfo
  channelMeta : Bool := false
  useChannel : List Int := []

def getChannelFailed (message : String) : ApiError :=
  { errorCode := "get_channel_failed", statusCode := 500, skipRetry := true, message := message
    openAIMessage := message }

/-- `getChannel` of the relay controller, from the selected channel on: the error, if there is one,
and the state. -/
def useSelected (a : Attempt) (selected : Selected) (s : Loop) : Option ApiError × Loop :=
  let (groupRatioInfo, info) :=
    AsyncTask.Submit.handleGroupRatio cfg.pricing selected.context.autoGroup s.info
  let s := { s with
    context := selected.context, param := selected.param
    info := { info with priceData.groupRatioInfo := groupRatioInfo } }
  match selected.channel with
  | .error e =>
    (some (getChannelFailed ("获取分组 " ++ selected.selectGroup ++ " 下模型 " ++
      s.info.originModelName ++ " 的可用渠道失败（retry）: " ++ e)), s)
  | .ok none =>
    (some (getChannelFailed ("分组 " ++ selected.selectGroup ++ " 下模型 " ++
      s.info.originModelName ++ " 的可用渠道不存在（retry）")), s)
  | .ok (some channel) =>
    match a.keyError with
    | some e => (some e, s)
    | none => (none, { s with context.channel := some channel })

def getChannel (a : Attempt) (s : Loop) : Option ApiError × Loop :=
  if s.channelMeta then
    useSelected cfg a (cacheGetRandomSatisfiedChannel cfg
      (lookup cfg.channels a.cache a.intn s.param.modelName) s.context s.param) s
  else (none, s)

/-- The body of the loop.  Every relay helper begins with `InitChannelMeta`. -/
def pass (a : Attempt) (s : Loop) : Retrying.Turn Loop :=
  match getChannel cfg a s with
  | (some _, s) => .stop s
  | (none, s) =>
    let s := { s with useChannel := s.useChannel ++ [s.context.channelId] }
    match a.bodyError with
    | some _ => .stop s
    | none =>
      let s := { s with channelMeta := true }
      match a.answer with
      | none => .last s
      | some e =>
        if shouldRetry cfg s.context (some (normalizeViolationFeeError e))
            (cfg.retryTimes - s.param.getRetry) then .again s
        else .last s

def relay : List Attempt → Loop → Retrying.Outcome Loop :=
  Retrying.run (fun s => decide (s.param.getRetry ≤ cfg.retryTimes)) (pass cfg)
    fun s => { s with param := s.param.increaseRetry }

def enter (c : Context) (tokenGroup : String) (info : AsyncTask.Submit.RelayInfo) : Loop :=
  let (groupRatioInfo, info) := AsyncTask.Submit.handleGroupRatio cfg.pricing c.autoGroup info
  { context := c
    param := { tokenGroup, modelName := info.originModelName, retry := some 0 }
    info := { info with priceData.groupRatioInfo := groupRatioInfo } }

/-- What `Distribute` decides with.  `specific` is the channel that the token names, `preferred` the
cached channel that the affinity of the request prefers, and `skipRetry` the setting of the affinity
rule that the request matches. -/
structure Distribution where
  (userGroup usingGroup : String)
  crossGroupRetry : Bool
  modelName : String
  specific : Option Channel := none
  preferred : Option Channel := none
  skipRetry : Bool := false
  cache : Cache
  intn : Int → Int

def Distribution.context (d : Distribution) : Context where
  userGroup := d.userGroup
  usingGroup := d.usingGroup
  crossGroupRetry := d.crossGroupRetry
  specificChannelId := d.specific.isSome
  affinitySkipRetry := d.specific.isNone && d.skipRetry

def isChannelEnabledForGroupModel (env : Channels.Env) (cache : Cache) (group model : String)
    (id : Int) : Bool :=
  if group = "" ∨ model = "" ∨ id ≤ 0 then false
  else if id ∈ cache.listed group model then true
  else
    let normalized := env.formatMatchingModelName model
    if normalized ≠ "" ∧ normalized ≠ model then decide (id ∈ cache.listed group normalized)
    else false

def Distribution.param (d : Distribution) : RetryParam where
  tokenGroup := d.usingGroup
  modelName := d.modelName
  retry := some 0

def Distribution.select (d : Distribution) : Option Context :=
  let selected := cacheGetRandomSatisfiedChannel cfg
    (lookup cfg.channels d.cache d.intn d.modelName) d.context d.param
  match selected.channel with
  | .ok (some channel) => some { selected.context with channel := some channel }
  | _ => none

def Distribution.affinityGroup (d : Distribution) (preferred : Channel) : Option String :=
  (if d.usingGroup = "auto" then getUserAutoGroup cfg d.userGroup else [d.usingGroup]).find?
    fun g => isChannelEnabledForGroupModel cfg.channels d.cache g d.modelName preferred.id

/-- `Distribute`: the context that the request goes on with, unless it is aborted.  An error of
`SetupContextForSelectedChannel` is ignored here. -/
def distribute (d : Distribution) : Option Context :=
  match d.specific with
  | some channel =>
    if channel.isEnabled then some { d.context with channel := some channel } else none
  | none =>
    if d.modelName = "" then none
    else
      match d.preferred with
      | none => d.select cfg
      | some preferred =>
        if preferred.isEnabled then
          match d.affinityGroup cfg preferred with
          | some g =>
            some { d.context with
              autoGroup := if d.usingGroup = "auto" then some g else none
              channel := some preferred }
          | none => d.select cfg
        else if d.skipRetry then none
        else d.select cfg

def genRelayInfo (c : Context) (userId : Int) (modelName : String) :
    AsyncTask.Submit.RelayInfo where
  userId := userId
  userGroup := c.userGroup
  usingGroup := c.usingGroup
  originModelName := modelName

def serve (d : Distribution) (userId : Int) (world : List Attempt) : List Loop :=
  match distribute cfg d with
  | some c =>
    (relay cfg world (enter cfg c d.usingGroup (genRelayInfo c userId d.modelName))).attempts
  | none => []

end

theorem priorityRetry_setRetry (later : start < i) :
    priorityRetry start (p.setRetry 0) i = priorityRetry start p i := by
  rw [priorityRetry, priorityRetry, if_pos later, if_pos later]

/-- A search ends at the first group whose lookup gives a channel.  It moves on to the next group
if the retries of that group are used up. -/
theorem searchGroups_found (from_start : start ≤ i)
    (found : (searchGroups retryTimes find start l i c p).found = some (channel, group)) :
    ∃ k, l[k]? = some group ∧
      find group (priorityRetry start p (i + k)) = .ok (some channel) ∧
      (∀ j g, j < k → l[j]? = some g →
        ∀ ch, find g (priorityRetry start p (i + j)) ≠ .ok (some ch)) ∧
      searchGroups retryTimes find start l i c p =
        ⟨some (channel, group),
          { c with
            autoGroup := some group
            autoGroupIndex := some
              (if c.crossGroupRetry ∧ retryTimes ≤ priorityRetry start p (i + k) then i + k + 1
                else i + k) },
          if c.crossGroupRetry ∧ retryTimes ≤ priorityRetry start p (i + k) then
            (p.setRetry 0).resetRetryNextTry
          else if k = 0 then p else p.setRetry 0⟩ := by
  induction l generalizing i c p with
  | nil => cases found
  | cons g rest ih =>
    unfold searchGroups at found ⊢
    dsimp only at found ⊢
    split at found
    next ch hit =>
      have same : ch = channel ∧ g = group := by
        split at found <;> simpa using found
      obtain ⟨rfl, rfl⟩ := same
      refine ⟨0, rfl, hit, fun j _ lt => absurd lt (Nat.not_lt_zero j), ?_⟩
      simp only [Nat.add_zero, if_true]
      split <;> rfl
    next miss =>
      obtain ⟨k, here, hit, before, result⟩ := ih (by omega) found
      have shift : i + 1 + k = i + (k + 1) := by omega
      rw [priorityRetry_setRetry (by omega), shift] at hit
      refine ⟨k + 1, here, hit, ?_, ?_⟩
      · intro j g' lt at_j ch
        cases j with
        | zero =>
          obtain rfl : g = g' := by simpa using at_j
          exact miss ch
        | succ j =>
          have := before j g' (by omega) (by simpa using at_j) ch
          rwa [priorityRetry_setRetry (by omega), show i + 1 + j = i + (j + 1) by omega] at this
      · rw [result, priorityRetry_setRetry (by omega), shift]
        simp [RetryParam.setRetry]

theorem searchGroups_none (from_start : start ≤ i)
    (none : (searchGroups retryTimes find start l i c p).found = none) (listed : l[j]? = some g)
    (ch : Channel) : find g (priorityRetry start p (i + j)) ≠ .ok (some ch) := by
  induction l generalizing i c p j with
  | nil => simp at listed
  | cons g' rest ih =>
    unfold searchGroups at none
    dsimp only at none
    split at none
    · split at none <;> cases none
    next miss =>
      cases j with
      | zero =>
        obtain rfl : g' = g := by simpa using listed
        exact miss ch
      | succ j =>
        have := ih (by omega) none (by simpa using listed)
        rwa [priorityRetry_setRetry (by omega), show i + 1 + j = i + (j + 1) by omega] at this

theorem searchGroups_index (stored : c.autoGroupIndex = some j) (below : j ≤ i) :
    ∃ j', (searchGroups retryTimes find start l i c p).context.autoGroupIndex = some j' ∧
      j ≤ j' := by
  induction l generalizing i c p j with
  | nil => exact ⟨j, stored, le_rfl⟩
  | cons g rest ih =>
    unfold searchGroups
    dsimp only
    split
    · split
      · exact ⟨i + 1, rfl, by omega⟩
      · exact ⟨i, rfl, below⟩
    · obtain ⟨j', after, above⟩ := ih (c := { c with autoGroupIndex := some (i + 1) }) rfl le_rfl
      exact ⟨j', after, by omega⟩

namespace Loop

def index (s : Loop) : ℕ := s.context.autoGroupIndex.getD 0

def retryAt (s : Loop) (k : ℕ) : ℕ := if k = 0 then s.param.getRetry else 0

/-- A selection from the `k`-th group uses up its retries. -/
abbrev Exhausts (cfg : Config) (s : Loop) (k : ℕ) : Prop :=
  s.context.crossGroupRetry = true ∧ cfg.retryTimes ≤ s.retryAt k

def attempted (s : Loop) : Loop :=
  { s with useChannel := s.useChannel ++ [s.context.channelId], channelMeta := true }

end Loop

def groupRatio (cfg : Config) (userGroup group : String) : AsyncTask.Submit.GroupRatioInfo :=
  match cfg.pricing.getGroupGroupRatio userGroup group with
  | some ratio => ⟨ratio, ratio, true⟩
  | none => { groupRatio := cfg.pricing.getGroupRatio group }

theorem handleGroupRatio_auto (cfg : Config) (group : String) (info : AsyncTask.Submit.RelayInfo) :
    AsyncTask.Submit.handleGroupRatio cfg.pricing (some group) info =
      (groupRatio cfg info.userGroup group, { info with usingGroup := group }) := by
  unfold AsyncTask.Submit.handleGroupRatio groupRatio
  dsimp only [getD_some]
  cases cfg.pricing.getGroupGroupRatio info.userGroup group with
  | some ratio => rfl
  | none => rfl

/-- From `s` a selection takes a channel from the `k`-th group, whose name is `group`, and leaves
`t`. -/
structure Selects (cfg : Config) (a : Attempt) (s t : Loop) (k : ℕ) (group : String)
    (channel : Channel) : Prop where
  listed : (getUserAutoGroup cfg s.context.userGroup)[s.index + k]? = some group
  hit : lookup cfg.channels a.cache a.intn s.param.modelName group (s.retryAt k) =
    .ok (some channel)
  before : ∀ j g, j < k → (getUserAutoGroup cfg s.context.userGroup)[s.index + j]? = some g →
    ∀ ch, lookup cfg.channels a.cache a.intn s.param.modelName g (s.retryAt j) ≠ .ok (some ch)
  state : t = { s with
    context := { s.context with
      autoGroup := some group
      autoGroupIndex := some (if s.Exhausts cfg k then s.index + k + 1 else s.index + k)
      channel := some channel }
    param := if s.Exhausts cfg k then (s.param.setRetry 0).resetRetryNextTry
      else if k = 0 then s.param else s.param.setRetry 0
    info := { s.info with
      usingGroup := group
      priceData.groupRatioInfo := groupRatio cfg s.info.userGroup group } }

section
variable {cfg : Config} {a : Attempt} {s t : Loop}

variable {channel : Channel}

theorem Selects.param_eq (sel : Selects cfg a s t k group channel) :
    t.param = if s.Exhausts cfg k then (s.param.setRetry 0).resetRetryNextTry
      else if k = 0 then s.param else s.param.setRetry 0 := by
  conv_lhs => rw [sel.state]

theorem Selects.keeps (sel : Selects cfg a s t k group channel) :
    t.param.tokenGroup = s.param.tokenGroup ∧ t.param.modelName = s.param.modelName := by
  rw [sel.param_eq]
  split
  · exact ⟨rfl, rfl⟩
  · split <;> exact ⟨rfl, rfl⟩

theorem getChannel_first (first : s.channelMeta = false) : getChannel cfg a s = (none, s) := by
  rw [getChannel, first]
  rfl

theorem useSelected_none (h : useSelected cfg a selected s = (none, t)) :
    ∃ channel, selected.channel = .ok (some channel) ∧
      t = { s with
        context := { selected.context with channel := some channel }
        param := selected.param
        info := {
          (AsyncTask.Submit.handleGroupRatio cfg.pricing selected.context.autoGroup s.info).2 with
          priceData.groupRatioInfo := (AsyncTask.Submit.handleGroupRatio cfg.pricing
            selected.context.autoGroup s.info).1 } } := by
  revert h
  fun_cases useSelected cfg a selected s <;> intro h <;> cases h
  next ratio _ channel chosen _ => exact ⟨channel, chosen, by rw [ratio]⟩

theorem priorityRetry_index (k : ℕ) :
    priorityRetry s.index s.param (s.index + k) = s.retryAt k := by
  unfold priorityRetry Loop.retryAt
  split <;> split <;> first | rfl | omega

theorem getChannel_selects (later : s.channelMeta = true) (auto : s.param.tokenGroup = "auto")
    (h : getChannel cfg a s = (none, t)) :
    ∃ k group channel, Selects cfg a s t k group channel := by
  rw [getChannel, if_pos later] at h
  obtain ⟨channel, chosen, rfl⟩ := useSelected_none h
  unfold cacheGetRandomSatisfiedChannel at chosen ⊢
  simp only [if_pos auto] at chosen ⊢
  split at chosen
  · cases chosen
  next enabled =>
    obtain ⟨⟨ch, group⟩, found, rfl⟩ := map_eq_some_iff.mp (Except.ok.inj chosen)
    rw [← Loop.index] at found
    obtain ⟨k, listed, hit, before, result⟩ := searchGroups_found le_rfl found
    rw [List.getElem?_drop] at listed
    refine ⟨k, group, ch, listed, ?_, ?_, ?_⟩
    · rw [← priorityRetry_index]
      exact hit
    · intro j g lt at_j
      rw [← priorityRetry_index]
      exact before j g lt (by rwa [List.getElem?_drop])
    · rw [if_neg enabled, ← Loop.index, result]
      simp only [priorityRetry_index, handleGroupRatio_auto]

theorem exists_getChannel (later : s.channelMeta = true) (auto : s.param.tokenGroup = "auto")
    (key : a.keyError = none)
    (listed : (getUserAutoGroup cfg s.context.userGroup)[s.index + j]? = some g)
    (hit : lookup cfg.channels a.cache a.intn s.param.modelName g (s.retryAt j) =
      .ok (some ch)) : ∃ t, getChannel cfg a s = (none, t) := by
  have enabled : cfg.autoGroups ≠ [] := by
    intro none
    simp [getUserAutoGroup, none] at listed
  rw [getChannel, if_pos later, cacheGetRandomSatisfiedChannel, if_pos auto, if_neg enabled]
  dsimp only
  cases found : (searchGroups cfg.retryTimes (lookup cfg.channels a.cache a.intn s.param.modelName)
      (s.context.autoGroupIndex.getD 0)
      ((getUserAutoGroup cfg s.context.userGroup).drop (s.context.autoGroupIndex.getD 0))
      (s.context.autoGroupIndex.getD 0) s.context s.param).found with
  | none =>
    rw [← List.getElem?_drop] at listed
    have miss := searchGroups_none le_rfl found listed ch
    rw [← Loop.index, priorityRetry_index] at miss
    exact absurd hit miss
  | some pair => exact ⟨_, Prod.ext (by simp [useSelected, key]) rfl⟩

/-- A pass ends the loop without a channel or a body; otherwise it makes an attempt with the channel
it got, and goes on if the error is retried. -/
theorem pass_spec (cfg : Config) (a : Attempt) (s : Loop) :
    (∃ e u, getChannel cfg a s = (some e, u) ∧ pass cfg a s = .stop u) ∨
    ∃ u, getChannel cfg a s = (none, u) ∧
      ((∃ t, pass cfg a s = .stop t ∧ t.context = u.context) ∨
        pass cfg a s = .last u.attempted ∨
        pass cfg a s = .again u.attempted ∧
          ∃ e n, shouldRetry cfg u.context (some e) n = true) := by
  unfold pass
  rcases getChannel cfg a s with ⟨_ | e, u⟩
  · refine Or.inr ⟨u, rfl, ?_⟩
    dsimp only
    cases a.bodyError with
    | some e => exact Or.inl ⟨_, rfl, rfl⟩
    | none =>
      cases a.answer with
      | none => exact Or.inr (Or.inl rfl)
      | some e =>
        dsimp only
        split
        next retried => exact Or.inr (Or.inr ⟨rfl, _, _, retried⟩)
        · exact Or.inr (Or.inl rfl)
  · exact Or.inl ⟨e, u, rfl, rfl⟩

theorem pass_attempt (h : pass cfg a s = .again t ∨ pass cfg a s = .last t) :
    ∃ u, getChannel cfg a s = (none, u) ∧ t = u.attempted := by
  rcases pass_spec cfg a s with
    ⟨_, _, _, stop⟩ | ⟨u, got, ⟨_, stop, _⟩ | last | ⟨again, _⟩⟩
  · simp [stop] at h
  · simp [stop] at h
  · exact ⟨u, got, by simpa [last, eq_comm] using h⟩
  · exact ⟨u, got, by simpa [again, eq_comm] using h⟩

theorem pass_again (got : getChannel cfg a s = (none, u)) (body : a.bodyError = none)
    (answer : a.answer = some e)
    (retry : shouldRetry cfg u.context (some (normalizeViolationFeeError e))
      (cfg.retryTimes - u.param.getRetry) = true) : pass cfg a s = .again u.attempted := by
  simp [pass, got, body, answer, retry, Loop.attempted]

theorem pass_retried (h : pass cfg a s = .again t) :
    ∃ e n, shouldRetry cfg t.context (some e) n = true := by
  rcases pass_spec cfg a s with
    ⟨_, _, _, stop⟩ | ⟨u, _, ⟨_, stop, _⟩ | last | ⟨again, retried⟩⟩
  · simp [stop] at h
  · simp [stop] at h
  · simp [last] at h
  · obtain rfl := Retrying.Turn.again.inj (again.symm.trans h)
    exact retried

theorem pass_stop (none : ∀ t, getChannel cfg a s ≠ (none, t)) : ∃ t, pass cfg a s = .stop t := by
  rcases pass_spec cfg a s with ⟨_, u, _, stop⟩ | ⟨u, got, _⟩
  · exact ⟨u, stop⟩
  · exact absurd got (none u)

def IndexUp (s t : Loop) : Prop :=
  ∀ i, s.context.autoGroupIndex = some i → ∃ j, t.context.autoGroupIndex = some j ∧ i ≤ j

theorem IndexUp.refl (s : Loop) : IndexUp s s := fun i h => ⟨i, h, le_rfl⟩

theorem IndexUp.trans (first : IndexUp s t) (second : IndexUp t u) : IndexUp s u := by
  intro i h
  obtain ⟨j, hj, le⟩ := first i h
  obtain ⟨k, hk, le'⟩ := second j hj
  exact ⟨k, hk, le.trans le'⟩

theorem getChannel_index : IndexUp s (getChannel cfg a s).2 := by
  unfold getChannel
  split
  · intro i stored
    have kept : ∀ selected, (useSelected cfg a selected s).2.context.autoGroupIndex =
        selected.context.autoGroupIndex := by
      intro selected
      unfold useSelected
      dsimp only
      split
      · rfl
      · rfl
      · split <;> rfl
    rw [kept]
    unfold cacheGetRandomSatisfiedChannel
    split
    · split
      · exact ⟨i, stored, le_rfl⟩
      · exact searchGroups_index stored (by rw [stored]; exact le_rfl)
    · exact ⟨i, stored, le_rfl⟩
  · exact IndexUp.refl s

theorem pass_index (h : pass cfg a s = .again t ∨ pass cfg a s = .last t ∨ pass cfg a s = .stop t) :
    IndexUp s t := by
  have up : IndexUp s (getChannel cfg a s).2 := getChannel_index
  have same : t.context = (getChannel cfg a s).2.context := by
    rcases pass_spec cfg a s with
      ⟨_, u, got, stop⟩ | ⟨u, got, ⟨_, stop, kept⟩ | last | ⟨again, _⟩⟩
    · obtain rfl : u = t := by simpa [stop] using h
      rw [got]
    · obtain rfl : _ = t := by simpa [stop] using h
      rw [got, kept]
    · obtain rfl : _ = t := by simpa [last] using h
      rw [got]
      rfl
    · obtain rfl : _ = t := by simpa [again] using h
      rw [got]
      rfl
  intro i stored
  rw [same]
  exact up i stored

end

section
variable {cfg : Config} {d : Distribution}

theorem priorityRetry_param (i : ℕ) : priorityRetry 0 d.param i = 0 := by
  unfold priorityRetry
  split <;> rfl

theorem select_found (auto : d.usingGroup = "auto") (h : d.select cfg = some c) :
    ∃ k group channel, (getUserAutoGroup cfg d.userGroup)[k]? = some group ∧
      lookup cfg.channels d.cache d.intn d.modelName group 0 = .ok (some channel) ∧
      (∀ j g, j < k → (getUserAutoGroup cfg d.userGroup)[j]? = some g →
        ∀ ch, lookup cfg.channels d.cache d.intn d.modelName g 0 ≠ .ok (some ch)) ∧
      c = { d.context with
        autoGroup := some group
        autoGroupIndex := some
          (if d.crossGroupRetry = true ∧ cfg.retryTimes ≤ 0 then k + 1 else k)
        channel := some channel } := by
  unfold Distribution.select cacheGetRandomSatisfiedChannel at h
  dsimp only at h
  rw [if_pos (show d.param.tokenGroup = "auto" from auto)] at h
  split at h
  next channel chosen =>
    split at chosen
    · cases chosen
    next enabled =>
      rw [if_neg enabled] at h
      obtain ⟨⟨ch, group⟩, found, rfl⟩ := map_eq_some_iff.mp (Except.ok.inj chosen)
      obtain ⟨k, listed, hit, before, result⟩ := searchGroups_found le_rfl found
      have start : d.context.autoGroupIndex.getD 0 = 0 := rfl
      rw [result] at h
      simp only [start, Nat.zero_add, priorityRetry_param, List.drop_zero] at listed hit before h
      exact ⟨k, group, ch, listed, hit, before, (some.inj h).symm⟩
  · cases h

theorem select_none (auto : d.usingGroup = "auto") (h : d.select cfg = none) {j : ℕ}
    (listed : (getUserAutoGroup cfg d.userGroup)[j]? = some g) (ch : Channel) :
    lookup cfg.channels d.cache d.intn d.modelName g 0 ≠ .ok (some ch) := by
  have enabled : cfg.autoGroups ≠ [] := by
    intro none
    simp [getUserAutoGroup, none] at listed
  unfold Distribution.select cacheGetRandomSatisfiedChannel at h
  dsimp only at h
  rw [if_pos (show d.param.tokenGroup = "auto" from auto), if_neg enabled] at h
  split at h
  · cases h
  next miss =>
    have none : (searchGroups cfg.retryTimes (lookup cfg.channels d.cache d.intn d.modelName) 0
        (getUserAutoGroup cfg d.userGroup) 0 d.context d.param).found = none := by
      by_contra some_pair
      obtain ⟨pair, found⟩ := ne_none_iff_exists'.mp some_pair
      exact miss pair.1 (congrArg (fun o => Except.ok (o.map Prod.fst)) found)
    have fails := searchGroups_none le_rfl none listed ch
    rwa [priorityRetry_param] at fails

end

end EastApi.Relay
