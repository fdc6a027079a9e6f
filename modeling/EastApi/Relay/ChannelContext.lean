import EastApi.Relay.Retry

/-! What the selected channel leaves in the request context (`SetupContextForSelectedChannel`) and
what an attempt reads from it (`InitChannelMeta` and the adaptors).  Some of the keys are written
for some channels only; they keep the value of the last channel that has written them, and every
later attempt of the request reads it. -/

namespace EastApi.Relay

open Channels List

namespace ChannelType

def azure : Int := 3
def ali : Int := 17
def xunfei : Int := 18
def gemini : Int := 24
def cloudflare : Int := 39
def vertexAi : Int := 41
def mokaAI : Int := 44
def coze : Int := 49

end ChannelType

def apiTypes : List (Int × Int) :=
  [(1, 0), (14, 1), (11, 2), (15, 3), (16, 4), (17, 5), (18, 6), (21, 7), (23, 8), (24, 9),
    (26, 10), (4, 11), (27, 12), (33, 13), (34, 14), (37, 15), (38, 16), (39, 17), (40, 18),
    (41, 19), (42, 20), (43, 21), (44, 22), (45, 23), (46, 24), (20, 25), (47, 26), (48, 27),
    (49, 28), (51, 29), (25, 30), (53, 31), (35, 32), (56, 33), (57, 34)]

def channelType2APIType (channelType : Int) : Int := (apiTypes.lookup channelType).getD 0

def streamSupportedChannels : List Int :=
  [1, 14, 33, 24, 39, 3, 45, 4, 48, 43, 46, 26, 17, 53, 57, 25, 35, 40]

def channelBaseURLs : List (Int × String) :=
  [(1, "https://api.openai.com"), (2, "https://oa.api2d.net"), (4, "http://localhost:11434"),
    (5, "https://api.openai-sb.com"), (6, "https://api.openaimax.com"),
    (7, "https://api.ohmygpt.com"), (9, "https://api.caipacity.com"),
    (10, "https://api.aiproxy.io"), (12, "https://api.api2gpt.com"),
    (13, "https://api.aigc2d.com"), (14, "https://api.anthropic.com"),
    (15, "https://aip.baidubce.com"), (16, "https://open.bigmodel.cn"),
    (17, "https://dashscope.aliyuncs.com"), (19, "https://api.360.cn"),
    (20, "https://openrouter.ai/api"), (21, "https://api.aiproxy.io"),
    (22, "https://fastgpt.run/api/openapi"), (23, "https://hunyuan.tencentcloudapi.com"),
    (24, "https://generativelanguage.googleapis.com"), (25, "https://api.moonshot.cn"),
    (26, "https://open.bigmodel.cn"), (27, "https://api.perplexity.ai"),
    (31, "https://api.lingyiwanwu.com"), (34, "https://api.cohere.ai"),
    (35, "https://api.minimax.chat"), (37, "https://api.dify.ai"), (38, "https://api.jina.ai"),
    (39, "https://api.cloudflare.com"), (40, "https://api.siliconflow.cn"),
    (42, "https://api.mistral.ai"), (43, "https://api.deepseek.com"), (44, "https://api.moka.ai"),
    (45, "https://ark.cn-beijing.volces.com"), (46, "https://qianfan.baidubce.com"),
    (48, "https://api.x.ai"), (49, "https://api.coze.cn"), (50, "https://api.klingai.com"),
    (51, "https://visual.volcengineapi.com"), (52, "https://api.vidu.cn"),
    (53, "https://llm.submodel.ai"), (54, "https://ark.cn-beijing.volces.com"),
    (55, "https://api.openai.com"), (56, "https://api.replicate.com"), (57, "https://chatgpt.com")]

section
variable {Setting Other Override : Type}

/-- The columns of a channel that its use reads.  `setting`, `otherSettings` and the two overrides
are what `GetSetting`, `GetOtherSettings`, `GetParamOverride` and `GetHeaderOverride` decode, and
`randomKeys` tells whether `MultiKeyMode` is `random`. -/
structure ChannelRow (Setting Other Override : Type) extends Channels.Channel where
  type : Int
  name : String := ""
  createdTime : Int := 0
  openAIOrganization : Option String := none
  baseURL : Option String := none
  other : String := ""
  autoBan : Option Int := none
  modelMapping : Option String := none
  statusCodeMapping : Option String := none
  randomKeys : Bool := false
  setting : Setting
  otherSettings : Other
  (paramOverride headerOverride : Override)

def ChannelRow.getAutoBan (x : ChannelRow Setting Other Override) : Bool := x.autoBan = some 1

def ChannelRow.getBaseURL (x : ChannelRow Setting Other Override) : String :=
  match x.baseURL with
  | none => ""
  | some url => if url = "" then (channelBaseURLs.lookup x.type).getD "" else url

/-- A channel that is tried, with what the choice of its key depends on: the random numbers, and the
polling index of the cache, which may be missing. -/
structure Try (Setting Other Override : Type) where
  channel : ChannelRow Setting Other Override
  intn : Int → Int := fun _ => 0
  pollingIndex : Except String Int := .ok 0

variable (parseArray : String → Option (List String))

def keyStatus (info : ChannelInfo) (index : ℕ) : ChannelStatus :=
  (info.multiKeyStatusList.lookup (index : Int)).getD ChannelStatus.enabled

def Try.getNextEnabledKey (t : Try Setting Other Override) : Except ApiError (String × Int) :=
  let x := t.channel
  if x.channelInfo.isMultiKey then
    let keys := x.toChannel.getKeys parseArray
    let enabled := (List.range keys.length).filter (keyStatus x.channelInfo · = .enabled)
    let first := enabled.headD 0
    let at_index := fun i : ℕ => (keys.getD i "", (i : Int))
    if keys = [] then
      .error { errorCode := "channel:no_available_key", statusCode := 500
               message := "no keys available", openAIMessage := "no keys available" }
    else if enabled = [] then
      .error { errorCode := "channel:no_available_key", statusCode := 500
               message := "no enabled keys", openAIMessage := "no enabled keys" }
    else if x.randomKeys then .ok (at_index (enabled.getD (t.intn enabled.length).toNat first))
    else if x.channelInfo.isPolling then
      match t.pollingIndex with
      | .error message =>
        .error { errorCode := "get_channel_failed", statusCode := 500, skipRetry := true
                 message := message, openAIMessage := message }
      | .ok polling =>
        let start := if polling < 0 ∨ keys.length ≤ polling then 0 else polling.toNat
        .ok (at_index ((((List.range keys.length).map fun i => (start + i) % keys.length).find?
          (keyStatus x.channelInfo · = .enabled)).getD first))
    else .ok (at_index first)
  else .ok (x.key, 0)

structure ChannelKeys (Setting Other Override : Type) where
  originalModel : Option String := none
  channelId : Option Int := none
  channelName : Option String := none
  channelType : Option Int := none
  channelCreateTime : Option Int := none
  channelSetting : Option Setting := none
  channelOtherSetting : Option Other := none
  paramOverride : Option Override := none
  headerOverride : Option Override := none
  channelOrganization : Option String := none
  autoBan : Option Bool := none
  modelMapping : Option String := none
  statusCodeMapping : Option String := none
  channelIsMultiKey : Option Bool := none
  channelMultiKeyIndex : Option Int := none
  channelKey : Option String := none
  baseUrl : Option String := none
  systemPromptOverride : Option Bool := none
  apiVersion : Option String := none
  region : Option String := none
  plugin : Option String := none
  botId : Option String := none

def ChannelKeys.setOther (c : ChannelKeys Setting Other Override)
    (x : ChannelRow Setting Other Override) : ChannelKeys Setting Other Override :=
  if x.type = ChannelType.azure then { c with apiVersion := some x.other }
  else if x.type = ChannelType.vertexAi then { c with region := some x.other }
  else if x.type = ChannelType.xunfei then { c with apiVersion := some x.other }
  else if x.type = ChannelType.gemini then { c with apiVersion := some x.other }
  else if x.type = ChannelType.ali then { c with plugin := some x.other }
  else if x.type = ChannelType.cloudflare then { c with apiVersion := some x.other }
  else if x.type = ChannelType.mokaAI then { c with apiVersion := some x.other }
  else if x.type = ChannelType.coze then { c with botId := some x.other }
  else c

/-- `SetupContextForSelectedChannel`, without a channel affinity: the error, if there is one, and
the context. -/
def setupContextForSelectedChannel (modelName : String) (t : Option (Try Setting Other Override))
    (c : ChannelKeys Setting Other Override) :
    Option ApiError × ChannelKeys Setting Other Override :=
  let c := { c with originalModel := some modelName }
  match t with
  | none => (some (getChannelFailed "channel is nil"), c)
  | some t =>
    let x := t.channel
    let c := { c with
      channelId := some x.id
      channelName := some x.name
      channelType := some x.type
      channelCreateTime := some x.createdTime
      channelSetting := some x.setting
      channelOtherSetting := some x.otherSettings
      paramOverride := some x.paramOverride
      headerOverride := some x.headerOverride
      channelOrganization := if x.openAIOrganization.getD "" ≠ "" then x.openAIOrganization
        else c.channelOrganization
      autoBan := some x.getAutoBan
      modelMapping := some (x.modelMapping.getD "")
      statusCodeMapping := some (x.statusCodeMapping.getD "") }
    match t.getNextEnabledKey parseArray with
    | .error e => (some e, c)
    | .ok (key, index) =>
      let c := { c with
        channelIsMultiKey := some x.channelInfo.isMultiKey
        channelMultiKeyIndex := if x.channelInfo.isMultiKey then some index
          else c.channelMultiKeyIndex
        channelKey := some key
        baseUrl := some x.getBaseURL
        systemPromptOverride := some false }
      (none, c.setOther x)

structure ChannelMeta (Setting Other Override : Type) where
  (channelType channelId : Int)
  channelIsMultiKey : Bool
  channelMultiKeyIndex : Int
  channelBaseUrl : String
  apiType : Int
  (apiVersion apiKey organization : String)
  channelCreateTime : Int
  (paramOverride headersOverride : Override)
  channelSetting : Setting
  channelOtherSettings : Other
  upstreamModelName : String
  (isModelMapped supportStreamOptions : Bool)
deriving DecidableEq

variable [Inhabited Setting] [Inhabited Other] [Inhabited Override]

def initChannelMeta (query : String) (c : ChannelKeys Setting Other Override) :
    ChannelMeta Setting Other Override :=
  let channelType := c.channelType.getD 0
  { channelType
    channelId := c.channelId.getD 0
    channelIsMultiKey := c.channelIsMultiKey.getD false
    channelMultiKeyIndex := c.channelMultiKeyIndex.getD 0
    channelBaseUrl := c.baseUrl.getD ""
    apiType := channelType2APIType channelType
    apiVersion :=
      if channelType = ChannelType.vertexAi then c.region.getD ""
      else if channelType = ChannelType.azure then
        if query = "" then c.apiVersion.getD "" else query
      else c.apiVersion.getD ""
    apiKey := c.channelKey.getD ""
    organization := c.channelOrganization.getD ""
    channelCreateTime := c.channelCreateTime.getD 0
    paramOverride := c.paramOverride.getD default
    headersOverride := c.headerOverride.getD default
    channelSetting := c.channelSetting.getD default
    channelOtherSettings := c.channelOtherSetting.getD default
    upstreamModelName := c.originalModel.getD ""
    isModelMapped := false
    supportStreamOptions := channelType ∈ streamSupportedChannels }

structure Reads (Setting Other Override : Type) where
  channelMeta : ChannelMeta Setting Other Override
  (region plugin botId : String)
deriving DecidableEq

def reads (query : String) (c : ChannelKeys Setting Other Override) :
    Reads Setting Other Override :=
  ⟨initChannelMeta query c, c.region.getD "", c.plugin.getD "", c.botId.getD ""⟩

end

structure Leftovers where
  organization : Option String := none
  multiKeyIndex : Option Int := none
  apiVersion : Option String := none
  region : Option String := none
  plugin : Option String := none
  botId : Option String := none
deriving DecidableEq

def Leftovers.over (new old : Leftovers) : Leftovers where
  organization := new.organization.or old.organization
  multiKeyIndex := new.multiKeyIndex.or old.multiKeyIndex
  apiVersion := new.apiVersion.or old.apiVersion
  region := new.region.or old.region
  plugin := new.plugin.or old.plugin
  botId := new.botId.or old.botId

section
variable {Setting Other Override : Type} (parseArray : String → Option (List String))

def versioned : List Int :=
  [ChannelType.azure, ChannelType.xunfei, ChannelType.gemini, ChannelType.cloudflare,
    ChannelType.mokaAI]

def ChannelRow.otherFor (x : ChannelRow Setting Other Override) (types : List Int) :
    Option String :=
  if x.type ∈ types then some x.other else none

def Try.writes (t : Try Setting Other Override) : Leftovers :=
  let organization := if t.channel.openAIOrganization.getD "" ≠ "" then
    t.channel.openAIOrganization else none
  match t.getNextEnabledKey parseArray with
  | .error _ => { organization }
  | .ok (_, index) =>
    { organization
      multiKeyIndex := if t.channel.channelInfo.isMultiKey then some index else none
      apiVersion := t.channel.otherFor versioned
      region := t.channel.otherFor [ChannelType.vertexAi]
      plugin := t.channel.otherFor [ChannelType.ali]
      botId := t.channel.otherFor [ChannelType.coze] }

def ChannelKeys.leftovers (c : ChannelKeys Setting Other Override) : Leftovers :=
  ⟨c.channelOrganization, c.channelMultiKeyIndex, c.apiVersion, c.region, c.plugin, c.botId⟩

variable (c : ChannelKeys Setting Other Override) (t : Try Setting Other Override)

theorem setOther_eq (x : ChannelRow Setting Other Override) :
    c.setOther x = { c with
      apiVersion := (x.otherFor versioned).or c.apiVersion
      region := (x.otherFor [ChannelType.vertexAi]).or c.region
      plugin := (x.otherFor [ChannelType.ali]).or c.plugin
      botId := (x.otherFor [ChannelType.coze]).or c.botId } := by
  unfold ChannelKeys.setOther ChannelRow.otherFor
  generalize x.type = type
  by_cases known : type ∈ versioned ++ [ChannelType.vertexAi, ChannelType.ali, ChannelType.coze]
  · -- each of these types writes one key
    simp only [versioned, cons_append, nil_append, mem_cons, not_mem_nil,
      or_false] at known
    rcases known with rfl | rfl | rfl | rfl | rfl | rfl | rfl | rfl <;> rfl
  · simp only [versioned, cons_append, nil_append, mem_cons, not_mem_nil,
      or_false, not_or] at known
    simp only [known, versioned, mem_cons, not_mem_nil, or_false, if_false,
      Option.none_or]

theorem setup_leftovers (modelName : String) :
    (setupContextForSelectedChannel parseArray modelName (some t) c).2.leftovers =
      (t.writes parseArray).over c.leftovers := by
  have organization : (if t.channel.openAIOrganization.getD "" ≠ "" then
      t.channel.openAIOrganization else c.channelOrganization) =
      (if t.channel.openAIOrganization.getD "" ≠ "" then t.channel.openAIOrganization
        else none).or c.channelOrganization := by
    split
    next some_text =>
      cases h : t.channel.openAIOrganization with
      | none => simp [h] at some_text
      | some text => rfl
    · rfl
  unfold setupContextForSelectedChannel Try.writes
  dsimp only
  rw [organization]
  cases t.getNextEnabledKey parseArray with
  | error e => rfl
  | ok pair =>
    dsimp only
    rw [setOther_eq]
    by_cases multi : t.channel.channelInfo.isMultiKey = true <;>
      simp [multi, ChannelKeys.leftovers, Leftovers.over]

def tried (modelName : String) (history : List (Try Setting Other Override))
    (c : ChannelKeys Setting Other Override) : ChannelKeys Setting Other Override :=
  history.foldl (fun c t => (setupContextForSelectedChannel parseArray modelName (some t) c).2) c

def left (history : List (Try Setting Other Override)) (start : Leftovers) : Leftovers :=
  history.foldl (fun l t => (t.writes parseArray).over l) start

theorem tried_leftovers (modelName : String) (history : List (Try Setting Other Override)) :
    (tried parseArray modelName history c).leftovers = left parseArray history c.leftovers := by
  induction history generalizing c with
  | nil => rfl
  | cons t history ih =>
    rw [tried, foldl_cons, ← tried, ih, setup_leftovers]
    rfl

end

section
variable {Setting Other Override : Type} [Inhabited Setting] [Inhabited Other] [Inhabited Override]
  (parseArray : String → Option (List String))

def readsOf (query modelName key : String) (x : ChannelRow Setting Other Override)
    (l : Leftovers) : Reads Setting Other Override where
  channelMeta :=
    { channelType := x.type
      channelId := x.id
      channelIsMultiKey := x.channelInfo.isMultiKey
      channelMultiKeyIndex := l.multiKeyIndex.getD 0
      channelBaseUrl := x.getBaseURL
      apiType := channelType2APIType x.type
      apiVersion :=
        if x.type = ChannelType.vertexAi then l.region.getD ""
        else if x.type = ChannelType.azure then if query = "" then l.apiVersion.getD "" else query
        else l.apiVersion.getD ""
      apiKey := key
      organization := l.organization.getD ""
      channelCreateTime := x.createdTime
      paramOverride := x.paramOverride
      headersOverride := x.headerOverride
      channelSetting := x.setting
      channelOtherSettings := x.otherSettings
      upstreamModelName := modelName
      isModelMapped := false
      supportStreamOptions := x.type ∈ streamSupportedChannels }
  region := l.region.getD ""
  plugin := l.plugin.getD ""
  botId := l.botId.getD ""

variable {parseArray}

theorem reads_setup (picked : x.getNextEnabledKey parseArray = .ok (key, index))
    (query modelName : String) (c : ChannelKeys Setting Other Override) :
    reads query (setupContextForSelectedChannel parseArray modelName (some x) c).2 =
      readsOf query modelName key x.channel ((x.writes parseArray).over c.leftovers) := by
  rw [← setup_leftovers parseArray c x modelName]
  unfold setupContextForSelectedChannel
  dsimp only
  rw [picked]
  dsimp only
  rw [setOther_eq]
  rfl

/-- Two contexts that a channel does not tell apart: what it does not write itself is the same in
both. -/
structure SameFor (parseArray : String → Option (List String)) (x : Try Setting Other Override)
    (l l' : Leftovers) : Prop where
  organization : (x.writes parseArray).organization = none →
    l.organization.getD "" = l'.organization.getD ""
  multiKeyIndex : (x.writes parseArray).multiKeyIndex = none →
    l.multiKeyIndex.getD 0 = l'.multiKeyIndex.getD 0
  apiVersion : (x.writes parseArray).apiVersion = none → x.channel.type ≠ ChannelType.vertexAi →
    l.apiVersion.getD "" = l'.apiVersion.getD ""
  region : (x.writes parseArray).region = none → l.region.getD "" = l'.region.getD ""
  plugin : (x.writes parseArray).plugin = none → l.plugin.getD "" = l'.plugin.getD ""
  botId : (x.writes parseArray).botId = none → l.botId.getD "" = l'.botId.getD ""

theorem or_getD_eq_iff {α : Type} {new old old' : Option α} {zero : α} :
    (new.or old).getD zero = (new.or old').getD zero ↔
      (new = none → old.getD zero = old'.getD zero) := by
  cases new <;> simp

omit [Inhabited Setting] [Inhabited Other] [Inhabited Override] in
theorem readsOf_eq_iff (picked : x.getNextEnabledKey parseArray = .ok (key, index))
    (query modelName : String) (l l' : Leftovers) :
    readsOf query modelName key x.channel ((x.writes parseArray).over l) =
        readsOf query modelName key x.channel ((x.writes parseArray).over l') ↔
      SameFor parseArray x l l' := by
  have azure : x.channel.type = ChannelType.azure → (x.writes parseArray).apiVersion ≠ none := by
    intro type
    simp [Try.writes, picked, ChannelRow.otherFor, type, versioned]
  constructor
  · intro same
    have channelMeta := congrArg Reads.channelMeta same
    refine ⟨or_getD_eq_iff.mp (congrArg ChannelMeta.organization channelMeta),
      or_getD_eq_iff.mp (congrArg ChannelMeta.channelMultiKeyIndex channelMeta), ?_,
      or_getD_eq_iff.mp (congrArg Reads.region same),
      or_getD_eq_iff.mp (congrArg Reads.plugin same),
      or_getD_eq_iff.mp (congrArg Reads.botId same)⟩
    intro unwritten type
    have version := congrArg ChannelMeta.apiVersion channelMeta
    simp only [readsOf] at version
    rw [if_neg type, if_neg type, if_neg fun h => azure h unwritten,
      if_neg fun h => azure h unwritten] at version
    exact or_getD_eq_iff.mp version unwritten
  · intro same
    have organization : ((x.writes parseArray).over l).organization.getD "" =
        ((x.writes parseArray).over l').organization.getD "" :=
      or_getD_eq_iff.mpr same.organization
    have multiKeyIndex : ((x.writes parseArray).over l).multiKeyIndex.getD 0 =
        ((x.writes parseArray).over l').multiKeyIndex.getD 0 :=
      or_getD_eq_iff.mpr same.multiKeyIndex
    have region : ((x.writes parseArray).over l).region.getD "" =
        ((x.writes parseArray).over l').region.getD "" := or_getD_eq_iff.mpr same.region
    have plugin : ((x.writes parseArray).over l).plugin.getD "" =
        ((x.writes parseArray).over l').plugin.getD "" := or_getD_eq_iff.mpr same.plugin
    have botId : ((x.writes parseArray).over l).botId.getD "" =
        ((x.writes parseArray).over l').botId.getD "" := or_getD_eq_iff.mpr same.botId
    unfold readsOf
    rw [organization, multiKeyIndex, region, plugin, botId]
    by_cases type : x.channel.type = ChannelType.vertexAi
    · rw [if_pos type, if_pos type]
    · have version : ((x.writes parseArray).over l).apiVersion.getD "" =
          ((x.writes parseArray).over l').apiVersion.getD "" :=
        or_getD_eq_iff.mpr fun unwritten => same.apiVersion unwritten type
      rw [version]

/-- Two requests that have tried different channels, and then try the same channel with the same
key: they read the same metadata and the same keys of the context exactly if the channel does not
tell apart what the earlier ones have left. -/
theorem retry_reads_eq_iff (picked : x.getNextEnabledKey parseArray = .ok (key, index))
    (query modelName : String) (c : ChannelKeys Setting Other Override)
    (history history' : List (Try Setting Other Override)) :
    reads query (tried parseArray modelName (history ++ [x]) c) =
        reads query (tried parseArray modelName (history' ++ [x]) c) ↔
      SameFor parseArray x (left parseArray history c.leftovers)
        (left parseArray history' c.leftovers) := by
  rw [← readsOf_eq_iff picked query modelName, ← tried_leftovers parseArray c modelName,
    ← tried_leftovers parseArray c modelName, ← reads_setup picked, ← reads_setup picked]
  simp only [tried, foldl_append, foldl_cons, foldl_nil]

end

def plainRow (id type : Int) : ChannelRow Unit Unit Unit where
  id := id
  key := "sk"
  status := .enabled
  models := "gpt-4"
  group := "default"
  type := type
  setting := ()
  otherSettings := ()
  paramOverride := ()
  headerOverride := ()

/-- A channel with an organization of its own reads nothing of the organization before it. -/
theorem retry_reads_eq_iff_plain :
    reads "" (tried (fun _ => none) "gpt-4"
        ([⟨{ plainRow 1 1 with openAIOrganization := some "org-a" }, fun _ => 0, .ok 0⟩] ++
          [⟨{ plainRow 2 1 with openAIOrganization := some "org-b" }, fun _ => 0, .ok 0⟩]) {}) =
      reads "" (tried (fun _ => none) "gpt-4"
        ([] ++ [⟨{ plainRow 2 1 with openAIOrganization := some "org-b" }, fun _ => 0, .ok 0⟩])
          {}) := by
  refine (retry_reads_eq_iff (show Try.getNextEnabledKey _ _ = .ok ("sk", 0) from rfl) "" "gpt-4"
    {} _ []).mpr ?_
  constructor
  · intro unwritten
    exact absurd unwritten (by decide)
  all_goals intros; rfl

/-- Channels that leave something for a plain channel after them: an organization, the index of a
key, an API version, a region, a plugin, a bot. -/
def leakingRows : List (ChannelRow Unit Unit Unit) :=
  [{ plainRow 1 1 with openAIOrganization := some "org-a" },
   { plainRow 1 1 with
      key := "k0\nk1"
      channelInfo := {
        isMultiKey := true
        multiKeyStatusList := (∅ : AList _).insert 0 .autoDisabled } },
   { plainRow 1 ChannelType.gemini with other := "v1beta" },
   { plainRow 1 ChannelType.vertexAi with other := "us-east5" },
   { plainRow 1 ChannelType.ali with other := "search" },
   { plainRow 1 ChannelType.coze with other := "bot-1" }]

theorem retry_reads_earlier_channel :
    leakingRows.Forall fun row =>
      reads "" (tried (fun _ => none) "gpt-4"
          ([⟨row, fun _ => 0, .ok 0⟩] ++ [⟨plainRow 2 1, fun _ => 0, .ok 0⟩]) {}) ≠
        reads "" (tried (fun _ => none) "gpt-4"
          ([] ++ [⟨plainRow 2 1, fun _ => 0, .ok 0⟩]) {}) := by
  decide

end EastApi.Relay
