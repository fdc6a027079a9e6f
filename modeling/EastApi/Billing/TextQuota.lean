import EastApi.Lib.GoFloat

/-! What a text request costs: `calculateTextQuotaSummary` weighs the tokens of a usage, adds the
price of the tools and rounds.  A usage of Claude counts cached and written tokens beside the
prompt, one of OpenAI counts them in it, and `buildOpenAIStyleUsageFromClaudeUsage` turns the first
into the second.  Decimals are exact and every result fits into an `int`. -/

namespace EastApi.Billing.TextQuota

open Go

/-- `Cost` is an `any`: the source compares it with the `int` zero and reads a `float64`. -/
inductive Cost where
  | int (n : Int)
  | float (x : ℚ)
  | other
deriving DecidableEq

def Cost.toFloat : Cost → ℚ
  | .float x => x
  | _ => 0

structure Usage where
  promptTokens : Int := 0
  completionTokens : Int := 0
  totalTokens : Int := 0
  inputTokens : Int := 0
  cachedTokens : Int := 0
  cachedCreationTokens : Int := 0
  imageTokens : Int := 0
  audioTokens : Int := 0
  claudeCacheCreation5mTokens : Int := 0
  claudeCacheCreation1hTokens : Int := 0
  usageSemantic : String := ""
  usageSource : String := ""
  cost : Cost := .other

structure PriceData where
  usePrice : Bool := false
  modelPrice : ℚ := 0
  modelRatio : ℚ := 1
  completionRatio : ℚ := 1
  cacheRatio : ℚ := 1
  cacheCreationRatio : ℚ := 1
  cacheCreation5mRatio : ℚ := 1
  cacheCreation1hRatio : ℚ := 1
  imageRatio : ℚ := 1
  groupRatio : ℚ := 1
  otherRatios : List ℚ := []

def PriceData.ratio (p : PriceData) : ℚ := p.modelRatio * p.groupRatio

structure Settings where
  cpu : Processor := .amd64
  quotaPerUnit : ℚ := 500000
  defaultModelRatio : String → Option ℚ := fun _ => none
  webSearchPrice : String → String → ℚ := fun _ _ => 25
  claudeWebSearchPrice : ℚ := 10
  fileSearchPrice : ℚ := 5 / 2
  geminiInputAudioPrice : String → ℚ := fun _ => 0
  gptImage1Price : String → String → ℚ := fun _ _ => 167 / 1000

structure BuildInTool where
  callCount : Int
  searchContextSize : String

/-- What the summary reads of the relay info and of the request's context. -/
structure Request where
  originModelName : String
  estimatePromptTokens : Int := 0
  finalRequestRelayFormat : String := ""
  requestConversionChain : List String := []
  relayFormat : String := "openai"
  channelType : Option Int := none
  priceData : PriceData
  responsesUsageInfo : Option (String → Option BuildInTool) := none
  webSearchContextSize : String := ""
  claudeWebSearchRequests : Int := 0
  imageGenerationCall : Bool := false
  imageGenerationCallQuality : String := ""
  imageGenerationCallSize : String := ""

def Request.getFinalRequestRelayFormat (r : Request) : String :=
  if r.finalRequestRelayFormat ≠ "" then r.finalRequestRelayFormat
  else r.requestConversionChain.getLast?.getD r.relayFormat

def usageSemanticFromUsage (r : Request) (u : Usage) : String :=
  if u.usageSemantic ≠ "" then u.usageSemantic
  else if r.getFinalRequestRelayFormat = "claude" then "anthropic"
  else "openai"

def isLegacyClaudeDerivedOpenAIUsage (r : Request) (u : Usage) : Bool :=
  r.getFinalRequestRelayFormat ≠ "claude" ∧ u.usageSource = "" ∧ u.usageSemantic = "" ∧
    (0 < u.claudeCacheCreation5mTokens ∨ 0 < u.claudeCacheCreation1hTokens)

section
variable (s : Settings) (r : Request)

def hasCustomModelRatio (modelName : String) (currentRatio : ℚ) : Bool :=
  match s.defaultModelRatio modelName with
  | none => true
  | some ratio => currentRatio ≠ ratio

def calcOpenRouterCacheCreateTokens (u : Usage) (p : PriceData) : Int :=
  if p.cacheCreationRatio = 1 then 0
  else
    let quotaPrice := p.modelRatio / s.quotaPerUnit
    let promptCacheCreatePrice := quotaPrice * p.cacheCreationRatio
    let promptCacheReadPrice := quotaPrice * p.cacheRatio
    let completionPrice := quotaPrice * p.completionRatio
    let rest := u.cost.toFloat - u.promptTokens * quotaPrice +
      u.cachedTokens * (quotaPrice - promptCacheReadPrice) - u.completionTokens * completionPrice
    -- a division by zero gives an infinity, which no `int` holds
    if promptCacheCreatePrice - quotaPrice = 0 then s.cpu.outOfRange rest
    else s.cpu.toInt (roundAway (rest / (promptCacheCreatePrice - quotaPrice)))

def openRouterClaudeBilling (u : Usage) : Usage :=
  let prompt := u.promptTokens - u.cachedTokens
  let isUsingCustomSettings := r.priceData.usePrice ||
    hasCustomModelRatio s r.originModelName r.priceData.modelRatio
  let maybe := calcOpenRouterCacheCreateTokens s u r.priceData
  let written :=
    if u.cachedCreationTokens = 0 ∧ r.priceData.cacheCreationRatio ≠ 1 ∧ u.cost ≠ .int 0 ∧
        !isUsingCustomSettings ∧ 0 ≤ maybe ∧ maybe ≤ prompt then maybe
    else u.cachedCreationTokens
  { u with promptTokens := prompt - written, cachedCreationTokens := written }

/-- The quota of `calls` calls of a tool with a price for a thousand. -/
def callQuota (price : ℚ) (calls : Int) : ℚ :=
  price * calls / 1000 * r.priceData.groupRatio * s.quotaPerUnit

def builtInQuota (name : String) (price : String → ℚ) : ℚ :=
  match r.responsesUsageInfo.bind (· name) with
  | some tool =>
    if 0 < tool.callCount then callQuota s r (price tool.searchContextSize) tool.callCount else 0
  | none => 0

def webSearchQuota : ℚ :=
  let price := s.webSearchPrice r.originModelName
  if r.responsesUsageInfo.isSome then builtInQuota s r "web_search_preview" price
  else if hasSuffix r.originModelName "search-preview" then
    let size := if r.webSearchContextSize = "" then "medium" else r.webSearchContextSize
    callQuota s r (price size) 1
  else 0

def claudeWebSearchQuota : ℚ :=
  if 0 < r.claudeWebSearchRequests then
    callQuota s r s.claudeWebSearchPrice r.claudeWebSearchRequests
  else 0

def fileSearchQuota : ℚ :=
  builtInQuota s r "file_search" fun _ => s.fileSearchPrice

def imageGenerationCallQuota : ℚ :=
  if r.imageGenerationCall then
    s.gptImage1Price r.imageGenerationCallQuality r.imageGenerationCallSize *
      r.priceData.groupRatio * s.quotaPerUnit
  else 0

def audioInputQuota (u : Usage) : ℚ :=
  let price := s.geminiInputAudioPrice r.originModelName
  if u.audioTokens ≠ 0 ∧ 0 < price then
    price / 1000000 * u.audioTokens * r.priceData.groupRatio * s.quotaPerUnit
  else 0

def cachedCreationTokensWithRatio (p : PriceData) (inPrompt : Bool) (u : Usage) : ℚ :=
  if u.cachedCreationTokens = 0 ∧ ¬(0 < u.claudeCacheCreation5mTokens ∨
      0 < u.claudeCacheCreation1hTokens) then 0
  else if inPrompt then u.cachedCreationTokens * p.cacheCreationRatio
  else
    let remaining := max (u.cachedCreationTokens - u.claudeCacheCreation5mTokens -
      u.claudeCacheCreation1hTokens) 0
    remaining * p.cacheCreationRatio + u.claudeCacheCreation5mTokens * p.cacheCreation5mRatio +
      u.claudeCacheCreation1hTokens * p.cacheCreation1hRatio

/-- The weight of the prompt.  Cached and written tokens are taken off the base if they are counted
in the prompt; the source leaves out the counts that are zero, which take nothing off. -/
def promptQuota (inPrompt : Bool) (u : Usage) : ℚ :=
  let cached := if inPrompt then u.cachedTokens + u.cachedCreationTokens else 0
  let audio := if 0 < s.geminiInputAudioPrice r.originModelName then u.audioTokens else 0
  let baseTokens := u.promptTokens - cached - u.imageTokens - audio
  baseTokens + u.cachedTokens * r.priceData.cacheRatio +
    u.imageTokens * r.priceData.imageRatio + cachedCreationTokensWithRatio r.priceData inPrompt u

structure Summary where
  counts : Usage
  totalTokens : Int
  usageSemantic : String
  quota : Int

def toolQuota : ℚ :=
  webSearchQuota s r + claudeWebSearchQuota s r + fileSearchQuota s r

def weightedQuota (inPrompt : Bool) (u : Usage) : ℚ :=
  let p := r.priceData
  let quota := if p.usePrice then p.modelPrice * s.quotaPerUnit * p.groupRatio + toolQuota s r
    else (promptQuota s r inPrompt u + u.completionTokens * p.completionRatio) * p.ratio +
      toolQuota s r + audioInputQuota s r u
  p.otherRatios.foldl (· * ·) (quota + imageGenerationCallQuota s r)

def calculateTextQuotaSummary (usage : Option Usage) : Summary :=
  let u := usage.getD
    { promptTokens := r.estimatePromptTokens, totalTokens := r.estimatePromptTokens }
  let p := r.priceData
  let usageSemantic := usageSemanticFromUsage r u
  let counts := if r.channelType = some 20 ∧ usageSemantic = "anthropic" then
    openRouterClaudeBilling s r u else u
  let inPrompt := usageSemantic ≠ "anthropic" ∧ !isLegacyClaudeDerivedOpenAIUsage r u
  let quota := weightedQuota s r inPrompt counts
  let quota := if !p.usePrice ∧ p.ratio ≠ 0 ∧ quota ≤ 0 then 1 else quota
  let rounded := roundAway quota
  let totalTokens := u.promptTokens + u.completionTokens
  { counts
    totalTokens
    usageSemantic
    quota := if totalTokens = 0 then 0 else if p.ratio ≠ 0 ∧ rounded = 0 then 1 else rounded }

end

def normalizeCacheCreationSplit (totalTokens tokens5m tokens1h : Int) : Int × Int :=
  let remainder := max (totalTokens - tokens5m - tokens1h) 0
  (tokens5m + remainder, tokens1h)

def cacheCreationTokensForOpenAIUsage (u : Usage) : Int :=
  let split := u.claudeCacheCreation5mTokens + u.claudeCacheCreation1hTokens
  if split = 0 then u.cachedCreationTokens
  else if split < u.cachedCreationTokens then u.cachedCreationTokens
  else split

def buildOpenAIStyleUsageFromClaudeUsage (u : Usage) : Usage :=
  let split := normalizeCacheCreationSplit u.cachedCreationTokens u.claudeCacheCreation5mTokens
    u.claudeCacheCreation1hTokens
  let totalInputTokens := u.promptTokens + u.cachedTokens + cacheCreationTokensForOpenAIUsage u
  { u with
    claudeCacheCreation5mTokens := split.1
    claudeCacheCreation1hTokens := split.2
    promptTokens := totalInputTokens
    inputTokens := totalInputTokens
    totalTokens := totalInputTokens + u.completionTokens
    usageSemantic := "openai"
    usageSource := "anthropic" }

theorem foldl_mul_eq (ratios : List ℚ) (q : ℚ) : ratios.foldl (· * ·) q = q * ratios.prod := by
  induction ratios generalizing q with
  | nil => simp
  | cons ratio rest ih => rw [List.foldl_cons, ih, List.prod_cons, mul_assoc]

/-- A price for each token, on a channel whose counts are used as they are. -/
structure RatioPriced (r : Request) : Prop where
  byRatio : r.priceData.usePrice = false
  notOpenRouter : r.channelType ≠ some 20

def countedInPrompt (r : Request) (u : Usage) : Bool :=
  usageSemanticFromUsage r u ≠ "anthropic" ∧ !isLegacyClaudeDerivedOpenAIUsage r u

def textQuota (s : Settings) (r : Request) (u : Usage) : Int :=
  (calculateTextQuotaSummary s r (some u)).quota

/-- The two rules for a quota that is not positive, before and after the rounding, give at least
one. -/
theorem textQuota_eq (priced : RatioPriced r) (u : Usage) :
    textQuota s r u =
      if u.promptTokens + u.completionTokens = 0 then 0
      else if r.priceData.ratio = 0 then roundAway (weightedQuota s r (countedInPrompt r u) u)
      else max 1 (roundAway (weightedQuota s r (countedInPrompt r u) u)) := by
  simp only [textQuota, calculateTextQuotaSummary, Option.getD_some, priced.notOpenRouter,
    false_and, if_false, priced.byRatio, Bool.not_false, true_and]
  rw [← countedInPrompt]
  generalize weightedQuota s r (countedInPrompt r u) u = q
  split
  · rfl
  by_cases zero : r.priceData.ratio = 0
  · simp [zero]
  by_cases nonpos : q ≤ 0
  · have below := roundAway_nonpos nonpos
    have one : roundAway 1 = 1 := by exact_mod_cast roundAway_intCast 1
    simp [zero, nonpos, one, max_eq_left (show roundAway q ≤ 1 by omega)]
  · have above := roundAway_nonneg (le_of_not_ge nonpos)
    simp only [zero, nonpos, and_false, if_false, ne_eq, not_false_iff, true_and]
    split <;> omega

structure Usage.Counts (u : Usage) : Prop where
  promptTokens : 0 ≤ u.promptTokens
  completionTokens : 0 ≤ u.completionTokens
  cachedTokens : 0 ≤ u.cachedTokens
  cachedCreationTokens : 0 ≤ u.cachedCreationTokens
  tokens5m : 0 ≤ u.claudeCacheCreation5mTokens
  tokens1h : 0 ≤ u.claudeCacheCreation1hTokens
  imageTokens : 0 ≤ u.imageTokens
  audioTokens : 0 ≤ u.audioTokens

structure Nonneg (s : Settings) (p : PriceData) : Prop where
  modelRatio : 0 ≤ p.modelRatio
  groupRatio : 0 ≤ p.groupRatio
  completionRatio : 0 ≤ p.completionRatio
  otherRatios : ∀ ratio ∈ p.otherRatios, 0 < ratio
  quotaPerUnit : 0 ≤ s.quotaPerUnit
  webSearchPrice : ∀ name size, 0 ≤ s.webSearchPrice name size
  claudeWebSearchPrice : 0 ≤ s.claudeWebSearchPrice
  fileSearchPrice : 0 ≤ s.fileSearchPrice
  gptImage1Price : ∀ quality size, 0 ≤ s.gptImage1Price quality size

section

variable {s : Settings} {r : Request} (nonneg : Nonneg s r.priceData)

include nonneg

theorem callQuota_nonneg (price : 0 ≤ cost) (calls : 0 ≤ n) : 0 ≤ callQuota s r cost n := by
  have count : (0 : ℚ) ≤ n := by exact_mod_cast calls
  have group := nonneg.groupRatio
  have unit := nonneg.quotaPerUnit
  unfold callQuota
  positivity

theorem builtInQuota_nonneg (price : ∀ size, 0 ≤ cost size) (name : String) :
    0 ≤ builtInQuota s r name cost := by
  unfold builtInQuota
  split
  · split
    · exact callQuota_nonneg nonneg (price _) (by omega)
    · rfl
  · rfl

theorem toolQuota_nonneg : 0 ≤ toolQuota s r := by
  have web : 0 ≤ webSearchQuota s r := by
    unfold webSearchQuota
    dsimp only
    split
    · exact builtInQuota_nonneg nonneg (nonneg.webSearchPrice _) _
    · split
      · exact callQuota_nonneg nonneg (nonneg.webSearchPrice _ _) (by omega)
      · rfl
  have claude : 0 ≤ claudeWebSearchQuota s r := by
    unfold claudeWebSearchQuota
    split
    · exact callQuota_nonneg nonneg nonneg.claudeWebSearchPrice (by omega)
    · rfl
  have file := builtInQuota_nonneg nonneg (fun _ => nonneg.fileSearchPrice) "file_search"
  exact add_nonneg (add_nonneg web claude) file

theorem imageGenerationCallQuota_nonneg : 0 ≤ imageGenerationCallQuota s r := by
  have price := nonneg.gptImage1Price r.imageGenerationCallQuality r.imageGenerationCallSize
  have group := nonneg.groupRatio
  have unit := nonneg.quotaPerUnit
  unfold imageGenerationCallQuota
  split
  · positivity
  · rfl

theorem audioInputQuota_nonneg (audio : 0 ≤ u.audioTokens) : 0 ≤ audioInputQuota s r u := by
  have count : (0 : ℚ) ≤ u.audioTokens := by exact_mod_cast audio
  have group := nonneg.groupRatio
  have unit := nonneg.quotaPerUnit
  unfold audioInputQuota
  dsimp only
  split
  next priced =>
    have price := priced.2
    positivity
  · rfl

theorem otherRatios_prod_pos : 0 < r.priceData.otherRatios.prod :=
  List.prod_induction _ (fun _ _ => mul_pos) one_pos nonneg.otherRatios

/-- A model with the ratio zero charges its tools only. -/
theorem weightedQuota_nonneg (byRatio : r.priceData.usePrice = false)
    (free : r.priceData.ratio = 0) (audio : 0 ≤ u.audioTokens) (inPrompt : Bool) :
    0 ≤ weightedQuota s r inPrompt u := by
  have tools := toolQuota_nonneg nonneg
  have image := imageGenerationCallQuota_nonneg nonneg
  have input := audioInputQuota_nonneg nonneg audio
  simp only [weightedQuota, byRatio, Bool.false_eq_true, if_false, free, mul_zero, zero_add,
    foldl_mul_eq]
  exact mul_nonneg (by linarith) (otherRatios_prod_pos nonneg).le

theorem weightedQuota_mono (byRatio : r.priceData.usePrice = false) (inPrompt : Bool)
    (more : u.completionTokens ≤ n) :
    weightedQuota s r inPrompt u ≤ weightedQuota s r inPrompt { u with completionTokens := n } := by
  have count : (u.completionTokens : ℚ) ≤ n := by exact_mod_cast more
  have ratio : 0 ≤ r.priceData.ratio := mul_nonneg nonneg.modelRatio nonneg.groupRatio
  simp only [weightedQuota, byRatio, Bool.false_eq_true, if_false, foldl_mul_eq]
  refine mul_le_mul_of_nonneg_right ?_ (otherRatios_prod_pos nonneg).le
  have completion := mul_le_mul_of_nonneg_right count nonneg.completionRatio
  have weight := mul_le_mul_of_nonneg_right
    (add_le_add_right completion (promptQuota s r inPrompt u)) ratio
  simp only [promptQuota, audioInputQuota, cachedCreationTokensWithRatio] at weight ⊢
  linarith

end

theorem textQuota_bounds (priced : RatioPriced r) (nonneg : Nonneg s r.priceData)
    (counts : u.Counts) :
    0 ≤ textQuota s r u ∧
    (r.priceData.ratio ≠ 0 → 0 < u.promptTokens + u.completionTokens → 1 ≤ textQuota s r u) ∧
    (u.promptTokens + u.completionTokens = 0 → textQuota s r u = 0) ∧
    ∀ n, u.completionTokens ≤ n →
      textQuota s r u ≤ textQuota s r { u with completionTokens := n } := by
  have lower (u : Usage) (audio : 0 ≤ u.audioTokens) : 0 ≤ textQuota s r u := by
    rw [textQuota_eq priced]
    split_ifs with total free
    · rfl
    · exact roundAway_nonneg (weightedQuota_nonneg nonneg priced.byRatio free audio _)
    · omega
  refine ⟨lower u counts.audioTokens, ?_, ?_, ?_⟩
  · intro ratio total
    rw [textQuota_eq priced, if_neg (by omega), if_neg ratio]
    exact le_max_left _ _
  · intro total
    rw [textQuota_eq priced, if_pos total]
  · intro n more
    have prompt := counts.promptTokens
    have completion := counts.completionTokens
    have mono := roundAway_mono
      (weightedQuota_mono nonneg priced.byRatio (countedInPrompt r u) more)
    by_cases total : u.promptTokens + u.completionTokens = 0
    · rw [textQuota_eq priced u, if_pos total]
      exact lower _ counts.audioTokens
    · have total' : u.promptTokens + n ≠ 0 := by omega
      rw [textQuota_eq priced u, textQuota_eq priced, if_neg total, if_neg total']
      split_ifs with free
      · exact mono
      · exact max_le_max_left 1 mono

/-- No call of a tool. -/
structure Untooled (r : Request) : Prop where
  builtIn : ∀ tools, r.responsesUsageInfo = some tools →
    ∀ name tool, tools name = some tool → tool.callCount ≤ 0
  preview : r.responsesUsageInfo = none → hasSuffix r.originModelName "search-preview" = false
  claudeWebSearch : r.claudeWebSearchRequests ≤ 0
  imageGeneration : r.imageGenerationCall = false

theorem Untooled.builtInQuota (untooled : Untooled r) (name : String) (price : String → ℚ) :
    builtInQuota s r name price = 0 := by
  unfold TextQuota.builtInQuota
  split
  next tool found =>
    obtain ⟨tools, given, called⟩ := Option.bind_eq_some_iff.mp found
    exact if_neg (by have := untooled.builtIn tools given name tool called; omega)
  · rfl

theorem Untooled.toolQuota (untooled : Untooled r) : toolQuota s r = 0 := by
  have web : webSearchQuota s r = 0 := by
    unfold webSearchQuota
    cases info : r.responsesUsageInfo with
    | none => simp [untooled.preview info]
    | some _ => exact untooled.builtInQuota _ _
  have claude : claudeWebSearchQuota s r = 0 := if_neg (not_lt.mpr untooled.claudeWebSearch)
  rw [TextQuota.toolQuota, web, claude, fileSearchQuota, untooled.builtInQuota]
  norm_num

/-- A request that is charged for its tokens only. -/
structure Plain (r : Request) : Prop extends RatioPriced r, Untooled r where
  otherRatios : r.priceData.otherRatios = []

theorem Plain.textQuota_eq (plain : Plain r) (audio : u.audioTokens = 0)
    (weighed : promptQuota s r (countedInPrompt r u) u +
      u.completionTokens * r.priceData.completionRatio = weight) :
    textQuota s r u = if u.promptTokens + u.completionTokens = 0 ∨ r.priceData.ratio = 0 then 0
      else max 1 (roundAway (weight * r.priceData.ratio)) := by
  have quota : weightedQuota s r (countedInPrompt r u) u = weight * r.priceData.ratio := by
    simp [weightedQuota, plain.byRatio, plain.otherRatios, plain.toolQuota, weighed,
      imageGenerationCallQuota, plain.imageGeneration, audioInputQuota, audio]
  have zero : roundAway 0 = 0 := roundAway_intCast 0
  rw [TextQuota.textQuota_eq plain.toRatioPriced, quota]
  by_cases total : u.promptTokens + u.completionTokens = 0
  · simp [total]
  by_cases free : r.priceData.ratio = 0
  · simp [free, zero]
  · simp [total, free]

/-- The written tokens have one ratio, and those of the split beyond their number are weighed as
tokens of the prompt. -/
def openAIWeight (p : PriceData) (u : Usage) : ℚ :=
  let beyond := cacheCreationTokensForOpenAIUsage u - u.cachedCreationTokens
  u.promptTokens + beyond + u.cachedTokens * p.cacheRatio +
    u.cachedCreationTokens * p.cacheCreationRatio + u.completionTokens * p.completionRatio

/-- What the split costs at its own ratios, beyond its price after the conversion: the ratio of
the creation for as many tokens as were written, and that of the prompt for the others. -/
def splitSurcharge (p : PriceData) (u : Usage) : ℚ :=
  let split := u.claudeCacheCreation5mTokens + u.claudeCacheCreation1hTokens
  let written := min split u.cachedCreationTokens
  u.claudeCacheCreation5mTokens * p.cacheCreation5mRatio +
    u.claudeCacheCreation1hTokens * p.cacheCreation1hRatio -
    (written * p.cacheCreationRatio + (split - written : Int))

theorem cacheCreationTokensForOpenAIUsage_eq (counts : u.Counts) :
    cacheCreationTokensForOpenAIUsage u = max u.cachedCreationTokens
      (u.claudeCacheCreation5mTokens + u.claudeCacheCreation1hTokens) := by
  have written := counts.cachedCreationTokens
  simp only [cacheCreationTokensForOpenAIUsage]
  split_ifs <;> omega

theorem cachedCreationTokensWithRatio_apart (counts : u.Counts) (p : PriceData) :
    cachedCreationTokensWithRatio p false u =
      (max (u.cachedCreationTokens - u.claudeCacheCreation5mTokens -
        u.claudeCacheCreation1hTokens) 0 : Int) * p.cacheCreationRatio +
      u.claudeCacheCreation5mTokens * p.cacheCreation5mRatio +
      u.claudeCacheCreation1hTokens * p.cacheCreation1hRatio := by
  have tokens5m := counts.tokens5m
  have tokens1h := counts.tokens1h
  unfold cachedCreationTokensWithRatio
  split
  next none =>
    have zero5m : u.claudeCacheCreation5mTokens = 0 := by omega
    have zero1h : u.claudeCacheCreation1hTokens = 0 := by omega
    simp [none.1, zero5m, zero1h]
  · rfl

theorem promptQuota_claude (counts : u.Counts) (image : u.imageTokens = 0)
    (audio : u.audioTokens = 0) :
    promptQuota s r false u + u.completionTokens * r.priceData.completionRatio =
      openAIWeight r.priceData u + splitSurcharge r.priceData u := by
  rw [promptQuota, cachedCreationTokensWithRatio_apart counts, openAIWeight,
    cacheCreationTokensForOpenAIUsage_eq counts, splitSurcharge]
  simp only [image, audio, ite_self, Bool.false_eq_true, if_false]
  rcases le_total (u.claudeCacheCreation5mTokens + u.claudeCacheCreation1hTokens)
    u.cachedCreationTokens with within | beyond
  · rw [max_eq_left within, min_eq_left within, max_eq_left (by omega)]
    push_cast
    ring
  · rw [max_eq_right beyond, min_eq_right beyond, max_eq_right (by omega)]
    push_cast
    ring

theorem promptQuota_converted (image : u.imageTokens = 0) (audio : u.audioTokens = 0) :
    promptQuota s r true (buildOpenAIStyleUsageFromClaudeUsage u) +
        u.completionTokens * r.priceData.completionRatio = openAIWeight r.priceData u := by
  have written : cachedCreationTokensWithRatio r.priceData true
      (buildOpenAIStyleUsageFromClaudeUsage u) =
        u.cachedCreationTokens * r.priceData.cacheCreationRatio := by
    rw [cachedCreationTokensWithRatio, if_pos rfl]
    split
    next none =>
      have zero : u.cachedCreationTokens = 0 := none.1
      simp [zero]
    · rfl
  rw [promptQuota, written]
  simp only [buildOpenAIStyleUsageFromClaudeUsage, openAIWeight, image, audio, if_true, ite_self]
  push_cast
  ring

structure PriceData.Ratios (p : PriceData) : Prop where
  modelRatio : 0 ≤ p.modelRatio
  groupRatio : 0 ≤ p.groupRatio
  completion : 0 ≤ p.completionRatio
  cache : 0 ≤ p.cacheRatio
  creation : 0 ≤ p.cacheCreationRatio
  creation5m : 0 ≤ p.cacheCreation5mRatio
  creation1h : 0 ≤ p.cacheCreation1hRatio

section

variable {r : Request} {u : Usage} (ratios : r.priceData.Ratios) (counts : u.Counts)
  (image : u.imageTokens = 0) (audio : u.audioTokens = 0)

include ratios counts

theorem openAIWeight_nonneg : 0 ≤ openAIWeight r.priceData u := by
  have beyond : 0 ≤ cacheCreationTokensForOpenAIUsage u - u.cachedCreationTokens := by
    rw [cacheCreationTokensForOpenAIUsage_eq counts]
    exact sub_nonneg.mpr (le_max_left _ _)
  exact add_nonneg (add_nonneg (add_nonneg (add_nonneg (Int.cast_nonneg counts.promptTokens)
    (Int.cast_nonneg beyond)) (mul_nonneg (Int.cast_nonneg counts.cachedTokens) ratios.cache))
    (mul_nonneg (Int.cast_nonneg counts.cachedCreationTokens) ratios.creation))
    (mul_nonneg (Int.cast_nonneg counts.completionTokens) ratios.completion)

include image audio

theorem claudeWeight_nonneg :
    0 ≤ openAIWeight r.priceData u + splitSurcharge r.priceData u := by
  rw [← promptQuota_claude (s := {}) counts image audio, promptQuota,
    cachedCreationTokensWithRatio_apart counts]
  simp only [image, audio, Bool.false_eq_true, if_false, ite_self, sub_zero, Int.cast_zero,
    zero_mul, add_zero]
  exact add_nonneg (add_nonneg (add_nonneg (Int.cast_nonneg counts.promptTokens)
    (mul_nonneg (Int.cast_nonneg counts.cachedTokens) ratios.cache))
    (add_nonneg (add_nonneg (mul_nonneg (Int.cast_nonneg (le_max_right _ _)) ratios.creation)
      (mul_nonneg (Int.cast_nonneg counts.tokens5m) ratios.creation5m))
      (mul_nonneg (Int.cast_nonneg counts.tokens1h) ratios.creation1h)))
    (mul_nonneg (Int.cast_nonneg counts.completionTokens) ratios.completion)

end

theorem rounded_lt (nonneg : 0 ≤ x) (apart : x + 2 ≤ y) :
    max 1 (roundAway x) < max 1 (roundAway y) := by
  rw [roundAway, roundAway, if_pos nonneg, if_pos (by linarith)]
  have lower : ⌊x + 1 / 2⌋ + 2 ≤ ⌊y + 1 / 2⌋ := by
    rw [← Int.floor_add_ofNat]
    exact Int.floor_mono (by linarith)
  have : 0 ≤ ⌊x + 1 / 2⌋ := Int.floor_nonneg.mpr (by linarith)
  omega

/-- There is a prompt or a completion, or no token of any kind. -/
def Usage.billed (u : Usage) : Prop :=
  0 < u.promptTokens + u.completionTokens ∨ u.cachedTokens = 0 ∧ u.cachedCreationTokens = 0 ∧
    u.claudeCacheCreation5mTokens = 0 ∧ u.claudeCacheCreation1hTokens = 0

/-- The model's ratio is what the administrator sets it to. -/
def Request.withModelRatio (r : Request) (modelRatio : ℚ) : Request :=
  { r with priceData := { r.priceData with modelRatio } }

theorem Plain.withModelRatio (plain : Plain r) (modelRatio : ℚ) :
    Plain (r.withModelRatio modelRatio) :=
  { plain with }

section

variable {u : Usage} (s : Settings) (plain : Plain r) (plain' : Plain r')
  (price : r'.priceData = r.priceData) (claude : usageSemanticFromUsage r u = "anthropic")
  (counts : u.Counts) (image : u.imageTokens = 0) (audio : u.audioTokens = 0)

include plain plain' price claude counts image audio

theorem textQuota_converted :
    textQuota s r u = textQuota s r' (buildOpenAIStyleUsageFromClaudeUsage u) ↔
      r.priceData.ratio = 0 ∨ u.billed ∧
        (u.promptTokens + u.completionTokens = 0 ∨ max 1 (roundAway
            ((openAIWeight r.priceData u + splitSurcharge r.priceData u) * r.priceData.ratio)) =
          max 1 (roundAway (openAIWeight r.priceData u * r.priceData.ratio))) := by
  have prompt := counts.promptTokens
  have completion := counts.completionTokens
  have cached := counts.cachedTokens
  have written := counts.cachedCreationTokens
  have tokens5m := counts.tokens5m
  have tokens1h := counts.tokens1h
  have beside : countedInPrompt r u = false := by simp [countedInPrompt, claude]
  have within : countedInPrompt r' (buildOpenAIStyleUsageFromClaudeUsage u) = true := by
    simp [countedInPrompt, usageSemanticFromUsage, isLegacyClaudeDerivedOpenAIUsage,
      buildOpenAIStyleUsageFromClaudeUsage]
  have converted := plain'.textQuota_eq (u := buildOpenAIStyleUsageFromClaudeUsage u) (s := s)
    audio (within ▸ promptQuota_converted image audio)
  have total : (buildOpenAIStyleUsageFromClaudeUsage u).promptTokens +
    (buildOpenAIStyleUsageFromClaudeUsage u).completionTokens = u.promptTokens + u.cachedTokens +
      cacheCreationTokensForOpenAIUsage u + u.completionTokens := rfl
  rw [plain.textQuota_eq audio (beside ▸ promptQuota_claude counts image audio), converted, price,
    total, cacheCreationTokensForOpenAIUsage_eq counts, Usage.billed]
  by_cases free : r.priceData.ratio = 0
  · simp [free]
  by_cases none : u.promptTokens + u.completionTokens = 0
  · simp only [none, free, or_false, if_true, false_or, true_or, lt_irrefl, and_true]
    split_ifs <;> omega
  · have some : 0 < u.promptTokens + u.completionTokens := by omega
    rw [if_neg (not_or.mpr ⟨none, free⟩), if_neg (not_or.mpr ⟨by omega, free⟩)]
    simp [free, none, some]

theorem textQuota_converted_near (ratios : r.priceData.Ratios)
    (equal : textQuota s r u = textQuota s r' (buildOpenAIStyleUsageFromClaudeUsage u)) :
    r.priceData.ratio = 0 ∨ u.billed ∧ |splitSurcharge r.priceData u * r.priceData.ratio| < 2 := by
  rw [textQuota_converted s plain plain' price claude counts image audio] at equal
  refine equal.imp_right fun ⟨billed, same⟩ => ⟨billed, ?_⟩
  have ratio : 0 ≤ r.priceData.ratio := mul_nonneg ratios.modelRatio ratios.groupRatio
  have weight := mul_nonneg (openAIWeight_nonneg ratios counts) ratio
  have weight' := mul_nonneg (claudeWeight_nonneg ratios counts image audio) ratio
  rw [add_mul] at same weight'
  rcases same with none | same
  · rcases billed with some | ⟨-, -, zero5m, zero1h⟩
    · omega
    · simp [splitSurcharge, zero5m, zero1h, min_eq_left counts.cachedCreationTokens]
  · by_contra! apart
    rcases le_abs.mp apart with more | less
    · exact absurd same (rounded_lt weight (by linarith)).ne'
    · exact absurd same (rounded_lt weight' (by linarith)).ne

/-- The converted usage costs the same at every ratio of the model just if the split costs at its
own ratios what it costs after the conversion, and the usage does not consist of cached or written
tokens only.  At one ratio the rounding hides a difference of less than two units of quota. -/
theorem converted_quota_eq_iff (ratios : r.priceData.Ratios) :
    (r.priceData.ratio = 0 ∨ u.billed ∧ splitSurcharge r.priceData u = 0 →
      textQuota s r u = textQuota s r' (buildOpenAIStyleUsageFromClaudeUsage u)) ∧
    (textQuota s r u = textQuota s r' (buildOpenAIStyleUsageFromClaudeUsage u) →
      r.priceData.ratio = 0 ∨
        u.billed ∧ |splitSurcharge r.priceData u * r.priceData.ratio| < 2) ∧
    ((∀ modelRatio, 0 ≤ modelRatio → textQuota s (r.withModelRatio modelRatio) u =
        textQuota s (r'.withModelRatio modelRatio) (buildOpenAIStyleUsageFromClaudeUsage u)) ↔
      r.priceData.groupRatio = 0 ∨ u.billed ∧ splitSurcharge r.priceData u = 0) := by
  have enough {r r' : Request} (plain : Plain r) (plain' : Plain r')
      (price : r'.priceData = r.priceData) (claude : usageSemanticFromUsage r u = "anthropic")
      (cond : r.priceData.ratio = 0 ∨ u.billed ∧ splitSurcharge r.priceData u = 0) :
      textQuota s r u = textQuota s r' (buildOpenAIStyleUsageFromClaudeUsage u) := by
    rw [textQuota_converted s plain plain' price claude counts image audio]
    exact cond.imp_right fun ⟨billed, even⟩ => ⟨billed, .inr (by rw [even, add_zero])⟩
  have price' (modelRatio : ℚ) : (r'.withModelRatio modelRatio).priceData =
      (r.withModelRatio modelRatio).priceData := by simp [Request.withModelRatio, price]
  refine ⟨enough plain plain' price claude,
    textQuota_converted_near s plain plain' price claude counts image audio ratios, ?_, ?_⟩
  · intro equal
    by_contra! differ
    obtain ⟨group, differ⟩ := differ
    have group : 0 < r.priceData.groupRatio := lt_of_le_of_ne ratios.groupRatio group.symm
    -- the ratio at which the surcharge is two units
    obtain ⟨modelRatio, positive, two⟩ : ∃ modelRatio : ℚ, 0 < modelRatio ∧
        (splitSurcharge r.priceData u ≠ 0 →
          |splitSurcharge r.priceData u * (modelRatio * r.priceData.groupRatio)| = 2) := by
      by_cases even : splitSurcharge r.priceData u = 0
      · exact ⟨1, one_pos, fun odd => absurd even odd⟩
      · have size := abs_pos.mpr even
        refine ⟨2 / (|splitSurcharge r.priceData u| * r.priceData.groupRatio), by positivity,
          fun _ => ?_⟩
        rw [abs_mul, abs_of_pos (by positivity : 0 < 2 /
          (|splitSurcharge r.priceData u| * r.priceData.groupRatio) * r.priceData.groupRatio)]
        field_simp
    have near := textQuota_converted_near s (plain.withModelRatio modelRatio)
      (plain'.withModelRatio modelRatio) (price' modelRatio) claude counts image audio
      { ratios with modelRatio := positive.le } (equal modelRatio positive.le)
    rcases near with free | ⟨billed, near⟩
    · exact absurd free (mul_pos positive group).ne'
    · exact absurd (two (differ billed)) near.ne
  · intro cond modelRatio _
    refine enough (plain.withModelRatio modelRatio) (plain'.withModelRatio modelRatio)
      (price' modelRatio) claude (cond.imp_left fun zero => ?_)
    exact mul_eq_zero_of_right _ zero

end

/-- Ten tokens of the prompt beside a hundred that were written for an hour. -/
def writtenForAnHour : Usage where
  promptTokens := 10
  cachedCreationTokens := 100
  claudeCacheCreation1hTokens := 100

def claudeRequest (format : String) : Request where
  originModelName := "claude-sonnet"
  relayFormat := format
  priceData :=
    { cacheCreationRatio := 5 / 4, cacheCreation1hRatio := 2 }

theorem claudeRequest_plain (format : String) : Plain (claudeRequest format) where
  byRatio := rfl
  notOpenRouter := by simp [claudeRequest]
  builtIn _ given := by cases given
  preview _ := show hasSuffix "claude-sonnet" "search-preview" = false by decide
  claudeWebSearch := le_rfl
  imageGeneration := rfl
  otherRatios := rfl

theorem textQuota_bounds_hour : 0 ≤ textQuota {} (claudeRequest "openai") writtenForAnHour :=
  (textQuota_bounds (claudeRequest_plain _).toRatioPriced
    (by constructor <;> norm_num [claudeRequest]) (by constructor <;> decide)).1

theorem hour_undercharged :
    textQuota {} (claudeRequest "claude") writtenForAnHour = 210 ∧
      textQuota {} (claudeRequest "openai")
        (buildOpenAIStyleUsageFromClaudeUsage writtenForAnHour) = 135 := by
  decide +kernel

theorem converted_quota_eq_iff_hour :
    ¬textQuota {} (claudeRequest "claude") writtenForAnHour =
      textQuota {} (claudeRequest "openai")
        (buildOpenAIStyleUsageFromClaudeUsage writtenForAnHour) := by
  intro equal
  have near := (converted_quota_eq_iff {} (claudeRequest_plain "claude")
    (claudeRequest_plain "openai") rfl (by decide) (by constructor <;> decide) rfl rfl
    (by constructor <;> norm_num [claudeRequest])).2.1 equal
  norm_num [splitSurcharge, claudeRequest, PriceData.ratio, writtenForAnHour] at near

end EastApi.Billing.TextQuota
