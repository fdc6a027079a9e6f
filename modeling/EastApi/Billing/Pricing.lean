import EastApi.Billing.Session
import EastApi.Lib.GoFloat

/-! What a request is charged in advance: `GetAndValidateRequest`, the token counts that the price
depends on, `ModelPriceHelper`, and `Relay` up to its call of `PreConsumeBilling`. -/

namespace EastApi.Billing

open Go

def ofUint (x : UInt64) : Int := wrap64 x.toNat

inductive RelayMode
  | chatCompletions | completions | embeddings | moderations | edits | unknown
deriving DecidableEq, Repr

/-- A body in the chat format.  `prompt` and `input` are `none` where the field is missing, and a
prompt or an input that is not a string is some other text. -/
structure GeneralOpenAIRequest where
  model : String
  maxTokens : Option UInt64 := none
  maxCompletionTokens : Option UInt64 := none
  searchContextSize : Option String := none
  prompt : Option String := none
  messages : Nat := 0
  fillsInMiddle : Bool := false
  input : Option String := none
  instruction : String := ""
deriving DecidableEq, Repr

structure ClaudeRequest where
  model : String
  messages : Nat
  maxTokens : Option UInt64 := none
deriving DecidableEq, Repr

structure OpenAIResponsesRequest where
  model : String
  hasInput : Bool
  maxOutputTokens : Option UInt64 := none
deriving DecidableEq, Repr

structure GeminiChatRequest where
  contents : Nat
  requests : Nat := 0
  maxOutputTokens : Option UInt64 := none
deriving DecidableEq, Repr

/-- A parsed body.  The checks of an image and of the bodies that have no token limit do not read
what the price depends on. -/
inductive Request
  | text (r : GeneralOpenAIRequest)
  | claude (r : ClaudeRequest)
  | responses (r : OpenAIResponsesRequest)
  | gemini (r : GeminiChatRequest)
  | image (imagePriceRatio : ℚ)
  | base
deriving DecidableEq, Repr

def withDefaultModel (mode : RelayMode) (param : String) (r : GeneralOpenAIRequest) :
    GeneralOpenAIRequest :=
  if r.model ≠ "" then r
  else match mode with
    | .moderations => { r with model := "text-moderation-latest" }
    | .embeddings => { r with model := param }
    | _ => r

def checkRelayMode (mode : RelayMode) (r : GeneralOpenAIRequest) :
    Except String GeneralOpenAIRequest :=
  match mode with
  | .completions => if r.prompt = some "" then .error "field prompt is required" else .ok r
  | .chatCompletions =>
    if r.messages = 0 ∧ !r.fillsInMiddle then .error "field messages is required" else .ok r
  | .moderations =>
    if r.input = none ∨ r.input = some "" then .error "field input is required" else .ok r
  | .edits => if r.instruction = "" then .error "field instruction is required" else .ok r
  | .embeddings | .unknown => .ok r

def getAndValidateTextRequest (mode : RelayMode) (param : String) (r : GeneralOpenAIRequest) :
    Except String GeneralOpenAIRequest :=
  let r := withDefaultModel mode param r
  if 1073741823 < r.maxTokens.getD 0 then .error "max_tokens is invalid"
  else if r.model = "" then .error "model is required"
  else match r.searchContextSize with
    | none => checkRelayMode mode r
    | some "" => checkRelayMode mode { r with searchContextSize := some "medium" }
    | some size =>
      if size = "high" ∨ size = "medium" ∨ size = "low" then checkRelayMode mode r
      else .error "invalid search_context_size, must be one of: high, medium, low"

def getAndValidateClaudeRequest (r : ClaudeRequest) : Except String ClaudeRequest :=
  if r.messages = 0 then .error "field messages is required"
  else if r.model = "" then .error "field model is required"
  else .ok r

def getAndValidateResponsesRequest (r : OpenAIResponsesRequest) :
    Except String OpenAIResponsesRequest :=
  if r.model = "" then .error "model is required"
  else if !r.hasInput then .error "input is required"
  else .ok r

def getAndValidateGeminiRequest (r : GeminiChatRequest) : Except String GeminiChatRequest :=
  if r.contents = 0 ∧ r.requests = 0 then .error "contents is required" else .ok r

def getAndValidateRequest (mode : RelayMode) (param : String) : Request → Except String Request
  | .text r => (getAndValidateTextRequest mode param r).map .text
  | .claude r => (getAndValidateClaudeRequest r).map .claude
  | .responses r => (getAndValidateResponsesRequest r).map .responses
  | .gemini r => (getAndValidateGeminiRequest r).map .gemini
  | .image ratio => .ok (.image ratio)
  | .base => .ok .base

structure TokenCountMeta where
  maxTokens : Int := 0
  imagePriceRatio : ℚ := 0
deriving DecidableEq, Repr

def GeneralOpenAIRequest.limit (r : GeneralOpenAIRequest) : Int :=
  if r.maxTokens.getD 0 < r.maxCompletionTokens.getD 0 then ofUint (r.maxCompletionTokens.getD 0)
  else ofUint (r.maxTokens.getD 0)

def Request.tokenCountMeta (fast : Bool) : Request → TokenCountMeta
  | .text r => { maxTokens := r.limit }
  | .claude r => { maxTokens := ofUint (r.maxTokens.getD 0) }
  | .responses r => { maxTokens := ofUint (r.maxOutputTokens.getD 0) }
  | .gemini r => { maxTokens := if fast then 0 else ofUint (r.maxOutputTokens.getD 0) }
  | .image ratio => { maxTokens := 1584, imagePriceRatio := ratio }
  | .base => {}

/-- The settings that the price of a model depends on: its price per call or its ratio, whether the
ratio is set or the user accepts an unset one, and the ratio of the group. -/
structure Pricing where
  matchName : String
  isAdmin : Bool := false
  modelPrice : Option ℚ := none
  modelRatio : ℚ := 1
  ratioSet : Bool := true
  acceptUnsetRatio : Bool := false
  groupRatio : ℚ := 1
  quotaPerUnit : ℚ := 500000
  preConsumedQuota : Int := 500
  enableFreeModelPreConsume : Bool := true

structure PriceData where
  freeModel : Bool
  quotaToPreConsume : Int
deriving DecidableEq, Repr

def modelPriceNotConfiguredError (p : Pricing) : String :=
  if p.isAdmin then
    "模型 " ++ p.matchName ++ " 的价格未配置。请前往「系统设置 → 运营设置」开启自用模式，" ++
    "或在「系统设置 → 分组与模型定价设置」中为该模型配置价格；" ++
    "Model " ++ p.matchName ++ " price not configured. " ++
    "Go to System Settings → Operation Settings to enable self-use mode, " ++
    "or configure the model price in System Settings → Group & Model Pricing."
  else
    "模型 " ++ p.matchName ++ " 的价格尚未由管理员配置，暂时无法使用，请联系站点管理员开启该模型；" ++
    "Model " ++ p.matchName ++ " has not been priced by the administrator yet. " ++
    "Please contact the site administrator to enable this model."

def Pricing.preConsumedTokens (p : Pricing) (promptTokens : Int) (counts : TokenCountMeta) : Int :=
  let tokens := max promptTokens p.preConsumedQuota
  if counts.maxTokens ≠ 0 then wrap64 (tokens + counts.maxTokens) else tokens

def Pricing.priced (p : Pricing) (price : ℚ) (quota : Int) : PriceData :=
  if !p.enableFreeModelPreConsume ∧ (p.groupRatio = 0 ∨ price = 0) then ⟨true, 0⟩
  else ⟨false, quota⟩

def modelPriceHelper (cpu : Processor) (p : Pricing) (promptTokens : Int)
    (counts : TokenCountMeta) :
    Except String PriceData :=
  match p.modelPrice with
  | none =>
    if !p.ratioSet ∧ !p.acceptUnsetRatio then .error (modelPriceNotConfiguredError p)
    else .ok (p.priced p.modelRatio
      (cpu.toInt (p.preConsumedTokens promptTokens counts * (p.modelRatio * p.groupRatio))))
  | some modelPrice =>
    let price :=
      if counts.imagePriceRatio ≠ 0 then modelPrice * counts.imagePriceRatio else modelPrice
    .ok (p.priced price (cpu.toInt (price * p.quotaPerUnit * p.groupRatio)))

inductive RelayError
  | invalidRequest (message : String)
  | modelPriceError (message : String)
  | billing (err : NewAPIError)
deriving DecidableEq, Repr

def relay (cfg : Config) (faults : SessionFaults) (cpu : Processor) (p : Pricing) (fast : Bool)
    (mode : RelayMode) (param : String) (promptTokens : Int) (st : Store) (info : RelayInfo)
    (request : Request) : Option (Store × Except RelayError (Option Session)) :=
  match getAndValidateRequest mode param request with
  | .error message => some (st, .error (.invalidRequest message))
  | .ok request =>
    match modelPriceHelper cpu p promptTokens (request.tokenCountMeta fast) with
    | .error message => some (st, .error (.modelPriceError message))
    | .ok priceData =>
      if priceData.freeModel then some (st, .ok none)
      else match newBillingSession cfg faults st info priceData.quotaToPreConsume with
        | none => none
        | some (st, .error err) => some (st, .error (.billing err))
        | some (st, .ok s) => some (st, .ok (some s))

end EastApi.Billing
