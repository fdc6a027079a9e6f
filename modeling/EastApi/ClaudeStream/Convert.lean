import EastApi.Lib.GoText

/-! The relay answers a client of the Claude format from an upstream that streams chat chunks in the
OpenAI format.  `StreamResponseOpenAI2Claude` turns one chunk into events, with a state that lives
as long as the request: which kind of block is open, under which index, and whether the message has
ended. -/

namespace EastApi.ClaudeStream

structure Usage where
  (promptTokens completionTokens cachedTokens cachedCreationTokens : Int)
  claudeCacheCreation5mTokens : Int
  claudeCacheCreation1hTokens : Int
  deriving DecidableEq

structure ToolCallResponse where
  index : Option Int
  (id name arguments : String)
  deriving DecidableEq

structure ChoiceDelta where
  (content reasoningContent reasoning : Option String)
  toolCalls : List ToolCallResponse
  deriving DecidableEq

def ChoiceDelta.getContentString (delta : ChoiceDelta) : String := delta.content.getD ""

def ChoiceDelta.getReasoningContent (delta : ChoiceDelta) : String :=
  match delta.reasoningContent, delta.reasoning with
  | none, none => ""
  | some text, _ => text
  | none, some text => text

structure Choice where
  delta : ChoiceDelta
  finishReason : Option String
  deriving DecidableEq

def Choice.isFinished (choice : Choice) : Bool := choice.finishReason.getD "" ≠ ""

structure Chunk where
  (id model : String)
  choices : List Choice
  usage : Option Usage
  deriving DecidableEq

def Chunk.isFinished (chunk : Chunk) : Bool := chunk.choices.head?.any Choice.isFinished

def Chunk.toolCalls (chunk : Chunk) : List ToolCallResponse :=
  (chunk.choices.head?.map (·.delta.toolCalls)).getD []

def Chunk.of (reasoning content : String) (toolCalls : List ToolCallResponse)
    (finishReason : Option String) (usage : Option Usage) : Chunk where
  id := "chatcmpl-1"
  model := "gpt"
  choices := [⟨⟨some content, some reasoning, none, toolCalls⟩, finishReason⟩]
  usage

def someUsage : Usage := ⟨10, 5, 0, 0, 0, 0⟩

structure ClaudeUsage where
  (inputTokens outputTokens cacheCreationInputTokens cacheReadInputTokens : Int)
  cacheCreation : Option (Int × Int)
  deriving DecidableEq

/-- The content block that an event starts. -/
inductive Block where
  | text
  | thinking
  | toolUse (id name : String)
  deriving DecidableEq

inductive BlockDelta where
  | textDelta (text : String)
  | thinkingDelta (thinking : String)
  | inputJsonDelta (partialJson : String)
  deriving DecidableEq

/-- `dto.ClaudeResponse`, by its type. -/
inductive Event where
  | messageStart (id model : String) (inputTokens : Int)
  | contentBlockStart (index : Int) (block : Block)
  | contentBlockDelta (index : Int) (delta : BlockDelta)
  | contentBlockStop (index : Int)
  | messageDelta (stopReason : String) (usage : ClaudeUsage)
  | messageStop
  deriving DecidableEq

def normalizeCacheCreationSplit (totalTokens tokens5m tokens1h : Int) : Int × Int :=
  (tokens5m + max (totalTokens - tokens5m - tokens1h) 0, tokens1h)

def buildClaudeUsageFromOpenAIUsage (usage : Usage) : ClaudeUsage :=
  let split := normalizeCacheCreationSplit usage.cachedCreationTokens
    usage.claudeCacheCreation5mTokens usage.claudeCacheCreation1hTokens
  { inputTokens := usage.promptTokens
    outputTokens := usage.completionTokens
    cacheCreationInputTokens := usage.cachedCreationTokens
    cacheReadInputTokens := usage.cachedTokens
    cacheCreation := if split.1 > 0 ∨ split.2 > 0 then some split else none }

def stopReasonOpenAI2Claude (finishReason : String) : String :=
  match Go.toLower finishReason with
  | "stop" => "end_turn"
  | "stop_sequence" => "stop_sequence"
  | "length" | "max_tokens" => "max_tokens"
  | "content_filter" => "refusal"
  | "tool_calls" => "tool_use"
  | _ => finishReason

inductive LastMessageType where
  | none
  | text
  | tools
  | thinking
  deriving DecidableEq

structure ConvertInfo where
  lastMessagesType : LastMessageType
  index : Int
  usage : Option Usage
  finishReason : String
  done : Bool
  (toolCallBaseIndex toolCallMaxIndexOffset : Int)
  sendResponseCount : Nat
  estimatePromptTokens : Int
  deriving DecidableEq

def genRelayInfoClaude (estimatePromptTokens : Int) : ConvertInfo where
  lastMessagesType := .none
  index := 0
  usage := none
  finishReason := ""
  done := false
  toolCallBaseIndex := 0
  toolCallMaxIndexOffset := 0
  sendResponseCount := 0
  estimatePromptTokens

def stopOpenBlocks (info : ConvertInfo) : List Event :=
  match info.lastMessagesType with
  | .text | .thinking => [.contentBlockStop info.index]
  | .tools => (List.range (info.toolCallMaxIndexOffset + 1).toNat).map fun offset : Nat =>
      .contentBlockStop (info.toolCallBaseIndex + offset)
  | .none => []

def stopOpenBlocksAndAdvance (info : ConvertInfo) : List Event × ConvertInfo :=
  match info.lastMessagesType with
  | .none => ([], info)
  | .tools => (stopOpenBlocks info,
      { info with
        index := info.toolCallBaseIndex + info.toolCallMaxIndexOffset + 1
        toolCallBaseIndex := 0
        toolCallMaxIndexOffset := 0
        lastMessagesType := .none })
  | .text | .thinking =>
    (stopOpenBlocks info, { info with index := info.index + 1, lastMessagesType := .none })

def changeType (next : LastMessageType) (info : ConvertInfo) : List Event × ConvertInfo :=
  if info.lastMessagesType ≠ next then stopOpenBlocksAndAdvance info else ([], info)

def finishMessage (chunk : Chunk) (info : ConvertInfo) : List Event × ConvertInfo :=
  (stopOpenBlocks info ++
    (match chunk.usage <|> info.usage with
      | some usage => [.messageDelta (stopReasonOpenAI2Claude info.finishReason)
          (buildClaudeUsageFromOpenAIUsage usage)]
      | none => []) ++ [.messageStop],
    { info with done := true })

theorem finishMessage_known {info : ConvertInfo}
    (known : (chunk.usage <|> info.usage) = some usage) : (finishMessage chunk info).1 =
      stopOpenBlocks info ++ [.messageDelta (stopReasonOpenAI2Claude info.finishReason)
        (buildClaudeUsageFromOpenAIUsage usage), .messageStop] := by
  simp [finishMessage, known]

theorem finishMessage_unknown (unknown : (chunk.usage <|> info.usage) = none) :
    (finishMessage chunk info).1 = stopOpenBlocks info ++ [.messageStop] := by
  simp [finishMessage, unknown]

def firstToolCall (chunk : Chunk) (info : ConvertInfo) : List Event × ConvertInfo :=
  match chunk.toolCalls with
  | [] => ([], info)
  | toolCall :: _ =>
    (.contentBlockStart 0 (.toolUse toolCall.id toolCall.name) ::
      (if toolCall.arguments ≠ "" then [.contentBlockDelta 0 (.inputJsonDelta toolCall.arguments)]
        else []),
      { info with
        lastMessagesType := .tools
        toolCallBaseIndex := 0
        toolCallMaxIndexOffset := 0 })

def startBlock (type : LastMessageType) (block : Block) (delta : BlockDelta) (info : ConvertInfo) :
    List Event × ConvertInfo :=
  let stops := changeType type info
  (stops.1 ++ [.contentBlockStart stops.2.index block, .contentBlockDelta stops.2.index delta],
    { stops.2 with lastMessagesType := type })

def firstContent (delta : ChoiceDelta) (info : ConvertInfo) : List Event × ConvertInfo :=
  if delta.getReasoningContent ≠ "" then
    startBlock .thinking .thinking (.thinkingDelta delta.getReasoningContent) info
  else if delta.getContentString ≠ "" then
    startBlock .text .text (.textDelta delta.getContentString) info
  else ([], info)

def firstResponse (chunk : Chunk) (info : ConvertInfo) : List Event × ConvertInfo :=
  let start := Event.messageStart chunk.id chunk.model info.estimatePromptTokens
  let calls := firstToolCall chunk info
  match chunk.choices with
  | [] => (start :: calls.1, calls.2)
  | choice :: _ =>
    let content := firstContent choice.delta calls.2
    if choice.isFinished then
      let ending := finishMessage chunk
        { content.2 with finishReason := choice.finishReason.getD "" }
      (start :: calls.1 ++ content.1 ++ ending.1, ending.2)
    else (start :: calls.1 ++ content.1, content.2)

def usageResponse (chunk : Chunk) (info : ConvertInfo) : List Event × ConvertInfo :=
  match chunk.usage <|> info.usage with
  | none => ([], info)
  | some usage =>
    let stopReason := stopReasonOpenAI2Claude info.finishReason
    (stopOpenBlocks info ++
      [.messageDelta (if stopReason = "" then "end_turn" else stopReason)
        (buildClaudeUsageFromOpenAIUsage usage), .messageStop],
      { info with done := true })

def withOffset (toolCalls : List ToolCallResponse) : List (Int × ToolCallResponse) :=
  toolCalls.zipIdx.map fun (toolCall, i) => (toolCall.index.getD i, toolCall)

theorem withOffset_calls (calls : List ToolCallResponse) :
    (withOffset calls).map (·.2) = calls := by
  simp [withOffset, Function.comp_def]

theorem withOffset_cons (call : ToolCallResponse) (rest : List ToolCallResponse) :
    ∃ others, withOffset (call :: rest) = (call.index.getD 0, call) :: others ∧
      others.map (·.2) = rest := by
  have calls := withOffset_calls (call :: rest)
  simp only [withOffset, List.zipIdx_cons, List.map_cons, List.cons.injEq] at calls ⊢
  exact ⟨_, ⟨rfl, rfl⟩, calls.2⟩

def toolCallEvents (base : Int) (call : Int × ToolCallResponse) : List Event :=
  (if call.2.name ≠ "" then
    [.contentBlockStart (base + call.1) (.toolUse call.2.id call.2.name)] else []) ++
  (if call.2.arguments ≠ "" then
    [.contentBlockDelta (base + call.1) (.inputJsonDelta call.2.arguments)] else [])

def maxOffset (offset : Int) (calls : List (Int × ToolCallResponse)) : Int :=
  calls.foldl (fun offset call => if call.1 > offset then call.1 else offset) offset

def openTools (info : ConvertInfo) : List Event × ConvertInfo :=
  if info.lastMessagesType ≠ .tools then
    let stops := stopOpenBlocksAndAdvance info
    (stops.1, { stops.2 with
      toolCallBaseIndex := stops.2.index
      toolCallMaxIndexOffset := 0
      lastMessagesType := .tools })
  else ([], info)

def sendToolCalls (toolCalls : List ToolCallResponse) (info : ConvertInfo) :
    List Event × ConvertInfo :=
  let stops := openTools info
  let base := stops.2.toolCallBaseIndex
  let calls := withOffset toolCalls
  let offset := maxOffset stops.2.toolCallMaxIndexOffset calls
  (stops.1 ++ calls.flatMap (toolCallEvents base),
    { stops.2 with toolCallMaxIndexOffset := offset, index := base + offset })

def sendPiece (type : LastMessageType) (block : Block) (delta : BlockDelta) (info : ConvertInfo) :
    List Event × ConvertInfo :=
  if info.lastMessagesType ≠ type then startBlock type block delta info
  else ([.contentBlockDelta info.index delta], info)

def sendDelta (delta : ChoiceDelta) (info : ConvertInfo) : List Event × ConvertInfo :=
  if delta.toolCalls ≠ [] then sendToolCalls delta.toolCalls info
  else if delta.getReasoningContent ≠ "" then
    sendPiece .thinking .thinking (.thinkingDelta delta.getReasoningContent) info
  else if delta.getContentString ≠ "" then
    sendPiece .text .text (.textDelta delta.getContentString) info
  else ([], info)

def recordFinish (choice : Choice) (info : ConvertInfo) : ConvertInfo :=
  if choice.isFinished then { info with finishReason := choice.finishReason.getD "" } else info

/-- The branch for a chunk with a choice. A chunk with a reason to finish but no usage is not sent:
the message is to be closed by the usage that follows it. -/
def choiceResponse (chunk : Chunk) (choice : Choice) (info : ConvertInfo) :
    List Event × ConvertInfo :=
  let info := recordFinish choice info
  if choice.isFinished ∧ chunk.usage = none then ([], info)
  else
    let content := sendDelta choice.delta info
    if choice.isFinished ∨ content.2.done then
      let ending := finishMessage chunk content.2
      (content.1 ++ ending.1, ending.2)
    else content

def laterResponse (chunk : Chunk) (info : ConvertInfo) : List Event × ConvertInfo :=
  match chunk.choices with
  | [] => usageResponse chunk info
  | choice :: _ => choiceResponse chunk choice info

def streamResponseOpenAI2Claude (chunk : Chunk) (info : ConvertInfo) : List Event × ConvertInfo :=
  if info.done then ([], info)
  else if info.sendResponseCount = 1 then firstResponse chunk info
  else laterResponse chunk info

structure SameMessage (info info' : ConvertInfo) : Prop where
  count : info'.sendResponseCount = info.sendResponseCount
  done : info'.done = info.done
  usage : info'.usage = info.usage

theorem SameMessage.refl (info : ConvertInfo) : SameMessage info info := ⟨rfl, rfl, rfl⟩

theorem SameMessage.trans (ab : SameMessage a b) (bc : SameMessage b c) : SameMessage a c :=
  ⟨bc.count.trans ab.count, bc.done.trans ab.done, bc.usage.trans ab.usage⟩

theorem recordFinish_same (choice : Choice) (info : ConvertInfo) :
    SameMessage info (recordFinish choice info) := by
  unfold recordFinish
  split <;> exact ⟨rfl, rfl, rfl⟩

def recordUsage (chunk : Chunk) (info : ConvertInfo) : ConvertInfo :=
  if chunk.usage.isSome then { info with usage := chunk.usage } else info

def handleClaudeFormat (chunk : Chunk) (info : ConvertInfo) : List Event × ConvertInfo :=
  streamResponseOpenAI2Claude chunk (recordUsage chunk info)

def handleStreamFormat (chunk : Chunk) (info : ConvertInfo) : List Event × ConvertInfo :=
  handleClaudeFormat chunk { info with sendResponseCount := info.sendResponseCount + 1 }

def received (chunk : Chunk) (info : ConvertInfo) : ConvertInfo :=
  { info with
    sendResponseCount := info.sendResponseCount + 1
    usage := chunk.usage <|> info.usage }

theorem handleStreamFormat_eq (chunk : Chunk) (info : ConvertInfo) :
    handleStreamFormat chunk info = streamResponseOpenAI2Claude chunk (received chunk info) := by
  unfold handleStreamFormat handleClaudeFormat recordUsage received
  cases chunk.usage <;> rfl

theorem handleStreamFormat_first (running : info.done = false)
    (fresh : info.sendResponseCount = 0) :
    handleStreamFormat chunk info = firstResponse chunk (received chunk info) := by
  simp [handleStreamFormat_eq, streamResponseOpenAI2Claude, received, running, fresh]

theorem handleStreamFormat_next (running : info.done = false) (begun : 0 < info.sendResponseCount) :
    handleStreamFormat chunk info = laterResponse chunk (received chunk info) := by
  have count : info.sendResponseCount ≠ 0 := by omega
  simp [handleStreamFormat_eq, streamResponseOpenAI2Claude, received, running, count]

def handleFinalResponse (usage : Usage) (chunk : Chunk) (info : ConvertInfo) :
    List Event × ConvertInfo :=
  let events := streamResponseOpenAI2Claude chunk { info with usage := some usage }
  (events.1, { events.2 with done := true })

/-- `OaiStreamHandler`, by what it sends: a chunk goes through `HandleStreamFormat` when the next
one arrives, and the one that is left at the end through `HandleFinalResponse`. -/
def oaiStreamHandler (usage : Usage) : ConvertInfo → List Chunk → List Event
  | _, [] => []
  | info, [last] => (handleFinalResponse usage last info).1
  | info, chunk :: next :: rest =>
    let events := handleStreamFormat chunk info
    events.1 ++ oaiStreamHandler usage events.2 (next :: rest)

end EastApi.ClaudeStream
