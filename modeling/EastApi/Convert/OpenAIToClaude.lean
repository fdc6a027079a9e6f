import EastApi.Convert.Dto

/-! `RequestOpenAI2ClaudeMessage`: the conversion of a request of the OpenAI format to the Claude
format.  Type assertions and slices panic as in Go. -/

namespace EastApi.Convert.OpenAIToClaude

open Go List

abbrev Converted := Result ConvertError

/-- The schema of a tool: the keys `type`, `properties` and `required`, and then the other ones. -/
def inputSchema (params : Fields) : Converted Fields := do
  let type ← match entry params "type" with
    | .null => pure []
    | type => do pure [("type", .str (← .ofOption type.getString))]
  let rest := params.filter fun e => e.1 ≠ "type" ∧ e.1 ≠ "properties" ∧ e.1 ≠ "required"
  return type ++ [("properties", entry params "properties"),
    ("required", entry params "required")] ++ rest

/-- A tool whose parameters are no object is left out. -/
def addTool (claudeTools : List ClaudeTool) (tool : ToolCallRequest) :
    Converted (List ClaudeTool) :=
  match tool.function.parameters with
  | .obj params => do
    let schema ← inputSchema params
    return claudeTools ++ [.tool
      { name := tool.function.name, description := tool.function.description
        inputSchema := some schema }]
  | _ => return claudeTools

def userLocation (raw : Value) : ClaudeWebSearchUserLocation :=
  let text (fields : Fields) (name : String) := (entry fields name).getString.getD ""
  match raw.field "approximate" with
  | some (.obj fields) =>
    { type := "approximate", timezone := text fields "timezone", country := text fields "country"
      region := text fields "region", city := text fields "city" }
  | _ => { type := "approximate" }

def maxUses : String → Int
  | "low" => 1
  | "medium" => 5
  | "high" => 10
  | _ => 0

def webSearchTool (options : WebSearchOptions) : ClaudeWebSearchTool where
  type := "web_search_20250305"
  name := "web_search"
  maxUses := maxUses options.searchContextSize
  userLocation := options.userLocation.map userLocation

def toolChoiceOf : Value → Option ClaudeToolChoice
  | .str "auto" => some { type := "auto" }
  | .str "required" => some { type := "any" }
  | .str "none" => some { type := "none" }
  | .obj fields =>
    ((entry fields "function").field "name").bind fun name =>
      name.getString.map fun name => { type := "tool", name }
  | _ => none

def mapToolChoice (toolChoice : Value) (parallelToolCalls : Option Bool) :
    Option ClaudeToolChoice :=
  match parallelToolCalls with
  | none => toolChoiceOf toolChoice
  | some allowed =>
    let choice := (toolChoiceOf toolChoice).getD { type := "auto" }
    some (if choice.type = "none" then choice
      else { choice with disableParallelToolUse := !allowed })

structure Settings where
  defaultMaxTokens : List (String × Int) := []
  thinkingAdapterEnabled : Bool := true
  budgetTokensPercentage : ℚ := 8 / 10
  thinkingModelBlacklist : List String := []

def Settings.getDefaultMaxTokens (s : Settings) (model : String) : Int :=
  (s.defaultMaxTokens.lookup model).getD ((s.defaultMaxTokens.lookup "default").getD 8192)

def Settings.shouldPreserveThinkingSuffix (s : Settings) (model : String) : Bool :=
  trimSpace model ≠ "" && s.thinkingModelBlacklist.any fun e => trimSpace e = trimSpace model

def effortSuffixes : List String := ["max", "xhigh", "high", "medium", "low", "minimal"]

def trimSuffix (s tail : String) : String :=
  if hasSuffix s tail then String.ofList (s.toList.take (s.length - tail.length)) else s

def trimEffortSuffix (model : String) : Option (String × String) :=
  (effortSuffixes.find? fun level => hasSuffix model ("-" ++ level)).map fun level =>
    (trimSuffix model ("-" ++ level), level)

def effortConfig (level : String) : Value := .obj [("effort", .str level)]

def applyEffortSuffix (baseModel level : String) (r : ClaudeRequest) : ClaudeRequest :=
  let r := { r with model := baseModel, outputConfig := some (effortConfig level) }
  if hasPrefix baseModel "claude-opus-4-7" then
    { r with
      thinking := some { type := "adaptive", display := "summarized" }
      temperature := none, topP := none, topK := none }
  else { r with thinking := some { type := "adaptive" }, topP := none, temperature := some 1 }

def applyThinkingSuffix (lib : Libraries) (settings : Settings) (model : String)
    (r : ClaudeRequest) : ClaudeRequest :=
  let trimmedModel := trimSuffix model "-thinking"
  let r :=
    if hasPrefix trimmedModel "claude-opus-4-7" then
      { r with
        thinking := some { type := "adaptive", display := "summarized" }
        outputConfig := some (effortConfig "high"), temperature := none, topP := none
        topK := none }
    else
      let maxTokens := if r.maxTokens.getD 0 < 1280 then 1280 else r.maxTokens.getD 0
      { r with
        maxTokens := some maxTokens
        thinking := some
          { type := "enabled"
            budgetTokens := some (lib.cpu.toInt (maxTokens * settings.budgetTokensPercentage)) }
        topP := none, temperature := some 1 }
  if settings.shouldPreserveThinkingSuffix model then r else { r with model := trimmedModel }

/-- The suffix of a model asks for an effort or for thinking. -/
def applyModelSuffix (lib : Libraries) (settings : Settings) (model : String) (r : ClaudeRequest) :
    ClaudeRequest :=
  match trimEffortSuffix model with
  | some (baseModel, level) =>
    if hasPrefix model "claude-opus-4-6" || hasPrefix model "claude-opus-4-7" then
      applyEffortSuffix baseModel level r
    else if settings.thinkingAdapterEnabled && hasSuffix model "-thinking" then
      applyThinkingSuffix lib settings model r
    else r
  | none =>
    if settings.thinkingAdapterEnabled && hasSuffix model "-thinking" then
      applyThinkingSuffix lib settings model r
    else r

def enabledThinking (budgetTokens : Int) : Thinking :=
  { type := "enabled", budgetTokens := some budgetTokens }

def applyReasoningEffort (effort : String) (r : ClaudeRequest) : ClaudeRequest :=
  match effort with
  | "low" => { r with thinking := some (enabledThinking 1280) }
  | "medium" => { r with thinking := some (enabledThinking 2048) }
  | "high" => { r with thinking := some (enabledThinking 4096) }
  | _ => r

def unmarshalReasoning (raw : Value) : Option RequestReasoning :=
  Decoder.unmarshal {} RequestReasoning.decoder raw

def applyReasoning (reasoning : Option Value) (r : ClaudeRequest) : Converted ClaudeRequest :=
  match reasoning with
  | none => return r
  | some raw =>
    match unmarshalReasoning raw with
    | none => .error .unmarshal
    | some reasoning =>
      if 0 < reasoning.maxTokens then
        return { r with thinking := some (enabledThinking reasoning.maxTokens) }
      else return r

def addStop (stopSequences : List String) (stop : Value) : Converted (List String) := do
  return stopSequences ++ [← .ofOption stop.getString]

def stopSequences : Any (List String) → Converted (List String)
  | .value (.str s) => return [s]
  | .value (.arr items) => items.foldlM addStop []
  | _ => return []

/-- `s[:len(s)-1]`, which panics on an empty slice. -/
def dropLast {α : Type} (l : List α) : Converted (List α) :=
  if l = [] then .panicked else .ok l.dropLast

/-- The first loop: neighbours of one role are joined. -/
structure Formatted where
  formatMessages : List Message := []
  lastMessage : Message := { role := "tool" }

/-- Two texts of one role, other than results of tools. -/
def joins (last message : Message) : Bool :=
  last.role = message.role && last.role ≠ "tool" && last.isStringContent && message.isStringContent

/-- An empty role is set in the request only, after the message has been copied. -/
def fmtMessage (last message : Message) : Message :=
  let m : Message :=
    { role := message.role, content := message.content
      toolCallId := if message.role = "tool" then message.toolCallId else ""
      toolCalls := if message.role = "assistant" then message.toolCalls else none }
  let m :=
    if joins last message then
      m.setStringContent (trim '"' (last.stringContent ++ " " ++ message.stringContent))
    else m
  match m.content with
  | .value .null | .value (.str "") => m.setStringContent "..."
  | _ => m

def keptMessages (s : Formatted) (message : Message) : Converted (List Message) :=
  if joins s.lastMessage message then dropLast s.formatMessages else .ok s.formatMessages

def formatMessage (s : Formatted) (message : Message) : Converted Formatted := do
  let formatMessages ← keptMessages s message
  let m := fmtMessage s.lastMessage message
  return ⟨formatMessages ++ [m], m⟩

/-- The second loop. -/
structure Conversation where
  claudeMessages : List ClaudeMessage := []
  isFirstMessage : Bool := true
  systemMessages : List ClaudeMediaMessage := []

def textBlock (text : String) : ClaudeMediaMessage := { type := "text", text := some text }

def systemBlocks (message : Message) : List ClaudeMediaMessage :=
  if message.isStringContent then
    if message.stringContent = "" then [] else [textBlock message.stringContent]
  else
    (message.parseContent.filter fun ctx => ctx.type = "text" ∧ ctx.text ≠ "").map fun ctx =>
      textBlock ctx.text

def toolResult (message : Message) : ClaudeMediaMessage :=
  { type := "tool_result", toolUseId := message.toolCallId, content := message.content }

def contentBlocks : Any (List ClaudeMediaMessage) → Converted (List ClaudeMediaMessage)
  | .value (.str text) => .ok [textBlock text]
  | .typed blocks => .ok blocks
  | .value _ => .panicked

section
variable (lib : Libraries)

def addPart (blocks : List ClaudeMediaMessage) (part : MediaContent) :
    Converted (List ClaudeMediaMessage) :=
  if part.type = "text" then
    return if part.text = "" then blocks else blocks ++ [textBlock part.text]
  else
    match part.toFileSource with
    | none => return blocks
    | some source =>
      match lib.getBase64Data source with
      | .error message => .error (.text ("get file data failed: " ++ message))
      | .ok (data, mimeType) =>
        return blocks ++
          [{ type := if hasPrefix mimeType "application/pdf" then "document" else "image"
             source := some { type := "base64", mediaType := mimeType, data := .str data } }]

/-- The arguments of a call, if they are an object or null. -/
def unmarshalMap (text : String) : Option Value :=
  match lib.parse text with
  | some (.obj fields) => some (.obj fields)
  | some .null => some .null
  | _ => none

def toolUse (call : ToolCallRequest) : Option ClaudeMediaMessage :=
  (unmarshalMap lib call.function.arguments).map fun input =>
    { type := "tool_use", id := call.id, name := call.function.name, input }

def messageContent (message : Message) : Converted (Any (List ClaudeMediaMessage)) :=
  if message.isStringContent ∧ message.toolCalls.isNone then
    return .value (.str (if message.stringContent = "" then "..." else message.stringContent))
  else do
    let blocks ← message.parseContent.foldlM (addPart lib) []
    return .typed (blocks ++ message.parseToolCalls.filterMap (toolUse lib))

def openingMessage : ClaudeMessage := { role := "user", content := .typed [textBlock "..."] }

/-- A conversation begins with a message of the user. -/
def opened (s : Conversation) (message : Message) : Conversation :=
  if s.isFirstMessage then
    { s with
      isFirstMessage := false
      claudeMessages :=
        if message.role = "user" then s.claudeMessages else s.claudeMessages ++ [openingMessage] }
  else s

/-- A result joins a message of the user before it, or makes one. -/
def addToolResult (s : Conversation) (message : Message) : Converted Conversation :=
  match s.claudeMessages.getLast? with
  | some last =>
    if last.role = "user" then do
      let blocks ← contentBlocks last.content
      return { s with
        claudeMessages := s.claudeMessages.dropLast ++
          [{ last with content := .typed (blocks ++ [toolResult message]) }] }
    else return { s with
      claudeMessages := s.claudeMessages ++
        [{ role := "user", content := .typed [toolResult message] }] }
  | none => return { s with
      claudeMessages := s.claudeMessages ++
        [{ role := "user", content := .typed [toolResult message] }] }

def addMessage (s : Conversation) (message : Message) : Converted Conversation :=
  if message.role = "system" then
    return { s with systemMessages := s.systemMessages ++ systemBlocks message }
  else
    let s := opened s message
    if message.role = "tool" then addToolResult s message
    else do
      let content ← messageContent lib message
      return { s with claudeMessages := s.claudeMessages ++ [{ role := message.role, content }] }

def baseRequest (settings : Settings) (request : GeneralOpenAIRequest)
    (claudeTools : List ClaudeTool) : ClaudeRequest where
  model := request.model
  temperature := request.temperature
  tools := .typed (claudeTools ++
    (request.webSearchOptions.map fun o => .webSearch (webSearchTool o)).toList)
  maxTokens := some (if 0 < request.getMaxTokens then request.getMaxTokens
    else (settings.getDefaultMaxTokens request.model % 2 ^ 64).toNat)
  topP := request.topP
  topK := request.topK
  stream := if request.stream.getD false then some true else none
  toolChoice :=
    match mapToolChoice request.toolChoice request.parallelTooCalls with
    | some choice => .typed choice
    | none => .value .null

def convertMessages (messages : List Message) (r : ClaudeRequest) :
    Converted ClaudeRequest := do
  let formatted ← messages.foldlM formatMessage {}
  let conversation ← formatted.formatMessages.foldlM (addMessage lib) {}
  return { r with
    system := if conversation.systemMessages = [] then .value .null
      else .typed conversation.systemMessages
    messages := conversation.claudeMessages }

def convertRest (request : GeneralOpenAIRequest) (r : ClaudeRequest) :
    Converted ClaudeRequest := do
  let r ← applyReasoning request.reasoning r
  let stops ← stopSequences request.stop
  convertMessages lib request.messages { r with stopSequences := stops }

def requestOpenAI2ClaudeMessage (settings : Settings) (request : GeneralOpenAIRequest) :
    Converted ClaudeRequest := do
  let claudeTools ← request.tools.foldlM addTool []
  convertRest lib request (applyReasoningEffort request.reasoningEffort
    (applyModelSuffix lib settings request.model (baseRequest settings request claudeTools)))

end

/-- The type of a schema is there, but is no text. -/
def BadSchema (tool : ToolCallRequest) : Prop :=
  ∃ params, tool.function.parameters = .obj params ∧ entry params "type" ≠ .null ∧
    (entry params "type").getString = none

/-- A list of stops with one that is no text. -/
def BadStop (stop : Any (List String)) : Prop :=
  ∃ items, stop = .value (.arr items) ∧ ∃ v ∈ items, v.getString = none

theorem inputSchema_ne_error (params : Fields) (e : ConvertError) :
    inputSchema params ≠ .error e := by
  unfold inputSchema
  cases entry params "type" <;> simp [Value.getString, Result.ofOption]

theorem addTool_panicked_iff (tools : List ClaudeTool) (tool : ToolCallRequest) :
    addTool tools tool = .panicked ↔ BadSchema tool := by
  unfold addTool BadSchema
  split
  next params same =>
    rw [same]
    simp only [Result.bind_panicked_iff, inputSchema, Value.obj.injEq, exists_eq_left']
    generalize entry params "type" = type
    cases type <;> simp [Value.getString, Result.ofOption]
  next other =>
    refine iff_of_false (by simp) ?_
    rintro ⟨params, same, -⟩
    exact other params same

theorem addTool_ne_error (tools : List ClaudeTool) (tool : ToolCallRequest) (e : ConvertError) :
    addTool tools tool ≠ .error e := by
  unfold addTool
  split
  next params _ =>
    cases schema : inputSchema params with
    | ok a => simp
    | error e' => exact absurd schema (inputSchema_ne_error params e')
    | panicked => simp
  · nofun

theorem tools_panicked_iff (tools : List ToolCallRequest) :
    tools.foldlM addTool [] = .panicked ↔ ∃ tool ∈ tools, BadSchema tool :=
  Result.foldlM_panicked_iff_mem tools (fun tool _ s => addTool_panicked_iff s tool)
    (fun tool _ s => addTool_ne_error s tool) []

theorem stopSequences_panicked_iff (stop : Any (List String)) :
    stopSequences stop = .panicked ↔ BadStop stop := by
  unfold BadStop stopSequences
  split
  · simp
  next items =>
    have each : items.foldlM addStop [] = .panicked ↔ ∃ v ∈ items, v.getString = none :=
      Result.foldlM_panicked_iff_mem items
        (fun v _ s => by simp [addStop, Result.bind_panicked_iff])
        (fun v _ s e => by cases text : v.getString <;> simp [addStop, Result.ofOption, text]) []
    rw [each]
    simp
  next other =>
    refine iff_of_false (by simp) ?_
    rintro ⟨items, rfl, -⟩
    exact other items rfl

theorem formatMessages_ne_panicked (messages : List Message) :
    messages.foldlM formatMessage {} ≠ .panicked := by
  refine Result.foldlM_ne_panicked (I := fun s : Formatted =>
    s.formatMessages ≠ [] ∨ s.lastMessage.role = "tool") messages ?_ ?_ (.inr rfl)
  · intro m _ s t _ step
    left
    obtain ⟨l, -, rest⟩ := Result.bind_ok_iff.mp step
    cases rest
    simp
  · intro m _ s kept
    have calm : keptMessages s m ≠ .panicked := by
      unfold keptMessages dropLast
      by_cases join : joins s.lastMessage m = true
      · have other : s.lastMessage.role ≠ "tool" := by
          simp only [joins, Bool.and_eq_true, decide_eq_true_eq] at join
          exact join.1.1.2
        simp [join, kept.resolve_right other]
      · simp [join]
    simp [formatMessage, Result.bind_panicked_iff, calm]

def HasBlocks (m : ClaudeMessage) : Prop := ∃ blocks, contentBlocks m.content = .ok blocks

theorem messageContent_ne_panicked (lib : Libraries) (message : Message) :
    messageContent lib message ≠ .panicked := by
  unfold messageContent
  split
  · nofun
  · have parts : message.parseContent.foldlM (addPart lib) [] ≠ .panicked :=
      Result.foldlM_ne_panicked (I := fun _ => True) _ (fun _ _ _ _ _ _ => trivial)
        (fun part _ blocks _ => by fun_cases addPart lib blocks part <;> nofun) trivial
    simp [Result.bind_panicked_iff, parts]

theorem messageContent_blocks (h : messageContent lib message = .ok content) (role : String) :
    HasBlocks ⟨role, content⟩ := by
  unfold messageContent at h
  split at h
  · cases h
    exact ⟨_, rfl⟩
  · obtain ⟨blocks, -, rest⟩ := Result.bind_ok_iff.mp h
    cases rest
    exact ⟨_, rfl⟩

theorem opened_blocks (h : ∀ m ∈ s.claudeMessages, HasBlocks m) (message : Message) :
    ∀ m ∈ (opened s message).claudeMessages, HasBlocks m := by
  unfold opened
  split
  · split
    · exact h
    · simp only [forall_mem_append, forall_mem_singleton]
      exact ⟨h, _, rfl⟩
  · exact h

theorem addToolResult_spec (h : ∀ m ∈ s.claudeMessages, HasBlocks m) (message : Message) :
    ∃ t, addToolResult s message = .ok t ∧ ∀ m ∈ t.claudeMessages, HasBlocks m := by
  unfold addToolResult
  split
  next last found =>
    split
    · obtain ⟨blocks, same⟩ := h last (mem_of_getLast? found)
      refine ⟨_, by rw [same]; rfl, ?_⟩
      simp only [forall_mem_append, forall_mem_singleton]
      exact ⟨fun m member => h m (dropLast_subset _ member), _, rfl⟩
    · refine ⟨_, rfl, ?_⟩
      simp only [forall_mem_append, forall_mem_singleton]
      exact ⟨h, _, rfl⟩
  · refine ⟨_, rfl, ?_⟩
    simp only [forall_mem_append, forall_mem_singleton]
    exact ⟨h, _, rfl⟩

theorem messages_ne_panicked (lib : Libraries) (messages : List Message) :
    messages.foldlM (addMessage lib) {} ≠ .panicked := by
  refine Result.foldlM_ne_panicked (I := fun s : Conversation =>
    ∀ m ∈ s.claudeMessages, HasBlocks m) messages ?_ ?_ nofun
  · intro message _ s t kept step
    unfold addMessage at step
    split at step
    · cases step
      exact kept
    · dsimp only at step
      split at step
      · obtain ⟨u, added, blocks⟩ := addToolResult_spec (opened_blocks kept message) message
        rw [added] at step
        cases step
        exact blocks
      · obtain ⟨content, made, rest⟩ := Result.bind_ok_iff.mp step
        cases rest
        simp only [forall_mem_append, forall_mem_singleton]
        exact ⟨opened_blocks kept message, messageContent_blocks made _⟩
  · intro message _ s kept
    unfold addMessage
    split
    · nofun
    · dsimp only
      split
      · obtain ⟨u, added, -⟩ := addToolResult_spec (opened_blocks kept message) message
        rw [added]
        nofun
      · simp [Result.bind_panicked_iff, messageContent_ne_panicked]

theorem applyReasoning_ne_panicked (reasoning : Option Value) (r : ClaudeRequest) :
    applyReasoning reasoning r ≠ .panicked := by
  fun_cases applyReasoning reasoning r <;> nofun

def Reasoned (reasoning : Option Value) : Prop :=
  ∀ raw, reasoning = some raw → unmarshalReasoning raw ≠ none

theorem applyReasoning_ok_iff (reasoning : Option Value) (r : ClaudeRequest) :
    (∃ r', applyReasoning reasoning r = .ok r') ↔ Reasoned reasoning := by
  unfold applyReasoning Reasoned
  split
  · exact iff_of_true ⟨_, rfl⟩ nofun
  next raw =>
    split
    next failed =>
      refine iff_of_false ?_ fun h => h raw rfl failed
      rintro ⟨r', same⟩
      cases same
    next decoded =>
      refine iff_of_true ?_ ?_
      · split <;> exact ⟨_, rfl⟩
      · rintro _ ⟨⟩
        rw [decoded]
        nofun

theorem convertMessages_ne_panicked (lib : Libraries) (messages : List Message)
    (r : ClaudeRequest) : convertMessages lib messages r ≠ .panicked := by
  simp [convertMessages, Result.bind_panicked_iff, formatMessages_ne_panicked,
    messages_ne_panicked]

theorem convertRest_panicked_iff (lib : Libraries) (request : GeneralOpenAIRequest)
    (r : ClaudeRequest) :
    convertRest lib request r = .panicked ↔
      Reasoned request.reasoning ∧ BadStop request.stop := by
  simp only [convertRest, Result.bind_panicked_iff, applyReasoning_ne_panicked,
    stopSequences_panicked_iff, convertMessages_ne_panicked, and_false, exists_false, or_false,
    false_or, exists_and_right, applyReasoning_ok_iff]

theorem convert_panicked_iff (lib : Libraries) (settings : Settings)
    (request : GeneralOpenAIRequest) :
    requestOpenAI2ClaudeMessage lib settings request = .panicked ↔
      (∃ tool ∈ request.tools, BadSchema tool) ∨
        Reasoned request.reasoning ∧ BadStop request.stop := by
  unfold requestOpenAI2ClaudeMessage
  simp only [Result.bind_panicked_iff, tools_panicked_iff, convertRest_panicked_iff]
  by_cases bad : ∃ tool ∈ request.tools, BadSchema tool
  · exact iff_of_true (.inl bad) (.inl bad)
  · have calm : request.tools.foldlM addTool [] ≠ .panicked := by
      rw [Ne, tools_panicked_iff]
      exact bad
    obtain ⟨tools, made⟩ := Result.exists_ok calm
      (Result.foldlM_ne_error request.tools (fun tool _ s => addTool_ne_error s tool) [])
    simp [bad, made]

end EastApi.Convert.OpenAIToClaude
