import EastApi.Convert.Dto

/-! `ClaudeToOpenAIRequest`: the conversion of a request of the Claude format to the OpenAI format.
A block of the type `image` is dereferenced without a check. -/

namespace EastApi.Convert.ClaudeToOpenAI

open Go

abbrev Converted := Result ConvertError

structure RelayInfo where
  isOpenRouter : Bool := false
  (originModelName upstreamModelName : String)

def effortDecoder : Decoder String :=
  Decoder.struct fun
    | "effort", v, effort => Decoder.string v effort
    | _, _, effort => Decoder.unknown effort

/-- `GetEfforts`; a configuration that cannot be read has none. -/
def getEfforts (outputConfig : Option Value) : String :=
  (outputConfig.bind (Decoder.unmarshal "" effortDecoder)).getD ""

def reasoningJson (r : RequestReasoning) : Value :=
  .obj ([("enabled", .bool r.enabled)] ++
    (if r.effort = "" then [] else [("effort", .str r.effort)]) ++
    (if r.maxTokens = 0 then [] else [("max_tokens", .num r.maxTokens)]) ++
    if r.exclude then [("exclude", .bool true)] else [])

def reasoningOf (thinking : Thinking) : RequestReasoning :=
  match thinking.type with
  | "enabled" => { enabled := true, maxTokens := thinking.budgetTokens.getD 0 }
  | "adaptive" => { enabled := true }
  | _ => {}

def applyReasoning (info : RelayInfo) (claude : ClaudeRequest) (r : GeneralOpenAIRequest) :
    GeneralOpenAIRequest :=
  if info.isOpenRouter then
    { r with
      verbosity :=
        let effort := getEfforts claude.outputConfig
        if effort = "" then none else some (.str effort)
      reasoning := claude.thinking.map fun thinking => reasoningJson (reasoningOf thinking) }
  else if hasSuffix info.originModelName "-thinking" && !hasSuffix r.model "-thinking" then
    { r with model := r.model ++ "-thinking" }
  else r

open Decoder in
def toolDecoder : Decoder Tool :=
  struct fun
    | "name", v, t => into string v t.name fun x => { t with name := x }
    | "description", v, t => into string v t.description fun x => { t with description := x }
    | "input_schema", v, t => into mapping v t.inputSchema fun x => { t with inputSchema := x }
    | _, _, t => unknown t

/-- The tools as they are read from their JSON text. -/
def parseTools : Any (List ClaudeTool) → List Tool
  | .value v => (Decoder.unmarshal [] (Decoder.slice {} toolDecoder) v).getD []
  | .typed tools => tools.map fun
    | .tool t => t
    | .webSearch t => { name := t.name }

def openAITool (t : Tool) : ToolCallRequest :=
  { type := "function"
    function :=
      { name := t.name, description := t.description
        parameters := (t.inputSchema.map Value.obj).getD .null } }

def systemMessage (info : RelayInfo) (system : Any (List ClaudeMediaMessage)) : Option Message :=
  match system with
  | .value .null => none
  | .value (.str text) =>
    if text = "" then none else some { role := "system", content := .value (.str text) }
  | _ =>
    match (parseMedia system).getD [] with
    | [] => none
    | systems =>
      if info.isOpenRouter && hasPrefix info.upstreamModelName "anthropic/claude" then
        some { role := "system"
               content := .typed (systems.map fun s =>
                 { type := "text", text := s.getText, cacheControl := s.cacheControl }) }
      else
        some { role := "system"
               content := .value (.str (concat (systems.map ClaudeMediaMessage.getText))) }

def searchToolNameByToolCallId (messages : List ClaudeMessage) (toolCallId : String) : String :=
  let blocks := messages.flatMap fun m => (parseMedia m.content).getD []
  ((blocks.find? fun b => b.id = toolCallId).map (·.name)).getD ""

/-- The content of a tool result as the text of a message. -/
def resultText (lib : Libraries) (content : Any (List MediaContent)) : String :=
  match content with
  | .value (.str s) => s
  | .value .null | .typed _ => lib.marshalMedia none
  | .value v => lib.marshalMedia (parseMedia (.value v))

/-- What the loop over the blocks of a message has made of them. -/
structure Blocks where
  openAIMessages : List Message
  mediaMessages : List MediaContent := []
  toolCalls : List ToolCallRequest := []

def addBlock (lib : Libraries) (messages : List ClaudeMessage) (s : Blocks)
    (block : ClaudeMediaMessage) : Converted Blocks :=
  match block.type with
  | "text" | "input_text" =>
    return { s with
      mediaMessages := s.mediaMessages ++
        [{ type := "text", text := block.getText, cacheControl := block.cacheControl }] }
  | "image" => do
    let source ← .ofOption block.source
    return { s with
      mediaMessages := s.mediaMessages ++
        [{ type := "image_url"
           imageUrl := some
            { url := "data:" ++ source.mediaType ++ ";base64," ++ lib.sprint source.data } }] }
  | "tool_use" =>
    return { s with
      toolCalls := s.toolCalls ++
        [{ id := block.id, type := "function"
           function := { name := block.name, arguments := lib.marshal block.input } }] }
  | "tool_result" =>
    let toolName :=
      if block.name = "" then searchToolNameByToolCallId messages block.toolUseId else block.name
    return { s with
      openAIMessages := s.openAIMessages ++
        [{ role := "tool", name := some toolName, toolCallId := block.toolUseId
           content := .value (.str (resultText lib block.content)) }] }
  | _ => return s

/-- The message of the blocks: with calls, its texts and images are dropped. -/
def blocksMessage (role : String) (s : Blocks) : List Message :=
  if s.toolCalls ≠ [] then [{ role, toolCalls := some (.typed s.toolCalls) }]
  else if s.mediaMessages ≠ [] then [{ role, content := .typed s.mediaMessages }]
  else []

def addMessage (lib : Libraries) (messages : List ClaudeMessage) (openAIMessages : List Message)
    (m : ClaudeMessage) : Converted (List Message) :=
  match m.content with
  | .value (.str text) =>
    return openAIMessages ++ [{ role := m.role, content := .value (.str text) }]
  | content =>
    match parseMedia content with
    | none => .error .unmarshal
    | some blocks => do
      let s ← blocks.foldlM (addBlock lib messages) { openAIMessages }
      return s.openAIMessages ++ blocksMessage m.role s

def convertStop : List String → Any (List String)
  | [] => .value .null
  | [s] => .value (.str s)
  | stops => .typed stops

def claudeToOpenAIRequest (lib : Libraries) (info : RelayInfo) (claude : ClaudeRequest) :
    Converted GeneralOpenAIRequest := do
  let r : GeneralOpenAIRequest :=
    { model := claude.model, temperature := claude.temperature, maxTokens := claude.maxTokens
      topP := claude.topP, topK := claude.topK, stream := claude.stream
      stop := convertStop claude.stopSequences
      tools := (parseTools claude.tools).map openAITool }
  let messages ← claude.messages.foldlM (addMessage lib claude.messages)
    (systemMessage info claude.system).toList
  return { applyReasoning info claude r with messages }

/-- The content is no text, and no list of blocks. -/
def Malformed (m : ClaudeMessage) : Prop :=
  (∀ text, m.content ≠ .value (.str text)) ∧ parseMedia m.content = none

def BadImage (m : ClaudeMessage) : Prop :=
  (∀ text, m.content ≠ .value (.str text)) ∧
    ∃ blocks, parseMedia m.content = some blocks ∧
      ∃ block ∈ blocks, block.type = "image" ∧ block.source = none

section
variable (lib : Libraries) (messages : List ClaudeMessage)

theorem addBlock_ne_error (s : Blocks) (block : ClaudeMediaMessage) (e : ConvertError) :
    addBlock lib messages s block ≠ .error e := by
  unfold addBlock
  split
  case h_3 => cases source : block.source <;> simp [Result.ofOption]
  all_goals simp

theorem blocks_panicked_iff (s : Blocks) (blocks : List ClaudeMediaMessage) :
    blocks.foldlM (addBlock lib messages) s = .panicked ↔
      ∃ block ∈ blocks, block.type = "image" ∧ block.source = none := by
  refine Result.foldlM_panicked_iff_mem blocks (fun block _ s => ?_)
    (fun block _ s => addBlock_ne_error lib messages s block) s
  unfold addBlock
  split <;> simp_all [Result.bind_panicked_iff]

theorem addMessage_panicked_iff (s : List Message) (m : ClaudeMessage) :
    addMessage lib messages s m = .panicked ↔ BadImage m := by
  unfold addMessage BadImage
  split
  next text same => simp [same]
  next other =>
    split
    next failed => simp [failed]
    next blocks parsed =>
      simp only [Result.bind_panicked_iff, blocks_panicked_iff, parsed, Result.pure_eq,
        reduceCtorEq, and_false, exists_false, or_false, Option.some.injEq, exists_eq_left']
      exact (and_iff_right other).symm

theorem addMessage_error_iff (s : List Message) (m : ClaudeMessage) :
    (∃ e, addMessage lib messages s m = .error e) ↔ Malformed m := by
  unfold addMessage Malformed
  split
  next text same => simp [same]
  next other =>
    split
    next failed => exact iff_of_true ⟨_, rfl⟩ ⟨other, failed⟩
    next blocks parsed =>
      have right := Result.foldlM_ne_error blocks
        (fun block _ s => addBlock_ne_error lib messages s block) { openAIMessages := s }
      cases run : blocks.foldlM (addBlock lib messages) { openAIMessages := s } with
      | ok t => simp [parsed]
      | error e => exact absurd run (right e)
      | panicked => simp [parsed]

end

theorem convert_panicked_iff (lib : Libraries) (info : RelayInfo) (claude : ClaudeRequest) :
    claudeToOpenAIRequest lib info claude = .panicked ↔
      ∃ before m after, claude.messages = before ++ m :: after ∧ BadImage m ∧
        ∀ m' ∈ before, ¬ Malformed m' := by
  rw [← Result.foldlM_panicked_iff claude.messages
    (fun m _ s => addMessage_panicked_iff lib claude.messages s m)
    (fun m _ s => addMessage_error_iff lib claude.messages s m)
    (systemMessage info claude.system).toList]
  simp [claudeToOpenAIRequest, Result.bind_panicked_iff]

end EastApi.Convert.ClaudeToOpenAI
