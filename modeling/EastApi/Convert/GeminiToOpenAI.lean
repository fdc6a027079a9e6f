import EastApi.Convert.Dto

/-! `GeminiToOpenAIRequest`: the conversion of a request of the Gemini format to the OpenAI format.
The stop sequences are cut to four with a slice expression. -/

namespace EastApi.Convert.GeminiToOpenAI

open Go

abbrev Converted := Result ConvertError

structure GeminiInlineData where
  (mimeType data : String)

structure GeminiFileData where
  mimeType : String := ""
  fileUri : String := ""

structure FunctionCall where
  functionName : String
  arguments : Value

structure GeminiPart where
  text : String := ""
  inlineData : Option GeminiInlineData := none
  functionCall : Option FunctionCall := none
  /-- The field `response` of a function response. -/
  functionResponse : Option (Option Fields) := none
  fileData : Option GeminiFileData := none

structure GeminiChatContent where
  role : String := ""
  parts : List GeminiPart := []

structure GeminiChatGenerationConfig where
  temperature : Option ℚ := none
  topP : Option ℚ := none
  topK : Option ℚ := none
  maxOutputTokens : Option ℕ := none
  candidateCount : Option Int := none
  stopSequences : List String := []

/-- A request.  `requests` are the parts of a batch, which no conversion reads. -/
structure GeminiChatRequest where
  requests : List Value := []
  contents : List GeminiChatContent := []
  generationConfig : GeminiChatGenerationConfig := {}
  tools : Option Value := none
  systemInstructions : Option GeminiChatContent := none

def toolDecoder : Decoder Value :=
  Decoder.struct fun
    | "functiondeclarations", v, old => Decoder.any v old
    | _, _, old => Decoder.unknown old

def getTools : Option Value → List Value
  | some (.arr items) =>
    (Decoder.unmarshal [] (Decoder.slice .null toolDecoder) (.arr items)).getD []
  | some (.obj fields) => (Decoder.unmarshal .null toolDecoder (.obj fields)).toList
  | _ => []

structure RelayInfo where
  upstreamModelName : String
  isStream : Bool

def convertGeminiRoleToOpenAI : String → String
  | "user" => "user"
  | "model" => "assistant"
  | "function" => "function"
  | _ => "user"

structure Parts where
  messages : List Message
  mediaContents : List MediaContent := []
  toolCalls : List ToolCallRequest := []

def addPart (lib : Libraries) (s : Parts) (part : GeminiPart) : Parts :=
  if part.text ≠ "" then
    { s with mediaContents := s.mediaContents ++ [{ type := "text", text := part.text }] }
  else
    match part.inlineData, part.fileData, part.functionCall, part.functionResponse with
    | some inlineData, _, _, _ =>
      { s with
        mediaContents := s.mediaContents ++
          [{ type := "image_url"
             imageUrl := some
              { url := "data:" ++ inlineData.mimeType ++ ";base64," ++ inlineData.data
                detail := "auto", mimeType := inlineData.mimeType } }] }
    | none, some fileData, _, _ =>
      { s with
        mediaContents := s.mediaContents ++
          [{ type := "image_url"
             imageUrl := some
              { url := fileData.fileUri, detail := "auto", mimeType := fileData.mimeType } }] }
    | none, none, some call, _ =>
      { s with
        toolCalls := s.toolCalls ++
          [{ id := "call_" ++ toString (s.toolCalls.length + 1), type := "function"
             function := { name := call.functionName, arguments := lib.marshal call.arguments } }] }
    | none, none, none, some response =>
      { s with
        messages := s.messages ++
          [{ role := "tool", toolCallId := "call_" ++ toString s.toolCalls.length
             content := .value (.str (lib.marshal ((response.map Value.obj).getD .null))) }] }
    | none, none, none, none => s

def contentMessage (role : String) (s : Parts) : Message :=
  if s.toolCalls ≠ [] then { role, toolCalls := some (.typed s.toolCalls) }
  else
    match s.mediaContents with
    | [] => { role }
    | [{ type := "text", text, .. }] => { role, content := .value (.str text) }
    | media => { role, content := .typed media }

def addContent (lib : Libraries) (messages : List Message) (content : GeminiChatContent) :
    List Message :=
  let s := content.parts.foldl (addPart lib) { messages }
  let message := contentMessage (convertGeminiRoleToOpenAI content.role) s
  if message.parseContent ≠ [] ∨ message.toolCalls.isSome then s.messages ++ [message]
  else s.messages

def sliceTo {α : Type} (n : ℕ) (l : List α) : Converted (List α) :=
  if l.length < n then .panicked else .ok (l.take n)

def convertStop (stopSequences : List String) : Converted (Any (List String)) :=
  if stopSequences = [] then .ok (.value .null)
  else do return .typed (← sliceTo 4 stopSequences)

def toolFunctions (functionDeclarations : Value) : List ToolCallRequest :=
  let functions :=
    (Decoder.unmarshal [] (Decoder.slice {} FunctionRequest.decoder) functionDeclarations).getD []
  functions.map fun f =>
    { type := "function"
      function := { name := f.name, description := f.description, parameters := f.parameters } }

def extractTextFromGeminiParts (parts : List GeminiPart) : String :=
  "\n".intercalate ((parts.map (·.text)).filter (· ≠ ""))

def systemMessage (content : GeminiChatContent) : Message :=
  { role := "system", content := .value (.str (extractTextFromGeminiParts content.parts)) }

def geminiToOpenAIRequest (lib : Libraries) (info : RelayInfo) (request : GeminiChatRequest) :
    Converted GeneralOpenAIRequest := do
  let messages := request.contents.foldl (addContent lib) []
  let config := request.generationConfig
  let stop ← convertStop config.stopSequences
  return {
    model := info.upstreamModelName
    stream := some info.isStream
    messages := (request.systemInstructions.map systemMessage).toList ++ messages
    temperature := config.temperature
    topP := config.topP.filter (0 < ·)
    topK := (config.topK.filter (0 < ·)).map lib.cpu.toInt
    maxTokens := config.maxOutputTokens.filter (0 < ·)
    stop
    n := config.candidateCount.filter (0 < ·)
    tools := (getTools request.tools).flatMap toolFunctions }

theorem convertStop_panicked_iff (stops : List String) :
    convertStop stops = .panicked ↔ 0 < stops.length ∧ stops.length < 4 := by
  unfold convertStop sliceTo
  split
  next empty => simp [empty]
  next some =>
    have positive : 0 < stops.length := List.length_pos_of_ne_nil some
    split
    next short => exact iff_of_true rfl ⟨positive, short⟩
    next long => exact iff_of_false nofun fun h => long h.2

theorem convert_panicked_iff (lib : Libraries) (info : RelayInfo) (request : GeminiChatRequest) :
    geminiToOpenAIRequest lib info request = .panicked ↔
      0 < request.generationConfig.stopSequences.length ∧
        request.generationConfig.stopSequences.length < 4 := by
  rw [← convertStop_panicked_iff]
  simp [geminiToOpenAIRequest, Result.bind_panicked_iff]

end EastApi.Convert.GeminiToOpenAI
