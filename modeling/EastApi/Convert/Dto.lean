import EastApi.Lib.GoDecode
import EastApi.Lib.GoFloat
import EastApi.Lib.GoPanic
import EastApi.Lib.GoText

/-! The requests of the OpenAI and the Claude format, as they are decoded from a body, with the
methods that read their contents.  Fields that no converter reads are left out.  A field of the type
`interface{}` that is missing is `null`, and a missing `json.RawMessage` is `none`. -/

namespace EastApi.Convert

open Go

abbrev Fields := List (String × Value)

def entry (fields : Fields) (name : String) : Value := (fields.lookup name).getD .null

inductive FileSource
  | url (url : String)
  | base64 (data mimeType : String)
deriving DecidableEq

def newFileSourceFromData (data mimeType : String) : FileSource :=
  if hasPrefix data "http://" || hasPrefix data "https://" then .url data
  else .base64 data mimeType

/-- The errors of the converters: one of `encoding/json`, or a text. -/
inductive ConvertError
  | unmarshal
  | text (message : String)
deriving DecidableEq

structure MessageImageUrl where
  url : String
  detail : String := ""
  mimeType : String := ""

structure MessageInputAudio where
  (data format : String)

structure MessageFile where
  fileName : String := ""
  fileData : String := ""
  fileId : String := ""

structure MediaContent where
  type : String
  text : String := ""
  imageUrl : Option MessageImageUrl := none
  inputAudio : Option MessageInputAudio := none
  file : Option MessageFile := none
  videoUrl : Option String := none
  cacheControl : Option Value := none

def MediaContent.toFileSource (m : MediaContent) : Option FileSource :=
  match m.type with
  | "image_url" => m.imageUrl.bind fun img =>
    if img.url = "" then none else some (newFileSourceFromData img.url img.mimeType)
  | "input_audio" => m.inputAudio.bind fun audio =>
    if audio.data = "" then none
    else some (newFileSourceFromData audio.data
      (if audio.format = "" then "" else "audio/" ++ audio.format))
  | "file" => m.file.bind fun file =>
    if file.fileData = "" then none else some (newFileSourceFromData file.fileData "")
  | "video_url" => m.videoUrl.bind fun url =>
    if url = "" then none else some (newFileSourceFromData url "")
  | _ => none

structure FunctionRequest where
  description : String := ""
  name : String := ""
  parameters : Value := .null
  arguments : String := ""

structure ToolCallRequest where
  id : String := ""
  type : String := ""
  function : FunctionRequest := {}
  custom : Option Value := none

open Decoder in
def FunctionRequest.decoder : Decoder FunctionRequest :=
  struct fun
    | "description", v, f => into string v f.description fun x => { f with description := x }
    | "name", v, f => into string v f.name fun x => { f with name := x }
    | "parameters", v, f => into any v f.parameters fun x => { f with parameters := x }
    | "arguments", v, f => into string v f.arguments fun x => { f with arguments := x }
    | _, _, f => unknown f

open Decoder in
def ToolCallRequest.decoder : Decoder ToolCallRequest :=
  struct fun
    | "id", v, t => into string v t.id fun x => { t with id := x }
    | "type", v, t => into string v t.type fun x => { t with type := x }
    | "function", v, t =>
      into FunctionRequest.decoder v t.function fun x => { t with function := x }
    | "custom", v, t => into raw v t.custom fun x => { t with custom := x }
    | _, _, t => unknown t

structure Message where
  role : String
  content : Any (List MediaContent) := .value .null
  name : Option String := none
  toolCalls : Option (Any (List ToolCallRequest)) := none
  toolCallId : String := ""

namespace Message

/-- A list that cannot be decoded is decoded as far as possible. -/
def parseToolCalls (m : Message) : List ToolCallRequest :=
  match m.toolCalls with
  | none => []
  | some (.value v) => (Decoder.slice {} ToolCallRequest.decoder v []).1
  | some (.typed calls) => calls

def setStringContent (m : Message) (content : String) : Message :=
  { m with content := .value (.str content) }

def isStringContent (m : Message) : Bool :=
  match m.content with
  | .value (.str _) => true
  | _ => false

def itemText : Value → String
  | .obj fields =>
    match entry fields "type" with
    | .str "text" => (entry fields "text").getString.getD ""
    | _ => ""
  | _ => ""

def stringContent (m : Message) : String :=
  match m.content with
  | .value (.str s) => s
  | .value (.arr items) => concat (items.map itemText)
  | _ => ""

def parseImageUrl : Value → MessageImageUrl
  | .str s => { url := s, detail := "high" }
  | .obj fields =>
    { url := (entry fields "url").getString.getD ""
      detail := (entry fields "detail").getString.getD "high" }
  | _ => { url := "", detail := "high" }

def parseInputAudio : Value → Option MessageInputAudio
  | .obj fields => do
    let data ← (entry fields "data").getString
    let format ← (entry fields "format").getString
    return { data, format }
  | _ => none

def parseFile : Value → Option MessageFile
  | .obj fields =>
    match (entry fields "file_id").getString with
    | some fileId => some { fileId }
    | none => do
      let fileName ← (entry fields "filename").getString
      let fileData ← (entry fields "file_data").getString
      return { fileName, fileData }
  | _ => none

def parseItem : Value → Option MediaContent
  | .obj fields => do
    match ← (entry fields "type").getString with
    | "text" => return { type := "text", text := ← (entry fields "text").getString }
    | "image_url" =>
      return { type := "image_url", imageUrl := some (parseImageUrl (entry fields "image_url")) }
    | "input_audio" =>
      return { type := "input_audio"
               inputAudio := some (← parseInputAudio (entry fields "input_audio")) }
    | "file" => return { type := "file", file := some (← parseFile (entry fields "file")) }
    | "video_url" =>
      return { type := "video_url", videoUrl := some (← (entry fields "video_url").getString) }
    | _ => none
  | _ => none

def parseContent (m : Message) : List MediaContent :=
  match m.content with
  | .value (.str text) => [{ type := "text", text }]
  | .value (.arr items) => items.filterMap parseItem
  | .value _ => []
  | .typed media => media

end Message

structure WebSearchOptions where
  searchContextSize : String := ""
  userLocation : Option Value := none

structure GeneralOpenAIRequest where
  model : String
  messages : List Message := []
  prompt : Value := .null
  prefixText : Value := .null
  suffixText : Value := .null
  stream : Option Bool := none
  maxTokens : Option ℕ := none
  maxCompletionTokens : Option ℕ := none
  reasoningEffort : String := ""
  verbosity : Option Value := none
  temperature : Option ℚ := none
  topP : Option ℚ := none
  topK : Option Int := none
  stop : Any (List String) := .value .null
  n : Option Int := none
  input : Value := .null
  instruction : String := ""
  parallelTooCalls : Option Bool := none
  tools : List ToolCallRequest := []
  toolChoice : Value := .null
  webSearchOptions : Option WebSearchOptions := none
  reasoning : Option Value := none

def GeneralOpenAIRequest.getMaxTokens (r : GeneralOpenAIRequest) : ℕ :=
  if r.maxCompletionTokens.getD 0 ≠ 0 then r.maxCompletionTokens.getD 0 else r.maxTokens.getD 0

structure RequestReasoning where
  enabled : Bool := false
  effort : String := ""
  maxTokens : Int := 0
  exclude : Bool := false

open Decoder in
def RequestReasoning.decoder : Decoder RequestReasoning :=
  struct fun
    | "enabled", v, r => into bool v r.enabled fun x => { r with enabled := x }
    | "effort", v, r => into string v r.effort fun x => { r with effort := x }
    | "max_tokens", v, r => into int v r.maxTokens fun x => { r with maxTokens := x }
    | "exclude", v, r => into bool v r.exclude fun x => { r with exclude := x }
    | _, _, r => unknown r

structure ClaudeCacheCreationUsage where
  ephemeral5mInputTokens : Int := 0
  ephemeral1hInputTokens : Int := 0

structure ClaudeUsage where
  inputTokens : Int := 0
  cacheCreationInputTokens : Int := 0
  cacheReadInputTokens : Int := 0
  outputTokens : Int := 0
  cacheCreation : Option ClaudeCacheCreationUsage := none
  claudeCacheCreation5mTokens : Int := 0
  claudeCacheCreation1hTokens : Int := 0
  webSearchRequests : Option Int := none

structure ClaudeMessageSource where
  type : String := ""
  mediaType : String := ""
  data : Value := .null
  url : String := ""

structure ClaudeMediaMessage where
  type : String := ""
  text : Option String := none
  model : String := ""
  source : Option ClaudeMessageSource := none
  usage : Option ClaudeUsage := none
  stopReason : Option String := none
  partialJson : Option String := none
  role : String := ""
  thinking : Option String := none
  signature : String := ""
  delta : String := ""
  cacheControl : Option Value := none
  id : String := ""
  name : String := ""
  input : Value := .null
  content : Any (List MediaContent) := .value .null
  toolUseId : String := ""

section
open Decoder

def ClaudeCacheCreationUsage.decoder : Decoder ClaudeCacheCreationUsage :=
  struct fun
    | "ephemeral_5m_input_tokens", v, u =>
      into int v u.ephemeral5mInputTokens fun x => { u with ephemeral5mInputTokens := x }
    | "ephemeral_1h_input_tokens", v, u =>
      into int v u.ephemeral1hInputTokens fun x => { u with ephemeral1hInputTokens := x }
    | _, _, u => unknown u

def webSearchRequestsDecoder : Decoder Int :=
  struct fun
    | "web_search_requests", v, n => int v n
    | _, _, n => unknown n

def ClaudeUsage.decoder : Decoder ClaudeUsage :=
  struct fun
    | "input_tokens", v, u => into int v u.inputTokens fun x => { u with inputTokens := x }
    | "cache_creation_input_tokens", v, u =>
      into int v u.cacheCreationInputTokens fun x => { u with cacheCreationInputTokens := x }
    | "cache_read_input_tokens", v, u =>
      into int v u.cacheReadInputTokens fun x => { u with cacheReadInputTokens := x }
    | "output_tokens", v, u => into int v u.outputTokens fun x => { u with outputTokens := x }
    | "cache_creation", v, u =>
      into (pointer {} ClaudeCacheCreationUsage.decoder) v u.cacheCreation fun x =>
        { u with cacheCreation := x }
    | "claude_cache_creation_5_m_tokens", v, u =>
      into int v u.claudeCacheCreation5mTokens fun x => { u with claudeCacheCreation5mTokens := x }
    | "claude_cache_creation_1_h_tokens", v, u =>
      into int v u.claudeCacheCreation1hTokens fun x => { u with claudeCacheCreation1hTokens := x }
    | "server_tool_use", v, u =>
      into (pointer 0 webSearchRequestsDecoder) v u.webSearchRequests fun x =>
        { u with webSearchRequests := x }
    | _, _, u => unknown u

def ClaudeMessageSource.decoder : Decoder ClaudeMessageSource :=
  struct fun
    | "type", v, s => into string v s.type fun x => { s with type := x }
    | "media_type", v, s => into string v s.mediaType fun x => { s with mediaType := x }
    | "data", v, s => into any v s.data fun x => { s with data := x }
    | "url", v, s => into string v s.url fun x => { s with url := x }
    | _, _, s => unknown s

def ClaudeMediaMessage.decoder : Decoder ClaudeMediaMessage :=
  struct fun
    | "type", v, m => into string v m.type fun x => { m with type := x }
    | "text", v, m => into (pointer "" string) v m.text fun x => { m with text := x }
    | "model", v, m => into string v m.model fun x => { m with model := x }
    | "source", v, m =>
      into (pointer {} ClaudeMessageSource.decoder) v m.source fun x => { m with source := x }
    | "usage", v, m =>
      into (pointer {} ClaudeUsage.decoder) v m.usage fun x => { m with usage := x }
    | "stop_reason", v, m =>
      into (pointer "" string) v m.stopReason fun x => { m with stopReason := x }
    | "partial_json", v, m =>
      into (pointer "" string) v m.partialJson fun x => { m with partialJson := x }
    | "role", v, m => into string v m.role fun x => { m with role := x }
    | "thinking", v, m => into (pointer "" string) v m.thinking fun x => { m with thinking := x }
    | "signature", v, m => into string v m.signature fun x => { m with signature := x }
    | "delta", v, m => into string v m.delta fun x => { m with delta := x }
    | "cache_control", v, m => into raw v m.cacheControl fun x => { m with cacheControl := x }
    | "id", v, m => into string v m.id fun x => { m with id := x }
    | "name", v, m => into string v m.name fun x => { m with name := x }
    | "input", v, m => into any v m.input fun x => { m with input := x }
    | "content", v, m => into any v .null fun x => { m with content := .value x }
    | "tool_use_id", v, m => into string v m.toolUseId fun x => { m with toolUseId := x }
    | _, _, m => unknown m

end

def ClaudeMediaMessage.getText (m : ClaudeMediaMessage) : String := m.text.getD ""

def parseMedia : Any (List ClaudeMediaMessage) → Option (List ClaudeMediaMessage)
  | .value v => Decoder.unmarshal [] (Decoder.slice {} ClaudeMediaMessage.decoder) v
  | .typed media => some media

structure ClaudeMessage where
  role : String
  content : Any (List ClaudeMediaMessage) := .value .null

structure Tool where
  name : String := ""
  description : String := ""
  inputSchema : Option Fields := none

structure ClaudeWebSearchUserLocation where
  type : String
  timezone : String := ""
  country : String := ""
  region : String := ""
  city : String := ""

structure ClaudeWebSearchTool where
  (type name : String)
  maxUses : Int := 0
  userLocation : Option ClaudeWebSearchUserLocation := none

inductive ClaudeTool
  | tool (t : Tool)
  | webSearch (t : ClaudeWebSearchTool)

structure ClaudeToolChoice where
  type : String
  name : String := ""
  disableParallelToolUse : Bool := false

structure Thinking where
  type : String := ""
  budgetTokens : Option Int := none
  display : String := ""

structure ClaudeRequest where
  model : String
  prompt : String := ""
  system : Any (List ClaudeMediaMessage) := .value .null
  messages : List ClaudeMessage := []
  maxTokens : Option ℕ := none
  stopSequences : List String := []
  temperature : Option ℚ := none
  topP : Option ℚ := none
  topK : Option Int := none
  stream : Option Bool := none
  tools : Any (List ClaudeTool) := .value .null
  outputConfig : Option Value := none
  toolChoice : Any ClaudeToolChoice := .value .null
  thinking : Option Thinking := none

/-- The libraries and the outside world.  `marshal` and `marshalMedia` are `json.Marshal`, the
latter of a slice that may be `nil`, `parse` is `json.Unmarshal` of one value, `sprint` is the
format `%s`, and `getBase64Data` gives the data and the type of a file. -/
structure Libraries where
  marshal : Value → String
  marshalMedia : Option (List ClaudeMediaMessage) → String
  parse : String → Option Value
  sprint : Value → String
  getBase64Data : FileSource → Except String (String × String)
  cpu : Processor

def emptyObjects : Libraries where
  marshal
    | .null => "null"
    | _ => "\x7b\x7d"
  marshalMedia _ := "[]"
  parse _ := none
  sprint _ := ""
  getBase64Data _ := .error ""
  cpu := .amd64

end EastApi.Convert
