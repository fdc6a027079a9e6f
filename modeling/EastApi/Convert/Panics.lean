import EastApi.Billing.Precharge
import EastApi.Convert.OpenAIToClaude
import EastApi.Convert.ClaudeToOpenAI
import EastApi.Convert.GeminiToOpenAI

/-! The bodies that make a converter panic, of those that `GetAndValidateRequest` accepts. -/

namespace EastApi.Convert

open Go OpenAIToClaude ClaudeToOpenAI GeminiToOpenAI
open Billing (RelayMode getAndValidateTextRequest getAndValidateClaudeRequest
  getAndValidateGeminiRequest amd64)

def checkedText : Value → Option String
  | .null => none
  | .str s => some s
  | _ => some "other"

def GeneralOpenAIRequest.checked (r : GeneralOpenAIRequest) : Billing.GeneralOpenAIRequest where
  model := r.model
  maxTokens := r.maxTokens.map UInt64.ofNat
  maxCompletionTokens := r.maxCompletionTokens.map UInt64.ofNat
  searchContextSize := r.webSearchOptions.map (·.searchContextSize)
  prompt := checkedText r.prompt
  messages := r.messages.length
  fillsInMiddle := (checkedText r.prefixText).isSome || (checkedText r.suffixText).isSome
  input := checkedText r.input
  instruction := r.instruction

/-- The validation may set the model and the size of the search context. -/
def validText (mode : RelayMode) (param : String) (r : GeneralOpenAIRequest) :
    Except String GeneralOpenAIRequest :=
  (getAndValidateTextRequest mode param r.checked).map fun checked =>
    { r with
      model := checked.model
      webSearchOptions := r.webSearchOptions.map fun options =>
        { options with searchContextSize := checked.searchContextSize.getD "" } }

def validClaude (r : ClaudeRequest) : Except String ClaudeRequest :=
  (getAndValidateClaudeRequest
    { model := r.model, messages := r.messages.length
      maxTokens := r.maxTokens.map UInt64.ofNat }).map fun _ => r

def validGemini (r : GeminiChatRequest) : Except String GeminiChatRequest :=
  (getAndValidateGeminiRequest
    { contents := r.contents.length, requests := r.requests.length
      maxOutputTokens := r.generationConfig.maxOutputTokens.map UInt64.ofNat }).map fun _ => r

def plainLibraries : Libraries where
  marshal := fun _ => ""
  marshalMedia := fun _ => ""
  parse := fun _ => none
  sprint := fun _ => ""
  getBase64Data := fun _ => .error "no file"
  cpu := amd64

def weatherBody (type stop : Value) : GeneralOpenAIRequest where
  model := "claude-sonnet-4"
  messages := [{ role := "user", content := .value (.str "hi") }]
  tools := [{ type := "function"
              function := { name := "weather", parameters := .obj [("type", type)] } }]
  stop := .value (.arr [stop])

def imageBody (image : Fields) : ClaudeRequest where
  model := "claude-sonnet-4"
  messages :=
    [{ role := "user", content := .value (.arr [.obj (("type", .str "image") :: image)]) }]

def stopBody (stopSequences : List String) : GeminiChatRequest where
  contents := [{ role := "user", parts := [{ text := "hi" }] }]
  generationConfig := { stopSequences }

end EastApi.Convert
