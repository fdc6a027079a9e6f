import EastApi.Convert.AnswerRoundTrip
import EastApi.Convert.GeminiAnswer

/-! `ResponseOpenAI2Gemini` and `StreamResponseOpenAI2Gemini`: answers of the OpenAI format for a
client of the Gemini format.  Every fragment of a streamed tool call becomes a call. -/

namespace EastApi.Convert.Gemini

open Go List
open ClaudeStream (ToolCallResponse)
open GeminiToOpenAI (FunctionCall)
open OpenAIToClaude (unmarshalMap)

section
variable (lib : Libraries)

def functionCall (name arguments : String) : FunctionCall where
  functionName := name
  arguments :=
    if arguments = "" then .obj []
    else (unmarshalMap lib arguments).getD (.obj [("arguments", .str arguments)])

def geminiFinishReason : String → String
  | "length" => "MAX_TOKENS"
  | "content_filter" => "SAFETY"
  | _ => "STOP"

def textParts (text : String) : List Part := if text = "" then [] else [{ text }]

def messageParts (message : Message) : List Part :=
  match message.parseToolCalls with
  | [] => textParts message.stringContent
  | calls => calls.map fun call =>
      { functionCall := some (functionCall lib call.function.name call.function.arguments) }

def responseOpenAI2Gemini (choices : List TextChoice) : List Candidate :=
  choices.map fun choice =>
    { index := choice.index
      parts := messageParts lib choice.message
      finishReason := some (geminiFinishReason choice.finishReason) }

/-- A choice of a chunk.  An empty list of tool calls is not a missing one. -/
structure DeltaChoice where
  index : Int := 0
  content : Option String := none
  toolCalls : Option (List ToolCallResponse) := none
  finishReason : Option String := none

def DeltaChoice.parts (choice : DeltaChoice) : List Part :=
  match choice.toolCalls with
  | none => textParts (choice.content.getD "")
  | some calls => calls.map fun call =>
      { functionCall := some (functionCall lib call.name call.arguments) }

/-- `none` for a chunk that is skipped. -/
def streamResponseOpenAI2Gemini (choices : List DeltaChoice) : Option (List Candidate) :=
  if choices.any fun choice => choice.content.getD "" ≠ "" || choice.toolCalls.getD [] ≠ [] ||
      choice.finishReason.isSome then
    some (choices.map fun choice =>
      { index := choice.index
        parts := choice.parts lib
        finishReason := choice.finishReason.map geminiFinishReason })
  else none

def functionCalls (candidates : List Candidate) : List FunctionCall :=
  candidates.flatMap fun candidate => candidate.parts.filterMap (·.functionCall)

def streamedCalls (chunks : List DeltaChoice) : List FunctionCall :=
  chunks.flatMap fun chunk => functionCalls ((streamResponseOpenAI2Gemini lib [chunk]).getD [])

end

def fragments (chunks : List DeltaChoice) : List ToolCallResponse :=
  chunks.flatMap fun chunk => chunk.toolCalls.getD []

def heads (chunks : List DeltaChoice) : List ToolCallResponse :=
  (fragments chunks).filter (·.name ≠ "")

def assembled (chunks : List DeltaChoice) : List (String × String) :=
  (heads chunks).map fun head =>
    (head.name, (((fragments chunks).filter (·.index = head.index)).map (·.arguments)).foldl
      (· ++ ·) "")

theorem streamedCalls_eq (lib : Libraries) (chunks : List DeltaChoice) : streamedCalls lib chunks =
    (fragments chunks).map fun call => functionCall lib call.name call.arguments := by
  rw [streamedCalls, fragments, map_flatMap]
  refine flatMap_congr fun chunk _ => ?_
  have calls : (chunk.parts lib).filterMap (·.functionCall) =
      (chunk.toolCalls.getD []).map fun call => functionCall lib call.name call.arguments := by
    unfold DeltaChoice.parts
    cases chunk.toolCalls with
    | none => by_cases text : chunk.content.getD "" = "" <;> simp [textParts, text]
    | some calls => simp [filterMap_map]
  unfold streamResponseOpenAI2Gemini
  split
  · rw [← calls]
    simp [functionCalls]
  next skipped =>
    simp only [any_cons, any_nil, Bool.or_false, Bool.or_eq_true, not_or,
      decide_eq_true_eq, not_not] at skipped
    rw [skipped.1.2]
    rfl

/-- All calls of a stream reach the client as they do when they are not streamed, if and only if no
call is split. -/
theorem streamed_calls_whole_iff (lib : Libraries) (chunks : List DeltaChoice) (choice : TextChoice)
    (once : ((heads chunks).map (·.index)).Nodup)
    (whole : choice.message.parseToolCalls.map (fun call =>
      (call.function.name, call.function.arguments)) = assembled chunks) :
    functionCalls (responseOpenAI2Gemini lib [choice]) =
        (assembled chunks).map (fun call => functionCall lib call.1 call.2) ∧
      (streamedCalls lib chunks = functionCalls (responseOpenAI2Gemini lib [choice]) ↔
        ∀ fragment ∈ fragments chunks, fragment.name ≠ "") := by
  have answered : functionCalls (responseOpenAI2Gemini lib [choice]) =
      (assembled chunks).map (fun call => functionCall lib call.1 call.2) := by
    rw [← whole]
    cases calls : choice.message.parseToolCalls with
    | nil =>
      by_cases text : choice.message.stringContent = "" <;>
        simp [functionCalls, responseOpenAI2Gemini, messageParts, calls, textParts, text]
    | cons call rest =>
      simp [functionCalls, responseOpenAI2Gemini, messageParts, calls, filterMap_map,
        Function.comp_def]
  refine ⟨answered, ?_⟩
  rw [answered, streamedCalls_eq]
  refine ⟨fun same => ?_, fun named => ?_⟩
  · have count := congrArg length same
    simp only [length_map, assembled, heads] at count
    simpa using length_filter_eq_length_iff.mp count.symm
  · have all : heads chunks = fragments chunks := filter_eq_self.mpr (by simpa using named)
    rw [all] at once
    rw [assembled, all, map_map]
    refine map_congr_left fun call member => ?_
    have own : (fragments chunks).filter (·.index = call.index) = [call] := by
      obtain ⟨before, after, split⟩ := append_of_mem member
      rw [split] at once ⊢
      simp only [map_append, map_cons, nodup_append, nodup_cons,
        mem_map, not_exists, not_and] at once
      rw [filter_append, filter_cons_of_pos (by simp), filter_eq_nil_iff.mpr,
        filter_eq_nil_iff.mpr, nil_append]
      · simpa using once.2.1.1
      · simpa using fun a early => (once.2.2 a early _ mem_cons_self)
    simp [own]

def parallelChoice : TextChoice where
  message :=
    { role := "assistant", content := .value (.str "")
      toolCalls := some (.typed
        [{ id := "call_1", function := { name := "weather", arguments := "\x7b\x7d" } },
          { id := "call_2", function := { name := "time", arguments := "\x7b\x7d" } }]) }
  finishReason := "tool_calls"

theorem streamed_calls_whole_iff_parallel :
    streamedCalls oneObject [{ toolCalls := some [⟨some 0, "call_1", "weather", "\x7b\x7d"⟩] },
        { toolCalls := some [⟨some 1, "call_2", "time", "\x7b\x7d"⟩] }] =
      functionCalls (responseOpenAI2Gemini oneObject [parallelChoice]) :=
  (streamed_calls_whole_iff oneObject _ _ (by decide) rfl).2.mpr (by decide)

def splitCall : List DeltaChoice :=
  [{ toolCalls := some [⟨some 0, "call_1", "weather", "\x7b"⟩] },
    { toolCalls := some [⟨some 0, "", "", "\x7d"⟩] }]

/-- A call that comes in two pieces is two calls, the second of no function. -/
theorem split_call_doubled : streamedCalls emptyObjects splitCall =
    [⟨"weather", .obj [("arguments", .str "\x7b")]⟩, ⟨"", .obj [("arguments", .str "\x7d")]⟩] ∧
      assembled splitCall = [("weather", "\x7b\x7d")] :=
  ⟨rfl, rfl⟩

end EastApi.Convert.Gemini
