import EastApi.ClaudeStream.Convert
import EastApi.Convert.GeminiToOpenAI

/-! `responseGeminiChat2OpenAI`, the conversion of an answer of the Gemini format.  A variable says
for all candidates whether a tool is called. -/

namespace EastApi.Convert.Gemini

open Go List
open ClaudeStream (ToolCallResponse)
open GeminiToOpenAI (GeminiInlineData FunctionCall)

/-- `GeminiPart` of an answer.  `uuid` is what `GetUUID` gives for its call. -/
structure Part where
  text : String := ""
  thought : Bool := false
  inlineData : Option GeminiInlineData := none
  functionCall : Option FunctionCall := none
  /-- The language and the code. -/
  executableCode : Option (String × String) := none
  /-- Its output. -/
  codeExecutionResult : Option String := none
  uuid : String := ""

structure Candidate where
  index : Int := 0
  parts : List Part := []
  finishReason : Option String := none

def getResponseToolCall (lib : Libraries) (call : FunctionCall) (uuid : String) :
    ToolCallResponse :=
  ⟨none, "call_" ++ uuid, call.functionName, lib.marshal call.arguments⟩

def imageText (data : GeminiInlineData) : String :=
  "![image](data:" ++ data.mimeType ++ ";base64," ++ data.data ++ ")"

def mediaText (data : GeminiInlineData) : String :=
  if hasPrefix data.mimeType "image" then imageText data
  else "[media](data:" ++ data.mimeType ++ ";base64," ++ data.data ++ ")"

/-- The text of a part that is code, its output, or a text of its own. -/
def plainTexts (part : Part) (tail : String) : List String :=
  match part.executableCode, part.codeExecutionResult with
  | some (language, code), _ => ["```" ++ language ++ "\n" ++ code ++ "\n```" ++ tail]
  | none, some output => ["```output\n" ++ output ++ "\n```" ++ tail]
  | none, none => if part.text = "\n" then [] else [part.text]

def openAIFinishReason : String → String
  | "STOP" => "stop"
  | "MAX_TOKENS" => "length"
  | _ => "content_filter"

structure Choice where
  index : Int
  (content reasoningContent : String)
  toolCalls : List ToolCallResponse
  finishReason : String

/-- What the loop over the parts has collected. -/
structure Collected where
  texts : List String := []
  reasoningContent : String := ""
  toolCalls : List ToolCallResponse := []
  finishReason : String := "stop"

def collect (lib : Libraries) (s : Collected) (part : Part) : Collected :=
  match part.inlineData, part.functionCall with
  | some data, _ => { s with texts := s.texts ++ [mediaText data] }
  | none, some call =>
    { s with
      finishReason := "tool_calls"
      toolCalls := s.toolCalls ++ [getResponseToolCall lib call part.uuid] }
  | none, none =>
    if part.thought then { s with reasoningContent := part.text }
    else { s with texts := s.texts ++ plainTexts part "" }

/-- One candidate, with the flag that its predecessors leave. -/
def candidateChoice (lib : Libraries) (isToolCall : Bool) (candidate : Candidate) : Choice × Bool :=
  let parts := candidate.parts.foldl (collect lib) {}
  let isToolCall := isToolCall || parts.toolCalls ≠ []
  let finishReason := (candidate.finishReason.map openAIFinishReason).getD parts.finishReason
  ({ index := candidate.index
     content := join '\n' parts.texts
     reasoningContent := parts.reasoningContent
     toolCalls := parts.toolCalls
     finishReason := if isToolCall then "tool_calls" else finishReason }, isToolCall)

def convertCandidates (lib : Libraries) (isToolCall : Bool) : List Candidate → List Choice
  | [] => []
  | candidate :: rest =>
    let choice := candidateChoice lib isToolCall candidate
    choice.1 :: convertCandidates lib choice.2 rest

def responseGeminiChat2OpenAI (lib : Libraries) (candidates : List Candidate) : List Choice :=
  convertCandidates lib false candidates

def Part.calls (part : Part) : Bool := part.inlineData.isNone && part.functionCall.isSome

def Part.thinks (part : Part) : Bool :=
  part.inlineData.isNone && part.functionCall.isNone && part.thought

def Candidate.calls (candidate : Candidate) : Bool := candidate.parts.any (·.calls)

def Candidate.thoughts (candidate : Candidate) : List String :=
  (candidate.parts.filter (·.thinks)).map (·.text)

/-- What a client reads of a choice, but for the random ids of its calls. -/
def Choice.seen (choice : Choice) : Int × String × String × List (String × String) × String :=
  (choice.index, choice.content, choice.reasoningContent,
    choice.toolCalls.map (fun call => (call.name, call.arguments)), choice.finishReason)

/-- The choice that the candidate has alone, with all its thoughts. -/
structure OwnChoice (lib : Libraries) (candidate : Candidate) (choice : Choice) : Prop where
  alone : (responseGeminiChat2OpenAI lib [candidate]).map (·.seen) = [choice.seen]
  thoughts : ∀ text ∈ candidate.thoughts, contains choice.reasoningContent text = true

theorem foldl_collect (lib : Libraries) (parts : List Part) (s : Collected) :
    (parts.foldl (collect lib) s).reasoningContent =
        ((parts.filter (·.thinks)).map (·.text)).getLast?.getD s.reasoningContent ∧
      ((parts.foldl (collect lib) s).toolCalls ≠ [] ↔
        s.toolCalls ≠ [] ∨ parts.any (·.calls) = true) ∧
      (parts.any (·.calls) = false →
        (parts.foldl (collect lib) s).finishReason = s.finishReason) := by
  induction parts generalizing s with
  | nil => simp
  | cons part rest ih =>
    obtain ⟨reasoning, calls, finish⟩ := ih (collect lib s part)
    rw [foldl_cons, reasoning, calls, any_cons, Bool.or_eq_false_iff]
    refine ⟨?_, ?_, fun none => (finish none.2).trans ?_⟩
    all_goals
      cases data : part.inlineData <;> cases call : part.functionCall <;>
        cases thought : part.thought <;>
        simp_all [collect, Part.thinks, Part.calls, getLast?_cons]

theorem candidateChoice_isToolCall (lib : Libraries) (isToolCall : Bool) (candidate : Candidate) :
    (candidateChoice lib isToolCall candidate).2 = (isToolCall || candidate.calls) := by
  have calls := (foldl_collect lib candidate.parts {}).2.1
  simp only [ne_eq, not_true_eq_false, false_or] at calls
  simp only [candidateChoice, calls, Candidate.calls, Bool.decide_eq_true]

theorem ownChoice_iff (isToolCall : Bool) (candidate : Candidate) :
    OwnChoice lib candidate (candidateChoice lib isToolCall candidate).1 ↔
      (isToolCall = true → candidate.calls = true) ∧
      ∀ text ∈ candidate.thoughts, contains (candidate.thoughts.getLast?.getD "") text = true := by
  obtain ⟨reasoning, -, finish⟩ := foldl_collect lib candidate.parts {}
  have last : (candidateChoice lib isToolCall candidate).1.reasoningContent =
      candidate.thoughts.getLast?.getD "" := reasoning
  have ends (isToolCall : Bool) : (candidateChoice lib isToolCall candidate).1.finishReason =
      if isToolCall || candidate.calls then "tool_calls"
      else (candidate.finishReason.map openAIFinishReason).getD "stop" := by
    rw [← candidateChoice_isToolCall lib]
    refine ite_congr rfl (fun _ => rfl) fun none => ?_
    rw [candidateChoice_isToolCall, Bool.or_eq_true, not_or, Bool.not_eq_true, Bool.not_eq_true]
      at none
    rw [finish none.2]
  have alone : (responseGeminiChat2OpenAI lib [candidate]).map (·.seen) =
        [(candidateChoice lib isToolCall candidate).1.seen] ↔
      (candidateChoice lib false candidate).1.finishReason =
        (candidateChoice lib isToolCall candidate).1.finishReason := by
    simp [responseGeminiChat2OpenAI, convertCandidates, Choice.seen, candidateChoice]
  have reason : (candidate.finishReason.map openAIFinishReason).getD "stop" ≠ "tool_calls" := by
    cases candidate.finishReason with
    | none => decide
    | some r =>
      rw [Option.map_some, Option.getD_some, openAIFinishReason.eq_def]
      split <;> decide
  refine ⟨fun own => ⟨fun called => ?_, last ▸ own.thoughts⟩,
    fun ⟨own, thoughts⟩ => ⟨alone.mpr ?_, last ▸ thoughts⟩⟩
  · have same := alone.mp own.alone
    rw [ends, ends] at same
    by_contra not
    simp [called, not, reason] at same
  · rw [ends, ends]
    cases isToolCall
    · rfl
    · simp [own rfl]

theorem choices_own_iff (isToolCall : Bool) (candidates : List Candidate) :
    List.Forall₂ (OwnChoice lib) candidates (convertCandidates lib isToolCall candidates) ↔
      ((isToolCall = true → ∀ c ∈ candidates, c.calls = true) ∧
        candidates.Pairwise fun c c' => c.calls = true → c'.calls = true) ∧
      ∀ c ∈ candidates, ∀ text ∈ c.thoughts,
        contains (c.thoughts.getLast?.getD "") text = true := by
  induction candidates generalizing isToolCall with
  | nil => simp [convertCandidates]
  | cons candidate rest ih =>
    rw [convertCandidates, forall₂_cons, ownChoice_iff, candidateChoice_isToolCall, ih]
    simp only [forall_mem_cons, pairwise_cons, Bool.or_eq_true]
    grind

/-- Every choice is that of its candidate alone and has all its thoughts if and only if all
candidates after one that calls a tool call one too, and the last thought of a candidate contains
the other ones. -/
theorem candidates_independent_iff (lib : Libraries) (candidates : List Candidate) :
    List.Forall₂ (OwnChoice lib) candidates (responseGeminiChat2OpenAI lib candidates) ↔
      (candidates.Pairwise fun c c' => c.calls = true → c'.calls = true) ∧
      ∀ c ∈ candidates, ∀ text ∈ c.thoughts,
        contains (c.thoughts.getLast?.getD "") text = true := by
  rw [responseGeminiChat2OpenAI, choices_own_iff]
  simp

def weatherCall : Part where
  functionCall := some ⟨"weather", .obj []⟩
  uuid := "1"

/-- A text after a candidate with a tool call ends with `tool_calls`, and of two thoughts the second
is left. -/
theorem candidate_depends_on_other :
    (responseGeminiChat2OpenAI emptyObjects [{ parts := [weatherCall] },
        { parts := [{ text := "It is sunny." }], finishReason := some "STOP" }]).map
          (·.finishReason) = ["tool_calls", "tool_calls"] ∧
      (responseGeminiChat2OpenAI emptyObjects
        [{ parts := [{ text := "It is sunny." }], finishReason := some "STOP" }]).map
          (·.finishReason) = ["stop"] ∧
      (responseGeminiChat2OpenAI emptyObjects
        [{ parts := [{ thought := true, text := "A" }, { thought := true, text := "B" }] }]).map
          (·.reasoningContent) = ["B"] := by
  decide

end EastApi.Convert.Gemini
