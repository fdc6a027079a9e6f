import EastApi.Convert.ClaudeAnswer
import EastApi.Convert.OpenAIToClaude

/-! `ResponseOpenAI2Claude`, the conversion of an answer that is not streamed, and back.  The reason
to finish decides whether the text of a choice is converted or its tool calls. -/

namespace EastApi.Convert

open Go Function Option List
open ClaudeStream (stopReasonOpenAI2Claude)
open OpenAIToClaude (unmarshalMap)

structure TextChoice where
  message : Message
  finishReason : String
  index : Int := 0

structure OpenAITextResponse where
  id : String := ""
  model : String := ""
  choices : List TextChoice

/-- Arguments that are no object are kept as a text. -/
def toolInput (lib : Libraries) (arguments : String) : Value :=
  (unmarshalMap lib arguments).getD (.str arguments)

def choiceContents (lib : Libraries) (choice : TextChoice) : List ClaudeMediaMessage :=
  if choice.finishReason = "tool_calls" then
    choice.message.parseToolCalls.map fun toolUse =>
      { type := "tool_use", id := toolUse.id, name := toolUse.function.name
        input := toolInput lib toolUse.function.arguments }
  else [{ type := "text", text := some choice.message.stringContent }]

def responseOpenAI2Claude (lib : Libraries) (r : OpenAITextResponse) : ClaudeResponse where
  id := r.id
  type := "message"
  model := r.model
  content := r.choices.flatMap (choiceContents lib)
  stopReason := ((r.choices.getLast?).map fun choice =>
    stopReasonOpenAI2Claude choice.finishReason).getD ""

/-- The answer in the Claude format has the text and the tool calls of the message, and so has the
answer that it is converted back to. -/
structure KeepsMessage (lib : Libraries) (message : Message) (r : ClaudeResponse) : Prop where
  text : message.stringContent ≠ "" →
    ∃ block ∈ r.content, block.type = "text" ∧ block.text = some message.stringContent
  toolUses : (r.content.filter (·.type = "tool_use")).map (fun b => (b.id, b.name, some b.input)) =
    message.parseToolCalls.map fun call =>
      (call.id, call.function.name, unmarshalMap lib call.function.arguments)
  content : (responseClaude2OpenAI lib r).content = message.stringContent
  toolCalls : (responseClaude2OpenAI lib r).toolCalls.map
      (fun call => (call.id, call.name, unmarshalMap lib call.arguments)) =
    message.parseToolCalls.map fun call =>
      (call.id, call.function.name, unmarshalMap lib call.function.arguments)

/-- What `encoding/json` has decoded it decodes again after `Marshal`. -/
def ReadsBack (lib : Libraries) : Prop :=
  ∀ text v, lib.parse text = some v → lib.parse (lib.marshal v) = some v

theorem ReadsBack.unmarshalMap (reads : ReadsBack lib)
    (parsed : unmarshalMap lib arguments = some input) :
    OpenAIToClaude.unmarshalMap lib (lib.marshal input) = some input := by
  unfold OpenAIToClaude.unmarshalMap at parsed ⊢
  split at parsed
  next fields read =>
    cases parsed
    rw [reads _ _ read]
  next read =>
    cases parsed
    rw [reads _ _ read]
  · cases parsed

theorem toolUse_kept_iff (reads : ReadsBack lib) (arguments : String) :
    (some (toolInput lib arguments) = unmarshalMap lib arguments ∧
      unmarshalMap lib (lib.marshal (toolInput lib arguments)) = unmarshalMap lib arguments) ↔
      (unmarshalMap lib arguments).isSome := by
  cases parsed : unmarshalMap lib arguments with
  | none => simp
  | some input =>
    have same : toolInput lib arguments = input := by rw [toolInput, parsed, getD_some]
    simp [same, reads.unmarshalMap parsed]

/-- A choice keeps its message if and only if it ends with tool calls, says nothing and calls its
tools with objects, or ends otherwise and calls no tool. -/
theorem answer_kept_iff (lib : Libraries) (reads : ReadsBack lib) (id model : String)
    (choice : TextChoice) :
    KeepsMessage lib choice.message (responseOpenAI2Claude lib ⟨id, model, [choice]⟩) ↔
      if choice.finishReason = "tool_calls" then
        choice.message.stringContent = "" ∧ ∀ call ∈ choice.message.parseToolCalls,
          (unmarshalMap lib call.function.arguments).isSome
      else choice.message.parseToolCalls = [] := by
  generalize answer : responseOpenAI2Claude lib ⟨id, model, [choice]⟩ = r
  have content : r.content = choiceContents lib choice := by
    simp [← answer, responseOpenAI2Claude]
  unfold choiceContents at content
  split
  next tools =>
    rw [if_pos tools] at content
    have blocks : r.content = (choice.message.parseToolCalls.map fun call =>
        AnswerBlock.toolUse call.id call.function.name
          (toolInput lib call.function.arguments)).map (·.media) := by
      simp [content, AnswerBlock.media, comp_def]
    have reply := reply_responseClaude2OpenAI lib _ r blocks
    have said : (responseClaude2OpenAI lib r).content = "" := by
      simpa [TextResponse.reply, AnswerBlock.text?] using congrArg Reply.content reply
    have called : (responseClaude2OpenAI lib r).toolCalls.map
        (fun call => (call.id, call.name, call.arguments)) =
          choice.message.parseToolCalls.map fun call => (call.id, call.function.name,
            lib.marshal (toolInput lib call.function.arguments)) := by
      simpa [TextResponse.reply, AnswerBlock.call?, comp_def] using
        congrArg Reply.toolCalls reply
    have back := congrArg (map fun c : String × String × String =>
      (c.1, c.2.1, unmarshalMap lib c.2.2)) called
    simp only [List.map_map, comp_def] at back
    have uses : (r.content.filter (·.type = "tool_use")).map
        (fun b => (b.id, b.name, some b.input)) = choice.message.parseToolCalls.map fun call =>
          (call.id, call.function.name, some (toolInput lib call.function.arguments)) := by
      simp [content, List.filter_map, comp_def]
    refine ⟨fun kept => ⟨kept.content.symm.trans said, fun call member => ?_⟩,
      fun right => ⟨absurd right.1, ?_, said.trans right.1.symm, ?_⟩⟩
    · have each := map_inj_left.mp (uses.symm.trans kept.toolUses) call member
      simp only [Prod.mk.injEq, true_and] at each
      rw [← each, isSome_some]
    · rw [uses]
      refine map_congr_left fun call member => ?_
      rw [((toolUse_kept_iff reads _).mpr (right.2 call member)).1]
    · rw [back]
      refine map_congr_left fun call member => ?_
      rw [((toolUse_kept_iff reads _).mpr (right.2 call member)).2]
  next other =>
    rw [if_neg other] at content
    have blocks : r.content = [AnswerBlock.text choice.message.stringContent].map (·.media) :=
      content
    have reply := reply_responseClaude2OpenAI lib _ r blocks
    have said : (responseClaude2OpenAI lib r).content = choice.message.stringContent := by
      simpa [TextResponse.reply, AnswerBlock.text?] using congrArg Reply.content reply
    have called : (responseClaude2OpenAI lib r).toolCalls = [] := by
      simpa [TextResponse.reply, AnswerBlock.call?] using congrArg Reply.toolCalls reply
    refine ⟨fun kept => ?_, fun none => ⟨fun _ => ?_, ?_, said, ?_⟩⟩
    · simpa [content] using kept.toolUses.symm
    · simp [content]
    · simp [content, none]
    · simp [called, none]

def oneObject : Libraries :=
  { emptyObjects with parse := fun text => if text = "\x7b\x7d" then some (.obj []) else none }

def exampleChoice (text finishReason : String) : TextChoice where
  message :=
    { role := "assistant", content := .value (.str text)
      toolCalls := some (.typed
        [{ id := "call_1", function := { name := "weather", arguments := "\x7b\x7d" } }]) }
  finishReason := finishReason

/-- A text beside a tool call is lost, and so is a tool call of a message that ends otherwise. -/
theorem spoken_or_called :
    (responseClaude2OpenAI oneObject (responseOpenAI2Claude oneObject
        ⟨"", "", [exampleChoice "Let me see." "tool_calls"]⟩)).content = "" ∧
      (responseClaude2OpenAI oneObject (responseOpenAI2Claude oneObject
        ⟨"", "", [exampleChoice "Let me see." "stop"]⟩)).toolCalls.length = 0 := by
  decide

theorem answer_kept_iff_call : ReadsBack oneObject ∧
    KeepsMessage oneObject (exampleChoice "" "tool_calls").message
      (responseOpenAI2Claude oneObject ⟨"", "", [exampleChoice "" "tool_calls"]⟩) := by
  have reads : ReadsBack oneObject := by
    intro text v read
    simp only [oneObject, ite_none_right_eq_some, some.injEq] at read
    rw [← read.2]
    rfl
  exact ⟨reads, (answer_kept_iff oneObject reads "" "" _).mpr (by decide)⟩

end EastApi.Convert
