import EastApi.Convert.ClaudeToOpenAI

/-! What `ClaudeToOpenAIRequest` keeps of the contents of a request.  A message that calls tools is
sent with its calls only. -/

namespace EastApi.Convert.ClaudeToOpenAI

open Go List

/-- A piece of a request, in the terms that both formats share. -/
inductive Content
  | text (role text : String)
  | image (url : String)
  | call (id name arguments : String)
  | result (id : String)
deriving DecidableEq

inductive Kind
  | text
  | image
  | call
  | result
deriving DecidableEq

def Content.kind : Content → Kind
  | .text _ _ => .text
  | .image _ => .image
  | .call _ _ _ => .call
  | .result _ => .result

def ofKind (k : Kind) (contents : List Content) : List Content := contents.filter (·.kind = k)

def textContent (role text : String) : List Content := if text = "" then [] else [.text role text]

def blockContents (lib : Libraries) (role : String) (block : ClaudeMediaMessage) : List Content :=
  match block.type with
  | "text" | "input_text" => textContent role block.getText
  | "image" => block.source.toList.map fun source =>
    .image ("data:" ++ source.mediaType ++ ";base64," ++ lib.sprint source.data)
  | "tool_use" => [.call block.id block.name (lib.marshal block.input)]
  | "tool_result" => [.result block.toolUseId]
  | _ => []

/-- The contents of a message before the conversion. -/
def claudeContents (lib : Libraries) (m : ClaudeMessage) : List Content :=
  match m.content with
  | .value (.str text) => textContent m.role text
  | content => ((parseMedia content).getD []).flatMap (blockContents lib m.role)

def mediaContents (role : String) (media : MediaContent) : List Content :=
  match media.type with
  | "text" => textContent role media.text
  | "image_url" => media.imageUrl.toList.map fun image => .image image.url
  | _ => []

def callContent (call : ToolCallRequest) : Content :=
  .call call.id call.function.name call.function.arguments

/-- Only the message of a result has the name of a tool. -/
def openAIContents (m : Message) : List Content :=
  if m.role = "tool" ∧ m.name.isSome then [.result m.toolCallId]
  else m.parseContent.flatMap (mediaContents m.role) ++ m.parseToolCalls.map callContent

/-- The contents of each kind are the same, and in the same order. -/
def Keeps (lib : Libraries) (before : List ClaudeMessage) (after : List Message) : Prop :=
  ∀ k, ofKind k (after.flatMap openAIContents) = ofKind k (before.flatMap (claudeContents lib))

def isSpoken (c : Content) : Bool := c.kind = .text || c.kind = .image

/-- What the loop over the blocks of a message has done with their contents. -/
structure Blocks.Holds (role : String) (start : List Message) (contents : List Content)
    (s : Blocks) : Prop where
  results : ∃ added, s.openAIMessages = start ++ added ∧
    added.flatMap openAIContents = ofKind .result contents
  media : s.mediaMessages.flatMap (mediaContents role) = contents.filter isSpoken
  calls : s.toolCalls.map callContent = ofKind .call contents

variable {lib : Libraries} {role : String} {start : List Message} {contents : List Content}
  {s : Blocks}

theorem ofKind_append (k : Kind) (before after : List Content) :
    ofKind k (before ++ after) = ofKind k before ++ ofKind k after :=
  filter_append ..

theorem Blocks.Holds.say (h : s.Holds role start contents) {media : MediaContent}
    (same : mediaContents role media = own) (spoken : ∀ c ∈ own, isSpoken c = true) :
    Blocks.Holds role start (contents ++ own)
      { s with mediaMessages := s.mediaMessages ++ [media] } := by
  have other {k : Kind} (unspoken : k = .result ∨ k = .call) : ofKind k own = [] := by
    refine filter_eq_nil_iff.mpr fun c member => ?_
    have kind := spoken c member
    rcases unspoken with rfl | rfl <;> cases c <;> simp_all [isSpoken, Content.kind]
  refine ⟨?_, ?_, ?_⟩
  · rw [ofKind_append, other (.inl rfl), append_nil]
    exact h.results
  · rw [flatMap_append, h.media, filter_append, filter_eq_self.mpr spoken,
      flatMap_singleton, same]
  · rw [h.calls, ofKind_append, other (.inr rfl), append_nil]

theorem Blocks.Holds.addBlock (h : s.Holds role start contents) (messages : List ClaudeMessage)
    (block : ClaudeMediaMessage) (sourced : block.type = "image" → block.source ≠ none) :
    ∃ t, addBlock lib messages s block = .ok t ∧
      t.Holds role start (contents ++ blockContents lib role block) := by
  have text : ∀ c ∈ textContent role block.getText, isSpoken c = true := by
    unfold textContent
    split <;> simp [isSpoken, Content.kind]
  unfold ClaudeToOpenAI.addBlock
  split
  iterate 2
    next type =>
      simp only [blockContents, type]
      exact ⟨_, rfl, h.say (by simp [mediaContents]) text⟩
  next type =>
    obtain ⟨source, found⟩ := Option.ne_none_iff_exists'.mp (sourced type)
    simp only [blockContents, type, found]
    exact ⟨_, rfl, h.say (by simp [mediaContents]) (by simp [isSpoken, Content.kind])⟩
  next type =>
    obtain ⟨⟨added, same, results⟩, said, calls⟩ := h
    simp only [blockContents, type]
    refine ⟨_, rfl, ⟨added, same, ?_⟩, ?_, ?_⟩
    · simp [results, ofKind, Content.kind]
    · simp [said, isSpoken, Content.kind]
    · simp [calls, ofKind, Content.kind, callContent]
  next type =>
    obtain ⟨⟨added, same, results⟩, said, calls⟩ := h
    simp only [blockContents, type]
    refine ⟨_, rfl, ⟨added ++ [_], by rw [same, append_assoc], ?_⟩, ?_, ?_⟩
    · simp [results, ofKind, Content.kind, openAIContents]
    · simp [said, isSpoken, Content.kind]
    · simp [calls, ofKind, Content.kind]
  · have none : blockContents lib role block = [] := by
      unfold blockContents
      split <;> simp_all
    rw [none, append_nil]
    exact ⟨s, rfl, h⟩

/-- What is sent of them: a message with calls has nothing else. -/
def sentContents (contents : List Content) : List Content :=
  ofKind .result contents ++
    if ofKind .call contents = [] then contents.filter isSpoken else ofKind .call contents

theorem Blocks.Holds.message (h : s.Holds role start contents) :
    ∃ added, s.openAIMessages ++ blocksMessage role s = start ++ added ∧
      added.flatMap openAIContents = sentContents contents := by
  obtain ⟨⟨added, same, results⟩, said, calls⟩ := h
  refine ⟨added ++ blocksMessage role s, by rw [same, append_assoc], ?_⟩
  rw [flatMap_append, results, sentContents, ← calls, ← said]
  congr 1
  by_cases called : s.toolCalls = []
  · by_cases silent : s.mediaMessages = []
    · simp [blocksMessage, called, silent]
    · simp [blocksMessage, called, silent, openAIContents, Message.parseContent,
        Message.parseToolCalls]
  · simp [blocksMessage, called, openAIContents, Message.parseContent, Message.parseToolCalls]

theorem addMessage_sent (lib : Libraries) (messages : List ClaudeMessage) (start : List Message)
    (formed : ¬ Malformed m) (sourced : ¬ BadImage m) :
    ∃ added, addMessage lib messages start m = .ok (start ++ added) ∧
      added.flatMap openAIContents = sentContents (claudeContents lib m) := by
  unfold addMessage
  split
  next text same =>
    have own : claudeContents lib m = textContent m.role text := by simp [claudeContents, same]
    refine ⟨_, rfl, ?_⟩
    rw [own, textContent]
    by_cases empty : text = "" <;>
      simp [empty, openAIContents, Message.parseContent, Message.parseToolCalls, mediaContents,
        textContent, sentContents, ofKind, Content.kind, isSpoken]
  next other =>
    have text : ∀ text, m.content ≠ .value (.str text) := other
    cases parsed : parseMedia m.content with
    | none => exact absurd ⟨text, parsed⟩ formed
    | some blocks =>
      have own : claudeContents lib m = blocks.flatMap (blockContents lib m.role) := by
        unfold claudeContents
        split
        next same => exact absurd same (text _)
        · rw [parsed, Option.getD_some]
      have sources : ∀ block ∈ blocks, block.type = "image" → block.source ≠ none :=
        fun block member type missing =>
          sourced ⟨text, blocks, parsed, block, member, type, missing⟩
      obtain ⟨s, done, holds⟩ := Result.foldlM_total (f := addBlock lib messages)
        (fun before s => s.Holds m.role start (before.flatMap (blockContents lib m.role)))
        (l := blocks) (s := { openAIMessages := start }) ⟨⟨[], by simp, rfl⟩, rfl, rfl⟩
        fun before block after s same holds => by
          rw [flatMap_append, flatMap_singleton]
          exact holds.addBlock messages block (sources block (by simp [same]))
      obtain ⟨added, same, sent⟩ := holds.message
      refine ⟨added, ?_, own ▸ sent⟩
      simp only [done, Result.ok_bind, same, Result.pure_eq]

theorem messages_sent (lib : Libraries) {messages : List ClaudeMessage}
    (formed : ∀ m ∈ messages, ¬ Malformed m) (sourced : ∀ m ∈ messages, ¬ BadImage m)
    (start : List Message) :
    ∃ sent, messages.foldlM (addMessage lib messages) start = .ok (start ++ sent) ∧
      sent.flatMap openAIContents =
        messages.flatMap fun m => sentContents (claudeContents lib m) := by
  obtain ⟨_, done, sent, rfl, contents⟩ := Result.foldlM_total (f := addMessage lib messages)
    (fun before s => ∃ sent, s = start ++ sent ∧ sent.flatMap openAIContents =
      before.flatMap fun m => sentContents (claudeContents lib m)) (l := messages) (s := start)
    ⟨[], by simp, rfl⟩ fun before m after s same ⟨sent, here, contents⟩ => by
      have member : m ∈ messages := by simp [same]
      obtain ⟨added, next, own⟩ :=
        addMessage_sent lib messages s (formed m member) (sourced m member)
      exact ⟨_, next, sent ++ added, by rw [here, append_assoc],
        by simp [contents, own]⟩
  exact ⟨sent, done, contents⟩

/-- A message with a call beside a text or an image. -/
def SpeaksAndCalls (lib : Libraries) (m : ClaudeMessage) : Prop :=
  ofKind .call (claudeContents lib m) ≠ [] ∧ ∃ c ∈ claudeContents lib m, isSpoken c = true

instance SpeaksAndCalls.instDecidable (lib : Libraries) (m : ClaudeMessage) :
    Decidable (SpeaksAndCalls lib m) :=
  inferInstanceAs (Decidable (_ ∧ _))

theorem ofKind_sentContents (k : Kind) (contents : List Content) :
    ofKind k (sentContents contents) =
      if ofKind .call contents ≠ [] ∧ (k = .text ∨ k = .image) then [] else ofKind k contents := by
  have only (j : Kind) : ofKind k (ofKind j contents) =
      if k = j then ofKind k contents else [] := by
    unfold ofKind
    rw [filter_filter]
    split <;> simp_all
  have spoken : ofKind k (contents.filter isSpoken) =
      if k = .text ∨ k = .image then ofKind k contents else [] := by
    unfold ofKind isSpoken
    rw [filter_filter]
    split
    next kind =>
      refine filter_congr fun c _ => ?_
      rcases kind with rfl | rfl <;> simp_all
    next kind =>
      simp only [filter_eq_nil_iff]
      rintro c - both
      have both : c.kind = k ∧ (c.kind = .text ∨ c.kind = .image) := by simpa using both
      exact kind (both.1 ▸ both.2)
  rw [sentContents, ofKind_append, only]
  split_ifs <;> cases k <;> simp_all

theorem kept_iff :
    (∀ k, ofKind k (sentContents (claudeContents lib m)) = ofKind k (claudeContents lib m)) ↔
      ¬ SpeaksAndCalls lib m := by
  simp only [ofKind_sentContents, SpeaksAndCalls]
  constructor
  · rintro all ⟨calls, c, member, spoken⟩
    have kind : c.kind = .text ∨ c.kind = .image := by simpa [isSpoken] using spoken
    have none := all c.kind
    rw [if_pos ⟨calls, kind⟩, eq_comm, ofKind, filter_eq_nil_iff] at none
    exact none c member (by simp)
  · intro not k
    split
    next both =>
      refine (filter_eq_nil_iff.mpr fun c member kind => not ⟨both.1, c, member, ?_⟩).symm
      rcases both.2 with rfl | rfl <;> simp_all [isSpoken]
    · rfl

theorem keeps_iff {sent : List Message} (contents : sent.flatMap openAIContents =
      messages.flatMap fun m => sentContents (claudeContents lib m)) :
    Keeps lib messages sent ↔ ∀ m ∈ messages, ¬ SpeaksAndCalls lib m := by
  have each (k : Kind) :
      ofKind k (sent.flatMap openAIContents) = ofKind k (messages.flatMap (claudeContents lib)) ↔
        ∀ m ∈ messages, ofKind k (sentContents (claudeContents lib m)) =
          ofKind k (claudeContents lib m) := by
    rw [contents, ofKind, ofKind, filter_flatMap, filter_flatMap]
    refine flatMap_eq_iff fun m _ => ?_
    change (ofKind k _).length ≤ (ofKind k _).length
    rw [ofKind_sentContents]
    split <;> simp
  simp only [Keeps, each, ← kept_iff]
  exact ⟨fun all m member k => all k m member, fun all k m member => all m member k⟩

/-- All contents of the messages are sent if and only if no message has a text or an image beside
calls of tools. -/
theorem contents_kept_iff (lib : Libraries) (info : RelayInfo) (claude : ClaudeRequest)
    (formed : ∀ m ∈ claude.messages, ¬ Malformed m)
    (sourced : ∀ m ∈ claude.messages, ¬ BadImage m) :
    ∃ r sent, claudeToOpenAIRequest lib info claude = .ok r ∧
      r.messages = (systemMessage info claude.system).toList ++ sent ∧
      (Keeps lib claude.messages sent ↔ ∀ m ∈ claude.messages, ¬ SpeaksAndCalls lib m) := by
  obtain ⟨sent, done, contents⟩ := messages_sent lib formed sourced
    (systemMessage info claude.system).toList
  exact ⟨_, sent, by rw [claudeToOpenAIRequest, done]; rfl, rfl, keeps_iff contents⟩

def exampleRequest (beside : List ClaudeMediaMessage) : ClaudeRequest where
  model := "claude-sonnet-4"
  messages := [
    ⟨"user", .value (.str "What is the weather?")⟩,
    ⟨"assistant", .typed (beside ++ [{ type := "tool_use", id := "toolu_1", name := "weather" }])⟩,
    ⟨"user", .typed [{ type := "tool_result", toolUseId := "toolu_1" }]⟩]

def spokenRequest : ClaudeRequest :=
  exampleRequest [{ type := "text", text := some "Let me see." }]

/-- The text that an assistant says before it calls a tool is lost. -/
theorem spoken_text_lost :
    ∃ r, claudeToOpenAIRequest emptyObjects ⟨false, "", ""⟩ spokenRequest = .ok r ∧
      ofKind .text (r.messages.flatMap openAIContents) = [.text "user" "What is the weather?"] ∧
      ofKind .text (spokenRequest.messages.flatMap (claudeContents emptyObjects)) =
        [.text "user" "What is the weather?", .text "assistant" "Let me see."] :=
  ⟨_, rfl, by decide, by decide⟩

theorem contents_kept_iff_call :
    ∃ r sent, claudeToOpenAIRequest emptyObjects ⟨false, "", ""⟩ (exampleRequest []) = .ok r ∧
      r.messages = sent ∧ Keeps emptyObjects (exampleRequest []).messages sent := by
  obtain ⟨r, sent, done, messages, kept⟩ := contents_kept_iff emptyObjects ⟨false, "", ""⟩
    (exampleRequest []) (by simp [exampleRequest, Malformed, parseMedia])
    (by simp [exampleRequest, BadImage, parseMedia])
  exact ⟨r, sent, done, messages, kept.mpr (by decide)⟩

end EastApi.Convert.ClaudeToOpenAI
