import EastApi.Convert.AnswerRoundTrip
import Mathlib.Data.List.Chain

/-! The tool calls of a history and their results in `RequestOpenAI2ClaudeMessage`.  Neighbours of
one role are joined, and the joined message has the calls of the second one only. -/

namespace EastApi.Convert.OpenAIToClaude

open Go List Option

def ownCalls (m : Message) : List ToolCallRequest :=
  if m.role = "assistant" then m.parseToolCalls else []

def callIds (m : Message) : List String := m.parseToolCalls.map (·.id)

def toolRefs (m : Message) : List String := if m.role = "tool" then [m.toolCallId] else []

def claudeBlocks (m : ClaudeMessage) : List ClaudeMediaMessage :=
  match m.content with
  | .typed blocks => blocks
  | .value _ => []

def toolUses (m : ClaudeMessage) : List ClaudeMediaMessage :=
  (claudeBlocks m).filter (·.type = "tool_use")

def useIds (m : ClaudeMessage) : List String := (toolUses m).map (·.id)

def resultIds (m : ClaudeMessage) : List String :=
  ((claudeBlocks m).filter (·.type = "tool_result")).map (·.toolUseId)

/-- Every element refers to ids that the elements before it have made. -/
def Backed {α : Type} (made refs : α → List String) (l : List α) : Prop :=
  ∀ before a after, l = before ++ a :: after → ∀ id ∈ refs a, id ∈ before.flatMap made

/-- A message with a text, and with calls whose arguments are an object or empty. -/
structure Plain (lib : Libraries) (m : Message) : Prop where
  role : m.role ∈ ["", "system", "user", "assistant", "tool"]
  text : m.isStringContent = true
  arguments : ∀ call ∈ ownCalls m, call.function.arguments = "" ∨
    ∃ fields, lib.parse call.function.arguments = some (.obj fields)

/-- The converted messages have the calls of the history, and each result after its call. -/
structure Sound (lib : Libraries) (messages : List Message) (claude : List ClaudeMessage) :
    Prop where
  roles : ∀ m ∈ claude, m.role = "user" ∨ m.role = "assistant"
  first : ∀ m ∈ claude.head?, m.role = "user"
  uses : (claude.flatMap toolUses).map (fun block => (block.id, block.name, some block.input)) =
    (messages.flatMap ownCalls).map fun call =>
      (call.id, call.function.name, unmarshalMap lib call.function.arguments)
  results : Backed useIds resultIds claude

/-- No message with calls is directly followed by one of the assistant. -/
def Unjoined (messages : List Message) : Prop :=
  messages.IsChain fun m next => next.role = "assistant" → ownCalls m = []

theorem backed_nil {α : Type} {made refs : α → List String} : Backed made refs [] := by
  simp [Backed]

theorem backed_concat {α : Type} {made refs : α → List String} {l : List α} {a : α} :
    Backed made refs (l ++ [a]) ↔ Backed made refs l ∧ ∀ id ∈ refs a, id ∈ l.flatMap made := by
  refine ⟨fun h => ⟨fun before b after same => ?_, h l a [] rfl⟩, fun h before b after same => ?_⟩
  · exact h before b (after ++ [a]) (by simp [same])
  · rcases after.eq_nil_or_concat with rfl | ⟨rest, last, rfl⟩
    · obtain ⟨rfl, rfl⟩ := append_singleton_inj.mp same
      exact h.2
    · rw [concat_eq_append, ← cons_append, ← append_assoc] at same
      obtain ⟨rfl, -⟩ := append_singleton_inj.mp same
      exact h.1 before b rest rfl

/-- What the first loop keeps of the messages before. -/
structure Formats (before : List Message) (s : Formatted) : Prop where
  last : before = [] ∧ s = {} ∨ ∃ init m, s.formatMessages = init ++ [s.lastMessage] ∧
    before.getLast? = some m ∧ s.lastMessage.role = m.role ∧
    s.lastMessage.parseToolCalls = ownCalls m
  each : ∀ m ∈ s.formatMessages, m.isStringContent = true ∧
    (m.role ≠ "assistant" → m.toolCalls = none)
  roles : ∀ r, r ∈ s.formatMessages.map (·.role) ↔ r ∈ before.map (·.role)
  calls : Unjoined before ∧
      s.formatMessages.flatMap (·.parseToolCalls) = before.flatMap ownCalls ∨
    ¬ Unjoined before ∧
      (s.formatMessages.flatMap (·.parseToolCalls)).length < (before.flatMap ownCalls).length
  backed : Unjoined before → Backed callIds toolRefs s.formatMessages

variable {lib : Libraries} {before : List Message} {m : Message}

theorem isStringContent_iff : m.isStringContent = true ↔
    ∃ content : String, m.content = .value (.str content) := by
  unfold Message.isStringContent
  split <;> simp_all

theorem fmtMessage_spec (last : Message) (text : m.isStringContent = true) :
    (fmtMessage last m).role = m.role ∧ (fmtMessage last m).parseToolCalls = ownCalls m ∧
      toolRefs (fmtMessage last m) = toolRefs m ∧ (fmtMessage last m).isStringContent = true ∧
      (m.role ≠ "assistant" → (fmtMessage last m).toolCalls = none) := by
  obtain ⟨content, same⟩ := isStringContent_iff.mp text
  have fields : ∃ content : String, fmtMessage last m =
      { role := m.role, content := .value (.str content)
        toolCallId := if m.role = "tool" then m.toolCallId else ""
        toolCalls := if m.role = "assistant" then m.toolCalls else none } := by
    unfold fmtMessage
    by_cases join : joins last m = true
    · simp only [join, ↓reduceIte, Message.setStringContent]
      split <;> exact ⟨_, rfl⟩
    · simp only [join, same]
      split <;> exact ⟨_, rfl⟩
  obtain ⟨content, same⟩ := fields
  rw [same]
  refine ⟨rfl, ?_, ?_, rfl, fun other => if_neg other⟩
  · unfold ownCalls Message.parseToolCalls
    split <;> simp_all
  · unfold toolRefs
    split <;> simp_all

theorem unjoined_concat : Unjoined (before ++ [m]) ↔ Unjoined before ∧
    ∀ last ∈ before.getLast?, m.role = "assistant" → ownCalls last = [] := by
  simp [Unjoined, isChain_append]

theorem ownCalls_eq_nil (other : m.role ≠ "assistant") : ownCalls m = [] := if_neg other

theorem Formats.step {s : Formatted} (h : Formats before s) (text : m.isStringContent = true)
    (known : ∀ id ∈ toolRefs m, id ∈ (before.flatMap ownCalls).map (·.id)) :
    ∃ t, formatMessage s m = .ok t ∧ Formats (before ++ [m]) t := by
  obtain ⟨role, calls, refs, string, none⟩ := fmtMessage_spec s.lastMessage text
  -- the messages that stay, and what the joined one had
  obtain ⟨kept, rest, done, all, joined, lost⟩ : ∃ kept rest, keptMessages s m = .ok kept ∧
      s.formatMessages = kept ++ rest ∧ (∀ x ∈ rest, x.role = m.role ∧ m.role ≠ "tool") ∧
      (Unjoined (before ++ [m]) ↔ Unjoined before ∧ rest.flatMap (·.parseToolCalls) = []) := by
    rw [unjoined_concat]
    unfold keptMessages
    by_cases join : joins s.lastMessage m = true
    · have same := join
      simp only [joins, Bool.and_eq_true, decide_eq_true_eq] at same
      rcases h.last with ⟨-, rfl⟩ | ⟨init, p, all, last, own, calls⟩
      · exact absurd rfl same.1.1.2
      · refine ⟨init, [s.lastMessage], ?_, all, ?_, ?_⟩
        · simp [join, all, dropLast]
        · simpa [same.1.1.1] using same.1.1.1 ▸ same.1.1.2
        · simp only [last, mem_some_iff, forall_eq', flatMap_singleton, calls]
          by_cases assistant : m.role = "assistant"
          · simp [assistant]
          · simp [assistant, ownCalls_eq_nil (own ▸ same.1.1.1 ▸ assistant)]
    · refine ⟨s.formatMessages, [], by simp [join], by simp, by simp, ?_⟩
      rcases h.last with ⟨rfl, -⟩ | ⟨init, p, all, last, own, -⟩
      · simp
      · have string := (h.each s.lastMessage (by simp [all])).1
        simp only [last, mem_some_iff, forall_eq', flatMap_nil, and_true]
        refine and_iff_left fun assistant => ownCalls_eq_nil fun same => join ?_
        simp [joins, own, same, assistant, string, text]
  have sent : s.formatMessages.flatMap (·.parseToolCalls) =
      kept.flatMap (·.parseToolCalls) ++ rest.flatMap (·.parseToolCalls) := by
    rw [all, flatMap_append]
  refine ⟨_, by rw [formatMessage, done]; rfl, .inr ⟨kept, m, rfl, by simp, role, calls⟩,
    ?_, ?_, ?_, ?_⟩
  · have each := h.each
    rw [all, forall_mem_append] at each
    exact forall_mem_append.mpr ⟨each.1, by simpa [string, role] using none⟩
  · intro r
    have roles := h.roles r
    rw [all] at roles
    simp only [map_append, mem_append, ← roles, map_cons, map_nil, role]
    refine ⟨Or.imp_left .inl, ?_⟩
    rintro ((early | late) | own)
    · exact .inl early
    · obtain ⟨x, member, rfl⟩ := mem_map.mp late
      exact .inr (by simp [(joined x member).1])
    · exact .inr own
  · simp only [flatMap_append, flatMap_singleton, calls, lost, length_append,
      append_cancel_right_eq]
    rcases h.calls with ⟨unjoined, same⟩ | ⟨not, less⟩
    · rw [← same, sent]
      by_cases none : rest.flatMap (·.parseToolCalls) = []
      · exact .inl ⟨⟨unjoined, none⟩, by rw [none, append_nil]⟩
      · have some := length_pos_iff.mpr none
        exact .inr ⟨fun both => none both.2, by rw [length_append]; omega⟩
    · rw [sent, length_append] at less
      exact .inr ⟨fun both => not both.1, by omega⟩
  · intro unjoined
    obtain ⟨unjoined, -⟩ := lost.mp unjoined
    have same := (h.calls.resolve_right fun not => not.1 unjoined).2
    refine backed_concat.mpr ⟨fun a x b split => ?_, ?_⟩
    · exact h.backed unjoined a x (b ++ rest) (by simp [all, split])
    · rw [refs]
      intro id member
      have tool : m.role = "tool" := by
        by_contra other
        simp [toolRefs, other] at member
      have none : rest = [] := eq_nil_iff_forall_not_mem.mpr fun x own =>
        (joined x own).2 tool
      rw [none, append_nil] at all
      rw [← all]
      have := known id member
      rwa [← same, map_flatMap] at this

/-- What the second loop keeps of them. -/
structure Converts (lib : Libraries) (before : List Message) (claude : List ClaudeMessage) :
    Prop where
  first : ∀ m ∈ claude.head?, m.role = "user"
  each : ∀ m ∈ claude, HasBlocks m ∧ (m.role = "user" → toolUses m = [])
  roles : (∀ m ∈ claude, m.role = "user" ∨ m.role = "assistant") ↔ ∀ m ∈ before, m.role ≠ ""
  uses : claude.flatMap toolUses = (before.flatMap (·.parseToolCalls)).filterMap (toolUse lib)
  backed : (∀ call ∈ before.flatMap (·.parseToolCalls), (toolUse lib call).isSome = true) →
    Backed callIds toolRefs before → Backed useIds resultIds claude

variable {claude : List ClaudeMessage}

theorem Converts.useIds_eq (h : Converts lib before claude)
    (parsed : ∀ call ∈ before.flatMap (·.parseToolCalls), (toolUse lib call).isSome = true) :
    claude.flatMap useIds = before.flatMap callIds := by
  have ids (calls : List ToolCallRequest)
      (parsed : ∀ call ∈ calls, (toolUse lib call).isSome = true) :
      (calls.filterMap (toolUse lib)).map (·.id) = calls.map (·.id) := by
    induction calls with
    | nil => rfl
    | cons call rest ih =>
      obtain ⟨mine, others⟩ := forall_mem_cons.mp parsed
      obtain ⟨block, made⟩ := isSome_iff_exists.mp mine
      rw [filterMap_cons_some made, map_cons, map_cons, ih others]
      obtain ⟨input, -, rfl⟩ := map_eq_some_iff.mp made
      rfl
  calc claude.flatMap useIds = (claude.flatMap toolUses).map (·.id) := map_flatMap.symm
    _ = (before.flatMap (·.parseToolCalls)).map (·.id) := by rw [h.uses, ids _ parsed]
    _ = before.flatMap callIds := map_flatMap

theorem Converts.add (h : Converts lib before claude) (own : Option Message) {x : ClaudeMessage}
    (first : claude = [] → x.role = "user") (blocks : HasBlocks x)
    (role : x.role = "user" ∨ x.role = "assistant" ↔ ∀ m ∈ own, m.role ≠ "")
    (user : x.role = "user" → toolUses x = [])
    (uses : toolUses x = (own.toList.flatMap (·.parseToolCalls)).filterMap (toolUse lib))
    (refs : resultIds x = own.toList.flatMap toolRefs) :
    Converts lib (before ++ own.toList) (claude ++ [x]) where
  first := by
    cases claude with
    | nil => simpa using first rfl
    | cons m rest => exact h.first
  each := forall_mem_append.mpr ⟨h.each, by simpa using ⟨blocks, user⟩⟩
  roles := by
    rw [forall_mem_append, forall_mem_append, h.roles]
    simp [role]
  uses := by simp [h.uses, uses]
  backed := by
    intro parsed backed
    rw [flatMap_append] at parsed
    have early := fun call member => parsed call (mem_append_left _ member)
    cases own with
    | none => exact backed_concat.mpr ⟨h.backed early (by simpa using backed), by simp [refs]⟩
    | some m =>
      obtain ⟨backed, known⟩ := backed_concat.mp backed
      refine backed_concat.mpr ⟨h.backed early backed, ?_⟩
      rw [refs, h.useIds_eq early]
      simpa using known

theorem Converts.merge {init : List ClaudeMessage} {last : ClaudeMessage}
    (h : Converts lib before (init ++ [last])) (role : last.role = "user")
    {blocks : List ClaudeMediaMessage} (content : contentBlocks last.content = .ok blocks)
    (tool : m.role = "tool") (uncalled : m.toolCalls = none) :
    Converts lib (before ++ [m])
      (init ++ [{ last with content := .typed (blocks ++ [toolResult m]) }]) := by
  have own : toolUses last = [] := (h.each last (by simp)).2 role
  have same : blocks.filter (·.type = "tool_use") = toolUses last ∧
      (blocks.filter (·.type = "tool_result")).map (·.toolUseId) = resultIds last := by
    unfold toolUses resultIds claudeBlocks
    unfold contentBlocks at content
    split at content <;> cases content <;> simp_all [textBlock]
  have none : m.parseToolCalls = [] := by rw [Message.parseToolCalls, uncalled]
  have unused : toolUses { last with content := .typed (blocks ++ [toolResult m]) } = [] := by
    rw [toolUses, claudeBlocks, filter_append, same.1, own]
    rfl
  have first := h.first
  have each := forall_mem_append.mp h.each
  have uses := h.uses
  have roles := h.roles
  simp only [flatMap_append, flatMap_singleton, own, append_nil] at uses
  simp only [forall_mem_append, forall_mem_singleton] at roles
  refine ⟨?_, forall_mem_append.mpr ⟨each.1, ?_⟩, ?_, ?_, fun parsed backed => ?_⟩
  · cases init with
    | nil => simpa using role
    | cons m rest => exact first
  · simpa using ⟨⟨_, rfl⟩, fun _ => unused⟩
  · simp only [forall_mem_append, forall_mem_singleton, roles, tool]
    simp
  · simp [uses, unused, none]
  · obtain ⟨backed, known⟩ := backed_concat.mp backed
    rw [flatMap_append, flatMap_singleton, none, append_nil] at parsed
    obtain ⟨results, early⟩ := backed_concat.mp (h.backed parsed backed)
    have ids := h.useIds_eq parsed
    simp only [flatMap_append, flatMap_singleton, useIds, own, map_nil,
      append_nil] at ids
    refine backed_concat.mpr ⟨results, ?_⟩
    have refs : resultIds { last with content := .typed (blocks ++ [toolResult m]) } =
        resultIds last ++ [m.toolCallId] := by
      simp [resultIds, claudeBlocks, same.2, toolResult]
    rw [refs, forall_mem_append]
    refine ⟨early, ?_⟩
    rw [forall_mem_singleton]
    exact ids ▸ known m.toolCallId (by simp [toolRefs, tool])

theorem Converts.opened (h : Converts lib before s.claudeMessages)
    (start : s.isFirstMessage = true ↔ s.claudeMessages = []) (m : Message) :
    Converts lib before (opened s m).claudeMessages ∧
      (opened s m).isFirstMessage = false ∧
      ((opened s m).claudeMessages = [] → m.role = "user") := by
  unfold OpenAIToClaude.opened
  split
  next first =>
    by_cases user : m.role = "user"
    · simpa [user] using h
    · simpa [user] using h.add none (x := openingMessage) (fun _ => rfl) ⟨_, rfl⟩
        (by simp [openingMessage]) (fun _ => rfl) rfl rfl
  next later => exact ⟨h, by simpa using later, fun empty => absurd (start.mpr empty) later⟩

theorem messageContent_spec (lib : Libraries) (text : m.isStringContent = true) (role : String) :
    ∃ content, messageContent lib m = .ok content ∧
      toolUses ⟨role, content⟩ = m.parseToolCalls.filterMap (toolUse lib) ∧
      resultIds ⟨role, content⟩ = [] := by
  obtain ⟨content, same⟩ := isStringContent_iff.mp text
  have use : ∀ block ∈ m.parseToolCalls.filterMap (toolUse lib), block.type = "tool_use" := by
    simp only [mem_filterMap, toolUse, map_eq_some_iff]
    rintro _ ⟨call, -, input, -, rfl⟩
    rfl
  unfold messageContent
  split
  next plain =>
    refine ⟨_, rfl, ?_, rfl⟩
    rw [Message.parseToolCalls, isNone_iff_eq_none.mp plain.2]
    rfl
  · have parts : m.parseContent.foldlM (addPart lib) [] =
        .ok (if content = "" then [] else [textBlock content]) := by
      simp [Message.parseContent, same, addPart]
    rw [parts]
    refine ⟨_, rfl, ?_, ?_⟩
    · have all : (m.parseToolCalls.filterMap (toolUse lib)).filter (·.type = "tool_use") = _ :=
        filter_eq_self.mpr fun block member => by simp [use block member]
      rw [toolUses, claudeBlocks, filter_append, all]
      split <;> simp [textBlock]
    · have none : (m.parseToolCalls.filterMap (toolUse lib)).filter (·.type = "tool_result") = [] :=
        filter_eq_nil_iff.mpr fun block member => by simp [use block member]
      rw [resultIds, claudeBlocks, filter_append, none]
      split <;> simp [textBlock]

theorem Converts.step {s : Conversation} (h : Converts lib before s.claudeMessages)
    (start : s.isFirstMessage = true ↔ s.claudeMessages = []) (text : m.isStringContent = true)
    (role : m.role ∈ ["", "system", "user", "assistant", "tool"])
    (uncalled : m.role ≠ "assistant" → m.toolCalls = none) :
    ∃ t, addMessage lib s m = .ok t ∧ Converts lib (before ++ [m]) t.claudeMessages ∧
      (t.isFirstMessage = true ↔ t.claudeMessages = []) := by
  unfold addMessage
  by_cases system : m.role = "system"
  · have none : m.parseToolCalls = [] := by
      rw [Message.parseToolCalls, uncalled (by rw [system]; decide)]
    refine ⟨_, if_pos system, ⟨h.first, h.each, ?_, ?_, fun parsed backed => ?_⟩, start⟩
    · rw [h.roles, forall_mem_append, and_iff_left (by simp [system])]
    · simp [h.uses, none]
    · exact h.backed (fun call member => parsed call (by simp [member])) (backed_concat.mp backed).1
  · rw [if_neg system]
    obtain ⟨opened, begun, empty⟩ := h.opened start m
    dsimp only
    generalize OpenAIToClaude.opened s m = c at opened begun empty
    by_cases tool : m.role = "tool"
    · rw [if_pos tool]
      have none := uncalled (by rw [tool]; decide)
      have alone : Converts lib (before ++ [m])
          (c.claudeMessages ++ [{ role := "user", content := .typed [toolResult m] }]) :=
        opened.add (some m) (fun _ => rfl) ⟨_, rfl⟩ (by simp [tool]) (fun _ => rfl)
          (by simp [toolUses, claudeBlocks, toolResult, Message.parseToolCalls, none])
          (by simp [resultIds, claudeBlocks, toolResult, toolRefs, tool])
      unfold addToolResult
      split
      next last found =>
        obtain ⟨init, all⟩ := getLast?_eq_some_iff.mp found
        split
        next user =>
          rw [all] at opened
          obtain ⟨blocks, content⟩ := (opened.each last (by simp)).1
          rw [content]
          refine ⟨_, rfl, ?_, by simp [begun]⟩
          simpa [all] using opened.merge user content tool none
        · exact ⟨_, rfl, alone, by simp [begun]⟩
      · exact ⟨_, rfl, alone, by simp [begun]⟩
    · rw [if_neg tool]
      obtain ⟨content, made, uses, refs⟩ := messageContent_spec lib text m.role
      rw [made]
      refine ⟨_, rfl, opened.add (some m) empty (messageContent_blocks made _) ?_ ?_ ?_ ?_, ?_⟩
      · simp only [mem_cons, system, tool, not_mem_nil, or_false, false_or] at role
        rcases role with empty | user | assistant <;> simp [*]
      · intro user
        rw [uses, Message.parseToolCalls, uncalled (by rw [show m.role = "user" from user]; decide)]
        rfl
      · simpa using uses
      · simp [refs, toolRefs, tool]
      · simp [begun]

/-- The conversion of a history is sound if and only if every message has a role, every call has
arguments, and no message with calls is followed by another one of the assistant. -/
theorem history_sound_iff (lib : Libraries) (settings : Settings) (request : GeneralOpenAIRequest)
    (plain : ∀ m ∈ request.messages, Plain lib m) (empty : lib.parse "" = none)
    (known : Backed (fun m => (ownCalls m).map (·.id)) toolRefs request.messages)
    (r : ClaudeRequest) (converted : requestOpenAI2ClaudeMessage lib settings request = .ok r) :
    Sound lib request.messages r.messages ↔ (∀ m ∈ request.messages, m.role ≠ "") ∧
      (∀ m ∈ request.messages, ∀ call ∈ ownCalls m, call.function.arguments ≠ "") ∧
      Unjoined request.messages := by
  obtain ⟨formatted, formats, all⟩ := Result.foldlM_total Formats (f := formatMessage)
    (l := request.messages) (s := {}) ⟨.inl ⟨rfl, rfl⟩, nofun, by simp, .inl ⟨.nil, rfl⟩,
      fun _ => backed_nil⟩
    fun before m after s split h => h.step (plain m (by simp [split])).text <| by
      rw [map_flatMap]
      exact known before m after split
  obtain ⟨conversation, converses, claude, -⟩ := Result.foldlM_total (f := addMessage lib)
    (fun before s => Converts lib before s.claudeMessages ∧
      (s.isFirstMessage = true ↔ s.claudeMessages = []))
    (l := formatted.formatMessages) (s := {})
    ⟨⟨nofun, nofun, by simp, rfl, fun _ _ => backed_nil⟩, by simp⟩
    fun before m after s split h => by
      have member : m ∈ formatted.formatMessages := by simp [split]
      obtain ⟨p, own, role⟩ := mem_map.mp ((all.roles m.role).mp (mem_map_of_mem member))
      exact h.1.step h.2 (all.each m member).1 (role ▸ (plain p own).role) (all.each m member).2
  have messages : r.messages = conversation.claudeMessages := by
    obtain ⟨tools, -, rest⟩ := Result.bind_ok_iff.mp converted
    obtain ⟨q, -, rest⟩ := Result.bind_ok_iff.mp rest
    obtain ⟨stops, -, rest⟩ := Result.bind_ok_iff.mp rest
    simp only [convertMessages, formats, converses, Result.ok_bind] at rest
    cases rest
    rfl
  rw [messages]
  have roles := not_congr (all.roles "")
  simp only [List.mem_map, not_exists, not_and] at roles
  refine ⟨fun sound => ⟨roles.mp (claude.roles.mp sound.roles), ?_, ?_⟩, ?_⟩
  · intro m member call own none
    have listed := mem_map_of_mem (f := fun call : ToolCallRequest =>
      (call.id, call.function.name, unmarshalMap lib call.function.arguments))
      (mem_flatMap.mpr ⟨m, member, own⟩)
    rw [← sound.uses, none] at listed
    simp [unmarshalMap, empty] at listed
  · refine (all.calls.resolve_right fun lost => ?_).1
    have less := lost.2
    have count := congrArg length sound.uses
    rw [length_map, length_map, claude.uses] at count
    have := length_filterMap_le (toolUse lib)
      (formatted.formatMessages.flatMap (·.parseToolCalls))
    omega
  · rintro ⟨named, given, unjoined⟩
    have same := (all.calls.resolve_right fun not => not.1 unjoined).2
    have used : ∀ call ∈ request.messages.flatMap ownCalls, ∃ input,
        unmarshalMap lib call.function.arguments = some input := by
      intro call member
      obtain ⟨m, member, own⟩ := mem_flatMap.mp member
      obtain ⟨fields, parsed⟩ :=
        ((plain m member).arguments call own).resolve_left (given m member call own)
      exact ⟨.obj fields, by rw [unmarshalMap, parsed]⟩
    refine ⟨claude.roles.mpr (roles.mpr named), claude.first, ?_,
      claude.backed ?_ (all.backed unjoined)⟩
    · rw [claude.uses, same, map_filterMap, ← filterMap_eq_map]
      refine filterMap_congr fun call member => ?_
      obtain ⟨input, parsed⟩ := used call member
      simp [toolUse, parsed]
    · rw [same]
      intro call member
      obtain ⟨input, parsed⟩ := used call member
      simp [toolUse, parsed]

def callHistory (last : Message) : GeneralOpenAIRequest where
  model := "claude-sonnet-4"
  messages := [{ role := "user", content := .value (.str "How is the weather?") },
    (exampleChoice "" "tool_calls").message, last]

theorem callHistory_fine (last : Message) (plain : Plain oneObject last)
    (refs : ∀ id ∈ toolRefs last, id = "call_1") :
    (∀ m ∈ (callHistory last).messages, Plain oneObject m) ∧
      Backed (fun m => (ownCalls m).map (·.id)) toolRefs (callHistory last).messages := by
  constructor
  · simp only [callHistory, forall_mem_cons, not_mem_nil, IsEmpty.forall_iff,
      implies_true, and_true]
    refine ⟨⟨by decide, rfl, nofun⟩, ⟨by decide, rfl, fun call own => ?_⟩, plain⟩
    obtain rfl := mem_singleton.mp own
    exact .inr ⟨[], rfl⟩
  · rw [show (callHistory last).messages = ([] ++ [_] ++ [_]) ++ [last] from rfl, backed_concat,
      backed_concat, backed_concat]
    exact ⟨⟨⟨backed_nil, nofun⟩, nofun⟩, fun id own => refs id own ▸ mem_singleton.mpr rfl⟩

def resultMessage : Message :=
  { role := "tool", content := .value (.str "Rain."), toolCallId := "call_1" }

def secondMessage : Message := { role := "assistant", content := .value (.str "I will look.") }

theorem history_sound_iff_call : ∃ r,
    requestOpenAI2ClaudeMessage oneObject {} (callHistory resultMessage) = .ok r ∧
      Sound oneObject (callHistory resultMessage).messages r.messages := by
  obtain ⟨plain, known⟩ := callHistory_fine resultMessage ⟨by decide, rfl, nofun⟩
    (by decide)
  refine ⟨_, rfl, (history_sound_iff oneObject {} _ plain rfl known _ rfl).mpr
    ⟨by decide, by decide, ?_⟩⟩
  simp [Unjoined, callHistory, resultMessage, ownCalls]

/-- The call of a message that another one of the assistant follows is lost. -/
theorem joined_call_lost :
    (∀ m ∈ (callHistory secondMessage).messages, Plain oneObject m) ∧
      Backed (fun m => (ownCalls m).map (·.id)) toolRefs (callHistory secondMessage).messages ∧
      ∃ r, requestOpenAI2ClaudeMessage oneObject {} (callHistory secondMessage) = .ok r ∧
        ¬ Sound oneObject (callHistory secondMessage).messages r.messages := by
  obtain ⟨plain, known⟩ := callHistory_fine secondMessage ⟨by decide, rfl, nofun⟩
    (by decide)
  refine ⟨plain, known, _, rfl, fun sound => ?_⟩
  have count := congrArg length sound.uses
  cases count

end EastApi.Convert.OpenAIToClaude
