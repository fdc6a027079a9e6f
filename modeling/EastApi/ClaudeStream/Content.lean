import EastApi.ClaudeStream.Blocks

/-! What the chunks of a stream carry, and what of it reaches the client: the text, the reasoning
and the arguments of each tool call. -/

namespace EastApi.ClaudeStream

open Go Option List String

/-- A way to read pieces of content, by their kind. A piece of a tool call is on a block. -/
structure Reading where
  (text thinking : String → String)
  json : Int → String → String
  text_empty : text "" = ""
  thinking_empty : thinking "" = ""
  json_empty : ∀ index, json index "" = ""

attribute [simp] Reading.text_empty Reading.thinking_empty Reading.json_empty

def Reading.ofText : Reading where
  text s := s
  thinking _ := ""
  json _ _ := ""
  text_empty := rfl
  thinking_empty := rfl
  json_empty _ := rfl

def Reading.ofThinking : Reading where
  text _ := ""
  thinking s := s
  json _ _ := ""
  text_empty := rfl
  thinking_empty := rfl
  json_empty _ := rfl

def Reading.ofBlock (index : Int) : Reading where
  text _ := ""
  thinking _ := ""
  json i s := if i = index then s else ""
  text_empty := rfl
  thinking_empty := rfl
  json_empty _ := by simp

def BlockDelta.read (r : Reading) (index : Int) : BlockDelta → String
  | .textDelta s => r.text s
  | .thinkingDelta s => r.thinking s
  | .inputJsonDelta s => r.json index s

def Event.read (r : Reading) : Event → String
  | .contentBlockDelta index delta => delta.read r index
  | _ => ""

def sent (r : Reading) (events : List Event) : String := concat (events.map (Event.read r))

variable (r : Reading)

@[simp] theorem sent_nil : sent r [] = "" := rfl

@[simp] theorem sent_cons (event : Event) (events : List Event) :
    sent r (event :: events) = event.read r ++ sent r events := rfl

@[simp] theorem sent_append (before after : List Event) :
    sent r (before ++ after) = sent r before ++ sent r after := by
  simp [sent]

@[simp] theorem sent_stopOpenBlocks (info : ConvertInfo) : sent r (stopOpenBlocks info) = "" := by
  unfold stopOpenBlocks sent
  split <;> simp [Event.read, concat_eq_empty]

@[simp] theorem sent_stopOpenBlocksAndAdvance (info : ConvertInfo) :
    sent r (stopOpenBlocksAndAdvance info).1 = "" := by
  unfold stopOpenBlocksAndAdvance
  split <;> simp

@[simp] theorem sent_changeType (next : LastMessageType) (info : ConvertInfo) :
    sent r (changeType next info).1 = "" := by
  unfold changeType
  split <;> simp

@[simp] theorem sent_finishMessage (chunk : Chunk) (info : ConvertInfo) :
    sent r (finishMessage chunk info).1 = "" := by
  unfold finishMessage
  split <;> simp [Event.read]

@[simp] theorem sent_startBlock (type : LastMessageType) (block : Block) (delta : BlockDelta)
    (info : ConvertInfo) :
    sent r (startBlock type block delta info).1 = delta.read r (changeType type info).2.index := by
  simp [startBlock, Event.read]

theorem sent_firstToolCall (chunk : Chunk) (info : ConvertInfo) :
    sent r (firstToolCall chunk info).1 =
      r.json 0 ((chunk.toolCalls.head?.map (·.arguments)).getD "") := by
  unfold firstToolCall
  split
  next calls => simp [calls]
  next call rest calls =>
    by_cases empty : call.arguments = "" <;> simp [calls, empty, Event.read, BlockDelta.read]

def ChoiceDelta.spoken (delta : ChoiceDelta) : String :=
  if delta.getReasoningContent ≠ "" then r.thinking delta.getReasoningContent
  else r.text delta.getContentString

theorem sent_firstContent (delta : ChoiceDelta) (info : ConvertInfo) :
    sent r (firstContent delta info).1 = delta.spoken r := by
  unfold firstContent ChoiceDelta.spoken
  split_ifs with reasoned spoke <;> simp_all [BlockDelta.read]

variable {chunk : Chunk} {choice : Choice}

theorem sent_firstResponse (single : chunk.choices = [choice]) (info : ConvertInfo) :
    sent r (firstResponse chunk info).1 =
      r.json 0 ((choice.delta.toolCalls.head?.map (·.arguments)).getD "") ++
        choice.delta.spoken r := by
  have calls : chunk.toolCalls = choice.delta.toolCalls := by simp [Chunk.toolCalls, single]
  simp only [firstResponse, single]
  split <;> simp [Event.read, sent_firstToolCall, sent_firstContent, calls]

def ChoiceDelta.calls (base : Int) (delta : ChoiceDelta) : String :=
  concat ((withOffset delta.toolCalls).map fun call => r.json (base + call.1) call.2.arguments)

theorem sent_toolCallEvents (base : Int) (calls : List (Int × ToolCallResponse)) :
    sent r (calls.flatMap (toolCallEvents base)) =
      Go.concat (calls.map fun call => r.json (base + call.1) call.2.arguments) := by
  induction calls with
  | nil => rfl
  | cons call rest ih =>
    simp only [flatMap_cons, sent_append, ih, map_cons, Go.concat_cons]
    congr 1
    by_cases named : call.2.name = "" <;> by_cases empty : call.2.arguments = "" <;>
      simp [toolCallEvents, named, empty, Event.read, BlockDelta.read]

theorem sent_openTools (info : ConvertInfo) : sent r (openTools info).1 = "" := by
  unfold openTools
  split <;> simp

theorem sent_sendDelta (delta : ChoiceDelta) (info : ConvertInfo) :
    sent r (sendDelta delta info).1 =
      if delta.toolCalls ≠ [] then delta.calls r (sendDelta delta info).2.toolCallBaseIndex
      else delta.spoken r := by
  have piece : ∀ (type : LastMessageType) (block : Block) (d : BlockDelta),
      (∀ i j, d.read r i = d.read r j) → sent r (sendPiece type block d info).1 = d.read r 0 := by
    intro type block d anywhere
    unfold sendPiece
    split <;> simp [Event.read, anywhere _ 0]
  unfold sendDelta
  split_ifs with some_call reasoned spoke
  · simp [sendToolCalls, sent_openTools, sent_toolCallEvents, ChoiceDelta.calls]
  · rw [piece _ _ _ fun _ _ => rfl]
    simp [ChoiceDelta.spoken, reasoned, BlockDelta.read]
  · rw [piece _ _ _ fun _ _ => rfl]
    simp_all [ChoiceDelta.spoken, BlockDelta.read]
  · simp_all [ChoiceDelta.spoken]

def Chunk.content (chunk : Chunk) : String :=
  concat (chunk.choices.map (·.delta.getContentString))

def Chunk.reasoning (chunk : Chunk) : String :=
  concat (chunk.choices.map (·.delta.getReasoningContent))

def fragments (index : Int) (calls : List (Int × ToolCallResponse)) : String :=
  concat (calls.map fun call => if call.1 = index then call.2.arguments else "")

def ChoiceDelta.arguments (index : Int) (delta : ChoiceDelta) : String :=
  fragments index (withOffset delta.toolCalls)

def Chunk.arguments (index : Int) (chunk : Chunk) : String :=
  concat (chunk.choices.map (·.delta.arguments index))

/-- A chunk with the events that were sent for it. The call `index` of the group of calls that is
open is on the block `base + index`. -/
structure Handled where
  chunk : Chunk
  events : List Event
  base : Int

def handleAll : ConvertInfo → List Chunk → List Handled
  | _, [] => []
  | info, chunk :: rest =>
    if info.done then []
    else
      let sent := handleStreamFormat chunk info
      ⟨chunk, sent.1, sent.2.toolCallBaseIndex⟩ :: handleAll sent.2 rest

def Handled.text (h : Handled) : String := sent .ofText h.events

def Handled.thinking (h : Handled) : String := sent .ofThinking h.events

def Handled.json (index : Int) (h : Handled) : String := sent (.ofBlock (h.base + index)) h.events

structure Preserved (handled : List Handled) : Prop where
  text : Go.concat (handled.map Handled.text) = Go.concat (handled.map (·.chunk.content))
  thinking : Go.concat (handled.map Handled.thinking) = Go.concat (handled.map (·.chunk.reasoning))
  json : ∀ index, Go.concat (handled.map (Handled.json index)) =
    Go.concat (handled.map (·.chunk.arguments index))

def ChoiceDelta.Plain (delta : ChoiceDelta) : Prop :=
  delta.getReasoningContent = "" ∨ delta.getContentString = ""

/-- The first response sends all of the choice: of its tool calls, only the first one has arguments,
and it is the call `0`. -/
def Choice.SentFirst (choice : Choice) : Prop :=
  choice.delta.Plain ∧
    (∀ call ∈ choice.delta.toolCalls.head?, call.index.getD 0 = 0 ∨ call.arguments = "") ∧
    ∀ call ∈ choice.delta.toolCalls.tail, call.arguments = ""

/-- A later response sends all of the choice: nothing stands beside its tool calls, and there is
nothing at all in a chunk that ends the message without a usage. -/
def Choice.SentLater (usage : Option Usage) (choice : Choice) : Prop :=
  if choice.isFinished ∧ usage = none then
    choice.delta.getReasoningContent = "" ∧ choice.delta.getContentString = "" ∧
      ∀ call ∈ choice.delta.toolCalls, call.arguments = ""
  else if choice.delta.toolCalls ≠ [] then
    choice.delta.getReasoningContent = "" ∧ choice.delta.getContentString = ""
  else choice.delta.Plain

instance ChoiceDelta.decidablePlain (delta : ChoiceDelta) : Decidable delta.Plain :=
  inferInstanceAs (Decidable (_ ∨ _))

instance Choice.decidableSentFirst (choice : Choice) : Decidable choice.SentFirst :=
  inferInstanceAs (Decidable (_ ∧ _ ∧ _))

instance Choice.decidableSentLater (usage : Option Usage) (choice : Choice) :
    Decidable (choice.SentLater usage) := by
  unfold Choice.SentLater
  infer_instance

structure Handled.Kept (h : Handled) : Prop where
  text : h.text = h.chunk.content
  thinking : h.thinking = h.chunk.reasoning
  json : ∀ index, h.json index = h.chunk.arguments index

theorem calls_ofBlock (delta : ChoiceDelta) (base index : Int) :
    delta.calls (.ofBlock (base + index)) base = delta.arguments index := by
  simp [ChoiceDelta.calls, ChoiceDelta.arguments, fragments, Reading.ofBlock]

theorem calls_ofText (delta : ChoiceDelta) (base : Int) : delta.calls .ofText base = "" := by
  simp [ChoiceDelta.calls, concat_eq_empty, Reading.ofText]

theorem calls_ofThinking (delta : ChoiceDelta) (base : Int) :
    delta.calls .ofThinking base = "" := by
  simp [ChoiceDelta.calls, concat_eq_empty, Reading.ofThinking]

theorem fragments_eq_empty :
    (∀ index, fragments index calls = "") ↔ ∀ call ∈ calls.map (·.2), call.arguments = "" := by
  simp only [fragments, concat_eq_empty, List.forall_mem_map]
  constructor
  · intro empty call on
    simpa using empty call.1 call on
  · intro empty index call on
    simp [empty call on]

theorem arguments_eq_empty {delta : ChoiceDelta} :
    (∀ index, delta.arguments index = "") ↔ ∀ call ∈ delta.toolCalls, call.arguments = "" := by
  unfold ChoiceDelta.arguments
  rw [fragments_eq_empty, withOffset_calls]

theorem Chunk.carried_single (single : chunk.choices = [choice]) :
    chunk.content = choice.delta.getContentString ∧
      chunk.reasoning = choice.delta.getReasoningContent ∧
      ∀ index, chunk.arguments index = choice.delta.arguments index := by
  simp [Chunk.content, Chunk.reasoning, Chunk.arguments, single]

theorem spoken_ofText (delta : ChoiceDelta) : delta.spoken .ofText =
    if delta.getReasoningContent = "" then delta.getContentString else "" := by
  simp [ChoiceDelta.spoken, Reading.ofText, ite_not]

theorem spoken_ofThinking (delta : ChoiceDelta) :
    delta.spoken .ofThinking = delta.getReasoningContent := by
  unfold ChoiceDelta.spoken Reading.ofThinking
  split <;> simp_all

theorem spoken_ofBlock (delta : ChoiceDelta) (index : Int) :
    delta.spoken (.ofBlock index) = "" := by
  simp [ChoiceDelta.spoken, Reading.ofBlock]

structure Handled.Later (h : Handled) (choice : Choice) : Prop where
  single : h.chunk.choices = [choice]
  carries (r : Reading) : sent r h.events =
    if choice.isFinished ∧ h.chunk.usage = none then ""
    else if choice.delta.toolCalls ≠ [] then choice.delta.calls r h.base
    else choice.delta.spoken r

section Later

variable {h : Handled} {choice : Choice} (later : h.Later choice)

include later

theorem Handled.Later.text : h.text =
    if choice.isFinished ∧ h.chunk.usage = none ∨ choice.delta.toolCalls ≠ [] ∨
      choice.delta.getReasoningContent ≠ "" then "" else choice.delta.getContentString := by
  rw [Handled.text, later.carries, calls_ofText, spoken_ofText]
  split_ifs <;> simp_all

theorem Handled.Later.thinking : h.thinking =
    if choice.isFinished ∧ h.chunk.usage = none ∨ choice.delta.toolCalls ≠ [] then ""
    else choice.delta.getReasoningContent := by
  rw [Handled.thinking, later.carries, calls_ofThinking, spoken_ofThinking]
  split_ifs <;> simp_all

theorem Handled.Later.json (index : Int) : h.json index =
    if choice.isFinished ∧ h.chunk.usage = none then "" else choice.delta.arguments index := by
  rw [Handled.json, later.carries, calls_ofBlock, spoken_ofBlock]
  split_ifs with deferred calls
  · rfl
  · rfl
  · have none : choice.delta.toolCalls = [] := not_not.mp calls
    exact (arguments_eq_empty.mpr (by simp [none]) index).symm

theorem Handled.Later.kept_iff : h.Kept ↔ choice.SentLater h.chunk.usage := by
  obtain ⟨content, reasoning, arguments⟩ := Chunk.carried_single later.single
  have kept : h.Kept ↔ h.text = choice.delta.getContentString ∧
      h.thinking = choice.delta.getReasoningContent ∧
      ∀ index, h.json index = choice.delta.arguments index := by
    rw [← content, ← reasoning]
    simp only [← arguments]
    exact ⟨fun k => ⟨k.text, k.thinking, k.json⟩, fun ⟨t, k, j⟩ => ⟨t, k, j⟩⟩
  simp only [kept, later.text, later.thinking, later.json, Choice.SentLater]
  by_cases deferred : choice.isFinished ∧ h.chunk.usage = none
  · simp [deferred, ← arguments_eq_empty]
    tauto
  · by_cases calls : choice.delta.toolCalls = []
    · by_cases reasoned : choice.delta.getReasoningContent = "" <;>
        simp [deferred, calls, reasoned, ChoiceDelta.Plain]
    · simp [deferred, calls]
      tauto

theorem Handled.Later.short : h.text.length ≤ h.chunk.content.length ∧
    h.thinking.length ≤ h.chunk.reasoning.length ∧
    ∀ index, (h.json index).length ≤ (h.chunk.arguments index).length := by
  obtain ⟨content, reasoning, arguments⟩ := Chunk.carried_single later.single
  rw [content, reasoning, later.text, later.thinking]
  refine ⟨by split <;> simp, by split <;> simp, fun index => ?_⟩
  rw [arguments, later.json]
  split <;> simp

end Later

def ChoiceDelta.leading (delta : ChoiceDelta) : String :=
  (delta.toolCalls.head?.map (·.arguments)).getD ""

structure Handled.First (h : Handled) (choice : Choice) : Prop where
  single : h.chunk.choices = [choice]
  carries (r : Reading) : sent r h.events =
    r.json 0 choice.delta.leading ++ choice.delta.spoken r
  base : choice.delta.toolCalls ≠ [] → h.base = 0

/-- Only the first of all calls is sent, as the call `0`: the fragments are right when it is that
call, and the others have none. -/
theorem leading_iff (delta : ChoiceDelta) :
    (∀ index, (if index = 0 then delta.leading else "") = delta.arguments index) ↔
      (∀ call ∈ delta.toolCalls.head?, call.index.getD 0 = 0 ∨ call.arguments = "") ∧
        ∀ call ∈ delta.toolCalls.tail, call.arguments = "" := by
  unfold ChoiceDelta.leading ChoiceDelta.arguments
  cases delta.toolCalls with
  | nil => simp [withOffset, fragments]
  | cons call rest =>
    obtain ⟨others, offsets, rfl⟩ := withOffset_cons call rest
    have split : ∀ index, fragments index ((call.index.getD 0, call) :: others) =
        (if call.index.getD 0 = index then call.arguments else "") ++ fragments index others :=
      fun _ => rfl
    simp only [head?_cons, tail_cons, mem_def, some.injEq, forall_eq',
      map_some, getD_some, offsets, split, ← fragments_eq_empty]
    by_cases zero : call.index.getD 0 = 0
    · simp only [zero, true_or, true_and]
      refine forall_congr' fun index => ?_
      by_cases same : index = 0
      · simp only [same, if_true]
        rw [← toList_inj, toList_append, self_eq_append_right,
          String.toList_eq_nil_iff]
      · simp [same, Ne.symm same]
    · constructor
      · intro right
        have lost := right (call.index.getD 0)
        simp only [zero, if_false, if_true, empty_eq_iff, append_eq_empty_iff] at lost
        exact ⟨.inr lost.1, fun index => by simpa [lost.1] using (right index).symm⟩
      · rintro ⟨offset | empty, others⟩ index
        · exact absurd offset zero
        · simp [empty, others index]

section First

variable {h : Handled} {choice : Choice} (first : h.First choice)

include first

theorem Handled.First.text : h.text =
    if choice.delta.getReasoningContent = "" then choice.delta.getContentString else "" := by
  rw [Handled.text, first.carries, spoken_ofText]
  exact empty_append

theorem Handled.First.thinking : h.thinking = choice.delta.getReasoningContent := by
  rw [Handled.thinking, first.carries, spoken_ofThinking]
  exact empty_append

theorem Handled.First.json (index : Int) : h.json index =
    if index = 0 then choice.delta.leading else "" := by
  rw [Handled.json, first.carries, spoken_ofBlock, append_empty]
  by_cases calls : choice.delta.toolCalls = []
  · simp [ChoiceDelta.leading, calls]
  · simp [Reading.ofBlock, first.base calls, eq_comm]

theorem Handled.First.kept_iff : h.Kept ↔ choice.SentFirst := by
  obtain ⟨content, reasoning, arguments⟩ := Chunk.carried_single first.single
  rw [Choice.SentFirst, ← leading_iff]
  constructor
  · intro kept
    refine ⟨?_, fun index => by rw [← first.json, kept.json, arguments]⟩
    have text := kept.text
    rw [first.text, content] at text
    unfold ChoiceDelta.Plain
    split at text <;> simp_all
  · rintro ⟨plain, calls⟩
    refine ⟨?_, first.thinking.trans reasoning.symm, fun index => ?_⟩
    · rw [first.text, content]
      rcases plain with none | none <;> simp [none]
    · rw [first.json, arguments, calls]

theorem Handled.First.short : h.text.length ≤ h.chunk.content.length ∧
    h.thinking.length ≤ h.chunk.reasoning.length ∧
    ∀ index, index ≠ 0 → (h.json index).length ≤ (h.chunk.arguments index).length := by
  obtain ⟨content, reasoning, arguments⟩ := Chunk.carried_single first.single
  rw [content, reasoning, first.text, first.thinking]
  refine ⟨by split <;> simp, le_rfl, fun index other => ?_⟩
  simp [first.json, other]

end First

/-- The first call of the first response cannot hide a loss: had it another index, its arguments
would be missing there. -/
theorem Handled.First.short_zero {h : Handled} (first : h.First choice)
    (others : ∀ index, index ≠ 0 → h.json index = h.chunk.arguments index) :
    (h.json 0).length ≤ (h.chunk.arguments 0).length := by
  obtain ⟨-, -, arguments⟩ := Chunk.carried_single first.single
  simp only [arguments, first.json] at others ⊢
  unfold ChoiceDelta.leading ChoiceDelta.arguments at *
  cases toolCalls : choice.delta.toolCalls with
  | nil => simp
  | cons call rest =>
    obtain ⟨rest, offsets, -⟩ := withOffset_cons call rest
    simp only [toolCalls, offsets, fragments, map_cons, Go.concat_cons, head?_cons,
      map_some, getD_some] at others ⊢
    by_cases zero : call.index.getD 0 = 0
    · simp [zero]
    · have lost := others _ zero
      simp only [zero, if_false, if_true, empty_eq_iff, append_eq_empty_iff] at lost
      simp [lost.1]

theorem preserved_iff {rest : List Handled} (first : h.First choice)
    (later : ∀ a ∈ rest, ∃ choice, a.Later choice) :
    Preserved (h :: rest) ↔ ∀ a ∈ h :: rest, a.Kept := by
  have short : ∀ a ∈ rest, a.text.length ≤ a.chunk.content.length ∧
      a.thinking.length ≤ a.chunk.reasoning.length ∧
      ∀ index, (a.json index).length ≤ (a.chunk.arguments index).length :=
    fun a on => (later a on).elim fun _ later => later.short
  constructor
  · intro preserved
    have texts : ∀ a ∈ h :: rest, a.text.length ≤ a.chunk.content.length :=
      forall_mem_cons.mpr ⟨first.short.1, fun a on => (short a on).1⟩
    have thoughts : ∀ a ∈ h :: rest, a.thinking.length ≤ a.chunk.reasoning.length :=
      forall_mem_cons.mpr ⟨first.short.2.1, fun a on => (short a on).2.1⟩
    have text := (concat_map_eq_iff texts).mp preserved.text
    have thinking := (concat_map_eq_iff thoughts).mp preserved.thinking
    have json : ∀ index, (h.json index).length ≤ (h.chunk.arguments index).length →
        ∀ a ∈ h :: rest, a.json index = a.chunk.arguments index := by
      intro index bound
      have all : ∀ a ∈ h :: rest, (a.json index).length ≤ (a.chunk.arguments index).length :=
        forall_mem_cons.mpr ⟨bound, fun a on => (short a on).2.2 index⟩
      exact (concat_map_eq_iff all).mp (preserved.json index)
    have others := fun index other => json index (first.short.2.2 index other)
    have zero := first.short_zero fun index other => others index other h mem_cons_self
    intro a on
    refine ⟨text a on, thinking a on, fun index => ?_⟩
    by_cases same : index = 0
    · exact json index (same ▸ zero) a on
    · exact others index same a on
  · intro kept
    exact ⟨congrArg Go.concat (map_congr_left fun a on => (kept a on).text),
      congrArg Go.concat (map_congr_left fun a on => (kept a on).thinking),
      fun index => congrArg Go.concat (map_congr_left fun a on => (kept a on).json index)⟩

variable {info : ConvertInfo}

theorem handled_later (single : chunk.choices = [choice]) (running : info.done = false)
    (begun : 0 < info.sendResponseCount) :
    Handled.Later ⟨chunk, (handleStreamFormat chunk info).1,
      (handleStreamFormat chunk info).2.toolCallBaseIndex⟩ choice := by
  refine ⟨single, fun r => ?_⟩
  rw [handleStreamFormat_next running begun, laterResponse, single]
  dsimp only [choiceResponse]
  split
  · rfl
  · split
    · simp [sent_sendDelta]
      rfl
    · simp [sent_sendDelta]

theorem handleAll_later (single : ∀ chunk ∈ chunks, ∃ choice, chunk.choices = [choice])
    (begun : 0 < info.sendResponseCount) :
    ∀ h ∈ handleAll info chunks, ∃ choice, h.Later choice := by
  induction chunks generalizing info with
  | nil => simp [handleAll]
  | cons chunk rest ih =>
    obtain ⟨⟨choice, only⟩, single⟩ := forall_mem_cons.mp single
    rw [handleAll]
    split
    next => simp
    next running =>
      refine forall_mem_cons.mpr ⟨⟨choice, handled_later only (by simpa using running) begun⟩,
        ih single ?_⟩
      rw [handleStreamFormat_count]
      omega

theorem firstContent_base (zero : info.toolCallBaseIndex = 0) :
    (firstContent delta info).2.toolCallBaseIndex = 0 := by
  have change : ∀ type, (changeType type info).2.toolCallBaseIndex = 0 := by
    intro type
    unfold changeType stopOpenBlocksAndAdvance
    split_ifs
    · split <;> first | rfl | exact zero
    · exact zero
  unfold firstContent startBlock
  split_ifs
  · exact change _
  · exact change _
  · exact zero

theorem firstResponse_base (zero : info.toolCallBaseIndex = 0) :
    (firstResponse chunk info).2.toolCallBaseIndex = 0 := by
  have calls : (firstToolCall chunk info).2.toolCallBaseIndex = 0 := by
    unfold firstToolCall
    split
    · exact zero
    · rfl
  unfold firstResponse
  split
  · exact calls
  · dsimp only
    split <;> exact firstContent_base calls

theorem handled_first (single : chunk.choices = [choice]) (estimate : Int) :
    Handled.First ⟨chunk, (handleStreamFormat chunk (genRelayInfoClaude estimate)).1,
      (handleStreamFormat chunk (genRelayInfoClaude estimate)).2.toolCallBaseIndex⟩ choice := by
  rw [handleStreamFormat_first rfl rfl]
  exact ⟨single, fun r => sent_firstResponse r single _, fun _ => firstResponse_base rfl⟩

/-- Exactly when nothing is lost: the first chunk leaves nothing that its response passes over, and
so does every later chunk that comes before the message is done. -/
theorem streamed_content_iff (estimate : Int) (chunks : List Chunk)
    (single : ∀ chunk ∈ chunks, ∃ choice, chunk.choices = [choice]) :
    Preserved (handleAll (genRelayInfoClaude estimate) chunks) ↔
      (∀ h ∈ (handleAll (genRelayInfoClaude estimate) chunks).head?,
        ∀ choice ∈ h.chunk.choices, choice.SentFirst) ∧
      ∀ h ∈ (handleAll (genRelayInfoClaude estimate) chunks).tail,
        ∀ choice ∈ h.chunk.choices, choice.SentLater h.chunk.usage := by
  cases chunks with
  | nil =>
    have empty : Preserved [] := ⟨rfl, rfl, fun _ => rfl⟩
    simp [handleAll, empty]
  | cons chunk rest =>
    obtain ⟨⟨choice, only⟩, single⟩ := forall_mem_cons.mp single
    have first := handled_first only estimate
    have later : ∀ h ∈ handleAll (handleStreamFormat chunk (genRelayInfoClaude estimate)).2 rest,
        ∃ choice, h.Later choice :=
      handleAll_later single (by rw [handleStreamFormat_count]; omega)
    rw [handleAll, if_neg (by simp [genRelayInfoClaude])]
    rw [preserved_iff first later, forall_mem_cons, first.kept_iff]
    simp only [head?_cons, tail_cons, mem_def, some.injEq, forall_eq', only,
      mem_singleton, forall_eq]
    refine and_congr_right fun _ => forall₂_congr fun h on => ?_
    obtain ⟨choice, later⟩ := later h on
    rw [later.kept_iff, later.single]
    simp

/-- A stream with reasoning, a text and the call of a tool in two fragments. The last chunk has a
reason to finish, a usage and the end of the arguments. -/
def weatherStream : List Chunk :=
  [.of "" "" [] none none, .of "which city" "" [] none none, .of "" "One moment." [] none none,
    .of "" "" [⟨some 0, "call-1", "weather", "[\"Bern"⟩] none none,
    .of "" "" [⟨some 0, "", "", "\"]"⟩] (some "tool_calls") (some someUsage)]

theorem streamed_content_iff_weather :
    (∀ chunk ∈ weatherStream, ∃ choice, chunk.choices = [choice]) ∧
      Preserved (handleAll (genRelayInfoClaude 10) weatherStream) := by
  have single : ∀ chunk ∈ weatherStream, ∃ choice, chunk.choices = [choice] := by
    simp [weatherStream, Chunk.of]
  refine ⟨single, (streamed_content_iff 10 weatherStream single).mpr ⟨?_, ?_⟩⟩
  · decide
  · decide

/-- Three streams of one choice that lose content: text in the chunk that ends the message, text
beside reasoning, and the second of two calls in the first chunk. -/
theorem content_lost :
    ¬ Preserved (handleAll (genRelayInfoClaude 10)
      [.of "" "" [] none none, .of "" "Hello" [] (some "stop") none]) ∧
    ¬ Preserved (handleAll (genRelayInfoClaude 10)
      [.of "" "" [] none none, .of "a greeting" "Hello" [] none none]) ∧
    ¬ Preserved (handleAll (genRelayInfoClaude 10)
      [.of "" "" [⟨some 0, "call-1", "weather", "[]"⟩, ⟨some 1, "call-2", "time", "[]"⟩]
        none none]) := by
  refine ⟨fun preserved => ?_, fun preserved => ?_, fun preserved => ?_⟩
  · exact absurd preserved.text (by decide)
  · exact absurd preserved.text (by decide)
  · exact absurd (preserved.json 1) (by decide)

end EastApi.ClaudeStream
