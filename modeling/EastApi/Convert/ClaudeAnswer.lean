import EastApi.Convert.ClaudeEvents

/-! `ResponseClaude2OpenAI`, the conversion of an answer that is not streamed, and its agreement
with the stream of the same answer.  The loop over the blocks keeps the last text and the last
thinking, where a stream sends all of them. -/

namespace EastApi.Convert

open Go
open List hiding concat concat_append concat_cons concat_nil
open ClaudeStream (ToolCallResponse)

structure TextResponse where
  (id model content reasoningContent : String)
  toolCalls : List ToolCallResponse
  finishReason : String

/-- What the loop over the blocks has collected. -/
structure Gathered where
  responseText : String := ""
  thinkingContent : String := ""
  tools : List ToolCallResponse := []

/-- One block.  A later text or thought replaces the one before it. -/
def gather (lib : Libraries) (s : Gathered) (message : ClaudeMediaMessage) : Gathered :=
  match message.type with
  | "tool_use" =>
    { s with tools := s.tools ++ [⟨none, message.id, message.name, lib.marshal message.input⟩] }
  | "thinking" => { s with thinkingContent := message.thinking.getD s.thinkingContent }
  | "text" => { s with responseText := message.getText }
  | _ => s

/-- The thinking of the first block is replaced by that of the loop, whatever it is. -/
def responseClaude2OpenAI (lib : Libraries) (r : ClaudeResponse) : TextResponse :=
  let s := r.content.foldl (gather lib)
    { responseText := (r.content.head?.map (·.getText)).getD "" }
  { id := r.id, model := r.model, content := s.responseText, reasoningContent := s.thinkingContent
    toolCalls := s.tools, finishReason := stopReasonClaude2OpenAI r.stopReason }

/-- A block of an answer, as the upstream means it. -/
inductive AnswerBlock
  | text (s : String)
  | thinking (s : String)
  | toolUse (id name : String) (input : Value)

namespace AnswerBlock

def media : AnswerBlock → ClaudeMediaMessage
  | .text s => { type := "text", text := some s }
  | .thinking s => { type := "thinking", thinking := some s }
  | .toolUse id name input => { type := "tool_use", id, name, input }

def text? : AnswerBlock → Option String
  | .text s => some s
  | _ => none

def thinking? : AnswerBlock → Option String
  | .thinking s => some s
  | _ => none

def isTool : AnswerBlock → Bool
  | .toolUse _ _ _ => true
  | _ => false

def call? (lib : Libraries) : AnswerBlock → Option (String × String × String)
  | .toolUse id name input => some (id, name, lib.marshal input)
  | _ => none

end AnswerBlock

/-- What a client has in the end; a call is its id, name and arguments. -/
structure Reply where
  (content reasoning : String)
  toolCalls : List (String × String × String)

/-- All that the blocks say. -/
def wholeReply (lib : Libraries) (blocks : List AnswerBlock) : Reply where
  content := concat (blocks.filterMap (·.text?))
  reasoning := concat (blocks.filterMap (·.thinking?))
  toolCalls := blocks.filterMap (·.call? lib)

def TextResponse.reply (r : TextResponse) : Reply where
  content := r.content
  reasoning := r.reasoningContent
  toolCalls := r.toolCalls.map fun call => (call.id, call.name, call.arguments)

/-- Only the last text is not empty: nothing is lost when it replaces the others. -/
def LastOnly (texts : List String) : Prop := ∀ s ∈ texts.dropLast, s = ""

theorem concat_eq_last_iff (texts : List String) :
    texts.getLast?.getD "" = concat texts ↔ LastOnly texts := by
  rcases texts.eq_nil_or_concat with rfl | ⟨rest, last, rfl⟩
  · simp [LastOnly]
  · rw [LastOnly, concat_eq_append, dropLast_concat, ← concat_eq_empty,
      getLast?_concat, concat_append, concat_cons, concat_nil, String.append_empty,
      Option.getD_some, eq_comm, String.append_eq_right_iff]

theorem foldl_gather (lib : Libraries) (blocks : List AnswerBlock) (s : Gathered) :
    (blocks.map (·.media)).foldl (gather lib) s =
      { responseText := (blocks.filterMap (·.text?)).getLast?.getD s.responseText
        thinkingContent := (blocks.filterMap (·.thinking?)).getLast?.getD s.thinkingContent
        tools := s.tools ++ (blocks.filterMap (·.call? lib)).map fun call =>
          ⟨none, call.1, call.2.1, call.2.2⟩ } := by
  induction blocks generalizing s with
  | nil => simp
  | cons b rest ih =>
    rw [map_cons, foldl_cons, ih]
    cases b <;> simp [gather, AnswerBlock.media, AnswerBlock.text?, AnswerBlock.thinking?,
      AnswerBlock.call?, ClaudeMediaMessage.getText, getLast?_cons]

theorem reply_responseClaude2OpenAI (lib : Libraries) (blocks : List AnswerBlock)
    (r : ClaudeResponse) (content : r.content = blocks.map (·.media)) :
    (responseClaude2OpenAI lib r).reply =
      { content := (blocks.filterMap (·.text?)).getLast?.getD ""
        reasoning := (blocks.filterMap (·.thinking?)).getLast?.getD ""
        toolCalls := blocks.filterMap (·.call? lib) } := by
  have text : (blocks.filterMap (·.text?)).getLast?.getD
      (((blocks.map (·.media)).head?.map (·.getText)).getD "") =
        (blocks.filterMap (·.text?)).getLast?.getD "" := by
    cases blocks with
    | nil => rfl
    | cons b rest =>
      cases b with
      | text t => simp [AnswerBlock.text?, getLast?_cons]
      | thinking t => rfl
      | toolUse id name input => rfl
  simp only [responseClaude2OpenAI, TextResponse.reply, content, foldl_gather, text]
  simp [Function.comp_def]

theorem reply_eq_whole_iff (lib : Libraries) (blocks : List AnswerBlock) (r : ClaudeResponse)
    (content : r.content = blocks.map (·.media)) :
    (responseClaude2OpenAI lib r).reply = wholeReply lib blocks ↔
      LastOnly (blocks.filterMap (·.text?)) ∧ LastOnly (blocks.filterMap (·.thinking?)) := by
  rw [reply_responseClaude2OpenAI lib blocks r content, wholeReply, Reply.mk.injEq,
    concat_eq_last_iff, concat_eq_last_iff]
  simp

def BlockStart.said : BlockStart → String
  | .text first => first
  | _ => ""

def Piece.said : Piece → String
  | .text s => s
  | _ => ""

def Piece.thought : Piece → String
  | .thinking s => s
  | _ => ""

def Block.said (b : Block) : String := b.start.said ++ concat (b.pieces.map Piece.said)

def Block.thought (b : Block) : String := concat (b.pieces.map Piece.thought)

/-- The block of a stream has the content of a block of an answer. -/
def Renders (lib : Libraries) (b : Block) : AnswerBlock → Prop
  | .text s => (∃ first, b.start = .text first) ∧ b.said = s
  | .thinking s => b.start = .thinking ∧ b.thought = s
  | .toolUse id name input => b.start = .toolUse id name ∧ b.json = lib.marshal input

def ClaudeResponse.isSignature (r : ClaudeResponse) : Bool :=
  r.type = "content_block_delta" && r.delta.any (·.type = "signature_delta")

/-- A stream without the events that sign a thought. -/
def unsigned (stream : List ClaudeResponse) : List ClaudeResponse :=
  stream.filter (!·.isSignature)

structure Call where
  index : Option Int
  (id name arguments : String)

/-- A client puts the arguments of one index together. -/
def addCall (calls : List Call) (c : ToolCallResponse) : List Call :=
  if calls.any (·.index = c.index) then
    calls.map fun e =>
      if e.index = c.index then { e with arguments := e.arguments ++ c.arguments } else e
  else calls ++ [⟨c.index, c.id, c.name, c.arguments⟩]

def Call.content (e : Call) : String × String × String := (e.id, e.name, e.arguments)

/-- What a client collects from the chunks of a stream. -/
def foldedReply (chunks : List StreamResponse) : Reply where
  content := concat (chunks.map fun chunk => chunk.delta.content.getD "")
  reasoning := concat (chunks.map fun chunk => chunk.delta.reasoningContent.getD "")
  toolCalls := ((chunks.flatMap (·.delta.toolCalls)).foldl addCall []).map (·.content)

def Piece.isSignature : Piece → Bool
  | .signature _ => true
  | _ => false

def Block.unsigned (b : Block) : Block where
  start := b.start
  pieces := b.pieces.filter (!·.isSignature)
  fits := fun piece member => b.fits piece (List.mem_of_mem_filter member)

theorem isSignature_pieceEvent (p : ℕ) (piece : Piece) :
    (pieceEvent p piece).isSignature = piece.isSignature := by
  cases piece <;> rfl

theorem unsigned_blocksEvents (p : ℕ) (bs : List Block) :
    unsigned (blocksEvents p bs) = blocksEvents p (bs.map Block.unsigned) := by
  induction bs generalizing p with
  | nil => rfl
  | cons b rest ih =>
    have pieces : unsigned (b.pieces.map (pieceEvent p)) =
        b.unsigned.pieces.map (pieceEvent p) := by
      simp only [unsigned, filter_map, Function.comp_def, isSignature_pieceEvent,
        Block.unsigned]
    have start : unsigned [startEvent p b.start] = [startEvent p b.start] := rfl
    have stop : unsigned [stopEvent p] = [stopEvent p] := rfl
    have block : unsigned (blockEvents p b) = blockEvents p b.unsigned := by
      rw [blockEvents, ← singleton_append, unsigned, filter_append, filter_append]
      exact congrArg₂ (· ++ ·) (congrArg₂ (· ++ ·) start pieces) stop
    rw [blocksEvents, unsigned, filter_append]
    exact congrArg₂ (· ++ ·) block (ih (p + 1))

theorem WellFormed.unsigned (h : WellFormed stream bs) :
    WellFormed (Convert.unsigned stream) (bs.map Block.unsigned) := by
  obtain ⟨message, last, delta, same⟩ := h.events
  refine ⟨message, last, delta, ?_⟩
  have kept : last.isSignature = false := by simp [ClaudeResponse.isSignature, delta]
  have ends : Convert.unsigned [last, { type := "message_stop" }] =
      [last, { type := "message_stop" }] := by
    simp only [Convert.unsigned, filter_cons, kept]
    rfl
  rw [Convert.unsigned, filter_comm, same, filter_append, ← unsigned_blocksEvents]
  exact congrArg₂ (· ++ ·) rfl ends

variable {b : Block}

theorem Block.said_eq (other : ∀ first, b.start ≠ .text first) : b.said = "" := by
  have start : b.start.said = "" := by
    cases same : b.start <;> simp_all [BlockStart.said]
  have pieces : ∀ piece ∈ b.pieces, piece.said = "" := by
    intro piece held
    have fits := b.fits piece held
    cases piece <;> cases same : b.start <;> simp_all [BlockStart.takes, Piece.said]
  rw [Block.said, start, concat_eq_empty.mpr (forall_mem_map.mpr pieces), String.append_empty]

theorem Block.thought_eq (other : b.start ≠ .thinking) : b.thought = "" := by
  refine concat_eq_empty.mpr (forall_mem_map.mpr fun piece held => ?_)
  have fits := b.fits piece held
  cases piece <;> cases same : b.start <;> simp_all [BlockStart.takes, Piece.thought]

variable {lib : Libraries} {a : AnswerBlock}

theorem Renders.said (renders : Renders lib b a) :
    b.said = a.text?.getD "" := by
  cases a with
  | text s => exact renders.2
  | thinking _ | toolUse _ _ _ => exact Block.said_eq (by simp [renders.1])

theorem Renders.thought (renders : Renders lib b a) : b.thought = a.thinking?.getD "" := by
  cases a with
  | text s =>
    obtain ⟨⟨first, start⟩, -⟩ := renders
    exact Block.thought_eq (by simp [start])
  | thinking s => exact renders.2
  | toolUse id name input => exact Block.thought_eq (by simp [renders.1])

theorem concat_unsigned {read : Piece → String} (part : Piece → String)
    (same : ∀ piece, part piece = if piece.isSignature then "" else read piece) (b : Block) :
    concat (b.unsigned.pieces.map read) = concat (b.pieces.map part) := by
  change concat ((b.pieces.filter (!·.isSignature)).map read) = _
  induction b.pieces with
  | nil => rfl
  | cons piece rest ih => cases signed : piece.isSignature <;> simp [signed, ih, same piece]

theorem content_blockChunks (p : ℕ) (b : Block) :
    concat ((blockChunks p b.unsigned).map fun chunk => chunk.delta.content.getD "") = b.said := by
  have start : ((startChunk p b.start).delta.content.getD "") = b.start.said := by
    cases b.start <;> rfl
  rw [blockChunks, map_cons, concat_cons, map_map,
    concat_unsigned Piece.said (by rintro ⟨⟩ <;> rfl)]
  exact congrArg (· ++ _) start

theorem reasoning_blockChunks (p : ℕ) (b : Block) :
    concat ((blockChunks p b.unsigned).map fun chunk => chunk.delta.reasoningContent.getD "") =
      b.thought := by
  have start : ((startChunk p b.start).delta.reasoningContent.getD "") = "" := by
    cases b.start <;> rfl
  rw [blockChunks, map_cons, concat_cons, map_map,
    concat_unsigned Piece.thought (by rintro ⟨⟩ <;> rfl)]
  exact (congrArg (· ++ _) start).trans String.empty_append

theorem concat_blocksChunks {read : StreamResponse → String} (part : AnswerBlock → Option String)
    (each : ∀ p b a, Renders lib b a →
      concat ((blockChunks p b.unsigned).map read) = (part a).getD "")
    (renders : List.Forall₂ (Renders lib) bs blocks) (p : ℕ) :
    concat ((blocksChunks p (bs.map Block.unsigned)).map read) =
      concat (blocks.filterMap part) := by
  induction renders generalizing p with
  | nil => rfl
  | cons head tail ih =>
    rw [map_cons, blocksChunks, map_append, concat_append, each p _ _ head, ih (p + 1),
      filterMap_cons]
    split <;> simp_all

def blockCalls (p : ℕ) (b : Block) : List ToolCallResponse :=
  (blockChunks p b).flatMap (·.delta.toolCalls)

def blocksCalls (p : ℕ) (bs : List Block) : List ToolCallResponse :=
  (blocksChunks p bs).flatMap (·.delta.toolCalls)

theorem blocksCalls_cons (p : ℕ) (b : Block) (rest : List Block) :
    blocksCalls p (b :: rest) = blockCalls p b ++ blocksCalls (p + 1) rest := by
  simp [blocksCalls, blockCalls, blocksChunks]

theorem blockCalls_other (other : b.start.isTool = false) (p : ℕ) :
    blockCalls p b = [] := by
  have start : (startChunk p b.start).delta.toolCalls = [] := by
    cases same : b.start with
    | toolUse id name => simp [same, BlockStart.isTool] at other
    | _ => rfl
  have pieces : ∀ piece ∈ b.pieces, (pieceChunk p piece).delta.toolCalls = [] := by
    intro piece member
    have fits := b.fits piece member
    cases piece with
    | inputJson s => cases same : b.start <;> simp_all [BlockStart.isTool, BlockStart.takes]
    | _ => rfl
  simp only [blockCalls, blockChunks, flatMap_cons, start, nil_append,
    flatMap_eq_nil_iff, mem_map]
  rintro _ ⟨piece, member, rfl⟩
  exact pieces piece member

variable {id name : String}

theorem blockCalls_tool (start : b.start = .toolUse id name) (p : ℕ) :
    ∃ parts, blockCalls p b = ⟨some ((p - 1 : ℕ) : Int), id, name, ""⟩ :: parts ∧
      (∀ c ∈ parts, c.index = some ((p - 1 : ℕ) : Int)) ∧
      concat (parts.map (·.arguments)) = b.json := by
  refine ⟨(b.pieces.map (pieceChunk p)).flatMap (·.delta.toolCalls), ?_, ?_, ?_⟩
  · rw [blockCalls, blockChunks, flatMap_cons, start]
    rfl
  · intro c member
    simp only [mem_flatMap, mem_map] at member
    obtain ⟨_, ⟨piece, -, rfl⟩, called⟩ := member
    cases piece <;> simp_all [pieceChunk, callChunk]
  · rw [Block.json]
    induction b.pieces with
    | nil => rfl
    | cons piece rest ih => cases piece <;> simp_all [pieceChunk, callChunk, Piece.json]

theorem foldl_addCall_known (known : calls.any (·.index = k) = true)
    (parts : List ToolCallResponse) (same : ∀ c ∈ parts, c.index = k) :
    parts.foldl addCall calls = calls.map fun e =>
      if e.index = k then { e with arguments := e.arguments ++ concat (parts.map (·.arguments)) }
      else e := by
  induction parts generalizing calls with
  | nil => simp
  | cons c rest ih =>
    have index := same c mem_cons_self
    have step : addCall calls c = calls.map fun e =>
        if e.index = k then { e with arguments := e.arguments ++ c.arguments } else e := by
      rw [addCall, index, if_pos known]
    have still : (addCall calls c).any (·.index = k) = true := by
      obtain ⟨e, member, own⟩ := any_eq_true.mp known
      rw [decide_eq_true_eq] at own
      rw [step, any_map, any_eq_true]
      exact ⟨e, member, by simp [own]⟩
    rw [foldl_cons, ih still fun c member => same c (mem_cons_of_mem _ member), step,
      map_map]
    refine map_congr_left fun e _ => ?_
    by_cases own : e.index = k <;> simp [own, String.append_assoc]

variable {p : ℕ}

theorem foldl_blockCalls_fresh (start : b.start = .toolUse id name)
    (fresh : ∀ e ∈ calls, e.index ≠ some ((p - 1 : ℕ) : Int)) :
    (blockCalls p b).foldl addCall calls =
      calls ++ [⟨some ((p - 1 : ℕ) : Int), id, name, b.json⟩] := by
  obtain ⟨parts, same, index, arguments⟩ := blockCalls_tool start p
  have first : addCall calls ⟨some ((p - 1 : ℕ) : Int), id, name, ""⟩ =
      calls ++ [⟨some ((p - 1 : ℕ) : Int), id, name, ""⟩] := by
    rw [addCall, if_neg]
    simpa using fresh
  rw [same, foldl_cons, first, foldl_addCall_known (by simp) parts index, map_append,
    arguments]
  have others : (calls.map fun e => if e.index = some ((p - 1 : ℕ) : Int)
      then { e with arguments := e.arguments ++ b.json } else e) = calls := by
    conv_rhs => rw [← map_id calls]
    exact map_congr_left fun e member => if_neg (fresh e member)
  rw [others]
  simp

theorem length_blockCalls_known (start : b.start = .toolUse id name) (calls : List Call)
    (known : calls.any (·.index = some ((p - 1 : ℕ) : Int)) = true) :
    ((blockCalls p b).foldl addCall calls).length = calls.length := by
  obtain ⟨parts, same, index, -⟩ := blockCalls_tool start p
  rw [same, foldl_addCall_known known _ (forall_mem_cons.mpr ⟨rfl, index⟩), length_map]

theorem length_blockCalls_le (b : Block) (p : ℕ) (calls : List Call) :
    ((blockCalls p b).foldl addCall calls).length ≤
      calls.length + if b.start.isTool then 1 else 0 := by
  cases start : b.start with
  | toolUse id name =>
    by_cases known : calls.any (·.index = some ((p - 1 : ℕ) : Int)) = true
    · rw [length_blockCalls_known start calls known]
      exact Nat.le_add_right _ _
    · rw [foldl_blockCalls_fresh start (by simpa using known)]
      simp [BlockStart.isTool]
  | _ => simp [blockCalls_other (b := b) (by rw [start]; rfl), BlockStart.isTool]

theorem length_blocksCalls_le (bs : List Block) (p : ℕ) (calls : List Call) :
    ((blocksCalls p bs).foldl addCall calls).length ≤
      calls.length + bs.countP (·.start.isTool) := by
  induction bs generalizing p calls with
  | nil => simp [blocksCalls, blocksChunks]
  | cons b rest ih =>
    have head := length_blockCalls_le b p calls
    have tail := ih (p + 1) ((blockCalls p b).foldl addCall calls)
    rw [blocksCalls_cons, foldl_append, countP_cons]
    omega

def Below (p : ℕ) (calls : List Call) : Prop :=
  ∀ e ∈ calls, ∃ j : ℕ, e.index = some (j : Int) ∧ j < p - 1

theorem Below.fresh (below : Below p calls) :
    ∀ e ∈ calls, e.index ≠ some ((p - 1 : ℕ) : Int) := by
  intro e member same
  obtain ⟨j, index, less⟩ := below e member
  rw [index, Option.some.injEq, Nat.cast_inj] at same
  omega

theorem Below.next (below : Below p calls) : Below (p + 1) calls := by
  intro e member
  obtain ⟨j, index, less⟩ := below e member
  exact ⟨j, index, by omega⟩

def Block.call? (b : Block) : Option (String × String × String) :=
  match b.start with
  | .toolUse id name => some (id, name, b.json)
  | _ => none

theorem calls_of_below (bs : List Block) (later : 1 ≤ p) (below : Below p calls) :
    ((blocksCalls p bs).foldl addCall calls).map (·.content) =
      calls.map (·.content) ++ bs.filterMap (·.call?) := by
  induction bs generalizing p calls with
  | nil => simp [blocksCalls, blocksChunks]
  | cons b rest ih =>
    rw [blocksCalls_cons, foldl_append]
    cases start : b.start with
    | toolUse id name =>
      have below' : Below (p + 1) (calls ++ [⟨some ((p - 1 : ℕ) : Int), id, name, b.json⟩]) := by
        intro e member
        rcases mem_append.mp member with old | new
        · exact below.next e old
        · rw [mem_singleton.mp new]
          exact ⟨p - 1, rfl, by omega⟩
      rw [foldl_blockCalls_fresh start below.fresh, ih (by omega) below']
      simp [Block.call?, start, Call.content]
    | _ =>
      rw [blockCalls_other (by rw [start]; rfl), foldl_nil, ih (by omega) below.next]
      simp [Block.call?, start]

theorem Block.call?_isSome (b : Block) : b.call?.isSome = b.start.isTool := by
  cases start : b.start <;> simp [Block.call?, start, BlockStart.isTool]

theorem calls_shared (tool₀ : b₀.start.isTool = true) (tool₁ : b₁.start.isTool = true)
    (rest : List Block) :
    ((blocksCalls 0 (b₀ :: b₁ :: rest)).foldl addCall []).length ≤
      1 + rest.countP (·.start.isTool) := by
  obtain ⟨id, name, start₁⟩ : ∃ id name, b₁.start = .toolUse id name := by
    cases same : b₁.start <;> simp_all [BlockStart.isTool]
  obtain ⟨id', name', start₀⟩ : ∃ id name, b₀.start = .toolUse id name := by
    cases same : b₀.start <;> simp_all [BlockStart.isTool]
  rw [blocksCalls_cons, blocksCalls_cons, foldl_append, foldl_append,
    foldl_blockCalls_fresh start₀ (by simp)]
  have shared := length_blockCalls_known start₁ (p := 1)
    ([] ++ [⟨some ((0 - 1 : ℕ) : Int), id', name', b₀.json⟩]) (by simp)
  have tail := length_blocksCalls_le rest 2 ((blockCalls 1 b₁).foldl addCall
    ([] ++ [⟨some ((0 - 1 : ℕ) : Int), id', name', b₀.json⟩]))
  rw [shared] at tail
  exact tail

theorem calls_iff (bs : List Block) :
    ((blocksCalls 0 bs).foldl addCall []).map (·.content) = bs.filterMap (·.call?) ↔
      (bs.take 2).countP (·.start.isTool) ≤ 1 := by
  have none {p : ℕ} : Below p [] := by simp [Below]
  match bs with
  | [] => simp [blocksCalls, blocksChunks]
  | b₀ :: rest =>
    cases start : b₀.start with
    | toolUse id name =>
      have call : b₀.call? = some (id, name, b₀.json) := by simp [Block.call?, start]
      have first : b₀.start.isTool = true := by rw [start]; rfl
      match rest with
      | [] =>
        rw [blocksCalls_cons, foldl_append, foldl_blockCalls_fresh start (by simp)]
        simp [blocksCalls, blocksChunks, call, Call.content, first]
      | b₁ :: rest =>
        by_cases tool : b₁.start.isTool = true
        · refine iff_of_false (fun same => ?_) (by simp [first, tool])
          have shared := calls_shared first tool rest
          have length := congrArg length same
          rw [length_map, length_filterMap_eq_countP] at length
          simp only [Block.call?_isSome, countP_cons, first, tool, if_true] at length
          omega
        · rw [Bool.not_eq_true] at tool
          refine iff_of_true ?_ (by simp [first, tool])
          have other : b₁.call? = Option.none := by simpa [tool] using b₁.call?_isSome
          rw [blocksCalls_cons, blocksCalls_cons, foldl_append, foldl_append,
            foldl_blockCalls_fresh start (by simp), blockCalls_other tool, foldl_nil,
            calls_of_below rest (by omega) (by simp [Below])]
          simp [call, other, Call.content]
    | _ =>
      have other : b₀.start.isTool = false := by rw [start]; rfl
      have call : b₀.call? = Option.none := by simp [Block.call?, start]
      refine iff_of_true ?_ ?_
      · rw [blocksCalls_cons, foldl_append, blockCalls_other other, foldl_nil,
          calls_of_below rest (by omega) none]
        simp [call]
      · rw [take_succ_cons, countP_cons_of_neg (by simp [other])]
        exact countP_le_length.trans (length_take_le _ _)

theorem Block.json_unsigned (b : Block) : b.unsigned.json = b.json :=
  concat_unsigned Piece.json (by rintro ⟨⟩ <;> rfl) b

theorem Renders.call (renders : Renders lib b a) :
    b.unsigned.call? = a.call? lib := by
  have start : b.unsigned.start = b.start := rfl
  cases a with
  | text s =>
    obtain ⟨⟨first, same⟩, -⟩ := renders
    simp [Block.call?, start, same, AnswerBlock.call?]
  | thinking s => simp [Block.call?, start, renders.1, AnswerBlock.call?]
  | toolUse id name input =>
    simp [Block.call?, start, renders.1, Block.json_unsigned, renders.2, AnswerBlock.call?]

theorem filterMap_call (renders : List.Forall₂ (Renders lib) bs blocks) :
    (bs.map Block.unsigned).filterMap (·.call?) = blocks.filterMap (·.call? lib) := by
  induction renders with
  | nil => rfl
  | cons head tail ih => rw [map_cons, filterMap_cons, filterMap_cons, head.call, ih]

theorem countP_take (renders : List.Forall₂ (Renders lib) bs blocks) (n : ℕ) :
    ((bs.map Block.unsigned).take n).countP (·.start.isTool) =
      (blocks.take n).countP (·.isTool) := by
  induction renders generalizing n with
  | nil => simp
  | @cons b a _ _ head tail ih =>
    have same : b.unsigned.start.isTool = a.isTool := by
      rw [← Block.call?_isSome, head.call]
      cases a <;> rfl
    cases n with
    | zero => rfl
    | succ n => simp [countP_cons, ih n, same]

theorem foldedReply_iff {stream : List ClaudeResponse} (formed : WellFormed stream bs)
    (renders : List.Forall₂ (Renders lib) bs blocks) :
    ∃ chunks, convertStream (unsigned stream) = .ok chunks ∧
      (foldedReply chunks).content = concat (blocks.filterMap (·.text?)) ∧
      (foldedReply chunks).reasoning = concat (blocks.filterMap (·.thinking?)) ∧
      ((foldedReply chunks).toolCalls = blocks.filterMap (·.call? lib) ↔
        (blocks.take 2).countP (·.isTool) ≤ 1) := by
  obtain ⟨first, last, converts, said, thought, calls, empty⟩ := formed.unsigned.converts
  refine ⟨_, converts, ?_, ?_, ?_⟩
  · have inner := concat_blocksChunks (·.text?)
      (fun p b a one => (content_blockChunks p b).trans one.said) renders 0
    simp [foldedReply, said, empty, inner]
  · have inner := concat_blocksChunks (·.thinking?)
      (fun p b a one => (reasoning_blockChunks p b).trans one.thought) renders 0
    simp [foldedReply, thought, empty, inner]
  · have inner := calls_iff (bs.map Block.unsigned)
    rw [filterMap_call renders, countP_take renders] at inner
    rw [← inner]
    simp [foldedReply, calls, empty, blocksCalls]

/-- The message of a whole answer carries all its blocks, as a client collects them from the
stream, if and only if only the last text and the last thinking are not empty and the first two
blocks are not both tools. -/
theorem answer_carries_all_iff (lib : Libraries) (blocks : List AnswerBlock) (r : ClaudeResponse)
    (content : r.content = blocks.map (·.media)) (stream : List ClaudeResponse) (bs : List Block)
    (formed : WellFormed stream bs) (renders : List.Forall₂ (Renders lib) bs blocks) :
    ((responseClaude2OpenAI lib r).reply = wholeReply lib blocks ∧
      ∃ chunks, convertStream (unsigned stream) = .ok chunks ∧
        foldedReply chunks = (responseClaude2OpenAI lib r).reply) ↔
      LastOnly (blocks.filterMap (·.text?)) ∧ LastOnly (blocks.filterMap (·.thinking?)) ∧
        (blocks.take 2).countP (·.isTool) ≤ 1 := by
  obtain ⟨chunks, converts, said, thought, calls⟩ := foldedReply_iff formed renders
  rw [← and_assoc, ← reply_eq_whole_iff lib blocks r content, ← calls]
  refine and_congr_right fun whole => ?_
  rw [whole, converts]
  constructor
  · rintro ⟨_, ⟨rfl⟩, same⟩
    rw [same, wholeReply]
  · intro same
    refine ⟨chunks, rfl, ?_⟩
    rw [wholeReply, ← said, ← thought, ← same]

def exampleThought : Block where
  start := .thinking
  pieces := [.thinking "A ", .thinking "city", .signature "c2ln"]
  fits := by simp [BlockStart.takes]

def exampleAnswer (blocks : List AnswerBlock) : ClaudeResponse where
  type := "message"
  content := blocks.map (·.media)

/-- Of two texts, the message has the second one only. -/
theorem answer_drops_text :
    (responseClaude2OpenAI emptyObjects (exampleAnswer [.text "Hello", .text " world"])).content =
        " world" ∧
      (wholeReply emptyObjects [.text "Hello", .text " world"]).content = "Hello world" := by
  decide

/-- A thought, a text and a tool call. -/
theorem answer_carries_all_iff_call :
    ∃ chunks, convertStream (unsigned (exampleStream [exampleThought, exampleText, emptyCall])) =
        .ok chunks ∧
      foldedReply chunks = (responseClaude2OpenAI emptyObjects (exampleAnswer
        [.thinking "A city", .text "Let me see.",
          .toolUse "toolu_2" "weather" (.obj [])])).reply := by
  have renders : List.Forall₂ (Renders emptyObjects) [exampleThought, exampleText, emptyCall]
      [.thinking "A city", .text "Let me see.", .toolUse "toolu_2" "weather" (.obj [])] :=
    .cons ⟨rfl, by decide⟩ (.cons ⟨⟨_, rfl⟩, by decide⟩ (.cons ⟨rfl, by decide⟩ .nil))
  exact ((answer_carries_all_iff emptyObjects _ (exampleAnswer _) rfl _ _
    (exampleStream_wellFormed _) renders).mpr ⟨by simp [LastOnly, AnswerBlock.text?],
      by simp [LastOnly, AnswerBlock.thinking?], by decide⟩).2

end EastApi.Convert
