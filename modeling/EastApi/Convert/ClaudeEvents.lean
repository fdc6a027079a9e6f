import EastApi.ClaudeStream.Convert
import EastApi.Convert.Dto

/-! `StreamResponseClaude2OpenAI`: one event of a stream of the Claude format becomes at most one
chunk of the OpenAI format.  There is no state: the index of a tool call is computed from the
position of its block among all blocks, and not among the tool calls. -/

namespace EastApi.Convert

open Go
open List hiding concat_cons concat_nil
open ClaudeStream (ToolCallResponse)

structure ClaudeResponse where
  id : String := ""
  type : String
  content : List ClaudeMediaMessage := []
  stopReason : String := ""
  model : String := ""
  index : Option Int := none
  contentBlock : Option ClaudeMediaMessage := none
  delta : Option ClaudeMediaMessage := none
  message : Option ClaudeMediaMessage := none

structure StreamDelta where
  role : String := ""
  content : Option String := none
  reasoningContent : Option String := none
  toolCalls : List ToolCallResponse := []

structure StreamResponse where
  id : String := ""
  model : String
  delta : StreamDelta := {}
  finishReason : Option String := none

def stopReasonClaude2OpenAI (reason : String) : String :=
  match toLower reason with
  | "stop_sequence" => "stop"
  | "end_turn" => "stop"
  | "max_tokens" => "length"
  | "tool_use" => "tool_calls"
  | "refusal" => "content_filter"
  | _ => reason

/-- The index of a tool call: one less than that of its block, at least 0. -/
def callIndex : Option Int → Int
  | none => 0
  | some index => max (index - 1) 0

def callChunk (model : String) (call : ToolCallResponse) : StreamResponse :=
  { model, delta := { toolCalls := [call] } }

def streamResponseClaude2OpenAI (r : ClaudeResponse) :
    Result ConvertError (Option StreamResponse) :=
  let fcIdx := callIndex r.index
  match r.type with
  | "message_start" =>
    .ok (some
      { id := (r.message.map (·.id)).getD "", model := (r.message.map (·.model)).getD r.model
        delta := { role := "assistant", content := some "" } })
  | "content_block_start" =>
    match r.contentBlock with
    | none => .ok none
    | some block =>
      if block.type = "tool_use" then
        .ok (some (callChunk r.model ⟨some fcIdx, block.id, block.name, ""⟩))
      else if block.type = "text" then
        .ok (some { model := r.model, delta := { content := block.text } })
      else .ok (some { model := r.model })
  | "content_block_delta" =>
    match r.delta with
    | none => .ok (some { model := r.model })
    | some delta =>
      match delta.type with
      | "input_json_delta" => do
        let json ← .ofOption delta.partialJson
        return some (callChunk r.model ⟨some fcIdx, "", "", json⟩)
      | "signature_delta" =>
        .ok (some { model := r.model
                    delta := { content := delta.text, reasoningContent := some "\n" } })
      | "thinking_delta" =>
        .ok (some { model := r.model
                    delta := { content := delta.text, reasoningContent := delta.thinking } })
      | _ => .ok (some { model := r.model, delta := { content := delta.text } })
  | "message_delta" =>
    let finishReason := (r.delta.bind (·.stopReason)).map stopReasonClaude2OpenAI
    .ok (some { model := r.model, finishReason := finishReason.filter (· ≠ "null") })
  | _ => .ok none

/-- The chunks of the events, one after the other. -/
def convertStream : List ClaudeResponse → Result ConvertError (List StreamResponse)
  | [] => .ok []
  | event :: rest => do
    let chunk ← streamResponseClaude2OpenAI event
    return chunk.toList ++ (← convertStream rest)

/-- The kinds of blocks, as they are started. -/
inductive BlockStart
  | text (first : String)
  | thinking
  | toolUse (id name : String)
deriving DecidableEq

inductive Piece
  | text (s : String)
  | thinking (s : String)
  | signature (s : String)
  | inputJson (s : String)
deriving DecidableEq

def BlockStart.takes : BlockStart → Piece → Bool
  | .text _, .text _ => true
  | .thinking, .thinking _ | .thinking, .signature _ => true
  | .toolUse _ _, .inputJson _ => true
  | _, _ => false

/-- A block of a stream, all of whose pieces are of its kind. -/
structure Block where
  start : BlockStart
  pieces : List Piece
  fits : ∀ piece ∈ pieces, start.takes piece = true

def BlockStart.isTool : BlockStart → Bool
  | .toolUse _ _ => true
  | _ => false

def Piece.json : Piece → String
  | .inputJson s => s
  | _ => ""

def Block.json (b : Block) : String := concat (b.pieces.map Piece.json)

def BlockStart.media : BlockStart → ClaudeMediaMessage
  | .text first => { type := "text", text := some first }
  | .thinking => { type := "thinking", thinking := some "" }
  | .toolUse id name => { type := "tool_use", id, name }

def Piece.media : Piece → ClaudeMediaMessage
  | .text s => { type := "text_delta", text := some s }
  | .thinking s => { type := "thinking_delta", thinking := some s }
  | .signature s => { type := "signature_delta", signature := s }
  | .inputJson s => { type := "input_json_delta", partialJson := some s }

def startEvent (p : ℕ) (start : BlockStart) : ClaudeResponse :=
  { type := "content_block_start", index := some p, contentBlock := some start.media }

def pieceEvent (p : ℕ) (piece : Piece) : ClaudeResponse :=
  { type := "content_block_delta", index := some p, delta := some piece.media }

def stopEvent (p : ℕ) : ClaudeResponse := { type := "content_block_stop", index := some p }

/-- The events of a block at the position `p`. -/
def blockEvents (p : ℕ) (b : Block) : List ClaudeResponse :=
  startEvent p b.start :: b.pieces.map (pieceEvent p) ++ [stopEvent p]

def blocksEvents : ℕ → List Block → List ClaudeResponse
  | _, [] => []
  | p, b :: rest => blockEvents p b ++ blocksEvents (p + 1) rest

/-- A stream is well formed if without its pings it consists of the start of a message, its blocks
in order, and its end. -/
structure WellFormed (stream : List ClaudeResponse) (blocks : List Block) : Prop where
  events : ∃ message last, last.type = "message_delta" ∧
    stream.filter (·.type ≠ "ping") =
      { type := "message_start", message := some message } :: blocksEvents 0 blocks ++
        [last, { type := "message_stop" }]

def startChunk (p : ℕ) : BlockStart → StreamResponse
  | .text first => { model := "", delta := { content := some first } }
  | .thinking => { model := "" }
  | .toolUse id name => callChunk "" ⟨some ((p - 1 : ℕ) : Int), id, name, ""⟩

def pieceChunk (p : ℕ) : Piece → StreamResponse
  | .text s => { model := "", delta := { content := some s } }
  | .thinking s => { model := "", delta := { reasoningContent := some s } }
  | .signature _ => { model := "", delta := { reasoningContent := some "\n" } }
  | .inputJson s => callChunk "" ⟨some ((p - 1 : ℕ) : Int), "", "", s⟩

/-- The chunks that they become. -/
def blockChunks (p : ℕ) (b : Block) : List StreamResponse :=
  startChunk p b.start :: b.pieces.map (pieceChunk p)

def blocksChunks : ℕ → List Block → List StreamResponse
  | _, [] => []
  | p, b :: rest => blockChunks p b ++ blocksChunks (p + 1) rest

theorem callIndex_position (p : ℕ) : callIndex (some (p : Int)) = ((p - 1 : ℕ) : Int) := by
  simp only [callIndex]
  omega

theorem convert_startEvent (p : ℕ) (start : BlockStart) :
    streamResponseClaude2OpenAI (startEvent p start) = .ok (some (startChunk p start)) := by
  cases start with
  | text first => rfl
  | thinking => rfl
  | toolUse id name =>
    simp [streamResponseClaude2OpenAI, startEvent, BlockStart.media, callIndex_position, startChunk]

theorem convert_pieceEvent (p : ℕ) (piece : Piece) :
    streamResponseClaude2OpenAI (pieceEvent p piece) = .ok (some (pieceChunk p piece)) := by
  cases piece with
  | inputJson s =>
    simp [streamResponseClaude2OpenAI, pieceEvent, Piece.media, callIndex_position, pieceChunk,
      Result.ofOption]
  | _ => rfl

theorem convertStream_cons {chunk : Option StreamResponse}
    (head : streamResponseClaude2OpenAI event = .ok chunk)
    (tail : convertStream rest = .ok chunks) :
    convertStream (event :: rest) = .ok (chunk.toList ++ chunks) := by
  simp [convertStream, head, tail]

theorem convertStream_append (head : convertStream first = .ok one)
    (tail : convertStream rest = .ok two) : convertStream (first ++ rest) = .ok (one ++ two) := by
  induction first generalizing one with
  | nil =>
    cases head
    exact tail
  | cons event first ih =>
    obtain ⟨chunk, converted, others⟩ := Result.bind_ok_iff.mp head
    obtain ⟨chunks, converts, same⟩ := Result.bind_ok_iff.mp others
    cases same
    rw [cons_append, append_assoc]
    exact convertStream_cons converted (ih converts)

theorem convertStream_blockEvents (p : ℕ) (b : Block) :
    convertStream (blockEvents p b) = .ok (blockChunks p b) := by
  have pieces :
      convertStream (b.pieces.map (pieceEvent p)) = .ok (b.pieces.map (pieceChunk p)) := by
    induction b.pieces with
    | nil => rfl
    | cons piece rest ih => exact convertStream_cons (convert_pieceEvent p piece) ih
  have stop : convertStream [stopEvent p] = .ok [] := rfl
  have all := convertStream_append (convertStream_cons (convert_startEvent p b.start) pieces) stop
  rw [append_nil] at all
  exact all

theorem convertStream_blocksEvents (p : ℕ) (blocks : List Block) :
    convertStream (blocksEvents p blocks) = .ok (blocksChunks p blocks) := by
  induction blocks generalizing p with
  | nil => rfl
  | cons b rest ih => exact convertStream_append (convertStream_blockEvents p b) (ih (p + 1))

theorem convertStream_filter (stream : List ClaudeResponse) :
    convertStream (stream.filter (·.type ≠ "ping")) = convertStream stream := by
  induction stream with
  | nil => rfl
  | cons event rest ih =>
    rw [filter_cons]
    split
    · rw [convertStream, convertStream, ih]
    next ping =>
      have none : streamResponseClaude2OpenAI event = .ok none := by
        have same : event.type = "ping" := by simpa using ping
        simp [streamResponseClaude2OpenAI, same]
      rw [ih, convertStream, none]
      cases convertStream rest <;> rfl

theorem WellFormed.converts (h : WellFormed stream blocks) :
    ∃ first last : StreamResponse,
      convertStream stream = .ok (first :: blocksChunks 0 blocks ++ [last]) ∧
      first.delta.content = some "" ∧ first.delta.reasoningContent = none ∧
      first.delta.toolCalls = [] ∧ last.delta = {} := by
  obtain ⟨message, last, delta, same⟩ := h.events
  have start : streamResponseClaude2OpenAI { type := "message_start", message := some message } =
    .ok (some { id := message.id, model := message.model
                delta := { role := "assistant", content := some "" } }) := rfl
  have ends : ∃ chunk : StreamResponse, streamResponseClaude2OpenAI last = .ok (some chunk) ∧
      chunk.delta = {} := by
    simp only [streamResponseClaude2OpenAI, delta]
    exact ⟨_, rfl, rfl⟩
  obtain ⟨chunk, ends, empty⟩ := ends
  have tail : convertStream [last, { type := "message_stop" }] = .ok [chunk] :=
    convertStream_cons ends rfl
  have all := convertStream_cons start
    (convertStream_append (convertStream_blocksEvents 0 blocks) tail)
  rw [← cons_append, ← same, convertStream_filter] at all
  exact ⟨_, chunk, all, rfl, rfl, rfl, empty⟩

/-- How many tool calls stand before the position `p`. -/
def ordinal (blocks : List Block) (p : ℕ) : ℕ := (blocks.take p).countP (·.start.isTool)

/-- The block at the position `p` is a tool call, sent under its number: in the chunk of its start
and in all chunks of its arguments. -/
def SentAs (k p : ℕ) (b : Block) : Prop :=
  ∀ id name, b.start = .toolUse id name →
    streamResponseClaude2OpenAI (startEvent p b.start) =
        .ok (some (callChunk "" ⟨some k, id, name, ""⟩)) ∧
      ∀ s, .inputJson s ∈ b.pieces → streamResponseClaude2OpenAI (pieceEvent p (.inputJson s)) =
        .ok (some (callChunk "" ⟨some k, "", "", s⟩))

def StreamResponse.arguments (k : Int) (chunk : StreamResponse) : String :=
  concat ((chunk.delta.toolCalls.filter fun call => call.index = some k).map (·.arguments))

/-- The arguments that a client puts together for the index `k`. -/
def argumentsAt (k : Int) (chunks : List StreamResponse) : String :=
  concat (chunks.map (·.arguments k))

/-- Tool calls stand at the positions 1, 2, 3 and so on; the first of them may also stand at 0. -/
def Placed (blocks : List Block) : Prop :=
  ∀ p b, blocks[p]? = some b → b.start.isTool = true → p = 0 ∨ p = ordinal blocks p + 1

theorem sentAs_iff (k p : ℕ) (b : Block) :
    SentAs k p b ↔ (b.start.isTool = true → p - 1 = k) := by
  unfold SentAs
  cases start : b.start with
  | text _ | thinking => simp [BlockStart.isTool]
  | toolUse id name =>
    simp only [convert_startEvent, convert_pieceEvent, startChunk, pieceChunk, callChunk,
      BlockStart.isTool, true_imp_iff]
    constructor
    · intro h
      simpa using (h id name rfl).1
    · rintro rfl id' name' ⟨⟩
      exact ⟨rfl, fun _ _ => rfl⟩

theorem Block.json_eq_empty {b : Block} (other : b.start.isTool = false) : b.json = "" := by
  rw [Block.json, concat_eq_empty]
  intro s member
  obtain ⟨piece, inside, rfl⟩ := mem_map.mp member
  have fits := b.fits piece inside
  cases start : b.start with
  | toolUse id name =>
    rw [start] at other
    cases other
  | text _ | thinking => cases piece <;> simp_all [BlockStart.takes, Piece.json]

@[simp] theorem arguments_startChunk (k : Int) (p : ℕ) (start : BlockStart) :
    (startChunk p start).arguments k = "" := by
  cases start with
  | text first => rfl
  | thinking => rfl
  | toolUse id name =>
    simp only [StreamResponse.arguments, startChunk, callChunk, filter_cons, filter_nil]
    split <;> rfl

@[simp] theorem arguments_pieceChunk (k p : ℕ) (piece : Piece) :
    (pieceChunk p piece).arguments k = if p - 1 = k then piece.json else "" := by
  cases piece with
  | inputJson s =>
    simp only [StreamResponse.arguments, pieceChunk, callChunk, filter_cons, filter_nil,
      Option.some.injEq, Nat.cast_inj, decide_eq_true_eq, Piece.json]
    split <;> simp
  | _ => simp [StreamResponse.arguments, pieceChunk, Piece.json]

theorem argumentsAt_blockChunks (k p : ℕ) (b : Block) :
    argumentsAt k (blockChunks p b) = if p - 1 = k then b.json else "" := by
  have pieces : (b.pieces.map (pieceChunk p)).map (·.arguments k) =
      b.pieces.map fun piece => if p - 1 = k then piece.json else "" := by
    simp
  rw [argumentsAt, blockChunks, map_cons, concat_cons, arguments_startChunk, pieces]
  split
  · simp [Block.json]
  · simp [concat_eq_empty]

theorem blocksChunks_append (p : ℕ) (one two : List Block) :
    blocksChunks p (one ++ two) = blocksChunks p one ++ blocksChunks (p + one.length) two := by
  induction one generalizing p with
  | nil => simp [blocksChunks]
  | cons b rest ih =>
    rw [cons_append, blocksChunks, blocksChunks, ih, length_cons, append_assoc,
      show p + 1 + rest.length = p + (rest.length + 1) by omega]

theorem argumentsAt_append (k : Int) (one two : List StreamResponse) :
    argumentsAt k (one ++ two) = argumentsAt k one ++ argumentsAt k two := by
  simp [argumentsAt]

theorem argumentsAt_eq_empty (k p : ℕ) (blocks : List Block)
    (other : ∀ i b, blocks[i]? = some b → b.start.isTool = true → p + i - 1 ≠ k) :
    argumentsAt k (blocksChunks p blocks) = "" := by
  induction blocks generalizing p with
  | nil => rfl
  | cons b rest ih =>
    have head : argumentsAt k (blockChunks p b) = "" := by
      rw [argumentsAt_blockChunks]
      split
      next same =>
        refine Block.json_eq_empty (Bool.eq_false_iff.mpr fun tool => ?_)
        exact other 0 b rfl tool same
      · rfl
    have tail := ih (p + 1) fun i b' found tool => by
      have := other (i + 1) b' found tool
      omega
    rw [blocksChunks, argumentsAt_append, head, tail]
    rfl

theorem ordinal_lt (found : blocks[i]? = some b) (tool : b.start.isTool = true) (before : i < j) :
    ordinal blocks i < ordinal blocks j := by
  have next : ordinal blocks (i + 1) = ordinal blocks i + 1 := by
    simp [ordinal, take_add_one, found, tool]
  have later : ordinal blocks (i + 1) ≤ ordinal blocks j :=
    (take_sublist_take_left (by omega)).countP_le
  omega

theorem position_iff (blocks : List Block) (p : ℕ) :
    p - 1 = ordinal blocks p ↔ p = 0 ∨ p = ordinal blocks p + 1 := by
  constructor
  · omega
  · rintro (rfl | above)
    · simp [ordinal]
    · omega

theorem Placed.index_ne (placed : Placed blocks) (found : blocks[p]? = some b)
    (tool : b.start.isTool = true) (found' : blocks[q]? = some b')
    (tool' : b'.start.isTool = true) (other : q ≠ p) : q - 1 ≠ ordinal blocks p := by
  rw [(position_iff blocks q).mpr (placed q b' found' tool')]
  rcases Nat.lt_or_gt_of_ne other with before | after
  · exact (ordinal_lt found' tool' before).ne
  · exact (ordinal_lt found tool after).ne'

theorem Placed.arguments (placed : Placed blocks) (found : blocks[p]? = some b)
    (tool : b.start.isTool = true) :
    argumentsAt (ordinal blocks p) (blocksChunks 0 blocks) = b.json := by
  obtain ⟨short, rfl⟩ := List.getElem?_eq_some_iff.mp found
  have split : blocks = blocks.take p ++ blocks[p] :: blocks.drop (p + 1) := by simp
  have size : (blocks.take p).length = p := by simp; omega
  have own := argumentsAt_blockChunks (ordinal blocks p) p blocks[p]
  have index : p - 1 = ordinal blocks p := (position_iff blocks p).mpr (placed p _ found tool)
  have before : argumentsAt (ordinal blocks p) (blocksChunks 0 (blocks.take p)) = "" := by
    refine argumentsAt_eq_empty _ _ _ fun i b' found' tool' => ?_
    rw [getElem?_take] at found'
    split at found'
    · rw [Nat.zero_add]
      exact placed.index_ne found tool found' tool' (by omega)
    · cases found'
  have after :
      argumentsAt (ordinal blocks p) (blocksChunks (p + 1) (blocks.drop (p + 1))) = "" := by
    refine argumentsAt_eq_empty _ _ _ fun i b' found' tool' => ?_
    rw [getElem?_drop] at found'
    exact placed.index_ne found tool found' tool' (by omega)
  rw [if_pos index] at own
  nth_rewrite 2 [split]
  rw [blocksChunks_append, argumentsAt_append, blocksChunks, argumentsAt_append, size,
    Nat.zero_add, before, own, after]
  simp

/-- In every well-formed stream of blocks of any kinds, each tool call is sent under its number
exactly if the tool calls are at the positions that `Placed` says; then the numbers are distinct,
and the arguments with the number of a tool call are its input. -/
theorem tool_calls_identified_iff {stream : List ClaudeResponse} {blocks : List Block}
    (wellFormed : WellFormed stream blocks) :
    ∃ chunks, convertStream stream = .ok chunks ∧
      ((∀ p b, blocks[p]? = some b → SentAs (ordinal blocks p) p b) ↔ Placed blocks) ∧
      (Placed blocks → ∀ p b, blocks[p]? = some b → b.start.isTool = true →
        argumentsAt (ordinal blocks p) chunks = b.json ∧
          ∀ q b', blocks[q]? = some b' → b'.start.isTool = true → q ≠ p →
            ordinal blocks q ≠ ordinal blocks p) := by
  obtain ⟨first, last, converts, -, -, none, empty⟩ := wellFormed.converts
  refine ⟨_, converts, ?_, fun placed p b found tool => ⟨?_, fun q b' found' tool' other => ?_⟩⟩
  · simp only [sentAs_iff, position_iff]
    exact Iff.rfl
  · have silent : ∀ chunk : StreamResponse, chunk.delta.toolCalls = [] →
        argumentsAt (ordinal blocks p) [chunk] = "" := by
      intro chunk quiet
      simp [argumentsAt, StreamResponse.arguments, quiet]
    rw [← singleton_append, argumentsAt_append, argumentsAt_append, silent first none,
      silent last (by rw [empty]), placed.arguments found tool]
    simp
  · have own := (position_iff blocks q).mpr (placed q b' found' tool')
    have := placed.index_ne found tool found' tool' other
    omega

def exampleCall (id : String) (one two : String) : Block where
  start := .toolUse id "weather"
  pieces := [.inputJson one, .inputJson two]
  fits := by simp [BlockStart.takes]

def osloCall : Block := exampleCall "toolu_1" "\x7b\"city\":" "\"Oslo\"\x7d"

def emptyCall : Block := exampleCall "toolu_2" "\x7b" "\x7d"

def exampleText : Block where
  start := .text "Let me see"
  pieces := [.text "."]
  fits := by simp [BlockStart.takes]

def exampleStream (blocks : List Block) : List ClaudeResponse :=
  [{ type := "message_start", message := some {} }, { type := "ping" }] ++ blocksEvents 0 blocks ++
    [{ type := "message_delta" }, { type := "message_stop" }]

theorem blocksEvents_ne_ping (p : ℕ) (blocks : List Block) :
    ∀ event ∈ blocksEvents p blocks, event.type ≠ "ping" := by
  induction blocks generalizing p with
  | nil => simp [blocksEvents]
  | cons b rest ih =>
    simp only [blocksEvents, blockEvents, forall_mem_append, forall_mem_cons,
      forall_mem_map]
    refine ⟨⟨⟨by simp [startEvent], fun piece _ => by simp [pieceEvent]⟩, by simp [stopEvent]⟩,
      ih (p + 1)⟩

theorem exampleStream_wellFormed (blocks : List Block) :
    WellFormed (exampleStream blocks) blocks := by
  refine ⟨{}, { type := "message_delta" }, rfl, ?_⟩
  have kept : (blocksEvents 0 blocks).filter (·.type ≠ "ping") = blocksEvents 0 blocks :=
    filter_eq_self.mpr fun event member => by
      simpa using blocksEvents_ne_ping 0 blocks event member
  simp only [exampleStream, filter_append, kept]
  rfl

/-- Two tool calls without a text before them are both sent with the index 0: the arguments of
that index are the inputs of both. -/
theorem tool_calls_collide :
    WellFormed (exampleStream [osloCall, emptyCall]) [osloCall, emptyCall] ∧
      ∃ chunks, convertStream (exampleStream [osloCall, emptyCall]) = .ok chunks ∧
        chunks.flatMap (·.delta.toolCalls.map (·.index)) = List.replicate 6 (some 0) ∧
        argumentsAt 0 chunks = osloCall.json ++ emptyCall.json ∧ argumentsAt 1 chunks = "" :=
  ⟨exampleStream_wellFormed _, _, rfl, by decide, by decide, by decide⟩

/-- A text and two tool calls. -/
theorem tool_calls_identified_iff_after_text :
    Placed [exampleText, osloCall, emptyCall] ∧
      ∃ chunks, convertStream (exampleStream [exampleText, osloCall, emptyCall]) = .ok chunks ∧
        argumentsAt 0 chunks = osloCall.json ∧ argumentsAt 1 chunks = emptyCall.json := by
  have placed : Placed [exampleText, osloCall, emptyCall] := by
    intro p b found tool
    match p, found with
    | 0, _ => exact .inl rfl
    | 1, _ => exact .inr rfl
    | 2, _ => exact .inr rfl
  obtain ⟨chunks, converts, -, sent⟩ := tool_calls_identified_iff (exampleStream_wellFormed _)
  exact ⟨placed, chunks, converts, (sent placed 1 _ rfl rfl).1, (sent placed 2 _ rfl rfl).1⟩

end EastApi.Convert
