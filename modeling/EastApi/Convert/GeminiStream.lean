import EastApi.Convert.GeminiAnswer
import Mathlib.Logic.Function.Basic

/-! `GeminiChatStreamHandler`: a Gemini stream as chunks of the OpenAI format.  All texts of a
candidate go to one delta, and only a call in the first chunk is remembered. -/

namespace EastApi.Convert.Gemini

open Go List Function
open ClaudeStream (ToolCallResponse)

structure StreamChoice where
  index : Int := 0
  role : String := ""
  content : Option String := none
  reasoningContent : Option String := none
  toolCalls : List ToolCallResponse := []
  finishReason : Option String := none

structure Streamed where
  texts : List String := []
  toolCalls : List ToolCallResponse := []
  isTools : Bool := false
  isThought : Bool := false

/-- One part of a chunk. -/
def streamPart (lib : Libraries) (s : Streamed) (part : Part) : Streamed :=
  match part.inlineData, part.functionCall with
  | some data, _ =>
    if hasPrefix data.mimeType "image" then { s with texts := s.texts ++ [imageText data] } else s
  | none, some call =>
    { s with
      isTools := true
      toolCalls := s.toolCalls ++
        [{ getResponseToolCall lib call part.uuid with index := some s.toolCalls.length }] }
  | none, none =>
    if part.thought then { s with isThought := true, texts := s.texts ++ [part.text] }
    else { s with texts := s.texts ++ plainTexts part "\n" }

def Candidate.stops (candidate : Candidate) : Bool := candidate.finishReason = some "STOP"

/-- All texts of a candidate go to one place, the reasoning or the content. -/
def streamCandidate (lib : Libraries) (candidate : Candidate) : StreamChoice :=
  let parts := candidate.parts.foldl (streamPart lib) {}
  let delta := some (join '\n' parts.texts)
  let reason := candidate.finishReason.filter (· ≠ "STOP")
  { index := candidate.index
    content := if parts.isThought then none else delta
    reasoningContent := if parts.isThought then delta else none
    toolCalls := parts.toolCalls
    finishReason := if parts.isTools then some "tool_calls" else reason.map openAIFinishReason }

def streamResponseGeminiChat2OpenAI (lib : Libraries) (candidates : List Candidate) :
    List StreamChoice × Bool :=
  (candidates.map (streamCandidate lib), candidates.any (·.stops))

def Part.isText (part : Part) : Bool :=
  part.inlineData.isNone && part.functionCall.isNone && part.executableCode.isNone &&
    part.codeExecutionResult.isNone

def Candidate.spoken (candidate : Candidate) : List String :=
  ((candidate.parts.filter (!·.thought)).map (·.text)).filter (· ≠ "\n")

/-- The text is made of these, joined by lines, but for empty ones. -/
def Made (texts : List String) (delta : Option String) : Prop :=
  ∃ pieces, delta.getD "" = join '\n' pieces ∧ pieces.filter (· ≠ "") = texts.filter (· ≠ "")

/-- Thoughts are in the reasoning and the other texts in the content. -/
structure KeptApart (candidate : Candidate) (choice : StreamChoice) : Prop where
  index : choice.index = candidate.index
  reasoning : Made candidate.thoughts choice.reasoningContent
  content : Made candidate.spoken choice.content

theorem foldl_streamPart_text (lib : Libraries) (parts : List Part) (s : Streamed)
    (text : ∀ part ∈ parts, part.isText = true) :
    (parts.foldl (streamPart lib) s).texts =
        s.texts ++ (parts.filter fun p => p.thought || p.text ≠ "\n").map (·.text) ∧
      (parts.foldl (streamPart lib) s).isThought =
        (s.isThought || (parts.filter (·.thinks)).map (·.text) ≠ []) := by
  induction parts generalizing s with
  | nil => simp
  | cons part rest ih =>
    obtain ⟨mine, others⟩ := forall_mem_cons.mp text
    obtain ⟨texts, thought⟩ := ih (streamPart lib s part) others
    rw [foldl_cons, texts, thought]
    simp only [Part.isText, Bool.and_eq_true, Option.isNone_iff_eq_none] at mine
    obtain ⟨⟨⟨data, call⟩, code⟩, output⟩ := mine
    cases thought : part.thought
    · by_cases line : part.text = "\n" <;>
        simp [streamPart, plainTexts, Part.thinks, *]
    · simp [streamPart, Part.thinks, *]

theorem keptApart_iff (text : ∀ part ∈ candidate.parts, part.isText = true) :
    KeptApart candidate (streamCandidate lib candidate) ↔
      candidate.thoughts = [] ∨ ∀ text ∈ candidate.spoken, text = "" := by
  obtain ⟨texts, thought⟩ := foldl_streamPart_text lib candidate.parts {} text
  rw [Bool.false_or, ← Candidate.thoughts] at thought
  set all := (candidate.parts.filter fun p => p.thought || p.text ≠ "\n").map (·.text)
  have thoughts : candidate.thoughts = (candidate.parts.filter (·.thought)).map (·.text) := by
    refine congrArg _ (filter_congr fun part member => ?_)
    have mine := text part member
    simp only [Part.isText, Bool.and_eq_true] at mine
    simp [Part.thinks, mine]
  have content : (streamCandidate lib candidate).content =
      if candidate.thoughts = [] then some (join '\n' all) else none := by
    simp [streamCandidate, thought, texts]
  have reasoning : (streamCandidate lib candidate).reasoningContent =
      if candidate.thoughts = [] then none else some (join '\n' all) := by
    simp [streamCandidate, thought, texts]
  by_cases silent : candidate.thoughts = []
  · rw [if_pos silent] at content reasoning
    have spoken : candidate.spoken = all := by
      have plain : ∀ part ∈ candidate.parts, part.thought = false := by
        simpa [thoughts] using silent
      rw [Candidate.spoken, filter_map, filter_filter]
      exact congrArg _ (filter_congr fun part member => by simp [plain part member])
    exact iff_of_true ⟨rfl, ⟨[], by rw [reasoning]; rfl, by rw [silent]⟩,
      all, by rw [content]; rfl, by rw [spoken]⟩ (.inl silent)
  · rw [if_neg silent] at content reasoning
    have quiet : candidate.spoken.filter (· ≠ "") = [] ↔ ∀ text ∈ candidate.spoken, text = "" := by
      simp
    refine ⟨fun apart => .inr (quiet.mp ?_), fun done => ⟨rfl, ⟨all, by rw [reasoning]; rfl, ?_⟩,
      [], by rw [content]; rfl, (quiet.mpr (done.resolve_left silent)).symm⟩⟩
    · obtain ⟨pieces, same, own⟩ := apart.content
      rw [content] at same
      rw [← own, filter_eq_nil_iff]
      simpa using eq_empty_of_join_eq_empty same.symm
    · rw [thoughts, filter_map, filter_map, filter_filter, filter_filter]
      refine congrArg _ (filter_congr fun part member => ?_)
      cases plain : part.thought with
      | true => simp
      | false =>
        have none := done.resolve_left silent part.text
        simp only [Candidate.spoken, mem_filter, mem_map] at none
        by_cases line : part.text = "\n"
        · simp [line]
        · simp [none ⟨⟨part, ⟨member, by simp [plain]⟩, rfl⟩, by simp [line]⟩]

/-- The texts of thoughts and the other ones are kept apart if and only if no candidate has both, in
one chunk. -/
theorem thoughts_apart_iff (lib : Libraries) (chunks : List (List Candidate))
    (text : ∀ chunk ∈ chunks, ∀ c ∈ chunk, ∀ part ∈ c.parts, part.isText = true) :
    (∀ chunk ∈ chunks,
        List.Forall₂ KeptApart chunk (streamResponseGeminiChat2OpenAI lib chunk).1) ↔
      ∀ chunk ∈ chunks, ∀ c ∈ chunk, c.thoughts = [] ∨ ∀ text ∈ c.spoken, text = "" := by
  refine forall₂_congr fun chunk member => ?_
  rw [streamResponseGeminiChat2OpenAI, forall₂_map_right_iff, forall₂_same]
  exact forall₂_congr fun c own => keptApart_iff (text chunk member c own)

def thoughtChunk : List Candidate := [{ parts := [{ thought := true, text := "A" }] }]

def spokenChunk : List Candidate := [{ parts := [{ text := "B" }] }]

theorem thoughts_apart_iff_two :
    List.Forall₂ KeptApart thoughtChunk
        (streamResponseGeminiChat2OpenAI emptyObjects thoughtChunk).1 ∧
      List.Forall₂ KeptApart spokenChunk
        (streamResponseGeminiChat2OpenAI emptyObjects spokenChunk).1 := by
  have all := (thoughts_apart_iff emptyObjects [thoughtChunk, spokenChunk] (by decide)).mpr
    (by decide)
  exact ⟨all _ (by simp), all _ (by simp)⟩

/-- The answer goes into the reasoning. -/
theorem answer_in_reasoning :
    (streamResponseGeminiChat2OpenAI emptyObjects
        [{ parts := [{ thought := true, text := "A" }, { text := "B" }] }]).1.map
      (fun choice => (choice.reasoningContent, choice.content)) = [(some "A\nB", none)] := by
  decide

def mapState {σ α β : Type} (f : σ → α → σ × β) (s : σ) : List α → σ × List β
  | [] => (s, [])
  | a :: rest =>
    let r := f s a
    let t := mapState f r.1 rest
    (t.1, r.2 :: t.2)

/-- The indices that tool calls have been given so far, by choice and id. -/
structure Indices where
  toolCallIndexByChoice : Int → String → Option ℕ := fun _ _ => none
  nextToolCallIndexByChoice : Int → ℕ := fun _ => 0

def setIndex (choiceKey : Int) (m : Indices) (tool : ToolCallResponse) :
    Indices × ToolCallResponse :=
  if tool.id = "" then (m, tool)
  else
    match m.toolCallIndexByChoice choiceKey tool.id with
    | some idx => (m, { tool with index := some idx })
    | none =>
      let idx := m.nextToolCallIndexByChoice choiceKey
      let ofChoice := update (m.toolCallIndexByChoice choiceKey) tool.id (some idx)
      ({ toolCallIndexByChoice := update m.toolCallIndexByChoice choiceKey ofChoice
         nextToolCallIndexByChoice :=
          update m.nextToolCallIndexByChoice choiceKey (idx + 1) },
        { tool with index := some idx })

def setIndices (m : Indices) (choice : StreamChoice) : Indices × StreamChoice :=
  let r := mapState (setIndex choice.index) m choice.toolCalls
  (r.1, { choice with toolCalls := r.2 })

def clearToolCalls (choice : StreamChoice) : StreamChoice :=
  { choice with toolCalls := choice.toolCalls.map ({ · with id := "", name := "" }) }

/-- The first choice without its finish reason. -/
def unfinished : List StreamChoice → List StreamChoice
  | [] => []
  | choice :: rest =>
    (if choice.finishReason.getD "" = "" then choice else { choice with finishReason := none }) ::
      rest

/-- The variables of the handler. -/
structure Handler where
  sendResponseCount : ℕ := 0
  finishReason : String := "stop"
  indices : Indices := {}

/-- What is sent before the first chunk, whose calls then lose their ids and names. -/
def startStream (h : Handler) (choices : List StreamChoice) :
    Handler × List (List StreamChoice) × List StreamChoice :=
  let start : StreamChoice := { role := "assistant", content := some "" }
  match choices.head?.map (·.toolCalls) with
  | none | some [] => (h, [[start]], choices)
  | some toolCalls =>
    ({ h with finishReason := "tool_calls" },
      [[{ start with toolCalls := toolCalls.map ({ · with arguments := "" }) }]],
      unfinished (choices.map clearToolCalls))

/-- One chunk of the upstream, and the chunks that are sent for it. -/
def handleChunk (lib : Libraries) (h : Handler) (candidates : List Candidate) :
    Handler × List (List StreamChoice) :=
  let (response, isStop) := streamResponseGeminiChat2OpenAI lib candidates
  let (indices, response) := mapState setIndices h.indices response
  let (h, start, response) :=
    if h.sendResponseCount = 0 then startStream h response else (h, [], response)
  let stop := if isStop then [[{ finishReason := some h.finishReason }]] else []
  let sent := start ++ [response] ++ stop
  ({ h with sendResponseCount := h.sendResponseCount + sent.length, indices := indices }, sent)

def geminiChatStreamHandler (lib : Libraries) (h : Handler) :
    List (List Candidate) → List (List StreamChoice)
  | [] => []
  | chunk :: rest =>
    (handleChunk lib h chunk).2 ++ geminiChatStreamHandler lib (handleChunk lib h chunk).1 rest

def finishReasons (sent : List (List StreamChoice)) : List (List (Option String)) :=
  sent.map (·.map (·.finishReason))

/-- One finish reason is sent, in the last chunk. -/
@[mk_iff]
structure FinishesOnce (sent : List (List StreamChoice)) (reason : String) : Prop where
  once : ((finishReasons sent).flatten.filterMap id).filter (· ≠ "") = [reason]
  last : (finishReasons sent).getLast? = some [some reason]

def Candidate.reason (candidate : Candidate) : Option String :=
  if candidate.calls then some "tool_calls"
  else (candidate.finishReason.filter (· ≠ "STOP")).map openAIFinishReason

theorem foldl_streamPart_calls (lib : Libraries) (parts : List Part) (s : Streamed) :
    (parts.foldl (streamPart lib) s).isTools = (s.isTools || parts.any (·.calls)) ∧
      ((parts.foldl (streamPart lib) s).toolCalls = [] ↔
        s.toolCalls = [] ∧ parts.any (·.calls) = false) := by
  induction parts generalizing s with
  | nil => simp
  | cons part rest ih =>
    obtain ⟨tools, calls⟩ := ih (streamPart lib s part)
    rw [foldl_cons, tools, calls]
    cases data : part.inlineData with
    | some d =>
      by_cases image : hasPrefix d.mimeType "image" <;> simp [streamPart, Part.calls, data, image]
    | none =>
      cases call : part.functionCall with
      | some call => simp [streamPart, Part.calls, *]
      | none => cases thought : part.thought <;> simp [streamPart, Part.calls, *]

theorem streamCandidate_reason (lib : Libraries) (c : Candidate) :
    (streamCandidate lib c).finishReason = c.reason ∧
      ((streamCandidate lib c).toolCalls = [] ↔ c.calls = false) := by
  obtain ⟨tools, calls⟩ := foldl_streamPart_calls lib c.parts {}
  refine ⟨?_, calls.trans (by simp [Candidate.calls])⟩
  simp only [streamCandidate, tools]
  rfl

theorem mapState_eq_nil {σ α β : Type} (f : σ → α → σ × β) (s : σ) (l : List α) :
    (mapState f s l).2 = [] ↔ l = [] := by
  cases l <;> simp [mapState]

theorem handle_later (lib : Libraries) (begun : h.sendResponseCount ≠ 0) (c : Candidate) :
    finishReasons (handleChunk lib h [c]).2 =
        [c.reason] :: (if c.stops then [[some h.finishReason]] else []) ∧
      (handleChunk lib h [c]).1.finishReason = h.finishReason ∧
      (handleChunk lib h [c]).1.sendResponseCount ≠ 0 := by
  cases stops : c.stops <;>
    simp [handleChunk, streamResponseGeminiChat2OpenAI, mapState, setIndices, begun, stops,
      finishReasons, streamCandidate_reason lib c]

theorem handle_first (lib : Libraries) (c : Candidate) :
    finishReasons (handleChunk lib {} [c]).2 =
        [none] :: [if c.calls then none else c.reason] ::
          (if c.stops then [[some (if c.calls then "tool_calls" else "stop")]] else []) ∧
      (handleChunk lib {} [c]).1.finishReason = (if c.calls then "tool_calls" else "stop") ∧
      (handleChunk lib {} [c]).1.sendResponseCount ≠ 0 := by
  obtain ⟨reason, calls⟩ := streamCandidate_reason lib c
  rw [← mapState_eq_nil (setIndex (streamCandidate lib c).index) {}] at calls
  cases own : (mapState (setIndex (streamCandidate lib c).index) {}
      (streamCandidate lib c).toolCalls).2 with
  | nil =>
    cases stops : c.stops <;>
    simp [handleChunk, streamResponseGeminiChat2OpenAI, mapState, setIndices, startStream, own,
      calls.mp own, finishReasons, stops, reason]
  | cons call rest =>
    have called : c.calls = true := by
      rw [← Bool.not_eq_false, ← calls, own]
      simp
    cases stops : c.stops <;>
    simp [handleChunk, streamResponseGeminiChat2OpenAI, mapState, setIndices, startStream, own,
      called, finishReasons, stops, reason, unfinished, clearToolCalls, Candidate.reason]

theorem handler_later (lib : Libraries) {h : Handler} (begun : h.sendResponseCount ≠ 0)
    (cs : List Candidate) :
    finishReasons (geminiChatStreamHandler lib h (cs.map ([·]))) =
      cs.flatMap fun c => [c.reason] :: if c.stops then [[some h.finishReason]] else [] := by
  induction cs generalizing h with
  | nil => rfl
  | cons c rest ih =>
    obtain ⟨sent, same, begun⟩ := handle_later lib begun c
    rw [map_cons, geminiChatStreamHandler, finishReasons, map_append, ← finishReasons,
      ← finishReasons, sent, ih begun, same, flatMap_cons]

theorem running_reasons {cs : List Candidate} (running : ∀ c ∈ cs, c.finishReason = none)
    (stop : String) :
    ((cs.flatMap fun c => [c.reason] :: if c.stops then [[some stop]] else []).flatten.filterMap
      id) = List.replicate (cs.countP (·.calls)) "tool_calls" := by
  induction cs with
  | nil => rfl
  | cons c rest ih =>
    obtain ⟨mine, others⟩ := forall_mem_cons.mp running
    cases calls : c.calls <;>
      simp [Candidate.reason, Candidate.stops, mine, calls, ← ih others, replicate_succ]

/-- A stream whose last chunk has a finish reason sends one finish reason, which tells whether tools
are called, if and only if no chunk after the first calls one; where the reason is another one than
`STOP` the last chunk may, unless it is the only one. -/
theorem finishes_once_iff (lib : Libraries) (init : List Candidate) (last : Candidate)
    (reason : String) (running : ∀ c ∈ init, c.finishReason = none)
    (ends : last.finishReason = some reason) :
    (∃ r, FinishesOnce (geminiChatStreamHandler lib {} ((init ++ [last]).map ([·]))) r ∧
        (reason = "STOP" → (r = "tool_calls" ↔ ∃ c ∈ init ++ [last], c.calls = true))) ↔
      if reason = "STOP" then ∀ c ∈ (init ++ [last]).tail, c.calls = false
      else (init = [] → last.calls = false) ∧ ∀ c ∈ init.tail, c.calls = false := by
  have named : openAIFinishReason reason ≠ "" := by
    rw [openAIFinishReason.eq_def]
    split <;> decide
  have stops : last.stops = decide (reason = "STOP") := by simp [Candidate.stops, ends]
  cases init with
  | nil =>
    obtain ⟨sent, -, -⟩ := handle_first lib last
    have sent : finishReasons (geminiChatStreamHandler lib {} [[last]]) = _ :=
      (congrArg _ (append_nil _)).trans sent
    by_cases stop : reason = "STOP" <;> cases calls : last.calls
    all_goals simp [finishesOnce_iff, sent, Candidate.reason, stops, ends, stop, calls, named]
  | cons first mid =>
    obtain ⟨running, later⟩ := forall_mem_cons.mp running
    obtain ⟨start, remembered, begun⟩ := handle_first lib first
    have sent : finishReasons
        (geminiChatStreamHandler lib {} (((first :: mid) ++ [last]).map ([·]))) = _ :=
      (map_append ..).trans (congrArg₂ _ start (handler_later lib begun (mid ++ [last])))
    rw [remembered, flatMap_append] at sent
    have quiet : (if first.calls then none else first.reason) = none := by
      cases calls : first.calls <;> simp [Candidate.reason, running, calls]
    have early := running_reasons later (if first.calls then "tool_calls" else "stop")
    have stopped : first.stops = false := by simp [Candidate.stops, running]
    have none : mid.countP (·.calls) = 0 ↔ ∀ c ∈ mid, c.calls = false := by simp
    have once (r : String) : FinishesOnce
        (geminiChatStreamHandler lib {} (((first :: mid) ++ [last]).map ([·]))) r ↔ _ :=
      (finishesOnce_iff ..).trans (by rw [sent])
    simp only [flatten_append, filterMap_append, early, stopped, quiet,
      flatMap_singleton, ← append_assoc, getLast?_append_cons] at once
    simp only [once]
    clear sent early start once
    by_cases stop : reason = "STOP" <;> cases calls : last.calls <;> cases called : first.calls <;>
      cases n : mid.countP (·.calls) <;> rw [n] at none
    all_goals
      simp [Candidate.reason, ends, stop, calls, called, stops, named, replicate_succ] <;>
        grind

theorem finishes_once_iff_call : ∃ r, FinishesOnce
      (geminiChatStreamHandler emptyObjects {} [[{ parts := [weatherCall] }],
        [{ finishReason := some "STOP" }]]) r ∧
      ("STOP" = "STOP" → (r = "tool_calls" ↔ ∃ c ∈ [{ parts := [weatherCall] },
        { finishReason := some "STOP" }], Candidate.calls c = true)) :=
  (finishes_once_iff emptyObjects [{ parts := [weatherCall] }] { finishReason := some "STOP" }
    "STOP" (by decide) rfl).mpr (by decide)

/-- A call in the second chunk finishes the stream twice. -/
theorem finishes_twice :
    finishReasons (geminiChatStreamHandler emptyObjects {} [[{ parts := [{ text := "Well." }] }],
      [{ parts := [weatherCall], finishReason := some "STOP" }]]) =
      [[none], [none], [some "tool_calls"], [some "stop"]] := by
  decide

end EastApi.Convert.Gemini
