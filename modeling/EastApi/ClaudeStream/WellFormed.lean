import EastApi.ClaudeStream.Blocks

/-! The whole stream that a client receives, and exactly when it is well formed. -/

namespace EastApi.ClaudeStream

open List Option

open Brackets (Phase)

def Event.isMessageStart : Event → Bool
  | .messageStart .. => true
  | _ => false

def Event.isEnding : Event → Bool
  | .messageDelta .. | .messageStop => true
  | _ => false

/-- The message starts once, at first; each block is started, filled with pieces of its type and
stopped; and the message ends with its delta and its stop, after all blocks. -/
structure WellFormed (events : List Event) : Prop where
  start : ∃ id model tokens rest, events = .messageStart id model tokens :: rest ∧
    ∀ event ∈ rest, ¬ event.isMessageStart
  blocks : ∀ index, Brackets.Complete Block.fits
    (Brackets.lane index (events.filterMap Event.onBlock))
  ending : ∃ body reason usage, events = body ++ [.messageDelta reason usage, .messageStop] ∧
    ∀ event ∈ body, ¬ event.isEnding

def Closing (events : List Event) : Prop :=
  ∃ body reason usage, OnBlocks body ∧ events = body ++ [.messageDelta reason usage, .messageStop]

def Sound (phases : Phases) (events : List Event) : Prop :=
  Closing events ∧ ∀ i, (after phases events i).Settled

theorem closing_append (blocks : OnBlocks before) : Closing (before ++ rest) ↔ Closing rest := by
  induction before with
  | nil => rfl
  | cons event before ih =>
    obtain ⟨here, blocks⟩ := forall_mem_cons.mp blocks
    rw [← ih blocks, cons_append]
    constructor
    · rintro ⟨_ | ⟨first, body⟩, reason, usage, all, shape⟩
      · simp only [nil_append, cons.injEq] at shape
        simp [shape.1, Event.onBlock] at here
      · exact ⟨body, reason, usage, (forall_mem_cons.mp all).2, (cons.inj shape).2⟩
    · rintro ⟨body, reason, usage, all, shape⟩
      exact ⟨event :: body, reason, usage, forall_mem_cons.mpr ⟨here, all⟩, by simp [shape]⟩

theorem sound_append (blocks : OnBlocks before) :
    Sound phases (before ++ rest) ↔ Sound (after phases before) rest := by
  simp only [Sound, closing_append blocks, after_append]

theorem not_sound_nil (phases : Phases) : ¬ Sound phases [] := by
  simp [Sound, Closing]

theorem sound_ending (phases : Phases) (reason : String) (usage : ClaudeUsage) :
    Sound phases [.messageDelta reason usage, .messageStop] ↔ ∀ i, (phases i).Settled :=
  and_iff_right ⟨[], reason, usage, onBlocks_nil, rfl⟩

theorem not_sound_stop (phases : Phases) : ¬ Sound phases [.messageStop] := by
  rintro ⟨⟨body, reason, usage, -, shape⟩, -⟩
  have := congrArg length shape
  simp at this

/-- Behind the start of the message, a well-formed stream is a rest that is right for blocks of
which none is used. -/
theorem wellFormed_iff (id model : String) (tokens : Int) (rest : List Event) :
    WellFormed (.messageStart id model tokens :: rest) ↔ Sound (fun _ => .unused) rest := by
  have blocks := Brackets.all_complete_iff Block.fits
    ((Event.messageStart id model tokens :: rest).filterMap Event.onBlock)
  constructor
  · rintro ⟨⟨_, _, _, _, start, once⟩, complete, body, reason, usage, shape, ending⟩
    obtain ⟨-, rfl⟩ := cons.inj start
    refine ⟨?_, blocks.mp complete⟩
    cases body with
    | nil => simp at shape
    | cons first body =>
      obtain ⟨-, rfl⟩ := cons.inj shape
      refine ⟨body, reason, usage, fun event on => ?_, rfl⟩
      have not_start := once event (by simp [on])
      have not_ending := ending event (by simp [on])
      cases event <;> simp_all [Event.isMessageStart, Event.isEnding, Event.onBlock]
  · rintro ⟨⟨body, reason, usage, onBlocks, rfl⟩, settled⟩
    refine ⟨⟨id, model, tokens, _, rfl, fun event on => ?_⟩, blocks.mpr settled,
      .messageStart id model tokens :: body, reason, usage, rfl, ?_⟩
    · rcases mem_append.mp on with on | on
      · have := onBlocks event on
        cases event <;> simp_all [Event.isMessageStart, Event.onBlock]
      · simp only [mem_cons, not_mem_nil, or_false] at on
        rcases on with rfl | rfl <;> simp [Event.isMessageStart]
    · refine forall_mem_cons.mpr ⟨by simp [Event.isEnding], fun event on => ?_⟩
      have := onBlocks event on
      cases event <;> simp_all [Event.isEnding, Event.onBlock]

def chunkContent (chunk : Chunk) (info : ConvertInfo) : List Event × ConvertInfo :=
  match chunk.choices with
  | [] => ([], info)
  | choice :: _ =>
    if choice.isFinished ∧ chunk.usage = none then ([], recordFinish choice info)
    else sendDelta choice.delta (recordFinish choice info)

/-- The message is closed after the chunk: it has a reason to finish and the usage, or no choice,
and the usage is known. -/
def Chunk.closes (chunk : Chunk) (info : ConvertInfo) : Bool :=
  match chunk.choices with
  | [] => (chunk.usage <|> info.usage).isSome
  | choice :: _ => choice.isFinished && chunk.usage.isSome

/-- The tool calls of the chunk are sent to blocks that are open for them, or that they start. -/
def Chunk.follows (chunk : Chunk) (info : ConvertInfo) : Bool :=
  match chunk.choices with
  | [] => true
  | choice :: _ => choice.isFinished && chunk.usage.isNone ||
      ((withOffset choice.delta.toolCalls).foldlM follow info.lastCall).isSome

def Chunk.announce (known : Int) (chunk : Chunk) : Option Int :=
  (withOffset chunk.toolCalls).foldlM ClaudeStream.announce known

theorem chunkContent_sends (chunk : Chunk) (info : ConvertInfo) :
    Sends info (chunkContent chunk info) := by
  unfold chunkContent
  split
  · exact .nil info
  · split
    · exact ⟨recordFinish_same .., onBlocks_nil⟩
    · exact ⟨(recordFinish_same ..).trans (sendDelta_sends ..).same, (sendDelta_sends ..).blocks⟩

theorem laterResponse_open (running : info.done = false) (opens : chunk.closes info = false) :
    laterResponse chunk info = chunkContent chunk info := by
  rcases chunk with ⟨id, model, _ | ⟨choice, rest⟩, usage⟩
  · have unknown : (usage <|> info.usage) = none := by simpa [Chunk.closes] using opens
    simp only [laterResponse, usageResponse, chunkContent, unknown]
  · simp only [laterResponse, choiceResponse, chunkContent]
    split
    next => rfl
    next given =>
      have finished : ¬ choice.isFinished := by
        intro finished
        simp_all [Chunk.closes]
      have same := (recordFinish_same choice info).trans (sendDelta_sends _ choice.delta).same
      rw [if_neg (by simp [finished, same.done, running])]

theorem laterResponse_closed (closes : chunk.closes info) :
    ∃ reason usage, (laterResponse chunk info).1 = (chunkContent chunk info).1 ++
        (stopOpenBlocks (chunkContent chunk info).2 ++ [.messageDelta reason usage, .messageStop]) ∧
      (laterResponse chunk info).2.done := by
  rcases chunk with ⟨id, model, _ | ⟨choice, rest⟩, usage⟩
  · obtain ⟨given, known⟩ := isSome_iff_exists.mp closes
    simp only [laterResponse, usageResponse, chunkContent, known]
    exact ⟨_, _, rfl, trivial⟩
  · simp only [Chunk.closes, Bool.and_eq_true, isSome_iff_exists] at closes
    obtain ⟨finished, given, rfl⟩ := closes
    simp only [laterResponse, choiceResponse, chunkContent, finished, reduceCtorEq, and_false,
      if_false, true_or, if_true]
    rw [finishMessage_known rfl]
    exact ⟨_, _, rfl, rfl⟩

section Content

variable {known known' : Int} {info : ConvertInfo} {phases : Phases} {chunk : Chunk}
  (announced : chunk.announce known = some known')

include announced

theorem Standing.chunkContent (standing : Standing ok known info phases) :
    Standing (ok && chunk.follows info) known' (chunkContent chunk info).2
      (after phases (chunkContent chunk info).1) := by
  have more := le_of_announced announced
  rcases chunk with ⟨id, model, _ | ⟨choice, rest⟩, usage⟩
  · rw [Chunk.follows, Bool.and_true]
    exact standing.mono more
  · have same : SameBlocks info (recordFinish choice info) := by
      unfold recordFinish
      split <;> exact ⟨rfl, rfl, rfl, rfl⟩
    simp only [ClaudeStream.chunkContent, Chunk.follows]
    split
    next held => simpa [held] using (same.standing standing).mono more
    next given =>
      rw [show (choice.isFinished && usage.isNone) = false by
        simpa [isSome_iff_ne_none] using given, Bool.false_or, ← same.lastCall]
      exact (same.standing standing).sendDelta announced

theorem Standing.sound_iff (standing : Standing ok known info phases)
    (closes : chunk.closes info) :
    Sound phases (laterResponse chunk info).1 ↔ (ok && chunk.follows info) := by
  obtain ⟨reason, usage, shape, -⟩ := laterResponse_closed closes
  rw [shape, sound_append (chunkContent_sends _ _).blocks, sound_append (stopOpenBlocks_onBlocks _),
    sound_ending]
  have sent := standing.chunkContent announced
  cases all : ok && chunk.follows info with
  | true =>
    rw [all] at sent
    exact iff_of_true (Good.stopped sent) rfl
  | false =>
    rw [all] at sent
    obtain ⟨i, broken⟩ := Doomed.stopped sent
    refine iff_of_false (fun settled => ?_) Bool.false_ne_true
    simpa [broken, Phase.Settled] using settled i

end Content

/-- The rest of the chunks makes the stream well formed: up to the chunk that closes the message,
and there is one, all tool calls have their block. -/
def restOk (usage : Usage) : ConvertInfo → List Chunk → Bool
  | _, [] => false
  | info, [last] => last.follows info && last.closes { info with usage := some usage }
  | info, chunk :: next :: rest => chunk.follows info && (chunk.closes info ||
      restOk usage (handleStreamFormat chunk info).2 (next :: rest))

/-- All chunks of an upstream that names each tool call once, in its first fragment, and counts the
calls from `0`. -/
def Announced (known : Int) (chunks : List Chunk) : Prop :=
  (chunks.foldlM Chunk.announce known).isSome

theorem announced_cons :
    Announced known (chunk :: rest) ↔
      ∃ known', chunk.announce known = some known' ∧ Announced known' rest := by
  cases first : chunk.announce known <;> simp [Announced, foldlM_cons, first]

theorem oaiStreamHandler_done (done : info.done) (chunks : List Chunk) :
    oaiStreamHandler usage info chunks = [] := by
  induction chunks generalizing info with
  | nil => rfl
  | cons chunk rest ih =>
    have silent : ∀ info' : ConvertInfo, info'.done →
        streamResponseOpenAI2Claude chunk info' = ([], info') := by
      intro info' done
      rw [streamResponseOpenAI2Claude, if_pos done]
    cases rest with
    | nil => simp [oaiStreamHandler, handleFinalResponse, silent, done]
    | cons next rest =>
      simp only [oaiStreamHandler, handleStreamFormat_eq]
      rw [silent (received chunk info) done]
      exact ih done

/-! The state in which a chunk is converted has the blocks of the state before. -/

theorem received_blocks (chunk : Chunk) (info : ConvertInfo) :
    SameBlocks info (received chunk info) := ⟨rfl, rfl, rfl, rfl⟩

theorem closes_received (chunk : Chunk) (info : ConvertInfo) :
    chunk.closes (received chunk info) = chunk.closes info := by
  unfold Chunk.closes received
  cases chunk.choices <;> cases chunk.usage <;> rfl

theorem follows_received (chunk : Chunk) (info : ConvertInfo) :
    chunk.follows (received chunk info) = chunk.follows info := by
  simp only [Chunk.follows, (received_blocks chunk info).lastCall]

theorem handleFinalResponse_later (running : info.done = false)
    (count : info.sendResponseCount ≠ 1) :
    (handleFinalResponse usage last info).1 =
      (laterResponse last { info with usage := some usage }).1 := by
  simp [handleFinalResponse, streamResponseOpenAI2Claude, running, count]

theorem not_sound_open (phases : Phases) (running : info.done = false)
    (opens : chunk.closes info = false) :
    ¬ Sound phases (laterResponse chunk info).1 := by
  rw [laterResponse_open running opens, ← append_nil (chunkContent chunk info).1,
    sound_append (chunkContent_sends _ _).blocks]
  exact not_sound_nil _

section Rest

variable {usage : Usage} {known : Int} {info : ConvertInfo} {phases : Phases} {chunk next : Chunk}
  {rest : List Chunk}

theorem oaiStreamHandler_closed (running : info.done = false) (begun : 0 < info.sendResponseCount)
    (closes : chunk.closes info) : oaiStreamHandler usage info (chunk :: next :: rest) =
      (laterResponse chunk (received chunk info)).1 := by
  obtain ⟨_, _, -, done⟩ := laterResponse_closed ((closes_received chunk info).trans closes)
  simp only [oaiStreamHandler, handleStreamFormat_next running begun]
  rw [oaiStreamHandler_done done, append_nil]

end Rest

theorem Standing.run (standing : Standing ok known info phases) (running : info.done = false)
    (begun : 0 < info.sendResponseCount) (enough : 3 ≤ info.sendResponseCount + chunks.length)
    (announced : Announced known chunks) :
    Sound phases (oaiStreamHandler usage info chunks) ↔ (ok && restOk usage info chunks) := by
  induction chunks generalizing ok known info phases with
  | nil => simp [oaiStreamHandler, not_sound_nil, restOk]
  | cons chunk rest ih =>
    obtain ⟨known', first, announced⟩ := announced_cons.mp announced
    cases rest with
    | nil =>
      rw [oaiStreamHandler, handleFinalResponse_later running (by simp at enough; omega)]
      have same : SameBlocks info { info with usage := some usage } := ⟨rfl, rfl, rfl, rfl⟩
      cases closes : chunk.closes { info with usage := some usage } with
      | false =>
        have never : ¬ Sound phases (laterResponse chunk { info with usage := some usage }).1 :=
          not_sound_open phases running closes
        simp [restOk, closes, never]
      | true =>
        rw [(same.standing standing).sound_iff first closes]
        simp only [restOk, closes, Bool.and_true, Chunk.follows, same.lastCall]
    | cons next rest =>
      have standing' := (received_blocks chunk info).standing standing
      cases closes : chunk.closes info with
      | true =>
        rw [oaiStreamHandler_closed running begun closes,
          standing'.sound_iff first ((closes_received chunk info).trans closes)]
        simp [restOk, closes, follows_received]
      | false =>
        have running' : (received chunk info).done = false := running
        have state := (handleStreamFormat_next running begun).trans
          (laterResponse_open running' ((closes_received chunk info).trans closes))
        have count := handleStreamFormat_count info chunk
        refine (sound_append (by rw [state]; exact (chunkContent_sends _ _).blocks)).trans ?_
        rw [ih (state ▸ standing'.chunkContent first) ?_ (by omega)
          (by simp only [length_cons] at enough ⊢; omega) announced]
        · simp [restOk, closes, follows_received, Bool.and_assoc]
        · rw [state]
          exact (chunkContent_sends chunk (received chunk info)).same.done.trans running

def firstChunk (chunk : Chunk) (info : ConvertInfo) : List Event × ConvertInfo :=
  let calls := firstToolCall chunk info
  match chunk.choices with
  | [] => calls
  | choice :: _ =>
    let content := firstContent choice.delta calls.2
    (calls.1 ++ content.1, content.2)

theorem firstChunk_sends (chunk : Chunk) (info : ConvertInfo) :
    Sends info (firstChunk chunk info) := by
  have calls := firstToolCall_sends info chunk
  unfold firstChunk
  split
  · exact calls
  · exact ⟨calls.same.trans (firstContent_sends ..).same,
      calls.blocks.append (firstContent_sends ..).blocks⟩

theorem announced_first (announced : (withOffset (call :: rest)).foldlM announce 0 = some known) :
    0 < known := by
  obtain ⟨others, offsets, -⟩ := withOffset_cons call rest
  rw [offsets, foldlM_cons] at announced
  obtain ⟨known₁, first, announced⟩ := bind_eq_some_iff.mp announced
  have more := le_of_announced announced
  rcases announce_cases first with ⟨-, -, rfl⟩ | ⟨-, within, -⟩ <;> omega

theorem firstToolCall_good (idle : info.lastMessagesType = .none)
    (announced : chunk.announce 0 = some known) :
    Good known (firstToolCall chunk info).2
        (after (fun _ => .unused) (firstToolCall chunk info).1) ∧
      ((firstToolCall chunk info).2.lastMessagesType = .none ∨
        (firstToolCall chunk info).2.lastMessagesType = .tools) := by
  unfold firstToolCall Chunk.announce at *
  split
  next none =>
    obtain rfl : 0 = known := by simpa [none, withOffset] using announced
    exact ⟨⟨fun _ _ => .inl rfl, fun i above below => by
      simp [ConvertInfo.openFrom, ConvertInfo.openTo, idle] at above below; omega,
      fun _ _ => rfl, by simp [ConvertInfo.lastCall, idle], by simp [idle]⟩, .inl idle⟩
  next call rest calls =>
    rw [calls] at announced
    have started : after (fun _ => .unused)
        (.contentBlockStart 0 (.toolUse call.id call.name) ::
          (if call.arguments ≠ "" then [.contentBlockDelta 0 (.inputJsonDelta call.arguments)]
            else [])) =
        Function.update (fun _ => Phase.unused) 0 (.opened (.toolUse call.id call.name)) := by
      split_ifs <;> simp [Phase.step, Block.fits]
    have group : Group 0 0 (Function.update (fun _ => Phase.unused) 0
        (.opened (.toolUse call.id call.name))) := by
      refine ⟨fun i before => ?_, fun i above below => ?_, fun i behind => ?_, by omega⟩
      · rw [Function.update_of_ne (by omega)]
        exact .inl rfl
      · obtain rfl : i = 0 := by omega
        exact ⟨_, _, Function.update_self ..⟩
      · rw [Function.update_of_ne (by omega)]
    rw [started]
    exact ⟨Group.good group (announced_first announced) le_rfl rfl rfl, .inr rfl⟩

theorem firstChunk_good (idle : info.lastMessagesType = .none)
    (announced : chunk.announce 0 = some known) :
    Standing true known (firstChunk chunk info).2
      (after (fun _ => .unused) (firstChunk chunk info).1) := by
  obtain ⟨good, type⟩ := firstToolCall_good idle announced
  unfold firstChunk
  split
  next => exact good
  next choice rest choices =>
    simp only [after_append]
    unfold firstContent
    split_ifs
    · exact good.startBlock (.of_thinking _) (by rcases type with type | type <;> simp [type])
    · exact good.startBlock (.of_text _) (by rcases type with type | type <;> simp [type])
    · exact good

theorem firstResponse_open (info : ConvertInfo) (unfinished : chunk.isFinished = false) :
    firstResponse chunk info =
      (.messageStart chunk.id chunk.model info.estimatePromptTokens :: (firstChunk chunk info).1,
        (firstChunk chunk info).2) := by
  rcases chunk with ⟨id, model, _ | ⟨choice, rest⟩, usage⟩
  · rfl
  · have unfinished' : choice.isFinished = false := by simpa [Chunk.isFinished] using unfinished
    simp [firstResponse, firstChunk, unfinished']

theorem firstResponse_finished (info : ConvertInfo) (finished : chunk.isFinished) :
    ∃ finish : ConvertInfo, SameMessage (firstChunk chunk info).2 finish ∧
      stopOpenBlocks finish = stopOpenBlocks (firstChunk chunk info).2 ∧
      firstResponse chunk info =
        (.messageStart chunk.id chunk.model info.estimatePromptTokens ::
          ((firstChunk chunk info).1 ++ (finishMessage chunk finish).1),
          (finishMessage chunk finish).2) := by
  rcases chunk with ⟨id, model, _ | ⟨choice, rest⟩, usage⟩
  · simp [Chunk.isFinished] at finished
  · have finished' : choice.isFinished := by simpa [Chunk.isFinished] using finished
    refine ⟨{ (firstChunk ⟨id, model, choice :: rest, usage⟩ info).2 with
      finishReason := choice.finishReason.getD "" }, ⟨rfl, rfl, rfl⟩, rfl, ?_⟩
    simp [firstResponse, firstChunk, finished']

theorem firstResponse_start (chunk : Chunk) (info : ConvertInfo) :
    ∃ rest, (firstResponse chunk info).1 =
      .messageStart chunk.id chunk.model info.estimatePromptTokens :: rest := by
  cases finished : chunk.isFinished with
  | false => exact ⟨_, congrArg Prod.fst (firstResponse_open info finished)⟩
  | true =>
    obtain ⟨_, -, -, shape⟩ := firstResponse_finished info finished
    exact ⟨_, congrArg Prod.fst shape⟩

theorem firstResponse_sound (idle : info.lastMessagesType = .none)
    (usage : info.usage = chunk.usage) (announced : chunk.announce 0 = some known)
    (finished : chunk.isFinished) :
    WellFormed (firstResponse chunk info).1 ↔ chunk.usage.isSome := by
  obtain ⟨finish, same, stops, shape⟩ := firstResponse_finished info finished
  have good := firstChunk_good idle announced
  have recorded := same.usage.trans ((firstChunk_sends chunk info).same.usage.trans usage)
  rw [shape, wellFormed_iff, sound_append (firstChunk_sends _ _).blocks]
  cases given : chunk.usage with
  | none =>
    rw [finishMessage_unknown (by simp [given, recorded]), sound_append (stopOpenBlocks_onBlocks _)]
    simp [not_sound_stop]
  | some tokens =>
    rw [finishMessage_known (by rw [given]; rfl), sound_append (stopOpenBlocks_onBlocks _),
      sound_ending, stops]
    simpa using Good.stopped good

theorem laterResponse_noStart (running : info.done = false) :
    ∀ event ∈ (laterResponse chunk info).1, ¬ event.isMessageStart := by
  have quiet : ∀ {events : List Event}, OnBlocks events →
      ∀ event ∈ events, ¬ event.isMessageStart := by
    intro events blocks event on
    have := blocks event on
    cases event <;> simp_all [Event.isMessageStart, Event.onBlock]
  have content := quiet (chunkContent_sends chunk info).blocks
  cases closes : chunk.closes info with
  | false =>
    rw [laterResponse_open running closes]
    exact content
  | true =>
    obtain ⟨reason, usage, shape, -⟩ := laterResponse_closed closes
    rw [shape]
    simp only [forall_mem_append]
    refine ⟨content, quiet (stopOpenBlocks_onBlocks _), ?_⟩
    simp [Event.isMessageStart]

/-- The chunks make a well-formed stream. The message starts with the first chunk, so that there has
to be another one for its end, and a third one unless the first ends the message: the last chunk is
not counted as a response. -/
def streamOk (usage : Usage) (info : ConvertInfo) : List Chunk → Bool
  | first :: second :: rest =>
    if first.isFinished then first.usage.isSome
    else !rest.isEmpty && restOk usage (handleStreamFormat first info).2 (second :: rest)
  | _ => false

/-- With one chunk, no response is counted before the last one: the message is never started. -/
theorem not_wellFormed_one :
    ¬ WellFormed (oaiStreamHandler usage (genRelayInfoClaude estimate) [first]) := by
  rw [oaiStreamHandler, handleFinalResponse_later rfl (by simp [genRelayInfoClaude])]
  rintro ⟨⟨_, _, _, _, start, -⟩, -, -⟩
  exact laterResponse_noStart rfl _ (start ▸ mem_cons_self) rfl

theorem wellFormed_finished (calls : first.announce 0 = some known) (finished : first.isFinished) :
    WellFormed (oaiStreamHandler usage (genRelayInfoClaude estimate) (first :: second :: rest)) ↔
      first.usage.isSome := by
  have recorded : (received first (genRelayInfoClaude estimate)).usage = first.usage := by
    simp [received, genRelayInfoClaude]
  obtain ⟨finish, -, -, shape⟩ :=
    firstResponse_finished (received first (genRelayInfoClaude estimate)) finished
  have done : (firstResponse first (received first (genRelayInfoClaude estimate))).2.done := by
    rw [shape]
    rfl
  have response : handleStreamFormat first (genRelayInfoClaude estimate) =
      firstResponse first (received first (genRelayInfoClaude estimate)) :=
    handleStreamFormat_first rfl rfl
  simp only [oaiStreamHandler, response]
  rw [oaiStreamHandler_done done, append_nil,
    firstResponse_sound rfl recorded calls finished]

theorem handleStreamFormat_begin (estimate : Int) (unfinished : first.isFinished = false) :
    handleStreamFormat first (genRelayInfoClaude estimate) =
      (.messageStart first.id first.model estimate ::
        (firstChunk first (received first (genRelayInfoClaude estimate))).1,
        (firstChunk first (received first (genRelayInfoClaude estimate))).2) := by
  rw [handleStreamFormat_first rfl rfl, firstResponse_open _ unfinished]
  rfl

/-- With two chunks, the last one is still the first response for the converter: the message starts
again. -/
theorem not_wellFormed_two (unfinished : first.isFinished = false) :
    ¬ WellFormed (oaiStreamHandler usage (genRelayInfoClaude estimate) [first, second]) := by
  have same := (firstChunk_sends first (received first (genRelayInfoClaude estimate))).same
  simp only [oaiStreamHandler, handleStreamFormat_begin estimate unfinished]
  generalize (firstChunk first (received first (genRelayInfoClaude estimate))).2 = info at same ⊢
  have again : (handleFinalResponse usage second info).1 =
      (firstResponse second { info with usage := some usage }).1 := by
    have running : info.done = false := same.done
    have count : info.sendResponseCount = 1 := same.count
    simp [handleFinalResponse, streamResponseOpenAI2Claude, running, count]
  obtain ⟨tail, start⟩ := firstResponse_start second { info with usage := some usage }
  rw [again, start, cons_append]
  rintro ⟨⟨_, _, _, _, shape, once⟩, -, -⟩
  obtain ⟨-, rfl⟩ := cons.inj shape
  exact once _ (mem_append_right _ mem_cons_self) rfl

theorem wellFormed_begun (calls : first.announce 0 = some known)
    (announced : Announced known (second :: rest)) (unfinished : first.isFinished = false)
    (more : rest ≠ []) :
    WellFormed (oaiStreamHandler usage (genRelayInfoClaude estimate) (first :: second :: rest)) ↔
      restOk usage (handleStreamFormat first (genRelayInfoClaude estimate)).2 (second :: rest) := by
  have same := (firstChunk_sends first (received first (genRelayInfoClaude estimate))).same
  have count : (firstChunk first
      (received first (genRelayInfoClaude estimate))).2.sendResponseCount = 1 := same.count
  have long := length_pos_iff.mpr more
  simp only [oaiStreamHandler, handleStreamFormat_begin estimate unfinished]
  rw [cons_append, wellFormed_iff, sound_append (firstChunk_sends _ _).blocks]
  refine (firstChunk_good rfl calls).run same.done (by omega) ?_ announced
  simp only [length_cons]
  omega

/-- Exactly when the client receives a well-formed stream. -/
theorem stream_wellFormed_iff (usage : Usage) (estimate : Int) (chunks : List Chunk)
    (announced : Announced 0 chunks) :
    WellFormed (oaiStreamHandler usage (genRelayInfoClaude estimate) chunks) ↔
      streamOk usage (genRelayInfoClaude estimate) chunks := by
  match chunks with
  | [] =>
    simp only [oaiStreamHandler, streamOk, Bool.false_eq_true, iff_false]
    rintro ⟨⟨_, _, _, _, start, -⟩, -, -⟩
    simp at start
  | [last] => simp [streamOk, not_wellFormed_one]
  | first :: second :: rest =>
    obtain ⟨known, calls, announced⟩ := announced_cons.mp announced
    cases finished : first.isFinished with
    | true => simp [streamOk, finished, wellFormed_finished calls finished]
    | false =>
      cases rest with
      | nil => simp [streamOk, finished, not_wellFormed_two finished]
      | cons third rest =>
        simp [streamOk, finished, wellFormed_begun calls announced finished]

def usageChunk : Chunk := ⟨"chatcmpl-1", "gpt", [], some someUsage⟩

def callStream : List Chunk :=
  [.of "" "" [] none none, .of "" "One moment." [] none none,
    .of "" "" [⟨some 0, "call-1", "weather", ""⟩, ⟨some 1, "call-2", "time", "["⟩] none none,
    .of "" "" [⟨some 0, "", "", "[]"⟩, ⟨some 1, "", "", "]"⟩] none none,
    .of "" "" [] (some "tool_calls") none, usageChunk]

theorem stream_wellFormed_iff_calls : Announced 0 callStream ∧
    WellFormed (oaiStreamHandler someUsage (genRelayInfoClaude 10) callStream) := by
  have announced : Announced 0 callStream := by
    unfold Announced
    decide
  exact ⟨announced, (stream_wellFormed_iff someUsage 10 callStream announced).mpr (by decide)⟩

def FinishesOnce (chunks : List Chunk) : Prop :=
  chunks.Pairwise fun chunk later => chunk.isFinished → later.choices = []

def unclosedStream : List Chunk :=
  [.of "" "" [] none none, .of "" "Hello" [] none none, .of "" "" [] (some "stop") none]

def shortStream : List Chunk := [.of "" "Hello" [] none none, usageChunk]

def eagerStream : List Chunk :=
  [.of "" "" [⟨some 0, "call-1", "weather", "[]"⟩, ⟨some 1, "call-2", "time", ""⟩] none none,
    .of "" "" [⟨some 1, "", "", "[]"⟩] none none,
    .of "" "" [] (some "tool_calls") (some someUsage)]

theorem WellFormed.starts_once (wellFormed : WellFormed events) :
    events.countP Event.isMessageStart = 1 := by
  obtain ⟨id, model, tokens, rest, rfl, once⟩ := wellFormed.start
  rw [countP_cons_of_pos rfl, countP_eq_zero.mpr once]

theorem WellFormed.ends (wellFormed : WellFormed events) : events.getLast? = some .messageStop := by
  obtain ⟨body, reason, usage, rfl, -⟩ := wellFormed.ending
  simp

/-- The three streams are of the form that is expected, and none is well formed: the first is never
closed, the second is started twice, and the third has a block that is not started. -/
theorem streams_illFormed : [unclosedStream, shortStream, eagerStream].Forall fun chunks =>
    Announced 0 chunks ∧ FinishesOnce chunks ∧
      ¬ WellFormed (oaiStreamHandler someUsage (genRelayInfoClaude 10) chunks) := by
  unfold Announced FinishesOnce
  refine ⟨⟨by decide, by decide, fun wellFormed => ?_⟩,
    ⟨by decide, by decide, fun wellFormed => ?_⟩, by decide, by decide, fun wellFormed => ?_⟩
  · exact absurd wellFormed.ends (by decide)
  · exact absurd wellFormed.starts_once (by decide)
  · have broken := (Brackets.complete_iff Block.fits).mp (wellFormed.blocks 1)
    revert broken
    unfold Phase.Settled
    decide

end EastApi.ClaudeStream
