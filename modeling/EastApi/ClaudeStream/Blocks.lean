import EastApi.ClaudeStream.Convert
import EastApi.Lib.Brackets

/-! The content blocks of a stream. After every chunk, the blocks that are open are those that the
state of the request says are open, unless a tool call has gone to a block that was never started:
then the stream cannot be repaired. -/

namespace EastApi.ClaudeStream

open List Option

open Brackets (Phase)

def Block.fits : Block → BlockDelta → Bool
  | .text, .textDelta _ => true
  | .thinking, .thinkingDelta _ => true
  | .toolUse _ _, .inputJsonDelta _ => true
  | _, _ => false

def Event.onBlock : Event → Option (Int × Brackets.Event Block BlockDelta)
  | .contentBlockStart index block => some (index, .start block)
  | .contentBlockDelta index delta => some (index, .fill delta)
  | .contentBlockStop index => some (index, .stop)
  | .messageStart .. | .messageDelta .. | .messageStop => none

/-- How far every block has come. -/
abbrev Phases := Int → Phase Block

def after (phases : Phases) (events : List Event) : Phases :=
  (events.filterMap Event.onBlock).foldl (Brackets.advance Block.fits) phases

@[simp] theorem after_nil (phases : Phases) : after phases [] = phases := rfl

@[simp] theorem after_append (phases : Phases) (before rest : List Event) :
    after phases (before ++ rest) = after (after phases before) rest := by
  simp [after]

@[simp] theorem after_start (phases : Phases) (index : Int) (block : Block) (rest : List Event) :
    after phases (.contentBlockStart index block :: rest) =
      after (Function.update phases index ((phases index).step Block.fits (.start block))) rest :=
  rfl

@[simp] theorem after_delta (phases : Phases) (index : Int) (delta : BlockDelta)
    (rest : List Event) :
    after phases (.contentBlockDelta index delta :: rest) =
      after (Function.update phases index ((phases index).step Block.fits (.fill delta))) rest :=
  rfl

@[simp] theorem after_stop (phases : Phases) (index : Int) (rest : List Event) :
    after phases (.contentBlockStop index :: rest) =
      after (Function.update phases index ((phases index).step Block.fits .stop)) rest :=
  rfl

theorem after_broken (broken : phases i = .broken) (events : List Event) :
    after phases events i = .broken := by
  rw [after, Brackets.foldl_advance, broken, Brackets.foldl_broken]

theorem after_stops (phases : Phases) (first : Int) (count : Nat) (i : Int) :
    after phases ((List.range count).map fun offset : Nat => .contentBlockStop (first + offset)) i =
      if first ≤ i ∧ i < first + count then (phases i).step Block.fits .stop else phases i := by
  induction count with
  | zero =>
    rw [if_neg (by omega)]
    rfl
  | succ count ih =>
    rw [range_succ, map_append, after_append]
    simp only [map_cons, map_nil, after_stop, after_nil]
    by_cases last : i = first + count
    · subst last
      rw [Function.update_self, ih, if_neg (by omega), if_pos (by omega)]
    · rw [Function.update_of_ne last, ih]
      congr 1
      simp only [eq_iff_iff]
      omega

def ConvertInfo.openFrom (info : ConvertInfo) : Int :=
  if info.lastMessagesType = .tools then info.toolCallBaseIndex else info.index

def ConvertInfo.openTo (info : ConvertInfo) : Int :=
  match info.lastMessagesType with
  | .none => info.index
  | .text | .thinking => info.index + 1
  | .tools => info.toolCallBaseIndex + info.toolCallMaxIndexOffset + 1

def ConvertInfo.lastCall (info : ConvertInfo) : Int :=
  if info.lastMessagesType = .tools then info.toolCallMaxIndexOffset else -1

def LastMessageType.Opened : LastMessageType → Phase Block → Prop
  | .none, _ => False
  | .text, phase => phase = .opened .text
  | .thinking, phase => phase = .opened .thinking
  | .tools, phase => ∃ id name, phase = .opened (.toolUse id name)

variable {type : LastMessageType}

theorem LastMessageType.Opened.stop (opened : type.Opened phase) :
    phase.step Block.fits .stop = .closed := by
  cases type with
  | none => exact opened.elim
  | text | thinking => rw [opened]; rfl
  | tools => obtain ⟨id, name, rfl⟩ := opened; rfl

/-- The blocks are as the state says: the open ones are of the type that was sent last, those before
are settled, and those behind are unused. The chunks have named `known` calls, and those of the open
group are the ones up to `lastCall`. -/
structure Good (known : Int) (info : ConvertInfo) (phases : Phases) : Prop where
  settled : ∀ i < info.openFrom, (phases i).Settled
  opened : ∀ i, info.openFrom ≤ i → i < info.openTo → info.lastMessagesType.Opened (phases i)
  unused : ∀ i, info.openTo ≤ i → phases i = .unused
  named : info.lastCall < known
  calls : info.lastMessagesType = .tools → 0 ≤ info.toolCallMaxIndexOffset

theorem stopOpenBlocks_eq (info : ConvertInfo) : stopOpenBlocks info =
    (List.range (info.openTo - info.openFrom).toNat).map fun offset : Nat =>
      .contentBlockStop (info.openFrom + offset) := by
  unfold stopOpenBlocks ConvertInfo.openTo ConvertInfo.openFrom
  cases type : info.lastMessagesType with
  | none => simp
  | text | thinking => simp
  | tools =>
    have size : info.toolCallBaseIndex + info.toolCallMaxIndexOffset + 1 -
        info.toolCallBaseIndex = info.toolCallMaxIndexOffset + 1 := by omega
    simp [size]

theorem after_stopOpenBlocks (phases : Phases) (info : ConvertInfo) (i : Int) :
    after phases (stopOpenBlocks info) i = if info.openFrom ≤ i ∧ i < info.openTo then
      (phases i).step Block.fits .stop else phases i := by
  rw [stopOpenBlocks_eq, after_stops]
  congr 1
  simp only [eq_iff_iff]
  omega

section Stopped

variable (good : Good known info phases)

include good

theorem Good.stopped (i : Int) : (after phases (stopOpenBlocks info) i).Settled := by
  rw [after_stopOpenBlocks]
  split
  next within => exact .inr (good.opened i within.1 within.2).stop
  next outside =>
    rcases lt_or_ge i info.openFrom with before | not_before
    · exact good.settled i before
    · exact .inl (good.unused i (by omega))

theorem Good.stopped_unused (i : Int) (behind : info.openTo ≤ i) :
    after phases (stopOpenBlocks info) i = .unused := by
  rw [after_stopOpenBlocks, if_neg (by omega), good.unused i behind]

end Stopped

structure Clear (next : Int) (phases : Phases) : Prop where
  settled : ∀ i, (phases i).Settled
  unused : ∀ i, next ≤ i → phases i = .unused

theorem range_tools {info : ConvertInfo} (tools : info.lastMessagesType = .tools) :
    info.openFrom = info.toolCallBaseIndex ∧
      info.openTo = info.toolCallBaseIndex + info.toolCallMaxIndexOffset + 1 ∧
      info.lastCall = info.toolCallMaxIndexOffset := by
  simp [ConvertInfo.openFrom, ConvertInfo.openTo, ConvertInfo.lastCall, tools]

theorem Good.clear_of_none (good : Good known info phases) (idle : info.lastMessagesType = .none) :
    Clear info.index phases := by
  have from' : info.openFrom = info.index := by simp [ConvertInfo.openFrom, idle]
  have to' : info.openTo = info.index := by simp [ConvertInfo.openTo, idle]
  refine ⟨fun i => ?_, fun i behind => good.unused i (by omega)⟩
  rcases lt_or_ge i info.index with before | behind
  · exact good.settled i (by omega)
  · exact .inl (good.unused i (by omega))

theorem Good.advance (good : Good known info phases) :
    Clear (stopOpenBlocksAndAdvance info).2.index
      (after phases (stopOpenBlocksAndAdvance info).1) := by
  unfold stopOpenBlocksAndAdvance
  split
  next idle => exact good.clear_of_none idle
  all_goals
    rename_i type
    exact ⟨good.stopped, fun i behind => good.stopped_unused i
      (by simpa [ConvertInfo.openTo, type] using behind)⟩

structure Speech (type : LastMessageType) (block : Block) (delta : BlockDelta) : Prop where
  single : type = .text ∨ type = .thinking
  opened : type.Opened (.opened block)
  fits : block.fits delta

theorem Speech.only (speech : Speech type block delta) {phase : Phase Block}
    (opened : type.Opened phase) :
    phase = .opened block := by
  obtain ⟨rfl | rfl, same, -⟩ := speech
  · exact opened.trans same.symm
  · exact opened.trans same.symm

theorem Speech.of_text (text : String) : Speech .text .text (.textDelta text) :=
  ⟨.inl rfl, rfl, rfl⟩

theorem Speech.of_thinking (text : String) : Speech .thinking .thinking (.thinkingDelta text) :=
  ⟨.inr rfl, rfl, rfl⟩

theorem Speech.range {info : ConvertInfo} (speech : Speech type block delta)
    (same : info.lastMessagesType = type) :
    info.openFrom = info.index ∧ info.openTo = info.index + 1 ∧ info.lastCall = -1 := by
  obtain ⟨rfl | rfl, -, -⟩ := speech <;>
    simp [ConvertInfo.openFrom, ConvertInfo.openTo, ConvertInfo.lastCall, same]

theorem Good.of_speech (speech : Speech type block delta) (same : info.lastMessagesType = type)
    (count : 0 ≤ known) (settled : ∀ i < info.index, (phases i).Settled)
    (opened : phases info.index = .opened block) (unused : ∀ i > info.index, phases i = .unused) :
    Good known info phases := by
  obtain ⟨first, last, calls⟩ := speech.range same
  refine ⟨fun i before => settled i (by omega), fun i above below => ?_,
    fun i behind => unused i (by omega), by omega, fun tools => ?_⟩
  · rw [show i = info.index by omega, opened, same]
    exact speech.opened
  · obtain ⟨rfl | rfl, -, -⟩ := speech <;> simp [tools] at same

theorem Good.lastCall_ge (good : Good known info phases) : -1 ≤ info.lastCall := by
  unfold ConvertInfo.lastCall
  split
  next tools => exact (by decide : (-1 : Int) ≤ 0).trans (good.calls tools)
  next => exact le_rfl

theorem Good.startBlock (good : Good known info phases) (speech : Speech type block delta)
    (other : info.lastMessagesType ≠ type) :
    Good known (startBlock type block delta info).2
      (after phases (startBlock type block delta info).1) := by
  have clear := good.advance
  have count : 0 ≤ known := by
    have := good.named
    have := good.lastCall_ge
    omega
  simp only [ClaudeStream.startBlock, changeType, if_pos other, after_append, after_start,
    after_delta, after_nil]
  generalize after phases (stopOpenBlocksAndAdvance info).1 = phases' at clear ⊢
  generalize (stopOpenBlocksAndAdvance info).2 = next at clear ⊢
  refine .of_speech speech rfl count (fun i before => ?_) ?_ (fun i behind => ?_)
  · have apart : i ≠ next.index := (show i < next.index from before).ne
    rw [Function.update_of_ne apart, Function.update_of_ne apart]
    exact clear.settled i
  · simp [clear.unused, Phase.step, speech.fits]
  · have above : next.index < i := behind
    rw [Function.update_of_ne above.ne', Function.update_of_ne above.ne']
    exact clear.unused i above.le

theorem Good.sendPiece (good : Good known info phases) (speech : Speech type block delta) :
    Good known (sendPiece type block delta info).2
      (after phases (sendPiece type block delta info).1) := by
  unfold ClaudeStream.sendPiece
  split
  next other => exact good.startBlock speech other
  next same =>
    -- The piece goes to the open block, which stays as it is.
    have type_eq : info.lastMessagesType = type := not_not.mp same
    obtain ⟨first, last, -⟩ := speech.range type_eq
    have opened := speech.only (type_eq ▸ good.opened info.index (by omega) (by omega))
    have kept : Function.update phases info.index
        ((phases info.index).step Block.fits (.fill delta)) = phases := by
      rw [opened, Phase.step, if_pos speech.fits, ← opened, Function.update_eq_self]
    simpa only [after_delta, after_nil, kept] using good

/-- How the upstream counts its calls: a call is named in its first fragment, under the next index,
and later fragments of it have no name. -/
def announce (known : Int) (call : Int × ToolCallResponse) : Option Int :=
  if call.2.name ≠ "" then
    if call.1 = known then some (known + 1) else none
  else if 0 ≤ call.1 ∧ call.1 < known then some known else none

theorem announce_cases (announced : announce known call = some known') :
    call.2.name ≠ "" ∧ call.1 = known ∧ known' = known + 1 ∨
      call.2.name = "" ∧ (0 ≤ call.1 ∧ call.1 < known) ∧ known' = known := by
  unfold announce at announced
  split_ifs at announced with named next old
  · exact .inl ⟨named, next, (some.inj announced).symm⟩
  · exact .inr ⟨not_not.mp named, old, (some.inj announced).symm⟩

def follow (last : Int) (call : Int × ToolCallResponse) : Option Int :=
  if call.1 ≤ last then some last
  else if call.1 = last + 1 ∧ call.2.name ≠ "" then some (last + 1) else none

structure Group (base last : Int) (phases : Phases) : Prop where
  settled : ∀ i < base, (phases i).Settled
  opened : ∀ i, base ≤ i → i ≤ base + last → LastMessageType.tools.Opened (phases i)
  unused : ∀ i > base + last, phases i = .unused
  calls : -1 ≤ last

theorem after_toolCall_unnamed (unnamed : call.2.name = "")
    (opened : LastMessageType.tools.Opened (phases (base + call.1))) :
    after phases (toolCallEvents base call) = phases := by
  obtain ⟨id, name, phase⟩ := opened
  by_cases empty : call.2.arguments = ""
  · simp [toolCallEvents, unnamed, empty]
  · have kept : (phases (base + call.1)).step Block.fits
        (.fill (.inputJsonDelta call.2.arguments)) = phases (base + call.1) := by
      rw [phase]
      rfl
    simp [toolCallEvents, unnamed, empty, kept]

theorem after_toolCall_named (named : call.2.name ≠ "")
    (unused : phases (base + call.1) = .unused) :
    after phases (toolCallEvents base call) =
      Function.update phases (base + call.1) (.opened (.toolUse call.2.id call.2.name)) := by
  by_cases empty : call.2.arguments = ""
  · simp [toolCallEvents, named, empty, unused, Phase.step]
  · simp [toolCallEvents, named, empty, unused, Phase.step, Block.fits]

theorem Group.follow {call : Int × ToolCallResponse} (group : Group base last phases)
    (named : last < known) (follows : follow last call = some last')
    (announced : announce known call = some known') :
    Group base last' (after phases (toolCallEvents base call)) ∧ last' < known' := by
  have calls := group.calls
  unfold ClaudeStream.follow at follows
  split_ifs at follows with old new
  · -- A fragment of a call of the group: it has no name, as a name would be for a later call.
    cases follows
    rcases announce_cases announced with ⟨-, rfl, -⟩ | ⟨unnamed, within, rfl⟩
    · omega
    · rw [after_toolCall_unnamed unnamed (group.opened _ (by omega) (by omega))]
      exact ⟨group, named⟩
  · cases follows
    rcases announce_cases announced with ⟨-, next, rfl⟩ | ⟨unnamed, -⟩
    · rw [after_toolCall_named new.2 (group.unused _ (by omega))]
      refine ⟨⟨fun i before => ?_, fun i above below => ?_, fun i behind => ?_, by omega⟩, by omega⟩
      · rw [Function.update_of_ne (by omega)]
        exact group.settled i before
      · by_cases here : i = base + call.1
        · rw [here, Function.update_self]
          exact ⟨_, _, rfl⟩
        · rw [Function.update_of_ne here]
          exact group.opened i above (by omega)
      · rw [Function.update_of_ne (by omega)]
        exact group.unused i (by omega)
    · exact absurd unnamed new.2

/-- The call `offset` has no block: nothing was sent for it, or something that cannot be right. -/
def Lost (base offset : Int) (phases : Phases) : Prop :=
  phases (base + offset) = .unused ∨ phases (base + offset) = .broken

theorem Lost.call {call : Int × ToolCallResponse} (lost : Lost base offset phases)
    (named : offset < known) (announced : announce known call = some known') :
    Lost base offset (after phases (toolCallEvents base call)) ∧ offset < known' := by
  by_cases same : call.1 = offset
  · rcases announce_cases announced with ⟨-, rfl, -⟩ | ⟨unnamed, -, rfl⟩
    · omega
    · refine ⟨?_, named⟩
      unfold Lost at *
      by_cases empty : call.2.arguments = ""
      · simpa [toolCallEvents, unnamed, empty] using lost
      · rcases lost with unused | broken
        · simp [toolCallEvents, unnamed, empty, same, unused, Phase.step]
        · exact .inr (after_broken broken _)
  · have kept : after phases (toolCallEvents base call) (base + offset) =
        phases (base + offset) := by
      unfold toolCallEvents
      split_ifs <;> simp [Function.update_of_ne (show base + offset ≠ base + call.1 by omega)]
    refine ⟨by rwa [Lost, kept], ?_⟩
    rcases announce_cases announced with ⟨-, -, rfl⟩ | ⟨-, -, rfl⟩ <;> omega

theorem Group.lost {call : Int × ToolCallResponse} (group : Group base last phases)
    (named : last < known) (strays : ClaudeStream.follow last call = none)
    (announced : announce known call = some known') :
    Lost base (last + 1) phases ∧ last + 1 < known ∧ last + 1 ≤ call.1 := by
  refine ⟨.inl (group.unused _ (by omega)), ?_⟩
  unfold ClaudeStream.follow at strays
  split_ifs at strays with old new
  rcases announce_cases announced with ⟨name, next, -⟩ | ⟨-, within, -⟩
  · have : call.1 ≠ last + 1 := fun next => new ⟨next, name⟩
    omega
  · omega

/-! All the calls of a chunk. -/

theorem maxOffset_cons (offset : Int) (call : Int × ToolCallResponse)
    (rest : List (Int × ToolCallResponse)) :
    maxOffset offset (call :: rest) = maxOffset (max offset call.1) rest := by
  have : (if call.1 > offset then call.1 else offset) = max offset call.1 := by
    split <;> omega
  simp [maxOffset, this]

variable {calls : List (Int × ToolCallResponse)}

/-- Where the calls of a chunk have come to: the last call of the open group, or none when the
stream is past repair. -/
def Tracked (base known offset : Int) (begun : Prop) (phases : Phases) : Option Int → Prop
  | some last => Group base last phases ∧ last < known ∧ offset = max last 0 ∧ (begun → 0 ≤ last)
  | none => (∃ i, phases i = .broken) ∨
      ∃ call, 0 ≤ call ∧ call ≤ offset ∧ call < known ∧ Lost base call phases

theorem Tracked.call {call : Int × ToolCallResponse}
    (tracked : Tracked base known offset begun phases state)
    (announced : announce known call = some known') :
    Tracked base known' (max offset call.1) True (after phases (toolCallEvents base call))
      (state.bind (follow · call)) := by
  cases state with
  | none =>
    rcases tracked with ⟨i, broken⟩ | ⟨lost, above, below, named, without⟩
    · exact .inl ⟨i, after_broken broken _⟩
    · obtain ⟨without, named⟩ := without.call named announced
      exact .inr ⟨lost, above, below.trans (le_max_left _ _), named, without⟩
  | some last =>
    obtain ⟨group, named, rfl, -⟩ := tracked
    have calls := group.calls
    have index : 0 ≤ call.1 := by
      rcases announce_cases announced with ⟨-, next, -⟩ | ⟨-, within, -⟩ <;> omega
    rw [bind_some]
    cases follows : follow last call with
    | some last' =>
      obtain ⟨group, named⟩ := group.follow named follows announced
      have reached : call.1 ≤ last' ∧ max (max last 0) call.1 = max last' 0 := by
        unfold follow at follows
        split_ifs at follows with old new <;> obtain rfl := some.inj follows <;> omega
      exact ⟨group, named, reached.2, fun _ => index.trans reached.1⟩
    | none =>
      -- From here on, no later call of the chunk can give the block its start.
      obtain ⟨lost, before, reached⟩ := group.lost named follows announced
      obtain ⟨lost, named⟩ := lost.call before announced
      exact .inr ⟨last + 1, by omega, by omega, named, lost⟩

theorem Tracked.all (tracked : Tracked base known offset begun phases state)
    (announced : calls.foldlM announce known = some known') :
    Tracked base known' (maxOffset offset calls) (begun ∨ calls ≠ [])
      (after phases (calls.flatMap (toolCallEvents base)))
      (state.bind fun last => calls.foldlM follow last) := by
  induction calls generalizing known phases offset begun state with
  | nil =>
    cases announced
    cases state <;> simpa [maxOffset] using tracked
  | cons call rest ih =>
    rw [foldlM_cons] at announced
    obtain ⟨known₁, one, announced⟩ := bind_eq_some_iff.mp announced
    have later := ih (tracked.call one) announced
    simpa [maxOffset_cons, Option.bind_assoc] using later

theorem Good.openTools (good : Good known info phases) :
    Group (openTools info).2.toolCallBaseIndex info.lastCall (after phases (openTools info).1) ∧
      (openTools info).2.toolCallMaxIndexOffset = max info.lastCall 0 ∧
      (openTools info).2.lastMessagesType = .tools := by
  unfold ClaudeStream.openTools
  split
  next other =>
    -- A new group starts behind everything that was sent, with no call in it.
    have clear := good.advance
    have call : info.lastCall = -1 := by simp [ConvertInfo.lastCall, other]
    dsimp only
    exact ⟨⟨fun i _ => clear.settled i, fun i _ _ => by omega,
      fun i behind => clear.unused i (by omega), by omega⟩, by omega, rfl⟩
  next same =>
    have tools : info.lastMessagesType = .tools := not_not.mp same
    have calls := good.calls tools
    obtain ⟨first, last, call⟩ := range_tools tools
    dsimp only
    refine ⟨⟨fun i before => good.settled i (by omega), fun i above below => ?_,
      fun i behind => good.unused i (by omega), by omega⟩, by omega, tools⟩
    rw [← tools]
    exact good.opened i (by omega) (by omega)

theorem Group.good (group : Group info.toolCallBaseIndex last phases) (named : last < known)
    (some_call : 0 ≤ last) (tools : info.lastMessagesType = .tools)
    (offset : info.toolCallMaxIndexOffset = last) : Good known info phases := by
  obtain ⟨first, behind, call⟩ := range_tools tools
  refine ⟨fun i before => group.settled i (by omega), fun i above below => ?_,
    fun i behind => group.unused i (by omega), by omega, fun _ => by omega⟩
  rw [tools]
  exact group.opened i (by omega) (by omega)

/-- The stream is past repair: a block is broken, or a call of the open group has no block, and will
be stopped without one. -/
def Doomed (known : Int) (info : ConvertInfo) (phases : Phases) : Prop :=
  (∃ i, phases i = .broken) ∨ info.lastMessagesType = .tools ∧
    ∃ call, 0 ≤ call ∧ call ≤ info.toolCallMaxIndexOffset ∧ call < known ∧
      Lost info.toolCallBaseIndex call phases

theorem Doomed.stopped (doomed : Doomed known info phases) :
    ∃ i, after phases (stopOpenBlocks info) i = .broken := by
  rcases doomed with ⟨i, broken⟩ | ⟨tools, call, above, below, -, lost⟩
  · exact ⟨i, after_broken broken _⟩
  · refine ⟨info.toolCallBaseIndex + call, ?_⟩
    rw [after_stopOpenBlocks, if_pos]
    · rcases lost with phase | phase <;> simp [phase, Phase.step]
    · obtain ⟨first, last, -⟩ := range_tools tools
      omega

theorem Doomed.advance (doomed : Doomed known info phases) :
    ∃ i, after phases (stopOpenBlocksAndAdvance info).1 i = .broken := by
  unfold stopOpenBlocksAndAdvance
  split
  next idle =>
    rcases doomed with broken | ⟨tools, -⟩
    · exact broken
    · simp [idle] at tools
  all_goals exact doomed.stopped

variable {toolCalls : List ToolCallResponse}

theorem Doomed.sendPiece (doomed : Doomed known info phases) (speech : Speech type block delta) :
    Doomed known (sendPiece type block delta info).2
      (after phases (sendPiece type block delta info).1) := by
  unfold ClaudeStream.sendPiece
  split
  next other =>
    obtain ⟨i, broken⟩ := doomed.advance
    refine .inl ⟨i, ?_⟩
    simp only [ClaudeStream.startBlock, changeType, if_pos other, after_append]
    exact after_broken broken _
  next same =>
    rcases doomed with ⟨i, broken⟩ | ⟨tools, -⟩
    · exact .inl ⟨i, after_broken broken _⟩
    · obtain ⟨rfl | rfl, -, -⟩ := speech <;> simp [tools] at same

/-- The blocks after chunks of which every call has found its block, or not. -/
def Standing : Bool → Int → ConvertInfo → Phases → Prop
  | true => Good
  | false => Doomed

section
variable (standing : Standing ok known info phases)
include standing

theorem Standing.openTools :
    (openTools info).2.lastMessagesType = .tools ∧
      Tracked (openTools info).2.toolCallBaseIndex known (openTools info).2.toolCallMaxIndexOffset
        False (after phases (openTools info).1) (if ok then some info.lastCall else none) := by
  cases ok with
  | true =>
    obtain ⟨group, offset, tools⟩ := Good.openTools standing
    exact ⟨tools, group, Good.named standing, offset, False.elim⟩
  | false =>
    by_cases tools : info.lastMessagesType = .tools
    · have same : ClaudeStream.openTools info = ([], info) := by
        simp [ClaudeStream.openTools, tools]
      rw [same]
      exact ⟨tools, Or.imp_right And.right standing⟩
    · have advanced := Doomed.advance standing
      simp only [ClaudeStream.openTools, ne_eq, tools, not_false_eq_true, if_true, true_and]
      exact .inl advanced

theorem Standing.sendToolCalls (some_call : toolCalls ≠ [])
    (announced : (withOffset toolCalls).foldlM announce known = some known') :
    Standing (ok && ((withOffset toolCalls).foldlM follow info.lastCall).isSome) known'
      (sendToolCalls toolCalls info).2 (after phases (sendToolCalls toolCalls info).1) := by
  obtain ⟨tools, tracked⟩ := standing.openTools
  have sent := tracked.all announced
  simp only [ClaudeStream.sendToolCalls, after_append]
  cases ok with
  | false => exact sent.imp_right fun lost => ⟨tools, lost⟩
  | true =>
    cases follows : (withOffset toolCalls).foldlM follow info.lastCall with
    | none =>
      simp only [follows, if_true, bind_some] at sent
      exact sent.imp_right fun lost => ⟨tools, lost⟩
    | some last =>
      simp only [follows, if_true, bind_some] at sent
      obtain ⟨group, named, offset, nonneg⟩ := sent
      have call := nonneg (.inr (by simpa [withOffset] using some_call))
      exact Group.good group named call tools (offset.trans (max_eq_left call))

theorem Standing.sendPiece (speech : Speech type block delta) :
    Standing ok known (sendPiece type block delta info).2
      (after phases (sendPiece type block delta info).1) := by
  cases ok with
  | false => exact Doomed.sendPiece standing speech
  | true => exact Good.sendPiece standing speech

theorem Standing.sendDelta
    (announced : (withOffset delta.toolCalls).foldlM announce known = some known') :
    Standing (ok && ((withOffset delta.toolCalls).foldlM follow info.lastCall).isSome) known'
      (sendDelta delta info).2 (after phases (sendDelta delta info).1) := by
  unfold ClaudeStream.sendDelta
  split
  next some_call => exact standing.sendToolCalls some_call announced
  next no_call =>
    have none : withOffset delta.toolCalls = [] := by simp [not_not.mp no_call, withOffset]
    rw [none] at announced ⊢
    cases announced
    rw [foldlM_nil, Option.pure_def, isSome_some, Bool.and_true]
    split_ifs
    · exact standing.sendPiece (.of_thinking _)
    · exact standing.sendPiece (.of_text _)
    · exact standing

end

structure SameBlocks (info info' : ConvertInfo) : Prop where
  type : info'.lastMessagesType = info.lastMessagesType
  index : info'.index = info.index
  base : info'.toolCallBaseIndex = info.toolCallBaseIndex
  offset : info'.toolCallMaxIndexOffset = info.toolCallMaxIndexOffset

section SameBlocks

variable {info' : ConvertInfo} (same : SameBlocks info info')

include same

theorem SameBlocks.lastCall : info'.lastCall = info.lastCall := by
  simp only [ConvertInfo.lastCall, same.type, same.offset]

theorem SameBlocks.standing (standing : Standing ok known info phases) :
    Standing ok known info' phases := by
  obtain ⟨_, _, _, _, _, _, _, _, _⟩ := info
  obtain ⟨_, _, _, _, _, _, _, _, _⟩ := info'
  obtain ⟨type, index, base, offset⟩ := same
  cases type
  cases index
  cases base
  cases offset
  cases ok with
  | false => exact standing
  | true =>
    exact ⟨standing.settled, standing.opened, standing.unused, standing.named, standing.calls⟩

end SameBlocks

theorem Standing.mono (standing : Standing ok known info phases) (more : known ≤ known') :
    Standing ok known' info phases := by
  cases ok with
  | true => exact { standing with named := standing.named.trans_le more }
  | false =>
    rcases standing with broken | ⟨tools, call, above, below, named, lost⟩
    · exact .inl broken
    · exact .inr ⟨tools, call, above, below, named.trans_le more, lost⟩

theorem le_of_announced (announced : calls.foldlM announce known = some known') :
    known ≤ known' := by
  induction calls generalizing known with
  | nil => exact (some.inj announced).le
  | cons call rest ih =>
    rw [foldlM_cons] at announced
    obtain ⟨known₁, one, announced⟩ := bind_eq_some_iff.mp announced
    refine le_trans ?_ (ih announced)
    rcases announce_cases one with ⟨-, -, rfl⟩ | ⟨-, -, rfl⟩ <;> omega

def OnBlocks (events : List Event) : Prop := ∀ event ∈ events, event.onBlock.isSome

theorem OnBlocks.append (first : OnBlocks before) (second : OnBlocks rest) :
    OnBlocks (before ++ rest) :=
  forall_mem_append.mpr ⟨first, second⟩

theorem onBlocks_nil : OnBlocks [] := by simp [OnBlocks]

/-- Only the blocks of the message have gone on. -/
structure Sends (info : ConvertInfo) (out : List Event × ConvertInfo) : Prop where
  same : SameMessage info out.2
  blocks : OnBlocks out.1

variable (info : ConvertInfo)

theorem Sends.nil : Sends info ([], info) := ⟨.refl info, onBlocks_nil⟩

theorem stopOpenBlocks_onBlocks : OnBlocks (stopOpenBlocks info) := by
  rw [stopOpenBlocks_eq]
  simp [OnBlocks, Event.onBlock]

theorem stopOpenBlocksAndAdvance_sends : Sends info (stopOpenBlocksAndAdvance info) := by
  unfold stopOpenBlocksAndAdvance
  split
  · exact .nil info
  all_goals exact ⟨⟨rfl, rfl, rfl⟩, stopOpenBlocks_onBlocks info⟩

theorem startBlock_sends (type : LastMessageType) (block : Block) (delta : BlockDelta) :
    Sends info (startBlock type block delta info) := by
  have change : Sends info (changeType type info) := by
    unfold changeType
    split
    · exact stopOpenBlocksAndAdvance_sends info
    · exact .nil info
  exact ⟨change.same.trans ⟨rfl, rfl, rfl⟩,
    change.blocks.append (by simp [OnBlocks, Event.onBlock])⟩

theorem firstToolCall_sends (chunk : Chunk) : Sends info (firstToolCall chunk info) := by
  unfold firstToolCall
  split
  · exact .nil info
  · refine ⟨⟨rfl, rfl, rfl⟩, ?_⟩
    split_ifs <;> simp [OnBlocks, Event.onBlock]

theorem firstContent_sends (delta : ChoiceDelta) : Sends info (firstContent delta info) := by
  unfold firstContent
  split_ifs
  · exact startBlock_sends ..
  · exact startBlock_sends ..
  · exact .nil info

theorem sendToolCalls_sends (toolCalls : List ToolCallResponse) :
    Sends info (sendToolCalls toolCalls info) := by
  have opened : Sends info (openTools info) := by
    unfold openTools
    split
    · have stops := stopOpenBlocksAndAdvance_sends info
      exact ⟨stops.same.trans ⟨rfl, rfl, rfl⟩, stops.blocks⟩
    · exact .nil info
  refine ⟨opened.same.trans ⟨rfl, rfl, rfl⟩, opened.blocks.append ?_⟩
  refine forall_mem_flatMap.mpr fun call _ => ?_
  unfold toolCallEvents
  split_ifs <;> simp [Event.onBlock]

theorem sendPiece_sends (type : LastMessageType) (block : Block) (delta : BlockDelta) :
    Sends info (sendPiece type block delta info) := by
  unfold sendPiece
  split
  · exact startBlock_sends ..
  · exact ⟨.refl info, by simp [OnBlocks, Event.onBlock]⟩

theorem sendDelta_sends (delta : ChoiceDelta) : Sends info (sendDelta delta info) := by
  unfold sendDelta
  split_ifs
  · exact sendToolCalls_sends ..
  · exact sendPiece_sends ..
  · exact sendPiece_sends ..
  · exact .nil info

theorem streamResponse_count (chunk : Chunk) :
    (streamResponseOpenAI2Claude chunk info).2.sendResponseCount = info.sendResponseCount := by
  unfold streamResponseOpenAI2Claude
  split_ifs
  · rfl
  · unfold firstResponse
    have calls := (firstToolCall_sends info chunk).same
    split
    · exact calls.count
    · dsimp only
      split <;> exact (calls.trans (firstContent_sends ..).same).count
  · unfold laterResponse usageResponse choiceResponse
    split
    · split <;> rfl
    · dsimp only
      split_ifs
      · exact (recordFinish_same ..).count
      all_goals exact ((recordFinish_same ..).trans (sendDelta_sends ..).same).count

theorem handleStreamFormat_count (chunk : Chunk) :
    (handleStreamFormat chunk info).2.sendResponseCount = info.sendResponseCount + 1 := by
  rw [handleStreamFormat_eq, streamResponse_count]
  rfl

end EastApi.ClaudeStream
