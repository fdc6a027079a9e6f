import EastApi.ClaudeStream.Convert

/-! `sendStreamData` with `thinkToContent`: the reasoning of an OpenAI stream is sent as content,
between tags.  The flags of a `ThinkingContentInfo` say which tags have been sent. -/

namespace EastApi.Stream.Thinking

open ClaudeStream Go
open List hiding concat

structure ThinkingContentInfo where
  isFirstThinkingContent : Bool := true
  sendLastThinkingContent : Bool := false
  hasSentThinkingContent : Bool := false

/-- What the content of a choice is made of: `<think>\n`, `\n</think>\n`, and the texts of the
upstream. -/
inductive Piece
  | think | endThink
  | reasoning (text : String)
  | content (text : String)
  deriving DecidableEq

def Piece.isTag : Piece → Bool
  | .think | .endThink => true
  | _ => false

def Piece.text : Piece → String
  | .think => "<think>\n"
  | .endThink => "\n</think>\n"
  | .reasoning text | .content text => text

/-- The content of a choice whose reasoning, if it has any, has taken the content's place. -/
def piece (delta : ChoiceDelta) : Piece :=
  if delta.getReasoningContent ≠ "" then .reasoning delta.getReasoningContent
  else .content delta.getContentString

/-- The contents of the choices of the responses that are sent for a chunk. -/
def sendStreamData (info : ThinkingContentInfo) (choices : List ChoiceDelta) :
    ThinkingContentInfo × List (List (List Piece)) :=
  let hasThinkingContent := choices.any (·.getReasoningContent ≠ "")
  let hasContent := choices.any (·.getContentString ≠ "")
  let thinkingContent := concat (choices.map (·.getReasoningContent))
  if info.isFirstThinkingContent && hasThinkingContent then
    ({ info with isFirstThinkingContent := false, hasSentThinkingContent := true },
      [choices.map fun _ => [.think, .reasoning thinkingContent]])
  else
    -- the loop over the choices sends the tag at the first of them
    let closes := hasContent && !info.sendLastThinkingContent && info.hasSentThinkingContent
    let lastStreamResponse := choices.map fun delta => [piece delta]
    ({ info with sendLastThinkingContent := info.sendLastThinkingContent || closes },
      (if closes then [choices.map fun _ => [.endThink]] else []) ++ [lastStreamResponse])

/-- The content that a client puts together from a stream of chunks with one choice each. -/
def sent (info : ThinkingContentInfo) : List ChoiceDelta → List Piece
  | [] => []
  | delta :: deltas =>
    let (info, responses) := sendStreamData info [delta]
    responses.flatten.flatten ++ sent info deltas

/-- One opening tag at most, before reasoning, and then one closing tag before any content. -/
structure Balanced (pieces : List Piece) : Prop where
  once : pieces.count .think ≤ 1
  opens : ∀ a b, pieces = a ++ .think :: b → ∃ text rest, b = .reasoning text :: rest
  closes : .think ∈ pieces → pieces.count .endThink = 1 ∧
    ∀ text, .content text ∈ pieces.takeWhile (· ≠ .endThink) → text = ""

def thinking : ThinkingContentInfo := ⟨false, false, true⟩

/-! ### The three states of the flags -/

theorem sent_append (keeps : ∀ x ∈ a, sendStreamData info [x] = (info, [[[piece x]]]))
    (b : List ChoiceDelta) : sent info (a ++ b) = a.map piece ++ sent info b := by
  induction a with
  | nil => rfl
  | cons x a ih =>
    obtain ⟨first, rest⟩ := forall_mem_cons.mp keeps
    simp [sent, first, ih rest]

theorem sent_fresh {a : List ChoiceDelta} (silent : ∀ x ∈ a, x.getReasoningContent = "")
    (b : List ChoiceDelta) : sent {} (a ++ b) = a.map piece ++ sent {} b :=
  sent_append (fun x h => by simp [sendStreamData, silent x h]) b

theorem sent_opens (first : delta.getReasoningContent ≠ "") (b : List ChoiceDelta) :
    sent {} (delta :: b) = .think :: .reasoning delta.getReasoningContent :: sent thinking b := by
  simp [sent, sendStreamData, thinking, first]

theorem sent_thinking {a : List ChoiceDelta} (empty : ∀ x ∈ a, x.getContentString = "")
    (b : List ChoiceDelta) : sent thinking (a ++ b) = a.map piece ++ sent thinking b :=
  sent_append (fun x h => by simp [sendStreamData, thinking, empty x h]) b

theorem sent_closes (some : delta.getContentString ≠ "") (b : List ChoiceDelta) :
    sent thinking (delta :: b) = .endThink :: (delta :: b).map piece := by
  have closed : sent ⟨false, true, true⟩ (b ++ []) = b.map piece ++ sent ⟨false, true, true⟩ [] :=
    sent_append (fun x _ => by simp [sendStreamData]) []
  simp only [append_nil, sent] at closed
  simp [sent, sendStreamData, thinking, some, closed]

theorem untagged (info : ThinkingContentInfo) (deltas : List ChoiceDelta) :
    (sent info deltas).filter (!·.isTag) = deltas.map piece := by
  induction deltas generalizing info with
  | nil => rfl
  | cons delta deltas ih =>
    have text : (piece delta).isTag = false := by
      unfold piece
      split <;> rfl
    simp only [sent, sendStreamData]
    split_ifs <;> simp_all [Piece.isTag, piece]

theorem kept_iff (deltas : List ChoiceDelta) :
    concat (((sent {} deltas).filter (!·.isTag)).map Piece.text) =
        concat (deltas.map fun delta => delta.getReasoningContent ++ delta.getContentString) ↔
      ∀ delta ∈ deltas, delta.getReasoningContent = "" ∨ delta.getContentString = "" := by
  rw [untagged, map_map, concat_map_eq_iff]
  · refine forall₂_congr fun delta _ => ?_
    by_cases empty : delta.getReasoningContent = "" <;> simp [piece, empty, Piece.text]
    rw [← String.toList_inj, String.toList_append, self_eq_append_right, String.toList_eq_nil_iff]
  · intro delta _
    by_cases empty : delta.getReasoningContent = "" <;> simp [piece, empty, Piece.text]

theorem not_tag_mem (l : List ChoiceDelta) : .think ∉ l.map piece ∧ .endThink ∉ l.map piece := by
  simp only [mem_map, piece]
  grind

theorem content_mem_iff {l : List ChoiceDelta} : .content text ∈ l.map piece ↔
    ∃ delta ∈ l, delta.getReasoningContent = "" ∧ delta.getContentString = text := by
  rw [mem_map]
  refine exists_congr fun delta => and_congr_right fun _ => ?_
  by_cases empty : delta.getReasoningContent = "" <;> simp [piece, empty]

theorem takeWhile_pieces (l : List ChoiceDelta) (rest : List Piece) :
    (l.map piece ++ rest).takeWhile (· ≠ .endThink) =
      l.map piece ++ rest.takeWhile (· ≠ .endThink) :=
  takeWhile_append_of_pos fun _ member =>
    decide_eq_true (ne_of_mem_of_not_mem member (not_tag_mem l).2)

/-- After the opening tag the closing one is sent if content follows, and before that content. -/
theorem sent_thinking_closes (later : List ChoiceDelta) :
    .think ∉ sent thinking later ∧
    ((sent thinking later).count .endThink = 1 ↔ ∃ x ∈ later, x.getContentString ≠ "") ∧
    ∀ text, .content text ∈ (sent thinking later).takeWhile (· ≠ .endThink) → text = "" := by
  have quiet {l : List ChoiceDelta} (none : ∀ x ∈ l, x.getContentString = "") :
      ∀ text, .content text ∈ l.map piece → text = "" := by
    intro text member
    obtain ⟨x, hx, -, rfl⟩ := content_mem_iff.mp member
    exact none x hx
  have zero (l : List ChoiceDelta) : (l.map piece).count .endThink = 0 :=
    count_eq_zero_of_not_mem (not_tag_mem l).2
  cases found : later.find? (·.getContentString ≠ "") with
  | none =>
    have none : ∀ x ∈ later, x.getContentString = "" := by simpa using found
    have all := sent_thinking none []
    have taken := takeWhile_pieces later []
    simp only [append_nil, sent, takeWhile_nil] at all taken
    rw [all, taken, zero]
    exact ⟨(not_tag_mem later).1, by simpa using none, quiet none⟩
  | some delta =>
    obtain ⟨some, a, b, rfl, none⟩ := find?_eq_some_iff_append.mp found
    have none : ∀ x ∈ a, x.getContentString = "" := by simpa using none
    have some : delta.getContentString ≠ "" := by simpa using some
    rw [sent_thinking none, sent_closes some, takeWhile_pieces, count_append, zero,
      count_cons_self, zero]
    refine ⟨?_, iff_of_true rfl ⟨delta, by simp, some⟩, ?_⟩
    · rw [mem_append, mem_cons, not_or, not_or]
      exact ⟨(not_tag_mem a).1, nofun, (not_tag_mem _).1⟩
    · simpa using quiet none

/-- For every stream of chunks with one choice: the texts are kept and the tags are balanced exactly
when no chunk has both reasoning and content and, if there is reasoning, content follows it and none
comes before it. -/
theorem thinking_kept_iff (deltas : List ChoiceDelta) :
    concat (((sent {} deltas).filter (!·.isTag)).map Piece.text) =
        concat (deltas.map fun delta => delta.getReasoningContent ++ delta.getContentString) ∧
      Balanced (sent {} deltas) ↔
    (∀ delta ∈ deltas, delta.getReasoningContent = "" ∨ delta.getContentString = "") ∧
      ((∃ delta ∈ deltas, delta.getReasoningContent ≠ "") →
        (∃ delta ∈ deltas, delta.getContentString ≠ "") ∧
        ∀ delta ∈ deltas.takeWhile (·.getReasoningContent = ""), delta.getContentString = "") := by
  rw [kept_iff]
  refine and_congr_right fun apart => ?_
  cases found : deltas.find? (·.getReasoningContent ≠ "") with
  | none =>
    have none : ∀ x ∈ deltas, x.getReasoningContent = "" := by simpa using found
    have all := sent_fresh none []
    rw [append_nil, sent, append_nil] at all
    have never : .think ∉ sent {} deltas := all ▸ (not_tag_mem deltas).1
    refine iff_of_true ⟨?_, fun a b whole => ?_, fun opened => absurd opened never⟩ ?_
    · rw [count_eq_zero_of_not_mem never]
      exact Nat.zero_le 1
    · exact absurd (by simp [whole]) never
    · rintro ⟨delta, member, some⟩
      exact absurd (none delta member) some
  | some delta =>
    obtain ⟨first, a, b, rfl, silent⟩ := find?_eq_some_iff_append.mp found
    have silent : ∀ x ∈ a, x.getReasoningContent = "" := by simpa using silent
    have first : delta.getReasoningContent ≠ "" := by simpa using first
    have quiet := (apart delta (by simp)).resolve_left first
    have taken : (a ++ delta :: b).takeWhile (·.getReasoningContent = "") = a := by
      rw [takeWhile_append_of_pos (by simpa using silent),
        takeWhile_cons_of_neg (by simpa), append_nil]
    obtain ⟨once, closed, before⟩ := sent_thinking_closes b
    rw [taken, sent_fresh silent, sent_opens first]
    have count : (a.map piece ++ .think :: .reasoning delta.getReasoningContent ::
        sent thinking b).count .endThink = (sent thinking b).count .endThink := by
      rw [count_append, count_eq_zero_of_not_mem (not_tag_mem a).2]
      simp
    constructor
    · rintro ⟨-, -, closes⟩ -
      obtain ⟨one, early⟩ := closes (by simp)
      obtain ⟨x, member, some⟩ := closed.mp (count ▸ one)
      refine ⟨⟨x, by simp [member], some⟩, fun x member => early _ ?_⟩
      rw [takeWhile_pieces]
      exact mem_append_left _ (content_mem_iff.mpr ⟨x, member, silent x member, rfl⟩)
    · intro follows
      obtain ⟨⟨x, member, some⟩, empty⟩ := follows ⟨delta, by simp, first⟩
      have later : x ∈ b := by
        simp only [mem_append, mem_cons] at member
        grind
      refine ⟨?_, fun a' b' whole => ?_, fun _ => ⟨count ▸ closed.mpr ⟨x, later, some⟩, ?_⟩⟩
      · rw [count_append, count_eq_zero_of_not_mem (not_tag_mem a).1,
          count_cons_self, count_cons_of_ne (by simp), count_eq_zero_of_not_mem once]
      · have rest : .think ∉ .reasoning delta.getReasoningContent :: sent thinking b := by
          simp [once]
        obtain ⟨-, -, rfl⟩ := (append_cons_inj_of_notMem (not_tag_mem a).1 rest).mp whole
        exact ⟨_, _, rfl⟩
      · intro text member
        simp only [takeWhile_pieces, mem_append, content_mem_iff] at member
        rcases member with ⟨x, member, -, rfl⟩ | member
        · exact empty x member
        · exact before text (by simpa using member)

/-- The content of a chunk with reasoning is lost, and with it the closing tag. -/
theorem content_with_reasoning_lost :
    sent {} [⟨some "b", some "a", none, []⟩] = [.think, .reasoning "a"] := by
  decide

end EastApi.Stream.Thinking
