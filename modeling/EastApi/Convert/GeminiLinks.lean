import EastApi.Convert.GeminiToOpenAI
import Mathlib.Data.List.Nodup

/-! The ids that `GeminiToOpenAIRequest` makes for tool calls and their results.  They are counted
anew in every content, and the results of a content stand before its calls. -/

namespace EastApi.Convert.GeminiToOpenAI

open Go List Nat

def GeminiPart.isBare (part : GeminiPart) : Bool :=
  part.text = "" && part.inlineData.isNone && part.fileData.isNone

def GeminiPart.calls (part : GeminiPart) : Bool := part.isBare && part.functionCall.isSome

def GeminiPart.answers (part : GeminiPart) : Bool :=
  part.isBare && part.functionCall.isNone && part.functionResponse.isSome

def callIds (messages : List Message) : List String :=
  messages.flatMap fun m => m.parseToolCalls.map (·.id)

/-- The ids of the calls differ, and the result with the number `j` has the id of the call with the
number `j`, which is in an earlier message. -/
def Linked (messages : List Message) : Prop :=
  (callIds messages).Nodup ∧ ∀ before m after, messages = before ++ m :: after → m.role = "tool" →
    (callIds before)[before.countP (·.role = "tool")]? = some m.toolCallId

def label (n : ℕ) : String := "call_" ++ toString n

theorem label_inj {m n : ℕ} : label m = label n ↔ m = n := by
  refine ⟨fun same => ?_, fun same => by rw [same]⟩
  have digits : toDigits 10 m = toDigits 10 n := by
    exact String.ofList_injective (by simpa [label, repr_eq_ofList_toDigits] using same)
  simpa [ofDigitChars_ten_toDigits] using congrArg (ofDigitChars 10 · 0) digits

def labels (n : ℕ) : List String := (List.range n).map fun i => label (i + 1)

structure Parts.Holds (start : List Message) (parts : List GeminiPart) (s : Parts) : Prop where
  results : ∃ added, s.messages = start ++ added ∧ (added = [] ↔ parts.any (·.answers) = false) ∧
    ∀ m ∈ added, m.role = "tool" ∧ m.toolCalls = none ∧
      ∃ n ≤ s.toolCalls.length, m.toolCallId = label n
  ids : s.toolCalls.map (·.id) = labels (parts.countP (·.calls))

variable {lib : Libraries} {start : List Message} {parts : List GeminiPart} {s : Parts}

theorem Parts.Holds.pass (h : s.Holds start parts) (call : part.calls = false)
    (answer : part.answers = false) :
    Parts.Holds start (parts ++ [part]) { s with mediaContents := media } := by
  obtain ⟨⟨added, same, none, each⟩, ids⟩ := h
  exact ⟨⟨added, same, by simp [none, answer], each⟩, by simp [ids, call]⟩

theorem Parts.Holds.addPart (h : s.Holds start parts) (part : GeminiPart) :
    (addPart lib s part).Holds start (parts ++ [part]) := by
  have count : s.toolCalls.length = parts.countP (·.calls) := by
    simpa [labels] using congrArg length h.ids
  unfold GeminiToOpenAI.addPart
  split
  · exact h.pass (by simp_all [GeminiPart.calls, GeminiPart.isBare])
      (by simp_all [GeminiPart.answers, GeminiPart.isBare])
  next text =>
    split
    iterate 2
      exact h.pass (by simp_all [GeminiPart.calls, GeminiPart.isBare])
        (by simp_all [GeminiPart.answers, GeminiPart.isBare])
    · obtain ⟨⟨added, same, none, each⟩, ids⟩ := h
      have call : part.calls = true := by simp_all [GeminiPart.calls, GeminiPart.isBare]
      have answer : part.answers = false := by simp_all [GeminiPart.answers]
      refine ⟨⟨added, same, by simp [none, answer], fun m member => ?_⟩, ?_⟩
      · obtain ⟨role, calls, n, le, id⟩ := each m member
        exact ⟨role, calls, n, by simp; omega, id⟩
      · simp [ids, call, count, labels, range_succ, label]
    · obtain ⟨⟨added, same, -, each⟩, ids⟩ := h
      have call : part.calls = false := by simp_all [GeminiPart.calls]
      have answer : part.answers = true := by
        simp_all [GeminiPart.answers, GeminiPart.isBare]
      refine ⟨⟨added ++ [_], by rw [same, append_assoc], by simp [answer],
        forall_mem_append.mpr ⟨each, ?_⟩⟩, by simp [ids, call]⟩
      exact forall_mem_singleton.mpr ⟨rfl, rfl, _, le_rfl, rfl⟩
    · exact h.pass (by simp_all [GeminiPart.calls]) (by simp_all [GeminiPart.answers])

theorem parts_hold (start : List Message) (parts : List GeminiPart) :
    (parts.foldl (addPart lib) { messages := start }).Holds start parts := by
  induction parts using reverseRecOn with
  | nil => exact ⟨⟨[], by simp⟩, rfl⟩
  | append_singleton parts part ih =>
    rw [foldl_append]
    exact ih.addPart part

structure Added (content : GeminiChatContent) (results own : List Message) : Prop where
  none_iff : results = [] ↔ content.parts.any (·.answers) = false
  result : ∀ m ∈ results, m.role = "tool" ∧ m.toolCalls = none ∧
    ∃ n ≤ content.parts.countP (·.calls), m.toolCallId = label n
  other : ∀ m ∈ own, m.role ≠ "tool"
  ids : callIds own = labels (content.parts.countP (·.calls))

theorem addContent_added (lib : Libraries) (start : List Message) (content : GeminiChatContent) :
    ∃ results own, addContent lib start content = start ++ (results ++ own) ∧
      Added content results own := by
  unfold addContent
  generalize made : content.parts.foldl (addPart lib) { messages := start } = s
  have holds : s.Holds start content.parts := made ▸ parts_hold start content.parts
  obtain ⟨⟨results, same, none, each⟩, ids⟩ := holds
  have count : s.toolCalls.length = content.parts.countP (·.calls) := by
    simpa [labels] using congrArg length ids
  rw [count] at each
  have role : (contentMessage (convertGeminiRoleToOpenAI content.role) s).role ≠ "tool" := by
    have role : convertGeminiRoleToOpenAI content.role ≠ "tool" := by
      unfold convertGeminiRoleToOpenAI
      split <;> decide
    unfold contentMessage
    split
    · exact role
    · split <;> exact role
  have calls : (contentMessage (convertGeminiRoleToOpenAI content.role) s).parseToolCalls =
      s.toolCalls := by
    unfold contentMessage
    split
    · rfl
    next empty =>
      rw [not_not.mp empty]
      split <;> rfl
  dsimp only
  split
  · refine ⟨results, [_], by rw [same, append_assoc], none, each, by simpa using role, ?_⟩
    simp [callIds, calls, ids]
  next silent =>
    have empty : s.toolCalls = [] := by
      by_contra some
      simp [contentMessage, some] at silent
    refine ⟨results, [], by rw [same, append_nil], none, each, by simp, ?_⟩
    simp [← ids, empty, callIds]

def GeminiChatContent.calls (content : GeminiChatContent) : Bool := content.parts.any (·.calls)

def GeminiChatContent.answers (content : GeminiChatContent) : Bool := content.parts.any (·.answers)

theorem callIds_append (before after : List Message) :
    callIds (before ++ after) = callIds before ++ callIds after :=
  flatMap_append ..

theorem callIds_results {content : GeminiChatContent} {results own : List Message}
    (added : Added content results own) : callIds results = [] := by
  refine flatMap_eq_nil_iff.mpr fun m member => ?_
  rw [Message.parseToolCalls, (added.result m member).2.1, map_nil]

def contentIds (contents : List GeminiChatContent) : List String :=
  contents.flatMap fun c => labels (c.parts.countP (·.calls))

theorem contents_added (lib : Libraries) (start : List Message)
    (contents : List GeminiChatContent) :
    ∃ added, contents.foldl (addContent lib) start = start ++ added ∧
      callIds added = contentIds contents ∧
      ((∀ c ∈ contents, c.answers = false) → ∀ m ∈ added, m.role ≠ "tool") := by
  induction contents generalizing start with
  | nil => exact ⟨[], by simp, rfl, by simp⟩
  | cons c rest ih =>
    obtain ⟨results, own, same, added⟩ := addContent_added lib start c
    obtain ⟨later, done, ids, other⟩ := ih (start ++ (results ++ own))
    refine ⟨results ++ own ++ later, ?_, ?_, fun silent => ?_⟩
    · rw [foldl_cons, same, done, append_assoc]
    · rw [callIds_append, callIds_append, callIds_results added, added.ids, ids, nil_append,
        contentIds, contentIds, flatMap_cons]
    · rw [forall_mem_cons] at silent
      rw [added.none_iff.mpr silent.1]
      exact forall_mem_append.mpr ⟨added.other, other silent.2⟩

theorem first_contentIds {contents : List GeminiChatContent} {id : String}
    (first : (contentIds contents)[0]? = some id) : id = label 1 := by
  induction contents with
  | nil => simp [contentIds] at first
  | cons c rest ih =>
    cases count : c.parts.countP (·.calls) with
    | zero => exact ih (by simpa [contentIds, count, labels] using first)
    | succ n => simpa [contentIds, count, labels, range_succ_eq_map, eq_comm] using first

theorem mem_labels {id : String} {n : ℕ} : id ∈ labels n ↔ ∃ k, 1 ≤ k ∧ k ≤ n ∧ id = label k := by
  simp only [labels, mem_map, mem_range]
  constructor
  · rintro ⟨i, less, rfl⟩
    exact ⟨i + 1, by omega, by omega, rfl⟩
  · rintro ⟨k, one, le, rfl⟩
    exact ⟨k - 1, by omega, by rw [Nat.sub_add_cancel one]⟩

theorem nodup_contentIds (contents : List GeminiChatContent) :
    (contentIds contents).Nodup ↔
      contents.Pairwise fun c c' => ¬ (c.calls = true ∧ c'.calls = true) := by
  have each (n : ℕ) : (labels n).Nodup :=
    List.Nodup.map (fun i j same => by simpa using label_inj.mp same) nodup_range
  have disjoint (m n : ℕ) : (labels m).Disjoint (labels n) ↔ ¬ (0 < m ∧ 0 < n) := by
    constructor
    · rintro apart ⟨left, right⟩
      exact apart (mem_labels.mpr ⟨1, le_rfl, left, rfl⟩) (mem_labels.mpr ⟨1, le_rfl, right, rfl⟩)
    · intro empty id left right
      obtain ⟨k, one, le, -⟩ := mem_labels.mp left
      obtain ⟨k', one', le', -⟩ := mem_labels.mp right
      exact empty ⟨by omega, by omega⟩
  rw [contentIds, nodup_flatMap, and_iff_right fun c _ => each _]
  refine List.Pairwise.iff fun c c' => (disjoint _ _).trans ?_
  simp only [countP_pos_iff, GeminiChatContent.calls, any_eq_true]

variable (plain : ∀ m ∈ front, m.role ≠ "tool") (uncalled : callIds front = [])

include plain uncalled

theorem linked_iff_of_silent {contents : List GeminiChatContent} {added : List Message}
    (ids : callIds added = contentIds contents) (other : ∀ m ∈ added, m.role ≠ "tool") :
    Linked (front ++ added) ↔
      contents.Pairwise fun c c' => ¬ (c.calls = true ∧ c'.calls = true) := by
  rw [Linked, callIds_append, uncalled, ids, nil_append, nodup_contentIds, and_iff_left]
  intro before m after same role
  have member : m ∈ front ++ added := by simp [same]
  rcases mem_append.mp member with early | late
  · exact absurd role (plain m early)
  · exact absurd role (other m late)

theorem not_linked_of_answer (before : List GeminiChatContent) (c : GeminiChatContent)
    (after : List GeminiChatContent) (silent : ∀ c ∈ before, c.answers = false)
    (answers : c.answers = true) :
    ¬ Linked (front ++ (before ++ c :: after).foldl (addContent lib) []) := by
  obtain ⟨early, done, ids, other⟩ := contents_added lib [] before
  rw [foldl_append, done, nil_append, foldl_cons]
  obtain ⟨results, own, same, added⟩ := addContent_added lib early c
  obtain ⟨late, rest, -, -⟩ := contents_added lib (early ++ (results ++ own)) after
  rw [same, rest]
  cases results with
  | nil =>
    rw [GeminiChatContent.answers, added.none_iff.mp rfl] at answers
    cases answers
  | cons m results =>
    rintro ⟨nodup, linked⟩
    obtain ⟨role, -, n, le, id⟩ := added.result m mem_cons_self
    have none : (front ++ early).countP (·.role = "tool") = 0 := by
      refine countP_eq_zero.mpr fun x member => ?_
      rcases mem_append.mp member with first | second
      · simpa using plain x first
      · simpa using other silent x second
    -- the first result has the id of the first call, which is `call_1`
    have first := linked (front ++ early) m (results ++ own ++ late) (by simp) role
    rw [none, callIds_append, uncalled, ids, nil_append] at first
    have one : n = 1 := label_inj.mp (id.symm.trans (first_contentIds first))
    -- so its content has made this id once more
    have again : m.toolCallId ∈ callIds own := by
      rw [added.ids, id]
      exact mem_labels.mpr ⟨n, by omega, le, rfl⟩
    have early : m.toolCallId ∈ callIds early := by
      rw [ids]
      exact mem_of_getElem? first
    rw [callIds_append, callIds_append, callIds_append, callIds_append, uncalled,
      callIds_results added, nil_append, nil_append, append_assoc] at nodup
    exact disjoint_of_nodup_append nodup early (mem_append_left _ again)

omit plain uncalled

/-- Calls and results are linked if and only if there are no results, and at most one content has
calls. -/
theorem tool_calls_linked_iff (lib : Libraries) (info : RelayInfo) (request : GeminiChatRequest)
    (r : GeneralOpenAIRequest) (converted : geminiToOpenAIRequest lib info request = .ok r) :
    Linked r.messages ↔ (∀ c ∈ request.contents, c.answers = false) ∧
      request.contents.Pairwise fun c c' => ¬ (c.calls = true ∧ c'.calls = true) := by
  obtain ⟨stop, -, rest⟩ := Result.bind_ok_iff.mp converted
  cases rest
  have plain : ∀ m ∈ (request.systemInstructions.map systemMessage).toList, m.role ≠ "tool" := by
    cases request.systemInstructions <;> simp [systemMessage]
  have uncalled : callIds (request.systemInstructions.map systemMessage).toList = [] := by
    cases request.systemInstructions <;> rfl
  by_cases silent : ∀ c ∈ request.contents, c.answers = false
  · obtain ⟨added, done, ids, other⟩ := contents_added lib [] request.contents
    rw [and_iff_right silent, done]
    exact linked_iff_of_silent plain uncalled ids (other silent)
  · refine iff_of_false ?_ fun both => silent both.1
    obtain ⟨c, found⟩ := Option.isSome_iff_exists.mp
      (find?_isSome.mpr (by simpa using silent) :
        (request.contents.find? (·.answers)).isSome = true)
    obtain ⟨answers, before, after, same, early⟩ := find?_eq_some_iff_append.mp found
    rw [same]
    exact not_linked_of_answer plain uncalled before c after (by simpa using early) answers

def exampleCall : GeminiChatContent where
  role := "model"
  parts := [{ functionCall := some ⟨"weather", .obj []⟩ }]

def exampleResponse : GeminiChatContent where
  role := "function"
  parts := [{ functionResponse := some none }]

/-- The result of `call_1` is sent with the id `call_0`, and the next call is `call_1` again. -/
theorem response_unlinked :
    ∃ r, geminiToOpenAIRequest emptyObjects ⟨"gemini-2.5-pro", false⟩
        { contents := [exampleCall, exampleResponse, exampleCall, exampleResponse] } = .ok r ∧
      callIds r.messages = ["call_1", "call_1"] ∧
      (r.messages.filter (·.role = "tool")).map (·.toolCallId) = ["call_0", "call_0"] :=
  ⟨_, rfl, by decide, by decide⟩

/-- A question, and two calls in one content. -/
def parallelCalls : GeminiChatRequest where
  contents := [{ role := "user", parts := [{ text := "Here and there?" }] },
    { role := "model", parts := [{ functionCall := some ⟨"weather", .obj []⟩ },
      { functionCall := some ⟨"time", .obj []⟩ }] }]

theorem tool_calls_linked_iff_parallel :
    ∃ r, geminiToOpenAIRequest emptyObjects ⟨"gemini-2.5-pro", false⟩ parallelCalls = .ok r ∧
      callIds r.messages = ["call_1", "call_2"] ∧ Linked r.messages :=
  ⟨_, rfl, by decide, (tool_calls_linked_iff emptyObjects _ parallelCalls _ rfl).mpr
    (by simp [GeminiChatContent.answers, GeminiChatContent.calls, parallelCalls,
      GeminiPart.answers, GeminiPart.calls])⟩

end EastApi.Convert.GeminiToOpenAI
