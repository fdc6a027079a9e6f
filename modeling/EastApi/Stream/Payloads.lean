import EastApi.Stream.Scanner

/-! What the scanner of `StreamScannerHandler` passes on to `dataChan`, against the payloads of the
`data:` lines before the first terminator.  A bare `[DONE]` line meets the test of its first six
bytes and then loses five of them, so that `]` is passed on and the scan goes on. -/

namespace EastApi.Stream

open Go Run List

def payload (line : String) : String := trimSpace (String.ofList (line.toList.drop 5))

def isData (line : String) : Bool := hasPrefix line "data:"

def isBare (line : String) : Bool := hasPrefix line "[DONE]"

/-- A `data:` line whose payload ends the stream. -/
def endsData (line : String) : Bool := isData line && hasPrefix (payload line) "[DONE]"

/-- The payloads that a client of the stream expects. -/
def payloads (lines : List String) : List String :=
  (((lines.takeWhile fun line => !(isBare line || endsData line)).filter isData).map payload).filter
    (· ≠ "")

/-- What the loop over the lines passes on. -/
def scanned : List String → List String
  | [] => []
  | line :: lines =>
    match readLine line with
    | .skip => scanned lines
    | .data data => data :: scanned lines
    | .done => []

/-! ### The lines -/

theorem payload_of_short (short : len line < 6) : payload line = "" := by
  have size : line.toList.length ≤ len line := by
    rw [len, ← length_map]
    exact length_le_sum_of_one_le _ (forall_mem_map.mpr fun c _ => c.utf8Size_pos)
  rw [payload, drop_eq_nil_of_le (by omega)]
  rfl

/-- Five bytes or fewer leave no payload, so the first test of the source adds nothing. -/
theorem readLine_eq (line : String) : readLine line =
    if (isData line || isBare line) && payload line ≠ "" then
      if hasPrefix (payload line) "[DONE]" then .done else .data (payload line)
    else .skip := by
  have source : readLine line =
      if len line < 6 then .skip
      else if !isData line && !isBare line then .skip
      else if payload line = "" then .skip
      else if hasPrefix (payload line) "[DONE]" then .done
      else .data (payload line) := rfl
  rw [source]
  have := @payload_of_short line
  grind

theorem payload_bare (bare : isBare line = true) : payload line ≠ "" ∧
    hasPrefix (payload line) "[DONE]" = false := by
  obtain ⟨rest, shape⟩ := isPrefixOf_iff_prefix.mp bare
  have cut : (String.ofList (line.toList.drop 5)).toList = ']' :: rest := by simp [← shape]
  have solid : isSpace ']' = false := by decide
  refine ⟨trimSpace_ne_empty (by rw [cut]; exact mem_cons_self) solid, ?_⟩
  have trimmed : (payload line).toList <+: ']' :: rest := by
    rw [payload, trimSpace, String.toList_ofList, cut, dropWhile_cons_of_neg (by simp [solid])]
    exact rdropWhile_prefix isSpace _
  rw [Bool.eq_false_iff, hasPrefix, ne_eq, isPrefixOf_iff_prefix]
  intro start
  obtain ⟨more, whole⟩ := start.trans trimmed
  simp at whole

/-- The loop passes on the expected payloads exactly when no bare `[DONE]` line stands before the
first `data:` line that ends the stream. -/
theorem scanned_eq_iff (lines : List String) : scanned lines = payloads lines ↔
    ∀ line ∈ lines.takeWhile fun line => !endsData line, isBare line = false := by
  induction lines with
  | nil => simp [scanned, payloads]
  | cons line lines ih =>
    rw [scanned, readLine_eq, payloads, takeWhile_cons, takeWhile_cons]
    rw [payloads] at ih
    by_cases bare : isBare line = true
    · obtain ⟨solid, other⟩ := payload_bare bare
      simp [bare, solid, other, endsData]
    · have nothing : hasPrefix "" "[DONE]" = false := by decide
      by_cases data : isData line = true <;> by_cases empty : payload line = "" <;>
        by_cases last : hasPrefix (payload line) "[DONE]" = true <;> simp_all [endsData]

/-! ### The runs -/

/-- No step of the scanner that gives the stream up before its end. -/
def Label.reads : Label → Bool
  | .scanPanic | .checkStop | .checkCtx | .checkGone | .sendCtx | .sendStop => false
  | _ => true

namespace System

def passes (s : System) : Label → List String
  | .send =>
    match s.scanner with
    | .sending data => [data]
    | _ => []
  | _ => []

/-- What the scanner passes on to `dataChan` along the labels. -/
def passed (s : System) : List Label → List String
  | [] => []
  | a :: as => s.passes a ++ (s.step a).elim [] (passed · as)

/-- What the scanner has still to pass on. -/
def due (s : System) : List String :=
  match s.scanner with
  | .scanning => scanned s.lines
  | .checking line => scanned (line :: s.lines)
  | .sending data => data :: scanned s.lines
  | _ => []

theorem passes_due {s t : System} (reads : Label.reads a = true) (hs : s.step a = some t) :
    s.passes a ++ t.due = s.due := by
  revert hs
  fun_cases step s a <;> intro hs <;> try cases hs
  all_goals first
    | rfl
    | exact Bool.noConfusion reads
    | obtain ⟨_, -, rfl⟩ := of_take hs; rfl
    | obtain ⟨_, -, rfl⟩ := of_signal hs; rfl
    | skip
  case case46 sending =>
    obtain ⟨_, -, rfl⟩ := Option.map_eq_some_iff.mp hs
    simp [passes, due, sending]
  case case55 =>
    obtain ⟨_, -, rfl⟩ := of_signal hs
    simp [passes, due, *]
  all_goals simp [passes, due, scanned, *]

theorem passed_due (run : Path (fun _ a => Label.reads a = true) step s as t) :
    s.passed as ++ t.due = s.due := by
  induction run with
  | nil => simp [passed]
  | cons reads hs _ ih => simp [passed, hs, append_assoc, ih, passes_due reads hs]

end System

/-- For every list of lines and every run in which the scanner reaches its end without being
stopped: what it passes on is the payloads of the `data:` lines before the first terminator exactly
when no bare `[DONE]` line stands before the first `data:` line that ends the stream. -/
theorem passed_eq_payloads_iff (lines : List String) (pingEnabled : Bool) (labels : List Label)
    (s : System) (run : Path (fun _ a => Label.reads a = true) System.step
      (start lines pingEnabled) labels s) (ended : ¬ s.scanner.Running) :
    (start lines pingEnabled).passed labels = payloads lines ↔
      ∀ line ∈ lines.takeWhile fun line => !endsData line, isBare line = false := by
  have whole := System.passed_due run
  have nothing : s.due = [] := by
    rw [System.due]
    split <;> simp_all [Scanner.Running]
  rw [nothing, append_nil] at whole
  rw [whole]
  exact scanned_eq_iff lines

def oneLine : List Label := [.scan, .pass, .send]

theorem passed_eq_payloads_iff_done :
    (start ["data: a", "data: [DONE]"] true).passed (oneLine ++ [.scan, .pass]) = ["a"] ∧
      payloads ["data: a", "data: [DONE]"] = ["a"] := by
  have run : Path (fun _ a => Label.reads a = true) System.step
      (start ["data: a", "data: [DONE]"] true) (oneLine ++ [.scan, .pass]) _ :=
    .of_exec rfl (by decide)
  have iff := passed_eq_payloads_iff _ _ _ _ run id
  exact ⟨(iff.mpr (by decide)).trans (by decide), by decide⟩

/-- The bracket of a bare terminator is passed on, and so is what comes after it. -/
theorem bare_done_passed :
    ∃ s, exec System.step (start ["[DONE]", "data: a"] true) (oneLine ++ oneLine ++ [.scan]) =
        some s ∧ s.scanner = .closing ∧
      (start ["[DONE]", "data: a"] true).passed (oneLine ++ oneLine ++ [.scan]) = ["]", "a"] ∧
      payloads ["[DONE]", "data: a"] = [] :=
  ⟨_, rfl, rfl, by decide, by decide⟩

end EastApi.Stream
