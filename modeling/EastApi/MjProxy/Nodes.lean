import EastApi.Lib.Run
import EastApi.MjProxy.Model

/-! One stored Midjourney task and the loops of any number of nodes on it.  The compare-and-set of
`UpdateWithStatus` compares the status only, and a refund may leave the status as it is.
`refundsOnFailure` is what the answers have to meet for the task to be refunded at most once. -/

namespace EastApi.MjProxy

open Run

inductive Phase
  | idle
  | holding (task : Midjourney)
  /-- The node has won the write of a failed task and is about to return its quota. -/
  | crediting (task : Midjourney)
deriving DecidableEq, Repr

def Phase.owes : Phase → Bool
  | .crediting _ => true
  | _ => false

structure Nodes (ω : Type) where
  row : Midjourney
  phase : ω → Phase
  credits : List Int

inductive NodeAction (ω : Type)
  | load (w : ω)
  | item (w : ω) (item : MidjourneyDto) (now : Int)
  | credit (w : ω)
  /-- A bulk write of `FAILURE`, for a missing channel. -/
  | bulk (w : ω) (reason : String)
  | release (w : ω)

section
variable {ω : Type} [DecidableEq ω] (marshal : List String → String)

def Nodes.setPhase (s : Nodes ω) (w : ω) (p : Phase) : Nodes ω :=
  { s with phase := Function.update s.phase w p }

def nodeStep (s : Nodes ω) : NodeAction ω → Option (Nodes ω)
  | .load w =>
    match s.phase w with
    | .idle => if s.row.progress ≠ progressDone ∧ s.row.mjId ≠ "" then
        some (s.setPhase w (.holding s.row)) else none
    | _ => none
  | .item w item now =>
    match s.phase w with
    | .holding task => if item.mjId = task.mjId then
        match handleItem marshal task item now with
        | none => some s
        | some (new, refund) =>
          if s.row.status = task.status then
            some ({ s with row := new }.setPhase w
              (if refund then .crediting new else .holding new))
          else some (s.setPhase w (.holding new))
        else none
    | _ => none
  | .credit w =>
    match s.phase w with
    | .crediting task =>
      some ({ s with credits := s.credits ++ [task.quota] }.setPhase w (.holding task))
    | _ => none
  | .bulk w reason =>
    match s.phase w with
    | .holding _ => some { s with row :=
        { s.row with status := .failure, progress := progressDone, failReason := reason } }
    | _ => none
  | .release w =>
    match s.phase w with
    | .holding _ => some (s.setPhase w .idle)
    | _ => none

/-- An answer that is read into a task finds it not failed yet, and fails it only with the status
`FAILURE`. -/
def refundsOnFailure (s : Nodes ω) : NodeAction ω → Prop
  | .item w item now => ∀ task, s.phase w = .holding task →
      checkMjTaskNeedUpdate marshal task (timeOut task item now) = true →
      task.status ≠ .failure ∧
        ((timeOut task item now).fails = true → (timeOut task item now).status = .failure)
  | _ => True

structure Once (s : Nodes ω) : Prop where
  before : s.row.status ≠ .failure → s.credits = [] ∧ ∀ w, (s.phase w).owes = false
  owed : ∀ w, (s.phase w).owes = true → s.credits = [] ∧ ∀ v, (s.phase v).owes = true → v = w
  most : s.credits.length ≤ 1

variable {marshal} {s t : Nodes ω} {w : ω}

theorem Nodes.owes_setPhase (s : Nodes ω) (w v : ω) (p : Phase) :
    ((s.setPhase w p).phase v).owes = if v = w then p.owes else (s.phase v).owes := by
  by_cases same : v = w
  · subst same
    simp [setPhase]
  · simp [setPhase, same]

theorem Once.setPhase (h : Once s) (was : (s.phase w).owes = false) (is : p.owes = false) :
    Once (s.setPhase w p) := by
  have owes : ∀ v, ((s.setPhase w p).phase v).owes = (s.phase v).owes := by
    intro v
    rw [s.owes_setPhase]
    split
    next same => rw [same, is, was]
    · rfl
  refine ⟨fun hrow => ?_, fun v hv => ?_, h.most⟩
  · obtain ⟨none, free⟩ := h.before hrow
    exact ⟨none, fun v => (owes v).trans (free v)⟩
  · obtain ⟨none, only⟩ := h.owed v (owes v ▸ hv)
    exact ⟨none, fun u hu => only u (owes u ▸ hu)⟩

theorem Once.won (h : Once s) (isOpen : s.row.status ≠ .failure)
    (failed : p.owes = true → new.status = .failure) :
    Once ({ s with row := new }.setPhase w p) := by
  obtain ⟨none, free⟩ := h.before isOpen
  have owes : ∀ v, (({ s with row := new }.setPhase w p).phase v).owes = true →
      v = w ∧ p.owes = true := by
    intro v hv
    rw [Nodes.owes_setPhase] at hv
    split at hv
    next same => exact ⟨same, hv⟩
    · rw [free v] at hv
      contradiction
  refine ⟨fun hrow => ⟨none, fun v => ?_⟩, fun v hv => ⟨none, fun u hu => ?_⟩, ?_⟩
  · by_contra hv
    exact hrow (failed (owes v (by simpa using hv)).2)
  · rw [(owes u hu).1, (owes v hv).1]
  · exact h.most

theorem Once.credit (h : Once s) (owed : s.phase w = .crediting task) :
    Once ({ s with credits := s.credits ++ [task.quota] }.setPhase w (.holding task)) := by
  have mine : (s.phase w).owes = true := by rw [owed]; rfl
  obtain ⟨none, only⟩ := h.owed w mine
  have free : ∀ v, (({ s with credits := s.credits ++ [task.quota] }.setPhase w
      (.holding task)).phase v).owes = false := by
    intro v
    rw [Nodes.owes_setPhase]
    split
    · rfl
    next other =>
      by_contra hv
      exact other (only v (by simpa using hv))
  refine ⟨fun hrow => ?_, fun v hv => ?_, ?_⟩
  · rw [(h.before hrow).2 w] at mine
    contradiction
  · rw [free v] at hv
    contradiction
  · simp [none, Nodes.setPhase]

theorem Once.step (h : Once s) (ok : refundsOnFailure marshal s a)
    (hs : nodeStep marshal s a = some t) : Once t := by
  revert hs
  fun_cases nodeStep marshal s a <;> intro hs <;> cases hs
  next idle _ => exact h.setPhase (by rw [idle]; rfl) rfl
  next => exact h
  next item now task hold _ new refund handled same =>
    have needed : checkMjTaskNeedUpdate marshal task (timeOut task item now) = true := by
      by_contra unneeded
      simp [handleItem, unneeded] at handled
    obtain ⟨-, status, returned⟩ := handleItem_some marshal handled
    obtain ⟨isOpen, failing⟩ := ok task hold needed
    refine h.won (same ▸ isOpen) fun owes => ?_
    cases refund with
    | false => contradiction
    | true => rw [status]; exact failing (returned rfl).2
  next hold _ _ _ _ _ => exact h.setPhase (by rw [hold]; rfl) rfl
  next owed => exact h.credit owed
  next => exact ⟨fun hrow => absurd rfl hrow, h.owed, h.most⟩
  next hold => exact h.setPhase (by rw [hold]; rfl) rfl

def Nodes.start (row : Midjourney) : Nodes ω where
  row := row
  phase := fun _ => .idle
  credits := []

/-- In every interleaving of the nodes whose answers all meet `refundsOnFailure`, the quota of the
task is returned at most once. -/
theorem refunded_at_most_once (row : Midjourney) (calls : List (NodeAction ω)) (t : Nodes ω)
    (run : Path (refundsOnFailure marshal) (nodeStep marshal) (Nodes.start row) calls t) :
    t.credits.length ≤ 1 := by
  have start : Once (Nodes.start (ω := ω) row) :=
    ⟨fun _ => ⟨rfl, fun _ => rfl⟩, fun w hw => by contradiction, Nat.zero_le 1⟩
  exact (run.invariant (fun _ _ _ h ok hs => h.step ok hs) start).most

end

def pollingTask : Midjourney where
  id := 1
  code := 1
  userId := 7
  action := .imagine
  mjId := "mj1"
  prompt := "a cat"
  description := ""
  submitTime := 0
  status := .other "IN_PROGRESS"
  progress := "50%"
  channelId := 3
  quota := 500

def twoNodes (status : MjStatus) : List (NodeAction Bool) :=
  [.load true, .load false,
   .item true { mjId := "mj1", status, progress := "50%", failReason := "banned" } 1000,
   .item false { mjId := "mj1", status, progress := "50%", failReason := "banned" } 1000,
   .credit true]

/-- The answer keeps the status `IN_PROGRESS`, so both nodes win the write and both refund. -/
theorem refunded_by_both_nodes :
    ∃ t : Nodes Bool, Free (nodeStep (fun _ => "")) (Nodes.start pollingTask)
        (twoNodes (.other "IN_PROGRESS") ++ [.credit false]) t ∧ t.credits = [500, 500] := by
  have ends : (exec (nodeStep (fun _ => "")) (Nodes.start pollingTask)
      (twoNodes (.other "IN_PROGRESS") ++ [.credit false])).map (·.credits) = some [500, 500] := by
    decide
  obtain ⟨t, run, credits⟩ := Option.map_eq_some_iff.mp ends
  exact ⟨t, Path.of_exec run (fun _ _ => trivial), credits⟩

/-- With the status `FAILURE`, only the first node wins. -/
theorem refunded_by_first_node :
    ∃ t : Nodes Bool, Path (refundsOnFailure (fun _ => "")) (nodeStep (fun _ => ""))
        (Nodes.start pollingTask) (twoNodes .failure) t ∧ t.credits.length ≤ 1 := by
  refine Path.exists_and (.cons trivial rfl (.cons trivial rfl (.cons (fun task hold _ => ?_) rfl
    (.cons (fun task hold _ => ?_) rfl (.cons trivial rfl (.nil _))))))
    (refunded_at_most_once pollingTask _ _)
  all_goals
    cases hold
    exact ⟨by decide, fun _ => rfl⟩

end EastApi.MjProxy
