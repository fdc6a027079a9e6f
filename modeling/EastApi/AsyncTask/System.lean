import EastApi.AsyncTask.Model
import EastApi.Lib.Run

/-! One stored task and the workers of all nodes that act on it: pollers, timeout sweeps and the
realtime fetches of users.  Every action is one statement of one worker, so the actions of different
workers interleave at will. -/

namespace EastApi.AsyncTask

/-- The query with which a worker loaded its copy. -/
inductive Loader
  | poll | sweep | realtime
deriving DecidableEq, Repr

inductive Phase
  | idle
  /-- The worker holds a copy that it has not handled yet. -/
  | holding (loader : Loader) (task : Task)
  /-- The Suno poller is about to save its copy. -/
  | saving (task : Task)
  /-- The worker is about to make a billing call for its copy. -/
  | billing (loader : Loader) (task : Task) (call : BillingCall)
  /-- The poller has handled its copy and keeps it until its round is over. -/
  | handled (task : Task)
deriving DecidableEq, Repr

structure Config where
  serverAddress : String
  timeoutMinutes : Int
  marshal : String → List UInt8

/-- The stored row, the workers, the workers that saw `won = true` on a write of `SUCCESS` or
`FAILURE`, and the billing calls made so far, each with the copy it was made for. -/
structure Sys (ω : Type) where
  row : Task
  phase : ω → Phase
  wins : List ω
  calls : List (BillingCall × Task)

def Sys.refunds {ω : Type} (s : Sys ω) : List (Funding × Int) := s.calls.filterMap refundOf

inductive Action (ω : Type)
  | load (w : ω) (loader : Loader) (now : Int)
  | video (w : ω) (body : Option VideoBody) (now : Int)
  | sweep (w : ω) (now : Int)
  | realtime (w : ω) (answer : Option TaskInfo)
  | sunoItem (w : ω) (item : SunoItem)
  | sunoSave (w : ω)
  | bulkNull (w : ω)
  | bulkChannel (w : ω)
  | bill (w : ω)
  /-- The upstream id of a handled copy is listed again in the same round. -/
  | again (w : ω)
  | release (w : ω)

/-- What one write of `updateVideoSingleTask` leaves: the row, whether the worker saw `won = true`
on a transition into `SUCCESS` or `FAILURE`, and the billing call that is still to be made. -/
structure VideoWrite where
  row : Task
  won : Bool
  billing : Option BillingCall

/-- The write of `updateVideoSingleTask`.  Only a write that changes the status to a final one gates
the billing on its outcome; the other writes ignore it. -/
def writeVideo (row copy new : Task) (billing : Option BillingCall) : VideoWrite :=
  if new.status.isDone ∧ copy.status ≠ new.status then
    let (row', won) := updateWithStatus row new copy.status
    ⟨row', won, if won then billing else none⟩
  else if copy.snapshot ≠ new.snapshot then
    ⟨(updateWithStatus row new copy.status).1, false, billing⟩
  else ⟨row, false, billing⟩

section
variable {ω : Type} [DecidableEq ω] (cfg : Config)

def Loader.selects (cfg : Config) (row : Task) (now : Int) : Loader → Bool
  | .poll => unfinished row
  | .sweep => 0 < cfg.timeoutMinutes && timedOut row (sweepCutoff cfg.timeoutMinutes now)
  | .realtime => true

def Phase.afterWrite (loader : Loader) (task : Task) : Option BillingCall → Phase
  | some call => .billing loader task call
  | none => match loader with
    | .poll => .handled task
    | _ => .idle

namespace Sys

def setPhase (s : Sys ω) (w : ω) (p : Phase) : Sys ω :=
  { s with phase := Function.update s.phase w p }

@[simp] theorem setPhase_row (s : Sys ω) (w : ω) (p : Phase) : (s.setPhase w p).row = s.row := rfl

@[simp] theorem setPhase_calls (s : Sys ω) (w : ω) (p : Phase) :
    (s.setPhase w p).calls = s.calls := by
  simp [setPhase]

@[simp] theorem setPhase_same (s : Sys ω) (w : ω) (p : Phase) : (s.setPhase w p).phase w = p := by
  simp [setPhase]

theorem setPhase_of_ne (s : Sys ω) (p : Phase) (h : v ≠ w) :
    (s.setPhase w p).phase v = s.phase v := by
  simp [setPhase, Function.update_of_ne h]

end Sys

def isVideo (t : Task) : Bool :=
  t.getUpstreamTaskID ≠ "" && t.platform ≠ platformSuno && t.platform ≠ platformMidjourney

def isSuno (t : Task) : Bool := t.getUpstreamTaskID ≠ "" && t.platform = platformSuno

def step (s : Sys ω) : Action ω → Option (Sys ω)
  | .load w loader now =>
    match s.phase w with
    | .idle => if loader.selects cfg s.row now then some (s.setPhase w (.holding loader s.row))
        else none
    | _ => none
  | .video w body now =>
    match s.phase w with
    | .holding .poll copy =>
      if isVideo copy then
        match readVideo cfg.serverAddress copy body now with
        | .stop task => some (s.setPhase w (.handled task))
        | .write new billing =>
          let written := writeVideo s.row copy new billing
          some ({ s with
            row := written.row
            wins := if written.won then w :: s.wins else s.wins }.setPhase w
              (.afterWrite .poll new written.billing))
      else none
    | _ => none
  | .sweep w now =>
    match s.phase w with
    | .holding .sweep copy =>
      let new := sweepTask cfg.timeoutMinutes copy now
      let (row', won) := updateWithStatus s.row new copy.status
      some ({ s with row := row', wins := if won then w :: s.wins else s.wins }.setPhase w
        (.afterWrite .sweep new (if won then sweepBilling copy else none)))
    | _ => none
  | .realtime w answer =>
    match s.phase w with
    | .holding .realtime copy =>
      match answer with
      | none => some (s.setPhase w .idle)
      | some ti =>
        let new := realtimeTask cfg.serverAddress copy ti
        let row' := if copy.snapshot ≠ new.snapshot then
            (updateWithStatus s.row new copy.status).1 else s.row
        some ({ s with row := row' }.setPhase w .idle)
    | _ => none
  | .sunoItem w item =>
    match s.phase w with
    | .holding .poll copy =>
      if isSuno copy then
        if taskNeedsUpdate cfg.marshal copy item then
          let new := sunoTask copy item
          -- the refund is made before the copy is saved, and without a compare-and-set
          some ({ s with calls := if item.fails copy then
              s.calls ++ [(BillingCall.refund, new)] else s.calls }.setPhase w (.saving new))
        else some (s.setPhase w (.handled copy))
      else none
    | _ => none
  | .sunoSave w =>
    match s.phase w with
    | .saving task => some ({ s with row := task }.setPhase w (.handled task))
    | _ => none
  | .bulkNull w =>
    match s.phase w with
    | .holding .poll copy =>
      if copy.getUpstreamTaskID = "" then
        some ({ s with row := bulkNullTask s.row }.setPhase w .idle)
      else none
    | _ => none
  | .bulkChannel w =>
    match s.phase w with
    | .holding .poll copy =>
      if isVideo copy || isSuno copy then
        some ({ s with row := bulkChannelTask s.row copy.channelId }.setPhase w .idle)
      else none
    | _ => none
  | .bill w =>
    match s.phase w with
    | .billing loader task call =>
      some ({ s with calls := s.calls ++ [(call, task)] }.setPhase w (.afterWrite loader task none))
    | _ => none
  | .again w =>
    match s.phase w with
    | .handled task => some (s.setPhase w (.holding .poll task))
    | _ => none
  | .release w =>
    match s.phase w with
    | .holding _ _ | .handled _ => some (s.setPhase w .idle)
    | _ => none

/-- The actions and what each of them does, one constructor for each way that `step` succeeds. -/
inductive Effect (s : Sys ω) : Action ω → Sys ω → Prop
  | load {w loader now} (idle : s.phase w = .idle) (sel : loader.selects cfg s.row now = true) :
      Effect s (.load w loader now) (s.setPhase w (.holding loader s.row))
  | videoStop {w body now copy task} (hold : s.phase w = .holding .poll copy)
      (video : isVideo copy = true)
      (read : readVideo cfg.serverAddress copy body now = .stop task) :
      Effect s (.video w body now) (s.setPhase w (.handled task))
  | video {w body now copy new billing} (hold : s.phase w = .holding .poll copy)
      (video : isVideo copy = true)
      (read : readVideo cfg.serverAddress copy body now = .write new billing) :
      Effect s (.video w body now)
        ({ s with
          row := (writeVideo s.row copy new billing).row
          wins := if (writeVideo s.row copy new billing).won then w :: s.wins else s.wins }.setPhase
          w (.afterWrite .poll new (writeVideo s.row copy new billing).billing))
  | sweepWon {w now copy} (hold : s.phase w = .holding .sweep copy)
      (same : s.row.status = copy.status) :
      Effect s (.sweep w now)
        ({ s with row := sweepTask cfg.timeoutMinutes copy now, wins := w :: s.wins }.setPhase w
          (.afterWrite .sweep (sweepTask cfg.timeoutMinutes copy now) (sweepBilling copy)))
  | sweepLost {w now copy} (hold : s.phase w = .holding .sweep copy)
      (other : s.row.status ≠ copy.status) : Effect s (.sweep w now) (s.setPhase w .idle)
  | realtimeStop {w copy} (hold : s.phase w = .holding .realtime copy) :
      Effect s (.realtime w none) (s.setPhase w .idle)
  | realtimeWon {w ti copy} (hold : s.phase w = .holding .realtime copy)
      (same : s.row.status = copy.status) :
      Effect s (.realtime w (some ti))
        ({ s with row := realtimeTask cfg.serverAddress copy ti }.setPhase w .idle)
  | realtimeLost {w ti copy} (hold : s.phase w = .holding .realtime copy)
      (none : s.row.status ≠ copy.status ∨
        copy.snapshot = (realtimeTask cfg.serverAddress copy ti).snapshot) :
      Effect s (.realtime w (some ti)) (s.setPhase w .idle)
  | sunoSkip {w item copy} (hold : s.phase w = .holding .poll copy) (suno : isSuno copy = true) :
      Effect s (.sunoItem w item) (s.setPhase w (.handled copy))
  | sunoItem {w item copy} (hold : s.phase w = .holding .poll copy) (suno : isSuno copy = true) :
      Effect s (.sunoItem w item)
        ({ s with calls := if item.fails copy then
            s.calls ++ [(BillingCall.refund, sunoTask copy item)] else s.calls }.setPhase w
          (.saving (sunoTask copy item)))
  | sunoSave {w task} (save : s.phase w = .saving task) :
      Effect s (.sunoSave w) ({ s with row := task }.setPhase w (.handled task))
  | bulkNull {w copy} (hold : s.phase w = .holding .poll copy)
      (empty : copy.getUpstreamTaskID = "") :
      Effect s (.bulkNull w) ({ s with row := bulkNullTask s.row }.setPhase w .idle)
  | bulkChannel {w copy} (hold : s.phase w = .holding .poll copy) :
      Effect s (.bulkChannel w)
        ({ s with row := bulkChannelTask s.row copy.channelId }.setPhase w .idle)
  | bill {w loader task call} (owed : s.phase w = .billing loader task call) :
      Effect s (.bill w)
        ({ s with calls := s.calls ++ [(call, task)] }.setPhase w (.afterWrite loader task none))
  | again {w task} (done : s.phase w = .handled task) :
      Effect s (.again w) (s.setPhase w (.holding .poll task))
  | release {w} (keeps : (∃ loader task, s.phase w = .holding loader task) ∨
        ∃ task, s.phase w = .handled task) :
      Effect s (.release w) (s.setPhase w .idle)

theorem step_effect {s t : Sys ω} (h : step cfg s a = some t) : Effect cfg s a t := by
  revert h
  fun_cases step cfg s a <;> intro h <;> cases h
  next idle sel => exact .load idle sel
  next hold video _ read => exact .videoStop hold video read
  next hold video _ _ read _ => exact .video hold video read
  next hold _ _ _ wrote =>
    simp only [updateWithStatus] at wrote
    split at wrote <;> cases wrote
    · exact .sweepWon hold ‹_›
    · exact .sweepLost hold ‹_›
  next hold => exact .realtimeStop hold
  next hold _ _ row' =>
    simp only [row', updateWithStatus]
    split_ifs with changed same
    · exact .realtimeWon hold same
    · exact .realtimeLost hold (.inl same)
    · exact .realtimeLost hold (.inr (not_not.mp changed))
  next hold suno _ _ => exact .sunoItem hold suno
  next hold suno _ => exact .sunoSkip hold suno
  next save => exact .sunoSave save
  next hold empty => exact .bulkNull hold empty
  next hold _ => exact .bulkChannel hold
  next owed => exact .bill owed
  next done => exact .again done
  next keeps => exact .release (.inl ⟨_, _, keeps⟩)
  next keeps => exact .release (.inr ⟨_, keeps⟩)

def Sys.start (row : Task) : Sys ω where
  row := row
  phase := fun _ => .idle
  wins := []
  calls := []

end

end EastApi.AsyncTask
