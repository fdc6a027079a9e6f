import EastApi.AsyncTask.SingleBilling

/-! When a final status stays.  A realtime fetch loads final tasks too, and the Suno save and the
bulk writes compare nothing.  `keepsFinal` is what their steps have to meet for `SUCCESS` and
`FAILURE` to be absorbing. -/

namespace EastApi.AsyncTask

open Run

variable {ω : Type} [DecidableEq ω]

/-- The step leaves a final status alone: a realtime answer for a task in the final status that it
was loaded in repeats that status or has none, an unguarded write of a final row repeats its
status, and no poller handles a copy again that is already final. -/
def keepsFinal (s : Sys ω) : Action ω → Prop
  | .video w _ _ => ∀ copy, s.phase w = .holding .poll copy → copy.status.isDone = false
  | .realtime w (some ti) => ∀ copy, s.phase w = .holding .realtime copy →
      s.row.status = copy.status → s.row.status.isDone = true →
      ti.status = "" ∨ TaskStatus.ofString ti.status = s.row.status
  | .sunoSave w => ∀ task, s.phase w = .saving task → s.row.status.isDone = true →
      task.status = s.row.status
  | .bulkNull _ | .bulkChannel _ => s.row.status ≠ .success
  | _ => True

def SweepsOpen (s : Sys ω) : Prop :=
  ∀ w copy, s.phase w = .holding .sweep copy → copy.status.isDone = false

theorem SweepsOpen.update (h : SweepsOpen s) {w : ω}
    (phase : t.phase = Function.update s.phase w p)
    (hp : ∀ copy, p = .holding .sweep copy → copy.status.isDone = false) : SweepsOpen t := by
  intro v copy hv
  rw [phase] at hv
  rcases Run.of_update_eq hv with ⟨-, own⟩ | ⟨-, other⟩
  · exact hp copy own
  · exact h v copy other

theorem afterWrite_ne_holding (loader l : Loader) (task copy : Task)
    (billing : Option BillingCall) :
    Phase.afterWrite loader task billing ≠ .holding l copy := by
  cases billing
  · cases loader <;> simp [Phase.afterWrite]
  · simp [Phase.afterWrite]

theorem SweepsOpen.step {s t : Sys ω} (h : SweepsOpen s) (hs : step cfg s a = some t) :
    SweepsOpen t := by
  cases step_effect cfg hs with
  | @load w loader now idle sel =>
    refine h.update rfl fun copy hp => ?_
    cases hp
    exact not_isDone_of_selects (by simp) sel
  | video | sweepWon | bill =>
    exact h.update rfl fun copy hp => absurd hp (afterWrite_ne_holding _ _ _ _ _)
  | _ => exact h.update rfl fun copy hp => by cases hp

theorem final_step {s t : Sys ω} (sweeps : SweepsOpen s) (ok : keepsFinal s a)
    (hs : step cfg s a = some t) (done : s.row.status.isDone = true) :
    t.row.status = s.row.status := by
  -- a copy of an unfinished task cannot match a final row
  have stale : ∀ copy : Task, copy.status.isDone = false → s.row.status ≠ copy.status := by
    intro copy isOpen same
    rw [same, isOpen] at done
    contradiction
  cases step_effect cfg hs with
  | @video w body now copy new billing hold _ read =>
    have isOpen := ok copy hold
    obtain ⟨-, billed⟩ := readVideo_write cfg.serverAddress read
    obtain lost | ⟨same, -⟩ := writeVideo_open s.row isOpen billed
    · simp [lost]
    · exact absurd same (stale copy isOpen)
  | sweepWon hold same => exact absurd same (stale _ (sweeps _ _ hold))
  | @realtimeWon w ti copy hold same =>
    rw [Sys.setPhase_row, realtimeTask_status]
    rcases ok copy hold same done with empty | equal
    · simp [empty, same]
    · split
      · exact equal
      · exact same.symm
  | sunoSave save => exact ok _ save done
  | bulkNull | bulkChannel =>
    have failed : s.row.status = .failure := by
      cases hst : s.row.status <;> simp_all [TaskStatus.isDone, keepsFinal]
    rw [failed]
    rfl
  | _ => rfl

/-- In every run whose steps all meet `keepsFinal`, a status `SUCCESS` or `FAILURE` that the row has
at any point is its status at every later point. -/
theorem final_status_absorbing (row : Task) (as bs : List (Action ω)) (s t : Sys ω)
    (before : Path keepsFinal (step cfg) (Sys.start row) as s)
    (after : Path keepsFinal (step cfg) s bs t) (done : s.row.status.isDone = true) :
    t.row.status = s.row.status := by
  have sweeps : SweepsOpen s :=
    before.invariant (fun _ _ _ hi _ hs => hi.step hs) fun _ _ h => by cases h
  refine (after.invariant (I := fun u => SweepsOpen u ∧ u.row.status = s.row.status)
    (fun u a v hu ok hs => ?_) ⟨sweeps, rfl⟩).2
  obtain ⟨open_, same⟩ := hu
  exact ⟨open_.step hs, (final_step open_ ok hs (same ▸ done)).trans same⟩

/-- A realtime fetch of a task in any status stores every other status that the upstream answers. -/
theorem realtime_overwrites (cfg : Config) (row : Task) (ti : TaskInfo) (w : ω)
    (nonempty : ti.status ≠ "")
    (other : TaskStatus.ofString ti.status ≠ row.status) :
    ∃ t, Free (step cfg) (Sys.start row) [.load w .realtime 0, .realtime w (some ti)] t ∧
      t.row.status = TaskStatus.ofString ti.status := by
  have status : (realtimeTask cfg.serverAddress row ti).status = TaskStatus.ofString ti.status := by
    rw [realtimeTask_status]
    simp [nonempty]
  have changed : row.snapshot ≠ (realtimeTask cfg.serverAddress row ti).snapshot := by
    intro same
    exact other (status.symm.trans (congrArg TaskSnapshot.status same).symm)
  refine ⟨{ (Sys.start row).setPhase w .idle with
      row := realtimeTask cfg.serverAddress row ti }, .cons trivial rfl
        (.cons trivial ?_ (.nil _)), status⟩
  simp [step, Sys.start, changed, updateWithStatus, Sys.setPhase]

def finishedTask : Task := { raceTask with status := .success, progress := "100%" }

/-- The user fetches the finished task once more and the upstream answers with an error: the stored
status goes from `SUCCESS` to `FAILURE`. -/
theorem final_status_overwritten :
    ∃ t : Sys Bool, Free (step raceConfig) (Sys.start finishedTask)
        [.load true .realtime 0,
         .realtime true
           (some { status := "FAILURE", reason := "not found", progress := "100%" })] t ∧
      finishedTask.status = .success ∧ t.row.status = .failure := by
  obtain ⟨t, run, status⟩ := realtime_overwrites raceConfig finishedTask
    { status := "FAILURE", reason := "not found", progress := "100%" } true (by decide) (by decide)
  exact ⟨t, run, rfl, status⟩

/-- A realtime fetch of the finished task that repeats its status. -/
theorem final_status_absorbing_fetch :
    ∃ s t : Sys Bool, s.row.status = .success ∧ t.row.status = s.row.status ∧
      Path keepsFinal (step raceConfig) (Sys.start finishedTask) [.load true .realtime 0] s ∧
      Path keepsFinal (step raceConfig) s [.realtime true (some { status := "SUCCESS" })] t := by
  have before : Path keepsFinal (step raceConfig) (Sys.start finishedTask)
      [.load true .realtime 0] ((Sys.start finishedTask).setPhase true
        (.holding .realtime finishedTask)) := .cons trivial rfl (.nil _)
  have after : Path keepsFinal (step raceConfig)
      ((Sys.start finishedTask).setPhase true (.holding .realtime finishedTask))
      [.realtime true (some { status := "SUCCESS" })] _ :=
    .cons (fun _ _ _ _ => .inr rfl) rfl (.nil _)
  exact ⟨_, _, rfl, final_status_absorbing _ _ _ _ _ before after rfl, before, after⟩

end EastApi.AsyncTask
