import EastApi.AsyncTask.System

/-! Which stored tasks the queries of the pollers still select.  `GetAllUnFinishSyncTasks` and
`GetTimedOutUnfinishedTasks` both leave out a row whose progress is `100%`, so a row with that
progress and a status that is not final is never looked at again. -/

namespace EastApi.AsyncTask

open Run

/-- A row that is complete is final, and a row that is not final is selected by the poller and, once
it is old enough, by the timeout sweep. -/
structure Selectable (t : Task) : Prop where
  final_of_complete : t.progress = progressComplete → t.status.isDone = true
  polled : t.status.isDone = false → unfinished t = true
  swept : t.status.isDone = false → ∀ cutoff, t.submitTime < cutoff → timedOut t cutoff = true

theorem selectable_iff (t : Task) :
    Selectable t ↔ (t.progress = progressComplete → t.status.isDone = true) := by
  refine ⟨Selectable.final_of_complete, fun h => ?_⟩
  have polled : t.status.isDone = false → unfinished t = true := by
    intro status
    have progress : t.progress ≠ progressComplete := by
      intro complete
      rw [h complete] at status
      contradiction
    cases hst : t.status <;> simp_all [unfinished, TaskStatus.isDone]
  exact ⟨h, polled, fun status cutoff old => by simp [timedOut, polled status, old]⟩

theorem Selectable.of_done (h : t.status.isDone = true) : Selectable t :=
  (selectable_iff t).mpr fun _ => h

/-- The answer to a poll, in the form of the poller that asked. -/
inductive PollAnswer
  | video (body : VideoBody) (now : Int)
  | suno (item : SunoItem)

def PollAnswer.stored (cfg : Config) (task : Task) : PollAnswer → Option Task
  | .video body now =>
    match readVideo cfg.serverAddress task (some body) now with
    | .stop _ => none
    | .write new _ =>
      if (new.status.isDone ∧ task.status ≠ new.status) ∨ task.snapshot ≠ new.snapshot then
        some new
      else none
  | .suno item =>
    if taskNeedsUpdate cfg.marshal task item then some (sunoTask task item) else none

def VideoBody.KeepsSelected (b : VideoBody) : Prop :=
  ∀ r, b.answer = some r → r.progress = progressComplete →
    (TaskStatus.ofString r.status).isDone = true

/-- A Suno item with a fail reason, and one for a copy that is already at `100%`, leaves a final
status. -/
def SunoItem.KeepsSelected (item : SunoItem) (task : Task) : Prop :=
  item.failReason ≠ "" ∨ task.progress = progressComplete → (item.newStatus task).isDone = true

def PollAnswer.KeepsSelected (task : Task) : PollAnswer → Prop
  | .video body _ => body.KeepsSelected
  | .suno item => item.KeepsSelected task

theorem readVideo_some_write (h : readVideo serverAddress task (some b) now = .write new billing) :
    ∃ r, b.answer = some r ∧
      applyStatus serverAddress { task with data := b.redacted } r now = .write new billing := by
  simp only [readVideo] at h
  split at h
  · contradiction
  next info hinfo =>
    split at h
    · contradiction
    next r hr => exact ⟨r, by simp [VideoBody.answer, hinfo, hr], h⟩

/-- What a write of the video poller leaves in the two columns: a final status, or the status of the
answer with a progress that is complete only if the answer says so. -/
theorem applyStatus_columns (h : applyStatus serverAddress task r now = .write new billing) :
    new.status = TaskStatus.ofString r.status ∧
      (new.status.isDone = false →
        (new.progress = progressComplete ↔ r.progress = progressComplete)) := by
  unfold applyStatus at h
  split at h <;> rename_i status <;> cases h
  case h_1 | h_2 | h_3 =>
    refine ⟨by simp [status], fun _ => ?_⟩
    unfold withProgress
    split
    · rfl
    next empty =>
      have hempty : r.progress = "" := by simpa using empty
      simp [hempty, progressComplete, progressSubmitted, progressQueued, progressInProgress]
  case h_4 | h_5 => exact ⟨by simp [status], by simp [TaskStatus.isDone]⟩

theorem readVideo_selectable_iff
    (h : readVideo serverAddress task (some b) now = .write new billing) :
    Selectable new ↔ b.KeepsSelected := by
  obtain ⟨r, hr, applied⟩ := readVideo_some_write h
  obtain ⟨status, progress⟩ := applyStatus_columns applied
  have columns : (new.progress = progressComplete → new.status.isDone = true) ↔
      (r.progress = progressComplete → new.status.isDone = true) := by
    cases done : new.status.isDone with
    | true => simp
    | false => simp [progress done]
  rw [selectable_iff, columns, status]
  exact ⟨fun keep r' hr' => by cases hr.symm.trans hr'; exact keep, fun keep => keep r hr⟩

theorem SunoItem.newStatus_of_success {item : SunoItem}
    (h : TaskStatus.ofString item.status = .success) : item.newStatus task = .success := by
  have named : item.status ≠ "" := by
    rintro empty
    rw [empty] at h
    exact absurd h (by decide)
  simp [SunoItem.newStatus, named, h]

theorem sunoTask_selectable_iff (task : Task) (item : SunoItem) :
    Selectable (sunoTask task item) ↔ item.KeepsSelected task := by
  rw [selectable_iff]
  change ((sunoTask task item).progress = progressComplete →
    (item.newStatus task).isDone = true) ↔ _
  cases done : (item.newStatus task).isDone with
  | true => simp [SunoItem.KeepsSelected, done]
  | false =>
    have noSuccess : TaskStatus.ofString item.status ≠ .success := by
      intro success
      rw [SunoItem.newStatus_of_success success] at done
      contradiction
    have noFailure : item.newStatus task ≠ .failure := by
      intro failure
      rw [failure] at done
      contradiction
    by_cases reason : item.failReason = ""
    · simp [SunoItem.KeepsSelected, sunoTask, SunoItem.fails, done, noSuccess, noFailure, reason]
    · simp [SunoItem.KeepsSelected, sunoTask, SunoItem.fails, done, reason]

/-- A realtime fetch takes over a status and a progress that are not empty. -/
def TaskInfo.KeepsSelected (ti : TaskInfo) (task : Task) : Prop :=
  (if ti.progress ≠ "" then ti.progress else task.progress) = progressComplete →
    (if ti.status ≠ "" then TaskStatus.ofString ti.status else task.status).isDone = true

theorem realtimeTask_selectable_iff (task : Task) (ti : TaskInfo) :
    Selectable (realtimeTask serverAddress task ti) ↔ ti.KeepsSelected task := by
  have progress : (realtimeTask serverAddress task ti).progress =
      if ti.progress ≠ "" then ti.progress else task.progress := by
    unfold realtimeTask
    fun_cases withRealtimeURL serverAddress _ ti <;> unfold withProgress withStatus <;>
      split_ifs <;> rfl
  rw [selectable_iff, progress, realtimeTask_status, TaskInfo.KeepsSelected]

/-- A task whose update is stored is still selected exactly when the answer keeps status and
progress together. -/
theorem stored_selectable_iff {cfg : Config} {task new : Task} {answer : PollAnswer}
    (h : answer.stored cfg task = some new) : Selectable new ↔ answer.KeepsSelected task := by
  cases answer with
  | video body now =>
    simp only [PollAnswer.stored] at h
    split at h
    · contradiction
    next written billing read =>
      split at h <;> cases h
      exact readVideo_selectable_iff read
  | suno item =>
    simp only [PollAnswer.stored] at h
    split at h <;> cases h
    exact sunoTask_selectable_iff task item

def pollConfig : Config where
  serverAddress := "https://api"
  timeoutMinutes := 60
  marshal := fun _ => []

def runningTask (platform : String) : Task where
  id := 1
  taskID := "task_1"
  platform := platform
  userId := 7
  channelId := 3
  quota := 500
  action := "generate"
  status := .inProgress
  failReason := ""
  submitTime := 1800000000
  startTime := 1800000010
  finishTime := 0
  progress := progressInProgress
  privateData := {}
  data := ""

def inProgressBody (progress : String) : VideoBody where
  response := none
  parsed := some { status := "IN_PROGRESS", progress := progress }
  generalError := .noOpenAIError
  redacted := ""

def sunoAnswer (status failReason : String) : SunoItem where
  status := status
  failReason := failReason
  submitTime := 1800000000
  startTime := 1800000010
  finishTime := 0
  data := ""

theorem stored_selectable_iff_half_way :
    ∃ new, (PollAnswer.video (inProgressBody "50%") 1800000100).stored pollConfig
        (runningTask "kling") = some new ∧
      new.progress = "50%" ∧ Selectable new := by
  have keeps : (PollAnswer.video (inProgressBody "50%") 1800000100).KeepsSelected
      (runningTask "kling") := by
    intro r hr
    cases hr
    simp [progressComplete]
  have stored : (PollAnswer.video (inProgressBody "50%") 1800000100).stored pollConfig
      (runningTask "kling") = some _ := rfl
  exact ⟨_, stored, rfl, (stored_selectable_iff stored).mpr keeps⟩

/-- A video that is reported as `IN_PROGRESS` at `100%`, and a Suno task that is reported as
`IN_PROGRESS` with a fail reason: both polls of an unfinished task store a row that is not final
and that neither query selects, however old it gets. -/
theorem polled_task_abandoned :
    ∃ video suno, unfinished (runningTask "kling") = true ∧
      unfinished (runningTask platformSuno) = true ∧
      (PollAnswer.video (inProgressBody "100%") 1800000100).stored pollConfig
        (runningTask "kling") = some video ∧
      (PollAnswer.suno (sunoAnswer "IN_PROGRESS" "busy")).stored pollConfig
        (runningTask platformSuno) = some suno ∧
      ∀ t ∈ [video, suno], t.status = .inProgress ∧ t.progress = progressComplete ∧
        unfinished t = false ∧ ∀ cutoff, timedOut t cutoff = false := by
  refine ⟨_, _, by decide, by decide, rfl, rfl, ?_⟩
  intro t ht
  rcases List.mem_cons.mp ht with rfl | ht
  · exact ⟨rfl, rfl, rfl, fun _ => rfl⟩
  · obtain rfl := List.mem_singleton.mp ht
    exact ⟨rfl, rfl, rfl, fun _ => rfl⟩

section
variable {ω : Type} [DecidableEq ω]

def keepsSelected (s : Sys ω) : Action ω → Prop
  | .video _ (some body) _ => body.KeepsSelected
  | .sunoItem w item => ∀ copy, s.phase w = .holding .poll copy → item.KeepsSelected copy
  | .realtime w (some ti) => ∀ copy, s.phase w = .holding .realtime copy → ti.KeepsSelected copy
  | _ => True

structure SelectedSys (s : Sys ω) : Prop where
  row : Selectable s.row
  saving : ∀ w task, s.phase w = .saving task → Selectable task

variable {s : Sys ω}

theorem SelectedSys.update (h : SelectedSys s) (row : Selectable t.row)
    (phase : t.phase = Function.update s.phase w p)
    (hp : ∀ task, p = .saving task → Selectable task) : SelectedSys t := by
  refine ⟨row, fun v task hv => ?_⟩
  rw [phase] at hv
  rcases of_update_eq hv with ⟨-, own⟩ | ⟨-, other⟩
  · exact hp task own
  · exact h.saving v task other

theorem afterWrite_ne_saving (loader : Loader) (task copy : Task) (billing : Option BillingCall) :
    Phase.afterWrite loader task billing ≠ .saving copy := by
  cases billing
  · cases loader <;> simp [Phase.afterWrite]
  · simp [Phase.afterWrite]

theorem writeVideo_row (row copy new : Task) (billing : Option BillingCall) :
    (writeVideo row copy new billing).row = new ∨ (writeVideo row copy new billing).row = row := by
  simp only [writeVideo, updateWithStatus]
  split_ifs <;> simp

theorem SelectedSys.step (h : SelectedSys s) (ok : keepsSelected s a)
    (hs : step cfg s a = some t) : SelectedSys t := by
  cases step_effect cfg hs with
  | @video w body now copy new billing hold _ read =>
    cases body with
    | none => simp [readVideo] at read
    | some b =>
      have stays : Selectable (writeVideo s.row copy new billing).row := by
        rcases writeVideo_row s.row copy new billing with written | kept
        · rw [written]
          exact (readVideo_selectable_iff read).mpr ok
        · rw [kept]
          exact h.row
      exact h.update stays rfl fun task hp => absurd hp (afterWrite_ne_saving _ _ _ _)
  | sweepWon =>
    exact h.update (.of_done rfl) rfl fun task hp => absurd hp (afterWrite_ne_saving _ _ _ _)
  | realtimeWon hold =>
    exact h.update ((realtimeTask_selectable_iff _ _).mpr (ok _ hold)) rfl
      fun task hp => by cases hp
  | sunoItem hold =>
    refine h.update h.row rfl fun task hp => ?_
    cases hp
    exact (sunoTask_selectable_iff _ _).mpr (ok _ hold)
  | sunoSave save => exact h.update (h.saving _ _ save) rfl fun task hp => by cases hp
  | bulkNull | bulkChannel => exact h.update (.of_done rfl) rfl fun task hp => by cases hp
  | bill => exact h.update h.row rfl fun task hp => absurd hp (afterWrite_ne_saving _ _ _ _)
  | _ => exact h.update h.row rfl fun task hp => by cases hp

/-- In every run of pollers, sweeps and realtime fetches whose answers keep status and progress
together, a task that is not final is selected at every point. -/
theorem selectable_run (start : Selectable row)
    (run : Path keepsSelected (step cfg) (Sys.start row) as s) : Selectable s.row :=
  (run.invariant (I := SelectedSys) (fun _ _ _ h ok hs => h.step ok hs)
    ⟨start, fun _ _ hp => by cases hp⟩).row

end

/-- A realtime fetch by one worker between the load and the write of another one. -/
def fetchAndPoll : List (Action Bool) :=
  [.load true .poll 1800000100, .load false .realtime 1800000100,
    .realtime false (some { status := "", progress := "50%" }),
    .video true (some (inProgressBody "70%")) 1800000101]

theorem selectable_run_polled :
    ∃ s, Path keepsSelected (step pollConfig) (.start (runningTask "kling")) fetchAndPoll s ∧
      s.row.progress = "70%" ∧ Selectable s.row := by
  refine Path.exists_and (.cons trivial rfl <| .cons trivial rfl <|
      .cons (fun copy hold => by cases hold; simp [TaskInfo.KeepsSelected, progressComplete]) rfl <|
      .cons (fun r hr => by cases hr; simp [progressComplete]) rfl <| .nil _) fun path => ?_
  exact ⟨rfl, selectable_run ((selectable_iff _).mpr (by decide)) path⟩

end EastApi.AsyncTask
