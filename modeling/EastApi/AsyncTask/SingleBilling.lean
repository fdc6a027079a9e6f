import EastApi.AsyncTask.System
import EastApi.Lib.CompareAndSet

/-! When the video poller and the timeout sweep, on any number of nodes, make at most one billing
call for a task.  Their copies are loaded while the task is unfinished, so the row is a
compare-and-set row that `SUCCESS` and `FAILURE` close, and only the worker that closed it bills.
A round lists an upstream id once for each task that has it but keeps one copy under it, so a copy
can be handled a second time; a final copy is then billed again without a compare-and-set. -/

namespace EastApi.AsyncTask

open Run Function

variable {ω : Type} [DecidableEq ω]

/-- The statements of the video poller and of the timeout sweep. -/
def pollerAction : Action ω → Bool
  | .load _ .poll _ | .load _ .sweep _ | .video .. | .sweep .. | .bill _ | .again _ | .release _ =>
    true
  | _ => false

/-- A copy is handled a second time in its round only while its status is not final. -/
def relistsOpen (s : Sys ω) : Action ω → Prop
  | .again w => ∀ task, s.phase w = .handled task → task.status.isDone = false
  | _ => True

/-- The copy that a worker holds and may still write from. -/
def Phase.copy : Phase → Option Task
  | .holding _ task => some task
  | _ => none

/-- The worker has won its write and is about to bill. -/
def Phase.owes : Phase → Bool
  | .billing .. => true
  | _ => false

/-- The row, the copies and the winners of a system as those of a compare-and-set row. -/
def Sys.casRow (s : Sys ω) : CompareAndSet.State Task ω where
  row := s.row
  copy w := (s.phase w).copy
  winners := s.wins

/-- The row is closed by `SUCCESS` and `FAILURE`. -/
abbrev Latched (s : Sys ω) : Prop :=
  CompareAndSet.Latched Task.status TaskStatus.isDone s.casRow

theorem casRow_setPhase (s : Sys ω) (w : ω) (p : Phase) :
    (s.setPhase w p).casRow =
      { s.casRow with copy := update s.casRow.copy w p.copy } := by
  simp only [Sys.casRow, Sys.setPhase, CompareAndSet.State.mk.injEq, true_and, and_true]
  exact comp_update Phase.copy s.phase w p

@[simp] theorem copy_afterWrite (loader : Loader) (task : Task) (billing : Option BillingCall) :
    (Phase.afterWrite loader task billing).copy = none := by
  cases billing
  · cases loader <;> rfl
  · rfl

theorem Latched.forget (h : Latched s) (w : ω) (hp : p.copy = none) : Latched (s.setPhase w p) := by
  refine CompareAndSet.Latched.step (a := .drop w) h ?_
  rw [casRow_setPhase, hp]
  rfl

variable {w : ω} {loader : Loader} {copy : Task}

theorem Latched.write (h : Latched s) (hold : s.phase w = .holding loader copy)
    (same : s.row.status = copy.status) (new : Task) (hp : p.copy = none) :
    Latched ({ s with
      row := new
      wins := if new.status.isDone then w :: s.wins else s.wins }.setPhase w p) := by
  refine CompareAndSet.Latched.step (a := .write w new) h ?_
  have hcopy : s.casRow.copy w = some copy := by simp [Sys.casRow, hold, Phase.copy]
  have hkey : s.casRow.row.status = copy.status := same
  rw [casRow_setPhase, hp]
  simp only [CompareAndSet.step, hcopy, Option.bind_some, hkey, ↓reduceIte]
  rfl

omit [DecidableEq ω] in
theorem Latched.copy_open (h : Latched s) (hold : s.phase w = .holding loader copy) :
    copy.status.isDone = false :=
  h.copies w copy (by simp [Sys.casRow, hold, Phase.copy])

omit [DecidableEq ω] in
theorem Latched.wins_nil (h : Latched s) (isOpen : s.row.status.isDone = false) :
    s.wins = [] := by
  obtain ⟨-, none⟩ | ⟨isClosed, -⟩ := h.winners
  · exact none
  · rw [show s.casRow.row = s.row from rfl, isOpen] at isClosed
    contradiction

/-- What the video poller writes from a copy of an unfinished task: the compare-and-set decides both
the row and whether the billing call is made. -/
theorem writeVideo_open (row : Task) (isOpen : copy.status.isDone = false)
    (billed : (new.status.isDone = false ∧ billing = none) ∨
       (new.status = .success ∧ billing = some .settle) ∨
       (new.status = .failure ∧ billing = if copy.quota ≠ 0 then some .refund else none)) :
    (writeVideo row copy new billing = ⟨row, false, none⟩) ∨
    (row.status = copy.status ∧
      writeVideo row copy new billing = ⟨new, new.status.isDone, billing⟩) := by
  have changes : new.status.isDone = true → copy.status ≠ new.status := by
    intro done equal
    rw [equal, done] at isOpen
    contradiction
  by_cases done : new.status.isDone = true
  · by_cases same : row.status = copy.status
    · exact .inr ⟨same, by simp [writeVideo, updateWithStatus, done, changes done, same]⟩
    · exact .inl (by simp [writeVideo, updateWithStatus, done, changes done, same])
  · have hnone : billing = none := by
      obtain ⟨-, h⟩ | ⟨h, -⟩ | ⟨h, -⟩ := billed
      · exact h
      · rw [h] at done; exact absurd rfl done
      · rw [h] at done; exact absurd rfl done
    simp only [Bool.not_eq_true] at done
    subst hnone
    by_cases equal : copy.snapshot = new.snapshot
    · exact .inl (by simp [writeVideo, done, equal])
    · by_cases same : row.status = copy.status
      · exact .inr ⟨same, by simp [writeVideo, updateWithStatus, done, equal, same]⟩
      · exact .inl (by simp [writeVideo, updateWithStatus, done, same])

/-- The billing of a task that the pollers and the sweeps share: no call is owed or made before the
row is closed, and after that the worker that closed it owes its call or has made it. -/
structure Exclusive (s : Sys ω) : Prop where
  latched : Latched s
  before : s.wins = [] → s.calls = [] ∧ ∀ v, (s.phase v).owes = false
  after : ∀ w, s.wins = [w] →
    (s.calls = [] ∧ ∀ v, (s.phase v).owes = true → v = w) ∨
    (s.calls.length = 1 ∧ ∀ v, (s.phase v).owes = false)

variable {t : Sys ω}

theorem Exclusive.quiet (h : Exclusive s) (latched : Latched t) (wins : t.wins = s.wins)
    (calls : t.calls = s.calls) (phase : t.phase = update s.phase w p) (mine : p.owes = false) :
    Exclusive t := by
  have owes : ∀ v, (t.phase v).owes = true → (s.phase v).owes = true := by
    rw [phase, forall_update_iff s.phase fun v q => q.owes = true → (s.phase v).owes = true]
    exact ⟨by simp [mine], fun _ _ => id⟩
  have free : ∀ v, (s.phase v).owes = false → (t.phase v).owes = false := by
    simpa only [Bool.not_eq_true] using fun v => mt (owes v)
  refine ⟨latched, fun hw => ?_, fun u hu => ?_⟩
  · obtain ⟨hc, hv⟩ := h.before (wins ▸ hw)
    exact ⟨calls.trans hc, fun v => free v (hv v)⟩
  · obtain ⟨hc, hv⟩ | ⟨hc, hv⟩ := h.after u (wins ▸ hu)
    · exact .inl ⟨calls.trans hc, fun v hv' => hv v (owes v hv')⟩
    · exact .inr ⟨calls ▸ hc, fun v => free v (hv v)⟩

theorem Exclusive.close (h : Exclusive s) (latched : Latched t)
    (isOpen : s.row.status.isDone = false) (wins : t.wins = w :: s.wins) (calls : t.calls = s.calls)
    (phase : t.phase = update s.phase w p) : Exclusive t := by
  have none := h.latched.wins_nil isOpen
  obtain ⟨hc, hv⟩ := h.before none
  refine ⟨latched, fun hw => ?_, fun u hu => .inl ⟨calls.trans hc, fun v hv' => ?_⟩⟩
  · rw [wins] at hw
    contradiction
  · obtain rfl : w = u := by simpa [wins, none] using hu
    by_contra hne
    rw [phase, update_of_ne hne, hv v] at hv'
    contradiction

@[simp] theorem owes_afterWrite (loader : Loader) (task : Task) (billing : Option BillingCall) :
    (Phase.afterWrite loader task billing).owes = billing.isSome := by
  cases billing
  · cases loader <;> rfl
  · rfl

theorem not_isDone_of_selects (h : loader ≠ .realtime) (sel : loader.selects cfg row now = true) :
    row.status.isDone = false := by
  cases loader with
  | poll => exact not_isDone_of_unfinished sel
  | sweep =>
    simp only [Loader.selects, timedOut, Bool.and_eq_true] at sel
    exact not_isDone_of_unfinished sel.2.1
  | realtime => exact absurd rfl h

theorem Latched.relist (h : Latched s) (w : ω) (isOpen : copy.status.isDone = false) :
    Latched (s.setPhase w (.holding .poll copy)) := by
  refine ⟨?_, h.winners⟩
  rw [casRow_setPhase]
  refine CompareAndSet.copies_update h fun c hc => ?_
  cases hc
  exact isOpen

theorem Exclusive.step (h : Exclusive s) (allowed : pollerAction a = true)
    (relists : relistsOpen s a) (hs : step cfg s a = some t) : Exclusive t := by
  cases step_effect cfg hs with
  | @load w loader now idle sel =>
    have isOpen : s.row.status.isDone = false := by
      refine not_isDone_of_selects ?_ sel
      rintro rfl
      contradiction
    have latched : Latched (s.setPhase w (.holding loader s.row)) := by
      refine CompareAndSet.Latched.step (a := .load w) h.latched ?_
      rw [casRow_setPhase]
      simp [CompareAndSet.step, show s.casRow.row = s.row from rfl, isOpen, Phase.copy]
    exact h.quiet latched rfl rfl rfl rfl
  | @video w body now copy new billing hold _ read =>
    obtain ⟨-, billed⟩ := readVideo_write cfg.serverAddress read
    obtain lost | ⟨same, written⟩ :=
      writeVideo_open s.row (h.latched.copy_open hold) billed
    · rw [lost]
      exact h.quiet (h.latched.forget _ rfl) rfl rfl rfl rfl
    · rw [written]
      have latched := h.latched.write hold same new (p := .afterWrite .poll new billing) (by simp)
      have isOpen : s.row.status.isDone = false := same ▸ h.latched.copy_open hold
      cases done : new.status.isDone with
      | true =>
        simp only [done] at latched
        exact h.close latched isOpen rfl rfl rfl
      | false =>
        have hnone : billing = none := by
          rcases billed with ⟨-, hb⟩ | ⟨hb, -⟩ | ⟨hb, -⟩
          · exact hb
          · rw [hb] at done; contradiction
          · rw [hb] at done; contradiction
        simp only [done] at latched
        exact h.quiet latched rfl rfl rfl (by simp [hnone])
  | @sweepWon w now copy hold same =>
    have latched := h.latched.write hold same (sweepTask cfg.timeoutMinutes copy now)
      (p := .afterWrite .sweep (sweepTask cfg.timeoutMinutes copy now) (sweepBilling copy))
      (by simp)
    exact h.close latched (same ▸ h.latched.copy_open hold) rfl rfl rfl
  | @bill w loader task call owed =>
    have owes : (s.phase w).owes = true := by rw [owed]; rfl
    have latched : Latched ({ s with calls := s.calls ++ [(call, task)] }.setPhase w
        (.afterWrite loader task none)) :=
      Latched.forget (s := { s with calls := s.calls ++ [(call, task)] }) h.latched w (by simp)
    refine ⟨latched, fun hw => ?_, fun u hu => .inr ?_⟩
    · have := (h.before hw).2 w
      rw [owes] at this
      contradiction
    · obtain ⟨hc, hv⟩ | ⟨-, hv⟩ := h.after u hu
      · refine ⟨by simp [hc], fun v => ?_⟩
        by_cases same : v = w
        · subst same; simp
        · rw [Sys.setPhase_of_ne _ _ same]
          by_contra hne
          exact same ((hv v (by simpa using hne)).trans (hv w owes).symm)
      · rw [hv w] at owes
        contradiction
  | @again w task done =>
    exact h.quiet (h.latched.relist w (relists task done)) rfl rfl rfl rfl
  | videoStop | sweepLost | release =>
    exact h.quiet (h.latched.forget _ rfl) rfl rfl rfl rfl
  | _ => contradiction

omit [DecidableEq ω] in
theorem Exclusive.start (isOpen : row.status.isDone = false) :
    Exclusive (Sys.start (ω := ω) row) where
  latched := ⟨by simp [Sys.casRow, Sys.start, Phase.copy], .inl ⟨isOpen, rfl⟩⟩
  before _ := ⟨rfl, fun _ => rfl⟩
  after w h := by contradiction

/-- A final copy whose answer asks for a billing call. -/
def billsFinal (task : Task) : Bool :=
  task.status = .success || task.status = .failure && task.quota ≠ 0

/-- The answer that repeats a final status. -/
def repeated (status : TaskStatus) : VideoBody where
  response := none
  parsed := some { status := if status = .success then "SUCCESS" else "FAILURE" }
  generalError := .unparsable
  redacted := ""

theorem readVideo_repeated (address : String) (final : billsFinal task = true) (now : Int) :
    ∃ new call, readVideo address task (some (repeated task.status)) now = .write new (some call) ∧
      new.status = task.status := by
  simp only [billsFinal, Bool.or_eq_true, Bool.and_eq_true, decide_eq_true_eq] at final
  obtain success | ⟨failure, quota⟩ := final
  · rw [success]
    exact ⟨_, .settle, rfl, by simp⟩
  · rw [failure]
    have read : readVideo address task (some (repeated .failure)) now = .write { task with
        status := .failure
        progress := progressComplete
        finishTime := if task.finishTime = 0 then now else task.finishTime
        failReason := ""
        data := "" } (if task.quota ≠ 0 then some .refund else none) := rfl
    rw [if_pos quota] at read
    exact ⟨_, .refund, read, rfl⟩

/-- A final copy that is handled again with the same answer is billed, whatever the row is: its
status does not change, so no compare-and-set decides. -/
theorem relisted_bills (cfg : Config) (handled : s.phase w = .handled task)
    (video : isVideo task = true) (final : billsFinal task = true) :
    ∃ u, exec (step cfg) s [.again w, .video w (some (repeated task.status)) 0, .bill w] = some u ∧
      u.calls.length = s.calls.length + 1 := by
  obtain ⟨new, call, read, same⟩ := readVideo_repeated cfg.serverAddress final 0
  have billed : (writeVideo s.row task new (some call)).billing = some call := by
    unfold writeVideo
    split
    · next changes => exact absurd same.symm changes.2
    · split <;> rfl
  simp [exec, step, handled, video, read, billed, Phase.afterWrite]

/-- In every interleaving of pollers and sweeps on an unfinished task in which no final copy is
handled again in its round, at most one call of `RefundTaskQuota` or `settleTaskBillingOnComplete`
is made, and exactly one worker has seen `won = true` on a write of `SUCCESS` or `FAILURE` once the
task has such a status, and none before.  The condition is needed in every state reached: handling
a final copy again makes one more billing call when the upstream repeats its answer. -/
theorem pollers_bill_once (row : Task) (hrow : unfinished row = true) (as : List (Action ω))
    (t : Sys ω)
    (run : Path (fun s a => pollerAction a = true ∧ relistsOpen s a) (step cfg) (Sys.start row)
      as t) :
    (t.calls.length ≤ 1 ∧
      (t.row.status.isDone = true → ∃ w, t.wins = [w]) ∧
      (t.row.status.isDone = false → t.wins = [])) ∧
    ∀ w task, t.phase w = .handled task → isVideo task = true → billsFinal task = true →
      ∃ u, exec (step cfg) t [.again w, .video w (some (repeated task.status)) 0, .bill w] =
        some u ∧ u.calls.length = t.calls.length + 1 := by
  have h : Exclusive t := run.invariant (fun _ _ _ hi ok hs => hi.step ok.1 ok.2 hs)
    (.start (not_isDone_of_unfinished hrow))
  refine ⟨⟨?_, fun done => ?_, h.latched.wins_nil⟩, fun w task => relisted_bills cfg⟩
  · obtain ⟨-, none⟩ | ⟨-, w, one⟩ := h.latched.winners
    · rw [(h.before none).1]
      simp
    · obtain ⟨hc, -⟩ | ⟨hc, -⟩ := h.after w one
      · simp [hc]
      · omega
  · obtain ⟨isOpen, -⟩ | ⟨-, one⟩ := h.latched.winners
    · rw [show t.casRow.row = t.row from rfl, done] at isOpen
      contradiction
    · exact one

def raceActions : List (Action Bool) :=
  [.load true .poll 0, .load false .sweep 100000,
   .video true (some ⟨none, some { status := "FAILURE", reason := "blocked" }, .unparsable, "1"⟩)
     100000,
   .sweep false 100000, .bill true, .release true]

def raceConfig : Config where
  serverAddress := "https://east"
  timeoutMinutes := 1440
  marshal s := s.toUTF8.toList

def raceTask : Task where
  id := 1
  taskID := "task_1"
  platform := "54"
  userId := 7
  channelId := 3
  quota := 500
  action := "generate"
  status := .submitted
  failReason := ""
  submitTime := 0
  startTime := 0
  finishTime := 0
  progress := "10%"
  privateData := {}
  data := ""

/-- A poller reads `IN_PROGRESS`, handles its copy again and fails the task, while a sweep fails it
too. -/
def relistActions : List (Action Bool) :=
  [.load true .poll 0,
   .video true (some ⟨none, some { status := "IN_PROGRESS" }, .unparsable, "1"⟩) 0, .again true,
   .load false .sweep 100000,
   .video true (some ⟨none, some { status := "FAILURE", reason := "blocked" }, .unparsable, "2"⟩)
     100000,
   .sweep false 100000, .bill true]

theorem pollers_bill_once_race :
    ∃ t, exec (step raceConfig) (Sys.start raceTask) relistActions = some t ∧
      t.row.status = .failure ∧ t.calls.length ≤ 1 ∧ (∃ w, t.wins = [w]) ∧
      ∃ u, exec (step raceConfig) t [.again true, .video true (some (repeated .failure)) 0,
        .bill true] = some u ∧ u.calls.length = t.calls.length + 1 := by
  obtain ⟨t, task, ran, run, status, handled, video, final⟩ : ∃ t task,
      exec (step raceConfig) (Sys.start raceTask) relistActions = some t ∧
      Path (fun s a => pollerAction a = true ∧ relistsOpen s a) (step raceConfig)
        (Sys.start raceTask) relistActions t ∧ t.row.status = .failure ∧
      t.phase true = .handled task ∧ isVideo task = true ∧
      task.status = .failure ∧ task.quota = 500 :=
    ⟨_, _, rfl, .cons ⟨rfl, trivial⟩ rfl <| .cons ⟨rfl, trivial⟩ rfl <|
      .cons ⟨rfl, fun task h => by cases h; rfl⟩ rfl <| .cons ⟨rfl, trivial⟩ rfl <|
      .cons ⟨rfl, trivial⟩ rfl <| .cons ⟨rfl, trivial⟩ rfl <| .cons ⟨rfl, trivial⟩ rfl <| .nil _,
      rfl, rfl, rfl, rfl, rfl⟩
  obtain ⟨⟨calls, one, -⟩, needed⟩ := pollers_bill_once raceTask (by decide) relistActions t run
  have again := needed true task handled video (by simp [billsFinal, final])
  rw [final.1] at again
  exact ⟨t, ran, status, calls, one (by rw [status]; rfl), again⟩

/-- The upstream id of a task is listed twice in a round, and both answers are `SUCCESS`. -/
theorem relisted_billed_twice :
    ∃ t, Path (fun _ a => pollerAction a = true) (step raceConfig) (Sys.start raceTask)
      [.load true .poll 0, .video true (some (repeated .success)) 100, .bill true, .again true,
        .video true (some (repeated .success)) 101, .bill true] t ∧
      unfinished raceTask = true ∧ t.calls.length = 2 := by
  have twice : (exec (step raceConfig) (Sys.start raceTask)
      [.load true .poll 0, .video true (some (repeated .success)) 100, .bill true, .again true,
        .video true (some (repeated .success)) 101, .bill true]).map (fun t => t.calls.length) =
      some 2 := by decide
  obtain ⟨t, ht, calls⟩ := Option.map_eq_some_iff.mp twice
  exact ⟨t, Path.of_exec ht (by decide), by decide, calls⟩

end EastApi.AsyncTask
