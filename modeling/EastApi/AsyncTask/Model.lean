import Mathlib.Data.List.Basic

/-! The asynchronous task row and the functions that read an upstream answer into it: the video
poller (`updateVideoSingleTask`), the timeout sweep (`sweepTimedOutTasks`), the user's realtime
fetch (`tryRealtimeFetch`), the Suno poller (`updateSunoTasks`) and the two bulk writes of
`TaskPollingLoop`. -/

namespace EastApi.AsyncTask

/-- The statuses that the code names, and any other string. -/
inductive TaskStatus
  | notStart | submitted | queued | inProgress | failure | success | unknown
  | other (s : String)
deriving DecidableEq, Repr

def TaskStatus.ofString : String → TaskStatus
  | "NOT_START" => .notStart
  | "SUBMITTED" => .submitted
  | "QUEUED" => .queued
  | "IN_PROGRESS" => .inProgress
  | "FAILURE" => .failure
  | "SUCCESS" => .success
  | "UNKNOWN" => .unknown
  | s => .other s

def TaskStatus.isDone : TaskStatus → Bool
  | .success | .failure => true
  | _ => false

def platformSuno : String := "suno"
def platformMidjourney : String := "mj"

def progressSubmitted : String := "10%"
def progressQueued : String := "20%"
def progressInProgress : String := "30%"
def progressComplete : String := "100%"

structure TaskPrivateData where
  key : String := ""
  upstreamTaskID : String := ""
  resultURL : String := ""
  billingSource : String := ""
  subscriptionId : Int := 0
  tokenId : Int := 0
deriving DecidableEq, Repr

structure Task where
  id : Int
  (taskID platform : String)
  (userId channelId quota : Int)
  action : String
  status : TaskStatus
  failReason : String
  (submitTime startTime finishTime : Int)
  progress : String
  privateData : TaskPrivateData
  data : String
deriving DecidableEq, Repr

def Task.getUpstreamTaskID (t : Task) : String :=
  if t.privateData.upstreamTaskID ≠ "" then t.privateData.upstreamTaskID else t.taskID

structure TaskSnapshot where
  status : TaskStatus
  progress : String
  (startTime finishTime : Int)
  (failReason resultURL data : String)
deriving DecidableEq

def Task.snapshot (t : Task) : TaskSnapshot where
  status := t.status
  progress := t.progress
  startTime := t.startTime
  finishTime := t.finishTime
  failReason := t.failReason
  resultURL := t.privateData.resultURL
  data := t.data

def updateWithStatus (row t : Task) (fromStatus : TaskStatus) : Task × Bool :=
  if row.status = fromStatus then (t, true) else (row, false)

def unfinished (t : Task) : Bool :=
  t.progress ≠ progressComplete && t.status ≠ .failure && t.status ≠ .success

def timedOut (t : Task) (cutoff : Int) : Bool := unfinished t && t.submitTime < cutoff

theorem not_isDone_of_unfinished (h : unfinished t = true) : t.status.isDone = false := by
  obtain ⟨⟨-, hf⟩, hs⟩ : (t.progress ≠ progressComplete ∧ t.status ≠ .failure) ∧
      t.status ≠ .success := by simpa [unfinished] using h
  cases hst : t.status <;> simp_all [TaskStatus.isDone]

inductive Funding
  | wallet (userId : Int)
  | subscription (subscriptionId : Int)
deriving DecidableEq, Repr

def taskIsSubscription (t : Task) : Bool :=
  t.privateData.billingSource == "subscription" && 0 < t.privateData.subscriptionId

def Task.funding (t : Task) : Funding :=
  if taskIsSubscription t then .subscription t.privateData.subscriptionId else .wallet t.userId

/-- Two copies of a task that agree on what it was charged: the amount, the account, the platform
and the submission time. -/
structure SameCharge (a b : Task) : Prop where
  quota : b.quota = a.quota
  funding : b.funding = a.funding
  platform : b.platform = a.platform
  submitTime : b.submitTime = a.submitTime

theorem SameCharge.refl (a : Task) : SameCharge a a := ⟨rfl, rfl, rfl, rfl⟩

inductive BillingCall
  | refund | settle
deriving DecidableEq, Repr

def refundTaskQuota (t : Task) : Option (Funding × Int) :=
  if t.quota = 0 then none else some (t.funding, t.quota)

def refundOf : BillingCall × Task → Option (Funding × Int)
  | (.refund, t) => refundTaskQuota t
  | (.settle, _) => none

structure TaskInfo where
  status : String
  reason : String := ""
  url : String := ""
  progress : String := ""
  totalTokens : Int := 0
deriving DecidableEq, Repr

def failTaskInfo (reason : String) : TaskInfo where
  status := "FAILURE"
  reason := reason

/-- The fields that the poller reads of a `model.Task` in an upstream body.  Its `PrivateData` is
never decoded, so its result URL is its fail reason. -/
structure UpstreamTask where
  (status failReason progress : String)
deriving DecidableEq, Repr

/-- A body read as `dto.GeneralErrorResponse`.  The code of an OpenAI error is `none` when it is
not a JSON string. -/
inductive GeneralError
  | unparsable
  | noOpenAIError
  | openAIError (code : Option String)
deriving DecidableEq, Repr

/-- What the poller extracts from one upstream body: the task of a `TaskResponse` whose code is
`success`, the adaptor's reading of the body, its reading as an error, and its redacted text. -/
structure VideoBody where
  response : Option UpstreamTask
  parsed : Option TaskInfo
  generalError : GeneralError
  redacted : String
deriving DecidableEq, Repr

def VideoBody.taskInfo (b : VideoBody) : Option TaskInfo :=
  match b.response with
  | some t => some { status := t.status, reason := t.failReason, url := t.failReason,
                     progress := t.progress }
  | none => b.parsed

/-- An empty status is read as a failure unless the body is an error with code 429, on which the
poller gives up until the next round. -/
def VideoBody.resolveStatus (b : VideoBody) (r : TaskInfo) : Option TaskInfo :=
  if r.status = "" then
    match b.generalError with
    | .unparsable => some r
    | .noOpenAIError => some (failTaskInfo "upstream returned unrecognized message")
    | .openAIError (some "429") => none
    | .openAIError _ => some (failTaskInfo "upstream returned error")
  else some r

def VideoBody.answer (b : VideoBody) : Option TaskInfo := b.taskInfo.bind b.resolveStatus

def isDataURL (url : String) : Bool := "data:".toList.isPrefixOf url.toList

section
variable (serverAddress : String)

def buildProxyURL (taskID : String) : String :=
  serverAddress ++ "/v1/videos/" ++ taskID ++ "/content"

/-- What `updateVideoSingleTask` has done when it reaches its write: it returned before it, or it
writes the copy and then makes the billing call that the answer asks for. -/
inductive VideoRead
  | stop (task : Task)
  | write (task : Task) (billing : Option BillingCall)

def withProgress (task : Task) (r : TaskInfo) : Task :=
  if r.progress ≠ "" then { task with progress := r.progress } else task

theorem withProgress_charge (r : TaskInfo) (h : SameCharge a b) :
    SameCharge a (withProgress b r) := by
  unfold withProgress
  split
  · exact ⟨h.quota, h.funding, h.platform, h.submitTime⟩
  · exact h

def successURL (task : Task) (r : TaskInfo) : String :=
  if isDataURL r.url then buildProxyURL serverAddress task.taskID
  else if r.url ≠ "" then r.url
  else buildProxyURL serverAddress task.taskID

def applyStatus (task : Task) (r : TaskInfo) (now : Int) : VideoRead :=
  match TaskStatus.ofString r.status with
  | .submitted =>
    .write (withProgress { task with status := .submitted, progress := progressSubmitted } r) none
  | .queued =>
    .write (withProgress { task with status := .queued, progress := progressQueued } r) none
  | .inProgress =>
    .write (withProgress { task with
      status := .inProgress
      progress := progressInProgress
      startTime := if task.startTime = 0 then now else task.startTime } r) none
  | .success =>
    .write (withProgress { task with
      status := .success
      progress := progressComplete
      finishTime := if task.finishTime = 0 then now else task.finishTime
      privateData := { task.privateData with
        resultURL := successURL serverAddress task r } } r) (some .settle)
  | .failure =>
    .write { task with
      status := .failure
      progress := progressComplete
      finishTime := if task.finishTime = 0 then now else task.finishTime
      failReason := r.reason } (if task.quota ≠ 0 then some .refund else none)
  | status => .stop { task with status := status }

def readVideo (task : Task) (body : Option VideoBody) (now : Int) : VideoRead :=
  match body with
  | none => .stop task
  | some b =>
    match b.taskInfo with
    | none => .stop task
    | some r =>
      match b.resolveStatus r with
      | none => .stop { task with data := b.redacted }
      | some r => applyStatus serverAddress { task with data := b.redacted } r now

@[simp] theorem withProgress_status (task : Task) (r : TaskInfo) :
    (withProgress task r).status = task.status := by
  unfold withProgress; split <;> rfl

/-- A write of the video poller keeps the charge, and its billing call follows its status: none for
an unfinished task, the settlement for a successful one, and the refund of a nonzero quota for a
failed one. -/
theorem readVideo_write (h : readVideo serverAddress task body now = .write new billing) :
    SameCharge task new ∧
      ((new.status.isDone = false ∧ billing = none) ∨
       (new.status = .success ∧ billing = some .settle) ∨
       (new.status = .failure ∧ billing = if task.quota ≠ 0 then some .refund else none)) := by
  revert h
  fun_cases readVideo serverAddress task body now <;> intro h <;> try cases h
  revert h
  fun_cases applyStatus serverAddress _ _ now <;> intro h <;> cases h
  case case1.refl | case2.refl | case3.refl =>
    exact ⟨withProgress_charge _ ⟨rfl, rfl, rfl, rfl⟩, .inl ⟨by simp [TaskStatus.isDone], rfl⟩⟩
  case case4.refl => exact ⟨withProgress_charge _ ⟨rfl, rfl, rfl, rfl⟩, .inr (.inl ⟨by simp, rfl⟩)⟩
  case case5.refl => exact ⟨⟨rfl, rfl, rfl, rfl⟩, .inr (.inr ⟨rfl, rfl⟩)⟩

theorem readVideo_stop (h : readVideo serverAddress task body now = .stop new) :
    SameCharge task new := by
  revert h
  fun_cases readVideo serverAddress task body now <;> intro h <;> try cases h
  case case1 | case2 => exact .refl task
  case case3 => exact ⟨rfl, rfl, rfl, rfl⟩
  revert h
  fun_cases applyStatus serverAddress _ _ now <;> intro h <;> cases h
  exact ⟨rfl, rfl, rfl, rfl⟩

def legacyTaskCutoff : Int := 1740182400

def isLegacy (t : Task) : Bool := 0 < t.submitTime && t.submitTime < legacyTaskCutoff

def sweepCutoff (timeoutMinutes now : Int) : Int := now - timeoutMinutes * 60

def sweepTask (timeoutMinutes : Int) (task : Task) (now : Int) : Task :=
  { task with
    status := .failure
    progress := progressComplete
    finishTime := now
    failReason := if isLegacy task then "任务超时（旧系统遗留任务，不进行退款，请联系管理员）"
      else "任务超时（" ++ toString timeoutMinutes ++ "分钟）" }

def sweepBilling (task : Task) : Option BillingCall :=
  if isLegacy task = false ∧ task.quota ≠ 0 then some .refund else none

def withStatus (task : Task) (ti : TaskInfo) : Task :=
  if ti.status ≠ "" then { task with status := TaskStatus.ofString ti.status } else task

def withRealtimeURL (task : Task) (ti : TaskInfo) : Task :=
  if isDataURL ti.url then task
  else if ti.url ≠ "" then
    { task with privateData := { task.privateData with resultURL := ti.url } }
  else if task.status = .success then
    { task with privateData :=
        { task.privateData with resultURL := buildProxyURL serverAddress task.taskID } }
  else task

def realtimeTask (task : Task) (ti : TaskInfo) : Task :=
  withRealtimeURL serverAddress (withProgress (withStatus task ti) ti) ti

theorem withRealtimeURL_status (task : Task) (ti : TaskInfo) :
    (withRealtimeURL serverAddress task ti).status = task.status := by
  fun_cases withRealtimeURL serverAddress task ti <;> rfl

theorem withRealtimeURL_charge (ti : TaskInfo) (h : SameCharge a b) :
    SameCharge a (withRealtimeURL serverAddress b ti) := by
  fun_cases withRealtimeURL serverAddress b ti <;>
    exact ⟨h.quota, h.funding, h.platform, h.submitTime⟩

theorem realtimeTask_status (task : Task) (ti : TaskInfo) :
    (realtimeTask serverAddress task ti).status =
      if ti.status ≠ "" then TaskStatus.ofString ti.status else task.status := by
  rw [realtimeTask, withRealtimeURL_status, withProgress_status]
  unfold withStatus
  split <;> rfl

theorem realtimeTask_charge (task : Task) (ti : TaskInfo) :
    SameCharge task (realtimeTask serverAddress task ti) := by
  refine withRealtimeURL_charge serverAddress ti (withProgress_charge ti ?_)
  unfold withStatus
  split
  · exact ⟨rfl, rfl, rfl, rfl⟩
  · exact .refl task

end

structure SunoItem where
  (status failReason : String)
  (submitTime startTime finishTime : Int)
  data : String
deriving DecidableEq, Repr

def SunoItem.newStatus (item : SunoItem) (task : Task) : TaskStatus :=
  if item.status ≠ "" then TaskStatus.ofString item.status else task.status

def SunoItem.fails (item : SunoItem) (task : Task) : Bool :=
  item.failReason ≠ "" || item.newStatus task = .failure

/-- `taskNeedsUpdate`.  `marshal` is `common.Marshal` on a `json.RawMessage`; its bytes are
compared after sorting, so two texts with the same bytes in another order are equal to it. -/
def taskNeedsUpdate (marshal : String → List UInt8) (old : Task) (item : SunoItem) : Bool :=
  old.submitTime ≠ item.submitTime || old.startTime ≠ item.startTime ||
  old.finishTime ≠ item.finishTime || old.status ≠ TaskStatus.ofString item.status ||
  old.failReason ≠ item.failReason ||
  (old.status.isDone && old.progress ≠ progressComplete) ||
  (marshal old.data).mergeSort ≠ (marshal item.data).mergeSort

def sunoTask (task : Task) (item : SunoItem) : Task :=
  { task with
    status := item.newStatus task
    failReason := if item.failReason ≠ "" then item.failReason else task.failReason
    submitTime := if item.submitTime ≠ 0 then item.submitTime else task.submitTime
    startTime := if item.startTime ≠ 0 then item.startTime else task.startTime
    finishTime := if item.finishTime ≠ 0 then item.finishTime else task.finishTime
    progress := if item.fails task || TaskStatus.ofString item.status = .success then
        progressComplete else task.progress
    data := item.data }

def bulkNullTask (row : Task) : Task :=
  { row with status := .failure, progress := progressComplete }

def bulkChannelTask (row : Task) (channelId : Int) : Task :=
  { row with
    status := .failure
    progress := progressComplete
    failReason := if row.platform = platformSuno then
        "获取渠道信息失败，请联系管理员，渠道ID：" ++ toString channelId
      else "Failed to get channel info, channel ID: " ++ toString channelId }

end EastApi.AsyncTask
