import Mathlib.Data.List.Basic

/-! Midjourney tasks: the row that a submission stores and what it is charged, and what one item of
an upstream answer does to a task in `UpdateMidjourneyTaskBulk`. -/

namespace EastApi.MjProxy

inductive MjAction
  | imagine | describe | blend | upscale | variation | reRoll | inPaint | modal | zoom | customZoom
  | shorten | highVariation | lowVariation | pan | swapFace | upload | video | edits
  | other (s : String)
deriving DecidableEq, Repr

inductive MjStatus
  | failure | success
  | other (s : String)
deriving DecidableEq, Repr

def progressDone : String := "100%"

structure Midjourney where
  (id code userId : Int)
  action : MjAction
  (mjId prompt : String)
  promptEn : String := ""
  description : String
  state : String := ""
  submitTime : Int
  startTime : Int := 0
  finishTime : Int := 0
  imageUrl : String := ""
  videoUrl : String := ""
  videoUrls : String := ""
  status : MjStatus := .other ""
  progress : String := "0%"
  failReason : String := ""
  (channelId quota : Int)
  buttons : String := ""
  properties : String := ""
deriving DecidableEq, Repr

/-- An answer of the upstream to a submission.  `properties` are the fields `imageUrl` and `status`
of an object, each `none` where it is not a string. -/
structure MidjourneyResponse where
  (statusCode code : Int)
  description : String := ""
  result : String := ""
  properties : Option (Option String × Option MjStatus) := none
deriving DecidableEq, Repr

/-- A request after its validation, with the price of the action, the quota of the user, the answer
of the upstream, or why there was none, and the times in milliseconds. -/
structure Request where
  (userId channelId : Int)
  isPlayground : Bool
  action : MjAction
  prompt : String
  (quota userQuota : Int)
  response : Except String MidjourneyResponse
  (startTime now : Int)

def MjAction.free (a : MjAction) : Bool := a = .inPaint || a = .customZoom

def accepted (code : Int) : Bool := code = 1 || code = 21 || code = 22

/-- Whether the deferred call of `PostConsumeQuota` in `RelayMidjourneySubmit` is made. -/
def submitCharges (r : Request) (resp : MidjourneyResponse) : Bool :=
  !r.action.free && accepted resp.code && resp.statusCode = 200

def withProperties (t : Midjourney) (now : Int) :
    Option (Option String × Option MjStatus) → Midjourney
  | some (some imageUrl, some status) =>
    if status = .success then
      { t with imageUrl, status, progress := progressDone, startTime := now, finishTime := now }
    else { t with imageUrl, status }
  | _ => t

def finalCode (resp : MidjourneyResponse) : Int :=
  match resp.properties with
  | some (some _, some .success) => if resp.code = 21 then 1 else resp.code
  | _ => resp.code

def submitTask (id : Int) (r : Request) (resp : MidjourneyResponse) : Midjourney :=
  let t : Midjourney := {
    id := id, code := resp.code, userId := r.userId, action := r.action, mjId := resp.result,
    prompt := r.prompt, description := resp.description, submitTime := r.now,
    channelId := r.channelId, quota := r.quota }
  let t := if accepted resp.code then t else { t with failReason := resp.description }
  let t := if resp.code = 21 then withProperties t r.now resp.properties else t
  if finalCode resp = 1 ∧ r.action = .upload then
    { t with progress := progressDone, status := .success }
  else t

structure Submitted where
  task : Midjourney
  charged : Bool

def relayMidjourneySubmit (id : Int) (r : Request) : Except String Submitted :=
  if r.action.free = false ∧ r.userQuota - r.quota < 0 then .error "quota_not_enough"
  else match r.response with
    | .error description => .error description
    | .ok resp => .ok ⟨submitTask id r resp, submitCharges r resp⟩

def swapFaceCharges (resp : MidjourneyResponse) : Bool := resp.statusCode = 200 && resp.code = 1

def relaySwapFace (id : Int) (r : Request) : Except String Submitted :=
  if r.userQuota - r.quota < 0 then .error "quota_not_enough"
  else match r.response with
    | .error description => .error description
    | .ok resp =>
      .ok ⟨{ id := id, code := resp.code, userId := r.userId, action := .swapFace,
             mjId := resp.result, prompt := "InsightFace", description := resp.description,
             submitTime := r.startTime, startTime := r.now, channelId := r.channelId,
             quota := r.quota }, swapFaceCharges resp⟩

/-- An item of the answer to the poller.  The buttons and the properties are marshalled. -/
structure MidjourneyDto where
  mjId : String
  promptEn : String := ""
  state : String := ""
  submitTime : Int := 0
  startTime : Int := 0
  finishTime : Int := 0
  imageUrl : String := ""
  videoUrl : String := ""
  videoUrls : List String := []
  status : MjStatus
  progress : String
  failReason : String := ""
  buttons : Option String := none
  properties : Option String := none
deriving DecidableEq, Repr

structure SameTask (a b : Midjourney) : Prop where
  id : b.id = a.id
  userId : b.userId = a.userId
  mjId : b.mjId = a.mjId
  channelId : b.channelId = a.channelId
  quota : b.quota = a.quota

section
variable (marshal : List String → String)

def timeOut (task : Midjourney) (item : MidjourneyDto) (now : Int) : MidjourneyDto :=
  if 3600000 < now - task.submitTime ∧ task.progress ≠ progressDone then
    { item with failReason := "上游任务超时（超过1小时）", status := .failure }
  else item

def videoUrlsColumn (urls : List String) : String := if urls ≠ [] then marshal urls else ""

def checkMjTaskNeedUpdate (old : Midjourney) (new : MidjourneyDto) : Bool :=
  old.code ≠ 1 || old.progress ≠ new.progress || old.promptEn ≠ new.promptEn ||
  old.state ≠ new.state || old.submitTime ≠ new.submitTime || old.startTime ≠ new.startTime ||
  old.finishTime ≠ new.finishTime || old.imageUrl ≠ new.imageUrl || old.status ≠ new.status ||
  old.failReason ≠ new.failReason || (old.progress ≠ progressDone && new.failReason ≠ "") ||
  old.videoUrl ≠ new.videoUrl || old.videoUrls ≠ videoUrlsColumn marshal new.videoUrls

def withItem (task : Midjourney) (item : MidjourneyDto) : Midjourney :=
  { task with
    code := 1
    progress := item.progress
    promptEn := item.promptEn
    state := item.state
    submitTime := item.submitTime
    startTime := item.startTime
    finishTime := item.finishTime
    imageUrl := item.imageUrl
    status := item.status
    failReason := item.failReason
    properties := item.properties.getD task.properties
    buttons := item.buttons.getD task.buttons
    videoUrl := item.videoUrl
    videoUrls := videoUrlsColumn marshal item.videoUrls }

def MidjourneyDto.fails (item : MidjourneyDto) : Bool :=
  (item.progress ≠ progressDone && item.failReason ≠ "") ||
  (item.progress = progressDone && item.status = .failure)

def handleItem (task : Midjourney) (item : MidjourneyDto) (now : Int) :
    Option (Midjourney × Bool) :=
  let item := timeOut task item now
  if checkMjTaskNeedUpdate marshal task item then
    if item.fails then
      some ({ withItem marshal task item with progress := progressDone }, decide (task.quota ≠ 0))
    else some (withItem marshal task item, false)
  else none

theorem handleItem_some (h : handleItem marshal task item now = some (new, refund)) :
    SameTask task new ∧ new.status = (timeOut task item now).status ∧
      (refund = true → new.progress = progressDone ∧ (timeOut task item now).fails = true) := by
  simp only [handleItem] at h
  split at h
  · split at h
    next fails =>
      obtain ⟨rfl, -⟩ := Prod.mk.inj (Option.some.inj h)
      exact ⟨⟨rfl, rfl, rfl, rfl, rfl⟩, rfl, fun _ => ⟨rfl, fails⟩⟩
    · cases h
      exact ⟨⟨rfl, rfl, rfl, rfl, rfl⟩, rfl, fun refund => by contradiction⟩
  · contradiction

end

end EastApi.MjProxy
