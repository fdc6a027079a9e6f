import EastApi.Lib.Run
import EastApi.MjProxy.Model
import Mathlib.Algebra.BigOperators.Group.List.Basic
import Mathlib.Algebra.Order.Group.Int
import Mathlib.Algebra.Ring.Int.Defs

/-! One node: the submissions of all users, and the loop of `UpdateMidjourneyTaskBulk`, which loads
the unfinished tasks and then visits their channels in any order.  Submissions come at any point of
the loop.  The debits and the credits are recorded by task and account. -/

namespace EastApi.MjProxy

open Option

inductive Account
  | user | token
deriving DecidableEq, Repr

structure Entry where
  account : Account
  (task amount : Int)
deriving DecidableEq, Repr

def tally (entries : List Entry) (account : Account) (task : Int) : Int :=
  ((entries.filter fun e => e.account = account && e.task = task).map (·.amount)).sum

/-- One iteration of the loop: the tasks in memory by their Midjourney id, the tasks without one,
the channels that are not visited yet with the ids to ask for, and the items of the channel being
visited that are not handled yet. -/
structure Pass where
  taskM : String → Option Midjourney
  nullTaskIds : List Int
  todo : List (Int × List String)
  items : List MidjourneyDto

/-- The tables and the loop.  An item for an unknown task makes the loop panic, and it does not run
again. -/
structure Sys where
  rows : List Midjourney
  nextId : Int
  (debits credits : List Entry)
  pass : Option Pass
  running : Bool

def Sys.debited (s : Sys) (account : Account) (task : Int) : Int := tally s.debits account task

def Sys.credited (s : Sys) (account : Account) (task : Int) : Int := tally s.credits account task

inductive Action
  | submit (r : Request)
  | swapFace (r : Request)
  | load
  | bulkNull
  | missingChannel (channelId : Int)
  | noAnswer (channelId : Int)
  | answer (channelId : Int) (items : List MidjourneyDto)
  | item (now : Int)
  | sleep

/-- What `PostConsumeQuota` takes for a task.  These requests have no billing source, so the user's
quota is charged, and the token's outside of the playground. -/
def postConsumeQuota (isPlayground : Bool) (task quota : Int) : List Entry :=
  ⟨.user, task, quota⟩ :: if isPlayground then [] else [⟨.token, task, quota⟩]

def Sys.insert (s : Sys) (r : Request) (sub : Submitted) : Sys :=
  { s with
    rows := s.rows ++ [sub.task]
    nextId := s.nextId + 1
    debits := if sub.charged then s.debits ++ postConsumeQuota r.isPlayground s.nextId r.quota
      else s.debits }

def addTask (taskM : String → Option Midjourney) (task : Midjourney) : String → Option Midjourney :=
  Function.update taskM task.mjId (some task)

def loadPass (rows : List Midjourney) : Pass :=
  let tasks := rows.filter (·.progress ≠ progressDone)
  let named := tasks.filter (·.mjId ≠ "")
  { taskM := named.foldl addTask fun _ => none
    nullTaskIds := (tasks.filter (·.mjId = "")).map (·.id)
    todo := (named.map (·.channelId)).dedup.map fun c =>
      (c, (named.filter (·.channelId = c)).map (·.mjId))
    items := [] }

def Sys.failRows (s : Sys) (selected : Midjourney → Bool) (reason : Midjourney → String) : Sys :=
  { s with rows := s.rows.map fun r =>
      if selected r then
        { r with status := .failure, progress := progressDone, failReason := reason r }
      else r }

def Sys.matches (s : Sys) (task : Midjourney) : Bool :=
  s.rows.any fun r => r.id = task.id && r.status = task.status

def Sys.write (s : Sys) (task new : Midjourney) : Sys :=
  { s with rows := s.rows.map fun r => if r.id = task.id ∧ r.status = task.status then new else r }

section
variable (marshal : List String → String)

def Sys.increaseUserQuota (s : Sys) (task : Midjourney) : Sys :=
  { s with credits := s.credits ++ [⟨.user, task.id, task.quota⟩] }

def Sys.handle (s : Sys) (p : Pass) (task : Midjourney) (item : MidjourneyDto)
    (rest : List MidjourneyDto) (now : Int) : Sys :=
  match handleItem marshal task item now with
  | none => { s with pass := some { p with items := rest } }
  | some (new, refund) =>
    let written := { s.write task new with pass := some { p with
      items := rest, taskM := Function.update p.taskM item.mjId (some new) } }
    if s.matches task && refund then written.increaseUserQuota new else written

def Pass.visit (p : Pass) (channelId : Int) (items : List MidjourneyDto) : Pass :=
  { p with todo := p.todo.filter (·.1 ≠ channelId), items := items }

def Pass.ids (p : Pass) (channelId : Int) : Option (List String) :=
  if p.nullTaskIds = [] ∧ p.items = [] then p.todo.lookup channelId else none

def step (s : Sys) : Action → Option Sys
  | .submit r =>
    match relayMidjourneySubmit s.nextId r with
    | .error _ => some s
    | .ok sub => some (s.insert r sub)
  | .swapFace r =>
    match relaySwapFace s.nextId r with
    | .error _ => some s
    | .ok sub => some (s.insert r sub)
  | .load =>
    if s.running ∧ s.pass.isNone then some { s with pass := some (loadPass s.rows) } else none
  | .bulkNull => s.pass.bind fun p =>
    if p.nullTaskIds = [] then none
    else some { s.failRows (fun r => p.nullTaskIds.contains r.id) (·.failReason) with
      pass := some { p with nullTaskIds := [] } }
  | .missingChannel channelId => s.pass.bind fun p => (p.ids channelId).map fun ids =>
    { s.failRows (fun r => ids.contains r.mjId)
        (fun _ => "获取渠道信息失败，请联系管理员，渠道ID：" ++ toString channelId) with
      pass := some (p.visit channelId []) }
  | .noAnswer channelId => s.pass.bind fun p => (p.ids channelId).map fun _ =>
    { s with pass := some (p.visit channelId []) }
  | .answer channelId items => s.pass.bind fun p => (p.ids channelId).map fun _ =>
    { s with pass := some (p.visit channelId items) }
  | .item now => s.pass.bind fun p =>
    match p.items with
    | [] => none
    | item :: rest =>
      match p.taskM item.mjId with
      | none => some { s with pass := none, running := false }
      | some task => some (s.handle marshal p task item rest now)
  | .sleep => s.pass.bind fun p =>
    if p.nullTaskIds = [] ∧ p.todo = [] ∧ p.items = [] then some { s with pass := none } else none

/-- What each action can do. -/
inductive Effect (s : Sys) : Action → Sys → Prop
  | rejected {r} : Effect s (.submit r) s
  | rejectedSwap {r} : Effect s (.swapFace r) s
  | submit {r sub} (ok : relayMidjourneySubmit s.nextId r = .ok sub) :
      Effect s (.submit r) (s.insert r sub)
  | swapFace {r sub} (ok : relaySwapFace s.nextId r = .ok sub) :
      Effect s (.swapFace r) (s.insert r sub)
  | load : Effect s .load { s with pass := some (loadPass s.rows) }
  | bulkNull {p} (pass : s.pass = some p) : Effect s .bulkNull
      { s.failRows (fun r => p.nullTaskIds.contains r.id) (·.failReason) with
        pass := some { p with nullTaskIds := [] } }
  | missingChannel {channelId p ids} (pass : s.pass = some p) (asked : p.ids channelId = some ids) :
      Effect s (.missingChannel channelId)
      { s.failRows (fun r => List.contains ids r.mjId)
          (fun _ => "获取渠道信息失败，请联系管理员，渠道ID：" ++ toString channelId) with
        pass := some (p.visit channelId []) }
  | noAnswer {channelId p} (pass : s.pass = some p) :
      Effect s (.noAnswer channelId) { s with pass := some (p.visit channelId []) }
  | answer {channelId p items} (pass : s.pass = some p) :
      Effect s (.answer channelId items) { s with pass := some (p.visit channelId items) }
  | panic {now} : Effect s (.item now) { s with pass := none, running := false }
  | item {now p item rest task} (pass : s.pass = some p) (items : p.items = item :: rest)
      (known : p.taskM item.mjId = some task) :
      Effect s (.item now) (s.handle marshal p task item rest now)
  | sleep : Effect s .sleep { s with pass := none }

theorem step_effect (h : step marshal s a = some t) : Effect marshal s a t := by
  revert h
  fun_cases step marshal s a <;> intro h <;> try cases h
  next => exact .rejected
  next ok => exact .submit ok
  next => exact .rejectedSwap
  next ok => exact .swapFace ok
  next => exact .load
  all_goals obtain ⟨p, pass, h⟩ := bind_eq_some_iff.mp h
  next =>
    split at h <;> cases h
    exact .bulkNull pass
  next =>
    obtain ⟨ids, asked, rfl⟩ := map_eq_some_iff.mp h
    exact .missingChannel pass asked
  next =>
    obtain ⟨ids, -, rfl⟩ := map_eq_some_iff.mp h
    exact .noAnswer pass
  next =>
    obtain ⟨ids, -, rfl⟩ := map_eq_some_iff.mp h
    exact .answer pass
  next =>
    split at h
    · contradiction
    next item rest items =>
      split at h <;> cases h
      · exact .panic
      · exact .item pass items ‹_›
  next =>
    split at h <;> cases h
    exact .sleep

end

def Sys.start : Sys where
  rows := []
  nextId := 1
  debits := []
  credits := []
  pass := none
  running := true

end EastApi.MjProxy
