import EastApi.AsyncTask.System
import EastApi.Lib.Grouping
import Mathlib.Data.List.Nodup

/-! One iteration of `TaskPollingLoop` over the unfinished tasks of a platform.  The loop groups the
upstream ids by channel, but finds the task of an id again in `taskM`, a map keyed by the upstream
id alone. -/

namespace EastApi.AsyncTask

open List Function Option Prod

structure Channel where
  type : Int
  baseURL : Option String
  (key proxy : String)
deriving DecidableEq, Repr

/-- A task as one upstream is asked for it.  Only the video poller sends the action. -/
structure Fetch where
  channelId : Int
  (baseURL key proxy upstreamID : String)
  action : Option String
deriving DecidableEq, Repr

structure SunoRequest where
  channelId : Int
  (baseURL key proxy : String)
  ids : List String
deriving DecidableEq, Repr

/-- A part of an answer that is read into a task: the channel that answered, the upstream id that
the part is looked up by, and the row of the task that the lookup found. -/
structure Applied where
  channelId : Int
  upstreamID : String
  row : Int
deriving DecidableEq, Repr

/-- What a round finds outside of the task table: `CacheGetChannel`, `GetTaskAdaptorFunc`,
`constant.ChannelBaseURLs`, the answers of the upstreams and the times at which they arrive.  An
answer is `none` when the fetch fails or the body is not a success. -/
structure World where
  cfg : Config
  cacheGetChannel : Int → Option Channel
  hasAdaptor : String → Bool
  channelBaseURLs : Int → String
  video : Fetch → Option VideoBody
  suno : SunoRequest → Option (List (String × SunoItem))
  now : Fetch → Int

def Channel.getBaseURL (ch : Channel) (channelBaseURLs : Int → String) : String :=
  match ch.baseURL with
  | none => ""
  | some url => if url = "" then channelBaseURLs ch.type else url

def Channel.videoURL (ch : Channel) (channelBaseURLs : Int → String) : String :=
  if ch.getBaseURL channelBaseURLs ≠ "" then ch.getBaseURL channelBaseURLs
  else channelBaseURLs ch.type

structure TaskIndex where
  taskM : String → Option Task := fun _ => none
  taskChannelM : List (Int × List String) := []
  nullTaskIds : List Int := []

def TaskIndex.add (ix : TaskIndex) (task : Task) : TaskIndex :=
  if task.getUpstreamTaskID = "" then { ix with nullTaskIds := ix.nullTaskIds ++ [task.id] }
  else { ix with
    taskM := update ix.taskM task.getUpstreamTaskID (some task)
    taskChannelM := Grouping.push task.channelId task.getUpstreamTaskID ix.taskChannelM }

def indexTasks (tasks : List Task) : TaskIndex := tasks.foldl TaskIndex.add {}

def pollable (tasks : List Task) : List Task := tasks.filter (·.getUpstreamTaskID ≠ "")

/-- The stored rows by primary key, the copies that `taskM` points to, and what the round has done:
the tasks asked for, the answers read into tasks, and the billing calls. -/
structure Round where
  rows : Int → Task
  taskM : String → Option Task
  fetched : List Fetch := []
  applied : List Applied := []
  calls : List (BillingCall × Task) := []

def Round.bulkUpdate (st : Round) (ids : List Int) (f : Task → Task) : Round :=
  { st with rows := fun r => if r ∈ ids then f (st.rows r) else st.rows r }

def Round.failChannel (st : Round) (channelId : Int) (taskIds : List String) : Round :=
  st.bulkUpdate ((taskIds.filterMap st.taskM).map (·.id)) (bulkChannelTask · channelId)

variable (world : World)

def videoFetch (ch : Channel) (channelId : Int) (task : Task) : Fetch where
  channelId := channelId
  baseURL := ch.videoURL world.channelBaseURLs
  key := if task.privateData.key ≠ "" then task.privateData.key else ch.key
  proxy := ch.proxy
  upstreamID := task.getUpstreamTaskID
  action := some task.action

/-- The copy in `taskM` after the answer has been read into it, the row after the write, and the
billing call that follows the write. -/
def Round.readInto (st : Round) (taskId : String) (task : Task) (read : VideoRead) : Round :=
  match read with
  | .stop new => { st with taskM := update st.taskM taskId (some new) }
  | .write new billing =>
    let written := writeVideo (st.rows task.id) task new billing
    { st with
      rows := update st.rows task.id written.row
      taskM := update st.taskM taskId (some new)
      calls := st.calls ++ (written.billing.map fun call => (call, new)).toList }

def updateVideoSingleTask (ch : Channel) (channelId : Int) (st : Round) (taskId : String) :
    Round :=
  match st.taskM taskId with
  | none => st
  | some task =>
    let fetch := videoFetch world ch channelId task
    let read := readVideo world.cfg.serverAddress task (world.video fetch) (world.now fetch)
    let st : Round := { st with
      fetched := st.fetched ++ [fetch]
      applied := st.applied ++ [⟨channelId, taskId, task.id⟩] }
    st.readInto taskId task read

def updateVideoTasks (platform : String) (st : Round) (entry : Int × List String) : Round :=
  match world.cacheGetChannel entry.1 with
  | none => st.failChannel entry.1 entry.2
  | some ch =>
    if world.hasAdaptor platform then
      entry.2.foldl (updateVideoSingleTask world ch entry.1) st
    else st

def sunoFetch (ch : Channel) (baseURL : String) (channelId : Int) (upstreamID : String) :
    Fetch where
  channelId := channelId
  baseURL := baseURL
  key := ch.key
  proxy := ch.proxy
  upstreamID := upstreamID
  action := none

def sunoRequest (ch : Channel) (baseURL : String) (entry : Int × List String) : SunoRequest where
  channelId := entry.1
  baseURL := baseURL
  key := ch.key
  proxy := ch.proxy
  ids := entry.2

/-- One item of the answer of the Suno upstream.  An item with an id that is not in `taskM` is
`none`: `taskNeedsUpdate` reads through a nil pointer. -/
def applySunoItem (channelId : Int) (st : Round) (item : String × SunoItem) : Option Round :=
  (st.taskM item.1).map fun task =>
    let st := { st with applied := st.applied ++ [⟨channelId, item.1, task.id⟩] }
    if taskNeedsUpdate world.cfg.marshal task item.2 then
      let new := sunoTask task item.2
      { st with
        rows := update st.rows task.id new
        taskM := update st.taskM item.1 (some new)
        calls := if item.2.fails task then st.calls ++ [(.refund, new)] else st.calls }
    else st

def updateSunoTasks (st : Round) (entry : Int × List String) : Option Round :=
  match world.cacheGetChannel entry.1 with
  | none => some (st.failChannel entry.1 entry.2)
  | some ch =>
    if world.hasAdaptor platformSuno then
      ch.baseURL.bind fun baseURL =>
        ((world.suno (sunoRequest ch baseURL entry)).getD []).foldlM
          (applySunoItem world entry.1)
          { st with fetched := st.fetched ++ entry.2.map (sunoFetch ch baseURL entry.1) }
    else some st

/-- `DispatchPlatformUpdate`, with the entries of `taskChannelM` in the order in which the range
visits them.  Midjourney tasks are polled elsewhere. -/
def dispatchPlatformUpdate (platform : String) (order : List (Int × List String)) (st : Round) :
    Option Round :=
  if platform = platformMidjourney then some st
  else if platform = platformSuno then order.foldlM (updateSunoTasks world) st
  else some (order.foldl (updateVideoTasks world platform) st)

def Round.start (rows : Int → Task) (tasks : List Task) : Round :=
  Round.bulkUpdate { rows := rows, taskM := (indexTasks tasks).taskM }
    (indexTasks tasks).nullTaskIds bulkNullTask

def pollPlatform (platform : String) (tasks : List Task) (order : List (Int × List String))
    (rows : Int → Task) : Option Round :=
  dispatchPlatformUpdate world platform order (.start rows tasks)

def ownFetch (platform : String) (task : Task) : Option Fetch :=
  (world.cacheGetChannel task.channelId).bind fun ch =>
    if platform = platformSuno then
      ch.baseURL.map fun baseURL => sunoFetch ch baseURL task.channelId task.getUpstreamTaskID
    else some (videoFetch world ch task.channelId task)

def Applied.Own (tasks : List Task) (a : Applied) : Prop :=
  ∃ t ∈ pollable tasks, t.channelId = a.channelId ∧ t.getUpstreamTaskID = a.upstreamID ∧
    t.id = a.row

/-- Every task with an upstream id was asked for once, at its own channel and with its own key,
every answer was read into the task it was fetched for, and no other row was written. -/
structure Polled (platform : String) (tasks : List Task) (before after : Round) : Prop where
  fetched : (after.fetched.map some).Perm ((pollable tasks).map (ownFetch world platform))
  applied : ∀ a ∈ after.applied, a.Own tasks
  rows : ∀ r, after.rows r ≠ before.rows r → ∃ a ∈ after.applied, a.row = r

def VideoIdsApart (platform : String) (tasks : List Task) : Prop :=
  ((pollable tasks).map (·.getUpstreamTaskID)).Nodup ∧
    ∀ t ∈ pollable tasks, world.hasAdaptor platform = true ∧
      (world.cacheGetChannel t.channelId).isSome = true

/-- The rounds of Suno: every channel is there with a base URL, and answers only with ids that
`taskM` has a task of this channel for. -/
def SunoIdsApart (tasks : List Task) : Prop :=
  ∀ entry ∈ (indexTasks tasks).taskChannelM, world.hasAdaptor platformSuno = true ∧
    ∃ ch baseURL, world.cacheGetChannel entry.1 = some ch ∧ ch.baseURL = some baseURL ∧
      ∀ items, world.suno (sunoRequest ch baseURL entry) = some items →
        ∀ item ∈ items, ∃ t, (indexTasks tasks).taskM item.1 = some t ∧ t.channelId = entry.1

def IdsApart (platform : String) (tasks : List Task) : Prop :=
  if platform = platformMidjourney then pollable tasks = []
  else if platform = platformSuno then SunoIdsApart world tasks
  else VideoIdsApart world platform tasks

theorem foldl_add_taskChannelM (tasks : List Task) (ix : TaskIndex) :
    (tasks.foldl TaskIndex.add ix).taskChannelM =
      Grouping.collect (·.channelId) (·.getUpstreamTaskID) (pollable tasks) ix.taskChannelM := by
  induction tasks generalizing ix with
  | nil => rfl
  | cons t tasks ih =>
    rw [foldl_cons, ih]
    by_cases empty : t.getUpstreamTaskID = ""
    · simp [pollable, TaskIndex.add, empty]
    · simp [pollable, TaskIndex.add, empty, Grouping.collect]

theorem foldl_add_taskM (tasks : List Task) (ix : TaskIndex) (u : String) :
    (tasks.foldl TaskIndex.add ix).taskM u =
      ((pollable tasks).reverse.find? (·.getUpstreamTaskID = u)).or (ix.taskM u) := by
  induction tasks generalizing ix with
  | nil => simp [pollable]
  | cons t tasks ih =>
    rw [foldl_cons, ih]
    by_cases empty : t.getUpstreamTaskID = ""
    · simp [pollable, TaskIndex.add, empty]
    · have first : (ix.add t).taskM u =
          ([t].find? (·.getUpstreamTaskID = u)).or (ix.taskM u) := by
        by_cases same : t.getUpstreamTaskID = u
        · simp [TaskIndex.add, ← same, empty]
        · simp [TaskIndex.add, empty, same, update_of_ne (Ne.symm same)]
      have here : pollable (t :: tasks) = t :: pollable tasks := by simp [pollable, empty]
      rw [first, here, reverse_cons, find?_append, Option.or_assoc]

theorem indexTasks_pairs (tasks : List Task) :
    (Grouping.pairs (indexTasks tasks).taskChannelM).Perm
      ((pollable tasks).map fun t => (t.channelId, t.getUpstreamTaskID)) := by
  rw [indexTasks, foldl_add_taskChannelM]
  simpa [Grouping.pairs] using Grouping.pairs_collect (fun t : Task => t.channelId)
    (fun t : Task => t.getUpstreamTaskID) (pollable tasks) []

theorem taskChannelM_ne_nil (h : e ∈ (indexTasks tasks).taskChannelM) : e.2 ≠ [] := by
  rw [indexTasks, foldl_add_taskChannelM] at h
  exact Grouping.ne_nil_of_mem_collect h

theorem mem_of_taskM (h : (indexTasks tasks).taskM u = some t) :
    t ∈ pollable tasks ∧ t.getUpstreamTaskID = u := by
  rw [indexTasks, foldl_add_taskM, or_none] at h
  exact ⟨mem_reverse.mp (mem_of_find?_eq_some h), by simpa using find?_some h⟩

theorem exists_taskM (h : t ∈ pollable tasks) :
    ∃ t', (indexTasks tasks).taskM t.getUpstreamTaskID = some t' := by
  rw [indexTasks, foldl_add_taskM, or_none]
  exact isSome_iff_exists.mp (find?_isSome.mpr ⟨t, by simpa using h, by simp⟩)

theorem taskM_own (apart : ((pollable tasks).map (·.getUpstreamTaskID)).Nodup)
    (h : t ∈ pollable tasks) :
    (indexTasks tasks).taskM t.getUpstreamTaskID = some t := by
  obtain ⟨t', found⟩ := exists_taskM h
  obtain ⟨mem, same⟩ := mem_of_taskM found
  rw [found, inj_on_of_nodup_map apart mem h same]

def Task.handle (t : Task) : Int × String × String × String :=
  (t.id, t.getUpstreamTaskID, t.privateData.key, t.action)

def SameHandles (m0 m : String → Option Task) : Prop :=
  ∀ u, (m u).map Task.handle = (m0 u).map Task.handle

theorem SameHandles.update (h : SameHandles m0 m) (found : m u = some t)
    (same : new.handle = t.handle) : SameHandles m0 (update m u (some new)) := by
  intro v
  by_cases own : v = u
  · subst own
    rw [← h, found, update_self]
    simp [same]
  · rw [update_of_ne own]
    exact h v

theorem SameHandles.lookup (h : SameHandles m0 m) (found : m u = some t) :
    ∃ t0, m0 u = some t0 ∧ t0.handle = t.handle := by
  have same := h u
  rw [found] at same
  obtain ⟨t0, found0, handle⟩ := map_eq_some_iff.mp same.symm
  exact ⟨t0, found0, handle⟩

theorem SameHandles.isSome (h : SameHandles m0 m) (u : String) : (m u).isSome = (m0 u).isSome := by
  simpa using congrArg Option.isSome (h u)

def VideoRead.task : VideoRead → Task
  | .stop t => t
  | .write t _ => t

omit world in
theorem readVideo_handle (serverAddress : String) (t : Task) (body : Option VideoBody)
    (now : Int) : (readVideo serverAddress t body now).task.handle = t.handle := by
  fun_cases readVideo serverAddress t body now <;> try rfl
  unfold applyStatus
  split
  case h_1 | h_2 | h_3 | h_4 =>
    unfold withProgress
    split <;> rfl
  case h_5 | h_6 => rfl

theorem videoFetch_congr (h : a.handle = b.handle) (ch : Channel) (c : Int) :
    videoFetch world ch c a = videoFetch world ch c b := by
  simp only [Task.handle, mk.injEq] at h
  obtain ⟨-, upstream, key, action⟩ := h
  simp [videoFetch, upstream, key, action]

/-- The round has gone on from `st` to `st'`: it has asked for `fs`, read answers into `as`, and
written no other rows, unless it met a channel that is not there. -/
structure Advance (m0 : String → Option Task) (lost : Prop) (st st' : Round) (fs : List Fetch)
    (as : List Applied) : Prop where
  handles : SameHandles m0 st'.taskM
  fetched : st'.fetched = st.fetched ++ fs
  applied : st'.applied = st.applied ++ as
  rows : ∀ r, st'.rows r ≠ st.rows r → (∃ a ∈ as, a.row = r) ∨ lost

section
variable {world : World} {m0 : String → Option Task} {lost : Prop} {st st' st'' : Round}
  {fs fs' : List Fetch} {as as' : List Applied} {ι : Type}

omit world in
theorem Advance.trans (h : Advance m0 lost st st' fs as) (h' : Advance m0 lost st' st'' fs' as') :
    Advance m0 lost st st'' (fs ++ fs') (as ++ as') := by
  refine ⟨h'.handles, by simp [h'.fetched, h.fetched], by simp [h'.applied, h.applied], ?_⟩
  intro r changed
  by_cases later : st''.rows r = st'.rows r
  · rw [later] at changed
    exact (h.rows r changed).imp_left fun ⟨a, mem, row⟩ => ⟨a, by simp [mem], row⟩
  · exact (h'.rows r later).imp_left fun ⟨a, mem, row⟩ => ⟨a, by simp [mem], row⟩

omit world in
private theorem flatMap_nil_right {α β : Type} (l : List α) :
    (l.flatMap fun _ => ([] : List β)) = [] := flatMap_eq_nil_iff.mpr fun _ _ => rfl

omit world in
theorem flatMap_entries {α β : Type} (order : List (Int × List α)) (f : Int × α → Option β) :
    (order.flatMap fun e => e.2.flatMap fun u => (f (e.1, u)).toList) =
      (Grouping.pairs order).filterMap f := by
  simp [Grouping.pairs, filterMap_eq_flatMap_toList, flatMap_assoc, flatMap_map]

def videoAt (world : World) (m0 : String → Option Task) (platform : String) (p : Int × String) :
    Option (Fetch × Applied) :=
  (world.cacheGetChannel p.1).bind fun ch =>
    if world.hasAdaptor platform then
      (m0 p.2).map fun t => (videoFetch world ch p.1 t, ⟨p.1, p.2, t.id⟩)
    else none

def itemAt (m0 : String → Option Task) (c : Int) (item : String × SunoItem) : Option Applied :=
  (m0 item.1).map fun t => ⟨c, item.1, t.id⟩

def sunoChannel (world : World) (c : Int) : Option (Channel × String) :=
  (world.cacheGetChannel c).bind fun ch =>
    if world.hasAdaptor platformSuno then ch.baseURL.map fun baseURL => (ch, baseURL) else none

def sunoAt (world : World) (p : Int × String) : Option Fetch :=
  (sunoChannel world p.1).map fun x => sunoFetch x.1 x.2 p.1 p.2

def sunoItems (world : World) (entry : Int × List String) : List (String × SunoItem) :=
  match sunoChannel world entry.1 with
  | none => []
  | some x => (world.suno (sunoRequest x.1 x.2 entry)).getD []

variable (h : SameHandles m0 st.taskM)
include h

omit world in
theorem Advance.refl : Advance m0 lost st st [] [] :=
  ⟨h, by simp, by simp, fun _ changed => absurd rfl changed⟩

theorem Advance.foldl {fs : ι → List Fetch} {as : ι → List Applied} (l : List ι)
    (step : ∀ i ∈ l, ∀ st, SameHandles m0 st.taskM → Advance m0 lost st (f st i) (fs i) (as i)) :
    Advance m0 lost st (l.foldl f st) (l.flatMap fs) (l.flatMap as) := by
  induction l generalizing st with
  | nil => exact .refl h
  | cons i l ih =>
    have first := step i (by simp) st h
    exact first.trans (ih first.handles fun j hj => step j (by simp [hj]))

theorem updateVideoSingleTask_advance (ch : Channel) (c : Int) (u : String) :
    Advance m0 lost st (updateVideoSingleTask world ch c st u)
      ((m0 u).map (videoFetch world ch c)).toList
      ((m0 u).map fun t => (⟨c, u, t.id⟩ : Applied)).toList := by
  unfold updateVideoSingleTask
  split
  next found =>
    have none : m0 u = none := by simpa [found] using h.isSome u
    simpa [none] using Advance.refl h
  next t found =>
    obtain ⟨t0, found0, same⟩ := h.lookup found
    have id : t0.id = t.id := congrArg fst same
    have keep := readVideo_handle world.cfg.serverAddress t (world.video (videoFetch world ch c t))
      (world.now (videoFetch world ch c t))
    simp only [found0, map_some, toList_some, videoFetch_congr world same, id]
    revert keep
    generalize readVideo world.cfg.serverAddress t _ _ = read
    intro keep
    cases read with
    | stop new =>
      exact ⟨h.update found keep, rfl, rfl, fun _ changed => absurd rfl changed⟩
    | write new billing =>
      refine ⟨h.update found keep, rfl, rfl, fun r changed =>
        .inl ⟨_, mem_singleton_self _, ?_⟩⟩
      by_contra other
      exact changed (update_of_ne (Ne.symm other) _ _)

omit world in
theorem failChannel_advance (c : Int) (taskIds : List String) (missing : lost) :
    Advance m0 lost st (st.failChannel c taskIds) [] [] :=
  ⟨h, by simp [Round.failChannel, Round.bulkUpdate], by simp [Round.failChannel, Round.bulkUpdate],
    fun _ _ => .inr missing⟩

theorem updateVideoTasks_advance (platform : String) (entry : Int × List String)
    (missing : world.cacheGetChannel entry.1 = none → lost) :
    Advance m0 lost st (updateVideoTasks world platform st entry)
      (entry.2.flatMap fun u => ((videoAt world m0 platform (entry.1, u)).map fst).toList)
      (entry.2.flatMap fun u =>
        ((videoAt world m0 platform (entry.1, u)).map snd).toList) := by
  unfold updateVideoTasks
  split
  next none => simpa [videoAt, none, flatMap_nil_right] using
      failChannel_advance h entry.1 entry.2 (missing none)
  next ch found =>
    split
    next adaptor =>
      have each : ∀ u ∈ entry.2, ∀ st : Round, SameHandles m0 st.taskM →
          Advance m0 lost st (updateVideoSingleTask world ch entry.1 st u)
            ((videoAt world m0 platform (entry.1, u)).map fst).toList
            ((videoAt world m0 platform (entry.1, u)).map snd).toList := by
        intro u _ st h
        simpa [videoAt, found, adaptor, comp_def] using
          updateVideoSingleTask_advance h ch entry.1 u
      exact Advance.foldl h entry.2 each
    next adaptor => simpa [videoAt, found, adaptor, flatMap_nil_right] using Advance.refl h

omit world in
theorem Advance.foldlM {fine : ι → Prop} {fs : ι → List Fetch} {as : ι → List Applied}
    (l : List ι) (step : ∀ i ∈ l, ∀ st st', SameHandles m0 st.taskM → f st i = some st' →
      fine i ∧ Advance m0 lost st st' (fs i) (as i)) (run : l.foldlM f st = some st') :
    (∀ i ∈ l, fine i) ∧ Advance m0 lost st st' (l.flatMap fs) (l.flatMap as) := by
  induction l generalizing st with
  | nil =>
    cases run
    exact ⟨by simp, .refl h⟩
  | cons i l ih =>
    rw [foldlM_cons] at run
    obtain ⟨mid, first, rest⟩ := bind_eq_some_iff.mp run
    obtain ⟨fine, advance⟩ := step i (by simp) st mid h first
    obtain ⟨fineRest, advanceRest⟩ := ih advance.handles (fun j hj => step j (by simp [hj])) rest
    exact ⟨forall_mem_cons.mpr ⟨fine, fineRest⟩, advance.trans advanceRest⟩

theorem applySunoItem_advance (run : applySunoItem world c st item = some st') :
    (m0 item.1).isSome = true ∧ Advance m0 lost st st' [] (itemAt m0 c item).toList := by
  obtain ⟨t, found, run⟩ := map_eq_some_iff.mp run
  obtain ⟨t0, found0, same⟩ := h.lookup found
  have id : t0.id = t.id := congrArg fst same
  refine ⟨by simp [found0], ?_⟩
  simp only [itemAt, found0, map_some, toList_some, id]
  dsimp only at run
  split at run
  · subst run
    refine ⟨h.update found rfl, by simp, rfl, fun r changed =>
      .inl ⟨_, mem_singleton_self _, ?_⟩⟩
    by_contra other
    exact changed (update_of_ne (Ne.symm other) _ _)
  · subst run
    exact ⟨h, by simp, rfl, fun _ changed => absurd rfl changed⟩

theorem updateSunoTasks_advance {entry : Int × List String}
    (missing : world.cacheGetChannel entry.1 = none → lost)
    (run : updateSunoTasks world st entry = some st') :
    (∀ item ∈ sunoItems world entry, (m0 item.1).isSome = true) ∧
      Advance m0 lost st st' (entry.2.flatMap fun u => (sunoAt world (entry.1, u)).toList)
        ((sunoItems world entry).flatMap fun item => (itemAt m0 entry.1 item).toList) := by
  unfold updateSunoTasks at run
  split at run
  next none =>
    cases run
    simpa [sunoItems, sunoAt, sunoChannel, none, flatMap_nil_right] using
      failChannel_advance h entry.1 entry.2 (missing none)
  next ch found =>
    split at run
    next adaptor =>
      obtain ⟨baseURL, url, run⟩ := bind_eq_some_iff.mp run
      have channel : sunoChannel world entry.1 = some (ch, baseURL) := by
        simp [sunoChannel, found, adaptor, url]
      have asked : Advance m0 lost st
          { st with fetched := st.fetched ++ entry.2.map (sunoFetch ch baseURL entry.1) }
          (entry.2.map (sunoFetch ch baseURL entry.1)) [] :=
        ⟨h, rfl, by simp, fun _ changed => absurd rfl changed⟩
      obtain ⟨named, read⟩ := Advance.foldlM asked.handles _
        (fun item _ st st' h run => applySunoItem_advance h run) run
      refine ⟨by simpa [sunoItems, channel] using named, ?_⟩
      have both := asked.trans read
      simpa [sunoItems, sunoAt, channel, flatMap_nil_right, map_eq_flatMap] using both
    next adaptor =>
      cases run
      have none : sunoChannel world entry.1 = none := by simp [sunoChannel, found, adaptor]
      simpa [sunoItems, sunoAt, none, flatMap_nil_right] using Advance.refl h

theorem updateSunoTasks_isSome (reached : sunoChannel world entry.1 = some x)
    (named : ∀ item ∈ sunoItems world entry, (m0 item.1).isSome = true) :
    (updateSunoTasks world st entry).isSome = true := by
  obtain ⟨ch, found, rest⟩ := bind_eq_some_iff.mp reached
  simp only [updateSunoTasks, found]
  split
  next adaptor =>
    rw [if_pos adaptor] at rest
    obtain ⟨baseURL, url, rfl⟩ := map_eq_some_iff.mp rest
    simp only [sunoItems, reached] at named
    rw [url, bind_some]
    refine (Run.foldlM_isSome_iff (I := fun st => SameHandles m0 st.taskM)
      (P := fun item => (m0 item.1).isSome = true) _ (fun _ _ st st' hs run => ?_)
      (fun _ _ _ hs => by rw [applySunoItem, isSome_map, hs.isSome]) h).mpr named
    have advance : Advance m0 True st st' [] _ := (applySunoItem_advance hs run).2
    exact advance.handles
  · rfl

theorem sunoRound_advance {order : List (Int × List String)}
    (run : order.foldlM (updateSunoTasks world) st = some st') :
    (∀ e ∈ order, ∀ item ∈ sunoItems world e, (m0 item.1).isSome = true) ∧
      Advance m0 (∃ e ∈ order, world.cacheGetChannel e.1 = none) st st'
        ((Grouping.pairs order).filterMap (sunoAt world))
        (order.flatMap fun e => (sunoItems world e).flatMap fun item =>
          (itemAt m0 e.1 item).toList) := by
  rw [← flatMap_entries]
  exact Advance.foldlM h order
    (fun e he st st' h run => updateSunoTasks_advance h (fun none => ⟨e, he, none⟩) run) run

end

private theorem map_some_filterMap {α β : Type} {l : List α} {f : α → Option β}
    (h : ∀ a ∈ l, (f a).isSome = true) : (l.filterMap f).map some = l.map f := by
  induction l with
  | nil => rfl
  | cons a l ih =>
    obtain ⟨b, hb⟩ := isSome_iff_exists.mp (h a (by simp))
    simp [hb, ih fun a' ha' => h a' (by simp [ha'])]

section
variable {world : World} {platform : String} {tasks : List Task} {order : List (Int × List String)}
  {fetchAt : Int × String → Option Fetch}

theorem eq_of_id (ids : (tasks.map (·.id)).Nodup) (ha : a ∈ pollable tasks)
    (hb : b ∈ pollable tasks) (h : a.id = b.id) : a = b :=
  inj_on_of_nodup_map ids (mem_of_mem_filter ha) (mem_of_mem_filter hb) h

/-- Where every answer of a video platform reaches its own task, the upstream ids are apart:
`taskM` can find only one task under an id. -/
theorem ids_apart_of_own (ids : (tasks.map (·.id)).Nodup)
    (unique : ((pollable tasks).map fun t => (t.channelId, t.getUpstreamTaskID)).Nodup)
    (own : ∀ t ∈ pollable tasks, ∀ t', (indexTasks tasks).taskM t.getUpstreamTaskID = some t' →
      Applied.Own tasks ⟨t.channelId, t.getUpstreamTaskID, t'.id⟩) :
    ((pollable tasks).map (·.getUpstreamTaskID)).Nodup := by
  have found : ∀ t ∈ pollable tasks, (indexTasks tasks).taskM t.getUpstreamTaskID = some t := by
    intro t ht
    obtain ⟨t', ht'⟩ := exists_taskM ht
    obtain ⟨o, ho, channel, upstream, id⟩ := own t ht t' ht'
    have same : o = t := inj_on_of_nodup_map unique ho ht (Prod.ext channel upstream)
    rw [ht', ← eq_of_id ids ho (mem_of_taskM ht').1 id, same]
  refine List.Nodup.map_on (fun a ha b hb same => ?_) ((ids.of_map _).filter _)
  have := found a ha
  rw [same, found b hb] at this
  exact (some.inj this).symm

theorem start_handles (rows : Int → Task) (tasks : List Task) :
    SameHandles (indexTasks tasks).taskM (Round.start rows tasks).taskM := fun _ => rfl

theorem SunoIdsApart.entry (apart : SunoIdsApart world tasks) {e : Int × List String}
    (he : e ∈ (indexTasks tasks).taskChannelM) :
    ∃ ch baseURL, world.cacheGetChannel e.1 = some ch ∧ ch.baseURL = some baseURL ∧
      sunoChannel world e.1 = some (ch, baseURL) ∧
      ∀ item ∈ sunoItems world e, ∃ t, (indexTasks tasks).taskM item.1 = some t ∧
        t.channelId = e.1 := by
  obtain ⟨adaptor, ch, baseURL, channel, url, items⟩ := apart e he
  have reached : sunoChannel world e.1 = some (ch, baseURL) := by
    simp [sunoChannel, channel, adaptor, url]
  refine ⟨ch, baseURL, channel, url, reached, fun item hitem => ?_⟩
  cases answer : world.suno (sunoRequest ch baseURL e) with
  | none => simp [sunoItems, reached, answer] at hitem
  | some l => exact items l answer item (by simpa [sunoItems, reached, answer] using hitem)

variable (perm : order.Perm (indexTasks tasks).taskChannelM)
include perm

theorem mem_pairs_of_order {p : Int × String} :
    p ∈ Grouping.pairs order ↔
      ∃ t ∈ pollable tasks, (t.channelId, t.getUpstreamTaskID) = p := by
  rw [((Grouping.pairs_perm perm).trans (indexTasks_pairs tasks)).mem_iff, List.mem_map]

theorem fetchAt_isSome (fetched : (((Grouping.pairs order).filterMap fetchAt).map some).Perm
      ((pollable tasks).map (ownFetch world platform))) {t : Task} (ht : t ∈ pollable tasks) :
    (fetchAt (t.channelId, t.getUpstreamTaskID)).isSome = true := by
  have pairs := (Grouping.pairs_perm perm).trans (indexTasks_pairs tasks)
  have length : ((Grouping.pairs order).filterMap fetchAt).length =
      (Grouping.pairs order).length := by
    rw [pairs.length_eq, length_map]
    simpa using fetched.length_eq
  exact filterMap_length_eq_length.mp length _
    ((mem_pairs_of_order perm).mpr ⟨t, ht, rfl⟩)

theorem fetched_perm (own : ∀ t ∈ pollable tasks,
      (fetchAt (t.channelId, t.getUpstreamTaskID)).isSome = true ∧
        fetchAt (t.channelId, t.getUpstreamTaskID) = ownFetch world platform t) :
    (((Grouping.pairs order).filterMap fetchAt).map some).Perm
      ((pollable tasks).map (ownFetch world platform)) := by
  have pairs := (Grouping.pairs_perm perm).trans (indexTasks_pairs tasks)
  have reached : ∀ p ∈ Grouping.pairs order, (fetchAt p).isSome = true := by
    intro p hp
    obtain ⟨t, ht, rfl⟩ := (mem_pairs_of_order perm).mp hp
    exact (own t ht).1
  have each : (pollable tasks).map (ownFetch world platform) =
      ((pollable tasks).map fun t => (t.channelId, t.getUpstreamTaskID)).map fetchAt := by
    rw [List.map_map]
    exact map_congr_left fun t ht => (own t ht).2.symm
  rw [map_some_filterMap reached, each]
  exact pairs.map _

theorem video_polled_iff (rows : Int → Task) (video : platform ≠ platformSuno)
    (ids : (tasks.map (·.id)).Nodup)
    (unique : ((pollable tasks).map fun t => (t.channelId, t.getUpstreamTaskID)).Nodup) :
    Polled world platform tasks (.start rows tasks)
        (order.foldl (updateVideoTasks world platform) (.start rows tasks)) ↔
      VideoIdsApart world platform tasks := by
  have round : Advance _ (∃ e ∈ order, world.cacheGetChannel e.1 = none) (.start rows tasks)
      (order.foldl (updateVideoTasks world platform) (.start rows tasks)) _ _ :=
    Advance.foldl (start_handles rows tasks) order fun e he _ h =>
      updateVideoTasks_advance h platform e fun none => ⟨e, he, none⟩
  rw [flatMap_entries order fun p => (videoAt world _ platform p).map fst,
    flatMap_entries order fun p => (videoAt world _ platform p).map snd] at round
  have fetchedAll := round.fetched.trans (nil_append _)
  have appliedAll := round.applied.trans (nil_append _)
  constructor
  · intro polled
    have reached := fun t (ht : t ∈ pollable tasks) =>
      fetchAt_isSome perm (fetchedAll ▸ polled.fetched) ht
    have ready : ∀ t ∈ pollable tasks, world.hasAdaptor platform = true ∧
        (world.cacheGetChannel t.channelId).isSome = true := by
      intro t ht
      have here := reached t ht
      cases channel : world.cacheGetChannel t.channelId with
      | none => simp [videoAt, channel] at here
      | some ch =>
        cases adaptor : world.hasAdaptor platform with
        | false => simp [videoAt, channel, adaptor] at here
        | true => exact ⟨rfl, rfl⟩
    refine ⟨ids_apart_of_own ids unique fun t ht t' found => ?_, ready⟩
    obtain ⟨adaptor, channel⟩ := ready t ht
    obtain ⟨ch, channel⟩ := isSome_iff_exists.mp channel
    refine polled.applied _ ?_
    rw [appliedAll]
    refine mem_filterMap.mpr
      ⟨(t.channelId, t.getUpstreamTaskID), (mem_pairs_of_order perm).mpr ⟨t, ht, rfl⟩, ?_⟩
    simp [videoAt, channel, adaptor, found]
  · rintro ⟨apart, ready⟩
    have own : ∀ t ∈ pollable tasks, ∃ ch, world.cacheGetChannel t.channelId = some ch ∧
        videoAt world (indexTasks tasks).taskM platform (t.channelId, t.getUpstreamTaskID) =
          some (videoFetch world ch t.channelId t, ⟨t.channelId, t.getUpstreamTaskID, t.id⟩) := by
      intro t ht
      obtain ⟨adaptor, channel⟩ := ready t ht
      obtain ⟨ch, channel⟩ := isSome_iff_exists.mp channel
      exact ⟨ch, channel, by simp [videoAt, channel, adaptor, taskM_own apart ht]⟩
    have found : ¬ ∃ e ∈ order, world.cacheGetChannel e.1 = none := by
      rintro ⟨e, he, missing⟩
      obtain ⟨u, hu⟩ := exists_mem_of_ne_nil _ (taskChannelM_ne_nil (perm.mem_iff.mp he))
      obtain ⟨t, ht, same⟩ := (mem_pairs_of_order perm).mp
        (Grouping.mem_pairs.mpr ⟨e, he, rfl, hu⟩)
      obtain ⟨ch, channel, -⟩ := own t ht
      rw [(mk.inj same).1, missing] at channel
      contradiction
    refine ⟨?_, ?_, fun r changed => ?_⟩
    · rw [fetchedAll]
      refine fetched_perm perm fun t ht => ?_
      obtain ⟨ch, channel, here⟩ := own t ht
      simp [here, ownFetch, channel, video]
    · intro a ha
      rw [appliedAll] at ha
      obtain ⟨p, hp, here⟩ := mem_filterMap.mp ha
      obtain ⟨t, ht, rfl⟩ := (mem_pairs_of_order perm).mp hp
      obtain ⟨ch, -, event⟩ := own t ht
      rw [event] at here
      cases here
      exact ⟨t, ht, rfl, rfl, rfl⟩
    · rw [appliedAll]
      exact (round.rows r changed).resolve_right found

theorem sunoRound_isSome (rows : Int → Task) (apart : SunoIdsApart world tasks) :
    (order.foldlM (updateSunoTasks world) (.start rows tasks)).isSome = true := by
  refine (Run.foldlM_isSome_iff (P := fun _ => True) order (fun e _ st st' h run =>
    (updateSunoTasks_advance h (fun _ => trivial) run).2.handles) (fun e he st h =>
      iff_true_intro ?_) (start_handles rows tasks)).mpr fun _ _ => trivial
  obtain ⟨ch, baseURL, -, -, reached, items⟩ := apart.entry (perm.mem_iff.mp he)
  refine updateSunoTasks_isSome h reached fun item hitem => ?_
  obtain ⟨t, found, -⟩ := items item hitem
  simp [found]

theorem suno_polled_of_apart (apart : SunoIdsApart world tasks)
    (run : order.foldlM (updateSunoTasks world) (.start rows tasks) = some st) :
    Polled world platformSuno tasks (.start rows tasks) st := by
  obtain ⟨-, round⟩ := sunoRound_advance (start_handles rows tasks) run
  refine ⟨?_, ?_, fun r changed => ?_⟩
  · rw [round.fetched.trans (nil_append _)]
    refine fetched_perm perm fun t ht => ?_
    obtain ⟨e, he, channelId, -⟩ := Grouping.mem_pairs.mp ((mem_pairs_of_order perm).mpr
      ⟨t, ht, rfl⟩)
    obtain ⟨ch, baseURL, channel, url, reached, -⟩ := apart.entry (perm.mem_iff.mp he)
    rw [channelId] at channel reached
    simp [sunoAt, reached, ownFetch, channel, url]
  · intro a ha
    rw [round.applied.trans (nil_append _)] at ha
    obtain ⟨e, he, ha⟩ := mem_flatMap.mp ha
    obtain ⟨item, hitem, ha⟩ := mem_flatMap.mp ha
    obtain ⟨-, -, -, -, -, items⟩ := apart.entry (perm.mem_iff.mp he)
    obtain ⟨t, found, channel⟩ := items item hitem
    obtain ⟨ht, upstream⟩ := mem_of_taskM found
    simp only [itemAt, found, map_some, toList_some, mem_singleton] at ha
    subst ha
    exact ⟨t, ht, channel, upstream, rfl⟩
  · rw [round.applied.trans (nil_append _)]
    refine (round.rows r changed).resolve_right ?_
    rintro ⟨e, he, missing⟩
    obtain ⟨ch, baseURL, channel, -⟩ := apart.entry (perm.mem_iff.mp he)
    rw [missing] at channel
    contradiction

theorem suno_apart_of_polled (ids : (tasks.map (·.id)).Nodup)
    (run : order.foldlM (updateSunoTasks world) (.start rows tasks) = some st)
    (polled : Polled world platformSuno tasks (.start rows tasks) st) :
    SunoIdsApart world tasks := by
  obtain ⟨named, round⟩ := sunoRound_advance (start_handles rows tasks) run
  intro e he
  obtain ⟨u, hu⟩ := exists_mem_of_ne_nil _ (taskChannelM_ne_nil he)
  obtain ⟨t, ht, same⟩ := (mem_pairs_of_order perm).mp
    (Grouping.mem_pairs.mpr ⟨e, perm.mem_iff.mpr he, rfl, hu⟩)
  have reached := fetchAt_isSome perm
    (round.fetched.trans (nil_append _) ▸ polled.fetched) ht
  rw [same, sunoAt, isSome_map] at reached
  obtain ⟨⟨ch, baseURL⟩, reached⟩ := isSome_iff_exists.mp reached
  obtain ⟨ch', channel, here⟩ := bind_eq_some_iff.mp reached
  split at here
  next adaptor =>
    obtain ⟨url', url, here⟩ := map_eq_some_iff.mp here
    cases here
    refine ⟨adaptor, ch, baseURL, channel, url, fun items answer item hitem => ?_⟩
    have hitem' : item ∈ sunoItems world e := by
      simpa [sunoItems, reached, answer] using hitem
    obtain ⟨t', found⟩ := isSome_iff_exists.mp
      (named e (perm.mem_iff.mpr he) item hitem')
    have read : (⟨e.1, item.1, t'.id⟩ : Applied) ∈ st.applied := by
      rw [round.applied.trans (nil_append _)]
      exact mem_flatMap.mpr ⟨e, perm.mem_iff.mpr he, mem_flatMap.mpr
        ⟨item, hitem', by simp [itemAt, found]⟩⟩
    obtain ⟨o, ho, channelId, -, id⟩ := polled.applied _ read
    refine ⟨t', found, ?_⟩
    rw [← eq_of_id ids ho (mem_of_taskM found).1 id]
    exact channelId
  · contradiction

end

/-- One iteration of the polling loop over the tasks of a platform, its channels in any order: each
task with an upstream id is asked for exactly once at its own channel, each answer is read into the
task it was fetched for, and no other row is written, exactly when the upstream ids are apart. -/
theorem polled_own_iff (platform : String) (tasks : List Task) (order : List (Int × List String))
    (rows : Int → Task) (ids : (tasks.map (·.id)).Nodup)
    (unique : ((pollable tasks).map fun t => (t.channelId, t.getUpstreamTaskID)).Nodup)
    (perm : order.Perm (indexTasks tasks).taskChannelM) :
    (∃ st, pollPlatform world platform tasks order rows = some st ∧
        Polled world platform tasks (.start rows tasks) st) ↔
      IdsApart world platform tasks := by
  unfold pollPlatform dispatchPlatformUpdate IdsApart
  split
  · -- nothing is asked for, so there must be nothing to ask for
    constructor
    · rintro ⟨st, run, polled⟩
      cases run
      simpa [Round.start, Round.bulkUpdate] using polled.fetched
    · intro none
      exact ⟨_, rfl, by simp [Round.start, Round.bulkUpdate, none],
        by simp [Round.start, Round.bulkUpdate], fun _ changed => absurd rfl changed⟩
  · split
    next suno =>
      subst suno
      constructor
      · rintro ⟨st, run, polled⟩
        exact suno_apart_of_polled perm ids run polled
      · intro apart
        obtain ⟨st, run⟩ := isSome_iff_exists.mp (sunoRound_isSome perm rows apart)
        exact ⟨st, run, suno_polled_of_apart perm apart run⟩
    next video =>
      simp only [some.injEq, exists_eq_left']
      exact video_polled_iff perm rows video ids unique

def klingTask (id channelId : Int) (upstreamID key : String) : Task where
  id := id
  taskID := "task"
  platform := "50"
  userId := 7
  channelId := channelId
  quota := 500
  action := "generate"
  status := .inProgress
  failReason := ""
  submitTime := 1800000000
  startTime := 1800000010
  finishTime := 0
  progress := progressInProgress
  privateData := { key := key, upstreamTaskID := upstreamID }
  data := ""

def twoChannels : World where
  cfg := { serverAddress := "https://api", timeoutMinutes := 60, marshal := fun _ => [] }
  cacheGetChannel := fun c =>
    if c = 1 then some ⟨50, some "https://one", "sk-1", ""⟩
    else if c = 2 then some ⟨50, some "https://two", "sk-2", ""⟩
    else none
  hasAdaptor := fun _ => true
  channelBaseURLs := fun _ => "https://api.klingai.com"
  video := fun f => some {
    response := none
    parsed := some { status := if f.channelId = 1 then "SUCCESS" else "IN_PROGRESS" }
    generalError := .noOpenAIError
    redacted := "" }
  suno := fun _ => none
  now := fun _ => 1800000100

theorem polled_own_iff_two_ids :
    ∃ st, pollPlatform twoChannels "50" [klingTask 1 1 "a" "", klingTask 2 2 "b" ""]
        [(2, ["b"]), (1, ["a"])] (fun r => if r = 1 then klingTask 1 1 "a" ""
          else klingTask 2 2 "b" "") = some st ∧
      Polled twoChannels "50" [klingTask 1 1 "a" "", klingTask 2 2 "b" ""]
        (.start (fun r => if r = 1 then klingTask 1 1 "a" "" else klingTask 2 2 "b" "")
          [klingTask 1 1 "a" "", klingTask 2 2 "b" ""]) st := by
  refine (polled_own_iff twoChannels "50" _ _ _ (by decide) (by decide) (by decide)).mpr ?_
  exact ⟨by decide, by decide⟩

/-- Two channels whose upstreams have given out the same id.  `taskM` has only the second task, so
the first channel is asked with the key of the second task, its answer `SUCCESS` is read into the
second task, and the first task is left as it was. -/
theorem answer_read_into_other_task :
    ∃ st, pollPlatform twoChannels "50" [klingTask 1 1 "a" "sk-1", klingTask 2 2 "a" "sk-2"]
        (indexTasks [klingTask 1 1 "a" "sk-1", klingTask 2 2 "a" "sk-2"]).taskChannelM
        (fun r => if r = 1 then klingTask 1 1 "a" "sk-1" else klingTask 2 2 "a" "sk-2") = some st ∧
      st.fetched.map (fun f => (f.baseURL, f.key)) =
        [("https://one", "sk-2"), ("https://two", "sk-2")] ∧
      st.applied = [⟨1, "a", 2⟩, ⟨2, "a", 2⟩] ∧
      st.calls.map (fun call => (call.1, call.2.id)) = [(.settle, 2)] ∧
      st.rows 1 = klingTask 1 1 "a" "sk-1" ∧
      ¬ Applied.Own [klingTask 1 1 "a" "sk-1", klingTask 2 2 "a" "sk-2"] ⟨1, "a", 2⟩ := by
  refine ⟨_, rfl, by decide, by decide, by decide, by decide, ?_⟩
  rintro ⟨t, ht, channel, -, id⟩
  have both : t = klingTask 1 1 "a" "sk-1" ∨ t = klingTask 2 2 "a" "sk-2" := by
    simpa using mem_of_mem_filter ht
  rcases both with rfl | rfl
  · exact absurd id (by decide)
  · exact absurd channel (by decide)

end EastApi.AsyncTask
