import EastApi.AsyncTask.Dispatch
import EastApi.MjProxy.Answers
import Mathlib.Data.List.Sort

/-! The answers to the two pollers that ask for many tasks at once.  `updateSunoTasks` and
`UpdateMidjourneyTaskBulk` look up the task of an item in the tasks of the whole round, by the id
that the upstream has written into the item. -/

namespace EastApi.AsyncTask

open Option List

def SunoAnswer (world : World) (entry : Int × List String) (items : List (String × SunoItem)) :
    Prop :=
  world.hasAdaptor platformSuno = true ∧ ∃ ch baseURL, world.cacheGetChannel entry.1 = some ch ∧
    ch.baseURL = some baseURL ∧ world.suno (sunoRequest ch baseURL entry) = some items

structure Round.Only (tasks : List Task) (ids : List String) (st st' : Round) : Prop where
  copies : ∀ u ∉ ids, st'.taskM u = st.taskM u
  rows : ∀ r, st'.rows r ≠ st.rows r →
    ∃ t ∈ pollable tasks, t.getUpstreamTaskID ∈ ids ∧ t.id = r

theorem isSome_taskM_iff :
    ((indexTasks tasks).taskM u).isSome = true ↔ ∃ t ∈ pollable tasks, t.getUpstreamTaskID = u := by
  constructor
  · intro found
    obtain ⟨t, found⟩ := isSome_iff_exists.mp found
    exact ⟨t, mem_of_taskM found⟩
  · rintro ⟨t, member, rfl⟩
    exact isSome_iff_exists.mpr (exists_taskM member)

theorem SunoAnswer.run (answer : SunoAnswer world entry items) (st : Round) :
    ∃ fetched, updateSunoTasks world st entry =
      items.foldlM (applySunoItem world entry.1) { st with fetched := fetched } := by
  obtain ⟨adaptor, ch, baseURL, found, url, answered⟩ := answer
  refine ⟨st.fetched ++ entry.2.map (sunoFetch ch baseURL entry.1), ?_⟩
  simp [updateSunoTasks, found, adaptor, url, answered]

theorem SunoAnswer.items_eq (answer : SunoAnswer world entry items) :
    sunoItems world entry = items := by
  obtain ⟨adaptor, ch, baseURL, found, url, answered⟩ := answer
  simp [sunoItems, sunoChannel, found, adaptor, url, answered]

theorem suno_completes_iff (handles : SameHandles (indexTasks tasks).taskM st.taskM)
    (answer : SunoAnswer world entry items) :
    (∃ st', updateSunoTasks world st entry = some st') ↔
      ∀ item ∈ items, ∃ t ∈ pollable tasks, t.getUpstreamTaskID = item.1 := by
  obtain ⟨fetched, run⟩ := answer.run st
  rw [run, ← isSome_iff_exists]
  simp only [← isSome_taskM_iff]
  refine Run.foldlM_isSome_iff (I := fun st => SameHandles (indexTasks tasks).taskM st.taskM) items
    (fun item _ st st' h read => ?_) (fun item _ st h => ?_) handles
  · have advance : Advance _ False st st' [] _ := (applySunoItem_advance h read).2
    exact advance.handles
  · have same := congrArg isSome (h item.1)
    rw [isSome_map, isSome_map] at same
    rw [applySunoItem, isSome_map, same]

theorem applySunoItem_copies (read : applySunoItem world c st item = some st')
    (other : u ≠ item.1) : st'.taskM u = st.taskM u := by
  obtain ⟨t, -, read⟩ := map_eq_some_iff.mp read
  dsimp only at read
  split at read
  · subst read
    exact Function.update_of_ne other _ _
  · subst read
    rfl

theorem suno_changes_only (handles : SameHandles (indexTasks tasks).taskM st.taskM)
    (polled : entry ∈ (indexTasks tasks).taskChannelM) (answer : SunoAnswer world entry items)
    (requested : ∀ item ∈ items, item.1 ∈ entry.2) :
    ∃ st', updateSunoTasks world st entry = some st' ∧ Round.Only tasks entry.2 st st' := by
  have named : ∀ item ∈ items, ∃ t ∈ pollable tasks, t.getUpstreamTaskID = item.1 := by
    intro item member
    obtain ⟨t, ht, same⟩ := (mem_pairs_of_order (.refl _)).mp
      (Grouping.mem_pairs.mpr ⟨entry, polled, rfl, requested item member⟩)
    exact ⟨t, ht, congrArg Prod.snd same⟩
  obtain ⟨st', read⟩ := (suno_completes_iff handles answer).mpr named
  refine ⟨st', read, fun u other => ?_, fun r changed => ?_⟩
  · obtain ⟨fetched, run⟩ := answer.run st
    rw [run] at read
    refine Run.foldlM_invariant (I := fun mid => mid.taskM u = st.taskM u) items
      (fun item member mid mid' same step => ?_) rfl read
    have apart : u ≠ item.1 := fun own => other (own ▸ requested item member)
    rw [applySunoItem_copies step apart, same]
  · obtain ⟨-, ch, baseURL, found, -⟩ := id answer
    have advance : Advance _ False st st' _ _ := (updateSunoTasks_advance handles
      (fun missing => by simp [missing] at found) read).2
    obtain ⟨a, applied, row⟩ := (advance.rows r changed).resolve_right not_false
    obtain ⟨item, member, here⟩ := mem_flatMap.mp applied
    rw [answer.items_eq] at member
    obtain ⟨t, found, rfl⟩ := map_eq_some_iff.mp (mem_toList.mp here)
    obtain ⟨ht, upstream⟩ := mem_of_taskM found
    exact ⟨t, ht, upstream ▸ requested item member, row⟩

/-- An item that changes the copy of a task that was not requested. -/
theorem suno_changes_other (other : item.1 ∉ ids) (found : st.taskM item.1 = some task)
    (needs : taskNeedsUpdate world.cfg.marshal task item.2 = true)
    (changes : sunoTask task item.2 ≠ task) (read : applySunoItem world c st item = some st') :
    ¬ Round.Only tasks ids st st' := by
  intro only
  simp only [applySunoItem, found, map_some, needs, if_true, some.injEq] at read
  have same := only.copies item.1 other
  rw [← read, found] at same
  simp only [Function.update_self, some.injEq] at same
  exact changes same

variable (world entry) in
/-- The answers that the pollers read to their end are those whose ids all have a task in the
round, at this channel or at another one.  Where all ids were requested from the channel, only
their tasks are changed; an item for another task of the round that changes it breaks that. -/
theorem pollers_complete_iff (handles : SameHandles (indexTasks tasks).taskM st.taskM)
    (polled : entry ∈ (indexTasks tasks).taskChannelM) (answer : SunoAnswer world entry items)
    {marshal : List String → String} {s₀ s : MjProxy.Sys} {calls : List MjProxy.Action}
    (idle : s₀.pass = none) (reached : Run.Free (MjProxy.step marshal) s₀ calls s)
    {p : MjProxy.Pass} (pass : s.pass = some p) {c : Int} {ids : List String}
    (asked : p.ids c = some ids) (mjItems : List MjProxy.MidjourneyDto) (nows : List Int)
    (times : nows.length = mjItems.length) :
    ((∃ st', updateSunoTasks world st entry = some st') ↔
        ∀ item ∈ items, ∃ t ∈ pollable tasks, t.getUpstreamTaskID = item.1) ∧
      ((∀ item ∈ items, item.1 ∈ entry.2) →
        ∃ st', updateSunoTasks world st entry = some st' ∧ Round.Only tasks entry.2 st st') ∧
      ((∃ t, Run.exec (MjProxy.step marshal) s (MjProxy.answerRun c mjItems nows) = some t ∧
          t.running = true) ↔ ∀ item ∈ mjItems, (p.taskM item.mjId).isSome = true) ∧
      ((∀ item ∈ mjItems, item.mjId ∈ ids) →
        ∃ t q, Run.exec (MjProxy.step marshal) s (MjProxy.answerRun c mjItems nows) = some t ∧
          t.running = true ∧ t.pass = some q ∧ MjProxy.Pass.Only ids p s q t) ∧
      (∀ item task st', item.1 ∉ entry.2 → st.taskM item.1 = some task →
        taskNeedsUpdate world.cfg.marshal task item.2 = true → sunoTask task item.2 ≠ task →
        applySunoItem world entry.1 st item = some st' → ¬ Round.Only tasks entry.2 st st') ∧
      ∀ item task new refund rest now q, item.mjId ∉ ids → p.taskM item.mjId = some task →
        MjProxy.handleItem marshal task item now = some (new, refund) → new ≠ task →
        (s.handle marshal p task item rest now).pass = some q →
          ¬ MjProxy.Pass.Only ids p s q (s.handle marshal p task item rest now) := by
  have ready : s.Ready := reached.invariant (fun _ _ _ h _ step => h.step step)
    (fun p pass => by rw [idle] at pass; contradiction)
  obtain ⟨running, indexed⟩ := ready p pass
  exact ⟨suno_completes_iff handles answer, suno_changes_only handles polled answer,
    MjProxy.answer_completes_iff pass running asked times,
    fun requested => MjProxy.answer_changes_only pass running indexed asked requested times,
    fun _ _ _ => suno_changes_other, fun _ _ _ _ _ _ _ => MjProxy.handle_changes_other⟩

def sunoTaskOf (id channelId : Int) (upstreamID : String) : Task :=
  { klingTask id channelId upstreamID "" with platform := platformSuno, action := "MUSIC" }

def failedItem : SunoItem where
  status := "FAILURE"
  failReason := "no lyrics"
  submitTime := 1800000000
  startTime := 1800000010
  finishTime := 1800000020
  data := ""

def sunoAnswers (items : List (String × SunoItem)) : World :=
  { twoChannels with suno := fun _ => some items }

def sunoRows (r : Int) : Task := if r = 1 then sunoTaskOf 1 1 "a" else sunoTaskOf 2 2 "b"

def mjLoaded : List MjProxy.Action := [.submit (MjProxy.request .imagine), .load]

def mjItem (id : String) : MjProxy.MidjourneyDto where
  mjId := id
  status := .other "IN_PROGRESS"
  progress := "30%"

/-- An item with an id that was not asked for makes both pollers panic, and an item with the id of
a task of another channel changes that task. -/
theorem pollers_panic :
    updateSunoTasks (sunoAnswers [("", failedItem)])
        (.start sunoRows [sunoTaskOf 1 1 "a", sunoTaskOf 2 2 "b"]) (1, ["a"]) = none ∧
      (Run.exec (MjProxy.step fun _ => "") MjProxy.Sys.start
        (mjLoaded ++ MjProxy.answerRun 3 [mjItem "mj2"] [1000])).map (·.running) = some false ∧
      (updateSunoTasks (sunoAnswers [("b", failedItem)])
        (.start sunoRows [sunoTaskOf 1 1 "a", sunoTaskOf 2 2 "b"]) (1, ["a"])).map
          (fun st => (st.rows 2).status) = some .failure := by
  refine ⟨?_, by decide, by decide⟩
  rw [← not_isSome_iff_eq_none]
  decide

/-- Answers for the tasks that were asked for. -/
theorem pollers_complete_iff_requested :
    (∃ st', updateSunoTasks (sunoAnswers [("a", failedItem)])
        (.start sunoRows [sunoTaskOf 1 1 "a", sunoTaskOf 2 2 "b"]) (1, ["a"]) = some st' ∧
      Round.Only [sunoTaskOf 1 1 "a", sunoTaskOf 2 2 "b"] ["a"]
        (.start sunoRows [sunoTaskOf 1 1 "a", sunoTaskOf 2 2 "b"]) st') ∧
      ∃ s p t q, Run.exec (MjProxy.step fun _ => "") MjProxy.Sys.start mjLoaded = some s ∧
        s.pass = some p ∧ Run.exec (MjProxy.step fun _ => "") s
          (MjProxy.answerRun 3 [mjItem "mj1"] [1000]) = some t ∧ t.running = true ∧
        t.pass = some q ∧ MjProxy.Pass.Only ["mj1"] p s q t := by
  obtain ⟨s, loaded, pass⟩ : ∃ s, Run.exec (MjProxy.step fun _ => "") MjProxy.Sys.start mjLoaded =
      some s ∧ ∃ p, s.pass = some p ∧ p.ids 3 = some ["mj1"] := ⟨_, rfl, _, rfl, rfl⟩
  obtain ⟨p, pass, asked⟩ := pass
  obtain ⟨-, suno, -, mj, -⟩ := pollers_complete_iff (sunoAnswers [("a", failedItem)]) (1, ["a"])
    (start_handles sunoRows [sunoTaskOf 1 1 "a", sunoTaskOf 2 2 "b"]) (by decide)
    ⟨rfl, _, _, rfl, rfl, rfl⟩ rfl (Run.Path.of_exec loaded fun _ _ => trivial) pass asked
    [mjItem "mj1"] [1000] rfl
  obtain ⟨t, q, run, running, pass', only⟩ := mj (by simp [mjItem])
  exact ⟨suno (by simp), s, p, t, q, loaded, pass, run, running, pass', only⟩

/-- All that `taskNeedsUpdate` compares is as it was. -/
def SunoItem.Seen (marshal : String → List UInt8) (item : SunoItem) (task : Task) : Prop :=
  task.submitTime = item.submitTime ∧ task.startTime = item.startTime ∧
    task.finishTime = item.finishTime ∧ task.status = TaskStatus.ofString item.status ∧
    task.failReason = item.failReason ∧
    (task.status.isDone = true → task.progress = progressComplete) ∧
    (marshal task.data).Perm (marshal item.data)

theorem mergeSort_eq_iff {a b : List UInt8} : a.mergeSort = b.mergeSort ↔ a.Perm b := by
  constructor
  · intro same
    exact (mergeSort_perm a _).symm.trans (same ▸ mergeSort_perm b _)
  · intro perm
    exact List.Perm.eq_of_pairwise' (pairwise_mergeSort' (· ≤ ·) a)
      (pairwise_mergeSort' (· ≤ ·) b)
      ((mergeSort_perm a _).trans (perm.trans (mergeSort_perm b _).symm))

theorem taskNeedsUpdate_iff (marshal : String → List UInt8) (task : Task) (item : SunoItem) :
    taskNeedsUpdate marshal task item = true ↔ ¬ item.Seen marshal task := by
  simp only [taskNeedsUpdate, SunoItem.Seen, ne_eq, mergeSort_eq_iff, decide_not]
  grind

/-- The data of an item is stored exactly if it is the stored one or the item is not taken for one
that has been seen, and so is every difference noticed. -/
theorem suno_data_stored_iff (world : World) (c : Int) (item : String × SunoItem)
    (found : st.taskM item.1 = some task) (loaded : st.rows task.id = task) :
    ((∃ st', applySunoItem world c st item = some st' ∧
        (st'.rows task.id).data = item.2.data) ↔
      (item.2.Seen world.cfg.marshal task → task.data = item.2.data)) ∧
    ((task.submitTime ≠ item.2.submitTime ∨ task.startTime ≠ item.2.startTime ∨
        task.finishTime ≠ item.2.finishTime ∨ task.status ≠ TaskStatus.ofString item.2.status ∨
        task.failReason ≠ item.2.failReason ∨ task.data ≠ item.2.data →
          taskNeedsUpdate world.cfg.marshal task item.2 = true) ↔
      (item.2.Seen world.cfg.marshal task → task.data = item.2.data)) := by
  rw [applySunoItem, found]
  constructor
  · simp only [Option.map_some, Option.some.injEq, exists_eq_left']
    split
    next update =>
      have := (taskNeedsUpdate_iff ..).mp update
      simp [this, sunoTask]
    next seen =>
      rw [taskNeedsUpdate_iff, not_not] at seen
      simp [loaded, seen]
  · rw [taskNeedsUpdate_iff]
    unfold SunoItem.Seen
    grind

def compactWorld : World :=
  { twoChannels with cfg.marshal := fun s => s.toUTF8.toList }

def playedTask (data : String) : Task := { sunoTaskOf 1 1 "a" with data }

def playedItem (data : String) : SunoItem := ⟨"IN_PROGRESS", "", 1800000000, 1800000010, 0, data⟩

/-- The digits have changed places, which the sorted bytes do not show. -/
theorem suno_data_missed :
    (applySunoItem compactWorld 1 (.start (fun _ => playedTask "[12]") [playedTask "[12]"])
      ("a", playedItem "[21]")).map (fun st => (st.rows 1).data) = some "[12]" := by
  have seen : taskNeedsUpdate compactWorld.cfg.marshal (playedTask "[12]") (playedItem "[21]") =
      false := by
    rw [Bool.eq_false_iff, ne_eq, taskNeedsUpdate_iff, not_not]
    exact ⟨rfl, rfl, rfl, rfl, rfl, by decide, by decide +kernel⟩
  have found : (Round.start (fun _ => playedTask "[12]") [playedTask "[12]"]).taskM "a" =
      some (playedTask "[12]") := rfl
  simp [applySunoItem, found, seen]
  rfl

theorem suno_data_stored_iff_changed :
    ∃ st', applySunoItem compactWorld 1 (.start (fun _ => playedTask "[12]") [playedTask "[12]"])
      ("a", playedItem "[13]") = some st' ∧ (st'.rows 1).data = "[13]" := by
  have found : (Round.start (fun _ => playedTask "[12]") [playedTask "[12]"]).taskM "a" =
      some (playedTask "[12]") := rfl
  exact (suno_data_stored_iff compactWorld 1 ("a", playedItem "[13]") found rfl).1.mpr
    fun seen => absurd seen.2.2.2.2.2.2 (by decide +kernel)

end EastApi.AsyncTask
