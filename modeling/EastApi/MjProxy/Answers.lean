import EastApi.MjProxy.Ledger

/-! The answer of one channel, as `UpdateMidjourneyTaskBulk` reads it item by item.  The task of an
item is looked up in `taskM` by the id that the upstream gives, and read without a check. -/

namespace EastApi.MjProxy

open Run List Function Option

/-- The maps of an iteration: each task is stored under its own id, and every id to ask for has a
task. -/
structure Pass.Indexed (p : Pass) : Prop where
  named : ∀ u task, p.taskM u = some task → task.mjId = u
  asked : ∀ entry ∈ p.todo, ∀ u ∈ entry.2, (p.taskM u).isSome = true

def Pass.key (p : Pass) (u : String) : Option Int := (p.taskM u).map (·.id)

theorem isSome_foldl_addTask (l : List Midjourney) (m : String → Option Midjourney)
    (found : (m u).isSome = true ∨ ∃ t ∈ l, t.mjId = u) : (l.foldl addTask m u).isSome = true := by
  induction l generalizing m with
  | nil => simpa using found
  | cons a l ih =>
    refine ih _ ?_
    by_cases own : u = a.mjId
    · exact .inl (by simp [addTask, own])
    · refine found.imp (fun known => by simpa [addTask, update_of_ne own] using known) ?_
      rintro ⟨t, member, rfl⟩
      rcases mem_cons.mp member with rfl | later
      · exact absurd rfl own
      · exact ⟨t, later, rfl⟩

theorem loadPass_indexed (rows : List Midjourney) : (loadPass rows).Indexed := by
  refine ⟨fun u task found => (loadPass_task found).2.2.1, fun entry member u asked => ?_⟩
  obtain ⟨c, -, rfl⟩ := mem_map.mp member
  obtain ⟨task, member, rfl⟩ := mem_map.mp asked
  exact isSome_foldl_addTask _ _ (.inr ⟨task, mem_of_mem_filter member, rfl⟩)

section
structure ItemRead (s t : Sys) (p : Pass) (item : MidjourneyDto) (rest : List MidjourneyDto)
    (q : Pass) : Prop where
  pass : t.pass = some q
  running : t.running = s.running
  items : q.items = rest
  todo : q.todo = p.todo
  key : q.key = p.key
  named : ∀ u, (q.taskM u).map (·.mjId) = (p.taskM u).map (·.mjId)
  copies : ∀ u, u ≠ item.mjId → q.taskM u = p.taskM u
  rows : List.Forall₂ (fun r r' => r'.id = r.id ∧ (r' = r ∨ p.key item.mjId = some r.id))
    s.rows t.rows

variable (marshal) in
theorem Sys.handle_read (s : Sys) (rest : List MidjourneyDto)
    (known : p.taskM item.mjId = some task) (now : Int) :
    ∃ q, ItemRead s (s.handle marshal p task item rest now) p item rest q := by
  unfold Sys.handle
  split
  · exact ⟨_, rfl, rfl, rfl, rfl, rfl, fun _ => rfl, fun _ _ => rfl,
      forall₂_same.mpr fun _ _ => ⟨rfl, .inl rfl⟩⟩
  next new refund handled =>
    have same := (handleItem_some marshal handled).1
    have moved {α : Type} (f : Midjourney → α) (kept : f new = f task) (u : String) :
        (update p.taskM item.mjId (some new) u).map f = (p.taskM u).map f := by
      by_cases own : u = item.mjId
      · rw [own, update_self, known, map_some, map_some, kept]
      · rw [update_of_ne own]
    have rows : List.Forall₂ (fun r r' => r'.id = r.id ∧ (r' = r ∨ p.key item.mjId = some r.id))
        s.rows (s.write task new).rows := by
      rw [Sys.write, forall₂_map_right_iff]
      refine forall₂_same.mpr fun r _ => ?_
      split
      next hit => exact ⟨same.id.trans hit.1.symm, .inr (by rw [Pass.key, known, map_some, hit.1])⟩
      · exact ⟨rfl, .inl rfl⟩
    refine ⟨{ p with items := rest, taskM := update p.taskM item.mjId (some new) }, ?_⟩
    split <;> exact ⟨rfl, rfl, rfl, rfl, funext (moved _ same.id), moved _ same.mjId,
      fun u other => update_of_ne other _ _, rows⟩

def Sys.Ready (s : Sys) : Prop := ∀ p, s.pass = some p → s.running = true ∧ p.Indexed

theorem Sys.Ready.step (h : s.Ready) (step : step marshal s a = some t) : t.Ready := by
  have effect := step_effect marshal step
  intro q pass'
  have visited {p : Pass} (pass : s.pass = some p) (c : Int) (items : List MidjourneyDto) :
      s.running = true ∧ (p.visit c items).Indexed :=
    ⟨(h p pass).1, (h p pass).2.named,
      fun entry member => (h p pass).2.asked entry (mem_of_mem_filter member)⟩
  cases effect with
  | rejected | rejectedSwap | submit _ | swapFace _ => exact h q pass'
  | load =>
    cases pass'
    refine ⟨?_, loadPass_indexed s.rows⟩
    by_contra stopped
    simp [MjProxy.step, stopped] at step
  | bulkNull pass =>
    cases pass'
    exact ⟨(h _ pass).1, (h _ pass).2.named, (h _ pass).2.asked⟩
  | missingChannel pass _ | noAnswer pass | answer pass =>
    cases pass'
    exact visited pass _ _
  | panic => contradiction
  | @item now p item rest task pass items known =>
    obtain ⟨q', read⟩ := Sys.handle_read marshal s rest known now
    obtain rfl : q' = q := some.inj (read.pass.symm.trans pass')
    obtain ⟨running, indexed⟩ := h p pass
    refine ⟨read.running.trans running, fun u t found => ?_, fun entry member u asked => ?_⟩
    · have named := read.named u
      rw [found, map_some, eq_comm, map_eq_some_iff] at named
      obtain ⟨t', found', same⟩ := named
      exact same.symm.trans (indexed.named u t' found')
    · have there := indexed.asked entry (read.todo ▸ member) u asked
      rw [← isSome_map (f := Midjourney.mjId), read.named u, isSome_map]
      exact there
  | sleep => contradiction

structure Pass.Only (ids : List String) (p : Pass) (s : Sys) (q : Pass) (t : Sys) : Prop where
  copies : ∀ u ∉ ids, q.taskM u = p.taskM u
  rows : List.Forall₂ (fun r r' => r' = r ∨ ∃ task, p.taskM task.mjId = some task ∧
    task.mjId ∈ ids ∧ task.id = r.id) s.rows t.rows

theorem step_known (pass : s.pass = some p) (items : p.items = item :: rest)
    (known : p.taskM item.mjId = some task) (now : Int) :
    step marshal s (.item now) = some (s.handle marshal p task item rest now) := by
  simp [step, pass, items, known]

theorem Pass.isSome_key (p : Pass) (u : String) : (p.key u).isSome = (p.taskM u).isSome :=
  isSome_map

theorem forall₂_comp {α : Type} {R S T : α → α → Prop} (both : ∀ a b c, R a b → S b c → T a c) :
    ∀ {l m n : List α}, List.Forall₂ R l m → List.Forall₂ S m n → List.Forall₂ T l n
  | [], [], [], .nil, .nil => .nil
  | _ :: _, _ :: _, _ :: _, .cons h hs, .cons k ks =>
    .cons (both _ _ _ h k) (forall₂_comp both hs ks)

variable (marshal) in
theorem items_read (pass : s.pass = some p) (left : p.items = items)
    (known : ∀ item ∈ items, (p.key item.mjId).isSome = true) {nows : List Int}
    (times : nows.length = items.length) :
    ∃ t q, exec (step marshal) s (nows.map .item) = some t ∧ t.running = s.running ∧
      t.pass = some q ∧ (∀ u, (∀ item ∈ items, u ≠ item.mjId) → q.taskM u = p.taskM u) ∧
      List.Forall₂ (fun r r' => r'.id = r.id ∧
        (r' = r ∨ ∃ item ∈ items, p.key item.mjId = some r.id)) s.rows t.rows := by
  induction items generalizing s p nows with
  | nil =>
    obtain rfl := length_eq_zero_iff.mp times
    exact ⟨s, p, rfl, rfl, pass, fun _ _ => rfl, forall₂_same.mpr fun _ _ => ⟨rfl, .inl rfl⟩⟩
  | cons item rest ih =>
    obtain ⟨now, nows, rfl⟩ := exists_cons_of_length_eq_add_one times
    have first := known item mem_cons_self
    rw [Pass.isSome_key] at first
    obtain ⟨task, found⟩ := isSome_iff_exists.mp first
    obtain ⟨q, read⟩ := Sys.handle_read marshal s rest found now
    obtain ⟨t, q', run, running, pass', copies, rows⟩ := ih read.pass read.items
      (fun item member => read.key ▸ known item (mem_cons_of_mem _ member))
      (Nat.succ.inj times)
    refine ⟨t, q', ?_, running.trans read.running, pass', fun u other => ?_, ?_⟩
    · rw [map_cons, exec, step_known pass left found, bind_some, run]
    · obtain ⟨own, others⟩ := forall_mem_cons.mp other
      rw [copies u others, read.copies u own]
    · refine forall₂_comp (fun r r' r'' one two => ?_) read.rows rows
      refine ⟨two.1.trans one.1, ?_⟩
      rcases two.2 with rfl | ⟨item', member, key⟩
      · exact one.2.imp_right fun key => ⟨item, mem_cons_self, key⟩
      · exact .inr ⟨item', mem_cons_of_mem _ member, by rw [← read.key, key, one.1]⟩

theorem items_panic (pass : s.pass = some p) (left : p.items = items)
    (unknown : ∃ item ∈ items, p.key item.mjId = none) {nows : List Int}
    (times : nows.length = items.length) (run : exec (step marshal) s (nows.map .item) = some t) :
    t.running = false := by
  induction items generalizing s p nows with
  | nil => simp at unknown
  | cons item rest ih =>
    obtain ⟨now, nows, rfl⟩ := exists_cons_of_length_eq_add_one times
    cases found : p.taskM item.mjId with
    | none =>
      simp only [map_cons, exec, step, pass, left, found, bind_some] at run
      cases nows with
      | nil =>
        cases run
        rfl
      | cons next nows => simp [exec, step] at run
    | some task =>
      obtain ⟨q, read⟩ := Sys.handle_read marshal s rest found now
      rw [map_cons, exec, step_known pass left found, bind_some] at run
      refine ih read.pass read.items ?_ (Nat.succ.inj times) run
      obtain ⟨item', member, none⟩ := unknown
      rcases mem_cons.mp member with rfl | later
      · simp [Pass.key, found] at none
      · exact ⟨item', later, by rw [read.key, none]⟩

def answerRun (c : Int) (items : List MidjourneyDto) (nows : List Int) : List Action :=
  .answer c items :: nows.map .item

theorem exec_answerRun (pass : s.pass = some p) (asked : p.ids c = some ids)
    (items : List MidjourneyDto) (nows : List Int) :
    exec (step marshal) s (answerRun c items nows) =
      exec (step marshal) { s with pass := some (p.visit c items) } (nows.map .item) := by
  simp [answerRun, exec, step, pass, asked]

theorem answer_completes_iff {p : Pass} (pass : s.pass = some p) (running : s.running = true)
    (asked : p.ids c = some ids) {nows : List Int} (times : nows.length = items.length) :
    (∃ t, exec (step marshal) s (answerRun c items nows) = some t ∧ t.running = true) ↔
      ∀ item ∈ items, (p.taskM item.mjId).isSome = true := by
  rw [exec_answerRun pass asked]
  constructor
  · rintro ⟨t, run, still⟩ item member
    by_contra missing
    have unknown : (p.visit c items).key item.mjId = none := by
      rw [Pass.key, map_eq_none_iff]
      exact not_isSome_iff_eq_none.mp missing
    have stopped := items_panic rfl rfl ⟨item, member, unknown⟩ times run
    rw [stopped] at still
    contradiction
  · intro known
    obtain ⟨t, -, run, still, -⟩ := items_read marshal
      (s := { s with pass := some (p.visit c items) }) rfl rfl
      (fun item member => (Pass.isSome_key _ _).trans (known item member)) times
    exact ⟨t, run, still.trans running⟩

theorem Pass.mem_todo {p : Pass} {ids : List String} (asked : p.ids c = some ids) :
    (c, ids) ∈ p.todo := by
  unfold Pass.ids at asked
  split at asked
  · obtain ⟨before, after, same, -⟩ := lookup_eq_some_iff.mp asked
    rw [same]
    simp
  · contradiction

theorem answer_changes_only (pass : s.pass = some p) (running : s.running = true)
    (indexed : p.Indexed) {ids : List String} (asked : p.ids c = some ids)
    (requested : ∀ item ∈ items, item.mjId ∈ ids) {nows : List Int}
    (times : nows.length = items.length) :
    ∃ t q, exec (step marshal) s (answerRun c items nows) = some t ∧ t.running = true ∧
      t.pass = some q ∧ Pass.Only ids p s q t := by
  rw [exec_answerRun pass asked]
  obtain ⟨t, q, run, still, pass', copies, rows⟩ := items_read marshal
    (s := { s with pass := some (p.visit c items) }) rfl rfl (fun item member =>
      (Pass.isSome_key _ _).trans (indexed.asked _ (Pass.mem_todo asked) _ (requested item member)))
    times
  refine ⟨t, q, run, still.trans running, pass', fun u other => ?_, rows.imp ?_⟩
  · refine copies u fun item member same => other ?_
    rw [same]
    exact requested item member
  · rintro r r' ⟨-, changed⟩
    refine changed.imp_right fun ⟨item, member, key⟩ => ?_
    obtain ⟨task, found, id⟩ := map_eq_some_iff.mp key
    have own := indexed.named _ _ found
    exact ⟨task, own ▸ found, own ▸ requested item member, id⟩

theorem handle_changes_other (other : item.mjId ∉ ids) (known : p.taskM item.mjId = some task)
    (handled : handleItem marshal task item now = some (new, refund)) (changes : new ≠ task)
    (pass : (s.handle marshal p task item rest now).pass = some q) :
    ¬ Pass.Only ids p s q (s.handle marshal p task item rest now) := by
  intro only
  have left : q = { p with
      items := rest, taskM := Function.update p.taskM item.mjId (some new) } := by
    unfold Sys.handle at pass
    rw [handled] at pass
    dsimp only at pass
    by_cases credited : (s.matches task && refund) = true
    · rw [if_pos credited] at pass
      exact (some.inj pass).symm
    · rw [if_neg credited] at pass
      exact (some.inj pass).symm
  have same := only.copies item.mjId other
  rw [left, known] at same
  simp only [update_self, some.injEq] at same
  exact changes same

end

end EastApi.MjProxy
