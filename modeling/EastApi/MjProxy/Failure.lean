import EastApi.MjProxy.Ledger

/-! What a charged task that fails gets back.  The loop credits users and never tokens.  The bulk
writes fail tasks without a refund; `paysBack` is what the steps have to meet for the user to get
the whole charge, and `Repaid` is the invariant. -/

namespace EastApi.MjProxy

open Run List

def Sys.failed (s : Sys) (task : Int) : Prop :=
  ∃ r ∈ s.rows, r.id = task ∧ r.status = .failure ∧ r.progress = progressDone

def Sys.owed (s : Sys) (task : Int) : Prop :=
  0 < s.debited .user task ∧ s.credited .user task ≠ s.debited .user task

def paysBack (marshal : List String → String) (s : Sys) : Action → Prop
  | .bulkNull => ∀ p, s.pass = some p → ∀ r ∈ s.rows, r.id ∈ p.nullTaskIds → ¬ s.owed r.id
  | .missingChannel channelId => ∀ p ids, s.pass = some p → p.ids channelId = some ids →
      ∀ r ∈ s.rows, r.mjId ∈ ids → ¬ s.owed r.id
  | a => readsOnce marshal s a

theorem readsOnce_of_paysBack (h : paysBack marshal s a) :
    readsOnce marshal s a := by
  cases a with
  | bulkNull | missingChannel => trivial
  | _ => exact h

structure Charged (s : Sys) : Prop where
  fresh : ∀ id, s.nextId ≤ id → s.debited .user id = 0
  amount : ∀ r ∈ s.rows, s.debited .user r.id = 0 ∨ s.debited .user r.id = r.quota

theorem Charged.insert (h : Charged s) (sound : Sound s) (stores : Stores s r sub charged) :
    Charged (s.insert r sub) := by
  refine ⟨fun id later => ?_, fun t ht => ?_⟩
  · have later : s.nextId + 1 ≤ id := later
    rw [Sys.debited_insert, if_neg (by omega), h.fresh id (by omega), add_zero]
  · rw [Sys.debited_insert]
    rcases mem_insert.mp ht with old | rfl
    · have := sound.ids t old
      rw [if_neg (by omega), add_zero]
      exact h.amount t old
    · rw [stores.id, h.fresh _ le_rfl, stores.quota, zero_add]
      split
      · exact .inr rfl
      · exact .inl rfl

variable {t : Sys}

theorem Charged.keep (h : Charged s) (keeps : Keeps s t) : Charged t := by
  refine ⟨fun id later => ?_, fun r hr => ?_⟩
  · rw [keeps.debited id]
    exact h.fresh id (keeps.nextId ▸ later)
  · obtain ⟨old, hold, same⟩ := keeps.row r hr
    rw [keeps.debited, same.id, same.quota]
    exact h.amount old hold

theorem Charged.step (h : Charged s) (sound : Sound s) (hs : step marshal s a = some t) :
    Charged t := by
  rcases sound.submits_or_keeps hs with
    ⟨r, sub, rfl, ⟨-, stores⟩ | ⟨-, stores⟩⟩ | keeps
  · exact h.insert sound stores
  · exact h.insert sound stores
  · exact h.keep keeps

/-- The failed tasks are paid back.  A row whose charge is owed is in the status of its copy, so the
write of the copy will be won. -/
structure Repaid (s : Sys) : Prop where
  failed : ∀ r ∈ s.rows, r.status = .failure → r.progress = progressDone → ¬ s.owed r.id
  mirror : ∀ p, s.pass = some p → ∀ key t, p.taskM key = some t → ∀ r ∈ s.rows, r.id = t.id →
    s.owed r.id → r.status = t.status

theorem Repaid.insert (h : Repaid s) (sound : Sound s) (stores : Stores s r sub charged) :
    Repaid (s.insert r sub) := by
  have owed : ∀ t ∈ s.rows, (s.insert r sub).owed t.id → s.owed t.id := by
    intro t ht owed
    have := sound.ids t ht
    rwa [Sys.owed, Sys.debited_insert, if_neg (by omega), add_zero] at owed
  refine ⟨fun t ht status progress => ?_, fun p pass key t known row hrow id due => ?_⟩
  · rcases mem_insert.mp ht with old | rfl
    · exact fun due => h.failed t old status progress (owed t old due)
    · exact absurd progress (stores.unfailed status)
  · rcases mem_insert.mp hrow with old | rfl
    · exact h.mirror p pass key t known row old id (owed row old due)
    · obtain ⟨own, hown, same⟩ := (sound.copies p pass key t known).row
      have := sound.ids own hown
      have := stores.id
      have := same.id
      omega

theorem Repaid.setPass (h : Repaid s) (running : Bool)
    (mirror : ∀ p, q = some p → ∀ key t, p.taskM key = some t → ∀ r ∈ s.rows, r.id = t.id →
      s.owed r.id → r.status = t.status) : Repaid { s with pass := q, running := running } :=
  ⟨h.failed, mirror⟩

variable {p : Pass}

theorem Repaid.continue (h : Repaid s) (pass : s.pass = some p) (taskM : q.taskM = p.taskM) :
    Repaid { s with pass := some q } := by
  refine h.setPass s.running fun q' hq key t known => ?_
  cases hq
  exact h.mirror p pass key t (taskM ▸ known)

theorem Repaid.load (h : Repaid s) (sound : Sound s) :
    Repaid { s with pass := some (loadPass s.rows) } := by
  refine h.setPass s.running fun p hp key t known r hr id _ => ?_
  cases hp
  rw [sound.unique r hr t (loadPass_task known).1 id]

theorem Repaid.failRows (h : Repaid s) (reason : Midjourney → String)
    (ok : ∀ r ∈ s.rows, selected r = true → ¬ s.owed r.id) :
    Repaid (s.failRows selected reason) := by
  have row : ∀ r ∈ (s.failRows selected reason).rows, s.owed r.id → r ∈ s.rows := by
    intro r hr due
    obtain ⟨old, hold, rfl⟩ := mem_map.mp hr
    rw [(failRow_same selected reason old).id] at due
    rw [if_neg fun hit => ok old hold hit due]
    exact hold
  refine ⟨fun r hr status progress due => ?_, fun p pass key t known r hr id due => ?_⟩
  · exact h.failed r (row r hr due) status progress due
  · exact h.mirror p pass key t known r (row r hr due) id due

variable {task : Midjourney} {item : MidjourneyDto} {now : Int}

theorem handleItem_failed (h : handleItem marshal task item now = some (new, refund))
    (status : new.status = .failure) (progress : new.progress = progressDone) :
    refund = decide (task.quota ≠ 0) := by
  simp only [handleItem] at h
  split at h
  · split at h
    · exact (Prod.mk.inj (Option.some.inj h)).2.symm
    next succeeds =>
      obtain ⟨rfl, -⟩ := Prod.mk.inj (Option.some.inj h)
      simp only [withItem] at status progress
      simp [MidjourneyDto.fails, status, progress] at succeeds
  · contradiction

/-- What an item for the copy `task`, in memory under `key`, leaves where it changes it to `new`. -/
structure Handled (s t : Sys) (p : Pass) (key : String) (task new : Midjourney) (refund : Bool) :
    Prop where
  same : SameTask task new
  rows : t.rows = (s.write task new).rows
  debits : t.debits = s.debits
  credited : ∀ id, t.credited .user id = s.credited .user id +
    if (s.matches task && refund) = true ∧ new.id = id then new.quota else 0
  taskM : ∀ q, t.pass = some q → q.taskM = Function.update p.taskM key (some new)

theorem Sys.handle_handled (handled : handleItem marshal task item now = some (new, refund)) :
    Handled s (s.handle marshal p task item rest now) p item.mjId task new refund := by
  have same := (handleItem_some marshal handled).1
  unfold Sys.handle
  rw [handled]
  dsimp only
  split
  next won =>
    refine ⟨same, rfl, rfl, fun id => ?_, fun q hq => by cases hq; rfl⟩
    simp only [won, true_and]
    exact Sys.credited_increase _ new id
  next lost =>
    refine ⟨same, rfl, rfl, fun id => ?_, fun q hq => by cases hq; rfl⟩
    rw [if_neg fun both => lost both.1, add_zero]
    rfl

section handled
variable {s t : Sys} {p : Pass} {key : String} {task new : Midjourney} {refund : Bool}

section
variable (h : Handled s t p key task new refund)
include h

theorem Handled.debited (id : Int) : t.debited .user id = s.debited .user id := by
  rw [Sys.debited, h.debits, Sys.debited]

theorem Handled.owed_other {id : Int} (other : id ≠ task.id) (due : t.owed id) : s.owed id := by
  have moved : ¬ ((s.matches task && refund) = true ∧ new.id = id) := by
    rintro ⟨-, own⟩
    exact other (own.symm.trans h.same.id)
  rwa [Sys.owed, h.debited, h.credited, if_neg moved, add_zero] at due

theorem Handled.row (repaid : Repaid s) (pass : s.pass = some p) (known : p.taskM key = some task)
    (unpaid : s.credited .user task.id = 0) (hr : r ∈ t.rows) (due : t.owed r.id) :
    (r = new ∧ s.matches task = true) ∨ (r ∈ s.rows ∧ r.id ≠ task.id) := by
  rw [h.rows] at hr
  obtain ⟨old, hold, written⟩ := mem_map.mp hr
  by_cases own : old.id = task.id
  swap
  · rw [if_neg fun hit => own hit.1] at written
    subst written
    exact .inr ⟨hold, own⟩
  have charged : 0 < s.debited .user old.id := by
    have id : r.id = old.id := by
      rw [← written]
      split
      · rw [h.same.id, own]
      · rfl
    rw [← id, ← h.debited]
    exact due.1
  have status : old.status = task.status := by
    refine repaid.mirror p pass key task known old hold own ⟨charged, ?_⟩
    rw [own, unpaid, ← own]
    omega
  rw [if_pos ⟨own, status⟩] at written
  refine .inl ⟨written.symm, any_eq_true.mpr ⟨old, hold, ?_⟩⟩
  simp [own, status]

theorem Handled.paid (charged : Charged s) (copy : Copy s key task)
    (unpaid : s.credited .user task.id = 0) (matched : s.matches task = true)
    (returned : refund = decide (task.quota ≠ 0)) : ¬ t.owed new.id := by
  rintro ⟨positive, short⟩
  rw [h.debited, h.same.id] at positive
  obtain ⟨row, hrow, same⟩ := copy.row
  have amount : s.debited .user task.id = task.quota := by
    have := charged.amount row hrow
    rw [← same.id, ← same.quota] at this
    omega
  have won : (s.matches task && refund) = true := by
    simp only [matched, returned, Bool.true_and, decide_eq_true_eq]
    omega
  apply short
  rw [h.debited, h.credited, if_pos ⟨won, rfl⟩, h.same.id, h.same.quota, unpaid, amount, zero_add]

end

end handled

theorem Repaid.handle (h : Repaid s) (sound : Sound s) (charged : Charged s)
    {rest : List MidjourneyDto} (pass : s.pass = some p) (known : p.taskM item.mjId = some task)
    (once : handleItem marshal task item now ≠ none → task.progress ≠ progressDone) :
    Repaid (s.handle marshal p task item rest now) := by
  cases handled : handleItem marshal task item now with
  | none =>
    unfold Sys.handle
    rw [handled]
    exact h.continue pass rfl
  | some result =>
    obtain ⟨new, refund⟩ := result
    have copy := sound.copies p pass _ _ known
    have unpaid := copy.unpaid (once (by simp [handled]))
    have after : Handled s (s.handle marshal p task item rest now) p item.mjId task new refund :=
      Sys.handle_handled handled
    refine ⟨fun r hr status progress due => ?_, fun q next key t stored r hr id due => ?_⟩
    · rcases after.row h pass known unpaid hr due with ⟨rfl, matched⟩ | ⟨old, other⟩
      · exact after.paid charged copy unpaid matched (handleItem_failed handled status progress) due
      · exact h.failed r old status progress (after.owed_other other due)
    · rw [after.taskM q next] at stored
      rcases Run.of_update_eq stored with ⟨rfl, replaced⟩ | ⟨own, kept⟩
      · cases replaced
        rcases after.row h pass known unpaid hr due with ⟨rfl, -⟩ | ⟨-, other⟩
        · rfl
        · exact absurd (id.trans after.same.id) other
      · rcases after.row h pass known unpaid hr due with ⟨rfl, -⟩ | ⟨old, other⟩
        · exact absurd (sound.copy_unique pass kept known (id.symm.trans after.same.id)) own
        · exact h.mirror p pass key t kept r old id (after.owed_other other due)

theorem Repaid.step (h : Repaid s) (sound : Sound s) (charged : Charged s)
    (ok : paysBack marshal s a) (hs : step marshal s a = some t) : Repaid t := by
  cases step_effect marshal hs with
  | rejected | rejectedSwap => exact h
  | submit done => exact h.insert sound (submit_stores done)
  | swapFace done => exact h.insert sound (swapFace_stores done)
  | load => exact h.load sound
  | @bulkNull p pass =>
    refine (h.failRows _ fun r hr hit => ok p pass r hr ?_).continue pass rfl
    simpa using hit
  | @missingChannel channelId p ids pass asked =>
    refine (h.failRows _ fun r hr hit => ok p ids pass asked r hr ?_).continue pass rfl
    simpa using hit
  | noAnswer pass | answer pass => exact h.continue pass rfl
  | panic => exact h.setPass false fun q hq => by contradiction
  | @item now p item rest task pass items known =>
    exact h.handle sound charged pass known (ok p item rest task pass items known)
  | sleep => exact h.setPass s.running fun q hq => by contradiction

theorem Repaid.of_path (run : Path (paysBack marshal) (MjProxy.step marshal) Sys.start calls t) :
    Repaid t := by
  -- the charges need the ids of `Sound`, and the refunds need both
  have all : Sound t ∧ Charged t ∧ Repaid t := by
    refine run.invariant (I := fun s => Sound s ∧ Charged s ∧ Repaid s)
      (fun s _ _ ⟨sound, charged, repaid⟩ ok hs => ?_) ⟨Sound.start, ?_, ?_⟩
    · exact ⟨sound.step (readsOnce_of_paysBack ok) hs, charged.step sound hs,
        repaid.step sound charged ok hs⟩
    · exact ⟨fun id _ => rfl, fun r hr => by contradiction⟩
    · exact ⟨fun r hr => by contradiction, fun p hp => by contradiction⟩
  exact all.2.2

theorem credits_user (h : ∀ e ∈ s.credits, e.account = .user) (hs : step marshal s a = some t) :
    ∀ e ∈ t.credits, e.account = .user := by
  cases step_effect marshal hs with
  | @item now p item rest task pass items known =>
    unfold Sys.handle
    split
    · exact h
    · split
      · intro e he
        rcases mem_append.mp he with old | new
        · exact h e old
        · rw [mem_singleton.mp new]
      · exact h
  | _ => exact h

theorem token_never_credited (calls : List Action) (t : Sys)
    (run : Free (step marshal) Sys.start calls t) (task : Int) : t.credited .token task = 0 := by
  have users : ∀ e ∈ t.credits, e.account = .user :=
    run.invariant (I := fun s => ∀ e ∈ s.credits, e.account = .user)
      (fun _ _ _ h _ hs => credits_user h hs) fun e he => by contradiction
  have none : t.credits.filter (fun e => e.account = .token && e.task = task) = [] := by
    rw [filter_eq_nil_iff]
    intro e he
    simp [users e he]
  rw [Sys.credited, tally, none]
  rfl

/-- A charged task that has failed.  Where its token was charged too, the charge is never paid back
in full.  Where it was not, it is, in every run whose steps all meet `paysBack`. -/
theorem failure_paid_in_full (calls : List Action) (t : Sys)
    (run : Free (step marshal) Sys.start calls t) (task q share : Int) (positive : 0 < q)
    (charged : t.debited .user task = q ∧ t.debited .token task = share) (failed : t.failed task) :
    (share ≠ 0 → ¬ (t.credited .user task = q ∧ t.credited .token task = share)) ∧
    (Path (paysBack marshal) (step marshal) Sys.start calls t → share = 0 →
      t.credited .user task = q ∧ t.credited .token task = share) := by
  have token := token_never_credited calls t run task
  constructor
  · rintro taken ⟨-, full⟩
    exact taken (full.symm.trans token)
  · rintro meets rfl
    obtain ⟨r, hr, rfl, status, progress⟩ := failed
    refine ⟨?_, token⟩
    by_contra short
    exact (Repaid.of_path meets).failed r hr status progress ⟨by omega, by omega⟩

theorem Sys.failed_of_rows {task : Int} (rows : t.rows.map (fun r =>
    (r.id, r.status, r.progress)) = [(task, .failure, progressDone)]) : t.failed task := by
  have mem : (task, .failure, progressDone) ∈
      t.rows.map (fun r => (r.id, r.status, r.progress)) := by
    rw [rows]
    simp
  obtain ⟨r, hr, columns⟩ := mem_map.mp mem
  simp only [Prod.mk.injEq] at columns
  exact ⟨r, hr, columns⟩

/-- A charged task fails: the user gets 500 back and the token nothing. -/
theorem failure_not_paid_to_token :
    ∃ t, Free (step (fun _ => "")) Sys.start (failingRun .imagine) t ∧ t.failed 1 ∧
      t.debited .user 1 = 500 ∧ t.debited .token 1 = 500 ∧
      t.credited .user 1 = 500 ∧ t.credited .token 1 = 0 := by
  have ends : (exec (step (fun _ => "")) Sys.start (failingRun .imagine)).map
      (fun t => (t.rows.map (fun r => (r.id, r.status, r.progress)),
        [t.debited .user 1, t.debited .token 1, t.credited .user 1, t.credited .token 1])) =
      some ([(1, .failure, progressDone)], [500, 500, 500, 0]) := by decide
  obtain ⟨t, run, result⟩ := Option.map_eq_some_iff.mp ends
  obtain ⟨rows, amounts⟩ := Prod.mk.inj result
  simp only [cons.injEq] at amounts
  exact ⟨t, Path.of_exec run (fun _ _ => trivial), Sys.failed_of_rows rows, amounts.1, amounts.2.1,
    amounts.2.2.1, amounts.2.2.2.1⟩

def playgroundRun : List Action :=
  .submit { request .imagine with isPlayground := true } :: (failingRun .imagine).tail

theorem failure_paid_in_full_playground :
    ∃ t, Free (step fun _ => "") Sys.start playgroundRun t ∧ t.failed 1 ∧
      t.credited .user 1 = 500 ∧ t.credited .token 1 = 0 := by
  obtain ⟨t, run, meets, rows, charged⟩ : ∃ t, Free (step fun _ => "") Sys.start playgroundRun t ∧
      Path (paysBack fun _ => "") (step fun _ => "") Sys.start playgroundRun t ∧
      t.rows.map (fun r => (r.id, r.status, r.progress)) = [(1, .failure, progressDone)] ∧
      t.debited .user 1 = 500 ∧ t.debited .token 1 = 0 := by
    refine ⟨_, .cons trivial rfl (.cons trivial rfl (.cons trivial rfl
      (.cons trivial rfl (.nil _)))), .cons trivial rfl (.cons trivial rfl (.cons trivial rfl
      (.cons (fun p item rest task pass items known _ => ?_) rfl (.nil _)))), rfl, rfl, rfl⟩
    cases pass
    cases items
    cases known
    decide
  have failed := Sys.failed_of_rows rows
  obtain ⟨-, full⟩ := failure_paid_in_full _ t run 1 500 0 (by decide) charged failed
  exact ⟨t, run, failed, full meets rfl⟩

end EastApi.MjProxy
