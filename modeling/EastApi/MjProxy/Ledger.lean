import EastApi.MjProxy.System

/-! What the loop pays out against what the submissions were charged.  The refund reads the stored
quota and not whether it was charged.  `covered` is what the steps have to meet for no task to be
paid out more than it was charged. -/

namespace EastApi.MjProxy

open Run List Function

theorem tally_append (a b : List Entry) (account : Account) (task : Int) :
    tally (a ++ b) account task = tally a account task + tally b account task := by
  simp [tally]

def charges (r : Request) (charged : MidjourneyResponse → Bool) : Prop :=
  0 ≤ r.quota ∧ ∀ resp, r.response = .ok resp → charged resp = true ∨ r.quota = 0 ∨ resp.result = ""

def readsOnce (marshal : List String → String) (s : Sys) : Action → Prop
  | .item now => ∀ p item rest task, s.pass = some p → p.items = item :: rest →
      p.taskM item.mjId = some task → handleItem marshal task item now ≠ none →
      task.progress ≠ progressDone
  | _ => True

def covered (marshal : List String → String) (s : Sys) : Action → Prop
  | .submit r => charges r (submitCharges r)
  | .swapFace r => charges r swapFaceCharges
  | a => readsOnce marshal s a

structure Copy (s : Sys) (key : String) (t : Midjourney) : Prop where
  mjId : t.mjId = key
  named : key ≠ ""
  row : ∃ r ∈ s.rows, SameTask r t
  paid : s.credited .user t.id ≠ 0 → t.progress = progressDone

structure Sound (s : Sys) : Prop where
  ids : ∀ r ∈ s.rows, r.id < s.nextId
  unique : ∀ a ∈ s.rows, ∀ b ∈ s.rows, a.id = b.id → a = b
  credits : ∀ task, s.credited .user task ≠ 0 → ∃ r ∈ s.rows, r.id = task ∧
    r.progress = progressDone ∧ r.mjId ≠ "" ∧ s.credited .user task = r.quota
  copies : ∀ p, s.pass = some p → ∀ key t, p.taskM key = some t → Copy s key t

structure Covers (s : Sys) : Prop where
  quota : ∀ r ∈ s.rows, r.mjId ≠ "" → r.quota ≤ s.debited .user r.id
  debits : ∀ task, 0 ≤ s.debited .user task

structure Stores (s : Sys) (r : Request) (sub : Submitted) (charged : MidjourneyResponse → Bool) :
    Prop where
  id : sub.task.id = s.nextId
  quota : sub.task.quota = r.quota
  charge : ∃ resp, r.response = .ok resp ∧ sub.task.mjId = resp.result ∧ sub.charged = charged resp
  unfailed : sub.task.status = .failure → sub.task.progress ≠ progressDone

theorem submitTask_columns (id : Int) (r : Request) (resp : MidjourneyResponse) :
    (submitTask id r resp).id = id ∧ (submitTask id r resp).quota = r.quota ∧
      (submitTask id r resp).mjId = resp.result := by
  have properties : ∀ (t : Midjourney) (now : Int)
      (props : Option (Option String × Option MjStatus)),
      (withProperties t now props).id = t.id ∧ (withProperties t now props).quota = t.quota ∧
        (withProperties t now props).mjId = t.mjId := by
    intro t now props
    unfold withProperties
    split
    · split <;> exact ⟨rfl, rfl, rfl⟩
    · exact ⟨rfl, rfl, rfl⟩
  simp only [submitTask]
  split_ifs <;> simp [properties]

theorem submitTask_unfailed (id : Int) (r : Request) (resp : MidjourneyResponse)
    (failed : (submitTask id r resp).status = .failure) :
    (submitTask id r resp).progress ≠ progressDone := by
  have properties : ∀ (t : Midjourney) (now : Int)
      (props : Option (Option String × Option MjStatus)), t.progress ≠ progressDone →
      (withProperties t now props).status = .failure →
        (withProperties t now props).progress ≠ progressDone := by
    intro t now props fresh
    unfold withProperties
    split
    · split
      next success => simp [success]
      · exact fun _ => fresh
    · exact fun _ => fresh
  have zero : "0%" ≠ progressDone := by decide
  simp only [submitTask] at failed ⊢
  split_ifs at failed ⊢
  all_goals first
    | contradiction
    | exact properties _ _ _ zero failed

variable {s : Sys} {r : Request} {sub : Submitted}

theorem submit_stores (h : relayMidjourneySubmit s.nextId r = .ok sub) :
    Stores s r sub (submitCharges r) := by
  simp only [relayMidjourneySubmit] at h
  split at h
  · contradiction
  split at h
  · contradiction
  rename_i resp response
  cases h
  obtain ⟨id, quota, mjId⟩ := submitTask_columns s.nextId r resp
  exact ⟨id, quota, ⟨resp, response, mjId, rfl⟩, submitTask_unfailed s.nextId r resp⟩

theorem swapFace_stores (h : relaySwapFace s.nextId r = .ok sub) :
    Stores s r sub swapFaceCharges := by
  simp only [relaySwapFace] at h
  split at h
  · contradiction
  split at h
  · contradiction
  rename_i resp response
  cases h
  exact ⟨rfl, rfl, ⟨resp, response, rfl, rfl⟩, fun failed => by contradiction⟩

theorem tally_postConsumeQuota (isPlayground : Bool) (task quota id : Int) :
    tally (postConsumeQuota isPlayground task quota) .user id = if task = id then quota else 0 := by
  cases isPlayground <;> by_cases same : task = id <;> simp [tally, postConsumeQuota, same]

theorem Sys.debited_insert (s : Sys) (r : Request) (sub : Submitted) (id : Int) :
    (s.insert r sub).debited .user id =
      s.debited .user id + if sub.charged = true ∧ s.nextId = id then r.quota else 0 := by
  simp only [debited, insert]
  by_cases charged : sub.charged = true
  · simp [charged, tally_append, tally_postConsumeQuota]
  · simp [charged]

variable {t : Midjourney}

theorem mem_insert :
    t ∈ (s.insert r sub).rows ↔ t ∈ s.rows ∨ t = sub.task := by
  simp [Sys.insert]

theorem Sound.insert (h : Sound s) (id : sub.task.id = s.nextId) : Sound (s.insert r sub) := by
  refine ⟨fun t ht => ?_, fun a ha b hb same => ?_, fun task paid => ?_, fun p hp key t ht => ?_⟩
  · have next : (s.insert r sub).nextId = s.nextId + 1 := rfl
    rcases mem_insert.mp ht with old | rfl
    · have := h.ids t old
      omega
    · omega
  · rcases mem_insert.mp ha with oldA | rfl <;> rcases mem_insert.mp hb with oldB | rfl
    · exact h.unique a oldA b oldB same
    · have := h.ids a oldA
      omega
    · have := h.ids b oldB
      omega
    · rfl
  · obtain ⟨t, ht, rest⟩ := h.credits task paid
    exact ⟨t, mem_insert.mpr (.inl ht), rest⟩
  · obtain ⟨key, named, ⟨row, hrow, same⟩, paid⟩ := h.copies p hp key t ht
    exact ⟨key, named, ⟨row, mem_insert.mpr (.inl hrow), same⟩, paid⟩

theorem Covers.insert (h : Covers s) {charged : MidjourneyResponse → Bool}
    (stores : Stores s r sub charged) (ok : charges r charged) : Covers (s.insert r sub) := by
  obtain ⟨resp, response, mjId, charge⟩ := stores.charge
  have grows : ∀ id, s.debited .user id ≤ (s.insert r sub).debited .user id := by
    intro id
    rw [Sys.debited_insert]
    have := ok.1
    split <;> omega
  refine ⟨fun t ht named => ?_, fun id => (h.debits id).trans (grows id)⟩
  rcases mem_insert.mp ht with old | rfl
  · exact (h.quota t old named).trans (grows t.id)
  · have before := h.debits sub.task.id
    rw [Sys.debited_insert, stores.quota, charge]
    rcases ok.2 resp response with paid | zero | unnamed
    · rw [if_pos ⟨paid, stores.id.symm⟩]
      omega
    · rw [zero, ite_self]
      omega
    · exact absurd (mjId.trans unnamed) named

theorem Sound.setPass (h : Sound s) (running : Bool)
    (copies : ∀ p, q = some p → ∀ key t, p.taskM key = some t → Copy s key t) :
    Sound { s with pass := q, running := running } :=
  ⟨h.ids, h.unique, h.credits, fun p hp key t ht => by
    obtain ⟨mjId, named, row, paid⟩ := copies p hp key t ht
    exact ⟨mjId, named, row, paid⟩⟩

theorem Sound.mapRows (h : Sound s) (f : Midjourney → Midjourney)
    (same : ∀ r ∈ s.rows, SameTask r (f r))
    (done : ∀ r ∈ s.rows, s.credited .user r.id ≠ 0 → r.progress = progressDone →
      (f r).progress = progressDone) : Sound { s with rows := s.rows.map f } := by
  refine ⟨fun t ht => ?_, fun a ha b hb equal => ?_, fun id paid => ?_, fun p hp key t ht => ?_⟩
  · obtain ⟨r, hr, rfl⟩ := mem_map.mp ht
    rw [(same r hr).id]
    exact h.ids r hr
  · obtain ⟨r, hr, rfl⟩ := mem_map.mp ha
    obtain ⟨q, hq, rfl⟩ := mem_map.mp hb
    rw [(same r hr).id, (same q hq).id] at equal
    rw [h.unique r hr q hq equal]
  · obtain ⟨r, hr, rfl, progress, named, amount⟩ := h.credits id paid
    refine ⟨f r, mem_map_of_mem hr, (same r hr).id, done r hr paid progress, ?_, ?_⟩
    · rwa [(same r hr).mjId]
    · rw [(same r hr).quota]
      exact amount
  · obtain ⟨mjId, named, ⟨r, hr, copy⟩, paid⟩ := h.copies p hp key t ht
    have row := same r hr
    exact ⟨mjId, named, ⟨f r, mem_map_of_mem hr, copy.id.trans row.id.symm,
      copy.userId.trans row.userId.symm, copy.mjId.trans row.mjId.symm,
      copy.channelId.trans row.channelId.symm, copy.quota.trans row.quota.symm⟩, paid⟩

theorem SameTask.refl (t : Midjourney) : SameTask t t := ⟨rfl, rfl, rfl, rfl, rfl⟩

theorem SameTask.trans (h : SameTask a b) (h' : SameTask b c) : SameTask a c :=
  ⟨h'.id.trans h.id, h'.userId.trans h.userId, h'.mjId.trans h.mjId, h'.channelId.trans h.channelId,
    h'.quota.trans h.quota⟩

theorem failRow_same (selected : Midjourney → Bool) (reason : Midjourney → String)
    (r : Midjourney) : SameTask r (if selected r then
      { r with status := .failure, progress := progressDone, failReason := reason r } else r) := by
  split
  · exact ⟨rfl, rfl, rfl, rfl, rfl⟩
  · exact .refl r

theorem Sound.failRows (h : Sound s) (selected : Midjourney → Bool) (reason : Midjourney → String) :
    Sound (s.failRows selected reason) := by
  refine h.mapRows _ (fun r _ => failRow_same selected reason r) fun r hr _ progress => ?_
  split
  · rfl
  · exact progress

theorem foldl_addTask (l : List Midjourney) :
    ∀ m, l.foldl addTask m key = some t → m key = some t ∨ (t ∈ l ∧ t.mjId = key) := by
  induction l with
  | nil => exact fun m hm => .inl hm
  | cons a l ih =>
    intro m hm
    rcases ih _ hm with hm | ⟨mem, mjId⟩
    · rcases Run.of_update_eq hm with ⟨rfl, own⟩ | ⟨-, other⟩
      · cases own
        exact .inr ⟨by simp, rfl⟩
      · exact .inl other
    · exact .inr ⟨by simp [mem], mjId⟩

theorem loadPass_task (h : (loadPass rows).taskM key = some t) :
    t ∈ rows ∧ t.progress ≠ progressDone ∧ t.mjId = key ∧ t.mjId ≠ "" := by
  rcases foldl_addTask _ _ h with none | ⟨mem, mjId⟩
  · contradiction
  · obtain ⟨mem, named⟩ := mem_filter.mp mem
    obtain ⟨mem, unfinished⟩ := mem_filter.mp mem
    exact ⟨mem, by simpa using unfinished, mjId, by simpa using named⟩

theorem Sound.load (h : Sound s) : Sound { s with pass := some (loadPass s.rows) } := by
  refine h.setPass s.running fun p hp key t ht => ?_
  cases hp
  obtain ⟨mem, unfinished, rfl, named⟩ := loadPass_task ht
  refine ⟨rfl, named, ⟨t, mem, rfl, rfl, rfl, rfl, rfl⟩, fun paid => ?_⟩
  obtain ⟨r, hr, id, progress, -⟩ := h.credits t.id paid
  rw [h.unique r hr t mem id] at progress
  exact absurd progress unfinished

theorem Copy.unpaid (copy : Copy s key t) (unfinished : t.progress ≠ progressDone) :
    s.credited .user t.id = 0 := by
  by_contra paid
  exact unfinished (copy.paid paid)

theorem Sound.row_same (h : Sound s) {r : Midjourney} (copy : Copy s key task) (hr : r ∈ s.rows)
    (id : r.id = task.id) : SameTask r task := by
  obtain ⟨row, hrow, rowTask⟩ := copy.row
  rw [h.unique r hr row hrow (id.trans rowTask.id)]
  exact rowTask

theorem Sound.write_same (h : Sound s) {r : Midjourney} (copy : Copy s key task)
    (same : SameTask task new) (hr : r ∈ s.rows) :
    SameTask r (if r.id = task.id ∧ r.status = task.status then new else r) := by
  split
  next hit => exact (h.row_same copy hr hit.1).trans same
  · exact .refl r

theorem Sound.write (h : Sound s) (copy : Copy s key task) (unpaid : s.credited .user task.id = 0)
    (same : SameTask task new) :
    Sound (s.write task new) := by
  refine h.mapRows _ (fun r hr => h.write_same copy same hr) fun r hr paid progress => ?_
  split
  next hit =>
    rw [hit.1] at paid
    exact absurd unpaid paid
  · exact progress

theorem Sys.credited_increase (s : Sys) (task : Midjourney) (id : Int) :
    (s.increaseUserQuota task).credited .user id =
      s.credited .user id + if task.id = id then task.quota else 0 := by
  simp only [credited, increaseUserQuota, tally_append]
  by_cases same : task.id = id <;> simp [tally, same]

theorem Sound.increaseUserQuota (h : Sound s)
    (unpaid : s.credited .user new.id = 0) (row : new ∈ s.rows) (named : new.mjId ≠ "")
    (progress : new.progress = progressDone)
    (copies : ∀ p, s.pass = some p → ∀ key t, p.taskM key = some t → t.id = new.id →
      t.progress = progressDone) : Sound (s.increaseUserQuota new) := by
  refine ⟨h.ids, h.unique, fun id paid => ?_, fun p hp key t ht => ?_⟩
  · rw [Sys.credited_increase] at paid ⊢
    by_cases same : new.id = id
    · subst same
      exact ⟨new, row, rfl, progress, named, by simp [unpaid]⟩
    · simp only [same, ↓reduceIte, add_zero] at paid ⊢
      exact h.credits id paid
  · obtain ⟨mjId, named, row, paid⟩ := h.copies p hp key t ht
    refine ⟨mjId, named, row, fun now => ?_⟩
    rw [Sys.credited_increase] at now
    by_cases same : new.id = t.id
    · exact copies p hp key t ht same.symm
    · simp only [same, ↓reduceIte, add_zero] at now
      exact paid now

theorem Sound.replace (h : Sound s) (pass : s.pass = some p) (known : p.taskM key = some task)
    (unpaid : s.credited .user task.id = 0) (same : SameTask task new)
    (taskM : q.taskM = update p.taskM key (some new)) :
    Sound { s.write task new with pass := some q } := by
  have written := h.write (h.copies p pass key task known) unpaid same
  have copy := written.copies p pass key task known
  refine written.setPass s.running fun q' hq other t ht => ?_
  cases hq
  rw [taskM] at ht
  rcases Run.of_update_eq ht with ⟨rfl, own⟩ | ⟨-, old⟩
  · cases own
    obtain ⟨row, hrow, rowTask⟩ := copy.row
    refine ⟨same.mjId.trans copy.mjId, copy.named, ⟨row, hrow, rowTask.trans same⟩, fun paid => ?_⟩
    rw [same.id] at paid
    exact absurd unpaid paid
  · exact written.copies p pass other t old

theorem Sound.copy_unique (h : Sound s) (pass : s.pass = some p) (ht : p.taskM k = some t)
    (ht' : p.taskM k' = some t') (id : t.id = t'.id) : k = k' := by
  have copy := h.copies p pass k t ht
  have copy' := h.copies p pass k' t' ht'
  obtain ⟨r, hr, rt⟩ := copy.row
  obtain ⟨r', hr', rt'⟩ := copy'.row
  have rows := h.unique r hr r' hr' (by rw [← rt.id, ← rt'.id, id])
  rw [← copy.mjId, ← copy'.mjId, rt.mjId, rt'.mjId, rows]

theorem Sound.handle (h : Sound s) {now : Int} (pass : s.pass = some p)
    (known : p.taskM item.mjId = some task)
    (once : handleItem marshal task item now ≠ none → task.progress ≠ progressDone) :
    Sound (s.handle marshal p task item rest now) := by
  have copy := h.copies p pass _ _ known
  unfold Sys.handle
  cases handled : handleItem marshal task item now with
  | none =>
    refine h.setPass s.running fun q hq key t ht => ?_
    cases hq
    exact h.copies p pass key t ht
  | some result =>
    obtain ⟨new, refund⟩ := result
    obtain ⟨same, -, returned⟩ := handleItem_some marshal handled
    have unpaid := copy.unpaid (once (by simp [handled]))
    have sound := h.replace (q := { p with
      items := rest, taskM := update p.taskM item.mjId (some new) })
      pass known unpaid same rfl
    by_cases won : (s.matches task && refund) = true
    swap
    · simp only [won]
      exact sound
    simp only [won, ↓reduceIte]
    obtain ⟨matched, refunded⟩ := Bool.and_eq_true_iff.mp won
    have progress := (returned refunded).1
    refine sound.increaseUserQuota (same.id ▸ unpaid) ?_ ?_ progress fun q hq key t ht id => ?_
    · obtain ⟨row, hrow, hit⟩ := any_eq_true.mp matched
      exact mem_map.mpr ⟨row, hrow, if_pos (by simpa using hit)⟩
    · rw [same.mjId, copy.mjId]
      exact copy.named
    · cases hq
      have own := sound.copy_unique rfl ht (update_self ..) id
      have stored : update p.taskM item.mjId (some new) item.mjId = some t := own ▸ ht
      rw [update_self] at stored
      cases stored
      exact progress

variable {t : Sys} {a : Action}

theorem Sound.step (h : Sound s) (ok : readsOnce marshal s a) (hs : step marshal s a = some t) :
    Sound t := by
  cases step_effect marshal hs with
  | rejected | rejectedSwap => exact h
  | submit done => exact h.insert (submit_stores done).id
  | swapFace done => exact h.insert (swapFace_stores done).id
  | load => exact h.load
  | @bulkNull p pass | @missingChannel channelId p ids pass asked =>
    refine (h.failRows _ _).setPass s.running fun q hq key t ht => ?_
    cases hq
    exact (h.failRows _ _).copies p pass key t ht
  | @noAnswer channelId p pass | @answer channelId p items pass =>
    refine h.setPass s.running fun q hq key t ht => ?_
    cases hq
    exact h.copies p pass key t ht
  | panic => exact h.setPass false fun q hq => by contradiction
  | @item now p item rest task pass items known =>
    exact h.handle pass known (ok p item rest task pass items known)
  | sleep => exact h.setPass s.running fun q hq => by contradiction

theorem Sound.start : Sound Sys.start :=
  ⟨fun r hr => by contradiction, fun a ha => by contradiction, fun task paid => absurd rfl paid,
    fun p hp => by contradiction⟩

structure Keeps (s t : Sys) : Prop where
  debits : t.debits = s.debits
  nextId : t.nextId = s.nextId
  row : ∀ r ∈ t.rows, ∃ old ∈ s.rows, SameTask old r

theorem Keeps.of_rows (debits : t.debits = s.debits) (nextId : t.nextId = s.nextId)
    (rows : t.rows = s.rows) : Keeps s t :=
  ⟨debits, nextId, fun r hr => ⟨r, rows ▸ hr, .refl r⟩⟩

theorem Keeps.of_map {f : Midjourney → Midjourney} (debits : t.debits = s.debits)
    (nextId : t.nextId = s.nextId) (rows : t.rows = s.rows.map f)
    (same : ∀ r ∈ s.rows, SameTask r (f r)) : Keeps s t := by
  refine ⟨debits, nextId, fun r hr => ?_⟩
  rw [rows] at hr
  obtain ⟨old, hold, rfl⟩ := mem_map.mp hr
  exact ⟨old, hold, same old hold⟩

theorem Keeps.failRows (s : Sys) (selected : Midjourney → Bool) (reason : Midjourney → String)
    (p : Option Pass) : Keeps s { s.failRows selected reason with pass := p } :=
  .of_map rfl rfl rfl fun r _ => failRow_same selected reason r

theorem Sound.submits_or_keeps (h : Sound s) (hs : MjProxy.step marshal s a = some t) :
    (∃ r sub, t = s.insert r sub ∧
      ((a = .submit r ∧ Stores s r sub (submitCharges r)) ∨
        (a = .swapFace r ∧ Stores s r sub swapFaceCharges))) ∨ Keeps s t := by
  cases step_effect marshal hs with
  | submit done => exact .inl ⟨_, _, rfl, .inl ⟨rfl, submit_stores done⟩⟩
  | swapFace done => exact .inl ⟨_, _, rfl, .inr ⟨rfl, swapFace_stores done⟩⟩
  | bulkNull | missingChannel => exact .inr (.failRows s _ _ _)
  | @item now p item rest task pass items known =>
    refine .inr ?_
    unfold Sys.handle
    split
    · exact .of_rows rfl rfl rfl
    next new refund handled =>
      have same := (handleItem_some marshal handled).1
      have copy := h.copies p pass _ _ known
      split <;> exact .of_map rfl rfl rfl fun r hr => h.write_same copy same hr
  | _ => exact .inr (.of_rows rfl rfl rfl)

theorem Keeps.debited (h : Keeps s t) (id : Int) :
    t.debited .user id = s.debited .user id := by
  rw [Sys.debited, h.debits, Sys.debited]

theorem Covers.keep (h : Covers s) (keeps : Keeps s t) : Covers t := by
  refine ⟨fun r hr named => ?_, fun id => ?_⟩
  · obtain ⟨old, hold, same⟩ := keeps.row r hr
    rw [same.mjId] at named
    rw [keeps.debited, same.id, same.quota]
    exact h.quota old hold named
  · rw [keeps.debited]
    exact h.debits id

theorem Covers.step (h : Covers s) (sound : Sound s) (ok : covered marshal s a)
    (hs : step marshal s a = some t) : Covers t := by
  rcases sound.submits_or_keeps hs with
    ⟨r, sub, rfl, ⟨rfl, stores⟩ | ⟨rfl, stores⟩⟩ | keeps
  · exact h.insert stores ok
  · exact h.insert stores ok
  · exact h.keep keeps

theorem readsOnce_of_covered (h : covered marshal s a) :
    readsOnce marshal s a := by
  cases a with
  | submit | swapFace => trivial
  | _ => exact h

def request (action : MjAction) : Request where
  userId := 7
  channelId := 3
  isPlayground := false
  action := action
  prompt := "a cat"
  quota := 500
  userQuota := 1000
  response := .ok { statusCode := 200, code := 1, result := "mj1" }
  startTime := 0
  now := 0

def failingRun (action : MjAction) : List Action :=
  [.submit (request action), .load,
   .answer 3 [{ mjId := "mj1", status := .failure, progress := "100%", failReason := "banned" }],
   .item 1000]

end EastApi.MjProxy
