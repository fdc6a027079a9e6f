import EastApi.Subscription.Model
import EastApi.Lib.Run

/-! When a user gets the old group back.  Overlapping upgrades therefore leave the user in an
upgrade group.  `restorable` is what the purchases have to meet, and `Restorable` is the invariant:
a user outside of the initial group has one active upgrade, which recorded it. -/

namespace EastApi.Subscription

open Go Run List Function Bool

structure Site where
  tables : Tables
  clock : Int

inductive Action
  | create (userId : Int) (plan : SubscriptionPlan) (now : Int)
  | expire (limit : Int) (order : List Int) (now : Int)
  | invalidate (id now : Int)
  | delete (id now : Int)

def Action.now : Action → Int
  | .create _ _ now | .expire _ _ now | .invalidate _ now | .delete _ now => now

def apply (loc : Location) (db : Tables) : Action → Option Tables
  | .create userId plan now =>
    match createUserSubscriptionFromPlanTx loc db userId plan now with
    | .ok (db', _) => some db'
    | .error _ => some db
  | .expire limit order now =>
    if order.Perm (dueUsers db limit now) then some (expireDueSubscriptions db order now).1
    else none
  | .invalidate id now =>
    match adminInvalidateUserSubscription db id now with
    | .ok (db', _) => some db'
    | .error _ => some db
  | .delete id now =>
    match adminDeleteUserSubscription db id now with
    | .ok (db', _) => some db'
    | .error _ => some db

def step (loc : Location) (s : Site) (a : Action) : Option Site :=
  if s.clock ≤ a.now then (apply loc s.tables a).map fun db => ⟨db, a.now⟩ else none

def upgradedBy (u : Int) (s : UserSubscription) : Prop :=
  s.userId = u ∧ s.status = .active ∧ s.upgradeGroup ≠ ""

def SubscriptionPlan.durationFits (plan : SubscriptionPlan) : Prop :=
  match plan.durationUnit with
  | .day => plan.durationValue * 24 * 3600000000000 < 2 ^ 63
  | .hour => plan.durationValue * 3600000000000 < 2 ^ 63
  | .custom => plan.customSeconds * 1000000000 < 2 ^ 63
  | _ => True

/-- The purchase of an upgrade can be undone: the user has no active upgrade, or is in the initial
group and buys an upgrade to it. -/
def restorable (u : Int) (g0 : String) (s : Site) : Action → Prop
  | .create userId plan _ => userId = u → trimSpace plan.upgradeGroup ≠ "" →
      plan.durationFits ∧ ((∀ r ∈ s.tables.subs, ¬ upgradedBy u r) ∨
        trimSpace plan.upgradeGroup = g0 ∧ s.tables.group u = g0)
  | _ => True

/-- An upgrade that recorded the initial group, unless it is an upgrade to it. -/
structure Recorded (g0 : String) (s : UserSubscription) : Prop where
  trimmed : trimSpace s.upgradeGroup = s.upgradeGroup
  prev : (s.upgradeGroup = g0 ∧ s.prevUserGroup = "") ∨ (s.upgradeGroup ≠ g0 ∧ s.prevUserGroup = g0)

/-- The only active upgrade of a user that an upgrade has moved out of the initial group.  No
expired upgrade comes before it in the order `end_time desc, id desc`. -/
structure Holder (u : Int) (g0 : String) (db : Tables) (s : UserSubscription) : Prop where
  mem : s ∈ db.subs
  upgrades : upgradedBy u s
  group : s.upgradeGroup = db.group u
  away : s.upgradeGroup ≠ g0
  only : ∀ r ∈ db.subs, upgradedBy u r → r = s
  last : ∀ r ∈ db.subs, r.userId = u → r.status = .expired → r.upgradeGroup ≠ "" → r.endsBefore s

structure Restorable (u : Int) (g0 : String) (db : Tables) (clock : Int) : Prop where
  ids : ∀ s ∈ db.subs, s.id < db.nextId
  unique : ∀ a ∈ db.subs, ∀ b ∈ db.subs, a.id = b.id → a = b
  recorded : ∀ s ∈ db.subs, s.userId = u → s.upgradeGroup ≠ "" → Recorded g0 s
  past : ∀ s ∈ db.subs, s.userId = u → s.status = .expired → s.endTime ≤ clock
  group : db.group u = g0 ∨ ∃ s, Holder u g0 db s

/-- What a call may do to a row. -/
inductive Ends (now : Int) (s : UserSubscription) : UserSubscription → Prop
  | same : Ends now s s
  | expired (active : s.status = .active) (due : s.endTime ≤ now) :
      Ends now s { s with status := .expired }
  | cancelled : Ends now s { s with status := .cancelled, endTime := now }

section
variable (h : Ends now s r)
include h

theorem Ends.id : r.id = s.id := by
  cases h <;> rfl

theorem Ends.userId : r.userId = s.userId := by
  cases h <;> rfl

theorem Ends.upgradeGroup : r.upgradeGroup = s.upgradeGroup := by
  cases h <;> rfl

theorem Ends.recorded (record : Recorded g0 s) : Recorded g0 r := by
  cases h <;> exact ⟨record.trimmed, record.prev⟩

theorem Ends.of_active (active : r.status = .active) : r = s := by
  cases h with
  | same => rfl
  | expired | cancelled => contradiction

theorem Ends.upgradedBy (active : upgradedBy u r) : r = s ∧ upgradedBy u s := by
  obtain rfl := h.of_active active.2.1
  exact ⟨rfl, active⟩

theorem Ends.of_expired (expired : r.status = .expired) :
    r = s ∨ (s.status = .active ∧ s.endTime ≤ now ∧ r = { s with status := .expired }) := by
  cases h with
  | same => exact .inl rfl
  | expired active due => exact .inr ⟨active, due, rfl⟩
  | cancelled => contradiction

end

variable {db db' : Tables} {clock : Int}

/-- A call that ends subscriptions keeps the invariant if it leaves the user in the initial group,
or in the same group with the row that put them there. -/
theorem Restorable.ends
    (h : Restorable u g0 db clock) (later : clock ≤ now) (f : UserSubscription → UserSubscription)
    (ends : ∀ s, Ends now s (f s)) (nextId : db'.nextId = db.nextId)
    (rows : ∀ r ∈ db'.subs, ∃ s ∈ db.subs, f s = r)
    (group : db'.group u = g0 ∨ (db'.group u = db.group u ∧
      ∀ s, Holder u g0 db s → s ∈ db'.subs)) : Restorable u g0 db' now := by
  refine ⟨fun r hr => ?_, fun a ha b hb same => ?_, fun r hr mine upgrade => ?_,
    fun r hr mine expired => ?_, ?_⟩
  · obtain ⟨s, hs, rfl⟩ := rows r hr
    rw [(ends s).id, nextId]
    exact h.ids s hs
  · obtain ⟨s, hs, rfl⟩ := rows a ha
    obtain ⟨t, ht, rfl⟩ := rows b hb
    rw [(ends s).id, (ends t).id] at same
    rw [h.unique s hs t ht same]
  · obtain ⟨s, hs, rfl⟩ := rows r hr
    rw [(ends s).userId] at mine
    rw [(ends s).upgradeGroup] at upgrade
    exact (ends s).recorded (h.recorded s hs mine upgrade)
  · obtain ⟨s, hs, rfl⟩ := rows r hr
    have mine : s.userId = u := (ends s).userId ▸ mine
    rcases (ends s).of_expired expired with same | ⟨-, due, same⟩
    · rw [same] at expired ⊢
      exact (h.past s hs mine expired).trans later
    · rw [same]
      exact due
  · rcases group with home | ⟨same, stays⟩
    · exact .inl home
    rcases h.group with home | ⟨s, holder⟩
    · exact .inl (same.trans home)
    refine .inr ⟨s, stays s holder, holder.upgrades, holder.group.trans same.symm, holder.away,
      fun r hr active => ?_, fun r hr mine expired upgrade => ?_⟩
    · obtain ⟨t, ht, rfl⟩ := rows r hr
      obtain ⟨equal, active⟩ := (ends t).upgradedBy active
      rw [equal]
      exact holder.only t ht active
    · obtain ⟨t, ht, rfl⟩ := rows r hr
      rw [(ends t).userId] at mine
      rw [(ends t).upgradeGroup] at upgrade
      rcases (ends t).of_expired expired with equal | ⟨active, -, -⟩
      · rw [equal] at expired ⊢
        exact holder.last t ht mine expired upgrade
      · -- a newly expired upgrade was the row itself, which is still there with its old status
        obtain rfl := holder.only t ht ⟨mine, active, upgrade⟩
        obtain ⟨t', ht', image⟩ := rows t (stays t holder)
        have equal := h.unique t' ht' t ht (by rw [← (ends t').id, image])
        rw [equal] at image
        rw [image, active] at expired
        contradiction

theorem downgrade_rows (db : Tables) (sub : UserSubscription) (now : Int) :
    (downgradeUserGroupForSubscriptionTx db sub now).1.subs = db.subs ∧
    (downgradeUserGroupForSubscriptionTx db sub now).1.nextId = db.nextId := by
  simp only [downgradeUserGroupForSubscriptionTx]
  split_ifs <;> exact ⟨rfl, rfl⟩

variable {sub : UserSubscription} {id : Int} {message : String}

theorem find_row (found : db.subs.find? (fun s => s.id = id) = some sub) :
    sub ∈ db.subs ∧ sub.id = id :=
  ⟨mem_of_find?_eq_some found, by simpa using find?_some found⟩

theorem cancelRow_ends (id now : Int) (s : UserSubscription) : Ends now s (cancelRow id now s) := by
  unfold cancelRow
  split
  · exact .cancelled
  · exact .same

section
variable (clean : trimSpace g0 = g0)
include clean

theorem downgrade_group (db : Tables) (sub : UserSubscription) (now : Int)
    (record : sub.userId = u → sub.upgradeGroup ≠ "" → Recorded g0 sub) :
    (downgradeUserGroupForSubscriptionTx db sub now).1.group u = g0 ∨
    (downgradeUserGroupForSubscriptionTx db sub now).1.group u = db.group u := by
  simp only [downgradeUserGroupForSubscriptionTx]
  split_ifs with empty other active prev
  · exact .inr rfl
  · exact .inr rfl
  · exact .inr rfl
  · exact .inr rfl
  · by_cases mine : sub.userId = u
    · have upgrade : sub.upgradeGroup ≠ "" := by
        intro none
        rw [none] at empty
        exact empty (by decide)
      rcases (record mine upgrade).prev with ⟨-, none⟩ | ⟨-, home⟩
      · rw [none] at prev
        exact absurd (.inl (by decide)) prev
      · left
        simp [Tables.setGroup, mine, home, clean]
    · right
      simp [Tables.setGroup, update_of_ne (Ne.symm mine)]

variable (nonempty : g0 ≠ "")
include nonempty

theorem downgrade_holder (record : Recorded g0 sub) (upgrades : upgradedBy u sub)
    (group : sub.upgradeGroup = db.group u) (away : sub.upgradeGroup ≠ g0)
    (only : ∀ r ∈ db.subs, upgradedBy u r → r.id = sub.id) :
    (downgradeUserGroupForSubscriptionTx db sub now).1.group u = g0 := by
  obtain ⟨mine, -, upgrade⟩ := upgrades
  have home : sub.prevUserGroup = g0 := by
    rcases record.prev with ⟨same, -⟩ | ⟨-, home⟩
    · exact absurd same away
    · exact home
  have none : db.subs.any (fun s => upgrading sub.userId now s && s.id ≠ sub.id) = false := by
    rw [any_eq_false]
    intro r hr active
    simp only [upgrading, mine, and_eq_true, decide_eq_true_eq] at active
    obtain ⟨⟨⟨⟨hu, ha⟩, -⟩, hg⟩, other⟩ := active
    exact other (only r hr ⟨hu, ha, hg⟩)
  have moved : ¬ (g0 = "" ∨ g0 = db.group u) := by
    rintro (empty | same)
    · exact nonempty empty
    · exact away (group.trans same.symm)
  simp only [downgradeUserGroupForSubscriptionTx, record.trimmed, home, clean]
  rw [if_neg upgrade, if_neg (by rw [mine, group]; simp), none, if_neg (by simp), mine,
    if_neg moved]
  simp [Tables.setGroup]

variable (h : Restorable u g0 db clock) (later : clock ≤ now)
include h later

/-- A call that ends the row `sub` and downgrades its user keeps the invariant.  `mid` are the
tables that the downgrade reads. -/
theorem Restorable.end_one (f : UserSubscription → UserSubscription) (ends : ∀ s, Ends now s (f s))
    (mem : sub ∈ db.subs) (mid : Tables) (midGroup : mid.group = db.group)
    (midRows : ∀ r ∈ mid.subs, ∃ s ∈ db.subs, f s = r) (rows : ∀ r ∈ db'.subs, r ∈ mid.subs)
    (others : ∀ s ∈ db.subs, s.id ≠ sub.id → s ∈ db'.subs) (nextId : db'.nextId = db.nextId)
    (group : db'.group = (downgradeUserGroupForSubscriptionTx mid sub now).1.group) :
    Restorable u g0 db' now := by
  refine h.ends later f ends nextId (fun r hr => midRows r (rows r hr)) ?_
  rw [group]
  rcases downgrade_group clean mid sub now (h.recorded sub mem) with home | same
  · exact .inl home
  by_cases held : ∃ s, Holder u g0 db s ∧ s.id = sub.id
  · obtain ⟨s, holder, same⟩ := held
    obtain rfl := h.unique s holder.mem sub mem same
    left
    refine downgrade_holder clean nonempty (h.recorded s mem holder.upgrades.1 holder.upgrades.2.2)
      holder.upgrades (midGroup ▸ holder.group) holder.away fun r hr active => ?_
    obtain ⟨t, ht, rfl⟩ := midRows r hr
    obtain ⟨-, active⟩ := (ends t).upgradedBy active
    rw [(ends t).id, holder.only t ht active]
  · refine .inr ⟨same.trans (congrFun midGroup u), fun s holder => ?_⟩
    exact others s holder.mem fun same => held ⟨s, holder, same⟩

theorem Restorable.invalidate
    (call : adminInvalidateUserSubscription db id now = .ok (db', message)) :
    Restorable u g0 db' now := by
  revert call
  fun_cases adminInvalidateUserSubscription db id now <;> intro call <;> cases call
  next sub found _ moved =>
    obtain ⟨mem, rfl⟩ := find_row found
    obtain ⟨subs, nextId⟩ := downgrade_rows (db.cancel sub.id now) sub now
    rw [moved] at subs nextId
    refine h.end_one clean nonempty later (cancelRow sub.id now) (cancelRow_ends sub.id now) mem
      (db.cancel sub.id now) rfl (fun r hr => mem_map.mp hr) (fun r hr => subs ▸ hr)
      (fun s hs other => ?_) nextId (by rw [moved])
    rw [subs]
    exact mem_map.mpr ⟨s, hs, if_neg other⟩

theorem Restorable.delete (call : adminDeleteUserSubscription db id now = .ok (db', message)) :
    Restorable u g0 db' now := by
  revert call
  fun_cases adminDeleteUserSubscription db id now <;> intro call <;> cases call
  next sub found _ _ moved =>
    obtain ⟨mem, rfl⟩ := find_row found
    obtain ⟨subs, nextId⟩ := downgrade_rows db sub now
    rw [moved] at subs nextId
    refine h.end_one clean nonempty later (fun s => s) (fun s => .same) mem db rfl
      (fun r hr => ⟨r, hr, rfl⟩) (fun r hr => ?_) (fun s hs other => ?_) nextId (by rw [moved])
    · exact subs ▸ (mem_filter.mp hr).1
    · exact mem_filter.mpr ⟨subs ▸ hs, by simpa using other⟩

end

theorem latest_none (h : latest l = none) : l = [] := by
  revert h
  fun_cases latest l <;> simp

theorem latest_some (h : latest l = some m) : m ∈ l ∧ ∀ r ∈ l, ¬ m.endsBefore r := by
  have irrefl : ∀ a : UserSubscription, ¬ a.endsBefore a := by
    intro a
    simp only [UserSubscription.endsBefore]
    omega
  revert h
  fun_induction latest l generalizing m <;> intro h <;> cases h
  next s _ empty _ =>
    rw [latest_none empty]
    simpa using irrefl s
  next found smaller ih =>
    refine ⟨by simp, fun r hr => ?_⟩
    rcases mem_cons.mp hr with rfl | hr
    · exact irrefl _
    · have below := (ih found).2 r hr
      simp only [UserSubscription.endsBefore] at below smaller ⊢
      omega
  next found notSmaller ih =>
    obtain ⟨mem, max⟩ := ih found
    exact ⟨by simp [mem], forall_mem_cons.mpr ⟨notSmaller, max⟩⟩

theorem restoreGroup_rows (db : Tables) (v : Int) (last : UserSubscription) :
    (restoreGroup db v last).subs = db.subs ∧ (restoreGroup db v last).nextId = db.nextId := by
  simp only [restoreGroup]
  split_ifs <;> exact ⟨rfl, rfl⟩

theorem restoreGroup_other (other : u ≠ v) (db : Tables) (last : UserSubscription) :
    (restoreGroup db v last).group u = db.group u := by
  simp only [restoreGroup]
  split_ifs
  · rfl
  · rfl
  · simp [Tables.setGroup, update_of_ne other]

theorem restoreGroup_group (clean : trimSpace g0 = g0) (db : Tables) (record : Recorded g0 last) :
    (restoreGroup db u last).group u = g0 ∨
    ((restoreGroup db u last).group u = db.group u ∧
      (last.upgradeGroup ≠ "" → g0 ≠ "" → last.upgradeGroup ≠ g0 →
        last.upgradeGroup ≠ db.group u)) := by
  simp only [restoreGroup, record.trimmed]
  rcases record.prev with ⟨same, none⟩ | ⟨away, home⟩
  · right
    rw [none, if_pos (.inr (by decide))]
    exact ⟨rfl, fun _ _ away => absurd same away⟩
  · rw [home, clean]
    split_ifs with empty stays
    · refine .inr ⟨rfl, fun upgrade nonempty _ => ?_⟩
      rcases empty with empty | empty
      · exact absurd empty upgrade
      · exact absurd empty nonempty
    · rcases stays with other | already
      · exact .inr ⟨rfl, fun _ _ _ => Ne.symm other⟩
      · exact .inl already
    · left
      simp [Tables.setGroup]

theorem expireRow_ends (v now : Int) (s : UserSubscription) : Ends now s (expireRow v now s) := by
  unfold expireRow
  split
  next due =>
    simp only [isDue, and_eq_true, decide_eq_true_eq] at due
    exact .expired due.2.1.1 due.2.2
  · exact .same

theorem Holder.expired (holder : Holder u g0 db s) (due : isDue now s = true) :
    { s with status := .expired } ∈ (db.expire u now).subs.filter fun s =>
      s.userId = u && s.status = .expired && s.upgradeGroup ≠ "" := by
  refine mem_filter.mpr ⟨mem_map.mpr ⟨s, holder.mem, if_pos ⟨holder.upgrades.1, due⟩⟩, ?_⟩
  simp [holder.upgrades.1, holder.upgrades.2.2]

theorem Restorable.expireUser (clean : trimSpace g0 = g0) (nonempty : g0 ≠ "")
    (h : Restorable u g0 db now) (v : Int) :
    Restorable u g0 (expireUser now db v) now := by
  have rows : ∀ r ∈ (db.expire v now).subs, ∃ s ∈ db.subs, expireRow v now s = r :=
    fun r hr => mem_map.mp hr
  have ends := expireRow_ends v now
  -- the row that holds the user stays unless it is due and belongs to the visited user
  have stays : ∀ s, Holder u g0 db s → (u = v → ¬ isDue now s = true) →
      s ∈ (db.expire v now).subs := by
    intro s holder notDue
    refine mem_map.mpr ⟨s, holder.mem, if_neg fun due => ?_⟩
    exact notDue (holder.upgrades.1.symm.trans due.1) due.2
  simp only [Subscription.expireUser]
  split
  next active =>
    refine h.ends le_rfl _ ends rfl rows (.inr ⟨rfl, fun s holder => stays s holder ?_⟩)
    rintro rfl due
    obtain ⟨r, hr, active⟩ := any_eq_true.mp active
    obtain ⟨t, ht, rfl⟩ := rows r hr
    simp only [upgrading, and_eq_true, decide_eq_true_eq] at active
    obtain ⟨⟨⟨mine, isActive⟩, future⟩, upgrade⟩ := active
    obtain ⟨equal, active⟩ := (ends t).upgradedBy ⟨mine, isActive, upgrade⟩
    obtain rfl := holder.only t ht active
    rw [equal] at future
    simp only [isDue, and_eq_true, decide_eq_true_eq] at due
    omega
  next inactive =>
    split
    next none =>
      refine h.ends le_rfl _ ends rfl rows (.inr ⟨rfl, fun s holder => stays s holder ?_⟩)
      rintro rfl due
      have mem := holder.expired due
      rw [latest_none none] at mem
      contradiction
    next last found =>
      obtain ⟨subs, nextId⟩ := restoreGroup_rows (db.expire v now) v last
      refine h.ends le_rfl _ ends nextId (fun r hr => rows r (subs ▸ hr)) ?_
      by_cases other : u = v
      swap
      · refine .inr ⟨restoreGroup_other other _ last, fun s holder => ?_⟩
        rw [subs]
        exact stays s holder fun same => absurd same other
      subst other
      obtain ⟨mem, max⟩ := latest_some found
      obtain ⟨mem, expired⟩ := mem_filter.mp mem
      simp only [and_eq_true, decide_eq_true_eq] at expired
      obtain ⟨⟨mine, expired⟩, upgrade⟩ := expired
      obtain ⟨t, ht, image⟩ := rows last mem
      have tEnds := ends t
      rw [image] at tEnds
      have record : Recorded g0 last := tEnds.recorded
        (h.recorded t ht (tEnds.userId ▸ mine) (tEnds.upgradeGroup ▸ upgrade))
      rcases restoreGroup_group clean (db.expire u now) record with home | ⟨same, left⟩
      · exact .inl home
      refine .inr ⟨same, fun s holder => ?_⟩
      rw [subs]
      refine stays s holder fun _ due => ?_
      -- the row is due, so it is the last of the expired upgrades and its group is restored
      have notBefore := max _ (holder.expired due)
      have origin : t = s := by
        rcases tEnds.of_expired expired with equal | ⟨active, -, -⟩
        · rw [equal] at expired mine upgrade notBefore
          exact absurd (holder.last t ht mine expired upgrade) notBefore
        · exact holder.only t ht ⟨tEnds.userId ▸ mine, active, tEnds.upgradeGroup ▸ upgrade⟩
      subst origin
      rw [tEnds.upgradeGroup] at left
      exact left holder.upgrades.2.2 nonempty holder.away holder.group

variable {loc : Location} {plan : SubscriptionPlan}

theorem calcPlanEndTime_ge (fits : plan.durationFits)
    (h : calcPlanEndTime loc now plan = .ok endUnix) : now ≤ endUnix := by
  revert h
  simp only [SubscriptionPlan.durationFits] at fits
  fun_cases calcPlanEndTime loc now plan <;> intro h <;> cases h
  case case2.refl valid unit | case3.refl valid unit =>
    exact loc.le_addDate now _ _ (by simp [unit] at valid; omega)
  case case4.refl valid unit | case5.refl valid unit =>
    exact le_addDuration (by simp [unit] at valid; omega) (by simpa [unit] using fits)
  next unit _ => exact le_addDuration (by omega) (by simpa [unit] using fits)

theorem insert_group_other (db : Tables) (other : sub.userId ≠ u) :
    (db.insert sub).group u = db.group u := by
  simp only [Tables.insert]
  split
  · simp [Tables.setGroup, update_of_ne (Ne.symm other)]
  · rfl

theorem insert_group_own (db : Tables) (upgrade : sub.upgradeGroup ≠ "") :
    (db.insert sub).group sub.userId = sub.upgradeGroup := by
  simp only [Tables.insert]
  split
  · simp [Tables.setGroup]
  next same =>
    by_contra moved
    exact same ⟨upgrade, moved⟩

theorem mem_insert :
    r ∈ (db.insert sub).subs ↔ r ∈ db.subs ∨ r = sub := by
  simp [Tables.insert]

section
variable (h : Restorable u g0 db clock) (later : clock ≤ now)
include h later

theorem Restorable.insert (fresh : sub.id = db.nextId) (active : sub.status = .active)
    (mine : sub.userId = u → sub.upgradeGroup ≠ "" → Recorded g0 sub ∧ now ≤ sub.endTime ∧
      ((∀ r ∈ db.subs, ¬ upgradedBy u r) ∨ sub.upgradeGroup = g0)) :
    Restorable u g0 (db.insert sub) now := by
  refine ⟨fun r hr => ?_, fun a ha b hb same => ?_, fun r hr hu upgrade => ?_,
    fun r hr hu expired => ?_, ?_⟩
  · have next : (db.insert sub).nextId = db.nextId + 1 := rfl
    rcases mem_insert.mp hr with old | rfl
    · have := h.ids r old
      omega
    · omega
  · rcases mem_insert.mp ha with oldA | rfl <;> rcases mem_insert.mp hb with oldB | rfl
    · exact h.unique a oldA b oldB same
    · have := h.ids a oldA
      omega
    · have := h.ids b oldB
      omega
    · rfl
  · rcases mem_insert.mp hr with old | rfl
    · exact h.recorded r old hu upgrade
    · exact (mine hu upgrade).1
  · rcases mem_insert.mp hr with old | rfl
    · exact (h.past r old hu expired).trans later
    · rw [active] at expired
      contradiction
  · by_cases upgrades : sub.userId = u ∧ sub.upgradeGroup ≠ ""
    · obtain ⟨rfl, upgrade⟩ := upgrades
      obtain ⟨-, ends, free⟩ := mine rfl upgrade
      have group := insert_group_own db upgrade
      by_cases home : sub.upgradeGroup = g0
      · exact .inl (group.trans home)
      have none := free.resolve_right home
      refine .inr ⟨sub, mem_insert.mpr (.inr rfl), ⟨rfl, active, upgrade⟩, group.symm, home,
        fun r hr hr' => ?_, fun r hr hu expired _ => ?_⟩
      · rcases mem_insert.mp hr with old | same
        · exact absurd hr' (none r old)
        · exact same
      · rcases mem_insert.mp hr with old | rfl
        · have before := h.past r old hu expired
          have id := h.ids r old
          simp only [UserSubscription.endsBefore]
          omega
        · rw [active] at expired
          contradiction
    · -- the purchase does not concern the group of the user
      have group : (db.insert sub).group u = db.group u := by
        by_cases other : sub.userId = u
        · simp [Tables.insert, show sub.upgradeGroup = "" by simpa [other] using upgrades]
        · exact insert_group_other db other
      rcases h.group with home | ⟨s, holder⟩
      · exact .inl (group.trans home)
      refine .inr ⟨s, mem_insert.mpr (.inl holder.mem), holder.upgrades,
        holder.group.trans group.symm, holder.away, fun r hr hr' => ?_, fun r hr hu expired => ?_⟩
      · rcases mem_insert.mp hr with old | rfl
        · exact holder.only r old hr'
        · exact absurd ⟨hr'.1, hr'.2.2⟩ upgrades
      · rcases mem_insert.mp hr with old | rfl
        · exact holder.last r old hu expired
        · rw [active] at expired
          contradiction

theorem Restorable.create (ok : restorable u g0 ⟨db, clock⟩ (.create userId plan now))
    (call : createUserSubscriptionFromPlanTx loc db userId plan now = .ok (db', sub)) :
    Restorable u g0 db' now := by
  revert call
  fun_cases createUserSubscriptionFromPlanTx loc db userId plan now <;> intro call <;>
    try cases call
  rename_i ends row
  obtain ⟨rfl, -⟩ := Prod.mk.inj (Except.ok.inj call)
  refine h.insert later rfl rfl fun mine upgrade => ?_
  have upgrade : trimSpace plan.upgradeGroup ≠ "" := upgrade
  obtain ⟨fits, free⟩ := ok mine upgrade
  -- before a purchase that changes the group, the user is in the initial group
  have home : db.group u = g0 := by
    rcases free with none | ⟨-, home⟩
    · rcases h.group with home | ⟨s, holder⟩
      · exact home
      · exact absurd holder.upgrades (none s holder.mem)
    · exact home
  refine ⟨⟨trimSpace_idem plan.upgradeGroup, ?_⟩, calcPlanEndTime_ge fits ends,
    free.imp id And.left⟩
  have mine : userId = u := mine
  simp only [row, newSubscription, prevGroup, mine, home]
  by_cases same : trimSpace plan.upgradeGroup = g0
  · exact .inl ⟨same, if_neg fun moved => moved.2 same.symm⟩
  · exact .inr ⟨same, if_pos ⟨upgrade, Ne.symm same⟩⟩

theorem Restorable.mono : Restorable u g0 db now :=
  { h with past := fun s hs mine expired => (h.past s hs mine expired).trans later }

end

theorem Restorable.step (clean : trimSpace g0 = g0) (nonempty : g0 ≠ "")
    (h : Restorable u g0 s.tables s.clock) (ok : restorable u g0 s a) (hs : step loc s a = some t) :
    Restorable u g0 t.tables t.clock := by
  simp only [Subscription.step] at hs
  split at hs
  swap
  · contradiction
  rename_i later
  obtain ⟨db, applied, rfl⟩ := Option.map_eq_some_iff.mp hs
  revert applied ok
  fun_cases apply loc s.tables a <;> intro ok applied <;> cases applied
  next call => exact h.create later ok call
  next => exact h.mono later
  next =>
    exact foldlRecOn (motive := fun db => Restorable u g0 db _) _ _ (h.mono later)
      fun _ h v _ => h.expireUser clean nonempty v
  next call => exact h.invalidate clean nonempty later call
  next => exact h.mono later
  next call => exact h.delete clean nonempty later call
  next => exact h.mono later

/-- In every run whose purchases by the user all meet `restorable`, the user is in the initial group
whenever no active subscription of theirs has an upgrade group. -/
theorem group_restored (loc : Location) (u : Int) (g0 : String) (clean : trimSpace g0 = g0)
    (nonempty : g0 ≠ "") (s t : Site) (calls : List Action) (initial : s.tables.group u = g0)
    (ids : ∀ r ∈ s.tables.subs, r.id < s.tables.nextId)
    (unique : ∀ a ∈ s.tables.subs, ∀ b ∈ s.tables.subs, a.id = b.id → a = b)
    (first : ∀ r ∈ s.tables.subs, r.userId ≠ u)
    (run : Path (restorable u g0) (step loc) s calls t)
    (ended : ∀ r ∈ t.tables.subs, ¬ upgradedBy u r) : t.tables.group u = g0 := by
  have start : Restorable u g0 s.tables s.clock :=
    ⟨ids, unique, fun r hr mine => absurd mine (first r hr),
      fun r hr mine => absurd mine (first r hr), .inl initial⟩
  have inv := run.invariant (I := fun v => Restorable u g0 v.tables v.clock)
    (fun _ _ _ hv ok hs => hv.step clean nonempty ok hs) start
  rcases inv.group with home | ⟨r, holder⟩
  · exact home
  · exact absurd holder.upgrades (ended r holder.mem)

def vipPlan : SubscriptionPlan where
  id := 1
  durationUnit := .custom
  customSeconds := 100
  upgradeGroup := "vip"

def freshSite : Site := ⟨⟨fun _ => "default", [], 1⟩, 0⟩

/-- The user 7 buys the plan twice and both subscriptions expire.  The second purchase found the
user in `vip` already and recorded no group, so `vip` stays. -/
theorem renewed_upgrade_stays :
    ∃ t : Site, Free (step utc) freshSite
        [.create 7 vipPlan 1000, .create 7 vipPlan 1050, .expire 0 [7] 2000] t ∧
      (∀ r ∈ t.tables.subs, ¬ upgradedBy 7 r) ∧
      freshSite.tables.group 7 = "default" ∧ t.tables.group 7 = "vip" := by
  have ends : (exec (step utc) freshSite
      [.create 7 vipPlan 1000, .create 7 vipPlan 1050, .expire 0 [7] 2000]).map
      (fun t => (t.tables.subs.map (·.status), t.tables.group 7)) =
        some ([.expired, .expired], "vip") := by decide
  obtain ⟨t, run, result⟩ := Option.map_eq_some_iff.mp ends
  obtain ⟨statuses, group⟩ := Prod.mk.inj result
  refine ⟨t, Path.of_exec run (fun _ _ => trivial), fun r hr active => ?_, rfl, group⟩
  have status : r.status ∈ t.tables.subs.map (·.status) := mem_map_of_mem hr
  rw [statuses, active.2.1] at status
  contradiction

/-- One purchase that expires before the next one. -/
theorem group_restored_renewal :
    ∃ t : Site, Path (restorable 7 "default") (step utc) freshSite
        [.create 7 vipPlan 1000, .expire 0 [7] 2000] t ∧ t.tables.group 7 = "default" := by
  have buys : restorable 7 "default" freshSite (.create 7 vipPlan 1000) :=
    fun _ _ => ⟨by simp [SubscriptionPlan.durationFits, vipPlan], .inl fun r hr => by cases hr⟩
  obtain ⟨t, run, ended⟩ : ∃ t : Site, Path (restorable 7 "default") (step utc) freshSite
      [.create 7 vipPlan 1000, .expire 0 [7] 2000] t ∧ t.tables.subs.map (·.status) = [.expired] :=
    ⟨_, .cons buys rfl (.cons trivial rfl (.nil _)), rfl⟩
  refine ⟨t, run, group_restored utc 7 "default" (by decide) (by decide) freshSite t _ rfl
    (fun r hr => by cases hr) (fun r hr => by cases hr) (fun r hr => by cases hr) run ?_⟩
  intro r hr active
  have status : r.status ∈ t.tables.subs.map (·.status) := mem_map_of_mem hr
  rw [ended, active.2.1] at status
  contradiction

end EastApi.Subscription
