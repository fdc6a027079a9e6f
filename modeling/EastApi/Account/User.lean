import EastApi.Lib.Run
import EastApi.Lib.Versioned
import Mathlib.Algebra.Order.Ring.Rat

/-! One row of `users` and any number of calls on it, statement by statement.  A change of the
settings, the credit of an inviter and the transfer of an inviter's quota load the row, change it in
memory and write the copy back, its quota with it.  `loadsCurrent` is what those writes have to meet
for no update to be lost. -/

namespace EastApi.Account

open Run Function

structure User where
  quota : Int
  usedQuota : Int := 0
  requestCount : Int := 0
  affCount : Int := 0
  affQuota : Int := 0
  affHistoryQuota : Int := 0
  setting : String := ""
deriving DecidableEq, Repr

def User.updates (stored new : User) : User where
  quota := if new.quota ≠ 0 then new.quota else stored.quota
  usedQuota := if new.usedQuota ≠ 0 then new.usedQuota else stored.usedQuota
  requestCount := if new.requestCount ≠ 0 then new.requestCount else stored.requestCount
  affCount := if new.affCount ≠ 0 then new.affCount else stored.affCount
  affQuota := if new.affQuota ≠ 0 then new.affQuota else stored.affQuota
  affHistoryQuota := if new.affHistoryQuota ≠ 0 then new.affHistoryQuota else stored.affHistoryQuota
  setting := if new.setting ≠ "" then new.setting else stored.setting

structure Config where
  quotaForInviter : Int
  quotaPerUnit : ℚ

inductive Call
  | increaseUserQuota (quota : Int)
  | decreaseUserQuota (quota : Int)
  /-- `GetUserById`, a change of the settings, `User.Update(false)`. -/
  | updateSetting (setting : String)
  | inviteUser
  | transferAffQuotaToQuota (quota : Int)
deriving DecidableEq, Repr

inductive Phase
  | idle
  /-- The row has been loaded into memory. -/
  | loaded (user : User)
  /-- `User.Update` has loaded the row again, into another variable. -/
  | reloaded (user : User)
  /-- `tx.Save` has written the row, and the transaction is not committed. -/
  | saved
  | done
deriving DecidableEq, Repr

/-- The row, the calls, and what they have moved: the increases and transfers that have succeeded,
less the decreases. -/
structure Sys (ω : Type) where
  user : Versioned User ω
  phase : ω → Phase
  moved : Int

inductive Action (ω : Type)
  /-- The call makes its next statement. -/
  | step (w : ω)
  /-- The call ends with an error of that statement. -/
  | fail (w : ω)

section
variable {ω : Type} [DecidableEq ω]

def Sys.setPhase (s : Sys ω) (w : ω) (p : Phase) : Sys ω :=
  { s with phase := update s.phase w p }

def Sys.write (s : Sys ω) (w : ω) (new : User) (d : Int) : Option (Sys ω) :=
  if s.user.staged.isNone then
    some ({ s with user := { s.user with row := new }, moved := s.moved + d }.setPhase w .done)
  else none

variable (cfg : Config) (calls : ω → Call)

def Sys.advance (s : Sys ω) (w : ω) : Option (Sys ω) :=
  let row := s.user.row
  match s.phase w, calls w with
  | .idle, .increaseUserQuota quota =>
    if quota < 0 then some (s.setPhase w .done)
    else s.write w { row with quota := row.quota + quota } quota
  | .idle, .decreaseUserQuota quota =>
    if quota < 0 then some (s.setPhase w .done)
    else s.write w { row with quota := row.quota - quota } (-quota)
  | .idle, .updateSetting _ => some (s.setPhase w (.loaded row))
  | .idle, .inviteUser => some (s.setPhase w (.loaded row))
  | .idle, .transferAffQuotaToQuota quota =>
    if (quota : ℚ) < cfg.quotaPerUnit then some (s.setPhase w .done)
    else some (s.setPhase w (.loaded row))
  | .loaded user, .updateSetting _ => some (s.setPhase w (.reloaded user))
  | .reloaded user, .updateSetting setting =>
    s.write w (row.updates { user with setting := setting }) 0
  | .loaded user, .inviteUser =>
    s.write w { user with
      affCount := user.affCount + 1
      affQuota := user.affQuota + cfg.quotaForInviter
      affHistoryQuota := user.affHistoryQuota + cfg.quotaForInviter } 0
  | .loaded user, .transferAffQuotaToQuota quota =>
    if user.affQuota < quota then some (s.setPhase w .done)
    else if s.user.writable w then
      some ({ s with user := s.user.stage w { user with
        affQuota := user.affQuota - quota
        quota := user.quota + quota } }.setPhase w .saved)
    else none
  | .saved, .transferAffQuotaToQuota quota =>
    some ({ s with user := s.user.commit w, moved := s.moved + quota }.setPhase w .done)
  | _, _ => none

def step (s : Sys ω) : Action ω → Option (Sys ω)
  | .step w => s.advance cfg calls w
  | .fail w =>
    if s.phase w = .done then none
    else some ({ s with user := s.user.rollback w }.setPhase w .done)

/-- A copy that is written back finds the quota that it was loaded with, or has no quota to
write. -/
def loadsCurrent (s : Sys ω) : Action ω → Prop
  | .step w =>
    match s.phase w, calls w with
    | .loaded user, .inviteUser => user.quota = s.user.row.quota
    | .loaded user, .transferAffQuotaToQuota _ => user.quota = s.user.row.quota
    | .reloaded user, _ => user.quota = 0 ∨ user.quota = s.user.row.quota
    | _, _ => True
  | .fail _ => True

def Phase.owed (call : Call) : Phase → Int
  | .saved =>
    match call with
    | .transferAffQuotaToQuota quota => quota
    | _ => 0
  | _ => 0

/-- What a statement does to the row. -/
inductive Effect (s : Sys ω) (w : ω) : Sys ω → Prop
  /-- It only reads, or the call ends before it writes. -/
  | read {p : Phase} (before : (s.phase w).owed (calls w) = 0) (after : p.owed (calls w) = 0) :
      Effect s w (s.setPhase w p)
  /-- It writes the row and adds `d` to the quota. -/
  | write {new : User} {d : Int} (before : (s.phase w).owed (calls w) = 0)
      (free : s.user.staged = none) (adds : new.quota = s.user.row.quota + d) :
      Effect s w ({ s with user := { s.user with row := new }, moved := s.moved + d }.setPhase w
        .done)
  /-- It writes the row in a transaction that will add what the call owes. -/
  | stage {new : User} (free : s.user.writable w = true)
      (adds : new.quota = s.user.row.quota + Phase.saved.owed (calls w)) :
      Effect s w ({ s with user := s.user.stage w new }.setPhase w .saved)
  | commit : Effect s w ({ s with
      user := s.user.commit w, moved := s.moved + (s.phase w).owed (calls w) }.setPhase w .done)
  | rollback : Effect s w ({ s with user := s.user.rollback w }.setPhase w .done)

variable {cfg calls}

theorem updates_quota {stored new : User} (current : new.quota = 0 ∨ new.quota = stored.quota) :
    (stored.updates new).quota = stored.quota := by
  simp only [User.updates]
  split
  · rcases current with zero | same
    · contradiction
    · exact same
  · rfl

theorem write_effect (before : (s.phase w).owed (calls w) = 0)
    (adds : new.quota = s.user.row.quota + d) (h : s.write w new d = some t) :
    Effect calls s w t := by
  unfold Sys.write at h
  split at h <;> cases h
  rename_i free
  exact .write before (by simpa using free) adds

theorem step_effect {a : Action ω} (current : loadsCurrent calls s a)
    (h : step cfg calls s a = some t) : ∃ w, Effect calls s w t := by
  cases a with
  | fail w =>
    obtain ⟨-, h⟩ := Option.ite_none_left_eq_some.mp h
    cases h
    exact ⟨w, .rollback⟩
  | step w =>
    refine ⟨w, ?_⟩
    simp only [loadsCurrent] at current
    revert h
    rw [step]
    fun_cases Sys.advance cfg calls s w <;> intro h
    case case1 | case3 | case5 | case6 | case7 | case8 | case9 | case12 =>
      cases h
      exact .read (by simp [*, Phase.owed]) rfl
    case case2 _ phase _ | case4 _ phase _ => exact write_effect (by rw [phase]; rfl) rfl h
    next call phase =>
      simp only [phase, call] at current
      refine write_effect (by rw [phase]; rfl) ?_ h
      rw [Int.add_zero]
      exact updates_quota current
    next call phase =>
      simp only [phase, call] at current
      exact write_effect (by rw [phase]; rfl) (by simp only [current, Int.add_zero]) h
    next call phase _ free =>
      cases h
      simp only [phase, call] at current
      refine .stage free ?_
      simp only [Phase.owed, call, current]
    next => cases h
    next quota call phase =>
      cases h
      have owes : (s.phase w).owed (calls w) = quota := by rw [phase, call]; rfl
      rw [← owes]
      exact .commit
    next => cases h

def Accounted (calls : ω → Call) (initial : Int) (s : Sys ω) : Prop :=
  Versioned.Balanced (fun user => user.quota) (initial + s.moved)
    (fun w => (s.phase w).owed (calls w)) s.user

theorem owed_setPhase (s : Sys ω) (w : ω) (p : Phase) :
    (fun v => ((s.setPhase w p).phase v).owed (calls v)) =
      update (fun v => (s.phase v).owed (calls v)) w (p.owed (calls w)) :=
  funext fun v => apply_update (fun u phase => Phase.owed (calls u) phase) s.phase w p v

theorem Accounted.effect (h : Accounted calls initial s) (effect : Effect calls s w t) :
    Accounted calls initial t := by
  unfold Accounted at h ⊢
  cases effect with
  | read before after =>
    rw [owed_setPhase, after, ← before, update_eq_self w]
    exact h
  | write before free adds =>
    rw [owed_setPhase, show Phase.done.owed (calls w) = 0 from rfl, ← before,
      update_eq_self w, Sys.setPhase]
    simp only [← Int.add_assoc]
    exact h.update free adds
  | stage free adds =>
    rw [owed_setPhase]
    exact h.stage free adds
  | commit =>
    rw [owed_setPhase, Sys.setPhase]
    simp only [← Int.add_assoc]
    exact h.commit w
  | rollback =>
    rw [owed_setPhase]
    exact h.rollback w

/-- In every run in which the copies that are written back find the quota that they were loaded
with, no update of the quota is lost. -/
theorem no_update_lost {s t : Sys ω} {as : List (Action ω)}
    (idle : ∀ w, s.phase w = .idle) (free : s.user.staged = none) (none_moved : s.moved = 0)
    (path : Path (loadsCurrent calls) (step cfg calls) s as t) :
    t.user.row.quota = s.user.row.quota + t.moved := by
  have start : Accounted calls s.user.row.quota s := by
    refine ⟨by simp [none_moved], fun w new staged => ?_, fun w owes => ?_⟩
    · rw [free] at staged
      contradiction
    · rw [idle w] at owes
      exact absurd rfl owes
  have final : Accounted calls s.user.row.quota t := path.invariant
    (fun s a t h current hstep => by
      obtain ⟨w, effect⟩ := step_effect current hstep
      exact h.effect effect) start
  exact final.row

end

def settingAndCharge : Bool → Call
  | true => .updateSetting "subscription_first"
  | false => .decreaseUserQuota 40

def walletOf (quota : Int) : Sys Bool where
  user := { row := { quota := quota } }
  phase _ := .idle
  moved := 0

/-- The charge falls between the load and the write of the settings, and is lost. -/
theorem charge_lost :
    (exec (step ⟨0, 500000⟩ settingAndCharge) (walletOf 100)
      [.step true, .step false, .step true, .step true]).map (fun t =>
        (t.user.row.quota, t.moved, t.phase true, t.phase false)) =
      some (100, -40, .done, .done) := by
  decide +kernel

/-- One after the other, both are there. -/
theorem no_update_lost_in_turn :
    ∃ t, Path (loadsCurrent settingAndCharge) (step ⟨0, 500000⟩ settingAndCharge) (walletOf 100)
      [.step true, .step true, .step true, .step false] t ∧ t.user.row.quota = 100 + t.moved :=
  Path.exists_and
    (.cons trivial rfl (.cons trivial rfl (.cons (.inr rfl) rfl (.cons trivial rfl (.nil _)))))
    (no_update_lost (fun _ => rfl) rfl rfl)

end EastApi.Account
