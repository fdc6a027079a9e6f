import EastApi.SecondFactor.BackupCode

/-! The second factor of a login (`controller/twofa.go`, `Verify2FALogin`).  Copies that are loaded
before another attempt saves hold a lower count.  The bound of `MaxFailAttempts` comparisons holds
where an attempt compares only with a copy that is still the stored row, while no other attempt has
a comparison to save. -/

namespace EastApi.SecondFactor

open Go Run List Function Option

namespace Common

def maxFailAttempts : Int := 5

def lockoutDuration : Int := 300

def validateNumericCode (code : String) : Except String String :=
  let code := remove ' ' code
  if len code ≠ 6 then .error "验证码必须是6位数字"
  else if !(atoi code).2 then .error "验证码只能包含数字"
  else .ok code

def validateTOTPCode (totp : Int → String → String → Bool) (now : Int) (secret code : String) :
    Bool :=
  let code := remove ' ' code
  len code = 6 && totp now code secret

end Common

structure TwoFA where
  (id userId : Int)
  secret : String
  isEnabled : Bool := true
  failedAttempts : Int := 0
  lockedUntil : Option Int := none
  lastUsedAt : Option Int := none
  deriving DecidableEq

def lockout : Int := Common.lockoutDuration * 10 ^ 9

namespace TwoFA

def isLocked (t : TwoFA) (now : Int) : Bool :=
  match t.lockedUntil with
  | none => false
  | some lockUntil => now < lockUntil

def incrementFailedAttempts (t : TwoFA) (now : Int) : TwoFA :=
  let failedAttempts := t.failedAttempts + 1
  { t with
    failedAttempts
    lockedUntil :=
      if Common.maxFailAttempts ≤ failedAttempts then some (now + lockout) else t.lockedUntil }

def resetUsage (t : TwoFA) (now : Int) : TwoFA :=
  { t with failedAttempts := 0, lockedUntil := none, lastUsedAt := some now }

end TwoFA

inductive Outcome where
  | notEnabled
  | loggedIn
  | wrongCode
  | locked (lockedUntil : Option Int)
  | error (message : String)
  deriving DecidableEq

/-- An attempt between two of its steps, with its copy of the row. -/
inductive Attempt where
  | start
  | loaded (twoFA : TwoFA)
  | unlocked (twoFA : TwoFA) (cleanCode : String)
  | compared (twoFA : TwoFA) (valid : Bool)
  | backup (twoFA : TwoFA)
  | lookup (twoFA : TwoFA) (call : Lookup)
  | done (outcome : Outcome)
  deriving DecidableEq

structure Db where
  twoFA : TwoFA
  backupCodes : List BackupCode

section Attempts

variable (totp : Int → String → String → Bool) (check : String → String → Bool)

def verify2FALogin (code : String) (now : Int) (db : Db) : Attempt → Option (Db × Attempt)
  | .start =>
    some (db, if db.twoFA.isEnabled then .loaded db.twoFA else .done .notEnabled)
  | .loaded t =>
    match Common.validateNumericCode code with
    -- `ValidateTOTPAndUpdateUsage` checks the lock first; its error is dropped
    | .ok cleanCode => some (db, if t.isLocked now then .backup t else .unlocked t cleanCode)
    | .error _ => some (db, .backup t)
  | .unlocked t cleanCode =>
    some (db, .compared t (Common.validateTOTPCode totp now t.secret cleanCode))
  | .compared t valid =>
    if valid then some ({ db with twoFA := t.resetUsage now }, .done .loggedIn)
    else
      some ({ db with twoFA := t.incrementFailedAttempts now },
        .backup (t.incrementFailedAttempts now))
  | .backup t =>
    some (db, if t.isLocked now then .done (.locked t.lockedUntil) else .lookup t .start)
  | .lookup t call =>
    match call with
    | .accepted _ => some ({ db with twoFA := t.resetUsage now }, .done .loggedIn)
    | .rejected none =>
      some ({ db with twoFA := t.incrementFailedAttempts now }, .done .wrongCode)
    | .rejected (some e) => some (db, .done (.error e))
    | call =>
      (validateBackupCode check t.userId code now db.backupCodes call).map fun next =>
        ({ db with backupCodes := next.1 }, .lookup t next.2)
  | .done _ => none

def Attempt.isUnlocked : Attempt → Bool
  | .unlocked _ _ => true
  | _ => false

structure Logins (ω : Type*) where
  db : Db
  attempt : ω → Attempt
  compared : Nat

variable {ω : Type*} [DecidableEq ω] (codes : ω → String)

def loginStep (s : Logins ω) (a : ω × Int) : Option (Logins ω) :=
  (verify2FALogin totp check (codes a.1) a.2 s.db (s.attempt a.1)).map fun next =>
    ⟨next.1, update s.attempt a.1 next.2,
      s.compared + if (s.attempt a.1).isUnlocked then 1 else 0⟩

/-- The step falls within `LockoutDuration` of the start, and if it is a comparison then the copy is
the stored row and no other attempt has a comparison to save. -/
def comparesStored (start : Int) (s : Logins ω) (a : ω × Int) : Prop :=
  (start ≤ a.2 ∧ a.2 < start + lockout) ∧
    ∀ t cleanCode, s.attempt a.1 = .unlocked t cleanCode →
      t = s.db.twoFA ∧ ∀ v u valid, s.attempt v ≠ .compared u valid

end Attempts

theorem upper_of_isDigit (digit : c.isDigit) : upper c = c := by
  have range : 48 ≤ c.val ∧ c.val ≤ 57 := by simpa [Char.isDigit] using digit
  have plain : c.toUpper = c := by
    unfold Char.toUpper
    rw [dif_neg]
    intro small
    have := UInt32.le_iff_toNat_le.mp small.1
    have := UInt32.le_iff_toNat_le.mp range.2
    simp at *
    omega
  unfold upper
  split
  · subst c
    exact absurd digit (by decide)
  split
  · subst c
    exact absurd digit (by decide)
  exact plain

theorem mem_readSign (mem : c ∈ text) : c = '-' ∨ c = '+' ∨ c ∈ (readSign text).2 := by
  unfold readSign
  split
  · exact (mem_cons.mp mem).imp_right .inr
  · exact .inr (mem_cons.mp mem)
  · exact .inr (.inr mem)

theorem upper_of_atoi (number : (atoi code).2) (mem : c ∈ code.toList) : upper c = c := by
  have digits : (readSign code.toList).2.all Char.isDigit := by
    by_contra bad
    simp [atoi, bad] at number
  rcases mem_readSign mem with rfl | rfl | mem
  · decide
  · decide
  · exact upper_of_isDigit (all_eq_true.mp digits c mem)

theorem len_cleanCode_le (number : (atoi code).2) : len (Common.cleanCode code) ≤ len code := by
  have same : (code.toList.filter (· ≠ '-')).map upper = code.toList.filter (· ≠ '-') :=
    (map_congr_left fun c mem => upper_of_atoi number (mem_filter.mp mem).1).trans
      (map_id' _)
  simp only [len, Common.cleanCode, toUpper, remove, String.toList_ofList, same]
  exact (filter_sublist.map _).sum_le_sum fun _ _ => Nat.zero_le _

theorem backup_format (format : Common.validateBackupCode code) :
    len (Common.cleanCode code) = 8 ∧ ' ' ∉ code.toList := by
  simp only [Common.validateBackupCode, Bool.and_eq_true, decide_eq_true_iff,
    List.all_eq_true] at format
  refine ⟨format.1, fun blank => ?_⟩
  -- a blank is kept, and is no letter or digit
  have kept : ' ' ∈ (Common.cleanCode code).toList := by
    simp only [Common.cleanCode, toUpper, remove, String.toList_ofList, List.mem_map,
      mem_filter]
    exact ⟨' ', ⟨blank, by decide⟩, by decide⟩
  exact absurd (format.2 ' ' kept) (by decide)

theorem not_backup_of_numeric (numeric : Common.validateNumericCode code = .ok cleanCode) :
    Common.validateBackupCode code = false := by
  by_contra format
  obtain ⟨eight, noBlank⟩ := backup_format (Bool.not_eq_false _ ▸ format)
  have kept : remove ' ' code = code := by
    have all : code.toList.filter (· ≠ ' ') = code.toList := by
      rw [filter_eq_self]
      intro c mem
      exact decide_eq_true (ne_of_mem_of_not_mem mem noBlank)
    rw [remove, all, String.ofList_toList]
  simp only [Common.validateNumericCode, kept] at numeric
  split at numeric
  · cases numeric
  rename_i size
  split at numeric
  · cases numeric
  rename_i number
  have short := len_cleanCode_le (by simpa using number)
  omega

section Bound

variable {totp : Int → String → String → Bool} {check : String → String → Bool} {ω : Type*}
  {codes : ω → String} {start : Int} {secret : String} {s t : Logins ω}

/-- An attempt with a number as its code: past the lock check it holds a copy whose lock is over
before the end of the time in question, and the lookup of a backup code stops at the format. -/
def Attempt.Numeric (start : Int) (code : String) : Attempt → Prop
  | .unlocked twoFA cleanCode =>
    Common.validateNumericCode code = .ok cleanCode ∧
      ∀ lockUntil, twoFA.lockedUntil = some lockUntil → lockUntil < start + lockout
  | .lookup _ call => call = .start ∨ ∃ e, call = .rejected (some e)
  | _ => True

variable (codes start secret) in
/-- The comparisons are those that the stored row counts and at most one more, whose attempt will
save the row next. A full count is locked beyond the end. -/
structure Bounded (s : Logins ω) : Prop where
  secret : s.db.twoFA.secret = secret
  each : ∀ w, (s.attempt w).Numeric start (codes w)
  saved : (∀ w u valid, s.attempt w ≠ .compared u valid) →
    s.compared = s.db.twoFA.failedAttempts
  pending : ∀ w u valid, s.attempt w = .compared u valid →
    valid = false ∧ u = s.db.twoFA ∧ s.compared = s.db.twoFA.failedAttempts + 1 ∧
      s.db.twoFA.failedAttempts < Common.maxFailAttempts ∧
      ∀ v u' valid', s.attempt v = .compared u' valid' → v = w
  limit : s.db.twoFA.failedAttempts ≤ Common.maxFailAttempts
  full : s.db.twoFA.failedAttempts = Common.maxFailAttempts →
    ∃ lockUntil, s.db.twoFA.lockedUntil = some lockUntil ∧ start + lockout ≤ lockUntil

theorem Bounded.compared_le (inv : Bounded codes start secret s) :
    s.compared ≤ Common.maxFailAttempts := by
  by_cases busy : ∃ w u valid, s.attempt w = .compared u valid
  · obtain ⟨w, u, valid, phase⟩ := busy
    obtain ⟨_, _, count, room, _⟩ := inv.pending w u valid phase
    omega
  · push Not at busy
    rw [inv.saved busy]
    exact inv.limit

variable [DecidableEq ω]

section
variable {next : Attempt} (inv : Bounded codes start secret s)
include inv

theorem Bounded.each_update (numeric : next.Numeric start (codes w)) (v : ω) :
    (update s.attempt w next v).Numeric start (codes v) :=
  (forall_update_iff s.attempt fun v attempt => attempt.Numeric start (codes v)).mpr
    ⟨numeric, fun v _ => inv.each v⟩ v

theorem Bounded.quiet (numeric : next.Numeric start (codes w))
    (before : ∀ u valid, s.attempt w ≠ .compared u valid)
    (after : ∀ u valid, next ≠ .compared u valid) :
    Bounded codes start secret
      { s with attempt := update s.attempt w next } := by
  have same : ∀ v u valid,
      update s.attempt w next v = .compared u valid ↔ s.attempt v = .compared u valid := by
    intro v u valid
    by_cases own : v = w
    · subst own
      simp [after, before]
    · simp [own]
  refine ⟨inv.secret, inv.each_update numeric, ?_, ?_, inv.limit, inv.full⟩
  · simpa only [ne_eq, same] using inv.saved
  · simpa only [same] using inv.pending

theorem Bounded.compare (phase : s.attempt w = .unlocked u cleanCode) (stored : u = s.db.twoFA)
    (alone : ∀ v u valid, s.attempt v ≠ .compared u valid) :
    Bounded codes start secret
      ⟨s.db, update s.attempt w (.compared u false), s.compared + 1⟩ := by
  have numeric := inv.each w
  rw [phase] at numeric
  have count := inv.saved alone
  have room : s.db.twoFA.failedAttempts < Common.maxFailAttempts := by
    refine lt_of_le_of_ne inv.limit fun full => ?_
    obtain ⟨lockUntil, locked, late⟩ := inv.full full
    have early := numeric.2 lockUntil (stored ▸ locked)
    omega
  have whose : ∀ v u' valid', update s.attempt w (.compared u false) v =
      .compared u' valid' → v = w ∧ u' = u ∧ valid' = false := by
    intro v u' valid' compared
    rcases of_update_eq compared with ⟨own, same⟩ | ⟨-, compared⟩
    · cases same
      exact ⟨own, rfl, rfl⟩
    · exact absurd compared (alone v u' valid')
  refine ⟨inv.secret, inv.each_update trivial, fun none => ?_, fun v u' valid' compared => ?_,
    inv.limit, inv.full⟩
  · exact absurd (update_self w (.compared u false) s.attempt) (none w u false)
  · obtain ⟨rfl, rfl, rfl⟩ := whose v u' valid' compared
    refine ⟨rfl, stored, ?_, room, fun v' _ _ compared' => (whose v' _ _ compared').1⟩
    show ((s.compared + 1 : Nat) : Int) = s.db.twoFA.failedAttempts + 1
    omega

theorem Bounded.count (begun : start ≤ now) (phase : s.attempt w = .compared u valid) :
    Bounded codes start secret
      ⟨{ s.db with twoFA := u.incrementFailedAttempts now },
        update s.attempt w (.backup (u.incrementFailedAttempts now)), s.compared⟩ := by
  obtain ⟨_, rfl, count, room, alone⟩ := inv.pending w u valid phase
  have none : ∀ v u' valid', update s.attempt w
      (.backup (s.db.twoFA.incrementFailedAttempts now)) v ≠ .compared u' valid' := by
    intro v u' valid' compared
    rcases of_update_eq compared with ⟨-, same⟩ | ⟨own, compared⟩
    · cases same
    · exact own (alone v u' valid' compared)
  refine ⟨inv.secret, inv.each_update trivial, fun _ => ?_, fun v u' valid' compared => ?_, ?_,
    fun full => ?_⟩
  · exact count
  · exact absurd compared (none v u' valid')
  · show s.db.twoFA.failedAttempts + 1 ≤ Common.maxFailAttempts
    omega
  · refine ⟨now + lockout, ?_, by omega⟩
    have last : Common.maxFailAttempts ≤ s.db.twoFA.failedAttempts + 1 := le_of_eq full.symm
    simp [TwoFA.incrementFailedAttempts, last]

theorem Bounded.step
    (numeric : ∀ w, ∃ cleanCode, Common.validateNumericCode (codes w) = .ok cleanCode)
    (wrong : ∀ w now cleanCode, Common.validateNumericCode (codes w) = .ok cleanCode →
      Common.validateTOTPCode totp now secret cleanCode = false) (ok : comparesStored start s a)
    (next : loginStep totp check codes s a = some t) : Bounded codes start secret t := by
  obtain ⟨w, now⟩ := a
  obtain ⟨⟨begun, early⟩, stored⟩ := ok
  obtain ⟨⟨db, attempt⟩, runs, rfl⟩ := map_eq_some_iff.mp next
  have each := inv.each w
  dsimp only at *
  cases phase : s.attempt w with
  | start | backup _ =>
    rw [phase] at runs
    cases runs
    refine inv.quiet ?_ (by simp [phase]) ?_ <;> split <;> simp [Attempt.Numeric]
  | loaded u =>
    obtain ⟨cleanCode, parsed⟩ := numeric w
    simp only [phase, verify2FALogin, parsed, some.injEq, Prod.mk.injEq] at runs
    obtain ⟨rfl, rfl⟩ := runs
    refine inv.quiet ?_ (by simp [phase]) (by split <;> simp)
    split
    · trivial
    next unlocked =>
      refine ⟨parsed, fun lockUntil locked => ?_⟩
      have past : lockUntil ≤ now := by simpa [TwoFA.isLocked, locked] using unlocked
      omega
  | unlocked u cleanCode =>
    rw [phase] at runs each
    cases runs
    obtain ⟨same, alone⟩ := stored u cleanCode phase
    rw [show u.secret = secret from same ▸ inv.secret, wrong w now cleanCode each.1]
    exact inv.compare phase same alone
  | compared u valid =>
    rw [phase] at runs
    obtain ⟨rfl, _⟩ := inv.pending w u valid phase
    cases runs
    exact inv.count begun phase
  | lookup u call =>
    rw [phase] at runs each
    rcases each with rfl | ⟨e, rfl⟩
    · obtain ⟨cleanCode, parsed⟩ := numeric w
      simp only [verify2FALogin, validateBackupCode, not_backup_of_numeric parsed,
        Bool.false_eq_true, if_false, map_some, some.injEq, Prod.mk.injEq] at runs
      obtain ⟨rfl, rfl⟩ := runs
      exact inv.quiet (.inr ⟨_, rfl⟩) (by simp [phase]) (by simp)
    · cases runs
      exact inv.quiet trivial (by simp [phase]) (by simp)
  | done outcome =>
    rw [phase] at runs
    cases runs

end

/-- Of any number of attempts with wrong codes, within `LockoutDuration`, at most `MaxFailAttempts`
have their code compared with the secret, in a run in which every comparison is made with the stored
row and while no other is to be saved. -/
theorem compared_at_most_max {db : Db} {as : List (ω × Int)}
    (fresh : db.twoFA.failedAttempts = 0)
    (numeric : ∀ w, ∃ cleanCode, Common.validateNumericCode (codes w) = .ok cleanCode)
    (wrong : ∀ w now cleanCode, Common.validateNumericCode (codes w) = .ok cleanCode →
      Common.validateTOTPCode totp now db.twoFA.secret cleanCode = false)
    (path : Path (comparesStored start) (loginStep totp check codes)
      ⟨db, fun _ => .start, 0⟩ as t) :
    t.compared ≤ Common.maxFailAttempts := by
  have begin : Bounded codes start db.twoFA.secret ⟨db, fun _ => .start, 0⟩ :=
    ⟨rfl, fun _ => trivial, fun _ => fresh.symm, by simp, by simp [fresh, Common.maxFailAttempts],
      by simp [fresh, Common.maxFailAttempts]⟩
  exact (path.invariant (fun _ _ _ inv ok next => inv.step numeric wrong ok next) begin).compared_le

end Bound

def freshUser : Db := ⟨⟨1, 7, "secret", true, 0, none, none⟩, []⟩

theorem compared_at_most_max_in_turn :
    ∃ t, Path (comparesStored 0)
        (loginStep (fun _ _ _ => false) (fun _ _ => false) fun _ : Bool => "000000")
        ⟨freshUser, fun _ => .start, 0⟩
        [(true, 1), (true, 2), (true, 3), (true, 4), (false, 5), (false, 6), (false, 7)] t ∧
      t.compared = 2 ∧ t.compared ≤ Common.maxFailAttempts :=
  Path.exists_and (.cons ⟨by decide, fun _ _ h => by cases h⟩ rfl <|
      .cons ⟨by decide, fun _ _ h => by cases h⟩ rfl <|
      .cons ⟨by decide, fun _ _ h => by cases h; exact ⟨rfl, fun v _ _ h => by cases v <;> cases h⟩⟩
        rfl <|
      .cons ⟨by decide, fun _ _ h => by cases h⟩ rfl <|
      .cons ⟨by decide, fun _ _ h => by cases h⟩ rfl <|
      .cons ⟨by decide, fun _ _ h => by cases h⟩ rfl <|
      .cons ⟨by decide, fun _ _ h => by cases h; exact ⟨rfl, fun v _ _ h => by cases v <;> cases h⟩⟩
        rfl <| .nil _)
    fun path => ⟨rfl, compared_at_most_max rfl (fun _ => ⟨"000000", by decide +kernel⟩)
      (fun _ _ _ _ => by simp [Common.validateTOTPCode]) path⟩

/-- Six attempts load the row before one of them saves it, and all six compare their code. -/
theorem six_compared :
    ((exec (loginStep (fun _ _ _ => false) (fun _ _ => false) fun _ : Fin 6 => "000000")
        ⟨freshUser, fun _ => .start, 0⟩
        ((finRange 6).map (·, 1) ++ (finRange 6).map (·, 2) ++
          (finRange 6).map (·, 3))).map (·.compared)) = some 6 ∧
      Common.maxFailAttempts < 6 := by
  decide +kernel

end EastApi.SecondFactor
