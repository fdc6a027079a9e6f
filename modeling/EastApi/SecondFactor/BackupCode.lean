import EastApi.Lib.GoText
import EastApi.Lib.Run

/-! Backup codes (`model/twofa.go` with the code formats of `common/totp.go`).  The three are
separate statements, and the last one has no condition on the row it replaces, so that two calls can
use one code.  Where every `Save` still finds its row unused, each code is used at most once. -/

namespace EastApi.SecondFactor

open Go Run Function List

namespace Common

def backupCodeLength : Nat := 8

def cleanCode (code : String) : String := toUpper (remove '-' code)

def validateBackupCode (code : String) : Bool :=
  len (cleanCode code) = backupCodeLength &&
    (cleanCode code).toList.all fun char =>
      ('A' ≤ char && char ≤ 'Z') || ('0' ≤ char && char ≤ '9')

def normalizeBackupCode (code : String) : String :=
  if len (cleanCode code) = backupCodeLength then
    let chars := (cleanCode code).toList
    String.ofList (chars.take 4 ++ '-' :: chars.drop 4)
  else code

end Common

structure BackupCode where
  (id userId : Int)
  codeHash : String
  isUsed : Bool := false
  usedAt : Option Int := none
  deriving DecidableEq

def BackupCode.key (code : BackupCode) : Int × Int × String :=
  (code.id, code.userId, code.codeHash)

def save (code : BackupCode) (rows : List BackupCode) : List BackupCode :=
  rows.map fun row => if row.id = code.id then code else row

/-- A call of `ValidateBackupCode` between two of its statements. It returns true when it is
accepted, by the row of that id. -/
inductive Lookup where
  | start
  | selected (unused : List BackupCode)
  | matched (code : BackupCode)
  | accepted (id : Int)
  | rejected (error : Option String)
  deriving DecidableEq

section Calls

variable (check : String → String → Bool) (userId : Int)

/-- The next statement of a call: `check` is `ValidatePasswordAndHash`, the time is that of the
`Save`. -/
def validateBackupCode (code : String) (now : Int) (rows : List BackupCode) :
    Lookup → Option (List BackupCode × Lookup)
  | .start =>
    if Common.validateBackupCode code then
      some (rows, .selected (rows.filter fun row => row.userId = userId && !row.isUsed))
    else some (rows, .rejected (some "验证码或备用码不正确"))
  | .selected unused =>
    match unused.find? fun bc => check (Common.normalizeBackupCode code) bc.codeHash with
    | some bc => some (rows, .matched bc)
    | none => some (rows, .rejected none)
  | .matched bc =>
    some (save { bc with isUsed := true, usedAt := some now } rows, .accepted bc.id)
  | .accepted _ | .rejected _ => none

def validateBackupCodeFails (code error : String) : Lookup → Option Lookup
  | .start => if Common.validateBackupCode code then some (.rejected (some error)) else none
  | .matched _ => some (.rejected (some error))
  | _ => none

structure Calls (ω : Type*) where
  rows : List BackupCode
  call : ω → Lookup

inductive CallAction (ω : Type*) where
  | step (w : ω) (now : Int)
  | fail (w : ω) (error : String)

variable {ω : Type*} [DecidableEq ω] (codes : ω → String)

def callStep (s : Calls ω) : CallAction ω → Option (Calls ω)
  | .step w now =>
    (validateBackupCode check userId (codes w) now s.rows (s.call w)).map fun next =>
      ⟨next.1, update s.call w next.2⟩
  | .fail w error =>
    (validateBackupCodeFails (codes w) error (s.call w)).map fun next =>
      { s with call := update s.call w next }

def savesUnused (s : Calls ω) : CallAction ω → Prop
  | .step w _ => ∀ bc, s.call w = .matched bc → ∃ row ∈ s.rows, row.id = bc.id ∧ !row.isUsed
  | .fail _ _ => True

def Lookup.returnsTrue : Lookup → Bool
  | .accepted _ => true
  | _ => false

def isCodeOf (row : BackupCode) (code : String) : Prop :=
  check (Common.normalizeBackupCode code) row.codeHash = true

section Invariant

variable (stored : List BackupCode)

def Lookup.Sound (code : String) : Lookup → Prop
  | .selected unused => ∀ bc ∈ unused, bc.userId = userId ∧ bc.key ∈ stored.map BackupCode.key
  | .matched bc =>
    (bc.userId = userId ∧ bc.key ∈ stored.map BackupCode.key) ∧ isCodeOf check bc code
  | .accepted id => ∃ row ∈ stored, row.id = id ∧ row.userId = userId ∧ isCodeOf check row code
  | .start | .rejected _ => True

variable {check userId stored}

theorem mem_save (mem : row ∈ save code rows) : row = code ∨ row ∈ rows ∧ row.id ≠ code.id := by
  obtain ⟨old, oldMem, rfl⟩ := mem_map.mp mem
  split
  · exact .inl rfl
  · exact .inr ⟨oldMem, by assumption⟩

theorem validateBackupCode_sound (known : ∀ row ∈ rows, row.key ∈ stored.map BackupCode.key)
    (sound : call.Sound check userId stored code)
    (next : validateBackupCode check userId code now rows call = some (rows', call')) :
    (∀ row ∈ rows', row.key ∈ stored.map BackupCode.key) ∧
      call'.Sound check userId stored code := by
  cases call with
  | start =>
    simp only [validateBackupCode] at next
    split at next <;> cases next
    · refine ⟨known, fun bc mem => ?_⟩
      obtain ⟨mem, unused⟩ := mem_filter.mp mem
      rw [Bool.and_eq_true, decide_eq_true_eq] at unused
      exact ⟨unused.1, known bc mem⟩
    · exact ⟨known, trivial⟩
  | selected unused =>
    simp only [validateBackupCode] at next
    split at next <;> cases next
    next bc found =>
      have isCode := find?_some found
      exact ⟨known, sound bc (mem_of_find?_eq_some found), isCode⟩
    · exact ⟨known, trivial⟩
  | matched bc =>
    cases next
    obtain ⟨⟨own, keyMem⟩, isCode⟩ := sound
    constructor
    · intro row mem
      rcases mem_save mem with rfl | ⟨mem, _⟩
      · exact keyMem
      · exact known row mem
    · obtain ⟨row, rowMem, same⟩ := mem_map.mp keyMem
      simp only [BackupCode.key, Prod.mk.injEq] at same
      exact ⟨row, rowMem, same.1, same.2.1.trans own, by rwa [isCodeOf, same.2.2]⟩
  | accepted id => cases next
  | rejected error => cases next

variable (check userId stored) in
structure UsedOnce (s : Calls ω) : Prop where
  known : ∀ row ∈ s.rows, row.key ∈ stored.map BackupCode.key
  sound : ∀ w, (s.call w).Sound check userId stored (codes w)
  used : ∀ w id, s.call w = .accepted id → ∀ row ∈ s.rows, row.id = id → row.isUsed
  once : ∀ w v id, s.call w = .accepted id → s.call v = .accepted id → w = v

variable {codes}

section
variable {next : Lookup} {s : Calls ω} (inv : UsedOnce check userId codes stored s)
include inv

theorem UsedOnce.sound_update (sound : next.Sound check userId stored (codes w)) (v : ω) :
    (update s.call w next v).Sound check userId stored (codes v) :=
  (forall_update_iff s.call fun v call => call.Sound check userId stored (codes v)).mpr
    ⟨sound, fun v _ => inv.sound v⟩ v

theorem UsedOnce.update (sound : next.Sound check userId stored (codes w))
    (pending : ∀ id, next ≠ .accepted id) :
    UsedOnce check userId codes stored { s with call := Function.update s.call w next } := by
  have other : ∀ v id, Function.update s.call w next v = .accepted id →
      s.call v = .accepted id := by
    intro v id accepted
    rcases of_update_eq accepted with ⟨-, mine⟩ | ⟨-, accepted⟩
    · exact absurd mine (pending id)
    · exact accepted
  exact ⟨inv.known, inv.sound_update sound, fun v id hv => inv.used v id (other v id hv),
    fun v u id hv hu => inv.once v u id (other v id hv) (other u id hu)⟩

theorem UsedOnce.save (matched : s.call w = .matched bc)
    (unused : ∃ row ∈ s.rows, row.id = bc.id ∧ !row.isUsed) :
    UsedOnce check userId codes stored
      ⟨SecondFactor.save { bc with isUsed := true, usedAt := some now } s.rows,
        Function.update s.call w (.accepted bc.id)⟩ := by
  have nobody : ∀ v, s.call v ≠ .accepted bc.id := by
    intro v accepted
    obtain ⟨row, mem, same, unused⟩ := unused
    simp [inv.used v bc.id accepted row mem same] at unused
  have next : validateBackupCode check userId (codes w) now s.rows (s.call w) =
      some (SecondFactor.save { bc with isUsed := true, usedAt := some now } s.rows,
        .accepted bc.id) := by
    rw [matched]
    rfl
  obtain ⟨known, sound⟩ := validateBackupCode_sound inv.known (inv.sound w) next
  have whose : ∀ v id, Function.update s.call w (.accepted bc.id) v = .accepted id →
      (v = w ∧ id = bc.id) ∨ s.call v = .accepted id := by
    intro v id accepted
    rcases of_update_eq accepted with ⟨own, same⟩ | ⟨-, accepted⟩
    · cases same
      exact .inl ⟨own, rfl⟩
    · exact .inr accepted
  refine ⟨known, inv.sound_update sound, fun v id accepted row mem same => ?_,
    fun v u id hv hu => ?_⟩
  · rcases mem_save mem with rfl | ⟨mem, different⟩
    · rfl
    · rcases whose v id accepted with ⟨rfl, rfl⟩ | accepted
      · exact absurd same different
      · exact inv.used v id accepted row mem same
  · rcases whose v id hv with ⟨first, mine⟩ | hv <;> rcases whose u id hu with ⟨second, own⟩ | hu
    · exact first.trans second.symm
    · exact absurd (mine ▸ hu) (nobody u)
    · exact absurd (own ▸ hv) (nobody v)
    · exact inv.once v u id hv hu

theorem UsedOnce.step (ok : savesUnused s a) (next : callStep check userId codes s a = some t) :
    UsedOnce check userId codes stored t := by
  cases a with
  | fail w error =>
    obtain ⟨call, fails, rfl⟩ := Option.map_eq_some_iff.mp next
    have rejected : ∃ e, call = .rejected e := by
      cases phase : s.call w <;> simp only [phase, validateBackupCodeFails] at fails
      · split at fails <;> cases fails
        exact ⟨_, rfl⟩
      all_goals cases fails
      exact ⟨_, rfl⟩
    obtain ⟨e, rfl⟩ := rejected
    exact inv.update trivial (by simp)
  | step w now =>
    obtain ⟨⟨rows, call⟩, runs, rfl⟩ := Option.map_eq_some_iff.mp next
    obtain ⟨_, sound⟩ := validateBackupCode_sound inv.known (inv.sound w) runs
    cases phase : s.call w with
    | matched bc =>
      rw [phase] at runs
      cases runs
      exact inv.save phase (ok bc phase)
    | start | selected unused =>
      rw [phase] at runs
      simp only [validateBackupCode] at runs
      split at runs <;> cases runs <;> exact inv.update sound (by simp)
    | accepted _ | rejected _ =>
      rw [phase] at runs
      cases runs

end

end Invariant

/-- In a run in which every `Save` finds its row unused, at most one call returns true for each of
the user's codes. A submitted code is that of one row at most. -/
theorem code_used_at_most_once {rows : List BackupCode} {as : List (CallAction ω)} {t : Calls ω}
    (distinct : ∀ row ∈ rows, ∀ other ∈ rows, row.userId = userId → other.userId = userId →
      ∀ code, isCodeOf check row code → isCodeOf check other code → row.id = other.id)
    (path : Path savesUnused (callStep check userId codes) ⟨rows, fun _ => .start⟩ as t)
    {row : BackupCode} (mem : row ∈ rows) (own : row.userId = userId) {w v : ω}
    (wTrue : (t.call w).returnsTrue) (wCode : isCodeOf check row (codes w))
    (vTrue : (t.call v).returnsTrue) (vCode : isCodeOf check row (codes v)) : w = v := by
  have start : UsedOnce check userId codes rows ⟨rows, fun _ => .start⟩ :=
    ⟨fun row mem => mem_map_of_mem mem, fun _ => trivial, by simp, by simp⟩
  have inv := path.invariant (fun _ _ _ inv ok next => inv.step ok next) start
  -- the row by which a call was accepted is the row of its code
  have accepted : ∀ u, (t.call u).returnsTrue → isCodeOf check row (codes u) →
      t.call u = .accepted row.id := by
    intro u returned isCode
    cases phase : t.call u with
    | accepted id =>
      have sound := inv.sound u
      rw [phase] at sound
      obtain ⟨found, foundMem, rfl, foundOwn, foundCode⟩ := sound
      rw [distinct found foundMem row mem foundOwn own _ foundCode isCode]
    | _ => simp [phase, Lookup.returnsTrue] at returned
  exact inv.once w v row.id (accepted w wTrue wCode) (accepted v vTrue vCode)

end Calls

def oneCode : List BackupCode := [⟨1, 7, "ABCD-EFGH", false, none⟩]

theorem code_used_at_most_once_in_turn :
    ∃ t, Path savesUnused (callStep (· == ·) 7 fun _ : Bool => "abcdefgh")
        ⟨oneCode, fun _ => .start⟩
        [.step true 10, .step true 11, .step true 12, .step false 13, .step false 14] t ∧
      (t.call true).returnsTrue ∧ ∀ v, (t.call v).returnsTrue → v = true := by
  have distinct : ∀ row ∈ oneCode, ∀ other ∈ oneCode, row.userId = 7 → other.userId = 7 →
      ∀ code, isCodeOf (· == ·) row code → isCodeOf (· == ·) other code → row.id = other.id := by
    simp [oneCode]
  have own : isCodeOf (· == ·) ⟨1, 7, "ABCD-EFGH", false, none⟩ "abcdefgh" := by
    unfold isCodeOf
    decide +kernel
  exact Path.exists_and (.cons (fun _ h => by cases h) rfl <| .cons (fun _ h => by cases h) rfl <|
      .cons (fun _ h => by cases h; exact ⟨_, mem_cons_self, rfl, rfl⟩) rfl <|
      .cons (fun _ h => by cases h) rfl <| .cons (fun _ h => by cases h) rfl <| .nil _)
    fun path => ⟨rfl, fun v returned =>
      code_used_at_most_once _ _ _ distinct path mem_cons_self rfl returned own rfl own⟩

/-- Two calls with the user's one code both select it before one of them saves it. -/
theorem code_used_twice :
    ((exec (callStep (· == ·) 7 fun _ : Bool => "abcdefgh") ⟨oneCode, fun _ => .start⟩
        [.step true 10, .step false 10, .step true 11, .step false 11, .step true 12,
          .step false 13]).map fun t => (t.call true, t.call false)) =
      some (.accepted 1, .accepted 1) := by
  decide +kernel

end EastApi.SecondFactor
