import EastApi.Payment.Manual

/-! Any number of completions and redemptions at one time, statement by statement.  The first
statement of each reads its order or code without a lock, since `gorm:query_option` has no effect,
and `Save` writes the row whatever its status is by then. -/

namespace EastApi.Payment

open Run Function Nat

def Db.isOpen (db : Db) : Row → Prop
  | .order tradeNo => ∃ order, db.orders tradeNo = some order ∧ order.status = .pending
  | .code key => ∃ code, db.codes key = some code ∧ code.status = .enabled
  | .user _ => False

def Write.closes (source : Row) : Write → Bool
  | .saveOrder tradeNo _ _ => source = .order tradeNo
  | .saveCode key _ _ _ => source = .code key
  | .credit _ _ => false

def Write.gain (source : Row) : Write → Nat
  | .credit c _ => if c.source = source then 1 else 0
  | _ => 0

def Db.creditedTo (db : Db) (userId : Int) : Int :=
  ((db.credits.filter (·.userId = userId)).map (·.quota)).sum

theorem writes_close (source : Row) :
    Transaction.Closes (Write.gain source) (Write.closes source) Write.apply Write.row source
      (fun db => db.isOpen source) (fun db => (db.creditsOf source).length) where
  key i closing := by
    cases i with
    | saveOrder tradeNo order completeTime =>
      obtain rfl : source = .order tradeNo := by simpa [Write.closes] using closing
      rfl
    | saveCode key code now userId =>
      obtain rfl : source = .code key := by simpa [Write.closes] using closing
      rfl
    | credit c fields => cases closing
  counts i db := by
    cases i with
    | saveOrder _ _ _ | saveCode _ _ _ _ => exact le_add_right _ _
    | credit c fields =>
      simp only [Write.apply, Db.credit]
      split
      · omega
      · by_cases own : c.source = source <;> simp [Db.creditsOf, Write.gain, own]
  closes i db closing := by
    cases i with
    | saveOrder tradeNo order completeTime =>
      obtain rfl : source = .order tradeNo := by simpa [Write.closes] using closing
      simp [Write.apply, Db.isOpen, TopUp.completed]
    | saveCode key code now userId =>
      obtain rfl : source = .code key := by simpa [Write.closes] using closing
      simp [Write.apply, Db.isOpen, Redemption.redeemed]
    | credit c fields => cases closing
  keeps i db other := by
    cases i with
    | saveOrder tradeNo order completeTime =>
      cases source with
      | order k =>
        have ne : k ≠ tradeNo := by simpa [Write.closes] using other
        simp [Write.apply, Db.isOpen, update_of_ne ne]
      | code k => rfl
      | user id => rfl
    | saveCode key code now userId =>
      cases source with
      | order k => rfl
      | code k =>
        have ne : k ≠ key := by simpa [Write.closes] using other
        simp [Write.apply, Db.isOpen, update_of_ne ne]
      | user id => rfl
    | credit c fields =>
      simp only [Write.apply, Db.credit]
      split
      · rfl
      · cases source <;> rfl

section
variable (source : Row)

theorem credited_and_saved (row : Row) :
    (if row = source then 1 else 0) = 0 ∨
      (if row = source then 1 else 0) = 1 ∧ decide (source = row) = true := by
  by_cases own : row = source
  · exact .inr ⟨if_pos own, decide_eq_true own.symm⟩
  · exact .inl (if_neg own)

theorem complete_guarded (tradeNo : String) (order : TopUp) (now quota : Int) (fields : Fields) :
    (complete tradeNo order now quota fields).Guarded (Write.gain source) (Write.closes source)
      0 false := by
  simp only [complete, Transaction.Guarded, Write.gain, Write.closes, zero_add,
    Bool.false_or, Bool.or_false]
  exact credited_and_saved source (.order tradeNo)

theorem withOrder_guarded
    (guarded : ∀ order, (body order).Guarded (Write.gain source) (Write.closes source) 0 false) :
    (withOrder tradeNo body).Guarded (Write.gain source) (Write.closes source) 0 false := by
  intro db
  dsimp only
  split
  · trivial
  · exact guarded _

theorem rechargeCreem_guarded (now : Int) (referenceId customerEmail : String) :
    (rechargeCreem now referenceId customerEmail).Guarded (Write.gain source)
      (Write.closes source) 0 false := by
  refine withOrder_guarded source fun order => ?_
  split
  · trivial
  split
  · trivial
  split
  · exact complete_guarded source _ _ _ _ _
  · intro db
    dsimp only
    split
    · trivial
    · simp only [Transaction.Guarded, Write.gain, Write.closes, zero_add, Bool.false_or,
        Bool.or_false]
      exact credited_and_saved source (.order referenceId)

theorem redeem_guarded (now : Int) (key : String) (userId : Int) :
    (redeem now key userId).Guarded (Write.gain source) (Write.closes source) 0 false := by
  intro db
  dsimp only
  split
  · trivial
  split
  · trivial
  split
  · trivial
  simp only [Transaction.Guarded, Write.gain, Write.closes, add_zero, zero_add,
    Bool.false_or]
  exact credited_and_saved source (.code key)

theorem program_guarded (now : Int) (call : Call) :
    (call.program cfg now).Guarded (Write.gain source) (Write.closes source) 0 false := by
  simp only [Call.program]
  split
  · trivial
  cases call with
  | manualCompleteTopUp tradeNo =>
    refine withOrder_guarded source fun order => ?_
    split
    · exact .inl rfl
    split
    · trivial
    split
    · trivial
    · exact complete_guarded source _ _ _ _ _
  | recharge referenceId customerId =>
    refine withOrder_guarded source fun order => ?_
    split
    · trivial
    split
    · trivial
    · exact complete_guarded source _ _ _ _ _
  | rechargeCreem referenceId customerEmail => exact rechargeCreem_guarded source _ _ _
  | rechargeWaffo tradeNo =>
    refine withOrder_guarded source fun order => ?_
    split
    · trivial
    split
    · exact .inl rfl
    split
    · trivial
    split
    · trivial
    · exact complete_guarded source _ _ _ _ _
  | redeem key userId => exact redeem_guarded source _ _ _

end

def Balanced (start db : Db) : Prop :=
  ∀ userId, db.quotaOf userId + start.creditedTo userId =
    start.quotaOf userId + db.creditedTo userId

theorem Balanced.apply (h : Balanced start db) (i : Write) : Balanced start (i.apply db) := by
  intro userId
  have before := h userId
  cases i with
  | saveOrder tradeNo order completeTime => exact before
  | saveCode key code now user => exact before
  | credit c fields =>
    simp only [Write.apply, Db.credit]
    split
    · exact before
    next user hasUser =>
      by_cases own : c.userId = userId
      · subst own
        simp only [Db.quotaOf, hasUser, Db.creditedTo, Option.map_some, Option.getD_some,
          update_self, List.filter_append, List.map_append, List.sum_append] at before ⊢
        simp
        omega
      · simpa [Db.quotaOf, Db.creditedTo, own, Ne.symm own] using before

section
variable {ω : Type} [DecidableEq ω] (cfg : Config) (calls : ω → Call) (times : ω → Int)

abbrev Sys (ω : Type) := Transaction.Sys Db Write String Row ω

def concurrentStep : Sys ω → Transaction.Action String ω → Option (Sys ω) :=
  Transaction.step Write.apply Write.row fun w => (calls w).program cfg (times w)

def savesOpen (source : Row) : Sys ω → Transaction.Action String ω → Prop :=
  Transaction.findsOpen (Write.closes source) fun db => db.isOpen source

def Sys.start (db : Db) : Sys ω := { store := db, lock := fun _ => none, phase := fun _ => .idle }

variable {cfg calls times}

/-- In every run of any number of calls, in any order of their statements and with errors at any of
them, in which every `Save` of an order or code finds it open: it is credited once at the most, and
the users have what they had and what they were credited. -/
theorem credited_at_most_once {db : Db} {source : Row} (uncredited : db.creditsOf source = [])
    {as : List (Transaction.Action String ω)} {t : Sys ω}
    (path : Path (savesOpen source) (concurrentStep cfg calls times) (Sys.start db) as t) :
    (t.store.creditsOf source).length ≤ 1 ∧ Balanced db t.store := by
  constructor
  · have start : Transaction.Once (Write.gain source) (Write.closes source) Write.row
        (fun db => db.isOpen source) (fun db => (db.creditsOf source).length)
        (Sys.start db : Sys ω) :=
      .start (fun _ => by simp [uncredited]) (by simp [uncredited])
    exact (path.invariant
      (fun _ _ _ h ok hs =>
        h.step (writes_close source) (fun w => program_guarded source (times w) (calls w)) ok hs)
      start).once
  · exact path.invariant (I := fun s => Balanced db s.store)
      (fun _ _ _ h _ hs => Transaction.store_keep (fun i _ h => h.apply i) hs h)
      (fun _ => rfl)

end

def oneCode : Db where
  orders := fun _ => none
  codes := update (fun _ => none) "k" (some { quota := 100 })
  users := update (update (fun _ => none) 7 (some { quota := 0 })) 8
    (some { quota := 0 })
  credits := []

def twoUsers : Bool → Call
  | false => .redeem "k" 7
  | true => .redeem "k" 8

/-- Both read the code before one of them has committed. -/
theorem redeemed_by_both :
    (exec (concurrentStep {} twoUsers fun _ => 0) (Sys.start oneCode)
      [.step false, .step false, .step true, .step true, .step false, .step false, .step false,
        .step true, .step true, .step true]).map
      (fun t => (t.store.creditsOf (.code "k"), t.store.quotaOf 7, t.store.quotaOf 8)) =
      some ([⟨.code "k", 7, 100⟩, ⟨.code "k", 8, 100⟩], 100, 100) := by
  decide +kernel

/-- One redeems the code, and the other one comes too late. -/
theorem credited_at_most_once_in_turn :
    ∃ t, Path (savesOpen (.code "k")) (concurrentStep {} twoUsers fun _ => 0) (Sys.start oneCode)
        [.step false, .step false, .step false, .step false, .step false, .step true, .step true,
          .step true] t ∧
      (t.store.creditsOf (.code "k")).length ≤ 1 ∧ t.store.quotaOf 7 = 100 := by
  refine Path.exists_and (.cons trivial rfl <| .cons trivial rfl <|
    .cons (fun h => by cases h) rfl <| .cons (fun _ => ⟨{ quota := 100 }, rfl, rfl⟩) rfl <|
    .cons trivial rfl <| .cons trivial rfl <| .cons trivial rfl <| .cons trivial rfl <| .nil _)
    fun path => ?_
  exact ⟨(credited_at_most_once rfl path).1, by decide +kernel⟩

end EastApi.Payment
