import EastApi.Lib.Counters
import EastApi.Lib.Run
import Mathlib.Algebra.Group.Action.Defs
import Mathlib.Algebra.Group.Pi.Lemmas
import Mathlib.Data.Fintype.Basic

/-! Batch mode.  A call puts its amount into a map under the id of its row, and `batchUpdate` from
time to time takes each map, leaves an empty one in its place and adds what it has taken to the
rows.  In direct mode the call itself is the `UPDATE`. -/

namespace EastApi.Account.Batch

open Function List

structure UserRow where
  (quota usedQuota requestCount : Int64)
deriving DecidableEq

structure TokenRow where
  (remainQuota usedQuota : Int64)
deriving DecidableEq

structure ChannelRow where
  usedQuota : Int64
deriving DecidableEq

@[ext] structure Tables where
  users : Int → Option UserRow
  tokens : Int → Option TokenRow
  channels : Int → Option ChannelRow

section
variable (t : Tables) (id : Int)

def Tables.updateUser (f : UserRow → UserRow) : Tables :=
  { t with users := update t.users id ((t.users id).map f) }

def Tables.updateToken (f : TokenRow → TokenRow) : Tables :=
  { t with tokens := update t.tokens id ((t.tokens id).map f) }

def Tables.updateChannel (f : ChannelRow → ChannelRow) : Tables :=
  { t with channels := update t.channels id ((t.channels id).map f) }

variable (quota : Int64)

def increaseUserQuota : Tables := t.updateUser id fun u => { u with quota := u.quota + quota }

def decreaseUserQuota : Tables := t.updateUser id fun u => { u with quota := u.quota - quota }

def increaseTokenQuota : Tables :=
  t.updateToken id fun k => ⟨k.remainQuota + quota, k.usedQuota - quota⟩

def decreaseTokenQuota : Tables :=
  t.updateToken id fun k => ⟨k.remainQuota - quota, k.usedQuota + quota⟩

def updateUserUsedQuota : Tables :=
  t.updateUser id fun u => { u with usedQuota := u.usedQuota + quota }

def updateUserRequestCount (count : Int64) : Tables :=
  t.updateUser id fun u => { u with requestCount := u.requestCount + count }

def updateUserUsedQuotaAndRequestCount (count : Int64) : Tables :=
  t.updateUser id fun u =>
    { u with usedQuota := u.usedQuota + quota, requestCount := u.requestCount + count }

def updateChannelUsedQuota : Tables :=
  t.updateChannel id fun c => ⟨c.usedQuota + quota⟩

end

inductive Kind
  | userQuota | tokenQuota | usedQuota | channelUsedQuota | requestCount
deriving DecidableEq, Repr

def Kind.all : List Kind := [.userQuota, .tokenQuota, .usedQuota, .channelUsedQuota, .requestCount]

theorem Kind.mem_all (kind : Kind) : kind ∈ Kind.all := by
  cases kind <;> decide

def Kind.write (kind : Kind) (key : Int) (value : Int64) (t : Tables) : Tables :=
  match kind with
  | .userQuota => increaseUserQuota t key value
  | .tokenQuota => increaseTokenQuota t key value
  | .usedQuota => updateUserUsedQuota t key value
  | .requestCount => updateUserRequestCount t key value
  | .channelUsedQuota => updateChannelUsedQuota t key value

inductive Call
  | increaseUserQuota (id : Int) (quota : Int64) (db : Bool)
  | decreaseUserQuota (id : Int) (quota : Int64) (db : Bool)
  | increaseTokenQuota (id : Int) (quota : Int64)
  | decreaseTokenQuota (id : Int) (quota : Int64)
  | updateUserUsedQuotaAndRequestCount (id : Int) (quota : Int64)
  | updateChannelUsedQuota (id : Int) (quota : Int64)
deriving DecidableEq

def Call.direct (t : Tables) : Call → Tables
  | .increaseUserQuota id quota _ => if quota < 0 then t else Batch.increaseUserQuota t id quota
  | .decreaseUserQuota id quota _ => if quota < 0 then t else Batch.decreaseUserQuota t id quota
  | .increaseTokenQuota id quota => if quota < 0 then t else Batch.increaseTokenQuota t id quota
  | .decreaseTokenQuota id quota => if quota < 0 then t else Batch.decreaseTokenQuota t id quota
  | .updateUserUsedQuotaAndRequestCount id quota =>
    Batch.updateUserUsedQuotaAndRequestCount t id quota 1
  | .updateChannelUsedQuota id quota => Batch.updateChannelUsedQuota t id quota

/-- What a call in batch mode does at a time: `addNewRecord` under the lock of one map, or, with
`db`, the statement itself. -/
inductive Part
  | addNewRecord (kind : Kind) (id : Int) (value : Int64)
  | increase (id : Int) (quota : Int64)
  | decrease (id : Int) (quota : Int64)
deriving DecidableEq

def Call.parts : Call → List Part
  | .increaseUserQuota id quota db =>
    if quota < 0 then [] else if db then [.increase id quota]
    else [.addNewRecord .userQuota id quota]
  | .decreaseUserQuota id quota db =>
    if quota < 0 then [] else if db then [.decrease id quota]
    else [.addNewRecord .userQuota id (-quota)]
  | .increaseTokenQuota id quota =>
    if quota < 0 then [] else [.addNewRecord .tokenQuota id quota]
  | .decreaseTokenQuota id quota =>
    if quota < 0 then [] else [.addNewRecord .tokenQuota id (-quota)]
  | .updateUserUsedQuotaAndRequestCount id quota =>
    [.addNewRecord .usedQuota id quota, .addNewRecord .requestCount id 1]
  | .updateChannelUsedQuota id quota => [.addNewRecord .channelUsedQuota id quota]

def Part.direct (t : Tables) : Part → Tables
  | .addNewRecord kind id value => kind.write id value t
  | .increase id quota => increaseUserQuota t id quota
  | .decrease id quota => decreaseUserQuota t id quota

/-- `map[int]int`. -/
abbrev Store := AList fun _ : Int => Int64

inductive Flush
  | idle
  /-- It looks for data in the maps of the types that are left. -/
  | check (rest : List Kind)
  /-- It takes the maps of the types that are left. -/
  | take (rest : List Kind)
  /-- It has taken a map and writes the keys that are left of it, in any order. -/
  | apply (kind : Kind) (store : Store) (rest : List Kind)

structure Sys where
  tables : Tables
  stores : Kind → Store
  flush : Flush

inductive Action
  | part (p : Part)
  /-- `batchUpdate` goes on to the next map. -/
  | next
  /-- It writes one key of the map that it has taken. -/
  | write (key : Int)
deriving DecidableEq

def step (s : Sys) : Action → Option Sys
  | .part (.addNewRecord kind id value) =>
    some { s with stores := update s.stores kind (Counters.add (s.stores kind) id value) }
  | .part (.increase id quota) => some { s with tables := increaseUserQuota s.tables id quota }
  | .part (.decrease id quota) => some { s with tables := decreaseUserQuota s.tables id quota }
  | .next =>
    match s.flush with
    | .idle => some { s with flush := .check Kind.all }
    | .check [] => some { s with flush := .idle }
    | .check (kind :: rest) =>
      if 0 < (s.stores kind).keys.length then some { s with flush := .take Kind.all }
      else some { s with flush := .check rest }
    | .take [] => some { s with flush := .idle }
    | .take (kind :: rest) =>
      some { s with
        stores := update s.stores kind ∅
        flush := .apply kind (s.stores kind) rest }
    | .apply _ store rest => if store.keys = [] then some { s with flush := .take rest } else none
  | .write key =>
    match s.flush with
    | .apply kind store rest =>
      (store.lookup key).map fun value =>
        { s with
          tables := kind.write key value s.tables, flush := .apply kind (store.erase key) rest }
    | _ => none

/-- An amount for each type and id. -/
abbrev Amounts := Kind → Int → Int64

def one (kind : Kind) (id : Int) (value : Int64) : Amounts := Pi.single kind (Pi.single id value)

def Tables.plus (m : Amounts) (t : Tables) : Tables where
  users id := (t.users id).map fun u =>
    ⟨u.quota + m .userQuota id, u.usedQuota + m .usedQuota id, u.requestCount + m .requestCount id⟩
  tokens id := (t.tokens id).map fun k =>
    ⟨k.remainQuota + m .tokenQuota id, k.usedQuota - m .tokenQuota id⟩
  channels id := (t.channels id).map fun c => ⟨c.usedQuota + m .channelUsedQuota id⟩

instance : AddAction Amounts Tables where
  vadd := Tables.plus
  zero_vadd t := by
    show Tables.plus 0 t = t
    simp [Tables.plus]
  add_vadd m m' t := by
    show Tables.plus (m + m') t = Tables.plus m (Tables.plus m' t)
    have up : ∀ x a b : Int64, x + (a + b) = x + b + a := fun x a b => by
      rw [add_comm a b, add_assoc]
    have down : ∀ x a b : Int64, x - (a + b) = x - b - a := fun x a b => by
      rw [add_comm a b, sub_add_eq_sub_sub]
    simp only [Tables.plus, Option.map_map, comp_def, Pi.add_apply, up, down]

/-- A statement changes one row of one table. -/
theorem write_eq (kind : Kind) (key : Int) (value : Int64) (t : Tables) :
    kind.write key value t = one kind key value +ᵥ t := by
  show _ = t.plus (one kind key value)
  cases kind <;>
    refine Tables.ext (funext fun i => ?_) (funext fun i => ?_) (funext fun i => ?_) <;>
    by_cases here : i = key <;>
    simp [Kind.write, increaseUserQuota, increaseTokenQuota, updateUserUsedQuota,
      updateUserRequestCount, updateChannelUsedQuota, Tables.updateUser, Tables.updateToken,
      Tables.updateChannel, Tables.plus, one, Pi.single_apply, here]

def Part.amounts : Part → Amounts
  | .addNewRecord kind id value => one kind id value
  | .increase id quota => one .userQuota id quota
  | .decrease id quota => one .userQuota id (-quota)

theorem decreaseUserQuota_eq (t : Tables) (id : Int) (quota : Int64) :
    decreaseUserQuota t id quota = Kind.write .userQuota id (-quota) t := by
  simp only [decreaseUserQuota, Kind.write, increaseUserQuota, sub_eq_add_neg]

theorem Part.direct_eq (t : Tables) (p : Part) : p.direct t = p.amounts +ᵥ t := by
  cases p with
  | addNewRecord kind id value => exact write_eq kind id value t
  | increase id quota => exact write_eq .userQuota id quota t
  | decrease id quota => exact (decreaseUserQuota_eq t id quota).trans (write_eq ..)

theorem Call.direct_eq (t : Tables) (c : Call) : c.direct t = c.parts.foldl Part.direct t := by
  cases c with
  | updateUserUsedQuotaAndRequestCount id quota =>
    simp [Call.direct, Call.parts, Part.direct, Kind.write, updateUserUsedQuota,
      updateUserRequestCount, Batch.updateUserUsedQuotaAndRequestCount, Tables.updateUser, comp_def]
  | updateChannelUsedQuota id quota => rfl
  | _ id quota =>
    simp only [Call.direct, Call.parts]
    split_ifs <;>
      simp [Part.direct, decreaseUserQuota_eq, Batch.decreaseTokenQuota, Kind.write,
        Batch.increaseTokenQuota, sub_eq_add_neg]

theorem foldl_direct_perm {l l' : List Part} (perm : l.Perm l') (t : Tables) :
    l.foldl Part.direct t = l'.foldl Part.direct t := by
  have comm : RightCommutative Part.direct := ⟨fun t p q => by
    rw [Part.direct_eq, Part.direct_eq, Part.direct_eq, Part.direct_eq, ← add_vadd, ← add_vadd,
      add_comm]⟩
  exact perm.foldl_eq t

theorem foldl_calls (calls : List Call) : ∀ t : Tables,
    (calls.flatMap Call.parts).foldl Part.direct t = calls.foldl Call.direct t := by
  induction calls with
  | nil => intro t; rfl
  | cons c rest ih =>
    intro t
    rw [flatMap_cons, foldl_append, ← Call.direct_eq, ih, foldl_cons]

def pending (stores : Kind → Store) : Amounts := fun kind => Counters.total (stores kind)

def Flush.taken : Flush → Amounts
  | .apply kind store _ => Pi.single kind (Counters.total store)
  | _ => 0

def Sys.settled (s : Sys) : Tables := (pending s.stores + s.flush.taken) +ᵥ s.tables

def Action.direct (t : Tables) : Action → Tables
  | .part p => p.direct t
  | _ => t

theorem pending_update (stores : Kind → Store) (kind : Kind) (store : Store) :
    pending (update stores kind store) =
      update (pending stores) kind (Counters.total store) := by
  funext other
  exact apply_update (fun _ => Counters.total) stores kind store other

theorem update_add_single (m : Amounts) (kind : Kind) (d : Int → Int64) :
    update m kind (m kind + d) = m + Pi.single kind d := by
  funext other
  by_cases same : other = kind
  · subst same
    simp
  · simp [same]

theorem update_zero_add_single (m : Amounts) (kind : Kind) :
    update m kind 0 + Pi.single kind (m kind) = m := by
  funext other
  by_cases same : other = kind
  · subst same
    simp
  · simp [same]

def Flush.rest : Flush → List Kind
  | .idle => []
  | .check rest => rest
  | .take rest => rest
  | .apply _ _ rest => rest

def Sys.drained (s : Sys) : Prop := ∀ kind, kind ∉ s.flush.rest → s.stores kind = ∅

def Action.quiet : Action → Prop
  | .part _ => False
  | _ => True

theorem quiet_step (quiet : a.quiet) (h : step s a = some t) :
    t.settled = s.settled ∧ (s.flush = .idle ∨ s.drained → t.drained) := by
  revert h
  fun_cases step s a <;> intro h <;> try cases h
  case case1 | case2 | case3 => exact absurd quiet id
  next flush =>
    -- it begins with all types to come
    simp only [Sys.settled, flush]
    exact ⟨rfl, fun _ kind left => absurd kind.mem_all left⟩
  case case5 flush | case8 flush =>
    simp only [Sys.settled, Sys.drained, flush]
    exact ⟨rfl, fun drained => drained.resolve_left (by simp)⟩
  next flush _ =>
    simp only [Sys.settled, Sys.drained, flush]
    exact ⟨rfl, fun _ kind left => absurd kind.mem_all left⟩
  next kind rest flush data =>
    simp only [Sys.settled, Sys.drained, flush]
    refine ⟨rfl, fun drained other left => ?_⟩
    have drained := drained.resolve_left (by simp)
    by_cases same : other = kind
    · rw [same]
      exact Counters.eq_empty_of_keys (length_eq_zero_iff.mp (by omega))
    · exact drained other (by simpa [Flush.rest, same] using left)
  next kind rest flush =>
    constructor
    · simp only [Sys.settled, pending_update, Counters.total_empty, flush, Flush.taken, add_zero]
      rw [show Counters.total (s.stores kind) = pending s.stores kind from rfl,
        update_zero_add_single]
    · intro drained other left
      simp only [Sys.drained, flush] at drained
      have drained := drained.resolve_left (by simp)
      by_cases same : other = kind
      · simp [same]
      · simp only [update_of_ne same]
        exact drained other (by simpa [Flush.rest, same] using left)
  next flush none =>
    simp only [Sys.settled, Sys.drained, flush]
    refine ⟨?_, fun drained => drained.resolve_left (by simp)⟩
    simp [Flush.taken, Counters.eq_empty_of_keys none]
  next flush =>
    obtain ⟨value, found, rfl⟩ := Option.map_eq_some_iff.mp h
    simp only [Sys.settled, Sys.drained, flush]
    refine ⟨?_, fun drained => drained.resolve_left (by simp)⟩
    rw [write_eq, ← add_vadd]
    congr 1
    simp only [Flush.taken]
    rw [add_assoc, one, ← Pi.single_add, Counters.total_erase found]

theorem step_settled {a : Action} (h : step s a = some t) : t.settled = a.direct s.settled := by
  cases a with
  | part p =>
    cases p with
    | addNewRecord kind id value =>
      cases h
      simp only [Action.direct, Part.direct, write_eq, Sys.settled]
      rw [pending_update, Counters.total_add, ← add_vadd]
      congr 1
      rw [show Counters.total (s.stores kind) = pending s.stores kind from rfl, update_add_single,
        add_right_comm, add_comm]
      rfl
    | increase id quota =>
      cases h
      simp only [Action.direct, Part.direct_eq, Sys.settled]
      rw [show increaseUserQuota s.tables id quota = _ from write_eq .userQuota id quota s.tables,
        ← add_vadd, ← add_vadd, add_comm]
      rfl
    | decrease id quota =>
      cases h
      simp only [Action.direct, Part.direct_eq, Sys.settled]
      rw [decreaseUserQuota_eq, write_eq, ← add_vadd, ← add_vadd, add_comm]
      rfl
  | next => exact (quiet_step (show Action.quiet .next from trivial) h).1
  | write key => exact (quiet_step (show (Action.write key).quiet from trivial) h).1

def Flushes (s : Sys) (bs : List Action) (t : Sys) : Prop :=
  Run.Path (fun _ a => a.quiet) step s bs t

theorem completes_cons (next : step s a = some s') (quiet : a.quiet)
    (rest : ∃ bs t, Flushes s' bs t ∧ t.flush = stop) :
    ∃ bs t, Flushes s bs t ∧ t.flush = stop := by
  obtain ⟨bs, t, path, done⟩ := rest
  exact ⟨a :: bs, t, .cons quiet next path, done⟩

theorem apply_completes (n : Nat) : ∀ (s : Sys) (kind : Kind) (store : Store) (rest : List Kind),
    s.flush = .apply kind store rest → store.keys.length = n →
      ∃ bs t, Flushes s bs t ∧ t.flush = .take rest := by
  induction n using Nat.strong_induction_on with
  | _ n ih =>
    intro s kind store rest flush length
    by_cases none : store.keys = []
    · have last : step s .next = some { s with flush := .take rest } := by
        simp only [step, flush, if_pos none]
      exact ⟨[.next], _, .cons trivial last (.nil _), rfl⟩
    · obtain ⟨key, value, found⟩ := Counters.exists_lookup none
      let s' : Sys :=
        ⟨kind.write key value s.tables, s.stores, .apply kind (store.erase key) rest⟩
      have next : step s (.write key) = some s' := by
        simp only [step, flush, found, Option.map_some]
        rfl
      exact completes_cons next trivial
        (ih _ (length ▸ Counters.erase_lt found) s' kind (store.erase key) rest rfl rfl)

theorem take_completes (rest : List Kind) : ∀ s : Sys, s.flush = .take rest →
    ∃ bs t, Flushes s bs t ∧ t.flush = .idle := by
  induction rest with
  | nil =>
    intro s flush
    have last : step s .next = some { s with flush := .idle } := by simp only [step, flush]
    exact ⟨[.next], _, .cons trivial last (.nil _), rfl⟩
  | cons kind rest ih =>
    intro s flush
    let s' : Sys :=
      ⟨s.tables, update s.stores kind ∅, .apply kind (s.stores kind) rest⟩
    have next : step s .next = some s' := by
      simp only [step, flush]
      rfl
    obtain ⟨bs, t, written, taken⟩ := apply_completes _ s' kind (s.stores kind) rest rfl rfl
    obtain ⟨bs', u, path, done⟩ := ih t taken
    exact completes_cons next trivial ⟨bs ++ bs', u, written.append path, done⟩

theorem check_completes (rest : List Kind) : ∀ s : Sys, s.flush = .check rest →
    ∃ bs t, Flushes s bs t ∧ t.flush = .idle := by
  induction rest with
  | nil =>
    intro s flush
    have last : step s .next = some { s with flush := .idle } := by simp only [step, flush]
    exact ⟨[.next], _, .cons trivial last (.nil _), rfl⟩
  | cons kind rest ih =>
    intro s flush
    by_cases data : 0 < (s.stores kind).keys.length
    · have next : step s .next = some { s with flush := .take Kind.all } := by
        simp only [step, flush, if_pos data]
      exact completes_cons next trivial (take_completes Kind.all _ rfl)
    · have next : step s .next = some { s with flush := .check rest } := by
        simp only [step, flush, if_neg data]
      exact completes_cons next trivial (ih _ rfl)

theorem flush_completes {s : Sys} (idle : s.flush = .idle) :
    ∃ bs t, bs ≠ [] ∧ Flushes s bs t ∧ t.flush = .idle := by
  have next : step s .next = some { s with flush := .check Kind.all } := by simp only [step, idle]
  obtain ⟨bs, t, path, done⟩ := check_completes Kind.all { s with flush := .check Kind.all } rfl
  exact ⟨.next :: bs, t, by simp, .cons trivial next path, done⟩

theorem flush_settles {bs : List Action} (idle : s.flush = .idle) (run : bs ≠ [])
    (path : Flushes s bs t) (done : t.flush = .idle) : t.tables = s.settled := by
  cases path with
  | nil => exact absurd rfl run
  | cons quiet first rest =>
    obtain ⟨same, drained⟩ := quiet_step quiet first
    have last := rest.invariant (I := fun u => u.settled = s.settled ∧ u.drained)
      (fun u a v h quiet next => by
        obtain ⟨same, drained⟩ := quiet_step quiet next
        exact ⟨same.trans h.1, drained (.inr h.2)⟩) ⟨same, drained (.inl idle)⟩
    have empty : pending t.stores = 0 := by
      funext kind
      rw [pending, last.2 kind (by simp [done, Flush.rest]), Counters.total_empty]
      rfl
    rw [← last.1, Sys.settled, empty, done]
    show t.tables = (0 + 0 : Amounts) +ᵥ t.tables
    rw [add_zero, zero_vadd]

def Kind.column (kind : Kind) (t : Tables) (id : Int) : Option Int64 :=
  match kind with
  | .userQuota => (t.users id).map (·.quota)
  | .tokenQuota => (t.tokens id).map (·.remainQuota)
  | .usedQuota => (t.users id).map (·.usedQuota)
  | .channelUsedQuota => (t.channels id).map (·.usedQuota)
  | .requestCount => (t.users id).map (·.requestCount)

theorem column_plus (kind : Kind) (m : Amounts) (t : Tables) (id : Int) :
    kind.column (m +ᵥ t) id = (kind.column t id).map (· + m kind id) := by
  show kind.column (t.plus m) id = _
  cases kind <;> simp [Kind.column, Tables.plus, comp_def]

def tokenSum (t : Tables) (id : Int) : Option Int64 :=
  (t.tokens id).map fun k => k.remainQuota + k.usedQuota

theorem tokenSum_plus (m : Amounts) (t : Tables) (id : Int) :
    tokenSum (m +ᵥ t) id = tokenSum t id := by
  show tokenSum (t.plus m) id = _
  simp [tokenSum, Tables.plus, comp_def, add_add_sub_cancel]

theorem tokenSum_direct (l : List Part) (id : Int) : ∀ t : Tables,
    tokenSum (l.foldl Part.direct t) id = tokenSum t id := by
  induction l with
  | nil => intro t; rfl
  | cons p rest ih =>
    intro t
    rw [foldl_cons, ih, Part.direct_eq, tokenSum_plus]

def made (as : List Action) : List Part :=
  as.filterMap fun
    | .part p => some p
    | _ => none

theorem foldl_made (as : List Action) : ∀ t : Tables,
    as.foldl Action.direct t = (made as).foldl Part.direct t := by
  induction as with
  | nil => intro t; rfl
  | cons a rest ih =>
    intro t
    rw [foldl_cons, ih]
    cases a <;> rfl

/-- For every run of batch mode: the parts of whole calls come to those calls in direct mode; every
column and what is outstanding for it come to the column of direct mode; a flush with no calls
between ends, and leaves the tables of direct mode; and the two columns of a token keep their
sum. -/
theorem batch_refines_direct {tables : Tables} {as : List Action} {t : Sys}
    (path : Run.Free step ⟨tables, fun _ => ∅, .idle⟩ as t) :
    let direct := (made as).foldl Part.direct tables
    (∀ calls : List Call, (made as).Perm (calls.flatMap Call.parts) →
      direct = calls.foldl Call.direct tables) ∧
    (∀ (kind : Kind) (id : Int), (kind.column t.tables id).map
      (· + (pending t.stores kind id + t.flush.taken kind id)) = kind.column direct id) ∧
    (t.flush = .idle →
      (∃ bs u, bs ≠ [] ∧ Flushes t bs u ∧ u.flush = .idle) ∧
      ∀ bs u, bs ≠ [] → Flushes t bs u → u.flush = .idle → u.tables = direct) ∧
    ∀ id, tokenSum t.tables id = tokenSum tables id := by
  intro direct
  have start : Sys.settled ⟨tables, fun _ => ∅, .idle⟩ = tables := by
    have none : pending (fun _ => ∅) = 0 := by
      funext kind
      exact Counters.total_empty
    rw [Sys.settled, none]
    show (0 + 0 : Amounts) +ᵥ tables = tables
    rw [add_zero, zero_vadd]
  have settled : t.settled = direct := by
    have run := path.simulate (R := fun s d => s.settled = d) (f := Action.direct)
      (fun s a t d same _ next => by rw [step_settled next, same]) start
    rw [run, foldl_made]
  refine ⟨fun calls perm => ?_, fun kind id => ?_, fun idle => ⟨flush_completes idle, ?_⟩, ?_⟩
  · exact (foldl_direct_perm perm tables).trans (foldl_calls calls tables)
  · rw [← settled, Sys.settled, column_plus]
    rfl
  · intro bs u run path done
    rw [← settled]
    exact flush_settles idle run path done
  · intro id
    rw [← tokenSum_direct (made as) id tables, ← tokenSum_plus (pending t.stores + t.flush.taken)]
    exact congrArg (tokenSum · id) settled

def oneUser : Tables where
  users id := if id = 7 then some ⟨100, 0, 0⟩ else none
  tokens _ := none
  channels _ := none

/-- A debit of 30 is taken by a flush, and a credit of 5 is recorded before the flush writes it; the
next flush leaves 75. -/
theorem batch_refines_direct_late_credit :
    ∃ t, Run.Free step ⟨oneUser, fun _ => ∅, .idle⟩
        [.part (.addNewRecord .userQuota 7 (-30)), .next, .next, .next,
          .part (.addNewRecord .userQuota 7 5), .write 7, .next, .next, .next, .next, .next, .next,
          .next, .next, .next, .next] t ∧
      Kind.userQuota.column t.tables 7 = some 70 ∧
      ∃ bs u, Flushes t bs u ∧ u.flush = .idle ∧ Kind.userQuota.column u.tables 7 = some 75 := by
  obtain ⟨t, path, idle, column⟩ : ∃ t, Run.Free step ⟨oneUser, fun _ => ∅, .idle⟩
      [.part (.addNewRecord .userQuota 7 (-30)), .next, .next, .next,
        .part (.addNewRecord .userQuota 7 5), .write 7, .next, .next, .next, .next, .next, .next,
        .next, .next, .next, .next] t ∧ t.flush = .idle ∧
      Kind.userQuota.column t.tables 7 = some 70 := by
    refine ⟨_, .of_exec (p := fun _ => True) rfl fun _ _ => trivial, rfl, ?_⟩
    decide +kernel
  obtain ⟨-, -, flush, -⟩ := batch_refines_direct path
  obtain ⟨⟨bs, u, run, quiet, done⟩, tables⟩ := flush idle
  refine ⟨t, path, column, bs, u, quiet, done, ?_⟩
  rw [tables bs u run quiet done]
  decide +kernel

end EastApi.Account.Batch
