import EastApi.Lib.Reserve
import EastApi.Lib.Run

/-! The lock on a trade number (`LockOrder` and `UnlockOrder`): a map from trade numbers to mutexes
with a count of the goroutines that use each of them.  Any number of goroutines lock and unlock
trade numbers, one atomic step at a time. -/

namespace EastApi.Payment.OrderLock

open Run Function Option

variable {ω : Type}

/-- A mutex is `none` while it is free.  No step reads by whom it is locked. -/
structure RefCountedMutex (ω : Type) where
  mu : Option ω := none
  refCount : Int := 0

/-- What the goroutines share.  A `*refCountedMutex` is the number of its cell, and `next` is the
first cell that has not been allocated.  `fatal` stands for the end of the process, when a mutex is
unlocked that is not locked. -/
structure Shared (ω : Type) where
  orderLocks : String → Option ℕ := fun _ => none
  cells : ℕ → RefCountedMutex ω := fun _ => {}
  next : ℕ := 0
  createLock : Option ω := none
  fatal : Bool := false

def Shared.setMu (s : Shared ω) (rcm : ℕ) (mu : Option ω) : Shared ω :=
  { s with cells := update s.cells rcm { s.cells rcm with mu := mu } }

def Shared.setRefCount (s : Shared ω) (rcm : ℕ) (n : Int) : Shared ω :=
  { s with cells := update s.cells rcm { s.cells rcm with refCount := n } }

/-- The next step of a goroutine.  From `holding` on the cell is the one that `LockOrder` has
locked, which `UnlockOrder` does not know: it loads the cell again. -/
inductive Place
  /-- Outside of both functions. -/
  | idle
  /-- `createLock.Lock()` of `LockOrder`. -/
  | entering (tradeNo : String)
  /-- `orderLocks.Load(tradeNo)`. -/
  | loading (tradeNo : String)
  /-- `orderLocks.Store(tradeNo, &refCountedMutex{})`. -/
  | storing (tradeNo : String)
  /-- The load of `rcm.refCount++`. -/
  | found (tradeNo : String) (rcm : ℕ)
  /-- The store of `rcm.refCount++`. -/
  | counting (tradeNo : String) (rcm : ℕ) (refCount : Int)
  /-- `createLock.Unlock()` of `LockOrder`. -/
  | counted (tradeNo : String) (rcm : ℕ)
  /-- `rcm.mu.Lock()`. -/
  | waiting (tradeNo : String) (rcm : ℕ)
  /-- Between `LockOrder` and `UnlockOrder`. -/
  | holding (tradeNo : String) (rcm : ℕ)
  /-- `orderLocks.Load(tradeNo)` of `UnlockOrder`. -/
  | reloading (tradeNo : String) (rcm : ℕ)
  /-- `rcm.mu.Unlock()`. -/
  | unlocking (tradeNo : String) (rcm : ℕ)
  /-- `createLock.Lock()` of `UnlockOrder`. -/
  | unlocked (tradeNo : String) (rcm : ℕ)
  /-- The load of `rcm.refCount--`. -/
  | reentered (tradeNo : String) (rcm : ℕ)
  /-- The store of `rcm.refCount--`. -/
  | uncounting (tradeNo : String) (rcm : ℕ) (refCount : Int)
  /-- `rcm.refCount == 0`. -/
  | uncounted (tradeNo : String) (rcm : ℕ)
  /-- `orderLocks.Delete(tradeNo)`. -/
  | deleting (tradeNo : String) (rcm : ℕ)
  /-- `createLock.Unlock()` of `UnlockOrder`. -/
  | leaving
deriving DecidableEq

def advance (w : ω) (s : Shared ω) : Place → Option (Shared ω × Place)
  | .idle => none
  | .entering t =>
    if s.createLock.isSome then none else some ({ s with createLock := some w }, .loading t)
  | .loading t =>
    match s.orderLocks t with
    | some rcm => some (s, .found t rcm)
    | none => some (s, .storing t)
  | .storing t =>
    some ({ s with
      orderLocks := update s.orderLocks t (some s.next)
      cells := update s.cells s.next {}
      next := s.next + 1 }, .found t s.next)
  | .found t rcm => some (s, .counting t rcm (s.cells rcm).refCount)
  | .counting t rcm n => some (s.setRefCount rcm (n + 1), .counted t rcm)
  | .counted t rcm => some ({ s with createLock := none }, .waiting t rcm)
  | .waiting t rcm =>
    if (s.cells rcm).mu.isSome then none else some (s.setMu rcm (some w), .holding t rcm)
  | .holding t rcm => some (s, .reloading t rcm)
  | .reloading t _ =>
    match s.orderLocks t with
    | none => some (s, .idle)
    | some rcm => some (s, .unlocking t rcm)
  | .unlocking t rcm =>
    if (s.cells rcm).mu.isSome then some (s.setMu rcm none, .unlocked t rcm)
    else some ({ s with fatal := true }, .unlocking t rcm)
  | .unlocked t rcm =>
    if s.createLock.isSome then none else some ({ s with createLock := some w }, .reentered t rcm)
  | .reentered t rcm => some (s, .uncounting t rcm (s.cells rcm).refCount)
  | .uncounting t rcm n => some (s.setRefCount rcm (n - 1), .uncounted t rcm)
  | .uncounted t rcm =>
    if (s.cells rcm).refCount = 0 then some (s, .deleting t rcm) else some (s, .leaving)
  | .deleting t _ => some ({ s with orderLocks := update s.orderLocks t none }, .leaving)
  | .leaving => some ({ s with createLock := none }, .idle)

structure Sys (ω : Type) where
  shared : Shared ω := {}
  place : ω → Place := fun _ => .idle

inductive Action (ω : Type)
  | lockOrder (w : ω) (tradeNo : String)
  | next (w : ω)

def Sys.step [DecidableEq ω] (s : Sys ω) : Action ω → Option (Sys ω)
  | .lockOrder w t =>
    if s.shared.fatal = false ∧ s.place w = .idle then
      some { s with place := update s.place w (.entering t) }
    else none
  | .next w =>
    if s.shared.fatal then none
    else (advance w s.shared (s.place w)).map fun (shared, p) =>
      ⟨shared, update s.place w p⟩

namespace Place

/-- The trade number and the cell that a goroutine uses, from the time it has found or stored the
cell until it has decided about its deletion. -/
def uses : Place → Option (String × ℕ)
  | .found t rcm | .counting t rcm _ | .counted t rcm | .waiting t rcm | .holding t rcm
  | .reloading t rcm | .unlocking t rcm | .unlocked t rcm | .reentered t rcm
  | .uncounting t rcm _ | .uncounted t rcm | .deleting t rcm => some (t, rcm)
  | _ => none

def isCounted : Place → Bool
  | .counted .. | .waiting .. | .holding .. | .reloading .. | .unlocking .. | .unlocked ..
  | .reentered .. | .uncounting .. => true
  | _ => false

def hasMu : Place → Bool
  | .holding .. | .reloading .. | .unlocking .. => true
  | _ => false

def hasCreateLock : Place → Bool
  | .loading _ | .storing _ | .found .. | .counting .. | .counted .. | .reentered ..
  | .uncounting .. | .uncounted .. | .deleting .. | .leaving => true
  | _ => false

def Reads (s : Shared ω) : Place → Prop
  | .storing t => s.orderLocks t = none
  | .counting _ rcm n | .uncounting _ rcm n => (s.cells rcm).refCount = n
  | .deleting _ rcm => (s.cells rcm).refCount = 0
  | _ => True

def countsFor (t : String) (rcm : ℕ) (p : Place) : Int :=
  if p.isCounted ∧ p.uses = some (t, rcm) then 1 else 0

theorem countsFor_nonneg (p : Place) (t : String) (rcm : ℕ) : 0 ≤ p.countsFor t rcm := by
  unfold countsFor
  split <;> decide

variable {p : Place}

theorem reads_of_not_hasCreateLock (h : p.hasCreateLock = false) (s : Shared ω) :
    p.Reads s := by
  cases p <;> trivial

theorem Reads.congr {s s' : Shared ω} (reads : p.Reads s) (map : s'.orderLocks = s.orderLocks)
    (count : ∀ rcm, (s'.cells rcm).refCount = (s.cells rcm).refCount) : p.Reads s' := by
  cases p with
  | storing t => exact (congrFun map t).trans reads
  | counting _ rcm _ | uncounting _ rcm _ | deleting _ rcm => exact (count rcm).trans reads
  | _ => trivial

theorem isCounted_or_hasCreateLock (uses : p.uses = some x) :
    p.isCounted = true ∨ p.hasCreateLock = true := by
  cases p <;> first | exact .inl rfl | exact .inr rfl | cases uses

end Place

structure Sound (s : Shared ω) (w : ω) (p : Place) : Prop where
  create : s.createLock = some w ↔ p.hasCreateLock = true
  mapped : ∀ t rcm, p.uses = some (t, rcm) → s.orderLocks t = some rcm
  locked : ∀ t rcm, s.orderLocks t = some rcm →
    ((s.cells rcm).mu = some w ↔ p.hasMu = true ∧ p.uses = some (t, rcm))
  reads : p.Reads s

structure Inv [Fintype ω] (s : Shared ω) (place : ω → Place) : Prop where
  running : s.fatal = false
  sound : ∀ w, Sound s w (place w)
  used : ∀ t rcm, s.orderLocks t = some rcm → ∃ w, (place w).uses = some (t, rcm)
  allocated : ∀ t rcm, s.orderLocks t = some rcm → rcm < s.next
  apart : ∀ t t' rcm, s.orderLocks t = some rcm → s.orderLocks t' = some rcm → t = t'
  count : ∀ t rcm, s.orderLocks t = some rcm →
    (s.cells rcm).refCount = Reserve.total (fun _ => Place.countsFor t rcm) place

section
theorem Sound.without (sound : Sound s v q) (lock : s.createLock ≠ some v) :
    q.hasCreateLock = false := by
  rwa [← Bool.not_eq_true, ← sound.create]

variable {lock : Option ω}

theorem some_ne (other : v ≠ w) (holder : lock = none ∨ lock = some w) :
    lock ≠ some v := by
  rcases holder with rfl | rfl
  · nofun
  · exact fun same => other (some.inj same).symm

variable [DecidableEq ω] [Fintype ω] {s' : Shared ω} {place : ω → Place}

theorem Inv.update (inv : Inv s place) (running : s'.fatal = false)
    (map : s'.orderLocks = s.orderLocks) (next : s'.next = s.next) (own : Sound s' w p)
    (others : ∀ v, v ≠ w → Sound s' v (place v))
    (used : ∀ x, (place w).uses = some x → p.uses = some x ∨
      ∃ v, v ≠ w ∧ (place v).uses = some x)
    (count : ∀ t rcm, s.orderLocks t = some rcm → (s'.cells rcm).refCount +
      (place w).countsFor t rcm = (s.cells rcm).refCount + p.countsFor t rcm) :
    Inv s' (update place w p) where
  running := running
  sound := forall_update_iff place (fun v => Sound s' v) |>.mpr ⟨own, others⟩
  used t rcm entry := by
    rw [map] at entry
    obtain ⟨v, uses⟩ := inv.used t rcm entry
    by_cases self : v = w
    · subst self
      rcases used _ uses with kept | ⟨u, ne, uses⟩
      · exact ⟨v, by rwa [update_self]⟩
      · exact ⟨u, by rwa [update_of_ne ne]⟩
    · exact ⟨v, by rwa [update_of_ne self]⟩
  allocated t rcm := by
    rw [map, next]
    exact inv.allocated t rcm
  apart t t' rcm := by
    rw [map]
    exact inv.apart t t' rcm
  count t rcm entry := by
    rw [map] at entry
    have sum := Reserve.total_update (fun _ => Place.countsFor t rcm) place w p
    have before := inv.count t rcm entry
    have change := count t rcm entry
    omega

/-- A step that changes neither what `w` uses nor what it has of it. -/
structure Place.Alike (p q : Place) : Prop where
  uses : p.uses = q.uses
  isCounted : p.isCounted = q.isCounted
  hasMu : p.hasMu = q.hasMu

theorem Place.Alike.countsFor (alike : Place.Alike p q) (t : String) (rcm : ℕ) :
    p.countsFor t rcm = q.countsFor t rcm := by
  rw [Place.countsFor, Place.countsFor, alike.uses, alike.isCounted]

theorem Inv.walk (inv : Inv s place) (here : place w = q) (alike : Place.Alike p q)
    (others : ∀ v, v ≠ w → (lock = some v ↔ s.createLock = some v))
    (create : lock = some w ↔ p.hasCreateLock = true) (reads : p.Reads s) :
    Inv { s with createLock := lock } (Function.update place w p) := by
  subst here
  have sound := inv.sound w
  refine inv.update inv.running rfl rfl ⟨create, ?_, ?_, reads⟩ (fun v ne => ?_) ?_ ?_
  · rw [alike.uses]
    exact sound.mapped
  · rw [alike.uses, alike.hasMu]
    exact sound.locked
  · have other := inv.sound v
    exact ⟨(others v ne).trans other.create, other.mapped, other.locked, other.reads⟩
  · intro x uses
    rw [alike.uses]
    exact .inl uses
  · intro t rcm _
    rw [alike.countsFor]

variable {t : String} {rcm : ℕ}

theorem Inv.recount (inv : Inv s place) (here : place w = q) (uses : q.uses = some (t, rcm))
    (uses' : p.uses = some (t, rcm)) (create : q.hasCreateLock = true)
    (create' : p.hasCreateLock = true) (mu : p.hasMu = q.hasMu)
    (change : n + q.countsFor t rcm = (s.cells rcm).refCount + p.countsFor t rcm)
    (reads : p.Reads (s.setRefCount rcm n)) :
    Inv (s.setRefCount rcm n) (Function.update place w p) := by
  subst here
  have sound := inv.sound w
  have entry := sound.mapped t rcm uses
  have lock : s.createLock = some w := sound.create.mpr create
  have same : ∀ r, ((s.setRefCount rcm n).cells r).mu = (s.cells r).mu := by
    intro r
    by_cases own : r = rcm
    · simp [Shared.setRefCount, own]
    · simp [Shared.setRefCount, update_of_ne own]
  refine inv.update inv.running rfl rfl ⟨iff_of_true lock create', ?_, ?_, reads⟩
    (fun v ne => ?_) ?_ ?_
  · rw [uses', ← uses]
    exact sound.mapped
  · intro t' r entry'
    rw [same, uses', ← uses, mu]
    exact sound.locked t' r entry'
  · -- a goroutine without `createLock` does not notice the count
    have other := inv.sound v
    refine ⟨other.create, other.mapped, fun t' r entry' => ?_,
      Place.reads_of_not_hasCreateLock (other.without (some_ne ne (.inr lock))) _⟩
    rw [same]
    exact other.locked t' r entry'
  · intro x there
    rw [uses', ← uses]
    exact .inl there
  · intro t' r entry'
    by_cases own : r = rcm
    · subst own
      obtain rfl := inv.apart t t' r entry entry'
      simpa [Shared.setRefCount] using change
    · have other : (t, rcm) ≠ (t', r) := fun same => own (Prod.mk.inj same).2.symm
      simp [Shared.setRefCount, update_of_ne own, Place.countsFor, uses, uses', other]

theorem Inv.setMu (inv : Inv s place) (here : place w = q) {mu : Option ω}
    (uses : q.uses = some (t, rcm)) (uses' : p.uses = some (t, rcm))
    (create : p.hasCreateLock = q.hasCreateLock) (count : p.isCounted = q.isCounted)
    (before : (s.cells rcm).mu = none ∨ (s.cells rcm).mu = some w) (after : mu = none ∨ mu = some w)
    (hasMu : mu = some w ↔ p.hasMu = true) (reads : ∀ s' : Shared ω, p.Reads s') :
    Inv (s.setMu rcm mu) (Function.update place w p) := by
  subst here
  have sound := inv.sound w
  have entry := sound.mapped t rcm uses
  have count' : ∀ r, ((s.setMu rcm mu).cells r).refCount = (s.cells r).refCount := by
    intro r
    by_cases own : r = rcm
    · simp [Shared.setMu, own]
    · simp [Shared.setMu, update_of_ne own]
  -- the cell of `w` has no other owner, and the other cells are not touched
  have mutex : ∀ r t', s.orderLocks t' = some r → r = rcm ∧ t' = t ∧
      ((s.setMu rcm mu).cells r).mu = mu ∨
      r ≠ rcm ∧ ((s.setMu rcm mu).cells r).mu = (s.cells r).mu := by
    intro r t' entry'
    by_cases own : r = rcm
    · subst own
      exact .inl ⟨rfl, inv.apart t' t r entry' entry, by simp [Shared.setMu]⟩
    · exact .inr ⟨own, by simp [Shared.setMu, update_of_ne own]⟩
  refine inv.update inv.running rfl rfl ⟨?_, ?_, ?_, reads _⟩ (fun v ne => ?_) ?_ ?_
  · rw [create]
    exact sound.create
  · rw [uses', ← uses]
    exact sound.mapped
  · intro t' r entry'
    rcases mutex r t' entry' with ⟨rfl, rfl, now⟩ | ⟨own, now⟩
    · rw [now, hasMu, uses']
      simp
    · rw [now, sound.locked t' r entry', uses, uses']
      simp [Ne.symm own]
  · have other := inv.sound v
    refine ⟨other.create, other.mapped, ?_, ?_⟩
    · intro t' r entry'
      rcases mutex r t' entry' with ⟨rfl, rfl, now⟩ | ⟨own, now⟩
      · rw [now, ← other.locked t' r entry']
        exact iff_of_false (some_ne ne after) (some_ne ne before)
      · rw [now]
        exact other.locked t' r entry'
    · exact other.reads.congr rfl count'
  · intro x there
    rw [uses', ← uses]
    exact .inl there
  · intro t' r _
    rw [count', Place.countsFor, Place.countsFor, uses', ← uses, count]

theorem total_uncounted (before : (place w).countsFor t rcm = 0) (after : p.countsFor t rcm = 0) :
    Reserve.total (fun _ => Place.countsFor t rcm) (update place w p) =
      Reserve.total (fun _ => Place.countsFor t rcm) place := by
  have sum := Reserve.total_update (fun _ => Place.countsFor t rcm) place w p
  rwa [before, after, Int.add_zero, Int.add_zero] at sum

theorem Inv.store (inv : Inv s place) (here : place w = .storing t) :
    Inv { s with
      orderLocks := Function.update s.orderLocks t (some s.next)
      cells := Function.update s.cells s.next {}
      next := s.next + 1 } (Function.update place w (.found t s.next)) := by
  have sound := inv.sound w
  rw [here] at sound
  have free : s.orderLocks t = none := sound.reads
  have lock : s.createLock = some w := sound.create.mpr rfl
  -- an entry is the new one, or one from before with a cell of its own
  have entries : ∀ t' rcm, Function.update s.orderLocks t (some s.next) t' = some rcm →
      t' = t ∧ rcm = s.next ∨ t' ≠ t ∧ s.orderLocks t' = some rcm ∧ rcm ≠ s.next := by
    intro t' rcm entry
    by_cases own : t' = t
    · subst own
      rw [update_self] at entry
      exact .inl ⟨rfl, (some.inj entry).symm⟩
    · rw [update_of_ne own] at entry
      exact .inr ⟨own, entry, (inv.allocated t' rcm entry).ne⟩
  have others : ∀ v x, (place v).uses = some x → x.1 ≠ t ∧ x.2 ≠ s.next := by
    rintro v ⟨t', rcm⟩ uses
    have entry := (inv.sound v).mapped t' rcm uses
    refine ⟨?_, (inv.allocated t' rcm entry).ne⟩
    rintro rfl
    rw [free] at entry
    cases entry
  have unused : ∀ v t', (place v).uses ≠ some (t', s.next) :=
    fun v t' uses => (others v _ uses).2 rfl
  constructor
  · exact inv.running
  · refine forall_update_iff place (fun v => Sound _ v) |>.mpr ⟨⟨?_, ?_, ?_, trivial⟩, ?_⟩
    · exact iff_of_true lock rfl
    · intro t' rcm uses
      cases uses
      exact update_self ..
    · intro t' rcm entry
      rcases entries t' rcm entry with ⟨rfl, rfl⟩ | ⟨_, entry, other⟩
      · simp [Place.hasMu]
      · have before := sound.locked t' rcm entry
        simpa [update_of_ne other, Place.hasMu] using before
    · intro v ne
      have sound := inv.sound v
      refine ⟨sound.create, ?_, ?_, ?_⟩
      · intro t' rcm uses
        exact (update_of_ne (others v _ uses).1 ..).trans (sound.mapped t' rcm uses)
      · intro t' rcm entry
        rcases entries t' rcm entry with ⟨rfl, rfl⟩ | ⟨_, entry, other⟩
        · simp [unused v]
        · simpa [update_of_ne other] using sound.locked t' rcm entry
      · exact Place.reads_of_not_hasCreateLock (sound.without (some_ne ne (.inr lock))) _
  · intro t' rcm entry
    rcases entries t' rcm entry with ⟨rfl, rfl⟩ | ⟨_, entry, _⟩
    · exact ⟨w, by rw [update_self]; rfl⟩
    · obtain ⟨v, uses⟩ := inv.used t' rcm entry
      refine ⟨v, ?_⟩
      rwa [update_of_ne]
      rintro rfl
      rw [here] at uses
      cases uses
  · intro t' rcm entry
    rcases entries t' rcm entry with ⟨_, rfl⟩ | ⟨_, entry, _⟩
    · exact Nat.lt_succ_self _
    · exact Nat.lt_succ_of_lt (inv.allocated t' rcm entry)
  · intro t' t'' rcm entry entry'
    rcases entries t' rcm entry with ⟨rfl, rfl⟩ | ⟨_, entry, other⟩
    · rcases entries t'' _ entry' with ⟨rfl, _⟩ | ⟨_, _, other⟩
      · rfl
      · exact absurd rfl other
    · rcases entries t'' rcm entry' with ⟨_, rfl⟩ | ⟨_, entry', _⟩
      · exact absurd rfl other
      · exact inv.apart t' t'' rcm entry entry'
  · intro t' rcm entry
    rw [total_uncounted (by rw [here]; rfl) rfl]
    rcases entries t' rcm entry with ⟨rfl, rfl⟩ | ⟨_, entry, other⟩
    · have none : Reserve.total (fun _ => Place.countsFor t' s.next) place = 0 := by
        refine Finset.sum_eq_zero fun v _ => ?_
        simp [Place.countsFor, unused v]
      simp [none]
    · simpa [update_of_ne other] using inv.count t' rcm entry

theorem Inv.delete (inv : Inv s place) (here : place w = .deleting t rcm) :
    Inv { s with orderLocks := Function.update s.orderLocks t none }
      (Function.update place w .leaving) := by
  have sound := inv.sound w
  rw [here] at sound
  have zero : (s.cells rcm).refCount = 0 := sound.reads
  have lock : s.createLock = some w := sound.create.mpr rfl
  have entry := sound.mapped t rcm rfl
  have unused : ∀ v, v ≠ w → (place v).uses ≠ some (t, rcm) := by
    intro v ne uses
    rcases Place.isCounted_or_hasCreateLock uses with counted | has
    · have one : (place v).countsFor t rcm = 1 := if_pos ⟨counted, uses⟩
      have sum := inv.count t rcm entry
      have part := Finset.single_le_sum (f := fun v => (place v).countsFor t rcm)
        (fun v _ => Place.countsFor_nonneg (place v) t rcm) (Finset.mem_univ v)
      rw [zero] at sum
      rw [one, ← Reserve.total, ← sum] at part
      omega
    · have same := lock.symm.trans ((inv.sound v).create.mpr has)
      exact ne (some.inj same).symm
  have entries : ∀ t' rcm', Function.update s.orderLocks t none t' = some rcm' →
      t' ≠ t ∧ s.orderLocks t' = some rcm' := by
    intro t' rcm' entry
    by_cases own : t' = t
    · rw [own, update_self] at entry
      cases entry
    · rw [update_of_ne own] at entry
      exact ⟨own, entry⟩
  constructor
  · exact inv.running
  · refine forall_update_iff place (fun v => Sound _ v) |>.mpr
      ⟨⟨iff_of_true lock rfl, nofun, ?_, trivial⟩, ?_⟩
    · intro t' rcm' entry'
      have before := sound.locked t' rcm' (entries t' rcm' entry').2
      simpa [Place.hasMu] using before
    · intro v ne
      have sound := inv.sound v
      refine ⟨sound.create, ?_, ?_, ?_⟩
      · intro t' rcm' uses
        have entry' := sound.mapped t' rcm' uses
        refine (update_of_ne ?_ ..).trans entry'
        rintro rfl
        obtain rfl := some.inj (entry.symm.trans entry')
        exact unused v ne uses
      · intro t' rcm' entry'
        exact sound.locked t' rcm' (entries t' rcm' entry').2
      · exact Place.reads_of_not_hasCreateLock (sound.without (some_ne ne (.inr lock))) _
  · intro t' rcm' entry'
    obtain ⟨other, entry'⟩ := entries t' rcm' entry'
    obtain ⟨v, uses⟩ := inv.used t' rcm' entry'
    refine ⟨v, ?_⟩
    rwa [update_of_ne]
    rintro rfl
    rw [here] at uses
    exact other (Prod.mk.inj (some.inj uses)).1.symm
  · exact fun t' rcm' entry' => inv.allocated t' rcm' (entries t' rcm' entry').2
  · exact fun t' t'' rcm' entry' entry'' =>
      inv.apart t' t'' rcm' (entries t' rcm' entry').2 (entries t'' rcm' entry'').2
  · intro t' rcm' entry'
    rw [total_uncounted (by rw [here]; rfl) rfl]
    exact inv.count t' rcm' (entries t' rcm' entry').2

theorem advance_inv (inv : Inv s place) (h : advance w s (place w) = some (s', p)) :
    Inv s' (Function.update place w p) := by
  have sound := inv.sound w
  generalize here : place w = q at h sound
  cases q with
  | idle => cases h
  | entering _ | unlocked _ _ =>
    simp only [advance] at h
    split at h
    · cases h
    next free =>
      cases h
      have unlocked : s.createLock = none := by simpa using free
      refine inv.walk here ⟨rfl, rfl, rfl⟩ (fun v ne => ?_) (iff_of_true rfl rfl) trivial
      simp [unlocked, ne.symm]
  | loading t =>
    simp only [advance] at h
    split at h
    next rcm entry =>
      cases h
      refine inv.update inv.running rfl rfl ⟨sound.create, ?_, ?_, trivial⟩
        (fun v _ => inv.sound v) ?_ ?_
      · intro t' rcm' uses
        cases uses
        exact entry
      · intro t' rcm' entry'
        rw [sound.locked t' rcm' entry']
        simp [Place.hasMu]
      · rw [here]
        nofun
      · rw [here]
        exact fun _ _ _ => rfl
    next free =>
      cases h
      exact inv.walk here ⟨rfl, rfl, rfl⟩ (fun _ _ => .rfl) sound.create free
  | storing t =>
    cases h
    exact inv.store here
  | found _ _ | reentered _ _ =>
    cases h
    exact inv.walk here ⟨rfl, rfl, rfl⟩ (fun _ _ => .rfl) sound.create rfl
  | counting t rcm n | uncounting t rcm n =>
    cases h
    have read : (s.cells rcm).refCount = n := sound.reads
    refine inv.recount here (t := t) rfl rfl rfl rfl rfl ?_ trivial
    simp [read, Place.countsFor, Place.isCounted, Place.uses]
  | counted _ _ | leaving =>
    cases h
    refine inv.walk here ⟨rfl, rfl, rfl⟩ (fun v ne => ?_) (iff_of_false nofun nofun) trivial
    simp [sound.create.mpr rfl, ne.symm]
  | waiting t rcm =>
    simp only [advance] at h
    split at h
    · cases h
    next free =>
      cases h
      exact inv.setMu here (t := t) rfl rfl rfl rfl (.inl (by simpa using free)) (.inr rfl)
        (iff_of_true rfl rfl) fun _ => trivial
  | holding _ _ =>
    cases h
    exact inv.walk here ⟨rfl, rfl, rfl⟩ (fun _ _ => .rfl) sound.create trivial
  | reloading t rcm =>
    simp only [advance, sound.mapped t rcm rfl] at h
    cases h
    exact inv.walk here ⟨rfl, rfl, rfl⟩ (fun _ _ => .rfl) sound.create trivial
  | unlocking t rcm =>
    have own : (s.cells rcm).mu = some w :=
      (sound.locked t rcm (sound.mapped t rcm rfl)).mpr ⟨rfl, rfl⟩
    simp only [advance, own, isSome_some, if_true] at h
    cases h
    exact inv.setMu here (t := t) rfl rfl rfl rfl (.inr own) (.inl rfl)
      (iff_of_false nofun nofun) fun _ => trivial
  | uncounted t rcm =>
    simp only [advance] at h
    split at h
    next zero =>
      cases h
      exact inv.walk here ⟨rfl, rfl, rfl⟩ (fun _ _ => .rfl) sound.create zero
    next nonzero =>
      cases h
      refine inv.update inv.running rfl rfl ⟨sound.create, nofun, ?_, trivial⟩
        (fun v _ => inv.sound v) ?_ ?_
      · intro t' rcm' entry'
        rw [sound.locked t' rcm' entry']
        simp [Place.hasMu]
      · -- the goroutines that are left in the count use the cell
        rw [here]
        intro x uses
        obtain rfl : (t, rcm) = x := some.inj uses
        rw [inv.count t rcm (sound.mapped t rcm rfl)] at nonzero
        obtain ⟨v, _, counts⟩ := Finset.exists_ne_zero_of_sum_ne_zero nonzero
        have counted : (place v).isCounted = true ∧ (place v).uses = some (t, rcm) := by
          by_contra other
          exact counts (if_neg other)
        refine .inr ⟨v, ?_, counted.2⟩
        rintro rfl
        rw [here] at counted
        cases counted.1
      · rw [here]
        exact fun _ _ _ => rfl
  | deleting t rcm =>
    cases h
    exact inv.delete here

end

def Place.Holds (tradeNo : String) : Place → Prop
  | .holding t _ | .reloading t _ | .unlocking t _ => t = tradeNo
  | _ => False

/-- The goroutine is in `LockOrder` of the trade number, with the cell that it will wait for. -/
def Place.Waits (tradeNo : String) : Place → Prop
  | .found t _ | .counting t _ _ | .counted t _ | .waiting t _ => t = tradeNo
  | _ => False

variable {p : Place}

theorem Place.Holds.uses (holds : p.Holds tradeNo) :
    p.hasMu = true ∧ ∃ rcm, p.uses = some (tradeNo, rcm) := by
  cases p <;> first | exact holds.elim | exact ⟨rfl, _, by rw [← show _ = tradeNo from holds]; rfl⟩

theorem Place.Waits.uses (waits : p.Waits tradeNo) : ∃ rcm, p.uses = some (tradeNo, rcm) := by
  cases p <;> first | exact waits.elim | exact ⟨_, by rw [← show _ = tradeNo from waits]; rfl⟩

theorem advance_map (h : advance w s p = some (s', q)) :
    s'.orderLocks = s.orderLocks ∨
      (∃ t, p = .storing t ∧ s'.orderLocks = update s.orderLocks t (some s.next)) ∨
      ∃ t rcm, p = .deleting t rcm ∧ s'.orderLocks = update s.orderLocks t none := by
  cases p with
  | storing t =>
    cases h
    exact .inr (.inl ⟨t, rfl, rfl⟩)
  | deleting t rcm =>
    cases h
    exact .inr (.inr ⟨t, rcm, rfl, rfl⟩)
  | idle => cases h
  | _ =>
    left
    simp only [advance] at h
    first
    | cases h; rfl
    | split at h <;> cases h <;> rfl

theorem advance_owner (x : Shared ω) (owns : p.hasCreateLock = true ∨ p.hasMu = true) :
    (advance v x p).isSome = true := by
  cases p with
  | idle | entering _ | waiting _ _ | unlocked _ _ =>
    simp [Place.hasCreateLock, Place.hasMu] at owns
  | loading _ | uncounted _ _ | reloading _ _ | unlocking _ _ =>
    simp only [advance]
    split <;> rfl
  | storing _ | found _ _ | counting _ _ _ | counted _ _ | reentered _ _ | uncounting _ _ _
  | deleting _ _ | leaving | holding _ _ => rfl

section
variable [Fintype ω] {s t : Sys ω}

theorem inv_start : Inv ({} : Sys ω).shared ({} : Sys ω).place where
  running := rfl
  sound _ := ⟨iff_of_false nofun nofun, nofun, nofun, trivial⟩
  used := nofun
  allocated := nofun
  apart := nofun
  count := nofun

theorem Inv.exclusive (inv : Inv s.shared s.place) (holds : (s.place w).Holds tradeNo)
    (holds' : (s.place v).Holds tradeNo) : w = v := by
  obtain ⟨has, rcm, uses⟩ := holds.uses
  obtain ⟨has', rcm', uses'⟩ := holds'.uses
  have entry := (inv.sound w).mapped _ _ uses
  obtain rfl : rcm = rcm' :=
    some.inj (entry.symm.trans ((inv.sound v).mapped _ _ uses'))
  have own := ((inv.sound w).locked _ _ entry).mpr ⟨has, uses⟩
  have own' := ((inv.sound v).locked _ _ entry).mpr ⟨has', uses'⟩
  exact some.inj (own.symm.trans own')

variable [DecidableEq ω]

theorem step_inv (inv : Inv s.shared s.place) (h : s.step a = some t) : Inv t.shared t.place := by
  cases a with
  | lockOrder w tradeNo =>
    simp only [Sys.step] at h
    split at h
    next ready =>
      cases h
      have sound := inv.sound w
      rw [ready.2] at sound
      exact inv.walk ready.2 ⟨rfl, rfl, rfl⟩ (fun _ _ => .rfl) sound.create trivial
    · cases h
  | next w =>
    simp only [Sys.step] at h
    split at h
    · cases h
    · obtain ⟨⟨shared, p⟩, moved, rfl⟩ := map_eq_some_iff.mp h
      exact advance_inv inv moved

theorem reached_inv (run : exec Sys.step {} actions = some s) : Inv s.shared s.place :=
  (Path.of_exec (p := fun _ => True) run fun _ _ => trivial).invariant
    (I := fun s => Inv s.shared s.place) (fun _ _ _ inv _ h => step_inv inv h) inv_start

theorem Inv.entry_removed (inv : Inv s.shared s.place) (h : s.step a = some t)
    (entry : s.shared.orderLocks tradeNo = some rcm)
    (removed : t.shared.orderLocks tradeNo ≠ some rcm) :
    t.shared.orderLocks tradeNo = none ∧ ∀ w rcm', (t.place w).uses ≠ some (tradeNo, rcm') := by
  have none : t.shared.orderLocks tradeNo = none := by
    cases a with
    | lockOrder w tradeNo' =>
      simp only [Sys.step] at h
      split at h
      · cases h
        exact absurd entry removed
      · cases h
    | next w =>
      simp only [Sys.step] at h
      split at h
      · cases h
      · obtain ⟨⟨shared, p⟩, moved, rfl⟩ := map_eq_some_iff.mp h
        rcases advance_map moved with same | ⟨t', here, stored⟩ | ⟨t', rcm', here, deleted⟩
        · exact absurd ((congrFun same _).trans entry) removed
        · -- a cell is stored for a trade number without an entry
          have free := (inv.sound w).reads
          rw [here] at free
          have other : tradeNo ≠ t' := by
            rintro rfl
            rw [show s.shared.orderLocks tradeNo = none from free] at entry
            cases entry
          rw [stored, update_of_ne other] at removed
          exact absurd entry removed
        · by_cases own : tradeNo = t'
          · rw [deleted, own, update_self]
          · rw [deleted, update_of_ne own] at removed
            exact absurd entry removed
  refine ⟨none, fun w rcm' uses => ?_⟩
  rw [((step_inv inv h).sound w).mapped _ _ uses] at none
  cases none

/-- Some goroutine can go on, unless all of them are outside of both functions. -/
theorem Inv.exists_step (inv : Inv s.shared s.place) (busy : s.place w ≠ .idle) :
    ∃ v, (s.step (.next v)).isSome = true := by
  have enabled : ∀ v, (advance v s.shared (s.place v)).isSome = true →
      ∃ v, (s.step (.next v)).isSome = true := by
    intro v some
    exact ⟨v, by simpa [Sys.step, inv.running] using some⟩
  cases lock : s.shared.createLock with
  | some v => exact enabled v (advance_owner _ (.inl ((inv.sound v).create.mp lock)))
  | none =>
    by_cases owns : (s.place w).hasCreateLock = true ∨ (s.place w).hasMu = true
    · exact enabled w (advance_owner _ owns)
    · cases here : s.place w with
      | entering _ | unlocked _ _ => exact enabled w (by simp [here, advance, lock])
      | waiting t rcm =>
        have entry := (inv.sound w).mapped t rcm (by rw [here]; rfl)
        cases mu : (s.shared.cells rcm).mu with
        | none => exact enabled w (by simp [here, advance, mu])
        | some v =>
          have has := ((inv.sound v).locked t rcm entry).mp mu
          exact enabled v (advance_owner _ (.inr has.1))
      | _ => simp [here, Place.hasCreateLock, Place.hasMu] at owns busy

end

/-- The constructors of `Place` stand in the order in which a goroutine comes to them. -/
def Place.stepsLeft (p : Place) : ℕ := (17 - p.ctorIdx) % 17

theorem advance_stepsLeft {p q : Place} {s s' : Shared ω} (h : advance w s p = some (s', q))
    (running : s'.fatal = false) : q.stepsLeft < p.stepsLeft := by
  cases p <;> simp only [advance] at h <;> (try split at h) <;> cases h <;>
    first | cases running | simp [Place.stepsLeft, Place.ctorIdx]

/-- Any number of goroutines that lock and unlock trade numbers, in any interleaving: at most one
has locked a trade number, an entry of the map is removed only when no goroutine has locked its
trade number or waits for it, and no entry is left when all of them are done. -/
theorem order_lock_safe [Fintype ω] [DecidableEq ω] {actions : List (Action ω)} {s : Sys ω}
    (run : exec Sys.step {} actions = some s) :
    s.shared.fatal = false ∧
      (∀ tradeNo w v, (s.place w).Holds tradeNo → (s.place v).Holds tradeNo → w = v) ∧
      (∀ a t tradeNo rcm, s.step a = some t → s.shared.orderLocks tradeNo = some rcm →
        t.shared.orderLocks tradeNo ≠ some rcm → t.shared.orderLocks tradeNo = none ∧
          ∀ w, ¬ (t.place w).Holds tradeNo ∧ ¬ (t.place w).Waits tradeNo) ∧
      ((∀ w, s.place w = .idle) → ∀ tradeNo, s.shared.orderLocks tradeNo = none) := by
  have inv := reached_inv run
  refine ⟨inv.running, fun _ _ _ => inv.exclusive, ?_, ?_⟩
  · intro a t tradeNo rcm step entry removed
    obtain ⟨none, unused⟩ := inv.entry_removed step entry removed
    refine ⟨none, fun w => ⟨fun holds => ?_, fun waits => ?_⟩⟩
    · obtain ⟨_, rcm', uses⟩ := holds.uses
      exact unused w rcm' uses
    · obtain ⟨rcm', uses⟩ := waits.uses
      exact unused w rcm' uses
  · intro done tradeNo
    cases entry : s.shared.orderLocks tradeNo with
    | none => rfl
    | some rcm =>
      obtain ⟨w, uses⟩ := inv.used tradeNo rcm entry
      rw [done w] at uses
      cases uses

def contention : List (Action Bool) :=
  [.lockOrder false "USR1NO1", .lockOrder true "USR1NO1"] ++ List.replicate 7 (.next false) ++
    List.replicate 5 (.next true)

theorem order_lock_safe_contention :
    ∃ s, exec Sys.step {} contention = some s ∧ s.place false = .holding "USR1NO1" 0 ∧
      s.place true = .waiting "USR1NO1" 0 ∧
      ∀ tradeNo w v, (s.place w).Holds tradeNo → (s.place v).Holds tradeNo → w = v := by
  have run : ∃ s, exec Sys.step {} contention = some s ∧ s.place false = .holding "USR1NO1" 0 ∧
      s.place true = .waiting "USR1NO1" 0 := ⟨_, rfl, rfl, rfl⟩
  obtain ⟨s, run, first, second⟩ := run
  exact ⟨s, run, first, second, (order_lock_safe run).2.1⟩

/-- Every run in which no more orders are locked ends, and no goroutine is left waiting. -/
theorem order_lock_completes [Fintype ω] [DecidableEq ω] {actions : List (Action ω)}
    {moves : List ω} {s t : Sys ω} (run : exec Sys.step {} actions = some s)
    (rest : exec Sys.step s (moves.map .next) = some t) :
    moves.length ≤ ∑ w, (s.place w).stepsLeft ∧
      ((∀ v, t.step (.next v) = none) → ∀ w, t.place w = .idle) := by
  have inv := reached_inv run
  clear run
  induction moves generalizing s with
  | nil =>
    cases rest
    refine ⟨Nat.zero_le _, fun stuck w => ?_⟩
    by_contra busy
    obtain ⟨v, moves⟩ := inv.exists_step busy
    simp [stuck] at moves
  | cons v moves ih =>
    obtain ⟨u, step, rest⟩ := bind_eq_some_iff.mp rest
    have inv' := step_inv inv step
    obtain ⟨bound, ends⟩ := ih rest inv'
    refine ⟨lt_of_le_of_lt bound ?_, ends⟩
    simp only [Sys.step] at step
    split at step
    · cases step
    · obtain ⟨⟨shared, p⟩, moved, rfl⟩ := map_eq_some_iff.mp step
      have less := advance_stepsLeft moved inv'.running
      refine Finset.sum_lt_sum (fun w _ => ?_) ⟨v, Finset.mem_univ v, by simpa using less⟩
      by_cases own : w = v
      · subst own
        simpa using less.le
      · simp [own]

theorem order_lock_completes_contention : ∃ s, exec Sys.step {} contention = some s ∧
    ∀ (moves : List Bool) t, exec Sys.step s (moves.map .next) = some t → moves.length ≤ 19 := by
  have run : ∃ s, exec Sys.step {} contention = some s ∧ ∑ w, (s.place w).stepsLeft = 19 :=
    ⟨_, rfl, rfl⟩
  obtain ⟨s, run, left⟩ := run
  exact ⟨s, run, fun _ _ rest => left ▸ (order_lock_completes run rest).1⟩

end EastApi.Payment.OrderLock
