import EastApi.Lib.Run
import Mathlib.Algebra.Ring.Nat

/-! Programs of reads and writes that run as transactions on a shared store.  A read sees what is
committed and the transaction's own writes, and takes no lock; a write holds the lock of its row
until the commit or the rollback.  `Once` is the invariant of transactions that close a row and
count something when they do: where no closing write finds the row closed, the count stays at one.
-/

inductive Transaction (σ ι ε : Type)
  | commit
  | abort (e : ε)
  /-- A read.  Its failure is reported as `e`, or else as the store reports it. -/
  | select (e : Option ε) (next : σ → Transaction σ ι ε)
  | write (i : ι) (next : Transaction σ ι ε)

namespace Transaction

open Function List

variable {σ ι ε κ ω : Type}

section
variable (apply : ι → σ → σ)

def run (fails : Nat → Option ε) : Transaction σ ι ε → Nat → σ → Except ε σ
  | .commit, n, s =>
    match fails n with
    | none => .ok s
    | some e => .error e
  | .abort e, _, _ => .error e
  | .select e next, n, s =>
    match fails n with
    | none => run fails (next s) (n + 1) s
    | some failure => .error (e.getD failure)
  | .write i next, n, s =>
    match fails n with
    | none => run fails next (n + 1) (apply i s)
    | some e => .error e

def writes (staged : List ι) (s : σ) : σ := staged.foldl (fun s i => apply i s) s

inductive Phase (σ ι ε : Type)
  | idle
  /-- The writes that are not committed, and the statements to come. -/
  | running (staged : List ι) (rest : Transaction σ ι ε)
  | committed
  | aborted (e : ε)

structure Sys (σ ι ε κ ω : Type) where
  store : σ
  lock : κ → Option ω
  phase : ω → Phase σ ι ε

inductive Action (ε ω : Type)
  /-- The next statement of a transaction. -/
  | step (w : ω)
  /-- That statement fails, and the transaction is rolled back. -/
  | fail (w : ω) (e : ε)

variable [DecidableEq κ] [DecidableEq ω] (key : ι → κ) (programs : ω → Transaction σ ι ε)

def Sys.setPhase (s : Sys σ ι ε κ ω) (w : ω) (p : Phase σ ι ε) : Sys σ ι ε κ ω :=
  { s with phase := update s.phase w p }

def Sys.finish (s : Sys σ ι ε κ ω) (w : ω) (store : σ) (p : Phase σ ι ε) : Sys σ ι ε κ ω :=
  { store := store
    lock := fun k => if s.lock k = some w then none else s.lock k
    phase := update s.phase w p }

def step (s : Sys σ ι ε κ ω) : Action ε ω → Option (Sys σ ι ε κ ω)
  | .step w =>
    match s.phase w with
    | .idle => some (s.setPhase w (.running [] (programs w)))
    | .running staged (.select _ next) =>
      some (s.setPhase w (.running staged (next (writes apply staged s.store))))
    | .running staged (.write i next) =>
      if s.lock (key i) = none ∨ s.lock (key i) = some w then
        some { s.setPhase w (.running (staged ++ [i]) next) with
          lock := update s.lock (key i) (some w) }
      else none
    | .running staged .commit => some (s.finish w (writes apply staged s.store) .committed)
    | .running _ (.abort e) => some (s.finish w s.store (.aborted e))
    | .committed | .aborted _ => none
  | .fail w e =>
    match s.phase w with
    | .running _ _ => some (s.finish w s.store (.aborted e))
    | _ => none

end

section
variable {apply : ι → σ → σ} [DecidableEq κ] [DecidableEq ω] {key : ι → κ}
  {programs : ω → Transaction σ ι ε} {s t : Sys σ ι ε κ ω}

theorem writes_keep {P : σ → Prop} (keep : ∀ i s, P s → P (apply i s)) (staged : List ι) {s : σ}
    (h : P s) : P (writes apply staged s) := by
  induction staged generalizing s with
  | nil => exact h
  | cons i staged ih => exact ih (keep i s h)

theorem store_keep {P : σ → Prop} (keep : ∀ i s, P s → P (apply i s)) {a : Action ε ω}
    (hs : step apply key programs s a = some t) (h : P s.store) : P t.store := by
  revert hs
  fun_cases step apply key programs s a <;> intro hs <;> cases hs
  case case5.refl => exact writes_keep keep _ h
  all_goals exact h

end

section
variable (gain : ι → Nat) (closing : ι → Bool)

def Guarded : Transaction σ ι ε → Nat → Bool → Prop
  | .commit, count, closed => count = 0 ∨ (count = 1 ∧ closed = true)
  | .abort _, _, _ => True
  | .select _ next, count, closed => ∀ s, Guarded (next s) count closed
  | .write i next, count, closed => Guarded next (count + gain i) (closed || closing i)

structure Closes (apply : ι → σ → σ) (key : ι → κ) (k : κ) (isOpen : σ → Prop)
    (count : σ → Nat) : Prop where
  key : ∀ i, closing i = true → key i = k
  counts : ∀ i s, count (apply i s) ≤ count s + gain i
  closes : ∀ i s, closing i = true → ¬ isOpen (apply i s)
  keeps : ∀ i s, closing i = false → (isOpen (apply i s) ↔ isOpen s)

def findsOpen (closing : ι → Bool) (isOpen : σ → Prop) (s : Sys σ ι ε κ ω) : Action ε ω → Prop
  | .step w =>
    match s.phase w with
    | .running _ (.write i _) => closing i = true → isOpen s.store
    | _ => True
  | .fail _ _ => True

structure Once (key : ι → κ) (isOpen : σ → Prop) (count : σ → Nat) (s : Sys σ ι ε κ ω) :
    Prop where
  held : ∀ w staged rest, s.phase w = .running staged rest → ∀ i ∈ staged, s.lock (key i) = some w
  guarded : ∀ w staged rest, s.phase w = .running staged rest →
    Guarded gain closing rest (staged.map gain).sum (staged.any closing)
  /-- Whoever has written the row closed has found it open, and nobody has committed since. -/
  claimed : ∀ w staged rest, s.phase w = .running staged rest → staged.any closing = true →
    isOpen s.store
  fresh : isOpen s.store → count s.store = 0
  once : count s.store ≤ 1

variable {gain closing} {apply : ι → σ → σ} {key : ι → κ} {k : κ} {isOpen : σ → Prop}
  {count : σ → Nat}

theorem Closes.count_writes (c : Closes gain closing apply key k isOpen count) (staged : List ι)
    (s : σ) : count (writes apply staged s) ≤ count s + (staged.map gain).sum := by
  induction staged generalizing s with
  | nil => simp [writes]
  | cons i staged ih =>
    have first := c.counts i s
    have rest := ih (apply i s)
    simp only [writes, foldl_cons, map_cons, sum_cons] at rest ⊢
    omega

theorem Closes.open_writes (c : Closes gain closing apply key k isOpen count) (staged : List ι)
    (s : σ) :
    isOpen (writes apply staged s) ↔ isOpen s ∧ staged.any closing = false := by
  induction staged generalizing s with
  | nil => simp [writes]
  | cons i staged ih =>
    simp only [writes, foldl_cons, any_cons, Bool.or_eq_false_iff] at ih ⊢
    rw [ih]
    cases own : closing i
    · simp [c.keeps i s own]
    · simp [c.closes i s own]

variable {programs : ω → Transaction σ ι ε} {s t : Sys σ ι ε κ ω}

theorem Once.start (initial : isOpen store → count store = 0) (once : count store ≤ 1) :
    Once gain closing key isOpen count
      ({ store := store, lock := fun _ => none, phase := fun _ => .idle } : Sys σ ι ε κ ω) where
  held w staged rest h := by cases h
  guarded w staged rest h := by cases h
  claimed w staged rest h := by cases h
  fresh := initial
  once := once

variable (h : Once gain closing key isOpen count s)
include h

theorem Once.exclusive (c : Closes gain closing apply key k isOpen count)
    (hw : s.phase w = .running staged rest) (hv : s.phase v = .running staged' rest')
    (closed : staged.any closing = true) (closed' : staged'.any closing = true) : v = w := by
  obtain ⟨i, hi, ci⟩ := any_eq_true.mp closed
  obtain ⟨j, hj, cj⟩ := any_eq_true.mp closed'
  have first := h.held w staged rest hw i hi
  have second := h.held v staged' rest' hv j hj
  rw [c.key i ci] at first
  rw [c.key j cj, first] at second
  exact (Option.some.inj second).symm

variable [DecidableEq ω]

theorem Once.abort (w : ω) (e : ε) :
    Once gain closing key isOpen count (s.finish w s.store (.aborted e)) where
  held v staged rest hv i hi := by
    obtain ⟨-, hp⟩ | ⟨other, hp⟩ := Run.of_update_eq hv
    · cases hp
    · have lock := h.held v staged rest hp i hi
      simp [Sys.finish, lock, other]
  guarded v staged rest hv := by
    obtain ⟨-, hp⟩ | ⟨-, hp⟩ := Run.of_update_eq hv
    · cases hp
    · exact h.guarded v staged rest hp
  claimed v staged rest hv closed := by
    obtain ⟨-, hp⟩ | ⟨-, hp⟩ := Run.of_update_eq hv
    · cases hp
    · exact h.claimed v staged rest hp closed
  fresh := h.fresh
  once := h.once

theorem Once.commit (c : Closes gain closing apply key k isOpen count)
    (hw : s.phase w = .running staged .commit) :
    Once gain closing key isOpen count
      (s.finish w (writes apply staged s.store) .committed) where
  held v staged rest hv i hi := by
    obtain ⟨-, hp⟩ | ⟨other, hp⟩ := Run.of_update_eq hv
    · cases hp
    · have lock := h.held v staged rest hp i hi
      simp [Sys.finish, lock, other]
  guarded v staged rest hv := by
    obtain ⟨-, hp⟩ | ⟨-, hp⟩ := Run.of_update_eq hv
    · cases hp
    · exact h.guarded v staged rest hp
  claimed v staged' rest hv closed := by
    obtain ⟨-, hp⟩ | ⟨other, hp⟩ := Run.of_update_eq hv
    · cases hp
    · refine (c.open_writes staged s.store).mpr ⟨h.claimed v staged' rest hp closed, ?_⟩
      by_contra mine
      exact other (h.exclusive c hw hp (by simpa using mine) closed)
  fresh opened := by
    obtain ⟨before, none⟩ := (c.open_writes staged s.store).mp opened
    have bound := c.count_writes staged s.store
    have zero := h.fresh before
    rcases h.guarded w staged .commit hw with nothing | ⟨-, closed⟩
    · simp only [Sys.finish]
      omega
    · rw [none] at closed
      cases closed
  once := by
    have bound := c.count_writes staged s.store
    have before := h.once
    simp only [Sys.finish]
    rcases h.guarded w staged .commit hw with nothing | ⟨one, closed⟩
    · omega
    · -- the row was open until now, so nothing has been counted
      have zero := h.fresh (h.claimed w staged .commit hw closed)
      omega

theorem Once.move (held : ∀ i ∈ staged, s.lock (key i) = some w)
    (guarded : Guarded gain closing rest (staged.map gain).sum (staged.any closing))
    (claimed : staged.any closing = true → isOpen s.store) :
    Once gain closing key isOpen count (s.setPhase w (.running staged rest)) where
  held v staged' rest' hv i hi := by
    obtain ⟨rfl, hp⟩ | ⟨-, hp⟩ := Run.of_update_eq hv
    · cases hp
      exact held i hi
    · exact h.held v staged' rest' hp i hi
  guarded v staged' rest' hv := by
    obtain ⟨rfl, hp⟩ | ⟨-, hp⟩ := Run.of_update_eq hv
    · cases hp
      exact guarded
    · exact h.guarded v staged' rest' hp
  claimed v staged' rest' hv closed := by
    obtain ⟨rfl, hp⟩ | ⟨-, hp⟩ := Run.of_update_eq hv
    · cases hp
      exact claimed closed
    · exact h.claimed v staged' rest' hp closed
  fresh := h.fresh
  once := h.once

variable [DecidableEq κ]

theorem Once.write {next : Transaction σ ι ε}
    (hw : s.phase w = .running staged (.write i next))
    (free : s.lock (key i) = none ∨ s.lock (key i) = some w)
    (found : closing i = true → isOpen s.store) :
    Once gain closing key isOpen count
      { s.setPhase w (.running (staged ++ [i]) next) with
        lock := update s.lock (key i) (some w) } where
  held v staged' rest' hv j hj := by
    by_cases same : key j = key i
    · obtain ⟨rfl, -⟩ | ⟨other, hp⟩ := Run.of_update_eq hv
      · simp [same]
      · have lock := h.held v staged' rest' hp j hj
        rw [same] at lock
        rcases free with none | own
        · rw [none] at lock
          cases lock
        · rw [own] at lock
          exact absurd (Option.some.inj lock).symm other
    · simp only [update_of_ne same]
      obtain ⟨rfl, hp⟩ | ⟨-, hp⟩ := Run.of_update_eq hv
      · cases hp
        rcases mem_append.mp hj with old | new
        · exact h.held v staged _ hw j old
        · rw [mem_singleton.mp new] at same
          exact absurd rfl same
      · exact h.held v staged' rest' hp j hj
  guarded v staged' rest' hv := by
    obtain ⟨rfl, hp⟩ | ⟨-, hp⟩ := Run.of_update_eq hv
    · cases hp
      simpa [Guarded] using h.guarded v staged _ hw
    · exact h.guarded v staged' rest' hp
  claimed v staged' rest' hv closed := by
    obtain ⟨rfl, hp⟩ | ⟨-, hp⟩ := Run.of_update_eq hv
    · cases hp
      rw [any_append, Bool.or_eq_true] at closed
      rcases closed with old | new
      · exact h.claimed v staged _ hw old
      · exact found (by simpa using new)
    · exact h.claimed v staged' rest' hp closed
  fresh := h.fresh
  once := h.once

theorem Once.step (c : Closes gain closing apply key k isOpen count)
    (programs_guarded : ∀ w, Guarded gain closing (programs w) 0 false)
    (ok : findsOpen closing isOpen s a) (hs : step apply key programs s a = some t) :
    Once gain closing key isOpen count t := by
  revert hs ok
  fun_cases Transaction.step apply key programs s a <;> intro ok hs <;> cases hs
  next w _ => exact h.move (by simp) (programs_guarded w) (by simp)
  next w staged _ _ hw =>
    exact h.move (h.held w staged _ hw) (h.guarded w staged _ hw _) (h.claimed w staged _ hw)
  next hw free =>
    simp only [findsOpen, hw] at ok
    exact h.write hw free ok
  next hw => exact h.commit c hw
  all_goals exact h.abort _ _

end

end Transaction
