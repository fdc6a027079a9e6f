import Mathlib.Algebra.Ring.Int.Defs

/-! A stored row with at most one version of it that is not committed.  The transaction that has
written that version holds the row: nobody else writes it before the commit or the rollback, and all
others read the stored row. -/

/-- The stored row, and the version that is not committed with its writer. -/
structure Versioned (ρ ω : Type) where
  row : ρ
  staged : Option (ω × ρ) := none
deriving DecidableEq, Repr

namespace Versioned

variable {ρ ω : Type} [DecidableEq ω]

def writable (v : Versioned ρ ω) (w : ω) : Bool :=
  match v.staged with
  | none => true
  | some (holder, _) => holder = w

def stage (v : Versioned ρ ω) (w : ω) (new : ρ) : Versioned ρ ω :=
  { v with staged := some (w, new) }

def commit (w : ω) (v : Versioned ρ ω) : Versioned ρ ω :=
  match v.staged with
  | some (holder, new) => if holder = w then ⟨new, none⟩ else v
  | none => v

def rollback (w : ω) (v : Versioned ρ ω) : Versioned ρ ω :=
  match v.staged with
  | some (holder, _) => if holder = w then ⟨v.row, none⟩ else v
  | none => v

@[simp] theorem rollback_row (w : ω) (v : Versioned ρ ω) : (v.rollback w).row = v.row := by
  unfold rollback
  split
  · split <;> rfl
  · rfl

theorem staged_of_commit {v : Versioned ρ ω} (h : (v.commit w).staged = some version) :
    v.staged = some version := by
  revert h
  fun_cases v.commit w <;> intro h <;> first | exact h | cases h

theorem staged_of_rollback {v : Versioned ρ ω} (h : (v.rollback w).staged = some version) :
    v.staged = some version := by
  revert h
  fun_cases v.rollback w <;> intro h <;> first | exact h | cases h

/-- The stored row measures `total`, and the version that is not committed will add what its writer
owes.  Who owes something holds the row. -/
structure Balanced (measure : ρ → Int) (total : Int) (owed : ω → Int) (v : Versioned ρ ω) :
    Prop where
  row : measure v.row = total
  staged : ∀ w new, v.staged = some (w, new) → measure new = total + owed w
  holds : ∀ w, owed w ≠ 0 → ∃ new, v.staged = some (w, new)

namespace Balanced

variable {measure : ρ → Int} {total : Int} {owed : ω → Int} {v : Versioned ρ ω} {w : ω}

omit [DecidableEq ω] in
theorem free {row : ρ} (measured : measure row = total) (settled : ∀ u, owed u = 0) :
    Balanced measure total owed ⟨row, none⟩ where
  row := measured
  staged u new hv := by contradiction
  holds u owes := absurd (settled u) owes

section
variable (h : Balanced measure total owed v)
include h

theorem owed_of_writable (free : v.writable w = true) (other : u ≠ w) : owed u = 0 := by
  by_contra owes
  obtain ⟨new, staged⟩ := h.holds u owes
  rw [writable, staged] at free
  exact other (by simpa using free)

omit [DecidableEq ω] in
theorem update (free : v.staged = none) {d : Int} (adds : measure new = measure v.row + d) :
    Balanced measure (total + d) owed { v with row := new } where
  row := by rw [adds, h.row]
  staged u version hv := by
    rw [free] at hv
    contradiction
  holds u owes := by
    obtain ⟨version, hv⟩ := h.holds u owes
    rw [free] at hv
    contradiction

theorem stage (free : v.writable w = true) (adds : measure new = measure v.row + d) :
    Balanced measure total (Function.update owed w d) (v.stage w new) where
  row := h.row
  staged u version hv := by
    cases hv
    rw [Function.update_self, adds, h.row]
  holds u owes := by
    by_cases own : u = w
    · exact ⟨new, by rw [own]; rfl⟩
    · rw [Function.update_of_ne own] at owes
      exact absurd (h.owed_of_writable free own) owes

/-- The worker holds the row, and then nobody owes anything once it has let go; or the end of its
transaction changes nothing. -/
theorem holds_or_same (w : ω) :
    (∃ new, v.staged = some (w, new) ∧ ∀ u, Function.update owed w 0 u = 0) ∨
    (owed w = 0 ∧ v.commit w = v ∧ v.rollback w = v) := by
  cases staged : v.staged with
  | none =>
    refine .inr ⟨?_, by simp [Versioned.commit, staged], by simp [Versioned.rollback, staged]⟩
    by_contra owes
    obtain ⟨new, hv⟩ := h.holds w owes
    rw [staged] at hv
    contradiction
  | some version =>
    obtain ⟨holder, new⟩ := version
    have others : ∀ u, u ≠ holder → owed u = 0 := fun u other =>
      h.owed_of_writable (by simp [writable, staged]) other
    by_cases own : holder = w
    · subst own
      exact .inl ⟨new, rfl, (Function.forall_update_iff owed fun _ d => d = 0).mpr ⟨rfl, others⟩⟩
    · exact .inr ⟨others w (Ne.symm own), by simp [Versioned.commit, staged, own],
        by simp [Versioned.rollback, staged, own]⟩

theorem commit (w : ω) :
    Balanced measure (total + owed w) (Function.update owed w 0) (v.commit w) := by
  rcases h.holds_or_same w with ⟨new, staged, settled⟩ | ⟨zero, same, -⟩
  · have eq : v.commit w = ⟨new, none⟩ := by simp [Versioned.commit, staged]
    rw [eq]
    exact free (h.staged w new staged) settled
  · rw [same, zero, Int.add_zero, ← zero, Function.update_eq_self]
    exact h

theorem rollback (w : ω) : Balanced measure total (Function.update owed w 0) (v.rollback w) := by
  rcases h.holds_or_same w with ⟨new, staged, settled⟩ | ⟨zero, -, same⟩
  · have eq : v.rollback w = ⟨v.row, none⟩ := by simp [Versioned.rollback, staged]
    rw [eq]
    exact free h.row settled
  · rw [same, ← zero, Function.update_eq_self]
    exact h

end

end Balanced

end Versioned
