import EastApi.Lib.Run

/-! A row that many workers change only by compare-and-set on one of its columns, each from a copy
that it loaded at some earlier time.  When no copy is loaded while the column is in a set `closed`,
a row whose column has entered `closed` never changes again, whatever the workers hold, and exactly
one worker has made the write that closed it. -/

namespace CompareAndSet

open Function

variable {ρ κ ω : Type*} [DecidableEq κ] [DecidableEq ω]

/-- The stored row, the copies in memory, and the workers that saw their write close the row. -/
structure State (ρ ω : Type*) where
  row : ρ
  copy : ω → Option ρ
  winners : List ω

inductive Label (ρ ω : Type*)
  | load (w : ω)
  /-- A worker writes a row over the one that its copy was loaded from. -/
  | write (w : ω) (new : ρ)
  | drop (w : ω)

variable (key : ρ → κ) (closed : κ → Bool)

def step (s : State ρ ω) : Label ρ ω → Option (State ρ ω)
  | .load w => if closed (key s.row) then none
      else some { s with copy := update s.copy w (some s.row) }
  | .write w new => (s.copy w).bind fun c =>
      let t := { s with copy := update s.copy w none }
      some (if key s.row = key c then
          { t with row := new, winners := if closed (key new) then w :: s.winners else s.winners }
        else t)
  | .drop w => some { s with copy := update s.copy w none }

/-- Every copy was loaded while the row was open, and the row is closed exactly when one worker
has closed it. -/
structure Latched (s : State ρ ω) : Prop where
  copies : ∀ w c, s.copy w = some c → closed (key c) = false
  winners : (closed (key s.row) = false ∧ s.winners = []) ∨
    (closed (key s.row) = true ∧ ∃ w, s.winners = [w])

variable {key closed}

omit [DecidableEq κ] in
theorem copies_update (h : Latched key closed s) {w : ω}
    (hc : ∀ c, c? = some c → closed (key c) = false) :
    ∀ v c, update s.copy w c? v = some c → closed (key c) = false := by
  intro v c hv
  rcases Run.of_update_eq hv with ⟨-, own⟩ | ⟨-, other⟩
  · exact hc c own
  · exact h.copies v c other

theorem Latched.step {s t : State ρ ω} (h : Latched key closed s)
    (hs : step key closed s a = some t) : Latched key closed t := by
  cases a with
  | load w =>
    simp only [CompareAndSet.step] at hs
    split at hs
    · contradiction
    next isOpen =>
      cases hs
      refine ⟨copies_update h fun c hc => ?_, h.winners⟩
      cases hc
      simpa using isOpen
  | drop w =>
    cases hs
    exact ⟨copies_update h (by simp), h.winners⟩
  | write w new =>
    obtain ⟨c, hc, hs⟩ := Option.bind_eq_some_iff.mp hs
    cases hs
    have isOpen := h.copies w c hc
    split
    · -- the write matched, so the row is still open and has no winner
      rename_i same
      rw [← same] at isOpen
      obtain ⟨-, none⟩ | ⟨isClosed, -⟩ := h.winners
      · refine ⟨copies_update h (by simp), ?_⟩
        cases hnew : closed (key new)
        · exact .inl ⟨rfl, by simp [none]⟩
        · exact .inr ⟨rfl, w, by simp [none]⟩
      · rw [isOpen] at isClosed
        contradiction
    · exact ⟨copies_update h (by simp), h.winners⟩

end CompareAndSet
