import Mathlib.Order.Bounds.Defs

/-! A loop that catches up with a clock.  From a base it goes on to the time that a function gives
for the base, as long as that time has come.  A time that is not positive stands for none.  The loop
has a fuel; `none` is a loop that has not ended with it. -/

namespace CatchUp

variable (after : Int → Int) (now : Int)

def loop : Nat → Int → Int → Option (Int × Int)
  | 0, base, next => if 0 < next ∧ next ≤ now then none else some (base, next)
  | fuel + 1, base, next =>
    if 0 < next ∧ next ≤ now then loop fuel next (after next) else some (base, next)

variable {after now}

theorem loop_stop (h : ¬ (0 < next ∧ next ≤ now)) (fuel : Nat) (base : Int) :
    loop after now fuel base next = some (base, next) := by
  cases fuel <;> rw [loop, if_neg h]

theorem loop_succ (h : 0 < next ∧ next ≤ now) (fuel : Nat) (base : Int) :
    loop after now (fuel + 1) base next = loop after now fuel next (after next) := by
  rw [loop, if_pos h]

theorem loop_mono (more : fuel ≤ fuel') : ∀ {base next : Int} {r : Int × Int},
    loop after now fuel base next = some r → loop after now fuel' base next = some r := by
  induction fuel generalizing fuel' with
  | zero =>
    intro base next r h
    by_cases come : 0 < next ∧ next ≤ now
    · rw [loop, if_pos come] at h
      simp at h
    · rw [loop_stop come] at h ⊢
      exact h
  | succ fuel ih =>
    intro base next r h
    by_cases come : 0 < next ∧ next ≤ now
    · obtain ⟨k, rfl⟩ : ∃ k, fuel' = k + 1 := ⟨fuel' - 1, by omega⟩
      rw [loop_succ come] at h ⊢
      exact ih (by omega) h
    · rw [loop_stop come] at h ⊢
      exact h

theorem loop_ends (measure : Int → Nat)
    (less : ∀ t, 0 < t ∧ t ≤ now → measure (after t) < measure t) :
    ∀ (fuel : Nat) (base next : Int), measure next ≤ fuel →
      ∃ r, loop after now fuel base next = some r := by
  intro fuel
  induction fuel with
  | zero =>
    intro base next enough
    exact ⟨_, loop_stop (fun come => by have := less next come; omega) 0 base⟩
  | succ fuel ih =>
    intro base next enough
    by_cases come : 0 < next ∧ next ≤ now
    · rw [loop_succ come]
      have := less next come
      exact ih next (after next) (by omega)
    · exact ⟨_, loop_stop come (fuel + 1) base⟩

theorem loop_stuck (come : 0 < next ∧ next ≤ now) (still : after next = next) (fuel : Nat) :
    ∀ base, loop after now fuel base next = none := by
  induction fuel with
  | zero =>
    intro base
    rw [loop, if_pos come]
  | succ fuel ih =>
    intro base
    rw [loop_succ come, still]
    exact ih next

/-- What an ended loop returns: the time after the last base has not come, and the last base has,
unless it is the first one. -/
theorem loop_some (h : loop after now fuel base next = some (last, nxt)) :
    ¬ (0 < nxt ∧ nxt ≤ now) ∧
      (last = base ∧ nxt = next ∨ (0 < last ∧ last ≤ now) ∧ nxt = after last) := by
  induction fuel generalizing base next with
  | zero =>
    by_cases come : 0 < next ∧ next ≤ now
    · rw [loop, if_pos come] at h
      simp at h
    · rw [loop_stop come] at h
      cases h
      exact ⟨come, .inl ⟨rfl, rfl⟩⟩
  | succ fuel ih =>
    by_cases come : 0 < next ∧ next ≤ now
    · rw [loop_succ come] at h
      obtain ⟨ended, ⟨rfl, rfl⟩ | late⟩ := ih h
      · exact ⟨ended, .inr ⟨come, rfl⟩⟩
      · exact ⟨ended, .inr late⟩
    · rw [loop_stop come] at h
      cases h
      exact ⟨come, .inl ⟨rfl, rfl⟩⟩

/-! ### Marks

The times are the marks of a calendar up to an end. -/

/-- The function gives the first mark after a time, if it is not after the end, and 0 otherwise. -/
def Follows (after : Int → Int) (mark : Int → Prop) (stop : Int) : Prop :=
  ∀ t, 0 ≤ t → ∃ b, IsLeast {c | mark c ∧ t < c} b ∧ after t = if stop < b then 0 else b

theorem Follows.come_iff (h : Follows after mark stop) (hb : 0 ≤ base) :
    (0 < after base ∧ after base ≤ now) ↔
      ∃ b, mark b ∧ base < b ∧ b ≤ min now stop := by
  obtain ⟨b, ⟨⟨marked, later⟩, least⟩, eq⟩ := h base hb
  rw [eq]
  constructor
  · intro come
    split at come
    · omega
    · exact ⟨b, marked, later, by omega⟩
  · rintro ⟨c, hc, after_base, bound⟩
    have first := least ⟨hc, after_base⟩
    rw [if_neg (by omega)]
    omega

theorem Follows.loop_greatest (h : Follows after mark stop) :
    ∀ (fuel : Nat) (base : Int), 0 ≤ base → 0 < after base ∧ after base ≤ now →
      loop after now fuel base (after base) = some (last, nxt) →
      IsGreatest {b | mark b ∧ base < b ∧ b ≤ min now stop} last ∧ nxt = after last := by
  intro fuel
  induction fuel with
  | zero =>
    intro base _ come run
    rw [loop, if_pos come] at run
    simp at run
  | succ fuel ih =>
    intro base hb come run
    rw [loop_succ come] at run
    obtain ⟨b, ⟨⟨marked, later⟩, least⟩, eq⟩ := h base hb
    have bound : ¬ stop < b := by
      intro past
      rw [eq, if_pos past] at come
      omega
    have next : after base = b := eq.trans (if_neg bound)
    rw [next] at run come
    by_cases more : 0 < after b ∧ after b ≤ now
    · obtain ⟨⟨⟨hm, hl, hmin⟩, greatest⟩, hn⟩ := ih b (by omega) more run
      refine ⟨⟨⟨hm, by omega, hmin⟩, ?_⟩, hn⟩
      rintro c ⟨mc, bc, cmin⟩
      rcases Int.lt_or_le b c with hbc | hbc
      · exact greatest ⟨mc, hbc, cmin⟩
      · omega
    · rw [loop_stop more] at run
      obtain ⟨rfl, rfl⟩ := Prod.mk.inj (Option.some.inj run)
      refine ⟨⟨⟨marked, later, by omega⟩, ?_⟩, rfl⟩
      rintro c ⟨mc, bc, cmin⟩
      rcases Int.lt_or_le b c with hc | hc
      · -- a mark after the last one would have let the loop go on
        exact absurd ((h.come_iff (by omega)).mpr ⟨c, mc, hc, cmin⟩) more
      · exact hc

end CatchUp
