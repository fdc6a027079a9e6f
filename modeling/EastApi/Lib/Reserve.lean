import Mathlib.Algebra.BigOperators.Pi
import Mathlib.Algebra.Order.BigOperators.Group.Finset
import Mathlib.Data.Fintype.BigOperators
import Mathlib.Tactic.Ring

/-! An amount of which any number of calls take a part in two steps: a call first looks whether
there is enough, and takes its part later.  Between the two it holds that part.  The amount does not
fall under zero while it covers all that is held. -/

namespace Reserve

open Finset Function

variable {ω π : Type*} [Fintype ω]

def total (held : ω → π → Int) (phase : ω → π) : Int := ∑ w, held w (phase w)

def Covered (held : ω → π → Int) (amount : Int) (phase : ω → π) : Prop :=
  total held phase ≤ amount

variable {held : ω → π → Int} {phase : ω → π} {amount : Int}

theorem Covered.nonneg (h : Covered held amount phase) (parts : ∀ w p, 0 ≤ held w p) :
    0 ≤ amount := by
  have sum : 0 ≤ total held phase := sum_nonneg fun w _ => parts w (phase w)
  exact sum.trans h

theorem Covered.start (free : ∀ w, held w (phase w) = 0) (nonneg : 0 ≤ amount) :
    Covered held amount phase := by
  have none : total held phase = 0 := sum_eq_zero fun w _ => free w
  rw [Covered, none]
  exact nonneg

variable [DecidableEq ω]

theorem total_update (held : ω → π → Int) (phase : ω → π) (w : ω) (p : π) :
    total held (update phase w p) + held w (phase w) =
      total held phase + held w p := by
  unfold total
  rw [← add_sum_erase univ _ (mem_univ w),
    ← add_sum_erase univ (fun v => held v (phase v)) (mem_univ w), update_self]
  have others : ∑ v ∈ univ.erase w, held v (update phase w p v) =
      ∑ v ∈ univ.erase w, held v (phase v) := by
    refine sum_congr rfl fun v hv => ?_
    rw [update_of_ne (ne_of_mem_erase hv)]
  rw [others]
  ring

theorem Covered.move (h : Covered held amount phase) (less : held w p ≤ held w (phase w) + d) :
    Covered held (amount + d) (update phase w p) := by
  have sum := total_update held phase w p
  unfold Covered at h ⊢
  omega

theorem Covered.keep (h : Covered held amount phase) (less : held w p ≤ held w (phase w)) :
    Covered held amount (update phase w p) := by
  rw [← Int.add_zero amount]
  apply h.move
  omega

theorem Covered.reserve (enough : total held phase + held w p ≤ amount + held w (phase w)) :
    Covered held amount (update phase w p) := by
  have sum := total_update held phase w p
  unfold Covered
  omega

end Reserve
