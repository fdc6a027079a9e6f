import Mathlib.Algebra.Order.Ring.Int
import Mathlib.Data.List.Basic
import Mathlib.Tactic.Linarith

/-! The token bucket (`rate_limit.lua`).  Redis runs a script as a whole, so the calls for a key
come one after another.  Time is in seconds. -/

namespace EastApi.RateLimit

open List

structure Bucket where
  (tokens lastTime : ℤ)

structure Call where
  time : ℤ
  allowed : Bool
  bucket : Bucket

section
variable (requested rate capacity : ℤ)

/-- The tokens of a call, before it takes its own. -/
def refilled (bucket : Option Bucket) (now : ℤ) : ℤ :=
  match bucket with
  | none => capacity
  | some b => min capacity (b.tokens + (now - b.lastTime) * rate)

def rateLimit (bucket : Option Bucket) (now : ℤ) : Call :=
  let tokens := refilled rate capacity bucket now
  if tokens ≥ requested then ⟨now, true, ⟨tokens - requested, now⟩⟩
  else ⟨now, false, ⟨tokens, now⟩⟩

def calls : Option Bucket → List ℤ → List Call
  | _, [] => []
  | bucket, now :: times =>
    let call := rateLimit requested rate capacity bucket now
    call :: calls (some call.bucket) times

/-- The arguments of the script for the total limit of a user. -/
def totalCalls (totalMaxCount duration : ℤ) (times : List ℤ) : List Call :=
  calls duration totalMaxCount (totalMaxCount * duration) none times

theorem refilled_le (bucket : Option Bucket) (now : ℤ) :
    refilled rate capacity bucket now ≤ capacity := by
  cases bucket with
  | none => exact le_rfl
  | some b => exact min_le_left ..

theorem refilled_some_le (b : Bucket) (now : ℤ) :
    refilled rate capacity (some b) now ≤ b.tokens + (now - b.lastTime) * rate :=
  min_le_right ..

theorem rateLimit_spec (bucket : Option Bucket) (now : ℤ) :
    let call := rateLimit requested rate capacity bucket now
    call.time = now ∧ call.bucket.lastTime = now ∧
      call.bucket.tokens + (if call.allowed then requested else 0) =
        refilled rate capacity bucket now ∧
      (call.allowed = true → 0 ≤ call.bucket.tokens) := by
  unfold rateLimit
  dsimp only
  split <;> simp_all

variable {requested rate capacity}

theorem calls_tokens (positive : 1 ≤ requested) (hr : 0 ≤ rate) (hC : 0 ≤ capacity)
    (start : ∀ b ∈ bucket, 0 ≤ b.tokens ∧ ∀ t ∈ times, b.lastTime ≤ t)
    (sorted : times.Pairwise (· ≤ ·)) :
    ∀ call ∈ calls requested rate capacity bucket times,
      0 ≤ call.bucket.tokens ∧ call.bucket.tokens ≤ capacity := by
  induction times generalizing bucket with
  | nil => simp [calls]
  | cons now times ih =>
    obtain ⟨first, rest⟩ := pairwise_cons.mp sorted
    obtain ⟨-, last, spent, allowed⟩ := rateLimit_spec requested rate capacity bucket now
    have upper := refilled_le rate capacity bucket now
    have lower : 0 ≤ refilled rate capacity bucket now := by
      cases bucket with
      | none => exact hC
      | some b =>
        obtain ⟨tokens, earlier⟩ := start b rfl
        have := mul_nonneg (sub_nonneg.mpr (earlier now mem_cons_self)) hr
        exact le_min hC (by omega)
    have own : 0 ≤ (rateLimit requested rate capacity bucket now).bucket.tokens ∧
        (rateLimit requested rate capacity bucket now).bucket.tokens ≤ capacity := by
      split at spent <;> simp_all
      omega
    intro call member
    rcases mem_cons.mp member with rfl | member
    · exact own
    · refine ih ?_ rest call member
      rintro b ⟨⟩
      exact ⟨own.1, by rw [last]; exact first⟩

/-- What a row of calls takes and leaves is there at its start or comes while it lasts. -/
theorem calls_potential (row : window <+: calls requested rate capacity bucket (now :: times))
    (ends : window.getLast? = some last) :
    window.countP (·.allowed) * requested + last.bucket.tokens ≤
      refilled rate capacity bucket now + rate * (last.time - now) := by
  induction window generalizing bucket now times with
  | nil => simp at ends
  | cons call rest ih =>
    obtain ⟨rfl, later⟩ := cons_prefix_cons.mp row
    obtain ⟨time, lastTime, spent, -⟩ := rateLimit_spec requested rate capacity bucket now
    rw [countP_cons, Nat.cast_add, add_mul]
    have own : ((if (rateLimit requested rate capacity bucket now).allowed then 1 else 0 : ℕ) : ℤ) *
        requested = refilled rate capacity bucket now -
          (rateLimit requested rate capacity bucket now).bucket.tokens := by
      rw [← spent]
      split <;> simp
    rw [own]
    cases rest with
    | nil =>
      obtain rfl := Option.some.inj ends
      simp [time]
    | cons next rest =>
      cases times with
      | nil => simp [calls] at later
      | cons now' times =>
        have := ih later ends
        have refill := refilled_some_le rate capacity
          (rateLimit requested rate capacity bucket now).bucket now'
        rw [lastTime] at refill
        linarith

theorem calls_window (row : window <:+: calls requested rate capacity bucket times)
    (starts : window.head? = some first) (ends : window.getLast? = some last) :
    window.countP (·.allowed) * requested + last.bucket.tokens ≤
      capacity + rate * (last.time - first.time) := by
  induction times generalizing bucket with
  | nil => simp_all [calls]
  | cons now times ih =>
    rcases infix_cons_iff.mp row with row | row
    · have := calls_potential row ends
      have := refilled_le rate capacity bucket now
      cases window with
      | nil => simp at starts
      | cons call rest =>
        obtain rfl := Option.some.inj starts
        have time := (rateLimit_spec requested rate capacity bucket now).1
        rw [← (cons_prefix_cons.mp row).1] at time
        rw [time]
        omega
    · exact ih row

end

/-- The script with the same arguments on every call. -/
theorem bucket_bounded (positive : 1 ≤ requested) (hr : 0 ≤ rate) (hC : 0 ≤ capacity)
    (times : List ℤ) (sorted : times.Pairwise (· ≤ ·)) :
    (∀ call ∈ calls requested rate capacity none times,
      0 ≤ call.bucket.tokens ∧ call.bucket.tokens ≤ capacity) ∧
    ∀ window first last, window <:+: calls requested rate capacity none times →
      window.head? = some first → window.getLast? = some last →
        window.countP (·.allowed) * requested ≤ capacity + rate * (last.time - first.time) := by
  have start : ∀ b ∈ (none : Option Bucket), 0 ≤ b.tokens ∧ ∀ t ∈ times, b.lastTime ≤ t := by simp
  have tokens := calls_tokens positive hr hC start sorted
  refine ⟨tokens, fun window first last row starts ends => ?_⟩
  have := calls_window row starts ends
  have := tokens last (row.subset (mem_of_getLast? ends))
  omega

/-- A total of 2 in a window of 2 s: four of the five calls are accepted. -/
theorem bucket_bounded_five : (totalCalls 2 2 [0, 0, 0, 1, 2]).map (·.allowed) =
      [true, true, false, true, true] ∧
    (totalCalls 2 2 [0, 0, 0, 1, 2]).countP (·.allowed) * 2 ≤ 4 + 2 * (2 - 0 : ℤ) :=
  ⟨by decide, (bucket_bounded (by decide : (1 : ℤ) ≤ 2) (by decide) (by decide) [0, 0, 0, 1, 2]
    (by decide)).2 _ _ _ infix_rfl rfl rfl⟩

end EastApi.RateLimit
