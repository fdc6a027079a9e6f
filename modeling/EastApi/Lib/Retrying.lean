import Mathlib.Data.List.Forall2

/-! A loop that makes attempts until one of them is the last.  Each pass has an input; the body
makes an attempt and goes on, makes an attempt and ends, or ends without one. -/

namespace Retrying

open List Nat

variable {σ α β : Type*}

inductive Turn (σ : Type*)
  /-- An attempt, after which the loop goes on. -/
  | again (s : σ)
  | last (s : σ)
  | stop (s : σ)

/-- The states in which the attempts were made, the state at the end, and whether the loop has
ended. -/
structure Outcome (σ : Type*) where
  attempts : List σ
  final : σ
  finished : Bool

variable (within : σ → Bool) (body : α → σ → Turn σ) (next : σ → σ)

def run : List α → σ → Outcome σ
  | [], s => ⟨[], s, !within s⟩
  | a :: as, s =>
    if within s then
      match body a s with
      | .again t =>
        let rest := run as (next t)
        { rest with attempts := t :: rest.attempts }
      | .last t => ⟨[t], t, true⟩
      | .stop t => ⟨[], t, true⟩
    else ⟨[], s, true⟩

variable {within body}

/-- A potential that pays for every attempt bounds their number, and the loop ends on any longer
list of inputs. -/
theorem run_bounded {I : σ → Prop} {Φ : σ → ℕ}
    (again : ∀ a s t, I s → within s = true → body a s = .again t → I (next t) ∧ Φ (next t) < Φ s)
    (last : ∀ a s t, I s → within s = true → body a s = .last t → 0 < Φ s) (as : List α)
    (start : I s) :
    (run within body next as s).attempts.length ≤ Φ s ∧
      (Φ s < as.length → (run within body next as s).finished = true) := by
  induction as generalizing s with
  | nil => exact ⟨zero_le _, fun h => absurd h (not_lt_zero _)⟩
  | cons a as ih =>
    unfold run
    split
    next inside =>
      split
      next t turn =>
        obtain ⟨holds, drop⟩ := again a s t start inside turn
        obtain ⟨count, ends⟩ := ih holds
        refine ⟨?_, fun long => ends ?_⟩
        · rw [length_cons]
          omega
        · rw [length_cons] at long
          omega
      next t turn => exact ⟨last a s t start inside turn, fun _ => rfl⟩
      · exact ⟨zero_le _, fun _ => rfl⟩
    · exact ⟨zero_le _, fun _ => rfl⟩

theorem run_forall {I Q : σ → Prop} {ok : α → Prop}
    (again : ∀ a s t, ok a → I s → within s = true → body a s = .again t → Q t ∧ I (next t))
    (last : ∀ a s t, ok a → I s → within s = true → body a s = .last t → Q t)
    (inputs : ∀ a ∈ as, ok a) (start : I s) : ∀ t ∈ (run within body next as s).attempts, Q t := by
  induction as generalizing s with
  | nil => exact fun t ht => absurd ht not_mem_nil
  | cons a as ih =>
    have first := inputs a mem_cons_self
    have rest := fun b hb => inputs b (mem_cons_of_mem a hb)
    unfold run
    split
    next inside =>
      split
      next t turn =>
        obtain ⟨good, holds⟩ := again a s t first start inside turn
        exact forall_mem_cons.mpr ⟨good, ih rest holds⟩
      next t turn => exact forall_mem_singleton.mpr (last a s t first start inside turn)
      · exact fun t ht => absurd ht not_mem_nil
    · exact fun t ht => absurd ht not_mem_nil

/-- A preorder in which every pass goes up orders the start, the attempts and the end. -/
theorem run_pairwise (refl : ∀ s, R s s) (trans : ∀ s t u, R s t → R t u → R s u)
    (up : ∀ a s t, body a s = .again t ∨ body a s = .last t ∨ body a s = .stop t → R s t)
    (forward : ∀ t, R t (next t)) (as : List α) (s : σ) :
    (s :: ((run within body next as s).attempts ++ [(run within body next as s).final])).Pairwise
      R := by
  induction as generalizing s with
  | nil => simpa [run] using refl s
  | cons a as ih =>
    unfold run
    split
    · split
      next t turn =>
        have above : R s t := up a s t (.inl turn)
        have rest := pairwise_cons.mp (ih (next t))
        have all : ∀ u ∈ (run within body next as (next t)).attempts ++
            [(run within body next as (next t)).final], R t u :=
          fun u hu => trans _ _ _ (forward t) (rest.1 u hu)
        refine pairwise_cons.mpr ⟨?_, pairwise_cons.mpr ⟨all, rest.2⟩⟩
        exact forall_mem_cons.mpr ⟨above, fun u hu => trans _ _ _ above (all u hu)⟩
      next t turn =>
        have above : R s t := up a s t (.inr (.inl turn))
        simpa using ⟨above, refl t⟩
      next t turn =>
        have above : R s t := up a s t (.inr (.inr turn))
        simpa using above
    · simpa using refl s

/-- Attempts that are known in advance: from a state that stands before `plan`, each pass makes the
first attempt of the plan, and when none is left the loop ends. -/
theorem run_eq {P : List β → σ → Prop} {ok : α → Prop}
    (again : ∀ a s b plan, ok a → P (b :: plan) s →
      within s = true ∧ ∃ t, body a s = .again t ∧ Made t b ∧ P plan (next t))
    (stop : ∀ a s, ok a → P [] s → within s = true → ∃ t, body a s = .stop t)
    (inputs : ∀ a ∈ as, ok a) (long : plan.length < as.length) (start : P plan s) :
    List.Forall₂ Made (run within body next as s).attempts plan ∧
      (run within body next as s).finished = true := by
  induction as generalizing s plan with
  | nil => exact absurd long (Nat.not_lt_zero _)
  | cons a as ih =>
    have first := inputs a mem_cons_self
    have rest := fun b hb => inputs b (mem_cons_of_mem a hb)
    unfold run
    cases plan with
    | nil =>
      split
      next inside =>
        obtain ⟨t, turn⟩ := stop a s first start inside
        simp [turn]
      · exact ⟨.nil, rfl⟩
    | cons b plan =>
      obtain ⟨inside, t, turn, made, before⟩ := again a s b plan first start
      rw [length_cons, length_cons, Nat.add_lt_add_iff_right] at long
      obtain ⟨attempts, finished⟩ := ih rest long before
      simp only [inside, if_true, turn]
      exact ⟨.cons made attempts, finished⟩

end Retrying
