import Mathlib.Data.List.Basic

/-! Runs of a system whose step function takes a label and fails when the label is not enabled.
`Path ok` is the relation of the runs whose every label meets `ok` in the state before it, and
`Path.invariant` is the rule that all invariants of such runs are proved by. -/

namespace Run

variable {σ α : Type*}

def exec (step : σ → α → Option σ) : σ → List α → Option σ
  | s, [] => some s
  | s, a :: as => (step s a).bind fun t => exec step t as

/-- The labels `as` lead from `s` to `t`, and each of them meets `ok` in the state before it. -/
inductive Path (ok : σ → α → Prop) (step : σ → α → Option σ) : σ → List α → σ → Prop
  | nil (s : σ) : Path ok step s [] s
  | cons {s t u : σ} {a : α} {as : List α} : ok s a → step s a = some t →
      Path ok step t as u → Path ok step s (a :: as) u

/-- The runs with no condition on their labels. -/
abbrev Free (step : σ → α → Option σ) : σ → List α → σ → Prop := Path (fun _ _ => True) step

variable {s t : σ} {as : List α} {I : σ → Prop}

/-- A property that every admitted step keeps holds at the end of every admitted run. -/
theorem Path.invariant (path : Path ok step s as t)
    (keep : ∀ s a t, I s → ok s a → step s a = some t → I t) (start : I s) : I t := by
  induction path with
  | nil => exact start
  | cons hok hstep _ ih => exact ih (keep _ _ _ start hok hstep)

/-- A relation to a second system, which takes every label, that every admitted step keeps holds
at the end of every admitted run. -/
theorem Path.simulate {δ : Type*} (path : Path ok step s as t) {R : σ → δ → Prop} {f : δ → α → δ}
    (keep : ∀ s a t d, R s d → ok s a → step s a = some t → R t (f d a)) {d : δ} (start : R s d) :
    R t (as.foldl f d) := by
  induction path generalizing d with
  | nil => exact start
  | cons hok hstep _ ih => exact ih (keep _ _ _ _ start hok hstep)

/-- A run, with what follows from it for the state that it ends in. -/
theorem Path.exists_and {P : σ → Prop} (path : Path ok step s as t)
    (holds : Path ok step s as t → P t) : ∃ t, Path ok step s as t ∧ P t :=
  ⟨t, path, holds path⟩

theorem Path.append (first : Path ok step s as t) (rest : Path ok step t bs u) :
    Path ok step s (as ++ bs) u := by
  induction first with
  | nil => exact rest
  | cons hok hstep _ ih => exact .cons hok hstep (ih rest)

theorem Path.mono (path : Path ok step s as t) (weaker : ∀ s a, ok s a → ok' s a) :
    Path ok' step s as t := by
  induction path with
  | nil => exact .nil _
  | cons hok hstep _ ih => exact .cons (weaker _ _ hok) hstep ih

theorem Path.of_exec {p : α → Prop} (h : exec step s as = some t) (hp : ∀ a ∈ as, p a) :
    Path (fun _ a => p a) step s as t := by
  induction as generalizing s with
  | nil =>
    obtain rfl : s = t := by simpa [exec] using h
    exact .nil s
  | cons a as ih =>
    obtain ⟨u, hu, hrest⟩ := Option.bind_eq_some_iff.mp h
    exact .cons (hp a (by simp)) hu (ih hrest fun b hb => hp b (by simp [hb]))

section
variable {ι : Type*} {f : σ → ι → Option σ} (l : List ι)
  (keep : ∀ i ∈ l, ∀ s t, I s → f s i = some t → I t)
include keep

theorem foldlM_invariant (start : I s) (run : l.foldlM f s = some t) : I t := by
  induction l generalizing s with
  | nil => cases run; exact start
  | cons i l ih =>
    rw [List.foldlM_cons] at run
    obtain ⟨mid, first, rest⟩ := Option.bind_eq_some_iff.mp run
    exact ih (fun j hj => keep j (by simp [hj])) (keep i (by simp) s mid start first) rest

theorem foldlM_isSome_iff {P : ι → Prop}
    (decides : ∀ i ∈ l, ∀ s, I s → ((f s i).isSome = true ↔ P i)) (start : I s) :
    (l.foldlM f s).isSome = true ↔ ∀ i ∈ l, P i := by
  induction l generalizing s with
  | nil => simp
  | cons i l ih =>
    have first := decides i (by simp) s start
    rw [List.foldlM_cons, List.forall_mem_cons, ← first]
    cases run : f s i with
    | none => simp
    | some t =>
      have rest := ih (fun j hj => keep j (by simp [hj])) (fun j hj => decides j (by simp [hj]))
        (keep i (by simp) s t start run)
      simpa using rest

end

/-- What a party holds after a party has moved: either that party's new part, or its own part from
before. -/
theorem of_update_eq {ω β : Type*} [DecidableEq ω] {f : ω → β} {w v : ω} {x y : β}
    (h : Function.update f w x v = y) : (v = w ∧ x = y) ∨ (v ≠ w ∧ f v = y) := by
  by_cases own : v = w
  · subst own
    exact .inl ⟨rfl, by simpa using h⟩
  · rw [Function.update_of_ne own] at h
    exact .inr ⟨own, h⟩

end Run
