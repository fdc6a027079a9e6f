import Mathlib.Data.List.Basic

/-! Go functions with an error result that may panic, and their loops.  A loop whose body does not
panic in any state it reaches does not panic; where the end of the body is decided by the element,
`foldlM_panicked_iff` tells for which lists the loop panics. -/

universe u v w

namespace Go

open List

inductive Result (ε : Type v) (α : Type u)
  | ok (a : α)
  | error (e : ε)
  | panicked

namespace Result

variable {ε : Type v} {α β σ : Type u} {ι : Type w}

protected def bind : Result ε α → (α → Result ε β) → Result ε β
  | ok a, f => f a
  | error e, _ => error e
  | panicked, _ => panicked

instance instMonad : Monad (Result ε) where
  pure := ok
  bind := Result.bind

/-- A type assertion, a dereference or an index: it panics if there is no value. -/
def ofOption : Option α → Result ε α
  | some a => ok a
  | none => panicked

@[simp] theorem pure_eq (a : α) : (pure a : Result ε α) = ok a := rfl

@[simp] theorem ok_bind (a : α) (f : α → Result ε β) : (ok a >>= f) = f a := rfl

@[simp] theorem error_bind (e : ε) (f : α → Result ε β) : (error e >>= f) = error e := rfl

@[simp] theorem panicked_bind (f : α → Result ε β) : (panicked >>= f) = panicked := rfl

@[simp] theorem ofOption_panicked_iff : (ofOption o : Result ε α) = panicked ↔ o = none := by
  cases o <;> simp [ofOption]

theorem bind_panicked_iff :
    (x >>= f) = panicked ↔ x = panicked ∨ ∃ a, x = ok a ∧ f a = panicked := by
  cases x <;> simp

theorem bind_ok_iff : (x >>= f) = ok b ↔ ∃ a, x = ok a ∧ f a = ok b := by
  cases x <;> simp

theorem exists_ok (calm : x ≠ panicked) (right : ∀ e, x ≠ error e) : ∃ a, x = ok a := by
  cases x with
  | ok a => exact ⟨a, rfl⟩
  | error e => exact absurd rfl (right e)
  | panicked => exact absurd rfl calm

/-- A loop whose body never fails: `I` is indexed by the elements that it has come past. -/
theorem foldlM_total (I : List ι → σ → Prop) (start : I [] s)
    (step : ∀ before i after s, l = before ++ i :: after → I before s →
      ∃ t, f s i = ok t ∧ I (before ++ [i]) t) : ∃ t, l.foldlM f s = ok t ∧ I l t := by
  have rest (after : List ι) : ∀ before s, l = before ++ after → I before s →
      ∃ t, after.foldlM f s = ok t ∧ I l t := by
    induction after with
    | nil =>
      intro before s same kept
      rw [append_nil] at same
      exact ⟨s, rfl, same ▸ kept⟩
    | cons i after ih =>
      intro before s same kept
      obtain ⟨t, done, kept⟩ := step before i after s same kept
      rw [foldlM_cons, done]
      exact ih (before ++ [i]) t (by simp [same]) kept
  exact rest l [] s rfl start

theorem foldlM_ne_panicked {I : σ → Prop} (l : List ι)
    (keep : ∀ i ∈ l, ∀ s t, I s → f s i = ok t → I t)
    (safe : ∀ i ∈ l, ∀ s, I s → f s i ≠ panicked) (start : I s) : l.foldlM f s ≠ panicked := by
  induction l generalizing s with
  | nil => simp
  | cons i l ih =>
    rw [foldlM_cons]
    cases step : f s i with
    | ok u =>
      exact ih (fun j hj => keep j (mem_cons_of_mem _ hj))
        (fun j hj => safe j (mem_cons_of_mem _ hj))
        (keep i mem_cons_self s u start step)
    | error e => simp
    | panicked => exact absurd step (safe i mem_cons_self s start)

/-- A loop panics exactly if it comes to an element that panics: `Bad` decides which elements panic
and `Wrong` which of them end the loop with an error. -/
theorem foldlM_panicked_iff {Bad Wrong : ι → Prop} (l : List ι)
    (bad : ∀ i ∈ l, ∀ s, f s i = panicked ↔ Bad i)
    (wrong : ∀ i ∈ l, ∀ s, (∃ e, f s i = error e) ↔ Wrong i) (s : σ) :
    l.foldlM f s = panicked ↔
      ∃ before i after, l = before ++ i :: after ∧ Bad i ∧ ∀ j ∈ before, ¬ Wrong j := by
  induction l generalizing s with
  | nil => simp
  | cons i l ih =>
    have rest := ih (fun j hj => bad j (mem_cons_of_mem _ hj))
      (fun j hj => wrong j (mem_cons_of_mem _ hj))
    have bad := bad i mem_cons_self s
    have wrong := wrong i mem_cons_self s
    rw [foldlM_cons]
    -- the list is split before its head, or later
    have split : (∃ before j after, i :: l = before ++ j :: after ∧ Bad j ∧
        ∀ k ∈ before, ¬ Wrong k) ↔ Bad i ∨ ¬ Wrong i ∧ ∃ before j after,
          l = before ++ j :: after ∧ Bad j ∧ ∀ k ∈ before, ¬ Wrong k := by
      constructor
      · rintro ⟨before, j, after, same, bad, fine⟩
        cases before with
        | nil =>
          obtain ⟨rfl, -⟩ := cons.inj same
          exact .inl bad
        | cons k before =>
          obtain ⟨rfl, rest⟩ := cons.inj same
          exact .inr ⟨fine i mem_cons_self, before, j, after, rest, bad,
            fun k hk => fine k (mem_cons_of_mem _ hk)⟩
      · rintro (bad | ⟨head, before, j, after, rfl, bad, fine⟩)
        · exact ⟨[], i, l, rfl, bad, nofun⟩
        · exact ⟨i :: before, j, after, rfl, bad, forall_mem_cons.mpr ⟨head, fine⟩⟩
    rw [split]
    cases step : f s i with
    | ok u =>
      rw [step] at bad wrong
      have fine : ¬ Wrong i := fun h => by simpa using wrong.mpr h
      have good : ¬ Bad i := fun h => nomatch bad.mpr h
      simp [rest u, fine, good]
    | error e =>
      rw [step] at bad wrong
      have ends : Wrong i := wrong.mp ⟨e, rfl⟩
      have good : ¬ Bad i := fun h => nomatch bad.mpr h
      simp [ends, good]
    | panicked =>
      rw [step] at bad
      simp [bad.mp rfl]

theorem foldlM_panicked_iff_mem {Bad : ι → Prop} (l : List ι)
    (bad : ∀ i ∈ l, ∀ s, f s i = panicked ↔ Bad i) (right : ∀ i ∈ l, ∀ s e, f s i ≠ error e)
    (s : σ) : l.foldlM f s = panicked ↔ ∃ i ∈ l, Bad i := by
  have never : ∀ i ∈ l, ∀ s, (∃ e, f s i = error e) ↔ (fun _ => False) i :=
    fun i hi s => iff_of_false (fun ⟨e, wrong⟩ => right i hi s e wrong) id
  rw [foldlM_panicked_iff l bad never s]
  constructor
  · rintro ⟨before, i, after, rfl, bad, -⟩
    exact ⟨i, by simp, bad⟩
  · rintro ⟨i, member, panics⟩
    obtain ⟨before, after, rfl⟩ := append_of_mem member
    exact ⟨before, i, after, rfl, panics, fun _ _ => id⟩

theorem foldlM_ne_error (l : List ι) (right : ∀ i ∈ l, ∀ s e, f s i ≠ error e) (s : σ) (e : ε) :
    l.foldlM f s ≠ error e := by
  induction l generalizing s with
  | nil => simp
  | cons i l ih =>
    rw [foldlM_cons]
    cases step : f s i with
    | ok u => exact ih (fun j hj => right j (mem_cons_of_mem _ hj)) u
    | error e' => exact absurd step (right i mem_cons_self s e')
    | panicked => simp

end Result

end Go
