import Mathlib.Algebra.BigOperators.Group.List.Basic
import Mathlib.Algebra.Order.Group.Nat
import Mathlib.Algebra.Ring.Nat
import Mathlib.Data.Nat.Count

/-! A choice by weight.  `scan` walks a list and takes the weight of each entry from a number that
was drawn below the total; the entry at which the number runs out is chosen.  `scanLax` goes one
draw further at every entry, as a loop does that compares with `≤ 0` where `< 0` is meant. -/

namespace Weighted

open List Nat

variable {α : Type*} (w : α → ℕ)

def total (l : List α) : ℕ := (l.map w).sum

def scan : List α → ℕ → Option α
  | [], _ => none
  | a :: l, r => if r < w a then some a else scan l (r - w a)

def scanLax : List α → ℕ → Option α
  | [], _ => none
  | a :: l, r => if r ≤ w a then some a else scanLax l (r - w a)

variable {w}

@[simp] theorem total_nil : total w [] = 0 := rfl

@[simp] theorem total_cons : total w (a :: l) = w a + total w l := rfl

theorem total_eq_zero_iff : total w l = 0 ↔ ∀ a ∈ l, w a = 0 := by
  induction l with
  | nil => simp
  | cons b l ih => simp [ih]

theorem le_total_of_mem (h : a ∈ l) : w a ≤ total w l := by
  induction l with
  | nil => cases h
  | cons b l ih =>
    rw [total_cons]
    rcases mem_cons.mp h with rfl | later
    · omega
    · have := ih later
      omega

theorem scan_mem (h : scan w l r = some a) : a ∈ l := by
  induction l generalizing r with
  | nil => cases h
  | cons b l ih =>
    unfold scan at h
    split at h
    · cases h
      exact mem_cons_self
    · exact mem_cons_of_mem _ (ih h)

theorem scan_isSome (h : r < total w l) : ∃ a, scan w l r = some a := by
  induction l generalizing r with
  | nil => exact absurd h (not_lt_zero r)
  | cons b l ih =>
    unfold scan
    split
    · exact ⟨b, rfl⟩
    · rw [total_cons] at h
      exact ih (by omega)

theorem exists_scan (mem : a ∈ l) (positive : 0 < w a) : ∃ r < total w l, scan w l r = some a := by
  induction l with
  | nil => cases mem
  | cons b l ih =>
    rcases mem_cons.mp mem with rfl | later
    · exact ⟨0, by rw [total_cons]; omega, by rw [scan, if_pos positive]⟩
    · obtain ⟨r, below, chosen⟩ := ih later
      refine ⟨w b + r, by rw [total_cons]; omega, ?_⟩
      rw [scan, if_neg (by omega), Nat.add_sub_cancel_left, chosen]

theorem scan_positive (h : scan w l r = some a) : 0 < w a := by
  induction l generalizing r with
  | nil => cases h
  | cons b l ih =>
    unfold scan at h
    split at h
    · cases h
      omega
    · exact ih h

theorem count_scan [DecidableEq α] (l : List α) (a : α) :
    Nat.count (fun r => scan w l r = some a) (total w l) = l.count a * w a := by
  induction l with
  | nil => simp
  | cons b l ih =>
    have own : Nat.count (fun r => scan w (b :: l) r = some a) (w b) =
        if b = a then w b else 0 := by
      have first : ∀ r < w b, (scan w (b :: l) r = some a ↔ b = a) := by
        intro r below
        rw [scan, if_pos below, Option.some.injEq]
      split
      next same =>
        rw [Nat.count_iff_forall]
        exact fun r below => (first r below).mpr same
      next other =>
        rw [Nat.count_iff_forall_not]
        exact fun r below chosen => other ((first r below).mp chosen)
    have rest : (fun r => scan w (b :: l) (w b + r) = some a) = fun r => scan w l r = some a := by
      funext r
      rw [scan, if_neg (by omega), Nat.add_sub_cancel_left]
    rw [total_cons, Nat.count_add, own]
    simp only [rest, ih, count_cons, beq_iff_eq]
    split
    next same => rw [same, Nat.add_mul, Nat.one_mul, Nat.add_comm]
    · rw [Nat.zero_add, Nat.add_zero]

theorem count_congr [DecidablePred p] [DecidablePred q] (h : ∀ r < n, p r ↔ q r) :
    count p n = count q n :=
  le_antisymm (count_mono_left fun r below => (h r below).mp)
    (count_mono_left fun r below => (h r below).mpr)

theorem scanLax_succ (l : List α) (r : ℕ) : scanLax w l (r + 1) = scan w l r := by
  induction l generalizing r with
  | nil => rfl
  | cons b l ih =>
    rw [scanLax, scan]
    by_cases below : r < w b
    · rw [if_pos (by omega), if_pos below]
    · rw [if_neg (by omega), if_neg below, ← ih, show r + 1 - w b = r - w b + 1 by omega]

theorem scanLax_zero (l : List α) : scanLax w l 0 = l.head? := by
  cases l with
  | nil => rfl
  | cons b l => rw [scanLax, if_pos (zero_le _), head?_cons]

theorem scanLax_mem (h : scanLax w l r = some a) : a ∈ l := by
  cases r with
  | zero => exact mem_of_head? (scanLax_zero (w := w) l ▸ h)
  | succ r => exact scan_mem (scanLax_succ (w := w) l r ▸ h)

theorem scanLax_isSome (nonempty : l ≠ []) (h : r < total w l) : ∃ a, scanLax w l r = some a := by
  cases r with
  | zero =>
    rw [scanLax_zero]
    exact ⟨l.head nonempty, head?_eq_some_head nonempty⟩
  | succ r =>
    rw [scanLax_succ]
    exact scan_isSome (by omega)

theorem exists_scanLax (mem : a ∈ l) (large : 1 < w a) :
    ∃ r < total w l, 0 < r ∧ scanLax w l r = some a := by
  induction l with
  | nil => cases mem
  | cons b l ih =>
    rcases mem_cons.mp mem with rfl | later
    · exact ⟨1, by rw [total_cons]; omega, by omega, by rw [scanLax, if_pos (by omega)]⟩
    · obtain ⟨r, below, positive, chosen⟩ := ih later
      refine ⟨w b + r, by rw [total_cons]; omega, by omega, ?_⟩
      rw [scanLax, if_neg (by omega), Nat.add_sub_cancel_left, chosen]

theorem scan_last (nonempty : l ≠ []) (positive : ∀ b ∈ l, 0 < w b) :
    scan w l (total w l - 1) = l.getLast? := by
  induction l with
  | nil => exact absurd rfl nonempty
  | cons b l ih =>
    have first := positive b mem_cons_self
    cases l with
    | nil =>
      rw [total_cons, scan, if_pos (by simp; omega)]
      rfl
    | cons c rest =>
      have later : 0 < total w (c :: rest) := by
        have := positive c (by simp)
        rw [total_cons]
        omega
      rw [total_cons, scan, if_neg (by omega),
        show w b + total w (c :: rest) - 1 - w b = total w (c :: rest) - 1 by omega,
        ih (by simp) fun d hd => positive d (mem_cons_of_mem _ hd), getLast?_cons_cons]

theorem count_scanLax [DecidableEq α] (nonempty : l ≠ []) (positive : ∀ b ∈ l, 0 < w b) (a : α) :
    Nat.count (fun r => scanLax w l r = some a) (total w l) +
        (if l.getLast? = some a then 1 else 0) =
      l.count a * w a + (if l.head? = some a then 1 else 0) := by
  obtain ⟨b, rest, rfl⟩ := exists_cons_of_ne_nil nonempty
  obtain ⟨n, size⟩ : ∃ n, total w (b :: rest) = n + 1 := by
    have := positive b mem_cons_self
    exact ⟨w b + total w rest - 1, by rw [total_cons]; omega⟩
  have strict := count_scan (w := w) (b :: rest) a
  have last := scan_last nonempty positive
  rw [size, Nat.add_sub_cancel] at last
  rw [size, Nat.count_succ, last] at strict
  rw [size, Nat.count_succ', scanLax_zero]
  simp only [scanLax_succ]
  omega

end Weighted
