import Mathlib.Data.List.Dedup
import Mathlib.Data.List.Sort

/-! The distinct values of a list from the greatest to the least, and the value that a number stands
for among them: 0 for the greatest, and every number beyond the last for the least. -/

namespace Levels

open List

variable {α : Type*} [LinearOrder α]

def descending (l : List α) : List α := l.dedup.mergeSort fun a b => b ≤ a

def level (l : List α) (n : ℕ) : Option α :=
  (descending l)[min n ((descending l).length - 1)]?

theorem descending_perm (l : List α) : (descending l).Perm l.dedup := mergeSort_perm _ _

theorem mem_descending {l : List α} : a ∈ descending l ↔ a ∈ l := by
  rw [(descending_perm l).mem_iff, mem_dedup]

theorem descending_falling (l : List α) : (descending l).Pairwise fun a b => b < a := by
  have merged : (descending l).Pairwise fun a b => decide (b ≤ a) = true :=
    pairwise_mergeSort
      (fun a b c hab hbc => by
        simp only [decide_eq_true_eq] at *
        exact le_trans hbc hab)
      (fun a b => by
        simp only [Bool.or_eq_true, decide_eq_true_eq]
        exact le_total b a) _
  have apart : (descending l).Nodup := (descending_perm l).nodup_iff.mpr (nodup_dedup l)
  exact (merged.and apart).imp fun h => lt_of_le_of_ne (by simpa using h.1) (Ne.symm h.2)

theorem descending_of_falling {l : List α} (falling : l.Pairwise fun a b => b < a) :
    descending l = l := by
  have distinct : l.dedup = l := dedup_eq_self.mpr (falling.imp fun lt => (ne_of_lt lt).symm)
  rw [descending, distinct]
  exact mergeSort_of_pairwise (falling.imp fun lt => by simpa using le_of_lt lt)

theorem length_descending_pos {l : List α} (nonempty : l ≠ []) : 0 < (descending l).length := by
  obtain ⟨a, ha⟩ := exists_mem_of_ne_nil l nonempty
  exact length_pos_of_mem (mem_descending.mpr ha)

theorem descending_congr {l l' : List α} (same : ∀ a, a ∈ l ↔ a ∈ l') :
    descending l = descending l' := by
  have perm : (descending l).Perm (descending l') := by
    refine (descending_perm l).trans (.trans ?_ (descending_perm l').symm)
    rw [perm_ext_iff_of_nodup (nodup_dedup l) (nodup_dedup l')]
    simpa only [mem_dedup] using same
  exact perm.eq_of_pairwise (fun a b _ _ h h' => absurd h (lt_asymm h')) (descending_falling l)
    (descending_falling l')

theorem level_congr {l l' : List α} (same : ∀ a, a ∈ l ↔ a ∈ l') (n : ℕ) :
    level l n = level l' n := by
  rw [level, level, descending_congr same]

theorem exists_level {l : List α} (nonempty : l ≠ []) (n : ℕ) : ∃ a, level l n = some a := by
  have positive := length_descending_pos nonempty
  exact ⟨_, getElem?_eq_getElem (by omega)⟩

theorem mem_of_level {l : List α} {n : ℕ} (h : level l n = some a) : a ∈ l :=
  mem_descending.mp (mem_of_getElem? h)

theorem exists_mem_level {β : Type*} (key : β → α) {l : List β} (nonempty : l ≠ []) (n : ℕ) :
    ∃ b ∈ l, level (l.map key) n = some (key b) := by
  obtain ⟨a, here⟩ := exists_level (show l.map key ≠ [] by simpa using nonempty) n
  obtain ⟨b, mem, rfl⟩ := mem_map.mp (mem_of_level here)
  exact ⟨b, mem, here⟩

theorem countP_falling {l : List α} (falling : l.Pairwise fun a b => b < a)
    (place : l[n]? = some a) : l.countP (a < ·) = n := by
  induction l generalizing n with
  | nil => simp at place
  | cons b l ih =>
    obtain ⟨greatest, falling⟩ := pairwise_cons.mp falling
    cases n with
    | zero =>
      obtain rfl : b = a := by simpa using place
      rw [countP_eq_zero]
      intro c hc
      rcases mem_cons.mp hc with rfl | later
      · simp
      · simpa using le_of_lt (greatest c later)
    | succ n =>
      rw [getElem?_cons_succ] at place
      have before := greatest a (mem_of_getElem? place)
      rw [countP_cons_of_pos (by simpa using before), ih falling place]

theorem level_rank {l : List α} (h : level l n = some a) :
    l.dedup.countP (a < ·) = min n (l.dedup.length - 1) := by
  have perm := descending_perm l
  rw [← perm.countP_eq, ← perm.length_eq]
  exact countP_falling (descending_falling l) h

end Levels
