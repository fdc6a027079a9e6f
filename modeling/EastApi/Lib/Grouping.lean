import Mathlib.Data.List.Perm.Basic

/-! Maps from a key to the list of the values that were appended under it, kept as their entries:
what `m[k] = append(m[k], v)` builds in Go.  `pairs` flattens such a map again, and `pairs_collect`
says that nothing is lost and nothing is added, in whatever order the entries are visited. -/

namespace Grouping

open List

variable {κ α β : Type*} [DecidableEq κ]

def push (k : κ) (v : α) : List (κ × List α) → List (κ × List α)
  | [] => [(k, [v])]
  | (k', vs) :: rest => if k' = k then (k', vs ++ [v]) :: rest else (k', vs) :: push k v rest

omit [DecidableEq κ] in
def pairs (m : List (κ × List α)) : List (κ × α) := m.flatMap fun e => e.2.map fun v => (e.1, v)

theorem pairs_push (k : κ) (v : α) (m : List (κ × List α)) :
    (pairs (push k v m)).Perm ((k, v) :: pairs m) := by
  induction m with
  | nil => simp [push, pairs]
  | cons e rest ih =>
    obtain ⟨k', vs⟩ := e
    simp only [push]
    split
    next same =>
      subst same
      simp only [pairs, flatMap_cons, map_append, map_cons, map_nil,
        append_assoc, singleton_append]
      exact perm_middle
    · simp only [pairs, flatMap_cons]
      exact ((ih.append_left _).trans perm_middle)

theorem ne_nil_of_mem_push {k : κ} {v : α} (h : ∀ e ∈ m, e.2 ≠ []) :
    ∀ e ∈ push k v m, e.2 ≠ [] := by
  induction m with
  | nil => simp [push]
  | cons e rest ih =>
    have hrest := ih fun e' he' => h e' (by simp [he'])
    simp only [push]
    split
    · intro e' he'
      rcases mem_cons.mp he' with rfl | old
      · simp
      · exact h e' (by simp [old])
    · intro e' he'
      rcases mem_cons.mp he' with rfl | new
      · exact h _ (by simp)
      · exact hrest e' new

def collect (key : β → κ) (value : β → α) (l : List β) (m : List (κ × List α)) :
    List (κ × List α) :=
  l.foldl (fun m b => push (key b) (value b) m) m

theorem pairs_collect (key : β → κ) (value : β → α) (l : List β) (m : List (κ × List α)) :
    (pairs (collect key value l m)).Perm (pairs m ++ l.map fun b => (key b, value b)) := by
  induction l generalizing m with
  | nil => simp [collect]
  | cons b l ih =>
    calc (pairs (collect key value (b :: l) m)).Perm
          (pairs (push (key b) (value b) m) ++ l.map fun b => (key b, value b)) := ih _
      List.Perm _ ((key b, value b) :: pairs m ++ l.map fun b => (key b, value b)) :=
        (pairs_push _ _ _).append_right _
      List.Perm _ (pairs m ++ (b :: l).map fun b => (key b, value b)) := perm_middle.symm

theorem ne_nil_of_mem_collect {key : β → κ} {value : β → α} {l : List β}
    (h : e ∈ collect key value l []) : e.2 ≠ [] := by
  have keep : ∀ (l : List β) (m : List (κ × List α)), (∀ e ∈ m, e.2 ≠ []) →
      ∀ e ∈ collect key value l m, e.2 ≠ [] := by
    intro l
    induction l with
    | nil => exact fun m hm => hm
    | cons b l ih => exact fun m hm => ih _ (ne_nil_of_mem_push hm)
  exact keep l [] (by simp) e h

omit [DecidableEq κ] in
theorem mem_pairs : (k, v) ∈ pairs m ↔ ∃ e ∈ m, e.1 = k ∧ v ∈ e.2 := by
  simp only [pairs, mem_flatMap, mem_map, Prod.mk.injEq]
  constructor
  · rintro ⟨e, he, w, hw, rfl, rfl⟩
    exact ⟨e, he, rfl, hw⟩
  · rintro ⟨e, he, rfl, hv⟩
    exact ⟨e, he, v, hv, rfl, rfl⟩

omit [DecidableEq κ] in
theorem pairs_perm (h : order.Perm m) : (pairs order).Perm (pairs m) := h.flatMap_right _

end Grouping
