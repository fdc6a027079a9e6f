import Mathlib.Data.List.Nodup

/-! A table of rows with a primary key.  A `Table` carries the proof that its keys are distinct, and
every statement on it is a function between tables: `update`, `delete` and `insertIgnore`, the
`INSERT … ON CONFLICT DO NOTHING`.  The lemmas say which rows a table has afterwards. -/

universe u v

structure Table {α : Type u} {κ : Type v} (key : α → κ) where
  rows : List α
  nodup : (rows.map key).Nodup

namespace Table

open List

variable {α : Type u} {κ : Type v} {key : α → κ}

instance instMembership : Membership α (Table key) := ⟨fun t a => a ∈ t.rows⟩

variable {t : Table key} {a : α}

theorem mem_rows : a ∈ t ↔ a ∈ t.rows := Iff.rfl

variable {b : α}

theorem eq_of_key (ha : a ∈ t) (hb : b ∈ t) (h : key a = key b) :
    a = b := inj_on_of_nodup_map t.nodup ha hb h

def empty : Table key := ⟨[], by simp⟩

def find [DecidableEq κ] (t : Table key) (k : κ) : Option α := t.rows.find? (key · = k)

theorem find_eq_some [DecidableEq κ] : t.find k = some a ↔ a ∈ t ∧ key a = k := by
  constructor
  · intro h
    exact ⟨mem_of_find?_eq_some h, by simpa using find?_some h⟩
  · rintro ⟨ha, rfl⟩
    cases found : t.find (key a) with
    | none => simpa using find?_eq_none.mp found a ha
    | some b =>
      have hb : b ∈ t ∧ key b = key a :=
        ⟨mem_of_find?_eq_some found, by simpa using find?_some found⟩
      rw [eq_of_key hb.1 ha hb.2]

theorem find_eq_none [DecidableEq κ] : t.find k = none ↔ ∀ a ∈ t, key a ≠ k := by
  simp [find, find?_eq_none, mem_rows]

def update (t : Table key) (f : α → α) (keeps : ∀ a, key (f a) = key a) : Table key where
  rows := t.rows.map f
  nodup := by
    have same : key ∘ f = key := funext keeps
    rw [map_map, same]
    exact t.nodup

variable {f : α → α}

theorem mem_update : a ∈ t.update f keeps ↔ ∃ b ∈ t, f b = a := mem_map

theorem mem_update_of_fixed (fixed : ∀ b ∈ t, key b = key a → f b = b) :
    a ∈ t.update f keeps ↔ a ∈ t := by
  rw [mem_update]
  constructor
  · rintro ⟨b, hb, rfl⟩
    rwa [fixed b hb (keeps b).symm]
  · intro ha
    exact ⟨a, ha, fixed a ha rfl⟩

theorem find_update [DecidableEq κ] (k : κ) : (t.update f keeps).find k = (t.find k).map f := by
  cases found : t.find k with
  | none =>
    rw [find_eq_none] at found
    rw [Option.map_none, find_eq_none]
    intro a ha
    obtain ⟨b, hb, rfl⟩ := mem_update.mp ha
    rw [keeps]
    exact found b hb
  | some a =>
    obtain ⟨ha, same⟩ := find_eq_some.mp found
    exact find_eq_some.mpr ⟨mem_update.mpr ⟨a, ha, rfl⟩, (keeps a).trans same⟩

def delete (t : Table key) (p : α → Bool) : Table key where
  rows := t.rows.filter fun a => !p a
  nodup := (List.Sublist.map key filter_sublist).nodup t.nodup

theorem mem_delete : a ∈ t.delete p ↔ a ∈ t ∧ p a = false := by
  simp [delete, mem_rows, mem_filter]

def insertIgnore [DecidableEq κ] (t : Table key) (a : α) : Table key :=
  if fresh : key a ∈ t.rows.map key then t
  else ⟨t.rows ++ [a], by
    rw [map_append, nodup_append]
    refine ⟨t.nodup, by simp, ?_⟩
    rintro k hk k' hk' rfl
    obtain rfl : k = key a := by simpa using hk'
    exact fresh hk⟩

theorem mem_insertIgnore [DecidableEq κ] :
    b ∈ t.insertIgnore a ↔ b ∈ t ∨ (b = a ∧ ∀ c ∈ t, key c ≠ key a) := by
  unfold insertIgnore
  split
  next present =>
    obtain ⟨c, hc, same⟩ := mem_map.mp present
    exact ⟨.inl, fun h => h.resolve_right fun h => h.2 c hc same⟩
  next fresh =>
    have free : ∀ c ∈ t, key c ≠ key a := fun c hc same =>
      fresh (mem_map.mpr ⟨c, hc, same⟩)
    simp only [mem_rows, mem_append, mem_singleton]
    exact or_congr_right ⟨fun h => ⟨h, free⟩, And.left⟩

def insertAll [DecidableEq κ] (t : Table key) (l : List α) : Table key := l.foldl insertIgnore t

variable {l : List α}

theorem mem_insertAll [DecidableEq κ] (apart : (l.map key).Nodup)
    (fresh : ∀ a ∈ l, ∀ c ∈ t, key c ≠ key a) :
    b ∈ t.insertAll l ↔ b ∈ t ∨ b ∈ l := by
  induction l generalizing t with
  | nil => simp [insertAll]
  | cons a l ih =>
    rw [map_cons, nodup_cons] at apart
    have first : ∀ c, c ∈ t.insertIgnore a ↔ c ∈ t ∨ c = a := by
      intro c
      rw [mem_insertIgnore]
      exact or_congr_right ⟨And.left, fun h => ⟨h, fresh a (by simp)⟩⟩
    have rest : ∀ x ∈ l, ∀ c ∈ t.insertIgnore a, key c ≠ key x := by
      intro x hx c hc same
      rcases (first c).mp hc with old | rfl
      · exact fresh x (by simp [hx]) c old same
      · exact apart.1 (mem_map.mpr ⟨x, hx, same.symm⟩)
    rw [show t.insertAll (a :: l) = (t.insertIgnore a).insertAll l from rfl, ih apart.2 rest,
      first, mem_cons, or_assoc]

theorem mem_insertAll_of_mem [DecidableEq κ] (h : b ∈ t) :
    b ∈ t.insertAll l := by
  induction l generalizing t with
  | nil => exact h
  | cons a l ih => exact ih (mem_insertIgnore.mpr (.inl h))

theorem exists_key_insertAll [DecidableEq κ] (h : a ∈ l) :
    ∃ b ∈ t.insertAll l, key b = key a := by
  induction l generalizing t with
  | nil => cases h
  | cons x l ih =>
    rcases mem_cons.mp h with rfl | later
    · by_cases present : ∃ c ∈ t, key c = key a
      · obtain ⟨c, hc, same⟩ := present
        exact ⟨c, mem_insertAll_of_mem hc, same⟩
      · have added : a ∈ t.insertIgnore a :=
          mem_insertIgnore.mpr (.inr ⟨rfl, fun c hc same => present ⟨c, hc, same⟩⟩)
        have kept : a ∈ (t.insertIgnore a).insertAll l := mem_insertAll_of_mem added
        exact ⟨a, kept, rfl⟩
    · exact ih later

end Table
