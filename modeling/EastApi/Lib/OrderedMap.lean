import Mathlib.Data.List.Basic
import Mathlib.Order.Lattice

/-! Finite maps as lists of entries with rising keys.  The list is determined by the values at the
keys, so that equal maps are equal as terms. -/

universe u v

structure OrderedMap (κ : Type u) (β : Type v) [LinearOrder κ] where
  entries : List (κ × β)
  rising : entries.Pairwise fun a b => a.1 < b.1

namespace OrderedMap

open List

variable {κ : Type u} {β : Type v} [LinearOrder κ]

def valueAt (k : κ) : List (κ × β) → Option β
  | [] => none
  | e :: l => if k = e.1 then some e.2 else valueAt k l

def set (k : κ) (b : β) : List (κ × β) → List (κ × β)
  | [] => [(k, b)]
  | e :: l => if k < e.1 then (k, b) :: e :: l else if k = e.1 then (k, b) :: l else e :: set k b l

variable {k : κ} {l : List (κ × β)}

theorem valueAt_eq_none :
    valueAt k l = none ↔ ∀ e ∈ l, k ≠ e.1 := by
  induction l with
  | nil => simp [valueAt]
  | cons e l ih =>
    rw [valueAt, forall_mem_cons]
    split
    · simp_all
    next other => simp [other, ih]

theorem valueAt_set (k k' : κ) (b : β) (l : List (κ × β)) :
    valueAt k' (set k b l) = if k' = k then some b else valueAt k' l := by
  induction l with
  | nil => rfl
  | cons e l ih =>
    rw [set]
    split
    · rfl
    · split
      next same =>
        simp only [valueAt, ← same]
        split <;> rfl
      next other =>
        simp only [valueAt, ih]
        by_cases head : k' = e.1
        · simp [head, Ne.symm other]
        · simp [head]

variable {b : β} {e : κ × β}

theorem mem_set (member : e ∈ set k b l) :
    e = (k, b) ∨ e ∈ l := by
  induction l with
  | nil => simpa [set] using member
  | cons d l ih =>
    rw [set] at member
    split at member
    · simpa using member
    · split at member
      · rcases mem_cons.mp member with rfl | tail
        · exact Or.inl rfl
        · exact Or.inr (mem_cons_of_mem _ tail)
      · rcases mem_cons.mp member with rfl | tail
        · exact Or.inr mem_cons_self
        · exact (ih tail).imp_right (mem_cons_of_mem _)

theorem rising_set (rising : l.Pairwise fun a b => a.1 < b.1) :
    (set k b l).Pairwise fun a b => a.1 < b.1 := by
  induction l with
  | nil => simp [set]
  | cons d l ih =>
    obtain ⟨head, tail⟩ := pairwise_cons.mp rising
    rw [set]
    split
    next below =>
      refine pairwise_cons.mpr ⟨?_, rising⟩
      intro e member
      rcases mem_cons.mp member with rfl | member
      · exact below
      · exact lt_trans below (head e member)
    · split
      next same =>
        exact pairwise_cons.mpr ⟨fun e member => by simpa [same] using head e member, tail⟩
      next notBelow other =>
        refine pairwise_cons.mpr ⟨fun e member => ?_, ih tail⟩
        rcases mem_set member with rfl | member
        · exact lt_of_le_of_ne (not_lt.mp notBelow) (Ne.symm other)
        · exact head e member

theorem valueAt_of_below (below : ∀ e ∈ l, k < e.1) :
    valueAt k l = none :=
  valueAt_eq_none.mpr fun e member => ne_of_lt (below e member)

theorem eq_of_valueAt (rising : l.Pairwise fun a b => a.1 < b.1)
    (rising' : l'.Pairwise fun a b => a.1 < b.1) (same : ∀ k, valueAt k l = valueAt k l') :
    l = l' := by
  induction l generalizing l' with
  | nil =>
    cases l' with
    | nil => rfl
    | cons e' l' => simpa [valueAt] using same e'.1
  | cons e l ih =>
    cases l' with
    | nil => simpa [valueAt] using same e.1
    | cons e' l' =>
      obtain ⟨head, tail⟩ := pairwise_cons.mp rising
      obtain ⟨head', tail'⟩ := pairwise_cons.mp rising'
      -- neither head is below the other: the other list would not have its key
      have key : e.1 = e'.1 := by
        rcases lt_trichotomy e.1 e'.1 with less | equal | greater
        · have found := same e.1
          rw [valueAt, if_pos rfl, valueAt, if_neg (ne_of_lt less),
            valueAt_of_below fun d member => lt_trans less (head' d member)] at found
          cases found
        · exact equal
        · have found := same e'.1
          rw [valueAt, if_neg (ne_of_lt greater), valueAt, if_pos rfl,
            valueAt_of_below fun d member => lt_trans greater (head d member)] at found
          cases found
      have value : e.2 = e'.2 := by
        have found := same e.1
        rw [valueAt, if_pos rfl, valueAt, if_pos key] at found
        exact Option.some.inj found
      have rest : l = l' := by
        refine ih tail tail' fun k => ?_
        by_cases top : k = e.1
        · rw [valueAt_of_below fun d member => top ▸ head d member,
            valueAt_of_below fun d member => (top.trans key) ▸ head' d member]
        · have found := same k
          rwa [valueAt, if_neg top, valueAt, if_neg fun h => top (h.trans key.symm)] at found
      rw [rest, Prod.ext key value]

def empty : OrderedMap κ β := ⟨[], List.Pairwise.nil⟩

def get (m : OrderedMap κ β) (k : κ) : Option β := valueAt k m.entries

def insert (m : OrderedMap κ β) (k : κ) (b : β) : OrderedMap κ β :=
  ⟨set k b m.entries, rising_set m.rising⟩

def erase (m : OrderedMap κ β) (k : κ) : OrderedMap κ β :=
  ⟨m.entries.filter (·.1 ≠ k), m.rising.filter _⟩

def insertAll (m : OrderedMap κ β) (l : List (κ × β)) : OrderedMap κ β :=
  l.foldl (fun m e => m.insert e.1 e.2) m

variable {m : OrderedMap κ β}

theorem ext_get (same : ∀ k, m.get k = m'.get k) : m = m' := by
  obtain ⟨entries, rising⟩ := m
  obtain ⟨entries', rising'⟩ := m'
  obtain rfl := eq_of_valueAt rising rising' same
  rfl

@[simp] theorem get_empty (k : κ) : (empty : OrderedMap κ β).get k = none := rfl

theorem get_insert (m : OrderedMap κ β) (k k' : κ) (b : β) :
    (m.insert k b).get k' = if k' = k then some b else m.get k' := valueAt_set k k' b m.entries

theorem get_erase (m : OrderedMap κ β) (k k' : κ) :
    (m.erase k).get k' = if k' = k then none else m.get k' := by
  simp only [get, erase]
  induction m.entries with
  | nil => simp [valueAt]
  | cons e l ih =>
    by_cases gone : e.1 = k
    · rw [filter_cons_of_neg (by simpa using gone), ih]
      by_cases same : k' = k
      · simp [same]
      · rw [if_neg same, if_neg same, valueAt, if_neg fun h => same (h.trans gone)]
    · rw [filter_cons_of_pos (by simpa using gone), valueAt, ih, valueAt]
      by_cases same : k' = k
      · rw [if_pos same, if_pos same, if_neg fun h => gone (h.symm.trans same)]
      · rw [if_neg same, if_neg same]

theorem mem_insert (member : e ∈ (m.insert k b).entries) :
    e = (k, b) ∨ e ∈ m.entries := mem_set member

theorem mem_erase (member : e ∈ (m.erase k).entries) :
    e ∈ m.entries := mem_of_mem_filter member

theorem get_insertAll (distinct : l.Pairwise fun a b => a.1 ≠ b.1) (m : OrderedMap κ β) (k : κ) :
    (m.insertAll l).get k = (valueAt k l).or (m.get k) := by
  induction l generalizing m with
  | nil => rfl
  | cons e l ih =>
    obtain ⟨head, tail⟩ := pairwise_cons.mp distinct
    rw [insertAll, foldl_cons, ← insertAll, ih tail, get_insert, valueAt]
    split
    next same =>
      rw [valueAt_eq_none.mpr fun d member => same ▸ head d member]
      rfl
    · rfl

theorem insertAll_entries (m : OrderedMap κ β) : empty.insertAll m.entries = m := by
  refine ext_get fun k => ?_
  rw [get_insertAll (m.rising.imp ne_of_lt), get_empty, Option.or_none]
  rfl

end OrderedMap
