import Mathlib.Algebra.Group.Pi.Basic
import Mathlib.Algebra.Ring.Int.Defs
import Mathlib.Data.List.AList

/-! Maps of counters: `add` puts an amount under a key or adds it to the one that is there, and
`total` is what each key has.  Removing a key takes its amount away from the total. -/

namespace Counters

variable {κ ν : Type*} [DecidableEq κ]

section
variable [AddCommGroup ν]

def add (m : AList fun _ : κ => ν) (key : κ) (amount : ν) : AList fun _ : κ => ν :=
  match m.lookup key with
  | none => m.insert key amount
  | some old => m.insert key (old + amount)

def total (m : AList fun _ : κ => ν) (key : κ) : ν := (m.lookup key).getD 0

@[simp] theorem total_empty : total (∅ : AList fun _ : κ => ν) = 0 := by
  funext key
  simp [total]

theorem total_add (m : AList fun _ : κ => ν) (key : κ) (amount : ν) :
    total (add m key amount) = total m + Pi.single key amount := by
  funext other
  rw [Pi.add_apply]
  by_cases own : other = key
  · subst own
    cases found : m.lookup other <;> simp [total, add, found]
  · rw [Pi.single_eq_of_ne own, add_zero]
    cases found : m.lookup key <;> simp [total, add, found, AList.lookup_insert_ne own]

theorem total_erase {m : AList fun _ : κ => ν} (found : m.lookup key = some amount) :
    total (m.erase key) + Pi.single key amount = total m := by
  funext other
  rw [Pi.add_apply]
  by_cases own : other = key
  · subst own
    simp [total, found]
  · rw [Pi.single_eq_of_ne own, add_zero]
    simp [total, AList.lookup_erase_ne own]

end

omit [DecidableEq κ] in
theorem eq_empty_of_keys {m : AList fun _ : κ => ν} (none : m.keys = []) : m = ∅ := by
  apply AList.ext
  exact List.map_eq_nil_iff.mp none

theorem exists_lookup {m : AList fun _ : κ => ν} (some : m.keys ≠ []) :
    ∃ key amount, m.lookup key = Option.some amount := by
  obtain ⟨key, member⟩ := List.exists_mem_of_ne_nil _ some
  obtain ⟨amount, found⟩ := Option.isSome_iff_exists.mp (AList.lookup_isSome.mpr member)
  exact ⟨key, amount, found⟩

theorem erase_lt {m : AList fun _ : κ => ν} (found : m.lookup key = some amount) :
    (m.erase key).keys.length < m.keys.length := by
  have member : key ∈ m.keys := AList.lookup_isSome.mp (by rw [found]; rfl)
  rw [AList.keys_erase, List.length_erase_of_mem member]
  have := List.length_pos_of_mem member
  omega

end Counters

/-- Machine integers under addition, which wraps. -/
instance Int64.instAddCommGroup : AddCommGroup Int64 where
  add_assoc := Int64.add_assoc
  zero_add := Int64.zero_add
  add_zero := Int64.add_zero
  nsmul := nsmulRec
  zsmul := zsmulRec
  neg_add_cancel := Int64.add_left_neg
  add_comm := Int64.add_comm
  sub_eq_add_neg := Int64.sub_eq_add_neg
