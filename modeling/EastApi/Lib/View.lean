import EastApi.Lib.Table

/-! A table that is kept in step with another one.  A `View` says which rows of the second table
belong to a row of the first, and `Mirrors` that the second has these rows and no others. -/

universe u v w x y

/-- For each row of a base table the rows that a view has of it, by an index.  `owner` is the key of
the base row that a row of the view belongs to. -/
structure View {α : Type u} {κ : Type v} {β : Type w} (key : α → κ) (ι : Type x) (row : α → ι → β)
    where
  idx : α → List ι
  owner : β → κ
  owner_row : ∀ a i, owner (row a i) = key a

namespace View

variable {α : Type u} {κ : Type v} {β : Type w} {ι : Type x} {μ : Type y} {key : α → κ}
  {vkey : β → μ} {row : α → ι → β}

def Has (v : View key ι row) (a : α) (b : β) : Prop := ∃ i ∈ v.idx a, row a i = b

def Mirrors (v : View key ι row) (base : Table key) (view : Table vkey) : Prop :=
  ∀ b, b ∈ view ↔ ∃ a ∈ base, v.Has a b

theorem Has.owner {v : View key ι row} (h : v.Has a b) : v.owner b = key a := by
  obtain ⟨i, -, rfl⟩ := h
  exact v.owner_row a i

variable {v : View key ι row} {base base' : Table key} {view view' : Table vkey}

theorem Mirrors.update_iff (h : v.Mirrors base view) {f : α → α} {g : β → β}
    (bases : ∀ a, a ∈ base' ↔ ∃ a0 ∈ base, f a0 = a)
    (views : ∀ b, b ∈ view' ↔ ∃ b0 ∈ view, g b0 = b)
    (idx : ∀ a ∈ base, v.idx (f a) = v.idx a)
    (same : ∀ a ∈ base, ∀ i ∈ v.idx a, vkey (g (row a i)) = vkey (row (f a) i)) :
    v.Mirrors base' view' ↔ ∀ a ∈ base, ∀ i ∈ v.idx a, g (row a i) = row (f a) i := by
  have stored : ∀ a ∈ base, ∀ i ∈ v.idx a, g (row a i) ∈ view' := fun a ha i hi =>
    (views _).mpr ⟨row a i, (h _).mpr ⟨a, ha, i, hi, rfl⟩, rfl⟩
  constructor
  · intro h' a ha i hi
    have new : row (f a) i ∈ view' :=
      (h' _).mpr ⟨f a, (bases _).mpr ⟨a, ha, rfl⟩, i, idx a ha ▸ hi, rfl⟩
    exact Table.eq_of_key (stored a ha i hi) new (same a ha i hi)
  · intro became b
    constructor
    · intro hb
      obtain ⟨b0, hb0, rfl⟩ := (views b).mp hb
      obtain ⟨a, ha, i, hi, rfl⟩ := (h b0).mp hb0
      exact ⟨f a, (bases _).mpr ⟨a, ha, rfl⟩, i, idx a ha ▸ hi, (became a ha i hi).symm⟩
    · rintro ⟨a', ha', i, hi, rfl⟩
      obtain ⟨a, ha, rfl⟩ := (bases a').mp ha'
      rw [idx a ha] at hi
      rw [← became a ha i hi]
      exact stored a ha i hi

theorem Mirrors.delete_iff (h : v.Mirrors base view) (nonempty : ∀ a, v.idx a ≠ []) :
    v.Mirrors (base.delete p) view ↔ ∀ a ∈ base, p a = false := by
  constructor
  · intro h' a ha
    obtain ⟨i, hi⟩ := List.exists_mem_of_ne_nil _ (nonempty a)
    have has : v.Has a (row a i) := ⟨i, hi, rfl⟩
    obtain ⟨a', ha', has'⟩ := (h' _).mp ((h _).mpr ⟨a, ha, has⟩)
    obtain ⟨old, kept⟩ := Table.mem_delete.mp ha'
    rw [Table.eq_of_key ha old (has.owner.symm.trans has'.owner)]
    exact kept
  · intro kept b
    rw [h b]
    refine exists_congr fun a => and_congr_left fun _ => ?_
    rw [Table.mem_delete]
    exact ⟨fun ha => ⟨ha, kept a ha⟩, And.left⟩

/-- The rows of some base rows written anew, as `rows` gives them for copies `l` of the base rows:
each copy has to stand for a base row and to give its rows. -/
theorem Mirrors.refresh_iff (h : v.Mirrors base view) {l : List α} {rows : α → List β}
    (apart : (l.map key).Nodup) (own : ∀ c ∈ l, ∀ b ∈ rows c, v.owner b = key c)
    (nonempty : ∀ c ∈ l, rows c ≠ [])
    (others : ∀ a, (∀ c ∈ l, key c ≠ key a) → (a ∈ base' ↔ a ∈ base))
    (written : ∀ b, b ∈ view' ↔
      (b ∈ view ∧ ∀ c ∈ l, v.owner b ≠ key c) ∨ ∃ c ∈ l, b ∈ rows c) :
    v.Mirrors base' view' ↔
      ∀ c ∈ l, ∃ a ∈ base', key a = key c ∧ ∀ b, b ∈ rows c ↔ v.Has a b := by
  constructor
  · intro h' c hc
    obtain ⟨b0, hb0⟩ := List.exists_mem_of_ne_nil _ (nonempty c hc)
    obtain ⟨a, ha, has⟩ := (h' b0).mp ((written b0).mpr (.inr ⟨c, hc, hb0⟩))
    have same : key a = key c := has.owner.symm.trans (own c hc b0 hb0)
    refine ⟨a, ha, same, fun b => ⟨fun hb => ?_, fun hb => ?_⟩⟩
    · obtain ⟨a', ha', has'⟩ := (h' b).mp ((written b).mpr (.inr ⟨c, hc, hb⟩))
      have : a' = a :=
        Table.eq_of_key ha' ha (has'.owner.symm.trans ((own c hc b hb).trans same.symm))
      exact this ▸ has'
    · rcases (written b).mp ((h' b).mpr ⟨a, ha, hb⟩) with ⟨-, not⟩ | ⟨d, hd, hb'⟩
      · exact absurd (hb.owner.trans same) (not c hc)
      · have : d = c := List.inj_on_of_nodup_map apart hd hc
          ((own d hd b hb').symm.trans (hb.owner.trans same))
        exact this ▸ hb'
  · intro fresh b
    rw [written b]
    constructor
    · rintro (⟨hb, not⟩ | ⟨c, hc, hb⟩)
      · obtain ⟨a, ha, has⟩ := (h b).mp hb
        exact ⟨a, (others a fun c hc same => not c hc (has.owner.trans same.symm)).mpr ha, has⟩
      · obtain ⟨a, ha, -, same⟩ := fresh c hc
        exact ⟨a, ha, (same b).mp hb⟩
    · rintro ⟨a, ha, has⟩
      by_cases listed : ∃ c ∈ l, key c = key a
      · obtain ⟨c, hc, same⟩ := listed
        obtain ⟨a', ha', same', rows⟩ := fresh c hc
        obtain rfl := Table.eq_of_key ha ha' (same.symm.trans same'.symm)
        exact .inr ⟨c, hc, (rows b).mpr has⟩
      · have not : ∀ c ∈ l, key c ≠ key a := fun c hc same => listed ⟨c, hc, same⟩
        refine .inl ⟨(h b).mpr ⟨a, (others a not).mp ha, has⟩, fun c hc same => ?_⟩
        exact not c hc (same.symm.trans has.owner)

end View
