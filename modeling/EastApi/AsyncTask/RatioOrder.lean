import EastApi.AsyncTask.Submit
import EastApi.Lib.FloorScale

/-! The order in which `RelayTaskSubmit` applies the ratios of a task, which is the order of a Go
map and so not specified.  Each product is cut to an integer before the next, and the result depends
on the order, unless any two of the ratios are equal, both whole, or both reciprocals of whole
numbers. -/

namespace EastApi.AsyncTask.Submit

open Go FloorScale List

theorem truncate_mul (positive : 0 < c) {q : Int} (nonneg : 0 ≤ q) :
    truncate (q * c) = scale c q := by
  have nonneg' : (0 : ℚ) ≤ q := by exact_mod_cast nonneg
  rw [truncate_of_nonneg (by positivity), scale, mul_comm]

theorem foldl_eq_fold {order : List ℚ} (positive : ∀ c ∈ order, 0 < c) {q : Int}
    (nonneg : 0 ≤ q) :
    order.foldl (fun quota ra => if ra ≠ 1 then truncate (quota * ra) else quota) q =
      fold (order.filter (· ≠ 1)) q := by
  induction order generalizing q with
  | nil => rfl
  | cons c rest ih =>
    have cPositive := positive c mem_cons_self
    have restPositive : ∀ d ∈ rest, 0 < d := fun d mem => positive d (mem_cons_of_mem c mem)
    by_cases one : c = 1
    · rw [foldl_cons, if_neg (not_not.mpr one), filter_cons_of_neg (by simpa using one)]
      exact ih restPositive nonneg
    · rw [foldl_cons, if_pos one, filter_cons_of_pos (by simpa using one),
        truncate_mul cPositive nonneg]
      exact ih restPositive (scale_nonneg cPositive nonneg)

theorem applyOtherRatios_eq (unpatched : modelName ∉ settings.taskPricePatches) {ratios : Ratios}
    (positive : ∀ c ∈ ratios.values, 0 < c) (perm : order.Perm ratios.values) (nonneg : 0 ≤ q) :
    applyOtherRatios settings modelName order q = fold (order.filter (· ≠ 1)) q := by
  rw [applyOtherRatios, if_neg unpatched]
  exact foldl_eq_fold (fun c mem => positive c (perm.subset mem)) nonneg

theorem exists_order (perm : ds.Perm (ratios.filter (· ≠ 1))) :
    ∃ order : List ℚ, order.Perm ratios ∧ order.filter (· ≠ 1) = ds := by
  refine ⟨ds ++ ratios.filter fun c => !decide (c ≠ 1), ?_, ?_⟩
  · exact (perm.append_right _).trans (filter_append_perm (fun c => decide (c ≠ 1)) ratios)
  · have others : ∀ c ∈ ds, decide (c ≠ 1) := fun c mem =>
      (mem_filter.mp (perm.subset mem)).2
    have ones : (ratios.filter fun c => !decide (c ≠ 1)).filter (· ≠ 1) = [] := by
      rw [filter_eq_nil_iff]
      intro c mem
      simpa using (mem_filter.mp mem).2
    rw [filter_append, ones, append_nil, filter_eq_self.mpr others]

/-- Step 6 gives every base quota the same price in every order of the ratios, just if the model is
patched, or any two ratios other than 1 are equal, both whole, or both reciprocals of whole
numbers. -/
theorem price_order_irrelevant_iff (settings : Settings) (modelName : String) {ratios : Ratios}
    (positive : ∀ c ∈ ratios.values, 0 < c) :
    (∀ q, 0 ≤ q → ∀ first second, first.Perm ratios.values → second.Perm ratios.values →
        applyOtherRatios settings modelName first q =
          applyOtherRatios settings modelName second q) ↔
      modelName ∈ settings.taskPricePatches ∨
        ∀ c ∈ ratios.values, c ≠ 1 → ∀ d ∈ ratios.values, d ≠ 1 →
          c = d ∨ (c.den = 1 ∧ d.den = 1) ∨ (c⁻¹.den = 1 ∧ d⁻¹.den = 1) := by
  by_cases patched : modelName ∈ settings.taskPricePatches
  · simp [applyOtherRatios, patched]
  have pairs := fold_perm_iff (ratios.values.filter (· ≠ 1))
    (fun c mem => positive c (mem_filter.mp mem).1)
    (fun c mem => by simpa using (mem_filter.mp mem).2)
  have filtered : (∀ c ∈ ratios.values.filter (· ≠ 1), ∀ d ∈ ratios.values.filter (· ≠ 1),
      c = d ∨ (c.den = 1 ∧ d.den = 1) ∨ (c⁻¹.den = 1 ∧ d⁻¹.den = 1)) ↔
      ∀ c ∈ ratios.values, c ≠ 1 → ∀ d ∈ ratios.values, d ≠ 1 →
        c = d ∨ (c.den = 1 ∧ d.den = 1) ∨ (c⁻¹.den = 1 ∧ d⁻¹.den = 1) := by
    simp only [mem_filter, decide_eq_true_eq, and_imp]
  rw [or_iff_right patched, ← filtered, ← pairs]
  constructor
  · intro same ds perm q nonneg
    obtain ⟨order, orderPerm, rfl⟩ := exists_order perm
    rw [← applyOtherRatios_eq patched positive orderPerm nonneg,
      ← applyOtherRatios_eq patched positive (List.Perm.refl _) nonneg]
    exact same q nonneg order _ orderPerm (List.Perm.refl _)
  · intro same q nonneg first second firstPerm secondPerm
    rw [applyOtherRatios_eq patched positive firstPerm nonneg,
      applyOtherRatios_eq patched positive secondPerm nonneg,
      same _ (firstPerm.filter _) q nonneg, same _ (secondPerm.filter _) q nonneg]

def noPrices : Settings where
  modelRatio _ := (0, false, "")

def wholeRatios : Ratios := ((∅ : Ratios).insert "seconds" 8).insert "size" 2

theorem price_order_irrelevant_iff_whole :
    applyOtherRatios noPrices "sora-2" [2, 8] 50000 =
        applyOtherRatios noPrices "sora-2" [8, 2] 50000 ∧
      applyOtherRatios noPrices "sora-2" [8, 2] 50000 = 800000 := by
  have members : ∀ c ∈ wholeRatios.values, c = 2 ∨ c = 8 := by decide +kernel
  have whole : ∀ c ∈ wholeRatios.values, c.den = 1 := by
    intro c mem
    rcases members c mem with rfl | rfl <;> rfl
  have positive : ∀ c ∈ wholeRatios.values, 0 < c := by
    intro c mem
    rcases members c mem with rfl | rfl <;> norm_num
  have same := (price_order_irrelevant_iff noPrices "sora-2" positive).mpr
    (.inr fun c mem _ d dMem _ => .inr (.inl ⟨whole c mem, whole d dMem⟩))
  exact ⟨same 50000 (by decide) [2, 8] [8, 2] (by decide +kernel) (by decide +kernel),
    by decide +kernel⟩

def soraRatios : Ratios := ((∅ : Ratios).insert "seconds" 4).insert "size" (1666667 / 1000000)

/-- The two orders of these ratios differ by one. -/
theorem price_depends_on_order :
    [4, 1666667 / 1000000].Perm soraRatios.values ∧ [1666667 / 1000000, 4].Perm soraRatios.values ∧
      applyOtherRatios noPrices "sora-2" [4, 1666667 / 1000000] 50000 = 333333 ∧
      applyOtherRatios noPrices "sora-2" [1666667 / 1000000, 4] 50000 = 333332 := by
  decide +kernel

end EastApi.AsyncTask.Submit
