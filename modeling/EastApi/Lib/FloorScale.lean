import Mathlib.Data.Rat.Floor
import Mathlib.RingTheory.Int.Basic
import Mathlib.Tactic.LinearCombination

/-! Multiplications of integers by rationals, each followed by rounding down.  Two of them commute,
for positive factors other than 1, just if the factors are equal, both whole, or both reciprocals of
whole numbers (`commutes_iff`). -/

namespace FloorScale

open List Int

def scale (c : ℚ) (q : ℤ) : ℤ := ⌊c * q⌋

def Commutes (c d : ℚ) : Prop := ∀ q, scale d (scale c q) = scale c (scale d q)

theorem scale_eq_ediv (c : ℚ) (q : ℤ) : scale c q = c.num * q / c.den := by
  have quotient : c * q = ((c.num * q : ℤ) : ℚ) / (c.den : ℚ) := by
    conv_lhs => rw [← Rat.num_div_den c]
    push_cast
    ring
  rw [scale, quotient, Rat.floor_intCast_div_natCast]

theorem scale_nonneg (pos : 0 < c) (nonneg : 0 ≤ q) : 0 ≤ scale c q := by
  have nonneg' : (0 : ℚ) ≤ q := by exact_mod_cast nonneg
  exact floor_nonneg.mpr (by positivity)

theorem Commutes.symm (comm : Commutes c d) : Commutes d c := fun q => (comm q).symm

theorem exists_dvd_add (coprime : IsCoprime u g) (v : ℤ) : ∃ t, g ∣ v + u * t := by
  obtain ⟨x, y, one⟩ := coprime
  exact ⟨-v * x, v * y, by linear_combination -v * one⟩

theorem le_of_shifted_ediv {u v w g : ℤ} (pos : 0 < g) (coprime : IsCoprime w g)
    (same : ∀ t, (u + w * t) / g = (v + w * t) / g) : u ≤ v := by
  obtain ⟨t, dvd⟩ := exists_dvd_add coprime u
  have whole := Int.ediv_mul_cancel dvd
  have below := Int.ediv_mul_le (v + w * t) pos.ne'
  rw [same t] at whole
  omega

theorem eq_of_shifted_ediv {u v w g : ℤ} (pos : 0 < g) (coprime : IsCoprime w g)
    (same : ∀ t, (u + w * t) / g = (v + w * t) / g) : u = v :=
  le_antisymm (le_of_shifted_ediv pos coprime same)
    (le_of_shifted_ediv pos coprime fun t => (same t).symm)

theorem add_mul_ediv_mul (g x y : ℤ) {k : ℤ} (pos : 0 < k) :
    (x + k * y) / (g * k) = (x / k + y) / g := by
  rw [mul_comm g k, ← ediv_ediv_of_nonneg pos.le, add_mul_ediv_left _ _ pos.ne']

section Reduced

variable {p r g m n : ℤ}

/-- With the factors `p / (g * m)` and `r / (g * n)`: the common part of the denominators can be
left out of the second quotient. -/
theorem reduced_of_comm (gPos : 0 < g) (mPos : 0 < m) (nPos : 0 < n) (pCoprime : IsCoprime p g)
    (rCoprime : IsCoprime r g)
    (comm : ∀ q, r * (p * q / (g * m)) / (g * n) = p * (r * q / (g * n)) / (g * m)) (q : ℤ) :
    r * (p * q / (g * m)) / n = p * (r * q / (g * n)) / m := by
  refine eq_of_shifted_ediv gPos (rCoprime.mul_left pCoprime) fun t => ?_
  have shifted := comm (q + g * m * n * t)
  have first : p * (q + g * m * n * t) / (g * m) = p * q / (g * m) + p * n * t := by
    rw [← add_mul_ediv_left _ _ (by positivity)]
    ring_nf
  have second : r * (q + g * m * n * t) / (g * n) = r * q / (g * n) + r * m * t := by
    rw [← add_mul_ediv_left _ _ (by positivity)]
    ring_nf
  rw [first, second] at shifted
  rw [← add_mul_ediv_mul g _ _ nPos, ← add_mul_ediv_mul g _ _ mPos]
  calc _ = r * (p * q / (g * m) + p * n * t) / (g * n) := by ring_nf
    _ = p * (r * q / (g * n) + r * m * t) / (g * m) := shifted
    _ = _ := by ring_nf

theorem exists_small_remainder (two : 2 ≤ m) (r : ℤ) : ∃ w, ¬ m ∣ w ∧ r * w % m ≤ 1 := by
  by_cases coprime : IsCoprime r m
  · obtain ⟨x, y, one⟩ := coprime
    refine ⟨x, fun dvd => ?_, ?_⟩
    · have : m ∣ 1 := one ▸ dvd_add (dvd.mul_right r) (dvd_mul_left m y)
      exact absurd (le_of_dvd one_pos this) (by omega)
    · rw [show r * x = 1 + m * -y by linear_combination one, add_mul_emod_self_left]
      exact (emod_eq_of_lt zero_le_one (by omega)).le
  · -- `m` divided by the common divisor
    rw [isCoprime_iff_gcd_eq_one] at coprime
    obtain ⟨s, sEq⟩ := Int.gcd_dvd_left r m
    obtain ⟨e, eEq⟩ := Int.gcd_dvd_right r m
    have gcdPos : (0 : ℤ) < Int.gcd r m := by
      exact_mod_cast gcd_pos_of_ne_zero_right r (by omega)
    have gcdLarge : (2 : ℤ) ≤ Int.gcd r m := by omega
    have ePos : 0 < e := by nlinarith
    refine ⟨e, fun dvd => ?_, ?_⟩
    · have := le_of_dvd ePos dvd
      nlinarith
    · have : r * e = m * s := by
        calc r * e = Int.gcd r m * s * e := by rw [← sEq]
          _ = Int.gcd r m * e * s := by ring
          _ = m * s := by rw [← eEq]
      rw [this, mul_emod_right]
      exact zero_le_one

theorem eq_one_of_reduced (gPos : 0 < g) (mPos : 0 < m) (nPos : 0 < n)
    (pCoprime : IsCoprime p m) (coprime : IsCoprime n m) (large : n < r)
    (reduced : ∀ q, r * (p * q / (g * m)) / n = p * (r * q / (g * n)) / m) : m = 1 := by
  by_contra ne
  obtain ⟨w, notDvd, small⟩ := exists_small_remainder (m := m) (by omega) r
  obtain ⟨t, dvd⟩ := exists_dvd_add pCoprime (-w)
  obtain ⟨s, tEq⟩ := dvd
  have here := reduced (g * n * t)
  rw [show p * (g * n * t) = g * (n * (p * t)) by ring, Int.mul_ediv_mul_of_pos _ _ gPos,
    show r * (g * n * t) = g * n * (r * t) by ring, Int.mul_ediv_cancel_left _ (by positivity),
    show p * (r * t) = r * (p * t) by ring] at here
  generalize p * t = v at here tEq
  have value : v = w + m * s := by linear_combination tEq
  -- the two divisions by `m`, with their remainders
  have rest : r * v % m = r * w % m := by
    rw [value, show r * (w + m * s) = r * w + m * (r * s) by ring, Int.add_mul_emod_self_left]
  have left := Int.mul_ediv_add_emod (n * v) m
  have right := Int.mul_ediv_add_emod (r * v) m
  have positive : 1 ≤ n * v % m := by
    have nonneg := Int.emod_nonneg (n * v) mPos.ne'
    by_contra zero
    have : m ∣ n * v := Int.dvd_of_emod_eq_zero (by omega)
    have := coprime.symm.dvd_of_dvd_mul_left this
    exact notDvd ((Int.dvd_add_left ⟨s, rfl⟩).mp (value ▸ this))
  have below : n * (r * v / m) ≤ r * (n * v / m) := by
    rw [← here, mul_comm n]
    exact Int.ediv_mul_le _ nPos.ne'
  rw [rest] at right
  nlinarith

theorem dvd_of_reduced (two : 2 ≤ m) (coprime : IsCoprime p m)
    (reduced : ∀ q, r * (p * q / m) = p * (r * q / m)) : p ∣ r := by
  obtain ⟨x, y, one⟩ := coprime
  have quotient : p * x / m = -y := by
    rw [show p * x = 1 + m * -y by linear_combination one,
      add_mul_ediv_left _ _ (by omega), ediv_eq_zero_of_lt zero_le_one (by omega),
      zero_add]
  have here := reduced x
  rw [quotient] at here
  exact ⟨r * x - m * (r * x / m), by linear_combination -r * one - m * here⟩

theorem eq_of_reduced (two : 2 ≤ m) (pPos : 0 < p) (rPos : 0 < r) (pCoprime : IsCoprime p m)
    (rCoprime : IsCoprime r m) (reduced : ∀ q, r * (p * q / m) = p * (r * q / m)) : p = r :=
  dvd_antisymm pPos.le rPos.le (dvd_of_reduced two pCoprime reduced)
    (dvd_of_reduced two rCoprime fun q => (reduced q).symm)

end Reduced

variable {c d : ℚ}

theorem isCoprime_num_den (c : ℚ) : IsCoprime c.num (c.den : ℤ) := by
  rw [isCoprime_iff_gcd_eq_one]
  exact c.reduced

theorem den_lt_num (large : 1 < c) : (c.den : ℤ) < c.num := by
  have := Rat.lt_iff 1 c
  simp at this
  exact_mod_cast this.mp large

theorem exists_common_den (c d : ℚ) :
    ∃ g m n : ℤ, 0 < g ∧ 0 < m ∧ 0 < n ∧ IsCoprime n m ∧ (c.den : ℤ) = g * m ∧
      (d.den : ℤ) = g * n := by
  obtain ⟨m, n, coprime, mEq, nEq⟩ := Nat.exists_coprime c.den d.den
  have gPos : 0 < c.den.gcd d.den := Nat.gcd_pos_of_pos_left _ c.den_pos
  have mPos : 0 < m := Nat.pos_of_ne_zero fun zero => c.den_nz (by rw [mEq, zero, zero_mul])
  have nPos : 0 < n := Nat.pos_of_ne_zero fun zero => d.den_nz (by rw [nEq, zero, zero_mul])
  refine ⟨c.den.gcd d.den, m, n, by exact_mod_cast gPos, by exact_mod_cast mPos,
    by exact_mod_cast nPos, (Nat.isCoprime_iff_coprime.mpr coprime).symm, ?_, ?_⟩
  · exact_mod_cast mEq.trans (mul_comm _ _)
  · exact_mod_cast nEq.trans (mul_comm _ _)

theorem of_one_lt (cLarge : 1 < c) (dLarge : 1 < d) (comm : Commutes c d) :
    c = d ∨ c.den = 1 ∧ d.den = 1 := by
  have quotients := comm
  simp only [Commutes, scale_eq_ediv] at quotients
  have cNum := den_lt_num cLarge
  have dNum := den_lt_num dLarge
  have cCoprime := isCoprime_num_den c
  have dCoprime := isCoprime_num_den d
  obtain ⟨g, m, n, gPos, mPos, nPos, coprime, cDen, dDen⟩ := exists_common_den c d
  rw [cDen] at quotients cNum cCoprime
  rw [dDen] at quotients dNum dCoprime
  have reduced := reduced_of_comm gPos mPos nPos cCoprime.of_mul_right_left
    dCoprime.of_mul_right_left quotients
  have mOne : m = 1 := eq_one_of_reduced gPos mPos nPos cCoprime.of_mul_right_right coprime
    (by nlinarith) reduced
  have nOne : n = 1 := eq_one_of_reduced gPos nPos mPos dCoprime.of_mul_right_right coprime.symm
    (by nlinarith) fun q => (reduced q).symm
  rw [mOne, mul_one] at cDen cCoprime cNum
  rw [nOne, mul_one] at dDen dCoprime dNum
  simp only [mOne, nOne, mul_one, ediv_one] at reduced
  by_cases one : g = 1
  · right
    omega
  · left
    refine Rat.ext ?_ (by omega)
    exact eq_of_reduced (by omega) (by omega) (by omega) cCoprime dCoprime reduced

theorem scale_add_den_mul (c : ℚ) (x y : ℤ) : scale c (x + c.den * y) = scale c x + c.num * y := by
  rw [scale_eq_ediv, scale_eq_ediv, mul_add, mul_left_comm,
    add_mul_ediv_left _ _ (by exact_mod_cast c.den_nz)]

theorem commutes_of_nonneg (comm : ∀ q, 0 ≤ q → scale d (scale c q) = scale c (scale d q)) :
    Commutes c d := by
  intro q
  have cPos : (0 : ℤ) < c.den := by exact_mod_cast c.den_pos
  have dPos : (0 : ℤ) < d.den := by exact_mod_cast d.den_pos
  -- a shift by a multiple of both denominators
  have nonneg : 0 ≤ q + c.den * (d.den * |q|) := by
    have := neg_abs_le q
    have := abs_nonneg q
    nlinarith [mul_pos cPos dPos]
  have shifted := comm _ nonneg
  have left : scale d (scale c (q + c.den * (d.den * |q|))) =
      scale d (scale c q) + d.num * (c.num * |q|) := by
    rw [scale_add_den_mul, mul_left_comm, scale_add_den_mul]
  have right : scale c (scale d (q + c.den * (d.den * |q|))) =
      scale c (scale d q) + c.num * (d.num * |q|) := by
    rw [mul_left_comm, scale_add_den_mul, mul_left_comm, scale_add_den_mul]
  rw [left, right] at shifted
  linarith [mul_left_comm d.num c.num |q|]

theorem exists_last {e r : ℚ} (ePos : 0 < e) (rPos : 0 < r) :
    ∃ n : ℕ, e * n < r ∧ r ≤ e * (n + 1) := by
  have pos : 0 < ⌈r / e⌉₊ := Nat.ceil_pos.mpr (by positivity)
  refine ⟨⌈r / e⌉₊ - 1, ?_, ?_⟩
  · have := Nat.lt_ceil.mp (Nat.sub_one_lt pos.ne')
    rwa [lt_div_iff₀ ePos, mul_comm] at this
  · have := Nat.le_ceil (r / e)
    rw [div_le_iff₀ ePos, mul_comm] at this
    have cast : ((⌈r / e⌉₊ - 1 : ℕ) : ℚ) + 1 = ⌈r / e⌉₊ := by
      exact_mod_cast Nat.sub_add_cancel pos
    rwa [cast]

theorem not_commutes (cPos : 0 < c) (cSmall : c < 1) (dLarge : 1 < d) : ¬ Commutes c d := by
  intro comm
  -- `d` keeps `N`, and raises every larger number; `x` is the last number that `c` takes to `N`
  obtain ⟨N, keeps, raises⟩ := exists_last (sub_pos.mpr dLarge) one_pos
  obtain ⟨x, last, next⟩ := exists_last (r := (N : ℚ) + 1) cPos (by positivity)
  have xLarge : N + 1 ≤ x := by
    have : (N : ℚ) < x := by nlinarith
    exact_mod_cast this
  have toN : scale c x = N := by
    rw [scale, floor_eq_iff]
    push_cast
    constructor <;> nlinarith
  have keepsN : scale d N = N := by
    rw [scale, floor_eq_iff]
    push_cast
    have : (0 : ℚ) ≤ N := by positivity
    constructor <;> nlinarith
  have raised : (x : ℤ) + 1 ≤ scale d x := by
    rw [scale, le_floor]
    push_cast
    have : (N : ℚ) + 1 ≤ x := by exact_mod_cast xLarge
    nlinarith
  have beyond : (N : ℤ) + 1 ≤ scale c (scale d x) := by
    rw [scale, le_floor]
    have : ((x : ℤ) + 1 : ℚ) ≤ scale d x := by exact_mod_cast raised
    push_cast at this ⊢
    nlinarith
  have same := comm x
  rw [toN, keepsN] at same
  omega

theorem le_scale_iff (pos : 0 < c) (k q : ℤ) : k ≤ scale c q ↔ -q ≤ scale c⁻¹ (-k) := by
  rw [scale, scale, le_floor, le_floor]
  push_cast
  rw [mul_neg, neg_le_neg_iff, inv_mul_le_iff₀ pos]

theorem le_scale_scale_inv_iff (cPos : 0 < c) (dPos : 0 < d) (y q : ℤ) :
    y ≤ scale d⁻¹ (scale c⁻¹ q) ↔ -q ≤ scale c (scale d (-y)) := by
  have first := le_scale_iff dPos (-scale c⁻¹ q) (-y)
  have second := le_scale_iff cPos (-q) (scale d (-y))
  rw [neg_neg, neg_neg] at first
  rw [neg_neg] at second
  rw [← first, second, neg_le]

theorem Commutes.inv (cPos : 0 < c) (dPos : 0 < d) (comm : Commutes c d) : Commutes c⁻¹ d⁻¹ := by
  intro q
  refine eq_of_forall_le_iff fun y => ?_
  rw [le_scale_scale_inv_iff cPos dPos, le_scale_scale_inv_iff dPos cPos, comm]

theorem commutes_of_den_one (cWhole : c.den = 1) (dWhole : d.den = 1) : Commutes c d := by
  intro q
  simp only [scale_eq_ediv, cWhole, dWhole, Nat.cast_one, ediv_one]
  ring

theorem commutes_iff (cPos : 0 < c) (dPos : 0 < d) (cOne : c ≠ 1) (dOne : d ≠ 1) :
    Commutes c d ↔ c = d ∨ (c.den = 1 ∧ d.den = 1) ∨ (c⁻¹.den = 1 ∧ d⁻¹.den = 1) := by
  constructor
  · intro comm
    rcases lt_or_gt_of_ne cOne with cSmall | cLarge <;>
      rcases lt_or_gt_of_ne dOne with dSmall | dLarge
    · have inverse := of_one_lt ((one_lt_inv₀ cPos).mpr cSmall) ((one_lt_inv₀ dPos).mpr dSmall)
        (comm.inv cPos dPos)
      exact inverse.imp inv_injective.eq_iff.mp .inr
    · exact absurd comm (not_commutes cPos cSmall dLarge)
    · exact absurd comm.symm (not_commutes dPos dSmall cLarge)
    · exact (of_one_lt cLarge dLarge comm).imp_right .inl
  · rintro (rfl | whole | reciprocal)
    · exact fun q => rfl
    · exact commutes_of_den_one whole.1 whole.2
    · have inverse := commutes_of_den_one reciprocal.1 reciprocal.2
      simpa using inverse.inv (inv_pos.mpr cPos) (inv_pos.mpr dPos)

def fold (cs : List ℚ) (q : ℤ) : ℤ := cs.foldl (fun q c => scale c q) q

theorem fold_append (cs ds : List ℚ) (q : ℤ) : fold (cs ++ ds) q = fold ds (fold cs q) :=
  foldl_append

theorem scale_lt_scale (large : 1 < c) (less : x < y) : scale c x < scale c y := by
  rw [scale, floor_lt]
  have step : (x : ℚ) + 1 ≤ y := by exact_mod_cast less
  have below := lt_floor_add_one (c * y)
  have : ((scale c y : ℤ) : ℚ) = ⌊c * y⌋ := rfl
  nlinarith

theorem fold_injective (large : ∀ c ∈ cs, 1 < c) : Function.Injective (fold cs) := by
  induction cs with
  | nil => exact fun _ _ same => same
  | cons c cs ih =>
    have first : StrictMono (scale c) := fun x y => scale_lt_scale (large c mem_cons_self)
    exact (ih fun d mem => large d (mem_cons_of_mem c mem)).comp first.injective

theorem exists_scale_eq (pos : 0 < c) (small : c < 1) (nonneg : 0 ≤ y) :
    ∃ q, 0 ≤ q ∧ scale c q = y := by
  have nonneg' : (0 : ℚ) ≤ y := by exact_mod_cast nonneg
  refine ⟨⌈(y : ℚ) / c⌉, ceil_nonneg (by positivity), ?_⟩
  have lower := le_ceil ((y : ℚ) / c)
  have upper := ceil_lt_add_one ((y : ℚ) / c)
  rw [div_le_iff₀ pos] at lower
  rw [← sub_lt_iff_lt_add, lt_div_iff₀ pos] at upper
  rw [scale, floor_eq_iff]
  constructor <;> nlinarith

theorem exists_fold_eq (small : ∀ c ∈ cs, 0 < c ∧ c < 1) (nonneg : 0 ≤ y) :
    ∃ q, 0 ≤ q ∧ fold cs q = y := by
  induction cs with
  | nil => exact ⟨y, nonneg, rfl⟩
  | cons c cs ih =>
    obtain ⟨x, xNonneg, rfl⟩ := ih fun d mem => small d (mem_cons_of_mem c mem)
    obtain ⟨cPos, cSmall⟩ := small c mem_cons_self
    obtain ⟨q, qNonneg, rfl⟩ := exists_scale_eq cPos cSmall xNonneg
    exact ⟨q, qNonneg, rfl⟩

/-- If the order of a list does not matter, any two of its factors commute: the small ones among the
others come first, where they leave out no number, and the large ones last, where they keep numbers
apart. -/
theorem commutes_of_fold (pos : ∀ c ∈ cs, 0 < c) (one : ∀ c ∈ cs, c ≠ 1)
    (same : ∀ ds, ds.Perm cs → ∀ q, 0 ≤ q → fold ds q = fold cs q)
    (perm : (c :: d :: rest).Perm cs) : Commutes c d := by
  refine commutes_of_nonneg fun x nonneg => ?_
  let small := rest.filter fun e => e < 1
  let large := rest.filter fun e => !decide (e < 1)
  have parts : (small ++ large).Perm rest := filter_append_perm (fun e => decide (e < 1)) rest
  have ofRest : ∀ e ∈ rest, e ∈ cs := fun e mem =>
    perm.subset (mem_cons_of_mem c (mem_cons_of_mem d mem))
  have isSmall : ∀ e ∈ small, 0 < e ∧ e < 1 := by
    intro e mem
    obtain ⟨mem, less⟩ := mem_filter.mp mem
    exact ⟨pos e (ofRest e mem), by simpa using less⟩
  have isLarge : ∀ e ∈ large, 1 < e := by
    intro e mem
    obtain ⟨mem, notLess⟩ := mem_filter.mp mem
    exact lt_of_le_of_ne (by simpa using notLess) (one e (ofRest e mem)).symm
  have arranged : ∀ a b, (a :: b :: rest).Perm cs → (small ++ (a :: b :: large)).Perm cs := by
    intro a b perm
    refine List.Perm.trans ?_ perm
    refine perm_middle.trans (List.Perm.cons a ?_)
    exact perm_middle.trans (parts.cons b)
  obtain ⟨q, qNonneg, reached⟩ := exists_fold_eq isSmall nonneg
  refine fold_injective isLarge ?_
  calc fold large (scale d (scale c x)) = fold (small ++ (c :: d :: large)) q := by
        rw [fold_append, reached]
        rfl
    _ = fold cs q := same _ (arranged c d perm) q qNonneg
    _ = fold (small ++ (d :: c :: large)) q :=
        (same _ (arranged d c ((List.Perm.swap c d rest).trans perm)) q qNonneg).symm
    _ = fold large (scale c (scale d x)) := by
        rw [fold_append, reached]
        rfl

theorem exists_perm_cons_cons (cMem : c ∈ cs) (dMem : d ∈ cs) (ne : c ≠ d) :
    ∃ rest, (c :: d :: rest).Perm cs := by
  have dMem' : d ∈ cs.erase c := (mem_erase_of_ne ne.symm).mpr dMem
  exact ⟨(cs.erase c).erase d,
    ((perm_cons_erase dMem').symm.cons c).trans (perm_cons_erase cMem).symm⟩

/-- The order of positive factors other than 1 does not matter, for any number that is not negative,
just if any two of them are equal, both whole, or both reciprocals of whole numbers. -/
theorem fold_perm_iff (cs : List ℚ) (pos : ∀ c ∈ cs, 0 < c) (one : ∀ c ∈ cs, c ≠ 1) :
    (∀ ds, ds.Perm cs → ∀ q, 0 ≤ q → fold ds q = fold cs q) ↔
      ∀ c ∈ cs, ∀ d ∈ cs, c = d ∨ (c.den = 1 ∧ d.den = 1) ∨ (c⁻¹.den = 1 ∧ d⁻¹.den = 1) := by
  constructor
  · intro same c cMem d dMem
    by_cases eq : c = d
    · exact .inl eq
    · obtain ⟨rest, perm⟩ := exists_perm_cons_cons cMem dMem eq
      exact (commutes_iff (pos c cMem) (pos d dMem) (one c cMem) (one d dMem)).mp
        (commutes_of_fold pos one same perm)
  · intro pairs ds perm q _
    refine perm.foldl_eq' (fun c cMem d dMem z => ?_) q
    have cMem' := perm.subset cMem
    have dMem' := perm.subset dMem
    exact (commutes_iff (pos c cMem') (pos d dMem') (one c cMem') (one d dMem')).mpr
      (pairs c cMem' d dMem') z

end FloorScale
