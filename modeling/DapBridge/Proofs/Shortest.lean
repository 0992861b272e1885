import DapBridge.Proofs.Rounding
import DapBridge.Number.Shortest

/-!
# The shortest digits round back to the word

`Double.shortest m e` looks for a decimal `n * 10^t` that rounds back to the positive word
`m * 2^e`, trying one significant digit, then two, and so on; on each grid only the two
neighbours of the value are tried. This module shows the search always finds one, and that the
digits it returns stand for such a decimal:

* `Scaled.compare_eq`: the integer comparison of two scaled numbers is the comparison of their
  rational values;
* `leadingExponent_le`: the power of ten the search starts from is at most the value; the
  estimate `log10 2 ≈ 0.30103` is off by less than two, which the corrections absorb;
* `readsBackAs_iff`: the test of a candidate is `RoundsTo`, the rounding interval of the word;
* `half_step_lt_gapBelow`: with seventeen significant digits half a step of the decimal grid
  is shorter than half a gap of the binary one, so one of the two neighbours always rounds
  back (`candidate_isSome`) and the fallback of the search is never taken;
* `shortest_spec`: the digits are those of a positive `n` with `n * 10^t` rounding to the
  word, and the point sits `t` places after the last digit.
-/

namespace DapBridge

namespace Scaled

/-- The number `mant * 2^two * 10^ten`. -/
def value (a : Scaled) : ℚ := a.mant * 2 ^ a.two * 10 ^ a.ten

/-- A power of ten with an exponent of either sign, as a quotient of natural powers. -/
theorem ten_zpow (k : Int) : (10 : ℚ) ^ k = 10 ^ k.toNat / 10 ^ (-k).toNat := by
  conv_lhs => rw [← Int.toNat_sub_toNat_neg k]
  rw [zpow_sub₀ (by norm_num), zpow_natCast, zpow_natCast]

/-- One side of the comparison is the value of that side times the denominators of both. -/
theorem cross_eq (a b : Scaled) :
    ((a.mant * Nat.pow 2 a.two.toNat * Nat.pow 10 a.ten.toNat * Nat.pow 2 (-b.two).toNat *
        Nat.pow 10 (-b.ten).toNat : Nat) : ℚ) =
      a.value * (2 ^ (-a.two).toNat * 10 ^ (-a.ten).toNat * 2 ^ (-b.two).toNat * 10 ^ (-b.ten).toNat) := by
  rw [value, Double.two_zpow, ten_zpow]
  push_cast [Nat.pow_eq]
  field_simp

/-- `Scaled.compare` compares exactly. -/
theorem compare_eq (a b : Scaled) : Scaled.compare a b = Ord.compare a.value b.value := by
  set D : ℚ := 2 ^ (-a.two).toNat * 10 ^ (-a.ten).toNat * 2 ^ (-b.two).toNat * 10 ^ (-b.ten).toNat
  have hD : 0 < D := by positivity
  have hl := cross_eq a b
  have hr : ((b.mant * Nat.pow 2 b.two.toNat * Nat.pow 10 b.ten.toNat * Nat.pow 2 (-a.two).toNat *
      Nat.pow 10 (-a.ten).toNat : Nat) : ℚ) = b.value * D := by
    rw [cross_eq b a]; ring
  unfold Scaled.compare
  dsimp only
  rcases lt_trichotomy a.value b.value with h | h | h
  · have : (_ : ℚ) < _ := hl ▸ hr ▸ mul_lt_mul_of_pos_right h hD
    rw [compare_lt_iff_lt.2 h, compare_lt_iff_lt.2 (by exact_mod_cast this)]
  · have : (_ : ℚ) = _ := hl.trans ((congrArg (· * D) h).trans hr.symm)
    rw [compare_eq_iff_eq.2 h, compare_eq_iff_eq.2 (by exact_mod_cast this)]
  · have : (_ : ℚ) < _ := hr ▸ hl ▸ mul_lt_mul_of_pos_right h hD
    rw [compare_gt_iff_gt.2 h, compare_gt_iff_gt.2 (by exact_mod_cast this)]

/-- The quotient `floorDivTen` takes is the whole part of `mant * 2^two / 10^k`. -/
theorem floorDivTen_spec (mant : Nat) (two k : Int) :
    (floorDivTen mant two k : ℚ) * 10 ^ k ≤ mant * 2 ^ two ∧
      (mant : ℚ) * 2 ^ two < (floorDivTen mant two k + 1) * 10 ^ k := by
  set N := mant * Nat.pow 2 two.toNat * Nat.pow 10 (-k).toNat
  set D := Nat.pow 2 (-two).toNat * Nat.pow 10 k.toNat
  have hD : 0 < D := by simp only [D, Nat.pow_eq]; positivity
  have hDq : (0 : ℚ) < D := by exact_mod_cast hD
  have hP : (0 : ℚ) < 10 ^ (-k).toNat := by positivity
  -- both sides scaled by `D * 10^(-k)` are the integers `D * (N / D)` and `N`
  have hv : (mant : ℚ) * 2 ^ two = N / D * 10 ^ k := by
    simp only [N, D, Double.two_zpow, ten_zpow]
    push_cast [Nat.pow_eq]
    field_simp
  have h1 : (D * (N / D) : Nat) ≤ (N : ℚ) := by exact_mod_cast Nat.mul_div_le N D
  have h2 : (N : ℚ) < (D * (N / D + 1) : Nat) := by
    exact_mod_cast (by rw [Nat.mul_add, Nat.mul_one]; exact Nat.lt_div_mul_add hD |>.trans_eq (by ring))
  have hk : (0 : ℚ) < 10 ^ k := by positivity
  rw [hv]
  push_cast at h1 h2
  constructor
  · rw [floorDivTen]
    rw [div_mul_eq_mul_div, le_div_iff₀ hDq]
    nlinarith
  · rw [floorDivTen]
    rw [div_mul_eq_mul_div, div_lt_iff₀ hDq]
    nlinarith

end Scaled

namespace Double

/-! ## The leading decimal exponent -/

/-- `log10 2` lies between `0.30102` and `0.30103`. -/
theorem log_two_bounds : (10 : ℚ) ^ 30102 < 2 ^ 100000 ∧ (2 : ℚ) ^ 100000 < 10 ^ (30102 + 1) := by
  have h1 : 10 ^ 30102 < 2 ^ 100000 := by decide +kernel
  have h2 : 2 ^ 100000 < 10 ^ (30102 + 1) := by decide +kernel
  have h1' := (Nat.cast_lt (α := ℚ)).2 h1
  have h2' := (Nat.cast_lt (α := ℚ)).2 h2
  rw [Nat.cast_pow, Nat.cast_pow, Nat.cast_ofNat, Nat.cast_ofNat] at h1' h2'
  exact ⟨h1', h2'⟩

/-- Where `10^p < 2^N < 10^(p+1)`, an estimate `g ≤ s * (p+1) / N` of the decimal exponent of
`2^s`, taken two lower, gives a power of ten at most `2^s`. -/
theorem ten_zpow_le_of_estimate {N p : Nat} (hlo : (10 : ℚ) ^ p < 2 ^ N) (hhi : (2 : ℚ) ^ N < 10 ^ (p + 1))
    {s g : Int} (hg : N * g ≤ (p + 1) * s) (hs : s ≤ 2 * N) (hN : 0 < N) :
    (10 : ℚ) ^ (g - 2) ≤ 2 ^ s := by
  -- compare the `N`th powers, where the ratio of the logarithms is that of whole exponents
  have e10 : ((10 : ℚ) ^ (g - 2)) ^ N = 10 ^ ((g - 2) * N) := by
    rw [← zpow_natCast, ← zpow_mul]
  have e2 : ((2 : ℚ) ^ s) ^ N = ((2 : ℚ) ^ N) ^ s := by
    calc ((2 : ℚ) ^ s) ^ N = ((2 : ℚ) ^ s) ^ (N : Int) := (zpow_natCast _ _).symm
      _ = 2 ^ ((N : Int) * s) := by rw [← zpow_mul, mul_comm]
      _ = ((2 : ℚ) ^ (N : Int)) ^ s := zpow_mul _ _ _
      _ = ((2 : ℚ) ^ N) ^ s := by rw [zpow_natCast]
  have hpow : ((10 : ℚ) ^ (g - 2)) ^ N ≤ ((2 : ℚ) ^ s) ^ N := by
    rw [e10, e2]
    rcases Int.eq_nat_or_neg s with ⟨n, rfl | rfl⟩
    · calc (10 : ℚ) ^ ((g - 2) * (N : Int)) ≤ 10 ^ ((p * n : Nat) : Int) :=
            zpow_le_zpow_right₀ (by norm_num) (by push_cast; nlinarith)
        _ = ((10 : ℚ) ^ p) ^ n := by rw [zpow_natCast, pow_mul]
        _ ≤ ((2 : ℚ) ^ N) ^ n := pow_le_pow_left₀ (by positivity) hlo.le n
        _ = ((2 : ℚ) ^ N) ^ (n : Int) := (zpow_natCast _ n).symm
    · calc (10 : ℚ) ^ ((g - 2) * (N : Int)) ≤ 10 ^ (-(((p + 1) * n : Nat) : Int)) :=
            zpow_le_zpow_right₀ (by norm_num) (by push_cast; nlinarith)
        _ = (((10 : ℚ) ^ (p + 1)) ^ n)⁻¹ := by rw [zpow_neg, zpow_natCast, pow_mul]
        _ ≤ (((2 : ℚ) ^ N) ^ n)⁻¹ := inv_anti₀ (by positivity) (pow_le_pow_left₀ (by positivity) hhi.le n)
        _ = ((2 : ℚ) ^ N) ^ (-(n : Int)) := by rw [zpow_neg, zpow_natCast]
  exact (pow_le_pow_iff_left₀ (by positivity) (by positivity) hN.ne').1 hpow

/-- The test `leadingExponent` makes of an exponent `k`: `10^k` is at most the value. -/
theorem below_iff (m : Nat) (e k : Int) :
    (Scaled.compare ⟨1, 0, k⟩ ⟨m, e, 0⟩ != .gt) = true ↔ (10 : ℚ) ^ k ≤ m * 2 ^ e := by
  rw [Scaled.compare_eq, bne_iff_ne, ne_eq, compare_gt_iff_gt, not_lt]
  simp [Scaled.value]

/-- The decimal exponent the search starts from: `10^K` is at most the value. -/
theorem leadingExponent_le {m : Nat} {e : Int} (hm : 0 < m) (hs : (Nat.log2 m : Int) + e ≤ 200000) :
    (10 : ℚ) ^ leadingExponent m e ≤ m * 2 ^ e := by
  set g : Int := (((Nat.log2 m : Int) + e) * 30103).fdiv 100000
  have hg : ((100000 : Nat) : Int) * g ≤ ((30102 + 1 : Nat) : Int) * ((Nat.log2 m : Int) + e) := by
    have := Int.ediv_mul_le (((Nat.log2 m : Int) + e) * 30103) (by norm_num : (100000 : Int) ≠ 0)
    simp only [g, Int.fdiv_eq_ediv, if_pos (Or.inl (by norm_num : (0 : Int) ≤ 100000)), sub_zero]
    push_cast
    linarith
  -- the guess taken two lower is below the value
  have hlow : (10 : ℚ) ^ (g - 2) ≤ m * 2 ^ e := by
    have hm1 : (2 : ℚ) ^ Nat.log2 m ≤ m := by exact_mod_cast Nat.log2_self_le hm.ne'
    calc (10 : ℚ) ^ (g - 2) ≤ 2 ^ ((Nat.log2 m : Int) + e) :=
          ten_zpow_le_of_estimate log_two_bounds.1 log_two_bounds.2 hg (by omega) (by norm_num)
      _ = 2 ^ Nat.log2 m * 2 ^ e := by rw [zpow_add₀ two_ne_zero, zpow_natCast]
      _ ≤ m * 2 ^ e := by gcongr
  unfold leadingExponent
  dsimp only
  simp only [below_iff]
  -- each correction keeps an exponent whose power is below the value
  split_ifs <;> first | assumption | (rw [show g - 1 - 1 = g - 2 by ring]; exact hlow)

/-! ## The test of a candidate -/

/-- An ordering is "inside" when it is `lt`, or `eq` where the ends count. -/
theorem inside_iff (x y : ℚ) (ends : Bool) :
    (compare x y == .lt || (compare x y == .eq && ends)) = true ↔ x < y ∨ (x = y ∧ ends = true) := by
  rcases lt_trichotomy x y with h | rfl | h
  · simp [compare_lt_iff_lt.2 h, h]
  · simp
  · simp [compare_gt_iff_gt.2 h, h.not_gt, h.ne']

/-- Both ends inside, the ends counting for an even significand: the rounding interval. -/
theorem inside_both_iff {lo x hi : ℚ} (m : Nat) :
    ((lo < x ∨ (lo = x ∧ (m % 2 == 0) = true)) ∧ (x < hi ∨ (x = hi ∧ (m % 2 == 0) = true))) ↔
      lo ≤ x ∧ x ≤ hi ∧ (m % 2 = 1 → lo < x ∧ x < hi) := by
  rcases Nat.mod_two_eq_zero_or_one m with h | h
  · simp only [h, beq_self_eq_true, and_true, ← le_iff_lt_or_eq, Nat.zero_ne_one, false_imp_iff]
  · simp only [h, Nat.reduceBEq, Bool.false_eq_true, and_false, or_false, forall_const]
    exact ⟨fun ⟨h1, h2⟩ => ⟨h1.le, h2.le, h1, h2⟩, fun ⟨_, _, h1, h2⟩ => ⟨h1, h2⟩⟩

/-- `readsBackAs` tests the rounding interval of the word. -/
theorem readsBackAs_iff {m : Nat} (hm : 0 < m) (e : Int) (n : Nat) (t : Int) :
    readsBackAs m e n t = true ↔ RoundsTo ((n : ℚ) * 10 ^ t) m e := by
  -- the ends of the interval as `readsBackAs` writes them
  have hlo : ((4 * m - (if m = Nat.pow 2 52 ∧ e > minExponent then 1 else 2) : Nat) : ℚ) * 2 ^ (e - 2) =
      m * 2 ^ e - gapBelow m e := by
    rw [gapBelow, two_zpow_sub_two, two_zpow_sub_one, Nat.pow_eq]
    by_cases hc : m = 2 ^ 52 ∧ minExponent < e
    · rw [if_pos hc, if_pos hc, Nat.cast_sub (by omega)]
      push_cast; ring
    · rw [if_neg hc, if_neg hc, Nat.cast_sub (by omega)]
      push_cast; ring
  have hhi : ((4 * m + 2 : Nat) : ℚ) * 2 ^ (e - 2) = m * 2 ^ e + 2 ^ (e - 1) := by
    rw [two_zpow_sub_two, two_zpow_sub_one]; push_cast; ring
  unfold readsBackAs
  simp only [Scaled.compare_eq, Scaled.value, Bool.and_eq_true, inside_iff, zpow_zero, mul_one,
    hlo, hhi]
  exact inside_both_iff m

/-- A decimal that rounds to a positive word is positive. -/
theorem pos_of_roundsTo {m : Nat} (hm : 0 < m) {e : Int} {n : Nat} {t : Int}
    (h : RoundsTo ((n : ℚ) * 10 ^ t) m e) : 0 < n := by
  have hp : (0 : ℚ) < 2 ^ e := zpow_pos (by norm_num) e
  have hg := gapBelow_le m e
  have hm1 : (1 : ℚ) ≤ m := by exact_mod_cast hm
  have : (0 : ℚ) < n * 10 ^ t := by nlinarith [h.1]
  have ht : (0 : ℚ) < 10 ^ t := zpow_pos (by norm_num) t
  exact_mod_cast pos_of_mul_pos_left this ht.le

/-! ## The search -/

/-- Every candidate found reads back: each branch returns a neighbour it has tested. -/
theorem candidate_reads {m : Nat} {e : Int} {p n : Nat} {t : Int} (h : candidate m e p = some (n, t)) :
    readsBackAs m e n t = true := by
  unfold candidate at h
  dsimp only at h
  split at h
  · next hboth =>
    rw [Bool.and_eq_true] at hboth
    split at h
    · cases h; exact hboth.1
    · cases h; exact hboth.2
    · split at h <;> cases h
      · exact hboth.1
      · exact hboth.2
  · split at h
    · next hlo => cases h; exact hlo
    · split at h
      · next hhi => cases h; exact hhi
      · cases h

/-- A grid where one of the two neighbours reads back gives a candidate. -/
theorem candidate_isSome_of {m : Nat} {e : Int} {p : Nat}
    (h : readsBackAs m e (Scaled.floorDivTen m e (leadingExponent m e - p + 1)) (leadingExponent m e - p + 1) = true ∨
      readsBackAs m e (Scaled.floorDivTen m e (leadingExponent m e - p + 1) + 1) (leadingExponent m e - p + 1) = true) :
    (candidate m e p).isSome := by
  unfold candidate
  dsimp only
  split
  · split <;> rfl
  · split
    · rfl
    · split
      · rfl
      · next hlo hhi => exact absurd h (by rw [not_or]; exact ⟨hlo, hhi⟩)

theorem firstCandidate_reads {m : Nat} {e : Int} {n : Nat} {t : Int} :
    ∀ {fuel p : Nat}, firstCandidate m e fuel p = some (n, t) → readsBackAs m e n t = true
  | 0, _, h => by simp [firstCandidate] at h
  | fuel + 1, p, h => by
    unfold firstCandidate at h
    split at h
    · next c hc => cases h; exact candidate_reads hc
    · exact firstCandidate_reads h

/-- The search finds a candidate when it reaches a grid that has one. -/
theorem firstCandidate_isSome {m : Nat} {e : Int} {q : Nat} (hq : (candidate m e q).isSome) :
    ∀ {fuel p : Nat}, p ≤ q → q < p + fuel → (firstCandidate m e fuel p).isSome
  | 0, _, _, h => by omega
  | fuel + 1, p, hpq, hq' => by
    unfold firstCandidate
    split
    · rfl
    · next hnone =>
      have hp : p ≠ q := by rintro rfl; simp [hnone] at hq
      exact firstCandidate_isSome hq (by omega) (by omega)

/-- Half a step of the grid of seventeen significant digits is shorter than the gap from the
word to either neighbour: `10^(K-16) / 2 ≤ v / (2 * 10^16) < v / 2^54 ≤ gapBelow`. -/
theorem half_step_lt_gapBelow {m : Nat} {e K : Int} (hm53 : m < 2 ^ 53)
    (hK : (10 : ℚ) ^ K ≤ m * 2 ^ e) : (10 : ℚ) ^ (K - 16) / 2 < gapBelow m e := by
  have hp : (0 : ℚ) < 2 ^ e := zpow_pos (by norm_num) e
  have hm : (m : ℚ) ≤ 2 ^ 53 := by exact_mod_cast hm53.le
  have hv : (10 : ℚ) ^ (K - 16) = 10 ^ K / 10 ^ 16 := by rw [zpow_sub₀ (by norm_num)]; norm_num
  have hK' : (0 : ℚ) < 10 ^ K := zpow_pos (by norm_num) K
  have hgap : (m : ℚ) * 2 ^ e / 2 ^ 54 ≤ gapBelow m e := by
    unfold gapBelow
    split
    · next h => rw [h.1, two_zpow_sub_two]; push_cast; ring_nf; rfl
    · rw [two_zpow_sub_one]
      rw [div_le_div_iff₀ (by norm_num) (by norm_num)]
      nlinarith
  calc (10 : ℚ) ^ (K - 16) / 2 = 10 ^ K / (2 * 10 ^ 16) := by rw [hv]; ring
    _ ≤ m * 2 ^ e / (2 * 10 ^ 16) := by gcongr
    _ < m * 2 ^ e / 2 ^ 54 := by
        apply div_lt_div_of_pos_left (lt_of_lt_of_le hK' hK) (by norm_num) (by norm_num)
    _ ≤ gapBelow m e := hgap

/-- Seventeen significant digits always give a candidate: of the two neighbours of the value
on that grid the nearer is within half a step, inside the rounding interval. -/
theorem candidate_isSome {m : Nat} {e : Int} (hm : 0 < m) (hm53 : m < 2 ^ 53)
    (hs : (Nat.log2 m : Int) + e ≤ 200000) : (candidate m e 17).isSome := by
  apply candidate_isSome_of
  set K := leadingExponent m e
  set t : Int := K - (17 : Nat) + 1
  set lo := Scaled.floorDivTen m e t
  have ht : t = K - 16 := by simp only [t]; push_cast; ring
  have hp : (0 : ℚ) < 2 ^ e := zpow_pos (by norm_num) e
  have hu : (0 : ℚ) < 10 ^ t := zpow_pos (by norm_num) t
  have hhalf := half_step_lt_gapBelow hm53 (leadingExponent_le hm hs)
  rw [← ht] at hhalf
  have hg := gapBelow_le m e
  have hg' : gapBelow m e ≤ 2 ^ (e - 1) := by rw [two_zpow_sub_one]; exact hg
  obtain ⟨h1, h2⟩ := Scaled.floorDivTen_spec m e t
  simp only [readsBackAs_iff hm, RoundsTo]
  by_cases hnear : (m : ℚ) * 2 ^ e - lo * 10 ^ t ≤ 10 ^ t / 2
  · -- the lower neighbour is within half a step
    left
    refine ⟨by linarith, by linarith, fun _ => ⟨by linarith, by linarith⟩⟩
  · -- the upper one is
    right
    have hup : ((lo + 1 : Nat) : ℚ) * 10 ^ t = lo * 10 ^ t + 10 ^ t := by push_cast; ring
    rw [hup]
    refine ⟨by linarith, by linarith, fun _ => ⟨by linarith, by linarith⟩⟩

/-- Dropping trailing zeros keeps the value and a positive significand. -/
theorem trimZeros_spec : ∀ (fuel n : Nat) (t : Int), 0 < n →
    0 < (trimZeros fuel n t).1 ∧ ((trimZeros fuel n t).1 : ℚ) * 10 ^ (trimZeros fuel n t).2 = n * 10 ^ t
  | 0, n, t, hn => ⟨hn, rfl⟩
  | fuel + 1, n, t, hn => by
    unfold trimZeros
    split
    · next h =>
      obtain ⟨hpos, hval⟩ := trimZeros_spec fuel (n / 10) (t + 1) (by omega)
      refine ⟨hpos, hval.trans ?_⟩
      have hn10 : ((n / 10 : Nat) : ℚ) * 10 = n := by exact_mod_cast Nat.div_mul_cancel (Nat.dvd_of_mod_eq_zero h.2)
      rw [zpow_add₀ (by norm_num), zpow_one, ← hn10]
      ring
    · exact ⟨hn, rfl⟩

/-- The shortest digits of a positive canonical word are those of a positive `n` whose
`n * 10^t` rounds back to the word; the point stands `t` places after the last digit. -/
theorem shortest_spec {m : Nat} {e : Int} (hc : Canonical m e) (hm : 0 < m) :
    ∃ (n : Nat) (t : Int), 0 < n ∧ RoundsTo ((n : ℚ) * 10 ^ t) m e ∧
      shortest m e = (toString n, t + (toString n).length) := by
  have hm53 : m < 2 ^ 53 := by rcases hc with h | h <;> omega
  have hs : (Nat.log2 m : Int) + e ≤ 200000 := by
    have hl : Nat.log2 m < 53 := (Nat.log2_lt hm.ne').2 hm53
    have he : e ≤ maxExponent := by rcases hc with h | ⟨-, rfl⟩; exacts [h.2.2.2, by decide]
    simp only [maxExponent] at he
    omega
  obtain ⟨⟨n₀, t₀⟩, hfound⟩ := Option.isSome_iff_exists.1
    (@firstCandidate_isSome m e 17 (candidate_isSome hm hm53 hs) 18 1 (by omega) (by omega))
  have hround := (readsBackAs_iff hm e n₀ t₀).1 (firstCandidate_reads hfound)
  have hn₀ := pos_of_roundsTo hm hround
  obtain ⟨hpos, hval⟩ := trimZeros_spec 20 n₀ t₀ hn₀
  refine ⟨_, _, hpos, hval ▸ hround, ?_⟩
  simp only [shortest, hfound, Option.getD_some]

end Double

end DapBridge
