import DapBridge.Proofs.Rounding
import DapBridge.Number.Index

/-!
# Windows of whole numbers

Stack traces and task frames are cut by `sliceBy`, which reads its two numbers as JavaScript reads
positions: truncated, counted from the end when negative, clamped to the list. For the numbers a
client sends in practice, whole numbers up to `2^53`, none of that applies and the window is the
plain one:

* `sliceBy_ofNat`, `sliceBy_ofNat_none`: from `s` up to `k`, or from `s` to the end;
* underneath, whole numbers up to `2^53` add exactly (`Double.ofNat_add_ofNat`), truncate to
  themselves (`Double.truncInt_ofNat`) and are above zero exactly when they are not zero
  (`Double.lt_zero_ofNat`).
-/

namespace DapBridge

namespace Double

/-- Adding whole numbers is exact while the sum is at most `2^53`. -/
theorem ofNat_add_ofNat {m n : Nat} (h : m + n ≤ 2 ^ 53) : ofNat m + ofNat n = ofNat (m + n) := by
  rcases Nat.eq_zero_or_pos (m + n) with h0 | hpos
  · obtain ⟨rfl, rfl⟩ : m = 0 ∧ n = 0 := by omega
    decide
  obtain ⟨a, e, hd, hv⟩ := decode_ofNat (n := m) (by omega)
  obtain ⟨b, f, hd', hv'⟩ := decode_ofNat (n := n) (by omega)
  obtain ⟨M, E, hc, hV⟩ := exists_canonical hpos h
  have hsum : value false a e + value false b f = (m + n : Nat) := by
    simp only [value, Bool.false_eq_true, if_false, hv, hv']; push_cast; ring
  rw [ofNat_eq_encode hc hV hpos]
  refine add_eq_encode hd hd' (by rw [hsum]; exact_mod_cast hpos) hc ?_
  rw [hsum, ← hV]
  exact roundsTo_self

/-- A word of whole value with a negative exponent has that value shifted up by the exponent as
its significand. -/
theorem significand_of_neg {m n : Nat} {e : Int} (hv : (m : ℚ) * 2 ^ e = n) (he : e < 0) :
    m = n * 2 ^ (-e).toNat := by
  have hk : (2 : ℚ) ^ e * 2 ^ (-e).toNat = 1 := by
    rw [← zpow_natCast, Int.toNat_of_nonneg (by omega), ← zpow_add₀ two_ne_zero]
    simp
  have : (m : ℚ) = n * 2 ^ (-e).toNat := by rw [← hv, mul_assoc, hk, mul_one]
  exact_mod_cast this

/-- A whole number up to `2^53` truncates to itself. -/
theorem truncInt_ofNat {n : Nat} (h : n ≤ 2 ^ 53) : (ofNat n).truncInt = some (n : Int) := by
  obtain ⟨m, e, hd, hv⟩ := decode_ofNat h
  simp only [truncInt, hd, Bool.false_eq_true, if_false, Option.some.injEq, Nat.cast_inj]
  split
  · rename_i he
    have : ((m * 2 ^ e.toNat : Nat) : ℚ) = n := by
      rw [← hv]
      push_cast
      rw [← zpow_natCast, Int.toNat_of_nonneg he]
    rw [Nat.pow_eq]
    exact_mod_cast this
  · rename_i he
    rw [Nat.pow_eq, significand_of_neg hv (by omega), Nat.mul_div_cancel _ (Nat.two_pow_pos _)]

/-- A whole number up to `2^53` is the position it names, clamped to the list. -/
theorem clampIndex_ofNat {n : Nat} (h : n ≤ 2 ^ 53) (len : Nat) : (ofNat n).clampIndex len = min n len := by
  obtain ⟨m, e, hd, -⟩ := decode_ofNat h
  simp only [clampIndex, hd, truncInt_ofNat h]
  simp

/-- A whole number up to `2^53` is above zero exactly when it is not zero. -/
theorem lt_zero_ofNat {n : Nat} (h : n ≤ 2 ^ 53) : Double.lt 0 (ofNat n) = decide (0 < n) := by
  rcases Nat.eq_zero_or_pos n with rfl | hn
  · decide
  · simp only [Double.lt, hn, decide_true]
    exact decide_eq_true (compareNum_ofNat_lt hn h)

end Double

/-- The window of whole numbers: the items from `start`, up to `stop`. -/
theorem sliceBy_ofNat {α : Type} (xs : List α) {s k : Nat} (hs : s ≤ 2 ^ 53) (hk : k ≤ 2 ^ 53) :
    sliceBy xs (Double.ofNat s) (some (Double.ofNat k)) = (xs.drop s).take (k - s) := by
  simp only [sliceBy, Double.clampIndex_ofNat hs, Double.clampIndex_ofNat hk, Option.map_some, Option.getD_some]
  -- past the end, dropping more leaves nothing either way
  have hd : xs.drop (min s xs.length) = xs.drop s := by
    rcases le_total s xs.length with h | h
    · rw [min_eq_left h]
    · rw [min_eq_right h, List.drop_length, List.drop_eq_nil_of_le h]
  rw [hd, List.take_eq_take_iff, List.length_drop]
  omega

/-- The window of a whole number with no end: the items from `start` on. -/
theorem sliceBy_ofNat_none {α : Type} (xs : List α) {s : Nat} (hs : s ≤ 2 ^ 53) :
    sliceBy xs (Double.ofNat s) none = xs.drop s := by
  simp only [sliceBy, Double.clampIndex_ofNat hs, Option.map_none, Option.getD_none]
  rcases le_total s xs.length with h | h
  · rw [min_eq_left h, List.take_of_length_le (by simp)]
  · rw [min_eq_right h, List.drop_length, List.drop_eq_nil_of_le h, List.take_nil]

end DapBridge
