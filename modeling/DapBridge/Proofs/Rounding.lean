import DapBridge.Number.Double
import Mathlib.Tactic.Linarith
import Mathlib.Tactic.Positivity
import Mathlib.Tactic.NormNum
import Mathlib.Tactic.Ring
import Mathlib.Tactic.FieldSimp
import Mathlib.Algebra.Order.Field.Power

/-!
# The one rounding step lands on the nearest word

Every number the adapter computes is made by `Double.round`, which takes an exact positive
quotient `n / d`, picks the binary exponent its significand fits (`unitExponent`), rounds the
scaled quotient half to even (`scaleRound`), carries into the next exponent when the
significand reaches `2^53`, and packs the word. This module says what that word is, in
exact rational arithmetic:

* `decode_encode`: a canonical significand and exponent (`Canonical`: 53 bits, or subnormal at
  the least exponent) packed by `encode` decode back to themselves;
* `divRound_nearest` and `scaleRound_nearest`: the significand is the nearest whole number to
  the scaled quotient, a tie going to the even one (`NearestEven`);
* `unitExponent_spec`: the exponent picked is the one whose binade holds the quotient;
* `round_eq_encode`: a quotient in the rounding interval of a canonical word (`RoundsTo`: within
  half a gap either side, the ends only for an even significand) rounds to that word.

From these: whole numbers up to `2^53` are exact words (`decode_ofNat`), compare as numbers
(`eq_ofNat_iff`, `compareNum_ofNat_lt`), and counting by one is exact up to `2^53`
(`ofNat_add_one`); one past `2^53` ties and rounds back to it, so a count stays there. The same
holds of whole numbers of either sign from `-2^53` on (`decode_ofInt`, `eq_ofInt_iff`,
`ofInt_add_one`), through the sum of two words of any sign (`add_eq_encode_of_ne`).
-/

namespace DapBridge

namespace Double

/-- A significand and exponent as `decode` gives them for a finite word: a normal significand
has 53 bits; a subnormal one, zero included, sits at the least exponent. -/
def Canonical (m : Nat) (e : Int) : Prop :=
  (2 ^ 52 ≤ m ∧ m < 2 ^ 53 ∧ minExponent ≤ e ∧ e ≤ maxExponent) ∨ (m < 2 ^ 52 ∧ e = minExponent)

/-- The finite word of a sign and a canonical significand and exponent. -/
def encode (neg : Bool) (m : Nat) (e : Int) : Double :=
  if m < Nat.pow 2 52 then pack neg 0 m else pack neg (e + 1075).toNat (m - Nat.pow 2 52)

theorem pack_bits (neg : Bool) {E F : Nat} (hE : E < 2047) (hF : F < 2 ^ 52) :
    (pack neg E F).bits.toNat = (if neg then 2 ^ 63 else 0) + E * 2 ^ 52 + F := by
  simp only [pack, UInt64.toNat_ofNat', Nat.pow_eq]
  apply Nat.mod_eq_of_lt
  split <;> omega

theorem decode_pack (neg : Bool) {E F : Nat} (hE : E < 2047) (hF : F < 2 ^ 52) :
    (pack neg E F).decode =
      if E = 0 then .finite neg F minExponent else .finite neg (F + 2 ^ 52) ((E : Int) - 1075) := by
  have hb := pack_bits neg hE hF
  have hexp : (pack neg E F).exponentField = E := by
    simp only [exponentField, hb, Nat.pow_eq]
    split <;> omega
  have hfrac : (pack neg E F).fractionField = F := by
    simp only [fractionField, hb, Nat.pow_eq]
    split <;> omega
  have hsign : (pack neg E F).signBit = neg := by
    simp only [signBit, hb, Nat.pow_eq]
    cases neg <;> simp <;> omega
  simp only [decode, hexp, hfrac, hsign, Nat.pow_eq]
  rw [if_neg (by omega)]

theorem decode_encode {m : Nat} {e : Int} (h : Canonical m e) (neg : Bool) :
    (encode neg m e).decode = .finite neg m e := by
  simp only [encode, Nat.pow_eq]
  rcases h with ⟨h1, h2, h3, h4⟩ | ⟨h1, rfl⟩
  · simp only [minExponent, maxExponent] at h3 h4
    rw [if_neg (by omega), decode_pack neg (by omega) (by omega), if_neg (by omega)]
    congr 1 <;> omega
  · rw [if_pos h1, decode_pack neg (by omega) h1, if_pos rfl]

/-! ## Rounding half to even -/

/-- `k` is the whole number nearest to `q`, and at a tie the even one. -/
def NearestEven (q : ℚ) (k : Nat) : Prop :=
  (k : ℚ) - 1 / 2 ≤ q ∧ q ≤ k + 1 / 2 ∧ (k % 2 = 1 → (k : ℚ) - 1 / 2 < q ∧ q < k + 1 / 2)

theorem NearestEven.unique {q : ℚ} {k k' : Nat} (h : NearestEven q k) (h' : NearestEven q k') :
    k = k' := by
  obtain ⟨h1, h2, h3⟩ := h
  obtain ⟨h1', h2', h3'⟩ := h'
  have hle : (k : ℚ) ≤ k' + 1 := by linarith
  have hle' : (k' : ℚ) ≤ k + 1 := by linarith
  have a : k ≤ k' + 1 := by exact_mod_cast hle
  have b : k' ≤ k + 1 := by exact_mod_cast hle'
  rcases Nat.lt_trichotomy k k' with hk | hk | hk
  · -- neighbours: `q` sits halfway, and one of the two is odd
    have hk' : k' = k + 1 := by omega
    subst hk'
    push_cast at h1' h2' h3'
    rcases Nat.mod_two_eq_zero_or_one k with hp | hp
    · have := (h3' (by omega)).1; linarith
    · have := (h3 hp).2; linarith
  · exact hk
  · have hk' : k = k' + 1 := by omega
    subst hk'
    push_cast at h1 h2 h3
    rcases Nat.mod_two_eq_zero_or_one k' with hp | hp
    · have := (h3 (by omega)).1; linarith
    · have := (h3' hp).2; linarith

/-- `divRound` rounds a quotient half to even. -/
theorem divRound_nearest (n : Nat) {d : Nat} (hd : 0 < d) : NearestEven ((n : ℚ) / d) (divRound n d) := by
  have hdq : (0 : ℚ) < d := by exact_mod_cast hd
  have hsplit : (n : ℚ) / d = (n / d : Nat) + (n % d : Nat) / d := by
    rw [div_eq_iff hdq.ne', add_mul, div_mul_cancel₀ _ hdq.ne']
    exact_mod_cast (Nat.div_add_mod' n d).symm
  have hr : (n % d : Nat) < d := Nat.mod_lt n hd
  unfold divRound
  dsimp only
  rw [hsplit]
  split
  · rename_i hup
    -- the remainder is at least half the divisor: the quotient rounds up
    have h2r : d ≤ 2 * (n % d) := by omega
    have hlo : (1 : ℚ) / 2 ≤ (n % d : Nat) / d := by
      rw [div_le_div_iff₀ (by norm_num) hdq]; exact_mod_cast (by omega : 1 * d ≤ (n % d) * 2)
    have hhi : ((n % d : Nat) : ℚ) / d < 1 := by
      rw [div_lt_one hdq]; exact_mod_cast hr
    refine ⟨by push_cast; linarith, by push_cast; linarith, fun hodd => ⟨?_, by push_cast; linarith⟩⟩
    have hstrict : d < 2 * (n % d) := by omega
    have : (1 : ℚ) / 2 < (n % d : Nat) / d := by
      rw [div_lt_div_iff₀ (by norm_num) hdq]; exact_mod_cast (by omega : 1 * d < (n % d) * 2)
    push_cast; linarith
  · rename_i hdown
    have hhi : ((n % d : Nat) : ℚ) / d ≤ 1 / 2 := by
      rw [div_le_div_iff₀ hdq (by norm_num)]; exact_mod_cast (by omega : (n % d) * 2 ≤ 1 * d)
    have hlo : (0 : ℚ) ≤ (n % d : Nat) / d := by positivity
    refine ⟨by linarith, by linarith, fun hodd => ⟨by linarith, ?_⟩⟩
    have : ((n % d : Nat) : ℚ) / d < 1 / 2 := by
      rw [div_lt_div_iff₀ hdq (by norm_num)]; exact_mod_cast (by omega : (n % d) * 2 < 1 * d)
    linarith

/-- A power of two with an exponent of either sign, as a quotient of natural powers. -/
theorem two_zpow (k : Int) : (2 : ℚ) ^ k = 2 ^ k.toNat / 2 ^ (-k).toNat := by
  conv_lhs => rw [← Int.toNat_sub_toNat_neg k]
  rw [zpow_sub₀ two_ne_zero, zpow_natCast, zpow_natCast]

theorem two_zpow_add (k : Int) (j : Nat) [j.AtLeastTwo] :
    (2 : ℚ) ^ (k + OfNat.ofNat j) = 2 ^ k * 2 ^ (OfNat.ofNat j : Nat) := by
  rw [zpow_add₀ two_ne_zero, zpow_ofNat]

/-- `scaleRound` rounds `n / d / 2^k` half to even. -/
theorem scaleRound_nearest (n : Nat) {d : Nat} (hd : 0 < d) (k : Int) :
    NearestEven ((n : ℚ) / d / 2 ^ k) (scaleRound n k d) := by
  unfold scaleRound
  rw [two_zpow k]
  split
  · rename_i hk
    have h0 : (-k).toNat = 0 := by omega
    have := @divRound_nearest n (d * Nat.pow 2 k.toNat) (Nat.mul_pos hd (by simp [Nat.pow_eq]))
    rw [h0, pow_zero, div_one, div_div]
    simpa [Nat.pow_eq] using this
  · rename_i hk
    have h0 : k.toNat = 0 := by omega
    have := divRound_nearest (n * Nat.pow 2 (-k).toNat) hd
    rw [h0, pow_zero, div_div_eq_mul_div, div_one]
    simpa [Nat.pow_eq, mul_div_right_comm] using this

/-- The test `unitExponent` makes of an exponent: the quotient at that exponent is below
`2^53`. -/
theorem fits_iff (n : Nat) {d : Nat} (hd : 0 < d) (e : Int) :
    (if e ≥ 0 then n / (d * Nat.pow 2 e.toNat) else n * Nat.pow 2 (-e).toNat / d) < Nat.pow 2 53 ↔
      (n : ℚ) / d < 2 ^ (e + 53) := by
  have hdq : (0 : ℚ) < d := by exact_mod_cast hd
  rw [div_lt_iff₀ hdq, two_zpow_add, two_zpow e]
  split
  · rename_i he
    rw [show (-e).toNat = 0 by omega, pow_zero, div_one,
      Nat.div_lt_iff_lt_mul (Nat.mul_pos hd (by simp [Nat.pow_eq]))]
    simp only [Nat.pow_eq]
    constructor <;> intro h
    · have : (n : ℚ) < ((2 ^ 53 * (d * 2 ^ e.toNat) : Nat) : ℚ) := by exact_mod_cast h
      push_cast at this; linarith
    · have : (n : ℚ) < ((2 ^ 53 * (d * 2 ^ e.toNat) : Nat) : ℚ) := by push_cast; linarith
      exact_mod_cast this
  · rename_i he
    rw [show e.toNat = 0 by omega, pow_zero, Nat.div_lt_iff_lt_mul hd]
    simp only [Nat.pow_eq]
    have hp : (0 : ℚ) < 2 ^ (-e).toNat := by positivity
    constructor <;> intro h
    · have : ((n * 2 ^ (-e).toNat : Nat) : ℚ) < ((2 ^ 53 * d : Nat) : ℚ) := by exact_mod_cast h
      push_cast at this
      rw [show (1 : ℚ) / 2 ^ (-e).toNat * 2 ^ 53 * d = 2 ^ 53 * d / 2 ^ (-e).toNat by ring,
        lt_div_iff₀ hp]
      exact this
    · rw [show (1 : ℚ) / 2 ^ (-e).toNat * 2 ^ 53 * d = 2 ^ 53 * d / 2 ^ (-e).toNat by ring,
        lt_div_iff₀ hp] at h
      have : ((n * 2 ^ (-e).toNat : Nat) : ℚ) < ((2 ^ 53 * d : Nat) : ℚ) := by push_cast; exact h
      exact_mod_cast this

/-- A positive quotient lies between the powers of two its numerator's and denominator's
lengths give: within a factor of two of `2^(log2 n - log2 d)` either way. -/
theorem quotient_bounds {n d : Nat} (hn : 0 < n) (hd : 0 < d) :
    (2 : ℚ) ^ ((Nat.log2 n : Int) - Nat.log2 d - 1) < (n : ℚ) / d ∧
      (n : ℚ) / d < 2 ^ ((Nat.log2 n : Int) - Nat.log2 d + 1) := by
  have hn1 : ((2 ^ Nat.log2 n : Nat) : ℚ) ≤ n := by exact_mod_cast Nat.log2_self_le hn.ne'
  have hn2 : (n : ℚ) < ((2 ^ (Nat.log2 n + 1) : Nat) : ℚ) := by exact_mod_cast Nat.lt_log2_self
  have hd1 : ((2 ^ Nat.log2 d : Nat) : ℚ) ≤ d := by exact_mod_cast Nat.log2_self_le hd.ne'
  have hd2 : (d : ℚ) < ((2 ^ (Nat.log2 d + 1) : Nat) : ℚ) := by exact_mod_cast Nat.lt_log2_self
  push_cast at hn1 hn2 hd1 hd2
  have hnq : (0 : ℚ) < n := by exact_mod_cast hn
  have hdq : (0 : ℚ) < d := by exact_mod_cast hd
  constructor
  · rw [show ((Nat.log2 n : Int) - Nat.log2 d - 1) = ((Nat.log2 n : Nat) : Int) - ((Nat.log2 d + 1 : Nat) : Int)
      by push_cast; ring, zpow_sub₀ two_ne_zero, zpow_natCast, zpow_natCast]
    calc (2 : ℚ) ^ Nat.log2 n / 2 ^ (Nat.log2 d + 1) ≤ n / 2 ^ (Nat.log2 d + 1) := by gcongr
      _ < n / d := by gcongr
  · rw [show ((Nat.log2 n : Int) - Nat.log2 d + 1) = ((Nat.log2 n + 1 : Nat) : Int) - ((Nat.log2 d : Nat) : Int)
      by push_cast; ring, zpow_sub₀ two_ne_zero, zpow_natCast, zpow_natCast]
    calc (n : ℚ) / d ≤ n / 2 ^ Nat.log2 d := by gcongr
      _ < 2 ^ (Nat.log2 n + 1) / 2 ^ Nat.log2 d := by gcongr

/-- The exponent `unitExponent` picks for a positive quotient: scaled to it the quotient is
below `2^53`, and at least `2^52` unless the exponent is the least one. -/
theorem unitExponent_spec {n d : Nat} (hn : 0 < n) (hd : 0 < d) :
    (n : ℚ) / d < 2 ^ (unitExponent n d + 53) ∧
      (unitExponent n d = minExponent ∨ (2 : ℚ) ^ (unitExponent n d + 52) ≤ n / d) ∧
      minExponent ≤ unitExponent n d := by
  obtain ⟨hlo, hhi⟩ := quotient_bounds hn hd
  set g : Int := (Nat.log2 n : Int) - Nat.log2 d - 52 with hg
  have e1 : g - 1 + 52 = (Nat.log2 n : Int) - Nat.log2 d - 1 := by omega
  have e2 : g + 53 = (Nat.log2 n : Int) - Nat.log2 d + 1 := by omega
  have hpick : unitExponent n d =
      max (if (n : ℚ) / d < 2 ^ (g - 1 + 53) then g - 1 else g) minExponent := by
    have hfit : (n : ℚ) / d < 2 ^ (g + 53) := by rw [e2]; exact hhi
    unfold unitExponent
    simp only [decide_eq_true_eq, fits_iff n hd, ← hg, hfit, if_true]
  -- the exponent before the floor at `minExponent`
  obtain ⟨e, he, hbelow, habove⟩ : ∃ e, unitExponent n d = max e minExponent ∧
      (n : ℚ) / d < 2 ^ (e + 53) ∧ (2 : ℚ) ^ (e + 52) ≤ n / d := by
    refine ⟨_, hpick, ?_⟩
    split
    · rename_i h
      exact ⟨h, by rw [e1]; exact hlo.le⟩
    · rename_i h
      refine ⟨by rw [e2]; exact hhi, ?_⟩
      rw [show g + 52 = g - 1 + 53 by ring]
      exact not_lt.1 h
  rw [he]
  rcases le_total minExponent e with hmin | hmin
  · rw [max_eq_left hmin]
    exact ⟨hbelow, .inr habove, hmin⟩
  · rw [max_eq_right hmin]
    refine ⟨lt_of_lt_of_le hbelow (zpow_le_zpow_right₀ (by norm_num) (by omega)), .inl rfl, le_refl _⟩

/-- `round` scales the quotient to the exponent `unitExponent` picks, rounds the significand
half to even, carries into the next exponent when it reaches `2^53`, and packs the result,
past the largest exponent as an infinity. -/
theorem round_pos (neg : Bool) {n d : Nat} (hn : 0 < n) (hd : 0 < d) :
    round neg n d =
      if scaleRound n (unitExponent n d) d = 2 ^ 53 then
        (if unitExponent n d + 1 > maxExponent then pack neg 2047 0
         else encode neg (2 ^ 52) (unitExponent n d + 1))
      else if unitExponent n d > maxExponent then pack neg 2047 0
      else encode neg (scaleRound n (unitExponent n d) d) (unitExponent n d) := by
  simp only [round, encode, Nat.pow_eq]
  rw [if_neg (by omega)]
  split <;> rfl

/-- Half the gap from `m * 2^e` down to the word below: a quarter unit at the bottom of a
binade above the least exponent, where the gap below halves, and half a unit elsewhere. -/
def gapBelow (m : Nat) (e : Int) : ℚ := if m = 2 ^ 52 ∧ minExponent < e then 2 ^ (e - 2) else 2 ^ (e - 1)

/-- `x` rounds to the word of significand `m` and exponent `e`: it lies within half a gap of
`m * 2^e` on either side, the ends counting only for an even significand. -/
def RoundsTo (x : ℚ) (m : Nat) (e : Int) : Prop :=
  (m : ℚ) * 2 ^ e - gapBelow m e ≤ x ∧ x ≤ m * 2 ^ e + 2 ^ (e - 1) ∧
    (m % 2 = 1 → (m : ℚ) * 2 ^ e - gapBelow m e < x ∧ x < m * 2 ^ e + 2 ^ (e - 1))

theorem two_zpow_sub_one (e : Int) : (2 : ℚ) ^ (e - 1) = 2 ^ e / 2 := by
  rw [zpow_sub₀ two_ne_zero, zpow_one]

theorem two_zpow_sub_two (e : Int) : (2 : ℚ) ^ (e - 2) = 2 ^ e / 4 := by
  rw [zpow_sub₀ two_ne_zero]; norm_num

theorem gapBelow_le (m : Nat) (e : Int) : gapBelow m e ≤ 2 ^ e / 2 := by
  have hp : (0 : ℚ) < 2 ^ e := zpow_pos (by norm_num) e
  unfold gapBelow
  split
  · rw [two_zpow_sub_two]; linarith
  · rw [two_zpow_sub_one]

/-- The exponent `unitExponent` picks for a quotient that rounds to a canonical `(m, e)` is
`e`, except just below a power of two, where the quotient still lies in the binade under it. -/
theorem unitExponent_of_roundsTo {m : Nat} {e : Int} (hc : Canonical m e) {n d : Nat}
    (hn : 0 < n) (hd : 0 < d) (hx : RoundsTo ((n : ℚ) / d) m e) :
    unitExponent n d = e ∨
      (unitExponent n d = e - 1 ∧ m = 2 ^ 52 ∧ minExponent < e ∧ (n : ℚ) / d < 2 ^ 52 * 2 ^ e) := by
  obtain ⟨hu1, hu2, hu3⟩ := unitExponent_spec hn hd
  obtain ⟨hx1, hx2, -⟩ := hx
  have hp : (0 : ℚ) < 2 ^ e := zpow_pos (by norm_num) e
  have hg := gapBelow_le m e
  rw [two_zpow_sub_one] at hx2
  have hm53 : (m : ℚ) + 1 ≤ 2 ^ 53 := by
    have : m + 1 ≤ 2 ^ 53 := by rcases hc with h | h <;> omega
    exact_mod_cast this
  -- above the binade of `e` nothing rounds to `(m, e)`
  have hle : unitExponent n d ≤ e := by
    by_contra hlt
    have hne : unitExponent n d ≠ minExponent := by
      rcases hc with h | h <;> omega
    have h1 := hu2.resolve_left hne
    have h2 : (2 : ℚ) ^ (e + 53) ≤ 2 ^ (unitExponent n d + 52) :=
      zpow_le_zpow_right₀ (by norm_num) (by omega)
    rw [two_zpow_add] at h2
    nlinarith
  rcases eq_or_lt_of_le hle with heq | hlt
  · exact .inl heq
  · right
    -- below it only the bottom of a binade above the least exponent can be reached
    have hbelow : (n : ℚ) / d < 2 ^ 52 * 2 ^ e := by
      have h2 : (2 : ℚ) ^ (unitExponent n d + 53) ≤ 2 ^ (e + 52) :=
        zpow_le_zpow_right₀ (by norm_num) (by omega)
      rw [two_zpow_add e 52] at h2
      linarith
    have hnormal : 2 ^ 52 ≤ m ∧ minExponent < e := by
      rcases hc with ⟨h1, -, -, -⟩ | ⟨-, rfl⟩
      · refine ⟨h1, ?_⟩
        by_contra hmin
        omega
      · omega
    have hm : m = 2 ^ 52 := by
      by_contra hne
      have : (2 : ℚ) ^ 52 + 1 ≤ m := by exact_mod_cast (by omega : 2 ^ 52 + 1 ≤ m)
      nlinarith
    subst hm
    have hgap : gapBelow (2 ^ 52) e = 2 ^ e / 4 := by
      rw [gapBelow, if_pos ⟨rfl, hnormal.2⟩, two_zpow_sub_two]
    rw [hgap] at hx1
    refine ⟨?_, rfl, hnormal.2, hbelow⟩
    by_contra hne
    have h2 : (2 : ℚ) ^ (unitExponent n d + 53) ≤ 2 ^ (e + 51) :=
      zpow_le_zpow_right₀ (by norm_num) (by omega)
    rw [two_zpow_add e 51] at h2
    linarith

/-- The one rounding step lands on the canonical word whose rounding interval holds the
quotient. -/
theorem round_eq_encode {m : Nat} {e : Int} (hc : Canonical m e) {n d : Nat} (hn : 0 < n)
    (hd : 0 < d) (hx : RoundsTo ((n : ℚ) / d) m e) (neg : Bool) : round neg n d = encode neg m e := by
  have hp : (0 : ℚ) < 2 ^ e := zpow_pos (by norm_num) e
  have hmax : e ≤ maxExponent := by
    rcases hc with ⟨-, -, -, h⟩ | ⟨-, rfl⟩
    · exact h
    · decide
  rw [round_pos neg hn hd]
  rcases unitExponent_of_roundsTo hc hn hd hx with hu | ⟨hu, rfl, he, hbelow⟩
  · -- the quotient is within half a unit of `m` at the exponent `e`
    have hk : scaleRound n (unitExponent n d) d = m := by
      refine (scaleRound_nearest n hd _).unique ?_
      obtain ⟨hx1, hx2, hx3⟩ := hx
      have hg := gapBelow_le m e
      rw [two_zpow_sub_one] at hx2 hx3
      rw [hu]
      refine ⟨?_, ?_, fun hodd => ⟨?_, ?_⟩⟩
      · rw [le_div_iff₀ hp]; linarith
      · rw [div_le_iff₀ hp]; linarith
      · rw [lt_div_iff₀ hp]; linarith [(hx3 hodd).1]
      · rw [div_lt_iff₀ hp]; linarith [(hx3 hodd).2]
    have hm53 : m ≠ 2 ^ 53 := by rcases hc with h | h <;> omega
    rw [hk, if_neg hm53, hu, if_neg (by omega)]
  · -- just below `2^52 * 2^e` the significand rounds up to `2^53` and carries
    have hk : scaleRound n (unitExponent n d) d = 2 ^ 53 := by
      refine (scaleRound_nearest n hd _).unique ?_
      obtain ⟨hx1, -, -⟩ := hx
      rw [gapBelow, if_pos ⟨rfl, he⟩, two_zpow_sub_two] at hx1
      have hq : (2 : ℚ) ^ (e - 1) = 2 ^ e / 2 := two_zpow_sub_one e
      rw [hu, hq]
      push_cast at hx1 ⊢
      refine ⟨?_, ?_, fun hodd => absurd hodd (by norm_num)⟩
      · rw [le_div_iff₀ (by positivity)]; linarith
      · rw [div_le_iff₀ (by positivity)]; linarith
    rw [hk, if_pos rfl, hu, sub_add_cancel, if_neg (by omega)]

/-- A quotient equal to the value of a canonical word rounds to it. -/
theorem roundsTo_self {m : Nat} {e : Int} : RoundsTo ((m : ℚ) * 2 ^ e) m e := by
  have hp : (0 : ℚ) < 2 ^ e := zpow_pos (by norm_num) e
  have hg : 0 < gapBelow m e := by unfold gapBelow; split <;> positivity
  have hh : (0 : ℚ) < 2 ^ (e - 1) := zpow_pos (by norm_num) _
  exact ⟨by linarith, by linarith, fun _ => ⟨by linarith, by linarith⟩⟩

/-! ## Whole numbers up to `2^53` -/

/-- A whole number from 1 to `2^53` has a canonical significand and exponent. -/
theorem exists_canonical {n : Nat} (hn : 0 < n) (h : n ≤ 2 ^ 53) :
    ∃ m e, Canonical m e ∧ (m : ℚ) * 2 ^ e = n := by
  have hl1 := Nat.log2_self_le hn.ne'
  have hl2 : n < 2 ^ (Nat.log2 n + 1) := Nat.lt_log2_self
  by_cases hL : Nat.log2 n ≤ 52
  · refine ⟨n * 2 ^ (52 - Nat.log2 n), (Nat.log2 n : Int) - 52, .inl ⟨?_, ?_, ?_, ?_⟩, ?_⟩
    · calc 2 ^ 52 = 2 ^ Nat.log2 n * 2 ^ (52 - Nat.log2 n) := by rw [← pow_add]; congr 1; omega
        _ ≤ n * 2 ^ (52 - Nat.log2 n) := Nat.mul_le_mul_right _ hl1
    · calc n * 2 ^ (52 - Nat.log2 n) < 2 ^ (Nat.log2 n + 1) * 2 ^ (52 - Nat.log2 n) :=
            Nat.mul_lt_mul_of_pos_right hl2 (by positivity)
        _ = 2 ^ 53 := by rw [← pow_add]; congr 1; omega
    · simp only [minExponent]; omega
    · simp only [maxExponent]; omega
    · rw [show ((Nat.log2 n : Int) - 52) = -((52 - Nat.log2 n : Nat) : Int) by omega, zpow_neg,
        zpow_natCast]
      push_cast
      field_simp
  · have hn53 : n = 2 ^ 53 := by
      have : 2 ^ 53 ≤ 2 ^ Nat.log2 n := Nat.pow_le_pow_right (by norm_num) (by omega)
      omega
    refine ⟨2 ^ 52, 1, .inl ⟨le_refl _, by norm_num, by decide, by decide⟩, ?_⟩
    rw [hn53]; norm_num

theorem ofNat_eq_encode {n m : Nat} {e : Int} (hc : Canonical m e) (hv : (m : ℚ) * 2 ^ e = n)
    (hn : 0 < n) : ofNat n = encode false m e :=
  round_eq_encode hc hn Nat.one_pos (by rw [Nat.cast_one, div_one, ← hv]; exact roundsTo_self) false

theorem decode_zero : (ofNat 0).decode = .finite false 0 minExponent := by decide

/-- A whole number up to `2^53` is a finite word whose value is that number. -/
theorem decode_ofNat {n : Nat} (h : n ≤ 2 ^ 53) :
    ∃ m e, (ofNat n).decode = .finite false m e ∧ (m : ℚ) * 2 ^ e = n := by
  rcases Nat.eq_zero_or_pos n with rfl | hn
  · exact ⟨0, minExponent, decode_zero, by simp⟩
  · obtain ⟨m, e, hc, hv⟩ := exists_canonical hn h
    exact ⟨m, e, by rw [ofNat_eq_encode hc hv hn, decode_encode hc], hv⟩

/-! ## Comparing and adding finite words -/

/-- The number a finite word with this sign, significand and exponent stands for. -/
def value (neg : Bool) (m : Nat) (e : Int) : ℚ := (if neg then -(m : ℚ) else m) * 2 ^ e

/-- A signed significand scaled to a lower exponent `k` keeps its value. -/
theorem exactOf_scaled (neg : Bool) (m : Nat) {e k : Int} (hk : k ≤ e) :
    (((exactOf neg m e).1 * Nat.pow 2 (e - k).toNat : Int) : ℚ) * 2 ^ k = value neg m e := by
  have hpow : ((Nat.pow 2 (e - k).toNat : Nat) : ℚ) * 2 ^ k = 2 ^ e := by
    rw [Nat.pow_eq, Nat.cast_pow, Nat.cast_ofNat, ← zpow_natCast, ← zpow_add₀ two_ne_zero,
      Int.toNat_of_nonneg (by omega), sub_add_cancel]
  simp only [exactOf, value]
  push_cast
  rw [mul_assoc, hpow]

/-- `compareFinite` compares the exact values of two finite words. -/
theorem compareFinite_eq (a : Bool) (m : Nat) (e : Int) (b : Bool) (n : Nat) (f : Int) :
    compareFinite a m e b n f = compare (value a m e) (value b n f) := by
  unfold compareFinite
  dsimp only
  have hk : (0 : ℚ) < 2 ^ min e f := zpow_pos (by norm_num) _
  have hs := exactOf_scaled a m (min_le_left e f)
  have ht := exactOf_scaled b n (min_le_right e f)
  generalize (exactOf a m e).1 * Nat.pow 2 (e - min e f).toNat = s at hs ⊢
  generalize (exactOf b n f).1 * Nat.pow 2 (f - min e f).toNat = t at ht ⊢
  rw [← hs, ← ht]
  rcases lt_trichotomy s t with h | rfl | h
  · have : (s : ℚ) * 2 ^ min e f < t * 2 ^ min e f := by gcongr
    rw [compare_lt_iff_lt.2 h, compare_lt_iff_lt.2 this]
  · rw [compare_eq_iff_eq.2 rfl, compare_eq_iff_eq.2 rfl]
  · have : (t : ℚ) * 2 ^ min e f < s * 2 ^ min e f := by gcongr
    rw [compare_gt_iff_gt.2 h, compare_gt_iff_gt.2 this]

theorem compareNum_finite {x y : Double} {a b : Bool} {m n : Nat} {e f : Int}
    (hx : x.decode = .finite a m e) (hy : y.decode = .finite b n f) :
    compareNum x y = some (compare (value a m e) (value b n f)) := by
  rw [← compareFinite_eq]
  unfold compareNum
  rw [hx, hy]

/-- The word nearest to a nonzero scaled integer `s * 2^k`: its magnitude rounded, with its
sign. -/
theorem ofScaled_eq_encode_natAbs {s : Int} (hs : s ≠ 0) (k : Int) {m : Nat} {e : Int} (hc : Canonical m e)
    (hx : RoundsTo ((s.natAbs : ℚ) * 2 ^ k) m e) : ofScaled s k = encode (decide (s < 0)) m e := by
  have hpos : 0 < s.natAbs := Int.natAbs_pos.2 hs
  unfold ofScaled
  split
  · rename_i hk
    refine round_eq_encode hc (Nat.mul_pos hpos (by simp [Nat.pow_eq])) Nat.one_pos ?_ _
    rw [Nat.cast_one, div_one, Nat.cast_mul, Nat.pow_eq, Nat.cast_pow, Nat.cast_ofNat,
      ← zpow_natCast, Int.toNat_of_nonneg hk]
    exact hx
  · rename_i hk
    refine round_eq_encode hc hpos (by simp [Nat.pow_eq]) ?_ _
    rw [Nat.pow_eq, Nat.cast_pow, Nat.cast_ofNat, ← zpow_natCast, Int.toNat_of_nonneg (by omega),
      div_eq_mul_inv, ← zpow_neg, neg_neg]
    exact hx

/-- The word nearest to a positive scaled integer `s * 2^k`. -/
theorem ofScaled_eq_encode {s : Int} (hs : 0 < s) (k : Int) {m : Nat} {e : Int} (hc : Canonical m e)
    (hx : RoundsTo ((s : ℚ) * 2 ^ k) m e) : ofScaled s k = encode false m e := by
  have hneg : decide (s < 0) = false := by simp; omega
  have habs : ((s.natAbs : Nat) : ℚ) = s := by
    have h := congrArg (fun z : Int => (z : ℚ)) (Int.natAbs_of_nonneg hs.le)
    simpa using h
  rw [← hneg]
  exact ofScaled_eq_encode_natAbs hs.ne' k hc (by rw [habs]; exact hx)

/-- The sum of two finite words with a nonzero exact sum is the word its magnitude rounds to,
with the sum's sign. -/
theorem add_eq_encode_of_ne {x y : Double} {a b : Bool} {m n : Nat} {e f : Int}
    (hx : x.decode = .finite a m e) (hy : y.decode = .finite b n f)
    (hne : value a m e + value b n f ≠ 0) {M : Nat} {E : Int} (hc : Canonical M E)
    (hr : RoundsTo |value a m e + value b n f| M E) :
    x + y = encode (decide (value a m e + value b n f < 0)) M E := by
  show add x y = _
  unfold add
  rw [hx, hy]
  dsimp only
  have hs := exactOf_scaled a m (min_le_left e f)
  have ht := exactOf_scaled b n (min_le_right e f)
  generalize (exactOf a m e).1 * Nat.pow 2 (e - min e f).toNat = s at hs ⊢
  generalize (exactOf b n f).1 * Nat.pow 2 (f - min e f).toNat = t at ht ⊢
  have hk : (0 : ℚ) < 2 ^ min e f := zpow_pos (by norm_num) _
  have hsum : ((s + t : Int) : ℚ) * 2 ^ min e f = value a m e + value b n f := by
    push_cast; rw [add_mul, hs, ht]
  rw [← hsum] at hne hr ⊢
  have hst : s + t ≠ 0 := by
    rintro h
    rw [h, Int.cast_zero, zero_mul] at hne
    exact hne rfl
  -- the power of two is positive, so the sum has the sign of `s + t`
  have hsign : decide (((s + t : Int) : ℚ) * 2 ^ min e f < 0) = decide (s + t < 0) := by
    rw [decide_eq_decide, mul_neg_iff]
    constructor
    · rintro (⟨-, h⟩ | ⟨h, -⟩)
      · exact absurd h (not_lt.2 hk.le)
      · exact_mod_cast h
    · intro h
      exact .inr ⟨by exact_mod_cast h, hk⟩
  rw [if_neg hst, hsign]
  refine ofScaled_eq_encode_natAbs hst _ hc ?_
  rwa [abs_mul, abs_of_pos hk, ← Int.cast_abs, ← Nat.cast_natAbs] at hr

/-- The sum of two finite words with a positive exact sum is the word that sum rounds to. -/
theorem add_eq_encode {x y : Double} {a b : Bool} {m n : Nat} {e f : Int}
    (hx : x.decode = .finite a m e) (hy : y.decode = .finite b n f)
    (hpos : 0 < value a m e + value b n f) {M : Nat} {E : Int} (hc : Canonical M E)
    (hr : RoundsTo (value a m e + value b n f) M E) : x + y = encode false M E := by
  have h := add_eq_encode_of_ne hx hy hpos.ne' hc (by rwa [abs_of_pos hpos])
  rwa [decide_eq_false (not_lt.2 hpos.le)] at h

/-- Counting by one is exact below `2^53`. -/
theorem ofNat_add_one_of_lt {n : Nat} (h : n < 2 ^ 53) : ofNat n + 1 = ofNat (n + 1) := by
  obtain ⟨m, e, hd, hv⟩ := decode_ofNat h.le
  obtain ⟨m1, e1, hd1, hv1⟩ := decode_ofNat (n := 1) (by norm_num)
  obtain ⟨M, E, hc, hV⟩ := exists_canonical (Nat.succ_pos n) h
  have hsum : value false m e + value false m1 e1 = (n + 1 : Nat) := by
    simp only [value, Bool.false_eq_true, if_false, hv, hv1]; push_cast; ring
  rw [ofNat_eq_encode hc hV (Nat.succ_pos n)]
  refine add_eq_encode hd hd1 (by rw [hsum]; positivity) hc ?_
  rw [hsum, ← hV]
  exact roundsTo_self

/-- Counting by one agrees with the whole numbers up to `2^53`: past it, `2^53 + 1` is a tie
that rounds to the even `2^53` on both sides, so the count stays where it is. -/
theorem ofNat_add_one {n : Nat} (h : n ≤ 2 ^ 53) : ofNat n + 1 = ofNat (n + 1) := by
  rcases h.lt_or_eq with h | rfl
  · exact ofNat_add_one_of_lt h
  · decide

/-- Whole numbers up to `2^53` are equal as words exactly when they are equal. -/
theorem eq_ofNat_iff {i j : Nat} (hi : i ≤ 2 ^ 53) (hj : j ≤ 2 ^ 53) :
    Double.eq (ofNat i) (ofNat j) = true ↔ i = j := by
  obtain ⟨m, e, hd, hv⟩ := decode_ofNat hi
  obtain ⟨m', e', hd', hv'⟩ := decode_ofNat hj
  simp only [Double.eq, compareNum_finite hd hd', value, Bool.false_eq_true, if_false, hv, hv',
    decide_eq_true_eq, Option.some.injEq, compare_eq_iff_eq, Nat.cast_inj]

/-- Whole numbers up to `2^53` have words of their own. -/
theorem ofNat_inj {i j : Nat} (hi : i ≤ 2 ^ 53) (hj : j ≤ 2 ^ 53) : ofNat i = ofNat j ↔ i = j := by
  refine ⟨fun h => (eq_ofNat_iff hi hj).1 ?_, fun h => h ▸ rfl⟩
  rw [← h]
  exact (eq_ofNat_iff hi hi).2 rfl

theorem isNaN_ofNat {n : Nat} (h : n ≤ 2 ^ 53) : (ofNat n).isNaN = false := by
  obtain ⟨m, e, hd, -⟩ := decode_ofNat h
  simp [isNaN, hd]

/-- A word is numerically equal to a finite one exactly when it is finite with the same value. -/
theorem eq_finite_right {x y : Double} {b : Bool} {n : Nat} {f : Int} (hy : y.decode = .finite b n f) :
    Double.eq x y = true ↔ ∃ a m e, x.decode = .finite a m e ∧ value a m e = value b n f := by
  unfold Double.eq compareNum
  rw [hy]
  cases hx : x.decode with
  | nan => simp
  | infinite a => cases a <;> simp
  | finite a m e => simp [compareFinite_eq]

theorem eq_finite_left {x y : Double} {a : Bool} {m : Nat} {e : Int} (hx : x.decode = .finite a m e) :
    Double.eq x y = true ↔ ∃ b n f, y.decode = .finite b n f ∧ value a m e = value b n f := by
  unfold Double.eq compareNum
  rw [hx]
  cases hy : y.decode with
  | nan => simp
  | infinite b => cases b <;> simp
  | finite b n f => simp [compareFinite_eq]

/-- Whole numbers up to `2^53` keep their order as words. -/
theorem compareNum_ofNat_lt {i j : Nat} (hij : i < j) (hj : j ≤ 2 ^ 53) :
    compareNum (ofNat i) (ofNat j) = some .lt := by
  obtain ⟨m, e, hd, hv⟩ := decode_ofNat (hij.le.trans hj)
  obtain ⟨m', e', hd', hv'⟩ := decode_ofNat hj
  rw [compareNum_finite hd hd', compare_lt_iff_lt.2]
  simp only [value, Bool.false_eq_true, if_false, hv, hv']
  exact_mod_cast hij

/-! ## Whole numbers of either sign, from `-2^53` to `2^53` -/

theorem ofInt_of_nonneg {i : Int} (h : 0 ≤ i) : ofInt i = ofNat i.toNat := by
  unfold ofInt ofNat
  rw [decide_eq_false (by omega), show i.natAbs = i.toNat by omega]

/-- A whole number of magnitude at most `2^53` is a finite word whose value is that number. -/
theorem decode_ofInt {i : Int} (h : i.natAbs ≤ 2 ^ 53) :
    ∃ m e, (ofInt i).decode = .finite (decide (i < 0)) m e ∧ value (decide (i < 0)) m e = i := by
  rcases Nat.eq_zero_or_pos i.natAbs with h0 | hn
  · -- zero is the positive zero
    obtain rfl : i = 0 := Int.natAbs_eq_zero.1 h0
    exact ⟨0, minExponent, by rw [ofInt_of_nonneg le_rfl]; exact decode_zero, by simp [value]⟩
  · obtain ⟨m, e, hc, hv⟩ := exists_canonical hn h
    have hr : ofInt i = encode (decide (i < 0)) m e :=
      round_eq_encode hc hn Nat.one_pos (by rw [Nat.cast_one, div_one, ← hv]; exact roundsTo_self) _
    refine ⟨m, e, by rw [hr, decode_encode hc], ?_⟩
    have habs : ((i.natAbs : Nat) : ℚ) = |(i : ℚ)| := by rw [Nat.cast_natAbs, Int.cast_abs]
    by_cases hi : i < 0
    · have : |(i : ℚ)| = -i := abs_of_neg (by exact_mod_cast hi)
      simp only [value, hi, decide_true, if_true, neg_mul, hv, habs, this, neg_neg]
    · have : |(i : ℚ)| = i := abs_of_nonneg (by exact_mod_cast not_lt.1 hi)
      simp only [value, hi, decide_false, Bool.false_eq_true, if_false, hv, habs, this]

/-- Counting by one agrees with the whole numbers from `-2^53` up to `2^53`; past it the count
stays at `2^53`, which is also the word nearest `2^53 + 1`. -/
theorem ofInt_add_one {i : Int} (h₁ : -2 ^ 53 ≤ i) (h₂ : i ≤ 2 ^ 53) : ofInt i + 1 = ofInt (i + 1) := by
  rcases lt_trichotomy i (-1) with hi | rfl | hi
  · -- a negative sum: one less in magnitude
    obtain ⟨m, e, hd, hv⟩ := decode_ofInt (i := i) (by omega)
    obtain ⟨m1, e1, hd1, hv1⟩ := decode_ofNat (n := 1) (by norm_num)
    obtain ⟨M, E, hc, hV⟩ := exists_canonical (n := (i + 1).natAbs) (by omega) (by omega)
    have hsum : value (decide (i < 0)) m e + value false m1 e1 = ((i + 1 : Int) : ℚ) := by
      rw [hv]
      simp only [value, Bool.false_eq_true, if_false, hv1]
      push_cast; ring
    have hneg : ((i + 1 : Int) : ℚ) < 0 := by exact_mod_cast (show i + 1 < 0 by omega)
    have habs : |((i + 1 : Int) : ℚ)| = (M : ℚ) * 2 ^ E := by
      rw [hV, Nat.cast_natAbs, Int.cast_abs]
    have hr : ofInt (i + 1) = encode true M E := by
      have h := round_eq_encode hc (n := (i + 1).natAbs) (d := 1) (by omega) Nat.one_pos
        (by rw [Nat.cast_one, div_one, ← hV]; exact roundsTo_self) true
      rw [← h]
      unfold ofInt
      rw [decide_eq_true (show i + 1 < 0 by omega)]
    rw [hr, ← decide_eq_true hneg, ← hsum]
    refine add_eq_encode_of_ne hd hd1 (by rw [hsum]; exact hneg.ne) hc ?_
    rw [hsum, habs]
    exact roundsTo_self
  · decide
  · -- both are whole numbers counted from zero
    rw [ofInt_of_nonneg (by omega), ofInt_of_nonneg (by omega), show (i + 1).toNat = i.toNat + 1 by omega]
    exact ofNat_add_one (by omega)

/-- Whole numbers of magnitude at most `2^53` are numerically equal exactly when they are equal. -/
theorem eq_ofInt_iff {i j : Int} (hi : i.natAbs ≤ 2 ^ 53) (hj : j.natAbs ≤ 2 ^ 53) :
    Double.eq (ofInt i) (ofInt j) = true ↔ i = j := by
  obtain ⟨m, e, hd, hv⟩ := decode_ofInt hi
  obtain ⟨m', e', hd', hv'⟩ := decode_ofInt hj
  simp only [Double.eq, compareNum_finite hd hd', hv, hv', decide_eq_true_eq, Option.some.injEq,
    compare_eq_iff_eq, Int.cast_inj]

/-- Whole numbers of magnitude at most `2^53` compare as whole numbers. -/
theorem compareNum_ofInt {i j : Int} (hi : i.natAbs ≤ 2 ^ 53) (hj : j.natAbs ≤ 2 ^ 53) :
    compareNum (ofInt i) (ofInt j) = some (compare (i : ℚ) j) := by
  obtain ⟨m, e, hd, hv⟩ := decode_ofInt hi
  obtain ⟨m', e', hd', hv'⟩ := decode_ofInt hj
  rw [compareNum_finite hd hd', hv, hv']

/-- An integral word is finite, and its value is the integer it truncates to. -/
theorem value_of_toInt? {x : Double} {M : Int} (h : x.toInt? = some M) :
    ∃ neg m e, x.decode = .finite neg m e ∧ value neg m e = M := by
  unfold toInt? isInteger truncInt at h
  cases hd : x.decode with
  | nan => simp [hd] at h
  | infinite b => simp [hd] at h
  | finite neg m e =>
    refine ⟨neg, m, e, rfl, ?_⟩
    simp only [hd] at h
    split at h
    · next hint =>
      -- the magnitude the word truncates to is its exact magnitude
      have ht : (((if e ≥ 0 then m * Nat.pow 2 e.toNat else m / Nat.pow 2 (-e).toNat : Nat)) : ℚ) =
          (m : ℚ) * 2 ^ e := by
        split
        · next he =>
          rw [Nat.pow_eq, Nat.cast_mul, Nat.cast_pow, Nat.cast_ofNat, ← zpow_natCast,
            Int.toNat_of_nonneg he]
        · next he =>
          have hdvd : 2 ^ (-e).toNat ∣ m := by
            simp only [decide_eq_true_eq, he, false_or, Nat.pow_eq] at hint
            exact Nat.dvd_of_mod_eq_zero hint
          have hmul : ((m / 2 ^ (-e).toNat : Nat) : ℚ) * (2 : ℚ) ^ (-e).toNat = m := by
            exact_mod_cast Nat.div_mul_cancel hdvd
          rw [Nat.pow_eq, eq_div_of_mul_eq (by positivity) hmul, div_eq_mul_inv, ← zpow_natCast, ← zpow_neg,
            Int.toNat_of_nonneg (by omega), neg_neg]
      simp only [Option.some.injEq] at h
      rw [← h, value]
      split
      · rw [Int.cast_neg, Int.cast_natCast, ht, neg_mul]
      · rw [Int.cast_natCast, ht]
    · cases h

theorem isInteger_of_toInt? {x : Double} {i : Int} (h : x.toInt? = some i) : x.isInteger = true := by
  unfold toInt? at h
  split at h
  · assumption
  · cases h

theorem toInt?_of_isInteger {x : Double} (h : x.isInteger = true) : ∃ i, x.toInt? = some i := by
  unfold toInt? truncInt
  rw [if_pos h]
  unfold isInteger at h
  split at h
  · exact ⟨_, rfl⟩
  · cases h

/-- An integral word compares with a whole number of magnitude at most `2^53` as the integer
it is. -/
theorem compareNum_ofInt_of_toInt? {x : Double} {i : Int} (hx : x.toInt? = some i) {j : Int}
    (hj : j.natAbs ≤ 2 ^ 53) : compareNum x (ofInt j) = some (compare (i : ℚ) j) := by
  obtain ⟨neg, m, e, hd, hv⟩ := value_of_toInt? hx
  obtain ⟨m', e', hd', hv'⟩ := decode_ofInt hj
  rw [compareNum_finite hd hd', hv, hv']

theorem lt_ofInt_of_toInt? {x : Double} {i : Int} (hx : x.toInt? = some i) {j : Int} (hj : j.natAbs ≤ 2 ^ 53) :
    Double.lt x (ofInt j) = decide (i < j) := by
  rw [Double.lt, compareNum_ofInt_of_toInt? hx hj]
  by_cases hij : i < j
  · rw [decide_eq_true hij, compare_lt_iff_lt.2 (by exact_mod_cast hij)]
    rfl
  · have hne : compare (i : ℚ) j ≠ .lt := fun h => hij (by exact_mod_cast compare_lt_iff_lt.1 h)
    rw [decide_eq_false hij]
    simpa using hne

theorem ofInt_lt_of_toInt? {x : Double} {i : Int} (hx : x.toInt? = some i) {j : Int} (hj : j.natAbs ≤ 2 ^ 53) :
    Double.lt (ofInt j) x = decide (j < i) := by
  obtain ⟨neg, m, e, hd, hv⟩ := value_of_toInt? hx
  obtain ⟨m', e', hd', hv'⟩ := decode_ofInt hj
  rw [Double.lt, compareNum_finite hd' hd, hv, hv']
  by_cases hji : j < i
  · rw [decide_eq_true hji, compare_lt_iff_lt.2 (by exact_mod_cast hji)]
    rfl
  · have hne : compare (j : ℚ) i ≠ .lt := fun h => hji (by exact_mod_cast compare_lt_iff_lt.1 h)
    rw [decide_eq_false hji]
    simpa using hne

end Double

end DapBridge
