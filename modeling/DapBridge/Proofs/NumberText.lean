import DapBridge.Proofs.Shortest
import DapBridge.Json.Read

/-!
# The text of a finite number reads back as the number

`Double.render` writes a finite word as the shortest digits that round back to it, laid out
positionally or with an exponent; the JSON reader takes a number literal apart into integer
digits, fraction digits and exponent and rounds their value once (`Double.ofDecimal`). This
module shows the two meet: reading the text of a finite word that is not `-0` gives the word
back (`number_render`), whatever follows the text as long as it cannot continue a number.

* `Literal` is a number literal as the reader sees it, with the shape it requires (no leading
  zero, digits in each part) carried as fields; `number_literal` reads any literal followed by
  a character that ends it, through the reader's three parts (`fractionPart_text`,
  `exponentPart_text`).
* `layout_literal`: every layout of the digits of a positive `n` with the point at `k` is such
  a literal, standing for `n * 10^(k - digits)`.
* `ofDecimal_of_roundsTo`: a decimal in the rounding interval of a word reads as that word; the
  early cut-offs for huge and tiny exponents never fire on it, since such a decimal lies
  between `2^-1075` and `2^1024` (`roundsTo_bounds`).
* `render_literal`: so the text of a finite word other than `-0` is a literal, with a sign,
  that reads back as the word; `-0` is written `0` and reads back as `+0`.
-/

namespace DapBridge

namespace Decimal

theorem digitsValue_eq_ofDigitChars (ds : List Char) : digitsValue ds = Nat.ofDigitChars 10 ds 0 := by
  simp only [digitsValue, Nat.ofDigitChars_eq_foldl, Nat.mul_comm]

theorem digitsValue_toDigits (n : Nat) : digitsValue (Nat.toDigits 10 n) = n := by
  rw [digitsValue_eq_ofDigitChars, Nat.ofDigitChars_ten_toDigits]

/-- Digits read after a value `a` shift it left by their count. -/
theorem foldl_digits (a : Nat) (bs : List Char) :
    bs.foldl (fun acc c => acc * 10 + (c.toNat - '0'.toNat)) a = a * 10 ^ bs.length + digitsValue bs := by
  induction bs generalizing a with
  | nil => simp [digitsValue]
  | cons b bs ih =>
    simp only [List.foldl_cons, digitsValue, List.length_cons] at ih ⊢
    rw [ih, ih (0 * 10 + _)]
    ring

theorem digitsValue_append (as bs : List Char) :
    digitsValue (as ++ bs) = digitsValue as * 10 ^ bs.length + digitsValue bs := by
  rw [digitsValue, List.foldl_append, foldl_digits]
  rfl

theorem digitsValue_zeros (k : Nat) : digitsValue (List.replicate k '0') = 0 := by
  induction k with
  | zero => rfl
  | succ k ih => rw [List.replicate_succ', digitsValue_append, ih]; rfl

end Decimal

/-- The decimal digits of a positive number start with a digit other than `0`. -/
theorem toDigits_head {n : Nat} (hn : 0 < n) : ∃ d ds, Nat.toDigits 10 n = d :: ds ∧ d ≠ '0' := by
  induction n using Nat.strongRecOn with
  | ind n ih =>
    rw [Nat.toDigits_eq_if (by decide)]
    split
    · next h =>
      have hd : ∀ k < 10, 0 < k → Nat.digitChar k ≠ '0' := by decide
      exact ⟨_, [], rfl, hd n h hn⟩
    · next h =>
      obtain ⟨d, ds, hds, hd⟩ := ih (n / 10) (by omega) (by omega)
      exact ⟨d, ds ++ [Nat.digitChar (n % 10)], by rw [hds, List.cons_append], hd⟩

theorem isDigit_of_mem_toDigits {n : Nat} {c : Char} (hc : c ∈ Nat.toDigits 10 n) : c.isDigit = true :=
  Nat.isDigit_of_mem_toDigits (by decide) (by decide) hc

namespace Json.Reader

/-- What may follow a number: nothing, or a character that cannot continue it. -/
def NumberEnd (rest : List Char) : Prop :=
  ∀ c ∈ rest.head?, c.isDigit = false ∧ c ≠ '.' ∧ c ≠ 'e' ∧ c ≠ 'E'

/-- A number literal as the reader takes it apart: integer digits without a leading zero,
fraction digits (none when there is no point), and an exponent with its sign and at least one
digit. -/
structure Literal where
  whole : List Char
  fraction : List Char
  exponent : Option (Bool × List Char)
  whole_shape : ∃ d ds, whole = d :: ds ∧ (d = '0' → ds = [])
  whole_digits : ∀ c ∈ whole, c.isDigit = true
  fraction_digits : ∀ c ∈ fraction, c.isDigit = true
  exponent_digits : ∀ x ∈ exponent, x.2 ≠ [] ∧ ∀ c ∈ x.2, c.isDigit = true

namespace Literal

/-- The fraction as written: nothing, or a point and its digits. -/
def fractionText (fraction : List Char) : List Char := if fraction = [] then [] else '.' :: fraction

/-- The exponent as written: nothing, or `e`, its sign and its digits. -/
def exponentText : Option (Bool × List Char) → List Char
  | none => []
  | some (neg, ds) => 'e' :: (if neg then '-' else '+') :: ds

def exponentValue : Option (Bool × List Char) → Int
  | none => 0
  | some (neg, ds) => if neg then -(Decimal.digitsValue ds : Int) else Decimal.digitsValue ds

def text (l : Literal) : List Char := l.whole ++ fractionText l.fraction ++ exponentText l.exponent

/-- The parts the reader hands to `Decimal.toDouble`. -/
def decimal (l : Literal) : Decimal := ⟨l.whole, l.fraction, exponentValue l.exponent⟩

/-- The value the literal stands for: its digits over a power of ten. -/
def value (l : Literal) : ℚ :=
  (Decimal.digitsValue (l.whole ++ l.fraction) : ℚ) * 10 ^ (exponentValue l.exponent - l.fraction.length)

end Literal

theorem digits_append (ds rest : List Char) (hds : ∀ c ∈ ds, c.isDigit = true)
    (hr : ∀ c ∈ rest.head?, c.isDigit = false) (pos : Nat) :
    digits ⟨ds ++ rest, pos⟩ = (ds, ⟨rest, pos + ds.length⟩) := by
  have h : (ds ++ rest).takeWhile Char.isDigit = ds := by
    rw [List.takeWhile_append_of_pos hds]
    cases rest with
    | nil => rw [List.takeWhile_nil, List.append_nil]
    | cons c r => rw [List.takeWhile_cons_of_neg (by simp [hr c rfl]), List.append_nil]
  simp only [digits, h, List.drop_left]

/-- The fraction part reads its digits, and stops before what follows them. -/
theorem fractionPart_text {fraction : List Char} (hf : ∀ c ∈ fraction, c.isDigit = true) {T : List Char}
    (hT : ∀ c ∈ T.head?, c.isDigit = false ∧ c ≠ '.') (q : Nat) :
    ∃ q', fractionPart ⟨Literal.fractionText fraction ++ T, q⟩ = .ok (fraction, ⟨T, q'⟩) := by
  unfold fractionPart Literal.fractionText
  cases fraction with
  | nil =>
    have hnot : T.head? ≠ some '.' := fun h => (hT '.' h).2 rfl
    exact ⟨q, by simp [Cursor.peek, hnot]⟩
  | cons f fs =>
    have hd := digits_append (f :: fs) T hf (fun c hc => (hT c hc).1) (q + width '.')
    rw [List.cons_append] at hd
    exact ⟨q + width '.' + (f :: fs).length, by simp [Cursor.peek, Cursor.next, hd]⟩

/-- The exponent part reads its sign and digits, and stops at a character that ends a
number. -/
theorem exponentPart_text {ex : Option (Bool × List Char)} (hex : ∀ x ∈ ex, x.2 ≠ [] ∧ ∀ c ∈ x.2, c.isDigit = true)
    {rest : List Char} (hr : NumberEnd rest) (q : Nat) :
    ∃ q', exponentPart ⟨Literal.exponentText ex ++ rest, q⟩ = .ok (Literal.exponentValue ex, ⟨rest, q'⟩) := by
  unfold exponentPart
  cases ex with
  | none =>
    have hnot : ¬(rest.head? = some 'e' ∨ rest.head? = some 'E') := by
      rintro (h | h)
      · exact (hr 'e' h).2.2.1 rfl
      · exact (hr 'E' h).2.2.2 rfl
    exact ⟨q, by simp [Literal.exponentText, Literal.exponentValue, Cursor.peek, hnot]⟩
  | some x =>
    obtain ⟨neg, ds⟩ := x
    obtain ⟨hne, hds⟩ := hex (neg, ds) rfl
    have hdig := digits_append ds rest hds (fun c hc => (hr c hc).1)
    refine ⟨q + width 'e' + 1 + ds.length, ?_⟩
    cases neg <;> simp [Literal.exponentText, Literal.exponentValue, Cursor.peek, Cursor.next, width, hdig, hne]

/-- The sign of a number: a leading `-`, or none before a digit. -/
theorem sign_step (neg : Bool) {L : List Char} (hL : ∀ c ∈ L.head?, c ≠ '-') (pos : Nat) :
    (if (⟨(if neg then ['-'] else []) ++ L, pos⟩ : Cursor).peek = some '-' then
        (true, (⟨(if neg then ['-'] else []) ++ L, pos⟩ : Cursor).next)
      else (false, (⟨(if neg then ['-'] else []) ++ L, pos⟩ : Cursor))) =
      (neg, ⟨L, pos + if neg then 1 else 0⟩) := by
  cases neg with
  | true => simp [Cursor.peek, Cursor.next, width]
  | false =>
    cases L with
    | nil => simp [Cursor.peek]
    | cons c r => simp [Cursor.peek, hL c rfl]

/-- A literal with an optional `-`, followed by a character that ends it, reads as the word its
parts round to. -/
theorem number_literal (neg : Bool) (l : Literal) {rest : List Char} (hr : NumberEnd rest) (pos : Nat) :
    ∃ pos', number ⟨(if neg then ['-'] else []) ++ l.text ++ rest, pos⟩ =
      .ok (.num (l.decimal.toDouble neg), ⟨rest, pos'⟩) := by
  obtain ⟨d, ds, hw, hlead⟩ := l.whole_shape
  -- what follows the exponent and what follows the integer digits end those parts
  have hE : ∀ c ∈ (Literal.exponentText l.exponent ++ rest).head?, c.isDigit = false ∧ c ≠ '.' := by
    cases hx : l.exponent with
    | none =>
      intro c hc
      have hc' : c ∈ rest.head? := by simpa [Literal.exponentText] using hc
      exact ⟨(hr c hc').1, (hr c hc').2.1⟩
    | some x =>
      intro c hc
      simp only [Literal.exponentText, List.cons_append, List.head?_cons, Option.mem_def,
        Option.some.injEq] at hc
      subst hc; decide
  have hT : ∀ c ∈ (Literal.fractionText l.fraction ++ (Literal.exponentText l.exponent ++ rest)).head?,
      c.isDigit = false := by
    unfold Literal.fractionText
    split
    · intro c hc; exact (hE c (by simpa using hc)).1
    · intro c hc
      simp only [List.cons_append, List.head?_cons, Option.mem_def, Option.some.injEq] at hc
      subst hc; decide
  have hminus : ∀ c ∈ (l.whole ++ (Literal.fractionText l.fraction ++ (Literal.exponentText l.exponent ++ rest))).head?,
      c ≠ '-' := by
    intro c hc
    rw [hw] at hc
    simp only [List.cons_append, List.head?_cons, Option.mem_def, Option.some.injEq] at hc
    subst hc
    intro h
    have := l.whole_digits d (by rw [hw]; exact List.mem_cons_self)
    rw [h] at this
    exact absurd this (by decide)
  have hzero : ¬(l.whole.head? = some '0' ∧ l.whole.length > 1) := by
    rintro ⟨h1, h2⟩
    rw [hw, List.head?_cons, Option.some.injEq] at h1
    rw [hw, hlead h1] at h2
    simp at h2
  have hne : l.whole.isEmpty = false := by rw [hw]; rfl
  obtain ⟨q₁, hfrac⟩ := fractionPart_text l.fraction_digits hE
    ((pos + if neg then 1 else 0) + l.whole.length)
  obtain ⟨q₂, hexp⟩ := exponentPart_text l.exponent_digits hr q₁
  refine ⟨q₂, ?_⟩
  have htext : (if neg then ['-'] else []) ++ l.text ++ rest =
      (if neg then ['-'] else []) ++ (l.whole ++ (Literal.fractionText l.fraction ++
        (Literal.exponentText l.exponent ++ rest))) := by
    simp only [Literal.text, List.append_assoc]
  rw [htext]
  unfold number
  simp only [sign_step neg hminus, digits_append _ _ l.whole_digits hT, hne, Bool.false_eq_true,
    if_false, if_neg hzero, hfrac, hexp]
  rfl

end Json.Reader

namespace Double

open Json.Reader

/-! ## The layouts are literals -/

theorem toList_toString (n : Nat) : (toString n).toList = Nat.toDigits 10 n := by
  rw [Nat.toString_eq_ofList_toDigits, String.toList_ofList]

theorem length_toString (n : Nat) : (toString n).length = (Nat.toDigits 10 n).length := by
  rw [← String.length_toList, toList_toString]

/-- The digits of a positive `n` laid out with the point at `k` form a literal standing for
`n * 10^(k - digits)`. -/
theorem layout_literal {n : Nat} (hn : 0 < n) (k : Int) :
    ∃ l : Literal, (layout DecimalStyle.standard (toString n) k).toList = l.text ∧
      l.value = n * 10 ^ (k - (toString n).length) := by
  obtain ⟨d, ds, hs, hd⟩ := toDigits_head hn
  have hdig : ∀ c ∈ Nat.toDigits 10 n, c.isDigit = true := fun c hc => isDigit_of_mem_toDigits hc
  have hzeros : ∀ z, ∀ c ∈ List.replicate z '0', c.isDigit = true := by
    intro z c hc; rw [List.eq_of_mem_replicate hc]; rfl
  have hval : (Decimal.digitsValue (Nat.toDigits 10 n) : ℚ) = n := by
    rw [Decimal.digitsValue_toDigits]
  have hd0 : d ∈ Nat.toDigits 10 n := by rw [hs]; exact List.mem_cons_self
  have hp := length_toString n
  have hmax : DecimalStyle.standard.maxPoint = 21 := rfl
  have hmin : DecimalStyle.standard.minPoint = -5 := rfl
  have hmark : DecimalStyle.standard.expMark = "e" := rfl
  have hplus : DecimalStyle.standard.plusSign = "+" := rfl
  unfold layout
  by_cases h₁ : ((toString n).length : Int) ≤ k ∧ k ≤ DecimalStyle.standard.maxPoint
  · -- positional, zeros after the digits
    rw [if_pos h₁]
    refine ⟨⟨Nat.toDigits 10 n ++ List.replicate (k - (toString n).length).toNat '0', [], none,
      ⟨d, ds ++ _, by rw [hs, List.cons_append], fun h0 => absurd h0 hd⟩,
      fun c hc => (List.mem_append.1 hc).elim (hdig c) (hzeros _ c), by simp, by simp⟩, ?_, ?_⟩
    · simp [Literal.text, Literal.fractionText, Literal.exponentText]
    · simp only [Literal.value, List.append_nil, Decimal.digitsValue_append, Decimal.digitsValue_zeros,
        Literal.exponentValue, List.length_nil, List.length_replicate]
      push_cast
      rw [hval, ← zpow_natCast, Int.toNat_of_nonneg (by omega)]
      simp
  rw [if_neg h₁]
  by_cases h₂ : 0 < k ∧ k ≤ DecimalStyle.standard.maxPoint
  · -- positional, a point among the digits
    rw [if_pos h₂]
    have hk : k.toNat < (Nat.toDigits 10 n).length := by omega
    refine ⟨⟨(Nat.toDigits 10 n).take k.toNat, (Nat.toDigits 10 n).drop k.toNat, none,
      ⟨d, ds.take (k.toNat - 1), ?_, fun h0 => absurd h0 hd⟩,
      fun c hc => hdig c (List.mem_of_mem_take hc), fun c hc => hdig c (List.mem_of_mem_drop hc),
      by simp⟩, ?_, ?_⟩
    · obtain ⟨j, hj⟩ : ∃ j, k.toNat = j + 1 := ⟨k.toNat - 1, by omega⟩
      rw [hs, hj, List.take_succ_cons]
      simp
    · have hne : (Nat.toDigits 10 n).drop k.toNat ≠ [] := by simp; omega
      simp [Literal.text, Literal.fractionText, Literal.exponentText, hne]
    · simp only [Literal.value, List.take_append_drop, Literal.exponentValue, List.length_drop]
      rw [hval, hp]
      congr 2
      push_cast [Nat.cast_sub hk.le]
      omega
  rw [if_neg h₂]
  by_cases h₃ : DecimalStyle.standard.minPoint ≤ k ∧ k ≤ 0
  · -- positional, zeros after the point
    rw [if_pos h₃]
    refine ⟨⟨['0'], List.replicate (-k).toNat '0' ++ Nat.toDigits 10 n, none,
      ⟨'0', [], rfl, fun _ => rfl⟩, by simp, fun c hc => (List.mem_append.1 hc).elim (hzeros _ c) (hdig c),
      by simp⟩, ?_, ?_⟩
    · have hne : List.replicate (-k).toNat '0' ++ Nat.toDigits 10 n ≠ [] := by simp
      simp [Literal.text, Literal.fractionText, Literal.exponentText, hne]
    · simp only [Literal.value, Literal.exponentValue, List.length_append, List.length_replicate]
      rw [show ['0'] ++ (List.replicate (-k).toNat '0' ++ Nat.toDigits 10 n) =
          List.replicate ((-k).toNat + 1) '0' ++ Nat.toDigits 10 n by
        rw [List.replicate_succ, List.singleton_append, List.cons_append],
        Decimal.digitsValue_append, Decimal.digitsValue_zeros, Nat.zero_mul, Nat.zero_add, hval, hp]
      congr 2
      push_cast
      omega
  -- the exponent form `d.ddde±x`
  rw [if_neg h₃]
  refine ⟨⟨[d], ds, some (decide (k - 1 < 0), Nat.toDigits 10 (k - 1).natAbs),
    ⟨d, [], rfl, fun _ => rfl⟩, ?_, ?_, ?_⟩, ?_, ?_⟩
  · intro c hc; rw [List.mem_singleton] at hc; rw [hc]; exact hdig d hd0
  · intro c hc; exact hdig c (by rw [hs]; exact List.mem_cons_of_mem _ hc)
  · intro x hx
    simp only [Option.mem_def, Option.some.injEq] at hx
    subst hx
    exact ⟨Nat.toDigits_ne_nil, fun c hc => isDigit_of_mem_toDigits hc⟩
  · simp only [Literal.text]
    rw [toList_toString, hs]
    cases ds with
    | nil =>
      simp [Literal.fractionText, Literal.exponentText, hmark, hplus]
      split <;> simp_all
    | cons d' ds' =>
      simp [Literal.fractionText, Literal.exponentText, hmark, hplus]
      split <;> simp_all
  · have hlen : (ds.length : Int) = (toString n).length - 1 := by
      rw [hp, hs, List.length_cons]; push_cast; ring
    simp only [Literal.value, List.singleton_append, ← hs, Literal.exponentValue, Decimal.digitsValue_toDigits]
    rw [hlen]
    congr 2
    split
    · next hneg =>
      rw [decide_eq_true_eq] at hneg
      rw [Int.natCast_natAbs, abs_of_neg hneg]
      omega
    · next hneg =>
      rw [decide_eq_true_eq, not_lt] at hneg
      rw [Int.natCast_natAbs, abs_of_nonneg (by omega)]
      omega

/-! ## A decimal in the rounding interval reads as the word -/

/-- A word is its sign bit, exponent field and fraction field side by side. -/
theorem bits_split (x : Double) :
    x.bits.toNat = (if x.signBit then 2 ^ 63 else 0) + x.exponentField * 2 ^ 52 + x.fractionField := by
  have := x.bits.toNat_lt
  cases hsb : x.signBit
  · have : ¬(x.bits.toNat / 2 ^ 63 % 2 = 1) := by simpa [signBit, Nat.pow_eq] using hsb
    simp only [exponentField, fractionField, Nat.pow_eq, Bool.false_eq_true, if_false]
    omega
  · have : x.bits.toNat / 2 ^ 63 % 2 = 1 := by simpa [signBit, Nat.pow_eq] using hsb
    simp only [exponentField, fractionField, Nat.pow_eq, if_true]
    omega

/-- A word with a finite exponent field is packed from its own fields. -/
theorem pack_fields (x : Double) (hE : x.exponentField < 2047) :
    pack x.signBit x.exponentField x.fractionField = x := by
  have hF : x.fractionField < 2 ^ 52 := by
    simp only [fractionField, Nat.pow_eq]; exact Nat.mod_lt _ (by positivity)
  have hb := pack_bits x.signBit hE hF
  rw [← bits_split] at hb
  -- a word is its bits
  exact congrArg Double.mk (UInt64.toNat_inj.1 hb)

/-- A finite word is the encoding of the significand and exponent it decodes to, and these are
canonical. -/
theorem decode_finite {x : Double} {neg : Bool} {m : Nat} {e : Int} (h : x.decode = .finite neg m e) :
    Canonical m e ∧ encode neg m e = x := by
  have hF : x.fractionField < 2 ^ 52 := by
    simp only [fractionField, Nat.pow_eq]; exact Nat.mod_lt _ (by positivity)
  have hE : x.exponentField < 2048 := by
    simp only [exponentField, Nat.pow_eq]; exact Nat.mod_lt _ (by positivity)
  unfold decode at h
  dsimp only at h
  split at h
  · split at h <;> cases h
  · split at h
    · -- a subnormal significand at the least exponent
      next hE2047 hE0 =>
      cases h
      refine ⟨.inr ⟨hF, rfl⟩, ?_⟩
      rw [encode, if_pos (by rw [Nat.pow_eq]; exact hF), ← hE0]
      exact pack_fields x (by omega)
    · -- a normal one, with the hidden bit
      next hE2047 hE0 =>
      cases h
      refine ⟨.inl ⟨by simp [Nat.pow_eq], by simp [Nat.pow_eq]; omega, by simp [minExponent]; omega,
        by simp [maxExponent]; omega⟩, ?_⟩
      rw [encode, if_neg (by simp [Nat.pow_eq]), Nat.pow_eq, Nat.add_sub_cancel,
        show ((x.exponentField : Int) - 1075 + 1075).toNat = x.exponentField by omega]
      exact pack_fields x (by omega)

/-- A decimal that rounds to a positive word lies between `2^-1075` and `2^1024`. -/
theorem roundsTo_bounds {m : Nat} {e : Int} (hc : Canonical m e) (hm : 0 < m) {v : ℚ}
    (h : RoundsTo v m e) : (2 : ℚ) ^ (-1075 : Int) ≤ v ∧ v < 2 ^ (1024 : Int) := by
  have hp : (0 : ℚ) < 2 ^ e := zpow_pos (by norm_num) e
  have hg := gapBelow_le m e
  have hm1 : (1 : ℚ) ≤ m := by exact_mod_cast hm
  have hm53 : (m : ℚ) + 1 ≤ 2 ^ 53 := by
    have : m + 1 ≤ 2 ^ 53 := by rcases hc with h | h <;> omega
    exact_mod_cast this
  have he : minExponent ≤ e ∧ e ≤ maxExponent := by
    rcases hc with h | ⟨-, rfl⟩
    · exact ⟨h.2.2.1, h.2.2.2⟩
    · decide
  simp only [minExponent, maxExponent] at he
  obtain ⟨h1, h2, -⟩ := h
  rw [two_zpow_sub_one] at h2
  constructor
  · calc (2 : ℚ) ^ (-1075 : Int) ≤ 2 ^ (e - 1) := zpow_le_zpow_right₀ (by norm_num) (by omega)
      _ = 2 ^ e / 2 := two_zpow_sub_one e
      _ ≤ v := by nlinarith
  · calc v ≤ m * 2 ^ e + 2 ^ e / 2 := h2
      _ < 2 ^ 53 * 2 ^ e := by nlinarith
      _ = 2 ^ (e + 53) := by rw [zpow_add₀ two_ne_zero]; norm_num; ring
      _ ≤ 2 ^ (1024 : Int) := zpow_le_zpow_right₀ (by norm_num) (by omega)

/-- `decimalWidth` counts the digits: `10^(w-1) ≤ D < 10^w`. -/
theorem decimalWidth_bounds {D : Nat} (hD : 0 < D) :
    10 ^ (decimalWidth D - 1) ≤ D ∧ D < 10 ^ decimalWidth D ∧ 0 < decimalWidth D := by
  have hw : decimalWidth D = D.repr.length := by rw [decimalWidth, Nat.toString_eq_repr]
  have hpos : 0 < decimalWidth D := hw ▸ Nat.length_repr_pos
  refine ⟨?_, (Nat.length_repr_le_iff hpos).1 (le_of_eq hw.symm), hpos⟩
  rcases Nat.lt_or_ge 1 (decimalWidth D) with h | h
  · by_contra hlt
    have := (Nat.length_repr_le_iff (by omega : 0 < decimalWidth D - 1)).2 (not_le.1 hlt)
    omega
  · rw [show decimalWidth D - 1 = 0 by omega, Nat.pow_zero]; exact hD

theorem natPow_lt_cast {a b n k : Nat} (h : a ^ n < b ^ k) : (a : ℚ) ^ n < (b : ℚ) ^ k := by
  exact_mod_cast h

/-- A decimal in the rounding interval of a positive word reads as that word: its value lies
far inside the range where `ofDecimal` cuts an exponent short, so it is rounded once. -/
theorem ofDecimal_of_roundsTo {m : Nat} {e : Int} (hc : Canonical m e) (hm : 0 < m) {D : Nat} {X : Int}
    (hD : 0 < D) (h : RoundsTo ((D : ℚ) * 10 ^ X) m e) (neg : Bool) :
    ofDecimal neg D X = encode neg m e := by
  obtain ⟨hlo, hhi⟩ := roundsTo_bounds hc hm h
  obtain ⟨hw1, hw2, hw0⟩ := decimalWidth_bounds hD
  have hX : (0 : ℚ) < 10 ^ X := zpow_pos (by norm_num) X
  have hbig : (2 : ℚ) ^ (1024 : Int) < 10 ^ (310 : Int) := by
    have h := natPow_lt_cast (by decide +kernel : 2 ^ 1024 < 10 ^ 310)
    rw [Nat.cast_ofNat, Nat.cast_ofNat] at h
    exact_mod_cast h
  have hsmall : (10 : ℚ) ^ (-330 : Int) < 2 ^ (-1075 : Int) := by
    have h := natPow_lt_cast (by decide +kernel : 2 ^ 1075 < 10 ^ 330)
    rw [Nat.cast_ofNat, Nat.cast_ofNat] at h
    rw [zpow_neg, zpow_neg, inv_lt_inv₀ (by positivity) (by positivity)]
    exact_mod_cast h
  have hw1' : (10 : ℚ) ^ ((decimalWidth D : Int) - 1) ≤ D := by
    rw [show (decimalWidth D : Int) - 1 = ((decimalWidth D - 1 : Nat) : Int) by omega, zpow_natCast]
    exact_mod_cast hw1
  have hw2' : (D : ℚ) < 10 ^ (decimalWidth D : Int) := by rw [zpow_natCast]; exact_mod_cast hw2
  -- the value is below `10^310`, so the cut-off to infinity does not fire
  have hnot_big : ¬((decimalWidth D : Int) - 1 + X ≥ 310) := by
    intro hge
    have : (10 : ℚ) ^ (310 : Int) ≤ D * 10 ^ X :=
      calc (10 : ℚ) ^ (310 : Int) ≤ 10 ^ ((decimalWidth D : Int) - 1 + X) := zpow_le_zpow_right₀ (by norm_num) hge
        _ = 10 ^ ((decimalWidth D : Int) - 1) * 10 ^ X := zpow_add₀ (by norm_num) _ _
        _ ≤ D * 10 ^ X := mul_le_mul_of_nonneg_right hw1' hX.le
    exact absurd (this.trans_lt (hhi.trans hbig)) (lt_irrefl _)
  -- and above `10^-330`, so the cut-off to zero does not fire either
  have hnot_small : ¬((decimalWidth D : Int) + X ≤ -330) := by
    intro hle
    have : (D : ℚ) * 10 ^ X < 10 ^ (-330 : Int) :=
      calc (D : ℚ) * 10 ^ X < 10 ^ (decimalWidth D : Int) * 10 ^ X := mul_lt_mul_of_pos_right hw2' hX
        _ = 10 ^ ((decimalWidth D : Int) + X) := (zpow_add₀ (by norm_num) _ _).symm
        _ ≤ 10 ^ (-330 : Int) := zpow_le_zpow_right₀ (by norm_num) hle
    exact absurd (hlo.trans_lt (this.trans hsmall)) (lt_irrefl _)
  unfold ofDecimal
  rw [if_neg hD.ne', if_neg hnot_big, if_neg hnot_small]
  split
  · next hX0 =>
    refine round_eq_encode hc (Nat.mul_pos hD (by rw [Nat.pow_eq]; positivity)) Nat.one_pos ?_ neg
    rw [Nat.pow_eq, Nat.cast_one, div_one, Nat.cast_mul, Nat.cast_pow, Nat.cast_ofNat, ← zpow_natCast,
      Int.toNat_of_nonneg hX0]
    exact h
  · next hX0 =>
    refine round_eq_encode hc hD (by rw [Nat.pow_eq]; positivity) ?_ neg
    rw [Nat.pow_eq, Nat.cast_pow, Nat.cast_ofNat, ← zpow_natCast, Int.toNat_of_nonneg (by omega),
      zpow_neg, div_inv_eq_mul]
    exact h

/-! ## The text of a finite word -/

/-- The text of a finite word other than `-0` is a literal, with a sign, that reads back as the
word. -/
theorem render_literal {x : Double} (hx : x.isFinite = true) (hz : x ≠ negZero) :
    ∃ (neg : Bool) (l : Literal), (render x).toList = (if neg then ['-'] else []) ++ l.text ∧
      l.decimal.toDouble neg = x := by
  unfold isFinite at hx
  split at hx
  · next neg m e hdec =>
    obtain ⟨hc, henc⟩ := decode_finite hdec
    rcases Nat.eq_zero_or_pos m with rfl | hm
    · -- both zeros are written `0`, which reads as `+0`
      have he : e = minExponent := by rcases hc with h | h; exacts [absurd h.1 (by decide), h.2]
      subst he
      have hneg : neg = false := by
        cases neg
        · rfl
        · exact absurd (henc.symm.trans (by decide)) hz
      subst hneg
      refine ⟨false, ⟨['0'], [], none, ⟨'0', [], rfl, fun _ => rfl⟩, fun c hc => (List.mem_singleton.1 hc) ▸ rfl, by simp,
        by simp⟩, ?_, ?_⟩
      · simp [render, hdec, Literal.text, Literal.fractionText, Literal.exponentText]
      · rw [← henc]; decide
    · obtain ⟨n, t, hn, hround, hshort⟩ := shortest_spec hc hm
      obtain ⟨l, htext, hval⟩ := layout_literal hn (t + (toString n).length)
      refine ⟨neg, l, ?_, ?_⟩
      · simp only [render, hdec, if_neg hm.ne', hshort, String.toList_append, htext]
        cases neg <;> rfl
      · have hv : l.value = n * 10 ^ t := by rw [hval]; congr 2; ring
        have hpos : 0 < Decimal.digitsValue (l.whole ++ l.fraction) := by
          have h0 : (0 : ℚ) < l.value := by rw [hv]; positivity
          rw [Literal.value] at h0
          exact_mod_cast pos_of_mul_pos_left h0 (zpow_pos (by norm_num) _).le
        have hv' : (Decimal.digitsValue (l.whole ++ l.fraction) : ℚ) *
            10 ^ (l.decimal.exponent - l.decimal.fraction.length) = n * 10 ^ t := hv
        rw [← henc]
        exact ofDecimal_of_roundsTo hc hm hpos (by rw [hv']; exact hround) neg
  · cases hx

/-- The text of a finite word other than `-0`, followed by a character that ends a number,
reads back as the word. -/
theorem number_render {x : Double} (hx : x.isFinite = true) (hz : x ≠ negZero) {rest : List Char}
    (hr : NumberEnd rest) (pos : Nat) :
    ∃ pos', Json.Reader.number ⟨(render x).toList ++ rest, pos⟩ = .ok (.num x, ⟨rest, pos'⟩) := by
  obtain ⟨neg, l, htext, hval⟩ := render_literal hx hz
  obtain ⟨pos', h⟩ := number_literal neg l hr pos
  exact ⟨pos', by rw [htext, h, hval]⟩

/-- The text of a finite word other than `-0` starts with a minus sign or a digit. -/
theorem render_head {x : Double} (hx : x.isFinite = true) (hz : x ≠ negZero) :
    ∃ c r, (render x).toList = c :: r ∧ (c = '-' ∨ c.isDigit = true) := by
  obtain ⟨neg, l, htext, -⟩ := render_literal hx hz
  obtain ⟨d, ds, hw, -⟩ := l.whole_shape
  have hd : d.isDigit = true := l.whole_digits d (by rw [hw]; exact List.mem_cons_self)
  rw [htext]
  cases neg
  · exact ⟨d, ds ++ (Literal.fractionText l.fraction ++ Literal.exponentText l.exponent),
      by simp [Literal.text, hw], .inr hd⟩
  · exact ⟨'-', l.text, by simp, .inl rfl⟩

end Double

end DapBridge
