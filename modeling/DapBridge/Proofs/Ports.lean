import DapBridge.Proofs.Durations
import DapBridge.Proofs.SchemaKinds

/-!
# Ports from the command line

`--port` reads its text as any text is read as a number (`Double.ofNumericText`): blanks around
it are ignored and the empty text is `0`; a sign, a fraction, an exponent, `Infinity` and `0x`,
`0o`, `0b` literals are numbers too. The text is a port when that number is a whole number from
0 to 65535, and a refusal quotes the text.

* `Double.port_check_iff`: the check is the one the configuration schemas make of a port,
  `Json.isPort 0`, read through the word's integer;
* `Double.ofNumericText_digits`: a run of decimal digits with blanks around it denotes the
  whole number of the digits (`Blank.trimList_pad`, `Double.unsignedDecimal_digits`), and
  `Double.isPort_ofDecimal`: that number is a port exactly when it is at most 65535, also past
  `2^53`, where it is rounded but stays above (`Double.ofNat_ge`).

`port_text_read` puts these together. `port_text_lenient` shows texts that are no runs of digits
and are ports all the same.
-/

namespace DapBridge

namespace Blank

theorem dropWhile_of_head {p : Char → Bool} {l : List Char} (h : ∀ c ∈ l.head?, p c = false) :
    l.dropWhile p = l := by
  cases l with
  | nil => rfl
  | cons c r => exact List.dropWhile_cons_of_neg (by simp [h c rfl])

/-- Blanks around a text whose ends are not blank are trimmed off; blanks alone trim to
nothing. -/
theorem trimList_pad {pre core post : List Char} (hpre : ∀ c ∈ pre, isBlank c = true)
    (hpost : ∀ c ∈ post, isBlank c = true) (hhead : ∀ c ∈ core.head?, isBlank c = false)
    (hlast : ∀ c ∈ core.getLast?, isBlank c = false) : trimList (pre ++ core ++ post) = core := by
  have hfront : (pre ++ core ++ post).dropWhile isBlank = (core ++ post).dropWhile isBlank := by
    rw [List.append_assoc, List.dropWhile_append_of_pos hpre]
  rcases List.eq_nil_or_concat core with rfl | ⟨body, c, rfl⟩
  · -- nothing but blanks
    have hall : ([] ++ post).dropWhile isBlank = [] := List.dropWhile_eq_nil_iff.2 (by simpa using hpost)
    rw [trimList, hfront, hall]
    rfl
  · rw [List.concat_eq_append] at hhead hlast hfront ⊢
    have hc : isBlank c = false := hlast c (by simp)
    have hmid : (body ++ [c] ++ post).dropWhile isBlank = body ++ [c] ++ post :=
      dropWhile_of_head (by cases body <;> simpa using hhead)
    have hback : (body ++ [c]).reverse.dropWhile isBlank = (body ++ [c]).reverse :=
      dropWhile_of_head (by simp [hc])
    rw [trimList, hfront, hmid, List.reverse_append, List.dropWhile_append_of_pos (by simpa using hpost), hback,
      List.reverse_reverse]

/-- A decimal digit is no blank. -/
theorem isBlank_digit {c : Char} (h : c.isDigit = true) : isBlank c = false := by
  have hd : 48 ≤ c.toNat ∧ c.toNat ≤ 57 := by
    simp only [Char.isDigit, Bool.and_eq_true, decide_eq_true_eq] at h
    exact ⟨h.1, h.2⟩
  simp only [isBlank]
  simp
  omega

end Blank

namespace Double

/-- A whole number up to `2^53` is an integral word. -/
theorem isInteger_ofNat {n : Nat} (h : n ≤ 2 ^ 53) : (ofNat n).isInteger = true := by
  obtain ⟨m, e, hd, hv⟩ := decode_ofNat h
  simp only [isInteger, hd, decide_eq_true_eq]
  by_cases he : 0 ≤ e
  · exact .inl he
  · exact .inr (by rw [Nat.pow_eq, significand_of_neg hv (by omega), Nat.mul_mod_left])

/-- A whole number up to `2^53` is the integer it names. -/
theorem toInt?_ofNat {n : Nat} (h : n ≤ 2 ^ 53) : (ofNat n).toInt? = some (n : Int) := by
  rw [toInt?, if_pos (isInteger_ofNat h), truncInt_ofNat h]

/-- An integral word is at most a whole number of magnitude at most `2^53` as its integer is. -/
theorem le_ofInt_of_toInt? {x : Double} {i : Int} (hx : x.toInt? = some i) {j : Int} (hj : j.natAbs ≤ 2 ^ 53) :
    Double.le x (ofInt j) = decide (i ≤ j) := by
  rw [Double.le, compareNum_ofInt_of_toInt? hx hj]
  rcases lt_trichotomy i j with h | rfl | h
  · simp [compare_lt_iff_lt.2 (show (i : ℚ) < j by exact_mod_cast h), h.le]
  · simp
  · simp [compare_gt_iff_gt.2 (show (j : ℚ) < i by exact_mod_cast h), not_le.2 h]

theorem ofInt_le_of_toInt? {x : Double} {i : Int} (hx : x.toInt? = some i) {j : Int} (hj : j.natAbs ≤ 2 ^ 53) :
    Double.le (ofInt j) x = decide (j ≤ i) := by
  obtain ⟨neg, m, e, hd, hv⟩ := value_of_toInt? hx
  obtain ⟨m', e', hd', hv'⟩ := decode_ofInt hj
  rw [Double.le, compareNum_finite hd' hd, hv, hv']
  rcases lt_trichotomy j i with h | rfl | h
  · simp [compare_lt_iff_lt.2 (show (j : ℚ) < i by exact_mod_cast h), h.le]
  · simp
  · simp [compare_gt_iff_gt.2 (show (i : ℚ) < j by exact_mod_cast h), not_le.2 h]

/-- The check a port passes, a whole number from 0 to 65535, read through the word's integer. -/
theorem port_check_iff (x : Double) :
    (x.isInteger = true ∧ Double.le 0 x = true ∧ Double.le x 65535 = true) ↔ Json.isPort 0 (.num x) = true := by
  have h0 : (0 : Double) = ofInt 0 := rfl
  have h1 : (65535 : Double) = ofInt 65535 := rfl
  cases hx : x.toInt? with
  | none =>
    have hint : x.isInteger = false := by
      cases hi : x.isInteger
      · rfl
      · obtain ⟨i, hi'⟩ := toInt?_of_isInteger hi
        rw [hx] at hi'
        cases hi'
    simp [hint, Json.isPort, hx]
  | some i =>
    rw [isInteger_of_toInt? hx, h0, h1, ofInt_le_of_toInt? hx (by norm_num), le_ofInt_of_toInt? hx (by norm_num)]
    simp [Json.isPort, hx]

/-- A whole number of at least `2^53` has a unit of at least 2, and its rounded significand lies
from `2^52` to `2^53`. -/
theorem scaleRound_of_ge {n : Nat} (h : 2 ^ 53 ≤ n) :
    1 ≤ unitExponent n 1 ∧ 2 ^ 52 ≤ scaleRound n (unitExponent n 1) 1 ∧
      scaleRound n (unitExponent n 1) 1 ≤ 2 ^ 53 := by
  have hn : 0 < n := lt_of_lt_of_le (by norm_num) h
  have hnq : (2 : ℚ) ^ 53 ≤ n := by exact_mod_cast h
  obtain ⟨hu1, hu2, -⟩ := unitExponent_spec hn Nat.one_pos
  rw [Nat.cast_one, div_one] at hu1 hu2
  obtain ⟨hk1, hk2, -⟩ := scaleRound_nearest n Nat.one_pos (unitExponent n 1)
  rw [Nat.cast_one, div_one] at hk1 hk2
  generalize unitExponent n 1 = u at hu1 hu2 hk1 hk2 ⊢
  generalize scaleRound n u 1 = k at hk1 hk2 ⊢
  have hpu : (0 : ℚ) < 2 ^ u := zpow_pos (by norm_num) u
  rw [two_zpow_add u 53] at hu1
  -- the unit of a number of at least `2^53` is at least 2
  have hu : 1 ≤ u := by
    by_contra hlt
    have : (2 : ℚ) ^ u ≤ 1 := zpow_le_one_of_nonpos₀ (by norm_num) (by omega)
    have : (2 : ℚ) ^ u * 2 ^ 53 ≤ 2 ^ 53 := by nlinarith
    linarith
  have hlo : (2 : ℚ) ^ u * 2 ^ 52 ≤ n := by
    rw [← two_zpow_add u 52]
    exact hu2.resolve_left (by simp only [minExponent]; omega)
  -- the significand, the whole number nearest `n / 2^u`, lies from `2^52` to `2^53`
  have hq1 : (2 : ℚ) ^ 52 ≤ n / 2 ^ u := by rw [le_div_iff₀ hpu]; linarith
  have hq2 : (n : ℚ) / 2 ^ u < 2 ^ 53 := by rw [div_lt_iff₀ hpu]; linarith
  refine ⟨hu, ?_, ?_⟩
  · have : ((2 ^ 52 - 1 : Nat) : ℚ) < k := by push_cast; linarith
    have : 2 ^ 52 - 1 < k := by exact_mod_cast this
    omega
  · have : (k : ℚ) < ((2 ^ 53 + 1 : Nat) : ℚ) := by push_cast; linarith
    have : k < 2 ^ 53 + 1 := by exact_mod_cast this
    omega

/-- A positive word of a significand of at least `2^52` and a unit of at least 2 is at least
`2^53`. -/
theorem two_pow_le_value {m : Nat} {e : Int} (hm : 2 ^ 52 ≤ m) (he : 1 ≤ e) :
    (2 : ℚ) ^ 53 ≤ value false m e := by
  have hmq : (2 : ℚ) ^ 52 ≤ m := by exact_mod_cast hm
  have he2 : (2 : ℚ) ≤ 2 ^ e := by
    simpa using zpow_le_zpow_right₀ (show (1 : ℚ) ≤ 2 by norm_num) he
  simp only [value, Bool.false_eq_true, if_false]
  calc (2 : ℚ) ^ 53 = 2 ^ 52 * 2 := by norm_num
    _ ≤ (m : ℚ) * 2 ^ e := mul_le_mul hmq he2 (by norm_num) (by positivity)

/-- A whole number of at least `2^53` rounds to a word of at least `2^53`, or to infinity past
the largest one. -/
theorem ofNat_ge {n : Nat} (h : 2 ^ 53 ≤ n) :
    (ofNat n).decode = .infinite false ∨
      ∃ m e, (ofNat n).decode = .finite false m e ∧ (2 : ℚ) ^ 53 ≤ value false m e := by
  obtain ⟨hu, hkl, hkh⟩ := scaleRound_of_ge h
  unfold ofNat
  rw [round_pos false (lt_of_lt_of_le (by norm_num) h) Nat.one_pos]
  generalize unitExponent n 1 = u at hu hkl hkh ⊢
  generalize scaleRound n u 1 = k at hkl hkh ⊢
  -- a significand rounded up to `2^53` moves to the next unit
  split
  · split
    · exact .inl (by decide)
    · rename_i hmax
      have hc : Canonical (2 ^ 52) (u + 1) := .inl ⟨le_refl _, by norm_num, by simp only [minExponent]; omega,
        by omega⟩
      exact .inr ⟨_, _, decode_encode hc false, two_pow_le_value le_rfl (by omega)⟩
  · rename_i hk
    split
    · exact .inl (by decide)
    · rename_i hmax
      have hc : Canonical k u := .inl ⟨hkl, by omega, by simp only [minExponent]; omega, by omega⟩
      exact .inr ⟨_, _, decode_encode hc false, two_pow_le_value hkl hu⟩

/-- The digits of `n`, as a number, are a port exactly when `n` is at most 65535. -/
theorem isPort_ofDecimal (n : Nat) : Json.isPort 0 (.num (ofDecimal false n 0)) = decide (n ≤ 65535) := by
  by_cases hn : n ≤ 2 ^ 53
  · rw [ofDecimal_whole_of_le hn]
    simp [Json.isPort, toInt?_ofNat hn]
  · -- past `2^53` the word is infinity or at least `2^53`: no port either way
    have hbig : Json.isPort 0 (.num (ofDecimal false n 0)) = false := by
      rcases ofDecimal_whole n with h | h
      · rw [h]
        cases hi : (ofNat n).toInt? with
        | none => simp [Json.isPort, hi]
        | some i =>
          obtain ⟨neg, m, e, hd, hv⟩ := value_of_toInt? hi
          rcases ofNat_ge (by omega : 2 ^ 53 ≤ n) with hd' | ⟨m', e', hd', hv'⟩
          · rw [hd] at hd'; cases hd'
          · rw [hd] at hd'
            cases hd'
            have hi' : (2 : ℚ) ^ 53 ≤ i := hv ▸ hv'
            have : (2 ^ 53 : Int) ≤ i := by exact_mod_cast hi'
            simp only [Json.isPort, hi]
            simp
            omega
      · rw [h]
        decide
    rw [hbig]
    simp
    omega

/-- A run of decimal digits is an unsigned decimal literal with neither fraction nor exponent. -/
theorem unsignedDecimal_digits {ds : List Char} (hne : ds ≠ []) (hds : ∀ c ∈ ds, c.isDigit = true) (neg : Bool) :
    unsignedDecimal ds neg = some (ofDecimal neg (Decimal.digitsValue ds) 0) := by
  have hsplit : Decimal.spanDigits ds = (ds, []) := by
    simpa using @Decimal.spanDigits_append ds [] hds (by simp)
  simp [unsignedDecimal, hsplit, hne, Decimal.toDouble]

/-- Blanks around a run of decimal digits are ignored: the text denotes the digits' number. -/
theorem ofNumericText_digits {s : String} {pre ds post : List Char} (hs : s.toList = pre ++ ds ++ post)
    (hblank : ∀ c ∈ pre ++ post, Blank.isBlank c = true) (hne : ds ≠ []) (hds : ∀ c ∈ ds, c.isDigit = true) :
    ofNumericText s = ofDecimal false (Decimal.digitsValue ds) 0 := by
  have hnb : ∀ c ∈ ds, Blank.isBlank c = false := fun c hc => Blank.isBlank_digit (hds c hc)
  have htrim : Blank.trimList s.toList = ds := by
    rw [hs]
    refine Blank.trimList_pad (fun c hc => hblank c (List.mem_append_left _ hc))
      (fun c hc => hblank c (List.mem_append_right _ hc)) ?_ ?_
    · intro c hc; exact hnb c (List.mem_of_mem_head? hc)
    · intro c hc; exact hnb c (List.mem_of_mem_getLast? hc)
  have hI : "Infinity".toList = ['I', 'n', 'f', 'i', 'n', 'i', 't', 'y'] := rfl
  unfold ofNumericText
  rw [htrim]
  dsimp only
  -- digits start with no radix mark, no sign and no `Infinity`
  split
  case h_1 => exact absurd rfl hne
  case h_2 | h_3 | h_4 | h_5 | h_6 | h_7 =>
    exact absurd (hds _ (List.mem_cons_of_mem _ List.mem_cons_self)) (by decide)
  case h_8 =>
    split
    case h_1 | h_2 => exact absurd (hds _ List.mem_cons_self) (by decide)
    case h_3 =>
      have hinf : ds ≠ "Infinity".toList := fun h => absurd (hds 'I' (by simp [h, hI])) (by decide)
      rw [if_neg hinf, unsignedDecimal_digits hne hds]
      rfl

/-- Blanks alone denote zero. -/
theorem ofNumericText_blank {s : String} (hs : ∀ c ∈ s.toList, Blank.isBlank c = true) : ofNumericText s = 0 := by
  have htrim : Blank.trimList s.toList = [] := by
    simpa using @Blank.trimList_pad s.toList [] [] hs (by simp) (by simp) (by simp)
  unfold ofNumericText
  rw [htrim]

end Double

/-! ## The text of a port -/

/-- A value is a port when its number passes the check of a whole port; a refusal quotes the
value's text. -/
theorem parsePort_eq (v : Option Json) :
    parsePort v = if Json.isPort 0 (.num (Json.numberOf v)) = true then .ok (Json.numberOf v)
      else .error (.port (Json.textOf v)) := by
  unfold parsePort
  split
  · rename_i h
    rw [if_pos ((Double.port_check_iff _).2 h)]
  · rename_i h
    rw [if_neg (fun h' => h ((Double.port_check_iff _).1 h'))]

/-- A text is a port when the number it denotes passes the check of a whole port. -/
theorem parsePort_text (t : Text) :
    parsePort (some (.str t)) = if Json.isPort 0 (.num (Double.ofNumericText t.toString)) = true
      then .ok (Double.ofNumericText t.toString) else .error (.port t.toString) :=
  parsePort_eq _

theorem ValueError.message_port (s : String) : (ValueError.port s).message = "Invalid port: " ++ s := rfl

/-- Ports as a text gives them. A text is a port exactly when the number it denotes is a whole
number from 0 to 65535, and a refusal says `Invalid port: ` and the text. So a run of decimal
digits, also with blanks around it, is the port it spells when that is at most 65535 and is
refused otherwise; blanks alone are port 0. -/
theorem port_text_read (t : Text) :
    (∀ x, parsePort (some (.str t)) = .ok x ↔
      Double.ofNumericText t.toString = x ∧ Json.isPort 0 (.num x) = true) ∧
    (∀ e, parsePort (some (.str t)) = .error e → e.message = "Invalid port: " ++ t.toString) ∧
    (∀ pre ds post, t.toString.toList = pre ++ ds ++ post →
      (∀ c ∈ pre ++ post, Blank.isBlank c = true) → ds ≠ [] → (∀ c ∈ ds, c.isDigit = true) →
      parsePort (some (.str t)) = if Decimal.digitsValue ds ≤ 65535 then .ok (.ofNat (Decimal.digitsValue ds))
        else .error (.port t.toString)) ∧
    ((∀ c ∈ t.toString.toList, Blank.isBlank c = true) → parsePort (some (.str t)) = .ok 0) := by
  refine ⟨fun x => ?_, fun e h => ?_, fun pre ds post hs hblank hne hds => ?_, fun hs => ?_⟩
  · rw [parsePort_text]
    by_cases h : Json.isPort 0 (.num (Double.ofNumericText t.toString)) = true
    · rw [if_pos h]
      constructor
      · rintro ⟨⟩
        exact ⟨rfl, h⟩
      · rintro ⟨rfl, -⟩
        rfl
    · rw [if_neg h]
      constructor
      · rintro ⟨⟩
      · rintro ⟨rfl, h'⟩
        exact absurd h' h
  · rw [parsePort_text] at h
    split at h
    · cases h
    · cases h
      exact ValueError.message_port _
  · rw [parsePort_text, Double.ofNumericText_digits hs hblank hne hds, Double.isPort_ofDecimal]
    by_cases hle : Decimal.digitsValue ds ≤ 65535
    · rw [if_pos (decide_eq_true hle), if_pos hle, Double.ofDecimal_whole_of_le (by omega)]
    · rw [if_neg (by simpa using hle), if_neg hle]
  · have hzero : Json.isPort 0 (.num (0 : Double)) = true := by
      simp [Json.isPort, show (0 : Double) = Double.ofNat 0 from rfl, Double.toInt?_ofNat (n := 0) (by norm_num)]
    rw [parsePort_text, Double.ofNumericText_blank hs, if_pos hzero]

/-- Texts that are no runs of digits are ports too: the empty text is port 0, and blanks around
digits, a sign, an exponent and a `0x` literal are read as the number. -/
theorem port_text_lenient :
    (parsePort (some (.string ""))).toOption = some 0 ∧ (parsePort (some (.string " 80 "))).toOption = some 80 ∧
      (parsePort (some (.string "+80"))).toOption = some 80 ∧ (parsePort (some (.string "8e1"))).toOption = some 80 ∧
      (parsePort (some (.string "0x50"))).toOption = some 80 :=
  ⟨by decide +kernel, by decide +kernel, by decide +kernel, by decide +kernel, by decide +kernel⟩

end DapBridge
