import Mathlib
import DapBridge.Proofs.NumberText
import DapBridge.Proofs.PathKeys
import DapBridge.Session.Engine

/-!
# Data breakpoint ids read back

A data breakpoint is named by an id `frame:<frame id>:var:<name>`, which `dataTarget` writes and
`parseDataId` reads. For a frame id that is a whole number below `10^21` and a name that is not
empty and has no line break, the id reads back as that frame and name; a request for it sets
one watch under that id, and a stop naming the same frame and variable counts a hit on it
(`data_ids_round_trip`). The empty name is refused by the form ids are read with
(`empty_name_id_malformed`), and so is a name with a line break.

* `render_whole`: a whole number from `0` to below `10^21` is written in decimal digits only. The
  search for the shortest digits stops at a grid no finer than the units, since the value
  itself lies on the grid of units (`candidate_whole`, `shortest_whole`); and the digits stand
  below `10^21`, since half a gap above the value is still below it (`value_add_half_lt`).
* `ofDecimal_render`: digits that are the text of a word read back as the word.
* `parseDataId_frame`: the form ids are read with.
-/

namespace DapBridge

namespace Double

/-! ## Whole numbers are written in digits -/

theorem signBit_of_decode {x : Double} {neg : Bool} {m : Nat} {e : Int} (h : x.decode = .finite neg m e) :
    neg = x.signBit := by
  unfold decode at h
  dsimp only at h
  split at h
  · split at h <;> cases h
  · split at h <;> (cases h; rfl)

theorem toNat?_value {f : Double} {k : Nat} (hf : f.toNat? = some k) (hs : f.signBit = false) :
    ∃ m e, f.decode = .finite false m e ∧ (k : ℚ) = m * 2 ^ e := by
  unfold toNat? at hf
  split at hf
  · next hint =>
    cases hd : f.decode with
    | finite neg m e =>
      have hneg : neg = false := (signBit_of_decode hd).trans hs
      subst hneg
      refine ⟨m, e, rfl, ?_⟩
      simp only [isInteger, hd] at hint
      simp only [truncInt, hd] at hf
      simp only [Bool.false_eq_true, if_false, ge_iff_le, Nat.cast_nonneg, if_true, Int.toNat_natCast,
        Option.some.injEq] at hf
      by_cases he : 0 ≤ e
      · obtain ⟨j, rfl⟩ := Int.eq_ofNat_of_zero_le he
        rw [if_pos he, Int.toNat_natCast] at hf
        rw [← hf, zpow_natCast, Nat.pow_eq]
        push_cast
        rfl
      · rw [if_neg he] at hf
        obtain ⟨j, rfl⟩ : ∃ j : Nat, e = -(j : Int) := ⟨(-e).toNat, by omega⟩
        simp only [neg_neg, Int.toNat_natCast, decide_eq_true_eq, he, false_or, Nat.pow_eq] at hint hf
        rw [← hf, zpow_neg, zpow_natCast, Nat.cast_div (Nat.dvd_of_mod_eq_zero hint) (by positivity)]
        push_cast
        rfl
    | infinite neg => simp [isInteger, hd] at hint
    | nan => simp [isInteger, hd] at hint
  · cases hf


/-- The leading exponent of a value of at least one is not negative: the search starts from a
guess of at least zero, takes it down at most twice, and every power of ten up to `10^0` lies
below the value. -/
theorem leadingExponent_nonneg {m : Nat} {e : Int} (hv : (1 : ℚ) ≤ m * 2 ^ e)
    (hs : 0 ≤ (Nat.log2 m : Int) + e) : 0 ≤ leadingExponent m e := by
  have hg : 0 ≤ (((Nat.log2 m : Int) + e) * 30103).fdiv 100000 := by
    rw [Int.fdiv_eq_ediv_of_nonneg _ (by norm_num)]
    exact Int.ediv_nonneg (by omega) (by norm_num)
  have hbelow : ∀ k : Int, k ≤ 0 → (10 : ℚ) ^ k ≤ m * 2 ^ e := fun k hk =>
    (zpow_le_one_of_nonpos₀ (by norm_num) hk).trans hv
  unfold leadingExponent
  dsimp only
  simp only [below_iff]
  generalize (((Nat.log2 m : Int) + e) * 30103).fdiv 100000 = g at hg ⊢
  -- a result below zero is only reached past a test `10^k ≤ v` that failed for some `k ≤ 0`
  split_ifs with h1 h2 h3 h4
  all_goals first
    | omega
    | (by_contra; exact h1 (hbelow g (by omega)))
    | (by_contra; exact h4 (hbelow (g - 1) (by omega)))


/-- A candidate on the grid of `p` digits stands at the exponent of that grid. -/
theorem candidate_exponent {m : Nat} {e : Int} {p n : Nat} {t : Int} (h : candidate m e p = some (n, t)) :
    t = leadingExponent m e - p + 1 := by
  unfold candidate at h
  dsimp only at h
  split at h
  · split at h <;> (try split at h) <;> (cases h; rfl)
  · split at h
    · cases h; rfl
    · split at h
      · cases h; rfl
      · cases h

/-- The search returns the candidate of the first grid, from where it starts, that has one. -/
theorem firstCandidate_least {m : Nat} {e : Int} {c : Nat × Int} :
    ∀ {fuel p : Nat}, firstCandidate m e fuel p = some c →
      ∃ q, p ≤ q ∧ candidate m e q = some c ∧ ∀ r, p ≤ r → r < q → candidate m e r = none
  | 0, _, h => by simp [firstCandidate] at h
  | fuel + 1, p, h => by
    unfold firstCandidate at h
    split at h
    · next c' hc =>
      cases h
      exact ⟨p, Nat.le_refl p, hc, fun r h₁ h₂ => absurd h₂ (by omega)⟩
    · next hnone =>
      obtain ⟨q, hpq, hq, hmin⟩ := firstCandidate_least h
      refine ⟨q, by omega, hq, fun r h₁ h₂ => ?_⟩
      rcases Nat.eq_or_lt_of_le h₁ with rfl | h₁
      · exact hnone
      · exact hmin r h₁ h₂

/-- A whole value lies on the grid of units, so the grid whose step is one has a candidate. -/
theorem candidate_whole {m : Nat} {e : Int} (hm : 0 < m) {k : Nat} (hk : (k : ℚ) = m * 2 ^ e) {p : Nat}
    (hp : (p : Int) = leadingExponent m e + 1) : (candidate m e p).isSome := by
  apply candidate_isSome_of
  left
  have ht : leadingExponent m e - p + 1 = 0 := by omega
  have hlo : Scaled.floorDivTen m e 0 = k := by
    obtain ⟨h₁, h₂⟩ := Scaled.floorDivTen_spec m e 0
    simp only [zpow_zero, mul_one, ← hk] at h₁ h₂
    have h₁' : Scaled.floorDivTen m e 0 ≤ k := by exact_mod_cast h₁
    have h₂' : k < Scaled.floorDivTen m e 0 + 1 := by exact_mod_cast h₂
    omega
  rw [ht, hlo, readsBackAs_iff hm, zpow_zero, mul_one, hk]
  exact roundsTo_self

theorem trimZeros_exponent_le : ∀ (fuel n : Nat) (t : Int), t ≤ (trimZeros fuel n t).2
  | 0, _, _ => le_refl _
  | fuel + 1, n, t => by
    unfold trimZeros
    split
    · exact le_trans (by omega) (trimZeros_exponent_le fuel (n / 10) (t + 1))
    · exact le_refl _


/-- A canonical significand fits 53 bits, and the value stays far below `2^200000`. -/
theorem canonical_bounds {m : Nat} {e : Int} (hc : Canonical m e) (hm : 0 < m) :
    m < 2 ^ 53 ∧ (Nat.log2 m : Int) + e ≤ 200000 := by
  have hm53 : m < 2 ^ 53 := by rcases hc with h | h <;> omega
  refine ⟨hm53, ?_⟩
  have hl : Nat.log2 m < 53 := (Nat.log2_lt hm.ne').2 hm53
  have he : e ≤ maxExponent := by rcases hc with h | ⟨-, rfl⟩; exacts [h.2.2.2, by decide]
  simp only [maxExponent] at he
  omega

/-- A value of at least one has a binary exponent, counted from its leading bit, of at least
zero. -/
theorem log2_add_nonneg {m : Nat} {e : Int} (hv : (1 : ℚ) ≤ m * 2 ^ e) : 0 ≤ (Nat.log2 m : Int) + e := by
  by_contra hneg
  have hm : (m : ℚ) < 2 ^ (Nat.log2 m + 1) := by exact_mod_cast Nat.lt_log2_self
  have hp : (0 : ℚ) < 2 ^ e := zpow_pos (by norm_num) e
  have hup : (m : ℚ) * 2 ^ e < 2 ^ ((Nat.log2 m : Int) + 1 + e) := by
    rw [zpow_add₀ two_ne_zero, ← Nat.cast_one, ← Nat.cast_add, zpow_natCast]
    exact mul_lt_mul_of_pos_right hm hp
  have hle : (2 : ℚ) ^ ((Nat.log2 m : Int) + 1 + e) ≤ 1 := zpow_le_one_of_nonpos₀ (by norm_num) (by omega)
  linarith

/-- The shortest digits of a whole value stand on a grid no finer than the units: the grid of
as many digits as the value has holds the value itself, and the search stops there at the
latest. -/
theorem shortest_whole {m : Nat} {e : Int} (hc : Canonical m e) (hm : 0 < m) {k : Nat}
    (hk : (k : ℚ) = m * 2 ^ e) :
    ∃ (n : Nat) (t : Int), 0 < n ∧ 0 ≤ t ∧ RoundsTo ((n : ℚ) * 10 ^ t) m e ∧
      shortest m e = (toString n, t + (toString n).length) := by
  obtain ⟨hm53, hs⟩ := canonical_bounds hc hm
  have hv : (1 : ℚ) ≤ m * 2 ^ e := by
    have hpos : (0 : ℚ) < m * 2 ^ e := mul_pos (by exact_mod_cast hm) (zpow_pos (by norm_num) e)
    have hk0 : 0 < k := by rw [← hk] at hpos; exact_mod_cast hpos
    rw [← hk]
    exact_mod_cast hk0
  have hK := leadingExponent_nonneg hv (log2_add_nonneg hv)
  obtain ⟨⟨n₀, t₀⟩, hfound⟩ := Option.isSome_iff_exists.1
    (@firstCandidate_isSome m e 17 (candidate_isSome hm hm53 hs) 18 1 (by omega) (by omega))
  obtain ⟨q, hq1, hq, hmin⟩ := firstCandidate_least hfound
  have hqK : (q : Int) ≤ leadingExponent m e + 1 := by
    by_contra hlt
    rcases le_or_gt (leadingExponent m e + 1) 17 with h17 | h17
    · have hsome := candidate_whole hm hk
        (show ((leadingExponent m e + 1).toNat : Int) = leadingExponent m e + 1 by omega)
      rw [hmin _ (by omega) (by omega)] at hsome
      cases hsome
    · have hsome := candidate_isSome hm hm53 hs
      rw [hmin 17 (by omega) (by omega)] at hsome
      cases hsome
  have ht₀ : 0 ≤ t₀ := by rw [candidate_exponent hq]; omega
  have hround := (readsBackAs_iff hm e n₀ t₀).1 (firstCandidate_reads hfound)
  obtain ⟨hpos, hval⟩ := trimZeros_spec 20 n₀ t₀ (pos_of_roundsTo hm hround)
  refine ⟨_, _, hpos, le_trans ht₀ (trimZeros_exponent_le 20 n₀ t₀), hval ▸ hround, ?_⟩
  simp only [shortest, hfound, Option.getD_some]


/-- Half a gap above a whole value below `10^21` is still below `10^21`: the value's exponent is
at most `21`, so `10^21` is a whole number of its steps, and the next step up reaches it at most. -/
theorem value_add_half_lt {m : Nat} {e : Int} (hc : Canonical m e) {k : Nat} (hk : (k : ℚ) = m * 2 ^ e)
    (hlt : k < 10 ^ 21) : (m : ℚ) * 2 ^ e + 2 ^ (e - 1) < 10 ^ 21 := by
  have hkq : (k : ℚ) + 1 ≤ 10 ^ 21 := by exact_mod_cast hlt
  have he : e ≤ 21 := by
    rcases hc with ⟨h52, -, -, -⟩ | ⟨-, rfl⟩
    · by_contra hgt
      have h1 : (2 : ℚ) ^ (22 : Int) ≤ 2 ^ e := zpow_le_zpow_right₀ (by norm_num) (by omega)
      have h2 : (2 : ℚ) ^ 52 ≤ m := by exact_mod_cast h52
      have h3 : (2 : ℚ) ^ 52 * 2 ^ (22 : Int) ≤ m * 2 ^ e := mul_le_mul h2 h1 (by positivity) (by positivity)
      norm_num at h3
      linarith
    · simp [minExponent]
  rcases le_or_gt e 0 with he0 | he0
  · have hhalf : (2 : ℚ) ^ (e - 1) ≤ 1 / 2 :=
      calc (2 : ℚ) ^ (e - 1) ≤ 2 ^ (-1 : Int) := zpow_le_zpow_right₀ (by norm_num) (by omega)
        _ = 1 / 2 := by norm_num
    linarith
  · obtain ⟨j, rfl⟩ := Int.eq_ofNat_of_zero_le he0.le
    have hj : j ≤ 21 := by omega
    rw [zpow_natCast] at hk
    have hkn : k = m * 2 ^ j := by exact_mod_cast hk
    have h10 : 10 ^ 21 = 2 ^ (21 - j) * 5 ^ 21 * 2 ^ j := by
      rw [mul_comm (2 ^ (21 - j)), mul_assoc, ← pow_add, Nat.sub_add_cancel hj]
      norm_num
    have hmM : m + 1 ≤ 2 ^ (21 - j) * 5 ^ 21 := by
      rw [hkn, h10] at hlt
      exact Nat.lt_of_mul_lt_mul_right hlt
    have hmM' : ((m : ℚ) + 1) ≤ 2 ^ (21 - j) * 5 ^ 21 := by exact_mod_cast hmM
    have h10q : (10 : ℚ) ^ 21 = 2 ^ (21 - j) * 5 ^ 21 * 2 ^ j := by exact_mod_cast h10
    have hhalf : (2 : ℚ) ^ ((j : Int) - 1) < 2 ^ j := by
      rw [← zpow_natCast]
      exact zpow_lt_zpow_right₀ (by norm_num) (by omega)
    have hp : (0 : ℚ) < 2 ^ j := by positivity
    rw [zpow_natCast, h10q]
    calc (m : ℚ) * 2 ^ j + 2 ^ ((j : Int) - 1) < m * 2 ^ j + 2 ^ j := by linarith
      _ = (m + 1) * 2 ^ j := by ring
      _ ≤ 2 ^ (21 - j) * 5 ^ 21 * 2 ^ j := mul_le_mul_of_nonneg_right hmM' hp.le


/-- The digits of a whole value below `10^21` stand at most 21 places before the point. -/
theorem point_le_of_whole {m : Nat} {e : Int} (hc : Canonical m e) {k : Nat} (hk : (k : ℚ) = m * 2 ^ e)
    (hlt : k < 10 ^ 21) {n j : Nat} (hn : 0 < n) (hround : RoundsTo ((n : ℚ) * 10 ^ (j : Int)) m e) :
    j + (toString n).length ≤ 21 := by
  have hnat : n * 10 ^ j < 10 ^ 21 := by
    have h := lt_of_le_of_lt hround.2.1 (value_add_half_lt hc hk hlt)
    rw [zpow_natCast] at h
    exact_mod_cast h
  obtain ⟨hw, -, hw0⟩ := decimalWidth_bounds hn
  have hpow : 10 ^ (decimalWidth n - 1 + j) < 10 ^ 21 :=
    calc 10 ^ (decimalWidth n - 1 + j) = 10 ^ (decimalWidth n - 1) * 10 ^ j := Nat.pow_add _ _ _
      _ ≤ n * 10 ^ j := Nat.mul_le_mul_right _ hw
      _ < 10 ^ 21 := hnat
  have := (Nat.pow_lt_pow_iff_right (by norm_num)).1 hpow
  simp only [decimalWidth] at this hw0
  omega

/-- A whole number from `0` to below `10^21` is written in decimal digits only: positionally,
as its shortest digits and the zeros up to the point. -/
theorem render_whole {f : Double} {m : Nat} {e : Int} (hd : f.decode = .finite false m e) {k : Nat}
    (hk : (k : ℚ) = m * 2 ^ e) (hlt : k < 10 ^ 21) :
    (render f).toList ≠ [] ∧ ∀ c ∈ (render f).toList, c.isDigit = true := by
  obtain ⟨hc, -⟩ := decode_finite hd
  rcases Nat.eq_zero_or_pos m with rfl | hm
  · have h0 : render f = "0" := by simp [render, hd]
    rw [h0]
    exact ⟨by simp, by simp⟩
  · obtain ⟨n, t, hn, ht, hround, hshort⟩ := shortest_whole hc hm hk
    obtain ⟨j, rfl⟩ := Int.eq_ofNat_of_zero_le ht
    have hpoint := point_le_of_whole hc hk hlt hn hround
    have hrender : render f = toString n ++ String.ofList (List.replicate j '0') := by
      simp only [render, hd, if_neg hm.ne', hshort, Bool.false_eq_true, if_false, String.empty_append, layout,
        DecimalStyle.standard]
      rw [if_pos ⟨by omega, by omega⟩]
      congr
      omega
    rw [hrender, String.toList_append, String.toList_ofList, toList_toString]
    refine ⟨by simp [Nat.toDigits_ne_nil], fun c hc => ?_⟩
    rcases List.mem_append.1 hc with hc | hc
    · exact isDigit_of_mem_toDigits hc
    · rw [List.eq_of_mem_replicate hc]
      rfl


open Json.Reader in
/-- A text of a word made of digits only is read back as the word from its digits. -/
theorem ofDecimal_render {f : Double} (hx : f.isFinite = true) (hz : f ≠ negZero)
    (hd : ∀ c ∈ (render f).toList, c.isDigit = true) :
    ofDecimal false (Decimal.digitsValue (render f).toList) 0 = f := by
  obtain ⟨neg, l, htext, hval⟩ := render_literal hx hz
  -- a sign, a point or an exponent mark would be a character that is no digit
  have hneg : neg = false := by
    cases neg
    · rfl
    · exact absurd (hd '-' (by rw [htext]; simp)) (by decide)
  subst hneg
  have hfrac : l.fraction = [] := by
    by_contra h
    exact absurd (hd '.' (by simp [htext, Literal.text, Literal.fractionText, h])) (by decide)
  have hexp : l.exponent = none := by
    cases hex : l.exponent with
    | none => rfl
    | some x => exact absurd (hd 'e' (by simp [htext, Literal.text, Literal.exponentText, hex])) (by decide)
  have hwhole : (render f).toList = l.whole := by
    simp [htext, Literal.text, Literal.fractionText, Literal.exponentText, hfrac, hexp]
  rw [hwhole, ← hval]
  simp [Decimal.toDouble, Literal.decimal, Literal.exponentValue, hfrac, hexp]


end Double

/-! ## The form of a data id -/

/-- An id of the form `frame:<digits>:var:<name>`, with a name that is not empty and has no line
break, is read as the number of its digits and the name. -/
theorem parseDataId_frame {r n : String} (hr : r.toList ≠ []) (hdig : ∀ c ∈ r.toList, c.isDigit = true)
    (hn : n ≠ "") (hline : ∀ c ∈ n.toList, isLineBreak c = false) :
    parseDataId ("frame:" ++ r ++ ":var:" ++ n) =
      some (Double.ofDecimal false (Decimal.digitsValue r.toList) 0, n) := by
  have hlist : ("frame:" ++ r ++ ":var:" ++ n).toList =
      'f' :: 'r' :: 'a' :: 'm' :: 'e' :: ':' :: (r.toList ++ ':' :: 'v' :: 'a' :: 'r' :: ':' :: n.toList) := by
    simp
  have hcolon : Char.isDigit ':' = false := by decide
  have hname : n.toList.isEmpty = false := by simpa using hn
  have hbreaks : n.toList.any isLineBreak = false := by simpa using hline
  unfold parseDataId
  rw [hlist]
  have hdigits : r.toList.isEmpty = false := by simpa using hr
  simp only [List.takeWhile_append_of_pos hdig, List.dropWhile_append_of_pos hdig, List.takeWhile_cons,
    List.dropWhile_cons, hcolon, Bool.false_eq_true, ↓reduceIte, List.append_nil, hdigits, hname, hbreaks,
    Bool.or_false, String.ofList_toList]

namespace BreakpointBook

theorem dataTarget_none (name frameId : Option Json) :
    dataTarget name frameId none = .ok ⟨"frame:" ++ Json.textOf frameId ++ ":var:" ++ Json.textOf name,
      "Variable '" ++ Json.textOf name ++ "' in frame " ++ Json.textOf frameId, none, none⟩ := by
  simp only [dataTarget, bind, Except.bind, pure, Except.pure, findNamed]
  rfl

/-- Requesting one data breakpoint by a well-formed id sets one watch, under that id, with no hit
yet, and reports it verified. -/
theorem setData_single (b : BreakpointBook) {id : String} (hid : (Text.ofString id).toString = id)
    (hne : id ≠ "") (hparse : parseDataId id ≠ none) :
    b.setData (some (.arr [.obj [("dataId", .string id)]])) =
      (.ok [.ok], { b with dataWatches := ⟨[(id, ⟨id, .string "write", none, none, 0⟩)]⟩ }) := by
  have htruthy : Json.truthy (.str (Text.ofString id)) = true := by
    have hunits : (Text.ofString id).units ≠ [] := fun h => hne (by rw [← hid, Text.toString, h]; rfl)
    simpa [Json.string, Json.truthy, Text.isEmpty] using hunits
  simp [setData, Json.itemsFor, trackData, dataWatchOf, DataSpec.read, Json.property, Json.member?,
    Json.Fields.get?, keptIfTrue, Option.filter_some, htruthy, parseDataIdOf, Json.displayText, Json.string, hid, hparse, Table.set,
    Table.empty, Table.contains, bind, Except.bind, pure, Except.pure, Except.map]

end BreakpointBook

/-! ## Round trip -/

/-- Data breakpoint ids read back. For a frame id `f` that is a whole number below `10^21` with
its sign bit clear, and a name that is not empty and has no line break, the data target's id
reads back as `f` and the name; a request for that id alone sets one watch under it, with no
hit yet, and is reported verified; and a stop that names frame `f` and the variable, and no id,
names that watch, which then counts one hit. -/
theorem data_ids_round_trip {f : Double} {k : Nat} (hf : f.toNat? = some k) (hk : k < 10 ^ 21)
    (hsign : f.signBit = false) {n : Text} (hn : n.toString ≠ "")
    (hline : ∀ c ∈ n.toString.toList, isLineBreak c = false) (book : BreakpointBook) {m : Json}
    (hstop : Report.stringAt? m "dataId" = none ∧ Report.numberAt? m "frameId" = some f ∧
      Report.stringAt? m "name" = some n.toString) :
    ∃ id : String,
      BreakpointBook.dataTarget (some (.str n)) (some (.num f)) none =
        .ok ⟨id, "Variable '" ++ n.toString ++ "' in frame " ++ f.render, none, none⟩ ∧
      parseDataId id = some (f, n.toString) ∧
      book.setData (some (.arr [.obj [("dataId", .string id)]])) =
        (.ok [.ok], { book with dataWatches := ⟨[(id, ⟨id, .string "write", none, none, 0⟩)]⟩ }) ∧
      Session.dataIdOf m = some id ∧
      ((book.setData (some (.arr [.obj [("dataId", .string id)]]))).2.recordDataHit id).1 =
        some ⟨id, .string "write", none, none, 1⟩ := by
  obtain ⟨mant, e, hd, hval⟩ := Double.toNat?_value hf hsign
  obtain ⟨hne, hdig⟩ := Double.render_whole hd hval hk
  have hfin : f.isFinite = true := by simp [Double.isFinite, hd]
  have hz : f ≠ Double.negZero := fun h => absurd (h ▸ hsign) (by decide)
  have hparse : parseDataId ("frame:" ++ f.render ++ ":var:" ++ n.toString) = some (f, n.toString) := by
    rw [parseDataId_frame hne hdig hn hline, Double.ofDecimal_render hfin hz hdig]
  -- every character of the id stands for one unit, so its text reads back as the id
  have hread : (Text.ofString ("frame:" ++ f.render ++ ":var:" ++ n.toString)).toString =
      "frame:" ++ f.render ++ ":var:" ++ n.toString := by
    have hframe : Text.Carried "frame:" := Text.Narrow.carried (by decide)
    have hvar : Text.Carried ":var:" := Text.Narrow.carried (by decide)
    exact (((hframe.append (Double.render_narrow f).carried).append hvar).append
      (Text.carried_toString n)).toString_ofString
  have hset := BreakpointBook.setData_single book hread (by simp) (by rw [hparse]; simp)
  refine ⟨_, ?_, hparse, hset, ?_, ?_⟩
  · rw [BreakpointBook.dataTarget_none]
    rfl
  · simp only [Session.dataIdOf, hstop.1, hstop.2.1, hstop.2.2]
    rfl
  · rw [hset]
    simp [BreakpointBook.recordDataHit, Table.get?, KeyEq.same]

theorem frame_twelve_variable_round_trip :
    (Double.ofNat 12).toNat? = some 12 ∧ 12 < 10 ^ 21 ∧ (Double.ofNat 12).signBit = false ∧
    (Text.ofString "x").toString ≠ "" ∧ (∀ c ∈ (Text.ofString "x").toString.toList, isLineBreak c = false) ∧
    (Report.stringAt? (.obj [("frameId", .num (Double.ofNat 12)), ("name", .string "x")]) "dataId" = none ∧
      Report.numberAt? (.obj [("frameId", .num (Double.ofNat 12)), ("name", .string "x")]) "frameId" =
        some (Double.ofNat 12) ∧
      Report.stringAt? (.obj [("frameId", .num (Double.ofNat 12)), ("name", .string "x")]) "name" =
        some (Text.ofString "x").toString) ∧
    ∃ id : String,
      BreakpointBook.dataTarget (some (.str (Text.ofString "x"))) (some (.num (Double.ofNat 12))) none =
        .ok ⟨id, "Variable '" ++ (Text.ofString "x").toString ++ "' in frame " ++ (Double.ofNat 12).render,
          none, none⟩ ∧
      parseDataId id = some (Double.ofNat 12, (Text.ofString "x").toString) ∧
      (BreakpointBook.create none []).setData (some (.arr [.obj [("dataId", .string id)]])) =
        (.ok [.ok], { BreakpointBook.create none [] with
          dataWatches := ⟨[(id, ⟨id, .string "write", none, none, 0⟩)]⟩ }) ∧
      Session.dataIdOf (.obj [("frameId", .num (Double.ofNat 12)), ("name", .string "x")]) = some id ∧
      (((BreakpointBook.create none []).setData (some (.arr [.obj [("dataId", .string id)]]))).2.recordDataHit
        id).1 = some ⟨id, .string "write", none, none, 1⟩ :=
  have hstop : Report.stringAt? (.obj [("frameId", .num (Double.ofNat 12)), ("name", .string "x")]) "dataId" = none ∧
      Report.numberAt? (.obj [("frameId", .num (Double.ofNat 12)), ("name", .string "x")]) "frameId" =
        some (Double.ofNat 12) ∧
      Report.stringAt? (.obj [("frameId", .num (Double.ofNat 12)), ("name", .string "x")]) "name" =
        some (Text.ofString "x").toString := ⟨by decide, by decide, by decide +kernel⟩
  have hx : (Text.ofString "x").toString = "x" := by decide +kernel
  have hname : (Text.ofString "x").toString ≠ "" := by rw [hx]; decide
  have hline : ∀ c ∈ (Text.ofString "x").toString.toList, isLineBreak c = false := by
    rw [hx]
    simp [isLineBreak]
  ⟨by decide, by norm_num, by decide, hname, hline, hstop,
    @data_ids_round_trip _ 12 (by decide) (by norm_num) (by decide) _ hname hline _ _ hstop⟩

/-- The id of the empty name is refused by the form ids are read with, which asks for a name of
at least one character. -/
theorem empty_name_id_malformed :
    ∃ t, BreakpointBook.dataTarget (some (.str (Text.ofString ""))) (some (.num Double.zero)) none = .ok t ∧
      t.dataId = "frame:0:var:" ∧ parseDataId t.dataId = none :=
  ⟨_, BreakpointBook.dataTarget_none _ _, by decide +kernel, by decide +kernel⟩

end DapBridge
