import DapBridge.Proofs.Utf8
import DapBridge.Json.Write

/-!
# JSON text is well-formed Unicode

A `String` of this library carries code units, and one of them may be a lone surrogate. The
compact JSON text `Json.write` never holds one: a surrogate pair of a string value is kept
as it is, and a lone surrogate is written as a `\u` escape. So the text of every value stands
for scalar values (`Json.write_sound`), its UTF-8 reads back as the same text
(`Json.decode_encode_write`), and its UTF-8 length is that of those scalar values.

`Text.Sound s` says that `s` is `Text.ofChars` of some scalar values. It is closed under
concatenation, `String.join` and `String.intercalate`; a string of characters below U+10000
(`Text.Narrow`) is sound, each character being its own unit, and so is a surrogate pair.
Every piece `Json.write` puts together is one of these: the punctuation, the escapes (ASCII),
the shortest digits of a number (`Double.render_narrow`), and each piece of a quoted string
(`Json.quoteUnits_sound`).
-/

namespace DapBridge

namespace Text

/-- A string of this library that stands for scalar values: every surrogate in it is half
of a pair. -/
def Sound (s : String) : Prop := ∃ cs, Text.ofChars cs = s

/-- A string of characters below U+10000 only. -/
def Narrow (s : String) : Prop := ∀ c ∈ s.toList, c.toNat < 0x10000

theorem narrow_iff_all (s : String) : Narrow s ↔ (s.toList.all fun c => c.toNat < 0x10000) = true := by
  simp [Narrow]

-- decided through `List.all`, which evaluates a literal's characters without deep recursion
instance : DecidablePred Narrow := fun s => decidable_of_iff _ (narrow_iff_all s).symm

@[simp] theorem narrow_append {a b : String} : Narrow (a ++ b) ↔ Narrow a ∧ Narrow b := by
  simp only [Narrow, String.toList_append, List.mem_append, or_imp, forall_and]

@[simp] theorem narrow_ofList {cs : List Char} : Narrow (String.ofList cs) ↔ ∀ c ∈ cs, c.toNat < 0x10000 := by
  simp only [Narrow, String.toList_ofList]

@[simp] theorem narrow_singleton {c : Char} : Narrow (String.singleton c) ↔ c.toNat < 0x10000 := by
  simp [Narrow]

/-- A character below U+10000 is one unit, which stands for it. -/
theorem units_of_lt {c : Char} (hc : c.toNat < 0x10000) : (utf16 c).map charOfUnit = [c] := by
  have hv : c.toNat < 0xD800 ∨ (0xDFFF < c.toNat ∧ c.toNat < 0x110000) := c.valid
  have hu : (c.toNat.toUInt16).toNat = c.toNat := by rw [Nat.toUInt16_eq, UInt16.toNat_ofNat']; omega
  have hs : (isHigh c.toNat.toUInt16 || isLow c.toNat.toUInt16) = false := by
    simp only [isHigh, isLow, hu]; simp; omega
  rw [utf16, if_pos hc, List.map_singleton, charOfUnit, hs, if_neg (by simp), hu]
  exact congrArg (fun c => [c]) (Char.ofNat_toNat c)

theorem flatMap_units_of_lt {cs : List Char} (h : ∀ c ∈ cs, c.toNat < 0x10000) :
    (cs.flatMap fun c => (utf16 c).map charOfUnit) = cs := by
  induction cs with
  | nil => rfl
  | cons c cs ih =>
    rw [List.flatMap_cons, units_of_lt (h c List.mem_cons_self),
      ih fun d hd => h d (List.mem_cons_of_mem _ hd)]
    rfl

/-- Characters below U+10000 are their own units. -/
theorem ofChars_eq_ofList {cs : List Char} (h : ∀ c ∈ cs, c.toNat < 0x10000) : Text.ofChars cs = String.ofList cs := by
  rw [ofChars, flatMap_units_of_lt h]

theorem Narrow.sound {s : String} (h : Narrow s) : Sound s :=
  ⟨s.toList, by rw [ofChars_eq_ofList h, String.ofList_toList]⟩

theorem Sound.append {a b : String} (ha : Sound a) (hb : Sound b) : Sound (a ++ b) := by
  obtain ⟨as, rfl⟩ := ha
  obtain ⟨bs, rfl⟩ := hb
  exact ⟨as ++ bs, Utf8.ofChars_append as bs⟩

theorem sound_join {l : List String} (h : ∀ s ∈ l, Sound s) : Sound (String.join l) := by
  induction l with
  | nil => exact ⟨[], rfl⟩
  | cons s l ih =>
    rw [String.join_cons]
    exact (h s List.mem_cons_self).append (ih fun t ht => h t (List.mem_cons_of_mem _ ht))

theorem sound_intercalate {sep : String} (hsep : Sound sep) {l : List String} (h : ∀ s ∈ l, Sound s) :
    Sound (sep.intercalate l) := by
  induction l with
  | nil => exact ⟨[], rfl⟩
  | cons s l ih =>
    cases l with
    | nil => rw [String.intercalate_singleton]; exact h s List.mem_cons_self
    | cons t l =>
      rw [String.intercalate_cons_cons]
      exact ((h s List.mem_cons_self).append hsep).append (ih fun u hu => h u (List.mem_cons_of_mem _ hu))

/-- A high and a low surrogate side by side stand for the scalar value they encode. -/
theorem sound_pair {u v : UInt16} (hu : isHigh u = true) (hv : isLow v = true) :
    Sound (String.ofList [charOfUnit u, charOfUnit v]) := by
  simp only [isHigh, isLow, decide_eq_true_eq] at hu hv
  have hlt : pairCode u v < 0x110000 := by unfold pairCode; omega
  have hc : (Char.ofNat (pairCode u v)).toNat = pairCode u v :=
    toNat_charOfNat _ (by unfold pairCode; omega)
  refine ⟨[Char.ofNat (pairCode u v)], ?_⟩
  have h1 : (0xD800 + ((Char.ofNat (pairCode u v)).toNat - 0x10000) / 0x400).toUInt16 = u := by
    apply toUInt16_of_toNat
    rw [hc]; unfold pairCode; omega
  have h2 : (0xDC00 + ((Char.ofNat (pairCode u v)).toNat - 0x10000) % 0x400).toUInt16 = v := by
    apply toUInt16_of_toNat
    rw [hc]; unfold pairCode; omega
  rw [ofChars, List.flatMap_singleton, utf16, if_neg (by rw [hc]; unfold pairCode; omega)]
  simp only [h1, h2, List.map_cons, List.map_nil]

end Text

namespace Double

open Text

theorem toString_narrow (n : Nat) : Narrow (toString n) := by
  rw [Nat.toString_eq_ofList_toDigits, narrow_ofList]
  intro c hc
  have hdig := Nat.isDigit_of_mem_toDigits (by decide) (by decide) hc
  simp only [Char.isDigit, Bool.and_eq_true, decide_eq_true_eq, UInt32.le_iff_toNat_le] at hdig
  have : c.toNat ≤ 57 := hdig.2
  omega

theorem shortest_digits (m : Nat) (e : Int) : ∃ n : Nat, (shortest m e).1 = toString n := ⟨_, rfl⟩

/-- The leading digit of the exponent form, with the others after a point. -/
theorem mantissa_narrow {digits : String} (hd : Narrow digits) :
    Narrow (match digits.toList with
      | [d] => String.singleton d
      | d :: rest => String.singleton d ++ "." ++ String.ofList rest
      | [] => "0") := by
  split
  · next d h => exact narrow_singleton.2 (hd d (by rw [h]; exact List.mem_singleton_self d))
  · next d rest _ h =>
    simp only [narrow_append, narrow_singleton, narrow_ofList]
    exact ⟨⟨hd d (by rw [h]; exact List.mem_cons_self), by decide⟩,
      fun c hc => hd c (by rw [h]; exact List.mem_cons_of_mem _ hc)⟩
  · decide

/-- Digits laid out with a point, zeros and an exponent stay below U+10000. -/
theorem layout_narrow {digits : String} (hd : Narrow digits) (k : Int) :
    Narrow (layout DecimalStyle.standard digits k) := by
  unfold layout
  dsimp only
  by_cases h1 : (digits.length : Int) ≤ k ∧ k ≤ DecimalStyle.standard.maxPoint
  · rw [if_pos h1]
    simp [hd]
  rw [if_neg h1]
  by_cases h2 : 0 < k ∧ k ≤ DecimalStyle.standard.maxPoint
  · rw [if_pos h2]
    simp only [narrow_append, narrow_ofList]
    exact ⟨⟨fun c hc => hd c (List.mem_of_mem_take hc), by decide⟩, fun c hc => hd c (List.mem_of_mem_drop hc)⟩
  rw [if_neg h2]
  by_cases h3 : DecimalStyle.standard.minPoint ≤ k ∧ k ≤ 0
  · rw [if_pos h3]
    refine narrow_append.2 ⟨narrow_append.2 ⟨by decide, ?_⟩, hd⟩
    simp
  rw [if_neg h3]
  -- the exponent form
  refine narrow_append.2 ⟨narrow_append.2 ⟨narrow_append.2 ⟨mantissa_narrow hd, by decide⟩, ?_⟩,
    toString_narrow _⟩
  split <;> decide

theorem render_narrow (x : Double) : Narrow (render x) := by
  unfold render
  split
  · decide
  · split <;> decide
  · next neg m e _ =>
    split
    · decide
    · obtain ⟨n, hn⟩ := shortest_digits m e
      rcases hs : shortest m e with ⟨d, k⟩
      rw [hs] at hn
      simp only []
      refine narrow_append.2 ⟨by split <;> decide, layout_narrow ?_ k⟩
      rw [show d = toString n from hn]
      exact toString_narrow n

end Double

namespace Json

open Text

theorem hex4_narrow (n : Nat) : Narrow (hex4 n) := by
  -- every digit is taken from the table, or is its default `0`
  have htable : Narrow "0123456789abcdef" := by decide
  have hd : ∀ k, ("0123456789abcdef".toList.getD k '0').toNat < 0x10000 := by
    intro k
    rw [List.getD_eq_getElem?_getD]
    rcases h : "0123456789abcdef".toList[k]? with _ | c
    · decide
    · exact htable c (List.mem_of_getElem? h)
  unfold hex4
  rw [narrow_ofList]
  intro c hc
  simp only [List.mem_cons, List.not_mem_nil, or_false] at hc
  rcases hc with rfl | rfl | rfl | rfl <;> exact hd _

/-- The escape of a character below U+10000 has characters below U+10000 only. -/
theorem escapeChar_narrow {c : Char} (hc : c.toNat < 0x10000) : Narrow (escapeChar c) := by
  unfold escapeChar
  split
  case h_8 =>
    -- any other character: a \u escape below U+0020, or the character itself
    split
    · exact narrow_append.2 ⟨by decide, hex4_narrow _⟩
    · exact narrow_singleton.2 hc
  -- the seven two-character escapes
  all_goals decide

/-- The text of one code unit that is not half of a pair. -/
theorem unit_narrow (u : UInt16) :
    Narrow (if isHigh u || isLow u then "\\u" ++ hex4 u.toNat else escapeChar (Char.ofNat u.toNat)) := by
  split
  · exact narrow_append.2 ⟨by decide, hex4_narrow _⟩
  · next hs =>
    have hlt := u.toNat_lt
    have hr : u.toNat < 0xD800 ∨ 0xE000 ≤ u.toNat := by
      simp only [isHigh, isLow, Bool.or_eq_true, decide_eq_true_eq, not_or, not_and] at hs
      omega
    apply escapeChar_narrow
    rw [toNat_charOfNat _ (by omega)]
    exact hlt

theorem quoteUnits_sound (us : List UInt16) : ∀ s ∈ quoteUnits us, Sound s := by
  fun_induction quoteUnits us with
  | case1 => simp
  | case2 u =>
    intro s hs
    rw [List.mem_singleton] at hs
    subst hs
    exact (unit_narrow u).sound
  | case3 u v rest h ih =>
    -- a pair stays as it is
    intro s hs
    rcases List.mem_cons.1 hs with rfl | hs
    · obtain ⟨hu, hv⟩ := Bool.and_eq_true_iff.1 h
      exact sound_pair hu hv
    · exact ih s hs
  | case4 u v rest h ih =>
    intro s hs
    rcases List.mem_cons.1 hs with rfl | hs
    · exact (unit_narrow u).sound
    · exact ih s hs

theorem quote_sound (t : Text) : Sound (quote t) :=
  ((Narrow.sound (by decide)).append (sound_join (quoteUnits_sound t.units))).append (Narrow.sound (by decide))

/-- A number's text is ASCII: digits, point, sign and exponent, or a word. -/
theorem numberText_narrow (x : Double) : Narrow (numberText x) := by
  unfold numberText
  split
  · exact Double.render_narrow x
  · decide

mutual

/-- The compact text of every value stands for scalar values. -/
theorem write_sound : (j : Json) → Sound (write j)
  | .null => Narrow.sound (by decide)
  | .bool b => by cases b <;> exact Narrow.sound (by decide)
  | .num x => (numberText_narrow x).sound
  | .str t => quote_sound t
  | .arr xs => by
    rw [write]
    exact ((Narrow.sound (by decide)).append
      (sound_intercalate (Narrow.sound (by decide)) (writeList_sound xs))).append (Narrow.sound (by decide))
  | .obj fs => by
    rw [write]
    exact ((Narrow.sound (by decide)).append
      (sound_intercalate (Narrow.sound (by decide)) (writeFields_sound fs))).append (Narrow.sound (by decide))

theorem writeList_sound : (xs : List Json) → ∀ s ∈ write.writeList xs, Sound s
  | [] => by simp [write.writeList]
  | x :: xs => by
    intro s hs
    rw [write.writeList] at hs
    rcases List.mem_cons.1 hs with rfl | hs
    · exact write_sound x
    · exact writeList_sound xs s hs

theorem writeFields_sound : (fs : List (String × Json)) → ∀ s ∈ write.writeFields fs, Sound s
  | [] => by simp [write.writeFields]
  | (k, v) :: rest => by
    intro s hs
    rw [write.writeFields] at hs
    rcases List.mem_cons.1 hs with rfl | hs
    · exact ((quote_sound (Text.ofString k)).append (Narrow.sound (by decide))).append (write_sound v)
    · exact writeFields_sound rest s hs

end

end Json

/-- A sound string reads back from its UTF-8. -/
theorem Text.Sound.decode_encode {s : String} (h : Text.Sound s) : Utf8.decode (Utf8.encode s) = s := by
  obtain ⟨cs, rfl⟩ := h
  exact Utf8.decode_encode_ofChars cs

/-- The UTF-8 of a compact JSON text reads back as the same text. -/
theorem Json.decode_encode_write (j : Json) : Utf8.decode (Utf8.encode (Json.write j)) = Json.write j :=
  (Json.write_sound j).decode_encode

end DapBridge
