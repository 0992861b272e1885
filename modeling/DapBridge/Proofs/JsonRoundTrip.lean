import DapBridge.Proofs.NumberText
import DapBridge.Json.Write

/-!
# Compact text reads back as its value

`Json.write` gives the compact text of a value, and `Json.read` reads a text. Reading the
written text gives the value back for every value whose text is its alone
(`Json.Representable`): its numbers are finite and not `-0`, since a non-finite number is
written `null` and `-0` is written `0`; its object keys are strings of code units, as every
key read from a text is; and its objects list their members as reading builds them, one
member per key in property order.

* `stringBody_quoteUnits`: the escaped text of code units, closed by a quote, reads back as
  those units, whatever the units (lone surrogates included);
* `Reader.ReadsBack`: the value reader, started on the text of a value followed by a
  character that may close a value, reads that value and stops at that character;
* `Reader.value_write`: every representable value reads back, by induction on
  `Representable`, with `array_items` and `object_members` for the items and members;
* `read_write`: `Json.read (Json.write j) = .ok j`.
-/

namespace DapBridge

namespace Json

namespace Reader

/-! ## Strings -/

/-- The digits `hex4` takes its characters from. -/
theorem hexValue_hexDigit : ∀ k < 16, hexValue ("0123456789abcdef".toList.getD k '0') = some k := by
  have htable : "0123456789abcdef".toList =
      ['0', '1', '2', '3', '4', '5', '6', '7', '8', '9', 'a', 'b', 'c', 'd', 'e', 'f'] := by
    decide
  rw [htable]
  decide

/-- Four hex digits read back as the unit below `0x10000` they were written from. -/
theorem hexRun_hex4 {n : Nat} (hn : n < 0x10000) : hexRun (hex4 n).toList = .ok n.toUInt16 := by
  have hd : ∀ k, hexValue ("0123456789abcdef".toList.getD (n / Nat.pow 16 k % 16) '0') =
      some (n / Nat.pow 16 k % 16) := fun k => hexValue_hexDigit _ (Nat.mod_lt _ (by norm_num))
  simp only [hex4, String.toList_ofList, hexRun, List.take, List.map, hd]
  have h16 : Nat.pow 16 0 = 1 ∧ Nat.pow 16 1 = 16 ∧ Nat.pow 16 2 = 256 ∧ Nat.pow 16 3 = 4096 :=
    ⟨rfl, rfl, rfl, rfl⟩
  rw [h16.1, h16.2.1, h16.2.2.1, h16.2.2.2, Nat.div_one]
  congr 2
  omega

/-- A `\u` escape reads back as the unit its four digits give. -/
theorem stringBody_hex {n : Nat} (hn : n < 0x10000) (r : List Char) (pos : Nat) (acc : List UInt16) :
    stringBody (("\\u" ++ hex4 n).toList ++ r) pos acc = stringBody r (pos + 6) (n.toUInt16 :: acc) := by
  obtain ⟨a, b, c, d, h4⟩ : ∃ a b c d, (hex4 n).toList = [a, b, c, d] := ⟨_, _, _, _, String.toList_ofList⟩
  have hrun := hexRun_hex4 hn
  rw [h4] at hrun
  rw [String.toList_append, h4, show ("\\u" : String).toList = ['\\', 'u'] by decide]
  simp only [List.cons_append, List.nil_append]
  rw [stringBody.eq_4, hrun]

/-- A one-letter escape reads back as the unit it names. -/
theorem stringBody_escape {e : Char} {u : UInt16} (hu : escapeUnit e = some u) (r : List Char) (pos : Nat)
    (acc : List UInt16) : stringBody ('\\' :: e :: r) pos acc = stringBody r (pos + 2) (u :: acc) := by
  -- the escapes that name a unit are eight characters of the ASCII range, none of them `u`
  have hr : e = '"' ∨ e = '\\' ∨ e = '/' ∨ e = 'b' ∨ e = 'f' ∨ e = 'n' ∨ e = 'r' ∨ e = 't' := by
    unfold escapeUnit at hu
    split at hu <;> simp_all
  have he : e ≠ 'u' := by rcases hr with h | h | h | h | h | h | h | h <;> (subst h; decide)
  have h255 : ¬ e.toNat > 255 := by rcases hr with h | h | h | h | h | h | h | h <;> (subst h; decide)
  rw [stringBody.eq_6 _ _ _ _ (fun _ _ _ _ _ h => absurd h he) he, if_neg h255, hu]

/-- A character that needs no escape reads back as its own units. -/
theorem stringBody_plain {c : Char} (hq : c ≠ '"') (hb : c ≠ '\\') (hc : 0x20 ≤ c.toNat) (r : List Char)
    (pos : Nat) (acc : List UInt16) :
    stringBody (c :: r) pos acc = stringBody r (pos + width c) ((Text.unitsOfChar c).reverse ++ acc) := by
  rw [stringBody.eq_7 _ _ _ _ hq (fun h => absurd h hb) (fun _ _ _ _ _ h => absurd h hb)
    (fun _ h => absurd h hb) (fun _ _ h => absurd h hb), if_neg (by omega)]

/-- Two characters, a backslash and a letter that names a unit, read back as that unit. -/
theorem stringBody_escapeText {s : String} {e : Char} {u : UInt16} (hs : s.toList = ['\\', e])
    (hu : escapeUnit e = some u) (r : List Char) (pos : Nat) (acc : List UInt16) :
    stringBody (s.toList ++ r) pos acc = stringBody r (pos + 2) (u :: acc) := by
  rw [hs, List.cons_append, List.cons_append, List.nil_append, stringBody_escape hu]

/-- A character of the basic plane is one unit, its number. -/
theorem unitsOfChar_of_lt {c : Char} (hc : c.toNat < 0x10000) : Text.unitsOfChar c = [c.toNat.toUInt16] := by
  rw [Text.unitsOfChar, if_neg (by omega), Text.utf16, if_pos hc]

/-- The escaped text of a character of the basic plane reads back as its unit. -/
theorem stringBody_escapeChar {c : Char} (hc : c.toNat < 0x10000) (r : List Char) (pos : Nat)
    (acc : List UInt16) :
    ∃ pos', stringBody ((escapeChar c).toList ++ r) pos acc = stringBody r pos' (c.toNat.toUInt16 :: acc) := by
  unfold escapeChar
  split
  case h_1 => exact ⟨_, stringBody_escapeText (e := '"') (by decide) (by decide) r pos acc⟩
  case h_2 => exact ⟨_, stringBody_escapeText (e := '\\') (by decide) (by decide) r pos acc⟩
  case h_3 => exact ⟨_, stringBody_escapeText (e := 'n') (by decide) (by decide) r pos acc⟩
  case h_4 => exact ⟨_, stringBody_escapeText (e := 'r') (by decide) (by decide) r pos acc⟩
  case h_5 => exact ⟨_, stringBody_escapeText (e := 't') (by decide) (by decide) r pos acc⟩
  case h_6 => exact ⟨_, stringBody_escapeText (e := 'b') (by decide) (by decide) r pos acc⟩
  case h_7 => exact ⟨_, stringBody_escapeText (e := 'f') (by decide) (by decide) r pos acc⟩
  case h_8 hq hb _ _ _ _ _ =>
    -- a control character without a letter of its own is a `\u` escape, any other is itself
    split
    · exact ⟨_, stringBody_hex (by omega) r pos acc⟩
    · refine ⟨pos + width c, ?_⟩
      rw [String.toList_singleton, List.singleton_append,
        stringBody_plain (fun h => hq h) (fun h => hb h) (by omega), unitsOfChar_of_lt hc]
      rfl

/-- The text `quoteUnits` gives a unit that is not the first of a pair reads back as that unit. -/
theorem stringBody_unit (u : UInt16) (r : List Char) (pos : Nat) (acc : List UInt16) :
    ∃ pos', stringBody ((if Text.isHigh u || Text.isLow u then "\\u" ++ hex4 u.toNat
      else escapeChar (Char.ofNat u.toNat)).toList ++ r) pos acc = stringBody r pos' (u :: acc) := by
  have hlt := u.toNat_lt
  split
  · exact ⟨_, by rw [stringBody_hex hlt, Text.toUInt16_of_toNat rfl]⟩
  · next hs =>
    have hr : u.toNat < 0xD800 ∨ 0xE000 ≤ u.toNat := by
      simp only [Text.isHigh, Text.isLow, Bool.or_eq_true, decide_eq_true_eq, not_or, not_and] at hs
      omega
    have hc := Text.toNat_charOfNat u.toNat (by omega)
    obtain ⟨pos', h⟩ := stringBody_escapeChar (c := Char.ofNat u.toNat) (by omega) r pos acc
    rw [hc, Text.toUInt16_of_toNat rfl] at h
    exact ⟨pos', h⟩

/-- The character that stands for a surrogate reads back as that surrogate. -/
theorem stringBody_surrogate {u : UInt16} (hs : (Text.isHigh u || Text.isLow u) = true) (r : List Char)
    (pos : Nat) (acc : List UInt16) :
    ∃ pos', stringBody (Text.charOfUnit u :: r) pos acc = stringBody r pos' (u :: acc) := by
  have hr : 0xD800 ≤ u.toNat ∧ u.toNat < 0xE000 := by
    simp only [Text.isHigh, Text.isLow, Bool.or_eq_true, decide_eq_true_eq] at hs
    omega
  have hc : 0x10F800 ≤ (Text.charOfUnit u).toNat := by
    rw [Text.charOfUnit, if_pos hs, Text.toNat_charOfNat _ (by simp only [Text.keptOffset]; omega)]
    simp only [Text.keptOffset]
    omega
  have hq : Text.charOfUnit u ≠ '"' := fun h => absurd (h ▸ hc) (by decide)
  have hb : Text.charOfUnit u ≠ '\\' := fun h => absurd (h ▸ hc) (by decide)
  refine ⟨pos + width (Text.charOfUnit u), ?_⟩
  rw [stringBody_plain hq hb (by omega), Text.unitsOfChar_charOfUnit]
  rfl

/-- The escaped text of any code units, closed by a quote, reads back as those units. -/
theorem stringBody_quoteUnits : ∀ (us : List UInt16) (rest : List Char) (pos : Nat) (acc : List UInt16),
    ∃ pos', stringBody ((String.join (quoteUnits us)).toList ++ '"' :: rest) pos acc =
      .ok (⟨acc.reverse ++ us⟩, ⟨rest, pos'⟩)
  | [], rest, pos, acc => ⟨pos + 1, by simp [quoteUnits, stringBody]⟩
  | [u], rest, pos, acc => by
    obtain ⟨p, hp⟩ := stringBody_unit u ('"' :: rest) pos acc
    refine ⟨p + 1, ?_⟩
    rw [quoteUnits, String.join_cons, String.join_nil, String.append_empty, hp]
    simp [stringBody]
  | u :: v :: us, rest, pos, acc => by
    rw [quoteUnits]
    split
    · -- a pair is written as its two characters
      next hpair =>
      obtain ⟨hu, hv⟩ := Bool.and_eq_true_iff.1 hpair
      obtain ⟨p₁, h₁⟩ := stringBody_surrogate (by rw [hu, Bool.true_or]) _ pos acc
      obtain ⟨p₂, h₂⟩ := stringBody_surrogate (by rw [hv, Bool.or_true]) _ p₁ (u :: acc)
      obtain ⟨p₃, h₃⟩ := stringBody_quoteUnits us rest p₂ (v :: u :: acc)
      refine ⟨p₃, ?_⟩
      rw [String.join_cons, String.toList_append, String.toList_ofList, List.append_assoc,
        List.cons_append, List.cons_append, List.nil_append, h₁, h₂, h₃]
      simp
    · obtain ⟨p₁, h₁⟩ := stringBody_unit u _ pos acc
      obtain ⟨p₂, h₂⟩ := stringBody_quoteUnits (v :: us) rest p₁ (u :: acc)
      refine ⟨p₂, ?_⟩
      rw [String.join_cons, String.toList_append, List.append_assoc, h₁, h₂]
      simp

/-- A sign or a digit, which starts a number, is no blank. -/
theorem isBlank_of_numberStart {c : Char} (hc : c = '-' ∨ c.isDigit = true) : isBlank c = false := by
  rcases hc with rfl | hd
  · decide
  · unfold isBlank
    rw [decide_eq_false_iff_not]
    rintro (rfl | rfl | rfl | rfl) <;> exact absurd hd (by decide)

end Reader

/-! ## Values -/

/-- The values whose compact text is theirs alone: numbers finite and not `-0`, object keys
strings of code units, and object members one per key in property order. -/
inductive Representable : Json → Prop
  | null : Representable .null
  | bool (b : Bool) : Representable (.bool b)
  | num {x : Double} : x.isFinite = true → x ≠ Double.negZero → Representable (.num x)
  | str (t : Text) : Representable (.str t)
  | arr {xs : List Json} : (∀ x ∈ xs, Representable x) → Representable (.arr xs)
  | obj {fs : Fields} : Fields.ofList fs = fs → (∀ kv ∈ fs, (Text.ofString kv.1).toString = kv.1) →
      (∀ kv ∈ fs, Representable kv.2) → Representable (.obj fs)

theorem write_writeList (xs : List Json) : write.writeList xs = xs.map write := by
  induction xs with
  | nil => rfl
  | cons x xs ih => rw [write.writeList, ih, List.map_cons]

theorem quote_toList (t : Text) :
    (quote t).toList = '"' :: ((String.join (quoteUnits t.units)).toList ++ ['"']) := by
  simp [quote]

/-- The text of a representable value starts with a character that is no blank and does not
close an array. -/
theorem write_head {j : Json} (hj : Representable j) :
    ∃ c r, (write j).toList = c :: r ∧ Reader.isBlank c = false ∧ c ≠ ']' := by
  cases hj with
  | null => exact ⟨'n', ['u', 'l', 'l'], by decide, by decide, by decide⟩
  | bool b =>
    cases b
    · exact ⟨'f', ['a', 'l', 's', 'e'], by decide, by decide, by decide⟩
    · exact ⟨'t', ['r', 'u', 'e'], by decide, by decide, by decide⟩
  | num hx hz =>
    obtain ⟨c, r, hcr, hc⟩ := Double.render_head hx hz
    refine ⟨c, r, by rw [write, numberText, if_pos hx, hcr], Reader.isBlank_of_numberStart hc, ?_⟩
    rcases hc with rfl | hd
    · decide
    · rintro rfl
      exact absurd hd (by decide)
  | str t => exact ⟨_, _, by rw [write, quote_toList], by decide, by decide⟩
  | arr _ => exact ⟨_, _, by rw [write, String.toList_append, String.toList_append]; rfl, by decide, by decide⟩
  | obj _ _ _ => exact ⟨_, _, by rw [write, String.toList_append, String.toList_append]; rfl, by decide, by decide⟩

namespace Reader

/-- What may follow a value in compact text: nothing, a comma, or a closing bracket or brace. -/
def ValueEnd (rest : List Char) : Prop := ∀ c ∈ rest.head?, c = ',' ∨ c = ']' ∨ c = '}'

theorem ValueEnd.numberEnd {rest : List Char} (h : ValueEnd rest) : NumberEnd rest := by
  intro c hc
  rcases h c hc with rfl | rfl | rfl <;> decide

theorem skipBlank_cons {c : Char} (hc : isBlank c = false) (r : List Char) (pos : Nat) :
    skipBlank ⟨c :: r, pos⟩ = ⟨c :: r, pos⟩ := by
  simp only [skipBlank, List.takeWhile_cons, hc]
  rfl

/-- The value reader, given fuel at least the length of the text, reads `j` off its compact
text followed by anything that may close a value, and stops right after it. -/
def ReadsBack (j : Json) : Prop :=
  ∀ (fuel : Nat) (rest : List Char) (pos : Nat), (write j).length ≤ fuel → ValueEnd rest →
    ∃ pos', value fuel ⟨(write j).toList ++ rest, pos⟩ = .ok (j, ⟨rest, pos'⟩)

theorem word_append (w : List Char) (v : Json) (rest : List Char) (pos : Nat) :
    word w v ⟨w ++ rest, pos⟩ = .ok (v, ⟨rest, pos + w.length⟩) := by
  have hp : w.isPrefixOf (w ++ rest) = true := List.isPrefixOf_iff_prefix.2 (List.prefix_append w rest)
  simp only [word, hp, if_true, List.drop_left]

/-- A literal word, which the reader picks by its first letter, reads back. -/
theorem readsBack_word {j : Json} {c : Char} {r : List Char} (hw : (write j).toList = c :: r)
    (hpick : ∀ f rest pos, value (f + 1) ⟨c :: (r ++ rest), pos⟩ = word (c :: r) j ⟨c :: (r ++ rest), pos⟩) :
    ReadsBack j := by
  rintro (_ | f) rest pos hf -
  · rw [← String.length_toList, hw] at hf
    simp at hf
  · refine ⟨pos + (c :: r).length, ?_⟩
    rw [hw, List.cons_append, hpick, ← List.cons_append, word_append]

/-- A sign or a digit starts a number. -/
theorem value_number {c : Char} (hc : c = '-' ∨ c.isDigit = true) (r : List Char) (f pos : Nat) :
    value (f + 1) ⟨c :: r, pos⟩ = number ⟨c :: r, pos⟩ := by
  rw [value.eq_2, skipBlank_cons (isBlank_of_numberStart hc)]
  simp only [Cursor.peek, List.head?_cons]
  split
  case h_7 heq => cases heq; rw [if_pos hc]
  case h_8 heq => cases heq
  -- the six characters that open another kind of value are neither a sign nor a digit
  all_goals
    next heq =>
    cases heq
    exact absurd hc (by decide)

theorem readsBack_num {x : Double} (hx : x.isFinite = true) (hz : x ≠ Double.negZero) :
    ReadsBack (.num x) := by
  obtain ⟨c, r, hcr, hc⟩ := Double.render_head hx hz
  have hw : (write (.num x)).toList = x.render.toList := by rw [write, numberText, if_pos hx]
  rintro (_ | f) rest pos hf hrest
  · rw [← String.length_toList, hw, hcr] at hf
    simp at hf
  · rw [hw, hcr, List.cons_append, value_number hc, ← List.cons_append, ← hcr]
    exact Double.number_render hx hz hrest.numberEnd pos

theorem readsBack_str (t : Text) : ReadsBack (.str t) := by
  rintro (_ | f) rest pos hf -
  · rw [← String.length_toList, write, quote_toList] at hf
    simp at hf
  · obtain ⟨p, hp⟩ := stringBody_quoteUnits t.units rest (pos + 1) []
    refine ⟨p, ?_⟩
    rw [write, quote_toList, List.cons_append, List.append_assoc, List.singleton_append, value.eq_2,
      skipBlank_cons (by decide)]
    show Except.map _ (stringBody ((String.join (quoteUnits t.units)).toList ++ '"' :: rest) (pos + 1) []) = _
    rw [hp]
    rfl

/-- The items of a non-empty array, then its closing bracket, read back: the reader takes an
item, and goes on past a comma or stops past the bracket. -/
theorem array_items {xs : List Json} (ih : ∀ x ∈ xs, ReadsBack x) (hne : xs ≠ []) :
    ∀ (fuel : Nat) (acc : List Json) (rest : List Char) (pos : Nat),
      (",".intercalate (xs.map write)).length < fuel →
      ∃ pos', array fuel ⟨(",".intercalate (xs.map write)).toList ++ ']' :: rest, pos⟩ acc =
        .ok (.arr (acc.reverse ++ xs), ⟨rest, pos'⟩) := by
  induction xs with
  | nil => exact absurd rfl hne
  | cons x xs ihxs =>
    rintro (_ | g) acc rest pos hlen
    · omega
    · cases xs with
      | nil =>
        rw [List.map_cons, List.map_nil, String.intercalate_singleton] at hlen ⊢
        obtain ⟨p, hp⟩ := ih x List.mem_cons_self g (']' :: rest) pos (by omega) (by simp [ValueEnd])
        refine ⟨p + 1, ?_⟩
        rw [array.eq_2, hp]
        simp [skipBlank_cons (by decide : isBlank ']' = false), Cursor.peek, Cursor.next, width]
      | cons y ys =>
        rw [List.map_cons, List.map_cons, String.intercalate_cons_cons] at hlen ⊢
        rw [← List.map_cons] at hlen ⊢
        simp only [String.length_append] at hlen
        have hcomma : (",".length) = 1 := rfl
        obtain ⟨p, hp⟩ := ih x List.mem_cons_self g _ pos (by omega)
          (by simp [ValueEnd] : ValueEnd (',' :: ((",".intercalate ((y :: ys).map write)).toList ++ ']' :: rest)))
        obtain ⟨p', hp'⟩ := ihxs (fun z hz => ih z (List.mem_cons_of_mem x hz)) (List.cons_ne_nil y ys)
          g (x :: acc) rest (p + 1) (by omega)
        refine ⟨p', ?_⟩
        rw [String.toList_append, String.toList_append, show (",").toList = [','] by decide,
          List.append_assoc, List.append_assoc, List.singleton_append, array.eq_2, hp]
        simp only [skipBlank_cons (by decide : isBlank ',' = false), Cursor.peek, Cursor.next,
          List.head?_cons, show width ',' = 1 from rfl]
        rw [hp']
        simp

/-- The text of the items starts with the text of the first. -/
theorem intercalate_cons_toList (s : String) (l : List String) :
    ∃ r, (",".intercalate (s :: l)).toList = s.toList ++ r := by
  cases l with
  | nil => exact ⟨[], by rw [String.intercalate_singleton, List.append_nil]⟩
  | cons t l => exact ⟨_, by rw [String.intercalate_cons_cons, String.toList_append, String.toList_append,
      List.append_assoc]⟩

theorem readsBack_arr {xs : List Json} (hxs : ∀ x ∈ xs, Representable x) (ih : ∀ x ∈ xs, ReadsBack x) :
    ReadsBack (.arr xs) := by
  have hw : (write (.arr xs)).toList = '[' :: ((",".intercalate (xs.map write)).toList ++ [']']) := by
    rw [write, write_writeList, String.toList_append, String.toList_append]
    rfl
  rintro (_ | f) rest pos hf -
  · rw [← String.length_toList, hw] at hf
    simp at hf
  · rw [hw, List.cons_append, List.append_assoc, List.singleton_append, value.eq_2, skipBlank_cons (by decide)]
    show ∃ pos', (let inner := skipBlank ⟨_, pos + width '['⟩
      if inner.peek = some ']' then .ok (.arr [], inner.next) else array f inner []) = _
    rw [show width '[' = 1 from rfl]
    cases xs with
    | nil =>
      refine ⟨pos + 1 + 1, ?_⟩
      rw [List.map_nil, String.intercalate_nil]
      rfl
    | cons x xs =>
      -- the first item's text starts with no blank and no bracket
      obtain ⟨c, r, hcr, hb, hc⟩ := write_head (hxs x List.mem_cons_self)
      obtain ⟨r', hr'⟩ := intercalate_cons_toList (write x) (xs.map write)
      have hlen : (",".intercalate ((x :: xs).map write)).length < f := by
        rw [← String.length_toList, hw] at hf
        rw [← String.length_toList]
        simp only [List.length_cons, List.length_append] at hf
        omega
      obtain ⟨p, hp⟩ := array_items ih (List.cons_ne_nil x xs) f [] rest (pos + 1) hlen
      refine ⟨p, ?_⟩
      rw [List.map_cons, hr', hcr, List.cons_append, List.cons_append, skipBlank_cons hb]
      rw [List.map_cons, hr', hcr, List.cons_append] at hp
      simp only [Cursor.peek, List.head?_cons, Option.some.injEq, hc, if_false]
      exact hp

@[simp] theorem Cursor.peek_cons (c : Char) (r : List Char) (pos : Nat) :
    (⟨c :: r, pos⟩ : Cursor).peek = some c := rfl

@[simp] theorem Cursor.next_cons (c : Char) (r : List Char) (pos : Nat) :
    (⟨c :: r, pos⟩ : Cursor).next = ⟨r, pos + width c⟩ := rfl

theorem member_toList (k : String) (v : Json) :
    (quoteString k ++ ":" ++ write v).toList =
      '"' :: ((String.join (quoteUnits (Text.ofString k).units)).toList ++ '"' :: ':' :: (write v).toList) := by
  rw [String.toList_append, String.toList_append, quoteString, quote_toList]
  simp

/-- A quoted key reads back as its text. -/
theorem stringBody_key (k : String) (rest : List Char) (pos : Nat) :
    ∃ p, stringBody ((String.join (quoteUnits (Text.ofString k).units)).toList ++ '"' :: rest) pos [] =
      .ok (Text.ofString k, ⟨rest, p⟩) := by
  obtain ⟨p, hp⟩ := stringBody_quoteUnits (Text.ofString k).units rest pos []
  exact ⟨p, hp⟩

/-- The last member of an object, then its closing brace, read back. -/
theorem object_member_last {k : String} {v : Json} (hk : (Text.ofString k).toString = k) (hv : ReadsBack v)
    {g : Nat} (hg : (write v).length ≤ g) (rest : List Char) (pos : Nat) (acc : Fields) :
    ∃ p, object (g + 1) ⟨(quoteString k ++ ":" ++ write v).toList ++ '}' :: rest, pos⟩ acc =
      .ok (.obj (acc.set k v), ⟨rest, p⟩) := by
  obtain ⟨p₁, h₁⟩ := stringBody_key k (':' :: ((write v).toList ++ '}' :: rest)) (pos + width '"')
  obtain ⟨p₂, h₂⟩ := hv g ('}' :: rest) (p₁ + width ':') hg (by simp [ValueEnd])
  refine ⟨p₂ + width '}', ?_⟩
  rw [member_toList, List.cons_append, List.append_assoc, List.cons_append, List.cons_append,
    object.eq_3 _ _ _ rfl]
  simp only [Cursor.next_cons, h₁, skipBlank_cons (by decide : isBlank ':' = false), Cursor.peek_cons]
  rw [if_pos trivial, h₂]
  simp only [skipBlank_cons (by decide : isBlank '}' = false), Cursor.peek_cons, Cursor.next_cons, hk]

/-- A member followed by a comma and the next key reads back; the reader goes on with the next
member. -/
theorem object_member_next {k : String} {v : Json} (hk : (Text.ofString k).toString = k) (hv : ReadsBack v)
    {g : Nat} (hg : (write v).length ≤ g) (more : List Char) (pos : Nat) (acc : Fields) :
    ∃ p, object (g + 1) ⟨(quoteString k ++ ":" ++ write v).toList ++ ',' :: '"' :: more, pos⟩ acc =
      object g ⟨'"' :: more, p⟩ (acc.set k v) := by
  obtain ⟨p₁, h₁⟩ := stringBody_key k (':' :: ((write v).toList ++ ',' :: '"' :: more)) (pos + width '"')
  obtain ⟨p₂, h₂⟩ := hv g (',' :: '"' :: more) (p₁ + width ':') hg (by simp [ValueEnd])
  refine ⟨p₂ + width ',', ?_⟩
  rw [member_toList, List.cons_append, List.append_assoc, List.cons_append, List.cons_append,
    object.eq_3 _ _ _ rfl]
  simp only [Cursor.next_cons, h₁, skipBlank_cons (by decide : isBlank ':' = false), Cursor.peek_cons]
  rw [if_pos trivial, h₂]
  simp only [skipBlank_cons (by decide : isBlank ',' = false), skipBlank_cons (by decide : isBlank '"' = false),
    Cursor.peek_cons, Cursor.next_cons, hk]
  exact if_pos trivial

/-- The members of a non-empty object, then its closing brace, read back: each member is set in
turn on the fields read so far. -/
theorem object_members {fs : Fields} (hkeys : ∀ kv ∈ fs, (Text.ofString kv.1).toString = kv.1)
    (ih : ∀ kv ∈ fs, ReadsBack kv.2) (hne : fs ≠ []) :
    ∀ (fuel : Nat) (acc : Fields) (rest : List Char) (pos : Nat),
      (",".intercalate (write.writeFields fs)).length < fuel →
      ∃ pos', object fuel ⟨(",".intercalate (write.writeFields fs)).toList ++ '}' :: rest, pos⟩ acc =
        .ok (.obj (fs.foldl (fun (acc : Fields) kv => acc.set kv.1 kv.2) acc), ⟨rest, pos'⟩) := by
  induction fs with
  | nil => exact absurd rfl hne
  | cons kv fs ihfs =>
    obtain ⟨k, v⟩ := kv
    rintro (_ | g) acc rest pos hlen
    · omega
    · rw [write.writeFields] at hlen ⊢
      cases fs with
      | nil =>
        rw [write.writeFields, String.intercalate_singleton] at hlen ⊢
        have hv : (write v).length ≤ g := by
          simp only [String.length_append] at hlen
          omega
        exact object_member_last (hkeys _ List.mem_cons_self) (ih _ List.mem_cons_self) hv rest pos acc
      | cons kv' fs =>
        obtain ⟨k', v'⟩ := kv'
        have hne' : write.writeFields ((k', v') :: fs) ≠ [] := by rw [write.writeFields]; exact List.cons_ne_nil _ _
        rw [String.intercalate_cons_of_ne_nil hne'] at hlen ⊢
        obtain ⟨more, hmore⟩ : ∃ more, (",".intercalate (write.writeFields ((k', v') :: fs))).toList = '"' :: more := by
          obtain ⟨r, hr⟩ := intercalate_cons_toList (quoteString k' ++ ":" ++ write v') (write.writeFields fs)
          rw [write.writeFields, hr, member_toList, List.cons_append]
          exact ⟨_, rfl⟩
        simp only [String.length_append] at hlen
        have hcomma : (",").length = 1 := rfl
        have hv : (write v).length ≤ g := by omega
        obtain ⟨p, hp⟩ := object_member_next (hkeys _ List.mem_cons_self) (ih _ List.mem_cons_self) hv
          (more ++ '}' :: rest) pos acc
        obtain ⟨p', hp'⟩ := ihfs (fun kv hkv => hkeys kv (List.mem_cons_of_mem _ hkv))
          (fun kv hkv => ih kv (List.mem_cons_of_mem _ hkv)) (List.cons_ne_nil _ _) g (acc.set k v) rest p
          (by omega)
        refine ⟨p', ?_⟩
        rw [String.toList_append, String.toList_append, show (",").toList = [','] by decide, hmore,
          List.append_assoc, List.append_assoc, List.singleton_append, List.cons_append, hp]
        rw [hmore, List.cons_append] at hp'
        rw [hp']
        rfl

theorem readsBack_obj {fs : Fields} (hset : Fields.ofList fs = fs)
    (hkeys : ∀ kv ∈ fs, (Text.ofString kv.1).toString = kv.1) (ih : ∀ kv ∈ fs, ReadsBack kv.2) :
    ReadsBack (.obj fs) := by
  have hw : (write (.obj fs)).toList = '{' :: ((",".intercalate (write.writeFields fs)).toList ++ ['}']) := by
    rw [write, String.toList_append, String.toList_append]
    rfl
  rintro (_ | f) rest pos hf -
  · rw [← String.length_toList, hw] at hf
    simp at hf
  · rw [← String.length_toList, hw] at hf
    simp only [List.length_cons, List.length_append] at hf
    rw [hw, List.cons_append, List.append_assoc, List.singleton_append, value.eq_2, skipBlank_cons (by decide)]
    show ∃ pos', object f (skipBlank ⟨_, pos + width '{'⟩) [] = _
    rw [show width '{' = 1 from rfl]
    cases fs with
    | nil =>
      -- `{}` needs one more step of fuel for the brace
      obtain ⟨g, rfl⟩ : ∃ g, f = g + 1 := ⟨f - 1, by simp at hf; omega⟩
      refine ⟨pos + 1 + 1, ?_⟩
      rw [write.writeFields, String.intercalate_nil]
      exact object.eq_2 _ _ rfl
    | cons kv fs =>
      obtain ⟨k, v⟩ := kv
      obtain ⟨r, hr⟩ := intercalate_cons_toList (quoteString k ++ ":" ++ write v) (write.writeFields fs)
      have hhead : (",".intercalate (write.writeFields ((k, v) :: fs))).toList ++ '}' :: rest =
          '"' :: ((String.join (quoteUnits (Text.ofString k).units)).toList ++ '"' :: ':' ::
            ((write v).toList ++ r ++ '}' :: rest)) := by
        rw [write.writeFields, hr, member_toList]
        simp
      obtain ⟨p, hp⟩ := object_members hkeys ih (List.cons_ne_nil _ _) f [] rest (pos + 1)
        (by rw [← String.length_toList]; omega)
      -- the members in order are what setting them one by one builds
      have hfold : List.foldl (fun (acc : Fields) kv => acc.set kv.1 kv.2) [] ((k, v) :: fs) = (k, v) :: fs :=
        hset
      refine ⟨p, ?_⟩
      rw [hhead, skipBlank_cons (by decide), ← hhead, hp, hfold]

/-- Every representable value reads back from its compact text. -/
theorem value_write {j : Json} (hj : Representable j) : ReadsBack j := by
  induction hj with
  | null =>
    exact readsBack_word (c := 'n') (r := ['u', 'l', 'l']) (by decide) fun f rest pos => by
      rw [value.eq_2, skipBlank_cons (by decide)]
      rfl
  | bool b =>
    cases b
    · exact readsBack_word (c := 'f') (r := ['a', 'l', 's', 'e']) (by decide) fun f rest pos => by
        rw [value.eq_2, skipBlank_cons (by decide)]
        rfl
    · exact readsBack_word (c := 't') (r := ['r', 'u', 'e']) (by decide) fun f rest pos => by
        rw [value.eq_2, skipBlank_cons (by decide)]
        rfl
  | num hx hz => exact readsBack_num hx hz
  | str t => exact readsBack_str t
  | arr hxs ih => exact readsBack_arr hxs ih
  | obj hset hkeys _ ih => exact readsBack_obj hset hkeys ih

end Reader

/-- Reading the compact text of a representable value gives the value back. -/
theorem read_write {j : Json} (hj : Representable j) : read (write j) = .ok j := by
  obtain ⟨p, hp⟩ := Reader.value_write hj ((write j).toList.length + 1) [] 0
    (by rw [String.length_toList]; omega) (by simp [Reader.ValueEnd])
  rw [List.append_nil] at hp
  simp only [read, readText, hp]
  rfl

end Json

end DapBridge
