import DapBridge.Text.Utf8

/-!
# UTF-8 of scalar values, whole and in chunks

A `Char` is a Unicode scalar value, so a list of them is a well-formed Unicode text, and its
UTF-8 (`Utf8.encodeChars`) is a valid UTF-8 byte string; every valid one is of this form. A
text reaches the rest of the library as `Text.ofChars`, one character per code unit.

* `Utf8.decode_encodeChars`, `Utf8.encode_ofChars`: the decoder reads the UTF-8 of scalar values
  back, and a text of scalar values is written as their UTF-8; so `decode ∘ encode` keeps every
  such text (`Utf8.decode_encode_ofChars`).
* `exists_cut_of_prefix`: a beginning of a concatenation is some whole pieces and then a proper
  beginning of the next piece. Applied to the UTF-8 of a text: whole characters, then the bytes
  of one character cut short.
* `Utf8.Stream.Reads`, `Utf8.Stream.reads_push`: fed any beginning of a valid byte string in
  chunks, the chunked decoder has given out exactly the whole characters received and holds
  the bytes of the one a chunk boundary cut, with the number still missing. Once every byte is
  in, every character is whole and nothing is held (`Utf8.Stream.Reads.whole`).
-/

namespace DapBridge

section Pieces

variable {α : Type}

/-- Where a beginning `p` of a concatenation stops: after the first `k` pieces, inside the next
one, of which it holds `q`, a proper beginning (nothing once every piece is whole). -/
theorem exists_cut_of_prefix {xs : List (List α)} {p : List α} (h : p <+: xs.flatten) :
    ∃ k q, p = (xs.take k).flatten ++ q ∧ q <+: (xs.drop k).flatten ∧
      q.length < (xs[k]?.map List.length).getD 1 := by
  induction xs generalizing p with
  | nil =>
    obtain rfl : p = [] := List.prefix_nil.1 h
    exact ⟨0, [], rfl, List.nil_prefix, by simp⟩
  | cons x xs ih =>
    by_cases hp : p.length < x.length
    · exact ⟨0, p, by simp, h, by simpa using hp⟩
    · -- the first piece is whole in `p`; cut what follows it
      obtain ⟨t, ht⟩ := h
      rw [List.flatten_cons] at ht
      obtain ⟨p', rfl, hr⟩ : ∃ p', p = x ++ p' ∧ p' <+: xs.flatten := by
        rcases List.append_eq_append_iff.1 ht with ⟨a', hx, -⟩ | ⟨c', hp', hr⟩
        · have : a' = [] := by
            rw [hx, List.length_append] at hp
            exact List.eq_nil_of_length_eq_zero (by omega)
          subst this
          exact ⟨[], by simpa using hx.symm, List.nil_prefix⟩
        · exact ⟨c', hp', t, hr.symm⟩
      obtain ⟨k, q, rfl, hq, hl⟩ := ih hr
      exact ⟨k + 1, q, by simp, by simpa using hq, by simpa using hl⟩

theorem takeWhile_of_forall {l : List α} {p : α → Bool} (h : ∀ a ∈ l, p a = true) : l.takeWhile p = l := by
  simpa using @List.takeWhile_append_of_pos _ p l [] h

end Pieces

namespace Utf8

/-- The UTF-8 bytes of scalar values. -/
def encodeChars (cs : List Char) : List UInt8 := cs.flatMap fun c => encodePoint c.toNat

/-- The UTF-8 of each scalar value on its own. -/
def pieces (cs : List Char) : List (List UInt8) := cs.map fun c => encodePoint c.toNat

@[simp] theorem encodeChars_nil : encodeChars [] = [] := rfl

@[simp] theorem encodeChars_append (as bs : List Char) :
    encodeChars (as ++ bs) = encodeChars as ++ encodeChars bs := List.flatMap_append

theorem encodeChars_cons (c : Char) (cs : List Char) :
    encodeChars (c :: cs) = encodePoint c.toNat ++ encodeChars cs := rfl

theorem flatten_pieces (cs : List Char) : (pieces cs).flatten = encodeChars cs := by
  simp [pieces, encodeChars, List.flatMap_def]

theorem take_pieces (cs : List Char) (k : Nat) : (pieces cs).take k = pieces (cs.take k) := by
  simp [pieces, List.map_take]

theorem drop_pieces (cs : List Char) (k : Nat) : (pieces cs).drop k = pieces (cs.drop k) := by
  simp [pieces, List.map_drop]

/-- The number of bytes of the `k`-th character, or 1 past the end. -/
def widthAt (cs : List Char) (k : Nat) : Nat := (cs[k]?.map fun c => (encodePoint c.toNat).length).getD 1

theorem widthAt_eq (cs : List Char) (k : Nat) : ((pieces cs)[k]?.map List.length).getD 1 = widthAt cs k := by
  simp [pieces, widthAt, Option.map_map, Function.comp_def]

/-! ## One scalar value -/

theorem toNat_toUInt8 {x : Nat} (h : x < 256) : x.toUInt8.toNat = x := by simp; omega

theorem isContinuation_iff (b : UInt8) : isContinuation b = true ↔ 0x80 ≤ b.toNat ∧ b.toNat < 0xC0 := by
  simp only [isContinuation, decide_eq_true_eq]; omega

/-- A scalar value is written as a lead byte and the continuation bytes it announces: none for
ASCII, else one to three. -/
theorem encodePoint_shape (c : Char) : ∃ b t, encodePoint c.toNat = b :: t ∧ isContinuation b = false ∧
    (∀ x ∈ t, isContinuation x = true) ∧ t.length ≤ 3 ∧ (t = [] → b.toNat < 0x80) ∧
    (t ≠ [] → 0xC0 ≤ b.toNat ∧ announcedLength b = some (t.length + 1)) := by
  have hv : c.toNat < 0xD800 ∨ (0xDFFF < c.toNat ∧ c.toNat < 0x110000) := c.valid
  generalize c.toNat = n at hv
  have cont : ∀ m, m < 64 → isContinuation (0x80 + m).toUInt8 = true := fun m hm => by
    rw [isContinuation_iff, toNat_toUInt8 (by omega)]; omega
  by_cases h1 : n < 0x80
  · refine ⟨_, [], by rw [encodePoint, if_pos h1], ?_, by simp, by simp, fun _ => ?_, by simp⟩
    · simp only [isContinuation, toNat_toUInt8 (show n < 256 by omega)]; simp; omega
    · rw [toNat_toUInt8 (by omega)]; exact h1
  by_cases h2 : n < 0x800
  · have hb : (0xC0 + n / 64).toUInt8.toNat = 0xC0 + n / 64 := toNat_toUInt8 (by omega)
    refine ⟨_, _, by rw [encodePoint, if_neg h1, if_pos h2], ?_, ?_, by simp, by simp, fun _ => ⟨?_, ?_⟩⟩
    · simp only [isContinuation, hb]; simp; omega
    · simpa using cont _ (Nat.mod_lt _ (by decide))
    · rw [hb]; omega
    · simp only [announcedLength, hb]; rw [if_pos (by omega)]; rfl
  by_cases h3 : n < 0x10000
  · have hb : (0xE0 + n / 4096).toUInt8.toNat = 0xE0 + n / 4096 := toNat_toUInt8 (by omega)
    refine ⟨_, _, by rw [encodePoint, if_neg h1, if_neg h2, if_pos h3], ?_, ?_, by simp, by simp,
      fun _ => ⟨?_, ?_⟩⟩
    · simp only [isContinuation, hb]; simp; omega
    · simp only [List.mem_cons, List.not_mem_nil, or_false]
      rintro x (rfl | rfl) <;> exact cont _ (by omega)
    · rw [hb]; omega
    · simp only [announcedLength, hb]; rw [if_neg (by omega), if_pos (by omega)]; rfl
  · have hb : (0xF0 + n / 262144).toUInt8.toNat = 0xF0 + n / 262144 := toNat_toUInt8 (by omega)
    refine ⟨_, _, by rw [encodePoint, if_neg h1, if_neg h2, if_neg h3], ?_, ?_, by simp, by simp,
      fun _ => ⟨?_, ?_⟩⟩
    · simp only [isContinuation, hb]; simp; omega
    · simp only [List.mem_cons, List.not_mem_nil, or_false]
      rintro x (rfl | rfl | rfl) <;> exact cont _ (by omega)
    · rw [hb]; omega
    · simp only [announcedLength, hb]; rw [if_neg (by omega), if_neg (by omega), if_pos (by omega)]; rfl

theorem encodePoint_ne_nil (c : Char) : encodePoint c.toNat ≠ [] := by
  obtain ⟨b, t, h, -⟩ := encodePoint_shape c
  simp [h]

/-! ## Decoding what was encoded -/

section Decode

variable {b : UInt8} {rest : List UInt8} {p : Partial}

theorem decodeFrom_ascii (h : b.toNat < 0x80) :
    decodeFrom none (b :: rest) = Char.ofNat b.toNat :: decodeFrom none rest := by
  rw [decodeFrom.eq_3, start, if_pos h]

theorem decodeFrom_lead (h : start b = .begin p) : decodeFrom none (b :: rest) = decodeFrom (some p) rest := by
  rw [decodeFrom.eq_3, h]

theorem decodeFrom_last (h : p.lower ≤ b.toNat ∧ b.toNat ≤ p.upper) (h1 : p.needed = 1) :
    decodeFrom (some p) (b :: rest) = Char.ofNat (p.bits * 64 + b.toNat % 64) :: decodeFrom none rest := by
  rw [decodeFrom.eq_4, if_pos h, if_pos h1]

theorem decodeFrom_cont (h : p.lower ≤ b.toNat ∧ b.toNat ≤ p.upper) (h1 : p.needed ≠ 1) :
    decodeFrom (some p) (b :: rest) =
      decodeFrom (some ⟨p.needed - 1, p.bits * 64 + b.toNat % 64, 0x80, 0xBF⟩) rest := by
  rw [decodeFrom.eq_4, if_pos h, if_neg h1]

theorem start_two (h : 0xC2 ≤ b.toNat ∧ b.toNat ≤ 0xDF) : start b = .begin ⟨1, b.toNat % 32, 0x80, 0xBF⟩ := by
  rw [start, if_neg (by omega), if_pos h]

theorem start_three (h : 0xE0 ≤ b.toNat ∧ b.toNat ≤ 0xEF) :
    start b = .begin ⟨2, b.toNat % 16, if b.toNat = 0xE0 then 0xA0 else 0x80,
      if b.toNat = 0xED then 0x9F else 0xBF⟩ := by
  rw [start, if_neg (by omega), if_neg (by omega), if_pos h]

theorem start_four (h : 0xF0 ≤ b.toNat ∧ b.toNat ≤ 0xF4) :
    start b = .begin ⟨3, b.toNat % 8, if b.toNat = 0xF0 then 0x90 else 0x80,
      if b.toNat = 0xF4 then 0x8F else 0xBF⟩ := by
  rw [start, if_neg (by omega), if_neg (by omega), if_neg (by omega), if_pos h]

end Decode

/-- The decoder reads a scalar value's bytes back as that value, whatever follows. -/
theorem decodeFrom_encodePoint (c : Char) (rest : List UInt8) :
    decodeFrom none (encodePoint c.toNat ++ rest) = c :: decodeFrom none rest := by
  have hv : c.toNat < 0xD800 ∨ (0xDFFF < c.toNat ∧ c.toNat < 0x110000) := c.valid
  generalize hn : c.toNat = n at hv
  obtain rfl : c = Char.ofNat n := by rw [← hn, Char.ofNat_toNat]
  -- one case per length of the encoding; the range checks of the lead byte are what `omega` sees
  by_cases h1 : n < 0x80
  · have hb : (n.toUInt8).toNat = n := toNat_toUInt8 (by omega)
    rw [encodePoint, if_pos h1, List.singleton_append, decodeFrom_ascii (by omega), hb]
  by_cases h2 : n < 0x800
  · have hb1 : (0xC0 + n / 64).toUInt8.toNat = 0xC0 + n / 64 := toNat_toUInt8 (by omega)
    have hb2 : (0x80 + n % 64).toUInt8.toNat = 0x80 + n % 64 := toNat_toUInt8 (by omega)
    rw [encodePoint, if_neg h1, if_pos h2, List.cons_append, List.singleton_append,
      decodeFrom_lead (start_two (by omega)), decodeFrom_last (by simp only [hb2]; omega) rfl]
    congr 2; simp only [hb1, hb2]; omega
  by_cases h3 : n < 0x10000
  · have hb1 : (0xE0 + n / 4096).toUInt8.toNat = 0xE0 + n / 4096 := toNat_toUInt8 (by omega)
    have hb2 : (0x80 + n / 64 % 64).toUInt8.toNat = 0x80 + n / 64 % 64 := toNat_toUInt8 (by omega)
    have hb3 : (0x80 + n % 64).toUInt8.toNat = 0x80 + n % 64 := toNat_toUInt8 (by omega)
    rw [encodePoint, if_neg h1, if_neg h2, if_pos h3, List.cons_append, List.cons_append,
      List.singleton_append, decodeFrom_lead (start_three (by omega)),
      decodeFrom_cont (by simp only [hb1, hb2]; split <;> split <;> omega) (by simp),
      decodeFrom_last (by simp only [hb3]; omega) (by simp)]
    congr 2; simp only [hb1, hb2, hb3]; omega
  · have hb1 : (0xF0 + n / 262144).toUInt8.toNat = 0xF0 + n / 262144 := toNat_toUInt8 (by omega)
    have hb2 : (0x80 + n / 4096 % 64).toUInt8.toNat = 0x80 + n / 4096 % 64 := toNat_toUInt8 (by omega)
    have hb3 : (0x80 + n / 64 % 64).toUInt8.toNat = 0x80 + n / 64 % 64 := toNat_toUInt8 (by omega)
    have hb4 : (0x80 + n % 64).toUInt8.toNat = 0x80 + n % 64 := toNat_toUInt8 (by omega)
    rw [encodePoint, if_neg h1, if_neg h2, if_neg h3, List.cons_append, List.cons_append,
      List.cons_append, List.singleton_append, decodeFrom_lead (start_four (by omega)),
      decodeFrom_cont (by simp only [hb1, hb2]; split <;> split <;> omega) (by simp),
      decodeFrom_cont (by simp only [hb3]; omega) (by simp),
      decodeFrom_last (by simp only [hb4]; omega) (by simp)]
    congr 2; simp only [hb1, hb2, hb3, hb4]; omega

theorem decodeFrom_encodeChars (cs : List Char) : decodeFrom none (encodeChars cs) = cs := by
  induction cs with
  | nil => exact decodeFrom.eq_1
  | cons c cs ih => rw [encodeChars_cons, decodeFrom_encodePoint, ih]

/-- An ASCII byte stands only for itself: no other character's UTF-8 holds it. -/
theorem eq_of_ascii_mem_encodePoint {c : Char} {a : UInt8} (ha : a.toNat < 0x80)
    (h : a ∈ encodePoint c.toNat) : c = Char.ofNat a.toNat := by
  obtain ⟨b, t, he, -, ht, -, -, hlead⟩ := encodePoint_shape c
  rw [he] at h
  rcases List.mem_cons.1 h with hb | hat
  · -- an ASCII lead byte: a character of one byte, read back as that byte
    have htn : t = [] := by
      by_cases ht0 : t = []
      · exact ht0
      · have := (hlead ht0).1
        rw [← hb] at this
        omega
    have hdec := decodeFrom_encodePoint c []
    rw [he, htn, ← hb, List.append_nil, decodeFrom_ascii ha] at hdec
    exact (List.cons.inj hdec).1.symm
  · have := (isContinuation_iff a).1 (ht a hat)
    omega

@[simp] theorem decode_nil : decode [] = "" := by rw [decode, decodeFrom.eq_1]; rfl

/-- Valid UTF-8 decodes to the scalar values it encodes. -/
theorem decode_encodeChars (cs : List Char) : decode (encodeChars cs) = Text.ofChars cs := by
  rw [decode, decodeFrom_encodeChars]

/-! ## Encoding a text of scalar values -/

theorem ofChars_eq_toString (cs : List Char) : Text.ofChars cs = Text.toString ⟨cs.flatMap Text.utf16⟩ := by
  simp only [Text.ofChars, Text.toString, List.map_flatMap]

/-- The code units of a text of scalar values: each value's UTF-16. -/
theorem ofString_ofChars (cs : List Char) : Text.ofString (Text.ofChars cs) = ⟨cs.flatMap Text.utf16⟩ := by
  rw [ofChars_eq_toString, Text.ofString_toString]

@[simp] theorem ofChars_append (as bs : List Char) :
    Text.ofChars (as ++ bs) = Text.ofChars as ++ Text.ofChars bs := by
  simp only [Text.ofChars, List.flatMap_append, String.ofList_append]

@[simp] theorem ofChars_nil : Text.ofChars [] = "" := rfl

/-- A scalar value's UTF-16 is written back as its UTF-8: a value of the basic plane is one unit
that is no surrogate, any other a surrogate pair. -/
theorem encodeUnits_utf16_append (c : Char) (us : List UInt16) :
    encodeUnits (Text.utf16 c ++ us) = encodePoint c.toNat ++ encodeUnits us := by
  have hv : c.toNat < 0xD800 ∨ (0xDFFF < c.toNat ∧ c.toNat < 0x110000) := c.valid
  by_cases hb : c.toNat < 0x10000
  · have hu : (c.toNat.toUInt16).toNat = c.toNat := by rw [Nat.toUInt16_eq, UInt16.toNat_ofNat']; omega
    have hs : (Text.isHigh c.toNat.toUInt16 || Text.isLow c.toNat.toUInt16) = false := by
      simp only [Text.isHigh, Text.isLow, hu]; simp; omega
    have hp : unitPoint c.toNat.toUInt16 = c.toNat := by rw [unitPoint, hs]; exact hu
    rw [Text.utf16, if_pos hb, List.singleton_append]
    cases us with
    | nil => rw [encodeUnits.eq_2, hp, encodeUnits.eq_1, List.append_nil]
    | cons v rest =>
      have hh : Text.isHigh c.toNat.toUInt16 = false := by simpa using (Bool.or_eq_false_iff.1 hs).1
      rw [encodeUnits, hh, Bool.false_and, if_neg (by simp), hp]
  · -- a surrogate pair: a high unit, then a low one, that together stand for the value
    have h1 : (0xD800 + (c.toNat - 0x10000) / 0x400).toUInt16.toNat = 0xD800 + (c.toNat - 0x10000) / 0x400 := by
      rw [Nat.toUInt16_eq, UInt16.toNat_ofNat']; omega
    have h2 : (0xDC00 + (c.toNat - 0x10000) % 0x400).toUInt16.toNat = 0xDC00 + (c.toNat - 0x10000) % 0x400 := by
      rw [Nat.toUInt16_eq, UInt16.toNat_ofNat']; omega
    have hh : Text.isHigh (0xD800 + (c.toNat - 0x10000) / 0x400).toUInt16 = true := by
      unfold Text.isHigh; rw [h1]; simp only [decide_eq_true_eq]; omega
    have hl : Text.isLow (0xDC00 + (c.toNat - 0x10000) % 0x400).toUInt16 = true := by
      unfold Text.isLow; rw [h2]; simp only [decide_eq_true_eq]; omega
    have hpair : Text.pairCode (0xD800 + (c.toNat - 0x10000) / 0x400).toUInt16
        (0xDC00 + (c.toNat - 0x10000) % 0x400).toUInt16 = c.toNat := by
      unfold Text.pairCode; rw [h1, h2]; omega
    rw [Text.utf16, if_neg hb, List.cons_append, List.cons_append, List.nil_append, encodeUnits, hh, hl,
      Bool.and_self, if_pos rfl, hpair]

theorem encodeUnits_flatMap_utf16 (cs : List Char) : encodeUnits (cs.flatMap Text.utf16) = encodeChars cs := by
  induction cs with
  | nil => rfl
  | cons c cs ih => rw [List.flatMap_cons, encodeUnits_utf16_append, ih, encodeChars_cons]

/-- A text of scalar values is written as their UTF-8. -/
theorem encode_ofChars (cs : List Char) : encode (Text.ofChars cs) = encodeChars cs := by
  rw [encode, ofString_ofChars, encodeUnits_flatMap_utf16]

/-- Writing a text of scalar values and reading it back gives the text. -/
theorem decode_encode_ofChars (cs : List Char) : decode (encode (Text.ofChars cs)) = Text.ofChars cs := by
  rw [encode_ofChars, decode_encodeChars]

theorem byteLength_ofChars (cs : List Char) : byteLength (Text.ofChars cs) = (encodeChars cs).length := by
  rw [byteLength, encode_ofChars]

/-! ## The end of a chunk -/

/-- What `cutTail` sees at the end of bytes that end with a lead byte `b` and continuation bytes
`t` after it: the character is cut if `t` is shorter than the lead byte announces. -/
theorem cutTail_lead {X t : List UInt8} {b : UInt8} {L : Nat} (hb : isContinuation b = false)
    (ht : ∀ x ∈ t, isContinuation x = true) (hlen : t.length < 4) (h80 : 0x80 ≤ b.toNat)
    (hL : announcedLength b = some L) :
    cutTail (X ++ b :: t) = if t.length + 1 ≥ L then (0, 0) else (t.length + 1, L - (t.length + 1)) := by
  -- the last byte is `b` or a continuation byte: both at least 0x80
  have hlast : ∃ z, (X ++ b :: t).getLast? = some z ∧ ¬ z.toNat < 0x80 := by
    rcases List.eq_nil_or_concat t with rfl | ⟨t', z, rfl⟩
    · exact ⟨b, by simp, by omega⟩
    · refine ⟨z, by rw [List.concat_eq_append, ← List.cons_append, ← List.append_assoc,
        List.getLast?_concat], ?_⟩
      have := (isContinuation_iff z).1 (ht z (by simp)); omega
  obtain ⟨z, hz, hz80⟩ := hlast
  have hrev : (X ++ b :: t).reverse = t.reverse ++ b :: X.reverse := by simp
  have hconts : ((X ++ b :: t).reverse.takeWhile isContinuation).length = t.length := by
    rw [hrev, List.takeWhile_append_of_pos (by simpa using ht)]
    simp [hb]
  have hat : (X ++ b :: t).reverse[t.length]? = some b := by
    rw [hrev, List.getElem?_append_right (by simp)]; simp
  unfold cutTail
  simp only [hz, if_neg hz80, hconts, if_neg (show ¬ t.length ≥ 4 by omega), hat, hL]

theorem cutTail_ascii {X : List UInt8} {b : UInt8} (h : b.toNat < 0x80) : cutTail (X ++ [b]) = (0, 0) := by
  unfold cutTail
  rw [List.getLast?_concat]
  simp only [if_pos h]

theorem drop_eq_cons {cs : List Char} {k : Nat} {c : Char} (h : cs[k]? = some c) :
    cs.drop k = c :: cs.drop (k + 1) := by
  rw [← List.getElem_cons_drop (List.getElem?_eq_some_iff.1 h).1, (List.getElem?_eq_some_iff.1 h).2]

/-- Fewer bytes than its width, at the start of the UTF-8 from the `j`-th character on, begin
that character's own bytes. -/
theorem prefix_encodePoint {ds : List Char} {j : Nat} {q : List UInt8} (hq : q <+: encodeChars (ds.drop j))
    (hl : q.length < widthAt ds j) (hq0 : q ≠ []) : ∃ d, ds[j]? = some d ∧ q <+: encodePoint d.toNat := by
  rcases hdj : ds[j]? with _ | d
  · -- past the end there are no bytes
    rw [← List.head?_drop, List.head?_eq_none_iff] at hdj
    rw [hdj, encodeChars_nil, List.prefix_nil] at hq
    exact absurd hq hq0
  · have hw : widthAt ds j = (encodePoint d.toNat).length := by simp [widthAt, hdj]
    rw [drop_eq_cons hdj, encodeChars_cons] at hq
    exact ⟨d, rfl, List.prefix_of_prefix_length_le hq (List.prefix_append _ _) (by omega)⟩

/-- The bytes still missing from a character of which `q` was received. -/
def missingAfter (cs : List Char) (k : Nat) (q : List UInt8) : Nat := if q = [] then 0 else widthAt cs k - q.length

/-- Bytes that start between two characters of a text and end `q` into the `j`-th: `cutTail`
finds the cut character's bytes and how many it lacks. -/
theorem cutTail_cut {ds : List Char} {j : Nat} {q : List UInt8} (hq : q <+: encodeChars (ds.drop j))
    (hl : q.length < widthAt ds j) (hne : encodeChars (ds.take j) ++ q ≠ []) :
    cutTail (encodeChars (ds.take j) ++ q) = (q.length, missingAfter ds j q) := by
  by_cases hq0 : q = []
  · -- nothing cut: the bytes end with a whole character
    subst hq0
    rw [List.append_nil] at hne ⊢
    obtain ⟨init, d, hd⟩ : ∃ init d, ds.take j = init ++ [d] := by
      rcases List.eq_nil_or_concat (ds.take j) with h | ⟨init, d, h⟩
      · rw [h] at hne; exact absurd rfl hne
      · exact ⟨init, d, by rw [h, List.concat_eq_append]⟩
    obtain ⟨b, t, he, hb, ht, hlen, hascii, hlead⟩ := encodePoint_shape d
    rw [hd, encodeChars_append, encodeChars_cons, he, encodeChars_nil, List.append_nil]
    by_cases ht0 : t = []
    · subst ht0; rw [cutTail_ascii (hascii rfl)]; rfl
    · obtain ⟨h80, hL⟩ := hlead ht0
      rw [cutTail_lead hb ht (by omega) (by omega) hL, if_pos (Nat.le_refl _)]; rfl
  · -- a character is cut: `q` is its lead byte and some of its continuation bytes
    obtain ⟨d, hdj, hqd⟩ := prefix_encodePoint hq hl hq0
    have hw : widthAt ds j = (encodePoint d.toNat).length := by simp [widthAt, hdj]
    obtain ⟨b, t, he, hb, ht, hlen, -, hlead⟩ := encodePoint_shape d
    rw [he] at hqd hw
    obtain ⟨t', rfl, ht'⟩ : ∃ t', q = b :: t' ∧ t' <+: t := by
      rcases q with _ | ⟨b', t'⟩
      · exact absurd rfl hq0
      · obtain ⟨rfl, h⟩ := List.cons_prefix_cons.1 hqd
        exact ⟨t', rfl, h⟩
    have hlt : t'.length < t.length := by simp at hl hw; omega
    obtain ⟨h80, hL⟩ := hlead (List.ne_nil_of_length_pos (by omega))
    rw [cutTail_lead hb (fun x hx => ht x (ht'.subset hx)) (by have := ht'.length_le; omega) (by omega) hL,
      if_neg (by omega), missingAfter, if_neg (List.cons_ne_nil _ _), hw]
    simp

/-! ## Chunks -/

/-- The second half of `Stream.push`: bytes that start between characters, whose whole
characters are decoded after `pre` and whose cut character is held back. -/
def Stream.tail (pre : String) (data : List UInt8) : Stream × String :=
  if data.isEmpty then (⟨[], 0⟩, pre)
  else (⟨data.drop (data.length - (cutTail data).1), (cutTail data).2⟩,
    pre ++ decode (data.take (data.length - (cutTail data).1)))

/-- A chunk that starts between characters. -/
theorem Stream.push_between {s : Stream} (chunk : List UInt8) (hh : s.held = []) (hm : s.missing = 0) :
    s.push chunk = Stream.tail "" chunk := by
  unfold Stream.push Stream.tail
  simp only [hm, gt_iff_lt, Nat.lt_irrefl, if_false, hh]

/-- A chunk that brings every byte a held character lacks. -/
theorem Stream.push_complete {s : Stream} {chunk : List UInt8} (hm : 0 < s.missing)
    (hc : ∀ x ∈ chunk.take s.missing, isContinuation x = true) (hlen : s.missing ≤ chunk.length) :
    s.push chunk = Stream.tail (decode (s.held ++ chunk.take s.missing)) (chunk.drop s.missing) := by
  have hfill : (chunk.take s.missing).takeWhile isContinuation = chunk.take s.missing :=
    takeWhile_of_forall hc
  have htl : (chunk.take s.missing).length = s.missing := by simp; omega
  unfold Stream.push Stream.tail
  simp only [gt_iff_lt, hm, if_true, hfill, htl, Nat.lt_irrefl, if_false, Nat.sub_self]

/-- A chunk of continuation bytes too short to finish a held character. -/
theorem Stream.push_short {s : Stream} {chunk : List UInt8} (hm : 0 < s.missing)
    (hc : ∀ x ∈ chunk, isContinuation x = true) (hlen : chunk.length < s.missing) :
    s.push chunk = (⟨s.held ++ chunk, s.missing - chunk.length⟩, "") := by
  have htake : chunk.take s.missing = chunk := List.take_of_length_le (by omega)
  have hfill : chunk.takeWhile isContinuation = chunk := takeWhile_of_forall hc
  unfold Stream.push
  simp only [gt_iff_lt, hm, if_true, htake, hfill, Nat.lt_irrefl, if_false,
    if_neg (show ¬ s.missing - chunk.length = 0 by omega), List.drop_length, List.isEmpty_nil]

/-- The tail of a chunk that is a beginning of valid UTF-8: its whole characters are decoded and
the cut one is held, with the number of bytes it lacks. -/
theorem Stream.tail_prefix (pre : String) {ds : List Char} {data : List UInt8}
    (h : data <+: encodeChars ds) :
    ∃ j q, data = encodeChars (ds.take j) ++ q ∧ q <+: encodeChars (ds.drop j) ∧ q.length < widthAt ds j ∧
      Stream.tail pre data = (⟨q, missingAfter ds j q⟩, pre ++ Text.ofChars (ds.take j)) := by
  rw [← flatten_pieces] at h
  obtain ⟨j, q, hd, hq, hl⟩ := exists_cut_of_prefix h
  rw [take_pieces, flatten_pieces] at hd
  rw [drop_pieces, flatten_pieces] at hq
  rw [widthAt_eq] at hl
  refine ⟨j, q, hd, hq, hl, ?_⟩
  unfold Stream.tail
  by_cases hne : data = []
  · subst hne
    obtain ⟨hj, rfl⟩ : encodeChars (ds.take j) = [] ∧ q = [] := List.append_eq_nil_iff.1 hd.symm
    have : ds.take j = [] := by
      rw [← decodeFrom_encodeChars (ds.take j), hj]; exact decodeFrom.eq_1
    simp [this, missingAfter]
  · have hcut := cutTail_cut hq hl (hd ▸ hne)
    rw [← hd] at hcut
    have hsplit : data.length - q.length = (encodeChars (ds.take j)).length := by rw [hd]; simp
    rw [if_neg (by simpa using hne), hcut, hsplit, hd, List.drop_left, List.take_left, decode_encodeChars]

/-- The chunked decoder has read `p`, a beginning of the UTF-8 of `cs`: the first `k` characters
whole, then the bytes it holds of the next one, with how many that one still lacks. -/
structure Stream.Reads (cs : List Char) (p : List UInt8) (s : Stream) (k : Nat) : Prop where
  cut : p = encodeChars (cs.take k) ++ s.held
  within : s.held <+: encodeChars (cs.drop k)
  short : s.held.length < widthAt cs k
  missing : s.missing = missingAfter cs k s.held

theorem Stream.reads_fresh (cs : List Char) : Stream.Reads cs [] {} 0 :=
  ⟨by simp, List.nil_prefix, by
    unfold widthAt; rcases cs with _ | ⟨c, cs⟩
    · simp
    · simpa using List.length_pos_iff.2 (encodePoint_ne_nil c), by simp [missingAfter]⟩

theorem Stream.Reads.tail {cs : List Char} {p q : List UInt8} {k : Nat} (pre : String)
    (hp : p = encodeChars (cs.take k)) (hd : q <+: encodeChars (cs.drop k)) :
    ∃ k', k ≤ k' ∧ Stream.Reads cs (p ++ q) (Stream.tail pre q).1 k' ∧
      (Stream.tail pre q).2 = pre ++ Text.ofChars ((cs.take k').drop k) := by
  obtain ⟨i, r, hq, hr, hl, ht⟩ := Stream.tail_prefix pre hd
  refine ⟨k + i, by omega, ?_, ?_⟩
  · rw [ht]
    have hdrop : (cs.drop k).drop i = cs.drop (k + i) := by rw [List.drop_drop]
    have hw : widthAt (cs.drop k) i = widthAt cs (k + i) := by simp [widthAt, List.getElem?_drop]
    refine ⟨?_, by simpa [hdrop] using hr, by simpa [hw] using hl, by simp [missingAfter, hw]⟩
    rw [hp, hq, ← List.append_assoc, ← encodeChars_append, List.take_add]
  · rw [ht, List.drop_take]
    simp

/-- Bytes held inside a character begin its UTF-8; the rest of it are continuation bytes, as
many as the decoder still lacks. -/
theorem Stream.Reads.held_char {cs : List Char} {p : List UInt8} {s : Stream} {k : Nat}
    (hr : Stream.Reads cs p s k) (hh : s.held ≠ []) :
    ∃ c r, cs[k]? = some c ∧ encodePoint c.toNat = s.held ++ r ∧ s.missing = r.length ∧ 0 < r.length ∧
      ∀ x ∈ r, isContinuation x = true := by
  obtain ⟨c, hc, r, hcr⟩ := prefix_encodePoint hr.within hr.short hh
  have hw : widthAt cs k = (encodePoint c.toNat).length := by simp [widthAt, hc]
  rw [eq_comm] at hcr
  have hshort := hr.short
  rw [hw, hcr, List.length_append] at hshort
  refine ⟨c, r, hc, hcr, ?_, by omega, ?_⟩
  · rw [hr.missing, missingAfter, if_neg hh, hw, hcr, List.length_append]
    omega
  · -- after the lead byte, every byte of a character is a continuation byte
    obtain ⟨b, t, he, -, ht, -⟩ := encodePoint_shape c
    intro x hx
    rw [hcr] at he
    rcases hs : s.held with _ | ⟨b', t'⟩
    · exact absurd hs hh
    · rw [hs, List.cons_append, List.cons.injEq] at he
      exact ht x (he.2 ▸ List.mem_append_right _ hx)

/-- One chunk: from any state that has read a beginning of valid UTF-8, a chunk that keeps it a
beginning leaves a state that has read the longer beginning, and the text given out is the
characters that became whole. -/
theorem Stream.reads_push {cs : List Char} {p chunk : List UInt8} {s : Stream} {k : Nat}
    (hr : Stream.Reads cs p s k) (hp : p ++ chunk <+: encodeChars cs) :
    ∃ k', k ≤ k' ∧ Stream.Reads cs (p ++ chunk) (s.push chunk).1 k' ∧
      (s.push chunk).2 = Text.ofChars ((cs.take k').drop k) := by
  have hsplit : encodeChars cs = encodeChars (cs.take k) ++ encodeChars (cs.drop k) := by
    rw [← encodeChars_append, List.take_append_drop]
  rw [hr.cut, hsplit, List.append_assoc, List.prefix_append_right_inj] at hp
  by_cases hh : s.held = []
  · -- between characters: the whole chunk goes to the tail
    have hm : s.missing = 0 := by rw [hr.missing, missingAfter, if_pos hh]
    rw [Stream.push_between chunk hh hm]
    rw [hh, List.nil_append] at hp
    have hpk : p = encodeChars (cs.take k) := by rw [hr.cut, hh, List.append_nil]
    obtain ⟨k', hk, hr', ht⟩ := Stream.Reads.tail "" hpk hp
    exact ⟨k', hk, hr', by rw [ht]; simp⟩
  · -- inside a character: the chunk first brings the bytes it lacks
    obtain ⟨c, r, hc, hcr, hmr, hpos, hrc⟩ := hr.held_char hh
    have hm : 0 < s.missing := hmr ▸ hpos
    have hdrop : cs.drop k = c :: cs.drop (k + 1) := drop_eq_cons hc
    have hw : widthAt cs k = (encodePoint c.toNat).length := by simp [widthAt, hc]
    rw [hdrop, encodeChars_cons, hcr, List.append_assoc, List.prefix_append_right_inj] at hp
    by_cases hlen : chunk.length < s.missing
    · -- the character is still not whole
      have hcc : ∀ x ∈ chunk, isContinuation x = true := by
        obtain ⟨u, hu⟩ := hp
        intro x hx
        have : chunk <+: r := List.prefix_of_prefix_length_le ⟨u, hu⟩ (List.prefix_append r _) (by omega)
        exact hrc x (this.subset hx)
      rw [Stream.push_short hm hcc hlen]
      refine ⟨k, Nat.le_refl _, ⟨?_, ?_, ?_, ?_⟩, by simp⟩
      · rw [hr.cut, List.append_assoc]
      · rw [hdrop, encodeChars_cons, hcr, List.append_assoc]
        exact (List.prefix_append_right_inj _).2 hp
      · simp only [List.length_append, hw, hcr]; omega
      · rw [missingAfter, if_neg (List.append_ne_nil_of_left_ne_nil hh _)]
        simp only [List.length_append, hw, hcr, hmr]; omega
    · -- the character is whole; the rest of the chunk starts between characters
      obtain ⟨v, hv⟩ : r <+: chunk := by
        obtain ⟨u, hu⟩ := hp
        exact List.prefix_of_prefix_length_le (List.prefix_append r (encodeChars (cs.drop (k + 1))))
          ⟨u, hu⟩ (by omega)
      subst hv
      have htake : (r ++ v).take s.missing = r := by rw [hmr, List.take_left]
      have hdropm : (r ++ v).drop s.missing = v := by rw [hmr, List.drop_left]
      have hdec : decode (s.held ++ r) = Text.ofChars [c] := by
        rw [← hcr, ← List.append_nil (encodePoint c.toNat), ← encodeChars_nil, ← encodeChars_cons,
          decode_encodeChars]
      rw [Stream.push_complete hm (by rw [htake]; exact hrc) (by simp; omega), htake, hdropm, hdec]
      have hpk : p ++ r = encodeChars (cs.take (k + 1)) := by
        rw [List.take_add_one, hc, Option.toList_some, encodeChars_append, encodeChars_cons, encodeChars_nil,
          List.append_nil, hcr, hr.cut, List.append_assoc]
      obtain ⟨k', hk, hr', ht⟩ := Stream.Reads.tail (Text.ofChars [c]) hpk
        ((List.prefix_append_right_inj r).1 hp)
      refine ⟨k', by omega, by rwa [← List.append_assoc], ?_⟩
      rw [ht, ← ofChars_append]
      congr 1
      rw [List.drop_take, List.drop_take, hdrop, List.take_cons (by omega)]
      simp only [List.singleton_append]
      congr 2

/-- Once all of the UTF-8 of `cs` is in, every character is whole and nothing is held. -/
theorem Stream.Reads.whole {cs : List Char} {s : Stream} {k : Nat} (hr : Stream.Reads cs (encodeChars cs) s k) :
    s.held = [] ∧ cs.take k = cs := by
  have hk : cs.length ≤ k := by
    apply Nat.le_of_not_lt
    intro hlt
    -- a character not yet whole would hold all of its bytes and the rest of the text
    have hc : cs[k]? = some cs[k] := List.getElem?_eq_getElem hlt
    have hheld := hr.cut
    rw [← List.take_append_drop k cs, encodeChars_append, List.take_append_drop, List.append_right_inj]
      at hheld
    have hshort := hr.short
    rw [← hheld, drop_eq_cons hc, encodeChars_cons] at hshort
    simp only [widthAt, hc, Option.map_some, Option.getD_some, List.length_append] at hshort
    omega
  have htake : cs.take k = cs := List.take_of_length_le hk
  have hheld := hr.cut
  rw [htake] at hheld
  exact ⟨by simpa using hheld, htake⟩

end Utf8

end DapBridge
