import DapBridge.Proofs.JsonText
import DapBridge.Wire

/-!
# The client wire read back from any chunking

A `Link` collects the client's bytes and reads off arrivals: a body for each header block
with a length whose body is whole, a bad header for each header block without one.

How the bytes were cut into chunks makes no difference. `Wire.arrivals_append` is the core:
the arrivals of a longer stream are those of the shorter one, then those of its waiting bytes
followed by the rest. Each push of the link starts from what the last one left waiting, so
pushing chunks one at a time gives the arrivals of their concatenation
(`Link.receiveAll_fresh`).

A link that sends a message writes `Content-Length: N`, a blank line and the compact JSON text.
`Wire.arrivals_frame` reads one such frame back: its header is ASCII with no carriage return
before the blank line, its length field is the byte length of the text, and the text reads
back from its UTF-8 (`Json.decode_encode_write`). So the bytes written for any messages, cut
anywhere, read back as their texts in order and nothing else (`wire_read_back`).
-/

namespace DapBridge

namespace Wire

variable {bs h r : List UInt8}

/-! ## What one reading does -/

theorem arrivals_none (hc : cutAtBlankLine bs = none) : arrivals bs = ([], bs) := by
  rw [arrivals]
  split
  · rfl
  · simp_all

/-- Where a blank line is found, the reading goes by the header before it. -/
theorem arrivals_of_cut (hc : cutAtBlankLine bs = some (h, r)) :
    arrivals bs = match contentLength? (Utf8.decode h).toList with
      | none => (.badHeader (Utf8.decode h) :: (arrivals r).1, (arrivals r).2)
      | some n =>
        if n ≤ r.length then (.body (Utf8.decode (r.take n)) :: (arrivals (r.drop n)).1, (arrivals (r.drop n)).2)
        else ([], bs) := by
  rw [arrivals]
  split
  · simp_all
  · next h' r' hc' =>
    rw [hc] at hc'
    cases hc'
    rfl

theorem arrivals_bad (hc : cutAtBlankLine bs = some (h, r)) (hn : contentLength? (Utf8.decode h).toList = none) :
    arrivals bs = (.badHeader (Utf8.decode h) :: (arrivals r).1, (arrivals r).2) := by
  rw [arrivals_of_cut hc, hn]

theorem arrivals_body {n : Nat} (hc : cutAtBlankLine bs = some (h, r))
    (hn : contentLength? (Utf8.decode h).toList = some n) (hl : n ≤ r.length) :
    arrivals bs = (.body (Utf8.decode (r.take n)) :: (arrivals (r.drop n)).1, (arrivals (r.drop n)).2) := by
  rw [arrivals_of_cut hc, hn]
  exact if_pos hl

/-! ## Chunks make no difference -/

theorem four_le_of_cutAtBlankLine (hc : cutAtBlankLine bs = some (h, r)) : 4 ≤ bs.length := by
  rw [cutAtBlankLine_eq hc]
  simp [blankLine]
  omega

/-- More bytes behind a blank line do not move it. -/
theorem cutAtBlankLine_append (hc : cutAtBlankLine bs = some (h, r)) (more : List UInt8) :
    cutAtBlankLine (bs ++ more) = some (h, r ++ more) := by
  induction bs generalizing h r with
  | nil => simp [cutAtBlankLine] at hc
  | cons b rest ih =>
    have hlen := four_le_of_cutAtBlankLine hc
    have htake : (b :: rest ++ more).take 4 = (b :: rest).take 4 :=
      List.take_append_of_le_length (by omega)
    unfold cutAtBlankLine at hc
    rw [List.cons_append]
    unfold cutAtBlankLine
    rw [← List.cons_append, htake]
    split at hc
    · next hb =>
      rw [if_pos hb]
      obtain ⟨rfl, rfl⟩ := Prod.mk.inj (Option.some.inj hc)
      simp only [List.length_cons] at hlen
      rw [List.drop_append_of_le_length (by omega)]
    · next hb =>
      rw [if_neg hb]
      obtain ⟨⟨h', r'⟩, hrec, he⟩ := Option.map_eq_some_iff.1 hc
      obtain ⟨rfl, rfl⟩ := Prod.mk.inj he
      rw [ih hrec]
      rfl

/-- The arrivals of a longer stream: those of the shorter, then those of what it left waiting
and the rest. -/
theorem arrivals_append (A B : List UInt8) :
    arrivals (A ++ B) = ((arrivals A).1 ++ (arrivals ((arrivals A).2 ++ B)).1,
      (arrivals ((arrivals A).2 ++ B)).2) := by
  -- along the reading of `A`; where it waits, the longer stream is read from the same point
  fun_induction arrivals A with
  | case1 A hc => simp
  | case2 A h r hc text hn more left hr ih =>
    rw [arrivals_bad (cutAtBlankLine_append hc B) hn, ih, hr]
    rfl
  | case3 A h r hc text n hn hl more left hr ih =>
    have hl' : n ≤ (r ++ B).length := by simp; omega
    rw [arrivals_body (cutAtBlankLine_append hc B) hn hl', List.take_append_of_le_length hl,
      List.drop_append_of_le_length hl, ih, hr]
    rfl
  | case4 => simp

/-- What a reading leaves waiting yields nothing more by itself. -/
theorem arrivals_left (A : List UInt8) : arrivals (arrivals A).2 = ([], (arrivals A).2) := by
  have h := arrivals_append A []
  rw [List.append_nil, List.append_nil] at h
  have h1 : (arrivals A).1 = (arrivals A).1 ++ (arrivals (arrivals A).2).1 := by
    conv => lhs; rw [h]
  have h2 : (arrivals A).2 = (arrivals (arrivals A).2).2 := by
    conv => lhs; rw [h]
  rw [List.self_eq_append_right] at h1
  exact Prod.ext h1 h2.symm

end Wire

namespace Link

/-- Chunks pushed one at a time: the link after them and every arrival, in order. -/
def receiveAll (l : Link) : List (List UInt8) → Link × List Wire.Arrival
  | [] => (l, [])
  | c :: cs => (((l.receive c).1.receiveAll cs).1, (l.receive c).2 ++ ((l.receive c).1.receiveAll cs).2)

/-- From an open link whose waiting bytes yield nothing by themselves, chunks pushed one at a
time read as their concatenation after the waiting bytes. -/
theorem receiveAll_open {w : List UInt8} (hw : Wire.arrivals w = ([], w)) (chunks : List (List UInt8)) :
    receiveAll ⟨w, true⟩ chunks =
      (⟨(Wire.arrivals (w ++ chunks.flatten)).2, true⟩, (Wire.arrivals (w ++ chunks.flatten)).1) := by
  induction chunks generalizing w with
  | nil => simp [receiveAll, hw]
  | cons c cs ih =>
    -- the first push reads `w ++ c` and leaves its waiting bytes, which yield nothing alone
    have hr : receive ⟨w, true⟩ c = (⟨(Wire.arrivals (w ++ c)).2, true⟩, (Wire.arrivals (w ++ c)).1) := rfl
    rw [receiveAll, hr, ih (Wire.arrivals_left (w ++ c)), List.flatten_cons, ← List.append_assoc,
      Wire.arrivals_append (w ++ c)]

/-- A fresh link reads chunks pushed one at a time as their concatenation. -/
theorem receiveAll_fresh (chunks : List (List UInt8)) :
    fresh.receiveAll chunks =
      (⟨(Wire.arrivals chunks.flatten).2, true⟩, (Wire.arrivals chunks.flatten).1) := by
  have h0 : Wire.arrivals [] = ([], []) := Wire.arrivals_none rfl
  exact receiveAll_open h0 chunks

end Link

/-! ## A frame read back -/

namespace Wire

/-- The header line of a frame for a text of `n` bytes, before the blank line. -/
def headerChars (n : Nat) : List Char := "Content-Length: ".toList ++ Nat.toDigits 10 n

theorem digitsValue_append (ds : List Char) (d : Char) :
    digitsValue (ds ++ [d]) = 10 * digitsValue ds + (d.toNat - '0'.toNat) := by
  simp [digitsValue, List.foldl_append]

/-- Decimal digits read back as the number they write. -/
theorem digitsValue_toDigits (n : Nat) : digitsValue (Nat.toDigits 10 n) = n := by
  induction n using Nat.strongRecOn with
  | ind n ih =>
    have hdig : ∀ d < 10, (Nat.digitChar d).toNat - '0'.toNat = d := by decide
    rw [Nat.toDigits_eq_if (by decide)]
    split
    · next hn =>
      have h := hdig n hn
      simp only [digitsValue, List.foldl_cons, List.foldl_nil, Nat.mul_zero, Nat.zero_add]
      exact h
    · next hn =>
      rw [digitsValue_append, ih (n / 10) (by omega), hdig (n % 10) (Nat.mod_lt _ (by decide))]
      omega

theorem digit_toNat {c : Char} {n : Nat} (hc : c ∈ Nat.toDigits 10 n) : 48 ≤ c.toNat ∧ c.toNat ≤ 57 := by
  have hdig := Nat.isDigit_of_mem_toDigits (by decide) (by decide) hc
  simp only [Char.isDigit, Bool.and_eq_true, decide_eq_true_eq, UInt32.le_iff_toNat_le] at hdig
  exact hdig

theorem headerChars_lt (n : Nat) : ∀ c ∈ headerChars n, c.toNat < 0x10000 := by
  have hlit : Text.Narrow "Content-Length: " := by decide
  intro c hc
  rcases List.mem_append.1 hc with hc | hc
  · exact hlit c hc
  · have := digit_toNat hc
    omega

/-- The length field names the byte count. -/
theorem contentLength_headerChars (n : Nat) : contentLength? (headerChars n) = some n := by
  obtain ⟨d, ds, hd⟩ := List.exists_cons_of_ne_nil (@Nat.toDigits_ne_nil n 10)
  have hname : dropName lengthName (headerChars n) = some (' ' :: Nat.toDigits 10 n) := rfl
  have hblank : (' ' :: Nat.toDigits 10 n).dropWhile Blank.isBlank = Nat.toDigits 10 n := by
    have hdn : Blank.isBlank d = false := by
      have := digit_toNat (hd ▸ List.mem_cons_self : d ∈ Nat.toDigits 10 n)
      simp only [Blank.isBlank, decide_eq_false_iff_not]
      omega
    rw [List.dropWhile_cons, if_pos (by decide), hd, List.dropWhile_cons, if_neg (by simp [hdn])]
  have htake : (Nat.toDigits 10 n).takeWhile Char.isDigit = Nat.toDigits 10 n :=
    takeWhile_of_forall fun c hc => Nat.isDigit_of_mem_toDigits (by decide) (by decide) hc
  have hhere : lengthHere (headerChars n) = some n := by
    simp only [lengthHere, hname, Option.bind_eq_bind, Option.bind_some]
    rw [hblank, htake, digitsValue_toDigits, hd]
    rfl
  have hcons : headerChars n = 'C' :: ("ontent-Length: ".toList ++ Nat.toDigits 10 n) := rfl
  rw [hcons, contentLength?, ← hcons, hhere]
  rfl

/-- A blank line found after bytes without a carriage return is the first one. -/
theorem cutAtBlankLine_of_no_cr {X : List UInt8} (hX : 13 ∉ X) (rest : List UInt8) :
    cutAtBlankLine (X ++ blankLine ++ rest) = some (X, rest) := by
  induction X with
  | nil => rfl
  | cons b X ih =>
    have hb : b ≠ 13 := fun h => hX (h ▸ List.mem_cons_self)
    have hhead : ((b :: X) ++ blankLine ++ rest).take 4 ≠ blankLine := by
      intro h
      have := congrArg List.head? h
      simp [blankLine] at this
      exact hb this
    have e : (b :: X) ++ blankLine ++ rest = b :: (X ++ blankLine ++ rest) := rfl
    rw [e]
    unfold cutAtBlankLine
    rw [← e, if_neg hhead, ih (fun h => hX (List.mem_cons_of_mem _ h))]
    rfl

/-- The bytes of a frame for a text of scalar values: the header line, the blank line, then the
text's UTF-8. -/
theorem encode_frame (cs : List Char) :
    Utf8.encode (frame (Text.ofChars cs)) =
      Utf8.encodeChars (headerChars (Utf8.encodeChars cs).length) ++ blankLine ++ Utf8.encodeChars cs := by
  have hblank : "\r\n\r\n" = Text.ofChars ['\r', '\n', '\r', '\n'] := by decide
  have hhead : "Content-Length: " ++ toString (Utf8.encodeChars cs).length =
      Text.ofChars (headerChars (Utf8.encodeChars cs).length) := by
    rw [Text.ofChars_eq_ofList (headerChars_lt _)]
    unfold headerChars
    rw [String.ofList_append, String.ofList_toList]
    rfl
  have hf : frame (Text.ofChars cs) = "Content-Length: " ++ toString (Utf8.encodeChars cs).length ++
      "\r\n\r\n" ++ Text.ofChars cs := by
    rw [← Utf8.byteLength_ofChars]
    rfl
  rw [hf, hhead, hblank, ← Utf8.ofChars_append, ← Utf8.ofChars_append, Utf8.encode_ofChars,
    Utf8.encodeChars_append, Utf8.encodeChars_append]
  rfl

/-- No carriage return in the header line. -/
theorem cr_not_mem_header (n : Nat) : 13 ∉ Utf8.encodeChars (headerChars n) := by
  intro h
  obtain ⟨c, hc, hmem⟩ := List.mem_flatMap.1 h
  have hcr : c = '\r' := Utf8.eq_of_ascii_mem_encodePoint (by decide) hmem
  subst hcr
  rcases List.mem_append.1 hc with hc | hc
  · revert hc
    decide
  · have := digit_toNat hc
    simp at this

/-- One frame for the compact text of a value reads back as a body holding that text, and the
reading goes on after it. -/
theorem arrivals_frame (j : Json) (rest : List UInt8) :
    arrivals (Utf8.encode (frame (Json.write j)) ++ rest) =
      (.body (Json.write j) :: (arrivals rest).1, (arrivals rest).2) := by
  obtain ⟨cs, hcs⟩ := Json.write_sound j
  rw [← hcs, encode_frame, List.append_assoc]
  have hc := cutAtBlankLine_of_no_cr (cr_not_mem_header (Utf8.encodeChars cs).length) (Utf8.encodeChars cs ++ rest)
  have hn : contentLength? (Utf8.decode (Utf8.encodeChars (headerChars (Utf8.encodeChars cs).length))).toList =
      some (Utf8.encodeChars cs).length := by
    rw [Utf8.decode_encodeChars, Text.ofChars_eq_ofList (headerChars_lt _), String.toList_ofList,
      contentLength_headerChars]
  rw [← List.append_assoc] at hc
  rw [← List.append_assoc, arrivals_body hc hn (by simp), List.take_left, List.drop_left, Utf8.decode_encodeChars]

end Wire

namespace Link

/-- The bytes a link writes for messages, one after another. -/
def sentBytes (l : Link) (ms : List Json) : List UInt8 := ((ms.filterMap l.send).map Utf8.encode).flatten

/-- The bytes an open link writes for messages read back as their compact texts, in order, with
nothing left waiting. -/
theorem arrivals_sentBytes {l : Link} (hl : l.isOpen = true) (ms : List Json) :
    Wire.arrivals (l.sentBytes ms) = (ms.map fun m => .body (Json.write m), []) := by
  induction ms with
  | nil => exact Wire.arrivals_none rfl
  | cons m ms ih =>
    have hs : l.sentBytes (m :: ms) = Utf8.encode (Wire.frame (Json.write m)) ++ l.sentBytes ms := by
      simp [sentBytes, send, hl]
    rw [hs, Wire.arrivals_frame, ih]
    rfl

end Link

/-- The client wire is read the same whatever the chunks: a fresh link fed chunks one at a time
gives the arrivals and the waiting bytes of their concatenation fed at once. The bytes an open
link writes for any messages, cut anywhere, read back as the messages' compact texts in order,
with no bad header and nothing left waiting. -/
theorem wire_read_back :
    (∀ chunks : List (List UInt8), Link.fresh.receiveAll chunks = Link.fresh.receiveAll [chunks.flatten]) ∧
    ∀ (sender : Link), sender.isOpen = true → ∀ (ms : List Json) (chunks : List (List UInt8)),
      chunks.flatten = sender.sentBytes ms →
      Link.fresh.receiveAll chunks = (⟨[], true⟩, ms.map fun m => .body (Json.write m)) := by
  refine ⟨fun chunks => ?_, fun sender hs ms chunks hc => ?_⟩
  · rw [Link.receiveAll_fresh, Link.receiveAll_fresh, List.flatten_singleton]
  · rw [Link.receiveAll_fresh, hc, Link.arrivals_sentBytes hs]

/-- Two messages cut inside the first header and inside the first body. -/
theorem wire_read_back_cut :
    Link.fresh.isOpen = true ∧
      ([[67, 111, 110, 116, 101, 110, 116, 45, 76, 101],
        [110, 103, 116, 104, 58, 32, 52, 13, 10, 13, 10, 116, 114, 117],
        [101, 67, 111, 110, 116, 101, 110, 116, 45, 76, 101, 110, 103, 116, 104, 58, 32, 52, 13, 10, 13, 10,
          110, 117, 108, 108]] : List (List UInt8)).flatten = Link.fresh.sentBytes [.bool true, .null] ∧
      Link.fresh.receiveAll
        [[67, 111, 110, 116, 101, 110, 116, 45, 76, 101],
          [110, 103, 116, 104, 58, 32, 52, 13, 10, 13, 10, 116, 114, 117],
          [101, 67, 111, 110, 116, 101, 110, 116, 45, 76, 101, 110, 103, 116, 104, 58, 32, 52, 13, 10, 13, 10,
            110, 117, 108, 108]] =
        (⟨[], true⟩, [.body (Json.write (.bool true)), .body (Json.write .null)]) :=
  ⟨rfl, by decide, wire_read_back.2 Link.fresh rfl [.bool true, .null] _ (by decide)⟩

end DapBridge
