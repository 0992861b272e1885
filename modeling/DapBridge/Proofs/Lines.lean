import Mathlib.Data.List.Induction
import DapBridge.Proofs.Utf8
import DapBridge.Ipc.Line

/-!
# Text lines read back from any chunking

In text framing the probe writes one message per line. The receiver's `LineDecoder` gets the
UTF-8 bytes in chunks cut anywhere, decodes them with the chunked decoder of `Utf8.Stream`, and
keeps the text after the last line feed as its partial line.

The lines of a text are its pieces between line feeds: `Lines.ended` those a line feed ends,
`Lines.openLine` what follows the last one. Both come from `List.splitOn`, and everything here
rests on one equation for a text that grows (`Lines.splitOn_append`): the lines already ended
stay, and the open line grows with the new text. `splitLines` of a text of scalar values is
these lines (`Lines.splitLines_ofChars`).

`Lines.Read` is what a decoder shows once it has received a beginning of the UTF-8 of a text:
the chunked decoder has read it (`Utf8.Stream.Reads`), the partial line is the open line of the
characters decoded so far, and the messages so far are those of their ended lines. Each push
keeps it (`Lines.Read.push`).

`lines_read_back` puts it together over every text and every chunking of its bytes: the
messages are those of the ended lines of the whole text, in order, whatever the chunks. After
each push `pending` is the number of bytes since the last line feed less the bytes of a
character that the chunk boundary cut, which the chunked decoder holds and `pending` does not
count: one byte of a two-byte character is a whole byte since the last line feed, with
`pending` zero (`Lines.pending_misses_cut_character`).
-/

namespace DapBridge

namespace Lines

/-! ## Lines of a text -/

/-- The lines a line feed ends, without it. -/
def ended (cs : List Char) : List (List Char) := (cs.splitOn '\n').dropLast

/-- What follows the last line feed. -/
def openLine (cs : List Char) : List Char := (cs.splitOn '\n').getLast?.getD []

theorem splitOn_eq (cs : List Char) : cs.splitOn '\n' = ended cs ++ [openLine cs] := by
  have hne := List.splitOn_ne_nil '\n' cs
  rw [ended, openLine, List.getLast?_eq_some_getLast hne, Option.getD_some, List.dropLast_concat_getLast hne]

/-- The lines of a text read off a split of it. -/
theorem lines_of_splitOn {cs : List Char} {E : List (List Char)} {o : List Char}
    (h : cs.splitOn '\n' = E ++ [o]) : ended cs = E ∧ openLine cs = o := by
  rw [splitOn_eq] at h
  obtain ⟨h1, h2⟩ := List.append_inj' h rfl
  exact ⟨h1, List.singleton_inj.1 h2⟩

@[simp] theorem ended_nil : ended [] = [] := rfl

@[simp] theorem openLine_nil : openLine [] = [] := rfl

/-- No line holds a line feed. -/
theorem lf_not_mem_of_mem_splitOn {cs l : List Char} (h : l ∈ cs.splitOn '\n') : '\n' ∉ l := by
  induction cs generalizing l with
  | nil =>
    rw [List.splitOn_nil, List.mem_singleton] at h
    simp [h]
  | cons x cs ih =>
    rw [List.splitOn_cons_eq_if_modifyHead] at h
    split at h
    · rcases List.mem_cons.1 h with rfl | h
      · simp
      · exact ih h
    · next hx =>
      obtain ⟨r, rs, hr⟩ := List.exists_cons_of_ne_nil (List.splitOn_ne_nil '\n' cs)
      rw [hr, List.modifyHead_cons] at h
      rcases List.mem_cons.1 h with rfl | h
      · have hx' : x ≠ '\n' := by simpa using hx
        have hr' : '\n' ∉ r := ih (hr ▸ List.mem_cons_self ..)
        simp [Ne.symm hx', hr']
      · exact ih (hr ▸ List.mem_cons_of_mem _ h)

theorem lf_not_mem_openLine (cs : List Char) : '\n' ∉ openLine cs := by
  have h : openLine cs ∈ cs.splitOn '\n' := by rw [splitOn_eq]; simp
  exact lf_not_mem_of_mem_splitOn h

/-- Text appended to a text: the lines it ended stay, and its open line runs on into the new
text. -/
theorem splitOn_append (D N : List Char) :
    (D ++ N).splitOn '\n' = ended D ++ (openLine D ++ N).splitOn '\n' := by
  induction D with
  | nil => simp
  | cons x D ih =>
    rw [List.cons_append, List.splitOn_cons_eq_if_modifyHead, ih]
    by_cases hx : x = '\n'
    · -- a line feed first ends an empty line
      subst hx
      have hl : ('\n' :: D).splitOn '\n' = ([] :: ended D) ++ [openLine D] := by
        rw [List.splitOn_cons_eq_if_modifyHead, if_pos (beq_self_eq_true _), splitOn_eq]
        rfl
      obtain ⟨e1, e2⟩ := lines_of_splitOn hl
      rw [if_pos (beq_self_eq_true _), e1, e2]
      rfl
    · -- any other character joins the first line
      have hxb : (x == '\n') = false := by simpa using hx
      have hl : (x :: D).splitOn '\n' = (ended D ++ [openLine D]).modifyHead (List.cons x) := by
        rw [List.splitOn_cons_eq_if_modifyHead, if_neg (by simp [hxb]), splitOn_eq]
      rw [if_neg (by simp [hxb])]
      cases he : ended D with
      | nil =>
        -- no line ended yet: the open line grows at the front
        obtain ⟨e1, e2⟩ := @lines_of_splitOn _ [] _ (by rw [hl, he]; rfl)
        rw [e1, e2, List.nil_append, List.nil_append, List.cons_append,
          List.splitOn_cons_eq_if_modifyHead, if_neg (by simp [hxb])]
      | cons l ls =>
        obtain ⟨e1, e2⟩ := @lines_of_splitOn _ ((x :: l) :: ls) _ (by rw [hl, he]; rfl)
        rw [e1, e2]
        rfl

theorem lines_append (D N : List Char) :
    ended (D ++ N) = ended D ++ ended (openLine D ++ N) ∧ openLine (D ++ N) = openLine (openLine D ++ N) := by
  have h := splitOn_append D N
  rw [splitOn_eq (openLine D ++ N), ← List.append_assoc] at h
  exact lines_of_splitOn h

theorem openLine_append_lf (D : List Char) : openLine (D ++ ['\n']) = [] := by
  simp [openLine, List.splitOn_append_cons_self]

theorem openLine_append_of_ne {c : Char} (hc : c ≠ '\n') (D : List Char) :
    openLine (D ++ [c]) = openLine D ++ [c] := by
  have hno : '\n' ∉ openLine D ++ [c] := by simp [lf_not_mem_openLine D, Ne.symm hc]
  rw [(lines_append D [c]).2, openLine, List.splitOn_eq_singleton hno]
  rfl

/-! ## Lines of a text of scalar values -/

/-- A piece without a line feed in front of a text joins its first line. -/
theorem splitOn_append_of_lf_not_mem {u : List Char} (hu : '\n' ∉ u) (L : List Char) :
    (u ++ L).splitOn '\n' = (L.splitOn '\n').modifyHead (u ++ ·) := by
  induction u with
  | nil => exact (congrFun List.modifyHead_id _).symm
  | cons a u ih =>
    have ha : (a == '\n') = false := by
      simp only [beq_eq_false_iff_ne]; intro h; exact hu (h ▸ List.mem_cons_self ..)
    rw [List.cons_append, List.splitOn_cons_eq_if_modifyHead, if_neg (by simp [ha]),
      ih (fun h => hu (List.mem_cons_of_mem _ h)), List.modifyHead_modifyHead]
    rfl

/-- A text whose characters stand for pieces, a line feed for itself alone and no other
character for a piece with a line feed in it, splits into the pieces of its lines. -/
theorem splitOn_flatMap {g : Char → List Char} (hlf : g '\n' = ['\n']) (hg : ∀ c, c ≠ '\n' → '\n' ∉ g c)
    (cs : List Char) : (cs.flatMap g).splitOn '\n' = (cs.splitOn '\n').map (·.flatMap g) := by
  induction cs with
  | nil => simp
  | cons c cs ih =>
    by_cases hc : c = '\n'
    · subst hc
      rw [List.flatMap_cons, hlf, List.singleton_append, List.splitOn_cons_eq_if_modifyHead,
        if_pos (beq_self_eq_true _), ih, List.splitOn_cons_eq_if_modifyHead, if_pos (beq_self_eq_true _)]
      simp
    · -- the pieces of `c` run into the first line
      rw [List.flatMap_cons, splitOn_append_of_lf_not_mem (hg c hc), ih, List.splitOn_cons_eq_if_modifyHead,
        if_neg (by simpa using hc)]
      obtain ⟨r, rs, hr⟩ := List.exists_cons_of_ne_nil (List.splitOn_ne_nil '\n' cs)
      rw [hr]
      simp

/-- In a `String` of this library a line feed stands for itself... -/
theorem units_lf : (Text.utf16 '\n').map Text.charOfUnit = ['\n'] := by decide

/-- ...and no other character's units hold one. -/
theorem lf_not_mem_units {c : Char} (hc : c ≠ '\n') : '\n' ∉ (Text.utf16 c).map Text.charOfUnit := by
  intro h
  obtain ⟨u, hu, he⟩ := List.mem_map.1 h
  -- only the unit ten stands for a line feed
  have h10 : u.toNat = 10 := by
    have hs := Text.unitsOfChar_charOfUnit u
    rw [he, show Text.unitsOfChar '\n' = [10] by decide, List.singleton_inj] at hs
    rw [← hs]
    rfl
  apply hc
  rw [Text.utf16] at hu
  split at hu
  · next hb =>
    rw [List.mem_singleton] at hu
    have hn : c.toNat = 10 := by rw [← h10, hu, Nat.toUInt16_eq, UInt16.toNat_ofNat']; omega
    exact Char.toNat_inj.1 hn
  · next hb =>
    -- the units of a surrogate pair are at least 0xD800
    have h1 : (0xD800 + (c.toNat - 0x10000) / 0x400).toUInt16.toNat = 0xD800 + (c.toNat - 0x10000) / 0x400 := by
      rw [Nat.toUInt16_eq, UInt16.toNat_ofNat']; have := c.valid; simp only [Char.toNat] at *; omega
    have h2 : (0xDC00 + (c.toNat - 0x10000) % 0x400).toUInt16.toNat = 0xDC00 + (c.toNat - 0x10000) % 0x400 := by
      rw [Nat.toUInt16_eq, UInt16.toNat_ofNat']; omega
    simp only [List.mem_cons, List.not_mem_nil, or_false] at hu
    rcases hu with rfl | rfl
    · omega
    · omega

theorem toList_ofChars (cs : List Char) :
    (Text.ofChars cs).toList = cs.flatMap fun c => (Text.utf16 c).map Text.charOfUnit := by
  rw [Text.ofChars, String.toList_ofList]

/-- The decoder's split of a text of scalar values is the text's lines. -/
theorem splitLines_ofChars (cs : List Char) :
    LineDecoder.splitLines (Text.ofChars cs) = ((ended cs).map Text.ofChars, Text.ofChars (openLine cs)) := by
  rw [LineDecoder.splitLines, toList_ofChars, splitOn_flatMap units_lf (fun _ => lf_not_mem_units), splitOn_eq]
  simp [Text.ofChars]

/-- The messages of the lines a line feed ends. -/
def messages (cs : List Char) : List String := ((ended cs).map Text.ofChars).filterMap lineMessage

@[simp] theorem messages_nil : messages [] = [] := rfl

end Lines

namespace LineDecoder

theorem push_eq (d : LineDecoder) (chunk : List UInt8) : d.push chunk =
    (⟨(splitLines (d.partialLine ++ (d.stream.push chunk).2)).2, (d.stream.push chunk).1⟩,
      (splitLines (d.partialLine ++ (d.stream.push chunk).2)).1.filterMap lineMessage) := rfl

/-- Feed chunks in order: the decoder after them and the messages of all pushes. -/
def feed (d : LineDecoder) : List (List UInt8) → LineDecoder × List String
  | [] => (d, [])
  | c :: cs => (((d.push c).1.feed cs).1, (d.push c).2 ++ ((d.push c).1.feed cs).2)

end LineDecoder

namespace Lines

/-! ## The decoder -/

/-- What a line decoder shows once it has received `p`, a beginning of the UTF-8 of `cs`: the
chunked decoder has read the first `k` characters and holds the bytes of the next one it has,
the partial line is the open line of those `k` characters, and the messages given out are those
of their ended lines. -/
structure Read (cs : List Char) (k : Nat) (p : List UInt8) (d : LineDecoder) (ms : List String) : Prop where
  reads : Utf8.Stream.Reads cs p d.stream k
  partialLine : d.partialLine = Text.ofChars (openLine (cs.take k))
  given : ms = messages (cs.take k)

namespace Read

variable {cs : List Char} {k : Nat} {p : List UInt8} {d : LineDecoder} {ms : List String}

theorem fresh (cs : List Char) : Read cs 0 [] {} [] :=
  ⟨Utf8.Stream.reads_fresh cs, by simp, by simp⟩

/-- One push keeps what the decoder shows: the characters it completes run on from the partial
line, and the lines they end give their messages. -/
theorem push (hd : Read cs k p d ms) {chunk : List UInt8} (hp : p ++ chunk <+: Utf8.encodeChars cs) :
    ∃ k', Read cs k' (p ++ chunk) (d.push chunk).1 (ms ++ (d.push chunk).2) := by
  obtain ⟨k', hk, hr, hout⟩ := Utf8.Stream.reads_push hd.reads hp
  have htake : cs.take k' = cs.take k ++ (cs.take k').drop k := by
    conv => lhs; rw [← List.take_append_drop k (cs.take k')]
    rw [List.take_take, Nat.min_eq_left hk]
  have hlines := lines_append (cs.take k) ((cs.take k').drop k)
  rw [← htake] at hlines
  have hsplit : LineDecoder.splitLines (d.partialLine ++ (d.stream.push chunk).2) =
      ((ended (openLine (cs.take k) ++ (cs.take k').drop k)).map Text.ofChars,
        Text.ofChars (openLine (cs.take k'))) := by
    rw [hd.partialLine, hout, ← Utf8.ofChars_append, splitLines_ofChars, hlines.2]
  refine ⟨k', by rw [LineDecoder.push_eq]; exact hr, by rw [LineDecoder.push_eq, hsplit], ?_⟩
  rw [LineDecoder.push_eq, hsplit, hd.given, messages, messages, hlines.1, List.map_append, List.filterMap_append]

/-- Pushes in order keep what the decoder shows. -/
theorem feed (hd : Read cs k p d ms) {chunks : List (List UInt8)}
    (hp : p ++ chunks.flatten <+: Utf8.encodeChars cs) :
    ∃ k', Read cs k' (p ++ chunks.flatten) (d.feed chunks).1 (ms ++ (d.feed chunks).2) := by
  induction chunks generalizing k p d ms with
  | nil => exact ⟨k, by simpa [LineDecoder.feed] using hd⟩
  | cons c chunks ih =>
    rw [List.flatten_cons, ← List.append_assoc] at hp ⊢
    obtain ⟨k', hd'⟩ := hd.push ((List.prefix_append (p ++ c) _).trans hp)
    obtain ⟨k'', hd''⟩ := ih hd' hp
    exact ⟨k'', by simpa [LineDecoder.feed] using hd''⟩

/-- A fresh decoder fed chunks that begin the UTF-8 of a text shows their reading. -/
theorem feed_fresh {chunks : List (List UInt8)} (hp : chunks.flatten <+: Utf8.encodeChars cs) :
    ∃ k, Read cs k chunks.flatten (LineDecoder.feed {} chunks).1 (LineDecoder.feed {} chunks).2 := by
  obtain ⟨k, hd⟩ := (fresh cs).feed (p := []) (by rwa [List.nil_append])
  rw [List.nil_append, List.nil_append] at hd
  exact ⟨k, hd⟩

end Read

/-! ## Bytes since the last line feed -/

/-- The number of bytes received since the last line feed. -/
def sinceLineFeed (p : List UInt8) : Nat := (p.reverse.takeWhile (· != 10)).length

@[simp] theorem sinceLineFeed_nil : sinceLineFeed [] = 0 := rfl

theorem sinceLineFeed_append_of_not_mem (a : List UInt8) {b : List UInt8} (h : 10 ∉ b) :
    sinceLineFeed (a ++ b) = sinceLineFeed a + b.length := by
  have hb : ∀ x ∈ b.reverse, (x != 10) = true := by
    intro x hx
    simp only [bne_iff_ne, ne_eq]
    rintro rfl
    exact h (List.mem_reverse.1 hx)
  rw [sinceLineFeed, List.reverse_append, List.takeWhile_append_of_pos hb, List.length_append,
    List.length_reverse, sinceLineFeed, Nat.add_comm]

theorem sinceLineFeed_append_lf (a : List UInt8) : sinceLineFeed (a ++ [10]) = 0 := by
  simp [sinceLineFeed]

/-- A line feed is the one byte ten, and no other character's UTF-8 holds that byte. -/
theorem lf_of_mem_encodePoint {c : Char} (h : 10 ∈ Utf8.encodePoint c.toNat) : c = '\n' :=
  Utf8.eq_of_ascii_mem_encodePoint (by decide) h

theorem encodePoint_lf : Utf8.encodePoint '\n'.toNat = [10] := by decide

/-- Among whole characters, the bytes since the last line feed are those of the open line. -/
theorem sinceLineFeed_encodeChars (D : List Char) :
    sinceLineFeed (Utf8.encodeChars D) = (Utf8.encodeChars (openLine D)).length := by
  induction D using List.reverseRecOn with
  | nil => rfl
  | append_singleton D c ih =>
    by_cases hc : c = '\n'
    · subst hc
      rw [openLine_append_lf, Utf8.encodeChars_append, Utf8.encodeChars_cons, encodePoint_lf,
        Utf8.encodeChars_nil, List.append_nil, sinceLineFeed_append_lf]
      rfl
    · have h10 : 10 ∉ Utf8.encodePoint c.toNat := fun h => hc (lf_of_mem_encodePoint h)
      rw [openLine_append_of_ne hc, Utf8.encodeChars_append, Utf8.encodeChars_cons, Utf8.encodeChars_nil,
        List.append_nil, sinceLineFeed_append_of_not_mem _ h10, ih, Utf8.encodeChars_append,
        Utf8.encodeChars_cons, Utf8.encodeChars_nil, List.append_nil, List.length_append]

/-- The bytes held of a character cut short hold no line feed. -/
theorem lf_not_mem_held {cs : List Char} {p : List UInt8} {s : Utf8.Stream} {k : Nat}
    (hr : Utf8.Stream.Reads cs p s k) : 10 ∉ s.held := by
  intro h
  -- the held bytes begin the UTF-8 of a character, which has more bytes after them
  obtain ⟨c, r, -, hcr, -, hpos, -⟩ := hr.held_char (List.ne_nil_of_mem h)
  have hlf : c = '\n' := lf_of_mem_encodePoint (hcr ▸ List.mem_append_left r h)
  have hlen := congrArg List.length hcr
  rw [hlf, encodePoint_lf, List.length_append, List.length_singleton] at hlen
  have := List.length_pos_of_mem h
  omega

namespace Read

variable {cs : List Char} {k : Nat} {p : List UInt8} {d : LineDecoder} {ms : List String}

/-- `pending` and the bytes of a cut character held by the chunked decoder make up the bytes
since the last line feed. -/
theorem pending_add_held (hd : Read cs k p d ms) :
    d.pending + d.stream.held.length = sinceLineFeed p := by
  rw [hd.reads.cut, sinceLineFeed_append_of_not_mem _ (lf_not_mem_held hd.reads), sinceLineFeed_encodeChars,
    LineDecoder.pending, hd.partialLine, Utf8.byteLength_ofChars]

end Read

end Lines

/-- What a receiver shows for the text `cs` whose UTF-8 is fed to a fresh line decoder in
`chunks`. -/
structure LinesBack (cs : List Char) (chunks : List (List UInt8)) : Prop where
  /-- After each push the decoder has given out the messages of the lines ended among the
  characters decoded so far, and `pending` with the held bytes of a cut character makes up the
  bytes since the last line feed. -/
  each : ∀ j ≤ chunks.length, ∃ d ms k, LineDecoder.feed {} (chunks.take j) = (d, ms) ∧
    Lines.Read cs k (chunks.take j).flatten d ms ∧
    d.pending + d.stream.held.length = Lines.sinceLineFeed (chunks.take j).flatten
  /-- In the end the messages are those of every line a line feed ends, in order, nothing is
  held, and `pending` counts the bytes since the last line feed. -/
  whole : ∃ d, LineDecoder.feed {} chunks = (d, Lines.messages cs) ∧ d.stream.held = [] ∧
    d.pending = Lines.sinceLineFeed chunks.flatten

/-- Text lines survive any chunking: for every text of scalar values and every split of its
UTF-8 into chunks, a fresh line decoder fed the chunks in order gives out the messages of the
ended lines of the text, in order; after each push `pending` falls short of the bytes since the
last line feed by exactly the bytes of a character the chunk boundary cut. -/
theorem lines_read_back (cs : List Char) (chunks : List (List UInt8))
    (hc : chunks.flatten = Utf8.encodeChars cs) : LinesBack cs chunks := by
  refine ⟨?_, ?_⟩
  · -- the first `j` chunks begin the text's UTF-8
    intro j _
    have hp : (chunks.take j).flatten <+: Utf8.encodeChars cs :=
      ⟨(chunks.drop j).flatten, by rw [← List.flatten_append, List.take_append_drop, hc]⟩
    obtain ⟨k, hd⟩ := Lines.Read.feed_fresh hp
    exact ⟨_, _, k, rfl, hd, hd.pending_add_held⟩
  · have hp : chunks.flatten <+: Utf8.encodeChars cs := ⟨[], by rw [List.append_nil, hc]⟩
    obtain ⟨k, hd⟩ := Lines.Read.feed_fresh hp
    have hpend := hd.pending_add_held
    rw [hc] at hd
    obtain ⟨hheld, htake⟩ := hd.reads.whole
    refine ⟨_, Prod.ext rfl (by rw [hd.given, htake]), hheld, by rw [hheld] at hpend; simpa using hpend⟩

/-- A two-byte character and a line feed, cut inside the character. -/
theorem lines_read_back_cut :
    ([[0xC3], [0xA9, 0x0A]] : List (List UInt8)).flatten = Utf8.encodeChars ['é', '\n'] ∧
      LinesBack ['é', '\n'] [[0xC3], [0xA9, 0x0A]] :=
  ⟨by decide, lines_read_back _ _ (by decide)⟩

/-- `pending` does not count the bytes of a character a chunk boundary cut: after the first
byte of a two-byte character, one byte has come since the last line feed and `pending` is
zero. -/
theorem Lines.pending_misses_cut_character :
    ([[0xC3], [0xA9, 0x0A]] : List (List UInt8)).flatten = Utf8.encodeChars ['é', '\n'] ∧
      (LineDecoder.feed {} [[0xC3]]).1.pending = 0 ∧ Lines.sinceLineFeed [0xC3] = 1 := by
  -- the chunked decoder holds the lead byte and gives out no text
  have hs : Utf8.Stream.push {} [0xC3] = (⟨[0xC3], 1⟩, "") := by
    have hcut : Utf8.cutTail [0xC3] = (1, 1) := by decide
    rw [Utf8.Stream.push_between _ rfl rfl, Utf8.Stream.tail, if_neg (by decide), hcut]
    simp
  refine ⟨by decide, ?_, by decide⟩
  rw [LineDecoder.feed, LineDecoder.feed, LineDecoder.push_eq, hs]
  decide

end DapBridge
