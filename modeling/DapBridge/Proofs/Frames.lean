import Mathlib
import DapBridge.Proofs.Utf8
import DapBridge.Ipc.Frame

/-!
# Binary frames read back from any chunking

A sender packs frames one after another; the receiver's `FrameDecoder` gets the bytes in
chunks cut anywhere: inside a header, inside the length, inside a character of a payload.

An `OutFrame` is a frame as the sender makes it: a kind and a payload text of scalar values,
whose UTF-8 `Frame.pack` frames (`OutFrame.pack_eq`); `unpackHeader` reads the kind and the
payload's byte length back from the first five bytes (`OutFrame.unpackHeader_bytes`).

`FrameDecoder.split_wire` is the core: on any beginning of the packed frames, `split` returns
the event payloads and the number of command frames among the whole frames, and the bytes of
the frame still incomplete. From it each push keeps `Decoded` (`Decoded.push`): what the
decoder has received is some whole frames and a proper beginning of the next one, which it
holds, its payloads so far are the event payloads of the whole frames, and `skipped` counts
their command frames.

`frames_read_back` puts it together over every list of frames that fit and every chunking of
their bytes: no push fails, after each push the decoder holds exactly the incomplete suffix,
and at the end the payloads are the event payloads in order, `skipped` is the number of
command frames and nothing is held.
-/

namespace DapBridge

/-- A frame as a sender makes it: its kind and the scalar values of its payload. -/
structure OutFrame where
  kind : FrameKind
  payload : List Char

namespace OutFrame

/-- The payload as the library's text. -/
def text (f : OutFrame) : String := Text.ofChars f.payload

/-- The kind byte. -/
def kindByte (f : OutFrame) : UInt8 := f.kind.code.toUInt8

/-- The payload fits a frame. -/
def Fits (f : OutFrame) : Prop := Utf8.byteLength f.text ≤ maxFrameLength

instance (f : OutFrame) : Decidable f.Fits := inferInstanceAs (Decidable (_ ≤ _))

/-- The frame's bytes: kind, big-endian length, payload. -/
def bytes (f : OutFrame) : List UInt8 :=
  f.kindByte :: Frame.lengthBytes (Utf8.byteLength f.text) ++ Utf8.encode f.text

theorem pack_eq {f : OutFrame} (h : f.Fits) : Frame.pack f.kindByte (Utf8.encode f.text) = .ok f.bytes := by
  unfold Frame.pack
  rw [if_neg (by unfold Fits Utf8.byteLength at h; omega)]
  rfl

theorem length_bytes (f : OutFrame) : f.bytes.length = frameHeaderSize + Utf8.byteLength f.text := by
  simp [bytes, Frame.lengthBytes, frameHeaderSize, Utf8.byteLength]; omega

end OutFrame

namespace Frame

/-- Four big-endian bytes read back as the length they were written for. -/
theorem lengthOf_lengthBytes {n : Nat} (h : n < 2 ^ 32) : lengthOf (lengthBytes n) = n := by
  have h24 : Nat.pow 2 24 = 16777216 := rfl
  have h16 : Nat.pow 2 16 = 65536 := rfl
  have h8 : Nat.pow 2 8 = 256 := rfl
  simp only [lengthOf, lengthBytes, h24, h16, h8, List.foldl_cons, List.foldl_nil]
  rw [Utf8.toNat_toUInt8 (Nat.mod_lt _ (by decide)), Utf8.toNat_toUInt8 (Nat.mod_lt _ (by decide)),
    Utf8.toNat_toUInt8 (Nat.mod_lt _ (by decide)), Utf8.toNat_toUInt8 (Nat.mod_lt _ (by decide))]
  omega

theorem toNat_kindByte (k : FrameKind) : k.code.toUInt8.toNat = k.code := by
  cases k <;> rfl

theorem ofCode_code (k : FrameKind) : FrameKind.ofCode? k.code = some k := by
  cases k <;> rfl

/-- A header that `pack` wrote, whatever follows it, gives back the kind and the length. -/
theorem unpackHeader_pack {k : FrameKind} {n : Nat} (h : n ≤ maxFrameLength) (rest : List UInt8) :
    unpackHeader (k.code.toUInt8 :: lengthBytes n ++ rest) = .ok (k, n) := by
  have hn : lengthOf (lengthBytes n) = n := lengthOf_lengthBytes (by unfold maxFrameLength at h; omega)
  simp only [lengthBytes, List.cons_append, List.nil_append] at hn ⊢
  unfold unpackHeader
  simp only [toNat_kindByte, ofCode_code, hn, if_neg (show ¬ n > maxFrameLength by omega)]

end Frame

theorem OutFrame.unpackHeader_bytes {f : OutFrame} (h : f.Fits) :
    Frame.unpackHeader (f.bytes.take frameHeaderSize) = .ok (f.kind, Utf8.byteLength f.text) := by
  have : f.bytes.take frameHeaderSize = f.kindByte :: Frame.lengthBytes (Utf8.byteLength f.text) := by
    simp [OutFrame.bytes, Frame.lengthBytes, frameHeaderSize]
  rw [this, ← List.append_nil (Frame.lengthBytes _), ← List.cons_append]
  exact Frame.unpackHeader_pack h []

/-- Any five bytes or more of a frame's beginning give back its header. -/
theorem OutFrame.unpackHeader_prefix {f : OutFrame} (h : f.Fits) {bs rest : List UInt8}
    (hp : bs <+: f.bytes ++ rest) (h5 : frameHeaderSize ≤ bs.length) :
    Frame.unpackHeader bs = .ok (f.kind, Utf8.byteLength f.text) := by
  obtain ⟨m, hm⟩ : ∃ m, bs.length = m + 5 := ⟨bs.length - 5, by unfold frameHeaderSize at h5; omega⟩
  have htake : (f.bytes ++ rest).take (m + 5) =
      f.kindByte :: Frame.lengthBytes (Utf8.byteLength f.text) ++ (Utf8.encode f.text ++ rest).take m := rfl
  rw [List.prefix_iff_eq_take.1 hp, hm, htake]
  exact Frame.unpackHeader_pack h _

/-! ## Streams of frames -/

/-- The bytes of frames sent one after another. -/
def wire (fs : List OutFrame) : List UInt8 := (fs.map OutFrame.bytes).flatten

/-- The payloads of the event frames, in order. -/
def eventTexts (fs : List OutFrame) : List String := (fs.filter (·.kind = .event)).map OutFrame.text

/-- How many command frames there are. -/
def commandCount (fs : List OutFrame) : Nat := fs.countP (·.kind = .command)

/-- The length of the `k`-th frame, or 1 past the last. -/
def frameWidth (fs : List OutFrame) (k : Nat) : Nat := (fs[k]?.map fun f => f.bytes.length).getD 1

@[simp] theorem wire_nil : wire [] = [] := rfl

@[simp] theorem wire_cons (f : OutFrame) (fs : List OutFrame) : wire (f :: fs) = f.bytes ++ wire fs := rfl

@[simp] theorem wire_append (fs gs : List OutFrame) : wire (fs ++ gs) = wire fs ++ wire gs := by
  simp [wire]

@[simp] theorem eventTexts_append (fs gs : List OutFrame) :
    eventTexts (fs ++ gs) = eventTexts fs ++ eventTexts gs := by
  simp [eventTexts]

@[simp] theorem commandCount_append (fs gs : List OutFrame) :
    commandCount (fs ++ gs) = commandCount fs + commandCount gs := by
  simp [commandCount]

theorem frameWidth_drop (fs : List OutFrame) (k j : Nat) : frameWidth (fs.drop k) j = frameWidth fs (k + j) := by
  simp [frameWidth, List.getElem?_drop]

/-! ## Splitting held bytes into frames -/

namespace FrameDecoder

/-- On a proper beginning of a frame that fits, `split` takes nothing off. -/
theorem split_partial {g : OutFrame} (hg : g.Fits) {bs rest : List UInt8} (h : bs <+: g.bytes ++ rest)
    (hshort : bs.length < g.bytes.length) (fuel : Nat) : split fuel bs = .ok ([], 0, bs) := by
  cases fuel with
  | zero => rfl
  | succ fuel =>
    unfold split
    by_cases h5 : bs.length < frameHeaderSize
    · rw [if_pos h5]
    · -- the header is whole, and it is the first frame's
      have hlen := g.length_bytes
      rw [if_neg h5, OutFrame.unpackHeader_prefix hg h (by omega)]
      simp only []
      rw [if_pos (by omega)]

/-- A whole frame that fits is taken off the front, with its payload if it is an event, and the
rest is split after it. -/
theorem split_frame {g : OutFrame} (hg : g.Fits) (bs : List UInt8) (fuel : Nat) :
    split (fuel + 1) (g.bytes ++ bs) =
      (split fuel bs).map fun r => (eventTexts [g] ++ r.1, commandCount [g] + r.2.1, r.2.2) := by
  have hlen := g.length_bytes
  have hpay : ((g.bytes ++ bs).drop frameHeaderSize).take (Utf8.byteLength g.text) = Utf8.encode g.text := by
    have : (g.bytes ++ bs).drop frameHeaderSize = Utf8.encode g.text ++ bs := rfl
    rw [this]
    exact List.take_left
  have hrest : (g.bytes ++ bs).drop (frameHeaderSize + Utf8.byteLength g.text) = bs := by
    rw [← hlen, List.drop_left]
  have hdec : Utf8.decode (Utf8.encode g.text) = g.text := Utf8.decode_encode_ofChars g.payload
  rw [split.eq_2]
  rw [if_neg (by simp; omega), OutFrame.unpackHeader_prefix hg (List.prefix_refl _) (by simp; omega)]
  simp only []
  rw [if_neg (by simp; omega), hpay, hrest]
  rcases split fuel bs with e | ⟨ps, n, rest⟩
  · rfl
  · cases hk : g.kind <;> simp [Except.map, eventTexts, commandCount, hk, hdec, Nat.add_comm]

/-- On any beginning `bs` of frames that fit, given enough fuel, `split` takes off the whole
frames at the front, with their event payloads and the number of command frames, and leaves
the incomplete rest. -/
theorem split_wire {gs : List OutFrame} (hfit : ∀ g ∈ gs, g.Fits) {bs : List UInt8}
    (h : bs <+: wire gs) {fuel : Nat} (hf : bs.length ≤ fuel) :
    ∃ k rest, split fuel bs = .ok (eventTexts (gs.take k), commandCount (gs.take k), rest) ∧
      bs = wire (gs.take k) ++ rest ∧ rest.length < frameWidth gs k := by
  induction gs generalizing bs fuel with
  | nil =>
    obtain rfl : bs = [] := List.prefix_nil.1 h
    refine ⟨0, [], ?_, rfl, by simp [frameWidth]⟩
    cases fuel <;> rfl
  | cons g gs ih =>
    have hg := hfit g (by simp)
    rw [wire_cons] at h
    by_cases hshort : bs.length < g.bytes.length
    · -- the first frame is not whole: nothing is taken off
      exact ⟨0, bs, split_partial hg h hshort fuel, by simp, by simpa [frameWidth] using hshort⟩
    · -- the first frame is whole: take it off and split the rest
      obtain ⟨bs', rfl, hbs'⟩ : ∃ bs', bs = g.bytes ++ bs' ∧ bs' <+: wire gs := by
        obtain ⟨u, hu⟩ := h
        obtain ⟨v, hv⟩ := List.prefix_of_prefix_length_le (List.prefix_append g.bytes (wire gs)) ⟨u, hu⟩
          (by omega)
        rw [← hv, List.append_assoc, List.append_right_inj] at hu
        exact ⟨v, hv.symm, u, hu⟩
      -- a frame is at least its five header bytes long, so there is fuel for one more
      have hlen := g.length_bytes
      have h5 : frameHeaderSize = 5 := rfl
      rw [List.length_append] at hf
      obtain ⟨fuel, rfl⟩ : ∃ f, fuel = f + 1 := ⟨fuel - 1, by omega⟩
      obtain ⟨k, rest, hs, he, hw⟩ := ih (fun g' hg' => hfit g' (by simp [hg'])) hbs'
        (show bs'.length ≤ fuel by omega)
      refine ⟨k + 1, rest, ?_, by simp [he], by simpa [frameWidth] using hw⟩
      rw [split_frame hg, hs, List.take_succ_cons]
      simp only [Except.map]
      rw [← eventTexts_append, ← commandCount_append]
      rfl

/-- Feed chunks in order; the payloads of all pushes, or the first failure. -/
def feed (d : FrameDecoder) : List (List UInt8) → Except FrameError (FrameDecoder × List String)
  | [] => .ok (d, [])
  | c :: cs =>
    match d.push c with
    | .error e => .error e
    | .ok (d', ps) =>
      match d'.feed cs with
      | .error e => .error e
      | .ok (d'', qs) => .ok (d'', ps ++ qs)

end FrameDecoder

/-- What a decoder shows once it has received `p`, a beginning of the frames `fs`: the first
`k` frames whole and a proper beginning of the next one, which it holds; the payloads it gave
out are the event payloads of the whole frames, and it skipped their command frames. -/
structure Decoded (fs : List OutFrame) (k : Nat) (p : List UInt8) (d : FrameDecoder) (ps : List String) : Prop where
  cut : p = wire (fs.take k) ++ d.held
  short : d.held.length < frameWidth fs k
  payloads : ps = eventTexts (fs.take k)
  skipped : d.skipped = commandCount (fs.take k)

namespace Decoded

variable {fs : List OutFrame} {k : Nat} {p : List UInt8} {d : FrameDecoder} {ps : List String}

theorem fresh (fs : List OutFrame) : Decoded fs 0 [] {} [] := by
  refine ⟨rfl, ?_, rfl, rfl⟩
  unfold frameWidth
  cases fs with
  | nil => simp
  | cons f fs =>
    -- the first frame is at least its header long
    simp only [List.getElem?_cons_zero, Option.map_some, Option.getD_some, OutFrame.length_bytes,
      List.length_nil]
    unfold frameHeaderSize
    omega

/-- One push keeps what the decoder shows: its held bytes and the chunk are split into whole
frames and a new incomplete rest. -/
theorem push (hfit : ∀ f ∈ fs, f.Fits) (hd : Decoded fs k p d ps) {chunk : List UInt8}
    (hp : p ++ chunk <+: wire fs) :
    ∃ d' new k', d.push chunk = .ok (d', new) ∧ Decoded fs k' (p ++ chunk) d' (ps ++ new) := by
  have hsplit : wire fs = wire (fs.take k) ++ wire (fs.drop k) := by
    rw [← wire_append, List.take_append_drop]
  rw [hd.cut, hsplit, List.append_assoc, List.prefix_append_right_inj] at hp
  obtain ⟨j, rest, hs, he, hw⟩ := FrameDecoder.split_wire (fun f hf => hfit f (List.mem_of_mem_drop hf)) hp
    (Nat.le_refl _)
  refine ⟨⟨rest, d.skipped + commandCount ((fs.drop k).take j)⟩, eventTexts ((fs.drop k).take j), k + j,
    by simp only [FrameDecoder.push, hs], ⟨?_, ?_, ?_, ?_⟩⟩
  · rw [hd.cut, List.append_assoc, he, List.take_add, wire_append, List.append_assoc]
  · simpa [frameWidth_drop] using hw
  · rw [hd.payloads, List.take_add, eventTexts_append]
  · simp only [hd.skipped, List.take_add, commandCount_append]

/-- Pushes in order keep what the decoder shows, and none fails. -/
theorem feed (hfit : ∀ f ∈ fs, f.Fits) (hd : Decoded fs k p d ps) {cs : List (List UInt8)}
    (hp : p ++ cs.flatten <+: wire fs) :
    ∃ d' qs k', d.feed cs = .ok (d', qs) ∧ Decoded fs k' (p ++ cs.flatten) d' (ps ++ qs) := by
  induction cs generalizing k p d ps with
  | nil => exact ⟨d, [], k, rfl, by simpa using hd⟩
  | cons c cs ih =>
    rw [List.flatten_cons, ← List.append_assoc] at hp ⊢
    obtain ⟨d', new, k', hpush, hd'⟩ := hd.push hfit ((List.prefix_append (p ++ c) _).trans hp)
    obtain ⟨d'', qs, k'', hfeed, hd''⟩ := ih hd' hp
    refine ⟨d'', new ++ qs, k'', ?_, by simpa using hd''⟩
    simp only [FrameDecoder.feed, hpush, hfeed]

/-- Once every byte is in, every frame is whole and nothing is held. -/
theorem whole (hd : Decoded fs k (wire fs) d ps) :
    d.held = [] ∧ ps = eventTexts fs ∧ d.skipped = commandCount fs := by
  have hk : fs.length ≤ k := by
    apply Nat.le_of_not_lt
    intro hlt
    obtain ⟨f, hf⟩ : ∃ f, fs[k]? = some f := ⟨fs[k], List.getElem?_eq_getElem hlt⟩
    have hsplit : wire fs = wire (fs.take k) ++ wire (fs.drop k) := by
      rw [← wire_append, List.take_append_drop]
    have hdrop := hd.cut
    rw [hsplit, List.append_right_inj] at hdrop
    have hw : frameWidth fs k = f.bytes.length := by simp [frameWidth, hf]
    have hshort := hd.short
    rw [hw, ← hdrop, ← List.getElem_cons_drop (List.getElem?_eq_some_iff.1 hf).1,
      (List.getElem?_eq_some_iff.1 hf).2, wire_cons, List.length_append] at hshort
    omega
  have htake : fs.take k = fs := List.take_of_length_le hk
  have hheld := hd.cut
  rw [htake, ← List.append_nil (wire fs), List.append_assoc, List.append_right_inj, List.nil_append] at hheld
  exact ⟨hheld.symm, by rw [hd.payloads, htake], by rw [hd.skipped, htake]⟩

end Decoded

/-- What a receiver shows for the frames `fs` fed to a fresh decoder in `chunks`. -/
structure ReadBack (fs : List OutFrame) (chunks : List (List UInt8)) : Prop where
  /-- Each frame is the one `pack` writes, and its first five bytes read back as its kind and
  its payload's byte length. -/
  packed : ∀ f ∈ fs, Frame.pack f.kindByte (Utf8.encode f.text) = .ok f.bytes ∧
    Frame.unpackHeader (f.bytes.take frameHeaderSize) = .ok (f.kind, Utf8.byteLength f.text)
  /-- After each push nothing failed, and the decoder holds exactly the bytes after the last
  whole frame. -/
  each : ∀ j ≤ chunks.length, ∃ d ps k, FrameDecoder.feed {} (chunks.take j) = .ok (d, ps) ∧
    Decoded fs k (chunks.take j).flatten d ps ∧
    d.pending = (chunks.take j).flatten.length - (wire (fs.take k)).length
  /-- In the end the payloads are the event payloads in order, the command frames were skipped
  and nothing is held. -/
  whole : ∃ d, FrameDecoder.feed {} chunks = .ok (d, eventTexts fs) ∧ d.skipped = commandCount fs ∧
    d.pending = 0

/-- Binary frames survive any chunking: for every list of frames whose payloads fit and every
split of their packed bytes into chunks, a fresh decoder fed the chunks in order never fails,
holds after each push exactly the incomplete suffix, and returns in all the event payloads in
order, having skipped every command frame. -/
theorem frames_read_back (fs : List OutFrame) (hfit : ∀ f ∈ fs, f.Fits) (chunks : List (List UInt8))
    (hc : chunks.flatten = wire fs) : ReadBack fs chunks := by
  refine ⟨fun f hf => ⟨OutFrame.pack_eq (hfit f hf), OutFrame.unpackHeader_bytes (hfit f hf)⟩, ?_, ?_⟩
  · intro j _
    have hp : [] ++ (chunks.take j).flatten <+: wire fs :=
      ⟨(chunks.drop j).flatten, by rw [List.nil_append, ← List.flatten_append, List.take_append_drop, hc]⟩
    obtain ⟨d, ps, k, hfeed, hd⟩ := (Decoded.fresh fs).feed hfit hp
    rw [List.nil_append] at hd
    refine ⟨d, ps, k, hfeed, by simpa using hd, ?_⟩
    rw [hd.cut, List.length_append]
    simp [FrameDecoder.pending]
  · have hp : [] ++ chunks.flatten <+: wire fs := by rw [hc]; exact List.prefix_refl _
    obtain ⟨d, ps, k, hfeed, hd⟩ := (Decoded.fresh fs).feed hfit hp
    rw [List.nil_append, List.nil_append, hc] at hd
    obtain ⟨hheld, hps, hskip⟩ := hd.whole
    exact ⟨d, by rw [hfeed, hps], hskip, by simp [FrameDecoder.pending, hheld]⟩

/-- Two events around a command whose payload holds a two-byte character, cut inside the first
header and inside that character. -/
theorem frames_read_back_cut :
    (∀ f ∈ ([⟨.event, ['{', '}']⟩, ⟨.command, ['é']⟩, ⟨.event, []⟩] : List OutFrame), f.Fits) ∧
    ([[1, 0, 0], [0, 2, 0x7b, 0x7d, 2, 0, 0, 0, 2, 0xC3], [0xA9, 1, 0, 0, 0, 0]] : List (List UInt8)).flatten =
      wire [⟨.event, ['{', '}']⟩, ⟨.command, ['é']⟩, ⟨.event, []⟩] ∧
    ReadBack [⟨.event, ['{', '}']⟩, ⟨.command, ['é']⟩, ⟨.event, []⟩]
      [[1, 0, 0], [0, 2, 0x7b, 0x7d, 2, 0, 0, 0, 2, 0xC3], [0xA9, 1, 0, 0, 0, 0]] :=
  ⟨by decide, by decide, frames_read_back _ (by decide) _ (by decide)⟩

end DapBridge
