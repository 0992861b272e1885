import DapBridge.Proofs.Frames
import DapBridge.Proofs.ChannelDelivery

/-!
# A bad frame header, and the frames it takes with it

A stream of binary frames that fit, followed by a header no frame has (`BadHeader`: an unknown
kind, or a length above the largest), is cut into chunks anywhere. The decoder takes the
chunks one by one. Until the header is whole, every push goes through: what it has received is
whole frames and the beginning of the next frame or of the header (`Ahead`, kept by
`Ahead.push`), and it has given out the event payloads of the whole frames. The push of the
chunk that makes the header whole fails with the header's error (`Ahead.push_bad`).
`bad_header_feed` puts the two together.

A push that fails gives out nothing, so the payloads of frames that end in the same chunk as
the bad header are lost, while the same frames are delivered when they end in an earlier
chunk. On the channel bench (`bad_frame_posts`), the messages posted before the channel
finishes with "Bad IPC frame" are the objects among the event payloads of the frames that end
before the chunk that completes the bad header. They are all the event payloads before the
header exactly when the last frame ends before that chunk.
`bad_frame_drops_frame_of_same_chunk` shows a frame lost this way.
-/

namespace DapBridge

/-- A header no frame has: an unknown kind, or a length above the largest a frame may have. -/
def BadHeader (h : List UInt8) : Prop :=
  ∃ k a b c d, h = [k, a, b, c, d] ∧
    (FrameKind.ofCode? k.toNat = none ∨ maxFrameLength < Frame.lengthOf [a, b, c, d])

namespace BadHeader

variable {h : List UInt8}

theorem length (hb : BadHeader h) : h.length = frameHeaderSize := by
  obtain ⟨k, a, b, c, d, rfl, -⟩ := hb
  rfl

/-- A bad header is refused, whatever bytes follow it. -/
theorem unpack (hb : BadHeader h) :
    ∃ e, Frame.unpackHeader h = .error e ∧ ∀ rest, Frame.unpackHeader (h ++ rest) = .error e := by
  obtain ⟨k, a, b, c, d, rfl, hk⟩ := hb
  cases hkind : FrameKind.ofCode? k.toNat with
  | none => exact ⟨.unknownKind k.toNat, by simp [Frame.unpackHeader, hkind], fun _ => by simp [Frame.unpackHeader, hkind]⟩
  | some kind =>
    -- a known kind: the length is the bad part
    have hn : maxFrameLength < Frame.lengthOf [a, b, c, d] := by
      rcases hk with hk | hn
      · rw [hkind] at hk; cases hk
      · exact hn
    refine ⟨.lengthTooLarge (Frame.lengthOf [a, b, c, d]), ?_, fun _ => ?_⟩ <;>
      simp [Frame.unpackHeader, hkind, hn]

end BadHeader

/-- A frame is at least a header long, so there are no more frames than bytes. -/
theorem length_le_wire (gs : List OutFrame) : gs.length ≤ (wire gs).length := by
  induction gs with
  | nil => simp
  | cons g gs ih =>
    have hg := g.length_bytes
    simp only [wire_cons, List.length_append, List.length_cons]
    unfold frameHeaderSize at hg
    omega

namespace FrameDecoder

/-- Whole frames followed by fewer bytes than a header: `split` takes the frames off and leaves
the bytes. -/
theorem split_short_tail {gs : List OutFrame} (hfit : ∀ g ∈ gs, g.Fits) {t : List UInt8}
    (ht : t.length < frameHeaderSize) {fuel : Nat} (hf : gs.length ≤ fuel) :
    split fuel (wire gs ++ t) = .ok (eventTexts gs, commandCount gs, t) := by
  induction gs generalizing fuel with
  | nil =>
    cases fuel with
    | zero => rfl
    | succ fuel =>
      rw [wire_nil, List.nil_append, split.eq_2, if_pos ht]
      rfl
  | cons g gs ih =>
    obtain ⟨fuel, rfl⟩ : ∃ f, fuel = f + 1 := ⟨fuel - 1, by simp at hf; omega⟩
    rw [wire_cons, List.append_assoc, split_frame (hfit g (by simp)),
      ih (fun g' hg' => hfit g' (by simp [hg'])) (by simp at hf; omega)]
    simp only [Except.map]
    rw [← eventTexts_append, ← commandCount_append]
    rfl

/-- Whole frames followed by a bad header: `split` fails with the header's error, given fuel
for one step past the frames. -/
theorem split_bad {gs : List OutFrame} (hfit : ∀ g ∈ gs, g.Fits) {h : List UInt8} {e : FrameError}
    (he : ∀ rest, Frame.unpackHeader (h ++ rest) = .error e) (h5 : h.length = frameHeaderSize)
    (rest : List UInt8) {fuel : Nat} (hf : gs.length < fuel) : split fuel (wire gs ++ (h ++ rest)) = .error e := by
  induction gs generalizing fuel with
  | nil =>
    obtain ⟨fuel, rfl⟩ : ∃ f, fuel = f + 1 := ⟨fuel - 1, by simp at hf; omega⟩
    rw [wire_nil, List.nil_append, split.eq_2, if_neg (by simp [h5]), he rest]
  | cons g gs ih =>
    obtain ⟨fuel, rfl⟩ : ∃ f, fuel = f + 1 := ⟨fuel - 1, by simp at hf; omega⟩
    rw [wire_cons, List.append_assoc, split_frame (hfit g (by simp)),
      ih (fun g' hg' => hfit g' (by simp [hg'])) (by simp at hf; omega)]
    rfl

/-- On a beginning of frames followed by a header, stopping short of the header's end, `split`
takes off the whole frames at the front and leaves the rest, shorter than the next frame. -/
theorem split_ahead {gs : List OutFrame} (hfit : ∀ g ∈ gs, g.Fits) {h : List UInt8}
    (h5 : h.length = frameHeaderSize) {bs : List UInt8} (hp : bs <+: wire gs ++ h)
    (hlt : bs.length < (wire gs ++ h).length) {fuel : Nat} (hf : bs.length ≤ fuel) :
    ∃ k rest, split fuel bs = .ok (eventTexts (gs.take k), commandCount (gs.take k), rest) ∧
      bs = wire (gs.take k) ++ rest ∧ (k < gs.length → rest.length < frameWidth gs k) := by
  rcases List.prefix_or_prefix_of_prefix hp (List.prefix_append (wire gs) h) with hw | ⟨t, rfl⟩
  · obtain ⟨k, rest, hs, he, hwid⟩ := split_wire hfit hw hf
    exact ⟨k, rest, hs, he, fun _ => hwid⟩
  · -- every frame is whole, and fewer bytes than a header follow them
    have ht : t.length < frameHeaderSize := by simp [h5] at hlt; omega
    have hfuel : gs.length ≤ fuel := by
      have := length_le_wire gs
      simp at hf
      omega
    refine ⟨gs.length, t, ?_, by rw [List.take_length], fun hk => absurd hk (Nat.lt_irrefl _)⟩
    rw [List.take_length]
    exact split_short_tail hfit ht hfuel

end FrameDecoder

/-- What a decoder shows once it has received `p`, a beginning of the frames `fs` followed by a
header that stops short of the header's end: the first `k` frames whole and the rest held,
shorter than the next frame, and the event payloads of the whole frames given out. -/
structure Ahead (fs : List OutFrame) (k : Nat) (p : List UInt8) (d : FrameDecoder) (ps : List String) : Prop where
  cut : p = wire (fs.take k) ++ d.held
  short : k < fs.length → d.held.length < frameWidth fs k
  payloads : ps = eventTexts (fs.take k)

namespace Ahead

variable {fs : List OutFrame} {h : List UInt8} {k : Nat} {p : List UInt8} {d : FrameDecoder} {ps : List String}

theorem fresh (fs : List OutFrame) : Ahead fs 0 [] {} [] where
  cut := rfl
  short _ := by
    unfold frameWidth
    cases fs with
    | nil => simp
    | cons f fs =>
      simp only [List.getElem?_cons_zero, Option.map_some, Option.getD_some, OutFrame.length_bytes,
        List.length_nil]
      unfold frameHeaderSize
      omega
  payloads := rfl

/-- The frames not yet whole, and the header, are what the decoder holds and what follows. -/
theorem rest_eq (ha : Ahead fs k p d ps) {q : List UInt8} (hq : p ++ q <+: wire fs ++ h) :
    d.held ++ q <+: wire (fs.drop k) ++ h := by
  have hsplit : wire fs = wire (fs.take k) ++ wire (fs.drop k) := by
    rw [← wire_append, List.take_append_drop]
  rw [ha.cut, hsplit, List.append_assoc, List.append_assoc] at hq
  exact (List.prefix_append_right_inj _).1 hq

/-- One push that stops short of the header's end keeps what the decoder shows. -/
theorem push (hfit : ∀ f ∈ fs, f.Fits) (h5 : h.length = frameHeaderSize) (ha : Ahead fs k p d ps)
    {chunk : List UInt8} (hp : p ++ chunk <+: wire fs ++ h) (hlt : (p ++ chunk).length < (wire fs ++ h).length) :
    ∃ d' new k', d.push chunk = .ok (d', new) ∧ Ahead fs k' (p ++ chunk) d' (ps ++ new) := by
  have hrest := ha.rest_eq hp
  have hlen : (wire fs).length = (wire (fs.take k)).length + (wire (fs.drop k)).length := by
    rw [← List.length_append, ← wire_append, List.take_append_drop]
  have hlt' : (d.held ++ chunk).length < (wire (fs.drop k) ++ h).length := by
    rw [ha.cut] at hlt
    simp only [List.length_append] at hlt ⊢
    omega
  obtain ⟨j, rest, hs, he, hw⟩ :=
    FrameDecoder.split_ahead (fun f hf => hfit f (List.mem_of_mem_drop hf)) h5 hrest hlt' (Nat.le_refl _)
  refine ⟨⟨rest, d.skipped + commandCount ((fs.drop k).take j)⟩, eventTexts ((fs.drop k).take j), k + j,
    by simp only [FrameDecoder.push, hs], ⟨?_, fun hkj => ?_, ?_⟩⟩
  · rw [ha.cut, List.append_assoc, he, List.take_add, wire_append, List.append_assoc]
  · rw [← frameWidth_drop]
    exact hw (by simp; omega)
  · rw [ha.payloads, List.take_add, eventTexts_append]

/-- Pushes that stop short of the header's end keep what the decoder shows, and none fails. -/
theorem feed (hfit : ∀ f ∈ fs, f.Fits) (h5 : h.length = frameHeaderSize) (ha : Ahead fs k p d ps)
    {cs : List (List UInt8)} (hp : p ++ cs.flatten <+: wire fs ++ h)
    (hlt : (p ++ cs.flatten).length < (wire fs ++ h).length) :
    ∃ d' qs k', d.feed cs = .ok (d', qs) ∧ Ahead fs k' (p ++ cs.flatten) d' (ps ++ qs) := by
  induction cs generalizing k p d ps with
  | nil => exact ⟨d, [], k, rfl, by simpa using ha⟩
  | cons c cs ih =>
    rw [List.flatten_cons, ← List.append_assoc] at hp hlt ⊢
    have hlt₁ : (p ++ c).length < (wire fs ++ h).length := by
      simp only [List.length_append] at hlt ⊢
      omega
    obtain ⟨d', new, k', hpush, ha'⟩ := ha.push hfit h5 ((List.prefix_append (p ++ c) _).trans hp) hlt₁
    obtain ⟨d'', qs, k'', hfeed, ha''⟩ := ih ha' hp hlt
    refine ⟨d'', new ++ qs, k'', ?_, by simpa using ha''⟩
    simp only [FrameDecoder.feed, hpush, hfeed]

/-- The push that makes a bad header whole fails with the header's error. -/
theorem push_bad (hfit : ∀ f ∈ fs, f.Fits) {e : FrameError} (he : ∀ rest, Frame.unpackHeader (h ++ rest) = .error e)
    (h5 : h.length = frameHeaderSize) (ha : Ahead fs k p d ps) {chunk : List UInt8}
    (hp : wire fs ++ h <+: p ++ chunk) : d.push chunk = .error e := by
  have hsplit : wire fs = wire (fs.take k) ++ wire (fs.drop k) := by
    rw [← wire_append, List.take_append_drop]
  rw [ha.cut, hsplit, List.append_assoc, List.append_assoc, List.prefix_append_right_inj] at hp
  obtain ⟨more, hmore⟩ := hp
  have hfuel : (fs.drop k).length < (d.held ++ chunk).length := by
    have := length_le_wire (fs.drop k)
    rw [← hmore]
    simp only [List.length_append, h5] at this ⊢
    unfold frameHeaderSize
    omega
  simp only [FrameDecoder.push]
  rw [← hmore, List.append_assoc,
    FrameDecoder.split_bad (fun f hf => hfit f (List.mem_of_mem_drop hf)) he h5 more (by rw [← List.append_assoc, hmore]; exact hfuel)]

end Ahead

/-- Frames that fit, then a bad header, then anything, cut into chunks: the chunks before the
one that makes the header whole decode, giving out the event payloads of the frames that end
within them; the push of that chunk fails with the header's error. -/
theorem bad_header_feed {fs : List OutFrame} (hfit : ∀ f ∈ fs, f.Fits) {h : List UInt8} (hb : BadHeader h)
    (rest : List UInt8) {before : List (List UInt8)} {c : List UInt8} {after : List (List UInt8)}
    (hs : (before ++ c :: after).flatten = wire fs ++ h ++ rest)
    (hbefore : before.flatten.length < (wire fs).length + frameHeaderSize)
    (hc : (wire fs).length + frameHeaderSize ≤ before.flatten.length + c.length) :
    ∃ d k e, FrameDecoder.feed {} before = .ok (d, eventTexts (fs.take k)) ∧
      before.flatten = wire (fs.take k) ++ d.held ∧ (k < fs.length → d.held.length < frameWidth fs k) ∧
      d.push c = .error e ∧ Frame.unpackHeader h = .error e := by
  obtain ⟨e, he, he'⟩ := hb.unpack
  have h5 := hb.length
  rw [List.flatten_append, List.flatten_cons] at hs
  -- the chunks before, and then that one, against the stream
  have hpre : [] ++ before.flatten <+: wire fs ++ h := by
    rw [List.nil_append]
    refine List.prefix_of_prefix_length_le ⟨c ++ after.flatten, by rw [hs]⟩
      ⟨rest, rfl⟩ (by simp only [List.length_append, h5]; omega)
  obtain ⟨d, ps, k, hfeed, ha⟩ := (Ahead.fresh fs).feed hfit h5 hpre
    (by simp only [List.nil_append, List.length_append, h5]; omega)
  rw [List.nil_append, List.nil_append] at ha
  have hbad : wire fs ++ h <+: before.flatten ++ c := by
    refine List.prefix_of_prefix_length_le ⟨rest, rfl⟩ ⟨after.flatten, ?_⟩
      (by simp only [List.length_append, h5]; omega)
    rw [List.append_assoc, hs]
  exact ⟨d, k, e, by rw [hfeed, ha.payloads], ha.cut, ha.short, ha.push_bad hfit he' h5 hbad, he⟩

/-- The bytes before the first frame not whole, shorter than that frame, end before the frames
do. -/
theorem length_lt_wire {fs : List OutFrame} {k : Nat} (hk : k < fs.length) {held : List UInt8}
    (hw : held.length < frameWidth fs k) : (wire (fs.take k)).length + held.length < (wire fs).length := by
  have hsplit : fs = fs.take k ++ fs[k] :: fs.drop (k + 1) := by
    rw [List.getElem_cons_drop, List.take_append_drop]
  have hwidth : frameWidth fs k = fs[k].bytes.length := by
    simp [frameWidth, List.getElem?_eq_getElem hk]
  have hwire : wire fs = wire (fs.take k) ++ (fs[k].bytes ++ wire (fs.drop (k + 1))) := by
    rw [← wire_cons, ← wire_append, ← hsplit]
  have hlen := congrArg List.length hwire
  simp only [List.length_append] at hlen
  omega

namespace Decoder

/-- A binary decoder fed chunks is its frame decoder fed them. -/
theorem feed_binary (d : FrameDecoder) (cs : List (List UInt8)) :
    (Decoder.binary d).feed cs = (d.feed cs).map fun r => (.binary r.1, r.2) := by
  induction cs generalizing d with
  | nil => rfl
  | cons c cs ih =>
    simp only [Decoder.feed, FrameDecoder.feed, Decoder.push]
    cases d.push c with
    | error e => rfl
    | ok r =>
      obtain ⟨d', ps⟩ := r
      simp only [Except.map, ih d']
      cases d'.feed cs <;> rfl

end Decoder

namespace ChannelDelivery

open Act

variable {c s i : Nat} {framing : Framing} {w : World} {R : List (List UInt8)} {P : List Errand}

theorem received_append (w : World) (xs ys : List Call) :
    received c s w (xs ++ ys) = received c s w xs ++ received c s (run c s w xs) ys := by
  induction xs generalizing w with
  | nil => rfl
  | cons x xs ih => simp [received, run, ih]

theorem posted_append (w : World) (xs ys : List Call) :
    posted c s w (xs ++ ys) = posted c s w xs ++ posted c s (run c s w xs) ys := by
  induction xs generalizing w with
  | nil => rfl
  | cons x xs ih => simp [posted, run, ih]

/-- A channel that reads, with its context open, takes chunks that decode one after another:
each is received, and it goes on reading, with the decoder they leave and the context open. -/
theorem take_chunks (h : Inv framing c s i w R P) (hl : (w.channelAt c).loop.isSome)
    (hf : (w.channelAt c).finished = false) (hc : (w.inboxAt i).closed = false) {cs : List (List UInt8)}
    {d : Decoder} {ps : List String} (hfeed : (w.channelAt c).decoder.feed cs = .ok (d, ps)) :
    received c s w (cs.map .chunk) = cs ∧
      Inv framing c s i (run c s w (cs.map .chunk)) (R ++ cs) (P ++ posted c s w (cs.map .chunk)) ∧
      ((run c s w (cs.map .chunk)).channelAt c).loop.isSome ∧ ((run c s w (cs.map .chunk)).channelAt c).finished = false ∧
      ((run c s w (cs.map .chunk)).inboxAt i).closed = false ∧ ((run c s w (cs.map .chunk)).channelAt c).decoder = d := by
  induction cs generalizing w R P ps with
  | nil =>
    simp only [Decoder.feed, Except.ok.injEq, Prod.mk.injEq] at hfeed
    exact ⟨rfl, by simpa [run, posted] using h, hl, hf, hc, hfeed.1⟩
  | cons x xs ih =>
    simp only [Decoder.feed] at hfeed
    cases hpush : (w.channelAt c).decoder.push x with
    | error e => simp [hpush] at hfeed
    | ok r =>
      obtain ⟨d₁, ps₁⟩ := r
      cases hrest : d₁.feed xs with
      | error e => simp [hpush, hrest] at hfeed
      | ok r' =>
        obtain ⟨d₂, qs⟩ := r'
        simp only [hpush, hrest, Except.ok.injEq, Prod.mk.injEq] at hfeed
        obtain ⟨rfl, -⟩ := hfeed
        obtain ⟨hstep, hrecv⟩ := step_chunk_receive h hl hf x
        obtain ⟨ps₀, hfeed₀⟩ := h.decoded hl hf
        obtain ⟨-, -, hc₁, hch₁, -⟩ := Inv.receive_open h (h.running hl hf) hf hfeed₀ hpush hc
        have h₁ := inv_step h (.chunk x)
        rw [hrecv, hstep] at h₁
        -- the channel read a chunk: only its decoder changed, to the one the push left
        obtain ⟨hR, hI, hl', hf', hc', hd'⟩ := ih (w := w.receive c x) h₁ (by rw [hch₁]; exact hl)
          (by rw [hch₁]; exact hf) hc₁ (by rw [hch₁]; exact hrest)
        simp only [List.map_cons, received, run, posted, hrecv, hstep]
        exact ⟨by rw [hR]; rfl, by simpa [List.append_assoc] using hI, hl', hf', hc', hd'⟩

/-- A chunk that cannot be decoded, arriving while the channel reads, is received and finishes
the channel with "Bad IPC frame". -/
theorem take_bad_chunk (h : Inv framing c s i w R P) (hl : (w.channelAt c).loop.isSome)
    (hf : (w.channelAt c).finished = false) {bytes : List UInt8} {e : FrameError}
    (hp : (w.channelAt c).decoder.push bytes = .error e) :
    step c s w (.chunk bytes) = w.finishChan c (some (.transport s!"Bad IPC frame: {e.message}")) ∧
      Call.receives c w (.chunk bytes) = [bytes] := by
  obtain ⟨hstep, hrecv⟩ := step_chunk_receive h hl hf bytes
  refine ⟨?_, hrecv⟩
  rw [hstep]
  simp [World.receive, hf, hp]

/-- A channel that reads with an open context and a fresh binary decoder, having received and
posted nothing, is handed chunks: those the frame decoder takes without failing, then one it
cannot decode, then any others. That chunk finishes the channel with "Bad IPC frame", and what
the chunks post is the JSON objects among the payloads given out before it. -/
theorem bad_chunks_run {w : World} {P : List Errand} (h : Inv .binary c s i w [] P)
    (hl : (w.channelAt c).loop.isSome) (hf : (w.channelAt c).finished = false) (hc : (w.inboxAt i).closed = false)
    (hd : (w.channelAt c).decoder = .binary {}) {before : List (List UInt8)} {d : FrameDecoder} {ps : List String}
    (hfeed : FrameDecoder.feed {} before = .ok (d, ps)) {bytes : List UInt8} {e : FrameError}
    (hpush : d.push bytes = .error e) (after : List (List UInt8)) :
    step c s (run c s w (before.map .chunk)) (.chunk bytes) =
        (run c s w (before.map .chunk)).finishChan c (some (.transport s!"Bad IPC frame: {e.message}")) ∧
      posted c s w ((before ++ bytes :: after).map .chunk) = (World.objects ps).map (.channelMessage c) := by
  -- nothing received, so nothing owed, so nothing posted yet
  obtain rfl : P = [] := List.prefix_nil.1 h.posted
  have hfeed' : (Decoder.binary {}).feed before = .ok (.binary d, ps) := by
    rw [Decoder.feed_binary, hfeed]
    rfl
  obtain ⟨-, h₂, hl₂, hf₂, hc₂, hd₂⟩ := take_chunks h hl hf hc (by rw [hd]; exact hfeed')
  have hpush' : ((run c s w (before.map .chunk)).channelAt c).decoder.push bytes = .error e := by
    rw [hd₂]
    simp [Decoder.push, hpush, Except.map]
  obtain ⟨hstep, hrecv⟩ := take_bad_chunk h₂ hl₂ hf₂ hpush'
  refine ⟨hstep, ?_⟩
  have h₃ := inv_step h₂ (.chunk bytes)
  rw [hrecv, hstep] at h₃
  have hf₃ : (((run c s w (before.map .chunk)).finishChan c
      (some (.transport s!"Bad IPC frame: {e.message}"))).channelAt c).finished = true := by
    rw [World.channelAt_finishChan h₂.valid, hf₂]
    rfl
  have hc₃ : (((run c s w (before.map .chunk)).finishChan c
      (some (.transport s!"Bad IPC frame: {e.message}"))).inboxAt i).closed = false := by
    rw [World.inboxAt_finishChan]
    exact hc₂
  obtain ⟨-, hafter, -⟩ := finished_run h₃ hf₃ (after.map .chunk)
  -- what was owed: the objects of the payloads before the failing chunk
  have hdue : due c .binary (before ++ [bytes]) = (World.objects ps).map (.channelMessage c) := by
    simp only [due, Decoder.fresh]
    rw [Decoder.payloads_append_chunk hfeed' bytes]
    simp [Decoder.push, hpush, Except.map]
  have howed := h₃.owed hc₃
  simp only [List.nil_append] at howed
  rw [List.map_append, List.map_cons, posted_append, posted, hstep, hafter, List.append_nil, howed, hdue]

/-- Malformed binary input on the bench: frames that fit, then a bad header, then anything, cut
into chunks anywhere and handed to the channel once its read loop runs. The frames that end
before the chunk that makes the header whole are the first `k`. That chunk finishes the channel
with "Bad IPC frame" and the header's error. The messages posted on the context over the whole
run are the JSON objects among the event payloads of the first `k` frames, in order. All frames
are among them exactly when the last one ends before that chunk. -/
theorem bad_frame_posts (host : Host) (style : LogStyle) (transport : Option String) {fs : List OutFrame}
    (hfit : ∀ f ∈ fs, f.Fits) {h : List UInt8} (hb : BadHeader h) (rest : List UInt8)
    {before : List (List UInt8)} {c : List UInt8} {after : List (List UInt8)}
    (hs : (before ++ c :: after).flatten = wire fs ++ h ++ rest)
    (hbefore : before.flatten.length < (wire fs).length + frameHeaderSize)
    (hc : (wire fs).length + frameHeaderSize ≤ before.flatten.length + c.length) :
    ∃ k e held, before.flatten = wire (fs.take k) ++ held ∧ (k < fs.length → held.length < frameWidth fs k) ∧
      (fs.take k = fs ↔ (wire fs).length ≤ before.flatten.length) ∧ Frame.unpackHeader h = .error e ∧
      step 0 0 (run 0 0 (bench host style .binary transport true) (.start :: before.map .chunk)) (.chunk c) =
        (run 0 0 (bench host style .binary transport true) (.start :: before.map .chunk)).finishChan 0
          (some (.transport s!"Bad IPC frame: {e.message}")) ∧
      posted 0 0 (bench host style .binary transport true) (.start :: (before ++ c :: after).map .chunk) =
        (World.objects (eventTexts (fs.take k))).map (.channelMessage 0) := by
  obtain ⟨d, k, e, hfeed, hcut, hshort, hpush, he⟩ := bad_header_feed hfit hb rest hs hbefore hc
  -- after the start, the channel reads its stream with a fresh decoder and an open context
  have h₁ := inv_step (inv_bench host style .binary transport true) .start
  obtain ⟨hl₁, hf₁, hd₁, hc₁⟩ := bench_start host style .binary transport
  obtain ⟨hstep, hposted⟩ := bad_chunks_run h₁ hl₁ hf₁ hc₁ hd₁ hfeed hpush after
  rw [run.eq_2]
  refine ⟨k, e, d.held, hcut, hshort, ⟨fun htk => ?_, fun hle => ?_⟩, he, hstep, ?_⟩
  · rw [hcut, htk, List.length_append]
    omega
  · rcases Nat.lt_or_ge k fs.length with hk | hk
    · -- the frame after the first `k` would end past the chunks before
      have := length_lt_wire hk (hshort hk)
      rw [hcut, List.length_append] at hle
      omega
    · exact List.take_of_length_le hk
  · rw [posted, bench_start_posts, List.nil_append, hposted]

/-- The frame `{"a":1}` in a chunk of its own, then a header of kind 9 in the next: the frame is
whole before the header's chunk, so its object is posted. -/
theorem bad_frame_posts_frame_first :
    (∀ f ∈ ([⟨.event, ['{', '"', 'a', '"', ':', '1', '}']⟩] : List OutFrame), f.Fits) ∧ BadHeader [9, 0, 0, 0, 0] ∧
      (([[0x01, 0, 0, 0, 7, 0x7b, 0x22, 0x61, 0x22, 0x3a, 0x31, 0x7d]] : List (List UInt8)) ++ [9, 0, 0, 0, 0] :: []).flatten = wire ([⟨.event, ['{', '"', 'a', '"', ':', '1', '}']⟩] : List OutFrame) ++ [9, 0, 0, 0, 0] ++ [] ∧
      ([[0x01, 0, 0, 0, 7, 0x7b, 0x22, 0x61, 0x22, 0x3a, 0x31, 0x7d]] : List (List UInt8)).flatten.length < (wire ([⟨.event, ['{', '"', 'a', '"', ':', '1', '}']⟩] : List OutFrame)).length + frameHeaderSize ∧
      (wire ([⟨.event, ['{', '"', 'a', '"', ':', '1', '}']⟩] : List OutFrame)).length + frameHeaderSize ≤
        ([[0x01, 0, 0, 0, 7, 0x7b, 0x22, 0x61, 0x22, 0x3a, 0x31, 0x7d]] : List (List UInt8)).flatten.length + ([9, 0, 0, 0, 0] : List UInt8).length ∧
      ∃ k e held, ([[0x01, 0, 0, 0, 7, 0x7b, 0x22, 0x61, 0x22, 0x3a, 0x31, 0x7d]] : List (List UInt8)).flatten = wire (([⟨.event, ['{', '"', 'a', '"', ':', '1', '}']⟩] : List OutFrame).take k) ++ held ∧
        (k < ([⟨.event, ['{', '"', 'a', '"', ':', '1', '}']⟩] : List OutFrame).length → held.length < frameWidth ([⟨.event, ['{', '"', 'a', '"', ':', '1', '}']⟩] : List OutFrame) k) ∧
        (([⟨.event, ['{', '"', 'a', '"', ':', '1', '}']⟩] : List OutFrame).take k = ([⟨.event, ['{', '"', 'a', '"', ':', '1', '}']⟩] : List OutFrame) ↔
          (wire ([⟨.event, ['{', '"', 'a', '"', ':', '1', '}']⟩] : List OutFrame)).length ≤ ([[0x01, 0, 0, 0, 7, 0x7b, 0x22, 0x61, 0x22, 0x3a, 0x31, 0x7d]] : List (List UInt8)).flatten.length) ∧
        Frame.unpackHeader [9, 0, 0, 0, 0] = .error e ∧
        step 0 0 (run 0 0 (bench ⟨0, fun _ => "", Path.hostTree, Validator.standard⟩ .plain .binary none true) (.start :: ([[0x01, 0, 0, 0, 7, 0x7b, 0x22, 0x61, 0x22, 0x3a, 0x31, 0x7d]] : List (List UInt8)).map .chunk))
            (.chunk [9, 0, 0, 0, 0]) =
          (run 0 0 (bench ⟨0, fun _ => "", Path.hostTree, Validator.standard⟩ .plain .binary none true) (.start :: ([[0x01, 0, 0, 0, 7, 0x7b, 0x22, 0x61, 0x22, 0x3a, 0x31, 0x7d]] : List (List UInt8)).map .chunk)).finishChan 0
            (some (.transport s!"Bad IPC frame: {e.message}")) ∧
        posted 0 0 (bench ⟨0, fun _ => "", Path.hostTree, Validator.standard⟩ .plain .binary none true) (.start :: (([[0x01, 0, 0, 0, 7, 0x7b, 0x22, 0x61, 0x22, 0x3a, 0x31, 0x7d]] : List (List UInt8)) ++ [9, 0, 0, 0, 0] :: []).map .chunk) =
          (World.objects (eventTexts (([⟨.event, ['{', '"', 'a', '"', ':', '1', '}']⟩] : List OutFrame).take k))).map (.channelMessage 0) := by
  have hfit : ∀ f ∈ ([⟨.event, ['{', '"', 'a', '"', ':', '1', '}']⟩] : List OutFrame), f.Fits := by decide
  have hb : BadHeader [9, 0, 0, 0, 0] := ⟨9, 0, 0, 0, 0, rfl, .inl rfl⟩
  have hs : (([[0x01, 0, 0, 0, 7, 0x7b, 0x22, 0x61, 0x22, 0x3a, 0x31, 0x7d]] : List (List UInt8)) ++ [9, 0, 0, 0, 0] :: []).flatten = wire ([⟨.event, ['{', '"', 'a', '"', ':', '1', '}']⟩] : List OutFrame) ++ [9, 0, 0, 0, 0] ++ [] := by decide
  have hbefore : ([[0x01, 0, 0, 0, 7, 0x7b, 0x22, 0x61, 0x22, 0x3a, 0x31, 0x7d]] : List (List UInt8)).flatten.length < (wire ([⟨.event, ['{', '"', 'a', '"', ':', '1', '}']⟩] : List OutFrame)).length + frameHeaderSize := by decide
  have hc : (wire ([⟨.event, ['{', '"', 'a', '"', ':', '1', '}']⟩] : List OutFrame)).length + frameHeaderSize ≤
      ([[0x01, 0, 0, 0, 7, 0x7b, 0x22, 0x61, 0x22, 0x3a, 0x31, 0x7d]] : List (List UInt8)).flatten.length + ([9, 0, 0, 0, 0] : List UInt8).length := by decide
  exact ⟨hfit, hb, hs, hbefore, hc, bad_frame_posts ⟨0, fun _ => "", Path.hostTree, Validator.standard⟩ .plain none hfit hb [] hs hbefore hc⟩

/-- The frame `{"a":1}` and a header of kind 9 in one chunk: the push of the chunk fails, so the
frame's object, the one event payload before the header, is never posted. -/
theorem bad_frame_drops_frame_of_same_chunk :
    posted 0 0 (bench ⟨0, fun _ => "", Path.hostTree, Validator.standard⟩ .plain .binary none true)
        [.start, .chunk ([0x01, 0, 0, 0, 7, 0x7b, 0x22, 0x61, 0x22, 0x3a, 0x31, 0x7d] ++ [9, 0, 0, 0, 0])] = [] ∧
      (World.objects (eventTexts ([⟨.event, ['{', '"', 'a', '"', ':', '1', '}']⟩] : List OutFrame))).length = 1 := by
  have h₁ := inv_step (inv_bench ⟨0, fun _ => "", Path.hostTree, Validator.standard⟩ .plain .binary none true) .start
  obtain ⟨hl₁, hf₁, hd₁, hc₁⟩ := bench_start ⟨0, fun _ => "", Path.hostTree, Validator.standard⟩ .plain .binary none
  have hpush : ({} : FrameDecoder).push ([0x01, 0, 0, 0, 7, 0x7b, 0x22, 0x61, 0x22, 0x3a, 0x31, 0x7d] ++ [9, 0, 0, 0, 0]) = .error (.unknownKind 9) := rfl
  obtain ⟨-, hposted⟩ := bad_chunks_run h₁ hl₁ hf₁ hc₁ hd₁
    (show FrameDecoder.feed {} [] = .ok ({}, []) from rfl) hpush []
  refine ⟨?_, by decide +kernel⟩
  rw [posted, bench_start_posts, List.nil_append]
  exact hposted

end ChannelDelivery

end DapBridge
