import DapBridge.Proofs.Messages
import DapBridge.Proofs.Rounding

/-!
# Sequence numbers of outgoing messages

A codec numbers everything it sends from one counter. `nextSeq` hands out the counter's value
and each of the five builders puts it in its message's `seq`; either way the counter moves on by
one (`Codec.call_seq`). The failure response of a protocol error is built by the error response,
and consumes one number too.

Over any run of calls the numbers handed out are the start, then one more each time
(`Codec.seqs_runCalls`). The counter is a binary64 word, so "one more" is a rounded sum. From a
whole start of at least `-2^53`, while the numbers handed out stay at most `2^53`, the `i`-th call
carries exactly the start plus `i`, and no two calls carry the same number
(`Codec.seq_numbers_exact`). Past `2^53` the sum rounds back (`2^53 + 1` is a tie, and `2^53` is
the even side), so the counter stops and hands out `2^53` again
(`Codec.seq_repeats_past_two_pow_53`).
-/

namespace DapBridge

namespace Codec

/-- A call on a codec that takes a number: `nextSeq` or one of the builders. -/
inductive Call where
  | nextSeq
  | request (command : Text) (args : Option Json)
  | response (req : RequestRef) (body : Option Json)
  | event (event : Text) (body : Option Json)
  | errorResponse (req : RequestRef) (message : String)
  | failureResponse (req : RequestRef) (f : Fault)

/-- What a call gives back: the number itself, or a message. -/
inductive Given where
  | number (n : Double)
  | message (m : Json)

/-- The sequence number a call's answer carries. -/
def Given.seq? : Given → Option Double
  | .number n => some n
  | .message m => (m.field? "seq").bind Json.getNum?

/-- One call: what it gives back and the codec after it. -/
def call (c : Codec) : Call → Given × Codec
  | .nextSeq => (.number c.next.1, c.next.2)
  | .request command args => (.message (c.request command args).1, (c.request command args).2)
  | .response req body => (.message (c.response req body).1, (c.response req body).2)
  | .event event body => (.message (c.event event body).1, (c.event event body).2)
  | .errorResponse req message => (.message (c.errorResponse req message).1, (c.errorResponse req message).2)
  | .failureResponse req f => (.message (c.failureResponse req f).1, (c.failureResponse req f).2)

/-- Calls one after another: what each gave back, and the codec after them. -/
def runCalls (c : Codec) : List Call → List Given × Codec
  | [] => ([], c)
  | x :: xs => ((c.call x).1 :: ((c.call x).2.runCalls xs).1, ((c.call x).2.runCalls xs).2)

/-- A message whose first member is its sequence number carries that number. -/
theorem seq?_message {n : Double} (rest : Json.Fields) : (Given.message (.obj (("seq", .num n) :: rest))).seq? = some n := by
  simp [Given.seq?, Json.field?, Json.Fields.get?_cons_of_eq, Json.getNum?]

/-- Every call carries the counter's value and moves the counter on by one; a failure response
for a protocol error goes through the error response and does the same. -/
theorem call_seq (c : Codec) (x : Call) : (c.call x).1.seq? = some c.seq ∧ (c.call x).2 = ⟨c.seq + 1⟩ := by
  cases x with
  | nextSeq => exact ⟨rfl, rfl⟩
  | request command args =>
    refine ⟨?_, rfl⟩
    simp only [call, Message.request_members, List.cons_append]
    exact seq?_message _
  | response req body =>
    refine ⟨?_, rfl⟩
    simp only [call, Message.response_members, List.cons_append]
    exact seq?_message _
  | event event body =>
    refine ⟨?_, rfl⟩
    simp only [call, Message.event_members, List.cons_append]
    exact seq?_message _
  | errorResponse req message =>
    refine ⟨?_, rfl⟩
    simp only [call, Message.errorResponse_members]
    exact seq?_message _
  | failureResponse req f =>
    by_cases hf : f.code = "ProtocolError"
    · -- the protocol error's response is the error response, with the same counter
      have he : c.failureResponse req f = c.errorResponse req f.message := by
        simp [failureResponse, hf]
      refine ⟨?_, by simp only [call, he]; rfl⟩
      simp only [call, he, Message.errorResponse_members]
      exact seq?_message _
    · refine ⟨?_, by simp only [call, failureResponse, hf, if_false]; rfl⟩
      simp only [call, Message.failureResponse_members c req f hf]
      exact seq?_message _

/-- Over any run, the `i`-th call carries the start moved on `i` times, and the counter ends
moved on once per call. -/
theorem seqs_runCalls (c : Codec) (xs : List Call) :
    (c.runCalls xs).1.map Given.seq? = (List.range xs.length).map (fun i => some ((· + 1)^[i] c.seq)) ∧
      (c.runCalls xs).2.seq = (· + 1)^[xs.length] c.seq := by
  induction xs generalizing c with
  | nil => exact ⟨rfl, rfl⟩
  | cons x xs ih =>
    obtain ⟨hx, hc⟩ := call_seq c x
    obtain ⟨ihs, ihc⟩ := ih (c.call x).2
    rw [hc] at ihs ihc
    refine ⟨?_, by simp only [runCalls, hc, ihc, List.length_cons, Function.iterate_succ_apply]⟩
    simp only [runCalls, List.map_cons, hx, hc, ihs, List.length_cons, List.range_succ_eq_map,
      List.map_map]
    congr 1

end Codec

namespace Double

/-- Counting by one from a whole number of at least `-2^53` gives the whole numbers after it, as
long as the count stays at most `2^53 + 1` (whose word is `2^53`'s). -/
theorem iterate_add_one_ofInt {s : Int} (h₁ : -2 ^ 53 ≤ s) (i : Nat) (h₂ : s + i ≤ 2 ^ 53 + 1) :
    (· + 1)^[i] (ofInt s) = ofInt (s + i) := by
  induction i with
  | zero => simp
  | succ i ih =>
    rw [Function.iterate_succ_apply', ih (by omega), ofInt_add_one (by omega) (by omega)]
    push_cast
    rw [add_assoc]

end Double

namespace Codec

/-- Exact sequence numbers: from any whole start `s` of at least `-2^53`, over any run of calls
whose numbers stay at most `2^53`, the `i`-th call carries exactly `s + i`, no two calls carry
numbers that are equal, and the counter ends at the word of `s` plus the number of calls. -/
theorem seq_numbers_exact (s : Int) (xs : List Call) (h₁ : -2 ^ 53 ≤ s) (h₂ : s + xs.length ≤ 2 ^ 53 + 1) :
    ((Codec.mk (Double.ofInt s)).runCalls xs).1.map Given.seq? =
        (List.range xs.length).map (fun i : Nat => some (Double.ofInt (s + i))) ∧
      (((Codec.mk (Double.ofInt s)).runCalls xs).1.filterMap Given.seq?).Pairwise
        (fun x y => Double.eq x y = false) ∧
      ((Codec.mk (Double.ofInt s)).runCalls xs).2.seq = Double.ofInt (s + xs.length) := by
  obtain ⟨hs, hc⟩ := seqs_runCalls ⟨Double.ofInt s⟩ xs
  have hexact : ∀ i ∈ List.range xs.length, (· + 1)^[i] (Double.ofInt s) = Double.ofInt (s + i) := by
    intro i hi
    exact Double.iterate_add_one_ofInt h₁ i (by rw [List.mem_range] at hi; omega)
  have hmap : ((Codec.mk (Double.ofInt s)).runCalls xs).1.map Given.seq? =
      (List.range xs.length).map (fun i : Nat => some (Double.ofInt (s + i))) := by
    rw [hs]
    exact List.map_congr_left fun i hi => by rw [hexact i hi]
  refine ⟨hmap, ?_, by rw [hc, Double.iterate_add_one_ofInt h₁ _ h₂]⟩
  -- the numbers are the words of `s, s + 1, …`, which differ as numbers
  have hfm : ((Codec.mk (Double.ofInt s)).runCalls xs).1.filterMap Given.seq? =
      (List.range xs.length).map (fun i : Nat => Double.ofInt (s + i)) := by
    simpa [List.filterMap_map] using congrArg (List.filterMap id) hmap
  rw [hfm, List.pairwise_map]
  refine List.nodup_range.imp_of_mem fun hi hj hij => ?_
  rw [List.mem_range] at hi hj
  cases h : Double.eq (Double.ofInt (s + _)) (Double.ofInt (s + _)) with
  | false => rfl
  | true => exact absurd ((Double.eq_ofInt_iff (by omega) (by omega)).1 h) (by omega)

/-- Three calls from `2^53 - 2`: the last one carries `2^53`, the largest number the counter
reaches exactly. -/
theorem seq_numbers_exact_up_to_two_pow_53 :
    -2 ^ 53 ≤ (2 ^ 53 - 2 : Int) ∧
      (2 ^ 53 - 2 : Int) + ([.nextSeq, .event (Text.ofString "output") none, .nextSeq] : List Call).length ≤
        2 ^ 53 + 1 ∧
      ((Codec.mk (Double.ofInt (2 ^ 53 - 2))).runCalls [.nextSeq, .event (Text.ofString "output") none, .nextSeq]).1.map
          Given.seq? =
        (List.range 3).map (fun i : Nat => some (Double.ofInt (2 ^ 53 - 2 + i))) ∧
      (((Codec.mk (Double.ofInt (2 ^ 53 - 2))).runCalls
          [.nextSeq, .event (Text.ofString "output") none, .nextSeq]).1.filterMap Given.seq?).Pairwise
        (fun x y => Double.eq x y = false) ∧
      ((Codec.mk (Double.ofInt (2 ^ 53 - 2))).runCalls [.nextSeq, .event (Text.ofString "output") none, .nextSeq]).2.seq =
        Double.ofInt (2 ^ 53 - 2 + 3) :=
  ⟨by norm_num, by norm_num, seq_numbers_exact _ _ (by norm_num) (by norm_num)⟩

/-- From `2^53` on, the counter no longer moves: two calls carry the same number. -/
theorem seq_repeats_past_two_pow_53 :
    ((Codec.mk (Double.ofNat (2 ^ 53))).runCalls [.nextSeq, .nextSeq]).1.map Given.seq? =
      [some (Double.ofNat (2 ^ 53)), some (Double.ofNat (2 ^ 53))] := by
  have h : Double.ofNat (2 ^ 53) + 1 = Double.ofNat (2 ^ 53) := by decide
  rw [(seqs_runCalls _ _).1]
  show [some (Double.ofNat (2 ^ 53)), some (Double.ofNat (2 ^ 53) + 1)] = _
  rw [h]

end Codec

end DapBridge
