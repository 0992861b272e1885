import DapBridge.Proofs.EngineFrame
import DapBridge.Proofs.Launching

/-!
# The front end's own steps

`EngineFrame` shows that engine code keeps every `FrontFrame`. The front end's own steps move
the frame, each in a way named here:

* a response written through the codec adds its answer while the wire is open
  (`FrontFrame.write`, `Act.numbered_response`);
* a payload read is answered at once when it is no message, puts a request in flight, and
  is ignored otherwise (`FrontFrame.reading`, `Frontend.handlePayload_frame`); bytes from the
  client read every payload they complete (`Frontend.receive_frame`);
* a served request's continuation answers it, then runs what its result asks for, which may
  close the front end (`Frontend.served_frame`, `FrontFrame.HoldsOrClosing`);
* the end of the client's input and the engine's shutdown close the wire
  (`Frontend.inputEnded_frame`, `Frontend.serverClosed_frame`).

The spec of a request's dispatch says nothing of its failures: the frame has moved on by then.
`Act.Safe` shows that those steps have none (they go through from every world), and
`Act.Safe.triple` then lets their specs promise anything of a failure.
-/

open Std.Do

set_option mvcgen.warning false

namespace DapBridge

/-! ## Steps that go through -/

/-- A spec read at the level of runs: from a world where `P` holds, the run ends as the
postcondition says. -/
theorem Act.run_of_triple {α : Type} {a : Act α} {P : World → Prop} {Q : α → World → Prop}
    {E : Fault → World → Prop}
    (h : ⦃fun w => ⌜P w⌝⦄ a ⦃post⟨fun v w => ⌜Q v w⌝, fun e w => ⌜E e w⌝⟩⦄) {w : World} (hw : P w) :
    match a.run w with
    | .ok v s => Q v s
    | .error e s => E e s := by
  have := h w hw
  simp only [wp, PredTrans.apply] at this
  split at this <;> rename_i heq <;> simp only [EStateM.run] at heq ⊢ <;> rw [heq] <;> exact this

/-- A step whose spec ends where `P` holds, whether it goes through or fails, leaves every
world it starts from there. -/
theorem World.exec_of_spec {a : Act Unit} {Q P : World → Prop}
    (h : ⦃fun w => ⌜Q w⌝⦄ a ⦃post⟨fun _ w => ⌜P w⌝, fun _ w => ⌜P w⌝⟩⦄) {w : World} (hw : Q w) :
    P (w.exec a) := by
  have := Act.run_of_triple h hw
  unfold World.exec
  split <;> simp_all

namespace Act

/-- An action that goes through from every world: it never fails. -/
def Safe {α : Type} (a : Act α) : Prop := Triple (fun _ => True) a fun _ _ => True

variable {α β : Type}

theorem Safe.bind {a : Act α} {f : α → Act β} (ha : a.Safe) (hf : ∀ v, (f v).Safe) : (a >>= f).Safe :=
  Triple.bind ha hf

theorem Safe.pure (v : α) : (Pure.pure v : Act α).Safe := Triple.pure fun _ _ => trivial

theorem Safe.modifyGet (g : World → α × World) : (modifyGet g : Act α).Safe := fun _ _ => ⟨_, _, rfl, trivial⟩

theorem Safe.change (g : World → World) : (change g).Safe := Triple.change fun _ _ => trivial

theorem Safe.get : (MonadState.get : Act World).Safe := fun _ _ => ⟨_, _, rfl, trivial⟩

theorem Safe.set (w : World) : (set w : Act PUnit).Safe := fun _ _ => ⟨_, _, rfl, trivial⟩

theorem Safe.forM {xs : List α} {f : α → Act PUnit} (h : ∀ x, (f x).Safe) : (xs.forM f).Safe := by
  induction xs with
  | nil => exact Safe.pure _
  | cons x xs ih => exact (h x).bind fun _ => ih

theorem attempt_safe (a : Act α) : (attempt a).Safe := by
  intro w _
  rw [run_attempt]
  split <;> exact ⟨_, _, rfl, trivial⟩

/-- A spec of an action that never fails holds whatever its failures would have to meet. -/
theorem Safe.triple {a : Act α} (hs : a.Safe) {P : Assertion (.except Fault (.arg World .pure))}
    {Q : α → Assertion (.except Fault (.arg World .pure))} {E E' : ExceptConds (.except Fault (.arg World .pure))}
    (h : ⦃P⦄ a ⦃(Q, E)⦄) : ⦃P⦄ a ⦃(Q, E')⦄ := by
  intro w hw
  have := h w hw
  obtain ⟨v, w', hr, -⟩ := hs w trivial
  simp only [wp, PredTrans.apply] at this ⊢
  rw [hr] at this ⊢
  exact this

theorem toClient_safe (m : Json) : (toClient m).Safe := by
  unfold toClient
  refine Safe.get.bind fun w => ?_
  split
  · exact Safe.change _
  · exact Safe.pure _

theorem numbered_safe (make : Codec → Json × Codec) : (numbered make).Safe := by
  unfold numbered
  exact Safe.get.bind fun w => (Safe.set _).bind fun _ => toClient_safe _

end Act

/-! ## Responses -/

namespace Codec

/-- The codec's answers: a success response, a failure response and a protocol error response
each give the answer they are written for. -/
theorem response_answers (c : Codec) (req : RequestRef) (body : Option Json) (v : Val) :
    Answers (c.response req body).1 (.served req (.ok v)) := by
  refine ⟨?_, ?_, ?_, fun code h => by simp [Answer.code?] at h⟩ <;>
    simp [Message.response_members, Json.field?, Json.Fields.get?_cons_of_eq, Json.Fields.get?_cons_of_ne,
      Answer.ref, Answer.success]

theorem errorResponse_answers (c : Codec) (req : RequestRef) (message : String) (a : Answer) (hr : a.ref = req)
    (hs : a.success = false) (hc : a.code? = some "ProtocolError") :
    Answers (c.errorResponse req message).1 a := by
  subst hr
  refine ⟨?_, ?_, ?_, fun code h => ?_⟩
  all_goals simp_all [Message.errorResponse_members, Json.field?, Json.Fields.get?_cons_of_eq,
    Json.Fields.get?_cons_of_ne]

theorem failureResponse_answers (c : Codec) (req : RequestRef) (f : Fault) :
    Answers (c.failureResponse req f).1 (.served req (.error f)) := by
  by_cases hf : f.code = "ProtocolError"
  · have he : c.failureResponse req f = c.errorResponse req f.message := by simp [failureResponse, hf]
    rw [he]
    exact errorResponse_answers c req f.message _ rfl rfl (by simp [Answer.code?, hf])
  · refine ⟨?_, ?_, ?_, fun code h => ?_⟩
    all_goals simp_all [Message.failureResponse_members c req f hf, Json.field?, Json.Fields.get?_cons_of_eq,
      Json.Fields.get?_cons_of_ne, Answer.ref, Answer.success, Answer.code?]

/-- Every response carries the counter's value, moves the counter on by one and reads as a
response. -/
theorem response_numbering (req : RequestRef) (body : Option Json) (c : Codec) :
    (c.response req body).1.numField? "seq" = some c.seq ∧ (c.response req body).2.seq = c.seq + 1 ∧
      (c.response req body).1.isResponse = true := by
  obtain ⟨h1, h2⟩ := call_seq c (.response req body)
  refine ⟨h1, congrArg Codec.seq h2, ?_⟩
  simp [Message.response_members, Json.isResponse, Json.strField?, Json.field?, Json.Fields.get?_cons_of_eq,
    Json.Fields.get?_cons_of_ne, Json.getString?, Json.string, Json.getStr?, Message.toString_response]

theorem errorResponse_numbering (req : RequestRef) (message : String) (c : Codec) :
    (c.errorResponse req message).1.numField? "seq" = some c.seq ∧
      (c.errorResponse req message).2.seq = c.seq + 1 ∧ (c.errorResponse req message).1.isResponse = true := by
  obtain ⟨h1, h2⟩ := call_seq c (.errorResponse req message)
  refine ⟨h1, congrArg Codec.seq h2, ?_⟩
  simp [Message.errorResponse_members, Json.isResponse, Json.strField?, Json.field?, Json.Fields.get?_cons_of_eq,
    Json.Fields.get?_cons_of_ne, Json.getString?, Json.string, Json.getStr?, Message.toString_response]

theorem failureResponse_numbering (req : RequestRef) (f : Fault) (c : Codec) :
    (c.failureResponse req f).1.numField? "seq" = some c.seq ∧ (c.failureResponse req f).2.seq = c.seq + 1 ∧
      (c.failureResponse req f).1.isResponse = true := by
  obtain ⟨h1, h2⟩ := call_seq c (.failureResponse req f)
  refine ⟨h1, congrArg Codec.seq h2, ?_⟩
  by_cases hf : f.code = "ProtocolError"
  · have he : c.failureResponse req f = c.errorResponse req f.message := by simp [failureResponse, hf]
    rw [he]
    exact (errorResponse_numbering req f.message c).2.2
  · simp [Message.failureResponse_members c req f hf, Json.isResponse, Json.strField?, Json.field?,
      Json.Fields.get?_cons_of_eq, Json.Fields.get?_cons_of_ne, Json.getString?, Json.string, Json.getStr?,
      Message.toString_response]

end Codec

/-! ## How the front end moves its frame -/

/-- The reference a request is answered under: its sequence number and its command. -/
def Json.requestRef (m : Json) : RequestRef :=
  ⟨(m.numField? "seq").getD 0, ((m.field? "command").bind Json.getStr?).getD (Text.ofString "")⟩

@[simp] theorem Link.receive_isOpen (l : Link) (bytes : List UInt8) : (l.receive bytes).1.isOpen = l.isOpen := by
  unfold Link.receive; split <;> simp_all

namespace FrontFrame

/-- The frame once answer `a` is written: the wire takes it while it is open. -/
def write (fr : FrontFrame) (a : Answer) : FrontFrame :=
  if fr.link.isOpen then { fr with answers := fr.answers ++ [a] } else fr

/-- The frame once the front end has started closing. -/
def close (fr : FrontFrame) : FrontFrame := { fr with closed := true }

/-- The frame once the wire has closed. -/
def closeLink (fr : FrontFrame) : FrontFrame := { fr with link := fr.link.close }

/-- The frame once promise `p` exists. -/
def withPromise (fr : FrontFrame) (p : Nat) : FrontFrame := { fr with promises := max fr.promises (p + 1) }

/-- The frame once request `r` waits for its answer. -/
def serving (fr : FrontFrame) (r : RequestRef) : FrontFrame := { fr with inFlight := r ::ₘ fr.inFlight }

/-- The frame once a payload is read with the frame's validator: nothing changes while the front
end closes, a payload that is no message is answered, a request waits for its answer, anything
else is ignored. -/
def reading (fr : FrontFrame) (payload : String) : FrontFrame :=
  if fr.closed then fr
  else match Message.parse fr.validator payload with
    | .error _ => fr.write (.unreadable payload)
    | .ok m =>
      match m.strField? "type" with
      | some "request" => fr.serving m.requestRef
      | _ => fr

/-- The frame once every arrival of a list is read. -/
def readingAll (fr : FrontFrame) : List Wire.Arrival → FrontFrame
  | [] => fr
  | .body text :: as => (fr.reading text).readingAll as
  | .badHeader _ :: as => fr.readingAll as

/-- The frame once bytes from the client are read: the wire keeps what they leave waiting,
and what they complete is read in order. -/
def receiving (fr : FrontFrame) (bytes : List UInt8) : FrontFrame :=
  ({ fr with link := (fr.link.receive bytes).1 }).readingAll (fr.link.receive bytes).2

/-- The frame once the client's input ends: an open wire closes, and so does the front end. -/
def ending (fr : FrontFrame) : FrontFrame := if fr.link.isOpen then fr.closeLink.close else fr

/-- The frame holds, or holds with the front end closing. -/
def HoldsOrClosing (fr : FrontFrame) (w : World) : Prop := fr.Holds w ∨ fr.close.Holds w

variable {fr : FrontFrame}

@[simp] theorem closed_write (a : Answer) : (fr.write a).closed = fr.closed := by
  unfold write; split <;> rfl

@[simp] theorem closed_reading (payload : String) : (fr.reading payload).closed = fr.closed := by
  unfold reading
  split
  · rfl
  · split
    · simp
    · split <;> rfl

@[simp] theorem validator_write (a : Answer) : (fr.write a).validator = fr.validator := by
  unfold write; split <;> rfl

@[simp] theorem validator_reading (payload : String) : (fr.reading payload).validator = fr.validator := by
  unfold reading
  split
  · rfl
  · split
    · simp
    · split <;> rfl

theorem reading_of_closed (hc : fr.closed = true) (payload : String) : fr.reading payload = fr := by
  simp [reading, hc]

theorem reading_unreadable {payload : String} {e : AdapterError} (hc : fr.closed = false)
    (hp : Message.parse fr.validator payload = .error e) : fr.reading payload = fr.write (.unreadable payload) := by
  simp [reading, hc, hp]

theorem reading_request {payload : String} {m : Json} (hc : fr.closed = false)
    (hp : Message.parse fr.validator payload = .ok m) (ht : m.strField? "type" = some "request") :
    fr.reading payload = fr.serving m.requestRef := by
  simp [reading, hc, hp, ht]

theorem reading_ignored {payload : String} {m : Json} (hc : fr.closed = false)
    (hp : Message.parse fr.validator payload = .ok m) (ht : m.strField? "type" ≠ some "request") :
    fr.reading payload = fr := by
  simp [reading, hc, hp]

variable {w : World}

/-- A step with a spec from one frame to another moves every world of the first into the
second. -/
theorem Holds.exec {fr' : FrontFrame} {a : Act Unit} (ha : ⦃fr.Pre⦄ a ⦃fr'.Post⦄) (h : fr.Holds w) :
    fr'.Holds (w.exec a) :=
  World.exec_of_spec (Q := fr.Holds) (P := fr'.Holds) ha h

theorem Holds.exec_safe {fr' : FrontFrame} {a : Act Unit} (hs : a.Safe)
    (ha : ⦃fr.Pre⦄ a ⦃post⟨fun _ => fr'.Pre, fun _ => ⌜True⌝⟩⦄) (h : fr.Holds w) :
    fr'.Holds (w.exec a) :=
  h.exec (hs.triple ha)

theorem Holds.exec_or {fr' : FrontFrame} {a : Act Unit}
    (ha : ⦃fr.Pre⦄ a ⦃post⟨fun _ w => ⌜fr'.HoldsOrClosing w⌝, fun _ w => ⌜fr'.HoldsOrClosing w⌝⟩⦄)
    (h : fr.Holds w) : fr'.HoldsOrClosing (w.exec a) :=
  World.exec_of_spec (Q := fr.Holds) ha h

theorem Holds.close_of_closed (h : fr.Holds w) (hc : w.server.closed = true) : fr.close.Holds w := by
  obtain ⟨⟨h1, h2, h3⟩, hv⟩ := h
  exact ⟨⟨h1, hc, h3⟩, hv⟩

theorem Holds.close (h : fr.Holds w) : fr.close.Holds { w with server := { w.server with closed := true } } := by
  obtain ⟨⟨h1, -, h3⟩, hv⟩ := h
  exact ⟨⟨h1, rfl, h3⟩, hv⟩

theorem Holds.relink (h : fr.Holds w) (l : Link) (hl : l.isOpen = true → fr.link.isOpen = true) :
    { fr with link := l }.Holds { w with server := { w.server with link := l } } := by
  obtain ⟨⟨h1, h2, h3, h4, h5, h6, h7⟩, hv⟩ := h
  exact ⟨⟨rfl, h2, h3, h4, h5, h6, fun ho => h7 (h1 ▸ hl ho)⟩, hv⟩

theorem Holds.closeLink (h : fr.Holds w) :
    fr.closeLink.Holds { w with server := { w.server with link := w.server.link.close } } := by
  obtain ⟨⟨h1, h2, h3, h4, h5, h6, -⟩, hv⟩ := h
  exact ⟨⟨by rw [h1]; rfl, h2, h3, h4, h5, h6, fun ho => by simp [Link.close] at ho⟩, hv⟩

/-- Fewer promises may be claimed than the loop has made. -/
theorem Holds.of_promises_le (h : fr.Holds w) {n : Nat} (hn : n ≤ fr.promises) :
    { fr with promises := n }.Holds w := by
  obtain ⟨⟨h1, h2, h3, h4, h5, h6⟩, hv⟩ := h
  exact ⟨⟨h1, h2, le_trans hn h3, h4, h5, h6⟩, hv⟩

end FrontFrame

/-! ## The front end's steps

The specs below hold whatever a failure would have to meet (an `E` of their own choice), so
that they compose with specs that say nothing of failures. -/

namespace Act

variable (fr : FrontFrame)

/-- A response written through the codec: numbered in turn, and its answer added to the
frame while the wire is open. It cannot fail. -/
theorem numbered_response (make : Codec → Json × Codec) (a : Answer)
    (hn : ∀ c, (make c).1.numField? "seq" = some c.seq ∧ (make c).2.seq = c.seq + 1 ∧
      (make c).1.isResponse = true)
    (ha : ∀ c, Answers (make c).1 a)
    {E : ExceptConds (.except Fault (.arg World .pure))} :
    ⦃fr.Pre⦄ numbered make ⦃(fun _ => (fr.write a).Pre, E)⦄ := by
  unfold numbered toClient Act.note World.note
  mvcgen
  · rename_i w h ho
    obtain ⟨hm1, hm2, hm3⟩ := hn w.server.codec
    obtain ⟨⟨h1, h2, h3, h4, h5, h6⟩, hv⟩ := h
    have hopen : fr.link.isOpen = true := h1 ▸ ho
    simp only [FrontFrame.pre_down, FrontFrame.write, hopen, if_true]
    refine ⟨⟨h1, h2, h3, h4, ?_, h6.push ho hm1 hm2⟩, hv⟩
    simpa [clientMessages_cons, Note.clientMessage?, hm3] using List.rel_append h5 (.cons (ha w.server.codec) .nil)
  · -- the wire is closed: nothing is written and nothing is answered
    rename_i w h ho
    obtain ⟨⟨h1, h2, h3, h4, h5, h6⟩, hv⟩ := h
    have hopen : fr.link.isOpen = false := by simpa [h1] using ho
    simp only [FrontFrame.pre_down, FrontFrame.write, hopen]
    exact ⟨⟨h1, h2, h3, h4, h5, h6.recode (by simpa using ho) _⟩, hv⟩

theorem await_served {p : Nat} (hp : p < fr.promises) (r : RequestRef)
    {E : ExceptConds (.except Fault (.arg World .pure))} :
    ⦃fr.Pre⦄ await p (.served r) ⦃(fun _ => (fr.serving r).Pre, E)⦄ := by
  unfold await Loop.await
  mvcgen
  rename_i w h
  obtain ⟨⟨h1, h2, h3, h4, h5, h6⟩, hv⟩ := h
  refine ⟨⟨h1, h2, by simpa [FrontFrame.serving] using h3, ?_, h5, h6⟩, hv⟩
  rw [Loop.inFlight_listen, if_pos (by omega), h4]
  simp [FrontFrame.serving, Reaction.servedRef?, Cont.servedRef?, Multiset.singleton_add]

theorem get_any {E : ExceptConds (.except Fault (.arg World .pure))} :
    ⦃fr.Pre⦄ (get : Act World) ⦃(fun _ => fr.Pre, E)⦄ := by
  mvcgen

/-- A look at the world that learns a fact every world of the frame has. -/
theorem get_fact (f : World → Prop) (hf : ∀ w, fr.Holds w → f w) {E : ExceptConds (.except Fault (.arg World .pure))} :
    ⦃fr.Pre⦄ (get : Act World) ⦃(fun w => spred(fr.Pre ∧ ⌜f w⌝), E)⦄ := by
  mvcgen
  rename_i w h
  exact ⟨h, hf w h⟩

theorem spec_of_fact {α : Type} {φ : Prop} {x : Act α} {Q : PostCond α (.except Fault (.arg World .pure))}
    (h : φ → ⦃fr.Pre⦄ x ⦃Q⦄) : ⦃spred(fr.Pre ∧ ⌜φ⌝)⦄ x ⦃Q⦄ := by
  intro w hw
  exact h hw.2 w hw.1

/-- A change of the world that moves every world of one frame into another. -/
theorem change_frame (g : World → World) (fr' : FrontFrame) (hg : ∀ w, fr.Holds w → fr'.Holds (g w))
    {E : ExceptConds (.except Fault (.arg World .pure))} :
    ⦃fr.Pre⦄ change g ⦃(fun _ => fr'.Pre, E)⦄ := by
  mvcgen
  rename_i w h
  exact hg w h

theorem log_any (d : Diagnostic) {E : ExceptConds (.except Fault (.arg World .pure))} :
    ⦃fr.Pre⦄ log d ⦃(fun _ => fr.Pre, E)⦄ := by
  unfold log
  mvcgen
  rename_i s h
  unfold World.log
  split
  · exact ⟨FrontFrame.Sees.note rfl h.1, h.2⟩
  · exact h

end Act

namespace Session

variable (fr : FrontFrame)

theorem fresh_promise {E : ExceptConds (.except Fault (.arg World .pure))} :
    ⦃fr.Pre⦄ Act.fresh ⦃(fun p => (fr.withPromise p).Pre, E)⦄ := by
  unfold Act.fresh
  mvcgen
  rename_i w h _
  obtain ⟨⟨h1, h2, h3, h4, h5, h6⟩, hv⟩ := h
  refine ⟨⟨h1, h2, ?_, by simpa +zetaDelta [FrontFrame.withPromise] using h4, h5, h6⟩, hv⟩
  simp +zetaDelta [FrontFrame.withPromise, Loop.fresh]
  omega

/-- A dispatch makes the promise it returns; what happens to the frame if it fails is left
open, as dispatch never fails (`dispatch_safe`). -/
theorem dispatch_promise (e : Nat) (command : String) (args : Option Json) :
    ⦃fr.Pre⦄ dispatch e command args ⦃post⟨fun p => (fr.withPromise p).Pre, fun _ => ⌜True⌝⟩⦄ := by
  unfold dispatch
  apply Triple.bind _ _ (fresh_promise fr)
  intro p
  -- named, so that `mvcgen` takes the frame as it is instead of unfolding `withPromise`
  generalize hf : fr.withPromise p = fr1
  mvcgen
  all_goals subst hf; assumption

theorem handle_safe (e : Nat) (command : String) (args : Option Json) : (handle e command args).Safe := by
  unfold handle
  refine (Act.Safe.modifyGet _).bind fun p => (Act.attempt_safe _).bind fun r => ?_
  dsimp only
  split <;> exact (Act.Safe.change _).bind fun _ => Act.Safe.pure p

theorem dispatch_safe (e : Nat) (command : String) (args : Option Json) : (dispatch e command args).Safe := by
  unfold dispatch
  refine (Act.Safe.modifyGet _).bind fun p => ?_
  dsimp only
  split
  · exact (Act.Safe.change _).bind fun _ => Act.Safe.pure p
  · exact (handle_safe e command args).bind fun q => (Act.Safe.change _).bind fun _ => Act.Safe.pure p

end Session

namespace Frontend

variable (fr : FrontFrame)

@[spec] theorem close_frame : ⦃fr.Pre⦄ close ⦃fr.close.Post⦄ := by
  unfold close
  mvcgen
  · rename_i w h _ hc
    exact FrontFrame.Holds.close_of_closed h hc
  · rename_i w h _ _
    exact FrontFrame.Holds.close h

theorem serverClosed_frame : ⦃fr.Pre⦄ serverClosed ⦃fr.closeLink.Post⦄ := by
  unfold serverClosed
  mvcgen
  rename_i w h
  exact ⟨h.closeLink, rfl⟩

theorem afterResponse_frame (d : Dispatched) :
    ⦃fr.Pre⦄ afterResponse d ⦃post⟨fun _ w => ⌜fr.HoldsOrClosing w⌝, fun _ w => ⌜fr.HoldsOrClosing w⌝⟩⦄ := by
  unfold afterResponse
  mvcgen
  -- a fresh engine keeps the frame; closing moves it to `fr.close`
  all_goals
    try intro _
    first
    | exact .inl ‹_›
    | exact .inr ‹_›

/-- A served request's continuation writes its answer, then runs what the result asks for. -/
theorem served_frame (req : RequestRef) (o : Outcome) :
    ⦃fr.Pre⦄ served req o
      ⦃post⟨fun _ w => ⌜(fr.write (.served req o)).HoldsOrClosing w⌝,
        fun _ w => ⌜(fr.write (.served req o)).HoldsOrClosing w⌝⟩⦄ := by
  unfold served
  cases o with
  | ok v =>
    apply Triple.bind _ _ (Act.numbered_response fr _ _ (Codec.response_numbering req _) fun c =>
      Codec.response_answers c req _ v)
    intro _
    exact afterResponse_frame _ _
  | error f =>
    have hn : ∀ E, ⦃fr.Pre⦄ Act.numbered (·.failureResponse req f)
        ⦃(fun _ => (fr.write (.served req (.error f))).Pre, E)⦄ := fun _ =>
      Act.numbered_response fr _ _ (Codec.failureResponse_numbering req f) fun c =>
        Codec.failureResponse_answers c req f
    dsimp only
    mvcgen [hn, Act.log_any, -Act.log_frame]
    all_goals exact fun h => .inl h

/-- A request dispatched and waited for: it is in flight once its handler has started. -/
theorem dispatch_served (e : Nat) (command : String) (args : Option Json) (r : RequestRef) :
    ⦃fr.Pre⦄ (Session.dispatch e command args >>= fun p => Act.await p (.served r))
      ⦃post⟨fun _ => (fr.serving r).Pre, fun _ => ⌜True⌝⟩⦄ := by
  apply Triple.bind _ _ (Session.dispatch_promise fr e command args)
  intro p
  have hp : p < (fr.withPromise p).promises := by simp [FrontFrame.withPromise]
  apply Triple.entails_wp_of_post (Act.await_served (fr.withPromise p) hp r (E := (fun _ => ⌜True⌝, ())))
  refine ⟨fun _ w h => ?_, ExceptConds.entails.refl _⟩
  -- the promise made is no longer needed in the frame
  have hs : ((fr.withPromise p).serving r).Holds w := h
  exact hs.of_promises_le (by simp [FrontFrame.serving, FrontFrame.withPromise])

theorem serve_frame (m : Json) :
    ⦃fr.Pre⦄ serve m ⦃post⟨fun _ => (fr.serving m.requestRef).Pre, fun _ => ⌜True⌝⟩⦄ := by
  unfold serve
  exact Triple.bind _ _ (Act.get_any fr) fun w => dispatch_served fr _ _ _ _

theorem handlePayload_frame (payload : String) :
    ⦃fr.Pre⦄ handlePayload payload ⦃post⟨fun _ => (fr.reading payload).Pre, fun _ => ⌜True⌝⟩⦄ := by
  have hnum : ∀ message E, ⦃fr.Pre⦄ Act.numbered (·.errorResponse (recoverRequest payload) message)
      ⦃(fun _ => (fr.write (.unreadable payload)).Pre, E)⦄ := fun message _ =>
    Act.numbered_response fr _ _ (Codec.errorResponse_numbering _ message) fun c =>
      Codec.errorResponse_answers c (recoverRequest payload) message (.unreadable payload) rfl rfl rfl
  unfold handlePayload
  mvcgen [serve_frame, hnum]
  · -- the front end is closing: the payload is dropped
    rename_i w h hc
    rw [FrontFrame.pre_down, FrontFrame.reading, if_pos (h.1.2.1 ▸ hc)]
    exact h
  · -- no message: answered at once
    rename_i w h hc e hp _
    intro s hs
    have hcl : fr.closed = false := by simpa [← h.1.2.1] using hc
    -- the payload is read with the host's validator, which is the frame's
    rw [h.2] at hp
    simpa [FrontFrame.reading, hcl, hp] using hs
  · -- a request: in flight
    rename_i w h hc m hp ht _
    intro s hs
    have hcl : fr.closed = false := by simpa [← h.1.2.1] using hc
    rw [h.2] at hp
    simpa [FrontFrame.reading, hcl, hp, ht] using hs
  · -- any other message: ignored
    rename_i w h hc m hp t ht hmt _
    intro s hs
    have hcl : fr.closed = false := by simpa [← h.1.2.1] using hc
    rw [h.2] at hp
    subst hmt
    simp only [FrontFrame.pre_down, FrontFrame.reading, hcl, hp]
    split
    · contradiction
    · exact hs

theorem forM_arrivals_frame (as : List Wire.Arrival) (fr : FrontFrame) :
    ⦃fr.Pre⦄ as.forM (fun
      | .body text => handlePayload text
      | .badHeader text => Act.log (.warning s!"Skipping message without Content-Length: {text}"))
      ⦃post⟨fun _ => (fr.readingAll as).Pre, fun _ => ⌜True⌝⟩⦄ := by
  induction as generalizing fr with
  | nil => simp only [List.forM, FrontFrame.readingAll]; mvcgen
  | cons a as ih =>
    simp only [List.forM]
    cases a with
    | body text => exact Triple.bind _ _ (handlePayload_frame fr text) fun _ => ih _
    | badHeader text => exact Triple.bind _ _ (Act.log_any fr _) fun _ => ih _

theorem receive_frame (bytes : List UInt8) :
    ⦃fr.Pre⦄ receive bytes ⦃post⟨fun _ => (fr.receiving bytes).Pre, fun _ => ⌜True⌝⟩⦄ := by
  unfold receive
  apply Triple.bind _ _ (Act.get_fact fr (fun w => w.server.link = fr.link) fun _ h => h.1.1)
  intro w
  apply Act.spec_of_fact
  intro hw
  rw [hw]
  unfold FrontFrame.receiving
  have hopen := Link.receive_isOpen fr.link bytes
  generalize fr.link.receive bytes = r at hopen ⊢
  obtain ⟨link, as⟩ := r
  dsimp only at hopen ⊢
  refine Triple.bind _ _ (Act.change_frame fr _ { fr with link := link } fun w h => h.relink link ?_) fun _ =>
    forM_arrivals_frame as _
  rw [hopen]
  exact id

theorem inputEnded_frame : ⦃fr.Pre⦄ inputEnded ⦃fr.ending.Post⦄ := by
  unfold inputEnded FrontFrame.ending
  apply Triple.bind _ _ (Act.get_fact fr (fun w => w.server.link = fr.link) fun _ h => h.1.1)
  intro w
  apply Act.spec_of_fact
  intro hw
  rw [hw]
  by_cases ho : fr.link.isOpen = true
  · simp only [ho, Bool.not_true, Bool.false_eq_true, if_true, if_false]
    exact Triple.bind _ _ (Act.change_frame fr _ fr.closeLink fun w h => h.closeLink) fun _ =>
      close_frame fr.closeLink
  · simp only [ho, Bool.not_false, Bool.false_eq_true, if_true, if_false]
    mvcgen

theorem serve_safe (m : Json) : (serve m).Safe := by
  unfold serve
  exact Act.Safe.get.bind fun w => (Session.dispatch_safe _ _ _).bind fun p => Act.Safe.change _

theorem handlePayload_safe (payload : String) : (handlePayload payload).Safe := by
  unfold handlePayload
  refine Act.Safe.get.bind fun w => ?_
  split
  · exact Act.Safe.pure _
  · -- the payload is parsed with the validator of the world read again
    refine Act.Safe.get.bind fun w' => ?_
    split
    · exact Act.numbered_safe _
    · split
      · exact serve_safe _
      · exact Act.Safe.change _

theorem receive_safe (bytes : List UInt8) : (receive bytes).Safe := by
  unfold receive
  refine Act.Safe.get.bind fun w => ?_
  dsimp only
  refine (Act.Safe.change _).bind fun _ => Act.Safe.forM fun a => ?_
  cases a with
  | body text => exact handlePayload_safe text
  | badHeader text => exact Act.Safe.change _

end Frontend

end DapBridge
