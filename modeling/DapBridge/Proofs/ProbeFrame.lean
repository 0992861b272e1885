import DapBridge.Proofs.ClientView

/-!
# The probe link keeps the front end's frame

Pipes, channels, the execution controller and the socket probe never touch the front end:
they write no message to the client, wait on no request's answer and only add promises.
Each function of theirs keeps every `FrontFrame`, by `mvcgen` over the specs of the
primitives (`ClientView`) and of the functions it calls, which come before it here.
-/

open Std.Do

set_option mvcgen.warning false

namespace DapBridge

namespace Act

variable (fr : FrontFrame)

/-! ## Pipes and channels -/

@[spec] theorem pipeWrite_frame (s : Nat) (bytes : List UInt8) : ⦃fr.Pre⦄ pipeWrite s bytes ⦃fr.Post⦄ := by
  unfold pipeWrite; mvcgen

@[spec] theorem destroyPipe_frame (s : Nat) (error : Option String) : ⦃fr.Pre⦄ destroyPipe s error ⦃fr.Post⦄ := by
  unfold destroyPipe; mvcgen

@[spec] theorem closeListener_frame (l : Nat) : ⦃fr.Pre⦄ closeListener l ⦃fr.Post⦄ := by
  unfold closeListener; mvcgen

@[spec] theorem channelWrite_frame (c : Nat) (command : Json) : ⦃fr.Pre⦄ channelWrite c command ⦃fr.Post⦄ := by
  unfold channelWrite failWith; mvcgen

@[spec] theorem announceConnected_frame (c : Nat) : ⦃fr.Pre⦄ announceConnected c ⦃fr.Post⦄ := by
  unfold announceConnected; mvcgen

@[spec] theorem postForSession_frame (e : Nat) (x : Errand) : ⦃fr.Pre⦄ postForSession e x ⦃fr.Post⦄ := by
  unfold postForSession fail; mvcgen

@[spec] theorem finishChannel_frame (c : Nat) (reason : Option AdapterError) : ⦃fr.Pre⦄ finishChannel c reason ⦃fr.Post⦄ := by
  unfold finishChannel; mvcgen

@[spec] theorem disableChannel_frame (c : Nat) : ⦃fr.Pre⦄ disableChannel c ⦃fr.Post⦄ := by
  unfold disableChannel; mvcgen

@[spec] theorem deliver_frame (c : Nat) (payload : String) : ⦃fr.Pre⦄ deliver c payload ⦃fr.Post⦄ := by
  unfold deliver fail; mvcgen

@[spec] theorem channelData_frame (c : Nat) (bytes : List UInt8) : ⦃fr.Pre⦄ channelData c bytes ⦃fr.Post⦄ := by
  unfold channelData; mvcgen

@[spec] theorem readPipe_frame (c s : Nat) : ⦃fr.Pre⦄ readPipe c s ⦃fr.Post⦄ := by
  unfold readPipe; mvcgen

@[spec] theorem runAcceptAndRead_frame (c : Nat) (handler : ChannelHook) : ⦃fr.Pre⦄ runAcceptAndRead c handler ⦃fr.Post⦄ := by
  unfold runAcceptAndRead; mvcgen

@[spec] theorem acceptConnection_frame (l s : Nat) : ⦃fr.Pre⦄ acceptConnection l s ⦃fr.Post⦄ := by
  unfold acceptConnection; mvcgen

@[spec] theorem pipeEvent_frame (s : Nat) (reason : Option AdapterError) : ⦃fr.Pre⦄ pipeEvent s reason ⦃fr.Post⦄ := by
  unfold pipeEvent; mvcgen

/-! ## The execution controller -/

@[spec] theorem takeReaction_frame (cmd : Json) :
    ⦃fr.Pre⦄ takeReaction cmd ⦃fr.Post⦄ := by
  unfold takeReaction; mvcgen

@[spec] theorem probeWrite_frame (e : Nat) (cmd : Json) :
    ⦃fr.Pre⦄ probeWrite e cmd ⦃fr.Post⦄ := by
  unfold probeWrite; mvcgen

@[spec] theorem writeSink_frame (s : Sink) (m : Json) :
    ⦃fr.Pre⦄ writeSink s m ⦃fr.Post⦄ := by
  unfold writeSink; mvcgen

@[spec] theorem stateOf_frame (x : Nat) :
    ⦃fr.Pre⦄ stateOf x ⦃fr.Post⦄ := by
  unfold stateOf; mvcgen

@[spec] theorem setState_frame (x : Nat) (s : ExecState) :
    ⦃fr.Pre⦄ setState x s ⦃fr.Post⦄ := by
  unfold setState; mvcgen

@[spec] theorem requireLive_frame (x : Nat) (operation : String) :
    ⦃fr.Pre⦄ requireLive x operation ⦃fr.Post⦄ := by
  unfold requireLive; mvcgen

@[spec] theorem requireSink_frame (x : Nat) :
    ⦃fr.Pre⦄ requireSink x ⦃fr.Post⦄ := by
  unfold requireSink; mvcgen

@[spec] theorem execStart_frame (x : Nat) :
    ⦃fr.Pre⦄ execStart x ⦃fr.Post⦄ := by
  unfold execStart; mvcgen

@[spec] theorem runAgain_frame (x : Nat) :
    ⦃fr.Pre⦄ runAgain x ⦃fr.Post⦄ := by
  unfold runAgain; mvcgen

@[spec] theorem execSend_frame (x : Nat) (command : String) (args : Option Json) :
    ⦃fr.Pre⦄ execSend x command args ⦃fr.Post⦄ := by
  unfold execSend; mvcgen

@[spec] theorem execContinue_frame (x : Nat) (threadId : Option Json) :
    ⦃fr.Pre⦄ execContinue x threadId ⦃fr.Post⦄ := by
  unfold execContinue; mvcgen

@[spec] theorem execStep_frame (x : Nat) (kind : String) (threadId : Option Json) (extra : List (String × Json)) :
    ⦃fr.Pre⦄ execStep x kind threadId extra ⦃fr.Post⦄ := by
  unfold execStep; mvcgen

@[spec] theorem execPause_frame (x : Nat) (threadId : Option Json) :
    ⦃fr.Pre⦄ execPause x threadId ⦃fr.Post⦄ := by
  unfold execPause; mvcgen

@[spec] theorem execRequest_frame (x : Nat) (command : String) (args : Option Json) (timeout : Option Json) :
    ⦃fr.Pre⦄ execRequest x command args timeout ⦃fr.Post⦄ := by
  unfold execRequest; mvcgen

@[spec] theorem replied_frame (p : Nat) (command : String) (o : Outcome) :
    ⦃fr.Pre⦄ replied p command o ⦃fr.Post⦄ := by
  unfold replied; mvcgen

@[spec] theorem resolveReply_frame (x : Nat) (m : Json) :
    ⦃fr.Pre⦄ resolveReply x m ⦃fr.Post⦄ := by
  unfold resolveReply; mvcgen

@[spec] theorem announceStop_frame (x : Nat) (s : ExecState) :
    ⦃fr.Pre⦄ announceStop x s ⦃fr.Post⦄ := by
  unfold announceStop; mvcgen

@[spec] theorem handleStopped_frame (x : Nat) (reason threadId description : Option Json) :
    ⦃fr.Pre⦄ handleStopped x reason threadId description ⦃fr.Post⦄ := by
  unfold handleStopped; mvcgen

@[spec] theorem waitForStop_frame (x : Nat) (timeout : Option Json) :
    ⦃fr.Pre⦄ waitForStop x timeout ⦃fr.Post⦄ := by
  unfold waitForStop; mvcgen

@[spec] theorem stopTimedOut_frame (x p : Nat) (ms : Json) :
    ⦃fr.Pre⦄ stopTimedOut x p ms ⦃fr.Post⦄ := by
  unfold stopTimedOut; mvcgen

@[spec] theorem announceTermination_frame (x : Nat) :
    ⦃fr.Pre⦄ announceTermination x ⦃fr.Post⦄ := by
  unfold announceTermination; mvcgen

@[spec] theorem markTerminated_frame (x : Nat) :
    ⦃fr.Pre⦄ markTerminated x ⦃fr.Post⦄ := by
  unfold markTerminated; mvcgen

@[spec] theorem execShutdown_frame (x : Nat) (reason : Fault) :
    ⦃fr.Pre⦄ execShutdown x reason ⦃fr.Post⦄ := by
  unfold execShutdown; mvcgen

/-! ## The socket probe -/

@[spec] theorem reach_frame (ep : Endpoint) :
    ⦃fr.Pre⦄ reach ep ⦃fr.Post⦄ := by
  unfold reach; mvcgen

@[spec] theorem socketPair_frame :
    ⦃fr.Pre⦄ socketPair ⦃fr.Post⦄ := by
  unfold socketPair; mvcgen

@[spec] theorem placeProbe_frame (s : Nat) (binary : Bool) :
    ⦃fr.Pre⦄ placeProbe s binary ⦃fr.Post⦄ := by
  unfold placeProbe; mvcgen

@[spec] theorem connectSocket_frame (p : Nat) (ep : Endpoint) :
    ⦃fr.Pre⦄ connectSocket p ep ⦃fr.Post⦄ := by
  unfold connectSocket; mvcgen

@[spec] theorem acceptSocket_frame (l s : Nat) :
    ⦃fr.Pre⦄ acceptSocket l s ⦃fr.Post⦄ := by
  unfold acceptSocket; mvcgen

@[spec] theorem probeSend_frame (s : Nat) (m : Json) :
    ⦃fr.Pre⦄ probeSend s m ⦃fr.Post⦄ := by
  unfold probeSend; mvcgen

@[spec] theorem probeSendBytes_frame (s : Nat) (bytes : List UInt8) :
    ⦃fr.Pre⦄ probeSendBytes s bytes ⦃fr.Post⦄ := by
  unfold probeSendBytes; mvcgen

@[spec] theorem probeTake_frame (s : Nat) (cmd : Json) (how : String × Json) :
    ⦃fr.Pre⦄ probeTake s cmd how ⦃fr.Post⦄ := by
  unfold probeTake; mvcgen

@[spec] theorem probeRead_frame (s : Nat) (bytes : List UInt8) :
    ⦃fr.Pre⦄ probeRead s bytes ⦃fr.Post⦄ := by
  unfold probeRead
  -- left in place, the reader would be unfolded in every match `mvcgen` tries
  generalize Json.read = rd
  mvcgen

@[spec] theorem probeClosed_frame (s : Nat) :
    ⦃fr.Pre⦄ probeClosed s ⦃fr.Post⦄ := by
  unfold probeClosed; mvcgen

@[spec] theorem probeHangUp_frame (s : Nat) :
    ⦃fr.Pre⦄ probeHangUp s ⦃fr.Post⦄ := by
  unfold probeHangUp; mvcgen

end Act

end DapBridge
