import EzRouter.Ipc.Registry
import EzRouter.Ipc.Server

/-!
# Frame dispatch and the REGISTER_ACK

`proto_dispatcher.c`.  The kernel is a script: the list of what the coming
calls to `send` on the connection will do.  When the script is used up inside a
call, that call has not returned, and the thread is still in it.
-/

namespace EzRouter

open EzRouter.Foundation

/-- `room n`: the kernel has room for `n` bytes and takes what it is given up
to that; without room, `send` returns zero. -/
inductive SendResult where
  | room (n : Nat)
  | eagain
  | eintr
  | error
  deriving DecidableEq, Repr

def maxRetries : Nat := 8

/-- How far a call to `send_nonblock_retry` has come: the bytes accepted, the
value returned, if it has returned, and the script that is left. -/
structure SendLoop where
  sent : Nat
  ret : Option Int
  script : List SendResult
  deriving DecidableEq, Repr

def sendNonblockRetry (len : Nat) : Nat → Nat → List SendResult → SendLoop
  | sent, _, [] =>
      if sent ≥ len then ⟨sent, some sent, []⟩ else ⟨sent, none, []⟩
  | sent, retries, result :: script =>
      if sent ≥ len then ⟨sent, some sent, result :: script⟩
      else
        match result with
        | .room n =>
            let w := min n (len - sent)
            if w > 0 then sendNonblockRetry len (sent + w) retries script
            else ⟨sent, some (-1), script⟩
        | .eagain =>
            if retries + 1 > maxRetries then ⟨sent, some (-1), script⟩
            else sendNonblockRetry len sent (retries + 1) script
        | .eintr => sendNonblockRetry len sent retries script
        | .error => ⟨sent, some (-1), script⟩

def buildRegisterAckPayload (ok : Bool) (cap : Nat) : Option (List UInt8) :=
  let text :=
    (CStr.lit (if ok then "\x7b\"ok\":true\x7d"
      else "\x7b\"ok\":false\x7d")).bytes
  if text.length ≥ cap then none else some text

def encodeRegisterAck (reqSeq : UInt32) (ok : Bool) : Option (List UInt8) :=
  match buildRegisterAckPayload ok 32 with
  | none => none
  | some pl =>
      let hdr : ProtoFrameHdr :=
        ⟨0, 0, protoRegisterAck, reqSeq, UInt32.ofNat pl.length⟩
      match protoEncode hdr pl (protoHdrSize + 32) with
      | .error _ => none
      | .ok frame => some frame

structure AckSend where
  frame : List UInt8
  sent : Nat
  deriving DecidableEq, Repr

/-- The value returned, unless the call is still in `send`; the ACK, unless it
could not be encoded; and the script that is left. -/
def sendRegisterAck (reqSeq : UInt32) (ok : Bool) (script : List SendResult) :
    Option Int × Option AckSend × List SendResult :=
  match encodeRegisterAck reqSeq ok with
  | none => (some (-1), none, script)
  | some frame =>
      let loop := sendNonblockRetry frame.length 0 0 script
      (loop.ret.map fun ret => if ret < 0 then -1 else 0,
        some ⟨frame, loop.sent⟩, loop.script)

/-- What the dispatcher acts on while it serves one connection.  `clock` gives
the time at which the frame with a given number is handled; `inSend` says that
the thread has not come back from a call to `send`. -/
structure IpcWorld where
  registry : Registry
  clock : Nat → UInt64
  handled : Nat
  script : List SendResult
  acks : List AckSend
  inSend : Bool

def IpcWorld.start (registry : Registry) (clock : Nat → UInt64)
    (script : List SendResult) : IpcWorld where
  registry := registry
  clock := clock
  handled := 0
  script := script
  acks := []
  inSend := false

def IpcWorld.stream (w : IpcWorld) : List UInt8 :=
  w.acks.flatMap fun a => a.frame.take a.sent

def handleRegister (parse : CJsonParser) (clientFd : Int) (w : IpcWorld)
    (frame : ProtoFrame) : IpcWorld :=
  let rc := registryRegister parse w.registry clientFd frame.payload
    (w.clock w.handled)
  let ack := sendRegisterAck frame.hdr.seq (decide (rc.1 = 0)) w.script
  { w with
    registry := rc.2
    handled := w.handled + 1
    script := ack.2.2
    acks := w.acks ++ ack.2.1.toList
    inSend := ack.1.isNone }

def protoDispatch (parse : CJsonParser) (clientFd : Int) (w : IpcWorld)
    (frame : ProtoFrame) : Option Int × IpcWorld :=
  if frame.hdr.cmd = protoRegister then
    let w' := handleRegister parse clientFd w frame
    -- What `send_register_ack` returns is not looked at.
    (if w'.inSend then none else some 0, w')
  else if frame.hdr.cmd = protoHeartbeat then
    let rc := registryUpdateHeartbeat w.registry clientFd (w.clock w.handled)
    (some 0, { w with registry := rc.2, handled := w.handled + 1 })
  else (some 0, { w with handled := w.handled + 1 })

/-- The dispatcher as the receive loop calls it.  A thread that is still in
`send` handles no further frame. -/
def ipcOps (parse : CJsonParser) (clientFd : Int) : ClientOps IpcWorld where
  dispatch w frame :=
    if w.inSend then w else (protoDispatch parse clientFd w frame).2
  unregister w :=
    if w.inSend then w
    else { w with registry := (registryUnregister w.registry clientFd).2 }

theorem sendNonblockRetry_bounds (len sent retries : Nat)
    (script : List SendResult) (h : sent ≤ len) :
    sent ≤ (sendNonblockRetry len sent retries script).sent ∧
      (sendNonblockRetry len sent retries script).sent ≤ len := by
  fun_induction sendNonblockRetry len sent retries script with
  | case4 sent retries script hmore n w hroom ih =>
      obtain ⟨hlo, hhi⟩ := ih (by omega)
      exact ⟨by omega, hhi⟩
  | case7 sent retries script hmore hbudget ih => exact ih h
  | case8 sent retries script hmore ih => exact ih h
  | _ => exact ⟨Nat.le_refl _, h⟩

theorem sendNonblockRetry_pending (len sent retries : Nat)
    (script : List SendResult)
    (h : (sendNonblockRetry len sent retries script).ret = none) :
    (sendNonblockRetry len sent retries script).script = [] := by
  fun_induction sendNonblockRetry len sent retries script with
  | case2 => rfl
  | case4 _ _ _ _ _ _ _ ih => exact ih h
  | case7 _ _ _ _ _ ih => exact ih h
  | case8 _ _ _ _ ih => exact ih h
  | _ => contradiction

end EzRouter
