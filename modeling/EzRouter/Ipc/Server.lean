import EzRouter.Foundation.Transition
import EzRouter.Protocol.Codec

/-!
# The IPC receive loop

`handle_client` of `ipc_server.c`.  The connection owns a buffer on the stack;
each `recv` appends to it, the inner loop cuts complete frames off its front
and moves the rest down.  What `proto_dispatch` and `registry_unregister` do is
left open: they act on a `world` that the receive loop passes along and never
looks at, because it ignores what `proto_dispatch` returns.
-/

namespace EzRouter

open EzRouter.Foundation

def ipcRecvBufSize : Nat := protoHdrSize + protoMaxPayload

def sizeSub (a b : Nat) : Nat := (a + 2 ^ 64 - b) % 2 ^ 64

theorem sizeSub_le {a b : Nat} (h : b ≤ a) : sizeSub a b ≤ a - b := by
  unfold sizeSub
  omega

theorem sizeSub_eq {a b : Nat} (h : b ≤ a) (ha : a < 2 ^ 64) :
    sizeSub a b = a - b := by
  unfold sizeSub
  omega

inductive RecvResult where
  | data (bytes : List UInt8)
  | closed
  | eintr
  | error
  deriving DecidableEq, Repr

/-- One turn of the outer loop: `run_state_is_running` says no, or `recv`
returns. -/
inductive ClientInput where
  | stopped
  | recv (result : RecvResult)
  deriving DecidableEq, Repr

inductive CloseCause where
  | shutdown
  | peerClosed
  | recvError
  | decodeError (e : ProtoError)
  | bufferFull
  deriving DecidableEq, Repr

structure ClientConn (σ : Type) where
  buf : Buffer ipcRecvBufSize
  bufLen : Nat
  closed : Option CloseCause
  world : σ

/-- What the loop calls: `proto_dispatch` on a frame, `registry_unregister` at
the end. -/
structure ClientOps (σ : Type) where
  dispatch : σ → ProtoFrame → σ
  unregister : σ → σ

variable {σ : Type}

def ClientConn.accept (buf : Buffer ipcRecvBufSize) (world : σ) :
    ClientConn σ where
  buf := buf
  bufLen := 0
  closed := none
  world := world

def ClientConn.drop (ops : ClientOps σ) (c : ClientConn σ)
    (cause : CloseCause) : ClientConn σ :=
  { c with closed := some cause, world := ops.unregister c.world }

/-- The inner loop.  It ends with the buffer that is left and, after a fatal
verdict, with the error. -/
def decodeLoop (dispatch : σ → ProtoFrame → σ) (buf : Buffer ipcRecvBufSize)
    (bufLen : Nat) (world : σ) :
    Buffer ipcRecvBufSize × Nat × σ × Option ProtoError :=
  match _result : protoDecode (buf.bytes.take bufLen) with
  | .error .incomplete => (buf, bufLen, world, none)
  | .error e => (buf, 0, world, some e)
  | .ok (frame, consumed) =>
      let rest := sizeSub bufLen consumed
      let moved :=
        if consumed < bufLen then buf.write 0 (buf.slice consumed rest) else buf
      decodeLoop dispatch moved rest (dispatch world frame)
termination_by bufLen
decreasing_by
  obtain ⟨-, htotal, hle⟩ := protoDecode_ok _result
  have hpos : 0 < protoHdrSize := by decide
  have hlen : (buf.bytes.take bufLen).length ≤ bufLen :=
    List.length_take_le _ _
  have hsub : sizeSub bufLen consumed ≤ bufLen - consumed :=
    sizeSub_le (by omega)
  omega

def handleClient (ops : ClientOps σ) (c : ClientConn σ) :
    ClientInput → ClientConn σ
  | .stopped => c.drop ops .shutdown
  | .recv .closed => c.drop ops .peerClosed
  | .recv .eintr => c
  | .recv .error => c.drop ops .recvError
  | .recv (.data bytes) =>
      let r := decodeLoop ops.dispatch (c.buf.write c.bufLen bytes)
        ((c.bufLen + bytes.length) % 2 ^ 64) c.world
      let c' := { c with buf := r.1, bufLen := r.2.1, world := r.2.2.1 }
      match r.2.2.2 with
      | some e => c'.drop ops (.decodeError e)
      | none =>
          if c'.bufLen = ipcRecvBufSize then c'.drop ops .bufferFull else c'

/-- `recv` returns at least one byte and no more than it was given room for. -/
def RecvFits (c : ClientConn σ) : ClientInput → Prop
  | .recv (.data bytes) =>
      0 < bytes.length ∧ bytes.length ≤ ipcRecvBufSize - c.bufLen
  | _ => True

def ClientStep (ops : ClientOps σ) (c : ClientConn σ) (input : ClientInput)
    (c' : ClientConn σ) : Prop :=
  c.closed = none ∧ RecvFits c input ∧ c' = handleClient ops c input

/-! ## The inner loop cuts the buffer as the decoder cuts a stream -/

theorem decodeLoop_incomplete {dispatch : σ → ProtoFrame → σ}
    {buf : Buffer ipcRecvBufSize} {bufLen : Nat} {world : σ}
    (h : protoDecode (buf.bytes.take bufLen) = .error .incomplete) :
    decodeLoop dispatch buf bufLen world = (buf, bufLen, world, none) := by
  rw [decodeLoop]
  split <;> simp_all

theorem decodeLoop_fatal {dispatch : σ → ProtoFrame → σ}
    {buf : Buffer ipcRecvBufSize} {bufLen : Nat} {world : σ} {e : ProtoError}
    (h : protoDecode (buf.bytes.take bufLen) = .error e)
    (hne : e ≠ .incomplete) :
    decodeLoop dispatch buf bufLen world = (buf, 0, world, some e) := by
  rw [decodeLoop]
  split <;> simp_all

theorem decodeLoop_frame (dispatch : σ → ProtoFrame → σ) (world : σ)
    {buf : Buffer ipcRecvBufSize} {bufLen : Nat} {frame : ProtoFrame}
    {consumed : Nat} (hlen : bufLen ≤ ipcRecvBufSize)
    (h : protoDecode (buf.bytes.take bufLen) = .ok (frame, consumed)) :
    ∃ buf' : Buffer ipcRecvBufSize,
      buf'.bytes.take (bufLen - consumed) =
        (buf.bytes.take bufLen).drop consumed ∧
      decodeLoop dispatch buf bufLen world =
        decodeLoop dispatch buf' (bufLen - consumed)
          (dispatch world frame) := by
  obtain ⟨-, htotal, hle⟩ := protoDecode_ok h
  have hcap := buf.length_eq
  have htake : (buf.bytes.take bufLen).length = bufLen := by
    simp
    omega
  have hbound : ipcRecvBufSize < 2 ^ 64 := by decide
  have hrest : sizeSub bufLen consumed = bufLen - consumed :=
    sizeSub_eq (by omega) (by omega)
  refine ⟨if consumed < bufLen then
      buf.write 0 (buf.slice consumed (bufLen - consumed)) else buf, ?_, ?_⟩
  · split
    · have hslice : (buf.slice consumed (bufLen - consumed)).length =
          bufLen - consumed := by
        simp [Buffer.slice]
        omega
      have hmoved := Buffer.take_write_zero buf
        (buf.slice consumed (bufLen - consumed)) (by omega)
      rw [hslice] at hmoved
      rw [hmoved, Buffer.slice, List.drop_take]
    · have hall : bufLen - consumed = 0 := by omega
      rw [hall, List.take_zero, List.drop_eq_nil_of_le (by omega)]
  · rw [decodeLoop]
    split
    · simp_all
    · simp_all
    · rename_i frame' consumed' h'
      rw [h] at h'
      cases h'
      rw [hrest]

def LoopResult (r : Buffer ipcRecvBufSize × Nat × σ × Option ProtoError)
    (bufLen : Nat) : Ending UInt8 ProtoError → Prop
  | .tail rest => r.2.2.2 = none ∧ r.2.1 ≤ bufLen ∧ r.1.bytes.take r.2.1 = rest
  | .fatal e => r.2.2.2 = some e

theorem decodeLoop_parse (dispatch : σ → ProtoFrame → σ)
    (buf : Buffer ipcRecvBufSize) (bufLen : Nat) (world : σ)
    (hlen : bufLen ≤ ipcRecvBufSize) :
    (decodeLoop dispatch buf bufLen world).2.2.1 =
        (protoDecoder.parse (buf.bytes.take bufLen)).1.foldl dispatch world ∧
      LoopResult (decodeLoop dispatch buf bufLen world) bufLen
        (protoDecoder.parse (buf.bytes.take bufLen)).2 := by
  induction bufLen using Nat.strong_induction_on generalizing buf world with
  | _ bufLen ih =>
      cases hdecode : protoDecode (buf.bytes.take bufLen) with
      | error e =>
          by_cases he : e = .incomplete
          · subst he
            rw [decodeLoop_incomplete hdecode, Decoder.parse_of_incomplete (by
              simp [protoDecoder, hdecode, ProtoError.verdict])]
            simp [LoopResult]
          · rw [decodeLoop_fatal hdecode he, Decoder.parse_of_fatal (e := e) (by
              cases e <;> simp_all [protoDecoder, ProtoError.verdict])]
            simp [LoopResult]
      | ok result =>
          obtain ⟨frame, consumed⟩ := result
          obtain ⟨-, htotal, hle⟩ := protoDecode_ok hdecode
          have hpos : 0 < protoHdrSize := by decide
          have hle' := List.length_take_le bufLen buf.bytes
          obtain ⟨buf', hrest, hloop⟩ :=
            decodeLoop_frame dispatch world hlen hdecode
          obtain ⟨hworld, hresult⟩ := ih (bufLen - consumed) (by omega) buf'
            (dispatch world frame) (by omega)
          rw [hrest] at hworld hresult
          rw [hloop, Decoder.parse_of_frame (f := frame) (n := consumed) (by
            simp [protoDecoder, hdecode, ProtoError.verdict])]
          refine ⟨hworld, ?_⟩
          revert hresult
          cases (protoDecoder.parse
            ((buf.bytes.take bufLen).drop consumed)).2 with
          | tail rest =>
              rintro ⟨hnone, hshort, htail⟩
              exact ⟨hnone, by omega, htail⟩
          | fatal e => exact id

end EzRouter
