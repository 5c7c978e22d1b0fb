import EzRouter.Foundation.Bytes
import EzRouter.Foundation.Framing

/-!
# The frame codec

`protocol.h` and `proto_codec.c`.  The header is copied to and from the wire
as twelve little-endian bytes.  A pointer with a length is a byte list: the
input of `protoDecode` is the `in_len` bytes at `in_buf`, and the payload it
yields is the `payload_len` bytes at `*payload_out`.
-/

namespace EzRouter

open EzRouter.Foundation

def protoMagic : UInt16 := 0xEB7C

def protoVersion : UInt8 := 1

def protoMaxPayload : Nat := 64 * 1024

def protoHdrSize : Nat := 12

def protoRegister : UInt8 := 0x01
def protoRegisterAck : UInt8 := 0x02
def protoHeartbeat : UInt8 := 0x03

inductive ProtoError where
  | bufTooSmall
  | badMagic
  | badVersion
  | payloadTooLarge
  | incomplete
  deriving DecidableEq, Repr

structure ProtoFrameHdr where
  magic : UInt16
  version : UInt8
  cmd : UInt8
  seq : UInt32
  payloadLen : UInt32
  deriving DecidableEq, Repr

structure ProtoFrame where
  hdr : ProtoFrameHdr
  payload : List UInt8
  deriving DecidableEq, Repr

namespace ProtoFrameHdr

/-- `memcpy(out_buf, &h, PROTO_HDR_SIZE)` on a little-endian host. -/
def toBytes (h : ProtoFrameHdr) : List UInt8 :=
  leBytes 2 h.magic.toNat ++ leBytes 1 h.version.toNat ++
    leBytes 1 h.cmd.toNat ++ leBytes 4 h.seq.toNat ++
    leBytes 4 h.payloadLen.toNat

/-- `memcpy(&h, in_buf, PROTO_HDR_SIZE)` on a little-endian host. -/
def ofBytes (bytes : List UInt8) : ProtoFrameHdr where
  magic := UInt16.ofNat (leNat (bytes.take 2))
  version := UInt8.ofNat (leNat ((bytes.drop 2).take 1))
  cmd := UInt8.ofNat (leNat ((bytes.drop 3).take 1))
  seq := UInt32.ofNat (leNat ((bytes.drop 4).take 4))
  payloadLen := UInt32.ofNat (leNat ((bytes.drop 8).take 4))

@[simp] theorem length_toBytes (h : ProtoFrameHdr) :
    h.toBytes.length = protoHdrSize := by
  simp [toBytes, protoHdrSize]

theorem ofBytes_append {bytes : List UInt8} (more : List UInt8)
    (h : protoHdrSize ≤ bytes.length) :
    ofBytes (bytes ++ more) = ofBytes bytes := by
  have hslice : ∀ offset len, offset + len ≤ 12 →
      ((bytes ++ more).drop offset).take len =
        (bytes.drop offset).take len := by
    intro offset len hle
    unfold protoHdrSize at h
    rw [List.drop_append_of_le_length (by omega),
      List.take_append_of_le_length (by simp; omega)]
  have hmagic := hslice 0 2 (by omega)
  simp only [List.drop_zero] at hmagic
  simp only [ofBytes, hmagic, hslice 2 1 (by omega), hslice 3 1 (by omega),
    hslice 4 4 (by omega), hslice 8 4 (by omega)]

end ProtoFrameHdr

def protoEncode (hdr : ProtoFrameHdr) (payload : List UInt8) (outCap : Nat) :
    Except ProtoError (List UInt8) :=
  if hdr.payloadLen.toNat > protoMaxPayload then .error .payloadTooLarge
  else if outCap < protoHdrSize + hdr.payloadLen.toNat then
    .error .bufTooSmall
  else
    let h := { hdr with magic := protoMagic, version := protoVersion }
    .ok (h.toBytes ++ payload.take hdr.payloadLen.toNat)

/-- On success, the frame and the number of bytes it takes up. -/
def protoDecode (inBuf : List UInt8) : Except ProtoError (ProtoFrame × Nat) :=
  if inBuf.length < protoHdrSize then .error .incomplete
  else
    let h := ProtoFrameHdr.ofBytes inBuf
    if h.magic ≠ protoMagic then .error .badMagic
    else if h.version ≠ protoVersion then .error .badVersion
    else if h.payloadLen.toNat > protoMaxPayload then .error .payloadTooLarge
    else
      let total := protoHdrSize + h.payloadLen.toNat
      if inBuf.length < total then .error .incomplete
      else .ok (⟨h, (inBuf.drop protoHdrSize).take h.payloadLen.toNat⟩, total)

theorem protoDecode_ok {inBuf : List UInt8} {frame : ProtoFrame}
    {total : Nat} (h : protoDecode inBuf = .ok (frame, total)) :
    frame.hdr = .ofBytes inBuf ∧
      total = protoHdrSize + frame.payload.length ∧ total ≤ inBuf.length := by
  unfold protoDecode at h
  dsimp only at h
  split_ifs at h with hshort hmagic hversion hlen htotal
  cases h
  refine ⟨rfl, ?_, by omega⟩
  simp only [List.length_take, List.length_drop]
  omega

theorem length_lt_of_incomplete {inBuf : List UInt8}
    (h : protoDecode inBuf = .error .incomplete) :
    inBuf.length < protoHdrSize + protoMaxPayload := by
  unfold protoDecode at h
  dsimp only at h
  split_ifs at h with hshort hmagic hversion hlen htotal <;> cases h <;>
    omega

theorem protoDecode_append {inBuf : List UInt8} (more : List UInt8)
    (h : protoDecode inBuf ≠ .error .incomplete) :
    protoDecode (inBuf ++ more) = protoDecode inBuf := by
  unfold protoDecode at h ⊢
  dsimp only at h ⊢
  by_cases hshort : inBuf.length < protoHdrSize
  · simp [hshort] at h
  · have hlong : ¬ (inBuf ++ more).length < protoHdrSize := by
      simp only [List.length_append]
      omega
    rw [if_neg hshort] at h
    rw [if_neg hshort, if_neg hlong,
      ProtoFrameHdr.ofBytes_append more (Nat.le_of_not_lt hshort)]
    split_ifs at h ⊢ with hmagic hversion hlen hmore htotal
    any_goals rfl
    · simp only [List.length_append] at hmore
      omega
    · contradiction
    · rw [List.drop_append_of_le_length (by omega),
        List.take_append_of_le_length (by simp; omega)]

def ProtoError.verdict : Except ProtoError (ProtoFrame × Nat) →
    Verdict ProtoFrame ProtoError
  | .error .incomplete => .incomplete
  | .error e => .fatal e
  | .ok (frame, total) => .frame frame total

theorem verdict_frame {r : Except ProtoError (ProtoFrame × Nat)}
    {f : ProtoFrame} {n : Nat} (h : ProtoError.verdict r = .frame f n) :
    r = .ok (f, n) := by
  unfold ProtoError.verdict at h
  split at h <;> simp_all

theorem verdict_fatal {r : Except ProtoError (ProtoFrame × Nat)}
    {e : ProtoError} (h : ProtoError.verdict r = .fatal e) :
    r = .error e ∧ e ≠ .incomplete := by
  unfold ProtoError.verdict at h
  split at h <;> simp_all

theorem verdict_incomplete {r : Except ProtoError (ProtoFrame × Nat)}
    (h : ProtoError.verdict r = .incomplete) : r = .error .incomplete := by
  unfold ProtoError.verdict at h
  split at h <;> simp_all

def protoDecoder : Decoder UInt8 ProtoFrame ProtoError where
  decode s := ProtoError.verdict (protoDecode s)
  frame_bounds := by
    intro s f n h
    obtain ⟨-, htotal, hle⟩ := protoDecode_ok (verdict_frame h)
    have hpos : 0 < protoHdrSize := by decide
    omega
  frame_append := by
    intro s f n t h
    rw [protoDecode_append t (by rw [verdict_frame h]; simp), h]
  fatal_append := by
    intro s e t h
    obtain ⟨herror, hne⟩ := verdict_fatal h
    rw [protoDecode_append t (by rw [herror]; simpa using hne), h]

end EzRouter
