import EzRouter.Ipc.Fragmentation
import Mathlib.Data.List.Infix

/-!
# The SDK at the other end

The requests of `ez_router_sdk.c` and what the daemon's receive loop makes of
them.  The SDK has a header of its own, of the same length as the daemon's and
with another magic number, and sends it to the same socket.
-/

namespace EzRouter

open EzRouter.Foundation

def ipcMagic : UInt32 := 0xE7F12345

def cmdSetRoutes : UInt16 := 1
def cmdClearRoutes : UInt16 := 2
def cmdSaveConfig : UInt16 := 3
def cmdLoadPlugin : UInt16 := 4
def cmdUnloadPlugin : UInt16 := 5

structure EzRouterLink where
  inPort : UInt32
  outPort : UInt32
  bidir : UInt32
  hookInPlugin : Buffer 64
  hookInFunc : Buffer 64
  hookOutPlugin : Buffer 64
  hookOutFunc : Buffer 64
  deriving DecidableEq, Repr

def EzRouterLink.toBytes (l : EzRouterLink) : List UInt8 :=
  leBytes 4 l.inPort.toNat ++ leBytes 4 l.outPort.toNat ++
    leBytes 4 l.bidir.toNat ++ l.hookInPlugin.bytes ++ l.hookInFunc.bytes ++
    l.hookOutPlugin.bytes ++ l.hookOutFunc.bytes

structure IpcHeader where
  magic : UInt32
  cmd : UInt16
  reserved : UInt16
  length : UInt32
  deriving DecidableEq, Repr

def IpcHeader.toBytes (h : IpcHeader) : List UInt8 :=
  leBytes 4 h.magic.toNat ++ leBytes 2 h.cmd.toNat ++
    leBytes 2 h.reserved.toNat ++ leBytes 4 h.length.toNat

/-- A call of the SDK.  `reserved` is what the field of the header holds where
the call does not set it. -/
inductive SdkRequest where
  | setRoutes (reserved : UInt16) (links : List EzRouterLink)
  | clearRoutes (reserved : UInt16)
  | saveConfig (reserved : UInt16)
  | loadPlugin (pluginPath : CStr)
  | unloadPlugin (pluginPath : CStr)

/-- The buffer of a request: the size passed to `malloc` and to `send`, and
the bytes stored into it from its start. -/
structure SdkBuffer where
  frameLen : Nat
  stored : List UInt8
  deriving DecidableEq, Repr

/-- The two lengths are computed in `uint32_t`. -/
def sdkBuffer (cmd reserved : UInt16) (payload : List UInt8) : SdkBuffer :=
  let payloadLen := UInt32.ofNat payload.length
  let hdr : IpcHeader := ⟨ipcMagic, cmd, reserved, payloadLen⟩
  ⟨(12 + payloadLen.toNat) % 2 ^ 32, hdr.toBytes ++ payload⟩

def pluginPayload (pluginPath : CStr) : List UInt8 :=
  leBytes 4 (pluginPath.length + 1) ++ (pluginPath.bytes ++ [0])

def SdkRequest.buffer : SdkRequest → SdkBuffer
  | .setRoutes reserved links =>
      sdkBuffer cmdSetRoutes reserved
        (leBytes 4 links.length ++ links.flatMap EzRouterLink.toBytes)
  | .clearRoutes reserved => sdkBuffer cmdClearRoutes reserved []
  | .saveConfig reserved => sdkBuffer cmdSaveConfig reserved []
  | .loadPlugin pluginPath =>
      sdkBuffer cmdLoadPlugin 0 (pluginPayload pluginPath)
  | .unloadPlugin pluginPath =>
      sdkBuffer cmdUnloadPlugin 0 (pluginPayload pluginPath)

def SdkBuffer.Fits (b : SdkBuffer) : Prop := b.stored.length ≤ b.frameLen

/-- The value returned and the bytes that `send` accepts: it may take fewer
than it is given, and what it returns is not looked at. -/
def sdkCall (g_sdk_fd : Int) (request : SdkRequest) (taken : Nat) :
    Int × List UInt8 :=
  if g_sdk_fd < 0 then (-1, [])
  else
    (0, (request.buffer.stored.take request.buffer.frameLen).take taken)

def sdkStream (g_sdk_fd : Int) (calls : List (SdkRequest × Nat)) :
    List UInt8 :=
  calls.flatMap fun call => (sdkCall g_sdk_fd call.1 call.2).2

@[simp] theorem length_ipcHeader (h : IpcHeader) :
    h.toBytes.length = 12 := by
  simp [IpcHeader.toBytes]

@[simp] theorem length_ezRouterLink (l : EzRouterLink) :
    l.toBytes.length = 268 := by
  simp [EzRouterLink.toBytes, Buffer.length_eq]

theorem sdkBuffer_fits_iff (cmd reserved : UInt16) (payload : List UInt8) :
    (sdkBuffer cmd reserved payload).Fits ↔ 12 + payload.length < 2 ^ 32 := by
  unfold SdkBuffer.Fits sdkBuffer
  simp only [List.length_append, length_ipcHeader, UInt32.toNat_ofNat']
  omega

theorem setRoutes_fits_iff (reserved : UInt16) (links : List EzRouterLink) :
    (SdkRequest.setRoutes reserved links).buffer.Fits ↔
      16 + 268 * links.length < 2 ^ 32 := by
  have hlen : (links.flatMap EzRouterLink.toBytes).length =
      268 * links.length := by
    induction links with
    | nil => rfl
    | cons l links ih =>
        rw [List.flatMap_cons, List.length_append, length_ezRouterLink, ih,
          List.length_cons]
        omega
  rw [SdkRequest.buffer, sdkBuffer_fits_iff, List.length_append,
    length_leBytes, hlen]
  omega

/-! ## What the daemon makes of it -/

theorem sdkBuffer_head (cmd reserved : UInt16) (payload : List UInt8) :
    (sdkBuffer cmd reserved payload).stored.head? = some 0x45 := by
  have hmagic : leBytes 4 ipcMagic.toNat = [0x45, 0x23, 0xF1, 0xE7] := by
    decide
  simp [sdkBuffer, IpcHeader.toBytes, hmagic]

theorem head_take {bytes : List UInt8} {n : Nat} {b : UInt8}
    (h : b ∈ (bytes.take n).head?) : b ∈ bytes.head? := by
  cases n with
  | zero => simp at h
  | succ n => simpa [List.head?_take] using h

theorem sdkCall_head {g_sdk_fd : Int} {request : SdkRequest} {taken : Nat}
    {b : UInt8} (h : b ∈ (sdkCall g_sdk_fd request taken).2.head?) :
    b = 0x45 := by
  have hstored : request.buffer.stored.head? = some 0x45 := by
    cases request <;> exact sdkBuffer_head _ _ _
  unfold sdkCall at h
  split_ifs at h
  · simp at h
  · have hb := head_take (head_take h)
    rw [hstored] at hb
    exact (Option.some.inj hb).symm

theorem sdkStream_head {g_sdk_fd : Int} {calls : List (SdkRequest × Nat)}
    {b : UInt8} (h : b ∈ (sdkStream g_sdk_fd calls).head?) : b = 0x45 := by
  induction calls with
  | nil => simp [sdkStream] at h
  | cons call calls ih =>
      rw [sdkStream, List.flatMap_cons] at h
      cases hbytes : (sdkCall g_sdk_fd call.1 call.2).2 with
      | nil =>
          rw [hbytes] at h
          exact ih h
      | cons a bytes =>
          have hhead : b ∈ (sdkCall g_sdk_fd call.1 call.2).2.head? := by
            rw [hbytes] at h ⊢
            exact h
          exact sdkCall_head hhead

theorem magic_of_head {a : UInt8} {s : List UInt8}
    (h : (ProtoFrameHdr.ofBytes (a :: s)).magic = protoMagic) : a = 0x7C := by
  have hbyte := a.toNat_lt
  have hnat := congrArg UInt16.toNat h
  have hvalue : protoMagic.toNat = 0xEB7C := rfl
  simp only [ProtoFrameHdr.ofBytes, List.take_succ_cons, leNat_cons,
    UInt16.toNat_ofNat', hvalue] at hnat
  rw [← UInt8.toNat_inj]
  change a.toNat = 124
  omega

theorem protoDecode_foreign {s : List UInt8} {b : UInt8}
    (hhead : s.head? = some b) (hb : b ≠ 0x7C) :
    protoDecode s =
      .error (if s.length < protoHdrSize then .incomplete else .badMagic) := by
  cases s with
  | nil => cases hhead
  | cons a s =>
      obtain rfl : a = b := Option.some.inj hhead
      unfold protoDecode
      split_ifs with hshort
      · rfl
      · exact if_pos fun hmagic => hb (magic_of_head hmagic)

theorem parse_foreign {s : List UInt8} {b : UInt8} (hhead : s.head? = some b)
    (hb : b ≠ 0x7C) :
    protoDecoder.parse s =
      ([], if s.length < protoHdrSize then .tail s else .fatal .badMagic) := by
  have hdecode := protoDecode_foreign hhead hb
  split_ifs at hdecode ⊢ with hshort
  · apply Decoder.parse_of_incomplete
    simp [protoDecoder, hdecode, ProtoError.verdict]
  · apply Decoder.parse_of_fatal
    simp [protoDecoder, hdecode, ProtoError.verdict]

theorem parse_sdk {g_sdk_fd : Int} {calls : List (SdkRequest × Nat)}
    {s : List UInt8} (hsent : s <+: sdkStream g_sdk_fd calls) :
    protoDecoder.parse s =
      ([], if s.length < protoHdrSize then .tail s else .fatal .badMagic) := by
  cases hhead : s.head? with
  | none =>
      obtain rfl := List.head?_eq_none_iff.1 hhead
      exact Decoder.parse_of_incomplete rfl
  | some b =>
      have hb : b = 0x45 := by
        rcases hsent with ⟨rest, hrest⟩
        apply @sdkStream_head g_sdk_fd calls
        rw [← hrest]
        simp [hhead]
      exact parse_foreign hhead (by rw [hb]; decide)

/--
Whatever is called through the SDK, however much of it `send` takes and however
it arrives, the daemon serves none of it: nothing is dispatched, and the
connection is dropped for its magic number as soon as a header is complete.
-/
theorem sdk_not_served {σ : Type} {ops : ClientOps σ}
    {buf : Buffer ipcRecvBufSize} {world : σ} {trace : List ClientInput}
    {c : ClientConn σ} {g_sdk_fd : Int} {calls : List (SdkRequest × Nat)}
    (run : Run (ClientStep ops) (.accept buf world) trace c)
    (hsent : received trace <+: sdkStream g_sdk_fd calls) :
    (c.closed = none ∧ c.world = world ∧
        (received trace).length < protoHdrSize) ∨
      (c.closed ≠ none ∧ c.world = ops.unregister world ∧
        (c.closed = some (.decodeError .badMagic) ↔
          protoHdrSize ≤ (received trace).length)) := by
  have hparse := parse_sdk hsent
  have hinv := ClientInv.of_run run
  unfold ClientInv at hinv
  rw [hparse] at hinv
  cases hclosed : c.closed with
  | none =>
      rw [hclosed] at hinv
      rcases hinv with ⟨hending, -, hworld⟩
      refine .inl ⟨rfl, hworld, ?_⟩
      by_contra hlong
      simp [hlong] at hending
  | some cause =>
      rw [hclosed] at hinv
      right
      by_cases hshort : (received trace).length < protoHdrSize
      · rw [if_pos hshort] at hinv
        cases cause with
        | bufferFull => exact hinv.elim
        | decodeError e => cases hinv.1
        | _ => exact ⟨by simp, hinv.2, by simp [hshort]⟩
      · rw [if_neg hshort] at hinv
        cases cause with
        | bufferFull => exact hinv.elim
        | decodeError e =>
            cases hinv.1
            exact ⟨by simp, hinv.2, by simpa using hshort⟩
        | _ =>
            rcases hinv.1 with ⟨rest, hrest⟩
            cases hrest

def clearRoutesBytes : List UInt8 :=
  [0x45, 0x23, 0xF1, 0xE7, 2, 0, 0, 0, 0, 0, 0, 0]

theorem sdk_not_served_clear :
    let c := handleClient frameLog (.accept (.zero _) [])
      (.recv (.data clearRoutesBytes))
    (c.closed = none ∧ c.world = [] ∧ clearRoutesBytes.length < protoHdrSize) ∨
      (c.closed ≠ none ∧ c.world = frameLog.unregister [] ∧
        (c.closed = some (.decodeError .badMagic) ↔
          protoHdrSize ≤ clearRoutesBytes.length)) := by
  have hrun : Run (ClientStep frameLog) (.accept (.zero _) [])
      [.recv (.data clearRoutesBytes)] _ :=
    .next .refl ⟨rfl, ⟨by decide, by decide⟩, rfl⟩
  have hsent : received [.recv (.data clearRoutesBytes)] <+:
      sdkStream 3 [(.clearRoutes 0, 12)] := by
    decide
  exact sdk_not_served hrun hsent

end EzRouter
