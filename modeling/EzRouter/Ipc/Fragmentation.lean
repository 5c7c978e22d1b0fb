import EzRouter.Ipc.Server

/-!
# Fragmentation independence

Whatever way `recv` cuts the client's stream into chunks, the receive loop
hands over the frames that parsing the whole stream yields.  The invariant
relates the buffered bytes to the tail that the parser leaves of everything
received so far; it is stated for any dispatcher, so that the effect of a
session on the registry and on the wire can be read off from it as well.
-/

namespace EzRouter

open EzRouter.Foundation

variable {σ : Type}

def ClientInput.bytes : ClientInput → List UInt8
  | .recv (.data bytes) => bytes
  | _ => []

def received (trace : List ClientInput) : List UInt8 :=
  trace.flatMap ClientInput.bytes

@[simp] theorem received_snoc (trace : List ClientInput) (input : ClientInput) :
    received (trace ++ [input]) = received trace ++ input.bytes := by
  simp [received]

/-- The connection against the parse of all the bytes received on it. -/
def ClientInv (ops : ClientOps σ) (world : σ) (bytes : List UInt8)
    (c : ClientConn σ) : Prop :=
  let served := (protoDecoder.parse bytes).1.foldl ops.dispatch world
  let ending := (protoDecoder.parse bytes).2
  match c.closed with
  | none =>
      ending = .tail (c.buf.bytes.take c.bufLen) ∧
        c.bufLen < ipcRecvBufSize ∧ c.world = served
  | some .bufferFull => False
  | some (.decodeError e) => ending = .fatal e ∧ c.world = ops.unregister served
  | some _ => (∃ rest, ending = .tail rest) ∧ c.world = ops.unregister served

theorem ClientInv.accept (ops : ClientOps σ) (buf : Buffer ipcRecvBufSize)
    (world : σ) : ClientInv ops world [] (.accept buf world) := by
  have hempty : protoDecoder.parse [] = ([], .tail []) :=
    Decoder.parse_of_incomplete (by
      simp [protoDecoder, protoDecode, protoHdrSize, ProtoError.verdict])
  simp [ClientInv, ClientConn.accept, hempty, ipcRecvBufSize, protoHdrSize]

theorem ClientInv.data {ops : ClientOps σ} {world : σ} {seen bytes : List UInt8}
    {c : ClientConn σ} (inv : ClientInv ops world seen c)
    (hopen : c.closed = none) (fits : RecvFits c (.recv (.data bytes))) :
    ClientInv ops world (seen ++ bytes)
      (handleClient ops c (.recv (.data bytes))) := by
  obtain ⟨hpos, hfits⟩ := fits
  unfold ClientInv at inv
  rw [hopen] at inv
  obtain ⟨htail, hroom, hworld⟩ := inv
  have hlen : c.bufLen + bytes.length ≤ ipcRecvBufSize := by omega
  have hmod : (c.bufLen + bytes.length) % 2 ^ 64 = c.bufLen + bytes.length := by
    have hbound : ipcRecvBufSize < 2 ^ 64 := by decide
    omega
  -- The whole input so far is the parsed part and the bytes in the buffer.
  have hparse := Decoder.parse_append_tail bytes
    (Prod.ext (x := protoDecoder.parse seen) rfl htail)
  rw [← Buffer.take_write_append c.buf bytes hlen] at hparse
  obtain ⟨hserved, hresult⟩ := decodeLoop_parse ops.dispatch
    (c.buf.write c.bufLen bytes) (c.bufLen + bytes.length) c.world hlen
  simp only [ClientInv, hparse, List.foldl_append, ← hworld, ← hserved,
    handleClient, hmod]
  revert hresult
  generalize decodeLoop ops.dispatch (c.buf.write c.bufLen bytes)
    (c.bufLen + bytes.length) c.world = r
  obtain ⟨buf', bufLen', world', error⟩ := r
  cases hending : (protoDecoder.parse
      ((c.buf.write c.bufLen bytes).bytes.take
        (c.bufLen + bytes.length))).2 with
  | fatal e =>
      rintro rfl
      simp [ClientConn.drop]
  | tail rest =>
      rintro ⟨hnone, hshort, hrest⟩
      simp only at hnone hshort hrest
      -- An incomplete rest is shorter than a frame, so the buffer has room.
      have hincomplete : protoDecode rest = .error .incomplete :=
        verdict_incomplete (Decoder.decode_tail (Prod.ext rfl hending))
      have hfree := length_lt_of_incomplete hincomplete
      have hcap := buf'.length_eq
      have hleft : rest.length = bufLen' := by
        rw [← hrest, List.length_take]
        omega
      have hnotFull : bufLen' ≠ ipcRecvBufSize := by
        unfold ipcRecvBufSize
        omega
      subst hnone
      rw [if_neg hnotFull]
      simp only [hopen, hrest, and_true, true_and]
      exact Nat.lt_of_le_of_ne (by omega) hnotFull

theorem ClientInv.step {ops : ClientOps σ} {world : σ} {seen : List UInt8}
    {c c' : ClientConn σ} {input : ClientInput}
    (inv : ClientInv ops world seen c) (h : ClientStep ops c input c') :
    ClientInv ops world (seen ++ input.bytes) c' := by
  obtain ⟨hopen, hfits, rfl⟩ := h
  -- Only a chunk of data changes what has been received.
  have hquiet : ∀ cause, (∀ e, cause ≠ .decodeError e) → cause ≠ .bufferFull →
      ClientInv ops world seen (c.drop ops cause) := by
    intro cause hdecode hfull
    unfold ClientInv at inv ⊢
    rw [hopen] at inv
    obtain ⟨htail, -, hworld⟩ := inv
    cases cause <;> simp_all [ClientConn.drop]
  cases input with
  | stopped =>
      simpa [ClientInput.bytes, handleClient] using
        hquiet .shutdown (by simp) (by simp)
  | recv result =>
      cases result with
      | data bytes => exact inv.data hopen hfits
      | closed =>
          simpa [ClientInput.bytes, handleClient] using
            hquiet .peerClosed (by simp) (by simp)
      | eintr => simpa [ClientInput.bytes, handleClient] using inv
      | error =>
          simpa [ClientInput.bytes, handleClient] using
            hquiet .recvError (by simp) (by simp)

theorem ClientInv.of_run {ops : ClientOps σ} {buf : Buffer ipcRecvBufSize}
    {world : σ} {trace : List ClientInput} {c : ClientConn σ}
    (run : Run (ClientStep ops) (.accept buf world) trace c) :
    ClientInv ops world (received trace) c := by
  induction run with
  | refl => exact .accept ops buf world
  | next _ hstep ih => simpa using ih.step hstep

theorem world_of_run {ops : ClientOps σ} {buf : Buffer ipcRecvBufSize}
    {world : σ} {trace : List ClientInput} {c : ClientConn σ}
    (run : Run (ClientStep ops) (.accept buf world) trace c) :
    (c.closed = none ∧ c.world = (protoDecoder.parse
        (received trace)).1.foldl ops.dispatch world) ∨
      (c.closed ≠ none ∧ c.world = ops.unregister ((protoDecoder.parse
        (received trace)).1.foldl ops.dispatch world)) := by
  have inv := ClientInv.of_run run
  unfold ClientInv at inv
  cases hclosed : c.closed with
  | none =>
      rw [hclosed] at inv
      exact .inl ⟨rfl, inv.2.2⟩
  | some cause =>
      rw [hclosed] at inv
      cases cause with
      | bufferFull => exact inv.elim
      | _ => exact .inr ⟨by simp, inv.2⟩

/-! ## The frames handed over -/

def frameLog : ClientOps (List ProtoFrame) where
  dispatch log frame := log ++ [frame]
  unregister log := log

theorem foldl_frameLog (log frames : List ProtoFrame) :
    frames.foldl frameLog.dispatch log = log ++ frames := by
  induction frames generalizing log with
  | nil => simp
  | cons frame frames ih =>
      rw [List.foldl_cons, ih]
      simp [frameLog]

def ClientInput.IsDelivery : ClientInput → Prop
  | .recv (.data _) => True
  | .recv .eintr => True
  | _ => False

/-- The chunks of `trace` are `stream`, except that what follows a fatal
header is not read any more. -/
structure Delivers (trace : List ClientInput) (c : ClientConn σ)
    (stream : List UInt8) : Prop where
  deliveries : ∀ input ∈ trace, input.IsDelivery
  isPrefix : received trace <+: stream
  complete : c.closed = none → received trace = stream

def endingState : Ending UInt8 ProtoError → Option CloseCause
  | .tail _ => none
  | .fatal e => some (.decodeError e)

theorem closed_of_deliveries {ops : ClientOps σ} {buf : Buffer ipcRecvBufSize}
    {world : σ} {trace : List ClientInput} {c : ClientConn σ}
    (run : Run (ClientStep ops) (.accept buf world) trace c)
    (hdeliver : ∀ input ∈ trace, input.IsDelivery) :
    c.closed = none ∨ c.closed = some .bufferFull ∨
      ∃ e, c.closed = some (.decodeError e) := by
  induction run with
  | refl => exact .inl rfl
  | @next trace s t input _ hstep _ =>
      obtain ⟨hopen, -, rfl⟩ := hstep
      have hinput : input.IsDelivery := hdeliver input (by simp)
      unfold ClientInput.IsDelivery at hinput
      split at hinput
      · unfold handleClient
        dsimp only
        split
        · exact .inr (.inr ⟨_, rfl⟩)
        · split
          · exact .inr (.inl rfl)
          · exact .inl hopen
      · exact .inl hopen
      · contradiction

theorem endingState_of_deliveries {ops : ClientOps σ}
    {buf : Buffer ipcRecvBufSize} {world : σ} {trace : List ClientInput}
    {c : ClientConn σ} (run : Run (ClientStep ops) (.accept buf world) trace c)
    (hdeliver : ∀ input ∈ trace, input.IsDelivery) :
    c.closed = endingState (protoDecoder.parse (received trace)).2 := by
  have inv := ClientInv.of_run run
  unfold ClientInv at inv
  rcases closed_of_deliveries run hdeliver with hclosed | hclosed | ⟨e, hclosed⟩
  · rw [hclosed] at inv ⊢
    rw [inv.1, endingState]
  · rw [hclosed] at inv
    exact inv.elim
  · rw [hclosed] at inv ⊢
    rw [inv.1, endingState]

private theorem frames_of_delivery {buf : Buffer ipcRecvBufSize}
    {trace : List ClientInput} {c : ClientConn (List ProtoFrame)}
    {stream : List UInt8}
    (run : Run (ClientStep frameLog) (.accept buf []) trace c)
    (h : Delivers trace c stream) :
    c.world = (protoDecoder.parse stream).1 ∧
      c.closed = endingState (protoDecoder.parse stream).2 := by
  have inv := ClientInv.of_run run
  have hclosed := endingState_of_deliveries run h.deliveries
  unfold ClientInv at inv
  cases hending : (protoDecoder.parse (received trace)).2 with
  | tail rest =>
      rw [hending, endingState] at hclosed
      rw [hclosed, foldl_frameLog] at inv
      rw [← h.complete hclosed, hending]
      exact ⟨inv.2.2, hclosed⟩
  | fatal e =>
      rw [hending, endingState] at hclosed
      rw [hclosed, foldl_frameLog] at inv
      obtain ⟨rest, rfl⟩ := h.isPrefix
      rw [Decoder.parse_append_fatal rest (Prod.ext rfl hending)]
      exact ⟨inv.2, hclosed⟩

/--
However the stream is cut into chunks, the receive loop hands over the frames
of the whole stream and is closed by a fatal header exactly when parsing the
whole stream meets one.  Two ways to cut one stream therefore cannot be told
apart.
-/
theorem handle_client_fragmentation {buf : Buffer ipcRecvBufSize}
    {trace : List ClientInput} {c : ClientConn (List ProtoFrame)}
    {stream : List UInt8}
    (run : Run (ClientStep frameLog) (.accept buf []) trace c)
    (h : Delivers trace c stream) :
    (c.world = (protoDecoder.parse stream).1 ∧
      c.closed = endingState (protoDecoder.parse stream).2) ∧
    ∀ (buf' : Buffer ipcRecvBufSize) (trace' : List ClientInput)
      (c' : ClientConn (List ProtoFrame)),
      Run (ClientStep frameLog) (.accept buf' []) trace' c' →
      Delivers trace' c' stream →
        c'.world = c.world ∧ c'.closed = c.closed := by
  obtain ⟨hworld, hclosed⟩ := frames_of_delivery run h
  refine ⟨⟨hworld, hclosed⟩, ?_⟩
  intro buf' trace' c' run' h'
  obtain ⟨hworld', hclosed'⟩ := frames_of_delivery run' h'
  exact ⟨hworld'.trans hworld.symm, hclosed'.trans hclosed.symm⟩

/-! ## A stream that is cut -/

theorem open_of_deliveries {ops : ClientOps σ} {buf : Buffer ipcRecvBufSize}
    {world : σ} {trace : List ClientInput} {c : ClientConn σ}
    (run : Run (ClientStep ops) (.accept buf world) trace c)
    (hdeliver : ∀ input ∈ trace, input.IsDelivery) {frames : List ProtoFrame}
    {rest : List UInt8}
    (hparse : protoDecoder.parse (received trace) = (frames, .tail rest)) :
    c.closed = none ∧ c.bufLen = rest.length := by
  have inv := ClientInv.of_run run
  have hclosed := endingState_of_deliveries run hdeliver
  rw [hparse, endingState] at hclosed
  unfold ClientInv at inv
  rw [hclosed, hparse] at inv
  obtain ⟨htail, hroom, -⟩ := inv
  cases htail
  refine ⟨hclosed, ?_⟩
  have hcap := c.buf.length_eq
  rw [List.length_take]
  omega

theorem deliver_chunk {ops : ClientOps σ} {buf : Buffer ipcRecvBufSize}
    {world : σ} {trace : List ClientInput} {c : ClientConn σ}
    (run : Run (ClientStep ops) (.accept buf world) trace c)
    (hdeliver : ∀ input ∈ trace, input.IsDelivery) {frames : List ProtoFrame}
    {rest : List UInt8}
    (hparse : protoDecoder.parse (received trace) = (frames, .tail rest))
    (bytes : List UInt8) (hpos : 0 < bytes.length)
    (hfits : rest.length + bytes.length ≤ ipcRecvBufSize) :
    Run (ClientStep ops) (.accept buf world)
      (trace ++ [.recv (.data bytes)])
      (handleClient ops c (.recv (.data bytes))) := by
  obtain ⟨hopen, hlen⟩ := open_of_deliveries run hdeliver hparse
  refine run.next ⟨hopen, ⟨hpos, ?_⟩, rfl⟩
  omega

def heartbeatBytes : List UInt8 :=
  [0x7C, 0xEB, 0x01, 0x03, 7, 0, 0, 0, 0, 0, 0, 0]

def heartbeatFrame : ProtoFrame :=
  ⟨⟨protoMagic, protoVersion, protoHeartbeat, 7, 0⟩, []⟩

def helloBytes : List UInt8 :=
  [0x7C, 0xEB, 0x01, 0x01, 8, 0, 0, 0, 2, 0, 0, 0, 0x7B, 0x7D]

def helloFrame : ProtoFrame :=
  ⟨⟨protoMagic, protoVersion, protoRegister, 8, 2⟩, [0x7B, 0x7D]⟩

def cutStream : List UInt8 :=
  heartbeatBytes ++ helloBytes ++ heartbeatBytes.take 6

/-- The first cut is in the first header, the second in the second header. -/
def cutTrace : List ClientInput :=
  [.recv (.data (cutStream.take 5)),
    .recv (.data ((cutStream.drop 5).take 15)), .recv .eintr,
    .recv (.data (cutStream.drop 20))]

theorem parse_cutTwice : protoDecoder.parse (received (cutTrace.take 2)) =
    ([heartbeatFrame], .tail (helloBytes.take 8)) := by
  have hframe : protoDecoder.decode (received (cutTrace.take 2)) =
      .frame heartbeatFrame 12 := by decide
  have hdrop : (received (cutTrace.take 2)).drop 12 = helloBytes.take 8 := rfl
  rw [Decoder.parse_of_frame hframe, hdrop,
    Decoder.parse_of_incomplete (by decide)]

theorem parse_cutStream : protoDecoder.parse cutStream =
    ([heartbeatFrame, helloFrame], .tail (heartbeatBytes.take 6)) := by
  have hheartbeat : protoDecoder.decode cutStream =
      .frame heartbeatFrame 12 := by decide
  have hhello : protoDecoder.decode (helloBytes ++ heartbeatBytes.take 6) =
      .frame helloFrame 14 := by decide
  have hdrop : cutStream.drop 12 = helloBytes ++ heartbeatBytes.take 6 := rfl
  have hrest : (helloBytes ++ heartbeatBytes.take 6).drop 14 =
      heartbeatBytes.take 6 := rfl
  rw [Decoder.parse_of_frame hheartbeat, hdrop, Decoder.parse_of_frame hhello,
    hrest, Decoder.parse_of_incomplete (by decide)]

theorem deliveries_cutTrace : ∀ input ∈ cutTrace, input.IsDelivery := by
  simp [cutTrace, ClientInput.IsDelivery]

theorem received_cutTrace : received cutTrace = cutStream := by
  decide

theorem cut_run : ∃ c, Run (ClientStep frameLog) (.accept (.zero _) [])
    cutTrace c := by
  have hfirst : Run (ClientStep frameLog) (.accept (.zero _) [])
      (cutTrace.take 1) _ :=
    .next .refl ⟨rfl, ⟨by decide, by decide⟩, rfl⟩
  have hdeliver : ∀ n, ∀ input ∈ cutTrace.take n, input.IsDelivery :=
    fun n input hinput => deliveries_cutTrace input (List.mem_of_mem_take hinput)
  have hsecond := deliver_chunk hfirst (hdeliver 1)
    (Decoder.parse_of_incomplete (by decide))
    ((cutStream.drop 5).take 15) (by decide) (by decide)
  obtain ⟨hopen, -⟩ := open_of_deliveries hsecond (hdeliver 2) parse_cutTwice
  have hthird : Run (ClientStep frameLog) (.accept (.zero _) [])
      (cutTrace.take 3) _ :=
    hsecond.next ⟨hopen, trivial, rfl⟩
  exact ⟨_, deliver_chunk hthird (hdeliver 3) parse_cutTwice
    (cutStream.drop 20) (by decide) (by decide)⟩

theorem handle_client_fragmentation_cut :
    ∃ c, Run (ClientStep frameLog) (.accept (.zero _) []) cutTrace c ∧
      c.world = [heartbeatFrame, helloFrame] ∧ c.closed = none := by
  obtain ⟨c, hrun⟩ := cut_run
  have hdelivers : Delivers cutTrace c cutStream :=
    { deliveries := deliveries_cutTrace
      isPrefix := received_cutTrace ▸ List.prefix_rfl
      complete := fun _ => received_cutTrace }
  have hframes := (handle_client_fragmentation hrun hdelivers).1
  rw [parse_cutStream] at hframes
  exact ⟨c, hrun, hframes⟩

end EzRouter
