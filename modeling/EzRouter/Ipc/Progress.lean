import EzRouter.Ipc.Fragmentation

/-!
# The receive buffer makes progress

The buffer of a connection holds one frame of the largest size.  Each turn of
the inner loop takes a whole header off it, what an incomplete frame leaves in
it is short of the buffer, and so `recv` always has room to write to.
-/

namespace EzRouter

open EzRouter.Foundation

variable {σ : Type}

structure InnerLoop (σ : Type) where
  buf : Buffer ipcRecvBufSize
  bufLen : Nat
  world : σ

/-- A turn that decodes a frame: dispatch it and move the rest down. -/
inductive DecodeTurn (dispatch : σ → ProtoFrame → σ) :
    InnerLoop σ → ProtoFrame × Nat → InnerLoop σ → Prop where
  | consume (s : InnerLoop σ) (frame : ProtoFrame) (consumed : Nat)
      (h : protoDecode (s.buf.bytes.take s.bufLen) = .ok (frame, consumed)) :
      DecodeTurn dispatch s (frame, consumed)
        { buf :=
            if consumed < s.bufLen then
              s.buf.write 0 (s.buf.slice consumed (sizeSub s.bufLen consumed))
            else s.buf
          bufLen := sizeSub s.bufLen consumed
          world := dispatch s.world frame }

variable {dispatch : σ → ProtoFrame → σ} {s t : InnerLoop σ}
  {turn : ProtoFrame × Nat}

theorem DecodeTurn.decodeLoop_eq (h : DecodeTurn dispatch s turn t) :
    decodeLoop dispatch s.buf s.bufLen s.world =
      decodeLoop dispatch t.buf t.bufLen t.world := by
  cases h with
  | consume frame consumed h =>
      rw [decodeLoop]
      split
      · simp_all
      · simp_all
      · rename_i frame' consumed' h'
        rw [h] at h'
        cases h'
        rfl

theorem DecodeTurn.consumes (h : DecodeTurn dispatch s turn t)
    (hlen : s.bufLen ≤ ipcRecvBufSize) :
    protoHdrSize ≤ turn.2 ∧ turn.2 ≤ s.bufLen ∧
      t.bufLen = s.bufLen - turn.2 := by
  cases h with
  | consume frame consumed h =>
      rcases protoDecode_ok h with ⟨-, htotal, hle⟩
      have htake := List.length_take_le s.bufLen s.buf.bytes
      have hbound : ipcRecvBufSize < 2 ^ 64 := by decide
      refine ⟨by simp only; omega, by simp only; omega, ?_⟩
      exact sizeSub_eq (by omega) (by omega)

theorem turns_bound {trace : List (ProtoFrame × Nat)}
    (hlen : s.bufLen ≤ ipcRecvBufSize)
    (hrun : Run (DecodeTurn dispatch) s trace t) :
    t.bufLen + protoHdrSize * trace.length ≤ s.bufLen := by
  induction hrun with
  | refl => simp
  | next _ hturn ih =>
      rcases hturn.consumes (by omega) with ⟨hhdr, hle, hrest⟩
      rw [List.length_append, List.length_singleton, Nat.mul_add]
      omega

theorem decodeLoop_eq_of_turns {trace : List (ProtoFrame × Nat)}
    (hrun : Run (DecodeTurn dispatch) s trace t) :
    decodeLoop dispatch s.buf s.bufLen s.world =
      decodeLoop dispatch t.buf t.bufLen t.world := by
  induction hrun with
  | refl => rfl
  | next _ hturn ih => rw [ih, hturn.decodeLoop_eq]

theorem turns_end (dispatch : σ → ProtoFrame → σ) (s : InnerLoop σ)
    (hlen : s.bufLen ≤ ipcRecvBufSize) :
    ∃ trace t, Run (DecodeTurn dispatch) s trace t ∧
      ∀ turn u, ¬ DecodeTurn dispatch t turn u := by
  generalize hn : s.bufLen = n
  induction n using Nat.strong_induction_on generalizing s with
  | _ n ih =>
      by_cases hlast : ∀ turn u, ¬ DecodeTurn dispatch s turn u
      · exact ⟨[], s, .refl, hlast⟩
      · push Not at hlast
        rcases hlast with ⟨turn, u, hturn⟩
        rcases hturn.consumes hlen with ⟨hhdr, hle, hrest⟩
        have hpos : 0 < protoHdrSize := by decide
        rcases ih u.bufLen (by omega) u (by omega) rfl with
          ⟨trace, t, hrun, hend⟩
        have hfirst : Run (DecodeTurn dispatch) s [turn] u :=
          .next .refl hturn
        exact ⟨[turn] ++ trace, t, hfirst.trans hrun, hend⟩

/-! ## Every state of a connection -/

/-- The inner loop that a chunk of data starts. -/
def ClientConn.append (c : ClientConn σ) (bytes : List UInt8) :
    InnerLoop σ where
  buf := c.buf.write c.bufLen bytes
  bufLen := (c.bufLen + bytes.length) % 2 ^ 64
  world := c.world

structure MakesProgress (ops : ClientOps σ) (c : ClientConn σ) : Prop where
  bounded : c.bufLen ≤ ipcRecvBufSize
  room : c.closed = none →
    1 ≤ sizeSub ipcRecvBufSize c.bufLen ∧
      sizeSub ipcRecvBufSize c.bufLen = ipcRecvBufSize - c.bufLen
  notFull : c.closed ≠ some .bufferFull
  turns : c.closed = none → ∀ bytes, RecvFits c (.recv (.data bytes)) →
    (c.append bytes).bufLen = c.bufLen + bytes.length ∧
      (c.append bytes).bufLen ≤ ipcRecvBufSize ∧
      (∃ trace t, Run (DecodeTurn ops.dispatch) (c.append bytes) trace t ∧
        ∀ turn u, ¬ DecodeTurn ops.dispatch t turn u) ∧
      ∀ trace t, Run (DecodeTurn ops.dispatch) (c.append bytes) trace t →
        t.bufLen ≤ ipcRecvBufSize ∧
          trace.length ≤ (c.append bytes).bufLen / protoHdrSize ∧
          decodeLoop ops.dispatch (c.append bytes).buf (c.append bytes).bufLen
              c.world =
            decodeLoop ops.dispatch t.buf t.bufLen t.world ∧
          ∀ turn u, DecodeTurn ops.dispatch t turn u →
            turn.2 ≤ t.bufLen ∧ u.bufLen = t.bufLen - turn.2

theorem decodeLoop_last
    (hlast : ∀ turn u, ¬ DecodeTurn dispatch s turn u) :
    (decodeLoop dispatch s.buf s.bufLen s.world).2.1 ≤ s.bufLen := by
  cases hdecode : protoDecode (s.buf.bytes.take s.bufLen) with
  | ok result => exact absurd (.consume s result.1 result.2 hdecode) (hlast _ _)
  | error e =>
      by_cases he : e = .incomplete
      · subst he
        rw [decodeLoop_incomplete hdecode]
      · rw [decodeLoop_fatal hdecode he]
        exact Nat.zero_le _

theorem bufLen_decodeLoop (dispatch : σ → ProtoFrame → σ) (s : InnerLoop σ)
    (hlen : s.bufLen ≤ ipcRecvBufSize) :
    (decodeLoop dispatch s.buf s.bufLen s.world).2.1 ≤ s.bufLen := by
  rcases turns_end dispatch s hlen with ⟨trace, t, hrun, hlast⟩
  have hbound := turns_bound hlen hrun
  have hend := decodeLoop_last hlast
  rw [decodeLoop_eq_of_turns hrun]
  omega

theorem bufLen_received {c : ClientConn σ} {bytes : List UInt8}
    (hlen : c.bufLen ≤ ipcRecvBufSize)
    (hfits : RecvFits c (.recv (.data bytes))) :
    (c.bufLen + bytes.length) % 2 ^ 64 = c.bufLen + bytes.length ∧
      c.bufLen + bytes.length ≤ ipcRecvBufSize := by
  have hbound : ipcRecvBufSize < 2 ^ 64 := by decide
  have hroom : bytes.length ≤ ipcRecvBufSize - c.bufLen := hfits.2
  constructor <;> omega

theorem bufLen_handleClient {ops : ClientOps σ} {c : ClientConn σ}
    {input : ClientInput} (hlen : c.bufLen ≤ ipcRecvBufSize)
    (hfits : RecvFits c input) :
    (handleClient ops c input).bufLen ≤ ipcRecvBufSize := by
  unfold handleClient
  split
  · exact hlen
  · exact hlen
  · exact hlen
  · exact hlen
  · rename_i bytes
    rcases bufLen_received hlen hfits with ⟨hmod, hsum⟩
    have hloop := bufLen_decodeLoop ops.dispatch
      ⟨c.buf.write c.bufLen bytes, c.bufLen + bytes.length, c.world⟩ hsum
    simp only at hloop
    rw [hmod]
    dsimp only
    split
    · exact hloop.trans hsum
    · split <;> exact hloop.trans hsum

theorem bufLen_of_run {ops : ClientOps σ} {buf : Buffer ipcRecvBufSize}
    {world : σ} {trace : List ClientInput} {c : ClientConn σ}
    (run : Run (ClientStep ops) (.accept buf world) trace c) :
    c.bufLen ≤ ipcRecvBufSize := by
  induction run with
  | refl => exact Nat.zero_le _
  | next _ hstep ih =>
      rcases hstep with ⟨-, hfits, rfl⟩
      exact bufLen_handleClient ih hfits

theorem room_of_run {ops : ClientOps σ} {buf : Buffer ipcRecvBufSize}
    {world : σ} {trace : List ClientInput} {c : ClientConn σ}
    (run : Run (ClientStep ops) (.accept buf world) trace c)
    (hopen : c.closed = none) : c.bufLen < ipcRecvBufSize := by
  have inv := ClientInv.of_run run
  unfold ClientInv at inv
  rw [hopen] at inv
  exact inv.2.1

/--
In every state of a connection the buffer is within its bounds, the next
`recv` is given room for at least one byte, each turn of the inner loop takes
off what the buffer holds, and the loop ends after at most one turn for each
header that fits.  The connection is never dropped for a full buffer.
-/
theorem receive_makes_progress {ops : ClientOps σ}
    {buf : Buffer ipcRecvBufSize} {world : σ} {trace : List ClientInput}
    {c : ClientConn σ}
    (run : Run (ClientStep ops) (.accept buf world) trace c) :
    MakesProgress ops c where
  bounded := bufLen_of_run run
  room hopen := by
    have hroom := room_of_run run hopen
    have hrest : sizeSub ipcRecvBufSize c.bufLen = ipcRecvBufSize - c.bufLen :=
      sizeSub_eq (by omega) (by decide)
    rw [hrest]
    omega
  notFull hfull := by
    have inv := ClientInv.of_run run
    unfold ClientInv at inv
    rw [hfull] at inv
    exact inv
  turns hopen bytes hfits := by
    rcases bufLen_received (bufLen_of_run run) hfits with ⟨hmod, hsum⟩
    have hstart : (c.append bytes).bufLen = c.bufLen + bytes.length := hmod
    have hlen : (c.append bytes).bufLen ≤ ipcRecvBufSize :=
      hstart.trans_le hsum
    refine ⟨hstart, hlen, turns_end ops.dispatch _ hlen, ?_⟩
    intro turns t hturns
    have hbound := turns_bound hlen hturns
    have hleft : t.bufLen ≤ ipcRecvBufSize := by omega
    have hcount : turns.length ≤ (c.append bytes).bufLen / protoHdrSize := by
      rw [Nat.le_div_iff_mul_le (by decide), Nat.mul_comm]
      omega
    refine ⟨hleft, hcount, decodeLoop_eq_of_turns hturns, ?_⟩
    intro turn u hturn
    exact (hturn.consumes hleft).2

theorem receive_makes_progress_cut :
    ∃ c, Run (ClientStep frameLog) (.accept (.zero _) []) cutTrace c ∧
      c.bufLen = 6 ∧ MakesProgress frameLog c := by
  obtain ⟨c, hrun⟩ := cut_run
  have hparse := parse_cutStream
  rw [← received_cutTrace] at hparse
  have hlen := (open_of_deliveries hrun deliveries_cutTrace hparse).2
  exact ⟨c, hrun, hlen, receive_makes_progress hrun⟩

end EzRouter
