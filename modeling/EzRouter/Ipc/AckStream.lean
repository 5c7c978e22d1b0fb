import EzRouter.Ipc.Dispatcher
import EzRouter.Ipc.Fragmentation

/-!
# The stream of ACKs on one connection

The client reads complete ACK frames and at most one broken one at the end, as
long as nothing is written behind an ACK that was cut short.  The dispatcher
drops the value by which `send_register_ack` reports the cut, so whether that
holds is up to what `send` does next.
-/

namespace EzRouter

open EzRouter.Foundation

def IsRegisterAck (frame : List UInt8) : Prop :=
  ∃ reqSeq ok, encodeRegisterAck reqSeq ok = some frame

def AckSend.Cut (a : AckSend) : Prop := 0 < a.sent ∧ a.sent < a.frame.length

instance (a : AckSend) : Decidable a.Cut :=
  inferInstanceAs (Decidable (0 < a.sent ∧ a.sent < a.frame.length))

def SilentAfterCut (acks : List AckSend) : Prop :=
  acks.Pairwise fun a b => a.Cut → b.sent = 0

instance (acks : List AckSend) : Decidable (SilentAfterCut acks) :=
  inferInstanceAs (Decidable (acks.Pairwise fun a b => a.Cut → b.sent = 0))

/-- Complete ACK frames, and behind them a proper prefix of one, which may be
empty. -/
def FramesThenPrefix (stream : List UInt8) : Prop :=
  ∃ (whole : List (List UInt8)) (tail : List UInt8),
    stream = whole.flatten ++ tail ∧
      (∀ frame ∈ whole, IsRegisterAck frame) ∧
      ∃ frame, IsRegisterAck frame ∧ tail <+: frame ∧ tail ≠ frame

structure AckStreamWhole (w : IpcWorld) : Prop where
  silent : SilentAfterCut w.acks
  frames : FramesThenPrefix w.stream

theorem encodeRegisterAck_some (reqSeq : UInt32) (ok : Bool) :
    ∃ frame, encodeRegisterAck reqSeq ok = some frame ∧ 0 < frame.length := by
  obtain ⟨pl, hpl, hlen⟩ :
      ∃ pl, buildRegisterAckPayload ok 32 = some pl ∧ pl.length < 32 := by
    cases ok with
    | false => exact ⟨_, rfl, by decide⟩
    | true => exact ⟨_, rfl, by decide⟩
  have hword : (UInt32.ofNat pl.length).toNat = pl.length := by
    rw [UInt32.toNat_ofNat']
    omega
  unfold encodeRegisterAck
  simp only [hpl, protoEncode, hword, protoMaxPayload]
  rw [if_neg (by omega), if_neg (by omega)]
  exact ⟨_, rfl, by simp [protoHdrSize]⟩

def AcksSound (acks : List AckSend) : Prop :=
  ∀ a ∈ acks, IsRegisterAck a.frame ∧ a.sent ≤ a.frame.length

theorem stream_of_silent {acks : List AckSend} (hsound : AcksSound acks)
    (hsilent : SilentAfterCut acks) :
    FramesThenPrefix (acks.flatMap fun a => a.frame.take a.sent) := by
  induction acks with
  | nil =>
      obtain ⟨frame, hframe, hpos⟩ := encodeRegisterAck_some 0 true
      refine ⟨[], [], rfl, by simp, frame, ⟨0, true, hframe⟩,
        List.nil_prefix, ?_⟩
      rintro rfl
      contradiction
  | cons a acks ih =>
      obtain ⟨hhead, htail⟩ := List.pairwise_cons.1 hsilent
      obtain ⟨hack, hbound⟩ := hsound a (by simp)
      obtain ⟨whole, tail, hstream, hwhole, hlast⟩ :=
        ih (fun b hb => hsound b (by simp [hb])) htail
      by_cases hnone : a.sent = 0
      · exact ⟨whole, tail, by simp [hnone, hstream], hwhole, hlast⟩
      by_cases hall : a.sent = a.frame.length
      · refine ⟨a.frame :: whole, tail, by simp [hall, hstream], ?_, hlast⟩
        rintro frame (_ | ⟨_, hframe⟩)
        · exact hack
        · exact hwhole frame hframe
      · have hcut : a.Cut := ⟨by omega, by omega⟩
        have hrest : (acks.flatMap fun b => b.frame.take b.sent) = [] := by
          rw [List.flatMap_eq_nil_iff]
          intro b hb
          rw [hhead b hb hcut, List.take_zero]
        refine ⟨[], a.frame.take a.sent, by simp [hrest], by simp, a.frame,
          hack, List.take_prefix _ _, ?_⟩
        intro heq
        have hlen := congrArg List.length heq
        rw [List.length_take] at hlen
        omega

/-- No byte is accepted before the send loop gives up: a full connection, an
error or one EAGAIN too many comes first, or no call returns any more. -/
def refuses : Nat → List SendResult → Bool
  | _, [] => true
  | _, .room n :: _ => n == 0
  | retries, .eagain :: script =>
      decide (retries + 1 > maxRetries) || refuses (retries + 1) script
  | retries, .eintr :: script => refuses retries script
  | _, .error :: _ => true

theorem sendNonblockRetry_eq_zero_iff {len : Nat} (hlen : 0 < len)
    (retries : Nat) (script : List SendResult) :
    (sendNonblockRetry len 0 retries script).sent = 0 ↔
      refuses retries script = true := by
  induction script generalizing retries with
  | nil =>
      unfold sendNonblockRetry
      split <;> simp [refuses]
  | cons result script ih =>
      have hmore : ¬ 0 ≥ len := by omega
      cases result with
      | room n =>
          simp only [sendNonblockRetry, if_neg hmore, refuses, beq_iff_eq]
          split
          · have hbounds := sendNonblockRetry_bounds len
              (0 + min n (len - 0)) retries script (by omega)
            omega
          · simp only [true_iff]
            omega
      | eagain =>
          simp only [sendNonblockRetry, if_neg hmore, refuses, Bool.or_eq_true,
            decide_eq_true_eq]
          split
          · simp [*]
          · simp [*]
      | eintr =>
          simpa only [sendNonblockRetry, if_neg hmore, refuses] using ih _
      | error => simp [sendNonblockRetry, hmore, refuses]

/-- When a REGISTER comes after an ACK that was cut short, the kernel refuses
what is sent for it. -/
def AckGuard (w : IpcWorld) (frame : ProtoFrame) : Prop :=
  frame.hdr.cmd = protoRegister → (∃ a ∈ w.acks, a.Cut) →
    refuses 0 w.script = true

structure AckInv (w : IpcWorld) : Prop where
  sound : AcksSound w.acks
  drained : w.inSend = true → w.script = []

variable {parse : CJsonParser} {clientFd : Int} {w : IpcWorld}
  {frame : ProtoFrame}

theorem dispatch_acks (parse : CJsonParser) (clientFd : Int) (w : IpcWorld)
    (frame : ProtoFrame) :
    ((w.inSend = true ∨ frame.hdr.cmd ≠ protoRegister) ∧
      ((ipcOps parse clientFd).dispatch w frame).acks = w.acks ∧
      ((ipcOps parse clientFd).dispatch w frame).script = w.script ∧
      ((ipcOps parse clientFd).dispatch w frame).inSend = w.inSend) ∨
    (w.inSend = false ∧ frame.hdr.cmd = protoRegister ∧
      ∃ bytes, IsRegisterAck bytes ∧ 0 < bytes.length ∧
        ((ipcOps parse clientFd).dispatch w frame).acks =
          w.acks ++
            [⟨bytes, (sendNonblockRetry bytes.length 0 0 w.script).sent⟩] ∧
        ((ipcOps parse clientFd).dispatch w frame).script =
          (sendNonblockRetry bytes.length 0 0 w.script).script ∧
        (((ipcOps parse clientFd).dispatch w frame).inSend = true →
          (sendNonblockRetry bytes.length 0 0 w.script).ret = none)) := by
  unfold ipcOps protoDispatch
  cases hsend : w.inSend with
  | true => simp [hsend]
  | false =>
      by_cases hcmd : frame.hdr.cmd = protoRegister
      · right
        obtain ⟨bytes, hbytes, hpos⟩ := encodeRegisterAck_some frame.hdr.seq
          (decide ((registryRegister parse w.registry clientFd frame.payload
            (w.clock w.handled)).1 = 0))
        refine ⟨rfl, hcmd, bytes, ⟨_, _, hbytes⟩, hpos, ?_⟩
        simp [hsend, hcmd, handleRegister, sendRegisterAck, hbytes]
      · left
        refine ⟨.inr hcmd, ?_⟩
        simp only [hsend, hcmd, Bool.false_eq_true, if_false]
        split <;> simp

theorem AckInv.dispatch (h : AckInv w) :
    AckInv ((ipcOps parse clientFd).dispatch w frame) := by
  rcases dispatch_acks parse clientFd w frame with
    ⟨-, hacks, hscript, hsend⟩ |
    ⟨-, -, bytes, hack, -, hacks, hscript, hsend⟩
  · constructor
    · rw [hacks]
      exact h.sound
    · rw [hscript, hsend]
      exact h.drained
  · constructor
    · rw [hacks]
      intro a ha
      rcases List.mem_append.1 ha with hold | hnew
      · exact h.sound a hold
      · obtain rfl := List.mem_singleton.1 hnew
        have hbounds := sendNonblockRetry_bounds bytes.length 0 0 w.script
          (Nat.zero_le _)
        exact ⟨hack, hbounds.2⟩
    · intro hpending
      rw [hscript]
      exact sendNonblockRetry_pending _ _ _ _ (hsend hpending)

theorem silentAfterCut_snoc (acks : List AckSend) (b : AckSend) :
    SilentAfterCut (acks ++ [b]) ↔
      SilentAfterCut acks ∧ ((∃ a ∈ acks, a.Cut) → b.sent = 0) := by
  unfold SilentAfterCut
  rw [List.pairwise_append]
  simp

theorem silentAfterCut_dispatch (h : AckInv w) :
    SilentAfterCut ((ipcOps parse clientFd).dispatch w frame).acks ↔
      SilentAfterCut w.acks ∧ AckGuard w frame := by
  rcases dispatch_acks parse clientFd w frame with
    ⟨hquiet, hacks, -, -⟩ | ⟨-, hcmd, bytes, -, hpos, hacks, -, -⟩
  · have hguard : AckGuard w frame := by
      intro hcmd _
      rcases hquiet with hsend | hother
      · rw [h.drained hsend]
        rfl
      · contradiction
    rw [hacks, and_iff_left hguard]
  · rw [hacks, silentAfterCut_snoc, sendNonblockRetry_eq_zero_iff hpos]
    simp [AckGuard, hcmd]

theorem AckInv.foldl (h : AckInv w) (frames : List ProtoFrame) :
    AckInv (frames.foldl (ipcOps parse clientFd).dispatch w) := by
  induction frames generalizing w with
  | nil => exact h
  | cons frame frames ih => exact ih h.dispatch

theorem silentAfterCut_foldl (parse : CJsonParser) (clientFd : Int)
    (h : AckInv w) (frames : List ProtoFrame) :
    SilentAfterCut (frames.foldl (ipcOps parse clientFd).dispatch w).acks ↔
      SilentAfterCut w.acks ∧
        ∀ before frame after, frames = before ++ frame :: after →
          AckGuard (before.foldl (ipcOps parse clientFd).dispatch w) frame := by
  apply foldl_keeps_iff (fun w => SilentAfterCut w.acks) AckInv
  · intro w frame hinv
    exact hinv.dispatch
  · intro w frame hinv
    exact silentAfterCut_dispatch hinv
  · exact h

/-! ## The connection -/

theorem ClientConn.acks_eq {buf : Buffer ipcRecvBufSize}
    {trace : List ClientInput} {c : ClientConn IpcWorld}
    (hrun : Run (ClientStep (ipcOps parse clientFd)) (.accept buf w) trace c) :
    c.world.acks = ((protoDecoder.parse (received trace)).1.foldl
      (ipcOps parse clientFd).dispatch w).acks := by
  have hunregister : ∀ w : IpcWorld,
      ((ipcOps parse clientFd).unregister w).acks = w.acks := by
    intro w
    simp only [ipcOps]
    split <;> rfl
  rcases world_of_run hrun with ⟨-, hworld⟩ | ⟨-, hworld⟩
  · rw [hworld]
  · rw [hworld, hunregister]

/--
The stream a client reads is whole in a state of a connection exactly when
each REGISTER handled until then behind an ACK cut short found the kernel
refusing to take any byte.
-/
theorem ack_stream_whole_iff (parse : CJsonParser) (clientFd : Int)
    {buf : Buffer ipcRecvBufSize} {registry : Registry} {clock : Nat → UInt64}
    {script : List SendResult} {trace : List ClientInput}
    {c : ClientConn IpcWorld}
    (hrun : Run (ClientStep (ipcOps parse clientFd))
      (.accept buf (.start registry clock script)) trace c) :
    AckStreamWhole c.world ↔
      ∀ before frame after,
        (protoDecoder.parse (received trace)).1 = before ++ frame :: after →
          AckGuard (before.foldl (ipcOps parse clientFd).dispatch
            (.start registry clock script)) frame := by
  have hstart : AckInv (.start registry clock script) := by
    constructor
    · intro a ha
      contradiction
    · intro hsend
      contradiction
  have hsilent := silentAfterCut_foldl parse clientFd hstart
    (protoDecoder.parse (received trace)).1
  have hempty : SilentAfterCut (IpcWorld.start registry clock script).acks :=
    List.Pairwise.nil
  rw [← ClientConn.acks_eq hrun, and_iff_right hempty] at hsilent
  have hsound : AcksSound c.world.acks := by
    rw [ClientConn.acks_eq hrun]
    exact (hstart.foldl _).sound
  rw [← hsilent]
  constructor
  · exact fun hwhole => hwhole.silent
  · exact fun h => ⟨h, stream_of_silent hsound h⟩

def registerBytes (seq : UInt8) : List UInt8 :=
  [0x7C, 0xEB, 0x01, 0x01, seq, 0, 0, 0, 0, 0, 0, 0]

def registerFrame (seq : UInt32) : ProtoFrame :=
  ⟨⟨protoMagic, protoVersion, protoRegister, seq, 0⟩, []⟩

def slowOnce : List SendResult :=
  [.room 5] ++ List.replicate 9 .eagain ++ [.room 64]

def slowClient : ClientConn IpcWorld :=
  .accept (.zero _) (.start (registryInit .boot) (fun _ => 0) slowOnce)

def slowClientOps : ClientOps IpcWorld := ipcOps (fun _ => none) 7

theorem slowClient_run (bytes : List UInt8) (hpos : 0 < bytes.length)
    (hfits : bytes.length ≤ ipcRecvBufSize) :
    Run (ClientStep slowClientOps) slowClient [.recv (.data bytes)]
      (handleClient slowClientOps slowClient (.recv (.data bytes))) := by
  apply Run.next .refl
  exact ⟨rfl, ⟨hpos, hfits⟩, rfl⟩

theorem parse_register :
    protoDecoder.parse (registerBytes 1) = ([registerFrame 1], .tail []) := by
  have hframe : protoDecoder.decode (registerBytes 1) =
      .frame (registerFrame 1) 12 := by decide
  have hempty : protoDecoder.decode ((registerBytes 1).drop 12) =
      .incomplete := by decide
  rw [Decoder.parse_of_frame hframe, Decoder.parse_of_incomplete hempty]
  rfl

theorem parse_twoRegisters :
    protoDecoder.parse (registerBytes 1 ++ registerBytes 2) =
      ([registerFrame 1, registerFrame 2], .tail []) := by
  have hframe : protoDecoder.decode ([] ++ registerBytes 2) =
      .frame (registerFrame 2) 12 := by decide
  have hempty : protoDecoder.decode (([] ++ registerBytes 2).drop 12) =
      .incomplete := by decide
  rw [Decoder.parse_append_tail _ parse_register, Decoder.parse_of_frame hframe,
    Decoder.parse_of_incomplete hempty]
  rfl

/-- The second ACK is written whole behind the first five bytes of the
first. -/
theorem ack_stream_torn :
    ∃ trace c, Run (ClientStep slowClientOps) slowClient trace c ∧
      ¬ AckStreamWhole c.world := by
  have hrun := slowClient_run (registerBytes 1 ++ registerBytes 2) (by decide)
    (by decide)
  refine ⟨_, _, hrun, ?_⟩
  intro hwhole
  have hsilent := hwhole.silent
  rw [ClientConn.acks_eq hrun] at hsilent
  simp only [received, ClientInput.bytes, List.flatMap_cons, List.flatMap_nil,
    List.append_nil, parse_twoRegisters] at hsilent
  revert hsilent
  decide

theorem ack_stream_whole_iff_single :
    AckStreamWhole (handleClient slowClientOps slowClient
      (.recv (.data (registerBytes 1)))).world := by
  refine (ack_stream_whole_iff (fun _ => none) 7
    (slowClient_run (registerBytes 1) (by decide) (by decide))).2 ?_
  intro before frame after hsplit _ hcut
  simp only [received, ClientInput.bytes, List.flatMap_cons, List.flatMap_nil,
    List.append_nil, parse_register] at hsplit
  -- Nothing comes before the only frame, so no ACK has been cut yet.
  cases before with
  | nil => simp [IpcWorld.start] at hcut
  | cons _ before => simp at hsplit

end EzRouter
