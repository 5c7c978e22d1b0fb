import EzRouter.Ipc.Session

/-!
# REGISTER and its acknowledgement

The client of a session reads one REGISTER_ACK for each REGISTER it sent, in
the order in which it sent them, as long as the kernel takes what is written.
Whether an ACK says that the registration went through is compared with what
`registry_find_by_fd` sees before and after the frame.
-/

namespace EzRouter

open EzRouter.Foundation

variable {parse : CJsonParser} {fd : Int} {base r : Registry} {w : IpcWorld}

abbrev serve (parse : CJsonParser) (fd : Int) (w : IpcWorld)
    (frames : List ProtoFrame) : IpcWorld :=
  frames.foldl (ipcOps parse fd).dispatch w

structure AllSent (w : IpcWorld) : Prop where
  returned : w.inSend = false
  whole : ∀ a ∈ w.acks, a.sent = a.frame.length

def enters (fd : Int) (w w' : IpcWorld) : Bool :=
  (registryFindByFd w.registry fd).isNone &&
    (registryFindByFd w'.registry fd).isSome

/-- The REGISTER frames among `frames`, and for each whether it inserted an
entry for the connection. -/
def sessionReplies (parse : CJsonParser) (fd : Int) :
    IpcWorld → List ProtoFrame → List (ProtoFrame × Bool)
  | _, [] => []
  | w, frame :: frames =>
      let w' := (ipcOps parse fd).dispatch w frame
      if frame.hdr.cmd = protoRegister then
        (frame, enters fd w w') :: sessionReplies parse fd w' frames
      else sessionReplies parse fd w' frames

def ackText (ok : Bool) : List UInt8 :=
  (CStr.lit
    (if ok then "\x7b\"ok\":true\x7d"
      else "\x7b\"ok\":false\x7d")).bytes

structure Answers (reply : ProtoFrame × Bool) (bytes : List UInt8) : Prop where
  encoded : encodeRegisterAck reply.1.hdr.seq reply.2 = some bytes
  decoded : ∃ ack, protoDecode bytes = .ok (ack, bytes.length) ∧
    ack.hdr.cmd = protoRegisterAck ∧ ack.hdr.seq = reply.1.hdr.seq ∧
    ack.payload = ackText reply.2

def otherEntries (fd : Int) (r : Registry) : List SubprocEntry :=
  (registryIterate r).filter fun e => decide (e.clientFd ≠ fd)

structure AcksCorrespond (parse : CJsonParser) (fd : Int) (w : IpcWorld)
    (frames : List ProtoFrame) : Prop where
  requests : (sessionReplies parse fd w frames).map Prod.fst =
    frames.filter fun frame => decide (frame.hdr.cmd = protoRegister)
  stream : ∃ acks : List (List UInt8),
    (serve parse fd w frames).stream = acks.flatten ∧
      List.Forall₂ Answers (sessionReplies parse fd w frames) acks
  once : (sessionReplies parse fd w frames).countP (·.2) ≤ 1
  lasting : ∀ before frame after, frames = before ++ frame :: after →
    enters fd (serve parse fd w before)
        (serve parse fd w (before ++ [frame])) = true →
      ∃ (i : Nat) (e : SubprocEntry), ∀ later, later <+: after → ∃ now,
        registryFindByFd
            (serve parse fd w (before ++ frame :: later)).registry fd =
          some { e with lastHeartbeatMs := now } ∧
        (serve parse fd w (before ++ frame :: later)).registry.table[i]? =
          some { e with lastHeartbeatMs := now }
  silent : ∀ before frame after, frames = before ++ frame :: after →
    frame.hdr.cmd ≠ protoRegister →
      (serve parse fd w (before ++ [frame])).stream =
        (serve parse fd w before).stream
  others : ∀ before frame after, frames = before ++ frame :: after →
    otherEntries fd (serve parse fd w (before ++ [frame])).registry =
      otherEntries fd (serve parse fd w before).registry

theorem answers_encode (frame : ProtoFrame) (ok : Bool) :
    ∃ bytes, 0 < bytes.length ∧ Answers (frame, ok) bytes := by
  rcases encodeRegisterAck_some frame.hdr.seq ok with ⟨bytes, hbytes, hpos⟩
  refine ⟨bytes, hpos, hbytes, ?_⟩
  have hlen : (ackText ok).length < 32 := by
    cases ok <;> decide
  have hword : (UInt32.ofNat (ackText ok).length).toNat =
      (ackText ok).length := by
    rw [UInt32.toNat_ofNat']
    omega
  have hpayload : buildRegisterAckPayload ok 32 = some (ackText ok) :=
    if_neg (by simpa [ackText] using hlen)
  have hencode := @protoEncode_ok ⟨0, 0, protoRegisterAck, frame.hdr.seq,
    UInt32.ofNat (ackText ok).length⟩ (ackText ok) (protoHdrSize + 32)
    hword.symm (by rw [hword, protoMaxPayload]; omega) (by rw [hword]; omega)
  have hdecode := Encodes.decode ⟨hword.symm, hencode⟩ []
  simp only [encodeRegisterAck, hpayload, hencode] at hbytes
  obtain rfl := Option.some.inj hbytes
  rw [List.append_nil] at hdecode
  exact ⟨_, hdecode, rfl, rfl, rfl⟩

theorem enters_of_found {w' : IpcWorld}
    (h : (registryFindByFd w.registry fd).isSome) : enters fd w w' = false := by
  cases hfind : registryFindByFd w.registry fd with
  | none => simp [hfind] at h
  | some e => simp [enters, hfind]

theorem handleRegister_enters (parse : CJsonParser) (hclean : Clean fd base)
    (hslot : SessionSlot fd base w.registry) (frame : ProtoFrame) :
    enters fd w (handleRegister parse fd w frame) =
      decide ((registryRegister parse w.registry fd frame.payload
        (w.clock w.handled)).1 = 0) := by
  have hreg : (handleRegister parse fd w frame).registry =
      (registryRegister parse w.registry fd frame.payload
        (w.clock w.handled)).2 := rfl
  unfold enters
  rw [hreg]
  rcases registryRegister_cases parse w.registry fd frame.payload
      (w.clock w.handled) with ⟨hfail, -⟩ |
    ⟨before, x, after, parsed, -, htable, -, hclear, hok, hready, htable'⟩
  · rw [hfail]
    cases hslot with
    | absent hsame =>
        have hafter : registryInit (registryInit w.registry) = base := by
          rw [registryInit_of_inited (inited_registryInit _), hsame]
        simp [find_of_absent hclean hafter]
    | present before x e after hinited hbase _ htable howned =>
        simp [find_of_present hclean hbase hinited htable howned]
  · have hfresh : Clean fd (registryInit w.registry) :=
      ⟨inited_registryInit _, not_ownedBy_of_clear hclear⟩
    have howned : ownedBy fd (parsed.occupy fd (w.clock w.handled)) = true := by
      simp [ownedBy, SubprocEntry.occupy]
    simp [hok, find_of_absent hfresh rfl,
      find_of_present hfresh htable hready htable' howned]

theorem AllSent.of_dispatch {frame : ProtoFrame}
    (h : AllSent ((ipcOps parse fd).dispatch w frame)) : AllSent w := by
  rcases dispatch_acks parse fd w frame with
    ⟨-, hacks, -, hsend⟩ | ⟨hsend, -, bytes, -, -, hacks, -, -⟩
  · exact ⟨hsend ▸ h.returned, hacks ▸ h.whole⟩
  · refine ⟨hsend, ?_⟩
    intro a ha
    exact h.whole a (by simp [hacks, ha])

theorem AllSent.of_serve {frames : List ProtoFrame}
    (h : AllSent (serve parse fd w frames)) : AllSent w := by
  induction frames generalizing w with
  | nil => exact h
  | cons frame frames ih => exact (ih h).of_dispatch

theorem stream_dispatch_other {frame : ProtoFrame}
    (hcmd : frame.hdr.cmd ≠ protoRegister) :
    ((ipcOps parse fd).dispatch w frame).stream = w.stream := by
  rcases dispatch_acks parse fd w frame with
    ⟨-, hacks, -, -⟩ | ⟨-, hreg, -⟩
  · rw [IpcWorld.stream, hacks, IpcWorld.stream]
  · contradiction

theorem stream_dispatch_register (hclean : Clean fd base)
    (hslot : SessionSlot fd base w.registry) {frame : ProtoFrame}
    (hcmd : frame.hdr.cmd = protoRegister)
    (hsent : AllSent ((ipcOps parse fd).dispatch w frame)) :
    ∃ bytes,
      Answers (frame, enters fd w ((ipcOps parse fd).dispatch w frame))
        bytes ∧
      ((ipcOps parse fd).dispatch w frame).stream = w.stream ++ bytes := by
  have hdispatch : (ipcOps parse fd).dispatch w frame =
      handleRegister parse fd w frame := by
    simp [ipcOps, protoDispatch, hsent.of_dispatch.returned, hcmd]
  rw [hdispatch] at hsent ⊢
  rcases answers_encode frame
    (enters fd w (handleRegister parse fd w frame)) with ⟨bytes, -, hanswers⟩
  refine ⟨bytes, hanswers, ?_⟩
  have hencoded := hanswers.encoded
  rw [handleRegister_enters parse hclean hslot] at hencoded
  have hacks : (handleRegister parse fd w frame).acks = w.acks ++
      [⟨bytes, (sendNonblockRetry bytes.length 0 0 w.script).sent⟩] := by
    simp [handleRegister, sendRegisterAck, hencoded]
  generalize (sendNonblockRetry bytes.length 0 0 w.script).sent = sent at hacks
  have hwhole : sent = bytes.length :=
    hsent.whole ⟨bytes, sent⟩ (by simp [hacks])
  simp [IpcWorld.stream, hacks, hwhole]

/-! ## The whole session -/

theorem stream_serve (hclean : Clean fd base)
    (hslot : SessionSlot fd base w.registry) {frames : List ProtoFrame}
    (hsent : AllSent (serve parse fd w frames)) :
    ∃ acks : List (List UInt8),
      (serve parse fd w frames).stream = w.stream ++ acks.flatten ∧
        List.Forall₂ Answers (sessionReplies parse fd w frames) acks := by
  induction frames generalizing w with
  | nil => exact ⟨[], by simp, .nil⟩
  | cons frame frames ih =>
      rcases ih (hslot.dispatch hclean frame) hsent with
        ⟨acks, hstream, hanswers⟩
      by_cases hcmd : frame.hdr.cmd = protoRegister
      · rcases stream_dispatch_register hclean hslot hcmd
          (AllSent.of_serve hsent) with ⟨bytes, hanswer, hfirst⟩
        refine ⟨bytes :: acks, ?_, ?_⟩
        · change (serve parse fd _ frames).stream = _
          rw [hstream, hfirst]
          simp
        · rw [sessionReplies, if_pos hcmd]
          exact .cons hanswer hanswers
      · refine ⟨acks, ?_, ?_⟩
        · change (serve parse fd _ frames).stream = _
          rw [hstream, stream_dispatch_other hcmd]
        · rw [sessionReplies, if_neg hcmd]
          exact hanswers

theorem requests_sessionReplies (parse : CJsonParser) (fd : Int)
    (w : IpcWorld) (frames : List ProtoFrame) :
    (sessionReplies parse fd w frames).map Prod.fst =
      frames.filter fun frame => decide (frame.hdr.cmd = protoRegister) := by
  induction frames generalizing w with
  | nil => rfl
  | cons frame frames ih =>
      rw [sessionReplies]
      by_cases hcmd : frame.hdr.cmd = protoRegister
      · simp [hcmd, ih]
      · simp [hcmd, ih]

theorem find_dispatch_of_found (hclean : Clean fd base)
    (hslot : SessionSlot fd base w.registry) {frame : ProtoFrame}
    (h : (registryFindByFd w.registry fd).isSome) :
    (registryFindByFd
      ((ipcOps parse fd).dispatch w frame).registry fd).isSome := by
  cases hslot with
  | absent hsame => simp [find_of_absent hclean hsame] at h
  | present before x e after hinited hbase _ htable howned =>
      rcases serve_present hclean hbase [frame] hinited htable howned with
        ⟨now, hinited', htable'⟩
      rw [List.foldl_cons, List.foldl_nil] at hinited' htable'
      rw [find_of_present hclean hbase hinited' htable' howned]
      rfl

theorem countP_replies_of_found (hclean : Clean fd base)
    (hslot : SessionSlot fd base w.registry)
    (h : (registryFindByFd w.registry fd).isSome) (frames : List ProtoFrame) :
    (sessionReplies parse fd w frames).countP (·.2) = 0 := by
  induction frames generalizing w with
  | nil => rfl
  | cons frame frames ih =>
      have hslot' : SessionSlot fd base
          ((ipcOps parse fd).dispatch w frame).registry :=
        hslot.dispatch hclean frame
      have hrest := ih hslot' (find_dispatch_of_found hclean hslot h)
      rw [sessionReplies]
      split
      · rw [List.countP_cons, hrest, enters_of_found h]
        rfl
      · exact hrest

theorem countP_replies_le_one (hclean : Clean fd base)
    (hslot : SessionSlot fd base w.registry) (frames : List ProtoFrame) :
    (sessionReplies parse fd w frames).countP (·.2) ≤ 1 := by
  induction frames generalizing w with
  | nil => exact Nat.zero_le _
  | cons frame frames ih =>
      have hslot' : SessionSlot fd base
          ((ipcOps parse fd).dispatch w frame).registry :=
        hslot.dispatch hclean frame
      rw [sessionReplies]
      split
      · cases henters : enters fd w ((ipcOps parse fd).dispatch w frame) with
        | false => simpa using ih hslot'
        | true =>
            have hfound : (registryFindByFd
                ((ipcOps parse fd).dispatch w frame).registry fd).isSome := by
              simp only [enters, Bool.and_eq_true] at henters
              exact henters.2
            simp [countP_replies_of_found hclean hslot' hfound]
      · exact ih hslot'

theorem lasting_entry (parse : CJsonParser) (hclean : Clean fd base)
    (hslot : SessionSlot fd base w.registry)
    (h : (registryFindByFd w.registry fd).isSome) :
    ∃ (i : Nat) (e : SubprocEntry), ∀ later : List ProtoFrame, ∃ now,
      registryFindByFd (serve parse fd w later).registry fd =
          some { e with lastHeartbeatMs := now } ∧
        (serve parse fd w later).registry.table[i]? =
          some { e with lastHeartbeatMs := now } := by
  cases hslot with
  | absent hsame => simp [find_of_absent hclean hsame] at h
  | present before x e after hinited hbase _ htable howned =>
      refine ⟨before.length, e, ?_⟩
      intro later
      rcases serve_present hclean hbase later hinited htable howned with
        ⟨now, hinited', htable'⟩
      refine ⟨now, find_of_present hclean hbase hinited' htable' howned, ?_⟩
      rw [htable']
      simp

theorem otherEntries_of_slot (hclean : Clean fd base)
    (h : SessionSlot fd base r) : otherEntries fd r = otherEntries fd base := by
  unfold otherEntries registryIterate
  cases h with
  | absent hsame =>
      cases hinited : r.inited with
      | true =>
          rw [registryInit_of_inited hinited] at hsame
          rw [← hsame, hinited]
      | false =>
          have hempty : base.table.filter (·.inUse) = [] := by
            rw [← hsame]
            simp [registryInit, hinited, SubprocEntry.free, SubprocEntry.zero]
          simp [hempty]
  | present before x e after hinited hbase hfree htable howned =>
      have hfd : e.clientFd = fd := by
        simp only [ownedBy, Bool.and_eq_true, decide_eq_true_eq] at howned
        exact howned.2
      simp only [hinited, hclean.inited, hbase, htable, List.filter_append,
        List.filter_cons, hfree]
      cases e.inUse <;> simp [hfd]

/--
Every REGISTER of a session is answered by one ACK with its sequence number,
in order, and the ACK says whether the REGISTER inserted the entry of the
connection; nothing else is written, and no other connection's entry changes.
-/
theorem register_ack_session (parse : CJsonParser) {fd : Int} {r : Registry}
    {clock : Nat → UInt64} {script : List SendResult}
    {frames : List ProtoFrame} (hfree : registryFindByFd r fd = none)
    (hsent : AllSent (serve parse fd (.start r clock script) frames)) :
    AcksCorrespond parse fd (.start r clock script) frames := by
  have hclean := clean_of_find hfree
  generalize hstart : IpcWorld.start r clock script = w at hsent ⊢
  have hslot : SessionSlot fd (registryInit r) w.registry := by
    rw [← hstart]
    exact .absent rfl
  have hserve : ∀ served : List ProtoFrame, SessionSlot fd (registryInit r)
      (serve parse fd w served).registry := hslot.serve hclean
  constructor
  case requests => exact requests_sessionReplies parse fd w frames
  case stream =>
    rcases stream_serve hclean hslot hsent with ⟨acks, hstream, hanswers⟩
    refine ⟨acks, ?_, hanswers⟩
    rw [hstream, ← hstart]
    rfl
  case once => exact countP_replies_le_one hclean hslot frames
  case lasting =>
    rintro before frame after - henters
    simp only [enters, Bool.and_eq_true] at henters
    rcases lasting_entry parse hclean (hserve (before ++ [frame]))
      henters.2 with ⟨i, e, hlasting⟩
    refine ⟨i, e, ?_⟩
    intro later _
    simpa [serve] using hlasting later
  case silent =>
    intro before frame after _ hcmd
    simp [serve, stream_dispatch_other hcmd]
  case others =>
    intro before frame after _
    rw [otherEntries_of_slot hclean (hserve _),
      otherEntries_of_slot hclean (hserve _)]

theorem register_ack_session_twice :
    AcksCorrespond registerParser 7
      (.start (registryInit .boot) (fun _ => 5) [.room 64, .room 64])
      [deviceFrame 1, deviceFrame 2] := by
  apply register_ack_session registerParser rfl
  constructor
  · rfl
  · decide +kernel

end EzRouter
