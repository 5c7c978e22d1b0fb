import EzRouter.Ipc.AckStream
import EzRouter.Ipc.RegistryRefinement
import EzRouter.Protocol.CodecLaws

/-!
# One session

What serving one connection does to the registry and to the wire.  Whatever
frames arrive, the session either has not entered anything into the table or
occupies one slot that was free before; a REGISTER is answered by what became
of it.
-/

namespace EzRouter

open EzRouter.Foundation

structure Clean (fd : Int) (base : Registry) : Prop where
  inited : base.inited = true
  unowned : ∀ e ∈ base.table, ownedBy fd e = false

/-- The registry during a session of `fd`: nothing has been entered into
`base`, or one slot of it that was free holds the entry of `fd`. -/
inductive SessionSlot (fd : Int) (base : Registry) (r : Registry) : Prop where
  | absent (h : registryInit r = base) : SessionSlot fd base r
  | present (before : List SubprocEntry) (x e : SubprocEntry)
      (after : List SubprocEntry) (hinited : r.inited = true)
      (hbase : base.table = before ++ x :: after) (hfree : x.inUse = false)
      (htable : r.table = before ++ e :: after) (howned : ownedBy fd e = true) :
      SessionSlot fd base r

variable {parse : CJsonParser} {fd : Int} {base r : Registry}

theorem SessionSlot.register (h : SessionSlot fd base r) (json : List UInt8)
    (now : UInt64) :
    SessionSlot fd base (registryRegister parse r fd json now).2 := by
  cases h with
  | absent hsame =>
      rcases registryRegister_cases parse r fd json now with ⟨hfail, -⟩ |
        ⟨before, x, after, parsed, -, hbase, hfree, -, -, hinited, htable⟩
      · rw [hfail]
        apply SessionSlot.absent
        rw [registryInit_of_inited (inited_registryInit r), hsame]
      · rw [hsame] at hbase
        exact .present before x _ after hinited hbase hfree htable
          (by simp [ownedBy, SubprocEntry.occupy])
  | present before x e after hinited hbase hfree htable howned =>
      rw [registryRegister_of_owned parse hinited (by simp [htable]) howned]
      exact .present before x e after hinited hbase hfree htable howned

theorem SessionSlot.atFd_cases (hclean : Clean fd base)
    (h : SessionSlot fd base r) (f : SubprocEntry → SubprocEntry) :
    (registryInit r = base ∧ registryAtFd r fd f = (-1, r)) ∨
      ∃ before x e after, base.table = before ++ x :: after ∧
        x.inUse = false ∧ r.table = before ++ e :: after ∧
        ownedBy fd e = true ∧ (registryAtFd r fd f).2.inited = true ∧
        (registryAtFd r fd f).2.table = before ++ f e :: after := by
  cases h with
  | absent hsame =>
      rcases registryAtFd_cases r fd f with ⟨hmiss, -⟩ |
        ⟨before, e, after, hinited, htable, howned, -⟩
      · exact .inl ⟨hsame, hmiss⟩
      · rw [registryInit_of_inited hinited] at hsame
        have hunowned := hclean.unowned e (by simp [← hsame, htable])
        rw [howned] at hunowned
        contradiction
  | present before x e after hinited hbase hfree htable howned =>
      right
      have hbefore : ∀ y ∈ before, ownedBy fd y = false := by
        intro y hy
        exact hclean.unowned y (by simp [hbase, hy])
      rcases registryAtFd_of_split f hinited htable hbefore howned with
        ⟨-, hready, htable'⟩
      exact ⟨before, x, e, after, hbase, hfree, htable, howned, hready,
        htable'⟩

theorem SessionSlot.updateHeartbeat (hclean : Clean fd base)
    (h : SessionSlot fd base r) (now : UInt64) :
    SessionSlot fd base (registryUpdateHeartbeat r fd now).2 := by
  unfold registryUpdateHeartbeat
  rcases h.atFd_cases hclean fun e => { e with lastHeartbeatMs := now } with
    ⟨hsame, hmiss⟩ |
    ⟨before, x, e, after, hbase, hfree, htable, howned, hinited, htable'⟩
  · rw [hmiss]
    exact .absent hsame
  · exact .present before x _ after hinited hbase hfree htable' howned

theorem SessionSlot.unregister (hclean : Clean fd base)
    (hfree : ∀ x ∈ base.table, x.inUse = false → x = .free)
    (hready : r.inited = true) (h : SessionSlot fd base r) :
    (registryUnregister r fd).2 = base := by
  unfold registryUnregister
  rcases h.atFd_cases hclean fun _ => .free with ⟨hsame, hmiss⟩ |
    ⟨before, x, e, after, hbase, hunused, -, -, hinited, htable⟩
  · rw [hmiss, ← hsame, registryInit_of_inited hready]
  · obtain rfl : x = .free := hfree x (by simp [hbase]) hunused
    exact registry_ext (htable.trans hbase.symm)
      (hinited.trans hclean.inited.symm)

theorem clean_of_find {r : Registry} (h : registryFindByFd r fd = none) :
    Clean fd (registryInit r) := by
  refine ⟨inited_registryInit r, ?_⟩
  cases hinited : r.inited with
  | false =>
      intro e he
      simp only [registryInit, hinited, Bool.false_eq_true, if_false] at he
      rw [List.eq_of_mem_replicate he]
      rfl
  | true =>
      rw [registryInit_of_inited hinited]
      simpa [registryFindByFd, hinited] using h

theorem find_of_absent (hclean : Clean fd base) (h : registryInit r = base) :
    registryFindByFd r fd = none := by
  unfold registryFindByFd
  cases hinited : r.inited with
  | false => rfl
  | true =>
      rw [registryInit_of_inited hinited] at h
      subst h
      exact find?_of_none hclean.unowned

theorem find_of_present {before after : List SubprocEntry} {x e : SubprocEntry}
    (hclean : Clean fd base) (hbase : base.table = before ++ x :: after)
    (hinited : r.inited = true) (htable : r.table = before ++ e :: after)
    (howned : ownedBy fd e = true) : registryFindByFd r fd = some e := by
  have hbefore : ∀ y ∈ before, ownedBy fd y = false := by
    intro y hy
    exact hclean.unowned y (by simp [hbase, hy])
  rw [registryFindByFd, hinited, htable]
  exact find?_of_split hbefore howned

variable {w : IpcWorld}

theorem dispatch_registry (parse : CJsonParser) (fd : Int) (w : IpcWorld)
    (frame : ProtoFrame) :
    ((ipcOps parse fd).dispatch w frame).registry = w.registry ∨
      ((ipcOps parse fd).dispatch w frame).registry =
        (registryRegister parse w.registry fd frame.payload
          (w.clock w.handled)).2 ∨
      ((ipcOps parse fd).dispatch w frame).registry =
        (registryUpdateHeartbeat w.registry fd (w.clock w.handled)).2 := by
  simp only [ipcOps, protoDispatch]
  by_cases hsend : w.inSend = true
  · exact .inl (by rw [if_pos hsend])
  rw [if_neg hsend]
  by_cases hreg : frame.hdr.cmd = protoRegister
  · right
    left
    rw [if_pos hreg]
    rfl
  rw [if_neg hreg]
  by_cases hbeat : frame.hdr.cmd = protoHeartbeat
  · right
    right
    rw [if_pos hbeat]
  · left
    rw [if_neg hbeat]

theorem SessionSlot.dispatch (hclean : Clean fd base)
    (h : SessionSlot fd base w.registry) (frame : ProtoFrame) :
    SessionSlot fd base ((ipcOps parse fd).dispatch w frame).registry := by
  rcases dispatch_registry parse fd w frame with hsame | hreg | hbeat
  · rw [hsame]
    exact h
  · rw [hreg]
    exact h.register _ _
  · rw [hbeat]
    exact h.updateHeartbeat hclean _

theorem SessionSlot.serve (hclean : Clean fd base)
    (h : SessionSlot fd base w.registry) (frames : List ProtoFrame) :
    SessionSlot fd base
      (frames.foldl (ipcOps parse fd).dispatch w).registry := by
  induction frames generalizing w with
  | nil => exact h
  | cons frame frames ih => exact ih (h.dispatch hclean frame)

theorem serve_present {before after : List SubprocEntry} {x e : SubprocEntry}
    (hclean : Clean fd base) (hbase : base.table = before ++ x :: after)
    (frames : List ProtoFrame) (hinited : w.registry.inited = true)
    (htable : w.registry.table = before ++ e :: after)
    (howned : ownedBy fd e = true) :
    ∃ now, (frames.foldl (ipcOps parse fd).dispatch w).registry.inited =
        true ∧
      (frames.foldl (ipcOps parse fd).dispatch w).registry.table =
        before ++ { e with lastHeartbeatMs := now } :: after := by
  induction frames generalizing w e with
  | nil => exact ⟨e.lastHeartbeatMs, hinited, htable⟩
  | cons frame frames ih =>
      rcases dispatch_registry parse fd w frame with hsame | hreg | hbeat
      · exact ih (by rw [hsame, hinited]) (by rw [hsame, htable]) howned
      · rw [registryRegister_of_owned parse hinited (by simp [htable]) howned]
          at hreg
        exact ih (by rw [hreg, hinited]) (by rw [hreg, htable]) howned
      · have hbefore : ∀ y ∈ before, ownedBy fd y = false := by
          intro y hy
          exact hclean.unowned y (by simp [hbase, hy])
        rcases registryAtFd_of_split
            (fun e => { e with lastHeartbeatMs := w.clock w.handled }) hinited
            htable hbefore howned with ⟨-, hinited', htable'⟩
        exact ih (e := { e with lastHeartbeatMs := w.clock w.handled })
          (by rw [hbeat]; exact hinited') (by rw [hbeat]; exact htable') howned

/-! ## The entries of the others -/

def KeepsOthers (fd : Int) (r r' : Registry) : Prop :=
  ∀ (i : Nat) (e : SubprocEntry), e.inUse = true → e.clientFd ≠ fd →
    (r.table[i]? = some e ↔ r'.table[i]? = some e)

theorem SessionSlot.keepsOthers (hready : r.inited = true)
    (h : SessionSlot fd base r) :
    KeepsOthers fd base r := by
  intro i e' hused hother
  cases h with
  | absent hsame =>
      rw [registryInit_of_inited hready] at hsame
      rw [hsame]
  | present before x e after _ hbase hfree htable howned =>
      have hx : x ≠ e' := by
        rintro rfl
        rw [hfree] at hused
        contradiction
      have he : e ≠ e' := by
        rintro rfl
        simp [ownedBy, hused, hother] at howned
      rw [hbase, htable, List.getElem?_append, List.getElem?_append]
      split
      · rfl
      · cases hi : i - before.length with
        | zero => simp [hx, he]
        | succ j => simp

theorem inited_serve (hinited : w.registry.inited = true)
    (frames : List ProtoFrame) :
    (frames.foldl (ipcOps parse fd).dispatch w).registry.inited = true := by
  induction frames generalizing w with
  | nil => exact hinited
  | cons frame frames ih =>
      apply ih
      rcases dispatch_registry parse fd w frame with hsame | hreg | hbeat
      · rw [hsame, hinited]
      · rw [hreg]
        rcases registryRegister_cases parse w.registry fd frame.payload
            (w.clock w.handled) with ⟨hfail, -⟩ |
          ⟨-, -, -, -, -, -, -, -, -, hready, -⟩
        · rw [hfail]
          exact inited_registryInit _
        · exact hready
      · rw [hbeat]
        unfold registryUpdateHeartbeat registryAtFd
        split_ifs <;> exact hinited

structure Tidy (r : Registry) : Prop where
  inited : r.inited = true
  free : ∀ x ∈ r.table, x.inUse = false → x = .free

theorem Tidy.of_rewrite {r r' : Registry} {before after : List SubprocEntry}
    {x e : SubprocEntry} (h : Tidy r) (hinited : r'.inited = true)
    (htable : r.table = before ++ x :: after)
    (htable' : r'.table = before ++ e :: after)
    (he : e.inUse = false → e = .free) : Tidy r' := by
  refine ⟨hinited, ?_⟩
  intro y hy hunused
  simp only [htable', List.mem_append, List.mem_cons] at hy
  rcases hy with hbefore | rfl | hafter
  · exact h.free y (by simp [htable, hbefore]) hunused
  · exact he hunused
  · exact h.free y (by simp [htable, hafter]) hunused

theorem Tidy.atFd (h : Tidy r) (f : SubprocEntry → SubprocEntry)
    (hf : ∀ e, e.inUse = true → (f e).inUse = false → f e = .free) :
    Tidy (registryAtFd r fd f).2 := by
  rcases registryAtFd_cases r fd f with ⟨hmiss, -⟩ |
    ⟨before, e, after, -, htable, howned, -, hready, htable'⟩
  · rw [hmiss]
    exact h
  · have hused : e.inUse = true := by
      simp only [ownedBy, Bool.and_eq_true] at howned
      exact howned.1
    exact h.of_rewrite hready htable htable' (hf e hused)

theorem Tidy.step {r' : Registry} {event : RegistryEvent} (h : Tidy r)
    (hstep : RegistryStep parse r event r') : Tidy r' := by
  cases hstep with
  | init =>
      rw [registryInit_of_inited h.inited]
      exact h
  | register fd json now =>
      rcases registryRegister_cases parse r fd json now with ⟨hfail, -⟩ |
        ⟨before, x, after, parsed, -, htable, -, -, -, hready, htable'⟩
      · rw [hfail, registryInit_of_inited h.inited]
        exact h
      · rw [registryInit_of_inited h.inited] at htable
        apply h.of_rewrite hready htable htable'
        intro hunused
        contradiction
  | unregister fd => exact h.atFd _ fun _ _ _ => rfl
  | updateHeartbeat fd now =>
      apply h.atFd
      intro e hused hunused
      rw [hused] at hunused
      contradiction
  | findByFd | findByDeviceId | iterate => exact h

theorem tidy_boot : Tidy (registryInit .boot) := by
  refine ⟨rfl, ?_⟩
  intro x hx _
  exact List.eq_of_mem_replicate hx

theorem tidy_of_run {trace : List RegistryEvent}
    (hrun : Run (RegistryStep parse) (registryInit .boot) trace r) :
    Tidy r := by
  apply hrun.invariant tidy_boot
  exact fun _ _ _ h hstep => h.step hstep

/-! ## The whole session -/

theorem unregister_registry (parse : CJsonParser) (fd : Int) (w : IpcWorld) :
    ((ipcOps parse fd).unregister w).inSend = w.inSend ∧
      ((ipcOps parse fd).unregister w).registry =
        if w.inSend then w.registry
        else (registryUnregister w.registry fd).2 := by
  simp only [ipcOps]
  split <;> simp_all

theorem session_of_run {buf : Buffer ipcRecvBufSize} {clock : Nat → UInt64}
    {script : List SendResult} {trace : List ClientInput}
    {c : ClientConn IpcWorld} (htidy : Tidy r) (hclean : Clean fd r)
    (hrun : Run (ClientStep (ipcOps parse fd))
      (.accept buf (.start r clock script)) trace c) :
    SessionSlot fd r c.world.registry ∧ c.world.registry.inited = true ∧
      (c.closed ≠ none → c.world.inSend = false → c.world.registry = r) := by
  have hsame := registryInit_of_inited htidy.inited
  generalize hstart : IpcWorld.start r clock script = w at hrun
  have hbegin : w.registry = r := by rw [← hstart]; rfl
  generalize hframes : (protoDecoder.parse (received trace)).1 = frames
  have hslot : SessionSlot fd r
      (frames.foldl (ipcOps parse fd).dispatch w).registry :=
    SessionSlot.serve hclean (.absent (by rw [hbegin, hsame])) frames
  have hready : (frames.foldl (ipcOps parse fd).dispatch
      w).registry.inited = true :=
    inited_serve (by rw [hbegin]; exact htidy.inited) frames
  rcases world_of_run hrun with ⟨hopen, hworld⟩ | ⟨-, hworld⟩ <;>
    rw [hframes] at hworld
  · rw [hworld]
    exact ⟨hslot, hready, fun hclosed => absurd hopen hclosed⟩
  · rcases unregister_registry parse fd
      (frames.foldl (ipcOps parse fd).dispatch w) with ⟨hsend, hreg⟩
    rw [← hworld] at hsend hreg
    rw [← hsend, hslot.unregister hclean htidy.free hready] at hreg
    cases hpending : c.world.inSend with
    | false =>
        rw [hpending, if_neg (by simp)] at hreg
        rw [hreg]
        exact ⟨.absent hsame, htidy.inited, fun _ _ => rfl⟩
    | true =>
        rw [hpending, if_pos rfl] at hreg
        rw [hreg]
        exact ⟨hslot, hready, fun _ => nofun⟩

/--
When the connection has been closed and `handle_client` has returned, the
registry is what it was before the session; and at no time, not even between
two frames of one chunk, has the entry of another connection changed.
-/
theorem session_leaves_no_trace {history : List RegistryEvent}
    (hreach : Run (RegistryStep parse) (registryInit .boot) history r)
    (hfree : registryFindByFd r fd = none) {buf : Buffer ipcRecvBufSize}
    {clock : Nat → UInt64} {script : List SendResult}
    {trace : List ClientInput} {c : ClientConn IpcWorld}
    (hrun : Run (ClientStep (ipcOps parse fd))
      (.accept buf (.start r clock script)) trace c) :
    (c.closed ≠ none → c.world.inSend = false → c.world.registry = r) ∧
      KeepsOthers fd r c.world.registry ∧
      ∀ served, served <+: (protoDecoder.parse (received trace)).1 →
        KeepsOthers fd r (served.foldl (ipcOps parse fd).dispatch
          (.start r clock script)).registry := by
  have htidy := tidy_of_run hreach
  have hsame := registryInit_of_inited htidy.inited
  have hclean := clean_of_find hfree
  rw [hsame] at hclean
  rcases session_of_run htidy hclean hrun with ⟨hslot, hready, hback⟩
  refine ⟨hback, hslot.keepsOthers hready, ?_⟩
  intro served _
  have hserved : SessionSlot fd r (served.foldl (ipcOps parse fd).dispatch
      (.start r clock script)).registry :=
    SessionSlot.serve hclean (.absent hsame) served
  exact hserved.keepsOthers (inited_serve htidy.inited served)

def deviceFrame (seq : UInt32) : ProtoFrame :=
  ⟨⟨protoMagic, protoVersion, protoRegister, seq,
    UInt32.ofNat registerPayload.length⟩, registerPayload⟩

def deviceBytes : List UInt8 := (deviceFrame 1).hdr.toBytes ++ registerPayload

def deviceOps : ClientOps IpcWorld := ipcOps registerParser 8

def closingStart : IpcWorld := .start releasedRegistry (fun _ => 9) [.room 64]

theorem parse_deviceBytes :
    protoDecoder.parse deviceBytes = ([deviceFrame 1], .tail []) := by
  have hframe : protoDecoder.decode deviceBytes =
      .frame (deviceFrame 1) deviceBytes.length := by
    decide +kernel
  have hempty : protoDecoder.decode [] = .incomplete := by decide
  rw [Decoder.parse_of_frame hframe, List.drop_length,
    Decoder.parse_of_incomplete hempty]

theorem session_leaves_no_trace_closed :
    ∃ c c', Run (ClientStep deviceOps) (.accept (.zero _) closingStart)
        [.recv (.data deviceBytes)] c ∧
      (registryFindByFd c.world.registry 8).isSome = true ∧
      Run (ClientStep deviceOps) (.accept (.zero _) closingStart)
        [.recv (.data deviceBytes), .recv .closed] c' ∧
      c'.world.registry = releasedRegistry := by
  have hfirst : Run (ClientStep deviceOps) (.accept (.zero _) closingStart)
      [.recv (.data deviceBytes)] _ :=
    .next .refl ⟨rfl, ⟨by decide, by decide⟩, rfl⟩
  have hreceived : received [.recv (.data deviceBytes)] = deviceBytes := by
    simp [received, ClientInput.bytes]
  have hparse := parse_deviceBytes
  rw [← hreceived] at hparse
  obtain ⟨hopen, -⟩ := open_of_deliveries hfirst
    (by simp [ClientInput.IsDelivery]) hparse
  have hlast : Run (ClientStep deviceOps) (.accept (.zero _) closingStart)
      [.recv (.data deviceBytes), .recv .closed] _ :=
    hfirst.next ⟨hopen, trivial, rfl⟩
  refine ⟨_, _, hfirst, ?_, hlast, ?_⟩
  · rcases world_of_run hfirst with ⟨-, hworld⟩ | ⟨hclosed, -⟩
    · rw [hworld, hparse]
      decide +kernel
    · contradiction
  · rcases world_of_run hlast with ⟨hclosed, -⟩ | ⟨hclosed, hworld⟩
    · contradiction
    · apply (session_leaves_no_trace released_run (by decide) hlast).1 hclosed
      have hsame : received [.recv (.data deviceBytes), .recv .closed] =
          received [.recv (.data deviceBytes)] := rfl
      rw [hworld, hsame, hparse]
      decide +kernel

end EzRouter
