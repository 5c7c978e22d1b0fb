import EzRouter.Ipc.Session

/-!
# The accept loop

`ipc_thread` with the clients that connect to its socket.  A client sends one
REGISTER frame and keeps its connection open; when its bytes arrive, and in
what pieces, is up to the kernel.  The thread is in `accept` or in
`handle_client`, and it is back in `accept` only when the session is over.
-/

namespace EzRouter

open EzRouter.Foundation

variable {parse : CJsonParser}

structure RegisterClient (parse : CJsonParser) where
  bytes : List UInt8
  frame : ProtoFrame
  declared : Declared
  decodes : protoDecode bytes = .ok (frame, bytes.length)
  isRegister : frame.hdr.cmd = protoRegister
  declares : Declares parse frame.payload declared

/-- Where a client stands, and what of its frame has not been received. -/
inductive ClientPhase where
  | away
  | queued (unread : List UInt8)
  | accepted (fd : Int) (unread : List UInt8)
  | dropped

inductive IpcThread where
  | accepting (registry : Registry)
  | serving (client : Nat) (fd : Int) (conn : ClientConn IpcWorld)

def IpcThread.registry : IpcThread → Registry
  | .accepting registry => registry
  | .serving _ _ conn => conn.world.registry

structure IpcSystem where
  thread : IpcThread
  phase : Nat → ClientPhase

/-- `main` has called `registry_init` and `ipc_server_init`. -/
def IpcSystem.start : IpcSystem where
  thread := .accepting (registryInit .boot)
  phase _ := .away

inductive IpcEvent where
  | connect (client : Nat)
  | accept (client : Nat) (fd : Int)
  | acceptFailed
  | recv (input : ClientInput)
  | close

/-- One step of the thread or of a client.  A thread that has not come back
from `send` does nothing, and `recv` never sees the end of a stream. -/
inductive IpcStep (clients : List (RegisterClient parse)) :
    IpcSystem → IpcEvent → IpcSystem → Prop where
  | connect (s : IpcSystem) (i : Nat) (client : RegisterClient parse)
      (hclient : clients[i]? = some client) (h : s.phase i = .away) :
      IpcStep clients s (.connect i)
        { s with phase := Function.update s.phase i (.queued client.bytes) }
  | accept (phase : Nat → ClientPhase) (registry : Registry) (i : Nat)
      (fd : Int) (unread : List UInt8) (buf : Buffer ipcRecvBufSize)
      (clock : Nat → UInt64) (script : List SendResult) (hfd : 0 ≤ fd)
      (h : phase i = .queued unread) :
      IpcStep clients ⟨.accepting registry, phase⟩ (.accept i fd)
        ⟨.serving i fd (.accept buf (.start registry clock script)),
          Function.update phase i (.accepted fd unread)⟩
  | acceptFailed (phase : Nat → ClientPhase) (registry : Registry) :
      IpcStep clients ⟨.accepting registry, phase⟩ .acceptFailed
        ⟨.accepting registry, phase⟩
  | recv (phase : Nat → ClientPhase) (i : Nat) (fd : Int)
      (conn conn' : ClientConn IpcWorld) (input : ClientInput)
      (rest : List UInt8) (h : phase i = .accepted fd (input.bytes ++ rest))
      (hkept : input ≠ .recv .closed) (hback : conn.world.inSend = false)
      (hstep : ClientStep (ipcOps parse fd) conn input conn') :
      IpcStep clients ⟨.serving i fd conn, phase⟩ (.recv input)
        ⟨.serving i fd conn', Function.update phase i (.accepted fd rest)⟩
  | close (phase : Nat → ClientPhase) (i : Nat) (fd : Int)
      (conn : ClientConn IpcWorld) (hback : conn.world.inSend = false)
      (hover : conn.closed ≠ none) :
      IpcStep clients ⟨.serving i fd conn, phase⟩ .close
        ⟨.accepting conn.world.registry, Function.update phase i .dropped⟩

def IpcSystem.Registered (s : IpcSystem) (i : Nat)
    (client : RegisterClient parse) : Prop :=
  ∃ fd unread e, s.phase i = .accepted fd unread ∧
    registryFindByFd s.thread.registry fd = some e ∧
    e.declared = client.declared

/-! ## One session at a time -/

/-- In `accept` the registry is empty and no connection is open; in
`handle_client` only the connection served is open. -/
def IpcInv (parse : CJsonParser) (s : IpcSystem) : Prop :=
  match s.thread with
  | .accepting registry =>
      registry = registryInit .boot ∧
        ∀ i fd unread, s.phase i ≠ .accepted fd unread
  | .serving client fd conn =>
      (∃ buf clock script trace, Run (ClientStep (ipcOps parse fd))
        (.accept buf (.start (registryInit .boot) clock script)) trace conn) ∧
        ∀ i fd' unread, s.phase i = .accepted fd' unread → i = client

theorem clean_boot (fd : Int) : Clean fd (registryInit .boot) :=
  clean_of_find (r := .boot) rfl

theorem accepted_of_update {phase : Nat → ClientPhase} {i j : Nat}
    {p : ClientPhase} {fd : Int} {unread : List UInt8}
    (h : Function.update phase i p j = .accepted fd unread) :
    j = i ∧ p = .accepted fd unread ∨
      j ≠ i ∧ phase j = .accepted fd unread := by
  by_cases hji : j = i
  · subst hji
    rw [Function.update_self] at h
    exact .inl ⟨rfl, h⟩
  · rw [Function.update_of_ne hji] at h
    exact .inr ⟨hji, h⟩

theorem IpcInv.step {clients : List (RegisterClient parse)} {s s' : IpcSystem}
    {event : IpcEvent} (h : IpcInv parse s)
    (hstep : IpcStep clients s event s') : IpcInv parse s' := by
  cases hstep with
  | connect s i client hclient haway =>
      have hphase : ∀ j fd unread,
          Function.update s.phase i (.queued client.bytes) j =
            .accepted fd unread → s.phase j = .accepted fd unread := by
        intro j fd unread hj
        rcases accepted_of_update hj with ⟨-, hqueued⟩ | ⟨-, hopen⟩
        · cases hqueued
        · exact hopen
      unfold IpcInv at h ⊢
      cases hthread : s.thread with
      | accepting registry =>
          simp only [hthread] at h ⊢
          exact ⟨h.1, fun j fd unread hj => h.2 j fd unread
            (hphase j fd unread hj)⟩
      | serving c fd conn =>
          simp only [hthread] at h ⊢
          exact ⟨h.1, fun j fd' unread hj => h.2 j fd' unread
            (hphase j fd' unread hj)⟩
  | accept phase registry i fd unread buf clock script hfd hqueued =>
      rcases h with ⟨rfl, hnone⟩
      refine ⟨⟨buf, clock, script, [], .refl⟩, ?_⟩
      intro j fd' unread' hj
      rcases accepted_of_update hj with ⟨hji, -⟩ | ⟨-, hopen⟩
      · exact hji
      · exact absurd hopen (hnone j fd' unread')
  | acceptFailed phase registry => exact h
  | recv phase i fd conn conn' input rest hphase hkept hback hclient =>
      rcases h with ⟨⟨buf, clock, script, trace, hrun⟩, honly⟩
      refine ⟨⟨buf, clock, script, _, hrun.next hclient⟩, ?_⟩
      intro j fd' unread hj
      rcases accepted_of_update hj with ⟨hji, -⟩ | ⟨-, hopen⟩
      · exact hji
      · exact honly j fd' unread hopen
  | close phase i fd conn hback hover =>
      rcases h with ⟨⟨buf, clock, script, trace, hrun⟩, honly⟩
      rcases session_of_run tidy_boot (clean_boot fd) hrun with
        ⟨-, -, hrestored⟩
      refine ⟨hrestored hover hback, ?_⟩
      intro j fd' unread hj
      rcases accepted_of_update hj with ⟨-, hdropped⟩ | ⟨hji, hopen⟩
      · cases hdropped
      · exact hji (honly j fd' unread hopen)

theorem ipcInv_of_run {clients : List (RegisterClient parse)}
    {trace : List IpcEvent} {s : IpcSystem}
    (hrun : Run (IpcStep clients) .start trace s) : IpcInv parse s := by
  apply hrun.invariant
  · exact ⟨rfl, fun _ _ _ => nofun⟩
  · exact fun _ _ _ h hstep => h.step hstep

theorem unused_boot : ∀ e ∈ (registryInit .boot).table, e.inUse = false := by
  intro e he
  rw [List.eq_of_mem_replicate he]
  rfl

theorem SessionSlot.length_le_one {fd : Int} {r : Registry}
    (hready : r.inited = true)
    (h : SessionSlot fd (registryInit .boot) r) :
    (registryIterate r).length ≤ 1 := by
  rw [registryIterate, if_neg (by simp [hready])]
  cases h with
  | absent hsame =>
      rw [registryInit_of_inited hready] at hsame
      have hnone : r.table.filter (·.inUse) = [] := by
        rw [List.filter_eq_nil_iff, hsame]
        simpa using unused_boot
      simp [hnone]
  | present before x e after _ hbase _ htable _ =>
      have hunused : ∀ y, y ∈ before ∨ y ∈ after → y.inUse = false := by
        intro y hy
        apply unused_boot
        rw [hbase]
        rcases hy with hy | hy <;> simp [hy]
      have hbefore : before.filter (·.inUse) = [] := by
        rw [List.filter_eq_nil_iff]
        simpa using fun y hy => hunused y (.inl hy)
      have hafter : after.filter (·.inUse) = [] := by
        rw [List.filter_eq_nil_iff]
        simpa using fun y hy => hunused y (.inr hy)
      rw [htable, List.filter_append, List.filter_cons, hbefore, hafter]
      split <;> simp

theorem IpcInv.length_le_one {s : IpcSystem} (h : IpcInv parse s) :
    (registryIterate s.thread.registry).length ≤ 1 := by
  unfold IpcInv at h
  cases hthread : s.thread with
  | accepting registry =>
      simp only [hthread] at h
      rw [h.1, IpcThread.registry]
      exact Nat.zero_le 1
  | serving client fd conn =>
      simp only [hthread] at h
      rcases h with ⟨⟨buf, clock, script, trace, hrun⟩, -⟩
      rcases session_of_run tidy_boot (clean_boot fd) hrun with
        ⟨hslot, hready, -⟩
      exact hslot.length_le_one hready

theorem IpcInv.open_unique {s : IpcSystem} (h : IpcInv parse s) {i j : Nat}
    {fd fd' : Int} {unread unread' : List UInt8}
    (hi : s.phase i = .accepted fd unread)
    (hj : s.phase j = .accepted fd' unread') : i = j := by
  unfold IpcInv at h
  cases hthread : s.thread with
  | accepting registry =>
      simp only [hthread] at h
      exact absurd hi (h.2 i fd unread)
  | serving client fd₀ conn =>
      simp only [hthread] at h
      rw [h.2 i fd unread hi, h.2 j fd' unread' hj]

theorem parse_single {bytes : List UInt8} {frame : ProtoFrame}
    (h : protoDecode bytes = .ok (frame, bytes.length)) :
    protoDecoder.parse bytes = ([frame], .tail []) := by
  have hframe : protoDecoder.decode bytes = .frame frame bytes.length := by
    simp [protoDecoder, h, ProtoError.verdict]
  have hempty : protoDecoder.decode [] = .incomplete := by decide
  rw [Decoder.parse_of_frame hframe, List.drop_length,
    Decoder.parse_of_incomplete hempty]

theorem register_boot {json : List UInt8} {d : Declared}
    (h : Declares parse json d) (fd : Int) (now : UInt64) :
    ∃ e, registryFindByFd
        (registryRegister parse (registryInit .boot) fd json now).2 fd =
          some e ∧ e.declared = d := by
  have hregister : ∃ m, ClientMapStep parse .empty (.register fd json now
      (registryRegister parse (registryInit .boot) fd json now).1) m ∧
      Sim (registryRegister parse (registryInit .boot) fd json now).2 m :=
    Sim.start.register fd json now
  rcases hregister with ⟨m, hstep, hsim⟩
  have hfind := hsim.findByFd fd
  generalize hstatus : (registryRegister parse (registryInit .boot) fd json
    now).1 = status at hstep
  cases hstep with
  | registered _ _ _ d' hdecl haccepts =>
      obtain rfl := hdecl.unique h
      have hlookup : (BoundedMap.insert BoundedMap.empty fd
          (⟨d', 0, now⟩ : SubprocInfo) haccepts.2.1 haccepts.2.2).lookup fd =
            some ⟨d', 0, now⟩ := Function.update_self ..
      rw [hlookup, Option.map_some, Option.map_eq_some_iff] at hfind
      rcases hfind with ⟨e, he, hpair⟩
      refine ⟨e, he, ?_⟩
      have hinfo : e.info = ⟨d', 0, now⟩ := congrArg Prod.snd hpair
      exact congrArg SubprocInfo.declared hinfo
  | rejected _ _ _ hno =>
      refine absurd ⟨d, h, rfl, ?_, nofun⟩ hno
      decide

theorem RegisterClient.length_bytes (client : RegisterClient parse) :
    0 < client.bytes.length ∧ client.bytes.length ≤ ipcRecvBufSize := by
  rcases protoDecode_ok client.decodes with ⟨-, htotal, -⟩
  have hmax := client.declares.2.1
  unfold ipcRecvBufSize protoHdrSize protoMaxPayload
  unfold protoHdrSize at htotal
  omega

theorem serves_single (client : RegisterClient parse) :
    ∃ trace s, Run (IpcStep [client]) .start trace s ∧
      s.Registered 0 client := by
  rcases client.length_bytes with ⟨hpos, hfits⟩
  let conn : ClientConn IpcWorld :=
    .accept (.zero _) (.start (registryInit .boot) (fun _ => 0) [.room 64])
  have hclient : ClientStep (ipcOps parse 7) conn (.recv (.data client.bytes))
      (handleClient (ipcOps parse 7) conn (.recv (.data client.bytes))) :=
    ⟨rfl, ⟨hpos, hfits⟩, rfl⟩
  have hsession : Run (ClientStep (ipcOps parse 7)) conn
      [.recv (.data client.bytes)] _ := .next .refl hclient
  have hreceived : received [.recv (.data client.bytes)] = client.bytes := by
    simp [received, ClientInput.bytes]
  have hopen := endingState_of_deliveries hsession
    (by simp [ClientInput.IsDelivery])
  rw [hreceived, parse_single client.decodes] at hopen
  have hworld : (handleClient (ipcOps parse 7) conn
      (.recv (.data client.bytes))).world =
        (ipcOps parse 7).dispatch conn.world client.frame := by
    rcases world_of_run hsession with ⟨-, hworld⟩ | ⟨hclosed, -⟩
    · rw [hworld, hreceived, parse_single client.decodes]
      rfl
    · exact absurd hopen hclosed
  have hregistry : ((ipcOps parse 7).dispatch conn.world
      client.frame).registry = (registryRegister parse (registryInit .boot) 7
        client.frame.payload 0).2 := by
    simp only [ipcOps, protoDispatch, client.isRegister, if_true]
    rfl
  rcases register_boot client.declares 7 0 with ⟨e, he, hdeclared⟩
  have hconnect : IpcStep [client] .start (.connect 0) _ :=
    .connect .start 0 client rfl rfl
  have haccept : IpcStep [client] _ (.accept 0 7) _ :=
    .accept (Function.update (fun _ => .away) 0 (.queued client.bytes))
      (registryInit .boot) 0 7 client.bytes (.zero _) (fun _ => 0) [.room 64]
      (by decide) (Function.update_self ..)
  have hrecv : IpcStep [client] _ (.recv (.recv (.data client.bytes))) _ :=
    .recv (Function.update (Function.update (fun _ => .away) 0
        (.queued client.bytes)) 0 (.accepted 7 client.bytes))
      0 7 conn _ (.recv (.data client.bytes)) []
      (by simp [ClientInput.bytes]) (by simp) rfl hclient
  refine ⟨_, _, ((Run.refl.next hconnect).next haccept).next hrecv, ?_⟩
  refine ⟨7, [], e, by simp, ?_, hdeclared⟩
  rw [IpcThread.registry, hworld, hregistry]
  exact he

/--
Of the clients that register and stay, at most one is ever listed: all of them
can be registered together exactly when there is only one.
-/
theorem registered_together_iff (parse : CJsonParser)
    (clients : List (RegisterClient parse)) (hsome : 1 ≤ clients.length) :
    ((∃ trace s, Run (IpcStep clients) .start trace s ∧
        ∀ i client, clients[i]? = some client → s.Registered i client) ↔
      clients.length = 1) ∧
    ∀ trace s, Run (IpcStep clients) .start trace s →
      (registryIterate s.thread.registry).length ≤ 1 := by
  refine ⟨⟨?_, ?_⟩, fun _ _ hrun => (ipcInv_of_run hrun).length_le_one⟩
  · rintro ⟨trace, s, hrun, hall⟩
    by_contra hmany
    have hfirst := hall 0 clients[0] (List.getElem?_eq_getElem (by omega))
    have hsecond := hall 1 clients[1] (List.getElem?_eq_getElem (by omega))
    rcases hfirst with ⟨fd, unread, e, hopen, -⟩
    rcases hsecond with ⟨fd', unread', e', hopen', -⟩
    exact absurd ((ipcInv_of_run hrun).open_unique hopen hopen') (by decide)
  · intro hone
    rcases List.length_eq_one_iff.1 hone with ⟨client, rfl⟩
    rcases serves_single client with ⟨trace, s, hrun, hregistered⟩
    refine ⟨trace, s, hrun, ?_⟩
    rintro (_ | i) other hother
    · obtain rfl : client = other := Option.some.inj hother
      exact hregistered
    · contradiction

def devicePayload (serial : String) : List UInt8 :=
  (CStr.lit ("\x7b\"device_id\":\"" ++ serial ++ "\",\"model\":\"m\"," ++
    "\"fw_version\":\"1.0\",\"build_date\":\"d\"\x7d")).bytes

def deviceRoot (serial : String) : CJson :=
  .object [(.lit "device_id", .string (.lit serial)),
    (.lit "model", .string (.lit "m")),
    (.lit "fw_version", .string (.lit "1.0")),
    (.lit "build_date", .string (.lit "d"))]

def twoDevices : CJsonParser := fun text =>
  if text = .ofBytes (devicePayload "SN-1") then some (deviceRoot "SN-1")
  else if text = .ofBytes (devicePayload "SN-2") then some (deviceRoot "SN-2")
  else none

def registerHdr (payload : List UInt8) : ProtoFrameHdr where
  magic := protoMagic
  version := protoVersion
  cmd := protoRegister
  seq := 0
  payloadLen := UInt32.ofNat payload.length

theorem decode_registerHdr {payload : List UInt8} (h : payload.length ≤ 4096) :
    protoDecode ((registerHdr payload).toBytes ++ payload) =
      .ok (⟨registerHdr payload, payload⟩,
        ((registerHdr payload).toBytes ++ payload).length) := by
  have hword : (registerHdr payload).payloadLen.toNat = payload.length := by
    rw [registerHdr, UInt32.toNat_ofNat']
    omega
  have hmax : (registerHdr payload).payloadLen.toNat ≤ protoMaxPayload := by
    rw [hword, protoMaxPayload]
    omega
  have hdecode := @protoDecode_toBytes (registerHdr payload) payload [] rfl rfl
    hmax hword.symm
  rw [List.append_nil] at hdecode
  rw [hdecode, List.length_append, ProtoFrameHdr.length_toBytes, hword]

def RegisterClient.ofPayload (parse : CJsonParser) (payload : List UInt8)
    (h : (parseRegisterJson parse payload .zero).isSome) :
    RegisterClient parse where
  bytes := (registerHdr payload).toBytes ++ payload
  frame := ⟨registerHdr payload, payload⟩
  declared := ((parseRegisterJson parse payload .zero).get h).declared
  decodes := decode_registerHdr
    (declares_of_parseRegisterJson (Option.some_get h).symm).2.1
  isRegister := rfl
  declares := declares_of_parseRegisterJson (Option.some_get h).symm

def firstDevice : RegisterClient twoDevices :=
  .ofPayload twoDevices (devicePayload "SN-1") (by decide)

def secondDevice : RegisterClient twoDevices :=
  .ofPayload twoDevices (devicePayload "SN-2") (by decide)

theorem two_devices_not_together :
    firstDevice.declared.deviceId ≠ secondDevice.declared.deviceId ∧
      ¬ ∃ trace s, Run (IpcStep [firstDevice, secondDevice]) .start trace s ∧
        s.Registered 0 firstDevice ∧ s.Registered 1 secondDevice := by
  constructor
  · decide +kernel
  · rintro ⟨trace, s, hrun, ⟨fd, unread, e, hopen, -⟩,
      ⟨fd', unread', e', hopen', -⟩⟩
    exact absurd ((ipcInv_of_run hrun).open_unique hopen hopen') (by decide)

theorem registered_together_iff_first :
    ∃ trace s, Run (IpcStep [firstDevice]) .start trace s ∧
      ∀ i client, [firstDevice][i]? = some client → s.Registered i client :=
  (registered_together_iff twoDevices [firstDevice] (Nat.le_refl 1)).1.2 rfl

end EzRouter
