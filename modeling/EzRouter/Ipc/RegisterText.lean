import EzRouter.Config.CJsonRoundTrip
import EzRouter.Ipc.SessionAcks

/-!
# Registration, from the document to the table

A client prints a JSON document, puts the text into a REGISTER frame and sends
it.  Here the parser is no longer a parameter: what the table holds in the end
is read off the document the client started from, whatever else is in it and
however the kernel cuts the stream into chunks.
-/

namespace EzRouter

open EzRouter.Foundation

def declaredBy (root : CJson) : Option Declared :=
  match jsonStr (some root) (.lit "device_id"),
      jsonStr (some root) (.lit "model"),
      jsonStr (some root) (.lit "fw_version"),
      jsonStr (some root) (.lit "build_date") with
  | some deviceId, some model, some fwVersion, some buildDate =>
      some {
        deviceId := deviceId.take 63
        model := model.take 31
        fwVersion := fwVersion.take 15
        buildDate := buildDate.take 15
        ports := ((declaredNames root).take registryMaxPortsPerSubproc).map
          (CStr.take 31) }
  | _, _, _, _ => none

/-- What the table `r` grants to a client that sends `text` for the document
`root`. -/
structure Grants (r : Registry) (text : List UInt8) (root : CJson)
    (d : Declared) : Prop where
  short : text.length ≤ 4096
  declared : declaredBy root = some d
  room : ∃ x ∈ r.table, x.inUse = false
  fresh : ∀ e ∈ r.table, e.inUse = true → e.deviceId.str ≠ d.deviceId

variable {strtod : Strtod} {format : Bool} {root : CJson}

theorem parse_terminated (hstrtod : ReadsInts strtod) (format : Bool)
    (hroot : Accepted cjsonNestingLimit root) :
    cJSONParse strtod (.ofBytes (valueText format 0 root ++ [0])) =
      some root := by
  have hnul := valueText_noNul format 0 root
  have hread := cJSONParse_valueText hstrtod format hroot
  rw [CStr.ofBytes_bytes ⟨valueText format 0 root, hnul⟩] at hread
  rw [CStr.ofBytes_append_zero ⟨valueText format 0 root, hnul⟩ []]
  exact hread

theorem declares_valueText_iff (hstrtod : ReadsInts strtod)
    (hroot : Accepted cjsonNestingLimit root) (d : Declared) :
    Declares (cJSONParse strtod) (valueText format 0 root) d ↔
      (valueText format 0 root).length ≤ 4096 ∧ declaredBy root = some d := by
  have hparse := parse_terminated hstrtod format hroot
  have hshows : (valueText format 0 root).length ≤ 4096 →
      ∀ d, declaredBy root = some d →
        Declares (cJSONParse strtod) (valueText format 0 root) d := by
    intro hshort d hd
    rcases valueText_head format 0 root with ⟨b, rest, htext, -⟩
    unfold declaredBy at hd
    split at hd
    · rename_i deviceId model fwVersion buildDate hdevice hmodel hfw hbuild
      obtain rfl := Option.some.inj hd
      refine ⟨by simp [htext], hshort, root, deviceId, model, fwVersion,
        buildDate, hparse, hdevice, hmodel, hfw, hbuild,
        CStr.take_isLongestFit (by decide) _,
        CStr.take_isLongestFit (by decide) _,
        CStr.take_isLongestFit (by decide) _,
        CStr.take_isLongestFit (by decide) _, ?_⟩
      rw [List.forall₂_map_right_iff, List.forall₂_same]
      intro name _
      exact CStr.take_isLongestFit (by decide) name
    · contradiction
  constructor
  · intro h
    have hkeep := h
    obtain ⟨-, hshort, root', deviceId, model, fwVersion, buildDate, hparse',
      hdevice, hmodel, hfw, hbuild, -⟩ := h
    obtain rfl := Option.some.inj (hparse.symm.trans hparse')
    refine ⟨hshort, ?_⟩
    cases hd : declaredBy root with
    | none => simp [declaredBy, hdevice, hmodel, hfw, hbuild] at hd
    | some d' => rw [hkeep.unique (hshows hshort d' hd)]
  · rintro ⟨hshort, hd⟩
    exact hshows hshort d hd

variable {fd : Int} {r : Registry} {json : List UInt8} {now : UInt64}

theorem grants_of_parsed (hstrtod : ReadsInts strtod)
    (hroot : Accepted cjsonNestingLimit root) {parsed : SubprocEntry}
    (hparse : parseRegisterJson (cJSONParse strtod) (valueText format 0 root)
      .zero = some parsed)
    (hclear : r.table.any (conflicts fd parsed.deviceId.str) = false)
    {x : SubprocEntry} (hx : x ∈ r.table) (hfree : x.inUse = false) :
    Grants r (valueText format 0 root) root parsed.declared := by
  rcases (declares_valueText_iff hstrtod hroot _).1
    (declares_of_parseRegisterJson hparse) with ⟨hshort, hd⟩
  refine ⟨hshort, hd, ⟨x, hx, hfree⟩, ?_⟩
  intro e he hused hsame
  have hblock := List.any_eq_false.1 hclear e he
  exact hblock (by simpa [conflicts, hused] using .inr hsame)

theorem registryRegister_valueText (hstrtod : ReadsInts strtod)
    (hroot : Accepted cjsonNestingLimit root) (hclean : Clean fd r)
    (now : UInt64) :
    let rc := registryRegister (cJSONParse strtod) r fd
      (valueText format 0 root) now
    (rc = (-1, r) ∧ ∀ d, ¬ Grants r (valueText format 0 root) root d) ∨
      ∃ before x after e, Grants r (valueText format 0 root) root e.declared ∧
        r.table = before ++ x :: after ∧ x.inUse = false ∧ rc.1 = 0 ∧
        rc.2.inited = true ∧ rc.2.table = before ++ e :: after ∧
        ownedBy fd e = true := by
  have hsame := registryInit_of_inited hclean.inited
  rcases registryRegister_cases (cJSONParse strtod) r fd
      (valueText format 0 root) now with ⟨hfail, hwhy⟩ |
    ⟨before, x, after, parsed, hparse, htable, hfree, hclear, hstatus, hinited,
      htable'⟩
  · rw [hsame] at hfail hwhy
    refine .inl ⟨hfail, ?_⟩
    rintro d ⟨hshort, hd, ⟨x, hx, hfree⟩, hfresh⟩
    have hdecl := (declares_valueText_iff hstrtod hroot d).2 ⟨hshort, hd⟩
    cases hparse : parseRegisterJson (cJSONParse strtod)
        (valueText format 0 root) .zero with
    | none => exact not_declares_of_parseRegisterJson hparse ⟨d, hdecl⟩
    | some parsed =>
        obtain rfl := hdecl.unique (declares_of_parseRegisterJson hparse)
        rcases hwhy parsed hparse with hconf | hfull
        · obtain ⟨e, he, hblock⟩ := List.any_eq_true.1 hconf
          simp only [conflicts, Bool.and_eq_true, Bool.or_eq_true,
            decide_eq_true_eq] at hblock
          rcases hblock.2 with hfd | hdevice
          · have hunowned := hclean.unowned e he
            simp [ownedBy, hblock.1, hfd] at hunowned
          · exact hfresh e he hblock.1 hdevice
        · rw [hfull x hx] at hfree
          contradiction
  · rw [hsame] at htable hclear
    have hgrants := grants_of_parsed hstrtod hroot hparse hclear
      (by simp [htable]) hfree
    right
    exact ⟨before, x, after, parsed.occupy fd now, hgrants, htable, hfree,
      hstatus, hinited, htable', by simp [ownedBy, SubprocEntry.occupy]⟩

/-- The first ACK of a session, as far as it was sent. -/
def FirstAck (w : IpcWorld) (frame : ProtoFrame) (ok : Bool) : Prop :=
  ∃ bytes, (w.acks.head?.map AckSend.frame) = some bytes ∧
    Answers (frame, ok) bytes

theorem FirstAck.dispatch {w : IpcWorld} {frame : ProtoFrame} {ok : Bool}
    (h : FirstAck w frame ok) (parse : CJsonParser) (fd : Int)
    (next : ProtoFrame) :
    FirstAck ((ipcOps parse fd).dispatch w next) frame ok := by
  rcases h with ⟨bytes, hhead, hanswers⟩
  refine ⟨bytes, ?_, hanswers⟩
  rcases dispatch_acks parse fd w next with ⟨-, hacks, -⟩ |
    ⟨-, -, bytes', -, -, hacks, -⟩
  · rw [hacks, hhead]
  · cases hw : w.acks with
    | nil => simp [hw] at hhead
    | cons a acks =>
        rw [hw] at hhead
        rw [hacks, hw]
        exact hhead

theorem FirstAck.serve {w : IpcWorld} {frame : ProtoFrame} {ok : Bool}
    (h : FirstAck w frame ok) (parse : CJsonParser) (fd : Int)
    (frames : List ProtoFrame) :
    FirstAck (EzRouter.serve parse fd w frames) frame ok := by
  induction frames generalizing w with
  | nil => exact h
  | cons next frames ih => exact ih (h.dispatch parse fd next)

theorem sendRegisterAck_frame {reqSeq : UInt32} {ok : Bool}
    {bytes : List UInt8} (h : encodeRegisterAck reqSeq ok = some bytes)
    (script : List SendResult) :
    (sendRegisterAck reqSeq ok script).2.1.map AckSend.frame = some bytes := by
  rw [sendRegisterAck, h]
  rfl

theorem dispatch_register (parse : CJsonParser) (fd : Int) (r : Registry)
    (clock : Nat → UInt64) (script : List SendResult) (frame : ProtoFrame)
    (hcmd : frame.hdr.cmd = protoRegister) :
    let rc := registryRegister parse r fd frame.payload (clock 0)
    let w := (ipcOps parse fd).dispatch (.start r clock script) frame
    w.registry = rc.2 ∧ FirstAck w frame (decide (rc.1 = 0)) := by
  intro rc w
  have hw : w = handleRegister parse fd (.start r clock script) frame := by
    simp [w, ipcOps, protoDispatch, hcmd, IpcWorld.start]
  have hacks : w.acks = (sendRegisterAck frame.hdr.seq (decide (rc.1 = 0))
      script).2.1.toList := by
    rw [hw]
    rfl
  rcases answers_encode frame (decide (rc.1 = 0)) with ⟨bytes, -, hanswers⟩
  refine ⟨by rw [hw]; rfl, bytes, ?_, hanswers⟩
  rw [hacks, Option.head?_toList]
  exact sendRegisterAck_frame hanswers.encoded script

/-! ## The session -/

theorem parse_encoded {hdr : ProtoFrameHdr} {payload out : List UInt8}
    {outCap : Nat} (hout : Encodes hdr payload outCap out)
    (rest : List UInt8) :
    protoDecoder.parse (out ++ rest) =
      (sentFrame hdr payload :: (protoDecoder.parse rest).1,
        (protoDecoder.parse rest).2) := by
  have hframe : protoDecoder.decode (out ++ rest) =
      .frame (sentFrame hdr payload) out.length := by
    change ProtoError.verdict (protoDecode (out ++ rest)) = _
    rw [hout.decode rest]
    rfl
  rw [Decoder.parse_of_frame hframe, List.drop_left]

theorem parse_nil : protoDecoder.parse [] = ([], .tail []) :=
  Decoder.parse_of_incomplete (by decide)

theorem world_after_first {parse : CJsonParser} {start : IpcWorld}
    {buf : Buffer ipcRecvBufSize} {trace : List ClientInput}
    {c : ClientConn IpcWorld}
    (hrun : Run (ClientStep (ipcOps parse fd)) (.accept buf start) trace c)
    {hdr : ProtoFrameHdr} {payload out rest : List UInt8} {outCap : Nat}
    (hout : Encodes hdr payload outCap out)
    (hrest : out ++ rest = received trace) :
    let served := serve parse fd
      ((ipcOps parse fd).dispatch start (sentFrame hdr payload))
      (protoDecoder.parse rest).1
    (c.closed = none → c.world = served) ∧ c.world.acks = served.acks := by
  have hframes := congrArg Prod.fst (parse_encoded hout rest)
  rw [hrest] at hframes
  constructor
  · intro hnone
    rcases world_of_run hrun with ⟨-, hworld⟩ | ⟨hclosed, -⟩
    · rw [hworld, hframes]
      rfl
    · contradiction
  · rw [ClientConn.acks_eq hrun, hframes]
    rfl

theorem findByDeviceId_of_split {before after : List SubprocEntry}
    {e : SubprocEntry} (hinited : r.inited = true)
    (htable : r.table = before ++ e :: after) (hused : e.inUse = true)
    (hfresh : ∀ y ∈ before, y.inUse = true →
      y.deviceId.str ≠ e.deviceId.str) :
    registryFindByDeviceId r (some e.deviceId.str) = some e := by
  simp only [registryFindByDeviceId, hinited, htable, Bool.not_true,
    Bool.false_eq_true, if_false]
  apply find?_of_split
  · intro y hy
    cases hy' : y.inUse with
    | false => rfl
    | true => simpa using hfresh y hy hy'
  · simp [hused]

theorem serve_granted (parse : CJsonParser) {base : Registry} {w : IpcWorld}
    {before after : List SubprocEntry} {x e : SubprocEntry}
    {text : List UInt8} (hclean : Clean fd base)
    (hgrants : Grants base text root e.declared)
    (hbase : base.table = before ++ x :: after)
    (hinited : w.registry.inited = true)
    (htable : w.registry.table = before ++ e :: after)
    (howned : ownedBy fd e = true) (frames : List ProtoFrame) :
    ∃ e', registryFindByFd (serve parse fd w frames).registry fd = some e' ∧
      registryFindByDeviceId (serve parse fd w frames).registry
        (some e.declared.deviceId) = some e' ∧ e'.declared = e.declared := by
  rcases @serve_present parse _ _ w _ _ _ _ hclean hbase frames hinited
    htable howned with ⟨now, hinited', htable'⟩
  have hused : e.inUse = true := by
    simp only [ownedBy, Bool.and_eq_true] at howned
    exact howned.1
  refine ⟨_, find_of_present hclean hbase hinited' htable' howned, ?_, rfl⟩
  apply findByDeviceId_of_split hinited' htable' hused
  intro y hy
  exact hgrants.fresh y (by simp [hbase, hy])

/--
A client whose stream begins with a REGISTER frame for a printed document is
told whether the table grants it what the document declares.  If so, its entry
shows just that for as long as the connection is open; if not, the frame has
changed nothing.
-/
theorem register_text {strtod : Strtod} (hstrtod : ReadsInts strtod)
    {format : Bool} {root : CJson} (hroot : Accepted cjsonNestingLimit root)
    {text : List UInt8} (hprint : cJSONPrint format root = some text)
    {hdr : ProtoFrameHdr} (hcmd : hdr.cmd = protoRegister) {outCap : Nat}
    {out : List UInt8} (hout : Encodes hdr text outCap out)
    {history : List RegistryEvent} {r : Registry}
    (hreach : Run (RegistryStep (cJSONParse strtod)) (registryInit .boot)
      history r)
    {fd : Int} (hfree : registryFindByFd r fd = none)
    {buf : Buffer ipcRecvBufSize} {clock : Nat → UInt64}
    {script : List SendResult} {trace : List ClientInput}
    {c : ClientConn IpcWorld}
    (hrun : Run (ClientStep (ipcOps (cJSONParse strtod) fd))
      (.accept buf (.start r clock script)) trace c)
    (hsent : out <+: received trace) :
    (∃ d, Grants r text root d ∧
      FirstAck c.world (sentFrame hdr text) true ∧
      (c.closed = none → ∃ e,
        registryFindByFd c.world.registry fd = some e ∧
          registryFindByDeviceId c.world.registry (some d.deviceId) = some e ∧
          e.declared = d)) ∨
    ((∀ d, ¬ Grants r text root d) ∧
      FirstAck c.world (sentFrame hdr text) false ∧
      (c.closed = none → received trace = out → c.world.registry = r)) := by
  obtain rfl := valueText_of_cJSONPrint hprint
  have hclean := clean_of_find hfree
  rw [registryInit_of_inited (tidy_of_run hreach).inited] at hclean
  obtain ⟨rest, hrest⟩ := hsent
  have hfirst := dispatch_register (cJSONParse strtod) fd r clock script
    (sentFrame hdr (valueText format 0 root)) hcmd
  have hafter := world_after_first hrun hout hrest
  generalize (ipcOps (cJSONParse strtod) fd).dispatch
    (.start r clock script) (sentFrame hdr (valueText format 0 root)) = w
    at hfirst hafter
  rcases hfirst with ⟨hreg, hack⟩
  rcases hafter with ⟨hopen, hacks⟩
  have hanswered : ∀ ok, FirstAck w (sentFrame hdr (valueText format 0 root))
      ok → FirstAck c.world (sentFrame hdr (valueText format 0 root)) ok := by
    intro ok h
    have hserved := h.serve (cJSONParse strtod) fd (protoDecoder.parse rest).1
    unfold FirstAck at hserved ⊢
    rw [hacks]
    exact hserved
  change w.registry = (registryRegister (cJSONParse strtod) r fd
    (valueText format 0 root) (clock 0)).2 at hreg
  change FirstAck w _ (decide ((registryRegister (cJSONParse strtod) r fd
    (valueText format 0 root) (clock 0)).1 = 0)) at hack
  rcases registryRegister_valueText hstrtod hroot hclean (clock 0) with
    ⟨hfail, hnone⟩ |
    ⟨before, x, after, e, hgrants, hbase, -, hstatus, hinited, htable, howned⟩
  · right
    rw [hfail] at hreg hack
    refine ⟨hnone, hanswered false hack, ?_⟩
    intro hclosed hall
    have hempty : rest = [] := by
      rw [hall] at hrest
      exact List.append_right_eq_self.1 hrest
    rw [hopen hclosed, hempty, parse_nil]
    exact hreg
  · left
    rw [hstatus] at hack
    rw [← hreg] at hinited htable
    refine ⟨e.declared, hgrants, hanswered true hack, ?_⟩
    intro hclosed
    rw [hopen hclosed]
    exact serve_granted (cJSONParse strtod) hclean hgrants hbase hinited htable
      howned _

def textRecord (members : List (CStr × CStr)) : CJson :=
  .object (members.map fun member => (member.1, .string member.2))

theorem accepted_textRecord (members : List (CStr × CStr)) :
    Accepted cjsonNestingLimit (textRecord members) := by
  constructor
  · apply CJson.IntSized.object
    intro member hmember
    obtain ⟨pair, -, rfl⟩ := List.mem_map.1 hmember
    exact .string _
  · apply CJson.NestsWithin.object 999
    intro member hmember
    obtain ⟨pair, -, rfl⟩ := List.mem_map.1 hmember
    exact .string _ _

def smokeDocument : CJson :=
  textRecord [(.lit "device_id", .lit "SMOKE-1"), (.lit "model", .lit "smoke"),
    (.lit "fw_version", .lit "0.0.1"), (.lit "build_date", .lit "2026-04-28")]

def smokeDeclared : Declared :=
  ⟨.lit "SMOKE-1", .lit "smoke", .lit "0.0.1", .lit "2026-04-28", []⟩

def smokeText : List UInt8 :=
  (CStr.lit ("\x7b\"device_id\":\"SMOKE-1\",\"model\":\"smoke\"," ++
    "\"fw_version\":\"0.0.1\",\"build_date\":\"2026-04-28\"\x7d")).bytes

def smokeHdr : ProtoFrameHdr :=
  ⟨0, 0, protoRegister, 42, UInt32.ofNat smokeText.length⟩

def smokeBytes : List UInt8 :=
  (sentFrame smokeHdr smokeText).hdr.toBytes ++ smokeText

theorem register_text_smoke :
    let c := handleClient (ipcOps (cJSONParse strtodDecimal) 7)
      (.accept (.zero _)
        (.start (registryInit .boot) (fun _ => 0) [.room 64]))
      (.recv (.data smokeBytes))
    FirstAck c.world (sentFrame smokeHdr smokeText) true ∧
      ∃ e, registryFindByFd c.world.registry 7 = some e ∧
        e.declared = smokeDeclared := by
  intro c
  have hlen : smokeText.length = smokeHdr.payloadLen.toNat := by decide
  have hout : Encodes smokeHdr smokeText 256 smokeBytes :=
    ⟨hlen, protoEncode_ok hlen (by decide) (by decide)⟩
  have hrun : Run (ClientStep (ipcOps (cJSONParse strtodDecimal) 7))
      (.accept (.zero _)
        (.start (registryInit .boot) (fun _ => 0) [.room 64]))
      [.recv (.data smokeBytes)] c :=
    .next .refl ⟨rfl, ⟨by decide, by decide⟩, rfl⟩
  have hreceived : received [.recv (.data smokeBytes)] = smokeBytes := by
    simp [received, ClientInput.bytes]
  have hopen := endingState_of_deliveries hrun
    (by simp [ClientInput.IsDelivery])
  rw [hreceived, ← List.append_nil smokeBytes, parse_encoded hout, parse_nil]
    at hopen
  have hprint : cJSONPrint false smokeDocument = some smokeText := by
    decide +kernel
  rcases register_text readsInts_strtodDecimal (accepted_textRecord _) hprint
      rfl hout .refl rfl hrun (by rw [hreceived]) with
    ⟨d, hgrants, hack, hentry⟩ | ⟨hnone, -⟩
  · obtain rfl : d = smokeDeclared :=
      Option.some.inj (hgrants.declared.symm.trans (by rfl))
    obtain ⟨e, hfound, -, hdeclared⟩ := hentry hopen
    exact ⟨hack, e, hfound, hdeclared⟩
  · refine absurd ⟨by decide, by rfl, ?_, ?_⟩ (hnone smokeDeclared)
    · exact ⟨.free, by decide, rfl⟩
    · intro e he hused
      rw [List.eq_of_mem_replicate he] at hused
      contradiction

end EzRouter
