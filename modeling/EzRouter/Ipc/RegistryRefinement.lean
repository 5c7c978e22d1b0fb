import EzRouter.Foundation.SlotMap
import EzRouter.Foundation.Transition
import EzRouter.Ipc.Registry

/-!
# The registry is a bounded partial map

The purpose of the registry, stated without slots: a map from connections to
what the subprocess behind them declared, with at most 32 keys and no device
listed twice.  Every section under the lock is one step.  The slot table
simulates the map, step by step and result by result.
-/

namespace EzRouter

open EzRouter.Foundation

structure Declared where
  deviceId : CStr
  model : CStr
  fwVersion : CStr
  buildDate : CStr
  ports : List CStr
  deriving DecidableEq

structure SubprocInfo where
  declared : Declared
  lastSeq : UInt32
  lastHeartbeatMs : UInt64
  deriving DecidableEq

abbrev ClientMap :=
  BoundedMap Int SubprocInfo CStr registryMaxSubprocs (·.declared.deviceId)

def declaredNames (root : CJson) : List CStr :=
  (arrayItems (cJSONGetObjectItemCaseSensitive (some root)
    (.lit "ports"))).filterMap fun it => jsonStr (some it) (.lit "name")

/-- A payload of 1 to 4096 bytes that parses to the four required strings, and
the values they are cut to. -/
def Declares (parse : CJsonParser) (json : List UInt8) (d : Declared) : Prop :=
  1 ≤ json.length ∧ json.length ≤ 4096 ∧
    ∃ root deviceId model fwVersion buildDate,
      parse (.ofBytes (json ++ [0])) = some root ∧
      jsonStr (some root) (.lit "device_id") = some deviceId ∧
      jsonStr (some root) (.lit "model") = some model ∧
      jsonStr (some root) (.lit "fw_version") = some fwVersion ∧
      jsonStr (some root) (.lit "build_date") = some buildDate ∧
      CStr.IsLongestFit 64 deviceId d.deviceId ∧
      CStr.IsLongestFit 32 model d.model ∧
      CStr.IsLongestFit 16 fwVersion d.fwVersion ∧
      CStr.IsLongestFit 16 buildDate d.buildDate ∧
      List.Forall₂ (CStr.IsLongestFit 32)
        ((declaredNames root).take registryMaxPortsPerSubproc) d.ports

inductive RegistryEvent where
  | init
  | register (fd : Int) (json : List UInt8) (now : UInt64) (status : Int)
  | unregister (fd : Int) (status : Int)
  | updateHeartbeat (fd : Int) (now : UInt64) (status : Int)
  | findByFd (fd : Int) (found : Option (Int × SubprocInfo))
  | findByDeviceId (deviceId : Option CStr) (found : Option (Int × SubprocInfo))
  | iterate (visited : List (Int × SubprocInfo))

def RegistryEvent.status : RegistryEvent → Option Int
  | .register _ _ _ status => some status
  | .unregister _ status => some status
  | .updateHeartbeat _ _ status => some status
  | _ => none

def Accepts (m : ClientMap) (fd : Int) (d : Declared) : Prop :=
  m.lookup fd = none ∧ m.keys.card < registryMaxSubprocs ∧
    ∀ l w, m.lookup l = some w → w.declared.deviceId ≠ d.deviceId

inductive ClientMapStep (parse : CJsonParser) :
    ClientMap → RegistryEvent → ClientMap → Prop where
  | init (m : ClientMap) : ClientMapStep parse m .init m
  | registered (m : ClientMap) (fd : Int) (json : List UInt8) (now : UInt64)
      (d : Declared) (hdecl : Declares parse json d) (h : Accepts m fd d) :
      ClientMapStep parse m (.register fd json now 0)
        (m.insert fd ⟨d, 0, now⟩ h.2.1 h.2.2)
  | rejected (m : ClientMap) (fd : Int) (json : List UInt8) (now : UInt64)
      (h : ¬ ∃ d, Declares parse json d ∧ Accepts m fd d) :
      ClientMapStep parse m (.register fd json now (-1)) m
  | unregistered (m : ClientMap) (fd : Int) (h : fd ∈ m.keys) :
      ClientMapStep parse m (.unregister fd 0) (m.erase fd)
  | unregisterMissing (m : ClientMap) (fd : Int) (h : fd ∉ m.keys) :
      ClientMapStep parse m (.unregister fd (-1)) m
  | heartbeat (m : ClientMap) (fd : Int) (now : UInt64) (h : fd ∈ m.keys) :
      ClientMapStep parse m (.updateHeartbeat fd now 0)
        (m.modify fd (fun i => { i with lastHeartbeatMs := now }) fun _ => rfl)
  | heartbeatMissing (m : ClientMap) (fd : Int) (now : UInt64)
      (h : fd ∉ m.keys) : ClientMapStep parse m (.updateHeartbeat fd now (-1)) m
  | findByFd (m : ClientMap) (fd : Int) :
      ClientMapStep parse m (.findByFd fd ((m.lookup fd).map (Prod.mk fd))) m
  | findByDeviceId (m : ClientMap) (deviceId : Option CStr)
      (found : Option (Int × SubprocInfo))
      (h : ∀ fd i, found = some (fd, i) ↔
        m.lookup fd = some i ∧ some i.declared.deviceId = deviceId) :
      ClientMapStep parse m (.findByDeviceId deviceId found) m
  | iterate (m : ClientMap) (visited : List (Int × SubprocInfo))
      (hnodup : (visited.map Prod.fst).Nodup)
      (hall : ∀ fd i, (fd, i) ∈ visited ↔ m.lookup fd = some i) :
      ClientMapStep parse m (.iterate visited) m

/-! ## The slot table -/

def SubprocEntry.ports (e : SubprocEntry) : List CStr :=
  (e.portNames.toList.take e.portCount).map Buffer.str

def SubprocEntry.declared (e : SubprocEntry) : Declared where
  deviceId := e.deviceId.str
  model := e.model.str
  fwVersion := e.fwVersion.str
  buildDate := e.buildDate.str
  ports := e.ports

def SubprocEntry.info (e : SubprocEntry) : SubprocInfo :=
  ⟨e.declared, e.lastSeq, e.lastHeartbeatMs⟩

def SubprocEntry.pair (e : SubprocEntry) : Int × SubprocInfo :=
  (e.clientFd, e.info)

inductive RegistryStep (parse : CJsonParser) :
    Registry → RegistryEvent → Registry → Prop where
  | init (r : Registry) : RegistryStep parse r .init (registryInit r)
  | register (r : Registry) (fd : Int) (json : List UInt8) (now : UInt64) :
      RegistryStep parse r
        (.register fd json now (registryRegister parse r fd json now).1)
        (registryRegister parse r fd json now).2
  | unregister (r : Registry) (fd : Int) :
      RegistryStep parse r (.unregister fd (registryUnregister r fd).1)
        (registryUnregister r fd).2
  | updateHeartbeat (r : Registry) (fd : Int) (now : UInt64) :
      RegistryStep parse r
        (.updateHeartbeat fd now (registryUpdateHeartbeat r fd now).1)
        (registryUpdateHeartbeat r fd now).2
  | findByFd (r : Registry) (fd : Int) :
      RegistryStep parse r
        (.findByFd fd ((registryFindByFd r fd).map SubprocEntry.pair)) r
  | findByDeviceId (r : Registry) (deviceId : Option CStr) :
      RegistryStep parse r
        (.findByDeviceId deviceId
          ((registryFindByDeviceId r deviceId).map SubprocEntry.pair)) r
  | iterate (r : Registry) :
      RegistryStep parse r
        (.iterate ((registryIterate r).map SubprocEntry.pair)) r

structure Sim (r : Registry) (m : ClientMap) : Prop where
  inited : r.inited = true
  represents : Represents SubprocEntry.inUse SubprocEntry.clientFd
    SubprocEntry.info r.table m

theorem copyField_str {cap : Nat} (hcap : 0 < cap) (dst : Buffer cap)
    (src : CStr) : (copyField dst src).str = src.take (cap - 1) := by
  apply Buffer.str_write_terminated
  simp [CStr.length]
  omega

theorem copyField_isLongestFit {cap : Nat} (hcap : 0 < cap) (dst : Buffer cap)
    (src : CStr) : CStr.IsLongestFit cap src (copyField dst src).str := by
  rw [copyField_str hcap]
  exact CStr.take_isLongestFit hcap src

theorem SubprocEntry.ports_storePortName (e : SubprocEntry) (name : CStr)
    (hroom : e.portCount < registryMaxPortsPerSubproc) :
    (e.storePortName name hroom).ports = e.ports ++ [name.take 31] := by
  have hlen : e.portCount < e.portNames.toList.length := by simpa using hroom
  simp only [SubprocEntry.ports, SubprocEntry.storePortName,
    Vector.toList_set]
  rw [List.take_add_one, List.take_set_of_le (Nat.le_refl _),
    List.getElem?_set_self hlen]
  simp [copyField_str]

theorem parsePortNames_ports (items : List CJson) (e : SubprocEntry)
    (hcount : e.portCount ≤ registryMaxPortsPerSubproc) :
    (parsePortNames items e).ports = e.ports ++
      ((items.filterMap fun it => jsonStr (some it) (.lit "name")).take
        (registryMaxPortsPerSubproc - e.portCount)).map (CStr.take 31) := by
  induction items generalizing e with
  | nil => simp [parsePortNames]
  | cons it items ih =>
      unfold parsePortNames
      split
      · rename_i hroom
        cases hname : jsonStr (some it) (.lit "name") with
        | none => simp [hname, ih e hcount]
        | some name =>
            have hleft : registryMaxPortsPerSubproc - e.portCount =
                registryMaxPortsPerSubproc - (e.portCount + 1) + 1 := by
              omega
            have hstored : (e.storePortName name hroom).portCount =
                e.portCount + 1 := rfl
            simp only
            rw [ih (e.storePortName name hroom) hroom, hstored,
              SubprocEntry.ports_storePortName, List.filterMap_cons, hname,
              hleft, List.take_succ_cons]
            simp
      · rename_i hfull
        have hzero : registryMaxPortsPerSubproc - e.portCount = 0 := by omega
        simp [hzero]

theorem parsePortNames_fields (items : List CJson) (e : SubprocEntry) :
    (parsePortNames items e).deviceId = e.deviceId ∧
      (parsePortNames items e).model = e.model ∧
      (parsePortNames items e).fwVersion = e.fwVersion ∧
      (parsePortNames items e).buildDate = e.buildDate := by
  induction items generalizing e with
  | nil => exact ⟨rfl, rfl, rfl, rfl⟩
  | cons it items ih =>
      unfold parsePortNames
      split
      · split <;> apply ih
      · exact ⟨rfl, rfl, rfl, rfl⟩

theorem declares_of_parseRegisterJson {parse : CJsonParser} {json : List UInt8}
    {e : SubprocEntry} (h : parseRegisterJson parse json .zero = some e) :
    Declares parse json e.declared := by
  unfold parseRegisterJson at h
  split at h
  · contradiction
  · rename_i hsize
    split at h
    · contradiction
    · rename_i root hparse
      split at h
      · rename_i deviceId model fwVersion buildDate hdevice hmodel hfw hbuild
        rw [Option.some.injEq] at h
        subst h
        refine ⟨by omega, by omega, root, deviceId, model, fwVersion, buildDate,
          hparse, hdevice, hmodel, hfw, hbuild, ?_⟩
        obtain ⟨hdevice', hmodel', hfw', hbuild'⟩ := parsePortNames_fields
          (arrayItems (cJSONGetObjectItemCaseSensitive (some root)
            (.lit "ports")))
          (SubprocEntry.zero.copyFields deviceId model fwVersion buildDate)
        simp only [SubprocEntry.declared, hdevice', hmodel', hfw', hbuild']
        refine ⟨copyField_isLongestFit (by decide) _ _,
          copyField_isLongestFit (by decide) _ _,
          copyField_isLongestFit (by decide) _ _,
          copyField_isLongestFit (by decide) _ _, ?_⟩
        rw [parsePortNames_ports _ _ (Nat.zero_le _)]
        change List.Forall₂ _ _ ([] ++ ((declaredNames root).take _).map _)
        rw [List.nil_append, List.forall₂_map_right_iff]
        apply List.forall₂_same.2
        intro name _
        exact CStr.take_isLongestFit (by decide) name
      · contradiction

theorem not_declares_of_parseRegisterJson {parse : CJsonParser}
    {json : List UInt8} (h : parseRegisterJson parse json .zero = none) :
    ¬ ∃ d, Declares parse json d := by
  rintro ⟨d, hmin, hmax, root, deviceId, model, fwVersion, buildDate, hparse,
    hdevice, hmodel, hfw, hbuild, -⟩
  have hsize : ¬ (json.length = 0 ∨ json.length > 4096) := by omega
  rw [parseRegisterJson, if_neg hsize, hparse] at h
  simp [hdevice, hmodel, hfw, hbuild] at h

theorem Declares.unique {parse : CJsonParser} {json : List UInt8}
    {d d' : Declared} (h : Declares parse json d)
    (h' : Declares parse json d') : d = d' := by
  obtain ⟨-, -, root, deviceId, model, fwVersion, buildDate, hparse, hdevice,
    hmodel, hfw, hbuild, hd, hm, hf, hb, hports⟩ := h
  obtain ⟨-, -, root', deviceId', model', fwVersion', buildDate', hparse',
    hdevice', hmodel', hfw', hbuild', hd', hm', hf', hb', hports'⟩ := h'
  obtain rfl := Option.some.inj (hparse.symm.trans hparse')
  obtain rfl := Option.some.inj (hdevice.symm.trans hdevice')
  obtain rfl := Option.some.inj (hmodel.symm.trans hmodel')
  obtain rfl := Option.some.inj (hfw.symm.trans hfw')
  obtain rfl := Option.some.inj (hbuild.symm.trans hbuild')
  have hports_eq : d.ports = d'.ports :=
    List.right_unique_forall₂' (fun _ _ _ hp hq => hp.unique hq) hports hports'
  cases d
  cases d'
  simp only [Declared.mk.injEq]
  exact ⟨hd.unique hd', hm.unique hm', hf.unique hf', hb.unique hb', hports_eq⟩

theorem mem_live {table : List SubprocEntry} {e : SubprocEntry}
    (he : e ∈ table) (hused : e.inUse = true) :
    e ∈ table.filter SubprocEntry.inUse :=
  List.mem_filter.2 ⟨he, hused⟩

theorem Sim.not_accepts {r : Registry} {m : ClientMap} (h : Sim r m) {fd : Int}
    {d : Declared} (hconf : r.table.any (conflicts fd d.deviceId) = true) :
    ¬ Accepts m fd d := by
  rintro ⟨hfresh, -, hdistinct⟩
  obtain ⟨e, he, hblock⟩ := List.any_eq_true.1 hconf
  simp only [conflicts, Bool.and_eq_true, Bool.or_eq_true,
    decide_eq_true_eq] at hblock
  have hlookup := h.represents.lookup_of_mem (mem_live he hblock.1)
  rcases hblock.2 with hfd | hdevice
  · rw [hfd, hfresh] at hlookup
    contradiction
  · exact hdistinct _ _ hlookup hdevice

theorem Sim.card_lt {r : Registry} {m : ClientMap} (h : Sim r m)
    {x : SubprocEntry} (hx : x ∈ r.table) (hfree : x.inUse = false) :
    m.keys.card < registryMaxSubprocs := by
  rw [h.represents.card_keys, ← r.length_eq]
  apply List.length_filter_lt_length_iff_exists.2
  exact ⟨x, hx, by simp [hfree]⟩

theorem Sim.accepts {r : Registry} {m : ClientMap} (h : Sim r m) {fd : Int}
    {d : Declared} (hconf : r.table.any (conflicts fd d.deviceId) = false)
    {x : SubprocEntry} (hx : x ∈ r.table) (hfree : x.inUse = false) :
    Accepts m fd d := by
  have hclear : ∀ e ∈ r.table.filter SubprocEntry.inUse,
      e.clientFd ≠ fd ∧ e.deviceId.str ≠ d.deviceId := by
    intro e he
    obtain ⟨hmem, hused⟩ := List.mem_filter.1 he
    have hblock := List.any_eq_false.1 hconf e hmem
    simpa [conflicts, hused] using hblock
  refine ⟨?_, h.card_lt hx hfree, ?_⟩
  · rw [h.represents.lookup_eq_none_iff]
    exact fun e he => (hclear e he).1
  · intro l w hlookup
    obtain ⟨e, he, -, rfl⟩ := (h.represents.lookup_iff _ _).1 hlookup
    exact (hclear e he).2

theorem Sim.full {r : Registry} {m : ClientMap} (h : Sim r m)
    (hfull : ∀ e ∈ r.table, e.inUse = true) : ¬ m.keys.card < 32 := by
  rw [h.represents.card_keys, List.filter_eq_self.2 hfull, r.length_eq]
  decide

theorem Sim.register {parse : CJsonParser} {r : Registry} {m : ClientMap}
    (h : Sim r m) (fd : Int) (json : List UInt8) (now : UInt64) :
    ∃ m', ClientMapStep parse m
        (.register fd json now (registryRegister parse r fd json now).1) m' ∧
      Sim (registryRegister parse r fd json now).2 m' := by
  have hready := registryInit_of_inited h.inited
  rcases registryRegister_cases parse r fd json now with ⟨hfail, hwhy⟩ |
    ⟨before, x, after, parsed, hparse, htable, hfree, hclear, hstatus, hinited,
      htable'⟩
  · rw [hready] at hfail hwhy
    rw [hfail]
    refine ⟨m, .rejected m fd json now ?_, h⟩
    rintro ⟨d, hdecl, haccepts⟩
    cases hparse : parseRegisterJson parse json .zero with
    | none => exact not_declares_of_parseRegisterJson hparse ⟨d, hdecl⟩
    | some parsed =>
        obtain rfl := hdecl.unique (declares_of_parseRegisterJson hparse)
        rcases hwhy parsed hparse with hconf | hfull
        · exact h.not_accepts hconf haccepts
        · exact h.full hfull haccepts.2.1
  · rw [hready] at htable hclear
    have haccepts : Accepts m fd parsed.declared :=
      h.accepts hclear (by simp [htable]) hfree
    rw [hstatus]
    refine ⟨_, .registered m fd json now parsed.declared
      (declares_of_parseRegisterJson hparse) haccepts, hinited, ?_⟩
    refine h.represents.insert (e := parsed.occupy fd now) ?_ haccepts.1 _ _
    rw [htable, htable']
    exact filter_claim hfree rfl

theorem Sim.at_fd {r : Registry} {m : ClientMap} (h : Sim r m) (fd : Int)
    (f : SubprocEntry → SubprocEntry) :
    (fd ∉ m.keys ∧ registryAtFd r fd f = (-1, r)) ∨
      ∃ before e after, fd ∈ m.keys ∧ e.inUse = true ∧ e.clientFd = fd ∧
        r.table = before ++ e :: after ∧
        (registryAtFd r fd f).1 = 0 ∧
        (registryAtFd r fd f).2.inited = true ∧
        (registryAtFd r fd f).2.table = before ++ f e :: after := by
  rcases registryAtFd_cases r fd f with ⟨hmiss, hunowned⟩ |
    ⟨before, e, after, -, htable, howned, hrewrite⟩
  · left
    refine ⟨?_, hmiss⟩
    rw [m.not_mem_keys, h.represents.lookup_eq_none_iff]
    intro e he hfd
    rcases List.mem_filter.1 he with ⟨hmem, hused⟩
    simpa [ownedBy, hused, hfd] using hunowned h.inited e hmem
  · right
    have hmem : e ∈ r.table := by simp [htable]
    rcases (by simpa [ownedBy] using howned :
      e.inUse = true ∧ e.clientFd = fd) with ⟨hused, hfd⟩
    have hkey : fd ∈ m.keys := by
      rw [m.mem_keys, ← hfd, h.represents.lookup_of_mem (mem_live hmem hused)]
      rfl
    exact ⟨before, e, after, hkey, hused, hfd, htable, hrewrite⟩

theorem Sim.unregister {parse : CJsonParser} {r : Registry} {m : ClientMap}
    (h : Sim r m) (fd : Int) :
    ∃ m', ClientMapStep parse m
        (.unregister fd (registryUnregister r fd).1) m' ∧
      Sim (registryUnregister r fd).2 m' := by
  unfold registryUnregister
  rcases h.at_fd fd (fun _ => .free) with ⟨hkey, hsame⟩ |
    ⟨before, e, after, hkey, hused, rfl, htable, hstatus, hinited, htable'⟩
  · rw [hsame]
    exact ⟨m, .unregisterMissing m fd hkey, h⟩
  · rw [hstatus]
    refine ⟨_, .unregistered m _ hkey, hinited, ?_⟩
    apply h.represents.erase
    rw [htable, htable']
    exact filter_release hused rfl

theorem Sim.updateHeartbeat {parse : CJsonParser} {r : Registry} {m : ClientMap}
    (h : Sim r m) (fd : Int) (now : UInt64) :
    ∃ m', ClientMapStep parse m
        (.updateHeartbeat fd now (registryUpdateHeartbeat r fd now).1) m' ∧
      Sim (registryUpdateHeartbeat r fd now).2 m' := by
  unfold registryUpdateHeartbeat
  rcases h.at_fd fd (fun e => { e with lastHeartbeatMs := now }) with
    ⟨hkey, hsame⟩ |
    ⟨before, e, after, hkey, hused, rfl, htable, hstatus, hinited, htable'⟩
  · rw [hsame]
    exact ⟨m, .heartbeatMissing m fd now hkey, h⟩
  · rw [hstatus]
    refine ⟨_, .heartbeat m _ now hkey, hinited, ?_⟩
    have hused' : ({ e with lastHeartbeatMs := now } : SubprocEntry).inUse =
        true := hused
    obtain ⟨others, hperm, hperm'⟩ :=
      filter_rewrite before after hused hused'
    rw [← htable] at hperm
    rw [← htable'] at hperm'
    exact h.represents.modify hperm hperm' rfl rfl _

theorem Sim.findByFd {r : Registry} {m : ClientMap} (h : Sim r m) (fd : Int) :
    (registryFindByFd r fd).map SubprocEntry.pair =
      (m.lookup fd).map (Prod.mk fd) := by
  rw [← h.represents.find_key fd, registryFindByFd, h.inited]
  rfl

theorem Sim.findByDeviceId {r : Registry} {m : ClientMap} (h : Sim r m)
    (deviceId : Option CStr) (fd : Int) (i : SubprocInfo) :
    (registryFindByDeviceId r deviceId).map SubprocEntry.pair = some (fd, i) ↔
      m.lookup fd = some i ∧ some i.declared.deviceId = deviceId := by
  cases deviceId with
  | none => simp [registryFindByDeviceId]
  | some deviceId =>
      rw [Option.some.injEq, ← h.represents.find_tag deviceId fd i]
      unfold registryFindByDeviceId
      rw [h.inited]
      exact Iff.rfl

theorem Sim.iterate {r : Registry} {m : ClientMap} (h : Sim r m) :
    (((registryIterate r).map SubprocEntry.pair).map Prod.fst).Nodup ∧
      ∀ fd i, (fd, i) ∈ (registryIterate r).map SubprocEntry.pair ↔
        m.lookup fd = some i := by
  have hvisited : registryIterate r = r.table.filter SubprocEntry.inUse := by
    simp [registryIterate, h.inited]
  rw [hvisited]
  constructor
  · rw [List.map_map]
    exact h.represents.nodup
  · intro fd i
    simp [h.represents.lookup_iff, SubprocEntry.pair]

/-! ## Runs -/

theorem Sim.start : Sim (registryInit .boot) .empty := by
  constructor
  · rfl
  · apply Represents.empty
    decide

theorem Sim.step {parse : CJsonParser} {r r' : Registry} {m : ClientMap}
    {event : RegistryEvent} (h : Sim r m)
    (hstep : RegistryStep parse r event r') :
    ∃ m', ClientMapStep parse m event m' ∧ Sim r' m' := by
  cases hstep with
  | init =>
      have hsame : registryInit r = r := by simp [registryInit, h.inited]
      rw [hsame]
      exact ⟨m, .init m, h⟩
  | register fd json now => exact h.register fd json now
  | unregister fd => exact h.unregister fd
  | updateHeartbeat fd now => exact h.updateHeartbeat fd now
  | findByFd fd =>
      rw [h.findByFd fd]
      exact ⟨m, .findByFd m fd, h⟩
  | findByDeviceId deviceId =>
      exact ⟨m, .findByDeviceId m deviceId _ (h.findByDeviceId deviceId), h⟩
  | iterate =>
      obtain ⟨hnodup, hall⟩ := h.iterate
      exact ⟨m, .iterate m _ hnodup hall, h⟩

theorem Sim.run {parse : CJsonParser} {r s : Registry} {m : ClientMap}
    (h : Sim r m) {trace : List RegistryEvent}
    (run : Run (RegistryStep parse) r trace s) :
    ∃ m', Run (ClientMapStep parse) m trace m' ∧ Sim s m' := by
  apply Run.simulation h _ run
  intro r m event r' hsim hstep
  exact hsim.step hstep

theorem RegistryStep.unchanged {parse : CJsonParser} {r r' : Registry}
    {event : RegistryEvent} (hinited : r.inited = true)
    (hstep : RegistryStep parse r event r') (hfail : event.status = some (-1)) :
    r' = r := by
  cases hstep with
  | init => contradiction
  | register fd json now =>
      revert hfail
      simp only [RegistryEvent.status, registryRegister, hinited, if_true]
      split
      · exact fun _ => rfl
      · split <;> simp
  | unregister fd =>
      revert hfail
      simp only [RegistryEvent.status, registryUnregister, registryAtFd]
      split_ifs <;> simp
  | updateHeartbeat fd now =>
      revert hfail
      simp only [RegistryEvent.status, registryUpdateHeartbeat, registryAtFd]
      split_ifs <;> simp
  | findByFd | findByDeviceId | iterate => rfl

theorem registry_refines_client_map (parse : CJsonParser)
    {trace : List RegistryEvent} {r : Registry}
    (hrun : Run (RegistryStep parse) (registryInit .boot) trace r) :
    (∃ m : ClientMap, Run (ClientMapStep parse) .empty trace m ∧ Sim r m) ∧
      ∀ event r', RegistryStep parse r event r' →
        event.status = some (-1) → r' = r := by
  rcases Sim.start.run hrun with ⟨m, hrunA, hsim⟩
  refine ⟨⟨m, hrunA, hsim⟩, ?_⟩
  intro event r' hstep hfail
  exact hstep.unchanged hsim.inited hfail

def registerPayload : List UInt8 :=
  (CStr.lit ("\x7b\"device_id\":\"SN-1\",\"model\":\"m\"," ++
    "\"fw_version\":\"1.0\",\"build_date\":\"d\"\x7d")).bytes

def registerParser : CJsonParser := fun text =>
  if text = .ofBytes registerPayload then
    some (.object [(.lit "device_id", .string (.lit "SN-1")),
      (.lit "model", .string (.lit "m")),
      (.lit "fw_version", .string (.lit "1.0")),
      (.lit "build_date", .string (.lit "d"))])
  else none

theorem RegistryStep.register_eq {parse : CJsonParser} {r : Registry} {fd : Int}
    {json : List UInt8} {now : UInt64} {status : Int}
    (h : (registryRegister parse r fd json now).1 = status) :
    RegistryStep parse r (.register fd json now status)
      (registryRegister parse r fd json now).2 :=
  h ▸ .register r fd json now

def takenRegistry : Registry :=
  (registryRegister registerParser (registryInit .boot) 7 registerPayload 5).2

def refusedRegistry : Registry :=
  (registryRegister registerParser takenRegistry 8 registerPayload 6).2

def releasedRegistry : Registry := (registryUnregister refusedRegistry 7).2

def reusedRegistry : Registry :=
  (registryRegister registerParser releasedRegistry 8 registerPayload 9).2

theorem taken_run : Run (RegistryStep registerParser) (registryInit .boot)
    [.register 7 registerPayload 5 0] takenRegistry :=
  .next .refl (.register_eq (by decide))

theorem refused_step : RegistryStep registerParser takenRegistry
    (.register 8 registerPayload 6 (-1)) refusedRegistry :=
  .register_eq (by decide)

/-- A second connection asks for the device that the first has and is refused,
then the first leaves. -/
theorem released_run : Run (RegistryStep registerParser) (registryInit .boot)
    [.register 7 registerPayload 5 0, .register 8 registerPayload 6 (-1),
      .unregister 7 0] releasedRegistry := by
  have hleaves : (registryUnregister refusedRegistry 7).1 = 0 := by decide
  have hstep : RegistryStep registerParser refusedRegistry _ _ :=
    .unregister refusedRegistry 7
  rw [hleaves] at hstep
  exact (taken_run.next refused_step).next hstep

theorem reused_step : RegistryStep registerParser releasedRegistry
    (.register 8 registerPayload 9 0) reusedRegistry :=
  .register_eq (by decide)

theorem registry_refines_client_map_reused :
    refusedRegistry = takenRegistry ∧
      ∃ m : ClientMap, Run (ClientMapStep registerParser) .empty
        [.register 7 registerPayload 5 0, .register 8 registerPayload 6 (-1),
          .unregister 7 0, .register 8 registerPayload 9 0] m ∧
        Sim reusedRegistry m :=
  ⟨(registry_refines_client_map registerParser taken_run).2 _ _ refused_step
      rfl,
    (registry_refines_client_map registerParser
      (released_run.next reused_step)).1⟩

end EzRouter
