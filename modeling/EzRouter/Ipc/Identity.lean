import EzRouter.Ipc.RegistryRefinement

/-!
# Under which name a device is found

A REGISTER payload carries the identifier of its device at full length.  The
registry keeps the first 63 bytes, compares these when a device registers, and
compares them with whatever identifier a caller asks for.
-/

namespace EzRouter

open EzRouter.Foundation

def payloadDeviceId (parse : CJsonParser) (json : List UInt8) : Option CStr :=
  (parse (.ofBytes (json ++ [0]))).bind fun root =>
    jsonStr (some root) (.lit "device_id")

def recordId (parse : CJsonParser) (ids : Int → Option CStr) :
    RegistryEvent → Int → Option CStr
  | .register fd json _ status =>
      if status = 0 then Function.update ids fd (payloadDeviceId parse json)
      else ids
  | .unregister fd status =>
      if status = 0 then Function.update ids fd none else ids
  | _ => ids

/-- After these events: for each registered connection, the identifier in the
payload that it registered with. -/
def payloadIds (parse : CJsonParser) (trace : List RegistryEvent) :
    Int → Option CStr :=
  trace.foldl (recordId parse) fun _ => none

variable {parse : CJsonParser}

theorem payloadIds_snoc (trace : List RegistryEvent) (event : RegistryEvent) :
    payloadIds parse (trace ++ [event]) =
      recordId parse (payloadIds parse trace) event := by
  simp [payloadIds]

theorem Declares.deviceId {json : List UInt8} {d : Declared}
    (h : Declares parse json d) :
    ∃ id, payloadDeviceId parse json = some id ∧ d.deviceId = id.take 63 := by
  rcases h with ⟨-, -, root, id, -, -, -, hparse, hid, -, -, -, hfit, -⟩
  refine ⟨id, ?_, ?_⟩
  · simp [payloadDeviceId, hparse, hid]
  · exact hfit.unique (CStr.take_isLongestFit (by decide) id)

def KeepsIds (ids : Int → Option CStr) (m : ClientMap) : Prop :=
  ∀ fd, (m.lookup fd).map (·.declared.deviceId) = (ids fd).map (.take 63)

theorem KeepsIds.step {ids : Int → Option CStr} {m m' : ClientMap}
    {event : RegistryEvent} (h : KeepsIds ids m)
    (hstep : ClientMapStep parse m event m') :
    KeepsIds (recordId parse ids event) m' := by
  intro k
  cases hstep with
  | registered fd json now d hdecl haccepts =>
      rcases hdecl.deviceId with ⟨id, hid, hcut⟩
      change (Function.update m.lookup fd _ k).map _ =
        (Function.update ids fd _ k).map _
      by_cases hk : k = fd
      · subst hk
        simp [hid, hcut]
      · rw [Function.update_of_ne hk, Function.update_of_ne hk]
        exact h k
  | unregistered fd hkey =>
      change (Function.update m.lookup fd none k).map _ =
        (Function.update ids fd none k).map _
      by_cases hk : k = fd
      · subst hk
        simp
      · rw [Function.update_of_ne hk, Function.update_of_ne hk]
        exact h k
  | heartbeat fd now hkey =>
      change (Function.update m.lookup fd _ k).map _ = (ids k).map _
      rw [← h k]
      by_cases hk : k = fd
      · subst hk
        rw [Function.update_self, Option.map_map]
        rfl
      · rw [Function.update_of_ne hk]
  | _ => exact h k

theorem KeepsIds.of_run {trace : List RegistryEvent} {m : ClientMap}
    (run : Run (ClientMapStep parse) .empty trace m) :
    KeepsIds (payloadIds parse trace) m := by
  induction run with
  | refl =>
      intro fd
      rfl
  | next _ hstep ih =>
      rw [payloadIds_snoc]
      exact ih.step hstep

theorem ClientMapStep.keeps_declared {m m' : ClientMap} {event : RegistryEvent}
    (hstep : ClientMapStep parse m event m') {fd : Int}
    (hstays : event ≠ .unregister fd 0) {i : SubprocInfo}
    (hlookup : m.lookup fd = some i) :
    ∃ i', m'.lookup fd = some i' ∧ i'.declared = i.declared := by
  cases hstep with
  | registered fd' json now d hdecl haccepts =>
      have hne : fd ≠ fd' := by
        rintro rfl
        rw [haccepts.1] at hlookup
        contradiction
      refine ⟨i, ?_, rfl⟩
      change Function.update m.lookup fd' _ fd = _
      rw [Function.update_of_ne hne, hlookup]
  | unregistered fd' hkey =>
      have hne : fd ≠ fd' := by
        rintro rfl
        exact hstays rfl
      refine ⟨i, ?_, rfl⟩
      change Function.update m.lookup fd' _ fd = _
      rw [Function.update_of_ne hne, hlookup]
  | heartbeat fd' now hkey =>
      change ∃ i', Function.update m.lookup fd' _ fd = some i' ∧ _
      by_cases hfd : fd = fd'
      · subst hfd
        rw [Function.update_self, hlookup]
        exact ⟨_, rfl, rfl⟩
      · rw [Function.update_of_ne hfd]
        exact ⟨i, hlookup, rfl⟩
  | _ => exact ⟨i, hlookup, rfl⟩

theorem keeps_declared_of_run {later : List RegistryEvent} {m m' : ClientMap}
    (run : Run (ClientMapStep parse) m later m') {fd : Int}
    (hstays : .unregister fd 0 ∉ later) {i : SubprocInfo}
    (hlookup : m.lookup fd = some i) :
    ∃ i', m'.lookup fd = some i' ∧ i'.declared = i.declared := by
  induction run with
  | refl => exact ⟨i, hlookup, rfl⟩
  | next _ hstep ih =>
      rw [List.mem_append, List.mem_singleton, not_or] at hstays
      rcases ih hstays.1 with ⟨i', hlookup', hsame⟩
      rcases hstep.keeps_declared (Ne.symm hstays.2) hlookup' with
        ⟨i'', hlookup'', hsame'⟩
      exact ⟨i'', hlookup'', hsame'.trans hsame⟩

/-! ## Registration and lookup -/

theorem Sim.register_iff {r : Registry} {m : ClientMap} (h : Sim r m)
    {json : List UInt8} {d : Declared} (hdecl : Declares parse json d)
    (fd : Int) (now : UInt64) :
    (registryRegister parse r fd json now).1 = 0 ↔ Accepts m fd d := by
  rcases h.register fd json now with ⟨m', hstep, -⟩
  generalize (registryRegister parse r fd json now).1 = status at hstep
  cases hstep with
  | registered _ _ _ d' hdecl' haccepts =>
      cases hdecl.unique hdecl'
      exact iff_of_true rfl haccepts
  | rejected _ _ _ hnone =>
      apply iff_of_false
      · decide
      · intro haccepts
        exact hnone ⟨d, hdecl, haccepts⟩

theorem KeepsIds.distinct_iff {ids : Int → Option CStr} {m : ClientMap}
    (h : KeepsIds ids m) (cut : CStr) :
    (∀ l w, m.lookup l = some w → w.declared.deviceId ≠ cut) ↔
      ∀ l id, ids l = some id → id.take 63 ≠ cut := by
  constructor
  · intro hall l id hid heq
    have hkeep := h l
    rw [hid, Option.map_some, Option.map_eq_some_iff] at hkeep
    rcases hkeep with ⟨w, hlookup, hcut⟩
    exact hall l w hlookup (hcut.trans heq)
  · intro hall l w hlookup heq
    have hkeep := h l
    rw [hlookup, Option.map_some, eq_comm, Option.map_eq_some_iff] at hkeep
    rcases hkeep with ⟨id, hid, hcut⟩
    exact hall l id hid (hcut.trans heq)

theorem Sim.found_of_registered {r s : Registry} {m : ClientMap}
    (h : Sim r m) {json : List UInt8} {d : Declared}
    (hdecl : Declares parse json d) {fd : Int} {now : UInt64}
    (hok : (registryRegister parse r fd json now).1 = 0)
    {later : List RegistryEvent}
    (run : Run (RegistryStep parse) (registryRegister parse r fd json now).2
      later s)
    (hstays : .unregister fd 0 ∉ later) (deviceId : CStr) :
    (∃ e, registryFindByDeviceId s (some deviceId) = some e ∧
      e.clientFd = fd) ↔ deviceId = d.deviceId := by
  have haccepts := (h.register_iff hdecl fd now).1 hok
  rcases h.register fd json now with ⟨m', hstep, hsim⟩
  have hregistered : ∃ i, m'.lookup fd = some i ∧ i.declared = d := by
    rw [hok] at hstep
    cases hstep with
    | registered _ _ _ d' hdecl' haccepts' =>
        cases hdecl.unique hdecl'
        exact ⟨⟨d, 0, now⟩, Function.update_self _ _ _, rfl⟩
  rcases hregistered with ⟨i, hlookup, rfl⟩
  rcases hsim.run run with ⟨m'', hrun, hsim'⟩
  rcases keeps_declared_of_run hrun hstays hlookup with
    ⟨i', hlookup', hsame⟩
  constructor
  · rintro ⟨e, hfind, rfl⟩
    have hpair : (registryFindByDeviceId s (some deviceId)).map
        SubprocEntry.pair = some (e.clientFd, e.info) := by
      rw [hfind]
      rfl
    rcases (hsim'.findByDeviceId _ _ _).1 hpair with ⟨hinfo, hid⟩
    cases hlookup'.symm.trans hinfo
    rw [← hsame]
    exact (Option.some.inj hid).symm
  · rintro rfl
    have hpair := (hsim'.findByDeviceId (some i.declared.deviceId) fd i').2
      ⟨hlookup', by rw [hsame]⟩
    rcases Option.map_eq_some_iff.1 hpair with ⟨e, hfind, heq⟩
    exact ⟨e, hfind, congrArg Prod.fst heq⟩

/--
A device registers exactly when no client has registered with an identifier
that agrees with its own on the first 63 bytes.  From then on, until its
client is unregistered, these 63 bytes find its entry; the identifier itself
does exactly when it has no more.
-/
theorem device_keeps_identity {trace : List RegistryEvent} {r : Registry}
    (run : Run (RegistryStep parse) (registryInit .boot) trace r)
    (hroom : ∃ e ∈ r.table, e.inUse = false) {fd : Int}
    (hfd : registryFindByFd r fd = none) {json : List UInt8} {d : Declared}
    (hdecl : Declares parse json d) {id : CStr}
    (hid : payloadDeviceId parse json = some id) (now : UInt64) :
    ((registryRegister parse r fd json now).1 = 0 ↔
      ∀ other id', payloadIds parse trace other = some id' →
        id'.take 63 ≠ id.take 63) ∧
    ((registryRegister parse r fd json now).1 = 0 →
      ∀ later s, Run (RegistryStep parse)
          (registryRegister parse r fd json now).2 later s →
        .unregister fd 0 ∉ later →
        (∃ e, registryFindByDeviceId s (some (id.take 63)) = some e ∧
          e.clientFd = fd) ∧
        ((∃ e, registryFindByDeviceId s (some id) = some e ∧
          e.clientFd = fd) ↔ id.length ≤ 63)) := by
  rcases Sim.start.run run with ⟨m, hrun, hsim⟩
  have hkeeps := KeepsIds.of_run hrun
  have hcut : d.deviceId = id.take 63 := by
    rcases hdecl.deviceId with ⟨id', hid', hcut⟩
    cases hid.symm.trans hid'
    exact hcut
  constructor
  · rw [hsim.register_iff hdecl fd now, ← hkeeps.distinct_iff, ← hcut]
    constructor
    · intro haccepts
      exact haccepts.2.2
    · intro hdistinct
      rcases hroom with ⟨x, hx, hfree⟩
      refine ⟨?_, hsim.card_lt hx hfree, hdistinct⟩
      have hnone := hsim.findByFd fd
      rw [hfd, Option.map_none, eq_comm, Option.map_eq_none_iff] at hnone
      exact hnone
  · intro hok later s hlater hstays
    constructor
    · exact (hsim.found_of_registered hdecl hok hlater hstays _).2 hcut.symm
    · rw [hsim.found_of_registered hdecl hok hlater hstays, hcut, eq_comm]
      exact CStr.take_eq_self_iff

def idPayload (deviceId : String) : List UInt8 :=
  (CStr.lit ("\x7b\"device_id\":\"" ++ deviceId ++ "\",\"model\":\"m\"," ++
    "\"fw_version\":\"1.0\",\"build_date\":\"d\"\x7d")).bytes

def idParser (deviceId : String) : CJsonParser := fun text =>
  if text = .ofBytes (idPayload deviceId) then
    some (.object [(.lit "device_id", .string (.lit deviceId)),
      (.lit "model", .string (.lit "m")),
      (.lit "fw_version", .string (.lit "1.0")),
      (.lit "build_date", .string (.lit "d"))])
  else none

def longId : String :=
  "SN-4567890123456789012345678901234567890123456789012345678901234"

def longIdRegistered : Int × Registry :=
  registryRegister (idParser longId) (registryInit .boot) 7 (idPayload longId) 5

theorem declares_of_isSome {json : List UInt8}
    (h : (parseRegisterJson parse json .zero).isSome = true) :
    ∃ d, Declares parse json d := by
  rcases Option.isSome_iff_exists.1 h with ⟨e, he⟩
  exact ⟨_, declares_of_parseRegisterJson he⟩

theorem long_id_not_found :
    (∃ d, Declares (idParser longId) (idPayload longId) d) ∧
      payloadDeviceId (idParser longId) (idPayload longId) =
        some (.lit longId) ∧
      longIdRegistered.1 = 0 ∧
      registryFindByDeviceId longIdRegistered.2 (some (.lit longId)) =
        none := by
  have hfacts : (parseRegisterJson (idParser longId) (idPayload longId)
        .zero).isSome = true ∧
      payloadDeviceId (idParser longId) (idPayload longId) =
        some (.lit longId) ∧
      longIdRegistered.1 = 0 ∧
      registryFindByDeviceId longIdRegistered.2 (some (.lit longId)) =
        none := by
    decide +kernel
  exact ⟨declares_of_isSome hfacts.1, hfacts.2⟩

def heartbeatRegistry : Registry :=
  (registryUpdateHeartbeat reusedRegistry 8 12).2

def contestedRegistry : Registry :=
  (registryRegister registerParser heartbeatRegistry 9 registerPayload 13).2

theorem contested_run : Run (RegistryStep registerParser) reusedRegistry
    [.updateHeartbeat 8 12 0, .register 9 registerPayload 13 (-1)]
    contestedRegistry := by
  have hupdated : (registryUpdateHeartbeat reusedRegistry 8 12).1 = 0 := by
    decide
  have hstep : RegistryStep registerParser reusedRegistry _ _ :=
    .updateHeartbeat reusedRegistry 8 12
  rw [hupdated] at hstep
  exact .next (.next .refl hstep) (.register_eq (by decide))

/-- The device that the first connection has given up is the second one's, and
remains so. -/
theorem device_keeps_identity_reused :
    ∃ e, registryFindByDeviceId contestedRegistry (some (.lit "SN-1")) =
        some e ∧ e.clientFd = 8 := by
  have hsome : (parseRegisterJson registerParser registerPayload
      .zero).isSome = true := by
    decide
  rcases declares_of_isSome hsome with ⟨d, hdecl⟩
  have hroom : ∃ e ∈ releasedRegistry.table, e.inUse = false := by
    decide
  have hok : (registryRegister registerParser releasedRegistry 8
      registerPayload 9).1 = 0 := by
    decide
  apply ((device_keeps_identity released_run hroom (by decide) hdecl
    (by decide) 9).2 hok _ _ contested_run (by simp)).2.2
  decide

end EzRouter
