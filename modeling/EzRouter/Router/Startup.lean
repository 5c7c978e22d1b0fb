import EzRouter.Router.Reactor

/-!
# Startup

Opening the configured ports (`port_manager.c`) and the part of `main` that
loads the configuration, opens its ports and registers them.  A system call is
its outcome; the descriptors that `open` and `socket` hand out were not open.
-/

namespace EzRouter

open EzRouter.Foundation

/-- The outcomes of the calls that open a port: the descriptor that `open` or
`socket` returns, and whether the calls on it succeed. -/
structure OpenCalls where
  fd : Option Int
  tcgetattr : Bool
  tcsetattr : Bool
  bind : Bool
  listen : Bool
  deriving DecidableEq, Repr

def portOpenTty (calls : OpenCalls) : Int :=
  match calls.fd with
  | none => -1
  | some fd =>
      if !calls.tcgetattr then -1
      else if !calls.tcsetattr then -1
      else fd

def portOpenTcpServer (calls : OpenCalls) : Int :=
  match calls.fd with
  | none => -1
  | some fd =>
      if !calls.bind then -1
      else if !calls.listen then -1
      else fd

/-- What `connect` returns is not looked at. -/
def portOpenTcpClient (calls : OpenCalls) : Int := calls.fd.getD (-1)

/-- What `bind` returns is not looked at. -/
def portOpenUdp (calls : OpenCalls) : Int := calls.fd.getD (-1)

def portOpenUsb (calls : OpenCalls) : Int := portOpenTty calls

/-- This one stores the descriptor and the type itself. -/
def portOpenIpcServer (p : PortDef) (calls : OpenCalls) : Int × PortDef :=
  match calls.fd with
  | none => (-1, p)
  | some fd =>
      if !calls.bind then (-1, p)
      else if !calls.listen then (-1, p)
      else (fd, { p with fd := fd, type := .ipcServer })

def portOpenSingle (p : PortDef) (calls : OpenCalls) : Int × PortDef :=
  let opened : Int × PortDef :=
    match p.type with
    | .tty => (portOpenTty calls, p)
    | .tcpServer => (portOpenTcpServer calls, p)
    | .tcpClient => (portOpenTcpClient calls, p)
    | .udp => (portOpenUdp calls, p)
    | .usb => (portOpenUsb calls, p)
    | .ipcServer => portOpenIpcServer p calls
    | .ipcClient => (-1, p)
  if opened.1 ≥ 0 then (opened.1, { opened.2 with fd := opened.1 }) else opened

def Reactor.boot (ports : List PortDef) (inherited : Int → Bool) : Reactor where
  ports := ports
  heap := []
  freed := []
  table := .boot
  epoll := []
  fds fd := if inherited fd then some .inherited else none

def Reactor.openPort (s : Reactor) (i : Nat) (calls : OpenCalls) : Reactor :=
  match s.ports[i]? with
  | none => s
  | some p =>
      let opened := portOpenSingle p calls
      { s with
        ports := s.ports.set i opened.2
        fds :=
          if 0 ≤ opened.1 then
            Function.update s.fds opened.1 (some (.port (.config i)))
          else s.fds }

def portsOpenUpTo (s : Reactor) (calls : Nat → OpenCalls) : Nat → Reactor
  | 0 => s
  | n + 1 => (portsOpenUpTo s calls n).openPort n (calls n)

def portsOpenAll (s : Reactor) (calls : Nat → OpenCalls) : Reactor :=
  portsOpenUpTo s calls s.ports.length

def addPortsUpTo (s : Reactor) : Nat → Reactor
  | 0 => s
  | n + 1 => reactorAddPort (addPortsUpTo s n) (.config n)

def addPorts (s : Reactor) : Reactor := addPortsUpTo s s.ports.length

def startup (parse : CJsonParser) (file : Option (List UInt8))
    (inherited : Int → Bool) (calls : Nat → OpenCalls) : Reactor :=
  let loaded := loadConfig parse file
  let s := Reactor.boot loaded.2.ports inherited
  if loaded.1 = 0 then addPorts (portsOpenAll s calls) else s

/-- A descriptor that is handed out for a port was not open. -/
def KernelOpens (s : Reactor) (calls : Nat → OpenCalls) : Prop :=
  ∀ i fd, i < s.ports.length → (calls i).fd = some fd →
    0 ≤ fd ∧ (portsOpenUpTo s calls i).fds fd = none

/-! ## What opening leaves behind -/

theorem portOpenTty_cases (calls : OpenCalls) :
    portOpenTty calls = -1 ∨ calls.fd = some (portOpenTty calls) := by
  unfold portOpenTty
  split
  · exact .inl rfl
  · rename_i fd hfd
    split_ifs
    · exact .inl rfl
    · exact .inl rfl
    · exact .inr hfd

theorem portOpenTcpServer_cases (calls : OpenCalls) :
    portOpenTcpServer calls = -1 ∨
      calls.fd = some (portOpenTcpServer calls) := by
  unfold portOpenTcpServer
  split
  · exact .inl rfl
  · rename_i fd hfd
    split_ifs
    · exact .inl rfl
    · exact .inl rfl
    · exact .inr hfd

theorem portOpenSocket_cases (calls : OpenCalls) :
    calls.fd.getD (-1) = -1 ∨ calls.fd = some (calls.fd.getD (-1)) := by
  cases calls.fd with
  | none => exact .inl rfl
  | some fd => exact .inr rfl

theorem portOpenIpcServer_cases (p : PortDef) (calls : OpenCalls) :
    portOpenIpcServer p calls = (-1, p) ∨ ∃ fd, calls.fd = some fd ∧
      portOpenIpcServer p calls =
        (fd, { p with fd := fd, type := .ipcServer }) := by
  unfold portOpenIpcServer
  split
  · exact .inl rfl
  · rename_i fd hfd
    split_ifs
    · exact .inl rfl
    · exact .inl rfl
    · exact .inr ⟨fd, hfd, rfl⟩

theorem portOpenSingle_of_result (p : PortDef) {calls : OpenCalls} {r : Int}
    (hkernel : ∀ fd, calls.fd = some fd → 0 ≤ fd)
    (hr : r = -1 ∨ calls.fd = some r) :
    (if r ≥ 0 then (r, { p with fd := r }) else (r, p)) = (-1, p) ∨
      ∃ fd, calls.fd = some fd ∧ 0 ≤ fd ∧
        (if r ≥ 0 then (r, { p with fd := r }) else (r, p)) =
          (fd, { p with fd := fd }) := by
  rcases hr with rfl | hfd
  · exact .inl rfl
  · have hpos := hkernel r hfd
    exact .inr ⟨r, hfd, hpos, if_pos hpos⟩

theorem portOpenSingle_cases (p : PortDef) {calls : OpenCalls}
    (hkernel : ∀ fd, calls.fd = some fd → 0 ≤ fd) :
    portOpenSingle p calls = (-1, p) ∨
      ∃ fd, calls.fd = some fd ∧ 0 ≤ fd ∧
        portOpenSingle p calls = (fd, { p with fd := fd }) := by
  have hplain {p : PortDef} {r : Int} :=
    portOpenSingle_of_result p (r := r) hkernel
  obtain ⟨name, type, fd, useFrame, cfg⟩ := p
  cases type with
  | tty => exact hplain (portOpenTty_cases calls)
  | usb => exact hplain (portOpenTty_cases calls)
  | tcpServer => exact hplain (portOpenTcpServer_cases calls)
  | tcpClient => exact hplain (portOpenSocket_cases calls)
  | udp => exact hplain (portOpenSocket_cases calls)
  | ipcClient => exact hplain (.inl rfl)
  | ipcServer =>
      unfold portOpenSingle
      rcases portOpenIpcServer_cases ⟨name, .ipcServer, fd, useFrame, cfg⟩ calls
        with hfail | ⟨fd', hfd, hopen⟩
      · exact .inl (by simp [hfail])
      · have hpos := hkernel fd' hfd
        exact .inr ⟨fd', hfd, hpos, by simp [hopen, hpos]⟩

section Opening

variable {s : Reactor} {calls : Nat → OpenCalls}

theorem length_ports_openUpTo (n : Nat) :
    (portsOpenUpTo s calls n).ports.length = s.ports.length := by
  induction n with
  | zero => rfl
  | succ n ih =>
      simp only [portsOpenUpTo, Reactor.openPort]
      split
      · exact ih
      · simpa using ih

theorem ports_openUpTo (n i : Nat) :
    (portsOpenUpTo s calls n).ports[i]? =
      if i < n then (s.ports[i]?).map fun p => (portOpenSingle p (calls i)).2
      else s.ports[i]? := by
  induction n with
  | zero => simp [portsOpenUpTo]
  | succ n ih =>
      simp only [portsOpenUpTo, Reactor.openPort]
      by_cases hi : i = n
      · subst hi
        rw [if_neg (Nat.lt_irrefl i)] at ih
        rw [if_pos (Nat.lt_succ_self i), ih]
        cases hp : s.ports[i]? with
        | none => simp [ih, hp]
        | some p =>
            obtain ⟨hlt, -⟩ := List.getElem?_eq_some_iff.1 (ih.trans hp)
            simp [hlt]
      · have hlt : i < n + 1 ↔ i < n := by omega
        simp only [hlt]
        rw [← ih]
        split
        · rfl
        · simp [List.getElem?_set_ne (Ne.symm hi)]

theorem frame_openUpTo (s : Reactor) (calls : Nat → OpenCalls) (n : Nat) :
    (portsOpenUpTo s calls n).heap = s.heap ∧
      (portsOpenUpTo s calls n).freed = s.freed ∧
      (portsOpenUpTo s calls n).table = s.table ∧
      (portsOpenUpTo s calls n).epoll = s.epoll := by
  induction n with
  | zero => exact ⟨rfl, rfl, rfl, rfl⟩
  | succ n ih =>
      simp only [portsOpenUpTo, Reactor.openPort]
      split <;> exact ih

theorem fds_openUpTo (hkernel : KernelOpens s calls) {n i : Nat} {p : PortDef}
    (hi : i < n) (hp : s.ports[i]? = some p)
    (hopen : 0 ≤ (portOpenSingle p (calls i)).1) :
    (portsOpenUpTo s calls n).fds (portOpenSingle p (calls i)).1 =
      some (.port (.config i)) := by
  induction n with
  | zero => omega
  | succ n ih =>
      simp only [portsOpenUpTo, Reactor.openPort]
      by_cases heq : i = n
      · subst heq
        have hcur : (portsOpenUpTo s calls i).ports[i]? = some p := by
          rw [ports_openUpTo, if_neg (Nat.lt_irrefl i), hp]
        simp [hcur, hopen]
      · have howned := ih (by omega)
        split
        · exact howned
        · rename_i q hq
          simp only
          split
          · rename_i hfd
            obtain ⟨hn, -⟩ := List.getElem?_eq_some_iff.1 hq
            rw [length_ports_openUpTo] at hn
            -- The kernel hands out no descriptor that is open already.
            rcases portOpenSingle_cases q (fun fd h => (hkernel n fd hn h).1)
              with hfail | ⟨fd, hcall, -, hq'⟩
            · rw [hfail] at hfd
              omega
            · rw [hq', Function.update_of_ne]
              · exact howned
              · intro hsame
                have hfresh := (hkernel n fd hn hcall).2
                rw [show fd = _ from hsame.symm, howned] at hfresh
                contradiction
          · exact howned

end Opening

section Registering

variable {s : Reactor}

theorem frame_addPortsUpTo (n : Nat) :
    (addPortsUpTo s n).ports = s.ports ∧ (addPortsUpTo s n).heap = s.heap ∧
      (addPortsUpTo s n).freed = s.freed ∧ (addPortsUpTo s n).fds = s.fds := by
  induction n with
  | zero => exact ⟨rfl, rfl, rfl, rfl⟩
  | succ n ih =>
      obtain ⟨hports, hheap, hfreed, hfds⟩ := ih
      obtain ⟨hports', hheap', hfreed', hfds'⟩ :=
        frame_reactorAddPort (s := addPortsUpTo s n) (.config n)
      exact ⟨hports'.trans hports, hheap'.trans hheap, hfreed'.trans hfreed,
        hfds'.trans hfds⟩

def registrations (s : Reactor) (n : Nat) : List PortEntry :=
  (List.range n).filterMap fun i =>
    s.ports[i]?.bind fun p =>
      if p.fd < 0 then none else some ⟨true, p.fd, some (.config i)⟩

theorem mem_registrations {n : Nat} {e : PortEntry} :
    e ∈ registrations s n ↔ ∃ i p, i < n ∧ s.ports[i]? = some p ∧ 0 ≤ p.fd ∧
      e = ⟨true, p.fd, some (.config i)⟩ := by
  simp only [registrations, List.mem_filterMap, List.mem_range,
    Option.bind_eq_some_iff]
  constructor
  · rintro ⟨i, hi, p, hp, he⟩
    split_ifs at he with hfd
    exact ⟨i, p, hi, hp, by omega, (Option.some.inj he).symm⟩
  · rintro ⟨i, p, hi, hp, hfd, rfl⟩
    exact ⟨i, hi, p, hp, if_neg (by omega)⟩

theorem length_registrations_le (n : Nat) :
    (registrations s n).length ≤ n := by
  have h := List.length_filterMap_le (fun i => s.ports[i]?.bind fun p =>
    if p.fd < 0 then none
    else some (⟨true, p.fd, some (.config i)⟩ : PortEntry)) (List.range n)
  rwa [List.length_range] at h

theorem live_addPortsUpTo (hempty : s.table.live = []) {n : Nat}
    (hn : n ≤ maxPorts) :
    (addPortsUpTo s n).table.live.Perm (registrations s n) := by
  induction n with
  | zero =>
      simp only [addPortsUpTo, hempty, registrations, List.range_zero]
      rfl
  | succ n ih =>
      have hperm := ih (by omega)
      have hroom : (addPortsUpTo s n).table.live.length < maxPorts := by
        rw [hperm.length_eq]
        exact (length_registrations_le n).trans_lt hn
      have hports := (frame_addPortsUpTo (s := s) n).1
      rw [registrations, List.range_succ, List.filterMap_append,
        ← registrations]
      rcases reactorAddPort_cases (addPortsUpTo s n) (.config n) with
        ⟨hsame, hnone⟩ | ⟨p, hp, hfd, htable, -⟩
      · have hskip : (s.ports[n]?.bind fun p =>
            if p.fd < 0 then none
            else some (⟨true, p.fd, some (.config n)⟩ : PortEntry)) = none := by
          rw [Option.bind_eq_none_iff]
          intro p hp
          exact if_pos (hnone p (by rw [Reactor.deref, hports, hp]))
        simpa [addPortsUpTo, hsame, hskip] using hperm
      · rw [Reactor.deref, hports] at hp
        have hadd := PortTable.live_add _ p.fd (.config n) hroom
        have hpos : ¬ p.fd < 0 := by omega
        rw [addPortsUpTo, htable]
        refine hadd.trans ((hperm.cons _).trans ?_)
        simpa [hp, hpos] using (List.perm_append_singleton _ _).symm

theorem mem_epoll_addPortsUpTo (hempty : s.epoll = [])
    (howned : ∀ i p, s.ports[i]? = some p → 0 ≤ p.fd →
      s.fds p.fd = some (.port (.config i))) (n : Nat) (fd : Int)
    (ref : PortRef) :
    (fd, ref) ∈ (addPortsUpTo s n).epoll ↔
      ∃ i p, i < n ∧ s.ports[i]? = some p ∧ 0 ≤ p.fd ∧ fd = p.fd ∧
        ref = .config i := by
  induction n generalizing fd ref with
  | zero => simp [addPortsUpTo, hempty]
  | succ n ih =>
      obtain ⟨hports, -, -, hfds⟩ := frame_addPortsUpTo (s := s) n
      have hsplit : ∀ i, i < n + 1 ↔ i < n ∨ i = n := fun i => by omega
      rw [addPortsUpTo]
      rcases reactorAddPort_cases (addPortsUpTo s n) (.config n) with
        ⟨hsame, hnone⟩ | ⟨p, hp, hfd, -, hepoll⟩
      · rw [hsame, ih]
        refine exists_congr fun i => exists_congr fun p => ?_
        constructor
        · rintro ⟨hi, h⟩
          exact ⟨by omega, h⟩
        · rintro ⟨hi, hp, hpos, h⟩
          rcases (hsplit i).1 hi with hlt | rfl
          · exact ⟨hlt, hp, hpos, h⟩
          · have := hnone p (by rw [Reactor.deref, hports, hp])
            omega
      · rw [Reactor.deref, hports] at hp
        have hown := howned n p hp hfd
        have hopen : ((addPortsUpTo s n).fds p.fd).isSome = true := by
          rw [hfds, hown]
          rfl
        have hfresh : p.fd ∉ (addPortsUpTo s n).epoll.map Prod.fst := by
          intro hmem
          obtain ⟨⟨fd', ref'⟩, hreg, hsame⟩ := List.mem_map.1 hmem
          obtain ⟨i, q, hi, hq, hpos, rfl, rfl⟩ := (ih _ _).1 hreg
          have hother := howned i q hq hpos
          rw [show q.fd = p.fd from hsame, hown] at hother
          simp only [Option.some.injEq, FdOwner.port.injEq,
            PortRef.config.injEq] at hother
          omega
        rw [hepoll, if_pos ⟨hopen, hfresh⟩, List.mem_append, ih,
          List.mem_singleton, Prod.mk.injEq]
        constructor
        · rintro (⟨i, q, hi, h⟩ | ⟨rfl, rfl⟩)
          · exact ⟨i, q, by omega, h⟩
          · exact ⟨n, p, by omega, hp, hfd, rfl, rfl⟩
        · rintro ⟨i, q, hi, hq, hpos, rfl, rfl⟩
          rcases (hsplit i).1 hi with hlt | rfl
          · exact .inl ⟨i, q, hlt, hq, hpos, rfl, rfl⟩
          · obtain rfl := Option.some.inj (hp.symm.trans hq)
            exact .inr ⟨rfl, rfl⟩

theorem mem_live_iff (t : PortTable) (fd : Int) (port : Option PortRef) :
    (⟨true, fd, port⟩ : PortEntry) ∈ t.live ↔
      (⟨true, fd, port⟩ : PortEntry) ∈ t.entries := by
  simp [PortTable.live]

theorem addPorts_exact (htable : s.table.live = []) (hepoll : s.epoll = [])
    (hlen : s.ports.length ≤ maxPorts)
    (howned : ∀ i p, s.ports[i]? = some p → 0 ≤ p.fd →
      s.fds p.fd = some (.port (.config i)))
    {i : Nat} {p : PortDef} (hp : s.ports[i]? = some p) (fd : Int) :
    ((⟨true, fd, some (.config i)⟩ : PortEntry) ∈
        (addPorts s).table.entries ↔ 0 ≤ p.fd ∧ fd = p.fd) ∧
      ((fd, .config i) ∈ (addPorts s).epoll ↔ 0 ≤ p.fd ∧ fd = p.fd) := by
  obtain ⟨hi, -⟩ := List.getElem?_eq_some_iff.1 hp
  constructor
  · rw [← mem_live_iff, addPorts, (live_addPortsUpTo htable hlen).mem_iff,
      mem_registrations]
    constructor
    · rintro ⟨j, q, -, hq, hpos, heq⟩
      simp only [PortEntry.mk.injEq, Option.some.injEq, PortRef.config.injEq,
        true_and] at heq
      obtain ⟨rfl, rfl⟩ := heq
      obtain rfl := Option.some.inj (hp.symm.trans hq)
      exact ⟨hpos, rfl⟩
    · rintro ⟨hpos, rfl⟩
      exact ⟨i, p, hi, hp, hpos, rfl⟩
  · rw [addPorts, mem_epoll_addPortsUpTo hepoll howned]
    constructor
    · rintro ⟨j, q, -, hq, hpos, rfl, hsame⟩
      obtain rfl := PortRef.config.inj hsame
      obtain rfl := Option.some.inj (hp.symm.trans hq)
      exact ⟨hpos, rfl⟩
    · rintro ⟨hpos, rfl⟩
      exact ⟨i, p, hi, hp, hpos, rfl, rfl⟩

end Registering

/-! ## Which ports come up -/

def portItems (root : CJson) : List CJson :=
  (arrayItems (cJSONGetObjectItem root (.lit "ports"))).take maxPorts

def storedItems (parse : CJsonParser) (file : Option (List UInt8)) :
    List CJson :=
  match file.bind fun text => parse (.ofBytes text) with
  | some root => portItems root
  | none => []

def LacksTty (item : CJson) : Prop :=
  typeStr item = .lit "tty" ∧ cJSONGetObjectItem item (.lit "tty") = none

theorem parsePorts_items (root : CJson) :
    parsePorts (cJSONGetObjectItem root (.lit "ports")) =
      (portItems root).map parsePort :=
  parseArray_eq maxPorts parsePort _

theorem ports_loadConfig (parse : CJsonParser) (file : Option (List UInt8)) :
    (loadConfig parse file).2.ports = (storedItems parse file).map parsePort ∧
      ((loadConfig parse file).1 ≠ 0 → storedItems parse file = []) := by
  unfold loadConfig storedItems
  cases file with
  | none => simp [Config.zero]
  | some text =>
      simp only [Option.bind_some]
      cases parse (.ofBytes text) with
      | none => simp [Config.zero]
      | some root =>
          simp [configOfRoot, parsePorts_items]

theorem length_storedItems_le (parse : CJsonParser)
    (file : Option (List UInt8)) :
    (storedItems parse file).length ≤ maxPorts := by
  unfold storedItems portItems
  split
  · exact List.length_take_le _ _
  · exact Nat.zero_le _

theorem parsePort_fd (item : CJson) :
    (LacksTty item ∧ (parsePort item).fd = 0) ∨
      (¬ LacksTty item ∧ (parsePort item).fd = -1) := by
  unfold LacksTty parsePort
  by_cases htty : typeStr item = .lit "tty"
  · simp only [htty, if_true, true_and]
    cases cJSONGetObjectItem item (.lit "tty") with
    | none => exact .inl ⟨rfl, rfl⟩
    | some tty => exact .inr ⟨by simp, rfl⟩
  · right
    refine ⟨fun h => htty h.1, ?_⟩
    simp only [htty, if_false]
    split_ifs <;> rfl

/-- Port `i`, whose open returned `r`, stands in the table and in the epoll
set under `r` and nothing else, or, when the open failed, nowhere. -/
structure StartsExactly (s : Reactor) (i : Nat) (r : Int) : Prop where
  opened : 0 ≤ r → ∀ fd,
    ((⟨true, fd, some (.config i)⟩ : PortEntry) ∈ s.table.entries ↔ fd = r) ∧
      ((fd, .config i) ∈ s.epoll ↔ fd = r)
  failed : r < 0 →
    (∃ p, s.ports[i]? = some p ∧ p.fd = -1) ∧
      ∀ fd, (⟨true, fd, some (.config i)⟩ : PortEntry) ∉ s.table.entries ∧
        (fd, .config i) ∉ s.epoll

section Startup

variable {parse : CJsonParser} {file : Option (List UInt8)}
  {inherited : Int → Bool} {calls : Nat → OpenCalls}

theorem boot_record (inherited : Int → Bool) {i : Nat} {item : CJson}
    (hitem : (storedItems parse file)[i]? = some item) :
    (Reactor.boot (loadConfig parse file).2.ports inherited).ports[i]? =
      some (parsePort item) := by
  simp [Reactor.boot, (ports_loadConfig parse file).1, hitem]

theorem opened_record (inherited : Int → Bool) (calls : Nat → OpenCalls)
    {i : Nat} {item : CJson}
    (hitem : (storedItems parse file)[i]? = some item) :
    (portsOpenAll (.boot (loadConfig parse file).2.ports inherited)
        calls).ports[i]? =
      some (portOpenSingle (parsePort item) (calls i)).2 := by
  have hboot := boot_record inherited hitem
  obtain ⟨hi, -⟩ := List.getElem?_eq_some_iff.1 hboot
  rw [portsOpenAll, ports_openUpTo, if_pos hi, hboot]
  rfl

theorem opened_empty (parse : CJsonParser) (file : Option (List UInt8))
    (inherited : Int → Bool) (calls : Nat → OpenCalls) :
    let s := portsOpenAll (.boot (loadConfig parse file).2.ports inherited)
      calls
    s.table.live = [] ∧ s.epoll = [] ∧ s.heap = [] ∧ s.freed = [] ∧
      s.ports.length ≤ maxPorts := by
  intro s
  obtain ⟨hheap, hfreed, htable, hepoll⟩ := frame_openUpTo
    (.boot (loadConfig parse file).2.ports inherited) calls
    (loadConfig parse file).2.ports.length
  refine ⟨?_, hepoll, hheap, hfreed, ?_⟩
  · exact (congrArg PortTable.live htable).trans PortTable.live_boot
  · change (portsOpenUpTo _ _ _).ports.length ≤ maxPorts
    rw [length_ports_openUpTo, Reactor.boot, (ports_loadConfig parse file).1,
      List.length_map]
    exact length_storedItems_le parse file

variable (hkernel : KernelOpens
  (.boot (loadConfig parse file).2.ports inherited) calls)
include hkernel

theorem opened_cases {i : Nat} {item : CJson}
    (hitem : (storedItems parse file)[i]? = some item) :
    portOpenSingle (parsePort item) (calls i) = (-1, parsePort item) ∨
      ∃ fd, 0 ≤ fd ∧ portOpenSingle (parsePort item) (calls i) =
          (fd, { parsePort item with fd := fd }) ∧
        (portsOpenAll (.boot (loadConfig parse file).2.ports inherited)
          calls).fds fd = some (.port (.config i)) := by
  have hboot := boot_record inherited hitem
  obtain ⟨hi, -⟩ := List.getElem?_eq_some_iff.1 hboot
  rcases portOpenSingle_cases (parsePort item)
      (fun fd h => (hkernel i fd hi h).1) with hfail | ⟨fd, -, hpos, hopen⟩
  · exact .inl hfail
  · right
    have howned := fds_openUpTo hkernel hi hboot (by rw [hopen]; exact hpos)
    rw [hopen] at howned
    exact ⟨fd, hpos, hopen, howned⟩

theorem opened_owned
    (hclean : ∀ i item, (storedItems parse file)[i]? = some item →
      LacksTty item → 0 ≤ (portOpenSingle (parsePort item) (calls i)).1)
    (i : Nat) (p : PortDef)
    (hp : (portsOpenAll (.boot (loadConfig parse file).2.ports inherited)
      calls).ports[i]? = some p)
    (hfd : 0 ≤ p.fd) :
    (portsOpenAll (.boot (loadConfig parse file).2.ports inherited)
      calls).fds p.fd = some (.port (.config i)) := by
  obtain ⟨hi, -⟩ := List.getElem?_eq_some_iff.1 hp
  obtain ⟨item, hitem⟩ : ∃ item, (storedItems parse file)[i]? = some item := by
    rw [portsOpenAll, length_ports_openUpTo, Reactor.boot,
      (ports_loadConfig parse file).1, List.length_map] at hi
    exact ⟨_, List.getElem?_eq_getElem hi⟩
  rw [opened_record inherited calls hitem, Option.some.injEq] at hp
  subst hp
  rcases opened_cases hkernel hitem with hfail | ⟨fd, -, hopen, howned⟩
  · rw [hfail] at hfd
    rcases parsePort_fd item with ⟨hlacks, -⟩ | ⟨-, hunset⟩
    · have hopened := hclean i item hitem hlacks
      rw [hfail] at hopened
      contradiction
    · simp only [hunset] at hfd
      omega
  · rw [hopen]
    exact howned

theorem opened_of_startsExactly {i : Nat} {item : CJson}
    (hitem : (storedItems parse file)[i]? = some item)
    (hlacks : LacksTty item)
    (hexact : StartsExactly (addPorts (portsOpenAll
        (.boot (loadConfig parse file).2.ports inherited) calls)) i
      (portOpenSingle (parsePort item) (calls i)).1) :
    0 ≤ (portOpenSingle (parsePort item) (calls i)).1 := by
  by_contra hneg
  obtain ⟨⟨p, hp, hminus⟩, -⟩ := hexact.failed (by omega)
  rw [addPorts, (frame_addPortsUpTo _).1,
    opened_record inherited calls hitem, Option.some.injEq] at hp
  rcases opened_cases hkernel hitem with hfail | ⟨fd, hpos, hopen, -⟩
  · rcases parsePort_fd item with ⟨-, hzero⟩ | ⟨hhas, -⟩
    · rw [← hp, hfail] at hminus
      simp only [hzero] at hminus
      contradiction
    · exact hhas hlacks
  · rw [hopen] at hneg
    exact hneg hpos

theorem startsExactly_of_clean
    (hclean : ∀ i item, (storedItems parse file)[i]? = some item →
      LacksTty item → 0 ≤ (portOpenSingle (parsePort item) (calls i)).1)
    {i : Nat} {item : CJson}
    (hitem : (storedItems parse file)[i]? = some item) :
    StartsExactly (addPorts (portsOpenAll
        (.boot (loadConfig parse file).2.ports inherited) calls)) i
      (portOpenSingle (parsePort item) (calls i)).1 := by
  obtain ⟨hlive, hepoll, -, -, hlen⟩ :=
    opened_empty parse file inherited calls
  have hrecord := opened_record inherited calls hitem
  have hexact := addPorts_exact hlive hepoll hlen
    (opened_owned hkernel hclean) hrecord
  rcases opened_cases hkernel hitem with hfail | ⟨fd, hpos, hopen, -⟩
  · rw [hfail] at hexact hrecord ⊢
    have hunset : (parsePort item).fd = -1 := by
      rcases parsePort_fd item with ⟨hlacks, -⟩ | ⟨-, hunset⟩
      · have hopened := hclean i item hitem hlacks
        rw [hfail] at hopened
        contradiction
      · exact hunset
    constructor
    · intro hopened
      contradiction
    · intro _
      refine ⟨⟨parsePort item, ?_, hunset⟩, ?_⟩
      · rw [addPorts, (frame_addPortsUpTo _).1, hrecord]
      · intro fd
        have hnone := hexact fd
        simp only [hunset] at hnone
        constructor
        · rw [hnone.1]
          omega
        · rw [hnone.2]
          omega
  · rw [hopen] at hexact ⊢
    constructor
    · intro _ fd'
      simpa [hpos] using hexact fd'
    · intro hneg
      simp only at hneg
      omega

end Startup

/--
After startup the table and the epoll set hold exactly the ports that opened,
under the descriptors their opens returned, if and only if no port that lacks
its tty object failed to open.
-/
theorem startup_registers_opened_iff (parse : CJsonParser)
    (file : Option (List UInt8)) (inherited : Int → Bool)
    (calls : Nat → OpenCalls)
    (hkernel : KernelOpens (.boot (loadConfig parse file).2.ports inherited)
      calls) :
    (∀ i item, (storedItems parse file)[i]? = some item →
      StartsExactly (startup parse file inherited calls) i
        (portOpenSingle (parsePort item) (calls i)).1) ↔
    ∀ i item, (storedItems parse file)[i]? = some item → LacksTty item →
      0 ≤ (portOpenSingle (parsePort item) (calls i)).1 := by
  obtain ⟨-, hloaded⟩ := ports_loadConfig parse file
  by_cases hrc : (loadConfig parse file).1 = 0
  · have hstart : startup parse file inherited calls = addPorts (portsOpenAll
        (.boot (loadConfig parse file).2.ports inherited) calls) := if_pos hrc
    rw [hstart]
    constructor
    · intro hexact i item hitem hlacks
      exact opened_of_startsExactly hkernel hitem hlacks (hexact i item hitem)
    · intro hclean i item hitem
      exact startsExactly_of_clean hkernel hclean hitem
  · simp [hloaded hrc]

/-! ## Small configurations -/

def configOf (items : List CJson) : CJson :=
  .object [(.lit "ports", .array items)]

def configText (items : List String) : List UInt8 :=
  (CStr.lit ("\x7b\"ports\":[" ++ ",".intercalate items ++ "]\x7d")).bytes

def bareTty : CJson :=
  .object [(.lit "name", .string (.lit "UART1")),
    (.lit "type", .string (.lit "tty"))]

def bareTtyText : String := "\x7b\"name\":\"UART1\",\"type\":\"tty\"\x7d"

def udpPort : CJson :=
  .object [(.lit "name", .string (.lit "NET0")),
    (.lit "type", .string (.lit "udp"))]

def udpPortText : String := "\x7b\"name\":\"NET0\",\"type\":\"udp\"\x7d"

def tcpServerPort (name : String) : CJson :=
  .object [(.lit "name", .string (.lit name)),
    (.lit "type", .string (.lit "tcp_server")),
    (.lit "tcp_server", .object [])]

def tcpServerText (name : String) : String :=
  "\x7b\"name\":\"" ++ name ++
    "\",\"type\":\"tcp_server\",\"tcp_server\":\x7b\x7d\x7d"

def parsesTo (items : List CJson) : CJsonParser :=
  fun _ => some (configOf items)

def stdio (fd : Int) : Bool := decide (0 ≤ fd ∧ fd ≤ 2)

def noCalls : OpenCalls := ⟨none, false, false, false, false⟩

/-- The opens return 3, 4, and so on, and all succeeds. -/
def nextCalls (i : Nat) : OpenCalls := ⟨some (i + 3), true, true, true, true⟩

theorem kernelOpens_nextCalls (ports : List PortDef) :
    KernelOpens (.boot ports stdio) nextCalls := by
  have hpos : ∀ n fd, (nextCalls n).fd = some fd → 0 ≤ fd := by
    rintro n fd hcall
    obtain rfl : (n : Int) + 3 = fd := Option.some.inj hcall
    omega
  have habove : ∀ (n : Nat) fd, (n : Int) + 3 ≤ fd →
      (portsOpenUpTo (.boot ports stdio) nextCalls n).fds fd = none := by
    intro n
    induction n with
    | zero =>
        intro fd hfd
        have hnot : stdio fd = false := decide_eq_false (by omega)
        simp [portsOpenUpTo, Reactor.boot, hnot]
    | succ n ih =>
        intro fd hfd
        have hfree := ih fd (by omega)
        simp only [portsOpenUpTo, Reactor.openPort]
        split
        · exact hfree
        · rename_i p _
          simp only
          rcases portOpenSingle_cases p (hpos n) with hfail |
            ⟨fd', hcall, -, hopen⟩
          · rw [hfail]
            exact hfree
          · obtain rfl : (n : Int) + 3 = fd' := Option.some.inj hcall
            rw [hopen]
            split
            · rw [Function.update_of_ne (by omega)]
              exact hfree
            · exact hfree
  intro n fd _ hcall
  refine ⟨hpos n fd hcall, ?_⟩
  obtain rfl : (n : Int) + 3 = fd := Option.some.inj hcall
  exact habove n _ (Int.le_refl _)

theorem startup_registers_unopened :
    KernelOpens (.boot (loadConfig (parsesTo [bareTty])
        (some (configText [bareTtyText]))).2.ports stdio) (fun _ => noCalls) ∧
      ¬ ∀ i item, (storedItems (parsesTo [bareTty])
          (some (configText [bareTtyText])))[i]? = some item →
        StartsExactly (startup (parsesTo [bareTty])
            (some (configText [bareTtyText])) stdio fun _ => noCalls) i
          (portOpenSingle (parsePort item) noCalls).1 := by
  constructor
  · intro i fd _ hcall
    contradiction
  · intro hall
    obtain ⟨-, hnone⟩ := (hall 0 bareTty rfl).failed (by decide)
    exact (hnone 0).1 (by decide)

theorem startup_registers_opened_iff_udp :
    StartsExactly (startup (parsesTo [udpPort])
      (some (configText [udpPortText])) stdio nextCalls) 0 3 := by
  refine (startup_registers_opened_iff (parsesTo [udpPort])
    (some (configText [udpPortText])) stdio nextCalls
    (kernelOpens_nextCalls _)).2 ?_ 0 udpPort rfl
  rintro (_ | i) item hitem ⟨htty, -⟩
  · obtain rfl : udpPort = item := Option.some.inj hitem
    revert htty
    decide
  · contradiction

end EzRouter
