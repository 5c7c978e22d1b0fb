import EzRouter.Router.Startup

/-!
# What holds of the reactor in every state

The invariant ties the three places in which a port is recorded to the records
themselves: a slot in use and a registration of the epoll set point to a record
with their descriptor, no record stands in two slots, and what has been freed
stands in none.  Startup establishes it and every step keeps it, whatever the
kernel does.
-/

namespace EzRouter

open EzRouter.Foundation

structure ReactorInv (s : Reactor) : Prop where
  entry : ∀ e ∈ s.table.live, ∃ ref p, e.port = some ref ∧
    s.deref ref = some p ∧ p.fd = e.fd ∧ 0 ≤ e.fd
  nodup : (s.table.live.map PortEntry.port).Nodup
  unfreed : ∀ e ∈ s.table.live, ∀ ref, e.port = some ref → ref ∉ s.freed
  freed_nodup : s.freed.Nodup
  freed_valid : ∀ ref ∈ s.freed, (s.deref ref).isSome = true
  registered : ∀ reg ∈ s.epoll, ∃ p, s.deref reg.2 = some p ∧ p.fd = reg.1 ∧
    0 ≤ reg.1
  epoll_nodup : (s.epoll.map Prod.fst).Nodup
  epoll_open : ∀ reg ∈ s.epoll, (s.fds reg.1).isSome = true
  names : ∀ p ∈ s.ports, p.name.str.length ≤ 31
  client : ∀ c ∈ s.heap, ∃ i server, c.server = .config i ∧
    s.ports[i]? = some server ∧ server.type.isServer = true ∧
    c.record.name.str = server.name.str ∧
    c.record.type = server.type.clientType

theorem deref_congr {s t : Reactor} (hports : t.ports = s.ports)
    (hheap : t.heap = s.heap) : t.deref = s.deref := by
  funext ref
  cases ref with
  | config i => simp [Reactor.deref, hports]
  | heap n => simp [Reactor.deref, hheap]

@[simp] theorem deref_fresh (s : Reactor) :
    s.deref (.heap s.heap.length) = none := by
  simp [Reactor.deref]

section Reading

variable {s : Reactor}

theorem ReactorInv.fd_of_entry (h : ReactorInv s) {e : PortEntry}
    (he : e ∈ s.table.live) {ref : PortRef} {p : PortDef}
    (hport : e.port = some ref) (hp : s.deref ref = some p) :
    p.fd = e.fd ∧ 0 ≤ p.fd := by
  obtain ⟨ref', p', hport', hp', hfd, hpos⟩ := h.entry e he
  obtain rfl := Option.some.inj (hport.symm.trans hport')
  obtain rfl := Option.some.inj (hp.symm.trans hp')
  exact ⟨hfd, by omega⟩

theorem ReactorInv.fd_of_registered (h : ReactorInv s) {fd : Int}
    {ref : PortRef} (hreg : (fd, ref) ∈ s.epoll) {p : PortDef}
    (hp : s.deref ref = some p) : p.fd = fd ∧ 0 ≤ p.fd := by
  obtain ⟨p', hp', hfd, hpos⟩ := h.registered _ hreg
  obtain rfl := Option.some.inj (hp.symm.trans hp')
  exact ⟨hfd, by omega⟩

theorem ReactorInv.port_ne_of_perm (h : ReactorInv s) {e : PortEntry}
    {rest : List PortEntry} (hperm : s.table.live.Perm (e :: rest))
    {ref : PortRef} (hport : e.port = some ref) :
    ∀ e' ∈ rest, e'.port ≠ some ref := by
  have hnodup := h.nodup
  rw [(hperm.map PortEntry.port).nodup_iff, List.map_cons,
    List.nodup_cons] at hnodup
  intro e' he' hsame
  apply hnodup.1
  exact List.mem_map.2 ⟨e', he', hsame.trans hport.symm⟩

theorem ReactorInv.listening (h : ReactorInv s) {ref : PortRef} {p : PortDef}
    (hp : s.deref ref = some p) (htype : p.type.isServer = true) :
    ∃ i, ref = .config i ∧ s.ports[i]? = some p := by
  cases ref with
  | config i => exact ⟨i, rfl, hp⟩
  | heap n =>
      obtain ⟨c, hc, rfl⟩ := Option.map_eq_some_iff.1 hp
      obtain ⟨i, server, -, -, -, -, hclient⟩ :=
        h.client c (List.mem_of_getElem? hc)
      rw [hclient] at htype
      cases hserver : server.type <;>
        simp [hserver, PortType.clientType, PortType.isServer] at htype

end Reading

/-! ## Keeping it -/

section Keeping

variable {s t : Reactor}

theorem ReactorInv.of_empty (hlive : s.table.live = []) (hepoll : s.epoll = [])
    (hheap : s.heap = []) (hfreed : s.freed = [])
    (hnames : ∀ p ∈ s.ports, p.name.str.length ≤ 31) : ReactorInv s := by
  constructor <;> simp_all

theorem ReactorInv.shrink (h : ReactorInv s) (hports : t.ports = s.ports)
    (hheap : t.heap = s.heap) (hfreed : t.freed = s.freed)
    (gone : List PortEntry)
    (hlive : s.table.live.Perm (gone ++ t.table.live))
    (hepoll : t.epoll.Sublist s.epoll)
    (hopen : ∀ reg ∈ t.epoll, (t.fds reg.1).isSome = true) : ReactorInv t := by
  have hderef := deref_congr hports hheap
  have hstay : ∀ e ∈ t.table.live, e ∈ s.table.live := fun e he =>
    hlive.mem_iff.2 (List.mem_append_right _ he)
  constructor
  case entry =>
    rw [hderef]
    exact fun e he => h.entry e (hstay e he)
  case nodup =>
    have hnodup := h.nodup
    rw [(hlive.map PortEntry.port).nodup_iff, List.map_append] at hnodup
    exact hnodup.of_append_right
  case unfreed =>
    rw [hfreed]
    exact fun e he => h.unfreed e (hstay e he)
  case freed_nodup =>
    rw [hfreed]
    exact h.freed_nodup
  case freed_valid =>
    rw [hfreed, hderef]
    exact h.freed_valid
  case registered =>
    rw [hderef]
    exact fun reg hreg => h.registered reg (hepoll.subset hreg)
  case epoll_nodup => exact (hepoll.map Prod.fst).nodup h.epoll_nodup
  case epoll_open => exact hopen
  case names =>
    rw [hports]
    exact h.names
  case client =>
    rw [hheap, hports]
    exact h.client

theorem ReactorInv.closeFd (h : ReactorInv s) (fd : Int) :
    ReactorInv (s.closeFd fd) := by
  refine h.shrink rfl rfl rfl [] (List.Perm.refl _)
    List.filter_sublist ?_
  intro reg hreg
  obtain ⟨hmem, hne⟩ := List.mem_filter.1 hreg
  simp only [decide_eq_true_eq] at hne
  simp only [Reactor.closeFd, Function.update_of_ne hne]
  exact h.epoll_open reg hmem

theorem ReactorInv.clearSlot (h : ReactorInv s) (fd : Int) :
    ReactorInv (s.clearSlot fd) := by
  rcases s.table.live_clear fd with ⟨-, hsame, -⟩ | ⟨e, -, -, -, hperm⟩
  · have hstate : s.clearSlot fd = s := by
      simp only [Reactor.clearSlot, hsame]
    rw [hstate]
    exact h
  · exact h.shrink rfl rfl rfl [e] hperm (List.Sublist.refl _)
      h.epoll_open

theorem ReactorInv.free (h : ReactorInv s) {ref : PortRef}
    (hvalid : (s.deref ref).isSome = true) (hfresh : ref ∉ s.freed)
    (hslot : ∀ e ∈ s.table.live, e.port ≠ some ref) :
    ReactorInv (s.free (some ref)) := by
  have hderef : (s.free (some ref)).deref = s.deref := deref_congr rfl rfl
  constructor
  case entry =>
    rw [hderef]
    exact h.entry
  case nodup => exact h.nodup
  case unfreed =>
    intro e he r hr hfreed
    rcases List.mem_append.1 hfreed with hold | hnew
    · exact h.unfreed e he r hr hold
    · obtain rfl : r = ref := by simpa using hnew
      exact hslot e he hr
  case freed_nodup =>
    change (s.freed ++ [ref]).Nodup
    rw [List.nodup_append]
    refine ⟨h.freed_nodup, List.nodup_singleton ref, ?_⟩
    rintro r hr r' hr' rfl
    obtain rfl := List.mem_singleton.1 hr'
    exact hfresh hr
  case freed_valid =>
    rw [hderef]
    intro r hr
    rcases List.mem_append.1 hr with hold | hnew
    · exact h.freed_valid r hold
    · obtain rfl : r = ref := by simpa using hnew
      exact hvalid
  case registered =>
    rw [hderef]
    exact h.registered
  case epoll_nodup => exact h.epoll_nodup
  case epoll_open => exact h.epoll_open
  case names => exact h.names
  case client => exact h.client

theorem ReactorInv.addPort (h : ReactorInv s) {ref : PortRef}
    (hslot : ∀ e ∈ s.table.live, e.port ≠ some ref) (hfresh : ref ∉ s.freed) :
    ReactorInv (reactorAddPort s ref) := by
  obtain ⟨hports, hheap, hfreed, hfds⟩ := frame_reactorAddPort (s := s) ref
  have hderef := deref_congr hports hheap
  constructor
  case entry =>
    rw [hderef]
    intro e he
    rcases mem_live_reactorAddPort he with hold | ⟨p, hp, hfd, rfl⟩
    · exact h.entry e hold
    · exact ⟨ref, p, rfl, hp, rfl, hfd⟩
  case nodup =>
    rcases reactorAddPort_cases s ref with ⟨hsame, -⟩ |
      ⟨p, hp, hfd, htable, -⟩
    · rw [hsame]
      exact h.nodup
    · rw [htable]
      rcases Nat.lt_or_eq_of_le s.table.length_live_le with hroom | hfull
      · have hperm := s.table.live_add p.fd ref hroom
        rw [(hperm.map PortEntry.port).nodup_iff, List.map_cons,
          List.nodup_cons]
        refine ⟨?_, h.nodup⟩
        intro hmem
        obtain ⟨e, he, hport⟩ := List.mem_map.1 hmem
        exact hslot e he hport
      · rw [s.table.add_full p.fd ref hfull]
        exact h.nodup
  case unfreed =>
    rw [hfreed]
    intro e he r hr
    rcases mem_live_reactorAddPort he with hold | ⟨p, -, -, rfl⟩
    · exact h.unfreed e hold r hr
    · obtain rfl := Option.some.inj hr
      exact hfresh
  case freed_nodup =>
    rw [hfreed]
    exact h.freed_nodup
  case freed_valid =>
    rw [hfreed, hderef]
    exact h.freed_valid
  case registered =>
    rw [hderef]
    intro reg hreg
    rcases mem_epoll_reactorAddPort hreg with hold | ⟨p, hp, hfd, rfl⟩
    · exact h.registered reg hold
    · exact ⟨p, hp, rfl, hfd⟩
  case epoll_nodup =>
    rcases reactorAddPort_cases s ref with ⟨hsame, -⟩ | ⟨p, -, -, -, hepoll⟩
    · rw [hsame]
      exact h.epoll_nodup
    · rw [hepoll]
      split_ifs with hadd
      · rw [List.map_append, List.nodup_append]
        refine ⟨h.epoll_nodup, List.nodup_singleton _, ?_⟩
        rintro fd hmem fd' hfd' rfl
        obtain rfl := List.mem_singleton.1 hfd'
        exact hadd.2 hmem
      · exact h.epoll_nodup
  case epoll_open =>
    rw [hfds]
    rcases reactorAddPort_cases s ref with ⟨hsame, -⟩ | ⟨p, -, -, -, hepoll⟩
    · rw [hsame]
      exact h.epoll_open
    · rw [hepoll]
      split_ifs with hadd
      · intro reg hreg
        rcases List.mem_append.1 hreg with hold | hnew
        · exact h.epoll_open reg hold
        · obtain rfl := List.mem_singleton.1 hnew
          exact hadd.1
      · exact h.epoll_open
  case names =>
    rw [hports]
    exact h.names
  case client =>
    rw [hheap, hports]
    exact h.client

theorem deref_alloc {ref : PortRef} {p : PortDef} (hp : s.deref ref = some p)
    (server : PortRef) (q : PortDef) (clientFd : Int) :
    (s.alloc server q clientFd).deref ref = some p := by
  cases ref with
  | config i => exact hp
  | heap n =>
      obtain ⟨c, hc, hrecord⟩ := Option.map_eq_some_iff.1 hp
      obtain ⟨hn, -⟩ := List.getElem?_eq_some_iff.1 hc
      simp only [Reactor.deref, Reactor.alloc]
      rw [List.getElem?_append_left hn, hc, Option.map_some, hrecord]

theorem deref_alloc_cases {ref server : PortRef} {p q : PortDef}
    {clientFd : Int} (hp : (s.alloc server q clientFd).deref ref = some p) :
    s.deref ref = some p ∨
      ref = .heap s.heap.length ∧ p = clientRecord q clientFd := by
  cases ref with
  | config i => exact .inl hp
  | heap n =>
      obtain ⟨c, hc, rfl⟩ := Option.map_eq_some_iff.1 hp
      simp only [Reactor.alloc] at hc
      rcases Nat.lt_trichotomy n s.heap.length with hlt | rfl | hgt
      · rw [List.getElem?_append_left hlt] at hc
        exact .inl (by simp [Reactor.deref, hc])
      · simp only [List.getElem?_concat_length, Option.some.injEq] at hc
        exact .inr ⟨rfl, by rw [← hc]⟩
      · rw [List.getElem?_eq_none (by simp; omega)] at hc
        contradiction

theorem frame_reactorAccept (ref : PortRef) (server : PortDef)
    (clientFd : Int) :
    (reactorAccept s ref server clientFd).freed = s.freed ∧
      (reactorAccept s ref server clientFd).fds = Function.update s.fds clientFd
        (some (.port (.heap s.heap.length))) := by
  obtain ⟨-, -, hfreed, hfds⟩ := frame_reactorAddPort
    (s := s.alloc ref server clientFd) (.heap s.heap.length)
  exact ⟨hfreed, hfds⟩

theorem deref_reactorAccept (ref : PortRef) (server : PortDef)
    (clientFd : Int) : (reactorAccept s ref server clientFd).deref =
      (s.alloc ref server clientFd).deref := by
  obtain ⟨hports, hheap, -⟩ := frame_reactorAddPort
    (s := s.alloc ref server clientFd) (.heap s.heap.length)
  exact deref_congr hports hheap

theorem ReactorInv.alloc (h : ReactorInv s) {i : Nat} {server : PortDef}
    (hserver : s.ports[i]? = some server)
    (htype : server.type.isServer = true) (clientFd : Int) :
    ReactorInv (s.alloc (.config i) server clientFd) := by
  constructor
  case entry =>
    intro e he
    obtain ⟨ref, p, hport, hp, hfd⟩ := h.entry e he
    exact ⟨ref, p, hport, deref_alloc hp _ _ _, hfd⟩
  case nodup => exact h.nodup
  case unfreed => exact h.unfreed
  case freed_nodup => exact h.freed_nodup
  case freed_valid =>
    intro ref hfreed
    obtain ⟨p, hp⟩ := Option.isSome_iff_exists.1 (h.freed_valid ref hfreed)
    rw [deref_alloc hp]
    rfl
  case registered =>
    intro reg hreg
    obtain ⟨p, hp, hfd⟩ := h.registered reg hreg
    exact ⟨p, deref_alloc hp _ _ _, hfd⟩
  case epoll_nodup => exact h.epoll_nodup
  case epoll_open =>
    intro reg hreg
    simp only [Reactor.alloc]
    by_cases hfd : reg.1 = clientFd
    · rw [hfd, Function.update_self]
      rfl
    · rw [Function.update_of_ne hfd]
      exact h.epoll_open reg hreg
  case names => exact h.names
  case client =>
    intro c hc
    rcases List.mem_append.1 hc with hold | hnew
    · exact h.client c hold
    · obtain rfl := List.mem_singleton.1 hnew
      refine ⟨i, server, rfl, hserver, htype, ?_, rfl⟩
      have hshort := h.names server (List.mem_of_getElem? hserver)
      simp only [clientRecord]
      rw [Buffer.str_ofStr (by decide)]
      ext1
      exact List.take_of_length_le hshort

theorem ReactorInv.accept (h : ReactorInv s) {ref : PortRef} {server : PortDef}
    (hserver : s.deref ref = some server)
    (htype : server.type.isServer = true) (clientFd : Int) :
    ReactorInv (reactorAccept s ref server clientFd) := by
  obtain ⟨i, rfl, hport⟩ := h.listening hserver htype
  refine (h.alloc hport htype clientFd).addPort ?_ ?_
  · intro e he hslot
    obtain ⟨ref, p, hport, hp, -⟩ := h.entry e he
    obtain rfl := Option.some.inj (hslot.symm.trans hport)
    rw [deref_fresh] at hp
    contradiction
  · intro hfreed
    have hvalid := h.freed_valid _ hfreed
    rw [deref_fresh] at hvalid
    contradiction

theorem ReactorInv.hangup (h : ReactorInv s) (p : PortDef) :
    ReactorInv (reactorHangup s p) := by
  have hcleared := (h.closeFd p.fd).clearSlot p.fd
  unfold reactorHangup
  cases hfree : s.toFree p.type p.fd with
  | none =>
      have hsame : ((s.closeFd p.fd).clearSlot p.fd).free none =
          (s.closeFd p.fd).clearSlot p.fd := by
        simp [Reactor.free]
      simp only [hsame]
      exact hcleared
  | some ref =>
      have hfound : (s.table.findFd p.fd).bind (·.port) = some ref := by
        unfold Reactor.toFree at hfree
        split_ifs at hfree
        exact hfree
      obtain ⟨e, he, hport⟩ := Option.bind_eq_some_iff.1 hfound
      rcases s.table.live_clear p.fd with ⟨hnone, -, -⟩ | ⟨e', he', -, -, hperm⟩
      · rw [hnone] at he
        contradiction
      · obtain rfl := Option.some.inj (he.symm.trans he')
        have hmem : e ∈ s.table.live := hperm.mem_iff.2 (by simp)
        refine hcleared.free ?_ (h.unfreed e hmem ref hport) ?_
        · obtain ⟨ref', q, hport', hq, -⟩ := h.entry e hmem
          obtain rfl := Option.some.inj (hport.symm.trans hport')
          have hderef : ((s.closeFd p.fd).clearSlot p.fd).deref = s.deref :=
            deref_congr rfl rfl
          rw [hderef, hq]
          rfl
        · exact h.port_ne_of_perm hperm hport

theorem ReactorInv.step (h : ReactorInv s) {event : ReactorEvent}
    (hstep : ReactorStep s event t) : ReactorInv t := by
  obtain ⟨⟨-, p, hp, hkernel⟩, rfl⟩ := hstep
  cases event with
  | accepted ref clientFd =>
      change s.deref ref = some p at hp
      simp only [reactorHandle, hp]
      exact h.accept hp hkernel.1 clientFd
  | acceptFailed ref => exact h
  | received ref chunk => exact h
  | hangup ref =>
      change s.deref ref = some p at hp
      simp only [reactorHandle, hp]
      exact h.hangup p

end Keeping

/-! ## From startup on -/

section Startup

variable {parse : CJsonParser} {file : Option (List UInt8)}
  {inherited : Int → Bool} {calls : Nat → OpenCalls}

theorem startup_eq (parse : CJsonParser) (file : Option (List UInt8))
    (inherited : Int → Bool) (calls : Nat → OpenCalls) :
    startup parse file inherited calls = addPorts (portsOpenAll
      (.boot (loadConfig parse file).2.ports inherited) calls) := by
  obtain ⟨hports, hloaded⟩ := ports_loadConfig parse file
  unfold startup
  by_cases hrc : (loadConfig parse file).1 = 0
  · exact if_pos hrc
  · -- Nothing was loaded, and both loops end at once.
    rw [hloaded hrc] at hports
    simp only [hrc, if_false, hports]
    rfl

theorem parsePort_name (item : CJson) :
    (parsePort item).name = getStr 32 (some item) (.lit "name") := by
  unfold parsePort
  split_ifs
  · simp only
    split <;> rfl
  all_goals rfl

theorem length_getStr_le {cap : Nat} (hcap : 0 < cap) (obj : Option CJson)
    (key : CStr) : (getStr cap obj key).str.length ≤ cap - 1 := by
  unfold getStr
  split
  · rw [Buffer.str_ofStr hcap]
    exact List.length_take_le _ _
  · rw [Buffer.str_zero]
    exact Nat.zero_le _

variable (hkernel : KernelOpens
  (.boot (loadConfig parse file).2.ports inherited) calls)
include hkernel

theorem startup_record {i : Nat} {p : PortDef}
    (hp : (startup parse file inherited calls).ports[i]? = some p) :
    ∃ item, (storedItems parse file)[i]? = some item ∧
      p = { parsePort item with fd := p.fd } := by
  rw [startup_eq, addPorts, (frame_addPortsUpTo _).1] at hp
  obtain ⟨hi, -⟩ := List.getElem?_eq_some_iff.1 hp
  obtain ⟨item, hitem⟩ : ∃ item, (storedItems parse file)[i]? = some item := by
    rw [portsOpenAll, length_ports_openUpTo, Reactor.boot,
      (ports_loadConfig parse file).1, List.length_map] at hi
    exact ⟨_, List.getElem?_eq_getElem hi⟩
  rw [opened_record inherited calls hitem, Option.some.injEq] at hp
  subst hp
  refine ⟨item, hitem, ?_⟩
  rcases opened_cases hkernel hitem with hfail | ⟨fd, -, hopen, -⟩
  · rw [hfail]
  · rw [hopen]

theorem ReactorInv.of_startup :
    ReactorInv (startup parse file inherited calls) := by
  obtain ⟨hlive, hepoll, hheap, hfreed, hlen⟩ :=
    opened_empty parse file inherited calls
  have hrecords := fun i p =>
    startup_record (i := i) (p := p) hkernel
  rw [startup_eq] at hrecords ⊢
  revert hlive hepoll hheap hfreed hlen hrecords
  generalize portsOpenAll (.boot (loadConfig parse file).2.ports inherited)
    calls = s
  intro hlive hepoll hheap hfreed hlen hrecords
  have hnames : ∀ p ∈ s.ports, p.name.str.length ≤ 31 := by
    intro p hp
    obtain ⟨i, hi⟩ := List.getElem?_of_mem hp
    rw [← (frame_addPortsUpTo s.ports.length).1] at hi
    obtain ⟨item, -, hrecord⟩ := hrecords i p hi
    rw [hrecord]
    simp only [parsePort_name]
    exact length_getStr_le (by decide) _ _
  have hall : ∀ n, n ≤ s.ports.length → ReactorInv (addPortsUpTo s n) := by
    intro n
    induction n with
    | zero => exact fun _ => .of_empty hlive hepoll hheap hfreed hnames
    | succ n ih =>
        intro hn
        refine (ih (by omega)).addPort ?_ ?_
        · intro e he hslot
          have hperm := live_addPortsUpTo hlive (n := n) (by omega)
          obtain ⟨i, p, hi, -, -, rfl⟩ :=
            mem_registrations.1 (hperm.mem_iff.1 he)
          simp only [Option.some.injEq, PortRef.config.injEq] at hslot
          omega
        · rw [(frame_addPortsUpTo n).2.2.1, hfreed]
          exact List.not_mem_nil
  exact hall s.ports.length (Nat.le_refl _)

theorem ReactorInv.of_run {trace : List ReactorEvent} {s : Reactor}
    (hrun : Run ReactorStep (startup parse file inherited calls) trace s) :
    ReactorInv s :=
  hrun.invariant (.of_startup hkernel) fun _ _ _ h hstep => h.step hstep

end Startup

end EzRouter
