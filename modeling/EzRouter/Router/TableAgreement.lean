import EzRouter.Router.ReactorInvariants

/-!
# The port table and the epoll set

Registration writes two sets, one of at most 32 slots and one without a bound.
They stay the same set for as long as an accepted connection finds a free slot;
the first that does not is read from and never found.
-/

namespace EzRouter

open EzRouter.Foundation

/-- The used slots and the registrations correspond one to one, with equal
descriptors and equal records, and no descriptor occurs twice. -/
def TableAgrees (s : Reactor) : Prop :=
  (s.table.live.map fun e => (e.fd, e.port)).Perm
      (s.epoll.map fun reg => (reg.1, some reg.2)) ∧
    (s.epoll.map Prod.fst).Nodup

/-- A connection is accepted only while a slot is free. -/
def HasRoom (s : Reactor) (event : ReactorEvent) : Prop :=
  ∀ ref clientFd, event = .accepted ref clientFd →
    s.table.live.length < maxPorts

/-- The record stands in a slot that answers to its name, so `port_find` finds
a port by that name, and the record itself when no other slot answers to it. -/
structure FoundByName (s : Reactor) (ref : PortRef) (p : PortDef) : Prop where
  slot : ∃ e ∈ s.table.live, e.port = some ref ∧
    s.answersTo p.name.str e = true
  name : ∃ ref' q, portFind s p.name.str = some ref' ∧
    s.deref ref' = some q ∧ q.name.str = p.name.str
  unique : (∀ e ∈ s.table.live, s.answersTo p.name.str e = true →
    e.port = some ref) → portFind s p.name.str = some ref

structure Reclaimed (s : Reactor) (ref : PortRef) (p : PortDef) : Prop where
  slot : ∀ e ∈ s.table.live, e.port ≠ some ref
  registration : ref ∉ s.epoll.map Prod.snd
  memory : p.type.isClient = true → ref ∈ s.freed

section Agreement

variable {s t : Reactor}

theorem TableAgrees.mem_live_of_epoll (h : TableAgrees s) {fd : Int}
    {ref : PortRef} (hreg : (fd, ref) ∈ s.epoll) :
    ∃ e ∈ s.table.live, e.fd = fd ∧ e.port = some ref := by
  have hmem : (fd, some ref) ∈ s.epoll.map fun reg => (reg.1, some reg.2) :=
    List.mem_map.2 ⟨(fd, ref), hreg, rfl⟩
  obtain ⟨e, he, heq⟩ := List.mem_map.1 (h.1.mem_iff.2 hmem)
  obtain ⟨hfd, hport⟩ := Prod.mk.inj heq
  exact ⟨e, he, hfd, hport⟩

theorem TableAgrees.mem_epoll_of_live (h : TableAgrees s) {e : PortEntry}
    (he : e ∈ s.table.live) :
    ∃ ref, e.port = some ref ∧ (e.fd, ref) ∈ s.epoll := by
  have hmem : (e.fd, e.port) ∈ s.table.live.map fun e => (e.fd, e.port) :=
    List.mem_map.2 ⟨e, he, rfl⟩
  obtain ⟨⟨fd, ref⟩, hreg, heq⟩ := List.mem_map.1 (h.1.mem_iff.1 hmem)
  obtain ⟨hfd, hport⟩ := Prod.mk.inj heq
  simp only at hfd hport
  exact ⟨ref, hport.symm, hfd ▸ hreg⟩

theorem TableAgrees.foundByName (h : TableAgrees s) {fd : Int} {ref : PortRef}
    {p : PortDef} (hreg : (fd, ref) ∈ s.epoll) (hp : s.deref ref = some p)
    (htype : p.type.isServer = false) : FoundByName s ref p := by
  obtain ⟨e, he, -, hport⟩ := h.mem_live_of_epoll hreg
  obtain ⟨ref', href'⟩ := Option.isSome_iff_exists.1
    (portFind_isSome he hport hp rfl htype)
  obtain ⟨e', q, he', hport', hq, hname, htype'⟩ := portFind_some href'
  constructor
  · exact ⟨e, he, hport, answersTo_iff.2
      ⟨(List.mem_filter.1 he).2, ref, p, hport, hp, rfl, htype⟩⟩
  · exact ⟨ref', q, href', hq, hname⟩
  · intro honly
    have hanswer := answersTo_iff.2 ⟨(List.mem_filter.1 he').2, ref', q, hport',
      hq, hname, htype'⟩
    rw [href', ← hport']
    exact honly e' he' hanswer

theorem TableAgrees.accept (h : TableAgrees s) (hinv : ReactorInv s)
    {ref : PortRef} {server : PortDef} {clientFd : Int} (hfd : 0 ≤ clientFd)
    (hclosed : s.fds clientFd = none) :
    TableAgrees (reactorAccept s ref server clientFd) ↔
      s.table.live.length < maxPorts := by
  have hfresh : clientFd ∉ s.epoll.map Prod.fst := by
    intro hmem
    obtain ⟨reg, hreg, rfl⟩ := List.mem_map.1 hmem
    have hopen := hinv.epoll_open reg hreg
    rw [hclosed] at hopen
    contradiction
  have hderef : (s.alloc ref server clientFd).deref (.heap s.heap.length) =
      some (clientRecord server clientFd) := by
    simp [Reactor.deref, Reactor.alloc]
  rcases reactorAddPort_cases (s.alloc ref server clientFd)
      (.heap s.heap.length) with ⟨-, hnone⟩ | ⟨p, hp, -, htable, hepoll⟩
  · have hneg := hnone _ hderef
    simp only [clientRecord] at hneg
    omega
  · obtain rfl := Option.some.inj (hderef.symm.trans hp)
    have hadd : (reactorAccept s ref server clientFd).epoll =
        s.epoll ++ [(clientFd, .heap s.heap.length)] := by
      rw [reactorAccept, hepoll]
      apply if_pos
      simpa [Reactor.alloc, clientRecord] using hfresh
    have htable' : (reactorAccept s ref server clientFd).table =
        s.table.add clientFd (.heap s.heap.length) := htable
    unfold TableAgrees
    rw [hadd, htable']
    constructor
    · rintro ⟨hperm, -⟩
      by_contra hfull
      have hlen := hperm.length_eq
      have hlen' := h.1.length_eq
      have hle := s.table.length_live_le
      rw [s.table.add_full _ _ (by omega)] at hlen
      simp only [List.length_map, List.length_append,
        List.length_singleton] at hlen hlen'
      omega
    · intro hroom
      constructor
      · have hlive := s.table.live_add clientFd (.heap s.heap.length) hroom
        refine (hlive.map _).trans ?_
        rw [List.map_append]
        exact (h.1.cons _).trans (List.perm_append_singleton _ _).symm
      · rw [List.map_append, List.nodup_append]
        refine ⟨h.2, List.nodup_singleton _, ?_⟩
        rintro fd hmem fd' hfd' rfl
        obtain rfl := List.mem_singleton.1 hfd'
        exact hfresh hmem

theorem TableAgrees.hangup (h : TableAgrees s) (hinv : ReactorInv s)
    {ref : PortRef} {p : PortDef} (hreg : ref ∈ s.epoll.map Prod.snd)
    (hp : s.deref ref = some p) :
    TableAgrees (reactorHangup s p) ∧ Reclaimed (reactorHangup s p) ref p := by
  have hmem : (p.fd, ref) ∈ s.epoll := by
    obtain ⟨⟨fd, ref'⟩, hfd, rfl⟩ := List.mem_map.1 hreg
    rw [(hinv.fd_of_registered hfd hp).1]
    exact hfd
  rcases s.table.live_clear p.fd with ⟨-, -, hnone⟩ |
    ⟨e, hfind, -, hfd, hperm⟩
  · obtain ⟨e, he, hfd, -⟩ := h.mem_live_of_epoll hmem
    exact absurd hfd (hnone e he)
  · -- The slot that the search stops at is the one of the record.
    have hport : e.port = some ref := by
      obtain ⟨ref', hport, hreg'⟩ :=
        h.mem_epoll_of_live (hperm.mem_iff.2 List.mem_cons_self)
      rw [hfd] at hreg'
      have hsame := List.inj_on_of_nodup_map h.2 hreg' hmem rfl
      obtain rfl := (Prod.mk.inj hsame).2
      exact hport
    constructor
    · refine ⟨?_, (List.filter_sublist.map Prod.fst).nodup h.2⟩
      have hlive := hperm.map fun e => (e.fd, e.port)
      have hepoll := (perm_cons_filter_key h.2 hmem).map
        fun reg => (reg.1, some reg.2)
      rw [List.map_cons, hfd, hport] at hlive
      rw [List.map_cons] at hepoll
      exact (hlive.symm.trans (h.1.trans hepoll)).cons_inv
    · constructor
      · exact hinv.port_ne_of_perm hperm hport
      · intro hstill
        obtain ⟨⟨fd, ref'⟩, hfd', rfl⟩ := List.mem_map.1 hstill
        obtain ⟨hold, hne⟩ := List.mem_filter.1 hfd'
        simp only [decide_eq_true_eq] at hne
        exact hne (hinv.fd_of_registered hold hp).1.symm
      · intro hclient
        have hfree : s.toFree p.type p.fd = some ref := by
          simp only [Reactor.toFree, hclient, if_true, hfind, Option.bind_some,
            hport]
        simp only [reactorHangup, hfree, Reactor.free]
        exact List.mem_append_right _ (List.mem_singleton_self ref)

theorem TableAgrees.step (h : TableAgrees s) (hinv : ReactorInv s)
    {event : ReactorEvent} (hstep : ReactorStep s event t) :
    TableAgrees t ↔ HasRoom s event := by
  obtain ⟨⟨hreg, p, hp, hkernel⟩, rfl⟩ := hstep
  cases event with
  | accepted ref clientFd =>
      change s.deref ref = some p at hp
      simp only [reactorHandle, hp]
      rw [h.accept hinv hkernel.2.1 hkernel.2.2]
      constructor
      · intro hroom ref' clientFd' _
        exact hroom
      · intro hroom
        exact hroom ref clientFd rfl
  | acceptFailed ref => exact iff_of_true h (by simp [HasRoom])
  | received ref chunk => exact iff_of_true h (by simp [HasRoom])
  | hangup ref =>
      change s.deref ref = some p at hp
      refine iff_of_true ?_ (by simp [HasRoom])
      simp only [reactorHandle, hp]
      exact (h.hangup hinv hreg hp).1

end Agreement

/-! ## From startup on -/

def EpollSucceeds (s : Reactor) : Prop :=
  ∀ i p, s.ports[i]? = some p → 0 ≤ p.fd → (p.fd, .config i) ∈ s.epoll

section Startup

variable {parse : CJsonParser} {file : Option (List UInt8)}
  {inherited : Int → Bool} {calls : Nat → OpenCalls}

theorem mem_live_startup {e : PortEntry} :
    e ∈ (startup parse file inherited calls).table.live ↔
      ∃ i p, (startup parse file inherited calls).ports[i]? = some p ∧
        0 ≤ p.fd ∧ e = ⟨true, p.fd, some (.config i)⟩ := by
  obtain ⟨hlive, -, -, -, hlen⟩ := opened_empty parse file inherited calls
  rw [startup_eq, addPorts, (live_addPortsUpTo hlive hlen).mem_iff,
    mem_registrations, (frame_addPortsUpTo _).1]
  refine exists_congr fun i => exists_congr fun p => ?_
  constructor
  · rintro ⟨-, hp, hentry⟩
    exact ⟨hp, hentry⟩
  · rintro ⟨hp, hentry⟩
    exact ⟨(List.getElem?_eq_some_iff.1 hp).1, hp, hentry⟩

theorem TableAgrees.of_startup
    (hkernel : KernelOpens (.boot (loadConfig parse file).2.ports inherited)
      calls)
    (hepoll : EpollSucceeds (startup parse file inherited calls)) :
    TableAgrees (startup parse file inherited calls) := by
  have hinv := ReactorInv.of_startup hkernel
  have hheap : (startup parse file inherited calls).heap = [] := by
    rw [startup_eq, addPorts, (frame_addPortsUpTo _).2.1,
      (opened_empty parse file inherited calls).2.2.1]
  have hlive := @mem_live_startup parse file inherited calls
  revert hinv hheap hlive hepoll
  generalize startup parse file inherited calls = s
  intro hepoll hinv hheap hlive
  refine ⟨?_, hinv.epoll_nodup⟩
  rw [List.perm_ext_iff_of_nodup]
  · rintro ⟨fd, port⟩
    constructor
    · intro hmem
      obtain ⟨e, he, heq⟩ := List.mem_map.1 hmem
      obtain ⟨i, p, hp, hpos, rfl⟩ := hlive.1 he
      exact List.mem_map.2 ⟨_, hepoll i p hp hpos, heq⟩
    · intro hmem
      obtain ⟨⟨fd', ref⟩, hreg, heq⟩ := List.mem_map.1 hmem
      obtain ⟨p, hp, hfd, hpos⟩ := hinv.registered _ hreg
      cases ref with
      | config i =>
          refine List.mem_map.2 ⟨_, hlive.2 ⟨i, p, hp, ?_, rfl⟩, ?_⟩
          · rw [hfd]
            exact hpos
          · rw [hfd]
            exact heq
      | heap n => simp [Reactor.deref, hheap] at hp
  · have hnodup : (s.table.live.map PortEntry.port).Nodup := hinv.nodup
    refine List.Nodup.of_map Prod.snd ?_
    rw [List.map_map]
    exact hnodup
  · refine List.Nodup.of_map Prod.fst ?_
    rw [List.map_map]
    exact hinv.epoll_nodup

end Startup

/--
While every connection is accepted with a slot free, the slots in use and the
registrations are the same set, what is read from is found by its name, and
what hangs up is reclaimed; the next step keeps the sets equal exactly when it
is not an accept without a free slot.
-/
theorem port_table_agrees (parse : CJsonParser) (file : Option (List UInt8))
    (inherited : Int → Bool) (calls : Nat → OpenCalls)
    (hkernel : KernelOpens (.boot (loadConfig parse file).2.ports inherited)
      calls)
    (hepoll : EpollSucceeds (startup parse file inherited calls))
    {trace : List ReactorEvent} {s : Reactor}
    (hrun : Run (Guarded ReactorStep HasRoom)
      (startup parse file inherited calls) trace s) :
    TableAgrees s ∧
      (∀ fd ref p, (fd, ref) ∈ s.epoll → s.deref ref = some p →
        p.type.isServer = false → FoundByName s ref p) ∧
      ∀ event t, ReactorStep s event t →
        (TableAgrees t ↔ HasRoom s event) ∧
          ∀ ref p, event = .hangup ref → s.deref ref = some p →
            Reclaimed t ref p := by
  have hboth : ReactorInv s ∧ TableAgrees s := by
    apply Run.invariant _ _ hrun
    · exact ⟨.of_startup hkernel, .of_startup hkernel hepoll⟩
    · rintro s event t ⟨hinv, h⟩ ⟨hstep, hroom⟩
      exact ⟨hinv.step hstep, (h.step hinv hstep).2 hroom⟩
  obtain ⟨hinv, h⟩ := hboth
  refine ⟨h, ?_, ?_⟩
  · intro fd ref p hreg hp htype
    exact h.foundByName hreg hp htype
  · intro event t hstep
    refine ⟨h.step hinv hstep, ?_⟩
    rintro ref p rfl hp
    obtain ⟨⟨hreg, -⟩, rfl⟩ := hstep
    simp only [reactorHandle, hp]
    exact (h.hangup hinv hreg hp).2

def fullTable : List CJson := tcpServerPort "HOST" :: List.replicate 31 udpPort

def fullTableText : List UInt8 :=
  configText (tcpServerText "HOST" :: List.replicate 31 udpPortText)

def fullTableStart : Reactor :=
  startup (parsesTo fullTable) (some fullTableText) stdio nextCalls

theorem fullTableStart_epoll : EpollSucceeds fullTableStart := by
  have hfacts : fullTableStart.ports.length = 32 ∧
      ∀ i : Fin 32, fullTableStart.ports[i.val]?.all (fun p =>
        decide ((p.fd, .config i) ∈ fullTableStart.epoll)) = true := by
    decide +kernel
  rcases hfacts with ⟨hlen, hall⟩
  intro i p hp _
  obtain ⟨hi, -⟩ := List.getElem?_eq_some_iff.1 hp
  have hreg := hall ⟨i, hlen ▸ hi⟩
  simpa [hp] using hreg

theorem port_table_disagrees :
    KernelOpens (.boot (loadConfig (parsesTo fullTable)
        (some fullTableText)).2.ports stdio) nextCalls ∧
      EpollSucceeds fullTableStart ∧ ∃ s,
        Run ReactorStep fullTableStart [.accepted (.config 0) 35] s ∧
          (35, .heap 0) ∈ s.epoll ∧ ¬ TableAgrees s := by
  have hfacts : Enabled fullTableStart (.accepted (.config 0) 35) ∧
      fullTableStart.table.live.length = maxPorts ∧
      (35, .heap 0) ∈
        (reactorHandle fullTableStart (.accepted (.config 0) 35)).epoll := by
    decide +kernel
  rcases hfacts with ⟨henabled, hfull, hepoll⟩
  have hstep : ReactorStep fullTableStart (.accepted (.config 0) 35)
      (reactorHandle fullTableStart (.accepted (.config 0) 35)) :=
    ⟨henabled, rfl⟩
  refine ⟨kernelOpens_nextCalls _, fullTableStart_epoll, _,
    .next .refl hstep, hepoll, ?_⟩
  have hagrees : TableAgrees fullTableStart :=
    .of_startup (kernelOpens_nextCalls _) fullTableStart_epoll
  rw [hagrees.step (.of_startup (kernelOpens_nextCalls _)) hstep]
  intro hroom
  have hlt := hroom _ _ rfl
  omega

theorem port_table_agrees_reuse :
    TableAgrees (reactorHandle (reactorHandle fullTableStart
      (.hangup (.config 1))) (.accepted (.config 0) 4)) := by
  have hrun : Run (Guarded ReactorStep HasRoom) fullTableStart
      ([.hangup (.config 1)] ++ [.accepted (.config 0) 4])
      (reactorHandle (reactorHandle fullTableStart (.hangup (.config 1)))
        (.accepted (.config 0) 4)) := by
    refine .next (.next .refl ⟨⟨by decide +kernel, rfl⟩, ?_⟩)
      ⟨⟨by decide +kernel, rfl⟩, ?_⟩
    · intro ref clientFd hevent
      contradiction
    · intro ref clientFd _
      decide +kernel
  exact (port_table_agrees _ _ _ _ (kernelOpens_nextCalls _)
    fullTableStart_epoll hrun).1

end EzRouter
