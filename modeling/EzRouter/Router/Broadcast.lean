import EzRouter.Router.ReactorInvariants

/-!
# A listening port as a destination

The contract above `port_send_tcp_server_broadcast` is that a message for a
`tcp_server` goes to every connected host.  `port_find` passes over listening
ports and returns the first record of that name that is not one, so
`port_send` sees a single connection and the broadcast is never entered.
-/

namespace EzRouter

open EzRouter.Foundation

def Reactor.acceptedOn (s : Reactor) (server : PortRef) : PortRef → Bool
  | .config _ => false
  | .heap n => s.heap[n]?.any fun c => decide (c.server = server)

def acceptedClients (s : Reactor) (server : PortRef) : List PortRef :=
  (s.table.live.filterMap PortEntry.port).filter (s.acceptedOn server)

def answering (s : Reactor) (name : CStr) : List PortRef :=
  (s.table.entries.filter (s.answersTo name)).filterMap PortEntry.port

/-- The message is written once to every connection accepted on the port, and
to nothing else. -/
def ReachesEveryHost (s : Reactor) (result : PortRef → Int) (server : PortRef)
    (m : EventMsg) : Prop :=
  (routerCoreHandle s result m).Perm
    ((acceptedClients s server).map (s.writeTo m.payload))

section

variable {s : Reactor}

theorem portFind_eq_head (name : CStr) :
    portFind s name = (answering s name).head? := by
  unfold portFind answering
  cases hfind : s.table.entries.find? (s.answersTo name) with
  | none =>
      have hnil : s.table.entries.filter (s.answersTo name) = [] := by
        rw [← List.head?_eq_none_iff, List.head?_filter, hfind]
      simp [hnil]
  | some e =>
      obtain ⟨-, ref, p, hport, -⟩ := answersTo_iff.1 (List.find?_some hfind)
      obtain ⟨rest, hrest⟩ : ∃ rest,
          s.table.entries.filter (s.answersTo name) = e :: rest := by
        rw [← List.head?_eq_some_iff, List.head?_filter, hfind]
      simp [hrest, hport]

theorem routerCoreHandle_eq (h : ReactorInv s) (result : PortRef → Int)
    (m : EventMsg) :
    ((∀ ref p, (answering s m.dst.str).head? = some ref →
        s.deref ref = some p → p.type = .udp) ∧
      routerCoreHandle s result m = []) ∨
    ∃ ref p, (answering s m.dst.str).head? = some ref ∧
      s.deref ref = some p ∧ p.type ≠ .udp ∧
      routerCoreHandle s result m = [s.writeTo m.payload ref] := by
  unfold routerCoreHandle
  rw [portFind_eq_head]
  cases hhead : (answering s m.dst.str).head? with
  | none =>
      left
      refine ⟨?_, rfl⟩
      intro ref p href
      contradiction
  | some ref =>
      obtain ⟨e, p, he, hport, hp, -, htype⟩ :=
        portFind_some ((portFind_eq_head _).trans hhead)
      obtain ⟨-, hfd⟩ := h.fd_of_entry he hport hp
      have hsend := portSend_writes hp hfd htype result m.payload m.len
      by_cases hudp : p.type = .udp
      · left
        constructor
        · rintro ref' p' ⟨rfl⟩ hp'
          obtain rfl := Option.some.inj (hp.symm.trans hp')
          exact hudp
        · exact hsend.trans (if_pos hudp)
      · right
        exact ⟨ref, p, rfl, hp, hudp, hsend.trans (if_neg hudp)⟩

theorem mem_acceptedClients {server ref : PortRef}
    (href : ref ∈ acceptedClients s server) :
    ∃ n c, ref = .heap n ∧ s.heap[n]? = some c ∧ c.server = server := by
  obtain ⟨-, haccepted⟩ := List.mem_filter.1 href
  cases ref with
  | config i => contradiction
  | heap n =>
      obtain ⟨c, hc, hserver⟩ := (Option.any_eq_true _ _).1 haccepted
      exact ⟨n, c, rfl, hc, by simpa using hserver⟩

theorem ReactorInv.acceptedClient (h : ReactorInv s) {i : Nat}
    {server : PortDef} (hserver : s.ports[i]? = some server) {ref : PortRef}
    (href : ref ∈ acceptedClients s (.config i)) :
    ∃ p, s.deref ref = some p ∧ p.type = server.type.clientType ∧
      p.name.str = server.name.str := by
  obtain ⟨n, c, rfl, hc, hi⟩ := mem_acceptedClients href
  obtain ⟨j, server', hj, hserver', -, hname, htype⟩ :=
    h.client c (List.mem_of_getElem? hc)
  obtain rfl := PortRef.config.inj (hi.symm.trans hj)
  obtain rfl := Option.some.inj (hserver.symm.trans hserver')
  exact ⟨c.record, by simp [Reactor.deref, hc], htype, hname⟩

end

/--
In every state of a run a message for a `tcp_server` reaches all its hosts
exactly when it has none and the first record of its name takes no bytes, or
has one and that is the first record of its name.
-/
theorem reaches_every_host_iff (parse : CJsonParser)
    (file : Option (List UInt8)) (inherited : Int → Bool)
    (calls : Nat → OpenCalls)
    (hkernel : KernelOpens (.boot (loadConfig parse file).2.ports inherited)
      calls)
    {trace : List ReactorEvent} {s : Reactor}
    (hrun : Run ReactorStep (startup parse file inherited calls) trace s)
    {i : Nat} {server : PortDef} (hserver : s.ports[i]? = some server)
    (htype : server.type = .tcpServer) (result : PortRef → Int) {m : EventMsg}
    (hdst : m.dst.str = server.name.str) :
    ReachesEveryHost s result (.config i) m ↔
      (acceptedClients s (.config i) = [] ∧
        ∀ ref p, (answering s server.name.str).head? = some ref →
          s.deref ref = some p → p.type = .udp) ∨
      ∃ ref, acceptedClients s (.config i) = [ref] ∧
        (answering s server.name.str).head? = some ref := by
  have hinv := ReactorInv.of_run hkernel hrun
  unfold ReachesEveryHost
  rw [← hdst]
  rcases routerCoreHandle_eq hinv result m with
    ⟨hudp, hwrites⟩ | ⟨ref, p, hhead, hp, hudp, hwrites⟩
  · rw [hwrites, List.nil_perm, List.map_eq_nil_iff]
    constructor
    · intro hnone
      exact .inl ⟨hnone, hudp⟩
    · rintro (⟨hnone, -⟩ | ⟨ref, hone, hhead⟩)
      · exact hnone
      · -- A connection of a `tcp_server` is no udp port.
        obtain ⟨p, hp, hclient, -⟩ :=
          hinv.acceptedClient hserver (hone ▸ List.mem_singleton_self ref)
        have hbad := hudp ref p hhead hp
        rw [hclient, htype] at hbad
        contradiction
  · rw [hwrites]
    constructor
    · intro hperm
      right
      obtain ⟨ref', hone, hsame⟩ :=
        List.map_eq_singleton_iff.1 (List.perm_singleton.1 hperm.symm)
      obtain rfl : ref' = ref := congrArg Write.port hsame
      exact ⟨ref', hone, hhead⟩
    · rintro (⟨-, hall⟩ | ⟨ref', hone, hhead'⟩)
      · exact absurd (hall ref p hhead hp) hudp
      · obtain rfl := Option.some.inj (hhead.symm.trans hhead')
        rw [hone]
        exact List.Perm.refl _

def hostStart : Reactor :=
  startup (parsesTo [tcpServerPort "HOST"])
    (some (configText [tcpServerText "HOST"])) stdio nextCalls

def oneHost : Reactor := reactorHandle hostStart (.accepted (.config 0) 4)

def twoHosts : Reactor := reactorHandle oneHost (.accepted (.config 0) 5)

def hostMsg : EventMsg where
  dst := .ofStr 32 (.lit "HOST")
  len := 2
  data := (Buffer.zero maxData).write 0 [65, 66]

theorem oneHost_run :
    Run ReactorStep hostStart ([] ++ [.accepted (.config 0) 4]) oneHost :=
  .next .refl ⟨by decide, rfl⟩

theorem reaches_first_host_only :
    Run ReactorStep hostStart
        ([] ++ [.accepted (.config 0) 4] ++ [.accepted (.config 0) 5])
        twoHosts ∧
      (∃ server, twoHosts.ports[0]? = some server ∧
        server.type = .tcpServer ∧ hostMsg.dst.str = server.name.str) ∧
      routerCoreHandle twoHosts (fun _ => 2) hostMsg =
        [⟨.heap 0, 4, [65, 66]⟩] ∧
      ¬ ReachesEveryHost twoHosts (fun _ => 2) (.config 0) hostMsg := by
  refine ⟨.next oneHost_run ⟨by decide, rfl⟩, ⟨_, rfl, by decide, by decide⟩,
    by decide +kernel, ?_⟩
  intro hperm
  have hlen := hperm.length_eq
  revert hlen
  decide +kernel

theorem reaches_every_host_iff_one :
    ReachesEveryHost oneHost (fun _ => 2) (.config 0) hostMsg := by
  refine (reaches_every_host_iff _ _ _ _ (kernelOpens_nextCalls _) oneHost_run
    rfl (by decide) _ (by decide)).2 (.inr ⟨.heap 0, ?_, ?_⟩)
  · decide
  · decide

end EzRouter
