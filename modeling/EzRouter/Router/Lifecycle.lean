import EzRouter.Router.EventBatch

/-!
# The life of a port

The events of a run, seen from one port.  A listening port only ever accepts;
every other port is read until it hangs up, and the loop does not come back to
it afterwards, although `accept` may return its descriptor again at once and
the record of a configured port keeps that descriptor.
-/

namespace EzRouter

open EzRouter.Foundation

def historyOf (trace : List ReactorEvent) (ref : PortRef) :
    List ReactorEvent :=
  trace.filter fun event => decide (event.port = ref)

def ReactorEvent.listens : ReactorEvent → Bool
  | .accepted _ _ => true
  | .acceptFailed _ => true
  | .received _ _ => false
  | .hangup _ => false

def ReactorEvent.connects : ReactorEvent → Bool
  | .accepted _ _ => true
  | .acceptFailed _ => false
  | .received _ _ => false
  | .hangup _ => false

def connections (trace : List ReactorEvent) : Nat :=
  trace.countP ReactorEvent.connects

def reads (ref : PortRef) (chunks : List (List UInt8)) : List ReactorEvent :=
  chunks.map (.received ref)

section History

variable {trace : List ReactorEvent} {event : ReactorEvent} {ref : PortRef}

theorem historyOf_snoc_self :
    historyOf (trace ++ [event]) event.port =
      historyOf trace event.port ++ [event] := by
  simp [historyOf]

theorem historyOf_snoc_ne (hne : event.port ≠ ref) :
    historyOf (trace ++ [event]) ref = historyOf trace ref := by
  simp [historyOf, hne]

theorem mem_historyOf_snoc {event' : ReactorEvent}
    (hmem : event' ∈ historyOf (trace ++ [event]) ref) :
    event' ∈ historyOf trace ref ∨ event' = event ∧ event.port = ref := by
  by_cases hne : event.port = ref
  · subst hne
    rw [historyOf_snoc_self] at hmem
    rcases List.mem_append.1 hmem with hold | hnew
    · exact .inl hold
    · exact .inr ⟨List.mem_singleton.1 hnew, rfl⟩
  · rw [historyOf_snoc_ne hne] at hmem
    exact .inl hmem

theorem reads_snoc (ref : PortRef) (chunks : List (List UInt8))
    (chunk : List UInt8) :
    reads ref chunks ++ [.received ref chunk] = reads ref (chunks ++ [chunk]) := by
  simp [reads]

theorem connections_snoc (trace : List ReactorEvent) (event : ReactorEvent) :
    connections (trace ++ [event]) =
      connections trace + if event.connects then 1 else 0 := by
  simp [connections, List.countP_append]

end History

section Step

variable {s t : Reactor} {event : ReactorEvent}

theorem length_heap_step (hstep : ReactorStep s event t) :
    t.heap.length = s.heap.length + if event.connects then 1 else 0 := by
  obtain ⟨⟨-, p, hp, -⟩, rfl⟩ := hstep
  cases event with
  | accepted ref clientFd =>
      change s.deref ref = some p at hp
      obtain ⟨-, hheap, -⟩ := frame_reactorAddPort
        (s := s.alloc ref p clientFd) (.heap s.heap.length)
      simp only [reactorHandle, hp]
      rw [reactorAccept, hheap, Reactor.alloc, List.length_append]
      rfl
  | acceptFailed ref => rfl
  | received ref chunk => rfl
  | hangup ref =>
      change s.deref ref = some p at hp
      simp only [reactorHandle, hp]
      rfl

theorem deref_step (hstep : ReactorStep s event t) :
    (∀ ref p, s.deref ref = some p → t.deref ref = some p) ∧
      ∀ ref p, t.deref ref = some p → s.deref ref = some p ∨
        s.deref ref = none ∧ p.type.isServer = false := by
  obtain ⟨⟨-, q, hq, -⟩, rfl⟩ := hstep
  cases event with
  | accepted server clientFd =>
      change s.deref server = some q at hq
      simp only [reactorHandle, hq, deref_reactorAccept]
      refine ⟨fun ref p hp => deref_alloc hp server q clientFd, ?_⟩
      intro ref p hp
      rcases deref_alloc_cases hp with hold | ⟨rfl, rfl⟩
      · exact .inl hold
      · refine .inr ⟨deref_fresh s, ?_⟩
        rw [clientRecord]
        cases q.type <;> rfl
  | acceptFailed server => exact ⟨fun _ _ hp => hp, fun _ _ hp => .inl hp⟩
  | received ref chunk => exact ⟨fun _ _ hp => hp, fun _ _ hp => .inl hp⟩
  | hangup ref =>
      change s.deref ref = some q at hq
      simp only [reactorHandle, hq]
      exact ⟨fun _ _ hp => hp, fun _ _ hp => .inl hp⟩

theorem registered_step (hstep : ReactorStep s event t) {ref : PortRef}
    (hreg : ref ∈ t.epoll.map Prod.snd) :
    ref ∈ s.epoll.map Prod.snd ∨ s.deref ref = none := by
  obtain ⟨reg, hmem, rfl⟩ := List.mem_map.1 hreg
  obtain ⟨⟨-, p, hp, -⟩, rfl⟩ := hstep
  cases event with
  | accepted server clientFd =>
      change s.deref server = some p at hp
      simp only [reactorHandle, hp] at hmem
      rcases mem_epoll_reactorAddPort hmem with hold | ⟨q, -, -, rfl⟩
      · exact .inl (List.mem_map_of_mem hold)
      · exact .inr (deref_fresh s)
  | acceptFailed server => exact .inl (List.mem_map_of_mem hmem)
  | received ref chunk => exact .inl (List.mem_map_of_mem hmem)
  | hangup ref =>
      change s.deref ref = some p at hp
      simp only [reactorHandle, hp] at hmem
      exact .inl (List.mem_map_of_mem (List.mem_filter.1 hmem).1)

theorem ReactorInv.hangup_unregisters (hinv : ReactorInv s) {ref : PortRef}
    (hstep : ReactorStep s (.hangup ref) t) :
    ref ∉ t.epoll.map Prod.snd := by
  obtain ⟨⟨-, p, hp, -⟩, rfl⟩ := hstep
  change s.deref ref = some p at hp
  simp only [reactorHandle, hp]
  intro hreg
  obtain ⟨⟨fd, ref⟩, hmem, rfl⟩ := List.mem_map.1 hreg
  obtain ⟨hold, hne⟩ := List.mem_filter.1 hmem
  simp only [decide_eq_true_eq] at hne
  exact hne (hinv.fd_of_registered hold hp).1.symm

end Step

/-! ## What a run has done to each port -/

def Listens (trace : List ReactorEvent) (ref : PortRef) : Prop :=
  ∀ event ∈ historyOf trace ref, event.listens = true

/-- `registered` says whether the epoll set still holds the port. -/
def Reads (trace : List ReactorEvent) (ref : PortRef) (registered : Prop) :
    Prop :=
  ∃ chunks, historyOf trace ref = reads ref chunks ∨
    historyOf trace ref = reads ref chunks ++ [.hangup ref] ∧ ¬ registered

structure PortLives (trace : List ReactorEvent) (s : Reactor) : Prop where
  accepted : connections trace = s.heap.length
  unborn : ∀ ref, s.deref ref = none → historyOf trace ref = []
  listens : ∀ ref p, s.deref ref = some p → p.type.isServer = true →
    Listens trace ref
  reads : ∀ ref p, s.deref ref = some p → p.type.isServer = false →
    Reads trace ref (ref ∈ s.epoll.map Prod.snd)
  born : ∀ before event after n, trace = before ++ event :: after →
    event.port = .heap n → n < connections before

section Lives

variable {s t : Reactor} {trace : List ReactorEvent} {event : ReactorEvent}

theorem PortLives.of_empty (hheap : s.heap = []) : PortLives [] s := by
  constructor
  case accepted => simp [connections, hheap]
  case unborn => exact fun _ _ => rfl
  case listens => exact fun _ _ _ _ _ h => absurd h List.not_mem_nil
  case reads => exact fun _ _ _ _ => ⟨[], .inl rfl⟩
  case born => exact fun before event after n htrace => by simp at htrace

theorem Listens.snoc {ref : PortRef} {p : PortDef} (h : Listens trace ref)
    (hp : s.deref ref = some p) (htype : p.type.isServer = true)
    (hstep : ReactorStep s event t) : Listens (trace ++ [event]) ref := by
  intro event' hmem
  rcases mem_historyOf_snoc hmem with hold | ⟨rfl, rfl⟩
  · exact h event' hold
  · obtain ⟨⟨-, q, hq, hpermits⟩, -⟩ := hstep
    obtain rfl := Option.some.inj (hp.symm.trans hq)
    cases event' with
    | accepted ref clientFd => rfl
    | acceptFailed ref => rfl
    | received ref chunk => simp [Permits, htype] at hpermits
    | hangup ref => simp [Permits, htype] at hpermits

theorem Reads.snoc {ref : PortRef} {p : PortDef}
    (h : Reads trace ref (ref ∈ s.epoll.map Prod.snd)) (hinv : ReactorInv s)
    (hp : s.deref ref = some p) (htype : p.type.isServer = false)
    (hstep : ReactorStep s event t) :
    Reads (trace ++ [event]) ref (ref ∈ t.epoll.map Prod.snd) := by
  obtain ⟨chunks, hup | ⟨hover, hgone⟩⟩ := h
  · by_cases hport : event.port = ref
    · subst hport
      obtain ⟨q, hq, hpermits⟩ := hstep.1.2
      obtain rfl := Option.some.inj (hp.symm.trans hq)
      rw [Reads, historyOf_snoc_self, hup]
      cases event with
      | accepted ref clientFd => simp [Permits, htype] at hpermits
      | acceptFailed ref => simp [Permits, htype] at hpermits
      | received ref chunk =>
          exact ⟨chunks ++ [chunk], .inl (reads_snoc ref chunks chunk)⟩
      | hangup ref => exact ⟨chunks, .inr ⟨rfl, hinv.hangup_unregisters hstep⟩⟩
    · rw [Reads, historyOf_snoc_ne hport]
      exact ⟨chunks, .inl hup⟩
  · -- The port is not registered, so this event is not one of its own.
    have hport : event.port ≠ ref := by
      rintro rfl
      exact hgone hstep.1.1
    rw [Reads, historyOf_snoc_ne hport]
    refine ⟨chunks, .inr ⟨hover, ?_⟩⟩
    intro hreg
    rcases registered_step hstep hreg with hold | hnone
    · exact hgone hold
    · rw [hp] at hnone
      contradiction

theorem PortLives.step (h : PortLives trace s) (hinv : ReactorInv s)
    (hstep : ReactorStep s event t) : PortLives (trace ++ [event]) t := by
  obtain ⟨hkeeps, hcomes⟩ := deref_step hstep
  obtain ⟨q, hq, -⟩ := hstep.1.2
  have hfresh : ∀ ref, s.deref ref = none →
      historyOf (trace ++ [event]) ref = [] := by
    intro ref hnone
    rw [historyOf_snoc_ne, h.unborn ref hnone]
    rintro rfl
    rw [hnone] at hq
    contradiction
  constructor
  case accepted => rw [connections_snoc, length_heap_step hstep, h.accepted]
  case unborn =>
    intro ref hnone
    apply hfresh
    cases hp : s.deref ref with
    | none => rfl
    | some p =>
        rw [hkeeps ref p hp] at hnone
        contradiction
  case listens =>
    intro ref p hp htype
    rcases hcomes ref p hp with hold | ⟨-, hclient⟩
    · exact (h.listens ref p hold htype).snoc hold htype hstep
    · rw [htype] at hclient
      contradiction
  case reads =>
    intro ref p hp htype
    rcases hcomes ref p hp with hold | ⟨hnone, -⟩
    · exact (h.reads ref p hold htype).snoc hinv hold htype hstep
    · exact ⟨[], .inl (hfresh ref hnone)⟩
  case born =>
    intro before event' after n htrace hport
    rcases List.eq_nil_or_concat after with rfl | ⟨rest, last, rfl⟩
    · obtain ⟨rfl, hlast⟩ := List.append_inj' htrace rfl
      obtain rfl := List.head_eq_of_cons_eq hlast
      rw [h.accepted]
      rw [hport] at hq
      obtain ⟨c, hc, -⟩ := Option.map_eq_some_iff.1 hq
      exact (List.getElem?_eq_some_iff.1 hc).1
    · rw [List.concat_eq_append, ← List.cons_append,
        ← List.append_assoc] at htrace
      exact h.born before event' rest n (List.append_inj' htrace rfl).1 hport

end Lives

variable {parse : CJsonParser} {file : Option (List UInt8)}
  {inherited : Int → Bool} {calls : Nat → OpenCalls}

theorem PortLives.of_run (hkernel : KernelOpens
      (.boot (loadConfig parse file).2.ports inherited) calls)
    {trace : List ReactorEvent} {s : Reactor}
    (hrun : Run ReactorStep (startup parse file inherited calls) trace s) :
    PortLives trace s := by
  have hheap : (startup parse file inherited calls).heap = [] := by
    rw [startup_eq, addPorts, (frame_addPortsUpTo _).2.1,
      (opened_empty parse file inherited calls).2.2.1]
  have hboth : ReactorInv s ∧ PortLives trace s := by
    apply hrun.invariant_trace ⟨.of_startup hkernel, .of_empty hheap⟩
    rintro trace s event t ⟨hinv, hlives⟩ hstep
    exact ⟨hinv.step hstep, hlives.step hinv hstep⟩
  exact hboth.2

/--
However the events are batched, a listening port has only accepted; any other
port has been read, then at most once hung up, and from then on neither the
rest of the batch nor a later one brings it back; and the record of the n-th
connection has had no event before `accept` had returned that often.
-/
theorem port_lifecycle (hkernel : KernelOpens
      (.boot (loadConfig parse file).2.ports inherited) calls)
    {batches : List BatchEvent} {b : BatchLoop}
    (hrun : Run BatchStep (.start (startup parse file inherited calls)) batches
      b) :
    let trace := batches.filterMap BatchEvent.handled
    (∀ ref p, b.reactor.deref ref = some p →
      if p.type.isServer then
        ∀ event ∈ historyOf trace ref, event.listens = true
      else
        ∃ chunks, historyOf trace ref = reads ref chunks ∨
          historyOf trace ref = reads ref chunks ++ [.hangup ref] ∧
            ref ∉ b.evs ∧ ref ∉ b.reactor.epoll.map Prod.snd) ∧
      ∀ before event after n, trace = before ++ event :: after →
        event.port = .heap n → n < connections before := by
  intro trace
  obtain ⟨hbatch, hreactor⟩ :=
    reactorRun_of_batches (BatchInv.of_startup hkernel) hrun
  have hlives := PortLives.of_run hkernel hreactor
  refine ⟨?_, hlives.born⟩
  intro ref p hp
  split_ifs with htype
  · exact hlives.listens ref p hp htype
  · obtain ⟨chunks, hup | ⟨hover, hgone⟩⟩ :=
      hlives.reads ref p hp (Bool.eq_false_iff.2 htype)
    · exact ⟨chunks, .inl hup⟩
    · exact ⟨chunks, .inr ⟨hover, mt (hbatch.registered ref) hgone, hgone⟩⟩

def reuseTrace : List ReactorEvent :=
  [.hangup (.config 0), .accepted (.config 1) 3]

def reusedStart : Reactor := reuseTrace.foldl reactorHandle mixedStart

theorem port_lifecycle_reuse :
    (∃ p, reusedStart.deref (.config 0) = some p ∧ p.fd = 3) ∧
      reusedStart.epoll.map Prod.fst = [4, 3] ∧
      ∃ chunks, historyOf reuseTrace (.config 0) = reads (.config 0) chunks ∨
        historyOf reuseTrace (.config 0) =
            reads (.config 0) chunks ++ [.hangup (.config 0)] ∧
          PortRef.config 0 ∉ ([] : List PortRef) ∧
          .config 0 ∉ reusedStart.epoll.map Prod.snd := by
  refine ⟨⟨_, rfl, by decide⟩, by decide, ?_⟩
  obtain ⟨-, p, hp, hpermits⟩ :
      Enabled (reactorHandle mixedStart (.hangup (.config 0)))
        (.accepted (.config 1) 3) := by
    decide
  have hrun := Run.next mixedStart_run (.turn _ _ [] p hp hpermits)
  exact (port_lifecycle (kernelOpens_nextCalls _) hrun).1 (.config 0) _ rfl

end EzRouter
