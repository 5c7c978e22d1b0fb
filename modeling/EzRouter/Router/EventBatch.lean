import EzRouter.Router.ReactorInvariants

/-!
# Batches of events

`reactor_thread` asks for up to 16 events at once and handles them one after
the other.  What an event points to was looked up before the events in front of
it were handled, and each of these may have closed a descriptor and freed a
record.  The loop over batches is compared here with the reactor that asks
again before every event.
-/

namespace EzRouter

open EzRouter.Foundation

def maxEvents : Nat := 16

/-- `evs` holds the pointers of the batch that have not had their turn. -/
structure BatchLoop where
  reactor : Reactor
  evs : List PortRef

def BatchLoop.start (s : Reactor) : BatchLoop := ⟨s, []⟩

inductive BatchEvent where
  | wait (ready : List (Int × PortRef))
  | turn (event : ReactorEvent)

def BatchEvent.handled : BatchEvent → Option ReactorEvent
  | .turn event => some event
  | .wait _ => none

theorem handled_wait (ready : List (Int × PortRef)) :
    [BatchEvent.wait ready].filterMap BatchEvent.handled = [] := rfl

/-- `epoll_wait` reports any registrations, each at most once; a turn follows
the next pointer, whether or not it is still registered. -/
inductive BatchStep : BatchLoop → BatchEvent → BatchLoop → Prop where
  | wait (s : Reactor) (ready : List (Int × PortRef))
      (hready : ready.Subperm s.epoll) (hlen : ready.length ≤ maxEvents) :
      BatchStep ⟨s, []⟩ (.wait ready) ⟨s, ready.map Prod.snd⟩
  | turn (s : Reactor) (event : ReactorEvent) (evs : List PortRef)
      (p : PortDef) (hp : s.deref event.port = some p)
      (hpermits : Permits s p event) :
      BatchStep ⟨s, event.port :: evs⟩ (.turn event)
        ⟨reactorHandle s event, evs⟩

section Step

variable {s t : Reactor}

theorem ReactorInv.refs_nodup (h : ReactorInv s) :
    (s.epoll.map Prod.snd).Nodup := by
  have hepoll : s.epoll.Nodup := List.Nodup.of_map _ h.epoll_nodup
  apply hepoll.map_on
  rintro ⟨fd, ref⟩ hreg ⟨fd', ref'⟩ hreg' rfl
  obtain ⟨p, hp, hfd, -⟩ := h.registered _ hreg
  obtain ⟨hfd', -⟩ := h.fd_of_registered hreg' hp
  simp_all

theorem ReactorInv.fd_of_toFree (h : ReactorInv s) {type : PortType} {fd : Int}
    {ref : PortRef} (hfree : s.toFree type fd = some ref) :
    ∃ p, s.deref ref = some p ∧ p.fd = fd := by
  have hfound : (s.table.findFd fd).bind (·.port) = some ref := by
    unfold Reactor.toFree at hfree
    split_ifs at hfree
    exact hfree
  obtain ⟨e, he, hport⟩ := Option.bind_eq_some_iff.1 hfound
  rcases s.table.live_clear fd with ⟨hnone, -, -⟩ | ⟨e', he', -, hfd, hperm⟩
  · rw [hnone] at he
    contradiction
  · obtain rfl := Option.some.inj (he.symm.trans he')
    obtain ⟨ref', p, hport', hp, hfd', -⟩ :=
      h.entry e (hperm.mem_iff.2 List.mem_cons_self)
    obtain rfl := Option.some.inj (hport.symm.trans hport')
    exact ⟨p, hp, hfd'.trans hfd⟩

def RegisteredAlive (s : Reactor) : Prop := ∀ reg ∈ s.epoll, reg.2 ∉ s.freed

theorem RegisteredAlive.step (h : RegisteredAlive s) (hinv : ReactorInv s)
    {event : ReactorEvent} (hstep : ReactorStep s event t) :
    RegisteredAlive t := by
  obtain ⟨⟨-, p, hp, hkernel⟩, rfl⟩ := hstep
  cases event with
  | accepted ref clientFd =>
      change s.deref ref = some p at hp
      simp only [reactorHandle, hp]
      intro reg hreg
      rw [(frame_reactorAccept ref p clientFd).1]
      rcases mem_epoll_reactorAddPort hreg with hold | ⟨q, -, -, rfl⟩
      · exact h reg hold
      · intro hfreed
        have hvalid := hinv.freed_valid _ hfreed
        rw [deref_fresh] at hvalid
        contradiction
  | acceptFailed ref => exact h
  | received ref chunk => exact h
  | hangup ref =>
      change s.deref ref = some p at hp
      simp only [reactorHandle, hp]
      rintro ⟨fd, ref'⟩ hreg hfreed
      obtain ⟨hmem, hne⟩ := List.mem_filter.1 hreg
      simp only [decide_eq_true_eq] at hne
      rcases List.mem_append.1 hfreed with hold | hnew
      · exact h _ hmem hold
      · obtain ⟨q, hq, hfd⟩ := hinv.fd_of_toFree (Option.mem_toList.1 hnew)
        exact hne ((hinv.fd_of_registered hmem hq).1.symm.trans hfd)

theorem ReactorInv.stays_registered (hinv : ReactorInv s)
    {event : ReactorEvent} (hstep : ReactorStep s event t) {ref : PortRef}
    (hreg : ref ∈ s.epoll.map Prod.snd) (hother : ref ≠ event.port) :
    ref ∈ t.epoll.map Prod.snd := by
  obtain ⟨⟨hport, p, hp, hkernel⟩, rfl⟩ := hstep
  cases event with
  | accepted server clientFd =>
      change s.deref server = some p at hp
      simp only [reactorHandle, hp]
      rcases reactorAddPort_cases (s.alloc server p clientFd)
          (.heap s.heap.length) with ⟨hsame, -⟩ | ⟨q, -, -, -, hepoll⟩
      · rw [reactorAccept, hsame]
        exact hreg
      · rw [reactorAccept, hepoll]
        split_ifs
        · rw [List.map_append]
          exact List.mem_append_left _ hreg
        · exact hreg
  | acceptFailed server => exact hreg
  | received other chunk => exact hreg
  | hangup other =>
      change s.deref other = some p at hp
      change ref ≠ other at hother
      simp only [reactorHandle, hp]
      obtain ⟨⟨fd, ref'⟩, hmem, rfl⟩ := List.mem_map.1 hreg
      refine List.mem_map.2 ⟨(fd, ref'), List.mem_filter.2 ⟨hmem, ?_⟩, rfl⟩
      simp only [decide_eq_true_eq]
      rintro rfl
      -- No two registrations share a descriptor.
      obtain ⟨⟨fd', other'⟩, hmem', rfl⟩ := List.mem_map.1 hport
      obtain ⟨rfl, -⟩ := hinv.fd_of_registered hmem' hp
      have hsame := List.inj_on_of_nodup_map hinv.epoll_nodup hmem hmem' rfl
      exact hother (Prod.mk.inj hsame).2

end Step

/-! ## A whole batch -/

structure BatchInv (b : BatchLoop) : Prop where
  reactor : ReactorInv b.reactor
  alive : RegisteredAlive b.reactor
  short : b.evs.length ≤ maxEvents
  distinct : b.evs.Nodup
  registered : ∀ ref ∈ b.evs, ref ∈ b.reactor.epoll.map Prod.snd

section Batch

variable {b b' : BatchLoop}

theorem BatchInv.wait {s : Reactor} (h : BatchInv ⟨s, []⟩)
    {ready : List (Int × PortRef)} (hready : ready.Subperm s.epoll)
    (hlen : ready.length ≤ maxEvents) :
    BatchInv ⟨s, ready.map Prod.snd⟩ := by
  obtain ⟨chosen, hperm, hsub⟩ := hready
  have hrefs : (ready.map Prod.snd).Subperm (s.epoll.map Prod.snd) :=
    ⟨chosen.map Prod.snd, hperm.map _, hsub.map _⟩
  refine ⟨h.reactor, h.alive, by simpa using hlen, ?_, ?_⟩
  · exact hperm.map Prod.snd |>.nodup_iff.1
      ((hsub.map Prod.snd).nodup h.reactor.refs_nodup)
  · exact fun ref href => hrefs.subset href

theorem BatchInv.reactorStep {s : Reactor} {event : ReactorEvent}
    {evs : List PortRef} (h : BatchInv ⟨s, event.port :: evs⟩) {p : PortDef}
    (hp : s.deref event.port = some p) (hpermits : Permits s p event) :
    ReactorStep s event (reactorHandle s event) :=
  ⟨⟨h.registered _ List.mem_cons_self, p, hp, hpermits⟩, rfl⟩

theorem BatchInv.turn {s : Reactor} {event : ReactorEvent}
    {evs : List PortRef} (h : BatchInv ⟨s, event.port :: evs⟩) {t : Reactor}
    (hstep : ReactorStep s event t) : BatchInv ⟨t, evs⟩ := by
  obtain ⟨hfirst, hdistinct⟩ := List.nodup_cons.1 h.distinct
  have hshort := h.short
  refine ⟨h.reactor.step hstep, h.alive.step h.reactor hstep, ?_, hdistinct, ?_⟩
  · simp only [List.length_cons] at hshort ⊢
    omega
  · intro ref href
    apply h.reactor.stays_registered hstep
      (h.registered ref (List.mem_cons_of_mem _ href))
    rintro rfl
    exact hfirst href

theorem BatchInv.step (h : BatchInv b) {event : BatchEvent}
    (hstep : BatchStep b event b') : BatchInv b' := by
  cases hstep with
  | wait s ready hready hlen => exact h.wait hready hlen
  | turn s event evs p hp hpermits => exact h.turn (h.reactorStep hp hpermits)

end Batch

variable {parse : CJsonParser} {file : Option (List UInt8)}
  {inherited : Int → Bool} {calls : Nat → OpenCalls}

theorem BatchInv.of_startup (hkernel : KernelOpens
      (.boot (loadConfig parse file).2.ports inherited) calls) :
    BatchInv (.start (startup parse file inherited calls)) := by
  refine ⟨.of_startup hkernel, ?_, by simp [BatchLoop.start], by
    simp [BatchLoop.start], by simp [BatchLoop.start]⟩
  intro reg _
  change reg.2 ∉ (startup parse file inherited calls).freed
  rw [startup_eq, addPorts, (frame_addPortsUpTo _).2.2.1,
    (opened_empty parse file inherited calls).2.2.2.1]
  exact List.not_mem_nil

theorem reactorRun_of_batches {start b : BatchLoop} (hinv : BatchInv start)
    {batches : List BatchEvent} (hrun : Run BatchStep start batches b) :
    BatchInv b ∧ Run ReactorStep start.reactor
      (batches.filterMap BatchEvent.handled) b.reactor := by
  induction hrun with
  | refl => exact ⟨hinv, .refl⟩
  | next _ hstep ih =>
      obtain ⟨h, hreactor⟩ := ih
      refine ⟨h.step hstep, ?_⟩
      rw [List.filterMap_append]
      cases hstep with
      | wait s ready hready hlen =>
          rw [handled_wait, List.append_nil]
          exact hreactor
      | turn s event evs p hp hpermits =>
          exact .next hreactor (h.reactorStep hp hpermits)

theorem batches_of_reactorRun {s t : Reactor} {trace : List ReactorEvent}
    (hrun : Run ReactorStep s trace t) :
    ∃ batches, batches.filterMap BatchEvent.handled = trace ∧
      Run BatchStep (.start s) batches (.start t) := by
  induction hrun with
  | refl => exact ⟨[], rfl, .refl⟩
  | @next trace s' t' event _ hstep ih =>
      obtain ⟨batches, hhandled, hbatches⟩ := ih
      obtain ⟨⟨hport, p, hp, hpermits⟩, rfl⟩ := hstep
      obtain ⟨reg, hreg, href⟩ := List.mem_map.1 hport
      have hwait : BatchStep (.start s') (.wait [reg]) ⟨s', [event.port]⟩ := by
        rw [← href]
        exact .wait s' [reg] (List.singleton_subperm_iff.2 hreg)
          (Nat.le_add_left 1 15)
      have hturn : BatchStep ⟨s', [event.port]⟩ (.turn event)
          (.start (reactorHandle s' event)) := .turn s' event [] p hp hpermits
      refine ⟨batches ++ [.wait [reg]] ++ [.turn event], ?_,
        .next (.next hbatches hwait) hturn⟩
      rw [List.filterMap_append, List.filterMap_append, hhandled, handled_wait,
        List.append_nil]
      rfl

/--
Whatever batches `epoll_wait` returns and whatever the events in front do, a
pointer whose turn comes is registered under its own open descriptor, has not
been freed and comes only once; and handling batches reaches the same states by
the same events as asking before every event.
-/
theorem batches_are_steps (hkernel : KernelOpens
      (.boot (loadConfig parse file).2.ports inherited) calls) :
    (∀ batches b, Run BatchStep (.start (startup parse file inherited calls))
        batches b →
      b.evs.length ≤ maxEvents ∧ b.evs.Nodup ∧
        ∀ ref ∈ b.evs, ref ∉ b.reactor.freed ∧
          ∃ p, b.reactor.deref ref = some p ∧ (p.fd, ref) ∈ b.reactor.epoll ∧
            (b.reactor.fds p.fd).isSome = true) ∧
    ∀ trace s, Run ReactorStep (startup parse file inherited calls) trace s ↔
      ∃ batches evs, batches.filterMap BatchEvent.handled = trace ∧
        Run BatchStep (.start (startup parse file inherited calls)) batches
          ⟨s, evs⟩ := by
  have hstart := BatchInv.of_startup hkernel
  constructor
  · intro batches b hrun
    have hinv := (reactorRun_of_batches hstart hrun).1
    refine ⟨hinv.short, hinv.distinct, ?_⟩
    intro ref href
    obtain ⟨⟨fd, ref⟩, hreg, rfl⟩ := List.mem_map.1 (hinv.registered ref href)
    obtain ⟨p, hp, rfl, -⟩ := hinv.reactor.registered _ hreg
    exact ⟨hinv.alive _ hreg, p, hp, hreg, hinv.reactor.epoll_open _ hreg⟩
  · intro trace s
    constructor
    · intro hrun
      obtain ⟨batches, hhandled, hbatches⟩ := batches_of_reactorRun hrun
      exact ⟨batches, [], hhandled, hbatches⟩
    · rintro ⟨batches, evs, rfl, hrun⟩
      exact (reactorRun_of_batches hstart hrun).2

def mixedStart : Reactor :=
  startup (parsesTo [udpPort, tcpServerPort "HOST"])
    (some (configText [udpPortText, tcpServerText "HOST"])) stdio nextCalls

theorem mixedStart_run :
    Run BatchStep (.start mixedStart)
      [.wait mixedStart.epoll, .turn (.hangup (.config 0))]
      ⟨reactorHandle mixedStart (.hangup (.config 0)), [.config 1]⟩ := by
  have hevs : mixedStart.epoll.map Prod.snd = [.config 0, .config 1] := by
    decide
  have hwait : BatchStep (.start mixedStart) (.wait mixedStart.epoll)
      ⟨mixedStart, [.config 0, .config 1]⟩ := by
    rw [← hevs]
    exact .wait _ _ (List.Subperm.refl _) (by decide)
  obtain ⟨-, p, hp, hpermits⟩ : Enabled mixedStart (.hangup (.config 0)) := by
    decide
  exact .next (.next .refl hwait) (.turn mixedStart _ _ p hp hpermits)

theorem batches_are_steps_hangup :
    let s := reactorHandle mixedStart (.hangup (.config 0))
    PortRef.config 1 ∉ s.freed ∧ ∃ p, s.deref (.config 1) = some p ∧
      (p.fd, .config 1) ∈ s.epoll ∧ (s.fds p.fd).isSome = true := by
  intro s
  obtain ⟨-, -, halive⟩ :=
    (batches_are_steps (kernelOpens_nextCalls _)).1 _ _ mixedStart_run
  exact halive (.config 1) List.mem_cons_self

end EzRouter
