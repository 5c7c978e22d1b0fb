import EzRouter.Router.ReactorInvariants

/-!
# Two threads on one table

The dispatcher looks a port up and writes to it later; meanwhile the reactor
closes descriptors, clears slots, frees records and accepts connections on
descriptors that are free again.  Neither takes the lock of the reactor around
this, so the steps of the two interleave freely.  A write goes where it should
exactly when the port found had not begun to disconnect by then.
-/

namespace EzRouter

open EzRouter.Foundation

/-- How far the reactor has come with a connection that hung up. -/
inductive Hangup where
  | idle
  | closed (port : PortRef)
  | cleared (toFree : Option PortRef)
  deriving DecidableEq, Repr

/-- A write to a port, and what the process looked like when it was made:
whether the record had been freed, whom the descriptor belonged to, and the
port name of that connection. -/
structure Sent where
  dst : CStr
  write : Write
  freed : Bool
  owner : Option FdOwner
  name : Option CStr
  deriving DecidableEq, Repr

def Reactor.ownerName (s : Reactor) : FdOwner → Option CStr
  | .inherited => none
  | .port ref => (s.deref ref).map fun p => p.name.str

def Reactor.observe (s : Reactor) (dst : CStr) (w : Write) : Sent where
  dst := dst
  write := w
  freed := decide (w.port ∈ s.freed)
  owner := s.fds w.fd
  name := (s.fds w.fd).bind s.ownerName

/-- `held` is what the dispatcher keeps between `port_find` and `port_send`;
`closed` and `sent` remember the connections that hung up and the writes. -/
structure Threads where
  reactor : Reactor
  hangup : Hangup
  held : Option (EventMsg × PortRef)
  closed : List PortRef
  sent : List Sent

/-- The steps of the dispatcher are `find` and `send`, with what `write` is to
return; the others are the reactor's. -/
inductive ThreadEvent where
  | find (msg : EventMsg)
  | send (status : Int)
  | accept (port : PortRef) (clientFd : Int)
  | close (port : PortRef)
  | clear
  | free
  deriving DecidableEq, Repr

def Threads.start (s : Reactor) : Threads := ⟨s, .idle, none, [], []⟩

def threadsHandle (s : Threads) : ThreadEvent → Threads
  | .find msg =>
      { s with held := (portFind s.reactor msg.dst.str).map (msg, ·) }
  | .send status =>
      match s.held with
      | none => s
      | some (msg, ref) =>
          let writes :=
            (portSend s.reactor (fun _ => status) ref msg.payload msg.len).2
          { s with
            held := none
            sent := s.sent ++ writes.map (s.reactor.observe msg.dst.str) }
  -- Until the slot is taken nothing of an accept shows to the dispatcher.
  | .accept ref clientFd =>
      { s with reactor := reactorHandle s.reactor (.accepted ref clientFd) }
  | .close ref =>
      match s.reactor.deref ref with
      | none => s
      | some p =>
          { s with
            reactor := s.reactor.closeFd p.fd
            hangup := .closed ref
            closed := ref :: s.closed }
  | .clear =>
      match s.hangup with
      | .closed ref =>
          match s.reactor.deref ref with
          | none => s
          | some p =>
              { s with
                reactor := s.reactor.clearSlot p.fd
                hangup := .cleared (s.reactor.toFree p.type p.fd) }
      | _ => s
  | .free =>
      match s.hangup with
      | .cleared ref =>
          { s with reactor := s.reactor.free ref, hangup := .idle }
      | _ => s

def ThreadEnabled (s : Threads) : ThreadEvent → Prop
  | .find _ => s.held = none
  | .send _ => s.held ≠ none
  | .accept ref clientFd =>
      s.hangup = .idle ∧ Enabled s.reactor (.accepted ref clientFd)
  | .close ref => s.hangup = .idle ∧ Enabled s.reactor (.hangup ref)
  | .clear => ∃ ref, s.hangup = .closed ref
  | .free => ∃ ref, s.hangup = .cleared ref

def ThreadStep (s : Threads) (event : ThreadEvent) (t : Threads) : Prop :=
  ThreadEnabled s event ∧ t = threadsHandle s event

theorem threadsHandle_hangup (s : Threads) {ref : PortRef} {p : PortDef}
    (hp : s.reactor.deref ref = some p) :
    (threadsHandle (threadsHandle (threadsHandle s (.close ref)) .clear)
      .free).reactor = reactorHandle s.reactor (.hangup ref) := by
  have hderef : (s.reactor.closeFd p.fd).deref ref = some p := hp
  simp only [threadsHandle, reactorHandle, hp, hderef, reactorHangup]
  rfl

structure Sent.Safe (x : Sent) : Prop where
  alive : x.freed = false
  owner : x.owner = some (.port x.write.port)
  name : x.name = some x.dst

/-- Nothing is written to a port that has begun to disconnect. -/
def SentBeforeClose (s : Threads) (event : ThreadEvent) : Prop :=
  ∀ status msg ref p, event = .send status → s.held = some (msg, ref) →
    s.reactor.deref ref = some p → p.type ≠ .udp → ref ∉ s.closed

/-! ## What holds in every interleaving -/

structure ThreadsInv (s : Threads) : Prop where
  reactor : ReactorInv s.reactor
  -- Until it hangs up, a connection owns its descriptor.
  owned : ∀ ref p, s.reactor.deref ref = some p → 0 ≤ p.fd →
    ref ∉ s.closed → s.reactor.fds p.fd = some (.port ref) ∧
      ref ∉ s.reactor.freed
  -- From then on it never does.
  gone : ∀ ref ∈ s.closed, ∃ p, s.reactor.deref ref = some p ∧
    s.reactor.fds p.fd ≠ some (.port ref)
  registered : ∀ reg ∈ s.reactor.epoll, reg.2 ∉ s.closed
  listed : ∀ e ∈ s.reactor.table.live, ∀ ref, e.port = some ref →
    ref ∈ s.closed → s.hangup = .closed ref
  closing : ∀ ref, s.hangup = .closed ref → ref ∈ s.closed ∧
    ∃ p, s.reactor.deref ref = some p ∧ s.reactor.fds p.fd = none
  freeing : ∀ ref, s.hangup = .cleared (some ref) → ref ∈ s.closed ∧
    ref ∉ s.reactor.freed ∧
      ∀ e ∈ s.reactor.table.live, e.port ≠ some ref
  held : ∀ msg ref, s.held = some (msg, ref) → ∃ p,
    s.reactor.deref ref = some p ∧ 0 ≤ p.fd ∧
      p.name.str = msg.dst.str ∧ p.type.isServer = false

section Steps

variable {s t : Threads}

theorem ThreadsInv.find (h : ThreadsInv s) (msg : EventMsg) :
    ThreadsInv (threadsHandle s (.find msg)) := by
  refine { h with held := ?_ }
  intro msg' ref hheld
  obtain ⟨ref', hfound, hpair⟩ := Option.map_eq_some_iff.1 hheld
  obtain ⟨rfl, rfl⟩ := Prod.mk.inj hpair
  obtain ⟨e, p, he, hport, hp, hname, htype⟩ := portFind_some hfound
  exact ⟨p, hp, (h.reactor.fd_of_entry he hport hp).2, hname, htype⟩

theorem ThreadsInv.send (h : ThreadsInv s) (status : Int) :
    ThreadsInv (threadsHandle s (.send status)) := by
  unfold threadsHandle
  cases hheld : s.held with
  | none => exact h
  | some pair =>
      refine { h with held := ?_ }
      intro msg ref hnone
      contradiction

theorem ThreadsInv.accept (h : ThreadsInv s) {ref : PortRef} {clientFd : Int}
    (hidle : s.hangup = .idle)
    (henabled : Enabled s.reactor (.accepted ref clientFd)) :
    ThreadsInv (threadsHandle s (.accept ref clientFd)) := by
  have hinv := h.reactor.step ⟨henabled, rfl⟩
  obtain ⟨-, server, hserver, htype, hpos, hclosed⟩ := henabled
  change s.reactor.deref ref = some server at hserver
  simp only [threadsHandle, reactorHandle, hserver] at hinv ⊢
  obtain ⟨hfreed, hfds⟩ := frame_reactorAccept (s := s.reactor) ref server
    clientFd
  have hderef := deref_reactorAccept (s := s.reactor) ref server clientFd
  have hvalid : ∀ r ∈ s.closed, r ≠ .heap s.reactor.heap.length := by
    rintro r hr rfl
    obtain ⟨p, hp, -⟩ := h.gone _ hr
    rw [deref_fresh] at hp
    contradiction
  constructor
  case reactor => exact hinv
  case owned =>
    intro r p hp hfd hr
    rw [hderef] at hp
    simp only [hfds, hfreed]
    rcases deref_alloc_cases hp with hp | ⟨rfl, rfl⟩
    · obtain ⟨hown, hlive⟩ := h.owned r p hp hfd hr
      refine ⟨?_, hlive⟩
      rw [Function.update_of_ne]
      · exact hown
      · intro hsame
        rw [hsame, hclosed] at hown
        contradiction
    · refine ⟨Function.update_self _ _ _, ?_⟩
      intro hmem
      have hsome := h.reactor.freed_valid _ hmem
      rw [deref_fresh] at hsome
      contradiction
  case gone =>
    intro r hr
    obtain ⟨p, hp, hother⟩ := h.gone r hr
    simp only [hfds, hderef]
    refine ⟨p, deref_alloc hp _ _ _, ?_⟩
    by_cases hsame : p.fd = clientFd
    · rw [hsame, Function.update_self]
      intro heq
      exact hvalid r hr (FdOwner.port.inj (Option.some.inj heq)).symm
    · rw [Function.update_of_ne hsame]
      exact hother
  case registered =>
    intro reg hreg
    rcases mem_epoll_reactorAddPort hreg with hmem | ⟨p, -, -, rfl⟩
    · exact h.registered reg hmem
    · exact fun hr => hvalid _ hr rfl
  case listed =>
    intro e he r hport hr
    rcases mem_live_reactorAddPort he with hmem | ⟨p, -, -, rfl⟩
    · exact h.listed e hmem r hport hr
    · obtain rfl := Option.some.inj hport
      exact absurd rfl (hvalid _ hr)
  case closing =>
    intro r hphase
    change s.hangup = _ at hphase
    rw [hidle] at hphase
    contradiction
  case freeing =>
    intro r hphase
    change s.hangup = _ at hphase
    rw [hidle] at hphase
    contradiction
  case held =>
    intro msg r hheld
    obtain ⟨p, hp, hrest⟩ := h.held msg r hheld
    simp only [hderef]
    exact ⟨p, deref_alloc hp _ _ _, hrest⟩

theorem ThreadsInv.close (h : ThreadsInv s) {ref : PortRef}
    (hidle : s.hangup = .idle) (henabled : Enabled s.reactor (.hangup ref)) :
    ThreadsInv (threadsHandle s (.close ref)) := by
  obtain ⟨hreg, p, hp, -⟩ := henabled
  change s.reactor.deref ref = some p at hp
  simp only [threadsHandle, hp]
  obtain ⟨hfd, hopen⟩ : 0 ≤ p.fd ∧ ref ∉ s.closed := by
    obtain ⟨⟨fd, ref'⟩, hmem, rfl⟩ := List.mem_map.1 hreg
    exact ⟨(h.reactor.fd_of_registered hmem hp).2, h.registered _ hmem⟩
  obtain ⟨hown, -⟩ := h.owned ref p hp hfd hopen
  constructor
  case reactor => exact h.reactor.closeFd p.fd
  case owned =>
    intro r q hq hqfd hr
    obtain ⟨hne, hr⟩ := not_or.1 (mt List.mem_cons.2 hr)
    obtain ⟨hown', hlive⟩ := h.owned r q hq hqfd hr
    refine ⟨?_, hlive⟩
    simp only [Reactor.closeFd]
    rw [Function.update_of_ne]
    · exact hown'
    · -- A descriptor has one owner.
      intro hsame
      rw [hsame, hown] at hown'
      exact hne (FdOwner.port.inj (Option.some.inj hown')).symm
  case gone =>
    intro r hr
    rcases List.mem_cons.1 hr with rfl | hr
    · refine ⟨p, hp, ?_⟩
      simp [Reactor.closeFd]
    · obtain ⟨q, hq, hother⟩ := h.gone r hr
      refine ⟨q, hq, ?_⟩
      simp only [Reactor.closeFd]
      by_cases hsame : q.fd = p.fd
      · simp [hsame]
      · rw [Function.update_of_ne hsame]
        exact hother
  case registered =>
    intro reg hmem hr
    obtain ⟨hold, hne⟩ := List.mem_filter.1 hmem
    rcases List.mem_cons.1 hr with hsame | hr
    · simp only [decide_eq_true_eq] at hne
      rw [← hsame] at hp
      exact hne (h.reactor.fd_of_registered hold hp).1.symm
    · exact h.registered reg hold hr
  case listed =>
    intro e he r hport hr
    rcases List.mem_cons.1 hr with rfl | hr
    · rfl
    · have hphase := h.listed e he r hport hr
      rw [hidle] at hphase
      contradiction
  case closing =>
    rintro r ⟨rfl⟩
    refine ⟨List.mem_cons_self, p, hp, ?_⟩
    simp [Reactor.closeFd]
  case freeing =>
    intro r hphase
    contradiction
  case held => exact h.held

theorem ThreadsInv.port_of_closed (h : ThreadsInv s) {ref : PortRef}
    (hclosed : s.hangup = .closed ref) {p : PortDef}
    (hnone : s.reactor.fds p.fd = none) {e : PortEntry}
    (he : e ∈ s.reactor.table.live) (hfd : e.fd = p.fd) :
    e.port = some ref := by
  obtain ⟨r, q, hport, hq, hqfd, hpos⟩ := h.reactor.entry e he
  by_cases hr : r ∈ s.closed
  · have hphase := h.listed e he r hport hr
    rw [hclosed] at hphase
    obtain rfl := Hangup.closed.inj hphase
    exact hport
  · obtain ⟨hown, -⟩ := h.owned r q hq (by omega) hr
    rw [hqfd, hfd, hnone] at hown
    contradiction

theorem ThreadsInv.live_clear (h : ThreadsInv s) {ref : PortRef}
    (hclosed : s.hangup = .closed ref) {p : PortDef}
    (hp : s.reactor.deref ref = some p)
    (hnone : s.reactor.fds p.fd = none) {e : PortEntry}
    (he : e ∈ (s.reactor.table.clear p.fd).live) :
    e ∈ s.reactor.table.live ∧ e.port ≠ some ref := by
  rcases s.reactor.table.live_clear p.fd with ⟨-, hsame, hmiss⟩ |
    ⟨found, -, -, hfd, hperm⟩
  · rw [hsame] at he
    refine ⟨he, ?_⟩
    intro hport
    exact hmiss e he (h.reactor.fd_of_entry he hport hp).1.symm
  · have hfound := h.port_of_closed hclosed hnone
      (hperm.mem_iff.2 List.mem_cons_self) hfd
    exact ⟨hperm.mem_iff.2 (List.mem_cons_of_mem _ he),
      h.reactor.port_ne_of_perm hperm hfound e he⟩

theorem ThreadsInv.clear (h : ThreadsInv s) {ref : PortRef}
    (hclosed : s.hangup = .closed ref) :
    ThreadsInv (threadsHandle s .clear) := by
  obtain ⟨hin, p, hp, hnone⟩ := h.closing ref hclosed
  simp only [threadsHandle, hclosed, hp]
  constructor
  case reactor => exact h.reactor.clearSlot p.fd
  case owned => exact h.owned
  case gone => exact h.gone
  case registered => exact h.registered
  case listed =>
    intro e he r hport hr
    obtain ⟨hmem, hne⟩ := h.live_clear hclosed hp hnone he
    have hphase := h.listed e hmem r hport hr
    rw [hclosed] at hphase
    obtain rfl := Hangup.closed.inj hphase
    contradiction
  case closing =>
    intro r hphase
    contradiction
  case freeing =>
    intro r hphase
    have hfree : s.reactor.toFree p.type p.fd = some r :=
      Hangup.cleared.inj hphase
    unfold Reactor.toFree at hfree
    split_ifs at hfree
    obtain ⟨e, hfind, hport⟩ := Option.bind_eq_some_iff.1 hfree
    rcases s.reactor.table.live_clear p.fd with ⟨hmiss, -, -⟩ |
      ⟨found, hfound, -, hfd, hperm⟩
    · rw [hmiss] at hfind
      contradiction
    · obtain rfl := Option.some.inj (hfind.symm.trans hfound)
      have hmem : e ∈ s.reactor.table.live :=
        hperm.mem_iff.2 List.mem_cons_self
      have hsame := h.port_of_closed hclosed hnone hmem hfd
      obtain rfl := Option.some.inj (hport.symm.trans hsame)
      refine ⟨hin, h.reactor.unfreed e hmem r hport, ?_⟩
      intro e' he'
      exact (h.live_clear hclosed hp hnone he').2
  case held => exact h.held

theorem ThreadsInv.free (h : ThreadsInv s) {ref : Option PortRef}
    (hcleared : s.hangup = .cleared ref) :
    ThreadsInv (threadsHandle s .free) := by
  simp only [threadsHandle, hcleared]
  have hfreed : ∀ r ∈ (s.reactor.free ref).freed,
      r ∈ s.reactor.freed ∨ ref = some r := by
    intro r hr
    simpa [Reactor.free] using hr
  constructor
  case reactor =>
    cases ref with
    | none =>
        have hsame : s.reactor.free none = s.reactor := by
          simp [Reactor.free]
        simp only [hsame]
        exact h.reactor
    | some r =>
        obtain ⟨hr, hfresh, hslot⟩ := h.freeing r hcleared
        obtain ⟨p, hp, -⟩ := h.gone r hr
        exact h.reactor.free (Option.isSome_of_eq_some hp) hfresh hslot
  case owned =>
    intro r p hp hfd hr
    obtain ⟨hown, hlive⟩ := h.owned r p hp hfd hr
    refine ⟨hown, ?_⟩
    intro hmem
    rcases hfreed r hmem with hold | rfl
    · exact hlive hold
    · exact hr (h.freeing r hcleared).1
  case gone => exact h.gone
  case registered => exact h.registered
  case listed =>
    intro e he r hport hr
    have hphase := h.listed e he r hport hr
    rw [hcleared] at hphase
    contradiction
  case closing =>
    intro r hphase
    contradiction
  case freeing =>
    intro r hphase
    contradiction
  case held => exact h.held

theorem ThreadsInv.step (h : ThreadsInv s) {event : ThreadEvent}
    (hstep : ThreadStep s event t) : ThreadsInv t := by
  obtain ⟨henabled, rfl⟩ := hstep
  cases event with
  | find msg => exact h.find msg
  | send status => exact h.send status
  | accept ref clientFd => exact h.accept henabled.1 henabled.2
  | close ref => exact h.close henabled.1 henabled.2
  | clear =>
      obtain ⟨ref, hclosed⟩ := henabled
      exact h.clear hclosed
  | free =>
      obtain ⟨ref, hcleared⟩ := henabled
      exact h.free hcleared

variable {msg : EventMsg} {ref : PortRef} {p : PortDef}

theorem ThreadsInv.safe_iff (h : ThreadsInv s)
    (hheld : s.held = some (msg, ref)) (data : List UInt8) :
    (s.reactor.observe msg.dst.str (s.reactor.writeTo data ref)).Safe ↔
      ref ∉ s.closed := by
  obtain ⟨p, hp, hfd, hname, -⟩ := h.held msg ref hheld
  have hwrite : s.reactor.writeTo data ref = ⟨ref, p.fd, data⟩ := by
    simp only [Reactor.writeTo, hp, Option.elim_some]
  rw [hwrite]
  constructor
  · rintro ⟨-, howner, -⟩ hr
    obtain ⟨q, hq, hother⟩ := h.gone ref hr
    obtain rfl := Option.some.inj (hp.symm.trans hq)
    exact hother howner
  · intro hr
    obtain ⟨hown, hlive⟩ := h.owned ref p hp hfd hr
    constructor
    · exact decide_eq_false hlive
    · exact hown
    · simp only [Reactor.observe, hown, Option.bind_some, Reactor.ownerName,
        hp, Option.map_some, hname]

def AllSafe (s : Threads) : Prop := ∀ x ∈ s.sent, x.Safe

theorem sentBeforeClose_iff (hheld : s.held = some (msg, ref))
    (hp : s.reactor.deref ref = some p) (status : Int) :
    SentBeforeClose s (.send status) ↔
      (p.type ≠ .udp → ref ∉ s.closed) := by
  constructor
  · intro hall
    exact hall status msg ref p rfl hheld hp
  · rintro hone status' msg' ref' p' - hheld' hp'
    rw [hheld, Option.some.injEq, Prod.mk.injEq] at hheld'
    obtain ⟨rfl, rfl⟩ := hheld'
    obtain rfl := Option.some.inj (hp.symm.trans hp')
    exact hone

theorem allSafe_send (h : ThreadsInv s) (hheld : s.held = some (msg, ref))
    (status : Int) :
    AllSafe (threadsHandle s (.send status)) ↔
      AllSafe s ∧ SentBeforeClose s (.send status) := by
  obtain ⟨p, hp, hfd, -, htype⟩ := h.held msg ref hheld
  have hwrites := portSend_writes hp hfd htype (fun _ => status)
    msg.payload msg.len
  have hsent : (threadsHandle s (.send status)).sent = s.sent ++
      (if p.type = .udp then []
        else [s.reactor.writeTo msg.payload ref]).map
          (s.reactor.observe msg.dst.str) := by
    simp only [threadsHandle, hheld, hwrites]
  unfold AllSafe
  rw [sentBeforeClose_iff hheld hp, hsent, List.forall_mem_append]
  refine and_congr_right fun _ => ?_
  split_ifs with hudp
  · simp [hudp]
  · rw [List.map_singleton, List.forall_mem_singleton, h.safe_iff hheld]
    simp [hudp]

theorem allSafe_step (h : ThreadsInv s) {event : ThreadEvent}
    (hstep : ThreadStep s event t) :
    AllSafe t ↔ AllSafe s ∧ SentBeforeClose s event := by
  obtain ⟨henabled, rfl⟩ := hstep
  have hquiet : (∀ status, event ≠ .send status) →
      (threadsHandle s event).sent = s.sent →
      (AllSafe (threadsHandle s event) ↔
        AllSafe s ∧ SentBeforeClose s event) := by
    intro hne hsent
    unfold AllSafe
    rw [hsent, iff_self_and]
    intro _ status msg ref p hevent
    exact absurd hevent (hne status)
  cases event with
  | find msg => exact hquiet (by simp) rfl
  | accept ref clientFd => exact hquiet (by simp) rfl
  | close ref =>
      apply hquiet (by simp)
      simp only [threadsHandle]
      split <;> rfl
  | clear =>
      apply hquiet (by simp)
      simp only [threadsHandle]
      split
      · split <;> rfl
      · rfl
  | free =>
      apply hquiet (by simp)
      simp only [threadsHandle]
      split <;> rfl
  | send status =>
      obtain ⟨⟨msg, ref⟩, hheld⟩ := Option.ne_none_iff_exists'.1 henabled
      exact allSafe_send h hheld status

end Steps

/-! ## From startup on -/

section Startup

variable {parse : CJsonParser} {file : Option (List UInt8)}
  {inherited : Int → Bool} {calls : Nat → OpenCalls}

/-- Every port that has no tty object where it needs one could be opened. -/
def NoBareTtyFails (parse : CJsonParser) (file : Option (List UInt8))
    (calls : Nat → OpenCalls) : Prop :=
  ∀ i item, (storedItems parse file)[i]? = some item → LacksTty item →
    0 ≤ (portOpenSingle (parsePort item) (calls i)).1

theorem ThreadsInv.of_startup
    (hkernel : KernelOpens (.boot (loadConfig parse file).2.ports inherited)
      calls)
    (hclean : NoBareTtyFails parse file calls) :
    ThreadsInv (.start (startup parse file inherited calls)) := by
  have hinv := ReactorInv.of_startup hkernel
  have howned := opened_owned hkernel hclean
  obtain ⟨-, -, hheap, hfreed, -⟩ := opened_empty parse file inherited calls
  constructor
  · exact hinv
  · intro ref p hp hfd _
    simp only [Threads.start] at hp ⊢
    rw [startup_eq, addPorts] at hp ⊢
    obtain ⟨hports, hheap', hfreed', hfds⟩ := frame_addPortsUpTo
      (s := portsOpenAll (.boot (loadConfig parse file).2.ports inherited)
        calls)
      (portsOpenAll (.boot (loadConfig parse file).2.ports inherited)
        calls).ports.length
    rw [hfds, hfreed', hfreed]
    cases ref with
    | config i =>
        rw [Reactor.deref, hports] at hp
        exact ⟨howned i p hp hfd, List.not_mem_nil⟩
    | heap n =>
        rw [Reactor.deref, hheap', hheap] at hp
        contradiction
  all_goals simp [Threads.start]

end Startup

/--
In a run of the two threads from startup every write is made on a live record
and on the descriptor of its own connection, under the name the message was
for, exactly when nothing is sent to a port that has begun to disconnect.
-/
theorem sent_safe_iff (parse : CJsonParser) (file : Option (List UInt8))
    (inherited : Int → Bool) (calls : Nat → OpenCalls)
    (hkernel : KernelOpens (.boot (loadConfig parse file).2.ports inherited)
      calls)
    (hclean : NoBareTtyFails parse file calls)
    {trace : List ThreadEvent} {s : Threads}
    (hrun : Run ThreadStep (.start (startup parse file inherited calls))
      trace s) :
    AllSafe s ↔ Run (Guarded ThreadStep SentBeforeClose)
      (.start (startup parse file inherited calls)) trace s := by
  refine hrun.keeps_iff_guarded AllSafe ThreadsInv
    (.of_startup hkernel hclean) ?_
    (fun _ _ _ h hstep => h.step hstep)
    (fun _ _ _ h hstep => allSafe_step h hstep)
  intro x hx
  contradiction

def twoServers : Threads :=
  .start (startup (parsesTo [tcpServerPort "PLC", tcpServerPort "SCADA"])
    (some (configText [tcpServerText "PLC", tcpServerText "SCADA"])) stdio
    nextCalls)

def plcMsg : EventMsg where
  dst := .ofStr 32 (.lit "PLC")
  len := 1
  data := (Buffer.zero maxData).write 0 [65]

def clientOfPlc : Threads := threadsHandle twoServers (.accept (.config 0) 5)

def plcFound : Threads := threadsHandle clientOfPlc (.find plcMsg)

def plcClosed : Threads := threadsHandle plcFound (.close (.heap 0))

def plcCleared : Threads := threadsHandle plcClosed .clear

def plcFreed : Threads := threadsHandle plcCleared .free

def clientOfScada : Threads := threadsHandle plcFreed (.accept (.config 1) 5)

/-- A message for one server goes to a connection of the other, through a
record that was freed. -/
theorem sent_to_other_port :
    ∃ trace s x, Run ThreadStep twoServers trace s ∧ x ∈ s.sent ∧
      x.freed = true ∧ x.owner = some (.port (.heap 1)) ∧
      x.name = some (.lit "SCADA") ∧ x.dst = .lit "PLC" ∧ ¬ AllSafe s := by
  have haccept : ThreadStep twoServers (.accept (.config 0) 5) clientOfPlc :=
    ⟨⟨rfl, by decide +kernel⟩, rfl⟩
  have hfind : ThreadStep clientOfPlc (.find plcMsg) plcFound := ⟨rfl, rfl⟩
  have hclose : ThreadStep plcFound (.close (.heap 0)) plcClosed :=
    ⟨⟨rfl, by decide +kernel⟩, rfl⟩
  have hclear : ThreadStep plcClosed .clear plcCleared :=
    ⟨⟨.heap 0, by decide +kernel⟩, rfl⟩
  have hfree : ThreadStep plcCleared .free plcFreed :=
    ⟨⟨some (.heap 0), by decide +kernel⟩, rfl⟩
  have hreuse : ThreadStep plcFreed (.accept (.config 1) 5) clientOfScada :=
    ⟨⟨by decide +kernel, by decide +kernel⟩, rfl⟩
  have hheld : clientOfScada.held ≠ none := by decide +kernel
  have hsend : ThreadStep clientOfScada (.send 1) _ := ⟨hheld, rfl⟩
  have hsent : (threadsHandle clientOfScada (.send 1)).sent =
      [⟨.lit "PLC", ⟨.heap 0, 5, [65]⟩, true, some (.port (.heap 1)),
        some (.lit "SCADA")⟩] := by
    decide +kernel
  refine ⟨_, _, _, .next (.next (.next (.next (.next (.next (.next .refl
    haccept) hfind) hclose) hclear) hfree) hreuse) hsend,
    hsent ▸ List.mem_singleton_self _, rfl, rfl, rfl, rfl, ?_⟩
  intro hall
  have hsafe := hall _ (hsent ▸ List.mem_singleton_self _)
  exact Bool.noConfusion hsafe.alive

theorem sent_safe_iff_open : AllSafe (threadsHandle plcFound (.send 1)) := by
  have hclean : NoBareTtyFails (parsesTo [tcpServerPort "PLC",
      tcpServerPort "SCADA"]) (some (configText [tcpServerText "PLC",
        tcpServerText "SCADA"])) nextCalls := by
    have hservers : ∀ item ∈ storedItems (parsesTo [tcpServerPort "PLC",
        tcpServerPort "SCADA"]) (some (configText [tcpServerText "PLC",
          tcpServerText "SCADA"])), typeStr item ≠ .lit "tty" := by
      decide +kernel
    intro i item hitem hlacks
    exact absurd hlacks.1 (hservers item (List.mem_of_getElem? hitem))
  have haccept : Guarded ThreadStep SentBeforeClose twoServers
      (.accept (.config 0) 5) clientOfPlc := by
    refine ⟨⟨⟨rfl, by decide +kernel⟩, rfl⟩, ?_⟩
    intro status msg ref p hevent
    contradiction
  have hfind : Guarded ThreadStep SentBeforeClose clientOfPlc (.find plcMsg)
      plcFound := by
    refine ⟨⟨rfl, rfl⟩, ?_⟩
    intro status msg ref p hevent
    contradiction
  have hheld : plcFound.held ≠ none := by decide +kernel
  have hsend : Guarded ThreadStep SentBeforeClose plcFound (.send 1)
      (threadsHandle plcFound (.send 1)) := by
    refine ⟨⟨hheld, rfl⟩, ?_⟩
    intro status msg ref p _ _ _ _
    exact List.not_mem_nil
  have hrun := Run.next (.next (.next .refl haccept) hfind) hsend
  exact (sent_safe_iff _ _ _ _ (kernelOpens_nextCalls _) hclean
    hrun.of_guarded).2 hrun

end EzRouter
