import EzRouter.Config.Store
import EzRouter.Foundation.SlotMap
import EzRouter.Router.EventQueue

/-!
# The port table and sending to a port

The second half of `port_manager.c` and `router_core.c`.  A `port_def_t *` is
either the address of an element of `g_config.ports` or what the n-th `calloc`
of the reactor returned.  Freed memory keeps its last contents in the model;
that a record has been freed is remembered beside it.
-/

namespace EzRouter

open EzRouter.Foundation

inductive PortRef where
  | config (i : Nat)
  | heap (n : Nat)
  deriving DecidableEq, Repr

structure PortEntry where
  used : Bool
  fd : Int
  port : Option PortRef
  deriving DecidableEq, Repr

/-- `g_port_table`. -/
@[ext] structure PortTable where
  entries : List PortEntry
  length_eq : entries.length = maxPorts
  deriving DecidableEq, Repr

namespace PortTable

def boot : PortTable :=
  ⟨List.replicate maxPorts ⟨false, 0, none⟩, List.length_replicate⟩

/-- The loop of `reactor_add_port`: the first free slot is taken, and when
there is none nothing happens. -/
def add (t : PortTable) (fd : Int) (port : PortRef) : PortTable where
  entries := updateFirst (fun e => !e.used) (fun _ => ⟨true, fd, some port⟩)
    t.entries
  length_eq := by simpa using t.length_eq

def holdsFd (fd : Int) (e : PortEntry) : Bool := e.used && decide (e.fd = fd)

def findFd (t : PortTable) (fd : Int) : Option PortEntry :=
  t.entries.find? (holdsFd fd)

def clear (t : PortTable) (fd : Int) : PortTable where
  entries := updateFirst (holdsFd fd) (fun _ => ⟨false, -1, none⟩) t.entries
  length_eq := by simpa using t.length_eq

def live (t : PortTable) : List PortEntry := t.entries.filter PortEntry.used

theorem length_live_le (t : PortTable) : t.live.length ≤ maxPorts := by
  rw [← t.length_eq]
  exact List.length_filter_le _ _

@[simp] theorem live_boot : boot.live = [] := by decide

theorem live_add (t : PortTable) (fd : Int) (port : PortRef)
    (hroom : t.live.length < maxPorts) :
    (t.add fd port).live.Perm (⟨true, fd, some port⟩ :: t.live) := by
  rcases first_split (fun e : PortEntry => !e.used) t.entries with
    hfull | ⟨before, e, after, hentries, hbefore, he⟩
  · have hall : t.live = t.entries :=
      List.filter_eq_self.2 fun e he => by simpa using hfull e he
    rw [hall, t.length_eq] at hroom
    omega
  · change (List.filter PortEntry.used (updateFirst _ _ t.entries)).Perm _
    rw [live, hentries, updateFirst_of_split hbefore he]
    apply filter_claim
    · simpa using he
    · rfl

theorem add_full (t : PortTable) (fd : Int) (port : PortRef)
    (hfull : t.live.length = maxPorts) : t.add fd port = t := by
  have hused : ∀ e ∈ t.entries, e.used = true := by
    apply List.filter_eq_self.1
    apply List.Sublist.eq_of_length List.filter_sublist
    rw [t.length_eq]
    exact hfull
  apply PortTable.ext
  apply updateFirst_of_none
  intro e he
  simp [hused e he]

theorem live_clear (t : PortTable) (fd : Int) :
    (t.findFd fd = none ∧ t.clear fd = t ∧ ∀ e ∈ t.live, e.fd ≠ fd) ∨
      ∃ e, t.findFd fd = some e ∧ e.used = true ∧ e.fd = fd ∧
        t.live.Perm (e :: (t.clear fd).live) := by
  rcases first_split (holdsFd fd) t.entries with
    hnone | ⟨before, e, after, hentries, hbefore, he⟩
  · left
    refine ⟨find?_of_none hnone, ?_, ?_⟩
    · apply PortTable.ext
      exact updateFirst_of_none hnone
    · intro e he hfd
      obtain ⟨hmem, hused⟩ := List.mem_filter.1 he
      have hmiss := hnone e hmem
      simp [holdsFd, hused, hfd] at hmiss
  · right
    obtain ⟨hused, hfd⟩ : e.used = true ∧ e.fd = fd := by
      simpa [holdsFd] using he
    refine ⟨e, ?_, hused, hfd, ?_⟩
    · unfold findFd
      rw [hentries]
      exact find?_of_split hbefore he
    · change t.live.Perm
        (e :: List.filter PortEntry.used (updateFirst _ _ t.entries))
      rw [live, hentries, updateFirst_of_split hbefore he]
      exact filter_release hused rfl

end PortTable

/-- Who a file descriptor belongs to: it was open before the ports were
opened, or it is the connection that a record was made for. -/
inductive FdOwner where
  | inherited
  | port (p : PortRef)
  deriving DecidableEq, Repr

structure Client where
  record : PortDef
  server : PortRef
  deriving DecidableEq, Repr

structure Reactor where
  ports : List PortDef
  heap : List Client
  freed : List PortRef
  table : PortTable
  epoll : List (Int × PortRef)
  fds : Int → Option FdOwner

def Reactor.deref (s : Reactor) : PortRef → Option PortDef
  | .config i => s.ports[i]?
  | .heap n => s.heap[n]?.map Client.record

/-! ## `port_find` and `port_send` -/

def PortType.isServer : PortType → Bool
  | .tcpServer => true
  | .ipcServer => true
  | _ => false

def Reactor.answersTo (s : Reactor) (name : CStr) (e : PortEntry) : Bool :=
  e.used && (e.port.bind s.deref).any fun p =>
    decide (p.name.str = name) && !p.type.isServer

def portFind (s : Reactor) (name : CStr) : Option PortRef :=
  (s.table.entries.find? (s.answersTo name)).bind (·.port)

section Find

variable {s : Reactor} {name : CStr}

theorem answersTo_iff {e : PortEntry} :
    s.answersTo name e = true ↔ e.used = true ∧ ∃ ref p, e.port = some ref ∧
      s.deref ref = some p ∧ p.name.str = name ∧ p.type.isServer = false := by
  simp only [Reactor.answersTo, Bool.and_eq_true, Option.any_eq_true,
    Option.bind_eq_some_iff, decide_eq_true_eq, Bool.not_eq_true']
  constructor
  · rintro ⟨hused, p, ⟨ref, hport, hp⟩, hname, htype⟩
    exact ⟨hused, ref, p, hport, hp, hname, htype⟩
  · rintro ⟨hused, ref, p, hport, hp, hname, htype⟩
    exact ⟨hused, p, ⟨ref, hport, hp⟩, hname, htype⟩

theorem portFind_some {ref : PortRef} (h : portFind s name = some ref) :
    ∃ e p, e ∈ s.table.live ∧ e.port = some ref ∧ s.deref ref = some p ∧
      p.name.str = name ∧ p.type.isServer = false := by
  obtain ⟨e, hfind, hport⟩ := Option.bind_eq_some_iff.1 h
  obtain ⟨hused, ref', p, hport', hp, hname, htype⟩ :=
    answersTo_iff.1 (List.find?_some hfind)
  obtain rfl := Option.some.inj (hport.symm.trans hport')
  have hmem := List.mem_of_find?_eq_some hfind
  exact ⟨e, p, List.mem_filter.2 ⟨hmem, hused⟩, hport, hp, hname, htype⟩

theorem portFind_isSome {e : PortEntry} (he : e ∈ s.table.live)
    {ref : PortRef} {p : PortDef} (hport : e.port = some ref)
    (hp : s.deref ref = some p) (hname : p.name.str = name)
    (htype : p.type.isServer = false) : (portFind s name).isSome = true := by
  obtain ⟨hmem, hused⟩ := List.mem_filter.1 he
  have hanswer : s.answersTo name e = true :=
    answersTo_iff.2 ⟨hused, ref, p, hport, hp, hname, htype⟩
  unfold portFind
  cases hfind : s.table.entries.find? (s.answersTo name) with
  | none =>
      have hmiss := List.find?_eq_none.1 hfind e hmem
      contradiction
  | some e' =>
      obtain ⟨-, ref', p', hport', -⟩ :=
        answersTo_iff.1 (List.find?_some hfind)
      simp [hport']

end Find

structure Write where
  port : PortRef
  fd : Int
  data : List UInt8
  deriving DecidableEq, Repr

def broadcastTargets (s : Reactor) (name : CStr) : List (PortRef × PortDef) :=
  s.table.entries.filterMap fun e =>
    if e.used then
      match e.port with
      | none => none
      | some ref =>
          match s.deref ref with
          | some cli =>
              if cli.type = .tcpClient ∧ cli.name.str = name then
                some (ref, cli)
              else none
          | none => none
    else none

/-- `result` gives what `write` returns on the connection of each record. -/
def portSendTcpServerBroadcast (s : Reactor) (result : PortRef → Int)
    (server : PortDef) (data : List UInt8) (len : Int) : Int × List Write :=
  let targets := broadcastTargets s server.name.str
  let sentTo := targets.filter fun t => decide (0 ≤ result t.1)
  let failed := targets.filter fun t => decide (result t.1 < 0)
  let writes := targets.map fun t => ⟨t.1, t.2.fd, data⟩
  if sentTo.length = 0 ∧ failed.length = 0 then (0, writes)
  else if sentTo.length = 0 then (-1, writes)
  else (len, writes)

/-- The value returned and the calls to `write`, in order. -/
def portSend (s : Reactor) (result : PortRef → Int) (ref : PortRef)
    (data : List UInt8) (len : Int) : Int × List Write :=
  match s.deref ref with
  | none => (-1, [])
  | some p =>
      if p.fd < 0 then (-1, [])
      else
        match p.type with
        | .tty | .usb | .tcpClient | .ipcClient =>
            (result ref, [⟨ref, p.fd, data⟩])
        | .tcpServer => portSendTcpServerBroadcast s result p data len
        -- This case has no `break`: it runs on into the next one.
        | .ipcServer => (0, [⟨ref, p.fd, data⟩])
        | .udp => (0, [])

def Reactor.writeTo (s : Reactor) (data : List UInt8) (ref : PortRef) : Write :=
  ⟨ref, (s.deref ref).elim (-1) PortDef.fd, data⟩

theorem portSend_writes {s : Reactor} {ref : PortRef} {p : PortDef}
    (hp : s.deref ref = some p) (hfd : 0 ≤ p.fd)
    (htype : p.type.isServer = false) (result : PortRef → Int)
    (data : List UInt8) (len : Int) :
    (portSend s result ref data len).2 =
      if p.type = .udp then [] else [s.writeTo data ref] := by
  have hpos : ¬ p.fd < 0 := by omega
  simp only [portSend, hp, if_neg hpos, Reactor.writeTo, Option.elim_some]
  cases hcase : p.type with
  | tcpServer => simp [hcase, PortType.isServer] at htype
  | ipcServer => simp [hcase, PortType.isServer] at htype
  | _ => simp

def EventMsg.payload (m : EventMsg) : List UInt8 :=
  m.data.bytes.take m.len.toNat

def routerCoreHandle (s : Reactor) (result : PortRef → Int) (m : EventMsg) :
    List Write :=
  match portFind s m.dst.str with
  | none => []
  | some dst => (portSend s result dst m.payload m.len).2

end EzRouter
