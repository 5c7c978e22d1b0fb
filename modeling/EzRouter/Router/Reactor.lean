import EzRouter.Foundation.Transition
import EzRouter.Router.Ports

/-!
# The reactor

`reactor_add_port` and the part of `reactor_thread` that accepts and drops
connections.  One event of the epoll set is one step; `accept` returns any
descriptor that is not open.
-/

namespace EzRouter

open EzRouter.Foundation

/-- `EPOLL_CTL_ADD`, which is taken to succeed except where it must fail: on a
descriptor that is not open, or that is in the set already. -/
def Reactor.epollAdd (s : Reactor) (fd : Int) (port : PortRef) : Reactor :=
  if (s.fds fd).isSome ∧ fd ∉ s.epoll.map Prod.fst then
    { s with epoll := s.epoll ++ [(fd, port)] }
  else s

def reactorAddPort (s : Reactor) (port : PortRef) : Reactor :=
  match s.deref port with
  | none => s
  | some p =>
      if p.fd < 0 then s
      else
        ({ s with table := s.table.add p.fd port } : Reactor).epollAdd p.fd port

section

variable {s : Reactor}

theorem reactorAddPort_cases (s : Reactor) (ref : PortRef) :
    (reactorAddPort s ref = s ∧ ∀ p, s.deref ref = some p → p.fd < 0) ∨
      ∃ p, s.deref ref = some p ∧ 0 ≤ p.fd ∧
        (reactorAddPort s ref).table = s.table.add p.fd ref ∧
        (reactorAddPort s ref).epoll =
          if (s.fds p.fd).isSome = true ∧ p.fd ∉ s.epoll.map Prod.fst then
            s.epoll ++ [(p.fd, ref)]
          else s.epoll := by
  unfold reactorAddPort
  cases hp : s.deref ref with
  | none => exact .inl ⟨rfl, fun p h => by contradiction⟩
  | some p =>
      by_cases hfd : p.fd < 0
      · left
        refine ⟨if_pos hfd, ?_⟩
        rintro q ⟨rfl⟩
        exact hfd
      · right
        refine ⟨p, rfl, by omega, ?_⟩
        simp only [if_neg hfd, Reactor.epollAdd]
        split_ifs <;> exact ⟨rfl, rfl⟩

theorem frame_reactorAddPort (port : PortRef) :
    (reactorAddPort s port).ports = s.ports ∧
      (reactorAddPort s port).heap = s.heap ∧
      (reactorAddPort s port).freed = s.freed ∧
      (reactorAddPort s port).fds = s.fds := by
  unfold reactorAddPort
  split
  · exact ⟨rfl, rfl, rfl, rfl⟩
  · split
    · exact ⟨rfl, rfl, rfl, rfl⟩
    · unfold Reactor.epollAdd
      split <;> exact ⟨rfl, rfl, rfl, rfl⟩

theorem mem_live_reactorAddPort {ref : PortRef} {e : PortEntry}
    (he : e ∈ (reactorAddPort s ref).table.live) : e ∈ s.table.live ∨
      ∃ p, s.deref ref = some p ∧ 0 ≤ p.fd ∧ e = ⟨true, p.fd, some ref⟩ := by
  rcases reactorAddPort_cases s ref with ⟨hsame, -⟩ |
    ⟨p, hp, hfd, htable, -⟩
  · rw [hsame] at he
    exact .inl he
  · rw [htable] at he
    rcases Nat.lt_or_eq_of_le s.table.length_live_le with hroom | hfull
    · have hperm := s.table.live_add p.fd ref hroom
      rcases List.mem_cons.1 (hperm.mem_iff.1 he) with hnew | hold
      · exact .inr ⟨p, hp, hfd, hnew⟩
      · exact .inl hold
    · rw [s.table.add_full p.fd ref hfull] at he
      exact .inl he

theorem mem_epoll_reactorAddPort {ref : PortRef} {reg : Int × PortRef}
    (hreg : reg ∈ (reactorAddPort s ref).epoll) : reg ∈ s.epoll ∨
      ∃ p, s.deref ref = some p ∧ 0 ≤ p.fd ∧ reg = (p.fd, ref) := by
  rcases reactorAddPort_cases s ref with ⟨hsame, -⟩ |
    ⟨p, hp, hfd, -, hepoll⟩
  · rw [hsame] at hreg
    exact .inl hreg
  · rw [hepoll] at hreg
    split_ifs at hreg
    · rcases List.mem_append.1 hreg with hold | hnew
      · exact .inl hold
      · exact .inr ⟨p, hp, hfd, List.mem_singleton.1 hnew⟩
    · exact .inl hreg

end

def PortType.clientType : PortType → PortType
  | .ipcServer => .ipcClient
  | _ => .tcpClient

def clientRecord (server : PortDef) (clientFd : Int) : PortDef :=
  { PortDef.zero with
    name := .ofStr 32 server.name.str
    fd := clientFd
    type := server.type.clientType }

/-- The state between `accept` and `reactor_add_port`: the connection has a
record, and no slot yet. -/
def Reactor.alloc (s : Reactor) (ref : PortRef) (server : PortDef)
    (clientFd : Int) : Reactor :=
  { s with
    heap := s.heap ++ [⟨clientRecord server clientFd, ref⟩]
    fds := Function.update s.fds clientFd
      (some (.port (.heap s.heap.length))) }

def reactorAccept (s : Reactor) (ref : PortRef) (server : PortDef)
    (clientFd : Int) : Reactor :=
  reactorAddPort (s.alloc ref server clientFd) (.heap s.heap.length)

def Reactor.closeFd (s : Reactor) (fd : Int) : Reactor :=
  { s with
    epoll := s.epoll.filter fun reg => decide (reg.1 ≠ fd)
    fds := Function.update s.fds fd none }

def Reactor.clearSlot (s : Reactor) (fd : Int) : Reactor :=
  { s with table := s.table.clear fd }

def PortType.isClient : PortType → Bool
  | .tcpClient => true
  | .ipcClient => true
  | _ => false

def Reactor.toFree (s : Reactor) (type : PortType) (fd : Int) :
    Option PortRef :=
  if type.isClient then (s.table.findFd fd).bind (·.port) else none

def Reactor.free (s : Reactor) (ref : Option PortRef) : Reactor :=
  { s with freed := s.freed ++ ref.toList }

def reactorHangup (s : Reactor) (p : PortDef) : Reactor :=
  let ref := s.toFree p.type p.fd
  ((s.closeFd p.fd).clearSlot p.fd).free ref

/-! ## The loop -/

inductive ReactorEvent where
  | accepted (port : PortRef) (clientFd : Int)
  | acceptFailed (port : PortRef)
  | received (port : PortRef) (chunk : List UInt8)
  | hangup (port : PortRef)
  deriving DecidableEq, Repr

def ReactorEvent.port : ReactorEvent → PortRef
  | .accepted port _ => port
  | .acceptFailed port => port
  | .received port _ => port
  | .hangup port => port

/-- One turn of the loop over the events.  The chunk that was read goes to the
queue and leaves the ports alone. -/
def reactorHandle (s : Reactor) : ReactorEvent → Reactor
  | .accepted ref clientFd =>
      match s.deref ref with
      | none => s
      | some server => reactorAccept s ref server clientFd
  | .hangup ref =>
      match s.deref ref with
      | none => s
      | some p => reactorHangup s p
  | .acceptFailed _ => s
  | .received _ _ => s

def Permits (s : Reactor) (p : PortDef) : ReactorEvent → Prop
  | .accepted _ clientFd =>
      p.type.isServer = true ∧ 0 ≤ clientFd ∧ s.fds clientFd = none
  | .acceptFailed _ => p.type.isServer = true
  | .received _ chunk =>
      p.type.isServer = false ∧ 0 < chunk.length ∧ chunk.length < 1024
  | .hangup _ => p.type.isServer = false

instance (s : Reactor) (p : PortDef) (event : ReactorEvent) :
    Decidable (Permits s p event) :=
  match event with
  | .accepted _ clientFd => inferInstanceAs (Decidable
      (p.type.isServer = true ∧ 0 ≤ clientFd ∧ s.fds clientFd = none))
  | .acceptFailed _ => inferInstanceAs (Decidable (p.type.isServer = true))
  | .received _ chunk => inferInstanceAs (Decidable
      (p.type.isServer = false ∧ 0 < chunk.length ∧ chunk.length < 1024))
  | .hangup _ => inferInstanceAs (Decidable (p.type.isServer = false))

def Enabled (s : Reactor) (event : ReactorEvent) : Prop :=
  event.port ∈ s.epoll.map Prod.snd ∧
    ∃ p, s.deref event.port = some p ∧ Permits s p event

instance (s : Reactor) (event : ReactorEvent) : Decidable (Enabled s event) :=
  decidable_of_iff (event.port ∈ s.epoll.map Prod.snd ∧
    (s.deref event.port).any (fun p => decide (Permits s p event)) = true)
    (by simp [Enabled, Option.any_eq_true])

def ReactorStep (s : Reactor) (event : ReactorEvent) (s' : Reactor) : Prop :=
  Enabled s event ∧ s' = reactorHandle s event

end EzRouter
