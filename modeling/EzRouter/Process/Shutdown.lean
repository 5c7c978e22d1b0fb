import EzRouter.Ipc.Server

/-!
# Stopping the daemon

`run_state.c` and the four loops that ask it whether to go on: `main`,
`reactor_thread`, `dispatcher_thread` and `ipc_thread` with `handle_client`.
A thread is where it stands in its loop; what it does there is the subject of
other modules.  Five calls block until something happens outside: `epoll_wait`,
`accept`, `recv`, the wait in `queue_pop` and the `write` of `port_send`, whose
descriptors are blocking.  The first two fail at once when `main`, which ignores
the results, could not set up their descriptor.  All other calls are taken to
return.
-/

namespace EzRouter

open EzRouter.Foundation

inductive ReactorAt where
  | test
  | epollWait
  | events (left : Nat)
  | returned
  deriving DecidableEq, Repr

/-- `writes`: the message at hand will be given to `write`.  That happens once,
since `port_find` returns no server. -/
inductive DispatcherAt where
  | test
  | queuePop
  | routerCore (writes : Bool)
  | write
  | returned
  deriving DecidableEq, Repr

inductive IpcAt where
  | test
  | accept
  | usleep
  | clientTest
  | recv
  | decode
  | done
  | returned
  deriving DecidableEq, Repr

inductive MainAt where
  | test
  | sleep
  | checkHeartbeats
  | joinReactor
  | joinIpc
  | joinDisp
  | returned
  deriving DecidableEq, Repr

/-- What `reactor_init` and `ipc_server_init` leave behind, or -1. -/
structure Descriptors where
  epfd : Int
  g_ipc_fd : Int
  deriving DecidableEq, Repr

def Descriptors.epollBlocks (fds : Descriptors) : Bool := 0 ≤ fds.epfd

def Descriptors.acceptBlocks (fds : Descriptors) : Bool := 0 ≤ fds.g_ipc_fd

structure Process where
  running : Bool
  reactor : ReactorAt
  dispatcher : DispatcherAt
  ipc : IpcAt
  main : MainAt
  deriving DecidableEq, Repr

/-- `main` has created the threads. -/
def Process.start : Process := ⟨true, .test, .test, .test, .test⟩

def sigterm : Nat := 15

/-- The turns are those of a thread that does not block where it stands;
`decoded` says whether the connection is to be dropped. -/
inductive ProcessEvent where
  | signal (sig : Nat)
  | stop
  | reactorTurn
  | dispatcherTurn
  | ipcTurn
  | decoded (drop : Bool)
  | mainTurn
  | epollWait (n : Int)
  | queuePop (writes : Bool)
  | write
  | accept (clientFd : Int)
  | recv (result : RecvResult)
  deriving DecidableEq, Repr

def processHandle (s : Process) : ProcessEvent → Process
  | .signal sig => if sig = sigterm then { s with running := false } else s
  | .stop => { s with running := false }
  | .reactorTurn =>
      match s.reactor with
      | .test =>
          { s with reactor := if s.running then .epollWait else .returned }
      | .events 0 => { s with reactor := .test }
      | .events (left + 1) => { s with reactor := .events left }
      | _ => s
  | .dispatcherTurn =>
      match s.dispatcher with
      | .test =>
          { s with dispatcher := if s.running then .queuePop else .returned }
      | .routerCore true => { s with dispatcher := .write }
      | .routerCore false => { s with dispatcher := .test }
      | _ => s
  | .ipcTurn =>
      match s.ipc with
      | .test => { s with ipc := if s.running then .accept else .returned }
      | .usleep => { s with ipc := .test }
      | .clientTest => { s with ipc := if s.running then .recv else .done }
      -- `registry_unregister` and `close`.
      | .done => { s with ipc := .test }
      | _ => s
  | .decoded drop => { s with ipc := if drop then .done else .clientTest }
  | .mainTurn =>
      match s.main with
      | .test =>
          { s with main := if s.running then .sleep else .joinReactor }
      | .sleep => { s with main := .checkHeartbeats }
      | .checkHeartbeats => { s with main := .test }
      | .joinReactor => { s with main := .joinIpc }
      | .joinIpc => { s with main := .joinDisp }
      | .joinDisp => { s with main := .returned }
      | .returned => s
  | .epollWait n =>
      { s with reactor := if n ≤ 0 then .test else .events n.toNat }
  | .queuePop writes => { s with dispatcher := .routerCore writes }
  | .write => { s with dispatcher := .test }
  | .accept clientFd =>
      { s with ipc := if clientFd < 0 then .usleep else .clientTest }
  | .recv (.data _) => { s with ipc := .decode }
  | .recv .eintr => { s with ipc := .clientTest }
  | .recv .closed => { s with ipc := .done }
  | .recv .error => { s with ipc := .done }

/-- A join waits for its thread; `epoll_wait` returns at most the 16 events
that it has room for. -/
def ProcessEnabled (fds : Descriptors) (s : Process) : ProcessEvent → Prop
  | .signal _ => True
  | .stop => True
  | .reactorTurn => s.reactor ≠ .epollWait ∧ s.reactor ≠ .returned
  | .dispatcherTurn =>
      s.dispatcher = .test ∨ ∃ writes, s.dispatcher = .routerCore writes
  | .ipcTurn =>
      s.ipc = .test ∨ s.ipc = .usleep ∨ s.ipc = .clientTest ∨ s.ipc = .done
  | .decoded _ => s.ipc = .decode
  | .mainTurn =>
      (s.main = .joinReactor → s.reactor = .returned) ∧
        (s.main = .joinIpc → s.ipc = .returned) ∧
        (s.main = .joinDisp → s.dispatcher = .returned) ∧
        s.main ≠ .returned
  | .epollWait n =>
      s.reactor = .epollWait ∧ n ≤ 16 ∧ (fds.epfd < 0 → n < 0)
  | .queuePop _ => s.dispatcher = .queuePop
  | .write => s.dispatcher = .write
  | .accept clientFd =>
      s.ipc = .accept ∧ (fds.g_ipc_fd < 0 → clientFd < 0)
  | .recv _ => s.ipc = .recv

def ProcessStep (fds : Descriptors) (s : Process) (event : ProcessEvent)
    (t : Process) : Prop :=
  ProcessEnabled fds s event ∧ t = processHandle s event

def ProcessEvent.isRequest : ProcessEvent → Bool
  | .signal _ | .stop => true
  | _ => false

def ProcessEvent.isTraffic (fds : Descriptors) : ProcessEvent → Bool
  | .epollWait _ => fds.epollBlocks
  | .accept _ => fds.acceptBlocks
  | .queuePop _ | .write | .recv _ => true
  | _ => false

structure Process.Inv (s : Process) : Prop where
  events : ∀ left, s.reactor = .events left → left ≤ 16
  joinIpc : s.main = .joinIpc → s.reactor = .returned
  joinDisp : s.main = .joinDisp → s.reactor = .returned ∧ s.ipc = .returned
  returned : s.main = .returned →
    s.reactor = .returned ∧ s.ipc = .returned ∧ s.dispatcher = .returned

variable {fds : Descriptors} {s t : Process} {event : ProcessEvent}

theorem Process.Inv.step (h : s.Inv) (hstep : ProcessStep fds s event t) :
    t.Inv := by
  obtain ⟨henabled, rfl⟩ := hstep
  rcases s with ⟨running, reactor, dispatcher, ipc, main⟩
  rcases h with ⟨hevents, hipc, hdisp, hreturned⟩
  -- Only the thread that moves is looked at case by case.
  cases event with
  | reactorTurn =>
      cases reactor <;> simp only [ProcessEnabled, processHandle] at * <;>
        constructor <;> grind
  | dispatcherTurn =>
      cases dispatcher <;> simp only [ProcessEnabled, processHandle] at * <;>
        constructor <;> grind
  | ipcTurn =>
      cases ipc <;> simp only [ProcessEnabled, processHandle] at * <;>
        constructor <;> grind
  | mainTurn =>
      cases main <;> simp only [ProcessEnabled, processHandle] at * <;>
        constructor <;> grind
  | recv result =>
      cases result <;> simp only [ProcessEnabled, processHandle] at * <;>
        constructor <;> grind
  | _ =>
      simp only [ProcessEnabled, processHandle] at *
      constructor <;> grind

theorem inv_of_run {trace : List ProcessEvent}
    (run : Run (ProcessStep fds) .start trace s) : s.Inv := by
  refine run.invariant ?_ fun _ _ _ h hstep => h.step hstep
  constructor <;> simp [Process.start]

/-! ## What a stopped thread does next -/

/-- `Next a traffic b`: a thread of a stopped process goes on from `a` to `b`,
and `traffic` says whether a call that blocks has returned.  Whether a call on
`epfd` or `g_ipc_fd` blocks is up to `blocks`. -/
inductive ReactorAt.Next (blocks : Bool) :
    ReactorAt → Bool → ReactorAt → Prop where
  | test : Next blocks .test false .returned
  | event (left : Nat) : Next blocks (.events (left + 1)) false (.events left)
  | last : Next blocks (.events 0) false .test
  | nothing : Next blocks .epollWait blocks .test
  | ready (left : Nat) (h : left ≤ 16) (hblocks : blocks = true) :
      Next blocks .epollWait true (.events left)

inductive DispatcherAt.Next : DispatcherAt → Bool → DispatcherAt → Prop where
  | test : Next .test false .returned
  | handled : Next (.routerCore false) false .test
  | found : Next (.routerCore true) false .write
  | write : Next .write true .test
  | queuePop (writes : Bool) : Next .queuePop true (.routerCore writes)

inductive IpcAt.Next (blocks : Bool) : IpcAt → Bool → IpcAt → Prop where
  | test : Next blocks .test false .returned
  | usleep : Next blocks .usleep false .test
  | clientTest : Next blocks .clientTest false .done
  | done : Next blocks .done false .test
  | kept : Next blocks .decode false .clientTest
  | dropped : Next blocks .decode false .done
  | failed : Next blocks .accept blocks .usleep
  | connected (hblocks : blocks = true) :
      Next blocks .accept true .clientTest
  | data : Next blocks .recv true .decode
  | eintr : Next blocks .recv true .clientTest
  | over : Next blocks .recv true .done

inductive MainAt.Next : MainAt → MainAt → Prop where
  | test : Next .test .joinReactor
  | sleep : Next .sleep .checkHeartbeats
  | checkHeartbeats : Next .checkHeartbeats .test
  | joinReactor : Next .joinReactor .joinIpc
  | joinIpc : Next .joinIpc .joinDisp
  | joinDisp : Next .joinDisp .returned

inductive StoppedStep (fds : Descriptors) (s : Process) :
    ProcessEvent → Process → Prop where
  | request {event : ProcessEvent} (h : event.isRequest = true) :
      StoppedStep fds s event s
  | reactor {event : ProcessEvent} {b : ReactorAt}
      (work : event.isRequest = false)
      (next : ReactorAt.Next fds.epollBlocks s.reactor (event.isTraffic fds)
        b) :
      StoppedStep fds s event { s with reactor := b }
  | dispatcher {event : ProcessEvent} {b : DispatcherAt}
      (work : event.isRequest = false)
      (next : s.dispatcher.Next (event.isTraffic fds) b) :
      StoppedStep fds s event { s with dispatcher := b }
  | ipc {event : ProcessEvent} {b : IpcAt}
      (work : event.isRequest = false)
      (next : IpcAt.Next fds.acceptBlocks s.ipc (event.isTraffic fds) b) :
      StoppedStep fds s event { s with ipc := b }
  | main {event : ProcessEvent} {b : MainAt}
      (work : event.isRequest = false ∧ event.isTraffic fds = false)
      (next : s.main.Next b) : StoppedStep fds s event { s with main := b }

theorem stopped_cases (hstopped : s.running = false)
    (hstep : ProcessStep fds s event t) : StoppedStep fds s event t := by
  obtain ⟨henabled, rfl⟩ := hstep
  rcases s with ⟨running, reactor, dispatcher, ipc, main⟩
  subst hstopped
  cases event with
  | signal sig =>
      simp only [processHandle, ite_self]
      exact .request rfl
  | stop => exact .request rfl
  | reactorTurn =>
      rcases reactor with _ | _ | (_ | left) | _
      · exact .reactor rfl .test
      · exact absurd rfl henabled.1
      · exact .reactor rfl .last
      · exact .reactor rfl (.event left)
      · exact absurd rfl henabled.2
  | dispatcherTurn =>
      rcases dispatcher with _ | _ | (_ | _) | _ | _
      · exact .dispatcher rfl .test
      · rcases henabled with h | ⟨_, h⟩ <;> cases h
      · exact .dispatcher rfl .handled
      · exact .dispatcher rfl .found
      · rcases henabled with h | ⟨_, h⟩ <;> cases h
      · rcases henabled with h | ⟨_, h⟩ <;> cases h
  | ipcTurn =>
      cases ipc with
      | test => exact .ipc rfl .test
      | usleep => exact .ipc rfl .usleep
      | clientTest => exact .ipc rfl .clientTest
      | done => exact .ipc rfl .done
      | _ => rcases henabled with h | h | h | h <;> cases h
  | decoded drop =>
      obtain rfl : ipc = .decode := henabled
      cases drop with
      | false => exact .ipc rfl .kept
      | true => exact .ipc rfl .dropped
  | mainTurn =>
      cases main with
      | test => exact .main ⟨rfl, rfl⟩ .test
      | sleep => exact .main ⟨rfl, rfl⟩ .sleep
      | checkHeartbeats => exact .main ⟨rfl, rfl⟩ .checkHeartbeats
      | joinReactor => exact .main ⟨rfl, rfl⟩ .joinReactor
      | joinIpc => exact .main ⟨rfl, rfl⟩ .joinIpc
      | joinDisp => exact .main ⟨rfl, rfl⟩ .joinDisp
      | returned => exact absurd rfl henabled.2.2.2
  | epollWait n =>
      obtain ⟨hreactor, hn, hclosed⟩ := henabled
      obtain rfl : reactor = .epollWait := hreactor
      simp only [processHandle]
      split_ifs
      · exact .reactor rfl .nothing
      · have hopen : fds.epollBlocks = true :=
          decide_eq_true (by omega : 0 ≤ fds.epfd)
        have htraffic : (ProcessEvent.epollWait n).isTraffic fds = true :=
          hopen
        exact .reactor rfl (htraffic ▸ .ready _ (by omega) hopen)
  | queuePop writes =>
      obtain rfl : dispatcher = .queuePop := henabled
      exact .dispatcher rfl (.queuePop writes)
  | write =>
      obtain rfl : dispatcher = .write := henabled
      exact .dispatcher rfl .write
  | accept clientFd =>
      obtain ⟨hipc, hclosed⟩ := henabled
      obtain rfl : ipc = .accept := hipc
      simp only [processHandle]
      split_ifs
      · exact .ipc rfl .failed
      · have hopen : fds.acceptBlocks = true :=
          decide_eq_true (by omega : 0 ≤ fds.g_ipc_fd)
        have htraffic : (ProcessEvent.accept clientFd).isTraffic fds = true :=
          hopen
        exact .ipc rfl (htraffic ▸ .connected hopen)
  | recv result =>
      obtain rfl : ipc = .recv := henabled
      cases result with
      | data bytes => exact .ipc rfl .data
      | eintr => exact .ipc rfl .eintr
      | closed => exact .ipc rfl .over
      | error => exact .ipc rfl .over

def ReactorAt.rank : ReactorAt → Nat
  | .returned => 0
  | .test => 1
  | .events left => left + 2
  | .epollWait => 19

def DispatcherAt.rank : DispatcherAt → Nat
  | .returned => 0
  | .test => 1
  | .routerCore false => 2
  | .write => 2
  | .routerCore true => 3
  | .queuePop => 4

def IpcAt.rank : IpcAt → Nat
  | .returned => 0
  | .test => 1
  | .usleep => 2
  | .done => 2
  | .clientTest => 3
  | .accept => 4
  | .decode => 4
  | .recv => 5

def MainAt.rank : MainAt → Nat
  | .returned => 0
  | .joinDisp => 1
  | .joinIpc => 2
  | .joinReactor => 3
  | .test => 4
  | .checkHeartbeats => 5
  | .sleep => 6

def Process.rank (s : Process) : Nat :=
  s.reactor.rank + s.dispatcher.rank + s.ipc.rank + s.main.rank

def ReactorAt.waits (blocks : Bool) : ReactorAt → Nat
  | .epollWait => blocks.toNat
  | _ => 0

/-- A message that is popped may have to be written. -/
def DispatcherAt.waits : DispatcherAt → Nat
  | .queuePop => 2
  | .routerCore true => 1
  | .write => 1
  | _ => 0

def IpcAt.waits (blocks : Bool) : IpcAt → Nat
  | .accept => blocks.toNat
  | .recv => 1
  | _ => 0

/-- The returns from calls that block which a stopped process has before it. -/
def Process.waiting (fds : Descriptors) (s : Process) : Nat :=
  s.reactor.waits fds.epollBlocks + s.dispatcher.waits +
    s.ipc.waits fds.acceptBlocks

section

variable {blocks traffic : Bool}

theorem ReactorAt.Next.rank_lt {a b : ReactorAt}
    (h : Next blocks a traffic b) : b.rank < a.rank := by
  cases h <;> simp only [ReactorAt.rank] <;> omega

theorem DispatcherAt.Next.rank_lt {a b : DispatcherAt}
    (h : a.Next traffic b) : b.rank < a.rank := by
  cases h with
  | queuePop writes => cases writes <;> decide
  | _ => decide

theorem IpcAt.Next.rank_lt {a b : IpcAt} (h : Next blocks a traffic b) :
    b.rank < a.rank := by
  cases h <;> decide

theorem MainAt.Next.rank_lt {a b : MainAt} (h : a.Next b) :
    b.rank < a.rank := by
  cases h <;> decide

theorem ReactorAt.Next.waits_eq {a b : ReactorAt}
    (h : Next blocks a traffic b) :
    traffic.toNat + b.waits blocks = a.waits blocks := by
  cases h with
  | ready left _ hblocks =>
      subst hblocks
      rfl
  | _ => rfl

theorem DispatcherAt.Next.waits_le {a b : DispatcherAt}
    (h : a.Next traffic b) : traffic.toNat + b.waits ≤ a.waits := by
  cases h with
  | queuePop writes => cases writes <;> decide
  | _ => decide

theorem DispatcherAt.Next.waits_eq {a b : DispatcherAt}
    (h : a.Next false b) : b.waits = a.waits := by
  cases h <;> rfl

theorem IpcAt.Next.waits_eq {a b : IpcAt} (h : Next blocks a traffic b) :
    traffic.toNat + b.waits blocks = a.waits blocks := by
  cases h with
  | connected hblocks =>
      subst hblocks
      rfl
  | _ => rfl

end

theorem Process.Inv.rank_le (h : s.Inv) : s.rank ≤ 34 := by
  have hreactor : s.reactor.rank ≤ 19 := by
    cases hat : s.reactor with
    | events left =>
        have := h.events left hat
        simp only [ReactorAt.rank]
        omega
    | _ => decide
  have hdispatcher : s.dispatcher.rank ≤ 4 := by
    rcases s.dispatcher with _ | _ | (_ | _) | _ | _ <;> decide
  have hipc : s.ipc.rank ≤ 5 := by
    cases s.ipc <;> decide
  have hmain : s.main.rank ≤ 6 := by
    cases s.main <;> decide
  unfold Process.rank
  omega

/-! ## After the stop -/

theorem running_step (hstopped : s.running = false)
    (hstep : ProcessStep fds s event t) : t.running = false := by
  cases stopped_cases hstopped hstep <;> exact hstopped

theorem rank_step (hstopped : s.running = false)
    (hstep : ProcessStep fds s event t) :
    (!event.isRequest).toNat + t.rank ≤ s.rank := by
  cases stopped_cases hstopped hstep with
  | request h => simp [h]
  | reactor work next =>
      have hlt := next.rank_lt
      simp only [work, Process.rank, Bool.not_false, Bool.toNat_true]
      omega
  | dispatcher work next =>
      have hlt := next.rank_lt
      simp only [work, Process.rank, Bool.not_false, Bool.toNat_true]
      omega
  | ipc work next =>
      have hlt := next.rank_lt
      simp only [work, Process.rank, Bool.not_false, Bool.toNat_true]
      omega
  | main work next =>
      have hlt := next.rank_lt
      simp only [work.1, Process.rank, Bool.not_false, Bool.toNat_true]
      omega

theorem waiting_step (hstopped : s.running = false)
    (hstep : ProcessStep fds s event t) :
    (event.isTraffic fds).toNat + t.waiting fds ≤ s.waiting fds := by
  cases stopped_cases hstopped hstep with
  | request h =>
      have hquiet : event.isTraffic fds = false := by
        cases event <;> first | rfl | cases h
      simp [hquiet]
  | reactor _ next =>
      have heq := next.waits_eq
      simp only [Process.waiting]
      omega
  | dispatcher _ next =>
      have hle := next.waits_le
      simp only [Process.waiting]
      omega
  | ipc _ next =>
      have heq := next.waits_eq
      simp only [Process.waiting]
      omega
  | main work _ => simp [work.2, Process.waiting]

theorem waiting_turn (hstopped : s.running = false)
    (hstep : ProcessStep fds s event t) (hquiet : event.isTraffic fds = false) :
    t.waiting fds = s.waiting fds := by
  cases stopped_cases hstopped hstep with
  | request h => rfl
  | reactor _ next =>
      have heq := next.waits_eq
      rw [hquiet, Bool.toNat_false, Nat.zero_add] at heq
      simp only [Process.waiting, heq]
  | dispatcher _ next =>
      rw [hquiet] at next
      simp only [Process.waiting, next.waits_eq]
  | ipc _ next =>
      have heq := next.waits_eq
      rw [hquiet, Bool.toNat_false, Nat.zero_add] at heq
      simp only [Process.waiting, heq]
  | main work _ => rfl

theorem turn_enabled (hfree : s.waiting fds = 0)
    (hmain : s.main ≠ .returned) :
    ∃ event, ProcessEnabled fds s event ∧ event.isTraffic fds = false ∧
      event.isRequest = false := by
  simp only [Process.waiting, Nat.add_eq_zero_iff] at hfree
  rcases hfree with ⟨⟨hreactor, hdispatcher⟩, hipc⟩
  by_cases hr : s.reactor = .returned
  · by_cases hi : s.ipc = .returned
    · by_cases hd : s.dispatcher = .returned
      · exact ⟨.mainTurn, ⟨fun _ => hr, fun _ => hi, fun _ => hd, hmain⟩, rfl,
          rfl⟩
      · refine ⟨.dispatcherTurn, ?_, rfl, rfl⟩
        rcases hat : s.dispatcher with _ | _ | (_ | _) | _ | _ <;>
          simp_all [ProcessEnabled, DispatcherAt.waits]
    · cases hat : s.ipc with
      | accept =>
          have hclosed : fds.acceptBlocks = false := by
            simpa [hat, IpcAt.waits] using hipc
          exact ⟨.accept (-1), ⟨hat, fun _ => by decide⟩, hclosed, rfl⟩
      | decode => exact ⟨.decoded true, hat, rfl, rfl⟩
      | _ =>
          refine ⟨.ipcTurn, ?_, rfl, rfl⟩
          simp_all [ProcessEnabled, IpcAt.waits]
  · by_cases hat : s.reactor = .epollWait
    · have hclosed : fds.epollBlocks = false := by
        simpa [hat, ReactorAt.waits] using hreactor
      exact ⟨.epollWait (-1), ⟨hat, by decide, fun _ => by decide⟩, hclosed,
        rfl⟩
    · exact ⟨.reactorTurn, ⟨hat, hr⟩, rfl, rfl⟩

def TurnStep (fds : Descriptors) : Process → ProcessEvent → Process → Prop :=
  Guarded (ProcessStep fds) fun _ event => event.isTraffic fds = false

def Process.StoppedWith (fds : Descriptors) (n : Nat) (s : Process) : Prop :=
  s.Inv ∧ s.running = false ∧ s.waiting fds = n

theorem stoppedWith_turn {n : Nat} (h : s.StoppedWith fds n)
    (hstep : TurnStep fds s event t) : t.StoppedWith fds n := by
  rcases h with ⟨hinv, hstopped, hwaiting⟩
  rcases hstep with ⟨hstep, hquiet⟩
  exact ⟨hinv.step hstep, running_step hstopped hstep,
    (waiting_turn hstopped hstep hquiet).trans hwaiting⟩

theorem exits_of_free (h : s.StoppedWith fds 0) :
    ∃ turns t, Run (TurnStep fds) s turns t ∧ t.main = .returned := by
  refine Run.reaches (Process.StoppedWith fds 0) (fun s => s.main = .returned)
    Process.rank ?_ h
  intro s hs hmain
  rcases turn_enabled hs.2.2 hmain with ⟨event, henabled, hquiet, hwork⟩
  have hstep : ProcessStep fds s event (processHandle s event) := ⟨henabled, rfl⟩
  have hrank := rank_step hs.2.1 hstep
  rw [hwork, Bool.not_false, Bool.toNat_true] at hrank
  exact ⟨event, _, ⟨hstep, hquiet⟩, stoppedWith_turn hs ⟨hstep, hquiet⟩,
    by omega⟩

/--
A process that has been told to stop can run to its end on its own exactly when
no thread is in a call that blocks, or is about to write a message to a port.
-/
theorem exits_iff_no_thread_waits {trace : List ProcessEvent}
    (run : Run (ProcessStep fds) .start trace s) (hstopped : s.running = false) :
    (∃ turns t, Run (TurnStep fds) s turns t ∧ t.main = .returned) ↔
      s.waiting fds = 0 := by
  have hinv := inv_of_run run
  constructor
  · rintro ⟨turns, t, hturns, hmain⟩
    -- The turns leave a thread that waits where it is.
    have hend : t.StoppedWith fds (s.waiting fds) :=
      hturns.invariant ⟨hinv, hstopped, rfl⟩
        fun _ _ _ h hstep => stoppedWith_turn h hstep
    rcases hend with ⟨ht, -, hsame⟩
    rcases ht.returned hmain with ⟨hreactor, hipc, hdispatcher⟩
    rw [← hsame, Process.waiting, hreactor, hipc, hdispatcher]
    rfl
  · intro hfree
    exact exits_of_free ⟨hinv, hstopped, hfree⟩

def withoutIpc : Descriptors := ⟨3, -1⟩

def idleDispatcher : Process := ⟨false, .test, .queuePop, .accept, .test⟩

theorem idleDispatcher_run :
    Run (ProcessStep withoutIpc) .start
      [.dispatcherTurn, .ipcTurn, .signal sigterm] idleDispatcher :=
  .next (.next (.next .refl ⟨.inl rfl, rfl⟩) ⟨.inl rfl, rfl⟩) ⟨trivial, rfl⟩

theorem exits_iff_no_thread_waits_idle :
    (∃ turns t, Run (TurnStep withoutIpc) idleDispatcher turns t ∧
        t.main = .returned) ↔
      idleDispatcher.waiting withoutIpc = 0 :=
  exits_iff_no_thread_waits idleDispatcher_run rfl

/--
Once a process has been told to stop, whatever happens outside, its threads
take at most 34 steps, and no more of these are returns from a call that blocks
than there were before them.
-/
theorem stop_bounds_work {trace more : List ProcessEvent}
    (run : Run (ProcessStep fds) .start trace s) (hstopped : s.running = false)
    (run' : Run (ProcessStep fds) s more t) :
    (more.map fun event => (!event.isRequest).toNat).sum ≤ 34 ∧
      (more.map fun event => (event.isTraffic fds).toNat).sum ≤
        s.waiting fds := by
  have hinv := inv_of_run run
  have hwork := run'.cost_le Process.rank
    (fun event : ProcessEvent => (!event.isRequest).toNat)
    (fun _ _ _ h hstep => running_step h hstep)
    (fun _ _ _ h hstep => rank_step h hstep) hstopped
  have htraffic := run'.cost_le (Process.waiting fds)
    (fun event : ProcessEvent => (event.isTraffic fds).toNat)
    (fun _ _ _ h hstep => running_step h hstep)
    (fun _ _ _ h hstep => waiting_step h hstep) hstopped
  have hrank := hinv.rank_le
  exact ⟨by omega, by omega⟩

theorem stop_bounds_work_idle :
    (([.queuePop true, .dispatcherTurn, .write, .accept (-1)] :
        List ProcessEvent).map fun event => (!event.isRequest).toNat).sum ≤ 34 ∧
      (([.queuePop true, .dispatcherTurn, .write, .accept (-1)] :
        List ProcessEvent).map fun event =>
          (event.isTraffic withoutIpc).toNat).sum ≤
        idleDispatcher.waiting withoutIpc := by
  have hrun' : Run (ProcessStep withoutIpc) idleDispatcher
      [.queuePop true, .dispatcherTurn, .write, .accept (-1)] _ :=
    .next (.next (.next (.next .refl ⟨rfl, rfl⟩) ⟨.inr ⟨true, rfl⟩, rfl⟩)
      ⟨rfl, rfl⟩) ⟨⟨rfl, fun _ => by decide⟩, rfl⟩
  exact stop_bounds_work idleDispatcher_run rfl hrun'

end EzRouter
