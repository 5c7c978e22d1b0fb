import EzRouter.Router.Delivery
import EzRouter.Router.Fanout
import Mathlib.Data.List.ReduceOption

/-!
# From one port to another

The two threads and the queue between them as one system.  The reactor reads a
chunk, turns it into one message for each route and pushes these one by one;
the dispatcher pops a message, looks the destination up and writes.  Sections
of the queue, the reactor's other work and the dispatcher's interleave freely.
-/

namespace EzRouter

open EzRouter.Foundation

inductive Worker where
  | reactor
  | dispatcher
  deriving DecidableEq, Repr

/-- `pending` are the messages of the chunk at hand that have not left
`queue_push`, `current` is the `msg` of `dispatcher_thread` until the port has
been looked up. -/
structure Pipeline where
  threads : Threads
  queue : QueueSystem Worker
  pending : List EventMsg
  current : Option EventMsg

/-- A chunk read from a port called `name`, and the stack memory that the
buffer and the messages of this turn start from. -/
structure Arrival where
  name : CStr
  stale : Nat → EventMsg
  stack : Buffer readBufSize
  chunk : List UInt8

inductive PipelineEvent where
  | received (arrival : Arrival)
  | queue (event : QueueEvent Worker)
  | port (event : ThreadEvent)

def Pipeline.start (s : Reactor) (q : EventQueue) : Pipeline :=
  ⟨.start s, .start q, [], none⟩

def offers (c : Config) (handlers : List HandlerEntry) (a : Arrival) :
    List EventMsg :=
  (forward c handlers a.name a.stale a.stack a.chunk).reduceOption

def ThreadEvent.ofReactor : ThreadEvent → Bool
  | .find _ | .send _ => false
  | .accept _ _ | .close _ | .clear | .free => true

inductive PipelineStep (c : Config) (handlers : List HandlerEntry) :
    Pipeline → PipelineEvent → Pipeline → Prop where
  | received {s : Pipeline} {ref : PortRef} {p : PortDef} {a : Arrival}
      (idle : s.threads.hangup = .idle) (drained : s.pending = [])
      (readable : Enabled s.threads.reactor (.received ref a.chunk))
      (source : s.threads.reactor.deref ref = some p)
      (name : p.name.str = a.name) :
      PipelineStep c handlers s (.received a)
        { s with pending := offers c handlers a }
  | pushWaits {s : Pipeline} {msg : EventMsg} {rest : List EventMsg}
      {q : QueueSystem Worker} (first : s.pending = msg :: rest)
      (section_ : QueueStep s.queue (.pushWaits .reactor msg) q) :
      PipelineStep c handlers s (.queue (.pushWaits .reactor msg))
        { s with queue := q }
  | pushReturned {s : Pipeline} {msg : EventMsg} {rest : List EventMsg}
      {status : Int} {q : QueueSystem Worker} (first : s.pending = msg :: rest)
      (section_ : QueueStep s.queue (.pushReturned .reactor msg status) q) :
      PipelineStep c handlers s (.queue (.pushReturned .reactor msg status))
        { s with queue := q, pending := rest }
  | popWaits {s : Pipeline} {q : QueueSystem Worker}
      (free : s.current = none ∧ s.threads.held = none)
      (section_ : QueueStep s.queue (.popWaits .dispatcher) q) :
      PipelineStep c handlers s (.queue (.popWaits .dispatcher))
        { s with queue := q }
  | popReturned {s : Pipeline} {msg : EventMsg} {q : QueueSystem Worker}
      (free : s.current = none ∧ s.threads.held = none)
      (section_ : QueueStep s.queue (.popReturned .dispatcher msg) q) :
      PipelineStep c handlers s (.queue (.popReturned .dispatcher msg))
        { s with queue := q, current := some msg }
  | find {s : Pipeline} {msg : EventMsg} {t : Threads}
      (popped : s.current = some msg)
      (step : ThreadStep s.threads (.find msg) t) :
      PipelineStep c handlers s (.port (.find msg))
        { s with threads := t, current := none }
  | send {s : Pipeline} {t : Threads} (status : Int)
      (step : ThreadStep s.threads (.send status) t) :
      PipelineStep c handlers s (.port (.send status))
        { s with threads := t }
  | reactor {s : Pipeline} {event : ThreadEvent} {t : Threads}
      (own : event.ofReactor = true) (drained : s.pending = [])
      (step : ThreadStep s.threads event t) :
      PipelineStep c handlers s (.port event) { s with threads := t }

/-! ## What a run has done -/

def PipelineEvent.queueEvent : PipelineEvent → Option (QueueEvent Worker)
  | .queue event => some event
  | _ => none

def PipelineEvent.threadEvent : PipelineEvent → Option ThreadEvent
  | .port event => some event
  | _ => none

def PipelineEvent.arrival : PipelineEvent → Option Arrival
  | .received a => some a
  | _ => none

def PipelineEvent.push : PipelineEvent → Option EventMsg
  | .queue (.pushReturned _ msg _) => some msg
  | _ => none

def PipelineEvent.find : PipelineEvent → Option EventMsg
  | .port (.find msg) => some msg
  | _ => none

def queueTrace (trace : List PipelineEvent) : List (QueueEvent Worker) :=
  trace.filterMap PipelineEvent.queueEvent

def offered (c : Config) (handlers : List HandlerEntry)
    (trace : List PipelineEvent) : List EventMsg :=
  (trace.filterMap PipelineEvent.arrival).flatMap (offers c handlers)

def pushed (trace : List PipelineEvent) : List EventMsg :=
  trace.filterMap PipelineEvent.push

/-- The messages that the dispatcher has looked a port up for. -/
def handled (trace : List PipelineEvent) : List EventMsg :=
  trace.filterMap PipelineEvent.find

theorem filterMap_snoc {α β : Type} (f : α → Option β) (xs : List α) (x : α) :
    (xs ++ [x]).filterMap f = xs.filterMap f ++ (f x).toList := by
  cases h : f x <;> simp [h]

@[simp] theorem queueTrace_snoc (trace : List PipelineEvent)
    (event : PipelineEvent) :
    queueTrace (trace ++ [event]) =
      queueTrace trace ++ event.queueEvent.toList :=
  filterMap_snoc _ _ _

@[simp] theorem offered_snoc (c : Config) (handlers : List HandlerEntry)
    (trace : List PipelineEvent) (event : PipelineEvent) :
    offered c handlers (trace ++ [event]) =
      offered c handlers trace ++
        event.arrival.toList.flatMap (offers c handlers) := by
  rw [offered, filterMap_snoc, List.flatMap_append, offered]

@[simp] theorem pushed_snoc (trace : List PipelineEvent)
    (event : PipelineEvent) :
    pushed (trace ++ [event]) = pushed trace ++ event.push.toList :=
  filterMap_snoc _ _ _

@[simp] theorem handled_snoc (trace : List PipelineEvent)
    (event : PipelineEvent) :
    handled (trace ++ [event]) = handled trace ++ event.find.toList :=
  filterMap_snoc _ _ _

variable {c : Config} {handlers : List HandlerEntry} {r : Reactor}
  {q : EventQueue} {trace : List PipelineEvent} {s t : Pipeline}

theorem queue_of_run
    (run : Run (PipelineStep c handlers) (.start r q) trace s) :
    Run QueueStep (.start q) (queueTrace trace) s.queue := by
  apply run.project Pipeline.queue PipelineEvent.queueEvent
  · intro s event t e hstep hlabel
    cases hstep <;> cases hlabel <;> assumption
  · intro s event t hstep hlabel
    cases hstep <;> first | rfl | cases hlabel

theorem threads_of_run
    (run : Run (PipelineStep c handlers) (.start r q) trace s) :
    Run ThreadStep (.start r) (trace.filterMap PipelineEvent.threadEvent)
      s.threads := by
  apply run.project Pipeline.threads PipelineEvent.threadEvent
  · intro s event t e hstep hlabel
    cases hstep <;> cases hlabel <;> assumption
  · intro s event t hstep hlabel
    cases hstep <;> first | rfl | cases hlabel

/-- A port that the dispatcher holds is one to write to.  Who owns its
descriptor is left open. -/
structure LookupInv (s : Threads) : Prop where
  reactor : ReactorInv s.reactor
  freeing : ∀ ref, s.hangup = .cleared (some ref) →
    (s.reactor.deref ref).isSome = true ∧ ref ∉ s.reactor.freed ∧
      ∀ e ∈ s.reactor.table.live, e.port ≠ some ref
  held : ∀ msg ref, s.held = some (msg, ref) → ∃ p,
    s.reactor.deref ref = some p ∧ 0 ≤ p.fd ∧ p.type.isServer = false

section Lookup

variable {s t : Threads}

theorem LookupInv.find (h : LookupInv s) (msg : EventMsg) :
    LookupInv (threadsHandle s (.find msg)) := by
  refine { h with held := ?_ }
  intro msg' ref hheld
  obtain ⟨ref', hfound, hpair⟩ := Option.map_eq_some_iff.1 hheld
  obtain ⟨rfl, rfl⟩ := Prod.mk.inj hpair
  obtain ⟨e, p, he, hport, hp, -, htype⟩ := portFind_some hfound
  exact ⟨p, hp, (h.reactor.fd_of_entry he hport hp).2, htype⟩

theorem LookupInv.accept (h : LookupInv s) {ref : PortRef} {clientFd : Int}
    (hidle : s.hangup = .idle)
    (henabled : Enabled s.reactor (.accepted ref clientFd)) :
    LookupInv (threadsHandle s (.accept ref clientFd)) := by
  have hinv := h.reactor.step ⟨henabled, rfl⟩
  obtain ⟨-, server, hserver, -⟩ := henabled
  change s.reactor.deref ref = some server at hserver
  simp only [threadsHandle, reactorHandle, hserver] at hinv ⊢
  constructor
  case reactor => exact hinv
  case freeing =>
    intro r hphase
    change s.hangup = _ at hphase
    rw [hidle] at hphase
    contradiction
  case held =>
    intro msg r hheld
    obtain ⟨p, hp, hrest⟩ := h.held msg r hheld
    simp only [deref_reactorAccept]
    exact ⟨p, deref_alloc hp _ _ _, hrest⟩

theorem LookupInv.clear (h : LookupInv s) {ref : PortRef} {p : PortDef}
    (hclosed : s.hangup = .closed ref) (hp : s.reactor.deref ref = some p) :
    LookupInv (threadsHandle s .clear) := by
  simp only [threadsHandle, hclosed, hp]
  constructor
  case reactor => exact h.reactor.clearSlot p.fd
  case freeing =>
    intro r hphase
    have hfree : s.reactor.toFree p.type p.fd = some r :=
      Hangup.cleared.inj hphase
    unfold Reactor.toFree at hfree
    split_ifs at hfree
    obtain ⟨e, hfind, hport⟩ := Option.bind_eq_some_iff.1 hfree
    rcases s.reactor.table.live_clear p.fd with ⟨hmiss, -, -⟩ |
      ⟨found, hfound, -, -, hperm⟩
    · rw [hmiss] at hfind
      contradiction
    · obtain rfl := Option.some.inj (hfind.symm.trans hfound)
      have hmem : e ∈ s.reactor.table.live :=
        hperm.mem_iff.2 List.mem_cons_self
      refine ⟨?_, h.reactor.unfreed e hmem r hport,
        h.reactor.port_ne_of_perm hperm hport⟩
      obtain ⟨r', q, hport', hq, -⟩ := h.reactor.entry e hmem
      obtain rfl := Option.some.inj (hport.symm.trans hport')
      exact Option.isSome_of_eq_some hq
  case held => exact h.held

theorem LookupInv.free (h : LookupInv s) {ref : Option PortRef}
    (hcleared : s.hangup = .cleared ref) :
    LookupInv (threadsHandle s .free) := by
  simp only [threadsHandle, hcleared]
  constructor
  case reactor =>
    cases ref with
    | none =>
        have hsame : s.reactor.free none = s.reactor := by
          simp [Reactor.free]
        simp only [hsame]
        exact h.reactor
    | some r =>
        obtain ⟨hvalid, hfresh, hslot⟩ := h.freeing r hcleared
        exact h.reactor.free hvalid hfresh hslot
  case freeing =>
    intro r hphase
    contradiction
  case held => exact h.held

theorem LookupInv.step (h : LookupInv s) {event : ThreadEvent}
    (hstep : ThreadStep s event t) : LookupInv t := by
  obtain ⟨henabled, rfl⟩ := hstep
  cases event with
  | find msg => exact h.find msg
  | send status =>
      simp only [threadsHandle]
      split
      · exact h
      · refine { h with held := ?_ }
        intro msg ref hheld
        contradiction
  | accept ref clientFd => exact h.accept henabled.1 henabled.2
  | close ref =>
      simp only [threadsHandle]
      split
      · exact h
      · refine ⟨h.reactor.closeFd _, ?_, h.held⟩
        intro ref hphase
        contradiction
  | clear =>
      obtain ⟨ref, hclosed⟩ := henabled
      cases hp : s.reactor.deref ref with
      | none =>
          simp only [threadsHandle, hclosed, hp]
          exact h
      | some p => exact h.clear hclosed hp
  | free =>
      obtain ⟨ref, hcleared⟩ := henabled
      exact h.free hcleared

theorem LookupInv.of_startup {parse : CJsonParser} {file : Option (List UInt8)}
    {inherited : Int → Bool} {calls : Nat → OpenCalls}
    (hkernel : KernelOpens (.boot (loadConfig parse file).2.ports inherited)
      calls) :
    LookupInv (.start (startup parse file inherited calls)) :=
  ⟨.of_startup hkernel, nofun, nofun⟩

end Lookup

/-! ## Every message is somewhere -/

theorem pushed_pending
    (run : Run (PipelineStep c handlers) (.start r q) trace s) :
    pushed trace ++ s.pending = offered c handlers trace := by
  induction run with
  | refl => rfl
  | next _ hstep ih =>
      cases hstep with
      | received _ drained _ _ _ =>
          rw [drained, List.append_nil] at ih
          simp [PipelineEvent.push, PipelineEvent.arrival, ih]
      | pushReturned first _ =>
          rw [first] at ih
          simpa [PipelineEvent.push, PipelineEvent.arrival] using ih
      | _ => simpa [PipelineEvent.push, PipelineEvent.arrival] using ih

theorem find_of_reactor {event : ThreadEvent} (own : event.ofReactor = true) :
    PipelineEvent.find (.port event) = none := by
  cases event <;> first | rfl | cases own

theorem handled_current
    (run : Run (PipelineStep c handlers) (.start r q) trace s) :
    handled trace ++ s.current.toList = popped (queueTrace trace) := by
  induction run with
  | refl => rfl
  | next _ hstep ih =>
      cases hstep with
      | popReturned free _ =>
          rw [free.1] at ih
          simpa [PipelineEvent.find, PipelineEvent.queueEvent,
            QueueEvent.pops] using ih
      | find current _ =>
          rw [current] at ih
          simpa [PipelineEvent.find, PipelineEvent.queueEvent] using ih
      | reactor own _ _ =>
          simpa [find_of_reactor own, PipelineEvent.queueEvent] using ih
      | _ =>
          simpa [PipelineEvent.find, PipelineEvent.queueEvent,
            QueueEvent.pops] using ih

theorem accepts_sublist (t : Worker) (msg : EventMsg) (status : Int) :
    (QueueEvent.pushReturned t msg status).accepts.toList.Sublist [msg] := by
  simp only [QueueEvent.accepts]
  split_ifs
  · exact List.Sublist.refl _
  · exact List.nil_sublist _

theorem accepted_sublist_pushed
    (run : Run (PipelineStep c handlers) (.start r q) trace s) :
    (accepted (queueTrace trace)).Sublist (pushed trace) := by
  induction run with
  | refl => exact .slnil
  | next _ hstep ih =>
      cases hstep with
      | pushReturned first _ =>
          simp only [queueTrace_snoc, pushed_snoc, PipelineEvent.queueEvent,
            PipelineEvent.push, Option.toList_some, accepted_snoc]
          exact ih.append (accepts_sublist _ _ _)
      | _ =>
          simpa [PipelineEvent.queueEvent, PipelineEvent.push,
            QueueEvent.accepts] using ih

def EventMsg.parcel (m : EventMsg) : CStr × List UInt8 := (m.dst.str, m.payload)

def Sent.parcel (x : Sent) : CStr × List UInt8 := (x.dst, x.write.data)

def Threads.inHand (s : Threads) : List (CStr × List UInt8) :=
  (s.held.map fun held => held.1.parcel).toList

theorem sent_send {s : Threads} (h : LookupInv s) (status : Int)
    (hheld : s.held ≠ none) :
    ((threadsHandle s (.send status)).sent.map Sent.parcel ++
        (threadsHandle s (.send status)).inHand).Sublist
      (s.sent.map Sent.parcel ++ s.inHand) := by
  rcases Option.ne_none_iff_exists'.1 hheld with ⟨⟨msg, ref⟩, hmsg⟩
  rcases h.held msg ref hmsg with ⟨p, hp, hfd, htype⟩
  have hwrites := portSend_writes hp hfd htype (fun _ => status) msg.payload
    msg.len
  simp only [threadsHandle, hmsg, hwrites, Threads.inHand, List.map_append,
    Option.map_some, Option.toList_some, Option.map_none, Option.toList_none,
    List.append_nil]
  refine (List.Sublist.refl _).append ?_
  split_ifs
  · exact List.nil_sublist _
  · exact List.Sublist.refl _

theorem inHand_find (s : Threads) (msg : EventMsg) :
    (threadsHandle s (.find msg)).inHand.Sublist [msg.parcel] := by
  simp only [threadsHandle, Threads.inHand]
  cases portFind s.reactor msg.dst.str with
  | none => exact List.nil_sublist _
  | some ref => exact List.Sublist.refl _

theorem written_of_reactor (s : Threads) {event : ThreadEvent}
    (own : event.ofReactor = true) :
    (threadsHandle s event).sent = s.sent ∧
      (threadsHandle s event).held = s.held := by
  cases event with
  | find msg => cases own
  | send status => cases own
  | accept ref clientFd => exact ⟨rfl, rfl⟩
  | close ref =>
      simp only [threadsHandle]
      split <;> exact ⟨rfl, rfl⟩
  | clear =>
      simp only [threadsHandle]
      split
      · split <;> exact ⟨rfl, rfl⟩
      · exact ⟨rfl, rfl⟩
  | free =>
      simp only [threadsHandle]
      split <;> exact ⟨rfl, rfl⟩

theorem written_sublist_handled (hinv : LookupInv (.start r))
    (run : Run (PipelineStep c handlers) (.start r q) trace s) :
    (s.threads.sent.map Sent.parcel ++ s.threads.inHand).Sublist
      ((handled trace).map EventMsg.parcel) := by
  induction run with
  | refl => exact .slnil
  | @next trace s t event hrun hstep ih =>
      have hthreads : LookupInv s.threads :=
        (threads_of_run hrun).invariant hinv fun _ _ _ h => h.step
      cases hstep with
      | find _ step =>
          obtain ⟨hfree, rfl⟩ := step
          have hempty : s.threads.inHand = [] := by
            simp [Threads.inHand, show s.threads.held = none from hfree]
          rw [hempty, List.append_nil] at ih
          rw [handled_snoc, List.map_append]
          exact ih.append (inHand_find _ _)
      | send status step =>
          obtain ⟨hheld, rfl⟩ := step
          have hwritten := (sent_send hthreads status hheld).trans ih
          simpa [PipelineEvent.find] using hwritten
      | reactor own _ step =>
          obtain ⟨-, rfl⟩ := step
          rcases written_of_reactor s.threads own with ⟨hsent, hheld⟩
          have hhand : (threadsHandle s.threads _).inHand = s.threads.inHand :=
            congrArg (fun held => (held.map fun h : EventMsg × PortRef =>
              h.1.parcel).toList) hheld
          rw [handled_snoc, find_of_reactor own, hsent, hhand]
          simpa using ih
      | _ => simpa [PipelineEvent.find] using ih

theorem dst_routeStep {handler : Option PluginHandler} {route : RouteDef}
    {len : Nat} {stale msg : EventMsg} {buf : Buffer readBufSize}
    (h : (routeStep handler route len stale buf).2 = some msg) :
    msg.dst = route.dst := by
  cases handler with
  | none =>
      cases h
      rfl
  | some f =>
      simp only [routeStep] at h
      split_ifs at h <;> cases h <;> rfl

theorem afterHandlers_of_plain {lookup : CStr → Option PluginHandler}
    {len : Nat} {routes : List RouteDef} {buf : Buffer readBufSize}
    (hplain : ∀ route ∈ routes, lookup route.handler.str = none) :
    afterHandlers lookup len routes buf = buf := by
  induction routes with
  | nil => rfl
  | cons route routes ih =>
      have hnone := hplain route List.mem_cons_self
      have htail := ih fun route' hroute =>
        hplain route' (List.mem_cons_of_mem _ hroute)
      simpa [afterHandlers, hnone] using htail

def routesOf (c : Config) (a : Arrival) : List RouteDef :=
  configFindRoutesBySrc c a.name 16

def Plain (c : Config) (handlers : List HandlerEntry) (a : Arrival) : Prop :=
  ∀ route ∈ routesOf c a, pluginGetHandler handlers route.handler.str = none

theorem mem_offers {a : Arrival} {msg : EventMsg}
    (hchunk : a.chunk.length ≤ 1023) (h : msg ∈ offers c handlers a) :
    ∃ route ∈ routesOf c a, msg.dst = route.dst ∧
      (Plain c handlers a → msg.payload = a.chunk) := by
  rw [offers, List.reduceOption_mem_iff] at h
  rcases List.getElem?_of_mem h with ⟨i, hi⟩
  rw [forward, routeLoop_getElem?] at hi
  rcases Option.map_eq_some_iff.1 hi with ⟨route, hroute, hmsg⟩
  refine ⟨route, List.mem_of_getElem? hroute, dst_routeStep hmsg, ?_⟩
  intro hplain
  have hhandler := hplain route (List.mem_of_getElem? hroute)
  have hbuf : afterHandlers (pluginGetHandler handlers) a.chunk.length
      ((routesOf c a).take i) (readInto a.stack a.chunk) =
      readInto a.stack a.chunk :=
    afterHandlers_of_plain fun route' hroute' =>
      hplain route' (List.mem_of_mem_take hroute')
  rw [routesOf] at hbuf
  rw [hhandler, hbuf] at hmsg
  cases hmsg
  have hlen : a.chunk.length ≤ maxData := by
    unfold maxData
    omega
  have hdelivery := congrArg Delivery.payload
    (delivery_routeMsg (a.stale (0 + i)) route (readInto a.stack a.chunk) hlen)
  rw [take_readInto a.stack hchunk] at hdelivery
  exact hdelivery

theorem arrivals_fit
    (run : Run (PipelineStep c handlers) (.start r q) trace s) :
    ∀ a ∈ trace.filterMap PipelineEvent.arrival, a.chunk.length ≤ 1023 := by
  induction run with
  | refl => simp
  | next _ hstep ih =>
      rw [filterMap_snoc, List.forall_mem_append]
      refine ⟨ih, ?_⟩
      cases hstep with
      | received _ _ readable _ _ =>
          obtain ⟨-, p, -, -, -, hlt⟩ := readable
          simpa [PipelineEvent.arrival] using Nat.le_of_lt_succ hlt
      | _ => simp [PipelineEvent.arrival]

/-! ## Runs from startup -/

theorem status_of_push {x y : QueueSystem Worker} {w : Worker}
    {msg : EventMsg} {status : Int}
    (h : QueueStep x (.pushReturned w msg status) y) :
    status = 0 ∨ status = -1 := by
  have heffect := h.effect
  obtain ⟨q', hq'⟩ : ∃ q', y.queue = q' := ⟨_, rfl⟩
  rw [hq'] at heffect
  cases heffect with
  | accepts => exact .inl rfl
  | drops => exact .inr rfl

theorem length_pushed
    (run : Run (PipelineStep c handlers) (.start r q) trace s) :
    (pushed trace).length =
      (accepted (queueTrace trace)).length + drops (queueTrace trace) := by
  induction run with
  | refl => rfl
  | @next trace s t event _ hstep ih =>
      cases hstep with
      | pushReturned first section_ =>
          rcases status_of_push section_ with rfl | rfl <;>
            simp [PipelineEvent.queueEvent, PipelineEvent.push,
              QueueEvent.accepts, QueueEvent.drops, ih] <;> omega
      | _ =>
          simpa [PipelineEvent.queueEvent, PipelineEvent.push,
            QueueEvent.accepts, QueueEvent.drops] using ih

/-- Where the messages are that the route loop has made.  No message is in two
of these places, and none has overtaken another. -/
structure Accounted (c : Config) (handlers : List HandlerEntry)
    (trace : List PipelineEvent) (s : Pipeline) : Prop where
  order : (handled trace ++ s.current.toList ++ s.queue.queue.ring.contents ++
    s.pending).Sublist (offered c handlers trace)
  count : (offered c handlers trace).length =
    (handled trace).length + s.current.toList.length +
      s.queue.queue.ring.contents.length + s.pending.length +
      drops (queueTrace trace)
  dropped : s.queue.queue.dropCount = UInt64.ofNat (drops (queueTrace trace))
  written : (s.threads.sent.map Sent.parcel ++ s.threads.inHand).Sublist
    ((handled trace).map EventMsg.parcel)

theorem accounted_of_run (hinv : LookupInv (.start r))
    (run : Run (PipelineStep c handlers) (.start r q) trace s) :
    Accounted c handlers trace s := by
  have hqueue := QueueInv.of_run (queue_of_run run)
  have hpushed := pushed_pending run
  have haccepted : handled trace ++ s.current.toList ++
      s.queue.queue.ring.contents = accepted (queueTrace trace) := by
    rw [handled_current run]
    exact hqueue.fifo
  constructor
  case order =>
    rw [haccepted, ← hpushed]
    exact (accepted_sublist_pushed run).append (List.Sublist.refl _)
  case count =>
    have hcount := congrArg List.length haccepted
    simp only [List.length_append] at hcount
    rw [← hpushed, List.length_append, length_pushed run, ← hcount]
    omega
  case dropped => exact hqueue.dropped
  case written => exact written_sublist_handled hinv run

/-- Nothing is sent to a port that has begun to disconnect. -/
def SendsInTime (s : Pipeline) (event : PipelineEvent) : Prop :=
  ∀ e, event = .port e → SentBeforeClose s.threads e

theorem allSafe_of_run (hinv : ThreadsInv (.start r))
    (run : Run (Guarded (PipelineStep c handlers) SendsInTime) (.start r q)
      trace s) : AllSafe s.threads := by
  have hguarded : Run (Guarded ThreadStep SentBeforeClose) (.start r)
      (trace.filterMap PipelineEvent.threadEvent) s.threads := by
    apply run.project Pipeline.threads PipelineEvent.threadEvent
    · rintro s event t e ⟨hstep, htime⟩ hlabel
      cases hstep <;> cases hlabel <;> exact ⟨by assumption, htime _ rfl⟩
    · rintro s event t ⟨hstep, -⟩ hlabel
      cases hstep <;> first | rfl | cases hlabel
  have hiff : AllSafe s.threads ↔ Run (Guarded ThreadStep SentBeforeClose)
      (.start r) (trace.filterMap PipelineEvent.threadEvent) s.threads := by
    refine hguarded.of_guarded.keeps_iff_guarded AllSafe ThreadsInv hinv ?_
      (fun _ _ _ h hstep => h.step hstep)
      (fun _ _ _ h hstep => allSafe_step h hstep)
    intro x hx
    contradiction
  exact hiff.2 hguarded

def CameFrom (c : Config) (handlers : List HandlerEntry)
    (trace : List PipelineEvent) (x : Sent) : Prop :=
  ∃ a ∈ trace.filterMap PipelineEvent.arrival, ∃ route ∈ c.routes,
    route.src.str = a.name ∧ route.dst.str = x.dst ∧
      (Plain c handlers a → x.write.data = a.chunk)

theorem cameFrom_of_run (hinv : LookupInv (.start r))
    (run : Run (PipelineStep c handlers) (.start r q) trace s) :
    ∀ x ∈ s.threads.sent, CameFrom c handlers trace x := by
  intro x hx
  rcases accounted_of_run hinv run with ⟨haccount, -, -, hwritten⟩
  have hparcel : x.parcel ∈ (handled trace).map EventMsg.parcel :=
    hwritten.subset (List.mem_append_left _ (List.mem_map_of_mem hx))
  rcases List.mem_map.1 hparcel with ⟨msg, hmsg, heq⟩
  have hoffered : msg ∈ offered c handlers trace :=
    haccount.subset (by simp [hmsg])
  rcases List.mem_flatMap.1 hoffered with ⟨a, ha, hmade⟩
  rcases mem_offers (arrivals_fit run a ha) hmade with
    ⟨route, hroute, hdst, hplain⟩
  rw [routesOf, configFindRoutesBySrc_eq] at hroute
  have hfilter := List.mem_filter.1 (List.mem_of_mem_take hroute)
  rcases Prod.mk.inj heq with ⟨hname, hdata⟩
  refine ⟨a, ha, route, hfilter.1, by simpa using hfilter.2, ?_, ?_⟩
  · rw [← hname, hdst]
  · intro h
    exact hdata.symm.trans (hplain h)

section Startup

variable (parse : CJsonParser) (file : Option (List UInt8))
  (inherited : Int → Bool) (calls : Nat → OpenCalls)
  (handlers : List HandlerEntry) (q : EventQueue)
  (hkernel : KernelOpens (.boot (loadConfig parse file).2.ports inherited)
    calls)
include hkernel

/--
Under every interleaving from startup on, each message that the route loop has
made is handled, in the dispatcher's hands, in the queue, yet to be pushed, or
was dropped and counted; the dispatcher takes them in the order in which they
were made and writes each at most once.
-/
theorem messages_accounted {trace : List PipelineEvent} {s : Pipeline}
    (run : Run (PipelineStep (loadConfig parse file).2 handlers)
      (.start (startup parse file inherited calls) q) trace s) :
    Accounted (loadConfig parse file).2 handlers trace s :=
  accounted_of_run (.of_startup hkernel) run

/--
When every port that lacks its tty object could be opened, and in a run from
startup in which nothing is sent to a port that has begun to disconnect, every
write is made on a live connection of the port that it is for, and goes back
to a chunk read from a port with a route to that port; when no handler is on
the way, it carries that chunk unchanged.
-/
theorem writes_come_from_arrivals (hclean : NoBareTtyFails parse file calls)
    {trace : List PipelineEvent} {s : Pipeline}
    (run : Run (Guarded (PipelineStep (loadConfig parse file).2 handlers)
      SendsInTime) (.start (startup parse file inherited calls) q) trace s) :
    ∀ x ∈ s.threads.sent, x.Safe ∧
      CameFrom (loadConfig parse file).2 handlers trace x := by
  intro x hx
  exact ⟨allSafe_of_run (.of_startup hkernel hclean) run x hx,
    cameFrom_of_run (.of_startup hkernel) run.of_guarded x hx⟩

end Startup

/-! ## One chunk from port to port -/

def usbPort (name : String) : CJson :=
  .object [(.lit "name", .string (.lit name)),
    (.lit "type", .string (.lit "usb")), (.lit "usb", .object [])]

def relayRoot : CJson :=
  .object [(.lit "ports", .array [usbPort "A", usbPort "B"]),
    (.lit "routes", .array [.object [(.lit "src", .string (.lit "A")),
      (.lit "dst", .string (.lit "B"))]])]

def relayText : List UInt8 :=
  (CStr.lit ("\x7b\"ports\":[\x7b\"name\":\"A\",\"type\":\"usb\"," ++
    "\"usb\":\x7b\x7d\x7d,\x7b\"name\":\"B\",\"type\":\"usb\"," ++
    "\"usb\":\x7b\x7d\x7d],\"routes\":[\x7b\"src\":\"A\"," ++
    "\"dst\":\"B\"\x7d]\x7d")).bytes

def relayParser : CJsonParser := fun _ => some relayRoot

def relayStart : Pipeline :=
  .start (startup relayParser (some relayText) stdio nextCalls) .boot

def relayArrival : Arrival := ⟨.lit "A", fun _ => .zero, .zero _, [72, 105]⟩

def relayMsg : EventMsg :=
  routeMsg .zero (routeOf (.lit "A") (.lit "B") .empty)
    (readInto (.zero _) [72, 105]) 2

def relayRead : Pipeline := { relayStart with pending := [relayMsg] }

def relayPushed : Pipeline :=
  { relayRead with
    queue := relayRead.queue.pushEnds .reactor relayMsg
      (queuePush relayRead.queue.queue relayMsg)
    pending := [] }

def relayPopped : Pipeline :=
  { relayPushed with
    queue := relayPushed.queue.popEnds .dispatcher
      (queuePop relayPushed.queue.queue)
    current := some relayMsg }

def relayFound : Pipeline :=
  { relayPopped with
    threads := threadsHandle relayPopped.threads (.find relayMsg)
    current := none }

def relaySent : Pipeline :=
  { relayFound with threads := threadsHandle relayFound.threads (.send 2) }

def relayTrace : List PipelineEvent :=
  [.received relayArrival, .queue (.pushReturned .reactor relayMsg 0),
    .queue (.popReturned .dispatcher relayMsg), .port (.find relayMsg),
    .port (.send 2)]

def RelayStep : Pipeline → PipelineEvent → Pipeline → Prop :=
  PipelineStep (loadConfig relayParser (some relayText)).2 []

theorem relay_received {s : Pipeline} (hthreads : s.threads = relayStart.threads)
    (hpending : s.pending = []) :
    RelayStep s (.received relayArrival) { s with pending := [relayMsg] } := by
  obtain ⟨threads, queue, pending, current⟩ := s
  obtain rfl : threads = relayStart.threads := hthreads
  obtain rfl : pending = [] := hpending
  have hoffers : offers (loadConfig relayParser (some relayText)).2 []
      relayArrival = [relayMsg] := by
    decide +kernel
  have hreadable : Enabled relayStart.threads.reactor
      (.received (.config 0) relayArrival.chunk) := by
    decide +kernel
  have hstep := @PipelineStep.received
    (loadConfig relayParser (some relayText)).2 []
    ⟨relayStart.threads, queue, [], current⟩ (.config 0) _ relayArrival rfl rfl
    hreadable rfl (by decide +kernel)
  rwa [hoffers] at hstep

theorem relay_read :
    RelayStep relayStart (.received relayArrival) relayRead :=
  relay_received rfl rfl

theorem relay_push : RelayStep relayRead
    (.queue (.pushReturned .reactor relayMsg 0)) relayPushed :=
  .pushReturned rfl (.push relayMsg rfl)

theorem relay_pop : RelayStep relayPushed
    (.queue (.popReturned .dispatcher relayMsg)) relayPopped :=
  .popReturned ⟨rfl, rfl⟩ (.pop rfl)

theorem relay_find :
    RelayStep relayPopped (.port (.find relayMsg)) relayFound :=
  .find rfl ⟨rfl, rfl⟩

theorem relay_send : RelayStep relayFound (.port (.send 2)) relaySent := by
  have hheld : relayFound.threads.held ≠ none := by decide +kernel
  exact .send 2 ⟨hheld, rfl⟩

theorem relay_run :
    Run (Guarded (PipelineStep (loadConfig relayParser (some relayText)).2 [])
      SendsInTime) relayStart relayTrace relaySent := by
  have hquiet : ∀ (s : Pipeline) event, (∀ status, event ≠ .port (.send status)) →
      SendsInTime s event := by
    rintro s event hne e rfl status msg ref p rfl
    exact absurd rfl (hne status)
  have htime : SendsInTime relayFound (.port (.send 2)) := by
    intro e he
    cases he
    intro status msg ref p _ _ _ _
    exact List.not_mem_nil
  exact .next (.next (.next (.next (.next .refl ⟨relay_read, hquiet _ _ nofun⟩)
    ⟨relay_push, hquiet _ _ nofun⟩) ⟨relay_pop, hquiet _ _ nofun⟩)
    ⟨relay_find, hquiet _ _ nofun⟩) ⟨relay_send, htime⟩

theorem relay_clean :
    NoBareTtyFails relayParser (some relayText) nextCalls := by
  have htypes : ∀ item ∈ storedItems relayParser (some relayText),
      typeStr item ≠ .lit "tty" := by
    decide +kernel
  intro i item hitem hlacks
  exact absurd hlacks.1 (htypes item (List.mem_of_getElem? hitem))

theorem messages_accounted_relay :
    Accounted (loadConfig relayParser (some relayText)).2 [] relayTrace
      relaySent :=
  messages_accounted relayParser (some relayText) stdio nextCalls [] .boot
    (kernelOpens_nextCalls _) relay_run.of_guarded

theorem writes_come_from_arrivals_relay :
    relaySent.threads.sent.map Sent.parcel = [(.lit "B", [72, 105])] ∧
      ∀ x ∈ relaySent.threads.sent, x.Safe ∧
        CameFrom (loadConfig relayParser (some relayText)).2 [] relayTrace x :=
  ⟨by decide +kernel,
    writes_come_from_arrivals relayParser (some relayText) stdio nextCalls []
      .boot (kernelOpens_nextCalls _) relay_clean relay_run⟩

end EzRouter
