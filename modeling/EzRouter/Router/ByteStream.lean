import EzRouter.Router.Pipeline

/-!
# The byte stream to a port

When no message is dropped and no lookup fails, the daemon is a set of byte
streams: what has been written for a destination and what is still on its way
there are, one after the other, the bytes that arrived for it.
-/

namespace EzRouter

open EzRouter.Foundation

def streamTo (dst : CStr) (parcels : List (CStr × List UInt8)) : List UInt8 :=
  (parcels.filter (·.1 = dst)).flatMap (·.2)

@[simp] theorem streamTo_append (dst : CStr)
    (xs ys : List (CStr × List UInt8)) :
    streamTo dst (xs ++ ys) = streamTo dst xs ++ streamTo dst ys := by
  simp [streamTo]

def Pipeline.onTheWay (s : Pipeline) : List (CStr × List UInt8) :=
  s.threads.inHand ++ (s.current.toList ++ s.queue.queue.ring.contents ++
    s.pending).map EventMsg.parcel

/-- The bytes that have arrived for a destination: each chunk once for each
route from its port to there. -/
def arrivedFor (c : Config) (dst : CStr) (trace : List PipelineEvent) :
    List UInt8 :=
  (trace.filterMap PipelineEvent.arrival).flatMap fun a =>
    ((routesOf c a).filter (·.dst.str = dst)).flatMap fun _ => a.chunk

/-- A push that returns has put its message into the queue, a lookup finds a
port, and that port is one that `port_send` writes to. -/
structure Lossless (s : Pipeline) (event : PipelineEvent) : Prop where
  push : ∀ w msg status, event = .queue (.pushReturned w msg status) →
    status = 0
  find : ∀ msg, event = .port (.find msg) →
    portFind s.threads.reactor msg.dst.str ≠ none
  send : ∀ status msg ref p, event = .port (.send status) →
    s.threads.held = some (msg, ref) → s.threads.reactor.deref ref = some p →
    p.type ≠ .udp

variable {c : Config} {handlers : List HandlerEntry} {r : Reactor}
  {q : EventQueue} {trace : List PipelineEvent} {s : Pipeline}

theorem drops_of_lossless
    (run : Run (Guarded (PipelineStep c handlers) Lossless) (.start r q) trace
      s) : drops (queueTrace trace) = 0 := by
  induction run with
  | refl => rfl
  | next _ hstep ih =>
      rcases hstep with ⟨hstep, hlossless⟩
      cases hstep with
      | pushReturned _ _ =>
          obtain rfl := hlossless.push _ _ _ rfl
          simpa [PipelineEvent.queueEvent, QueueEvent.drops] using ih
      | _ => simpa [PipelineEvent.queueEvent, QueueEvent.drops] using ih

theorem length_written (hinv : LookupInv (.start r))
    (run : Run (Guarded (PipelineStep c handlers) Lossless) (.start r q) trace
      s) :
    s.threads.sent.length + s.threads.inHand.length =
      (handled trace).length := by
  induction run with
  | refl => rfl
  | @next trace s t event hrun hstep ih =>
      rcases hstep with ⟨hstep, hlossless⟩
      have hthreads : LookupInv s.threads :=
        (threads_of_run hrun.of_guarded).invariant hinv fun _ _ _ h => h.step
      cases hstep with
      | find _ step =>
          obtain ⟨hfree, rfl⟩ := step
          have hempty : s.threads.held = none := hfree
          rcases Option.ne_none_iff_exists'.1 (hlossless.find _ rfl) with
            ⟨ref, hfind⟩
          simp only [Threads.inHand, hempty, Option.map_none, Option.toList_none,
            List.length_nil] at ih
          simpa [threadsHandle, hfind, Threads.inHand, PipelineEvent.find]
            using ih
      | send status step =>
          obtain ⟨hheld, rfl⟩ := step
          rcases Option.ne_none_iff_exists'.1 hheld with ⟨⟨msg, ref⟩, hmsg⟩
          rcases hthreads.held msg ref hmsg with ⟨p, hp, hfd, htype⟩
          have hwrites := portSend_writes hp hfd htype (fun _ => status)
            msg.payload msg.len
          rw [if_neg (hlossless.send _ _ _ _ rfl hmsg hp)] at hwrites
          simp only [Threads.inHand, hmsg, Option.map_some, Option.toList_some,
            List.length_singleton] at ih
          simp [threadsHandle, hmsg, hwrites, Threads.inHand,
            PipelineEvent.find, ih]
      | reactor own _ step =>
          obtain ⟨-, rfl⟩ := step
          rcases written_of_reactor s.threads own with ⟨hsent, hheld⟩
          simp only [Threads.inHand] at ih ⊢
          simpa [find_of_reactor own, hsent, hheld] using ih
      | _ => simpa [PipelineEvent.find] using ih

theorem parcels_routeLoop {lookup : CStr → Option PluginHandler} {len : Nat}
    (hlen : len ≤ maxData) (stale : Nat → EventMsg) (routes : List RouteDef)
    (hplain : ∀ route ∈ routes, lookup route.handler.str = none) (j : Nat)
    (buf : Buffer readBufSize) :
    (routeLoop lookup len stale routes j buf).reduceOption.map
        EventMsg.parcel =
      routes.map fun route => (route.dst.str, buf.bytes.take len) := by
  induction routes generalizing j with
  | nil => rfl
  | cons route routes ih =>
      have hnone := hplain route List.mem_cons_self
      have htail := ih (fun route' hroute =>
        hplain route' (List.mem_cons_of_mem _ hroute)) (j + 1)
      have hdelivery := congrArg Delivery.payload
        (delivery_routeMsg (stale j) route buf hlen)
      have hpayload : (routeMsg (stale j) route buf len).payload =
          buf.bytes.take len := hdelivery
      have hparcel : (routeMsg (stale j) route buf len).parcel =
          (route.dst.str, buf.bytes.take len) := by
        rw [EventMsg.parcel, hpayload]
        rfl
      simp only [routeLoop, hnone, routeStep, List.reduceOption_cons_of_some,
        List.map_cons, hparcel, htail]

theorem streamTo_offers {a : Arrival} (hchunk : a.chunk.length ≤ 1023)
    (hplain : Plain c handlers a) (dst : CStr) :
    streamTo dst ((offers c handlers a).map EventMsg.parcel) =
      ((routesOf c a).filter (·.dst.str = dst)).flatMap fun _ => a.chunk := by
  have hlen : a.chunk.length ≤ maxData := by
    unfold maxData
    omega
  have hparcels := parcels_routeLoop hlen a.stale (routesOf c a) hplain 0
    (readInto a.stack a.chunk)
  rw [take_readInto a.stack hchunk] at hparcels
  rw [offers, forward, ← routesOf, hparcels, streamTo, List.filter_map,
    List.flatMap_map]
  rfl

theorem streamTo_offered
    (hchunks : ∀ a ∈ trace.filterMap PipelineEvent.arrival,
      a.chunk.length ≤ 1023)
    (hplain : ∀ a ∈ trace.filterMap PipelineEvent.arrival,
      Plain c handlers a) (dst : CStr) :
    streamTo dst ((offered c handlers trace).map EventMsg.parcel) =
      arrivedFor c dst trace := by
  rw [offered, arrivedFor]
  generalize trace.filterMap PipelineEvent.arrival = arrivals at *
  induction arrivals with
  | nil => rfl
  | cons a arrivals ih =>
      have hhead := streamTo_offers (hchunks a List.mem_cons_self)
        (hplain a List.mem_cons_self) dst
      have htail := ih (fun b hb => hchunks b (List.mem_cons_of_mem _ hb))
        fun b hb => hplain b (List.mem_cons_of_mem _ hb)
      rw [List.flatMap_cons, List.map_append, streamTo_append, hhead, htail,
        List.flatMap_cons]

/-! ## Conservation -/

/--
From startup on, under every interleaving without a loss: for every
destination, the bytes given to `write` and those on the way are the bytes
that arrived for it, in order, none twice and none left out.
-/
theorem byte_stream (parse : CJsonParser) (file : Option (List UInt8))
    (inherited : Int → Bool) (calls : Nat → OpenCalls)
    (handlers : List HandlerEntry) (q : EventQueue)
    (hkernel : KernelOpens (.boot (loadConfig parse file).2.ports inherited)
      calls)
    {trace : List PipelineEvent} {s : Pipeline}
    (run : Run (Guarded (PipelineStep (loadConfig parse file).2 handlers)
      Lossless) (.start (startup parse file inherited calls) q) trace s)
    (hplain : ∀ a ∈ trace.filterMap PipelineEvent.arrival,
      Plain (loadConfig parse file).2 handlers a) (dst : CStr) :
    streamTo dst (s.threads.sent.map Sent.parcel) ++ streamTo dst s.onTheWay =
      arrivedFor (loadConfig parse file).2 dst trace := by
  have hinv := LookupInv.of_startup hkernel
  rcases accounted_of_run hinv run.of_guarded with
    ⟨horder, hcount, -, hwritten⟩
  -- Nothing was dropped, so that what is left out of neither list is all.
  have hall := horder.eq_of_length (by
    rw [hcount, drops_of_lossless run]
    simp only [List.length_append]
    omega)
  have hsent := hwritten.eq_of_length (by
    have hlength := length_written hinv run
    simpa using hlength)
  rw [← streamTo_offered (arrivals_fit run.of_guarded) hplain, ← hall,
    Pipeline.onTheWay, ← streamTo_append, ← List.append_assoc, hsent]
  simp only [List.map_append, List.append_assoc]

theorem relay_lossless :
    Run (Guarded (PipelineStep (loadConfig relayParser (some relayText)).2 [])
      Lossless) relayStart relayTrace relaySent := by
  have hread : Lossless relayStart (.received relayArrival) :=
    ⟨nofun, nofun, fun _ _ _ _ h => nomatch h⟩
  have hpush : Lossless relayRead
      (.queue (.pushReturned .reactor relayMsg 0)) := by
    refine ⟨?_, nofun, fun _ _ _ _ h => nomatch h⟩
    rintro w msg status ⟨⟩
    rfl
  have hpop : Lossless relayPushed
      (.queue (.popReturned .dispatcher relayMsg)) :=
    ⟨nofun, nofun, fun _ _ _ _ h => nomatch h⟩
  have hfind : Lossless relayPopped (.port (.find relayMsg)) := by
    refine ⟨nofun, ?_, fun _ _ _ _ h => nomatch h⟩
    rintro msg ⟨⟩
    decide +kernel
  have hsend : Lossless relayFound (.port (.send 2)) := by
    refine ⟨nofun, nofun, ?_⟩
    rintro status msg ref p ⟨⟩ hheld hp
    have htype : ∀ held ∈ relayFound.threads.held,
        ∀ p ∈ relayFound.threads.reactor.deref held.2, p.type ≠ .udp := by
      decide +kernel
    exact htype (msg, ref) hheld p hp
  exact .next (.next (.next (.next (.next .refl ⟨relay_read, hread⟩)
    ⟨relay_push, hpush⟩) ⟨relay_pop, hpop⟩) ⟨relay_find, hfind⟩)
    ⟨relay_send, hsend⟩

theorem byte_stream_relay :
    streamTo (.lit "B") (relaySent.threads.sent.map Sent.parcel) = [72, 105] ∧
      streamTo (.lit "B") (relaySent.threads.sent.map Sent.parcel) ++
          streamTo (.lit "B") relaySent.onTheWay =
        arrivedFor (loadConfig relayParser (some relayText)).2 (.lit "B")
          relayTrace := by
  refine ⟨by decide +kernel, ?_⟩
  refine byte_stream relayParser (some relayText) stdio nextCalls [] .boot
    (kernelOpens_nextCalls _) relay_lossless ?_ (.lit "B")
  intro a _ route _
  rfl

end EzRouter
