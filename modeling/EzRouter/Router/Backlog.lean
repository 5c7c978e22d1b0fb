import EzRouter.Router.Pipeline
import EzRouter.Router.QueueTimeouts

/-!
# Working off the backlog

The data path over the queue with its condition variables: a thread that waits
there gets up when it is signalled, when its deadline has passed or for no
reason.  It cannot get stuck.  From every state that a run reaches, the two
threads can go on without new traffic, and without anyone getting up
unsignalled, until nothing is on its way any more.
-/

namespace EzRouter

open EzRouter.Foundation

structure DataPath where
  threads : Threads
  queue : TimedMonitor Worker
  pending : List EventMsg
  current : Option EventMsg

def DataPath.start (r : Reactor) (q : EventQueue) : DataPath :=
  ⟨.start r, .start q, [], none⟩

def DataPath.pipeline (s : DataPath) : Pipeline :=
  ⟨s.threads, s.queue.monitor.system, s.pending, s.current⟩

/-- A step without an event is a thread that gets up from its sleep unsignalled:
it still has to wait for the lock. -/
inductive DataPathStep (c : Config) (handlers : List HandlerEntry) :
    DataPath → Option PipelineEvent → DataPath → Prop where
  | queue {s t : DataPath} {event : QueueEvent Worker}
      (step : PipelineStep c handlers s.pipeline (.queue event) t.pipeline)
      (section_ : TimedStep s.queue (some event) t.queue) :
      DataPathStep c handlers s (some (.queue event)) t
  | other {s t : DataPath} {event : PipelineEvent}
      (step : PipelineStep c handlers s.pipeline event t.pipeline)
      (aside : event.queueEvent = none) (still : t.queue = s.queue) :
      DataPathStep c handlers s (some event) t
  | getsUp {s : DataPath} {queue : TimedMonitor Worker}
      (step : TimedStep s.queue none queue) :
      DataPathStep c handlers s none { s with queue := queue }

variable {c : Config} {handlers : List HandlerEntry} {r : Reactor}
  {q : EventQueue} {s t : DataPath} {event : Option PipelineEvent}
  {trace more : List (Option PipelineEvent)}

theorem DataPathStep.pipelineStep {event : PipelineEvent}
    (h : DataPathStep c handlers s (some event) t) :
    PipelineStep c handlers s.pipeline event t.pipeline := by
  cases h with
  | queue step _ => exact step
  | other step _ _ => exact step

theorem pipeline_of_run
    (run : Run (DataPathStep c handlers) (.start r q) trace s) :
    Run (PipelineStep c handlers) (.start r q) trace.reduceOption
      s.pipeline := by
  apply run.project DataPath.pipeline id
  · rintro s event t e hstep rfl
    exact hstep.pipelineStep
  · rintro s event t hstep rfl
    cases hstep with
    | getsUp step =>
        simp only [DataPath.pipeline, step.monitorStep.system_of_none]

/-! ## Where the threads are -/

/-- The reactor waits only to push the first of its messages, the dispatcher
only to pop. -/
structure PipelineInv (s : Pipeline) : Prop where
  reactor : s.queue.threads .reactor = .outside ∨ ∃ msg rest,
    s.pending = msg :: rest ∧ s.queue.threads .reactor = .pushing msg
  dispatcher : s.queue.threads .dispatcher = .outside ∨
    s.queue.threads .dispatcher = .popping

theorem PipelineInv.start (r : Reactor) (q : EventQueue) :
    PipelineInv (.start r q) where
  reactor := .inl rfl
  dispatcher := .inl rfl

theorem PipelineInv.step {s t : Pipeline} {event : PipelineEvent}
    (h : PipelineInv s) (hstep : PipelineStep c handlers s event t) :
    PipelineInv t := by
  cases hstep with
  | received _ drained _ _ _ =>
      refine ⟨.inl ?_, h.dispatcher⟩
      rcases h.reactor with houtside | ⟨msg, rest, hpending, -⟩
      · exact houtside
      · rw [drained] at hpending
        cases hpending
  | pushWaits first hqueue =>
      have hthreads := hqueue.threads_eq
      refine ⟨.inr ⟨_, _, first, ?_⟩, ?_⟩
      · simp [hthreads, QueueEvent.leaves]
      · simpa [hthreads, QueueEvent.leaves] using h.dispatcher
  | pushReturned first hqueue =>
      have hthreads := hqueue.threads_eq
      refine ⟨.inl ?_, ?_⟩
      · simp [hthreads, QueueEvent.leaves]
      · simpa [hthreads, QueueEvent.leaves] using h.dispatcher
  | popWaits free hqueue =>
      have hthreads := hqueue.threads_eq
      refine ⟨?_, .inr ?_⟩
      · simpa [hthreads, QueueEvent.leaves] using h.reactor
      · simp [hthreads, QueueEvent.leaves]
  | popReturned free hqueue =>
      have hthreads := hqueue.threads_eq
      refine ⟨?_, .inl ?_⟩
      · simpa [hthreads, QueueEvent.leaves] using h.reactor
      · simp [hthreads, QueueEvent.leaves]
  | find _ _ => exact ⟨h.reactor, h.dispatcher⟩
  | send _ _ => exact ⟨h.reactor, h.dispatcher⟩
  | reactor _ _ _ => exact ⟨h.reactor, h.dispatcher⟩

structure DataPathInv (s : DataPath) : Prop where
  pipeline : PipelineInv s.pipeline
  queue : TimedInv s.queue

theorem DataPathInv.start (r : Reactor) (q : EventQueue) :
    DataPathInv (.start r q) :=
  ⟨.start r q, .start q⟩

theorem DataPathInv.step (h : DataPathInv s)
    (hstep : DataPathStep c handlers s event t) : DataPathInv t := by
  cases hstep with
  | queue step section_ => exact ⟨h.pipeline.step step, h.queue.step section_⟩
  | other step _ still =>
      exact ⟨h.pipeline.step step, still ▸ h.queue⟩
  | getsUp step =>
      refine ⟨?_, h.queue.step step⟩
      simp only [DataPath.pipeline, step.monitorStep.system_of_none]
      exact h.pipeline

theorem DataPathInv.reactor_of_pushing (h : DataPathInv s) {w : Worker}
    (hpushing : (s.queue.monitor.system.threads w).IsPushing) :
    w = .reactor := by
  obtain ⟨msg, hmsg⟩ := hpushing
  cases w with
  | reactor => rfl
  | dispatcher =>
      rcases h.pipeline.dispatcher with hstate | hstate <;>
        cases hstate.symm.trans hmsg

theorem DataPathInv.dispatcher_of_popping (h : DataPathInv s) {w : Worker}
    (hpopping : s.queue.monitor.system.threads w = .popping) :
    w = .dispatcher := by
  cases w with
  | dispatcher => rfl
  | reactor =>
      rcases h.pipeline.reactor with hstate | ⟨msg, rest, -, hstate⟩ <;>
        cases hstate.symm.trans hpopping

def PipelineEvent.movesOn : PipelineEvent → Bool
  | .queue (.pushReturned _ _ _) | .queue (.popReturned _ _) => true
  | .port (.find _) | .port (.send _) => true
  | _ => false

def Pipeline.backlog (s : Pipeline) : Nat :=
  4 * s.pending.length + 3 * s.queue.queue.ring.size +
    2 * s.current.toList.length + s.threads.held.toList.length

theorem size_of_push {x y : QueueSystem Worker} {w : Worker} {msg : EventMsg}
    {status : Int} (h : QueueStep x (.pushReturned w msg status) y) :
    y.queue.ring.size ≤ x.queue.ring.size + 1 := by
  have heffect := h.effect
  obtain ⟨q', hq'⟩ : ∃ q', y.queue = q' := ⟨_, rfl⟩
  rw [hq'] at heffect ⊢
  cases heffect with
  | accepts _ _ room => exact (Ring.size_push msg room).le
  | drops _ _ => exact Nat.le_succ _

theorem size_of_pop {x y : QueueSystem Worker} {w : Worker} {msg : EventMsg}
    (h : QueueStep x (.popReturned w msg) y) :
    y.queue.ring.size + 1 = x.queue.ring.size := by
  have heffect := h.effect
  obtain ⟨q', hq'⟩ : ∃ q', y.queue = q' := ⟨_, rfl⟩
  rw [hq'] at heffect ⊢
  cases heffect with
  | delivers _ pending => exact Ring.size_pop pending

theorem backlog_lt {s t : Pipeline} {event : PipelineEvent}
    (hstep : PipelineStep c handlers s event t)
    (hmoves : event.movesOn = true) : t.backlog < s.backlog := by
  cases hstep with
  | received _ _ _ _ _ | pushWaits _ _ | popWaits _ _ => cases hmoves
  | pushReturned first section_ =>
      have hsize := size_of_push section_
      simp only [Pipeline.backlog, first, List.length_cons]
      omega
  | popReturned free section_ =>
      have hsize := size_of_pop section_
      simp only [Pipeline.backlog, free.1, Option.toList_some,
        Option.toList_none, List.length_singleton, List.length_nil]
      omega
  | @find msg _ popped step =>
      obtain ⟨hfree, rfl⟩ := step
      have hheld : (threadsHandle s.threads (.find msg)).held.toList.length ≤
          1 := by
        cases (threadsHandle s.threads (.find msg)).held <;> simp
      simp only [Pipeline.backlog, popped, Option.toList_some,
        Option.toList_none, List.length_singleton, List.length_nil]
      omega
  | send status step =>
      obtain ⟨hheld, rfl⟩ := step
      rcases Option.ne_none_iff_exists'.1 hheld with ⟨⟨msg, ref⟩, hmsg⟩
      simp [Pipeline.backlog, threadsHandle, hmsg]
  | @reactor event _ own _ _ => cases event <;> cases own <;> cases hmoves

structure DataPath.Idle (s : DataPath) : Prop where
  pending : s.pending = []
  queue : s.queue.monitor.system.queue.ring.contents = []
  current : s.current = none
  held : s.threads.held = none

def DataPath.Advances (c : Config) (handlers : List HandlerEntry)
    (s : DataPath) : Prop :=
  ∃ event t, DataPathStep c handlers s (some event) t ∧ event.movesOn = true

theorem find_advances (hheld : s.threads.held = none) {msg : EventMsg}
    (hcurrent : s.current = some msg) : s.Advances c handlers := by
  refine ⟨.port (.find msg), { s with
    threads := threadsHandle s.threads (.find msg), current := none },
    .other ?_ rfl rfl, rfl⟩
  exact .find hcurrent ⟨hheld, rfl⟩

theorem send_advances (hheld : s.threads.held ≠ none) :
    s.Advances c handlers := by
  refine ⟨.port (.send 0), { s with
    threads := threadsHandle s.threads (.send 0) }, .other ?_ rfl rfl, rfl⟩
  exact .send 0 ⟨hheld, rfl⟩

theorem pop_advances (h : DataPathInv s) (hcurrent : s.current = none)
    (hheld : s.threads.held = none)
    (hpending : s.queue.monitor.system.queue.ring.isEmpty = false) :
    s.Advances c handlers := by
  have henter : s.queue.monitor.AtPop .dispatcher := by
    rcases h.pipeline.dispatcher with houtside | hpopping
    · exact .inl houtside
    · refine .inr ⟨hpopping, ?_⟩
      -- The consumer on its way can only be the dispatcher itself.
      have hsize := Ring.size_pop hpending
      have hwaits := (h.queue.monitor.popping .dispatcher).1 hpopping
      rcases h.queue.monitor.covered.woken_nonempty (by omega) hwaits with
        ⟨w, hw⟩
      have hw' := (h.queue.monitor.popping w).2 (.inr hw)
      rwa [h.dispatcher_of_popping hw'] at hw
  rcases h.queue.pops henter hpending with ⟨queue, hstep⟩
  refine ⟨_, { s with
    queue := queue
    current := some s.queue.monitor.system.queue.ring.front },
    .queue ?_ hstep, rfl⟩
  exact .popReturned ⟨hcurrent, hheld⟩ hstep.monitorStep.queueStep

theorem DataPathInv.push_step (h : DataPathInv s) {msg : EventMsg}
    {rest : List EventMsg} (hpending : s.pending = msg :: rest)
    (hroom : s.queue.monitor.system.queue.ring.full = false) :
    ∃ status queue,
      TimedStep s.queue (some (.pushReturned .reactor msg status)) queue := by
  rcases h.pipeline.reactor with houtside | ⟨msg', rest', hfirst, hpushing⟩
  · have hlive := h.queue.not_expired
      (h.queue.not_waits_pop (.inl houtside))
    exact ⟨0, TimedStep.of_push (.inl houtside) hlive hroom⟩
  · change s.pending = _ at hfirst
    obtain ⟨rfl, rfl⟩ := List.cons.inj (hpending.symm.trans hfirst)
    by_cases hgone : Worker.reactor ∈ s.queue.expired
    · exact ⟨-1, h.queue.gives_up hpushing hgone⟩
    · rcases h.queue.taker ⟨msg, hpushing⟩ hgone hroom with ⟨w, hw, -⟩
      have hw' := (h.queue.pushing w).2 (.inr hw)
      rw [h.reactor_of_pushing hw'] at hw
      exact ⟨0, TimedStep.of_push (.inr ⟨hpushing, hw⟩) hgone hroom⟩

theorem push_advances (h : DataPathInv s) {msg : EventMsg}
    {rest : List EventMsg} (hpending : s.pending = msg :: rest)
    (hroom : s.queue.monitor.system.queue.ring.full = false) :
    s.Advances c handlers := by
  rcases h.push_step hpending hroom with ⟨status, queue, hstep⟩
  refine ⟨_, { s with queue := queue, pending := rest }, .queue ?_ hstep, rfl⟩
  exact .pushReturned hpending hstep.monitorStep.queueStep

/-- The dispatcher goes first, so that a push finds room. -/
theorem advances (h : DataPathInv s) (hbusy : ¬ s.Idle) :
    s.Advances c handlers := by
  by_cases hheld : s.threads.held = none
  case neg => exact send_advances hheld
  cases hcurrent : s.current with
  | some msg => exact find_advances hheld hcurrent
  | none =>
      cases hempty : s.queue.monitor.system.queue.ring.isEmpty with
      | false => exact pop_advances h hcurrent hheld hempty
      | true =>
          have hsize := Ring.isEmpty_iff.1 hempty
          cases hpending : s.pending with
          | nil =>
              have hcontents :
                  s.queue.monitor.system.queue.ring.contents = [] := by
                rw [← List.length_eq_zero_iff, Ring.length_contents, hsize]
              exact absurd ⟨hpending, hcontents, hcurrent, hheld⟩ hbusy
          | cons msg rest =>
              refine push_advances h hpending ?_
              cases hfull : s.queue.monitor.system.queue.ring.full with
              | false => rfl
              | true =>
                  have hlast := Ring.full_iff.1 hfull
                  rw [hsize] at hlast
                  cases hlast

/-! ## Nothing gets stuck -/

/-- Neither does a chunk arrive nor does anyone get up unsignalled. -/
def WorksOff (_ : DataPath) (event : Option PipelineEvent) : Prop :=
  ∃ e, event = some e ∧ e.movesOn = true

theorem DataPathInv.expired_of_idle (h : DataPathInv s) (hidle : s.Idle) :
    s.queue.expired = ∅ := by
  refine Finset.eq_empty_of_forall_notMem fun w hw => ?_
  have hpushing := (h.queue.pushing w).2 (.inr (h.queue.expired hw))
  obtain rfl := h.reactor_of_pushing hpushing
  obtain ⟨msg, hmsg⟩ := hpushing
  rcases h.pipeline.reactor with houtside | ⟨msg', rest, hpending, -⟩
  · cases houtside.symm.trans hmsg
  · change s.pending = _ at hpending
    rw [hidle.pending] at hpending
    cases hpending

theorem arrival_of_movesOn {event : PipelineEvent}
    (h : event.movesOn = true) : event.arrival = none := by
  cases event with
  | received _ => cases h
  | queue _ | port _ => rfl

theorem quiet_of_works_off
    (run : Run (Guarded (DataPathStep c handlers) WorksOff) s more t) :
    more.reduceOption.filterMap PipelineEvent.arrival = [] ∧
      drops (queueTrace more.reduceOption) + t.queue.expired.card =
        s.queue.expired.card := by
  induction run with
  | refl => exact ⟨rfl, Nat.zero_add _⟩
  | next _ hstep ih =>
      obtain ⟨hstep, event, rfl, hmoves⟩ := hstep
      rw [List.reduceOption_append, List.reduceOption_singleton,
        Option.toList_some, filterMap_snoc, ih.1, arrival_of_movesOn hmoves,
        queueTrace_snoc]
      refine ⟨rfl, ?_⟩
      cases hstep with
      | queue _ section_ =>
          have hcard := section_.card_expired
          simp only [PipelineEvent.queueEvent, Option.toList_some, drops_snoc]
          omega
      | other _ aside still =>
          rw [aside, still]
          simpa using ih.2

/--
From every state that a run from startup reaches, the two threads can go on
without new chunks, and without anyone getting up unsignalled, until nothing
is on its way any more.  Every message that the route loop has made is then
handled, was dropped before, or is the one whose push had timed out already.
-/
theorem backlog_drains (parse : CJsonParser) (file : Option (List UInt8))
    (inherited : Int → Bool) (calls : Nat → OpenCalls)
    (handlers : List HandlerEntry) (q : EventQueue)
    (hkernel : KernelOpens (.boot (loadConfig parse file).2.ports inherited)
      calls)
    {trace : List (Option PipelineEvent)} {s : DataPath}
    (run : Run (DataPathStep (loadConfig parse file).2 handlers)
      (.start (startup parse file inherited calls) q) trace s) :
    ∃ more t, Run (Guarded (DataPathStep (loadConfig parse file).2 handlers)
        WorksOff) s more t ∧ t.Idle ∧
      (offered (loadConfig parse file).2 handlers trace.reduceOption).length =
        (handled (trace ++ more).reduceOption).length +
          drops (queueTrace trace.reduceOption) + s.queue.expired.card := by
  have hinv : DataPathInv s :=
    run.invariant (.start _ _) fun _ _ _ h hstep => h.step hstep
  obtain ⟨more, t, hmore, hidle⟩ : ∃ more t,
      Run (Guarded (DataPathStep (loadConfig parse file).2 handlers) WorksOff)
        s more t ∧ t.Idle := by
    refine Run.reaches DataPathInv DataPath.Idle
      (fun s => s.pipeline.backlog) ?_ hinv
    intro s h hbusy
    rcases advances h hbusy with ⟨event, t, hstep, hmoves⟩
    exact ⟨some event, t, ⟨hstep, event, rfl, hmoves⟩, h.step hstep,
      backlog_lt hstep.pipelineStep hmoves⟩
  refine ⟨more, t, hmore, hidle, ?_⟩
  have hrun := run.trans hmore.of_guarded
  have hend : DataPathInv t :=
    hrun.invariant (.start _ _) fun _ _ _ h hstep => h.step hstep
  rcases quiet_of_works_off hmore with ⟨hquiet, hlost⟩
  rw [hend.expired_of_idle hidle, Finset.card_empty, Nat.add_zero] at hlost
  have haccount :=
    (accounted_of_run (.of_startup hkernel) (pipeline_of_run hrun)).count
  rw [List.reduceOption_append, offered, List.filterMap_append, hquiet,
    List.append_nil, ← offered, queueTrace, List.filterMap_append,
    ← queueTrace, ← queueTrace, drops, List.countP_append, ← drops, ← drops,
    hlost] at haccount
  have hcurrent : t.pipeline.current = none := hidle.current
  have hpending : t.pipeline.pending = [] := hidle.pending
  have hqueue : t.pipeline.queue.queue.ring.contents = [] := hidle.queue
  rw [hcurrent, hpending, hqueue] at haccount
  rw [List.reduceOption_append]
  simpa [Nat.add_assoc] using haccount

/-- The dispatcher sleeps in `queue_pop` when the chunk comes in. -/
def relayAsleep : DataPath where
  threads := relayStart.threads
  queue :=
    ⟨⟨relayStart.queue.popEnds .dispatcher (queuePop relayStart.queue.queue),
      (CondVar.init.resume .dispatcher).sleep .dispatcher, .init⟩, ∅⟩
  pending := []
  current := none

def relayOffered : DataPath := { relayAsleep with pending := [relayMsg] }

def relayEvents : List (Option PipelineEvent) :=
  [some (.queue (.popWaits .dispatcher)), some (.received relayArrival)]

theorem backlog_drains_relay :
    ∃ more t, Run (Guarded (DataPathStep
        (loadConfig relayParser (some relayText)).2 []) WorksOff)
        relayOffered more t ∧ t.Idle ∧
      (offered (loadConfig relayParser (some relayText)).2 []
          relayEvents.reduceOption).length =
        (handled (relayEvents ++ more).reduceOption).length +
          drops (queueTrace relayEvents.reduceOption) +
          relayOffered.queue.expired.card := by
  have hsleeps : DataPathStep (loadConfig relayParser (some relayText)).2 []
      (.start (startup relayParser (some relayText) stdio nextCalls) .boot)
      (some (.queue (.popWaits .dispatcher))) relayAsleep :=
    .queue (.popWaits ⟨rfl, rfl⟩ (.pop rfl))
      (.section_ (.popSleeps (.inl rfl) rfl) (by decide))
  have hreceived : DataPathStep (loadConfig relayParser (some relayText)).2 []
      relayAsleep (some (.received relayArrival)) relayOffered :=
    .other (relay_received rfl rfl) rfl rfl
  exact backlog_drains relayParser (some relayText) stdio nextCalls [] .boot
    (kernelOpens_nextCalls _) (.next (.next .refl hsleeps) hreceived)

end EzRouter
