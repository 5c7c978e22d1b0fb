import EzRouter.Foundation.CondVar
import EzRouter.Router.EventQueue

/-!
# The queue and its condition variables

In `EventQueue` a thread that waits may resume at any moment.  Here it sleeps
on `cond_not_empty` or `cond_not_full` until it is signalled, its deadline has
passed or it wakes up for no reason.  The queue of this finer system runs as
before, and its signals are enough: a message in the queue never meets only
sleeping consumers.
-/

namespace EzRouter

open EzRouter.Foundation

variable {Tid : Type} [DecidableEq Tid]

structure QueueMonitor (Tid : Type) where
  system : QueueSystem Tid
  notEmpty : CondVar Tid
  notFull : CondVar Tid

omit [DecidableEq Tid] in
def QueueMonitor.start (q : EventQueue) : QueueMonitor Tid :=
  ⟨.start q, .init, .init⟩

/-- The thread is at the test of the loop of `queue_push`, for the first time
or after a wait. -/
def QueueMonitor.AtPush (s : QueueMonitor Tid) (t : Tid) (msg : EventMsg) :
    Prop :=
  s.system.threads t = .outside ∨
    s.system.threads t = .pushing msg ∧ t ∈ s.notFull.woken

def QueueMonitor.AtPop (s : QueueMonitor Tid) (t : Tid) : Prop :=
  s.system.threads t = .outside ∨
    s.system.threads t = .popping ∧ t ∈ s.notEmpty.woken

inductive MonitorStep : QueueMonitor Tid → Option (QueueEvent Tid) →
    QueueMonitor Tid → Prop where
  | pushReturns {s : QueueMonitor Tid} {t : Tid} {msg : EventMsg}
      {notEmpty : CondVar Tid} (entered : s.AtPush t msg)
      (room : s.system.queue.ring.full = false)
      (signal : s.notEmpty.Signals notEmpty) :
      MonitorStep s (some (pushEvent t msg (queuePush s.system.queue msg).1))
        ⟨s.system.pushEnds t msg (queuePush s.system.queue msg), notEmpty,
          s.notFull.resume t⟩
  | pushSleeps {s : QueueMonitor Tid} {t : Tid} {msg : EventMsg}
      (entered : s.AtPush t msg) (full : s.system.queue.ring.full = true) :
      MonitorStep s (some (pushEvent t msg (queuePush s.system.queue msg).1))
        ⟨s.system.pushEnds t msg (queuePush s.system.queue msg), s.notEmpty,
          (s.notFull.resume t).sleep t⟩
  | pushTimesOut {s : QueueMonitor Tid} {t : Tid} {msg : EventMsg}
      (waiting : s.system.threads t = .pushing msg)
      (awake : t ∈ s.notFull.woken) :
      MonitorStep s
        (some (pushEvent t msg
          (queuePushResumes s.system.queue msg .timedOut).1))
        ⟨s.system.pushEnds t msg
            (queuePushResumes s.system.queue msg .timedOut), s.notEmpty,
          s.notFull.resume t⟩
  | popReturns {s : QueueMonitor Tid} {t : Tid} {notFull : CondVar Tid}
      (entered : s.AtPop t) (pending : s.system.queue.ring.isEmpty = false)
      (signal : s.notFull.Signals notFull) :
      MonitorStep s (some (popEvent t (queuePop s.system.queue).1))
        ⟨s.system.popEnds t (queuePop s.system.queue), s.notEmpty.resume t,
          notFull⟩
  | popSleeps {s : QueueMonitor Tid} {t : Tid} (entered : s.AtPop t)
      (empty : s.system.queue.ring.isEmpty = true) :
      MonitorStep s (some (popEvent t (queuePop s.system.queue).1))
        ⟨s.system.popEnds t (queuePop s.system.queue),
          (s.notEmpty.resume t).sleep t, s.notFull⟩
  | getDropCount {s : QueueMonitor Tid} {t : Tid}
      (entered : s.system.threads t = .outside) :
      MonitorStep s
        (some (.dropCountRead t (queueGetDropCount s.system.queue))) s
  | popWakes {s : QueueMonitor Tid} {t : Tid} (asleep : t ∈ s.notEmpty.asleep) :
      MonitorStep s none { s with notEmpty := s.notEmpty.wake t }
  | pushWakes {s : QueueMonitor Tid} {t : Tid} (asleep : t ∈ s.notFull.asleep) :
      MonitorStep s none { s with notFull := s.notFull.wake t }

variable {q : EventQueue} {trace : List (Option (QueueEvent Tid))}
  {s s' : QueueMonitor Tid} {event : Option (QueueEvent Tid)} {t : Tid}
  {msg : EventMsg}

theorem queueStep_of_push (h : s.AtPush t msg) :
    QueueStep s.system (pushEvent t msg (queuePush s.system.queue msg).1)
      (s.system.pushEnds t msg (queuePush s.system.queue msg)) := by
  rcases h with houtside | ⟨hpushing, -⟩
  · exact .push msg houtside
  · exact .pushResumes .woken hpushing

theorem queueStep_of_pop (h : s.AtPop t) :
    QueueStep s.system (popEvent t (queuePop s.system.queue).1)
      (s.system.popEnds t (queuePop s.system.queue)) := by
  rcases h with houtside | ⟨hpopping, -⟩
  · exact .pop houtside
  · exact .popResumes hpopping

theorem MonitorStep.queueStep {e : QueueEvent Tid}
    (h : MonitorStep s (some e) s') : QueueStep s.system e s'.system := by
  cases h with
  | pushReturns entered _ _ => exact queueStep_of_push entered
  | pushSleeps entered _ => exact queueStep_of_push entered
  | pushTimesOut waiting _ => exact .pushResumes .timedOut waiting
  | popReturns entered _ _ => exact queueStep_of_pop entered
  | popSleeps entered _ => exact queueStep_of_pop entered
  | getDropCount entered => exact .getDropCount entered

theorem MonitorStep.system_of_none (h : MonitorStep s none s') :
    s'.system = s.system := by
  cases h <;> rfl

theorem queueRun_of_monitor (run : Run MonitorStep (.start q) trace s) :
    Run QueueStep (.start q) trace.reduceOption s.system := by
  apply run.project QueueMonitor.system id
  · rintro s event t e hstep rfl
    exact hstep.queueStep
  · rintro s event t hstep rfl
    exact hstep.system_of_none

/-! ## No message waits for a sleeper -/

structure MonitorInv (s : QueueMonitor Tid) : Prop where
  popping : ∀ t, s.system.threads t = .popping ↔ s.notEmpty.Waits t
  covered : s.notEmpty.Covers s.system.queue.ring.size

omit [DecidableEq Tid] in
theorem MonitorInv.start (q : EventQueue) :
    MonitorInv (QueueMonitor.start q : QueueMonitor Tid) where
  popping := by simp [QueueMonitor.start, QueueSystem.start]
  covered := by
    rintro ⟨t, ht⟩
    simp [QueueMonitor.start, CondVar.init] at ht

theorem waits_update (P : ThreadState → Prop) {threads : Tid → ThreadState}
    {c c' : CondVar Tid} (h : ∀ u, P (threads u) ↔ c.Waits u)
    {state : ThreadState} (hothers : ∀ u, u ≠ t → (c'.Waits u ↔ c.Waits u))
    (hself : P state ↔ c'.Waits t) (u : Tid) :
    P (Function.update threads t state u) ↔ c'.Waits u := by
  by_cases hu : u = t
  · subst hu
    rw [Function.update_self]
    exact hself
  · rw [Function.update_of_ne hu, hothers u hu]
    exact h u

omit [DecidableEq Tid] in
theorem MonitorInv.not_waits_push (h : MonitorInv s) (hpush : s.AtPush t msg) :
    ¬ s.notEmpty.Waits t := by
  rw [← h.popping]
  rcases hpush with houtside | ⟨hpushing, -⟩
  · simp [houtside]
  · simp [hpushing]

omit [DecidableEq Tid] in
theorem MonitorInv.awake_pop (h : MonitorInv s) (hpop : s.AtPop t) :
    t ∉ s.notEmpty.asleep := by
  intro hasleep
  rcases hpop with houtside | ⟨-, hwoken⟩
  · have hpopping := (h.popping t).2 (.inl hasleep)
    rw [houtside] at hpopping
    cases hpopping
  · exact Finset.disjoint_left.1 s.notEmpty.disjoint hasleep hwoken

theorem MonitorInv.step (h : MonitorInv s) (hstep : MonitorStep s event s') :
    MonitorInv s' := by
  cases hstep with
  | @pushReturns t msg notEmpty entered room signal =>
      constructor
      · refine waits_update (· = .popping) h.popping (fun u _ => signal.waits) ?_
        rw [signal.waits]
        simp [queuePush, room, h.not_waits_push entered]
      · have hsize := Ring.size_push msg room
        simp only [QueueSystem.pushEnds, queuePush, room, Bool.false_eq_true,
          if_false, hsize]
        exact h.covered.signals signal
  | @pushSleeps t msg entered full =>
      constructor
      · refine waits_update (· = .popping) h.popping (fun u _ => Iff.rfl) ?_
        simp [queuePush, full, h.not_waits_push entered]
      · simpa [QueueSystem.pushEnds, queuePush, full] using h.covered
  | @pushTimesOut t msg waiting awake =>
      constructor
      · refine waits_update (· = .popping) h.popping (fun u _ => Iff.rfl) ?_
        have hnot := h.not_waits_push (.inr ⟨waiting, awake⟩)
        simp [queuePushResumes, hnot]
      · simpa [QueueSystem.pushEnds, queuePushResumes] using h.covered
  | @popReturns t notFull entered pending signal =>
      constructor
      · refine waits_update (· = .popping) h.popping
          (fun u hu => CondVar.waits_resume_of_ne hu) ?_
        have hnot := CondVar.not_waits_resume (h.awake_pop entered)
        simp [queuePop, pending, hnot]
      · have hsize := Ring.size_pop pending
        have hcovered := h.covered
        rw [← hsize] at hcovered
        simpa [QueueSystem.popEnds, queuePop, pending] using hcovered.resume
  | @popSleeps t entered empty =>
      constructor
      · refine waits_update (· = .popping) h.popping (fun u hu => ?_) ?_
        · rw [CondVar.waits_sleep, or_iff_right hu,
            CondVar.waits_resume_of_ne hu]
        · simp [queuePop, empty]
      · have hsize := Ring.isEmpty_iff.1 empty
        simp only [QueueSystem.popEnds, queuePop, empty, if_true, hsize]
        exact CondVar.covers_zero _
  | getDropCount _ => exact h
  | popWakes asleep =>
      exact ⟨fun u => (h.popping u).trans (CondVar.waits_wake asleep).symm,
        h.covered.wake asleep⟩
  | pushWakes asleep => exact ⟨h.popping, h.covered⟩

theorem MonitorInv.of_run (run : Run MonitorStep (.start q) trace s) :
    MonitorInv s :=
  run.invariant (.start q) fun _ _ _ h => h.step

theorem MonitorInv.delivers (h : MonitorInv s)
    (hwaits : s.system.threads t = .popping)
    (hpending : s.system.queue.ring.contents ≠ []) :
    ∃ u ∈ s.notEmpty.woken, ∃ s',
      MonitorStep s (some (.popReturned u s.system.queue.ring.front)) s' := by
  have hsize : 0 < s.system.queue.ring.size := by
    rw [← Ring.length_contents]
    exact List.length_pos_iff.2 hpending
  have hnonempty : s.system.queue.ring.isEmpty = false := by
    cases hempty : s.system.queue.ring.isEmpty with
    | false => rfl
    | true =>
        have := Ring.isEmpty_iff.1 hempty
        omega
  rcases h.covered.woken_nonempty hsize ((h.popping t).1 hwaits) with ⟨u, hu⟩
  obtain ⟨notFull, hsignal⟩ := s.notFull.exists_signals
  have hpop : s.AtPop u := .inr ⟨(h.popping u).2 (.inr hu), hu⟩
  have hstep := MonitorStep.popReturns hpop hnonempty hsignal
  simp only [queuePop, hnonempty, Bool.false_eq_true, if_false, popEvent]
    at hstep
  exact ⟨u, hu, _, hstep⟩

/--
However many threads push and pop: while a consumer sleeps, there are no more
messages in the queue than consumers that have been woken; and when a message
is in the queue and a thread inside `queue_pop`, some thread that is there can
take the message at the head in its next section.
-/
theorem no_wakeup_lost (run : Run MonitorStep (.start q) trace s) :
    (s.notEmpty.asleep.Nonempty →
        s.system.queue.ring.contents.length ≤ s.notEmpty.woken.card) ∧
      ∀ t, s.system.threads t = .popping →
        s.system.queue.ring.contents ≠ [] →
        ∃ u ∈ s.notEmpty.woken, ∃ s', MonitorStep s
          (some (.popReturned u s.system.queue.ring.front)) s' := by
  have hinv := MonitorInv.of_run run
  refine ⟨?_, fun t => hinv.delivers⟩
  rw [Ring.length_contents]
  exact hinv.covered

def sleepingConsumer : QueueMonitor Nat where
  system := (QueueSystem.start .boot).popEnds 0 (queuePop (queueInit .boot))
  notEmpty := (CondVar.init.resume 0).sleep 0
  notFull := .init

def signalledConsumer : QueueMonitor Nat where
  system := sleepingConsumer.system.pushEnds 1 .zero
    (queuePush sleepingConsumer.system.queue .zero)
  notEmpty := sleepingConsumer.notEmpty.wake 0
  notFull := sleepingConsumer.notFull.resume 1

theorem no_wakeup_lost_signalled :
    ∃ u ∈ signalledConsumer.notEmpty.woken, ∃ s', MonitorStep signalledConsumer
      (some (.popReturned u signalledConsumer.system.queue.ring.front)) s' := by
  have hrun : Run MonitorStep (.start .boot)
      [some (.popWaits 0), some (.pushReturned 1 .zero 0)]
      signalledConsumer :=
    .next (.next .refl (.popSleeps (.inl rfl) rfl))
      (.pushReturns (.inl rfl) rfl (.one 0 (by decide)))
  exact (no_wakeup_lost hrun).2 0 rfl (by decide +kernel)

end EzRouter
