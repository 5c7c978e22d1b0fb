import EzRouter.Router.QueueWakeups

/-!
# Timeouts that are decided

A thread whose deadline passes while it waits for room will find `ETIMEDOUT`
when it has the lock again and drop its message, whatever the queue looks like
by then.  Here the threads that have been woken by their deadline are kept
apart from those that have been signalled.  Room in the queue never meets only
producers that sleep or have given up.
-/

namespace EzRouter

open EzRouter.Foundation

/-- The thread of an event and the state that the event leaves it in. -/
def QueueEvent.leaves {Tid : Type} : QueueEvent Tid → Tid × ThreadState
  | .pushReturned t _ _ => (t, .outside)
  | .pushWaits t msg => (t, .pushing msg)
  | .popReturned t _ => (t, .outside)
  | .popWaits t => (t, .popping)
  | .dropCountRead t _ => (t, .outside)

variable {Tid : Type} [DecidableEq Tid]

theorem QueueStep.threads_eq {s s' : QueueSystem Tid} {event : QueueEvent Tid}
    (h : QueueStep s event s') :
    s'.threads = Function.update s.threads event.leaves.1 event.leaves.2 := by
  cases h with
  | @push t msg _ =>
      cases hpush : (queuePush s.queue msg).1 <;>
        simp [QueueSystem.pushEnds, pushEvent, QueueEvent.leaves, hpush]
  | @pushResumes t msg rc _ =>
      cases hpush : (queuePushResumes s.queue msg rc).1 <;>
        simp [QueueSystem.pushEnds, pushEvent, QueueEvent.leaves, hpush]
  | @pop t _ =>
      cases hpop : (queuePop s.queue).1 <;>
        simp [QueueSystem.popEnds, popEvent, QueueEvent.leaves, hpop]
  | @popResumes t _ =>
      cases hpop : (queuePop s.queue).1 <;>
        simp [QueueSystem.popEnds, popEvent, QueueEvent.leaves, hpop]
  | @getDropCount t entered =>
      simp [QueueEvent.leaves, ← entered]

/-- `expired` are the threads for which `pthread_cond_timedwait` will return
`ETIMEDOUT`. -/
structure TimedMonitor (Tid : Type) where
  monitor : QueueMonitor Tid
  expired : Finset Tid

omit [DecidableEq Tid] in
def TimedMonitor.start (q : EventQueue) : TimedMonitor Tid := ⟨.start q, ∅⟩

inductive TimedStep : TimedMonitor Tid → Option (QueueEvent Tid) →
    TimedMonitor Tid → Prop where
  | section_ {s : TimedMonitor Tid} {event : QueueEvent Tid}
      {m : QueueMonitor Tid} (step : MonitorStep s.monitor (some event) m)
      -- A message is dropped exactly when its deadline has passed.
      (decided : event.drops = true ↔ event.leaves.1 ∈ s.expired) :
      TimedStep s (some event) ⟨m, s.expired.erase event.leaves.1⟩
  | wakes {s : TimedMonitor Tid} {m : QueueMonitor Tid}
      (step : MonitorStep s.monitor none m) :
      TimedStep s none { s with monitor := m }
  | timesOut {s : TimedMonitor Tid} {t : Tid}
      (asleep : t ∈ s.monitor.notFull.asleep) :
      TimedStep s none
        ⟨{ s.monitor with notFull := s.monitor.notFull.wake t },
          insert t s.expired⟩

variable {q : EventQueue} {s s' : TimedMonitor Tid} {m : QueueMonitor Tid}
  {event : Option (QueueEvent Tid)} {t : Tid} {msg : EventMsg}
  {trace : List (Option (QueueEvent Tid))}

theorem TimedStep.monitorStep (h : TimedStep s event s') :
    MonitorStep s.monitor event s'.monitor := by
  cases h with
  | section_ step _ => exact step
  | wakes step => exact step
  | timesOut asleep => exact .pushWakes asleep

/-- `cond_not_full` for those who will use the room that they find. -/
def TimedMonitor.takers (s : TimedMonitor Tid) : CondVar Tid :=
  s.monitor.notFull.without s.expired

/-! ## No room waits for a sleeper -/

def ThreadState.IsPushing (state : ThreadState) : Prop :=
  ∃ msg, state = .pushing msg

structure TimedInv (s : TimedMonitor Tid) : Prop where
  monitor : MonitorInv s.monitor
  pushing : ∀ t, (s.monitor.system.threads t).IsPushing ↔
    s.monitor.notFull.Waits t
  expired : s.expired ⊆ s.monitor.notFull.woken
  covered : s.takers.Covers s.monitor.system.queue.ring.room

theorem TimedInv.start (q : EventQueue) :
    TimedInv (TimedMonitor.start q : TimedMonitor Tid) where
  monitor := .start q
  pushing := by
    simp [TimedMonitor.start, QueueMonitor.start, QueueSystem.start,
      ThreadState.IsPushing]
  expired := Finset.empty_subset _
  covered := by
    rintro ⟨t, ht⟩
    simp [TimedMonitor.start, TimedMonitor.takers, QueueMonitor.start,
      CondVar.without, CondVar.init] at ht

theorem TimedInv.awake_push (h : TimedInv s) (hpush : s.monitor.AtPush t msg) :
    t ∉ s.monitor.notFull.asleep := by
  intro hasleep
  rcases hpush with houtside | ⟨-, hwoken⟩
  · obtain ⟨msg', hpushing⟩ := (h.pushing t).2 (.inl hasleep)
    rw [houtside] at hpushing
    cases hpushing
  · exact Finset.disjoint_left.1 s.monitor.notFull.disjoint hasleep hwoken

theorem TimedInv.not_waits_pop (h : TimedInv s) (hpop : s.monitor.AtPop t) :
    ¬ s.monitor.notFull.Waits t := by
  rw [← h.pushing]
  rintro ⟨msg, hpushing⟩
  rcases hpop with houtside | ⟨hpopping, -⟩
  · rw [houtside] at hpushing
    cases hpushing
  · rw [hpopping] at hpushing
    cases hpushing

theorem TimedInv.not_expired (h : TimedInv s)
    (hnot : ¬ s.monitor.notFull.Waits t) : t ∉ s.expired :=
  fun hmem => hnot (.inr (h.expired hmem))

theorem TimedInv.section_ (h : TimedInv s) {event : QueueEvent Tid}
    (step : MonitorStep s.monitor (some event) m)
    (decided : event.drops = true ↔ event.leaves.1 ∈ s.expired) :
    TimedInv ⟨m, s.expired.erase event.leaves.1⟩ := by
  have hmonitor := h.monitor.step step
  cases step with
  | @pushReturns t msg notEmpty entered room signal =>
      have hevent : pushEvent t msg (queuePush s.monitor.system.queue msg).1 =
          .pushReturned t msg 0 := by
        simp [queuePush, room, pushEvent]
      rw [hevent] at decided ⊢
      have hlive : t ∉ s.expired := by
        simpa [QueueEvent.drops, QueueEvent.leaves] using decided
      refine ⟨hmonitor, ?_, Finset.erase_subset_erase t h.expired, ?_⟩
      · refine waits_update ThreadState.IsPushing h.pushing
          (fun u hu => CondVar.waits_resume_of_ne hu) ?_
        have hnot := CondVar.not_waits_resume (h.awake_push entered)
        simp [ThreadState.IsPushing, queuePush, room, hnot]
      · have hroom := Ring.room_push msg room
        have hcovered := h.covered
        rw [← hroom] at hcovered
        simp only [TimedMonitor.takers, QueueEvent.leaves,
          QueueSystem.pushEnds, queuePush, room, Bool.false_eq_true, if_false,
          Finset.erase_eq_of_notMem hlive, CondVar.without_resume]
        exact hcovered.resume
  | @pushSleeps t msg entered full =>
      have hevent : pushEvent t msg (queuePush s.monitor.system.queue msg).1 =
          .pushWaits t msg := by
        simp [queuePush, full, pushEvent]
      rw [hevent, QueueEvent.leaves]
      refine ⟨hmonitor, ?_, ?_, ?_⟩
      · refine waits_update ThreadState.IsPushing h.pushing (fun u hu => ?_) ?_
        · rw [CondVar.waits_sleep, or_iff_right hu,
            CondVar.waits_resume_of_ne hu]
        · simp [ThreadState.IsPushing, queuePush, full]
      · have herase := Finset.erase_subset_erase t h.expired
        simpa [CondVar.sleep, CondVar.resume] using herase
      · have hroom := Ring.room_of_full full
        simp only [QueueSystem.pushEnds, queuePush, full, if_true, hroom]
        exact CondVar.covers_zero _
  | @pushTimesOut t msg waiting awake =>
      have hgone : t ∈ s.expired := by
        simpa [queuePushResumes, pushEvent, QueueEvent.drops,
          QueueEvent.leaves] using decided
      refine ⟨hmonitor, ?_, Finset.erase_subset_erase t h.expired, ?_⟩
      · refine waits_update ThreadState.IsPushing h.pushing
          (fun u hu => CondVar.waits_resume_of_ne hu) ?_
        have hnot := CondVar.not_waits_resume
          (h.awake_push (.inr ⟨waiting, awake⟩))
        simp [ThreadState.IsPushing, queuePushResumes, hnot]
      · have hcovered := h.covered
        rw [TimedMonitor.takers, ← CondVar.without_resume_gone hgone]
          at hcovered
        simpa [TimedMonitor.takers, QueueSystem.pushEnds, queuePushResumes,
          pushEvent, QueueEvent.leaves] using hcovered
  | @popReturns t notFull entered pending signal =>
      have hevent : popEvent t (queuePop s.monitor.system.queue).1 =
          .popReturned t s.monitor.system.queue.ring.front := by
        simp [queuePop, pending, popEvent]
      have hnot := h.not_waits_pop entered
      have hlive := Finset.erase_eq_of_notMem (h.not_expired hnot)
      rw [hevent, QueueEvent.leaves, hlive]
      refine ⟨hmonitor, ?_, ?_, ?_⟩
      · refine waits_update ThreadState.IsPushing h.pushing
          (fun u _ => signal.waits) ?_
        rw [signal.waits]
        simp [ThreadState.IsPushing, queuePop, pending, hnot]
      · exact h.expired.trans signal.woken_subset
      · have hroom := Ring.room_pop pending
        simp only [TimedMonitor.takers, QueueSystem.popEnds, queuePop, pending,
          Bool.false_eq_true, if_false, hroom]
        exact h.covered.signals (signal.without h.expired)
  | @popSleeps t entered empty =>
      have hevent : popEvent t (queuePop s.monitor.system.queue).1 =
          .popWaits t := by
        simp [queuePop, empty, popEvent]
      have hnot := h.not_waits_pop entered
      have hlive := Finset.erase_eq_of_notMem (h.not_expired hnot)
      rw [hevent, QueueEvent.leaves, hlive]
      refine ⟨hmonitor, ?_, h.expired, ?_⟩
      · refine waits_update ThreadState.IsPushing h.pushing
          (fun u _ => Iff.rfl) ?_
        simp [ThreadState.IsPushing, queuePop, empty, hnot]
      · simpa [TimedMonitor.takers, QueueSystem.popEnds, queuePop, empty]
          using h.covered
  | @getDropCount t entered =>
      have hnot := h.not_waits_pop (.inl entered)
      rw [QueueEvent.leaves, Finset.erase_eq_of_notMem (h.not_expired hnot)]
      exact h

theorem TimedInv.wakes (h : TimedInv s)
    (step : MonitorStep s.monitor none m) :
    TimedInv { s with monitor := m } := by
  have hmonitor := h.monitor.step step
  cases step with
  | popWakes _ => exact ⟨hmonitor, h.pushing, h.expired, h.covered⟩
  | @pushWakes t asleep =>
      have hlive : t ∉ s.expired := fun hmem =>
        Finset.disjoint_left.1 s.monitor.notFull.disjoint asleep
          (h.expired hmem)
      refine ⟨hmonitor, fun u => (h.pushing u).trans
        (CondVar.waits_wake asleep).symm,
        h.expired.trans (Finset.subset_insert _ _), ?_⟩
      simp only [TimedMonitor.takers, CondVar.without_wake hlive]
      exact h.covered.wake asleep

theorem TimedInv.step (h : TimedInv s) (hstep : TimedStep s event s') :
    TimedInv s' := by
  cases hstep with
  | section_ step decided => exact h.section_ step decided
  | wakes step => exact h.wakes step
  | @timesOut t asleep =>
      exact ⟨h.monitor.step (.pushWakes asleep),
        fun u => (h.pushing u).trans (CondVar.waits_wake asleep).symm,
        Finset.insert_subset_insert t h.expired, h.covered.gives_up asleep⟩

theorem TimedStep.of_push (entered : s.monitor.AtPush t msg)
    (hlive : t ∉ s.expired)
    (hroom : s.monitor.system.queue.ring.full = false) :
    ∃ s', TimedStep s (some (.pushReturned t msg 0)) s' := by
  obtain ⟨notEmpty, hsignal⟩ := s.monitor.notEmpty.exists_signals
  have hstep := MonitorStep.pushReturns entered hroom hsignal
  simp only [queuePush, hroom, Bool.false_eq_true, if_false, pushEvent]
    at hstep
  refine ⟨_, .section_ hstep ?_⟩
  simp [QueueEvent.drops, QueueEvent.leaves, hlive]

theorem TimedInv.gives_up (h : TimedInv s)
    (hpushing : s.monitor.system.threads t = .pushing msg)
    (hgone : t ∈ s.expired) :
    ∃ s', TimedStep s (some (.pushReturned t msg (-1))) s' := by
  have hstep := MonitorStep.pushTimesOut hpushing (h.expired hgone)
  refine ⟨_, .section_ hstep ?_⟩
  simp [QueueEvent.drops, QueueEvent.leaves, hgone]

theorem TimedInv.pops (h : TimedInv s) (entered : s.monitor.AtPop t)
    (hpending : s.monitor.system.queue.ring.isEmpty = false) :
    ∃ s', TimedStep s
      (some (.popReturned t s.monitor.system.queue.ring.front)) s' := by
  obtain ⟨notFull, hsignal⟩ := s.monitor.notFull.exists_signals
  have hstep := MonitorStep.popReturns entered hpending hsignal
  simp only [queuePop, hpending, Bool.false_eq_true, if_false, popEvent]
    at hstep
  have hlive := h.not_expired (h.not_waits_pop entered)
  refine ⟨_, .section_ hstep ?_⟩
  simp [QueueEvent.drops, QueueEvent.leaves, hlive]

/-- Whoever waits for room that is there, and whose time is not up, waits
behind somebody who is about to take it. -/
theorem TimedInv.taker (h : TimedInv s)
    (hpushing : (s.monitor.system.threads t).IsPushing)
    (hlive : t ∉ s.expired)
    (hroom : s.monitor.system.queue.ring.full = false) :
    ∃ u ∈ s.monitor.notFull.woken, u ∉ s.expired := by
  have hpositive := Ring.room_push EventMsg.zero hroom
  have hwaits : s.takers.Waits t := by
    rcases (h.pushing t).1 hpushing with hasleep | hwoken
    · exact .inl hasleep
    · exact .inr (Finset.mem_sdiff.2 ⟨hwoken, hlive⟩)
  rcases h.covered.woken_nonempty (by omega) hwaits with ⟨u, hu⟩
  exact ⟨u, Finset.mem_sdiff.1 hu⟩

theorem TimedStep.card_expired {event : QueueEvent Tid}
    (h : TimedStep s (some event) s') :
    event.drops.toNat + s'.expired.card = s.expired.card := by
  cases h with
  | section_ _ decided =>
      cases hdrops : event.drops with
      | true =>
          have hcard := Finset.card_erase_add_one (decided.1 hdrops)
          rw [Bool.toNat_true, Nat.add_comm]
          exact hcard
      | false =>
          have hlive : event.leaves.1 ∉ s.expired := by
            rw [← decided, hdrops]
            exact Bool.false_ne_true
          simp [Finset.erase_eq_of_notMem hlive]

end EzRouter
