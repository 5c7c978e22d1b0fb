import EzRouter.Router.EventQueue

/-!
# When a push gives up

A push that waits for room sleeps without the lock and takes the lock again
before `pthread_cond_timedwait` returns, after its deadline as well as after a
signal.  Other threads run in between.  This module names the choices of the
scheduler, so that a run can be asked which of its waits came back too late and
what the ring held at each of these moments.
-/

namespace EzRouter

open EzRouter.Foundation

inductive QueueCall where
  | push (msg : EventMsg)
  | pushResumes (rc : WaitResult)
  | pop
  | popResumes
  | getDropCount
  deriving DecidableEq, Repr

variable {Tid : Type} [DecidableEq Tid]

def QueueSystem.take (s : QueueSystem Tid) (t : Tid) (call : QueueCall) :
    Option (QueueEvent Tid × QueueSystem Tid) :=
  match call, s.threads t with
  | .push msg, .outside =>
      some (pushEvent t msg (queuePush s.queue msg).1,
        s.pushEnds t msg (queuePush s.queue msg))
  | .pushResumes rc, .pushing msg =>
      some (pushEvent t msg (queuePushResumes s.queue msg rc).1,
        s.pushEnds t msg (queuePushResumes s.queue msg rc))
  | .pop, .outside =>
      some (popEvent t (queuePop s.queue).1, s.popEnds t (queuePop s.queue))
  | .popResumes, .popping =>
      some (popEvent t (queuePop s.queue).1, s.popEnds t (queuePop s.queue))
  | .getDropCount, .outside =>
      some (.dropCountRead t (queueGetDropCount s.queue), s)
  | _, _ => none

theorem queueStep_iff {s s' : QueueSystem Tid} {event : QueueEvent Tid} :
    QueueStep s event s' ↔ ∃ t call, s.take t call = some (event, s') := by
  constructor
  · intro h
    cases h with
    | @push t msg entered =>
        exact ⟨t, .push msg, by simp [QueueSystem.take, entered]⟩
    | @pushResumes t msg rc waiting =>
        exact ⟨t, .pushResumes rc, by simp [QueueSystem.take, waiting]⟩
    | @pop t entered => exact ⟨t, .pop, by simp [QueueSystem.take, entered]⟩
    | @popResumes t waiting =>
        exact ⟨t, .popResumes, by simp [QueueSystem.take, waiting]⟩
    | @getDropCount t entered =>
        exact ⟨t, .getDropCount, by simp [QueueSystem.take, entered]⟩
  · rintro ⟨t, call, h⟩
    unfold QueueSystem.take at h
    split at h
    · cases h
      exact .push _ (by assumption)
    · cases h
      exact .pushResumes _ (by assumption)
    · cases h
      exact .pop (by assumption)
    · cases h
      exact .popResumes (by assumption)
    · cases h
      exact .getDropCount (by assumption)
    · cases h

theorem drops_iff {s s' : QueueSystem Tid} {t : Tid} {call : QueueCall}
    {event : QueueEvent Tid} (h : s.take t call = some (event, s')) :
    event.drops = true ↔ call = .pushResumes .timedOut := by
  have hpush : ∀ msg, (pushEvent t msg (queuePush s.queue msg).1).drops =
      false := by
    intro msg
    cases hfull : s.queue.ring.full <;>
      simp [queuePush, hfull, pushEvent, QueueEvent.drops]
  have hpop : (popEvent t (queuePop s.queue).1).drops = false := by
    cases hempty : s.queue.ring.isEmpty <;>
      simp [queuePop, hempty, popEvent, QueueEvent.drops]
  unfold QueueSystem.take at h
  split at h
  · cases h
    simp [hpush]
  · rename_i rc msg _
    cases h
    cases rc with
    | woken => simp [queuePushResumes, hpush]
    | timedOut => simp [queuePushResumes, pushEvent, QueueEvent.drops]
  · cases h
    simp [hpop]
  · cases h
    simp [hpop]
  · cases h
    simp [QueueEvent.drops]
  · cases h

/-! ## The ring at each drop -/

/-- The system with the number of messages pending at each drop so far. -/
structure WatchedQueue (Tid : Type) where
  system : QueueSystem Tid
  pendingAtDrops : List Nat

omit [DecidableEq Tid] in
def WatchedQueue.start (q : EventQueue) : WatchedQueue Tid where
  system := .start q
  pendingAtDrops := []

structure QueueSection (Tid : Type) where
  thread : Tid
  call : QueueCall
  event : QueueEvent Tid

def WatchedStep (w : WatchedQueue Tid) (x : QueueSection Tid)
    (w' : WatchedQueue Tid) : Prop :=
  w.system.take x.thread x.call = some (x.event, w'.system) ∧
    w'.pendingAtDrops = w.pendingAtDrops ++
      if x.event.drops then [w'.system.queue.ring.contents.length] else []

/-- The test of the loop condition that a timed out wait goes without. -/
def StillFull (w : WatchedQueue Tid) (x : QueueSection Tid) : Prop :=
  x.call = .pushResumes .timedOut → w.system.queue.ring.full = true

def DroppedWhenFull (w : WatchedQueue Tid) : Prop :=
  ∀ n ∈ w.pendingAtDrops, n = 127

theorem WatchedStep.queueStep {w w' : WatchedQueue Tid} {x : QueueSection Tid}
    (h : WatchedStep w x w') : QueueStep w.system x.event w'.system :=
  queueStep_iff.2 ⟨x.thread, x.call, h.1⟩

theorem queueRun_of_watched {q : EventQueue} {trace : List (QueueSection Tid)}
    {w : WatchedQueue Tid} (run : Run WatchedStep (.start q) trace w) :
    Run QueueStep (.start q) (trace.map QueueSection.event) w.system := by
  induction run with
  | refl => exact .refl
  | next _ hstep ih => simpa using Run.next ih hstep.queueStep

theorem length_pendingAtDrops {q : EventQueue}
    {trace : List (QueueSection Tid)} {w : WatchedQueue Tid}
    (run : Run WatchedStep (.start q) trace w) :
    w.pendingAtDrops.length = drops (trace.map QueueSection.event) := by
  induction run with
  | refl => rfl
  | @next trace w w' x _ hstep ih =>
      rw [hstep.2, List.length_append, ih, List.map_append, List.map_singleton,
        drops_snoc]
      cases x.event.drops <;> rfl

theorem WatchedStep.pending_eq {w w' : WatchedQueue Tid} {x : QueueSection Tid}
    (h : WatchedStep w x w') (hdrops : x.event.drops = true) :
    w'.system.queue.ring = w.system.queue.ring := by
  have hstep := h.queueStep
  cases hevent : x.event with
  | pushReturned t msg status =>
      rw [hevent] at hstep hdrops
      obtain rfl : status = -1 := by simpa [QueueEvent.drops] using hdrops
      exact QueueStep.ring_unchanged (.inl hstep)
  | _ => simp [hevent, QueueEvent.drops] at hdrops

theorem length_eq_iff_full (r : Ring EventMsg qsize) :
    r.contents.length = 127 ↔ r.full = true := by
  rw [Ring.length_contents, Ring.full_iff]
  rfl

theorem WatchedStep.droppedWhenFull_iff {w w' : WatchedQueue Tid}
    {x : QueueSection Tid} (h : WatchedStep w x w') :
    DroppedWhenFull w' ↔ DroppedWhenFull w ∧ StillFull w x := by
  have hgives := drops_iff h.1
  unfold DroppedWhenFull StillFull
  rw [h.2]
  cases hdrops : x.event.drops with
  | false =>
      have hcall : x.call ≠ .pushResumes .timedOut := by
        intro hcall
        rw [hgives.2 hcall] at hdrops
        cases hdrops
      simp [hcall]
  | true =>
      have hcall : x.call = .pushResumes .timedOut := hgives.1 hdrops
      have hring := h.pending_eq hdrops
      simp only [if_true, List.mem_append, List.mem_singleton, or_imp,
        forall_and, forall_eq, hring, length_eq_iff_full, hcall, true_imp_iff]

/--
Every drop of a run came at a moment when the ring was full exactly when no
wait of the run came back with a timeout while the ring had room.
-/
theorem drops_only_when_full_iff {q : EventQueue}
    {trace : List (QueueSection Tid)} {w : WatchedQueue Tid}
    (run : Run WatchedStep (.start q) trace w) :
    w.system.queue.dropCount = UInt64.ofNat w.pendingAtDrops.length ∧
      (DroppedWhenFull w ↔
        Run (Guarded WatchedStep StillFull) (.start q) trace w) := by
  constructor
  · rw [length_pendingAtDrops run]
    exact (QueueInv.of_run (queueRun_of_watched run)).dropped
  · apply run.keeps_iff_guarded DroppedWhenFull fun _ => True
    · trivial
    · simp [DroppedWhenFull, WatchedQueue.start]
    · intros
      trivial
    · intro w x w' _ hstep
      exact hstep.droppedWhenFull_iff

theorem fill (q : EventQueue) (msg : EventMsg) {n : Nat} (h : n ≤ 127) :
    ∃ w : WatchedQueue Nat,
      Run WatchedStep (.start q)
        (List.replicate n ⟨0, .push msg, .pushReturned 0 msg 0⟩) w ∧
      w.pendingAtDrops = [] ∧ w.system.threads = (fun _ => .outside) ∧
      w.system.queue.ring.contents = List.replicate n msg := by
  induction n with
  | zero => exact ⟨.start q, .refl, rfl, rfl, Ring.contents_reset⟩
  | succ n ih =>
      rcases ih (by omega) with ⟨w, hrun, hdrops, hout, hring⟩
      have hroom : w.system.queue.ring.full = false := by
        rw [Bool.eq_false_iff, Ne, ← length_eq_iff_full, hring]
        simp
        omega
      refine ⟨⟨⟨{ w.system.queue with
          ring := w.system.queue.ring.push msg }, fun _ => .outside⟩, []⟩,
        ?_, rfl, rfl, ?_⟩
      · rw [List.replicate_succ']
        apply hrun.next
        constructor
        · simp [QueueSystem.take, hout, queuePush, hroom, pushEvent,
            QueueSystem.pushEnds]
        · simp [hdrops, QueueEvent.drops]
      · rw [Ring.contents_push msg hroom, hring, List.replicate_succ']

theorem waits_full (q : EventQueue) (msg : EventMsg) :
    ∃ w : WatchedQueue Nat,
      Run WatchedStep (.start q)
        (List.replicate 127 ⟨0, .push msg, .pushReturned 0 msg 0⟩ ++
          [⟨0, .push msg, .pushWaits 0 msg⟩]) w ∧
      w.pendingAtDrops = [] ∧
      w.system.threads = Function.update (fun _ => .outside) 0 (.pushing msg) ∧
      w.system.queue.ring.contents = List.replicate 127 msg := by
  rcases fill q msg (Nat.le_refl 127) with ⟨w, hrun, hdrops, hout, hring⟩
  have hfull : w.system.queue.ring.full = true := by
    rw [← length_eq_iff_full, hring, List.length_replicate]
  refine ⟨⟨⟨w.system.queue, Function.update (fun _ => .outside) 0
    (.pushing msg)⟩, []⟩, hrun.next ⟨?_, ?_⟩, rfl, rfl, hring⟩
  · simp [QueueSystem.take, hout, queuePush, hfull, pushEvent,
      QueueSystem.pushEnds]
  · simp [hdrops, QueueEvent.drops]

theorem drops_only_when_full_iff_waited :
    ∃ w : WatchedQueue Nat, w.pendingAtDrops = [127] ∧
      Run (Guarded WatchedStep StillFull) (.start .boot)
        (List.replicate 127 ⟨0, .push .zero, .pushReturned 0 .zero 0⟩ ++
          [⟨0, .push .zero, .pushWaits 0 .zero⟩] ++
          [⟨0, .pushResumes .timedOut, .pushReturned 0 .zero (-1)⟩]) w := by
  rcases waits_full .boot .zero with ⟨w, hrun, hdrops, hthreads, hring⟩
  have hgives : WatchedStep w
      ⟨0, .pushResumes .timedOut, .pushReturned 0 .zero (-1)⟩
      ⟨w.system.pushEnds 0 .zero
        (queuePushResumes w.system.queue .zero .timedOut), [127]⟩ := by
    constructor
    · simp [QueueSystem.take, hthreads, queuePushResumes, pushEvent]
    · simp [hdrops, QueueEvent.drops, QueueSystem.pushEnds, queuePushResumes,
        -Ring.length_contents, hring]
  refine ⟨_, rfl, (drops_only_when_full_iff (hrun.next hgives)).2.1 ?_⟩
  simp [DroppedWhenFull]

def droppedWithRoom : List (QueueSection Nat) :=
  List.replicate 127 ⟨0, .push .zero, .pushReturned 0 .zero 0⟩ ++
    [⟨0, .push .zero, .pushWaits 0 .zero⟩] ++
    [⟨1, .pop, .popReturned 1 .zero⟩] ++
    [⟨0, .pushResumes .timedOut, .pushReturned 0 .zero (-1)⟩]

theorem drop_with_room :
    ∃ w : WatchedQueue Nat,
      Run WatchedStep (.start .boot) droppedWithRoom w ∧
        ¬ DroppedWhenFull w := by
  rcases waits_full .boot .zero with ⟨w, hrun, hdrops, hthreads, hring⟩
  have hpending : w.system.queue.ring.isEmpty = false := by
    rw [Bool.eq_false_iff, Ne, Ring.isEmpty_iff, ← Ring.length_contents, hring]
    simp
  have hcut := Ring.contents_pop hpending
  rw [hring, List.replicate_succ, List.cons.injEq] at hcut
  rcases hcut with ⟨hfront, hrest⟩
  have hpop : WatchedStep w ⟨1, .pop, .popReturned 1 .zero⟩
      ⟨w.system.popEnds 1 (queuePop w.system.queue), []⟩ := by
    constructor
    · simp [QueueSystem.take, hthreads, queuePop, hpending, popEvent, hfront]
    · simp [hdrops, QueueEvent.drops]
  have hgives : WatchedStep
      ⟨w.system.popEnds 1 (queuePop w.system.queue), []⟩
      ⟨0, .pushResumes .timedOut, .pushReturned 0 .zero (-1)⟩
      ⟨(w.system.popEnds 1 (queuePop w.system.queue)).pushEnds 0 .zero
        (queuePushResumes (queuePop w.system.queue).2 .zero .timedOut),
        [126]⟩ := by
    constructor
    · simp [QueueSystem.take, QueueSystem.popEnds, hthreads, queuePushResumes,
        pushEvent]
    · simp only [QueueEvent.drops, QueueSystem.pushEnds, queuePushResumes,
        queuePop, hpending]
      simp [-Ring.length_contents, ← hrest]
  refine ⟨_, (hrun.next hpop).next hgives, ?_⟩
  simp [DroppedWhenFull]

end EzRouter
