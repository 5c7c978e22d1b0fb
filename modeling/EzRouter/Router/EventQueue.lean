import EzRouter.Foundation.Bytes
import EzRouter.Foundation.Ring
import EzRouter.Foundation.Transition

/-!
# The event queue

`event_queue.c` keeps the messages on their way from the reactor to the
dispatcher in a circular array under one lock.  A call runs as a sequence of
sections, each executed while the lock is held: `queuePush` and `queuePop` are
the sections from the entry of a call to its first wait or its return,
`queuePushResumes` the section after `pthread_cond_timedwait` has come back.
A section yields the value returned to the caller, or `none` when it ends in
a condition wait.
-/

namespace EzRouter

open EzRouter.Foundation

def maxData : Nat := 1024

structure EventMsg where
  dst : Buffer 32
  len : Int
  data : Buffer maxData
  deriving DecidableEq, Repr

def qsize : Nat := 128

/-
`ring` is `queue[QSIZE]` with its `head` and `tail`; `g_drop_count` is an
`unsigned long`, 64 bits wide on the targets.
-/
structure EventQueue where
  ring : Ring EventMsg qsize
  dropCount : UInt64

def EventMsg.zero : EventMsg := ⟨.zero 32, 0, .zero maxData⟩

def EventQueue.boot : EventQueue where
  ring := ⟨Vector.replicate qsize .zero, 0, 0, by decide, by decide⟩
  dropCount := 0

def queueInit (q : EventQueue) : EventQueue where
  ring := q.ring.reset
  dropCount := 0

/-- What `pthread_cond_timedwait` returns: a signal and a spurious wakeup look
the same to the caller. -/
inductive WaitResult where
  | woken
  | timedOut
  deriving DecidableEq, Repr

def queuePush (q : EventQueue) (msg : EventMsg) : Option Int × EventQueue :=
  if q.ring.full then (none, q)
  else (some 0, { q with ring := q.ring.push msg })

def queuePushResumes (q : EventQueue) (msg : EventMsg) :
    WaitResult → Option Int × EventQueue
  -- The timeout is taken at its word: the loop condition is not tested again.
  | .timedOut => (some (-1), { q with dropCount := q.dropCount + 1 })
  | .woken => queuePush q msg

def queuePop (q : EventQueue) : Option EventMsg × EventQueue :=
  if q.ring.isEmpty then (none, q)
  else (some q.ring.front, { q with ring := q.ring.pop })

def queueGetDropCount (q : EventQueue) : UInt64 := q.dropCount

/-! ## Threads inside the queue -/

inductive ThreadState where
  | outside
  | pushing (msg : EventMsg)
  | popping
  deriving DecidableEq, Repr

structure QueueSystem (Tid : Type) where
  queue : EventQueue
  threads : Tid → ThreadState

inductive QueueEvent (Tid : Type) where
  | pushReturned (t : Tid) (msg : EventMsg) (status : Int)
  | pushWaits (t : Tid) (msg : EventMsg)
  | popReturned (t : Tid) (msg : EventMsg)
  | popWaits (t : Tid)
  | dropCountRead (t : Tid) (count : UInt64)
  deriving DecidableEq, Repr

variable {Tid : Type}

def pushEvent (t : Tid) (msg : EventMsg) : Option Int → QueueEvent Tid
  | some status => .pushReturned t msg status
  | none => .pushWaits t msg

def popEvent (t : Tid) : Option EventMsg → QueueEvent Tid
  | some msg => .popReturned t msg
  | none => .popWaits t

def QueueSystem.start (q : EventQueue) : QueueSystem Tid where
  queue := queueInit q
  threads := fun _ => .outside

variable [DecidableEq Tid]

def QueueSystem.pushEnds (s : QueueSystem Tid) (t : Tid) (msg : EventMsg)
    (result : Option Int × EventQueue) : QueueSystem Tid where
  queue := result.2
  threads := Function.update s.threads t
    (if result.1.isSome then .outside else .pushing msg)

def QueueSystem.popEnds (s : QueueSystem Tid) (t : Tid)
    (result : Option EventMsg × EventQueue) : QueueSystem Tid where
  queue := result.2
  threads := Function.update s.threads t
    (if result.1.isSome then .outside else .popping)

/-- One section of one thread.  A waiting thread may resume at any moment,
whether or not anyone signalled it. -/
inductive QueueStep :
    QueueSystem Tid → QueueEvent Tid → QueueSystem Tid → Prop where
  | push {s : QueueSystem Tid} {t : Tid} (msg : EventMsg)
      (entered : s.threads t = .outside) :
      QueueStep s (pushEvent t msg (queuePush s.queue msg).1)
        (s.pushEnds t msg (queuePush s.queue msg))
  | pushResumes {s : QueueSystem Tid} {t : Tid} {msg : EventMsg}
      (rc : WaitResult) (waiting : s.threads t = .pushing msg) :
      QueueStep s (pushEvent t msg (queuePushResumes s.queue msg rc).1)
        (s.pushEnds t msg (queuePushResumes s.queue msg rc))
  | pop {s : QueueSystem Tid} {t : Tid} (entered : s.threads t = .outside) :
      QueueStep s (popEvent t (queuePop s.queue).1)
        (s.popEnds t (queuePop s.queue))
  | popResumes {s : QueueSystem Tid} {t : Tid}
      (waiting : s.threads t = .popping) :
      QueueStep s (popEvent t (queuePop s.queue).1)
        (s.popEnds t (queuePop s.queue))
  | getDropCount {s : QueueSystem Tid} {t : Tid}
      (entered : s.threads t = .outside) :
      QueueStep s (.dropCountRead t (queueGetDropCount s.queue)) s

def QueueEvent.accepts : QueueEvent Tid → Option EventMsg
  | .pushReturned _ msg status => if status = 0 then some msg else none
  | _ => none

def QueueEvent.pops : QueueEvent Tid → Option EventMsg
  | .popReturned _ msg => some msg
  | _ => none

def QueueEvent.drops : QueueEvent Tid → Bool
  | .pushReturned _ _ status => status == -1
  | _ => false

def accepted (trace : List (QueueEvent Tid)) : List EventMsg :=
  trace.filterMap QueueEvent.accepts

def popped (trace : List (QueueEvent Tid)) : List EventMsg :=
  trace.filterMap QueueEvent.pops

def drops (trace : List (QueueEvent Tid)) : Nat :=
  trace.countP QueueEvent.drops

omit [DecidableEq Tid] in
@[simp] theorem accepted_snoc (trace : List (QueueEvent Tid))
    (event : QueueEvent Tid) :
    accepted (trace ++ [event]) = accepted trace ++ event.accepts.toList := by
  cases h : event.accepts <;> simp [accepted, h]

omit [DecidableEq Tid] in
@[simp] theorem popped_snoc (trace : List (QueueEvent Tid))
    (event : QueueEvent Tid) :
    popped (trace ++ [event]) = popped trace ++ event.pops.toList := by
  cases h : event.pops <;> simp [popped, h]

omit [DecidableEq Tid] in
@[simp] theorem drops_snoc (trace : List (QueueEvent Tid))
    (event : QueueEvent Tid) :
    drops (trace ++ [event]) = drops trace + event.drops.toNat := by
  cases h : event.drops <;> simp [drops, h]

inductive QueueEffect :
    EventQueue → QueueEvent Tid → EventQueue → Prop where
  | accepts {q : EventQueue} (t : Tid) (msg : EventMsg)
      (room : q.ring.full = false) :
      QueueEffect q (.pushReturned t msg 0) { q with ring := q.ring.push msg }
  | drops {q : EventQueue} (t : Tid) (msg : EventMsg) :
      QueueEffect q (.pushReturned t msg (-1))
        { q with dropCount := q.dropCount + 1 }
  | delivers {q : EventQueue} (t : Tid) (pending : q.ring.isEmpty = false) :
      QueueEffect q (.popReturned t q.ring.front) { q with ring := q.ring.pop }
  | pushWaits {q : EventQueue} (t : Tid) (msg : EventMsg) :
      QueueEffect q (.pushWaits t msg) q
  | popWaits {q : EventQueue} (t : Tid) : QueueEffect q (.popWaits t) q
  | reads {q : EventQueue} (t : Tid) :
      QueueEffect q (.dropCountRead t q.dropCount) q

omit [DecidableEq Tid] in
theorem queuePush_effect (q : EventQueue) (t : Tid) (msg : EventMsg) :
    QueueEffect q (pushEvent t msg (queuePush q msg).1)
      (queuePush q msg).2 := by
  unfold queuePush
  cases hfull : q.ring.full with
  | true => exact .pushWaits t msg
  | false => exact .accepts t msg hfull

omit [DecidableEq Tid] in
theorem queuePushResumes_effect (q : EventQueue) (t : Tid) (msg : EventMsg)
    (rc : WaitResult) :
    QueueEffect q (pushEvent t msg (queuePushResumes q msg rc).1)
      (queuePushResumes q msg rc).2 := by
  cases rc with
  | woken => exact queuePush_effect q t msg
  | timedOut => exact .drops t msg

omit [DecidableEq Tid] in
theorem queuePop_effect (q : EventQueue) (t : Tid) :
    QueueEffect q (popEvent t (queuePop q).1) (queuePop q).2 := by
  unfold queuePop
  cases hempty : q.ring.isEmpty with
  | true => exact .popWaits t
  | false => exact .delivers t hempty

theorem QueueStep.effect {s s' : QueueSystem Tid} {event : QueueEvent Tid}
    (h : QueueStep s event s') : QueueEffect s.queue event s'.queue := by
  cases h with
  | push msg _ => exact queuePush_effect _ _ _
  | pushResumes rc _ => exact queuePushResumes_effect _ _ _ _
  | pop _ => exact queuePop_effect _ _
  | popResumes _ => exact queuePop_effect _ _
  | getDropCount _ => exact .reads _

/-! ## The bounded FIFO -/

structure QueueInv (trace : List (QueueEvent Tid)) (q : EventQueue) : Prop where
  fifo : popped trace ++ q.ring.contents = accepted trace
  dropped : q.dropCount = UInt64.ofNat (drops trace)

omit [DecidableEq Tid] in
theorem QueueInv.start (q : EventQueue) :
    QueueInv ([] : List (QueueEvent Tid)) (queueInit q) where
  fifo := by simp [queueInit, Ring.contents_reset, popped, accepted]
  dropped := by simp [queueInit, drops]

omit [DecidableEq Tid] in
theorem QueueInv.step {trace : List (QueueEvent Tid)} {q q' : EventQueue}
    {event : QueueEvent Tid} (inv : QueueInv trace q)
    (h : QueueEffect q event q') : QueueInv (trace ++ [event]) q' := by
  obtain ⟨hfifo, hdropped⟩ := inv
  cases h with
  | accepts t msg room =>
      constructor
      · simp [Ring.contents_push msg room, QueueEvent.pops, QueueEvent.accepts,
          ← hfifo]
      · simpa [QueueEvent.drops] using hdropped
  | drops t msg =>
      constructor
      · simpa [QueueEvent.pops, QueueEvent.accepts] using hfifo
      · simp [hdropped, QueueEvent.drops, UInt64.ofNat_add]
  | delivers t pending =>
      constructor
      · rw [Ring.contents_pop pending] at hfifo
        simpa [QueueEvent.pops, QueueEvent.accepts] using hfifo
      · simpa [QueueEvent.drops] using hdropped
  | pushWaits | popWaits | reads =>
      exact ⟨by simpa [QueueEvent.pops, QueueEvent.accepts] using hfifo,
        by simpa [QueueEvent.drops] using hdropped⟩

theorem QueueInv.of_run {q : EventQueue} {trace : List (QueueEvent Tid)}
    {s : QueueSystem Tid} (run : Run QueueStep (.start q) trace s) :
    QueueInv trace s.queue := by
  induction run with
  | refl => exact .start q
  | next _ hstep ih => exact ih.step hstep.effect

theorem QueueStep.ring_unchanged {s s' : QueueSystem Tid} {t : Tid}
    {msg : EventMsg}
    (h : QueueStep s (.pushReturned t msg (-1)) s' ∨
      QueueStep s (.pushWaits t msg) s') : s'.queue.ring = s.queue.ring := by
  obtain ⟨q', hq'⟩ : ∃ q', s'.queue = q' := ⟨_, rfl⟩
  rcases h with h | h <;> have heffect := h.effect <;>
    rw [hq'] at heffect ⊢ <;> cases heffect <;> rfl

/--
The queue is a bounded FIFO under every interleaving: what the pops have
returned, followed by what lies between head and tail, is what the pushes have
accepted, in that order.
-/
theorem queue_bounded_fifo {q : EventQueue} {trace : List (QueueEvent Tid)}
    {s : QueueSystem Tid} (run : Run QueueStep (.start q) trace s) :
    popped trace ++ s.queue.ring.contents = accepted trace ∧
      s.queue.ring.contents.length ≤ 127 ∧
      (∀ t msg s', QueueStep s (.pushReturned t msg (-1)) s' ∨
        QueueStep s (.pushWaits t msg) s' → s'.queue.ring = s.queue.ring) ∧
      s.queue.dropCount.toNat = drops trace % 2 ^ 64 := by
  have inv := QueueInv.of_run run
  refine ⟨inv.fifo, ?_, fun t msg s' => QueueStep.ring_unchanged, ?_⟩
  · have hlt : s.queue.ring.size < 128 := Ring.size_lt
    simp
    omega
  · rw [inv.dropped, UInt64.toNat_ofNat']

theorem fill_run (q : EventQueue) (msg : EventMsg) {n : Nat} (h : n ≤ 127) :
    ∃ s : QueueSystem Nat,
      Run QueueStep (.start q) (List.replicate n (.pushReturned 0 msg 0)) s ∧
      s.threads = (fun _ => .outside) ∧
      s.queue.ring.contents = List.replicate n msg := by
  induction n with
  | zero => exact ⟨.start q, .refl, rfl, Ring.contents_reset⟩
  | succ n ih =>
      obtain ⟨s, hrun, hout, hring⟩ := ih (by omega)
      have hsize : s.queue.ring.size = n := by
        rw [← Ring.length_contents, hring, List.length_replicate]
      have hroom : s.queue.ring.full = false := by
        rw [Bool.eq_false_iff, Ne, Ring.full_iff, hsize]
        unfold qsize
        omega
      have hstep := QueueStep.push (s := s) (t := 0) msg (by rw [hout])
      simp only [queuePush, hroom, Bool.false_eq_true, if_false, pushEvent]
        at hstep
      refine ⟨_, List.replicate_succ' ▸ hrun.next hstep, ?_, ?_⟩
      · simp [QueueSystem.pushEnds, hout]
      · simp only [QueueSystem.pushEnds]
        rw [Ring.contents_push msg hroom, hring, List.replicate_succ']

def greeting : EventMsg := { EventMsg.zero with len := 5 }

/-- Thread 0 fills the queue, waits for the room that a pop of thread 1 makes,
and waits for room again until its time is up. -/
def crowdedTrace : List (QueueEvent Nat) :=
  List.replicate 127 (QueueEvent.pushReturned 0 .zero 0) ++
    [QueueEvent.pushWaits 0 greeting] ++ [QueueEvent.popReturned 1 .zero] ++
    [QueueEvent.pushReturned 0 greeting 0] ++
    [QueueEvent.pushWaits 0 greeting] ++
    [QueueEvent.pushReturned 0 greeting (-1)]

theorem QueueStep.push_waits {s : QueueSystem Tid} {t : Tid} (msg : EventMsg)
    (hout : s.threads t = .outside) (hfull : s.queue.ring.full = true) :
    QueueStep s (.pushWaits t msg)
      ⟨s.queue, Function.update s.threads t (.pushing msg)⟩ := by
  have hstep := QueueStep.push msg hout
  simpa [queuePush, hfull, pushEvent, QueueSystem.pushEnds] using hstep

theorem QueueStep.push_resumes {s : QueueSystem Tid} {t : Tid} (msg : EventMsg)
    (hpushing : s.threads t = .pushing msg)
    (hroom : s.queue.ring.full = false) :
    QueueStep s (.pushReturned t msg 0)
      ⟨{ s.queue with ring := s.queue.ring.push msg },
        Function.update s.threads t .outside⟩ := by
  have hstep := QueueStep.pushResumes .woken hpushing
  simpa [queuePushResumes, queuePush, hroom, pushEvent,
    QueueSystem.pushEnds] using hstep

theorem QueueStep.pop_returns {s : QueueSystem Tid} {t : Tid}
    (hout : s.threads t = .outside)
    (hpending : s.queue.ring.isEmpty = false) :
    QueueStep s (.popReturned t s.queue.ring.front)
      ⟨{ s.queue with ring := s.queue.ring.pop },
        Function.update s.threads t .outside⟩ := by
  have hstep := QueueStep.pop hout
  simpa [queuePop, hpending, popEvent, QueueSystem.popEnds] using hstep

theorem crowded_run : ∃ s : QueueSystem Nat,
    Run QueueStep (.start .boot) crowdedTrace s := by
  obtain ⟨s, hrun, hout, hring⟩ := fill_run .boot .zero (Nat.le_refl 127)
  have hsize : s.queue.ring.size = 127 := by
    rw [← Ring.length_contents, hring, List.length_replicate]
  have hpending : s.queue.ring.isEmpty = false := by
    rw [Bool.eq_false_iff, Ne, Ring.isEmpty_iff, hsize]
    decide
  have hfront := Ring.contents_pop hpending
  rw [hring, List.replicate_succ, List.cons.injEq] at hfront
  have hpop := Ring.size_pop hpending
  have hroom : s.queue.ring.pop.full = false := by
    rw [Bool.eq_false_iff, Ne, Ring.full_iff]
    intro hlast
    change s.queue.ring.pop.size = 127 at hlast
    omega
  have hagain : (s.queue.ring.pop.push greeting).full = true := by
    rw [Ring.full_iff, Ring.size_push greeting hroom, hpop, hsize]
    rfl
  have h₁ := hrun.next (.push_waits greeting (congrFun hout 0)
    (Ring.full_iff.2 hsize))
  have h₂ := h₁.next (.pop_returns (t := 1) (by simp [hout]) hpending)
  rw [← hfront.1] at h₂
  have h₃ := h₂.next (.push_resumes greeting (t := 0) (by simp) hroom)
  have h₄ := h₃.next (.push_waits greeting (t := 0) (by simp) hagain)
  exact ⟨_, h₄.next
    (@QueueStep.pushResumes _ _ _ 0 greeting .timedOut (by simp))⟩

theorem queue_bounded_fifo_crowded :
    ∃ s : QueueSystem Nat, Run QueueStep (.start .boot) crowdedTrace s ∧
      s.queue.ring.contents = List.replicate 126 .zero ++ [greeting] ∧
      s.queue.dropCount = 1 := by
  obtain ⟨s, hrun⟩ := crowded_run
  obtain ⟨hfifo, -, -, hdrops⟩ := queue_bounded_fifo hrun
  have hpopped : popped crowdedTrace = [.zero] := by
    have hfill : popped (List.replicate 127 (.pushReturned 0 .zero 0) :
        List (QueueEvent Nat)) = [] := List.filterMap_replicate_of_none rfl
    simp only [crowdedTrace, popped_snoc, hfill]
    rfl
  have haccepted : accepted crowdedTrace =
      List.replicate 127 .zero ++ [greeting] := by
    have hfill : accepted (List.replicate 127 (.pushReturned 0 .zero 0) :
        List (QueueEvent Nat)) = List.replicate 127 .zero :=
      List.filterMap_replicate_of_some rfl
    simp only [crowdedTrace, accepted_snoc, hfill, QueueEvent.accepts, if_true,
      Option.toList_none, Option.toList_some, List.append_nil]
    rfl
  have hone : drops crowdedTrace = 1 := by decide +kernel
  rw [hpopped, haccepted, List.replicate_succ] at hfifo
  rw [hone] at hdrops
  exact ⟨s, hrun, List.append_cancel_left hfifo, UInt64.toNat_inj.1 hdrops⟩

end EzRouter
