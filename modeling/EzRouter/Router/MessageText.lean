import EzRouter.Router.Fanout

/-!
# Message text

The dispatcher prints `msg->data` as a C string.  The reactor ends what it
reads with a zero in its own buffer, but a message is built on whatever its
stack slot held, and only the payload is copied into it.
-/

namespace EzRouter

open EzRouter.Foundation

structure RouteTurn where
  config : Config
  handlers : List HandlerEntry
  name : CStr
  stale : Nat → EventMsg
  stack : Buffer readBufSize
  chunk : List UInt8
  turn : Nat

namespace RouteTurn

def msg (x : RouteTurn) : Option EventMsg :=
  (forward x.config x.handlers x.name x.stale x.stack x.chunk)[x.turn]?.join

def routes (x : RouteTurn) : List RouteDef :=
  (x.config.routes.filter (·.src.str = x.name)).take 16

def handler (x : RouteTurn) (r : RouteDef) : Option PluginHandler :=
  pluginGetHandler x.handlers r.handler.str

def bufferAfter (x : RouteTurn) (turns : Nat) : Buffer readBufSize :=
  afterHandlers (pluginGetHandler x.handlers) x.chunk.length
    (x.routes.take turns) (readInto x.stack x.chunk)

end RouteTurn

/-- The length that the message gets, as the reactor checks it. -/
def lengthInForce (handler : Option PluginHandler) (len : Nat)
    (buf : Buffer readBufSize) : Option Nat :=
  match handler with
  | none => some len
  | some h => clampLength (h buf len).2

/-- Either the payload brings a zero along, or the storage of the message
happens to hold one behind it. -/
def RouteTurn.ZeroInPlace (x : RouteTurn) : Prop :=
  ∃ r n, x.routes[x.turn]? = some r ∧
    lengthInForce (x.handler r) x.chunk.length (x.bufferAfter x.turn) =
      some n ∧
    (0 ∈ (x.bufferAfter (x.turn + 1)).bytes.take n ∨
      0 ∈ (x.stale x.turn).data.bytes.drop n)

def EventMsg.Terminated (m : EventMsg) : Prop := 0 ∈ m.data.bytes

instance (m : EventMsg) : Decidable m.Terminated :=
  inferInstanceAs (Decidable (0 ∈ m.data.bytes))

theorem terminated_iff_str (m : EventMsg) :
    m.Terminated ↔ m.data.str.length < maxData := by
  have hprefix : m.data.str.bytes <+: m.data.bytes :=
    List.takeWhile_prefix _
  have hle := hprefix.length_le
  rw [m.data.length_eq] at hle
  constructor
  · intro hzero
    apply Nat.lt_of_le_of_ne hle
    intro hlen
    have hsame := hprefix.eq_of_length (hlen.trans m.data.length_eq.symm)
    apply m.data.str.noNul
    rw [hsame]
    exact hzero
  · intro hlt
    by_contra hnone
    have hsame : m.data.str.bytes = m.data.bytes := by
      apply List.takeWhile_eq_self_iff.2
      intro b hb
      have hne : b ≠ 0 := by
        rintro rfl
        exact hnone hb
      simpa using hne
    rw [CStr.length, hsame, m.data.length_eq] at hlt
    exact Nat.lt_irrefl _ hlt

theorem terminated_routeMsg (stale : EventMsg) (r : RouteDef)
    (buf : Buffer readBufSize) {n : Nat} (hn : n ≤ maxData) :
    (routeMsg stale r buf n).Terminated ↔
      0 ∈ buf.bytes.take n ∨ 0 ∈ stale.data.bytes.drop n := by
  have hsize : n ≤ readBufSize := hn
  have hlen : (buf.bytes.take n).length = n := by
    simp [buf.length_eq, hsize]
  have hfit : 0 + (buf.bytes.take n).length ≤ maxData := by omega
  unfold EventMsg.Terminated routeMsg
  rw [Buffer.write_bytes _ hfit, hlen]
  simp

theorem terminated_routeStep (handler : Option PluginHandler) (r : RouteDef)
    (stale : EventMsg) (buf : Buffer readBufSize) {len : Nat}
    (hlen : len ≤ maxData) {m : EventMsg}
    (hm : (routeStep handler r len stale buf).2 = some m) :
    ∃ n, lengthInForce handler len buf = some n ∧
      (m.Terminated ↔
        0 ∈ (routeStep handler r len stale buf).1.bytes.take n ∨
          0 ∈ stale.data.bytes.drop n) := by
  cases handler with
  | none =>
      cases hm
      exact ⟨len, rfl, terminated_routeMsg stale r buf hlen⟩
  | some h =>
      simp only [routeStep, lengthInForce, clampLength] at hm ⊢
      split_ifs at hm ⊢ with hneg hbig
      · cases hm
        exact ⟨maxData, rfl, terminated_routeMsg stale r _ (Nat.le_refl _)⟩
      · cases hm
        exact ⟨_, rfl, terminated_routeMsg stale r _ (by omega)⟩

theorem bufferAfter_succ (x : RouteTurn) {r : RouteDef}
    (hr : x.routes[x.turn]? = some r) :
    x.bufferAfter (x.turn + 1) =
      (routeStep (x.handler r) r x.chunk.length (x.stale x.turn)
        (x.bufferAfter x.turn)).1 := by
  rw [routeStep_buffer]
  unfold RouteTurn.bufferAfter afterHandlers
  rw [List.take_add_one, hr, List.foldl_append]
  rfl

theorem RouteTurn.terminated_iff {x : RouteTurn}
    (hchunk : x.chunk.length ≤ 1023) {m : EventMsg} (hm : x.msg = some m) :
    m.Terminated ↔ x.ZeroInPlace := by
  have hlen : x.chunk.length ≤ maxData := by
    unfold maxData
    omega
  unfold RouteTurn.msg at hm
  rw [forward_eq, routeLoop_getElem?, Nat.zero_add] at hm
  change (x.routes[x.turn]?.map _).join = some m at hm
  cases hr : x.routes[x.turn]? with
  | none =>
      rw [hr] at hm
      contradiction
  | some r =>
      rw [hr] at hm
      rcases terminated_routeStep _ _ _ _ hlen hm with ⟨n, hn, hterminated⟩
      rw [hterminated]
      unfold RouteTurn.ZeroInPlace
      rw [bufferAfter_succ x hr, hr]
      constructor
      · intro hzero
        exact ⟨r, n, rfl, hn, hzero⟩
      · rintro ⟨r', n', hr', hn', hzero⟩
        cases hr'
        cases hn.symm.trans hn'
        exact hzero

/-! ## Through the queue -/

theorem popped_getElem? {Tid : Type} [DecidableEq Tid] {q : EventQueue}
    {trace : List (QueueEvent Tid)} {s : QueueSystem Tid}
    (run : Run QueueStep (.start q) trace s) {k : Nat} {m : EventMsg}
    (hpop : (popped trace)[k]? = some m) : (accepted trace)[k]? = some m := by
  have hlt := (List.getElem?_eq_some_iff.1 hpop).1
  rw [← (QueueInv.of_run run).fifo, List.getElem?_append_left hlt]
  exact hpop

/--
`source k` is the turn of the route loop whose message was the k-th to enter
the queue.  The k-th message that the dispatcher takes out of it is terminated
exactly when that turn left a zero in place.
-/
theorem message_text_bounded_iff {Tid : Type} [DecidableEq Tid]
    {q : EventQueue} {trace : List (QueueEvent Tid)} {s : QueueSystem Tid}
    (run : Run QueueStep (.start q) trace s) (source : Nat → RouteTurn)
    (hchunk : ∀ k, (source k).chunk.length ≤ 1023)
    (hpushed : ∀ k m, (accepted trace)[k]? = some m →
      (source k).msg = some m) :
    ∀ k m, (popped trace)[k]? = some m →
      (m.Terminated ↔ (source k).ZeroInPlace) := by
  intro k m hpop
  exact RouteTurn.terminated_iff (hchunk k)
    (hpushed k m (popped_getElem? run hpop))

def dirtySlot : EventMsg where
  dst := .zero 32
  len := 0
  data := ⟨List.replicate maxData 255, List.length_replicate⟩

def plainTurn (chunk : List UInt8) : RouteTurn where
  config := ⟨[], [], [routeOf (.lit "UART1") (.lit "NET0") .empty]⟩
  handlers := []
  name := .lit "UART1"
  stale := fun _ => dirtySlot
  stack := .zero _
  chunk := chunk
  turn := 0

def plainMsg (chunk : List UInt8) : EventMsg :=
  routeMsg dirtySlot (routeOf (.lit "UART1") (.lit "NET0") .empty)
    (readInto (.zero _) chunk) chunk.length

theorem plainTurn_msg (chunk : List UInt8) :
    (plainTurn chunk).msg = some (plainMsg chunk) := by
  rfl

theorem push_pop_run (m : EventMsg) :
    ∃ s, Run QueueStep (.start .boot : QueueSystem Nat)
      ([] ++ [.pushReturned 0 m 0] ++ [.popReturned 1 m]) s :=
  ⟨_, .next (.next .refl (.push m rfl)) (.pop rfl)⟩

theorem message_text_unterminated :
    ∃ trace s, Run QueueStep (.start .boot : QueueSystem Nat) trace s ∧
      (plainTurn [65]).msg = some (plainMsg [65]) ∧
      popped trace = [plainMsg [65]] ∧ ¬ (plainMsg [65]).Terminated := by
  rcases push_pop_run (plainMsg [65]) with ⟨s, run⟩
  exact ⟨_, s, run, plainTurn_msg [65], rfl, by decide +kernel⟩

theorem message_text_bounded_iff_zero :
    (plainMsg [65, 0]).Terminated ↔ (plainTurn [65, 0]).ZeroInPlace := by
  rcases push_pop_run (plainMsg [65, 0]) with ⟨s, run⟩
  apply message_text_bounded_iff run (fun _ => plainTurn [65, 0]) _ _ 0 _ rfl
  · intro k
    decide
  · rintro (_ | k) m hm
    · cases hm
      exact plainTurn_msg [65, 0]
    · contradiction

end EzRouter
