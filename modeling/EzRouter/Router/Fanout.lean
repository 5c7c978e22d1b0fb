import EzRouter.Config.Store
import EzRouter.Router.EventQueue
import EzRouter.Router.Plugin

/-!
# Forwarding a chunk along its routes

The second half of the body of `reactor_thread`: a chunk has been read into
`buf`, and every route of the port it came from gets a message.  All routes
share `buf`, so a handler hands its changes on to the routes after it, while
the length starts from the length read each time.
-/

namespace EzRouter

open EzRouter.Foundation

def readInto (stack : Buffer readBufSize) (chunk : List UInt8) :
    Buffer readBufSize :=
  stack.write 0 (chunk ++ [0])

/-- The message built on top of whatever the stack slot of `msg` held. -/
def routeMsg (stale : EventMsg) (r : RouteDef) (buf : Buffer readBufSize)
    (dataLen : Nat) : EventMsg where
  dst := r.dst
  len := dataLen
  data := stale.data.write 0 (buf.bytes.take dataLen)

def routeStep (handler : Option PluginHandler) (r : RouteDef) (len : Nat)
    (stale : EventMsg) (buf : Buffer readBufSize) :
    Buffer readBufSize × Option EventMsg :=
  match handler with
  | none => (buf, some (routeMsg stale r buf len))
  | some h =>
      let (buf', dataLen) := h buf len
      if dataLen < 0 then (buf', none)
      else if dataLen > maxData then
        (buf', some (routeMsg stale r buf' maxData))
      else (buf', some (routeMsg stale r buf' dataLen.toNat))

/-- One entry for each route: the message offered to the queue, or nothing
when the handler's length made the route drop out. -/
def routeLoop (lookup : CStr → Option PluginHandler) (len : Nat)
    (stale : Nat → EventMsg) :
    List RouteDef → Nat → Buffer readBufSize → List (Option EventMsg)
  | [], _, _ => []
  | r :: routes, j, buf =>
      let out := routeStep (lookup r.handler.str) r len (stale j) buf
      out.2 :: routeLoop lookup len stale routes (j + 1) out.1

def forward (c : Config) (handlers : List HandlerEntry) (name : CStr)
    (stale : Nat → EventMsg) (stack : Buffer readBufSize)
    (chunk : List UInt8) : List (Option EventMsg) :=
  routeLoop (pluginGetHandler handlers) chunk.length stale
    (configFindRoutesBySrc c name 16) 0 (readInto stack chunk)

theorem forward_eq (c : Config) (handlers : List HandlerEntry) (name : CStr)
    (stale : Nat → EventMsg) (stack : Buffer readBufSize)
    (chunk : List UInt8) :
    forward c handlers name stale stack chunk =
      routeLoop (pluginGetHandler handlers) chunk.length stale
        ((c.routes.filter (·.src.str = name)).take 16) 0
        (readInto stack chunk) := by
  rw [forward, configFindRoutesBySrc_eq]

structure Delivery where
  dst : Buffer 32
  len : Int
  payload : List UInt8
  deriving DecidableEq, Repr

def EventMsg.delivery (m : EventMsg) : Delivery :=
  ⟨m.dst, m.len, m.data.bytes.take m.len.toNat⟩

def clampLength (n : Int) : Option Nat :=
  if n < 0 then none else if n > maxData then some maxData else some n.toNat

def delivered (handler : Option PluginHandler) (r : RouteDef) (len : Nat)
    (buf : Buffer readBufSize) : Option Delivery :=
  match handler with
  | none => some ⟨r.dst, len, buf.bytes.take len⟩
  | some h => (clampLength (h buf len).2).map fun n : Nat =>
      ⟨r.dst, (n : Int), (h buf len).1.bytes.take n⟩

theorem delivery_routeMsg (stale : EventMsg) (r : RouteDef)
    (buf : Buffer readBufSize) {n : Nat} (h : n ≤ maxData) :
    (routeMsg stale r buf n).delivery =
      ⟨r.dst, (n : Int), buf.bytes.take n⟩ := by
  have hbuf : (buf.bytes.take n).length = n := by
    have hsize : n ≤ readBufSize := h
    simp [buf.length_eq, hsize]
  have htake := Buffer.take_write_zero stale.data (buf.bytes.take n) (by omega)
  rw [hbuf] at htake
  simp [routeMsg, EventMsg.delivery, htake]

theorem delivery_routeStep (handler : Option PluginHandler) (r : RouteDef)
    (stale : EventMsg) (buf : Buffer readBufSize) {len : Nat}
    (hlen : len ≤ maxData) :
    (routeStep handler r len stale buf).2.map EventMsg.delivery =
      delivered handler r len buf := by
  cases handler with
  | none => simp [routeStep, delivered, delivery_routeMsg stale r buf hlen]
  | some h =>
      simp only [routeStep, delivered, clampLength]
      split_ifs with hneg hbig
      · rfl
      · simp [delivery_routeMsg]
      · have hsmall : (h buf len).2.toNat ≤ maxData := by omega
        simp [delivery_routeMsg stale r _ hsmall]

def afterHandlers (lookup : CStr → Option PluginHandler) (len : Nat)
    (routes : List RouteDef) (buf : Buffer readBufSize) : Buffer readBufSize :=
  routes.foldl (fun buf r =>
    match lookup r.handler.str with
    | none => buf
    | some h => (h buf len).1) buf

theorem routeStep_buffer (handler : Option PluginHandler) (r : RouteDef)
    (len : Nat) (stale : EventMsg) (buf : Buffer readBufSize) :
    (routeStep handler r len stale buf).1 =
      match handler with
      | none => buf
      | some h => (h buf len).1 := by
  cases handler with
  | none => rfl
  | some h =>
      simp only [routeStep]
      split_ifs <;> rfl

theorem routeLoop_getElem? (lookup : CStr → Option PluginHandler) (len : Nat)
    (stale : Nat → EventMsg) (routes : List RouteDef) (i j : Nat)
    (buf : Buffer readBufSize) :
    (routeLoop lookup len stale routes j buf)[i]? =
      routes[i]?.map fun r =>
        (routeStep (lookup r.handler.str) r len (stale (j + i))
          (afterHandlers lookup len (routes.take i) buf)).2 := by
  induction routes generalizing i j buf with
  | nil => simp [routeLoop]
  | cons r routes ih =>
      cases i with
      | zero => simp [routeLoop, afterHandlers]
      | succ i =>
          simp only [routeLoop, List.getElem?_cons_succ, ih,
            List.take_succ_cons]
          rw [show j + 1 + i = j + (i + 1) by omega]
          simp [afterHandlers, routeStep_buffer]

/-! ## Independence of the routes -/

def FanoutIndependent (lookup : CStr → Option PluginHandler) (len : Nat)
    (stale : Nat → EventMsg) (routes : List RouteDef)
    (buf : Buffer readBufSize) : Prop :=
  ∀ (i : Nat) (r : RouteDef), routes[i]? = some r →
    (routeLoop lookup len stale routes 0 buf)[i]?.map
        (Option.map EventMsg.delivery) =
      (routeLoop lookup len stale [r] 0 buf)[0]?.map
        (Option.map EventMsg.delivery)

/-- A route with this handler cannot tell the buffer `changed` from the buffer
as it was read: its handler yields the same length and the same bytes below
that length, or, when it has none, the bytes of the chunk are intact. -/
def Undisturbed (handler : Option PluginHandler) (len : Nat)
    (changed buf : Buffer readBufSize) : Prop :=
  match handler with
  | none => changed.bytes.take len = buf.bytes.take len
  | some h =>
      clampLength (h changed len).2 = clampLength (h buf len).2 ∧
        ∀ n, clampLength (h buf len).2 = some n →
          (h changed len).1.bytes.take n = (h buf len).1.bytes.take n

theorem undisturbed_of_plain {lookup : CStr → Option PluginHandler}
    {handler : Option PluginHandler} {len : Nat} {routes : List RouteDef}
    {buf : Buffer readBufSize}
    (hplain : ∀ r ∈ routes, lookup r.handler.str = none) :
    Undisturbed handler len (afterHandlers lookup len routes buf) buf := by
  have hbuf : afterHandlers lookup len routes buf = buf := by
    induction routes with
    | nil => rfl
    | cons r routes ih =>
        have hnone := hplain r (by simp)
        have htail := ih fun r' hr' => hplain r' (by simp [hr'])
        simpa [afterHandlers, hnone] using htail
  rw [hbuf]
  cases handler with
  | none => rfl
  | some h => exact ⟨rfl, fun n _ => rfl⟩

theorem delivered_eq_iff (handler : Option PluginHandler) (r : RouteDef)
    (len : Nat) (changed buf : Buffer readBufSize) :
    delivered handler r len changed = delivered handler r len buf ↔
      Undisturbed handler len changed buf := by
  cases handler with
  | none => simp [delivered, Undisturbed]
  | some h =>
      simp only [delivered, Undisturbed]
      cases hbuf : clampLength (h buf len).2 with
      | none => simp
      | some n =>
          cases hchanged : clampLength (h changed len).2 with
          | none => simp
          | some m =>
              simp only [Option.map_some, Option.some.injEq, Delivery.mk.injEq,
                true_and, Nat.cast_inj]
              constructor
              · rintro ⟨rfl, hbytes⟩
                exact ⟨rfl, fun k hk => hk ▸ hbytes⟩
              · rintro ⟨rfl, hbytes⟩
                exact ⟨rfl, hbytes m rfl⟩

theorem take_readInto (stack : Buffer readBufSize) {chunk : List UInt8}
    (h : chunk.length ≤ 1023) :
    (readInto stack chunk).bytes.take chunk.length = chunk := by
  have hfit : (chunk ++ [0]).length ≤ readBufSize := by
    simp [readBufSize]
    omega
  have hwrite := Buffer.take_write_zero stack (chunk ++ [0]) hfit
  have hprefix := congrArg (List.take chunk.length) hwrite
  simpa [readInto, List.take_take] using hprefix

/--
The routes of a chunk are independent exactly when no handler disturbs a later
route: for each route, the handlers of the routes before it, run one after the
other on the chunk, leave the buffer so that the route delivers the same.
-/
theorem fanout_independent_iff (lookup : CStr → Option PluginHandler)
    (stale : Nat → EventMsg) (stack : Buffer readBufSize)
    (routes : List RouteDef) {chunk : List UInt8}
    (hchunk : chunk.length ≤ 1023) :
    (∀ r, (routeLoop lookup chunk.length stale [r] 0
        (readInto stack chunk))[0]?.map (Option.map EventMsg.delivery) =
      some (match lookup r.handler.str with
        | none => some ⟨r.dst, chunk.length, chunk⟩
        | some _ => delivered (lookup r.handler.str) r chunk.length
            (readInto stack chunk))) ∧
    (FanoutIndependent lookup chunk.length stale routes (readInto stack chunk) ↔
      ∀ (i : Nat) (r : RouteDef), routes[i]? = some r →
        Undisturbed (lookup r.handler.str) chunk.length
          (afterHandlers lookup chunk.length (routes.take i)
            (readInto stack chunk))
          (readInto stack chunk)) := by
  have hlen : chunk.length ≤ maxData := by
    unfold maxData
    omega
  constructor
  · intro r
    rw [routeLoop_getElem?]
    simp only [List.getElem?_cons_zero, Option.map_some,
      delivery_routeStep _ _ _ _ hlen]
    cases lookup r.handler.str with
    | none => simp [delivered, afterHandlers, take_readInto stack hchunk]
    | some h => simp [afterHandlers]
  · unfold FanoutIndependent
    refine forall_congr' fun i => forall_congr' fun r => ?_
    refine imp_congr_right fun hr => ?_
    rw [routeLoop_getElem?, routeLoop_getElem?, hr]
    simp only [List.getElem?_cons_zero, Option.map_some, Option.some.injEq,
      delivery_routeStep _ _ _ _ hlen]
    exact delivered_eq_iff _ _ _ _ _

def filterInit (handlers : List HandlerEntry) : List HandlerEntry :=
  pluginRegisterHandler
    (pluginRegisterHandler handlers (.lit "filter") (.lit "usb_to_uart")
      usbToUart)
    (.lit "filter") (.lit "uart_to_usb") uartToUsb

def routeOf (src dst handler : CStr) : RouteDef :=
  ⟨.ofStr 32 src, .ofStr 32 dst, .ofStr 32 (.lit "filter"), .ofStr 64 handler⟩

def markedThenPlain : List RouteDef :=
  [routeOf (.lit "UART1") (.lit "HOST_IPC") (.lit "filter.uart_to_usb"),
   routeOf (.lit "UART1") (.lit "NET0") .empty]

theorem fanout_not_independent :
    ¬ FanoutIndependent (pluginGetHandler (filterInit [])) 2 (fun _ => .zero)
      markedThenPlain (readInto (.zero _) [65, 66]) := by
  intro h
  have hplain := h 1 _ rfl
  revert hplain
  decide

theorem fanout_independent_iff_plain_first :
    FanoutIndependent (pluginGetHandler (filterInit [])) 2 (fun _ => .zero)
      markedThenPlain.reverse (readInto (.zero _) [65, 66]) := by
  have hchunk : ([65, 66] : List UInt8).length ≤ 1023 := by decide
  refine (fanout_independent_iff (pluginGetHandler (filterInit []))
    (fun _ => .zero) (.zero _) markedThenPlain.reverse hchunk).2.2 ?_
  intro i r hr
  have hbound : i < 2 := by
    obtain ⟨hlt, -⟩ := List.getElem?_eq_some_iff.1 hr
    simpa [markedThenPlain] using hlt
  refine undisturbed_of_plain fun earlier hearlier => ?_
  have hplain : earlier = routeOf (.lit "UART1") (.lit "NET0") .empty := by
    match i, hbound with
    | 0, _ => simp at hearlier
    | 1, _ => simpa [markedThenPlain] using hearlier
  rw [hplain]
  decide

end EzRouter
