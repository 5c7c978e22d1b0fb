import EzRouter.Router.Fanout
import Mathlib.Data.List.Induction

/-!
# Routes through the filter plugin

With `plugins/filter.c` loaded, every handler along the routes of a port either
raises letters or puts a mark in front.  Since all of them work on one buffer,
what a route sends depends on the routes before it: this module says how, for
any routes.
-/

namespace EzRouter

open EzRouter.Foundation

inductive FilterKind where
  | plain
  | usbToUart
  | uartToUsb
  deriving DecidableEq, Repr

def filterKind (r : RouteDef) : FilterKind :=
  if r.handler.str = .lit "filter.usb_to_uart" then .usbToUart
  else if r.handler.str = .lit "filter.uart_to_usb" then .uartToUsb
  else .plain

def FilterKind.handler : FilterKind → Option PluginHandler
  | .plain => none
  | .usbToUart => some EzRouter.usbToUart
  | .uartToUsb => some EzRouter.uartToUsb

theorem pluginGetHandler_filterInit (r : RouteDef) :
    pluginGetHandler (filterInit []) r.handler.str = (filterKind r).handler := by
  have husb : (Buffer.ofStr 128
      (dotted (.lit "filter") (.lit "usb_to_uart"))).str =
        .lit "filter.usb_to_uart" := by
    decide
  have huart : (Buffer.ofStr 128
      (dotted (.lit "filter") (.lit "uart_to_usb"))).str =
        .lit "filter.uart_to_usb" := by
    decide
  have hdistinct : CStr.lit "filter.usb_to_uart" ≠
      CStr.lit "filter.uart_to_usb" := by
    decide
  have hentries : filterInit [] =
      [⟨.ofStr 128 (dotted (.lit "filter") (.lit "usb_to_uart")), usbToUart⟩,
        ⟨.ofStr 128 (dotted (.lit "filter") (.lit "uart_to_usb")),
          uartToUsb⟩] := rfl
  rw [hentries, pluginGetHandler, filterKind]
  by_cases hfirst : r.handler.str = .lit "filter.usb_to_uart"
  · simp [husb, hfirst, FilterKind.handler]
  · by_cases hsecond : r.handler.str = .lit "filter.uart_to_usb"
    · simp [husb, huart, hsecond, hdistinct, hdistinct.symm,
        FilterKind.handler]
    · simp [husb, huart, hfirst, hsecond, Ne.symm hfirst, Ne.symm hsecond,
        FilterKind.handler]

def FilterKind.payload (bytes : List UInt8) : FilterKind → List UInt8
  | .plain => bytes
  | .usbToUart => bytes.map toUpperByte
  | .uartToUsb => 0xAA :: bytes

theorem FilterKind.le_length_payload (kind : FilterKind) (bytes : List UInt8) :
    bytes.length ≤ (kind.payload bytes).length := by
  cases kind <;> simp [payload]

theorem FilterKind.plain_of_handler {kind : FilterKind}
    (h : kind.handler = none) : kind = .plain := by
  cases kind <;> simp_all [handler]

theorem length_take_read (buf : Buffer readBufSize) {n : Nat}
    (hn : n ≤ 1023) : (buf.bytes.take n).length = n := by
  simp [buf.length_eq, readBufSize]
  omega

theorem usbToUart_bytes (buf : Buffer readBufSize) {n : Nat}
    (hn : n ≤ 1023) :
    (usbToUart buf n).1.bytes.take n =
      (buf.bytes.take n).map toUpperByte := by
  have hlen := length_take_read buf hn
  simp only [usbToUart, Int.toNat_natCast]
  apply List.take_left'
  rw [List.length_map, hlen]

theorem uartToUsb_bytes (buf : Buffer readBufSize) {n : Nat}
    (hn : n ≤ 1023) :
    (uartToUsb buf n).1.bytes.take (n + 1) = 0xAA :: buf.bytes.take n := by
  have hlen := length_take_read buf hn
  have hfits : 1 + (buf.bytes.take n).length ≤ readBufSize := by
    rw [hlen, readBufSize]
    omega
  have hmark : 0 + ([0xAA] : List UInt8).length ≤ readBufSize := by decide
  have hsmall : ¬ (n : Int) + 1 > 2048 := by omega
  have hhead : (buf.bytes.take 1).length = 1 := by
    simp [buf.length_eq, readBufSize]
  simp only [uartToUsb, hsmall, if_false, Int.toNat_natCast]
  rw [Buffer.write_bytes _ hmark, Buffer.write_bytes _ hfits]
  simp [List.take_append, hhead, hlen, List.take_take]

theorem handler_payload {kind : FilterKind} {h : PluginHandler}
    (hkind : kind.handler = some h) (buf : Buffer readBufSize) {n : Nat}
    (hn : n ≤ 1023) :
    (h buf n).2 = (kind.payload (buf.bytes.take n)).length ∧
      (h buf n).1.bytes.take (kind.payload (buf.bytes.take n)).length =
        kind.payload (buf.bytes.take n) := by
  have hlen := length_take_read buf hn
  cases kind with
  | plain => simp [FilterKind.handler] at hkind
  | usbToUart =>
      obtain rfl : EzRouter.usbToUart = h := by
        simpa [FilterKind.handler] using hkind
      simp only [FilterKind.payload, List.length_map, hlen]
      exact ⟨rfl, usbToUart_bytes buf hn⟩
  | uartToUsb =>
      obtain rfl : EzRouter.uartToUsb = h := by
        simpa [FilterKind.handler] using hkind
      have hsmall : ¬ (n : Int) + 1 > 2048 := by omega
      simp only [FilterKind.payload, List.length_cons, hlen]
      exact ⟨by simp [EzRouter.uartToUsb, hsmall], uartToUsb_bytes buf hn⟩

/-! ## What the routes before leave behind -/

def marks (routes : List RouteDef) : Nat :=
  routes.countP (filterKind · = .uartToUsb)

def raises (routes : List RouteDef) : Bool :=
  routes.any (filterKind · = .usbToUart)

/-- The chunk as the route after `routes` finds it: one mark for each route
that puts a mark in front, and the end of the chunk pushed out. -/
def chainBytes (routes : List RouteDef) (chunk : List UInt8) : List UInt8 :=
  (List.replicate (marks routes) 0xAA ++
    if raises routes then chunk.map toUpperByte else chunk).take chunk.length

theorem toUpperByte_idem (b : UInt8) :
    toUpperByte (toUpperByte b) = toUpperByte b := by
  revert b
  refine forall_byte ?_
  decide +kernel

theorem chainBytes_nil (chunk : List UInt8) : chainBytes [] chunk = chunk := by
  simp [chainBytes, marks, raises]

theorem chainBytes_snoc (routes : List RouteDef) (r : RouteDef)
    (chunk : List UInt8) :
    chainBytes (routes ++ [r]) chunk =
      ((filterKind r).payload (chainBytes routes chunk)).take
        chunk.length := by
  have hmark : toUpperByte 0xAA = 0xAA := by decide
  have hidem : toUpperByte ∘ toUpperByte = toUpperByte :=
    funext toUpperByte_idem
  cases hkind : filterKind r with
  | plain =>
      simp [chainBytes, marks, raises, hkind, FilterKind.payload,
        List.take_take]
  | usbToUart =>
      have hraises : raises (routes ++ [r]) = true := by simp [raises, hkind]
      have hmarks : marks (routes ++ [r]) = marks routes := by
        simp [marks, hkind]
      have hletters : (if raises routes then chunk.map toUpperByte
          else chunk).map toUpperByte = chunk.map toUpperByte := by
        split_ifs <;> simp [hidem]
      rw [chainBytes, hraises, hmarks, FilterKind.payload, chainBytes,
        List.map_take, List.map_append, List.map_replicate, hmark, hletters,
        List.take_take, Nat.min_self, if_pos rfl]
  | uartToUsb =>
      have hraises : raises (routes ++ [r]) = raises routes := by
        simp [raises, hkind]
      have hmarks : marks (routes ++ [r]) = marks routes + 1 := by
        simp [marks, hkind]
      rw [chainBytes, hraises, hmarks, List.replicate_succ, List.cons_append,
        FilterKind.payload, chainBytes]
      cases hn : chunk.length with
      | zero => simp
      | succ n => simp [List.take_take]

theorem afterHandlers_filterInit (routes : List RouteDef)
    (buf : Buffer readBufSize) {n : Nat} (hn : n ≤ 1023) :
    (afterHandlers (pluginGetHandler (filterInit [])) n routes buf).bytes.take
        n = chainBytes routes (buf.bytes.take n) := by
  have hlen := length_take_read buf hn
  induction routes using List.reverseRecOn with
  | nil => simp [afterHandlers, chainBytes_nil]
  | append_singleton routes r ih =>
      rw [chainBytes_snoc, hlen, ← ih]
      simp only [afterHandlers, List.foldl_append, List.foldl_cons,
        List.foldl_nil, pluginGetHandler_filterInit] at ih ⊢
      generalize List.foldl _ buf routes = left at ih ⊢
      cases hhandler : (filterKind r).handler with
      | none =>
          have hplain := FilterKind.plain_of_handler hhandler
          simp [hplain, FilterKind.payload, List.take_take]
      | some h =>
          have hpayload := (handler_payload hhandler left hn).2
          have hle : n ≤
              ((filterKind r).payload (left.bytes.take n)).length := by
            have hgrows := (filterKind r).le_length_payload (left.bytes.take n)
            have hsize := length_take_read left hn
            omega
          rw [← hpayload, List.take_take, Nat.min_eq_left hle]

def filterDelivery (r : RouteDef) (bytes : List UInt8) : Delivery where
  dst := r.dst
  len := ((filterKind r).payload bytes).length
  payload := (filterKind r).payload bytes

theorem delivered_filterInit (r : RouteDef) (buf : Buffer readBufSize) {n : Nat}
    (hn : n ≤ 1023) :
    delivered (pluginGetHandler (filterInit []) r.handler.str) r n buf =
      some (filterDelivery r (buf.bytes.take n)) := by
  have hlen := length_take_read buf hn
  rw [pluginGetHandler_filterInit]
  cases hhandler : (filterKind r).handler with
  | none =>
      have hplain := FilterKind.plain_of_handler hhandler
      simp [delivered, filterDelivery, hplain, FilterKind.payload, hlen]
  | some h =>
      rcases handler_payload hhandler buf hn with ⟨hresult, hbytes⟩
      have hshort : ((filterKind r).payload (buf.bytes.take n)).length ≤
          maxData := by
        cases filterKind r <;> simp [FilterKind.payload, maxData] <;> omega
      have hclamp : clampLength (h buf n).2 =
          some ((filterKind r).payload (buf.bytes.take n)).length := by
        rw [hresult, clampLength, if_neg (by omega), if_neg (by omega),
          Int.toNat_natCast]
      simp [delivered, hclamp, hbytes, filterDelivery]

/-- Every route sends what its own handler makes of the chunk that the routes
before it have left behind. -/
theorem filter_chain (c : Config) (name : CStr) (stale : Nat → EventMsg)
    (stack : Buffer readBufSize) {chunk : List UInt8}
    (hchunk : chunk.length ≤ 1023) (j : Nat) :
    ((forward c (filterInit []) name stale stack chunk).map
        (Option.map EventMsg.delivery))[j]? =
      ((c.routes.filter (·.src.str = name)).take 16)[j]?.map fun r =>
        some (filterDelivery r (chainBytes
          ((c.routes.filter (·.src.str = name)).take j) chunk)) := by
  have hlen : chunk.length ≤ maxData := by
    unfold maxData
    omega
  rw [forward_eq, List.getElem?_map, routeLoop_getElem?, Option.map_map]
  generalize hroutes : c.routes.filter (·.src.str = name) = routes
  cases hr : (routes.take 16)[j]? with
  | none => rfl
  | some r =>
      have hj : j < 16 := by
        obtain ⟨hlt, -⟩ := List.getElem?_eq_some_iff.1 hr
        simp at hlt
        omega
      have hbefore : (routes.take 16).take j = routes.take j := by
        rw [List.take_take, Nat.min_eq_left hj.le]
      simp only [Option.map_some, Function.comp_apply,
        delivery_routeStep _ _ _ _ hlen, hbefore,
        delivered_filterInit _ _ hchunk, afterHandlers_filterInit _ _ hchunk,
        take_readInto stack hchunk]

def filteredConfig : Config where
  ports := []
  plugins := []
  routes :=
    [routeOf (.lit "UART1") (.lit "HOST_IPC") (.lit "filter.uart_to_usb"),
     routeOf (.lit "UART1") (.lit "NET0") (.lit "filter.usb_to_uart"),
     routeOf (.lit "UART1") (.lit "NET1") .empty]

theorem filter_chain_three :
    ((forward filteredConfig (filterInit []) (.lit "UART1") (fun _ => .zero)
        (.zero _) [97, 98, 99]).map (Option.map EventMsg.delivery))[2]? =
      some (some ⟨.ofStr 32 (.lit "NET1"), 3, [0xAA, 65, 66]⟩) := by
  have hchunk : ([97, 98, 99] : List UInt8).length ≤ 1023 := by decide
  rw [filter_chain filteredConfig (.lit "UART1") (fun _ => .zero) (.zero _)
    hchunk 2]
  decide

end EzRouter
