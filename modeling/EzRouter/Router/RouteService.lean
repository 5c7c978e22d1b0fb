import EzRouter.Router.Fanout

/-!
# Which routes a chunk is served

`forward` lists the messages of a chunk.  Here the route loop is observed with
its calls: the handler that is run on the buffer and the message handed to
`queue_push`.  The reactor asks for sixteen routes, the configuration stores
up to sixty-four.
-/

namespace EzRouter

open EzRouter.Foundation

inductive RouteCall where
  | handler (name : CStr) (buf : Buffer readBufSize) (len : Nat) (result : Int)
  | queuePush (msg : EventMsg)

def handlerCall (handler : Option PluginHandler) (r : RouteDef) (len : Nat)
    (buf : Buffer readBufSize) : List RouteCall :=
  match handler with
  | none => []
  | some h => [.handler r.handler.str buf len (h buf len).2]

def routeCalls (lookup : CStr → Option PluginHandler) (len : Nat)
    (stale : Nat → EventMsg) :
    List RouteDef → Nat → Buffer readBufSize → List RouteCall
  | [], _, _ => []
  | r :: routes, j, buf =>
      let out := routeStep (lookup r.handler.str) r len (stale j) buf
      handlerCall (lookup r.handler.str) r len buf ++
        out.2.toList.map .queuePush ++
        routeCalls lookup len stale routes (j + 1) out.1

def forwardCalls (c : Config) (handlers : List HandlerEntry) (name : CStr)
    (stale : Nat → EventMsg) (stack : Buffer readBufSize)
    (chunk : List UInt8) : List RouteCall :=
  routeCalls (pluginGetHandler handlers) chunk.length stale
    (configFindRoutesBySrc c name 16) 0 (readInto stack chunk)

def RouteCall.pushed : RouteCall → Option EventMsg
  | .handler .. => none
  | .queuePush msg => some msg

theorem pushed_routeCalls (lookup : CStr → Option PluginHandler) (len : Nat)
    (stale : Nat → EventMsg) (routes : List RouteDef) (j : Nat)
    (buf : Buffer readBufSize) :
    (routeCalls lookup len stale routes j buf).filterMap RouteCall.pushed =
      (routeLoop lookup len stale routes j buf).reduceOption := by
  induction routes generalizing j buf with
  | nil => rfl
  | cons r routes ih =>
      have hcall : (handlerCall (lookup r.handler.str) r len buf).filterMap
          RouteCall.pushed = [] := by
        cases lookup r.handler.str <;> rfl
      simp only [routeCalls, routeLoop, List.filterMap_append, hcall, ih]
      cases (routeStep (lookup r.handler.str) r len (stale j) buf).2 <;> rfl

theorem pushed_forwardCalls (c : Config) (handlers : List HandlerEntry)
    (name : CStr) (stale : Nat → EventMsg) (stack : Buffer readBufSize)
    (chunk : List UInt8) :
    (forwardCalls c handlers name stale stack chunk).filterMap
        RouteCall.pushed =
      (forward c handlers name stale stack chunk).reduceOption :=
  pushed_routeCalls _ _ _ _ _ _

/-- The calls by which a chunk of length `len` is served to one route. -/
inductive Serves (lookup : CStr → Option PluginHandler) (len : Nat)
    (r : RouteDef) : List RouteCall → Prop where
  | plain {msg : EventMsg} (hnone : lookup r.handler.str = none)
      (hdst : msg.dst = r.dst) : Serves lookup len r [.queuePush msg]
  | rejected {h : PluginHandler} {buf : Buffer readBufSize}
      (hsome : lookup r.handler.str = some h) (hneg : (h buf len).2 < 0) :
      Serves lookup len r [.handler r.handler.str buf len (h buf len).2]
  | handled {h : PluginHandler} {buf : Buffer readBufSize} {msg : EventMsg}
      (hsome : lookup r.handler.str = some h) (hlen : 0 ≤ (h buf len).2)
      (hdst : msg.dst = r.dst) :
      Serves lookup len r
        [.handler r.handler.str buf len (h buf len).2, .queuePush msg]

/-- Every stored route of the port is served, once and in the order of the
configuration, and nothing else is called. -/
def EveryRouteServed (c : Config) (handlers : List HandlerEntry) (name : CStr)
    (len : Nat) (calls : List RouteCall) : Prop :=
  ∃ blocks, calls = blocks.flatten ∧
    List.Forall₂ (Serves (pluginGetHandler handlers) len)
      (c.routes.filter (·.src.str = name)) blocks

def RouteCall.ends : RouteCall → Bool
  | .handler _ _ _ result => result < 0
  | .queuePush _ => true

variable {lookup : CStr → Option PluginHandler} {len : Nat}

theorem Serves.countP_ends {r : RouteDef} {calls : List RouteCall}
    (h : Serves lookup len r calls) : calls.countP RouteCall.ends = 1 := by
  cases h with
  | plain => rfl
  | rejected _ hneg => simp [RouteCall.ends, hneg]
  | handled _ hlen =>
      have hnonneg := Int.not_lt.2 hlen
      simp [RouteCall.ends, hnonneg]

theorem countP_ends_flatten {routes : List RouteDef}
    {blocks : List (List RouteCall)}
    (h : List.Forall₂ (Serves lookup len) routes blocks) :
    blocks.flatten.countP RouteCall.ends = routes.length := by
  induction h with
  | nil => rfl
  | cons hserves _ ih =>
      rw [List.flatten_cons, List.countP_append, hserves.countP_ends, ih,
        List.length_cons]
      omega

theorem serves_routeStep (r : RouteDef) (stale : EventMsg)
    (buf : Buffer readBufSize) :
    Serves lookup len r
      (handlerCall (lookup r.handler.str) r len buf ++
        (routeStep (lookup r.handler.str) r len stale buf).2.toList.map
          .queuePush) := by
  cases hlookup : lookup r.handler.str with
  | none => exact .plain hlookup rfl
  | some h =>
      simp only [handlerCall, routeStep]
      split_ifs with hneg hbig
      · exact .rejected hlookup hneg
      · exact .handled hlookup (Int.not_lt.1 hneg) rfl
      · exact .handled hlookup (Int.not_lt.1 hneg) rfl

theorem routeCalls_serves (stale : Nat → EventMsg) (routes : List RouteDef)
    (j : Nat) (buf : Buffer readBufSize) :
    ∃ blocks, routeCalls lookup len stale routes j buf = blocks.flatten ∧
      List.Forall₂ (Serves lookup len) routes blocks := by
  induction routes generalizing j buf with
  | nil => exact ⟨[], rfl, .nil⟩
  | cons r routes ih =>
      have hhead : Serves lookup len r _ := serves_routeStep r (stale j) buf
      rcases ih (j + 1)
        (routeStep (lookup r.handler.str) r len (stale j) buf).1 with
        ⟨blocks, htail, hserves⟩
      refine ⟨_ :: blocks, ?_, .cons hhead hserves⟩
      rw [routeCalls, htail, List.flatten_cons]

theorem countP_ends_forwardCalls (c : Config) (handlers : List HandlerEntry)
    (name : CStr) (stale : Nat → EventMsg) (stack : Buffer readBufSize)
    (chunk : List UInt8) :
    (forwardCalls c handlers name stale stack chunk).countP RouteCall.ends =
      min 16 (c.routes.filter (·.src.str = name)).length := by
  rcases routeCalls_serves stale (configFindRoutesBySrc c name 16) 0
    (readInto stack chunk) with ⟨blocks, hcalls, hserves⟩
  rw [forwardCalls, hcalls, countP_ends_flatten hserves,
    configFindRoutesBySrc_eq, List.length_take]

/-- A chunk is served to every stored route of its port exactly when there are
at most as many as the reactor asks for. -/
theorem every_route_served_iff (c : Config) (handlers : List HandlerEntry)
    (name : CStr) (stale : Nat → EventMsg) (stack : Buffer readBufSize)
    (chunk : List UInt8) :
    EveryRouteServed c handlers name chunk.length
        (forwardCalls c handlers name stale stack chunk) ↔
      (c.routes.filter (·.src.str = name)).length ≤ 16 := by
  constructor
  · rintro ⟨blocks, hcalls, hserves⟩
    have hcount := countP_ends_forwardCalls c handlers name stale stack chunk
    rw [hcalls, countP_ends_flatten hserves] at hcount
    omega
  · intro hle
    rcases routeCalls_serves stale (configFindRoutesBySrc c name 16) 0
      (readInto stack chunk) with ⟨blocks, hcalls, hserves⟩
    rw [configFindRoutesBySrc_eq, List.take_of_length_le hle] at hserves
    exact ⟨blocks, hcalls, hserves⟩

def crowdedConfig : Config where
  ports := []
  plugins := []
  routes := List.replicate 17 (routeOf (.lit "UART1") (.lit "NET0") .empty)

theorem seventeenth_route_unserved :
    crowdedConfig.routes.length ≤ maxRoutes ∧
      ¬ EveryRouteServed crowdedConfig [] (.lit "UART1") 2
        (forwardCalls crowdedConfig [] (.lit "UART1") (fun _ => .zero)
          (.zero _) [65, 66]) := by
  constructor
  · decide
  · rintro ⟨blocks, hcalls, hserves⟩
    have hcount := countP_ends_forwardCalls crowdedConfig [] (.lit "UART1")
      (fun _ => .zero) (.zero _) [65, 66]
    have hmatch : (crowdedConfig.routes.filter
        (·.src.str = .lit "UART1")).length = 17 := by
      decide
    rw [hcalls, countP_ends_flatten hserves, hmatch] at hcount
    cases hcount

end EzRouter
