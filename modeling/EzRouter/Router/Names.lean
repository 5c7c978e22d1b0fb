import EzRouter.Router.Fanout
import EzRouter.Router.ReactorInvariants
import Mathlib.Data.List.Find

/-!
# How names resolve

A name of the configuration is cut to the field that holds it and compared
later with other stored names: the source of a route with a port, the
destination of a route with a port, the handler of a route with what the
plugins have registered.
-/

namespace EzRouter

open EzRouter.Foundation

def fieldText (obj : CJson) (key : CStr) : CStr :=
  match cJSONGetObjectItem (some obj) key with
  | some (.string s) => s
  | _ => .empty

def nameText (item : CJson) : CStr := fieldText item (.lit "name")
def srcText (item : CJson) : CStr := fieldText item (.lit "src")
def dstText (item : CJson) : CStr := fieldText item (.lit "dst")
def handlerText (item : CJson) : CStr := fieldText item (.lit "handler")

def itemsOf (root : CJson) (key : CStr) : List CJson :=
  arrayItems (cJSONGetObjectItem (some root) key)

structure Registration where
  pluginName : CStr
  handlerName : CStr
  func : PluginHandler

def Registration.fullName (e : Registration) : CStr :=
  dotted e.pluginName e.handlerName

def registerAll (registered : List Registration) : List HandlerEntry :=
  registered.foldl (fun handlers e =>
    pluginRegisterHandler handlers e.pluginName e.handlerName e.func) []

/-! ## Resolution -/

/-- Resolution on the stored strings agrees with resolution on the strings as
written, once these are cut. -/
structure ResolvesBy (cutName cutHandler : CStr → CStr) (c : Config)
    (ports routes : List CJson) (registered : List Registration) : Prop where
  stored : c.ports = ports.map parsePort ∧ c.routes = routes.map parseRoute
  src : ∀ p ∈ ports, ∀ maxOut,
    configFindRoutesBySrc c (parsePort p).name.str maxOut =
      ((routes.filter fun r =>
        decide (cutName (srcText r) = cutName (nameText p))).take maxOut).map
        parseRoute
  dst : ∀ p ∈ ports, ∀ r ∈ routes,
    (parseRoute r).dst.str = (parsePort p).name.str ↔
      cutName (dstText r) = cutName (nameText p)
  handler : ∀ r ∈ routes,
    pluginGetHandler (registerAll registered) (parseRoute r).handler.str =
      (registered.find? fun e =>
        decide (e.fullName = cutHandler (handlerText r))).map (·.func)

def FieldsFit (ports routes : List CJson) : Prop :=
  (∀ p ∈ ports, (nameText p).length ≤ 31) ∧
    ∀ r ∈ routes, (srcText r).length ≤ 31 ∧ (dstText r).length ≤ 31 ∧
      (handlerText r).length ≤ 63

theorem getStr_str {cap : Nat} (hcap : 0 < cap) (obj : CJson) (key : CStr) :
    (getStr cap (some obj) key).str = (fieldText obj key).take (cap - 1) := by
  have hempty : (Buffer.zero cap).str = CStr.empty.take (cap - 1) := by
    rw [Buffer.str_zero]
    ext1
    simp [CStr.empty]
  unfold getStr fieldText
  cases cJSONGetObjectItem (some obj) key with
  | none => exact hempty
  | some value =>
      cases value with
      | string s => exact Buffer.str_ofStr hcap s
      | _ => exact hempty

theorem registerAll_eq {registered : List Registration}
    (hcount : registered.length ≤ maxHandlers) :
    registerAll registered =
      registered.map fun e => ⟨.ofStr 128 e.fullName, e.func⟩ := by
  unfold registerAll
  induction registered using List.reverseRecOn with
  | nil => rfl
  | append_singleton registered e ih =>
      rw [List.length_append, List.length_singleton] at hcount
      rw [List.foldl_append, ih (by omega), List.map_append]
      apply if_neg
      rw [List.length_map]
      omega

theorem pluginGetHandler_registerAll {registered : List Registration}
    (hcount : registered.length ≤ maxHandlers)
    (hfit : ∀ e ∈ registered, e.fullName.length ≤ 127) (name : CStr) :
    pluginGetHandler (registerAll registered) name =
      (registered.find? fun e => decide (e.fullName = name)).map (·.func) := by
  have hstored : ∀ e ∈ registered,
      decide ((Buffer.ofStr 128 e.fullName).str = name) =
        decide (e.fullName = name) := by
    intro e he
    rw [Buffer.str_ofStr (by decide), CStr.take_eq_self_iff.2 (hfit e he)]
  unfold pluginGetHandler
  rw [registerAll_eq hcount, List.find?_map, Option.map_map,
    ← List.find?_congr hstored]
  rfl

section Resolve

variable {root : CJson} {registered : List Registration}
  (hports : (itemsOf root (.lit "ports")).length ≤ maxPorts)
  (hroutes : (itemsOf root (.lit "routes")).length ≤ maxRoutes)
  (hcount : registered.length ≤ maxHandlers)
  (hfit : ∀ e ∈ registered, e.fullName.length ≤ 127)

theorem src_str (item : CJson) :
    (parseRoute item).src.str = (srcText item).take 31 :=
  getStr_str (by decide) item _

theorem dst_str (item : CJson) :
    (parseRoute item).dst.str = (dstText item).take 31 :=
  getStr_str (by decide) item _

theorem handler_str (item : CJson) :
    (parseRoute item).handler.str = (handlerText item).take 63 :=
  getStr_str (by decide) item _

theorem name_str (item : CJson) :
    (parsePort item).name.str = (nameText item).take 31 := by
  rw [parsePort_name]
  exact getStr_str (by decide) item _

include hports hroutes hcount hfit

theorem resolves_cut :
    ResolvesBy (.take 31) (.take 63) (configOfRoot root)
      (itemsOf root (.lit "ports")) (itemsOf root (.lit "routes"))
      registered := by
  have hstored : (configOfRoot root).routes =
      (itemsOf root (.lit "routes")).map parseRoute := by
    change parseRoutes _ = _
    rw [parseRoutes, parseArray_eq]
    exact congrArg _ (List.take_of_length_le hroutes)
  constructor
  case stored =>
    refine ⟨?_, hstored⟩
    change parsePorts _ = _
    rw [parsePorts, parseArray_eq]
    exact congrArg _ (List.take_of_length_le hports)
  case src =>
    intro p _ maxOut
    rw [configFindRoutesBySrc_eq, hstored, List.filter_map, List.map_take]
    simp only [Function.comp_def, src_str, name_str]
  case dst =>
    intro p _ r _
    rw [dst_str, name_str]
  case handler =>
    intro r _
    rw [handler_str]
    exact pluginGetHandler_registerAll hcount hfit _

theorem resolves_as_written
    (hfields : FieldsFit (itemsOf root (.lit "ports"))
      (itemsOf root (.lit "routes"))) :
    ResolvesBy id id (configOfRoot root) (itemsOf root (.lit "ports"))
      (itemsOf root (.lit "routes")) registered := by
  rcases hfields with ⟨hnames, htexts⟩
  rcases resolves_cut hports hroutes hcount hfit with
    ⟨hstored, hsrc, hdst, hhandler⟩
  constructor
  case stored => exact hstored
  case src =>
    intro p hp maxOut
    rw [hsrc p hp maxOut, CStr.take_eq_self_iff.2 (hnames p hp)]
    congr 2
    apply List.filter_congr
    intro r hr
    rw [CStr.take_eq_self_iff.2 (htexts r hr).1]
    rfl
  case dst =>
    intro p hp r hr
    rw [hdst p hp r hr, CStr.take_eq_self_iff.2 (hnames p hp),
      CStr.take_eq_self_iff.2 (htexts r hr).2.1]
    rfl
  case handler =>
    intro r hr
    rw [hhandler r hr, CStr.take_eq_self_iff.2 (htexts r hr).2.2]
    rfl

end Resolve

/--
The stored strings resolve like the strings of the file cut to 31 bytes, for
the handler of a route to 63, and like the strings themselves when these are
no longer than that.
-/
theorem names_resolve_cut {parse : CJsonParser} {text : List UInt8}
    {root : CJson} (hparse : parse (.ofBytes text) = some root)
    (hports : (itemsOf root (.lit "ports")).length ≤ maxPorts)
    (hroutes : (itemsOf root (.lit "routes")).length ≤ maxRoutes)
    {registered : List Registration} (hcount : registered.length ≤ maxHandlers)
    (hfit : ∀ e ∈ registered, e.fullName.length ≤ 127) :
    ResolvesBy (.take 31) (.take 63) (loadConfig parse (some text)).2
        (itemsOf root (.lit "ports")) (itemsOf root (.lit "routes"))
        registered ∧
      (FieldsFit (itemsOf root (.lit "ports")) (itemsOf root (.lit "routes")) →
        ResolvesBy id id (loadConfig parse (some text)).2
          (itemsOf root (.lit "ports")) (itemsOf root (.lit "routes"))
          registered) := by
  have hloaded : (loadConfig parse (some text)).2 = configOfRoot root := by
    simp [loadConfig, hparse]
  rw [hloaded]
  exact ⟨resolves_cut hports hroutes hcount hfit,
    resolves_as_written hports hroutes hcount hfit⟩

def portItem (name : CStr) : CJson :=
  .object [(.lit "name", .string name), (.lit "type", .string (.lit "udp"))]

def routeItem (src dst handler : CStr) : CJson :=
  .object [(.lit "src", .string src), (.lit "dst", .string dst),
    (.lit "handler", .string handler)]

def rootOf (ports routes : List CJson) : CJson :=
  .object [(.lit "ports", .array ports), (.lit "routes", .array routes)]

def portItemText (name : String) : String :=
  "\x7b\"name\":\"" ++ name ++ "\",\"type\":\"udp\"\x7d"

def routeItemText (src dst handler : String) : String :=
  "\x7b\"src\":\"" ++ src ++ "\",\"dst\":\"" ++ dst ++
    "\",\"handler\":\"" ++ handler ++ "\"\x7d"

def rootText (port route : String) : List UInt8 :=
  (CStr.lit ("\x7b\"ports\":[" ++ port ++ "],\"routes\":[" ++ route ++
    "]\x7d")).bytes

def longPort : String := "PPPPPPPPPPPPPPPPPPPPPPPPPPPPPPP1"
def longSrc : String := "PPPPPPPPPPPPPPPPPPPPPPPPPPPPPPP2"

def longRoot : CJson :=
  rootOf [portItem (.lit longPort)]
    [routeItem (.lit longSrc) (.lit "NET0") .empty]

def longText : List UInt8 :=
  rootText (portItemText longPort) (routeItemText longSrc "NET0" "")

theorem long_names_merged :
    nameText (portItem (.lit longPort)) ≠
        srcText (routeItem (.lit longSrc) (.lit "NET0") .empty) ∧
      ¬ ResolvesBy id id
        (loadConfig (fun _ => some longRoot) (some longText)).2
        (itemsOf longRoot (.lit "ports")) (itemsOf longRoot (.lit "routes"))
        [] := by
  constructor
  · decide +kernel
  · intro h
    have hmem : portItem (.lit longPort) ∈ itemsOf longRoot (.lit "ports") :=
      List.mem_singleton_self _
    have hlen := congrArg List.length (h.src _ hmem 16)
    revert hlen
    decide +kernel

def uartRoot : CJson :=
  rootOf [portItem (.lit "UART1")]
    [routeItem (.lit "UART1") (.lit "NET0") (.lit "filter.uart_to_usb")]

def uartText : List UInt8 :=
  rootText (portItemText "UART1")
    (routeItemText "UART1" "NET0" "filter.uart_to_usb")

def filterRegistrations : List Registration :=
  [⟨.lit "filter", .lit "usb_to_uart", usbToUart⟩,
   ⟨.lit "filter", .lit "uart_to_usb", uartToUsb⟩]

theorem names_resolve_cut_uart :
    ResolvesBy id id
      (loadConfig (fun _ => some uartRoot) (some uartText)).2
      (itemsOf uartRoot (.lit "ports")) (itemsOf uartRoot (.lit "routes"))
      filterRegistrations := by
  have hfit : ∀ e ∈ filterRegistrations, e.fullName.length ≤ 127 := by
    decide
  apply (names_resolve_cut rfl (by decide) (by decide) (by decide) hfit).2
  constructor
  · intro p hp
    cases List.mem_singleton.1 hp
    decide +kernel
  · intro r hr
    cases List.mem_singleton.1 hr
    decide +kernel

end EzRouter
