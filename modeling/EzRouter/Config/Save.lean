import EzRouter.Config.Store

/-!
# Saving the configuration

The writing half of `config_store.c`, and what a saved configuration becomes
when it is loaded again.  `cJSON_Print` is a parameter, as the parser is: a
function from the tree that the writer builds to the text that goes to the
file.
-/

namespace EzRouter

open EzRouter.Foundation

def intMin : Int := -2147483648
def intMax : Int := 2147483647

def saturate (num : Int) : Int :=
  if num ≥ intMax then intMax else if num ≤ intMin then intMin else num

/-- `cJSON_CreateNumber`.  The `valueint` of the item saturates, and that of
the item parsed from its text does so too. -/
def cJSONCreateNumber (num : Int) : CJson := .number (saturate num)

/-- What `parity_t` and `flow_t` hold once an `int` is stored: they have no
negative member, and gcc makes them `unsigned int`. -/
def enumValue (valueint : Int) : Int := valueint % 2 ^ 32

def saveTty (tty : PortTtyConf) : CJson :=
  .object
    [(.lit "path", .string tty.path.str),
      (.lit "baudrate", cJSONCreateNumber tty.baudrate),
      (.lit "databits", cJSONCreateNumber tty.databits),
      (.lit "stopbits", cJSONCreateNumber tty.stopbits),
      (.lit "parity", cJSONCreateNumber (enumValue tty.parity)),
      (.lit "flow", cJSONCreateNumber (enumValue tty.flow))]

def saveTcpServer (ts : PortTcpServerConf) : CJson :=
  .object
    [(.lit "bind", .string ts.bindAddr.str),
      (.lit "port", cJSONCreateNumber ts.port),
      (.lit "backlog", cJSONCreateNumber ts.backlog)]

def saveTcpClient (tc : PortTcpClientConf) : CJson :=
  .object
    [(.lit "addr", .string tc.addr.str),
      (.lit "port", cJSONCreateNumber tc.port)]

def saveUdp (u : PortUdpConf) : CJson :=
  .object
    [(.lit "bind", .string u.bindAddr.str),
      (.lit "port", cJSONCreateNumber u.port)]

def saveUsb (u : PortUsbConf) : CJson :=
  .object [(.lit "path", .string u.path.str)]

def savePort (p : PortDef) : CJson :=
  let name := (.lit "name", .string p.name.str)
  let typed (kind : CStr) (conf : CJson) : CJson :=
    .object [name, (.lit "type", .string kind), (kind, conf)]
  match p.type, p.cfg with
  | .tty, .tty conf => typed (.lit "tty") (saveTty conf)
  | .tcpServer, .tcpServer conf =>
      typed (.lit "tcp_server") (saveTcpServer conf)
  | .tcpClient, .tcpClient conf =>
      typed (.lit "tcp_client") (saveTcpClient conf)
  | .udp, .udp conf => typed (.lit "udp") (saveUdp conf)
  | .usb, .usb conf => typed (.lit "usb") (saveUsb conf)
  -- `default`: no branch for an ipc port, and none writes `use_frame`.
  | _, _ => .object [name]

def savePlugin (p : PluginDef) : CJson :=
  .object
    [(.lit "name", .string p.name.str), (.lit "path", .string p.path.str)]

def saveRoute (r : RouteDef) : CJson :=
  .object
    [(.lit "src", .string r.src.str), (.lit "dst", .string r.dst.str),
      (.lit "plugin", .string r.plugin.str),
      (.lit "handler", .string r.handler.str)]

def rootOfConfig (c : Config) : CJson :=
  .object
    [(.lit "ports", .array (c.ports.map savePort)),
      (.lit "plugins", .array (c.plugins.map savePlugin)),
      (.lit "routes", .array (c.routes.map saveRoute))]

/-- `save_config` with `g_config` equal to `c`: the value returned and the
contents of the file afterwards. -/
def saveConfig (print : CJson → CStr) (c : Config) : Int × List UInt8 :=
  (0, (print (rootOfConfig c)).bytes)

def IsInt (n : Int) : Prop := intMin ≤ n ∧ n ≤ intMax

inductive CJson.IntSized : CJson → Prop where
  | null : IntSized .null
  | bool (value : Bool) : IntSized (.bool value)
  | number (n : Int) (h : IsInt n) : IntSized (.number n)
  | string (s : CStr) : IntSized (.string s)
  | array (items : List CJson) (h : ∀ item ∈ items, IntSized item) :
      IntSized (.array items)
  | object (members : List (CStr × CJson))
      (h : ∀ member ∈ members, IntSized member.2) :
      IntSized (.object members)

theorem intSized_item {object : CJson} {name : CStr} {item : CJson}
    (hsized : object.IntSized)
    (h : cJSONGetObjectItem object name = some item) : item.IntSized := by
  cases hsized with
  | object members hmembers =>
      simp only [cJSONGetObjectItem, Option.map_eq_some_iff] at h
      rcases h with ⟨member, hfind, rfl⟩
      exact hmembers member (List.mem_of_find?_eq_some hfind)
  | _ => simp [cJSONGetObjectItem] at h

theorem intSized_arrayItems {arr : Option CJson}
    (hsized : ∀ o, arr = some o → o.IntSized) :
    ∀ item ∈ arrayItems arr, item.IntSized := by
  unfold arrayItems
  split
  · cases hsized _ rfl with
    | array items hitems => exact hitems
  · simp

theorem isInt_getInt {object : Option CJson} (key : CStr)
    (hsized : ∀ o, object = some o → o.IntSized) :
    IsInt (getInt object key) := by
  unfold getInt
  split
  · rename_i n h
    cases object with
    | none => simp [cJSONGetObjectItem] at h
    | some o =>
        cases intSized_item (hsized o rfl) h with
        | number _ hn => exact hn
  · unfold IsInt intMin intMax
    omega

/-- An array filled by `strncpy` into zeroed memory. -/
def Padded {cap : Nat} (b : Buffer cap) : Prop := .ofStr cap b.str = b

theorem padded_getStr {cap : Nat} (hcap : 0 < cap) (obj : Option CJson)
    (key : CStr) : Padded (getStr cap obj key) := by
  unfold Padded getStr
  split
  · ext1
    rw [Buffer.ofStr_bytes, Buffer.ofStr_bytes, Buffer.str_ofStr hcap]
    simp [List.take_take]
  · ext1
    rw [Buffer.ofStr_bytes, Buffer.str_zero]
    simp [CStr.empty, Buffer.zero]

def PortCfg.Stored : PortType → PortCfg → Prop
  | .tty, .tty conf =>
      Padded conf.path ∧ IsInt conf.baudrate ∧ IsInt conf.databits ∧
        IsInt conf.stopbits ∧ IsInt conf.parity ∧ IsInt conf.flow
  | .tcpServer, .tcpServer conf =>
      Padded conf.bindAddr ∧ IsInt conf.port ∧ IsInt conf.backlog
  | .tcpClient, .tcpClient conf => Padded conf.addr ∧ IsInt conf.port
  | .udp, .udp conf => Padded conf.bindAddr ∧ IsInt conf.port
  | .usb, .usb conf => Padded conf.path
  | .ipcServer, .ipc conf => Padded conf.path
  | _, _ => False

structure PortDef.Stored (p : PortDef) : Prop where
  name : Padded p.name
  fd : p.fd = -1
  cfg : p.cfg.Stored p.type

def portKinds : List CStr :=
  [.lit "tty", .lit "tcp_server", .lit "tcp_client", .lit "udp", .lit "usb",
    .lit "ipc"]

def KnownPort (item : CJson) : Prop :=
  ∃ kind ∈ portKinds, typeStr item = kind ∧
    (cJSONGetObjectItem item kind).isSome

theorem stored_parsePort {item : CJson} (hknown : KnownPort item)
    (hsized : item.IntSized) : (parsePort item).Stored := by
  rcases hknown with ⟨kind, hkind, htype, hsub⟩
  have hint : ∀ sub key, IsInt (getInt (cJSONGetObjectItem item sub) key) :=
    fun sub key => isInt_getInt key fun o ho => intSized_item hsized ho
  have hname : Padded (getStr 32 item (.lit "name")) :=
    padded_getStr (by omega) _ _
  simp only [portKinds, List.mem_cons, List.not_mem_nil, or_false] at hkind
  unfold parsePort
  rcases hkind with rfl | rfl | rfl | rfl | rfl | rfl
  · rcases Option.isSome_iff_exists.1 hsub with ⟨tty, htty⟩
    have htint : ∀ key, IsInt (getInt (some tty) key) :=
      fun key => htty ▸ hint _ key
    simp only [htype, if_true, htty]
    exact ⟨hname, rfl, padded_getStr (by omega) _ _, htint _, htint _,
      htint _, htint _, htint _⟩
  · simp only [htype]
    exact ⟨hname, rfl, padded_getStr (by omega) _ _, hint _ _, hint _ _⟩
  · simp only [htype]
    exact ⟨hname, rfl, padded_getStr (by omega) _ _, hint _ _⟩
  · simp only [htype]
    exact ⟨hname, rfl, padded_getStr (by omega) _ _, hint _ _⟩
  · simp only [htype]
    exact ⟨hname, rfl, padded_getStr (by omega) _ _⟩
  · simp only [htype]
    exact ⟨hname, rfl, padded_getStr (by omega) _ _⟩

def Writable (p : PortDef) : Prop :=
  p.useFrame = false ∧ p.type ≠ .ipcServer ∧
    ∀ conf, p.cfg = .tty conf → 0 ≤ conf.parity ∧ 0 ≤ conf.flow

theorem saturate_of_isInt {n : Int} (h : IsInt n) : saturate n = n := by
  unfold IsInt at h
  unfold saturate
  split_ifs <;> omega

theorem saturate_enum_iff {n : Int} (h : IsInt n) :
    saturate (enumValue n) = n ↔ 0 ≤ n := by
  unfold IsInt intMin intMax at h
  unfold enumValue
  constructor
  · intro heq
    by_contra hneg
    have hlarge : n % 2 ^ 32 ≥ intMax := by
      unfold intMax
      omega
    rw [saturate, if_pos hlarge, intMax] at heq
    omega
  · intro hpos
    rw [Int.emod_eq_of_lt hpos (by omega)]
    exact saturate_of_isInt h

theorem parseTty_saveTty_iff {conf : PortTtyConf}
    (h : PortCfg.Stored .tty (.tty conf)) :
    parseTty (some (saveTty conf)) = conf ↔
      0 ≤ conf.parity ∧ 0 ≤ conf.flow := by
  rcases h with ⟨hpath, hbaudrate, hdatabits, hstopbits, hparity, hflow⟩
  have hread : parseTty (some (saveTty conf)) =
      { path := .ofStr 128 conf.path.str
        baudrate := saturate conf.baudrate
        databits := saturate conf.databits
        stopbits := saturate conf.stopbits
        parity := saturate (enumValue conf.parity)
        flow := saturate (enumValue conf.flow) } := rfl
  rw [hread, hpath, saturate_of_isInt hbaudrate, saturate_of_isInt hdatabits,
    saturate_of_isInt hstopbits, ← saturate_enum_iff hparity,
    ← saturate_enum_iff hflow]
  constructor
  · intro heq
    exact ⟨congrArg PortTtyConf.parity heq, congrArg PortTtyConf.flow heq⟩
  · rintro ⟨hp, hf⟩
    rw [hp, hf]

theorem parseTcpServer_saveTcpServer {conf : PortTcpServerConf}
    (h : PortCfg.Stored .tcpServer (.tcpServer conf)) :
    parseTcpServer (some (saveTcpServer conf)) = conf := by
  rcases h with ⟨haddr, hport, hbacklog⟩
  have hread : parseTcpServer (some (saveTcpServer conf)) =
      { bindAddr := .ofStr 64 conf.bindAddr.str
        port := saturate conf.port
        backlog := saturate conf.backlog } := rfl
  rw [hread, haddr, saturate_of_isInt hport, saturate_of_isInt hbacklog]

theorem parseTcpClient_saveTcpClient {conf : PortTcpClientConf}
    (h : PortCfg.Stored .tcpClient (.tcpClient conf)) :
    parseTcpClient (some (saveTcpClient conf)) = conf := by
  rcases h with ⟨haddr, hport⟩
  have hread : parseTcpClient (some (saveTcpClient conf)) =
      ⟨.ofStr 64 conf.addr.str, saturate conf.port⟩ := rfl
  rw [hread, haddr, saturate_of_isInt hport]

theorem parseUdp_saveUdp {conf : PortUdpConf}
    (h : PortCfg.Stored .udp (.udp conf)) :
    parseUdp (some (saveUdp conf)) = conf := by
  rcases h with ⟨haddr, hport⟩
  have hread : parseUdp (some (saveUdp conf)) =
      ⟨.ofStr 64 conf.bindAddr.str, saturate conf.port⟩ := rfl
  rw [hread, haddr, saturate_of_isInt hport]

theorem parseUsb_saveUsb {conf : PortUsbConf}
    (h : PortCfg.Stored .usb (.usb conf)) :
    parseUsb (some (saveUsb conf)) = conf := by
  have hread : parseUsb (some (saveUsb conf)) =
      ⟨.ofStr 128 conf.path.str⟩ := rfl
  rw [hread, show Buffer.ofStr 128 conf.path.str = conf.path from h]

theorem parsePort_savePort_iff {p : PortDef} (hstored : p.Stored) :
    parsePort (savePort p) = p ↔ Writable p := by
  rcases p with ⟨name, type, fd, useFrame, cfg⟩
  rcases hstored with ⟨hname, hfd, hcfg⟩
  simp only at hname hfd hcfg
  subst hfd
  -- The reader finds the name again, sets `fd`, and sees no `use_frame`.
  have hplain : ∀ kind conf,
      (⟨.ofStr 32 name.str, kind, -1, false, conf⟩ : PortDef) =
          ⟨name, type, -1, useFrame, cfg⟩ ↔
        useFrame = false ∧ kind = type ∧ conf = cfg := by
    intro kind conf
    rw [hname, PortDef.mk.injEq]
    simp only [true_and, eq_comm]
    tauto
  cases cfg with
  | tty conf =>
      cases type <;> try contradiction
      have hread : parsePort (savePort ⟨name, .tty, -1, useFrame, .tty conf⟩) =
          ⟨.ofStr 32 name.str, .tty, -1, false,
            .tty (parseTty (some (saveTty conf)))⟩ := rfl
      rw [hread, hplain, PortCfg.tty.injEq, parseTty_saveTty_iff hcfg]
      simp [Writable]
  | tcpServer conf =>
      cases type <;> try contradiction
      have hread : parsePort
          (savePort ⟨name, .tcpServer, -1, useFrame, .tcpServer conf⟩) =
          ⟨.ofStr 32 name.str, .tcpServer, -1, false,
            .tcpServer (parseTcpServer (some (saveTcpServer conf)))⟩ := rfl
      rw [hread, hplain, parseTcpServer_saveTcpServer hcfg]
      simp [Writable]
  | tcpClient conf =>
      cases type <;> try contradiction
      have hread : parsePort
          (savePort ⟨name, .tcpClient, -1, useFrame, .tcpClient conf⟩) =
          ⟨.ofStr 32 name.str, .tcpClient, -1, false,
            .tcpClient (parseTcpClient (some (saveTcpClient conf)))⟩ := rfl
      rw [hread, hplain, parseTcpClient_saveTcpClient hcfg]
      simp [Writable]
  | udp conf =>
      cases type <;> try contradiction
      have hread : parsePort (savePort ⟨name, .udp, -1, useFrame, .udp conf⟩) =
          ⟨.ofStr 32 name.str, .udp, -1, false,
            .udp (parseUdp (some (saveUdp conf)))⟩ := rfl
      rw [hread, hplain, parseUdp_saveUdp hcfg]
      simp [Writable]
  | usb conf =>
      cases type <;> try contradiction
      have hread : parsePort (savePort ⟨name, .usb, -1, useFrame, .usb conf⟩) =
          ⟨.ofStr 32 name.str, .usb, -1, false,
            .usb (parseUsb (some (saveUsb conf)))⟩ := rfl
      rw [hread, hplain, parseUsb_saveUsb hcfg]
      simp [Writable]
  | ipc conf =>
      cases type <;> try contradiction
      have hread : parsePort
          (savePort ⟨name, .ipcServer, -1, useFrame, .ipc conf⟩) =
          ⟨.ofStr 32 name.str, .tty, -1, false, PortDef.zero.cfg⟩ := rfl
      rw [hread, hplain]
      simp [Writable]

theorem parsePlugin_savePlugin {item : CJson} :
    parsePlugin (savePlugin (parsePlugin item)) = parsePlugin item := by
  have hname := @padded_getStr 32 (by omega) item (.lit "name")
  have hpath := @padded_getStr 256 (by omega) item (.lit "path")
  have hread : ∀ p, parsePlugin (savePlugin p) =
      ⟨.ofStr 32 p.name.str, .ofStr 256 p.path.str⟩ := fun _ => rfl
  rw [hread]
  exact congrArg₂ PluginDef.mk hname hpath

theorem parseRoute_saveRoute {item : CJson} :
    parseRoute (saveRoute (parseRoute item)) = parseRoute item := by
  have hshort := @padded_getStr 32 (by omega) item
  have hhandler := @padded_getStr 64 (by omega) item (.lit "handler")
  have hread : ∀ r, parseRoute (saveRoute r) =
      ⟨.ofStr 32 r.src.str, .ofStr 32 r.dst.str, .ofStr 32 r.plugin.str,
        .ofStr 64 r.handler.str⟩ := fun _ => rfl
  rw [hread]
  simp only [parseRoute, RouteDef.mk.injEq]
  exact ⟨hshort _, hshort _, hshort _, hhandler⟩

/-! ## Saving and loading again -/

theorem parseArray_saved {α : Type} {limit : Nat} (parse : CJson → α)
    (save : α → CJson) {stored : List α} (h : stored.length ≤ limit) :
    parseArray limit parse (some (.array (stored.map save))) =
      stored.map (parse ∘ save) := by
  rw [parseArray_eq, arrayItems, List.take_of_length_le (by simpa using h),
    List.map_map]

theorem configOfRoot_rootOfConfig {c : Config}
    (hports : c.ports.length ≤ maxPorts)
    (hplugins : c.plugins.length ≤ maxPlugins)
    (hroutes : c.routes.length ≤ maxRoutes) :
    configOfRoot (rootOfConfig c) =
      ⟨c.ports.map (parsePort ∘ savePort),
        c.plugins.map (parsePlugin ∘ savePlugin),
        c.routes.map (parseRoute ∘ saveRoute)⟩ := by
  have hread : configOfRoot (rootOfConfig c) =
      ⟨parsePorts (some (.array (c.ports.map savePort))),
        parsePlugins (some (.array (c.plugins.map savePlugin))),
        parseRoutes (some (.array (c.routes.map saveRoute)))⟩ := rfl
  rw [hread, parsePorts, parsePlugins, parseRoutes,
    parseArray_saved _ _ hports, parseArray_saved _ _ hplugins,
    parseArray_saved _ _ hroutes]

theorem map_eq_self_iff {α : Type} (f : α → α) (xs : List α) :
    xs.map f = xs ↔ ∀ x ∈ xs, f x = x := by
  simpa using (List.map_inj_left : xs.map f = xs.map id ↔ _)

theorem reload_eq_iff {root : CJson} (hsized : root.IntSized)
    (hknown : ∀ item ∈ arrayItems (cJSONGetObjectItem root (.lit "ports")),
      KnownPort item) :
    configOfRoot (rootOfConfig (configOfRoot root)) = configOfRoot root ↔
      ∀ p ∈ (configOfRoot root).ports, Writable p := by
  have hplugins : ∀ p ∈ (configOfRoot root).plugins,
      (parsePlugin ∘ savePlugin) p = p := by
    simp only [configOfRoot, parsePlugins, parseArray_eq, List.mem_map]
    rintro _ ⟨item, -, rfl⟩
    exact parsePlugin_savePlugin
  have hroutes : ∀ r ∈ (configOfRoot root).routes,
      (parseRoute ∘ saveRoute) r = r := by
    simp only [configOfRoot, parseRoutes, parseArray_eq, List.mem_map]
    rintro _ ⟨item, -, rfl⟩
    exact parseRoute_saveRoute
  have hports : ∀ p ∈ (configOfRoot root).ports, p.Stored := by
    simp only [configOfRoot, parsePorts, parseArray_eq, List.mem_map]
    rintro _ ⟨item, hitem, rfl⟩
    have hmem := List.mem_of_mem_take hitem
    exact stored_parsePort (hknown item hmem) (intSized_arrayItems
      (fun _ ho => intSized_item hsized ho) item hmem)
  rw [configOfRoot_rootOfConfig (by simp [configOfRoot, parsePorts,
      parseArray_eq]) (by simp [configOfRoot, parsePlugins, parseArray_eq])
    (by simp [configOfRoot, parseRoutes, parseArray_eq]),
    (map_eq_self_iff _ _).2 hplugins, (map_eq_self_iff _ _).2 hroutes]
  have hconfig : (⟨(configOfRoot root).ports.map (parsePort ∘ savePort),
        (configOfRoot root).plugins, (configOfRoot root).routes⟩ : Config) =
      configOfRoot root ↔
      (configOfRoot root).ports.map (parsePort ∘ savePort) =
        (configOfRoot root).ports := by
    rw [Config.mk.injEq]
    simp
  rw [hconfig, map_eq_self_iff]
  exact forall₂_congr fun p hp => parsePort_savePort_iff (hports p hp)

/-- What a successful load produced is restored by a save and a load exactly
when the writer can express each of its ports. -/
theorem save_load_restores_iff (parse : CJsonParser) (print : CJson → CStr)
    {text : List UInt8} {root : CJson} {c : Config}
    (hroot : parse (.ofBytes text) = some root) (hsized : root.IntSized)
    (hknown : ∀ item ∈ arrayItems (cJSONGetObjectItem root (.lit "ports")),
      KnownPort item)
    (hload : loadConfig parse (some text) = (0, c))
    (hprint : parse (print (rootOfConfig c)) = some (rootOfConfig c)) :
    loadConfig parse (some (saveConfig print c).2) = (0, c) ↔
      ∀ p ∈ c.ports, Writable p := by
  simp only [loadConfig, hroot, Prod.mk.injEq, true_and] at hload
  subst hload
  simp only [loadConfig, saveConfig, CStr.ofBytes_bytes, hprint,
    Prod.mk.injEq, true_and]
  exact reload_eq_iff hsized hknown

theorem isInt_saturate (n : Int) : IsInt (saturate n) := by
  unfold IsInt saturate intMin intMax
  split_ifs <;> omega

@[simp] theorem intSized_string (s : CStr) : (CJson.string s).IntSized :=
  .string s

@[simp] theorem intSized_cJSONCreateNumber (n : Int) :
    (cJSONCreateNumber n).IntSized :=
  .number _ (isInt_saturate n)

@[simp] theorem intSized_object_iff {members : List (CStr × CJson)} :
    (CJson.object members).IntSized ↔ ∀ m ∈ members, m.2.IntSized := by
  constructor
  · rintro (_ | _ | _ | _ | _ | ⟨_, h⟩)
    exact h
  · exact .object members

@[simp] theorem intSized_array_iff {items : List CJson} :
    (CJson.array items).IntSized ↔ ∀ item ∈ items, item.IntSized := by
  constructor
  · rintro (_ | _ | _ | _ | ⟨_, h⟩ | _)
    exact h
  · exact .array items

theorem intSized_savePort (p : PortDef) : (savePort p).IntSized := by
  unfold savePort
  split <;>
    simp [saveTty, saveTcpServer, saveTcpClient, saveUdp, saveUsb]

theorem intSized_rootOfConfig (c : Config) : (rootOfConfig c).IntSized := by
  simp [rootOfConfig, intSized_savePort, savePlugin, saveRoute]

/-! ## One port, with and without the flag -/

def netPort (flag : List (CStr × CJson)) : CJson :=
  .object
    ([(.lit "name", .string (.lit "NET0")),
      (.lit "type", .string (.lit "udp"))] ++ flag ++
      [(.lit "udp", .object
        [(.lit "bind", .string .empty), (.lit "port", .number 9000)])])

def netRoot (flag : List (CStr × CJson)) : CJson :=
  .object
    [(.lit "ports", .array [netPort flag]), (.lit "plugins", .array []),
      (.lit "routes", .array [])]

def framed : List (CStr × CJson) := [(.lit "use_frame", .bool true)]

def framedText : CStr :=
  .lit ("\x7b\"ports\":[\x7b\"name\":\"NET0\",\"type\":\"udp\"," ++
    "\"use_frame\":true,\"udp\":\x7b\"bind\":\"\",\"port\":9000\x7d\x7d]," ++
    "\"plugins\":[],\"routes\":[]\x7d")

def savedText : CStr :=
  .lit ("\x7b\n\t\"ports\":\t[\x7b\n\t\t\t\"name\":\t\"NET0\",\n" ++
    "\t\t\t\"type\":\t\"udp\",\n\t\t\t\"udp\":\t\x7b\n" ++
    "\t\t\t\t\"bind\":\t\"\",\n\t\t\t\t\"port\":\t9000\n" ++
    "\t\t\t\x7d\n\t\t\x7d],\n\t\"plugins\":\t[],\n\t\"routes\":\t[]\n\x7d")

def netParser : CJsonParser := fun s =>
  some (netRoot (if s = savedText then [] else framed))

theorem intSized_netRoot {flag : List (CStr × CJson)}
    (h : ∀ member ∈ flag, member.2.IntSized) : (netRoot flag).IntSized := by
  have hport : (CJson.number 9000).IntSized := by
    refine .number _ ?_
    unfold IsInt intMin intMax
    omega
  simpa [netRoot, netPort, or_imp, forall_and, hport] using h

theorem save_load_loses_use_frame :
    netParser (.ofBytes framedText.bytes) = some (netRoot framed) ∧
      (netRoot framed).IntSized ∧
      (∀ item ∈ arrayItems
          (cJSONGetObjectItem (netRoot framed) (.lit "ports")),
        KnownPort item) ∧
      loadConfig netParser (some framedText.bytes) =
        (0, configOfRoot (netRoot framed)) ∧
      netParser savedText =
        some (rootOfConfig (configOfRoot (netRoot framed))) ∧
      loadConfig netParser (some (saveConfig (fun _ => savedText)
          (configOfRoot (netRoot framed))).2) ≠
        (0, configOfRoot (netRoot framed)) := by
  have htext : netParser (.ofBytes framedText.bytes) =
      some (netRoot framed) := by
    rw [CStr.ofBytes_bytes, netParser, if_neg (by decide +kernel)]
  have hsaved : netParser savedText =
      some (rootOfConfig (configOfRoot (netRoot framed))) := by
    rw [netParser, if_pos rfl]
    rfl
  refine ⟨htext, intSized_netRoot ?_, ?_, ?_, hsaved, ?_⟩
  · rintro member hmember
    rw [List.mem_singleton.1 hmember]
    exact .bool _
  · intro item hitem
    obtain rfl : item = netPort framed := List.mem_singleton.1 hitem
    exact ⟨.lit "udp", by decide, by decide, rfl⟩
  · exact loadConfig_of_parse htext
  · simp only [loadConfig, saveConfig, CStr.ofBytes_bytes, hsaved]
    intro heq
    have hflags := congrArg (fun c : Config => c.ports.map (·.useFrame))
      (Prod.mk.inj heq).2
    revert hflags
    decide

/-! ## Three ports, a plugin and a route -/

def plantTty : CJson :=
  .object [(.lit "name", .string (.lit "COM0")),
    (.lit "type", .string (.lit "tty")),
    (.lit "tty", .object [(.lit "path", .string (.lit "/dev/ttyS0")),
      (.lit "baudrate", .number 115200), (.lit "databits", .number 8),
      (.lit "stopbits", .number 1), (.lit "parity", .number 0),
      (.lit "flow", .number 0)])]

def plantServer : CJson :=
  .object [(.lit "name", .string (.lit "HOST")),
    (.lit "type", .string (.lit "tcp_server")),
    (.lit "tcp_server", .object [(.lit "bind", .string (.lit "0.0.0.0")),
      (.lit "port", .number 5000), (.lit "backlog", .number 4)])]

def plantUsb : CJson :=
  .object [(.lit "name", .string (.lit "GADGET")),
    (.lit "type", .string (.lit "usb")),
    (.lit "usb", .object [(.lit "path", .string (.lit "/dev/hidg0"))])]

def plantRoot : CJson :=
  .object
    [(.lit "ports", .array [plantTty, plantServer, plantUsb]),
      (.lit "plugins", .array
        [.object [(.lit "name", .string (.lit "filter")),
          (.lit "path", .string (.lit "./filter.so"))]]),
      (.lit "routes", .array
        [.object [(.lit "src", .string (.lit "COM0")),
          (.lit "dst", .string (.lit "GADGET")),
          (.lit "plugin", .string (.lit "filter")),
          (.lit "handler", .string (.lit "uart_to_usb"))]])]

def plantText : CStr :=
  .lit ("\x7b\"ports\":[\x7b\"name\":\"COM0\",\"type\":\"tty\",\"tty\":" ++
    "\x7b\"path\":\"/dev/ttyS0\",\"baudrate\":115200,\"databits\":8," ++
    "\"stopbits\":1,\"parity\":0,\"flow\":0\x7d\x7d,\x7b\"name\":\"HOST\"," ++
    "\"type\":\"tcp_server\",\"tcp_server\":\x7b\"bind\":\"0.0.0.0\"," ++
    "\"port\":5000,\"backlog\":4\x7d\x7d,\x7b\"name\":\"GADGET\"," ++
    "\"type\":\"usb\",\"usb\":\x7b\"path\":\"/dev/hidg0\"\x7d\x7d]," ++
    "\"plugins\":[\x7b\"name\":\"filter\",\"path\":\"./filter.so\"\x7d]," ++
    "\"routes\":[\x7b\"src\":\"COM0\",\"dst\":\"GADGET\"," ++
    "\"plugin\":\"filter\",\"handler\":\"uart_to_usb\"\x7d]\x7d")

def plantParser : CJsonParser := fun s =>
  if s = plantText then some plantRoot else none

theorem plantParser_plantText :
    plantParser (.ofBytes plantText.bytes) = some plantRoot := by
  rw [CStr.ofBytes_bytes, plantParser, if_pos rfl]

theorem known_plantPorts : ∀ item ∈ arrayItems
    (cJSONGetObjectItem plantRoot (.lit "ports")), KnownPort item := by
  have hitems : arrayItems (cJSONGetObjectItem plantRoot (.lit "ports")) =
      [plantTty, plantServer, plantUsb] := rfl
  simp only [hitems, List.forall_mem_cons, List.not_mem_nil,
    IsEmpty.forall_iff, implies_true, and_true]
  exact ⟨⟨.lit "tty", by decide, by decide, rfl⟩,
    ⟨.lit "tcp_server", by decide, by decide, rfl⟩,
    ⟨.lit "usb", by decide, by decide, rfl⟩⟩

theorem writable_plantPorts :
    ∀ p ∈ (configOfRoot plantRoot).ports, Writable p := by
  have hports : (configOfRoot plantRoot).ports =
      [parsePort plantTty, parsePort plantServer, parsePort plantUsb] := rfl
  simp only [hports, List.forall_mem_cons, List.not_mem_nil,
    IsEmpty.forall_iff, implies_true, and_true]
  refine ⟨⟨rfl, by decide, ?_⟩, ⟨rfl, by decide, ?_⟩, ⟨rfl, by decide, ?_⟩⟩
  · rintro conf ⟨⟩
    decide
  · rintro conf ⟨⟩
  · rintro conf ⟨⟩

theorem saved_plantRoot : rootOfConfig (configOfRoot plantRoot) = plantRoot :=
  rfl

theorem save_load_restores_iff_plant :
    loadConfig plantParser (some (saveConfig
        (fun _ => plantText) (configOfRoot plantRoot)).2) =
      (0, configOfRoot plantRoot) := by
  have hload := loadConfig_of_parse plantParser_plantText
  have hprint : plantParser plantText =
      some (rootOfConfig (configOfRoot plantRoot)) := by
    rw [saved_plantRoot, plantParser, if_pos rfl]
  have hsized : plantRoot.IntSized := by
    rw [← saved_plantRoot]
    exact intSized_rootOfConfig _
  exact (save_load_restores_iff plantParser (fun _ => plantText)
    plantParser_plantText hsized known_plantPorts hload hprint).2
    writable_plantPorts

end EzRouter
