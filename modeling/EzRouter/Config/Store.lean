import EzRouter.Config.CJson

/-!
# The configuration store

`config_store.h` and the reading half of `config_store.c`.  `clear_config`
zeroes `g_config` before a file is read, so a record is parsed into zeroed
memory; what the parser does not write keeps its zero.  The arrays of
`config_t` are lists of the entries below the respective count.
-/

namespace EzRouter

open EzRouter.Foundation

def maxPorts : Nat := 32
def maxPlugins : Nat := 32
def maxRoutes : Nat := 64

inductive PortType where
  | tty
  | tcpServer
  | tcpClient
  | udp
  | usb
  | ipcServer
  | ipcClient
  deriving DecidableEq, Repr

structure PortTtyConf where
  path : Buffer 128
  baudrate : Int
  databits : Int
  stopbits : Int
  parity : Int
  flow : Int
  deriving DecidableEq, Repr

structure PortTcpServerConf where
  bindAddr : Buffer 64
  port : Int
  backlog : Int
  deriving DecidableEq, Repr

structure PortTcpClientConf where
  addr : Buffer 64
  port : Int
  deriving DecidableEq, Repr

structure PortUdpConf where
  bindAddr : Buffer 64
  port : Int
  deriving DecidableEq, Repr

structure PortUsbConf where
  path : Buffer 128
  deriving DecidableEq, Repr

structure PortIpcConf where
  path : Buffer 128
  deriving DecidableEq, Repr

/-- The union `cfg`, with the member that was written last. -/
inductive PortCfg where
  | tty (conf : PortTtyConf)
  | tcpServer (conf : PortTcpServerConf)
  | tcpClient (conf : PortTcpClientConf)
  | udp (conf : PortUdpConf)
  | usb (conf : PortUsbConf)
  | ipc (conf : PortIpcConf)
  deriving DecidableEq, Repr

structure PortDef where
  name : Buffer 32
  type : PortType
  fd : Int
  useFrame : Bool
  cfg : PortCfg
  deriving DecidableEq, Repr

structure PluginDef where
  name : Buffer 32
  path : Buffer 256
  deriving DecidableEq, Repr

structure RouteDef where
  src : Buffer 32
  dst : Buffer 32
  plugin : Buffer 32
  handler : Buffer 64
  deriving DecidableEq, Repr

structure Config where
  ports : List PortDef
  plugins : List PluginDef
  routes : List RouteDef
  deriving DecidableEq, Repr

/-- A zeroed slot.  The type with number 0 is `PORT_TTY`. -/
def PortDef.zero : PortDef where
  name := .zero 32
  type := .tty
  fd := 0
  useFrame := false
  cfg := .tty ⟨.zero 128, 0, 0, 0, 0, 0⟩

def Config.zero : Config := ⟨[], [], []⟩

def getStr (cap : Nat) (obj : Option CJson) (key : CStr) : Buffer cap :=
  match cJSONGetObjectItem obj key with
  | some (.string s) => .ofStr cap s
  | _ => .zero cap

def getInt (obj : Option CJson) (key : CStr) : Int :=
  match cJSONGetObjectItem obj key with
  | some (.number valueint) => valueint
  | _ => 0

def getBool (obj : Option CJson) (key : CStr) : Bool :=
  match cJSONGetObjectItem obj key with
  | some (.bool value) => value
  | _ => false

def parseTty (tty : Option CJson) : PortTtyConf where
  path := getStr 128 tty (.lit "path")
  baudrate := getInt tty (.lit "baudrate")
  databits := getInt tty (.lit "databits")
  stopbits := getInt tty (.lit "stopbits")
  parity := getInt tty (.lit "parity")
  flow := getInt tty (.lit "flow")

def parseTcpServer (ts : Option CJson) : PortTcpServerConf where
  bindAddr := getStr 64 ts (.lit "bind")
  port := getInt ts (.lit "port")
  backlog := getInt ts (.lit "backlog")

def parseTcpClient (tc : Option CJson) : PortTcpClientConf where
  addr := getStr 64 tc (.lit "addr")
  port := getInt tc (.lit "port")

def parseUdp (u : Option CJson) : PortUdpConf where
  bindAddr := getStr 64 u (.lit "bind")
  port := getInt u (.lit "port")

def parseUsb (u : Option CJson) : PortUsbConf where
  path := getStr 128 u (.lit "path")

def parseIpc (u : Option CJson) : PortIpcConf where
  path := getStr 128 u (.lit "path")

def typeStr (item : CJson) : CStr := (getStr 32 item (.lit "type")).str

def parsePort (item : CJson) : PortDef :=
  let p :=
    { PortDef.zero with
      name := getStr 32 item (.lit "name")
      useFrame := getBool item (.lit "use_frame") }
  if typeStr item = .lit "tty" then
    match cJSONGetObjectItem item (.lit "tty") with
    -- `continue` skips the assignment of `fd` at the end of the loop body.
    | none => { p with type := .tty }
    | some tty => { p with type := .tty, cfg := .tty (parseTty tty), fd := -1 }
  else if typeStr item = .lit "tcp_server" then
    { p with
      type := .tcpServer
      cfg := .tcpServer (parseTcpServer
        (cJSONGetObjectItem item (.lit "tcp_server")))
      fd := -1 }
  else if typeStr item = .lit "tcp_client" then
    { p with
      type := .tcpClient
      cfg := .tcpClient (parseTcpClient
        (cJSONGetObjectItem item (.lit "tcp_client")))
      fd := -1 }
  else if typeStr item = .lit "udp" then
    { p with
      type := .udp
      cfg := .udp (parseUdp (cJSONGetObjectItem item (.lit "udp")))
      fd := -1 }
  else if typeStr item = .lit "usb" then
    { p with
      type := .usb
      cfg := .usb (parseUsb (cJSONGetObjectItem item (.lit "usb")))
      fd := -1 }
  else if typeStr item = .lit "ipc" then
    { p with
      type := .ipcServer
      cfg := .ipc (parseIpc (cJSONGetObjectItem item (.lit "ipc")))
      fd := -1 }
  else { p with fd := -1 }

def parsePlugin (item : CJson) : PluginDef where
  name := getStr 32 item (.lit "name")
  path := getStr 256 item (.lit "path")

def parseRoute (item : CJson) : RouteDef where
  src := getStr 32 item (.lit "src")
  dst := getStr 32 item (.lit "dst")
  plugin := getStr 32 item (.lit "plugin")
  handler := getStr 64 item (.lit "handler")

def parseItems {α : Type} (limit : Nat) (parse : CJson → α) :
    List CJson → List α → List α
  | [], stored => stored
  | item :: items, stored =>
      if stored.length ≥ limit then stored
      else parseItems limit parse items (stored ++ [parse item])

def parseArray {α : Type} (limit : Nat) (parse : CJson → α)
    (arr : Option CJson) : List α :=
  match arr with
  | some (.array items) => parseItems limit parse items []
  | _ => []

def parsePorts (arr : Option CJson) : List PortDef :=
  parseArray maxPorts parsePort arr

def parsePlugins (arr : Option CJson) : List PluginDef :=
  parseArray maxPlugins parsePlugin arr

def parseRoutes (arr : Option CJson) : List RouteDef :=
  parseArray maxRoutes parseRoute arr

def configOfRoot (root : CJson) : Config where
  ports := parsePorts (cJSONGetObjectItem root (.lit "ports"))
  plugins := parsePlugins (cJSONGetObjectItem root (.lit "plugins"))
  routes := parseRoutes (cJSONGetObjectItem root (.lit "routes"))

/-- `load_config`, given the contents of the file or nothing when it cannot be
opened: the value returned and `g_config` afterwards. -/
def loadConfig (parse : CJsonParser) (file : Option (List UInt8)) :
    Int × Config :=
  match file with
  | none => (-1, .zero)
  | some text =>
      match parse (.ofBytes text) with
      | none => (-1, .zero)
      | some root => (0, configOfRoot root)

theorem loadConfig_of_parse {parse : CJsonParser} {text : List UInt8}
    {root : CJson} (h : parse (.ofBytes text) = some root) :
    loadConfig parse (some text) = (0, configOfRoot root) := by
  simp only [loadConfig, h]

def findRoutesLoop (srcName : CStr) (maxOut : Nat) :
    List RouteDef → List RouteDef → List RouteDef
  | [], out => out
  | r :: routes, out =>
      if r.src.str = srcName ∧ out.length < maxOut then
        findRoutesLoop srcName maxOut routes (out ++ [r])
      else findRoutesLoop srcName maxOut routes out

def configFindRoutesBySrc (c : Config) (srcName : CStr) (maxOut : Nat) :
    List RouteDef :=
  findRoutesLoop srcName maxOut c.routes []

/-! ## What the loops compute -/

theorem parseItems_eq {α : Type} (limit : Nat) (parse : CJson → α)
    (items : List CJson) (stored : List α) :
    parseItems limit parse items stored =
      stored ++ (items.take (limit - stored.length)).map parse := by
  induction items generalizing stored with
  | nil => simp [parseItems]
  | cons item items ih =>
      rw [parseItems]
      split
      · rename_i hfull
        simp [Nat.sub_eq_zero_of_le hfull]
      · rename_i hroom
        rw [ih]
        obtain ⟨k, hk⟩ : ∃ k, limit - stored.length = k + 1 :=
          ⟨limit - stored.length - 1, by omega⟩
        have hk' : limit - (stored ++ [parse item]).length = k := by
          simp
          omega
        rw [hk, hk', List.take_succ_cons]
        simp

theorem parseArray_eq {α : Type} (limit : Nat) (parse : CJson → α)
    (arr : Option CJson) :
    parseArray limit parse arr = ((arrayItems arr).take limit).map parse := by
  unfold parseArray arrayItems
  split <;> simp [parseItems_eq]

theorem findRoutesLoop_eq (srcName : CStr) (maxOut : Nat)
    (routes out : List RouteDef) :
    findRoutesLoop srcName maxOut routes out =
      out ++
        (routes.filter (·.src.str = srcName)).take (maxOut - out.length) := by
  induction routes generalizing out with
  | nil => simp [findRoutesLoop]
  | cons r routes ih =>
      rw [findRoutesLoop]
      by_cases hsrc : r.src.str = srcName
      · by_cases hroom : out.length < maxOut
        · obtain ⟨k, hk⟩ : ∃ k, maxOut - out.length = k + 1 :=
            ⟨maxOut - out.length - 1, by omega⟩
          have hk' : maxOut - (out ++ [r]).length = k := by
            simp
            omega
          rw [if_pos ⟨hsrc, hroom⟩, ih, hk, hk']
          simp [hsrc]
        · have hzero : maxOut - out.length = 0 := by omega
          rw [if_neg (by simp [hroom]), ih, hzero]
          simp
      · rw [if_neg (by simp [hsrc]), ih]
        simp [hsrc]

theorem configFindRoutesBySrc_eq (c : Config) (srcName : CStr) (maxOut : Nat) :
    configFindRoutesBySrc c srcName maxOut =
      (c.routes.filter (·.src.str = srcName)).take maxOut := by
  simp [configFindRoutesBySrc, findRoutesLoop_eq]

end EzRouter
