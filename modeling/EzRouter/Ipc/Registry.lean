import EzRouter.Config.CJson
import EzRouter.Foundation.Slots

/-!
# The subprocess registry

`registry.h` and `registry.c`.  Every function below is what the source does in
one section under `g_lock`, together with the parsing that `registry_register`
does before it takes the lock.  A pointer to a slot is returned as the contents
of that slot.
-/

namespace EzRouter

open EzRouter.Foundation

def registryMaxSubprocs : Nat := 32
def registryMaxPortsPerSubproc : Nat := 8

structure SubprocEntry where
  clientFd : Int
  inUse : Bool
  deviceId : Buffer 64
  model : Buffer 32
  fwVersion : Buffer 16
  buildDate : Buffer 16
  lastSeq : UInt32
  lastHeartbeatMs : UInt64
  portCount : Nat
  portNames : Vector (Buffer 32) registryMaxPortsPerSubproc
  deriving DecidableEq

def SubprocEntry.zero : SubprocEntry where
  clientFd := 0
  inUse := false
  deviceId := .zero 64
  model := .zero 32
  fwVersion := .zero 16
  buildDate := .zero 16
  lastSeq := 0
  lastHeartbeatMs := 0
  portCount := 0
  portNames := Vector.replicate registryMaxPortsPerSubproc (.zero 32)

def SubprocEntry.free : SubprocEntry :=
  { SubprocEntry.zero with clientFd := -1 }

def copyField {cap : Nat} (dst : Buffer cap) (src : CStr) : Buffer cap :=
  dst.write 0 ((src.take (cap - 1)).bytes ++ [0])

def jsonStr (obj : Option CJson) (key : CStr) : Option CStr :=
  match cJSONGetObjectItemCaseSensitive obj key with
  | some (.string s) => some s
  | _ => none

def SubprocEntry.copyFields (e : SubprocEntry)
    (deviceId model fwVersion buildDate : CStr) : SubprocEntry :=
  { e with
    deviceId := copyField e.deviceId deviceId
    model := copyField e.model model
    fwVersion := copyField e.fwVersion fwVersion
    buildDate := copyField e.buildDate buildDate
    portCount := 0 }

def SubprocEntry.storePortName (e : SubprocEntry) (name : CStr)
    (h : e.portCount < registryMaxPortsPerSubproc) : SubprocEntry :=
  { e with
    portNames :=
      e.portNames.set e.portCount (copyField e.portNames[e.portCount] name) h
    portCount := e.portCount + 1 }

def parsePortNames : List CJson → SubprocEntry → SubprocEntry
  | [], e => e
  | it :: items, e =>
      if h : e.portCount < registryMaxPortsPerSubproc then
        match jsonStr (some it) (.lit "name") with
        | none => parsePortNames items e
        | some name => parsePortNames items (e.storePortName name h)
      else e

def parseRegisterJson (parse : CJsonParser) (json : List UInt8)
    (e : SubprocEntry) : Option SubprocEntry :=
  if json.length = 0 ∨ json.length > 4096 then none
  else
    match parse (.ofBytes (json ++ [0])) with
    | none => none
    | some root =>
        match jsonStr (some root) (.lit "device_id"),
            jsonStr (some root) (.lit "model"),
            jsonStr (some root) (.lit "fw_version"),
            jsonStr (some root) (.lit "build_date") with
        | some deviceId, some model, some fwVersion, some buildDate =>
            let ports :=
              cJSONGetObjectItemCaseSensitive (some root) (.lit "ports")
            some (parsePortNames (arrayItems ports)
              (e.copyFields deviceId model fwVersion buildDate))
        | _, _, _, _ => none

structure Registry where
  table : List SubprocEntry
  length_eq : table.length = registryMaxSubprocs
  inited : Bool

def Registry.boot : Registry :=
  ⟨List.replicate registryMaxSubprocs .zero, by simp, false⟩

def Registry.store (r : Registry) (i : Nat) (e : SubprocEntry) : Registry where
  table := r.table.set i e
  length_eq := by simpa using r.length_eq
  inited := r.inited

def registryInit (r : Registry) : Registry :=
  if r.inited then r
  else ⟨List.replicate registryMaxSubprocs .free, by simp, true⟩

/-- The scan of `registry_register`: `none` when an entry conflicts, and
otherwise the first free slot, if there is one. -/
def registerScan (fd : Int) (deviceId : CStr) :
    List SubprocEntry → Nat → Option Nat → Option (Option Nat)
  | [], _, freeSlot => some freeSlot
  | e :: table, i, freeSlot =>
      if e.inUse then
        if e.clientFd = fd then none
        else if e.deviceId.str = deviceId then none
        else registerScan fd deviceId table (i + 1) freeSlot
      else if freeSlot.isNone then
        registerScan fd deviceId table (i + 1) (some i)
      else registerScan fd deviceId table (i + 1) freeSlot

def SubprocEntry.occupy (parsed : SubprocEntry) (fd : Int) (now : UInt64) :
    SubprocEntry :=
  { parsed with
    clientFd := fd
    inUse := true
    lastSeq := 0
    lastHeartbeatMs := now }

def registryRegister (parse : CJsonParser) (r : Registry) (fd : Int)
    (json : List UInt8) (now : UInt64) : Int × Registry :=
  let r := if r.inited then r else registryInit r
  match parseRegisterJson parse json .zero with
  | none => (-1, r)
  | some parsed =>
      match registerScan fd parsed.deviceId.str r.table 0 none with
      | none => (-1, r)
      | some none => (-1, r)
      | some (some freeSlot) => (0, r.store freeSlot (parsed.occupy fd now))

def ownedBy (fd : Int) (e : SubprocEntry) : Bool :=
  e.inUse && decide (e.clientFd = fd)

def registryAtFd (r : Registry) (fd : Int) (f : SubprocEntry → SubprocEntry) :
    Int × Registry :=
  if !r.inited then (-1, r)
  else if r.table.any (ownedBy fd) then
    (0, { r with
      table := updateFirst (ownedBy fd) f r.table
      length_eq := by simpa using r.length_eq })
  else (-1, r)

def registryUnregister (r : Registry) (fd : Int) : Int × Registry :=
  registryAtFd r fd fun _ => .free

def registryUpdateHeartbeat (r : Registry) (fd : Int) (now : UInt64) :
    Int × Registry :=
  registryAtFd r fd fun e => { e with lastHeartbeatMs := now }

def registryFindByFd (r : Registry) (fd : Int) : Option SubprocEntry :=
  if !r.inited then none else r.table.find? (ownedBy fd)

/-- A null `device_id` is `none`. -/
def registryFindByDeviceId (r : Registry) (deviceId : Option CStr) :
    Option SubprocEntry :=
  match deviceId with
  | none => none
  | some deviceId =>
      if !r.inited then none
      else r.table.find? fun e => e.inUse && decide (e.deviceId.str = deviceId)

def registryIterate (r : Registry) : List SubprocEntry :=
  if !r.inited then [] else r.table.filter (·.inUse)

/-! ## What the functions can do -/

def conflicts (fd : Int) (deviceId : CStr) (e : SubprocEntry) : Bool :=
  e.inUse && (decide (e.clientFd = fd) || decide (e.deviceId.str = deviceId))

theorem registerScan_eq (fd : Int) (deviceId : CStr)
    (table : List SubprocEntry) (i : Nat) (freeSlot : Option Nat) :
    registerScan fd deviceId table i freeSlot =
      if table.any (conflicts fd deviceId) then none
      else some (freeSlot.or
        ((table.findIdx? fun e => !e.inUse).map (i + ·))) := by
  induction table generalizing i freeSlot with
  | nil => simp [registerScan]
  | cons e table ih =>
      have hshift : ∀ found : Option Nat,
          (found.map (· + 1)).map (i + ·) = found.map (i + 1 + ·) := by
        intro found
        cases found with
        | none => rfl
        | some j => simp [Nat.add_comm, Nat.add_left_comm]
      unfold registerScan
      cases hused : e.inUse with
      | true =>
          by_cases hfd : e.clientFd = fd
          · simp [hused, hfd, conflicts]
          · by_cases hdevice : e.deviceId.str = deviceId
            · simp [hused, hfd, hdevice, conflicts]
            · have hclear : conflicts fd deviceId e = false := by
                simp [conflicts, hfd, hdevice]
              simp [hfd, hdevice, hclear, hused, ih, List.findIdx?_cons, hshift]
      | false =>
          have hclear : conflicts fd deviceId e = false := by
            simp [conflicts, hused]
          cases freeSlot with
          | none => simp [hclear, hused, ih, List.findIdx?_cons]
          | some j => simp [hclear, ih]

theorem Registry.table_store {r : Registry} {i : Nat} {e : SubprocEntry}
    (hi : i < r.table.length) :
    (r.store i e).table = r.table.take i ++ e :: r.table.drop (i + 1) := by
  change r.table.set i e = _
  rw [List.set_eq_take_append_cons_drop, if_pos hi]

theorem registry_ext {r r' : Registry} (htable : r.table = r'.table)
    (hinited : r.inited = r'.inited) : r = r' := by
  cases r
  cases r'
  simp_all

theorem registryInit_of_inited {r : Registry} (h : r.inited = true) :
    registryInit r = r := by
  simp [registryInit, h]

@[simp] theorem inited_registryInit (r : Registry) :
    (registryInit r).inited = true := by
  unfold registryInit
  split
  · assumption
  · rfl

theorem not_ownedBy_of_clear {table : List SubprocEntry} {fd : Int}
    {deviceId : CStr} (h : table.any (conflicts fd deviceId) = false) :
    ∀ e ∈ table, ownedBy fd e = false := by
  intro e he
  have hclear := List.any_eq_false.1 h e he
  simp only [conflicts, ownedBy, Bool.and_eq_false_imp] at hclear ⊢
  intro hused
  simp only [hused, Bool.true_and] at hclear
  simp_all

theorem registryRegister_cases (parse : CJsonParser) (r : Registry) (fd : Int)
    (json : List UInt8) (now : UInt64) :
    (registryRegister parse r fd json now = (-1, registryInit r) ∧
      ∀ parsed, parseRegisterJson parse json .zero = some parsed →
        (registryInit r).table.any
            (conflicts fd parsed.deviceId.str) = true ∨
          ∀ e ∈ (registryInit r).table, e.inUse = true) ∨
      ∃ before x after parsed,
        parseRegisterJson parse json .zero = some parsed ∧
        (registryInit r).table = before ++ x :: after ∧ x.inUse = false ∧
        (registryInit r).table.any
          (conflicts fd parsed.deviceId.str) = false ∧
        (registryRegister parse r fd json now).1 = 0 ∧
        (registryRegister parse r fd json now).2.inited = true ∧
        (registryRegister parse r fd json now).2.table =
          before ++ parsed.occupy fd now :: after := by
  have hready : (if r.inited then r else registryInit r) = registryInit r := by
    split
    · rename_i h
      rw [registryInit_of_inited h]
    · rfl
  unfold registryRegister
  rw [hready]
  cases hparse : parseRegisterJson parse json .zero with
  | none => exact .inl ⟨rfl, nofun⟩
  | some parsed =>
      simp only [registerScan_eq]
      cases hconf : (registryInit r).table.any
          (conflicts fd parsed.deviceId.str) with
      | true =>
          left
          refine ⟨rfl, ?_⟩
          rintro _ ⟨⟩
          exact .inl hconf
      | false =>
          cases hfree : (registryInit r).table.findIdx? fun e => !e.inUse with
          | none =>
              left
              refine ⟨rfl, ?_⟩
              rintro _ ⟨⟩
              right
              simpa using hfree
          | some j =>
              rcases List.findIdx?_eq_some_iff_getElem.1 hfree with
                ⟨hj, hunused, -⟩
              simp only [Bool.false_eq_true, if_false, Option.none_or,
                Option.map_some, Nat.zero_add]
              right
              exact ⟨(registryInit r).table.take j, (registryInit r).table[j],
                (registryInit r).table.drop (j + 1), parsed, rfl, by simp,
                by simpa using hunused, hconf, trivial,
                by simp [Registry.store], Registry.table_store hj⟩

theorem registryRegister_of_owned (parse : CJsonParser) {r : Registry}
    {fd : Int} {e : SubprocEntry} (hinited : r.inited = true)
    (he : e ∈ r.table) (howned : ownedBy fd e = true) (json : List UInt8)
    (now : UInt64) : registryRegister parse r fd json now = (-1, r) := by
  have hready := registryInit_of_inited hinited
  rcases registryRegister_cases parse r fd json now with ⟨hfail, -⟩ |
    ⟨before, x, after, parsed, -, -, -, hclear, -⟩
  · rw [hfail, hready]
  · rw [hready] at hclear
    have hmiss := not_ownedBy_of_clear hclear e he
    rw [howned] at hmiss
    contradiction

theorem registryAtFd_of_split {r : Registry} {fd : Int}
    {before after : List SubprocEntry} {e : SubprocEntry}
    (f : SubprocEntry → SubprocEntry) (hinited : r.inited = true)
    (htable : r.table = before ++ e :: after)
    (hbefore : ∀ y ∈ before, ownedBy fd y = false)
    (howned : ownedBy fd e = true) :
    (registryAtFd r fd f).1 = 0 ∧ (registryAtFd r fd f).2.inited = true ∧
      (registryAtFd r fd f).2.table = before ++ f e :: after := by
  have hhit : r.table.any (ownedBy fd) = true :=
    List.any_eq_true.2 ⟨e, by simp [htable], howned⟩
  have hupdate : updateFirst (ownedBy fd) f r.table =
      before ++ f e :: after := by
    rw [htable]
    exact updateFirst_of_split hbefore howned
  simp [registryAtFd, hinited, hhit, hupdate]

theorem registryAtFd_cases (r : Registry) (fd : Int)
    (f : SubprocEntry → SubprocEntry) :
    (registryAtFd r fd f = (-1, r) ∧
      (r.inited = true → ∀ e ∈ r.table, ownedBy fd e = false)) ∨
      ∃ before e after, r.inited = true ∧ r.table = before ++ e :: after ∧
        ownedBy fd e = true ∧ (registryAtFd r fd f).1 = 0 ∧
        (registryAtFd r fd f).2.inited = true ∧
        (registryAtFd r fd f).2.table = before ++ f e :: after := by
  cases hinited : r.inited with
  | false => exact .inl ⟨by simp [registryAtFd, hinited], by simp⟩
  | true =>
      rcases first_split (ownedBy fd) r.table with
        hnone | ⟨before, e, after, htable, hbefore, he⟩
      · have hmiss : r.table.any (ownedBy fd) = false := by simpa using hnone
        exact .inl ⟨by simp [registryAtFd, hinited, hmiss], fun _ => hnone⟩
      · exact .inr ⟨before, e, after, rfl, htable, he,
          registryAtFd_of_split f hinited htable hbefore he⟩

end EzRouter
