import EzRouter.Config.CJsonRoundTrip

/-!
# The saved text

What `save_config` hands to the file, and what the next start of the daemon
makes of it.  The tree of a configuration is flat and its strings come out of
fixed arrays, so the printer never fails on it.
-/

namespace EzRouter

open EzRouter.Foundation Ascii

inductive Field : CJson → Prop where
  | string {s : CStr} (hlen : s.length ≤ 256) : Field (.string s)
  | number (num : Int) : Field (cJSONCreateNumber num)

theorem field_str {cap : Nat} (hcap : cap ≤ 256) (b : Buffer cap) :
    Field (.string b.str) := by
  have hle : b.str.length ≤ b.bytes.length :=
    (List.takeWhile_prefix _).length_le
  rw [b.length_eq] at hle
  exact .string (hle.trans hcap)

inductive Record (good : CJson → Prop) : Nat → List (CStr × CJson) → Prop where
  | nil (limit : Nat) : Record good limit []
  | cons {limit : Nat} {key : CStr} {v : CJson}
      {members : List (CStr × CJson)} (hkey : key.length ≤ 12) (hgood : good v)
      (h : Record good limit members) :
      Record good (limit + 1) ((key, v) :: members)

def FlatRecord (limit : Nat) (v : CJson) : Prop :=
  ∃ members, v = .object members ∧ Record Field limit members

theorem record_saveTty (tty : PortTtyConf) : FlatRecord 6 (saveTty tty) :=
  ⟨_, rfl, .cons (by decide) (field_str (by omega) _) <|
    .cons (by decide) (.number _) <| .cons (by decide) (.number _) <|
    .cons (by decide) (.number _) <| .cons (by decide) (.number _) <|
    .cons (by decide) (.number _) <| .nil 0⟩

theorem record_saveTcpServer (ts : PortTcpServerConf) :
    FlatRecord 6 (saveTcpServer ts) :=
  ⟨_, rfl, .cons (by decide) (field_str (by omega) _) <|
    .cons (by decide) (.number _) <| .cons (by decide) (.number _) <| .nil 3⟩

theorem record_saveTcpClient (tc : PortTcpClientConf) :
    FlatRecord 6 (saveTcpClient tc) :=
  ⟨_, rfl, .cons (by decide) (field_str (by omega) _) <|
    .cons (by decide) (.number _) <| .nil 4⟩

theorem record_saveUdp (u : PortUdpConf) : FlatRecord 6 (saveUdp u) :=
  ⟨_, rfl, .cons (by decide) (field_str (by omega) _) <|
    .cons (by decide) (.number _) <| .nil 4⟩

theorem record_saveUsb (u : PortUsbConf) : FlatRecord 6 (saveUsb u) :=
  ⟨_, rfl, .cons (by decide) (field_str (by omega) _) <| .nil 5⟩

theorem record_savePlugin (p : PluginDef) : FlatRecord 4 (savePlugin p) :=
  ⟨_, rfl, .cons (by decide) (field_str (by omega) _) <|
    .cons (by decide) (field_str (by omega) _) <| .nil 2⟩

theorem record_saveRoute (r : RouteDef) : FlatRecord 4 (saveRoute r) :=
  ⟨_, rfl, .cons (by decide) (field_str (by omega) _) <|
    .cons (by decide) (field_str (by omega) _) <|
    .cons (by decide) (field_str (by omega) _) <|
    .cons (by decide) (field_str (by omega) _) <| .nil 0⟩

def PortMember (v : CJson) : Prop := Field v ∨ FlatRecord 6 v

theorem record_savePort (p : PortDef) :
    ∃ members, savePort p = .object members ∧ Record PortMember 3 members := by
  have htyped : ∀ kind conf, kind.length ≤ 12 → FlatRecord 6 conf →
      Record PortMember 3
        [(.lit "name", .string p.name.str), (.lit "type", .string kind),
          (kind, conf)] := by
    intro kind conf hlen hconf
    exact .cons (by decide) (.inl (field_str (by omega) _)) <|
      .cons (by decide) (.inl (.string (by omega))) <|
      .cons hlen (.inr hconf) <| .nil 0
  unfold savePort
  split
  · exact ⟨_, rfl, htyped _ _ (by decide) (record_saveTty _)⟩
  · exact ⟨_, rfl, htyped _ _ (by decide) (record_saveTcpServer _)⟩
  · exact ⟨_, rfl, htyped _ _ (by decide) (record_saveTcpClient _)⟩
  · exact ⟨_, rfl, htyped _ _ (by decide) (record_saveUdp _)⟩
  · exact ⟨_, rfl, htyped _ _ (by decide) (record_saveUsb _)⟩
  · exact ⟨_, rfl, .cons (by decide) (.inl (field_str (by omega) _)) (.nil 2)⟩

theorem Field.accepted {v : CJson} (h : Field v) : Accepted 0 v := by
  cases h with
  | string _ => exact ⟨.string _, .string 0 _⟩
  | number num => exact ⟨.number _ (isInt_saturate num), .number 0 _⟩

theorem Record.forall {good : CJson → Prop} {limit : Nat}
    {members : List (CStr × CJson)} (h : Record good limit members) :
    ∀ member ∈ members, good member.2 := by
  induction h with
  | nil limit => simp
  | cons _ hgood _ ih => exact List.forall_mem_cons.2 ⟨hgood, ih⟩

theorem accepted_object {levels : Nat} {members : List (CStr × CJson)}
    (h : ∀ member ∈ members, Accepted levels member.2) :
    Accepted (levels + 1) (.object members) :=
  ⟨.object _ fun member hmember => (h member hmember).1,
    .object _ _ fun member hmember => (h member hmember).2⟩

theorem accepted_array {levels : Nat} {items : List CJson}
    (h : ∀ item ∈ items, Accepted levels item) :
    Accepted (levels + 1) (.array items) :=
  ⟨.array _ fun item hitem => (h item hitem).1,
    .array _ _ fun item hitem => (h item hitem).2⟩

theorem Accepted.mono {levels levels' : Nat} (hle : levels ≤ levels')
    {v : CJson} (h : Accepted levels v) : Accepted levels' v := by
  refine ⟨h.1, ?_⟩
  have hnests := h.2
  clear h
  induction hnests generalizing levels' with
  | null => exact .null _
  | bool => exact .bool _ _
  | number => exact .number _ _
  | string => exact .string _ _
  | array levels items _ ih =>
      obtain ⟨left, rfl⟩ : ∃ left, levels' = left + 1 :=
        ⟨levels' - 1, by omega⟩
      exact .array _ _ fun item hitem => ih item hitem (by omega)
  | object levels members _ ih =>
      obtain ⟨left, rfl⟩ : ∃ left, levels' = left + 1 :=
        ⟨levels' - 1, by omega⟩
      exact .object _ _ fun member hmember => ih member hmember (by omega)

theorem FlatRecord.accepted {limit : Nat} {v : CJson}
    (h : FlatRecord limit v) : Accepted 1 v := by
  rcases h with ⟨members, rfl, hrecord⟩
  exact accepted_object fun member hmember =>
    (hrecord.forall member hmember).accepted

theorem accepted_savePort (p : PortDef) : Accepted 2 (savePort p) := by
  rcases record_savePort p with ⟨members, heq, hrecord⟩
  rw [heq]
  apply accepted_object
  intro member hmember
  rcases hrecord.forall member hmember with hfield | hconf
  · exact hfield.accepted.mono (by omega)
  · exact hconf.accepted

theorem accepted_rootOfConfig (c : Config) : Accepted 4 (rootOfConfig c) := by
  have harray : ∀ {α : Type} (save : α → CJson) (stored : List α),
      (∀ x, Accepted 2 (save x)) →
        Accepted 3 (.array (stored.map save)) := by
    intro α save stored hsave
    apply accepted_array
    intro item hitem
    rcases List.mem_map.1 hitem with ⟨x, -, rfl⟩
    exact hsave x
  apply accepted_object
  simp only [List.forall_mem_cons, List.not_mem_nil, IsEmpty.forall_iff,
    implies_true, and_true]
  exact ⟨harray _ _ accepted_savePort,
    harray _ _ fun p => (record_savePlugin p).accepted.mono (by omega),
    harray _ _ fun r => (record_saveRoute r).accepted.mono (by omega)⟩

/-! ## The printer writes it -/

theorem length_stringText_le (s : CStr) :
    (stringText s).length ≤ 6 * s.length + 2 := by
  have hescape : ∀ b, (escapeByte b).length ≤ 6 := by
    apply forall_byte
    decide +kernel
  have hle : (s.bytes.flatMap escapeByte).length ≤ 6 * s.bytes.length := by
    induction s.bytes with
    | nil => rfl
    | cons b bytes ih =>
        have hb := hescape b
        rw [List.flatMap_cons, List.length_append, List.length_cons]
        omega
  simp only [stringText, CStr.length, List.length_append, List.length_cons,
    List.length_nil]
  omega

theorem length_intText_le {n : Int} (h : IsInt n) :
    (intText n).length ≤ 11 := by
  have hdecimal : ∀ k < 10 ^ 10, (decimal k).length ≤ 10 := by
    intro k hk
    unfold decimal
    split_ifs
    · decide
    · rw [List.length_map, List.length_reverse]
      exact (Nat.digits_length_le_iff (by omega) k).2 hk
  unfold IsInt intMin intMax at h
  cases n with
  | ofNat n =>
      rw [Int.ofNat_eq_natCast] at h
      have hle := hdecimal n (by omega)
      change (decimal n).length ≤ 11
      omega
  | negSucc n =>
      have hle := hdecimal (n + 1) (by omega)
      change (decimal (n + 1)).length + 1 ≤ 11
      omega

theorem Field.length_le {v : CJson} (h : Field v) (depth : Nat) :
    (valueText true depth v).length ≤ 1600 := by
  cases h with
  | string hlen =>
      have hle := length_stringText_le ‹CStr›
      rw [valueText]
      omega
  | number num =>
      have hle := length_intText_le (isInt_saturate num)
      rw [cJSONCreateNumber, valueText]
      omega

theorem Record.length_le {good : CJson → Prop} {limit depth k : Nat}
    (hgood : ∀ v, good v → (valueText true (depth + 1) v).length ≤ k)
    {members : List (CStr × CJson)} (h : Record good limit members) :
    (valueText true depth (.object members)).length ≤
      limit * (k + depth + 80) + depth + 3 := by
  have hmembers : (membersText true (depth + 1) members).length ≤
      limit * (k + depth + 80) := by
    induction h with
    | nil limit => simp [membersText]
    | @cons limit key v members hkey hv _ ih =>
        have hle := hgood v hv
        have hkeyText := length_stringText_le key
        have hseparator :
            (if members.isEmpty then [] else [comma]).length ≤ 1 := by
          split_ifs <;> decide
        rw [membersText, Nat.add_mul]
        simp only [formatted, tabs, if_true, List.length_append,
          List.length_cons, List.length_nil, List.length_replicate]
        omega
  rw [valueText]
  simp only [formatted, tabs, if_true, List.length_append, List.length_cons,
    List.length_nil, List.length_replicate]
  omega

theorem length_array_le {depth k : Nat} {items : List CJson}
    (h : ∀ item ∈ items, (valueText true (depth + 1) item).length ≤ k) :
    (valueText true depth (.array items)).length ≤
      items.length * (k + 2) + 2 := by
  have hitems : (itemsText true (depth + 1) items).length ≤
      items.length * (k + 2) := by
    induction items with
    | nil => simp [itemsText]
    | cons item items ih =>
        have hle := h item List.mem_cons_self
        have hrest := ih fun i hi => h i (List.mem_cons_of_mem _ hi)
        have hseparator : (if items.isEmpty then []
            else comma :: formatted true [space]).length ≤ 2 := by
          split_ifs <;> decide
        rw [itemsText, List.length_cons, Nat.add_mul]
        simp only [List.length_append]
        omega
  rw [valueText]
  simp only [List.length_append, List.length_cons, List.length_nil]
  omega

theorem FlatRecord.length_le {limit : Nat} {v : CJson}
    (h : FlatRecord limit v) (depth : Nat) :
    (valueText true depth v).length ≤ limit * (1680 + depth) + depth + 3 := by
  rcases h with ⟨members, rfl, hrecord⟩
  have hle := hrecord.length_le fun v hv => hv.length_le (depth + 1)
  rwa [show 1600 + depth + 80 = 1680 + depth by omega] at hle

theorem length_savePort_le (p : PortDef) :
    (valueText true 2 (savePort p)).length ≤ 40000 := by
  have hgood : ∀ v, PortMember v → (valueText true 3 v).length ≤ 12000 := by
    rintro v (hfield | hconf)
    · exact (hfield.length_le 3).trans (by omega)
    · exact (hconf.length_le 3).trans (by omega)
  rcases record_savePort p with ⟨members, heq, hrecord⟩
  rw [heq]
  exact (hrecord.length_le hgood).trans (by omega)

structure Config.InTables (c : Config) : Prop where
  ports : c.ports.length ≤ maxPorts
  plugins : c.plugins.length ≤ maxPlugins
  routes : c.routes.length ≤ maxRoutes

theorem inTables_configOfRoot (root : CJson) :
    (configOfRoot root).InTables where
  ports := by simp [configOfRoot, parsePorts, parseArray_eq]
  plugins := by simp [configOfRoot, parsePlugins, parseArray_eq]
  routes := by simp [configOfRoot, parseRoutes, parseArray_eq]

theorem length_rootOfConfig_le {c : Config} (h : c.InTables) :
    (valueText true 0 (rootOfConfig c)).length + 2 ≤ intMax.toNat := by
  rcases h with ⟨hports, hplugins, hroutes⟩
  have harray : ∀ {α : Type} (save : α → CJson) (stored : List α),
      stored.length ≤ 64 → (∀ x, (valueText true 2 (save x)).length ≤ 40000) →
        (valueText true 1 (.array (stored.map save))).length ≤ 3000000 := by
    intro α save stored hlen hsave
    have hle := @length_array_le 1 40000 (stored.map save) (by
      intro item hitem
      rcases List.mem_map.1 hitem with ⟨x, -, rfl⟩
      exact hsave x)
    rw [List.length_map] at hle
    omega
  unfold maxPorts at hports
  unfold maxPlugins at hplugins
  unfold maxRoutes at hroutes
  have hrecord : Record (fun v => (valueText true 1 v).length ≤ 3000000) 3
      [(.lit "ports", .array (c.ports.map savePort)),
        (.lit "plugins", .array (c.plugins.map savePlugin)),
        (.lit "routes", .array (c.routes.map saveRoute))] :=
    .cons (by decide) (harray _ _ (by omega) length_savePort_le) <|
      .cons (by decide) (harray _ _ (by omega) fun p =>
        ((record_savePlugin p).length_le 2).trans (by omega)) <|
      .cons (by decide) (harray _ _ hroutes fun r =>
        ((record_saveRoute r).length_le 2).trans (by omega)) <| .nil 0
  have hle := hrecord.length_le fun _ hv => hv
  rw [rootOfConfig]
  have hmax : intMax.toNat = 2147483647 := rfl
  omega

theorem parse_saved {strtod : Strtod} (hstrtod : ReadsInts strtod) {c : Config}
    (h : c.InTables) :
    ∃ text, cJSONPrint true (rootOfConfig c) = some text ∧
      cJSONParse strtod (.ofBytes text) = some (rootOfConfig c) :=
  ⟨_, cJSONPrint_eq true _ (length_rootOfConfig_le h),
    cJSONParse_valueText hstrtod true
      ((accepted_rootOfConfig c).mono (by decide))⟩

/-- A configuration that was read from a file survives a save and a restart,
byte by byte through the text. -/
theorem reload_saved_text {strtod : Strtod} (hstrtod : ReadsInts strtod)
    {file : List UInt8} {c : Config} {root : CJson}
    (hroot : cJSONParse strtod (.ofBytes file) = some root)
    (hknown : ∀ item ∈ arrayItems (cJSONGetObjectItem root (.lit "ports")),
      KnownPort item)
    (hload : loadConfig (cJSONParse strtod) (some file) = (0, c))
    (hwritable : ∀ p ∈ c.ports, Writable p) :
    ∃ text, cJSONPrint true (rootOfConfig c) = some text ∧
      loadConfig (cJSONParse strtod) (some text) = (0, c) := by
  simp only [loadConfig, hroot, Prod.mk.injEq, true_and] at hload
  subst hload
  rcases parse_saved hstrtod (inTables_configOfRoot root) with
    ⟨text, hprint, hparse⟩
  refine ⟨text, hprint, ?_⟩
  simp only [loadConfig, hparse, Prod.mk.injEq, true_and]
  exact (reload_eq_iff (cJSONParse_accepted hroot).1 hknown).2 hwritable

theorem reload_saved_text_udp :
    ∃ text, cJSONPrint true (rootOfConfig (configOfRoot (netRoot []))) =
        some text ∧
      loadConfig (cJSONParse strtodDecimal) (some text) =
        (0, configOfRoot (netRoot [])) := by
  have htext : savedText.bytes = valueText true 0 (netRoot []) := by
    decide +kernel
  have hroot : cJSONParse strtodDecimal (.ofBytes savedText.bytes) =
      some (netRoot []) := by
    rw [htext]
    exact cJSONParse_valueText readsInts_strtodDecimal true
      ((accepted_rootOfConfig (configOfRoot (netRoot []))).mono (by decide))
  have hload := loadConfig_of_parse hroot
  refine reload_saved_text readsInts_strtodDecimal hroot ?_ hload ?_
  · intro item hitem
    obtain rfl : item = netPort [] := List.mem_singleton.1 hitem
    exact ⟨.lit "udp", by decide, by decide, rfl⟩
  · intro p hp
    obtain rfl : p = parsePort (netPort []) := List.mem_singleton.1 hp
    refine ⟨rfl, by decide, ?_⟩
    intro conf hconf
    cases hconf

/-! ## The second save -/

theorem padded_ofStr {cap : Nat} (hcap : 0 < cap) (s : CStr) :
    Padded (.ofStr cap s : Buffer cap) := by
  unfold Padded
  ext1
  rw [Buffer.ofStr_bytes, Buffer.ofStr_bytes, Buffer.str_ofStr hcap]
  simp [List.take_take]

theorem saturate_enum_nonneg (n : Int) : 0 ≤ saturate (enumValue n) := by
  have hpos : 0 ≤ enumValue n := Int.emod_nonneg n (by decide)
  unfold saturate intMax intMin
  split_ifs <;> omega

theorem reloaded_port (p : PortDef) :
    (parsePort (savePort p)).Stored ∧ Writable (parsePort (savePort p)) := by
  have hsettled : ∀ kind cfg, cfg.Stored kind → kind ≠ .ipcServer →
      (∀ conf, cfg = .tty conf → 0 ≤ conf.parity ∧ 0 ≤ conf.flow) →
      PortDef.Stored ⟨.ofStr 32 p.name.str, kind, -1, false, cfg⟩ ∧
        Writable ⟨.ofStr 32 p.name.str, kind, -1, false, cfg⟩ :=
    fun kind cfg hcfg hkind hsign =>
      ⟨⟨padded_ofStr (by omega) _, rfl, hcfg⟩, rfl, hkind, hsign⟩
  unfold savePort
  split
  · rename_i conf _ _
    refine hsettled .tty (.tty (parseTty (some (saveTty conf)))) ?_
      (by decide) ?_
    · exact ⟨padded_ofStr (by omega) _, isInt_saturate _, isInt_saturate _,
        isInt_saturate _, isInt_saturate _, isInt_saturate _⟩
    · intro conf' hconf
      cases hconf
      exact ⟨saturate_enum_nonneg _, saturate_enum_nonneg _⟩
  · rename_i conf _ _
    exact hsettled .tcpServer
      (.tcpServer (parseTcpServer (some (saveTcpServer conf))))
      ⟨padded_ofStr (by omega) _, isInt_saturate _, isInt_saturate _⟩
      (by decide) nofun
  · rename_i conf _ _
    exact hsettled .tcpClient
      (.tcpClient (parseTcpClient (some (saveTcpClient conf))))
      ⟨padded_ofStr (by omega) _, isInt_saturate _⟩ (by decide) nofun
  · rename_i conf _ _
    exact hsettled .udp (.udp (parseUdp (some (saveUdp conf))))
      ⟨padded_ofStr (by omega) _, isInt_saturate _⟩ (by decide) nofun
  · rename_i conf _ _
    exact hsettled .usb (.usb (parseUsb (some (saveUsb conf))))
      (padded_ofStr (by omega) _) (by decide) nofun
  · refine hsettled .tty PortDef.zero.cfg ?_ (by decide) ?_
    · have hzero : IsInt 0 := by
        unfold IsInt intMin intMax
        omega
      refine ⟨?_, hzero, hzero, hzero, hzero, hzero⟩
      unfold Padded
      decide +kernel
    · intro conf hconf
      cases hconf
      decide

theorem configOfRoot_settles {c : Config} (h : c.InTables) :
    configOfRoot (rootOfConfig (configOfRoot (rootOfConfig c))) =
      configOfRoot (rootOfConfig c) := by
  rw [configOfRoot_rootOfConfig h.ports h.plugins h.routes,
    configOfRoot_rootOfConfig (by simpa using h.ports)
      (by simpa using h.plugins) (by simpa using h.routes)]
  simp only [List.map_map, Config.mk.injEq]
  refine ⟨List.map_congr_left fun p _ => ?_, List.map_congr_left fun p _ => ?_,
    List.map_congr_left fun r _ => ?_⟩
  · exact (parsePort_savePort_iff (reloaded_port p).1).2 (reloaded_port p).2
  · exact parsePlugin_savePlugin
  · exact parseRoute_saveRoute

/-- Whatever a configuration loses in its first save and load, it loses
nothing afterwards. -/
theorem saved_text_settles {strtod : Strtod} (hstrtod : ReadsInts strtod)
    {c c' : Config} (hc : c.InTables) (h : c' = configOfRoot (rootOfConfig c)) :
    ∃ text, cJSONPrint true (rootOfConfig c') = some text ∧
      loadConfig (cJSONParse strtod) (some text) = (0, c') := by
  subst h
  rcases parse_saved hstrtod (inTables_configOfRoot (rootOfConfig c)) with
    ⟨text, hprint, hparse⟩
  refine ⟨text, hprint, ?_⟩
  simp only [loadConfig, hparse, Prod.mk.injEq, true_and]
  exact configOfRoot_settles hc

theorem saved_text_settles_framed :
    ∃ text, cJSONPrint true (rootOfConfig (configOfRoot (rootOfConfig
        (configOfRoot (netRoot framed))))) = some text ∧
      loadConfig (cJSONParse strtodDecimal) (some text) =
        (0, configOfRoot (rootOfConfig (configOfRoot (netRoot framed)))) :=
  saved_text_settles readsInts_strtodDecimal (inTables_configOfRoot _) rfl

end EzRouter
