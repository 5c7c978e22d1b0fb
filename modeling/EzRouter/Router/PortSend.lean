import EzRouter.Router.Broadcast

/-!
# What a send reports

The loop of `port_send_tcp_server_broadcast`, slot by slot and with the memory
it runs in, and the value by which `port_send` tells the dispatcher how a
message fared.
-/

namespace EzRouter

open EzRouter.Foundation

/-! ## The broadcast loop -/

/-- The state between two turns of the loop.  Each call to `write` is kept
with the slot it was made for. -/
structure BroadcastLoop where
  reactor : Reactor
  sentTo : Nat
  failed : Nat
  writes : List (Nat × Write)

def broadcastTurn (result : Nat → Int) (server : PortDef) (data : List UInt8)
    (b : BroadcastLoop) (i : Nat) : BroadcastLoop :=
  match b.reactor.table.entries[i]? with
  | none => b
  | some e =>
      if !e.used then b
      else
        match e.port with
        | none => b
        | some ref =>
            match b.reactor.deref ref with
            | none => b
            | some cli =>
                if cli.type ≠ .tcpClient then b
                else if cli.name.str ≠ server.name.str then b
                else
                  let b' : BroadcastLoop := { b with
                    writes := b.writes ++ [(i, ⟨ref, cli.fd, data⟩)] }
                  if result i < 0 then { b' with failed := b.failed + 1 }
                  else { b' with sentTo := b.sentTo + 1 }

def broadcastLoop (s : Reactor) (result : Nat → Int) (server : PortDef)
    (data : List UInt8) : BroadcastLoop :=
  (List.range maxPorts).foldl (broadcastTurn result server data) ⟨s, 0, 0, []⟩

def broadcastResult (b : BroadcastLoop) (data : List UInt8) : Int :=
  if b.sentTo = 0 ∧ b.failed = 0 then 0
  else if b.sentTo = 0 then -1
  else data.length

def Reactor.hostAt (s : Reactor) (server : PortDef) (i : Nat) :
    Option (PortRef × PortDef) :=
  s.table.entries[i]?.bind fun e =>
    e.port.bind fun ref =>
      (s.deref ref).bind fun cli =>
        if e.used = true ∧ cli.type = .tcpClient ∧
            cli.name.str = server.name.str then
          some (ref, cli)
        else none

section Broadcast

variable {s : Reactor} {result : Nat → Int} {server : PortDef}
  {data : List UInt8}

theorem hostAt_iff {i : Nat} {ref : PortRef} {cli : PortDef} :
    s.hostAt server i = some (ref, cli) ↔
      ∃ e, s.table.entries[i]? = some e ∧ e.used = true ∧
        e.port = some ref ∧ s.deref ref = some cli ∧ cli.type = .tcpClient ∧
        cli.name.str = server.name.str := by
  unfold Reactor.hostAt
  simp only [Option.bind_eq_some_iff, Option.ite_none_right_eq_some,
    Option.some.injEq, Prod.mk.injEq]
  constructor
  · rintro ⟨e, he, ref', hport, cli', hcli, ⟨hused, htype, hname⟩, rfl, rfl⟩
    exact ⟨e, he, hused, hport, hcli, htype, hname⟩
  · rintro ⟨e, he, hused, hport, hcli, htype, hname⟩
    exact ⟨e, he, ref, hport, cli, hcli, ⟨hused, htype, hname⟩, rfl, rfl⟩

def hostWrite (s : Reactor) (server : PortDef) (data : List UInt8) (i : Nat) :
    Option (Nat × Write) :=
  (s.hostAt server i).map fun host => (i, ⟨host.1, host.2.fd, data⟩)

def BroadcastLoop.attempt (b : BroadcastLoop) (result : Nat → Int)
    (data : List UInt8) (i : Nat) (host : PortRef × PortDef) :
    BroadcastLoop where
  reactor := b.reactor
  sentTo := b.sentTo + if result i < 0 then 0 else 1
  failed := b.failed + if result i < 0 then 1 else 0
  writes := b.writes ++ [(i, ⟨host.1, host.2.fd, data⟩)]

theorem broadcastTurn_eq (b : BroadcastLoop) (i : Nat) :
    broadcastTurn result server data b i =
      (b.reactor.hostAt server i).elim b (b.attempt result data i) := by
  unfold broadcastTurn Reactor.hostAt
  cases b.reactor.table.entries[i]? with
  | none => rfl
  | some e =>
      cases hused : e.used with
      | false => cases e.port <;> simp [hused]
      | true =>
          cases hport : e.port with
          | none => simp [hused, hport]
          | some ref =>
              cases hcli : b.reactor.deref ref with
              | none => simp [hused, hport, hcli]
              | some cli =>
                  simp only [hused, hport, hcli, Option.bind_some]
                  by_cases htype : cli.type = .tcpClient
                  · by_cases hname : cli.name.str = server.name.str
                    · by_cases hfail : result i < 0 <;>
                        simp [htype, hname, hfail, BroadcastLoop.attempt]
                    · simp [htype, hname]
                  · simp [htype]

theorem foldl_broadcastTurn (slots : List Nat) (b : BroadcastLoop) :
    let b' := slots.foldl (broadcastTurn result server data) b
    b'.reactor = b.reactor ∧
      b'.writes =
        b.writes ++ slots.filterMap (hostWrite b.reactor server data) ∧
      b'.sentTo = b.sentTo + slots.countP (fun i =>
        (b.reactor.hostAt server i).isSome && !decide (result i < 0)) ∧
      b'.failed = b.failed + slots.countP (fun i =>
        (b.reactor.hostAt server i).isSome && decide (result i < 0)) := by
  induction slots generalizing b with
  | nil => simp
  | cons i slots ih =>
      rw [List.foldl_cons, broadcastTurn_eq]
      cases hhost : b.reactor.hostAt server i with
      | none => simpa [hostWrite, hhost] using ih b
      | some host =>
          rcases ih (b.attempt result data i host) with
            ⟨hreactor, hwrites, hsent, hfailed⟩
          refine ⟨hreactor, ?_, ?_, ?_⟩
          · rw [Option.elim_some, hwrites]
            simp [BroadcastLoop.attempt, hostWrite, hhost]
          · rw [Option.elim_some, hsent]
            by_cases hfail : result i < 0
            · simp [BroadcastLoop.attempt, hhost, hfail]
            · simp [BroadcastLoop.attempt, hhost, hfail]
              omega
          · rw [Option.elim_some, hfailed]
            by_cases hfail : result i < 0
            · simp [BroadcastLoop.attempt, hhost, hfail]
              omega
            · simp [BroadcastLoop.attempt, hhost, hfail]

theorem broadcastLoop_facts :
    (broadcastLoop s result server data).reactor = s ∧
      (broadcastLoop s result server data).writes =
        (List.range maxPorts).filterMap (hostWrite s server data) ∧
      (broadcastLoop s result server data).sentTo =
        (List.range maxPorts).countP (fun i =>
          (s.hostAt server i).isSome && !decide (result i < 0)) ∧
      (broadcastLoop s result server data).failed =
        (List.range maxPorts).countP (fun i =>
          (s.hostAt server i).isSome && decide (result i < 0)) := by
  simpa [broadcastLoop] using foldl_broadcastTurn (List.range maxPorts)
    (BroadcastLoop.mk s 0 0 [])

theorem slot_of_hostAt {i : Nat} (h : (s.hostAt server i).isSome = true) :
    i ∈ List.range maxPorts := by
  rcases Option.isSome_iff_exists.1 h with ⟨⟨ref, cli⟩, hhost⟩
  rcases hostAt_iff.1 hhost with ⟨e, he, -⟩
  rw [List.mem_range, ← s.table.length_eq]
  exact (List.getElem?_eq_some_iff.1 he).1

theorem mem_broadcastLoop_writes {i : Nat} {w : Write} :
    (i, w) ∈ (broadcastLoop s result server data).writes ↔
      ∃ ref cli, s.hostAt server i = some (ref, cli) ∧
        w = ⟨ref, cli.fd, data⟩ := by
  rw [broadcastLoop_facts.2.1, List.mem_filterMap]
  constructor
  · rintro ⟨j, -, hwrite⟩
    rcases Option.map_eq_some_iff.1 hwrite with ⟨⟨ref, cli⟩, hhost, heq⟩
    cases heq
    exact ⟨ref, cli, hhost, rfl⟩
  · rintro ⟨ref, cli, hhost, rfl⟩
    have hsome : (s.hostAt server i).isSome = true := by simp [hhost]
    exact ⟨i, slot_of_hostAt hsome, by simp [hostWrite, hhost]⟩

theorem broadcastLoop_slots :
    ((broadcastLoop s result server data).writes.map Prod.fst).Pairwise
      (· < ·) := by
  rw [broadcastLoop_facts.2.1, List.pairwise_map, List.pairwise_filterMap]
  apply List.pairwise_lt_range.imp
  intro i j hlt w hw w' hw'
  rcases Option.map_eq_some_iff.1 hw with ⟨host, -, rfl⟩
  rcases Option.map_eq_some_iff.1 hw' with ⟨host', -, rfl⟩
  exact hlt

theorem countP_hosts_eq_zero (p : Nat → Bool) :
    (List.range maxPorts).countP (fun i =>
        (s.hostAt server i).isSome && p i) = 0 ↔
      ∀ i, (s.hostAt server i).isSome → p i = false := by
  rw [List.countP_eq_zero]
  constructor
  · intro hnone i hhost
    have hmiss := hnone i (slot_of_hostAt hhost)
    simpa [hhost] using hmiss
  · intro hall i _
    cases hhost : (s.hostAt server i).isSome with
    | false => simp
    | true => simp [hall i hhost]

theorem sentTo_eq_zero :
    (broadcastLoop s result server data).sentTo = 0 ↔
      ∀ i, (s.hostAt server i).isSome → result i < 0 := by
  rw [broadcastLoop_facts.2.2.1, countP_hosts_eq_zero]
  simp

theorem failed_eq_zero :
    (broadcastLoop s result server data).failed = 0 ↔
      ∀ i, (s.hostAt server i).isSome → 0 ≤ result i := by
  rw [broadcastLoop_facts.2.2.2, countP_hosts_eq_zero]
  simp

theorem broadcastResult_of_none (h : ∀ i, s.hostAt server i = none) :
    broadcastResult (broadcastLoop s result server data) data = 0 := by
  apply if_pos
  rw [sentTo_eq_zero, failed_eq_zero]
  constructor <;> intro i hhost <;> simp [h i] at hhost

theorem broadcastResult_of_failed {i : Nat}
    (hhost : (s.hostAt server i).isSome = true)
    (hall : ∀ j, (s.hostAt server j).isSome → result j < 0) :
    broadcastResult (broadcastLoop s result server data) data = -1 := by
  have hsent : (broadcastLoop s result server data).sentTo = 0 :=
    sentTo_eq_zero.2 hall
  have hfailed : (broadcastLoop s result server data).failed ≠ 0 := by
    intro hzero
    have hpos := failed_eq_zero.1 hzero i hhost
    have hneg := hall i hhost
    omega
  simp [broadcastResult, hsent, hfailed]

theorem broadcastResult_of_sent {i : Nat}
    (hhost : (s.hostAt server i).isSome = true) (hok : 0 ≤ result i) :
    broadcastResult (broadcastLoop s result server data) data =
      data.length := by
  have hsent : (broadcastLoop s result server data).sentTo ≠ 0 := by
    intro hzero
    have hneg := sentTo_eq_zero.1 hzero i hhost
    omega
  simp [broadcastResult, hsent]

theorem hosts_cases (s : Reactor) (result : Nat → Int) (server : PortDef) :
    (∀ i, s.hostAt server i = none) ∨
    ((∃ i, (s.hostAt server i).isSome) ∧
      ∀ i, (s.hostAt server i).isSome → result i < 0) ∨
    ∃ i, (s.hostAt server i).isSome ∧ 0 ≤ result i := by
  by_cases hany : ∃ i, (s.hostAt server i).isSome
  · by_cases hok : ∃ i, (s.hostAt server i).isSome ∧ 0 ≤ result i
    · exact .inr (.inr hok)
    · have hall : ∀ i, (s.hostAt server i).isSome → result i < 0 := by
        intro i hi
        by_contra hneg
        exact hok ⟨i, hi, by omega⟩
      exact .inr (.inl ⟨hany, hall⟩)
  · left
    intro i
    rw [Option.eq_none_iff_forall_ne_some]
    intro host hhost
    exact hany ⟨i, by simp [hhost]⟩

theorem broadcastResult_eq_zero :
    broadcastResult (broadcastLoop s result server data) data = 0 ↔
      (∀ i, s.hostAt server i = none) ∨
        data = [] ∧ ∃ i, (s.hostAt server i).isSome ∧ 0 ≤ result i := by
  rcases hosts_cases s result server with
    hnone | ⟨⟨i, hhost⟩, hall⟩ | ⟨i, hhost, hok⟩
  · exact iff_of_true (broadcastResult_of_none hnone) (.inl hnone)
  · rw [broadcastResult_of_failed hhost hall]
    apply iff_of_false
    · decide
    · rintro (hnone | ⟨-, j, hj, hok⟩)
      · simp [hnone i] at hhost
      · exact Int.not_le.2 (hall j hj) hok
  · rw [broadcastResult_of_sent hhost hok]
    constructor
    · intro hzero
      exact .inr ⟨by simpa using hzero, i, hhost, hok⟩
    · rintro (hnone | ⟨rfl, -⟩)
      · simp [hnone i] at hhost
      · rfl

theorem broadcastResult_eq_neg_one :
    broadcastResult (broadcastLoop s result server data) data = -1 ↔
      (∃ i, (s.hostAt server i).isSome) ∧
        ∀ i, (s.hostAt server i).isSome → result i < 0 := by
  rcases hosts_cases s result server with hnone | hfails | ⟨i, hhost, hok⟩
  · rw [broadcastResult_of_none hnone]
    apply iff_of_false
    · decide
    · rintro ⟨⟨i, hhost⟩, -⟩
      simp [hnone i] at hhost
  · rcases hfails.1 with ⟨i, hhost⟩
    exact iff_of_true (broadcastResult_of_failed hhost hfails.2) hfails
  · rw [broadcastResult_of_sent hhost hok]
    apply iff_of_false
    · omega
    · rintro ⟨-, hall⟩
      exact Int.not_le.2 (hall i hhost) hok

theorem broadcastTargets_eq (s : Reactor) (server : PortDef) :
    broadcastTargets s server.name.str =
      (List.range maxPorts).filterMap (s.hostAt server) := by
  rw [← s.table.length_eq, broadcastTargets,
    ← filterMap_range_getElem? _ s.table.entries]
  congr 1
  funext i
  unfold Reactor.hostAt
  congr 1
  funext e
  cases hused : e.used with
  | false => cases e.port <;> simp
  | true =>
      cases hport : e.port with
      | none => rfl
      | some ref => cases hcli : s.deref ref <;> simp [hcli]

theorem broadcastLoop_eq (byRecord : PortRef → Int) :
    let b := broadcastLoop s
      (fun i => (s.hostAt server i).elim 0 fun host => byRecord host.1)
      server data
    (broadcastResult b data, b.writes.map Prod.snd) =
      portSendTcpServerBroadcast s byRecord server data data.length := by
  have htargets := broadcastTargets_eq s server
  have hfailed : ∀ i, (Option.map (fun host : PortRef × PortDef =>
      decide (byRecord host.1 < 0)) (s.hostAt server i)).getD false =
        ((s.hostAt server i).isSome && decide ((s.hostAt server i).elim 0
          (fun host => byRecord host.1) < 0)) := by
    intro i
    cases s.hostAt server i <;> rfl
  have hsent : ∀ i, (Option.map (fun host : PortRef × PortDef =>
      decide (0 ≤ byRecord host.1)) (s.hostAt server i)).getD false =
        ((s.hostAt server i).isSome && !decide ((s.hostAt server i).elim 0
          (fun host => byRecord host.1) < 0)) := by
    intro i
    cases s.hostAt server i with
    | none => rfl
    | some host =>
        rw [Option.map_some, Option.elim_some, ← decide_not]
        simp
  have hwrites : ∀ i, Option.map Prod.snd (hostWrite s server data i) =
      (s.hostAt server i).map fun host => ⟨host.1, host.2.fd, data⟩ := by
    intro i
    exact Option.map_map _ _ _
  unfold portSendTcpServerBroadcast broadcastResult
  simp only [htargets, ← List.countP_eq_length_filter, List.countP_filterMap,
    hfailed, hsent, broadcastLoop_facts, List.map_filterMap, hwrites]
  split_ifs <;> rfl

end Broadcast

/--
For every content of the table and every results of the writes, the loop makes
one attempt for each connection of the server, in slot order, whatever becomes
of the others.  A message without bytes that is taken is reported like a
server without connections.
-/
theorem broadcast_isolates_failures (s : Reactor) (result : Nat → Int)
    (server : PortDef) (data : List UInt8) :
    (∀ i w, (i, w) ∈ (broadcastLoop s result server data).writes ↔
      ∃ ref cli, s.hostAt server i = some (ref, cli) ∧
        w = ⟨ref, cli.fd, data⟩) ∧
    ((broadcastLoop s result server data).writes.map Prod.fst).Pairwise
      (· < ·) ∧
    (∀ result', (broadcastLoop s result' server data).writes =
      (broadcastLoop s result server data).writes) ∧
    (broadcastResult (broadcastLoop s result server data) data = 0 ↔
      (∀ i, s.hostAt server i = none) ∨
        data = [] ∧ ∃ i, (s.hostAt server i).isSome ∧ 0 ≤ result i) ∧
    (broadcastResult (broadcastLoop s result server data) data = -1 ↔
      (∃ i, (s.hostAt server i).isSome) ∧
        ∀ i, (s.hostAt server i).isSome → result i < 0) ∧
    ((∃ i, (s.hostAt server i).isSome ∧ 0 ≤ result i) →
      broadcastResult (broadcastLoop s result server data) data =
        data.length) ∧
    (broadcastLoop s result server data).reactor = s := by
  refine ⟨fun i w => mem_broadcastLoop_writes, broadcastLoop_slots, ?_,
    broadcastResult_eq_zero, broadcastResult_eq_neg_one, ?_,
    broadcastLoop_facts.1⟩
  · intro result'
    rw [broadcastLoop_facts.2.1, broadcastLoop_facts.2.1]
  · rintro ⟨i, hhost, hok⟩
    exact broadcastResult_of_sent hhost hok

theorem broadcast_empty_message :
    ∃ server, oneHost.ports[0]? = some server ∧
      (oneHost.hostAt server 1).isSome = true ∧
      broadcastResult (broadcastLoop oneHost (fun _ => 0) server []) [] = 0 := by
  refine ⟨_, rfl, ?_, ?_⟩
  · decide +kernel
  · decide +kernel

/-! ## The value of `port_send` -/

inductive WriteOutcome where
  | accepted (n : Nat)
  | error
  deriving DecidableEq, Repr

def WriteOutcome.ret : WriteOutcome → Int
  | .accepted n => n
  | .error => -1

def WriteOutcome.taken : WriteOutcome → Nat
  | .accepted n => n
  | .error => 0

/-- The value returned and the bytes that the kernel has taken for the port. -/
def portSendOutcome (s : Reactor) (ref : PortRef) (m : EventMsg)
    (o : WriteOutcome) : Int × Nat :=
  let out := portSend s (fun _ => o.ret) ref m.payload m.len
  (out.1, (out.2.map fun _ => o.taken).sum)

/-- A value that the dispatcher does not take for a failure stands for the
whole message. -/
def NoShortSuccess (s : Reactor) (ref : PortRef) (m : EventMsg)
    (o : WriteOutcome) : Prop :=
  0 ≤ (portSendOutcome s ref m o).1 →
    ((portSendOutcome s ref m o).2 : Int) = m.len

theorem portSendOutcome_eq {s : Reactor} {ref : PortRef} {p : PortDef}
    (hp : s.deref ref = some p) (htype : p.type.isServer = false)
    (m : EventMsg) (o : WriteOutcome) :
    portSendOutcome s ref m o =
      if p.fd < 0 then (-1, 0)
      else if p.type = .udp then (0, 0)
      else (o.ret, o.taken) := by
  simp only [portSendOutcome, portSend, hp]
  by_cases hfd : p.fd < 0
  · simp [hfd]
  · simp only [if_neg hfd]
    cases hcase : p.type with
    | tcpServer => simp [hcase, PortType.isServer] at htype
    | ipcServer => simp [hcase, PortType.isServer] at htype
    | _ => simp

/--
`port_send` passes the count of `write` on, and the value zero for a udp port,
which it never writes to.  So a message is reported as sent only if it was,
exactly when a write that does not fail takes all of it, and when a message
for a udp port is empty.
-/
theorem no_short_success_iff {s : Reactor} {m : EventMsg} {ref : PortRef}
    (hfind : portFind s m.dst.str = some ref) (o : WriteOutcome) :
    NoShortSuccess s ref m o ↔
      ∀ p, s.deref ref = some p → 0 ≤ p.fd →
        (p.type = .udp → m.len = 0) ∧
        (p.type ≠ .udp → ∀ n : Nat, o = .accepted n → (n : Int) = m.len) := by
  rcases portFind_some hfind with ⟨e, p, -, -, hp, -, htype⟩
  have hsend := portSendOutcome_eq hp htype m o
  unfold NoShortSuccess
  rw [hsend]
  constructor
  · intro hshort p' hp' hfd
    cases hp.symm.trans hp'
    rw [if_neg (Int.not_lt.2 hfd)] at hshort
    constructor
    · intro hudp
      rw [if_pos hudp] at hshort
      exact (hshort (Int.le_refl 0)).symm
    · rintro hudp n rfl
      rw [if_neg hudp] at hshort
      exact hshort (Int.natCast_nonneg n)
  · intro hwhole
    by_cases hfd : p.fd < 0
    · rw [if_pos hfd]
      intro hret
      contradiction
    · rcases hwhole p hp (Int.not_lt.1 hfd) with ⟨hudp, hplain⟩
      rw [if_neg hfd]
      by_cases htypeudp : p.type = .udp
      · rw [if_pos htypeudp]
        intro _
        exact (hudp htypeudp).symm
      · rw [if_neg htypeudp]
        intro hret
        cases o with
        | accepted n => exact hplain htypeudp n rfl
        | error => contradiction

def ttyPort : CJson :=
  .object [(.lit "name", .string (.lit "UART1")),
    (.lit "type", .string (.lit "tty")), (.lit "tty", .object [])]

def ttyText : String :=
  "\x7b\"name\":\"UART1\",\"type\":\"tty\",\"tty\":\x7b\x7d\x7d"

def uartStart : Reactor :=
  startup (parsesTo [ttyPort]) (some (configText [ttyText])) stdio nextCalls

def uartMsg : EventMsg where
  dst := .ofStr 32 (.lit "UART1")
  len := 2
  data := (Buffer.zero maxData).write 0 [65, 66]

theorem uartMsg_found : portFind uartStart uartMsg.dst.str =
    some (.config 0) := by
  decide +kernel

theorem short_write_reported_as_sent :
    portFind uartStart uartMsg.dst.str = some (.config 0) ∧
      portSendOutcome uartStart (.config 0) uartMsg (.accepted 1) = (1, 1) ∧
      ¬ NoShortSuccess uartStart (.config 0) uartMsg (.accepted 1) := by
  refine ⟨uartMsg_found, by decide +kernel, ?_⟩
  intro hshort
  have hone := hshort (by decide +kernel)
  revert hone
  decide +kernel

theorem no_short_success_iff_uart :
    NoShortSuccess uartStart (.config 0) uartMsg (.accepted 2) := by
  apply (no_short_success_iff uartMsg_found (.accepted 2)).2
  intro p hp _
  have htype : p.type = .tty := by
    have hall : (uartStart.deref (.config 0)).all
        (fun p => decide (p.type = .tty)) = true := by
      decide +kernel
    rw [hp] at hall
    simpa using hall
  constructor
  · intro hudp
    rw [htype] at hudp
    contradiction
  · rintro - n hn
    cases hn
    rfl

end EzRouter
