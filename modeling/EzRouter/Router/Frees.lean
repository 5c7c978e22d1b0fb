import EzRouter.Router.ReactorInvariants

/-!
# What the reactor frees

The reactor takes the type of a record for its origin: it frees the records of
client types.  A configured `tcp_client` is of such a type as well, and an
element of `g_config.ports` is passed to `free`.
-/

namespace EzRouter

open EzRouter.Foundation

def FreesOnlyAllocated (s : Reactor) : Prop :=
  s.freed.Nodup ∧ ∀ ref ∈ s.freed, ∃ n, ref = .heap n ∧ n < s.heap.length

/-- When a port of a client type hangs up, the first slot in use with its
descriptor does not hold a configured port. -/
def FreeGuard (s : Reactor) (event : ReactorEvent) : Prop :=
  ∀ ref p, event = .hangup ref → s.deref ref = some p →
    p.type.isClient = true →
      ∀ i, (s.table.findFd p.fd).bind (·.port) ≠ some (.config i)

section Step

variable {s t : Reactor}

theorem freesOnlyAllocated_iff (h : ReactorInv s) :
    FreesOnlyAllocated s ↔ ∀ i, .config i ∉ s.freed := by
  constructor
  · rintro ⟨-, hall⟩ i hi
    obtain ⟨n, hn, -⟩ := hall _ hi
    contradiction
  · intro hnone
    refine ⟨h.freed_nodup, ?_⟩
    intro ref href
    cases ref with
    | config i => exact absurd href (hnone i)
    | heap n =>
        refine ⟨n, rfl, ?_⟩
        have hvalid := h.freed_valid _ href
        simpa [Reactor.deref] using hvalid

theorem freesOnlyAllocated_step (h : ReactorInv s) {event : ReactorEvent}
    (hstep : ReactorStep s event t) :
    FreesOnlyAllocated t ↔ FreesOnlyAllocated s ∧ FreeGuard s event := by
  rw [freesOnlyAllocated_iff (h.step hstep), freesOnlyAllocated_iff h]
  obtain ⟨⟨-, p, hp, hkernel⟩, rfl⟩ := hstep
  have hquiet : (∀ ref, event ≠ .hangup ref) → FreeGuard s event :=
    fun hne ref _ hevent => absurd hevent (hne ref)
  cases event with
  | accepted ref clientFd =>
      change s.deref ref = some p at hp
      simp only [reactorHandle, hp, (frame_reactorAccept _ _ _).1]
      rw [and_iff_left (hquiet (by simp))]
  | acceptFailed ref => rw [and_iff_left (hquiet (by simp))]; rfl
  | received ref chunk => rw [and_iff_left (hquiet (by simp))]; rfl
  | hangup ref =>
      change s.deref ref = some p at hp
      have hfreed : (reactorHandle s (.hangup ref)).freed =
          s.freed ++ (s.toFree p.type p.fd).toList := by
        simp only [reactorHandle, hp]
        rfl
      simp only [hfreed, List.mem_append, Option.mem_toList, not_or,
        forall_and]
      refine and_congr_right fun _ => ?_
      constructor
      · rintro hnone ref' q hevent hq hclient i hfound
        obtain rfl := ReactorEvent.hangup.inj hevent
        obtain rfl := Option.some.inj (hp.symm.trans hq)
        apply hnone i
        simp only [Reactor.toFree, hclient, if_true]
        exact hfound
      · intro hguard i hfree
        unfold Reactor.toFree at hfree
        split_ifs at hfree with hclient
        exact hguard ref p rfl hp hclient i hfree

end Step

/--
In a run of the reactor from startup only records of its own are freed, each
at most once, exactly when no client-type port that hangs up has a configured
port in the slot found for its descriptor.
-/
theorem frees_only_allocated_iff (parse : CJsonParser)
    (file : Option (List UInt8)) (inherited : Int → Bool)
    (calls : Nat → OpenCalls)
    (hkernel : KernelOpens (.boot (loadConfig parse file).2.ports inherited)
      calls)
    {trace : List ReactorEvent} {s : Reactor}
    (hrun : Run ReactorStep (startup parse file inherited calls) trace s) :
    FreesOnlyAllocated s ↔
      Run (Guarded ReactorStep FreeGuard) (startup parse file inherited calls)
        trace s := by
  have hinv := ReactorInv.of_startup hkernel
  refine hrun.keeps_iff_guarded FreesOnlyAllocated ReactorInv hinv ?_
    (fun _ _ _ h hstep => h.step hstep)
    (fun _ _ _ h hstep => freesOnlyAllocated_step h hstep)
  rw [freesOnlyAllocated_iff hinv, startup_eq, addPorts,
    (frame_addPortsUpTo _).2.2.1,
    (opened_empty parse file inherited calls).2.2.2.1]
  simp

def tcpClientPort : CJson :=
  .object [(.lit "name", .string (.lit "NET0")),
    (.lit "type", .string (.lit "tcp_client")),
    (.lit "tcp_client", .object [(.lit "addr", .string (.lit "10.0.0.1")),
      (.lit "port", .number 5000)])]

def tcpClientText : String :=
  "\x7b\"name\":\"NET0\",\"type\":\"tcp_client\",\"tcp_client\":" ++
    "\x7b\"addr\":\"10.0.0.1\",\"port\":5000\x7d\x7d"

def tcpClientStart : Reactor :=
  startup (parsesTo [tcpClientPort]) (some (configText [tcpClientText])) stdio
    nextCalls

theorem frees_configured_port :
    ∃ trace s, Run ReactorStep tcpClientStart trace s ∧
      ¬ FreesOnlyAllocated s := by
  refine ⟨_, _, .next .refl
    ⟨(by decide : Enabled tcpClientStart (.hangup (.config 0))), rfl⟩, ?_⟩
  rintro ⟨-, hall⟩
  obtain ⟨n, hn, -⟩ := hall (.config 0) (by decide)
  contradiction

def mixedClients : Reactor :=
  startup (parsesTo [tcpServerPort "HOST", tcpClientPort])
    (some (configText [tcpServerText "HOST", tcpClientText])) stdio nextCalls

def oneClient : Reactor := reactorHandle mixedClients (.accepted (.config 0) 5)

def goneClient : Reactor := reactorHandle oneClient (.hangup (.heap 0))

def FreeStep : Reactor → ReactorEvent → Reactor → Prop :=
  Guarded ReactorStep FreeGuard

theorem freeStep_of_ne {s t : Reactor} {event : ReactorEvent}
    (hstep : ReactorStep s event t) (hne : ∀ ref, event ≠ .hangup ref) :
    FreeStep s event t :=
  ⟨hstep, fun ref _ hevent => absurd hevent (hne ref)⟩

theorem client_accepted :
    FreeStep mixedClients (.accepted (.config 0) 5) oneClient :=
  freeStep_of_ne ⟨by decide, rfl⟩ nofun

theorem client_received : FreeStep oneClient (.received (.config 1) [65])
    oneClient :=
  freeStep_of_ne ⟨by decide, rfl⟩ nofun

theorem client_hangup : FreeStep oneClient (.hangup (.heap 0)) goneClient := by
  refine ⟨⟨by decide, rfl⟩, ?_⟩
  rintro ref p ⟨⟩ hp - i
  have hfd : (oneClient.deref (.heap 0)).map (·.fd) = some 5 := by decide
  have hslot : (oneClient.table.findFd 5).bind (·.port) = some (.heap 0) := by
    decide
  rw [hp] at hfd
  obtain hfd : p.fd = 5 := Option.some.inj hfd
  rw [hfd, hslot]
  exact nofun

theorem frees_only_allocated_iff_accepted :
    goneClient.freed = [.heap 0] ∧ FreesOnlyAllocated goneClient := by
  have hrun : Run FreeStep mixedClients
      [.accepted (.config 0) 5, .received (.config 1) [65],
        .hangup (.heap 0)] goneClient :=
    .next (.next (.next .refl client_accepted) client_received) client_hangup
  refine ⟨by decide, ?_⟩
  exact (frees_only_allocated_iff _ _ _ _ (kernelOpens_nextCalls _)
    hrun.of_guarded).2 hrun

end EzRouter
