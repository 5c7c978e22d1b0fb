import EzRouter.Ipc.Session

/-!
# Stale heartbeats

`supervisor_check_heartbeats_at` of `supervisor.c`, run against the registry
that the sessions of the IPC clients fill.  The times it compares are traced
back to the frames: for each connection, the last REGISTER or HEARTBEAT that
was accepted on it.
-/

namespace EzRouter

open EzRouter.Foundation

variable {parse : CJsonParser} {r : Registry}

def collectCb (entries : List SubprocEntry) (e : SubprocEntry) :
    List SubprocEntry :=
  if entries.length < registryMaxSubprocs then entries ++ [e] else entries

def staleLoop (nowMs timeoutMs : UInt64) : List SubprocEntry → Nat → Nat
  | [], stale => stale
  | e :: entries, stale =>
      if nowMs ≤ e.lastHeartbeatMs then staleLoop nowMs timeoutMs entries stale
      else
        let age := nowMs - e.lastHeartbeatMs
        if age > timeoutMs then staleLoop nowMs timeoutMs entries (stale + 1)
        else staleLoop nowMs timeoutMs entries stale

def supervisorCheckHeartbeatsAt (r : Registry) (nowMs timeoutMs : UInt64) :
    Nat :=
  staleLoop nowMs timeoutMs ((registryIterate r).foldl collectCb []) 0

def Overdue (nowMs timeoutMs t : UInt64) : Prop :=
  (nowMs.toNat : Int) - t.toNat > timeoutMs.toNat

instance (nowMs timeoutMs t : UInt64) : Decidable (Overdue nowMs timeoutMs t) :=
  inferInstanceAs (Decidable ((nowMs.toNat : Int) - t.toNat > timeoutMs.toNat))

theorem overdue_iff (nowMs timeoutMs t : UInt64) :
    Overdue nowMs timeoutMs t ↔ ¬ nowMs ≤ t ∧ nowMs - t > timeoutMs := by
  unfold Overdue
  rw [UInt64.le_iff_toNat_le, gt_iff_lt, gt_iff_lt, UInt64.lt_iff_toNat_lt]
  constructor
  · intro h
    have hle : t ≤ nowMs := by
      rw [UInt64.le_iff_toNat_le]
      omega
    rw [UInt64.toNat_sub_of_le _ _ hle]
    omega
  · rintro ⟨hlt, hage⟩
    have hle : t ≤ nowMs := by
      rw [UInt64.le_iff_toNat_le]
      omega
    rw [UInt64.toNat_sub_of_le _ _ hle] at hage
    omega

theorem staleLoop_eq (nowMs timeoutMs : UInt64) (entries : List SubprocEntry)
    (stale : Nat) :
    staleLoop nowMs timeoutMs entries stale =
      stale + (entries.filter fun e =>
        decide (Overdue nowMs timeoutMs e.lastHeartbeatMs)).length := by
  induction entries generalizing stale with
  | nil => rfl
  | cons e entries ih =>
      have hiff := overdue_iff nowMs timeoutMs e.lastHeartbeatMs
      rw [staleLoop]
      by_cases hearly : nowMs ≤ e.lastHeartbeatMs
      · have hnot : ¬ Overdue nowMs timeoutMs e.lastHeartbeatMs :=
          fun h => (hiff.1 h).1 hearly
        rw [if_pos hearly, ih]
        simp [hnot]
      · by_cases hage : nowMs - e.lastHeartbeatMs > timeoutMs
        · have hoverdue := hiff.2 ⟨hearly, hage⟩
          rw [if_neg hearly, if_pos hage, ih]
          simp [hoverdue]
          omega
        · have hnot : ¬ Overdue nowMs timeoutMs e.lastHeartbeatMs :=
            fun h => hage (hiff.1 h).2
          rw [if_neg hearly, if_neg hage, ih]
          simp [hnot]

theorem collect_all (entries stored : List SubprocEntry)
    (h : stored.length + entries.length ≤ registryMaxSubprocs) :
    entries.foldl collectCb stored = stored ++ entries := by
  induction entries generalizing stored with
  | nil => simp
  | cons e entries ih =>
      rw [List.length_cons] at h
      have hroom : stored.length < registryMaxSubprocs := by omega
      rw [List.foldl_cons, collectCb, if_pos hroom,
        ih _ (by simp; omega)]
      simp

theorem length_registryIterate_le (r : Registry) :
    (registryIterate r).length ≤ registryMaxSubprocs := by
  rw [registryIterate, ← r.length_eq]
  split
  · exact Nat.zero_le _
  · exact List.length_filter_le _ _

theorem supervisorCheckHeartbeatsAt_eq (r : Registry)
    (nowMs timeoutMs : UInt64) :
    supervisorCheckHeartbeatsAt r nowMs timeoutMs =
      ((registryIterate r).filter fun e =>
        decide (Overdue nowMs timeoutMs e.lastHeartbeatMs)).length := by
  rw [supervisorCheckHeartbeatsAt, collect_all _ _ (by
    simpa using length_registryIterate_le r), staleLoop_eq]
  simp

inductive SessionEvent where
  | connect (fd : Int)
  | frame (fd : Int) (frame : ProtoFrame) (now : UInt64) (accepted : Bool)
  | disconnect (fd : Int)
  | check (nowMs timeoutMs : UInt64) (stale : Nat)

/-- The frame is a REGISTER or a HEARTBEAT, and the registry takes it. -/
def frameAccepted (parse : CJsonParser) (r : Registry) (fd : Int)
    (frame : ProtoFrame) (now : UInt64) : Bool :=
  if frame.hdr.cmd = protoRegister then
    decide ((registryRegister parse r fd frame.payload now).1 = 0)
  else if frame.hdr.cmd = protoHeartbeat then
    decide ((registryUpdateHeartbeat r fd now).1 = 0)
  else false

inductive SessionStep (parse : CJsonParser) :
    Registry → SessionEvent → Registry → Prop where
  | connect (r : Registry) (fd : Int) : SessionStep parse r (.connect fd) r
  | frame (r : Registry) (fd : Int) (frame : ProtoFrame) (now : UInt64)
      (script : List SendResult) :
      SessionStep parse r
        (.frame fd frame now (frameAccepted parse r fd frame now))
        (protoDispatch parse fd (.start r (fun _ => now) script)
          frame).2.registry
  | disconnect (r : Registry) (fd : Int) :
      SessionStep parse r (.disconnect fd) (registryUnregister r fd).2
  | check (r : Registry) (nowMs timeoutMs : UInt64) :
      SessionStep parse r
        (.check nowMs timeoutMs (supervisorCheckHeartbeatsAt r nowMs timeoutMs))
        r

/-- For each connection that is listed, the time of the last REGISTER or
HEARTBEAT accepted on it. -/
def SessionEvent.stamp (times : Int → Option UInt64) :
    SessionEvent → Int → Option UInt64
  | .frame fd _ now true => Function.update times fd (some now)
  | .disconnect fd => Function.update times fd none
  | _ => times

def lastAccepted (trace : List SessionEvent) : Int → Option UInt64 :=
  trace.foldl SessionEvent.stamp fun _ => none

@[simp] theorem lastAccepted_snoc (trace : List SessionEvent)
    (event : SessionEvent) :
    lastAccepted (trace ++ [event]) = event.stamp (lastAccepted trace) := by
  simp [lastAccepted]

/-! ## The stored times are the accepted ones -/

def heartbeatTimes (m : ClientMap) (fd : Int) : Option UInt64 :=
  (m.lookup fd).map (·.lastHeartbeatMs)

theorem heartbeatTimes_update (m m' : ClientMap) (fd : Int)
    (info : Option SubprocInfo)
    (h : m'.lookup = Function.update m.lookup fd info) :
    heartbeatTimes m' =
      Function.update (heartbeatTimes m) fd
        (info.map (·.lastHeartbeatMs)) := by
  funext fd'
  unfold heartbeatTimes
  rw [h]
  by_cases hfd : fd' = fd
  · subst hfd
    simp
  · rw [Function.update_of_ne hfd, Function.update_of_ne hfd]

def TimesInv (times : Int → Option UInt64) (r : Registry) : Prop :=
  ∃ m : ClientMap, Sim r m ∧ heartbeatTimes m = times

theorem TimesInv.register {times : Int → Option UInt64}
    (h : TimesInv times r) (fd : Int) (frame : ProtoFrame) (now : UInt64)
    (hcmd : frame.hdr.cmd = protoRegister) :
    TimesInv ((SessionEvent.frame fd frame now
        (frameAccepted parse r fd frame now)).stamp times)
      (registryRegister parse r fd frame.payload now).2 := by
  rcases h with ⟨m, hsim, rfl⟩
  rcases (hsim.register fd frame.payload now : ∃ m', ClientMapStep parse m
    (.register fd frame.payload now _) m' ∧ _) with ⟨m', hstep, hsim'⟩
  refine ⟨m', hsim', ?_⟩
  rw [frameAccepted, if_pos hcmd]
  generalize (registryRegister parse r fd frame.payload now).1 = status
    at hstep
  cases hstep with
  | registered _ _ _ d _ haccepts =>
      exact heartbeatTimes_update m
        (m.insert fd ⟨d, 0, now⟩ haccepts.2.1 haccepts.2.2) fd
        (some ⟨d, 0, now⟩) rfl
  | rejected => rfl

theorem TimesInv.heartbeat {times : Int → Option UInt64}
    (h : TimesInv times r) (fd : Int) (frame : ProtoFrame) (now : UInt64)
    (hreg : frame.hdr.cmd ≠ protoRegister)
    (hcmd : frame.hdr.cmd = protoHeartbeat) :
    TimesInv ((SessionEvent.frame fd frame now
        (frameAccepted parse r fd frame now)).stamp times)
      (registryUpdateHeartbeat r fd now).2 := by
  rcases h with ⟨m, hsim, rfl⟩
  rcases (hsim.updateHeartbeat fd now : ∃ m', ClientMapStep parse m
    (.updateHeartbeat fd now _) m' ∧ _) with ⟨m', hstep, hsim'⟩
  refine ⟨m', hsim', ?_⟩
  rw [frameAccepted, if_neg hreg, if_pos hcmd]
  generalize (registryUpdateHeartbeat r fd now).1 = status at hstep
  cases hstep with
  | heartbeat _ _ hkey =>
      rw [heartbeatTimes_update m _ fd _ rfl]
      rcases Option.isSome_iff_exists.1 ((m.mem_keys fd).1 hkey) with
        ⟨info, hinfo⟩
      rw [hinfo]
      rfl
  | heartbeatMissing => rfl

theorem TimesInv.disconnect {times : Int → Option UInt64}
    (h : TimesInv times r) (parse : CJsonParser) (fd : Int) :
    TimesInv ((SessionEvent.disconnect fd).stamp times)
      (registryUnregister r fd).2 := by
  rcases h with ⟨m, hsim, rfl⟩
  rcases (hsim.unregister fd : ∃ m', ClientMapStep parse m
    (.unregister fd _) m' ∧ _) with ⟨m', hstep, hsim'⟩
  refine ⟨m', hsim', ?_⟩
  generalize (registryUnregister r fd).1 = status at hstep
  cases hstep with
  | unregistered => exact heartbeatTimes_update m (m.erase fd) fd none rfl
  | unregisterMissing _ hkey =>
      have habsent : heartbeatTimes m fd = none := by
        rw [heartbeatTimes, (m.not_mem_keys fd).1 hkey]
        rfl
      rw [SessionEvent.stamp, ← habsent, Function.update_eq_self]

theorem TimesInv.step {times : Int → Option UInt64} {r' : Registry}
    {event : SessionEvent} (h : TimesInv times r)
    (hstep : SessionStep parse r event r') :
    TimesInv (event.stamp times) r' := by
  cases hstep with
  | connect fd => exact h
  | frame fd frame now script =>
      unfold protoDispatch
      by_cases hreg : frame.hdr.cmd = protoRegister
      · rw [if_pos hreg]
        exact h.register fd frame now hreg
      · rw [if_neg hreg]
        by_cases hbeat : frame.hdr.cmd = protoHeartbeat
        · rw [if_pos hbeat]
          exact h.heartbeat fd frame now hreg hbeat
        · rw [if_neg hbeat, frameAccepted, if_neg hreg, if_neg hbeat]
          exact h
  | disconnect fd => exact h.disconnect parse fd
  | check nowMs timeoutMs => exact h

theorem timesInv_of_run {trace : List SessionEvent}
    (hrun : Run (SessionStep parse) (registryInit .boot) trace r) :
    TimesInv (lastAccepted trace) r := by
  induction hrun with
  | refl => exact ⟨.empty, Sim.start, rfl⟩
  | next _ hstep ih =>
      rw [lastAccepted_snoc]
      exact ih.step hstep

def staleFds (r : Registry) (nowMs timeoutMs : UInt64) : Finset Int :=
  (((registryIterate r).filter fun e =>
    decide (Overdue nowMs timeoutMs e.lastHeartbeatMs)).map
      SubprocEntry.clientFd).toFinset

theorem Sim.card_staleFds {m : ClientMap} (h : Sim r m)
    (nowMs timeoutMs : UInt64) :
    supervisorCheckHeartbeatsAt r nowMs timeoutMs =
      (staleFds r nowMs timeoutMs).card := by
  have hnodup : ((registryIterate r).map SubprocEntry.clientFd).Nodup := by
    simpa [List.map_map, Function.comp_def, SubprocEntry.pair] using
      h.iterate.1
  rw [supervisorCheckHeartbeatsAt_eq, staleFds,
    List.toFinset_card_of_nodup, List.length_map]
  exact hnodup.sublist (List.filter_sublist.map _)

theorem Sim.mem_staleFds {m : ClientMap} (h : Sim r m)
    (nowMs timeoutMs : UInt64) (fd : Int) :
    fd ∈ staleFds r nowMs timeoutMs ↔
      ∃ t, heartbeatTimes m fd = some t ∧ Overdue nowMs timeoutMs t := by
  have hlisted := h.iterate.2 fd
  simp only [List.mem_map, SubprocEntry.pair, Prod.mk.injEq] at hlisted
  simp only [staleFds, List.mem_toFinset, List.mem_map, List.mem_filter,
    decide_eq_true_eq, heartbeatTimes, Option.map_eq_some_iff]
  constructor
  · rintro ⟨e, ⟨he, hoverdue⟩, hfd⟩
    exact ⟨_, ⟨_, (hlisted e.info).1 ⟨e, he, hfd, rfl⟩, rfl⟩, hoverdue⟩
  · rintro ⟨_, ⟨info, hlookup, rfl⟩, hoverdue⟩
    rcases (hlisted info).2 hlookup with ⟨e, he, hfd, rfl⟩
    exact ⟨e, ⟨he, hoverdue⟩, hfd⟩

/--
At any point of any run of sessions, the check counts exactly the connections
that are listed and whose last accepted REGISTER or HEARTBEAT is overdue, and
it leaves the registry alone.
-/
theorem stale_heartbeats_exact {trace : List SessionEvent}
    (hrun : Run (SessionStep parse) (registryInit .boot) trace r)
    (nowMs timeoutMs : UInt64) :
    ∃ stale : Finset Int,
      (∀ fd, fd ∈ stale ↔ (registryFindByFd r fd).isSome ∧
        ∃ t, lastAccepted trace fd = some t ∧ Overdue nowMs timeoutMs t) ∧
      supervisorCheckHeartbeatsAt r nowMs timeoutMs = stale.card ∧
      ∀ count r', SessionStep parse r (.check nowMs timeoutMs count) r' →
        count = stale.card ∧ r' = r := by
  rcases timesInv_of_run hrun with ⟨m, hsim, htimes⟩
  refine ⟨staleFds r nowMs timeoutMs, ?_, hsim.card_staleFds _ _, ?_⟩
  · intro fd
    rw [hsim.mem_staleFds, htimes, iff_and_self]
    rintro ⟨t, ht, -⟩
    have hfind := congrArg Option.isSome (hsim.findByFd fd)
    rw [Option.isSome_map, Option.isSome_map] at hfind
    rw [hfind]
    rw [← htimes, heartbeatTimes, Option.map_eq_some_iff] at ht
    rcases ht with ⟨info, hinfo, -⟩
    rw [hinfo]
    rfl
  · rintro count r' hstep
    cases hstep with
    | check => exact ⟨hsim.card_staleFds _ _, rfl⟩

def silentDevice : Registry :=
  (protoDispatch registerParser 7
    (.start (registryInit .boot) (fun _ => 5) [.room 64])
      (deviceFrame 1)).2.registry

/-- A device that registered at time 5 and has been silent for 1995 ms. -/
theorem stale_heartbeats_exact_silent :
    ∃ stale : Finset Int, 7 ∈ stale ∧
      supervisorCheckHeartbeatsAt silentDevice 2000 1000 = stale.card := by
  have hrun : Run (SessionStep registerParser) (registryInit .boot)
      [.frame 7 (deviceFrame 1) 5 _] silentDevice :=
    .next .refl (.frame (registryInit .boot) 7 (deviceFrame 1) 5 [.room 64])
  rcases stale_heartbeats_exact hrun 2000 1000 with ⟨stale, hmem, hcard, -⟩
  refine ⟨stale, (hmem 7).2 ⟨by decide, 5, ?_, by decide⟩, hcard⟩
  have haccepted : frameAccepted registerParser (registryInit .boot) 7
      (deviceFrame 1) 5 = true := by decide
  rw [haccepted]
  rfl

end EzRouter
