import EzRouter.Foundation.Bytes
import EzRouter.Foundation.Transition
import Mathlib.Data.Finset.Insert
import Mathlib.Data.Fintype.Basic
import Mathlib.Data.List.FinRange

/-!
# Spawning children

`supervisor_spawn` of `supervisor.c`, run by any number of threads at once.  A
thread looks for a slot under the lock, forks without it, and takes the lock
again to write the child into the table.  A child may exit at any moment; as
`SIGCHLD` is ignored, its pid is free again from then on, while its slot stays
in use.
-/

namespace EzRouter

open EzRouter.Foundation

abbrev supervisorMaxChildren : Nat := 32

structure SupChild where
  inUse : Bool
  pid : Int
  spawnMs : UInt64
  name : Buffer 64
  deriving DecidableEq, Repr

def SupChild.zero : SupChild := ⟨false, 0, 0, .zero 64⟩

/-- `g_children` and `g_inited`. -/
structure ChildTable where
  children : Fin supervisorMaxChildren → SupChild
  inited : Bool

namespace ChildTable

def boot : ChildTable := ⟨fun _ => .zero, false⟩

def freeSlot (t : ChildTable) : Option (Fin supervisorMaxChildren) :=
  (List.finRange supervisorMaxChildren).find? fun i => !(t.children i).inUse

def commitSlot (t : ChildTable) (slot : Fin supervisorMaxChildren) :
    Option (Fin supervisorMaxChildren) :=
  if (t.children slot).inUse then t.freeSlot else some slot

/-- `strncpy` fills the name up with zeros, and the last byte is set to one. -/
def record (t : ChildTable) (i : Fin supervisorMaxChildren) (name : CStr)
    (pid : Int) (nowMs : UInt64) : ChildTable :=
  { t with
    children :=
      Function.update t.children i ⟨true, pid, nowMs, .ofStr 64 name⟩ }

theorem children_record (t : ChildTable) (i : Fin supervisorMaxChildren)
    (name : CStr) (pid : Int) (nowMs : UInt64) :
    (t.record i name pid nowMs).children i =
      ⟨true, pid, nowMs, .ofStr 64 name⟩ :=
  Function.update_self _ _ _

theorem freeSlot_some {t : ChildTable} {i : Fin supervisorMaxChildren}
    (h : t.freeSlot = some i) : (t.children i).inUse = false := by
  simpa using List.find?_some h

theorem freeSlot_none {t : ChildTable} :
    t.freeSlot = none ↔ ∀ i, (t.children i).inUse = true := by
  simp [freeSlot]

theorem commitSlot_some {t : ChildTable} {slot i : Fin supervisorMaxChildren}
    (h : t.commitSlot slot = some i) : (t.children i).inUse = false := by
  unfold commitSlot at h
  cases hslot : (t.children slot).inUse with
  | true =>
      rw [hslot] at h
      exact freeSlot_some h
  | false =>
      rw [hslot] at h
      cases h
      exact hslot

theorem commitSlot_of_freeSlot {t : ChildTable}
    {slot : Fin supervisorMaxChildren} (h : t.freeSlot = some slot) :
    t.commitSlot slot = some slot := by
  simp [commitSlot, freeSlot_some h]

end ChildTable

def supervisorInit (t : ChildTable) : ChildTable :=
  if t.inited then t else ⟨fun _ => .zero, true⟩

theorem inited_supervisorInit (t : ChildTable) :
    (supervisorInit t).inited = true := by
  unfold supervisorInit
  cases hinited : t.inited with
  | true => exact hinited
  | false => rfl

theorem children_supervisorInit {t : ChildTable}
    (hzeroed : t.inited = false → ∀ i, t.children i = .zero) :
    (supervisorInit t).children = t.children := by
  unfold supervisorInit
  cases hinited : t.inited with
  | true => rfl
  | false =>
      funext i
      exact (hzeroed hinited i).symm

/-- The arguments of a call.  A null pointer is `none`; `argv` is given up to
its terminating null pointer. -/
structure SpawnCall where
  name : Option CStr
  argv : Option (List CStr)
  deriving DecidableEq, Repr

def SpawnCall.validName (call : SpawnCall) : Option CStr :=
  match call.argv with
  | some (_ :: _) => call.name
  | _ => none

inductive SpawnPhase where
  | outside
  | uninited (call : SpawnCall)
  | checking (call : SpawnCall)
  | forking (name : CStr) (slot : Fin supervisorMaxChildren)
  | committing (name : CStr) (slot : Fin supervisorMaxChildren) (pid : Int)
  deriving DecidableEq, Repr

/-- `running`: the children that have neither exited nor been killed. -/
structure SpawnSystem (Tid : Type) where
  table : ChildTable
  threads : Tid → SpawnPhase
  running : Finset Int

inductive SpawnEvent (Tid : Type) where
  | entered (t : Tid) (call : SpawnCall)
  | inited (t : Tid)
  | failed (t : Tid)
  | chose (t : Tid) (slot : Fin supervisorMaxChildren)
  | forked (t : Tid) (pid : Int)
  | recorded (t : Tid) (name : CStr) (pid : Int)
  | killed (t : Tid) (pid : Int)
  | exited (pid : Int)
  deriving DecidableEq, Repr

variable {Tid : Type}

def SpawnEvent.tid : SpawnEvent Tid → Option Tid
  | .entered t _ => some t
  | .inited t => some t
  | .failed t => some t
  | .chose t _ => some t
  | .forked t _ => some t
  | .recorded t _ _ => some t
  | .killed t _ => some t
  | .exited _ => none

def SpawnEvent.returns : SpawnEvent Tid → Option Int
  | .failed _ => some (-1)
  | .recorded _ _ pid => some pid
  | .killed _ _ => some (-1)
  | _ => none

def SpawnSystem.boot : SpawnSystem Tid := ⟨.boot, fun _ => .outside, ∅⟩

section Steps

variable [DecidableEq Tid]

def SpawnSystem.move (s : SpawnSystem Tid) (t : Tid) (phase : SpawnPhase) :
    SpawnSystem Tid :=
  { s with threads := Function.update s.threads t phase }

@[simp] theorem move_self (s : SpawnSystem Tid) (t : Tid)
    (phase : SpawnPhase) : (s.move t phase).threads t = phase :=
  Function.update_self _ _ _

/-- One step of one thread, or the exit of a child.  `fork` hands out the pid
of no running child, and `SIGKILL` goes to whatever child has the pid. -/
inductive SpawnStep :
    SpawnSystem Tid → SpawnEvent Tid → SpawnSystem Tid → Prop where
  -- `g_inited` is read without the lock.
  | enter {s : SpawnSystem Tid} {t : Tid} (call : SpawnCall)
      (h : s.threads t = .outside) :
      SpawnStep s (.entered t call)
        (s.move t (if s.table.inited then .checking call else .uninited call))
  | init {s : SpawnSystem Tid} {t : Tid} {call : SpawnCall}
      (h : s.threads t = .uninited call) :
      SpawnStep s (.inited t)
        ({ s with table := supervisorInit s.table }.move t (.checking call))
  | invalid {s : SpawnSystem Tid} {t : Tid} {call : SpawnCall}
      (h : s.threads t = .checking call) (hargs : call.validName = none) :
      SpawnStep s (.failed t) (s.move t .outside)
  | full {s : SpawnSystem Tid} {t : Tid} {call : SpawnCall} {name : CStr}
      (h : s.threads t = .checking call) (hargs : call.validName = some name)
      (hfull : s.table.freeSlot = none) :
      SpawnStep s (.failed t) (s.move t .outside)
  | choose {s : SpawnSystem Tid} {t : Tid} {call : SpawnCall} {name : CStr}
      {slot : Fin supervisorMaxChildren}
      (h : s.threads t = .checking call) (hargs : call.validName = some name)
      (hfree : s.table.freeSlot = some slot) :
      SpawnStep s (.chose t slot) (s.move t (.forking name slot))
  | forkFails {s : SpawnSystem Tid} {t : Tid} {name : CStr}
      {slot : Fin supervisorMaxChildren}
      (h : s.threads t = .forking name slot) :
      SpawnStep s (.failed t) (s.move t .outside)
  | fork {s : SpawnSystem Tid} {t : Tid} {name : CStr}
      {slot : Fin supervisorMaxChildren} (h : s.threads t = .forking name slot)
      (pid : Int) (hpos : 0 < pid) (hfresh : pid ∉ s.running) :
      SpawnStep s (.forked t pid)
        ({ s with running := insert pid s.running }.move t
          (.committing name slot pid))
  | record {s : SpawnSystem Tid} {t : Tid} {name : CStr} {pid : Int}
      {slot i : Fin supervisorMaxChildren}
      (h : s.threads t = .committing name slot pid)
      (hslot : s.table.commitSlot slot = some i) (nowMs : UInt64) :
      SpawnStep s (.recorded t name pid)
        ({ s with table := s.table.record i name pid nowMs }.move t .outside)
  | kill {s : SpawnSystem Tid} {t : Tid} {name : CStr} {pid : Int}
      {slot : Fin supervisorMaxChildren}
      (h : s.threads t = .committing name slot pid)
      (hfull : s.table.commitSlot slot = none) :
      SpawnStep s (.killed t pid)
        ({ s with running := s.running.erase pid }.move t .outside)
  | exit {s : SpawnSystem Tid} {pid : Int} (h : pid ∈ s.running) :
      SpawnStep s (.exited pid) { s with running := s.running.erase pid }

end Steps

/-! ## Who has which pid -/

def SpawnPhase.pid : SpawnPhase → Option Int
  | .committing _ _ pid => some pid
  | _ => none

def SpawnPhase.ready : SpawnPhase → Bool
  | .outside => false
  | .uninited _ => false
  | _ => true

/-- A pid is in a slot in use, or with a thread that has still to commit it. -/
def SpawnSystem.Holds (s : SpawnSystem Tid) :
    Fin supervisorMaxChildren ⊕ Tid → Int → Prop
  | .inl i, pid => (s.table.children i).inUse = true ∧
      (s.table.children i).pid = pid
  | .inr t, pid => (s.threads t).pid = some pid

structure SpawnInv (s : SpawnSystem Tid) : Prop where
  zeroed : s.table.inited = false → ∀ i, s.table.children i = .zero
  ready : ∀ t, (s.threads t).ready = true → s.table.inited = true
  positive : ∀ holder pid, s.Holds holder pid → 0 < pid

section Holders

variable [DecidableEq Tid] {s s' : SpawnSystem Tid} {event : SpawnEvent Tid}
  {holder : Fin supervisorMaxChildren ⊕ Tid} {pid : Int}

theorem holds_move {t : Tid} {phase : SpawnPhase}
    (h : (s.move t phase).Holds holder pid) :
    s.Holds holder pid ∨ holder = .inr t ∧ phase.pid = some pid := by
  cases holder with
  | inl i => exact .inl h
  | inr u =>
      change (Function.update s.threads t phase u).pid = some pid at h
      by_cases hu : u = t
      · subst hu
        rw [Function.update_self] at h
        exact .inr ⟨rfl, h⟩
      · rw [Function.update_of_ne hu] at h
        exact .inl h

theorem holds_move_quiet {t : Tid} {phase : SpawnPhase}
    (hnone : phase.pid = none) (h : (s.move t phase).Holds holder pid) :
    s.Holds holder pid := by
  rcases holds_move h with hold | ⟨-, hphase⟩
  · exact hold
  · rw [hnone] at hphase
    contradiction

omit [DecidableEq Tid] in
theorem holds_record {i : Fin supervisorMaxChildren} {name : CStr}
    {pid' : Int} {nowMs : UInt64}
    (h : SpawnSystem.Holds
      { s with table := s.table.record i name pid' nowMs } holder pid) :
    s.Holds holder pid ∨ holder = .inl i ∧ pid = pid' := by
  cases holder with
  | inr t => exact .inl h
  | inl j =>
      by_cases hj : j = i
      · subst hj
        right
        obtain ⟨-, hpid⟩ := h
        rw [ChildTable.children_record] at hpid
        exact ⟨rfl, hpid.symm⟩
      · left
        simpa only [SpawnSystem.Holds, ChildTable.record,
          Function.update_of_ne hj] using h

/-- The event writes a pid that its thread has forked into the slot `i`. -/
def Lands (s : SpawnSystem Tid) (event : SpawnEvent Tid)
    (i : Fin supervisorMaxChildren) (pid : Int) : Prop :=
  ∃ t name slot, event = .recorded t name pid ∧
    s.threads t = .committing name slot pid ∧
    s.table.commitSlot slot = some i

omit [DecidableEq Tid] in
theorem Lands.inj {i j : Fin supervisorMaxChildren} {pid' : Int}
    (h : Lands s event i pid) (h' : Lands s event j pid') : i = j := by
  obtain ⟨t, name, slot, rfl, hphase, hslot⟩ := h
  obtain ⟨t', name', slot', hevent, hphase', hslot'⟩ := h'
  cases hevent
  rw [hphase] at hphase'
  cases hphase'
  exact Option.some.inj (hslot.symm.trans hslot')

omit [DecidableEq Tid] in
theorem Lands.flying {i : Fin supervisorMaxChildren}
    (h : Lands s event i pid) : ∃ t, s.Holds (.inr t) pid := by
  obtain ⟨t, name, slot, -, hphase, -⟩ := h
  exact ⟨t, by simp [SpawnSystem.Holds, hphase, SpawnPhase.pid]⟩

theorem SpawnStep.holds (h : SpawnStep s event s') (inv : SpawnInv s)
    (hold : s'.Holds holder pid) :
    s.Holds holder pid ∨
      (∃ t, event = .forked t pid ∧ 0 < pid ∧ holder = .inr t) ∨
      ∃ i, holder = .inl i ∧ Lands s event i pid := by
  cases h with
  | enter call hphase =>
      left
      refine holds_move_quiet ?_ hold
      split <;> rfl
  | init hphase =>
      left
      have hsame := holds_move_quiet rfl hold
      cases holder with
      | inl i =>
          simp only [SpawnSystem.Holds,
            children_supervisorInit inv.zeroed] at hsame
          exact hsame
      | inr t => exact hsame
  | fork hphase pid' hpos hfresh =>
      rcases holds_move hold with hsame | ⟨hholder, hpid⟩
      · exact .inl hsame
      · obtain rfl := Option.some.inj hpid
        exact .inr (.inl ⟨_, rfl, hpos, hholder⟩)
  | @record t name pid' slot i hphase hslot nowMs =>
      rcases holds_record (holds_move_quiet rfl hold) with
        hsame | ⟨hholder, rfl⟩
      · exact .inl hsame
      · exact .inr (.inr ⟨i, hholder, t, name, slot, rfl, hphase, hslot⟩)
  | exit hpid => exact .inl hold
  | _ => exact .inl (holds_move_quiet rfl hold)

omit [DecidableEq Tid] in
theorem not_holds_boot : ¬ (.boot : SpawnSystem Tid).Holds holder pid := by
  cases holder with
  | inl i => exact fun h => Bool.false_ne_true h.1
  | inr t => exact nofun

omit [DecidableEq Tid] in
theorem SpawnInv.boot : SpawnInv (.boot : SpawnSystem Tid) where
  zeroed _ _ := rfl
  ready _ h := by contradiction
  positive _ _ h := absurd h not_holds_boot

theorem ready_move {t u : Tid} {phase : SpawnPhase}
    (h : ((s.move t phase).threads u).ready = true) :
    phase.ready = true ∨ (s.threads u).ready = true := by
  change (Function.update s.threads t phase u).ready = true at h
  by_cases hu : u = t
  · subst hu
    rw [Function.update_self] at h
    exact .inl h
  · rw [Function.update_of_ne hu] at h
    exact .inr h

theorem SpawnStep.inited (h : SpawnStep s event s')
    (hinited : s.table.inited = true) : s'.table.inited = true := by
  cases h with
  | init hphase => exact inited_supervisorInit _
  | _ => exact hinited

theorem SpawnStep.ready (h : SpawnStep s event s') (inv : SpawnInv s) (u : Tid)
    (hready : (s'.threads u).ready = true) : s'.table.inited = true := by
  have hold : (s.threads u).ready = true → s'.table.inited = true :=
    fun hu => h.inited (inv.ready u hu)
  cases h with
  | enter call hphase =>
      rcases ready_move hready with hnew | hu
      · cases hinited : s.table.inited with
        | true => exact hinited
        | false =>
            rw [hinited] at hnew
            contradiction
      · exact hold hu
  | init hphase => exact inited_supervisorInit _
  | choose hphase hargs hfree =>
      exact inv.ready _ (by rw [hphase]; rfl)
  | fork hphase pid' hpos hfresh =>
      exact inv.ready _ (by rw [hphase]; rfl)
  | exit hpid => exact inv.ready u hready
  | _ =>
      rcases ready_move hready with hnew | hu
      · contradiction
      · exact hold hu

theorem SpawnInv.step (inv : SpawnInv s) (h : SpawnStep s event s') :
    SpawnInv s' := by
  constructor
  case zeroed =>
    intro hnot
    cases h with
    | init hphase =>
        have hinited := inited_supervisorInit s.table
        change (supervisorInit s.table).inited = false at hnot
        rw [hinited] at hnot
        contradiction
    | @record t name pid' slot i hphase hslot nowMs =>
        have hinited := inv.ready t (by rw [hphase]; rfl)
        change s.table.inited = false at hnot
        rw [hinited] at hnot
        contradiction
    | _ => exact inv.zeroed hnot
  case ready => exact h.ready inv
  case positive =>
    intro holder pid hold
    rcases h.holds inv hold with hsame | ⟨t, -, hpos, -⟩ | ⟨i, -, hlands⟩
    · exact inv.positive _ _ hsame
    · exact hpos
    · obtain ⟨t, hflying⟩ := hlands.flying
      exact inv.positive _ _ hflying

theorem SpawnInv.of_run {trace : List (SpawnEvent Tid)}
    (run : Run SpawnStep .boot trace s) : SpawnInv s :=
  run.invariant SpawnInv.boot fun _ _ _ inv hstep => inv.step hstep

end Holders

section Table

variable [DecidableEq Tid] {s s' : SpawnSystem Tid} {event : SpawnEvent Tid}
  {trace : List (SpawnEvent Tid)} {t : Tid} {name : CStr} {pid : Int}

theorem SpawnStep.recorded_table (h : SpawnStep s (.recorded t name pid) s') :
    s'.threads t = .outside ∧ ∃ i nowMs, (s.table.children i).inUse = false ∧
      s'.table = s.table.record i name pid nowMs := by
  cases h with
  | record hphase hslot nowMs =>
      exact ⟨move_self _ _ _, _, nowMs, ChildTable.commitSlot_some hslot, rfl⟩

theorem SpawnStep.children (h : SpawnStep s event s') (inv : SpawnInv s) :
    s'.table.children = s.table.children ∨
      ∃ i name pid nowMs, (s.table.children i).inUse = false ∧
        s'.table = s.table.record i name pid nowMs := by
  cases h with
  | init hphase => exact .inl (children_supervisorInit inv.zeroed)
  | record hphase hslot nowMs =>
      exact .inr ⟨_, _, _, nowMs, ChildTable.commitSlot_some hslot, rfl⟩
  | _ => exact .inl rfl

theorem SpawnStep.unchanged (h : SpawnStep s event s') (inv : SpawnInv s)
    (hfails : ∀ pid, event.returns = some pid → pid = -1) :
    s'.table.children = s.table.children := by
  cases h with
  | init hphase => exact children_supervisorInit inv.zeroed
  | @record t name pid slot i hphase hslot nowMs =>
      have hpos := inv.positive (.inr t) pid (by
        simp [SpawnSystem.Holds, hphase, SpawnPhase.pid])
      have hneg := hfails pid rfl
      omega
  | _ => rfl

theorem SpawnStep.other (h : SpawnStep s event s')
    (hother : event.tid ≠ some t) : s'.threads t = s.threads t := by
  have hne : ∀ u, event.tid = some u → t ≠ u := by
    rintro u hu rfl
    exact hother hu
  cases h with
  | exit hpid => rfl
  | _ => exact Function.update_of_ne (hne _ rfl) _ _

theorem SpawnStep.settles (h : SpawnStep s event s')
    (htid : event.tid = some t) (hflight : (s.threads t).pid = some pid) :
    (∃ name, event = .recorded t name pid) ∨ event = .killed t pid := by
  cases h with
  | exit hpid => contradiction
  | record hphase hslot nowMs =>
      obtain rfl := Option.some.inj htid
      rw [hphase] at hflight
      obtain rfl := Option.some.inj hflight
      exact .inl ⟨_, rfl⟩
  | kill hphase hfull =>
      obtain rfl := Option.some.inj htid
      rw [hphase] at hflight
      obtain rfl := Option.some.inj hflight
      exact .inr rfl
  | _ =>
      obtain rfl := Option.some.inj htid
      simp_all [SpawnPhase.pid]

end Table

/-! ## One slot for each pid -/

section Distinct

variable [DecidableEq Tid] {s s' : SpawnSystem Tid} {event : SpawnEvent Tid}
  {trace : List (SpawnEvent Tid)}

/-- What `fork` returns is neither in a slot in use nor with another thread. -/
def FreshFork (s : SpawnSystem Tid) (event : SpawnEvent Tid) : Prop :=
  ∀ t pid, event = .forked t pid → ∀ holder, ¬ s.Holds holder pid

def SoleHolders (s : SpawnSystem Tid) : Prop :=
  ∀ a b pid, s.Holds a pid → s.Holds b pid → a = b

theorem SoleHolders.step (h : SoleHolders s) (inv : SpawnInv s)
    (hstep : SpawnStep s event s') (hfresh : FreshFork s event) :
    SoleHolders s' := by
  -- A pid that has been committed is not with its thread any more.
  have hlanded : ∀ i pid b, Lands s event i pid → s.Holds b pid →
      ¬ s'.Holds b pid := by
    rintro i pid b ⟨t, name, slot, rfl, hphase, -⟩ hb hb'
    obtain rfl := h (.inr t) b pid (by
      simp [SpawnSystem.Holds, hphase, SpawnPhase.pid]) hb
    simp [SpawnSystem.Holds, hstep.recorded_table.1, SpawnPhase.pid] at hb'
  intro a b pid ha hb
  rcases hstep.holds inv ha with ha' | ⟨t, hevent, -, hat⟩ | ⟨i, hai, hi⟩
  · rcases hstep.holds inv hb with hb' | ⟨t, hevent, -, -⟩ | ⟨j, -, hj⟩
    · exact h a b pid ha' hb'
    · exact absurd ha' (hfresh t pid hevent a)
    · exact absurd ha (hlanded j pid a hj ha')
  · rcases hstep.holds inv hb with hb' | ⟨t', hevent', -, hbt⟩ |
      ⟨j, -, t', name, slot, hevent', -⟩
    · exact absurd hb' (hfresh t pid hevent b)
    · rw [hevent] at hevent'
      cases hevent'
      exact hat.trans hbt.symm
    · rw [hevent] at hevent'
      contradiction
  · rcases hstep.holds inv hb with hb' | ⟨t, hevent, -⟩ | ⟨j, hbj, hj⟩
    · exact absurd hb (hlanded i pid b hi hb')
    · obtain ⟨t', name, slot, hevent', -⟩ := hi
      rw [hevent] at hevent'
      contradiction
    · obtain rfl := hi.inj hj
      exact hai.trans hbj.symm

theorem SoleHolders.of_run
    (run : Run (Guarded SpawnStep FreshFork) .boot trace s) :
    SoleHolders s := by
  have hboth : SpawnInv s ∧ SoleHolders s := by
    apply run.invariant
    · exact ⟨.boot, fun _ _ _ ha => absurd ha not_holds_boot⟩
    · rintro s event s' ⟨inv, hsole⟩ ⟨hstep, hfresh⟩
      exact ⟨inv.step hstep, hsole.step inv hstep hfresh⟩
  exact hboth.2

end Distinct

/-! ## What becomes of a child -/

section Runs

variable [DecidableEq Tid] {s s' : SpawnSystem Tid} {event : SpawnEvent Tid}
  {trace : List (SpawnEvent Tid)}

def Settled (s : SpawnSystem Tid) (t : Tid) (pid : Int)
    (after : List (SpawnEvent Tid)) : Prop :=
  (s.threads t).pid = some pid ∨ (∃ name, .recorded t name pid ∈ after) ∨
    .killed t pid ∈ after

theorem Settled.step {t : Tid} {pid : Int} {after : List (SpawnEvent Tid)}
    (h : Settled s t pid after) (hstep : SpawnStep s event s') :
    Settled s' t pid (after ++ [event]) := by
  rcases h with hflight | ⟨name, hrecorded⟩ | hkilled
  · by_cases htid : event.tid = some t
    · rcases hstep.settles htid hflight with ⟨name, hevent⟩ | hevent
      · exact .inr (.inl ⟨name, by simp [← hevent]⟩)
      · exact .inr (.inr (by simp [← hevent]))
    · left
      rw [hstep.other htid]
      exact hflight
  · exact .inr (.inl ⟨name, List.mem_append_left _ hrecorded⟩)
  · exact .inr (.inr (List.mem_append_left _ hkilled))

def SpawnEvent.call (calls : Tid → Option SpawnCall) :
    SpawnEvent Tid → Tid → Option SpawnCall
  | .entered t call => Function.update calls t (some call)
  | _ => calls

def SpawnPhase.Serves (call : Option SpawnCall) : SpawnPhase → Prop
  | .outside => True
  | .uninited call' => call = some call'
  | .checking call' => call = some call'
  | .forking name _ => call.bind SpawnCall.validName = some name
  | .committing name _ _ => call.bind SpawnCall.validName = some name

end Runs

def sleepCall (name : String) : SpawnCall :=
  ⟨some (.lit name), some [.lit "/bin/sleep", .lit "1"]⟩

end EzRouter
