import EzRouter.Process.Spawn
import Mathlib.Data.Finset.Card

/-!
# The children that still run

Calls to `supervisor_spawn` one after the other, and children that exit in
between.  `SIGCHLD` is ignored: the kernel reaps a child that exits, and its
slot stays in use.
-/

namespace EzRouter

open EzRouter.Foundation

/-- A call that no other thread disturbs.  `fork` is what `fork` returns in
the parent, or nothing when it fails. -/
def supervisorSpawn (t : ChildTable) (call : SpawnCall) (fork : Option Int)
    (nowMs : UInt64) : Int × ChildTable :=
  let t := if t.inited then t else supervisorInit t
  match call.validName with
  | none => (-1, t)
  | some name =>
      match t.freeSlot with
      | none => (-1, t)
      | some slot =>
          match fork with
          | none => (-1, t)
          | some pid =>
              match t.commitSlot slot with
              | none => (-1, t)
              | some i => (pid, t.record i name pid nowMs)

def ChildTable.inUseCount (t : ChildTable) : Nat :=
  (List.finRange supervisorMaxChildren).countP fun i => (t.children i).inUse

def supervisorChildCount (t : ChildTable) : Nat :=
  if !t.inited then 0 else t.inUseCount

structure ChildSystem where
  table : ChildTable
  running : Finset Int

def ChildSystem.boot : ChildSystem := ⟨.boot, ∅⟩

inductive ChildEvent where
  | spawned (call : SpawnCall) (pid : Int) (ret : Int)
  | exited (pid : Int)
  deriving DecidableEq, Repr

def ChildSystem.spawn (s : ChildSystem) (pid : Int)
    (result : Int × ChildTable) : ChildSystem where
  table := result.2
  running := if result.1 = pid then insert pid s.running else s.running

inductive ChildStep : ChildSystem → ChildEvent → ChildSystem → Prop where
  | spawn {s : ChildSystem} (call : SpawnCall) (pid : Int) (nowMs : UInt64)
      (hpos : 0 < pid) (hfresh : pid ∉ s.running) :
      ChildStep s
        (.spawned call pid (supervisorSpawn s.table call (some pid) nowMs).1)
        (s.spawn pid (supervisorSpawn s.table call (some pid) nowMs))
  | exit {s : ChildSystem} {pid : Int} (h : pid ∈ s.running) :
      ChildStep s (.exited pid) { s with running := s.running.erase pid }

def ChildEvent.exits : ChildEvent → Bool
  | .exited _ => true
  | .spawned .. => false

/-- The table tells the children that run, and has room for another as long as
fewer than 32 do. -/
def FollowsRunning (s : ChildSystem) : Prop :=
  supervisorChildCount s.table = s.running.card ∧
    (s.running.card < supervisorMaxChildren →
      ∀ call pid nowMs, call.validName.isSome →
        (supervisorSpawn s.table call (some pid) nowMs).1 = pid)

theorem ready_eq (t : ChildTable) :
    (if t.inited then t else supervisorInit t) = supervisorInit t := by
  unfold supervisorInit
  cases t.inited <;> rfl

theorem supervisorSpawn_cases (t : ChildTable) {call : SpawnCall} {name : CStr}
    (hname : call.validName = some name) (pid : Int) (nowMs : UInt64) :
    (supervisorSpawn t call (some pid) nowMs = (-1, supervisorInit t) ∧
      ∀ i, ((supervisorInit t).children i).inUse = true) ∨
    ∃ i, ((supervisorInit t).children i).inUse = false ∧
      supervisorSpawn t call (some pid) nowMs =
        (pid, (supervisorInit t).record i name pid nowMs) := by
  unfold supervisorSpawn
  simp only [ready_eq, hname]
  cases hslot : (supervisorInit t).freeSlot with
  | none => exact .inl ⟨rfl, ChildTable.freeSlot_none.1 hslot⟩
  | some slot =>
      simp only [ChildTable.commitSlot_of_freeSlot hslot]
      exact .inr ⟨slot, ChildTable.freeSlot_some hslot, rfl⟩

theorem supervisorSpawn_invalid (t : ChildTable) {call : SpawnCall}
    (hname : call.validName = none) (pid : Int) (nowMs : UInt64) :
    supervisorSpawn t call (some pid) nowMs = (-1, supervisorInit t) := by
  unfold supervisorSpawn
  simp only [ready_eq, hname]

theorem supervisorSpawn_effect (t : ChildTable) (call : SpawnCall) (pid : Int)
    (nowMs : UInt64) :
    supervisorSpawn t call (some pid) nowMs = (-1, supervisorInit t) ∨
      ∃ i name, ((supervisorInit t).children i).inUse = false ∧
        supervisorSpawn t call (some pid) nowMs =
          (pid, (supervisorInit t).record i name pid nowMs) := by
  cases hname : call.validName with
  | none => exact .inl (supervisorSpawn_invalid t hname pid nowMs)
  | some name =>
      rcases supervisorSpawn_cases t hname pid nowMs with
        ⟨hfail, -⟩ | ⟨i, hfree, hok⟩
      · exact .inl hfail
      · exact .inr ⟨i, name, hfree, hok⟩

theorem supervisorSpawn_run {Tid : Type} [DecidableEq Tid]
    {s : SpawnSystem Tid} {t : Tid} (houtside : s.threads t = .outside)
    (call : SpawnCall) {pid : Int} (hpos : 0 < pid) (hfresh : pid ∉ s.running)
    (nowMs : UInt64) :
    ∃ trace s', Run SpawnStep s trace s' ∧ s'.threads t = .outside ∧
      s'.table = (supervisorSpawn s.table call (some pid) nowMs).2 := by
  have hready : ∃ trace s₁, Run SpawnStep s trace s₁ ∧
      s₁.threads t = .checking call ∧ s₁.table = supervisorInit s.table ∧
      s₁.running = s.running := by
    have henter := SpawnStep.enter call houtside
    cases hinited : s.table.inited with
    | true =>
        rw [hinited] at henter
        refine ⟨_, _, .next .refl henter, move_self _ _ _, ?_, rfl⟩
        simp [SpawnSystem.move, supervisorInit, hinited]
    | false =>
        rw [hinited] at henter
        exact ⟨_, _, .next (.next .refl henter) (.init (move_self _ _ _)),
          move_self _ _ _, rfl, rfl⟩
  rcases hready with ⟨trace, s₁, run, hphase, htable, hrunning⟩
  rw [← hrunning] at hfresh
  unfold supervisorSpawn
  rw [ready_eq, ← htable]
  cases hname : call.validName with
  | none =>
      exact ⟨_, _, run.next (.invalid hphase hname), move_self _ _ _, rfl⟩
  | some name =>
      cases hslot : s₁.table.freeSlot with
      | none =>
          exact ⟨_, _, run.next (.full hphase hname hslot), move_self _ _ _,
            by simp [hslot, SpawnSystem.move]⟩
      | some slot =>
          have hcommit := ChildTable.commitSlot_of_freeSlot hslot
          have hchosen := run.next (.choose hphase hname hslot)
          have hforked : ∃ trace s₂, Run SpawnStep s trace s₂ ∧
              s₂.threads t = .committing name slot pid ∧
              s₂.table = s₁.table :=
            ⟨_, _, hchosen.next (.fork (move_self _ _ _) pid hpos hfresh),
              move_self _ _ _, rfl⟩
          rcases hforked with ⟨trace₂, s₂, run₂, hphase₂, htable₂⟩
          rw [← htable₂] at hslot hcommit ⊢
          simp only [hslot, hcommit]
          exact ⟨_, _, run₂.next (.record hphase₂ hcommit nowMs),
            move_self _ _ _, rfl⟩

theorem countP_claim {α : Type} {p q : α → Bool} {xs : List α}
    (hnodup : xs.Nodup) {x : α} (hx : x ∈ xs) (hp : p x = false)
    (hq : q x = true) (hsame : ∀ y, y ≠ x → q y = p y) :
    xs.countP q = xs.countP p + 1 := by
  rcases List.append_of_mem hx with ⟨before, after, rfl⟩
  have hx' : x ∉ before ++ after :=
    (List.nodup_cons.1 (List.nodup_middle.1 hnodup)).1
  have hrest : (before ++ after).countP q = (before ++ after).countP p := by
    apply List.countP_congr
    intro y hy
    rw [hsame y]
    rintro rfl
    exact hx' hy
  rw [List.countP_append, List.countP_append] at hrest
  rw [List.countP_append, List.countP_append, List.countP_cons_of_pos hq,
    List.countP_cons_of_neg (by simp [hp])]
  omega

theorem inUseCount_record {t : ChildTable} {i : Fin supervisorMaxChildren}
    (hfree : (t.children i).inUse = false) (name : CStr) (pid : Int)
    (nowMs : UInt64) :
    (t.record i name pid nowMs).inUseCount = t.inUseCount + 1 := by
  apply countP_claim (List.nodup_finRange _) (List.mem_finRange i) hfree
  · rw [ChildTable.children_record]
  · intro j hj
    change (Function.update t.children i _ j).inUse = _
    rw [Function.update_of_ne hj]

theorem inUseCount_full {t : ChildTable} :
    t.inUseCount = supervisorMaxChildren ↔
      ∀ i, (t.children i).inUse = true := by
  have hall := List.countP_eq_length
    (p := fun i => (t.children i).inUse)
    (l := List.finRange supervisorMaxChildren)
  rw [List.length_finRange] at hall
  unfold ChildTable.inUseCount
  simpa using hall

/-! ## Every slot in use is a running child or an exit -/

structure Counted (trace : List ChildEvent) (s : ChildSystem) : Prop where
  zeroed : s.table.inited = false → ∀ i, s.table.children i = .zero
  count : s.table.inUseCount =
    s.running.card + trace.countP ChildEvent.exits

namespace Counted

variable {trace : List ChildEvent} {s s' : ChildSystem} {event : ChildEvent}

theorem childCount (h : Counted trace s) :
    supervisorChildCount s.table =
      s.running.card + trace.countP ChildEvent.exits := by
  rw [← h.count]
  unfold supervisorChildCount
  cases hinited : s.table.inited with
  | true => rfl
  | false =>
      symm
      apply List.countP_eq_zero.2
      intro i _
      rw [h.zeroed hinited i]
      decide

theorem inUseCount_init (h : Counted trace s) :
    (supervisorInit s.table).inUseCount = s.table.inUseCount := by
  unfold ChildTable.inUseCount
  rw [children_supervisorInit h.zeroed]

theorem full_iff (h : Counted trace s) :
    (∀ i, ((supervisorInit s.table).children i).inUse = true) ↔
      s.running.card + trace.countP ChildEvent.exits =
        supervisorMaxChildren := by
  rw [← inUseCount_full, h.inUseCount_init, h.count]

theorem step (h : Counted trace s) (hstep : ChildStep s event s') :
    Counted (trace ++ [event]) s' := by
  cases hstep with
  | exit hpid =>
      constructor
      · exact h.zeroed
      · change s.table.inUseCount = (s.running.erase _).card + _
        have hpos := Finset.card_pos.2 ⟨_, hpid⟩
        rw [h.count, Finset.card_erase_of_mem hpid, List.countP_append]
        simp only [List.countP_singleton, ChildEvent.exits, if_true]
        omega
  | spawn call pid nowMs hpos hfresh =>
      have hsame := h.inUseCount_init
      have hinited := inited_supervisorInit s.table
      have hkeep : (trace ++ [ChildEvent.spawned call pid
          (supervisorSpawn s.table call (some pid) nowMs).1]).countP
            ChildEvent.exits = trace.countP ChildEvent.exits := by
        simp [ChildEvent.exits]
      rcases supervisorSpawn_effect s.table call pid nowMs with
        hfail | ⟨i, name, hfree, hok⟩
      · constructor
        · intro hnot
          rw [ChildSystem.spawn, hfail, hinited] at hnot
          contradiction
        · rw [hkeep, ChildSystem.spawn, hfail, if_neg (by omega), hsame]
          exact h.count
      · constructor
        · intro hnot
          rw [ChildSystem.spawn, hok] at hnot
          change (supervisorInit s.table).inited = false at hnot
          rw [hinited] at hnot
          contradiction
        · rw [hkeep, ChildSystem.spawn, hok, if_pos rfl,
            inUseCount_record hfree, hsame, h.count,
            Finset.card_insert_of_notMem hfresh]
          omega

theorem of_run (run : Run ChildStep .boot trace s) : Counted trace s := by
  apply run.invariant_trace
  · constructor
    · intro _ i
      rfl
    · decide
  · intro trace s event s' h hstep
    exact h.step hstep

end Counted

section Runs

variable {trace : List ChildEvent} {s : ChildSystem}

theorem countP_exits_eq_zero :
    trace.countP ChildEvent.exits = 0 ↔ ∀ pid, .exited pid ∉ trace := by
  rw [List.countP_eq_zero]
  constructor
  · intro hnone pid hpid
    exact hnone _ hpid rfl
  · intro hnone event hevent
    cases event with
    | spawned call pid ret => simp [ChildEvent.exits]
    | exited pid => exact absurd hevent (hnone pid)

theorem spawn_fails_iff (run : Run ChildStep .boot trace s) {call : SpawnCall}
    (hvalid : call.validName.isSome = true) {pid : Int} (hpos : 0 < pid)
    (nowMs : UInt64) :
    (supervisorSpawn s.table call (some pid) nowMs).1 = -1 ↔
      s.running.card + trace.countP ChildEvent.exits =
        supervisorMaxChildren := by
  rw [← (Counted.of_run run).full_iff]
  rcases Option.isSome_iff_exists.1 hvalid with ⟨name, hname⟩
  rcases supervisorSpawn_cases s.table hname pid nowMs with
    ⟨hfail, hfull⟩ | ⟨i, hfree, hok⟩
  · rw [hfail]
    exact iff_of_true rfl hfull
  · rw [hok]
    apply iff_of_false
    · simp only
      omega
    · intro hfull
      rw [hfull i] at hfree
      contradiction

/--
The table follows the children that run, and has room for as many as it should,
exactly as long as none has exited: the slot of a child that exits is never
given back.
-/
theorem follows_running_iff (run : Run ChildStep .boot trace s) :
    FollowsRunning s ↔ ∀ pid, .exited pid ∉ trace := by
  have hcounted := Counted.of_run run
  have hcount := hcounted.childCount
  rw [← countP_exits_eq_zero]
  constructor
  · rintro ⟨hfollows, -⟩
    omega
  · intro hnone
    refine ⟨by omega, ?_⟩
    intro hroom call pid nowMs hvalid
    rcases Option.isSome_iff_exists.1 hvalid with ⟨name, hname⟩
    rcases supervisorSpawn_cases s.table hname pid nowMs with
      ⟨-, hfull⟩ | ⟨i, -, hok⟩
    · have hfilled := hcounted.full_iff.1 hfull
      omega
    · rw [hok]

end Runs

theorem first_spawn :
    ∃ s, ChildStep .boot (.spawned (sleepCall "a") 100 100) s ∧
      supervisorChildCount s.table = 1 ∧ s.running = {100} := by
  have hret : (supervisorSpawn ChildSystem.boot.table (sleepCall "a")
      (some 100) 5).1 = 100 := by
    decide +kernel
  have hspawn : ChildStep .boot _ _ :=
    .spawn (sleepCall "a") 100 5 (by decide) (by decide)
  rw [hret] at hspawn
  exact ⟨_, hspawn, by decide +kernel, by decide +kernel⟩

theorem exited_child_counted :
    ∃ s, Run ChildStep .boot
        ([] ++ [.spawned (sleepCall "a") 100 100] ++ [.exited 100]) s ∧
      supervisorChildCount s.table = 1 ∧ s.running = ∅ ∧
      ¬ FollowsRunning s := by
  rcases first_spawn with ⟨s, hspawn, hcount, hrunning⟩
  have hexit : ChildStep s (.exited 100) _ := .exit (by simp [hrunning])
  refine ⟨_, .next (.next .refl hspawn) hexit, hcount, ?_, ?_⟩
  · simp [hrunning]
  · intro hfollows
    have hnow := hfollows.1
    rw [hcount] at hnow
    simp [hrunning] at hnow

theorem follows_running_iff_spawned :
    ∃ s, Run ChildStep .boot ([] ++ [.spawned (sleepCall "a") 100 100]) s ∧
      FollowsRunning s := by
  rcases first_spawn with ⟨s, hspawn, -, -⟩
  have run := Run.next .refl hspawn
  exact ⟨s, run, (follows_running_iff run).2 (by simp)⟩

end EzRouter
