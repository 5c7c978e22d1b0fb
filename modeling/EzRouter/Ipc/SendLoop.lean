import EzRouter.Ipc.Dispatcher
import Mathlib.Data.Set.Finite.Lattice

/-!
# The bytes that a non-blocking send hands over

`send_nonblock_retry` call by call: what each `send` was given, what it
answered, and where the loop slept.  Leaving the calls out gives the loop of
the dispatcher back.
-/

namespace EzRouter

open EzRouter.Foundation

/-- `send offset requested result`: one call, for the `requested` bytes of the
buffer from `offset` on. -/
inductive SendCall where
  | send (offset requested : Nat) (result : SendResult)
  | usleep
  deriving DecidableEq, Repr

def SendCall.accepted (buf : List UInt8) : SendCall → List UInt8
  | .send offset requested (.room n) =>
      (buf.drop offset).take (min n requested)
  | _ => []

def acceptedBytes (buf : List UInt8) (calls : List SendCall) : List UInt8 :=
  calls.flatMap (SendCall.accepted buf)

def toInt32 (n : Nat) : Int := Int.bmod n (2 ^ 32)

structure SendTrace where
  calls : List SendCall
  sent : Nat
  ret : Option Int
  script : List SendResult
  deriving DecidableEq, Repr

def SendTrace.after (calls : List SendCall) (t : SendTrace) : SendTrace :=
  { t with calls := calls ++ t.calls }

def sendNonblockFrom (len : Nat) : Nat → Nat → List SendResult → SendTrace
  | sent, _, [] =>
      if sent ≥ len then ⟨[], sent, some (toInt32 sent), []⟩
      else ⟨[], sent, none, []⟩
  | sent, retries, result :: script =>
      if sent ≥ len then ⟨[], sent, some (toInt32 sent), result :: script⟩
      else
        let call := SendCall.send sent (len - sent) result
        match result with
        | .room n =>
            let w := min n (len - sent)
            if w > 0 then
              (sendNonblockFrom len (sent + w) retries script).after [call]
            else ⟨[call], sent, some (-1), script⟩
        | .eagain =>
            if retries + 1 > maxRetries then ⟨[call], sent, some (-1), script⟩
            else
              (sendNonblockFrom len sent (retries + 1) script).after
                [call, .usleep]
        | .eintr => (sendNonblockFrom len sent retries script).after [call]
        | .error => ⟨[call], sent, some (-1), script⟩

/-- A whole call on a buffer.  The value returned is missing while the thread
is still in `send`. -/
def sendNonblock (buf : List UInt8) (script : List SendResult) : SendTrace :=
  sendNonblockFrom buf.length 0 0 script

@[simp] theorem toInt32_of_lt {n : Nat} (h : n < 2 ^ 31) :
    toInt32 n = n := by
  unfold toInt32
  apply Int.bmod_eq_of_le
  · omega
  · omega

@[simp] theorem after_calls (calls : List SendCall) (t : SendTrace) :
    (t.after calls).calls = calls ++ t.calls := rfl

@[simp] theorem after_sent (calls : List SendCall) (t : SendTrace) :
    (t.after calls).sent = t.sent := rfl

@[simp] theorem after_ret (calls : List SendCall) (t : SendTrace) :
    (t.after calls).ret = t.ret := rfl

@[simp] theorem after_script (calls : List SendCall) (t : SendTrace) :
    (t.after calls).script = t.script := rfl

@[simp] theorem acceptedBytes_append (buf : List UInt8)
    (calls calls' : List SendCall) :
    acceptedBytes buf (calls ++ calls') =
      acceptedBytes buf calls ++ acceptedBytes buf calls' :=
  List.flatMap_append

def Consecutive (buf : List UInt8) : Nat → List SendCall → Prop
  | _, [] => True
  | sent, .usleep :: calls => Consecutive buf sent calls
  | sent, .send offset requested result :: calls =>
      offset = sent ∧ 0 < requested ∧ offset + requested = buf.length ∧
        Consecutive buf (sent +
          ((SendCall.send offset requested result).accepted buf).length) calls

/-! ## What the loop does -/

section Loop

variable (len : Nat) (buf : List UInt8) (sent retries : Nat)
  (script : List SendResult)

theorem sendNonblockFrom_loop (hlen : len < 2 ^ 31) (h : sent ≤ len) :
    sendNonblockRetry len sent retries script =
      ⟨(sendNonblockFrom len sent retries script).sent,
        (sendNonblockFrom len sent retries script).ret,
        (sendNonblockFrom len sent retries script).script⟩ := by
  fun_induction sendNonblockFrom len sent retries script with
  | case1 sent retries hdone =>
      rw [sendNonblockRetry, if_pos hdone, toInt32_of_lt (by omega)]
  | case2 sent retries hmore =>
      rw [sendNonblockRetry, if_neg hmore]
  | case3 sent retries result script hdone =>
      rw [sendNonblockRetry.eq_def, toInt32_of_lt (by omega)]
      exact if_pos hdone
  | case4 sent retries script hmore n w hroom call ih =>
      rw [sendNonblockRetry, if_neg hmore]
      simp only [after_sent, after_ret, after_script]
      rw [if_pos hroom]
      exact ih (by omega)
  | case5 sent retries script hmore n w hfull call =>
      rw [sendNonblockRetry, if_neg hmore]
      exact if_neg hfull
  | case6 sent retries script hmore hbudget call =>
      rw [sendNonblockRetry, if_neg hmore]
      exact if_pos hbudget
  | case7 sent retries script hmore hbudget call ih =>
      rw [sendNonblockRetry, if_neg hmore]
      simp only [after_sent, after_ret, after_script]
      rw [if_neg hbudget]
      exact ih h
  | case8 sent retries script hmore call ih =>
      rw [sendNonblockRetry, if_neg hmore]
      exact ih h
  | case9 sent retries script hmore call =>
      rw [sendNonblockRetry, if_neg hmore]

theorem sendNonblockFrom_bounds (h : sent ≤ len) :
    sent ≤ (sendNonblockFrom len sent retries script).sent ∧
      (sendNonblockFrom len sent retries script).sent ≤ len := by
  fun_induction sendNonblockFrom len sent retries script with
  | case4 sent retries script hmore n w hroom call ih =>
      rcases ih (by omega) with ⟨hlo, hhi⟩
      exact ⟨Nat.le_trans (Nat.le_add_right _ _) hlo, hhi⟩
  | case7 sent retries script hmore hbudget call ih => exact ih h
  | case8 sent retries script hmore call ih => exact ih h
  | _ => exact ⟨Nat.le_refl _, h⟩

theorem sendNonblockFrom_accepted :
    buf.take sent ++ acceptedBytes buf
        (sendNonblockFrom buf.length sent retries script).calls =
      buf.take (sendNonblockFrom buf.length sent retries script).sent := by
  fun_induction sendNonblockFrom buf.length sent retries script with
  | case4 sent retries script hmore n w hroom call ih =>
      rw [after_calls, after_sent, ← ih, List.take_add]
      simp [acceptedBytes, SendCall.accepted, call, w]
  | case5 sent retries script hmore n w hfull call =>
      have hzero : min n (buf.length - sent) = 0 := by
        exact Nat.eq_zero_of_not_pos hfull
      simp [acceptedBytes, SendCall.accepted, call, hzero]
  | case7 sent retries script hmore hbudget call ih =>
      rw [after_calls, after_sent, ← ih]
      simp [acceptedBytes, SendCall.accepted, call]
  | case8 sent retries script hmore call ih =>
      rw [after_calls, after_sent, ← ih]
      simp [acceptedBytes, SendCall.accepted, call]
  | case6 sent retries script hmore hbudget call =>
      simp [acceptedBytes, SendCall.accepted, call]
  | case9 sent retries script hmore call =>
      simp [acceptedBytes, SendCall.accepted, call]
  | _ => simp [acceptedBytes]

theorem sendNonblockFrom_consecutive :
    Consecutive buf sent
      (sendNonblockFrom buf.length sent retries script).calls := by
  fun_induction sendNonblockFrom buf.length sent retries script with
  | case1 => trivial
  | case2 => trivial
  | case3 => trivial
  | case4 sent retries script hmore n w hroom call ih =>
      refine ⟨rfl, by omega, by omega, ?_⟩
      have haccepted : (call.accepted buf).length = w := by
        simp [call, w, SendCall.accepted]
      rw [haccepted]
      exact ih
  | case5 sent retries script hmore n w hfull call =>
      exact ⟨rfl, by omega, by omega, trivial⟩
  | case6 sent retries script hmore hbudget call =>
      exact ⟨rfl, by omega, by omega, trivial⟩
  | case7 sent retries script hmore hbudget call ih =>
      exact ⟨rfl, by omega, by omega, ih⟩
  | case8 sent retries script hmore call ih =>
      exact ⟨rfl, by omega, by omega, ih⟩
  | case9 sent retries script hmore call =>
      exact ⟨rfl, by omega, by omega, trivial⟩

/-- Every sleep takes one retry from a budget that is never refilled. -/
theorem sendNonblockFrom_sleeps (h : retries ≤ maxRetries) :
    (sendNonblockFrom len sent retries script).calls.count .usleep + retries ≤
      maxRetries := by
  fun_induction sendNonblockFrom len sent retries script with
  | case4 sent retries script hmore n w hroom call ih =>
      simpa [call] using ih h
  | case7 sent retries script hmore hbudget call ih =>
      have hrest := ih (by omega)
      simp only [after_calls, List.count_append, call]
      simp only [List.count_cons, List.count_nil]
      simp
      omega
  | case8 sent retries script hmore call ih =>
      simpa [call] using ih h
  | _ => simpa using h

theorem sendNonblockFrom_ret (h : sent ≤ len) {r : Int}
    (hret : (sendNonblockFrom len sent retries script).ret = some r) :
    r = if (sendNonblockFrom len sent retries script).sent = len then
        toInt32 len
      else -1 := by
  fun_induction sendNonblockFrom len sent retries script with
  | case1 sent retries hdone =>
      have heq : sent = len := by omega
      rw [if_pos heq, ← heq]
      exact (Option.some.inj hret).symm
  | case3 sent retries result script hdone =>
      have heq : sent = len := by omega
      rw [if_pos heq, ← heq]
      exact (Option.some.inj hret).symm
  | case2 => contradiction
  | case4 sent retries script hmore n w hroom call ih =>
      exact ih (by omega) hret
  | case7 sent retries script hmore hbudget call ih => exact ih h hret
  | case8 sent retries script hmore call ih => exact ih h hret
  | _ =>
      rw [if_neg (by dsimp only; omega)]
      exact (Option.some.inj hret).symm

theorem sendNonblockFrom_pending (h : retries ≤ maxRetries)
    (hret : (sendNonblockFrom len sent retries script).ret = none) :
    script.countP (fun r => r != .eintr) + sent + retries <
      len + maxRetries + 1 := by
  fun_induction sendNonblockFrom len sent retries script with
  | case2 sent retries hmore =>
      simp
      omega
  | case4 sent retries script hmore n w hroom call ih =>
      have hrest := ih h hret
      rw [List.countP_cons_of_pos rfl]
      omega
  | case7 sent retries script hmore hbudget call ih =>
      have hrest := ih (by omega) hret
      rw [List.countP_cons_of_pos rfl]
      omega
  | case8 sent retries script hmore call ih =>
      rw [List.countP_cons_of_neg (by simp)]
      exact ih h hret
  | _ => contradiction

end Loop

theorem sendNonblock_returns (buf : List UInt8) (script : List SendResult)
    (h : buf.length + maxRetries + 1 ≤
      script.countP fun r => r != .eintr) :
    (sendNonblock buf script).ret.isSome = true := by
  cases hret : (sendNonblock buf script).ret with
  | some r => rfl
  | none =>
      have := sendNonblockFrom_pending _ _ _ _ (Nat.zero_le _) hret
      omega

theorem exists_answers {outcomes : Nat → SendResult}
    (hfin : Set.Finite {i | outcomes i = .eintr}) (k : Nat) :
    ∃ n, k ≤ ((List.range n).map outcomes).countP fun r => r != .eintr := by
  rcases hfin.bddAbove with ⟨last, hlast⟩
  refine ⟨last + 1 + k, ?_⟩
  have hlate : ∀ r ∈ (List.range k).map fun i => outcomes (last + 1 + i),
      (r != .eintr) = true := by
    intro r hr
    rcases List.mem_map.1 hr with ⟨i, -, rfl⟩
    have hne : outcomes (last + 1 + i) ≠ .eintr := by
      intro heq
      have := hlast heq
      omega
    simpa using hne
  have hcount := List.countP_eq_length.2 hlate
  rw [List.range_add, List.map_append, List.countP_append, List.map_map]
  simp only [List.length_map, List.length_range] at hcount
  change k ≤ _ + List.countP _ ((List.range k).map fun i =>
    outcomes (last + 1 + i))
  omega

theorem sendNonblock_exact_prefix (buf : List UInt8) :
    (∀ script,
      (sendNonblock buf script).sent ≤ buf.length ∧
      acceptedBytes buf (sendNonblock buf script).calls =
        buf.take (sendNonblock buf script).sent ∧
      Consecutive buf 0 (sendNonblock buf script).calls ∧
      (sendNonblock buf script).calls.count .usleep ≤ 8 ∧
      ∀ r, (sendNonblock buf script).ret = some r →
        (r = if acceptedBytes buf (sendNonblock buf script).calls = buf then
            toInt32 buf.length
          else -1) ∧
        (buf.length < 2 ^ 31 →
          (r = buf.length ↔
            acceptedBytes buf (sendNonblock buf script).calls = buf))) ∧
    ∀ outcomes : Nat → SendResult, Set.Finite {i | outcomes i = .eintr} →
      ∃ n, (sendNonblock buf ((List.range n).map outcomes)).ret.isSome := by
  constructor
  · intro script
    have hbound := (sendNonblockFrom_bounds buf.length 0 0 script
      (Nat.zero_le _)).2
    have haccepted := sendNonblockFrom_accepted buf 0 0 script
    rw [List.take_zero, List.nil_append] at haccepted
    have hwhole : acceptedBytes buf (sendNonblock buf script).calls = buf ↔
        (sendNonblock buf script).sent = buf.length := by
      unfold sendNonblock
      rw [haccepted, List.take_eq_self_iff]
      omega
    refine ⟨hbound, haccepted, sendNonblockFrom_consecutive buf 0 0 script,
      sendNonblockFrom_sleeps buf.length 0 0 script (Nat.zero_le _), ?_⟩
    intro r hret
    have hr := sendNonblockFrom_ret buf.length 0 0 script (Nat.zero_le _) hret
    change r = if (sendNonblock buf script).sent = _ then _ else _ at hr
    simp only [hwhole]
    refine ⟨hr, ?_⟩
    intro hint
    rw [hr, toInt32_of_lt hint]
    split <;> omega
  · intro outcomes hfin
    rcases exists_answers hfin (buf.length + maxRetries + 1) with ⟨n, hn⟩
    exact ⟨n, sendNonblock_returns buf _ hn⟩

theorem sendNonblock_exact_prefix_pair :
    acceptedBytes [7, 8]
        (sendNonblock [7, 8] [.room 1, .eagain, .eintr, .room 5]).calls =
      [7, 8] ∧
      ∃ n, (sendNonblock [7, 8]
        ((List.range n).map fun _ => .error)).ret.isSome := by
  rcases sendNonblock_exact_prefix [7, 8] with ⟨hscript, hends⟩
  constructor
  · rcases hscript [.room 1, .eagain, .eintr, .room 5] with
      ⟨-, -, -, -, hret⟩
    exact ((hret 2 rfl).2 (by decide)).1 rfl
  · apply hends
    simp

end EzRouter
