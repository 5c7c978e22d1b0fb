import Mathlib.Data.List.Basic

/-!
# Cutting a stream into frames

A decoder looks at the front of a stream and either takes one frame off it,
asks for more input, or rejects the stream for good.  When its positive and
its fatal verdicts survive an extension of the input, cutting the whole stream
at once and cutting it piece by piece, as it arrives, give the same frames.
-/

namespace EzRouter.Foundation

inductive Verdict (β ε : Type*) where
  | incomplete
  | fatal (error : ε)
  | frame (frame : β) (consumed : Nat)
  deriving DecidableEq, Repr

inductive Ending (α ε : Type*) where
  | tail (rest : List α)
  | fatal (error : ε)
  deriving DecidableEq, Repr

/-- A decoder whose verdicts are final: a frame is not empty, and neither a
frame nor a fatal error is withdrawn when more input follows. -/
structure Decoder (α β ε : Type*) where
  decode : List α → Verdict β ε
  frame_bounds : ∀ {s f n}, decode s = .frame f n → 0 < n ∧ n ≤ s.length
  frame_append : ∀ {s f n} (t), decode s = .frame f n →
    decode (s ++ t) = .frame f n
  fatal_append : ∀ {s e} (t), decode s = .fatal e → decode (s ++ t) = .fatal e

namespace Decoder

variable {α β ε : Type*}

def parse (d : Decoder α β ε) (s : List α) : List β × Ending α ε :=
  match _verdict : d.decode s with
  | .incomplete => ([], .tail s)
  | .fatal e => ([], .fatal e)
  | .frame f n =>
      let rest := d.parse (s.drop n)
      (f :: rest.1, rest.2)
termination_by s.length
decreasing_by
  have := d.frame_bounds _verdict
  simp
  omega

variable {d : Decoder α β ε} {s : List α}

theorem parse_of_incomplete (h : d.decode s = .incomplete) :
    d.parse s = ([], .tail s) := by
  rw [parse]
  split <;> simp_all

theorem parse_of_fatal {e : ε} (h : d.decode s = .fatal e) :
    d.parse s = ([], .fatal e) := by
  rw [parse]
  split <;> simp_all

theorem parse_of_frame {f : β} {n : Nat} (h : d.decode s = .frame f n) :
    d.parse s = (f :: (d.parse (s.drop n)).1, (d.parse (s.drop n)).2) := by
  rw [parse]
  split <;> simp_all

theorem parse_append_fatal {fs : List β} {e : ε} (t : List α)
    (h : d.parse s = (fs, .fatal e)) : d.parse (s ++ t) = (fs, .fatal e) := by
  induction s using Decoder.parse.induct d generalizing fs with
  | case1 s hs => simp [parse_of_incomplete hs] at h
  | case2 s e' hs =>
      rw [parse_of_fatal hs] at h
      rw [parse_of_fatal (d.fatal_append t hs)]
      exact h
  | case3 s f n hs ih =>
      have hn := (d.frame_bounds hs).2
      rw [parse_of_frame hs, Prod.mk.injEq] at h
      obtain ⟨rfl, hending⟩ := h
      rw [parse_of_frame (d.frame_append t hs),
        List.drop_append_of_le_length hn, ih (Prod.ext rfl hending)]

theorem parse_append_tail {fs : List β} {rest : List α} (t : List α)
    (h : d.parse s = (fs, .tail rest)) :
    d.parse (s ++ t) =
      (fs ++ (d.parse (rest ++ t)).1, (d.parse (rest ++ t)).2) := by
  induction s using Decoder.parse.induct d generalizing fs with
  | case1 s hs =>
      rw [parse_of_incomplete hs] at h
      cases h
      simp
  | case2 s e hs => simp [parse_of_fatal hs] at h
  | case3 s f n hs ih =>
      have hn := (d.frame_bounds hs).2
      rw [parse_of_frame hs, Prod.mk.injEq] at h
      obtain ⟨rfl, hending⟩ := h
      rw [parse_of_frame (d.frame_append t hs),
        List.drop_append_of_le_length hn, ih (Prod.ext rfl hending)]
      simp

theorem decode_tail {fs : List β} {rest : List α}
    (h : d.parse s = (fs, .tail rest)) : d.decode rest = .incomplete := by
  induction s using Decoder.parse.induct d generalizing fs with
  | case1 s hs =>
      rw [parse_of_incomplete hs] at h
      cases h
      exact hs
  | case2 s e hs => simp [parse_of_fatal hs] at h
  | case3 s f n hs ih =>
      rw [parse_of_frame hs, Prod.mk.injEq] at h
      exact ih (Prod.ext rfl h.2)

end Decoder

end EzRouter.Foundation
