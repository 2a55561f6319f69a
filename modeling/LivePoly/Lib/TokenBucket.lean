import Mathlib.Algebra.Order.Field.Basic
import Mathlib.Tactic.Linarith
import Mathlib.Tactic.Ring

/-!
# Lib.TokenBucket

Token buckets: tokens come in at a rate up to a capacity, and each event spends one. `Spent` says
how many tokens are there at a time after events at given times; `Spent.between` bounds the events
of an interval by what a full bucket and the rate over the interval pay for.
-/

namespace TokenBucket

variable {𝕜 : Type*} [Field 𝕜] [LinearOrder 𝕜] [IsStrictOrderedRing 𝕜] {capacity rate : 𝕜}

/-- The tokens after some time. -/
def refill (capacity rate tokens elapsed : 𝕜) : 𝕜 := min capacity (tokens + elapsed * rate)

omit [IsStrictOrderedRing 𝕜] in
theorem refill_le (tokens elapsed : 𝕜) : refill capacity rate tokens elapsed ≤ capacity :=
  min_le_left _ _

omit [IsStrictOrderedRing 𝕜] in
theorem refill_le_add (tokens elapsed : 𝕜) :
    refill capacity rate tokens elapsed ≤ tokens + elapsed * rate :=
  min_le_right _ _

omit [IsStrictOrderedRing 𝕜] in
theorem refill_zero {tokens : 𝕜} (h : tokens ≤ capacity) :
    refill capacity rate tokens 0 = tokens := by
  unfold refill
  rw [zero_mul, add_zero, min_eq_right h]

theorem refill_nonneg {tokens elapsed : 𝕜} (hcapacity : 0 ≤ capacity) (hrate : 0 ≤ rate)
    (htokens : 0 ≤ tokens) (helapsed : 0 ≤ elapsed) :
    0 ≤ refill capacity rate tokens elapsed :=
  le_min hcapacity (add_nonneg htokens (mul_nonneg helapsed hrate))

/-- Refilling twice is refilling once over the whole time. -/
theorem refill_refill {tokens elapsed elapsed' : 𝕜} (hrate : 0 ≤ rate) (helapsed : 0 ≤ elapsed') :
    refill capacity rate (refill capacity rate tokens elapsed) elapsed' =
      refill capacity rate tokens (elapsed + elapsed') := by
  have hgain : 0 ≤ elapsed' * rate := mul_nonneg helapsed hrate
  unfold refill
  rcases le_total capacity (tokens + elapsed * rate) with hfull | hbelow
  · rw [min_eq_left hfull, min_eq_left (by linarith), min_eq_left (by linarith)]
  · rw [min_eq_right hbelow, add_mul, add_assoc]

omit [IsStrictOrderedRing 𝕜] in
theorem refill_full {tokens elapsed : 𝕜} (h : capacity ≤ tokens + elapsed * rate) :
    refill capacity rate tokens elapsed = capacity :=
  min_eq_left h

/-- The tokens at a time, of a bucket that was full at first, after events at the times of a log. -/
inductive Spent (capacity rate : 𝕜) : List 𝕜 → 𝕜 → 𝕜 → Prop
  | full (now : 𝕜) : Spent capacity rate [] capacity now
  | wait {log tokens last now} (h : Spent capacity rate log tokens last) (hlast : last ≤ now) :
      Spent capacity rate log (refill capacity rate tokens (now - last)) now
  | spend {log tokens now} (h : Spent capacity rate log tokens now) (htokens : 1 ≤ tokens) :
      Spent capacity rate (log ++ [now]) (tokens - 1) now

variable {log : List 𝕜} {tokens now : 𝕜}

theorem Spent.le_capacity (h : Spent capacity rate log tokens now) : tokens ≤ capacity := by
  induction h with
  | full => exact le_refl _
  | wait => exact refill_le _ _
  | spend _ _ ih => linarith

omit [IsStrictOrderedRing 𝕜] in
theorem Spent.last (h : Spent capacity rate log tokens now) : ∀ time ∈ log, time ≤ now := by
  induction h with
  | full => exact List.forall_mem_nil _
  | wait _ hlast ih => exact fun time htime => (ih time htime).trans hlast
  | spend _ _ ih =>
    intro time htime
    rcases List.mem_append.mp htime with htime | htime
    · exact ih time htime
    · exact le_of_eq (List.mem_singleton.mp htime)

theorem Spent.nonneg (h : Spent capacity rate log tokens now) (hcapacity : 0 ≤ capacity)
    (hrate : 0 ≤ rate) : 0 ≤ tokens := by
  induction h with
  | full => exact hcapacity
  | wait _ hlast ih => exact refill_nonneg hcapacity hrate ih (sub_nonneg.mpr hlast)
  | spend _ htokens _ => linarith

/-- What the events since a time have spent and what is left was in the bucket or has come in. -/
theorem Spent.since (h : Spent capacity rate log tokens now) (hrate : 0 ≤ rate) {start : 𝕜}
    (hstart : start ≤ now) :
    (log.countP (start ≤ ·) : 𝕜) + tokens ≤ capacity + (now - start) * rate := by
  induction h generalizing start with
  | full now =>
    have hgain : 0 ≤ (now - start) * rate := mul_nonneg (sub_nonneg.mpr hstart) hrate
    simpa using hgain
  | @wait log tokens last now h hlast ih =>
    rcases le_or_gt start last with hbefore | hafter
    · have hbound := ih hbefore
      have hrefill : refill capacity rate tokens (now - last) ≤ tokens + (now - last) * rate :=
        refill_le_add _ _
      have hsum : (now - start) * rate = (last - start) * rate + (now - last) * rate := by ring
      linarith
    · have hnone : log.countP (start ≤ ·) = 0 := by
        rw [List.countP_eq_zero]
        intro time htime
        have hold := (h.last time htime).trans_lt hafter
        simpa using hold
      have hrefill : refill capacity rate tokens (now - last) ≤ capacity := refill_le _ _
      have hgain : 0 ≤ (now - start) * rate := mul_nonneg (sub_nonneg.mpr hstart) hrate
      rw [hnone, Nat.cast_zero]
      linarith
  | @spend log tokens now h htokens ih =>
    have hbound := ih hstart
    have hcount : (log ++ [now]).countP (start ≤ ·) = log.countP (start ≤ ·) + 1 := by
      rw [List.countP_append, List.countP_singleton, if_pos (decide_eq_true hstart)]
    rw [hcount, Nat.cast_add, Nat.cast_one]
    linarith

/-- The events of an interval are paid for by a full bucket and what comes in over it. -/
theorem Spent.between (h : Spent capacity rate log tokens now) (hcapacity : 0 ≤ capacity)
    (hrate : 0 ≤ rate) {start stop : 𝕜} (hstop : start ≤ stop) :
    (log.countP (fun time => start ≤ time ∧ time ≤ stop) : 𝕜) ≤
      capacity + (stop - start) * rate := by
  induction h with
  | full =>
    have hgain : 0 ≤ (stop - start) * rate := mul_nonneg (sub_nonneg.mpr hstop) hrate
    simpa using add_nonneg hcapacity hgain
  | wait _ _ ih => exact ih
  | @spend log tokens now h htokens ih =>
    rw [List.countP_append, List.countP_singleton]
    split
    · rename_i hnow
      obtain ⟨hstart, hbefore⟩ := of_decide_eq_true hnow
      have hle : log.countP (fun time => start ≤ time ∧ time ≤ stop) ≤ log.countP (start ≤ ·) := by
        refine List.countP_mono_left fun time _ hcounted => ?_
        exact decide_eq_true (of_decide_eq_true hcounted).1
      have hle' : (log.countP (fun time => start ≤ time ∧ time ≤ stop) : 𝕜) ≤
          log.countP (start ≤ ·) := Nat.cast_le.mpr hle
      have hsince := h.since hrate hstart
      have hgain : (now - start) * rate ≤ (stop - start) * rate :=
        mul_le_mul_of_nonneg_right (by linarith) hrate
      rw [Nat.cast_add, Nat.cast_one]
      linarith
    · exact ih

end TokenBucket
