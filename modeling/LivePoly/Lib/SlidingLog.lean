import Mathlib.Algebra.Order.Field.Basic
import Mathlib.Tactic.Linarith

/-!
# Lib.SlidingLog

Sliding logs: a log of times to which a time is only appended while fewer than a limit of them are
recent. `Admitted.within` is the rule for them: no interval as long as the window, open at one of its
ends, has more than the limit of times.
-/

namespace SlidingLog

variable {𝕜 : Type*} [Field 𝕜] [LinearOrder 𝕜] [IsStrictOrderedRing 𝕜]

/-- The times after `since`. -/
def recent (log : List 𝕜) (since : 𝕜) : List 𝕜 := log.filter (since < ·)

omit [Field 𝕜] [IsStrictOrderedRing 𝕜] in
theorem recent_append (log log' : List 𝕜) (since : 𝕜) :
    recent (log ++ log') since = recent log since ++ recent log' since :=
  List.filter_append ..

omit [Field 𝕜] [IsStrictOrderedRing 𝕜] in
theorem recent_recent (log : List 𝕜) {since since' : 𝕜} (h : since ≤ since') :
    recent (recent log since) since' = recent log since' := by
  unfold recent
  rw [List.filter_filter]
  refine List.filter_congr fun time _ => ?_
  by_cases hlate : since' < time
  · simp [hlate, h.trans_lt hlate]
  · simp [hlate]

/-- Each time was appended when fewer than `limit` times of the last `window` were in the log. -/
inductive Admitted (window : 𝕜) (limit : Nat) : List 𝕜 → Prop
  | nil : Admitted window limit []
  | append {log now} (h : Admitted window limit log) (hlast : ∀ time ∈ log, time ≤ now)
      (hlimit : (recent log (now - window)).length < limit) :
      Admitted window limit (log ++ [now])

variable {window : 𝕜} {limit : Nat} {log : List 𝕜}

omit [IsStrictOrderedRing 𝕜] in
/-- Times that all lie in the last window of each of them are no more than the limit. -/
theorem Admitted.countP_le (h : Admitted window limit log) {p : 𝕜 → Bool}
    (hp : ∀ now time, p now = true → p time = true → time ≤ now → now - window < time) :
    log.countP p ≤ limit := by
  induction h with
  | nil => exact Nat.zero_le _
  | @append log now hlog hlast hlimit ih =>
    rw [List.countP_append, List.countP_singleton]
    split
    · rename_i hnow
      have hrecent : log.countP p ≤ (recent log (now - window)).length := by
        unfold recent
        rw [← List.countP_eq_length_filter]
        refine List.countP_mono_left fun time htime hcounted => ?_
        exact decide_eq_true (hp now time hnow hcounted (hlast time htime))
      omega
    · exact ih

/-- No interval of the window's length, without its end, has more than the limit of times. -/
theorem Admitted.within (h : Admitted window limit log) (start : 𝕜) :
    log.countP (fun time => start ≤ time ∧ time < start + window) ≤ limit := by
  refine h.countP_le fun now time hnow htime _ => ?_
  obtain ⟨_, hend⟩ := of_decide_eq_true hnow
  obtain ⟨hstart, _⟩ := of_decide_eq_true htime
  linarith

theorem Admitted.within' (h : Admitted window limit log) (start : 𝕜) :
    log.countP (fun time => start < time ∧ time ≤ start + window) ≤ limit := by
  refine h.countP_le fun now time hnow htime _ => ?_
  obtain ⟨_, hend⟩ := of_decide_eq_true hnow
  obtain ⟨hstart, _⟩ := of_decide_eq_true htime
  linarith

end SlidingLog
