import Mathlib.Tactic.Common

/-!
# Lib.Trace

Runs of a machine that takes inputs and emits lists of outputs: `Run step s is os t` says that
from `s` the inputs `is`, taken in order, lead to `t` and emit `os`.

`Run.invariant` is the induction rule for one state. `Run.related` is the rule for a second
machine that only sees the outputs: a relation every step carries from the state to what folding
the outputs makes of the second machine holds at the end of every run.
-/

namespace Trace

variable {σ ι ο β : Type}

/-- From the first state the inputs lead to the last one and emit the outputs. -/
inductive Run (step : σ → ι → List ο → σ → Prop) : σ → List ι → List ο → σ → Prop
  | refl (s) : Run step s [] [] s
  | tail {s t u is os i o} : Run step s is os t → step t i o u → Run step s (is ++ [i]) (os ++ o) u

/-- The steps whose state and input meet a condition. -/
def Guarded (step : σ → ι → List ο → σ → Prop) (condition : σ → ι → Prop) :
    σ → ι → List ο → σ → Prop :=
  fun s i o t => step s i o t ∧ condition s i

namespace Run

variable {step step' : σ → ι → List ο → σ → Prop} {s t : σ} {is : List ι} {os : List ο}

theorem mono (h : Run step s is os t) (hle : ∀ s i o t, step s i o t → step' s i o t) :
    Run step' s is os t := by
  induction h with
  | refl => exact .refl s
  | tail _ hs ih => exact ih.tail (hle _ _ _ _ hs)

theorem cons {i : ι} {o : List ο} {u : σ} (hs : step s i o t) (h : Run step t is os u) :
    Run step s (i :: is) (o ++ os) u := by
  induction h with
  | refl =>
    rw [List.append_nil]
    exact (Run.refl s).tail hs
  | tail _ hlast ih =>
    rw [← List.cons_append, ← List.append_assoc]
    exact ih.tail hlast

theorem unguarded {condition : σ → ι → Prop} (h : Run (Guarded step condition) s is os t) :
    Run step s is os t :=
  h.mono fun _ _ _ _ hs => hs.1

theorem guarded {condition : ι → Prop} (h : Run step s is os t) (hall : ∀ i ∈ is, condition i) :
    Run (Guarded step fun _ i => condition i) s is os t := by
  induction h with
  | refl => exact .refl s
  | tail _ hs ih =>
    rw [List.forall_mem_append] at hall
    exact (ih hall.1).tail ⟨hs, hall.2 _ (List.mem_singleton.mpr rfl)⟩

/-- A predicate every step keeps holds at the end of every run that starts in it. -/
theorem invariant {I : σ → Prop} (hstep : ∀ s i o t, I s → step s i o t → I t)
    (h : Run step s is os t) (h0 : I s) : I t := by
  induction h with
  | refl => exact h0
  | tail _ hs ih => exact hstep _ _ _ _ ih hs

/-- A relation to a second machine that every step keeps, folding its outputs, relates the ends
of every run. `I` is what is known of the states on the way. -/
theorem related {I : σ → Prop} {R : β → σ → Prop} {apply : β → ο → β}
    (hI : ∀ s i o t, I s → step s i o t → I t)
    (hR : ∀ b s i o t, I s → R b s → step s i o t → R (o.foldl apply b) t)
    (h : Run step s is os t) {b : β} (h0 : I s) (hb : R b s) : R (os.foldl apply b) t := by
  induction h with
  | refl => exact hb
  | tail hrun hs ih =>
    rw [List.foldl_append]
    exact hR _ _ _ _ _ (hrun.invariant hI h0) ih hs

/-- A run each of whose steps is good is the same as one whose steps meet the condition, when that
condition is what makes a step good in the states `I` that such runs go through. -/
theorem good_iff_guarded {good : σ → ι → List ο → σ → Prop} {condition : σ → ι → Prop}
    {I : σ → Prop} (hgood : ∀ s i o t, I s → step s i o t → (good s i o t ↔ condition s i))
    (hI : ∀ s i o t, I s → step s i o t → condition s i → I t) (h0 : I s) :
    Run (fun s i o t => step s i o t ∧ good s i o t) s is os t ↔
      Run (Guarded step condition) s is os t := by
  constructor
  · intro h
    suffices Run (Guarded step condition) s is os t ∧ I t from this.1
    induction h with
    | refl => exact ⟨.refl _, h0⟩
    | tail _ hs ih =>
      have hcond := (hgood _ _ _ _ ih.2 hs.1).mp hs.2
      exact ⟨ih.1.tail ⟨hs.1, hcond⟩, hI _ _ _ _ ih.2 hs.1 hcond⟩
  · intro h
    suffices Run (fun s i o t => step s i o t ∧ good s i o t) s is os t ∧ I t from this.1
    induction h with
    | refl => exact ⟨.refl _, h0⟩
    | tail _ hs ih =>
      have hs' := (hgood _ _ _ _ ih.2 hs.1).mpr hs.2
      exact ⟨ih.1.tail ⟨hs.1, hs'⟩, hI _ _ _ _ ih.2 hs.1 hs.2⟩

end Run

/-! ## Playing inputs -/

/-- The state and the outputs when an executable machine takes the inputs in the given order. -/
def play (step : σ → ι → Option (σ × List ο)) : σ → List ι → Option (σ × List ο)
  | s, [] => some (s, [])
  | s, i :: is =>
    match step s i with
    | none => none
    | some (t, o) => (play step t is).map fun last => (last.1, o ++ last.2)

theorem play_run {step : σ → ι → Option (σ × List ο)} {s t : σ} {is : List ι} {os : List ο}
    (h : play step s is = some (t, os)) :
    Run (fun s i o t => step s i = some (t, o)) s is os t := by
  induction is generalizing s os with
  | nil =>
    cases h
    exact .refl _
  | cons i is ih =>
    unfold play at h
    cases hstep : step s i with
    | none =>
      rw [hstep] at h
      cases h
    | some first =>
      obtain ⟨u, o⟩ := first
      rw [hstep] at h
      obtain ⟨⟨last, rest⟩, hrest, heq⟩ := Option.map_eq_some_iff.mp h
      cases heq
      exact Run.cons hstep (ih hrest)

theorem play_guarded {step : σ → ι → Option (σ × List ο)} {condition : σ → ι → Prop}
    [∀ s i, Decidable (condition s i)] {s t : σ} {is : List ι} {os : List ο}
    (h : play (fun s i => if condition s i then step s i else none) s is = some (t, os)) :
    Run (Guarded (fun s i o t => step s i = some (t, o)) condition) s is os t := by
  refine (play_run h).mono fun s i o t hstep => ?_
  split at hstep
  · rename_i hcond
    exact ⟨hstep, hcond⟩
  · cases hstep

/-! ## Chains -/

/-- Steps without inputs, one after the other. The outputs of every step but the last are
`settled`: nothing that is emitted later bears on them. -/
inductive Chain (step : σ → List ο → σ → Prop) (settled : List ο → Prop) :
    σ → List ο → σ → Prop
  | nil (s) : Chain step settled s [] s
  | cons {s t u xs ys} : step s xs t → Chain step settled t ys u → ys = [] ∨ settled xs →
      Chain step settled s (xs ++ ys) u

namespace Chain

variable {step step' : σ → List ο → σ → Prop} {settled : List ο → Prop} {s t u : σ}
  {xs ys : List ο}

theorem single (h : step s xs t) : Chain step settled s xs t := by
  have hc : Chain step settled s (xs ++ []) t := .cons h (.nil t) (.inl rfl)
  rwa [List.append_nil] at hc

theorem mono (h : Chain step settled s xs t) (hle : ∀ s o t, step s o t → step' s o t) :
    Chain step' settled s xs t := by
  induction h with
  | nil s => exact .nil s
  | cons hs _ hset ih => exact .cons (hle _ _ _ hs) ih hset

theorem invariant {I : σ → Prop} (hstep : ∀ s o t, I s → step s o t → I t)
    (h : Chain step settled s xs t) (h0 : I s) : I t := by
  induction h with
  | nil => exact h0
  | cons hs _ _ ih => exact ih (hstep _ _ _ h0 hs)

theorem related {I : σ → Prop} {R : β → σ → Prop} {replay : β → List ο → β}
    (hnil : ∀ b, replay b [] = b)
    (happend : ∀ b xs ys, settled xs → replay b (xs ++ ys) = replay (replay b xs) ys)
    (hI : ∀ s o t, I s → step s o t → I t)
    (hR : ∀ b s o t, I s → R b s → step s o t → R (replay b o) t)
    (h : Chain step settled s xs t) {b : β} (h0 : I s) (hb : R b s) : R (replay b xs) t := by
  induction h generalizing b with
  | nil => rw [hnil]; exact hb
  | @cons s t u xs ys hs _ hset ih =>
    have hfirst : R (replay b xs) t := hR _ _ _ _ h0 hb hs
    have hrest : R (replay (replay b xs) ys) u := ih (hI _ _ _ h0 hs) hfirst
    rcases hset with rfl | hset
    · rw [List.append_nil]
      rwa [hnil] at hrest
    · rwa [happend _ _ _ hset]

end Chain

end Trace
