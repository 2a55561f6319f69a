import LivePoly.Lib.Process

/-!
# Lib.Tracked

Processes that are proved by a record of what they have done instead of all of it. `Tracks` is
`Abides` with the past folded into such a record; the records of the processes may be of different
types. `tracked_invariant` carries it to every run whose steps meet a condition on the world and
the operation.
-/

namespace Process

open Proc

variable {Op : Type} {Ans : Op → Type} {ε α β κ W γ P : Type}

/-- With this record of its past the process does only what is allowed, and ends as it should. -/
def Tracks (note : P → Act Op Ans → P) (may : P → Op → Prop) (post : P → Except ε α → Prop) :
    P → Proc Op Ans ε α → Prop
  | p, ret a => post p (.ok a)
  | p, fail e => post p (.error e)
  | p, op o next => may p o ∧ ∀ a, Tracks note may post (note p ⟨o, a⟩) (next a)

section Rules

variable {note : P → Act Op Ans → P} {may : P → Op → Prop} {post : P → Except ε α → Prop}
  {post' : P → Except ε β → Prop} {p : P}

theorem tracks_lift {x : Except ε α} (h : post p x) : Tracks note may post p (lift x) := by
  cases x with
  | ok a => exact h
  | error e => exact h

variable (post) in
theorem tracks_bind {task : Proc Op Ans ε α} {f : α → Proc Op Ans ε β}
    (ht : Tracks note may post p task)
    (herror : ∀ p e, post p (.error e) → post' p (.error e))
    (h : ∀ p a, post p (.ok a) → Tracks note may post' p (f a)) :
    Tracks note may post' p (task >>= f) := by
  induction task generalizing p with
  | ret a => exact h p a ht
  | fail e => exact herror p e ht
  | op o next ih => exact ⟨ht.1, fun a => ih a (ht.2 a)⟩

theorem tracks_handle (post₁ : P → Except ε α → Prop) {task : Proc Op Ans ε α}
    {f : ε → Proc Op Ans ε α} (ht : Tracks note may post₁ p task)
    (hok : ∀ p a, post₁ p (.ok a) → post p (.ok a))
    (h : ∀ p e, post₁ p (.error e) → Tracks note may post p (f e)) :
    Tracks note may post p (task.handle f) := by
  induction task generalizing p with
  | ret a => exact hok p a ht
  | fail e => exact h p e ht
  | op o next ih => exact ⟨ht.1, fun a => ih a (ht.2 a)⟩

end Rules

/-! ## Every run -/

variable [DecidableEq κ] {exec : W → (o : Op) → γ → W × Ans o}

/-- What the process asks for next meets the condition. -/
def Asks (condition : W → Op → Bool) (c : Config κ W Op Ans ε α) (i : κ × γ) : Bool :=
  match c.procs i.1 with
  | .op o _ => condition c.world o
  | _ => true

/-- The steps of the processes that meet a condition on the world and the operation. -/
abbrev AskingSteps (exec : W → (o : Op) → γ → W × Ans o) (condition : W → Op → Bool) :
    Config κ W Op Ans ε α → κ × γ → List (κ × Act Op Ans) → Config κ W Op Ans ε α → Prop :=
  Trace.Guarded (Steps exec) fun c i => Asks condition c i = true

omit [DecidableEq κ] in
theorem asks_op {condition : W → Op → Bool} {c : Config κ W Op Ans ε α} {i : κ × γ} {o : Op}
    {next : Ans o → Proc Op Ans ε α} (hop : c.procs i.1 = .op o next) :
    Asks condition c i = condition c.world o := by
  unfold Asks
  rw [hop]

variable {R : κ → Type} {note : ∀ k, R k → Act Op Ans → R k} {may : ∀ k, R k → Op → Prop}
  {post : ∀ k, R k → Except ε α → Prop} {condition : W → Op → Bool}
  {c c' : Config κ W Op Ans ε α} {sched : List (κ × γ)} {acts : List (κ × Act Op Ans)}

/-- What holds of the world and the records, and is kept by every operation that is allowed and
meets the condition, holds in every run whose steps meet it. -/
theorem tracked_invariant (Inv : W → (∀ k, R k) → Prop)
    (hstep : ∀ w r k o g, Inv w r → may k (r k) o → condition w o = true →
      Inv (exec w o g).1 (Function.update r k (note k (r k) ⟨o, (exec w o g).2⟩)))
    (h : Trace.Run (AskingSteps exec condition) c sched acts c')
    {r : ∀ k, R k} (h0 : ∀ k, Tracks (note k) (may k) (post k) (r k) (c.procs k))
    (hinit : Inv c.world r) :
    ∃ r', Inv c'.world r' ∧ ∀ k, Tracks (note k) (may k) (post k) (r' k) (c'.procs k) := by
  refine h.invariant (I := fun c => ∃ r', Inv c.world r' ∧
    ∀ k, Tracks (note k) (may k) (post k) (r' k) (c.procs k)) ?_ ⟨r, hinit, h0⟩
  rintro t i out u ⟨r, hinv, htracks⟩ ⟨⟨act, hact, rfl⟩, hasks⟩
  obtain ⟨o, next, hop, rfl, rfl⟩ := step_eq_some.mp hact
  have hself := htracks i.1
  rw [hop] at hself
  rw [asks_op hop] at hasks
  refine ⟨_, hstep _ _ _ o i.2 hinv hself.1 hasks, fun k => ?_⟩
  dsimp only
  by_cases hk : k = i.1
  · subst hk
    rw [Function.update_self, Function.update_self]
    exact hself.2 _
  · rw [Function.update_of_ne hk, Function.update_of_ne hk]
    exact htracks k

/-- A schedule whose steps meet the condition, played. -/
def playAsking (exec : W → (o : Op) → γ → W × Ans o) (condition : W → Op → Bool)
    (c : Config κ W Op Ans ε α) :
    List (κ × γ) → Option (Config κ W Op Ans ε α × List (κ × Act Op Ans)) :=
  Trace.play (fun c i => if Asks condition c i = true then
    (step exec c i.1 i.2).map fun last => (last.1, [(i.1, last.2)]) else none) c

theorem playAsking_run (h : playAsking exec condition c sched = some (c', acts)) :
    Trace.Run (AskingSteps exec condition) c sched acts c' := by
  refine (Trace.play_guarded h).mono fun t i out u hstep => ?_
  obtain ⟨⟨last, act⟩, hact, heq⟩ := Option.map_eq_some_iff.mp hstep.1
  cases heq
  exact ⟨⟨act, hact, rfl⟩, hstep.2⟩

end Process
