import Mathlib.Data.List.Induction
import Mathlib.Logic.Function.Basic
import LivePoly.Lib.Trace

/-!
# Lib.Process

Sequential processes that share a world. A process asks for one operation after the other
(`Proc`); each is performed on the world at once, and the operations of different processes come
in any order (`Interleaved`).

`Abides may post past p` is what a process is proved by on its own: having done `past` it asks only
for operations `may` allows after what it has done so far, and it ends as `post` says, whatever
the answers are. `interleaved_keeps` carries that to every interleaving with any other processes.
-/

namespace Process

/-- A process ends with a value or an error, or asks for an operation and goes on with its
answer. -/
inductive Proc (Op : Type) (Ans : Op → Type) (ε α : Type) where
  | ret (a : α)
  | fail (e : ε)
  | op (o : Op) (next : Ans o → Proc Op Ans ε α)

/-- An operation and its answer. -/
abbrev Act (Op : Type) (Ans : Op → Type) : Type := Sigma Ans

variable {Op : Type} {Ans : Op → Type} {ε α β κ W γ : Type}

namespace Proc

def bind : Proc Op Ans ε α → (α → Proc Op Ans ε β) → Proc Op Ans ε β
  | ret a, f => f a
  | fail e, _ => fail e
  | op o next, f => op o fun a => (next a).bind f

/-- `try`: an error is passed to the handler. -/
def handle : Proc Op Ans ε α → (ε → Proc Op Ans ε α) → Proc Op Ans ε α
  | ret a, _ => ret a
  | fail e, f => f e
  | op o next, f => op o fun a => (next a).handle f

instance : Monad (Proc Op Ans ε) where
  pure := ret
  bind := bind

instance : MonadExcept ε (Proc Op Ans ε) where
  throw := fail
  tryCatch := handle

def perform (o : Op) : Proc Op Ans ε (Ans o) := op o ret

def lift : Except ε α → Proc Op Ans ε α
  | .ok a => ret a
  | .error e => fail e

/-- A process of one kind of operations as a process of another. -/
def embed {Op' : Type} {Ans' : Op' → Type} {ε' : Type} (f : Op → Op')
    (answer : ∀ o, Ans' (f o) → Ans o) (error : ε → ε') : Proc Op Ans ε α → Proc Op' Ans' ε' α
  | ret a => ret a
  | fail e => fail (error e)
  | op o next => op (f o) fun a => (next (answer o a)).embed f answer error

end Proc

open Proc

/-! ## One process -/

/-- After `past` the process does only what is allowed, and ends as it should. -/
def Abides (may : List (Act Op Ans) → Op → Prop) (post : List (Act Op Ans) → Except ε α → Prop) :
    List (Act Op Ans) → Proc Op Ans ε α → Prop
  | past, ret a => post past (.ok a)
  | past, fail e => post past (.error e)
  | past, op o next => may past o ∧ ∀ a, Abides may post (past ++ [⟨o, a⟩]) (next a)

section Rules

variable {may : List (Act Op Ans) → Op → Prop} {post : List (Act Op Ans) → Except ε α → Prop}
  {post' : List (Act Op Ans) → Except ε β → Prop} {past : List (Act Op Ans)}

theorem keeps_pure {a : α} (h : post past (.ok a)) :
    Abides may post past (pure a : Proc Op Ans ε α) := h

theorem keeps_throw {e : ε} (h : post past (.error e)) :
    Abides may post past (throw e : Proc Op Ans ε α) := h

theorem keeps_lift {x : Except ε α} (h : post past x) :
    Abides may post past (lift x : Proc Op Ans ε α) := by
  cases x with
  | ok a => exact h
  | error e => exact h

theorem keeps_perform {o : Op} {f : Ans o → Proc Op Ans ε α} (hmay : may past o)
    (h : ∀ a, Abides may post (past ++ [⟨o, a⟩]) (f a)) :
    Abides may post past (perform o >>= f) :=
  ⟨hmay, h⟩

variable (post) in
theorem keeps_bind {p : Proc Op Ans ε α} {f : α → Proc Op Ans ε β} (hp : Abides may post past p)
    (herror : ∀ past e, post past (.error e) → post' past (.error e))
    (h : ∀ past a, post past (.ok a) → Abides may post' past (f a)) :
    Abides may post' past (p >>= f) := by
  induction p generalizing past with
  | ret a => exact h past a hp
  | fail e => exact herror past e hp
  | op o next ih => exact ⟨hp.1, fun a => ih a (hp.2 a)⟩

theorem keeps_handle (post₁ : List (Act Op Ans) → Except ε α → Prop) {p : Proc Op Ans ε α}
    {f : ε → Proc Op Ans ε α} (hp : Abides may post₁ past p)
    (hok : ∀ past a, post₁ past (.ok a) → post past (.ok a))
    (h : ∀ past e, post₁ past (.error e) → Abides may post past (f e)) :
    Abides may post past (p.handle f) := by
  induction p generalizing past with
  | ret a => exact hok past a hp
  | fail e => exact h past e hp
  | op o next ih => exact ⟨hp.1, fun a => ih a (hp.2 a)⟩

theorem Abides.mono {may₁ : List (Act Op Ans) → Op → Prop}
    {post₁ : List (Act Op Ans) → Except ε α → Prop} {p : Proc Op Ans ε α}
    (hp : Abides may post past p) (hmay : ∀ past o, may past o → may₁ past o)
    (hpost : ∀ past x, post past x → post₁ past x) : Abides may₁ post₁ past p := by
  induction p generalizing past with
  | ret a => exact hpost past _ hp
  | fail e => exact hpost past _ hp
  | op o next ih => exact ⟨hmay past o hp.1, fun a => ih a (hp.2 a)⟩

/-- What a process does on its own it also does after something else. -/
theorem Abides.rebase {p : Proc Op Ans ε α} (before : List (Act Op Ans))
    (hp : Abides may post past p) :
    Abides (fun past' o => ∃ more, past' = before ++ more ∧ may more o)
      (fun past' x => ∃ more, past' = before ++ more ∧ post more x) (before ++ past) p := by
  induction p generalizing past with
  | ret a => exact ⟨past, rfl, hp⟩
  | fail e => exact ⟨past, rfl, hp⟩
  | op o next ih =>
    refine ⟨⟨past, rfl, hp.1⟩, fun a => ?_⟩
    rw [List.append_assoc]
    exact ih a (hp.2 a)

end Rules

/-! ## Interleavings -/

/-- The world and what is left of each process. -/
structure Config (κ W Op : Type) (Ans : Op → Type) (ε α : Type) where
  world : W
  procs : κ → Proc Op Ans ε α

variable [DecidableEq κ] (exec : W → (o : Op) → γ → W × Ans o)

/-- A process asks for its next operation, and it is performed; `γ` is what the surroundings
contribute to the answer. -/
def step (c : Config κ W Op Ans ε α) (k : κ) (g : γ) :
    Option (Config κ W Op Ans ε α × Act Op Ans) :=
  match c.procs k with
  | .op o next =>
    let (world, ans) := exec c.world o g
    some (⟨world, Function.update c.procs k (next ans)⟩, ⟨o, ans⟩)
  | _ => none

/-- The step relation of the processes. -/
def Steps (c : Config κ W Op Ans ε α) (i : κ × γ) (acts : List (κ × Act Op Ans))
    (c' : Config κ W Op Ans ε α) : Prop :=
  ∃ act, step exec c i.1 i.2 = some (c', act) ∧ acts = [(i.1, act)]

/-- Some operations of the processes, in the order in which they were performed. -/
abbrev Interleaved : Config κ W Op Ans ε α → List (κ × γ) → List (κ × Act Op Ans) →
    Config κ W Op Ans ε α → Prop :=
  Trace.Run (Steps exec)

/-- What one of the processes did. -/
def doneBy (k : κ) (acts : List (κ × Act Op Ans)) : List (Act Op Ans) :=
  (acts.filter fun x => x.1 = k).map Prod.snd

variable {exec} {c c' : Config κ W Op Ans ε α} {sched : List (κ × γ)}
  {acts : List (κ × Act Op Ans)}

theorem step_eq_some {k : κ} {g : γ} {act : Act Op Ans} :
    step exec c k g = some (c', act) ↔ ∃ o next, c.procs k = .op o next ∧
      act = ⟨o, (exec c.world o g).2⟩ ∧
      c' = ⟨(exec c.world o g).1, Function.update c.procs k (next (exec c.world o g).2)⟩ := by
  unfold step
  cases hproc : c.procs k with
  | ret | fail => simp
  | op o next =>
    constructor
    · intro h
      cases h
      exact ⟨o, next, rfl, rfl, rfl⟩
    · rintro ⟨_, _, hop, rfl, rfl⟩
      cases hop
      rfl

theorem doneBy_append (k : κ) (xs ys : List (κ × Act Op Ans)) :
    doneBy k (xs ++ ys) = doneBy k xs ++ doneBy k ys := by
  unfold doneBy
  rw [List.filter_append, List.map_append]

theorem doneBy_self (k : κ) (act : Act Op Ans) : doneBy k [(k, act)] = [act] := by
  simp [doneBy]

theorem doneBy_other {k j : κ} (h : j ≠ k) (act : Act Op Ans) : doneBy k [(j, act)] = [] := by
  simp [doneBy, h]

theorem doneBy_eq_append {k : κ} {acts : List (κ × Act Op Ans)} {xs ys : List (Act Op Ans)}
    {act : Act Op Ans} (h : doneBy k acts = xs ++ act :: ys) :
    ∃ before after, acts = before ++ (k, act) :: after ∧ doneBy k before = xs ∧
      doneBy k after = ys := by
  obtain ⟨front, back, hfilter, rfl, hback⟩ := List.map_eq_append_iff.mp h
  obtain ⟨x, rest, rfl, rfl, rfl⟩ := List.map_eq_cons_iff.mp hback
  obtain ⟨before, tail, rfl, rfl, htail⟩ := List.filter_eq_append_iff.mp hfilter
  obtain ⟨others, after, rfl, hothers, hx, rfl⟩ := List.filter_eq_cons_iff.mp htail
  refine ⟨before ++ others, after, ?_, ?_, rfl⟩
  · rw [← of_decide_eq_true hx]
    simp
  · rw [doneBy_append]
    have hnone : doneBy k others = [] := by
      unfold doneBy
      rw [List.map_eq_nil_iff, List.filter_eq_nil_iff]
      exact hothers
    rw [hnone]
    exact List.append_nil _

theorem interleaved_op (h : Interleaved exec c sched acts c') {k : κ} {o : Op}
    {next : Ans o → Proc Op Ans ε α} (hop : c'.procs k = .op o next) (g : γ) :
    Interleaved exec c (sched ++ [(k, g)]) (acts ++ [(k, ⟨o, (exec c'.world o g).2⟩)])
      ⟨(exec c'.world o g).1, Function.update c'.procs k (next (exec c'.world o g).2)⟩ :=
  h.tail ⟨_, step_eq_some.mpr ⟨o, next, hop, rfl, rfl⟩, rfl⟩

/-- Whatever the others do, each process keeps to what was proved of it alone. -/
theorem interleaved_keeps (may : κ → List (Act Op Ans) → Op → Prop)
    (post : κ → List (Act Op Ans) → Except ε α → Prop)
    (h : Interleaved exec c sched acts c') (h0 : ∀ k, Abides (may k) (post k) [] (c.procs k))
    (k : κ) : Abides (may k) (post k) (doneBy k acts) (c'.procs k) := by
  induction h with
  | refl => exact h0 k
  | @tail t u sched acts i o _ hstep ih =>
    obtain ⟨act, hact, rfl⟩ := hstep
    obtain ⟨o, next, hop, rfl, rfl⟩ := step_eq_some.mp hact
    rw [doneBy_append]
    by_cases hk : i.1 = k
    · subst hk
      rw [doneBy_self]
      dsimp only
      rw [Function.update_self]
      rw [hop] at ih
      exact ih.2 _
    · rw [doneBy_other hk, List.append_nil]
      dsimp only
      rwa [Function.update_of_ne (Ne.symm hk)]

theorem step_keeps {may : κ → List (Act Op Ans) → Op → Prop}
    {post : κ → List (Act Op Ans) → Except ε α → Prop}
    (h : Interleaved exec c sched acts c') (h0 : ∀ k, Abides (may k) (post k) [] (c.procs k))
    {i : κ × γ} {out : List (κ × Act Op Ans)} {c'' : Config κ W Op Ans ε α}
    (hstep : Steps exec c' i out c'') :
    ∃ o, out = [(i.1, ⟨o, (exec c'.world o i.2).2⟩)] ∧ c''.world = (exec c'.world o i.2).1 ∧
      may i.1 (doneBy i.1 acts) o := by
  obtain ⟨act, hact, rfl⟩ := hstep
  obtain ⟨o, next, hop, rfl, rfl⟩ := step_eq_some.mp hact
  have hkeeps := interleaved_keeps may post h h0 i.1
  rw [hop] at hkeeps
  exact ⟨o, rfl, rfl, hkeeps.1⟩

/-- What holds of the world and of what was done, and is kept by every operation a process may
ask for, holds of every interleaving. -/
theorem interleaved_invariant (may : κ → List (Act Op Ans) → Op → Prop)
    (post : κ → List (Act Op Ans) → Except ε α → Prop) (Inv : W → List (κ × Act Op Ans) → Prop)
    (hstep : ∀ w acts k o g, Inv w acts → may k (doneBy k acts) o →
      Inv (exec w o g).1 (acts ++ [(k, ⟨o, (exec w o g).2⟩)]))
    (h : Interleaved exec c sched acts c') (h0 : ∀ k, Abides (may k) (post k) [] (c.procs k))
    (hinit : Inv c.world []) : Inv c'.world acts := by
  induction h with
  | refl => exact hinit
  | @tail t u sched acts i out hrun hlast ih =>
    obtain ⟨o, rfl, hworld, hmay⟩ := step_keeps hrun h0 hlast
    rw [hworld]
    exact hstep _ _ _ _ _ ih hmay

theorem interleaved_last {before : List (κ × Act Op Ans)} {x : κ × Act Op Ans}
    (h : Interleaved exec c sched (before ++ [x]) c') :
    ∃ sched₁ i mid, Interleaved exec c sched₁ before mid ∧ Steps exec mid i [x] c' := by
  generalize hacts : before ++ [x] = acts at h
  cases h with
  | refl => simp at hacts
  | @tail t u sched acts i out hrun hlast =>
    have hlast' := hlast
    obtain ⟨act, _, rfl⟩ := hlast
    obtain ⟨rfl, hx⟩ := List.append_inj' hacts rfl
    cases hx
    exact ⟨sched, i, t, hrun, hlast'⟩

/-- The operations up to one of them are an interleaving of their own, and it comes next. -/
theorem interleaved_split (h : Interleaved exec c sched acts c')
    {before after : List (κ × Act Op Ans)} {x : κ × Act Op Ans} (hacts : acts = before ++ x :: after) :
    ∃ sched₁ i mid mid', Interleaved exec c sched₁ before mid ∧ Steps exec mid i [x] mid' := by
  induction h generalizing after with
  | refl => simp at hacts
  | @tail t u sched acts i out hrun hlast ih =>
    obtain ⟨act, hact, rfl⟩ := hlast
    cases after using List.reverseRecOn with
    | nil =>
      obtain ⟨rfl, hx⟩ := List.append_inj' hacts rfl
      cases hx
      exact ⟨sched, i, t, u, hrun, act, hact, rfl⟩
    | append_singleton after y =>
      rw [← List.cons_append, ← List.append_assoc] at hacts
      obtain ⟨hacts, _⟩ := List.append_inj' hacts rfl
      exact ih hacts

/-- Every operation was allowed after what its process had done before it. -/
theorem interleaved_may (may : κ → List (Act Op Ans) → Op → Prop)
    (post : κ → List (Act Op Ans) → Except ε α → Prop) (h : Interleaved exec c sched acts c')
    (h0 : ∀ k, Abides (may k) (post k) [] (c.procs k)) {before after : List (κ × Act Op Ans)}
    {k : κ} {act : Act Op Ans} (hacts : acts = before ++ (k, act) :: after) :
    may k (doneBy k before) act.1 := by
  obtain ⟨_, i, mid, mid', hbefore, hstep⟩ := interleaved_split h hacts
  obtain ⟨o, hout, _, hmay⟩ := step_keeps hbefore h0 hstep
  cases hout
  exact hmay

theorem mem_doneBy {x : κ × Act Op Ans} (h : x ∈ acts) : x.2 ∈ doneBy x.1 acts :=
  List.mem_map.mpr ⟨x, List.mem_filter.mpr ⟨h, decide_eq_true rfl⟩, rfl⟩

theorem interleaved_prefix (h : Interleaved exec c sched acts c')
    {before after : List (κ × Act Op Ans)} (hacts : acts = before ++ after) :
    ∃ sched₁ mid, Interleaved exec c sched₁ before mid := by
  cases after with
  | nil =>
    rw [List.append_nil] at hacts
    subst hacts
    exact ⟨sched, c', h⟩
  | cons x after =>
    obtain ⟨sched₁, _, mid, _, hbefore, _⟩ := interleaved_split h hacts
    exact ⟨sched₁, mid, hbefore⟩

/-! ## Playing a schedule -/

/-- The configuration and the operations when the processes take their turns in the given order. -/
def play (exec : W → (o : Op) → γ → W × Ans o) (c : Config κ W Op Ans ε α) :
    List (κ × γ) → Option (Config κ W Op Ans ε α × List (κ × Act Op Ans))
  | [] => some (c, [])
  | (k, g) :: sched =>
    match step exec c k g with
    | none => none
    | some (c', act) => (play exec c' sched).map fun last => (last.1, (k, act) :: last.2)

theorem play_interleaved (h : play exec c sched = some (c', acts)) :
    Interleaved exec c sched acts c' := by
  induction sched generalizing c acts with
  | nil =>
    cases h
    exact .refl _
  | cons i sched ih =>
    obtain ⟨k, g⟩ := i
    unfold play at h
    cases hstep : step exec c k g with
    | none =>
      rw [hstep] at h
      cases h
    | some first =>
      obtain ⟨t, act⟩ := first
      rw [hstep] at h
      obtain ⟨⟨last, rest⟩, hrest, heq⟩ := Option.map_eq_some_iff.mp h
      cases heq
      have hfirst : Steps exec c (k, g) [(k, act)] t := ⟨act, hstep, rfl⟩
      exact Trace.Run.cons hfirst (ih hrest)

end Process
