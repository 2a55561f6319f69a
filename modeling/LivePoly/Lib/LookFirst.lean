import LivePoly.Lib.Process

/-!
# Lib.LookFirst

Processes that only read until they have found what they look for. While none of them finds
anything, nothing happens to the world they share (`interleaved_unfound`), whatever they would do
after having found it.
-/

namespace Process

open Proc

variable {Op : Type} {Ans : Op → Type} {ε α β κ W γ : Type} {reads : Op → Bool}
  {finds : Act Op Ans → Bool} {past : List (Act Op Ans)}

/-- One of the operations has found something. -/
def Found (finds : Act Op Ans → Bool) (past : List (Act Op Ans)) : Prop :=
  ∃ act ∈ past, finds act = true

/-- A process that ends with a value has found something. -/
def EndsFound (finds : Act Op Ans → Bool) (past : List (Act Op Ans)) : Except ε α → Prop
  | .ok _ => Found finds past
  | .error _ => True

/-- Until it has found something the process only reads. -/
abbrev LooksFirst (reads : Op → Bool) (finds : Act Op Ans → Bool) (past : List (Act Op Ans))
    (p : Proc Op Ans ε α) : Prop :=
  Abides (fun past o => Found finds past ∨ reads o = true) (EndsFound finds) past p

theorem Found.append (h : Found finds past) (more : List (Act Op Ans)) :
    Found finds (past ++ more) := by
  obtain ⟨act, hact, hfinds⟩ := h
  exact ⟨act, List.mem_append_left _ hact, hfinds⟩

theorem found_last {act : Act Op Ans} (h : finds act = true) : Found finds (past ++ [act]) :=
  ⟨act, List.mem_append_right _ (List.mem_singleton.mpr rfl), h⟩

theorem Found.looksFirst (h : Found finds past) (p : Proc Op Ans ε α) :
    LooksFirst reads finds past p := by
  induction p generalizing past with
  | ret a => exact h
  | fail e => trivial
  | op o next ih => exact ⟨.inl h, fun a => ih a (h.append _)⟩

theorem LooksFirst.bind {p : Proc Op Ans ε α} (h : LooksFirst reads finds past p)
    (f : α → Proc Op Ans ε β) : LooksFirst reads finds past (p >>= f) :=
  keeps_bind _ h (fun _ _ _ => trivial) fun _ a hfound => Found.looksFirst hfound (f a)

theorem LooksFirst.handle {p : Proc Op Ans ε α} {f : ε → Proc Op Ans ε α}
    (h : LooksFirst reads finds past p) (hf : ∀ past e, LooksFirst reads finds past (f e)) :
    LooksFirst reads finds past (p.handle f) :=
  keeps_handle _ h (fun _ _ hfound => hfound) fun past e _ => hf past e

theorem abides_true (past : List (Act Op Ans)) (p : Proc Op Ans ε α) :
    Abides (fun _ _ => True) (fun _ _ => True) past p := by
  induction p generalizing past with
  | ret a => trivial
  | fail e => trivial
  | op o next ih => exact ⟨trivial, fun a => ih a _⟩

/-- The process has ended. -/
def Ended (p : Proc Op Ans ε α) : Prop := ∀ o next, p ≠ .op o next

variable [DecidableEq κ] {exec : W → (o : Op) → γ → W × Ans o} {c mid c' : Config κ W Op Ans ε α}
  {sched₁ sched₂ : List (κ × γ)} {acts₁ acts₂ : List (κ × Act Op Ans)}

/-- While nothing is found, processes that look first leave the world as it is. -/
theorem interleaved_unfound (hread : ∀ w o g, reads o = true → (exec w o g).1 = w)
    (hbefore : Interleaved exec c sched₁ acts₁ mid) (hafter : Interleaved exec mid sched₂ acts₂ c')
    (hlooks : ∀ k, Ended (mid.procs k) ∨
      LooksFirst reads finds [] (c.procs k) ∧ ¬ Found finds (doneBy k acts₁))
    (hunfound : ∀ act ∈ acts₂, finds act.2 = false) :
    c'.world = mid.world ∧ ∀ act ∈ acts₂, reads act.2.1 = true := by
  have hkeeps : ∀ k, Abides (fun past o => Ended (mid.procs k) ∨ Found finds past ∨ reads o = true)
      (fun _ _ => True) [] (c.procs k) := by
    intro k
    rcases hlooks k with hended | ⟨hlooks, _⟩
    · exact (abides_true [] (c.procs k)).mono (fun _ _ _ => .inl hended) fun _ _ _ => trivial
    · exact hlooks.mono (fun _ _ => .inr) fun _ _ _ => trivial
  suffices Interleaved exec c (sched₁ ++ sched₂) (acts₁ ++ acts₂) c' ∧ c'.world = mid.world ∧
      (∀ k, Ended (mid.procs k) → c'.procs k = mid.procs k) ∧
      ∀ act ∈ acts₂, reads act.2.1 = true from ⟨this.2.1, this.2.2.2⟩
  induction hafter with
  | refl =>
    rw [List.append_nil, List.append_nil]
    exact ⟨hbefore, rfl, fun _ _ => rfl, fun act hact => absurd hact List.not_mem_nil⟩
  | @tail t u sched acts i out hrun hlast ih =>
    obtain ⟨hall, hworld, hover, hreads⟩ :=
      ih fun act hact => hunfound act (List.mem_append_left _ hact)
    obtain ⟨o, rfl, hnext, hmay⟩ := step_keeps hall hkeeps hlast
    have hlive : ¬ Ended (mid.procs i.1) := by
      intro hended
      obtain ⟨act, hact, _⟩ := hlast
      obtain ⟨o', next, hop, _, _⟩ := step_eq_some.mp hact
      exact hended o' next ((hover i.1 hended).symm.trans hop)
    have hnone : ¬ Found finds (doneBy i.1 (acts₁ ++ acts)) := by
      rintro ⟨act, hact, hfinds⟩
      rw [doneBy_append] at hact
      rcases List.mem_append.mp hact with hact | hact
      · exact ((hlooks i.1).resolve_left hlive).2 ⟨act, hact, hfinds⟩
      · obtain ⟨x, hx, rfl⟩ := List.mem_map.mp hact
        have hno := hunfound x (List.mem_append_left _ (List.mem_filter.mp hx).1)
        cases hno.symm.trans hfinds
    have hreadsNow : reads o = true := (hmay.resolve_left hlive).resolve_left hnone
    refine ⟨?_, ?_, ?_, ?_⟩
    · rw [← List.append_assoc, ← List.append_assoc]
      exact hall.tail hlast
    · rw [hnext, hread _ _ _ hreadsNow, hworld]
    · intro k hended
      have hne : k ≠ i.1 := fun heq => hlive (heq ▸ hended)
      obtain ⟨act, hact, _⟩ := hlast
      obtain ⟨o', next, _, _, rfl⟩ := step_eq_some.mp hact
      dsimp only
      rw [Function.update_of_ne hne]
      exact hover k hended
    · intro act hact
      rcases List.mem_append.mp hact with hact | hact
      · exact hreads act hact
      · rw [List.mem_singleton.mp hact]
        exact hreadsNow

end Process
