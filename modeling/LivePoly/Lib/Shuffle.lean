import Mathlib.Data.List.Perm.Basic

/-!
# Lib.Shuffle

Fisher–Yates shuffling of a list, driven by any generator: `next` advances it and `pick` reads a
number off it. Whatever the generator does, the result is a permutation (`shuffleFrom_perm`).
-/

namespace Shuffle

variable {α γ : Type}

/-- Exchange the entries at `i` and `j`. -/
def swap (l : List α) (i j : Nat) : List α :=
  match l[i]?, l[j]? with
  | some a, some b => (l.set i b).set j a
  | _, _ => l

/-- The loop from position `i` down to 1: each position is swapped with one not after it. -/
def shuffleFrom (next : γ → γ) (pick : γ → Nat) : Nat → γ → List α → List α
  | 0, _, l => l
  | i + 1, g, l =>
    let g' := next g
    shuffleFrom next pick i g' (swap l (i + 1) (pick g' % (i + 2)))

theorem swap_perm (l : List α) (i j : Nat) : (swap l i j).Perm l := by
  unfold swap
  split
  · rename_i a b ha hb
    obtain ⟨hi, rfl⟩ := List.getElem?_eq_some_iff.mp ha
    obtain ⟨hj, rfl⟩ := List.getElem?_eq_some_iff.mp hb
    exact List.set_set_perm hi hj
  · exact .refl l

theorem shuffleFrom_perm (next : γ → γ) (pick : γ → Nat) :
    ∀ (i : Nat) (g : γ) (l : List α), (shuffleFrom next pick i g l).Perm l := by
  intro i
  induction i with
  | zero => intro g l; exact .refl l
  | succ i ih =>
    intro g l
    exact (ih (next g) _).trans (swap_perm l _ _)

end Shuffle
