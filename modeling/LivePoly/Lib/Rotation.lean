import Mathlib.Data.Set.Function
import Mathlib.Data.List.Count

/-!
# Lib.Rotation

Turns that pass upwards through numbered seats and on from the highest to the lowest, among
parties some of which drop out on the way. `Passes seat p A us b B` says that the turn went from
`p` through `us` to `b` while the parties still there shrank from `A` to `B`. The rule is `fair`:
when the turn comes back to a party, every other one still there had exactly one turn.
-/

namespace Rotation

variable {α : Type*} {seat : α → ℕ}

/-- On the way up from `a`, and on from the lowest seat, `x` is met before `b`; with `b = a` the way
is once round. -/
def Between (a x b : ℕ) : Prop := a < x ∧ x < b ∨ b ≤ a ∧ (a < x ∨ x < b)

/-- From the seat `a` the turn passes to `b`: nobody of `A` sits in between. -/
structure Next (seat : α → ℕ) (A : Set α) (a : ℕ) (b : α) : Prop where
  mem : b ∈ A
  nobody : ∀ x ∈ A, ¬ Between a (seat x) (seat b)

theorem Next.unique {A : Set α} {a : ℕ} {b c : α} (hinj : Set.InjOn seat A)
    (hb : Next seat A a b) (hc : Next seat A a c) : b = c := by
  have hbc := hb.nobody c hc.mem
  have hcb := hc.nobody b hb.mem
  refine hinj hb.mem hc.mem ?_
  unfold Between at hbc hcb
  omega

/-- Where somebody else is there too, the turn passes to somebody else. -/
theorem Next.other {A : Set α} {p q b : α} (hinj : Set.InjOn seat A)
    (h : Next seat A (seat p) b) (hp : p ∈ A) (hq : q ∈ A) (hqp : q ≠ p) : b ≠ p := by
  rintro rfl
  have hseat : seat q ≠ seat b := fun hsame => hqp (hinj hq hp hsame)
  have hnobody := h.nobody q hq
  unfold Between at hnobody
  omega

theorem Next.subset {A B : Set α} {a : ℕ} {b : α} (h : Next seat A a b) (hsub : B ⊆ A)
    (hb : b ∈ B) : Next seat B a b :=
  ⟨hb, fun x hx => h.nobody x (hsub hx)⟩

/-! ## Lists in seat order -/

section Lists

variable {l : List α}

/-- In a list in seat order the turn passes to the next entry, from the last one to the first. -/
theorem next_of_getElem (h : l.Pairwise fun x y => seat x < seat y) {i : ℕ} {a b : α}
    (ha : l[i]? = some a) (hb : l[(i + 1) % l.length]? = some b) :
    Next seat {x | x ∈ l} (seat a) b := by
  obtain ⟨hi, rfl⟩ := List.getElem?_eq_some_iff.mp ha
  obtain ⟨hj, rfl⟩ := List.getElem?_eq_some_iff.mp hb
  have hlt := List.pairwise_iff_getElem.mp h
  refine ⟨List.getElem_mem hj, fun x hx hbetween => ?_⟩
  obtain ⟨k, hk, rfl⟩ := List.mem_iff_getElem.mp hx
  -- a seat is higher exactly when its index is
  have hle : ∀ m n (hm : m < l.length) (hn : n < l.length), m ≤ n → seat l[m] ≤ seat l[n] := by
    intro m n hm hn hmn
    rcases Nat.lt_or_eq_of_le hmn with hmn | rfl
    · exact le_of_lt (hlt m n hm hn hmn)
    · exact le_refl _
  have hindex : i + 1 < l.length ∧ (i + 1) % l.length = i + 1 ∨
      i + 1 = l.length ∧ (i + 1) % l.length = 0 := by
    rcases Nat.lt_or_ge (i + 1) l.length with hlast | hlast
    · exact .inl ⟨hlast, Nat.mod_eq_of_lt hlast⟩
    · have hlast : i + 1 = l.length := by omega
      exact .inr ⟨hlast, by rw [hlast, Nat.mod_self]⟩
  unfold Between at hbetween
  rcases hindex with ⟨hlast, hnext⟩ | ⟨hlast, hnext⟩
  · simp only [hnext] at hbetween
    have hstep := hlt i (i + 1) hi hlast (Nat.lt_succ_self i)
    rcases Nat.lt_or_ge i k with hik | hik
    · have := hle (i + 1) k hlast hk hik
      omega
    · have := hle k i hk hi hik
      omega
  · simp only [hnext] at hbetween
    have hlow := hle 0 k (by omega) hk (Nat.zero_le k)
    have hhigh := hle k i hk hi (by omega)
    have hround := hle 0 i (by omega) hi (Nat.zero_le i)
    omega

/-- The first entry after a seat, or else the first of all, is the one to whom the turn passes. -/
theorem next_of_find (h : l.Pairwise fun x y => seat x < seat y) {a : ℕ} {b : α}
    (hb : (l.find? fun x => a < seat x).or l.head? = some b) :
    Next seat {x | x ∈ l} a b := by
  rcases Option.or_eq_some_iff.mp hb with hfind | ⟨hnone, hhead⟩
  · obtain ⟨hafter, us, vs, rfl, hbefore⟩ := List.find?_eq_some_iff_append.mp hfind
    rw [List.pairwise_append, List.pairwise_cons] at h
    refine ⟨List.mem_append_right us List.mem_cons_self, fun x hx hbetween => ?_⟩
    have hafter : a < seat b := of_decide_eq_true hafter
    unfold Between at hbetween
    rcases List.mem_append.mp hx with hx | hx
    · have hnot : ¬ a < seat x := by simpa using hbefore x hx
      omega
    · rcases List.mem_cons.mp hx with rfl | hx
      · omega
      · have := h.2.1.1 x hx
        omega
  · cases l with
    | nil => cases hhead
    | cons first rest =>
      cases hhead
      have hbelow : ∀ x ∈ b :: rest, seat x ≤ a := by
        intro x hx
        simpa using List.find?_eq_none.mp hnone x hx
      refine ⟨List.mem_cons_self, fun x hx hbetween => ?_⟩
      have hfirst := hbelow b List.mem_cons_self
      have hx' := hbelow x hx
      unfold Between at hbetween
      rcases List.mem_cons.mp hx with rfl | hx
      · omega
      · have := (List.pairwise_cons.mp h).1 x hx
        omega

end Lists

/-! ## Rounds -/

/-- From `p` the turn passed through `us` and is at `b` now; of the parties `A` those of `B` are
still there. -/
inductive Passes (seat : α → ℕ) (p : α) (A : Set α) : List α → α → Set α → Prop
  | refl : Passes seat p A [] p A
  | shrink {us : List α} {b : α} {B C : Set α} (h : Passes seat p A us b B) (hsub : C ⊆ B) :
      Passes seat p A us b C
  | pass {us : List α} {b c : α} {B : Set α} (h : Passes seat p A us b B)
      (hnext : Next seat B (seat b) c) : Passes seat p A (us ++ [c]) c B

section Rounds

variable {p b : α} {A B : Set α} {us : List α}

theorem Passes.subset (h : Passes seat p A us b B) : B ⊆ A := by
  induction h with
  | refl => exact subset_rfl
  | shrink _ hsub ih => exact hsub.trans ih
  | pass _ _ ih => exact ih

theorem Passes.holder (h : Passes seat p A us b B) :
    us = [] ∧ b = p ∨ b ∈ us ∧ b ∈ A := by
  induction h with
  | refl => exact .inl ⟨rfl, rfl⟩
  | shrink _ _ ih => exact ih
  | pass h hnext _ =>
    exact .inr ⟨List.mem_append_right _ List.mem_cons_self, h.subset hnext.mem⟩

theorem Passes.holder_eq (h : Passes seat p A us b B) : b = us.getLastD p := by
  induction h with
  | refl => rfl
  | shrink _ _ ih => exact ih
  | pass => exact List.getLastD_concat.symm

/-- On the way up from `a` the seat `x` has been met by the time the turn is at `b`. -/
def Reached (a b x : ℕ) : Prop := x = b ∨ Between a x b

variable [DecidableEq α]

theorem Passes.round (hinj : Set.InjOn seat A) (h : Passes seat p A us b B) (hp : p ∈ B)
    (hround : p ∉ us) (hmoved : us ≠ []) (q : α) (hq : q ∈ B) (hqp : q ≠ p) :
    (Reached (seat p) (seat b) (seat q) → us.count q = 1) ∧
      (¬ Reached (seat p) (seat b) (seat q) → us.count q = 0) := by
  induction h with
  | refl => exact absurd rfl hmoved
  | shrink _ hsub ih => exact ih (hsub hp) hround hmoved (hsub hq)
  | @pass us b c B h hnext ih =>
    rw [List.mem_append, List.mem_singleton, not_or] at hround
    obtain ⟨hround, hpc⟩ := hround
    have hseat : ∀ x ∈ A, ∀ y ∈ A, x ≠ y → seat x ≠ seat y :=
      fun x hx y hy hne hsame => hne (hinj hx hy hsame)
    have hpA : p ∈ A := h.subset hp
    have hqA : q ∈ A := h.subset hq
    have hcA : c ∈ A := h.subset hnext.mem
    have hqp' := hseat q hqA p hpA hqp
    have hcp' := hseat c hcA p hpA (Ne.symm hpc)
    have hskip := hnext.nobody q hq
    have hskip' := hnext.nobody p hp
    rw [List.count_append]
    -- the turn meets `c` and nobody else
    by_cases hqc : q = c
    · subst hqc
      rw [List.count_singleton_self]
      rcases h.holder with ⟨rfl, rfl⟩ | ⟨hb, hbA⟩
      · exact ⟨fun _ => rfl, fun hnot => absurd (.inl rfl) hnot⟩
      · have hbp' := hseat b hbA p hpA fun hsame => hround (hsame ▸ hb)
        have hnone := (ih hp hround (List.ne_nil_of_mem hb) hq).2
        refine ⟨fun _ => ?_, fun hnot => absurd (.inl rfl) hnot⟩
        rw [hnone]
        unfold Reached Between at *
        omega
    · have hqc' := hseat q hqA c hcA hqc
      rw [List.count_singleton, if_neg fun hsame => hqc (beq_iff_eq.mp hsame).symm]
      rcases h.holder with ⟨rfl, rfl⟩ | ⟨hb, hbA⟩
      · refine ⟨fun hmet => ?_, fun _ => rfl⟩
        unfold Reached at hmet
        exact absurd (hmet.resolve_left hqc') hskip
      · have hbp' := hseat b hbA p hpA fun hsame => hround (hsame ▸ hb)
        have hsame : Reached (seat p) (seat c) (seat q) ↔ Reached (seat p) (seat b) (seat q) := by
          unfold Reached Between at *
          omega
        rw [hsame]
        exact ih hp hround (List.ne_nil_of_mem hb) hq

/-- When the turn comes back to `p`, every other party still there had exactly one turn. -/
theorem Passes.fair (hinj : Set.InjOn seat A) (h : Passes seat p A (us ++ [p]) b B)
    (hround : p ∉ us) : ∀ q ∈ B, q ≠ p → us.count q = 1 := by
  generalize hturns : us ++ [p] = ts at h
  induction h with
  | refl => exact absurd hturns (List.append_ne_nil_of_right_ne_nil us (List.cons_ne_nil p []))
  | shrink _ hsub ih => exact fun q hq => ih hturns q (hsub hq)
  | @pass vs b c B h hnext _ =>
    obtain ⟨rfl, hsame⟩ := List.append_inj' hturns rfl
    cases hsame
    intro q hq hqp
    have hp : p ∈ A := h.subset hnext.mem
    have hnobody := hnext.nobody q hq
    rcases h.holder with ⟨rfl, rfl⟩ | ⟨hb, hbA⟩
    · have hne : seat q ≠ seat b := fun hsame => hqp (hinj (h.subset hq) hp hsame)
      unfold Between at hnobody
      omega
    · refine (h.round hinj hnext.mem hround (List.ne_nil_of_mem hb) q hq hqp).1 ?_
      have hqp' : seat q ≠ seat p := fun hsame => hqp (hinj (h.subset hq) hp hsame)
      have hbp' : seat b ≠ seat p := fun hsame => hround (hinj hbA hp hsame ▸ hb)
      unfold Reached Between at *
      omega

end Rounds

end Rotation
