import Mathlib.Data.List.Induction

/-!
# Lib.CompareAndSet

A cell whose content may be missing, written by compare-and-set: a write replaces the content it
expects. `Chain` says that the writes, in this order, lead from one content to another, each
finding what the one before it left.

`Chain.applied` reads a chain as a serial execution: where each write goes from a text to the text
of what its update makes of the first, the updates can be applied one after the other to what the
cell first held, and the cell ends with the result.
-/

namespace CompareAndSet

variable {τ ω σ ε : Type}

structure Write (τ : Type) where
  expected : τ
  next : τ

inductive Chain : Option τ → List (Write τ) → Option τ → Prop
  | nil (cell) : Chain cell [] cell
  | snoc {start writes} (w : Write τ) : Chain start writes (some w.expected) →
      Chain start (writes ++ [w]) (some w.next)

namespace Chain

variable {start cell : Option τ} {writes : List (Write τ)}

theorem cell_eq (h : Chain start writes cell) :
    cell = ((writes.getLast?).map Write.next).or start := by
  cases h with
  | nil => rfl
  | snoc w _ => simp

theorem split {before after : List (Write τ)} {w : Write τ}
    (h : Chain start (before ++ w :: after) cell) : Chain start before (some w.expected) := by
  induction after using List.reverseRecOn generalizing cell with
  | nil =>
    generalize hw : before ++ [w] = writes at h
    cases h with
    | nil => simp at hw
    | snoc v hv =>
      obtain ⟨rfl, heq⟩ := List.append_inj' hw rfl
      cases heq
      exact hv
  | append_singleton after v ih =>
    generalize hw : before ++ w :: (after ++ [v]) = writes at h
    cases h with
    | nil => simp at hw
    | @snoc others u hu =>
      have hw' : (before ++ w :: after) ++ [v] = others ++ [u] := by simpa using hw
      obtain ⟨rfl, _⟩ := List.append_inj' hw' rfl
      exact ih hu

end Chain

/-! ## Serial execution -/

/-- The updates, one after the other. -/
def applyAll (update : ω → σ → Except ε σ) (updates : List ω) (s : σ) : Except ε σ :=
  updates.foldlM (fun s l => update l s) s

theorem applyAll_append (update : ω → σ → Except ε σ) (xs ys : List ω) (s : σ) :
    applyAll update (xs ++ ys) s = applyAll update xs s >>= applyAll update ys := by
  unfold applyAll
  exact List.foldlM_append

/-- A write carries out an update: it goes from a text to that of the update's result. -/
def CarriesOut (view : τ → Option σ) (update : ω → σ → Except ε σ) (write : ω → Write τ)
    (l : ω) : Prop :=
  ∃ s s', view (write l).expected = some s ∧ update l s = .ok s' ∧ view (write l).next = some s'

theorem Chain.applied {view : τ → Option σ} {update : ω → σ → Except ε σ} {write : ω → Write τ}
    {start cell : Option τ} {ls : List ω} (h : Chain start (ls.map write) cell)
    (hls : ∀ l ∈ ls, CarriesOut view update write l) {s₀ : σ} (hstart : start.bind view = some s₀) :
    ∃ s, applyAll update ls s₀ = .ok s ∧ cell.bind view = some s := by
  generalize hw : ls.map write = writes at h
  induction h generalizing ls with
  | nil =>
    cases List.map_eq_nil_iff.mp hw
    exact ⟨s₀, rfl, hstart⟩
  | snoc w _ ih =>
    obtain ⟨before, last, rfl, rfl, hlast⟩ := List.map_eq_append_iff.mp hw
    obtain ⟨l, rfl⟩ : ∃ l, last = [l] := List.length_eq_one_iff.mp (by
      have hlen := congrArg List.length hlast
      rwa [List.length_map, List.length_singleton] at hlen)
    cases hlast
    rw [List.forall_mem_append] at hls
    obtain ⟨s, hs, hview⟩ := ih hls.1 rfl
    obtain ⟨s₁, s₂, hexpected, hupdate, hnext⟩ := hls.2 l (List.mem_singleton.mpr rfl)
    have heq : s₁ = s := Option.some.inj (hexpected.symm.trans hview)
    subst heq
    refine ⟨s₂, ?_, hnext⟩
    have hone : applyAll update [l] s₁ = .ok s₂ := by
      show (update l s₁ >>= pure) = .ok s₂
      rw [hupdate]
      rfl
    rw [applyAll_append, hs]
    exact hone

/-- The first update of a chain was made on what the cell first held. -/
theorem Chain.viewed {view : τ → Option σ} {update : ω → σ → Except ε σ} {write : ω → Write τ}
    {start cell : Option τ} {ls : List ω} (h : Chain start (ls.map write) cell)
    (hls : ∀ l ∈ ls, CarriesOut view update write l) (hstart : start.bind view = none) :
    ls = [] ∧ cell = start := by
  cases ls with
  | nil =>
    generalize hw : List.map write [] = writes at h
    cases h with
    | nil => exact ⟨rfl, rfl⟩
    | snoc w _ => exact absurd hw.symm (List.append_ne_nil_of_right_ne_nil _ (by simp))
  | cons l ls =>
    have hfirst : Chain start [] (some (write l).expected) :=
      h.split
    obtain ⟨s, _, hexpected, _⟩ := hls l List.mem_cons_self
    have hcell : start = some (write l).expected := by
      have := hfirst.cell_eq
      simpa using this.symm
    rw [hcell] at hstart
    rw [show (some (write l).expected).bind view = view (write l).expected from rfl, hexpected]
      at hstart
    cases hstart

end CompareAndSet
