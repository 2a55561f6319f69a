import Mathlib.Algebra.BigOperators.Group.List.Basic
import Mathlib.Data.List.Nodup

/-!
# Lib.Keyed

Lists of records looked up by a key: `find` is the first record with the key, `modify` rewrites
the records with the key and leaves the others. When the rewriting keeps keys, reading after
writing is a case split on the key (`find_modify`), and the list of keys does not change.
-/

namespace Keyed

variable {α κ : Type*} [DecidableEq κ] (key : α → κ)

/-- The first record with key `k`. -/
def find (l : List α) (k : κ) : Option α := l.find? fun a => key a = k

/-- Rewrite the records with key `k`. -/
def modify (l : List α) (k : κ) (f : α → α) : List α :=
  l.map fun a => if key a = k then f a else a

theorem find_map {β : Type*} {key' : β → κ} {f : α → β} (hf : ∀ a, key' (f a) = key a)
    (l : List α) (k : κ) : find key' (l.map f) k = (find key l k).map f := by
  unfold find
  rw [List.find?_map]
  have : ((fun a => decide (key' a = k)) ∘ f) = fun a => decide (key a = k) := by
    funext a; simp [hf]
  rw [this]

theorem find_mem {l : List α} {k : κ} {a : α} (h : find key l k = some a) : a ∈ l :=
  List.mem_of_find?_eq_some h

theorem find_key {l : List α} {k : κ} {a : α} (h : find key l k = some a) : key a = k := by
  have := List.find?_some h
  simpa using this

theorem find_modify {f : α → α} {k : κ} (hf : ∀ a, key (f a) = key a) (l : List α) (k' : κ) :
    find key (modify key l k f) k' =
      if k' = k then (find key l k').map f else find key l k' := by
  have hg : ∀ a, key (if key a = k then f a else a) = key a := by
    intro a; split <;> simp [hf]
  rw [modify, find_map key hg]
  cases h : find key l k' with
  | none => simp
  | some a =>
    have hk := find_key key h
    by_cases hkk : k' = k
    · subst hkk; simp [hk]
    · simp [hk, hkk]

theorem find_modify_self {f : α → α} {k : κ} (hf : ∀ a, key (f a) = key a) (l : List α) :
    find key (modify key l k f) k = (find key l k).map f := by
  rw [find_modify key hf, if_pos rfl]

theorem find_modify_other {f : α → α} {k k' : κ} (hf : ∀ a, key (f a) = key a) (l : List α)
    (h : k' ≠ k) : find key (modify key l k f) k' = find key l k' := by
  rw [find_modify key hf, if_neg h]

theorem map_modify {β : Type*} {g : α → β} {f : α → α} (hg : ∀ a, g (f a) = g a) (l : List α)
    (k : κ) : (modify key l k f).map g = l.map g := by
  rw [modify, List.map_map]
  apply List.map_congr_left
  intro a _
  simp only [Function.comp_apply]
  split <;> simp [hg]

theorem mem_modify {f : α → α} {l : List α} {k : κ} {b : α} :
    b ∈ modify key l k f ↔ ∃ a ∈ l, (if key a = k then f a else a) = b := by
  simp [modify]

theorem find_isSome_iff {l : List α} {k : κ} : (find key l k).isSome ↔ k ∈ l.map key := by
  simp [find, List.find?_isSome]

theorem find_eq_none_iff {l : List α} {k : κ} : find key l k = none ↔ k ∉ l.map key := by
  rw [← find_isSome_iff, Option.not_isSome_iff_eq_none]

theorem find_of_mem {l : List α} (hnd : (l.map key).Nodup) {a : α} (h : a ∈ l) :
    find key l (key a) = some a := by
  induction l with
  | nil => cases h
  | cons b l ih =>
    simp only [List.map_cons, List.nodup_cons] at hnd
    unfold find
    rw [List.find?_cons]
    rcases List.mem_cons.mp h with rfl | h
    · simp
    · have hne : key b ≠ key a := by
        intro he
        exact hnd.1 (he ▸ List.mem_map_of_mem h)
      simp only [hne, decide_false]
      exact ih hnd.2 h

theorem forall_mem_modify {f : α → α} {l : List α} (hnd : (l.map key).Nodup) {k : κ} {a : α}
    (ha : find key l k = some a) {P : α → Prop} (hP : ∀ b ∈ l, P b) (hf : P (f a)) :
    ∀ b ∈ modify key l k f, P b := by
  intro b hb
  obtain ⟨c, hc, rfl⟩ := (mem_modify key).mp hb
  split
  · rename_i hk
    have hfind := find_of_mem key hnd hc
    rw [hk, ha] at hfind
    cases hfind
    exact hf
  · exact hP c hc

/-- What a rewriting leaves to see of the records depends on it at the record it finds. -/
theorem map_modify_congr {β : Type*} {φ : α → β} {f g : α → α} {l : List α}
    (hnd : (l.map key).Nodup) {k : κ} {a : α} (ha : find key l k = some a)
    (h : φ (f a) = φ (g a)) : (modify key l k f).map φ = (modify key l k g).map φ := by
  rw [modify, modify, List.map_map, List.map_map]
  apply List.map_congr_left
  intro b hb
  simp only [Function.comp_apply]
  by_cases hk : key b = k
  · have hfind := find_of_mem key hnd hb
    rw [hk, ha] at hfind
    cases hfind
    rw [if_pos hk, if_pos hk, h]
  · rw [if_neg hk, if_neg hk]

/-- Lists that agree on a part of each record that determines its key agree on the part of
every lookup. -/
theorem find_congr_map {β : Type*} {g : α → β} {k' : β → κ} (hg : ∀ a, k' (g a) = key a)
    {l l' : List α} (h : l'.map g = l.map g) (k : κ) :
    (find key l' k).map g = (find key l k).map g := by
  have hmap : ∀ l : List α, (find key l k).map g = (l.map g).find? fun b => k' b = k := by
    intro l
    unfold find
    rw [List.find?_map]
    have : ((fun b => decide (k' b = k)) ∘ g) = fun a => decide (key a = k) := by
      funext a; simp [hg]
    rw [this]
  rw [hmap, hmap, h]

theorem modify_modify {f g : α → α} (hf : ∀ a, key (f a) = key a) (l : List α) (k : κ) :
    modify key (modify key l k f) k g = modify key l k (g ∘ f) := by
  rw [modify, modify, modify, List.map_map]
  apply List.map_congr_left
  intro a _
  by_cases hk : key a = k
  · simp [hk, hf]
  · simp [hk]

theorem modify_modify_ne {f g : α → α} (hf : ∀ a, key (f a) = key a) (l : List α) {k k' : κ}
    (hne : k ≠ k') :
    modify key (modify key l k f) k' g =
      l.map fun a => if key a = k then f a else if key a = k' then g a else a := by
  rw [modify, modify, List.map_map]
  apply List.map_congr_left
  intro a _
  by_cases hk : key a = k
  · simp [hk, hf, hne]
  · simp [hk]

/-! ## Sums over the records with one key -/

section Sum

variable {M : Type*} [AddCommMonoid M]

theorem sum_ite_of_notMem {l : List α} {k : κ} (h : k ∉ l.map key) (g : α → M) :
    (l.map fun a => if key a = k then g a else 0).sum = 0 := by
  apply List.sum_eq_zero
  intro x hx
  obtain ⟨a, ha, rfl⟩ := List.mem_map.mp hx
  have hk : key a ≠ k := by
    rintro rfl
    exact h (List.mem_map_of_mem ha)
  exact if_neg hk

theorem sum_ite_of_mem {l : List α} (hnd : (l.map key).Nodup) {a : α} (ha : a ∈ l) (g : α → M) :
    (l.map fun b => if key b = key a then g b else 0).sum = g a := by
  induction l with
  | nil => cases ha
  | cons b l ih =>
    simp only [List.map_cons, List.nodup_cons] at hnd
    rw [List.map_cons, List.sum_cons]
    rcases List.mem_cons.mp ha with rfl | ha
    · rw [if_pos rfl, sum_ite_of_notMem key hnd.1, add_zero]
    · have hne : key b ≠ key a := by
        intro he
        exact hnd.1 (he ▸ List.mem_map_of_mem ha)
      rw [if_neg hne, zero_add, ih hnd.2 ha]

/-- Adding up records by their keys, or over all of them. -/
theorem sum_map_find {l : List α} (hnd : (l.map key).Nodup) {keys : List κ} (hkeys : keys.Nodup)
    (g : α → M) :
    (keys.map fun k => (find key l k).elim 0 g).sum =
      (l.map fun a => if key a ∈ keys then g a else 0).sum := by
  induction keys with
  | nil => simp
  | cons k keys ih =>
    obtain ⟨hk, hkeys⟩ := List.nodup_cons.mp hkeys
    have hone : (find key l k).elim 0 g = (l.map fun a => if key a = k then g a else 0).sum := by
      cases ha : find key l k with
      | none => exact (sum_ite_of_notMem key ((find_eq_none_iff key).mp ha) g).symm
      | some a =>
        have hkey : key a = k := find_key key ha
        rw [← hkey]
        exact (sum_ite_of_mem key hnd (find_mem key ha) g).symm
    rw [List.map_cons, List.sum_cons, hone, ih hkeys, ← List.sum_map_add]
    congr 1
    apply List.map_congr_left
    intro a _
    by_cases ha : key a = k
    · subst ha
      rw [if_pos rfl, if_pos List.mem_cons_self, if_neg hk, add_zero]
    · by_cases hmem : key a ∈ keys
      · rw [if_neg ha, if_pos hmem, if_pos (List.mem_cons_of_mem _ hmem), zero_add]
      · have hnot : key a ∉ k :: keys := by
          rw [List.mem_cons]
          exact fun h => h.elim ha hmem
        rw [if_neg ha, if_neg hmem, if_neg hnot, add_zero]

/-- Rewriting one record changes a sum over all of them by the change of its term. -/
theorem sum_map_modify {l : List α} (hnd : (l.map key).Nodup) {k : κ} {a : α}
    (ha : find key l k = some a) (f : α → α) (g : α → M) :
    ((modify key l k f).map g).sum + g a = (l.map g).sum + g (f a) := by
  induction l with
  | nil => cases ha
  | cons b l ih =>
    simp only [List.map_cons, List.nodup_cons] at hnd
    unfold find at ha
    rw [List.find?_cons] at ha
    unfold modify at ih ⊢
    simp only [List.map_cons, List.sum_cons]
    by_cases hb : key b = k
    · simp only [hb, decide_true, Option.some.injEq] at ha
      subst ha
      have hrest : (l.map fun x => if key x = k then f x else x) = l := by
        refine (List.map_congr_left fun x hx => ?_).trans (List.map_id l)
        have hne : key x ≠ k := by
          rintro rfl
          exact hnd.1 (hb ▸ List.mem_map_of_mem hx)
        exact if_neg hne
      rw [if_pos hb, hrest]
      ac_rfl
    · simp only [hb, decide_false] at ha
      rw [if_neg hb, add_assoc, ih hnd.2 ha, add_assoc]

end Sum

end Keyed
