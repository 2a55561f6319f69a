import Mathlib.Data.List.Rotate
import Mathlib.Data.List.Nodup

/-!
# Lib.Ring

The entries of a list as a ring. `after l a` goes once round the ring: from the entry after `a`
to `a` itself. A search for the next entry with a property is a search in it.
-/

namespace Ring

variable {α : Type*} [DecidableEq α] {l us vs : List α} {a b : α}

/-- Once round the ring, from the entry after `a` to `a`. -/
def after (l : List α) (a : α) : List α := l.rotate (l.idxOf a + 1)

theorem after_append {xs ys : List α} (h : a ∉ xs) :
    after (xs ++ a :: ys) a = ys ++ (xs ++ [a]) := by
  have hindex : (xs ++ a :: ys).idxOf a = xs.length := by
    rw [List.idxOf_append_of_notMem h, List.idxOf_cons_self, Nat.add_zero]
  have hlist : xs ++ a :: ys = (xs ++ [a]) ++ ys := by simp
  have hlength : xs.length + 1 = (xs ++ [a]).length := by simp
  rw [after, hindex, hlength, hlist, List.rotate_append_length_eq]

@[simp] theorem mem_after : b ∈ after l a ↔ b ∈ l := List.mem_rotate

theorem after_nodup (h : l.Nodup) : (after l a).Nodup := List.nodup_rotate.mpr h

theorem after_eq_concat (h : a ∈ l) : ∃ us, after l a = us ++ [a] := by
  obtain ⟨xs, ys, rfl, hnot⟩ := List.eq_append_cons_of_mem h
  exact ⟨ys ++ xs, by rw [after_append hnot, List.append_assoc]⟩

/-- It does not matter where the ring is cut open. -/
theorem after_rotate_one (hnd : l.Nodup) (hb : b ∈ l) : after (l.rotate 1) b = after l b := by
  cases l with
  | nil => rfl
  | cons x t =>
    obtain ⟨hx, _⟩ := List.nodup_cons.mp hnd
    rw [List.rotate_cons_succ, List.rotate_zero]
    rcases List.mem_cons.mp hb with rfl | hbt
    · have hfirst : after ([] ++ b :: t) b = t ++ ([] ++ [b]) := after_append List.not_mem_nil
      have hlast : after (t ++ b :: []) b = [] ++ (t ++ [b]) := after_append hx
      exact hlast.trans hfirst.symm
    · obtain ⟨xs, ys, rfl, hnot⟩ := List.eq_append_cons_of_mem hbt
      have hbx : b ≠ x := by
        rintro rfl
        exact hx hbt
      have hfirst : after ((x :: xs) ++ b :: ys) b = ys ++ ((x :: xs) ++ [b]) :=
        after_append fun hmem => (List.mem_cons.mp hmem).elim hbx hnot
      have hlast : after (xs ++ b :: (ys ++ [x])) b = (ys ++ [x]) ++ (xs ++ [b]) :=
        after_append hnot
      simp only [List.append_assoc, List.cons_append, List.nil_append] at hfirst hlast ⊢
      exact hlast.trans hfirst.symm

theorem after_rotate (hnd : l.Nodup) (hb : b ∈ l) (n : ℕ) :
    after (l.rotate n) b = after l b := by
  induction n with
  | zero => rw [List.rotate_zero]
  | succ n ih =>
    rw [← List.rotate_rotate, after_rotate_one (List.nodup_rotate.mpr hnd)
      (List.mem_rotate.mpr hb), ih]

/-- Going round from a later entry is going on from it. -/
theorem after_after (hnd : l.Nodup) (h : after l a = us ++ b :: vs) :
    after l b = vs ++ (us ++ [b]) := by
  have hb : b ∈ l := mem_after.mp (h ▸ List.mem_append_right us List.mem_cons_self)
  have hnot : b ∉ us := by
    have hnd' : (us ++ b :: vs).Nodup := h ▸ after_nodup hnd
    rw [List.nodup_append] at hnd'
    exact fun hmem => hnd'.2.2 b hmem b List.mem_cons_self rfl
  calc after l b = after (after l a) b := (after_rotate hnd hb _).symm
    _ = vs ++ (us ++ [b]) := by rw [h, after_append hnot]

theorem after_end (hnd : l.Nodup) (ha : a ∈ l) (h : after l a = us ++ b :: vs) :
    b = a ∧ vs = [] ∨ b ≠ a ∧ a ∈ vs := by
  obtain ⟨ws, hlast⟩ := after_eq_concat ha
  rcases vs.eq_nil_or_concat' with rfl | ⟨vs', y, rfl⟩
  · obtain ⟨_, hends⟩ := List.append_inj' (h.symm.trans hlast) rfl
    exact .inl ⟨(List.cons.inj hends).1, rfl⟩
  · have hends : (us ++ b :: vs') ++ [y] = ws ++ [a] := by
      rw [← hlast, h, List.append_assoc, List.cons_append]
    obtain ⟨_, hy⟩ := List.append_inj' hends rfl
    obtain rfl : y = a := (List.cons.inj hy).1
    have hmem : y ∈ vs' ++ [y] := List.mem_append_right _ (List.mem_singleton.mpr rfl)
    refine .inr ⟨?_, hmem⟩
    rintro rfl
    have hnd' : (us ++ b :: (vs' ++ [b])).Nodup := h ▸ after_nodup hnd
    rw [List.nodup_append, List.nodup_cons] at hnd'
    exact hnd'.2.1.1 hmem

/-! ## The next entry with a property -/

/-- The next entry with the property, `a` itself last of all. -/
def next (P : α → Bool) (l : List α) (a : α) : Option α := (after l a).find? P

section Next

variable {P : α → Bool}

theorem next_eq_some_iff : next P l a = some b ↔
    P b = true ∧ ∃ us vs, after l a = us ++ b :: vs ∧ ∀ x ∈ us, P x = false := by
  simp [next, List.find?_eq_some_iff_append]

theorem next_eq_none_iff : next P l a = none ↔ ∀ x ∈ l, P x = false := by
  simp [next]

/-- No entry on the way from `a` to `b` has the property. -/
def Clear (P : α → Bool) (l : List α) (a b : α) : Prop :=
  ∃ us vs, after l a = us ++ b :: vs ∧ ∀ x ∈ us, P x = false

theorem clear_next (h : next P l a = some b) : Clear P l a b := (next_eq_some_iff.mp h).2

theorem Clear.only (hnd : l.Nodup) (ha : a ∈ l) (h : Clear P l a a) :
    ∀ x ∈ l, P x = true → x = a := by
  obtain ⟨us, vs, hsplit, hbefore⟩ := h
  have hvs : vs = [] := by
    rcases after_end hnd ha hsplit with ⟨_, hvs⟩ | ⟨hne, _⟩
    · exact hvs
    · exact absurd rfl hne
  intro x hx hP
  rw [← mem_after (a := a), hsplit, hvs, List.mem_append, List.mem_singleton] at hx
  rcases hx with hx | hx
  · rw [hbefore x hx] at hP
    cases hP
  · exact hx

/-- When `b` loses the property and `a` keeps it, the search goes on from `b` and the way from
`a` stays clear. -/
theorem Clear.next {P' : α → Bool} (hnd : l.Nodup) (ha : a ∈ l) (h : Clear P l a b)
    (hne : b ≠ a) (hle : ∀ x, P' x = true → P x = true) (hb : P' b = false)
    (hPa : P' a = true) : ∃ c, Ring.next P' l b = some c ∧ Clear P' l a c := by
  obtain ⟨us, vs, hsplit, hbefore⟩ := h
  have hmem : a ∈ vs := by
    rcases after_end hnd ha hsplit with ⟨rfl, _⟩ | ⟨_, hmem⟩
    · exact absurd rfl hne
    · exact hmem
  obtain ⟨c, hfind⟩ : ∃ c, vs.find? P' = some c := by
    rw [← Option.isSome_iff_exists, List.find?_isSome]
    exact ⟨a, hmem, hPa⟩
  obtain ⟨hPc, xs, ys, rfl, hxs⟩ := List.find?_eq_some_iff_append.mp hfind
  refine ⟨c, ?_, us ++ b :: xs, ys, ?_, ?_⟩
  · rw [Ring.next, after_after hnd hsplit, List.find?_append, hfind]
    rfl
  · rw [hsplit, List.append_assoc, List.cons_append]
  · intro x hx
    rw [List.mem_append, List.mem_cons] at hx
    rcases hx with hx | rfl | hx
    · cases hPx : P' x with
      | false => rfl
      | true => rw [← hbefore x hx, hle x hPx]
    · exact hb
    · simpa using hxs x hx

end Next

end Ring
