import Mathlib.Data.List.Nodup

/-!
# Lib.Distinct

The distinct entries of a list in the order of their first occurrence, as a set that remembers
insertion order lists them.
-/

namespace Distinct

variable {α : Type} [DecidableEq α]

/-- Append an entry that is not there yet. -/
def insert (entries : List α) (a : α) : List α :=
  if a ∈ entries then entries else entries ++ [a]

/-- The distinct entries of a list. -/
def distinct (l : List α) : List α := l.foldl insert []

theorem mem_insert {entries : List α} {a b : α} : b ∈ insert entries a ↔ b ∈ entries ∨ b = a := by
  unfold insert
  split
  · rename_i h
    constructor
    · exact Or.inl
    · rintro (hb | rfl)
      · exact hb
      · exact h
  · simp

theorem insert_nodup {entries : List α} (h : entries.Nodup) (a : α) : (insert entries a).Nodup := by
  unfold insert
  split
  · exact h
  · rename_i ha
    rw [← List.concat_eq_append]
    exact h.concat ha

theorem mem_foldl_insert {l entries : List α} {b : α} :
    b ∈ l.foldl insert entries ↔ b ∈ entries ∨ b ∈ l := by
  induction l generalizing entries with
  | nil => simp
  | cons a l ih => rw [List.foldl_cons, ih, mem_insert, List.mem_cons, or_assoc]

theorem foldl_insert_nodup {l entries : List α} (h : entries.Nodup) :
    (l.foldl insert entries).Nodup := by
  induction l generalizing entries with
  | nil => exact h
  | cons a l ih => exact ih (insert_nodup h a)

@[simp] theorem mem_distinct {l : List α} {b : α} : b ∈ distinct l ↔ b ∈ l := by
  simp [distinct, mem_foldl_insert]

theorem distinct_nodup (l : List α) : (distinct l).Nodup :=
  foldl_insert_nodup List.nodup_nil

theorem distinct_concat (l : List α) (a : α) :
    distinct (l ++ [a]) = insert (distinct l) a := by
  unfold distinct
  rw [List.foldl_append]
  rfl

end Distinct
