import LivePoly.Lib.Keyed

/-!
# Lib.Upsert

Inserting a row into a table with a unique key, or updating the row that is there. A look-up finds
the new row under its own key and what it found before under any other.
-/

namespace Upsert

variable {α κ : Type} [DecidableEq κ] (key : α → κ)

/-- `merge` of the row that is there and the new one is what the update leaves. -/
def upsert (merge : α → α → α) (row : α) (l : List α) : List α :=
  if l.any fun other => key other = key row then
    l.map fun other => if key other = key row then merge other row else other
  else l ++ [row]

section Lookups

variable {key} {row : α} {l : List α}

theorem any_iff_find : (l.any fun other => key other = key row) = true ↔
    (Keyed.find key l (key row)).isSome := by
  rw [List.any_eq_true, Keyed.find_isSome_iff, List.mem_map]
  simp only [decide_eq_true_eq]

section Keys

variable (merge : α → α → α)
  (hmerge : ∀ other, key other = key row → key (merge other row) = key row)

include hmerge

theorem merge_key (other : α) :
    key (if key other = key row then merge other row else other) = key other := by
  split
  · rename_i hkey
    exact (hmerge other hkey).trans hkey.symm
  · rfl

theorem find_upsert_other {k : κ} (hk : k ≠ key row) :
    Keyed.find key (upsert key merge row l) k = Keyed.find key l k := by
  unfold upsert
  split
  · rw [Keyed.find_map key (merge_key merge hmerge)]
    cases hfind : Keyed.find key l k with
    | none => rfl
    | some other =>
      have hother : key other ≠ key row := (Keyed.find_key key hfind).trans_ne hk
      rw [Option.map_some, if_neg hother]
  · unfold Keyed.find
    rw [List.find?_append]
    simp [hk.symm]

theorem find_upsert_self : Keyed.find key (upsert key merge row l) (key row) =
    some ((Keyed.find key l (key row)).elim row fun other => merge other row) := by
  unfold upsert
  split
  · rename_i hany
    obtain ⟨other, hfind⟩ := Option.isSome_iff_exists.mp (any_iff_find.mp hany)
    rw [Keyed.find_map key (merge_key merge hmerge), hfind, Option.map_some,
      if_pos (Keyed.find_key key hfind)]
    rfl
  · rename_i hnone
    have hfind : Keyed.find key l (key row) = none :=
      Option.not_isSome_iff_eq_none.mp fun h => hnone (any_iff_find.mpr h)
    have hlist : l.find? (fun a => key a = key row) = none := hfind
    rw [hfind]
    unfold Keyed.find
    rw [List.find?_append, hlist]
    simp

end Keys

theorem mem_upsert {merge : α → α → α} {x : α} (h : x ∈ upsert key merge row l) :
    x = row ∨ x ∈ l ∧ key x ≠ key row ∨ ∃ other ∈ l, key other = key row ∧ x = merge other row := by
  unfold upsert at h
  split at h
  · obtain ⟨other, hother, rfl⟩ := List.mem_map.mp h
    split
    · rename_i hkey
      exact .inr (.inr ⟨other, hother, hkey, rfl⟩)
    · rename_i hkey
      exact .inr (.inl ⟨hother, hkey⟩)
  · rename_i hnone
    rcases List.mem_append.mp h with hx | hx
    · refine .inr (.inl ⟨hx, fun hkey => hnone ?_⟩)
      exact List.any_eq_true.mpr ⟨x, hx, decide_eq_true hkey⟩
    · exact .inl (List.mem_singleton.mp hx)

end Lookups

end Upsert
