import Mathlib.Data.List.Sort
import Mathlib.Data.List.Nodup
import Mathlib.Order.Lattice
import Mathlib.Data.Prod.Lex

/-!
# Lib.Ranking

The places of a ranked list, counted from one. An item is found by its id; of several items with
one id the last one counts. In a list that is sorted by a key and has distinct ids, the places are
the numbers from one on, a smaller key comes first, and the item with the least key has the first
place.
-/

namespace Ranking

variable {α ι β : Type} [DecidableEq ι]

/-- The place of the item with the id. -/
def place (id : α → ι) (ranked : List α) (i : ι) : Option Nat :=
  ((ranked.zipIdx 1).filter fun entry => id entry.1 = i).getLast?.map Prod.snd

section Places

variable {id : α → ι} {ranked : List α}

theorem filter_zipIdx_nil {l : List α} {i : ι} (h : ∀ x ∈ l, id x ≠ i) (n : Nat) :
    ((l.zipIdx n).filter fun entry => id entry.1 = i) = [] := by
  rw [List.filter_eq_nil_iff]
  intro entry hentry hid
  exact h entry.1 (List.fst_mem_of_mem_zipIdx hentry) (of_decide_eq_true hid)

theorem place_append_cons {l₁ l₂ : List α} {x : α} (hnd : ((l₁ ++ x :: l₂).map id).Nodup) :
    place id (l₁ ++ x :: l₂) (id x) = some (l₁.length + 1) := by
  rw [List.map_append, List.map_cons, List.nodup_append] at hnd
  obtain ⟨_, hnd₂, hdisjoint⟩ := hnd
  have hleft : ∀ y ∈ l₁, id y ≠ id x := fun y hy =>
    hdisjoint (id y) (List.mem_map_of_mem hy) (id x) List.mem_cons_self
  have hright : ∀ y ∈ l₂, id y ≠ id x := by
    intro y hy heq
    exact (List.nodup_cons.mp hnd₂).1 (heq ▸ List.mem_map_of_mem hy)
  unfold place
  rw [List.zipIdx_append, List.filter_append, filter_zipIdx_nil hleft, List.zipIdx_cons,
    List.filter_cons, if_pos (decide_eq_true rfl), filter_zipIdx_nil hright]
  simp [Nat.add_comm]

theorem place_getElem (hnd : (ranked.map id).Nodup) {n : Nat} (h : n < ranked.length) :
    place id ranked (id ranked[n]) = some (n + 1) := by
  have hsplit : ranked = ranked.take n ++ ranked[n] :: ranked.drop (n + 1) := by
    rw [List.getElem_cons_drop, List.take_append_drop]
  have hplace := place_append_cons (hsplit ▸ hnd)
  rw [← hsplit, List.length_take, Nat.min_eq_left h.le] at hplace
  exact hplace

theorem place_of_mem (hnd : (ranked.map id).Nodup) {x : α} (hx : x ∈ ranked) :
    ∃ n, ∃ h : n < ranked.length, ranked[n] = x ∧ place id ranked (id x) = some (n + 1) := by
  obtain ⟨n, h, rfl⟩ := List.mem_iff_getElem.mp hx
  exact ⟨n, h, rfl, place_getElem hnd h⟩

theorem map_place (hnd : (ranked.map id).Nodup) :
    ranked.map (fun x => place id ranked (id x)) = (List.range' 1 ranked.length).map some := by
  apply List.ext_getElem
  · simp
  · intro n h _
    rw [List.getElem_map, List.getElem_map, List.getElem_range',
      place_getElem hnd (by simpa using h)]
    congr 1
    omega

end Places

section Keys

variable [LinearOrder β] {id : α → ι} {key : α → β} {ranked : List α}
  (hsorted : ranked.Pairwise fun x y => key x ≤ key y) (hnd : (ranked.map id).Nodup)

include hsorted hnd

theorem place_lt {x y : α} (hx : x ∈ ranked) (hy : y ∈ ranked) (hlt : key x < key y) :
    ∃ m n, place id ranked (id x) = some m ∧ place id ranked (id y) = some n ∧ m < n := by
  obtain ⟨m, hm, rfl, hplace⟩ := place_of_mem hnd hx
  obtain ⟨n, hn, rfl, hplace'⟩ := place_of_mem hnd hy
  refine ⟨m + 1, n + 1, hplace, hplace', ?_⟩
  rcases Nat.lt_trichotomy m n with h | h | h
  · omega
  · subst h
    exact absurd hlt (lt_irrefl _)
  · have hle := List.pairwise_iff_getElem.mp hsorted n m hn hm h
    exact absurd hlt (not_lt.mpr hle)

theorem place_first {x : α} (hx : x ∈ ranked) (hleast : ∀ y ∈ ranked, y ≠ x → key x < key y) :
    place id ranked (id x) = some 1 := by
  obtain ⟨n, hn, rfl, hplace⟩ := place_of_mem hnd hx
  rcases Nat.eq_zero_or_pos n with rfl | hpos
  · exact hplace
  · have hfirst : 0 < ranked.length := hpos.trans hn
    have hother : ranked[0] ≠ ranked[n] := by
      intro heq
      have hplaceFirst := place_getElem hnd hfirst
      rw [heq, hplace] at hplaceFirst
      cases hplaceFirst
      omega
    have hle := List.pairwise_iff_getElem.mp hsorted 0 n hfirst hn hpos
    exact absurd (hleast _ (List.getElem_mem hfirst) hother) (not_lt.mpr hle)

end Keys

theorem pairwise_sorted [LinearOrder β] {key : α → β} {before : α → α → Prop} [DecidableRel before]
    (h : ∀ x y, before x y ↔ key x ≤ key y) (l : List α) :
    (l.insertionSort before).Pairwise fun x y => key x ≤ key y := by
  have htotal : Std.Total before := ⟨fun x y => by
    rw [h, h]
    exact le_total _ _⟩
  have htrans : IsTrans α before := ⟨fun x y z hxy hyz => by
    rw [h] at *
    exact hxy.trans hyz⟩
  exact (List.pairwise_insertionSort before l).imp fun hxy => (h _ _).mp hxy

/-! ## Comparators -/

section Comparators

variable [LinearOrder α] [LinearOrder β] {a b : α} {x y : β}

/-- A comparator that puts the higher one first and leaves ties to the next criterion. -/
theorem higher_first_iff {rest : Bool} (h : rest = true ↔ x ≤ y) :
    (if b ≠ a then decide (b ≤ a) else rest) = true ↔
      toLex (OrderDual.toDual a, x) ≤ toLex (OrderDual.toDual b, y) := by
  rw [Prod.Lex.toLex_le_toLex, OrderDual.toDual_lt_toDual, OrderDual.toDual_inj]
  by_cases heq : b = a
  · rw [if_neg (not_not.mpr heq), h]
    constructor
    · exact fun hle => .inr ⟨heq.symm, hle⟩
    · rintro (hlt | ⟨_, hle⟩)
      · exact absurd heq hlt.ne
      · exact hle
  · rw [if_pos heq, decide_eq_true_iff]
    constructor
    · exact fun hle => .inl (lt_of_le_of_ne hle heq)
    · rintro (hlt | ⟨hab, _⟩)
      · exact hlt.le
      · exact absurd hab.symm heq

theorem unmarked_first_iff {left right : Bool} {rest : Bool} (h : rest = true ↔ x ≤ y) :
    (if left ≠ right then !left else rest) = true ↔ toLex (left, x) ≤ toLex (right, y) := by
  rw [Prod.Lex.toLex_le_toLex]
  cases left <;> cases right <;> simp [h]

theorem toLex_higher_lt_iff :
    toLex (OrderDual.toDual a, x) < toLex (OrderDual.toDual b, y) ↔ b < a ∨ a = b ∧ x < y := by
  rw [Prod.Lex.toLex_lt_toLex, OrderDual.toDual_lt_toDual, OrderDual.toDual_inj]

end Comparators

end Ranking
