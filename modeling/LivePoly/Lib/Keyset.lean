import Mathlib.Data.List.Sort

/-!
# Lib.Keyset

Queries that sort and filter rows, and listings in pages: a page is a number of rows behind a
cursor, and the cursor of its last row leads to the next one. A cursor may forget some of its row.
As long as it never leads back, following the cursors gives every row once exactly if no cursor
passes over a row.
-/

namespace Keyset

/-! ## Sorted rows -/

section Sorted

variable {α : Type} {r : α → α → Prop} [DecidableRel r] [Std.Total r] [IsTrans α r]

/-- There is one way to sort rows of which no two are in both orders. -/
theorem insertionSort_eq {rows sorted : List α} (hperm : rows.Perm sorted)
    (hsorted : sorted.Pairwise r)
    (hanti : ∀ a ∈ sorted, ∀ b ∈ sorted, r a b → r b a → a = b) :
    rows.insertionSort r = sorted := by
  have hmine : (rows.insertionSort r).Perm sorted := (List.perm_insertionSort r rows).trans hperm
  refine List.Perm.eq_of_pairwise ?_ (List.pairwise_insertionSort r rows) hsorted hmine
  intro a b ha hb
  exact hanti a (hmine.mem_iff.mp ha) b hb

theorem insertionSort_filter (p : α → Bool) {rows : List α}
    (hanti : ∀ a ∈ rows, ∀ b ∈ rows, r a b → r b a → a = b) :
    (rows.filter p).insertionSort r = (rows.insertionSort r).filter p := by
  have hperm := (List.perm_insertionSort r rows).symm
  refine insertionSort_eq (hperm.filter p) ((List.pairwise_insertionSort r rows).filter p) ?_
  intro a ha b hb
  exact hanti a (hperm.mem_iff.mpr (List.mem_of_mem_filter ha)) b
    (hperm.mem_iff.mpr (List.mem_of_mem_filter hb))

end Sorted

/-! ## Pages -/

structure Page (α κ : Type) where
  items : List α
  nextCursor : Option κ

/-- Following the cursors from one on to the last page lists the rows. -/
inductive Followed {α κ : Type} (page : Option κ → Page α κ) : Option κ → List α → Prop
  | last {cursor} (h : (page cursor).nextCursor = none) : Followed page cursor (page cursor).items
  | next {cursor cursor' rows} (h : (page cursor).nextCursor = some cursor')
      (hrest : Followed page (some cursor') rows) :
      Followed page cursor ((page cursor).items ++ rows)

theorem Followed.unique {α κ : Type} {page : Option κ → Page α κ} {cursor : Option κ}
    {rows rows' : List α} (h : Followed page cursor rows) (h' : Followed page cursor rows') :
    rows = rows' := by
  induction h generalizing rows' with
  | last hlast =>
    cases h' with
    | last => rfl
    | next hnext => cases hlast.symm.trans hnext
  | next hnext _ ih =>
    cases h' with
    | last hlast => cases hlast.symm.trans hnext
    | next hnext' hrest' =>
      cases hnext.symm.trans hnext'
      rw [ih hrest']

section Listing

variable {α κ : Type} (below : κ → α → Bool) (cursorOf : α → κ) (limit : Nat)

/-- The page of the rows that come. -/
def pageOf (rows : List α) : Page α κ where
  items := rows.take limit
  nextCursor := if limit < rows.length then (rows.take limit).getLast?.map cursorOf else none

/-- The page behind a cursor, of all rows in their order. -/
def pageAfter (rows : List α) : Option κ → Page α κ
  | none => pageOf cursorOf limit rows
  | some cursor => pageOf cursorOf limit (rows.filter (below cursor))

/-- The order of the rows, and what a cursor of one of them leads to: only later rows, and with a
row all that are later. -/
structure Listing (after : α → α → Prop) (rows : List α) : Prop where
  ordered : rows.Pairwise after
  onward : ∀ x ∈ rows, ∀ y ∈ rows, below (cursorOf x) y = true → after x y
  closed : ∀ cursor, ∀ x ∈ rows, ∀ y ∈ rows, below cursor x = true → after x y →
    below cursor y = true
  asymm : ∀ x ∈ rows, ∀ y ∈ rows, after x y → ¬ after y x

/-- The cursor of the last row of each full page leads to the row after it. -/
def Complete (rows : List α) : Prop :=
  ∀ k (last next : α), rows[(k + 1) * limit - 1]? = some last → rows[(k + 1) * limit]? = some next →
    below (cursorOf last) next = true

variable {below cursorOf limit} {after : α → α → Prop} {rows : List α}

theorem pageOf_take (rows : List α) :
    pageOf cursorOf limit (rows.take (limit + 1)) = pageOf cursorOf limit rows := by
  have htake : (rows.take (limit + 1)).take limit = rows.take limit := by
    rw [List.take_take, Nat.min_eq_left (Nat.le_succ limit)]
  have hmore : limit < (rows.take (limit + 1)).length ↔ limit < rows.length := by
    rw [List.length_take]
    omega
  simp only [pageOf, htake, hmore]

/-- Where a filter lets everything behind a row pass that it lets pass, it cuts off the front. -/
theorem filter_suffix {p : α → Bool} (hordered : rows.Pairwise after)
    (hclosed : ∀ x ∈ rows, ∀ y ∈ rows, p x = true → after x y → p y = true) :
    rows.filter p <:+ rows := by
  induction rows with
  | nil => exact List.suffix_refl []
  | cons x rows ih =>
    obtain ⟨hx, hrows⟩ := List.pairwise_cons.mp hordered
    by_cases hp : p x = true
    · have hall : ∀ y ∈ x :: rows, p y = true := by
        intro y hy
        rcases List.mem_cons.mp hy with rfl | hy
        · exact hp
        · exact hclosed x List.mem_cons_self y (List.mem_cons_of_mem _ hy) hp (hx y hy)
      exact ⟨[], List.filter_eq_self.mpr hall⟩
    · rw [List.filter_cons_of_neg hp]
      have hrest := ih hrows fun a ha b hb =>
        hclosed a (List.mem_cons_of_mem _ ha) b (List.mem_cons_of_mem _ hb)
      exact hrest.trans (List.suffix_cons x rows)

theorem complete_iff {last next : α} (hlast : rows[limit - 1]? = some last)
    (hnext : rows[limit]? = some next) (hlimit : 0 < limit) :
    Complete below cursorOf limit rows ↔
      below (cursorOf last) next = true ∧ Complete below cursorOf limit (rows.drop limit) := by
  constructor
  · intro h
    refine ⟨h 0 last next (by rwa [Nat.zero_add, Nat.one_mul]) (by rwa [Nat.zero_add, Nat.one_mul]),
      fun k x y hx hy => ?_⟩
    rw [List.getElem?_drop] at hx hy
    have hsucc : (k + 1 + 1) * limit = (k + 1) * limit + limit := Nat.succ_mul _ _
    have hpos : 0 < (k + 1) * limit := Nat.mul_pos (Nat.succ_pos k) hlimit
    refine h (k + 1) x y ?_ ?_
    · rw [hsucc, ← hx]
      congr 1
      omega
    · rw [hsucc, ← hy]
      congr 1
      omega
  · rintro ⟨hfirst, hrest⟩ k x y hx hy
    cases k with
    | zero =>
      rw [Nat.zero_add, Nat.one_mul] at hx hy
      cases hlast.symm.trans hx
      cases hnext.symm.trans hy
      exact hfirst
    | succ k =>
      have hsucc : (k + 1 + 1) * limit = (k + 1) * limit + limit := Nat.succ_mul _ _
      have hpos : 0 < (k + 1) * limit := Nat.mul_pos (Nat.succ_pos k) hlimit
      refine hrest k x y ?_ ?_
      · rw [List.getElem?_drop, ← hx, hsucc]
        congr 1
        omega
      · rw [List.getElem?_drop, ← hy, hsucc]
        congr 1
        omega

/-- Behind the cursor of the last row of a page come rows of the rest only. -/
theorem Listing.filter_after (h : Listing below cursorOf after rows) {front page rest : List α}
    (hrows : rows = front ++ page ++ rest) {last : α} (hlast : page.getLast? = some last) :
    rows.filter (below (cursorOf last)) = rest.filter (below (cursorOf last)) := by
  obtain ⟨init, rfl⟩ := List.getLast?_eq_some_iff.mp hlast
  have hmem : last ∈ rows := by
    rw [hrows]
    exact List.mem_append_left _ (List.mem_append_right _ (List.mem_append_right _
      List.mem_cons_self))
  have hnone : ∀ x ∈ front ++ (init ++ [last]), ¬ below (cursorOf last) x = true := by
    intro x hx hbelow
    have hxrows : x ∈ rows := by
      rw [hrows]
      exact List.mem_append_left _ hx
    have hback := h.onward last hmem x hxrows hbelow
    rw [← List.append_assoc] at hx
    rcases List.mem_append.mp hx with hx | hlast'
    · have hordered := h.ordered
      rw [hrows, ← List.append_assoc, List.append_assoc] at hordered
      have hforth := (List.pairwise_append.mp hordered).2.2 x hx last
        (List.mem_append_left _ List.mem_cons_self)
      exact h.asymm x hxrows last hmem hforth hback
    · rw [List.mem_singleton.mp hlast'] at hback
      exact h.asymm last hmem last hmem hback hback
  rw [hrows, List.filter_append, List.filter_eq_nil_iff.mpr hnone, List.nil_append]

theorem followed_lastPage {behind : List α} {cursor : Option κ} (hfits : behind.length ≤ limit)
    (hpage : pageAfter below cursorOf limit rows cursor = pageOf cursorOf limit behind) :
    Followed (pageAfter below cursorOf limit rows) cursor behind ∧
      Complete below cursorOf limit behind := by
  have hitems : (pageAfter below cursorOf limit rows cursor).items = behind := by
    rw [hpage, pageOf, List.take_of_length_le hfits]
  have hnext : (pageAfter below cursorOf limit rows cursor).nextCursor = none := by
    rw [hpage, pageOf, if_neg (Nat.not_lt.mpr hfits)]
  refine ⟨hitems ▸ .last hnext, fun k last next _ hnext => ?_⟩
  have hshort : behind.length ≤ (k + 1) * limit :=
    hfits.trans (Nat.le_mul_of_pos_left limit (Nat.succ_pos k))
  rw [List.getElem?_eq_none hshort] at hnext
  cases hnext

/-- The pages end, and they list all rows exactly if no cursor passes over a row. -/
theorem Listing.followed_from (h : Listing below cursorOf after rows) (hlimit : 0 < limit)
    (behind : List α) (cursor : Option κ) (hsuffix : behind <:+ rows)
    (hpage : pageAfter below cursorOf limit rows cursor = pageOf cursorOf limit behind) :
    ∃ listed, Followed (pageAfter below cursorOf limit rows) cursor listed ∧
      listed.Sublist behind ∧ (listed = behind ↔ Complete below cursorOf limit behind) := by
  induction hlength : behind.length using Nat.strong_induction_on generalizing behind cursor with
  | h n ih =>
  by_cases hmore : limit < behind.length
  · obtain ⟨last, hlast⟩ : ∃ last, behind[limit - 1]? = some last :=
      ⟨_, List.getElem?_eq_getElem (by omega)⟩
    obtain ⟨next, hnext⟩ : ∃ next, behind[limit]? = some next :=
      ⟨_, List.getElem?_eq_getElem hmore⟩
    have hgetLast : (behind.take limit).getLast? = some last := by
      rw [List.getLast?_eq_getElem?, List.length_take, Nat.min_eq_left hmore.le,
        List.getElem?_take_of_lt (by omega), hlast]
    have hcursor : (pageAfter below cursorOf limit rows cursor).nextCursor =
        some (cursorOf last) := by
      rw [hpage, pageOf, if_pos hmore, hgetLast, Option.map_some]
    obtain ⟨front, hfront⟩ := hsuffix
    have hsplit : rows = front ++ behind.take limit ++ behind.drop limit := by
      rw [List.append_assoc, List.take_append_drop, hfront]
    have hfilter := h.filter_after hsplit hgetLast
    have hclosed : ∀ x ∈ behind.drop limit, ∀ y ∈ behind.drop limit,
        below (cursorOf last) x = true → after x y → below (cursorOf last) y = true := by
      have hmem : ∀ x ∈ behind.drop limit, x ∈ rows := by
        intro x hx
        rw [hsplit]
        exact List.mem_append_right _ hx
      exact fun x hx y hy => h.closed _ x (hmem x hx) y (hmem y hy)
    have hordered : (behind.drop limit).Pairwise after := by
      have hrows := h.ordered
      rw [hsplit] at hrows
      exact (List.pairwise_append.mp hrows).2.1
    have hcut := filter_suffix hordered hclosed
    have hdrop : behind.drop limit = next :: behind.drop (limit + 1) := by
      rw [List.drop_eq_getElem_cons hmore]
      congr 1
      exact Option.some.inj ((List.getElem?_eq_getElem hmore).symm.trans hnext)
    have hdroplength : (behind.drop limit).length = behind.length - limit := List.length_drop
    have hcutlength := hcut.length_le
    obtain ⟨listed, hfollowed, hsublist, hall⟩ := ih _ (by omega)
      ((behind.drop limit).filter (below (cursorOf last))) (some (cursorOf last))
      (hcut.trans ((List.drop_suffix limit behind).trans ⟨front, hfront⟩))
      (by rw [pageAfter, hfilter]) rfl
    have hitems : (pageAfter below cursorOf limit rows cursor).items = behind.take limit := by
      rw [hpage, pageOf]
    refine ⟨behind.take limit ++ listed, ?_, ?_, ?_⟩
    · rw [← hitems]
      exact .next hcursor hfollowed
    · have hrest := hsublist.trans List.filter_sublist
      have happend := (List.Sublist.refl (behind.take limit)).append hrest
      rwa [List.take_append_drop] at happend
    · rw [complete_iff hlast hnext hlimit]
      have hrest : behind.take limit ++ listed = behind ↔ listed = behind.drop limit := by
        constructor
        · intro heq
          exact List.append_cancel_left (heq.trans (List.take_append_drop limit behind).symm)
        · rintro rfl
          exact List.take_append_drop limit behind
      rw [hrest]
      by_cases hbelow : below (cursorOf last) next = true
      · have hsame : (behind.drop limit).filter (below (cursorOf last)) = behind.drop limit := by
          refine List.filter_eq_self.mpr fun x hx => ?_
          rw [hdrop] at hx hordered hclosed
          rcases List.mem_cons.mp hx with rfl | hx'
          · exact hbelow
          · exact hclosed next List.mem_cons_self x hx hbelow
              ((List.pairwise_cons.mp hordered).1 x hx')
        rw [hsame] at hall
        rw [hall]
        exact ⟨fun hcomplete => ⟨hbelow, hcomplete⟩, And.right⟩
      · constructor
        · rintro rfl
          have hshorter : (behind.drop limit).filter (below (cursorOf last)) =
              (behind.drop (limit + 1)).filter (below (cursorOf last)) := by
            rw [hdrop, List.filter_cons_of_neg hbelow]
          have hlt := List.length_filter_le (below (cursorOf last)) (behind.drop (limit + 1))
          have hle := hsublist.length_le
          rw [← hshorter, List.length_drop] at hlt
          omega
        · rintro ⟨hbelow', _⟩
          exact absurd hbelow' hbelow
  · obtain ⟨hfollowed, hcomplete⟩ := followed_lastPage (Nat.not_lt.mp hmore) hpage
    exact ⟨behind, hfollowed, List.Sublist.refl _, fun _ => hcomplete, fun _ => rfl⟩

theorem Listing.followed (h : Listing below cursorOf after rows) (hlimit : 0 < limit) :
    ∃ listed, Followed (pageAfter below cursorOf limit rows) none listed ∧
      listed.Sublist rows ∧ (listed = rows ↔ Complete below cursorOf limit rows) :=
  h.followed_from hlimit rows none (List.suffix_refl rows) rfl

end Listing

end Keyset
