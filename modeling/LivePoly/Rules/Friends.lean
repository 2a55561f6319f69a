import LivePoly.Rules.EventRecovery
import LivePoly.Service.Friends

/-!
# Rules.Friends

Following the cursors of a list. A cursor has the millisecond of the last row of its page, and what
comes behind it was created before that millisecond, or right at it with a smaller id. Rows of the
rest of the millisecond are passed over: the list is complete exactly if no page ends before one.
-/

namespace LivePoly
namespace Rules

open Service Service.FriendsService Keyset

/-- Following the cursors of the answers from one on to the last page lists the items. -/
inductive FollowedPages {ρ : Type} (load : Option String → Except FriendsError (Page ρ String)) :
    Option String → List ρ → Prop
  | last {cursor page} (h : load cursor = .ok page) (hlast : page.nextCursor = none) :
      FollowedPages load cursor page.items
  | next {cursor page cursor' items} (h : load cursor = .ok page)
      (hnext : page.nextCursor = some cursor') (hrest : FollowedPages load (some cursor') items) :
      FollowedPages load cursor (page.items ++ items)

theorem FollowedPages.unique {ρ : Type}
    {load : Option String → Except FriendsError (Page ρ String)} {cursor : Option String}
    {items items' : List ρ} (h : FollowedPages load cursor items)
    (h' : FollowedPages load cursor items') : items = items' := by
  induction h generalizing items' with
  | last hload hlast =>
    cases h' with
    | last hload' _ =>
      cases hload.symm.trans hload'
      rfl
    | next hload' hnext =>
      cases hload.symm.trans hload'
      cases hlast.symm.trans hnext
  | next hload hnext _ ih =>
    cases h' with
    | last hload' hlast =>
      cases hload.symm.trans hload'
      cases hlast.symm.trans hnext
    | next hload' hnext' hrest' =>
      cases hload.symm.trans hload'
      cases hnext.symm.trans hnext'
      rw [ih hrest']

/-! ## Rows in order -/

section Rows

variable {ρ : Type} {rows : List (SelectedRow ρ)}

instance : Std.Total (NewestFirst (ρ := ρ)) := ⟨fun x y => by unfold NewestFirst; omega⟩

instance : IsTrans (SelectedRow ρ) NewestFirst := ⟨fun x y z h h' => by
  unfold NewestFirst at *
  omega⟩

/-- The row comes later in the list. -/
def Later (x y : SelectedRow ρ) : Prop :=
  y.createdAt < x.createdAt ∨ y.createdAt = x.createdAt ∧ y.friendshipId < x.friendshipId

/-- All rows of a query, the newest first. -/
def newestFirst (rows : List (SelectedRow ρ)) : List (SelectedRow ρ) :=
  rows.insertionSort NewestFirst

/-- The row after the last one of a page was created before the millisecond of that one, or right at
its beginning and with a smaller id. -/
def MillisecondsKept (limit : Nat) (rows : List (SelectedRow ρ)) : Prop :=
  ∀ k (last next : SelectedRow ρ), (newestFirst rows)[(k + 1) * limit - 1]? = some last →
    (newestFirst rows)[(k + 1) * limit]? = some next →
      next.createdAt < last.createdAt / 1000 * 1000 ∨
        next.createdAt = last.createdAt / 1000 * 1000 ∧ next.friendshipId < last.friendshipId

/-- What a cursor keeps of a row. -/
def dateCursor (x : SelectedRow ρ) : Nat × Int := (x.friendshipId, toDate x.createdAt)

def behindCursorDate (cursor : Nat × Int) : SelectedRow ρ → Bool := behindDate cursor.1 cursor.2

theorem behindCursorDate_iff {cursor : Nat × Int} {x : SelectedRow ρ} :
    behindCursorDate cursor x = true ↔ x.createdAt < cursor.2 * 1000 ∨
      x.createdAt = cursor.2 * 1000 ∧ x.friendshipId < cursor.1 := by
  simp [behindCursorDate, behindDate]

theorem newestFirst_perm : (newestFirst rows).Perm rows := List.perm_insertionSort _ _

theorem eq_of_newestFirst (hids : (rows.map SelectedRow.friendshipId).Nodup)
    {x y : SelectedRow ρ} (hx : x ∈ rows) (hy : y ∈ rows) (h : NewestFirst x y)
    (h' : NewestFirst y x) : x = y := by
  refine List.inj_on_of_nodup_map hids hx hy ?_
  unfold NewestFirst at h h'
  omega

theorem newestFirst_ordered (hids : (rows.map SelectedRow.friendshipId).Nodup) :
    (newestFirst rows).Pairwise Later := by
  have hsorted : (newestFirst rows).Pairwise NewestFirst := List.pairwise_insertionSort _ _
  have hdifferent : (newestFirst rows).Pairwise fun x y => x.friendshipId ≠ y.friendshipId :=
    List.pairwise_map.mp ((newestFirst_perm.map _).nodup_iff.mpr hids)
  refine (hsorted.and hdifferent).imp fun {x y} h => ?_
  obtain ⟨hle, hne⟩ := h
  unfold NewestFirst at hle
  unfold Later
  omega

theorem listing (hids : (rows.map SelectedRow.friendshipId).Nodup) :
    Listing behindCursorDate dateCursor Later (newestFirst rows) where
  ordered := newestFirst_ordered hids
  onward x _ y _ h := by
    rw [behindCursorDate_iff] at h
    unfold dateCursor toDate at h
    unfold Later
    omega
  closed cursor x _ y _ h hlater := by
    rw [behindCursorDate_iff] at h ⊢
    unfold Later at hlater
    omega
  asymm x _ y _ h h' := by
    unfold Later at h h'
    omega

theorem complete_iff_millisecondsKept (limit : Nat) :
    Complete behindCursorDate dateCursor limit (newestFirst rows) ↔ MillisecondsKept limit rows := by
  unfold Complete MillisecondsKept
  simp only [behindCursorDate_iff]
  rfl

end Rows

/-! ## Answers -/

section Answers

variable {ρ : Type} {rows : List (SelectedRow ρ)} {codec : CursorCodec} {texts : FriendTexts}
  {limit : Nat}

/-- What the lists have in common. -/
def loadPage (codec : CursorCodec) (texts : FriendTexts) (rows : List (SelectedRow ρ))
    (limit : Nat) (cursor : Option String) : Except FriendsError (Page ρ String) := do
  let cursor ← decodeFriendCursor codec texts cursor
  let found ← listBehind texts rows limit cursor
  return paginated codec texts limit found

def cursorText (codec : CursorCodec) (texts : FriendTexts) (cursor : Nat × Int) : String :=
  encodeFriendCursor codec texts cursor.1 cursor.2

theorem decode_cursorText (codec : CursorCodec) (texts : FriendTexts) (cursor : Nat × Int) :
    codec.decode (cursorText codec texts cursor) =
      some [("v", .number 1), ("friendshipId", .string (texts.uuidText cursor.1)),
        ("createdAt", .string (texts.toISOString cursor.2))] := by
  refine codec.decode_encode _ fun field hfield => ?_
  simp only [List.mem_cons, List.not_mem_nil, or_false] at hfield
  rcases hfield with rfl | rfl | rfl
  · exact ⟨1, Nat.cast_one.symm⟩
  · trivial
  · trivial

theorem decodeFriendCursor_cursorText (cursor : Nat × Int) :
    decodeFriendCursor codec texts (some (cursorText codec texts cursor)) =
      .ok (some { friendshipId := .string (texts.uuidText cursor.1), createdAt := cursor.2 }) := by
  have hnonempty : cursorText codec texts cursor ≠ "" := by
    intro h
    have hdecode := decode_cursorText codec texts cursor
    rw [h, codec.decode_empty] at hdecode
    cases hdecode
  have hid : isFalsy (some (.string (texts.uuidText cursor.1))) = false :=
    decide_eq_false (texts.uuidText_ne_empty _)
  have hdate : isFalsy (some (.string (texts.toISOString cursor.2))) = false :=
    decide_eq_false (texts.toISOString_ne_empty _)
  rw [decodeFriendCursor, if_neg hnonempty, decode_cursorText]
  simp only [List.lookup_cons, String.reduceBEq, hid, hdate, Bool.false_eq_true, or_false, ne_eq,
    not_true_eq_false, if_false, Option.bind_some, texts.newDate_toISOString]

theorem map_pageOf (rows : List (SelectedRow ρ)) :
    paginated codec texts limit (rows.take (limit + 1)) =
      { items := (pageOf dateCursor limit rows).items.map SelectedRow.row
        nextCursor := (pageOf dateCursor limit rows).nextCursor.map (cursorText codec texts) } := by
  rw [← pageOf_take]
  unfold paginated pageOf
  congr 1
  split
  · rw [Option.map_map]
    rfl
  · rfl

/-- An answer is the page behind the cursor. -/
theorem loadPage_eq (hids : (rows.map SelectedRow.friendshipId).Nodup)
    (cursor : Option (Nat × Int)) :
    loadPage codec texts rows limit (cursor.map (cursorText codec texts)) = .ok {
      items := (pageAfter behindCursorDate dateCursor limit (newestFirst rows) cursor).items.map
        SelectedRow.row
      nextCursor := (pageAfter behindCursorDate dateCursor limit
        (newestFirst rows) cursor).nextCursor.map (cursorText codec texts) } := by
  cases cursor with
  | none => exact congrArg Except.ok (map_pageOf (newestFirst rows))
  | some cursor =>
    have hsort : (rows.filter (behindDate cursor.1 cursor.2)).insertionSort NewestFirst =
        (newestFirst rows).filter (behindCursorDate cursor) :=
      insertionSort_filter (r := NewestFirst) _ fun x hx y hy => eq_of_newestFirst hids hx hy
    simp only [loadPage, Option.map_some, decodeFriendCursor_cursorText, bind, Except.bind,
      listBehind, texts.parseUuid_uuidText, hsort]
    exact congrArg Except.ok (map_pageOf _)

theorem followedPages_of_followed (hids : (rows.map SelectedRow.friendshipId).Nodup)
    {cursor : Option (Nat × Int)} {listed : List (SelectedRow ρ)}
    (h : Followed (pageAfter behindCursorDate dateCursor limit (newestFirst rows)) cursor listed) :
    FollowedPages (loadPage codec texts rows limit) (cursor.map (cursorText codec texts))
      (listed.map SelectedRow.row) := by
  induction h with
  | last hlast => exact .last (loadPage_eq hids _) (by rw [hlast, Option.map_none])
  | next hnext _ ih =>
    rw [List.map_append]
    exact .next (loadPage_eq hids _) (by rw [hnext, Option.map_some]) ih

/-- Following the cursors ends; it lists all rows, the newest first, exactly if no page ends before
a row of the rest of a millisecond. -/
theorem followedPages_iff (hids : (rows.map SelectedRow.friendshipId).Nodup) (hlimit : 0 < limit) :
    ∃ items, FollowedPages (loadPage codec texts rows limit) none items ∧
      (items = (newestFirst rows).map SelectedRow.row ↔ MillisecondsKept limit rows) := by
  obtain ⟨listed, hfollowed, hsublist, hall⟩ := (listing hids).followed hlimit
  refine ⟨listed.map SelectedRow.row, followedPages_of_followed hids hfollowed, ?_⟩
  rw [← complete_iff_millisecondsKept, ← hall]
  constructor
  · intro h
    refine hsublist.eq_of_length ?_
    rw [← List.length_map SelectedRow.row, h, List.length_map]
  · rintro rfl
    rfl

end Answers

/-! ## The lists -/

section Lists

open FriendsRepository

theorem ids_filterMap {ρ : Type} {friendships : List Friendship}
    (hids : (friendships.map Friendship.id).Nodup) {select : Friendship → Option (SelectedRow ρ)}
    (hselect : ∀ friendship row, select friendship = some row → row.friendshipId = friendship.id) :
    ((friendships.filterMap select).map SelectedRow.friendshipId).Nodup := by
  induction friendships with
  | nil => exact List.nodup_nil
  | cons friendship friendships ih =>
    obtain ⟨hnew, hrest⟩ := List.nodup_cons.mp hids
    cases hrow : select friendship with
    | none =>
      rw [List.filterMap_cons_none hrow]
      exact ih hrest
    | some row =>
      rw [List.filterMap_cons_some hrow, List.map_cons]
      refine List.nodup_cons.mpr ⟨fun hmem => hnew ?_, ih hrest⟩
      obtain ⟨other, hother, hsame⟩ := List.mem_map.mp hmem
      obtain ⟨friendship', hmem', hrow'⟩ := List.mem_filterMap.mp hother
      rw [← hselect _ _ hrow, ← hsame, hselect _ _ hrow']
      exact List.mem_map_of_mem hmem'

theorem selectFriends_ids (tables : FriendsTables) (userId : UserId) :
    ((selectFriends tables userId).map SelectedRow.friendshipId).Nodup := by
  refine ids_filterMap tables.ids fun friendship row hrow => ?_
  split at hrow
  · obtain ⟨friend, _, hrow⟩ := Option.bind_eq_some_iff.mp hrow
    split at hrow
    · cases hrow
      rfl
    · cases hrow
  · cases hrow

theorem selectFriendRequests_ids (tables : FriendsTables) (userId : UserId)
    (direction : FriendRequestDirection) :
    ((selectFriendRequests tables userId direction).map SelectedRow.friendshipId).Nodup := by
  refine ids_filterMap tables.ids fun friendship row hrow => ?_
  by_cases hmine : friendship.status = .pending ∧
      (if direction = .incoming then friendship.addresseeId else friendship.requesterId) = userId
  · rw [if_pos hmine] at hrow
    obtain ⟨requester, _, hrow⟩ := Option.bind_eq_some_iff.mp hrow
    obtain ⟨addressee, _, hrow⟩ := Option.bind_eq_some_iff.mp hrow
    split at hrow
    · cases hrow
      rfl
    · cases hrow
  · rw [if_neg hmine] at hrow
    cases hrow

/-- The incoming requests, or the outgoing ones; the cursor of the other list is not passed. -/
def loadRequests (codec : CursorCodec) (texts : FriendTexts) (tables : FriendsTables)
    (userId : UserId) (limit : Option Nat) (direction : FriendRequestDirection)
    (cursor : Option String) : Except FriendsError (Page FriendRequestSummaryRow String) :=
  match direction with
  | .incoming => (listRequests codec texts tables userId limit cursor none).map Prod.fst
  | .outgoing => (listRequests codec texts tables userId limit none cursor).map Prod.snd

theorem loadRequests_eq (codec : CursorCodec) (texts : FriendTexts) (tables : FriendsTables)
    (userId : UserId) (limit : Option Nat) (direction : FriendRequestDirection) :
    loadRequests codec texts tables userId limit direction =
      loadPage codec texts (selectFriendRequests tables userId direction) (pageLimit limit) := by
  funext cursor
  cases direction with
  | incoming =>
    simp only [loadRequests, listRequests, loadPage, listFriendRequestsByDirection]
    cases decodeFriendCursor codec texts cursor with
    | error e => rfl
    | ok cursor =>
      cases hfound : listBehind texts (selectFriendRequests tables userId .incoming)
        (pageLimit limit) cursor with
      | error e =>
        simp only [bind, Except.bind, hfound]
        rfl
      | ok rows =>
        simp only [bind, Except.bind, hfound]
        rfl
  | outgoing =>
    simp only [loadRequests, listRequests, loadPage, listFriendRequestsByDirection]
    cases decodeFriendCursor codec texts cursor with
    | error e => rfl
    | ok cursor =>
      cases hfound : listBehind texts (selectFriendRequests tables userId .outgoing)
        (pageLimit limit) cursor with
      | error e =>
        simp only [bind, Except.bind, hfound]
        rfl
      | ok rows =>
        simp only [bind, Except.bind, hfound]
        rfl

/-- Following the cursors of the friends of a user, or of the requests to or from a user, ends, and
it lists all of them once, the newest first, exactly if no page ends before a row of the rest of a
millisecond. -/
theorem friendLists_complete (codec : CursorCodec) (texts : FriendTexts) (tables : FriendsTables)
    (userId : UserId) {limit : Option Nat} (hlimit : limit ≠ some 0) :
    (∃ items, FollowedPages (listFriends codec texts tables userId limit) none items ∧
      (items = (newestFirst (selectFriends tables userId)).map SelectedRow.row ↔
        MillisecondsKept (pageLimit limit) (selectFriends tables userId))) ∧
    ∀ direction, ∃ items,
      FollowedPages (loadRequests codec texts tables userId limit direction) none items ∧
        (items = (newestFirst (selectFriendRequests tables userId direction)).map SelectedRow.row ↔
          MillisecondsKept (pageLimit limit) (selectFriendRequests tables userId direction)) := by
  have hpositive : 0 < pageLimit limit := by
    unfold pageLimit
    cases limit with
    | none => decide
    | some n =>
      have hn : n ≠ 0 := fun h => hlimit (congrArg some h)
      rw [Option.getD_some]
      omega
  refine ⟨followedPages_iff (selectFriends_ids tables userId) hpositive, fun direction => ?_⟩
  rw [loadRequests_eq]
  exact followedPages_iff (selectFriendRequests_ids tables userId direction) hpositive

end Lists

/-! ## Two friends -/

section TwoFriends

open FriendsRepository

theorem strokes_ne_empty (n : Nat) : strokes n ≠ "" := by
  intro h
  have hcount := countStrokes_strokes n
  rw [h] at hcount
  cases hcount

/-- Dates and ids in strokes. -/
def strokeTexts : FriendTexts where
  toISOString date := strokes (Encodable.encode date)
  newDate
    | .string text => (countStrokes text).bind Encodable.decode
    | _ => none
  uuidText := strokes
  parseUuid := countStrokes
  newDate_toISOString date := by
    show (countStrokes (strokes (Encodable.encode date))).bind Encodable.decode = some date
    rw [countStrokes_strokes, Option.bind_some, Encodable.encodek]
  parseUuid_uuidText := countStrokes_strokes
  toISOString_ne_empty _ := strokes_ne_empty _
  uuidText_ne_empty := strokes_ne_empty

/-- Two friends of user 1; the second friendship was created `gap` microseconds before the first. -/
def twoFriends (gap : Int) : FriendsTables where
  friendships := [⟨1, ⟨1⟩, ⟨2⟩, .accepted, 5000700, 5000700⟩,
    ⟨2, ⟨3⟩, ⟨1⟩, .accepted, 5000700 - gap, 5000700⟩]
  users _ := some ⟨"friend@livepoly.test", "friend", none, none⟩
  ids := by simp

theorem twoFriends_kept : MillisecondsKept 1 (selectFriends (twoFriends 1000000) ⟨1⟩) := by
  have htwo : (newestFirst (selectFriends (twoFriends 1000000) ⟨1⟩)).length = 2 := by decide
  intro k last next hlast hnext
  rw [Nat.mul_one] at hnext
  cases k with
  | zero =>
    cases hlast
    cases hnext
    exact .inl (by decide)
  | succ k =>
    rw [List.getElem?_eq_none (by omega)] at hnext
    cases hnext

/-- A second apart, on pages of one: both are listed. -/
theorem twoFriends_listed : ∃ items,
    FollowedPages (listFriends strokeCodec strokeTexts (twoFriends 1000000) ⟨1⟩ (some 1)) none
      items ∧
    items.map FriendSummaryRow.userId = [⟨2⟩, ⟨3⟩] := by
  obtain ⟨items, hfollowed, hiff⟩ := (friendLists_complete strokeCodec strokeTexts
    (twoFriends 1000000) ⟨1⟩ (by decide : some 1 ≠ some 0)).1
  exact ⟨items, hfollowed, by rw [hiff.mpr twoFriends_kept]; decide⟩

/-- In one millisecond, on pages of one: the second friend is never listed. -/
theorem twoFriends_lost : ∃ items,
    FollowedPages (listFriends strokeCodec strokeTexts (twoFriends 300) ⟨1⟩ (some 1)) none items ∧
    items ≠ (newestFirst (selectFriends (twoFriends 300) ⟨1⟩)).map SelectedRow.row := by
  obtain ⟨items, hfollowed, hiff⟩ := @followedPages_iff _ _ strokeCodec strokeTexts 1
    (selectFriends_ids (twoFriends 300) ⟨1⟩) (by decide)
  refine ⟨items, hfollowed, fun hall => ?_⟩
  rcases hiff.mp hall 0 _ _ rfl rfl with hbefore | ⟨hat, _⟩
  · exact absurd hbefore (by decide)
  · exact absurd hat (by decide)

end TwoFriends

end Rules
end LivePoly
