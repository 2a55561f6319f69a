import LivePoly.Lib.Ring
import LivePoly.Rules.Ledger
import LivePoly.Rules.Guarantees

/-!
# Rules.AuctionProtocol

An auction from its opening to its end, when its bidders only bid and pass. The bidders sit in a
ring; between the leader and the one asked for a bid everybody has passed, so the leader is never
asked to bid against himself.
-/

namespace LivePoly
namespace Rules

open Engine Checked

/-! ## Who is asked next -/

theorem filterMap_range {α : Type} (l : List α) :
    (List.range l.length).filterMap (fun i => l[i]?) = l := by
  induction l using List.reverseRecOn with
  | nil => rfl
  | append_singleton l a ih =>
    have hfirst : (List.range l.length).filterMap (fun i => (l ++ [a])[i]?) =
        (List.range l.length).filterMap fun i => l[i]? :=
      List.filterMap_congr fun i hi => List.getElem?_append_left (List.mem_range.mp hi)
    rw [List.length_append, List.length_singleton, List.range_succ, List.filterMap_append, hfirst,
      ih]
    simp

section Next

variable {auction : GameEngineAuction} {p c : RoomPlayerId}

/-- The search visits the bidders once round from the one after `p`. -/
theorem auctionCandidates_eq (h : p ∈ auction.activeRoomPlayerIds) :
    auctionCandidates auction p = Ring.after auction.activeRoomPlayerIds p := by
  have hlength : (Ring.after auction.activeRoomPlayerIds p).length =
      auction.activeRoomPlayerIds.length := List.length_rotate ..
  rw [← filterMap_range (Ring.after auction.activeRoomPlayerIds p), hlength, auctionCandidates]
  apply List.filterMap_congr
  intro offset hoffset
  have hoffset : offset < auction.activeRoomPlayerIds.length := List.mem_range.mp hoffset
  rw [Ring.after, List.getElem?_rotate hoffset, jsIndexOf, if_pos h, Int.tmod_eq_emod_of_nonneg
    (by omega), jsIndex, if_pos (Int.emod_nonneg _ (by omega))]
  congr 1
  have hcast : ((auction.activeRoomPlayerIds.idxOf p : Int) + (offset + 1 : Nat) +
      auction.activeRoomPlayerIds.length) = ((offset + (auction.activeRoomPlayerIds.idxOf p + 1) +
        auction.activeRoomPlayerIds.length : Nat) : Int) := by
    push_cast
    ring
  rw [hcast, ← Int.natCast_mod, Int.toNat_natCast, Nat.add_mod_right]

/-- The bidder has not passed. -/
def remains (auction : GameEngineAuction) (q : RoomPlayerId) : Bool :=
  q ∉ auction.passedRoomPlayerIds

theorem mem_activeBidders {q : RoomPlayerId} : q ∈ auction.activeBidders ↔
    q ∈ auction.activeRoomPlayerIds ∧ remains auction q = true := by
  simp [GameEngineAuction.activeBidders, remains]

/-- The one asked next is the next one round the ring, unless only the leader is left. -/
theorem getNextAuctionBidder_eq_some (h : p ∈ auction.activeRoomPlayerIds)
    (hnext : Ring.next (remains auction) auction.activeRoomPlayerIds p = some c)
    (hleader : auction.highestBidderRoomPlayerId ≠ some c) :
    getNextAuctionBidderRoomPlayerId auction p = some c := by
  have hmem : c ∈ auction.activeBidders := by
    have hc := (Ring.next_eq_some_iff.mp hnext).1
    exact mem_activeBidders.mpr ⟨Ring.mem_after.mp (List.mem_of_find?_eq_some hnext), hc⟩
  have hsome : ¬ auction.activeBidders.length = 0 := by
    rw [List.length_eq_zero_iff]
    exact List.ne_nil_of_mem hmem
  have hfind : (auctionCandidates auction p).find? (fun candidate =>
      candidate ∉ auction.passedRoomPlayerIds) = some c := by
    rw [auctionCandidates_eq h]
    exact hnext
  rw [getNextAuctionBidderRoomPlayerId, if_neg hsome, hfind]
  exact if_neg fun hend => hleader hend.2

theorem getNextAuctionBidder_eq_none (h : p ∈ auction.activeRoomPlayerIds)
    (hnext : Ring.next (remains auction) auction.activeRoomPlayerIds p = some c)
    (hleader : auction.highestBidderRoomPlayerId = some c)
    (hlast : auction.activeBidders.length ≤ 1) :
    getNextAuctionBidderRoomPlayerId auction p = none := by
  have hfind : (auctionCandidates auction p).find? (fun candidate =>
      candidate ∉ auction.passedRoomPlayerIds) = some c := by
    rw [auctionCandidates_eq h]
    exact hnext
  rw [getNextAuctionBidderRoomPlayerId, hfind]
  split
  · rfl
  · exact if_pos ⟨hlast, hleader⟩

end Next

/-! ## The order of bidding -/

/-- It is somebody's turn to bid, and the bidders between the leader and that one have passed. -/
structure InOrder (auction : GameEngineAuction) (c : RoomPlayerId) : Prop where
  nodup : auction.activeRoomPlayerIds.Nodup
  asked : auction.currentBidderRoomPlayerId = some c
  active : c ∈ auction.activeRoomPlayerIds
  remains : c ∉ auction.passedRoomPlayerIds
  leader : ∀ q, auction.highestBidderRoomPlayerId = some q → q ∈ auction.activeRoomPlayerIds ∧
    q ∉ auction.passedRoomPlayerIds ∧ c ≠ q ∧
      Ring.Clear (Rules.remains auction) auction.activeRoomPlayerIds q c

section Order

variable {auction : GameEngineAuction} {p c q : RoomPlayerId} {amount : Int} {expiresAt : Nat}

theorem InOrder.current (h : InOrder auction c) :
    getCurrentAuctionBidderRoomPlayerId auction = some c := by
  simp [getCurrentAuctionBidderRoomPlayerId, h.asked, Option.filter, h.active, h.remains]

theorem activeBidders_only (hnd : auction.activeRoomPlayerIds.Nodup)
    (h : ∀ x ∈ auction.activeRoomPlayerIds, Rules.remains auction x = true → x = q) :
    auction.activeBidders.length ≤ 1 := by
  have hnd' : auction.activeBidders.Nodup := hnd.filter _
  have hsub : auction.activeBidders ⊆ [q] := by
    intro x hx
    obtain ⟨hactive, hremains⟩ := mem_activeBidders.mp hx
    exact List.mem_singleton.mpr (h x hactive hremains)
  exact (hnd'.subperm hsub).length_le

/-- After a bid the next one round the ring is asked; it closes the auction when nobody else is
left. -/
theorem InOrder.afterBid (h : InOrder auction c) (amount : Int) (expiresAt : Nat) :
    (afterBid auction c amount expiresAt).currentBidderRoomPlayerId = none ∨
      ∃ c', InOrder (afterBid auction c amount expiresAt) c' := by
  obtain ⟨c', hnext⟩ : ∃ c', Ring.next (Rules.remains auction) auction.activeRoomPlayerIds c =
      some c' := by
    cases hnext : Ring.next (Rules.remains auction) auction.activeRoomPlayerIds c with
    | some c' => exact ⟨c', rfl⟩
    | none =>
      have hpassed := Ring.next_eq_none_iff.mp hnext c h.active
      simp [Rules.remains, h.remains] at hpassed
  have hclear := Ring.clear_next hnext
  by_cases hself : c' = c
  · subst hself
    left
    refine getNextAuctionBidder_eq_none (c := c') h.active hnext rfl ?_
    exact activeBidders_only (q := c') h.nodup (hclear.only h.nodup h.active)
  · right
    have hasked : (Rules.afterBid auction c amount expiresAt).currentBidderRoomPlayerId =
        some c' :=
      getNextAuctionBidder_eq_some h.active hnext fun hc => hself (Option.some.inj hc).symm
    have hc' := (Ring.next_eq_some_iff.mp hnext).1
    refine ⟨c', h.nodup, hasked, Ring.mem_after.mp (List.mem_of_find?_eq_some hnext),
      of_decide_eq_true hc', ?_⟩
    rintro q ⟨⟩
    exact ⟨h.active, h.remains, hself, hclear⟩

theorem remains_afterPass (q : RoomPlayerId) :
    Rules.remains (afterPass auction c expiresAt) q = true ↔
      Rules.remains auction q = true ∧ q ≠ c := by
  simp [Rules.remains, Rules.afterPass, Distinct.mem_distinct]

theorem activeBidders_afterPass : (afterPass auction c expiresAt).activeBidders =
    auction.activeBidders.filter fun q => q ≠ c := by
  rw [GameEngineAuction.activeBidders, GameEngineAuction.activeBidders, List.filter_filter]
  apply List.filter_congr
  intro q _
  have hq : Rules.remains (afterPass auction c expiresAt) q = true ↔
      Rules.remains auction q = true ∧ q ≠ c := remains_afterPass q
  simp only [Rules.remains, decide_eq_true_eq] at hq
  simp only [Bool.and_eq_decide, decide_eq_decide, decide_eq_true_eq, hq]
  exact and_comm

theorem activeBidders_afterPass_lt (hactive : c ∈ auction.activeRoomPlayerIds)
    (hremains : c ∉ auction.passedRoomPlayerIds) :
    (afterPass auction c expiresAt).activeBidders.length < auction.activeBidders.length := by
  rw [activeBidders_afterPass]
  refine List.length_filter_lt_length_iff_exists.mpr ⟨c, ?_, by simp⟩
  exact mem_activeBidders.mpr ⟨hactive, decide_eq_true hremains⟩

theorem InOrder.afterPass (h : InOrder auction c)
    (hwon : ¬ (auction.highestBidderRoomPlayerId.isSome ∧
      (afterPass auction c expiresAt).activeBidders.length ≤ 1))
    (hunsold : ¬ (auction.highestBidderRoomPlayerId.isNone ∧
      (afterPass auction c expiresAt).activeBidders.length = 0)) :
    ∃ c', InOrder (afterPass auction c expiresAt) c' := by
  have hpassed : Rules.remains (Rules.afterPass auction c expiresAt) c = false := by
    rw [Bool.eq_false_iff]
    exact fun hc => ((remains_afterPass c).mp hc).2 rfl
  cases hleader : auction.highestBidderRoomPlayerId with
  | none =>
    have hsome : (Rules.afterPass auction c expiresAt).activeBidders ≠ [] := by
      intro hnil
      exact hunsold ⟨by rw [hleader]; rfl, by rw [hnil]; rfl⟩
    obtain ⟨q, hq⟩ := List.exists_mem_of_ne_nil _ hsome
    obtain ⟨hqactive, hqremains⟩ := mem_activeBidders.mp hq
    obtain ⟨c', hnext⟩ : ∃ c', Ring.next (Rules.remains (Rules.afterPass auction c expiresAt))
        auction.activeRoomPlayerIds c = some c' := by
      cases hnext : Ring.next (Rules.remains (Rules.afterPass auction c expiresAt))
          auction.activeRoomPlayerIds c with
      | some c' => exact ⟨c', rfl⟩
      | none =>
        have hgone := Ring.next_eq_none_iff.mp hnext q hqactive
        rw [hqremains] at hgone
        cases hgone
    have hasked : (Rules.afterPass auction c expiresAt).currentBidderRoomPlayerId = some c' := by
      refine getNextAuctionBidder_eq_some h.active hnext ?_
      rw [hleader]
      exact Option.some_ne_none c' ∘ Eq.symm
    refine ⟨c', h.nodup, hasked, Ring.mem_after.mp (List.mem_of_find?_eq_some hnext),
      of_decide_eq_true (Ring.next_eq_some_iff.mp hnext).1, fun q hq => ?_⟩
    cases hleader.symm.trans hq
  | some q =>
    obtain ⟨hqactive, hqremains, hne, hclear⟩ := h.leader q hleader
    have hqstays : Rules.remains (Rules.afterPass auction c expiresAt) q = true :=
      (remains_afterPass q).mpr ⟨decide_eq_true hqremains, Ne.symm hne⟩
    obtain ⟨c', hnext, hclear'⟩ := hclear.next h.nodup hqactive hne
      (fun x hx => ((remains_afterPass x).mp hx).1) hpassed hqstays
    -- the search does not come back to the leader, or the pass would have closed the auction
    have hc' : c' ≠ q := by
      rintro rfl
      exact hwon ⟨by rw [hleader]; rfl,
        activeBidders_only h.nodup (hclear'.only h.nodup hqactive)⟩
    have hasked : (Rules.afterPass auction c expiresAt).currentBidderRoomPlayerId = some c' := by
      refine getNextAuctionBidder_eq_some h.active hnext ?_
      rw [hleader]
      exact fun hq => hc' (Option.some.inj hq).symm
    refine ⟨c', h.nodup, hasked, Ring.mem_after.mp (List.mem_of_find?_eq_some hnext),
      of_decide_eq_true (Ring.next_eq_some_iff.mp hnext).1, fun q' hq' => ?_⟩
    cases hleader.symm.trans hq'
    exact ⟨hqactive, of_decide_eq_true hqstays, hc', hclear'⟩

end Order

/-! ## A bid and a pass -/

section Code

variable {env : Env} {s : GameEngineState} {p c : RoomPlayerId} {auction : GameEngineAuction}
  {r : GameEngineResult}

/-- The bidder asked raises the bid; either the auction goes on in order, or the bidder has won. -/
theorem placeAuctionBid_inOrder (hauction : s.auction = some auction) (horder : InOrder auction c)
    {number : JsNumber} (h : placeAuctionBid env s p number = .ok r) :
    p = c ∧ ∃ amount bidder, getMinimumAuctionBid auction ≤ amount ∧
      s.player? p = some bidder ∧ amount ≤ bidder.cash ∧
      ((∃ expiresAt c', InOrder (afterBid auction p amount expiresAt) c' ∧
          r = ⟨{ s with auction := some (afterBid auction p amount expiresAt) },
            [.auctionBidPlaced p auction.tileKey amount]⟩) ∨
        r = ⟨closeAuction (s.addCash p (-amount)) auction.tileKey (some p),
          [.auctionBidPlaced p auction.tileKey amount,
            .auctionWon p auction.tileKey amount]⟩) := by
  simp only [placeAuctionBid, bind_eq_ok, assertActiveAuction_eq_ok,
    assertAuctionPlayerCanAct, orThrow_eq_ok, integerAtLeast_eq_some, findPlayer_eq_ok,
    rejectIf_eq_ok, Classical.not_not] at h
  obtain ⟨found, ⟨_, hfound⟩, _, _, _, hcurrent, amount, ⟨_, hmin⟩, bidder, hbidder, _, hcash,
    h⟩ := h
  cases hfound.symm.trans hauction
  obtain rfl : c = p := Option.some.inj (horder.current.symm.trans hcurrent)
  refine ⟨rfl, amount, bidder, hmin, hbidder, not_lt.mp hcash, ?_⟩
  split at h
  · simp only [completeAuctionWithWinner, bind_eq_ok, debitPlayer_eq_ok, pure_eq_ok] at h
    obtain ⟨_, ⟨_, _, _, _, rfl⟩, rfl⟩ := h
    exact .inr rfl
  · rename_i hsome
    simp only [pure_eq_ok] at h
    rcases horder.afterBid amount (getNextAuctionBidExpiresAt env s) with hnone | ⟨c', hnext⟩
    · exact absurd (Option.isNone_iff_eq_none.mpr hnone) hsome
    · exact .inl ⟨_, c', hnext, h.symm⟩

/-- The bidder asked passes; either the auction goes on in order, or the leader has won, or
nobody has bid. -/
theorem passAuctionBid_inOrder (hauction : s.auction = some auction) (horder : InOrder auction c)
    (h : passAuctionBid env s p = .ok r) :
    p = c ∧ ((∃ expiresAt c', InOrder (afterPass auction p expiresAt) c' ∧
          r = ⟨{ s with auction := some (afterPass auction p expiresAt) },
            [.auctionBidPassed p auction.tileKey]⟩) ∨
        (∃ leader, auction.highestBidderRoomPlayerId = some leader ∧
          r = ⟨closeAuction (s.addCash leader (-auction.currentBid)) auction.tileKey
              (some leader),
            [.auctionBidPassed p auction.tileKey,
              .auctionWon leader auction.tileKey auction.currentBid]⟩) ∨
        auction.highestBidderRoomPlayerId = none ∧
          r = ⟨closeAuction s auction.tileKey none, [.auctionBidPassed p auction.tileKey]⟩) := by
  simp only [passAuctionBid, bind_eq_ok, assertActiveAuction_eq_ok, assertAuctionPlayerCanAct,
    rejectIf_eq_ok, Classical.not_not] at h
  obtain ⟨found, ⟨_, hfound⟩, _, _, _, hcurrent, h⟩ := h
  cases hfound.symm.trans hauction
  obtain rfl : c = p := Option.some.inj (horder.current.symm.trans hcurrent)
  refine ⟨rfl, ?_⟩
  split at h
  · rename_i hwon
    obtain ⟨leader, hleader⟩ := Option.isSome_iff_exists.mp hwon.1
    have hleader : auction.highestBidderRoomPlayerId = some leader := hleader
    simp only [completeAuctionWithWinner, hleader, bind_eq_ok, debitPlayer_eq_ok,
      pure_eq_ok] at h
    obtain ⟨_, ⟨_, _, _, _, rfl⟩, rfl⟩ := h
    exact .inr (.inl ⟨leader, hleader, rfl⟩)
  · rename_i hwon
    split at h
    · rename_i hunsold
      simp only [pure_eq_ok] at h
      exact .inr (.inr ⟨Option.isNone_iff_eq_none.mp hunsold.1, h.symm⟩)
    · rename_i hunsold
      simp only [pure_eq_ok] at h
      obtain ⟨c', hnext⟩ := horder.afterPass hwon hunsold
      exact .inl ⟨_, c', hnext, h.symm⟩

end Code

/-! ## Bids -/

/-- The bids placed, after another event. -/
def addBid (bids : List (RoomPlayerId × Int)) : GameEngineEvent → List (RoomPlayerId × Int)
  | .auctionBidPlaced p _ amount => bids ++ [(p, amount)]
  | _ => bids

/-- The bids placed, in order. -/
def bidsOf (events : List GameEngineEvent) : List (RoomPlayerId × Int) := events.foldl addBid []

/-- The bids reach the minimum, and each is higher than the ones before. -/
structure Rising (bids : List (RoomPlayerId × Int)) : Prop where
  minimum : ∀ bid ∈ bids, minimumAuctionBid ≤ bid.2
  rising : (bids.map Prod.snd).Pairwise (· < ·)

theorem Rising.concat {bids : List (RoomPlayerId × Int)} (h : Rising bids) {p : RoomPlayerId}
    {amount : Int} (hmin : minimumAuctionBid ≤ amount)
    (hlast : ∀ bid, bids.getLast? = some bid → bid.2 < amount) :
    Rising (bids ++ [(p, amount)]) where
  minimum := by
    intro bid hbid
    rcases List.mem_append.mp hbid with hbid | hbid
    · exact h.minimum bid hbid
    · rw [List.mem_singleton.mp hbid]
      exact hmin
  rising := by
    rw [List.map_append, List.pairwise_append]
    refine ⟨h.rising, List.pairwise_singleton _ _, ?_⟩
    intro x hx y hy
    obtain rfl : y = amount := by simpa using hy
    rcases bids.eq_nil_or_concat' with rfl | ⟨xs, bid, rfl⟩
    · cases hx
    · have hbid : bid.2 < y := hlast bid List.getLast?_concat
      have hrising := h.rising
      rw [List.map_append, List.pairwise_append] at hrising
      rw [List.map_append, List.mem_append] at hx
      rcases hx with hx | hx
      · exact (hrising.2.2 x hx bid.2 (by simp)).trans hbid
      · obtain rfl : x = bid.2 := by simpa using hx
        exact hbid

/-- The bid an auction stands at. -/
def standing (auction : GameEngineAuction) : Option (RoomPlayerId × Int) :=
  auction.highestBidderRoomPlayerId.map fun leader => (leader, auction.currentBid)

/-! ## From the opening to the end -/

/-- The intents of bidders. -/
def isBidding : GameEngineIntent → Bool
  | .placeAuctionBid _ _ | .passAuctionBid _ => true
  | _ => false

/-- What is sent is a bid or a pass. -/
def BiddingSent (_ : GameEngineState) (sent : Env × GameEngineIntent) : Prop :=
  isBidding sent.2 = true

/-- A running auction of the tile that stands at the last bid, which its bidder can pay. -/
structure Running (opened : GameEngineState) (key : TileKey) (bids : List (RoomPlayerId × Int))
    (auction : GameEngineAuction) (c : RoomPlayerId) : Prop where
  order : InOrder auction c
  tile : auction.tileKey = key
  bidders : auction.activeRoomPlayerIds =
    (getActivePlayers opened).map GameEnginePlayer.roomPlayerId
  stands : standing auction = bids.getLast?
  opening : auction.highestBidderRoomPlayerId = none → auction.currentBid = 0
  funds : ∀ leader, auction.highestBidderRoomPlayerId = some leader →
    ∃ ll, opened.player? leader = some ll ∧ auction.currentBid ≤ ll.cash

/-- Where an auction stands that opened in the state `opened`, after the bids. -/
inductive Stage (opened : GameEngineState) (key : TileKey) (bids : List (RoomPlayerId × Int)) :
    GameEngineState → Prop
  | running {auction : GameEngineAuction} {c : RoomPlayerId}
      (h : Running opened key bids auction c) :
      Stage opened key bids { opened with auction := some auction }
  | sold {winner : RoomPlayerId} {amount : Int}
      (hlast : bids.getLast? = some (winner, amount)) :
      Stage opened key bids (closeAuction (opened.addCash winner (-amount)) key (some winner))
  | unsold (hnone : bids = []) : Stage opened key bids (closeAuction opened key none)

/-- How many bids and passes an auction can still take: the bids go up to all the cash there is,
and each pass takes a bidder out. -/
def remaining (opened s : GameEngineState) : ℕ :=
  match s.auction with
  | none => 0
  | some auction => (totalCash opened - auction.currentBid).toNat + auction.activeBidders.length

theorem cash_le_totalCash {s : GameEngineState} (hf : Funded s) {q : RoomPlayerId}
    {ql : GameEnginePlayer} (hql : s.player? q = some ql) : ql.cash ≤ totalCash s := by
  apply List.single_le_sum
  · intro x hx
    obtain ⟨pl, hpl, rfl⟩ := List.mem_map.mp hx
    exact hf.cash pl hpl
  · exact List.mem_map_of_mem (GameEngineState.player?_mem hql)

section Stages

variable {env : Env} {opened s : GameEngineState} {key : TileKey}
  {bids : List (RoomPlayerId × Int)} {auction : GameEngineAuction} {c p : RoomPlayerId}
  {r : GameEngineResult}

/-- Bids and passes leave the auction a bound on how many of them follow. -/
theorem Running.remaining_pos (h : Running opened key bids auction c) :
    0 < remaining opened { opened with auction := some auction } := by
  have hpos : 0 < auction.activeBidders.length :=
    List.length_pos_of_mem (mem_activeBidders.mpr ⟨h.order.active, decide_eq_true h.order.remains⟩)
  exact Nat.add_pos_right _ hpos

theorem Running.raises (h : Running opened key bids auction c) (hr : Rising bids) {amount : Int}
    (hmin : getMinimumAuctionBid auction ≤ amount) :
    minimumAuctionBid ≤ amount ∧ auction.currentBid < amount := by
  have hminimum : minimumAuctionBid = 10 := rfl
  rw [getMinimumAuctionBid] at hmin
  split at hmin
  · omega
  · rename_i hpositive
    cases hleader : auction.highestBidderRoomPlayerId with
    | none => exact absurd (le_of_eq (h.opening hleader)) hpositive
    | some leader =>
      have hlast : bids.getLast? = some (leader, auction.currentBid) := by
        rw [← h.stands, standing, hleader]
        rfl
      have hbid := hr.minimum _ (List.mem_of_getLast? hlast)
      dsimp only at hbid
      omega

theorem Running.bid (hf : Funded opened) (h : Running opened key bids auction c)
    (hr : Rising bids) {number : JsNumber}
    (hbid : placeAuctionBid env { opened with auction := some auction } p number = .ok r) :
    Rising (r.events.foldl addBid bids) ∧ Stage opened key (r.events.foldl addBid bids) r.state ∧
      remaining opened r.state < remaining opened { opened with auction := some auction } := by
  obtain ⟨rfl, amount, bidder, hmin, hbidder, hcash, hcase⟩ :=
    placeAuctionBid_inOrder rfl h.order hbid
  obtain ⟨hminimum, hhigher⟩ := h.raises hr hmin
  have hrising : Rising (bids ++ [(p, amount)]) := by
    refine hr.concat hminimum ?_
    intro bid hlast
    rw [← h.stands, standing, Option.map_eq_some_iff] at hlast
    obtain ⟨_, _, rfl⟩ := hlast
    exact hhigher
  have hlast : (bids ++ [(p, amount)]).getLast? = some (p, amount) := List.getLast?_concat
  rcases hcase with ⟨expiresAt, c', horder, rfl⟩ | rfl
  · have hrunning : Running opened key (bids ++ [(p, amount)])
        (afterBid auction p amount expiresAt) c' := by
      refine ⟨horder, h.tile, h.bidders, hlast.symm, fun hnone => ?_, ?_⟩
      · cases hnone
      · rintro leader ⟨⟩
        exact ⟨bidder, hbidder, hcash⟩
    refine ⟨hrising, .running hrunning, ?_⟩
    have hbound : bidder.cash ≤ totalCash opened := cash_le_totalCash hf hbidder
    have hlower : (totalCash opened - amount).toNat <
        (totalCash opened - auction.currentBid).toNat := by omega
    exact Nat.add_lt_add_right hlower _
  · refine ⟨hrising, ?_, h.remaining_pos⟩
    obtain rfl := h.tile
    exact .sold hlast

theorem Running.pass (h : Running opened key bids auction c) (hr : Rising bids)
    (hpass : passAuctionBid env { opened with auction := some auction } p = .ok r) :
    Rising (r.events.foldl addBid bids) ∧ Stage opened key (r.events.foldl addBid bids) r.state ∧
      remaining opened r.state < remaining opened { opened with auction := some auction } := by
  obtain ⟨rfl, ⟨expiresAt, c', horder, rfl⟩ | ⟨leader, hleader, rfl⟩ | ⟨hleader, rfl⟩⟩ :=
    passAuctionBid_inOrder rfl h.order hpass
  · have hrunning : Running opened key bids (afterPass auction p expiresAt) c' :=
      ⟨horder, h.tile, h.bidders, h.stands, h.opening, h.funds⟩
    refine ⟨hr, .running hrunning, ?_⟩
    exact Nat.add_lt_add_left (activeBidders_afterPass_lt h.order.active h.order.remains) _
  · have hlast : bids.getLast? = some (leader, auction.currentBid) := by
      rw [← h.stands, standing, hleader]
      rfl
    obtain rfl := h.tile
    exact ⟨hr, .sold hlast, h.remaining_pos⟩
  · have hlast : bids.getLast? = none := by
      rw [← h.stands, standing, hleader]
      rfl
    obtain rfl := h.tile
    exact ⟨hr, .unsold (List.getLast?_eq_none_iff.mp hlast), h.remaining_pos⟩

theorem closed_rejects {owner : Option RoomPlayerId} {sent : Env × GameEngineIntent}
    (hsent : isBidding sent.2 = true) {events : List GameEngineEvent} {s' : GameEngineState} :
    ¬ Accepts (closeAuction s key owner) sent events s' := by
  obtain ⟨env, intent⟩ := sent
  have hover : ∀ {auction}, assertActiveAuction (closeAuction s key owner) ≠ .ok auction := by
    intro auction hactive
    cases (assertActiveAuction_eq_ok.mp hactive).2
  intro haccepts
  cases intent with
  | placeAuctionBid p amount =>
    obtain ⟨_, hactive, _⟩ := bind_eq_ok.mp haccepts
    exact hover hactive
  | passAuctionBid p =>
    obtain ⟨_, hactive, _⟩ := bind_eq_ok.mp haccepts
    exact hover hactive
  | _ => cases hsent

/-- A bid or a pass takes the auction to its next stage. -/
theorem Stage.step (hf : Funded opened) (h : Stage opened key bids s) (hr : Rising bids)
    {sent : Env × GameEngineIntent} {events : List GameEngineEvent} {s' : GameEngineState}
    (hs : Trace.Guarded Accepts BiddingSent s sent events s') :
    Rising (events.foldl addBid bids) ∧ Stage opened key (events.foldl addBid bids) s' ∧
      remaining opened s' < remaining opened s := by
  obtain ⟨haccepts, hsent⟩ := hs
  cases h with
  | running h =>
    obtain ⟨env, intent⟩ := sent
    cases intent with
    | placeAuctionBid p amount => exact h.bid hf hr haccepts
    | passAuctionBid p => exact h.pass hr haccepts
    | _ => cases hsent
  | sold => exact absurd haccepts (closed_rejects hsent)
  | unsold => exact absurd haccepts (closed_rejects hsent)

/-- Bids and passes one after the other lead from stage to stage, and there is an end to them. -/
theorem Stage.run (hf : Funded opened) (hstart : Stage opened key [] opened)
    {sent : List (Env × GameEngineIntent)} {events : List GameEngineEvent}
    (h : Trace.Run (Trace.Guarded Accepts BiddingSent) opened sent events s) :
    sent.length + remaining opened s ≤ remaining opened opened ∧ Rising (bidsOf events) ∧
      Stage opened key (bidsOf events) s := by
  induction h with
  | refl => exact ⟨le_of_eq (Nat.zero_add _), ⟨fun _ hnone => absurd hnone List.not_mem_nil,
      List.Pairwise.nil⟩, hstart⟩
  | tail hrun hs ih =>
    obtain ⟨hbound, hrising, hstage⟩ := ih
    obtain ⟨hrising', hstage', hlower⟩ := hstage.step hf hrising hs
    have hbids : ∀ xs ys, bidsOf (xs ++ ys) = ys.foldl addBid (bidsOf xs) :=
      fun _ _ => List.foldl_append
    rw [List.length_append, List.length_singleton, hbids]
    exact ⟨by omega, hrising', hstage'⟩

end Stages

/-! ## The protocol -/

/-- What holds of the auction of a tile that opened in the state `opened`, after the bids. -/
structure AuctionProtocol (opened : GameEngineState) (key : TileKey)
    (bids : List (RoomPlayerId × Int)) (s : GameEngineState) : Prop where
  asked : ∀ auction, s.auction = some auction → ∃ c,
    getCurrentAuctionBidderRoomPlayerId auction = some c ∧ IsActive s c ∧
      c ∈ auction.activeRoomPlayerIds ∧ c ∉ auction.passedRoomPlayerIds ∧
      auction.highestBidderRoomPlayerId ≠ some c ∧ ∀ env, Succeeds (passAuctionBid env s c)
  leader : ∀ auction q, s.auction = some auction → auction.highestBidderRoomPlayerId = some q →
    q ∈ auction.activeRoomPlayerIds ∧ q ∉ auction.passedRoomPlayerIds
  price : ∀ auction, s.auction = some auction → auction.tileKey = key ∧
    (auction.currentBid = 0 ↔ auction.highestBidderRoomPlayerId = none) ∧
      standing auction = bids.getLast?
  minimum : ∀ bid ∈ bids, 10 ≤ bid.2
  rising : (bids.map Prod.snd).Pairwise (· < ·)
  sold : s.auction = none → ∀ winner amount, bids.getLast? = some (winner, amount) →
    (s.property? key).map GameEngineProperty.ownerRoomPlayerId = some (some winner) ∧
      ∀ q, s.player? q = (opened.player? q).map fun pl =>
        { pl with cash := pl.cash - if q = winner then amount else 0 }
  unsold : s.auction = none → bids = [] →
    (s.property? key).map GameEngineProperty.ownerRoomPlayerId = some none ∧
      s.players = opened.players
  others : ∀ other, other ≠ key → s.property? other = opened.property? other

section Protocol

variable {env : Env} {opened s : GameEngineState} {key : TileKey}
  {bids : List (RoomPlayerId × Int)} {auction : GameEngineAuction} {c p : RoomPlayerId}
  {r : GameEngineResult}

theorem Running.leader_minimum (h : Running opened key bids auction c) (hr : Rising bids)
    {leader : RoomPlayerId} (hleader : auction.highestBidderRoomPlayerId = some leader) :
    minimumAuctionBid ≤ auction.currentBid := by
  have hlast : bids.getLast? = some (leader, auction.currentBid) := by
    rw [← h.stands, standing, hleader]
    rfl
  exact hr.minimum _ (List.mem_of_getLast? hlast)

theorem Running.pass_succeeds (h : Running opened key bids auction c) (hr : Rising bids)
    (hphase : opened.phase = .awaitingAuctionBid) (env : Env) :
    Succeeds (passAuctionBid env { opened with auction := some auction } c) := by
  unfold passAuctionBid
  refine succeeds_bind (assertActiveAuction_eq_ok.mpr ⟨hphase, rfl⟩) ?_
  have hactive : assertAuctionPlayerActive auction c = .ok () :=
    assertAuctionPlayerActive_eq_ok.mpr ⟨h.order.active, h.order.remains⟩
  refine succeeds_bind hactive ?_
  have hcurrent : assertAuctionPlayerCanAct auction c = .ok () :=
    rejectIf_eq_ok.mpr (not_not.mpr h.order.current)
  refine succeeds_bind hcurrent ?_
  dsimp only
  split
  · unfold completeAuctionWithWinner
    dsimp only
    cases hleader : auction.highestBidderRoomPlayerId with
    | none => exact succeeds_ok _
    | some leader =>
      obtain ⟨ll, hll, hcash⟩ := h.funds leader hleader
      have hpositive : (0 : Int) ≤ auction.currentBid :=
        (by decide : (0 : Int) ≤ minimumAuctionBid).trans (h.leader_minimum hr hleader)
      exact succeeds_bind (debitPlayer_eq_ok.mpr ⟨hpositive, ll, hll, hcash, rfl⟩) (succeeds_ok _)
  · split
    · exact succeeds_pure _
    · exact succeeds_pure _

theorem closeAuction_property? (owner : Option RoomPlayerId) (other : TileKey) :
    (closeAuction s key owner).property? other =
      if other = key then
        (s.property? other).map fun property => { property with ownerRoomPlayerId := owner }
      else s.property? other := by
  unfold closeAuction
  rw [GameEngineState.property?_updatePropertyState]
  · rfl
  · intro _; rfl

theorem Stage.protocol (hv : Valid opened) (hphase : opened.phase = .awaitingAuctionBid)
    (hfree : (opened.property? key).map GameEngineProperty.ownerRoomPlayerId = some none)
    (h : Stage opened key bids s) (hr : Rising bids) : AuctionProtocol opened key bids s := by
  obtain ⟨property, hproperty, howner⟩ := Option.map_eq_some_iff.mp hfree
  cases h with
  | @running auction c h =>
    refine ⟨?_, ?_, ?_, hr.minimum, hr.rising, ?_, ?_, fun _ _ => rfl⟩
    · rintro _ ⟨⟩
      have hmem := h.order.active
      rw [h.bidders] at hmem
      obtain ⟨cl, hcl, rfl⟩ := List.mem_map.mp hmem
      obtain ⟨hlisted, hactive⟩ := mem_getActivePlayers.mp hcl
      refine ⟨cl.roomPlayerId, h.order.current, ⟨cl, hv.players.find hlisted, hactive⟩,
        h.order.active, h.order.remains, ?_, h.pass_succeeds hr hphase⟩
      exact fun hleader => (h.order.leader _ hleader).2.2.1 rfl
    · rintro _ q ⟨⟩ hleader
      obtain ⟨hq, hremains, _⟩ := h.order.leader q hleader
      exact ⟨hq, hremains⟩
    · rintro _ ⟨⟩
      refine ⟨h.tile, ⟨fun hzero => ?_, h.opening⟩, h.stands⟩
      cases hleader : auction.highestBidderRoomPlayerId with
      | none => rfl
      | some leader =>
        have hminimum := h.leader_minimum hr hleader
        rw [hzero] at hminimum
        exact absurd hminimum (by decide)
    · intro hnone
      cases hnone
    · intro hnone
      cases hnone
  | @sold winner amount hlast =>
    refine ⟨fun _ hnone => ?_, fun _ _ hnone => ?_, fun _ hnone => ?_, hr.minimum, hr.rising,
      fun _ winner' amount' hlast' => ?_, fun _ hnone => ?_, fun other hother => ?_⟩
    · cases hnone
    · cases hnone
    · cases hnone
    · cases hlast.symm.trans hlast'
      refine ⟨?_, fun q => ?_⟩
      · rw [closeAuction_property?, if_pos rfl]
        change ((opened.property? key).map _).map _ = _
        rw [hproperty]
        rfl
      · change (opened.addCash winner (-amount)).player? q = _
        rw [GameEngineState.player?_addCash]
        cases opened.player? q with
        | none => exact ite_self _
        | some ql =>
          by_cases hq : q = winner
          · rw [if_pos hq, if_pos hq]
            rfl
          · rw [if_neg hq, if_neg hq]
            simp
    · rw [hnone] at hlast
      cases hlast
    · rw [closeAuction_property?, if_neg hother]
      rfl
  | unsold hbids =>
    refine ⟨fun _ hnone => ?_, fun _ _ hnone => ?_, fun _ hnone => ?_, hr.minimum, hr.rising,
      fun _ winner amount hlast => ?_, fun _ _ => ⟨?_, rfl⟩, fun other hother => ?_⟩
    · cases hnone
    · cases hnone
    · cases hnone
    · rw [hbids] at hlast
      cases hlast
    · rw [closeAuction_property?, if_pos rfl, hproperty]
      rfl
    · rw [closeAuction_property?, if_neg hother]

theorem declinePropertyPurchase_running (hv : Valid s)
    (h : reduceGameEngineIntent env s (.declinePropertyPurchase p) = .ok r) :
    r.state.phase = .awaitingAuctionBid ∧ ∃ auction c,
      r.state.auction = some auction ∧ Running r.state auction.tileKey [] auction c := by
  simp only [reduceGameEngineIntent, GameEngineService.declinePropertyPurchase, bind_eq_ok,
    assertCurrentTurn_eq_ok, declinePropertyPurchase, orThrow_eq_ok, findPropertyStateOr_eq_ok,
    rejectIf_eq_ok, pure_eq_ok] at h
  obtain ⟨_, _, _, ⟨pl, ho⟩, key, _, tile, _, property, _, _, _, rfl⟩ := h
  obtain ⟨c, hc⟩ : ∃ c, ((getActivePlayers s).map GameEnginePlayer.roomPlayerId).head? =
      some c := by
    have hmem : pl ∈ getActivePlayers s :=
      mem_getActivePlayers.mpr ⟨GameEngineState.player?_mem ho.player, ho.active⟩
    refine Option.isSome_iff_exists.mp (List.isSome_head?.mpr ?_)
    exact List.ne_nil_of_mem (List.mem_map_of_mem hmem)
  have horder : InOrder (openedAuction s tile.key (getNextAuctionBidExpiresAt env s)) c := by
    refine ⟨getActivePlayers_nodup hv, hc, List.mem_of_head? hc, List.not_mem_nil, ?_⟩
    intro q hq
    cases hq
  refine ⟨rfl, openedAuction s tile.key (getNextAuctionBidExpiresAt env s), c, rfl, horder, rfl,
    rfl, rfl, fun _ => rfl, fun leader hleader => ?_⟩
  cases hleader

/-- An auction keeps to its protocol whatever bids and passes it accepts, and accepts only so many
of them. -/
theorem reachable_auctionProtocol {input : CreateInitialGameStateInput} (hi : ValidInput input)
    (h : Reachable input s)
    (hopen : reduceGameEngineIntent env s (.declinePropertyPurchase p) = .ok r) :
    ∃ auction bound, r.state.auction = some auction ∧ ∀ sent events s',
      Trace.Run (Trace.Guarded Accepts BiddingSent) r.state sent events s' →
        sent.length ≤ bound ∧ AuctionProtocol r.state auction.tileKey (bidsOf events) s' := by
  have hv : Valid r.state := accepted_valid (reachable_valid hi h) hopen
  obtain ⟨hphase, auction, c, hauction, hrunning⟩ :=
    declinePropertyPurchase_running (reachable_valid hi h) hopen
  obtain ⟨tile, property, _, hproperty, howner⟩ := (hv.phase.auctionOk auction hauction).free
  have hfree : (r.state.property? auction.tileKey).map
      GameEngineProperty.ownerRoomPlayerId = some none := by
    rw [hproperty]
    exact congrArg some howner
  have hstart : Stage r.state auction.tileKey [] r.state := by
    have hsame : { r.state with auction := some auction } = r.state := by rw [← hauction]
    rw [← hsame]
    exact .running (hsame.symm ▸ hrunning)
  refine ⟨auction, remaining r.state r.state, hauction, fun sent events s' hrun => ?_⟩
  obtain ⟨hbound, hrising, hstage⟩ := hstart.run hv.players.funded hrun
  exact ⟨by omega, hstage.protocol hv hphase hfree hrising⟩

/-- Two players bid against each other, the third one passes. -/
theorem threePlayers_auctionProtocol : ∃ s r s', Reachable threePlayers s ∧
    reduceGameEngineIntent ⟨0, ""⟩ s (.declinePropertyPurchase ⟨1⟩) = .ok r ∧
    (∃ sent events, Trace.Run (Trace.Guarded Accepts BiddingSent) r.state sent events s' ∧
      AuctionProtocol r.state .ghana (bidsOf events) s') ∧
    (s'.property? .ghana).bind GameEngineProperty.ownerRoomPlayerId = some ⟨3⟩ := by
  obtain ⟨before, hbefore, hdecline⟩ := exists_ok_of_any (by decide +kernel :
    (playThree [.rollAndMove ⟨1⟩ [.int 1, .int 2]]).toOption.any (fun before =>
      (reduceGameEngineIntent ⟨0, ""⟩ before.state (.declinePropertyPurchase ⟨1⟩)).toOption.any
        fun r => (r.state.auction.map GameEngineAuction.tileKey = some .ghana &&
          (play r.state (atStart [.passAuctionBid ⟨1⟩, .placeAuctionBid ⟨2⟩ (.int 10),
            .placeAuctionBid ⟨3⟩ (.int 20), .passAuctionBid ⟨2⟩])).toOption.any fun last =>
              (last.state.property? .ghana).bind GameEngineProperty.ownerRoomPlayerId =
                some ⟨3⟩)) = true)
  obtain ⟨r, hr, htest⟩ := exists_ok_of_any hdecline
  obtain ⟨hkey, htest⟩ := (Bool.and_eq_true_iff ..).mp htest
  obtain ⟨last, hlast, howner⟩ := exists_ok_of_any htest
  have hreach : Reachable threePlayers before.state := playRoom_reachable hbefore
  have hrun : Trace.Run (Trace.Guarded Accepts BiddingSent) r.state _ last.events last.state :=
    (play_run hlast).guarded (by decide)
  obtain ⟨auction, _, hauction, hall⟩ := reachable_auctionProtocol threePlayers_valid hreach hr
  have htile : auction.tileKey = .ghana := by
    rw [hauction] at hkey
    exact Option.some.inj (of_decide_eq_true hkey)
  have hprotocol := (hall _ _ _ hrun).2
  rw [htile] at hprotocol
  exact ⟨before.state, r, last.state, hreach, hr, ⟨_, last.events, hrun, hprotocol⟩,
    of_decide_eq_true howner⟩

end Protocol

end Rules
end LivePoly
