import LivePoly.Rules.Updates

/-!
# Rules.Bidding

An auction from the purchase declined to the tile sold or left with the bank. Bids and passes
either go on to the next bidder or close the auction.
-/

namespace LivePoly
namespace Rules

open Engine Checked

/-! ## Auctions -/

/-- The auction that opens when a purchase is declined. -/
def openedAuction (s : GameEngineState) (key : TileKey) (expiresAt : Nat) : GameEngineAuction where
  tileKey := key
  currentBid := 0
  highestBidderRoomPlayerId := none
  currentBidderRoomPlayerId := ((getActivePlayers s).map GameEnginePlayer.roomPlayerId).head?
  bidExpiresAt := some expiresAt
  activeRoomPlayerIds := (getActivePlayers s).map GameEnginePlayer.roomPlayerId
  passedRoomPlayerIds := []

/-- The auction after a bid of `p`. -/
def afterBid (auction : GameEngineAuction) (p : RoomPlayerId) (amount : Int) (expiresAt : Nat) :
    GameEngineAuction :=
  let next := { auction with
    currentBid := amount
    highestBidderRoomPlayerId := some p
    currentBidderRoomPlayerId := none
    bidExpiresAt := some expiresAt }
  { next with currentBidderRoomPlayerId := getNextAuctionBidderRoomPlayerId next p }

/-- The auction after a pass of `p`. -/
def afterPass (auction : GameEngineAuction) (p : RoomPlayerId) (expiresAt : Nat) :
    GameEngineAuction :=
  let next := { auction with
    passedRoomPlayerIds := Distinct.distinct (auction.passedRoomPlayerIds ++ [p]) }
  { next with
    currentBidderRoomPlayerId := getNextAuctionBidderRoomPlayerId next p
    bidExpiresAt := some expiresAt }

/-- It is the turn of `p` to bid or pass. -/
structure CanAct (s : GameEngineState) (p : RoomPlayerId) (auction : GameEngineAuction) :
    Prop where
  phase : s.phase = .awaitingAuctionBid
  running : s.auction = some auction
  active : p ∈ auction.activeRoomPlayerIds
  remains : p ∉ auction.passedRoomPlayerIds

/-- What the player `p` does to open an auction, or in one. A leader to whom a pass gives the tile
satisfies `condition`. -/
inductive Bidding (condition : GameEngineState → RoomPlayerId → Prop) (p : RoomPlayerId)
    (s : GameEngineState) : List GameEngineEvent → GameEngineState → Prop
  | declined {pl : GameEnginePlayer} {tile : OwnableTile} {property : GameEngineProperty}
      {expiresAt : Nat} (ho : OnTurn s p pl) (hphase : s.phase = .awaitingPropertyDecision)
      (hpending : s.pendingTileKey = some tile.key)
      (htile : (s.board.tile? tile.key).bind GameTile.ownable? = some tile)
      (hproperty : s.property? tile.key = some property)
      (hfree : property.ownerRoomPlayerId = none) :
      Bidding condition p s
        [.propertyPurchaseDeclined p tile.key,
          .auctionStarted tile.key ((getActivePlayers s).map GameEnginePlayer.roomPlayerId)]
        { s with
          phase := .awaitingAuctionBid
          pendingTileKey := none
          auction := some (openedAuction s tile.key expiresAt) }
  | bid {auction : GameEngineAuction} {bidder : GameEnginePlayer} {amount : Int}
      {expiresAt : Nat} (hact : CanAct s p auction) (hmin : getMinimumAuctionBid auction ≤ amount)
      (hbidder : s.player? p = some bidder) (hcash : amount ≤ bidder.cash) :
      Bidding condition p s [.auctionBidPlaced p auction.tileKey amount]
        { s with auction := some (afterBid auction p amount expiresAt) }
  | bidWon {auction : GameEngineAuction} {bidder : GameEnginePlayer} {amount : Int}
      (hact : CanAct s p auction) (hmin : getMinimumAuctionBid auction ≤ amount)
      (hbidder : s.player? p = some bidder) (hcash : amount ≤ bidder.cash) (h0 : 0 ≤ amount) :
      Bidding condition p s
        [.auctionBidPlaced p auction.tileKey amount, .auctionWon p auction.tileKey amount]
        (closeAuction (s.addCash p (-amount)) auction.tileKey (some p))
  | passed {auction : GameEngineAuction} {expiresAt : Nat} (hact : CanAct s p auction)
      (hremain : (afterPass auction p expiresAt).activeBidders ≠ []) :
      Bidding condition p s [.auctionBidPassed p auction.tileKey]
        { s with auction := some (afterPass auction p expiresAt) }
  | passedWon {auction : GameEngineAuction} {leader : RoomPlayerId} {bidder : GameEnginePlayer}
      (hact : CanAct s p auction) (hleader : auction.highestBidderRoomPlayerId = some leader)
      (hbidder : s.player? leader = some bidder) (hcash : auction.currentBid ≤ bidder.cash)
      (h0 : 0 ≤ auction.currentBid) (hcondition : condition s leader) :
      Bidding condition p s
        [.auctionBidPassed p auction.tileKey,
          .auctionWon leader auction.tileKey auction.currentBid]
        (closeAuction (s.addCash leader (-auction.currentBid)) auction.tileKey (some leader))
  | passedUnsold {auction : GameEngineAuction} (hact : CanAct s p auction)
      (hleader : auction.highestBidderRoomPlayerId = none) :
      Bidding condition p s [.auctionBidPassed p auction.tileKey] (closeAuction s auction.tileKey none)

/-! ## The code -/

section Code

variable {s : GameEngineState} {p : RoomPlayerId} {pl : GameEnginePlayer}
  {auction : GameEngineAuction} {condition : GameEngineState → RoomPlayerId → Prop}

theorem assertActiveAuction_eq_ok :
    assertActiveAuction s = .ok auction ↔
      s.phase = .awaitingAuctionBid ∧ s.auction = some auction := by
  simp only [assertActiveAuction, orThrow_eq_ok]
  split
  · rename_i hphase
    exact ⟨fun h => ⟨hphase, h⟩, fun h => h.2⟩
  · rename_i hphase
    constructor
    · intro hcontra
      cases hcontra
    · rintro ⟨hcontra, _⟩
      exact absurd hcontra hphase

theorem assertAuctionPlayerActive_eq_ok {u : Unit} :
    assertAuctionPlayerActive auction p = .ok u ↔
      p ∈ auction.activeRoomPlayerIds ∧ p ∉ auction.passedRoomPlayerIds := by
  simp [assertAuctionPlayerActive]

theorem integerAtLeast_eq_some {minimum value : Int} {number : JsNumber} :
    integerAtLeast minimum number = some value ↔ number = .int value ∧ minimum ≤ value := by
  cases number with
  | int n =>
    simp only [integerAtLeast]
    split
    · rename_i h
      constructor
      · rintro ⟨⟩
        exact ⟨rfl, h⟩
      · rintro ⟨⟨⟩, _⟩
        rfl
    · rename_i h
      constructor
      · intro hcontra
        cases hcontra
      · rintro ⟨⟨⟩, hle⟩
        exact absurd hle h
  | notInteger => simp [integerAtLeast]

theorem minimumAuctionBid_le : minimumAuctionBid ≤ getMinimumAuctionBid auction ∨
    0 < auction.currentBid ∧ getMinimumAuctionBid auction = auction.currentBid + 1 := by
  unfold getMinimumAuctionBid
  split
  · exact .inl (le_refl _)
  · exact .inr ⟨by omega, rfl⟩

theorem getMinimumAuctionBid_pos : 0 < getMinimumAuctionBid auction := by
  rcases (minimumAuctionBid_le : minimumAuctionBid ≤ getMinimumAuctionBid auction ∨ _) with
    h | ⟨hpos, h⟩
  · have : minimumAuctionBid = 10 := rfl
    omega
  · omega

theorem declinePropertyPurchase_bidding (ho : OnTurn s p pl)
    (hphase : s.phase = .awaitingPropertyDecision) {env : Env} {r : GameEngineResult}
    (h : declinePropertyPurchase env s p = .ok r) : Bidding condition p s r.events r.state := by
  simp only [declinePropertyPurchase, bind_eq_ok, orThrow_eq_ok, findPropertyStateOr_eq_ok,
    rejectIf_eq_ok, pure_eq_ok] at h
  obtain ⟨key, hpending, tile, htile, property, hproperty, _, hfree, rfl⟩ := h
  obtain rfl := ownable_of_tile? htile
  exact .declined ho hphase hpending htile hproperty (by simpa using hfree)

theorem placeAuctionBid_bidding {env : Env} {amount : JsNumber} {r : GameEngineResult}
    (h : placeAuctionBid env s p amount = .ok r) : Bidding condition p s r.events r.state := by
  simp only [placeAuctionBid, bind_eq_ok, assertActiveAuction_eq_ok,
    assertAuctionPlayerActive_eq_ok, orThrow_eq_ok, integerAtLeast_eq_some, findPlayer_eq_ok,
    rejectIf_eq_ok] at h
  obtain ⟨auction, ⟨hphase, hauction⟩, _, ⟨hactive, hremains⟩, _, _, value, ⟨_, hmin⟩, bidder,
    hbidder, _, hcash, h⟩ := h
  have hact : CanAct s p auction := ⟨hphase, hauction, hactive, hremains⟩
  have hcash : value ≤ bidder.cash := not_lt.mp hcash
  split at h
  · simp only [completeAuctionWithWinner, bind_eq_ok, debitPlayer_eq_ok, pure_eq_ok] at h
    obtain ⟨_, ⟨h0, _, _, _, rfl⟩, rfl⟩ := h
    exact .bidWon hact hmin hbidder hcash h0
  · simp only [pure_eq_ok] at h
    subst h
    exact .bid hact hmin hbidder hcash

theorem passAuctionBid_bidding {env : Env} {r : GameEngineResult}
    (hcondition : ∀ auction leader, s.auction = some auction →
      auction.highestBidderRoomPlayerId = some leader → condition s leader)
    (h : passAuctionBid env s p = .ok r) : Bidding condition p s r.events r.state := by
  simp only [passAuctionBid, bind_eq_ok, assertActiveAuction_eq_ok,
    assertAuctionPlayerActive_eq_ok] at h
  obtain ⟨auction, ⟨hphase, hauction⟩, _, ⟨hactive, hremains⟩, _, _, h⟩ := h
  have hact : CanAct s p auction := ⟨hphase, hauction, hactive, hremains⟩
  split at h
  · rename_i hwon
    obtain ⟨leader, hleader⟩ := Option.isSome_iff_exists.mp hwon.1
    have hleader : auction.highestBidderRoomPlayerId = some leader := hleader
    simp only [completeAuctionWithWinner, hleader, bind_eq_ok, debitPlayer_eq_ok,
      pure_eq_ok] at h
    obtain ⟨_, ⟨h0, bidder, hbidder, hcash, rfl⟩, rfl⟩ := h
    exact .passedWon hact hleader hbidder hcash h0 (hcondition auction leader hauction hleader)
  · rename_i hnotWon
    split at h
    · rename_i hunsold
      simp only [pure_eq_ok] at h
      subst h
      exact .passedUnsold hact (Option.isNone_iff_eq_none.mp hunsold.1)
    · rename_i hnotUnsold
      simp only [pure_eq_ok] at h
      subst h
      refine .passed hact fun hnone => ?_
      -- with nobody left the auction would have closed one way or the other
      have hlength := congrArg List.length hnone
      cases hleader : auction.highestBidderRoomPlayerId with
      | none => exact hnotUnsold ⟨by simp [hleader], hlength⟩
      | some leader => exact hnotWon ⟨by simp [hleader], (le_of_eq hlength).trans (by simp)⟩

end Code

end Rules
end LivePoly
