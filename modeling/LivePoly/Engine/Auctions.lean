import LivePoly.Engine.Movement
import LivePoly.Lib.Distinct

/-!
# Engine.Auctions

`game-engine-auctions.ts`: declining a purchase opens an auction among the active players, who
bid or pass in seat order until at most one bidder is left.
-/

namespace LivePoly
namespace Engine

open Checked

def minimumAuctionBid : Int := 10

/-- `GAME_TURN_TIMER.auctionBidTimeoutMs` -/
def auctionBidTimeoutMs : Nat := 25000

/-- The players still in the game, in seat order: `getActivePlayers`, and the same chain written
out in other modules. -/
def getActivePlayers (state : GameEngineState) : List GameEnginePlayer :=
  (state.players.filter fun player => !player.bankrupt).insertionSort
    fun left right => left.seatNumber ≤ right.seatNumber

/-! ## Who bids next -/

/-- The bidders that have not passed. -/
def GameEngineAuction.activeBidders (auction : GameEngineAuction) : List RoomPlayerId :=
  auction.activeRoomPlayerIds.filter fun roomPlayerId =>
    roomPlayerId ∉ auction.passedRoomPlayerIds

def getCurrentAuctionBidderRoomPlayerId (auction : GameEngineAuction) : Option RoomPlayerId :=
  match auction.currentBidderRoomPlayerId.filter fun bidder =>
      bidder ∈ auction.activeRoomPlayerIds ∧ bidder ∉ auction.passedRoomPlayerIds with
  | some bidder => some bidder
  | none =>
    auction.activeRoomPlayerIds.find? fun roomPlayerId =>
      roomPlayerId ∉ auction.passedRoomPlayerIds

def getMinimumAuctionBid (auction : GameEngineAuction) : Int :=
  if auction.currentBid ≤ 0 then minimumAuctionBid else auction.currentBid + 1

/-- The clock's time plus the bid timeout, and no later than the end of the game. -/
def getNextAuctionBidExpiresAt (env : Env) (state : GameEngineState) : Nat :=
  let bidExpiresAt := env.now + auctionBidTimeoutMs
  match state.expiresAt.filter (· ≠ 0) with
  | some expiresAt => min bidExpiresAt expiresAt
  | none => bidExpiresAt

/-- `Array.prototype.indexOf` -/
def jsIndexOf {α : Type} [DecidableEq α] (values : List α) (a : α) : Int :=
  if a ∈ values then values.idxOf a else -1

/-- The candidates in the order the search visits them: from the one after the current bidder
round to the current bidder. -/
def auctionCandidates (auction : GameEngineAuction) (currentRoomPlayerId : RoomPlayerId) :
    List RoomPlayerId :=
  let active := auction.activeRoomPlayerIds
  (List.range active.length).filterMap fun offset =>
    jsIndex active
      (Int.tmod (jsIndexOf active currentRoomPlayerId + (offset + 1 : Nat) + active.length)
        active.length)

def getNextAuctionBidderRoomPlayerId (auction : GameEngineAuction)
    (currentRoomPlayerId : RoomPlayerId) : Option RoomPlayerId :=
  if auction.activeBidders.length = 0 then none
  else
    match (auctionCandidates auction currentRoomPlayerId).find? fun candidate =>
        candidate ∉ auction.passedRoomPlayerIds with
    | none => none
    | some candidate =>
      if auction.activeBidders.length ≤ 1 ∧ auction.highestBidderRoomPlayerId = some candidate then
        none
      else some candidate

/-! ## Guards -/

def assertActiveAuction (state : GameEngineState) : Checked GameEngineAuction :=
  orThrow (if state.phase = .awaitingAuctionBid then state.auction else none)
    (.gameEngineError .noActiveAuction "There is no active auction")

def assertAuctionPlayerActive (auction : GameEngineAuction) (roomPlayerId : RoomPlayerId) :
    Checked Unit :=
  rejectIf (roomPlayerId ∉ auction.activeRoomPlayerIds ∨
      roomPlayerId ∈ auction.passedRoomPlayerIds)
    .auctionPlayerNotActive "Player is not active in this auction"

def assertAuctionPlayerCanAct (auction : GameEngineAuction) (roomPlayerId : RoomPlayerId) :
    Checked Unit :=
  rejectIf (getCurrentAuctionBidderRoomPlayerId auction ≠ some roomPlayerId)
    .auctionPlayerNotCurrent "It is not this player's auction turn"

/-! ## The intents -/

def declinePropertyPurchase (env : Env) (state : GameEngineState) (roomPlayerId : RoomPlayerId) :
    Checked GameEngineResult := do
  let tileKey ← orThrow state.pendingTileKey
    (.gameEngineError .noPropertyDecision "There is no property decision to resolve")
  let tile ← orThrow ((state.board.tile? tileKey).bind GameTile.ownable?)
    (.gameEngineError .tileNotOwnable "Tile cannot be auctioned")
  let property ← findPropertyStateOr "Tile cannot be auctioned" state tile.key
  rejectIf property.ownerRoomPlayerId.isSome .propertyAlreadyOwned "Property is already owned"
  let activeRoomPlayerIds := (getActivePlayers state).map GameEnginePlayer.roomPlayerId
  return {
    state := { state with
      phase := .awaitingAuctionBid
      pendingTileKey := none
      auction := some {
        tileKey := tile.key
        currentBid := 0
        highestBidderRoomPlayerId := none
        currentBidderRoomPlayerId := activeRoomPlayerIds.head?
        bidExpiresAt := some (getNextAuctionBidExpiresAt env state)
        activeRoomPlayerIds
        passedRoomPlayerIds := [] } }
    events := [.propertyPurchaseDeclined roomPlayerId tile.key,
      .auctionStarted tile.key activeRoomPlayerIds] }

/-- The state after an auction that leaves the tile to `ownerRoomPlayerId`. -/
def closeAuction (state : GameEngineState) (tileKey : TileKey)
    (ownerRoomPlayerId : Option RoomPlayerId) : GameEngineState :=
  { state with phase := .awaitingTurnEnd, auction := none }.updatePropertyState tileKey
    fun property => { property with ownerRoomPlayerId }

def completeAuctionWithoutWinner (state : GameEngineState) (auction : GameEngineAuction)
    (passEvent : GameEngineEvent) : GameEngineResult where
  state := closeAuction state auction.tileKey none
  events := [passEvent]

def completeAuctionWithWinner (state : GameEngineState) (auction : GameEngineAuction)
    (triggerEvent : GameEngineEvent) : Checked GameEngineResult :=
  match auction.highestBidderRoomPlayerId with
  | none => .ok (completeAuctionWithoutWinner state auction triggerEvent)
  | some highestBidder => do
    let debitedState ← debitPlayer state highestBidder auction.currentBid
    return {
      state := closeAuction debitedState auction.tileKey (some highestBidder)
      events := [triggerEvent,
        .auctionWon highestBidder auction.tileKey auction.currentBid] }

/-- `Number.isInteger(amount) && amount >= minimum`, with the narrowed amount. -/
def integerAtLeast (minimum : Int) : JsNumber → Option Int
  | .int value => if minimum ≤ value then some value else none
  | .notInteger => none

def placeAuctionBid (env : Env) (state : GameEngineState) (roomPlayerId : RoomPlayerId)
    (amount : JsNumber) : Checked GameEngineResult := do
  let auction ← assertActiveAuction state
  assertAuctionPlayerActive auction roomPlayerId
  assertAuctionPlayerCanAct auction roomPlayerId
  let minimumBid := getMinimumAuctionBid auction
  let amount ← orThrow (integerAtLeast minimumBid amount)
    (.gameEngineError .invalidAuctionBid s!"Auction bid must be at least {minimumBid}")
  let bidder ← findPlayer state roomPlayerId
  rejectIf (bidder.cash < amount) .insufficientFunds "Player does not have enough cash"
  let bidEvent : GameEngineEvent := .auctionBidPlaced roomPlayerId auction.tileKey amount
  let nextAuction := { auction with
    currentBid := amount
    highestBidderRoomPlayerId := some roomPlayerId
    currentBidderRoomPlayerId := none
    bidExpiresAt := some (getNextAuctionBidExpiresAt env state) }
  let nextAuction := { nextAuction with
    currentBidderRoomPlayerId := getNextAuctionBidderRoomPlayerId nextAuction roomPlayerId }
  if nextAuction.currentBidderRoomPlayerId.isNone then
    completeAuctionWithWinner state nextAuction bidEvent
  else
    return { state := { state with auction := some nextAuction }, events := [bidEvent] }

def passAuctionBid (env : Env) (state : GameEngineState) (roomPlayerId : RoomPlayerId) :
    Checked GameEngineResult := do
  let auction ← assertActiveAuction state
  assertAuctionPlayerActive auction roomPlayerId
  assertAuctionPlayerCanAct auction roomPlayerId
  let nextAuction := { auction with
    passedRoomPlayerIds := Distinct.distinct (auction.passedRoomPlayerIds ++ [roomPlayerId]) }
  let nextAuction := { nextAuction with
    currentBidderRoomPlayerId := getNextAuctionBidderRoomPlayerId nextAuction roomPlayerId
    bidExpiresAt := some (getNextAuctionBidExpiresAt env state) }
  let passEvent : GameEngineEvent := .auctionBidPassed roomPlayerId auction.tileKey
  let activeBidders := nextAuction.activeBidders
  if nextAuction.highestBidderRoomPlayerId.isSome ∧ activeBidders.length ≤ 1 then
    completeAuctionWithWinner state nextAuction passEvent
  else if nextAuction.highestBidderRoomPlayerId.isNone ∧ activeBidders.length = 0 then
    return completeAuctionWithoutWinner state nextAuction passEvent
  else
    return { state := { state with auction := some nextAuction }, events := [passEvent] }

end Engine
end LivePoly
