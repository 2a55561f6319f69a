import LivePoly.Engine.Intents

/-!
# Rules.Replica

What a reader of the event log alone knows of a game: of every player the cash, the position and
whether the player is in jail or bankrupt, of every tile its record, the terms of the trades
proposed so far, and how much cash there is in all. `Replica.apply` takes one event into account;
it is a few tables, of the money an event moves (`amountFor`) and how much of it comes from the
bank (`bankAmount`), of what it does to a player (`seatAfter`) and to a tile (`tileAfter`).

A card whose charge became a debt is announced by `cardApplied` and moves no money. The log shows
this by `paymentRequired` following at once, and `effective` drops the announcement.
-/

namespace LivePoly
namespace Rules

open Engine

/-- A player as the log shows it. -/
structure Seat where
  roomPlayerId : RoomPlayerId
  cash : Int
  bankrupt : Bool
  position : Nat
  inJail : Bool
  deriving DecidableEq

def seatOf (player : GameEnginePlayer) : Seat where
  roomPlayerId := player.roomPlayerId
  cash := player.cash
  bankrupt := player.bankrupt
  position := player.position
  inJail := player.inJail

/-- What a proposed trade exchanges. -/
structure Terms where
  offeredCash : Int
  requestedCash : Int
  offeredPropertyKeys : List TileKey
  requestedPropertyKeys : List TileKey
  deriving DecidableEq

def termsOf (trade : GameEngineTradeOffer) : Terms where
  offeredCash := trade.offeredCash
  requestedCash := trade.requestedCash
  offeredPropertyKeys := trade.offeredPropertyKeys
  requestedPropertyKeys := trade.requestedPropertyKeys

structure Replica where
  seats : List Seat
  tiles : List GameEngineProperty
  offers : String → Option Terms
  total : Int

/-! ## Money -/

/-- `amount` for the player `p` and nothing for the others. -/
def toPlayer (p : RoomPlayerId) (amount : Int) (seat : Seat) : Int :=
  if seat.roomPlayerId = p then amount else 0

/-- The seats of the players other than `p` still in the game. -/
def otherSeats (seats : List Seat) (p : RoomPlayerId) : List Seat :=
  seats.filter fun seat => seat.roomPlayerId ≠ p ∧ !seat.bankrupt

/-- What a card drawn by `p` gives to a seat, or takes from it. -/
def cardShare (replica : Replica) (p : RoomPlayerId) (effect : GameCardEffect) (seat : Seat) :
    Int :=
  match effect with
  | .collectMoney amount => toPlayer p amount seat
  | .payMoney amount => toPlayer p (-amount) seat
  | .collectFromEachPlayer amount =>
    if seat.roomPlayerId = p then
      ((otherSeats replica.seats p).map fun other => min other.cash amount).sum
    else if seat.bankrupt then 0
    else -min seat.cash amount
  | .payEachPlayer amount =>
    if seat.roomPlayerId = p then -((otherSeats replica.seats p).length * amount)
    else if seat.bankrupt then 0
    else amount
  | .propertyRepairs houseAmount hotelAmount =>
    toPlayer p (-repairsAmount replica.tiles p houseAmount hotelAmount) seat
  | _ => 0

/-- The money an event gives to a seat, or takes from it. -/
def amountFor (replica : Replica) (event : GameEngineEvent) (seat : Seat) : Int :=
  match event with
  | .playerPassedGo p amount
  | .propertyHouseSold p _ _ amount
  | .propertyHotelSold p _ amount
  | .propertyMortgaged p _ amount
  | .tradeBuildingsLiquidated _ p _ amount => toPlayer p amount seat
  | .propertyBought p _ amount
  | .auctionWon p _ amount
  | .taxPaid p _ amount
  | .propertyHouseBuilt p _ _ amount
  | .propertyHotelBuilt p _ amount
  | .propertyUnmortgaged p _ amount
  | .jailFinePaid p amount
  | .jailForcedFinePaid p amount => toPlayer p (-amount) seat
  | .rentPaid payer owner _ amount => toPlayer payer (-amount) seat + toPlayer owner amount seat
  | .debtPaid payer creditor amount _ =>
    toPlayer payer (-amount) seat + (creditor.elim 0 fun creditor => toPlayer creditor amount seat)
  | .tradeAccepted tradeId fromPlayer toPlayer' =>
    (replica.offers tradeId).elim 0 fun terms =>
      toPlayer fromPlayer (terms.requestedCash - terms.offeredCash) seat +
        toPlayer toPlayer' (terms.offeredCash - terms.requestedCash) seat
  | .cardApplied p _ cardKey _ =>
    (cardsByKey cardKey).elim 0 fun card => cardShare replica p card.effect seat
  | .playerBankrupt p _ => toPlayer p (-seat.cash) seat
  | _ => 0

/-- The money the bank pays out by an event, or takes in. What players pay one another is not the
bank's. -/
def bankAmount (replica : Replica) : GameEngineEvent → Int
  | .playerPassedGo _ amount
  | .propertyHouseSold _ _ _ amount
  | .propertyHotelSold _ _ amount
  | .propertyMortgaged _ _ amount
  | .tradeBuildingsLiquidated _ _ _ amount => amount
  | .propertyBought _ _ amount
  | .auctionWon _ _ amount
  | .taxPaid _ _ amount
  | .propertyHouseBuilt _ _ _ amount
  | .propertyHotelBuilt _ _ amount
  | .propertyUnmortgaged _ _ amount
  | .jailFinePaid _ amount
  | .jailForcedFinePaid _ amount
  | .debtPaid _ none amount _ => -amount
  | .cardApplied p _ cardKey _ =>
    match (cardsByKey cardKey).map GameEngineCard.effect with
    | some (.collectMoney amount) => amount
    | some (.payMoney amount) => -amount
    | some (.propertyRepairs houseAmount hotelAmount) =>
      -repairsAmount replica.tiles p houseAmount hotelAmount
    | _ => 0
  | .playerBankrupt p _ =>
    -(replica.seats.map fun seat => if seat.roomPlayerId = p then seat.cash else 0).sum
  | _ => 0

/-! ## Players and tiles -/

/-- Position, jail and bankruptcy after an event. -/
def seatAfter (event : GameEngineEvent) (seat : Seat) : Seat :=
  match event with
  | .playerMoved p _ toPosition _ =>
    if seat.roomPlayerId = p then { seat with position := toPosition } else seat
  | .playerSentToJail p jailPosition =>
    if seat.roomPlayerId = p then { seat with position := jailPosition, inJail := true } else seat
  | .playerReleasedFromJail p =>
    if seat.roomPlayerId = p then { seat with inJail := false } else seat
  | .playerBankrupt p _ =>
    if seat.roomPlayerId = p then { seat with inJail := false, bankrupt := true } else seat
  | _ => seat

/-- A traded tile goes to the other side. -/
def tradedTile (terms : Terms) (fromPlayer toPlayer : RoomPlayerId)
    (tile : GameEngineProperty) : GameEngineProperty :=
  if tile.tileKey ∈ terms.requestedPropertyKeys then
    { tile with ownerRoomPlayerId := some fromPlayer }
  else if tile.tileKey ∈ terms.offeredPropertyKeys then
    { tile with ownerRoomPlayerId := some toPlayer }
  else tile

/-- The record of a tile after an event. -/
def tileAfter (replica : Replica) (event : GameEngineEvent) (tile : GameEngineProperty) :
    GameEngineProperty :=
  match event with
  | .propertyBought p key _ | .auctionWon p key _ =>
    if tile.tileKey = key then { tile with ownerRoomPlayerId := some p } else tile
  | .propertyHouseBuilt _ key houseCount _ | .propertyHouseSold _ key houseCount _ =>
    if tile.tileKey = key then { tile with houseCount } else tile
  | .propertyHotelBuilt _ key _ =>
    if tile.tileKey = key then { tile with houseCount := 0, hasHotel := true } else tile
  | .propertyHotelSold _ key _ =>
    if tile.tileKey = key then { tile with houseCount := 4, hasHotel := false } else tile
  | .propertyMortgaged _ key _ =>
    if tile.tileKey = key then { tile with mortgaged := true } else tile
  | .propertyUnmortgaged _ key _ =>
    if tile.tileKey = key then { tile with mortgaged := false } else tile
  | .tradeBuildingsLiquidated _ _ key _ =>
    if tile.tileKey = key then { tile with houseCount := 0, hasHotel := false } else tile
  | .tradeAccepted tradeId fromPlayer toPlayer =>
    (replica.offers tradeId).elim tile fun terms => tradedTile terms fromPlayer toPlayer tile
  | .playerBankrupt p creditor => liquidateProperty p creditor tile
  | _ => tile

/-- The offers known after an event; a new offer of an old id replaces it. -/
def offersAfter (event : GameEngineEvent) (offers : String → Option Terms) :
    String → Option Terms :=
  match event with
  | .tradeProposed tradeId _ _ offeredCash requestedCash offeredPropertyKeys
      requestedPropertyKeys =>
    fun id =>
      if id = tradeId then
        some { offeredCash, requestedCash, offeredPropertyKeys, requestedPropertyKeys }
      else offers id
  | _ => offers

/-! ## The replay -/

namespace Replica

/-- Take one event into account. -/
def apply (replica : Replica) (event : GameEngineEvent) : Replica where
  seats := replica.seats.map fun seat =>
    seatAfter event { seat with cash := seat.cash + amountFor replica event seat }
  tiles := replica.tiles.map (tileAfter replica event)
  offers := offersAfter event replica.offers
  total := replica.total + bankAmount replica event

end Replica

/-- The events without the announcements of cards whose charge became a debt. -/
def effective : List GameEngineEvent → List GameEngineEvent
  | [] => []
  | .cardApplied _ _ _ _ :: .paymentRequired p creditor amount reason :: events =>
    .paymentRequired p creditor amount reason :: effective events
  | event :: events => event :: effective events

/-- The replica after the events of an intent. -/
def replay (replica : Replica) (events : List GameEngineEvent) : Replica :=
  (effective events).foldl Replica.apply replica

/-- The last event does not announce a card, so no later event bears on the events. -/
def Settled (events : List GameEngineEvent) : Prop :=
  ∀ p deckKey cardKey effectType,
    events.getLast? ≠ some (.cardApplied p deckKey cardKey effectType)

theorem settled_concat (events : List GameEngineEvent) {event : GameEngineEvent}
    (h : ∀ p deckKey cardKey effectType, event ≠ .cardApplied p deckKey cardKey effectType) :
    Settled (events ++ [event]) := by
  intro p deckKey cardKey effectType hlast
  rw [List.getLast?_append] at hlast
  exact h _ _ _ _ (Option.some.inj hlast)

theorem effective_cons_of_ne {event : GameEngineEvent} {events : List GameEngineEvent}
    (h : ∀ p deckKey cardKey effectType, event ≠ .cardApplied p deckKey cardKey effectType) :
    effective (event :: events) = event :: effective events := by
  cases event
  case cardApplied => exact absurd rfl (h _ _ _ _)
  all_goals rfl

end Rules
end LivePoly
