import LivePoly.Engine.Board
import LivePoly.Lib.Checked

/-!
# Engine.State

The engine's data: game state, events, intents and errors (`game-engine.types.ts` and the intent
union of `game-engine-intents.ts`). An optional or nullable field of the source is an `Option`;
`undefined` and `null` are not told apart, as the source never does. Fields the engine neither
reads nor writes after the game is created (room code, mode, user names) are left out.
-/

namespace LivePoly
namespace Engine

/-- The id of a room player, a UUID of the database. The engine only compares ids; a UUID is
never the empty string, so the source's truthiness tests on an id are tests for `null`. -/
structure RoomPlayerId where
  uuid : Nat
  deriving DecidableEq

inductive GamePhase where
  | awaitingFirstTurn | awaitingRoll | awaitingPropertyDecision | awaitingAuctionBid
  | awaitingDebtResolution | awaitingTurnEnd | finished | cancelled
  deriving DecidableEq

inductive PlayerType where
  | human | bot
  deriving DecidableEq

inductive BotDifficulty where
  | easy | normal | hard
  deriving DecidableEq

abbrev DiceRoll := Nat × Nat

/-- A number a client sends: an integer, or anything `Number.isInteger` rejects. -/
inductive JsNumber where
  | int (value : Int)
  | notInteger
  deriving DecidableEq

inductive GameCardDeckKey where
  | chance | worldFund
  deriving DecidableEq

inductive CardKey where
  | chanceBankDividend | chanceChairmanBonus | chanceAdvanceToGo | chanceAdvanceToSpain
  | chanceAdvanceToUk | chanceAdvanceToLagosAirport | chanceNearestAirport
  | chanceNearestUtility | chanceGoBackThree | chanceGoToJail | chanceBuildingRepairs
  | chancePaySchoolFees | chanceSpeedingFine | chanceLoanMatures | chancePayEachPlayer
  | chanceGetOutOfJailFree
  | worldFundReceive25 | worldFundBankError | worldFundDoctorFee | worldFundSaleOfStock
  | worldFundPayHospital | worldFundLifeInsurance | worldFundIncomeTaxRefund
  | worldFundBirthday | worldFundHolidayFund | worldFundConsultancyFee
  | worldFundStreetRepairs | worldFundAdvanceToGo | worldFundGoToJail
  | worldFundBeautyContest | worldFundInherit | worldFundGetOutOfJailFree
  deriving DecidableEq

inductive GameCardEffect where
  | collectMoney (amount : Int)
  | payMoney (amount : Int)
  | moveToTile (tileKey : TileKey) (collectPassGo : Bool)
  | moveRelative (spaces : Int)
  | moveToNearest (tileKind : GameTileKind) (collectPassGo : Bool)
  | goToJail
  | getOutOfJailFree
  | collectFromEachPlayer (amount : Int)
  | payEachPlayer (amount : Int)
  | propertyRepairs (houseAmount hotelAmount : Int)
  deriving DecidableEq

inductive GameCardEffectType where
  | collectMoney | payMoney | moveToTile | moveRelative | moveToNearest | goToJail
  | getOutOfJailFree | collectFromEachPlayer | payEachPlayer | propertyRepairs
  deriving DecidableEq

/-- `effect.type` -/
def GameCardEffect.type : GameCardEffect → GameCardEffectType
  | collectMoney _ => .collectMoney
  | payMoney _ => .payMoney
  | moveToTile _ _ => .moveToTile
  | moveRelative _ => .moveRelative
  | moveToNearest _ _ => .moveToNearest
  | goToJail => .goToJail
  | getOutOfJailFree => .getOutOfJailFree
  | collectFromEachPlayer _ => .collectFromEachPlayer
  | payEachPlayer _ => .payEachPlayer
  | propertyRepairs _ _ => .propertyRepairs

structure GameEngineCard where
  key : CardKey
  effect : GameCardEffect
  deriving DecidableEq

structure GameEngineDeckState where
  drawPile : List CardKey
  discardPile : List CardKey
  deriving DecidableEq

structure GameEngineDecks where
  chance : GameEngineDeckState
  worldFund : GameEngineDeckState
  deriving DecidableEq

structure GameEnginePlayer where
  roomPlayerId : RoomPlayerId
  playerType : PlayerType
  botDifficulty : Option BotDifficulty
  seatNumber : Nat
  cash : Int
  position : Nat
  inJail : Bool
  jailTurnCount : Nat
  getOutOfJailFreeCards : Nat
  getOutOfJailFreeCardKeys : List CardKey
  consecutiveMissedTurns : Nat
  lastMissedTurnNumber : Option Nat
  lastBotTradeProposalTurnNumber : Option Nat
  bankrupt : Bool
  deriving DecidableEq

structure GameEngineProperty where
  tileKey : TileKey
  ownerRoomPlayerId : Option RoomPlayerId
  houseCount : Int
  hasHotel : Bool
  mortgaged : Bool
  deriving DecidableEq

structure GameEngineAuction where
  tileKey : TileKey
  currentBid : Int
  highestBidderRoomPlayerId : Option RoomPlayerId
  currentBidderRoomPlayerId : Option RoomPlayerId
  bidExpiresAt : Option Nat
  activeRoomPlayerIds : List RoomPlayerId
  passedRoomPlayerIds : List RoomPlayerId
  deriving DecidableEq

structure GameEngineTradeOffer where
  id : String
  fromRoomPlayerId : RoomPlayerId
  toRoomPlayerId : RoomPlayerId
  offeredCash : Int
  requestedCash : Int
  offeredPropertyKeys : List TileKey
  requestedPropertyKeys : List TileKey
  createdAt : Nat
  deriving DecidableEq

inductive GameEngineDebtReason where
  | rent | tax | card | jailFine
  deriving DecidableEq

structure GameEngineDebt where
  roomPlayerId : RoomPlayerId
  creditorRoomPlayerId : Option RoomPlayerId
  amount : Int
  reason : GameEngineDebtReason
  deriving DecidableEq

structure GameEngineState where
  boardKey : GameBoardKey
  expiresAt : Option Nat
  turnExpiresAt : Option Nat
  phase : GamePhase
  turnNumber : Nat
  currentTurnRoomPlayerId : RoomPlayerId
  consecutiveDoublesCount : Nat
  shouldCurrentPlayerPlayAgain : Bool
  lastDiceRoll : Option DiceRoll
  pendingTileKey : Option TileKey
  auction : Option GameEngineAuction
  tradeOffer : Option GameEngineTradeOffer
  debt : Option GameEngineDebt
  decks : GameEngineDecks
  players : List GameEnginePlayer
  properties : List GameEngineProperty
  deriving DecidableEq

structure PlayerNetWorth where
  roomPlayerId : RoomPlayerId
  seatNumber : Nat
  cash : Int
  ownedPropertyCount : Nat
  assetValue : Int
  netWorth : Int
  deriving DecidableEq

/-! ## Events -/

inductive GameEngineEvent where
  | playerMoved (roomPlayerId : RoomPlayerId) (fromPosition toPosition : Nat) (dice : DiceRoll)
  | playerRolledDoubles (roomPlayerId : RoomPlayerId) (consecutiveDoublesCount : Nat)
  | playerRolledThirdDoubles (roomPlayerId : RoomPlayerId)
  | playerPassedGo (roomPlayerId : RoomPlayerId) (amount : Int)
  | playerLandedOnTile (roomPlayerId : RoomPlayerId) (tileKey : TileKey) (tileKind : GameTileKind)
  | cardDrawn (roomPlayerId : RoomPlayerId) (deckKey : GameCardDeckKey) (cardKey : CardKey)
  | cardApplied (roomPlayerId : RoomPlayerId) (deckKey : GameCardDeckKey) (cardKey : CardKey)
      (effectType : GameCardEffectType)
  | playerSentToJail (roomPlayerId : RoomPlayerId) (jailPosition : Nat)
  | jailEscapeRollSucceeded (roomPlayerId : RoomPlayerId) (dice : DiceRoll)
  | jailEscapeRollFailed (roomPlayerId : RoomPlayerId) (dice : DiceRoll) (jailTurnCount : Nat)
  | jailForcedFinePaid (roomPlayerId : RoomPlayerId) (amount : Int)
  | jailFinePaid (roomPlayerId : RoomPlayerId) (amount : Int)
  | getOutOfJailCardUsed (roomPlayerId : RoomPlayerId)
  | playerReleasedFromJail (roomPlayerId : RoomPlayerId)
  | propertyBought (roomPlayerId : RoomPlayerId) (tileKey : TileKey) (amount : Int)
  | propertyPurchaseDeclined (roomPlayerId : RoomPlayerId) (tileKey : TileKey)
  | auctionStarted (tileKey : TileKey) (activeRoomPlayerIds : List RoomPlayerId)
  | auctionBidPlaced (roomPlayerId : RoomPlayerId) (tileKey : TileKey) (amount : Int)
  | auctionBidPassed (roomPlayerId : RoomPlayerId) (tileKey : TileKey)
  | auctionWon (roomPlayerId : RoomPlayerId) (tileKey : TileKey) (amount : Int)
  | rentPaid (payerRoomPlayerId ownerRoomPlayerId : RoomPlayerId) (tileKey : TileKey)
      (amount : Int)
  | taxPaid (roomPlayerId : RoomPlayerId) (tileKey : TileKey) (amount : Int)
  | paymentRequired (roomPlayerId : RoomPlayerId) (creditorRoomPlayerId : Option RoomPlayerId)
      (amount : Int) (reason : GameEngineDebtReason)
  | debtPaid (roomPlayerId : RoomPlayerId) (creditorRoomPlayerId : Option RoomPlayerId)
      (amount : Int) (reason : GameEngineDebtReason)
  | propertyHouseBuilt (roomPlayerId : RoomPlayerId) (tileKey : TileKey) (houseCount : Int)
      (amount : Int)
  | propertyHotelBuilt (roomPlayerId : RoomPlayerId) (tileKey : TileKey) (amount : Int)
  | propertyHouseSold (roomPlayerId : RoomPlayerId) (tileKey : TileKey) (houseCount : Int)
      (amount : Int)
  | propertyHotelSold (roomPlayerId : RoomPlayerId) (tileKey : TileKey) (amount : Int)
  | propertyMortgaged (roomPlayerId : RoomPlayerId) (tileKey : TileKey) (amount : Int)
  | propertyUnmortgaged (roomPlayerId : RoomPlayerId) (tileKey : TileKey) (amount : Int)
  | tradeProposed (tradeId : String) (fromRoomPlayerId toRoomPlayerId : RoomPlayerId)
      (offeredCash requestedCash : Int) (offeredPropertyKeys requestedPropertyKeys : List TileKey)
  | tradeBuildingsLiquidated (tradeId : String) (roomPlayerId : RoomPlayerId) (tileKey : TileKey)
      (amount : Int)
  | tradeAccepted (tradeId : String) (fromRoomPlayerId toRoomPlayerId : RoomPlayerId)
  | tradeRejected (tradeId : String) (fromRoomPlayerId toRoomPlayerId : RoomPlayerId)
      (rejectedByRoomPlayerId : RoomPlayerId)
  | tradeCancelled (tradeId : String) (fromRoomPlayerId toRoomPlayerId : RoomPlayerId)
  | playerBankrupt (roomPlayerId : RoomPlayerId) (creditorRoomPlayerId : Option RoomPlayerId)
  | gameFinishedByBankruptcy (winnerRoomPlayerId : Option RoomPlayerId)
      (tiedRoomPlayerIds : List RoomPlayerId) (standings : List PlayerNetWorth)
  | gameFinishedByTime (finishedAt : Int) (winnerRoomPlayerId : Option RoomPlayerId)
      (tiedRoomPlayerIds : List RoomPlayerId) (standings : List PlayerNetWorth)
  | gameFinishedAfterLastHumanLeft (finishedAt : Int) (winnerRoomPlayerId : Option RoomPlayerId)
      (tiedRoomPlayerIds : List RoomPlayerId) (standings : List PlayerNetWorth)
  | turnEnded (roomPlayerId nextRoomPlayerId : RoomPlayerId) (turnNumber : Nat)
  deriving DecidableEq

structure GameEngineResult where
  state : GameEngineState
  events : List GameEngineEvent
  deriving DecidableEq

/-! ## Errors -/

inductive GameEngineErrorCode where
  | gameNotActive | playerNotFound | notCurrentTurn | invalidDice | rollNotAllowed
  | buyNotAllowed | debtResolutionRequired | noActiveDebt | turnEndNotAllowed | noActivePlayers
  | noPropertyDecision | noActiveAuction | tileNotOwnable | propertyAlreadyOwned
  | insufficientFunds | invalidAuctionBid | auctionPlayerNotActive | auctionPlayerNotCurrent
  | playerNotInJail | getOutOfJailCardRequired | cardNotFound | cardDeckEmpty
  | buildingNotAllowed | propertySetNotOwned | propertyMortgaged | buildingLimitReached
  | unevenBuilding | noBuildingToSell | mortgageNotAllowed | propertyNotOwned
  | propertyHasBuildings | propertyAlreadyMortgaged | propertyNotMortgaged | tradeNotAllowed
  | tradeNotFound | invalidTrade | playerAlreadyBankrupt | invalidBankruptcyCreditor
  | invalidFinishTime | gameTimeNotExpired
  deriving DecidableEq

/-- What the engine throws: a `GameEngineError`, a plain `Error`, or a `TypeError` of the
language (a property of `undefined`). `stillLooping` is the model's own: a loop has used up its
bound on the number of rounds where the source would go on. -/
inductive EngineError where
  | gameEngineError (code : GameEngineErrorCode) (message : String)
  | error (message : String)
  | typeError
  | stillLooping
  deriving DecidableEq

abbrev Checked (α : Type) := Except EngineError α

/-! ## Intents -/

structure ProposeTradeInput where
  roomPlayerId : RoomPlayerId
  toRoomPlayerId : RoomPlayerId
  offeredCash : JsNumber
  requestedCash : JsNumber
  offeredPropertyKeys : List String
  requestedPropertyKeys : List String
  tradeId : Option String
  deriving DecidableEq

inductive GameEngineIntent where
  | rollAndMove (roomPlayerId : RoomPlayerId) (dice : List JsNumber)
  | buyProperty (roomPlayerId : RoomPlayerId)
  | declinePropertyPurchase (roomPlayerId : RoomPlayerId)
  | placeAuctionBid (roomPlayerId : RoomPlayerId) (amount : JsNumber)
  | passAuctionBid (roomPlayerId : RoomPlayerId)
  | buildProperty (roomPlayerId : RoomPlayerId) (tileKey : TileKey)
  | sellBuilding (roomPlayerId : RoomPlayerId) (tileKey : TileKey)
  | mortgageProperty (roomPlayerId : RoomPlayerId) (tileKey : TileKey)
  | unmortgageProperty (roomPlayerId : RoomPlayerId) (tileKey : TileKey)
  | proposeTrade (input : ProposeTradeInput)
  | acceptTrade (roomPlayerId : RoomPlayerId) (tradeId : String)
  | rejectTrade (roomPlayerId : RoomPlayerId) (tradeId : String)
  | cancelTrade (roomPlayerId : RoomPlayerId) (tradeId : String)
  | declareBankruptcy (roomPlayerId : RoomPlayerId) (creditorRoomPlayerId : Option RoomPlayerId)
  | payDebt (roomPlayerId : RoomPlayerId)
  | autoResolveDebt (roomPlayerId : RoomPlayerId)
  | payJailFine (roomPlayerId : RoomPlayerId)
  | useGetOutOfJailCard (roomPlayerId : RoomPlayerId)
  | endTurn (roomPlayerId : RoomPlayerId)
  | finishGameByTime (finishedAt : JsNumber)
  | finishGameAfterLastHumanLeft (finishedAt : JsNumber)
  deriving DecidableEq

/-- What the engine reads from its surroundings during one intent: the clock (`Date.now()`) and
the id `randomUUID()` returns. -/
structure Env where
  now : Nat
  randomUUID : String
  deriving DecidableEq

/-! ## Lookups and updates -/

namespace GameEngineState

/-- `state.players.find((candidate) => candidate.roomPlayerId === roomPlayerId)` -/
def player? (state : GameEngineState) (roomPlayerId : RoomPlayerId) : Option GameEnginePlayer :=
  Keyed.find GameEnginePlayer.roomPlayerId state.players roomPlayerId

/-- `state.properties.find((candidate) => candidate.tileKey === tileKey)` -/
def property? (state : GameEngineState) (tileKey : TileKey) : Option GameEngineProperty :=
  Keyed.find GameEngineProperty.tileKey state.properties tileKey

/-- `players.map` that rewrites the player with the id and returns the others. -/
def updatePlayer (state : GameEngineState) (roomPlayerId : RoomPlayerId)
    (f : GameEnginePlayer → GameEnginePlayer) : GameEngineState :=
  { state with
    players := Keyed.modify GameEnginePlayer.roomPlayerId state.players roomPlayerId f }

/-- `updatePropertyState`, with its partial record as the function that writes it. -/
def updatePropertyState (state : GameEngineState) (tileKey : TileKey)
    (updates : GameEngineProperty → GameEngineProperty) : GameEngineState :=
  { state with
    properties := Keyed.modify GameEngineProperty.tileKey state.properties tileKey updates }

def board (state : GameEngineState) : GameBoard := getGameBoard state.boardKey

end GameEngineState

end Engine
end LivePoly
