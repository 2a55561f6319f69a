import LivePoly.Engine.Bankruptcy

/-!
# Engine.Intents

The engine as its callers see it: the end of a turn (`game-engine-turns.ts`), the guards
`GameEngineService` puts before each intent, the reducer `reduceGameEngineIntent`, the state a
room's game starts in (`rooms-game.service.ts`) and the intent the timer plays for a player who
does not act (`game-turn-timer-policy.service.ts`).
-/

namespace LivePoly
namespace Engine

open Checked

/-! ## The end of a turn -/

def findNextActivePlayer (state : GameEngineState) : Checked GameEnginePlayer := do
  let activePlayers := getActivePlayers state
  rejectIf (activePlayers.length = 0) .noActivePlayers "Game has no active players"
  let currentIndex ← orThrow
    (activePlayers.findIdx? fun player => player.roomPlayerId = state.currentTurnRoomPlayerId)
    (.gameEngineError .playerNotFound "Current turn player is not active")
  orThrow activePlayers[(currentIndex + 1) % activePlayers.length]? .typeError

def endTurn (state : GameEngineState) (roomPlayerId : RoomPlayerId) :
    Checked GameEngineResult := do
  if state.shouldCurrentPlayerPlayAgain then
    return {
      state := { state with
        phase := .awaitingRoll
        lastDiceRoll := none
        tradeOffer := none
        shouldCurrentPlayerPlayAgain := false }
      events := [.turnEnded roomPlayerId roomPlayerId state.turnNumber] }
  else
    let nextPlayer ← findNextActivePlayer state
    let nextTurnNumber := state.turnNumber + 1
    return {
      state := { state with
        phase := .awaitingRoll
        turnNumber := nextTurnNumber
        currentTurnRoomPlayerId := nextPlayer.roomPlayerId
        consecutiveDoublesCount := 0
        shouldCurrentPlayerPlayAgain := false
        lastDiceRoll := none
        tradeOffer := none }
      events := [.turnEnded roomPlayerId nextPlayer.roomPlayerId nextTurnNumber] }

/-! ## The service and the reducer -/

namespace GameEngineService

def rollAndMove (state : GameEngineState) (roomPlayerId : RoomPlayerId) (dice : List JsNumber) :
    Checked GameEngineResult := do
  assertCanRoll state
  assertCurrentTurn state roomPlayerId
  let dice ← assertValidDice dice
  Engine.rollAndMove state roomPlayerId dice

def buyProperty (state : GameEngineState) (roomPlayerId : RoomPlayerId) :
    Checked GameEngineResult := do
  assertCanBuyProperty state
  assertCurrentTurn state roomPlayerId
  Engine.buyProperty state roomPlayerId

def declinePropertyPurchase (env : Env) (state : GameEngineState)
    (roomPlayerId : RoomPlayerId) : Checked GameEngineResult := do
  assertCanBuyProperty state
  assertCurrentTurn state roomPlayerId
  Engine.declinePropertyPurchase env state roomPlayerId

/-- The methods that only ask for the turn: building, selling, mortgages, leaving jail. -/
def onOwnTurn (state : GameEngineState) (roomPlayerId : RoomPlayerId)
    (action : Checked GameEngineResult) : Checked GameEngineResult := do
  assertCurrentTurn state roomPlayerId
  action

def endTurn (state : GameEngineState) (roomPlayerId : RoomPlayerId) :
    Checked GameEngineResult := do
  assertCanEndTurn state
  assertCurrentTurn state roomPlayerId
  Engine.endTurn state roomPlayerId

end GameEngineService

open GameEngineService (onOwnTurn)

def reduceGameEngineIntent (env : Env) (state : GameEngineState) :
    GameEngineIntent → Checked GameEngineResult
  | .rollAndMove p dice => GameEngineService.rollAndMove state p dice
  | .buyProperty p => GameEngineService.buyProperty state p
  | .declinePropertyPurchase p => GameEngineService.declinePropertyPurchase env state p
  | .placeAuctionBid p amount => placeAuctionBid env state p amount
  | .passAuctionBid p => passAuctionBid env state p
  | .buildProperty p tileKey => onOwnTurn state p (buildProperty state p tileKey)
  | .sellBuilding p tileKey => onOwnTurn state p (sellBuilding state p tileKey)
  | .mortgageProperty p tileKey => onOwnTurn state p (mortgageProperty state p tileKey)
  | .unmortgageProperty p tileKey => onOwnTurn state p (unmortgageProperty state p tileKey)
  | .proposeTrade input => proposeTrade env state input
  | .acceptTrade p tradeId => acceptTrade state p tradeId
  | .rejectTrade p tradeId => rejectTrade state p tradeId
  | .cancelTrade p tradeId => cancelTrade state p tradeId
  | .declareBankruptcy p creditor => declareBankruptcy state p creditor
  | .payDebt p => payDebt state p
  | .autoResolveDebt p => autoResolveDebt state p
  | .payJailFine p => onOwnTurn state p (payJailFine state p)
  | .useGetOutOfJailCard p => onOwnTurn state p (useGetOutOfJailCard state p)
  | .endTurn p => GameEngineService.endTurn state p
  | .finishGameByTime finishedAt => finishGameByTime state finishedAt
  | .finishGameAfterLastHumanLeft finishedAt => finishGameAfterLastHumanLeft state finishedAt

/-! ## The initial state -/

structure JoinedRoomPlayer where
  id : RoomPlayerId
  playerType : PlayerType
  botDifficulty : Option BotDifficulty
  seatNumber : Nat
  deriving DecidableEq

structure CreateInitialGameStateInput where
  roomId : String
  startedAt : Option Nat
  durationMinutes : Nat
  players : List JoinedRoomPlayer
  deriving DecidableEq

/-- `STARTING_CASH` -/
def startingCash : Int := 1500

/-- `GAME_TURN_TIMER.timeoutMs` -/
def turnTimeoutMs : Nat := 90000

def createInitialPlayer (player : JoinedRoomPlayer) : GameEnginePlayer where
  roomPlayerId := player.id
  playerType := player.playerType
  botDifficulty := player.botDifficulty
  seatNumber := player.seatNumber
  cash := startingCash
  position := 0
  inJail := false
  jailTurnCount := 0
  getOutOfJailFreeCards := 0
  getOutOfJailFreeCardKeys := []
  consecutiveMissedTurns := 0
  lastMissedTurnNumber := none
  lastBotTradeProposalTurnNumber := none
  bankrupt := false

/-- Without players, `input.players[0].id` reads a property of `undefined`. -/
def createInitialGameState (env : Env) (input : CreateInitialGameStateInput) :
    Checked GameEngineState := do
  let startedAt := input.startedAt.getD env.now
  let expiresAt := startedAt + input.durationMinutes * 60 * 1000
  let firstPlayer ← orThrow input.players.head? .typeError
  return {
    boardKey := .classic
    expiresAt := some expiresAt
    turnExpiresAt := some (min (startedAt + turnTimeoutMs) expiresAt)
    phase := .awaitingFirstTurn
    turnNumber := 1
    currentTurnRoomPlayerId := firstPlayer.id
    consecutiveDoublesCount := 0
    shouldCurrentPlayerPlayAgain := false
    lastDiceRoll := none
    pendingTileKey := none
    auction := none
    tradeOffer := none
    debt := none
    decks := createInitialDeckState (some input.roomId)
    players := input.players.map createInitialPlayer
    properties := createInitialPropertyState .classic }

/-! ## The timer's move -/

/-- `GAME_TURN_TIMER.maxConsecutiveMissedTurns` -/
def maxConsecutiveMissedTurns : Nat := 3

def getConsecutiveMissedTurns (state : GameEngineState) (roomPlayerId : RoomPlayerId) : Nat :=
  ((state.player? roomPlayerId).map GameEnginePlayer.consecutiveMissedTurns).getD 0

def shouldForfeitCurrentPlayer (state : GameEngineState) (player : GameEnginePlayer) : Bool :=
  player.playerType = .human &&
    maxConsecutiveMissedTurns - 1 ≤ getConsecutiveMissedTurns state player.roomPlayerId

/-- A time of the state has come: it is set and not later than the clock. -/
def isDue (now : Nat) (time : Option Nat) : Bool :=
  time.any fun time => time ≠ 0 && time ≤ now

/-- `dice` is what `rollDice` picks. -/
def chooseTimeoutIntent (env : Env) (state : GameEngineState) (dice : DiceRoll) :
    Option GameEngineIntent :=
  if state.phase = .finished ∨ state.phase = .cancelled then none
  else if isDue env.now state.expiresAt then some (.finishGameByTime (.int env.now))
  else
    match (state.player? state.currentTurnRoomPlayerId).filter fun player =>
        !player.bankrupt with
    | none => none
    | some currentPlayer =>
      if state.phase = .awaitingDebtResolution then
        state.debt.map fun debt => .autoResolveDebt debt.roomPlayerId
      else if shouldForfeitCurrentPlayer state currentPlayer then
        some (.declareBankruptcy currentPlayer.roomPlayerId none)
      else
        match state.phase with
        | .awaitingFirstTurn | .awaitingRoll =>
          some (.rollAndMove currentPlayer.roomPlayerId [.int dice.1, .int dice.2])
        | .awaitingPropertyDecision =>
          some (.declinePropertyPurchase currentPlayer.roomPlayerId)
        | .awaitingAuctionBid =>
          if (state.auction.bind GameEngineAuction.bidExpiresAt).any fun bidExpiresAt =>
              bidExpiresAt ≠ 0 && env.now < bidExpiresAt then none
          else
            (state.auction.bind getCurrentAuctionBidderRoomPlayerId).map .passAuctionBid
        | .awaitingTurnEnd => some (.endTurn currentPlayer.roomPlayerId)
        | _ => none

end Engine
end LivePoly
