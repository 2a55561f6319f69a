import LivePoly.Service.Commands

/-!
# Service.Jobs

The jobs of `GameProcessor` that play for someone: a turn timeout and a bot's turn. What they do
after their command (publishing its result, enqueueing the next jobs) does not touch the stores of
the game and is left out.
-/

namespace LivePoly
namespace Service

open Engine Process Process.Proc

/-- The parts the source joins to a text; ids are UUIDs, so equal texts have equal parts. -/
inductive ActionStateKey where
  | turn (turnExpiresAt : Option Nat)
  | auction (currentBid : Int) (highestBidderRoomPlayerId currentBidderRoomPlayerId :
      Option RoomPlayerId) (bidExpiresAt : Option Nat) (passedRoomPlayerIds : List RoomPlayerId)
  deriving DecidableEq

structure ExecuteTurnTimeoutJob where
  turnNumber : Nat
  phase : GamePhase
  currentTurnRoomPlayerId : RoomPlayerId
  actionStateKey : ActionStateKey
  deriving DecidableEq

structure BotDecision where
  roomPlayerId : RoomPlayerId
  intent : GameEngineIntent
  deriving DecidableEq

namespace GameProcessor

variable {τ : Type}

def getActionStateKey (state : GameEngineState) : ActionStateKey :=
  if state.phase ≠ .awaitingAuctionBid then .turn state.turnExpiresAt
  else
    match state.auction with
    | none => .turn state.turnExpiresAt
    | some auction =>
      .auction auction.currentBid auction.highestBidderRoomPlayerId
        auction.currentBidderRoomPlayerId auction.bidExpiresAt auction.passedRoomPlayerIds

def isTimerJobCurrent (data : ExecuteTurnTimeoutJob) (state : GameEngineState) : Bool :=
  data.turnNumber = state.turnNumber && data.phase = state.phase &&
    data.currentTurnRoomPlayerId = state.currentTurnRoomPlayerId &&
    data.actionStateKey = getActionStateKey state

def getIntentRoomPlayerId (intent : GameEngineIntent) : Option RoomPlayerId :=
  getIntentActorRoomPlayerId intent

def processExecuteTurnTimeout (json : StateCodec τ) (data : ExecuteTurnTimeoutJob) :
    Task τ (Option GameCommandResult) := do
  let state ← GameRecoveryService.getOrRecover json
  if !isTimerJobCurrent data state then return none
  else
    let ambient ← readAmbient
    match chooseTimeoutIntent ambient.engine state ambient.dice with
    | none => return none
    | some intent =>
      return some (← GameCommandsService.executeIntent json
        { roomPlayerId := getIntentRoomPlayerId intent, intent, source := some .timer })

/-- `chooseDecision` may be any policy of `GameBotService`. -/
def processExecuteBotTurn (json : StateCodec τ)
    (chooseDecision : Ambient → GameEngineState → Option BotDecision) :
    Task τ (Option GameCommandResult) := do
  let state ← GameRecoveryService.getOrRecover json
  let ambient ← readAmbient
  match chooseDecision ambient state with
  | none => return none
  | some decision =>
    return some (← GameCommandsService.executeIntent json
      { roomPlayerId := some decision.roomPlayerId, intent := decision.intent, source := some .bot })

end GameProcessor

end Service
end LivePoly
