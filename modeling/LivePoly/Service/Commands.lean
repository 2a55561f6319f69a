import LivePoly.Service.State

/-!
# Service.Commands

`GameCommandsService`: an intent is applied to the live state by an updater, and its events, its
snapshot and, for a finished game, its result are written afterwards. The fields of the source's
objects that only its logs read are left out.
-/

namespace LivePoly
namespace Engine

inductive GameEngineIntentType where
  | rollAndMove | buyProperty | declinePropertyPurchase | placeAuctionBid | passAuctionBid
  | buildProperty | sellBuilding | mortgageProperty | unmortgageProperty | proposeTrade
  | acceptTrade | rejectTrade | cancelTrade | declareBankruptcy | payDebt | autoResolveDebt
  | payJailFine | useGetOutOfJailCard | endTurn | finishGameByTime | finishGameAfterLastHumanLeft
  deriving DecidableEq

/-- `intent.type` -/
def GameEngineIntent.type : GameEngineIntent → GameEngineIntentType
  | rollAndMove _ _ => .rollAndMove
  | buyProperty _ => .buyProperty
  | declinePropertyPurchase _ => .declinePropertyPurchase
  | placeAuctionBid _ _ => .placeAuctionBid
  | passAuctionBid _ => .passAuctionBid
  | buildProperty _ _ => .buildProperty
  | sellBuilding _ _ => .sellBuilding
  | mortgageProperty _ _ => .mortgageProperty
  | unmortgageProperty _ _ => .unmortgageProperty
  | proposeTrade _ => .proposeTrade
  | acceptTrade _ _ => .acceptTrade
  | rejectTrade _ _ => .rejectTrade
  | cancelTrade _ _ => .cancelTrade
  | declareBankruptcy _ _ => .declareBankruptcy
  | payDebt _ => .payDebt
  | autoResolveDebt _ => .autoResolveDebt
  | payJailFine _ => .payJailFine
  | useGetOutOfJailCard _ => .useGetOutOfJailCard
  | endTurn _ => .endTurn
  | finishGameByTime _ => .finishGameByTime
  | finishGameAfterLastHumanLeft _ => .finishGameAfterLastHumanLeft

/-! ## Missed turns -/

def incrementMissedTurn (state : GameEngineState) (roomPlayerId : RoomPlayerId)
    (turnNumber : Nat) : GameEngineState :=
  state.updatePlayer roomPlayerId fun player =>
    if player.playerType ≠ .human ∨ player.bankrupt ∨
        player.lastMissedTurnNumber = some turnNumber then player
    else
      { player with
        consecutiveMissedTurns := player.consecutiveMissedTurns + 1
        lastMissedTurnNumber := some turnNumber }

def resetMissedTurn (state : GameEngineState) (roomPlayerId : RoomPlayerId) : GameEngineState :=
  state.updatePlayer roomPlayerId fun player =>
    if player.playerType ≠ .human then player
    else { player with consecutiveMissedTurns := 0, lastMissedTurnNumber := none }

end Engine

namespace Service

open Engine Process Process.Proc

inductive GameCommandSource where
  | player | bot | timer
  deriving DecidableEq

structure ExecuteGameIntentCommand where
  roomPlayerId : Option RoomPlayerId
  intent : GameEngineIntent
  source : Option GameCommandSource
  deriving DecidableEq

structure GameCommandResult where
  state : GameEngineState
  events : List GameEngineEvent
  intentType : GameEngineIntentType
  deriving DecidableEq

def getIntentActorRoomPlayerId : GameEngineIntent → Option RoomPlayerId
  | .rollAndMove p _ | .buyProperty p | .declinePropertyPurchase p | .placeAuctionBid p _
  | .passAuctionBid p | .buildProperty p _ | .sellBuilding p _ | .mortgageProperty p _
  | .unmortgageProperty p _ | .acceptTrade p _ | .rejectTrade p _ | .cancelTrade p _
  | .declareBankruptcy p _ | .payDebt p | .autoResolveDebt p | .payJailFine p
  | .useGetOutOfJailCard p | .endTurn p => some p
  | .proposeTrade input => some input.roomPlayerId
  | .finishGameByTime _ | .finishGameAfterLastHumanLeft _ => none

def assertIntentActorMatchesCommand (input : ExecuteGameIntentCommand) :
    Except ServiceError Unit :=
  match getIntentActorRoomPlayerId input.intent with
  | none => .ok ()
  | some actorRoomPlayerId =>
    if input.roomPlayerId = some actorRoomPlayerId then .ok () else .error .badRequest

/-- An intent that comes after the game's time has passed becomes the finish by time. -/
def getEffectiveIntentForCurrentTime (now : Nat) (state : GameEngineState)
    (intent : GameEngineIntent) : GameEngineIntent :=
  if intent.type = .finishGameByTime ∨ state.phase = .finished ∨ state.phase = .cancelled then
    intent
  else if isDue now state.expiresAt then .finishGameByTime (.int now)
  else intent

def applyCommandSourceToState (state : GameEngineState) (source : GameCommandSource)
    (intentType : GameEngineIntentType) (actorRoomPlayerId : Option RoomPlayerId)
    (commandTurnRoomPlayerId : RoomPlayerId) (commandTurnNumber : Nat) : GameEngineState :=
  match actorRoomPlayerId with
  | none => state
  | some actor =>
    match source with
    | .timer =>
      if intentType ≠ .rollAndMove ∨ actor ≠ commandTurnRoomPlayerId then state
      else incrementMissedTurn state actor commandTurnNumber
    | .player => resetMissedTurn state actor
    | .bot => state

/-- A deadline, but not after the game's end. -/
def cappedByExpiry (state : GameEngineState) (deadline : Nat) : Nat :=
  match state.expiresAt.filter (· ≠ 0) with
  | some expiresAt => min deadline expiresAt
  | none => deadline

/-- `deadlineNow` and `renewedNow` are what the two calls of `Date.now()` return. -/
def applyTurnDeadline (deadlineNow renewedNow : Nat) (previousState nextState : GameEngineState) :
    GameEngineState :=
  if nextState.phase = .finished ∨ nextState.phase = .cancelled then
    { nextState with turnExpiresAt := none }
  else
    let isSameTurn := previousState.turnNumber = nextState.turnNumber ∧
      previousState.currentTurnRoomPlayerId = nextState.currentTurnRoomPlayerId ∧
      previousState.phase = nextState.phase
    match previousState.turnExpiresAt.filter (deadlineNow < ·) with
    | some previousTurnExpiresAt =>
      if isSameTurn then
        { nextState with turnExpiresAt := some (cappedByExpiry nextState previousTurnExpiresAt) }
      else
        { nextState with
          turnExpiresAt := some (cappedByExpiry nextState (renewedNow + turnTimeoutMs)) }
    | none =>
      { nextState with
        turnExpiresAt := some (cappedByExpiry nextState (renewedNow + turnTimeoutMs)) }

namespace GameCommandsService

variable {τ : Type}

/-- The updater `executeIntentWithRecovery` gives to `update`, with the `commandResult` it
leaves. -/
def updater (input : ExecuteGameIntentCommand) (ambient : Ambient) (state : GameEngineState) :
    Except ServiceError (GameEngineState × GameCommandResult) := do
  let intent := getEffectiveIntentForCurrentTime ambient.now state input.intent
  let engineResult ← (reduceGameEngineIntent ambient.engine state intent).mapError .engine
  let sourceAppliedState := applyCommandSourceToState engineResult.state
    (input.source.getD .player) intent.type (getIntentActorRoomPlayerId intent)
    state.currentTurnRoomPlayerId state.turnNumber
  let nextState := applyTurnDeadline ambient.deadlineNow ambient.renewedNow state
    sourceAppliedState
  return (nextState, { state := nextState, events := engineResult.events, intentType := intent.type })

/-- The log and the snapshot may fail without undoing the command; the result may not. -/
def afterSuccessfulCommand (result : GameCommandResult) : Task τ Unit := do
  tryCatch (query (.appendEvents result.events) id) fun _ => return ()
  tryCatch (GameSnapshotService.createSnapshotAfterCommand result.state) fun _ => return ()
  if result.state.phase = .finished then
    query (.finalizeFinishedGame result.state result.events) id

/-- What `executeIntentWithRecovery` tries. -/
def executeOnce (json : StateCodec τ) (input : ExecuteGameIntentCommand) :
    Task τ GameCommandResult := do
  let (state, commandResult) ←
    GameStateService.update json GameStateService.updateMaxAttempts (updater input)
  let result := commandResult.getD { state, events := [], intentType := input.intent.type }
  afterSuccessfulCommand result
  return result

/-- The source's flag `recovered` is set when no recovery is left. -/
def executeIntentWithRecovery (json : StateCodec τ) (input : ExecuteGameIntentCommand) :
    Nat → Task τ GameCommandResult
  | 0 => tryCatch (executeOnce json input) fun error => throw error
  | recoveries + 1 =>
    tryCatch (executeOnce json input) fun error =>
      if error = .notFound then do
        let _ ← GameRecoveryService.recoverOrThrow json
        executeIntentWithRecovery json input recoveries
      else throw error

def executeIntent (json : StateCodec τ) (input : ExecuteGameIntentCommand) :
    Task τ GameCommandResult := do
  lift (assertIntentActorMatchesCommand input)
  executeIntentWithRecovery json input 1

end GameCommandsService

end Service
end LivePoly
