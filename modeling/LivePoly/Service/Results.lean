import LivePoly.Engine.Bankruptcy
import LivePoly.Service.Rooms

/-!
# Service.Results

`GameResultsService` and `GameResultsRepository`: what is recorded of a finished game. One call is
one transaction, so a call either saves all of it or nothing. The statistics and the final snapshot
that the transaction writes as well are left out; `failure` stands for theirs. Times are
milliseconds.
-/

namespace LivePoly
namespace Service

open Engine Checked

inductive GameResultEndReason where
  | bankruptcy | timeElapsed | abandoned | cancelled
  deriving DecidableEq

/-- `userIdOf` and `startedAt` are the fields of the source's state that the engine does not
read. -/
structure FinalizeGameResultInput where
  gameId : GameId
  roomId : RoomId
  startedAt : Option Int
  userIdOf : RoomPlayerId → Option UserId
  state : GameEngineState
  events : List GameEngineEvent

structure SaveRoomPlayerResultInput where
  roomId : RoomId
  roomPlayerId : RoomPlayerId
  userId : Option UserId
  seatNumber : Nat
  startingCash : Int
  finalCash : Int
  finalNetWorth : Int
  placement : Nat
  bankruptAt : Option Int
  deriving DecidableEq

structure SaveGameResultsInput where
  gameId : GameId
  roomId : RoomId
  state : GameEngineState
  endReason : GameResultEndReason
  winnerRoomPlayerId : Option RoomPlayerId
  completedAt : Int
  durationSeconds : Int
  playerResults : List SaveRoomPlayerResultInput
  deriving DecidableEq

/-! ## The tables -/

structure SavedGame where
  status : GameStatus
  currentTurnRoomPlayerId : RoomPlayerId
  turnNumber : Nat
  state : GameEngineState
  finishedAt : Option Int
  deriving DecidableEq

structure SavedRoom where
  status : RoomStatus
  endedAt : Option Int
  deriving DecidableEq

structure RoomResultRow where
  roomId : RoomId
  gameId : GameId
  winnerRoomPlayerId : Option RoomPlayerId
  winnerUserId : Option UserId
  endReason : GameResultEndReason
  durationSeconds : Int
  completedAt : Int
  deriving DecidableEq

structure ResultTables where
  games : GameId → Option SavedGame
  rooms : RoomId → Option SavedRoom
  roomPlayers : List RoomPlayerRow
  roomResults : List RoomResultRow
  roomPlayerResults : List SaveRoomPlayerResultInput

/-- `room_results_winner_required_chk` and `room_results_duration_seconds_chk` -/
def RoomResultRow.isValid (row : RoomResultRow) : Bool :=
  (if row.endReason = .cancelled then row.winnerRoomPlayerId.isNone && row.winnerUserId.isNone
    else row.winnerRoomPlayerId.isSome) && 0 ≤ row.durationSeconds

/-- The checks of `room_player_results`. -/
def SaveRoomPlayerResultInput.isValid (row : SaveRoomPlayerResultInput) : Bool :=
  1 ≤ row.seatNumber && row.seatNumber ≤ 4 && 1 ≤ row.placement && row.placement ≤ 4 &&
    0 ≤ row.startingCash && 0 ≤ row.finalCash && 0 ≤ row.finalNetWorth

namespace GameResultsRepository

def findRoomPlayer (tables : ResultTables) (roomId : RoomId) (roomPlayerId : RoomPlayerId) :
    Option RoomPlayerRow :=
  tables.roomPlayers.find? fun row => row.roomId = roomId && row.id = roomPlayerId

def findWinnerUserId (tables : ResultTables) (roomId : RoomId)
    (winnerRoomPlayerId : Option RoomPlayerId) : Option UserId :=
  (winnerRoomPlayerId.bind (findRoomPlayer tables roomId)).bind RoomPlayerRow.userId

/-- `insert … on conflict (game_id) do update` -/
def upsertRoomResult (tables : ResultTables) (row : RoomResultRow) :
    Except DatabaseError ResultTables :=
  if row.isValid = false ∨
      row.winnerRoomPlayerId.any (fun id => (findRoomPlayer tables row.roomId id).isNone) then
    .error .checkViolation
  else if tables.roomResults.any fun other => other.gameId = row.gameId then
    .ok { tables with
      roomResults := tables.roomResults.map fun other =>
        if other.gameId = row.gameId then { row with roomId := other.roomId } else other }
  else .ok { tables with roomResults := tables.roomResults ++ [row] }

/-- `insert … on conflict (room_id, room_player_id) do update` -/
def upsertRoomPlayerResult (tables : ResultTables) (row : SaveRoomPlayerResultInput) :
    Except DatabaseError ResultTables :=
  let isSame (other : SaveRoomPlayerResultInput) : Bool :=
    other.roomId = row.roomId && other.roomPlayerId = row.roomPlayerId
  if row.isValid = false ∨ (findRoomPlayer tables row.roomId row.roomPlayerId).isNone then
    .error .checkViolation
  else if tables.roomPlayerResults.any fun other =>
      other.roomId = row.roomId && other.seatNumber = row.seatNumber && !isSame other then
    .error .uniqueViolation
  else if tables.roomPlayerResults.any isSame then
    .ok { tables with
      roomPlayerResults := tables.roomPlayerResults.map fun other =>
        if isSame other then row else other }
  else .ok { tables with roomPlayerResults := tables.roomPlayerResults ++ [row] }

/-- The two updates set the rows whatever their status was. -/
def closeGame (tables : ResultTables) (input : SaveGameResultsInput) : ResultTables :=
  { tables with
    games := Function.update tables.games input.gameId
      ((tables.games input.gameId).map fun _ =>
        { status := .finished
          currentTurnRoomPlayerId := input.state.currentTurnRoomPlayerId
          turnNumber := input.state.turnNumber
          state := input.state
          finishedAt := some input.completedAt })
    rooms := Function.update tables.rooms input.roomId
      ((tables.rooms input.roomId).map fun _ =>
        { status := .finished, endedAt := some input.completedAt }) }

def saveFinishedGame (tables : ResultTables) (input : SaveGameResultsInput) :
    Except DatabaseError ResultTables := do
  let tables := closeGame tables input
  let tables ← upsertRoomResult tables {
    roomId := input.roomId
    gameId := input.gameId
    winnerRoomPlayerId := input.winnerRoomPlayerId
    winnerUserId := findWinnerUserId tables input.roomId input.winnerRoomPlayerId
    endReason := input.endReason
    durationSeconds := input.durationSeconds
    completedAt := input.completedAt }
  input.playerResults.foldlM upsertRoomPlayerResult tables

end GameResultsRepository

/-! ## The service -/

inductive ResultsError where
  | notFound
  | engine (error : EngineError)
  | database (error : DatabaseError)
  deriving DecidableEq

/-- Which of the three finish events an event is, with the winner it names. -/
def bankruptcyWinner? : GameEngineEvent → Option (Option RoomPlayerId)
  | .gameFinishedByBankruptcy winner _ _ => some winner
  | _ => none

def timeWinner? : GameEngineEvent → Option (Option RoomPlayerId)
  | .gameFinishedByTime _ winner _ _ => some winner
  | _ => none

def abandonedWinner? : GameEngineEvent → Option (Option RoomPlayerId)
  | .gameFinishedAfterLastHumanLeft _ winner _ _ => some winner
  | _ => none

/-- The time of a finish event; a bankruptcy has none. -/
def finishTime? : GameEngineEvent → Option (Option Int)
  | .gameFinishedByBankruptcy _ _ _ => some none
  | .gameFinishedByTime finishedAt _ _ _ => some (some finishedAt)
  | .gameFinishedAfterLastHumanLeft finishedAt _ _ _ => some (some finishedAt)
  | _ => none

/-- `DEFAULT_STARTING_CASH` -/
def defaultStartingCash : Int := 1500

namespace GameResultsService

/-- `now` is what `new Date()` reads. -/
def getCompletedAt (now : Int) (events : List GameEngineEvent) : Int :=
  ((events.findSome? finishTime?).join).getD now

def getEndReason (events : List GameEngineEvent) : GameResultEndReason :=
  if events.any fun event => (bankruptcyWinner? event).isSome then .bankruptcy
  else if events.any fun event => (timeWinner? event).isSome then .timeElapsed
  else if events.any fun event => (abandonedWinner? event).isSome then .abandoned
  else .cancelled

def getWinnerRoomPlayerId (events : List GameEngineEvent) (state : GameEngineState) :
    Checked (Option RoomPlayerId) :=
  match events.findSome? bankruptcyWinner? with
  | some winner => return winner
  | none =>
    match (events.findSome? timeWinner?).join with
    | some winner => return some winner
    | none =>
      match (events.findSome? abandonedWinner?).join with
      | some winner => return some winner
      | none => do
        let standings ← calculateNetWorthStandings state
        return (getNetWorthWinner standings).map PlayerNetWorth.roomPlayerId

def getDurationSeconds (startedAt : Option Int) (completedAt : Int) : Int :=
  max 0 ((completedAt - startedAt.getD completedAt) / 1000)

/-- The comparator of the final standings puts `left` no later than `right`. The two are players
of the game. -/
def compareFinalResultStanding (players : List GameEnginePlayer) (left right : PlayerNetWorth) :
    Bool :=
  let isBankrupt (standing : PlayerNetWorth) : Bool :=
    (players.find? fun player => player.roomPlayerId = standing.roomPlayerId).any
      GameEnginePlayer.bankrupt
  if right.netWorth ≠ left.netWorth then right.netWorth ≤ left.netWorth
  else if right.cash ≠ left.cash then right.cash ≤ left.cash
  else if right.ownedPropertyCount ≠ left.ownedPropertyCount then
    right.ownedPropertyCount ≤ left.ownedPropertyCount
  else if isBankrupt left ≠ isBankrupt right then !isBankrupt left
  else left.seatNumber ≤ right.seatNumber

def calculateFinalResultStandings (state : GameEngineState) : Checked (List PlayerNetWorth) := do
  let netWorths ← state.players.mapM (calculatePlayerNetWorth state)
  return netWorths.insertionSort fun left right =>
    compareFinalResultStanding state.players left right

/-- `placementByRoomPlayerId.get`: of several entries of a map the last one counts. -/
def placementOf (standings : List PlayerNetWorth) (roomPlayerId : RoomPlayerId) : Option Nat :=
  ((standings.zipIdx 1).filter fun entry => entry.1.roomPlayerId = roomPlayerId).getLast?.map
    Prod.snd

def playerResult (input : FinalizeGameResultInput) (completedAt : Int)
    (standings : List PlayerNetWorth) (player : GameEnginePlayer) : SaveRoomPlayerResultInput where
  roomId := input.roomId
  roomPlayerId := player.roomPlayerId
  userId := input.userIdOf player.roomPlayerId
  seatNumber := player.seatNumber
  startingCash := defaultStartingCash
  finalCash := player.cash
  finalNetWorth :=
    ((standings.find? fun item => item.roomPlayerId = player.roomPlayerId).map
      PlayerNetWorth.netWorth).getD player.cash
  placement := (placementOf standings player.roomPlayerId).getD input.state.players.length
  bankruptAt := if player.bankrupt then some completedAt else none

def buildPlayerResults (input : FinalizeGameResultInput) (completedAt : Int) :
    Checked (List SaveRoomPlayerResultInput) := do
  let standings ← calculateFinalResultStandings input.state
  return input.state.players.map (playerResult input completedAt standings)

/-- What `finalizeFinishedGame` hands to `saveFinishedGame`. -/
def resultsOf (now : Int) (input : FinalizeGameResultInput) : Checked SaveGameResultsInput := do
  let completedAt := getCompletedAt now input.events
  let winnerRoomPlayerId ← getWinnerRoomPlayerId input.events input.state
  let playerResults ← buildPlayerResults input completedAt
  return {
    gameId := input.gameId
    roomId := input.roomId
    state := input.state
    endReason := getEndReason input.events
    winnerRoomPlayerId
    completedAt
    durationSeconds := getDurationSeconds input.startedAt completedAt
    playerResults }

/-- `failure` is that of the other statements of the transaction. -/
def finalizeFinishedGame (now : Int) (failure : Option DatabaseError)
    (input : FinalizeGameResultInput) (tables : ResultTables) :
    Except ResultsError ResultTables := do
  if input.state.phase ≠ .finished then return tables
  else if (tables.games input.gameId).isNone then throw .notFound
  else
    let results ← (resultsOf now input).mapError .engine
    match failure with
    | some error => throw (.database error)
    | none => (GameResultsRepository.saveFinishedGame tables results).mapError .database

/-- The finish event that is made up for a game that is already finished. -/
def finalizeWith (event : Option RoomPlayerId → List RoomPlayerId → List PlayerNetWorth →
      GameEngineEvent)
    (now : Int) (failure : Option DatabaseError) (input : FinalizeGameResultInput)
    (tables : ResultTables) : Except ResultsError ResultTables := do
  if input.state.phase ≠ .finished then return tables
  else
    let standings ← (calculateNetWorthStandings input.state).mapError ResultsError.engine
    finalizeFinishedGame now failure
      { input with
        events := [event ((getNetWorthWinner standings).map PlayerNetWorth.roomPlayerId)
          ((getNetWorthWinners standings).map PlayerNetWorth.roomPlayerId) standings] }
      tables

def finalizeExpiredFinishedGame (finishedAt : Int) :
    Int → Option DatabaseError → FinalizeGameResultInput → ResultTables →
      Except ResultsError ResultTables :=
  finalizeWith (.gameFinishedByTime finishedAt)

def finalizeAbandonedFinishedGame (finishedAt : Int) :
    Int → Option DatabaseError → FinalizeGameResultInput → ResultTables →
      Except ResultsError ResultTables :=
  finalizeWith (.gameFinishedAfterLastHumanLeft finishedAt)

end GameResultsService

end Service
end LivePoly
