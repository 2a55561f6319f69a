import LivePoly.Service.Commands
import LivePoly.Service.Database
import LivePoly.Service.Stats

/-!
# Service.Rooms

The lobby (`RoomsLobbyService`), the start of a game (`RoomsGameService`) and the expiry of waiting
rooms (`RoomsExpiryService`) over the tables of rooms, their players and games. Statements see what
is committed and what their own transaction has written. Of the indexes only those of the primary
keys are kept: a code, a seat or a membership may be there twice. What a service does after its
last transaction only reads or publishes, and is left out; so are the names of players and the
spectators.
-/

namespace LivePoly
namespace Service

open Engine Process Process.Proc Sessions

/-! ## The tables -/

inductive RoomStatus where
  | waiting | active | finished | cancelled
  deriving DecidableEq

inductive RoomPlayerStatus where
  | joined | left | kicked
  deriving DecidableEq

inductive GameStatus where
  | active | finished | cancelled
  deriving DecidableEq

structure RoomRow where
  id : RoomId
  code : String
  hostUserId : UserId
  status : RoomStatus
  durationMinutes : Nat
  createdAt : Nat
  startedAt : Option Nat
  deriving DecidableEq

structure RoomPlayerRow where
  id : RoomPlayerId
  roomId : RoomId
  userId : Option UserId
  playerType : PlayerType
  botDifficulty : Option BotDifficulty
  seatNumber : Nat
  status : RoomPlayerStatus
  deriving DecidableEq

structure GameRow where
  id : GameId
  roomId : RoomId
  mode : GameMode
  status : GameStatus
  expiresAt : Nat
  deriving DecidableEq

structure RoomTables where
  rooms : List RoomRow
  roomPlayers : List RoomPlayerRow
  games : List GameRow
  deriving DecidableEq

/-- What a statement writes. It repeats what the statement was performed under, a `where` clause or
a primary key that is new, and its lock keeps that as it was. -/
inductive RoomWrite where
  | addRoom (row : RoomRow)
  | addPlayer (row : RoomPlayerRow)
  | addGame (row : GameRow)
  | addStartSnapshot (gameId : GameId) (state : GameEngineState) (createdAt : Nat)
  | markLeft (id : RoomPlayerId)
  | startRoom (roomId : RoomId) (startedAt : Nat)
  | cancelRoom (roomId : RoomId) (expected : RoomStatus)
  | cancelGame (gameId : GameId)

/-- `update rooms set … where id = … and status = …` -/
def RoomTables.updateRoom (tables : RoomTables) (roomId : RoomId) (expected : RoomStatus)
    (f : RoomRow → RoomRow) : RoomTables :=
  { tables with
    rooms := tables.rooms.map fun row =>
      if row.id = roomId ∧ row.status = expected then f row else row }

def RoomTables.hasRoom (tables : RoomTables) (roomId : RoomId) : Bool :=
  tables.rooms.any fun row => row.id = roomId

def RoomTables.hasPlayer (tables : RoomTables) (id : RoomPlayerId) : Bool :=
  tables.roomPlayers.any fun row => row.id = id

def RoomTables.hasGame (tables : RoomTables) (gameId : GameId) : Bool :=
  tables.games.any fun row => row.id = gameId

def RoomWrite.apply : RoomWrite → RoomTables → RoomTables
  | addRoom row, tables =>
    if tables.hasRoom row.id = true then tables
    else { tables with rooms := tables.rooms ++ [row] }
  | addPlayer row, tables =>
    if tables.hasPlayer row.id = true then tables
    else { tables with roomPlayers := tables.roomPlayers ++ [row] }
  | addGame row, tables =>
    if tables.hasGame row.id = true then tables
    else { tables with games := tables.games ++ [row] }
  | addStartSnapshot _ _ _, tables => tables
  | markLeft id, tables =>
    { tables with
      roomPlayers := tables.roomPlayers.map fun row =>
        if row.id = id then { row with status := .left } else row }
  | startRoom roomId startedAt, tables =>
    tables.updateRoom roomId .waiting fun row =>
      { row with status := .active, startedAt := some startedAt }
  | cancelRoom roomId expected, tables =>
    tables.updateRoom roomId expected fun row => { row with status := .cancelled }
  | cancelGame gameId, tables =>
    { tables with
      games := tables.games.map fun row =>
        if row.id = gameId ∧ row.status = .active then { row with status := .cancelled } else row }

/-- `saveFinishedGame`: the game and its room are finished, whatever they were. -/
def RoomTables.finishGame (tables : RoomTables) (gameId : GameId) : RoomTables :=
  { tables with
    games := tables.games.map fun row =>
      if row.id = gameId then { row with status := .finished } else row
    rooms := tables.rooms.map fun row =>
      if tables.games.any fun game => game.id = gameId && game.roomId = row.id then
        { row with status := .finished }
      else row }

/-- The locks of rows, and `pg_advisory_xact_lock` under the key of a user; users whose keys have
one hash would only wait for each other as well. -/
inductive RoomLock where
  | activeRoom (userId : UserId)
  | room (roomId : RoomId)
  | roomPlayer (id : RoomPlayerId)
  | game (gameId : GameId)
  deriving DecidableEq

abbrev RoomsDatabase (κ : Type) : Type := Database κ RoomTables RoomWrite RoomLock

structure RoomsWorld (κ τ : Type) where
  db : RoomsDatabase κ
  stores : GameId → Stores τ

/-- `ACTIVE_ROOM_STATUSES` -/
def activeRoomStatuses : List RoomStatus := [.waiting, .active]

namespace RoomTables

variable (tables : RoomTables)

/-- The rooms, waiting or active, that a user is a joined player of. -/
def activeRoomsOf (userId : UserId) : List RoomRow :=
  tables.roomPlayers.flatMap fun player =>
    if player.userId = some userId ∧ player.status = .joined then
      tables.rooms.filter fun row =>
        row.id = player.roomId && activeRoomStatuses.contains row.status
    else []

/-- The joined players of a room, by their seats. -/
def joinedPlayers (roomId : RoomId) : List RoomPlayerRow :=
  (tables.roomPlayers.filter fun row => row.roomId = roomId && row.status = .joined).insertionSort
    fun left right => left.seatNumber ≤ right.seatNumber

def playersOf (roomId : RoomId) (userId : UserId) : List RoomPlayerRow :=
  tables.roomPlayers.filter fun row => row.roomId = roomId && row.userId = some userId

def joinedPlayersOf (roomId : RoomId) (userId : UserId) : List RoomPlayerRow :=
  (tables.playersOf roomId userId).filter fun row => row.status = .joined

def activeGamesOf (roomId : RoomId) : List GameRow :=
  tables.games.filter fun row => row.roomId = roomId && row.status = .active

end RoomTables

/-! ## The statements -/

/-- What the surroundings contribute to a statement: besides what a command reads, the row that
`limit 1` takes, and the id of a new row. -/
structure RoomsAmbient extends Ambient where
  pick : Nat
  id : Nat
  deriving DecidableEq

/-- `executor` is the session of a transaction; without one a statement sees what is committed. -/
inductive RoomsOp (κ τ : Type) where
  | lockActiveRoomMembershipForUser (tx : κ) (userId : UserId)
  | findActiveRoomForUser (executor : Option κ) (userId : UserId)
  | insertRoom (tx : κ) (code : String) (hostUserId : UserId) (durationMinutes : Nat)
  | insertRoomPlayer (tx : κ) (roomId : RoomId) (userId : Option UserId) (playerType : PlayerType)
      (botDifficulty : Option BotDifficulty) (seatNumber : Nat)
  | findRoomByCode (code : String)
  | lockRoomByCode (tx : κ) (code : String)
  | findJoinedPlayer (executor : Option κ) (roomId : RoomId) (userId : UserId)
  | findPlayer (roomId : RoomId) (userId : UserId)
  | listJoinedPlayers (tx : κ) (roomId : RoomId)
  | countJoinedHumanPlayers (tx : κ) (roomId : RoomId)
  | findActiveGameByRoomId (executor : Option κ) (roomId : RoomId)
  | leaveRoom (tx : κ) (roomId : RoomId) (userId : UserId)
  | startRoom (tx : κ) (roomId : RoomId)
  | cancelRoom (tx : κ) (roomId : RoomId) (expected : RoomStatus)
  | findWaitingRooms (cutoff : Int)
  | createGame (tx : κ) (roomId : RoomId) (mode : GameMode) (expiresAt : Nat)
  | createStartSnapshot (tx : κ) (gameId : GameId) (state : GameEngineState)
  | cancelGame (tx : κ) (gameId : GameId)
  | commit (tx : κ)
  | rollback (tx : κ)
  | ambient
  | store (gameId : GameId) (o : Op τ)
  | setState (gameId : GameId) (text : τ)
  | deleteState (gameId : GameId)
  | enqueueTurnTimer (gameId : GameId) (state : GameEngineState)
  | enqueueGameExpiry (gameId : GameId) (expiresAt : Nat)

@[reducible] def RoomsAns (κ τ : Type) : RoomsOp κ τ → Type
  | .findActiveRoomForUser _ _ | .findRoomByCode _ | .lockRoomByCode _ _ | .startRoom _ _
  | .cancelRoom _ _ _ => Except DatabaseError (Option RoomRow)
  | .insertRoom _ _ _ _ => Except DatabaseError RoomRow
  | .insertRoomPlayer _ _ _ _ _ _ => Except DatabaseError RoomPlayerRow
  | .findJoinedPlayer _ _ _ | .findPlayer _ _ | .leaveRoom _ _ _ =>
    Except DatabaseError (Option RoomPlayerRow)
  | .listJoinedPlayers _ _ => Except DatabaseError (List RoomPlayerRow)
  | .countJoinedHumanPlayers _ _ => Except DatabaseError Nat
  | .findActiveGameByRoomId _ _ => Except DatabaseError (Option GameRow)
  | .findWaitingRooms _ => Except DatabaseError (List RoomId)
  | .createGame _ _ _ _ => Except DatabaseError GameRow
  | .rollback _ => Unit
  | .ambient => Ambient
  | .store _ o => Ans τ o
  | _ => Except DatabaseError Unit

/-- `limit 1` -/
def limitOne {α : Type} (pick : Nat) (rows : List α) : Option α := rows[pick % rows.length]?

section Statements

variable {κ τ : Type} [DecidableEq κ] [DecidableEq τ]

namespace RoomsWorld

variable (world : RoomsWorld κ τ)

/-- What a statement reads. -/
def seen : Option κ → RoomTables
  | none => world.db.committed
  | some tx => world.db.view RoomWrite.apply tx

/-- A statement that reads. -/
def read {α : Type} (g : RoomsAmbient) (rows : α) : RoomsWorld κ τ × Except DatabaseError α :=
  if g.failure.isSome = true then (world, .error .failed) else (world, .ok rows)

/-- A statement that takes locks and writes. -/
def update {α : Type} (g : RoomsAmbient) (tx : κ) (locks : List RoomLock)
    (writes : List RoomWrite) (answer : α) : RoomsWorld κ τ × Except DatabaseError α :=
  if g.failure.isSome = true then (world, .error .failed)
  else if world.db.areFree tx locks = true then
    ({ world with db := (world.db.lockAll tx locks).writeAll tx writes }, .ok answer)
  else (world, .error .lockNotAvailable)

/-- The start snapshots among the writes reach the stores of their games. -/
def storesAfter (writes : List RoomWrite) : GameId → Stores τ :=
  writes.foldl (fun stores write =>
    match write with
    | .addStartSnapshot gameId state createdAt =>
      Function.update stores gameId
        { stores gameId with
          snapshots := Service.createSnapshot (stores gameId).snapshots .start state createdAt }
    | _ => stores) world.stores

/-- Another session has locked the row of the game or of its room. -/
def gameLocked (gameId : GameId) : Bool :=
  (world.db.holder (.game gameId)).isSome || world.db.committed.games.any fun game =>
    game.id = gameId && (world.db.holder (.room game.roomId)).isSome

end RoomsWorld

/-- Whether finalizing a game is what an operation of its stores does. -/
def isFinalization : Op τ → Bool
  | .finalizeFinishedGame _ _ => true
  | _ => false

/-- An operation of the stores of a game. Finalizing the game writes its row and its room's. -/
def storeExec (world : RoomsWorld κ τ) (gameId : GameId) (o : Op τ) (g : RoomsAmbient) :
    RoomsWorld κ τ × Ans τ o :=
  let ambient : Ambient :=
    if isFinalization o = true ∧ world.gameLocked gameId = true then
      { g.toAmbient with failure := some .database }
    else g.toAmbient
  let (stores, answer) := exec (world.stores gameId) o ambient
  let finished := isFinalization o = true ∧ ambient.failure = none
  ({ stores := Function.update world.stores gameId stores
     db := if finished then
         { world.db with committed := world.db.committed.finishGame gameId }
       else world.db }, answer)

/-- Performing a statement. -/
def roomsExec (world : RoomsWorld κ τ) (o : RoomsOp κ τ) (g : RoomsAmbient) :
    RoomsWorld κ τ × RoomsAns κ τ o :=
  match o with
  | .lockActiveRoomMembershipForUser tx userId => world.update g tx [.activeRoom userId] [] ()
  | .findActiveRoomForUser executor userId =>
    world.read g (limitOne g.pick ((world.seen executor).activeRoomsOf userId))
  | .insertRoom tx code hostUserId durationMinutes =>
    let row : RoomRow :=
      { id := ⟨g.id⟩, code, hostUserId, status := .waiting, durationMinutes, createdAt := g.now,
        startedAt := none }
    if (world.seen tx).hasRoom row.id = true then (world, .error .uniqueViolation)
    else world.update g tx [.room row.id] [.addRoom row] row
  | .insertRoomPlayer tx roomId userId playerType botDifficulty seatNumber =>
    let row : RoomPlayerRow :=
      { id := ⟨g.id⟩, roomId, userId, playerType, botDifficulty, seatNumber, status := .joined }
    if (world.seen tx).hasPlayer row.id = true then (world, .error .uniqueViolation)
    else if (world.seen tx).hasRoom roomId = true ∧ 1 ≤ seatNumber ∧ seatNumber ≤ 4 then
      world.update g tx [.roomPlayer row.id] [.addPlayer row] row
    else (world, .error .checkViolation)
  | .findRoomByCode code =>
    world.read g (limitOne g.pick (world.db.committed.rooms.filter fun row => row.code = code))
  | .lockRoomByCode tx code =>
    match limitOne g.pick ((world.seen tx).rooms.filter fun row => row.code = code) with
    | none => world.read g none
    | some row => world.update g tx [.room row.id] [] (some row)
  | .findJoinedPlayer executor roomId userId =>
    world.read g (limitOne g.pick ((world.seen executor).joinedPlayersOf roomId userId))
  | .findPlayer roomId userId =>
    world.read g (limitOne g.pick (world.db.committed.playersOf roomId userId))
  | .listJoinedPlayers tx roomId => world.read g ((world.seen tx).joinedPlayers roomId)
  | .countJoinedHumanPlayers tx roomId =>
    world.read g (((world.seen tx).joinedPlayers roomId).countP fun row => row.playerType = .human)
  | .findActiveGameByRoomId executor roomId =>
    world.read g (limitOne g.pick ((world.seen executor).activeGamesOf roomId))
  | .leaveRoom tx roomId userId =>
    let rows := (world.seen tx).joinedPlayersOf roomId userId
    world.update g tx (rows.map fun row => .roomPlayer row.id)
      (rows.map fun row => .markLeft row.id) (rows.head?.map fun row => { row with status := .left })
  | .startRoom tx roomId =>
    match (world.seen tx).rooms.find? fun row => row.id = roomId && row.status = .waiting with
    | none => world.read g none
    | some row =>
      world.update g tx [.room roomId] [.startRoom roomId g.now]
        (some { row with status := .active, startedAt := some g.now })
  | .cancelRoom tx roomId expected =>
    match (world.seen tx).rooms.find? fun row => row.id = roomId && row.status = expected with
    | none => world.read g none
    | some row =>
      world.update g tx [.room roomId] [.cancelRoom roomId expected]
        (some { row with status := .cancelled })
  | .findWaitingRooms cutoff =>
    world.read g ((world.db.committed.rooms.filter fun row =>
      row.status = .waiting && (row.createdAt : Int) ≤ cutoff).map RoomRow.id)
  | .createGame tx roomId mode expiresAt =>
    let row : GameRow := { id := ⟨g.id⟩, roomId, mode, status := .active, expiresAt }
    if (world.seen tx).hasGame row.id = true then (world, .error .uniqueViolation)
    else world.update g tx [.game row.id] [.addGame row] row
  | .createStartSnapshot tx gameId state =>
    world.update g tx [.game gameId] [.addStartSnapshot gameId state g.now] ()
  | .cancelGame tx gameId =>
    match (world.seen tx).games.find? fun row => row.id = gameId && row.status = .active with
    | none => world.read g ()
    | some _ => world.update g tx [.game gameId] [.cancelGame gameId] ()
  | .commit tx =>
    if g.failure.isSome = true then (world, .error .failed)
    else ({ db := world.db.commit RoomWrite.apply tx,
            stores := world.storesAfter (world.db.written tx) }, .ok ())
  | .rollback tx => ({ world with db := world.db.rollback tx }, ())
  | .ambient => (world, g.toAmbient)
  | .store gameId o => storeExec world gameId o g
  | .setState gameId text =>
    if g.failure.isSome = true then (world, .error .failed)
    else
      ({ world with
         stores := Function.update world.stores gameId
           { world.stores gameId with redis := some text } }, .ok ())
  | .deleteState gameId =>
    if g.failure.isSome = true then (world, .error .failed)
    else
      ({ world with
         stores := Function.update world.stores gameId
           { world.stores gameId with redis := none } }, .ok ())
  | .enqueueTurnTimer _ _ | .enqueueGameExpiry _ _ => world.read g ()

end Statements

/-! ## The services -/

inductive RoomsError where
  | notFound (message : String)
  | conflict (message : String)
  | forbidden (message : String)
  | internalServerError (message : String)
  | database (error : DatabaseError)
  | game (error : ServiceError)
  deriving DecidableEq

abbrev RoomsTask (κ τ α : Type) : Type := Proc (RoomsOp κ τ) (RoomsAns κ τ) RoomsError α

section Services

variable {κ τ : Type}

def roomsStatement (o : RoomsOp κ τ) {α : Type}
    (answer : RoomsAns κ τ o → Except DatabaseError α) : RoomsTask κ τ α := do
  lift ((answer (← perform o)).mapError .database)

def roomsTransaction {α : Type} (tx : κ) (callback : RoomsTask κ τ α) : RoomsTask κ τ α :=
  DatabaseService.transaction (roomsStatement (.commit tx) id) (perform (RoomsOp.rollback tx))
    callback

/-- What the services of a game do. -/
def ofGame {α : Type} (gameId : GameId) (task : Task τ α) : RoomsTask κ τ α :=
  task.embed (RoomsOp.store gameId) (fun _ => id) .game

def readRoomsAmbient : RoomsTask κ τ Ambient := perform RoomsOp.ambient

/-- `ROOM_MAX_PLAYERS` -/
def roomMaxPlayers : Nat := 4

/-- `ROOM_MIN_RANKED_HUMANS` -/
def roomMinRankedHumans : Nat := 3

/-- `RANKED_ROOM_DURATION_MINUTES` -/
def rankedRoomDurationMinutes : Nat := 60

/-- `WAITING_ROOM_EXPIRY_MS` -/
def waitingRoomExpiryMs : Nat := 60 * 60 * 1000

namespace RoomsLobbyService

def isExpiredWaitingRoom (now : Nat) (room : RoomRow) : Bool :=
  room.status = .waiting && room.createdAt + waitingRoomExpiryMs ≤ now

def findFirstFreeSeat (occupiedSeats : List Nat) : Option Nat :=
  (List.range' 1 roomMaxPlayers).find? fun seat => !occupiedSeats.contains seat

def ensureUserHasNoActiveRoom (executor : Option κ) (userId : UserId) : RoomsTask κ τ Unit := do
  match ← roomsStatement (.findActiveRoomForUser executor userId) id with
  | some _ => throw (.conflict "You are already in an active room")
  | none => return ()

/-- `finishedAt` is `Math.max(now, expiresAt)`. -/
def finalizeExpiredRoomGame (json : StateCodec τ) (roomId : RoomId) : RoomsTask κ τ Bool := do
  match ← roomsStatement (.findActiveGameByRoomId none roomId) id with
  | none => return false
  | some activeGame =>
    let state ← ofGame activeGame.id (GameRecoveryService.getOrRecover json)
    let expiresAt := state.expiresAt.getD activeGame.expiresAt
    let ambient ← readRoomsAmbient
    if ambient.now < expiresAt then return false
    else if state.phase = .finished then
      ofGame activeGame.id (query (.finalizeFinishedGame state []) id)
      return true
    else if state.phase = .cancelled then return false
    else
      tryCatch
        (do
          let _ ← ofGame activeGame.id (GameCommandsService.executeIntent json
            { roomPlayerId := none, source := some .timer
              intent := .finishGameByTime (.int (max ambient.now expiresAt : Nat)) })
          return true)
        fun error => do
          let repairedState ← ofGame activeGame.id (GameRecoveryService.getOrRecover json)
          if repairedState.phase ≠ .finished then throw error
          else
            ofGame activeGame.id (query (.finalizeFinishedGame repairedState []) id)
            return true

def finalizeExpiredActiveRoomForUser (json : StateCodec τ) (userId : UserId) :
    RoomsTask κ τ Unit := do
  match ← roomsStatement (.findActiveRoomForUser none userId) id with
  | none => return ()
  | some activeRoom =>
    let _ ← finalizeExpiredRoomGame json activeRoom.id
    return ()

/-- One attempt of `createRoom`. -/
def createRoomWithCode (tx : κ) (userId : UserId) (durationMinutes : Nat) (code : String) :
    RoomsTask κ τ RoomRow :=
  roomsTransaction tx do
    roomsStatement (.lockActiveRoomMembershipForUser tx userId) id
    ensureUserHasNoActiveRoom (some tx) userId
    let createdRoom ← roomsStatement (.insertRoom tx code userId durationMinutes) id
    let _ ← roomsStatement (.insertRoomPlayer tx createdRoom.id (some userId) .human none 1) id
    return createdRoom

/-- The loop of `createRoom`, over the codes it generates. -/
def createRoomAttempts (tx : κ) (userId : UserId) (durationMinutes : Nat) :
    List String → RoomsTask κ τ RoomRow
  | [] => throw (.conflict "Could not create room")
  | code :: codes =>
    tryCatch (createRoomWithCode tx userId durationMinutes code) fun error =>
      if error = .database .uniqueViolation then
        createRoomAttempts tx userId durationMinutes codes
      else throw error

def createRoom (json : StateCodec τ) (tx : κ) (userId : UserId) (durationMinutes : Nat)
    (codes : List String) : RoomsTask κ τ RoomRow := do
  finalizeExpiredActiveRoomForUser json userId
  createRoomAttempts tx userId durationMinutes codes

def joinRoom (json : StateCodec τ) (tx : κ) (userId : UserId) (code : String) :
    RoomsTask κ τ RoomRow := do
  finalizeExpiredActiveRoomForUser json userId
  roomsTransaction tx do
    roomsStatement (.lockActiveRoomMembershipForUser tx userId) id
    ensureUserHasNoActiveRoom (some tx) userId
    match ← roomsStatement (.lockRoomByCode tx code) id with
    | none => throw (.notFound "Room not found")
    | some room =>
      if room.status ≠ .waiting then throw (.conflict "Room is not open")
      else
        let ambient ← readRoomsAmbient
        if isExpiredWaitingRoom ambient.now room = true then
          throw (.conflict "Room is not open")
        else
          let joinedPlayers ← roomsStatement (.listJoinedPlayers tx room.id) id
          match findFirstFreeSeat (joinedPlayers.map RoomPlayerRow.seatNumber) with
          | none => throw (.conflict "Room is full")
          | some seatNumber =>
            tryCatch
              (do
                let _ ← roomsStatement
                  (.insertRoomPlayer tx room.id (some userId) .human none seatNumber) id
                return room)
              fun error =>
                if error = .database .uniqueViolation then
                  throw (.conflict "Room seat is no longer available")
                else throw error

/-- What the transaction of `leaveRoom` returns. -/
structure LeaveResult where
  activeGameId : Option GameId
  shouldFinishAfterLastHumanLeft : Bool
  leavingRoomPlayerId : RoomPlayerId
  deriving DecidableEq

def isRoomPlayerBankruptInGame (json : StateCodec τ) (gameId : GameId)
    (roomPlayerId : RoomPlayerId) : RoomsTask κ τ Bool := do
  let state ← ofGame gameId (GameRecoveryService.getOrRecover json)
  return (state.player? roomPlayerId).any GameEnginePlayer.bankrupt

def finalizeRoomAfterLastHumanLeft (json : StateCodec τ) (gameId : GameId) :
    RoomsTask κ τ Unit := do
  let state ← ofGame gameId (GameRecoveryService.getOrRecover json)
  let ambient ← readRoomsAmbient
  if state.phase = .finished then
    ofGame gameId (query (.finalizeFinishedGame state []) id)
  else
    let _ ← ofGame gameId (GameCommandsService.executeIntent json
      { roomPlayerId := none, source := some .timer
        intent := .finishGameAfterLastHumanLeft (.int ambient.now) })
    return ()

/-- The branch of the host of a waiting room. -/
def cancelWaitingRoom (tx : κ) (userId : UserId) (room : RoomRow) : RoomsTask κ τ String := do
  roomsTransaction tx do
    let _ ← roomsStatement (.leaveRoom tx room.id userId) id
    let _ ← roomsStatement (.cancelRoom tx room.id .waiting) id
    return ()
  return "Room cancelled"

/-- The active game of a locked room, with the number of its joined human players. -/
def findGameToLeave (tx : κ) (lockedRoom : RoomRow) : RoomsTask κ τ (Option (GameRow × Nat)) :=
  if lockedRoom.status = .active then do
    let joinedHumanCount ← roomsStatement (.countJoinedHumanPlayers tx lockedRoom.id) id
    let activeGame ← roomsStatement (.findActiveGameByRoomId (some tx) lockedRoom.id) id
    return activeGame.map fun game => (game, joinedHumanCount)
  else return none

/-- The first transaction of the other branch. -/
def leaveOrFindGame (tx : κ) (userId : UserId) (code : String) (player : RoomPlayerRow) :
    RoomsTask κ τ LeaveResult :=
  roomsTransaction tx do
    match ← roomsStatement (.lockRoomByCode tx code) id with
    | none => throw (.notFound "Room not found")
    | some lockedRoom =>
      match ← findGameToLeave tx lockedRoom with
      | some (game, joinedHumanCount) =>
        return { activeGameId := some game.id
                 shouldFinishAfterLastHumanLeft := joinedHumanCount ≤ 1
                 leavingRoomPlayerId := player.id }
      | none =>
        let _ ← roomsStatement (.leaveRoom tx lockedRoom.id userId) id
        return { activeGameId := none
                 shouldFinishAfterLastHumanLeft := false
                 leavingRoomPlayerId := player.id }

/-- The player leaves the game: bankrupt, or with the last human player the game is finished. -/
def leaveGame (json : StateCodec τ) (gameId : GameId) (leaveResult : LeaveResult) :
    RoomsTask κ τ Unit := do
  if leaveResult.shouldFinishAfterLastHumanLeft = true then
    finalizeRoomAfterLastHumanLeft json gameId
  else if ← isRoomPlayerBankruptInGame json gameId leaveResult.leavingRoomPlayerId then return ()
  else
    let _ ← ofGame gameId (GameCommandsService.executeIntent json
      { roomPlayerId := some leaveResult.leavingRoomPlayerId
        intent := .declareBankruptcy leaveResult.leavingRoomPlayerId none
        source := some .player })
    return ()

/-- The transaction after the game has been left. -/
def leaveAfterGame (tx : κ) (userId : UserId) (code : String) : RoomsTask κ τ Unit :=
  roomsTransaction tx do
    match ← roomsStatement (.lockRoomByCode tx code) id with
    | none => throw (.notFound "Room not found")
    | some lockedRoom =>
      let _ ← roomsStatement (.leaveRoom tx lockedRoom.id userId) id
      return ()

def leaveRoom (json : StateCodec τ) (tx : κ) (userId : UserId) (code : String) :
    RoomsTask κ τ String := do
  match ← roomsStatement (.findRoomByCode code) id with
  | none => throw (.notFound "Room not found")
  | some room =>
    match ← roomsStatement (.findJoinedPlayer none room.id userId) id with
    | none =>
      match ← roomsStatement (.findPlayer room.id userId) id with
      | some existingPlayer =>
        if existingPlayer.status = .left then return "Room already left"
        else throw (.notFound "Room player not found")
      | none => throw (.notFound "Room player not found")
    | some player =>
      if room.hostUserId = userId ∧ room.status = .waiting then cancelWaitingRoom tx userId room
      else
        let leaveResult ← leaveOrFindGame tx userId code player
        match leaveResult.activeGameId with
        | none => return "Room left"
        | some gameId =>
          leaveGame json gameId leaveResult
          leaveAfterGame tx userId code
          return "Room left"

end RoomsLobbyService

namespace RoomsGameService

/-- The seats `buildBotPlayers` gives to bots. -/
def buildBotPlayers (joinedPlayers : List RoomPlayerRow) : List Nat :=
  (List.range' 1 roomMaxPlayers).filter fun seatNumber =>
    !(joinedPlayers.map RoomPlayerRow.seatNumber).contains seatNumber

def addBotPlayers (tx : κ) (roomId : RoomId) (botDifficulty : BotDifficulty) :
    List Nat → RoomsTask κ τ (List RoomPlayerRow)
  | [] => return []
  | seatNumber :: seatNumbers => do
    let createdBot ← roomsStatement
      (.insertRoomPlayer tx roomId none .bot (some botDifficulty) seatNumber) id
    return createdBot :: (← addBotPlayers tx roomId botDifficulty seatNumbers)

def gameMode (joinedPlayers : List RoomPlayerRow) : GameMode :=
  if joinedPlayers.all (fun player => player.playerType = .human) ∧
      roomMinRankedHumans ≤ joinedPlayers.countP fun player => player.playerType = .human then
    .ranked
  else .casual

def toJoinedRoomPlayer (player : RoomPlayerRow) : JoinedRoomPlayer where
  id := player.id
  playerType := player.playerType
  botDifficulty := player.botDifficulty
  seatNumber := player.seatNumber

structure StartResult where
  room : RoomRow
  game : GameRow
  initialState : GameEngineState

/-- The transaction of `startRoom`. -/
def startGame (tx : κ) (userId : UserId) (code : String) (botDifficulty : BotDifficulty) :
    RoomsTask κ τ StartResult :=
  roomsTransaction tx do
    match ← roomsStatement (.lockRoomByCode tx code) id with
    | none => throw (.notFound "Room not found")
    | some room =>
      if room.status ≠ .waiting then throw (.conflict "Room is not open")
      else if room.hostUserId ≠ userId then
        throw (.forbidden "Only the host can start the room")
      else
        match ← roomsStatement (.findJoinedPlayer (some tx) room.id userId) id with
        | none => throw (.notFound "Room player not found")
        | some _ =>
          let joinedPlayers ← roomsStatement (.listJoinedPlayers tx room.id) id
          if joinedPlayers = [] then throw (.conflict "Room has no joined players")
          else
            let mode := gameMode joinedPlayers
            let gameDurationMinutes :=
              if mode = .ranked then rankedRoomDurationMinutes else room.durationMinutes
            let createdBots ← addBotPlayers tx room.id botDifficulty
              (if mode = .casual then buildBotPlayers joinedPlayers else [])
            let allPlayers := (joinedPlayers ++ createdBots).insertionSort
              fun left right => left.seatNumber ≤ right.seatNumber
            match ← roomsStatement (.startRoom tx room.id) id with
            | none => throw (.conflict "Room is not open")
            | some activeRoom =>
              let ambient ← readRoomsAmbient
              let initialState ← lift ((createInitialGameState ambient.engine
                { roomId := toString room.id.uuid, startedAt := activeRoom.startedAt
                  durationMinutes := gameDurationMinutes
                  players := allPlayers.map toJoinedRoomPlayer }).mapError (.game ∘ .engine))
              let game ← roomsStatement
                (.createGame tx room.id mode (initialState.expiresAt.getD ambient.now)) id
              roomsStatement (.createStartSnapshot tx game.id initialState) id
              return { room := activeRoom, game, initialState }

def cancelStartedGameAfterSetupFailure (tx : κ) (roomId : RoomId) (gameId : GameId) :
    RoomsTask κ τ Unit := do
  tryCatch (roomsStatement (.deleteState gameId) id) fun _ => return ()
  roomsTransaction tx do
    roomsStatement (.cancelGame tx gameId) id
    let _ ← roomsStatement (.cancelRoom tx roomId .active) id
    return ()

def startRoom (json : StateCodec τ) (tx : κ) (userId : UserId) (code : String)
    (botDifficulty : BotDifficulty) : RoomsTask κ τ StartResult := do
  let result ← startGame tx userId code botDifficulty
  tryCatch
    (do
      roomsStatement (.setState result.game.id (json.stringify result.initialState)) id
      roomsStatement (.enqueueTurnTimer result.game.id result.initialState) id
      let ambient ← readRoomsAmbient
      roomsStatement
        (.enqueueGameExpiry result.game.id (result.initialState.expiresAt.getD ambient.now)) id)
    fun _ => do
      cancelStartedGameAfterSetupFailure tx result.room.id result.game.id
      throw (.internalServerError "Game could not be started")
  return result

end RoomsGameService

namespace RoomsExpiryService

def expireWaitingRoom (tx : κ) (roomId : RoomId) : RoomsTask κ τ (Option RoomRow) :=
  roomsTransaction tx (roomsStatement (.cancelRoom tx roomId .waiting) id)

/-- The rows of one update, which come one after the other. -/
def cancelRooms (tx : κ) : List RoomId → RoomsTask κ τ (List RoomRow)
  | [] => return []
  | roomId :: roomIds => do
    let room ← roomsStatement (.cancelRoom tx roomId .waiting) id
    return room.toList ++ (← cancelRooms tx roomIds)

def expireWaitingRooms (tx : κ) : RoomsTask κ τ (List RoomRow) := do
  let ambient ← readRoomsAmbient
  roomsTransaction tx do
    cancelRooms tx (← roomsStatement
      (.findWaitingRooms ((ambient.now : Int) - waitingRoomExpiryMs)) id)

end RoomsExpiryService

end Services

end Service
end LivePoly
