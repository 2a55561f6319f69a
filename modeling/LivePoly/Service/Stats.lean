import LivePoly.Engine.State
import LivePoly.Lib.Binary64
import LivePoly.Service.Database

/-!
# Service.Stats

`GameStatsService` and `GameRatingService` over the tables `player_stats` and `rating_history`.
A transaction initializes and locks the rows of its players, and updates the row of each for whom
`rating_history` has no entry of the room yet. Floating-point numbers are rationals rounded to
binary64; the power of ten, which JavaScript leaves to the implementation, is a parameter.
-/

namespace LivePoly
namespace Service

open Engine Process Process.Proc Sessions

/-! ## The tables -/

structure PlayerStats where
  userId : UserId
  gamesPlayed : Nat
  firstPlace : Nat
  secondPlace : Nat
  thirdPlace : Nat
  fourthPlace : Nat
  avgPosition : Rat
  currentRating : Int
  peakRating : Int
  totalNetWorth : Int
  totalRentCollected : Int
  totalRentPaid : Int
  deriving DecidableEq

structure RatingHistoryRow where
  userId : UserId
  roomId : RoomId
  ratingBefore : Int
  ratingAfter : Int
  ratingDelta : Int
  placement : Nat
  deriving DecidableEq

structure StatsTables where
  playerStats : UserId → Option PlayerStats
  ratingHistory : List RatingHistoryRow

inductive StatsWrite where
  | putPlayerStats (row : PlayerStats)
  | addRatingHistory (row : RatingHistoryRow)
  deriving DecidableEq

def StatsWrite.apply : StatsWrite → StatsTables → StatsTables
  | putPlayerStats row, tables =>
    { tables with playerStats := Function.update tables.playerStats row.userId (some row) }
  | addRatingHistory row, tables =>
    { tables with ratingHistory := tables.ratingHistory ++ [row] }

/-- The locks of the rows of `player_stats`, and of the entries of the unique index of
`rating_history`. -/
inductive StatsLock where
  | playerStats (userId : UserId)
  | ratingHistory (roomId : RoomId) (userId : UserId)
  deriving DecidableEq

abbrev StatsDatabase (κ : Type) : Type := Database κ StatsTables StatsWrite StatsLock

/-- `DEFAULT_RATING` -/
def defaultRating : Int := 500

/-- `MIN_RATING` -/
def minRating : Int := 300

/-- `DEFAULT_K_FACTOR` -/
def defaultKFactor : Int := 32

def initialPlayerStats (userId : UserId) : PlayerStats where
  userId
  gamesPlayed := 0
  firstPlace := 0
  secondPlace := 0
  thirdPlace := 0
  fourthPlace := 0
  avgPosition := 0
  currentRating := defaultRating
  peakRating := defaultRating
  totalNetWorth := 0
  totalRentCollected := 0
  totalRentPaid := 0

/-- The checks of `rating_history`. -/
def RatingHistoryRow.isValid (row : RatingHistoryRow) : Bool :=
  1 ≤ row.placement && row.placement ≤ 4 && 300 ≤ row.ratingBefore && 300 ≤ row.ratingAfter

/-- The checks of `player_stats`; the counters are natural numbers. -/
def PlayerStats.isValid (row : PlayerStats) : Bool :=
  0 ≤ row.avgPosition && 300 ≤ row.currentRating && 300 ≤ row.peakRating &&
    0 ≤ row.totalNetWorth && 0 ≤ row.totalRentCollected && 0 ≤ row.totalRentPaid

/-! ## The statements -/

inductive StatsOp (κ : Type) where
  | insertPlayerStats (tx : κ) (userId : UserId)
  | selectForUpdate (tx : κ) (userId : UserId)
  | insertRatingHistory (tx : κ) (row : RatingHistoryRow)
  | updatePlayerStats (tx : κ) (row : PlayerStats)
  | commit (tx : κ)
  | rollback (tx : κ)
  deriving DecidableEq

@[reducible] def StatsAns (κ : Type) : StatsOp κ → Type
  | .selectForUpdate _ _ => Except DatabaseError (Option PlayerStats)
  | .insertRatingHistory _ _ => Except DatabaseError Bool
  | .rollback _ => Unit
  | _ => Except DatabaseError Unit

section Statements

variable {κ : Type} [DecidableEq κ]

/-- What a session reads. -/
abbrev StatsDatabase.seen (db : StatsDatabase κ) (tx : κ) : StatsTables :=
  db.view StatsWrite.apply tx

/-- An entry of the room and the user. -/
def StatsTables.hasRatingHistory (tables : StatsTables) (roomId : RoomId) (userId : UserId) : Bool :=
  tables.ratingHistory.any fun row => row.roomId = roomId && row.userId = userId

/-- Performing a statement; `failing` tells whether the database fails. -/
def statsExec (db : StatsDatabase κ) (o : StatsOp κ) (failing : Bool) :
    StatsDatabase κ × StatsAns κ o :=
  match o with
  | .insertPlayerStats tx userId =>
    if failing = true then (db, .error .failed)
    else if ((db.seen tx).playerStats userId).isSome = true then (db, .ok ())
    else if db.isFree tx (.playerStats userId) = true then
      ((db.lock tx (.playerStats userId)).write tx (.putPlayerStats (initialPlayerStats userId)),
        .ok ())
    else (db, .error .lockNotAvailable)
  | .selectForUpdate tx userId =>
    if failing = true then (db, .error .failed)
    else if db.isFree tx (.playerStats userId) = true then
      (db.lock tx (.playerStats userId), .ok ((db.seen tx).playerStats userId))
    else (db, .error .lockNotAvailable)
  | .insertRatingHistory tx row =>
    if failing = true then (db, .error .failed)
    else if (db.seen tx).hasRatingHistory row.roomId row.userId = true then (db, .ok false)
    else if db.isFree tx (.ratingHistory row.roomId row.userId) = true then
      if row.isValid = true then
        ((db.lock tx (.ratingHistory row.roomId row.userId)).write tx (.addRatingHistory row),
          .ok true)
      else (db, .error .checkViolation)
    else (db, .error .lockNotAvailable)
  | .updatePlayerStats tx row =>
    if failing = true then (db, .error .failed)
    else if ((db.seen tx).playerStats row.userId).isSome = true then
      if db.isFree tx (.playerStats row.userId) = true then
        if row.isValid = true then
          ((db.lock tx (.playerStats row.userId)).write tx (.putPlayerStats row), .ok ())
        else (db, .error .checkViolation)
      else (db, .error .lockNotAvailable)
    else (db, .ok ())
  | .commit tx =>
    if failing = true then (db, .error .failed) else (db.commit StatsWrite.apply tx, .ok ())
  | .rollback tx => (db.rollback tx, ())

end Statements

/-! ## Ratings -/

inductive StatsError where
  | database (error : DatabaseError)
  | playerStatsRowMissing
  | ratingRequiresUniquePlacements
  deriving DecidableEq

structure RatingParticipant where
  userId : UserId
  placement : Nat
  rating : Int
  deriving DecidableEq

structure RatingChange where
  userId : UserId
  ratingBefore : Int
  ratingAfter : Int
  ratingDelta : Int
  deriving DecidableEq

namespace GameRatingService

open Binary64

/-- `exp10` is `10 ** x`. -/
def getExpectedScore (exp10 : Rat → Rat) (playerRating opponentRating : Int) : Rat :=
  fl (1 / fl (1 + exp10 (fl (((opponentRating - playerRating : Int) : Rat) / 400))))

def performanceDelta (exp10 : Rat → Rat) (participant : RatingParticipant)
    (opponents : List RatingParticipant) : Rat :=
  opponents.foldl (fun total opponent =>
    let actualScore : Rat := if participant.placement < opponent.placement then 1 else 0
    fl (fl (total + actualScore) - getExpectedScore exp10 participant.rating opponent.rating)) 0

/-- `Math.round` -/
def round (x : Rat) : Int := (x + 1 / 2).floor

def ratingChange (exp10 : Rat → Rat) (participants : List RatingParticipant)
    (participant : RatingParticipant) : RatingChange :=
  let opponents := participants.filter fun opponent => opponent.userId ≠ participant.userId
  let ratingDelta := round (fl (fl ((defaultKFactor : Rat) / opponents.length) *
    performanceDelta exp10 participant opponents))
  let ratingAfter := max minRating (participant.rating + ratingDelta)
  { userId := participant.userId
    ratingBefore := participant.rating
    ratingAfter
    ratingDelta := ratingAfter - participant.rating }

def calculateRatingChanges (exp10 : Rat → Rat) (participants : List RatingParticipant) :
    Except StatsError (List RatingChange) :=
  if participants.length < 2 then .ok []
  else if ¬ (participants.map RatingParticipant.placement).Nodup then
    .error .ratingRequiresUniquePlacements
  else .ok (participants.map (ratingChange exp10 participants))

end GameRatingService

/-! ## Finished games -/

inductive GameMode where
  | ranked | casual
  deriving DecidableEq

/-- What the results keep of a player of the state. -/
structure GamePlayerIdentity where
  playerType : PlayerType
  userId : Option UserId
  deriving DecidableEq

/-- The fields of a player's result that the statistics read. -/
structure RoomPlayerResult where
  userId : Option UserId
  finalNetWorth : Int
  placement : Nat
  deriving DecidableEq

structure ApplyFinishedGameStatsInput where
  roomId : RoomId
  mode : GameMode
  players : List GamePlayerIdentity
  playerResults : List RoomPlayerResult
  deriving DecidableEq

/-- A result whose player is a user. -/
structure UserResult where
  userId : UserId
  finalNetWorth : Int
  placement : Nat
  deriving DecidableEq

/-- `input.playerResults.filter((result) => result.userId !== null)` -/
def ApplyFinishedGameStatsInput.userResults (input : ApplyFinishedGameStatsInput) :
    List UserResult :=
  input.playerResults.filterMap fun result => result.userId.map fun userId =>
    { userId, finalNetWorth := result.finalNetWorth, placement := result.placement }

/-- What a map made of the entries has under a key: the last of them. -/
def mapGet {α : Type} (key : α → UserId) (entries : List α) (userId : UserId) : Option α :=
  (entries.filter fun entry => key entry = userId).getLast?

/-- What a service of the statistics does. -/
abbrev StatsTask (κ α : Type) : Type := Proc (StatsOp κ) (StatsAns κ) StatsError α

section Service

variable {κ : Type}

/-- A statement; its failure is thrown. -/
def statement (o : StatsOp κ) {α : Type} (answer : StatsAns κ o → Except DatabaseError α) :
    StatsTask κ α := do
  lift ((answer (← perform o)).mapError .database)

namespace GameStatsRepository

def createMissingPlayerStats (tx : κ) : List UserId → StatsTask κ Unit
  | [] => return ()
  | userId :: userIds => do
    statement (.insertPlayerStats tx userId) id
    createMissingPlayerStats tx userIds

/-- The rows, in the order in which the database comes upon them. -/
def lockPlayerStats (tx : κ) : List UserId → StatsTask κ (List PlayerStats)
  | [] => return []
  | userId :: userIds => do
    let row ← statement (.selectForUpdate tx userId) id
    let rows ← lockPlayerStats tx userIds
    return row.toList ++ rows

def recordRatingChange (tx : κ) (input : RatingHistoryRow) : StatsTask κ Bool :=
  statement (.insertRatingHistory tx input) id

def updatePlayerStats (tx : κ) (input : PlayerStats) : StatsTask κ Unit :=
  statement (.updatePlayerStats tx input) id

end GameStatsRepository

namespace GameStatsService

open Binary64

def shouldRateGame (input : ApplyFinishedGameStatsInput) : Bool :=
  input.mode = .ranked && input.players.all fun player =>
    player.playerType = .human && player.userId.isSome

/-- `toFixed(2)` -/
def toFixed2 (x : Rat) : Rat := (100 * x + 1 / 2).floor / 100

def buildUpdatedStats (stats : PlayerStats) (finalNetWorth : Int) (placement : Nat)
    (ratingAfter : Int) : PlayerStats :=
  let gamesPlayed := stats.gamesPlayed + 1
  { userId := stats.userId
    gamesPlayed
    firstPlace := stats.firstPlace + if placement = 1 then 1 else 0
    secondPlace := stats.secondPlace + if placement = 2 then 1 else 0
    thirdPlace := stats.thirdPlace + if placement = 3 then 1 else 0
    fourthPlace := stats.fourthPlace + if placement = 4 then 1 else 0
    -- `Number(..)` of the stored text rounds as well.
    avgPosition := toFixed2
      (fl (fl (fl (fl stats.avgPosition * stats.gamesPlayed) + placement) / gamesPlayed))
    currentRating := ratingAfter
    peakRating := max stats.peakRating ratingAfter
    totalNetWorth := stats.totalNetWorth + finalNetWorth
    totalRentCollected := stats.totalRentCollected
    totalRentPaid := stats.totalRentPaid }

/-- The participants of the rating, with the ratings they have. -/
def participants (currentStats : List PlayerStats) :
    List UserResult → Except StatsError (List RatingParticipant)
  | [] => .ok []
  | result :: results =>
    match mapGet PlayerStats.userId currentStats result.userId with
    | none => .error .playerStatsRowMissing
    | some stats => do
      let rest ← participants currentStats results
      return { userId := result.userId, placement := result.placement,
               rating := stats.currentRating } :: rest

/-- The changes of an unrated game. -/
def unrated (participant : RatingParticipant) : RatingChange where
  userId := participant.userId
  ratingBefore := participant.rating
  ratingAfter := participant.rating
  ratingDelta := 0

def ratingChanges (exp10 : Rat → Rat) (input : ApplyFinishedGameStatsInput)
    (currentStats : List PlayerStats) : Except StatsError (List RatingChange) := do
  let participants ← participants currentStats input.userResults
  if shouldRateGame input = true then
    GameRatingService.calculateRatingChanges exp10 participants
  else return participants.map unrated

/-- The loop over the results. -/
def recordResults (tx : κ) (roomId : RoomId) (currentStats : List PlayerStats)
    (changes : List RatingChange) : List UserResult → StatsTask κ Unit
  | [] => return ()
  | result :: results => do
    match mapGet PlayerStats.userId currentStats result.userId,
      mapGet RatingChange.userId changes result.userId with
    | some stats, some change =>
      let ratingInserted ← GameStatsRepository.recordRatingChange tx {
        userId := result.userId, roomId, ratingBefore := change.ratingBefore
        ratingAfter := change.ratingAfter, ratingDelta := change.ratingDelta
        placement := result.placement }
      if ratingInserted = true then
        GameStatsRepository.updatePlayerStats tx
          (buildUpdatedStats stats result.finalNetWorth result.placement change.ratingAfter)
      recordResults tx roomId currentStats changes results
    | _, _ => recordResults tx roomId currentStats changes results

/-- `scan` is the order in which the database comes upon the rows it locks. -/
def applyFinishedGameStats (exp10 : Rat → Rat) (tx : κ) (scan : List UserId)
    (input : ApplyFinishedGameStatsInput) : StatsTask κ Unit :=
  if input.userResults = [] then return ()
  else do
    GameStatsRepository.createMissingPlayerStats tx (input.userResults.map UserResult.userId)
    let currentStats ← GameStatsRepository.lockPlayerStats tx scan
    let changes ← lift (ratingChanges exp10 input currentStats)
    recordResults tx input.roomId currentStats changes input.userResults

/-- The transaction it is part of. -/
def finishedGameTransaction (exp10 : Rat → Rat) (tx : κ) (scan : List UserId)
    (input : ApplyFinishedGameStatsInput) : StatsTask κ Unit :=
  DatabaseService.transaction (statement (.commit tx) id) (perform (StatsOp.rollback tx))
    (applyFinishedGameStats exp10 tx scan input)

end GameStatsService

end Service

end Service
end LivePoly
