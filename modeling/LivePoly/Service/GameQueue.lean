import LivePoly.Lib.JobQueue
import LivePoly.Service.Bots
import LivePoly.Service.Database

/-!
# Service.GameQueue

The queue of the games' jobs (`GameBotQueueService`, `GameTurnTimerQueueService`): bot turns, turn
timeouts and the expiry of a game. A call of a service is one step: what workers do to the queue
comes before or after it. Times are milliseconds.
-/

namespace LivePoly
namespace Service

open Engine JobQueue

/-- The parts of a job's id, which the source joins to a text. -/
inductive GameJobId where
  | botTurn (gameId : GameId) (turnNumber : Nat) (phase : GamePhase) (roomPlayerId : RoomPlayerId)
      (actionStateKey : ActionStateKey)
  | turnTimeout (gameId : GameId) (data : ExecuteTurnTimeoutJob)
  | gameExpiry (gameId : GameId)
  deriving DecidableEq

/-- The name of a job and its data. -/
inductive GameJobData where
  | executeBotTurn (gameId : GameId)
  | executeTurnTimeout (gameId : GameId) (data : ExecuteTurnTimeoutJob)
  | finishExpiredGame (gameId : GameId) (expiresAt : Nat)
  deriving DecidableEq

structure GameQueue where
  now : Nat
  jobs : Queue GameJobId GameJobData

namespace GameQueue

/-- The `attempts` of every job of this queue. -/
def attempts : Nat := 3

def empty (now : Nat) : GameQueue := { now, jobs := JobQueue.empty }

def add (queue : GameQueue) (jobId : GameJobId) (data : GameJobData) (delay : Nat) : GameQueue :=
  { queue with jobs := queue.jobs.add jobId data (queue.now + delay) }

/-- The state of the job with the id. -/
def getState (queue : GameQueue) (jobId : GameJobId) : Option JobState :=
  (queue.jobs jobId).map Job.state

/-- `existingJob.remove()`; only jobs that are not active are removed. -/
def remove (queue : GameQueue) (jobId : GameJobId) : GameQueue :=
  { queue with jobs := (queue.jobs.remove jobId).getD queue.jobs }

end GameQueue

namespace GameBotQueueService

/-- A bot's job has no deadline in its key. -/
def getActionStateKey (state : GameEngineState) : ActionStateKey :=
  match if state.phase = .awaitingAuctionBid then state.auction else none with
  | none => .turn none
  | some auction =>
    .auction auction.currentBid auction.highestBidderRoomPlayerId
      auction.currentBidderRoomPlayerId auction.bidExpiresAt auction.passedRoomPlayerIds

/-- `GAME_BOTS.actionDelayMs`; `thinking` is how far the random delay is above its minimum. -/
def getActionDelay (state : GameEngineState) (thinking : Fin 901) : Nat :=
  if state.phase = .awaitingTurnEnd then 0 else 900 + thinking

def jobId (gameId : GameId) (state : GameEngineState) (decision : BotDecision) : GameJobId :=
  .botTurn gameId state.turnNumber state.phase decision.roomPlayerId (getActionStateKey state)

def removeRecoverableDuplicateJob (queue : GameQueue) (jobId : GameJobId) : GameQueue :=
  if queue.getState jobId = some .failed ∨ queue.getState jobId = some .completed then
    queue.remove jobId
  else queue

def enqueueIfBotCanAct (queue : GameQueue) (gameId : GameId) (state : GameEngineState)
    (dice : DiceRoll) (thinking : Fin 901) : Checked GameQueue := do
  match ← GameBotService.chooseDecision dice state with
  | none => return queue
  | some decision =>
    let jobId := jobId gameId state decision
    return (removeRecoverableDuplicateJob queue jobId).add jobId (.executeBotTurn gameId)
      (getActionDelay state thinking)

end GameBotQueueService

namespace GameTurnTimerQueueService

def getAuctionBidDelay (now : Nat) (auction : GameEngineAuction) : Nat :=
  match auction.bidExpiresAt.filter (· ≠ 0) with
  | none => auctionBidTimeoutMs
  | some bidExpiresAt => bidExpiresAt - now

def getTurnTimerDelay (now : Nat) (state : GameEngineState) : Nat :=
  match if state.phase = .awaitingAuctionBid then state.auction else none with
  | some auction => getAuctionBidDelay now auction
  | none =>
    match state.turnExpiresAt.filter (· ≠ 0) with
    | some turnExpiresAt => turnExpiresAt - now
    | none => turnTimeoutMs

def timeoutJob (state : GameEngineState) : ExecuteTurnTimeoutJob where
  turnNumber := state.turnNumber
  phase := state.phase
  currentTurnRoomPlayerId := state.currentTurnRoomPlayerId
  actionStateKey := GameProcessor.getActionStateKey state

def removeFailedDuplicateJob (queue : GameQueue) (jobId : GameJobId) : GameQueue :=
  if queue.getState jobId = some .failed then queue.remove jobId else queue

def enqueueTurnTimer (queue : GameQueue) (gameId : GameId) (state : GameEngineState) : GameQueue :=
  if state.phase = .finished ∨ state.phase = .cancelled then queue
  else
    let data := timeoutJob state
    let jobId : GameJobId := .turnTimeout gameId data
    (removeFailedDuplicateJob queue jobId).add jobId (.executeTurnTimeout gameId data)
      (getTurnTimerDelay queue.now state)

/-- A time that is no whole number enqueues nothing; times are whole numbers here. -/
def enqueueGameExpiry (queue : GameQueue) (gameId : GameId) (expiresAt : Nat) : GameQueue :=
  if expiresAt = 0 then queue
  else
    let jobId : GameJobId := .gameExpiry gameId
    (removeFailedDuplicateJob queue jobId).add jobId (.finishExpiredGame gameId expiresAt)
      (expiresAt - queue.now)

end GameTurnTimerQueueService

/-- What happens at the queue next. -/
inductive GameQueueInput where
  | pass (ms : Nat)
  | enqueueIfBotCanAct (gameId : GameId) (state : GameEngineState) (dice : DiceRoll)
      (thinking : Fin 901)
  | enqueueTurnTimer (gameId : GameId) (state : GameEngineState)
  | enqueueGameExpiry (gameId : GameId) (expiresAt : Nat)
  /-- A worker takes the job. -/
  | take (jobId : GameJobId)
  /-- The job of a worker has run, and is kept for a while. -/
  | complete (jobId : GameJobId)
  /-- The job of a worker has thrown, and is tried again after `delay` if attempts are left. -/
  | fail (jobId : GameJobId) (delay : Nat)
  /-- The job of a dead worker runs again, or is given up. -/
  | stalled (jobId : GameJobId) (again : Bool)
  /-- A job that has ended is no longer kept (`removeOnComplete`, `removeOnFail`). -/
  | expire (jobId : GameJobId)

/-- `none` when the queue does not allow the step, or the call throws. -/
def gameQueueStep (queue : GameQueue) : GameQueueInput → Option GameQueue
  | .pass ms => some { queue with now := queue.now + ms }
  | .enqueueIfBotCanAct gameId state dice thinking =>
    (GameBotQueueService.enqueueIfBotCanAct queue gameId state dice thinking).toOption
  | .enqueueTurnTimer gameId state =>
    some (GameTurnTimerQueueService.enqueueTurnTimer queue gameId state)
  | .enqueueGameExpiry gameId expiresAt =>
    some (GameTurnTimerQueueService.enqueueGameExpiry queue gameId expiresAt)
  | .take jobId => do
    let jobs ← queue.jobs.take jobId queue.now
    return { queue with jobs }
  | .complete jobId => do
    let jobs ← queue.jobs.complete jobId true
    return { queue with jobs }
  | .fail jobId delay => do
    let jobs ← queue.jobs.fail jobId GameQueue.attempts (queue.now + delay)
    return { queue with jobs }
  | .stalled jobId again => do
    let jobs ← queue.jobs.stalled jobId again
    return { queue with jobs }
  | .expire jobId =>
    if queue.getState jobId = some .completed ∨ queue.getState jobId = some .failed then
      some (queue.remove jobId)
    else none

/-- The step relation of the queue, which shows nothing. -/
def GameQueueSteps (queue : GameQueue) (input : GameQueueInput) (output : List Unit)
    (queue' : GameQueue) : Prop :=
  gameQueueStep queue input = some queue' ∧ output = []

end Service
end LivePoly
