import Mathlib.Data.List.Sort
import LivePoly.Lib.JobQueue
import LivePoly.Lib.Keyed

/-!
# Service.Outbox

The outbox: its table, the jobs that publish its events, and the recovery that enqueues what is
available. A worker takes a job, claims the event and publishes it; between any two of these it may
die. Times are milliseconds.
-/

namespace LivePoly
namespace Service

open JobQueue

/-- `OUTBOX_TOPICS.notificationCreated` -/
def notificationCreated : String := "notification.created"

inductive OutboxEventStatus where
  | queued | processing | published | failed
  deriving DecidableEq

/-- A value of a payload: a string, or anything else. -/
inductive PayloadValue where
  | string (value : String)
  | other
  deriving DecidableEq

/-- The fields of a payload, unless it is no object. -/
abbrev OutboxPayload : Type := Option (List (String × PayloadValue))

structure NotificationCreatedPayload where
  notificationId : String
  userId : String
  type : String
  createdAt : String
  deriving DecidableEq

/-- `z.string().min(1)` -/
def nonEmptyString (payload : List (String × PayloadValue)) (field : String) : Option String :=
  match payload.lookup field with
  | some (.string value) => if 1 ≤ value.length then some value else none
  | _ => none

def notificationCreatedPayloadSchema (payload : OutboxPayload) :
    Option NotificationCreatedPayload := do
  let fields ← payload
  let notificationId ← nonEmptyString fields "notificationId"
  let userId ← nonEmptyString fields "userId"
  let type ← nonEmptyString fields "type"
  let createdAt ← nonEmptyString fields "createdAt"
  return { notificationId, userId, type, createdAt }

variable {ι : Type}

structure OutboxEvent (ι : Type) where
  id : ι
  key : String
  topic : String
  payload : OutboxPayload
  status : OutboxEventStatus
  attempts : Nat
  maxAttempts : Nat
  error : Option String
  availableAt : Nat
  startedAt : Option Nat
  publishedAt : Option Nat
  failedAt : Option Nat
  createdAt : Nat
  updatedAt : Nat
  deriving DecidableEq

structure CreateOutboxEventInput where
  key : String
  topic : String
  payload : OutboxPayload
  maxAttempts : Option Nat
  deriving DecidableEq

namespace OutboxRepository

/-- `STALE_PROCESSING_MINUTES` -/
def staleProcessingMs : Nat := 10 * 60 * 1000

/-- `RETRY_DELAY_MS` -/
def retryDelayMs : Nat := 30000

/-- A new row under an id the database chooses; a row that has the key is left as it is. -/
def createOrGet (rows : List (OutboxEvent ι)) (id : ι) (input : CreateOutboxEventInput)
    (now : Nat) : List (OutboxEvent ι) :=
  if rows.any fun row => row.key = input.key then rows
  else rows ++ [{
    id, key := input.key, topic := input.topic, payload := input.payload, status := .queued
    attempts := 0, maxAttempts := input.maxAttempts.getD 3, error := none, availableAt := now
    startedAt := none, publishedAt := none, failedAt := none, createdAt := now, updatedAt := now }]

def isAvailable (now : Nat) (row : OutboxEvent ι) : Bool :=
  (row.status = .queued || row.status = .failed) && row.availableAt ≤ now &&
    row.attempts < row.maxAttempts

def findAvailable (rows : List (OutboxEvent ι)) (limit now : Nat) : List ι :=
  (((rows.filter (isAvailable now)).insertionSort fun left right =>
    left.availableAt < right.availableAt ∨
      left.availableAt = right.availableAt ∧ left.createdAt ≤ right.createdAt).take limit).map
    OutboxEvent.id

/-- The row may be claimed, as the status and the times have it. -/
def isClaimable (now : Nat) (row : OutboxEvent ι) : Bool :=
  (row.status = .queued || row.status = .failed) && row.availableAt ≤ now ||
    row.status = .processing && row.startedAt.any fun startedAt => startedAt + staleProcessingMs < now

/-- What `start` sets. -/
def claim (now : Nat) (row : OutboxEvent ι) : OutboxEvent ι :=
  { row with
    status := .processing, attempts := row.attempts + 1, startedAt := some now, updatedAt := now }

variable [DecidableEq ι]

/-- Claiming an event: the table after it, and the event, if it could be claimed. -/
def start (rows : List (OutboxEvent ι)) (eventId : ι) (now : Nat) :
    List (OutboxEvent ι) × Option (OutboxEvent ι) :=
  match Keyed.find OutboxEvent.id rows eventId with
  | none => (rows, none)
  | some row =>
    if row.attempts < row.maxAttempts ∧ isClaimable now row then
      (Keyed.modify OutboxEvent.id rows eventId (claim now), some (claim now row))
    else (rows, none)

def markPublished (rows : List (OutboxEvent ι)) (eventId : ι) (now : Nat) : List (OutboxEvent ι) :=
  Keyed.modify OutboxEvent.id rows eventId fun row =>
    { row with status := .published, publishedAt := some now, error := none, updatedAt := now }

def markFailed (rows : List (OutboxEvent ι)) (eventId : ι) (error : String) (now : Nat) :
    List (OutboxEvent ι) :=
  Keyed.modify OutboxEvent.id rows eventId fun row =>
    { row with
      status := .failed, failedAt := some now, error := some error
      availableAt := now + retryDelayMs, updatedAt := now }

end OutboxRepository

/-- How the calls of one `publishEvent` turn out: whether the message is published, whether the
table can be written afterwards, and the error if it comes to one. -/
structure PublishOutcome where
  published : Bool
  marked : Bool
  failMarked : Bool
  error : String
  deriving DecidableEq

structure PublishOutboxEventJob (ι : Type) where
  outboxEventId : ι
  deriving DecidableEq

/-- What the worker of a job is at: it has taken the job, it has claimed the event, or the
publishing has returned or thrown and the queue is to be told. -/
inductive PublishStage (ι : Type) where
  | taken
  | claimed (event : OutboxEvent ι)
  | returned
  | thrown
  deriving DecidableEq

structure Outbox (ι : Type) where
  now : Nat
  rows : List (OutboxEvent ι)
  queue : Queue ι (PublishOutboxEventJob ι)
  workers : ι → Option (PublishStage ι)

namespace OutboxPublisher

variable [DecidableEq ι]

/-- `publishNotificationCreated` and `markPublished`; any error is caught, the event is marked
as failed, and the error is thrown again. -/
def publishEvent (rows : List (OutboxEvent ι)) (event : OutboxEvent ι) (outcome : PublishOutcome)
    (now : Nat) : List (OutboxEvent ι) × Bool :=
  if event.topic = notificationCreated ∧
      (notificationCreatedPayloadSchema event.payload).isSome = true ∧
      outcome.published = true ∧ outcome.marked = true then
    (OutboxRepository.markPublished rows event.id now, true)
  else if outcome.failMarked = true then
    (OutboxRepository.markFailed rows event.id (String.ofList (outcome.error.toList.take 2000)) now, false)
  else (rows, false)

end OutboxPublisher

namespace OutboxQueueService

/-- The options of a publish job. -/
def attempts : Nat := 3

def removeOnComplete : Bool := true

/-- `exponentialBackoffWithJitter({ delay: 1_000 })`: the delay doubles with each attempt, and the
jitter takes up to a fifth of it away. -/
def isBackoff (attemptsMade delay : Nat) : Bool :=
  800 * 2 ^ attemptsMade ≤ delay && delay ≤ 1000 * 2 ^ attemptsMade

variable [DecidableEq ι]

def enqueuePublishEvent (outbox : Outbox ι) (outboxEventId : ι) : Outbox ι :=
  { outbox with queue := outbox.queue.add outboxEventId { outboxEventId } outbox.now }

end OutboxQueueService

namespace OutboxRecoveryService

/-- `OUTBOX_RECOVERY_BATCH_SIZE` -/
def batchSize : Nat := 100

def recoverAvailableEvents [DecidableEq ι] (outbox : Outbox ι) : Outbox ι :=
  (OutboxRepository.findAvailable outbox.rows batchSize outbox.now).foldl
    OutboxQueueService.enqueuePublishEvent outbox

end OutboxRecoveryService

/-- What happens at the outbox next. -/
inductive OutboxInput (ι : Type) where
  | pass (ms : Nat)
  | createOrGet (id : ι) (input : CreateOutboxEventInput)
  | enqueuePublishEvent (id : ι)
  | recoverAvailableEvents
  /-- A worker takes the job. -/
  | take (id : ι)
  /-- `claimById` of the worker that has taken the job. -/
  | claimById (id : ι)
  /-- The statement of `claimById` throws; the database may have claimed the event before that. -/
  | claimThrows (id : ι) (claimed : Bool)
  /-- `publishEvent` of the worker that has claimed the event. -/
  | publishEvent (id : ι) (outcome : PublishOutcome)
  /-- The queue learns how the attempt went; `delay` is that of a retry. -/
  | endAttempt (id : ι) (delay : Nat)
  /-- The worker dies. -/
  | crash (id : ι)
  /-- The job of a dead worker runs again, or is given up. -/
  | stalled (id : ι) (again : Bool)

/-- What a step shows: jobs that end. -/
inductive OutboxOutput (ι : Type) where
  | completed (id : ι)
  deriving DecidableEq

section Steps

variable [DecidableEq ι]

/-- The job has run: as its options have it, nothing of it is kept. -/
def completeJob (outbox : Outbox ι) (id : ι) : Option (Outbox ι × List (OutboxOutput ι)) := do
  let queue ← outbox.queue.complete id (!OutboxQueueService.removeOnComplete)
  return ({ outbox with queue, workers := Function.update outbox.workers id none }, [.completed id])

/-- The job has thrown: it is tried again after `delay`, unless this was its last attempt. -/
def failJob (outbox : Outbox ι) (id : ι) (delay : Nat) :
    Option (Outbox ι × List (OutboxOutput ι)) := do
  let queue ← outbox.queue.fail id OutboxQueueService.attempts (outbox.now + delay)
  return ({ outbox with queue, workers := Function.update outbox.workers id none }, [])

def outboxStep (outbox : Outbox ι) : OutboxInput ι → Option (Outbox ι × List (OutboxOutput ι))
  | .pass ms => some ({ outbox with now := outbox.now + ms }, [])
  | .createOrGet id input =>
    if id ∈ outbox.rows.map OutboxEvent.id then none
    else some ({ outbox with rows := OutboxRepository.createOrGet outbox.rows id input outbox.now }, [])
  | .enqueuePublishEvent id => some (OutboxQueueService.enqueuePublishEvent outbox id, [])
  | .recoverAvailableEvents => some (OutboxRecoveryService.recoverAvailableEvents outbox, [])
  | .take id => do
    let queue ← outbox.queue.take id outbox.now
    return ({ outbox with queue, workers := Function.update outbox.workers id (some .taken) }, [])
  | .claimById id =>
    match outbox.workers id with
    | some .taken =>
      match OutboxRepository.start outbox.rows id outbox.now with
      | (rows, some event) =>
        some ({ outbox with
          rows, workers := Function.update outbox.workers id (some (.claimed event)) }, [])
      | (_, none) => completeJob outbox id
    | _ => none
  | .claimThrows id claimed =>
    match outbox.workers id with
    | some .taken =>
      let rows :=
        if claimed then (OutboxRepository.start outbox.rows id outbox.now).1 else outbox.rows
      some ({ outbox with rows, workers := Function.update outbox.workers id (some .thrown) }, [])
    | _ => none
  | .publishEvent id outcome =>
    match outbox.workers id with
    | some (.claimed event) =>
      match OutboxPublisher.publishEvent outbox.rows event outcome outbox.now with
      | (rows, ok) =>
        some ({ outbox with
          rows
          workers := Function.update outbox.workers id (some (if ok then .returned else .thrown)) },
          [])
    | _ => none
  | .endAttempt id delay =>
    match outbox.workers id with
    | some .returned => completeJob outbox id
    | some .thrown =>
      if (outbox.queue id).any fun job => OutboxQueueService.isBackoff job.attemptsMade delay then
        failJob outbox id delay
      else none
    | _ => none
  | .crash id =>
    match outbox.workers id with
    | some _ => some ({ outbox with workers := Function.update outbox.workers id none }, [])
    | none => none
  | .stalled id again =>
    match outbox.workers id with
    | some _ => none
    | none => do
      let queue ← outbox.queue.stalled id again
      return ({ outbox with queue }, [])

/-- The step relation of the outbox. -/
def OutboxSteps (outbox : Outbox ι) (input : OutboxInput ι) (output : List (OutboxOutput ι))
    (outbox' : Outbox ι) : Prop :=
  outboxStep outbox input = some (outbox', output)

end Steps

end Service
end LivePoly
