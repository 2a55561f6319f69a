import LivePoly.Service.Outbox

/-!
# Service.Publishers

`OutboxPublisher.publishById` with its awaits apart: claiming the event, publishing its message,
and writing the outcome to the row are three steps, and between them anything may happen to the
row. Any number of workers run it.
-/

namespace LivePoly
namespace Service

variable {ω ι : Type}

/-- Where a call of `publishById` stands: it has claimed the event, its message is out, or an error
was caught. -/
inductive PublisherStage (ι : Type) where
  | claimed (event : OutboxEvent ι)
  | published (event : OutboxEvent ι)
  | caught (event : OutboxEvent ι) (error : String)
  deriving DecidableEq

/-- The event the worker has claimed. -/
def PublisherStage.event : PublisherStage ι → OutboxEvent ι
  | claimed event | published event | caught event _ => event

structure Publishers (ω ι : Type) where
  now : Nat
  rows : List (OutboxEvent ι)
  workers : ω → Option (PublisherStage ι)

/-- What a worker does next, and how it turns out. -/
inductive PublisherInput (ω ι : Type) where
  | pass (ms : Nat)
  | createOrGet (id : ι) (input : CreateOutboxEventInput)
  | claimById (worker : ω) (id : ι)
  /-- No error if the message is out. -/
  | publishNotificationCreated (worker : ω) (error : Option String)
  /-- An update can fail after the table has it. -/
  | markPublished (worker : ω) (applied : Bool) (error : Option String)
  | fail (worker : ω) (applied : Bool)
  | crash (worker : ω)
  deriving DecidableEq

/-- The messages that go out. -/
abbrev PublisherOutput : Type := NotificationCreatedPayload

section Steps

variable [DecidableEq ω] [DecidableEq ι]

def Publishers.set (m : Publishers ω ι) (worker : ω) (stage : Option (PublisherStage ι)) :
    Publishers ω ι :=
  { m with workers := Function.update m.workers worker stage }

/-- `OutboxService.fail`: what is kept of the text of an error. -/
def errorText (error : String) : String := String.ofList (error.toList.take 2000)

def publisherStep (m : Publishers ω ι) :
    PublisherInput ω ι → Option (Publishers ω ι × List PublisherOutput)
  | .pass ms => some ({ m with now := m.now + ms }, [])
  | .createOrGet id input =>
    if id ∈ m.rows.map OutboxEvent.id then none
    else some ({ m with rows := OutboxRepository.createOrGet m.rows id input m.now }, [])
  | .claimById worker id =>
    match m.workers worker with
    | some _ => none
    | none =>
      match OutboxRepository.start m.rows id m.now with
      | (rows, some event) => some (({ m with rows }).set worker (some (.claimed event)), [])
      | (_, none) => some (m, [])
  | .publishNotificationCreated worker error =>
    match m.workers worker with
    | some (.claimed event) =>
      if event.topic ≠ notificationCreated then
        some (m.set worker (some (.caught event ("Unknown outbox topic: " ++ event.topic))), [])
      else
        match error, notificationCreatedPayloadSchema event.payload with
        | none, some payload => some (m.set worker (some (.published event)), [payload])
        | none, none => none
        | some error, _ => some (m.set worker (some (.caught event error)), [])
    | _ => none
  | .markPublished worker applied error =>
    match m.workers worker with
    | some (.published event) =>
      let rows :=
        if applied then OutboxRepository.markPublished m.rows event.id m.now else m.rows
      match error with
      | none => if applied then some (({ m with rows }).set worker none, []) else none
      | some error => some (({ m with rows }).set worker (some (.caught event error)), [])
    | _ => none
  | .fail worker applied =>
    match m.workers worker with
    | some (.caught event error) =>
      let rows :=
        if applied then OutboxRepository.markFailed m.rows event.id (errorText error) m.now
        else m.rows
      some (({ m with rows }).set worker none, [])
    | _ => none
  | .crash worker =>
    match m.workers worker with
    | some _ => some (m.set worker none, [])
    | none => none

/-- The step relation of the publishers. -/
def PublisherSteps (m : Publishers ω ι) (input : PublisherInput ω ι)
    (output : List PublisherOutput) (m' : Publishers ω ι) : Prop :=
  publisherStep m input = some (m', output)

end Steps

end Service
end LivePoly
