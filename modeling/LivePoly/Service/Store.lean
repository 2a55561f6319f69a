import LivePoly.Lib.Process
import LivePoly.Engine.Intents

/-!
# Service.Store

What the services of one game share: the state text under the game's key in Redis, its snapshots
and its event log. A service is a process that asks for the operations of `Op`; each is atomic,
and the work of a service between two operations is its own.
-/

namespace LivePoly
namespace Service

open Engine Process

inductive ServiceError where
  | notFound | conflict | internalServerError | badRequest
  | engine (error : EngineError)
  | database
  deriving DecidableEq

/-- What a service reads from its surroundings at one of its operations: the clock, as each of its
uses reads it, what the engine reads, the dice it picks, and whether the database fails. -/
structure Ambient where
  now : Nat
  engine : Env
  deadlineNow : Nat
  renewedNow : Nat
  dice : DiceRoll
  failure : Option ServiceError
  deriving DecidableEq

/-- `JSON.stringify` and `JSON.parse`, as texts of type `τ`; a text that is no state is rejected. -/
structure StateCodec (τ : Type) where
  stringify : GameEngineState → τ
  parse : τ → Option GameEngineState
  parse_stringify : ∀ state, parse (stringify state) = some state

/-! ## Snapshots -/

inductive GameSnapshotType where
  | start | turn | final
  deriving DecidableEq

structure GameSnapshotRow where
  snapshotType : GameSnapshotType
  turnNumber : Nat
  state : GameEngineState
  createdAt : Nat
  deriving DecidableEq

/-- `GameSnapshotRepository.create`: a row for its type and turn, or a new state in that row. -/
def createSnapshot (rows : List GameSnapshotRow) (snapshotType : GameSnapshotType)
    (state : GameEngineState) (createdAt : Nat) : List GameSnapshotRow :=
  if rows.any fun row => row.snapshotType = snapshotType && row.turnNumber = state.turnNumber then
    rows.map fun row =>
      if row.snapshotType = snapshotType ∧ row.turnNumber = state.turnNumber then
        { row with state }
      else row
  else rows ++ [{ snapshotType, turnNumber := state.turnNumber, state, createdAt }]

/-- `GameSnapshotRepository.findLatestByGameId`: by turn number, then by time, the latest first. -/
def findLatestByGameId (rows : List GameSnapshotRow) : Option GameSnapshotRow :=
  (rows.insertionSort fun left right =>
    right.turnNumber < left.turnNumber ∨
      right.turnNumber = left.turnNumber ∧ right.createdAt ≤ left.createdAt).head?

/-! ## The shared stores -/

structure Stores (τ : Type) where
  redis : Option τ
  snapshots : List GameSnapshotRow
  eventLog : List GameEngineEvent
  deriving DecidableEq

/-- `COMPARE_AND_SET_STATE_SCRIPT`: what it returns and the text it leaves. -/
def compareAndSetState {τ : Type} [DecidableEq τ] (current : Option τ) (expected next : τ) :
    Int × Option τ :=
  match current with
  | none => (-1, none)
  | some text => if text ≠ expected then (0, some text) else (1, some next)

inductive Op (τ : Type) where
  | get
  | set (value : τ)
  | eval (expected next : τ)
  | ambient
  | findLatestByGameId
  | createSnapshot (snapshotType : GameSnapshotType) (state : GameEngineState)
  | appendEvents (events : List GameEngineEvent)
  | finalizeFinishedGame (state : GameEngineState) (events : List GameEngineEvent)
  deriving DecidableEq

/-- What an operation answers. Those of the database may fail. -/
@[reducible] def Ans (τ : Type) : Op τ → Type
  | .get => Option τ
  | .set _ => Unit
  | .eval _ _ => Int
  | .ambient => Ambient
  | .findLatestByGameId => Except ServiceError (Option GameEngineState)
  | .createSnapshot _ _ | .appendEvents _ | .finalizeFinishedGame _ _ =>
    Except ServiceError Unit

/-- What the database answers, unless it fails. -/
def unlessFailing {τ α : Type} (g : Ambient) (stores stores' : Stores τ) (answer : α) :
    Stores τ × Except ServiceError α :=
  match g.failure with
  | some error => (stores, .error error)
  | none => (stores', .ok answer)

/-- Performing an operation. Finalizing a game writes its final snapshot; the result rows it writes
besides are not read by any operation here. -/
def exec {τ : Type} [DecidableEq τ] (stores : Stores τ) (o : Op τ) (g : Ambient) :
    Stores τ × Ans τ o :=
  match o with
  | .get => (stores, stores.redis)
  | .set value => ({ stores with redis := some value }, ())
  | .eval expected next =>
    let (result, redis) := compareAndSetState stores.redis expected next
    ({ stores with redis }, result)
  | .ambient => (stores, g)
  | .findLatestByGameId =>
    unlessFailing g stores stores
      ((Service.findLatestByGameId stores.snapshots).map GameSnapshotRow.state)
  | .createSnapshot snapshotType state =>
    unlessFailing g stores
      { stores with
        snapshots := Service.createSnapshot stores.snapshots snapshotType state g.now } ()
  | .appendEvents events =>
    unlessFailing g stores { stores with eventLog := stores.eventLog ++ events } ()
  | .finalizeFinishedGame state _ =>
    unlessFailing g stores
      { stores with
        snapshots := Service.createSnapshot stores.snapshots .final state g.now } ()

/-- What a service does. -/
abbrev Task (τ α : Type) : Type := Proc (Op τ) (Ans τ) ServiceError α

section Operations

variable {τ : Type}

def redisGet : Task τ (Option τ) := Proc.perform (Op.get : Op τ)

def redisSet (value : τ) : Task τ Unit := Proc.perform (Op.set value : Op τ)

def redisEval (expected next : τ) : Task τ Int := Proc.perform (Op.eval expected next : Op τ)

def readAmbient : Task τ Ambient := Proc.perform (Op.ambient : Op τ)

/-- An operation of the database: its failure is the error of the service that asks for it. -/
def query (o : Op τ) {α : Type} (answer : Ans τ o → Except ServiceError α) : Task τ α := do
  Proc.lift (answer (← Proc.perform o))

end Operations

end Service
end LivePoly
