import LivePoly.Service.Store

/-!
# Service.State

The services around the live state: `GameStateService`, `GameSnapshotService` and
`GameRecoveryService`.
-/

namespace LivePoly
namespace Service

open Engine Process Process.Proc

variable {τ ρ : Type}

namespace GameStateService

def parseState (json : StateCodec τ) (value : τ) : Task τ GameEngineState :=
  match json.parse value with
  | none => throw .internalServerError
  | some state => return state

def get (json : StateCodec τ) : Task τ GameEngineState := do
  match ← redisGet with
  | none => throw .notFound
  | some state => parseState json state

def set (json : StateCodec τ) (state : GameEngineState) : Task τ Unit :=
  redisSet (json.stringify state)

/-- `GAME_STATE.updateMaxAttempts` -/
def updateMaxAttempts : Nat := 5

/-- The loop of `update`, with `attempts` left. The updater also leaves a value in the variable it
closes over, which keeps that of the last attempt. -/
def updateLoop (json : StateCodec τ)
    (updater : Ambient → GameEngineState → Except ServiceError (GameEngineState × ρ)) :
    Nat → Option ρ → Task τ (GameEngineState × Option ρ)
  | 0, _ => throw .conflict
  | attempts + 1, _ => do
    match ← redisGet with
    | none => throw .notFound
    | some currentSerialized =>
      let currentState ← parseState json currentSerialized
      let ambient ← readAmbient
      let (nextState, captured) ← lift (updater ambient currentState)
      let result ← redisEval currentSerialized (json.stringify nextState)
      if result = 1 then return (nextState, some captured)
      else if result = -1 then throw .notFound
      else updateLoop json updater attempts (some captured)

def update (json : StateCodec τ) (maxAttempts : Nat)
    (updater : Ambient → GameEngineState → Except ServiceError (GameEngineState × ρ)) :
    Task τ (GameEngineState × Option ρ) :=
  updateLoop json updater maxAttempts none

end GameStateService

namespace GameSnapshotService

/-- `GAME_SNAPSHOTS.everyNTurns` -/
def everyNTurns : Nat := 1

def createSnapshot (snapshotType : GameSnapshotType) (state : GameEngineState) : Task τ Unit :=
  query (.createSnapshot snapshotType state) id

def createSnapshotAfterCommand (state : GameEngineState) : Task τ Unit :=
  if state.phase = .finished ∨ state.phase = .cancelled then createSnapshot .final state
  else if state.turnNumber % everyNTurns ≠ 0 then return ()
  else createSnapshot .turn state

def restoreLatestSnapshot (json : StateCodec τ) : Task τ (Option GameEngineState) := do
  match ← query .findLatestByGameId id with
  | none => return none
  | some state =>
    GameStateService.set json state
    return some state

end GameSnapshotService

namespace GameRecoveryService

def getOrRecover (json : StateCodec τ) : Task τ GameEngineState :=
  tryCatch (GameStateService.get json) fun error =>
    if error ≠ .notFound then throw error
    else do
      match ← GameSnapshotService.restoreLatestSnapshot json with
      | none => throw error
      | some recoveredState => return recoveredState

def recoverOrThrow (json : StateCodec τ) : Task τ GameEngineState := do
  match ← GameSnapshotService.restoreLatestSnapshot json with
  | none => throw .notFound
  | some recoveredState => return recoveredState

end GameRecoveryService

end Service
end LivePoly
