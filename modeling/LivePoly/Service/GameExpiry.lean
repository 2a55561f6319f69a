import LivePoly.Service.Jobs

/-!
# Service.GameExpiry

The job of `GameProcessor` that finishes a game when its time is over. Publishing its result is left
out, as with the other jobs.
-/

namespace LivePoly
namespace Service

open Engine Process Process.Proc

variable {τ : Type}

namespace GameProcessor

def isGameNotActive : ServiceError → Bool
  | .engine (.gameEngineError .gameNotActive _) => true
  | _ => false

/-- The job that finishes a game when its time is over. -/
def processFinishExpiredGame (json : StateCodec τ) (expiresAt : Nat) : Task τ Unit := do
  let state ← GameRecoveryService.getOrRecover json
  if state.phase = .finished then query (.finalizeFinishedGame state []) id
  else if state.phase = .cancelled then return ()
  else
    let ambient ← readAmbient
    if ambient.now < state.expiresAt.getD expiresAt then
      throw (.engine (.error "Game expiry job ran before the game expired"))
    else
      tryCatch
        (do
          let _ ← GameCommandsService.executeIntent json
            { roomPlayerId := none, source := some .timer
              intent := .finishGameByTime (.int ambient.now) }
          return ())
        fun error =>
          if isGameNotActive error = true then do
            let repairedState ← GameRecoveryService.getOrRecover json
            if repairedState.phase = .finished then
              query (.finalizeFinishedGame repairedState []) id
          else throw error

end GameProcessor

end Service
end LivePoly
