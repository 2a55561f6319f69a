import LivePoly.Engine.State

/-!
# Engine.Money

`game-engine-assertions.ts` and `game-engine-money.ts`: the guards several intents share, and the
operations that move cash. A charge the player cannot pay becomes a debt (`createDebtState`).
-/

namespace LivePoly
namespace Engine

open Checked

def throwGame {α : Type} (code : GameEngineErrorCode) (message : String) : Checked α :=
  .error (.gameEngineError code message)

/-- `if (bad) throw new GameEngineError(code, message)` -/
def rejectIf (bad : Prop) [Decidable bad] (code : GameEngineErrorCode) (message : String) :
    Checked Unit :=
  throwIf bad (.gameEngineError code message)

/-! ## Assertions -/

def assertGameActive (state : GameEngineState) : Checked Unit :=
  rejectIf (state.phase = .finished ∨ state.phase = .cancelled) .gameNotActive
    "Game is not active"

def assertNoDebtResolution (state : GameEngineState) : Checked Unit :=
  rejectIf (state.phase = .awaitingDebtResolution ∨ state.debt.isSome) .debtResolutionRequired
    "Player must resolve debt before continuing"

def assertCanRoll (state : GameEngineState) : Checked Unit := do
  assertGameActive state
  assertNoDebtResolution state
  rejectIf (state.phase ≠ .awaitingFirstTurn ∧ state.phase ≠ .awaitingRoll) .rollNotAllowed
    "Player cannot roll at this point in the turn"

def assertCanBuyProperty (state : GameEngineState) : Checked Unit := do
  assertGameActive state
  assertNoDebtResolution state
  rejectIf (state.phase ≠ .awaitingPropertyDecision) .buyNotAllowed
    "Player cannot buy property at this point in the turn"

def assertCanEndTurn (state : GameEngineState) : Checked Unit := do
  assertGameActive state
  assertNoDebtResolution state
  rejectIf (state.phase ≠ .awaitingTurnEnd) .turnEndNotAllowed
    "Player cannot end turn before completing an action"

/-- `players.find`, or the error `PLAYER_NOT_FOUND`. -/
def findPlayerOr (message : String) (state : GameEngineState) (roomPlayerId : RoomPlayerId) :
    Checked GameEnginePlayer :=
  orThrow (state.player? roomPlayerId) (.gameEngineError .playerNotFound message)

/-- `findPlayer` of the money and bankruptcy modules, `getPlayerByRoomPlayerId`, and the inline
lookups of the jail module. -/
def findPlayer : GameEngineState → RoomPlayerId → Checked GameEnginePlayer :=
  findPlayerOr "Player is not in game"

def assertCurrentTurn (state : GameEngineState) (roomPlayerId : RoomPlayerId) : Checked Unit := do
  let player ← findPlayer state roomPlayerId
  rejectIf player.bankrupt .playerNotFound "Player is no longer active"
  rejectIf (state.currentTurnRoomPlayerId ≠ roomPlayerId) .notCurrentTurn
    "It is not this player’s turn"

/-- A die shows an integer between 1 and 6. -/
def dieValue : JsNumber → Option Nat
  | .int value => if 1 ≤ value ∧ value ≤ 6 then some value.toNat else none
  | .notInteger => none

/-- `assertValidDice`, returning the dice at their narrowed type. -/
def assertValidDice (dice : List JsNumber) : Checked DiceRoll :=
  match dice.map dieValue with
  | [some first, some second] => .ok (first, second)
  | _ => throwGame .invalidDice "Dice roll must contain two values between 1 and 6"

/-! ## Moving cash -/

def debitPlayer (state : GameEngineState) (roomPlayerId : RoomPlayerId) (amount : Int) :
    Checked GameEngineState := do
  throwIf (amount < 0) (.error "Debit amount cannot be negative")
  let player ← findPlayer state roomPlayerId
  rejectIf (player.cash < amount) .insufficientFunds "Player does not have enough cash"
  return state.updatePlayer roomPlayerId fun candidate =>
    { candidate with cash := candidate.cash - amount }

def creditPlayer (state : GameEngineState) (roomPlayerId : RoomPlayerId) (amount : Int) :
    Checked GameEngineState := do
  throwIf (amount < 0) (.error "Credit amount cannot be negative")
  let _ ← findPlayer state roomPlayerId
  return state.updatePlayer roomPlayerId fun candidate =>
    { candidate with cash := candidate.cash + amount }

def transferPlayerCash (state : GameEngineState) (fromRoomPlayerId toRoomPlayerId : RoomPlayerId)
    (amount : Int) : Checked GameEngineState := do
  let debitedState ← debitPlayer state fromRoomPlayerId amount
  creditPlayer debitedState toRoomPlayerId amount

def createDebtState (state : GameEngineState) (debt : GameEngineDebt) : GameEngineState :=
  { state with
    phase := .awaitingDebtResolution
    pendingTileKey := none
    auction := none
    debt := some debt
    shouldCurrentPlayerPlayAgain := false }

structure PaymentResult where
  state : GameEngineState
  events : List GameEngineEvent
  paid : Bool

def debitPlayerOrCreateDebt (state : GameEngineState) (debt : GameEngineDebt) :
    Checked PaymentResult := do
  let player ← findPlayer state debt.roomPlayerId
  throwIf (debt.amount < 0) (.error "Debit amount cannot be negative")
  if debt.amount ≤ player.cash then
    let debitedState ← debitPlayer state debt.roomPlayerId debt.amount
    return { state := debitedState, events := [], paid := true }
  else
    return {
      state := createDebtState state debt
      events := [.paymentRequired debt.roomPlayerId debt.creditorRoomPlayerId debt.amount
        debt.reason]
      paid := false }

def transferPlayerCashOrCreateDebt (state : GameEngineState)
    (fromRoomPlayerId toRoomPlayerId : RoomPlayerId) (amount : Int)
    (reason : GameEngineDebtReason) : Checked PaymentResult := do
  let debtor ← findPlayer state fromRoomPlayerId
  let _ ← findPlayer state toRoomPlayerId
  if amount ≤ debtor.cash then
    let paidState ← transferPlayerCash state fromRoomPlayerId toRoomPlayerId amount
    return { state := paidState, events := [], paid := true }
  else
    return {
      state := createDebtState state
        { roomPlayerId := fromRoomPlayerId, creditorRoomPlayerId := some toRoomPlayerId, amount,
          reason }
      events := [.paymentRequired fromRoomPlayerId (some toRoomPlayerId) amount reason]
      paid := false }

/-- `findPropertyState`, with the message of the module it stands in. -/
def findPropertyStateOr (message : String) (state : GameEngineState) (tileKey : TileKey) :
    Checked GameEngineProperty :=
  orThrow (state.property? tileKey) (.gameEngineError .tileNotOwnable message)

def findPropertyState : GameEngineState → TileKey → Checked GameEngineProperty :=
  findPropertyStateOr "Tile is not ownable"

end Engine
end LivePoly
