import LivePoly.Engine.Trades

/-!
# Engine.Bankruptcy

Net worth (`game-engine-derived-state.ts`), the end of the game (`game-engine-finish.ts`),
bankruptcy (`game-engine-bankruptcy.ts`), and debts paid by the player (`game-engine-debt.ts`) or
by the timer, which sells and mortgages until the cash suffices (`game-engine-auto-debt.ts`).
-/

namespace LivePoly
namespace Engine

open Checked

/-! ## Net worth -/

def getOwnedProperties (state : GameEngineState) (roomPlayerId : RoomPlayerId) :
    Checked (List GameEngineProperty) := do
  let _ ← findPlayer state roomPlayerId
  return state.properties.filter fun property => property.ownerRoomPlayerId = some roomPlayerId

def getAssetTileByKey (board : GameBoard) (tileKey : TileKey) : Checked OwnableTile :=
  orThrow ((board.tile? tileKey).bind GameTile.ownable?)
    (.gameEngineError .tileNotOwnable "Tile is not an asset")

def calculateAssetNetWorth (tile : OwnableTile) (property : GameEngineProperty) : Int :=
  let mortgagePenalty := if property.mortgaged then tile.mortgageValue else 0
  tile.price + buildingValue tile property - mortgagePenalty

def calculatePlayerNetWorth (state : GameEngineState) (player : GameEnginePlayer) :
    Checked PlayerNetWorth := do
  let ownedProperties ← getOwnedProperties state player.roomPlayerId
  let assetValue ← ownedProperties.foldlM (fun total property => do
      let tile ← getAssetTileByKey state.board property.tileKey
      return total + calculateAssetNetWorth tile property)
    (0 : Int)
  return {
    roomPlayerId := player.roomPlayerId
    seatNumber := player.seatNumber
    cash := player.cash
    ownedPropertyCount := ownedProperties.length
    assetValue
    netWorth := player.cash + assetValue }

/-- The comparator of the standings puts `left` no later than `right`. -/
def standsBefore (left right : PlayerNetWorth) : Bool :=
  if right.netWorth ≠ left.netWorth then right.netWorth ≤ left.netWorth
  else if right.cash ≠ left.cash then right.cash ≤ left.cash
  else if right.ownedPropertyCount ≠ left.ownedPropertyCount then
    right.ownedPropertyCount ≤ left.ownedPropertyCount
  else left.seatNumber ≤ right.seatNumber

def calculateNetWorthStandings (state : GameEngineState) : Checked (List PlayerNetWorth) := do
  let netWorths ← (getActivePlayers state).mapM (calculatePlayerNetWorth state)
  return netWorths.insertionSort fun left right => standsBefore left right

def getNetWorthWinner (standings : List PlayerNetWorth) : Option PlayerNetWorth :=
  standings.head?

def getNetWorthWinners (standings : List PlayerNetWorth) : List PlayerNetWorth :=
  match standings.head? with
  | none => []
  | some first => standings.filter fun standing => standing.netWorth = first.netWorth

/-! ## Finishing the game -/

/-- The state both finishing intents and a last bankruptcy leave. -/
def finishedState (state : GameEngineState) : GameEngineState :=
  { state with
    phase := .finished
    shouldCurrentPlayerPlayAgain := false
    consecutiveDoublesCount := 0
    auction := none
    pendingTileKey := none
    tradeOffer := none
    debt := none }

/-- `!Number.isInteger(finishedAt) || finishedAt <= 0` -/
def assertFinishTime (finishedAt : JsNumber) : Checked Int :=
  orThrow (integerAtLeast 1 finishedAt)
    (.gameEngineError .invalidFinishTime "Finish time must be a positive timestamp")

def assertCanFinishByTime (state : GameEngineState) (finishedAt : JsNumber) : Checked Int := do
  assertGameActive state
  let finishedAt ← assertFinishTime finishedAt
  rejectIf (state.expiresAt.any fun expiresAt => expiresAt ≠ 0 && finishedAt < (expiresAt : Int))
    .gameTimeNotExpired "Game time has not elapsed"
  return finishedAt

def assertCanFinishAfterLastHumanLeft (state : GameEngineState) (finishedAt : JsNumber) :
    Checked Int := do
  assertGameActive state
  assertFinishTime finishedAt

/-- What `finishGameByTime` and `finishGameAfterLastHumanLeft` do once their guards passed. -/
def finishGame (state : GameEngineState)
    (event : Option RoomPlayerId → List RoomPlayerId → List PlayerNetWorth → GameEngineEvent) :
    Checked GameEngineResult := do
  let standings ← calculateNetWorthStandings state
  return {
    state := finishedState state
    events := [event ((getNetWorthWinner standings).map PlayerNetWorth.roomPlayerId)
      ((getNetWorthWinners standings).map PlayerNetWorth.roomPlayerId) standings] }

def finishGameByTime (state : GameEngineState) (finishedAt : JsNumber) :
    Checked GameEngineResult := do
  let finishedAt ← assertCanFinishByTime state finishedAt
  finishGame state (.gameFinishedByTime finishedAt)

def finishGameAfterLastHumanLeft (state : GameEngineState) (finishedAt : JsNumber) :
    Checked GameEngineResult := do
  let finishedAt ← assertCanFinishAfterLastHumanLeft state finishedAt
  finishGame state (.gameFinishedAfterLastHumanLeft finishedAt)

/-! ## Bankruptcy -/

def assertValidCreditor (state : GameEngineState) (roomPlayerId creditorRoomPlayerId : RoomPlayerId) :
    Checked Unit := do
  let creditor ← findPlayer state creditorRoomPlayerId
  rejectIf creditor.bankrupt .invalidBankruptcyCreditor "Bankruptcy creditor is not active"
  rejectIf (creditor.roomPlayerId = roomPlayerId) .invalidBankruptcyCreditor
    "Player cannot owe bankruptcy to self"

def liquidateProperty (roomPlayerId : RoomPlayerId) (creditorRoomPlayerId : Option RoomPlayerId)
    (property : GameEngineProperty) : GameEngineProperty :=
  if property.ownerRoomPlayerId ≠ some roomPlayerId then property
  else
    { property with
      ownerRoomPlayerId := creditorRoomPlayerId
      houseCount := 0
      hasHotel := false
      mortgaged := false }

/-- The cards a bankrupt player gives back. -/
def heldCardKeys (player : GameEnginePlayer) : List CardKey :=
  if player.getOutOfJailFreeCardKeys.length ≠ 0 then player.getOutOfJailFreeCardKeys
  else List.replicate player.getOutOfJailFreeCards .chanceGetOutOfJailFree

/-- What bankruptcy leaves of a player. -/
def GameEnginePlayer.liquidated (player : GameEnginePlayer) : GameEnginePlayer :=
  { player with
    cash := 0
    inJail := false
    jailTurnCount := 0
    getOutOfJailFreeCards := 0
    getOutOfJailFreeCardKeys := []
    bankrupt := true }

def liquidatePlayerAssets (state : GameEngineState) (roomPlayerId : RoomPlayerId)
    (creditorRoomPlayerId : Option RoomPlayerId) : Checked GameEngineState := do
  let bankruptPlayer ← findPlayer state roomPlayerId
  let stateWithReturnedCards ← (heldCardKeys bankruptPlayer).foldlM
    (fun currentState cardKey => returnGetOutOfJailCardToDeck currentState (some cardKey)) state
  return { stateWithReturnedCards.updatePlayer roomPlayerId GameEnginePlayer.liquidated with
    properties := stateWithReturnedCards.properties.map
      (liquidateProperty roomPlayerId creditorRoomPlayerId)
    debt := stateWithReturnedCards.debt.filter fun debt => debt.roomPlayerId ≠ roomPlayerId }

def hasNoActiveHumanPlayers (players : List GameEnginePlayer) : Bool :=
  !players.any fun player => player.playerType = .human

/-- The next player in seat order; no player at all reads as `undefined`. -/
def findNextActivePlayerAfterBankruptcy (state : GameEngineState)
    (bankruptPlayer : GameEnginePlayer) : Checked GameEnginePlayer :=
  let activePlayers := getActivePlayers state
  let nextPlayer := activePlayers.find? fun player =>
    bankruptPlayer.seatNumber < player.seatNumber
  orThrow (nextPlayer.or activePlayers.head?) .typeError

def declareBankruptcy (state : GameEngineState) (roomPlayerId : RoomPlayerId)
    (creditorRoomPlayerId : Option RoomPlayerId) : Checked GameEngineResult := do
  assertGameActive state
  let bankruptPlayer ← findPlayer state roomPlayerId
  rejectIf bankruptPlayer.bankrupt .playerAlreadyBankrupt "Player is already bankrupt"
  let creditorRoomPlayerId := creditorRoomPlayerId.or
    ((state.debt.filter fun debt => debt.roomPlayerId = roomPlayerId).bind
      GameEngineDebt.creditorRoomPlayerId)
  creditorRoomPlayerId.forM (assertValidCreditor state roomPlayerId)
  let liquidatedState ← liquidatePlayerAssets state roomPlayerId creditorRoomPlayerId
  let activePlayersAfterBankruptcy := getActivePlayers liquidatedState
  if activePlayersAfterBankruptcy.length ≤ 1 ∨
      hasNoActiveHumanPlayers activePlayersAfterBankruptcy then
    let standings ← calculateNetWorthStandings liquidatedState
    let winners := (getNetWorthWinners standings).map PlayerNetWorth.roomPlayerId
    return {
      state := { finishedState liquidatedState with
        currentTurnRoomPlayerId :=
          (activePlayersAfterBankruptcy.head?.map GameEnginePlayer.roomPlayerId).getD
            liquidatedState.currentTurnRoomPlayerId }
      events := [.playerBankrupt roomPlayerId creditorRoomPlayerId,
        .gameFinishedByBankruptcy (if winners.length = 1 then winners.head? else none) winners
          standings] }
  else if state.currentTurnRoomPlayerId ≠ roomPlayerId then
    return {
      state := liquidatedState
      events := [.playerBankrupt roomPlayerId creditorRoomPlayerId] }
  else
    let nextPlayer ← findNextActivePlayerAfterBankruptcy liquidatedState bankruptPlayer
    let nextTurnNumber := liquidatedState.turnNumber + 1
    return {
      state := { liquidatedState with
        phase := .awaitingRoll
        currentTurnRoomPlayerId := nextPlayer.roomPlayerId
        turnNumber := nextTurnNumber
        shouldCurrentPlayerPlayAgain := false
        consecutiveDoublesCount := 0
        lastDiceRoll := none
        auction := none
        pendingTileKey := none }
      events := [.playerBankrupt roomPlayerId creditorRoomPlayerId,
        .turnEnded roomPlayerId nextPlayer.roomPlayerId nextTurnNumber] }

/-! ## Debts -/

/-- The debt of a pending debt resolution. -/
def pendingDebt (state : GameEngineState) : Option GameEngineDebt :=
  if state.phase = .awaitingDebtResolution then state.debt else none

def payDebt (state : GameEngineState) (roomPlayerId : RoomPlayerId) :
    Checked GameEngineResult := do
  let debt ← orThrow (pendingDebt state)
    (.gameEngineError .noActiveDebt "There is no active debt")
  rejectIf (debt.roomPlayerId ≠ roomPlayerId) .debtResolutionRequired
    "Only the indebted player can resolve this debt"
  let paidState ←
    (match debt.creditorRoomPlayerId with
    | some creditor => transferPlayerCash state roomPlayerId creditor debt.amount
    | none => debitPlayer state roomPlayerId debt.amount)
  let releasedFromJail := debt.reason = .jailFine
  let nextState :=
    if releasedFromJail then releasePlayerFromJail paidState roomPlayerId else paidState
  return {
    state := { nextState with
      phase := .awaitingTurnEnd
      debt := none
      pendingTileKey := none
      auction := none
      shouldCurrentPlayerPlayAgain := false }
    events :=
      [.debtPaid roomPlayerId debt.creditorRoomPlayerId debt.amount debt.reason] ++
        (if releasedFromJail then [.playerReleasedFromJail roomPlayerId] else []) }

/-- `findPlayer` of the auto-debt module. -/
def findDebtPlayer : GameEngineState → RoomPlayerId → Checked GameEnginePlayer :=
  findPlayerOr "Player does not exist"

def canPayDebt (state : GameEngineState) (roomPlayerId : RoomPlayerId) : Checked Bool := do
  let player ← findDebtPlayer state roomPlayerId
  return state.debt.any fun debt => debt.amount ≤ player.cash

/-- The comparator of `findBuildingToSell`: hotels first, then the higher house count. -/
def sellsBefore (left right : GameEngineProperty) : Bool :=
  if left.hasHotel ≠ right.hasHotel then left.hasHotel else right.houseCount ≤ left.houseCount

def findBuildingToSell (state : GameEngineState) (roomPlayerId : RoomPlayerId) :
    Option GameEngineProperty :=
  ((state.properties.filter fun property =>
      property.ownerRoomPlayerId = some roomPlayerId ∧
        (property.hasHotel ∨ 0 < property.houseCount)).insertionSort
    fun left right => sellsBefore left right).head?

def canMortgageTile (state : GameEngineState) : GameTile → Bool
  | .airport _ | .utility _ => true
  | .property tile =>
    let setTileKeys := (state.board.setTiles tile.setKey).map fun setTile => setTile.key
    (state.properties.filter fun property => property.tileKey ∈ setTileKeys).all fun property =>
      !property.hasHotel && property.houseCount = 0
  | _ => false

def findPropertyToMortgage (state : GameEngineState) (roomPlayerId : RoomPlayerId) :
    Option GameEngineProperty :=
  state.properties.find? fun property =>
    if property.ownerRoomPlayerId ≠ some roomPlayerId ∨ property.mortgaged ∨
        property.hasHotel ∨ 0 < property.houseCount then false
    else (state.board.tile? property.tileKey).any (canMortgageTile state)

/-- The loop of `autoResolveDebt`, of at most `rounds` rounds. -/
def raiseCash (roomPlayerId : RoomPlayerId) :
    Nat → GameEngineResult → Checked GameEngineResult
  | 0, _ => .error .stillLooping
  | rounds + 1, result => do
    if ← canPayDebt result.state roomPlayerId then
      return result
    else
      match findBuildingToSell result.state roomPlayerId with
      | some building =>
        let sold ← sellBuilding result.state roomPlayerId building.tileKey
        raiseCash roomPlayerId rounds
          { state := sold.state, events := result.events ++ sold.events }
      | none =>
        match findPropertyToMortgage result.state roomPlayerId with
        | some mortgageable =>
          let mortgaged ← mortgageProperty result.state roomPlayerId mortgageable.tileKey
          raiseCash roomPlayerId rounds
            { state := mortgaged.state, events := result.events ++ mortgaged.events }
        | none => return result

/-- More rounds than there are buildings to sell and tiles to mortgage. -/
def raiseCashRounds (state : GameEngineState) : Nat :=
  (state.properties.map fun property =>
    property.level.toNat + (if property.mortgaged then 0 else 1)).sum + 1

def autoResolveDebt (state : GameEngineState) (roomPlayerId : RoomPlayerId) :
    Checked GameEngineResult := do
  rejectIf ((pendingDebt state).map GameEngineDebt.roomPlayerId ≠ some roomPlayerId)
    .debtResolutionRequired "Only the indebted player can automatically resolve this debt"
  let raised ← raiseCash roomPlayerId (raiseCashRounds state) { state, events := [] }
  let canPay ← canPayDebt raised.state roomPlayerId
  let result ←
    (if canPay then payDebt raised.state roomPlayerId
    else
      declareBankruptcy raised.state roomPlayerId
        (raised.state.debt.bind GameEngineDebt.creditorRoomPlayerId))
  return { state := result.state, events := raised.events ++ result.events }

end Engine
end LivePoly
