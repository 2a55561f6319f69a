import Mathlib.Data.List.Sort
import LivePoly.Engine.Cards

/-!
# Engine.Movement

Rolling the dice and everything a roll can lead to: `game-engine-dice.ts`, `game-engine-jail.ts`,
`game-engine-rent.ts`, `game-engine-tax.ts`, the card effects of `game-engine-cards.ts` and
`game-engine-movement.ts`. A card that moves the player resolves the tile it reaches by itself
(`movePlayerToCardTile`); it never draws a second card.
-/

namespace LivePoly
namespace Engine

open Checked

/-! ## The board -/

/-- Reading an array at any integer index; `none` is `undefined`. -/
def jsIndex {α : Type} (values : List α) (index : Int) : Option α :=
  if 0 ≤ index then values[index.toNat]? else none

def getTile (board : GameBoard) (position : Int) : Checked GameTile :=
  orThrow (jsIndex board.tiles position) (.error s!"Unknown board position: {position}")

/-! ## Dice -/

def isDoubles (dice : DiceRoll) : Bool := dice.1 = dice.2

def applyDoublesState (state : GameEngineState) (dice : DiceRoll) : GameEngineState :=
  if isDoubles dice then
    { state with
      consecutiveDoublesCount := state.consecutiveDoublesCount + 1
      shouldCurrentPlayerPlayAgain := state.consecutiveDoublesCount + 1 < 3 }
  else
    { state with consecutiveDoublesCount := 0, shouldCurrentPlayerPlayAgain := false }

def isThirdConsecutiveDoubles (state : GameEngineState) (dice : DiceRoll) : Bool :=
  isDoubles dice && 3 ≤ state.consecutiveDoublesCount + 1

/-! ## Jail -/

def jailFineAmount : Int := 50

def maxJailTurnCount : Nat := 3

def sendPlayerToJail (state : GameEngineState) (roomPlayerId : RoomPlayerId) :
    GameEngineResult where
  state :=
    { state with
      phase := .awaitingTurnEnd
      pendingTileKey := none
      consecutiveDoublesCount := 0
      shouldCurrentPlayerPlayAgain := false }.updatePlayer roomPlayerId fun player =>
        { player with position := state.board.jailPosition, inJail := true, jailTurnCount := 0 }
  events := [.playerSentToJail roomPlayerId state.board.jailPosition]

def releasePlayerFromJail (state : GameEngineState) (roomPlayerId : RoomPlayerId) :
    GameEngineState :=
  state.updatePlayer roomPlayerId fun candidate =>
    { candidate with inJail := false, jailTurnCount := 0 }

/-- `players.map` that writes `jailTurnCount` of one player. -/
def setJailTurnCount (state : GameEngineState) (roomPlayerId : RoomPlayerId)
    (jailTurnCount : Nat) : GameEngineState :=
  state.updatePlayer roomPlayerId fun candidate => { candidate with jailTurnCount }

/-- `{ ...state, consecutiveDoublesCount: 0, shouldCurrentPlayerPlayAgain: false }` -/
def clearDoubles (state : GameEngineState) : GameEngineState :=
  { state with consecutiveDoublesCount := 0, shouldCurrentPlayerPlayAgain := false }

def resolveJailedRoll (state : GameEngineState) (roomPlayerId : RoomPlayerId) (dice : DiceRoll)
    (moveReleasedPlayer : GameEngineState → Checked GameEngineResult) :
    Checked (Option GameEngineResult) := do
  let player ← findPlayer state roomPlayerId
  if !player.inJail then
    return none
  else if isDoubles dice then
    let moveResult ← moveReleasedPlayer (clearDoubles (releasePlayerFromJail state roomPlayerId))
    return some {
      state := clearDoubles moveResult.state
      events := [.jailEscapeRollSucceeded roomPlayerId dice,
        .playerReleasedFromJail roomPlayerId] ++ moveResult.events }
  else
    let jailTurnCount := player.jailTurnCount + 1
    if maxJailTurnCount ≤ jailTurnCount then
      let paymentResult ← debitPlayerOrCreateDebt state
        { roomPlayerId, creditorRoomPlayerId := none, amount := jailFineAmount,
          reason := .jailFine }
      if !paymentResult.paid then
        return some {
          state := setJailTurnCount { paymentResult.state with lastDiceRoll := some dice }
            roomPlayerId jailTurnCount
          events := [.jailEscapeRollFailed roomPlayerId dice jailTurnCount] ++
            paymentResult.events }
      else
        let releasedState := releasePlayerFromJail
          (setJailTurnCount paymentResult.state roomPlayerId jailTurnCount) roomPlayerId
        let moveResult ← moveReleasedPlayer releasedState
        return some {
          state := clearDoubles moveResult.state
          events := [.jailEscapeRollFailed roomPlayerId dice jailTurnCount,
            .jailForcedFinePaid roomPlayerId jailFineAmount,
            .playerReleasedFromJail roomPlayerId] ++ moveResult.events }
    else
      return some {
        state := setJailTurnCount
          { state with
            phase := .awaitingTurnEnd
            lastDiceRoll := some dice
            consecutiveDoublesCount := 0
            shouldCurrentPlayerPlayAgain := false } roomPlayerId jailTurnCount
        events := [.jailEscapeRollFailed roomPlayerId dice jailTurnCount] }

def payJailFine (state : GameEngineState) (roomPlayerId : RoomPlayerId) :
    Checked GameEngineResult := do
  let player ← findPlayer state roomPlayerId
  rejectIf (!player.inJail) .playerNotInJail "Player is not currently in jail"
  let debitedState ← debitPlayer state roomPlayerId jailFineAmount
  return {
    state := releasePlayerFromJail debitedState roomPlayerId
    events := [.jailFinePaid roomPlayerId jailFineAmount, .playerReleasedFromJail roomPlayerId] }

def useGetOutOfJailCard (state : GameEngineState) (roomPlayerId : RoomPlayerId) :
    Checked GameEngineResult := do
  let player ← findPlayer state roomPlayerId
  rejectIf (!player.inJail) .playerNotInJail "Player is not currently in jail"
  rejectIf (player.getOutOfJailFreeCards ≤ 0) .getOutOfJailCardRequired
    "Player does not have a Get Out of Jail Free card"
  let cardKey := player.getOutOfJailFreeCardKeys.head?
  let remainingCardKeys := player.getOutOfJailFreeCardKeys.tail
  let returnedState ← returnGetOutOfJailCardToDeck state cardKey
  return {
    state := releasePlayerFromJail
      (returnedState.updatePlayer roomPlayerId fun candidate =>
        { candidate with
          getOutOfJailFreeCards := candidate.getOutOfJailFreeCards - 1
          getOutOfJailFreeCardKeys := remainingCardKeys }) roomPlayerId
    events := [.getOutOfJailCardUsed roomPlayerId, .playerReleasedFromJail roomPlayerId] }

/-! ## Rent and tax -/

def ownsFullPropertySet (state : GameEngineState) (tile : PropertyTile) : Bool :=
  match (state.property? tile.key).bind GameEngineProperty.ownerRoomPlayerId with
  | none => false
  | some owner =>
    (state.board.setTiles tile.setKey).all fun setTile =>
      (state.property? setTile.key).bind GameEngineProperty.ownerRoomPlayerId = some owner

def countOwnedTilesByKind (state : GameEngineState) (kind : GameTileKind)
    (currentTileKey : TileKey) : Nat :=
  match (state.property? currentTileKey).bind GameEngineProperty.ownerRoomPlayerId with
  | none => 0
  | some owner =>
    ((state.board.tiles.filter fun tile => tile.kind = kind).filter fun tile =>
      (state.property? tile.key).bind GameEngineProperty.ownerRoomPlayerId = some owner).length

/-- The rent; `none` is the `undefined` of reading a rent table out of range. -/
def calculateRent (state : GameEngineState) (tile : OwnableTile) (dice : DiceRoll) :
    Checked (Option Int) :=
  match tile with
  | .property tile => do
    let property ← findPropertyStateOr "Tile cannot charge rent" state tile.key
    if property.hasHotel then
      return some tile.hotelRent
    else if 0 < property.houseCount then
      return jsIndex tile.rentByHouseCount (property.houseCount - 1)
    else if ownsFullPropertySet state tile then
      return some (tile.baseRent * 2)
    else
      return some tile.baseRent
  | .airport tile =>
    let ownedCount := countOwnedTilesByKind state .airport tile.key
    .ok ((jsIndex tile.rentByOwnedCount (ownedCount - 1)).or (jsIndex tile.rentByOwnedCount 0))
  | .utility tile =>
    let ownedCount := countOwnedTilesByKind state .utility tile.key
    let multiplier := (jsIndex tile.rentMultiplierByOwnedCount (ownedCount - 1)).or
      (jsIndex tile.rentMultiplierByOwnedCount 0)
    .ok (multiplier.map fun multiplier => ((dice.1 + dice.2 : Nat) : Int) * multiplier)

/-- A rent of `undefined` has no counterpart among the integers and stops the model; it never
occurs (`calculateRent_pos`). -/
def payRent (state : GameEngineState) (payerRoomPlayerId : RoomPlayerId) (tileKey : TileKey)
    (dice : DiceRoll) : Checked GameEngineResult :=
  let unchanged : GameEngineResult := { state, events := [] }
  match state.property? tileKey with
  | none => .ok unchanged
  | some property =>
    match property.ownerRoomPlayerId with
    | none => .ok unchanged
    | some owner =>
      if owner = payerRoomPlayerId ∨ property.mortgaged then .ok unchanged
      else
        match (state.board.tile? tileKey).bind GameTile.ownable? with
        | none => .ok unchanged
        | some tile => do
          let amount ← orThrow (← calculateRent state tile dice) .typeError
          let paymentResult ←
            transferPlayerCashOrCreateDebt state payerRoomPlayerId owner amount .rent
          return {
            state := paymentResult.state
            events :=
              if paymentResult.paid then [.rentPaid payerRoomPlayerId owner tileKey amount]
              else paymentResult.events }

def getTaxTile (state : GameEngineState) (tileKey : TileKey) : Checked TaxTile :=
  match state.board.tile? tileKey with
  | some (.tax tile) => .ok tile
  | _ => throwGame .tileNotOwnable "Tile is not tax"

def payTax (state : GameEngineState) (roomPlayerId : RoomPlayerId) (tileKey : TileKey) :
    Checked GameEngineResult := do
  let tile ← getTaxTile state tileKey
  let paymentResult ← debitPlayerOrCreateDebt state
    { roomPlayerId, creditorRoomPlayerId := none, amount := tile.amount, reason := .tax }
  return {
    state := paymentResult.state
    events :=
      if paymentResult.paid then [.taxPaid roomPlayerId tile.key tile.amount]
      else paymentResult.events }

/-! ## Card effects -/

/-- The other players still in the game, in list order. -/
def otherActivePlayers (state : GameEngineState) (roomPlayerId : RoomPlayerId) :
    List GameEnginePlayer :=
  state.players.filter fun player => player.roomPlayerId ≠ roomPlayerId ∧ !player.bankrupt

def collectFromEachPlayer (state : GameEngineState) (roomPlayerId : RoomPlayerId)
    (amount : Int) : Checked GameEngineResult := do
  let _ ← findPlayer state roomPlayerId
  let nextState ← (otherActivePlayers state roomPlayerId).foldlM
    (fun currentState player =>
      transferPlayerCash currentState player.roomPlayerId roomPlayerId (min player.cash amount))
    state
  return { state := nextState, events := [] }

/-- A charge of a card: paid at once, or left as a debt to the bank. -/
def payCardCharge (state : GameEngineState) (roomPlayerId : RoomPlayerId) (amount : Int) :
    Checked GameEngineResult := do
  let paymentResult ← debitPlayerOrCreateDebt state
    { roomPlayerId, creditorRoomPlayerId := none, amount, reason := .card }
  return { state := paymentResult.state, events := paymentResult.events }

def payEachPlayer (state : GameEngineState) (roomPlayerId : RoomPlayerId) (amount : Int) :
    Checked GameEngineResult := do
  let payingPlayer ← findPlayer state roomPlayerId
  let otherPlayers := otherActivePlayers state roomPlayerId
  let totalAmount := otherPlayers.length * amount
  if payingPlayer.cash < totalAmount then
    payCardCharge state roomPlayerId totalAmount
  else
    let nextState ← otherPlayers.foldlM
      (fun currentState player =>
        transferPlayerCash currentState roomPlayerId player.roomPlayerId amount)
      state
    return { state := nextState, events := [] }

/-- What a repairs card charges a player. -/
def repairsAmount (properties : List GameEngineProperty) (roomPlayerId : RoomPlayerId)
    (houseAmount hotelAmount : Int) : Int :=
  (properties.filter fun property => property.ownerRoomPlayerId = some roomPlayerId).foldl
    (fun total property =>
      if property.hasHotel then total + hotelAmount
      else total + property.houseCount * houseAmount) 0

def payPropertyRepairs (state : GameEngineState) (roomPlayerId : RoomPlayerId)
    (houseAmount hotelAmount : Int) : Checked GameEngineResult :=
  let amount := repairsAmount state.properties roomPlayerId houseAmount hotelAmount
  if amount = 0 then .ok { state, events := [] }
  else payCardCharge state roomPlayerId amount

/-- Steps forward from `position` to the tile, modulo the board (a remainder as the source's
language takes it). -/
def forwardDistance (board : GameBoard) (position : Nat) (tile : GameTile) : Int :=
  Int.tmod ((tile.index : Int) - position + board.tiles.length) board.tiles.length

def getCardMoveTargetTile (state : GameEngineState) (roomPlayerId : RoomPlayerId)
    (effect : GameCardEffect) : Checked (Option GameTile) := do
  let player ← findPlayer state roomPlayerId
  match effect with
  | .moveToTile tileKey _ => return state.board.tile? tileKey
  | .moveRelative spaces =>
    let targetIndex :=
      Int.tmod ((player.position : Int) + spaces + state.board.tiles.length)
        state.board.tiles.length
    return some (← getTile state.board targetIndex)
  | .moveToNearest tileKind _ =>
    return ((state.board.tiles.filter fun tile => tile.kind = tileKind).insertionSort
      fun left right =>
        forwardDistance state.board player.position left ≤
          forwardDistance state.board player.position right).head?
  | _ => return none

/-- `Boolean(effect.collectPassGo)` -/
def collectsPassGo : GameCardEffect → Bool
  | .moveToTile _ collectPassGo => collectPassGo
  | .moveToNearest _ collectPassGo => collectPassGo
  | _ => false

/-- The tile is ownable, has a property record and nobody owns it. -/
def isOwnableAndUnowned (state : GameEngineState) (tile : GameTile) : Bool :=
  isOwnableTile tile &&
    (state.property? tile.key).any fun property => property.ownerRoomPlayerId.isNone

def movePlayerToCardTile (state : GameEngineState) (roomPlayerId : RoomPlayerId)
    (effect : GameCardEffect) : Checked GameEngineResult := do
  let board := state.board
  let player ← findPlayer state roomPlayerId
  let targetTile ← orThrow (← getCardMoveTargetTile state roomPlayerId effect)
    (.gameEngineError .cardNotFound "Card target tile was not found")
  let passedGo := collectsPassGo effect && targetTile.index ≤ player.position &&
    targetTile.index ≠ player.position
  let creditedState ←
    (if passedGo then creditPlayer state roomPlayerId board.passGoCash else .ok state)
  let movedEvents : List GameEngineEvent :=
    [.playerMoved roomPlayerId player.position targetTile.index
      (state.lastDiceRoll.getD (0, 0))] ++
    (if passedGo then [.playerPassedGo roomPlayerId board.passGoCash] else []) ++
    [.playerLandedOnTile roomPlayerId targetTile.key targetTile.kind]
  let nextState := { creditedState with
    phase := .awaitingTurnEnd
    pendingTileKey := none }.updatePlayer roomPlayerId fun candidate =>
      { candidate with position := targetTile.index }
  if targetTile.kind = .goToJail then
    let jailResult := sendPlayerToJail nextState roomPlayerId
    return { state := jailResult.state, events := movedEvents ++ jailResult.events }
  else if targetTile.kind = .tax then
    let taxResult ← payTax nextState roomPlayerId targetTile.key
    return { state := taxResult.state, events := movedEvents ++ taxResult.events }
  else if isOwnableAndUnowned nextState targetTile then
    return {
      state := { nextState with
        phase := .awaitingPropertyDecision
        pendingTileKey := some targetTile.key }
      events := movedEvents }
  else
    let rentResult ← payRent nextState roomPlayerId targetTile.key
      (state.lastDiceRoll.getD (0, 0))
    return { state := rentResult.state, events := movedEvents ++ rentResult.events }

def applyCardEffect (state : GameEngineState) (roomPlayerId : RoomPlayerId)
    (card : GameEngineCard) : Checked GameEngineResult :=
  match card.effect with
  | .collectMoney amount => do
    let creditedState ← creditPlayer state roomPlayerId amount
    return { state := creditedState, events := [] }
  | .payMoney amount => payCardCharge state roomPlayerId amount
  | .goToJail => .ok (sendPlayerToJail state roomPlayerId)
  | .collectFromEachPlayer amount => collectFromEachPlayer state roomPlayerId amount
  | .payEachPlayer amount => payEachPlayer state roomPlayerId amount
  | .propertyRepairs houseAmount hotelAmount =>
    payPropertyRepairs state roomPlayerId houseAmount hotelAmount
  | .getOutOfJailFree =>
    .ok {
      state := state.updatePlayer roomPlayerId fun player =>
        { player with
          getOutOfJailFreeCards := player.getOutOfJailFreeCards + 1
          getOutOfJailFreeCardKeys := player.getOutOfJailFreeCardKeys ++ [card.key] }
      events := [] }
  | .moveToTile _ _ | .moveRelative _ | .moveToNearest _ _ =>
    movePlayerToCardTile state roomPlayerId card.effect

def drawAndApplyCard (state : GameEngineState) (roomPlayerId : RoomPlayerId)
    (deckKey : GameCardDeckKey) : Checked GameEngineResult := do
  let (drawnState, cardKey) ← drawCard state deckKey
  let card ← orThrow (cardsByKey cardKey) (.gameEngineError .cardNotFound "Card was not found")
  let appliedResult ← applyCardEffect drawnState roomPlayerId card
  return {
    state := appliedResult.state
    events := [.cardDrawn roomPlayerId deckKey card.key,
      .cardApplied roomPlayerId deckKey card.key card.effect.type] ++ appliedResult.events }

/-! ## The roll -/

/-- The tail of `rollAndMoveIgnoringJail`: what happens on the tile the dice led to. -/
def resolveLanding (movedState : GameEngineState) (roomPlayerId : RoomPlayerId)
    (dice : DiceRoll) (landedTile : GameTile) (landedTileIsOwnableAndUnowned : Bool) :
    Checked GameEngineResult :=
  if landedTile.kind = .goToJail then
    let jailResult := sendPlayerToJail movedState roomPlayerId
    .ok { state := clearDoubles jailResult.state, events := jailResult.events }
  else if landedTile.kind = .chance then drawAndApplyCard movedState roomPlayerId .chance
  else if landedTile.kind = .worldFund then drawAndApplyCard movedState roomPlayerId .worldFund
  else if landedTileIsOwnableAndUnowned then .ok { state := movedState, events := [] }
  else if landedTile.kind = .tax then payTax movedState roomPlayerId landedTile.key
  else payRent movedState roomPlayerId landedTile.key dice

def rollAndMoveIgnoringJail (state : GameEngineState) (roomPlayerId : RoomPlayerId)
    (dice : DiceRoll) (suppressDoubles : Bool) : Checked GameEngineResult :=
  if !suppressDoubles && isThirdConsecutiveDoubles state dice then
    let jailResult := sendPlayerToJail (applyDoublesState state dice) roomPlayerId
    .ok {
      state := clearDoubles { jailResult.state with lastDiceRoll := some dice }
      events := [.playerRolledDoubles roomPlayerId 3, .playerRolledThirdDoubles roomPlayerId] ++
        jailResult.events }
  else do
    let board := state.board
    let steps := dice.1 + dice.2
    let boardSize := board.tiles.length
    let doublesState :=
      if suppressDoubles then clearDoubles state else applyDoublesState state dice
    let player ← findPlayer doublesState roomPlayerId
    let toPosition := (player.position + steps) % boardSize
    let passedGo := boardSize ≤ player.position + steps
    let landedTile ← getTile board toPosition
    let landedTileIsOwnableAndUnowned := isOwnableAndUnowned doublesState landedTile
    let events : List GameEngineEvent :=
      (if !suppressDoubles && isDoubles dice then
        [.playerRolledDoubles roomPlayerId doublesState.consecutiveDoublesCount] else []) ++
      [.playerMoved roomPlayerId player.position toPosition dice] ++
      (if passedGo then [.playerPassedGo roomPlayerId board.passGoCash] else []) ++
      [.playerLandedOnTile roomPlayerId landedTile.key landedTile.kind]
    let movedState := { doublesState with
      phase :=
        if landedTileIsOwnableAndUnowned then .awaitingPropertyDecision else .awaitingTurnEnd
      pendingTileKey := if landedTileIsOwnableAndUnowned then some landedTile.key else none
      lastDiceRoll := some dice }.updatePlayer roomPlayerId fun player =>
        { player with
          position := (player.position + steps) % boardSize
          cash :=
            if boardSize ≤ player.position + steps then player.cash + board.passGoCash
            else player.cash }
    let landing ←
      resolveLanding movedState roomPlayerId dice landedTile landedTileIsOwnableAndUnowned
    return { state := landing.state, events := events ++ landing.events }

def rollAndMove (state : GameEngineState) (roomPlayerId : RoomPlayerId) (dice : DiceRoll) :
    Checked GameEngineResult := do
  let jailedRollResult ← resolveJailedRoll state roomPlayerId dice fun releasedState =>
    rollAndMoveIgnoringJail releasedState roomPlayerId dice true
  match jailedRollResult with
  | some result => return result
  | none => rollAndMoveIgnoringJail state roomPlayerId dice false

end Engine
end LivePoly
