import LivePoly.Engine.Estate

/-!
# Engine.Trades

`game-engine-trades.ts`: a player offers another one cash and tiles for cash and tiles. A human
answers the offer later, a bot at once (`shouldBotAcceptTrade`). Buildings on traded tiles are
sold at half their cost before the tiles change hands.
-/

namespace LivePoly
namespace Engine

open Checked

/-! ## What a client sends -/

/-- The key a client's string names. -/
def TileKey.ofString : String → TileKey
  | "go" => .go
  | "nigeria" => .nigeria
  | "world_fund_1" => .worldFund1
  | "ghana" => .ghana
  | "income_tax" => .incomeTax
  | "lagos_airport" => .lagosAirport
  | "south_africa" => .southAfrica
  | "chance_1" => .chance1
  | "egypt" => .egypt
  | "morocco" => .morocco
  | "jail" => .jail
  | "brazil" => .brazil
  | "electric_company" => .electricCompany
  | "argentina" => .argentina
  | "mexico" => .mexico
  | "new_york_airport" => .newYorkAirport
  | "usa" => .usa
  | "world_fund_2" => .worldFund2
  | "canada" => .canada
  | "jamaica" => .jamaica
  | "free_parking" => .freeParking
  | "uk" => .uk
  | "chance_2" => .chance2
  | "france" => .france
  | "spain" => .spain
  | "london_airport" => .londonAirport
  | "germany" => .germany
  | "italy" => .italy
  | "water_works" => .waterWorks
  | "netherlands" => .netherlands
  | "go_to_jail" => .goToJail
  | "india" => .india
  | "china" => .china
  | "world_fund_3" => .worldFund3
  | "japan" => .japan
  | "tokyo_airport" => .tokyoAirport
  | "chance_3" => .chance3
  | "south_korea" => .southKorea
  | "luxury_tax" => .luxuryTax
  | "australia" => .australia
  | key => .unknown key

/-- The string of a key. -/
def tileKeyName : TileKey → String
  | .go => "go"
  | .nigeria => "nigeria"
  | .worldFund1 => "world_fund_1"
  | .ghana => "ghana"
  | .incomeTax => "income_tax"
  | .lagosAirport => "lagos_airport"
  | .southAfrica => "south_africa"
  | .chance1 => "chance_1"
  | .egypt => "egypt"
  | .morocco => "morocco"
  | .jail => "jail"
  | .brazil => "brazil"
  | .electricCompany => "electric_company"
  | .argentina => "argentina"
  | .mexico => "mexico"
  | .newYorkAirport => "new_york_airport"
  | .usa => "usa"
  | .worldFund2 => "world_fund_2"
  | .canada => "canada"
  | .jamaica => "jamaica"
  | .freeParking => "free_parking"
  | .uk => "uk"
  | .chance2 => "chance_2"
  | .france => "france"
  | .spain => "spain"
  | .londonAirport => "london_airport"
  | .germany => "germany"
  | .italy => "italy"
  | .waterWorks => "water_works"
  | .netherlands => "netherlands"
  | .goToJail => "go_to_jail"
  | .india => "india"
  | .china => "china"
  | .worldFund3 => "world_fund_3"
  | .japan => "japan"
  | .tokyoAirport => "tokyo_airport"
  | .chance3 => "chance_3"
  | .southKorea => "south_korea"
  | .luxuryTax => "luxury_tax"
  | .australia => "australia"
  | .unknown key => key

/-- The white space and line ends `String.prototype.trim` removes. -/
def jsWhiteSpace (c : Char) : Bool :=
  let code := c.toNat
  (9 ≤ code && code ≤ 13) || (0x2000 ≤ code && code ≤ 0x200A) ||
    [0x20, 0xA0, 0x1680, 0x2028, 0x2029, 0x202F, 0x205F, 0x3000, 0xFEFF].contains code

/-- `String.prototype.trim` -/
def jsTrim (value : String) : String :=
  String.ofList ((value.toList.dropWhile jsWhiteSpace).reverse.dropWhile jsWhiteSpace).reverse

def normalizeCash (value : JsNumber) : Checked Int :=
  orThrow (integerAtLeast 0 value)
    (.gameEngineError .invalidTrade "Trade cash must be a whole number")

def uniquePropertyKeys (values : List String) : Checked (List TileKey) := do
  let uniqueValues := (Distinct.distinct (values.map jsTrim)).filter (· ≠ "")
  rejectIf (uniqueValues.length ≠ values.length) .invalidTrade
    "Trade cannot include duplicate properties"
  return uniqueValues.map TileKey.ofString

/-! ## Validation -/

def assertCanTrade (state : GameEngineState) (roomPlayerId : RoomPlayerId) : Checked Unit := do
  assertGameActive state
  rejectIf (state.phase ≠ .awaitingFirstTurn ∧ state.phase ≠ .awaitingRoll ∧
      state.phase ≠ .awaitingPropertyDecision ∧ state.phase ≠ .awaitingTurnEnd)
    .tradeNotAllowed "Trades cannot be made while this game action is unresolved"
  rejectIf state.debt.isSome .debtResolutionRequired "Player must resolve debt before trading"
  let player ← findPlayer state roomPlayerId
  rejectIf player.bankrupt .invalidTrade "Bankrupt players cannot trade"

def assertTradeOffer (state : GameEngineState) (tradeId : String) :
    Checked GameEngineTradeOffer :=
  orThrow (state.tradeOffer.filter fun trade => trade.id = tradeId)
    (.gameEngineError .tradeNotFound "Trade offer not found")

def getTradeableTile (state : GameEngineState) (tileKey : TileKey) : Checked OwnableTile :=
  orThrow ((state.board.tile? tileKey).bind GameTile.ownable?)
    (.gameEngineError .tileNotOwnable "Tile is not tradeable")

def assertPropertiesOwnedBy (state : GameEngineState) (tileKeys : List TileKey)
    (ownerRoomPlayerId : RoomPlayerId) : Checked Unit :=
  tileKeys.forM fun tileKey => do
    let property ← findPropertyState state tileKey
    rejectIf (property.ownerRoomPlayerId ≠ some ownerRoomPlayerId) .propertyNotOwned
      "Player does not own one of the traded properties"
    let _ ← getTradeableTile state tileKey

def assertNoDuplicateCrossTradeProperties (trade : GameEngineTradeOffer) : Checked Unit :=
  rejectIf (∃ tileKey ∈ trade.requestedPropertyKeys, tileKey ∈ trade.offeredPropertyKeys)
    .invalidTrade "The same property cannot be on both sides of a trade"

def validateTrade (state : GameEngineState) (trade : GameEngineTradeOffer) : Checked Unit := do
  let fromPlayer ← findPlayer state trade.fromRoomPlayerId
  let toPlayer ← findPlayer state trade.toRoomPlayerId
  rejectIf (fromPlayer.bankrupt ∨ toPlayer.bankrupt) .invalidTrade
    "Bankrupt players cannot trade"
  rejectIf (fromPlayer.cash < trade.offeredCash ∨ toPlayer.cash < trade.requestedCash)
    .insufficientFunds "Trade cash is no longer available"
  rejectIf ((trade.offeredCash = 0 ∧ trade.offeredPropertyKeys.length = 0) ∨
      (trade.requestedCash = 0 ∧ trade.requestedPropertyKeys.length = 0))
    .invalidTrade "Both players must offer cash or property"
  assertNoDuplicateCrossTradeProperties trade
  assertPropertiesOwnedBy state trade.offeredPropertyKeys trade.fromRoomPlayerId
  assertPropertiesOwnedBy state trade.requestedPropertyKeys trade.toRoomPlayerId

/-! ## Executing a trade -/

/-- Houses count one each and a hotel five. -/
def GameEngineProperty.level (property : GameEngineProperty) : Int :=
  property.houseCount + (if property.hasHotel then 5 else 0)

/-- What the buildings on a tile sell for: half of what they cost. -/
def buildingValue (tile : OwnableTile) (property : GameEngineProperty) : Int :=
  match tile with
  | .property tile => property.level * (tile.houseCost / 2)
  | _ => 0

/-- One round of the loop of `liquidateTradeBuildings`. -/
def liquidateTradeBuilding (tradeId : String) (roomPlayerId : RoomPlayerId)
    (result : GameEngineResult) (tileKey : TileKey) : Checked GameEngineResult := do
  let property ← findPropertyState result.state tileKey
  let tile ← getTradeableTile result.state tileKey
  let liquidationAmount := buildingValue tile property
  if liquidationAmount ≤ 0 then
    return result
  else
    let creditedState ← creditPlayer result.state roomPlayerId liquidationAmount
    return {
      state := creditedState.updatePropertyState tileKey fun candidate =>
        { candidate with houseCount := 0, hasHotel := false }
      events := result.events ++
        [.tradeBuildingsLiquidated tradeId roomPlayerId tileKey liquidationAmount] }

def liquidateTradeBuildings (state : GameEngineState) (tradeId : String)
    (roomPlayerId : RoomPlayerId) (tileKeys : List TileKey) : Checked GameEngineResult :=
  tileKeys.foldlM (liquidateTradeBuilding tradeId roomPlayerId) { state, events := [] }

def transferProperties (state : GameEngineState) (tileKeys : List TileKey)
    (ownerRoomPlayerId : RoomPlayerId) : GameEngineState :=
  { state with
    properties := state.properties.map fun property =>
      if property.tileKey ∈ tileKeys then
        { property with ownerRoomPlayerId := some ownerRoomPlayerId }
      else property }

def acceptTradeOffer (state : GameEngineState) (trade : GameEngineTradeOffer)
    (previousEvents : List GameEngineEvent) : Checked GameEngineResult := do
  validateTrade state trade
  let fromLiquidation ← liquidateTradeBuildings state trade.id trade.fromRoomPlayerId
    trade.offeredPropertyKeys
  let toLiquidation ← liquidateTradeBuildings fromLiquidation.state trade.id
    trade.toRoomPlayerId trade.requestedPropertyKeys
  let nextState ←
    (if 0 < trade.offeredCash then
      transferPlayerCash toLiquidation.state trade.fromRoomPlayerId trade.toRoomPlayerId
        trade.offeredCash
    else .ok toLiquidation.state)
  let nextState ←
    (if 0 < trade.requestedCash then
      transferPlayerCash nextState trade.toRoomPlayerId trade.fromRoomPlayerId
        trade.requestedCash
    else .ok nextState)
  let nextState :=
    transferProperties nextState trade.offeredPropertyKeys trade.toRoomPlayerId
  let nextState :=
    transferProperties nextState trade.requestedPropertyKeys trade.fromRoomPlayerId
  return {
    state := { nextState with tradeOffer := none }
    events := previousEvents ++ fromLiquidation.events ++ toLiquidation.events ++
      [.tradeAccepted trade.id trade.fromRoomPlayerId trade.toRoomPlayerId] }

/-! ## A bot's answer -/

/-- The worth of one side of a trade. -/
def getTradeValue (state : GameEngineState) (cash : Int) (propertyKeys : List TileKey) :
    Checked Int := do
  let propertyValue ← propertyKeys.foldlM (fun sum tileKey => do
      let property ← findPropertyState state tileKey
      let tile ← getTradeableTile state tileKey
      return sum + tile.price + buildingValue tile property)
    (0 : Int)
  return cash + propertyValue

/-- A player who gets `incoming` and gives `outgoing` owns every tile of the set. -/
def completesSet (state : GameEngineState) (roomPlayerId : RoomPlayerId)
    (incoming outgoing : List TileKey) (setKey : PropertySetKey) : Checked Bool :=
  (state.board.setTiles setKey).allM fun setTile =>
    if setTile.key ∈ outgoing then return false
    else if setTile.key ∈ incoming then return true
    else do
      let property ← findPropertyState state setTile.key
      return property.ownerRoomPlayerId = some roomPlayerId

def getSetCompletionValue (state : GameEngineState) (roomPlayerId : RoomPlayerId)
    (incoming outgoing : List TileKey) : Checked Int := do
  let completedSetKeys ← incoming.foldlM (fun completedSetKeys tileKey => do
      match ← getTradeableTile state tileKey with
      | .property tile =>
        if tile.setKey ∈ completedSetKeys then return completedSetKeys
        else if ← completesSet state roomPlayerId incoming outgoing tile.setKey then
          return completedSetKeys ++ [tile.setKey]
        else return completedSetKeys
      | _ => return completedSetKeys)
    ([] : List PropertySetKey)
  return (state.board.tiles.filterMap GameTile.property?).foldl
    (fun total tile => if tile.setKey ∈ completedSetKeys then total + tile.price else total) 0

/-- `GAME_BOTS.tradeSetCompletionWeight` -/
def tradeSetCompletionWeight : BotDifficulty → Rat
  | .easy => 0
  | .normal => 3 / 4
  | .hard => 7 / 4

/-- `GAME_BOTS.tradeAcceptanceMargin`, as floating point reads it. -/
def tradeAcceptanceMargin : BotDifficulty → Rat
  | .easy => Binary64.fl (95 / 100)
  | .normal => Binary64.fl (11 / 10)
  | .hard => Binary64.fl (13 / 10)

def shouldBotAcceptTrade (state : GameEngineState) (trade : GameEngineTradeOffer) :
    Checked Bool := do
  let bot ← findPlayer state trade.toRoomPlayerId
  let difficulty := bot.botDifficulty.getD .normal
  let setCompletionWeight := tradeSetCompletionWeight difficulty
  let weighted (value setCompletionValue : Int) : Rat :=
    Binary64.fl (value + Binary64.fl (setCompletionValue * setCompletionWeight))
  let botReceives := weighted
    (← getTradeValue state trade.offeredCash trade.offeredPropertyKeys)
    (← getSetCompletionValue state trade.toRoomPlayerId trade.offeredPropertyKeys
      trade.requestedPropertyKeys)
  let botGives := weighted
    (← getTradeValue state trade.requestedCash trade.requestedPropertyKeys)
    (← getSetCompletionValue state trade.fromRoomPlayerId trade.requestedPropertyKeys
      trade.offeredPropertyKeys)
  return Binary64.fl (botGives * tradeAcceptanceMargin difficulty) ≤ botReceives

/-! ## The intents -/

def markBotTradeProposal (state : GameEngineState) (roomPlayerId : RoomPlayerId) :
    Checked GameEngineState := do
  let player ← findPlayer state roomPlayerId
  if player.playerType ≠ .bot then
    return state
  else
    return state.updatePlayer roomPlayerId fun candidate =>
      { candidate with lastBotTradeProposalTurnNumber := some state.turnNumber }

/-- The offer a proposal states. -/
def tradeOfInput (env : Env) (input : ProposeTradeInput) : Checked GameEngineTradeOffer := do
  let offeredCash ← normalizeCash input.offeredCash
  let requestedCash ← normalizeCash input.requestedCash
  let offeredPropertyKeys ← uniquePropertyKeys input.offeredPropertyKeys
  let requestedPropertyKeys ← uniquePropertyKeys input.requestedPropertyKeys
  return {
    id := input.tradeId.getD env.randomUUID
    fromRoomPlayerId := input.roomPlayerId
    toRoomPlayerId := input.toRoomPlayerId
    offeredCash
    requestedCash
    offeredPropertyKeys
    requestedPropertyKeys
    createdAt := env.now }

/-- The event `trade_proposed` of an offer. -/
def proposedEvent (trade : GameEngineTradeOffer) : GameEngineEvent :=
  .tradeProposed trade.id trade.fromRoomPlayerId trade.toRoomPlayerId trade.offeredCash
    trade.requestedCash trade.offeredPropertyKeys trade.requestedPropertyKeys

def proposeTrade (env : Env) (state : GameEngineState) (input : ProposeTradeInput) :
    Checked GameEngineResult := do
  assertCanTrade state input.roomPlayerId
  rejectIf (input.roomPlayerId = input.toRoomPlayerId) .invalidTrade
    "Trade must target another player"
  rejectIf state.tradeOffer.isSome .tradeNotAllowed "A trade is already being considered"
  let trade ← tradeOfInput env input
  validateTrade state trade
  let proposedState ← markBotTradeProposal state trade.fromRoomPlayerId
  let target ← findPlayer proposedState trade.toRoomPlayerId
  if target.playerType = .bot then
    if ← shouldBotAcceptTrade proposedState trade then
      acceptTradeOffer proposedState trade [proposedEvent trade]
    else
      return {
        state := { proposedState with tradeOffer := none }
        events := [proposedEvent trade,
          .tradeRejected trade.id trade.fromRoomPlayerId trade.toRoomPlayerId
            trade.toRoomPlayerId] }
  else
    return {
      state := { proposedState with tradeOffer := some trade }
      events := [proposedEvent trade] }

def acceptTrade (state : GameEngineState) (roomPlayerId : RoomPlayerId) (tradeId : String) :
    Checked GameEngineResult := do
  let trade ← assertTradeOffer state tradeId
  rejectIf (trade.toRoomPlayerId ≠ roomPlayerId) .tradeNotAllowed
    "Only the target player can accept this trade"
  acceptTradeOffer state trade []

def rejectTrade (state : GameEngineState) (roomPlayerId : RoomPlayerId) (tradeId : String) :
    Checked GameEngineResult := do
  let trade ← assertTradeOffer state tradeId
  rejectIf (trade.toRoomPlayerId ≠ roomPlayerId) .tradeNotAllowed
    "Only the target player can reject this trade"
  return {
    state := { state with tradeOffer := none }
    events := [.tradeRejected trade.id trade.fromRoomPlayerId trade.toRoomPlayerId
      roomPlayerId] }

def cancelTrade (state : GameEngineState) (roomPlayerId : RoomPlayerId) (tradeId : String) :
    Checked GameEngineResult := do
  let trade ← assertTradeOffer state tradeId
  rejectIf (trade.fromRoomPlayerId ≠ roomPlayerId) .tradeNotAllowed
    "Only the proposing player can cancel this trade"
  return {
    state := { state with tradeOffer := none }
    events := [.tradeCancelled trade.id trade.fromRoomPlayerId trade.toRoomPlayerId] }

end Engine
end LivePoly
