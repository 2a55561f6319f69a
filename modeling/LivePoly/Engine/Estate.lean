import LivePoly.Engine.Auctions
import LivePoly.Lib.Binary64

/-!
# Engine.Estate

What a player does with tiles: buying (`game-engine-properties.ts`), building and selling houses
and hotels (`game-engine-buildings.ts`), mortgages (`game-engine-mortgage.ts`).
-/

namespace LivePoly
namespace Engine

open Checked

/-! ## Properties -/

def createInitialPropertyState (boardKey : GameBoardKey) : List GameEngineProperty :=
  ((getGameBoard boardKey).tiles.filterMap GameTile.ownable?).map fun tile =>
    { tileKey := tile.key
      ownerRoomPlayerId := none
      houseCount := 0
      hasHotel := false
      mortgaged := false }

def buyProperty (state : GameEngineState) (roomPlayerId : RoomPlayerId) :
    Checked GameEngineResult := do
  let tileKey ← orThrow state.pendingTileKey
    (.gameEngineError .noPropertyDecision "There is no property decision to resolve")
  let tile ← orThrow ((state.board.tile? tileKey).bind GameTile.ownable?)
    (.gameEngineError .tileNotOwnable "Tile cannot be bought")
  let property ← findPropertyStateOr "Tile cannot be bought" state tile.key
  rejectIf property.ownerRoomPlayerId.isSome .propertyAlreadyOwned "Property is already owned"
  let nextState ← debitPlayer state roomPlayerId tile.price
  return {
    state := { nextState with
      phase := .awaitingTurnEnd
      pendingTileKey := none }.updatePropertyState tile.key fun candidate =>
        { candidate with ownerRoomPlayerId := some roomPlayerId }
    events := [.propertyBought roomPlayerId tile.key tile.price] }

/-! ## Buildings -/

/-- `assertCanManageBuildings` and `assertCanManageMortgage`, which differ in the error of a
wrong phase. Selling and mortgaging are also allowed to the debtor of a pending debt. -/
def assertCanManage (code : GameEngineErrorCode) (message : String) (state : GameEngineState)
    (roomPlayerId : RoomPlayerId) (allowDebtResolution : Bool) : Checked Unit := do
  assertGameActive state
  let resolvingOwnDebt := allowDebtResolution = true ∧ state.phase = .awaitingDebtResolution ∧
    state.debt.map GameEngineDebt.roomPlayerId = some roomPlayerId
  rejectIf (state.phase ≠ .awaitingTurnEnd ∧ ¬ resolvingOwnDebt) code message
  assertCurrentTurn state roomPlayerId

def assertCanManageBuildings : GameEngineState → RoomPlayerId → Bool → Checked Unit :=
  assertCanManage .buildingNotAllowed "Buildings cannot be managed during this phase"

def getPropertyTileByKey (board : GameBoard) (tileKey : TileKey) : Checked PropertyTile :=
  orThrow ((board.tile? tileKey).bind GameTile.property?)
    (.gameEngineError .buildingNotAllowed "Buildings can only be managed on property tiles")

def getOwnedSetProperties (state : GameEngineState) (tile : PropertyTile)
    (roomPlayerId : RoomPlayerId) : Checked (List GameEngineProperty) := do
  let setProperties ← (state.board.setTiles tile.setKey).mapM fun setTile =>
    findPropertyState state setTile.key
  rejectIf (∃ property ∈ setProperties, property.ownerRoomPlayerId ≠ some roomPlayerId)
    .propertySetNotOwned "Player does not own the full property set"
  return setProperties

/-- `Math.min(...values)`; `none` is the infinity it returns for no values. -/
def jsMin (values : List Int) : Option Int := values.min?

/-- `Math.max(...values)` -/
def jsMax (values : List Int) : Option Int := values.max?

def assertCanBuildHouseEvenly (property : GameEngineProperty)
    (setProperties : List GameEngineProperty) : Checked Unit :=
  let nonHotelHouseCounts := (setProperties.filter fun candidate => !candidate.hasHotel).map
    GameEngineProperty.houseCount
  rejectIf (some property.houseCount ≠ jsMin nonHotelHouseCounts) .unevenBuilding
    "Houses must be built evenly across the set"

def assertCanBuildHotelEvenly (property : GameEngineProperty)
    (setProperties : List GameEngineProperty) : Checked Unit := do
  rejectIf (property.houseCount ≠ 4) .buildingLimitReached
    "Property must have four houses before a hotel"
  let canUpgradeToHotel := ∀ candidate ∈ setProperties,
    if candidate.tileKey = property.tileKey then candidate.houseCount = 4 ∧ !candidate.hasHotel
    else candidate.hasHotel ∨ candidate.houseCount = 4
  rejectIf (¬ canUpgradeToHotel) .unevenBuilding "Hotels must be built evenly across the set"

def assertCanSellHouseEvenly (property : GameEngineProperty)
    (setProperties : List GameEngineProperty) : Checked Unit := do
  rejectIf (∃ candidate ∈ setProperties, candidate.hasHotel) .unevenBuilding
    "Hotels must be sold before houses"
  rejectIf (some property.houseCount ≠ jsMax (setProperties.map GameEngineProperty.houseCount))
    .unevenBuilding "Houses must be sold evenly across the set"

def assertSetIsNotMortgaged (setProperties : List GameEngineProperty) : Checked Unit :=
  rejectIf (∃ property ∈ setProperties, property.mortgaged) .propertyMortgaged
    "Buildings cannot be managed while the set has a mortgage"

def buildProperty (state : GameEngineState) (roomPlayerId : RoomPlayerId) (tileKey : TileKey) :
    Checked GameEngineResult := do
  assertCanManageBuildings state roomPlayerId false
  rejectIf (state.phase = .awaitingDebtResolution ∨ state.debt.isSome) .debtResolutionRequired
    "Player must resolve debt before building"
  let tile ← getPropertyTileByKey state.board tileKey
  let setProperties ← getOwnedSetProperties state tile roomPlayerId
  let property ← findPropertyState state tile.key
  assertSetIsNotMortgaged setProperties
  rejectIf property.hasHotel .buildingLimitReached "Property already has a hotel"
  if property.houseCount < 4 then
    assertCanBuildHouseEvenly property setProperties
    let debitedState ← debitPlayer state roomPlayerId tile.houseCost
    let nextHouseCount := property.houseCount + 1
    return {
      state := debitedState.updatePropertyState property.tileKey fun candidate =>
        { candidate with houseCount := nextHouseCount }
      events := [.propertyHouseBuilt roomPlayerId property.tileKey nextHouseCount
        tile.houseCost] }
  else
    assertCanBuildHotelEvenly property setProperties
    let debitedState ← debitPlayer state roomPlayerId tile.houseCost
    return {
      state := debitedState.updatePropertyState property.tileKey fun candidate =>
        { candidate with houseCount := 0, hasHotel := true }
      events := [.propertyHotelBuilt roomPlayerId property.tileKey tile.houseCost] }

def sellBuilding (state : GameEngineState) (roomPlayerId : RoomPlayerId) (tileKey : TileKey) :
    Checked GameEngineResult := do
  assertCanManageBuildings state roomPlayerId true
  let tile ← getPropertyTileByKey state.board tileKey
  let setProperties ← getOwnedSetProperties state tile roomPlayerId
  let property ← findPropertyState state tile.key
  let sellAmount := tile.houseCost / 2
  if property.hasHotel then
    let creditedState ← creditPlayer state roomPlayerId sellAmount
    return {
      state := creditedState.updatePropertyState property.tileKey fun candidate =>
        { candidate with houseCount := 4, hasHotel := false }
      events := [.propertyHotelSold roomPlayerId property.tileKey sellAmount] }
  else
    rejectIf (property.houseCount = 0) .noBuildingToSell "Property has no building to sell"
    assertCanSellHouseEvenly property setProperties
    let creditedState ← creditPlayer state roomPlayerId sellAmount
    let nextHouseCount := property.houseCount - 1
    return {
      state := creditedState.updatePropertyState property.tileKey fun candidate =>
        { candidate with houseCount := nextHouseCount }
      events := [.propertyHouseSold roomPlayerId property.tileKey nextHouseCount sellAmount] }

/-! ## Mortgages -/

def assertCanManageMortgage : GameEngineState → RoomPlayerId → Bool → Checked Unit :=
  assertCanManage .mortgageNotAllowed "Mortgage cannot be managed during this phase"

def getMortgageableTileByKey (board : GameBoard) (tileKey : TileKey) : Checked OwnableTile :=
  orThrow ((board.tile? tileKey).bind GameTile.ownable?)
    (.gameEngineError .mortgageNotAllowed "Only ownable tiles can be mortgaged")

def assertOwnedBy (property : GameEngineProperty) (roomPlayerId : RoomPlayerId) : Checked Unit :=
  rejectIf (property.ownerRoomPlayerId ≠ some roomPlayerId) .propertyNotOwned
    "Player does not own this property"

/-- A tile carries a house or a hotel. -/
def GameEngineProperty.hasBuilding (property : GameEngineProperty) : Bool :=
  0 < property.houseCount || property.hasHotel

def assertNoBuildingsForMortgage (state : GameEngineState) (tile : OwnableTile) :
    Checked Unit :=
  match tile with
  | .property tile => do
    let hasBuildingInSet ← (state.board.setTiles tile.setKey).anyM fun setTile => do
      let property ← findPropertyState state setTile.key
      return property.hasBuilding
    rejectIf hasBuildingInSet .propertyHasBuildings
      "Buildings must be sold before mortgaging this set"
  | _ => .ok ()

/-- `Math.ceil(mortgageValue * 1.1)` -/
def getUnmortgageCost (mortgageValue : Int) : Int :=
  (Binary64.fl (mortgageValue * Binary64.fl (11 / 10))).ceil

def mortgageProperty (state : GameEngineState) (roomPlayerId : RoomPlayerId)
    (tileKey : TileKey) : Checked GameEngineResult := do
  assertCanManageMortgage state roomPlayerId true
  let tile ← getMortgageableTileByKey state.board tileKey
  let property ← findPropertyState state tile.key
  assertOwnedBy property roomPlayerId
  rejectIf property.mortgaged .propertyAlreadyMortgaged "Property is already mortgaged"
  assertNoBuildingsForMortgage state tile
  let creditedState ← creditPlayer state roomPlayerId tile.mortgageValue
  return {
    state := creditedState.updatePropertyState property.tileKey fun candidate =>
      { candidate with mortgaged := true }
    events := [.propertyMortgaged roomPlayerId property.tileKey tile.mortgageValue] }

def unmortgageProperty (state : GameEngineState) (roomPlayerId : RoomPlayerId)
    (tileKey : TileKey) : Checked GameEngineResult := do
  assertCanManageMortgage state roomPlayerId false
  let tile ← getMortgageableTileByKey state.board tileKey
  let property ← findPropertyState state tile.key
  assertOwnedBy property roomPlayerId
  rejectIf (!property.mortgaged) .propertyNotMortgaged "Property is not mortgaged"
  let amount := getUnmortgageCost tile.mortgageValue
  let debitedState ← debitPlayer state roomPlayerId amount
  return {
    state := debitedState.updatePropertyState property.tileKey fun candidate =>
      { candidate with mortgaged := false }
    events := [.propertyUnmortgaged roomPlayerId property.tileKey amount] }

end Engine
end LivePoly
