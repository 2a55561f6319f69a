import LivePoly.Service.Jobs

/-!
# Service.Bots

`GameBotService`: what a bot does next. Its scores and valuations are floating point numbers.
-/

namespace LivePoly
namespace Service

open Engine Checked

/-! ## The constants of `GAME_BOTS` -/

def cashReserve : BotDifficulty → Int
  | .easy => 200
  | .normal => 350
  | .hard => 300

def buyScoreThreshold : BotDifficulty → Rat
  | .easy => 65
  | .normal => 35
  | .hard => 35

def auctionMaxPriceRatio : BotDifficulty → Rat
  | .easy => Binary64.fl (55 / 100)
  | .normal => Binary64.fl (85 / 100)
  | .hard => Binary64.fl (105 / 100)

def auctionBidStepRatio : BotDifficulty → Rat
  | .easy => Binary64.fl (3 / 100)
  | .normal => Binary64.fl (8 / 100)
  | .hard => Binary64.fl (14 / 100)

def auctionSetCompletionPremium : BotDifficulty → Rat
  | .easy => 0
  | .normal => Binary64.fl (35 / 100)
  | .hard => Binary64.fl (8 / 10)

def auctionBlockPremium : BotDifficulty → Rat
  | .easy => 0
  | .normal => Binary64.fl (15 / 100)
  | .hard => Binary64.fl (45 / 100)

def setCompletionBonus : BotDifficulty → Rat
  | .easy => 10
  | .normal => 70
  | .hard => 100

def opponentBlockBonus : BotDifficulty → Rat
  | .easy => 0
  | .normal => 30
  | .hard => 80

def rentPotentialWeight : BotDifficulty → Rat
  | .easy => Binary64.fl (2 / 10)
  | .normal => Binary64.fl (6 / 10)
  | .hard => 1

def cheapPropertyBias : BotDifficulty → Rat
  | .easy => 70
  | .normal => 35
  | .hard => 0

def maxDevelopmentLevel : BotDifficulty → Int
  | .easy => 1
  | .normal => 3
  | .hard => 5

def tradeOfferPriceRatio : BotDifficulty → Rat
  | .easy => Binary64.fl (13 / 10)
  | .normal => Binary64.fl (12 / 10)
  | .hard => Binary64.fl (115 / 100)

namespace GameBotService

/-! ## Valuations -/

def difficulty (bot : GameEnginePlayer) : BotDifficulty := bot.botDifficulty.getD .normal

def cashReserve (bot : GameEnginePlayer) : Int := Service.cashReserve (difficulty bot)

/-- The rents of a tile are not empty. -/
def rentPotentialScore : OwnableTile → Rat
  | .property tile => Binary64.fl (tile.hotelRent / 20)
  | .airport tile => Binary64.fl (tile.rentByOwnedCount.getLastD 0 / 4)
  | .utility tile => tile.rentMultiplierByOwnedCount.getLastD 0 * 4

def getUnmortgageCost (mortgageValue : Int) : Int :=
  (Binary64.fl (mortgageValue * Binary64.fl (11 / 10))).ceil

/-- The player has the tile's set when the tile is added to what is owned. -/
def ownsRestOfSet (state : GameEngineState) (roomPlayerId : RoomPlayerId) (tile : PropertyTile) :
    Bool :=
  (state.board.setTiles tile.setKey).all fun setTile =>
    setTile.key = tile.key || state.properties.any fun property =>
      property.tileKey = setTile.key && property.ownerRoomPlayerId = some roomPlayerId

def wouldCompleteSet (state : GameEngineState) (bot : GameEnginePlayer) (tile : OwnableTile) :
    Bool :=
  match tile with
  | .property tile => ownsRestOfSet state bot.roomPlayerId tile
  | _ => false

def wouldBlockOpponentSet (state : GameEngineState) (bot : GameEnginePlayer)
    (tile : OwnableTile) : Bool :=
  match tile with
  | .property tile =>
    (state.players.filter fun player =>
        player.roomPlayerId ≠ bot.roomPlayerId && !player.bankrupt).any fun opponent =>
      ownsRestOfSet state opponent.roomPlayerId tile
  | _ => false

/-- `findPropertyState`, with the error of this service. -/
def findPropertyState (state : GameEngineState) (tileKey : TileKey) : Checked GameEngineProperty :=
  let name := tileKeyName tileKey
  orThrow (state.property? tileKey) (.error s!"Missing property state for {name}")

def getOwnableTile (state : GameEngineState) (tileKey : TileKey) : Option OwnableTile :=
  (state.board.tile? tileKey).bind GameTile.ownable?

def getPendingOwnableTile (state : GameEngineState) : Option OwnableTile :=
  state.pendingTileKey.bind (getOwnableTile state)

/-! ## Buying -/

/-- `tile.kind === 'property' && tile.price <= 160` -/
def isCheapProperty : OwnableTile → Bool
  | .property tile => tile.price ≤ 160
  | _ => false

def scoreTilePurchase (state : GameEngineState) (bot : GameEnginePlayer) (tile : OwnableTile) :
    Rat :=
  let difficulty := difficulty bot
  let remainingCash := bot.cash - tile.price
  let reserve := cashReserve bot
  let reservePenalty : Rat :=
    if remainingCash < reserve then Binary64.fl ((reserve - remainingCash : Int) / 10) else 0
  let score := Binary64.fl
    (Binary64.fl (rentPotentialScore tile * rentPotentialWeight difficulty) - reservePenalty)
  let score :=
    if isCheapProperty tile then Binary64.fl (score + cheapPropertyBias difficulty) else score
  let score :=
    if wouldCompleteSet state bot tile then Binary64.fl (score + setCompletionBonus difficulty)
    else score
  if wouldBlockOpponentSet state bot tile then Binary64.fl (score + opponentBlockBonus difficulty)
  else score

def shouldBuyTile (state : GameEngineState) (bot : GameEnginePlayer) (tile : OwnableTile) : Bool :=
  if bot.cash < tile.price then false
  else buyScoreThreshold (difficulty bot) ≤ scoreTilePurchase state bot tile

def choosePropertyDecision (state : GameEngineState) (bot : GameEnginePlayer) :
    GameEngineIntent :=
  match getPendingOwnableTile state with
  | none => .declinePropertyPurchase bot.roomPlayerId
  | some tile =>
    if !shouldBuyTile state bot tile then .declinePropertyPurchase bot.roomPlayerId
    else .buyProperty bot.roomPlayerId

/-! ## Bidding -/

def getMaxAuctionBid (state : GameEngineState) (bot : GameEnginePlayer) (tile : OwnableTile) :
    Int :=
  let difficulty := difficulty bot
  let strategicPremium : Rat :=
    match tile with
    | .property _ => Binary64.fl (rentPotentialScore tile / 2)
    | _ => 0
  let setCompletionPremium : Rat :=
    if wouldCompleteSet state bot tile then
      Binary64.fl (tile.price * auctionSetCompletionPremium difficulty)
    else 0
  let blockPremium : Rat :=
    if wouldBlockOpponentSet state bot tile then
      Binary64.fl (tile.price * auctionBlockPremium difficulty)
    else 0
  (Binary64.fl
    (Binary64.fl
      (Binary64.fl
        (Binary64.fl (tile.price * auctionMaxPriceRatio difficulty) +
          Binary64.fl (strategicPremium * rentPotentialWeight difficulty)) +
        setCompletionPremium) +
      blockPremium)).floor

def getAuctionBidAmount (bot : GameEnginePlayer) (tile : OwnableTile) (minimumBid maxBid : Int) :
    Int :=
  let affordableMax := bot.cash - cashReserve bot
  let cappedMaxBid := min maxBid affordableMax
  let bidRoom := cappedMaxBid - minimumBid
  if bidRoom ≤ 0 then minimumBid
  else
    let difficulty := difficulty bot
    let tileStep := max 1 (Binary64.fl (tile.price * auctionBidStepRatio difficulty)).floor
    let pressureStep : Int :=
      match difficulty, tile with
      | .hard, .property _ => (rentPotentialScore tile).floor
      | _, _ => 0
    minimumBid + min bidRoom (tileStep + pressureStep)

def chooseAuctionDecision (state : GameEngineState) (bot : GameEnginePlayer) :
    Option GameEngineIntent :=
  match state.auction with
  | none => none
  | some auction =>
    if bot.roomPlayerId ∈ auction.passedRoomPlayerIds then none
    else
      match getOwnableTile state auction.tileKey with
      | none => some (.passAuctionBid bot.roomPlayerId)
      | some tile =>
        let maxBid := getMaxAuctionBid state bot tile
        let nextBid := getMinimumAuctionBid auction
        if maxBid < nextBid ∨ bot.cash - cashReserve bot < nextBid then
          some (.passAuctionBid bot.roomPlayerId)
        else
          some (.placeAuctionBid bot.roomPlayerId
            (.int (getAuctionBidAmount bot tile nextBid maxBid)))

/-! ## Debts and trades it is asked about -/

def chooseDebtDecision (state : GameEngineState) (bot : GameEnginePlayer) :
    Option GameEngineIntent :=
  if state.debt.map GameEngineDebt.roomPlayerId = some bot.roomPlayerId then
    some (.autoResolveDebt bot.roomPlayerId)
  else none

def chooseTradeResponseDecision (state : GameEngineState) (bot : GameEnginePlayer)
    (tradeOffer : GameEngineTradeOffer) : Checked (Option GameEngineIntent) := do
  if tradeOffer.toRoomPlayerId ≠ bot.roomPlayerId then return none
  else if ← shouldBotAcceptTrade state tradeOffer then
    return some (.acceptTrade bot.roomPlayerId tradeOffer.id)
  else return some (.rejectTrade bot.roomPlayerId tradeOffer.id)

/-! ## Mortgages, buildings and trades it proposes -/

/-- A tile something may be done with, and how much the bot would like it. -/
structure Candidate where
  tileKey : TileKey
  cost : Int
  score : Rat
  level : Int
  deriving DecidableEq

/-- `candidates.sort(…)[0]`: the first by level, and of one level by score, the best first. -/
def firstCandidate (candidates : List Candidate) : Option Candidate :=
  (candidates.insertionSort fun left right =>
    left.level < right.level ∨ left.level = right.level ∧ right.score ≤ left.score).head?

def ownsCompletePropertySet (state : GameEngineState) (roomPlayerId : RoomPlayerId)
    (setKey : PropertySetKey) : Checked Bool :=
  (state.board.setTiles setKey).allM fun tile => do
    let property ← findPropertyState state tile.key
    return property.ownerRoomPlayerId = some roomPlayerId

/-- The candidates that redeem a mortgage are sorted by their score only. -/
def unmortgageCandidate (state : GameEngineState) (bot : GameEnginePlayer)
    (property : GameEngineProperty) : Checked (Option Candidate) :=
  match getOwnableTile state property.tileKey with
  | none => return none
  | some tile => do
    let ownsSet ←
      match tile with
      | .property tile => ownsCompletePropertySet state bot.roomPlayerId tile.setKey
      | _ => pure false
    return some {
      tileKey := property.tileKey
      cost := getUnmortgageCost tile.mortgageValue
      score := Binary64.fl (rentPotentialScore tile +
        (if ownsSet then setCompletionBonus (difficulty bot) else 0))
      level := 0 }

def findPropertyToUnmortgage (state : GameEngineState) (bot : GameEnginePlayer) :
    Checked (Option TileKey) := do
  let candidates ← (state.properties.filter fun property =>
      property.ownerRoomPlayerId = some bot.roomPlayerId && property.mortgaged).mapM
    (unmortgageCandidate state bot)
  let candidates := (candidates.filterMap id).filter fun candidate =>
    cashReserve bot ≤ bot.cash - candidate.cost
  return (firstCandidate candidates).map Candidate.tileKey

def getDevelopmentLevel (property : GameEngineProperty) : Int :=
  if property.hasHotel then 5 else property.houseCount

/-- The sets of the board, each once. -/
def boardSetKeys (board : GameBoard) : List PropertySetKey :=
  Distinct.distinct ((board.tiles.filterMap GameTile.property?).map PropertyTile.setKey)

/-- What the loop over the sets adds for one of them. -/
def buildCandidates (state : GameEngineState) (bot : GameEnginePlayer) (setKey : PropertySetKey) :
    Checked (List Candidate) := do
  let maxDevelopmentLevel := maxDevelopmentLevel (difficulty bot)
  let setTiles := state.board.setTiles setKey
  let setProperties ← setTiles.mapM fun tile => findPropertyState state tile.key
  if setProperties.any fun property =>
      property.ownerRoomPlayerId ≠ some bot.roomPlayerId || property.mortgaged then
    return []
  else
    match jsMin (setProperties.map getDevelopmentLevel) with
    | none => return []
    | some lowestLevel =>
      if maxDevelopmentLevel ≤ lowestLevel then return []
      else
        let candidates ← setTiles.mapM fun tile => do
          let property ← findPropertyState state tile.key
          let level := getDevelopmentLevel property
          if level ≠ lowestLevel ∨ maxDevelopmentLevel ≤ level then return none
          else if bot.cash - tile.houseCost < cashReserve bot then return none
          else
            return some {
              tileKey := tile.key
              cost := tile.houseCost
              score := rentPotentialScore (.property tile)
              level }
        return candidates.filterMap id

def findPropertyToBuild (state : GameEngineState) (bot : GameEnginePlayer) :
    Checked (Option TileKey) := do
  let candidates ← (boardSetKeys state.board).mapM (buildCandidates state bot)
  return (firstCandidate candidates.flatten).map Candidate.tileKey

/-- A tile that completes a set of the bot, whose it is, and what the bot offers for it. -/
structure TradeCandidate where
  tileKey : TileKey
  toRoomPlayerId : RoomPlayerId
  offeredCash : Int
  score : Rat
  deriving DecidableEq

def tradeCandidate (state : GameEngineState) (bot : GameEnginePlayer) (setKey : PropertySetKey) :
    Checked (Option TradeCandidate) := do
  let setTiles := state.board.setTiles setKey
  let isOwnedByBot (tile : PropertyTile) : Checked Bool := do
    let property ← findPropertyState state tile.key
    return property.ownerRoomPlayerId = some bot.roomPlayerId
  let ownedByBot ← setTiles.filterM isOwnedByBot
  if ownedByBot.length + 1 ≠ setTiles.length then return none
  else
    match ← setTiles.findM? fun tile => do return !(← isOwnedByBot tile) with
    | none => return none
    | some missingTile =>
      let missingProperty ← findPropertyState state missingTile.key
      match missingProperty.ownerRoomPlayerId.bind state.player? with
      | none => return none
      | some target =>
        if target.bankrupt ∨ missingProperty.mortgaged ∨ 0 < missingProperty.houseCount ∨
            missingProperty.hasHotel then
          return none
        else
          let offerRatio := max (tradeOfferPriceRatio (difficulty bot))
            (if target.playerType = .bot then tradeAcceptanceMargin (difficulty target) else 1)
          let offeredCash := (Binary64.fl (missingTile.price * offerRatio)).ceil
          if bot.cash - offeredCash < cashReserve bot then return none
          else
            return some {
              tileKey := missingTile.key
              toRoomPlayerId := target.roomPlayerId
              offeredCash
              score := Binary64.fl (rentPotentialScore (.property missingTile) +
                setCompletionBonus (difficulty bot)) }

def findSetCompletingTradeCandidates (state : GameEngineState) (bot : GameEnginePlayer) :
    Checked (List TradeCandidate) := do
  let candidates ← (boardSetKeys state.board).mapM (tradeCandidate state bot)
  return (candidates.filterMap id).insertionSort fun left right => right.score ≤ left.score

def chooseTradeProposal (state : GameEngineState) (bot : GameEnginePlayer) :
    Checked (Option GameEngineIntent) := do
  if bot.lastBotTradeProposalTurnNumber = some state.turnNumber then return none
  else
    match (← findSetCompletingTradeCandidates state bot).head? with
    | none => return none
    | some candidate =>
      return some (.proposeTrade {
        roomPlayerId := bot.roomPlayerId
        toRoomPlayerId := candidate.toRoomPlayerId
        offeredCash := .int candidate.offeredCash
        requestedCash := .int 0
        offeredPropertyKeys := []
        requestedPropertyKeys := [tileKeyName candidate.tileKey]
        tradeId := none })

/-! ## The decision -/

def shouldPayJailFine (bot : GameEnginePlayer) : Bool :=
  if bot.cash < 50 then false
  else bot.botDifficulty = some .hard || 2 ≤ bot.jailTurnCount

def findActionBot (state : GameEngineState) : Option GameEnginePlayer :=
  if state.phase = .finished ∨ state.phase = .cancelled then none
  else
    match if state.phase = .awaitingAuctionBid then state.auction else none with
    | some auction =>
      ((getCurrentAuctionBidderRoomPlayerId auction).bind state.player?).filter fun bot =>
        bot.playerType = .bot
    | none =>
      (state.player? state.currentTurnRoomPlayerId).filter fun currentPlayer =>
        currentPlayer.playerType = .bot && !currentPlayer.bankrupt

/-- At the end of its turn a bot redeems a mortgage, builds, proposes a trade, or ends the turn. -/
def chooseTurnEndDecision (state : GameEngineState) (bot : GameEnginePlayer) :
    Checked (Option GameEngineIntent) := do
  match ← findPropertyToUnmortgage state bot with
  | some unmortgageTileKey =>
    return some (.unmortgageProperty bot.roomPlayerId unmortgageTileKey)
  | none =>
    match ← findPropertyToBuild state bot with
    | some buildTileKey => return some (.buildProperty bot.roomPlayerId buildTileKey)
    | none =>
      match ← chooseTradeProposal state bot with
      | some tradeIntent => return some tradeIntent
      | none => return some (.endTurn bot.roomPlayerId)

/-- `dice` is what `rollDice` picks. -/
def chooseIntentForBot (dice : DiceRoll) (state : GameEngineState) (bot : GameEnginePlayer) :
    Checked (Option GameEngineIntent) :=
  match state.phase with
  | .awaitingFirstTurn | .awaitingRoll =>
    if bot.inJail && shouldPayJailFine bot then return some (.payJailFine bot.roomPlayerId)
    else return some (.rollAndMove bot.roomPlayerId [.int dice.1, .int dice.2])
  | .awaitingPropertyDecision => return some (choosePropertyDecision state bot)
  | .awaitingAuctionBid => return chooseAuctionDecision state bot
  | .awaitingDebtResolution => return chooseDebtDecision state bot
  | .awaitingTurnEnd =>
    match state.tradeOffer with
    | some tradeOffer => chooseTradeResponseDecision state bot tradeOffer
    | none => chooseTurnEndDecision state bot
  | _ => return none

def chooseDecision (dice : DiceRoll) (state : GameEngineState) : Checked (Option BotDecision) := do
  match findActionBot state with
  | none => return none
  | some bot =>
    match ← chooseIntentForBot dice state bot with
    | none => return none
    | some intent => return some { roomPlayerId := bot.roomPlayerId, intent }

end GameBotService

end Service
end LivePoly
