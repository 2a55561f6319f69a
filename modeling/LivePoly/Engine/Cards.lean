import LivePoly.Engine.Money
import LivePoly.Lib.Shuffle

/-!
# Engine.Cards

The two card decks of `game-engine-cards.ts`: the cards, the seeded shuffle that orders the draw
piles of a new game, drawing, and putting a used Get Out of Jail Free card back. Card titles are
left out. What a drawn card does is in `Engine.Movement`.
-/

namespace LivePoly
namespace Engine

open Checked

def chanceCards : List GameEngineCard :=
  [ ⟨.chanceBankDividend, .collectMoney 50⟩,
    ⟨.chanceChairmanBonus, .collectMoney 150⟩,
    ⟨.chanceAdvanceToGo, .moveToTile .go true⟩,
    ⟨.chanceAdvanceToSpain, .moveToTile .spain true⟩,
    ⟨.chanceAdvanceToUk, .moveToTile .uk true⟩,
    ⟨.chanceAdvanceToLagosAirport, .moveToTile .lagosAirport true⟩,
    ⟨.chanceNearestAirport, .moveToNearest .airport true⟩,
    ⟨.chanceNearestUtility, .moveToNearest .utility true⟩,
    ⟨.chanceGoBackThree, .moveRelative (-3)⟩,
    ⟨.chanceGoToJail, .goToJail⟩,
    ⟨.chanceBuildingRepairs, .propertyRepairs 25 100⟩,
    ⟨.chancePaySchoolFees, .payMoney 50⟩,
    ⟨.chanceSpeedingFine, .payMoney 15⟩,
    ⟨.chanceLoanMatures, .collectMoney 150⟩,
    ⟨.chancePayEachPlayer, .payEachPlayer 50⟩,
    ⟨.chanceGetOutOfJailFree, .getOutOfJailFree⟩ ]

def worldFundCards : List GameEngineCard :=
  [ ⟨.worldFundReceive25, .collectMoney 25⟩,
    ⟨.worldFundBankError, .collectMoney 200⟩,
    ⟨.worldFundDoctorFee, .payMoney 50⟩,
    ⟨.worldFundSaleOfStock, .collectMoney 50⟩,
    ⟨.worldFundPayHospital, .payMoney 100⟩,
    ⟨.worldFundLifeInsurance, .collectMoney 100⟩,
    ⟨.worldFundIncomeTaxRefund, .collectMoney 20⟩,
    ⟨.worldFundBirthday, .collectFromEachPlayer 10⟩,
    ⟨.worldFundHolidayFund, .collectMoney 100⟩,
    ⟨.worldFundConsultancyFee, .collectMoney 25⟩,
    ⟨.worldFundStreetRepairs, .propertyRepairs 40 115⟩,
    ⟨.worldFundAdvanceToGo, .moveToTile .go true⟩,
    ⟨.worldFundGoToJail, .goToJail⟩,
    ⟨.worldFundBeautyContest, .collectMoney 10⟩,
    ⟨.worldFundInherit, .collectMoney 100⟩,
    ⟨.worldFundGetOutOfJailFree, .getOutOfJailFree⟩ ]

/-- `CARDS_BY_KEY.get` -/
def cardsByKey (cardKey : CardKey) : Option GameEngineCard :=
  Keyed.find GameEngineCard.key (chanceCards ++ worldFundCards) cardKey

/-! ## The seeded shuffle -/

/-- `charCodeAt` of every position: the UTF-16 code units of a string. -/
def charCodes (text : String) : List UInt32 :=
  text.toList.flatMap fun (c : Char) =>
    if c.val < 0x10000 then [c.val]
    else [(0xD800 : UInt32) + ((c.val - 0x10000) >>> 10),
      (0xDC00 : UInt32) + ((c.val - 0x10000) &&& 0x3FF)]

/-- FNV-1a over the seed. -/
def createSeededRandom (seed : String) : UInt32 :=
  (charCodes seed).foldl (fun value code => (value ^^^ code) * 16777619) 2166136261

/-- xorshift on 32 bits. -/
def nextRandom (random : UInt32) : UInt32 :=
  let value := random ^^^ (random <<< 13)
  let value := value ^^^ (value >>> 17)
  value ^^^ (value <<< 5)

def shuffleDeterministically (values : List CardKey) (seed : String) : List CardKey :=
  Shuffle.shuffleFrom nextRandom UInt32.toNat (values.length - 1) (createSeededRandom seed) values

/-- The deck of a new game; the empty seed does not shuffle. -/
def createInitialDeckState (seed : Option String) : GameEngineDecks :=
  let chanceCards := chanceCards.map GameEngineCard.key
  let worldFundCards := worldFundCards.map GameEngineCard.key
  match seed.filter (· ≠ "") with
  | some seed =>
    { chance :=
        { drawPile := shuffleDeterministically chanceCards (seed ++ ":chance"), discardPile := [] }
      worldFund :=
        { drawPile := shuffleDeterministically worldFundCards (seed ++ ":world_fund"),
          discardPile := [] } }
  | none =>
    { chance := { drawPile := chanceCards, discardPile := [] }
      worldFund := { drawPile := worldFundCards, discardPile := [] } }

/-! ## Drawing and returning -/

def getDeckKeyForCard (cardKey : CardKey) : Option GameCardDeckKey :=
  if chanceCards.any fun card => card.key = cardKey then some .chance
  else if worldFundCards.any fun card => card.key = cardKey then some .worldFund
  else none

def getDeck (state : GameEngineState) : GameCardDeckKey → GameEngineDeckState
  | .chance => state.decks.chance
  | .worldFund => state.decks.worldFund

def setDeck (state : GameEngineState) (deckKey : GameCardDeckKey) (deck : GameEngineDeckState) :
    GameEngineState :=
  { state with
    decks :=
      match deckKey with
      | .chance => { state.decks with chance := deck }
      | .worldFund => { state.decks with worldFund := deck } }

def returnGetOutOfJailCardToDeck (state : GameEngineState) (cardKey : Option CardKey) :
    Checked GameEngineState := do
  let resolvedCardKey := cardKey.getD .chanceGetOutOfJailFree
  let deckKey ← orThrow (getDeckKeyForCard resolvedCardKey)
    (.gameEngineError .cardNotFound "Card was not found")
  let deck := getDeck state deckKey
  return setDeck state deckKey { deck with discardPile := deck.discardPile ++ [resolvedCardKey] }

/-- The deck after a draw, and the key drawn. An empty draw pile takes over the discard pile. -/
def drawCard (state : GameEngineState) (deckKey : GameCardDeckKey) :
    Checked (GameEngineState × CardKey) := do
  let deck := getDeck state deckKey
  let drawPile := if 0 < deck.drawPile.length then deck.drawPile else deck.discardPile
  let discardPile := if 0 < deck.drawPile.length then deck.discardPile else []
  match drawPile with
  | [] => throwGame .cardDeckEmpty "Card deck is empty"
  | cardKey :: remainingDrawPile =>
    let card ← orThrow (cardsByKey cardKey)
      (.gameEngineError .cardNotFound "Card was not found")
    let nextDeck : GameEngineDeckState :=
      { drawPile := remainingDrawPile
        discardPile :=
          if card.effect.type = .getOutOfJailFree then discardPile else discardPile ++ [cardKey] }
    return (setDeck state deckKey nextDeck, cardKey)

end Engine
end LivePoly
