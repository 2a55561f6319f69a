import LivePoly.Lib.Keyed

/-!
# Engine.Board

The game board: tile kinds, the forty tiles of the classic board, and the two lookups of
`game-board.ts`. Tile keys are an enumeration of the keys of the classic board; `unknown` stands
for every other string a client may send. Names of tiles and of the board are left out: no game
rule reads them.
-/

namespace LivePoly
namespace Engine

inductive GameBoardKey where
  | classic
  deriving DecidableEq

inductive PropertySetKey where
  | brown | lightBlue | pink | orange | red | yellow | green | darkBlue
  deriving DecidableEq

inductive TileKey where
  | go | nigeria | worldFund1 | ghana | incomeTax | lagosAirport | southAfrica | chance1 | egypt
  | morocco | jail | brazil | electricCompany | argentina | mexico | newYorkAirport | usa
  | worldFund2 | canada | jamaica | freeParking | uk | chance2 | france | spain | londonAirport
  | germany | italy | waterWorks | netherlands | goToJail | india | china | worldFund3 | japan
  | tokyoAirport | chance3 | southKorea | luxuryTax | australia
  | unknown (key : String)
  deriving DecidableEq

inductive GameTileKind where
  | go | property | airport | utility | tax | chance | worldFund | jail | freeParking | goToJail
  deriving DecidableEq

structure BaseGameTile where
  index : Nat
  key : TileKey
  deriving DecidableEq

structure PropertyTile extends BaseGameTile where
  setKey : PropertySetKey
  price : Int
  baseRent : Int
  rentByHouseCount : List Int
  hotelRent : Int
  houseCost : Int
  mortgageValue : Int
  deriving DecidableEq

structure AirportTile extends BaseGameTile where
  price : Int
  rentByOwnedCount : List Int
  mortgageValue : Int
  deriving DecidableEq

structure UtilityTile extends BaseGameTile where
  price : Int
  rentMultiplierByOwnedCount : List Int
  mortgageValue : Int
  deriving DecidableEq

structure TaxTile extends BaseGameTile where
  amount : Int
  deriving DecidableEq

inductive GameTile where
  | go (tile : BaseGameTile)
  | property (tile : PropertyTile)
  | airport (tile : AirportTile)
  | utility (tile : UtilityTile)
  | tax (tile : TaxTile)
  | chance (tile : BaseGameTile)
  | worldFund (tile : BaseGameTile)
  | jail (tile : BaseGameTile)
  | freeParking (tile : BaseGameTile)
  | goToJail (tile : BaseGameTile)
  deriving DecidableEq

namespace GameTile

def base : GameTile → BaseGameTile
  | go t | chance t | worldFund t | jail t | freeParking t | goToJail t => t
  | property t => t.toBaseGameTile
  | airport t => t.toBaseGameTile
  | utility t => t.toBaseGameTile
  | tax t => t.toBaseGameTile

def index (tile : GameTile) : Nat := tile.base.index

def key (tile : GameTile) : TileKey := tile.base.key

def kind : GameTile → GameTileKind
  | go _ => .go
  | property _ => .property
  | airport _ => .airport
  | utility _ => .utility
  | tax _ => .tax
  | chance _ => .chance
  | worldFund _ => .worldFund
  | jail _ => .jail
  | freeParking _ => .freeParking
  | goToJail _ => .goToJail

end GameTile

/-- The union `PropertyTile | AirportTile | UtilityTile`: `OwnableTile`, `MortgageableTile`,
`RentableTile`, `TradeableTile` and `AssetTile` of the source. -/
inductive OwnableTile where
  | property (tile : PropertyTile)
  | airport (tile : AirportTile)
  | utility (tile : UtilityTile)
  deriving DecidableEq

namespace OwnableTile

def key : OwnableTile → TileKey
  | property t => t.key
  | airport t => t.key
  | utility t => t.key

def price : OwnableTile → Int
  | property t => t.price
  | airport t => t.price
  | utility t => t.price

def mortgageValue : OwnableTile → Int
  | property t => t.mortgageValue
  | airport t => t.mortgageValue
  | utility t => t.mortgageValue

end OwnableTile

/-- The type guard `isOwnableTile` and its copies, with the narrowed tile. -/
def GameTile.ownable? : GameTile → Option OwnableTile
  | .property t => some (.property t)
  | .airport t => some (.airport t)
  | .utility t => some (.utility t)
  | _ => none

/-- The type guard `tile.kind === 'property'`, with the narrowed tile. -/
def GameTile.property? : GameTile → Option PropertyTile
  | .property t => some t
  | _ => none

def isOwnableTile (tile : GameTile) : Bool := tile.ownable?.isSome

structure GameBoard where
  passGoCash : Int
  jailPosition : Nat
  tiles : List GameTile

def property (index : Nat) (key : TileKey) (setKey : PropertySetKey) (price baseRent : Int)
    (rentByHouseCount : List Int) (hotelRent houseCost : Int) : GameTile :=
  .property { index, key, setKey, price, baseRent, rentByHouseCount, hotelRent, houseCost,
              mortgageValue := price / 2 }

def airport (index : Nat) (key : TileKey) : GameTile :=
  .airport { index, key, price := 200, rentByOwnedCount := [25, 50, 100, 200],
             mortgageValue := 100 }

def utility (index : Nat) (key : TileKey) : GameTile :=
  .utility { index, key, price := 150, rentMultiplierByOwnedCount := [4, 10],
             mortgageValue := 75 }

def tax (index : Nat) (key : TileKey) (amount : Int) : GameTile :=
  .tax { index, key, amount }

def classicGameBoard : GameBoard where
  passGoCash := 200
  jailPosition := 10
  tiles :=
    [ .go ⟨0, .go⟩,
      property 1 .nigeria .brown 60 2 [10, 30, 90, 160] 250 50,
      .worldFund ⟨2, .worldFund1⟩,
      property 3 .ghana .brown 60 4 [20, 60, 180, 320] 450 50,
      tax 4 .incomeTax 200,
      airport 5 .lagosAirport,
      property 6 .southAfrica .lightBlue 100 6 [30, 90, 270, 400] 550 50,
      .chance ⟨7, .chance1⟩,
      property 8 .egypt .lightBlue 100 6 [30, 90, 270, 400] 550 50,
      property 9 .morocco .lightBlue 120 8 [40, 100, 300, 450] 600 50,
      .jail ⟨10, .jail⟩,
      property 11 .brazil .pink 140 10 [50, 150, 450, 625] 750 100,
      utility 12 .electricCompany,
      property 13 .argentina .pink 140 10 [50, 150, 450, 625] 750 100,
      property 14 .mexico .pink 160 12 [60, 180, 500, 700] 900 100,
      airport 15 .newYorkAirport,
      property 16 .usa .orange 180 14 [70, 200, 550, 750] 950 100,
      .worldFund ⟨17, .worldFund2⟩,
      property 18 .canada .orange 180 14 [70, 200, 550, 750] 950 100,
      property 19 .jamaica .orange 200 16 [80, 220, 600, 800] 1000 100,
      .freeParking ⟨20, .freeParking⟩,
      property 21 .uk .red 220 18 [90, 250, 700, 875] 1050 150,
      .chance ⟨22, .chance2⟩,
      property 23 .france .red 220 18 [90, 250, 700, 875] 1050 150,
      property 24 .spain .red 240 20 [100, 300, 750, 925] 1100 150,
      airport 25 .londonAirport,
      property 26 .germany .yellow 260 22 [110, 330, 800, 975] 1150 150,
      property 27 .italy .yellow 260 22 [110, 330, 800, 975] 1150 150,
      utility 28 .waterWorks,
      property 29 .netherlands .yellow 280 24 [120, 360, 850, 1025] 1200 150,
      .goToJail ⟨30, .goToJail⟩,
      property 31 .india .green 300 26 [130, 390, 900, 1100] 1275 200,
      property 32 .china .green 300 26 [130, 390, 900, 1100] 1275 200,
      .worldFund ⟨33, .worldFund3⟩,
      property 34 .japan .green 320 28 [150, 450, 1000, 1200] 1400 200,
      airport 35 .tokyoAirport,
      .chance ⟨36, .chance3⟩,
      property 37 .southKorea .darkBlue 350 35 [175, 500, 1100, 1300] 1500 200,
      tax 38 .luxuryTax 100,
      property 39 .australia .darkBlue 400 50 [200, 600, 1400, 1700] 2000 200 ]

def getGameBoard : GameBoardKey → GameBoard
  | .classic => classicGameBoard

/-- `board.tiles.find((candidate) => candidate.key === key)` -/
def GameBoard.tile? (board : GameBoard) (key : TileKey) : Option GameTile :=
  Keyed.find GameTile.key board.tiles key

/-- The tiles of a colour set, in board order. -/
def GameBoard.setTiles (board : GameBoard) (setKey : PropertySetKey) : List PropertyTile :=
  (board.tiles.filterMap GameTile.property?).filter fun tile => tile.setKey = setKey

end Engine
end LivePoly
