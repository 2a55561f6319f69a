import Mathlib.Algebra.BigOperators.Group.Multiset.Basic
import LivePoly.Rules.Action

/-!
# Rules.Valid

The invariant of a game. `Valid` holds in every state a game reaches; its parts are about the
players, the tiles, the decks and what the game waits for. The modules after this one show part
by part that actions keep it.
-/

namespace LivePoly
namespace Rules

open Engine Checked

/-! ## Players -/

/-- `q` is listed and still in the game. -/
def IsActive (s : GameEngineState) (q : RoomPlayerId) : Prop :=
  ∃ pl, s.player? q = some pl ∧ pl.bankrupt = false

/-- What only bankruptcy changes of a player. -/
def identity (pl : GameEnginePlayer) : RoomPlayerId × PlayerType × Bool :=
  (pl.roomPlayerId, pl.playerType, pl.bankrupt)

/-- The card of the key is one a player keeps. -/
def OpensJail (cardKey : CardKey) : Prop :=
  ∃ card, cardsByKey cardKey = some card ∧ card.effect = .getOutOfJailFree

/-- What holds of every player's record. -/
structure PlayerOk (pl : GameEnginePlayer) : Prop where
  cash : 0 ≤ pl.cash
  cards : pl.getOutOfJailFreeCards = pl.getOutOfJailFreeCardKeys.length
  keys : ∀ cardKey ∈ pl.getOutOfJailFreeCardKeys, OpensJail cardKey
  retired : pl.bankrupt = true → pl.inJail = false ∧ pl.getOutOfJailFreeCardKeys = []

structure PlayersOk (s : GameEngineState) : Prop where
  ids : (s.players.map GameEnginePlayer.roomPlayerId).Nodup
  player : ∀ pl ∈ s.players, PlayerOk pl

/-! ## Tiles -/

/-- What holds of every tile's record. -/
structure TileOk (s : GameEngineState) (x : GameEngineProperty) : Prop where
  owner : ∀ q, x.ownerRoomPlayerId = some q → IsActive s q
  unowned : x.ownerRoomPlayerId = none → x.hasBuilding = false ∧ x.mortgaged = false
  houses : 0 ≤ x.houseCount ∧ x.houseCount ≤ 4
  hotel : x.hasHotel = true → x.houseCount = 0
  street : x.hasBuilding = true → ∃ tile : PropertyTile, .property tile ∈ s.board.tiles ∧
    tile.key = x.tileKey

structure TilesOk (s : GameEngineState) : Prop where
  keys : s.properties.map GameEngineProperty.tileKey =
    (s.board.tiles.filterMap GameTile.ownable?).map OwnableTile.key
  tile : ∀ x ∈ s.properties, TileOk s x
  clear : ∀ tile tile' : PropertyTile, .property tile ∈ s.board.tiles →
    .property tile' ∈ s.board.tiles → tile.setKey = tile'.setKey →
    ∀ x x', s.property? tile.key = some x → s.property? tile'.key = some x' →
      x.hasBuilding = true → x'.mortgaged = false

/-! ## Decks -/

/-- The cards of a deck. -/
def deckCards : GameCardDeckKey → List GameEngineCard
  | .chance => chanceCards
  | .worldFund => worldFundCards

/-- The cards the players hold. -/
def heldCards (s : GameEngineState) : Multiset CardKey :=
  (s.players.map fun pl => (pl.getOutOfJailFreeCardKeys : Multiset CardKey)).sum

/-- The deck a card belongs to. -/
def deckOf (cardKey : CardKey) : GameCardDeckKey :=
  if cardKey ∈ chanceCards.map GameEngineCard.key then .chance else .worldFund

/-- The piles of a deck and the cards of it the players hold. -/
def cardsOf (s : GameEngineState) (deckKey : GameCardDeckKey) : Multiset CardKey :=
  (getDeck s deckKey).drawPile + (getDeck s deckKey).discardPile +
    (heldCards s).filter fun cardKey => deckOf cardKey = deckKey

/-- Every card of a deck is in one of its piles or held by a player. -/
def DecksOk (s : GameEngineState) : Prop :=
  ∀ deckKey, cardsOf s deckKey = (deckCards deckKey).map GameEngineCard.key

/-! ## What the game waits for -/

/-- The game goes on. -/
def InProgress (s : GameEngineState) : Prop := s.phase ≠ .finished ∧ s.phase ≠ .cancelled

structure AuctionOk (s : GameEngineState) (auction : GameEngineAuction) : Prop where
  remains : auction.activeBidders ≠ []
  opening : auction.highestBidderRoomPlayerId = none → auction.currentBid = 0
  leader : auction.highestBidderRoomPlayerId.isSome → minimumAuctionBid ≤ auction.currentBid
  leaderActive : ∀ q, auction.highestBidderRoomPlayerId = some q →
    q ∈ auction.activeRoomPlayerIds
  retired : ∀ q ∈ auction.activeRoomPlayerIds, ∀ pl, s.player? q = some pl →
    pl.bankrupt = true → pl.cash = 0
  free : ∃ tile property, (s.board.tile? auction.tileKey).bind GameTile.ownable? = some tile ∧
    s.property? auction.tileKey = some property ∧ property.ownerRoomPlayerId = none

structure DebtOk (s : GameEngineState) (debt : GameEngineDebt) : Prop where
  debtor : debt.roomPlayerId = s.currentTurnRoomPlayerId
  amount : 0 < debt.amount
  creditor : ∀ c, debt.creditorRoomPlayerId = some c → c ≠ debt.roomPlayerId ∧
    ∃ cl, s.player? c = some cl

/-- The pending tile lies where the player on turn is, and can be bought. -/
def PendingOk (s : GameEngineState) (key : TileKey) : Prop :=
  ∃ pl tile, s.player? s.currentTurnRoomPlayerId = some pl ∧
    s.board.tiles[pl.position]? = some tile ∧ tile.key = key ∧
    isOwnableAndUnowned s tile = true

/-- Each phase has the data it waits for, and no other. -/
structure PhaseOk (s : GameEngineState) : Prop where
  pending : s.pendingTileKey.isSome ↔ s.phase = .awaitingPropertyDecision
  auction : s.auction.isSome ↔ s.phase = .awaitingAuctionBid
  debt : s.debt.isSome ↔ s.phase = .awaitingDebtResolution
  pendingOk : ∀ key, s.pendingTileKey = some key → PendingOk s key
  auctionOk : ∀ auction, s.auction = some auction → AuctionOk s auction
  debtOk : ∀ debt, s.debt = some debt → DebtOk s debt

/-- The player on turn is in the game, and enough players are. -/
structure TableOk (s : GameEngineState) : Prop where
  turn : InProgress s → IsActive s s.currentTurnRoomPlayerId
  company : InProgress s → ¬ EndsGame s
  offer : ∀ trade, s.tradeOffer = some trade → InProgress s ∧ WellFormedOffer trade

structure Valid (s : GameEngineState) : Prop where
  players : PlayersOk s
  tiles : TilesOk s
  decks : DecksOk s
  phase : PhaseOk s
  table : TableOk s

/-! ## Consequences -/

theorem board_keys_nodup : (classicGameBoard.tiles.map GameTile.key).Nodup := by decide +kernel

theorem board_index : ∀ i : Fin 40, (classicGameBoard.tiles[i.val]?).map GameTile.index =
    some i.val := by
  decide +kernel

theorem ownable_keys_nodup :
    ((classicGameBoard.tiles.filterMap GameTile.ownable?).map OwnableTile.key).Nodup := by
  decide +kernel

theorem TilesOk.keys_nodup {s : GameEngineState} (h : TilesOk s) :
    (s.properties.map GameEngineProperty.tileKey).Nodup := by
  rw [h.keys, GameEngineState.board_eq]
  exact ownable_keys_nodup

theorem PlayersOk.funded {s : GameEngineState} (h : PlayersOk s) : Funded s where
  ids := h.ids
  cash := fun pl hpl => (h.player pl hpl).cash

theorem Valid.sound {s : GameEngineState} (h : Valid s) : Sound s where
  toFunded := h.players.funded
  keys := h.tiles.keys_nodup
  offer := fun trade htrade => (h.table.offer trade htrade).2

theorem Valid.playerOk {s : GameEngineState} (h : Valid s) {q : RoomPlayerId}
    {pl : GameEnginePlayer} (hpl : s.player? q = some pl) : PlayerOk pl :=
  h.players.player pl (GameEngineState.player?_mem hpl)

theorem Valid.tileOk {s : GameEngineState} (h : Valid s) {key : TileKey}
    {x : GameEngineProperty} (hx : s.property? key = some x) : TileOk s x :=
  h.tiles.tile x (GameEngineState.property?_mem hx)

theorem PlayersOk.find {s : GameEngineState} (h : PlayersOk s) {pl : GameEnginePlayer}
    (hpl : pl ∈ s.players) : s.player? pl.roomPlayerId = some pl :=
  Keyed.find_of_mem _ h.ids hpl

theorem TilesOk.find {s : GameEngineState} (h : TilesOk s) {x : GameEngineProperty}
    (hx : x ∈ s.properties) : s.property? x.tileKey = some x :=
  Keyed.find_of_mem _ h.keys_nodup hx

/-! ## The same players -/

/-- Nobody went bankrupt between the states. -/
def SamePlayers (s s' : GameEngineState) : Prop :=
  s'.players.map identity = s.players.map identity

theorem isActive_iff {s : GameEngineState} (hids : (s.players.map
    GameEnginePlayer.roomPlayerId).Nodup) {q : RoomPlayerId} :
    IsActive s q ↔ ∃ playerType, (q, playerType, false) ∈ s.players.map identity := by
  constructor
  · rintro ⟨pl, hpl, hactive⟩
    refine ⟨pl.playerType, List.mem_map.mpr ⟨pl, GameEngineState.player?_mem hpl, ?_⟩⟩
    rw [identity, hactive, GameEngineState.player?_id hpl]
  · rintro ⟨playerType, hmem⟩
    obtain ⟨pl, hpl, hid⟩ := List.mem_map.mp hmem
    simp only [identity, Prod.mk.injEq] at hid
    obtain ⟨rfl, _, hactive⟩ := hid
    exact ⟨pl, Keyed.find_of_mem _ hids hpl, hactive⟩

theorem SamePlayers.ids {s s' : GameEngineState} (h : SamePlayers s s') :
    s'.players.map GameEnginePlayer.roomPlayerId =
      s.players.map GameEnginePlayer.roomPlayerId := by
  have hmap := congrArg (List.map Prod.fst) h
  rw [List.map_map, List.map_map] at hmap
  exact hmap

theorem SamePlayers.isActive {s s' : GameEngineState} (h : SamePlayers s s')
    (hids : (s.players.map GameEnginePlayer.roomPlayerId).Nodup) {q : RoomPlayerId} :
    IsActive s' q ↔ IsActive s q := by
  rw [isActive_iff hids, isActive_iff (h.ids ▸ hids), h]

theorem SamePlayers.listed {s s' : GameEngineState} (h : SamePlayers s s') {q : RoomPlayerId} :
    (s'.player? q).isSome = (s.player? q).isSome := by
  have hmem : (s'.player? q).isSome ↔ (s.player? q).isSome := by
    unfold GameEngineState.player?
    rw [Keyed.find_isSome_iff, Keyed.find_isSome_iff, h.ids]
  exact Bool.eq_iff_iff.mpr hmem

/-- Whether the game ends depends on who is bankrupt and who is human. -/
theorem endsGame_iff {s : GameEngineState} :
    EndsGame s ↔ ((s.players.map identity).filter fun x => !x.2.2).length ≤ 1 ∨
      ∀ x ∈ s.players.map identity, x.2.2 = false → x.2.1 ≠ .human := by
  have hlength : (getActivePlayers s).length =
      ((s.players.map identity).filter fun x => !x.2.2).length := by
    unfold getActivePlayers
    rw [List.length_insertionSort, List.filter_map, List.length_map]
    rfl
  have hhuman : hasNoActiveHumanPlayers (getActivePlayers s) = true ↔
      ∀ x ∈ s.players.map identity, x.2.2 = false → x.2.1 ≠ .human := by
    unfold hasNoActiveHumanPlayers getActivePlayers
    simp only [Bool.not_eq_true', List.any_eq_false, List.mem_insertionSort, List.mem_filter,
      List.forall_mem_map, identity, decide_eq_true_eq, and_imp]
  rw [EndsGame, hlength, hhuman]

theorem SamePlayers.endsGame {s s' : GameEngineState} (h : SamePlayers s s') :
    EndsGame s' ↔ EndsGame s := by
  rw [endsGame_iff, endsGame_iff, h]

end Rules
end LivePoly
