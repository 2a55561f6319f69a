import LivePoly.Rules.Progress

/-!
# Rules.Guarantees

What the invariant says of every state a game reaches: each phase has the data it waits for, the
records of the tiles fit the board, and no card is lost.
-/

namespace LivePoly
namespace Rules

open Engine Checked

/-! ## Phases -/

/-- Each phase has its data, and enough players are in the game. -/
structure PhaseCoherent (s : GameEngineState) : Prop where
  pending : s.pendingTileKey.isSome ↔ s.phase = .awaitingPropertyDecision
  pendingTile : ∀ key, s.pendingTileKey = some key → ∃ pl tile ownable property,
    s.player? s.currentTurnRoomPlayerId = some pl ∧ s.board.tiles[pl.position]? = some tile ∧
      tile.key = key ∧ tile.ownable? = some ownable ∧ s.property? key = some property ∧
      property.ownerRoomPlayerId = none
  auction : s.auction.isSome ↔ s.phase = .awaitingAuctionBid
  auctionTile : ∀ auction, s.auction = some auction → ∃ property,
    s.property? auction.tileKey = some property ∧ property.ownerRoomPlayerId = none
  debt : s.debt.isSome ↔ s.phase = .awaitingDebtResolution
  debtor : ∀ debt, s.debt = some debt →
    debt.roomPlayerId = s.currentTurnRoomPlayerId ∧ 0 < debt.amount ∧
      ∀ creditor, debt.creditorRoomPlayerId = some creditor →
        creditor ≠ debt.roomPlayerId ∧ ∃ cl, s.player? creditor = some cl
  current : ∃ pl, s.player? s.currentTurnRoomPlayerId = some pl ∧ pl.bankrupt = false
  active : 2 ≤ (s.players.filter fun pl => !pl.bankrupt).length
  human : ∃ pl ∈ s.players, pl.bankrupt = false ∧ pl.playerType = .human

section Phases

variable {input : CreateInitialGameStateInput} {s : GameEngineState}

theorem PendingOk.tile {key : TileKey} (h : PendingOk s key) : ∃ pl tile ownable property,
    s.player? s.currentTurnRoomPlayerId = some pl ∧ s.board.tiles[pl.position]? = some tile ∧
      tile.key = key ∧ tile.ownable? = some ownable ∧ s.property? key = some property ∧
      property.ownerRoomPlayerId = none := by
  obtain ⟨pl, tile, hpl, htile, rfl, hfree⟩ := h
  simp only [isOwnableAndUnowned, isOwnableTile, Bool.and_eq_true, Option.any_eq_true,
    Option.isNone_iff_eq_none] at hfree
  obtain ⟨hown, property, hproperty, howner⟩ := hfree
  obtain ⟨ownable, hownable⟩ := Option.isSome_iff_exists.mp hown
  exact ⟨pl, tile, ownable, property, hpl, htile, rfl, hownable, hproperty, howner⟩

theorem Valid.company (hv : Valid s) (hp : InProgress s) :
    2 ≤ (s.players.filter fun pl => !pl.bankrupt).length ∧
      ∃ pl ∈ s.players, pl.bankrupt = false ∧ pl.playerType = .human := by
  have hcompany := hv.table.company hp
  rw [EndsGame, not_or, not_le] at hcompany
  obtain ⟨htwo, hhuman⟩ := hcompany
  constructor
  · rwa [getActivePlayers, List.length_insertionSort] at htwo
  · simp only [hasNoActiveHumanPlayers, getActivePlayers, Bool.not_eq_true', Bool.not_eq_false,
      List.any_eq_true, List.mem_insertionSort, List.mem_filter, decide_eq_true_eq] at hhuman
    obtain ⟨pl, ⟨hmem, hactive⟩, htype⟩ := hhuman
    exact ⟨pl, hmem, hactive, htype⟩

theorem Valid.phaseCoherent (hv : Valid s) (hp : InProgress s) : PhaseCoherent s := by
  obtain ⟨htwo, hhuman⟩ := hv.company hp
  exact {
    pending := hv.phase.pending
    pendingTile := fun key hkey => (hv.phase.pendingOk key hkey).tile
    auction := hv.phase.auction
    auctionTile := fun auction hauction => by
      obtain ⟨_, property, _, hproperty, howner⟩ := (hv.phase.auctionOk auction hauction).free
      exact ⟨property, hproperty, howner⟩
    debt := hv.phase.debt
    debtor := fun debt hdebt => by
      obtain ⟨hdebtor, hamount, hcreditor⟩ := hv.phase.debtOk debt hdebt
      exact ⟨hdebtor, hamount, hcreditor⟩
    current := hv.table.turn hp
    active := htwo
    human := hhuman }

/-- In every state a game reaches, each phase has the data it waits for. -/
theorem reachable_phaseCoherent (hi : ValidInput input) (h : Reachable input s)
    (hp : InProgress s) : PhaseCoherent s :=
  (reachable_valid hi h).phaseCoherent hp

/-- A declined tile is up for auction. -/
theorem threePlayers_phaseCoherent : ∃ s, Reachable threePlayers s ∧
    s.phase = .awaitingAuctionBid ∧ PhaseCoherent s := by
  obtain ⟨r, hr, hphase⟩ := exists_ok_of_any (by decide +kernel :
    (playThree [.rollAndMove ⟨1⟩ [.int 1, .int 2], .declinePropertyPurchase ⟨1⟩]).toOption.any
      (fun r => r.state.phase = .awaitingAuctionBid) = true)
  have hreach : Reachable threePlayers r.state := playRoom_reachable hr
  have hphase : r.state.phase = .awaitingAuctionBid := of_decide_eq_true hphase
  have hp : InProgress r.state := by
    rw [inProgress_iff, hphase]
    rfl
  exact ⟨r.state, hreach, hphase, reachable_phaseCoherent threePlayers_valid hreach hp⟩

end Phases

/-! ## Tiles -/

/-- The records of the tiles fit the board, and every rent is defined. -/
structure TilesRepresented (s : GameEngineState) : Prop where
  keys : s.properties.map GameEngineProperty.tileKey =
    (s.board.tiles.filterMap GameTile.ownable?).map OwnableTile.key
  once : (s.properties.map GameEngineProperty.tileKey).Nodup
  owner : ∀ x ∈ s.properties, ∀ q, x.ownerRoomPlayerId = some q →
    ∃ pl, s.player? q = some pl ∧ pl.bankrupt = false
  unowned : ∀ x ∈ s.properties, x.ownerRoomPlayerId = none →
    x.houseCount = 0 ∧ x.hasHotel = false ∧ x.mortgaged = false
  houses : ∀ x ∈ s.properties, 0 ≤ x.houseCount ∧ x.houseCount ≤ 4
  hotel : ∀ x ∈ s.properties, x.hasHotel = true → x.houseCount = 0
  street : ∀ x ∈ s.properties, x.hasBuilding = true → ∃ tile : PropertyTile,
    .property tile ∈ s.board.tiles ∧ tile.key = x.tileKey
  clear : ∀ tile tile' : PropertyTile, .property tile ∈ s.board.tiles →
    .property tile' ∈ s.board.tiles → tile.setKey = tile'.setKey →
    ∀ x x', s.property? tile.key = some x → s.property? tile'.key = some x' →
      x.hasBuilding = true → x'.mortgaged = false
  rent : ∀ x ∈ s.properties, x.ownerRoomPlayerId.isSome → x.mortgaged = false →
    ∃ tile, (s.board.tile? x.tileKey).bind GameTile.ownable? = some tile ∧
      ∀ dice : DiceRoll, 0 < dice.1 + dice.2 →
        ∃ rent, calculateRent s tile dice = .ok (some rent) ∧ 0 < rent

section Tiles

variable {input : CreateInitialGameStateInput} {s : GameEngineState}

/-- The records are those of the board's ownable tiles. -/
def OnBoard (s : GameEngineState) : Prop :=
  s.properties.map GameEngineProperty.tileKey =
    (s.board.tiles.filterMap GameTile.ownable?).map OwnableTile.key

theorem OnBoard.ownable (h : OnBoard s) {x : GameEngineProperty} (hx : x ∈ s.properties) :
    ∃ tile, (s.board.tile? x.tileKey).bind GameTile.ownable? = some tile := by
  have hkey : x.tileKey ∈ (s.board.tiles.filterMap GameTile.ownable?).map OwnableTile.key := by
    rw [← h]
    exact List.mem_map_of_mem hx
  obtain ⟨tile, htile, hkey⟩ := List.mem_map.mp hkey
  obtain ⟨found, hfound, hown⟩ := List.mem_filterMap.mp htile
  refine ⟨tile, ?_⟩
  rw [← hkey, ownable?_key hown, tile?_of_mem hfound]
  exact hown

theorem OnBoard.keys_nodup (h : OnBoard s) :
    (s.properties.map GameEngineProperty.tileKey).Nodup := by
  rw [h, GameEngineState.board_eq]
  exact ownable_keys_nodup

theorem TilesOk.ownable (ht : TilesOk s) {x : GameEngineProperty} (hx : x ∈ s.properties) :
    ∃ tile, (s.board.tile? x.tileKey).bind GameTile.ownable? = some tile :=
  OnBoard.ownable ht.keys hx

theorem TilesOk.represented (ht : TilesOk s) : TilesRepresented s := by
  refine ⟨ht.keys, ht.keys_nodup, fun x hx => (ht.tile x hx).owner, ?_,
    fun x hx => (ht.tile x hx).houses, fun x hx => (ht.tile x hx).hotel,
    fun x hx => (ht.tile x hx).street, ht.clear, ?_⟩
  · intro x hx hnone
    obtain ⟨hbuilding, hmortgaged⟩ := (ht.tile x hx).unowned hnone
    have h0 := (ht.tile x hx).houses.1
    simp only [GameEngineProperty.hasBuilding, Bool.or_eq_false_iff,
      decide_eq_false_iff_not] at hbuilding
    exact ⟨by omega, hbuilding.2, hmortgaged⟩
  · intro x hx _ _
    obtain ⟨tile, htile⟩ := ht.ownable hx
    refine ⟨tile, htile, fun dice hdice => ?_⟩
    obtain ⟨rent, hrent, _, hpos⟩ := calculateRent_pos ht htile (ht.find hx) dice
    exact ⟨rent, hrent, hpos hdice⟩

/-- In every state a game reaches, the records of the tiles fit the board. -/
theorem reachable_tilesRepresented (hi : ValidInput input) (h : Reachable input s) :
    TilesRepresented s :=
  (reachable_valid hi h).tiles.represented

/-- A bought tile has an owner. -/
theorem threePlayers_tilesRepresented : ∃ s, Reachable threePlayers s ∧
    (s.property? .ghana).bind GameEngineProperty.ownerRoomPlayerId = some ⟨1⟩ ∧
      TilesRepresented s := by
  obtain ⟨r, hr, howner⟩ := exists_ok_of_any (by decide +kernel :
    (playThree [.rollAndMove ⟨1⟩ [.int 1, .int 2], .buyProperty ⟨1⟩]).toOption.any
      (fun r => (r.state.property? .ghana).bind GameEngineProperty.ownerRoomPlayerId =
        some ⟨1⟩) = true)
  have hreach : Reachable threePlayers r.state := playRoom_reachable hr
  exact ⟨r.state, hreach, of_decide_eq_true howner,
    reachable_tilesRepresented threePlayers_valid hreach⟩

end Tiles

/-! ## Building sets -/

/-- A tile of the set carries a house or a hotel. -/
def CarriesBuilding (s : GameEngineState) (setKey : PropertySetKey) : Prop :=
  ∃ tile ∈ s.board.setTiles setKey, ∃ x, s.property? tile.key = some x ∧ x.hasBuilding = true

/-- A set with buildings has one owner, and its tiles are built on evenly. -/
structure SetIntegrity (s : GameEngineState) : Prop where
  owned : ∀ setKey, CarriesBuilding s setKey → ∃ p, SetOwned s p setKey fun _ => True
  even : ∀ setKey, CarriesBuilding s setKey → ∀ tile ∈ s.board.setTiles setKey,
    ∀ tile' ∈ s.board.setTiles setKey, ∀ x x', s.property? tile.key = some x →
      s.property? tile'.key = some x' → x.level ≤ x'.level + 1

/-! ## Cards -/

/-- The cards of a deck that players hold, player by player. -/
def heldOfDeck (s : GameEngineState) (deckKey : GameCardDeckKey) : List CardKey :=
  (s.players.flatMap GameEnginePlayer.getOutOfJailFreeCardKeys).filter fun cardKey =>
    deckOf cardKey = deckKey

/-- No card is lost and no draw fails. -/
structure CardsConserved (s : GameEngineState) : Prop where
  deck : ∀ deckKey, ((getDeck s deckKey).drawPile ++ (getDeck s deckKey).discardPile ++
    heldOfDeck s deckKey).Perm ((deckCards deckKey).map GameEngineCard.key)
  held : ∀ pl ∈ s.players, pl.getOutOfJailFreeCards = pl.getOutOfJailFreeCardKeys.length
  draw : ∀ p deckKey, (s.player? p).isSome → ∃ r, drawAndApplyCard s p deckKey = .ok r
  roll : ∀ p dice code message,
    GameEngineService.rollAndMove s p dice = .error (.gameEngineError code message) →
      code ≠ .cardDeckEmpty ∧ code ≠ .cardNotFound

section Cards

variable {input : CreateInitialGameStateInput} {s : GameEngineState}

theorem heldCards_coe : heldCards s =
    (s.players.flatMap GameEnginePlayer.getOutOfJailFreeCardKeys : Multiset CardKey) := by
  unfold heldCards
  induction s.players with
  | nil => rfl
  | cons pl players ih =>
    rw [List.map_cons, List.sum_cons, ih, List.flatMap_cons, ← Multiset.coe_add]

theorem ofDeck_heldCards (deckKey : GameCardDeckKey) :
    ofDeck deckKey (heldCards s) = (heldOfDeck s deckKey : Multiset CardKey) := by
  rw [ofDeck, heldCards_coe, Multiset.filter_coe]
  rfl

theorem rollAndMove_error (hv : Valid s) {p : RoomPlayerId} {dice : List JsNumber}
    {e : EngineError} (h : GameEngineService.rollAndMove s p dice = .error e) :
    assertCanRoll s = .error e ∨ assertCurrentTurn s p = .error e ∨
      assertValidDice dice = .error e := by
  simp only [GameEngineService.rollAndMove, bind_eq_error] at h
  rcases h with h | ⟨_, hcan, h | ⟨_, hturn, h | ⟨dice', hdice, h⟩⟩⟩
  · exact .inl h
  · exact .inr (.inl h)
  · exact .inr (.inr h)
  · exfalso
    obtain ⟨pl, ho⟩ := assertCurrentTurn_eq_ok.mp hturn
    have hphase : AwaitsRoll s := by
      simp only [assertCanRoll, bind_eq_ok, rejectIf_eq_ok] at hcan
      obtain ⟨_, _, _, _, hphase⟩ := hcan
      by_contra hnot
      exact hphase (not_or.mp hnot)
    obtain ⟨r, hr⟩ := rollAndMove_succeeds hv ho hphase dice'
    rw [h] at hr
    cases hr

/-- In every state a game reaches, the piles of a deck and the cards held are the deck. -/
theorem reachable_cardsConserved (hi : ValidInput input) (h : Reachable input s) :
    CardsConserved s := by
  have hv : Valid s := reachable_valid hi h
  refine ⟨?_, fun pl hpl => (hv.players.player pl hpl).cards, ?_, ?_⟩
  · intro deckKey
    rw [← Multiset.coe_eq_coe, ← Multiset.coe_add, ← Multiset.coe_add, ← ofDeck_heldCards]
    exact hv.decks deckKey
  · intro p deckKey hp
    obtain ⟨pl, hpl⟩ := Option.isSome_iff_exists.mp hp
    exact drawAndApplyCard_succeeds hv hpl deckKey
  · intro p dice code message herror
    rcases rollAndMove_error hv herror with h | h | h
    · simp only [assertCanRoll, assertGameActive, assertNoDebtResolution, rejectIf,
        bind_eq_error, throwIf_eq_error] at h
      rcases h with ⟨_, h⟩ | ⟨_, _, ⟨_, h⟩ | ⟨_, _, _, h⟩⟩ <;> cases h <;> decide
    · simp only [assertCurrentTurn, findPlayer, findPlayerOr, rejectIf, bind_eq_error,
        throwIf_eq_error, orThrow_eq_error] at h
      rcases h with ⟨_, h⟩ | ⟨_, _, ⟨_, h⟩ | ⟨_, _, _, h⟩⟩ <;> cases h <;> decide
    · unfold assertValidDice at h
      split at h
      · cases h
      · cases h
        decide

/-- A card that was drawn is on the discard pile. -/
theorem threePlayers_cardsConserved : ∃ s, Reachable threePlayers s ∧
    s.decks.chance.discardPile.length = 1 ∧ CardsConserved s := by
  obtain ⟨r, hr, hdrawn⟩ := exists_ok_of_any (by decide +kernel :
    (playThree [.rollAndMove ⟨1⟩ [.int 3, .int 4]]).toOption.any
      (fun r => r.state.decks.chance.discardPile.length = 1) = true)
  have hreach : Reachable threePlayers r.state := playRoom_reachable hr
  exact ⟨r.state, hreach, of_decide_eq_true hdrawn,
    reachable_cardsConserved threePlayers_valid hreach⟩

end Cards

end Rules
end LivePoly
