import Mathlib.Data.Multiset.Bind
import LivePoly.Rules.Reachable

/-!
# Rules.Progress

What cannot fail. In a state that meets the invariant a roll of the player on turn goes through
to its end, whatever tile and card it leads to.
-/

namespace LivePoly
namespace Rules

open Engine Checked

/-! ## The board -/

/-- Every entry of the rent table of a tile is positive, and houses index the table. -/
def chargesRent : OwnableTile → Bool
  | .property tile =>
    tile.rentByHouseCount.all (0 < ·) && tile.rentByHouseCount.length = 4 && 0 < tile.baseRent &&
      0 < tile.hotelRent
  | .airport tile => tile.rentByOwnedCount.all (0 < ·) && tile.rentByOwnedCount.length ≠ 0
  | .utility tile =>
    tile.rentMultiplierByOwnedCount.all (0 < ·) && tile.rentMultiplierByOwnedCount.length ≠ 0

theorem board_chargesRent :
    ∀ tile ∈ classicGameBoard.tiles.filterMap GameTile.ownable?, chargesRent tile = true := by
  decide +kernel

/-- The amount of a tax tile. -/
def taxAmount? : GameTile → Option Int
  | .tax tile => some tile.amount
  | _ => none

theorem board_taxes : ∀ amount ∈ classicGameBoard.tiles.filterMap taxAmount?, 0 ≤ amount := by
  decide +kernel

/-- The card leads to a tile of the board. -/
def leadsSomewhere : GameCardEffect → Bool
  | .moveToTile tileKey _ => (classicGameBoard.tile? tileKey).isSome
  | .moveRelative spaces => -40 ≤ spaces
  | .moveToNearest tileKind _ => classicGameBoard.tiles.any fun tile => tile.kind = tileKind
  | _ => true

theorem cards_lead : ∀ card ∈ chanceCards ++ worldFundCards, leadsSomewhere card.effect := by
  decide +kernel

theorem tile?_of_mem {s : GameEngineState} {tile : GameTile} (h : tile ∈ s.board.tiles) :
    s.board.tile? tile.key = some tile := by
  rw [GameEngineState.board_eq] at h ⊢
  exact Keyed.find_of_mem _ board_keys_nodup h

theorem jsIndex_mem {α : Type} {values : List α} {index : Int} {a : α}
    (h : jsIndex values index = some a) : a ∈ values := by
  unfold jsIndex at h
  split at h
  · exact List.mem_of_getElem? h
  · cases h

theorem jsIndex_of_lt {α : Type} {values : List α} {index : Int} (h0 : 0 ≤ index)
    (hlt : index < values.length) : ∃ a, jsIndex values index = some a := by
  have hlt : index.toNat < values.length := by omega
  exact ⟨values[index.toNat], by rw [jsIndex, if_pos h0, List.getElem?_eq_getElem hlt]⟩

section Code

variable {s : GameEngineState} {p : RoomPlayerId} {pl : GameEnginePlayer}

/-! ## Rent and tax -/

theorem table_entry {values : List Int} (hpos : values.all (0 < ·) = true)
    (hlength : values.length ≠ 0) (index : Int) :
    ∃ value, (jsIndex values index).or (jsIndex values 0) = some value ∧ 0 < value := by
  have hall : ∀ value ∈ values, 0 < value := fun value hmem => by
    simpa using List.all_eq_true.mp hpos value hmem
  cases hfirst : jsIndex values index with
  | some value => exact ⟨value, rfl, hall value (jsIndex_mem hfirst)⟩
  | none =>
    obtain ⟨value, hvalue⟩ : ∃ value, jsIndex values 0 = some value :=
      jsIndex_of_lt (le_refl _) (by omega)
    exact ⟨value, hvalue, hall value (jsIndex_mem hvalue)⟩

/-- Rent is defined, and positive when the dice show something. -/
theorem calculateRent_pos (ht : TilesOk s) {key : TileKey} {tile : OwnableTile}
    (htile : (s.board.tile? key).bind GameTile.ownable? = some tile)
    {property : GameEngineProperty} (hproperty : s.property? key = some property)
    (dice : DiceRoll) :
    ∃ rent, calculateRent s tile dice = .ok (some rent) ∧ 0 ≤ rent ∧
      (0 < dice.1 + dice.2 → 0 < rent) := by
  obtain ⟨found, hfound, hown⟩ := Option.bind_eq_some_iff.mp htile
  have hcharges : chargesRent tile = true := by
    refine board_chargesRent tile (List.mem_filterMap.mpr ⟨found, ?_, hown⟩)
    rw [← s.board_eq]
    exact Keyed.find_mem _ hfound
  obtain rfl : tile.key = key := ownable_of_tile? htile
  suffices h : ∃ rent, calculateRent s tile dice = .ok (some rent) ∧
      (0 < rent ∨ dice.1 + dice.2 = 0 ∧ rent = 0) by
    obtain ⟨rent, hrent, hpos⟩ := h
    exact ⟨rent, hrent, by omega, by omega⟩
  cases tile with
  | property tile =>
    simp only [chargesRent, Bool.and_eq_true, decide_eq_true_eq] at hcharges
    obtain ⟨⟨⟨htable, hlength⟩, hbase⟩, hhotel⟩ := hcharges
    have hfind : findPropertyStateOr "Tile cannot charge rent" s tile.key = .ok property :=
      findPropertyStateOr_eq_ok.mpr hproperty
    have hhouses := (ht.tile property (GameEngineState.property?_mem hproperty)).houses
    simp only [calculateRent, hfind, ok_bind]
    by_cases hbuilt : property.hasHotel = true
    · exact ⟨tile.hotelRent, by rw [if_pos hbuilt]; rfl, .inl hhotel⟩
    · rw [if_neg hbuilt]
      by_cases hcount : 0 < property.houseCount
      · obtain ⟨rent, hrent⟩ : ∃ rent,
            jsIndex tile.rentByHouseCount (property.houseCount - 1) = some rent :=
          jsIndex_of_lt (by omega) (by omega)
        have hpos : 0 < rent := by
          simpa using List.all_eq_true.mp htable rent (jsIndex_mem hrent)
        exact ⟨rent, by rw [if_pos hcount, hrent]; rfl, .inl hpos⟩
      · rw [if_neg hcount]
        by_cases hfull : ownsFullPropertySet s tile = true
        · exact ⟨tile.baseRent * 2, by rw [if_pos hfull]; rfl, .inl (by omega)⟩
        · exact ⟨tile.baseRent, by rw [if_neg hfull]; rfl, .inl hbase⟩
  | airport tile =>
    simp only [chargesRent, Bool.and_eq_true, decide_eq_true_eq] at hcharges
    obtain ⟨rent, hrent, hpos⟩ := table_entry hcharges.1 hcharges.2
      (countOwnedTilesByKind s .airport tile.key - 1)
    exact ⟨rent, by simp only [calculateRent, hrent], .inl hpos⟩
  | utility tile =>
    simp only [chargesRent, Bool.and_eq_true, decide_eq_true_eq] at hcharges
    obtain ⟨multiplier, hmultiplier, hpos⟩ := table_entry hcharges.1 hcharges.2
      (countOwnedTilesByKind s .utility tile.key - 1)
    refine ⟨((dice.1 + dice.2 : Nat) : Int) * multiplier, ?_, ?_⟩
    · simp only [calculateRent, hmultiplier, Option.map_some]
    · rcases Nat.eq_zero_or_pos (dice.1 + dice.2) with h0 | h0
      · exact .inr ⟨h0, by simp [h0]⟩
      · exact .inl (Int.mul_pos (by omega) hpos)

theorem debitPlayerOrCreateDebt_succeeds {debt : GameEngineDebt}
    (hpl : s.player? debt.roomPlayerId = some pl) (h0 : 0 ≤ debt.amount) :
    Succeeds (debitPlayerOrCreateDebt s debt) := by
  by_cases hcash : debt.amount ≤ pl.cash
  · exact ⟨_, (debitPlayerOrCreateDebt_eq_ok hpl).mpr ⟨h0, .inl ⟨hcash, rfl⟩⟩⟩
  · exact ⟨_, (debitPlayerOrCreateDebt_eq_ok hpl).mpr ⟨h0, .inr ⟨by omega, rfl⟩⟩⟩

theorem payTax_succeeds (hpl : s.player? p = some pl) {tile : GameTile}
    (hmem : tile ∈ s.board.tiles) (hkind : tile.kind = .tax) : Succeeds (payTax s p tile.key) := by
  cases tile <;> cases hkind
  rename_i tile
  have htile : getTaxTile s (GameTile.tax tile).key = .ok tile := by
    rw [getTaxTile, tile?_of_mem hmem]
  have h0 : 0 ≤ tile.amount := by
    rw [GameEngineState.board_eq] at hmem
    exact board_taxes _ (List.mem_filterMap.mpr ⟨_, hmem, rfl⟩)
  refine succeeds_bind htile ?_
  refine (debitPlayerOrCreateDebt_succeeds hpl h0).then fun _ _ => ?_
  exact succeeds_pure _

theorem payRent_succeeds (ht : TilesOk s) (hpl : s.player? p = some pl) (key : TileKey)
    (dice : DiceRoll) : Succeeds (payRent s p key dice) := by
  unfold payRent
  split
  · exact succeeds_ok _
  · rename_i property hproperty
    split
    · exact succeeds_ok _
    · rename_i owner howner
      split
      · exact succeeds_ok _
      · split
        · exact succeeds_ok _
        · rename_i tile htile
          obtain ⟨rent, hrent, h0, _⟩ := calculateRent_pos ht htile hproperty dice
          obtain ⟨ol, hol, _⟩ :=
            (ht.tile property (GameEngineState.property?_mem hproperty)).owner owner howner
          have hpay : Succeeds (transferPlayerCashOrCreateDebt s p owner rent .rent) := by
            by_cases hcash : rent ≤ pl.cash
            · exact ⟨_, (transferPlayerCashOrCreateDebt_eq_ok hpl).mpr
                ⟨⟨ol, hol⟩, .inl ⟨h0, hcash, rfl⟩⟩⟩
            · exact ⟨_, (transferPlayerCashOrCreateDebt_eq_ok hpl).mpr
                ⟨⟨ol, hol⟩, .inr ⟨by omega, rfl⟩⟩⟩
          refine succeeds_bind hrent ?_
          refine succeeds_bind (orThrow_eq_ok.mpr rfl) ?_
          exact hpay.then fun _ _ => succeeds_pure _

/-! ## Cards -/

theorem mem_heldCards {cardKey : CardKey} (h : cardKey ∈ heldCards s) :
    ∃ pl ∈ s.players, cardKey ∈ pl.getOutOfJailFreeCardKeys := by
  rw [heldCards, ← Multiset.sum_coe] at h
  obtain ⟨hand, hhand, hin⟩ := Multiset.mem_join.mp h
  obtain ⟨pl, hpl, rfl⟩ := List.mem_map.mp hhand
  exact ⟨pl, hpl, hin⟩

/-- All the cards of a deck but the one a player may keep are in its piles. -/
theorem piles_ne_zero (hp : PlayersOk s) (hd : DecksOk s) (deckKey : GameCardDeckKey) :
    piles s.decks deckKey ≠ 0 := by
  intro hzero
  have hheld : ∀ cardKey ∈ (deckCards deckKey).map GameEngineCard.key, OpensJail cardKey := by
    intro cardKey hmem
    have hcards := hd deckKey
    rw [cardsOf_eq, hzero, zero_add] at hcards
    have hcard : cardKey ∈ heldCards s := by
      have hmem' : cardKey ∈ ofDeck deckKey (heldCards s) := by
        rw [hcards]
        exact hmem
      exact (Multiset.mem_filter.mp hmem').1
    obtain ⟨pl, hpl, hin⟩ := mem_heldCards hcard
    exact (hp.player pl hpl).keys cardKey hin
  obtain ⟨cardKey, hmem, hnot⟩ : ∃ cardKey ∈ (deckCards deckKey).map GameEngineCard.key,
      ¬ OpensJail cardKey := by
    cases deckKey with
    | chance =>
      refine ⟨.chanceBankDividend, by decide, ?_⟩
      rintro ⟨card, hcard, heffect⟩
      cases hcard
      cases heffect
    | worldFund =>
      refine ⟨.worldFundReceive25, by decide, ?_⟩
      rintro ⟨card, hcard, heffect⟩
      cases hcard
      cases heffect
  exact hnot (hheld cardKey hmem)

theorem cardsByKey_isSome (cardKey : CardKey) : (cardsByKey cardKey).isSome := by
  cases cardKey <;> rfl

theorem drawCard_succeeds {deckKey : GameCardDeckKey} (hpiles : piles s.decks deckKey ≠ 0) :
    Succeeds (drawCard s deckKey) := by
  unfold drawCard
  dsimp only
  split
  · rename_i hnil
    exfalso
    apply hpiles
    rw [piles_eq, pile]
    split at hnil
    · rename_i hlength
      rw [hnil] at hlength
      cases hlength
    · rename_i hlength
      rw [hnil, List.eq_nil_of_length_eq_zero (l := (getDeck s deckKey).drawPile) (by omega)]
      rfl
  · rename_i cardKey rest _
    obtain ⟨card, hcard⟩ := Option.isSome_iff_exists.mp (cardsByKey_isSome cardKey)
    exact succeeds_bind (orThrow_eq_ok.mpr hcard) (succeeds_pure _)

theorem payCardCharge_succeeds (hpl : s.player? p = some pl) {amount : Int} (h0 : 0 ≤ amount) :
    Succeeds (payCardCharge s p amount) :=
  (debitPlayerOrCreateDebt_succeeds hpl h0).then fun _ _ => succeeds_pure _

theorem repairsAmount_nonneg (ht : TilesOk s) {houseAmount hotelAmount : Int}
    (hhouse : 0 ≤ houseAmount) (hhotel : 0 ≤ hotelAmount) :
    0 ≤ repairsAmount s.properties p houseAmount hotelAmount := by
  have hfold : ∀ (l : List GameEngineProperty) (total : Int), (∀ x ∈ l, 0 ≤ x.houseCount) →
      0 ≤ total → 0 ≤ l.foldl (fun total property =>
        if property.hasHotel then total + hotelAmount
        else total + property.houseCount * houseAmount) total := by
    intro l
    induction l with
    | nil => intro total _ h0; exact h0
    | cons x l ih =>
      intro total hl h0
      rw [List.foldl_cons]
      apply ih
      · exact fun y hy => hl y (List.mem_cons_of_mem _ hy)
      · have hx : 0 ≤ x.houseCount * houseAmount := mul_nonneg (hl x (List.mem_cons_self ..)) hhouse
        split
        · exact add_nonneg h0 hhotel
        · exact add_nonneg h0 hx
  exact hfold _ 0 (fun x hx => (ht.tile x (List.mem_filter.mp hx).1).houses.1) (le_refl _)

/-- A card that moves its player finds the tile it names. -/
theorem getCardMoveTargetTile_succeeds (hpl : s.player? p = some pl) {effect : GameCardEffect}
    (hleads : leadsSomewhere effect = true)
    (hmove : effect.type = .moveToTile ∨ effect.type = .moveRelative ∨
      effect.type = .moveToNearest) :
    ∃ target, getCardMoveTargetTile s p effect = .ok (some target) := by
  unfold getCardMoveTargetTile
  simp only [findPlayer_eq_ok.mpr hpl, ok_bind, GameEngineState.board_eq]
  cases effect with
  | moveToTile tileKey collectPassGo =>
    obtain ⟨target, htarget⟩ := Option.isSome_iff_exists.mp hleads
    exact ⟨target, congrArg Except.ok htarget⟩
  | moveRelative spaces =>
    have hspaces : -40 ≤ spaces := by simpa [leadsSomewhere] using hleads
    have hlength : (classicGameBoard.tiles.length : Int) = 40 := rfl
    dsimp only
    rw [hlength, Int.tmod_eq_emod_of_nonneg (by omega)]
    obtain ⟨target, htarget⟩ : ∃ target,
        jsIndex classicGameBoard.tiles (((pl.position : Int) + spaces + 40) % 40) = some target :=
      jsIndex_of_lt (by omega) (by omega)
    refine ⟨target, ?_⟩
    simp only [getTile, htarget, orThrow, ok_bind]
    rfl
  | moveToNearest tileKind collectPassGo =>
    obtain ⟨tile, hmem, hkind⟩ := List.any_eq_true.mp hleads
    have hne : ((classicGameBoard.tiles.filter fun tile => tile.kind = tileKind).insertionSort
        fun left right => forwardDistance classicGameBoard pl.position left ≤
          forwardDistance classicGameBoard pl.position right) ≠ [] := by
      apply List.ne_nil_of_mem (a := tile)
      rw [List.mem_insertionSort]
      exact List.mem_filter.mpr ⟨hmem, hkind⟩
    exact ⟨_, congrArg Except.ok (List.head?_eq_some_head hne)⟩
  | collectMoney | payMoney | goToJail | collectFromEachPlayer | payEachPlayer
  | propertyRepairs | getOutOfJailFree =>
    rcases hmove with h | h | h <;> cases h

theorem samePlayers_updatePlayer {f : GameEnginePlayer → GameEnginePlayer}
    (hf : ∀ x, identity (f x) = identity x) : SamePlayers s (s.updatePlayer p f) :=
  Keyed.map_modify GameEnginePlayer.roomPlayerId hf s.players p

theorem movePlayerToCardTile_succeeds (hp : PlayersOk s) (ht : TilesOk s)
    (hpl : s.player? p = some pl) {effect : GameCardEffect}
    (hleads : leadsSomewhere effect = true)
    (hmove : effect.type = .moveToTile ∨ effect.type = .moveRelative ∨
      effect.type = .moveToNearest) : Succeeds (movePlayerToCardTile s p effect) := by
  obtain ⟨target, htarget⟩ := getCardMoveTargetTile_succeeds hpl hleads hmove
  have hmem : target ∈ s.board.tiles := getCardMoveTargetTile_mem htarget
  unfold movePlayerToCardTile
  dsimp only
  refine succeeds_bind (findPlayer_eq_ok.mpr hpl) ?_
  refine succeeds_bind htarget ?_
  refine succeeds_bind (orThrow_eq_ok.mpr rfl) ?_
  generalize (collectsPassGo effect && decide (target.index ≤ pl.position) &&
    decide (target.index ≠ pl.position)) = passedGo
  obtain ⟨credited, hcredited, hsame, hproperties⟩ : ∃ credited,
      (if passedGo = true then creditPlayer s p s.board.passGoCash else .ok s) = .ok credited ∧
        SamePlayers s credited ∧ credited.properties = s.properties := by
    cases passedGo with
    | false => exact ⟨s, rfl, rfl, rfl⟩
    | true =>
      refine ⟨s.addCash p s.board.passGoCash, ?_, ?_, rfl⟩
      · rw [if_pos rfl, creditPlayer_eq_ok, GameEngineState.board_eq]
        exact ⟨by decide, ⟨pl, hpl⟩, rfl⟩
      · exact samePlayers_updatePlayer fun _ => rfl
  refine succeeds_bind hcredited ?_
  generalize hnext : ({ credited with
    phase := .awaitingTurnEnd
    pendingTileKey := none }.updatePlayer p fun candidate =>
      { candidate with position := target.index }) = next
  have hsame' : SamePlayers s next := by
    subst hnext
    refine (samePlayers_updatePlayer ?_).trans hsame
    intro _; rfl
  have ht' : TilesOk next := by
    refine ht.same ?_ fun q => (hsame'.isActive hp.ids).mpr
    rw [← hproperties, ← hnext]
    rfl
  obtain ⟨pl', hpl'⟩ : ∃ pl', next.player? p = some pl' := by
    rw [← Option.isSome_iff_exists, hsame'.listed, hpl]
    rfl
  have hmem' : target ∈ next.board.tiles := by
    rw [GameEngineState.board_eq] at hmem ⊢
    exact hmem
  split
  · exact succeeds_pure _
  · split
    · rename_i htax
      exact (payTax_succeeds hpl' hmem' htax).then fun _ _ => succeeds_pure _
    · split
      · exact succeeds_pure _
      · exact (payRent_succeeds ht' hpl' _ _).then fun _ _ => succeeds_pure _

theorem applyCardEffect_succeeds (hp : PlayersOk s) (ht : TilesOk s)
    (hpl : s.player? p = some pl) {card : GameEngineCard}
    (hcard : cardsByKey card.key = some card) : Succeeds (applyCardEffect s p card) := by
  have hnonneg := nonnegEffect_of_known hcard
  have hleads : leadsSomewhere card.effect = true := cards_lead card (Keyed.find_mem _ hcard)
  unfold applyCardEffect
  cases heffect : card.effect <;> rw [heffect] at hnonneg hleads <;> dsimp only
  case collectMoney amount =>
    have h0 : 0 ≤ amount := by simpa [nonnegEffect] using hnonneg
    exact succeeds_bind (creditPlayer_eq_ok.mpr ⟨h0, ⟨pl, hpl⟩, rfl⟩) (succeeds_pure _)
  case payMoney amount => exact payCardCharge_succeeds hpl (by simpa [nonnegEffect] using hnonneg)
  case goToJail => exact succeeds_ok _
  case collectFromEachPlayer amount =>
    rw [collectFromEachPlayer_eq hp.ids hpl (by simpa [nonnegEffect] using hnonneg)
      hp.funded.cash]
    exact succeeds_ok _
  case payEachPlayer amount =>
    have h0 : 0 ≤ amount := by simpa [nonnegEffect] using hnonneg
    rw [payEachPlayer_eq hp.ids hpl h0]
    split
    · exact payCardCharge_succeeds hpl (mul_nonneg (Int.natCast_nonneg _) h0)
    · exact succeeds_ok _
  case propertyRepairs houseAmount hotelAmount =>
    simp only [nonnegEffect, Bool.and_eq_true, decide_eq_true_eq] at hnonneg
    unfold payPropertyRepairs
    dsimp only
    split
    · exact succeeds_ok _
    · exact payCardCharge_succeeds hpl (repairsAmount_nonneg ht hnonneg.1 hnonneg.2)
  case getOutOfJailFree => exact succeeds_ok _
  case moveToTile => exact movePlayerToCardTile_succeeds hp ht hpl hleads (.inl rfl)
  case moveRelative => exact movePlayerToCardTile_succeeds hp ht hpl hleads (.inr (.inl rfl))
  case moveToNearest => exact movePlayerToCardTile_succeeds hp ht hpl hleads (.inr (.inr rfl))

theorem drawAndApplyCard_succeeds (hv : Valid s) (hpl : s.player? p = some pl)
    (deckKey : GameCardDeckKey) : Succeeds (drawAndApplyCard s p deckKey) := by
  obtain ⟨⟨drawn, cardKey⟩, hdrawn⟩ := drawCard_succeeds (piles_ne_zero hv.players hv.decks deckKey)
  obtain ⟨card, hcard⟩ := Option.isSome_iff_exists.mp (cardsByKey_isSome cardKey)
  obtain ⟨decks, rfl⟩ := drawCard_decks hdrawn
  obtain rfl : card.key = cardKey := Keyed.find_key _ hcard
  refine succeeds_bind hdrawn ?_
  refine succeeds_bind (orThrow_eq_ok.mpr hcard) ?_
  have hp : PlayersOk { s with decks } := ⟨hv.players.ids, hv.players.player⟩
  have ht : TilesOk { s with decks } := hv.tiles.same rfl fun _ h => h
  exact (applyCardEffect_succeeds hp ht hpl hcard).then fun _ _ => succeeds_pure _

/-! ## The roll -/

theorem resolveLanding_succeeds (hv : Valid s) (hpl : s.player? p = some pl) (dice : DiceRoll)
    {tile : GameTile} (hmem : tile ∈ s.board.tiles) (free : Bool) :
    Succeeds (resolveLanding s p dice tile free) := by
  unfold resolveLanding
  split
  · exact succeeds_ok _
  · split
    · exact drawAndApplyCard_succeeds hv hpl .chance
    · split
      · exact drawAndApplyCard_succeeds hv hpl .worldFund
      · split
        · exact succeeds_ok _
        · split
          · rename_i htax
            exact payTax_succeeds hpl hmem htax
          · exact payRent_succeeds hv.tiles hpl _ dice

theorem rollAndMoveIgnoringJail_succeeds (hv : Valid s) (ho : OnTurn s p pl)
    (hphase : AwaitsRoll s) (hfree : pl.inJail = false) (dice : DiceRoll)
    (suppressDoubles : Bool) : Succeeds (rollAndMoveIgnoringJail s p dice suppressDoubles) := by
  unfold rollAndMoveIgnoringJail
  obtain ⟨count, again, hdoubles⟩ := doublesState_eq s dice suppressDoubles
  split
  · exact succeeds_ok _
  · dsimp only
    have hfold : (if suppressDoubles = true then clearDoubles s else applyDoublesState s dice) =
        doublesState s dice suppressDoubles := rfl
    have hposition : (pl.position + (dice.1 + dice.2)) % s.board.tiles.length <
        s.board.tiles.length := by
      apply Nat.mod_lt
      rw [GameEngineState.board_eq]
      decide
    obtain ⟨tile, htile⟩ : ∃ tile,
        s.board.tiles[(pl.position + (dice.1 + dice.2)) % s.board.tiles.length]? = some tile :=
      ⟨_, List.getElem?_eq_getElem hposition⟩
    have hget : getTile s.board
        (((pl.position + (dice.1 + dice.2)) % s.board.tiles.length : Nat) : Int) = .ok tile := by
      rw [getTile, orThrow_eq_ok, jsIndex, if_pos (Int.natCast_nonneg _), Int.toNat_natCast, htile]
    have hmoved : Valid (movedState s p dice suppressDoubles tile) :=
      Action.valid hv (c := unrestricted) (.turn ⟨pl, ho, .moved hphase hfree htile⟩)
    rw [hfold]
    refine succeeds_bind (a := pl) ?_ ?_
    · rw [findPlayer_eq_ok, hdoubles]
      exact ho.player
    refine succeeds_bind hget ?_
    refine Succeeds.then ?_ fun _ _ => succeeds_pure _
    have hstate : movedState s p dice suppressDoubles tile =
        { doublesState s dice suppressDoubles with
          phase := if isOwnableAndUnowned (doublesState s dice suppressDoubles) tile
            then .awaitingPropertyDecision else .awaitingTurnEnd
          pendingTileKey := if isOwnableAndUnowned (doublesState s dice suppressDoubles) tile
            then some tile.key else none
          lastDiceRoll := some dice }.updatePlayer p fun player =>
            { player with
              position := (player.position + (dice.1 + dice.2)) % s.board.tiles.length
              cash :=
                if s.board.tiles.length ≤ player.position + (dice.1 + dice.2) then
                  player.cash + s.board.passGoCash
                else player.cash } := by
      unfold movedState
      rw [hdoubles]
      rfl
    rw [← hstate]
    obtain ⟨pl', hpl'⟩ : ∃ pl', (movedState s p dice suppressDoubles tile).player? p =
        some pl' := by
      unfold movedState
      rw [GameEngineState.player?_updatePlayer, if_pos rfl, hdoubles]
      · exact ⟨_, congrArg (Option.map _) ho.player⟩
      · intro _; rfl
    refine resolveLanding_succeeds hmoved hpl' dice ?_ _
    rw [GameEngineState.board_eq] at htile ⊢
    exact List.mem_of_getElem? htile

theorem resolveJailedRoll_succeeds (hv : Valid s) (ho : OnTurn s p pl) (hphase : AwaitsRoll s)
    (hjail : pl.inJail = true) (dice : DiceRoll) :
    Succeeds (resolveJailedRoll s p dice fun released =>
      rollAndMoveIgnoringJail released p dice true) := by
  have hfind : findPlayer s p = .ok pl := findPlayer_eq_ok.mpr ho.player
  have hfine : (0 : Int) ≤ jailFineAmount := by decide
  simp only [resolveJailedRoll, hfind, ok_bind, hjail, Bool.not_true, Bool.false_eq_true, if_false]
  by_cases hdoubles : isDoubles dice = true
  · rw [if_pos hdoubles]
    have hout : Valid (clearDoubles (s.updatePlayer p leaveJail)) :=
      Action.valid hv (c := unrestricted)
        (.turn ⟨pl, ho, @Turn.escaped p pl s dice hphase hjail⟩)
    have ho' : OnTurn (clearDoubles (s.updatePlayer p leaveJail)) p (leaveJail pl) :=
      onTurn_update ho rfl (fun _ => rfl) rfl rfl
    exact (rollAndMoveIgnoringJail_succeeds hout ho' hphase rfl dice true).then fun _ _ =>
      succeeds_pure _
  · rw [if_neg hdoubles]
    by_cases hcount : maxJailTurnCount ≤ pl.jailTurnCount + 1
    · rw [if_pos hcount]
      refine (debitPlayerOrCreateDebt_succeeds ho.player hfine).then fun payment hpay => ?_
      rcases (debitPlayerOrCreateDebt_eq_ok ho.player).mp hpay with
        ⟨_, ⟨hcash, rfl⟩ | ⟨_, rfl⟩⟩
      · have hout : Valid (s.updatePlayer p payFine) :=
          Action.valid hv (c := unrestricted)
            (.turn ⟨pl, ho, @Turn.forcedFine p pl s dice hphase hjail hcount hcash⟩)
        have ho' : OnTurn (s.updatePlayer p payFine) p (payFine pl) :=
          onTurn_update ho rfl (fun _ => rfl) rfl rfl
        rw [← releasePlayerFromJail_setJailTurnCount (pl.jailTurnCount + 1)] at hout ho'
        exact (rollAndMoveIgnoringJail_succeeds hout ho' hphase rfl dice true).then fun _ _ =>
          succeeds_pure _
      · exact succeeds_pure _
    · rw [if_neg hcount]
      exact succeeds_pure _

/-- The player on turn can roll when a roll is due. -/
theorem rollAndMove_succeeds (hv : Valid s) (ho : OnTurn s p pl) (hphase : AwaitsRoll s)
    (dice : DiceRoll) : Succeeds (Engine.rollAndMove s p dice) := by
  cases hjail : pl.inJail with
  | true =>
    obtain ⟨result, hresult⟩ := resolveJailedRoll_succeeds hv ho hphase hjail dice
    obtain ⟨r, rfl, _⟩ := resolveJailedRoll_steps hv.players.funded ho hphase hjail hresult
    exact succeeds_bind hresult (succeeds_pure _)
  | false =>
    refine succeeds_bind (resolveJailedRoll_free ho hjail) ?_
    exact rollAndMoveIgnoringJail_succeeds hv ho hphase hjail dice false

end Code

end Rules
end LivePoly
