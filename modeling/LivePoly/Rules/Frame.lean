import LivePoly.Rules.Guarantees

/-!
# Rules.Frame

What an intent of one player leaves alone of another one. Unless the two trade, or the other one
leads an auction that a pass closes, every action keeps the place, the cards and the tiles of the
other player, and takes no cash but for a card that collects from each player.
-/

namespace LivePoly
namespace Rules

open Engine Checked

/-! ## What is kept -/

/-- What an event may take from each other player. -/
def collectedFromEach : GameEngineEvent → Int
  | .cardApplied _ _ cardKey _ =>
    match (cardsByKey cardKey).map GameEngineCard.effect with
    | some (.collectFromEachPlayer amount) => amount
    | _ => 0
  | _ => 0

def collected (events : List GameEngineEvent) : Int := (events.map collectedFromEach).sum

/-- The place and the cards of the player are kept. -/
structure SamePlace (ql ql' : GameEnginePlayer) : Prop where
  position : ql'.position = ql.position
  inJail : ql'.inJail = ql.inJail
  cards : ql'.getOutOfJailFreeCards = ql.getOutOfJailFreeCards
  keys : ql'.getOutOfJailFreeCardKeys = ql.getOutOfJailFreeCardKeys

/-- The tiles of `q` are kept as they are. -/
def KeepsTiles (q : RoomPlayerId) (s s' : GameEngineState) : Prop :=
  ∀ key x, s.property? key = some x → x.ownerRoomPlayerId = some q → s'.property? key = some x

/-- Nothing is taken from `q` but what cards collect. -/
structure Keeps (q : RoomPlayerId) (s : GameEngineState) (events : List GameEngineEvent)
    (s' : GameEngineState) : Prop where
  player : ∀ ql, s.player? q = some ql → ∃ ql', s'.player? q = some ql' ∧ SamePlace ql ql' ∧
    ql.cash - collected events ≤ ql'.cash
  tiles : KeepsTiles q s s'

section Keeping

variable {s s' t : GameEngineState} {p q : RoomPlayerId} {pl : GameEnginePlayer}
  {events : List GameEngineEvent}

theorem samePlace_cash (ql : GameEnginePlayer) (cash : Int) : SamePlace ql { ql with cash } :=
  ⟨rfl, rfl, rfl, rfl⟩

theorem SamePlace.trans {a b c : GameEnginePlayer} (h : SamePlace a b) (h' : SamePlace b c) :
    SamePlace a c :=
  ⟨h'.position.trans h.position, h'.inJail.trans h.inJail, h'.cards.trans h.cards,
    h'.keys.trans h.keys⟩

theorem collectedFromEach_nonneg (event : GameEngineEvent) : 0 ≤ collectedFromEach event := by
  cases event with
  | cardApplied p deckKey cardKey effectType =>
    unfold collectedFromEach
    dsimp only
    split
    · rename_i amount hmap
      obtain ⟨card, hcard, heffect⟩ := Option.map_eq_some_iff.mp hmap
      have hkey : card.key = cardKey := Keyed.find_key GameEngineCard.key hcard
      subst hkey
      have hnonneg := nonnegEffect_of_known hcard
      rw [heffect] at hnonneg
      exact of_decide_eq_true hnonneg
    · exact le_refl _
  | _ => exact le_refl _

theorem collected_nonneg (events : List GameEngineEvent) : 0 ≤ collected events := by
  apply List.sum_nonneg
  intro amount hmem
  obtain ⟨event, _, rfl⟩ := List.mem_map.mp hmem
  exact collectedFromEach_nonneg event

theorem collected_append (xs ys : List GameEngineEvent) :
    collected (xs ++ ys) = collected xs + collected ys := by
  simp [collected]

theorem keepsTiles_same (h : s'.properties = s.properties) : KeepsTiles q s s' := by
  intro key x hx _
  rw [GameEngineState.property?, h]
  exact hx

theorem Keeps.trans {xs ys : List GameEngineEvent} (h : Keeps q s xs t) (h' : Keeps q t ys s') :
    Keeps q s (xs ++ ys) s' where
  player := by
    intro ql hq
    obtain ⟨tl, ht, hplace, hcash⟩ := h.player ql hq
    obtain ⟨ql', hq', hplace', hcash'⟩ := h'.player tl ht
    refine ⟨ql', hq', hplace.trans hplace', ?_⟩
    rw [collected_append]
    omega
  tiles := fun key x hx howner => h'.tiles key x (h.tiles key x hx howner) howner

theorem keeps_same (hplayer : s'.player? q = s.player? q) (htiles : KeepsTiles q s s') :
    Keeps q s events s' where
  player := by
    intro ql hq
    have h0 := collected_nonneg events
    exact ⟨ql, hplayer.trans hq, ⟨rfl, rfl, rfl, rfl⟩, by omega⟩
  tiles := htiles

theorem keeps_map {f : GameEnginePlayer → GameEnginePlayer}
    (hid : ∀ x, (f x).roomPlayerId = x.roomPlayerId) (hplayers : s'.players = s.players.map f)
    (hf : ∀ x, x.roomPlayerId = q → SamePlace x (f x) ∧ x.cash - collected events ≤ (f x).cash)
    (htiles : KeepsTiles q s s') : Keeps q s events s' where
  player := by
    intro ql hq
    have hfound : s'.player? q = (s.player? q).map f := by
      rw [GameEngineState.player?, hplayers]
      exact Keyed.find_map _ hid _ _
    rw [hq, Option.map_some] at hfound
    exact ⟨f ql, hfound, hf ql (GameEngineState.player?_id hq)⟩
  tiles := htiles

theorem keeps_update (hne : p ≠ q) {g : GameEnginePlayer → GameEnginePlayer}
    (hid : ∀ x, (g x).roomPlayerId = x.roomPlayerId)
    (hplayers : s'.players = Keyed.modify GameEnginePlayer.roomPlayerId s.players p g)
    (htiles : KeepsTiles q s s') : Keeps q s events s' := by
  refine keeps_same ?_ htiles
  rw [GameEngineState.player?, hplayers]
  exact Keyed.find_modify_other _ hid _ (Ne.symm hne)

theorem keeps_paid {owner : RoomPlayerId} {amount : Int} (hne : p ≠ q) (h0 : 0 ≤ amount)
    {g : GameEnginePlayer → GameEnginePlayer} (hid : ∀ x, (g x).roomPlayerId = x.roomPlayerId)
    (hplayers : s'.players = ((s.updatePlayer p g).addCash owner amount).players)
    (htiles : KeepsTiles q s s') : Keeps q s events s' where
  player := by
    intro ql hq
    have hfirst : (s.updatePlayer p g).player? q = some ql := by
      rw [GameEngineState.player?_updatePlayer s p q hid, if_neg (Ne.symm hne)]
      exact hq
    have hfound : s'.player? q = ((s.updatePlayer p g).addCash owner amount).player? q := by
      rw [GameEngineState.player?, hplayers]
      rfl
    rw [GameEngineState.player?_addCash, hfirst] at hfound
    have hevents := collected_nonneg events
    split at hfound
    · exact ⟨_, hfound, samePlace_cash ql _, by dsimp only; omega⟩
    · exact ⟨ql, hfound, ⟨rfl, rfl, rfl, rfl⟩, by omega⟩
  tiles := htiles

theorem keepsTiles_update {key : TileKey} {property : GameEngineProperty}
    {f : GameEngineProperty → GameEngineProperty} (hf : ∀ x, (f x).tileKey = x.tileKey)
    (hproperties : s'.properties =
      Keyed.modify GameEngineProperty.tileKey s.properties key f)
    (hproperty : s.property? key = some property)
    (howner : property.ownerRoomPlayerId ≠ some q) : KeepsTiles q s s' := by
  intro key' x hx hxq
  have hne : key' ≠ key := by
    rintro rfl
    cases hx.symm.trans hproperty
    exact howner hxq
  rw [GameEngineState.property?, hproperties, Keyed.find_modify_other _ hf _ hne]
  exact hx

end Keeping

/-! ## The actions -/

section Actions

variable {s s' : GameEngineState} {p q : RoomPlayerId} {pl : GameEnginePlayer}
  {events : List GameEngineEvent}

theorem Turn.keeps (hne : p ≠ q) (h : Turn p pl s events s') : Keeps q s events s' := by
  cases h with
  | @moved dice suppressDoubles tile =>
    refine keeps_update hne ?_ movedState_players (keepsTiles_same ?_)
    · intro _; rfl
    · obtain ⟨count, again, hdoubles⟩ := doublesState_eq s dice suppressDoubles
      unfold movedState
      rw [hdoubles]
      rfl
  | thirdDoubles | escaped | stayed | forcedFine | fineOwed | finePaid | cardUsed =>
    refine keeps_update hne ?_ rfl (keepsTiles_same rfl)
    intro _; rfl
  | playsAgain | passesTurn => exact keeps_same rfl (keepsTiles_same rfl)

/-- A card takes from another player at most what it collects from each. -/
theorem cardShare_other_ge {card : GameEngineCard} (hcard : cardsByKey card.key = some card)
    {seat : Seat} (hne : seat.roomPlayerId ≠ p) (deckKey : GameCardDeckKey) :
    -collected (drawEvents p deckKey card) ≤ cardShare (replicaOf s) p card.effect seat := by
  have hnonneg := nonnegEffect_of_known hcard
  have hevents : collected (drawEvents p deckKey card) =
      collectedFromEach (.cardApplied p deckKey card.key card.effect.type) := by
    simp [collected, drawEvents, collectedFromEach]
  have hzero : ∀ amount, toPlayer p amount seat = 0 := fun amount => if_neg hne
  rw [hevents]
  simp only [collectedFromEach, hcard, Option.map_some]
  cases heffect : card.effect
  case collectFromEachPlayer amount =>
    have h0 : 0 ≤ amount := by simpa [heffect, nonnegEffect] using hnonneg
    simp only [cardShare, hne, if_false]
    split
    · omega
    · exact neg_le_neg (min_le_right _ _)
  case payEachPlayer amount =>
    have h0 : 0 ≤ amount := by simpa [heffect, nonnegEffect] using hnonneg
    simp only [cardShare, hne, if_false]
    split
    · omega
    · omega
  all_goals simp only [cardShare, hzero, neg_zero, le_refl]

theorem Landing.keeps (hne : p ≠ q) (h : Landing p pl s events s') : Keeps q s events s' := by
  cases h with
  | taxPaid | sentToJail | cardJailed | cardKept =>
    refine keeps_update hne ?_ rfl (keepsTiles_same rfl)
    intro _; rfl
  | rentPaid _ _ _ _ h0 =>
    refine keeps_paid hne h0 ?_ rfl (keepsTiles_same rfl)
    intro _; rfl
  | owes | cardOwed => exact keeps_same rfl (keepsTiles_same rfl)
  | @cardSettled deckKey card decks hdraw hmoney hcash =>
    refine keeps_map ?_ rfl ?_ (keepsTiles_same rfl)
    · intro _; rfl
    · intro x hxq
      have hother : (seatOf x).roomPlayerId ≠ p := by
        rintro rfl
        exact hne hxq
      have hshare := cardShare_other_ge (s := s) hdraw.known hother deckKey
      refine ⟨samePlace_cash x _, ?_⟩
      dsimp only
      omega
  | @cardMoved deckKey card decks target passedGo =>
    have hplayers : (cardMovedState { s with decks } p target passedGo).players =
        Keyed.modify GameEnginePlayer.roomPlayerId s.players p
          (cardMovedPlayer s.board target passedGo) := by
      unfold cardMovedState
      dsimp only
      split <;> rfl
    refine keeps_update hne ?_ hplayers (keepsTiles_same ?_)
    · intro _; rfl
    · unfold cardMovedState
      dsimp only
      split <;> rfl

theorem SetOwned.owner {P : GameEngineProperty → Prop} {tile : PropertyTile}
    {property : GameEngineProperty} (h : SetOwned s p tile.setKey P)
    (htile : .property tile ∈ s.board.tiles) (hproperty : s.property? tile.key = some property) :
    property.ownerRoomPlayerId = some p := by
  obtain ⟨found, hfound, howner, _⟩ := h tile (mem_setTiles.mpr htile)
  cases hfound.symm.trans hproperty
  exact howner

theorem Estate.keeps (hne : p ≠ q) (h : Estate p pl s events s') : Keeps q s events s' := by
  have hother : ∀ {x : GameEngineProperty}, x.ownerRoomPlayerId = some p →
      x.ownerRoomPlayerId ≠ some q := by
    intro x hx hxq
    exact hne (Option.some.inj (hx.symm.trans hxq))
  cases h with
  | bought _ _ _ hproperty hfree =>
    refine keeps_update hne ?_ rfl (keepsTiles_update ?_ rfl hproperty ?_)
    · intro _; rfl
    · intro _; rfl
    · rw [hfree]
      exact Option.some_ne_none q ∘ Eq.symm
  | houseBuilt _ htile hproperty _ _ hset | hotelBuilt _ htile hproperty _ _ hset
  | hotelSold _ htile hproperty _ hset | houseSold _ htile hproperty _ _ hset =>
    refine keeps_update hne ?_ rfl
      (keepsTiles_update ?_ rfl hproperty (hother (hset.owner htile hproperty)))
    · intro _; rfl
    · intro _; rfl
  | mortgaged _ _ hproperty howner | unmortgaged _ _ hproperty howner =>
    refine keeps_update hne ?_ rfl (keepsTiles_update ?_ rfl hproperty (hother howner))
    · intro _; rfl
    · intro _; rfl

theorem auction_free (hv : Valid s) {auction : GameEngineAuction}
    (hauction : s.auction = some auction) : ∃ property,
      s.property? auction.tileKey = some property ∧ property.ownerRoomPlayerId = none := by
  obtain ⟨_, property, _, hproperty, hfree⟩ := (hv.phase.auctionOk auction hauction).free
  exact ⟨property, hproperty, hfree⟩

theorem Bidding.keeps (hv : Valid s) (hne : p ≠ q)
    (h : Bidding (fun _ leader => leader ≠ q) p s events s') : Keeps q s events s' := by
  have htiles : ∀ {auction s' owner}, s.auction = some auction →
      s'.properties = (closeAuction s auction.tileKey owner).properties → KeepsTiles q s s' := by
    intro auction s' owner hauction hs
    obtain ⟨property, hproperty, hfree⟩ := auction_free hv hauction
    refine keepsTiles_update ?_ hs hproperty ?_
    · intro _; rfl
    · rw [hfree]
      exact Option.some_ne_none q ∘ Eq.symm
  cases h with
  | declined | bid | passed => exact keeps_same rfl (keepsTiles_same rfl)
  | bidWon hact =>
    refine keeps_update hne ?_ rfl (htiles hact.running rfl)
    intro _; rfl
  | passedWon hact _ _ _ _ hleader =>
    refine keeps_update hleader ?_ rfl (htiles hact.running rfl)
    intro _; rfl
  | passedUnsold hact => exact keeps_same rfl (htiles hact.running rfl)

theorem exchangedTile_other {trade : GameEngineTradeOffer} {board : GameBoard}
    {x : GameEngineProperty} (ho : x.tileKey ∉ trade.offeredPropertyKeys)
    (hr : x.tileKey ∉ trade.requestedPropertyKeys) : exchangedTile board trade x = x := by
  simp [exchangedTile, tradedTile, termsOf, ho, hr]

theorem OwnsTiles.owner {keys : List TileKey} (h : OwnsTiles s p keys)
    (hnd : (s.properties.map GameEngineProperty.tileKey).Nodup) {x : GameEngineProperty}
    (hx : x ∈ s.properties) (hkey : x.tileKey ∈ keys) : x.ownerRoomPlayerId = some p := by
  obtain ⟨property, hproperty, howner⟩ := h _ hkey
  cases (Keyed.find_of_mem _ hnd hx).symm.trans hproperty
  exact howner

theorem OwnsTiles.notMem {keys : List TileKey} (h : OwnsTiles s p keys) (hne : p ≠ q)
    {x : GameEngineProperty} (hx : s.property? x.tileKey = some x)
    (hxq : x.ownerRoomPlayerId = some q) : x.tileKey ∉ keys := by
  intro hmem
  obtain ⟨property, hproperty, howner⟩ := h _ hmem
  cases hx.symm.trans hproperty
  exact hne (Option.some.inj (howner.symm.trans hxq))

theorem exchanged_property? (trade : GameEngineTradeOffer) (key : TileKey) :
    (exchanged s trade).property? key = (s.property? key).map (exchangedTile s.board trade) := by
  apply Keyed.find_map
  exact exchangedTile_key s.board trade

theorem exchanged_keeps {trade : GameEngineTradeOffer} {fromPlayer toPlayer : GameEnginePlayer}
    (hcan : CanExchange s trade fromPlayer toPlayer) (hfrom : trade.fromRoomPlayerId ≠ q)
    (hto : trade.toRoomPlayerId ≠ q) : Keeps q s events (exchanged s trade) := by
  refine keeps_same ?_ ?_
  · have hfound : ∀ a b, ((s.addCash trade.fromRoomPlayerId a).addCash
        trade.toRoomPlayerId b).player? q = s.player? q := by
      intro a b
      rw [GameEngineState.player?_addCash, if_neg (Ne.symm hto),
        GameEngineState.player?_addCash, if_neg (Ne.symm hfrom)]
    exact hfound _ _
  · intro key x hx howner
    have hkey : x.tileKey = key := GameEngineState.property?_key hx
    subst hkey
    rw [exchanged_property?, hx, Option.map_some,
      exchangedTile_other (hcan.offered.notMem hfrom hx howner)
        (hcan.requested.notMem hto hx howner)]

theorem Trade.keeps (hne : p ≠ q)
    (h : Trade (fun _ trade => trade.fromRoomPlayerId ≠ q ∧ trade.toRoomPlayerId ≠ q) p s events
      s') : Keeps q s events s' := by
  cases h with
  | marked =>
    refine keeps_update hne ?_ rfl (keepsTiles_same rfl)
    intro _; rfl
  | offered | refused | rejected | cancelled => exact keeps_same rfl (keepsTiles_same rfl)
  | executed _ _ hcan hcondition => exact exchanged_keeps hcan hcondition.1 hcondition.2

theorem liquidated_keeps (hne : p ≠ q) {creditor : Option RoomPlayerId}
    (hplayers : s'.players = (s.updatePlayer p GameEnginePlayer.liquidated).players)
    (hproperties : s'.properties = s.properties.map (liquidateProperty p creditor)) :
    Keeps q s events s' := by
  refine keeps_update hne ?_ hplayers ?_
  · intro _; rfl
  · intro key x hx howner
    have hfound : s'.property? key = (s.property? key).map (liquidateProperty p creditor) := by
      rw [GameEngineState.property?, hproperties]
      apply Keyed.find_map
      intro y
      unfold liquidateProperty
      split <;> rfl
    have hsame : liquidateProperty p creditor x = x := by
      apply if_pos
      rw [howner]
      exact fun h => hne (Option.some.inj h).symm
    rw [hfound, hx, Option.map_some, hsame]

theorem Settlement.keeps (hv : Valid s) (hne : p ≠ q)
    {condition : GameEngineState → RoomPlayerId → Prop}
    (h : Settlement condition p s events s') : Keeps q s events s' := by
  cases h with
  | @debtPaid debt pl hphase hdebt hdebtor hpl h0 hcash hcreditor =>
    have hcreditors : ∀ c, debt.creditorRoomPlayerId = some c → c ≠ debt.roomPlayerId :=
      fun c hc => ((hv.phase.debtOk debt hdebt).creditor c hc).1
    refine keeps_map ?_ (debtPaidState_players hcreditors)
      ?_ (keepsTiles_same debtPaidState_properties)
    · intro x
      split
      · split <;> rfl
      · split <;> rfl
    · intro x hxq
      have hother : x.roomPlayerId ≠ debt.roomPlayerId := by
        rw [hxq, hdebtor]
        exact Ne.symm hne
      have hevents := collected_nonneg (debtPaidEvents debt)
      rw [if_neg hother]
      split
      · refine ⟨samePlace_cash x _, ?_⟩
        dsimp only
        omega
      · exact ⟨⟨rfl, rfl, rfl, rfl⟩, by omega⟩
  | lastBankruptcy | bankruptcy | ownBankruptcy =>
    exact liquidated_keeps hne rfl rfl
  | finished => exact keeps_same rfl (keepsTiles_same rfl)

/-- The trades and the auctions that do not concern `q`. -/
def sparing (q : RoomPlayerId) : Condition where
  trade := fun _ trade => trade.fromRoomPlayerId ≠ q ∧ trade.toRoomPlayerId ≠ q
  award := fun _ leader => leader ≠ q
  bankruptcy := fun _ _ => True

theorem Action.keeps (hv : Valid s) (hne : p ≠ q) (h : Action (sparing q) p s events s') :
    Keeps q s events s' := by
  cases h with
  | turn h =>
    obtain ⟨pl, _, hturn⟩ := h
    exact hturn.keeps hne
  | landing h =>
    obtain ⟨pl, _, hlanding⟩ := h
    exact hlanding.keeps hne
  | estate h =>
    obtain ⟨pl, _, hestate⟩ := h
    exact hestate.keeps hne
  | bidding h => exact h.keeps hv hne
  | trade h => exact h.keeps hne
  | settlement h => exact h.keeps hv hne

theorem actions_keep (hv : Valid s) (hne : p ≠ q) (h : Actions (sparing q) p s events s') :
    Keeps q s events s' := by
  induction h with
  | nil s => exact keeps_same rfl (keepsTiles_same rfl)
  | cons hstep _ _ ih => exact (hstep.keeps hv hne).trans (ih (hstep.valid hv))

end Actions

/-! ## Trades and auctions of the other player -/

/-- The cash and the tiles a party of a trade gives. -/
def given (trade : GameEngineTradeOffer) (q : RoomPlayerId) : Int × List TileKey :=
  if q = trade.fromRoomPlayerId then (trade.offeredCash, trade.offeredPropertyKeys)
  else (trade.requestedCash, trade.requestedPropertyKeys)

/-- The cash and the tiles a party of a trade gets. -/
def gotten (trade : GameEngineTradeOffer) (q : RoomPlayerId) : Int × List TileKey :=
  if q = trade.fromRoomPlayerId then (trade.requestedCash, trade.requestedPropertyKeys)
  else (trade.offeredCash, trade.offeredPropertyKeys)

/-- The trade an intent may execute: the pending one it accepts, or the one it proposes. -/
def TradeOf (env : Env) (s : GameEngineState) (trade : GameEngineTradeOffer) :
    GameEngineIntent → Prop
  | .acceptTrade _ tradeId => s.tradeOffer = some trade ∧ trade.id = tradeId
  | .proposeTrade input => tradeOfInput env input = .ok trade
  | _ => False

/-- The actor of the intent and `q` exchanged what the trade says. -/
structure TradedWith (env : Env) (s : GameEngineState) (intent : GameEngineIntent)
    (q : RoomPlayerId) (ql ql' : GameEnginePlayer) (s' : GameEngineState)
    (trade : GameEngineTradeOffer) : Prop where
  agreed : TradeOf env s trade intent
  parties : ∃ p, actorOf intent = some p ∧
    (trade.fromRoomPlayerId = p ∧ trade.toRoomPlayerId = q ∨
      trade.fromRoomPlayerId = q ∧ trade.toRoomPlayerId = p)
  cash : ql'.cash = ql.cash + sales s (given trade q).2 - (given trade q).1 + (gotten trade q).1
  tiles : s'.properties = s.properties.map (exchangedTile s.board trade)

/-- `q` led the auction that the pass closed, pays the bid and gets the tile. -/
structure AwardedTo (s : GameEngineState) (intent : GameEngineIntent) (q : RoomPlayerId)
    (ql ql' : GameEnginePlayer) (s' : GameEngineState) (auction : GameEngineAuction) :
    Prop where
  passed : ∃ p, intent = .passAuctionBid p
  running : s.auction = some auction
  leader : auction.highestBidderRoomPlayerId = some q
  closed : s'.auction = none
  cash : ql'.cash = ql.cash - auction.currentBid
  tile : (s'.property? auction.tileKey).bind GameEngineProperty.ownerRoomPlayerId = some q
  tiles : KeepsTiles q s s'

section Exceptions

variable {env : Env} {s : GameEngineState} {p q : RoomPlayerId} {ql : GameEnginePlayer}
  {r : GameEngineResult} {trade : GameEngineTradeOffer}

theorem exchanged_party (hother : trade.fromRoomPlayerId ≠ trade.toRoomPlayerId)
    (hq : s.player? q = some ql)
    (hparty : trade.fromRoomPlayerId = q ∨ trade.toRoomPlayerId = q) :
    ∃ ql', (exchanged s trade).player? q = some ql' ∧ SamePlace ql ql' ∧
      ql'.cash = ql.cash + sales s (given trade q).2 - (given trade q).1 +
        (gotten trade q).1 := by
  have hfound : ∀ a b, (((s.addCash trade.fromRoomPlayerId a).addCash
      trade.toRoomPlayerId b).player? q) = some { ql with
        cash := ql.cash + if q = trade.fromRoomPlayerId then a else b } := by
    intro a b
    rw [GameEngineState.player?_addCash, GameEngineState.player?_addCash, hq]
    rcases hparty with rfl | rfl
    · rw [if_neg hother, if_pos rfl, if_pos rfl]
      rfl
    · rw [if_pos rfl, if_neg (Ne.symm hother), if_neg (Ne.symm hother)]
      rfl
  refine ⟨_, hfound _ _, samePlace_cash ql _, ?_⟩
  unfold given gotten
  split
  · dsimp only
    omega
  · dsimp only
    omega

/-- A proposal that is executed is executed on its terms. -/
theorem acceptTradeOffer_party (hv : Valid s) (hoffer : WellFormedOffer trade)
    {previous : List GameEngineEvent} (h : acceptTradeOffer s trade previous = .ok r)
    (hq : s.player? q = some ql)
    (hparty : trade.fromRoomPlayerId = q ∨ trade.toRoomPlayerId = q) :
    ∃ ql', r.state.player? q = some ql' ∧ SamePlace ql ql' ∧
      ql'.cash = ql.cash + sales s (given trade q).2 - (given trade q).1 + (gotten trade q).1 ∧
      r.state.properties = s.properties.map (exchangedTile s.board trade) := by
  obtain ⟨_, rfl⟩ := acceptTradeOffer_eq_ok hv.tiles.keys_nodup hoffer.plain h
  obtain ⟨ql', hq', hplace, hcash⟩ := exchanged_party hoffer.other hq hparty
  exact ⟨ql', hq', hplace, hcash, rfl⟩

variable (env) in
theorem acceptTrade_traded (hv : Valid s) {tradeId : String}
    (h : acceptTrade s p tradeId = .ok r) (hne : p ≠ q) (hq : s.player? q = some ql)
    (hpending : s.tradeOffer = some trade)
    (hparty : trade.fromRoomPlayerId = q ∨ trade.toRoomPlayerId = q) :
    ∃ ql', r.state.player? q = some ql' ∧ SamePlace ql ql' ∧
      TradedWith env s (.acceptTrade p tradeId) q ql ql' r.state trade := by
  simp only [acceptTrade, bind_eq_ok, rejectIf_eq_ok] at h
  obtain ⟨found, hfound, _, hto, h⟩ := h
  obtain ⟨hfound, hid⟩ := assertTradeOffer_eq_ok hfound
  cases hfound.symm.trans hpending
  have hto : trade.toRoomPlayerId = p := by simpa using hto
  have hfrom : trade.fromRoomPlayerId = q := by
    rcases hparty with hfrom | hq'
    · exact hfrom
    · exact absurd (hto.symm.trans hq') hne
  have hoffer : WellFormedOffer trade := (hv.table.offer trade hpending).2
  obtain ⟨ql', hq', hplace, hcash, htiles⟩ := acceptTradeOffer_party hv hoffer h hq hparty
  exact ⟨ql', hq', hplace, ⟨hpending, hid⟩, ⟨p, rfl, .inr ⟨hfrom, hto⟩⟩, hcash, htiles⟩

/-- Marking the proposer leaves the tiles and what the others have. -/
theorem markBotTradeProposal_spares {marked : GameEngineState}
    (h : markBotTradeProposal s p = .ok marked) (hne : p ≠ q) :
    marked.properties = s.properties ∧ marked.boardKey = s.boardKey ∧
      marked.player? q = s.player? q := by
  rcases markBotTradeProposal_eq_ok h with rfl | rfl
  · exact ⟨rfl, rfl, rfl⟩
  · refine ⟨rfl, rfl, ?_⟩
    rw [GameEngineState.player?_updatePlayer, if_neg (Ne.symm hne)]
    intro _; rfl

theorem markBotTradeProposal_valid (hv : Valid s) {marked : GameEngineState}
    (h : markBotTradeProposal s p = .ok marked) : Valid marked := by
  rcases markBotTradeProposal_eq_ok h with rfl | rfl
  · exact hv
  · have hmark : Trade unrestricted.trade p s [] _ := .marked
    exact Action.valid (c := unrestricted) hv (.trade hmark)

theorem proposeTrade_traded (hv : Valid s) {input : ProposeTradeInput}
    (h : proposeTrade env s input = .ok r) (hne : input.roomPlayerId ≠ q)
    (hq : s.player? q = some ql) {marked : GameEngineState}
    (htrade : tradeOfInput env input = .ok trade)
    (hmarked : markBotTradeProposal s input.roomPlayerId = .ok marked)
    (hbot : (marked.player? trade.toRoomPlayerId).any fun target => target.playerType = .bot)
    (haccepts : shouldBotAcceptTrade marked trade = .ok true)
    (hparty : trade.fromRoomPlayerId = q ∨ trade.toRoomPlayerId = q) :
    ∃ ql', r.state.player? q = some ql' ∧ SamePlace ql ql' ∧
      TradedWith env s (.proposeTrade input) q ql ql' r.state trade := by
  simp only [proposeTrade, bind_eq_ok, rejectIf_eq_ok, findPlayer_eq_ok] at h
  obtain ⟨_, _, _, hself, _, _, trade', htrade', _, _, marked', hmarked', target, htarget, h⟩ := h
  cases htrade.symm.trans htrade'
  obtain ⟨hoffer, hfrom⟩ := tradeOfInput_wellFormed htrade hself
  rw [hfrom] at hmarked'
  cases hmarked.symm.trans hmarked'
  have hbot : target.playerType = .bot := by simpa [htarget] using hbot
  simp only [if_pos hbot, haccepts, ok_bind, if_true] at h
  obtain ⟨hproperties, hboard, hplayer⟩ := markBotTradeProposal_spares hmarked hne
  have hsales : ∀ keys, sales marked keys = sales s keys := by
    intro keys
    unfold sales saleAt GameEngineState.property? GameEngineState.board
    rw [hproperties, hboard]
  obtain ⟨ql', hq', hplace, hcash, htiles⟩ := acceptTradeOffer_party
    (markBotTradeProposal_valid hv hmarked) hoffer h (hplayer.trans hq) hparty
  rw [hsales] at hcash
  rw [hproperties, GameEngineState.board, hboard] at htiles
  have hto : trade.toRoomPlayerId = q := by
    rcases hparty with hq' | hto
    · exact absurd (hfrom.symm.trans hq') hne
    · exact hto
  exact ⟨ql', hq', hplace, htrade, ⟨_, rfl, .inl ⟨hfrom, hto⟩⟩, hcash, htiles⟩

/-- A pass takes nothing from `q` unless it gives `q` the tile. -/
theorem passAuctionBid_cases (hv : Valid s) (h : passAuctionBid env s p = .ok r) (hne : p ≠ q)
    (hq : s.player? q = some ql) :
    Keeps q s r.events r.state ∨ ∃ ql' auction, r.state.player? q = some ql' ∧
      SamePlace ql ql' ∧ AwardedTo s (.passAuctionBid p) q ql ql' r.state auction := by
  have hbidding : Bidding (fun _ _ => True) p s r.events r.state :=
    passAuctionBid_bidding (fun _ _ _ _ => trivial) h
  generalize r.state = s' at hbidding ⊢
  generalize r.events = events at hbidding ⊢
  cases hbidding with
  | declined ho hphase hpending htile hproperty hfree =>
    exact .inl (Bidding.keeps hv hne (.declined ho hphase hpending htile hproperty hfree))
  | bid hact hmin hbidder hcash =>
    exact .inl (Bidding.keeps hv hne (.bid hact hmin hbidder hcash))
  | bidWon hact hmin hbidder hcash h0 =>
    exact .inl (Bidding.keeps hv hne (.bidWon hact hmin hbidder hcash h0))
  | passed hact hremain => exact .inl (Bidding.keeps hv hne (.passed hact hremain))
  | passedUnsold hact hleader => exact .inl (Bidding.keeps hv hne (.passedUnsold hact hleader))
  | @passedWon auction leader bidder hact hleader hbidder hcash h0 =>
    by_cases hlq : leader = q
    · subst hlq
      obtain ⟨property, hproperty, hfree⟩ := auction_free hv hact.running
      refine .inr ⟨{ ql with cash := ql.cash - auction.currentBid }, auction, ?_,
        samePlace_cash ql _, ⟨p, rfl⟩, hact.running, hleader, rfl, rfl, ?_, ?_⟩
      · have hfound := GameEngineState.player?_addCash s leader leader (-auction.currentBid)
        rw [if_pos rfl, hq] at hfound
        exact hfound
      · rw [closeAuction, GameEngineState.property?_updatePropertyState, if_pos rfl]
        · have hfound : (s.property? auction.tileKey).map _ = _ :=
            congrArg (Option.map fun x => ({ x with
              ownerRoomPlayerId := some leader } : GameEngineProperty)) hproperty
          exact congrArg (·.bind GameEngineProperty.ownerRoomPlayerId) hfound
        · intro _; rfl
      · refine keepsTiles_update ?_ rfl hproperty ?_
        · intro _; rfl
        · rw [hfree]
          exact Option.some_ne_none leader ∘ Eq.symm
    · exact .inl (Bidding.keeps hv hne (.passedWon hact hleader hbidder hcash h0 hlq))

end Exceptions

/-- An intent of another player changes neither the place nor the cards of `q`. It takes no tile
of `q`, and no cash but for cards that collect from each player, unless it executes a trade with
`q` on its terms or closes an auction `q` leads for the bid. -/
theorem reachable_noInvoluntaryLoss {input : CreateInitialGameStateInput} {env : Env}
    {s : GameEngineState} {intent : GameEngineIntent} {r : GameEngineResult} {q : RoomPlayerId}
    {ql : GameEnginePlayer} (hi : ValidInput input) (h : Reachable input s)
    (haccepted : reduceGameEngineIntent env s intent = .ok r) (hother : actorOf intent ≠ some q)
    (hq : s.player? q = some ql) :
    ∃ ql', r.state.player? q = some ql' ∧ SamePlace ql ql' ∧
      (ql.cash - collected r.events ≤ ql'.cash ∧ KeepsTiles q s r.state ∨
        (∃ trade, TradedWith env s intent q ql ql' r.state trade) ∨
        ∃ auction, AwardedTo s intent q ql ql' r.state auction) := by
  have hv : Valid s := reachable_valid hi h
  have hkept : Keeps q s r.events r.state → ∃ ql', r.state.player? q = some ql' ∧
      SamePlace ql ql' ∧ (ql.cash - collected r.events ≤ ql'.cash ∧ KeepsTiles q s r.state ∨
        (∃ trade, TradedWith env s intent q ql ql' r.state trade) ∨
        ∃ auction, AwardedTo s intent q ql ql' r.state auction) := by
    intro hkeeps
    obtain ⟨ql', hq', hplace, hcash⟩ := hkeeps.player ql hq
    exact ⟨ql', hq', hplace, .inl ⟨hcash, hkeeps.tiles⟩⟩
  by_cases hpermits : Permits (sparing q) env s intent
  · refine hkept ?_
    cases hactor : actorOf intent with
    | none =>
      -- nobody plays the intent, so it is an intent of any other player
      have hne : (⟨q.uuid + 1⟩ : RoomPlayerId) ≠ q := by
        intro heq
        have huuid := congrArg RoomPlayerId.uuid heq
        dsimp only at huuid
        omega
      exact actions_keep hv hne
        (reduceGameEngineIntent_actions hv.sound hpermits haccepted (.inr hactor))
    | some p =>
      have hne : p ≠ q := by
        rintro rfl
        exact hother hactor
      exact actions_keep hv hne
        (reduceGameEngineIntent_actions hv.sound hpermits haccepted (.inl hactor))
  · cases intent with
    | acceptTrade p tradeId =>
      have hne : p ≠ q := fun heq => hother (congrArg some heq)
      simp only [Permits, sparing, not_forall] at hpermits
      obtain ⟨trade, hpending, hparty⟩ := hpermits
      obtain ⟨ql', hq', hplace, htraded⟩ :=
        acceptTrade_traded env hv haccepted hne hq hpending (by tauto)
      exact ⟨ql', hq', hplace, .inr (.inl ⟨trade, htraded⟩)⟩
    | proposeTrade proposal =>
      have hne : proposal.roomPlayerId ≠ q := fun heq => hother (congrArg some heq)
      simp only [Permits, sparing, not_forall] at hpermits
      obtain ⟨trade, marked, _, htrade, hmarked, hbot, haccepts, hparty⟩ := hpermits
      obtain ⟨ql', hq', hplace, htraded⟩ :=
        proposeTrade_traded hv haccepted hne hq htrade hmarked hbot haccepts (by tauto)
      exact ⟨ql', hq', hplace, .inr (.inl ⟨trade, htraded⟩)⟩
    | passAuctionBid p =>
      have hne : p ≠ q := fun heq => hother (congrArg some heq)
      rcases passAuctionBid_cases hv haccepted hne hq with
        hkeeps | ⟨ql', auction, hq', hplace, hawarded⟩
      · exact hkept hkeeps
      · exact ⟨ql', hq', hplace, .inr (.inr ⟨auction, hawarded⟩)⟩
    | _ => exact absurd (by simp [Permits, sparing]) hpermits

/-- The last pass gives the leader the tile and leaves the leader's place alone. -/
theorem threePlayers_noInvoluntaryLoss : ∃ s r ql ql', Reachable threePlayers s ∧
    reduceGameEngineIntent ⟨0, ""⟩ s (.passAuctionBid ⟨3⟩) = .ok r ∧
    s.player? ⟨2⟩ = some ql ∧ r.state.player? ⟨2⟩ = some ql' ∧ ql'.cash = ql.cash - 10 ∧
    SamePlace ql ql' := by
  obtain ⟨before, hbefore, htest⟩ := exists_ok_of_any (by decide +kernel :
    (playThree [.rollAndMove ⟨1⟩ [.int 1, .int 2], .declinePropertyPurchase ⟨1⟩,
      .passAuctionBid ⟨1⟩, .placeAuctionBid ⟨2⟩ (.int 10)]).toOption.any (fun before =>
        (before.state.player? ⟨2⟩).any fun ql =>
          (reduceGameEngineIntent ⟨0, ""⟩ before.state (.passAuctionBid ⟨3⟩)).toOption.any
            fun r => (r.state.player? ⟨2⟩).any fun ql' => ql'.cash = ql.cash - 10) = true)
  have hreach : Reachable threePlayers before.state := playRoom_reachable hbefore
  obtain ⟨ql, hq, htest⟩ := (Option.any_eq_true _ _).mp htest
  obtain ⟨r, hr, htest⟩ := exists_ok_of_any htest
  obtain ⟨ql', hq', hcash⟩ := (Option.any_eq_true _ _).mp htest
  obtain ⟨kept, hkept, hplace, _⟩ :=
    reachable_noInvoluntaryLoss threePlayers_valid hreach hr (by decide) hq
  cases hkept.symm.trans hq'
  exact ⟨before.state, r, ql, ql', hreach, hr, hq, hq', of_decide_eq_true hcash, hplace⟩

end Rules
end LivePoly
