import LivePoly.Lib.Trace
import LivePoly.Rules.Updates

/-!
# Rules.Trade

Trades. Executing one sells the buildings on its tiles, exchanges cash and hands the tiles over;
the loops of `acceptTradeOffer` add up to the one state `exchanged`.
-/

namespace LivePoly
namespace Rules

open Engine Checked

/-! ## Selling the buildings of traded tiles -/

/-- What the buildings on a tile of the board sell for. -/
def saleAmount (board : GameBoard) (property : GameEngineProperty) : Int :=
  max 0 (((board.tile? property.tileKey).bind GameTile.ownable?).elim 0 fun tile =>
    buildingValue tile property)

/-- The tile when its buildings are sold. -/
def soldTile (board : GameBoard) (property : GameEngineProperty) : GameEngineProperty :=
  if saleAmount board property = 0 then property
  else { property with houseCount := 0, hasHotel := false }

def saleAt (s : GameEngineState) (key : TileKey) : Int :=
  (s.property? key).elim 0 (saleAmount s.board)

/-- The proceeds of selling the buildings on the tiles. -/
def sales (s : GameEngineState) (keys : List TileKey) : Int := (keys.map (saleAt s)).sum

def saleEvents (s : GameEngineState) (tradeId : String) (p : RoomPlayerId)
    (keys : List TileKey) : List GameEngineEvent :=
  keys.filterMap fun key =>
    if saleAt s key = 0 then none
    else some (.tradeBuildingsLiquidated tradeId p key (saleAt s key))

def soldTiles (s : GameEngineState) (keys : List TileKey) : List GameEngineProperty :=
  s.properties.map fun x => if x.tileKey ∈ keys then soldTile s.board x else x

/-- The state when `p` has sold the buildings on the tiles. -/
def soldState (s : GameEngineState) (p : RoomPlayerId) (keys : List TileKey) : GameEngineState :=
  { s.addCash p (sales s keys) with properties := soldTiles s keys }

/-- The state when `p` has sold the buildings on one tile. -/
def soldOne (s : GameEngineState) (p : RoomPlayerId) (key : TileKey) : GameEngineState :=
  (s.addCash p (saleAt s key)).updatePropertyState key fun x =>
    { x with houseCount := 0, hasHotel := false }

/-! ## The exchange -/

/-- The tile after a trade. -/
def exchangedTile (board : GameBoard) (trade : GameEngineTradeOffer) (x : GameEngineProperty) :
    GameEngineProperty :=
  tradedTile (termsOf trade) trade.fromRoomPlayerId trade.toRoomPlayerId
    (if x.tileKey ∈ trade.offeredPropertyKeys ∨ x.tileKey ∈ trade.requestedPropertyKeys then
      soldTile board x
    else x)

/-- The state after a trade. -/
def exchanged (s : GameEngineState) (trade : GameEngineTradeOffer) : GameEngineState :=
  { (s.addCash trade.fromRoomPlayerId
        (sales s trade.offeredPropertyKeys + trade.requestedCash - trade.offeredCash)).addCash
      trade.toRoomPlayerId
        (sales s trade.requestedPropertyKeys + trade.offeredCash - trade.requestedCash) with
    properties := s.properties.map (exchangedTile s.board trade)
    tradeOffer := none }

/-- Every tile is an ownable one of `p`. -/
def OwnsTiles (s : GameEngineState) (p : RoomPlayerId) (keys : List TileKey) : Prop :=
  ∀ key ∈ keys, ∃ property, s.property? key = some property ∧
    property.ownerRoomPlayerId = some p

/-- What holds of an offer from its proposal on. -/
structure WellFormedOffer (trade : GameEngineTradeOffer) : Prop where
  other : trade.fromRoomPlayerId ≠ trade.toRoomPlayerId
  offeredCash : 0 ≤ trade.offeredCash
  requestedCash : 0 ≤ trade.requestedCash
  offered : trade.offeredPropertyKeys.Nodup
  requested : trade.requestedPropertyKeys.Nodup

/-- The cash is payable, and no tile is named twice on one side. -/
structure PlainOffer (trade : GameEngineTradeOffer) : Prop where
  offeredCash : 0 ≤ trade.offeredCash
  requestedCash : 0 ≤ trade.requestedCash
  offered : trade.offeredPropertyKeys.Nodup
  requested : trade.requestedPropertyKeys.Nodup

theorem WellFormedOffer.plain {trade : GameEngineTradeOffer} (h : WellFormedOffer trade) :
    PlainOffer trade :=
  ⟨h.offeredCash, h.requestedCash, h.offered, h.requested⟩

/-- The parties can keep to the terms of the trade. -/
structure CanExchange (s : GameEngineState) (trade : GameEngineTradeOffer)
    (fromPlayer toPlayer : GameEnginePlayer) : Prop where
  fromFound : s.player? trade.fromRoomPlayerId = some fromPlayer
  toFound : s.player? trade.toRoomPlayerId = some toPlayer
  fromActive : fromPlayer.bankrupt = false
  toActive : toPlayer.bankrupt = false
  offeredCash : trade.offeredCash ≤ fromPlayer.cash
  requestedCash : trade.requestedCash ≤ toPlayer.cash
  disjoint : ∀ key ∈ trade.requestedPropertyKeys, key ∉ trade.offeredPropertyKeys
  offered : OwnsTiles s trade.fromRoomPlayerId trade.offeredPropertyKeys
  requested : OwnsTiles s trade.toRoomPlayerId trade.requestedPropertyKeys

/-- The phases in which trades are proposed. -/
def TradePhase (s : GameEngineState) : Prop :=
  s.phase = .awaitingFirstTurn ∨ s.phase = .awaitingRoll ∨
    s.phase = .awaitingPropertyDecision ∨ s.phase = .awaitingTurnEnd

/-- How a trade comes to be executed by `p`: the pending one is accepted, or a bot accepts at
once. The events are those of the proposal. -/
inductive Agreed (p : RoomPlayerId) (s : GameEngineState) (trade : GameEngineTradeOffer) :
    List GameEngineEvent → Prop
  | accepted (hpending : s.tradeOffer = some trade) (hto : trade.toRoomPlayerId = p) :
      Agreed p s trade []
  | proposed (hpending : s.tradeOffer = none) (hfrom : trade.fromRoomPlayerId = p) :
      Agreed p s trade [proposedEvent trade]

/-- What the player `p` does about trades. Executed ones satisfy `condition`. -/
inductive Trade (condition : GameEngineState → GameEngineTradeOffer → Prop) (p : RoomPlayerId)
    (s : GameEngineState) : List GameEngineEvent → GameEngineState → Prop
  | marked :
      Trade condition p s []
        (s.updatePlayer p fun x => { x with lastBotTradeProposalTurnNumber := some s.turnNumber })
  | offered {trade : GameEngineTradeOffer} {fromPlayer toPlayer : GameEnginePlayer}
      (hphase : TradePhase s) (hfrom : trade.fromRoomPlayerId = p)
      (hoffer : WellFormedOffer trade) (hcan : CanExchange s trade fromPlayer toPlayer) :
      Trade condition p s [proposedEvent trade] { s with tradeOffer := some trade }
  | refused {trade : GameEngineTradeOffer} (hpending : s.tradeOffer = none) :
      Trade condition p s
        [proposedEvent trade, .tradeRejected trade.id trade.fromRoomPlayerId trade.toRoomPlayerId
          trade.toRoomPlayerId]
        { s with tradeOffer := none }
  | executed {trade : GameEngineTradeOffer} {fromPlayer toPlayer : GameEnginePlayer}
      {proposal : List GameEngineEvent} (hagreed : Agreed p s trade proposal)
      (hoffer : WellFormedOffer trade) (hcan : CanExchange s trade fromPlayer toPlayer)
      (hcondition : condition s trade) :
      Trade condition p s
        (proposal ++ saleEvents s trade.id trade.fromRoomPlayerId trade.offeredPropertyKeys ++
          saleEvents s trade.id trade.toRoomPlayerId trade.requestedPropertyKeys ++
          [.tradeAccepted trade.id trade.fromRoomPlayerId trade.toRoomPlayerId])
        (exchanged s trade)
  | rejected {trade : GameEngineTradeOffer} :
      Trade condition p s
        [.tradeRejected trade.id trade.fromRoomPlayerId trade.toRoomPlayerId p]
        { s with tradeOffer := none }
  | cancelled {trade : GameEngineTradeOffer} :
      Trade condition p s
        [.tradeCancelled trade.id trade.fromRoomPlayerId trade.toRoomPlayerId]
        { s with tradeOffer := none }

section Code

variable {s : GameEngineState} {p : RoomPlayerId}

/-! ## Validation -/

theorem assertPropertiesOwnedBy_eq_ok {keys : List TileKey} {u : Unit}
    (h : assertPropertiesOwnedBy s keys p = .ok u) : OwnsTiles s p keys := by
  intro key hkey
  have hone := forM_eq_ok.mp h key hkey
  simp only [bind_eq_ok, findPropertyState_eq_ok, rejectIf_eq_ok, not_not] at hone
  obtain ⟨property, hproperty, _, howner, _⟩ := hone
  exact ⟨property, hproperty, by simpa using howner⟩

theorem validateTrade_eq_ok {trade : GameEngineTradeOffer} {u : Unit}
    (h : validateTrade s trade = .ok u) :
    ∃ fromPlayer toPlayer, CanExchange s trade fromPlayer toPlayer := by
  simp only [validateTrade, assertNoDuplicateCrossTradeProperties, bind_eq_ok, findPlayer_eq_ok,
    rejectIf_eq_ok] at h
  obtain ⟨fromPlayer, hfrom, toPlayer, hto, _, hactive, _, hcash, _, _, _, hcross, _, hoffered,
    hrequested⟩ := h
  simp only [not_or, Bool.not_eq_true] at hactive
  simp only [not_or, not_lt] at hcash
  simp only [not_exists, not_and] at hcross
  exact ⟨fromPlayer, toPlayer, hfrom, hto, hactive.1, hactive.2, hcash.1, hcash.2, hcross,
    assertPropertiesOwnedBy_eq_ok hoffered, assertPropertiesOwnedBy_eq_ok hrequested⟩

/-! ## The offer of a proposal -/

theorem tileKeyName_ofString (name : String) : tileKeyName (TileKey.ofString name) = name := by
  unfold TileKey.ofString
  split <;> rfl

theorem ofString_injective : Function.Injective TileKey.ofString :=
  Function.LeftInverse.injective tileKeyName_ofString

theorem uniquePropertyKeys_nodup {values : List String} {keys : List TileKey}
    (h : uniquePropertyKeys values = .ok keys) : keys.Nodup := by
  simp only [uniquePropertyKeys, bind_eq_ok, pure_eq_ok] at h
  obtain ⟨_, _, rfl⟩ := h
  exact ((Distinct.distinct_nodup _).filter _).map ofString_injective

theorem normalizeCash_nonneg {value : JsNumber} {cash : Int}
    (h : normalizeCash value = .ok cash) : 0 ≤ cash := by
  simp only [normalizeCash, orThrow_eq_ok] at h
  cases value with
  | int n =>
    simp only [integerAtLeast] at h
    split at h
    · cases h
      assumption
    · cases h
  | notInteger => cases h

theorem tradeOfInput_wellFormed {env : Env} {input : ProposeTradeInput}
    {trade : GameEngineTradeOffer} (h : tradeOfInput env input = .ok trade)
    (hne : input.roomPlayerId ≠ input.toRoomPlayerId) :
    WellFormedOffer trade ∧ trade.fromRoomPlayerId = input.roomPlayerId := by
  simp only [tradeOfInput, bind_eq_ok, pure_eq_ok] at h
  obtain ⟨offeredCash, hoc, requestedCash, hrc, offered, ho, requested, hr, rfl⟩ := h
  exact ⟨⟨hne, normalizeCash_nonneg hoc, normalizeCash_nonneg hrc, uniquePropertyKeys_nodup ho,
    uniquePropertyKeys_nodup hr⟩, rfl⟩

/-! ## The loop that sells buildings -/

theorem getTradeableTile_eq_ok {key : TileKey} {tile : OwnableTile} :
    getTradeableTile s key = .ok tile ↔
      (s.board.tile? key).bind GameTile.ownable? = some tile :=
  orThrow_eq_ok

theorem liquidateTradeBuilding_eq_ok {tradeId : String} {events : List GameEngineEvent}
    {key : TileKey} {r : GameEngineResult}
    (h : liquidateTradeBuilding tradeId p ⟨s, events⟩ key = .ok r) :
    (saleAt s key = 0 ∧ r = ⟨s, events⟩) ∨
      (saleAt s key ≠ 0 ∧
        r = ⟨soldOne s p key,
          events ++ [.tradeBuildingsLiquidated tradeId p key (saleAt s key)]⟩) := by
  simp only [liquidateTradeBuilding, bind_eq_ok, findPropertyState_eq_ok,
    getTradeableTile_eq_ok] at h
  obtain ⟨property, hproperty, tile, htile, h⟩ := h
  have hsale : saleAt s key = max 0 (buildingValue tile property) := by
    have hkey : property.tileKey = key := GameEngineState.property?_key hproperty
    subst hkey
    simp only [saleAt, hproperty, Option.elim_some, saleAmount, htile]
  split at h
  · rename_i hle
    cases h
    exact .inl ⟨by omega, rfl⟩
  · rename_i hpos
    simp only [bind_eq_ok, creditPlayer_eq_ok, pure_eq_ok] at h
    obtain ⟨_, ⟨_, _, rfl⟩, rfl⟩ := h
    have hvalue : saleAt s key = buildingValue tile property := by omega
    refine .inr ⟨by omega, ?_⟩
    rw [soldOne, hvalue]

theorem saleAt_updatePropertyState {f : GameEngineProperty → GameEngineProperty}
    (hf : ∀ x, (f x).tileKey = x.tileKey) {key key' : TileKey} (amount : Int) (h : key' ≠ key) :
    saleAt ((s.addCash p amount).updatePropertyState key f) key' = saleAt s key' := by
  unfold saleAt
  rw [GameEngineState.property?_updatePropertyState _ _ hf, if_neg h]
  simp only [GameEngineState.board_eq]
  rfl

theorem soldState_cons_bare {key : TileKey} (keys : List TileKey)
    (hnd : (s.properties.map GameEngineProperty.tileKey).Nodup) (hzero : saleAt s key = 0)
    (tradeId : String) :
    soldState s p (key :: keys) = soldState s p keys ∧
      saleEvents s tradeId p (key :: keys) = saleEvents s tradeId p keys := by
  have htiles : soldTiles s (key :: keys) = soldTiles s keys := by
    apply List.map_congr_left
    intro x hx
    by_cases hxk : x.tileKey = key
    · have hfind : s.property? x.tileKey = some x := Keyed.find_of_mem _ hnd hx
      rw [hxk] at hfind
      have hid : soldTile s.board x = x := by
        apply if_pos
        simpa only [saleAt, hfind, Option.elim_some] using hzero
      simp only [hid, ite_self]
    · simp [hxk]
  constructor
  · unfold soldState
    rw [htiles]
    simp [sales, hzero]
  · simp [saleEvents, hzero]

theorem soldState_cons_built {key : TileKey} {keys : List TileKey}
    (hnd : (s.properties.map GameEngineProperty.tileKey).Nodup) (hkey : key ∉ keys)
    (hsale : saleAt s key ≠ 0) (tradeId : String) :
    soldState s p (key :: keys) = soldState (soldOne s p key) p keys ∧
      saleEvents s tradeId p (key :: keys) =
        .tradeBuildingsLiquidated tradeId p key (saleAt s key) ::
          saleEvents (soldOne s p key) tradeId p keys := by
  have hat : ∀ k ∈ keys, saleAt (soldOne s p key) k = saleAt s k := by
    intro k hk
    apply saleAt_updatePropertyState
    · intro _; rfl
    · rintro rfl
      exact hkey hk
  have hsales : sales (soldOne s p key) keys = sales s keys := by
    unfold sales
    rw [List.map_congr_left hat]
  have hevents : saleEvents (soldOne s p key) tradeId p keys = saleEvents s tradeId p keys := by
    unfold saleEvents
    apply List.filterMap_congr
    intro k hk
    rw [hat k hk]
  have htiles : soldTiles (soldOne s p key) keys = soldTiles s (key :: keys) := by
    unfold soldTiles soldOne GameEngineState.updatePropertyState Keyed.modify
    rw [List.map_map]
    apply List.map_congr_left
    intro x hx
    by_cases hxk : x.tileKey = key
    · have hx0 : saleAmount s.board x ≠ 0 := by
        have hfind : s.property? x.tileKey = some x := Keyed.find_of_mem _ hnd hx
        rw [hxk] at hfind
        simpa only [saleAt, hfind, Option.elim_some] using hsale
      simp only [GameEngineState.board_eq] at hx0
      simp [soldTile, hxk, hkey, hx0]
    · simp [hxk]
  constructor
  · unfold soldState
    rw [hsales, htiles]
    have hadd : (s.addCash p (saleAt s key)).addCash p (sales s keys) =
        s.addCash p (sales s (key :: keys)) := by
      rw [GameEngineState.addCash_addCash]
      simp [sales]
    rw [← hadd]
    rfl
  · rw [hevents]
    simp [saleEvents, hsale]

theorem soldOne_keys (key : TileKey) :
    (soldOne s p key).properties.map GameEngineProperty.tileKey =
      s.properties.map GameEngineProperty.tileKey := by
  apply Keyed.map_modify
  intro _; rfl

theorem soldState_nil : soldState s p [] = s := by
  simp [soldState, sales, soldTiles, GameEngineState.addCash_zero]

theorem foldlM_liquidate {tradeId : String} (keys : List TileKey) :
    ∀ {s : GameEngineState} {events : List GameEngineEvent} {r : GameEngineResult},
      (s.properties.map GameEngineProperty.tileKey).Nodup → keys.Nodup →
      keys.foldlM (liquidateTradeBuilding tradeId p) ⟨s, events⟩ = .ok r →
      r = ⟨soldState s p keys, events ++ saleEvents s tradeId p keys⟩ := by
  induction keys with
  | nil =>
    intro s events r _ _ h
    cases h
    simp [soldState_nil, saleEvents]
  | cons key keys ih =>
    intro s events r hnd hkeys h
    simp only [List.nodup_cons] at hkeys
    rw [List.foldlM_cons] at h
    simp only [bind_eq_ok] at h
    obtain ⟨first, hfirst, hrest⟩ := h
    rcases liquidateTradeBuilding_eq_ok hfirst with ⟨hzero, rfl⟩ | ⟨hsale, rfl⟩
    · obtain ⟨hstate, hevents⟩ := soldState_cons_bare (p := p) keys hnd hzero tradeId
      rw [ih hnd hkeys.2 hrest, hstate, hevents]
    · obtain ⟨hstate, hevents⟩ := soldState_cons_built (p := p) hnd hkeys.1 hsale tradeId
      rw [ih ((soldOne_keys key).symm ▸ hnd) hkeys.2 hrest, hstate, hevents, List.append_assoc,
        List.singleton_append]

/-! ## The intents -/

theorem soldTile_key (board : GameBoard) (x : GameEngineProperty) :
    (soldTile board x).tileKey = x.tileKey := by
  unfold soldTile
  split <;> rfl

theorem soldState_keys (keys : List TileKey) :
    (soldState s p keys).properties.map GameEngineProperty.tileKey =
      s.properties.map GameEngineProperty.tileKey := by
  unfold soldState soldTiles
  rw [List.map_map]
  apply List.map_congr_left
  intro x _
  simp only [Function.comp_apply]
  split
  · exact soldTile_key _ x
  · rfl

theorem saleAt_soldState {keys : List TileKey} {key : TileKey} (h : key ∉ keys) :
    saleAt (soldState s p keys) key = saleAt s key := by
  have hfind : (soldState s p keys).property? key = (s.property? key).map fun x =>
      if x.tileKey ∈ keys then soldTile s.board x else x := by
    apply Keyed.find_map
    intro x
    split
    · exact soldTile_key _ x
    · rfl
  unfold saleAt
  rw [hfind]
  cases hx : s.property? key with
  | none => rfl
  | some x =>
    have hxk : x.tileKey = key := GameEngineState.property?_key hx
    rw [Option.map_some, hxk, if_neg h]
    simp only [GameEngineState.board_eq]

theorem sales_soldState {keys others : List TileKey} (h : ∀ key ∈ others, key ∉ keys) :
    sales (soldState s p keys) others = sales s others := by
  unfold sales
  rw [List.map_congr_left fun key hkey => saleAt_soldState (h key hkey)]

theorem saleEvents_soldState {keys others : List TileKey} (h : ∀ key ∈ others, key ∉ keys)
    (tradeId : String) (q : RoomPlayerId) :
    saleEvents (soldState s p keys) tradeId q others = saleEvents s tradeId q others := by
  unfold saleEvents
  apply List.filterMap_congr
  intro key hkey
  rw [saleAt_soldState (h key hkey)]

theorem transfer_if_pos {q : RoomPlayerId} {amount : Int} {s' : GameEngineState}
    (h0 : 0 ≤ amount)
    (h : (if 0 < amount then transferPlayerCash s p q amount else .ok s) = .ok s') :
    s' = (s.addCash p (-amount)).addCash q amount := by
  split at h
  · exact (transferPlayerCash_eq_ok.mp h).2.2.2
  · rename_i hpos
    have hzero : amount = 0 := by omega
    cases h
    rw [hzero, neg_zero, GameEngineState.addCash_zero, GameEngineState.addCash_zero]

/-- Selling the tiles of both sides and handing them over, tile by tile. -/
theorem exchangedTiles_eq {trade : GameEngineTradeOffer}
    (hdisjoint : ∀ key ∈ trade.requestedPropertyKeys, key ∉ trade.offeredPropertyKeys) :
    (transferProperties (transferProperties (soldState
      (soldState s trade.fromRoomPlayerId trade.offeredPropertyKeys) trade.toRoomPlayerId
      trade.requestedPropertyKeys) trade.offeredPropertyKeys trade.toRoomPlayerId)
      trade.requestedPropertyKeys trade.fromRoomPlayerId).properties =
      s.properties.map (exchangedTile s.board trade) := by
  unfold transferProperties soldState soldTiles
  simp only [List.map_map]
  apply List.map_congr_left
  intro x _
  have hkey := soldTile_key classicGameBoard x
  by_cases hr : x.tileKey ∈ trade.requestedPropertyKeys
  · have ho : x.tileKey ∉ trade.offeredPropertyKeys := hdisjoint _ hr
    simp [exchangedTile, tradedTile, termsOf, hr, ho, hkey]
  · by_cases ho : x.tileKey ∈ trade.offeredPropertyKeys
    · simp [exchangedTile, tradedTile, termsOf, hr, ho, hkey]
    · simp [exchangedTile, tradedTile, termsOf, hr, ho]

/-- The proceeds and the two transfers, added up for each party. -/
theorem exchangedCash_eq {p q : RoomPlayerId} (a b c d : Int) :
    (((((s.addCash p a).addCash q b).addCash p (-c)).addCash q c).addCash q (-d)).addCash p d =
      (s.addCash p (a + d - c)).addCash q (b + c - d) := by
  simp only [GameEngineState.addCash_eq, List.map_map]
  congr 1
  apply List.map_congr_left
  intro x _
  simp only [Function.comp_apply]
  congr 1
  split <;> split <;> omega

theorem addCash_withTiles {x y : GameEngineState} {tiles : List GameEngineProperty}
    (amount : Int) (h : x = { y with properties := tiles }) :
    x.addCash p amount = { y.addCash p amount with properties := tiles } := by
  rw [h]
  rfl

/-- Tiles and cash are exchanged independently of each other. -/
theorem exchange_parts {x y : GameEngineState} {p q : RoomPlayerId} (a b c d : Int)
    (offered requested : List TileKey) (h : x = { y with properties := x.properties }) :
    { transferProperties (transferProperties
        ((((x.addCash p a).addCash q b).addCash q c).addCash p d) offered q) requested p with
      tradeOffer := none } =
    { (((y.addCash p a).addCash q b).addCash q c).addCash p d with
      properties :=
        (transferProperties (transferProperties x offered q) requested p).properties
      tradeOffer := none } := by
  have hcash : (((x.addCash p a).addCash q b).addCash q c).addCash p d =
      { (((y.addCash p a).addCash q b).addCash q c).addCash p d with
        properties := x.properties } :=
    addCash_withTiles d (addCash_withTiles c (addCash_withTiles b (addCash_withTiles a h)))
  rw [hcash]
  generalize (((y.addCash p a).addCash q b).addCash q c).addCash p d = z
  rfl

theorem soldState_soldState {p q : RoomPlayerId} (keys others : List TileKey) :
    soldState (soldState s p keys) q others =
      { (s.addCash p (sales s keys)).addCash q (sales (soldState s p keys) others) with
        properties := (soldState (soldState s p keys) q others).properties } := rfl

theorem exchanged_players {trade : GameEngineTradeOffer} :
    (exchanged s trade).players = s.players.map fun pl =>
      { pl with
        cash := pl.cash +
          (if pl.roomPlayerId = trade.fromRoomPlayerId then
            sales s trade.offeredPropertyKeys + trade.requestedCash - trade.offeredCash else 0) +
          (if pl.roomPlayerId = trade.toRoomPlayerId then
            sales s trade.requestedPropertyKeys + trade.offeredCash - trade.requestedCash
          else 0) } := by
  unfold exchanged
  simp only [GameEngineState.addCash_eq, List.map_map]
  rfl

theorem acceptTradeOffer_eq_ok {trade : GameEngineTradeOffer} {previous : List GameEngineEvent}
    {r : GameEngineResult} (hnd : (s.properties.map GameEngineProperty.tileKey).Nodup)
    (hoffer : PlainOffer trade) (h : acceptTradeOffer s trade previous = .ok r) :
    (∃ fromPlayer toPlayer, CanExchange s trade fromPlayer toPlayer) ∧
      r = ⟨exchanged s trade,
        previous ++ saleEvents s trade.id trade.fromRoomPlayerId trade.offeredPropertyKeys ++
          saleEvents s trade.id trade.toRoomPlayerId trade.requestedPropertyKeys ++
          [.tradeAccepted trade.id trade.fromRoomPlayerId trade.toRoomPlayerId]⟩ := by
  simp only [acceptTradeOffer, liquidateTradeBuildings, bind_eq_ok, pure_eq_ok] at h
  obtain ⟨_, hvalid, fromSold, hfromSold, toSold, htoSold, paid, hpaid, repaid, hrepaid, rfl⟩ := h
  obtain ⟨fromPlayer, toPlayer, hcan⟩ := validateTrade_eq_ok hvalid
  refine ⟨⟨fromPlayer, toPlayer, hcan⟩, ?_⟩
  have hsold := foldlM_liquidate _ hnd hoffer.offered hfromSold
  subst hsold
  have hnd' := hnd
  rw [← soldState_keys (p := trade.fromRoomPlayerId) trade.offeredPropertyKeys] at hnd'
  have hsold := foldlM_liquidate _ hnd' hoffer.requested htoSold
  subst hsold
  have hpaid := transfer_if_pos hoffer.offeredCash hpaid
  subst hpaid
  have hrepaid := transfer_if_pos hoffer.requestedCash hrepaid
  subst hrepaid
  rw [saleEvents_soldState hcan.disjoint]
  refine congrArg₂ GameEngineResult.mk ?_ rfl
  have htiles := exchangedTiles_eq (s := s) hcan.disjoint
  have hcash := exchangedCash_eq (s := s) (p := trade.fromRoomPlayerId)
    (q := trade.toRoomPlayerId) (sales s trade.offeredPropertyKeys)
    (sales s trade.requestedPropertyKeys) trade.offeredCash trade.requestedCash
  rw [← sales_soldState (p := trade.fromRoomPlayerId) hcan.disjoint] at hcash
  unfold exchanged
  rw [← htiles, ← sales_soldState (p := trade.fromRoomPlayerId) hcan.disjoint, ← hcash]
  exact exchange_parts _ _ _ _ _ _ (soldState_soldState _ _)

theorem markBotTradeProposal_eq_ok {marked : GameEngineState}
    (h : markBotTradeProposal s p = .ok marked) :
    marked = s ∨ marked =
      s.updatePlayer p fun x => { x with lastBotTradeProposalTurnNumber := some s.turnNumber } := by
  simp only [markBotTradeProposal, bind_eq_ok] at h
  obtain ⟨player, _, h⟩ := h
  split at h
  · cases h
    exact .inl rfl
  · cases h
    exact .inr rfl

theorem assertCanTrade_eq_ok {u : Unit} (h : assertCanTrade s p = .ok u) : TradePhase s := by
  simp only [assertCanTrade, bind_eq_ok, rejectIf_eq_ok] at h
  obtain ⟨_, _, _, hphase, _⟩ := h
  by_contra hnot
  simp only [TradePhase, not_or] at hnot
  exact hphase hnot

theorem assertTradeOffer_eq_ok {tradeId : String} {trade : GameEngineTradeOffer}
    (h : assertTradeOffer s tradeId = .ok trade) :
    s.tradeOffer = some trade ∧ trade.id = tradeId := by
  simp only [assertTradeOffer, orThrow_eq_ok, Option.filter_eq_some_iff] at h
  exact ⟨h.1, by simpa using h.2⟩

section Intents

variable {condition : GameEngineState → GameEngineTradeOffer → Prop}
  {r : GameEngineResult}

/-- A proposal marks the proposer and then waits, is refused, or is executed. The condition is
only asked for when a bot accepts. -/
theorem proposeTrade_trades {env : Env} {input : ProposeTradeInput}
    (hnd : (s.properties.map GameEngineProperty.tileKey).Nodup)
    (hcondition : ∀ trade marked, TradePhase s → tradeOfInput env input = .ok trade →
      markBotTradeProposal s input.roomPlayerId = .ok marked →
      (marked.player? trade.toRoomPlayerId).any (fun target => target.playerType = .bot) →
      shouldBotAcceptTrade marked trade = .ok true → condition marked trade)
    (h : proposeTrade env s input = .ok r) :
    Trace.Chain (Trade condition input.roomPlayerId) Settled s r.events r.state := by
  simp only [proposeTrade, bind_eq_ok, rejectIf_eq_ok, findPlayer_eq_ok] at h
  obtain ⟨_, hcanTrade, _, hne, _, hfree, trade, htrade, _, hvalid, marked, hmarked, target,
    htarget, h⟩ := h
  have hphase := assertCanTrade_eq_ok hcanTrade
  have hfree : s.tradeOffer = none := by simpa using hfree
  obtain ⟨hoffer, hfrom⟩ := tradeOfInput_wellFormed htrade hne
  obtain ⟨fromPlayer, toPlayer, hcan⟩ := validateTrade_eq_ok hvalid
  rw [hfrom] at hmarked
  have hmark : ∀ {t : GameEngineState} {events : List GameEngineEvent},
      Trace.Chain (Trade condition input.roomPlayerId) Settled marked events t →
      Trace.Chain (Trade condition input.roomPlayerId) Settled s events t := by
    intro t events hchain
    rcases markBotTradeProposal_eq_ok hmarked with rfl | rfl
    · exact hchain
    · have hfirst : Trade condition input.roomPlayerId s [] _ := .marked
      exact .cons hfirst hchain (.inr fun _ _ _ _ h => by cases h)
  -- a state that only differs in the pending offer is marked alike
  have hlast : ∀ {events : List GameEngineEvent} {offer : Option GameEngineTradeOffer},
      Trade condition input.roomPlayerId s events { s with tradeOffer := offer } →
      Trace.Chain (Trade condition input.roomPlayerId) Settled s events
        { marked with tradeOffer := offer } := by
    intro events offer hstep
    rcases markBotTradeProposal_eq_ok hmarked with rfl | rfl
    · exact .single hstep
    · have hmarkOffer : Trade condition input.roomPlayerId { s with tradeOffer := offer } []
          ({ s with tradeOffer := offer }.updatePlayer input.roomPlayerId fun x =>
            { x with lastBotTradeProposalTurnNumber := some s.turnNumber }) := .marked
      have hchain : Trace.Chain (Trade condition input.roomPlayerId) Settled s (events ++ []) _ :=
        .cons hstep (.single hmarkOffer) (.inl rfl)
      rw [List.append_nil] at hchain
      exact hchain
  split at h
  · rename_i hbot
    simp only [bind_eq_ok] at h
    obtain ⟨accepts, haccepts, h⟩ := h
    cases accepts with
    | true =>
      rw [if_pos rfl] at h
      have hkeys : marked.properties = s.properties ∧ marked.tradeOffer = s.tradeOffer := by
        rcases markBotTradeProposal_eq_ok hmarked with rfl | rfl
        · exact ⟨rfl, rfl⟩
        · exact ⟨rfl, rfl⟩
      rw [← hkeys.1] at hnd
      obtain ⟨⟨fromPlayer, toPlayer, hcan⟩, rfl⟩ := acceptTradeOffer_eq_ok hnd hoffer.plain h
      refine hmark (.single (.executed (.proposed (hkeys.2.trans hfree) hfrom) hoffer hcan ?_))
      exact hcondition trade marked hphase htrade hmarked (by simp [htarget, hbot]) haccepts
    | false =>
      simp only [Bool.false_eq_true, if_false, pure_eq_ok] at h
      subst h
      exact hlast (.refused hfree)
  · simp only [pure_eq_ok] at h
    subst h
    exact hlast (.offered hphase hfrom hoffer hcan)

theorem acceptTrade_trade {tradeId : String}
    (hnd : (s.properties.map GameEngineProperty.tileKey).Nodup)
    (hpending : ∀ trade, s.tradeOffer = some trade → WellFormedOffer trade)
    (hcondition : ∀ trade, s.tradeOffer = some trade → condition s trade)
    (h : acceptTrade s p tradeId = .ok r) : Trade condition p s r.events r.state := by
  simp only [acceptTrade, bind_eq_ok, rejectIf_eq_ok] at h
  obtain ⟨trade, htrade, _, hto, h⟩ := h
  obtain ⟨htrade, -⟩ := assertTradeOffer_eq_ok htrade
  obtain ⟨⟨fromPlayer, toPlayer, hcan⟩, rfl⟩ :=
    acceptTradeOffer_eq_ok hnd (hpending trade htrade).plain h
  exact .executed (.accepted htrade (by simpa using hto)) (hpending trade htrade) hcan
    (hcondition trade htrade)

theorem rejectTrade_trade {tradeId : String} (h : rejectTrade s p tradeId = .ok r) :
    Trade condition p s r.events r.state := by
  simp only [rejectTrade, bind_eq_ok, rejectIf_eq_ok, pure_eq_ok] at h
  obtain ⟨trade, _, _, _, rfl⟩ := h
  exact .rejected

theorem cancelTrade_trade {tradeId : String} (h : cancelTrade s p tradeId = .ok r) :
    Trade condition p s r.events r.state := by
  simp only [cancelTrade, bind_eq_ok, rejectIf_eq_ok, pure_eq_ok] at h
  obtain ⟨trade, _, _, _, rfl⟩ := h
  exact .cancelled

end Intents

end Code

end Rules
end LivePoly
