import Mathlib.Algebra.BigOperators.Ring.List
import LivePoly.Rules.NetWorth
import LivePoly.Rules.Offers

/-!
# Rules.Exchange

A valid trade is executed exactly: the tiles named change hands without their buildings, each
party gets half the building cost of what it gave and the agreed cash, and nothing else changes.
What one party gains in net worth the other one loses.
-/

namespace LivePoly
namespace Rules

open Engine Checked

/-- What the buildings on the tiles named sell for, each tile counted once. -/
def proceeds (s : GameEngineState) (keys : List TileKey) : Int :=
  (s.properties.map fun x => if x.tileKey ∈ keys then halfBuildingCost s.board x else 0).sum

/-- A player's record after the trade. -/
def paidPlayer (s : GameEngineState) (trade : GameEngineTradeOffer) (pl : GameEnginePlayer) :
    GameEnginePlayer :=
  { pl with
    cash := pl.cash +
      (if pl.roomPlayerId = trade.fromRoomPlayerId then
        proceeds s trade.offeredPropertyKeys + (trade.requestedCash - trade.offeredCash)
      else 0) +
      (if pl.roomPlayerId = trade.toRoomPlayerId then
        proceeds s trade.requestedPropertyKeys + (trade.offeredCash - trade.requestedCash)
      else 0) }

/-- A tile's record after the trade. -/
def handedTile (trade : GameEngineTradeOffer) (x : GameEngineProperty) : GameEngineProperty :=
  if x.tileKey ∈ trade.offeredPropertyKeys then
    { x with
      ownerRoomPlayerId := some trade.toRoomPlayerId
      houseCount := 0
      hasHotel := false }
  else if x.tileKey ∈ trade.requestedPropertyKeys then
    { x with
      ownerRoomPlayerId := some trade.fromRoomPlayerId
      houseCount := 0
      hasHotel := false }
  else x

/-- The offer with every tile named once. -/
def namedOnce (trade : GameEngineTradeOffer) : GameEngineTradeOffer :=
  { trade with
    offeredPropertyKeys := Distinct.distinct trade.offeredPropertyKeys
    requestedPropertyKeys := Distinct.distinct trade.requestedPropertyKeys }

/-- The net worth of the two parties of a trade together. -/
def jointWorth (s : GameEngineState) (trade : GameEngineTradeOffer) : Checked Int := do
  let fromWorth ← worthOf s trade.fromRoomPlayerId
  let toWorth ← worthOf s trade.toRoomPlayerId
  return fromWorth + toWorth

section Exchange

variable {s : GameEngineState} {p : RoomPlayerId} {trade : GameEngineTradeOffer}

/-! ## Tiles named twice -/

theorem saleAmount_sold (board : GameBoard) (x : GameEngineProperty) :
    saleAmount board (soldTile board x) = 0 := by
  unfold soldTile
  split
  · assumption
  · unfold saleAmount
    cases (board.tile? x.tileKey).bind GameTile.ownable? with
    | none => rfl
    | some tile => cases tile <;> simp [buildingValue, GameEngineProperty.level]

theorem saleAt_sold {keys : List TileKey} {key : TileKey} (h : key ∈ keys) :
    saleAt (soldState s p keys) key = 0 := by
  have hfind : (soldState s p keys).property? key = (s.property? key).map fun x =>
      if x.tileKey ∈ keys then soldTile s.board x else x := by
    apply Keyed.find_map
    intro x
    split
    · exact soldTile_key _ x
    · rfl
  unfold saleAt
  rw [hfind]
  cases hx : s.property? key with
  | none => rfl
  | some x =>
    have hkey : x.tileKey = key := GameEngineState.property?_key hx
    rw [Option.map_some, Option.elim_some, hkey, if_pos h, GameEngineState.board_eq,
      GameEngineState.board_eq]
    exact saleAmount_sold _ x

/-- A tile named again is passed over. -/
theorem liquidateTradeBuildings_distinct (tradeId : String) {keys : List TileKey}
    (hnd : (s.properties.map GameEngineProperty.tileKey).Nodup)
    (hlisted : (s.player? p).isSome) (hknown : KnownTiles s keys) :
    liquidateTradeBuildings s tradeId p keys =
      liquidateTradeBuildings s tradeId p (Distinct.distinct keys) := by
  induction keys using List.reverseRecOn with
  | nil => rfl
  | append_singleton keys key ih =>
    have hfirst : KnownTiles s keys := fun k hk => hknown k (List.mem_append_left _ hk)
    have hih := ih hfirst
    unfold liquidateTradeBuildings at hih ⊢
    rw [Distinct.distinct_concat, List.foldlM_append, hih]
    unfold Distinct.insert
    split
    · rename_i hmem
      have hdistinct : KnownTiles s (Distinct.distinct keys) := fun k hk =>
        hfirst k (Distinct.mem_distinct.mp hk)
      obtain ⟨r, hr, hsame⟩ := liquidateTradeBuildings_succeeds tradeId hlisted hdistinct
      unfold liquidateTradeBuildings at hr
      rw [hr, ok_bind, List.foldlM_cons]
      have hsold := foldlM_liquidate _ hnd (Distinct.distinct_nodup keys) hr
      obtain ⟨hproperty, tile, htile⟩ := hknown.mono hsame key (by simp)
      obtain ⟨next, hnext, _⟩ := liquidateTradeBuilding_succeeds tradeId r.events
        ((hsame.listed p).trans hlisted) hproperty htile
      rcases liquidateTradeBuilding_eq_ok hnext with ⟨_, rfl⟩ | ⟨hsale, _⟩
      · rw [hnext]
        rfl
      · rw [hsold] at hsale
        exact absurd (saleAt_sold hmem) hsale
    · rw [List.foldlM_append]

theorem assertPropertiesOwnedBy_congr {keys keys' : List TileKey}
    (h : ∀ key, key ∈ keys' ↔ key ∈ keys) (hok : assertPropertiesOwnedBy s keys p = .ok ()) :
    assertPropertiesOwnedBy s keys' p = .ok () :=
  forM_eq_ok.mpr fun key hkey => forM_eq_ok.mp hok key ((h key).mp hkey)

theorem validateTrade_namedOnce (h : validateTrade s trade = .ok ()) :
    validateTrade s (namedOnce trade) = .ok () := by
  have hempty : ∀ keys : List TileKey, (Distinct.distinct keys).length = 0 → keys.length = 0 := by
    intro keys
    simp only [List.length_eq_zero_iff, List.eq_nil_iff_forall_not_mem, Distinct.mem_distinct]
    exact id
  simp only [validateTrade, assertNoDuplicateCrossTradeProperties, bind_eq_ok,
    rejectIf_eq_ok] at h
  obtain ⟨fromPlayer, hfrom, toPlayer, hto, _, hactive, _, hcash, _, hoffers, _, hcross, _,
    hoffered, hrequested⟩ := h
  unfold validateTrade assertNoDuplicateCrossTradeProperties
  refine bind_eq_ok.mpr ⟨_, hfrom, bind_eq_ok.mpr ⟨_, hto, ?_⟩⟩
  refine bind_eq_ok.mpr ⟨(), rejectIf_eq_ok.mpr hactive, ?_⟩
  refine bind_eq_ok.mpr ⟨(), rejectIf_eq_ok.mpr hcash, ?_⟩
  refine bind_eq_ok.mpr ⟨(), rejectIf_eq_ok.mpr ?_, ?_⟩
  · rintro (⟨hcash, hkeys⟩ | ⟨hcash, hkeys⟩)
    · exact hoffers (.inl ⟨hcash, hempty _ hkeys⟩)
    · exact hoffers (.inr ⟨hcash, hempty _ hkeys⟩)
  refine bind_eq_ok.mpr ⟨(), rejectIf_eq_ok.mpr ?_, ?_⟩
  · rintro ⟨key, hreq, hoff⟩
    exact hcross ⟨key, Distinct.mem_distinct.mp hreq, Distinct.mem_distinct.mp hoff⟩
  refine bind_eq_ok.mpr ⟨(), ?_, ?_⟩
  · exact assertPropertiesOwnedBy_congr (fun _ => Distinct.mem_distinct) hoffered
  · exact assertPropertiesOwnedBy_congr (fun _ => Distinct.mem_distinct) hrequested

theorem transferProperties_distinct (keys : List TileKey) (q : RoomPlayerId) :
    transferProperties s (Distinct.distinct keys) q = transferProperties s keys q := by
  unfold transferProperties
  congr 1
  apply List.map_congr_left
  intro x _
  by_cases hx : x.tileKey ∈ keys
  · rw [if_pos hx, if_pos (Distinct.mem_distinct.mpr hx)]
  · rw [if_neg hx, if_neg fun h => hx (Distinct.mem_distinct.mp h)]

theorem acceptTradeOffer_namedOnce (hnd : (s.properties.map GameEngineProperty.tileKey).Nodup)
    (hvalid : validateTrade s trade = .ok ()) (previous : List GameEngineEvent) :
    acceptTradeOffer s trade previous = acceptTradeOffer s (namedOnce trade) previous := by
  obtain ⟨fromPlayer, toPlayer, hcan⟩ := validateTrade_eq_ok hvalid
  obtain ⟨hoffered, hrequested⟩ := validateTrade_known hvalid
  have hfrom : (s.player? trade.fromRoomPlayerId).isSome := by rw [hcan.fromFound]; rfl
  have hto : (s.player? trade.toRoomPlayerId).isSome := by rw [hcan.toFound]; rfl
  have hfirst := liquidateTradeBuildings_distinct trade.id hnd hfrom hoffered
  obtain ⟨sold, hsold, hsame⟩ := liquidateTradeBuildings_succeeds trade.id hfrom hoffered
  have hndSold : (sold.state.properties.map GameEngineProperty.tileKey).Nodup := by
    have hstate := hsold
    rw [hfirst] at hstate
    rw [foldlM_liquidate _ hnd (Distinct.distinct_nodup _) hstate, soldState_keys]
    exact hnd
  have hsecond := liquidateTradeBuildings_distinct trade.id hndSold
    ((hsame.listed _).trans hto) (hrequested.mono hsame)
  unfold acceptTradeOffer
  rw [hvalid, validateTrade_namedOnce hvalid, ok_bind, ok_bind]
  simp only [namedOnce, transferProperties_distinct]
  rw [← hfirst, hsold, ok_bind, ok_bind, ← hsecond]
  rfl

/-! ## What a trade leaves -/

theorem saleAmount_eq (ht : TilesOk s) {x : GameEngineProperty} (hx : x ∈ s.properties) :
    saleAmount s.board x = halfBuildingCost s.board x :=
  max_eq_right (halfBuildingCost_nonneg (ht.tile x hx).houses.1)

theorem sales_eq_proceeds (ht : TilesOk s) {keys : List TileKey} (hkeys : keys.Nodup) :
    sales s keys = proceeds s keys := by
  have hsales : sales s keys =
      (s.properties.map fun x => if x.tileKey ∈ keys then saleAmount s.board x else 0).sum :=
    Keyed.sum_map_find GameEngineProperty.tileKey ht.keys_nodup hkeys (saleAmount s.board)
  rw [hsales]
  unfold proceeds
  congr 1
  apply List.map_congr_left
  intro x hx
  rw [saleAmount_eq ht hx]

theorem soldTile_eq (ht : TilesOk s) {x : GameEngineProperty} (hx : x ∈ s.properties) :
    soldTile s.board x = { x with houseCount := 0, hasHotel := false } := by
  unfold soldTile
  split
  · -- a tile that sells for nothing has no building
    rename_i hsale
    have hbare := bare_of_halfBuildingCost (ht.tile x hx) ((saleAmount_eq ht hx).symm.trans hsale)
    rw [← hbare.1, ← hbare.2]
  · rfl

theorem exchangedTile_namedOnce (ht : TilesOk s)
    (hdisjoint : ∀ key ∈ trade.requestedPropertyKeys, key ∉ trade.offeredPropertyKeys)
    {x : GameEngineProperty} (hx : x ∈ s.properties) :
    exchangedTile s.board (namedOnce trade) x = handedTile trade x := by
  unfold exchangedTile tradedTile termsOf handedTile namedOnce
  simp only [Distinct.mem_distinct]
  rw [soldTile_eq ht hx]
  by_cases ho : x.tileKey ∈ trade.offeredPropertyKeys
  · have hr : x.tileKey ∉ trade.requestedPropertyKeys := fun hr => hdisjoint _ hr ho
    simp [ho, hr]
  · by_cases hr : x.tileKey ∈ trade.requestedPropertyKeys
    · simp [ho, hr]
    · simp [ho, hr]

theorem proceeds_distinct (keys : List TileKey) :
    proceeds s (Distinct.distinct keys) = proceeds s keys := by
  unfold proceeds
  simp only [Distinct.mem_distinct]

theorem exchanged_namedOnce (ht : TilesOk s)
    (hdisjoint : ∀ key ∈ trade.requestedPropertyKeys, key ∉ trade.offeredPropertyKeys) :
    exchanged s (namedOnce trade) =
      { s with
        players := s.players.map (paidPlayer s trade)
        properties := s.properties.map (handedTile trade)
        tradeOffer := none } := by
  have hplayers : (exchanged s (namedOnce trade)).players =
      s.players.map (paidPlayer s trade) := by
    rw [exchanged_players]
    apply List.map_congr_left
    intro pl _
    unfold paidPlayer
    simp only [namedOnce, sales_eq_proceeds ht (Distinct.distinct_nodup _), proceeds_distinct,
      add_sub_assoc]
  have htiles : (exchanged s (namedOnce trade)).properties =
      s.properties.map (handedTile trade) :=
    List.map_congr_left fun x hx => exchangedTile_namedOnce ht hdisjoint hx
  rw [← hplayers, ← htiles]
  rfl

/-! ## Net worth -/

theorem handedTile_key (trade : GameEngineTradeOffer) (x : GameEngineProperty) :
    (handedTile trade x).tileKey = x.tileKey := by
  unfold handedTile
  split
  · rfl
  · split <;> rfl

/-- For the two parties together a tile handed over loses its buildings. A party that trades with
itself is counted twice. -/
theorem givenTile_worth (board : GameBoard) {q : RoomPlayerId} {x : GameEngineProperty}
    (howner : x.ownerRoomPlayerId = some p) :
    ownedWorth board p
        { x with ownerRoomPlayerId := some q, houseCount := 0, hasHotel := false } +
      ownedWorth board q
        { x with ownerRoomPlayerId := some q, houseCount := 0, hasHotel := false } +
      (if p = q then 2 else 1) * halfBuildingCost board x =
      ownedWorth board p x + ownedWorth board q x := by
  have hcleared := assetWorth_cleared board x (some q)
  rw [ownedWorth_of_owner board p howner, ownedWorth_of_owner board q howner,
    ownedWorth_of_owner (p := q) board p rfl, ownedWorth_of_owner (p := q) board q rfl]
  by_cases hself : p = q
  · subst hself
    simp only [if_true]
    omega
  · simp only [if_true, if_neg hself, if_neg (Ne.symm hself)]
    omega

theorem handedTile_worth (board : GameBoard)
    (hdisjoint : ∀ key ∈ trade.requestedPropertyKeys, key ∉ trade.offeredPropertyKeys)
    {x : GameEngineProperty}
    (hoffered : x.tileKey ∈ trade.offeredPropertyKeys →
      x.ownerRoomPlayerId = some trade.fromRoomPlayerId)
    (hrequested : x.tileKey ∈ trade.requestedPropertyKeys →
      x.ownerRoomPlayerId = some trade.toRoomPlayerId) :
    ownedWorth board trade.fromRoomPlayerId (handedTile trade x) +
        ownedWorth board trade.toRoomPlayerId (handedTile trade x) +
        (if trade.fromRoomPlayerId = trade.toRoomPlayerId then 2 else 1) *
          ((if x.tileKey ∈ trade.offeredPropertyKeys then halfBuildingCost board x else 0) +
            (if x.tileKey ∈ trade.requestedPropertyKeys then halfBuildingCost board x else 0)) =
      ownedWorth board trade.fromRoomPlayerId x + ownedWorth board trade.toRoomPlayerId x := by
  unfold handedTile
  by_cases ho : x.tileKey ∈ trade.offeredPropertyKeys
  · have hr : x.tileKey ∉ trade.requestedPropertyKeys := fun hr => hdisjoint _ hr ho
    rw [if_pos ho, if_pos ho, if_neg hr, add_zero]
    exact givenTile_worth board (hoffered ho)
  · by_cases hr : x.tileKey ∈ trade.requestedPropertyKeys
    · rw [if_neg ho, if_pos hr, if_neg ho, if_pos hr, zero_add]
      have hgiven := givenTile_worth board (q := trade.fromRoomPlayerId) (hrequested hr)
      simp only [eq_comm (a := trade.toRoomPlayerId)] at hgiven
      omega
    · simp [ho, hr]

/-- What the tiles of both parties lose in worth is what their buildings are sold for. -/
theorem handed_assets {s' : GameEngineState}
    (hs : s'.properties = s.properties.map (handedTile trade))
    {fromPlayer toPlayer : GameEnginePlayer} (hcan : CanExchange s trade fromPlayer toPlayer)
    (hnd : (s.properties.map GameEngineProperty.tileKey).Nodup) :
    assets s' trade.fromRoomPlayerId + assets s' trade.toRoomPlayerId +
        (if trade.fromRoomPlayerId = trade.toRoomPlayerId then 2 else 1) *
          (proceeds s trade.offeredPropertyKeys + proceeds s trade.requestedPropertyKeys) =
      assets s trade.fromRoomPlayerId + assets s trade.toRoomPlayerId := by
  have hboard : s'.board = s.board := by rw [s.board_eq, s'.board_eq]
  unfold assets proceeds
  rw [hs, hboard, List.map_map, List.map_map, ← List.sum_map_add, ← List.sum_map_add,
    ← List.sum_map_mul_left, ← List.sum_map_add, ← List.sum_map_add]
  congr 1
  apply List.map_congr_left
  intro x hx
  exact handedTile_worth s.board hcan.disjoint (hcan.offered.owner hnd hx)
    (hcan.requested.owner hnd hx)

theorem jointWorth_eq (h : OnBoard s) {fromPlayer toPlayer : GameEnginePlayer}
    (hfrom : s.player? trade.fromRoomPlayerId = some fromPlayer)
    (hto : s.player? trade.toRoomPlayerId = some toPlayer) :
    jointWorth s trade = .ok (fromPlayer.cash + assets s trade.fromRoomPlayerId +
      (toPlayer.cash + assets s trade.toRoomPlayerId)) := by
  unfold jointWorth
  rw [worthOf_eq h hfrom, worthOf_eq h hto]
  rfl

/-- What the parties get in cash is what the buildings are sold for. -/
theorem paidPlayer_cash (s : GameEngineState) (trade : GameEngineTradeOffer)
    {fromPlayer toPlayer : GameEnginePlayer}
    (hfrom : fromPlayer.roomPlayerId = trade.fromRoomPlayerId)
    (hto : toPlayer.roomPlayerId = trade.toRoomPlayerId) :
    (paidPlayer s trade fromPlayer).cash + (paidPlayer s trade toPlayer).cash =
      fromPlayer.cash + toPlayer.cash +
        (if trade.fromRoomPlayerId = trade.toRoomPlayerId then 2 else 1) *
          (proceeds s trade.offeredPropertyKeys + proceeds s trade.requestedPropertyKeys) := by
  unfold paidPlayer
  simp only [hfrom, hto, if_true]
  by_cases hself : trade.fromRoomPlayerId = trade.toRoomPlayerId
  · simp only [hself, if_true]
    omega
  · simp only [if_neg hself, if_neg (Ne.symm hself)]
    omega

theorem jointWorth_exchanged (ht : TilesOk s) {fromPlayer toPlayer : GameEnginePlayer}
    (hcan : CanExchange s trade fromPlayer toPlayer) {s' : GameEngineState}
    (hplayers : s'.players = s.players.map (paidPlayer s trade))
    (htiles : s'.properties = s.properties.map (handedTile trade)) :
    ∃ worth, jointWorth s trade = .ok worth ∧ jointWorth s' trade = .ok worth := by
  have hfind : ∀ q, s'.player? q = (s.player? q).map (paidPlayer s trade) := by
    intro q
    unfold GameEngineState.player?
    rw [hplayers]
    apply Keyed.find_map
    intro _
    rfl
  have hfrom := hfind trade.fromRoomPlayerId
  have hto := hfind trade.toRoomPlayerId
  rw [hcan.fromFound, Option.map_some] at hfrom
  rw [hcan.toFound, Option.map_some] at hto
  have honBoard : OnBoard s' := OnBoard.map ht.keys (handedTile_key trade) htiles
  refine ⟨_, jointWorth_eq ht.keys hcan.fromFound hcan.toFound, ?_⟩
  rw [jointWorth_eq honBoard hfrom hto]
  have hcash := paidPlayer_cash s trade
    (GameEngineState.player?_id hcan.fromFound) (GameEngineState.player?_id hcan.toFound)
  have hassets := handed_assets htiles hcan ht.keys_nodup
  congr 1
  omega

end Exchange

section Exactness

variable {s : GameEngineState} {trade : GameEngineTradeOffer}

/-- A valid trade changes what it says and nothing else. -/
theorem acceptTradeOffer_done (ht : TilesOk s) (hoffered : 0 ≤ trade.offeredCash)
    (hrequested : 0 ≤ trade.requestedCash) (hvalid : validateTrade s trade = .ok ())
    (previous : List GameEngineEvent) :
    ∃ r, acceptTradeOffer s trade previous = .ok r ∧ r.state = { s with
      players := s.players.map (paidPlayer s trade)
      properties := s.properties.map (handedTile trade)
      tradeOffer := none } := by
  obtain ⟨fromPlayer, toPlayer, hcan⟩ := validateTrade_eq_ok hvalid
  have hplain : PlainOffer (namedOnce trade) :=
    ⟨hoffered, hrequested, Distinct.distinct_nodup _, Distinct.distinct_nodup _⟩
  obtain ⟨r, hr⟩ := acceptTradeOffer_succeeds ht.keys_nodup hplain
    (validateTrade_namedOnce hvalid) previous
  obtain ⟨_, rfl⟩ := acceptTradeOffer_eq_ok ht.keys_nodup hplain hr
  exact ⟨_, (acceptTradeOffer_namedOnce ht.keys_nodup hvalid previous).trans hr,
    exchanged_namedOnce ht hcan.disjoint⟩

/-- A trade is executed exactly when it is valid, and changes what it says and nothing else. -/
theorem acceptTradeOffer_exact (ht : TilesOk s) (hoffered : 0 ≤ trade.offeredCash)
    (hrequested : 0 ≤ trade.requestedCash) (previous : List GameEngineEvent) :
    (∀ e, validateTrade s trade = .error e → acceptTradeOffer s trade previous = .error e) ∧
      (validateTrade s trade = .ok () → ∃ r, acceptTradeOffer s trade previous = .ok r ∧
        r.state = { s with
          players := s.players.map (paidPlayer s trade)
          properties := s.properties.map (handedTile trade)
          tradeOffer := none } ∧
        ∃ worth, jointWorth s trade = .ok worth ∧ jointWorth r.state trade = .ok worth) := by
  constructor
  · intro e hinvalid
    unfold acceptTradeOffer
    rw [hinvalid]
    rfl
  · intro hvalid
    obtain ⟨fromPlayer, toPlayer, hcan⟩ := validateTrade_eq_ok hvalid
    obtain ⟨r, hr, hstate⟩ := acceptTradeOffer_done ht hoffered hrequested hvalid previous
    refine ⟨r, hr, hstate, ?_⟩
    rw [hstate]
    exact jointWorth_exchanged ht hcan rfl rfl

/-- The first player has built on South Africa and sells it to the second one for 100. -/
def southAfricaOffer : GameEngineTradeOffer :=
  ⟨"trade", ⟨1⟩, ⟨2⟩, 0, 100, [.southAfrica], [], 0⟩

/-- The house is sold for 25, and the tile changes hands without it. -/
theorem threePlayers_sellSouthAfrica : ∃ s r, Reachable threePlayers s ∧
    acceptTradeOffer s southAfricaOffer [] = .ok r ∧
    r.state.players = s.players.map (paidPlayer s southAfricaOffer) ∧
    proceeds s southAfricaOffer.offeredPropertyKeys = 25 ∧
    (s.property? .southAfrica).map GameEngineProperty.houseCount = some 1 ∧
    (r.state.property? .southAfrica).map GameEngineProperty.houseCount = some 0 ∧
    (r.state.property? .southAfrica).map GameEngineProperty.ownerRoomPlayerId =
      some (some ⟨2⟩) := by
  obtain ⟨before, hbefore, htest⟩ := exists_ok_of_any (by decide +kernel :
    (playThree lightBlueHouse).toOption.any
      (fun before => validateTrade before.state southAfricaOffer = .ok () ∧
        proceeds before.state southAfricaOffer.offeredPropertyKeys = 25 ∧
        (before.state.property? .southAfrica).map GameEngineProperty.houseCount = some 1 ∧
        ((before.state.property? .southAfrica).map (handedTile southAfricaOffer)).map
          GameEngineProperty.houseCount = some 0 ∧
        ((before.state.property? .southAfrica).map (handedTile southAfricaOffer)).map
          GameEngineProperty.ownerRoomPlayerId = some (some ⟨2⟩)) = true)
  obtain ⟨hvalid, hproceeds, hhouse, hbare, howner⟩ := of_decide_eq_true htest
  have hreach : Reachable threePlayers before.state := playRoom_reachable hbefore
  have ht : TilesOk before.state := (reachable_valid threePlayers_valid hreach).tiles
  obtain ⟨r, hr, hstate, _⟩ := (acceptTradeOffer_exact ht (le_refl 0) (by decide) []).2 hvalid
  have hfind : r.state.property? .southAfrica =
      (before.state.property? .southAfrica).map (handedTile southAfricaOffer) := by
    rw [hstate]
    exact Keyed.find_map GameEngineProperty.tileKey (handedTile_key _) _ _
  rw [← hfind] at hbare howner
  exact ⟨before.state, r, hreach, hr, by rw [hstate], hproceeds, hhouse, hbare, howner⟩

end Exactness

end Rules
end LivePoly
