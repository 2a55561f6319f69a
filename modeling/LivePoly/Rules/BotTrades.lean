import LivePoly.Rules.Exchange

/-!
# Rules.BotTrades

What a bot gets out of a trade it accepts. Its valuation counts a tile's buildings, which are sold
for the giver, and passes over its mortgage; its net worth does neither.
-/

namespace LivePoly
namespace Rules

open Engine Checked

/-- What a tile is worth to the player it is handed to: it comes without buildings. -/
def strippedWorth (board : GameBoard) (x : GameEngineProperty) : Int :=
  ((board.tile? x.tileKey).bind GameTile.ownable?).elim 0 fun tile =>
    tile.price - (if x.mortgaged then tile.mortgageValue else 0)

/-- What a bot sees in a tile beyond that. -/
def excessValue (board : GameBoard) (x : GameEngineProperty) : Int :=
  ((board.tile? x.tileKey).bind GameTile.ownable?).elim 0 fun tile =>
    buildingValue tile x + (if x.mortgaged then tile.mortgageValue else 0)

/-- The sum over the records of the tiles named. -/
def sumNamed (s : GameEngineState) (keys : List TileKey) (f : GameEngineProperty → Int) : Int :=
  (s.properties.map fun x => if x.tileKey ∈ keys then f x else 0).sum

/-- What one side of a trade is worth to the other one. -/
def strippedValue (s : GameEngineState) (cash : Int) (keys : List TileKey) : Int :=
  cash + sumNamed s keys (strippedWorth s.board)

/-- The mortgages and the buildings on the tiles named. -/
def overvalued (s : GameEngineState) (keys : List TileKey) : Int :=
  sumNamed s keys (excessValue s.board)

/-- The trade completes no set, for neither side. -/
def CompletesNoSet (s : GameEngineState) (trade : GameEngineTradeOffer) : Prop :=
  getSetCompletionValue s trade.toRoomPlayerId trade.offeredPropertyKeys
      trade.requestedPropertyKeys = .ok 0 ∧
    getSetCompletionValue s trade.fromRoomPlayerId trade.requestedPropertyKeys
      trade.offeredPropertyKeys = .ok 0

section Values

variable {s : GameEngineState} {trade : GameEngineTradeOffer}

theorem strippedWorth_add_half (board : GameBoard) (x : GameEngineProperty) :
    strippedWorth board x + halfBuildingCost board x = assetWorth board x := by
  unfold strippedWorth halfBuildingCost assetWorth
  cases (board.tile? x.tileKey).bind GameTile.ownable? with
  | none => rfl
  | some tile =>
    simp only [Option.elim_some, calculateAssetNetWorth]
    omega

theorem assetWorth_stripped (board : GameBoard) (x : GameEngineProperty)
    (owner : Option RoomPlayerId) :
    assetWorth board { x with ownerRoomPlayerId := owner, houseCount := 0, hasHotel := false } =
      strippedWorth board x := by
  have hcleared := assetWorth_cleared board x owner
  have hstripped := strippedWorth_add_half board x
  omega

theorem assets_handed {s' : GameEngineState}
    (hother : trade.fromRoomPlayerId ≠ trade.toRoomPlayerId)
    (hs : s'.properties = s.properties.map (handedTile trade))
    {fromPlayer toPlayer : GameEnginePlayer} (hcan : CanExchange s trade fromPlayer toPlayer)
    (hnd : (s.properties.map GameEngineProperty.tileKey).Nodup) :
    assets s' trade.toRoomPlayerId +
        (sumNamed s trade.requestedPropertyKeys (strippedWorth s.board) +
          proceeds s trade.requestedPropertyKeys) =
      assets s trade.toRoomPlayerId +
        sumNamed s trade.offeredPropertyKeys (strippedWorth s.board) := by
  have hboard : s'.board = s.board := by rw [s.board_eq, s'.board_eq]
  unfold assets sumNamed proceeds
  rw [hs, hboard, List.map_map, ← List.sum_map_add, ← List.sum_map_add, ← List.sum_map_add]
  congr 1
  apply List.map_congr_left
  intro x hx
  have hstripped := strippedWorth_add_half s.board x
  by_cases ho : x.tileKey ∈ trade.offeredPropertyKeys
  · have hr : x.tileKey ∉ trade.requestedPropertyKeys := fun hr => hcan.disjoint _ hr ho
    have hbefore : ownedWorth s.board trade.toRoomPlayerId x = 0 :=
      (ownedWorth_of_owner _ _ (hcan.offered.owner hnd hx ho)).trans (if_neg hother)
    have hafter : ownedWorth s.board trade.toRoomPlayerId (handedTile trade x) =
        strippedWorth s.board x := by
      rw [handedTile, if_pos ho, ownedWorth_of_owner _ _ rfl, if_pos rfl]
      exact assetWorth_stripped _ _ _
    rw [Function.comp_apply, hbefore, hafter, if_pos ho, if_neg hr, if_neg hr]
    omega
  · by_cases hr : x.tileKey ∈ trade.requestedPropertyKeys
    · have hbefore : ownedWorth s.board trade.toRoomPlayerId x = assetWorth s.board x :=
        (ownedWorth_of_owner _ _ (hcan.requested.owner hnd hx hr)).trans (if_pos rfl)
      have hafter : ownedWorth s.board trade.toRoomPlayerId (handedTile trade x) = 0 := by
        rw [handedTile, if_neg ho, if_pos hr, ownedWorth_of_owner _ _ rfl]
        exact if_neg hother
      rw [Function.comp_apply, hbefore, hafter, if_neg ho, if_pos hr, if_pos hr]
      omega
    · have hsame : handedTile trade x = x := by
        rw [handedTile, if_neg ho, if_neg hr]
      rw [Function.comp_apply, hsame, if_neg ho, if_neg hr, if_neg hr]
      omega

/-- What the trade adds to the net worth of the player it is offered to. -/
theorem worthOf_exchanged (ht : TilesOk s) (hother : trade.fromRoomPlayerId ≠ trade.toRoomPlayerId)
    {fromPlayer toPlayer : GameEnginePlayer} (hcan : CanExchange s trade fromPlayer toPlayer)
    {s' : GameEngineState} (hplayers : s'.players = s.players.map (paidPlayer s trade))
    (htiles : s'.properties = s.properties.map (handedTile trade)) :
    ∃ before after, worthOf s trade.toRoomPlayerId = .ok before ∧
      worthOf s' trade.toRoomPlayerId = .ok after ∧
      after + strippedValue s trade.requestedCash trade.requestedPropertyKeys =
        before + strippedValue s trade.offeredCash trade.offeredPropertyKeys := by
  have hto : s'.player? trade.toRoomPlayerId = some (paidPlayer s trade toPlayer) := by
    have hfind : s'.player? trade.toRoomPlayerId =
        (s.player? trade.toRoomPlayerId).map (paidPlayer s trade) := by
      unfold GameEngineState.player?
      rw [hplayers]
      apply Keyed.find_map
      intro _
      rfl
    rw [hfind, hcan.toFound, Option.map_some]
  have honBoard : OnBoard s' := OnBoard.map ht.keys (handedTile_key trade) htiles
  refine ⟨_, _, worthOf_eq ht.keys hcan.toFound, worthOf_eq honBoard hto, ?_⟩
  have hid : toPlayer.roomPlayerId = trade.toRoomPlayerId :=
    GameEngineState.player?_id hcan.toFound
  have hcash : (paidPlayer s trade toPlayer).cash = toPlayer.cash +
      (proceeds s trade.requestedPropertyKeys + (trade.offeredCash - trade.requestedCash)) := by
    unfold paidPlayer
    simp only [hid, if_true, if_neg (Ne.symm hother), add_zero]
  have hassets := assets_handed hother htiles hcan ht.keys_nodup
  unfold strippedValue
  omega

/-! ## What the bot sees -/

theorem price_eq (board : GameBoard) {x : GameEngineProperty} {tile : OwnableTile}
    (h : (board.tile? x.tileKey).bind GameTile.ownable? = some tile) :
    tile.price + buildingValue tile x = strippedWorth board x + excessValue board x := by
  unfold strippedWorth excessValue
  rw [h, Option.elim_some, Option.elim_some]
  omega

theorem foldlM_tradeValue (h : OnBoard s) {q : RoomPlayerId} {keys : List TileKey}
    (howns : OwnsTiles s q keys) (total : Int) :
    keys.foldlM (fun sum tileKey => do
        let property ← findPropertyState s tileKey
        let tile ← getTradeableTile s tileKey
        return sum + tile.price + buildingValue tile property) total =
      (.ok (total + (keys.map fun key => (s.property? key).elim 0 fun x =>
        strippedWorth s.board x + excessValue s.board x).sum) : Checked Int) := by
  induction keys generalizing total with
  | nil => simp
  | cons key keys ih =>
    obtain ⟨x, hx, _⟩ := howns key List.mem_cons_self
    have hkey : x.tileKey = key := GameEngineState.property?_key hx
    obtain ⟨tile, htile⟩ := h.ownable (Keyed.find_mem _ hx)
    have hvalue := price_eq s.board htile
    rw [hkey] at htile
    have hfound : findPropertyState s key = .ok x := findPropertyState_eq_ok.mpr hx
    have htrade : getTradeableTile s key = .ok tile := orThrow_eq_ok.mpr htile
    rw [List.foldlM_cons, hfound, ok_bind, htrade, ok_bind, pure_bind,
      ih fun k hk => howns k (List.mem_cons_of_mem _ hk)]
    rw [List.map_cons, List.sum_cons, hx, Option.elim_some]
    congr 1
    omega

theorem getTradeValue_eq (h : OnBoard s) {q : RoomPlayerId} {keys : List TileKey}
    (howns : OwnsTiles s q keys) (hkeys : keys.Nodup) (cash : Int) :
    getTradeValue s cash keys = .ok (strippedValue s cash keys + overvalued s keys) := by
  have hsum := Keyed.sum_map_find GameEngineProperty.tileKey h.keys_nodup hkeys fun x =>
    strippedWorth s.board x + excessValue s.board x
  have hsplit : (s.properties.map fun x => if x.tileKey ∈ keys then
        strippedWorth s.board x + excessValue s.board x else 0).sum =
      sumNamed s keys (strippedWorth s.board) + sumNamed s keys (excessValue s.board) := by
    unfold sumNamed
    rw [← List.sum_map_add]
    congr 1
    apply List.map_congr_left
    intro x _
    split <;> rfl
  rw [getTradeValue, foldlM_tradeValue h howns 0, ok_bind]
  unfold strippedValue overvalued
  refine congrArg Except.ok ?_
  rw [zero_add, add_assoc, ← hsplit, ← hsum]
  rfl

theorem board_prices {tile : GameTile} (h : tile ∈ classicGameBoard.tiles) {asset : OwnableTile}
    (hasset : tile.ownable? = some asset) : 0 ≤ asset.price := by
  have hall : classicGameBoard.tiles.all (fun tile =>
      tile.ownable?.all fun asset => decide (0 ≤ asset.price)) = true := by
    decide +kernel
  have htile := List.all_eq_true.mp hall _ h
  rw [hasset] at htile
  exact of_decide_eq_true htile

theorem tradeValue_nonneg (ht : TilesOk s) {cash : Int} (hcash : 0 ≤ cash) (keys : List TileKey) :
    0 ≤ strippedValue s cash keys + overvalued s keys := by
  have hsum : 0 ≤ sumNamed s keys (strippedWorth s.board) +
      sumNamed s keys (excessValue s.board) := by
    unfold sumNamed
    rw [← List.sum_map_add]
    apply List.sum_nonneg
    intro value hvalue
    obtain ⟨x, hx, rfl⟩ := List.mem_map.mp hvalue
    split
    · obtain ⟨tile, htile⟩ := OnBoard.ownable ht.keys hx
      obtain ⟨found, hfound, hasset⟩ := Option.bind_eq_some_iff.mp htile
      have hmem : found ∈ classicGameBoard.tiles := s.board_eq ▸ Keyed.find_mem _ hfound
      have hprice := board_prices hmem hasset
      have hbuildings := halfBuildingCost_nonneg (s := s) (ht.tile x hx).houses.1
      unfold halfBuildingCost at hbuildings
      rw [htile, Option.elim_some] at hbuildings
      have hvalue := price_eq s.board htile
      omega
    · exact le_refl 0
  unfold strippedValue overvalued
  omega

/-- What a bot that is not easy accepts without completing a set is worth, as it sees it, at least
what it gives. -/
theorem tradeValue_le (ht : TilesOk s) (hoffer : WellFormedOffer trade)
    {fromPlayer bot : GameEnginePlayer} (hcan : CanExchange s trade fromPlayer bot)
    (hdifficulty : bot.botDifficulty ≠ some .easy) (hsets : CompletesNoSet s trade)
    (haccepts : shouldBotAcceptTrade s trade = .ok true) :
    strippedValue s trade.requestedCash trade.requestedPropertyKeys +
        overvalued s trade.requestedPropertyKeys ≤
      strippedValue s trade.offeredCash trade.offeredPropertyKeys +
        overvalued s trade.offeredPropertyKeys := by
  have hreceives := getTradeValue_eq ht.keys hcan.offered hoffer.offered trade.offeredCash
  have hgives := getTradeValue_eq ht.keys hcan.requested hoffer.requested trade.requestedCash
  have hmargin : (21 / 20 : Rat) ≤ tradeAcceptanceMargin (bot.botDifficulty.getD .normal) := by
    cases hbot : bot.botDifficulty with
    | none => decide +kernel
    | some difficulty =>
      cases difficulty with
      | easy => exact absurd hbot hdifficulty
      | normal => decide +kernel
      | hard => decide +kernel
  rw [shouldBotAcceptTrade, findPlayer_eq_ok.mpr hcan.toFound, ok_bind, hreceives, hsets.1, hgives,
    hsets.2] at haccepts
  have hcompared := of_decide_eq_true (Except.ok.inj haccepts)
  simp only [Int.cast_zero, zero_mul, Binary64.fl_zero, add_zero] at hcompared
  exact Binary64.le_of_fl_le (tradeValue_nonneg ht hoffer.requestedCash _)
    (tradeValue_nonneg ht hoffer.offeredCash _) hmargin hcompared

/-- A trade leaves the bot no poorer exactly if what it gets is worth what it gives, the tiles
counted without buildings and less their mortgages. Accepting it the bot loses at most the
mortgages and the buildings on the tiles it is offered. -/
theorem botTrade_fair_iff (ht : TilesOk s) (hoffer : WellFormedOffer trade)
    (hvalid : validateTrade s trade = .ok ()) :
    ∃ r before after, acceptTradeOffer s trade [] = .ok r ∧
      worthOf s trade.toRoomPlayerId = .ok before ∧
      worthOf r.state trade.toRoomPlayerId = .ok after ∧
      (before ≤ after ↔
        strippedValue s trade.requestedCash trade.requestedPropertyKeys ≤
          strippedValue s trade.offeredCash trade.offeredPropertyKeys) ∧
      (shouldBotAcceptTrade s trade = .ok true → CompletesNoSet s trade →
        (∀ bot, s.player? trade.toRoomPlayerId = some bot → bot.botDifficulty ≠ some .easy) →
        before + overvalued s trade.requestedPropertyKeys ≤
          after + overvalued s trade.offeredPropertyKeys) := by
  obtain ⟨fromPlayer, bot, hcan⟩ := validateTrade_eq_ok hvalid
  obtain ⟨r, hr, hstate⟩ :=
    acceptTradeOffer_done ht hoffer.offeredCash hoffer.requestedCash hvalid []
  have hplayers : r.state.players = s.players.map (paidPlayer s trade) := by rw [hstate]
  have htiles : r.state.properties = s.properties.map (handedTile trade) := by rw [hstate]
  obtain ⟨before, after, hbefore, hafter, hworth⟩ :=
    worthOf_exchanged ht hoffer.other hcan hplayers htiles
  refine ⟨r, before, after, hr, hbefore, hafter, ?_, ?_⟩
  · constructor
    · intro h
      omega
    · intro h
      omega
  · intro haccepts hsets hdifficulty
    have hle := tradeValue_le ht hoffer hcan (hdifficulty bot hcan.toFound) hsets haccepts
    omega

end Values

/-! ## A tile for 54 -/

/-- A human and a bot. -/
def guestAndBot : CreateInitialGameStateInput where
  roomId := "room"
  startedAt := some 0
  durationMinutes := 60
  players := [⟨⟨1⟩, .human, none, 1⟩, ⟨⟨2⟩, .bot, some .normal, 2⟩]

theorem guestAndBot_valid : ValidInput guestAndBot where
  ids := by decide
  seats := by decide
  players := by decide
  human := ⟨_, List.mem_cons_self, rfl⟩

/-- The human asks the bot 54 for Ghana. -/
def ghanaForCash : GameEngineTradeOffer := ⟨"trade", ⟨1⟩, ⟨2⟩, 0, 54, [.ghana], [], 0⟩

theorem ghanaForCash_wellFormed : WellFormedOffer ghanaForCash where
  other := by decide
  offeredCash := le_refl 0
  requestedCash := by decide
  offered := by decide
  requested := by decide

theorem ghanaForCash_fair : ∃ s before after r, Reachable guestAndBot s ∧
    shouldBotAcceptTrade s ghanaForCash = .ok true ∧ acceptTradeOffer s ghanaForCash [] = .ok r ∧
    worthOf s ⟨2⟩ = .ok before ∧ worthOf r.state ⟨2⟩ = .ok after ∧ before ≤ after := by
  obtain ⟨played, hplayed, htest⟩ := exists_ok_of_any (by decide +kernel :
    (playRoom ⟨0, "room"⟩ guestAndBot
      (atStart [.rollAndMove ⟨1⟩ [.int 1, .int 2], .buyProperty ⟨1⟩])).toOption.any
      (fun played => validateTrade played.state ghanaForCash = .ok () ∧
        shouldBotAcceptTrade played.state ghanaForCash = .ok true ∧
        strippedValue played.state 54 [] ≤ strippedValue played.state 0 [.ghana]) = true)
  obtain ⟨hvalid, haccepts, hfair⟩ := of_decide_eq_true htest
  have hreach : Reachable guestAndBot played.state := playRoom_reachable hplayed
  obtain ⟨r, before, after, hr, hbefore, hafter, hiff, _⟩ := botTrade_fair_iff
    (reachable_valid guestAndBot_valid hreach).tiles ghanaForCash_wellFormed hvalid
  exact ⟨_, before, after, r, hreach, haccepts, hr, hbefore, hafter, hiff.mpr hfair⟩

/-- Ghana is mortgaged: its price is 60, and the bot's net worth falls by 24. -/
theorem ghanaForCash_unfair : ∃ s before after r, Reachable guestAndBot s ∧
    validateTrade s ghanaForCash = .ok () ∧ CompletesNoSet s ghanaForCash ∧
    (s.player? ⟨2⟩).map GameEnginePlayer.botDifficulty = some (some .normal) ∧
    shouldBotAcceptTrade s ghanaForCash = .ok true ∧ acceptTradeOffer s ghanaForCash [] = .ok r ∧
    worthOf s ⟨2⟩ = .ok before ∧ worthOf r.state ⟨2⟩ = .ok after ∧ after = before - 24 := by
  obtain ⟨played, hplayed, htest⟩ := exists_ok_of_any (by decide +kernel :
    (playRoom ⟨0, "room"⟩ guestAndBot
      (atStart [.rollAndMove ⟨1⟩ [.int 1, .int 2], .buyProperty ⟨1⟩,
        .mortgageProperty ⟨1⟩ .ghana])).toOption.any
      (fun played => validateTrade played.state ghanaForCash = .ok () ∧
        (getSetCompletionValue played.state ⟨2⟩ [.ghana] [] = .ok 0 ∧
          getSetCompletionValue played.state ⟨1⟩ [] [.ghana] = .ok 0) ∧
        (played.state.player? ⟨2⟩).map GameEnginePlayer.botDifficulty = some (some .normal) ∧
        shouldBotAcceptTrade played.state ghanaForCash = .ok true ∧
        (acceptTradeOffer played.state ghanaForCash []).toOption.any (fun r =>
          worthOf played.state ⟨2⟩ = .ok 1500 ∧ worthOf r.state ⟨2⟩ = .ok 1476)) = true)
  obtain ⟨hvalid, hsets, hdifficulty, haccepts, htraded⟩ := of_decide_eq_true htest
  obtain ⟨r, hr, hworth⟩ := exists_ok_of_any htraded
  obtain ⟨hbefore, hafter⟩ := of_decide_eq_true hworth
  exact ⟨_, 1500, 1476, r, playRoom_reachable hplayed, hvalid, hsets, hdifficulty, haccepts, hr,
    hbefore, hafter, rfl⟩

end Rules
end LivePoly
