import LivePoly.Rules.BotChoices
import LivePoly.Rules.BotTrades
import LivePoly.Rules.PendingOffers

/-!
# Rules.BotTurn

A bot's turn comes to an end. Redeeming a mortgage or building leaves less to redeem or to build,
and a trade is proposed once in a turn.
-/

namespace LivePoly
namespace Rules

open Engine Service Checked

/-- The turn of the bot `p` is at its end. -/
structure BotAtEnd (s : GameEngineState) (p : RoomPlayerId) : Prop where
  valid : Valid s
  offers : OffersToHumans s
  phase : s.phase = .awaitingTurnEnd
  turn : ∃ bot, OnTurn s p bot ∧ bot.playerType = .bot

/-- What can still be redeemed on a tile or built there. -/
def tileRoom (x : GameEngineProperty) : Nat := (if x.mortgaged then 1 else 0) + (5 - x.level).toNat

def roomLeft (s : GameEngineState) : Nat := (s.properties.map tileRoom).sum

/-- The player has not proposed a trade in this turn. -/
def proposalLeft (s : GameEngineState) (p : RoomPlayerId) : Nat :=
  if (s.player? p).any fun pl => pl.lastBotTradeProposalTurnNumber = some s.turnNumber then 0 else 1

/-- The proposal that is left, and then the room that is left. -/
def turnMeasure (p : RoomPlayerId) (s : GameEngineState) : Nat × Nat :=
  (proposalLeft s p, roomLeft s)

def TurnShrinks (p : RoomPlayerId) (s' s : GameEngineState) : Prop :=
  Prod.Lex (· < ·) (· < ·) (turnMeasure p s') (turnMeasure p s)

theorem turnShrinks_wellFounded (p : RoomPlayerId) : WellFounded (TurnShrinks p) :=
  InvImage.wf (turnMeasure p) (WellFounded.prod_lex Nat.lt_wfRel.wf Nat.lt_wfRel.wf)

/-! ## A tile changes -/

section Tile

variable {s : GameEngineState} {p : RoomPlayerId} {key : TileKey} {amount : Int}
  {x : GameEngineProperty} {f : GameEngineProperty → GameEngineProperty}

theorem rebuilt_players (q : RoomPlayerId) : ∃ cash : GameEnginePlayer → Int,
    (rebuilt s p key amount f).player? q =
      (s.player? q).map fun pl => { pl with cash := cash pl } := by
  have hq : (rebuilt s p key amount f).player? q = _ := GameEngineState.player?_addCash s p q amount
  by_cases hself : q = p
  · rw [if_pos hself] at hq
    exact ⟨_, hq⟩
  · rw [if_neg hself] at hq
    refine ⟨GameEnginePlayer.cash, hq.trans ?_⟩
    cases s.player? q <;> rfl

theorem BotAtEnd.kept (h : BotAtEnd s p) (hvalid : Valid (rebuilt s p key amount f)) :
    BotAtEnd (rebuilt s p key amount f) p where
  valid := hvalid
  offers := by
    intro trade htrade
    obtain ⟨target, htarget, hhuman⟩ := h.offers trade htrade
    obtain ⟨cash, hplayer⟩ := @rebuilt_players s p key amount f trade.toRoomPlayerId
    rw [htarget, Option.map_some] at hplayer
    exact ⟨_, hplayer, hhuman⟩
  phase := h.phase
  turn := by
    obtain ⟨bot, ho, hbot⟩ := h.turn
    refine ⟨{ bot with cash := bot.cash + amount }, ⟨?_, ho.active, ho.current⟩, hbot⟩
    rw [rebuilt_player?, ho.player, Option.map_some]

theorem proposalLeft_rebuilt : proposalLeft (rebuilt s p key amount f) p = proposalLeft s p := by
  unfold proposalLeft
  rw [rebuilt_player?, Option.any_map]
  rfl

theorem roomLeft_rebuilt (hnd : (s.properties.map GameEngineProperty.tileKey).Nodup)
    (hx : s.property? key = some x) (hless : tileRoom (f x) < tileRoom x) :
    roomLeft (rebuilt s p key amount f) < roomLeft s := by
  have hsum : roomLeft (rebuilt s p key amount f) + tileRoom x = roomLeft s + tileRoom (f x) :=
    Keyed.sum_map_modify GameEngineProperty.tileKey hnd hx f tileRoom
  omega

theorem turnShrinks_rebuilt (hnd : (s.properties.map GameEngineProperty.tileKey).Nodup)
    (hx : s.property? key = some x) (hless : tileRoom (f x) < tileRoom x) :
    TurnShrinks p (rebuilt s p key amount f) s := by
  unfold TurnShrinks turnMeasure
  rw [proposalLeft_rebuilt]
  exact .right _ (roomLeft_rebuilt hnd hx hless)

end Tile

/-! ## What the bot picks can be done -/

section Picks

variable {s : GameEngineState} {p : RoomPlayerId} {bot : GameEnginePlayer} {env : Env}

theorem cashReserve_pos (bot : GameEnginePlayer) : 0 < GameBotService.cashReserve bot := by
  unfold GameBotService.cashReserve
  cases GameBotService.difficulty bot <;> decide

theorem maxDevelopmentLevel_le (difficulty : BotDifficulty) : maxDevelopmentLevel difficulty ≤ 5 := by
  cases difficulty <;> decide

theorem unmortgageCost_nonneg {key : TileKey} {tile : OwnableTile}
    (h : (s.board.tile? key).bind GameTile.ownable? = some tile) :
    0 ≤ getUnmortgageCost tile.mortgageValue := by
  have hall : classicGameBoard.tiles.all (fun t =>
      t.ownable?.all fun tile => decide (0 ≤ getUnmortgageCost tile.mortgageValue)) = true := by
    decide +kernel
  obtain ⟨found, hfound, hown⟩ := Option.bind_eq_some_iff.mp h
  have hmem : found ∈ classicGameBoard.tiles := s.board_eq ▸ Keyed.find_mem _ hfound
  have htile := List.all_eq_true.mp hall _ hmem
  rw [hown] at htile
  exact of_decide_eq_true htile

theorem assertCanManage_atEnd (ho : OnTurn s p bot) (hphase : s.phase = .awaitingTurnEnd)
    (code : GameEngineErrorCode) (message : String) (allow : Bool) :
    assertCanManage code message s p allow = .ok () := by
  have hactive : s.phase ≠ .finished ∧ s.phase ≠ .cancelled := by
    rw [hphase]
    exact ⟨by decide, by decide⟩
  refine bind_eq_ok.mpr ⟨(), assertGameActive_eq_ok.mpr hactive, ?_⟩
  exact bind_eq_ok.mpr ⟨(), rejectIf_eq_ok.mpr fun hnot => hnot.1 hphase,
    assertCurrentTurn_eq_ok.mpr ⟨bot, ho⟩⟩

theorem onOwnTurn_eq (ho : OnTurn s p bot) (action : Checked GameEngineResult) :
    GameEngineService.onOwnTurn s p action = action := by
  have hturn : assertCurrentTurn s p = .ok () := assertCurrentTurn_eq_ok.mpr ⟨bot, ho⟩
  rw [GameEngineService.onOwnTurn, hturn, ok_bind]

theorem unmortgage_done (env : Env) (ht : TilesOk s) (ho : OnTurn s p bot)
    (hphase : s.phase = .awaitingTurnEnd) {key : TileKey}
    (h : GameBotService.findPropertyToUnmortgage s bot = .ok (some key)) :
    ∃ r amount x, reduceGameEngineIntent env s (.unmortgageProperty p key) = .ok r ∧
      r.state = rebuilt s p key amount (fun y => { y with mortgaged := false }) ∧
      s.property? key = some x ∧ x.mortgaged = true := by
  obtain ⟨x, hx, tile, rfl, howner, hmortgaged, htile, hcash⟩ := findPropertyToUnmortgage_eq_some h
  have hid : bot.roomPlayerId = p := GameEngineState.player?_id ho.player
  have hfind : s.property? x.tileKey = some x := ht.find hx
  obtain ⟨found, hfound, hown⟩ := Option.bind_eq_some_iff.mp htile
  have hkey : tile.key = x.tileKey :=
    (ownable?_key hown).trans (Keyed.find_key GameTile.key hfound)
  have hreserve := cashReserve_pos bot
  have hproperty : findPropertyState s tile.key = .ok x := by
    rw [hkey]
    exact findPropertyState_eq_ok.mpr hfind
  have hdebit := debitPlayer_eq_ok.mpr ⟨unmortgageCost_nonneg htile, bot, ho.player,
    (by omega : getUnmortgageCost tile.mortgageValue ≤ bot.cash), rfl⟩
  have hmanage : assertCanManageMortgage s p false = .ok () := assertCanManage_atEnd ho hphase _ _ _
  have howned : assertOwnedBy x p = .ok () :=
    rejectIf_eq_ok.mpr (not_not.mpr (hid ▸ howner))
  have hredeem : rejectIf (!x.mortgaged) .propertyNotMortgaged "Property is not mortgaged" =
      .ok () := by
    rw [hmortgaged]
    rfl
  have hfoundTile : getMortgageableTileByKey s.board x.tileKey = .ok tile := orThrow_eq_ok.mpr htile
  rw [reduceGameEngineIntent, onOwnTurn_eq ho, unmortgageProperty, hmanage, ok_bind, hfoundTile,
    ok_bind, hproperty, ok_bind, howned, ok_bind, hredeem, ok_bind]
  exact ⟨_, _, x, bind_eq_ok.mpr ⟨_, hdebit, rfl⟩, rfl, hfind, hmortgaged⟩

theorem build_done (env : Env) (hv : Valid s) (ho : OnTurn s p bot)
    (hphase : s.phase = .awaitingTurnEnd) {key : TileKey}
    (h : GameBotService.findPropertyToBuild s bot = .ok (some key)) :
    ∃ r amount f x, reduceGameEngineIntent env s (.buildProperty p key) = .ok r ∧
      r.state = rebuilt s p key amount f ∧ s.property? key = some x ∧
      (f x).mortgaged = x.mortgaged ∧ (f x).level = x.level + 1 ∧ x.level < 5 := by
  obtain ⟨tile, x, rfl, hstreet, hx, hset, hlevel, hcash⟩ := findPropertyToBuild_eq_some hv.tiles h
  have hid : bot.roomPlayerId = p := GameEngineState.player?_id ho.player
  rw [hid] at hset
  have hreserve := cashReserve_pos bot
  have hmax := maxDevelopmentLevel_le (GameBotService.difficulty bot)
  have hok : TileOk s x := hv.tileOk hx
  have hrange := hok.houses
  have hbelow : x.level < 5 := by omega
  have hhotel : x.hasHotel = false := by
    cases hx : x.hasHotel with
    | false => rfl
    | true =>
      have hhigh := level_hotel hx hrange.1
      omega
  have hcount := level_house hhotel
  have hmanages : Manages s p tile x :=
    ⟨hphase, ⟨bot, ho⟩, hstreet, hx, fun other hother => by
      obtain ⟨y, hy, howner, _⟩ := hset other hother
      exact ⟨y, hy, howner, trivial⟩⟩
  have hofSet : OfSet s tile fun y => y.mortgaged = false ∧ x.level ≤ y.level ∧ TileOk s y := by
    intro other hother y hy
    obtain ⟨z, hz, _, hclear, hle⟩ := hset other hother
    cases hy.symm.trans hz
    exact ⟨hclear, hle, hv.tileOk hy⟩
  have hdebt : s.debt = none := by
    by_contra hsome
    have hother := hv.phase.debt.mp (Option.isSome_iff_ne_none.mpr hsome)
    rw [hphase] at hother
    cases hother
  have hmay : MayBuild s p tile := ⟨hdebt, hofSet.mono fun _ hy => hy.1, bot, ho.player, by omega⟩
  rw [reduceGameEngineIntent, onOwnTurn_eq ho]
  by_cases hfew : x.houseCount < 4
  · have hlow : OfSet s tile fun y => y.hasHotel = false → x.houseCount ≤ y.houseCount := by
      intro other hother y hy hyhotel
      have hle := (hofSet other hother y hy).2.1
      rw [level_house hyhotel] at hle
      omega
    obtain ⟨r, hr, hstate⟩ := hmanages.buildsHouse hmay hhotel hfew hlow
    refine ⟨r, _, _, x, hr, hstate, hx, rfl, ?_, hbelow⟩
    have hnext : (withHouses (x.houseCount + 1) x).level = x.houseCount + 1 := level_house hhotel
    rw [hnext, hcount]
  · have hfour : x.houseCount = 4 := by omega
    have hhigh : OfSet s tile fun y => y.hasHotel = true ∨ y.houseCount = 4 := by
      intro other hother y hy
      obtain ⟨_, hle, hyok⟩ := hofSet other hother y hy
      have hyrange := hyok.houses
      cases hyhotel : y.hasHotel with
      | true => exact .inl rfl
      | false =>
        rw [level_house hyhotel] at hle
        right
        omega
    obtain ⟨r, hr, hstate⟩ := hmanages.buildsHotel hmay hhotel hfour hhigh
    refine ⟨r, _, _, x, hr, hstate, hx, rfl, ?_, hbelow⟩
    rw [hcount, hfour]
    rfl

end Picks

/-! ## A trade the bot proposes -/

section Proposal

variable {s : GameEngineState} {p : RoomPlayerId} {bot : GameEnginePlayer} {env : Env}
  {trade : GameEngineTradeOffer}

theorem board_streets (P : PropertyTile → Bool)
    (hall : classicGameBoard.tiles.all (fun t => t.property?.all P) = true) {tile : PropertyTile}
    (h : .property tile ∈ classicGameBoard.tiles) : P tile = true :=
  List.all_eq_true.mp hall _ h

theorem uniquePropertyKeys_street {tile : PropertyTile}
    (h : .property tile ∈ classicGameBoard.tiles) :
    uniquePropertyKeys [tileKeyName tile.key] = .ok [tile.key] :=
  of_decide_eq_true (board_streets
    (fun tile => decide (uniquePropertyKeys [tileKeyName tile.key] = .ok [tile.key]))
    (by decide +kernel) h)

theorem street_price_pos {tile : PropertyTile} (h : .property tile ∈ classicGameBoard.tiles) :
    0 < tile.price :=
  of_decide_eq_true (board_streets (fun tile => decide (0 < tile.price)) (by decide +kernel) h)

theorem validateTrade_of_can {fromPlayer toPlayer : GameEnginePlayer}
    (hcan : CanExchange s trade fromPlayer toPlayer)
    (hoffers : 0 < trade.offeredCash) (hrequests : trade.requestedPropertyKeys ≠ [])
    (hoffered : KnownTiles s trade.offeredPropertyKeys)
    (hrequested : KnownTiles s trade.requestedPropertyKeys) : validateTrade s trade = .ok () := by
  have howned : ∀ {q keys}, OwnsTiles s q keys → KnownTiles s keys →
      assertPropertiesOwnedBy s keys q = .ok () := by
    intro q keys howns hknown
    refine forM_eq_ok.mpr fun key hkey => ?_
    obtain ⟨x, hx, howner⟩ := howns key hkey
    obtain ⟨_, tile, htile⟩ := hknown key hkey
    exact bind_eq_ok.mpr ⟨x, findPropertyState_eq_ok.mpr hx, bind_eq_ok.mpr
      ⟨(), rejectIf_eq_ok.mpr (not_not.mpr howner), bind_eq_ok.mpr ⟨tile, htile, rfl⟩⟩⟩
  refine bind_eq_ok.mpr ⟨_, findPlayer_eq_ok.mpr hcan.fromFound, ?_⟩
  refine bind_eq_ok.mpr ⟨_, findPlayer_eq_ok.mpr hcan.toFound, ?_⟩
  refine bind_eq_ok.mpr ⟨(), rejectIf_eq_ok.mpr ?_, ?_⟩
  · rw [hcan.fromActive, hcan.toActive]
    decide
  refine bind_eq_ok.mpr ⟨(), rejectIf_eq_ok.mpr ?_, ?_⟩
  · exact not_or.mpr ⟨Int.not_lt.mpr hcan.offeredCash, Int.not_lt.mpr hcan.requestedCash⟩
  refine bind_eq_ok.mpr ⟨(), rejectIf_eq_ok.mpr ?_, ?_⟩
  · rintro (⟨hnone, _⟩ | ⟨_, hnone⟩)
    · omega
    · exact hrequests (List.length_eq_zero_iff.mp hnone)
  refine bind_eq_ok.mpr ⟨(), rejectIf_eq_ok.mpr ?_, ?_⟩
  · rintro ⟨key, hreq, hoff⟩
    exact hcan.disjoint key hreq hoff
  exact bind_eq_ok.mpr ⟨(), howned hcan.offered hoffered, howned hcan.requested hrequested⟩

theorem completesSet_succeeds (h : OnBoard s) (q : RoomPlayerId) (incoming outgoing : List TileKey)
    (setKey : PropertySetKey) : Succeeds (completesSet s q incoming outgoing setKey) := by
  refine succeeds_allM fun tile htile => ?_
  split
  · exact succeeds_pure false
  · split
    · exact succeeds_pure true
    · obtain ⟨x, hx⟩ := OnBoard.street h (setTiles_street htile).1
      exact succeeds_bind (findPropertyState_eq_ok.mpr hx) (succeeds_pure _)

theorem getSetCompletionValue_succeeds (h : OnBoard s) {incoming : List TileKey}
    (hknown : KnownTiles s incoming) (q : RoomPlayerId) (outgoing : List TileKey) :
    Succeeds (getSetCompletionValue s q incoming outgoing) := by
  unfold getSetCompletionValue
  refine Succeeds.then ?_ fun _ _ => succeeds_pure _
  refine (succeeds_foldlM (fun _ => True) (fun completed _ key hkey => ?_) trivial).imp
    fun _ hdone => hdone.1
  obtain ⟨_, tile, htile⟩ := hknown key hkey
  rw [htile, ok_bind]
  cases tile with
  | property tile =>
    dsimp only
    split
    · exact ⟨completed, rfl, trivial⟩
    · obtain ⟨completes, hcompletes⟩ := completesSet_succeeds h q incoming outgoing tile.setKey
      rw [hcompletes, ok_bind]
      cases completes with
      | true => exact ⟨_, rfl, trivial⟩
      | false => exact ⟨_, rfl, trivial⟩
  | airport _ => exact ⟨completed, rfl, trivial⟩
  | utility _ => exact ⟨completed, rfl, trivial⟩

theorem shouldBotAcceptTrade_succeeds (h : OnBoard s) (hoffer : WellFormedOffer trade)
    {fromPlayer toPlayer : GameEnginePlayer} (hcan : CanExchange s trade fromPlayer toPlayer)
    (hoffered : KnownTiles s trade.offeredPropertyKeys)
    (hrequested : KnownTiles s trade.requestedPropertyKeys) :
    Succeeds (shouldBotAcceptTrade s trade) := by
  have hfound : findPlayer s trade.toRoomPlayerId = .ok toPlayer :=
    findPlayer_eq_ok.mpr hcan.toFound
  have hreceives := getTradeValue_eq h hcan.offered hoffer.offered trade.offeredCash
  have hgives := getTradeValue_eq h hcan.requested hoffer.requested trade.requestedCash
  obtain ⟨completed, hcompleted⟩ := getSetCompletionValue_succeeds h hoffered
    trade.toRoomPlayerId trade.requestedPropertyKeys
  obtain ⟨given, hgiven⟩ := getSetCompletionValue_succeeds h hrequested
    trade.fromRoomPlayerId trade.offeredPropertyKeys
  rw [shouldBotAcceptTrade, hfound, ok_bind, hreceives, ok_bind, hcompleted, ok_bind, hgives,
    ok_bind, hgiven]
  exact succeeds_pure _

end Proposal

section Proposes

variable {s : GameEngineState} {p q : RoomPlayerId} {bot target : GameEnginePlayer} {env : Env}
  {cash : Int} {key : TileKey}

/-- The bot has proposed a trade in this turn. -/
def hasProposed (s : GameEngineState) (p : RoomPlayerId) : GameEngineState :=
  s.updatePlayer p fun pl => { pl with lastBotTradeProposalTurnNumber := some s.turnNumber }

/-- What a bot offers: cash for one tile. -/
def botOffer (env : Env) (p q : RoomPlayerId) (cash : Int) (key : TileKey) :
    GameEngineTradeOffer where
  id := env.randomUUID
  fromRoomPlayerId := p
  toRoomPlayerId := q
  offeredCash := cash
  requestedCash := 0
  offeredPropertyKeys := []
  requestedPropertyKeys := [key]
  createdAt := env.now

/-- The bot can pay what it offers, and the tile is the other player's. -/
structure MayPropose (s : GameEngineState) (p q : RoomPlayerId) (cash : Int) (tile : PropertyTile) :
    Prop where
  other : p ≠ q
  positive : 0 < cash
  bot : ∃ bot, s.player? p = some bot ∧ bot.bankrupt = false ∧ bot.playerType = .bot ∧
    cash ≤ bot.cash
  target : ∃ target, s.player? q = some target ∧ target.bankrupt = false ∧ 0 ≤ target.cash
  street : .property tile ∈ s.board.tiles
  owned : ∃ x, s.property? tile.key = some x ∧ x.ownerRoomPlayerId = some q

variable {tile : PropertyTile}

theorem hasProposed_player? : (hasProposed s p).player? q =
    if q = p then
      (s.player? q).map fun pl => { pl with lastBotTradeProposalTurnNumber := some s.turnNumber }
    else s.player? q :=
  GameEngineState.player?_updatePlayer s p q fun _ => rfl

theorem MayPropose.marked (h : MayPropose s p q cash tile) :
    MayPropose (hasProposed s p) p q cash tile where
  other := h.other
  positive := h.positive
  bot := by
    obtain ⟨bot, hbot, hactive, htype, hcash⟩ := h.bot
    refine ⟨{ bot with lastBotTradeProposalTurnNumber := some s.turnNumber }, ?_, hactive, htype,
      hcash⟩
    rw [hasProposed_player?, if_pos rfl, hbot, Option.map_some]
  target := by
    obtain ⟨target, htarget, hactive, hcash⟩ := h.target
    refine ⟨target, ?_, hactive, hcash⟩
    rw [hasProposed_player?, if_neg (Ne.symm h.other)]
    exact htarget
  street := h.street
  owned := h.owned

theorem botOffer_wellFormed (h : MayPropose s p q cash tile) :
    WellFormedOffer (botOffer env p q cash tile.key) where
  other := h.other
  offeredCash := h.positive.le
  requestedCash := le_refl 0
  offered := List.nodup_nil
  requested := List.nodup_singleton _

theorem MayPropose.canExchange (h : MayPropose s p q cash tile) (env : Env) :
    ∃ fromPlayer toPlayer, CanExchange s (botOffer env p q cash tile.key) fromPlayer toPlayer := by
  obtain ⟨bot, hbot, hbotActive, _, hcash⟩ := h.bot
  obtain ⟨target, htarget, htargetActive, hfunded⟩ := h.target
  refine ⟨bot, target, hbot, htarget, hbotActive, htargetActive, hcash, hfunded, ?_, ?_, ?_⟩
  · exact fun _ _ => List.not_mem_nil
  · intro _ hnone
    cases hnone
  · intro asked hasked
    cases List.mem_singleton.mp hasked
    exact h.owned

theorem MayPropose.knownTiles (h : MayPropose s p q cash tile) : KnownTiles s [tile.key] := by
  intro asked hasked
  cases List.mem_singleton.mp hasked
  obtain ⟨x, hx, _⟩ := h.owned
  have hfound : s.board.tile? tile.key = some (.property tile) := tile?_of_mem h.street
  refine ⟨Option.isSome_of_eq_some hx, .property tile, orThrow_eq_ok.mpr ?_⟩
  rw [hfound]
  rfl

theorem knownTiles_nil : KnownTiles s [] := by
  intro _ hnone
  cases hnone

theorem MayPropose.valid (h : MayPropose s p q cash tile) :
    validateTrade s (botOffer env p q cash tile.key) = .ok () := by
  obtain ⟨_, _, hcan⟩ := h.canExchange env
  exact validateTrade_of_can hcan h.positive (List.cons_ne_nil _ _) knownTiles_nil h.knownTiles

theorem markBotTradeProposal_bot (hbot : s.player? p = some bot) (htype : bot.playerType = .bot) :
    markBotTradeProposal s p = .ok (hasProposed s p) := by
  rw [markBotTradeProposal, findPlayer_eq_ok.mpr hbot, ok_bind, if_neg (not_not.mpr htype)]
  rfl

theorem tradeOfInput_bot (h : MayPropose s p q cash tile) :
    tradeOfInput env ⟨p, q, .int cash, .int 0, [], [tileKeyName tile.key], none⟩ =
      .ok (botOffer env p q cash tile.key) := by
  have hcash : normalizeCash (.int cash) = .ok cash :=
    orThrow_eq_ok.mpr (if_pos h.positive.le)
  have hkey : uniquePropertyKeys [tileKeyName tile.key] = .ok [tile.key] :=
    uniquePropertyKeys_street (s.board_eq ▸ h.street)
  have hzero : normalizeCash (.int 0) = .ok 0 := orThrow_eq_ok.mpr rfl
  have hnone : uniquePropertyKeys [] = .ok [] := by decide
  rw [tradeOfInput, hcash, ok_bind, hzero, ok_bind, hnone, ok_bind, hkey, ok_bind]
  rfl

/-- How the trade a bot proposes ends: a human has to answer it, a bot has refused it, or it is
done. -/
inductive Proposed (s : GameEngineState) (trade : GameEngineTradeOffer) : GameEngineState → Prop
  | pending : (∃ target, s.player? trade.toRoomPlayerId = some target ∧
      target.playerType = .human) → Proposed s trade { s with tradeOffer := some trade }
  | rejected : Proposed s trade { s with tradeOffer := none }
  | accepted : Proposed s trade { s with
      players := s.players.map (paidPlayer s trade)
      properties := s.properties.map (handedTile trade)
      tradeOffer := none }

theorem propose_done (env : Env) (hv : Valid s) (hphase : s.phase = .awaitingTurnEnd)
    (hoffer : s.tradeOffer = none) (h : MayPropose s p q cash tile) :
    ∃ r, reduceGameEngineIntent env s
        (.proposeTrade ⟨p, q, .int cash, .int 0, [], [tileKeyName tile.key], none⟩) = .ok r ∧
      Proposed (hasProposed s p) (botOffer env p q cash tile.key) r.state := by
  obtain ⟨bot, hbot, hactive, htype, _⟩ := h.bot
  have hdebt : s.debt = none := by
    by_contra hsome
    have hother := hv.phase.debt.mp (Option.isSome_iff_ne_none.mpr hsome)
    rw [hphase] at hother
    cases hother
  have hcanTrade : assertCanTrade s p = .ok () := by
    have hgame : s.phase ≠ .finished ∧ s.phase ≠ .cancelled := by
      rw [hphase]
      exact ⟨by decide, by decide⟩
    refine bind_eq_ok.mpr ⟨(), assertGameActive_eq_ok.mpr hgame, ?_⟩
    refine bind_eq_ok.mpr ⟨(), rejectIf_eq_ok.mpr fun hnot => hnot.2.2.2 hphase, ?_⟩
    refine bind_eq_ok.mpr ⟨(), rejectIf_eq_ok.mpr ?_, ?_⟩
    · rw [hdebt]
      decide
    · refine bind_eq_ok.mpr ⟨bot, findPlayer_eq_ok.mpr hbot, rejectIf_eq_ok.mpr ?_⟩
      rw [hactive]
      decide
  have hself : rejectIf (p = q) .invalidTrade "Trade must target another player" = .ok () :=
    rejectIf_eq_ok.mpr h.other
  have hfree : rejectIf s.tradeOffer.isSome .tradeNotAllowed
      "A trade is already being considered" = .ok () := by
    rw [hoffer]
    rfl
  have hmarked := h.marked
  obtain ⟨target, htarget, _, _⟩ := hmarked.target
  rw [reduceGameEngineIntent, proposeTrade, hcanTrade, ok_bind, hself, ok_bind, hfree, ok_bind,
    tradeOfInput_bot h, ok_bind, h.valid, ok_bind]
  have hmark : markBotTradeProposal s (botOffer env p q cash tile.key).fromRoomPlayerId =
      .ok (hasProposed s p) := markBotTradeProposal_bot hbot htype
  have hfound : findPlayer (hasProposed s p) (botOffer env p q cash tile.key).toRoomPlayerId =
      .ok target := findPlayer_eq_ok.mpr htarget
  rw [hmark, ok_bind, hfound, ok_bind]
  have htiles : TilesOk (hasProposed s p) :=
    (markBotTradeProposal_valid hv (markBotTradeProposal_bot hbot htype)).tiles
  cases hkind : target.playerType with
  | human => exact ⟨_, rfl, .pending ⟨target, htarget, hkind⟩⟩
  | bot =>
    rw [if_pos rfl]
    obtain ⟨_, _, hcan⟩ := hmarked.canExchange env
    obtain ⟨accepts, haccepts⟩ := shouldBotAcceptTrade_succeeds htiles.keys
      (botOffer_wellFormed hmarked) hcan knownTiles_nil hmarked.knownTiles
    rw [haccepts, ok_bind]
    cases accepts with
    | false => exact ⟨_, rfl, .rejected⟩
    | true =>
      obtain ⟨r, hr, hstate⟩ := acceptTradeOffer_done htiles hmarked.positive.le (le_refl 0)
        hmarked.valid [proposedEvent (botOffer env p q cash tile.key)]
      exact ⟨r, hr, hstate ▸ .accepted⟩

end Proposes

/-! ## One step of the bot -/

section Step

variable {s : GameEngineState} {p : RoomPlayerId} {bot : GameEnginePlayer} {env : Env}

/-- A candidate for a trade is one the bot may propose. -/
theorem tradeCandidate_mayPropose (hv : Valid s) (ho : OnTurn s p bot)
    (htype : bot.playerType = .bot) {setKey : PropertySetKey}
    {candidate : GameBotService.TradeCandidate}
    (h : GameBotService.tradeCandidate s bot setKey = .ok (some candidate)) :
    ∃ tile, tile.key = candidate.tileKey ∧
      MayPropose s p candidate.toRoomPlayerId candidate.offeredCash tile := by
  obtain ⟨tile, x, target, hkey, hstreet, hx, hother, howner, htarget, hactive,
    ⟨ratio, hratio, hoffered⟩, hcash⟩ := tradeCandidate_eq_some h
  have hid : bot.roomPlayerId = p := GameEngineState.player?_id ho.player
  have hreserve := cashReserve_pos bot
  refine ⟨tile, hkey, ?_, ?_, ⟨bot, ho.player, ho.active, htype, by omega⟩,
    ⟨target, htarget, hactive, (hv.playerOk htarget).cash⟩, hstreet, x, hx, howner⟩
  · rintro rfl
    rw [hid] at hother
    exact hother howner
  · have hprice : 0 < tile.price := street_price_pos (s.board_eq ▸ hstreet)
    have hexact : (0 : Rat) < tile.price * ratio :=
      mul_pos (Int.cast_pos.mpr hprice) (zero_lt_one.trans_le hratio)
    rw [hoffered]
    exact Rat.lt_ceil_iff.mpr (Binary64.fl_pos hexact)

theorem chooseTradeProposal_succeeds (h : OnBoard s) :
    Succeeds (GameBotService.chooseTradeProposal s bot) := by
  unfold GameBotService.chooseTradeProposal
  split
  · exact succeeds_pure none
  · refine Succeeds.then ((succeeds_mapM fun setKey _ => tradeCandidate_succeeds h setKey).then
      fun _ _ => succeeds_pure _) fun candidates _ => ?_
    cases candidates.head? with
    | none => exact succeeds_pure none
    | some candidate => exact succeeds_pure _

theorem chooseTradeProposal_eq_some {intent : GameEngineIntent}
    (h : GameBotService.chooseTradeProposal s bot = .ok (some intent)) :
    bot.lastBotTradeProposalTurnNumber ≠ some s.turnNumber ∧ ∃ setKey candidate,
      GameBotService.tradeCandidate s bot setKey = .ok (some candidate) ∧
      intent = .proposeTrade ⟨bot.roomPlayerId, candidate.toRoomPlayerId,
        .int candidate.offeredCash, .int 0, [], [tileKeyName candidate.tileKey], none⟩ := by
  unfold GameBotService.chooseTradeProposal at h
  split at h
  · cases h
  · rename_i hfresh
    obtain ⟨candidates, hcandidates, h⟩ := bind_eq_ok.mp h
    cases hfirst : candidates.head? with
    | none =>
      rw [hfirst] at h
      cases h
    | some candidate =>
      rw [hfirst] at h
      cases h
      obtain ⟨found, hfound, hsorted⟩ := bind_eq_ok.mp hcandidates
      cases hsorted
      have hmem := List.mem_of_mem_head? hfirst
      rw [List.mem_insertionSort] at hmem
      obtain ⟨picked, hpicked, hcandidate⟩ := List.mem_filterMap.mp hmem
      cases hcandidate
      obtain ⟨setKey, _, hset⟩ := mapM_mem_right hfound hpicked
      exact ⟨hfresh, setKey, candidate, hset, rfl⟩

/-- A proposal changes nothing that the turn depends on but the record of it. -/
theorem BotAtEnd.proposed {s' : GameEngineState} (h : BotAtEnd s p) (ho : OnTurn s p bot)
    (htype : bot.playerType = .bot) (hfresh : bot.lastBotTradeProposalTurnNumber ≠ some s.turnNumber)
    {trade : GameEngineTradeOffer} (hproposed : Proposed (hasProposed s p) trade s')
    (hvalid : Valid s') : BotAtEnd s' p ∧ TurnShrinks p s' s := by
  have hmarked : (hasProposed s p).player? p =
      some { bot with lastBotTradeProposalTurnNumber := some s.turnNumber } := by
    rw [hasProposed_player?, if_pos rfl, ho.player, Option.map_some]
  obtain ⟨bot', hbot', hactive', htype', hlast', hoffers'⟩ : ∃ bot', s'.player? p = some bot' ∧
      bot'.bankrupt = false ∧ bot'.playerType = .bot ∧
      bot'.lastBotTradeProposalTurnNumber = some s.turnNumber ∧ OffersToHumans s' := by
    cases hproposed with
    | pending hhuman =>
      refine ⟨_, hmarked, ho.active, htype, rfl, ?_⟩
      intro other hother
      cases hother
      exact hhuman
    | rejected =>
      refine ⟨_, hmarked, ho.active, htype, rfl, ?_⟩
      intro other hother
      cases hother
    | accepted =>
      refine ⟨paidPlayer (hasProposed s p) trade
        { bot with lastBotTradeProposalTurnNumber := some s.turnNumber }, ?_, ho.active, htype,
        rfl, ?_⟩
      · have hfind : ((hasProposed s p).players.map (paidPlayer (hasProposed s p) trade)).find?
            (fun pl => pl.roomPlayerId = p) =
            ((hasProposed s p).player? p).map (paidPlayer (hasProposed s p) trade) := by
          apply Keyed.find_map
          intro _
          rfl
        exact hfind.trans (congrArg _ hmarked)
      · intro other hother
        cases hother
  have hturn : s'.turnNumber = s.turnNumber ∧ s'.phase = s.phase ∧
      s'.currentTurnRoomPlayerId = s.currentTurnRoomPlayerId := by
    cases hproposed with
    | pending _ => exact ⟨rfl, rfl, rfl⟩
    | rejected => exact ⟨rfl, rfl, rfl⟩
    | accepted => exact ⟨rfl, rfl, rfl⟩
  obtain ⟨hnumber, hphase, hcurrent⟩ := hturn
  refine ⟨⟨hvalid, hoffers', hphase.trans h.phase, bot', ⟨hbot', hactive',
    hcurrent.trans ho.current⟩, htype'⟩, .left _ _ ?_⟩
  have hafter : proposalLeft s' p = 0 := by
    unfold proposalLeft
    rw [hbot', Option.any_some, hlast', hnumber]
    exact if_pos (decide_eq_true rfl)
  have hbefore : proposalLeft s p = 1 := by
    unfold proposalLeft
    rw [ho.player, Option.any_some]
    exact if_neg fun heq => hfresh (of_decide_eq_true heq)
  rw [hafter, hbefore]
  exact Nat.zero_lt_one

/-- The bot's decision to end its turn. -/
def EndsTurn (s : GameEngineState) (p : RoomPlayerId) : Prop :=
  ∀ dice, GameBotService.chooseDecision dice s = .ok (some ⟨p, .endTurn p⟩)

/-- A human is asked, and the bot waits for the answer. -/
def WaitsForHuman (s : GameEngineState) : Prop :=
  (∃ trade target, s.tradeOffer = some trade ∧ s.player? trade.toRoomPlayerId = some target ∧
    target.playerType = .human) ∧
  ∀ dice, GameBotService.chooseDecision dice s = .ok none

/-- What the bot decides is done. -/
def BotPlays (s : GameEngineState) (chance : DiceRoll × Env) (decisions : List BotDecision)
    (s' : GameEngineState) : Prop :=
  ∃ decision r, GameBotService.chooseDecision chance.1 s = .ok (some decision) ∧
    reduceGameEngineIntent chance.2 s decision.intent = .ok r ∧ decisions = [decision] ∧
    s' = r.state

theorem chooseDecision_atEnd (ho : OnTurn s p bot) (htype : bot.playerType = .bot)
    (hphase : s.phase = .awaitingTurnEnd) (dice : DiceRoll) :
    GameBotService.chooseDecision dice s = (do
      match ← (match s.tradeOffer with
        | some tradeOffer => GameBotService.chooseTradeResponseDecision s bot tradeOffer
        | none => GameBotService.chooseTurnEndDecision s bot) with
      | none => return none
      | some intent => return some ⟨p, intent⟩) := by
  have hid : bot.roomPlayerId = p := GameEngineState.player?_id ho.player
  have hbot : GameBotService.findActionBot s = some bot := by
    have hactive : ¬ (s.phase = .finished ∨ s.phase = .cancelled) := by
      rw [hphase]
      decide
    have hauction : ¬ s.phase = .awaitingAuctionBid := by
      rw [hphase]
      decide
    rw [GameBotService.findActionBot, if_neg hactive, if_neg hauction, ho.current, ho.player]
    simp [htype, ho.active]
  unfold GameBotService.chooseDecision
  rw [hbot]
  dsimp only
  rw [hid]
  unfold GameBotService.chooseIntentForBot
  clear hbot
  cases s
  cases hphase
  rfl

theorem chooseTradeResponseDecision_none (ho : OnTurn s p bot) (htype : bot.playerType = .bot)
    (hoffers : OffersToHumans s) {trade : GameEngineTradeOffer}
    (hoffer : s.tradeOffer = some trade) :
    GameBotService.chooseTradeResponseDecision s bot trade = .ok none := by
  obtain ⟨target, htarget, hhuman⟩ := hoffers trade hoffer
  have hid : bot.roomPlayerId = p := GameEngineState.player?_id ho.player
  have hother : trade.toRoomPlayerId ≠ bot.roomPlayerId := by
    intro heq
    rw [heq, hid, ho.player] at htarget
    cases htarget
    cases htype.symm.trans hhuman
  rw [GameBotService.chooseTradeResponseDecision, if_pos hother]
  rfl

/-- At the end of its turn the bot ends it, waits for a human, or does something after which less
is left to do. -/
theorem BotAtEnd.step (h : BotAtEnd s p) : EndsTurn s p ∨ WaitsForHuman s ∨
    ∀ chance, ∃ decisions s', BotPlays s chance decisions s' ∧ BotAtEnd s' p ∧
      TurnShrinks p s' s := by
  obtain ⟨bot, ho, htype⟩ := h.turn
  have hid : bot.roomPlayerId = p := GameEngineState.player?_id ho.player
  have hchoice := chooseDecision_atEnd ho htype h.phase
  cases hoffer : s.tradeOffer with
  | some trade =>
    right; left
    obtain ⟨target, htarget, hhuman⟩ := h.offers trade hoffer
    refine ⟨⟨trade, target, hoffer, htarget, hhuman⟩, fun dice => ?_⟩
    rw [hchoice, hoffer]
    dsimp only
    rw [chooseTradeResponseDecision_none ho htype h.offers hoffer]
    rfl
  | none =>
    rw [hoffer] at hchoice
    dsimp only at hchoice
    have honBoard : OnBoard s := h.valid.tiles.keys
    obtain ⟨unmortgage, hunmortgage⟩ : Succeeds (GameBotService.findPropertyToUnmortgage s bot) :=
      findPropertyToUnmortgage_succeeds honBoard
    obtain ⟨build, hbuild⟩ : Succeeds (GameBotService.findPropertyToBuild s bot) :=
      findPropertyToBuild_succeeds honBoard
    obtain ⟨proposal, hproposal⟩ : Succeeds (GameBotService.chooseTradeProposal s bot) :=
      chooseTradeProposal_succeeds honBoard
    simp only [GameBotService.chooseTurnEndDecision, hunmortgage, ok_bind] at hchoice
    cases unmortgage with
    | some key =>
      right; right
      intro chance
      obtain ⟨r, amount, x, hr, hstate, hx, hmortgaged⟩ :=
        unmortgage_done chance.2 h.valid.tiles ho h.phase hunmortgage
      have hvalid : Valid (rebuilt s p key amount fun y => { y with mortgaged := false }) :=
        hstate ▸ accepted_valid h.valid hr
      refine ⟨_, _, ⟨_, r, hchoice chance.1, hid.symm ▸ hr, rfl, hstate.symm⟩, h.kept hvalid,
        turnShrinks_rebuilt h.valid.tiles.keys_nodup hx ?_⟩
      have hless : tileRoom { x with mortgaged := false } + 1 = tileRoom x := by
        unfold tileRoom
        rw [if_pos hmortgaged, if_neg Bool.false_ne_true]
        change 0 + (5 - x.level).toNat + 1 = 1 + (5 - x.level).toNat
        omega
      omega
    | none =>
      simp only [hbuild, ok_bind] at hchoice
      cases build with
      | some key =>
        right; right
        intro chance
        obtain ⟨r, amount, f, x, hr, hstate, hx, hsame, hlevel, hbelow⟩ :=
          build_done chance.2 h.valid ho h.phase hbuild
        have hvalid : Valid (rebuilt s p key amount f) := hstate ▸ accepted_valid h.valid hr
        refine ⟨_, _, ⟨_, r, hchoice chance.1, hid.symm ▸ hr, rfl, hstate.symm⟩, h.kept hvalid,
          turnShrinks_rebuilt h.valid.tiles.keys_nodup hx ?_⟩
        unfold tileRoom
        rw [hsame, hlevel]
        omega
      | none =>
        simp only [hproposal, ok_bind] at hchoice
        cases proposal with
        | some intent =>
          right; right
          intro chance
          obtain ⟨hfresh, setKey, candidate, hcandidate, rfl⟩ :=
            chooseTradeProposal_eq_some hproposal
          obtain ⟨tile, hkey, hmay⟩ := tradeCandidate_mayPropose h.valid ho htype hcandidate
          obtain ⟨r, hr, hproposed⟩ := propose_done chance.2 h.valid h.phase hoffer hmay
          rw [hkey] at hr
          refine ⟨_, _, ⟨_, r, hchoice chance.1, hid.symm ▸ hr, rfl, rfl⟩, ?_⟩
          exact h.proposed ho htype hfresh hproposed (accepted_valid h.valid hr)
        | none =>
          left
          intro dice
          rw [hchoice, hid]
          rfl

/-- The end of a bot's turn ends: whatever the dice and the clock say, after finitely many of its
decisions, each of them accepted, it ends its turn or waits for a human. -/
theorem botTurn_ends (hv : Valid s) (hoffers : OffersToHumans s)
    (hphase : s.phase = .awaitingTurnEnd)
    (hbot : s.player? s.currentTurnRoomPlayerId = some bot) (htype : bot.playerType = .bot)
    (chances : Nat → DiceRoll × Env) : ∃ n decisions last,
      Trace.Run BotPlays s ((List.range n).map chances) decisions last ∧
      (EndsTurn last s.currentTurnRoomPlayerId ∨ WaitsForHuman last) := by
  have hactive : bot.bankrupt = false := by
    obtain ⟨pl, hpl, hactive⟩ := hv.table.turn (inProgress_of_phase hphase rfl)
    cases hbot.symm.trans hpl
    exact hactive
  have hend : BotAtEnd s s.currentTurnRoomPlayerId :=
    ⟨hv, hoffers, hphase, bot, ⟨hbot, hactive, rfl⟩, htype⟩
  clear hv hoffers hphase hbot htype hactive
  generalize s.currentTurnRoomPlayerId = p at hend ⊢
  -- each decision leaves less to do; the rest of the run starts with the next chance
  induction s using (turnShrinks_wellFounded p).induction generalizing chances with
  | _ s ih =>
    rcases hend.step with hends | hwaits | hplays
    · exact ⟨0, [], s, .refl s, .inl hends⟩
    · exact ⟨0, [], s, .refl s, .inr hwaits⟩
    · obtain ⟨decisions, s', hplayed, hend', hless⟩ := hplays (chances 0)
      obtain ⟨n, rest, last, hrun, hlast⟩ := ih s' hless (fun i => chances (i + 1)) hend'
      refine ⟨n + 1, decisions ++ rest, last, ?_, hlast⟩
      rw [List.range_succ_eq_map, List.map_cons, List.map_map]
      exact hrun.cons hplayed

/-- The bot has mortgaged South Africa, and redeems it before it ends its turn. -/
theorem mortgagedTile_ends : ∃ s, Reachable guestAndBot s ∧ s.phase = .awaitingTurnEnd ∧
    (∀ dice, GameBotService.chooseDecision dice s =
      .ok (some ⟨⟨2⟩, .unmortgageProperty ⟨2⟩ .southAfrica⟩)) ∧
    ∀ chances : Nat → DiceRoll × Env, ∃ n decisions last, 0 < n ∧
      Trace.Run BotPlays s ((List.range n).map chances) decisions last ∧
      (EndsTurn last s.currentTurnRoomPlayerId ∨ WaitsForHuman last) := by
  obtain ⟨played, hplayed, htest⟩ := exists_ok_of_any (by decide +kernel :
    (playRoom ⟨0, "room"⟩ guestAndBot
      (atStart [.rollAndMove ⟨1⟩ [.int 1, .int 2], .buyProperty ⟨1⟩, .endTurn ⟨1⟩,
        .rollAndMove ⟨2⟩ [.int 2, .int 4], .buyProperty ⟨2⟩,
        .mortgageProperty ⟨2⟩ .southAfrica])).toOption.any
      (fun played => played.state.phase = .awaitingTurnEnd ∧ played.state.tradeOffer = none ∧
        played.state.currentTurnRoomPlayerId = ⟨2⟩ ∧
        (played.state.player? ⟨2⟩).any (fun bot => bot.playerType = .bot ∧ bot.bankrupt = false ∧
          (GameBotService.chooseTurnEndDecision played.state bot).toOption =
            some (some (.unmortgageProperty ⟨2⟩ .southAfrica)))) = true)
  obtain ⟨hphase, hnone, hturn, hbot⟩ := of_decide_eq_true htest
  obtain ⟨bot, hbot, htest⟩ := (Option.any_eq_true _ _).mp hbot
  obtain ⟨htype, hactive, hredeems⟩ := of_decide_eq_true htest
  have hreach : Reachable guestAndBot played.state := playRoom_reachable hplayed
  have hchosen : ∀ dice, GameBotService.chooseDecision dice played.state =
      .ok (some ⟨⟨2⟩, .unmortgageProperty ⟨2⟩ .southAfrica⟩) := by
    intro dice
    rw [chooseDecision_atEnd ⟨hbot, hactive, hturn⟩ htype hphase dice, hnone]
    dsimp only
    cases hcase : GameBotService.chooseTurnEndDecision played.state bot with
    | error error =>
      rw [hcase] at hredeems
      cases hredeems
    | ok intent =>
      rw [hcase] at hredeems
      cases hredeems
      rfl
  refine ⟨_, hreach, hphase, hchosen, fun chances => ?_⟩
  obtain ⟨n, decisions, last, hrun, hlast⟩ := botTurn_ends
    (reachable_valid guestAndBot_valid hreach) (reachable_offersToHumans guestAndBot_valid hreach)
    hphase (hturn ▸ hbot) htype chances
  refine ⟨n, decisions, last, Nat.pos_of_ne_zero ?_, hrun, hlast⟩
  rintro rfl
  generalize hinputs : (List.range 0).map chances = inputs at hrun
  cases hrun with
  | refl =>
    rcases hlast with hends | ⟨_, hwaits⟩
    · have hboth := (hchosen (1, 1)).symm.trans (hends (1, 1))
      simp at hboth
    · have hboth := (hchosen (1, 1)).symm.trans (hwaits (1, 1))
      simp at hboth
  | tail => simp at hinputs

end Step

end Rules
end LivePoly
