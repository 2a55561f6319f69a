import LivePoly.Rules.Mirror

/-!
# Rules.Mirrored

Every action is told by its events: a replica that mirrors the state before the action and replays
the events mirrors the state after it.
-/

namespace LivePoly
namespace Rules

open Engine Checked

variable {c : Condition} {replica : Replica} {s s' : GameEngineState} {p q : RoomPlayerId}
  {pl : GameEnginePlayer} {events : List GameEngineEvent}

/-! ## Turns -/

theorem Mirrors.walked (hm : Mirrors replica s)
    (hids : (s.players.map GameEnginePlayer.roomPlayerId).Nodup) (hpl : s.player? p = some pl)
    {g : GameEnginePlayer → GameEnginePlayer} {fromPosition toPosition : Nat} {dice : DiceRoll}
    {passedGo : Prop} [Decidable passedGo] {amount : Int} {key : TileKey} {kind : GameTileKind}
    (hg : seatOf (g pl) = { seatOf pl with
      position := toPosition
      cash := if passedGo then pl.cash + amount else pl.cash })
    (hplayers : s'.players = Keyed.modify GameEnginePlayer.roomPlayerId s.players p g)
    (htiles : s'.properties = s.properties) (hoffer : s'.tradeOffer = s.tradeOffer) :
    Mirrors (replay replica ([.playerMoved p fromPosition toPosition dice] ++
      (if passedGo then [.playerPassedGo p amount] else []) ++
      [.playerLandedOnTile p key kind])) s' := by
  have hmoved := mirrors_playerMoved hm hids hpl fromPosition toPosition dice
  by_cases hpassed : passedGo
  · rw [if_pos hpassed] at hg ⊢
    have hids' : ((s.updatePlayer p fun x => { x with position := toPosition }).players.map
        GameEnginePlayer.roomPlayerId).Nodup := by
      have hsame : (s.updatePlayer p fun x => { x with position := toPosition }).players.map
          GameEnginePlayer.roomPlayerId = s.players.map GameEnginePlayer.roomPlayerId := by
        apply Keyed.map_modify
        intro _; rfl
      rw [hsame]
      exact hids
    have hfound : (s.updatePlayer p fun x => { x with position := toPosition }).player? p =
        some { pl with position := toPosition } := by
      rw [GameEngineState.player?_updatePlayer, if_pos rfl, hpl]
      · rfl
      · intro _; rfl
    have hcredited := mirrors_playerPassedGo hmoved hids' hfound amount
    rw [GameEngineState.addCash, GameEngineState.updatePlayer_updatePlayer] at hcredited
    · rw [List.cons_append, List.nil_append, List.cons_append, replay_cons _ rfl,
        List.cons_append, replay_cons _ rfl, List.nil_append, replay_inert _ rfl, replay_nil]
      refine hcredited.other ?_ htiles fun _ h => hoffer ▸ h
      rw [hplayers]
      exact Keyed.map_modify_congr _ hids hpl hg
    · intro _; rfl
  · rw [if_neg hpassed] at hg ⊢
    rw [List.append_nil, List.cons_append, replay_cons _ rfl, List.nil_append,
      replay_inert _ rfl, replay_nil]
    refine hmoved.other ?_ htiles fun _ h => hoffer ▸ h
    rw [hplayers]
    exact Keyed.map_modify_congr _ hids hpl hg

theorem Turn.mirrored (hv : Valid s) (ho : OnTurn s p pl) (h : Turn p pl s events s')
    (hm : Mirrors replica s) : Mirrors (replay replica events) s' := by
  have hids := hv.players.ids
  have hid : pl.roomPlayerId = p := GameEngineState.player?_id ho.player
  cases h with
  | @moved dice suppressDoubles tile hphase hfree htile =>
    obtain ⟨count, again, hdoubles⟩ := doublesState_eq s dice suppressDoubles
    have hwalked : Mirrors (replay replica ([.playerMoved p pl.position
        ((pl.position + (dice.1 + dice.2)) % s.board.tiles.length) dice] ++
        (if s.board.tiles.length ≤ pl.position + (dice.1 + dice.2) then
          [.playerPassedGo p s.board.passGoCash] else []) ++
        [.playerLandedOnTile p tile.key tile.kind]))
        (movedState s p dice suppressDoubles tile) := by
      unfold movedState
      rw [hdoubles]
      exact hm.walked hids ho.player rfl rfl rfl rfl
    unfold movedEvents
    split
    · rw [List.cons_append, List.nil_append, List.cons_append, List.cons_append,
        replay_inert _ rfl]
      exact hwalked
    · exact hwalked
  | thirdDoubles =>
    have hsent := mirrors_playerSentToJail hm hids ho.player
    rw [replay_inert _ rfl, replay_inert _ rfl, replay_cons _ rfl, replay_nil]
    exact hsent.other rfl rfl fun _ h => h
  | escaped =>
    have hreleased := mirrors_playerReleasedFromJail hm hids ho.player
    rw [replay_inert _ rfl, replay_cons _ rfl, replay_nil]
    exact hreleased.other rfl rfl fun _ h => h
  | stayed =>
    rw [replay_inert _ rfl, replay_nil]
    refine hm.other ?_ rfl fun _ h => h
    apply Keyed.map_modify
    intro _; rfl
  | forcedFine =>
    rw [replay_inert _ rfl, replay_cons _ rfl, replay_cons _ rfl, replay_nil]
    exact mirrors_fine hm hids ho.player (fun _ => rfl) (fun _ => rfl) rfl rfl rfl
  | fineOwed =>
    rw [replay_inert _ rfl, replay_inert _ rfl, replay_nil]
    refine hm.other ?_ rfl fun _ h => h
    apply Keyed.map_modify
    intro _; rfl
  | finePaid =>
    rw [replay_cons _ rfl, replay_cons _ rfl, replay_nil]
    exact mirrors_fine hm hids ho.player (fun _ => rfl) (fun _ => rfl) rfl rfl rfl
  | cardUsed =>
    have hreleased := mirrors_playerReleasedFromJail hm hids ho.player
    rw [replay_inert _ rfl, replay_cons _ rfl, replay_nil]
    refine hreleased.other ?_ rfl fun _ h => h
    exact Keyed.map_modify_congr _ hids ho.player rfl
  | playsAgain | passesTurn =>
    rw [replay_inert _ rfl, replay_nil]
    exact hm.other rfl rfl fun _ h => by cases h

/-! ## Cards -/

/-- A share of every other player still in the game, and the sum of them for `p` the other way,
are no money of the bank. -/
theorem sum_shares (hids : (s.players.map GameEnginePlayer.roomPlayerId).Nodup)
    (hpl : s.player? p = some pl) (share : Seat → Int) :
    (s.players.map fun x =>
      if x.roomPlayerId = p then
        ((otherSeats (s.players.map seatOf) p).map share).sum
      else if x.bankrupt then 0
      else -share (seatOf x)).sum = 0 := by
  have hid : pl.roomPlayerId = p := GameEngineState.player?_id hpl
  have hothers : ∀ players : List GameEnginePlayer,
      (players.map fun x => if x.roomPlayerId = p then 0 else if x.bankrupt then 0
        else -share (seatOf x)).sum = -((otherSeats (players.map seatOf) p).map share).sum := by
    intro players
    induction players with
    | nil => rfl
    | cons x players ih =>
      unfold otherSeats at ih ⊢
      rw [List.map_cons, List.sum_cons, ih, List.map_cons, List.filter_cons]
      by_cases hx : x.roomPlayerId = p
      · simp [seatOf, hx]
      · cases hb : x.bankrupt with
        | true => simp [seatOf, hx, hb]
        | false => simp [seatOf, hx, hb, add_comm]
  generalize htotal : ((otherSeats (s.players.map seatOf) p).map share).sum = total at hothers ⊢
  have hsplit : (s.players.map fun x =>
      if x.roomPlayerId = p then total
      else if x.bankrupt then 0
      else -share (seatOf x)) = s.players.map fun x =>
        toPlayer p total (seatOf x) + if x.roomPlayerId = p then 0 else if x.bankrupt then 0
          else -share (seatOf x) := by
    apply List.map_congr_left
    intro x _
    by_cases hx : x.roomPlayerId = p
    · simp [toPlayer, seatOf, hx]
    · simp [toPlayer, seatOf, hx]
  rw [hsplit, List.sum_map_add, sum_toPlayer hids hpl, hothers s.players, htotal]
  omega

theorem sum_cardShare (hids : (s.players.map GameEnginePlayer.roomPlayerId).Nodup)
    (hpl : s.player? p = some pl) (hm : Mirrors replica s) {deckKey : GameCardDeckKey}
    {card : GameEngineCard} (hcard : cardsByKey card.key = some card)
    {effectType : GameCardEffectType} :
    (s.players.map fun x => cardShare replica p card.effect (seatOf x)).sum =
      bankAmount replica (.cardApplied p deckKey card.key effectType) := by
  unfold bankAmount
  simp only [hcard, Option.map_some]
  cases card.effect with
  | collectMoney amount | payMoney amount | propertyRepairs houseAmount hotelAmount =>
    exact sum_toPlayer hids hpl _
  | collectFromEachPlayer amount =>
    have hsum := sum_shares hids hpl fun seat => min seat.cash amount
    simp only [cardShare, hm.seats]
    exact hsum
  | payEachPlayer amount =>
    have hsum := sum_shares hids hpl fun _ => -amount
    simp only [cardShare, hm.seats]
    simp only [List.map_const', List.sum_replicate, nsmul_eq_mul, mul_neg, neg_neg] at hsum
    exact hsum
  | goToJail | moveToTile | moveRelative | moveToNearest | getOutOfJailFree =>
    simp [cardShare]

theorem apply_cardApplied {deckKey : GameCardDeckKey} {card : GameEngineCard}
    (hcard : cardsByKey card.key = some card) (hmoney : ¬ IsMoneyEffect card.effect)
    {effectType : GameCardEffectType} :
    replica.apply (.cardApplied p deckKey card.key effectType) = replica := by
  have hamount : ∀ seat, amountFor replica (.cardApplied p deckKey card.key effectType) seat = 0 := by
    intro seat
    simp only [amountFor, hcard, Option.elim_some]
    cases heffect : card.effect <;> rw [heffect] at hmoney <;> first
      | rfl
      | exact absurd trivial hmoney
  have hbank : bankAmount replica (.cardApplied p deckKey card.key effectType) = 0 := by
    unfold bankAmount
    simp only [hcard, Option.map_some]
    cases heffect : card.effect <;> rw [heffect] at hmoney <;> first
      | rfl
      | exact absurd trivial hmoney
  have htile : tileAfter replica (.cardApplied p deckKey card.key effectType) = id := rfl
  simp only [Replica.apply, hamount, hbank, htile, add_zero, List.map_id]
  simp [seatAfter, offersAfter]

theorem mirrors_cardSettled (hids : (s.players.map GameEnginePlayer.roomPlayerId).Nodup)
    (hpl : s.player? p = some pl) (hm : Mirrors replica s) {deckKey : GameCardDeckKey}
    {card : GameEngineCard} (hcard : cardsByKey card.key = some card)
    {effectType : GameCardEffectType} :
    Mirrors (replica.apply (.cardApplied p deckKey card.key effectType))
      { s with players := settleCard s p card.effect } := by
  have hshare : ∀ seat, cardShare replica p card.effect seat =
      cardShare (replicaOf s) p card.effect seat := by
    intro seat
    cases card.effect <;> simp only [cardShare, hm.seats, hm.tiles, replicaOf]
  have hamount : ∀ seat, amountFor replica (.cardApplied p deckKey card.key effectType) seat =
      cardShare replica p card.effect seat := by
    intro seat
    simp only [amountFor, hcard, Option.elim_some]
  refine hm.step rfl ?_ (List.map_id _).symm hm.offer ?_
  · intro x _
    rw [hamount, hshare]
    rfl
  · simp only [hamount]
    exact sum_cardShare hids hpl hm hcard

/-- The announcement of a card whose charge became a debt is passed over. -/
theorem replay_cardOwed {deckKey : GameCardDeckKey} {cardKey : CardKey}
    {effectType : GameCardEffectType} {debt : GameEngineDebt} :
    replay replica [.cardApplied p deckKey cardKey effectType, paymentRequired debt] = replica := by
  change replay replica [paymentRequired debt] = replica
  rw [replay_inert _ rfl, replay_nil]

theorem Landing.mirrored (hv : Valid s) (ha : Arrived s p pl) (h : Landing p pl s events s')
    (hm : Mirrors replica s) : Mirrors (replay replica events) s' := by
  have hids := hv.players.ids
  cases h with
  | taxPaid =>
    rw [replay_cons _ rfl, replay_nil]
    exact hm.paid hids ha.player (fun _ => rfl) (fun _ => rfl) rfl rfl rfl (List.map_id _).symm rfl
  | rentPaid _ _ _ hlisted =>
    obtain ⟨ol, hol⟩ := hlisted
    rw [replay_cons _ rfl, replay_nil]
    exact hm.transferred hids ha.player hol (fun _ => rfl) (fun _ => rfl) rfl rfl rfl
      (List.map_id _).symm rfl
  | owes =>
    rw [replay_inert _ rfl, replay_nil]
    exact hm.other rfl rfl fun _ h => h
  | sentToJail =>
    rw [replay_cons _ rfl, replay_nil]
    exact mirrors_playerSentToJail hm hids ha.player
  | cardSettled hdraw =>
    rw [drawEvents, replay_inert _ rfl, replay_cardApplied _ (by simp), replay_nil]
    exact (mirrors_cardSettled hids ha.player hm hdraw.known).other rfl rfl fun _ h => h
  | cardOwed =>
    rw [drawEvents, List.cons_append, replay_inert _ rfl, List.cons_append, List.nil_append,
      replay_cardOwed]
    exact hm.other rfl rfl fun _ h => h
  | cardKept hdraw heffect =>
    rw [drawEvents, replay_inert _ rfl, replay_cardApplied _ (by simp), replay_nil,
      apply_cardApplied hdraw.known (by rw [heffect]; exact id)]
    refine hm.other ?_ rfl fun _ h => h
    apply Keyed.map_modify
    intro _; rfl
  | cardJailed hdraw heffect =>
    rw [drawEvents, List.cons_append, replay_inert _ rfl, List.cons_append, List.nil_append,
      replay_cardApplied _ (by simp), apply_cardApplied hdraw.known (by rw [heffect]; exact id),
      replay_cons _ rfl, replay_nil]
    exact (mirrors_playerSentToJail hm hids ha.player).other rfl rfl fun _ h => h
  | @cardMoved deckKey card decks target passedGo hdraw hmove =>
    have hwalked : ∀ moved : GameEngineState, moved = cardMovedState { s with decks } p target
        passedGo → Mirrors (replay replica (cardMovedEvents s p pl target passedGo)) moved := by
      rintro moved rfl
      have hwalk : ∀ t : GameEngineState, t.players = (s.updatePlayer p
          (cardMovedPlayer s.board target passedGo)).players → t.properties = s.properties →
          t.tradeOffer = s.tradeOffer →
          Mirrors (replay replica (cardMovedEvents s p pl target passedGo)) t := by
        intro t hplayers htiles hoffer
        exact hm.walked hids ha.player rfl hplayers htiles hoffer
      unfold cardMovedState
      dsimp only
      split
      · exact hwalk _ rfl rfl rfl
      · exact hwalk _ rfl rfl rfl
    rw [drawEvents, List.cons_append, replay_inert _ rfl, List.cons_append, List.nil_append,
      replay_cardApplied _ (by simp [cardMovedEvents]), apply_cardApplied hdraw.known hmove]
    exact hwalked _ rfl

/-! ## Estate and auctions -/

theorem Estate.mirrored (hv : Valid s) (ho : OnTurn s p pl) (h : Estate p pl s events s')
    (hm : Mirrors replica s) : Mirrors (replay replica events) s' := by
  have hids := hv.players.ids
  cases h with
  | bought | houseBuilt | hotelBuilt | hotelSold | houseSold | mortgaged | unmortgaged =>
    rw [replay_cons _ rfl, replay_nil]
    exact hm.paid hids ho.player (fun _ => rfl) (fun _ => rfl) rfl rfl rfl rfl rfl

theorem closeAuction_unsold {auction : GameEngineAuction} (hv : Valid s)
    (hrunning : s.auction = some auction) :
    (closeAuction s auction.tileKey none).properties = s.properties := by
  obtain ⟨_, property, _, hproperty, hfree⟩ := (hv.phase.auctionOk auction hrunning).free
  refine (List.map_congr_left fun x hx => ?_).trans (List.map_id _)
  split
  · rename_i hk
    have hfind := hv.tiles.find hx
    rw [hk, hproperty] at hfind
    cases hfind
    rw [← hfree]
    rfl
  · rfl

theorem Bidding.mirrored (hv : Valid s) {condition : GameEngineState → RoomPlayerId → Prop}
    (h : Bidding condition p s events s') (hm : Mirrors replica s) :
    Mirrors (replay replica events) s' := by
  have hids := hv.players.ids
  cases h with
  | declined =>
    rw [replay_inert _ rfl, replay_inert _ rfl, replay_nil]
    exact hm.other rfl rfl fun _ h => h
  | bid | passed =>
    rw [replay_inert _ rfl, replay_nil]
    exact hm.other rfl rfl fun _ h => h
  | bidWon _ _ hbidder | passedWon _ _ hbidder =>
    rw [replay_inert _ rfl, replay_cons _ rfl, replay_nil]
    exact hm.paid hids hbidder (fun _ => rfl) (fun _ => rfl) rfl rfl rfl rfl rfl
  | passedUnsold hact =>
    rw [replay_inert _ rfl, replay_nil]
    exact hm.other rfl (closeAuction_unsold hv hact.running) fun _ h => h

/-! ## Trades -/

theorem addCash_ids (amount : Int) :
    (s.addCash p amount).players.map GameEnginePlayer.roomPlayerId =
      s.players.map GameEnginePlayer.roomPlayerId := by
  apply Keyed.map_modify
  intro _; rfl

theorem player?_addCash_of_some (hpl : s.player? p = some pl) (q : RoomPlayerId) (amount : Int) :
    ∃ pl', (s.addCash q amount).player? p = some pl' := by
  rw [← Option.isSome_iff_exists, GameEngineState.player?_addCash_isSome, hpl]
  rfl

theorem mirrors_sales {tradeId : String} (keys : List TileKey) :
    ∀ {s : GameEngineState} {replica : Replica} {pl : GameEnginePlayer}, Mirrors replica s →
      (s.players.map GameEnginePlayer.roomPlayerId).Nodup →
      (s.properties.map GameEngineProperty.tileKey).Nodup → keys.Nodup →
      s.player? p = some pl →
      ∃ sold, Mirrors sold (soldState s p keys) ∧ sold.offers = replica.offers ∧
        ∀ rest, replay replica (saleEvents s tradeId p keys ++ rest) = replay sold rest := by
  induction keys with
  | nil =>
    intro s replica pl hm _ _ _ _
    rw [soldState_nil]
    exact ⟨replica, hm, rfl, fun _ => rfl⟩
  | cons key keys ih =>
    intro s replica pl hm hids hnd hkeys hpl
    rw [List.nodup_cons] at hkeys
    by_cases hsale : saleAt s key = 0
    · obtain ⟨hstate, hevents⟩ := soldState_cons_bare (p := p) keys hnd hsale tradeId
      rw [hstate, hevents]
      exact ih hm hids hnd hkeys.2 hpl
    · obtain ⟨hstate, hevents⟩ := soldState_cons_built (p := p) hnd hkeys.1 hsale tradeId
      rw [hstate, hevents]
      have hone : Mirrors (replica.apply (.tradeBuildingsLiquidated tradeId p key (saleAt s key)))
          (soldOne s p key) :=
        hm.paid hids hpl (fun _ => rfl) (fun _ => rfl) rfl rfl rfl rfl rfl
      obtain ⟨pl', hpl'⟩ := player?_addCash_of_some hpl p (saleAt s key)
      obtain ⟨sold, hsold, hoffers, hrest⟩ := ih hone ((addCash_ids _).symm ▸ hids)
        ((soldOne_keys key).symm ▸ hnd) hkeys.2 hpl'
      refine ⟨sold, hsold, hoffers, fun rest => ?_⟩
      rw [List.cons_append, replay_cons _ rfl, hrest]

theorem mirrors_proposed (hm : Mirrors replica s) (trade : GameEngineTradeOffer) :
    Mirrors (replica.apply (proposedEvent trade)) { s with tradeOffer := some trade } := by
  refine hm.step (List.map_id _).symm ?_ (List.map_id _).symm ?_ ?_
  · intro x _
    exact congrArg (fun cash => { seatOf x with cash }) (add_zero x.cash).symm
  · intro trade' htrade
    cases htrade
    exact if_pos rfl
  · exact List.sum_eq_zero fun amount hamount => by
      obtain ⟨_, _, rfl⟩ := List.mem_map.mp hamount
      rfl

/-- Before a trade is executed its terms are known. -/
theorem Agreed.mirrored {trade : GameEngineTradeOffer} {proposal : List GameEngineEvent}
    (h : Agreed p s trade proposal) (hm : Mirrors replica s) :
    ∃ informed, Mirrors informed s ∧ informed.offers trade.id = some (termsOf trade) ∧
      ∀ rest, replay replica (proposal ++ rest) = replay informed rest := by
  cases h with
  | accepted hpending => exact ⟨replica, hm, hm.offer trade hpending, fun _ => rfl⟩
  | proposed hpending =>
    have hproposed := mirrors_proposed hm trade
    refine ⟨_, hproposed.other rfl rfl fun trade' htrade => ?_, hproposed.offer trade rfl,
      fun rest => ?_⟩
    · rw [hpending] at htrade
      cases htrade
    · rw [List.cons_append, replay_cons _ rfl, List.nil_append]

theorem toPlayer_seatOf (amount : Int) (x : GameEnginePlayer) :
    toPlayer p amount (seatOf x) = if x.roomPlayerId = p then amount else 0 := rfl

theorem mirrors_exchanged {trade : GameEngineTradeOffer} {fromPlayer toPlayer : GameEnginePlayer}
    {sold : Replica} (hids : (s.players.map GameEnginePlayer.roomPlayerId).Nodup)
    (hcan : CanExchange s trade fromPlayer toPlayer)
    (hm : Mirrors sold (soldState (soldState s trade.fromRoomPlayerId trade.offeredPropertyKeys)
      trade.toRoomPlayerId trade.requestedPropertyKeys))
    (hterms : sold.offers trade.id = some (termsOf trade)) :
    Mirrors (sold.apply (.tradeAccepted trade.id trade.fromRoomPlayerId trade.toRoomPlayerId))
      (exchanged s trade) := by
  have hsales : sales (soldState s trade.fromRoomPlayerId trade.offeredPropertyKeys)
      trade.requestedPropertyKeys = sales s trade.requestedPropertyKeys :=
    sales_soldState hcan.disjoint
  have hids₁ : ((soldState s trade.fromRoomPlayerId trade.offeredPropertyKeys).players.map
      GameEnginePlayer.roomPlayerId).Nodup := (addCash_ids _).symm ▸ hids
  have hids₂ : ((soldState (soldState s trade.fromRoomPlayerId trade.offeredPropertyKeys)
      trade.toRoomPlayerId trade.requestedPropertyKeys).players.map
        GameEnginePlayer.roomPlayerId).Nodup := (addCash_ids _).symm ▸ hids₁
  have hlisted : ∀ q ql, s.player? q = some ql → ∃ ql', (soldState (soldState s
      trade.fromRoomPlayerId trade.offeredPropertyKeys) trade.toRoomPlayerId
        trade.requestedPropertyKeys).player? q = some ql' := by
    intro q ql hql
    obtain ⟨ql₁, hql₁⟩ := player?_addCash_of_some hql trade.fromRoomPlayerId
      (sales s trade.offeredPropertyKeys)
    exact player?_addCash_of_some (s := soldState s trade.fromRoomPlayerId
      trade.offeredPropertyKeys) hql₁ trade.toRoomPlayerId _
  obtain ⟨fl, hfl⟩ := hlisted _ _ hcan.fromFound
  obtain ⟨tl, htl⟩ := hlisted _ _ hcan.toFound
  have hamount : ∀ seat, amountFor sold (.tradeAccepted trade.id trade.fromRoomPlayerId
      trade.toRoomPlayerId) seat =
      Rules.toPlayer trade.fromRoomPlayerId (trade.requestedCash - trade.offeredCash) seat +
        Rules.toPlayer trade.toRoomPlayerId (trade.offeredCash - trade.requestedCash) seat := by
    intro seat
    simp only [amountFor, hterms, Option.elim_some]
    rfl
  refine hm.step (f := fun x => { x with
    cash := x.cash + (Rules.toPlayer trade.fromRoomPlayerId
        (trade.requestedCash - trade.offeredCash) (seatOf x) +
      Rules.toPlayer trade.toRoomPlayerId (trade.offeredCash - trade.requestedCash)
        (seatOf x)) }) ?_ ?_ ?_ ?_ ?_
  · have hplayers : (soldState (soldState s trade.fromRoomPlayerId trade.offeredPropertyKeys)
        trade.toRoomPlayerId trade.requestedPropertyKeys).players =
        ((s.addCash trade.fromRoomPlayerId (sales s trade.offeredPropertyKeys)).addCash
          trade.toRoomPlayerId (sales s trade.requestedPropertyKeys)).players := by
      rw [← hsales]
      rfl
    rw [exchanged_players, hplayers]
    simp only [GameEngineState.addCash_eq, List.map_map]
    apply List.map_congr_left
    intro x _
    simp only [Function.comp_apply, toPlayer_seatOf]
    refine congrArg (fun cash => { x with cash }) ?_
    split_ifs <;> omega
  · intro x _
    rw [hamount]
    rfl
  · unfold exchanged soldState soldTiles
    simp only [List.map_map]
    apply List.map_congr_left
    intro x _
    have hkey := soldTile_key classicGameBoard x
    simp only [Function.comp_apply, tileAfter, hterms, Option.elim_some, exchangedTile,
      GameEngineState.board_eq]
    by_cases hr : x.tileKey ∈ trade.requestedPropertyKeys
    · have ho : x.tileKey ∉ trade.offeredPropertyKeys := hcan.disjoint _ hr
      simp [hr, ho]
    · by_cases ho : x.tileKey ∈ trade.offeredPropertyKeys
      · simp [hr, ho, hkey]
      · simp [hr, ho]
  · intro trade' htrade
    cases htrade
  · have hbank : bankAmount sold (.tradeAccepted trade.id trade.fromRoomPlayerId
        trade.toRoomPlayerId) = 0 := rfl
    simp only [hamount, List.sum_map_add]
    rw [sum_toPlayer hids₂ hfl, sum_toPlayer hids₂ htl, hbank]
    omega

theorem Trade.mirrored (hv : Valid s)
    {condition : GameEngineState → GameEngineTradeOffer → Prop}
    (h : Trade condition p s events s') (hm : Mirrors replica s) :
    Mirrors (replay replica events) s' := by
  have hids := hv.players.ids
  cases h with
  | marked =>
    refine hm.other ?_ rfl fun _ h => h
    apply Keyed.map_modify
    intro _; rfl
  | @offered trade =>
    rw [replay_cons _ rfl, replay_nil]
    exact mirrors_proposed hm trade
  | @refused trade =>
    rw [replay_cons _ rfl, replay_inert _ rfl, replay_nil]
    exact (mirrors_proposed hm trade).other rfl rfl fun _ h => by cases h
  | executed hagreed hoffer hcan =>
    obtain ⟨informed, hinformed, hterms, hproposal⟩ := hagreed.mirrored hm
    obtain ⟨half, hhalf, hhalfOffers, hhalfRest⟩ := mirrors_sales _ hinformed hids
      hv.tiles.keys_nodup hoffer.offered hcan.fromFound
    obtain ⟨tl, htl⟩ := player?_addCash_of_some hcan.toFound _ (sales s _)
    obtain ⟨sold, hsold, hsoldOffers, hsoldRest⟩ := mirrors_sales _ hhalf
      ((addCash_ids _).symm ▸ hids) ((soldState_keys _).symm ▸ hv.tiles.keys_nodup)
      hoffer.requested htl
    rw [saleEvents_soldState hcan.disjoint] at hsoldRest
    rw [List.append_assoc, List.append_assoc, hproposal, hhalfRest, hsoldRest,
      replay_cons _ rfl, replay_nil]
    refine mirrors_exchanged hids hcan hsold ?_
    rw [hsoldOffers, hhalfOffers, hterms]
  | rejected | cancelled =>
    rw [replay_inert _ rfl, replay_nil]
    exact hm.other rfl rfl fun _ h => by cases h

/-! ## Settlements -/

theorem mirrors_debtPaid (hv : Valid s) {debt : GameEngineDebt}
    (hpl : s.player? debt.roomPlayerId = some pl)
    (hcreditor : ∀ c, debt.creditorRoomPlayerId = some c → ∃ cl, s.player? c = some cl)
    (hm : Mirrors replica s) :
    Mirrors (replay replica (debtPaidEvents debt)) (debtPaidState s debt) := by
  have hids := hv.players.ids
  obtain ⟨p, creditor, amount, reason⟩ := debt
  have hpaid : ∀ paid, (creditor.elim (s.addCash p (-amount)) fun creditor =>
      (s.addCash p (-amount)).addCash creditor amount) = paid →
      Mirrors (replica.apply (.debtPaid p creditor amount reason)) paid ∧
        (paid.players.map GameEnginePlayer.roomPlayerId).Nodup ∧
        ∃ pl', paid.player? p = some pl' := by
    rintro paid rfl
    obtain ⟨pl₁, hpl₁⟩ := player?_addCash_of_some hpl p (-amount)
    cases creditor with
    | none =>
      refine ⟨?_, (addCash_ids _).symm ▸ hids, pl₁, hpl₁⟩
      exact hm.paid hids hpl (fun _ => add_zero _) (fun _ => rfl) rfl rfl rfl
        (List.map_id _).symm rfl
    | some c =>
      obtain ⟨cl, hcl⟩ := hcreditor c rfl
      refine ⟨?_, ?_, player?_addCash_of_some hpl₁ c amount⟩
      · exact hm.transferred hids hpl hcl (fun _ => rfl) (fun _ => rfl) rfl rfl rfl
          (List.map_id _).symm rfl
      · rw [Option.elim_some, addCash_ids, addCash_ids]
        exact hids
  unfold debtPaidState debtPaidEvents
  dsimp only
  generalize hstate : (creditor.elim (s.addCash p (-amount)) fun creditor =>
    (s.addCash p (-amount)).addCash creditor amount) = paid
  obtain ⟨hmirror, hidsPaid, pl', hpl'⟩ := hpaid paid hstate
  by_cases hreason : reason = .jailFine
  · rw [if_pos hreason, if_pos hreason, List.cons_append, List.nil_append, replay_cons _ rfl,
      replay_cons _ rfl, replay_nil]
    exact (mirrors_playerReleasedFromJail hmirror hidsPaid hpl').other rfl rfl fun _ h => h
  · rw [if_neg hreason, if_neg hreason, List.append_nil, replay_cons _ rfl, replay_nil]
    exact hmirror.other rfl rfl fun _ h => h

theorem mirrors_playerBankrupt (hv : Valid s) {creditor : Option RoomPlayerId}
    (decks : GameEngineDecks) (hpl : s.player? p = some pl) (hm : Mirrors replica s) :
    Mirrors (replica.apply (.playerBankrupt p creditor)) (liquidatedState s p creditor decks) := by
  have hid : pl.roomPlayerId = p := GameEngineState.player?_id hpl
  have hamount : amountFor replica (.playerBankrupt p creditor) (seatOf pl) = -pl.cash :=
    if_pos hid
  refine hm.update hv.players.ids hpl ?_ ?_ ?_ rfl rfl hm.offer
  · intro seat hne
    exact ⟨if_neg hne, if_neg hne⟩
  · rw [hamount, add_neg_cancel]
    exact (if_pos hid).symm
  · rw [hamount]
    have hsum := Keyed.sum_ite_of_mem GameEnginePlayer.roomPlayerId hv.players.ids
      (GameEngineState.player?_mem hpl) GameEnginePlayer.cash
    rw [bankAmount, hm.seats, List.map_map, ← hsum, hid]
    rfl

theorem Settlement.mirrored (hv : Valid s)
    {condition : GameEngineState → RoomPlayerId → Prop} (h : Settlement condition p s events s')
    (hm : Mirrors replica s) : Mirrors (replay replica events) s' := by
  cases h with
  | debtPaid _ _ hdebtor hpl _ _ hcreditor =>
    rw [← hdebtor] at hpl
    exact mirrors_debtPaid hv hpl hcreditor hm
  | lastBankruptcy hbankrupt =>
    rw [replay_cons _ rfl, replay_inert _ rfl, replay_nil]
    exact (mirrors_playerBankrupt hv s.decks hbankrupt.found hm).other rfl rfl fun _ h => by
      cases h
  | bankruptcy hbankrupt =>
    rw [replay_cons _ rfl, replay_nil]
    exact mirrors_playerBankrupt hv _ hbankrupt.found hm
  | ownBankruptcy hbankrupt =>
    rw [replay_cons _ rfl, replay_inert _ rfl, replay_nil]
    exact (mirrors_playerBankrupt hv s.decks hbankrupt.found hm).other rfl rfl fun _ h => h
  | finished _ hevent =>
    have hinert : ∀ event, FinishEvent event → isInert event = true := by
      intro event h
      cases h <;> rfl
    rw [replay_inert _ (hinert _ hevent), replay_nil]
    exact hm.other rfl rfl fun _ h => by cases h

/-! ## The reducer -/

/-- An action is told by its events. -/
theorem Action.mirrored (hv : Valid s) (h : Action c p s events s') (hm : Mirrors replica s) :
    Mirrors (replay replica events) s' := by
  cases h with
  | turn h =>
    obtain ⟨pl, ho, hturn⟩ := h
    exact hturn.mirrored hv ho hm
  | landing h =>
    obtain ⟨pl, ha, hlanding⟩ := h
    exact hlanding.mirrored hv ha hm
  | estate h =>
    obtain ⟨pl, ho, hestate⟩ := h
    exact hestate.mirrored hv ho hm
  | bidding h => exact h.mirrored hv hm
  | trade h => exact h.mirrored hv hm
  | settlement h => exact h.mirrored hv hm

theorem accepted_mirrored {env : Env} {intent : GameEngineIntent} {r : GameEngineResult}
    (hv : Valid s) (h : reduceGameEngineIntent env s intent = .ok r) (hm : Mirrors replica s) :
    Mirrors (replay replica r.events) r.state := by
  obtain ⟨p, hactions⟩ := accepted_actions hv (permits_unrestricted env s intent) h
  refine hactions.related replay_nil replay_append ?_ ?_ hv hm
  · exact fun _ _ _ hvalid haction => haction.valid hvalid
  · exact fun _ _ _ _ hvalid hmirror haction => haction.mirrored hvalid hmirror

end Rules
end LivePoly
