import LivePoly.Rules.Valid

/-!
# Rules.Players

What an action does to the record of each player (`PlayerChange`), for all actions at once
(`action_players`), and from it the part of the invariant about players.
-/

namespace LivePoly
namespace Rules

open Engine Checked

/-- What an action of `p` may do to the record `pl`, unless `p` goes bankrupt. -/
inductive PlayerChange (s : GameEngineState) (p : RoomPlayerId) (pl : GameEnginePlayer) :
    GameEnginePlayer → Prop
  | same : PlayerChange s p pl pl
  | cash {amount : Int} (hactive : pl.bankrupt = false) (h0 : 0 ≤ pl.cash + amount) :
      PlayerChange s p pl { pl with cash := pl.cash + amount }
  | credited {debt : GameEngineDebt} (hdebt : s.debt = some debt)
      (hcreditor : debt.creditorRoomPlayerId = some pl.roomPlayerId) (h0 : 0 ≤ debt.amount) :
      PlayerChange s p pl { pl with cash := pl.cash + debt.amount }
  | moved {position : Nat} {cash : Int} (hp : pl.roomPlayerId = p)
      (hactive : pl.bankrupt = false) (hcash : pl.cash ≤ cash) :
      PlayerChange s p pl { pl with position, cash }
  | jailed (hp : pl.roomPlayerId = p) (hactive : pl.bankrupt = false) :
      PlayerChange s p pl
        { pl with position := s.board.jailPosition, inJail := true, jailTurnCount := 0 }
  | released {cash : Int} (hp : pl.roomPlayerId = p) (hactive : pl.bankrupt = false)
      (h0 : 0 ≤ cash) : PlayerChange s p pl (leaveJail { pl with cash })
  | waited {jailTurnCount : Nat} (hp : pl.roomPlayerId = p) (hactive : pl.bankrupt = false) :
      PlayerChange s p pl { pl with jailTurnCount }
  | keptCard {cardKey : CardKey} (hp : pl.roomPlayerId = p) (hactive : pl.bankrupt = false)
      (hopens : OpensJail cardKey) :
      PlayerChange s p pl
        { pl with
          getOutOfJailFreeCards := pl.getOutOfJailFreeCards + 1
          getOutOfJailFreeCardKeys := pl.getOutOfJailFreeCardKeys ++ [cardKey] }
  | usedCard (hp : pl.roomPlayerId = p) (hactive : pl.bankrupt = false)
      (hcards : 0 < pl.getOutOfJailFreeCards) :
      PlayerChange s p pl
        (leaveJail
          { pl with
            getOutOfJailFreeCards := pl.getOutOfJailFreeCards - 1
            getOutOfJailFreeCardKeys := pl.getOutOfJailFreeCardKeys.tail })
  | marked {turnNumber : Nat} (hp : pl.roomPlayerId = p) :
      PlayerChange s p pl { pl with lastBotTradeProposalTurnNumber := some turnNumber }

/-- Every record changes as an action of `p` may change it. -/
def PlayersChange (s : GameEngineState) (p : RoomPlayerId) (s' : GameEngineState) : Prop :=
  ∃ f : GameEnginePlayer → GameEnginePlayer, s'.players = s.players.map f ∧
    ∀ pl ∈ s.players, PlayerChange s p pl (f pl)

section Changes

variable {s s' : GameEngineState} {p q q' : RoomPlayerId} {ql ql' : GameEnginePlayer}

theorem PlayersChange.refl (h : s'.players = s.players) : PlayersChange s p s' :=
  ⟨id, by rw [List.map_id, h], fun _ _ => .same⟩

theorem PlayersChange.update (hids : (s.players.map GameEnginePlayer.roomPlayerId).Nodup)
    (hq : s.player? q = some ql) {g : GameEnginePlayer → GameEnginePlayer}
    (hs : s'.players = Keyed.modify GameEnginePlayer.roomPlayerId s.players q g)
    (hg : PlayerChange s p ql (g ql)) : PlayersChange s p s' := by
  refine ⟨_, hs, fun pl hpl => ?_⟩
  split
  · rename_i hid
    have hfind := Keyed.find_of_mem GameEnginePlayer.roomPlayerId hids hpl
    rw [hid] at hfind
    cases hfind.symm.trans hq
    exact hg
  · exact .same

theorem PlayersChange.update₂ (hids : (s.players.map GameEnginePlayer.roomPlayerId).Nodup)
    (hq : s.player? q = some ql) (hq' : s.player? q' = some ql') (hne : q ≠ q')
    {g g' : GameEnginePlayer → GameEnginePlayer} (hid : ∀ pl, (g pl).roomPlayerId = pl.roomPlayerId)
    (hs : s'.players = Keyed.modify GameEnginePlayer.roomPlayerId
      (Keyed.modify GameEnginePlayer.roomPlayerId s.players q g) q' g')
    (hg : PlayerChange s p ql (g ql)) (hg' : PlayerChange s p ql' (g' ql')) :
    PlayersChange s p s' := by
  rw [Keyed.modify_modify_ne _ hid _ hne] at hs
  refine ⟨_, hs, fun pl hpl => ?_⟩
  have hfind := Keyed.find_of_mem GameEnginePlayer.roomPlayerId hids hpl
  split
  · rename_i hpq
    rw [hpq] at hfind
    cases hfind.symm.trans hq
    exact hg
  · split
    · rename_i hpq
      rw [hpq] at hfind
      cases hfind.symm.trans hq'
      exact hg'
    · exact .same

end Changes

/-! ## The actions -/

section Actions

variable {c : Condition} {s s' : GameEngineState} {p : RoomPlayerId} {pl : GameEnginePlayer}
  {events : List GameEngineEvent}

theorem movedState_players {dice : DiceRoll} {suppressDoubles : Bool} {tile : GameTile} :
    (movedState s p dice suppressDoubles tile).players =
      Keyed.modify GameEnginePlayer.roomPlayerId s.players p
        (movedPlayer s.board (dice.1 + dice.2)) := by
  obtain ⟨count, again, hdoubles⟩ := doublesState_eq s dice suppressDoubles
  unfold movedState
  rw [hdoubles]
  rfl

theorem board_passGoCash : 0 ≤ s.board.passGoCash := by
  rw [GameEngineState.board_eq]
  decide

theorem Turn.players (hv : Valid s) (ho : OnTurn s p pl) (h : Turn p pl s events s') :
    PlayersChange s p s' := by
  have hid : pl.roomPlayerId = p := GameEngineState.player?_id ho.player
  have hpl := hv.playerOk ho.player
  cases h with
  | moved =>
    refine .update hv.players.ids ho.player movedState_players (.moved hid ho.active ?_)
    have := board_passGoCash (s := s)
    split <;> omega
  | thirdDoubles =>
    refine .update hv.players.ids ho.player rfl ?_
    exact .jailed hid ho.active
  | escaped =>
    exact .update hv.players.ids ho.player rfl (.released hid ho.active hpl.cash)
  | stayed => exact .update hv.players.ids ho.player rfl (.waited hid ho.active)
  | forcedFine _ _ _ hcash | finePaid _ hcash =>
    exact .update hv.players.ids ho.player rfl (.released hid ho.active (by omega))
  | fineOwed => exact .update hv.players.ids ho.player rfl (.waited hid ho.active)
  | cardUsed _ hcards _ =>
    refine .update hv.players.ids ho.player rfl ?_
    exact .usedCard hid ho.active hcards
  | playsAgain | passesTurn => exact .refl rfl

theorem cardShare_other_nonneg (hv : Valid s) {x : GameEnginePlayer} (hx : x ∈ s.players)
    {card : GameEngineCard} (hcard : cardsByKey card.key = some card) (hne : x.roomPlayerId ≠ p) :
    (x.bankrupt = true → cardShare (replicaOf s) p card.effect (seatOf x) = 0) ∧
      0 ≤ x.cash + cardShare (replicaOf s) p card.effect (seatOf x) := by
  have hnonneg := nonnegEffect_of_known hcard
  have hcash := (hv.players.player x hx).cash
  have hzero : ∀ amount, toPlayer p amount (seatOf x) = 0 := fun amount => if_neg hne
  cases heffect : card.effect
  case collectFromEachPlayer amount =>
    simp only [cardShare, seatOf, hne, if_false]
    by_cases hb : x.bankrupt = true
    · simpa [hb] using hcash
    · simp [hb]
  case payEachPlayer amount =>
    have h0 : 0 ≤ amount := by simpa [heffect, nonnegEffect] using hnonneg
    simp only [cardShare, seatOf, hne, if_false]
    by_cases hb : x.bankrupt = true
    · simpa [hb] using hcash
    · simpa [hb] using add_nonneg hcash h0
  all_goals
    simp only [cardShare, hzero]
    exact ⟨fun _ => trivial, by omega⟩

theorem settleCard_players (hv : Valid s) (ho : OnTurn s p pl) {card : GameEngineCard}
    (hcard : cardsByKey card.key = some card)
    (hcash : 0 ≤ pl.cash + cardShare (replicaOf s) p card.effect (seatOf pl))
    (hs : s'.players = settleCard s p card.effect) : PlayersChange s p s' := by
  refine ⟨_, hs, fun x hx => ?_⟩
  by_cases hxp : x.roomPlayerId = p
  · have hfind := hv.players.find hx
    rw [hxp, ho.player] at hfind
    cases hfind
    exact .cash ho.active hcash
  · obtain ⟨hretired, h0⟩ := cardShare_other_nonneg hv hx hcard hxp
    by_cases hb : x.bankrupt = true
    · rw [hretired hb, add_zero]
      exact .same
    · exact .cash (by simpa using hb) h0

theorem Landing.players (hv : Valid s) (ho : OnTurn s p pl) (h : Landing p pl s events s') :
    PlayersChange s p s' := by
  have hid : pl.roomPlayerId = p := GameEngineState.player?_id ho.player
  cases h with
  | taxPaid _ _ hcash =>
    exact .update hv.players.ids ho.player rfl (.cash ho.active (by omega))
  | rentPaid hproperty howner hne hlisted h0 hcash =>
    obtain ⟨ol, hol, hactive⟩ := (hv.tileOk hproperty).owner _ howner
    have hol0 := (hv.playerOk hol).cash
    refine .update₂ hv.players.ids ho.player hol (Ne.symm hne) ?_ rfl ?_ ?_
    · intro _; rfl
    · exact .cash ho.active (by omega)
    · exact .cash hactive (by omega)
  | owes | cardOwed => exact .refl rfl
  | sentToJail | cardJailed =>
    refine .update hv.players.ids ho.player rfl ?_
    exact .jailed hid ho.active
  | cardSettled hdraw _ hcash => exact settleCard_players hv ho hdraw.known hcash rfl
  | cardKept hdraw heffect =>
    exact .update hv.players.ids ho.player rfl
      (.keptCard hid ho.active ⟨_, hdraw.known, heffect⟩)
  | cardMoved =>
    rename_i target passedGo _ _ _ _
    have hs : ∀ decks, (cardMovedState { s with decks } p target passedGo).players =
        Keyed.modify GameEnginePlayer.roomPlayerId s.players p
          (cardMovedPlayer s.board target passedGo) := by
      intro decks
      unfold cardMovedState
      dsimp only
      split <;> rfl
    refine .update hv.players.ids ho.player (hs _) (.moved hid ho.active ?_)
    have := board_passGoCash (s := s)
    split <;> omega

theorem Estate.players (hv : Valid s) (ho : OnTurn s p pl) (h : Estate p pl s events s') :
    PlayersChange s p s' := by
  have h0 := (hv.playerOk ho.player).cash
  cases h <;> exact .update hv.players.ids ho.player rfl (.cash ho.active (by omega))

theorem leader_active (hv : Valid s) {auction : GameEngineAuction}
    (hauction : s.auction = some auction) {leader : RoomPlayerId} {bidder : GameEnginePlayer}
    (hleader : auction.highestBidderRoomPlayerId = some leader)
    (hbidder : s.player? leader = some bidder) (hcash : auction.currentBid ≤ bidder.cash) :
    bidder.bankrupt = false := by
  have ha := hv.phase.auctionOk auction hauction
  have hbid := ha.leader (by rw [hleader]; rfl)
  have hten : minimumAuctionBid = 10 := rfl
  cases hb : bidder.bankrupt with
  | false => rfl
  | true =>
    have hzero := ha.retired leader (ha.leaderActive leader hleader) bidder hbidder hb
    omega

theorem bidder_active (hv : Valid s) {auction : GameEngineAuction} (hact : CanAct s p auction)
    {bidder : GameEnginePlayer} {amount : Int} (hmin : getMinimumAuctionBid auction ≤ amount)
    (hbidder : s.player? p = some bidder) (hcash : amount ≤ bidder.cash) :
    bidder.bankrupt = false := by
  have ha := hv.phase.auctionOk auction hact.running
  have hpos : 0 < getMinimumAuctionBid auction := getMinimumAuctionBid_pos
  cases hb : bidder.bankrupt with
  | false => rfl
  | true =>
    have hzero := ha.retired p hact.active bidder hbidder hb
    omega

theorem Bidding.players (hv : Valid s) {condition : GameEngineState → RoomPlayerId → Prop}
    (h : Bidding condition p s events s') : PlayersChange s p s' := by
  cases h with
  | declined | bid | passed | passedUnsold => exact .refl rfl
  | bidWon hact hmin hbidder hcash =>
    exact .update hv.players.ids hbidder rfl
      (.cash (bidder_active hv hact hmin hbidder hcash) (by omega))
  | passedWon hact hleader hbidder hcash =>
    exact .update hv.players.ids hbidder rfl
      (.cash (leader_active hv hact.running hleader hbidder hcash) (by omega))

theorem sales_nonneg (keys : List TileKey) : 0 ≤ sales s keys := by
  apply List.sum_nonneg
  intro x hx
  obtain ⟨key, _, rfl⟩ := List.mem_map.mp hx
  unfold saleAt saleAmount
  cases s.property? key with
  | none => exact le_refl _
  | some x => exact le_max_left _ _

theorem Trade.players (hv : Valid s) {condition : GameEngineState → GameEngineTradeOffer → Prop}
    (h : Trade condition p s events s') : PlayersChange s p s' := by
  cases h with
  | marked =>
    refine ⟨_, rfl, fun x _ => ?_⟩
    split
    · rename_i hxp
      exact .marked hxp
    · exact .same
  | offered | refused | rejected | cancelled => exact .refl rfl
  | executed hagreed hoffer hcan hcondition =>
    rename_i trade fromPlayer toPlayer proposal
    have hfrom := sales_nonneg (s := s) trade.offeredPropertyKeys
    have hto := sales_nonneg (s := s) trade.requestedPropertyKeys
    have hcashFrom := hcan.offeredCash
    have hcashTo := hcan.requestedCash
    have h0 := hoffer.offeredCash
    have h0' := hoffer.requestedCash
    refine .update₂ hv.players.ids hcan.fromFound hcan.toFound hoffer.other ?_ rfl ?_ ?_
    · intro _; rfl
    · exact .cash hcan.fromActive (by omega)
    · exact .cash hcan.toActive (by omega)

theorem debtPaidState_players {debt : GameEngineDebt}
    (hne : ∀ c, debt.creditorRoomPlayerId = some c → c ≠ debt.roomPlayerId) :
    (debtPaidState s debt).players = s.players.map fun x =>
      if x.roomPlayerId = debt.roomPlayerId then
        if debt.reason = .jailFine then leaveJail { x with cash := x.cash - debt.amount }
        else { x with cash := x.cash - debt.amount }
      else if debt.creditorRoomPlayerId = some x.roomPlayerId then
        { x with cash := x.cash + debt.amount }
      else x := by
  unfold debtPaidState
  cases hcreditor : debt.creditorRoomPlayerId with
  | none =>
    split
    · simp only [Option.elim_none, releasePlayerFromJail_eq, GameEngineState.addCash,
        GameEngineState.updatePlayer, Keyed.modify, List.map_map]
      apply List.map_congr_left
      intro x _
      by_cases hx : x.roomPlayerId = debt.roomPlayerId <;> simp [hx, sub_eq_add_neg]
    · simp only [Option.elim_none, GameEngineState.addCash, GameEngineState.updatePlayer,
        Keyed.modify]
      apply List.map_congr_left
      intro x _
      by_cases hx : x.roomPlayerId = debt.roomPlayerId <;> simp [hx, sub_eq_add_neg]
  | some creditor =>
    have hne := hne creditor hcreditor
    split
    · simp only [Option.elim_some, releasePlayerFromJail_eq, GameEngineState.addCash,
        GameEngineState.updatePlayer, Keyed.modify, List.map_map]
      apply List.map_congr_left
      intro x _
      by_cases hx : x.roomPlayerId = debt.roomPlayerId
      · simp [hx, Ne.symm hne, sub_eq_add_neg]
      · by_cases hc : x.roomPlayerId = creditor
        · simp [hc, hne]
        · simp [hx, hc, Ne.symm hc]
    · simp only [Option.elim_some, GameEngineState.addCash,
        GameEngineState.updatePlayer, Keyed.modify, List.map_map]
      apply List.map_congr_left
      intro x _
      by_cases hx : x.roomPlayerId = debt.roomPlayerId
      · simp [hx, Ne.symm hne, sub_eq_add_neg]
      · by_cases hc : x.roomPlayerId = creditor
        · simp [hc, hne]
        · simp [hx, hc, Ne.symm hc]

/-- `p` goes bankrupt between the states; the turn may pass on or the game end. -/
structure Bankrupts (s : GameEngineState) (p : RoomPlayerId) (pl : GameEnginePlayer)
    (creditor : Option RoomPlayerId) (decks : GameEngineDecks) (s' : GameEngineState) : Prop
    extends GoesBankrupt s p pl creditor decks where
  players' : s'.players =
    Keyed.modify GameEnginePlayer.roomPlayerId s.players p GameEnginePlayer.liquidated
  properties' : s'.properties = s.properties.map (liquidateProperty p creditor)
  decks' : s'.decks = decks

theorem debtPaid_players (hv : Valid s) {debt : GameEngineDebt}
    (hphase : s.phase = .awaitingDebtResolution) (hdebt : s.debt = some debt)
    (hdebtor : debt.roomPlayerId = p) (hpl : s.player? p = some pl) (h0 : 0 ≤ debt.amount)
    (hcash : debt.amount ≤ pl.cash) : PlayersChange s p (debtPaidState s debt) := by
  have hd := hv.phase.debtOk debt hdebt
  have hactive : pl.bankrupt = false := by
    have hturn : IsActive s s.currentTurnRoomPlayerId :=
      hv.table.turn ⟨by rw [hphase]; decide, by rw [hphase]; decide⟩
    obtain ⟨cur, hcur, hactive⟩ := hturn
    rw [← hd.debtor, hdebtor, hpl] at hcur
    cases hcur
    exact hactive
  refine ⟨_, debtPaidState_players fun c hc => (hd.creditor c hc).1, fun x hx => ?_⟩
  split
  · rename_i hxd
    have hfind := hv.players.find hx
    rw [hxd, hdebtor, hpl] at hfind
    cases hfind
    split
    · exact .released (hxd.trans hdebtor) hactive (by omega)
    · exact .cash hactive (by omega)
  · split
    · rename_i hc
      exact .credited hdebt hc h0
    · exact .same

theorem Settlement.players (hv : Valid s) {condition : GameEngineState → RoomPlayerId → Prop}
    (h : Settlement condition p s events s') :
    PlayersChange s p s' ∨ ∃ pl creditor decks, Bankrupts s p pl creditor decks s' := by
  cases h with
  | debtPaid hphase hdebt hdebtor hpl h0 hcash =>
    exact .inl (debtPaid_players hv hphase hdebt hdebtor hpl h0 hcash)
  | lastBankruptcy hbankrupt | bankruptcy hbankrupt | ownBankruptcy hbankrupt =>
    exact .inr ⟨_, _, _, hbankrupt, rfl, rfl, rfl⟩
  | finished => exact .inl (.refl rfl)

theorem Action.players (hv : Valid s) (h : Action c p s events s') :
    PlayersChange s p s' ∨ ∃ pl creditor decks, Bankrupts s p pl creditor decks s' := by
  cases h with
  | turn h =>
    obtain ⟨pl, ho, hturn⟩ := h
    exact .inl (hturn.players hv ho)
  | landing h =>
    obtain ⟨pl, ha, hlanding⟩ := h
    exact .inl (hlanding.players hv ha.toOnTurn)
  | estate h =>
    obtain ⟨pl, ho, hestate⟩ := h
    exact .inl (hestate.players hv ho)
  | bidding h => exact .inl (h.players hv)
  | trade h => exact .inl (h.players hv)
  | settlement h => exact h.players hv

/-! ## The invariant -/

theorem PlayerChange.identity {x y : GameEnginePlayer} (h : PlayerChange s p x y) :
    Rules.identity y = Rules.identity x := by
  cases h <;> rfl

theorem PlayersChange.same (h : PlayersChange s p s') : SamePlayers s s' := by
  obtain ⟨f, hs, hf⟩ := h
  unfold SamePlayers
  rw [hs, List.map_map]
  apply List.map_congr_left
  intro x hx
  exact (hf x hx).identity

theorem PlayerChange.ok {x y : GameEnginePlayer} (h : PlayerChange s p x y) (hx : PlayerOk x) :
    PlayerOk y := by
  obtain ⟨hcash, hcards, hkeys, hretired⟩ := hx
  cases h with
  | same => exact ⟨hcash, hcards, hkeys, hretired⟩
  | cash _ h0 => exact ⟨h0, hcards, hkeys, hretired⟩
  | credited _ _ h0 => exact ⟨add_nonneg hcash h0, hcards, hkeys, hretired⟩
  | moved _ _ hle => exact ⟨le_trans hcash hle, hcards, hkeys, hretired⟩
  | jailed _ hactive | waited _ hactive =>
    refine ⟨hcash, hcards, hkeys, fun hb => ?_⟩
    rw [hactive] at hb
    cases hb
  | released _ _ h0 => exact ⟨h0, hcards, hkeys, fun hb => ⟨rfl, (hretired hb).2⟩⟩
  | keptCard _ hactive hopens =>
    refine ⟨hcash, by simp [hcards], ?_, fun hb => ?_⟩
    · intro cardKey hmem
      rcases List.mem_append.mp hmem with hold | hnew
      · exact hkeys cardKey hold
      · rw [List.mem_singleton.mp hnew]
        exact hopens
    · rw [hactive] at hb
      cases hb
  | usedCard _ _ _ =>
    refine ⟨hcash, ?_, fun cardKey hmem => hkeys cardKey (List.mem_of_mem_tail hmem),
      fun hb => ⟨rfl, ?_⟩⟩
    · simp only [leaveJail, List.length_tail, hcards]
    · simp only [leaveJail, (hretired hb).2, List.tail_nil]
  | marked _ => exact ⟨hcash, hcards, hkeys, hretired⟩

theorem liquidated_ok (pl : GameEnginePlayer) : PlayerOk pl.liquidated :=
  ⟨le_refl _, rfl, fun _ hmem => absurd hmem List.not_mem_nil, fun _ => ⟨rfl, rfl⟩⟩

theorem liquidated_playersOk (hp : PlayersOk s) (hpl : s.player? p = some pl)
    (hplayers : s'.players =
      Keyed.modify GameEnginePlayer.roomPlayerId s.players p GameEnginePlayer.liquidated) :
    PlayersOk s' := by
  constructor
  · rw [hplayers, Keyed.map_modify]
    · exact hp.ids
    · intro _; rfl
  · rw [hplayers]
    exact Keyed.forall_mem_modify _ hp.ids hpl hp.player (liquidated_ok pl)

/-- Actions keep the players in order. -/
theorem Action.playersOk (hv : Valid s) (h : Action c p s events s') : PlayersOk s' := by
  rcases h.players hv with hchange | ⟨pl, creditor, decks, hb⟩
  · constructor
    · rw [hchange.same.ids]
      exact hv.players.ids
    · obtain ⟨f, hs, hf⟩ := hchange
      rw [hs, List.forall_mem_map]
      intro x hx
      exact (hf x hx).ok (hv.players.player x hx)
  · exact liquidated_playersOk hv.players hb.found hb.players'

end Actions

end Rules
end LivePoly
