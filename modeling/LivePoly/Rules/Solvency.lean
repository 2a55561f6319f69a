import LivePoly.Rules.Retired

/-!
# Rules.Solvency

Whoever leads an auction can pay the bid. The bid is checked when it is placed and paid when the
auction ends, and in between a trade offered before may be accepted and the leader may go bankrupt:
the code looks at the auction in neither case. In games without such trades and bankruptcies the
leader stays solvent, since nobody on turn is in jail while a tile is decided on or auctioned.
-/

namespace LivePoly
namespace Rules

open Engine Checked

/-- What the player has in cash after the trade. -/
def tradedCash (s : GameEngineState) (trade : GameEngineTradeOffer) (pl : GameEnginePlayer) : Int :=
  pl.cash +
    (if pl.roomPlayerId = trade.fromRoomPlayerId then
      sales s trade.offeredPropertyKeys + trade.requestedCash - trade.offeredCash else 0) +
    (if pl.roomPlayerId = trade.toRoomPlayerId then
      sales s trade.requestedPropertyKeys + trade.offeredCash - trade.requestedCash else 0)

/-- The trade leaves the leader of the auction the bid. -/
def SparesLeader (s : GameEngineState) (trade : GameEngineTradeOffer) : Prop :=
  ∀ auction leader pl, s.auction = some auction →
    auction.highestBidderRoomPlayerId = some leader → s.player? leader = some pl →
    auction.currentBid ≤ tradedCash s trade pl

/-- The bankruptcy of `p` ends the game or the auction, or `p` does not lead it. -/
def LeavesNoBid (s : GameEngineState) (p : RoomPlayerId) : Prop :=
  EndsGame (s.updatePlayer p GameEnginePlayer.liquidated) ∨ s.currentTurnRoomPlayerId = p ∨
    ∀ auction, s.auction = some auction → auction.highestBidderRoomPlayerId ≠ some p

/-- No trade and no bankruptcy takes the bid from the leader of an auction. -/
def sparingLeader : Condition := ⟨SparesLeader, fun _ _ => True, LeavesNoBid⟩

/-- The leader of the auction is in the game and can pay the bid. -/
def LeaderSolvent (s : GameEngineState) : Prop :=
  ∀ auction leader, s.auction = some auction →
    auction.highestBidderRoomPlayerId = some leader →
    ∃ pl, s.player? leader = some pl ∧ pl.bankrupt = false ∧ auction.currentBid ≤ pl.cash

/-- The phases in which a tile is decided on. -/
def isDeciding : GamePhase → Bool
  | .awaitingPropertyDecision | .awaitingAuctionBid => true
  | _ => false

/-- The player on turn is not in jail while a tile is decided on. -/
def AtLarge (s : GameEngineState) : Prop :=
  isDeciding s.phase = true → ∀ pl, s.player? s.currentTurnRoomPlayerId = some pl → pl.inJail = false

/-! ## Out of jail -/

section AtLarge

variable {c : Condition} {s s' : GameEngineState} {p : RoomPlayerId} {pl : GameEnginePlayer}
  {events : List GameEngineEvent}

theorem atLarge_of_phase (h : isDeciding s.phase = false) : AtLarge s := fun hdeciding =>
  absurd (h.symm.trans hdeciding) Bool.false_ne_true

theorem AwaitsRoll.notDeciding (h : AwaitsRoll s) : isDeciding s.phase = false := by
  rcases h with h | h
  · rw [h]
    rfl
  · rw [h]
    rfl

theorem atLarge_of_free {pl : GameEnginePlayer} (hcurrent : s.currentTurnRoomPlayerId = p)
    (hpl : s.player? p = some pl) (hfree : pl.inJail = false) : AtLarge s := by
  intro _ found hfound
  rw [hcurrent] at hfound
  cases hfound.symm.trans hpl
  exact hfree

theorem AtLarge.same (h : AtLarge s) (hphase : s'.phase = s.phase)
    (hcurrent : s'.currentTurnRoomPlayerId = s.currentTurnRoomPlayerId)
    (hplayers : s'.players.map (fun x => (x.roomPlayerId, x.inJail)) =
      s.players.map fun x => (x.roomPlayerId, x.inJail)) : AtLarge s' := by
  intro hdeciding pl hpl
  have hkey : ∀ x : GameEnginePlayer, (x.roomPlayerId, x.inJail).1 = x.roomPlayerId := fun _ => rfl
  have hfound := Keyed.find_congr_map GameEnginePlayer.roomPlayerId hkey hplayers
    s'.currentTurnRoomPlayerId
  have hpl' : Keyed.find GameEnginePlayer.roomPlayerId s'.players s'.currentTurnRoomPlayerId =
    some pl := hpl
  rw [hpl', Option.map_some, hcurrent] at hfound
  obtain ⟨before, hbefore, heq⟩ := Option.map_eq_some_iff.mp hfound.symm
  have hfree : before.inJail = false := by
    refine h ?_ before hbefore
    rwa [hphase] at hdeciding
  exact (congrArg Prod.snd heq).symm.trans hfree

theorem Turn.atLarge (ho : OnTurn s p pl) (h : Turn p pl s events s') : AtLarge s' := by
  have hmodified : ∀ {t : GameEngineState} {f : GameEnginePlayer → GameEnginePlayer},
      t.currentTurnRoomPlayerId = s.currentTurnRoomPlayerId →
      (∀ x, (f x).roomPlayerId = x.roomPlayerId) →
      t.players = Keyed.modify GameEnginePlayer.roomPlayerId s.players p f →
      (f pl).inJail = false → AtLarge t := by
    intro t f hcurrent hid ht hfree
    exact atLarge_of_free (hcurrent.trans ho.current) (player?_of_modify ht hid ho.player) hfree
  cases h with
  | moved hphase hfree =>
    refine hmodified ?_ ?_ movedState_players hfree
    · exact movedState_control.2.2.2.2.2
    · intro _; rfl
  | thirdDoubles | stayed | fineOwed | playsAgain | passesTurn => exact atLarge_of_phase rfl
  | escaped hphase | forcedFine hphase => exact atLarge_of_phase hphase.notDeciding
  | finePaid | cardUsed =>
    refine hmodified rfl ?_ rfl rfl
    intro _; rfl

theorem Landing.atLarge (ha : Arrived s p pl) (h : Landing p pl s events s') : AtLarge s' := by
  have hend : isDeciding s.phase = false := by
    rw [ha.phase]
    rfl
  cases h with
  | taxPaid | rentPaid | cardSettled | cardKept => exact atLarge_of_phase hend
  | owes | sentToJail | cardOwed | cardJailed => exact atLarge_of_phase rfl
  | @cardMoved deckKey card decks target passedGo =>
    have hmoved : ∀ t, t = cardMovedState { s with decks } p target passedGo →
        t.currentTurnRoomPlayerId = s.currentTurnRoomPlayerId ∧
          t.players = Keyed.modify GameEnginePlayer.roomPlayerId s.players p
            (cardMovedPlayer s.board target passedGo) := by
      rintro t rfl
      unfold cardMovedState
      dsimp only
      split <;> exact ⟨rfl, rfl⟩
    obtain ⟨hcurrent, hplayers⟩ := hmoved _ rfl
    refine atLarge_of_free (hcurrent.trans ha.current)
      (player?_of_modify hplayers ?_ ha.player) ha.free
    intro _; rfl

theorem Estate.atLarge (h : Estate p pl s events s') : AtLarge s' := by
  have hraise : MayRaiseCash s p → isDeciding s.phase = false := by
    rintro (hphase | ⟨hphase, _⟩) <;> rw [hphase] <;> rfl
  cases h with
  | bought => exact atLarge_of_phase rfl
  | houseBuilt hphase | hotelBuilt hphase | unmortgaged hphase =>
    refine atLarge_of_phase ?_
    change isDeciding s.phase = false
    rw [hphase]
    rfl
  | hotelSold hphase | houseSold hphase | mortgaged hphase =>
    exact atLarge_of_phase (hraise hphase)

theorem Bidding.atLarge (hl : AtLarge s) {condition : GameEngineState → RoomPlayerId → Prop}
    (h : Bidding condition p s events s') : AtLarge s' := by
  cases h with
  | declined ho hphase =>
    intro _ pl hpl
    refine hl ?_ pl hpl
    rw [hphase]
    rfl
  | bid | passed => exact hl
  | bidWon | passedWon | passedUnsold => exact atLarge_of_phase rfl

theorem Trade.atLarge (hl : AtLarge s) {condition : GameEngineState → GameEngineTradeOffer → Prop}
    (h : Trade condition p s events s') : AtLarge s' := by
  cases h with
  | marked =>
    refine hl.same rfl rfl ?_
    apply Keyed.map_modify
    intro _; rfl
  | offered | refused | rejected | cancelled => exact hl
  | executed =>
    refine hl.same rfl rfl ?_
    rw [exchanged_players, List.map_map]
    rfl

theorem Settlement.atLarge (hl : AtLarge s) {condition : GameEngineState → RoomPlayerId → Prop}
    (h : Settlement condition p s events s') : AtLarge s' := by
  cases h with
  | debtPaid | lastBankruptcy | ownBankruptcy | finished => exact atLarge_of_phase rfl
  | @bankruptcy pl creditor decks _ _ _ hother =>
    intro hdeciding found hfound
    have hsame : (liquidatedState s p creditor decks).player? s.currentTurnRoomPlayerId =
        s.player? s.currentTurnRoomPlayerId := by
      rw [liquidated_player? rfl, if_neg hother]
    exact hl hdeciding found (hsame.symm.trans hfound)

theorem Action.atLarge (hl : AtLarge s) (h : Action c p s events s') : AtLarge s' := by
  cases h with
  | turn h =>
    obtain ⟨pl, ho, hturn⟩ := h
    exact hturn.atLarge ho
  | landing h =>
    obtain ⟨pl, ha, hlanding⟩ := h
    exact hlanding.atLarge ha
  | estate h =>
    obtain ⟨pl, _, hestate⟩ := h
    exact hestate.atLarge
  | bidding h => exact h.atLarge hl
  | trade h => exact h.atLarge hl
  | settlement h => exact h.atLarge hl

end AtLarge

/-! ## The leader -/

section Leader

variable {s s' : GameEngineState} {p : RoomPlayerId} {pl : GameEnginePlayer}
  {events : List GameEngineEvent}

theorem leaderSolvent_of_none (h : s.auction = none) : LeaderSolvent s := by
  intro auction leader hauction
  cases h.symm.trans hauction

theorem LeaderSolvent.same (h : LeaderSolvent s) (hauction : s'.auction = s.auction)
    (hplayers : s'.players = s.players) : LeaderSolvent s' := by
  intro auction leader hrunning hleader
  have hsame : s'.player? leader = s.player? leader := by
    unfold GameEngineState.player?
    rw [hplayers]
  rw [hsame]
  exact h auction leader (hauction.symm.trans hrunning) hleader

theorem Valid.auction_none (hv : Valid s) (h : isDeciding s.phase = false) : s.auction = none := by
  refine hv.phase.auction_none fun hphase => ?_
  rw [hphase] at h
  cases h

theorem Turn.auction (h : Turn p pl s events s') : s'.auction = s.auction ∨ s'.auction = none := by
  cases h with
  | moved => exact .inl movedState_control.2.2.1
  | thirdDoubles | escaped | stayed | forcedFine | finePaid | cardUsed | playsAgain
  | passesTurn => exact .inl rfl
  | fineOwed => exact .inr rfl

/-- The dice are not rolled and jail is not left while an auction runs. -/
theorem Turn.leaderSolvent (hv : Valid s) (hl : AtLarge s) (ho : OnTurn s p pl)
    (h : Turn p pl s events s') : LeaderSolvent s' := by
  have hjailed : pl.inJail = true → isDeciding s.phase = false := by
    intro hjail
    by_contra hdeciding
    have hpl := ho.player
    rw [← ho.current] at hpl
    have hfree := hl (Bool.not_eq_false _ ▸ hdeciding) pl hpl
    exact Bool.false_ne_true (hfree.symm.trans hjail)
  have hphase : isDeciding s.phase = false := by
    cases h with
    | moved hphase | thirdDoubles hphase | escaped hphase | stayed hphase | forcedFine hphase
    | fineOwed hphase => exact hphase.notDeciding
    | finePaid hjail => exact hjailed hjail
    | cardUsed hjail => exact hjailed hjail
    | playsAgain hphase | passesTurn hphase =>
      rw [hphase]
      rfl
  have hnone := hv.auction_none hphase
  rcases h.auction with hsame | hclosed
  · exact leaderSolvent_of_none (hsame.trans hnone)
  · exact leaderSolvent_of_none hclosed

theorem Landing.leaderSolvent (hv : Valid s) (ha : Arrived s p pl)
    (h : Landing p pl s events s') : LeaderSolvent s' := by
  have hnone : s.auction = none := hv.phase.auction_none (by rw [ha.phase]; decide)
  cases h with
  | taxPaid | rentPaid | sentToJail | cardSettled | cardKept | cardJailed =>
    exact leaderSolvent_of_none hnone
  | owes | cardOwed => exact leaderSolvent_of_none rfl
  | @cardMoved deckKey card decks target passedGo =>
    refine leaderSolvent_of_none ?_
    have hsame : (cardMovedState { s with decks } p target passedGo).auction = s.auction := by
      unfold cardMovedState
      dsimp only
      split <;> rfl
    exact hsame.trans hnone

theorem Estate.leaderSolvent (hv : Valid s) (h : Estate p pl s events s') : LeaderSolvent s' := by
  have hnone : ∀ {phase : GamePhase}, s.phase = phase → phase ≠ .awaitingAuctionBid →
      s.auction = none := fun hphase hother =>
    hv.phase.auction_none fun hbid => hother (hphase.symm.trans hbid)
  have hraise : MayRaiseCash s p → s.auction = none := by
    rintro (hphase | ⟨hphase, _⟩)
    · exact hnone hphase (by decide)
    · exact hnone hphase (by decide)
  cases h with
  | bought hphase | houseBuilt hphase | hotelBuilt hphase | unmortgaged hphase =>
    exact leaderSolvent_of_none (hnone hphase (by decide))
  | hotelSold hphase | houseSold hphase | mortgaged hphase =>
    exact leaderSolvent_of_none (hraise hphase)

theorem Bidding.leaderSolvent (hv : Valid s) (hs : LeaderSolvent s)
    {condition : GameEngineState → RoomPlayerId → Prop} (h : Bidding condition p s events s') :
    LeaderSolvent s' := by
  cases h with
  | declined =>
    intro auction leader hauction hleader
    cases hauction
    cases hleader
  | @bid auction bidder amount expiresAt hact hmin hbidder hcash =>
    intro next leader hnext hleader
    cases hnext
    cases hleader
    exact ⟨bidder, hbidder, bidder_active hv hact hmin hbidder hcash, hcash⟩
  | @passed auction expiresAt hact =>
    intro next leader hnext hleader
    cases hnext
    exact hs auction leader hact.running hleader
  | bidWon | passedWon | passedUnsold => exact leaderSolvent_of_none rfl

theorem exchanged_player? {trade : GameEngineTradeOffer} (q : RoomPlayerId) :
    (exchanged s trade).player? q =
      (s.player? q).map fun x => { x with cash := tradedCash s trade x } := by
  unfold GameEngineState.player?
  rw [exchanged_players]
  apply Keyed.find_map
  intro _; rfl

theorem Trade.leaderSolvent (hs : LeaderSolvent s) (h : Trade SparesLeader p s events s') :
    LeaderSolvent s' := by
  cases h with
  | marked =>
    intro auction leader hauction hleader
    obtain ⟨pl, hpl, hactive, hcash⟩ := hs auction leader hauction hleader
    rw [GameEngineState.player?_updatePlayer]
    · split
      · exact ⟨_, congrArg (Option.map _) hpl, hactive, hcash⟩
      · exact ⟨pl, hpl, hactive, hcash⟩
    · intro _; rfl
  | offered | refused | rejected | cancelled => exact hs.same rfl rfl
  | @executed trade _ _ _ _ _ _ hspares =>
    intro auction leader hauction hleader
    obtain ⟨pl, hpl, hactive, _⟩ := hs auction leader hauction hleader
    rw [exchanged_player?, hpl]
    exact ⟨_, rfl, hactive, hspares auction leader pl hauction hleader hpl⟩

theorem Settlement.leaderSolvent (hs : LeaderSolvent s)
    (h : Settlement LeavesNoBid p s events s') : LeaderSolvent s' := by
  cases h with
  | debtPaid | lastBankruptcy | ownBankruptcy | finished => exact leaderSolvent_of_none rfl
  | @bankruptcy pl creditor decks hbankrupt hspares hgoes hother =>
    intro auction leader hauction hleader
    have hne : leader ≠ p := by
      rintro rfl
      rcases hspares with hends | hown | hnot
      · exact hgoes hends
      · exact hother hown
      · exact hnot auction hauction hleader
    obtain ⟨ql, hql, hactive, hcash⟩ := hs auction leader hauction hleader
    refine ⟨ql, ?_, hactive, hcash⟩
    have hsame : (liquidatedState s p creditor decks).player? leader = s.player? leader := by
      rw [liquidated_player? rfl, if_neg hne]
    exact hsame.trans hql

theorem Action.leaderSolvent (hv : Valid s) (hl : AtLarge s) (hs : LeaderSolvent s)
    (h : Action sparingLeader p s events s') : LeaderSolvent s' := by
  cases h with
  | turn h =>
    obtain ⟨pl, ho, hturn⟩ := h
    exact hturn.leaderSolvent hv hl ho
  | landing h =>
    obtain ⟨pl, ha, hlanding⟩ := h
    exact hlanding.leaderSolvent hv ha
  | estate h =>
    obtain ⟨pl, _, hestate⟩ := h
    exact hestate.leaderSolvent hv
  | bidding h => exact h.leaderSolvent hv hs
  | trade h => exact h.leaderSolvent hs
  | settlement h => exact h.leaderSolvent hs

end Leader

/-! ## Closing the auction -/

section Closing

variable {s : GameEngineState} {p : RoomPlayerId} {env : Env}

theorem completeAuctionWithWinner_ne_error {auction : GameEngineAuction} {event : GameEngineEvent}
    {e : EngineError}
    (h : ∀ leader, auction.highestBidderRoomPlayerId = some leader → 0 ≤ auction.currentBid ∧
      ∃ pl, s.player? leader = some pl ∧ auction.currentBid ≤ pl.cash) :
    completeAuctionWithWinner s auction event ≠ .error e := by
  unfold completeAuctionWithWinner
  cases hleader : auction.highestBidderRoomPlayerId with
  | none => exact fun herror => by cases herror
  | some leader =>
    obtain ⟨h0, pl, hpl, hcash⟩ := h leader hleader
    have hdebit := debitPlayer_eq_ok.mpr ⟨h0, pl, hpl, hcash, rfl⟩
    intro herror
    dsimp only at herror
    rw [hdebit, ok_bind] at herror
    cases herror

/-- A pass does not fail for want of cash. -/
theorem passAuctionBid_funded (hv : Valid s) (hs : LeaderSolvent s) {code : GameEngineErrorCode}
    {message : String} (h : passAuctionBid env s p = .error (.gameEngineError code message)) :
    code ≠ .insufficientFunds := by
  simp only [passAuctionBid, bind_eq_error] at h
  rcases h with h | ⟨auction, hactive, h | ⟨_, _, h | ⟨_, _, h⟩⟩⟩
  · simp only [assertActiveAuction, orThrow_eq_error] at h
    obtain ⟨_, h⟩ := h
    cases h
    decide
  · simp only [assertAuctionPlayerActive, rejectIf, throwIf_eq_error] at h
    obtain ⟨_, h⟩ := h
    cases h
    decide
  · simp only [assertAuctionPlayerCanAct, rejectIf, throwIf_eq_error] at h
    obtain ⟨_, h⟩ := h
    cases h
    decide
  · obtain ⟨_, hauction⟩ := assertActiveAuction_eq_ok.mp hactive
    split at h
    · refine absurd h (completeAuctionWithWinner_ne_error fun leader hleader => ?_)
      have hleader : auction.highestBidderRoomPlayerId = some leader := hleader
      obtain ⟨pl, hpl, _, hcash⟩ := hs auction leader hauction hleader
      have hbid := (hv.phase.auctionOk auction hauction).leader (by rw [hleader]; rfl)
      have hten : minimumAuctionBid = 10 := rfl
      refine ⟨?_, pl, hpl, hcash⟩
      change 0 ≤ auction.currentBid
      omega
    · split at h
      · cases h
      · cases h

/-- A bid fails for want of cash only when it is more than the bidder has. -/
theorem placeAuctionBid_funded {amount : JsNumber} {message : String}
    (h : placeAuctionBid env s p amount =
      .error (.gameEngineError .insufficientFunds message)) :
    ∃ value bidder, amount = .int value ∧ s.player? p = some bidder ∧ bidder.cash < value := by
  simp only [placeAuctionBid, bind_eq_error] at h
  rcases h with h | ⟨auction, hactive, h | ⟨_, _, h | ⟨_, _, h | ⟨value, hvalue, h⟩⟩⟩⟩
  · simp only [assertActiveAuction, orThrow_eq_error] at h
    obtain ⟨_, h⟩ := h
    cases h
  · simp only [assertAuctionPlayerActive, rejectIf, throwIf_eq_error] at h
    obtain ⟨_, h⟩ := h
    cases h
  · simp only [assertAuctionPlayerCanAct, rejectIf, throwIf_eq_error] at h
    obtain ⟨_, h⟩ := h
    cases h
  · simp only [orThrow_eq_error] at h
    obtain ⟨_, h⟩ := h
    cases h
  · rcases h with h | ⟨bidder, hbidder, h | ⟨_, hcash, h⟩⟩
    · simp only [findPlayer, findPlayerOr, orThrow_eq_error] at h
      obtain ⟨_, h⟩ := h
      cases h
    · obtain ⟨hamount, _⟩ := integerAtLeast_eq_some.mp (orThrow_eq_ok.mp hvalue)
      simp only [rejectIf, throwIf_eq_error] at h
      exact ⟨value, bidder, hamount, findPlayer_eq_ok.mp hbidder, h.1⟩
    · obtain ⟨_, hmin⟩ := integerAtLeast_eq_some.mp (orThrow_eq_ok.mp hvalue)
      have hpos : 0 < getMinimumAuctionBid auction := getMinimumAuctionBid_pos
      split at h
      · refine absurd h (completeAuctionWithWinner_ne_error fun leader hleader => ?_)
        cases hleader
        refine ⟨?_, bidder, findPlayer_eq_ok.mp hbidder, ?_⟩
        · change 0 ≤ value
          omega
        · exact not_lt.mp (rejectIf_eq_ok.mp hcash)
      · cases h

end Closing

/-! ## Trades and bankruptcies that take the bid -/

section Takes

variable {s : GameEngineState} {p : RoomPlayerId} {env : Env} {r : GameEngineResult}

theorem exchanged_insolvent {trade : GameEngineTradeOffer} (hnot : ¬ SparesLeader s trade) :
    ¬ LeaderSolvent (exchanged s trade) := by
  intro hs
  refine hnot fun auction leader pl hauction hleader hpl => ?_
  obtain ⟨found, hfound, _, hcash⟩ := hs auction leader hauction hleader
  rw [exchanged_player?, hpl, Option.map_some] at hfound
  cases hfound
  exact hcash

theorem declareBankruptcy_insolvent {creditor : Option RoomPlayerId}
    (h : declareBankruptcy s p creditor = .ok r) (hnot : ¬ LeavesNoBid s p) :
    ¬ LeaderSolvent r.state := by
  obtain ⟨hsettlement, _, _, hdeclared⟩ : Bankruptcy (fun _ _ => True) p s r.events r.state :=
    declareBankruptcy_bankruptcy trivial h
  obtain ⟨hgoes, hrest⟩ := not_or.mp hnot
  obtain ⟨hother, hleads⟩ := not_or.mp hrest
  generalize r.events = events, r.state = s' at *
  cases hsettlement with
  | debtPaid => cases hdeclared
  | finished _ hevent =>
    obtain ⟨rfl, _⟩ := List.cons.inj hdeclared
    cases hevent
  | lastBankruptcy _ _ hends => exact absurd hends hgoes
  | ownBankruptcy _ _ _ hown => exact absurd hown hother
  | @bankruptcy pl creditor decks hbankrupt =>
    intro hs
    refine hleads fun auction hauction hleader => ?_
    obtain ⟨found, hfound, hactive, _⟩ := hs auction p hauction hleader
    exact ((liquidated_stillIn rfl p).mp ⟨found, hfound, hactive⟩).2 rfl

/-- An intent that is not permitted leaves a leader who cannot pay. -/
theorem accepted_insolvent (hv : Valid s) {intent : GameEngineIntent}
    (h : reduceGameEngineIntent env s intent = .ok r)
    (hnot : ¬ Permits sparingLeader env s intent) : ¬ LeaderSolvent r.state := by
  cases intent with
  | declareBankruptcy p creditor => exact declareBankruptcy_insolvent h hnot
  | acceptTrade p tradeId =>
    simp only [Permits, not_forall] at hnot
    obtain ⟨trade, hpending, htakes⟩ := hnot
    simp only [reduceGameEngineIntent, acceptTrade, bind_eq_ok] at h
    obtain ⟨found, hfound, _, _, h⟩ := h
    obtain ⟨hfound, _⟩ := assertTradeOffer_eq_ok hfound
    cases hpending.symm.trans hfound
    obtain ⟨_, rfl⟩ := acceptTradeOffer_eq_ok hv.tiles.keys_nodup
      (hv.table.offer trade hpending).2.plain h
    exact exchanged_insolvent htakes
  | proposeTrade input =>
    simp only [Permits, not_forall] at hnot
    obtain ⟨trade, marked, hphase, _, hmarked, _, _, htakes⟩ := hnot
    -- no trade is proposed while an auction runs
    refine absurd (fun auction _ _ hauction => ?_) htakes
    have hnone : s.auction = none := hv.phase.auction_none fun hbid => by
      rcases hphase with h | h | h | h <;> cases h.symm.trans hbid
    have hsame : marked.auction = s.auction := by
      rcases markBotTradeProposal_eq_ok hmarked with rfl | rfl <;> rfl
    cases (hsame.trans hnone).symm.trans hauction
  | autoResolveDebt p =>
    simp only [Permits, not_forall] at hnot
    obtain ⟨raised, hraise, _, htakes⟩ := hnot
    simp only [reduceGameEngineIntent, autoResolveDebt, bind_eq_ok, rejectIf_eq_ok] at h
    obtain ⟨_, hdebtor, _⟩ := h
    obtain ⟨debt, hdebt, _⟩ := Option.map_eq_some_iff.mp (Classical.not_not.mp hdebtor)
    have hnone : s.auction = none :=
      hv.phase.auction_none (by rw [(pendingDebt_eq_some.mp hdebt).1]; decide)
    obtain ⟨⟨events, _, hchain⟩, _⟩ := raiseCash_steps hraise
    have hsame : raised.state.auction = s.auction := by
      refine hchain.invariant (I := fun u => u.auction = s.auction) ?_ rfl
      rintro u o u' hu ⟨pl, _, hestate⟩
      rw [← hu]
      cases hestate <;> rfl
    refine absurd (.inr (.inr fun auction hauction => ?_)) htakes
    cases (hsame.trans hnone).symm.trans hauction
  | _ => exact absurd (by simp [Permits, sparingLeader]) hnot

end Takes

/-! ## Games -/

section Games

variable {input : CreateInitialGameStateInput} {s t start : GameEngineState}
  {sent : List (Env × GameEngineIntent)} {events : List GameEngineEvent}

theorem createInitialGameState_idle {env : Env}
    (h : createInitialGameState env input = .ok start) :
    isDeciding start.phase = false ∧ start.auction = none := by
  simp only [createInitialGameState, bind_eq_ok, orThrow_eq_ok, pure_eq_ok] at h
  obtain ⟨first, _, rfl⟩ := h
  exact ⟨rfl, rfl⟩

theorem accepts_leaderSolvent (sent : Env × GameEngineIntent) (events : List GameEngineEvent)
    (h : Valid s ∧ AtLarge s ∧ LeaderSolvent s)
    (hstep : Trace.Guarded Accepts (PermitsSent sparingLeader) s sent events t) :
    Valid t ∧ AtLarge t ∧ LeaderSolvent t := by
  obtain ⟨hv, hl, hs⟩ := h
  obtain ⟨haccepts, hpermits⟩ := hstep
  obtain ⟨p, hactions⟩ := accepted_actions hv hpermits haccepts
  refine hactions.invariant (I := fun u => Valid u ∧ AtLarge u ∧ LeaderSolvent u) ?_ ⟨hv, hl, hs⟩
  rintro u o u' ⟨hvalid, hlarge, hsolvent⟩ haction
  exact ⟨haction.valid hvalid, haction.atLarge hlarge,
    haction.leaderSolvent hvalid hlarge hsolvent⟩

/-- In every game in which no trade and no bankruptcy takes the bid from the leader of an auction,
the leader can pay, and neither a pass nor a bid that the bidder has fails for want of cash. The
first trade or bankruptcy that takes the bid leaves a leader who cannot pay. -/
theorem game_leaderSolvent {env : Env} (hi : ValidInput input)
    (hbegun : createInitialGameState env input = .ok start)
    (h : Trace.Run (Trace.Guarded Accepts (PermitsSent sparingLeader)) start sent events s) :
    LeaderSolvent s ∧
    (∀ env p code message,
      passAuctionBid env s p = .error (.gameEngineError code message) →
        code ≠ .insufficientFunds) ∧
    (∀ env p amount message,
      placeAuctionBid env s p amount = .error (.gameEngineError .insufficientFunds message) →
        ∃ value bidder, amount = .int value ∧ s.player? p = some bidder ∧
          bidder.cash < value) ∧
    ∀ next events' s', Accepts s next events' s' → ¬ PermitsSent sparingLeader s next →
      ¬ LeaderSolvent s' := by
  obtain ⟨hphase, hnone⟩ := createInitialGameState_idle hbegun
  obtain ⟨hv, _, hs⟩ := h.invariant (fun u i o u' => accepts_leaderSolvent (s := u) (t := u') i o)
    ⟨createInitialGameState_valid hi hbegun, atLarge_of_phase hphase, leaderSolvent_of_none hnone⟩
  refine ⟨hs, fun env p code message => passAuctionBid_funded hv hs,
    fun env p amount message => placeAuctionBid_funded, ?_⟩
  exact fun next events' s' haccepts hnot => accepted_insolvent hv haccepts hnot

/-- The first player declines Ghana and bids ten for it. -/
def ghanaBid : List GameEngineIntent :=
  [.rollAndMove ⟨1⟩ [.int 1, .int 2], .declinePropertyPurchase ⟨1⟩, .placeAuctionBid ⟨1⟩ (.int 10)]

theorem threePlayers_leaderSolvent : ∃ env sent events start s,
    createInitialGameState env threePlayers = .ok start ∧
    Trace.Run (Trace.Guarded Accepts (PermitsSent sparingLeader)) start sent events s ∧
    (s.auction.bind GameEngineAuction.highestBidderRoomPlayerId) = some ⟨1⟩ ∧
    LeaderSolvent s := by
  obtain ⟨r, hr, hleader⟩ := exists_ok_of_any (by decide +kernel :
    (playThree ghanaBid).toOption.any (fun r =>
      r.state.auction.bind GameEngineAuction.highestBidderRoomPlayerId = some ⟨1⟩) = true)
  obtain ⟨start, hstart, hgame⟩ := playRoom_game hr
  have hsafe : Trace.Run (Trace.Guarded Accepts fun _ sent => ∀ s, PermitsSent sparingLeader s sent)
      start _ r.events r.state :=
    hgame.run.guarded (by simp [atStart, ghanaBid, PermitsSent, Permits])
  have hrun : Trace.Run (Trace.Guarded Accepts (PermitsSent sparingLeader)) start _ r.events
      r.state := hsafe.mono fun s _ _ _ hs => ⟨hs.1, hs.2 s⟩
  exact ⟨_, _, _, start, r.state, hstart, hrun, of_decide_eq_true hleader,
    (game_leaderSolvent threePlayers_valid hstart hrun).1⟩

/-- The second player leads the auction and goes bankrupt; the pass of the third one fails. -/
theorem threePlayers_bankruptLeader : ∃ s message, Reachable threePlayers s ∧ ¬ LeaderSolvent s ∧
    passAuctionBid ⟨0, "trade"⟩ s ⟨3⟩ = .error (.gameEngineError .insufficientFunds message) := by
  obtain ⟨r, hr, htest⟩ := exists_ok_of_any (by decide +kernel :
    (playThree [.rollAndMove ⟨1⟩ [.int 1, .int 2], .declinePropertyPurchase ⟨1⟩,
      .passAuctionBid ⟨1⟩, .placeAuctionBid ⟨2⟩ (.int 10),
      .declareBankruptcy ⟨2⟩ none]).toOption.any (fun r =>
        match passAuctionBid ⟨0, "trade"⟩ r.state ⟨3⟩ with
        | .error (.gameEngineError .insufficientFunds _) => true
        | _ => false) = true)
  have hreach : Reachable threePlayers r.state := playRoom_reachable hr
  have hv : Valid r.state := reachable_valid threePlayers_valid hreach
  split at htest
  · rename_i message hfails
    refine ⟨r.state, message, hreach, fun hs => ?_, hfails⟩
    exact passAuctionBid_funded hv hs hfails rfl
  · cases htest

end Games

end Rules
end LivePoly
