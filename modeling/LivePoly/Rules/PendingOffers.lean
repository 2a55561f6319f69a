import LivePoly.Rules.Retired

/-!
# Rules.PendingOffers

Who is asked. A bot answers a trade at once, so that an offer that is pending in a game is for a
human.
-/

namespace LivePoly
namespace Rules

open Engine Checked

/-- A pending offer is for a human to answer. -/
def OffersToHumans (s : GameEngineState) : Prop :=
  ∀ trade, s.tradeOffer = some trade → ∃ target, s.player? trade.toRoomPlayerId = some target ∧
    target.playerType = .human

/-- Who a player is, and of which kind. -/
def typing (pl : GameEnginePlayer) : RoomPlayerId × PlayerType := (pl.roomPlayerId, pl.playerType)

/-- The offer that is pending was pending before. -/
def NoNewOffer (s s' : GameEngineState) : Prop :=
  s'.tradeOffer = s.tradeOffer ∨ s'.tradeOffer = none

section Steps

variable {s s' t : GameEngineState} {p q : RoomPlayerId} {pl : GameEnginePlayer} {env : Env}
  {c : Condition} {events : List GameEngineEvent} {r : GameEngineResult}

theorem NoNewOffer.trans (h : NoNewOffer s t) (h' : NoNewOffer t s') : NoNewOffer s s' := by
  rcases h' with hsame | hnone
  · rcases h with hsame' | hnone'
    · exact .inl (hsame.trans hsame')
    · exact .inr (hsame.trans hnone')
  · exact .inr hnone

/-! ## Steps without an offer -/

theorem Turn.noNewOffer (h : Turn p pl s events s') : NoNewOffer s s' := by
  cases h with
  | @moved dice suppressDoubles tile =>
    obtain ⟨_, _, _, _, hoffer, _⟩ := @movedState_control s p dice suppressDoubles tile
    exact .inl hoffer
  | thirdDoubles | escaped | stayed | forcedFine | finePaid | cardUsed | fineOwed =>
    exact .inl rfl
  | playsAgain | passesTurn => exact .inr rfl

theorem Landing.noNewOffer (h : Landing p pl s events s') : NoNewOffer s s' := by
  cases h with
  | taxPaid | rentPaid | cardSettled | cardKept | sentToJail | cardJailed | owes | cardOwed =>
    exact .inl rfl
  | @cardMoved deckKey card decks target passedGo =>
    left
    unfold cardMovedState
    dsimp only
    split <;> rfl

theorem Estate.noNewOffer (h : Estate p pl s events s') : NoNewOffer s s' := by
  cases h <;> exact .inl rfl

theorem Bidding.noNewOffer {condition : GameEngineState → RoomPlayerId → Prop}
    (h : Bidding condition p s events s') : NoNewOffer s s' := by
  cases h <;> exact .inl rfl

theorem debtPaidState_noNewOffer (debt : GameEngineDebt) : NoNewOffer s (debtPaidState s debt) :=
  .inl debtPaidState_control.1

theorem Settlement.noNewOffer {condition : GameEngineState → RoomPlayerId → Prop}
    (h : Settlement condition p s events s') : NoNewOffer s s' := by
  cases h with
  | debtPaid => exact debtPaidState_noNewOffer _
  | lastBankruptcy | finished => exact .inr rfl
  | bankruptcy | ownBankruptcy => exact .inl rfl

theorem Move.noNewOffer (hf : Funded s) {intent : GameEngineIntent} (h : Move c s intent events s')
    (hdeals : isDealing intent = false) : NoNewOffer s s' := by
  cases h with
  | rolled ho hphase hroll =>
    obtain ⟨hsteps, _⟩ := rollAndMove_steps hf ho hphase hroll
    refine hsteps.invariant (I := fun t => NoNewOffer s t) ?_ (.inl rfl)
    rintro u o u' hu (⟨_, _, _, hturn⟩ | ⟨_, _, hlanding⟩)
    · exact hu.trans hturn.noNewOffer
    · exact hu.trans hlanding.noNewOffer
  | finePaid | cardUsed => exact .inl rfl
  | @turnEnded p pl r _ hphase hend =>
    have hturn : Turn p pl s r.events r.state := endTurn_turn hphase hend
    exact hturn.noNewOffer
  | estate _ hdeal | bidding _ hdeal | trade _ hdeal => cases hdeals.symm.trans hdeal
  | debtPaid => exact debtPaidState_noNewOffer _
  | bankrupt h => exact h.settlement.noNewOffer
  | @resolved p debt raised settled t _ _ _ hraise h =>
    have hraised : NoNewOffer s t := by
      refine hraise.invariant (I := fun u => NoNewOffer s u) ?_ (.inl rfl)
      rintro u o u' hu ⟨_, _, hestate⟩
      exact hu.trans hestate.noNewOffer
    rcases h with ⟨_, _, _, _, rfl⟩ | h
    · exact hraised.trans (debtPaidState_noNewOffer _)
    · exact hraised.trans h.settlement.noNewOffer
  | finished => exact .inr rfl

theorem accepted_noNewOffer (hv : Valid s) {intent : GameEngineIntent}
    (h : reduceGameEngineIntent env s intent = .ok r) (hnot : ∀ input, intent ≠ .proposeTrade input) :
    NoNewOffer s r.state := by
  have hmove := reduceGameEngineIntent_move hv.sound (permits_unrestricted env s intent) h
  have hbidding : ∀ {q}, Bidding (fun _ _ => True) q s r.events r.state → NoNewOffer s r.state :=
    fun h => h.noNewOffer
  have hestate : ∀ {q action}, GameEngineService.onOwnTurn s q action = .ok r →
      (∀ {pl r}, OnTurn s q pl → action = .ok r → Estate q pl s r.events r.state) →
      NoNewOffer s r.state := by
    intro q action haction hdone
    simp only [GameEngineService.onOwnTurn, bind_eq_ok, assertCurrentTurn_eq_ok] at haction
    obtain ⟨_, ⟨pl, ho⟩, haction⟩ := haction
    exact (hdone ho haction).noNewOffer
  cases intent with
  | buyProperty p =>
    simp only [reduceGameEngineIntent, GameEngineService.buyProperty, bind_eq_ok,
      assertCurrentTurn_eq_ok] at h
    obtain ⟨_, hphase, _, ⟨pl, ho⟩, h⟩ := h
    exact (buyProperty_estate ho (assertCanBuyProperty_eq_ok hphase) h).noNewOffer
  | declinePropertyPurchase p =>
    simp only [reduceGameEngineIntent, GameEngineService.declinePropertyPurchase, bind_eq_ok,
      assertCurrentTurn_eq_ok] at h
    obtain ⟨_, hphase, _, ⟨pl, ho⟩, h⟩ := h
    exact hbidding (declinePropertyPurchase_bidding ho (assertCanBuyProperty_eq_ok hphase) h)
  | placeAuctionBid p amount => exact hbidding (placeAuctionBid_bidding h)
  | passAuctionBid p =>
    exact hbidding (passAuctionBid_bidding (fun _ _ _ _ => trivial) h)
  | buildProperty p key => exact hestate h fun ho h => buildProperty_estate ho h
  | sellBuilding p key => exact hestate h fun _ h => sellBuilding_estate h
  | mortgageProperty p key => exact hestate h fun _ h => mortgageProperty_estate h
  | unmortgageProperty p key => exact hestate h fun ho h => unmortgageProperty_estate ho h
  | proposeTrade input => exact absurd rfl (hnot input)
  | acceptTrade p tradeId =>
    simp only [reduceGameEngineIntent, acceptTrade, bind_eq_ok] at h
    obtain ⟨trade, htrade, _, _, h⟩ := h
    obtain ⟨htrade, _⟩ := assertTradeOffer_eq_ok htrade
    obtain ⟨_, rfl⟩ :=
      acceptTradeOffer_eq_ok hv.tiles.keys_nodup (hv.table.offer trade htrade).2.plain h
    exact .inr rfl
  | rejectTrade p tradeId =>
    simp only [reduceGameEngineIntent, rejectTrade, bind_eq_ok, pure_eq_ok] at h
    obtain ⟨_, _, _, _, rfl⟩ := h
    exact .inr rfl
  | cancelTrade p tradeId =>
    simp only [reduceGameEngineIntent, cancelTrade, bind_eq_ok, pure_eq_ok] at h
    obtain ⟨_, _, _, _, rfl⟩ := h
    exact .inr rfl
  | rollAndMove | payJailFine | useGetOutOfJailCard | endTurn | payDebt | autoResolveDebt
  | declareBankruptcy | finishGameByTime | finishGameAfterLastHumanLeft =>
    exact hmove.noNewOffer hv.players.funded rfl

/-! ## Players keep their kind -/

theorem PlayerChange.typing {x y : GameEnginePlayer} (h : PlayerChange s p x y) :
    Rules.typing y = Rules.typing x := by
  cases h <;> rfl

theorem Action.typing (hv : Valid s) (h : Action c p s events s') :
    s'.players.map Rules.typing = s.players.map Rules.typing := by
  rcases h.players hv with ⟨f, hs, hf⟩ | ⟨_, _, _, hb⟩
  · rw [hs, List.map_map]
    apply List.map_congr_left
    intro x hx
    exact (hf x hx).typing
  · rw [hb.players', Keyed.map_modify]
    intro _; rfl

theorem accepted_typing (hv : Valid s) {intent : GameEngineIntent}
    (h : reduceGameEngineIntent env s intent = .ok r) :
    r.state.players.map typing = s.players.map typing := by
  obtain ⟨p, hactions⟩ := accepted_actions hv (permits_unrestricted env s intent) h
  have hkept := hactions.invariant
    (I := fun t => Valid t ∧ t.players.map typing = s.players.map typing) ?_ ⟨hv, rfl⟩
  · exact hkept.2
  · rintro u o u' ⟨hvalid, hsame⟩ haction
    exact ⟨haction.valid hvalid, (haction.typing hvalid).trans hsame⟩

theorem typing_player? (h : s'.players.map typing = s.players.map typing) {q : RoomPlayerId}
    {target : GameEnginePlayer} (htarget : s.player? q = some target) :
    ∃ target', s'.player? q = some target' ∧ target'.playerType = target.playerType := by
  have hkey : ∀ x : GameEnginePlayer, (typing x).1 = x.roomPlayerId := fun _ => rfl
  have hfound := Keyed.find_congr_map GameEnginePlayer.roomPlayerId hkey h q
  have hmap : (s'.player? q).map typing = (s.player? q).map typing := hfound
  rw [htarget, Option.map_some] at hmap
  obtain ⟨target', htarget', hsame⟩ := Option.map_eq_some_iff.mp hmap
  exact ⟨target', htarget', congrArg Prod.snd hsame⟩

/-! ## Games -/

theorem proposeTrade_offersToHumans {input : ProposeTradeInput}
    (h : proposeTrade env s input = .ok r) : OffersToHumans r.state := by
  simp only [proposeTrade, bind_eq_ok, findPlayer_eq_ok] at h
  obtain ⟨_, _, _, _, _, _, trade, _, _, _, marked, _, target, htarget, h⟩ := h
  have hnone : r.state.tradeOffer = none → OffersToHumans r.state := by
    intro hnone other hother
    cases hnone.symm.trans hother
  split at h
  · obtain ⟨accepts, _, h⟩ := bind_eq_ok.mp h
    cases accepts with
    | true =>
      rw [if_pos rfl] at h
      simp only [acceptTradeOffer, bind_eq_ok, pure_eq_ok] at h
      obtain ⟨_, _, _, _, _, _, _, _, _, _, rfl⟩ := h
      exact hnone rfl
    | false =>
      rw [if_neg Bool.false_ne_true] at h
      cases h
      exact hnone rfl
  · rename_i hhuman
    cases h
    intro other hother
    cases hother
    refine ⟨target, htarget, ?_⟩
    cases htype : target.playerType with
    | human => rfl
    | bot => exact absurd htype hhuman

theorem accepted_offersToHumans (hv : Valid s) (hoffers : OffersToHumans s)
    {intent : GameEngineIntent} (h : reduceGameEngineIntent env s intent = .ok r) :
    OffersToHumans r.state := by
  by_cases hproposes : ∃ input, intent = .proposeTrade input
  · obtain ⟨input, rfl⟩ := hproposes
    exact proposeTrade_offersToHumans h
  · have hoffer := accepted_noNewOffer hv h fun input heq => hproposes ⟨input, heq⟩
    intro trade htrade
    rcases hoffer with hsame | hnone
    · obtain ⟨target, htarget, hhuman⟩ := hoffers trade (hsame.symm.trans htrade)
      obtain ⟨target', htarget', htype⟩ := typing_player? (accepted_typing hv h) htarget
      exact ⟨target', htarget', htype.trans hhuman⟩
    · cases hnone.symm.trans htrade

/-- In every state a game reaches, the pending offer is for a human. -/
theorem reachable_offersToHumans {input : CreateInitialGameStateInput} (hi : ValidInput input)
    (h : Reachable input s) : OffersToHumans s := by
  obtain ⟨sent, events, start, hgame⟩ := h
  obtain ⟨env, hstart⟩ := hgame.begun
  have hnone : OffersToHumans start := by
    have hstart' := hstart
    simp only [createInitialGameState, bind_eq_ok, pure_eq_ok] at hstart'
    obtain ⟨_, _, rfl⟩ := hstart'
    intro _ hsome
    cases hsome
  have hkept := hgame.run.invariant (I := fun t => Valid t ∧ OffersToHumans t) ?_
    ⟨createInitialGameState_valid hi hstart, hnone⟩
  · exact hkept.2
  · rintro u sent o u' ⟨hvalid, hoffers⟩ haccepts
    exact ⟨accepts_valid _ _ _ _ hvalid haccepts, accepted_offersToHumans hvalid hoffers haccepts⟩

end Steps

end Rules
end LivePoly
