import LivePoly.Rules.Guarantees

/-!
# Rules.Terminal

A game that has ended. Every intent asks in its own way whether the game goes on, but the two
that leave jail: they only ask whose turn it is.
-/

namespace LivePoly
namespace Rules

open Engine Checked

/-- The player on turn is in jail and can leave it by a fine or a card. -/
def MayLeaveJail (s : GameEngineState) : Prop :=
  ∃ pl, OnTurn s s.currentTurnRoomPlayerId pl ∧ pl.inJail = true ∧
    (jailFineAmount ≤ pl.cash ∨ 0 < pl.getOutOfJailFreeCards)

section Guards

variable {env : Env} {s : GameEngineState} {p : RoomPlayerId} {pl : GameEnginePlayer}
  {r : GameEngineResult}

theorem assertCanManage_inProgress {code : GameEngineErrorCode} {message : String} {allow : Bool}
    {u : Unit} (h : assertCanManage code message s p allow = .ok u) : InProgress s := by
  simp only [assertCanManage, bind_eq_ok] at h
  obtain ⟨_, hactive, _⟩ := h
  exact assertGameActive_eq_ok.mp hactive

theorem assertTradeOffer_inProgress (hv : Valid s) {tradeId : String}
    {trade : GameEngineTradeOffer} (h : assertTradeOffer s tradeId = .ok trade) :
    InProgress s :=
  (hv.table.offer trade (assertTradeOffer_eq_ok h).1).1

theorem payJailFine_eq_ok :
    payJailFine s p = .ok r ↔ ∃ pl, s.player? p = some pl ∧ pl.inJail = true ∧
      jailFineAmount ≤ pl.cash ∧
      r = ⟨releasePlayerFromJail (s.addCash p (-jailFineAmount)) p,
        [.jailFinePaid p jailFineAmount, .playerReleasedFromJail p]⟩ := by
  simp only [payJailFine, bind_eq_ok, findPlayer_eq_ok, rejectIf_eq_ok, debitPlayer_eq_ok,
    pure_eq_ok]
  constructor
  · rintro ⟨pl, hpl, _, hjail, _, ⟨_, pl', hpl', hcash, rfl⟩, rfl⟩
    cases hpl.symm.trans hpl'
    exact ⟨pl, hpl, by simpa using hjail, hcash, rfl⟩
  · rintro ⟨pl, hpl, hjail, hcash, rfl⟩
    exact ⟨pl, hpl, (), by simpa using hjail, _,
      ⟨(by decide : (0 : Int) ≤ jailFineAmount), pl, hpl, hcash, rfl⟩, rfl⟩

theorem useGetOutOfJailCard_succeeds (hv : Valid s) (hpl : s.player? p = some pl)
    (hjail : pl.inJail = true) (hcards : 0 < pl.getOutOfJailFreeCards) :
    Succeeds (useGetOutOfJailCard s p) := by
  have hok := hv.playerOk hpl
  cases hkeys : pl.getOutOfJailFreeCardKeys with
  | nil =>
    rw [hok.cards, hkeys] at hcards
    cases hcards
  | cons cardKey rest =>
    obtain ⟨card, hcard, _⟩ := hok.keys cardKey (by rw [hkeys]; exact List.mem_cons_self)
    obtain ⟨deckKey, hdeck⟩ : ∃ deckKey, getDeckKeyForCard cardKey = some deckKey := by
      cases cardKey <;> exact ⟨_, rfl⟩
    have hfind : findPlayer s p = .ok pl := findPlayer_eq_ok.mpr hpl
    obtain ⟨returned, hreturn⟩ : Succeeds (returnGetOutOfJailCardToDeck s (some cardKey)) := by
      simp only [returnGetOutOfJailCardToDeck, Option.getD_some, hdeck, orThrow, ok_bind]
      exact succeeds_pure _
    have hnot : ¬ pl.getOutOfJailFreeCards ≤ 0 := by omega
    simp only [useGetOutOfJailCard, hfind, ok_bind, hkeys, List.head?_cons, hreturn, rejectIf,
      hjail, Bool.not_true, Bool.false_eq_true, throwIf_of_not hnot, throwIf_of_not not_false]
    exact succeeds_pure _

/-- What is accepted is accepted in a game that goes on, or leaves jail. -/
theorem accepted_inProgress (hv : Valid s) {intent : GameEngineIntent}
    (h : reduceGameEngineIntent env s intent = .ok r) :
    InProgress s ∨ MayLeaveJail s ∧
      ∃ p, intent = .payJailFine p ∨ intent = .useGetOutOfJailCard p := by
  cases intent with
  | rollAndMove p dice =>
    simp only [reduceGameEngineIntent, GameEngineService.rollAndMove, assertCanRoll,
      bind_eq_ok, assertGameActive_eq_ok] at h
    obtain ⟨_, ⟨_, hactive, _⟩, _⟩ := h
    exact .inl hactive
  | buyProperty p =>
    simp only [reduceGameEngineIntent, GameEngineService.buyProperty, assertCanBuyProperty,
      bind_eq_ok, assertGameActive_eq_ok] at h
    obtain ⟨_, ⟨_, hactive, _⟩, _⟩ := h
    exact .inl hactive
  | declinePropertyPurchase p =>
    simp only [reduceGameEngineIntent, GameEngineService.declinePropertyPurchase,
      assertCanBuyProperty, bind_eq_ok, assertGameActive_eq_ok] at h
    obtain ⟨_, ⟨_, hactive, _⟩, _⟩ := h
    exact .inl hactive
  | placeAuctionBid p amount =>
    simp only [reduceGameEngineIntent, placeAuctionBid, bind_eq_ok, assertActiveAuction_eq_ok] at h
    obtain ⟨_, ⟨hphase, _⟩, _⟩ := h
    exact .inl (inProgress_of_phase hphase rfl)
  | passAuctionBid p =>
    simp only [reduceGameEngineIntent, passAuctionBid, bind_eq_ok, assertActiveAuction_eq_ok] at h
    obtain ⟨_, ⟨hphase, _⟩, _⟩ := h
    exact .inl (inProgress_of_phase hphase rfl)
  | buildProperty p key =>
    simp only [reduceGameEngineIntent, GameEngineService.onOwnTurn, buildProperty,
      assertCanManageBuildings, bind_eq_ok] at h
    obtain ⟨_, _, _, hmanage, _⟩ := h
    exact .inl (assertCanManage_inProgress hmanage)
  | sellBuilding p key =>
    simp only [reduceGameEngineIntent, GameEngineService.onOwnTurn, sellBuilding,
      assertCanManageBuildings, bind_eq_ok] at h
    obtain ⟨_, _, _, hmanage, _⟩ := h
    exact .inl (assertCanManage_inProgress hmanage)
  | mortgageProperty p key =>
    simp only [reduceGameEngineIntent, GameEngineService.onOwnTurn, mortgageProperty,
      assertCanManageMortgage, bind_eq_ok] at h
    obtain ⟨_, _, _, hmanage, _⟩ := h
    exact .inl (assertCanManage_inProgress hmanage)
  | unmortgageProperty p key =>
    simp only [reduceGameEngineIntent, GameEngineService.onOwnTurn, unmortgageProperty,
      assertCanManageMortgage, bind_eq_ok] at h
    obtain ⟨_, _, _, hmanage, _⟩ := h
    exact .inl (assertCanManage_inProgress hmanage)
  | proposeTrade input =>
    simp only [reduceGameEngineIntent, proposeTrade, assertCanTrade, bind_eq_ok,
      assertGameActive_eq_ok] at h
    obtain ⟨_, ⟨_, hactive, _⟩, _⟩ := h
    exact .inl hactive
  | acceptTrade p tradeId =>
    simp only [reduceGameEngineIntent, acceptTrade, bind_eq_ok] at h
    obtain ⟨_, htrade, _⟩ := h
    exact .inl (assertTradeOffer_inProgress hv htrade)
  | rejectTrade p tradeId =>
    simp only [reduceGameEngineIntent, rejectTrade, bind_eq_ok] at h
    obtain ⟨_, htrade, _⟩ := h
    exact .inl (assertTradeOffer_inProgress hv htrade)
  | cancelTrade p tradeId =>
    simp only [reduceGameEngineIntent, cancelTrade, bind_eq_ok] at h
    obtain ⟨_, htrade, _⟩ := h
    exact .inl (assertTradeOffer_inProgress hv htrade)
  | declareBankruptcy p creditor =>
    simp only [reduceGameEngineIntent, declareBankruptcy, bind_eq_ok,
      assertGameActive_eq_ok] at h
    obtain ⟨_, hactive, _⟩ := h
    exact .inl hactive
  | payDebt p =>
    simp only [reduceGameEngineIntent, payDebt, bind_eq_ok, orThrow_eq_ok,
      pendingDebt_eq_some] at h
    obtain ⟨_, ⟨hphase, _⟩, _⟩ := h
    exact .inl (inProgress_of_phase hphase rfl)
  | autoResolveDebt p =>
    simp only [reduceGameEngineIntent, autoResolveDebt, bind_eq_ok, rejectIf_eq_ok,
      Classical.not_not, Option.map_eq_some_iff, pendingDebt_eq_some] at h
    obtain ⟨_, ⟨_, ⟨hphase, _⟩, _⟩, _⟩ := h
    exact .inl (inProgress_of_phase hphase rfl)
  | payJailFine p =>
    simp only [reduceGameEngineIntent, GameEngineService.onOwnTurn, bind_eq_ok,
      assertCurrentTurn_eq_ok, payJailFine_eq_ok] at h
    obtain ⟨_, ⟨pl, ho⟩, pl', hpl', hjail, hcash, _⟩ := h
    cases ho.player.symm.trans hpl'
    exact .inr ⟨⟨pl, ho.current ▸ ho, hjail, .inl hcash⟩, p, .inl rfl⟩
  | useGetOutOfJailCard p =>
    simp only [reduceGameEngineIntent, GameEngineService.onOwnTurn, useGetOutOfJailCard,
      bind_eq_ok, assertCurrentTurn_eq_ok, findPlayer_eq_ok, rejectIf_eq_ok] at h
    obtain ⟨_, ⟨pl, ho⟩, pl', hpl', _, hjail, _, hcards, _⟩ := h
    cases ho.player.symm.trans hpl'
    exact .inr ⟨⟨pl, ho.current ▸ ho, by simpa using hjail, .inr (by omega)⟩, p, .inr rfl⟩
  | endTurn p =>
    simp only [reduceGameEngineIntent, GameEngineService.endTurn, assertCanEndTurn,
      bind_eq_ok, assertGameActive_eq_ok] at h
    obtain ⟨_, ⟨_, hactive, _⟩, _⟩ := h
    exact .inl hactive
  | finishGameByTime finishedAt =>
    simp only [reduceGameEngineIntent, finishGameByTime, assertCanFinishByTime, bind_eq_ok,
      assertGameActive_eq_ok] at h
    obtain ⟨_, ⟨_, hactive, _⟩, _⟩ := h
    exact .inl hactive
  | finishGameAfterLastHumanLeft finishedAt =>
    simp only [reduceGameEngineIntent, finishGameAfterLastHumanLeft,
      assertCanFinishAfterLastHumanLeft, bind_eq_ok, assertGameActive_eq_ok] at h
    obtain ⟨_, ⟨_, hactive, _⟩, _⟩ := h
    exact .inl hactive

/-- Who may leave jail does leave it when asking to, in every phase. -/
theorem mayLeaveJail_accepted (hv : Valid s) (h : MayLeaveJail s) (env : Env) :
    ∃ intent r, reduceGameEngineIntent env s intent = .ok r := by
  obtain ⟨pl, ho, hjail, hcash | hcards⟩ := h
  · obtain ⟨r, hr⟩ : Succeeds (payJailFine s s.currentTurnRoomPlayerId) :=
      ⟨_, payJailFine_eq_ok.mpr ⟨pl, ho.player, hjail, hcash, rfl⟩⟩
    refine ⟨.payJailFine s.currentTurnRoomPlayerId, r, ?_⟩
    simp only [reduceGameEngineIntent, GameEngineService.onOwnTurn, bind_eq_ok]
    exact ⟨(), assertCurrentTurn_eq_ok.mpr ⟨pl, ho⟩, hr⟩
  · obtain ⟨r, hr⟩ := useGetOutOfJailCard_succeeds hv ho.player hjail hcards
    refine ⟨.useGetOutOfJailCard s.currentTurnRoomPlayerId, r, ?_⟩
    simp only [reduceGameEngineIntent, GameEngineService.onOwnTurn, bind_eq_ok]
    exact ⟨(), assertCurrentTurn_eq_ok.mpr ⟨pl, ho⟩, hr⟩

end Guards

/-- A state from which no run leads away. -/
def Absorbing (s : GameEngineState) : Prop :=
  ∀ sent events s', Trace.Run Accepts s sent events s' → sent = [] ∧ events = [] ∧ s' = s

theorem absorbing_iff {s : GameEngineState} :
    Absorbing s ↔ ∀ env intent r, reduceGameEngineIntent env s intent ≠ .ok r := by
  constructor
  · rintro h env intent ⟨s', events⟩ haccepted
    have hstep : Accepts s (env, intent) events s' := haccepted
    obtain ⟨hnil, _⟩ := h _ _ _ ((Trace.Run.refl s).tail hstep)
    cases hnil
  · intro h sent events s' hrun
    induction hrun with
    | refl => exact ⟨rfl, rfl, rfl⟩
    | tail _ hstep ih =>
      obtain ⟨rfl, rfl, rfl⟩ := ih
      exact absurd hstep (h _ _ _)

/-- A game that has ended accepts nothing more exactly when the player on turn cannot leave
jail. -/
theorem reachable_ended_absorbing {input : CreateInitialGameStateInput} {s : GameEngineState}
    (hi : ValidInput input) (h : Reachable input s) (hended : ¬ InProgress s) :
    Absorbing s ↔ ¬ MayLeaveJail s := by
  have hv : Valid s := reachable_valid hi h
  rw [absorbing_iff]
  constructor
  · intro hrejects hmay
    obtain ⟨intent, r, haccepted⟩ := mayLeaveJail_accepted hv hmay ⟨0, ""⟩
    exact hrejects _ intent r haccepted
  · intro hnot env intent r haccepted
    rcases accepted_inProgress hv haccepted with hp | ⟨hmay, _⟩
    · exact hended hp
    · exact hnot hmay

/-- The time of the three is up with nobody in jail. -/
theorem threePlayers_absorbing : ∃ s, Reachable threePlayers s ∧ s.phase = .finished ∧
    Absorbing s := by
  obtain ⟨r, hr, htest⟩ := exists_ok_of_any (by decide +kernel :
    (playThree [.finishGameByTime (.int 3600000)]).toOption.any (fun r =>
      r.state.phase = .finished ∧ (r.state.player? r.state.currentTurnRoomPlayerId).any
        (fun pl => pl.inJail = false)) = true)
  obtain ⟨hphase, hfree⟩ := of_decide_eq_true htest
  have hreach : Reachable threePlayers r.state := playRoom_reachable hr
  refine ⟨r.state, hreach, hphase,
    (reachable_ended_absorbing threePlayers_valid hreach ?_).mpr ?_⟩
  · exact fun hp => hp.1 hphase
  · rintro ⟨pl, ho, hjail, _⟩
    rw [ho.player, Option.any_some, hjail] at hfree
    cases hfree

/-- The time of the three is up with the first one in jail, who pays the fine afterwards. -/
theorem threePlayers_finePaidAfterEnd : ∃ s r, Reachable threePlayers s ∧ s.phase = .finished ∧
    reduceGameEngineIntent ⟨0, ""⟩ s (.payJailFine ⟨1⟩) = .ok r ∧
    ((s.player? ⟨1⟩).map GameEnginePlayer.cash, (s.player? ⟨1⟩).map GameEnginePlayer.inJail) =
      (some 1300, some true) ∧
    ((r.state.player? ⟨1⟩).map GameEnginePlayer.cash,
      (r.state.player? ⟨1⟩).map GameEnginePlayer.inJail) = (some 1250, some false) := by
  obtain ⟨ended, hended, htest⟩ := exists_ok_of_any (by decide +kernel :
    (playThree [.rollAndMove ⟨1⟩ [.int 2, .int 2], .endTurn ⟨1⟩,
      .rollAndMove ⟨1⟩ [.int 3, .int 3], .endTurn ⟨1⟩, .rollAndMove ⟨1⟩ [.int 1, .int 1],
      .finishGameByTime (.int 3600000)]).toOption.any (fun ended =>
        ended.state.phase = .finished ∧
        ((ended.state.player? ⟨1⟩).map GameEnginePlayer.cash,
          (ended.state.player? ⟨1⟩).map GameEnginePlayer.inJail) = (some 1300, some true) ∧
        (reduceGameEngineIntent ⟨0, ""⟩ ended.state (.payJailFine ⟨1⟩)).toOption.any fun r =>
          ((r.state.player? ⟨1⟩).map GameEnginePlayer.cash,
            (r.state.player? ⟨1⟩).map GameEnginePlayer.inJail) = (some 1250, some false)) = true)
  obtain ⟨hphase, hbefore, htest⟩ := of_decide_eq_true htest
  obtain ⟨r, hr, hafter⟩ := exists_ok_of_any htest
  exact ⟨ended.state, r, playRoom_reachable hended, hphase, hr, hbefore, of_decide_eq_true hafter⟩

end Rules
end LivePoly
