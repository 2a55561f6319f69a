import LivePoly.Rules.Turn
import LivePoly.Rules.Bidding
import LivePoly.Rules.Trade
import LivePoly.Rules.Settlement

/-!
# Rules.Action

Everything that can happen in a game, and the connection with the code: an intent the reducer
accepts is one of a few moves (`reduceGameEngineIntent_move`), and each move is a chain of actions
of its player (`reduceGameEngineIntent_actions`). What the rest of the development proves of moves
and actions therefore holds of the reducer.
-/

namespace LivePoly
namespace Rules

open Engine Checked

/-- A condition on the trades that are executed, the players to whom a pass gives a tile, and the
players that go bankrupt. -/
structure Condition where
  trade : GameEngineState → GameEngineTradeOffer → Prop
  award : GameEngineState → RoomPlayerId → Prop
  bankruptcy : GameEngineState → RoomPlayerId → Prop

/-- No condition. -/
def unrestricted : Condition := ⟨fun _ _ => True, fun _ _ => True, fun _ _ => True⟩

/-- One action of the player `p`. -/
inductive Action (c : Condition) (p : RoomPlayerId) (s : GameEngineState)
    (events : List GameEngineEvent) (s' : GameEngineState) : Prop
  | turn (h : TurnStep p s events s')
  | landing (h : LandingStep p s events s')
  | estate (h : EstateStep p s events s')
  | bidding (h : Bidding c.award p s events s')
  | trade (h : Trade c.trade p s events s')
  | settlement (h : Settlement c.bankruptcy p s events s')

/-- Actions one after the other. -/
abbrev Actions (c : Condition) (p : RoomPlayerId) :
    GameEngineState → List GameEngineEvent → GameEngineState → Prop :=
  Trace.Chain (Action c p) Settled

/-- The player an intent is played for; nobody finishes a game. -/
def actorOf : GameEngineIntent → Option RoomPlayerId
  | .rollAndMove p _ | .buyProperty p | .declinePropertyPurchase p | .placeAuctionBid p _
  | .passAuctionBid p | .buildProperty p _ | .sellBuilding p _ | .mortgageProperty p _
  | .unmortgageProperty p _ | .acceptTrade p _ | .rejectTrade p _ | .cancelTrade p _
  | .declareBankruptcy p _ | .payDebt p | .autoResolveDebt p | .payJailFine p
  | .useGetOutOfJailCard p | .endTurn p => some p
  | .proposeTrade input => some input.roomPlayerId
  | .finishGameByTime _ | .finishGameAfterLastHumanLeft _ => none

/-- The intents that deal with tiles, bids and offers. -/
def isDealing : GameEngineIntent → Bool
  | .buyProperty _ | .declinePropertyPurchase _ | .placeAuctionBid _ _ | .passAuctionBid _
  | .buildProperty _ _ | .sellBuilding _ _ | .mortgageProperty _ _ | .unmortgageProperty _ _
  | .proposeTrade _ | .acceptTrade _ _ | .rejectTrade _ _ | .cancelTrade _ _ => true
  | _ => false

/-- The trade an intent executes, the leader of an auction it may close and the bankruptcy it leads
to meet the condition. -/
def Permits (c : Condition) (env : Env) (s : GameEngineState) : GameEngineIntent → Prop
  | .acceptTrade _ _ => ∀ trade, s.tradeOffer = some trade → c.trade s trade
  | .proposeTrade input =>
    ∀ trade marked, TradePhase s → tradeOfInput env input = .ok trade →
      markBotTradeProposal s input.roomPlayerId = .ok marked →
      (marked.player? trade.toRoomPlayerId).any (fun target => target.playerType = .bot) →
      shouldBotAcceptTrade marked trade = .ok true → c.trade marked trade
  | .passAuctionBid _ => ∀ auction leader, s.auction = some auction →
      auction.highestBidderRoomPlayerId = some leader → c.award s leader
  | .declareBankruptcy p _ => c.bankruptcy s p
  | .autoResolveDebt p =>
    ∀ raised, raiseCash p (raiseCashRounds s) ⟨s, []⟩ = .ok raised →
      canPayDebt raised.state p = .ok false → c.bankruptcy raised.state p
  | _ => True

theorem permits_unrestricted (env : Env) (s : GameEngineState) (intent : GameEngineIntent) :
    Permits unrestricted env s intent := by
  cases intent <;> simp [Permits, unrestricted]

/-- What the reducer relies on: players with distinct ids and no negative cash, one record for
each tile, and a pending offer as it was proposed. -/
structure Sound (s : GameEngineState) : Prop extends Funded s where
  keys : (s.properties.map GameEngineProperty.tileKey).Nodup
  offer : ∀ trade, s.tradeOffer = some trade → WellFormedOffer trade

/-- A settlement by the bankruptcy of `p`. -/
structure Bankruptcy (condition : GameEngineState → RoomPlayerId → Prop) (p : RoomPlayerId)
    (s : GameEngineState) (events : List GameEngineEvent) (s' : GameEngineState) : Prop where
  settlement : Settlement condition p s events s'
  declared : ∃ creditor rest, events = .playerBankrupt p creditor :: rest

/-- What an accepted intent does, told by the intent. -/
inductive Move (c : Condition) (s : GameEngineState) :
    GameEngineIntent → List GameEngineEvent → GameEngineState → Prop
  | rolled {p : RoomPlayerId} {pl : GameEnginePlayer} {numbers : List JsNumber} {dice : DiceRoll}
      {r : GameEngineResult} (ho : OnTurn s p pl) (hphase : AwaitsRoll s)
      (hroll : rollAndMove s p dice = .ok r) :
      Move c s (.rollAndMove p numbers) r.events r.state
  | finePaid {p : RoomPlayerId} {pl : GameEnginePlayer} (ho : OnTurn s p pl)
      (hjail : pl.inJail = true) (hcash : jailFineAmount ≤ pl.cash) :
      Move c s (.payJailFine p) [.jailFinePaid p jailFineAmount, .playerReleasedFromJail p]
        (s.updatePlayer p payFine)
  | cardUsed {p : RoomPlayerId} {pl : GameEnginePlayer} {decks : GameEngineDecks}
      (ho : OnTurn s p pl) (hjail : pl.inJail = true) (hcards : 0 < pl.getOutOfJailFreeCards)
      (hreturn : returnGetOutOfJailCardToDeck s pl.getOutOfJailFreeCardKeys.head? =
        .ok { s with decks }) :
      Move c s (.useGetOutOfJailCard p) [.getOutOfJailCardUsed p, .playerReleasedFromJail p]
        ({ s with decks }.updatePlayer p fun x =>
          leaveJail
            { x with
              getOutOfJailFreeCards := x.getOutOfJailFreeCards - 1
              getOutOfJailFreeCardKeys := pl.getOutOfJailFreeCardKeys.tail })
  | turnEnded {p : RoomPlayerId} {pl : GameEnginePlayer} {r : GameEngineResult}
      (ho : OnTurn s p pl) (hphase : s.phase = .awaitingTurnEnd) (hend : endTurn s p = .ok r) :
      Move c s (.endTurn p) r.events r.state
  | estate {p : RoomPlayerId} {pl : GameEnginePlayer} {intent : GameEngineIntent}
      {events : List GameEngineEvent} {s' : GameEngineState} (hactor : actorOf intent = some p)
      (hdeals : isDealing intent = true) (ho : OnTurn s p pl) (h : Estate p pl s events s') :
      Move c s intent events s'
  | bidding {p : RoomPlayerId} {intent : GameEngineIntent} {events : List GameEngineEvent}
      {s' : GameEngineState} (hactor : actorOf intent = some p)
      (hdeals : isDealing intent = true) (h : Bidding c.award p s events s') :
      Move c s intent events s'
  | trade {p : RoomPlayerId} {intent : GameEngineIntent} {events : List GameEngineEvent}
      {s' : GameEngineState} (hactor : actorOf intent = some p)
      (hdeals : isDealing intent = true) (h : Trace.Chain (Trade c.trade p) Settled s events s') :
      Move c s intent events s'
  | debtPaid {p : RoomPlayerId} {debt : GameEngineDebt} {pl : GameEnginePlayer}
      (h : PaysDebt s p debt pl) :
      Move c s (.payDebt p) (debtPaidEvents debt) (debtPaidState s debt)
  | bankrupt {p : RoomPlayerId} {creditor : Option RoomPlayerId} {events : List GameEngineEvent}
      {s' : GameEngineState} (h : Bankruptcy c.bankruptcy p s events s') :
      Move c s (.declareBankruptcy p creditor) events s'
  | resolved {p : RoomPlayerId} {debt : GameEngineDebt} {raised settled : List GameEngineEvent}
      {t s' : GameEngineState} (hdebt : pendingDebt s = some debt)
      (hdebtor : debt.roomPlayerId = p) (hraise : Trace.Chain (EstateStep p) Settled s raised t)
      (h : (∃ debt pl, PaysDebt t p debt pl ∧ settled = debtPaidEvents debt ∧
        s' = debtPaidState t debt) ∨ Bankruptcy c.bankruptcy p t settled s') :
      Move c s (.autoResolveDebt p) (raised ++ settled) s'
  | finished {intent : GameEngineIntent} {event : GameEngineEvent} (hactor : actorOf intent = none)
      (hactive : s.phase ≠ .finished ∧ s.phase ≠ .cancelled) (hevent : FinishEvent event) :
      Move c s intent [event] (finishedState s)

section Code

variable {c : Condition} {env : Env} {s : GameEngineState} {p : RoomPlayerId}
  {r : GameEngineResult}

theorem assertCanBuyProperty_eq_ok {u : Unit} (h : assertCanBuyProperty s = .ok u) :
    s.phase = .awaitingPropertyDecision := by
  simp only [assertCanBuyProperty, bind_eq_ok, rejectIf_eq_ok] at h
  obtain ⟨_, _, _, _, hphase⟩ := h
  exact Classical.not_not.mp hphase

theorem assertCanEndTurn_eq_ok {u : Unit} (h : assertCanEndTurn s = .ok u) :
    s.phase = .awaitingTurnEnd := by
  simp only [assertCanEndTurn, bind_eq_ok, rejectIf_eq_ok] at h
  obtain ⟨_, _, _, _, hphase⟩ := h
  exact Classical.not_not.mp hphase

theorem rollAndMove_move {numbers : List JsNumber}
    (h : GameEngineService.rollAndMove s p numbers = .ok r) :
    Move c s (.rollAndMove p numbers) r.events r.state := by
  simp only [GameEngineService.rollAndMove, assertCanRoll, bind_eq_ok, rejectIf_eq_ok,
    assertCurrentTurn_eq_ok] at h
  obtain ⟨_, ⟨_, _, _, _, hphase⟩, _, ⟨pl, ho⟩, dice, _, h⟩ := h
  have hphase : AwaitsRoll s := by
    by_contra hnot
    exact hphase (not_or.mp hnot)
  exact .rolled ho hphase h

theorem onOwnTurn_estate {action : Checked GameEngineResult} {intent : GameEngineIntent}
    (hactor : actorOf intent = some p) (hdeals : isDealing intent = true)
    (h : GameEngineService.onOwnTurn s p action = .ok r)
    (haction : ∀ {pl r}, OnTurn s p pl → action = .ok r → Estate p pl s r.events r.state) :
    Move c s intent r.events r.state := by
  simp only [GameEngineService.onOwnTurn, bind_eq_ok, assertCurrentTurn_eq_ok] at h
  obtain ⟨_, ⟨pl, ho⟩, h⟩ := h
  exact .estate hactor hdeals ho (haction ho h)

theorem payJailFine_move (h : GameEngineService.onOwnTurn s p (payJailFine s p) = .ok r) :
    Move c s (.payJailFine p) r.events r.state := by
  simp only [GameEngineService.onOwnTurn, bind_eq_ok, assertCurrentTurn_eq_ok, payJailFine,
    findPlayer_eq_ok, rejectIf_eq_ok, debitPlayer_eq_ok, pure_eq_ok] at h
  obtain ⟨_, ⟨pl, ho⟩, pl', hpl', _, hjail, _, ⟨_, pl'', hpl'', hcash, rfl⟩, rfl⟩ := h
  cases ho.player.symm.trans hpl'
  cases ho.player.symm.trans hpl''
  rw [releasePlayerFromJail_fine]
  exact .finePaid ho (by simpa using hjail) hcash

theorem useGetOutOfJailCard_move
    (h : GameEngineService.onOwnTurn s p (useGetOutOfJailCard s p) = .ok r) :
    Move c s (.useGetOutOfJailCard p) r.events r.state := by
  simp only [GameEngineService.onOwnTurn, bind_eq_ok, assertCurrentTurn_eq_ok,
    useGetOutOfJailCard, findPlayer_eq_ok, rejectIf_eq_ok, pure_eq_ok] at h
  obtain ⟨_, ⟨pl, ho⟩, pl', hpl', _, hjail, _, hcards, returned, hreturn, rfl⟩ := h
  cases ho.player.symm.trans hpl'
  obtain ⟨decks, rfl⟩ := returnGetOutOfJailCardToDeck_decks hreturn
  rw [releasePlayerFromJail_eq, GameEngineState.updatePlayer_updatePlayer]
  · exact .cardUsed ho (by simpa using hjail) (by omega) hreturn
  · intro _; rfl

theorem declareBankruptcy_bankruptcy {condition : GameEngineState → RoomPlayerId → Prop}
    {creditor : Option RoomPlayerId} (hcondition : condition s p)
    (h : declareBankruptcy s p creditor = .ok r) :
    Bankruptcy condition p s r.events r.state := by
  refine ⟨declareBankruptcy_settlement hcondition h, ?_⟩
  simp only [declareBankruptcy, bind_eq_ok] at h
  obtain ⟨_, _, pl, _, _, _, _, _, liquidated, _, h⟩ := h
  split at h
  · simp only [bind_eq_ok, pure_eq_ok] at h
    obtain ⟨_, _, rfl⟩ := h
    exact ⟨_, _, rfl⟩
  · split at h
    · cases h
      exact ⟨_, _, rfl⟩
    · simp only [bind_eq_ok, pure_eq_ok] at h
      obtain ⟨_, _, rfl⟩ := h
      exact ⟨_, _, rfl⟩

theorem autoResolveDebt_move
    (hc : ∀ raised, raiseCash p (raiseCashRounds s) ⟨s, []⟩ = .ok raised →
      canPayDebt raised.state p = .ok false → c.bankruptcy raised.state p)
    (h : autoResolveDebt s p = .ok r) : Move c s (.autoResolveDebt p) r.events r.state := by
  simp only [autoResolveDebt, bind_eq_ok, rejectIf_eq_ok, pure_eq_ok] at h
  obtain ⟨_, hdebtor, raised, hraise, canPay, hcanPay, result, hresult, rfl⟩ := h
  obtain ⟨debt, hdebt, hdebtor⟩ := Option.map_eq_some_iff.mp (Classical.not_not.mp hdebtor)
  obtain ⟨⟨events, hevents, hchain⟩, _⟩ := raiseCash_steps hraise
  rw [List.nil_append] at hevents
  rw [hevents]
  cases canPay with
  | true =>
    obtain ⟨debt', pl, hpays, rfl⟩ := payDebt_pays hresult
    exact .resolved hdebt hdebtor hchain (.inl ⟨debt', pl, hpays, rfl, rfl⟩)
  | false =>
    exact .resolved hdebt hdebtor hchain
      (.inr (declareBankruptcy_bankruptcy (hc raised hraise hcanPay) hresult))

/-- An accepted intent is one of the moves. -/
theorem reduceGameEngineIntent_move (hs : Sound s) {intent : GameEngineIntent}
    (hc : Permits c env s intent) (h : reduceGameEngineIntent env s intent = .ok r) :
    Move c s intent r.events r.state := by
  cases intent with
  | finishGameByTime finishedAt =>
    simp only [reduceGameEngineIntent, finishGameByTime, assertCanFinishByTime, bind_eq_ok,
      finishGame, pure_eq_ok] at h
    obtain ⟨_, ⟨_, hactive, _⟩, _, _, rfl⟩ := h
    exact .finished rfl (assertGameActive_eq_ok.mp hactive) .time
  | finishGameAfterLastHumanLeft finishedAt =>
    simp only [reduceGameEngineIntent, finishGameAfterLastHumanLeft,
      assertCanFinishAfterLastHumanLeft, bind_eq_ok, finishGame, pure_eq_ok] at h
    obtain ⟨_, ⟨_, hactive, _⟩, _, _, rfl⟩ := h
    exact .finished rfl (assertGameActive_eq_ok.mp hactive) .lastHumanLeft
  | rollAndMove p numbers => exact rollAndMove_move h
  | buyProperty p =>
    simp only [reduceGameEngineIntent, GameEngineService.buyProperty, bind_eq_ok,
      assertCurrentTurn_eq_ok] at h
    obtain ⟨_, hphase, _, ⟨pl, ho⟩, h⟩ := h
    exact .estate rfl rfl ho (buyProperty_estate ho (assertCanBuyProperty_eq_ok hphase) h)
  | declinePropertyPurchase p =>
    simp only [reduceGameEngineIntent, GameEngineService.declinePropertyPurchase, bind_eq_ok,
      assertCurrentTurn_eq_ok] at h
    obtain ⟨_, hphase, _, ⟨pl, ho⟩, h⟩ := h
    exact .bidding rfl rfl (declinePropertyPurchase_bidding ho (assertCanBuyProperty_eq_ok hphase) h)
  | placeAuctionBid p amount => exact .bidding rfl rfl (placeAuctionBid_bidding h)
  | passAuctionBid p => exact .bidding rfl rfl (passAuctionBid_bidding hc h)
  | buildProperty p key => exact onOwnTurn_estate rfl rfl h fun ho h => buildProperty_estate ho h
  | sellBuilding p key => exact onOwnTurn_estate rfl rfl h fun _ h => sellBuilding_estate h
  | mortgageProperty p key => exact onOwnTurn_estate rfl rfl h fun _ h => mortgageProperty_estate h
  | unmortgageProperty p key =>
    exact onOwnTurn_estate rfl rfl h fun ho h => unmortgageProperty_estate ho h
  | proposeTrade input => exact .trade rfl rfl (proposeTrade_trades hs.keys hc h)
  | acceptTrade p tradeId =>
    exact .trade rfl rfl (.single (acceptTrade_trade hs.keys hs.offer hc h))
  | rejectTrade p tradeId => exact .trade rfl rfl (.single (rejectTrade_trade h))
  | cancelTrade p tradeId => exact .trade rfl rfl (.single (cancelTrade_trade h))
  | declareBankruptcy p creditor => exact .bankrupt (declareBankruptcy_bankruptcy hc h)
  | payDebt p =>
    obtain ⟨debt, pl, hpays, rfl⟩ := payDebt_pays h
    exact .debtPaid hpays
  | autoResolveDebt p => exact autoResolveDebt_move hc h
  | payJailFine p => exact payJailFine_move h
  | useGetOutOfJailCard p => exact useGetOutOfJailCard_move h
  | endTurn p =>
    simp only [reduceGameEngineIntent, GameEngineService.endTurn, bind_eq_ok,
      assertCurrentTurn_eq_ok] at h
    obtain ⟨_, hphase, _, ⟨pl, ho⟩, h⟩ := h
    exact .turnEnded ho (assertCanEndTurn_eq_ok hphase) h

theorem estateSteps_append {raised settled : List GameEngineEvent} {t t' : GameEngineState}
    (h : Trace.Chain (EstateStep p) Settled s raised t)
    (hlast : Action c p t settled t') : Actions c p s (raised ++ settled) t' := by
  induction h with
  | nil => exact .single hlast
  | cons hstep _ _ ih =>
    obtain ⟨pl, ho, hestate⟩ := hstep
    rw [List.append_assoc]
    exact .cons (.estate ⟨pl, ho, hestate⟩) (ih hlast) (.inr (estate_settled hestate))

theorem Move.actions (hf : Funded s) {intent : GameEngineIntent} {events : List GameEngineEvent}
    {s' : GameEngineState} (h : Move c s intent events s')
    (hp : actorOf intent = some p ∨ actorOf intent = none) : Actions c p s events s' := by
  have hactorOf : ∀ {q}, actorOf intent = some q → q = p := by
    intro q hq
    rcases hp with hp | hp
    · exact Option.some.inj (hq.symm.trans hp)
    · cases hq.symm.trans hp
  cases h with
  | rolled ho hphase hroll =>
    obtain rfl := hactorOf rfl
    refine (rollAndMove_steps hf ho hphase hroll).1.mono fun _ _ _ hstep => ?_
    rcases hstep with ⟨_, hturn⟩ | hlanding
    · exact .turn hturn
    · exact .landing hlanding
  | finePaid ho hjail hcash =>
    obtain rfl := hactorOf rfl
    exact .single (.turn ⟨_, ho, .finePaid hjail hcash⟩)
  | cardUsed ho hjail hcards hreturn =>
    obtain rfl := hactorOf rfl
    exact .single (.turn ⟨_, ho, .cardUsed hjail hcards hreturn⟩)
  | turnEnded ho hphase hend =>
    obtain rfl := hactorOf rfl
    exact .single (.turn ⟨_, ho, endTurn_turn hphase hend⟩)
  | estate hactor _ ho h =>
    obtain rfl := hactorOf hactor
    exact .single (.estate ⟨_, ho, h⟩)
  | bidding hactor _ h =>
    obtain rfl := hactorOf hactor
    exact .single (.bidding h)
  | trade hactor _ h =>
    obtain rfl := hactorOf hactor
    exact h.mono fun _ _ _ hstep => .trade hstep
  | debtPaid h =>
    obtain rfl := hactorOf rfl
    exact .single (.settlement h.settlement)
  | bankrupt h =>
    obtain rfl := hactorOf rfl
    exact .single (.settlement h.settlement)
  | resolved _ _ hraise h =>
    obtain rfl := hactorOf rfl
    rcases h with ⟨debt, pl, hpays, rfl, rfl⟩ | h
    · exact estateSteps_append hraise (.settlement hpays.settlement)
    · exact estateSteps_append hraise (.settlement h.settlement)
  | finished _ hactive hevent => exact .single (.settlement (.finished hactive hevent))

/-- An accepted intent is a chain of actions of its player. -/
theorem reduceGameEngineIntent_actions (hs : Sound s) {intent : GameEngineIntent}
    (hc : Permits c env s intent) (h : reduceGameEngineIntent env s intent = .ok r)
    (hp : actorOf intent = some p ∨ actorOf intent = none) : Actions c p s r.events r.state :=
  (reduceGameEngineIntent_move hs hc h).actions hs.toFunded hp

end Code

end Rules
end LivePoly
