import LivePoly.Rules.Frame

/-!
# Rules.Offers

Pending trade offers. An offer that is valid when it is accepted is executed, whatever the game
waits for: the phase is only asked for when a trade is proposed.
-/

namespace LivePoly
namespace Rules

open Engine Checked

/-! ## A valid offer is executed -/

section Execution

variable {s : GameEngineState} {p : RoomPlayerId} {trade : GameEngineTradeOffer}

/-- The parts of a state that selling buildings asks for. -/
structure Tradeable (s t : GameEngineState) : Prop where
  board : t.boardKey = s.boardKey
  listed : ∀ q, (t.player? q).isSome = (s.player? q).isSome
  tiles : ∀ key, (t.property? key).isSome = (s.property? key).isSome

theorem Tradeable.trans {t u : GameEngineState} (h : Tradeable s t) (h' : Tradeable t u) :
    Tradeable s u :=
  ⟨h'.board.trans h.board, fun q => (h'.listed q).trans (h.listed q),
    fun key => (h'.tiles key).trans (h.tiles key)⟩

/-- The tiles are records of the board's ownable tiles. -/
def KnownTiles (s : GameEngineState) (keys : List TileKey) : Prop :=
  ∀ key ∈ keys, (s.property? key).isSome ∧ ∃ tile, getTradeableTile s key = .ok tile

theorem soldOne_tradeable (key : TileKey) : Tradeable s (soldOne s p key) where
  board := rfl
  listed := fun q => GameEngineState.player?_addCash_isSome s p q _
  tiles := by
    intro key'
    unfold soldOne
    rw [GameEngineState.property?_updatePropertyState]
    · split
      · rw [Option.isSome_map]
        rfl
      · rfl
    · intro _; rfl

theorem liquidateTradeBuilding_succeeds (tradeId : String) {key : TileKey}
    (events : List GameEngineEvent) (hlisted : (s.player? p).isSome)
    (hkey : (s.property? key).isSome) {tile : OwnableTile}
    (htile : getTradeableTile s key = .ok tile) :
    ∃ r, liquidateTradeBuilding tradeId p ⟨s, events⟩ key = .ok r ∧ Tradeable s r.state := by
  obtain ⟨property, hproperty⟩ := Option.isSome_iff_exists.mp hkey
  obtain ⟨pl, hpl⟩ := Option.isSome_iff_exists.mp hlisted
  obtain ⟨r, hr⟩ : Succeeds (liquidateTradeBuilding tradeId p ⟨s, events⟩ key) := by
    have hfind : findPropertyState s key = .ok property := findPropertyState_eq_ok.mpr hproperty
    simp only [liquidateTradeBuilding, hfind, htile, ok_bind]
    split
    · exact succeeds_pure _
    · rename_i hpos
      have hcredit : creditPlayer s p (buildingValue tile property) =
          .ok (s.addCash p (buildingValue tile property)) :=
        creditPlayer_eq_ok.mpr ⟨by omega, ⟨pl, hpl⟩, rfl⟩
      exact succeeds_bind hcredit (succeeds_pure _)
  refine ⟨r, hr, ?_⟩
  rcases liquidateTradeBuilding_eq_ok hr with ⟨_, rfl⟩ | ⟨_, rfl⟩
  · exact ⟨rfl, fun _ => rfl, fun _ => rfl⟩
  · exact soldOne_tradeable key

theorem KnownTiles.mono {t : GameEngineState} {keys : List TileKey} (h : KnownTiles s keys)
    (hsame : Tradeable s t) : KnownTiles t keys := by
  intro key hkey
  obtain ⟨hproperty, tile, htile⟩ := h key hkey
  refine ⟨(hsame.tiles key).trans hproperty, tile, ?_⟩
  rw [getTradeableTile_eq_ok] at htile ⊢
  rwa [GameEngineState.board, hsame.board]

theorem liquidateTradeBuildings_succeeds (tradeId : String) {keys : List TileKey}
    (hlisted : (s.player? p).isSome) (hkeys : KnownTiles s keys) :
    ∃ r, liquidateTradeBuildings s tradeId p keys = .ok r ∧ Tradeable s r.state := by
  refine succeeds_foldlM (fun r : GameEngineResult => Tradeable s r.state) ?_
    ⟨rfl, fun _ => rfl, fun _ => rfl⟩
  intro r hsame key hkey
  obtain ⟨hproperty, tile, htile⟩ := hkeys.mono hsame key hkey
  obtain ⟨r', hr', hnext⟩ := liquidateTradeBuilding_succeeds _ _
    ((hsame.listed p).trans hlisted) hproperty htile
  exact ⟨r', hr', hsame.trans hnext⟩

theorem assertPropertiesOwnedBy_known {keys : List TileKey} {u : Unit}
    (h : assertPropertiesOwnedBy s keys p = .ok u) : KnownTiles s keys := by
  intro key hkey
  have hone := forM_eq_ok.mp h key hkey
  simp only [bind_eq_ok, findPropertyState_eq_ok] at hone
  obtain ⟨property, hproperty, _, _, tile, htile, _⟩ := hone
  exact ⟨by rw [hproperty]; rfl, tile, htile⟩

theorem transfer_if_succeeds {q : RoomPlayerId} {amount : Int} {pl : GameEnginePlayer}
    (hpl : s.player? p = some pl) (hcash : amount ≤ pl.cash) (hq : (s.player? q).isSome) :
    Succeeds (if 0 < amount then transferPlayerCash s p q amount else .ok s) := by
  split
  · rename_i hpos
    exact ⟨_, transferPlayerCash_eq_ok.mpr
      ⟨by omega, ⟨pl, hpl, hcash⟩, Option.isSome_iff_exists.mp hq, rfl⟩⟩
  · exact succeeds_ok s

theorem addCash_enough {q : RoomPlayerId} {amount cash : Int} (h0 : 0 ≤ amount)
    (hq : ∃ ql, s.player? q = some ql ∧ cash ≤ ql.cash) :
    ∃ ql, (s.addCash p amount).player? q = some ql ∧ cash ≤ ql.cash := by
  obtain ⟨ql, hql, hcash⟩ := hq
  rw [GameEngineState.player?_addCash, hql]
  split
  · exact ⟨_, rfl, by dsimp only; omega⟩
  · exact ⟨ql, rfl, hcash⟩

theorem validateTrade_known (h : validateTrade s trade = .ok ()) :
    KnownTiles s trade.offeredPropertyKeys ∧ KnownTiles s trade.requestedPropertyKeys := by
  simp only [validateTrade, bind_eq_ok] at h
  obtain ⟨_, _, _, _, _, _, _, _, _, _, _, _, _, hoffered, hrequested⟩ := h
  exact ⟨assertPropertiesOwnedBy_known hoffered, assertPropertiesOwnedBy_known hrequested⟩

theorem acceptTradeOffer_succeeds
    (hnd : (s.properties.map GameEngineProperty.tileKey).Nodup) (hoffer : PlainOffer trade)
    (hvalid : validateTrade s trade = .ok ()) (previous : List GameEngineEvent) :
    Succeeds (acceptTradeOffer s trade previous) := by
  obtain ⟨fromPlayer, toPlayer, hcan⟩ := validateTrade_eq_ok hvalid
  have hknown := validateTrade_known hvalid
  have hfrom : (s.player? trade.fromRoomPlayerId).isSome := by rw [hcan.fromFound]; rfl
  have hto : (s.player? trade.toRoomPlayerId).isSome := by rw [hcan.toFound]; rfl
  obtain ⟨fromSold, hfromSold, hfromSame⟩ :=
    liquidateTradeBuildings_succeeds trade.id hfrom hknown.1
  obtain ⟨toSold, htoSold, htoSame⟩ := liquidateTradeBuildings_succeeds trade.id
    ((hfromSame.listed _).trans hto) (hknown.2.mono hfromSame)
  have hsame := hfromSame.trans htoSame
  -- both parties have at least what they had
  have hcash : (∃ ql, toSold.state.player? trade.fromRoomPlayerId = some ql ∧
        trade.offeredCash ≤ ql.cash) ∧
      ∃ ql, toSold.state.player? trade.toRoomPlayerId = some ql ∧
        trade.requestedCash ≤ ql.cash := by
    have hsold := foldlM_liquidate _ hnd hoffer.offered hfromSold
    subst hsold
    rw [← soldState_keys (p := trade.fromRoomPlayerId) trade.offeredPropertyKeys] at hnd
    have hsold := foldlM_liquidate _ hnd hoffer.requested htoSold
    subst hsold
    exact ⟨addCash_enough (sales_nonneg _) (addCash_enough (sales_nonneg _)
        ⟨fromPlayer, hcan.fromFound, hcan.offeredCash⟩),
      addCash_enough (sales_nonneg _) (addCash_enough (sales_nonneg _)
        ⟨toPlayer, hcan.toFound, hcan.requestedCash⟩)⟩
  obtain ⟨⟨fl, hfl, hoffered⟩, hrequested⟩ := hcash
  obtain ⟨paid, hpaid⟩ := transfer_if_succeeds hfl hoffered ((hsame.listed _).trans hto)
  have hpaidState := transfer_if_pos hoffer.offeredCash hpaid
  have hpays : ∃ ql, paid.player? trade.toRoomPlayerId = some ql ∧
      trade.requestedCash ≤ ql.cash := by
    rw [hpaidState]
    by_cases hself : trade.toRoomPlayerId = trade.fromRoomPlayerId
    · -- what a player pays to itself comes back
      obtain ⟨ql, hql, hcash⟩ := hrequested
      rw [hself] at hql ⊢
      simp only [GameEngineState.player?_addCash, hql, if_true, Option.map_some,
        Option.some.injEq, exists_eq_left']
      omega
    · refine addCash_enough hoffer.offeredCash ?_
      rwa [GameEngineState.player?_addCash, if_neg hself]
  have hlisted : (paid.player? trade.fromRoomPlayerId).isSome := by
    rw [hpaidState, GameEngineState.player?_addCash_isSome,
      GameEngineState.player?_addCash_isSome]
    exact (hsame.listed _).trans hfrom
  obtain ⟨tl, htl, hrequested⟩ := hpays
  obtain ⟨repaid, hrepaid⟩ := transfer_if_succeeds htl hrequested hlisted
  exact succeeds_bind hvalid (succeeds_bind hfromSold (succeeds_bind htoSold
    (succeeds_bind hpaid (succeeds_bind hrepaid (succeeds_pure _)))))

end Execution

/-! ## Which intents execute a trade -/

def isTradeAccepted : GameEngineEvent → Bool
  | .tradeAccepted _ _ _ => true
  | _ => false

/-- Cash or tiles were exchanged under an offer. -/
def ExecutesTrade (events : List GameEngineEvent) : Prop := events.any isTradeAccepted = true

/-- No trade is executed. -/
def tradeless : Condition where
  trade := fun _ _ => False
  award := fun _ _ => True
  bankruptcy := fun _ _ => True

section Gate

variable {env : Env} {s s' : GameEngineState} {p : RoomPlayerId} {pl : GameEnginePlayer}
  {events : List GameEngineEvent} {r : GameEngineResult}

theorem Turn.tradeless (h : Turn p pl s events s') : ¬ ExecutesTrade events := by
  cases h with
  | moved =>
    unfold movedEvents ExecutesTrade
    split <;> split <;> simp [isTradeAccepted]
  | _ => simp [ExecutesTrade, isTradeAccepted, paymentRequired]

theorem Landing.tradeless (h : Landing p pl s events s') : ¬ ExecutesTrade events := by
  cases h with
  | cardMoved =>
    unfold cardMovedEvents ExecutesTrade
    split <;> simp [isTradeAccepted, drawEvents]
  | _ => simp [ExecutesTrade, isTradeAccepted, paymentRequired, drawEvents]

theorem Action.tradeless (h : Action tradeless p s events s') : ¬ ExecutesTrade events := by
  cases h with
  | turn h =>
    obtain ⟨pl, _, hturn⟩ := h
    exact hturn.tradeless
  | landing h =>
    obtain ⟨pl, _, hlanding⟩ := h
    exact hlanding.tradeless
  | estate h =>
    obtain ⟨pl, _, hestate⟩ := h
    cases hestate <;> simp [ExecutesTrade, isTradeAccepted]
  | bidding h => cases h <;> simp [ExecutesTrade, isTradeAccepted]
  | trade h =>
    cases h with
    | executed _ _ _ hnone => exact absurd hnone id
    | _ => simp [ExecutesTrade, isTradeAccepted, proposedEvent]
  | settlement h =>
    cases h with
    | debtPaid =>
      unfold debtPaidEvents ExecutesTrade
      split <;> simp [isTradeAccepted]
    | finished _ hevent => cases hevent <;> simp [ExecutesTrade, isTradeAccepted]
    | _ => simp [ExecutesTrade, isTradeAccepted]

theorem actions_tradeless (h : Actions Rules.tradeless p s events s') : ¬ ExecutesTrade events := by
  induction h with
  | nil => simp [ExecutesTrade]
  | cons hstep _ _ ih =>
    have hfirst := hstep.tradeless
    unfold ExecutesTrade at *
    rw [List.any_append, Bool.or_eq_true]
    exact not_or.mpr ⟨hfirst, ih⟩

/-- The offer that is pending can be executed as things are. -/
def OfferStands (s : GameEngineState) : Prop :=
  ∃ trade, s.tradeOffer = some trade ∧ validateTrade s trade = .ok ()

/-- An auction runs or a debt is to be settled. -/
def Unresolved (s : GameEngineState) : Prop := s.auction.isSome ∨ s.debt.isSome

theorem Unresolved.phase (hv : Valid s) (h : Unresolved s) : ¬ TradePhase s := by
  rcases h with h | h
  · have hphase := hv.phase.auction.mp h
    simp [TradePhase, hphase]
  · have hphase := hv.phase.debt.mp h
    simp [TradePhase, hphase]

/-- While something is unresolved, a trade is only executed by accepting the pending offer. -/
theorem executesTrade_offerStands (hv : Valid s) (hunresolved : Unresolved s)
    {intent : GameEngineIntent} (h : reduceGameEngineIntent env s intent = .ok r)
    (hexecutes : ExecutesTrade r.events) : OfferStands s := by
  by_cases hpermits : Permits tradeless env s intent
  · obtain ⟨p, hactions⟩ := accepted_actions hv hpermits h
    exact absurd hexecutes (actions_tradeless hactions)
  · cases intent with
    | acceptTrade p tradeId =>
      simp only [reduceGameEngineIntent, acceptTrade, acceptTradeOffer, bind_eq_ok] at h
      obtain ⟨trade, htrade, _, _, _, hvalid, _⟩ := h
      exact ⟨trade, (assertTradeOffer_eq_ok htrade).1, hvalid⟩
    | proposeTrade input =>
      simp only [Permits, tradeless, not_forall] at hpermits
      obtain ⟨_, _, hphase, _⟩ := hpermits
      exact absurd hphase (hunresolved.phase hv)
    | _ => exact absurd (by simp [Permits, tradeless]) hpermits

theorem acceptTradeOffer_executes (hv : Valid s) {trade : GameEngineTradeOffer}
    (hoffer : WellFormedOffer trade) (h : acceptTradeOffer s trade [] = .ok r) :
    ExecutesTrade r.events := by
  obtain ⟨_, rfl⟩ := acceptTradeOffer_eq_ok hv.tiles.keys_nodup hoffer.plain h
  simp [ExecutesTrade, isTradeAccepted]

/-- A pending offer that stands is executed when its target accepts. -/
theorem offerStands_executes (hv : Valid s) (h : OfferStands s) (env : Env) :
    ∃ intent r, reduceGameEngineIntent env s intent = .ok r ∧ ExecutesTrade r.events := by
  obtain ⟨trade, hpending, hvalid⟩ := h
  have hoffer : WellFormedOffer trade := (hv.table.offer trade hpending).2
  obtain ⟨r, hr⟩ := acceptTradeOffer_succeeds hv.tiles.keys_nodup hoffer.plain hvalid []
  refine ⟨.acceptTrade trade.toRoomPlayerId trade.id, r, ?_, acceptTradeOffer_executes hv hoffer hr⟩
  have hfound : assertTradeOffer s trade.id = .ok trade := by
    simp [assertTradeOffer, hpending, orThrow, Option.filter]
  simp only [reduceGameEngineIntent, acceptTrade, bind_eq_ok, rejectIf_eq_ok]
  exact ⟨trade, hfound, (), by simp, hr⟩

end Gate

/-- While an auction runs or a debt is to be settled, no intent executes a trade exactly when no
pending offer stands. -/
theorem reachable_unresolved_tradeless {input : CreateInitialGameStateInput}
    {s : GameEngineState} (hi : ValidInput input) (h : Reachable input s)
    (hunresolved : Unresolved s) :
    (∀ env intent r, reduceGameEngineIntent env s intent = .ok r → ¬ ExecutesTrade r.events) ↔
      ¬ OfferStands s := by
  have hv : Valid s := reachable_valid hi h
  constructor
  · intro hnever hstands
    obtain ⟨intent, r, haccepted, hexecutes⟩ := offerStands_executes hv hstands ⟨0, ""⟩
    exact hnever _ intent r haccepted hexecutes
  · intro hnot env intent r haccepted hexecutes
    exact hnot (executesTrade_offerStands hv hunresolved haccepted hexecutes)

/-- Nobody has offered a trade when the auction opens. -/
theorem threePlayers_tradeless : ∃ s, Reachable threePlayers s ∧ s.auction.isSome ∧
    ∀ env intent r, reduceGameEngineIntent env s intent = .ok r → ¬ ExecutesTrade r.events := by
  obtain ⟨r, hr, htest⟩ := exists_ok_of_any (by decide +kernel :
    (playThree [.rollAndMove ⟨1⟩ [.int 1, .int 2], .declinePropertyPurchase ⟨1⟩]).toOption.any
      (fun r => r.state.auction.isSome ∧ r.state.tradeOffer = none) = true)
  obtain ⟨hauction, hnone⟩ := of_decide_eq_true htest
  have hreach : Reachable threePlayers r.state := playRoom_reachable hr
  refine ⟨r.state, hreach, hauction,
    (reachable_unresolved_tradeless threePlayers_valid hreach (.inl hauction)).mpr ?_⟩
  rintro ⟨trade, hpending, _⟩
  rw [hnone] at hpending
  cases hpending

/-- The first player offers 100 for 1 and declines the tile; the second one accepts in the
auction. -/
theorem threePlayers_tradeInAuction : ∃ s r, Reachable threePlayers s ∧
    s.phase = .awaitingAuctionBid ∧
    reduceGameEngineIntent ⟨0, ""⟩ s (.acceptTrade ⟨2⟩ "trade") = .ok r ∧
    ExecutesTrade r.events ∧
    (s.player? ⟨2⟩).map GameEnginePlayer.cash = some 1500 ∧
    (r.state.player? ⟨2⟩).map GameEnginePlayer.cash = some 1599 := by
  obtain ⟨before, hbefore, htest⟩ := exists_ok_of_any (by decide +kernel :
    (playThree [.rollAndMove ⟨1⟩ [.int 1, .int 2],
      .proposeTrade ⟨⟨1⟩, ⟨2⟩, .int 100, .int 1, [], [], none⟩,
      .declinePropertyPurchase ⟨1⟩]).toOption.any (fun before =>
        before.state.phase = .awaitingAuctionBid ∧
        (before.state.player? ⟨2⟩).map GameEnginePlayer.cash = some 1500 ∧
        (reduceGameEngineIntent ⟨0, ""⟩ before.state (.acceptTrade ⟨2⟩ "trade")).toOption.any
          fun r => r.events.any isTradeAccepted = true ∧
            (r.state.player? ⟨2⟩).map GameEnginePlayer.cash = some 1599) = true)
  obtain ⟨hphase, hcash, htest⟩ := of_decide_eq_true htest
  obtain ⟨r, hr, htest⟩ := exists_ok_of_any htest
  obtain ⟨hexecutes, hcash'⟩ := of_decide_eq_true htest
  exact ⟨before.state, r, playRoom_reachable hbefore, hphase, hr, hexecutes, hcash, hcash'⟩

end Rules
end LivePoly
