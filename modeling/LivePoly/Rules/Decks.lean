import LivePoly.Rules.Players

/-!
# Rules.Decks

No card is lost or made. A draw takes a card off the piles for a player who keeps it and puts any
other under the discard pile; a card that is used, or held by a bankrupt player, goes back.
-/

namespace LivePoly
namespace Rules

open Engine Checked

/-! ## Piles -/

/-- The cards in the two piles. -/
def pile (deck : GameEngineDeckState) : Multiset CardKey := deck.drawPile + deck.discardPile

/-- The cards in the piles of a deck. -/
def piles (decks : GameEngineDecks) : GameCardDeckKey → Multiset CardKey
  | .chance => pile decks.chance
  | .worldFund => pile decks.worldFund

theorem piles_eq (s : GameEngineState) (deckKey : GameCardDeckKey) :
    piles s.decks deckKey = pile (getDeck s deckKey) := by
  cases deckKey <;> rfl

theorem piles_setDeck (s : GameEngineState) (deckKey deckKey' : GameCardDeckKey)
    (deck : GameEngineDeckState) :
    piles (setDeck s deckKey deck).decks deckKey' =
      if deckKey' = deckKey then pile deck else piles s.decks deckKey' := by
  cases deckKey <;> cases deckKey' <;> rfl

/-- The cards of one deck among `cards`. -/
def ofDeck (deckKey : GameCardDeckKey) (cards : Multiset CardKey) : Multiset CardKey :=
  cards.filter fun cardKey => deckOf cardKey = deckKey

/-- The cards a player holds. -/
def handOf (pl : GameEnginePlayer) : Multiset CardKey := pl.getOutOfJailFreeCardKeys

theorem cardsOf_eq (s : GameEngineState) (deckKey : GameCardDeckKey) :
    cardsOf s deckKey = piles s.decks deckKey + ofDeck deckKey (heldCards s) := by
  cases deckKey <;> rfl

theorem deckOf_of_mem {deckKey : GameCardDeckKey} {cardKey : CardKey}
    (h : cardKey ∈ (deckCards deckKey).map GameEngineCard.key) : deckOf cardKey = deckKey := by
  cases deckKey <;> revert h <;> cases cardKey <;> decide

theorem getDeckKeyForCard_eq (cardKey : CardKey) :
    getDeckKeyForCard cardKey = some (deckOf cardKey) := by
  cases cardKey <;> rfl

/-- The drawn card leaves the piles when the player keeps it, and stays in them otherwise. -/
theorem drawCard_piles {s s' : GameEngineState} {deckKey : GameCardDeckKey}
    {card : GameEngineCard} (hcard : cardsByKey card.key = some card)
    (h : drawCard s deckKey = .ok (s', card.key)) (deckKey' : GameCardDeckKey) :
    piles s.decks deckKey' = piles s'.decks deckKey' +
      if deckKey' = deckKey ∧ card.effect.type = .getOutOfJailFree then {card.key} else 0 := by
  unfold drawCard at h
  dsimp only at h
  split at h
  · simp at h
  · rename_i first rest hdraw
    simp only [bind_eq_ok, orThrow_eq_ok, pure_eq_ok, Prod.mk.injEq] at h
    obtain ⟨found, hfound, rfl, rfl⟩ := h
    cases hcard.symm.trans hfound
    rw [piles_setDeck]
    by_cases hk : deckKey' = deckKey
    · subst hk
      -- turning an empty draw pile over does not change the cards
      have hturned : piles s.decks deckKey' = (card.key ::ₘ (rest : Multiset CardKey)) +
          ((if 0 < (getDeck s deckKey').drawPile.length then (getDeck s deckKey').discardPile
            else [] : List CardKey) : Multiset CardKey) := by
        rw [piles_eq, pile]
        by_cases hlen : 0 < (getDeck s deckKey').drawPile.length
        · rw [if_pos hlen] at hdraw ⊢
          rw [hdraw]
          rfl
        · have hnil : (getDeck s deckKey').drawPile = [] :=
            List.eq_nil_of_length_eq_zero (by omega)
          rw [if_neg hlen] at hdraw ⊢
          rw [hdraw, hnil]
          simp
      rw [hturned, if_pos rfl, pile]
      generalize (if 0 < (getDeck s deckKey').drawPile.length then (getDeck s deckKey').discardPile
        else [] : List CardKey) = discard
      by_cases htype : card.effect.type = .getOutOfJailFree
      · rw [if_pos htype, if_pos ⟨rfl, htype⟩, ← Multiset.singleton_add]
        dsimp only
        ac_rfl
      · rw [if_neg htype, if_neg (fun hboth => htype hboth.2), ← Multiset.coe_add,
          Multiset.coe_singleton, ← Multiset.singleton_add, add_zero]
        dsimp only
        ac_rfl
    · rw [if_neg hk, if_neg (fun hboth => hk hboth.1), add_zero]

theorem returnCard_piles {s s' : GameEngineState} {cardKey : CardKey}
    (h : returnGetOutOfJailCardToDeck s (some cardKey) = .ok s') (deckKey : GameCardDeckKey) :
    piles s'.decks deckKey = piles s.decks deckKey + ofDeck deckKey {cardKey} := by
  simp only [returnGetOutOfJailCardToDeck, bind_eq_ok, orThrow_eq_ok, pure_eq_ok,
    Option.getD_some, getDeckKeyForCard_eq, Option.some.injEq] at h
  obtain ⟨_, rfl, rfl⟩ := h
  rw [piles_setDeck, ofDeck, Multiset.filter_singleton]
  by_cases hk : deckKey = deckOf cardKey
  · rw [if_pos hk, if_pos hk.symm, piles_eq, hk, pile, pile, ← Multiset.coe_add,
      Multiset.coe_singleton, add_assoc]
  · rw [if_neg hk, if_neg (Ne.symm hk)]
    exact (add_zero _).symm

theorem foldlM_return_piles {keys : List CardKey} {s s' : GameEngineState}
    (h : keys.foldlM (fun currentState cardKey =>
      returnGetOutOfJailCardToDeck currentState (some cardKey)) s = .ok s')
    (deckKey : GameCardDeckKey) :
    piles s'.decks deckKey = piles s.decks deckKey + ofDeck deckKey keys := by
  induction keys generalizing s with
  | nil =>
    cases h
    simp [ofDeck]
  | cons key keys ih =>
    rw [List.foldlM_cons] at h
    simp only [bind_eq_ok] at h
    obtain ⟨first, hfirst, hrest⟩ := h
    rw [ih hrest, returnCard_piles hfirst, add_assoc]
    congr 1
    rw [ofDeck, ofDeck, ofDeck, ← Multiset.filter_add, Multiset.singleton_add, Multiset.cons_coe]

/-! ## Hands -/

section Hands

variable {s s' : GameEngineState} {p : RoomPlayerId} {pl : GameEnginePlayer}

theorem heldCards_same (h : s'.players.map handOf = s.players.map handOf) :
    heldCards s' = heldCards s := by
  unfold heldCards
  exact congrArg List.sum h

theorem heldCards_update (hv : Valid s) (hpl : s.player? p = some pl)
    {f : GameEnginePlayer → GameEnginePlayer}
    (hs : s'.players = Keyed.modify GameEnginePlayer.roomPlayerId s.players p f) :
    heldCards s' + handOf pl = heldCards s + handOf (f pl) := by
  unfold heldCards
  rw [hs]
  exact Keyed.sum_map_modify GameEnginePlayer.roomPlayerId hv.players.ids hpl f handOf

theorem DecksOk.same (h : DecksOk s) (hdecks : s'.decks = s.decks)
    (hhands : s'.players.map handOf = s.players.map handOf) : DecksOk s' := by
  intro deckKey
  rw [cardsOf_eq, hdecks, heldCards_same hhands, ← cardsOf_eq]
  exact h deckKey

/-- A card is drawn that nobody keeps. -/
theorem DecksOk.drawn (h : DecksOk s) {deckKey : GameCardDeckKey} {card : GameEngineCard}
    (hdraw : Draws s deckKey card s'.decks) (hkeep : card.effect ≠ .getOutOfJailFree)
    (hhands : s'.players.map handOf = s.players.map handOf) : DecksOk s' := by
  intro deckKey'
  have htype : card.effect.type ≠ .getOutOfJailFree := by
    cases heffect : card.effect
    case getOutOfJailFree => exact absurd heffect hkeep
    all_goals exact fun hcontra => by cases hcontra
  have hpiles := drawCard_piles hdraw.known hdraw.drawn deckKey'
  rw [if_neg (fun hboth => htype hboth.2), add_zero] at hpiles
  rw [cardsOf_eq, heldCards_same hhands, ← hpiles, ← cardsOf_eq]
  exact h deckKey'

theorem Draws.deckOf_eq (h : DecksOk s) {deckKey : GameCardDeckKey} {card : GameEngineCard}
    {decks : GameEngineDecks} (hdraw : Draws s deckKey card decks)
    (hkeep : card.effect.type = .getOutOfJailFree) : deckOf card.key = deckKey := by
  apply deckOf_of_mem
  have hpiles := drawCard_piles hdraw.known hdraw.drawn deckKey
  rw [if_pos ⟨rfl, hkeep⟩] at hpiles
  have hmem : card.key ∈ cardsOf s deckKey := by
    rw [cardsOf_eq, hpiles]
    simp
  rw [h deckKey] at hmem
  exact hmem

theorem DecksOk.kept (hv : Valid s) {deckKey : GameCardDeckKey} {card : GameEngineCard}
    (hdraw : Draws s deckKey card s'.decks) (hkeep : card.effect.type = .getOutOfJailFree)
    (hpl : s.player? p = some pl)
    {f : GameEnginePlayer → GameEnginePlayer}
    (hs : s'.players = Keyed.modify GameEnginePlayer.roomPlayerId s.players p f)
    (hf : handOf (f pl) = handOf pl + {card.key}) : DecksOk s' := by
  intro deckKey'
  have hpiles := drawCard_piles hdraw.known hdraw.drawn deckKey'
  have hheld : heldCards s' = heldCards s + {card.key} := by
    have hupdate := heldCards_update hv hpl hs
    rw [hf, add_comm (handOf pl), ← add_assoc] at hupdate
    exact add_right_cancel hupdate
  have hdeck := hdraw.deckOf_eq hv.decks hkeep
  have hcard : ofDeck deckKey' {card.key} =
      if deckKey' = deckKey ∧ card.effect.type = .getOutOfJailFree then {card.key} else 0 := by
    simp only [ofDeck, Multiset.filter_singleton, hdeck, hkeep, and_true, eq_comm]
    rfl
  rw [← hv.decks deckKey', cardsOf_eq, cardsOf_eq, hpiles, hheld, ← hcard, ofDeck, ofDeck, ofDeck,
    Multiset.filter_add]
  ac_rfl

theorem DecksOk.returned (hv : Valid s) {cards : Multiset CardKey}
    (hpiles : ∀ deckKey, piles s'.decks deckKey = piles s.decks deckKey + ofDeck deckKey cards)
    (hpl : s.player? p = some pl) {f : GameEnginePlayer → GameEnginePlayer}
    (hs : s'.players = Keyed.modify GameEnginePlayer.roomPlayerId s.players p f)
    (hf : handOf pl = handOf (f pl) + cards) : DecksOk s' := by
  intro deckKey
  have hheld : heldCards s = heldCards s' + cards := by
    have hupdate := heldCards_update hv hpl hs
    rw [hf, add_comm (handOf (f pl)), ← add_assoc] at hupdate
    exact (add_right_cancel hupdate).symm
  rw [← hv.decks deckKey, cardsOf_eq, cardsOf_eq, hpiles, hheld, ofDeck, ofDeck, ofDeck,
    Multiset.filter_add]
  ac_rfl

end Hands

/-! ## The actions -/

section Actions

variable {c : Condition} {s s' : GameEngineState} {p : RoomPlayerId} {pl : GameEnginePlayer}
  {events : List GameEngineEvent}

theorem modify_hands {q : RoomPlayerId} {f : GameEnginePlayer → GameEnginePlayer}
    (hs : s'.players = Keyed.modify GameEnginePlayer.roomPlayerId s.players q f)
    (hf : ∀ x, handOf (f x) = handOf x) :
    s'.players.map handOf = s.players.map handOf := by
  rw [hs, Keyed.map_modify _ hf]

theorem Turn.decksOk (hv : Valid s) (ho : OnTurn s p pl) (h : Turn p pl s events s') :
    DecksOk s' := by
  have hok := hv.playerOk ho.player
  cases h with
  | moved =>
    rename_i dice suppressDoubles tile _ _ _
    refine hv.decks.same ?_ (modify_hands movedState_players fun _ => rfl)
    obtain ⟨count, again, hdoubles⟩ := doublesState_eq s dice suppressDoubles
    unfold movedState
    rw [hdoubles]
    rfl
  | cardUsed hjail hcards hreturn =>
    cases hkeys : pl.getOutOfJailFreeCardKeys with
    | nil =>
      rw [hok.cards, hkeys] at hcards
      cases hcards
    | cons key keys =>
      rw [hkeys] at hreturn
      have hpiles := returnCard_piles hreturn
      refine .returned hv hpiles ho.player rfl ?_
      simp only [handOf, leaveJail, hkeys, List.tail_cons]
      rw [add_comm, Multiset.singleton_add, Multiset.cons_coe]
  | playsAgain | passesTurn => exact hv.decks.same rfl rfl
  | _ => exact hv.decks.same rfl (modify_hands rfl fun _ => rfl)

theorem Landing.decksOk (hv : Valid s) (ho : OnTurn s p pl) (h : Landing p pl s events s') :
    DecksOk s' := by
  cases h with
  | taxPaid => exact hv.decks.same rfl (modify_hands rfl fun _ => rfl)
  | rentPaid =>
    refine hv.decks.same rfl ?_
    simp only [GameEngineState.addCash_eq, List.map_map]
    rfl
  | owes => exact hv.decks.same rfl rfl
  | sentToJail => exact hv.decks.same rfl (modify_hands rfl fun _ => rfl)
  | cardSettled hdraw hmoney =>
    refine hv.decks.drawn hdraw ?_ ?_
    · intro hkeep
      rw [hkeep] at hmoney
      exact hmoney
    · simp only [settleCard, List.map_map]
      rfl
  | cardOwed hdraw hmoney =>
    refine hv.decks.drawn hdraw ?_ rfl
    intro hkeep
    rw [hkeep] at hmoney
    exact hmoney
  | cardKept hdraw heffect =>
    refine .kept hv hdraw ?_ ho.player rfl ?_
    · rw [heffect]
      rfl
    · simp [handOf, ← Multiset.coe_add]
  | cardJailed hdraw heffect =>
    refine hv.decks.drawn hdraw ?_ (modify_hands rfl fun _ => rfl)
    rw [heffect]
    exact fun hcontra => by cases hcontra
  | @cardMoved deckKey card decks target passedGo hdraw hmove hkeep htarget =>
    have hmoved : (cardMovedState { s with decks } p target passedGo).decks = decks ∧
        (cardMovedState { s with decks } p target passedGo).players =
          Keyed.modify GameEnginePlayer.roomPlayerId s.players p
            (cardMovedPlayer s.board target passedGo) := by
      unfold cardMovedState
      dsimp only
      split <;> exact ⟨rfl, rfl⟩
    refine hv.decks.drawn (hmoved.1.symm ▸ hdraw) hkeep (modify_hands hmoved.2 fun _ => rfl)

theorem Estate.decksOk (hv : Valid s) (h : Estate p pl s events s') : DecksOk s' := by
  cases h <;> exact hv.decks.same rfl (modify_hands rfl fun _ => rfl)

theorem Bidding.decksOk (hv : Valid s) {condition : GameEngineState → RoomPlayerId → Prop}
    (h : Bidding condition p s events s') : DecksOk s' := by
  cases h with
  | declined | bid | passed | passedUnsold => exact hv.decks.same rfl rfl
  | bidWon | passedWon => exact hv.decks.same rfl (modify_hands rfl fun _ => rfl)

theorem Trade.decksOk (hv : Valid s) {condition : GameEngineState → GameEngineTradeOffer → Prop}
    (h : Trade condition p s events s') : DecksOk s' := by
  cases h with
  | marked => exact hv.decks.same rfl (modify_hands rfl fun _ => rfl)
  | offered | refused | rejected | cancelled => exact hv.decks.same rfl rfl
  | executed =>
    refine hv.decks.same rfl ?_
    simp only [exchanged, GameEngineState.addCash_eq, List.map_map]
    rfl

theorem heldCardKeys_eq (hok : PlayerOk pl) : heldCardKeys pl = pl.getOutOfJailFreeCardKeys := by
  unfold heldCardKeys
  split
  · rfl
  · rename_i hempty
    have hlength : pl.getOutOfJailFreeCardKeys.length = 0 := Classical.not_not.mp hempty
    rw [hok.cards, hlength, List.eq_nil_of_length_eq_zero hlength]
    rfl

theorem Bankrupts.decksOk (hv : Valid s) {creditor : Option RoomPlayerId}
    {decks : GameEngineDecks} (h : Bankrupts s p pl creditor decks s') : DecksOk s' := by
  have hreturned := h.returned
  rw [heldCardKeys_eq (hv.playerOk h.found)] at hreturned
  have hpiles : ∀ deckKey, piles s'.decks deckKey =
      piles s.decks deckKey + ofDeck deckKey pl.getOutOfJailFreeCardKeys := fun deckKey => by
    rw [h.decks']
    exact foldlM_return_piles hreturned deckKey
  refine .returned hv hpiles h.found h.players' ?_
  simp [handOf, GameEnginePlayer.liquidated]

theorem debtPaidState_decks {debt : GameEngineDebt} : (debtPaidState s debt).decks = s.decks := by
  unfold debtPaidState
  cases debt.creditorRoomPlayerId with
  | none => dsimp only [Option.elim_none]; split <;> rfl
  | some creditor => dsimp only [Option.elim_some]; split <;> rfl

/-- Actions keep the cards together. -/
theorem Action.decksOk (hv : Valid s) (h : Action c p s events s') : DecksOk s' := by
  cases h with
  | turn h =>
    obtain ⟨pl, ho, hturn⟩ := h
    exact hturn.decksOk hv ho
  | landing h =>
    obtain ⟨pl, ha, hlanding⟩ := h
    exact hlanding.decksOk hv ha.toOnTurn
  | estate h =>
    obtain ⟨pl, _, hestate⟩ := h
    exact hestate.decksOk hv
  | bidding h => exact h.decksOk hv
  | trade h => exact h.decksOk hv
  | settlement h =>
    cases h with
    | debtPaid _ hdebt =>
      refine hv.decks.same debtPaidState_decks ?_
      rw [debtPaidState_players fun c hc => ((hv.phase.debtOk _ hdebt).creditor c hc).1,
        List.map_map]
      apply List.map_congr_left
      intro x _
      simp only [Function.comp_apply]
      split
      · split <;> rfl
      · split <;> rfl
    | finished => exact hv.decks.same rfl rfl
    | lastBankruptcy hbankrupt | bankruptcy hbankrupt | ownBankruptcy hbankrupt =>
      exact Bankrupts.decksOk hv ⟨hbankrupt, rfl, rfl, rfl⟩

end Actions

end Rules
end LivePoly
