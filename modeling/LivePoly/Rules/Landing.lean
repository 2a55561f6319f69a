import Mathlib.Algebra.Order.BigOperators.Group.List
import LivePoly.Lib.Trace
import LivePoly.Rules.Cards

/-!
# Rules.Landing

What can happen to a player on the tile a move led to: tax and rent are paid or become a debt, a
card is drawn, the player goes to jail. A card may move the player once more. The code of
`payTax`, `payRent`, `drawAndApplyCard` and `resolveLanding` does nothing else.
-/

namespace LivePoly
namespace Rules

open Engine Checked

/-- The player has moved and nothing is pending yet. -/
structure Arrived (s : GameEngineState) (p : RoomPlayerId) (pl : GameEnginePlayer) : Prop
    extends OnTurn s p pl where
  free : pl.inJail = false
  phase : s.phase = .awaitingTurnEnd

/-- `card` comes off the draw pile and leaves the decks as `decks`. -/
structure Draws (s : GameEngineState) (deckKey : GameCardDeckKey) (card : GameEngineCard)
    (decks : GameEngineDecks) : Prop where
  drawn : drawCard s deckKey = .ok ({ s with decks }, card.key)
  known : cardsByKey card.key = some card

/-- The events of drawing a card. -/
def drawEvents (p : RoomPlayerId) (deckKey : GameCardDeckKey) (card : GameEngineCard) :
    List GameEngineEvent :=
  [.cardDrawn p deckKey card.key, .cardApplied p deckKey card.key card.effect.type]

/-- The effects that only move money. -/
def IsMoneyEffect : GameCardEffect → Prop
  | .collectMoney _ | .payMoney _ | .collectFromEachPlayer _ | .payEachPlayer _
  | .propertyRepairs _ _ => True
  | _ => False

/-- The record of a player whom a card moved to a tile. -/
def cardMovedPlayer (board : GameBoard) (target : GameTile) (passedGo : Bool)
    (pl : GameEnginePlayer) : GameEnginePlayer :=
  { pl with
    cash := if passedGo then pl.cash + board.passGoCash else pl.cash
    position := target.index }

/-- The state after a card moved the player to a tile. -/
def cardMovedState (s : GameEngineState) (p : RoomPlayerId) (target : GameTile)
    (passedGo : Bool) : GameEngineState :=
  let moved := s.updatePlayer p (cardMovedPlayer s.board target passedGo)
  if isOwnableAndUnowned s target then
    { moved with phase := .awaitingPropertyDecision, pendingTileKey := some target.key }
  else { moved with phase := .awaitingTurnEnd, pendingTileKey := none }

/-- The events of a card that moves the player to a tile. -/
def cardMovedEvents (s : GameEngineState) (p : RoomPlayerId) (pl : GameEnginePlayer)
    (target : GameTile) (passedGo : Bool) : List GameEngineEvent :=
  [.playerMoved p pl.position target.index (s.lastDiceRoll.getD (0, 0))] ++
    (if passedGo then [.playerPassedGo p s.board.passGoCash] else []) ++
    [.playerLandedOnTile p target.key target.kind]

/-- What the player `p`, whose record is `pl`, meets on a tile. -/
inductive Landing (p : RoomPlayerId) (pl : GameEnginePlayer) (s : GameEngineState) :
    List GameEngineEvent → GameEngineState → Prop
  | taxPaid {tile : TaxTile} (htile : .tax tile ∈ s.board.tiles) (h0 : 0 ≤ tile.amount)
      (hcash : tile.amount ≤ pl.cash) :
      Landing p pl s [.taxPaid p tile.key tile.amount] (s.addCash p (-tile.amount))
  | rentPaid {key : TileKey} {property : GameEngineProperty} {owner : RoomPlayerId}
      {amount : Int} (hproperty : s.property? key = some property)
      (howner : property.ownerRoomPlayerId = some owner) (hne : owner ≠ p)
      (hlisted : ∃ ol, s.player? owner = some ol) (h0 : 0 ≤ amount) (hcash : amount ≤ pl.cash) :
      Landing p pl s [.rentPaid p owner key amount]
        ((s.addCash p (-amount)).addCash owner amount)
  | owes {debt : GameEngineDebt} (hdebtor : debt.roomPlayerId = p)
      (hcash : pl.cash < debt.amount)
      (hreason : debt.reason = .tax ∧ debt.creditorRoomPlayerId = none ∨
        debt.reason = .rent ∧ ∃ creditor, debt.creditorRoomPlayerId = some creditor ∧
          creditor ≠ p ∧ ∃ property ∈ s.properties,
            property.ownerRoomPlayerId = some creditor) :
      Landing p pl s [paymentRequired debt] (createDebtState s debt)
  | sentToJail :
      Landing p pl s [.playerSentToJail p s.board.jailPosition] (sendPlayerToJail s p).state
  | cardSettled {deckKey : GameCardDeckKey} {card : GameEngineCard} {decks : GameEngineDecks}
      (hdraw : Draws s deckKey card decks) (hmoney : IsMoneyEffect card.effect)
      (hcash : 0 ≤ pl.cash + cardShare (replicaOf s) p card.effect (seatOf pl)) :
      Landing p pl s (drawEvents p deckKey card)
        { s with decks, players := settleCard s p card.effect }
  | cardOwed {deckKey : GameCardDeckKey} {card : GameEngineCard} {decks : GameEngineDecks}
      {amount : Int} (hdraw : Draws s deckKey card decks) (hmoney : IsMoneyEffect card.effect)
      (hcash : pl.cash < amount) :
      Landing p pl s (drawEvents p deckKey card ++ [paymentRequired ⟨p, none, amount, .card⟩])
        (createDebtState { s with decks } ⟨p, none, amount, .card⟩)
  | cardKept {deckKey : GameCardDeckKey} {card : GameEngineCard} {decks : GameEngineDecks}
      (hdraw : Draws s deckKey card decks) (heffect : card.effect = .getOutOfJailFree) :
      Landing p pl s (drawEvents p deckKey card)
        ({ s with decks }.updatePlayer p fun pl =>
          { pl with
            getOutOfJailFreeCards := pl.getOutOfJailFreeCards + 1
            getOutOfJailFreeCardKeys := pl.getOutOfJailFreeCardKeys ++ [card.key] })
  | cardJailed {deckKey : GameCardDeckKey} {card : GameEngineCard} {decks : GameEngineDecks}
      (hdraw : Draws s deckKey card decks) (heffect : card.effect = .goToJail) :
      Landing p pl s
        (drawEvents p deckKey card ++ [.playerSentToJail p s.board.jailPosition])
        (sendPlayerToJail { s with decks } p).state
  | cardMoved {deckKey : GameCardDeckKey} {card : GameEngineCard} {decks : GameEngineDecks}
      {target : GameTile} {passedGo : Bool} (hdraw : Draws s deckKey card decks)
      (hmove : ¬ IsMoneyEffect card.effect) (hkeep : card.effect ≠ .getOutOfJailFree)
      (htarget : target ∈ s.board.tiles) :
      Landing p pl s (drawEvents p deckKey card ++ cardMovedEvents s p pl target passedGo)
        (cardMovedState { s with decks } p target passedGo)

/-- A landing of some player on turn. -/
def LandingStep (p : RoomPlayerId) (s : GameEngineState) (events : List GameEngineEvent)
    (s' : GameEngineState) : Prop :=
  ∃ pl, Arrived s p pl ∧ Landing p pl s events s'

/-- Landings one after the other. -/
abbrev Landings (p : RoomPlayerId) : GameEngineState → List GameEngineEvent → GameEngineState → Prop :=
  Trace.Chain (LandingStep p) Settled

/-! ## Tiles -/

section Code

variable {s : GameEngineState} {p : RoomPlayerId} {pl : GameEnginePlayer}

theorem payTax_landing (ha : Arrived s p pl) {key : TileKey} {r : GameEngineResult}
    (h : payTax s p key = .ok r) : Landing p pl s r.events r.state := by
  simp only [payTax, bind_eq_ok, pure_eq_ok] at h
  obtain ⟨tile, htile, payment, hpay, rfl⟩ := h
  have hmem : GameTile.tax tile ∈ s.board.tiles := by
    unfold getTaxTile at htile
    split at htile
    · rename_i tile' hfind
      cases htile
      exact Keyed.find_mem _ hfind
    · simp at htile
  rcases (debitPlayerOrCreateDebt_eq_ok ha.player).mp hpay
    with ⟨h0, ⟨hcash, rfl⟩ | ⟨hcash, rfl⟩⟩
  · exact .taxPaid hmem h0 hcash
  · exact .owes rfl hcash (.inl ⟨rfl, rfl⟩)

theorem payRent_landing (ha : Arrived s p pl) {key : TileKey} {dice : DiceRoll}
    {r : GameEngineResult} (h : payRent s p key dice = .ok r) :
    r = ⟨s, []⟩ ∨ Landing p pl s r.events r.state := by
  unfold payRent at h
  split at h
  · exact .inl (by cases h; rfl)
  · rename_i property hproperty
    split at h
    · exact .inl (by cases h; rfl)
    · rename_i owner howner
      split at h
      · exact .inl (by cases h; rfl)
      · rename_i hnot
        split at h
        · exact .inl (by cases h; rfl)
        · simp only [bind_eq_ok, pure_eq_ok] at h
          obtain ⟨_, _, amount, _, payment, hpay, rfl⟩ := h
          have hne : owner ≠ p := fun he => hnot (.inl he)
          rcases (transferPlayerCashOrCreateDebt_eq_ok ha.player).mp hpay with
            ⟨hlisted, ⟨h0, hcash, rfl⟩ | ⟨hcash, rfl⟩⟩
          · exact .inr (.rentPaid hproperty howner hne hlisted h0 hcash)
          · exact .inr (.owes rfl hcash (.inr ⟨rfl, owner, rfl, hne, property,
              GameEngineState.property?_mem hproperty, howner⟩))

/-! ## Cards -/

theorem drawCard_decks {deckKey : GameCardDeckKey} {s' : GameEngineState} {cardKey : CardKey}
    (h : drawCard s deckKey = .ok (s', cardKey)) : ∃ decks, s' = { s with decks } := by
  unfold drawCard at h
  dsimp only at h
  split at h
  · simp at h
  · simp only [bind_eq_ok, pure_eq_ok, Prod.mk.injEq] at h
    obtain ⟨card, _, rfl, _⟩ := h
    exact ⟨_, rfl⟩

theorem payCardCharge_cases (hpl : s.player? p = some pl) {amount : Int} {r : GameEngineResult}
    (h : payCardCharge s p amount = .ok r) :
    0 ≤ amount ∧ amount ≤ pl.cash ∧ r = ⟨s.addCash p (-amount), []⟩ ∨
      pl.cash < amount ∧ r = ⟨createDebtState s ⟨p, none, amount, .card⟩,
        [paymentRequired ⟨p, none, amount, .card⟩]⟩ := by
  simp only [payCardCharge, bind_eq_ok, pure_eq_ok] at h
  obtain ⟨payment, hpay, rfl⟩ := h
  rcases (debitPlayerOrCreateDebt_eq_ok hpl).mp hpay
    with ⟨h0, ⟨hcash, rfl⟩ | ⟨hcash, rfl⟩⟩
  · exact .inl ⟨h0, hcash, rfl⟩
  · exact .inr ⟨hcash, rfl⟩

theorem settled_alone (hpl : s.player? p = some pl) (amount : Int) (effect : GameCardEffect)
    (hshare : ∀ seat, cardShare (replicaOf s) p effect seat = toPlayer p amount seat)
    (hcash : 0 ≤ pl.cash + amount) :
    0 ≤ pl.cash + cardShare (replicaOf s) p effect (seatOf pl) ∧
      GameEngineResult.mk (s.addCash p amount) [] =
        ⟨{ s with players := settleCard s p effect }, []⟩ := by
  constructor
  · have hid : (seatOf pl).roomPlayerId = p := GameEngineState.player?_id hpl
    rw [hshare, toPlayer, if_pos hid]
    exact hcash
  · unfold GameEngineState.addCash GameEngineState.updatePlayer settleCard Keyed.modify
    congr 2
    apply List.map_congr_left
    intro x _
    rw [hshare]
    by_cases hx : x.roomPlayerId = p
    · simp [toPlayer, seatOf, hx]
    · simp [toPlayer, seatOf, hx]

/-- No card moves a negative amount. -/
def nonnegEffect : GameCardEffect → Bool
  | .collectMoney amount | .payMoney amount | .collectFromEachPlayer amount
  | .payEachPlayer amount => 0 ≤ amount
  | .propertyRepairs houseAmount hotelAmount => 0 ≤ houseAmount && 0 ≤ hotelAmount
  | _ => true

theorem cards_nonneg : ∀ card ∈ chanceCards ++ worldFundCards, nonnegEffect card.effect := by
  decide

theorem nonnegEffect_of_known {card : GameEngineCard} (h : cardsByKey card.key = some card) :
    nonnegEffect card.effect :=
  cards_nonneg card (Keyed.find_mem _ h)

/-- The tile a card leads to is on the board. -/
theorem getCardMoveTargetTile_mem {effect : GameCardEffect} {target : GameTile}
    (h : getCardMoveTargetTile s p effect = .ok (some target)) : target ∈ s.board.tiles := by
  simp only [getCardMoveTargetTile, bind_eq_ok] at h
  obtain ⟨pl, _, h⟩ := h
  split at h
  · simp only [pure_eq_ok] at h
    exact Keyed.find_mem _ h
  · simp only [bind_eq_ok, pure_eq_ok, Option.some.injEq] at h
    obtain ⟨tile, htile, rfl⟩ := h
    simp only [getTile, orThrow_eq_ok, jsIndex] at htile
    split at htile
    · exact List.mem_of_getElem? htile
    · cases htile
  · simp only [pure_eq_ok] at h
    have hmem := List.mem_of_head? h
    rw [List.mem_insertionSort] at hmem
    exact (List.mem_filter.mp hmem).1
  · simp at h

theorem isOwnableAndUnowned_of_kind {target : GameTile}
    (h : target.kind = .goToJail ∨ target.kind = .tax) : isOwnableAndUnowned s target = false := by
  have hown : isOwnableTile target = false := by
    cases target <;> simp_all [GameTile.kind, isOwnableTile, GameTile.ownable?]
  simp [isOwnableAndUnowned, hown]

theorem arrived_cardMoved (ha : Arrived s p pl) {target : GameTile} (passedGo : Bool)
    (hfree : isOwnableAndUnowned s target = false) :
    Arrived (cardMovedState s p target passedGo) p
      (cardMovedPlayer s.board target passedGo pl) := by
  have hplayer : (s.updatePlayer p (cardMovedPlayer s.board target passedGo)).player? p =
      some (cardMovedPlayer s.board target passedGo pl) := by
    rw [GameEngineState.player?_updatePlayer _ _ _ (f := cardMovedPlayer _ _ _) fun _ => rfl,
      if_pos rfl, ha.player]
    rfl
  simp only [cardMovedState, hfree]
  exact {
    player := hplayer
    active := ha.active
    current := ha.current
    free := ha.free
    phase := rfl }

/-- After a card moved the player, the tile is to be bought, or is met like any other. -/
theorem movePlayerToCardTile_cases (ha : Arrived s p pl) {effect : GameCardEffect}
    {r : GameEngineResult} (h : movePlayerToCardTile s p effect = .ok r) :
    ∃ target passedGo rest, target ∈ s.board.tiles ∧
      r.events = cardMovedEvents s p pl target passedGo ++ rest ∧
      (rest = [] ∧ r.state = cardMovedState s p target passedGo ∨
        Arrived (cardMovedState s p target passedGo) p
            (cardMovedPlayer s.board target passedGo pl) ∧
          Landing p (cardMovedPlayer s.board target passedGo pl)
            (cardMovedState s p target passedGo) rest r.state) := by
  simp only [movePlayerToCardTile, findPlayer_eq_ok.mpr ha.player, ok_bind, bind_eq_ok,
    orThrow_eq_ok] at h
  obtain ⟨_, hfound, target, rfl, credited, hcredited, h⟩ := h
  generalize hpassed : (collectsPassGo effect && target.index ≤ pl.position &&
    target.index ≠ pl.position : Bool) = passedGo at h hcredited
  have htarget : target ∈ s.board.tiles := getCardMoveTargetTile_mem hfound
  -- crediting the bonus and moving the player is one update of the record
  have hnext : ({ credited with
      phase := .awaitingTurnEnd
      pendingTileKey := none }.updatePlayer p fun candidate =>
        { candidate with position := target.index }) =
      { s.updatePlayer p (cardMovedPlayer s.board target passedGo) with
        phase := .awaitingTurnEnd
        pendingTileKey := none } := by
    cases passedGo with
    | false =>
      cases hcredited
      rfl
    | true =>
      simp only [if_true, creditPlayer_eq_ok] at hcredited
      obtain ⟨_, _, rfl⟩ := hcredited
      simp only [GameEngineState.addCash, GameEngineState.updatePlayer]
      rw [Keyed.modify_modify]
      · rfl
      · intro _; rfl
  rw [hnext] at h
  refine ⟨target, passedGo, ?_⟩
  by_cases hjail : target.kind = .goToJail
  · have hfree := isOwnableAndUnowned_of_kind (s := s) (.inl hjail)
    rw [if_pos hjail] at h
    simp only [pure_eq_ok] at h
    subst h
    refine ⟨_, htarget, rfl, .inr ⟨arrived_cardMoved ha passedGo hfree, ?_⟩⟩
    simp only [cardMovedState, hfree]
    exact .sentToJail
  · rw [if_neg hjail] at h
    by_cases htax : target.kind = .tax
    · have hfree := isOwnableAndUnowned_of_kind (s := s) (.inr htax)
      rw [if_pos htax] at h
      simp only [bind_eq_ok, pure_eq_ok] at h
      obtain ⟨taxResult, hpay, rfl⟩ := h
      have harrived := arrived_cardMoved ha passedGo hfree
      refine ⟨_, htarget, rfl, .inr ⟨harrived, ?_⟩⟩
      simp only [cardMovedState, hfree] at harrived ⊢
      exact payTax_landing harrived hpay
    · rw [if_neg htax] at h
      cases hfree : isOwnableAndUnowned s target with
      | true =>
        have hfree' : isOwnableAndUnowned { s.updatePlayer p
            (cardMovedPlayer s.board target passedGo) with
            phase := .awaitingTurnEnd, pendingTileKey := none } target = true := hfree
        rw [if_pos hfree'] at h
        simp only [pure_eq_ok] at h
        subst h
        refine ⟨[], htarget, by simp [cardMovedEvents], .inl ⟨rfl, ?_⟩⟩
        simp only [cardMovedState, hfree]
        rfl
      | false =>
        have hfree' : ¬ isOwnableAndUnowned { s.updatePlayer p
            (cardMovedPlayer s.board target passedGo) with
            phase := .awaitingTurnEnd, pendingTileKey := none } target = true := by
          intro hcontra
          exact Bool.false_ne_true (hfree.symm.trans hcontra)
        rw [if_neg hfree'] at h
        simp only [bind_eq_ok, pure_eq_ok] at h
        obtain ⟨rentResult, hpay, rfl⟩ := h
        have harrived := arrived_cardMoved ha passedGo hfree
        refine ⟨_, htarget, rfl, ?_⟩
        simp only [cardMovedState, hfree] at harrived ⊢
        rcases payRent_landing harrived hpay with rfl | hland
        · exact .inl ⟨rfl, rfl⟩
        · exact .inr ⟨harrived, hland⟩

/-! ## Chains of landings -/

theorem cardMoved_settled (deckKey : GameCardDeckKey) (card : GameEngineCard)
    (target : GameTile) (passedGo : Bool) :
    Settled (drawEvents p deckKey card ++ cardMovedEvents s p pl target passedGo) := by
  rw [cardMovedEvents, ← List.append_assoc]
  apply settled_concat
  intro _ _ _ _ h
  cases h

variable (hf : Funded s)

include hf

theorem applyMoneyCard_cases (ha : Arrived s p pl) {card : GameEngineCard}
    (hmoney : IsMoneyEffect card.effect) (hnonneg : nonnegEffect card.effect)
    {r : GameEngineResult} (h : applyCardEffect s p card = .ok r) :
    (0 ≤ pl.cash + cardShare (replicaOf s) p card.effect (seatOf pl) ∧
        r = ⟨{ s with players := settleCard s p card.effect }, []⟩) ∨
      ∃ amount, pl.cash < amount ∧ r = ⟨createDebtState s ⟨p, none, amount, .card⟩,
        [paymentRequired ⟨p, none, amount, .card⟩]⟩ := by
  have hid : pl.roomPlayerId = p := GameEngineState.player?_id ha.player
  have hpl0 : 0 ≤ pl.cash := hf.cash pl (GameEngineState.player?_mem ha.player)
  unfold applyCardEffect at h
  cases heffect : card.effect <;> rw [heffect] at h hmoney hnonneg <;>
    dsimp only at h <;> try exact hmoney.elim
  case collectMoney amount =>
    simp only [bind_eq_ok, creditPlayer_eq_ok, pure_eq_ok] at h
    obtain ⟨_, ⟨h0, _, rfl⟩, rfl⟩ := h
    exact .inl (settled_alone ha.player _ _ (fun _ => rfl) (by omega))
  case payMoney amount =>
    rcases payCardCharge_cases ha.player h with ⟨h0, hle, rfl⟩ | ⟨hlt, rfl⟩
    · exact .inl (settled_alone ha.player _ _ (fun _ => rfl) (by omega))
    · exact .inr ⟨amount, hlt, rfl⟩
  case collectFromEachPlayer amount =>
    have h0 : 0 ≤ amount := by simpa [nonnegEffect] using hnonneg
    rw [collectFromEachPlayer_eq hf.ids ha.player h0 hf.cash] at h
    cases h
    refine .inl ⟨?_, rfl⟩
    have hsum : 0 ≤ ((otherSeats (replicaOf s).seats p).map fun other =>
        min other.cash amount).sum := by
      apply List.sum_nonneg
      intro x hx
      rw [otherSeats_replicaOf, List.map_map] at hx
      obtain ⟨other, hother, rfl⟩ := List.mem_map.mp hx
      exact le_min (hf.cash other (mem_otherActivePlayers.mp hother).1) h0
    simp only [cardShare, seatOf, hid, if_true]
    omega
  case payEachPlayer amount =>
    have h0 : 0 ≤ amount := by simpa [nonnegEffect] using hnonneg
    rw [payEachPlayer_eq hf.ids ha.player h0] at h
    split at h
    · rename_i hlt
      rcases payCardCharge_cases ha.player h with ⟨_, hle, _⟩ | ⟨_, rfl⟩
      · omega
      · exact .inr ⟨_, hlt, rfl⟩
    · rename_i hle
      cases h
      refine .inl ⟨?_, rfl⟩
      simp only [cardShare, seatOf, hid, if_true, otherSeats_replicaOf, List.length_map]
      omega
  case propertyRepairs houseAmount hotelAmount =>
    unfold payPropertyRepairs at h
    dsimp only at h
    split at h
    · rename_i hzero
      cases h
      have hshare : ∀ seat, cardShare (replicaOf s) p
          (.propertyRepairs houseAmount hotelAmount) seat = toPlayer p 0 seat := by
        intro seat
        simp [cardShare, replicaOf, hzero]
      have hsettled := settled_alone ha.player 0 _ hshare (by omega)
      rw [GameEngineState.addCash_zero] at hsettled
      exact .inl hsettled
    · rcases payCardCharge_cases ha.player h with ⟨h0, hle, rfl⟩ | ⟨hlt, rfl⟩
      · exact .inl (settled_alone ha.player _ _ (fun _ => rfl) (by omega))
      · exact .inr ⟨_, hlt, rfl⟩

theorem drawAndApplyCard_landings (ha : Arrived s p pl) {deckKey : GameCardDeckKey}
    {r : GameEngineResult} (h : drawAndApplyCard s p deckKey = .ok r) :
    Landings p s r.events r.state := by
  simp only [drawAndApplyCard, bind_eq_ok, orThrow_eq_ok, pure_eq_ok] at h
  obtain ⟨⟨drawn, cardKey⟩, hdrawn, card, hcard, applied, happlied, rfl⟩ := h
  obtain ⟨decks, rfl⟩ := drawCard_decks hdrawn
  have hkey : card.key = cardKey := Keyed.find_key _ hcard
  subst hkey
  have hdraw : Draws s deckKey card decks := ⟨hdrawn, hcard⟩
  have had : Arrived { s with decks } p pl :=
    { player := ha.player, active := ha.active, current := ha.current, free := ha.free,
      phase := ha.phase }
  change Landings p s (drawEvents p deckKey card ++ applied.events) applied.state
  by_cases hmoney : IsMoneyEffect card.effect
  · rcases applyMoneyCard_cases (s := { s with decks }) ⟨hf.ids, hf.cash⟩ had hmoney
        (nonnegEffect_of_known hcard) happlied with
      ⟨hshare, rfl⟩ | ⟨amount, hlt, rfl⟩
    · exact .single ⟨pl, ha, .cardSettled hdraw hmoney hshare⟩
    · exact .single ⟨pl, ha, .cardOwed hdraw hmoney hlt⟩
  · unfold applyCardEffect at happlied
    cases heffect : card.effect <;> rw [heffect] at happlied hmoney <;>
      dsimp only at happlied <;> try exact absurd trivial hmoney
    case getOutOfJailFree =>
      cases happlied
      exact .single ⟨pl, ha, .cardKept hdraw heffect⟩
    case goToJail =>
      cases happlied
      exact .single ⟨pl, ha, .cardJailed hdraw heffect⟩
    all_goals
      rw [← heffect] at hmoney
      obtain ⟨target, passedGo, rest, htarget, hevents, hrest⟩ :=
        movePlayerToCardTile_cases had happlied
      have hmove : Landing p pl s
          (drawEvents p deckKey card ++ cardMovedEvents s p pl target passedGo)
          (cardMovedState { s with decks } p target passedGo) :=
        .cardMoved hdraw hmoney (by rw [heffect]; simp) htarget
      have hsettled : Settled
          (drawEvents p deckKey card ++ cardMovedEvents s p pl target passedGo) :=
        cardMoved_settled deckKey card target passedGo
      rw [hevents]
      rcases hrest with ⟨rfl, hstate⟩ | ⟨harrived, hland⟩
      · rw [hstate, List.append_nil]
        exact .single ⟨pl, ha, hmove⟩
      · rw [← List.append_assoc]
        exact .cons ⟨pl, ha, hmove⟩ (.single ⟨_, harrived, hland⟩) (.inr hsettled)

/-- What happens on the tile the dice led to is a chain of landings. -/
theorem resolveLanding_landings {dice : DiceRoll} {tile : GameTile} {r : GameEngineResult}
    (ha : isOwnableAndUnowned s tile = false → Arrived s p pl)
    (h : resolveLanding s p dice tile (isOwnableAndUnowned s tile) = .ok r) :
    Landings p s r.events r.state := by
  have hkind : tile.kind = .goToJail ∨ tile.kind = .chance ∨ tile.kind = .worldFund →
      isOwnableAndUnowned s tile = false := by
    intro hk
    have hown : isOwnableTile tile = false := by
      cases tile <;> simp_all [GameTile.kind, isOwnableTile, GameTile.ownable?]
    simp [isOwnableAndUnowned, hown]
  unfold resolveLanding at h
  split at h
  · rename_i hjail
    cases h
    exact .single ⟨pl, ha (hkind (.inl hjail)), .sentToJail⟩
  · split at h
    · rename_i hchance
      exact drawAndApplyCard_landings hf (ha (hkind (.inr (.inl hchance)))) h
    · split at h
      · rename_i hfund
        exact drawAndApplyCard_landings hf (ha (hkind (.inr (.inr hfund)))) h
      · split at h
        · cases h
          exact .nil s
        · rename_i hfree
          have hfree : isOwnableAndUnowned s tile = false := by simpa using hfree
          split at h
          · exact .single ⟨pl, ha hfree, payTax_landing (ha hfree) h⟩
          · rcases payRent_landing (ha hfree) h with rfl | hland
            · exact .nil s
            · exact .single ⟨pl, ha hfree, hland⟩

end Code

end Rules
end LivePoly
