import LivePoly.Rules.Automation
import LivePoly.Rules.BotTurn

/-!
# Rules.BotDecisions

What a bot decides can be done. In each phase the service finds out for itself what the engine will
ask for; where the leader of an auction is solvent and the creditor of a debt in the game, the
engine accepts whatever the bot decides.
-/

namespace LivePoly
namespace Rules

open Engine Service Checked

/-- A bid of the intent is an integer from the minimum up to what the bot thinks the tile is worth
and has beyond its reserve. -/
def BidsWithin (s : GameEngineState) (intent : GameEngineIntent) : Prop :=
  ∀ p amount, intent = .placeAuctionBid p amount → ∃ auction tile bot bid,
    s.auction = some auction ∧ GameBotService.getOwnableTile s auction.tileKey = some tile ∧
    s.player? p = some bot ∧ amount = .int bid ∧ getMinimumAuctionBid auction ≤ bid ∧
    bid ≤ min (GameBotService.getMaxAuctionBid s bot tile)
      (bot.cash - GameBotService.cashReserve bot)

/-- The engine accepts the intent, and a bid is within its bounds. -/
def Playable (env : Env) (s : GameEngineState) (intent : GameEngineIntent) : Prop :=
  Succeeds (reduceGameEngineIntent env s intent) ∧ BidsWithin s intent

section Bids

variable {env : Env} {s : GameEngineState} {p : RoomPlayerId} {bot : GameEnginePlayer}
  {auction : GameEngineAuction} {tile : OwnableTile}

theorem playable_of_other {intent : GameEngineIntent}
    (h : Succeeds (reduceGameEngineIntent env s intent))
    (hother : ∀ p amount, intent ≠ .placeAuctionBid p amount) : Playable env s intent :=
  ⟨h, fun p amount hbid => absurd hbid (hother p amount)⟩

theorem board_scores : ∀ tile ∈ classicGameBoard.tiles.filterMap GameTile.ownable?,
    0 ≤ (GameBotService.rentPotentialScore tile).floor := by
  decide +kernel

theorem getOwnableTile_mem {key : TileKey}
    (h : GameBotService.getOwnableTile s key = some tile) :
    tile ∈ classicGameBoard.tiles.filterMap GameTile.ownable? := by
  obtain ⟨found, hfound, hown⟩ := Option.bind_eq_some_iff.mp h
  exact List.mem_filterMap.mpr ⟨found, s.board_eq ▸ Keyed.find_mem _ hfound, hown⟩

/-- A bot bids between the minimum and what it can spare. -/
theorem getAuctionBidAmount_bounds {minimum maximum : Int}
    (hscore : 0 ≤ (GameBotService.rentPotentialScore tile).floor) (hmaximum : minimum ≤ maximum)
    (hcash : minimum ≤ bot.cash - GameBotService.cashReserve bot) :
    minimum ≤ GameBotService.getAuctionBidAmount bot tile minimum maximum ∧
      GameBotService.getAuctionBidAmount bot tile minimum maximum ≤
        min maximum (bot.cash - GameBotService.cashReserve bot) := by
  unfold GameBotService.getAuctionBidAmount
  dsimp only
  split
  · exact ⟨le_refl _, le_min hmaximum hcash⟩
  · rename_i hroom
    -- the step up from the minimum is positive, and the room is not exceeded
    split <;> omega

theorem chooseAuctionDecision_playable (hv : Valid s) (hsolvent : LeaderSolvent s)
    (hauction : s.auction = some auction)
    (hcurrent : getCurrentAuctionBidderRoomPlayerId auction = some p)
    (hbot : s.player? p = some bot) :
    ∃ intent, GameBotService.chooseAuctionDecision s bot = some intent ∧
      Playable env s intent := by
  have hid : bot.roomPlayerId = p := GameEngineState.player?_id hbot
  obtain ⟨_, hremains⟩ := currentBidder_remains hcurrent
  have hpass : Playable env s (.passAuctionBid p) :=
    playable_of_other (passAuctionBid_accepted hv hsolvent hauction hcurrent) nofun
  unfold GameBotService.chooseAuctionDecision
  rw [hauction]
  dsimp only
  rw [hid, if_neg hremains]
  cases htile : GameBotService.getOwnableTile s auction.tileKey with
  | none => exact ⟨_, rfl, hpass⟩
  | some tile =>
    dsimp only
    split
    · exact ⟨_, rfl, hpass⟩
    · rename_i hspare
      obtain ⟨hmaximum, hcash⟩ := not_or.mp hspare
      obtain ⟨hlow, hhigh⟩ := getAuctionBidAmount_bounds
        (board_scores tile (getOwnableTile_mem htile)) (not_lt.mp hmaximum) (not_lt.mp hcash)
      have hreserve := cashReserve_pos bot
      refine ⟨_, rfl, placeAuctionBid_accepted hv hauction hcurrent hbot hlow ?_, ?_⟩
      · have hspared := hhigh.trans (min_le_right _ _)
        omega
      · rintro _ _ ⟨⟩
        exact ⟨auction, tile, bot, _, hauction, htile, hbot, rfl, hlow, hhigh⟩

end Bids

/-! ## Turns -/

section Turns

variable {env : Env} {s : GameEngineState} {p : RoomPlayerId} {bot : GameEnginePlayer}

theorem choosePropertyDecision_playable (hv : Valid s) (ho : OnTurn s p bot)
    (hphase : s.phase = .awaitingPropertyDecision) :
    Playable env s (GameBotService.choosePropertyDecision s bot) := by
  have hid : bot.roomPlayerId = p := GameEngineState.player?_id ho.player
  have hdecline : Playable env s (.declinePropertyPurchase p) :=
    playable_of_other (declinePropertyPurchase_accepted hv ho hphase) nofun
  unfold GameBotService.choosePropertyDecision
  rw [hid]
  cases htile : GameBotService.getPendingOwnableTile s with
  | none => exact hdecline
  | some tile =>
    dsimp only
    split
    · exact hdecline
    · rename_i hbuy
      refine playable_of_other (buyProperty_accepted hv ho hphase fun key found hkey hfound => ?_)
        nofun
      have hsame : GameBotService.getOwnableTile s key = some tile := by
        rw [GameBotService.getPendingOwnableTile, hkey, Option.bind_some] at htile
        exact htile
      cases hfound.symm.trans hsame
      constructor
      · obtain ⟨listed, hlisted, hown⟩ := Option.bind_eq_some_iff.mp hfound
        exact board_prices (s.board_eq ▸ Keyed.find_mem _ hlisted) hown
      · by_contra hpoor
        refine hbuy ?_
        rw [GameBotService.shouldBuyTile, if_pos (not_le.mp hpoor)]
        rfl

/-- What a bot decides at the end of its turn, with no offer pending. -/
theorem chooseTurnEndDecision_playable (hv : Valid s) (ho : OnTurn s p bot)
    (htype : bot.playerType = .bot) (hphase : s.phase = .awaitingTurnEnd)
    (hoffer : s.tradeOffer = none) :
    ∃ intent, GameBotService.chooseTurnEndDecision s bot = .ok (some intent) ∧
      Playable env s intent := by
  have honBoard : OnBoard s := hv.tiles.keys
  have hid : bot.roomPlayerId = p := GameEngineState.player?_id ho.player
  obtain ⟨unmortgage, hunmortgage⟩ : Succeeds (GameBotService.findPropertyToUnmortgage s bot) :=
    findPropertyToUnmortgage_succeeds honBoard
  obtain ⟨build, hbuild⟩ : Succeeds (GameBotService.findPropertyToBuild s bot) :=
    findPropertyToBuild_succeeds honBoard
  obtain ⟨proposal, hproposal⟩ : Succeeds (GameBotService.chooseTradeProposal s bot) :=
    chooseTradeProposal_succeeds honBoard
  unfold GameBotService.chooseTurnEndDecision
  rw [hunmortgage, ok_bind, hid]
  cases unmortgage with
  | some key =>
    obtain ⟨r, _, _, hr, _⟩ := unmortgage_done env hv.tiles ho hphase hunmortgage
    exact ⟨_, rfl, playable_of_other ⟨r, hr⟩ nofun⟩
  | none =>
    dsimp only
    rw [hbuild, ok_bind]
    cases build with
    | some key =>
      obtain ⟨r, _, _, _, hr, _⟩ := build_done env hv ho hphase hbuild
      exact ⟨_, rfl, playable_of_other ⟨r, hr⟩ nofun⟩
    | none =>
      dsimp only
      rw [hproposal, ok_bind]
      cases proposal with
      | none => exact ⟨_, rfl, playable_of_other (endTurn_accepted hv ho hphase) nofun⟩
      | some intent =>
        obtain ⟨_, setKey, candidate, hcandidate, rfl⟩ := chooseTradeProposal_eq_some hproposal
        obtain ⟨tile, hkey, hmay⟩ := tradeCandidate_mayPropose hv ho htype hcandidate
        obtain ⟨r, hr, _⟩ := propose_done env hv hphase hoffer hmay
        rw [hkey] at hr
        rw [hid]
        exact ⟨_, rfl, playable_of_other ⟨r, hr⟩ nofun⟩

end Turns

/-! ## Decisions -/

section Decisions

variable {env : Env} {s : GameEngineState} {p : RoomPlayerId} {bot : GameEnginePlayer}
  {dice : DiceRoll} {intent : GameEngineIntent}

/-- What a bot relies on: the invariant of the game, its building sets, a solvent leader, a creditor
who is in the game, and that no offer waits for a bot. -/
structure BotReady (s : GameEngineState) : Prop where
  valid : Valid s
  sets : SetIntegrity s
  leader : LeaderSolvent s
  creditor : CreditorActive s
  offers : OffersToHumans s

/-- A choice is made, and what is chosen, if anything, is playable. -/
def Chosen (env : Env) (s : GameEngineState) (choice : Checked (Option GameEngineIntent)) : Prop :=
  ∃ chosen, choice = .ok chosen ∧ ∀ intent, chosen = some intent → Playable env s intent

theorem chosen_none : Chosen env s (.ok none) := by
  refine ⟨none, rfl, ?_⟩
  rintro _ ⟨⟩

theorem chosen_some (h : Playable env s intent) : Chosen env s (.ok (some intent)) := by
  refine ⟨some intent, rfl, ?_⟩
  rintro _ ⟨⟩
  exact h

theorem shouldPayJailFine_cash (h : GameBotService.shouldPayJailFine bot = true) :
    jailFineAmount ≤ bot.cash := by
  unfold GameBotService.shouldPayJailFine at h
  split at h
  · cases h
  · rename_i hcash
    exact not_lt.mp hcash

theorem chooseRoll_chosen (hv : Valid s) (ho : OnTurn s p bot) (hphase : AwaitsRoll s)
    (hdice : ShowsDice dice) : Chosen env s (GameBotService.chooseIntentForBot dice s bot) := by
  have hid : bot.roomPlayerId = p := GameEngineState.player?_id ho.player
  have hchoice : GameBotService.chooseIntentForBot dice s bot =
      if bot.inJail && GameBotService.shouldPayJailFine bot then .ok (some (.payJailFine p))
      else .ok (some (.rollAndMove p [.int dice.1, .int dice.2])) := by
    unfold GameBotService.chooseIntentForBot
    rcases hphase with h | h <;> simp only [h, hid] <;> rfl
  rw [hchoice]
  split
  · rename_i hfine
    obtain ⟨hjail, hpay⟩ := Bool.and_eq_true_iff.mp hfine
    have hpaid : Succeeds (reduceGameEngineIntent env s (.payJailFine p)) :=
      payJailFine_accepted ho hjail (shouldPayJailFine_cash hpay)
    exact chosen_some (playable_of_other hpaid nofun)
  · exact chosen_some (playable_of_other (rollAndMove_accepted hv ho hphase hdice) nofun)

theorem chooseDebtDecision_chosen (h : BotReady s) (ho : OnTurn s p bot)
    (hphase : s.phase = .awaitingDebtResolution) :
    Chosen env s (.ok (GameBotService.chooseDebtDecision s bot)) := by
  obtain ⟨debt, hdebt, hdebtor, haccepted⟩ : ∃ debt, s.debt = some debt ∧
      debt.roomPlayerId = s.currentTurnRoomPlayerId ∧
      Succeeds (reduceGameEngineIntent env s (.autoResolveDebt debt.roomPlayerId)) :=
    autoResolveDebt_accepted h.valid h.sets h.creditor hphase
  have hsame : debt.roomPlayerId = bot.roomPlayerId :=
    hdebtor.trans (ho.current.trans (GameEngineState.player?_id ho.player).symm)
  rw [hsame] at haccepted
  rw [GameBotService.chooseDebtDecision, hdebt, Option.map_some, hsame, if_pos rfl]
  exact chosen_some (playable_of_other haccepted nofun)

/-- On its turn a bot chooses what it may do. -/
theorem chooseIntentForBot_chosen (h : BotReady s) (ho : OnTurn s p bot)
    (htype : bot.playerType = .bot) (hbid : s.phase ≠ .awaitingAuctionBid)
    (hdice : ShowsDice dice) : Chosen env s (GameBotService.chooseIntentForBot dice s bot) := by
  have hv : Valid s := h.valid
  cases hphase : s.phase with
  | awaitingFirstTurn => exact chooseRoll_chosen hv ho (.inl hphase) hdice
  | awaitingRoll => exact chooseRoll_chosen hv ho (.inr hphase) hdice
  | awaitingPropertyDecision =>
    unfold GameBotService.chooseIntentForBot
    rw [hphase]
    exact chosen_some (choosePropertyDecision_playable hv ho hphase)
  | awaitingAuctionBid => exact absurd hphase hbid
  | awaitingDebtResolution =>
    unfold GameBotService.chooseIntentForBot
    rw [hphase]
    exact chooseDebtDecision_chosen h ho hphase
  | awaitingTurnEnd =>
    unfold GameBotService.chooseIntentForBot
    rw [hphase]
    dsimp only
    cases hoffer : s.tradeOffer with
    | some trade =>
      dsimp only
      rw [chooseTradeResponseDecision_none ho htype h.offers hoffer]
      exact chosen_none
    | none =>
      dsimp only
      obtain ⟨intent, hchosen, hplayable⟩ : ∃ intent,
          GameBotService.chooseTurnEndDecision s bot = .ok (some intent) ∧ Playable env s intent :=
        chooseTurnEndDecision_playable hv ho htype hphase hoffer
      rw [hchosen]
      exact chosen_some hplayable
  | finished | cancelled =>
    unfold GameBotService.chooseIntentForBot
    rw [hphase]
    exact chosen_none

/-- In an auction the bot to act is the one to bid; otherwise it is the player on turn. -/
theorem findActionBot_eq_some (hv : Valid s) (h : GameBotService.findActionBot s = some bot) :
    bot.playerType = .bot ∧
      ((s.phase = .awaitingAuctionBid ∧ ∃ auction, s.auction = some auction ∧
        getCurrentAuctionBidderRoomPlayerId auction = some bot.roomPlayerId ∧
          s.player? bot.roomPlayerId = some bot) ∨
      (s.phase ≠ .awaitingAuctionBid ∧ OnTurn s s.currentTurnRoomPlayerId bot)) := by
  unfold GameBotService.findActionBot at h
  split at h
  · cases h
  · by_cases hphase : s.phase = .awaitingAuctionBid
    · obtain ⟨auction, hauction⟩ := Option.isSome_iff_exists.mp (hv.phase.auction.mpr hphase)
      rw [if_pos hphase, hauction] at h
      obtain ⟨hfound, htype⟩ := Option.filter_eq_some_iff.mp h
      obtain ⟨q, hq, hbot⟩ := Option.bind_eq_some_iff.mp hfound
      have hid : bot.roomPlayerId = q := GameEngineState.player?_id hbot
      subst hid
      exact ⟨of_decide_eq_true htype, .inl ⟨hphase, auction, hauction, hq, hbot⟩⟩
    · rw [if_neg hphase] at h
      obtain ⟨hbot, htest⟩ := Option.filter_eq_some_iff.mp h
      obtain ⟨htype, hactive⟩ := Bool.and_eq_true_iff.mp htest
      exact ⟨of_decide_eq_true htype, .inr ⟨hphase, hbot, by simpa using hactive, rfl⟩⟩

theorem findActionBot_chosen (h : BotReady s) (hbot : GameBotService.findActionBot s = some bot)
    (hdice : ShowsDice dice) : Chosen env s (GameBotService.chooseIntentForBot dice s bot) := by
  obtain ⟨htype, ⟨hphase, auction, hauction, hcurrent, hplayer⟩ | ⟨hphase, ho⟩⟩ :=
    findActionBot_eq_some h.valid hbot
  · obtain ⟨intent, hchosen, hplayable⟩ : ∃ intent,
        GameBotService.chooseAuctionDecision s bot = some intent ∧ Playable env s intent :=
      chooseAuctionDecision_playable h.valid h.leader hauction hcurrent hplayer
    unfold GameBotService.chooseIntentForBot
    rw [hphase]
    dsimp only
    rw [hchosen]
    exact chosen_some hplayable
  · exact chooseIntentForBot_chosen h ho htype hphase hdice

/-- In every state a bot can rely on it comes to a decision, and whatever it decides is accepted;
a bid is between the minimum and what the bot can spare. -/
theorem decisions_playable (env : Env) (h : BotReady s) (hdice : ShowsDice dice) :
    ∃ decided, GameBotService.chooseDecision dice s = .ok decided ∧
      ∀ decision, decided = some decision → Playable env s decision.intent := by
  unfold GameBotService.chooseDecision
  cases hbot : GameBotService.findActionBot s with
  | none =>
    refine ⟨none, rfl, ?_⟩
    rintro _ ⟨⟩
  | some bot =>
    obtain ⟨chosen, hchosen, hplayable⟩ :
        Chosen env s (GameBotService.chooseIntentForBot dice s bot) :=
      findActionBot_chosen h hbot hdice
    dsimp only
    rw [hchosen, ok_bind]
    cases chosen with
    | none =>
      refine ⟨none, rfl, ?_⟩
      rintro _ ⟨⟩
    | some intent =>
      refine ⟨some ⟨bot.roomPlayerId, intent⟩, rfl, ?_⟩
      rintro _ ⟨⟩
      exact hplayable intent rfl

/-- The human has declined Ghana and passed, and it is for the bot to bid. -/
theorem guestAndBot_bids : ∃ env s decided, Reachable guestAndBot s ∧
    s.phase = .awaitingAuctionBid ∧
    GameBotService.chooseDecision (1, 2) s = .ok (some decided) ∧
    Playable env s decided.intent := by
  obtain ⟨r, hr, htest⟩ := exists_ok_of_any (by decide +kernel :
    (playRoom ⟨0, "room"⟩ guestAndBot
      (atStart [.rollAndMove ⟨1⟩ [.int 1, .int 2], .declinePropertyPurchase ⟨1⟩,
        .passAuctionBid ⟨1⟩])).toOption.any (fun r =>
      r.state.phase = .awaitingAuctionBid ∧ r.state.debt = none ∧
        (r.state.auction.all fun auction => auction.highestBidderRoomPlayerId = none) ∧
        (r.state.properties.all fun x => !x.hasBuilding) ∧
        (GameBotService.chooseDecision (1, 2) r.state).toOption.any Option.isSome) = true)
  obtain ⟨hphase, hdebt, hopen, hbare, hdecides⟩ := of_decide_eq_true htest
  have hreach : Reachable guestAndBot r.state := playRoom_reachable hr
  have hready : BotReady r.state := {
    valid := reachable_valid guestAndBot_valid hreach
    sets := setIntegrity_of_bare fun x hx => by simpa using List.all_eq_true.mp hbare x hx
    leader := by
      intro auction leader hauction hleader
      rw [hauction] at hopen
      cases (of_decide_eq_true hopen).symm.trans hleader
    creditor := by
      intro debt creditor hpending
      cases hdebt.symm.trans hpending
    offers := reachable_offersToHumans guestAndBot_valid hreach }
  obtain ⟨decided, hdecided, hplayable⟩ : ∃ decided,
      GameBotService.chooseDecision (1, 2) r.state = .ok decided ∧
        ∀ decision, decided = some decision → Playable ⟨0, "trade"⟩ r.state decision.intent :=
    decisions_playable ⟨0, "trade"⟩ hready ⟨by decide, by decide⟩
  obtain ⟨decided', hdecided', hsome⟩ := exists_ok_of_any hdecides
  cases hdecided.symm.trans hdecided'
  obtain ⟨decision, rfl⟩ := Option.isSome_iff_exists.mp hsome
  exact ⟨_, _, decision, hreach, hphase, hdecided, hplayable decision rfl⟩

end Decisions

/-! ## What the bot does not find out -/

section Refusals

variable {env : Env} {s : GameEngineState} {dice : DiceRoll}

/-- Phases, tiles and sets are as they should be, the leader is solvent and the creditor is in the
game. -/
structure Coherent (s : GameEngineState) : Prop where
  phase : PhaseCoherent s
  tiles : TilesRepresented s
  sets : SetIntegrity s
  leader : LeaderSolvent s
  creditor : CreditorActive s

/-- Something the bot decides is refused. -/
def Refused (env : Env) (s : GameEngineState) : Prop :=
  ∃ dice decision, ShowsDice dice ∧ GameBotService.chooseDecision dice s = .ok (some decision) ∧
    ¬ Succeeds (reduceGameEngineIntent env s decision.intent)

theorem refused_of_test (hdice : ShowsDice dice)
    (h : (GameBotService.chooseDecision dice s).toOption.any (fun decided =>
      decided.any fun decision => !(reduceGameEngineIntent env s decision.intent).isOk) = true) :
    Refused env s := by
  obtain ⟨decided, hdecided, htest⟩ := exists_ok_of_any h
  obtain ⟨decision, rfl, hrefused⟩ := (Option.any_eq_true _ _).mp htest
  refine ⟨dice, decision, hdice, hdecided, ?_⟩
  rintro ⟨r, hr⟩
  rw [hr] at hrefused
  cases hrefused

theorem coherent_of_calm (hphase : PhaseCoherent s) (htiles : TilesRepresented s)
    (hauction : s.auction = none) (hdebt : s.debt = none)
    (hbare : ∀ x ∈ s.properties, x.hasBuilding = false) : Coherent s where
  phase := hphase
  tiles := htiles
  sets := setIntegrity_of_bare hbare
  leader := leaderSolvent_of_none hauction
  creditor := by
    intro debt creditor hpending
    cases hdebt.symm.trans hpending

/-- An offer may be pending for anybody. -/
theorem Valid.asked (hv : Valid s) (hp : InProgress s) {trade : GameEngineTradeOffer}
    (hoffer : WellFormedOffer trade) : Valid { s with tradeOffer := some trade } where
  players := ⟨hv.players.ids, hv.players.player⟩
  tiles := hv.tiles.same rfl fun _ => id
  decks := hv.decks.same rfl rfl
  phase := hv.phase.frame ⟨rfl, rfl, rfl, rfl, rfl⟩ (.refl rfl) (.refl rfl)
  table := by
    refine ⟨hv.table.turn, hv.table.company, ?_⟩
    rintro _ ⟨⟩
    exact ⟨hp, hoffer⟩

/-- The human offers the bot more than it has. -/
def unaffordable : GameEngineTradeOffer := ⟨"trade", ⟨1⟩, ⟨2⟩, 5000, 0, [], [], 0⟩

theorem unaffordable_wellFormed : WellFormedOffer unaffordable where
  other := by decide
  offeredCash := by decide
  requestedCash := le_refl 0
  offered := List.nodup_nil
  requested := List.nodup_nil

/-- Nobody finds a card in the decks. -/
def withoutCards (s : GameEngineState) : GameEngineState :=
  { s with decks := ⟨⟨[], []⟩, ⟨[], []⟩⟩ }

theorem Coherent.withoutCards (h : Coherent s) (hv : Valid s) : Coherent (withoutCards s) where
  phase := ⟨h.phase.pending, h.phase.pendingTile, h.phase.auction, h.phase.auctionTile,
    h.phase.debt, h.phase.debtor, h.phase.current, h.phase.active, h.phase.human⟩
  tiles := TilesOk.represented (hv.tiles.same rfl fun _ => id)
  sets := ⟨h.sets.owned, h.sets.even⟩
  leader := h.leader
  creditor := h.creditor

/-- A bot accepts what the human cannot pay for; and from empty decks its roll draws no card. -/
theorem guestAndBot_refused :
    (∃ env s, Valid s ∧ Coherent s ∧ Refused env s) ∧
      ∃ env s, Coherent s ∧ OffersToHumans s ∧ Refused env s := by
  constructor
  · obtain ⟨r, hr, htest⟩ := exists_ok_of_any (by decide +kernel :
      (playRoom ⟨0, "room"⟩ guestAndBot
        (atStart [.rollAndMove ⟨1⟩ [.int 1, .int 2], .buyProperty ⟨1⟩, .endTurn ⟨1⟩,
          .rollAndMove ⟨2⟩ [.int 1, .int 2]])).toOption.any (fun r =>
        r.state.phase = .awaitingTurnEnd ∧ (r.state.properties.all fun x => !x.hasBuilding) ∧
          (GameBotService.chooseDecision (1, 2)
            { r.state with tradeOffer := some unaffordable }).toOption.any (fun decided =>
              decided.any fun decision => !(reduceGameEngineIntent ⟨0, "trade"⟩
                { r.state with tradeOffer := some unaffordable } decision.intent).isOk)) = true)
    obtain ⟨hphase, hbare, hrefused⟩ := of_decide_eq_true htest
    have hp : InProgress r.state := inProgress_of_phase hphase rfl
    have hv := (reachable_valid guestAndBot_valid (playRoom_reachable hr)).asked hp
      unaffordable_wellFormed
    refine ⟨_, _, hv, ?_, refused_of_test ⟨by decide, by decide⟩ hrefused⟩
    refine coherent_of_calm (hv.phaseCoherent hp) hv.tiles.represented ?_ ?_ ?_
    · exact hv.phase.auction_none (by simp [hphase])
    · exact hv.phase.debt_none (by simp [hphase])
    · exact fun x hx => by simpa using List.all_eq_true.mp hbare x hx
  · obtain ⟨r, hr, htest⟩ := exists_ok_of_any (by decide +kernel :
      (playRoom ⟨0, "room"⟩ guestAndBot
        (atStart [.rollAndMove ⟨1⟩ [.int 1, .int 2], .buyProperty ⟨1⟩,
          .endTurn ⟨1⟩])).toOption.any (fun r =>
        r.state.phase = .awaitingRoll ∧ r.state.tradeOffer = none ∧
          (r.state.properties.all fun x => !x.hasBuilding) ∧
          (GameBotService.chooseDecision (3, 4) (withoutCards r.state)).toOption.any (fun decided =>
            decided.any fun decision => !(reduceGameEngineIntent ⟨0, "trade"⟩
              (withoutCards r.state) decision.intent).isOk)) = true)
    obtain ⟨hphase, hnone, hbare, hrefused⟩ := of_decide_eq_true htest
    have hv : Valid r.state := reachable_valid guestAndBot_valid (playRoom_reachable hr)
    have hcoherent : Coherent r.state :=
      coherent_of_calm (hv.phaseCoherent (inProgress_of_phase hphase rfl)) hv.tiles.represented
        (hv.phase.auction_none (by simp [hphase])) (hv.phase.debt_none (by simp [hphase]))
        fun x hx => by simpa using List.all_eq_true.mp hbare x hx
    refine ⟨_, _, hcoherent.withoutCards hv, ?_, refused_of_test ⟨by decide, by decide⟩ hrefused⟩
    intro trade htrade
    cases hnone.symm.trans htrade

end Refusals

end Rules
end LivePoly
