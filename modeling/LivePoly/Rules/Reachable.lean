import LivePoly.Rules.Decks
import LivePoly.Rules.Phases

/-!
# Rules.Reachable

The invariant holds when a game starts and is kept by every intent the reducer accepts, so it
holds in every state a game reaches.
-/

namespace LivePoly
namespace Rules

open Engine Checked

/-! ## Who plays -/

section Table

variable {c : Condition} {s s' : GameEngineState} {p : RoomPlayerId} {pl : GameEnginePlayer}
  {events : List GameEngineEvent}

theorem TableOk.next (hv : Valid s) (hsame : SamePlayers s s')
    (hcurrent : s'.currentTurnRoomPlayerId = s.currentTurnRoomPlayerId)
    (hprogress : InProgress s' → InProgress s)
    (hoffer : ∀ trade, s'.tradeOffer = some trade → InProgress s' ∧ WellFormedOffer trade) :
    TableOk s' where
  turn := by
    intro h
    rw [hcurrent]
    exact hsame.active hv _ (hv.table.turn (hprogress h))
  company := fun h hends => hv.table.company (hprogress h) (hsame.endsGame.mp hends)
  offer := hoffer

theorem TableOk.samePhase (hv : Valid s) (hsame : SamePlayers s s')
    (hcurrent : s'.currentTurnRoomPlayerId = s.currentTurnRoomPlayerId)
    (hphase : s'.phase = s.phase)
    (hoffer : s'.tradeOffer = s.tradeOffer ∨ s'.tradeOffer = none) : TableOk s' := by
  have hprogress : InProgress s' ↔ InProgress s := by
    unfold InProgress
    rw [hphase]
  refine .next hv hsame hcurrent hprogress.mp fun trade htrade => ?_
  rcases hoffer with h | h
  · rw [h] at htrade
    obtain ⟨hp, hwf⟩ := hv.table.offer trade htrade
    exact ⟨hprogress.mpr hp, hwf⟩
  · rw [h] at htrade
    cases htrade

theorem TableOk.goesOn (hv : Valid s) (hsame : SamePlayers s s')
    (hcurrent : s'.currentTurnRoomPlayerId = s.currentTurnRoomPlayerId) (hbefore : InProgress s)
    (hafter : InProgress s') (hoffer : s'.tradeOffer = s.tradeOffer) : TableOk s' := by
  refine .next hv hsame hcurrent (fun _ => hbefore) fun trade htrade => ?_
  rw [hoffer] at htrade
  exact ⟨hafter, (hv.table.offer trade htrade).2⟩

/-- The phases of a game that goes on. -/
def isActivePhase : GamePhase → Bool
  | .finished | .cancelled => false
  | _ => true

theorem inProgress_iff : InProgress s ↔ isActivePhase s.phase = true := by
  unfold InProgress
  cases s.phase <;> simp [isActivePhase]

theorem inProgress_of_phase {phase : GamePhase} (h : s.phase = phase)
    (hphase : isActivePhase phase = true) : InProgress s := by
  rw [inProgress_iff, h]
  exact hphase

theorem AwaitsRoll.inProgress (h : AwaitsRoll s) : InProgress s := by
  rcases h with h | h <;> exact inProgress_of_phase h rfl

theorem findNextActivePlayer_active (hv : Valid s) {next : GameEnginePlayer}
    (h : findNextActivePlayer s = .ok next) : IsActive s next.roomPlayerId := by
  simp only [findNextActivePlayer, bind_eq_ok, orThrow_eq_ok] at h
  obtain ⟨_, _, _, _, hnext⟩ := h
  obtain ⟨hs, hactive⟩ := mem_getActivePlayers.mp (List.mem_of_getElem? hnext)
  exact ⟨next, hv.players.find hs, hactive⟩

theorem Turn.tableOk (hv : Valid s) (ho : OnTurn s p pl) (h : Turn p pl s events s') :
    TableOk s' := by
  have hsame := (h.players hv ho).same
  cases h with
  | @moved dice suppressDoubles tile hphase =>
    obtain ⟨hphase', _, _, _, hoffer, hcurrent⟩ :=
      @movedState_control s p dice suppressDoubles tile
    refine .goesOn hv hsame hcurrent hphase.inProgress ?_ hoffer
    rw [inProgress_iff, hphase']
    split <;> rfl
  | thirdDoubles hphase | stayed hphase | fineOwed hphase =>
    exact .goesOn hv hsame rfl hphase.inProgress (inProgress_iff.mpr rfl) rfl
  | escaped | forcedFine | finePaid | cardUsed => exact .samePhase hv hsame rfl rfl (.inl rfl)
  | playsAgain hphase =>
    refine .next hv hsame rfl (fun _ => inProgress_of_phase hphase rfl) ?_
    intro trade htrade
    cases htrade
  | passesTurn hphase _ hnext =>
    have hprogress : InProgress s := inProgress_of_phase hphase rfl
    exact {
      turn := fun _ => hsame.active hv _ (findNextActivePlayer_active hv hnext)
      company := fun _ hends => hv.table.company hprogress (hsame.endsGame.mp hends)
      offer := fun trade htrade => by cases htrade }

theorem Landing.tableOk (hv : Valid s) (ha : Arrived s p pl) (h : Landing p pl s events s') :
    TableOk s' := by
  have hsame := (h.players hv ha.toOnTurn).same
  have hprogress : InProgress s := inProgress_of_phase ha.phase rfl
  cases h with
  | taxPaid | rentPaid | cardSettled | cardKept => exact .samePhase hv hsame rfl rfl (.inl rfl)
  | owes | cardOwed | sentToJail | cardJailed =>
    exact .goesOn hv hsame rfl hprogress (inProgress_iff.mpr rfl) rfl
  | @cardMoved deckKey card decks target passedGo =>
    have hmoved : ∀ moved : GameEngineState,
        moved = cardMovedState { s with decks } p target passedGo →
        moved.currentTurnRoomPlayerId = s.currentTurnRoomPlayerId ∧ InProgress moved ∧
          moved.tradeOffer = s.tradeOffer := by
      rintro moved rfl
      unfold cardMovedState
      dsimp only
      split
      · exact ⟨rfl, inProgress_iff.mpr rfl, rfl⟩
      · exact ⟨rfl, inProgress_iff.mpr rfl, rfl⟩
    obtain ⟨hcurrent, hafter, hoffer⟩ := hmoved _ rfl
    exact .goesOn hv hsame hcurrent hprogress hafter hoffer

theorem Estate.tableOk (hv : Valid s) (ho : OnTurn s p pl) (h : Estate p pl s events s') :
    TableOk s' := by
  have hsame := (h.players hv ho).same
  cases h with
  | bought hphase =>
    exact .goesOn hv hsame rfl (inProgress_of_phase hphase rfl)
      (inProgress_iff.mpr rfl) rfl
  | _ => exact .samePhase hv hsame rfl rfl (.inl rfl)

theorem Bidding.tableOk (hv : Valid s) {condition : GameEngineState → RoomPlayerId → Prop}
    (h : Bidding condition p s events s') : TableOk s' := by
  have hsame := (h.players hv).same
  cases h with
  | declined _ hphase =>
    exact .goesOn hv hsame rfl (inProgress_of_phase hphase rfl)
      (inProgress_iff.mpr rfl) rfl
  | bid | passed => exact .samePhase hv hsame rfl rfl (.inl rfl)
  | bidWon hact | passedWon hact | passedUnsold hact =>
    exact .goesOn hv hsame rfl (inProgress_of_phase hact.phase rfl)
      (inProgress_iff.mpr rfl) rfl

theorem TradePhase.inProgress (h : TradePhase s) : InProgress s := by
  rcases h with h | h | h | h <;> exact inProgress_of_phase h rfl

theorem Trade.tableOk (hv : Valid s) {condition : GameEngineState → GameEngineTradeOffer → Prop}
    (h : Trade condition p s events s') : TableOk s' := by
  have hsame := (h.players hv).same
  cases h with
  | marked => exact .samePhase hv hsame rfl rfl (.inl rfl)
  | offered hphase _ hoffer =>
    refine .next hv hsame rfl id fun trade htrade => ?_
    cases htrade
    exact ⟨hphase.inProgress, hoffer⟩
  | refused | executed | rejected | cancelled => exact .samePhase hv hsame rfl rfl (.inr rfl)

theorem Settlement.tableOk (hv : Valid s) {condition : GameEngineState → RoomPlayerId → Prop}
    (h : Settlement condition p s events s') : TableOk s' := by
  cases h with
  | debtPaid hphase hdebt hdebtor hpl h0 hcash =>
    have hchange := debtPaid_players hv hphase hdebt hdebtor hpl h0 hcash
    exact .goesOn hv hchange.same debtPaidState_control.2 (inProgress_of_phase hphase rfl)
      (inProgress_iff.mpr rfl) debtPaidState_control.1
  | lastBankruptcy | finished =>
    exact {
      turn := fun h => absurd rfl h.1
      company := fun h => absurd rfl h.1
      offer := fun _ htrade => by cases htrade }
  | bankruptcy hbankrupt _ hgoes hother =>
    have hb : Bankrupts s p _ _ _ (liquidatedState s p _ _) := ⟨hbankrupt, rfl, rfl, rfl⟩
    exact {
      turn := fun _ => hb.staysActive hother (hv.table.turn hbankrupt.active)
      company := fun _ => hgoes
      offer := hv.table.offer }
  | @ownBankruptcy pl next creditor decks hbankrupt _ hgoes hown hnext =>
    have hnextActive : IsActive (liquidatedState s p creditor decks) next.roomPlayerId := by
      simp only [findNextActivePlayerAfterBankruptcy, orThrow_eq_ok] at hnext
      have hmem : next ∈ getActivePlayers (liquidatedState s p creditor decks) := by
        rcases Option.or_eq_some_iff.mp hnext with h | ⟨_, h⟩
        · exact List.mem_of_find?_eq_some h
        · exact List.mem_of_head? h
      obtain ⟨hs, hactive⟩ := mem_getActivePlayers.mp hmem
      refine ⟨next, Keyed.find_of_mem _ ?_ hs, hactive⟩
      have hids : (liquidatedState s p creditor decks).players.map
          GameEnginePlayer.roomPlayerId = s.players.map GameEnginePlayer.roomPlayerId := by
        apply Keyed.map_modify
        intro _; rfl
      rw [hids]
      exact hv.players.ids
    exact {
      turn := fun _ => hnextActive
      company := fun _ => hgoes
      offer := fun trade htrade =>
        ⟨inProgress_iff.mpr rfl, (hv.table.offer trade htrade).2⟩ }

theorem Action.tableOk (hv : Valid s) (h : Action c p s events s') : TableOk s' := by
  cases h with
  | turn h =>
    obtain ⟨pl, ho, hturn⟩ := h
    exact hturn.tableOk hv ho
  | landing h =>
    obtain ⟨pl, ha, hlanding⟩ := h
    exact hlanding.tableOk hv ha
  | estate h =>
    obtain ⟨pl, ho, hestate⟩ := h
    exact hestate.tableOk hv ho
  | bidding h => exact h.tableOk hv
  | trade h => exact h.tableOk hv
  | settlement h => exact h.tableOk hv

/-- Actions keep the invariant. -/
theorem Action.valid (hv : Valid s) (h : Action c p s events s') : Valid s' where
  players := h.playersOk hv
  tiles := h.tilesOk hv
  decks := h.decksOk hv
  phase := h.phaseOk hv
  table := h.tableOk hv

end Table

/-! ## The start of a game -/

/-- A room as the game service starts it. -/
structure ValidInput (input : CreateInitialGameStateInput) : Prop where
  ids : (input.players.map JoinedRoomPlayer.id).Nodup
  seats : (input.players.map JoinedRoomPlayer.seatNumber).Nodup
  players : 2 ≤ input.players.length
  human : ∃ player ∈ input.players, player.playerType = .human

section Start

variable {env : Env} {input : CreateInitialGameStateInput} {s : GameEngineState}

theorem pile_undealt (cards : List CardKey) : pile ⟨cards, []⟩ = cards :=
  add_zero _

theorem pile_shuffled (cards : List CardKey) (seed : String) :
    pile ⟨shuffleDeterministically cards seed, []⟩ = cards := by
  rw [pile_undealt, Multiset.coe_eq_coe]
  exact Shuffle.shuffleFrom_perm _ _ _ _ _

theorem createInitialDeckState_piles (seed : Option String) (deckKey : GameCardDeckKey) :
    piles (createInitialDeckState seed) deckKey = (deckCards deckKey).map GameEngineCard.key := by
  unfold createInitialDeckState
  dsimp only
  split
  · cases deckKey with
    | chance => exact pile_shuffled _ _
    | worldFund => exact pile_shuffled _ _
  · cases deckKey with
    | chance => exact pile_undealt _
    | worldFund => exact pile_undealt _

theorem initial_company (hi : ValidInput input)
    (hplayers : s.players = input.players.map createInitialPlayer) : ¬ EndsGame s := by
  rw [endsGame_iff, hplayers, List.map_map]
  rintro (hlength | hhuman)
  · have hall : ((input.players.map (identity ∘ createInitialPlayer)).filter
        fun x => !x.2.2).length = input.players.length := by
      rw [List.filter_eq_self.mpr, List.length_map]
      simp [identity, createInitialPlayer]
    have htwo : 2 ≤ input.players.length := hi.players
    omega
  · obtain ⟨player, hmem, htype⟩ := hi.human
    exact hhuman _ (List.mem_map_of_mem hmem) rfl htype

theorem createInitialGameState_valid (hi : ValidInput input)
    (h : createInitialGameState env input = .ok s) : Valid s := by
  simp only [createInitialGameState, bind_eq_ok, orThrow_eq_ok, pure_eq_ok] at h
  obtain ⟨first, hfirst, rfl⟩ := h
  have hids : ((input.players.map createInitialPlayer).map
      GameEnginePlayer.roomPlayerId).Nodup := by
    rw [List.map_map]
    exact hi.ids
  have hnew : ∀ {x : GameEngineProperty}, x ∈ createInitialPropertyState .classic →
      x.ownerRoomPlayerId = none ∧ x.houseCount = 0 ∧ x.hasHotel = false ∧
        x.mortgaged = false := by
    intro x hx
    obtain ⟨tile, _, rfl⟩ := List.mem_map.mp hx
    exact ⟨rfl, rfl, rfl, rfl⟩
  constructor
  case players =>
    refine ⟨hids, ?_⟩
    intro pl hpl
    obtain ⟨player, _, rfl⟩ := List.mem_map.mp hpl
    exact ⟨(by decide : 0 ≤ startingCash), rfl, fun _ hmem => absurd hmem List.not_mem_nil,
      fun hbankrupt => by cases hbankrupt⟩
  case tiles =>
    have hunbuilt : ∀ {x : GameEngineProperty}, x ∈ createInitialPropertyState .classic →
        x.hasBuilding = false := by
      intro x hx
      obtain ⟨tile, _, rfl⟩ := List.mem_map.mp hx
      rfl
    refine ⟨?_, ?_, ?_⟩
    · unfold createInitialPropertyState
      rw [List.map_map]
      rfl
    · intro x hx
      obtain ⟨howner, hhouses, hhotel, hmortgaged⟩ := hnew hx
      refine ⟨?_, fun _ => ⟨hunbuilt hx, hmortgaged⟩, ?_, fun _ => hhouses, ?_⟩
      · intro q hq
        rw [howner] at hq
        cases hq
      · rw [hhouses]
        decide
      · intro hbuilding
        rw [hunbuilt hx] at hbuilding
        cases hbuilding
    · intro tile tile' _ _ _ x x' hx _ hbuilding
      rw [hunbuilt (GameEngineState.property?_mem hx)] at hbuilding
      cases hbuilding
  case decks =>
    intro deckKey
    have hheld : ∀ players : List JoinedRoomPlayer, (((players.map createInitialPlayer).map
        fun pl => (pl.getOutOfJailFreeCardKeys : Multiset CardKey)).sum) = 0 := by
      intro players
      induction players with
      | nil => rfl
      | cons player players ih =>
        rw [List.map_cons, List.map_cons, List.sum_cons, ih]
        rfl
    rw [cardsOf_eq, heldCards, hheld, createInitialDeckState_piles]
    exact add_zero _
  case phase =>
    refine ⟨by simp, by simp, by simp, ?_, ?_, ?_⟩ <;> intro _ hnone <;> cases hnone
  case table =>
    refine ⟨fun _ => ?_, fun _ => initial_company hi rfl, fun _ hnone => by cases hnone⟩
    exact ⟨createInitialPlayer first,
      Keyed.find_of_mem _ hids (List.mem_map_of_mem (List.mem_of_head? hfirst)), rfl⟩

end Start

/-! ## Runs -/

/-- The reducer accepts an intent, sent in its surroundings. -/
def Accepts (s : GameEngineState) (sent : Env × GameEngineIntent)
    (events : List GameEngineEvent) (s' : GameEngineState) : Prop :=
  reduceGameEngineIntent sent.1 s sent.2 = .ok ⟨s', events⟩

/-- What a run permits of the intents sent. -/
def PermitsSent (c : Condition) (s : GameEngineState) (sent : Env × GameEngineIntent) : Prop :=
  Permits c sent.1 s sent.2

/-- A run of a game: the intents its players and its clock sent were accepted one after the
other. -/
structure Game (input : CreateInitialGameStateInput) (sent : List (Env × GameEngineIntent))
    (events : List GameEngineEvent) (start s : GameEngineState) : Prop where
  begun : ∃ env, createInitialGameState env input = .ok start
  run : Trace.Run Accepts start sent events s

/-- Some run of accepted intents leads to the state. -/
def Reachable (input : CreateInitialGameStateInput) (s : GameEngineState) : Prop :=
  ∃ sent events start, Game input sent events start s

section Runs

variable {c : Condition} {input : CreateInitialGameStateInput} {s s' : GameEngineState}
  {env : Env} {intent : GameEngineIntent} {r : GameEngineResult}

theorem accepted_actions (hv : Valid s) (hc : Permits c env s intent)
    (h : reduceGameEngineIntent env s intent = .ok r) :
    ∃ p, Actions c p s r.events r.state := by
  cases hactor : actorOf intent with
  | none => exact ⟨s.currentTurnRoomPlayerId,
      reduceGameEngineIntent_actions hv.sound hc h (.inr hactor)⟩
  | some p => exact ⟨p, reduceGameEngineIntent_actions hv.sound hc h (.inl hactor)⟩

theorem accepted_valid (hv : Valid s) (h : reduceGameEngineIntent env s intent = .ok r) :
    Valid r.state := by
  obtain ⟨p, hactions⟩ := accepted_actions hv (permits_unrestricted env s intent) h
  exact hactions.invariant (fun _ _ _ hvalid haction => haction.valid hvalid) hv

theorem accepts_valid (s : GameEngineState) (sent : Env × GameEngineIntent)
    (events : List GameEngineEvent) (s' : GameEngineState) (hv : Valid s)
    (h : Accepts s sent events s') : Valid s' :=
  accepted_valid hv h

theorem Game.valid {sent : List (Env × GameEngineIntent)} {events : List GameEngineEvent}
    {start : GameEngineState} (hi : ValidInput input) (h : Game input sent events start s) :
    Valid s := by
  obtain ⟨env, hstart⟩ := h.begun
  exact h.run.invariant accepts_valid (createInitialGameState_valid hi hstart)

/-- Every state a game reaches meets the invariant. -/
theorem reachable_valid (hi : ValidInput input) (h : Reachable input s) : Valid s := by
  obtain ⟨sent, events, start, hgame⟩ := h
  exact hgame.valid hi

end Runs

/-! ## Playing a game -/

/-- The state and the events when the intents are sent one after the other. -/
def play (s : GameEngineState) : List (Env × GameEngineIntent) → Checked GameEngineResult
  | [] => return ⟨s, []⟩
  | (env, intent) :: sent => do
    let first ← reduceGameEngineIntent env s intent
    let last ← play first.state sent
    return ⟨last.state, first.events ++ last.events⟩

/-- The state and the events of a room's game. -/
def playRoom (env : Env) (input : CreateInitialGameStateInput)
    (sent : List (Env × GameEngineIntent)) : Checked GameEngineResult := do
  let start ← createInitialGameState env input
  play start sent

section Play

variable {env : Env} {input : CreateInitialGameStateInput} {s : GameEngineState}
  {sent : List (Env × GameEngineIntent)} {r : GameEngineResult}

theorem play_run (h : play s sent = .ok r) : Trace.Run Accepts s sent r.events r.state := by
  induction sent generalizing s r with
  | nil =>
    cases h
    exact .refl s
  | cons first sent ih =>
    obtain ⟨env, intent⟩ := first
    simp only [play, bind_eq_ok, pure_eq_ok] at h
    obtain ⟨⟨t, events⟩, hfirst, last, hlast, rfl⟩ := h
    have hstep : Accepts s (env, intent) events t := hfirst
    exact Trace.Run.cons hstep (ih hlast)

theorem playRoom_game (h : playRoom env input sent = .ok r) :
    ∃ start, createInitialGameState env input = .ok start ∧
      Game input sent r.events start r.state := by
  simp only [playRoom, bind_eq_ok] at h
  obtain ⟨start, hstart, h⟩ := h
  exact ⟨start, hstart, ⟨env, hstart⟩, play_run h⟩

theorem playRoom_reachable (h : playRoom env input sent = .ok r) : Reachable input r.state := by
  obtain ⟨start, _, hgame⟩ := playRoom_game h
  exact ⟨sent, r.events, start, hgame⟩

end Play

/-! ## A room with three players -/

def threePlayers : CreateInitialGameStateInput where
  roomId := "room"
  startedAt := some 0
  durationMinutes := 60
  players := [⟨⟨1⟩, .human, none, 1⟩, ⟨⟨2⟩, .human, none, 2⟩, ⟨⟨3⟩, .human, none, 3⟩]

theorem threePlayers_valid : ValidInput threePlayers where
  ids := by decide
  seats := by decide
  players := by decide
  human := ⟨_, List.mem_cons_self, rfl⟩

/-- The intents of a game, all sent at its start. -/
def atStart (intents : List GameEngineIntent) : List (Env × GameEngineIntent) :=
  intents.map fun intent => (⟨0, "trade"⟩, intent)

/-- The game of the three in which the intents are sent. -/
def playThree (intents : List GameEngineIntent) : Checked GameEngineResult :=
  playRoom ⟨0, "room"⟩ threePlayers (atStart intents)

/-- The first player buys South Africa, wins Egypt and Morocco in auctions, and builds a house. -/
def lightBlueHouse : List GameEngineIntent :=
  [.rollAndMove ⟨1⟩ [.int 1, .int 5], .buyProperty ⟨1⟩, .endTurn ⟨1⟩,
    .rollAndMove ⟨2⟩ [.int 3, .int 5], .declinePropertyPurchase ⟨2⟩,
    .placeAuctionBid ⟨1⟩ (.int 10), .passAuctionBid ⟨2⟩, .passAuctionBid ⟨3⟩, .endTurn ⟨2⟩,
    .rollAndMove ⟨3⟩ [.int 4, .int 5], .declinePropertyPurchase ⟨3⟩,
    .placeAuctionBid ⟨1⟩ (.int 10), .passAuctionBid ⟨2⟩, .passAuctionBid ⟨3⟩, .endTurn ⟨3⟩,
    .rollAndMove ⟨1⟩ [.int 3, .int 1], .buildProperty ⟨1⟩ .southAfrica]

end Rules
end LivePoly
