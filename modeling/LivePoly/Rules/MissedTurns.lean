import LivePoly.Rules.Live

/-!
# Rules.MissedTurns

A game under the commands of its players and the timeouts of the timer. The turns the timer rolled
for a player since the player's last command are what the counter of missed turns counts, and the
timer forfeits the player on turn whose counter is two. The counter becomes two with the timer's
roll in the second missed turn, and from then on nothing but a command of the player lets the turn
pass on: every forfeit comes while the second missed turn is going on.
-/

namespace LivePoly
namespace Rules

open Engine Checked Service
open Trace (Run Guarded)

/-! ## After the roll -/

section AfterRoll

variable {c : Condition} {env : Env} {s s' : GameEngineState} {p : RoomPlayerId}
  {pl : GameEnginePlayer} {events : List GameEngineEvent} {intent : GameEngineIntent}
  {r : GameEngineResult}

theorem not_awaitsRoll_of_phase (h : ¬ AwaitsRoll s) (hphase : s'.phase = s.phase) :
    ¬ AwaitsRoll s' := by
  unfold AwaitsRoll at h ⊢
  rwa [hphase]

theorem Estate.afterRoll (h : Estate p pl s events s') (hphase : ¬ AwaitsRoll s) :
    ¬ AwaitsRoll s' := by
  cases h with
  | bought => exact not_awaitsRoll rfl
  | houseBuilt | hotelBuilt | hotelSold | houseSold | mortgaged | unmortgaged =>
    exact not_awaitsRoll_of_phase hphase rfl

theorem Bidding.afterRoll {condition : GameEngineState → RoomPlayerId → Prop}
    (h : Bidding condition p s events s') (hphase : ¬ AwaitsRoll s) : ¬ AwaitsRoll s' := by
  cases h with
  | declined | bidWon | passedWon | passedUnsold => exact not_awaitsRoll rfl
  | bid | passed => exact not_awaitsRoll_of_phase hphase rfl

theorem Trade.afterRoll {condition : GameEngineState → GameEngineTradeOffer → Prop}
    (h : Trade condition p s events s') (hphase : ¬ AwaitsRoll s) : ¬ AwaitsRoll s' := by
  cases h with
  | marked | offered | refused | executed | rejected | cancelled =>
    exact not_awaitsRoll_of_phase hphase rfl

theorem afterRoll_chain {step : GameEngineState → List GameEngineEvent → GameEngineState → Prop}
    (hstep : ∀ s events s', step s events s' → ¬ AwaitsRoll s → ¬ AwaitsRoll s')
    (h : Trace.Chain step Settled s events s') (hphase : ¬ AwaitsRoll s) : ¬ AwaitsRoll s' :=
  h.invariant (I := fun s => ¬ AwaitsRoll s) (fun _ _ _ ht hone => hstep _ _ _ hone ht) hphase

/-- A bankruptcy that makes the next player roll takes the player on turn out of the game. -/
theorem Settlement.afterRoll {condition : GameEngineState → RoomPlayerId → Prop}
    (h : Settlement condition p s events s') (hphase : ¬ AwaitsRoll s) :
    ¬ AwaitsRoll s' ∨ ¬ IsActive s' s.currentTurnRoomPlayerId := by
  cases h with
  | debtPaid | lastBankruptcy | finished => exact .inl (not_awaitsRoll rfl)
  | bankruptcy => exact .inl (not_awaitsRoll_of_phase hphase rfl)
  | ownBankruptcy hbankrupt _ _ hown =>
    refine .inr ?_
    intro hactive
    exact ((liquidated_stillIn rfl _).mp hactive).2 hown

/-- After the roll, nothing but the end of the turn makes a player roll, unless the player on turn
leaves the game. -/
theorem Move.afterRoll (h : Move c s intent events s') (hphase : ¬ AwaitsRoll s)
    (hend : ∀ p, intent ≠ .endTurn p) :
    ¬ AwaitsRoll s' ∨ ¬ IsActive s' s.currentTurnRoomPlayerId := by
  cases h with
  | rolled _ hawaits => exact absurd hawaits hphase
  | finePaid | cardUsed => exact .inl hphase
  | turnEnded => exact absurd rfl (hend _)
  | estate _ _ _ h => exact .inl (h.afterRoll hphase)
  | bidding _ _ h => exact .inl (h.afterRoll hphase)
  | trade _ _ h => exact .inl (afterRoll_chain (fun _ _ _ hstep ht => hstep.afterRoll ht) h hphase)
  | debtPaid | finished => exact .inl (not_awaitsRoll rfl)
  | bankrupt h => exact h.settlement.afterRoll hphase
  | @resolved _ _ raised settled t _ _ _ hraise h =>
    have hafter : ¬ AwaitsRoll t := by
      refine afterRoll_chain ?_ hraise hphase
      rintro _ _ _ ⟨_, _, hestate⟩ ht
      exact hestate.afterRoll ht
    have hcurrent : t.currentTurnRoomPlayerId = s.currentTurnRoomPlayerId := by
      refine (keepsTurn_chain ?_ hraise).current
      rintro _ _ _ ⟨_, _, hestate⟩
      exact hestate.keepsTurn
    rcases h with ⟨debt, _, _, _, rfl⟩ | h
    · exact .inl (not_awaitsRoll rfl)
    · rw [← hcurrent]
      exact h.settlement.afterRoll hafter

theorem accepted_afterRoll (hv : Valid s) (h : reduceGameEngineIntent env s intent = .ok r)
    (hphase : ¬ AwaitsRoll s) (hend : ∀ p, intent ≠ .endTurn p) :
    ¬ AwaitsRoll r.state ∨ ¬ IsActive r.state s.currentTurnRoomPlayerId :=
  (reduceGameEngineIntent_move hv.sound (permits_unrestricted env s intent) h).afterRoll hphase hend

theorem rollSteps_same (hv : Valid s) (h : Trace.Chain (RollStep p) Settled s events s') :
    SamePlayers s s' := by
  induction h with
  | nil => rfl
  | cons hstep _ _ ih =>
    rcases hstep with ⟨_, hturn⟩ | hlanding
    · obtain ⟨pl, ho, hchange⟩ := id hturn
      have haction : Action unrestricted p _ _ _ := .turn hturn
      exact (ih (haction.valid hv)).trans (hchange.players hv ho).same
    · obtain ⟨pl, ha, hchange⟩ := id hlanding
      have haction : Action unrestricted p _ _ _ := .landing hlanding
      exact (ih (haction.valid hv)).trans (hchange.players hv ha.toOnTurn).same

theorem accepted_roll (hv : Valid s) (h : reduceGameEngineIntent env s intent = .ok r)
    (hroll : isRoll intent = true) :
    ∃ p pl, getIntentActorRoomPlayerId intent = some p ∧ OnTurn s p pl ∧ AwaitsRoll s ∧
      Rolled s r.state ∧ IsActive r.state p := by
  obtain ⟨s', events⟩ := r
  cases reduceGameEngineIntent_move hv.sound (permits_unrestricted env s intent) h with
  | @rolled p pl numbers dice _ ho hphase hrolled =>
    obtain ⟨hchain, hturn⟩ := rollAndMove_steps hv.players.funded ho hphase hrolled
    have hsame := rollSteps_same hv hchain
    exact ⟨p, pl, rfl, ho, hphase, hturn,
      (hsame.isActive hv.players.ids).mpr ⟨pl, ho.player, ho.active⟩⟩
  | finePaid | cardUsed | turnEnded | debtPaid | bankrupt | resolved => cases hroll
  | estate _ hdeals | bidding _ hdeals | trade _ hdeals =>
    rw [isRoll_of_isDealing hdeals] at hroll
    cases hroll
  | finished hactor =>
    cases intent with
    | finishGameByTime | finishGameAfterLastHumanLeft => cases hroll
    | _ => cases hactor

end AfterRoll

/-! ## Runs of commands and timeouts -/

/-- A command that was accepted: the turn it came in, who gave it, and the intent it played. -/
structure AcceptedCommand where
  turnNumber : Nat
  currentTurnRoomPlayerId : RoomPlayerId
  source : GameCommandSource
  intent : GameEngineIntent
  deriving DecidableEq

/-- A game and the commands accepted so far. -/
structure TimedGame where
  state : GameEngineState
  history : List AcceptedCommand
  deriving DecidableEq

/-- What happens next: a command, or the timeout of what the game waits for. -/
inductive TimedInput where
  | command (input : ExecuteGameIntentCommand) (ambient : Ambient)
  | timeout (ambient : Ambient)

/-- A player plays for itself, a bot's commands are for a bot, and apart from its timeouts the timer
only finishes games. -/
def MayCommand (s : GameEngineState) (input : ExecuteGameIntentCommand) : Prop :=
  assertIntentActorMatchesCommand input = .ok () ∧
    match input.source.getD .player with
    | .player => True
    | .bot => ∃ p, getIntentActorRoomPlayerId input.intent = some p ∧
        ((s.player? p).any fun pl => pl.playerType = .bot) = true
    | .timer => getIntentActorRoomPlayerId input.intent = none

/-- `processExecuteTurnTimeout` for the state. -/
def timeoutCommand (s : GameEngineState) (ambient : Ambient) : Option ExecuteGameIntentCommand :=
  (chooseTimeoutIntent ambient.engine s ambient.dice).map fun intent =>
    { roomPlayerId := getIntentActorRoomPlayerId intent, intent, source := some .timer }

/-- The accepted command, for the history. -/
def acceptedCommand (s : GameEngineState) (input : ExecuteGameIntentCommand) (ambient : Ambient) :
    AcceptedCommand where
  turnNumber := s.turnNumber
  currentTurnRoomPlayerId := s.currentTurnRoomPlayerId
  source := input.source.getD .player
  intent := playedIntent input ambient s

/-- The command is executed and accepted. -/
def Executes (game : TimedGame) (input : ExecuteGameIntentCommand) (ambient : Ambient)
    (game' : TimedGame) : Prop :=
  ∃ result, GameCommandsService.updater input ambient game.state = .ok (game'.state, result) ∧
    game'.history = game.history ++ [acceptedCommand game.state input ambient]

def TimedSteps (game : TimedGame) (input : TimedInput) (output : List Unit) (game' : TimedGame) :
    Prop :=
  output = [] ∧
    match input with
    | .command input ambient => MayCommand game.state input ∧ Executes game input ambient game'
    | .timeout ambient =>
      ∃ input, timeoutCommand game.state ambient = some input ∧ Executes game input ambient game'

/-- The player whose bankruptcy the timer declares at the input. -/
def forfeited? (s : GameEngineState) : TimedInput → Option RoomPlayerId
  | .command _ _ => none
  | .timeout ambient =>
    match (timeoutCommand s ambient).map fun input => playedIntent input ambient s with
    | some (.declareBankruptcy p _) => some p
    | _ => none

/-! ## Missed turns -/

/-- An accepted command the player gave. -/
def AcceptedCommand.isBy (p : RoomPlayerId) (command : AcceptedCommand) : Bool :=
  command.source = .player && getIntentActorRoomPlayerId command.intent = some p

/-- The timer played for the player in the player's own turn. -/
def AcceptedCommand.isPlayedFor (p : RoomPlayerId) (command : AcceptedCommand) : Bool :=
  command.source = .timer && getIntentActorRoomPlayerId command.intent = some p &&
    command.currentTurnRoomPlayerId = p

/-- The timer rolled for the player. -/
def AcceptedCommand.isRolledFor (p : RoomPlayerId) (command : AcceptedCommand) : Bool :=
  command.isPlayedFor p && isRoll command.intent

/-- The commands since the last one of the player. -/
def since (p : RoomPlayerId) (history : List AcceptedCommand) : List AcceptedCommand :=
  (history.reverse.takeWhile fun command => !command.isBy p).reverse

/-- The turns in which the timer rolled for the player since the player's last command. -/
def missedTurns (p : RoomPlayerId) (history : List AcceptedCommand) : List Nat :=
  Distinct.distinct (((since p history).filter (AcceptedCommand.isRolledFor p)).map
    AcceptedCommand.turnNumber)

/-- The forfeit of the player is the timer's third act in the player's own turns in a row, without a
command of the player in between. It does not come in the second missed turn, nor when the bid of
another player has timed out. -/
structure ForfeitedRightly (game : TimedGame) (p : RoomPlayerId) : Prop where
  own : game.state.currentTurnRoomPlayerId = p
  three : ∃ first ∈ since p game.history, ∃ second ∈ since p game.history,
    first.isPlayedFor p = true ∧ second.isPlayedFor p = true ∧
    first.turnNumber < second.turnNumber ∧ second.turnNumber < game.state.turnNumber ∧
    ∀ command ∈ since p game.history, command.currentTurnRoomPlayerId = p →
      first.turnNumber ≤ command.turnNumber →
      command.turnNumber = first.turnNumber ∨ command.turnNumber = second.turnNumber ∨
        command.turnNumber = game.state.turnNumber
  notSecond : ¬ (game.state.turnNumber ∈ missedTurns p game.history ∧
    (missedTurns p game.history).length = 2)
  notBid : ∀ auction, game.state.phase = .awaitingAuctionBid → game.state.auction = some auction →
    getCurrentAuctionBidderRoomPlayerId auction = some p

/-- What the history says about the player. -/
structure Missed (game : TimedGame) (p : RoomPlayerId) (pl : GameEnginePlayer) : Prop where
  count : pl.consecutiveMissedTurns = (missedTurns p game.history).length
  last : pl.lastMissedTurnNumber = (missedTurns p game.history).getLast?
  ordered : (missedTurns p game.history).Pairwise (· < ·)
  few : (missedTurns p game.history).length ≤ 2
  bound : ∀ command ∈ game.history, command.turnNumber ≤ game.state.turnNumber
  stuck : InProgress game.state → pl.bankrupt = false → (missedTurns p game.history).length = 2 →
    game.state.currentTurnRoomPlayerId = p ∧ game.state.turnNumber ∈ missedTurns p game.history ∧
      ¬ AwaitsRoll game.state

/-! ## The history -/

section History

variable {p : RoomPlayerId} {history : List AcceptedCommand} {command : AcceptedCommand}

theorem since_concat : since p (history ++ [command]) =
    if command.isBy p = true then [] else since p history ++ [command] := by
  unfold since
  rw [List.reverse_append, List.reverse_singleton, List.singleton_append, List.takeWhile_cons]
  cases command.isBy p <;> simp

theorem mem_missedTurns {turn : Nat} : turn ∈ missedTurns p history ↔
    ∃ command ∈ since p history, command.isRolledFor p = true ∧ command.turnNumber = turn := by
  simp [missedTurns, and_assoc]

theorem missedTurns_own (h : command.isBy p = true) :
    missedTurns p (history ++ [command]) = [] := by
  unfold missedTurns
  rw [since_concat, if_pos h]
  rfl

theorem missedTurns_rolled (hby : command.isBy p = false) (h : command.isRolledFor p = true) :
    missedTurns p (history ++ [command]) =
      Distinct.insert (missedTurns p history) command.turnNumber := by
  unfold missedTurns
  rw [since_concat, if_neg (by simp [hby]), List.filter_append, List.map_append,
    List.filter_cons_of_pos h, ← Distinct.distinct_concat]
  rfl

theorem missedTurns_other (hby : command.isBy p = false) (h : command.isRolledFor p = false) :
    missedTurns p (history ++ [command]) = missedTurns p history := by
  unfold missedTurns
  rw [since_concat, if_neg (by simp [hby]), List.filter_append,
    List.filter_cons_of_neg (by simp [h])]
  simp

theorem since_subset : since p history ⊆ history := by
  intro command hcommand
  have h := (List.takeWhile_sublist _).subset (List.mem_reverse.mp hcommand)
  exact List.mem_reverse.mp h

theorem not_isBy_of_isRolledFor (h : command.isRolledFor p = true) : command.isBy p = false := by
  simp only [AcceptedCommand.isRolledFor, AcceptedCommand.isPlayedFor, Bool.and_eq_true,
    decide_eq_true_eq] at h
  simp [AcceptedCommand.isBy, h.1.1.1]

end History

/-! ## The timer's policy -/

section Policy

variable {env : Env} {s : GameEngineState} {dice : DiceRoll} {p : RoomPlayerId}

/-- What the policy has looked at when it rolls for the player on turn or ends the turn. -/
theorem chooseTimeoutIntent_acts {intent : GameEngineIntent}
    (h : chooseTimeoutIntent env s dice = some intent)
    (hacts : (∃ numbers, intent = .rollAndMove p numbers) ∨ intent = .endTurn p) :
    ∃ pl, OnTurn s p pl ∧ shouldForfeitCurrentPlayer s pl = false := by
  have hactor : getIntentActorRoomPlayerId intent = some p := by
    rcases hacts with ⟨_, rfl⟩ | rfl <;> rfl
  have hother : ∀ q, intent ≠ .autoResolveDebt q ∧ intent ≠ .passAuctionBid q ∧
      (∀ creditor, intent ≠ .declareBankruptcy q creditor) ∧
      intent ≠ .declinePropertyPurchase q := by
    intro q
    rcases hacts with ⟨_, rfl⟩ | rfl <;> exact ⟨nofun, nofun, nofun, nofun⟩
  unfold chooseTimeoutIntent at h
  split at h
  · cases h
  split at h
  · cases h
    cases hactor
  split at h
  · cases h
  rename_i pl hpl
  obtain ⟨hfound, hactive⟩ := Option.filter_eq_some_iff.mp hpl
  have hid := GameEngineState.player?_id hfound
  split at h
  · obtain ⟨debt, _, heq⟩ := Option.map_eq_some_iff.mp h
    exact absurd heq.symm (hother _).1
  split at h
  · cases h
    exact absurd rfl ((hother _).2.2.1 _)
  rename_i hforfeit
  have hfound' : pl.roomPlayerId = p →
      ∃ pl, OnTurn s p pl ∧ shouldForfeitCurrentPlayer s pl = false := by
    intro hp
    exact ⟨pl, ⟨hp ▸ hid ▸ hfound, by simpa using hactive, (hp.symm.trans hid).symm⟩,
      by simpa using hforfeit⟩
  split at h
  · cases h
    exact hfound' (Option.some.inj hactor)
  · cases h
    exact hfound' (Option.some.inj hactor)
  · cases h
    exact absurd rfl (hother _).2.2.2
  · split at h
    · cases h
    · obtain ⟨_, _, heq⟩ := Option.map_eq_some_iff.mp h
      exact absurd heq.symm (hother _).2.1
  · cases h
    exact hfound' (Option.some.inj hactor)
  · cases h

/-- The policy forfeits the player on turn whenever the counter says so, whatever the phase is. -/
theorem chooseTimeoutIntent_forfeit {creditor : Option RoomPlayerId} :
    chooseTimeoutIntent env s dice = some (.declareBankruptcy p creditor) ↔
      creditor = none ∧ InProgress s ∧ isDue env.now s.expiresAt = false ∧
        s.phase ≠ .awaitingDebtResolution ∧
        ∃ pl, OnTurn s p pl ∧ shouldForfeitCurrentPlayer s pl = true := by
  constructor
  · intro h
    unfold chooseTimeoutIntent at h
    split at h
    · cases h
    rename_i hterminal
    split at h
    · cases h
    rename_i htime
    split at h
    · cases h
    rename_i pl hpl
    obtain ⟨hfound, hactive⟩ := Option.filter_eq_some_iff.mp hpl
    have hid := GameEngineState.player?_id hfound
    split at h
    · obtain ⟨debt, _, heq⟩ := Option.map_eq_some_iff.mp h
      cases heq
    rename_i hdebt
    split at h
    · rename_i hforfeit
      cases h
      exact ⟨rfl, ⟨fun hp => hterminal (.inl hp), fun hp => hterminal (.inr hp)⟩,
        by simpa using htime, hdebt, pl, ⟨hid ▸ hfound, by simpa using hactive, hid.symm⟩, hforfeit⟩
    split at h
    · cases h
    · cases h
    · cases h
    · split at h
      · cases h
      · obtain ⟨_, _, heq⟩ := Option.map_eq_some_iff.mp h
        cases heq
    · cases h
    · cases h
  · rintro ⟨rfl, hprogress, htime, hdebt, pl, ho, hforfeit⟩
    have hpl : (s.player? s.currentTurnRoomPlayerId).filter (fun player => !player.bankrupt) =
        some pl := by
      rw [ho.current, ho.player, Option.filter_some, if_pos (by simp [ho.active])]
    unfold chooseTimeoutIntent
    rw [if_neg (not_or.mpr hprogress), if_neg (by simp [htime]), hpl]
    dsimp only
    rw [if_neg hdebt, if_pos hforfeit, GameEngineState.player?_id ho.player]

end Policy

/-! ## One command -/

section Step

variable {game game' : TimedGame} {input : ExecuteGameIntentCommand} {ambient : Ambient}
  {s : GameEngineState} {p : RoomPlayerId} {pl : GameEnginePlayer}

theorem playedIntent_or (input : ExecuteGameIntentCommand) (ambient : Ambient)
    (s : GameEngineState) : playedIntent input ambient s = input.intent ∨
      playedIntent input ambient s = .finishGameByTime (.int ambient.now) := by
  unfold playedIntent getEffectiveIntentForCurrentTime
  split
  · exact .inl rfl
  · split
    · exact .inr rfl
    · exact .inl rfl

theorem playedIntent_of_actor
    (h : getIntentActorRoomPlayerId (playedIntent input ambient s) = some p) :
    playedIntent input ambient s = input.intent := by
  rcases playedIntent_or input ambient s with heq | heq
  · exact heq
  · rw [heq] at h
    cases h

theorem type_eq_rollAndMove {intent : GameEngineIntent} :
    intent.type = .rollAndMove ↔ isRoll intent = true := by
  cases intent <;> simp [GameEngineIntent.type, isRoll]

/-- What a command of the timer for a player is: the policy's intent, played when it was chosen. -/
theorem TimedSteps.timeout {i : TimedInput} {o : List Unit} (hstep : TimedSteps game i o game') :
    ∃ input ambient, Executes game input ambient game' ∧
      (input.source.getD .player = .bot → ∀ q, getIntentActorRoomPlayerId input.intent = some q →
        ((game.state.player? q).any fun pl => pl.playerType = .bot) = true) ∧
      (input.source.getD .player = .timer → getIntentActorRoomPlayerId input.intent ≠ none →
        chooseTimeoutIntent ambient.engine game.state ambient.dice = some input.intent) := by
  obtain ⟨_, hstep⟩ := hstep
  cases i with
  | command input ambient =>
    obtain ⟨⟨_, hmay⟩, hexec⟩ := hstep
    refine ⟨input, ambient, hexec, ?_, ?_⟩
    · intro hsource q hq
      rw [hsource] at hmay
      obtain ⟨p, hp, hbot⟩ := hmay
      cases hq.symm.trans hp
      exact hbot
    · intro hsource hactor
      rw [hsource] at hmay
      exact absurd hmay hactor
  | timeout ambient =>
    obtain ⟨input, hinput, hexec⟩ := hstep
    obtain ⟨intent, hintent, rfl⟩ := Option.map_eq_some_iff.mp hinput
    exact ⟨_, ambient, hexec, nofun, fun _ _ => hintent⟩

theorem Executes.state (h : Executes game input ambient game') :
    ∃ r, reduceGameEngineIntent ambient.engine game.state
        (acceptedCommand game.state input ambient).intent = .ok r ∧
      core game'.state = core r.state ∧
      game'.state.players = (sourceApplied input ambient game.state r.state).players ∧
      game'.history = game.history ++ [acceptedCommand game.state input ambient] := by
  obtain ⟨result, hupdate, hhistory⟩ := h
  obtain ⟨r, hr, hs', _⟩ := updater_eq_ok.mp hupdate
  refine ⟨r, hr, updated_core hs', ?_, hhistory⟩
  rw [hs']
  unfold applyTurnDeadline
  split
  · rfl
  · dsimp only
    split
    · split <;> rfl
    · rfl

/-- The record of a human player after a command: reset by its own, counted by a roll of the timer,
and otherwise as the engine left it. -/
theorem sourceApplied_player? {next : GameEngineState} (hpl : next.player? p = some pl)
    (hhuman : pl.playerType = .human) :
    (sourceApplied input ambient s next).player? p =
      if (acceptedCommand s input ambient).isBy p = true then
        some { pl with consecutiveMissedTurns := 0, lastMissedTurnNumber := none }
      else if (acceptedCommand s input ambient).isRolledFor p = true ∧ pl.bankrupt = false ∧
          pl.lastMissedTurnNumber ≠ some s.turnNumber then
        some { pl with
          consecutiveMissedTurns := pl.consecutiveMissedTurns + 1
          lastMissedTurnNumber := some s.turnNumber }
      else some pl := by
  have hreset : ∀ q, (resetMissedTurn next q).player? p = if p = q then
      some { pl with consecutiveMissedTurns := 0, lastMissedTurnNumber := none } else some pl := by
    intro q
    unfold resetMissedTurn
    rw [GameEngineState.player?_updatePlayer, hpl]
    · simp [hhuman]
    · intro x
      split <;> rfl
  have hincrement : ∀ q, (incrementMissedTurn next q s.turnNumber).player? p =
      if p = q ∧ pl.bankrupt = false ∧ pl.lastMissedTurnNumber ≠ some s.turnNumber then
        some { pl with
          consecutiveMissedTurns := pl.consecutiveMissedTurns + 1
          lastMissedTurnNumber := some s.turnNumber }
      else some pl := by
    intro q
    unfold incrementMissedTurn
    rw [GameEngineState.player?_updatePlayer, hpl]
    · by_cases hq : p = q
      · by_cases hout : pl.bankrupt = true ∨ pl.lastMissedTurnNumber = some s.turnNumber
        · rcases hout with hout | hout <;> simp [hhuman, hq, hout]
        · rw [not_or] at hout
          simp [hhuman, hq, hout.1, hout.2]
      · simp [hq]
    · intro x
      split <;> rfl
  unfold sourceApplied applyCommandSourceToState acceptedCommand AcceptedCommand.isRolledFor
    AcceptedCommand.isPlayedFor AcceptedCommand.isBy
  dsimp only
  cases hactor : getIntentActorRoomPlayerId (playedIntent input ambient s) with
  | none => simp [hpl]
  | some q =>
    cases hsource : input.source.getD .player with
    | bot => simp [hpl]
    | player =>
      dsimp only
      rw [hreset]
      by_cases hq : p = q
      · simp [hq]
      · simp [hq, Ne.symm hq]
    | timer =>
      dsimp only
      by_cases hroll : isRoll (playedIntent input ambient s) = true
      · by_cases hturn : q = s.currentTurnRoomPlayerId
        · rw [if_neg (by simp [type_eq_rollAndMove, hroll, hturn]), hincrement]
          by_cases hq : p = q
          · subst hq
            simp [hroll, hturn]
          · simp [hq, Ne.symm hq]
        · rw [if_pos (.inr hturn), hpl]
          by_cases hq : q = p
          · subst hq
            simp [Ne.symm hturn]
          · simp [hq]
      · rw [if_pos (.inl (by rw [Ne, type_eq_rollAndMove]; exact hroll)), hpl]
        simp [hroll]

theorem turn_of_core {s' t : GameEngineState} (h : core s' = core t) :
    s'.turnNumber = t.turnNumber ∧ s'.currentTurnRoomPlayerId = t.currentTurnRoomPlayerId ∧
      s'.phase = t.phase := by
  have hturn := congrArg GameEngineState.turnNumber h
  have hcurrent := congrArg GameEngineState.currentTurnRoomPlayerId h
  have hphase := congrArg GameEngineState.phase h
  exact ⟨hturn, hcurrent, hphase⟩

theorem engine_record (hv : Valid s) {env : Env} {intent : GameEngineIntent} {r : GameEngineResult}
    (hr : reduceGameEngineIntent env s intent = .ok r) (hpl : s.player? p = some pl) :
    ∃ pl', r.state.player? p = some pl' ∧ missedRecord pl' = missedRecord pl := by
  have hrecord := accepted_missedRecord hv hr p
  rw [hpl] at hrecord
  exact Option.map_eq_some_iff.mp hrecord

theorem Missed.own (h : Missed game p pl) {pl' : GameEnginePlayer} {command : AcceptedCommand}
    (hby : command.isBy p = true) (hhistory : game'.history = game.history ++ [command])
    (hturn : command.turnNumber = game.state.turnNumber)
    (hle : game.state.turnNumber ≤ game'.state.turnNumber)
    (hcount : pl'.consecutiveMissedTurns = 0) (hlast : pl'.lastMissedTurnNumber = none) :
    Missed game' p pl' := by
  have hmissed : missedTurns p game'.history = [] := by
    rw [hhistory]
    exact missedTurns_own hby
  refine ⟨by rw [hmissed, hcount]; rfl, by rw [hmissed, hlast]; rfl, by simp [hmissed],
    by simp [hmissed], ?_, ?_⟩
  · intro other hother
    rw [hhistory, List.mem_append, List.mem_singleton] at hother
    rcases hother with hold | rfl
    · exact (h.bound other hold).trans hle
    · omega
  · intro _ _ htwo
    rw [hmissed] at htwo
    cases htwo

theorem Missed.turn_le (h : Missed game p pl) {turn : Nat}
    (hturn : turn ∈ missedTurns p game.history) : turn ≤ game.state.turnNumber := by
  obtain ⟨command, hsince, _, rfl⟩ := mem_missedTurns.mp hturn
  exact h.bound command (since_subset hsince)

theorem getLast?_of_max {turns : List Nat} (hordered : turns.Pairwise (· < ·)) {turn : Nat}
    (hmem : turn ∈ turns) (hmax : ∀ other ∈ turns, other ≤ turn) : turns.getLast? = some turn := by
  have hne : turns ≠ [] := List.ne_nil_of_mem hmem
  rw [List.getLast?_eq_some_getLast hne]
  have hsplit := List.dropLast_append_getLast hne
  rw [← hsplit, List.pairwise_append] at hordered
  rw [← hsplit, List.mem_append, List.mem_singleton] at hmem
  rcases hmem with hearlier | hlast
  · have hlt := hordered.2.2 turn hearlier _ (List.mem_singleton.mpr rfl)
    have hle := hmax _ (List.getLast_mem hne)
    omega
  · rw [hlast]

/-- The counter knows the last missed turn. -/
theorem Missed.last_iff (h : Missed game p pl) :
    pl.lastMissedTurnNumber = some game.state.turnNumber ↔
      game.state.turnNumber ∈ missedTurns p game.history := by
  rw [h.last]
  constructor
  · exact List.mem_of_getLast?
  · intro hmem
    exact getLast?_of_max h.ordered hmem fun other hother => h.turn_le hother

theorem Missed.roll (h : Missed game p pl) {pl' : GameEnginePlayer} {command : AcceptedCommand}
    (hrolled : command.isRolledFor p = true)
    (hhistory : game'.history = game.history ++ [command])
    (hturn : command.turnNumber = game.state.turnNumber)
    (hsame : game'.state.turnNumber = game.state.turnNumber)
    (hcurrent : game'.state.currentTurnRoomPlayerId = p) (hphase : ¬ AwaitsRoll game'.state)
    (hfew : pl.consecutiveMissedTurns < 2)
    (hrecord : if pl.lastMissedTurnNumber ≠ some game.state.turnNumber then
        pl'.consecutiveMissedTurns = pl.consecutiveMissedTurns + 1 ∧
          pl'.lastMissedTurnNumber = some game.state.turnNumber
      else pl'.consecutiveMissedTurns = pl.consecutiveMissedTurns ∧
        pl'.lastMissedTurnNumber = pl.lastMissedTurnNumber) : Missed game' p pl' := by
  have hby := not_isBy_of_isRolledFor hrolled
  have hmissed : missedTurns p game'.history =
      Distinct.insert (missedTurns p game.history) game.state.turnNumber := by
    rw [hhistory, missedTurns_rolled hby hrolled, hturn]
  have hmem : game'.state.turnNumber ∈ missedTurns p game'.history := by
    rw [hmissed, hsame]
    exact Distinct.mem_insert.mpr (.inr rfl)
  have hbound : ∀ other ∈ game'.history, other.turnNumber ≤ game'.state.turnNumber := by
    intro other hother
    rw [hhistory, List.mem_append, List.mem_singleton] at hother
    rcases hother with hold | rfl
    · exact (h.bound other hold).trans hsame.ge
    · exact (hturn.trans hsame.symm).le
  have hcounted : pl'.consecutiveMissedTurns = (missedTurns p game'.history).length ∧
      pl'.lastMissedTurnNumber = (missedTurns p game'.history).getLast? ∧
      (missedTurns p game'.history).Pairwise (· < ·) := by
    rw [hmissed]
    unfold Distinct.insert
    by_cases hnow : game.state.turnNumber ∈ missedTurns p game.history
    · rw [if_neg (not_not.mpr (h.last_iff.mpr hnow))] at hrecord
      rw [if_pos hnow, hrecord.1, hrecord.2]
      exact ⟨h.count, h.last, h.ordered⟩
    · rw [if_pos fun hlast => hnow (h.last_iff.mp hlast)] at hrecord
      rw [if_neg hnow, hrecord.1, hrecord.2, h.count]
      refine ⟨by simp, by simp,
        List.pairwise_append.mpr ⟨h.ordered, List.pairwise_singleton .., ?_⟩⟩
      intro turn hturn' now hmem
      rw [List.mem_singleton.mp hmem]
      refine Nat.lt_of_le_of_ne (h.turn_le hturn') ?_
      rintro rfl
      exact hnow hturn'
  have hlength : (missedTurns p game'.history).length ≤ 2 := by
    rw [← hcounted.1]
    split at hrecord <;> omega
  exact ⟨hcounted.1, hcounted.2.1, hcounted.2.2, hlength, hbound,
    fun _ _ _ => ⟨hcurrent, hmem, hphase⟩⟩

theorem Missed.other (h : Missed game p pl) {pl' : GameEnginePlayer} {command : AcceptedCommand}
    (hby : command.isBy p = false) (hrolled : command.isRolledFor p = false)
    (hhistory : game'.history = game.history ++ [command])
    (hturn : command.turnNumber = game.state.turnNumber)
    (hrecord : missedRecord pl' = missedRecord pl)
    (hle : game.state.turnNumber ≤ game'.state.turnNumber)
    (hprogress : InProgress game'.state → InProgress game.state)
    (hactive : pl'.bankrupt = false → pl.bankrupt = false)
    (hstays : InProgress game'.state → pl'.bankrupt = false → 2 ≤ pl.consecutiveMissedTurns →
      game.state.currentTurnRoomPlayerId = p → ¬ AwaitsRoll game.state →
      game'.state.currentTurnRoomPlayerId = p ∧ game'.state.turnNumber = game.state.turnNumber ∧
        ¬ AwaitsRoll game'.state) :
    Missed game' p pl' := by
  have hmissed : missedTurns p game'.history = missedTurns p game.history := by
    rw [hhistory]
    exact missedTurns_other hby hrolled
  simp only [missedRecord, Prod.mk.injEq] at hrecord
  obtain ⟨_, _, hcount, hlast⟩ := hrecord
  refine ⟨by rw [hmissed, hcount, h.count], by rw [hmissed, hlast, h.last], hmissed ▸ h.ordered,
    hmissed ▸ h.few, ?_, ?_⟩
  · intro other hother
    rw [hhistory, List.mem_append, List.mem_singleton] at hother
    rcases hother with hold | rfl
    · exact (h.bound other hold).trans hle
    · omega
  · intro hp hb htwo
    rw [hmissed] at htwo ⊢
    obtain ⟨hcurrent, hmem, hphase⟩ := h.stuck (hprogress hp) (hactive hb) htwo
    obtain ⟨hcurrent', hnumber, hphase'⟩ :=
      hstays hp hb (by rw [h.count, htwo]) hcurrent hphase
    exact ⟨hcurrent', hnumber ▸ hmem, hphase'⟩

theorem TurnMove.turn_le {intent : GameEngineIntent} {events : List GameEngineEvent}
    {s' : GameEngineState} (h : TurnMove s intent events s') : s.turnNumber ≤ s'.turnNumber := by
  cases h with
  | rolled _ _ h => exact h.turnNumber.ge
  | kept _ h => exact h.turnNumber.ge
  | passed _ h => exact h.turnNumber ▸ Nat.le_succ _
  | ended _ h => exact h.turnNumber.ge

/-- The timer neither rolls for a player nor ends the turn once two turns have been missed. -/
theorem missed_lt_of_acts (hpl : s.player? p = some pl) (hhuman : pl.playerType = .human)
    {env : Env} {dice : DiceRoll} {intent : GameEngineIntent}
    (hchosen : chooseTimeoutIntent env s dice = some intent)
    (hacts : (∃ numbers, intent = .rollAndMove p numbers) ∨ intent = .endTurn p) :
    pl.consecutiveMissedTurns < 2 := by
  obtain ⟨ql, ho, hforfeit⟩ := chooseTimeoutIntent_acts hchosen hacts
  cases ho.player.symm.trans hpl
  have hcount : getConsecutiveMissedTurns s pl.roomPlayerId = pl.consecutiveMissedTurns := by
    unfold getConsecutiveMissedTurns
    rw [GameEngineState.player?_id hpl, hpl]
    rfl
  simpa [shouldForfeitCurrentPlayer, hhuman, hcount, maxConsecutiveMissedTurns] using hforfeit

theorem source_of_actor (hpl : s.player? p = some pl) (hhuman : pl.playerType = .human)
    (hbot : input.source.getD .player = .bot → ∀ q,
      getIntentActorRoomPlayerId input.intent = some q →
        ((s.player? q).any fun pl => pl.playerType = .bot) = true)
    (hactor : getIntentActorRoomPlayerId (playedIntent input ambient s) = some p) :
    (acceptedCommand s input ambient).isBy p = true ∨ input.source.getD .player = .timer := by
  cases hsource : input.source.getD .player with
  | player => exact .inl (by simp [AcceptedCommand.isBy, acceptedCommand, hsource, hactor])
  | bot =>
    have hany := hbot hsource p (playedIntent_of_actor hactor ▸ hactor)
    rw [hpl] at hany
    have htype : pl.playerType = .bot := by simpa using hany
    cases hhuman.symm.trans htype
  | timer => exact .inr rfl

theorem accepted_endTurn (hv : Valid s) {env : Env} {r : GameEngineResult}
    (h : reduceGameEngineIntent env s (.endTurn p) = .ok r) : s.currentTurnRoomPlayerId = p := by
  obtain ⟨s', events⟩ := r
  cases reduceGameEngineIntent_move hv.sound (permits_unrestricted env s _) h with
  | turnEnded ho => exact ho.current
  | estate _ hdeals | bidding _ hdeals | trade _ hdeals => cases hdeals
  | finished hactor => cases hactor

theorem exists_numbers {intent : GameEngineIntent} (hroll : isRoll intent = true)
    (hactor : getIntentActorRoomPlayerId intent = some p) :
    ∃ numbers, intent = .rollAndMove p numbers := by
  cases intent with
  | rollAndMove q numbers =>
    cases hactor
    exact ⟨numbers, rfl⟩
  | _ => cases hroll

/-- The timer rolls only for players who have missed less than two turns. -/
theorem missed_lt_of_isRolledFor (hpl : s.player? p = some pl) (hhuman : pl.playerType = .human)
    (htimer : input.source.getD .player = .timer →
      getIntentActorRoomPlayerId input.intent ≠ none →
      chooseTimeoutIntent ambient.engine s ambient.dice = some input.intent)
    (hrolled : (acceptedCommand s input ambient).isRolledFor p = true) :
    pl.consecutiveMissedTurns < 2 := by
  simp only [AcceptedCommand.isRolledFor, AcceptedCommand.isPlayedFor, Bool.and_eq_true,
    decide_eq_true_eq] at hrolled
  have hsource : input.source.getD .player = .timer := hrolled.1.1.1
  have hactor : getIntentActorRoomPlayerId (playedIntent input ambient s) = some p := hrolled.1.1.2
  have hroll : isRoll (playedIntent input ambient s) = true := hrolled.2
  have hplayed := playedIntent_of_actor hactor
  rw [hplayed] at hactor hroll
  have hchosen := htimer hsource (by rw [hactor]; exact nofun)
  exact missed_lt_of_acts hpl hhuman hchosen (.inl (exists_numbers hroll hactor))

/-- One command keeps what the history says about a human player. -/
theorem Missed.step (hv : Valid game.state) (hs : Seated game.state) {i : TimedInput}
    {o : List Unit} (hpl : game.state.player? p = some pl) (hhuman : pl.playerType = .human)
    (h : Missed game p pl) (hstep : TimedSteps game i o game') :
    ∃ pl', game'.state.player? p = some pl' ∧ pl'.playerType = .human ∧ Missed game' p pl' := by
  obtain ⟨input, ambient, hexec, hbot, htimer⟩ := hstep.timeout
  obtain ⟨r, hr, hcore, hplayers, hhistory⟩ := hexec.state
  obtain ⟨hnumber, hcurrent, hphase⟩ := turn_of_core hcore
  have hvr : Valid r.state := accepted_valid hv hr
  have hmove := accepted_turnMove hv hs hr
  have hle : game.state.turnNumber ≤ game'.state.turnNumber := hnumber ▸ hmove.turn_le
  obtain ⟨next, hnext, hrecord⟩ := engine_record hv hr hpl
  have hfields := hrecord
  simp only [missedRecord, Prod.mk.injEq] at hfields
  have hnexthuman : next.playerType = .human := hfields.2.1.trans hhuman
  have hfound : game'.state.player? p =
      (sourceApplied input ambient game.state r.state).player? p := by
    unfold GameEngineState.player?
    rw [hplayers]
  rw [sourceApplied_player? hnext hnexthuman] at hfound
  cases hby : (acceptedCommand game.state input ambient).isBy p with
  | true =>
    rw [if_pos hby] at hfound
    exact ⟨_, hfound, hnexthuman, h.own hby hhistory rfl hle rfl rfl⟩
  | false =>
    rw [if_neg (by simp [hby])] at hfound
    cases hrolled : (acceptedCommand game.state input ambient).isRolledFor p with
    | true =>
      have hroll : isRoll (acceptedCommand game.state input ambient).intent = true :=
        (Bool.and_eq_true_iff.mp hrolled).2
      obtain ⟨q, ql, hactor, ho, _, hturn, hactive⟩ := accepted_roll hv hr hroll
      have hfor := (Bool.and_eq_true_iff.mp hrolled).1
      simp only [AcceptedCommand.isPlayedFor, Bool.and_eq_true, decide_eq_true_eq] at hfor
      obtain rfl : q = p := Option.some.inj (hactor.symm.trans hfor.1.2)
      cases ho.player.symm.trans hpl
      obtain ⟨_, hnext', hnextactive⟩ := hactive
      cases hnext'.symm.trans hnext
      have hphase' : ¬ AwaitsRoll game'.state := not_awaitsRoll_of_phase hturn.phase hphase
      have hcurrent' : game'.state.currentTurnRoomPlayerId = q :=
        hcurrent.trans (hturn.current.trans ho.current)
      have hfew := missed_lt_of_isRolledFor hpl hhuman htimer hrolled
      by_cases hlast : pl.lastMissedTurnNumber = some game.state.turnNumber
      · rw [if_neg (by simp [hfields.2.2.2, hlast])] at hfound
        refine ⟨_, hfound, hnexthuman, h.roll hrolled hhistory rfl (hnumber.trans hturn.turnNumber)
          hcurrent' hphase' hfew ?_⟩
        rw [if_neg (not_not.mpr hlast)]
        exact hfields.2.2
      · rw [if_pos ⟨hrolled, hnextactive, by rw [hfields.2.2.2]; exact hlast⟩] at hfound
        refine ⟨_, hfound, hnexthuman, h.roll hrolled hhistory rfl (hnumber.trans hturn.turnNumber)
          hcurrent' hphase' hfew ?_⟩
        rw [if_pos hlast, hfields.2.2.1]
        exact ⟨rfl, rfl⟩
    | false =>
      rw [if_neg (by simp [hrolled])] at hfound
      have hprogress : InProgress game'.state → InProgress r.state := by
        unfold InProgress
        rw [hphase]
        exact id
      refine ⟨_, hfound, hnexthuman, h.other hby hrolled hhistory rfl hrecord hle
        (fun hp => accepted_wasInProgress hv hr (hprogress hp)) ?_ ?_⟩
      · intro hactive
        obtain ⟨_, hfound', hbefore⟩ := (accepted_seats hv hr).2 ⟨next, hnext, hactive⟩
        cases hfound'.symm.trans hpl
        exact hbefore
      · intro hp hactive htwo hcur hawaits
        -- the timer would not end the turn, and a command of the player would start the count anew
        have hend : ∀ q, (acceptedCommand game.state input ambient).intent ≠ .endTurn q := by
          intro q hq
          have hactor :
              getIntentActorRoomPlayerId (playedIntent input ambient game.state) = some q :=
            congrArg getIntentActorRoomPlayerId hq
          have hcur' := accepted_endTurn hv (hq ▸ hr)
          obtain rfl : q = p := hcur'.symm.trans hcur
          rcases source_of_actor hpl hhuman hbot hactor with hown | hsource
          · cases hby.symm.trans hown
          · have hplayed := playedIntent_of_actor hactor
            have hchosen := htimer hsource (by rw [← hplayed, hactor]; exact nofun)
            have hfew := missed_lt_of_acts hpl hhuman hchosen (.inr (hplayed.symm.trans hq))
            omega
        rcases accepted_afterRoll hv hr hawaits hend with hafter | hout
        · cases hmove with
          | rolled _ hawaits' => exact absurd hawaits' hawaits
          | kept _ hkept =>
            exact ⟨hcurrent.trans (hkept.current.trans hcur), hnumber.trans hkept.turnNumber,
              not_awaitsRoll_of_phase hafter hphase⟩
          | passed _ hpassed => exact absurd (.inr hpassed.phase) hafter
          | ended _ hended => exact absurd hended.phase (hprogress hp).1
        · exact absurd ⟨next, hnext, hactive⟩ (hcur ▸ hout)

/-! ## Runs -/

/-- What holds of a game and its history. -/
structure Timed (game : TimedGame) : Prop where
  valid : Valid game.state
  seated : Seated game.state
  missed : ∀ p pl, game.state.player? p = some pl → pl.playerType = .human → Missed game p pl

theorem Timed.start {env : Env} {input : CreateInitialGameStateInput} {start : GameEngineState}
    (hi : ValidInput input) (hstart : createInitialGameState env input = .ok start) :
    Timed ⟨start, []⟩ := by
  refine ⟨createInitialGameState_valid hi hstart, (createInitialGameState_seated hi hstart).1, ?_⟩
  intro p pl hpl _
  simp only [createInitialGameState, bind_eq_ok, orThrow_eq_ok, pure_eq_ok] at hstart
  obtain ⟨first, _, rfl⟩ := hstart
  obtain ⟨joined, _, rfl⟩ := List.mem_map.mp (GameEngineState.player?_mem hpl)
  refine ⟨rfl, rfl, List.Pairwise.nil, Nat.zero_le _, List.forall_mem_nil _, fun _ _ htwo => ?_⟩
  cases htwo

/-- A human player who is listed after a command was listed before. -/
theorem Executes.listed (hv : Valid game.state) (h : Executes game input ambient game')
    {pl' : GameEnginePlayer} (hpl' : game'.state.player? p = some pl')
    (hhuman : pl'.playerType = .human) :
    ∃ pl, game.state.player? p = some pl ∧ pl.playerType = .human := by
  obtain ⟨r, hr, hcore, _⟩ := h.state
  have hfound := congrArg (fun s => GameEngineState.player? s p) hcore
  rw [core_player?, core_player?, hpl'] at hfound
  obtain ⟨next, hnext, hsame⟩ := Option.map_eq_some_iff.mp hfound.symm
  have hrecord := accepted_missedRecord hv hr p
  rw [hnext] at hrecord
  obtain ⟨pl, hpl, hsame'⟩ := Option.map_eq_some_iff.mp hrecord.symm
  refine ⟨pl, hpl, ?_⟩
  have htype : (unmissed next).playerType = (unmissed pl').playerType :=
    congrArg GameEnginePlayer.playerType hsame
  have htype' : pl.playerType = next.playerType := congrArg (fun record => record.2.1) hsame'
  exact htype'.trans (htype.trans hhuman)

theorem Timed.step (h : Timed game) {i : TimedInput} {o : List Unit}
    (hstep : TimedSteps game i o game') : Timed game' := by
  obtain ⟨input, ambient, hexec, _⟩ := hstep.timeout
  obtain ⟨result, hupdate, _⟩ := id hexec
  refine ⟨updated_valid h.valid hupdate, updated_seated h.valid h.seated hupdate, ?_⟩
  intro p pl' hpl' hhuman'
  obtain ⟨pl, hpl, hhuman⟩ := hexec.listed h.valid hpl' hhuman'
  obtain ⟨found, hfound, _, hmissed⟩ :=
    Missed.step h.valid h.seated hpl hhuman (h.missed p pl hpl hhuman) hstep
  cases hfound.symm.trans hpl'
  exact hmissed

/-- A forfeit is due: time is left, no debt is pending, and the player on turn is a human whose
counter has reached two. -/
structure ForfeitDue (s : GameEngineState) (ambient : Ambient) (p : RoomPlayerId) : Prop where
  inProgress : InProgress s
  time : isDue ambient.engine.now s.expiresAt = false ∧ isDue ambient.now s.expiresAt = false
  noDebt : s.phase ≠ .awaitingDebtResolution
  player : ∃ pl, OnTurn s p pl ∧ pl.playerType = .human ∧ 2 ≤ pl.consecutiveMissedTurns

theorem shouldForfeitCurrentPlayer_iff (ho : OnTurn s p pl) :
    shouldForfeitCurrentPlayer s pl = true ↔
      pl.playerType = .human ∧ 2 ≤ pl.consecutiveMissedTurns := by
  have hcount : getConsecutiveMissedTurns s pl.roomPlayerId = pl.consecutiveMissedTurns := by
    unfold getConsecutiveMissedTurns
    rw [GameEngineState.player?_id ho.player, ho.player]
    rfl
  simp [shouldForfeitCurrentPlayer, hcount, maxConsecutiveMissedTurns]

theorem forfeited?_iff : forfeited? s (.timeout ambient) = some p ↔ ForfeitDue s ambient p := by
  simp only [forfeited?]
  constructor
  · intro h
    split at h
    · rename_i q creditor hplayed
      cases h
      obtain ⟨input, hinput, hintent⟩ := Option.map_eq_some_iff.mp hplayed
      obtain ⟨intent, hchosen, rfl⟩ := Option.map_eq_some_iff.mp hinput
      have heq := playedIntent_of_actor (p := p) (by rw [hintent]; rfl)
      rw [hintent] at heq
      dsimp only at heq
      rw [← heq] at hchosen hintent
      obtain ⟨rfl, hprogress, htime, hdebt, pl, ho, hforfeit⟩ :=
        chooseTimeoutIntent_forfeit.mp hchosen
      refine ⟨hprogress, ⟨htime, ?_⟩, hdebt, pl, ho,
        (shouldForfeitCurrentPlayer_iff ho).mp hforfeit⟩
      unfold playedIntent getEffectiveIntentForCurrentTime at hintent
      rw [if_neg (by simp [GameEngineIntent.type, hprogress.1, hprogress.2])] at hintent
      by_contra hdue
      rw [if_pos (by simpa using hdue)] at hintent
      cases hintent
    · cases h
  · intro hdue
    obtain ⟨pl, ho, hforfeit⟩ := hdue.player
    have hchosen : chooseTimeoutIntent ambient.engine s ambient.dice =
        some (.declareBankruptcy p none) :=
      chooseTimeoutIntent_forfeit.mpr ⟨rfl, hdue.inProgress, hdue.time.1, hdue.noDebt, pl, ho,
        (shouldForfeitCurrentPlayer_iff ho).mpr hforfeit⟩
    unfold timeoutCommand
    rw [hchosen]
    dsimp only [Option.map_some]
    unfold playedIntent getEffectiveIntentForCurrentTime
    rw [if_neg (by simp [GameEngineIntent.type, hdue.inProgress.1, hdue.inProgress.2]),
      if_neg (by simp [hdue.time.2])]

/-- Every forfeit comes while the second missed turn goes on: the turn does not pass on from a
player with two missed turns without a command of that player. -/
theorem ForfeitDue.second (h : Timed game) (hdue : ForfeitDue game.state ambient p) :
    game.state.turnNumber ∈ missedTurns p game.history ∧
      (missedTurns p game.history).length = 2 := by
  obtain ⟨pl, ho, hhuman, htwo⟩ := hdue.player
  have hm := h.missed p pl ho.player hhuman
  have hlength : (missedTurns p game.history).length = 2 :=
    Nat.le_antisymm hm.few (hm.count ▸ htwo)
  obtain ⟨_, hmem, _⟩ := hm.stuck hdue.inProgress ho.active hlength
  exact ⟨hmem, hlength⟩

/-- Every forfeit of a step is right: the timer acted in three distinct consecutive turns of the
player, not during the second one, and not for another player's bid. -/
def Forfeits (game : TimedGame) (i : TimedInput) (_ : List Unit) (_ : TimedGame) : Prop :=
  ∀ p, forfeited? game.state i = some p → ForfeitedRightly game p

/-- No forfeit is due. -/
def NoForfeit (game : TimedGame) : TimedInput → Prop
  | .command _ _ => True
  | .timeout ambient => ∀ p, ¬ ForfeitDue game.state ambient p

theorem forfeits_iff (h : Timed game) {i : TimedInput} {o : List Unit} :
    Forfeits game i o game' ↔ NoForfeit game i := by
  cases i with
  | command => exact iff_of_true nofun trivial
  | timeout ambient =>
    constructor
    · intro hright p hdue
      exact (hright p (forfeited?_iff.mpr hdue)).notSecond (hdue.second h)
    · intro hnone p hforfeited
      exact absurd (forfeited?_iff.mp hforfeited) (hnone p)

/-- The forfeits of a run are right only if there are none. -/
theorem forfeits_rightly {env : Env} {input : CreateInitialGameStateInput} {start : GameEngineState}
    (hi : ValidInput input) (hstart : createInitialGameState env input = .ok start)
    {inputs : List TimedInput} {outputs : List Unit} :
    Run (fun s i o t => TimedSteps s i o t ∧ Forfeits s i o t) ⟨start, []⟩ inputs outputs game ↔
      Run (Guarded TimedSteps NoForfeit) ⟨start, []⟩ inputs outputs game := by
  refine Run.good_iff_guarded (I := Timed) ?_ ?_ (Timed.start hi hstart)
  · intro s i o t hs _
    exact forfeits_iff hs
  · intro s i o t hs hstep _
    exact hs.step hstep

end Step

/-! ## Runs played -/

/-- The game after a command that is accepted. -/
def executed (game : TimedGame) (input : ExecuteGameIntentCommand) (ambient : Ambient) :
    Option (TimedGame × List Unit) :=
  match GameCommandsService.updater input ambient game.state with
  | .ok (state, _) =>
    some (⟨state, game.history ++ [acceptedCommand game.state input ambient]⟩, [])
  | .error _ => none

/-- The commands of the players and the timeouts, executed. -/
def timedStep (game : TimedGame) : TimedInput → Option (TimedGame × List Unit)
  | .command input ambient =>
    if (assertIntentActorMatchesCommand input).toOption = some () ∧
        input.source.getD .player = .player then executed game input ambient
    else none
  | .timeout ambient =>
    (timeoutCommand game.state ambient).bind fun input => executed game input ambient

/-- What happens at a time, with the dice the timer would throw then. -/
def atTime (now : Nat) (dice : DiceRoll) : Ambient where
  now := now
  engine := ⟨now, "trade"⟩
  deadlineNow := now
  renewedNow := now
  dice := dice
  failure := none

/-- A command a player sends. -/
def sent (p : RoomPlayerId) (intent : GameEngineIntent) (now : Nat) : TimedInput :=
  .command ⟨some p, intent, none⟩ (atTime now (1, 1))

section Play

variable {game game' : TimedGame} {input : ExecuteGameIntentCommand} {ambient : Ambient}

theorem executed_eq_some {outputs : List Unit}
    (h : executed game input ambient = some (game', outputs)) :
    outputs = [] ∧ Executes game input ambient game' := by
  unfold executed at h
  split at h
  · rename_i state result hupdate
    cases h
    exact ⟨rfl, result, hupdate, rfl⟩
  · cases h

theorem noForfeit_iff {i : TimedInput} : NoForfeit game i ↔ forfeited? game.state i = none := by
  cases i with
  | command => exact iff_of_true trivial rfl
  | timeout ambient =>
    rw [Option.eq_none_iff_forall_ne_some]
    exact forall_congr' fun p => not_congr forfeited?_iff.symm

theorem timedStep_eq_some {i : TimedInput} {outputs : List Unit}
    (h : timedStep game i = some (game', outputs)) : TimedSteps game i outputs game' := by
  cases i with
  | command input ambient =>
    simp only [timedStep] at h
    split at h
    · rename_i hmay
      obtain ⟨rfl, hexec⟩ := executed_eq_some h
      refine ⟨rfl, ⟨?_, ?_⟩, hexec⟩
      · cases hassert : assertIntentActorMatchesCommand input with
        | ok => rfl
        | error =>
          rw [hassert] at hmay
          cases hmay.1
      · rw [hmay.2]
        trivial
    · cases h
  | timeout ambient =>
    obtain ⟨input, hinput, hplayed⟩ := Option.bind_eq_some_iff.mp h
    obtain ⟨rfl, hexec⟩ := executed_eq_some hplayed
    exact ⟨rfl, input, hinput, hexec⟩

end Play

/-- The first player misses its first turn, the two others play theirs, and the timer rolls for the
first player once more. -/
def missedTwice : List TimedInput :=
  [.timeout (atTime 90000 (1, 3)), .timeout (atTime 180000 (1, 1)),
    sent ⟨2⟩ (.rollAndMove ⟨2⟩ [.int 1, .int 3]) 181000, sent ⟨2⟩ (.endTurn ⟨2⟩) 182000,
    sent ⟨3⟩ (.rollAndMove ⟨3⟩ [.int 1, .int 3]) 183000, sent ⟨3⟩ (.endTurn ⟨3⟩) 184000,
    .timeout (atTime 274000 (2, 4))]

/-- Two turns missed, and no forfeit so far. -/
theorem threePlayers_missedTwice : ∃ start outputs game,
    createInitialGameState ⟨0, "room"⟩ threePlayers = .ok start ∧
    Run (fun s i o t => TimedSteps s i o t ∧ Forfeits s i o t) ⟨start, []⟩ missedTwice outputs
      game ∧
    (missedTurns ⟨1⟩ game.history).length = 2 := by
  obtain ⟨start, hstart, htest⟩ := exists_ok_of_any (by decide +kernel :
    (createInitialGameState ⟨0, "room"⟩ threePlayers).toOption.any (fun start =>
      (Trace.play (fun game i => if forfeited? game.state i = none then timedStep game i else none)
        ⟨start, []⟩ missedTwice).any fun last =>
          decide ((missedTurns ⟨1⟩ last.1.history).length = 2)) = true)
  obtain ⟨⟨game, outputs⟩, hplay, hlength⟩ := (Option.any_eq_true _ _).mp htest
  refine ⟨start, outputs, game, hstart, (forfeits_rightly threePlayers_valid hstart).mpr ?_,
    of_decide_eq_true hlength⟩
  refine (Trace.play_guarded hplay).mono ?_
  rintro s i o t ⟨hstep, hnone⟩
  exact ⟨timedStep_eq_some hstep, noForfeit_iff.mpr hnone⟩

/-- The next timeout forfeits the first player in the second turn it misses. -/
theorem threePlayers_forfeited : ∃ start outputs game outputs' game',
    createInitialGameState ⟨0, "room"⟩ threePlayers = .ok start ∧
    Run TimedSteps ⟨start, []⟩ missedTwice outputs game ∧
    TimedSteps game (.timeout (atTime 364000 (1, 1))) outputs' game' ∧
    forfeited? game.state (.timeout (atTime 364000 (1, 1))) = some ⟨1⟩ ∧
    ¬ ForfeitedRightly game ⟨1⟩ := by
  obtain ⟨start, hstart, htest⟩ := exists_ok_of_any (by decide +kernel :
    (createInitialGameState ⟨0, "room"⟩ threePlayers).toOption.any (fun start =>
      (Trace.play timedStep ⟨start, []⟩ missedTwice).any fun last =>
        (timedStep last.1 (.timeout (atTime 364000 (1, 1)))).any fun _ =>
          decide (forfeited? last.1.state (.timeout (atTime 364000 (1, 1))) = some ⟨1⟩ ∧
            last.1.state.turnNumber ∈ missedTurns ⟨1⟩ last.1.history ∧
            (missedTurns ⟨1⟩ last.1.history).length = 2)) = true)
  obtain ⟨⟨game, outputs⟩, hplay, htimeout⟩ := (Option.any_eq_true _ _).mp htest
  obtain ⟨⟨game', outputs'⟩, hstep, hfound⟩ := (Option.any_eq_true _ _).mp htimeout
  obtain ⟨hforfeited, hsecond⟩ := of_decide_eq_true hfound
  refine ⟨start, outputs, game, outputs', game', hstart, ?_, timedStep_eq_some hstep, hforfeited,
    fun hright => hright.notSecond hsecond⟩
  exact (Trace.play_run hplay).mono fun _ _ _ _ h => timedStep_eq_some h

end Rules
end LivePoly
