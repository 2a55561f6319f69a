import LivePoly.Rules.Landing

/-!
# Rules.Turn

The moves of a turn: rolling the dice, getting out of jail or staying in it, ending the turn.
Rolling is a chain: perhaps out of jail, then to a tile, then what is met there.
-/

namespace LivePoly
namespace Rules

open Engine Checked

/-- The phases in which the dice are rolled. -/
def AwaitsRoll (s : GameEngineState) : Prop :=
  s.phase = .awaitingFirstTurn ∨ s.phase = .awaitingRoll

/-! ## States and events of the moves -/

/-- The record of a player who moved `steps` tiles. -/
def movedPlayer (board : GameBoard) (steps : Nat) (pl : GameEnginePlayer) : GameEnginePlayer :=
  { pl with
    position := (pl.position + steps) % board.tiles.length
    cash :=
      if board.tiles.length ≤ pl.position + steps then pl.cash + board.passGoCash else pl.cash }

/-- The bookkeeping of doubles; a roll out of jail suppresses it. -/
def doublesState (s : GameEngineState) (dice : DiceRoll) (suppressDoubles : Bool) :
    GameEngineState :=
  if suppressDoubles then clearDoubles s else applyDoublesState s dice

/-- The state when a player reached a tile with the dice. -/
def movedState (s : GameEngineState) (p : RoomPlayerId) (dice : DiceRoll)
    (suppressDoubles : Bool) (tile : GameTile) : GameEngineState :=
  { doublesState s dice suppressDoubles with
    phase := if isOwnableAndUnowned s tile then .awaitingPropertyDecision else .awaitingTurnEnd
    pendingTileKey := if isOwnableAndUnowned s tile then some tile.key else none
    lastDiceRoll := some dice }.updatePlayer p (movedPlayer s.board (dice.1 + dice.2))

/-- The events of reaching a tile with the dice. -/
def movedEvents (s : GameEngineState) (p : RoomPlayerId) (pl : GameEnginePlayer)
    (dice : DiceRoll) (suppressDoubles : Bool) (tile : GameTile) : List GameEngineEvent :=
  (if !suppressDoubles && isDoubles dice then
    [.playerRolledDoubles p (doublesState s dice suppressDoubles).consecutiveDoublesCount]
    else []) ++
  [.playerMoved p pl.position ((pl.position + (dice.1 + dice.2)) % s.board.tiles.length) dice] ++
  (if s.board.tiles.length ≤ pl.position + (dice.1 + dice.2) then
    [.playerPassedGo p s.board.passGoCash] else []) ++
  [.playerLandedOnTile p tile.key tile.kind]

/-- The record of a player who leaves jail. -/
def leaveJail (pl : GameEnginePlayer) : GameEnginePlayer :=
  { pl with inJail := false, jailTurnCount := 0 }

/-- The record of a player who pays the fine and leaves jail. -/
def payFine (pl : GameEnginePlayer) : GameEnginePlayer :=
  leaveJail { pl with cash := pl.cash + -jailFineAmount }

/-- The debt of a fine the player cannot pay. -/
def fineDebt (p : RoomPlayerId) : GameEngineDebt := ⟨p, none, jailFineAmount, .jailFine⟩

/-- What the player `p` on turn, whose record is `pl`, does in a turn. -/
inductive Turn (p : RoomPlayerId) (pl : GameEnginePlayer) (s : GameEngineState) :
    List GameEngineEvent → GameEngineState → Prop
  | moved {dice : DiceRoll} {suppressDoubles : Bool} {tile : GameTile} (hphase : AwaitsRoll s)
      (hfree : pl.inJail = false)
      (htile : s.board.tiles[(pl.position + (dice.1 + dice.2)) % s.board.tiles.length]? =
        some tile) :
      Turn p pl s (movedEvents s p pl dice suppressDoubles tile)
        (movedState s p dice suppressDoubles tile)
  | thirdDoubles {dice : DiceRoll} (hphase : AwaitsRoll s) (hfree : pl.inJail = false) :
      Turn p pl s
        [.playerRolledDoubles p 3, .playerRolledThirdDoubles p,
          .playerSentToJail p s.board.jailPosition]
        { (sendPlayerToJail s p).state with lastDiceRoll := some dice }
  | escaped {dice : DiceRoll} (hphase : AwaitsRoll s) (hjail : pl.inJail = true) :
      Turn p pl s [.jailEscapeRollSucceeded p dice, .playerReleasedFromJail p]
        (clearDoubles (s.updatePlayer p leaveJail))
  | stayed {dice : DiceRoll} (hphase : AwaitsRoll s) (hjail : pl.inJail = true)
      (hcount : pl.jailTurnCount + 1 < maxJailTurnCount) :
      Turn p pl s [.jailEscapeRollFailed p dice (pl.jailTurnCount + 1)]
        (setJailTurnCount
          { s with
            phase := .awaitingTurnEnd
            lastDiceRoll := some dice
            consecutiveDoublesCount := 0
            shouldCurrentPlayerPlayAgain := false } p (pl.jailTurnCount + 1))
  | forcedFine {dice : DiceRoll} (hphase : AwaitsRoll s) (hjail : pl.inJail = true)
      (hcount : maxJailTurnCount ≤ pl.jailTurnCount + 1) (hcash : jailFineAmount ≤ pl.cash) :
      Turn p pl s
        [.jailEscapeRollFailed p dice (pl.jailTurnCount + 1),
          .jailForcedFinePaid p jailFineAmount, .playerReleasedFromJail p]
        (s.updatePlayer p payFine)
  | fineOwed {dice : DiceRoll} (hphase : AwaitsRoll s) (hjail : pl.inJail = true)
      (hcount : maxJailTurnCount ≤ pl.jailTurnCount + 1) (hcash : pl.cash < jailFineAmount) :
      Turn p pl s
        [.jailEscapeRollFailed p dice (pl.jailTurnCount + 1), paymentRequired (fineDebt p)]
        (setJailTurnCount { createDebtState s (fineDebt p) with lastDiceRoll := some dice } p
          (pl.jailTurnCount + 1))
  | finePaid (hjail : pl.inJail = true) (hcash : jailFineAmount ≤ pl.cash) :
      Turn p pl s [.jailFinePaid p jailFineAmount, .playerReleasedFromJail p]
        (s.updatePlayer p payFine)
  | cardUsed {decks : GameEngineDecks} (hjail : pl.inJail = true)
      (hcards : 0 < pl.getOutOfJailFreeCards)
      (hreturn : returnGetOutOfJailCardToDeck s pl.getOutOfJailFreeCardKeys.head? =
        .ok { s with decks }) :
      Turn p pl s [.getOutOfJailCardUsed p, .playerReleasedFromJail p]
        ({ s with decks }.updatePlayer p fun x =>
          leaveJail
            { x with
              getOutOfJailFreeCards := x.getOutOfJailFreeCards - 1
              getOutOfJailFreeCardKeys := pl.getOutOfJailFreeCardKeys.tail })
  | playsAgain (hphase : s.phase = .awaitingTurnEnd)
      (hagain : s.shouldCurrentPlayerPlayAgain = true) :
      Turn p pl s [.turnEnded p p s.turnNumber]
        { s with
          phase := .awaitingRoll
          lastDiceRoll := none
          tradeOffer := none
          shouldCurrentPlayerPlayAgain := false }
  | passesTurn {next : GameEnginePlayer} (hphase : s.phase = .awaitingTurnEnd)
      (hagain : s.shouldCurrentPlayerPlayAgain = false)
      (hnext : findNextActivePlayer s = .ok next) :
      Turn p pl s [.turnEnded p next.roomPlayerId (s.turnNumber + 1)]
        { s with
          phase := .awaitingRoll
          turnNumber := s.turnNumber + 1
          currentTurnRoomPlayerId := next.roomPlayerId
          consecutiveDoublesCount := 0
          shouldCurrentPlayerPlayAgain := false
          lastDiceRoll := none
          tradeOffer := none }

/-- A move of the player on turn. -/
def TurnStep (p : RoomPlayerId) (s : GameEngineState) (events : List GameEngineEvent)
    (s' : GameEngineState) : Prop :=
  ∃ pl, OnTurn s p pl ∧ Turn p pl s events s'

/-- The steps of a roll. -/
def RollStep (p : RoomPlayerId) (s : GameEngineState) (events : List GameEngineEvent)
    (s' : GameEngineState) : Prop :=
  AwaitsRoll s ∧ TurnStep p s events s' ∨ LandingStep p s events s'

/-! ## Moving -/

/-- No doubles are counted and the turn is not repeated. -/
def Cleared (s : GameEngineState) : Prop :=
  s.consecutiveDoublesCount = 0 ∧ s.shouldCurrentPlayerPlayAgain = false

theorem clearDoubles_of_cleared {s : GameEngineState} (h : Cleared s) : clearDoubles s = s := by
  obtain ⟨hcount, hagain⟩ := h
  cases s
  simp_all [clearDoubles]

theorem LandingStep.cleared {p : RoomPlayerId} {s s' : GameEngineState}
    {events : List GameEngineEvent} (hc : Cleared s) (h : LandingStep p s events s') :
    Cleared s' := by
  obtain ⟨pl, _, hland⟩ := h
  cases hland with
  | taxPaid | rentPaid | cardSettled | cardKept => exact hc
  | sentToJail | cardJailed => exact ⟨rfl, rfl⟩
  | owes | cardOwed => exact ⟨hc.1, rfl⟩
  | cardMoved =>
    unfold cardMovedState
    dsimp only
    split
    · exact hc
    · exact hc

/-- The dice have been rolled in `s`: the player is still on turn and may roll again only if one
more double is counted. -/
structure Rolled (s s' : GameEngineState) : Prop where
  turnNumber : s'.turnNumber = s.turnNumber
  current : s'.currentTurnRoomPlayerId = s.currentTurnRoomPlayerId
  phase : ¬ AwaitsRoll s'
  again : s'.shouldCurrentPlayerPlayAgain = true →
    s'.consecutiveDoublesCount = s.consecutiveDoublesCount + 1
  doubles : s.consecutiveDoublesCount < 3 → s'.consecutiveDoublesCount < 3

/-- `AwaitsRoll`, of a phase. -/
def isRollPhase : GamePhase → Bool
  | .awaitingFirstTurn | .awaitingRoll => true
  | _ => false

theorem Rolled.of_cleared {s t s' : GameEngineState} (h : Rolled t s') (hc : Cleared s')
    (hturn : t.turnNumber = s.turnNumber)
    (hcurrent : t.currentTurnRoomPlayerId = s.currentTurnRoomPlayerId) : Rolled s s' where
  turnNumber := h.turnNumber.trans hturn
  current := h.current.trans hcurrent
  phase := h.phase
  again := fun hagain => by rw [hc.2] at hagain; cases hagain
  doubles := fun _ => by rw [hc.1]; exact Nat.zero_lt_succ 2

theorem not_awaitsRoll {s : GameEngineState} (h : isRollPhase s.phase = false) :
    ¬ AwaitsRoll s := by
  rintro (hphase | hphase)
  · rw [hphase] at h
    cases h
  · rw [hphase] at h
    cases h

theorem LandingStep.rolled {p : RoomPlayerId} {s t t' : GameEngineState}
    {events : List GameEngineEvent} (hr : Rolled s t) (h : LandingStep p t events t') :
    Rolled s t' := by
  obtain ⟨pl, _, hland⟩ := h
  cases hland with
  | taxPaid | rentPaid | cardSettled | cardKept =>
    exact ⟨hr.turnNumber, hr.current, hr.phase, hr.again, hr.doubles⟩
  | sentToJail | cardJailed =>
    refine ⟨hr.turnNumber, hr.current, not_awaitsRoll rfl, ?_, fun _ => Nat.zero_lt_succ 2⟩
    intro hagain
    cases hagain
  | owes | cardOwed =>
    refine ⟨hr.turnNumber, hr.current, not_awaitsRoll rfl, ?_, hr.doubles⟩
    intro hagain
    cases hagain
  | cardMoved =>
    unfold cardMovedState
    dsimp only
    split
    · exact ⟨hr.turnNumber, hr.current, not_awaitsRoll rfl, hr.again, hr.doubles⟩
    · exact ⟨hr.turnNumber, hr.current, not_awaitsRoll rfl, hr.again, hr.doubles⟩

section Code

variable {s : GameEngineState} {p : RoomPlayerId} {pl : GameEnginePlayer}

theorem doublesState_eq (s : GameEngineState) (dice : DiceRoll) (suppressDoubles : Bool) :
    ∃ count again, doublesState s dice suppressDoubles =
      { s with consecutiveDoublesCount := count, shouldCurrentPlayerPlayAgain := again } := by
  unfold doublesState applyDoublesState clearDoubles
  split
  · exact ⟨_, _, rfl⟩
  · split <;> exact ⟨_, _, rfl⟩

theorem movedEvents_settled (dice : DiceRoll) (suppressDoubles : Bool) (tile : GameTile) :
    Settled (movedEvents s p pl dice suppressDoubles tile) := by
  apply settled_concat
  intro _ _ _ _ h
  cases h

theorem funded_movedState (hf : Funded s) (ho : OnTurn s p pl) (dice : DiceRoll)
    (suppressDoubles : Bool) (tile : GameTile) :
    Funded (movedState s p dice suppressDoubles tile) := by
  obtain ⟨count, again, hdoubles⟩ := doublesState_eq s dice suppressDoubles
  have hpl0 : 0 ≤ pl.cash := hf.cash pl (GameEngineState.player?_mem ho.player)
  unfold movedState
  rw [hdoubles]
  refine hf.update ho.player rfl (fun _ => rfl) ?_
  simp only [movedPlayer, GameEngineState.board_eq, classicGameBoard]
  split <;> omega

theorem arrived_movedState (ho : OnTurn s p pl) (hfree : pl.inJail = false) (dice : DiceRoll)
    (suppressDoubles : Bool) {tile : GameTile} (htile : isOwnableAndUnowned s tile = false) :
    Arrived (movedState s p dice suppressDoubles tile) p
      (movedPlayer s.board (dice.1 + dice.2) pl) := by
  obtain ⟨count, again, hdoubles⟩ := doublesState_eq s dice suppressDoubles
  have hplayer : (s.updatePlayer p (movedPlayer s.board (dice.1 + dice.2))).player? p =
      some (movedPlayer s.board (dice.1 + dice.2) pl) := by
    rw [GameEngineState.player?_updatePlayer, if_pos rfl, ho.player]
    · rfl
    · intro _; rfl
  unfold movedState
  rw [hdoubles, htile]
  exact {
    player := hplayer
    active := ho.active
    current := ho.current
    free := hfree
    phase := rfl }

theorem movedState_rolled {dice : DiceRoll} {suppressDoubles : Bool} {tile : GameTile}
    (hthird : ¬ (!suppressDoubles && isThirdConsecutiveDoubles s dice) = true) :
    Rolled s (movedState s p dice suppressDoubles tile) := by
  have hphase : ¬ AwaitsRoll (movedState s p dice suppressDoubles tile) := by
    cases hown : isOwnableAndUnowned s tile with
    | true =>
      refine not_awaitsRoll ?_
      change isRollPhase (if isOwnableAndUnowned s tile then _ else _) = false
      rw [hown]
      rfl
    | false =>
      refine not_awaitsRoll ?_
      change isRollPhase (if isOwnableAndUnowned s tile then _ else _) = false
      rw [hown]
      rfl
  cases suppressDoubles with
  | true =>
    refine ⟨rfl, rfl, hphase, ?_, fun _ => Nat.zero_lt_succ 2⟩
    intro hagain
    cases hagain
  | false =>
    have hmoved : movedState s p dice false tile =
        { applyDoublesState s dice with
          phase := if isOwnableAndUnowned s tile then .awaitingPropertyDecision
            else .awaitingTurnEnd
          pendingTileKey := if isOwnableAndUnowned s tile then some tile.key else none
          lastDiceRoll := some dice }.updatePlayer p (movedPlayer s.board (dice.1 + dice.2)) := rfl
    unfold applyDoublesState at hmoved
    rw [hmoved] at hphase ⊢
    by_cases hdoubles : isDoubles dice = true
    · rw [if_pos hdoubles] at hphase ⊢
      have hcount : ¬ 3 ≤ s.consecutiveDoublesCount + 1 := by
        simpa [isThirdConsecutiveDoubles, hdoubles] using hthird
      exact ⟨rfl, rfl, hphase, fun _ => rfl, fun _ => Nat.lt_of_not_le hcount⟩
    · rw [if_neg hdoubles] at hphase ⊢
      refine ⟨rfl, rfl, hphase, ?_, fun _ => Nat.zero_lt_succ 2⟩
      intro hagain
      cases hagain

/-- A roll outside jail is a third double, or a move followed by landings. -/
theorem rollAndMoveIgnoringJail_steps (hf : Funded s) (ho : OnTurn s p pl) (hphase : AwaitsRoll s)
    (hfree : pl.inJail = false) {dice : DiceRoll} {suppressDoubles : Bool}
    {r : GameEngineResult} (h : rollAndMoveIgnoringJail s p dice suppressDoubles = .ok r) :
    Trace.Chain (RollStep p) Settled s r.events r.state ∧ Rolled s r.state ∧
      (suppressDoubles = true → Cleared r.state) := by
  unfold rollAndMoveIgnoringJail at h
  obtain ⟨count, again, hdoubles⟩ := doublesState_eq s dice suppressDoubles
  split at h
  · rename_i hthird
    cases h
    obtain ⟨count, again, happly⟩ := doublesState_eq s dice false
    change applyDoublesState s dice = _ at happly
    rw [happly]
    refine ⟨.single (.inl ⟨hphase, pl, ho, ?_⟩), ?_, fun _ => ⟨rfl, rfl⟩⟩
    · exact .thirdDoubles hphase hfree
    · refine ⟨rfl, rfl, not_awaitsRoll rfl, ?_, fun _ => Nat.zero_lt_succ 2⟩
      intro hagain
      cases hagain
  · rename_i hthird
    dsimp only at h
    have hfold : (if suppressDoubles = true then clearDoubles s else applyDoublesState s dice) =
        doublesState s dice suppressDoubles := rfl
    rw [hfold] at h
    simp only [bind_eq_ok, findPlayer_eq_ok, pure_eq_ok] at h
    obtain ⟨pl', hpl', tile, htile, landing, hlanding, rfl⟩ := h
    have hsame : pl' = pl := by
      rw [hdoubles] at hpl'
      exact Option.some.inj (hpl'.symm.trans ho.player)
    subst hsame
    simp only [getTile, orThrow_eq_ok, jsIndex] at htile
    rw [if_pos (Int.natCast_nonneg _), Int.toNat_natCast] at htile
    have hmove : Turn p pl' s (movedEvents s p pl' dice suppressDoubles tile)
        (movedState s p dice suppressDoubles tile) := .moved hphase hfree htile
    have hown : isOwnableAndUnowned (doublesState s dice suppressDoubles) tile =
        isOwnableAndUnowned (movedState s p dice suppressDoubles tile) tile := by
      unfold movedState
      rw [hdoubles]
      rfl
    have hmoved : ({ doublesState s dice suppressDoubles with
        phase := if isOwnableAndUnowned (doublesState s dice suppressDoubles) tile
          then .awaitingPropertyDecision else .awaitingTurnEnd
        pendingTileKey := if isOwnableAndUnowned (doublesState s dice suppressDoubles) tile
          then some tile.key else none
        lastDiceRoll := some dice }.updatePlayer p fun player =>
          { player with
            position := (player.position + (dice.1 + dice.2)) % s.board.tiles.length
            cash :=
              if s.board.tiles.length ≤ player.position + (dice.1 + dice.2) then
                player.cash + s.board.passGoCash
              else player.cash }) = movedState s p dice suppressDoubles tile := by
      unfold movedState
      rw [hdoubles]
      rfl
    rw [hmoved, hown] at hlanding
    have harrived : isOwnableAndUnowned (movedState s p dice suppressDoubles tile) tile = false →
        Arrived (movedState s p dice suppressDoubles tile) p
          (movedPlayer s.board (dice.1 + dice.2) pl') := by
      intro hfree'
      refine arrived_movedState ho hfree dice suppressDoubles ?_
      rw [← hfree', ← hown, hdoubles]
      rfl
    have hland := resolveLanding_landings (funded_movedState hf ho dice suppressDoubles tile)
      harrived hlanding
    refine ⟨.cons (.inl ⟨hphase, pl', ho, hmove⟩) (hland.mono fun _ _ _ hstep => .inr hstep)
      (.inr (movedEvents_settled dice suppressDoubles tile)), ?_, ?_⟩
    · exact hland.invariant (fun _ _ _ hr hstep => hstep.rolled hr) (movedState_rolled hthird)
    rintro rfl
    refine hland.invariant (fun _ _ _ hc hstep => hstep.cleared hc) ?_
    exact ⟨rfl, rfl⟩

/-! ## Jail -/

theorem releasePlayerFromJail_eq : releasePlayerFromJail s p = s.updatePlayer p leaveJail := rfl

theorem releasePlayerFromJail_fine :
    releasePlayerFromJail (s.addCash p (-jailFineAmount)) p = s.updatePlayer p payFine := by
  rw [releasePlayerFromJail_eq, GameEngineState.addCash, GameEngineState.updatePlayer_updatePlayer]
  · rfl
  · intro _; rfl

theorem releasePlayerFromJail_setJailTurnCount (jailTurnCount : Nat) :
    releasePlayerFromJail (setJailTurnCount (s.addCash p (-jailFineAmount)) p jailTurnCount) p =
      s.updatePlayer p payFine := by
  rw [← releasePlayerFromJail_fine, releasePlayerFromJail_eq, setJailTurnCount,
    GameEngineState.updatePlayer_updatePlayer]
  · rfl
  · intro _; rfl

theorem onTurn_update (ho : OnTurn s p pl) {s' : GameEngineState}
    {f : GameEnginePlayer → GameEnginePlayer}
    (hs : s'.players = Keyed.modify GameEnginePlayer.roomPlayerId s.players p f)
    (hf : ∀ x, (f x).roomPlayerId = x.roomPlayerId) (hactive : (f pl).bankrupt = pl.bankrupt)
    (hcurrent : s'.currentTurnRoomPlayerId = s.currentTurnRoomPlayerId) : OnTurn s' p (f pl) where
  player := by
    rw [GameEngineState.player?, hs, Keyed.find_modify_self _ hf]
    exact congrArg (Option.map f) ho.player
  active := hactive.trans ho.active
  current := hcurrent.trans ho.current

/-- A roll of a player in jail: out by doubles or by the fine and then a move, or no move. -/
theorem resolveJailedRoll_steps (hf : Funded s) (ho : OnTurn s p pl) (hphase : AwaitsRoll s)
    (hjail : pl.inJail = true) {dice : DiceRoll} {result : Option GameEngineResult}
    (h : resolveJailedRoll s p dice (fun released =>
      rollAndMoveIgnoringJail released p dice true) = .ok result) :
    ∃ r, result = some r ∧ Trace.Chain (RollStep p) Settled s r.events r.state ∧
      Rolled s r.state := by
  have hpl0 : 0 ≤ pl.cash := hf.cash pl (GameEngineState.player?_mem ho.player)
  simp only [resolveJailedRoll, findPlayer_eq_ok.mpr ho.player, ok_bind, hjail, Bool.not_true,
    Bool.false_eq_true, if_false] at h
  by_cases hdoubles : isDoubles dice = true
  · rw [if_pos hdoubles] at h
    simp only [bind_eq_ok, pure_eq_ok] at h
    obtain ⟨moved, hmoved, rfl⟩ := h
    refine ⟨_, rfl, ?_⟩
    have hout : Turn p pl s [.jailEscapeRollSucceeded p dice, .playerReleasedFromJail p]
        (clearDoubles (s.updatePlayer p leaveJail)) := .escaped hphase hjail
    have hf' : Funded (clearDoubles (s.updatePlayer p leaveJail)) :=
      hf.update ho.player rfl (fun _ => rfl) hpl0
    have ho' : OnTurn (clearDoubles (s.updatePlayer p leaveJail)) p (leaveJail pl) :=
      onTurn_update ho rfl (fun _ => rfl) rfl rfl
    obtain ⟨hchain, hrolled, hcleared⟩ := rollAndMoveIgnoringJail_steps hf' ho' hphase rfl hmoved
    rw [clearDoubles_of_cleared (hcleared rfl)]
    refine ⟨.cons (.inl ⟨hphase, pl, ho, hout⟩) hchain (.inr ?_),
      hrolled.of_cleared (hcleared rfl) rfl rfl⟩
    exact settled_concat [_] fun _ _ _ _ h => by cases h
  · rw [if_neg hdoubles] at h
    by_cases hcount : maxJailTurnCount ≤ pl.jailTurnCount + 1
    · rw [if_pos hcount] at h
      simp only [bind_eq_ok] at h
      obtain ⟨payment, hpay, h⟩ := h
      rcases (debitPlayerOrCreateDebt_eq_ok ho.player).mp hpay with
        ⟨_, ⟨hcash, rfl⟩ | ⟨hcash, rfl⟩⟩
      · simp only [Bool.not_true, Bool.false_eq_true, if_false, bind_eq_ok, pure_eq_ok] at h
        obtain ⟨moved, hmoved, rfl⟩ := h
        refine ⟨_, rfl, ?_⟩
        rw [releasePlayerFromJail_setJailTurnCount] at hmoved
        have hout : Turn p pl s
            [.jailEscapeRollFailed p dice (pl.jailTurnCount + 1),
              .jailForcedFinePaid p jailFineAmount, .playerReleasedFromJail p]
            (s.updatePlayer p payFine) := .forcedFine hphase hjail hcount hcash
        have hf' : Funded (s.updatePlayer p payFine) := by
          refine hf.update ho.player rfl (fun _ => rfl) ?_
          simp only [payFine, leaveJail]
          dsimp only at hcash
          omega
        have ho' : OnTurn (s.updatePlayer p payFine) p (payFine pl) :=
          onTurn_update ho rfl (fun _ => rfl) rfl rfl
        obtain ⟨hchain, hrolled, hcleared⟩ :=
          rollAndMoveIgnoringJail_steps hf' ho' hphase rfl hmoved
        rw [clearDoubles_of_cleared (hcleared rfl)]
        refine ⟨.cons (.inl ⟨hphase, pl, ho, hout⟩) hchain (.inr ?_),
          hrolled.of_cleared (hcleared rfl) rfl rfl⟩
        exact settled_concat [_, _] fun _ _ _ _ h => by cases h
      · simp only [Bool.not_false, if_true, pure_eq_ok] at h
        subst h
        refine ⟨_, rfl, .single (.inl ⟨hphase, pl, ho, .fineOwed hphase hjail hcount hcash⟩), ?_⟩
        refine ⟨rfl, rfl, not_awaitsRoll rfl, ?_, id⟩
        intro hagain
        cases hagain
    · rw [if_neg hcount] at h
      simp only [pure_eq_ok] at h
      subst h
      refine ⟨_, rfl, .single (.inl ⟨hphase, pl, ho, .stayed hphase hjail (by omega)⟩), ?_⟩
      refine ⟨rfl, rfl, not_awaitsRoll rfl, ?_, fun _ => Nat.zero_lt_succ 2⟩
      intro hagain
      cases hagain

theorem resolveJailedRoll_free (ho : OnTurn s p pl) (hfree : pl.inJail = false) {dice : DiceRoll}
    {move : GameEngineState → Checked GameEngineResult} :
    resolveJailedRoll s p dice move = .ok none := by
  simp only [resolveJailedRoll, findPlayer_eq_ok.mpr ho.player, ok_bind, hfree]
  rfl

/-- The whole of an accepted roll. -/
theorem rollAndMove_steps (hf : Funded s) (ho : OnTurn s p pl) (hphase : AwaitsRoll s)
    {dice : DiceRoll} {r : GameEngineResult} (h : rollAndMove s p dice = .ok r) :
    Trace.Chain (RollStep p) Settled s r.events r.state ∧ Rolled s r.state := by
  simp only [rollAndMove, bind_eq_ok] at h
  obtain ⟨result, hresult, h⟩ := h
  cases hjail : pl.inJail with
  | true =>
    obtain ⟨r', rfl, hchain⟩ := resolveJailedRoll_steps hf ho hphase hjail hresult
    simp only [pure_eq_ok] at h
    subst h
    exact hchain
  | false =>
    rw [resolveJailedRoll_free ho hjail] at hresult
    cases hresult
    obtain ⟨hchain, hrolled, _⟩ := rollAndMoveIgnoringJail_steps hf ho hphase hjail h
    exact ⟨hchain, hrolled⟩

theorem returnGetOutOfJailCardToDeck_decks {cardKey : Option CardKey} {s' : GameEngineState}
    (h : returnGetOutOfJailCardToDeck s cardKey = .ok s') : ∃ decks, s' = { s with decks } := by
  simp only [returnGetOutOfJailCardToDeck, bind_eq_ok, pure_eq_ok] at h
  obtain ⟨deckKey, _, rfl⟩ := h
  exact ⟨_, rfl⟩

/-! ## The end of the turn -/

theorem endTurn_turn (hphase : s.phase = .awaitingTurnEnd) {r : GameEngineResult}
    (h : endTurn s p = .ok r) : Turn p pl s r.events r.state := by
  unfold endTurn at h
  split at h
  · rename_i hagain
    cases h
    exact .playsAgain hphase hagain
  · rename_i hagain
    simp only [bind_eq_ok, pure_eq_ok] at h
    obtain ⟨next, hnext, rfl⟩ := h
    exact .passesTurn hphase (by simpa using hagain) hnext

end Code

end Rules
end LivePoly
