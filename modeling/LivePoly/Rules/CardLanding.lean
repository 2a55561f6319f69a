import LivePoly.Rules.Progress
import LivePoly.Rules.Reachable

/-!
# Rules.CardLanding

The two ways to arrive on a tile: by the dice and by a card. What follows on the tile is the same,
the bookkeeping of doubles apart, on every tile but those of the two decks: a player a card moves
there draws no card.
-/

namespace LivePoly
namespace Rules

open Engine Checked

/-! ## Arrivals -/

def isLandedOnTile : GameEngineEvent → Bool
  | .playerLandedOnTile _ _ _ => true
  | _ => false

/-- What follows once the player has landed; doubles are not looked at. -/
def consequence (r : GameEngineResult) : GameEngineResult where
  state := clearDoubles r.state
  events := (r.events.dropWhile fun event => !isLandedOnTile event).tail

/-- The player stands at another place with another sum of cash. -/
def placed (s : GameEngineState) (p : RoomPlayerId) (position : Nat) (bonus : Int) :
    GameEngineState :=
  s.updatePlayer p fun x => { x with position, cash := x.cash + bonus }

/-- What the card pays a player who passes Go on the way to the tile. -/
def cardGoCash (s : GameEngineState) (pl : GameEnginePlayer) (effect : GameCardEffect)
    (target : GameTile) : Int :=
  if collectsPassGo effect && target.index ≤ pl.position && target.index ≠ pl.position then
    s.board.passGoCash
  else 0

/-- What the board pays a player whom the dice lead past Go. -/
def diceGoCash (s : GameEngineState) (position : Nat) (dice : DiceRoll) : Int :=
  if s.board.tiles.length ≤ position + (dice.1 + dice.2) then s.board.passGoCash else 0

/-- The player has arrived, and nothing has followed yet. -/
def arrivedState (s : GameEngineState) (p : RoomPlayerId) (target : GameTile) (bonus : Int) :
    GameEngineState :=
  placed { s with phase := .awaitingTurnEnd, pendingTileKey := none } p target.index bonus

/-- The tail of `movePlayerToCardTile`: what happens on the tile the card led to. -/
def cardLanding (s : GameEngineState) (p : RoomPlayerId) (dice : DiceRoll) (target : GameTile) :
    Checked GameEngineResult :=
  if target.kind = .goToJail then .ok (sendPlayerToJail s p)
  else if target.kind = .tax then payTax s p target.key
  else if isOwnableAndUnowned s target then
    .ok {
      state := { s with phase := .awaitingPropertyDecision, pendingTileKey := some target.key }
      events := [] }
  else payRent s p target.key dice

section Arrivals

variable {s : GameEngineState} {p : RoomPlayerId} {pl : GameEnginePlayer} {dice : DiceRoll}
  {effect : GameCardEffect} {target : GameTile}

theorem consequence_append {events : List GameEngineEvent}
    (h : ∀ event ∈ events, isLandedOnTile event = false) (p : RoomPlayerId)
    (key : TileKey) (kind : GameTileKind) (r : GameEngineResult) :
    consequence ⟨r.state, events ++ [.playerLandedOnTile p key kind] ++ r.events⟩ =
      ⟨clearDoubles r.state, r.events⟩ := by
  unfold consequence
  rw [List.append_assoc, List.dropWhile_append_of_pos (by simpa using h)]
  rfl

theorem isLandedOnTile_moved (p : RoomPlayerId) (dice : DiceRoll) (from_ to_ : Nat)
    (passedGo : Prop) [Decidable passedGo] (amount : Int) :
    ∀ event ∈ [GameEngineEvent.playerMoved p from_ to_ dice] ++
      (if passedGo then [.playerPassedGo p amount] else []), isLandedOnTile event = false := by
  intro event hevent
  rcases List.mem_append.mp hevent with hmoved | hpassed
  · cases List.mem_singleton.mp hmoved
    rfl
  · split at hpassed
    · cases List.mem_singleton.mp hpassed
      rfl
    · cases hpassed

/-- A card brings the player to the tile, and what follows is what the card's dispatch says. -/
theorem card_consequence (hpl : s.player? p = some pl) (hdice : s.lastDiceRoll = some dice)
    (htarget : getCardMoveTargetTile s p effect = .ok (some target)) :
    (movePlayerToCardTile s p effect).map consequence =
      (cardLanding (arrivedState s p target (cardGoCash s pl effect target)) p dice target).map
        fun r => ⟨clearDoubles r.state, r.events⟩ := by
  have hcredited : ∀ passedGo : Bool, ∃ credited,
      (if passedGo = true then creditPlayer s p s.board.passGoCash else .ok s) = .ok credited ∧
      ({ credited with
          phase := .awaitingTurnEnd
          pendingTileKey := none }.updatePlayer p fun candidate =>
            { candidate with position := target.index }) =
        arrivedState s p target (if passedGo = true then s.board.passGoCash else 0) := by
    intro passedGo
    cases passedGo with
    | false =>
      refine ⟨s, rfl, ?_⟩
      simp [arrivedState, placed]
    | true =>
      refine ⟨s.addCash p s.board.passGoCash, creditPlayer_eq_ok.mpr ?_, ?_⟩
      · exact ⟨board_passGoCash, ⟨pl, hpl⟩, rfl⟩
      · unfold arrivedState placed GameEngineState.addCash GameEngineState.updatePlayer
        dsimp only
        rw [Keyed.modify_modify]
        · rfl
        · exact fun _ => rfl
  obtain ⟨credited, hok, harrived⟩ := hcredited
    (collectsPassGo effect && target.index ≤ pl.position && target.index ≠ pl.position)
  have hevents := isLandedOnTile_moved p dice pl.position target.index
    ((collectsPassGo effect && target.index ≤ pl.position && target.index ≠ pl.position : Bool) =
      true) s.board.passGoCash
  unfold movePlayerToCardTile
  dsimp only
  rw [findPlayer_eq_ok.mpr hpl, ok_bind, htarget, ok_bind]
  unfold orThrow
  rw [ok_bind, hok, ok_bind, harrived, hdice]
  dsimp only [Option.getD_some]
  unfold cardLanding cardGoCash
  generalize hmoved : arrivedState s p target _ = moved
  split
  · exact congrArg Except.ok (consequence_append hevents _ _ _ _)
  split
  · cases payTax moved p target.key with
    | error e => rfl
    | ok r => exact congrArg Except.ok (consequence_append hevents _ _ _ r)
  split
  · have hnothing := consequence_append hevents p target.key target.kind
      ⟨{ moved with phase := .awaitingPropertyDecision, pendingTileKey := some target.key }, []⟩
    rw [List.append_nil] at hnothing
    exact congrArg Except.ok hnothing
  · cases payRent moved p target.key dice with
    | error e => rfl
    | ok r => exact congrArg Except.ok (consequence_append hevents _ _ _ r)

/-! ## Doubles -/

/-- The count of doubles, and whether the player plays again. -/
def withDoubles (s : GameEngineState) (count : Nat) (again : Bool) : GameEngineState :=
  { s with consecutiveDoublesCount := count, shouldCurrentPlayerPlayAgain := again }

/-- A result without its doubles. -/
def undoubled (r : GameEngineResult) : GameEngineResult := ⟨clearDoubles r.state, r.events⟩

theorem debitPlayer_withDoubles (count : Nat) (again : Bool) (amount : Int) :
    debitPlayer (withDoubles s count again) p amount =
      (debitPlayer s p amount).map fun t => withDoubles t count again := by
  unfold debitPlayer findPlayer findPlayerOr throwIf rejectIf throwIf
  have hpl : (withDoubles s count again).player? p = s.player? p := rfl
  rw [hpl]
  by_cases hneg : amount < 0
  · simp only [if_pos hneg]
    rfl
  · simp only [if_neg hneg, ok_bind]
    cases s.player? p with
    | none => rfl
    | some pl =>
      dsimp only [orThrow]
      rw [ok_bind, ok_bind]
      by_cases hcash : pl.cash < amount
      · simp only [if_pos hcash]
        rfl
      · simp only [if_neg hcash]
        rfl

theorem creditPlayer_withDoubles (count : Nat) (again : Bool) (amount : Int) :
    creditPlayer (withDoubles s count again) p amount =
      (creditPlayer s p amount).map fun t => withDoubles t count again := by
  unfold creditPlayer findPlayer findPlayerOr throwIf
  have hpl : (withDoubles s count again).player? p = s.player? p := rfl
  rw [hpl]
  by_cases hneg : amount < 0
  · simp only [if_pos hneg]
    rfl
  · simp only [if_neg hneg, ok_bind]
    cases s.player? p <;> rfl

theorem transferPlayerCash_withDoubles (count : Nat) (again : Bool) (q : RoomPlayerId)
    (amount : Int) : transferPlayerCash (withDoubles s count again) p q amount =
      (transferPlayerCash s p q amount).map fun t => withDoubles t count again := by
  unfold transferPlayerCash
  rw [debitPlayer_withDoubles]
  cases debitPlayer s p amount with
  | error e => rfl
  | ok t => exact creditPlayer_withDoubles count again amount

theorem payTax_withDoubles (count : Nat) (again : Bool) (key : TileKey) :
    (payTax (withDoubles s count again) p key).map undoubled = (payTax s p key).map undoubled := by
  unfold payTax
  cases htile : getTaxTile s key with
  | error e =>
    have htile' : getTaxTile (withDoubles s count again) key = .error e := htile
    rw [htile']
    rfl
  | ok tile =>
    have htile' : getTaxTile (withDoubles s count again) key = .ok tile := htile
    rw [htile', ok_bind, ok_bind]
    unfold debitPlayerOrCreateDebt
    dsimp only
    have hfind : findPlayer (withDoubles s count again) p = findPlayer s p := rfl
    rw [hfind, debitPlayer_withDoubles]
    cases findPlayer s p with
    | error e => rfl
    | ok pl =>
      rw [ok_bind, ok_bind]
      by_cases hneg : tile.amount < 0
      · simp only [throwIf, if_pos hneg]
        rfl
      · simp only [throwIf, if_neg hneg, ok_bind]
        by_cases hcash : tile.amount ≤ pl.cash
        · rw [if_pos hcash, if_pos hcash]
          cases debitPlayer s p tile.amount <;> rfl
        · rw [if_neg hcash, if_neg hcash]
          rfl

theorem payRent_withDoubles (count : Nat) (again : Bool) (key : TileKey) :
    (payRent (withDoubles s count again) p key dice).map undoubled =
      (payRent s p key dice).map undoubled := by
  have hproperty : (withDoubles s count again).property? key = s.property? key := rfl
  have hboard : (withDoubles s count again).board = s.board := rfl
  unfold payRent
  rw [hproperty, hboard]
  dsimp only
  cases s.property? key with
  | none => rfl
  | some property =>
    dsimp only
    cases property.ownerRoomPlayerId with
    | none => rfl
    | some owner =>
      dsimp only
      split
      · rfl
      cases (s.board.tile? key).bind GameTile.ownable? with
      | none => rfl
      | some tile =>
        dsimp only
        have hrent : calculateRent (withDoubles s count again) tile dice =
            calculateRent s tile dice := rfl
        rw [hrent]
        cases calculateRent s tile dice with
        | error e => rfl
        | ok rent =>
          cases rent with
          | none => rfl
          | some amount =>
            have hfind : ∀ q, findPlayer (withDoubles s count again) q = findPlayer s q :=
              fun _ => rfl
            simp only [ok_bind, orThrow, transferPlayerCashOrCreateDebt, hfind,
              transferPlayerCash_withDoubles]
            cases findPlayer s p with
            | error e => rfl
            | ok debtor =>
              cases findPlayer s owner with
              | error e => rfl
              | ok creditor =>
                simp only [ok_bind]
                by_cases hcash : amount ≤ debtor.cash
                · rw [if_pos hcash, if_pos hcash]
                  cases transferPlayerCash s p owner amount <;> rfl
                · rw [if_neg hcash, if_neg hcash]
                  rfl

/-! ## The dice -/

/-- The player has arrived by the dice; a tile that may be bought is pending already. -/
def rolledState (s : GameEngineState) (p : RoomPlayerId) (target : GameTile) (bonus : Int) :
    GameEngineState :=
  let arrived := arrivedState s p target bonus
  if isOwnableAndUnowned s target then
    { arrived with phase := .awaitingPropertyDecision, pendingTileKey := some target.key }
  else arrived

/-- The tile with its index is at its index. -/
theorem getTile_index (htarget : target ∈ s.board.tiles) {position : Nat}
    (hposition : position = target.index) : getTile s.board position = .ok target := by
  have hboard : ∀ tile ∈ s.board.tiles, jsIndex s.board.tiles tile.index = some tile := by
    unfold GameEngineState.board
    cases s.boardKey
    decide
  unfold getTile
  rw [hposition, hboard target htarget]
  rfl

/-- The dice bring the player to the tile, and what follows is what the dispatch of a roll says. -/
theorem dice_consequence (hpl : s.player? p = some pl) (hdice : s.lastDiceRoll = some dice)
    {suppress : Bool} (hmoves : suppress = true ∨ isThirdConsecutiveDoubles s dice = false)
    (htarget : target ∈ s.board.tiles) {position : Nat}
    (hposition : (position + (dice.1 + dice.2)) % s.board.tiles.length = target.index)
    (bonus : Int) : ∃ count again,
    (rollAndMoveIgnoringJail (placed s p position bonus) p dice suppress).map consequence =
      (resolveLanding (withDoubles (rolledState s p target (bonus + diceGoCash s position dice))
        count again) p dice target (isOwnableAndUnowned s target)).map undoubled := by
  obtain ⟨count, again, hcounted⟩ := doublesState_eq (placed s p position bonus) dice suppress
  refine ⟨count, again, ?_⟩
  have hdoubles : (if suppress = true then clearDoubles (placed s p position bonus)
      else applyDoublesState (placed s p position bonus) dice) =
        withDoubles (placed s p position bonus) count again := hcounted
  have hmoved : (!suppress && isThirdConsecutiveDoubles (placed s p position bonus) dice) = false := by
    rcases hmoves with rfl | hthird
    · rfl
    · have hthird' : isThirdConsecutiveDoubles (placed s p position bonus) dice = false := hthird
      rw [hthird', Bool.and_false]
  have hfound : findPlayer (withDoubles (placed s p position bonus) count again) p =
      .ok { pl with position, cash := pl.cash + bonus } := by
    refine findPlayer_eq_ok.mpr ?_
    show (placed s p position bonus).player? p = _
    unfold placed
    rw [GameEngineState.player?_updatePlayer, if_pos rfl, hpl]
    · rfl
    · exact fun _ => rfl
  have hboard : (placed s p position bonus).board = s.board := rfl
  unfold rollAndMoveIgnoringJail
  rw [if_neg (by rw [hmoved]; exact Bool.false_ne_true)]
  dsimp only
  rw [hdoubles, hfound, ok_bind, hboard]
  dsimp only
  rw [getTile_index htarget hposition, ok_bind]
  have hfree : isOwnableAndUnowned (withDoubles (placed s p position bonus) count again) target =
      isOwnableAndUnowned s target := rfl
  rw [hfree]
  generalize hstate : GameEngineState.updatePlayer _ p _ = moved
  have hmovedState : moved =
      withDoubles (rolledState s p target (bonus + diceGoCash s position dice)) count again := by
    rw [← hstate]
    unfold rolledState arrivedState placed withDoubles diceGoCash GameEngineState.updatePlayer
    dsimp only
    rw [Keyed.modify_modify, ← hposition]
    on_goal 2 => exact fun _ => rfl
    have hcash : ∀ x : GameEnginePlayer,
        (if s.board.tiles.length ≤ position + (dice.1 + dice.2) then
          x.cash + bonus + s.board.passGoCash else x.cash + bonus) =
        x.cash + (bonus + if s.board.tiles.length ≤ position + (dice.1 + dice.2) then
          s.board.passGoCash else 0) := by
      intro x
      split <;> omega
    simp only [Function.comp_def, hcash, ← hdice]
    split <;> rfl
  rw [hmovedState]
  have hevents : ∀ event ∈ (if (!suppress && isDoubles dice) = true then
      [GameEngineEvent.playerRolledDoubles p count] else []) ++
      [GameEngineEvent.playerMoved p position ((position + (dice.1 + dice.2)) %
        s.board.tiles.length) dice] ++
      (if s.board.tiles.length ≤ position + (dice.1 + dice.2) then
        [.playerPassedGo p s.board.passGoCash] else []), isLandedOnTile event = false := by
    intro event hevent
    rw [List.append_assoc, List.mem_append] at hevent
    rcases hevent with hdouble | hrest
    · split at hdouble
      · cases List.mem_singleton.mp hdouble
        rfl
      · cases hdouble
    · exact isLandedOnTile_moved _ _ _ _ _ _ event hrest
  cases resolveLanding (withDoubles (rolledState s p target (bonus + diceGoCash s position dice))
    count again) p dice target (isOwnableAndUnowned s target) with
  | error e => rfl
  | ok r => exact congrArg Except.ok (consequence_append hevents _ _ _ r)

/-! ## On the tile -/

theorem payTax_rolled (hkind : target.kind = .tax) (bonus : Int) (count : Nat) (again : Bool) :
    (payTax (arrivedState s p target bonus) p target.key).map undoubled =
      (payTax (withDoubles (rolledState s p target bonus) count again) p target.key).map
        undoubled := by
  have hfree := isOwnableAndUnowned_of_kind (s := s) (.inr hkind)
  rw [payTax_withDoubles]
  unfold rolledState
  rw [hfree]
  rfl

theorem payRent_of_not_ownable {key : TileKey}
    (h : (s.board.tile? key).bind GameTile.ownable? = none) :
    payRent s p key dice = .ok { state := s, events := [] } := by
  unfold payRent
  rw [h]
  split
  · rfl
  split
  · rfl
  split <;> rfl

theorem drawAndApplyCard_events {deckKey : GameCardDeckKey} {r : GameEngineResult}
    (h : drawAndApplyCard s p deckKey = .ok r) : r.events ≠ [] := by
  simp only [drawAndApplyCard, bind_eq_ok, pure_eq_ok] at h
  obtain ⟨_, _, card, _, applied, _, rfl⟩ := h
  exact List.cons_ne_nil _ _

/-- The dispatch of a card is that of a roll, but for the tiles of the decks. -/
theorem cardLanding_eq_iff (htarget : target ∈ s.board.tiles) (bonus : Int) (count : Nat)
    (again : Bool) :
    (cardLanding (arrivedState s p target bonus) p dice target).map undoubled =
      (resolveLanding (withDoubles (rolledState s p target bonus) count again) p dice target
        (isOwnableAndUnowned s target)).map undoubled ↔
      target.kind ≠ .chance ∧ target.kind ≠ .worldFund := by
  have hfree : isOwnableAndUnowned (arrivedState s p target bonus) target =
      isOwnableAndUnowned s target := rfl
  have hdeck : ∀ deckKey, target.kind = .chance ∨ target.kind = .worldFund →
      (cardLanding (arrivedState s p target bonus) p dice target).map undoubled ≠
        (drawAndApplyCard (withDoubles (rolledState s p target bonus) count again) p deckKey).map
          undoubled := by
    intro deckKey hkind heq
    obtain ⟨hown, hunowned, hjail, htax⟩ : target.ownable? = none ∧
        isOwnableAndUnowned s target = false ∧ target.kind ≠ .goToJail ∧ target.kind ≠ .tax := by
      cases target with
      | chance | worldFund => exact ⟨rfl, rfl, nofun, nofun⟩
      | _ => rcases hkind with hkind | hkind <;> cases hkind
    have hnone : ((arrivedState s p target bonus).board.tile? target.key).bind
        GameTile.ownable? = none := by
      have hfound : (arrivedState s p target bonus).board.tile? target.key = some target :=
        tile?_of_mem htarget
      rw [hfound]
      exact hown
    have hcard : cardLanding (arrivedState s p target bonus) p dice target =
        .ok ⟨arrivedState s p target bonus, []⟩ := by
      unfold cardLanding
      rw [if_neg hjail, if_neg htax, hfree, hunowned, if_neg Bool.false_ne_true]
      exact payRent_of_not_ownable hnone
    rw [hcard] at heq
    cases hdraw : drawAndApplyCard (withDoubles (rolledState s p target bonus) count again) p
        deckKey with
    | error e =>
      rw [hdraw] at heq
      cases heq
    | ok r =>
      rw [hdraw] at heq
      have hevents := congrArg GameEngineResult.events (Except.ok.inj heq)
      exact drawAndApplyCard_events hdraw hevents.symm
  unfold resolveLanding
  by_cases hjail : target.kind = .goToJail
  · have hunowned := isOwnableAndUnowned_of_kind (s := s) (.inl hjail)
    refine iff_of_true ?_ ?_
    · unfold cardLanding rolledState
      rw [if_pos hjail, if_pos hjail, hunowned]
      rfl
    · rw [hjail]
      exact ⟨nofun, nofun⟩
  by_cases hchance : target.kind = .chance
  · rw [if_neg hjail, if_pos hchance]
    exact iff_of_false (hdeck _ (.inl hchance)) fun hneither => hneither.1 hchance
  by_cases hfund : target.kind = .worldFund
  · rw [if_neg hjail, if_neg hchance, if_pos hfund]
    exact iff_of_false (hdeck _ (.inr hfund)) fun hneither => hneither.2 hfund
  refine iff_of_true ?_ ⟨hchance, hfund⟩
  rw [if_neg hjail, if_neg hchance, if_neg hfund]
  unfold cardLanding
  rw [if_neg hjail, hfree]
  by_cases htax : target.kind = .tax
  · rw [if_pos htax, isOwnableAndUnowned_of_kind (.inr htax), if_neg Bool.false_ne_true, if_pos htax]
    exact payTax_rolled htax bonus count again
  · rw [if_neg htax, if_neg htax]
    cases hunowned : isOwnableAndUnowned s target with
    | true =>
      unfold rolledState
      rw [hunowned]
      rfl
    | false =>
      unfold rolledState
      rw [hunowned]
      exact (payRent_withDoubles count again target.key).symm

/-- A card lands its player as the dice would, from the same state but for the place the dice start
from and the Go money, exactly where the tile is not one of the decks. -/
theorem card_lands_as_dice (hpl : s.player? p = some pl) (hdice : s.lastDiceRoll = some dice)
    (htarget : getCardMoveTargetTile s p effect = .ok (some target)) {suppress : Bool}
    (hmoves : suppress = true ∨ isThirdConsecutiveDoubles s dice = false) {position : Nat}
    (hposition : (position + (dice.1 + dice.2)) % s.board.tiles.length = target.index) :
    (movePlayerToCardTile s p effect).map consequence =
      (rollAndMoveIgnoringJail (placed s p position
        (cardGoCash s pl effect target - diceGoCash s position dice)) p dice suppress).map
          consequence ↔
      target.kind ≠ .chance ∧ target.kind ≠ .worldFund := by
  have hmem := getCardMoveTargetTile_mem htarget
  obtain ⟨count, again, hrolled⟩ := dice_consequence hpl hdice hmoves hmem hposition
    (cardGoCash s pl effect target - diceGoCash s position dice)
  rw [card_consequence hpl hdice htarget, hrolled, sub_add_cancel]
  exact cardLanding_eq_iff hmem _ count again

end Arrivals

/-! ## On a chance tile -/

/-- The dice have led the first player to a chance tile. -/
def onChance (position : Nat) (dice : DiceRoll) : Checked GameEngineState :=
  (createInitialGameState ⟨0, "room"⟩ threePlayers).map fun s =>
    { placed s ⟨1⟩ position 0 with lastDiceRoll := some dice }

/-- The chance tile before the last airport. -/
def atLastChance : Checked GameEngineState := onChance 36 (2, 3)

/-- Going back three tiles from the first chance tile the player pays the income tax, as after the
dice. -/
theorem atFirstChance_backThree : ∃ s pl target, onChance 7 (3, 4) = .ok s ∧
    s.player? ⟨1⟩ = some pl ∧ target.key = .incomeTax ∧
    getCardMoveTargetTile s ⟨1⟩ (.moveRelative (-3)) = .ok (some target) ∧
    (movePlayerToCardTile s ⟨1⟩ (.moveRelative (-3))).map consequence =
      (rollAndMoveIgnoringJail (placed s ⟨1⟩ 37 (cardGoCash s pl (.moveRelative (-3)) target -
        diceGoCash s 37 (3, 4))) ⟨1⟩ (3, 4) false).map consequence := by
  obtain ⟨s, hs, htest⟩ := exists_ok_of_any (by decide +kernel :
    (onChance 7 (3, 4)).toOption.any (fun s => (s.player? ⟨1⟩).any fun _ =>
      (getCardMoveTargetTile s ⟨1⟩ (.moveRelative (-3))).toOption.any fun found =>
        found.any fun target => decide (s.lastDiceRoll = some (3, 4) ∧
          isThirdConsecutiveDoubles s (3, 4) = false ∧
          (37 + (3 + 4)) % s.board.tiles.length = target.index ∧ target.key = .incomeTax ∧
          target.kind ≠ .chance ∧ target.kind ≠ .worldFund)) = true)
  obtain ⟨pl, hpl, hfound⟩ := (Option.any_eq_true _ _).mp htest
  obtain ⟨found, htarget, htarget'⟩ := exists_ok_of_any hfound
  obtain ⟨target, rfl, hdecided⟩ := (Option.any_eq_true _ _).mp htarget'
  obtain ⟨hdice, hthird, hindex, hkey, hkind⟩ := of_decide_eq_true hdecided
  exact ⟨s, pl, target, hs, hpl, hkey, htarget,
    (card_lands_as_dice hpl hdice htarget (.inr hthird) hindex).mpr hkind⟩

/-- Going back three tiles from the last one, the player lands on a tile of the world fund and draws
no card; the dice would make the player draw one. -/
theorem atLastChance_backThree : ∃ s pl target, atLastChance = .ok s ∧ s.player? ⟨1⟩ = some pl ∧
    getCardMoveTargetTile s ⟨1⟩ (.moveRelative (-3)) = .ok (some target) ∧
    (28 + (2 + 3)) % s.board.tiles.length = target.index ∧
    (movePlayerToCardTile s ⟨1⟩ (.moveRelative (-3))).map consequence ≠
      (rollAndMoveIgnoringJail (placed s ⟨1⟩ 28 (cardGoCash s pl (.moveRelative (-3)) target -
        diceGoCash s 28 (2, 3))) ⟨1⟩ (2, 3) false).map consequence := by
  obtain ⟨s, hs, htest⟩ := exists_ok_of_any (by decide +kernel :
    atLastChance.toOption.any (fun s => (s.player? ⟨1⟩).any fun pl =>
      (getCardMoveTargetTile s ⟨1⟩ (.moveRelative (-3))).toOption.any fun found =>
        found.any fun target => decide ((28 + (2 + 3)) % s.board.tiles.length = target.index) &&
          (((movePlayerToCardTile s ⟨1⟩ (.moveRelative (-3))).map consequence).toOption.any
            fun card => card.events = []) &&
          (((rollAndMoveIgnoringJail (placed s ⟨1⟩ 28 (cardGoCash s pl (.moveRelative (-3)) target -
            diceGoCash s 28 (2, 3))) ⟨1⟩ (2, 3) false).map consequence).toOption.any
              fun dice => dice.events ≠ [])) = true)
  obtain ⟨pl, hpl, hfound⟩ := (Option.any_eq_true _ _).mp htest
  obtain ⟨found, htarget, htarget'⟩ := exists_ok_of_any hfound
  obtain ⟨target, rfl, hboth⟩ := (Option.any_eq_true _ _).mp htarget'
  simp only [Bool.and_eq_true, decide_eq_true_eq] at hboth
  obtain ⟨⟨hindex, hcard⟩, hdice⟩ := hboth
  obtain ⟨card, hcard, hnone⟩ := exists_ok_of_any hcard
  obtain ⟨dice, hdice, hsome⟩ := exists_ok_of_any hdice
  refine ⟨s, pl, target, hs, hpl, htarget, hindex, ?_⟩
  intro heq
  rw [hcard, hdice] at heq
  cases heq
  exact of_decide_eq_true hsome (of_decide_eq_true hnone)

end Rules
end LivePoly
