import LivePoly.Rules.Seats
import LivePoly.Rules.Terminal

/-!
# Rules.Rotation

The turn goes round. A move keeps the turn, rolls the dice in it, or passes it on to the next
player in seat order (`Move.turnMove`); over a run the turn therefore rotates, with at most three
rolls before it is passed on.
-/

namespace LivePoly
namespace Rules

open Engine Checked

/-! ## What a move does to the turn -/

/-- The player to whom an event passes the turn. -/
def turnPassed? : GameEngineEvent → Option RoomPlayerId
  | .turnEnded p next _ => if p = next then none else some next
  | _ => none

/-- The players whose turns begin, in order. -/
def turns (events : List GameEngineEvent) : List RoomPlayerId := events.filterMap turnPassed?

/-- The player on turn rolls next, or will roll again. -/
def MayRoll (s : GameEngineState) : Prop :=
  AwaitsRoll s ∨ s.shouldCurrentPlayerPlayAgain = true

/-- The same turn goes on, with no roll more than before. -/
structure KeepsTurn (s : GameEngineState) (events : List GameEngineEvent)
    (s' : GameEngineState) : Prop where
  turnNumber : s'.turnNumber = s.turnNumber
  current : s'.currentTurnRoomPlayerId = s.currentTurnRoomPlayerId
  rolls : MayRoll s' → MayRoll s ∧ s'.consecutiveDoublesCount = s.consecutiveDoublesCount
  doubles : s.consecutiveDoublesCount < 3 → s'.consecutiveDoublesCount < 3
  turns : Rules.turns events = []

/-- The turn passes on. -/
structure PassesTurn (s : GameEngineState) (events : List GameEngineEvent)
    (s' : GameEngineState) : Prop where
  turnNumber : s'.turnNumber = s.turnNumber + 1
  phase : s'.phase = .awaitingRoll
  other : s'.currentTurnRoomPlayerId ≠ s.currentTurnRoomPlayerId
  next : NextInSeatOrder s' s.currentTurnRoomPlayerId s'.currentTurnRoomPlayerId
  doubles : s'.consecutiveDoublesCount = 0
  turns : Rules.turns events = [s'.currentTurnRoomPlayerId]

/-- The game is over. -/
structure EndsTurns (s : GameEngineState) (events : List GameEngineEvent)
    (s' : GameEngineState) : Prop where
  turnNumber : s'.turnNumber = s.turnNumber
  phase : s'.phase = .finished
  again : s'.shouldCurrentPlayerPlayAgain = false
  doubles : s'.consecutiveDoublesCount = 0
  turns : Rules.turns events = []

/-- The intent rolls the dice. -/
def isRoll : GameEngineIntent → Bool
  | .rollAndMove _ _ => true
  | _ => false

/-- What a move does to the turn. -/
inductive TurnMove (s : GameEngineState) (intent : GameEngineIntent)
    (events : List GameEngineEvent) (s' : GameEngineState) : Prop
  | rolled (hroll : isRoll intent = true) (hphase : AwaitsRoll s) (h : Rolled s s')
      (hturns : turns events = [])
  | kept (hroll : isRoll intent = false) (h : KeepsTurn s events s')
  | passed (hroll : isRoll intent = false) (h : PassesTurn s events s')
  | ended (hroll : isRoll intent = false) (h : EndsTurns s events s')

section Turns

variable {s s' t : GameEngineState} {p : RoomPlayerId} {pl : GameEnginePlayer}
  {xs ys events : List GameEngineEvent}

theorem turns_append : turns (xs ++ ys) = turns xs ++ turns ys := List.filterMap_append

theorem turns_eq_nil (h : ∀ event ∈ events, turnPassed? event = none) : turns events = [] :=
  List.filterMap_eq_nil_iff.mpr h

theorem keepsTurn_same (hnumber : s'.turnNumber = s.turnNumber)
    (hcurrent : s'.currentTurnRoomPlayerId = s.currentTurnRoomPlayerId)
    (hphase : s'.phase = s.phase)
    (hagain : s'.shouldCurrentPlayerPlayAgain = s.shouldCurrentPlayerPlayAgain)
    (hdoubles : s'.consecutiveDoublesCount = s.consecutiveDoublesCount)
    (hturns : turns events = []) : KeepsTurn s events s' where
  turnNumber := hnumber
  current := hcurrent
  rolls := by
    intro hmay
    refine ⟨?_, hdoubles⟩
    unfold MayRoll AwaitsRoll at hmay ⊢
    rwa [hphase, hagain] at hmay
  doubles := fun hlt => hdoubles ▸ hlt
  turns := hturns

theorem keepsTurn_settled (hnumber : s'.turnNumber = s.turnNumber)
    (hcurrent : s'.currentTurnRoomPlayerId = s.currentTurnRoomPlayerId)
    (hphase : isRollPhase s'.phase = false)
    (hagain : s'.shouldCurrentPlayerPlayAgain = true → s.shouldCurrentPlayerPlayAgain = true)
    (hdoubles : s'.consecutiveDoublesCount = s.consecutiveDoublesCount)
    (hturns : turns events = []) : KeepsTurn s events s' where
  turnNumber := hnumber
  current := hcurrent
  rolls := by
    rintro (hawaits | hagain')
    · exact absurd hawaits (not_awaitsRoll hphase)
    · exact ⟨.inr (hagain hagain'), hdoubles⟩
  doubles := fun hlt => hdoubles ▸ hlt
  turns := hturns

theorem KeepsTurn.trans (h : KeepsTurn s xs t) (h' : KeepsTurn t ys s') :
    KeepsTurn s (xs ++ ys) s' where
  turnNumber := h'.turnNumber.trans h.turnNumber
  current := h'.current.trans h.current
  rolls := by
    intro hmay
    obtain ⟨hmay, hcount⟩ := h'.rolls hmay
    obtain ⟨hmay, hcount'⟩ := h.rolls hmay
    exact ⟨hmay, hcount.trans hcount'⟩
  doubles := fun hlt => h'.doubles (h.doubles hlt)
  turns := by rw [turns_append, h.turns, h'.turns]; rfl

theorem keepsTurn_chain {step : GameEngineState → List GameEngineEvent → GameEngineState → Prop}
    (hstep : ∀ s events s', step s events s' → KeepsTurn s events s')
    (h : Trace.Chain step Settled s events s') : KeepsTurn s events s' := by
  induction h with
  | nil => exact keepsTurn_same rfl rfl rfl rfl rfl rfl
  | cons hfirst _ _ ih => exact (hstep _ _ _ hfirst).trans ih

theorem KeepsTurn.passes (h : KeepsTurn s xs t) (h' : PassesTurn t ys s') :
    PassesTurn s (xs ++ ys) s' where
  turnNumber := by rw [h'.turnNumber, h.turnNumber]
  phase := h'.phase
  other := by
    rw [← h.current]
    exact h'.other
  next := by
    rw [← h.current]
    exact h'.next
  doubles := h'.doubles
  turns := by rw [turns_append, h.turns, h'.turns]; rfl

theorem KeepsTurn.ends (h : KeepsTurn s xs t) (h' : EndsTurns t ys s') :
    EndsTurns s (xs ++ ys) s' where
  turnNumber := h'.turnNumber.trans h.turnNumber
  phase := h'.phase
  again := h'.again
  doubles := h'.doubles
  turns := by rw [turns_append, h.turns, h'.turns]; rfl

end Turns

/-! ## The moves -/

section Moves

variable {c : Condition} {s s' t : GameEngineState} {p : RoomPlayerId} {pl : GameEnginePlayer}
  {events : List GameEngineEvent}

theorem movedEvents_turns (dice : DiceRoll) (suppressDoubles : Bool) (tile : GameTile) :
    turns (movedEvents s p pl dice suppressDoubles tile) = [] := by
  have hone : ∀ (bad : Prop) [Decidable bad] (event : GameEngineEvent), turnPassed? event = none →
      turns (if bad then [event] else []) = [] := by
    intro bad _ event hevent
    refine turns_eq_nil fun x hx => ?_
    split at hx
    · rw [List.mem_singleton.mp hx, hevent]
    · cases hx
  unfold movedEvents
  rw [turns_append, turns_append, turns_append, hone _ _ rfl, hone _ _ rfl]
  rfl

theorem cardMovedEvents_turns (target : GameTile) (passedGo : Bool) :
    turns (cardMovedEvents s p pl target passedGo) = [] := by
  cases passedGo <;> rfl

theorem RollStep.turns (h : RollStep p s events s') : Rules.turns events = [] := by
  rcases h with ⟨hawaits, pl, _, hturn⟩ | ⟨pl, _, hland⟩
  · cases hturn with
    | moved => exact movedEvents_turns _ _ _
    | thirdDoubles | escaped | stayed | forcedFine | fineOwed | finePaid | cardUsed => rfl
    | playsAgain hphase | passesTurn hphase =>
      refine absurd hawaits (not_awaitsRoll ?_)
      rw [hphase]
      rfl
  · cases hland with
    | taxPaid | rentPaid | owes | sentToJail | cardSettled | cardOwed | cardKept | cardJailed => rfl
    | cardMoved => rw [turns_append, cardMovedEvents_turns]; rfl

theorem rollSteps_turns (h : Trace.Chain (RollStep p) Settled s events s') :
    turns events = [] := by
  induction h with
  | nil => rfl
  | cons hstep _ _ ih => rw [turns_append, hstep.turns, ih]; rfl

theorem Estate.keepsTurn (h : Estate p pl s events s') : KeepsTurn s events s' := by
  cases h with
  | bought => exact keepsTurn_settled rfl rfl rfl id rfl rfl
  | houseBuilt | hotelBuilt | hotelSold | houseSold | mortgaged | unmortgaged =>
    exact keepsTurn_same rfl rfl rfl rfl rfl rfl

theorem Bidding.keepsTurn {condition : GameEngineState → RoomPlayerId → Prop}
    (h : Bidding condition p s events s') : KeepsTurn s events s' := by
  cases h with
  | declined => exact keepsTurn_settled rfl rfl rfl id rfl rfl
  | bid | passed => exact keepsTurn_same rfl rfl rfl rfl rfl rfl
  | bidWon | passedWon | passedUnsold => exact keepsTurn_settled rfl rfl rfl id rfl rfl

theorem saleEvents_turns (tradeId : String) (keys : List TileKey) :
    turns (saleEvents s tradeId p keys) = [] := by
  refine turns_eq_nil fun event hevent => ?_
  obtain ⟨key, _, hsale⟩ := List.mem_filterMap.mp hevent
  split at hsale
  · cases hsale
  · cases hsale
    rfl

theorem Trade.keepsTurn {condition : GameEngineState → GameEngineTradeOffer → Prop}
    (h : Trade condition p s events s') : KeepsTurn s events s' := by
  cases h with
  | marked | offered | refused | rejected | cancelled =>
    exact keepsTurn_same rfl rfl rfl rfl rfl rfl
  | executed hagreed =>
    refine keepsTurn_same rfl rfl rfl rfl rfl ?_
    rw [turns_append, turns_append, turns_append, saleEvents_turns, saleEvents_turns]
    cases hagreed with
    | accepted | proposed => rfl

theorem debtPaid_keepsTurn {debt : GameEngineDebt} :
    KeepsTurn s (debtPaidEvents debt) (debtPaidState s debt) := by
  have hfields : (debtPaidState s debt).turnNumber = s.turnNumber ∧
      (debtPaidState s debt).consecutiveDoublesCount = s.consecutiveDoublesCount := by
    unfold debtPaidState
    dsimp only
    cases debt.creditorRoomPlayerId with
    | none => split <;> exact ⟨rfl, rfl⟩
    | some creditor => split <;> exact ⟨rfl, rfl⟩
  refine keepsTurn_settled hfields.1 debtPaidState_control.2 rfl ?_ hfields.2 ?_
  · intro hagain
    cases hagain
  · unfold debtPaidEvents
    split <;> rfl

/-- Ending the turn passes it on, or the same player plays again. -/
theorem endTurn_turnMove (hv : Valid s) (hs : Seated s) (ho : OnTurn s p pl)
    (hphase : s.phase = .awaitingTurnEnd) {r : GameEngineResult} (h : endTurn s p = .ok r) :
    TurnMove s (.endTurn p) r.events r.state := by
  obtain rfl := ho.current
  unfold endTurn at h
  split at h
  · rename_i hagain
    cases h
    refine .kept rfl ⟨rfl, rfl, fun _ => ⟨.inr hagain, rfl⟩, id, ?_⟩
    exact turns_eq_nil fun event hevent => by
      rw [List.mem_singleton.mp hevent]
      exact if_pos rfl
  · simp only [bind_eq_ok, pure_eq_ok] at h
    obtain ⟨next, hnext, rfl⟩ := h
    have hactive : IsActive s s.currentTurnRoomPlayerId := ⟨pl, ho.player, ho.active⟩
    obtain ⟨q, hq, hqp⟩ := exists_other hv
      (hv.table.company (inProgress_of_phase hphase rfl)) s.currentTurnRoomPlayerId
    have horder := findNextActivePlayer_next hv.players hs hnext
    have hother : next.roomPlayerId ≠ s.currentTurnRoomPlayerId :=
      horder.other (seatNo_injOn hs) hactive hq hqp
    refine .passed rfl ⟨rfl, rfl, hother, horder, rfl, ?_⟩
    have hpassed : turnPassed? (.turnEnded s.currentTurnRoomPlayerId next.roomPlayerId
        (s.turnNumber + 1)) = some next.roomPlayerId := if_neg (Ne.symm hother)
    unfold turns
    rw [List.filterMap_cons, hpassed]
    rfl

/-- A bankruptcy passes the turn on if it is the bankrupt player's, unless the game is over. -/
theorem Bankruptcy.turnMove {condition : GameEngineState → RoomPlayerId → Prop} (hv : Valid s)
    (hs : Seated s) (h : Bankruptcy condition p s events s') {intent : GameEngineIntent}
    (hroll : isRoll intent = false) : TurnMove s intent events s' := by
  obtain ⟨hsettle, creditor, rest, hevents⟩ := h
  cases hsettle with
  | debtPaid => cases hevents
  | lastBankruptcy => exact .ended hroll ⟨rfl, rfl, rfl, rfl, rfl⟩
  | bankruptcy => exact .kept hroll (keepsTurn_same rfl rfl rfl rfl rfl rfl)
  | @ownBankruptcy pl next creditor decks hbankrupt _ _ hown hnext =>
    subst hown
    have hplayers : (liquidatedState s s.currentTurnRoomPlayerId creditor decks).players =
        Keyed.modify GameEnginePlayer.roomPlayerId s.players s.currentTurnRoomPlayerId
          GameEnginePlayer.liquidated := rfl
    have hfound : (liquidatedState s s.currentTurnRoomPlayerId creditor decks).player?
        s.currentTurnRoomPlayerId = some pl.liquidated := by
      rw [liquidated_player? hplayers, if_pos rfl, hbankrupt.found]
      rfl
    have horder := findNextActivePlayerAfterBankruptcy_next
      (liquidated_playersOk hv.players hbankrupt.found hplayers)
      ((liquidated_sameSeats hplayers).seated hs) hfound rfl hnext
    have hother : next.roomPlayerId ≠ s.currentTurnRoomPlayerId :=
      ((liquidated_stillIn hplayers _).mp horder.mem).2
    refine .passed hroll ⟨rfl, rfl, hother, horder, rfl, ?_⟩
    have hpassed : turnPassed? (.turnEnded s.currentTurnRoomPlayerId next.roomPlayerId
        (s.turnNumber + 1)) = some next.roomPlayerId := if_neg (Ne.symm hother)
    unfold turns
    rw [List.filterMap_cons, List.filterMap_cons, hpassed]
    rfl
  | finished _ hevent =>
    cases hevents
    cases hevent

theorem isRoll_of_isDealing {intent : GameEngineIntent} (h : isDealing intent = true) :
    isRoll intent = false := by
  cases intent <;> first | rfl | cases h

theorem Move.turnMove (hv : Valid s) (hs : Seated s) {intent : GameEngineIntent}
    (h : Move c s intent events s') : TurnMove s intent events s' := by
  cases h with
  | rolled ho hphase hroll =>
    obtain ⟨hchain, hrolled⟩ := rollAndMove_steps hv.players.funded ho hphase hroll
    exact .rolled rfl hphase hrolled (rollSteps_turns hchain)
  | finePaid | cardUsed => exact .kept rfl (keepsTurn_same rfl rfl rfl rfl rfl rfl)
  | turnEnded ho hphase hend => exact endTurn_turnMove hv hs ho hphase hend
  | estate _ hdeals _ h => exact .kept (isRoll_of_isDealing hdeals) h.keepsTurn
  | bidding _ hdeals h => exact .kept (isRoll_of_isDealing hdeals) h.keepsTurn
  | trade _ hdeals h =>
    exact .kept (isRoll_of_isDealing hdeals) (keepsTurn_chain (fun _ _ _ h => h.keepsTurn) h)
  | debtPaid => exact .kept rfl debtPaid_keepsTurn
  | bankrupt h => exact h.turnMove hv hs rfl
  | @resolved p _ raised settled t _ _ _ hraise h =>
    have hkept : KeepsTurn s raised t := by
      refine keepsTurn_chain ?_ hraise
      rintro _ _ _ ⟨pl, _, hestate⟩
      exact hestate.keepsTurn
    rcases h with ⟨debt, pl, _, rfl, rfl⟩ | h
    · exact .kept rfl (hkept.trans debtPaid_keepsTurn)
    · have hactions : Actions c p s raised t := hraise.mono fun _ _ _ hstep => .estate hstep
      have ht : Valid t := hactions.invariant (fun _ _ _ hv haction => haction.valid hv) hv
      have hintent : isRoll (.autoResolveDebt p) = false := rfl
      cases h.turnMove ht ((Actions.sameSeats hv hactions).seated hs) hintent with
      | rolled hroll => cases hintent.symm.trans hroll
      | kept _ h => exact .kept rfl (hkept.trans h)
      | passed _ h => exact .passed rfl (hkept.passes h)
      | ended _ h => exact .ended rfl (hkept.ends h)
  | finished hactor _ hevent =>
    have hroll : isRoll intent = false := by
      cases intent <;> first | rfl | cases hactor
    refine .ended hroll ⟨rfl, rfl, rfl, rfl, ?_⟩
    cases hevent <;> rfl

/-! ## Runs -/

section Runs

variable {env : Env} {intent : GameEngineIntent} {r : GameEngineResult}
  {sent : List (Env × GameEngineIntent)}

theorem accepted_turnMove (hv : Valid s) (hs : Seated s)
    (h : reduceGameEngineIntent env s intent = .ok r) : TurnMove s intent r.events r.state :=
  (reduceGameEngineIntent_move hv.sound (permits_unrestricted env s intent) h).turnMove hv hs

theorem accepted_seats (hv : Valid s) (h : reduceGameEngineIntent env s intent = .ok r) :
    SameSeats s r.state ∧ stillIn r.state ⊆ stillIn s := by
  obtain ⟨p, hactions⟩ := accepted_actions hv (permits_unrestricted env s intent) h
  exact ⟨Actions.sameSeats hv hactions, Actions.stillIn hv hactions⟩

/-- Leaving jail is no reason to go on or to stop. -/
theorem Move.leavesJail_phase (h : Move c s intent events s')
    (hintent : intent = .payJailFine p ∨ intent = .useGetOutOfJailCard p) :
    s'.phase = s.phase := by
  rcases hintent with rfl | rfl
  · cases h with
    | finePaid => rfl
    | estate _ hdeals | bidding _ hdeals | trade _ hdeals => cases hdeals
    | finished hactor => cases hactor
  · cases h with
    | cardUsed => rfl
    | estate _ hdeals | bidding _ hdeals | trade _ hdeals => cases hdeals
    | finished hactor => cases hactor

theorem accepted_wasInProgress (hv : Valid s) (h : reduceGameEngineIntent env s intent = .ok r)
    (hafter : InProgress r.state) : InProgress s := by
  rcases accepted_inProgress hv h with hactive | ⟨_, p, hintent⟩
  · exact hactive
  · have hmove := reduceGameEngineIntent_move hv.sound (permits_unrestricted env s intent) h
    unfold InProgress at hafter ⊢
    rwa [hmove.leavesJail_phase hintent] at hafter

theorem run_valid (hv : Valid s) (h : Trace.Run Accepts s sent events s') : Valid s' :=
  h.invariant accepts_valid hv

theorem run_sameSeats (hv : Valid s) (h : Trace.Run Accepts s sent events s') :
    SameSeats s s' := by
  induction h with
  | refl => rfl
  | tail hrun hstep ih => exact (ih).trans (accepted_seats (run_valid hv hrun) hstep).1

theorem run_turnNumber (hv : Valid s) (hs : Seated s) (h : Trace.Run Accepts s sent events s') :
    s'.turnNumber = s.turnNumber + (turns events).length := by
  induction h with
  | refl => rfl
  | @tail t u sent events i o hrun hstep ih =>
    have hmove := accepted_turnMove (run_valid hv hrun) ((run_sameSeats hv hrun).seated hs) hstep
    rw [turns_append, List.length_append]
    cases hmove with
    | rolled _ _ h hturns =>
      have hnumber := h.turnNumber
      rw [hturns, List.length_nil]
      dsimp only at hnumber
      omega
    | kept _ h | ended _ h =>
      have hnumber := h.turnNumber
      rw [h.turns, List.length_nil]
      dsimp only at hnumber
      omega
    | passed _ h =>
      have hnumber := h.turnNumber
      rw [h.turns, List.length_singleton]
      dsimp only at hnumber
      omega

/-- The turn passes round the table while players leave it. -/
theorem run_passes (hv : Valid s) (hs : Seated s) (h : Trace.Run Accepts s sent events s') :
    ∃ holder, Rotation.Passes (seatNo s) s.currentTurnRoomPlayerId (stillIn s) (turns events) holder
      (stillIn s') ∧ (InProgress s' → holder = s'.currentTurnRoomPlayerId) := by
  induction h with
  | refl => exact ⟨_, .refl, fun _ => rfl⟩
  | @tail t u sent events i o hrun hstep ih =>
    obtain ⟨holder, hpasses, hholder⟩ := ih
    have ht := run_valid hv hrun
    have hsame := run_sameSeats hv hrun
    obtain ⟨hseats, hleave⟩ := accepted_seats ht hstep
    have hpasses := hpasses.shrink hleave
    rw [turns_append]
    by_cases hafter : InProgress u
    · obtain rfl := hholder (accepted_wasInProgress ht hstep hafter)
      cases accepted_turnMove ht (hsame.seated hs) hstep with
      | rolled _ _ h hturns =>
        rw [hturns, List.append_nil]
        exact ⟨_, hpasses, fun _ => h.current.symm⟩
      | kept _ h =>
        rw [h.turns, List.append_nil]
        exact ⟨_, hpasses, fun _ => h.current.symm⟩
      | ended _ h => exact absurd h.phase hafter.1
      | passed _ h =>
        have hseat : seatNo u = seatNo s := funext (hsame.trans hseats).seatNo
        have hnext := h.next
        unfold NextInSeatOrder at hnext
        dsimp only at hnext
        rw [hseat] at hnext
        rw [h.turns]
        exact ⟨_, hpasses.pass hnext, fun _ => rfl⟩
    · cases accepted_turnMove ht (hsame.seated hs) hstep with
      | rolled _ _ h hturns =>
        rw [hturns, List.append_nil]
        exact ⟨_, hpasses, fun hactive => absurd hactive hafter⟩
      | kept _ h | ended _ h =>
        rw [h.turns, List.append_nil]
        exact ⟨_, hpasses, fun hactive => absurd hactive hafter⟩
      | passed _ h => exact absurd (inProgress_of_phase h.phase rfl) hafter

theorem run_doubles (hv : Valid s) (hs : Seated s) (h : Trace.Run Accepts s sent events s')
    (hcount : s.consecutiveDoublesCount < 3) : s'.consecutiveDoublesCount < 3 := by
  induction h with
  | refl => exact hcount
  | @tail t u sent events i o hrun hstep ih =>
    have hmove := accepted_turnMove (run_valid hv hrun) ((run_sameSeats hv hrun).seated hs) hstep
    cases hmove with
    | rolled _ _ h => exact h.doubles ih
    | kept _ h => exact h.doubles ih
    | passed _ h | ended _ h =>
      have hzero := h.doubles
      dsimp only at hzero
      omega

/-- How often the dice were rolled. -/
def rollCount (sent : List (Env × GameEngineIntent)) : Nat := sent.countP fun i => isRoll i.2

/-- Within a turn there are at most three rolls, and no more than doubles counted while the player
may roll. -/
theorem run_rolls (hv : Valid s) (hs : Seated s) (h : Trace.Run Accepts s sent events s')
    (hcount : s.consecutiveDoublesCount < 3) (hturn : s'.turnNumber = s.turnNumber) :
    rollCount sent ≤ 3 ∧ (MayRoll s' → rollCount sent ≤ s'.consecutiveDoublesCount) := by
  induction h with
  | refl => exact ⟨Nat.zero_le _, fun _ => Nat.zero_le _⟩
  | @tail t u sent events i o hrun hstep ih =>
    have ht := run_turnNumber hv hs hrun
    have hmove := accepted_turnMove (run_valid hv hrun) ((run_sameSeats hv hrun).seated hs) hstep
    have hlt := run_doubles hv hs hrun hcount
    unfold rollCount at ih ⊢
    rw [List.countP_append, List.countP_singleton]
    cases hmove with
    | rolled hroll hphase h =>
      have hnumber := h.turnNumber
      have hagain := h.again
      have hdoubles := h.doubles hlt
      dsimp only at hnumber hagain hdoubles
      obtain ⟨_, hrolls⟩ := ih (by omega)
      have hrolls := hrolls (.inl hphase)
      rw [if_pos hroll]
      refine ⟨by omega, ?_⟩
      rintro (hawaits | hmay)
      · exact absurd hawaits h.phase
      · have hnext := hagain hmay
        omega
    | kept hroll h =>
      have hnumber := h.turnNumber
      have hrolls := h.rolls
      dsimp only at hnumber hrolls
      obtain ⟨hthree, hbefore⟩ := ih (by omega)
      rw [if_neg (by rw [hroll]; decide)]
      refine ⟨hthree, fun hmay => ?_⟩
      obtain ⟨hmay, hsame⟩ := hrolls hmay
      rw [hsame]
      exact hbefore hmay
    | passed _ h =>
      have hnumber := h.turnNumber
      dsimp only at hnumber
      omega
    | ended hroll h =>
      have hnumber := h.turnNumber
      have hagain := h.again
      have hphase := h.phase
      dsimp only at hnumber hagain hphase
      obtain ⟨hthree, _⟩ := ih (by omega)
      rw [if_neg (by rw [hroll]; decide)]
      refine ⟨hthree, ?_⟩
      rintro (hawaits | hmay)
      · refine absurd hawaits (not_awaitsRoll ?_)
        rw [hphase]
        rfl
      · cases hagain.symm.trans hmay

end Runs

end Moves

/-! ## Rotation -/

/-- What a step does to the turn: it stays with the player, or passes on in seat order. -/
inductive TurnChange (s s' : GameEngineState) : Prop
  | stays (hnumber : s'.turnNumber = s.turnNumber)
      (hcurrent : s'.currentTurnRoomPlayerId = s.currentTurnRoomPlayerId)
  | passes (hnumber : s'.turnNumber = s.turnNumber + 1)
      (hother : s'.currentTurnRoomPlayerId ≠ s.currentTurnRoomPlayerId)
      (hnext : NextInSeatOrder s' s.currentTurnRoomPlayerId s'.currentTurnRoomPlayerId)
  | finishes (hnumber : s'.turnNumber = s.turnNumber) (hphase : s'.phase = .finished)

/-- How the turn rotates from here on. -/
structure TurnRotation (s : GameEngineState) : Prop where
  doubles : s.consecutiveDoublesCount ≤ 2
  step : ∀ env intent r, reduceGameEngineIntent env s intent = .ok r → TurnChange s r.state
  agree : InProgress s → ∀ pl creditor liquidated,
    s.player? s.currentTurnRoomPlayerId = some pl →
    liquidatePlayerAssets s s.currentTurnRoomPlayerId creditor = .ok liquidated →
    ∃ next next', findNextActivePlayer s = .ok next ∧
      findNextActivePlayerAfterBankruptcy liquidated pl = .ok next' ∧
      next'.roomPlayerId = next.roomPlayerId
  turnNumber : ∀ sent events s', Trace.Run Accepts s sent events s' →
    s'.turnNumber = s.turnNumber + (turns events).length
  current : ∀ sent events s', Trace.Run Accepts s sent events s' → InProgress s' →
    s'.currentTurnRoomPlayerId = (turns events).getLastD s.currentTurnRoomPlayerId
  rolls : ∀ sent events s', Trace.Run Accepts s sent events s' →
    s'.turnNumber = s.turnNumber → rollCount sent ≤ 3
  fair : ∀ sent events s' us, Trace.Run Accepts s sent events s' →
    turns events = us ++ [s.currentTurnRoomPlayerId] → s.currentTurnRoomPlayerId ∉ us →
    ∀ q, IsActive s' q → q ≠ s.currentTurnRoomPlayerId → us.count q = 1

theorem createInitialGameState_seated {env : Env} {input : CreateInitialGameStateInput}
    {s : GameEngineState} (hi : ValidInput input) (h : createInitialGameState env input = .ok s) :
    Seated s ∧ s.consecutiveDoublesCount < 3 := by
  simp only [createInitialGameState, bind_eq_ok, orThrow_eq_ok, pure_eq_ok] at h
  obtain ⟨first, _, rfl⟩ := h
  refine ⟨?_, Nat.zero_lt_succ 2⟩
  unfold Seated
  rw [List.map_map]
  exact hi.seats

/-- In every reachable state the turn rotates. -/
theorem reachable_turnRotation {input : CreateInitialGameStateInput} {s : GameEngineState}
    (hi : ValidInput input) (h : Reachable input s) : TurnRotation s := by
  obtain ⟨sent, events, start, ⟨env, hstart⟩, hrun⟩ := h
  have hv0 := createInitialGameState_valid hi hstart
  obtain ⟨hs0, hcount0⟩ := createInitialGameState_seated hi hstart
  have hv : Valid s := run_valid hv0 hrun
  have hs : Seated s := (run_sameSeats hv0 hrun).seated hs0
  have hcount := run_doubles hv0 hs0 hrun hcount0
  exact {
    doubles := Nat.le_of_lt_succ hcount
    step := by
      intro env intent r haccepted
      cases accepted_turnMove hv hs haccepted with
      | rolled _ _ h => exact .stays h.turnNumber h.current
      | kept _ h => exact .stays h.turnNumber h.current
      | passed _ h => exact .passes h.turnNumber h.other h.next
      | ended _ h => exact .finishes h.turnNumber h.phase
    agree := fun hactive _ _ _ hpl hliquidated => findNext_agree hv hs hactive hpl hliquidated
    turnNumber := fun _ _ _ hfrom => run_turnNumber hv hs hfrom
    current := by
      intro sent events s' hfrom hactive
      obtain ⟨holder, hpasses, hholder⟩ := run_passes hv hs hfrom
      rw [← hholder hactive]
      exact hpasses.holder_eq
    rolls := fun _ _ _ hfrom hsame => (run_rolls hv hs hfrom hcount hsame).1
    fair := by
      intro sent events s' us hfrom hturns hround q hq hne
      obtain ⟨holder, hpasses, _⟩ := run_passes hv hs hfrom
      rw [hturns] at hpasses
      exact hpasses.fair (seatNo_injOn hs) hround q hq hne }

/-- After two doubles and a third the turn goes round once. -/
theorem threePlayers_turnRotation : ∃ s sent events s', Reachable threePlayers s ∧
    TurnRotation s ∧ s.consecutiveDoublesCount = 2 ∧ Trace.Run Accepts s sent events s' ∧
    turns events = [⟨2⟩, ⟨3⟩, ⟨1⟩] := by
  obtain ⟨before, hbefore, htest⟩ := exists_ok_of_any (by decide +kernel :
    (playThree [.rollAndMove ⟨1⟩ [.int 3, .int 3], .buyProperty ⟨1⟩, .endTurn ⟨1⟩,
      .rollAndMove ⟨1⟩ [.int 2, .int 2]]).toOption.any (fun before =>
        before.state.consecutiveDoublesCount = 2 &&
          (play before.state (atStart [.endTurn ⟨1⟩, .rollAndMove ⟨1⟩ [.int 2, .int 2],
            .endTurn ⟨1⟩, .rollAndMove ⟨2⟩ [.int 1, .int 3], .endTurn ⟨2⟩,
            .rollAndMove ⟨3⟩ [.int 1, .int 3], .endTurn ⟨3⟩])).toOption.any fun last =>
              turns last.events = [⟨2⟩, ⟨3⟩, ⟨1⟩]) = true)
  obtain ⟨hcount, hround⟩ := (Bool.and_eq_true_iff ..).mp htest
  obtain ⟨last, hlast, hturns⟩ := exists_ok_of_any hround
  have hreach : Reachable threePlayers before.state := playRoom_reachable hbefore
  exact ⟨before.state, _, last.events, last.state, hreach,
    reachable_turnRotation threePlayers_valid hreach, of_decide_eq_true hcount, play_run hlast,
    of_decide_eq_true hturns⟩

end Rules
end LivePoly
