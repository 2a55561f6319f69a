import LivePoly.Rules.Rotation
import LivePoly.Rules.NetWorth
import LivePoly.Rules.Terminal
import LivePoly.Service.Results

/-!
# Rules.Finishes

How a game finishes. Only a bankruptcy, the clock and the last human's leaving finish it, and the
finish event names a winner by the net worths of the final state (`accepted_finishes`).
-/

namespace LivePoly
namespace Rules

open Engine Checked Service

/-- The ids of the players with the highest net worth. -/
def tiedIds (standings : List PlayerNetWorth) : List RoomPlayerId :=
  (getNetWorthWinners standings).map PlayerNetWorth.roomPlayerId

/-- The id of the first one of the standings. -/
def firstId (standings : List PlayerNetWorth) : Option RoomPlayerId :=
  (getNetWorthWinner standings).map PlayerNetWorth.roomPlayerId

/-- The events of a step from `s` to `s'` that finishes the game, with the standings of `s'`. -/
inductive FinishedBy (s s' : GameEngineState) (standings : List PlayerNetWorth) :
    List GameEngineEvent → Prop
  | bankruptcy {before : List GameEngineEvent}
      (hbefore : ∀ event ∈ before, finishTime? event = none) :
      FinishedBy s s' standings (before ++
        [.gameFinishedByBankruptcy
          (if (tiedIds standings).length = 1 then (tiedIds standings).head? else none)
          (tiedIds standings) standings])
  | time {finishedAt : Int} (hplayers : s'.players = s.players) :
      FinishedBy s s' standings
        [.gameFinishedByTime finishedAt (firstId standings) (tiedIds standings) standings]
  | lastHumanLeft {finishedAt : Int} (hplayers : s'.players = s.players) :
      FinishedBy s s' standings
        [.gameFinishedAfterLastHumanLeft finishedAt (firstId standings) (tiedIds standings)
          standings]

/-! ## Steps that finish nothing -/

section Steps

variable {s s' : GameEngineState} {p : RoomPlayerId} {pl : GameEnginePlayer}
  {events : List GameEngineEvent}

theorem Turn.goesOn (h : Turn p pl s events s') (hgoes : s.phase ≠ .finished) :
    s'.phase ≠ .finished := by
  cases h with
  | moved =>
    rw [movedState_control.1]
    split <;> exact nofun
  | thirdDoubles | stayed | fineOwed | playsAgain | passesTurn =>
    intro hover
    cases hover
  | escaped | forcedFine | finePaid | cardUsed => exact hgoes

theorem Landing.goesOn (h : Landing p pl s events s') (hgoes : s.phase ≠ .finished) :
    s'.phase ≠ .finished := by
  cases h with
  | taxPaid | rentPaid | cardSettled | cardKept => exact hgoes
  | owes | sentToJail | cardOwed | cardJailed =>
    intro hover
    cases hover
  | cardMoved =>
    unfold cardMovedState
    split <;> exact nofun

theorem Estate.goesOn (h : Estate p pl s events s') (hgoes : s.phase ≠ .finished) :
    s'.phase ≠ .finished := by
  cases h with
  | bought => exact nofun
  | houseBuilt | hotelBuilt | hotelSold | houseSold | mortgaged | unmortgaged => exact hgoes

theorem Estate.noFinish (h : Estate p pl s events s') :
    ∀ event ∈ events, finishTime? event = none := by
  intro event hevent
  cases h with
  | bought | houseBuilt | hotelBuilt | hotelSold | houseSold | mortgaged | unmortgaged =>
    rw [List.mem_singleton.mp hevent]
    rfl

theorem Bidding.goesOn {condition : GameEngineState → RoomPlayerId → Prop}
    (h : Bidding condition p s events s') (hgoes : s.phase ≠ .finished) :
    s'.phase ≠ .finished := by
  cases h with
  | declined | bidWon | passedWon | passedUnsold => exact nofun
  | bid | passed => exact hgoes

theorem Trade.goesOn {condition : GameEngineState → GameEngineTradeOffer → Prop}
    (h : Trade condition p s events s') (hgoes : s.phase ≠ .finished) :
    s'.phase ≠ .finished := by
  cases h with
  | marked | offered | refused | rejected | cancelled | executed => exact hgoes

theorem RollStep.goesOn (h : RollStep p s events s') (hgoes : s.phase ≠ .finished) :
    s'.phase ≠ .finished := by
  rcases h with ⟨_, pl, _, hturn⟩ | ⟨pl, _, hland⟩
  · exact hturn.goesOn hgoes
  · exact hland.goesOn hgoes

end Steps

/-! ## Bankruptcies -/

section Finish

variable {c : Condition} {env : Env} {s : GameEngineState} {p : RoomPlayerId}
  {intent : GameEngineIntent} {r : GameEngineResult} {standings : List PlayerNetWorth}

theorem standings_of_same {t : GameEngineState} (hplayers : t.players = s.players)
    (hproperties : t.properties = s.properties) :
    calculateNetWorthStandings t = calculateNetWorthStandings s := by
  have hworth : calculatePlayerNetWorth t = calculatePlayerNetWorth s := by
    funext player
    simp only [calculatePlayerNetWorth, getOwnedProperties, findPlayer, findPlayerOr,
      GameEngineState.player?, GameEngineState.board_eq, hplayers, hproperties]
  simp only [calculateNetWorthStandings, getActivePlayers, hplayers, hworth]

theorem declareBankruptcy_finishes (start : GameEngineState) {creditor : Option RoomPlayerId}
    {before : List GameEngineEvent}
    (hbefore : ∀ event ∈ before, finishTime? event = none) (hgoes : s.phase ≠ .finished)
    (h : declareBankruptcy s p creditor = .ok r) (hfinished : r.state.phase = .finished) :
    ∃ standings, calculateNetWorthStandings r.state = .ok standings ∧
      FinishedBy start r.state standings (before ++ r.events) := by
  simp only [declareBankruptcy, bind_eq_ok] at h
  obtain ⟨_, _, pl, _, _, _, _, _, liquidated, hliquidated, h⟩ := h
  split at h
  · simp only [bind_eq_ok, pure_eq_ok] at h
    obtain ⟨standings, hstandings, rfl⟩ := h
    refine ⟨standings, ?_, ?_⟩
    · dsimp only
      rw [← hstandings]
      apply standings_of_same <;> rfl
    rw [List.append_cons]
    refine .bankruptcy fun event hevent => ?_
    rcases List.mem_append.mp hevent with hevent | hevent
    · exact hbefore event hevent
    · rw [List.mem_singleton.mp hevent]
      rfl
  · split at h
    · cases h
      simp only [liquidatePlayerAssets, bind_eq_ok, pure_eq_ok] at hliquidated
      obtain ⟨_, _, returned, hreturned, rfl⟩ := hliquidated
      obtain ⟨decks, rfl⟩ := foldlM_return_decks hreturned
      exact absurd hfinished hgoes
    · simp only [bind_eq_ok, pure_eq_ok] at h
      obtain ⟨_, _, rfl⟩ := h
      cases hfinished

theorem finishGame_finishes
    {event : Option RoomPlayerId → List RoomPlayerId → List PlayerNetWorth → GameEngineEvent}
    (h : finishGame s event = .ok r) :
    ∃ standings, calculateNetWorthStandings r.state = .ok standings ∧
      r.events = [event (firstId standings) (tiedIds standings) standings] := by
  simp only [finishGame, bind_eq_ok, pure_eq_ok] at h
  obtain ⟨standings, hstandings, rfl⟩ := h
  refine ⟨standings, ?_, rfl⟩
  dsimp only
  rw [← hstandings]
  apply standings_of_same <;> rfl

theorem estateSteps_noFinish {t : GameEngineState} {events : List GameEngineEvent}
    (h : Trace.Chain (EstateStep p) Settled s events t) :
    ∀ event ∈ events, finishTime? event = none := by
  induction h with
  | nil => exact List.forall_mem_nil _
  | cons hstep _ _ ih =>
    obtain ⟨pl, _, hestate⟩ := hstep
    intro event hevent
    rcases List.mem_append.mp hevent with hevent | hevent
    · exact hestate.noFinish event hevent
    · exact ih event hevent

theorem autoResolveDebt_finishes (h : autoResolveDebt s p = .ok r) (hgoes : s.phase ≠ .finished)
    (hfinished : r.state.phase = .finished) :
    ∃ standings, calculateNetWorthStandings r.state = .ok standings ∧
      FinishedBy s r.state standings r.events := by
  simp only [autoResolveDebt, bind_eq_ok, rejectIf_eq_ok, pure_eq_ok] at h
  obtain ⟨_, _, raised, hraise, canPay, _, result, hresult, rfl⟩ := h
  obtain ⟨⟨events, hevents, hchain⟩, _⟩ := raiseCash_steps hraise
  rw [List.nil_append] at hevents
  have hbefore : ∀ event ∈ raised.events, finishTime? event = none := by
    rw [hevents]
    exact estateSteps_noFinish hchain
  have hraised : raised.state.phase ≠ .finished := by
    refine hchain.invariant (I := fun t => t.phase ≠ .finished) ?_ hgoes
    rintro _ _ _ ht ⟨pl, _, hestate⟩
    exact hestate.goesOn ht
  cases canPay with
  | true =>
    obtain ⟨debt, pl, hpays, rfl⟩ := payDebt_pays hresult
    rw [show (debtPaidState raised.state debt).phase = .awaitingTurnEnd from rfl] at hfinished
    cases hfinished
  | false => exact declareBankruptcy_finishes s hbefore hraised hresult hfinished

/-- An accepted intent that finishes the game does so with a finish event. -/
theorem accepted_finishes (hv : Valid s) (hgoes : s.phase ≠ .finished)
    (h : reduceGameEngineIntent env s intent = .ok r) (hfinished : r.state.phase = .finished) :
    ∃ standings, calculateNetWorthStandings r.state = .ok standings ∧
      FinishedBy s r.state standings r.events := by
  have hmove := reduceGameEngineIntent_move hv.sound (permits_unrestricted env s intent) h
  obtain ⟨s', events⟩ := r
  cases hmove with
  | rolled ho hphase hroll =>
    have hchain := (rollAndMove_steps hv.players.funded ho hphase hroll).1
    refine absurd hfinished (hchain.invariant (I := fun t => t.phase ≠ .finished) ?_ hgoes)
    exact fun _ _ _ ht hstep => hstep.goesOn ht
  | finePaid | cardUsed => exact absurd hfinished hgoes
  | @turnEnded p pl _ ho hphase hend =>
    have hturn : Turn p pl s _ _ := endTurn_turn hphase hend
    exact absurd hfinished (hturn.goesOn hgoes)
  | estate _ _ _ h => exact absurd hfinished (h.goesOn hgoes)
  | bidding _ _ h => exact absurd hfinished (h.goesOn hgoes)
  | trade _ _ h =>
    refine absurd hfinished (h.invariant (I := fun t => t.phase ≠ .finished) ?_ hgoes)
    exact fun _ _ _ ht hstep => hstep.goesOn ht
  | debtPaid => cases hfinished
  | bankrupt =>
    have hbefore : ∀ event ∈ ([] : List GameEngineEvent), finishTime? event = none :=
      List.forall_mem_nil _
    exact declareBankruptcy_finishes s hbefore hgoes h hfinished
  | resolved => exact autoResolveDebt_finishes h hgoes hfinished
  | finished hactor _ _ =>
    cases intent with
    | finishGameByTime finishedAt =>
      simp only [reduceGameEngineIntent, finishGameByTime, bind_eq_ok] at h
      obtain ⟨_, _, h⟩ := h
      obtain ⟨standings, hstandings, hevents⟩ := finishGame_finishes h
      exact ⟨standings, hstandings, hevents ▸ .time rfl⟩
    | finishGameAfterLastHumanLeft finishedAt =>
      simp only [reduceGameEngineIntent, finishGameAfterLastHumanLeft, bind_eq_ok] at h
      obtain ⟨_, _, h⟩ := h
      obtain ⟨standings, hstandings, hevents⟩ := finishGame_finishes h
      exact ⟨standings, hstandings, hevents ▸ .lastHumanLeft rfl⟩
    | _ => cases hactor

end Finish

end Rules
end LivePoly
