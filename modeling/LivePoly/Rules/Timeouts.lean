import LivePoly.Rules.Automation
import LivePoly.Rules.BuildingSets

/-!
# Rules.Timeouts

When the time of a game runs out, the timer has a move and the reducer accepts it. Nothing else
keeps a game from being stuck, so the moves that could fail are the interesting ones: a pass that
closes an auction, a debt that is resolved, a forfeit. They fail only after a trade or a bankruptcy
that took the bid from a leader, a bankruptcy of a creditor, or a trade that left buildings behind.
-/

namespace LivePoly
namespace Rules

open Engine Checked

/-- The bankruptcy of `p` ends the game, is that of the player on turn, or is not that of a creditor
the game waits for. -/
def LeavesClaims (s : GameEngineState) (p : RoomPlayerId) : Prop :=
  EndsGame (s.updatePlayer p GameEnginePlayer.liquidated) ∨ s.currentTurnRoomPlayerId = p ∨
    ∀ debt, s.debt = some debt → debt.creditorRoomPlayerId ≠ some p

/-- Trades spare the leader of an auction and clear the sets they touch; bankruptcies spare the
leader and the creditor. -/
def sparingTimer : Condition where
  trade s trade := SparesLeader s trade ∧ ClearsSets s trade
  award _ _ := True
  bankruptcy s p := LeavesNoBid s p ∧ LeavesClaims s p

/-- The time at which the game goes on without the player it waits for. -/
def deadlineOf (s : GameEngineState) : Option Nat :=
  if s.phase = .awaitingAuctionBid then s.auction.bind GameEngineAuction.bidExpiresAt
  else s.turnExpiresAt

/-- The deadline has come. -/
def DeadlinePassed (env : Env) (s : GameEngineState) : Prop :=
  ∃ deadline, deadlineOf s = some deadline ∧ deadline ≤ env.now

/-- Whatever the dice show, the timer has an intent, and it is accepted. -/
def TimeoutPlayed (env : Env) (s : GameEngineState) : Prop :=
  ∀ dice, ShowsDice dice → ∃ intent, chooseTimeoutIntent env s dice = some intent ∧
    Succeeds (reduceGameEngineIntent env s intent)

section Timer

variable {env : Env} {s : GameEngineState}

/-- The timer's move, where nobody has taken from a leader, a creditor or a building set. -/
theorem timeout_played (hv : Valid s) (hsolvent : LeaderSolvent s) (hcreditor : CreditorActive s)
    (hset : SetIntegrity s) (hp : InProgress s) (hpassed : DeadlinePassed env s) :
    TimeoutPlayed env s := by
  intro dice hdice
  obtain ⟨pl, ho⟩ := hv.onTurn hp
  have hid : pl.roomPlayerId = s.currentTurnRoomPlayerId := GameEngineState.player?_id ho.player
  have hcurrent : (s.player? s.currentTurnRoomPlayerId).filter (fun player => !player.bankrupt) =
      some pl := by
    rw [ho.player, Option.filter_some, if_pos (by simp [ho.active])]
  unfold chooseTimeoutIntent
  rw [if_neg (not_or.mpr hp)]
  by_cases hdue : isDue env.now s.expiresAt = true
  · rw [if_pos hdue]
    exact ⟨_, rfl, finishGameByTime_accepted hv hp hdue⟩
  rw [if_neg hdue, hcurrent]
  dsimp only
  by_cases howes : s.phase = .awaitingDebtResolution
  · obtain ⟨debt, hdebt, _, haccepted⟩ := autoResolveDebt_accepted hv hset hcreditor howes
    rw [if_pos howes, hdebt]
    exact ⟨_, rfl, haccepted⟩
  rw [if_neg howes]
  by_cases hforfeit : shouldForfeitCurrentPlayer s pl = true
  · rw [if_pos hforfeit, hid]
    exact ⟨_, rfl, declareBankruptcy_accepted hv hp ⟨pl, ho.player, ho.active⟩
      (hv.phase.debt_none howes)⟩
  rw [if_neg hforfeit, hid]
  cases hphase : s.phase with
  | awaitingFirstTurn => exact ⟨_, rfl, rollAndMove_accepted hv ho (.inl hphase) hdice⟩
  | awaitingRoll => exact ⟨_, rfl, rollAndMove_accepted hv ho (.inr hphase) hdice⟩
  | awaitingPropertyDecision => exact ⟨_, rfl, declinePropertyPurchase_accepted hv ho hphase⟩
  | awaitingAuctionBid =>
    obtain ⟨auction, hauction⟩ := Option.isSome_iff_exists.mp (hv.phase.auction.mpr hphase)
    obtain ⟨bidder, hbidder⟩ := (hv.phase.auctionOk auction hauction).currentBidder
    obtain ⟨deadline, hdeadline, hpast⟩ := hpassed
    rw [deadlineOf, if_pos hphase, hauction, Option.bind_some] at hdeadline
    rw [hauction, Option.bind_some, Option.bind_some, hdeadline, hbidder, Option.any_some,
      if_neg (by simp only [Bool.and_eq_true, decide_eq_true_eq]; omega)]
    exact ⟨_, rfl, passAuctionBid_accepted hv hsolvent hauction hbidder⟩
  | awaitingDebtResolution => exact absurd hphase howes
  | awaitingTurnEnd => exact ⟨_, rfl, endTurn_accepted hv ho hphase⟩
  | finished => exact absurd hphase hp.1
  | cancelled => exact absurd hphase hp.2

end Timer

/-! ## Conditions that imply others -/

/-- What the first condition permits, the second one does. -/
structure Implies (c c' : Condition) : Prop where
  trade : ∀ s trade, c.trade s trade → c'.trade s trade
  award : ∀ s q, c.award s q → c'.award s q
  bankruptcy : ∀ s q, c.bankruptcy s q → c'.bankruptcy s q

theorem sparingTimer_leader : Implies sparingTimer sparingLeader :=
  ⟨fun _ _ h => h.1, fun _ _ h => h, fun _ _ h => h.1⟩

theorem sparingTimer_sets : Implies sparingTimer clearingSets :=
  ⟨fun _ _ h => h.2, fun _ _ h => h, fun _ _ _ => trivial⟩

section Steps

variable {c c' : Condition} {s s' start : GameEngineState} {p : RoomPlayerId}
  {pl : GameEnginePlayer} {events : List GameEngineEvent}

theorem Settlement.weaken {C C' : GameEngineState → RoomPlayerId → Prop}
    (hC : ∀ q, C s q → C' s q) (h : Settlement C p s events s') : Settlement C' p s events s' := by
  cases h with
  | debtPaid h1 h2 h3 h4 h5 h6 h7 => exact .debtPaid h1 h2 h3 h4 h5 h6 h7
  | lastBankruptcy h1 h2 h3 => exact .lastBankruptcy h1 (hC _ h2) h3
  | bankruptcy h1 h2 h3 h4 => exact .bankruptcy h1 (hC _ h2) h3 h4
  | ownBankruptcy h1 h2 h3 h4 h5 => exact .ownBankruptcy h1 (hC _ h2) h3 h4 h5
  | finished h1 h2 => exact .finished h1 h2

theorem Action.weaken (hc : Implies c c') (h : Action c p s events s') :
    Action c' p s events s' := by
  cases h with
  | turn h => exact .turn h
  | landing h => exact .landing h
  | estate h => exact .estate h
  | bidding h =>
    refine .bidding ?_
    cases h with
    | declined h1 h2 h3 h4 h5 h6 => exact .declined h1 h2 h3 h4 h5 h6
    | bid h1 h2 h3 h4 => exact .bid h1 h2 h3 h4
    | bidWon h1 h2 h3 h4 h5 => exact .bidWon h1 h2 h3 h4 h5
    | passed h1 h2 => exact .passed h1 h2
    | passedWon h1 h2 h3 h4 h5 h6 => exact .passedWon h1 h2 h3 h4 h5 (hc.award _ _ h6)
    | passedUnsold h1 h2 => exact .passedUnsold h1 h2
  | trade h =>
    refine .trade ?_
    cases h with
    | marked => exact .marked
    | offered h1 h2 h3 h4 => exact .offered h1 h2 h3 h4
    | refused h1 => exact .refused h1
    | executed h1 h2 h3 h4 => exact .executed h1 h2 h3 (hc.trade _ _ h4)
    | rejected => exact .rejected
    | cancelled => exact .cancelled
  | settlement h => exact .settlement (h.weaken (hc.bankruptcy s))

/-! ## Creditors -/

theorem Turn.owed (h : Turn p pl s events s') {debt : GameEngineDebt}
    (hdebt : s'.debt = some debt) :
    s.debt = some debt ∨ debt.creditorRoomPlayerId = none := by
  cases h with
  | @moved dice suppressDoubles tile =>
    obtain ⟨_, _, _, hsame, _⟩ := @movedState_control s p dice suppressDoubles tile
    exact .inl (hsame.symm.trans hdebt)
  | fineOwed =>
    cases hdebt
    exact .inr rfl
  | thirdDoubles | escaped | stayed | forcedFine | finePaid | cardUsed | playsAgain | passesTurn =>
    exact .inl hdebt

theorem Landing.owed (hv : Valid s) (h : Landing p pl s events s') {debt : GameEngineDebt}
    (hdebt : s'.debt = some debt) :
    s.debt = some debt ∨ ∀ q, debt.creditorRoomPlayerId = some q → IsActive s q := by
  cases h with
  | taxPaid | rentPaid | cardSettled | cardKept | sentToJail | cardJailed => exact .inl hdebt
  | @owes owed _ _ hreason =>
    cases hdebt
    right
    intro q hq
    rcases hreason with ⟨_, hnone⟩ | ⟨_, creditor, hsome, _, x, hx, howner⟩
    · cases hnone.symm.trans hq
    · cases hsome.symm.trans hq
      exact (hv.tiles.tile x hx).owner _ howner
  | cardOwed =>
    cases hdebt
    exact .inr nofun
  | @cardMoved deckKey card decks target passedGo =>
    left
    unfold cardMovedState at hdebt
    dsimp only at hdebt
    split at hdebt <;> exact hdebt

theorem CreditorActive.next (hv : Valid s) (h : CreditorActive s) (hchange : PlayersChange s p s')
    (hdebts : ∀ debt, s'.debt = some debt → s.debt = some debt ∨
      ∀ q, debt.creditorRoomPlayerId = some q → IsActive s q) : CreditorActive s' := by
  intro debt q hdebt hq
  rw [hchange.same.isActive hv.players.ids]
  rcases hdebts debt hdebt with hold | hactive
  · exact h debt q hold hq
  · exact hactive q hq

theorem Settlement.creditorActive (hv : Valid s) (hs : CreditorActive s)
    (h : Settlement LeavesClaims p s events s') : CreditorActive s' := by
  cases h with
  | debtPaid | lastBankruptcy | finished => exact nofun
  | bankruptcy _ hclaims hgoes hother =>
    intro debt q hdebt hq
    have hpending : s.debt = some debt := (Option.mem_filter_iff.mp hdebt).1
    refine (liquidated_stillIn rfl q).mpr ⟨hs debt q hpending hq, ?_⟩
    rintro rfl
    obtain hends | hown | hnot := hclaims
    · exact hgoes hends
    · exact hother hown
    · exact hnot debt hpending hq
  | ownBankruptcy _ _ _ hown =>
    -- the player on turn is the debtor, whose debt is gone
    intro debt q hdebt hq
    obtain ⟨hpending, hnot⟩ := Option.mem_filter_iff.mp hdebt
    have hdebtor := (hv.phase.debtOk _ hpending).debtor
    exact absurd (hdebtor.trans hown) (of_decide_eq_true hnot)

theorem Action.creditorActive (hv : Valid s) (hs : CreditorActive s)
    (h : Action sparingTimer p s events s') : CreditorActive s' := by
  cases h with
  | turn h =>
    obtain ⟨pl, ho, hturn⟩ := h
    refine hs.next hv (hturn.players hv ho) fun debt hdebt => ?_
    rcases hturn.owed hdebt with hold | hnone
    · exact .inl hold
    · exact .inr fun q hq => nomatch hnone.symm.trans hq
  | landing h =>
    obtain ⟨pl, ha, hlanding⟩ := h
    exact hs.next hv (hlanding.players hv ha.toOnTurn) fun _ => hlanding.owed hv
  | estate h =>
    obtain ⟨pl, ho, hestate⟩ := h
    refine hs.next hv (hestate.players hv ho) fun debt hdebt => .inl ?_
    cases hestate <;> exact hdebt
  | bidding h =>
    refine hs.next hv (h.players hv) fun debt hdebt => .inl ?_
    cases h <;> exact hdebt
  | trade h =>
    refine hs.next hv (h.players hv) fun debt hdebt => .inl ?_
    cases h <;> exact hdebt
  | settlement h => exact Settlement.creditorActive hv hs (h.weaken fun _ hc => hc.2)

end Steps

/-! ## Games -/

section Games

variable {input : CreateInitialGameStateInput} {s t start : GameEngineState}
  {sent : List (Env × GameEngineIntent)} {events : List GameEngineEvent}

/-- Nothing the timer may have to do can fail. -/
structure Unstuck (s : GameEngineState) : Prop where
  valid : Valid s
  atLarge : AtLarge s
  leader : LeaderSolvent s
  creditor : CreditorActive s
  sets : EvenSets s

theorem createInitialGameState_unstuck {env : Env} (hi : ValidInput input)
    (h : createInitialGameState env input = .ok start) : Unstuck start := by
  obtain ⟨hphase, hnone⟩ := createInitialGameState_idle h
  have hdebt : start.debt = none := by
    simp only [createInitialGameState, bind_eq_ok, orThrow_eq_ok, pure_eq_ok] at h
    obtain ⟨first, _, rfl⟩ := h
    rfl
  have hcreditor : CreditorActive start := by
    intro debt creditor hpending _
    cases hdebt.symm.trans hpending
  exact ⟨createInitialGameState_valid hi h, atLarge_of_phase hphase, leaderSolvent_of_none hnone,
    hcreditor, createInitialGameState_evenSets h⟩

theorem accepts_unstuck (sent : Env × GameEngineIntent) (events : List GameEngineEvent)
    (h : Unstuck s) (hstep : Trace.Guarded Accepts (PermitsSent sparingTimer) s sent events t) :
    Unstuck t := by
  obtain ⟨haccepts, hpermits⟩ := hstep
  obtain ⟨p, hactions⟩ := accepted_actions h.valid hpermits haccepts
  refine hactions.invariant (I := Unstuck) (fun u o u' hu haction => ?_) h
  have hleader := haction.weaken sparingTimer_leader
  exact {
    valid := haction.valid hu.valid
    atLarge := haction.atLarge hu.atLarge
    leader := hleader.leaderSolvent hu.valid hu.atLarge hu.leader
    creditor := haction.creditorActive hu.valid hu.creditor
    sets := (haction.weaken sparingTimer_sets).evenSets hu.valid hu.sets }

/-- In every game in which trades spare the leader of an auction and clear the sets they touch, and
bankruptcies spare the leader and the creditor, the timer has an accepted move in every state whose
deadline has come. -/
theorem game_unstuck {env : Env} (hi : ValidInput input)
    (hbegun : createInitialGameState env input = .ok start)
    (h : Trace.Run (Trace.Guarded Accepts (PermitsSent sparingTimer)) start sent events s) :
    ∀ now, InProgress s → DeadlinePassed now s → TimeoutPlayed now s := by
  have hs : Unstuck s := h.invariant (fun u i o u' => accepts_unstuck (s := u) (t := u') i o)
    (createInitialGameState_unstuck hi hbegun)
  intro now hp hpassed
  exact timeout_played hs.valid hs.leader hs.creditor (hs.sets.setIntegrity hs.valid.tiles) hp
    hpassed

/-- The time to answer the bid for Ghana is over. -/
theorem threePlayers_unstuck : ∃ env sent events start s now,
    createInitialGameState env threePlayers = .ok start ∧
    Trace.Run (Trace.Guarded Accepts (PermitsSent sparingTimer)) start sent events s ∧
    s.phase = .awaitingAuctionBid ∧ DeadlinePassed now s ∧ TimeoutPlayed now s := by
  obtain ⟨r, hr, htest⟩ := exists_ok_of_any (by decide +kernel :
    (playThree ghanaBid).toOption.any (fun r => r.state.phase = .awaitingAuctionBid ∧
      (deadlineOf r.state).any (· ≤ 25000)) = true)
  obtain ⟨hphase, hdeadline⟩ := of_decide_eq_true htest
  obtain ⟨deadline, hdeadline, hpast⟩ := (Option.any_eq_true _ _).mp hdeadline
  obtain ⟨start, hstart, hgame⟩ := playRoom_game hr
  have hsafe : Trace.Run (Trace.Guarded Accepts fun _ sent => ∀ s,
      PermitsSent sparingTimer s sent) start _ r.events r.state :=
    hgame.run.guarded (by simp [atStart, ghanaBid, PermitsSent, Permits, sparingTimer])
  have hrun : Trace.Run (Trace.Guarded Accepts (PermitsSent sparingTimer)) start _ r.events
      r.state := hsafe.mono fun s _ _ _ hs => ⟨hs.1, hs.2 s⟩
  have hpassed : DeadlinePassed ⟨25000, "trade"⟩ r.state :=
    ⟨deadline, hdeadline, of_decide_eq_true hpast⟩
  exact ⟨_, _, _, start, r.state, _, hstart, hrun, hphase, hpassed,
    game_unstuck threePlayers_valid hstart hrun _ (inProgress_of_phase hphase rfl) hpassed⟩

/-- The second player leads the auction and goes bankrupt; the timer's pass for the third one is
refused. -/
theorem threePlayers_stuck : ∃ s now, Reachable threePlayers s ∧ InProgress s ∧
    DeadlinePassed now s ∧ ¬ TimeoutPlayed now s := by
  obtain ⟨r, hr, htest⟩ := exists_ok_of_any (by decide +kernel :
    (playThree [.rollAndMove ⟨1⟩ [.int 1, .int 2], .declinePropertyPurchase ⟨1⟩,
      .passAuctionBid ⟨1⟩, .placeAuctionBid ⟨2⟩ (.int 10),
      .declareBankruptcy ⟨2⟩ none]).toOption.any (fun r =>
        r.state.phase = .awaitingAuctionBid ∧ (deadlineOf r.state).any (· ≤ 25000) ∧
          (chooseTimeoutIntent ⟨25000, "trade"⟩ r.state (1, 1)).all fun intent =>
            !(reduceGameEngineIntent ⟨25000, "trade"⟩ r.state intent).isOk) = true)
  obtain ⟨hphase, hdeadline, hrefused⟩ := of_decide_eq_true htest
  obtain ⟨deadline, hdeadline, hpast⟩ := (Option.any_eq_true _ _).mp hdeadline
  refine ⟨r.state, ⟨25000, "trade"⟩, playRoom_reachable hr, inProgress_of_phase hphase rfl,
    ⟨deadline, hdeadline, of_decide_eq_true hpast⟩, fun hplayed => ?_⟩
  obtain ⟨intent, hintent, next, hnext⟩ := hplayed (1, 1) ⟨by decide, by decide⟩
  rw [hintent, Option.all_some, hnext] at hrefused
  cases hrefused

end Games

end Rules
end LivePoly
