import LivePoly.Rules.Estate

/-!
# Rules.Settlement

How debts and the game end: a debt is paid, a player goes bankrupt, the game is finished. The
timer raises cash for a debtor by estate actions first.
-/

namespace LivePoly
namespace Rules

open Engine Checked

/-! ## Paying -/

/-- The state when a debt has been paid. -/
def debtPaidState (s : GameEngineState) (debt : GameEngineDebt) : GameEngineState :=
  let debited := s.addCash debt.roomPlayerId (-debt.amount)
  let paid := debt.creditorRoomPlayerId.elim debited fun creditor =>
    debited.addCash creditor debt.amount
  let released :=
    if debt.reason = .jailFine then releasePlayerFromJail paid debt.roomPlayerId else paid
  { released with
    phase := .awaitingTurnEnd
    debt := none
    pendingTileKey := none
    auction := none
    shouldCurrentPlayerPlayAgain := false }

/-- `p`, whose record is `pl`, pays the pending debt. -/
structure PaysDebt (s : GameEngineState) (p : RoomPlayerId) (debt : GameEngineDebt)
    (pl : GameEnginePlayer) : Prop where
  phase : s.phase = .awaitingDebtResolution
  pending : s.debt = some debt
  debtor : debt.roomPlayerId = p
  player : s.player? p = some pl
  amount : 0 ≤ debt.amount
  cash : debt.amount ≤ pl.cash
  creditor : ∀ c, debt.creditorRoomPlayerId = some c → ∃ cl, s.player? c = some cl

/-- The events of paying a debt. -/
def debtPaidEvents (debt : GameEngineDebt) : List GameEngineEvent :=
  [.debtPaid debt.roomPlayerId debt.creditorRoomPlayerId debt.amount debt.reason] ++
    (if debt.reason = .jailFine then [.playerReleasedFromJail debt.roomPlayerId] else [])

/-! ## Bankruptcy -/

/-- What bankruptcy leaves of the game, before the turn is passed on. -/
def liquidatedState (s : GameEngineState) (p : RoomPlayerId) (creditor : Option RoomPlayerId)
    (decks : GameEngineDecks) : GameEngineState :=
  { s.updatePlayer p GameEnginePlayer.liquidated with
    decks
    properties := s.properties.map (liquidateProperty p creditor)
    debt := s.debt.filter fun debt => debt.roomPlayerId ≠ p }

/-- `p`, whose record is `pl`, goes bankrupt to `creditor`; the cards it held go back to
`decks`. -/
structure GoesBankrupt (s : GameEngineState) (p : RoomPlayerId) (pl : GameEnginePlayer)
    (creditor : Option RoomPlayerId) (decks : GameEngineDecks) : Prop where
  active : s.phase ≠ .finished ∧ s.phase ≠ .cancelled
  found : s.player? p = some pl
  solvent : pl.bankrupt = false
  creditorOk : ∀ c, creditor = some c →
    c ≠ p ∧ ∃ cl, s.player? c = some cl ∧ cl.bankrupt = false
  returned : (heldCardKeys pl).foldlM
    (fun currentState cardKey => returnGetOutOfJailCardToDeck currentState (some cardKey)) s =
      .ok { s with decks }

/-- The players left when `p` goes bankrupt cannot go on. -/
def EndsGame (s : GameEngineState) : Prop :=
  (getActivePlayers s).length ≤ 1 ∨ hasNoActiveHumanPlayers (getActivePlayers s)

/-- The two events at which the game is finished. -/
inductive FinishEvent : GameEngineEvent → Prop
  | time {finishedAt winner tied standings} :
      FinishEvent (.gameFinishedByTime finishedAt winner tied standings)
  | lastHumanLeft {finishedAt winner tied standings} :
      FinishEvent (.gameFinishedAfterLastHumanLeft finishedAt winner tied standings)

/-- How the player `p` leaves a debt or the game, and how the game is finished. Bankruptcies
satisfy `condition`. -/
inductive Settlement (condition : GameEngineState → RoomPlayerId → Prop) (p : RoomPlayerId)
    (s : GameEngineState) : List GameEngineEvent → GameEngineState → Prop
  | debtPaid {debt : GameEngineDebt} {pl : GameEnginePlayer}
      (hphase : s.phase = .awaitingDebtResolution) (hdebt : s.debt = some debt)
      (hdebtor : debt.roomPlayerId = p) (hpl : s.player? p = some pl) (h0 : 0 ≤ debt.amount)
      (hcash : debt.amount ≤ pl.cash)
      (hcreditor : ∀ c, debt.creditorRoomPlayerId = some c → ∃ cl, s.player? c = some cl) :
      Settlement condition p s (debtPaidEvents debt) (debtPaidState s debt)
  | lastBankruptcy {pl : GameEnginePlayer} {creditor : Option RoomPlayerId}
      {decks : GameEngineDecks} {current : RoomPlayerId} {winner : Option RoomPlayerId}
      {tied : List RoomPlayerId} {standings : List PlayerNetWorth}
      (hbankrupt : GoesBankrupt s p pl creditor decks) (hcondition : condition s p)
      (hends : EndsGame (liquidatedState s p creditor decks)) :
      Settlement condition p s
        [.playerBankrupt p creditor, .gameFinishedByBankruptcy winner tied standings]
        { finishedState (liquidatedState s p creditor decks) with
          currentTurnRoomPlayerId := current }
  | bankruptcy {pl : GameEnginePlayer} {creditor : Option RoomPlayerId}
      {decks : GameEngineDecks} (hbankrupt : GoesBankrupt s p pl creditor decks)
      (hcondition : condition s p) (hgoes : ¬ EndsGame (liquidatedState s p creditor decks))
      (hother : s.currentTurnRoomPlayerId ≠ p) :
      Settlement condition p s [.playerBankrupt p creditor] (liquidatedState s p creditor decks)
  | ownBankruptcy {pl next : GameEnginePlayer} {creditor : Option RoomPlayerId}
      {decks : GameEngineDecks} (hbankrupt : GoesBankrupt s p pl creditor decks)
      (hcondition : condition s p) (hgoes : ¬ EndsGame (liquidatedState s p creditor decks))
      (hown : s.currentTurnRoomPlayerId = p)
      (hnext : findNextActivePlayerAfterBankruptcy (liquidatedState s p creditor decks) pl =
        .ok next) :
      Settlement condition p s
        [.playerBankrupt p creditor, .turnEnded p next.roomPlayerId (s.turnNumber + 1)]
        { liquidatedState s p creditor decks with
          phase := .awaitingRoll
          currentTurnRoomPlayerId := next.roomPlayerId
          turnNumber := s.turnNumber + 1
          shouldCurrentPlayerPlayAgain := false
          consecutiveDoublesCount := 0
          lastDiceRoll := none
          auction := none
          pendingTileKey := none }
  | finished {event : GameEngineEvent}
      (hactive : s.phase ≠ .finished ∧ s.phase ≠ .cancelled) (hevent : FinishEvent event) :
      Settlement condition p s [event] (finishedState s)

section Code

variable {s : GameEngineState} {p : RoomPlayerId}
  {condition : GameEngineState → RoomPlayerId → Prop} {r : GameEngineResult}

theorem pendingDebt_eq_some {debt : GameEngineDebt} :
    pendingDebt s = some debt ↔ s.phase = .awaitingDebtResolution ∧ s.debt = some debt := by
  unfold pendingDebt
  split
  · rename_i hphase
    simp [hphase]
  · rename_i hphase
    simp [hphase]

theorem payDebt_pays (h : payDebt s p = .ok r) :
    ∃ debt pl, PaysDebt s p debt pl ∧ r = ⟨debtPaidState s debt, debtPaidEvents debt⟩ := by
  simp only [payDebt, bind_eq_ok, orThrow_eq_ok, pendingDebt_eq_some, rejectIf_eq_ok,
    pure_eq_ok] at h
  obtain ⟨debt, ⟨hphase, hdebt⟩, _, hdebtor, paid, hpaid, rfl⟩ := h
  have hdebtor : debt.roomPlayerId = p := by simpa using hdebtor
  have hpay : 0 ≤ debt.amount ∧ (∃ pl, s.player? p = some pl ∧ debt.amount ≤ pl.cash) ∧
      (∀ c, debt.creditorRoomPlayerId = some c → ∃ cl, s.player? c = some cl) ∧
      paid = debt.creditorRoomPlayerId.elim (s.addCash p (-debt.amount)) fun creditor =>
        (s.addCash p (-debt.amount)).addCash creditor debt.amount := by
    cases hcreditor : debt.creditorRoomPlayerId with
    | none =>
      rw [hcreditor] at hpaid
      obtain ⟨h0, pl, hpl, hcash, rfl⟩ := debitPlayer_eq_ok.mp hpaid
      exact ⟨h0, ⟨pl, hpl, hcash⟩, (fun _ h => by cases h), rfl⟩
    | some creditor =>
      rw [hcreditor] at hpaid
      obtain ⟨h0, hpl, hcl, rfl⟩ := transferPlayerCash_eq_ok.mp hpaid
      refine ⟨h0, hpl, ?_, rfl⟩
      rintro c ⟨⟩
      exact hcl
  obtain ⟨h0, ⟨pl, hpl, hcash⟩, hcreditor, rfl⟩ := hpay
  subst hdebtor
  exact ⟨debt, pl, ⟨hphase, hdebt, rfl, hpl, h0, hcash, hcreditor⟩, rfl⟩

theorem PaysDebt.settlement {debt : GameEngineDebt} {pl : GameEnginePlayer}
    (h : PaysDebt s p debt pl) :
    Settlement condition p s (debtPaidEvents debt) (debtPaidState s debt) :=
  .debtPaid h.phase h.pending h.debtor h.player h.amount h.cash h.creditor

theorem foldlM_return_decks {keys : List CardKey} {s' : GameEngineState}
    (h : keys.foldlM (fun currentState cardKey =>
      returnGetOutOfJailCardToDeck currentState (some cardKey)) s = .ok s') :
    ∃ decks, s' = { s with decks } := by
  induction keys generalizing s with
  | nil =>
    cases h
    exact ⟨_, rfl⟩
  | cons key keys ih =>
    rw [List.foldlM_cons] at h
    simp only [bind_eq_ok] at h
    obtain ⟨first, hfirst, hrest⟩ := h
    simp only [returnGetOutOfJailCardToDeck, bind_eq_ok, pure_eq_ok] at hfirst
    obtain ⟨_, _, rfl⟩ := hfirst
    obtain ⟨decks, rfl⟩ := ih hrest
    exact ⟨decks, rfl⟩

theorem assertValidCreditor_eq_ok {c : RoomPlayerId} {u : Unit}
    (h : assertValidCreditor s p c = .ok u) :
    c ≠ p ∧ ∃ cl, s.player? c = some cl ∧ cl.bankrupt = false := by
  simp only [assertValidCreditor, bind_eq_ok, findPlayer_eq_ok, rejectIf_eq_ok] at h
  obtain ⟨cl, hcl, _, hactive, hne⟩ := h
  rw [GameEngineState.player?_id hcl] at hne
  exact ⟨hne, cl, hcl, by simpa using hactive⟩

theorem declareBankruptcy_settlement {creditor : Option RoomPlayerId}
    (hcondition : condition s p) (h : declareBankruptcy s p creditor = .ok r) :
    Settlement condition p s r.events r.state := by
  simp only [declareBankruptcy, bind_eq_ok, findPlayer_eq_ok, rejectIf_eq_ok,
    liquidatePlayerAssets, pure_eq_ok] at h
  obtain ⟨_, hactive, pl, hpl, _, hsolvent, _, hcreditor, liquidated, ⟨pl', hpl', returned,
    hreturned, hliquidated⟩, h⟩ := h
  cases hpl.symm.trans hpl'
  obtain ⟨decks, rfl⟩ := foldlM_return_decks hreturned
  generalize creditor.or _ = creditor at *
  have hliquidated : liquidatedState s p creditor decks = liquidated := hliquidated
  subst hliquidated
  have hbankrupt : GoesBankrupt s p pl creditor decks := {
    active := assertGameActive_eq_ok.mp hactive
    found := hpl
    solvent := by simpa using hsolvent
    creditorOk := by
      rintro c rfl
      exact assertValidCreditor_eq_ok hcreditor
    returned := hreturned }
  split at h
  · rename_i hends
    simp only [bind_eq_ok, pure_eq_ok] at h
    obtain ⟨standings, _, rfl⟩ := h
    exact .lastBankruptcy hbankrupt hcondition hends
  · rename_i hgoes
    split at h
    · rename_i hother
      cases h
      exact .bankruptcy hbankrupt hcondition hgoes hother
    · rename_i hown
      simp only [bind_eq_ok, pure_eq_ok] at h
      obtain ⟨next, hnext, rfl⟩ := h
      exact .ownBankruptcy hbankrupt hcondition hgoes (Classical.not_not.mp hown) hnext

end Code

end Rules
end LivePoly
