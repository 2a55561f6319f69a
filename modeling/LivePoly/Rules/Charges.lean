import LivePoly.Rules.Reachable

/-!
# Rules.Charges

A charge the player cannot pay becomes a debt, and the debt is paid once the cash has been raised.
What the players end up with is what they would have, had the player held that cash and paid at
once: for rents, taxes and the charges of cards, unless the card pays every other player, since the
debt has one creditor at most.
-/

namespace LivePoly
namespace Rules

open Engine Checked

/-- The effects that charge the player who drew the card. -/
def chargesPlayer : GameCardEffect → Bool
  | .payMoney _ | .payEachPlayer _ | .propertyRepairs _ _ => true
  | _ => false

/-- What a player may be charged. -/
inductive Charge where
  | rent (tileKey : TileKey) (dice : DiceRoll)
  | tax (tileKey : TileKey)
  | card (drawn : GameEngineCard) (charges : chargesPlayer drawn.effect = true)

/-- The player is charged. -/
def Charge.run (s : GameEngineState) (p : RoomPlayerId) : Charge → Checked GameEngineResult
  | rent tileKey dice => payRent s p tileKey dice
  | tax tileKey => payTax s p tileKey
  | card drawn _ => applyCardEffect s p drawn

/-- What the player pays each of the others. -/
def Charge.eachAmount? : Charge → Option Int
  | card drawn _ =>
    match drawn.effect with
    | .payEachPlayer amount => some amount
    | _ => none
  | _ => none

/-- The card pays something to each of the other players, and there is one. -/
def Charge.PaysOthers (s : GameEngineState) (p : RoomPlayerId) (charge : Charge) : Prop :=
  ∃ amount, charge.eachAmount? = some amount ∧ amount ≠ 0 ∧ otherActivePlayers s p ≠ []

/-- What a player has in cash. -/
def cashOf (s : GameEngineState) (q : RoomPlayerId) : Option Int :=
  (s.player? q).map GameEnginePlayer.cash

/-- The player holds another sum. -/
def withCash (s : GameEngineState) (p : RoomPlayerId) (cash : Int) : GameEngineState :=
  s.updatePlayer p fun x => { x with cash }

/-- While the debt is pending, no cash but its debtor's has changed. -/
structure RaisedCash (p : RoomPlayerId) (s t : GameEngineState) : Prop where
  debt : t.debt = s.debt
  others : ∀ q, q ≠ p → cashOf t q = cashOf s q

/-! ## Cash -/

section Cash

variable {s t : GameEngineState} {p q : RoomPlayerId} {pl : GameEnginePlayer}

theorem cashOf_eq_some (h : s.player? q = some pl) : cashOf s q = some pl.cash := by
  unfold cashOf
  rw [h]
  rfl

theorem cashOf_addCash (amount : Int) : cashOf (s.addCash p amount) q =
    (cashOf s q).map fun cash => if q = p then cash + amount else cash := by
  unfold cashOf
  rw [GameEngineState.player?_addCash]
  by_cases hq : q = p
  · simp [hq, Function.comp_def]
  · simp [hq, Function.comp_def]

theorem player?_withCash (cash : Int) : (withCash s p cash).player? q =
    if q = p then (s.player? q).map fun x => { x with cash } else s.player? q := by
  unfold withCash
  exact GameEngineState.player?_updatePlayer s p q fun _ => rfl

theorem cashOf_withCash (hpl : s.player? p = some pl) (cash : Int) :
    cashOf (withCash s p cash) q = if q = p then some cash else cashOf s q := by
  unfold cashOf
  rw [player?_withCash]
  by_cases hq : q = p
  · rw [if_pos hq, if_pos hq, hq, hpl]
    rfl
  · rw [if_neg hq, if_neg hq]

/-- A debt that has been paid, without what its reason brings about. -/
def settleDebt (s : GameEngineState) (debt : GameEngineDebt) : GameEngineState :=
  debt.creditorRoomPlayerId.elim (s.addCash debt.roomPlayerId (-debt.amount)) fun creditor =>
    (s.addCash debt.roomPlayerId (-debt.amount)).addCash creditor debt.amount

theorem cashOf_settleDebt {debt : GameEngineDebt} (h : ∀ q, cashOf s q = cashOf t q) :
    cashOf (settleDebt s debt) q = cashOf (settleDebt t debt) q := by
  unfold settleDebt
  cases debt.creditorRoomPlayerId with
  | none => rw [Option.elim_none, Option.elim_none, cashOf_addCash, cashOf_addCash, h]
  | some creditor =>
    rw [Option.elim_some, Option.elim_some, cashOf_addCash, cashOf_addCash, cashOf_addCash,
      cashOf_addCash, h]

theorem cashOf_debtPaidState {debt : GameEngineDebt} :
    cashOf (debtPaidState s debt) q = cashOf (settleDebt s debt) q := by
  unfold debtPaidState
  dsimp only
  split
  · refine Eq.trans ?_ (rfl : cashOf (settleDebt s debt) q = _)
    unfold cashOf releasePlayerFromJail
    show ((GameEngineState.updatePlayer (settleDebt s debt) _ _).player? q).map _ = _
    rw [GameEngineState.player?_updatePlayer]
    · split
      · simp [Function.comp_def]
      · rfl
    · exact fun _ => rfl
  · rfl

theorem received_each (l : List GameEnginePlayer) (amount : Int) (q : RoomPlayerId) :
    received (l.flatMap fun x => [(p, -amount), (x.roomPlayerId, amount)]) q =
      (if p = q then -(l.length * amount) else 0) +
        (l.countP fun x => x.roomPlayerId = q) * amount := by
  unfold received
  induction l with
  | nil => simp
  | cons x l ih =>
    rw [List.flatMap_cons, List.map_append, List.sum_append, ih, List.countP_cons,
      List.length_cons]
    by_cases hp : p = q
    · by_cases hx : x.roomPlayerId = q
      · simp [hp, hx]
        ring
      · simp [hp, hx]
        ring
    · by_cases hx : x.roomPlayerId = q
      · simp [hp, hx]
        ring
      · simp [hp, hx]

theorem cashOf_paid (payments : List (RoomPlayerId × Int)) :
    cashOf (payments.foldl (fun s payment => s.addCash payment.1 payment.2) s) q =
      (cashOf s q).map fun cash => cash + received payments q := by
  induction payments generalizing s with
  | nil => simp [received]
  | cons payment payments ih =>
    rw [List.foldl_cons, ih, cashOf_addCash, Option.map_map]
    congr 1
    funext cash
    unfold received
    rw [List.map_cons, List.sum_cons, Function.comp_apply]
    by_cases hq : q = payment.1
    · rw [if_pos hq, if_pos hq.symm, add_assoc]
    · rw [if_neg hq, if_neg (Ne.symm hq), zero_add]

end Cash

/-! ## Charges -/

section Charges

variable {s t : GameEngineState} {p : RoomPlayerId} {pl : GameEnginePlayer} {charge : Charge}
  {r : GameEngineResult} {debt : GameEngineDebt}

/-- The charge has become the debt; with enough cash at hand it would have been paid as the debt
will be. -/
structure Defers (s : GameEngineState) (p : RoomPlayerId) (charge : Charge)
    (debt : GameEngineDebt) : Prop where
  debtor : debt.roomPlayerId = p
  paid : ∀ cash, 0 ≤ debt.amount → debt.amount ≤ cash → ∃ events,
    charge.run (withCash s p cash) p = .ok ⟨settleDebt (withCash s p cash) debt, events⟩

theorem eq_of_paymentRequired {debt' : GameEngineDebt}
    (h : [paymentRequired debt'] = [paymentRequired debt]) : debt' = debt := by
  cases debt
  cases debt'
  cases h
  rfl

theorem player?_withCash_self (hpl : s.player? p = some pl) (cash : Int) :
    (withCash s p cash).player? p = some { pl with cash } := by
  rw [player?_withCash, if_pos rfl, hpl]
  rfl

theorem debit_cases (hpl : s.player? p = some pl) {amount : Int} {reason : GameEngineDebtReason}
    {payment : PaymentResult}
    (h : debitPlayerOrCreateDebt s ⟨p, none, amount, reason⟩ = .ok payment) :
    payment.events = [] ∨ payment.paid = false ∧
      payment.state = createDebtState s ⟨p, none, amount, reason⟩ ∧
      payment.events = [paymentRequired ⟨p, none, amount, reason⟩] ∧
      ∀ cash, amount ≤ cash → debitPlayerOrCreateDebt (withCash s p cash) ⟨p, none, amount, reason⟩ =
        .ok ⟨settleDebt (withCash s p cash) ⟨p, none, amount, reason⟩, [], true⟩ := by
  obtain ⟨h0, ⟨_, rfl⟩ | ⟨_, rfl⟩⟩ := (debitPlayerOrCreateDebt_eq_ok hpl).mp h
  · exact .inl rfl
  · refine .inr ⟨rfl, rfl, rfl, fun cash hcash => ?_⟩
    exact (debitPlayerOrCreateDebt_eq_ok (player?_withCash_self hpl cash)).mpr
      ⟨h0, .inl ⟨hcash, rfl⟩⟩

theorem payTax_defers (hpl : s.player? p = some pl) {key : TileKey} (h : payTax s p key = .ok r)
    (hrequired : r.events = [paymentRequired debt]) :
    r.state = createDebtState s debt ∧ Defers s p (.tax key) debt := by
  simp only [payTax, bind_eq_ok, pure_eq_ok] at h
  obtain ⟨tile, htile, payment, hpay, rfl⟩ := h
  rcases debit_cases hpl hpay with hnone | ⟨hpaid, hstate, hevents, hlater⟩
  · dsimp only at hrequired
    rw [hnone] at hrequired
    split at hrequired <;> cases hrequired
  · dsimp only at hrequired
    rw [hpaid, if_neg Bool.false_ne_true, hevents] at hrequired
    obtain rfl := eq_of_paymentRequired hrequired
    refine ⟨hstate, rfl, fun cash _ hcash => ?_⟩
    have htile' : getTaxTile (withCash s p cash) key = .ok tile := htile
    show ∃ events, payTax (withCash s p cash) p key = _
    unfold payTax
    rw [htile', ok_bind, hlater cash hcash]
    exact ⟨_, rfl⟩

theorem payRent_defers (hpl : s.player? p = some pl) {key : TileKey} {dice : DiceRoll}
    (h : payRent s p key dice = .ok r) (hrequired : r.events = [paymentRequired debt]) :
    r.state = createDebtState s debt ∧ Defers s p (.rent key dice) debt := by
  have hquiet : ∀ state, .ok ⟨state, []⟩ = (.ok r : Checked GameEngineResult) → False := by
    intro state heq
    cases heq
    cases hrequired
  unfold payRent at h
  dsimp only at h
  split at h
  · exact (hquiet _ h).elim
  rename_i property hproperty
  split at h
  · exact (hquiet _ h).elim
  rename_i owner howner
  split at h
  · exact (hquiet _ h).elim
  rename_i hother
  split at h
  · exact (hquiet _ h).elim
  rename_i tile htile
  simp only [bind_eq_ok, orThrow_eq_ok, pure_eq_ok] at h
  obtain ⟨_, hrent, amount, rfl, payment, hpay, rfl⟩ := h
  obtain ⟨hcreditor, ⟨_, _, rfl⟩ | ⟨_, rfl⟩⟩ := (transferPlayerCashOrCreateDebt_eq_ok hpl).mp hpay
  · cases hrequired
  · dsimp only at hrequired
    rw [if_neg Bool.false_ne_true] at hrequired
    obtain rfl := eq_of_paymentRequired hrequired
    refine ⟨rfl, rfl, fun cash h0 hcash => ?_⟩
    have hproperty' : (withCash s p cash).property? key = some property := hproperty
    have htile' : ((withCash s p cash).board.tile? key).bind GameTile.ownable? = some tile := htile
    have hrent' : calculateRent (withCash s p cash) tile dice = .ok (some amount) := hrent
    have hcreditor' : ∃ cl, (withCash s p cash).player? owner = some cl := by
      rw [player?_withCash, ← Option.isSome_iff_exists]
      obtain ⟨cl, hcl⟩ := hcreditor
      split <;> simp [hcl]
    have hpaid : transferPlayerCashOrCreateDebt (withCash s p cash) p owner amount .rent =
        .ok ⟨settleDebt (withCash s p cash) ⟨p, some owner, amount, .rent⟩, [], true⟩ :=
      (transferPlayerCashOrCreateDebt_eq_ok (player?_withCash_self hpl cash)).mpr
        ⟨hcreditor', .inl ⟨h0, hcash, rfl⟩⟩
    show ∃ events, payRent (withCash s p cash) p key dice = _
    unfold payRent
    rw [hproperty']
    dsimp only
    rw [howner]
    dsimp only
    rw [if_neg hother, htile']
    dsimp only
    rw [hrent', ok_bind]
    unfold orThrow
    rw [ok_bind, hpaid]
    exact ⟨_, rfl⟩

theorem payCardCharge_defers (hpl : s.player? p = some pl) {amount : Int}
    (h : payCardCharge s p amount = .ok r) (hrequired : r.events = [paymentRequired debt]) :
    debt = ⟨p, none, amount, .card⟩ ∧ r.state = createDebtState s debt ∧
      ∀ cash, amount ≤ cash → ∃ events, payCardCharge (withCash s p cash) p amount =
        .ok ⟨settleDebt (withCash s p cash) debt, events⟩ := by
  simp only [payCardCharge, bind_eq_ok, pure_eq_ok] at h
  obtain ⟨payment, hpay, rfl⟩ := h
  dsimp only at hrequired
  rcases debit_cases hpl hpay with hnone | ⟨_, hstate, hevents, hlater⟩
  · rw [hnone] at hrequired
    cases hrequired
  · rw [hevents] at hrequired
    obtain rfl := eq_of_paymentRequired hrequired
    refine ⟨rfl, hstate, fun cash hcash => ?_⟩
    unfold payCardCharge
    rw [hlater cash hcash]
    exact ⟨_, rfl⟩

theorem card_defers (hpl : s.player? p = some pl) {drawn : GameEngineCard}
    {charges : chargesPlayer drawn.effect = true}
    (hnot : (Charge.card drawn charges).eachAmount? = none) (h : applyCardEffect s p drawn = .ok r)
    (hrequired : r.events = [paymentRequired debt]) :
    r.state = createDebtState s debt ∧ Defers s p (.card drawn charges) debt := by
  obtain ⟨key, effect⟩ := drawn
  cases effect with
  | payMoney amount =>
    obtain ⟨rfl, hstate, hlater⟩ := payCardCharge_defers hpl h hrequired
    exact ⟨hstate, rfl, fun cash _ hcash => hlater cash hcash⟩
  | propertyRepairs houseAmount hotelAmount =>
    unfold applyCardEffect payPropertyRepairs at h
    dsimp only at h
    split at h
    · cases h
      cases hrequired
    · rename_i hamount
      obtain ⟨rfl, hstate, hlater⟩ := payCardCharge_defers hpl h hrequired
      refine ⟨hstate, rfl, fun cash _ hcash => ?_⟩
      obtain ⟨events, hpaid⟩ := hlater cash hcash
      refine ⟨events, Eq.trans ?_ hpaid⟩
      show payPropertyRepairs (withCash s p cash) p houseAmount hotelAmount = _
      unfold payPropertyRepairs
      exact if_neg hamount
  | payEachPlayer amount => cases hnot
  | _ => cases charges

theorem otherActivePlayers_withCash (cash : Int) :
    otherActivePlayers (withCash s p cash) p = otherActivePlayers s p := by
  unfold otherActivePlayers withCash GameEngineState.updatePlayer Keyed.modify
  dsimp only
  induction s.players with
  | nil => rfl
  | cons x l ih =>
    rw [List.map_cons, List.filter_cons, List.filter_cons, ih]
    by_cases hx : x.roomPlayerId = p
    · simp [hx]
    · simp [hx]

/-- The card pays the other players: the debt is the whole sum, to nobody. -/
theorem payEachPlayer_defers (hpl : s.player? p = some pl) {amount : Int}
    (h : payEachPlayer s p amount = .ok r) (hrequired : r.events = [paymentRequired debt]) :
    r.state = createDebtState s debt ∧
      debt = ⟨p, none, (otherActivePlayers s p).length * amount, .card⟩ ∧
      ∀ cash, 0 ≤ debt.amount → debt.amount ≤ cash →
        payEachPlayer (withCash s p cash) p amount =
          .ok ⟨((otherActivePlayers s p).flatMap fun x =>
            [(p, -amount), (x.roomPlayerId, amount)]).foldl
              (fun s payment => s.addCash payment.1 payment.2) (withCash s p cash), []⟩ := by
  unfold payEachPlayer at h
  rw [findPlayer_eq_ok.mpr hpl, ok_bind] at h
  dsimp only at h
  split at h
  · obtain ⟨rfl, hstate, _⟩ := payCardCharge_defers hpl h hrequired
    refine ⟨hstate, rfl, fun cash h0 hcash => ?_⟩
    dsimp only at h0 hcash
    unfold payEachPlayer
    rw [findPlayer_eq_ok.mpr (player?_withCash_self hpl cash), ok_bind]
    dsimp only
    rw [otherActivePlayers_withCash, if_neg (not_lt.mpr hcash)]
    by_cases hnone : otherActivePlayers s p = []
    · rw [hnone]
      rfl
    · have hlength : 0 < ((otherActivePlayers s p).length : Int) := by
        exact_mod_cast List.length_pos_of_ne_nil hnone
      have hamount : 0 ≤ amount := nonneg_of_mul_nonneg_right h0 hlength
      rw [foldlM_pay hamount _ _ _ (player?_withCash_self hpl cash) hcash]
      · rfl
      · intro x hx
        obtain ⟨hmem, hother, _⟩ := mem_otherActivePlayers.mp hx
        refine ⟨hother, ?_⟩
        rw [player?_withCash, if_neg hother, ← Option.isSome_iff_exists]
        exact (Keyed.find_isSome_iff _).mpr (List.mem_map_of_mem hmem)
  · simp only [bind_eq_ok, pure_eq_ok] at h
    obtain ⟨_, _, rfl⟩ := h
    cases hrequired

/-- Whatever the player does with its tiles, no other player's cash changes. -/
theorem Estate.raisedCash {events : List GameEngineEvent} {s' : GameEngineState}
    (h : Estate p pl s events s') : RaisedCash p s s' := by
  have hothers : ∀ amount q, q ≠ p → cashOf (s.addCash p amount) q = cashOf s q := by
    intro amount q hq
    rw [cashOf_addCash]
    simp [hq]
  cases h with
  | bought | houseBuilt | hotelBuilt | hotelSold | houseSold | mortgaged | unmortgaged =>
    exact ⟨rfl, hothers _⟩

/-- A debtor who sells and mortgages, however often, only raises cash. -/
theorem raisedCash_chain {events : List GameEngineEvent}
    (h : Trace.Chain (EstateStep p) Settled s events t) : RaisedCash p s t := by
  induction h with
  | nil => exact ⟨rfl, fun _ _ => rfl⟩
  | cons hfirst _ _ ih =>
    obtain ⟨_, _, hestate⟩ := hfirst
    have hone := hestate.raisedCash
    exact ⟨ih.debt.trans hone.debt, fun q hq => (ih.others q hq).trans (hone.others q hq)⟩

/-- The cash of all players when the debt is paid after the player has raised cash. -/
theorem cashOf_raised (hpl : s.player? p = some pl) (hstate : r.state = createDebtState s debt)
    (hraised : RaisedCash p r.state t) {r' : GameEngineResult} (hpaid : payDebt t p = .ok r') :
    ∃ cash, cashOf t p = some cash ∧ 0 ≤ debt.amount ∧ debt.amount ≤ cash ∧
      (∀ q, cashOf t q = cashOf (withCash s p cash) q) ∧
      ∀ q, cashOf r'.state q = cashOf (settleDebt t debt) q := by
  obtain ⟨debt', pl', hpays, rfl⟩ := payDebt_pays hpaid
  have hdebt : debt' = debt := by
    have hpending := hraised.debt
    rw [hpays.pending, hstate] at hpending
    exact Option.some.inj hpending
  subst hdebt
  refine ⟨pl'.cash, cashOf_eq_some hpays.player, hpays.amount, hpays.cash, ?_,
    fun q => cashOf_debtPaidState⟩
  intro q
  rw [cashOf_withCash hpl]
  by_cases hq : q = p
  · rw [if_pos hq, hq]
    exact cashOf_eq_some hpays.player
  · rw [if_neg hq, hraised.others q hq, hstate]
    rfl

theorem settleDebt_debt {debt : GameEngineDebt} : (settleDebt s debt).debt = s.debt := by
  unfold settleDebt
  cases debt.creditorRoomPlayerId <;> rfl

theorem paid_debt (payments : List (RoomPlayerId × Int)) :
    (payments.foldl (fun s payment => s.addCash payment.1 payment.2) s).debt = s.debt := by
  rw [foldl_addCash]

/-- The payment of each player's share, told by the cash. -/
theorem payEach_iff {amount cash : Int}
    (hequal : ∀ q, cashOf t q = cashOf (withCash s p cash) q) :
    (∀ q, cashOf (settleDebt t ⟨p, none, (otherActivePlayers s p).length * amount, .card⟩) q =
      cashOf (((otherActivePlayers s p).flatMap fun x =>
        [(p, -amount), (x.roomPlayerId, amount)]).foldl
          (fun s payment => s.addCash payment.1 payment.2) (withCash s p cash)) q) ↔
      (amount = 0 ∨ otherActivePlayers s p = []) := by
  have hshares : ∀ q, received ((otherActivePlayers s p).flatMap fun x =>
      [(p, -amount), (x.roomPlayerId, amount)]) q =
        (if p = q then -((otherActivePlayers s p).length * amount) else 0) +
          ((otherActivePlayers s p).countP fun x => x.roomPlayerId = q) * amount :=
    received_each _ _
  constructor
  · intro hall
    by_contra hnot
    obtain ⟨hamount, hothers⟩ := not_or.mp hnot
    obtain ⟨x, hx⟩ := List.exists_mem_of_ne_nil _ hothers
    obtain ⟨hmem, hother, _⟩ := mem_otherActivePlayers.mp hx
    have hcash := hall x.roomPlayerId
    have hfound : ((withCash s p cash).player? x.roomPlayerId).isSome := by
      rw [player?_withCash, if_neg hother]
      exact (Keyed.find_isSome_iff _).mpr (List.mem_map_of_mem hmem)
    obtain ⟨xl, hxl⟩ := Option.isSome_iff_exists.mp hfound
    rw [cashOf_paid, hshares, ← hequal, settleDebt, Option.elim_none, cashOf_addCash, hequal,
      cashOf_eq_some hxl, if_neg (Ne.symm hother)] at hcash
    simp only [Option.map_some, if_neg hother, Option.some.injEq] at hcash
    have hcount : 0 < (otherActivePlayers s p).countP fun y => y.roomPlayerId = x.roomPlayerId :=
      List.countP_pos_iff.mpr ⟨x, hx, decide_eq_true rfl⟩
    have hzero : (((otherActivePlayers s p).countP fun y => y.roomPlayerId = x.roomPlayerId : Nat) :
        Int) * amount = 0 := by omega
    rcases Int.mul_eq_zero.mp hzero with hnone | hnone
    · omega
    · exact hamount hnone
  · intro hnone q
    have hlength : ((otherActivePlayers s p).length : Int) * amount = 0 := by
      rcases hnone with rfl | hnil
      · exact mul_zero _
      · rw [hnil]
        exact zero_mul _
    have hcount : (((otherActivePlayers s p).countP fun y => y.roomPlayerId = q : Nat) : Int) *
        amount = 0 := by
      rcases hnone with rfl | hnil
      · exact mul_zero _
      · rw [hnil]
        exact zero_mul _
    rw [cashOf_paid, hshares, hlength, hcount, settleDebt, Option.elim_none, cashOf_addCash, hequal]
    congr 1
    funext value
    dsimp only
    split <;> split <;> omega

/-- A deferred charge leaves every player the cash an immediate one would have left, had the player
held what it raised, unless a card pays each of the other players. -/
theorem deferred_eq_immediate (hpl : s.player? p = some pl) (hcharge : charge.run s p = .ok r)
    (hrequired : r.events = [paymentRequired debt]) (hraised : RaisedCash p r.state t)
    {r' : GameEngineResult} (hpaid : payDebt t p = .ok r') :
    ∃ cash atOnce, cashOf t p = some cash ∧
      charge.run (withCash s p cash) p = .ok atOnce ∧ atOnce.state.debt = s.debt ∧
      ((∀ q, cashOf r'.state q = cashOf atOnce.state q) ↔ ¬ charge.PaysOthers s p) := by
  cases heach : charge.eachAmount? with
  | none =>
    have hdefers : r.state = createDebtState s debt ∧ Defers s p charge debt := by
      cases charge with
      | rent => exact payRent_defers hpl hcharge hrequired
      | tax => exact payTax_defers hpl hcharge hrequired
      | card => exact card_defers hpl heach hcharge hrequired
    obtain ⟨hstate, hdebtor, hlater⟩ := hdefers
    obtain ⟨cash, hcash, h0, henough, hequal, hsettled⟩ := cashOf_raised hpl hstate hraised hpaid
    obtain ⟨events, hrun⟩ := hlater cash h0 henough
    refine ⟨cash, _, hcash, hrun, settleDebt_debt, iff_of_true ?_ ?_⟩
    · exact fun q => (hsettled q).trans (cashOf_settleDebt hequal)
    · rintro ⟨amount, hamount, _⟩
      cases heach.symm.trans hamount
  | some amount =>
    obtain ⟨key, charges, rfl⟩ : ∃ key charges,
        charge = .card ⟨key, .payEachPlayer amount⟩ charges := by
      cases charge with
      | rent | tax => cases heach
      | card drawn charges =>
        obtain ⟨key, effect⟩ := drawn
        cases effect with
        | payEachPlayer amount' =>
          cases heach
          exact ⟨key, charges, rfl⟩
        | _ => cases heach
    obtain ⟨hstate, hdebt, hlater⟩ := payEachPlayer_defers hpl hcharge hrequired
    obtain ⟨cash, hcash, h0, henough, hequal, hsettled⟩ := cashOf_raised hpl hstate hraised hpaid
    refine ⟨cash, _, hcash, hlater cash h0 henough, paid_debt _, ?_⟩
    simp only [hsettled, hdebt]
    rw [payEach_iff hequal]
    constructor
    · rintro hnone ⟨amount', hamount, hne, hothers⟩
      cases heach.symm.trans hamount
      rcases hnone with hzero | hnil
      · exact hne hzero
      · exact hothers hnil
    · intro hnot
      by_contra hsome
      obtain ⟨hne, hothers⟩ := not_or.mp hsome
      exact hnot ⟨amount, heach, hne, hothers⟩

theorem raisedCash_withCash (hpl : s.player? p = some pl) (cash : Int) :
    RaisedCash p s (withCash s p cash) where
  debt := rfl
  others q hq := by rw [cashOf_withCash hpl, if_neg hq]

end Charges

/-! ## A poor player -/

/-- The first of three players at the start of their game, with little cash. -/
def poorStart : Checked GameEngineState :=
  (createInitialGameState ⟨0, "room"⟩ threePlayers).map fun s => withCash s ⟨1⟩ 60

/-- The debts of two charges. -/
def incomeTaxDebt : GameEngineDebt := ⟨⟨1⟩, none, 200, .tax⟩

def payEachDebt : GameEngineDebt := ⟨⟨1⟩, none, 100, .card⟩

/-- The card that pays each player fifty. -/
def payEachFifty : Charge := .card ⟨.chancePayEachPlayer, .payEachPlayer 50⟩ rfl

/-- An income tax paid later. -/
theorem poorStart_tax : ∃ s r r' cash atOnce, poorStart = .ok s ∧
    (Charge.tax .incomeTax).run s ⟨1⟩ = .ok r ∧ payDebt (withCash r.state ⟨1⟩ 250) ⟨1⟩ = .ok r' ∧
    cashOf (withCash r.state ⟨1⟩ 250) ⟨1⟩ = some cash ∧
    (Charge.tax .incomeTax).run (withCash s ⟨1⟩ cash) ⟨1⟩ = .ok atOnce ∧
    ∀ q, cashOf r'.state q = cashOf atOnce.state q := by
  obtain ⟨s, hs, htest⟩ := exists_ok_of_any (by decide +kernel :
    poorStart.toOption.any (fun s => (s.player? ⟨1⟩).any fun _ =>
      ((Charge.tax .incomeTax).run s ⟨1⟩).toOption.any fun r =>
        decide (r.events = [paymentRequired incomeTaxDebt]) &&
          (r.state.player? ⟨1⟩).any fun _ =>
            (payDebt (withCash r.state ⟨1⟩ 250) ⟨1⟩).toOption.any fun _ => true) = true)
  obtain ⟨pl, hpl, hcharge⟩ := (Option.any_eq_true _ _).mp htest
  obtain ⟨r, hr, hrequired⟩ := exists_ok_of_any hcharge
  obtain ⟨hrequired, hfound⟩ := Bool.and_eq_true_iff.mp hrequired
  obtain ⟨pl', hpl', hpays⟩ := (Option.any_eq_true _ _).mp hfound
  obtain ⟨r', hr', _⟩ := exists_ok_of_any hpays
  obtain ⟨cash, atOnce, hcash, honce, _, hiff⟩ := deferred_eq_immediate hpl hr
    (of_decide_eq_true hrequired) (raisedCash_withCash hpl' 250) hr'
  refine ⟨s, r, r', cash, atOnce, hs, hr, hr', hcash, honce, hiff.mpr ?_⟩
  rintro ⟨_, hnone, _⟩
  cases hnone

/-- Paid at once, fifty go to the second player; paid later, nothing. -/
theorem poorStart_payEach : ∃ s r r' atOnce, poorStart = .ok s ∧
    payEachFifty.run s ⟨1⟩ = .ok r ∧ r.events = [paymentRequired payEachDebt] ∧
    RaisedCash ⟨1⟩ r.state (withCash r.state ⟨1⟩ 250) ∧
    payDebt (withCash r.state ⟨1⟩ 250) ⟨1⟩ = .ok r' ∧
    payEachFifty.run (withCash s ⟨1⟩ 250) ⟨1⟩ = .ok atOnce ∧
    cashOf r'.state ⟨2⟩ = some 1500 ∧ cashOf atOnce.state ⟨2⟩ = some 1550 := by
  obtain ⟨s, hs, htest⟩ := exists_ok_of_any (by decide +kernel :
    poorStart.toOption.any (fun s => (payEachFifty.run s ⟨1⟩).toOption.any fun r =>
      decide (r.events = [paymentRequired payEachDebt]) &&
        (r.state.player? ⟨1⟩).any fun _ =>
          (payDebt (withCash r.state ⟨1⟩ 250) ⟨1⟩).toOption.any fun r' =>
            (payEachFifty.run (withCash s ⟨1⟩ 250) ⟨1⟩).toOption.any fun atOnce =>
              decide (cashOf r'.state ⟨2⟩ = some 1500 ∧
                cashOf atOnce.state ⟨2⟩ = some 1550)) = true)
  obtain ⟨r, hr, hrequired⟩ := exists_ok_of_any htest
  obtain ⟨hrequired, hfound⟩ := Bool.and_eq_true_iff.mp hrequired
  obtain ⟨pl, hpl, hpays⟩ := (Option.any_eq_true _ _).mp hfound
  obtain ⟨r', hr', honce⟩ := exists_ok_of_any hpays
  obtain ⟨atOnce, honce, hcash⟩ := exists_ok_of_any honce
  obtain ⟨hlater, hnow⟩ := of_decide_eq_true hcash
  exact ⟨s, r, r', atOnce, hs, hr, of_decide_eq_true hrequired, raisedCash_withCash hpl 250, hr',
    honce, hlater, hnow⟩

end Rules
end LivePoly
