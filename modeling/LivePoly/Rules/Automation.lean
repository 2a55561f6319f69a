import LivePoly.Rules.AutoDebt
import LivePoly.Rules.Progress
import LivePoly.Rules.Solvency

/-!
# Rules.Automation

What may be played for a player. The timer and the bots take their intents from the state they
find; here is said when the reducer accepts each of these intents.
-/

namespace LivePoly
namespace Rules

open Engine Checked

/-- Both dice show one to six. -/
structure ShowsDice (dice : DiceRoll) : Prop where
  first : 1 ≤ dice.1 ∧ dice.1 ≤ 6
  second : 1 ≤ dice.2 ∧ dice.2 ≤ 6

/-- The creditor of the pending debt is in the game. -/
def CreditorActive (s : GameEngineState) : Prop :=
  ∀ debt creditor, s.debt = some debt → debt.creditorRoomPlayerId = some creditor →
    IsActive s creditor

section Turns

variable {env : Env} {s : GameEngineState} {p : RoomPlayerId} {pl : GameEnginePlayer}
  {dice : DiceRoll}

theorem Valid.onTurn (hv : Valid s) (hp : InProgress s) :
    ∃ pl, OnTurn s s.currentTurnRoomPlayerId pl := by
  obtain ⟨pl, hpl, hactive⟩ := hv.table.turn hp
  exact ⟨pl, hpl, hactive, rfl⟩

theorem isCurrent (ho : OnTurn s p pl) : assertCurrentTurn s p = .ok () :=
  assertCurrentTurn_eq_ok.mpr ⟨pl, ho⟩

theorem assertValidDice_eq (h : ShowsDice dice) :
    assertValidDice [.int dice.1, .int dice.2] = .ok dice := by
  obtain ⟨⟨h1, h6⟩, h1', h6'⟩ := h
  have hfirst : dieValue (.int dice.1) = some dice.1 := by
    rw [dieValue, if_pos (by omega), Int.toNat_natCast]
  have hsecond : dieValue (.int dice.2) = some dice.2 := by
    rw [dieValue, if_pos (by omega), Int.toNat_natCast]
  rw [assertValidDice, List.map_cons, List.map_cons, List.map_nil, hfirst, hsecond]

/-! ## Turns -/

theorem rollAndMove_accepted (hv : Valid s) (ho : OnTurn s p pl) (hphase : AwaitsRoll s)
    (hdice : ShowsDice dice) :
    Succeeds (reduceGameEngineIntent env s (.rollAndMove p [.int dice.1, .int dice.2])) := by
  have hdebt : s.debt = none := hv.phase.debt_none (by rcases hphase with h | h <;> simp [h])
  have hcan : assertCanRoll s = .ok () := by
    simp only [assertCanRoll, bind_eq_ok, assertGameActive_eq_ok, assertNoDebtResolution_eq_ok,
      rejectIf_eq_ok]
    rcases hphase with h | h <;> simp [h, hdebt]
  refine succeeds_bind hcan (succeeds_bind (isCurrent ho) ?_)
  exact succeeds_bind (assertValidDice_eq hdice) (rollAndMove_succeeds hv ho hphase dice)

theorem payJailFine_accepted (ho : OnTurn s p pl) (hjail : pl.inJail = true)
    (hcash : jailFineAmount ≤ pl.cash) :
    Succeeds (reduceGameEngineIntent env s (.payJailFine p)) := by
  refine succeeds_bind (isCurrent ho) ?_
  refine succeeds_bind (findPlayer_eq_ok.mpr ho.player) ?_
  refine succeeds_bind (a := ()) (rejectIf_eq_ok.mpr (by simp [hjail])) ?_
  have hfine : (0 : Int) ≤ jailFineAmount := by decide
  exact succeeds_bind (debitPlayer_eq_ok.mpr ⟨hfine, pl, ho.player, hcash, rfl⟩) (succeeds_pure _)

theorem endTurn_accepted (hv : Valid s) (ho : OnTurn s p pl) (hphase : s.phase = .awaitingTurnEnd) :
    Succeeds (reduceGameEngineIntent env s (.endTurn p)) := by
  have hdebt : s.debt = none := hv.phase.debt_none (by simp [hphase])
  have hcan : assertCanEndTurn s = .ok () := by
    simp only [assertCanEndTurn, bind_eq_ok, assertGameActive_eq_ok, assertNoDebtResolution_eq_ok,
      rejectIf_eq_ok]
    simp [hphase, hdebt]
  refine succeeds_bind hcan (succeeds_bind (isCurrent ho) ?_)
  unfold endTurn
  split
  · exact succeeds_pure _
  · have hnext : Succeeds (findNextActivePlayer s) :=
      findNextActivePlayer_succeeds ⟨pl, ho.current ▸ ho.player, ho.active⟩
    exact hnext.then fun _ _ => succeeds_pure _

/-! ## The pending tile -/

theorem Valid.pendingTile (hv : Valid s) (hphase : s.phase = .awaitingPropertyDecision) :
    ∃ key tile property, s.pendingTileKey = some key ∧ assertCanBuyProperty s = .ok () ∧
      (s.board.tile? key).bind GameTile.ownable? = some tile ∧ tile.key = key ∧
      s.property? key = some property ∧ property.ownerRoomPlayerId = none := by
  obtain ⟨key, hkey⟩ := Option.isSome_iff_exists.mp (hv.phase.pending.mpr hphase)
  obtain ⟨_, found, ownable, property, _, hfound, rfl, hown, hproperty, hfree⟩ :=
    (hv.phase.pendingOk key hkey).tile
  have htile : (s.board.tile? found.key).bind GameTile.ownable? = some ownable := by
    rw [tile?_of_mem (List.mem_of_getElem? hfound), Option.bind_some, hown]
  have hdebt : s.debt = none := hv.phase.debt_none (by simp [hphase])
  refine ⟨found.key, ownable, property, hkey, ?_, htile, ownable_of_tile? htile, hproperty, hfree⟩
  simp only [assertCanBuyProperty, bind_eq_ok, assertGameActive_eq_ok,
    assertNoDebtResolution_eq_ok, rejectIf_eq_ok]
  simp [hphase, hdebt]

theorem declinePropertyPurchase_accepted (hv : Valid s) (ho : OnTurn s p pl)
    (hphase : s.phase = .awaitingPropertyDecision) :
    Succeeds (reduceGameEngineIntent env s (.declinePropertyPurchase p)) := by
  obtain ⟨key, tile, property, hkey, hcan, htile, rfl, hproperty, hfree⟩ := hv.pendingTile hphase
  refine succeeds_bind hcan (succeeds_bind (isCurrent ho) ?_)
  refine succeeds_bind (orThrow_eq_ok.mpr hkey) (succeeds_bind (orThrow_eq_ok.mpr htile) ?_)
  refine succeeds_bind (findPropertyStateOr_eq_ok.mpr hproperty) ?_
  exact succeeds_bind (a := ()) (rejectIf_eq_ok.mpr (by simp [hfree])) (succeeds_pure _)

theorem buyProperty_accepted (hv : Valid s) (ho : OnTurn s p pl)
    (hphase : s.phase = .awaitingPropertyDecision)
    (hcash : ∀ key tile, s.pendingTileKey = some key →
      (s.board.tile? key).bind GameTile.ownable? = some tile →
      0 ≤ tile.price ∧ tile.price ≤ pl.cash) :
    Succeeds (reduceGameEngineIntent env s (.buyProperty p)) := by
  obtain ⟨key, tile, property, hkey, hcan, htile, rfl, hproperty, hfree⟩ := hv.pendingTile hphase
  obtain ⟨hprice, hcash⟩ := hcash _ tile hkey htile
  refine succeeds_bind hcan (succeeds_bind (isCurrent ho) ?_)
  refine succeeds_bind (orThrow_eq_ok.mpr hkey) (succeeds_bind (orThrow_eq_ok.mpr htile) ?_)
  refine succeeds_bind (findPropertyStateOr_eq_ok.mpr hproperty) ?_
  refine succeeds_bind (a := ()) (rejectIf_eq_ok.mpr (by simp [hfree])) ?_
  exact succeeds_bind (debitPlayer_eq_ok.mpr ⟨hprice, pl, ho.player, hcash, rfl⟩) (succeeds_pure _)

end Turns

/-! ## Auctions -/

section Auctions

variable {env : Env} {s : GameEngineState} {p : RoomPlayerId} {auction : GameEngineAuction}

theorem currentBidder_remains
    (h : getCurrentAuctionBidderRoomPlayerId auction = some p) :
    p ∈ auction.activeRoomPlayerIds ∧ p ∉ auction.passedRoomPlayerIds := by
  unfold getCurrentAuctionBidderRoomPlayerId at h
  split at h
  · rename_i bidder hbidder
    cases h
    exact of_decide_eq_true (Option.mem_filter_iff.mp hbidder).2
  · exact ⟨List.mem_of_find?_eq_some h, by simpa using List.find?_some h⟩

theorem AuctionOk.currentBidder (h : AuctionOk s auction) :
    ∃ p, getCurrentAuctionBidderRoomPlayerId auction = some p := by
  unfold getCurrentAuctionBidderRoomPlayerId
  split
  · exact ⟨_, rfl⟩
  · obtain ⟨q, hq⟩ := List.exists_mem_of_ne_nil _ h.remains
    obtain ⟨hactive, hremains⟩ := List.mem_filter.mp hq
    refine Option.isSome_iff_exists.mp (List.find?_isSome.mpr ⟨q, hactive, hremains⟩)

theorem bidder_guards (hv : Valid s) (hauction : s.auction = some auction)
    (hcurrent : getCurrentAuctionBidderRoomPlayerId auction = some p) :
    assertActiveAuction s = .ok auction ∧ assertAuctionPlayerActive auction p = .ok () ∧
      assertAuctionPlayerCanAct auction p = .ok () := by
  have hphase : s.phase = .awaitingAuctionBid := hv.phase.auction.mp (by rw [hauction]; rfl)
  exact ⟨assertActiveAuction_eq_ok.mpr ⟨hphase, hauction⟩,
    assertAuctionPlayerActive_eq_ok.mpr (currentBidder_remains hcurrent),
    rejectIf_eq_ok.mpr (not_not.mpr hcurrent)⟩

theorem passAuctionBid_accepted (hv : Valid s) (hsolvent : LeaderSolvent s)
    (hauction : s.auction = some auction)
    (hcurrent : getCurrentAuctionBidderRoomPlayerId auction = some p) :
    Succeeds (reduceGameEngineIntent env s (.passAuctionBid p)) := by
  obtain ⟨hactive, hplayer, hcan⟩ := bidder_guards hv hauction hcurrent
  refine succeeds_bind hactive (succeeds_bind hplayer (succeeds_bind hcan ?_))
  dsimp only
  split
  · unfold completeAuctionWithWinner
    dsimp only
    cases hleader : auction.highestBidderRoomPlayerId with
    | none => exact succeeds_ok _
    | some leader =>
      obtain ⟨ll, hll, _, hcash⟩ := hsolvent auction leader hauction hleader
      have hbid := (hv.phase.auctionOk auction hauction).leader (by rw [hleader]; rfl)
      have hpositive : (0 : Int) ≤ auction.currentBid :=
        (by decide : (0 : Int) ≤ minimumAuctionBid).trans hbid
      exact succeeds_bind (debitPlayer_eq_ok.mpr ⟨hpositive, ll, hll, hcash, rfl⟩) (succeeds_ok _)
  · split
    · exact succeeds_pure _
    · exact succeeds_pure _

theorem placeAuctionBid_accepted (hv : Valid s) (hauction : s.auction = some auction)
    (hcurrent : getCurrentAuctionBidderRoomPlayerId auction = some p) {pl : GameEnginePlayer}
    (hpl : s.player? p = some pl) {amount : Int} (hminimum : getMinimumAuctionBid auction ≤ amount)
    (hcash : amount ≤ pl.cash) :
    Succeeds (reduceGameEngineIntent env s (.placeAuctionBid p (.int amount))) := by
  obtain ⟨hactive, hplayer, hcan⟩ := bidder_guards hv hauction hcurrent
  have hpositive : 0 ≤ amount := le_trans (le_of_lt getMinimumAuctionBid_pos) hminimum
  refine succeeds_bind hactive (succeeds_bind hplayer (succeeds_bind hcan ?_))
  refine succeeds_bind (orThrow_eq_ok.mpr (integerAtLeast_eq_some.mpr ⟨rfl, hminimum⟩)) ?_
  refine succeeds_bind (findPlayer_eq_ok.mpr hpl) ?_
  refine succeeds_bind (a := ()) (rejectIf_eq_ok.mpr (not_lt.mpr hcash)) ?_
  dsimp only
  split
  · exact succeeds_bind (debitPlayer_eq_ok.mpr ⟨hpositive, pl, hpl, hcash, rfl⟩) (succeeds_ok _)
  · exact succeeds_pure _

end Auctions

/-! ## Debts and the end of the game -/

section Ends

variable {env : Env} {s : GameEngineState} {p : RoomPlayerId}

theorem autoResolveDebt_accepted (hv : Valid s) (hset : SetIntegrity s)
    (hcreditor : CreditorActive s) (hphase : s.phase = .awaitingDebtResolution) :
    ∃ debt, s.debt = some debt ∧ debt.roomPlayerId = s.currentTurnRoomPlayerId ∧
      Succeeds (reduceGameEngineIntent env s (.autoResolveDebt debt.roomPlayerId)) := by
  obtain ⟨debt, _, hi, hpl, hamount, hother⟩ :=
    (hv.phaseCoherent (inProgress_of_phase hphase rfl)).indebted hphase
  obtain ⟨_, _, _, _, _, r, _, _, _, hresolved, _⟩ :=
    autoResolveDebt_settles hi (liquidable hv.tiles hset) hpl hamount.le fun c hc =>
      ⟨hother c hc, hcreditor debt c hi.pending hc⟩
  exact ⟨debt, hi.pending, (hv.phase.debtOk debt hi.pending).debtor, r, hresolved⟩

theorem declareBankruptcy_accepted (hv : Valid s) (hp : InProgress s) (hactive : IsActive s p)
    (hdebt : s.debt = none) :
    Succeeds (reduceGameEngineIntent env s (.declareBankruptcy p none)) := by
  obtain ⟨pl, hpl, hactive⟩ := hactive
  have hgiven : (none : Option RoomPlayerId).or ((s.debt.filter fun debt =>
      debt.roomPlayerId = p).bind GameEngineDebt.creditorRoomPlayerId) = none := by
    rw [hdebt]
    rfl
  obtain ⟨r, hr, _⟩ := declareBankruptcy_goes hp hpl hactive hv.tiles.keys hgiven nofun
  exact ⟨r, hr⟩

theorem finishGameByTime_accepted (hv : Valid s) (hp : InProgress s)
    (hdue : isDue env.now s.expiresAt = true) :
    Succeeds (reduceGameEngineIntent env s (.finishGameByTime (.int env.now))) := by
  obtain ⟨expiresAt, hexpires, htest⟩ := (Option.any_eq_true _ _).mp hdue
  obtain ⟨hset, hpast⟩ := Bool.and_eq_true_iff.mp htest
  have hset : expiresAt ≠ 0 := of_decide_eq_true hset
  have hpast : expiresAt ≤ env.now := of_decide_eq_true hpast
  have hcan : assertCanFinishByTime s (.int env.now) = .ok (env.now : Int) := by
    simp only [assertCanFinishByTime, assertFinishTime, bind_eq_ok, assertGameActive_eq_ok,
      orThrow_eq_ok, integerAtLeast_eq_some, rejectIf_eq_ok, pure_eq_ok]
    refine ⟨(), hp, env.now, ⟨rfl, by omega⟩, (), ?_, rfl⟩
    rw [hexpires]
    simp
    omega
  refine succeeds_bind hcan ?_
  exact (calculateNetWorthStandings_succeeds hv.tiles.keys).then fun _ _ => succeeds_pure _

end Ends

end Rules
end LivePoly
