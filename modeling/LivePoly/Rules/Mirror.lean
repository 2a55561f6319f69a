import Mathlib.Algebra.BigOperators.Group.List.Basic
import LivePoly.Rules.Reachable

/-!
# Rules.Mirror

The event log tells everything about cash, positions and tiles. A replica that mirrors a state and
replays the events of an action mirrors the state after it (`Action.mirrored`), and so do the
replicas of the states a game goes through.
-/

namespace LivePoly
namespace Rules

open Engine Checked

/-- The replica shows the state; the terms of the pending trade are known. -/
structure Mirrors (replica : Replica) (s : GameEngineState) : Prop where
  seats : replica.seats = s.players.map seatOf
  tiles : replica.tiles = s.properties
  offer : ∀ trade, s.tradeOffer = some trade → replica.offers trade.id = some (termsOf trade)
  total : replica.total = (s.players.map GameEnginePlayer.cash).sum

theorem mirrors_replicaOf (s : GameEngineState) : Mirrors (replicaOf s) s where
  seats := rfl
  tiles := rfl
  offer := by
    intro trade htrade
    simp [replicaOf, htrade]
  total := rfl

/-! ## Replaying -/

/-- The event changes nothing a replica shows. -/
def isInert : GameEngineEvent → Bool
  | .playerRolledDoubles _ _ | .playerRolledThirdDoubles _ | .playerLandedOnTile _ _ _
  | .cardDrawn _ _ _ | .jailEscapeRollSucceeded _ _ | .jailEscapeRollFailed _ _ _
  | .getOutOfJailCardUsed _ | .propertyPurchaseDeclined _ _ | .auctionStarted _ _
  | .auctionBidPlaced _ _ _ | .auctionBidPassed _ _ | .paymentRequired _ _ _ _
  | .tradeRejected _ _ _ _ | .tradeCancelled _ _ _ | .gameFinishedByBankruptcy _ _ _
  | .gameFinishedByTime _ _ _ _ | .gameFinishedAfterLastHumanLeft _ _ _ _ | .turnEnded _ _ _ => true
  | _ => false

/-- The event announces a card. -/
def isCardApplied : GameEngineEvent → Bool
  | .cardApplied _ _ _ _ => true
  | _ => false

section Replay

variable (replica : Replica)

theorem apply_inert {event : GameEngineEvent} (h : isInert event = true) :
    replica.apply event = replica := by
  have hseat : ∀ seat, seatAfter event
      { seat with cash := seat.cash + amountFor replica event seat } = seat := by
    intro seat
    cases event <;> first
      | exact absurd h Bool.false_ne_true
      | simp [amountFor, seatAfter]
  have htile : tileAfter replica event = id := by
    cases event <;> first
      | exact absurd h Bool.false_ne_true
      | rfl
  have hoffers : offersAfter event replica.offers = replica.offers := by
    cases event <;> first
      | exact absurd h Bool.false_ne_true
      | rfl
  have hbank : bankAmount replica event = 0 := by
    cases event <;> first
      | exact absurd h Bool.false_ne_true
      | rfl
  simp only [Replica.apply, hseat, htile, hoffers, hbank, List.map_id, List.map_id', add_zero]

@[simp] theorem replay_nil : replay replica [] = replica := rfl

theorem replay_cons {event : GameEngineEvent} {events : List GameEngineEvent}
    (h : isCardApplied event = false) :
    replay replica (event :: events) = replay (replica.apply event) events := by
  unfold replay
  rw [effective_cons_of_ne]
  · rfl
  · rintro _ _ _ _ rfl
    cases h

theorem replay_inert {event : GameEngineEvent} {events : List GameEngineEvent}
    (h : isInert event = true) :
    replay replica (event :: events) = replay replica events := by
  rw [replay_cons, apply_inert replica h]
  cases event <;> first
    | rfl
    | exact absurd h Bool.false_ne_true

theorem replay_cardApplied {p : RoomPlayerId} {deckKey : GameCardDeckKey} {cardKey : CardKey}
    {effectType : GameCardEffectType} {events : List GameEngineEvent}
    (h : ∀ p creditor amount reason, events.head? ≠ some (.paymentRequired p creditor amount reason)) :
    replay replica (.cardApplied p deckKey cardKey effectType :: events) =
      replay (replica.apply (.cardApplied p deckKey cardKey effectType)) events := by
  unfold replay
  rw [effective]
  · rfl
  · rintro _ _ _ _ _ _ _ _ _ _ rfl
    exact h _ _ _ _ rfl

theorem settled_nil : Settled [] := fun _ _ _ _ h => by cases h

theorem Settled.tail {event : GameEngineEvent} {events : List GameEngineEvent}
    (h : Settled (event :: events)) : Settled events := by
  cases events with
  | nil => exact settled_nil
  | cons next events =>
    intro p deckKey cardKey effectType hlast
    exact h p deckKey cardKey effectType (by rwa [List.getLast?_cons_cons])

theorem effective_append {xs : List GameEngineEvent} (ys : List GameEngineEvent)
    (h : Settled xs) : effective (xs ++ ys) = effective xs ++ effective ys := by
  fun_induction effective xs with
  | case1 => rfl
  | case2 _ _ _ _ _ _ _ _ events ih =>
    rw [List.cons_append, List.cons_append, effective, ih h.tail.tail]
    rfl
  | case3 event events hnot ih =>
    rw [List.cons_append, effective, ih h.tail, List.cons_append]
    -- an announcement at the end of a settled part is followed by nothing of it
    rintro p deckKey cardKey effectType _ _ _ _ rest rfl hnext
    cases events with
    | nil => exact h p deckKey cardKey effectType rfl
    | cons next events =>
      rw [List.cons_append] at hnext
      exact hnot _ _ _ _ _ _ _ _ events rfl (congrArg (· :: events) (List.cons.inj hnext).1)

theorem replay_append (xs ys : List GameEngineEvent) (h : Settled xs) :
    replay replica (xs ++ ys) = replay (replay replica xs) ys := by
  unfold replay
  rw [effective_append ys h, List.foldl_append]

end Replay

/-! ## One event -/

section Events

variable {replica : Replica} {s s' : GameEngineState} {p q : RoomPlayerId}
  {pl : GameEnginePlayer} {event : GameEngineEvent}

theorem seatAfter_cash (event : GameEngineEvent) (seat : Seat) :
    (seatAfter event seat).cash = seat.cash := by
  cases event <;> first
    | rfl
    | (unfold seatAfter; dsimp only; split <;> rfl)

/-- The state may change in what a replica does not show, and the pending trade may be dropped. -/
theorem Mirrors.other (hm : Mirrors replica s)
    (hseats : s'.players.map seatOf = s.players.map seatOf)
    (htiles : s'.properties = s.properties)
    (hoffer : ∀ trade, s'.tradeOffer = some trade → s.tradeOffer = some trade) :
    Mirrors replica s' where
  seats := hm.seats.trans hseats.symm
  tiles := hm.tiles.trans htiles.symm
  offer := fun trade htrade => hm.offer trade (hoffer trade htrade)
  total := by
    have hcash := congrArg (List.map Seat.cash) hseats
    simp only [List.map_map] at hcash
    rw [hm.total]
    exact congrArg List.sum hcash.symm

/-- An event shows what happened when it tells every player's change, every tile's and how much
of the cash is the bank's. -/
theorem Mirrors.step (hm : Mirrors replica s) {f : GameEnginePlayer → GameEnginePlayer}
    (hplayers : s'.players = s.players.map f)
    (hf : ∀ x ∈ s.players, seatOf (f x) = seatAfter event
      { seatOf x with cash := x.cash + amountFor replica event (seatOf x) })
    (htiles : s'.properties = s.properties.map (tileAfter replica event))
    (hoffer : ∀ trade, s'.tradeOffer = some trade →
      offersAfter event replica.offers trade.id = some (termsOf trade))
    (hbank : (s.players.map fun x => amountFor replica event (seatOf x)).sum =
      bankAmount replica event) :
    Mirrors (replica.apply event) s' where
  seats := by
    rw [Replica.apply, hm.seats, hplayers, List.map_map, List.map_map]
    exact List.map_congr_left fun x hx => (hf x hx).symm
  tiles := by rw [Replica.apply, hm.tiles, htiles]
  offer := hoffer
  total := by
    have hcash : s'.players.map GameEnginePlayer.cash =
        s.players.map fun x => x.cash + amountFor replica event (seatOf x) := by
      rw [hplayers, List.map_map]
      refine List.map_congr_left fun x hx => ?_
      have hseat := congrArg Seat.cash (hf x hx)
      rw [seatAfter_cash] at hseat
      exact hseat
    rw [Replica.apply, hm.total, hcash, List.sum_map_add, hbank]

/-- The event concerns no player but `p`. -/
def OnlyConcerns (replica : Replica) (event : GameEngineEvent) (p : RoomPlayerId) : Prop :=
  ∀ seat, seat.roomPlayerId ≠ p →
    amountFor replica event seat = 0 ∧ seatAfter event seat = seat

theorem Mirrors.update (hm : Mirrors replica s)
    (hids : (s.players.map GameEnginePlayer.roomPlayerId).Nodup) (hpl : s.player? p = some pl)
    {g : GameEnginePlayer → GameEnginePlayer} (honly : OnlyConcerns replica event p)
    (hself : seatOf (g pl) = seatAfter event
      { seatOf pl with cash := pl.cash + amountFor replica event (seatOf pl) })
    (hbank : amountFor replica event (seatOf pl) = bankAmount replica event)
    (hplayers : s'.players = Keyed.modify GameEnginePlayer.roomPlayerId s.players p g)
    (htiles : s'.properties = s.properties.map (tileAfter replica event))
    (hoffer : ∀ trade, s'.tradeOffer = some trade →
      offersAfter event replica.offers trade.id = some (termsOf trade)) :
    Mirrors (replica.apply event) s' := by
  have hid : pl.roomPlayerId = p := GameEngineState.player?_id hpl
  refine hm.step hplayers ?_ htiles hoffer ?_
  · intro x hx
    by_cases hxp : x.roomPlayerId = p
    · have hxpl : x = pl := by
        have hfind := Keyed.find_of_mem GameEnginePlayer.roomPlayerId hids hx
        rw [hxp] at hfind
        exact Option.some.inj (hfind.symm.trans hpl)
      rw [if_pos hxp, hxpl]
      exact hself
    · obtain ⟨hamount, hseat⟩ := honly (seatOf x) hxp
      rw [if_neg hxp, hamount, add_zero]
      exact hseat.symm
  · have hterm : (s.players.map fun x => amountFor replica event (seatOf x)) =
        s.players.map fun x => if x.roomPlayerId = pl.roomPlayerId then
          amountFor replica event (seatOf x) else 0 := by
      apply List.map_congr_left
      intro x _
      by_cases hxp : x.roomPlayerId = pl.roomPlayerId
      · rw [if_pos hxp]
      · rw [if_neg hxp]
        exact (honly (seatOf x) (hid ▸ hxp)).1
    rw [hterm, Keyed.sum_ite_of_mem GameEnginePlayer.roomPlayerId hids
      (GameEngineState.player?_mem hpl), hbank]

theorem sum_toPlayer (hids : (s.players.map GameEnginePlayer.roomPlayerId).Nodup)
    (hpl : s.player? p = some pl) (amount : Int) :
    (s.players.map fun x => toPlayer p amount (seatOf x)).sum = amount := by
  have hid : pl.roomPlayerId = p := GameEngineState.player?_id hpl
  subst hid
  exact Keyed.sum_ite_of_mem GameEnginePlayer.roomPlayerId hids
    (GameEngineState.player?_mem hpl) fun _ => amount

/-- An event that only moves cash between a player and the bank, and perhaps changes tiles. -/
theorem Mirrors.paid (hm : Mirrors replica s)
    (hids : (s.players.map GameEnginePlayer.roomPlayerId).Nodup) (hpl : s.player? p = some pl)
    {amount : Int} (hamount : ∀ seat, amountFor replica event seat = toPlayer p amount seat)
    (hseat : ∀ seat, seatAfter event seat = seat) (hbank : bankAmount replica event = amount)
    (hoffers : offersAfter event replica.offers = replica.offers)
    (hplayers : s'.players = (s.addCash p amount).players)
    (htiles : s'.properties = s.properties.map (tileAfter replica event))
    (hoffer : s'.tradeOffer = s.tradeOffer) : Mirrors (replica.apply event) s' := by
  have hid : pl.roomPlayerId = p := GameEngineState.player?_id hpl
  have hself : amountFor replica event (seatOf pl) = amount := by
    rw [hamount, toPlayer, seatOf, if_pos hid]
  refine hm.update hids hpl ?_ ?_ (hself.trans hbank.symm) hplayers htiles ?_
  · intro seat hne
    exact ⟨by rw [hamount, toPlayer, if_neg hne], hseat seat⟩
  · rw [hself, hseat]
    rfl
  · intro trade htrade
    rw [hoffers]
    rw [hoffer] at htrade
    exact hm.offer trade htrade

theorem Mirrors.placed (hm : Mirrors replica s)
    (hids : (s.players.map GameEnginePlayer.roomPlayerId).Nodup) (hpl : s.player? p = some pl)
    {g : GameEnginePlayer → GameEnginePlayer}
    (hamount : ∀ seat, amountFor replica event seat = 0)
    (hseat : ∀ seat, seat.roomPlayerId ≠ p → seatAfter event seat = seat)
    (hself : seatOf (g pl) = seatAfter event (seatOf pl)) (hbank : bankAmount replica event = 0)
    (hoffers : offersAfter event replica.offers = replica.offers)
    (hplayers : s'.players = Keyed.modify GameEnginePlayer.roomPlayerId s.players p g)
    (htiles : s'.properties = s.properties.map (tileAfter replica event))
    (hoffer : s'.tradeOffer = s.tradeOffer) : Mirrors (replica.apply event) s' := by
  refine hm.update hids hpl ?_ ?_ ((hamount _).trans hbank.symm) hplayers htiles ?_
  · intro seat hne
    exact ⟨hamount seat, hseat seat hne⟩
  · rw [hamount, add_zero]
    exact hself
  · intro trade htrade
    rw [hoffers]
    rw [hoffer] at htrade
    exact hm.offer trade htrade

theorem Mirrors.transferred (hm : Mirrors replica s)
    (hids : (s.players.map GameEnginePlayer.roomPlayerId).Nodup) (hpl : s.player? p = some pl)
    {ql : GameEnginePlayer} (hql : s.player? q = some ql) {amount : Int}
    (hamount : ∀ seat, amountFor replica event seat =
      toPlayer p (-amount) seat + toPlayer q amount seat)
    (hseat : ∀ seat, seatAfter event seat = seat) (hbank : bankAmount replica event = 0)
    (hoffers : offersAfter event replica.offers = replica.offers)
    (hplayers : s'.players = ((s.addCash p (-amount)).addCash q amount).players)
    (htiles : s'.properties = s.properties.map (tileAfter replica event))
    (hoffer : s'.tradeOffer = s.tradeOffer) : Mirrors (replica.apply event) s' := by
  simp only [GameEngineState.addCash_eq, List.map_map] at hplayers
  refine hm.step hplayers ?_ htiles ?_ ?_
  · intro x _
    rw [hamount, hseat, ← add_assoc]
    rfl
  · intro trade htrade
    rw [hoffers]
    rw [hoffer] at htrade
    exact hm.offer trade htrade
  · simp only [hamount, List.sum_map_add]
    rw [sum_toPlayer hids hpl, sum_toPlayer hids hql, hbank]
    omega

/-! ## Moves -/

section Moves

variable (hm : Mirrors replica s)
  (hids : (s.players.map GameEnginePlayer.roomPlayerId).Nodup) (hpl : s.player? p = some pl)

include hm hids hpl

theorem mirrors_playerMoved (fromPosition toPosition : Nat) (dice : DiceRoll) :
    Mirrors (replica.apply (.playerMoved p fromPosition toPosition dice))
      (s.updatePlayer p fun x => { x with position := toPosition }) := by
  have hid : pl.roomPlayerId = p := GameEngineState.player?_id hpl
  refine hm.placed hids hpl (fun _ => rfl) (fun seat hne => if_neg hne) ?_ rfl rfl rfl
    (List.map_id _).symm rfl
  exact (if_pos hid).symm

theorem mirrors_playerSentToJail :
    Mirrors (replica.apply (.playerSentToJail p s.board.jailPosition))
      (sendPlayerToJail s p).state := by
  have hid : pl.roomPlayerId = p := GameEngineState.player?_id hpl
  refine hm.placed hids hpl (fun _ => rfl) (fun seat hne => if_neg hne) ?_ rfl rfl rfl
    (List.map_id _).symm rfl
  exact (if_pos hid).symm

theorem mirrors_playerReleasedFromJail :
    Mirrors (replica.apply (.playerReleasedFromJail p)) (s.updatePlayer p leaveJail) := by
  have hid : pl.roomPlayerId = p := GameEngineState.player?_id hpl
  refine hm.placed hids hpl (fun _ => rfl) (fun seat hne => if_neg hne) ?_ rfl rfl rfl
    (List.map_id _).symm rfl
  exact (if_pos hid).symm

theorem mirrors_playerPassedGo (amount : Int) :
    Mirrors (replica.apply (.playerPassedGo p amount)) (s.addCash p amount) :=
  hm.paid hids hpl (fun _ => rfl) (fun _ => rfl) rfl rfl rfl (List.map_id _).symm rfl

theorem mirrors_fine (hamount : ∀ seat,
      amountFor replica event seat = toPlayer p (-jailFineAmount) seat)
    (hseat : ∀ seat, seatAfter event seat = seat)
    (hbank : bankAmount replica event = -jailFineAmount)
    (hoffers : offersAfter event replica.offers = replica.offers)
    (htile : tileAfter replica event = id) :
    Mirrors ((replica.apply event).apply (.playerReleasedFromJail p)) (s.updatePlayer p payFine) := by
  have hpaid : Mirrors (replica.apply event) (s.addCash p (-jailFineAmount)) := by
    refine hm.paid hids hpl hamount hseat hbank hoffers rfl ?_ rfl
    rw [htile, List.map_id]
    rfl
  have hids' : ((s.addCash p (-jailFineAmount)).players.map
      GameEnginePlayer.roomPlayerId).Nodup := by
    have hsame : (s.addCash p (-jailFineAmount)).players.map GameEnginePlayer.roomPlayerId =
        s.players.map GameEnginePlayer.roomPlayerId := by
      apply Keyed.map_modify
      intro _; rfl
    rw [hsame]
    exact hids
  have hfound : (s.addCash p (-jailFineAmount)).player? p =
      some { pl with cash := pl.cash + -jailFineAmount } := by
    rw [GameEngineState.player?_addCash, if_pos rfl, hpl]
    rfl
  have hreleased := mirrors_playerReleasedFromJail hpaid hids' hfound
  rw [GameEngineState.addCash, GameEngineState.updatePlayer_updatePlayer] at hreleased
  · exact hreleased
  · intro _; rfl

end Moves

end Events

end Rules
end LivePoly
