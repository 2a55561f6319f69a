import LivePoly.Lib.Rotation
import LivePoly.Rules.Reachable

/-!
# Rules.Seats

Who is next. Players keep their seats for the whole game, and the two functions that look for the
next player (`findNextActivePlayer`, `findNextActivePlayerAfterBankruptcy`) find the next one in
seat order who is still in the game.
-/

namespace LivePoly
namespace Rules

open Engine Checked

/-- Who a player is and where the player sits. -/
def seating (pl : GameEnginePlayer) : RoomPlayerId × Nat := (pl.roomPlayerId, pl.seatNumber)

/-- Nobody joined, left the list or changed seats between the states. -/
def SameSeats (s s' : GameEngineState) : Prop := s'.players.map seating = s.players.map seating

/-- No two players sit in one seat. -/
def Seated (s : GameEngineState) : Prop := (s.players.map GameEnginePlayer.seatNumber).Nodup

/-- The seat of a player. -/
def seatNo (s : GameEngineState) (q : RoomPlayerId) : Nat :=
  ((s.player? q).map GameEnginePlayer.seatNumber).getD 0

/-- The players who are not bankrupt. -/
def stillIn (s : GameEngineState) : Set RoomPlayerId := {q | IsActive s q}

/-- From the seat of `q` the turn goes to `next`: nobody still in the game sits in between. -/
def NextInSeatOrder (s : GameEngineState) (q next : RoomPlayerId) : Prop :=
  Rotation.Next (seatNo s) (stillIn s) (seatNo s q) next

section Seating

variable {s s' t : GameEngineState}

theorem SameSeats.trans (h : SameSeats s t) (h' : SameSeats t s') : SameSeats s s' :=
  Eq.trans h' h

theorem SameSeats.seatNo (h : SameSeats s s') (q : RoomPlayerId) :
    Rules.seatNo s' q = Rules.seatNo s q := by
  have hfound : (s'.player? q).map seating = (s.player? q).map seating := by
    have hkey : ∀ x : GameEnginePlayer, (seating x).1 = x.roomPlayerId := fun _ => rfl
    exact Keyed.find_congr_map GameEnginePlayer.roomPlayerId hkey h q
  have hseat : ∀ found : Option GameEnginePlayer,
      found.map GameEnginePlayer.seatNumber = (found.map seating).map Prod.snd := by
    intro found
    cases found <;> rfl
  unfold Rules.seatNo
  rw [hseat, hseat, hfound]

theorem SameSeats.seated (h : SameSeats s s') (hs : Seated s) : Seated s' := by
  have hmap := congrArg (List.map Prod.snd) h
  rw [List.map_map, List.map_map] at hmap
  have hseats : s'.players.map GameEnginePlayer.seatNumber =
      s.players.map GameEnginePlayer.seatNumber := hmap
  unfold Seated
  rw [hseats]
  exact hs

theorem seatNo_of_mem (hp : PlayersOk s) {pl : GameEnginePlayer} (hpl : pl ∈ s.players) :
    seatNo s pl.roomPlayerId = pl.seatNumber := by
  unfold seatNo
  rw [hp.find hpl]
  rfl

theorem seatNo_of_player? {q : RoomPlayerId} {pl : GameEnginePlayer} (hpl : s.player? q = some pl) :
    seatNo s q = pl.seatNumber := by
  unfold seatNo
  rw [hpl]
  rfl

theorem seatNo_injOn (hs : Seated s) : Set.InjOn (seatNo s) (stillIn s) := by
  rintro a ⟨al, ha, _⟩ b ⟨bl, hb, _⟩ hsame
  rw [seatNo_of_player? ha, seatNo_of_player? hb] at hsame
  have hrecord : al = bl := List.inj_on_of_nodup_map hs (GameEngineState.player?_mem ha)
    (GameEngineState.player?_mem hb) hsame
  rw [← GameEngineState.player?_id ha, ← GameEngineState.player?_id hb, hrecord]

end Seating

/-! ## Seats are kept -/

section Actions

variable {c : Condition} {s s' : GameEngineState} {p : RoomPlayerId}
  {events : List GameEngineEvent}

theorem PlayerChange.seating {x y : GameEnginePlayer} (h : PlayerChange s p x y) :
    Rules.seating y = Rules.seating x := by
  cases h <;> rfl

section Liquidated

variable (hplayers : s'.players =
  Keyed.modify GameEnginePlayer.roomPlayerId s.players p GameEnginePlayer.liquidated)

include hplayers

theorem liquidated_sameSeats : SameSeats s s' := by
  unfold SameSeats
  rw [hplayers, Keyed.map_modify]
  intro _; rfl

theorem liquidated_player? (q : RoomPlayerId) : s'.player? q =
    if q = p then (s.player? q).map GameEnginePlayer.liquidated else s.player? q := by
  have hid : ∀ x : GameEnginePlayer, x.liquidated.roomPlayerId = x.roomPlayerId := fun _ => rfl
  rw [GameEngineState.player?, hplayers, Keyed.find_modify _ hid]
  rfl

theorem liquidated_stillIn (q : RoomPlayerId) : IsActive s' q ↔ IsActive s q ∧ q ≠ p := by
  unfold IsActive
  rw [liquidated_player? hplayers]
  by_cases hq : q = p
  · rw [if_pos hq]
    constructor
    · rintro ⟨ql, hql, hactive⟩
      obtain ⟨xl, _, rfl⟩ := Option.map_eq_some_iff.mp hql
      cases hactive
    · exact fun h => absurd hq h.2
  · rw [if_neg hq]
    exact (and_iff_left hq).symm

end Liquidated

theorem Action.sameSeats (hv : Valid s) (h : Action c p s events s') : SameSeats s s' := by
  rcases h.players hv with ⟨f, hs, hf⟩ | ⟨_, _, _, hb⟩
  · unfold SameSeats
    rw [hs, List.map_map]
    apply List.map_congr_left
    intro x hx
    exact (hf x hx).seating
  · exact liquidated_sameSeats hb.players'

theorem Actions.sameSeats (hv : Valid s) (h : Actions c p s events s') : SameSeats s s' := by
  induction h with
  | nil => rfl
  | cons hstep _ _ ih =>
    have hfirst := Action.sameSeats hv hstep
    exact hfirst.trans (ih (hstep.valid hv))

theorem Action.stillIn (hv : Valid s) (h : Action c p s events s') : stillIn s' ⊆ stillIn s := by
  intro q hq
  rcases h.players hv with hchange | ⟨_, _, _, hb⟩
  · exact (hchange.same.isActive hv.players.ids).mp hq
  · exact ((liquidated_stillIn hb.players' q).mp hq).1

theorem Actions.stillIn (hv : Valid s) (h : Actions c p s events s') :
    Rules.stillIn s' ⊆ Rules.stillIn s := by
  induction h with
  | nil => exact subset_rfl
  | cons hstep _ _ ih => exact (ih (hstep.valid hv)).trans (Action.stillIn hv hstep)

end Actions

/-! ## The two searches -/

section Searches

variable {s : GameEngineState} {p : RoomPlayerId} {pl next : GameEnginePlayer}

theorem getActivePlayers_sorted (hs : Seated s) :
    (getActivePlayers s).Pairwise fun x y => x.seatNumber < y.seatNumber := by
  have hsorted : (getActivePlayers s).Pairwise fun x y => x.seatNumber ≤ y.seatNumber :=
    List.pairwise_insertionSort _ _
  have hnodup : ((getActivePlayers s).map GameEnginePlayer.seatNumber).Nodup := by
    have hperm := List.perm_insertionSort (fun left right : GameEnginePlayer =>
      left.seatNumber ≤ right.seatNumber) (s.players.filter fun player => !player.bankrupt)
    refine (hperm.map GameEnginePlayer.seatNumber).nodup_iff.mpr ?_
    exact hs.sublist (List.filter_sublist.map _)
  have hne := List.pairwise_map.mp hnodup
  exact (hsorted.and hne).imp fun h => lt_of_le_of_ne h.1 h.2

/-- The next record of the list belongs to the next player in seat order. -/
theorem nextInSeatOrder_of_record (hp : PlayersOk s) (hpl : s.player? p = some pl)
    (h : Rotation.Next GameEnginePlayer.seatNumber {x | x ∈ getActivePlayers s} pl.seatNumber
      next) : NextInSeatOrder s p next.roomPlayerId := by
  obtain ⟨hlisted, hactive⟩ := mem_getActivePlayers.mp h.mem
  refine ⟨⟨next, hp.find hlisted, hactive⟩, ?_⟩
  rintro q ⟨ql, hql, hqactive⟩
  rw [seatNo_of_mem hp hlisted, seatNo_of_player? hpl, seatNo_of_player? hql]
  exact h.nobody ql (mem_getActivePlayers.mpr ⟨GameEngineState.player?_mem hql, hqactive⟩)

theorem findNextActivePlayer_next (hp : PlayersOk s) (hs : Seated s)
    (h : findNextActivePlayer s = .ok next) :
    NextInSeatOrder s s.currentTurnRoomPlayerId next.roomPlayerId := by
  simp only [findNextActivePlayer, bind_eq_ok, rejectIf_eq_ok, orThrow_eq_ok] at h
  obtain ⟨_, _, i, hi, hnext⟩ := h
  obtain ⟨hlt, hcurrent, _⟩ := List.findIdx?_eq_some_iff_getElem.mp hi
  have hcurrent := of_decide_eq_true hcurrent
  have hfound : s.player? s.currentTurnRoomPlayerId = some (getActivePlayers s)[i] := by
    rw [← hcurrent]
    exact hp.find (mem_getActivePlayers.mp (List.getElem_mem hlt)).1
  exact nextInSeatOrder_of_record hp hfound
    (Rotation.next_of_getElem (getActivePlayers_sorted hs) (List.getElem?_eq_getElem hlt) hnext)

theorem findNextActivePlayerAfterBankruptcy_next (hp : PlayersOk s) (hs : Seated s)
    (hpl : s.player? p = some pl) {before : GameEnginePlayer}
    (hseat : before.seatNumber = pl.seatNumber)
    (h : findNextActivePlayerAfterBankruptcy s before = .ok next) :
    NextInSeatOrder s p next.roomPlayerId := by
  simp only [findNextActivePlayerAfterBankruptcy, orThrow_eq_ok, hseat] at h
  exact nextInSeatOrder_of_record hp hpl (Rotation.next_of_find (getActivePlayers_sorted hs) h)

theorem exists_other (hv : Valid s) (hcompany : ¬ EndsGame s) (p : RoomPlayerId) :
    ∃ q, IsActive s q ∧ q ≠ p := by
  by_contra hnone
  have hall : ∀ q ∈ (getActivePlayers s).map GameEnginePlayer.roomPlayerId, q = p := by
    intro q hq
    obtain ⟨ql, hql, rfl⟩ := List.mem_map.mp hq
    obtain ⟨hlisted, hactive⟩ := mem_getActivePlayers.mp hql
    by_contra hne
    exact hnone ⟨ql.roomPlayerId, ⟨ql, hv.players.find hlisted, hactive⟩, hne⟩
  have hnodup := getActivePlayers_nodup hv
  rw [List.eq_replicate_of_mem hall, List.nodup_replicate, List.length_map] at hnodup
  exact hcompany (.inl hnodup)

theorem findNextActivePlayer_succeeds (ho : IsActive s s.currentTurnRoomPlayerId) :
    Succeeds (findNextActivePlayer s) := by
  obtain ⟨pl, hpl, hactive⟩ := ho
  have hmem : pl ∈ getActivePlayers s :=
    mem_getActivePlayers.mpr ⟨GameEngineState.player?_mem hpl, hactive⟩
  have hpos : 0 < (getActivePlayers s).length := List.length_pos_of_mem hmem
  obtain ⟨i, hi⟩ : ∃ i, (getActivePlayers s).findIdx? (fun player =>
      player.roomPlayerId = s.currentTurnRoomPlayerId) = some i := by
    refine Option.isSome_iff_exists.mp ?_
    rw [List.findIdx?_isSome, List.any_eq_true]
    exact ⟨pl, hmem, decide_eq_true (GameEngineState.player?_id hpl)⟩
  have hlt : (i + 1) % (getActivePlayers s).length < (getActivePlayers s).length :=
    Nat.mod_lt _ hpos
  refine ⟨(getActivePlayers s)[(i + 1) % (getActivePlayers s).length], ?_⟩
  simp only [findNextActivePlayer, bind_eq_ok, rejectIf_eq_ok, orThrow_eq_ok]
  exact ⟨(), by omega, i, hi, List.getElem?_eq_getElem hlt⟩

theorem findNextActivePlayerAfterBankruptcy_succeeds {q : RoomPlayerId} (hq : IsActive s q)
    (before : GameEnginePlayer) : Succeeds (findNextActivePlayerAfterBankruptcy s before) := by
  obtain ⟨pl, hpl, hactive⟩ := hq
  have hmem : pl ∈ getActivePlayers s :=
    mem_getActivePlayers.mpr ⟨GameEngineState.player?_mem hpl, hactive⟩
  unfold findNextActivePlayerAfterBankruptcy
  cases hlist : getActivePlayers s with
  | nil =>
    rw [hlist] at hmem
    cases hmem
  | cons first rest =>
    dsimp only
    cases (first :: rest).find? fun player => before.seatNumber < player.seatNumber with
    | none => exact ⟨first, rfl⟩
    | some next => exact ⟨next, rfl⟩

/-- The two searches agree on who is next when the player on turn goes bankrupt instead of ending
the turn. -/
theorem findNext_agree (hv : Valid s) (hs : Seated s) (hactive : InProgress s)
    (hpl : s.player? s.currentTurnRoomPlayerId = some pl) {creditor : Option RoomPlayerId}
    {liquidated : GameEngineState}
    (h : liquidatePlayerAssets s s.currentTurnRoomPlayerId creditor = .ok liquidated) :
    ∃ next next', findNextActivePlayer s = .ok next ∧
      findNextActivePlayerAfterBankruptcy liquidated pl = .ok next' ∧
      next'.roomPlayerId = next.roomPlayerId := by
  have hplayers : liquidated.players = Keyed.modify GameEnginePlayer.roomPlayerId s.players
      s.currentTurnRoomPlayerId GameEnginePlayer.liquidated := by
    simp only [liquidatePlayerAssets, bind_eq_ok, pure_eq_ok] at h
    obtain ⟨_, _, returned, hreturned, rfl⟩ := h
    obtain ⟨decks, rfl⟩ := foldlM_return_decks hreturned
    rfl
  have hturn := hv.table.turn hactive
  obtain ⟨q, hq, hqp⟩ := exists_other hv (hv.table.company hactive) s.currentTurnRoomPlayerId
  have hsame := liquidated_sameSeats hplayers
  have hfound : liquidated.player? s.currentTurnRoomPlayerId = some pl.liquidated := by
    rw [liquidated_player? hplayers, if_pos rfl, hpl]
    rfl
  obtain ⟨next, hnext⟩ := findNextActivePlayer_succeeds hturn
  obtain ⟨next', hnext'⟩ := findNextActivePlayerAfterBankruptcy_succeeds
    ((liquidated_stillIn hplayers q).mpr ⟨hq, hqp⟩) pl
  refine ⟨next, next', hnext, hnext', ?_⟩
  have horder := findNextActivePlayer_next hv.players hs hnext
  have horder' := findNextActivePlayerAfterBankruptcy_next
    (liquidated_playersOk hv.players hpl hplayers) (hsame.seated hs) hfound rfl hnext'
  have hother : next.roomPlayerId ≠ s.currentTurnRoomPlayerId :=
    horder.other (seatNo_injOn hs) hturn hq hqp
  have hseat : seatNo liquidated = seatNo s := funext hsame.seatNo
  have hsub : stillIn liquidated ⊆ stillIn s :=
    fun x hx => ((liquidated_stillIn hplayers x).mp hx).1
  unfold NextInSeatOrder at horder'
  rw [hseat] at horder'
  exact horder'.unique ((seatNo_injOn hs).mono hsub)
    (horder.subset hsub ((liquidated_stillIn hplayers _).mpr ⟨horder.mem, hother⟩))

end Searches

end Rules
end LivePoly
