import LivePoly.Rules.Mirrored

/-!
# Rules.Ledger

The log as a ledger: what the events of an accepted intent attribute to each player is the change
of the player's cash, and what they attribute to the bank is the change of all cash. The log as a
record of the board: its events, replayed from the start of a game, give every tile and every
player's place.
-/

namespace LivePoly
namespace Rules

open Engine Checked

/-! ## Money -/

namespace Replica

def seat? (replica : Replica) (p : RoomPlayerId) : Option Seat :=
  Keyed.find Seat.roomPlayerId replica.seats p

/-- What the events give to a player in all, each read in the replica it meets. -/
def attributed (p : RoomPlayerId) : Replica → List GameEngineEvent → Int
  | _, [] => 0
  | replica, event :: events =>
    (replica.seat? p).elim 0 (amountFor replica event) +
      attributed p (replica.apply event) events

/-- What the bank pays out by the events in all. -/
def paidOut : Replica → List GameEngineEvent → Int
  | _, [] => 0
  | replica, event :: events => bankAmount replica event + paidOut (replica.apply event) events

variable (replica : Replica) (p : RoomPlayerId)

theorem seat?_apply (event : GameEngineEvent) :
    (replica.apply event).seat? p = (replica.seat? p).map fun seat =>
      seatAfter event { seat with cash := seat.cash + amountFor replica event seat } := by
  apply Keyed.find_map
  intro seat
  cases event <;> first
    | rfl
    | (unfold seatAfter; dsimp only; split <;> rfl)

/-- The cash of a seat after events is what it was and what the events attribute to it. -/
theorem cash_foldl {seat : Seat} (events : List GameEngineEvent) (h : replica.seat? p = some seat) :
    ((events.foldl Replica.apply replica).seat? p).map Seat.cash =
      some (seat.cash + replica.attributed p events) := by
  induction events generalizing replica seat with
  | nil => simp [h, attributed]
  | cons event events ih =>
    have hnext := seat?_apply replica p event
    rw [h, Option.map_some] at hnext
    rw [List.foldl_cons, ih _ hnext, seatAfter_cash, attributed, h, Option.elim_some, add_assoc]

theorem total_foldl (events : List GameEngineEvent) :
    (events.foldl Replica.apply replica).total = replica.total + replica.paidOut events := by
  induction events generalizing replica with
  | nil => exact (add_zero _).symm
  | cons event events ih =>
    rw [List.foldl_cons, ih, paidOut, ← add_assoc]
    rfl

end Replica

/-- All the cash the players have. -/
def totalCash (s : GameEngineState) : Int := (s.players.map GameEnginePlayer.cash).sum

theorem Mirrors.seat? {replica : Replica} {s : GameEngineState} (hm : Mirrors replica s)
    (p : RoomPlayerId) : replica.seat? p = (s.player? p).map seatOf := by
  rw [Replica.seat?, hm.seats]
  apply Keyed.find_map
  intro _; rfl

/-- What the events of an accepted intent attribute to a player is the change of the player's
cash; what they attribute to the bank is the change of all cash; and nobody has negative cash. -/
theorem reachable_ledger {input : CreateInitialGameStateInput} {s : GameEngineState} {env : Env}
    {intent : GameEngineIntent} {r : GameEngineResult} (hi : ValidInput input)
    (h : Reachable input s) (haccepted : reduceGameEngineIntent env s intent = .ok r) :
    (∀ p pl, s.player? p = some pl → ∃ pl', r.state.player? p = some pl' ∧
      pl'.cash = pl.cash + (replicaOf s).attributed p (effective r.events)) ∧
    totalCash r.state = totalCash s + (replicaOf s).paidOut (effective r.events) ∧
    (∀ pl ∈ s.players, 0 ≤ pl.cash) ∧ ∀ pl ∈ r.state.players, 0 ≤ pl.cash := by
  have hv : Valid s := reachable_valid hi h
  have hm := accepted_mirrored hv haccepted (mirrors_replicaOf s)
  refine ⟨?_, ?_, hv.players.funded.cash, (accepted_valid hv haccepted).players.funded.cash⟩
  · intro p pl hpl
    have hseat : (replicaOf s).seat? p = some (seatOf pl) := by
      rw [(mirrors_replicaOf s).seat?, hpl]
      rfl
    have hcash := Replica.cash_foldl (replicaOf s) p (effective r.events) hseat
    change ((replay (replicaOf s) r.events).seat? p).map Seat.cash = _ at hcash
    rw [hm.seat?, Option.map_map] at hcash
    obtain ⟨pl', hpl', hcash'⟩ := Option.map_eq_some_iff.mp hcash
    exact ⟨pl', hpl', hcash'⟩
  · have htotal := Replica.total_foldl (replicaOf s) (effective r.events)
    rw [totalCash, ← hm.total]
    exact htotal

/-- The price of a tile goes to the bank. -/
theorem threePlayers_ledger : ∃ s r, Reachable threePlayers s ∧
    reduceGameEngineIntent ⟨0, ""⟩ s (.buyProperty ⟨1⟩) = .ok r ∧
    (s.player? ⟨1⟩).map GameEnginePlayer.cash = some 1500 ∧
    (∃ pl, r.state.player? ⟨1⟩ = some pl ∧
      pl.cash = 1500 + (replicaOf s).attributed ⟨1⟩ (effective r.events)) ∧
    totalCash r.state = totalCash s + (replicaOf s).paidOut (effective r.events) := by
  obtain ⟨r, hr, hcash⟩ := exists_ok_of_any (by decide +kernel :
    (playThree [.rollAndMove ⟨1⟩ [.int 1, .int 2]]).toOption.any (fun r =>
      ((r.state.player? ⟨1⟩).map GameEnginePlayer.cash = some 1500 ∧
        (reduceGameEngineIntent ⟨0, ""⟩ r.state (.buyProperty ⟨1⟩)).toOption.isSome = true :
          Bool)) = true)
  have hreach : Reachable threePlayers r.state := playRoom_reachable hr
  obtain ⟨hcash, hbuy⟩ := of_decide_eq_true hcash
  obtain ⟨bought, hbought, _⟩ := exists_ok_of_any (P := fun _ => true)
    (by simpa using hbuy)
  obtain ⟨pl, hpl, hpl0⟩ := Option.map_eq_some_iff.mp hcash
  obtain ⟨hplayer, htotal, _⟩ := reachable_ledger threePlayers_valid hreach hbought
  obtain ⟨pl', hpl', hpaid⟩ := hplayer ⟨1⟩ pl hpl
  rw [hpl0] at hpaid
  exact ⟨r.state, bought, hreach, hbought, hcash, ⟨pl', hpl', hpaid⟩, htotal⟩

/-! ## The board -/

/-- A seat without its cash. -/
def place (seat : Seat) : Seat := { seat with cash := 0 }

/-- The replicas differ in nothing but cash. -/
structure SameBoard (replica replica' : Replica) : Prop where
  seats : replica.seats.map place = replica'.seats.map place
  tiles : replica.tiles = replica'.tiles
  offers : replica.offers = replica'.offers

section Board

variable {replica replica' : Replica}

theorem place_seatAfter (event : GameEngineEvent) (seat : Seat) (cash : Int) :
    place (seatAfter event { seat with cash }) = seatAfter event (place seat) := by
  cases event with
  | playerMoved q _ _ _ | playerSentToJail q _ | playerReleasedFromJail q | playerBankrupt q _ =>
    by_cases hq : seat.roomPlayerId = q
    · exact (congrArg place (if_pos hq)).trans (if_pos hq).symm
    · exact (congrArg place (if_neg hq)).trans (if_neg hq).symm
  | _ => rfl

theorem tileAfter_congr (h : replica.offers = replica'.offers) (event : GameEngineEvent) :
    tileAfter replica event = tileAfter replica' event := by
  funext tile
  cases event <;> simp only [tileAfter, h]

/-- What an event does to the board does not depend on cash. -/
theorem SameBoard.apply (h : SameBoard replica replica') (event : GameEngineEvent) :
    SameBoard (replica.apply event) (replica'.apply event) where
  seats := by
    have hplace : ∀ r : Replica, (r.apply event).seats.map place =
        (r.seats.map place).map (seatAfter event) := by
      intro r
      rw [Replica.apply, List.map_map, List.map_map]
      exact List.map_congr_left fun seat _ => place_seatAfter event seat _
    rw [hplace, hplace, h.seats]
  tiles := by rw [Replica.apply, Replica.apply, h.tiles, tileAfter_congr h.offers]
  offers := by rw [Replica.apply, Replica.apply, h.offers]

theorem SameBoard.announced (h : SameBoard replica replica') {p : RoomPlayerId}
    {deckKey : GameCardDeckKey} {cardKey : CardKey} {effectType : GameCardEffectType} :
    SameBoard (replica.apply (.cardApplied p deckKey cardKey effectType)) replica' where
  seats := by
    rw [Replica.apply, List.map_map, ← h.seats]
    exact List.map_congr_left fun seat _ => place_seatAfter _ seat _
  tiles := (List.map_id _).trans h.tiles
  offers := h.offers

/-- Reading all events and reading the effective ones gives the same board. -/
theorem SameBoard.foldl (h : SameBoard replica replica') (events : List GameEngineEvent) :
    SameBoard (events.foldl Replica.apply replica) (replay replica' events) := by
  unfold replay
  fun_induction effective events generalizing replica replica' with
  | case1 => exact h
  | case2 _ _ _ _ _ _ _ _ _ ih => exact ih (h.announced.apply _)
  | case3 event _ _ ih => exact ih (h.apply event)

/-- The replica shows the board of the state. -/
def Depicts (replica : Replica) (s : GameEngineState) : Prop :=
  ∃ mirror, SameBoard replica mirror ∧ Mirrors mirror s

theorem accepts_depicts (replica : Replica) (s : GameEngineState)
    (sent : Env × GameEngineIntent) (events : List GameEngineEvent) (s' : GameEngineState)
    (hv : Valid s) (h : Depicts replica s) (haccepts : Accepts s sent events s') :
    Depicts (events.foldl Replica.apply replica) s' := by
  obtain ⟨mirror, hsame, hm⟩ := h
  exact ⟨replay mirror events, hsame.foldl events, accepted_mirrored hv haccepts hm⟩

/-- The events of a game, replayed over its initial board in order, give the owner, the buildings
and the mortgage of every tile and the place of every player. -/
theorem game_replayed {input : CreateInitialGameStateInput} {s start : GameEngineState}
    {sent : List (Env × GameEngineIntent)} {events : List GameEngineEvent}
    (hi : ValidInput input) (h : Game input sent events start s) :
    (events.foldl Replica.apply (replicaOf start)).tiles = s.properties ∧
      ∀ p pl, s.player? p = some pl → ∃ seat,
        (events.foldl Replica.apply (replicaOf start)).seat? p = some seat ∧
          seat.position = pl.position ∧ seat.inJail = pl.inJail ∧ seat.bankrupt = pl.bankrupt := by
  obtain ⟨env, hstart⟩ := h.begun
  have hdepicts : Depicts (events.foldl Replica.apply (replicaOf start)) s := by
    refine h.run.related accepts_valid accepts_depicts (createInitialGameState_valid hi hstart) ?_
    exact ⟨replicaOf start, ⟨rfl, rfl, rfl⟩, mirrors_replicaOf start⟩
  obtain ⟨mirror, hsame, hm⟩ := hdepicts
  refine ⟨hsame.tiles.trans hm.tiles, fun p pl hpl => ?_⟩
  have hplace : (((events.foldl Replica.apply (replicaOf start)).seat? p).map place) =
      (mirror.seat? p).map place :=
    have hid : ∀ seat, Seat.roomPlayerId (place seat) = seat.roomPlayerId := fun _ => rfl
    Keyed.find_congr_map Seat.roomPlayerId hid hsame.seats p
  rw [hm.seat?, hpl] at hplace
  obtain ⟨seat, hseat, hsame⟩ := Option.map_eq_some_iff.mp hplace
  refine ⟨seat, hseat, congrArg Seat.position hsame, congrArg Seat.inJail hsame,
    congrArg Seat.bankrupt hsame⟩

/-- The log of a purchase tells the owner. -/
theorem threePlayers_replayed : ∃ sent events start s, Game threePlayers sent events start s ∧
    (s.property? .ghana).bind GameEngineProperty.ownerRoomPlayerId = some ⟨1⟩ ∧
      (events.foldl Replica.apply (replicaOf start)).tiles = s.properties := by
  obtain ⟨r, hr, howner⟩ := exists_ok_of_any (by decide +kernel :
    (playThree [.rollAndMove ⟨1⟩ [.int 1, .int 2], .buyProperty ⟨1⟩]).toOption.any
      (fun r => (r.state.property? .ghana).bind GameEngineProperty.ownerRoomPlayerId =
        some ⟨1⟩) = true)
  obtain ⟨start, _, hgame⟩ := playRoom_game hr
  exact ⟨_, r.events, start, r.state, hgame, of_decide_eq_true howner,
    (game_replayed threePlayers_valid hgame).1⟩

end Board

end Rules
end LivePoly
