import LivePoly.Rules.Replica

/-!
# Rules.Updates

Reading a state after writing it, and what the operations on cash do: each either fails or adds
to the cash of players (`addCash`), and a charge that is too high leaves a debt.
-/

namespace LivePoly
namespace Engine

open Checked

/-! ## Lookups -/

namespace GameEngineState

variable (s : GameEngineState) (p q : RoomPlayerId) (key : TileKey)

@[simp] theorem board_eq : s.board = classicGameBoard := by
  unfold board
  cases s.boardKey
  rfl

theorem player?_id {s : GameEngineState} {p : RoomPlayerId} {pl : GameEnginePlayer}
    (h : s.player? p = some pl) : pl.roomPlayerId = p :=
  Keyed.find_key _ h

theorem player?_mem {s : GameEngineState} {p : RoomPlayerId} {pl : GameEnginePlayer}
    (h : s.player? p = some pl) : pl ∈ s.players :=
  Keyed.find_mem _ h

theorem property?_key {s : GameEngineState} {key : TileKey} {property : GameEngineProperty}
    (h : s.property? key = some property) : property.tileKey = key :=
  Keyed.find_key _ h

theorem property?_mem {s : GameEngineState} {key : TileKey} {property : GameEngineProperty}
    (h : s.property? key = some property) : property ∈ s.properties :=
  Keyed.find_mem _ h

/-! ## Fields a player update leaves alone -/

section UpdatePlayer

variable (f : GameEnginePlayer → GameEnginePlayer)

@[simp] theorem updatePlayer_phase : (s.updatePlayer p f).phase = s.phase := rfl
@[simp] theorem updatePlayer_current :
    (s.updatePlayer p f).currentTurnRoomPlayerId = s.currentTurnRoomPlayerId := rfl
@[simp] theorem updatePlayer_pending :
    (s.updatePlayer p f).pendingTileKey = s.pendingTileKey := rfl
@[simp] theorem updatePlayer_auction : (s.updatePlayer p f).auction = s.auction := rfl
@[simp] theorem updatePlayer_tradeOffer : (s.updatePlayer p f).tradeOffer = s.tradeOffer := rfl
@[simp] theorem updatePlayer_debt : (s.updatePlayer p f).debt = s.debt := rfl
@[simp] theorem updatePlayer_decks : (s.updatePlayer p f).decks = s.decks := rfl
@[simp] theorem updatePlayer_properties :
    (s.updatePlayer p f).properties = s.properties := rfl
@[simp] theorem updatePlayer_property? :
    (s.updatePlayer p f).property? key = s.property? key := rfl

theorem player?_updatePlayer {f : GameEnginePlayer → GameEnginePlayer}
    (hf : ∀ pl, (f pl).roomPlayerId = pl.roomPlayerId) :
    (s.updatePlayer p f).player? q =
      if q = p then (s.player? q).map f else s.player? q :=
  Keyed.find_modify _ hf s.players q

theorem updatePlayer_updatePlayer {f g : GameEnginePlayer → GameEnginePlayer}
    (hf : ∀ pl, (f pl).roomPlayerId = pl.roomPlayerId) :
    (s.updatePlayer p f).updatePlayer p g = s.updatePlayer p (g ∘ f) := by
  simp only [updatePlayer, Keyed.modify_modify _ hf]

end UpdatePlayer

section UpdateProperty

variable (f : GameEngineProperty → GameEngineProperty)

@[simp] theorem updatePropertyState_phase : (s.updatePropertyState key f).phase = s.phase := rfl
@[simp] theorem updatePropertyState_current :
    (s.updatePropertyState key f).currentTurnRoomPlayerId = s.currentTurnRoomPlayerId := rfl
@[simp] theorem updatePropertyState_players :
    (s.updatePropertyState key f).players = s.players := rfl
@[simp] theorem updatePropertyState_player? :
    (s.updatePropertyState key f).player? p = s.player? p := rfl
@[simp] theorem updatePropertyState_decks : (s.updatePropertyState key f).decks = s.decks := rfl
@[simp] theorem updatePropertyState_pending :
    (s.updatePropertyState key f).pendingTileKey = s.pendingTileKey := rfl
@[simp] theorem updatePropertyState_auction :
    (s.updatePropertyState key f).auction = s.auction := rfl
@[simp] theorem updatePropertyState_tradeOffer :
    (s.updatePropertyState key f).tradeOffer = s.tradeOffer := rfl
@[simp] theorem updatePropertyState_debt : (s.updatePropertyState key f).debt = s.debt := rfl

theorem property?_updatePropertyState {f : GameEngineProperty → GameEngineProperty}
    (hf : ∀ property, (f property).tileKey = property.tileKey) (key' : TileKey) :
    (s.updatePropertyState key f).property? key' =
      if key' = key then (s.property? key').map f else s.property? key' :=
  Keyed.find_modify _ hf s.properties key'

end UpdateProperty

/-! ## Cash -/

/-- Add to the cash of a player. -/
def addCash (s : GameEngineState) (p : RoomPlayerId) (amount : Int) : GameEngineState :=
  s.updatePlayer p fun pl => { pl with cash := pl.cash + amount }

theorem player?_addCash (amount : Int) :
    (s.addCash p amount).player? q =
      if q = p then (s.player? q).map fun pl => { pl with cash := pl.cash + amount }
      else s.player? q :=
  player?_updatePlayer s p q fun _ => rfl

theorem player?_addCash_isSome (amount : Int) :
    ((s.addCash p amount).player? q).isSome = (s.player? q).isSome := by
  rw [player?_addCash]
  split <;> simp

theorem addCash_eq (amount : Int) :
    s.addCash p amount =
      { s with
        players := s.players.map fun pl =>
          { pl with cash := pl.cash + if pl.roomPlayerId = p then amount else 0 } } := by
  unfold addCash updatePlayer Keyed.modify
  congr 1
  apply List.map_congr_left
  intro pl _
  split <;> simp

theorem addCash_addCash (a b : Int) : (s.addCash p a).addCash p b = s.addCash p (a + b) := by
  simp only [addCash_eq, List.map_map]
  congr 1
  apply List.map_congr_left
  intro pl _
  simp only [Function.comp_apply]
  split <;> simp [Int.add_assoc]

theorem addCash_zero : s.addCash p 0 = s := by
  simp [addCash, updatePlayer, Keyed.modify]

end GameEngineState

/-- The players are distinct and none of them has negative cash. -/
structure Funded (s : GameEngineState) : Prop where
  ids : (s.players.map GameEnginePlayer.roomPlayerId).Nodup
  cash : ∀ pl ∈ s.players, 0 ≤ pl.cash

theorem Funded.update {s s' : GameEngineState} (h : Funded s) {p : RoomPlayerId}
    {pl : GameEnginePlayer} (hpl : s.player? p = some pl) {f : GameEnginePlayer → GameEnginePlayer}
    (hs : s'.players = Keyed.modify GameEnginePlayer.roomPlayerId s.players p f)
    (hf : ∀ x, (f x).roomPlayerId = x.roomPlayerId) (hcash : 0 ≤ (f pl).cash) : Funded s' where
  ids := by
    rw [hs, Keyed.map_modify _ hf]
    exact h.ids
  cash := by
    rw [hs]
    exact Keyed.forall_mem_modify _ h.ids hpl h.cash hcash

/-! ## Tiles -/

theorem ownable?_key {tile : GameTile} {ownable : OwnableTile}
    (h : tile.ownable? = some ownable) : ownable.key = tile.key := by
  cases tile <;> cases h <;> rfl

theorem ownable_of_tile? {board : GameBoard} {key : TileKey} {tile : OwnableTile}
    (h : (board.tile? key).bind GameTile.ownable? = some tile) : tile.key = key := by
  obtain ⟨found, hfound, hown⟩ := Option.bind_eq_some_iff.mp h
  rw [ownable?_key hown]
  exact Keyed.find_key _ hfound

/-! ## Guards -/

@[simp] theorem rejectIf_eq_ok {bad : Prop} [Decidable bad] {code : GameEngineErrorCode}
    {message : String} {u : Unit} : rejectIf bad code message = .ok u ↔ ¬ bad :=
  throwIf_eq_ok

@[simp] theorem throwGame_eq_ok {α : Type} {code : GameEngineErrorCode} {message : String}
    {a : α} : throwGame code message = .ok a ↔ False := by
  simp [throwGame]

@[simp] theorem findPlayerOr_eq_ok {message : String} {s : GameEngineState} {p : RoomPlayerId}
    {pl : GameEnginePlayer} : findPlayerOr message s p = .ok pl ↔ s.player? p = some pl :=
  orThrow_eq_ok

@[simp] theorem findPlayer_eq_ok {s : GameEngineState} {p : RoomPlayerId}
    {pl : GameEnginePlayer} : findPlayer s p = .ok pl ↔ s.player? p = some pl :=
  orThrow_eq_ok

@[simp] theorem findPropertyStateOr_eq_ok {message : String} {s : GameEngineState}
    {key : TileKey} {property : GameEngineProperty} :
    findPropertyStateOr message s key = .ok property ↔ s.property? key = some property :=
  orThrow_eq_ok

@[simp] theorem findPropertyState_eq_ok {s : GameEngineState} {key : TileKey}
    {property : GameEngineProperty} :
    findPropertyState s key = .ok property ↔ s.property? key = some property :=
  orThrow_eq_ok

theorem assertGameActive_eq_ok {s : GameEngineState} {u : Unit} :
    assertGameActive s = .ok u ↔ s.phase ≠ .finished ∧ s.phase ≠ .cancelled := by
  simp [assertGameActive]

theorem assertNoDebtResolution_eq_ok {s : GameEngineState} {u : Unit} :
    assertNoDebtResolution s = .ok u ↔ s.phase ≠ .awaitingDebtResolution ∧ s.debt = none := by
  simp [assertNoDebtResolution]

/-- The player whose turn it is. -/
structure OnTurn (s : GameEngineState) (p : RoomPlayerId) (pl : GameEnginePlayer) : Prop where
  player : s.player? p = some pl
  active : pl.bankrupt = false
  current : s.currentTurnRoomPlayerId = p

theorem assertCurrentTurn_eq_ok {s : GameEngineState} {p : RoomPlayerId} {u : Unit} :
    assertCurrentTurn s p = .ok u ↔ ∃ pl, OnTurn s p pl := by
  simp only [assertCurrentTurn, bind_eq_ok, findPlayer_eq_ok, rejectIf_eq_ok]
  constructor
  · rintro ⟨pl, hpl, _, hb, hc⟩
    exact ⟨pl, hpl, by simpa using hb, by simpa using hc⟩
  · rintro ⟨pl, hpl, hb, hc⟩
    exact ⟨pl, hpl, (), by simp [hb], by simp [hc]⟩

/-! ## The operations on cash -/

theorem debitPlayer_eq_ok {s s' : GameEngineState} {p : RoomPlayerId} {amount : Int} :
    debitPlayer s p amount = .ok s' ↔
      0 ≤ amount ∧ ∃ pl, s.player? p = some pl ∧ amount ≤ pl.cash ∧ s' = s.addCash p (-amount) := by
  simp only [debitPlayer, bind_eq_ok, throwIf_eq_ok, findPlayer_eq_ok, rejectIf_eq_ok,
    pure_eq_ok, not_lt]
  constructor
  · rintro ⟨_, h0, pl, hpl, _, hle, rfl⟩
    exact ⟨h0, pl, hpl, hle, rfl⟩
  · rintro ⟨h0, pl, hpl, hle, rfl⟩
    exact ⟨(), h0, pl, hpl, (), hle, rfl⟩

theorem creditPlayer_eq_ok {s s' : GameEngineState} {p : RoomPlayerId} {amount : Int} :
    creditPlayer s p amount = .ok s' ↔
      0 ≤ amount ∧ (∃ pl, s.player? p = some pl) ∧ s' = s.addCash p amount := by
  simp only [creditPlayer, bind_eq_ok, throwIf_eq_ok, findPlayer_eq_ok, pure_eq_ok, not_lt]
  constructor
  · rintro ⟨_, h0, pl, hpl, rfl⟩
    exact ⟨h0, ⟨pl, hpl⟩, rfl⟩
  · rintro ⟨h0, ⟨pl, hpl⟩, rfl⟩
    exact ⟨(), h0, pl, hpl, rfl⟩

theorem transferPlayerCash_eq_ok {s s' : GameEngineState} {p q : RoomPlayerId} {amount : Int} :
    transferPlayerCash s p q amount = .ok s' ↔
      0 ≤ amount ∧ (∃ pl, s.player? p = some pl ∧ amount ≤ pl.cash) ∧
        (∃ pl, s.player? q = some pl) ∧ s' = (s.addCash p (-amount)).addCash q amount := by
  simp only [transferPlayerCash, bind_eq_ok, debitPlayer_eq_ok, creditPlayer_eq_ok]
  have hsome : (∃ pl, (s.addCash p (-amount)).player? q = some pl) ↔
      ∃ pl, s.player? q = some pl := by
    simp only [← Option.isSome_iff_exists, GameEngineState.player?_addCash_isSome]
  constructor
  · rintro ⟨_, ⟨h0, pl, hpl, hle, rfl⟩, -, hq, rfl⟩
    exact ⟨h0, ⟨pl, hpl, hle⟩, hsome.mp hq, rfl⟩
  · rintro ⟨h0, ⟨pl, hpl, hle⟩, hq, rfl⟩
    exact ⟨_, ⟨h0, pl, hpl, hle, rfl⟩, h0, hsome.mpr hq, rfl⟩

/-- The event of a charge that became a debt. -/
def paymentRequired (debt : GameEngineDebt) : GameEngineEvent :=
  .paymentRequired debt.roomPlayerId debt.creditorRoomPlayerId debt.amount debt.reason

theorem debitPlayerOrCreateDebt_eq_ok {s : GameEngineState} {debt : GameEngineDebt}
    {pl : GameEnginePlayer} (hpl : s.player? debt.roomPlayerId = some pl) {r : PaymentResult} :
    debitPlayerOrCreateDebt s debt = .ok r ↔
      0 ≤ debt.amount ∧
        (debt.amount ≤ pl.cash ∧ r = ⟨s.addCash debt.roomPlayerId (-debt.amount), [], true⟩ ∨
          pl.cash < debt.amount ∧ r = ⟨createDebtState s debt, [paymentRequired debt], false⟩) := by
  have hfind : findPlayer s debt.roomPlayerId = .ok pl := findPlayer_eq_ok.mpr hpl
  simp only [debitPlayerOrCreateDebt, hfind, ok_bind, bind_eq_ok, throwIf_eq_ok, not_lt]
  by_cases hle : debt.amount ≤ pl.cash
  · simp only [if_pos hle, bind_eq_ok, debitPlayer_eq_ok, pure_eq_ok]
    constructor
    · rintro ⟨_, h0, _, ⟨_, _, _, _, rfl⟩, rfl⟩
      exact ⟨h0, .inl ⟨hle, rfl⟩⟩
    · rintro ⟨h0, ⟨_, rfl⟩ | ⟨hlt, _⟩⟩
      · exact ⟨(), h0, _, ⟨h0, pl, hpl, hle, rfl⟩, rfl⟩
      · omega
  · simp only [if_neg hle, pure_eq_ok]
    constructor
    · rintro ⟨_, h0, rfl⟩
      exact ⟨h0, .inr ⟨by omega, rfl⟩⟩
    · rintro ⟨h0, ⟨hle', _⟩ | ⟨_, rfl⟩⟩
      · exact absurd hle' hle
      · exact ⟨(), h0, rfl⟩

theorem transferPlayerCashOrCreateDebt_eq_ok {s : GameEngineState} {p q : RoomPlayerId}
    {amount : Int} {reason : GameEngineDebtReason} {pl : GameEnginePlayer}
    (hpl : s.player? p = some pl) {r : PaymentResult} :
    transferPlayerCashOrCreateDebt s p q amount reason = .ok r ↔
      (∃ pl, s.player? q = some pl) ∧
        (0 ≤ amount ∧ amount ≤ pl.cash ∧
            r = ⟨(s.addCash p (-amount)).addCash q amount, [], true⟩ ∨
          pl.cash < amount ∧ r = ⟨createDebtState s ⟨p, some q, amount, reason⟩,
            [paymentRequired ⟨p, some q, amount, reason⟩], false⟩) := by
  have hfind : findPlayer s p = .ok pl := findPlayer_eq_ok.mpr hpl
  simp only [transferPlayerCashOrCreateDebt, hfind, ok_bind, bind_eq_ok, findPlayer_eq_ok]
  by_cases hle : amount ≤ pl.cash
  · simp only [if_pos hle, bind_eq_ok, transferPlayerCash_eq_ok, pure_eq_ok]
    constructor
    · rintro ⟨ql, hq, _, ⟨h0, _, _, rfl⟩, rfl⟩
      exact ⟨⟨ql, hq⟩, .inl ⟨h0, hle, rfl⟩⟩
    · rintro ⟨⟨ql, hq⟩, ⟨h0, _, rfl⟩ | ⟨hlt, _⟩⟩
      · exact ⟨ql, hq, _, ⟨h0, ⟨pl, hpl, hle⟩, ⟨ql, hq⟩, rfl⟩, rfl⟩
      · omega
  · simp only [if_neg hle, pure_eq_ok]
    constructor
    · rintro ⟨ql, hq, rfl⟩
      exact ⟨⟨ql, hq⟩, .inr ⟨by omega, rfl⟩⟩
    · rintro ⟨⟨ql, hq⟩, ⟨_, hle', _⟩ | ⟨_, rfl⟩⟩
      · exact absurd hle' hle
      · exact ⟨ql, hq, rfl⟩

/-! ## Several payments -/

/-- What a player receives by a list of payments. -/
def received (payments : List (RoomPlayerId × Int)) (q : RoomPlayerId) : Int :=
  (payments.map fun payment => if payment.1 = q then payment.2 else 0).sum

theorem foldl_addCash (payments : List (RoomPlayerId × Int)) (s : GameEngineState) :
    payments.foldl (fun s payment => s.addCash payment.1 payment.2) s =
      { s with
        players := s.players.map fun pl =>
          { pl with cash := pl.cash + received payments pl.roomPlayerId } } := by
  induction payments generalizing s with
  | nil => simp [received]
  | cons payment payments ih =>
    rw [List.foldl_cons, ih]
    simp only [GameEngineState.addCash, GameEngineState.updatePlayer, Keyed.modify, List.map_map]
    congr 1
    apply List.map_congr_left
    intro pl _
    by_cases hp : pl.roomPlayerId = payment.1
    · simp [received, hp, Int.add_assoc]
    · simp [received, hp, Ne.symm hp]

end Engine
end LivePoly
