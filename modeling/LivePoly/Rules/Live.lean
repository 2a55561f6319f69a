import LivePoly.Rules.Rotation
import LivePoly.Service.Commands

/-!
# Rules.Live

The live state is what the engine makes of it and, on top, the missed turns and the deadline the
command layer writes. These are no part of the invariant (`valid_core`), so every command keeps it
(`updated_valid`); the engine in turn leaves the missed turns as they are.
-/

namespace LivePoly
namespace Rules

open Engine Checked Service

/-! ## What the engine reads -/

/-- The record without its missed turns. -/
def unmissed (pl : GameEnginePlayer) : GameEnginePlayer :=
  { pl with consecutiveMissedTurns := 0, lastMissedTurnNumber := none }

/-- The state without missed turns and deadline. -/
def core (s : GameEngineState) : GameEngineState :=
  { s with turnExpiresAt := none, players := s.players.map unmissed }

section Core

variable {s s' : GameEngineState} {p q : RoomPlayerId}

theorem core_player? : (core s).player? q = (s.player? q).map unmissed := by
  have hid : ∀ pl : GameEnginePlayer, (unmissed pl).roomPlayerId = pl.roomPlayerId := fun _ => rfl
  exact Keyed.find_map GameEnginePlayer.roomPlayerId hid s.players q

theorem core_updatePlayer {f : GameEnginePlayer → GameEnginePlayer}
    (hf : ∀ pl, unmissed (f pl) = unmissed pl) : core (s.updatePlayer p f) = core s := by
  unfold core GameEngineState.updatePlayer
  rw [Keyed.map_modify _ hf]

theorem core_incrementMissedTurn (turnNumber : Nat) :
    core (incrementMissedTurn s p turnNumber) = core s := by
  refine core_updatePlayer fun pl => ?_
  split <;> rfl

theorem core_resetMissedTurn : core (resetMissedTurn s p) = core s := by
  refine core_updatePlayer fun pl => ?_
  split <;> rfl

theorem core_applyCommandSourceToState (source : GameCommandSource)
    (intentType : GameEngineIntentType) (actor : Option RoomPlayerId) (turn : RoomPlayerId)
    (turnNumber : Nat) :
    core (applyCommandSourceToState s source intentType actor turn turnNumber) = core s := by
  unfold applyCommandSourceToState
  cases actor with
  | none => rfl
  | some actor =>
    cases source with
    | player => exact core_resetMissedTurn
    | bot => rfl
    | timer =>
      dsimp only
      split
      · rfl
      · exact core_incrementMissedTurn _

theorem core_applyTurnDeadline (deadlineNow renewedNow : Nat) (previous : GameEngineState) :
    core (applyTurnDeadline deadlineNow renewedNow previous s) = core s := by
  unfold applyTurnDeadline
  split
  · rfl
  · dsimp only
    split
    · split <;> rfl
    · rfl

/-! ## The invariant is about the core -/

theorem isActive_core : IsActive (core s) q ↔ IsActive s q := by
  unfold IsActive
  rw [core_player?]
  cases s.player? q with
  | none => simp
  | some pl => simp [unmissed]

theorem core_identity : (core s).players.map identity = s.players.map identity := by
  unfold core
  rw [List.map_map]
  rfl

theorem core_ids : (core s).players.map GameEnginePlayer.roomPlayerId =
    s.players.map GameEnginePlayer.roomPlayerId := by
  unfold core
  rw [List.map_map]
  rfl

theorem playersOk_core : PlayersOk (core s) ↔ PlayersOk s := by
  constructor
  · intro h
    refine ⟨core_ids ▸ h.ids, fun pl hpl => ?_⟩
    obtain ⟨hcash, hcards, hkeys, hretired⟩ := h.player _ (List.mem_map_of_mem hpl)
    exact ⟨hcash, hcards, hkeys, hretired⟩
  · intro h
    refine ⟨core_ids.symm ▸ h.ids, fun pl hpl => ?_⟩
    obtain ⟨x, hx, rfl⟩ := List.mem_map.mp hpl
    obtain ⟨hcash, hcards, hkeys, hretired⟩ := h.player x hx
    exact ⟨hcash, hcards, hkeys, hretired⟩

theorem tilesOk_core : TilesOk (core s) ↔ TilesOk s := by
  constructor
  · intro h
    refine ⟨h.keys, fun x hx => ?_, h.clear⟩
    have htile := h.tile x hx
    exact ⟨fun q hq => isActive_core.mp (htile.owner q hq), htile.unowned, htile.houses, htile.hotel,
      htile.street⟩
  · intro h
    refine ⟨h.keys, fun x hx => ?_, h.clear⟩
    have htile := h.tile x hx
    exact ⟨fun q hq => isActive_core.mpr (htile.owner q hq), htile.unowned, htile.houses,
      htile.hotel, htile.street⟩

theorem decksOk_core : DecksOk (core s) ↔ DecksOk s := by
  have hheld : heldCards (core s) = heldCards s := by
    unfold heldCards core
    rw [List.map_map]
    rfl
  unfold DecksOk cardsOf
  rw [hheld]
  rfl

theorem pendingOk_core {key : TileKey} : PendingOk (core s) key ↔ PendingOk s key := by
  unfold PendingOk
  rw [show (core s).currentTurnRoomPlayerId = s.currentTurnRoomPlayerId from rfl, core_player?]
  cases s.player? s.currentTurnRoomPlayerId with
  | none => simp
  | some pl => simp [unmissed, core, isOwnableAndUnowned, GameEngineState.property?]

theorem auctionOk_core {auction : GameEngineAuction} :
    AuctionOk (core s) auction ↔ AuctionOk s auction := by
  have hretired : (∀ q ∈ auction.activeRoomPlayerIds, ∀ pl, (core s).player? q = some pl →
      pl.bankrupt = true → pl.cash = 0) ↔ ∀ q ∈ auction.activeRoomPlayerIds, ∀ pl,
        s.player? q = some pl → pl.bankrupt = true → pl.cash = 0 := by
    refine forall₂_congr fun q _ => ?_
    rw [core_player?]
    cases s.player? q with
    | none => simp
    | some pl => simp [unmissed]
  constructor
  · intro h
    exact ⟨h.remains, h.opening, h.leader, h.leaderActive, hretired.mp h.retired, h.free⟩
  · intro h
    exact ⟨h.remains, h.opening, h.leader, h.leaderActive, hretired.mpr h.retired, h.free⟩

theorem debtOk_core {debt : GameEngineDebt} : DebtOk (core s) debt ↔ DebtOk s debt := by
  have hlisted : ∀ c, (∃ cl, (core s).player? c = some cl) ↔ ∃ cl, s.player? c = some cl := by
    intro c
    rw [core_player?]
    cases s.player? c <;> simp
  constructor
  · intro h
    exact ⟨h.debtor, h.amount, fun c hc => ⟨(h.creditor c hc).1, (hlisted c).mp (h.creditor c hc).2⟩⟩
  · intro h
    exact ⟨h.debtor, h.amount, fun c hc => ⟨(h.creditor c hc).1, (hlisted c).mpr (h.creditor c hc).2⟩⟩

theorem phaseOk_core : PhaseOk (core s) ↔ PhaseOk s := by
  constructor
  · intro h
    exact ⟨h.pending, h.auction, h.debt, fun key hkey => pendingOk_core.mp (h.pendingOk key hkey),
      fun auction ha => auctionOk_core.mp (h.auctionOk auction ha),
      fun debt hdebt => debtOk_core.mp (h.debtOk debt hdebt)⟩
  · intro h
    exact ⟨h.pending, h.auction, h.debt, fun key hkey => pendingOk_core.mpr (h.pendingOk key hkey),
      fun auction ha => auctionOk_core.mpr (h.auctionOk auction ha),
      fun debt hdebt => debtOk_core.mpr (h.debtOk debt hdebt)⟩

theorem tableOk_core : TableOk (core s) ↔ TableOk s := by
  have hends : EndsGame (core s) ↔ EndsGame s := by
    rw [endsGame_iff, endsGame_iff, core_identity]
  constructor
  · intro h
    exact ⟨fun hp => isActive_core.mp (h.turn hp), fun hp he => h.company hp (hends.mpr he), h.offer⟩
  · intro h
    exact ⟨fun hp => isActive_core.mpr (h.turn hp), fun hp he => h.company hp (hends.mp he), h.offer⟩

theorem valid_core : Valid (core s) ↔ Valid s := by
  constructor
  · intro h
    exact ⟨playersOk_core.mp h.players, tilesOk_core.mp h.tiles, decksOk_core.mp h.decks,
      phaseOk_core.mp h.phase, tableOk_core.mp h.table⟩
  · intro h
    exact ⟨playersOk_core.mpr h.players, tilesOk_core.mpr h.tiles, decksOk_core.mpr h.decks,
      phaseOk_core.mpr h.phase, tableOk_core.mpr h.table⟩

theorem seated_core : Seated (core s) ↔ Seated s := by
  unfold Seated core
  rw [List.map_map]
  rfl

theorem valid_of_core (h : core s' = core s) (hv : Valid s) : Valid s' := by
  rw [← valid_core, h]
  exact valid_core.mpr hv

theorem seated_of_core (h : core s' = core s) (hs : Seated s) : Seated s' := by
  rw [← seated_core, h]
  exact seated_core.mpr hs

end Core

/-! ## Commands -/

section Commands

variable {input : ExecuteGameIntentCommand} {ambient : Ambient} {s s' : GameEngineState}
  {result : GameCommandResult}

/-- The intent a command plays. -/
abbrev playedIntent (input : ExecuteGameIntentCommand) (ambient : Ambient) (s : GameEngineState) :
    GameEngineIntent :=
  getEffectiveIntentForCurrentTime ambient.now s input.intent

/-- What the command layer adds to the engine's result. -/
def sourceApplied (input : ExecuteGameIntentCommand) (ambient : Ambient)
    (s next : GameEngineState) : GameEngineState :=
  applyCommandSourceToState next (input.source.getD .player) (playedIntent input ambient s).type
    (getIntentActorRoomPlayerId (playedIntent input ambient s)) s.currentTurnRoomPlayerId
    s.turnNumber

theorem updater_eq_ok : GameCommandsService.updater input ambient s = .ok (s', result) ↔
    ∃ r, reduceGameEngineIntent ambient.engine s (playedIntent input ambient s) = .ok r ∧
      s' = applyTurnDeadline ambient.deadlineNow ambient.renewedNow s
        (sourceApplied input ambient s r.state) ∧
      result = ⟨s', r.events, (playedIntent input ambient s).type⟩ := by
  unfold GameCommandsService.updater
  dsimp only
  cases h : reduceGameEngineIntent ambient.engine s (playedIntent input ambient s) with
  | error error => simp [Except.mapError]
  | ok r =>
    simp only [Except.mapError, ok_bind, pure_eq_ok, Prod.mk.injEq, Except.ok.injEq,
      exists_eq_left']
    constructor
    · rintro ⟨rfl, rfl⟩
      exact ⟨rfl, rfl⟩
    · rintro ⟨rfl, rfl⟩
      exact ⟨rfl, rfl⟩

theorem updated_core {r : GameEngineResult}
    (h : s' = applyTurnDeadline ambient.deadlineNow ambient.renewedNow s
      (sourceApplied input ambient s r.state)) : core s' = core r.state := by
  rw [h, core_applyTurnDeadline]
  exact core_applyCommandSourceToState _ _ _ _ _

theorem updated_valid (hv : Valid s)
    (h : GameCommandsService.updater input ambient s = .ok (s', result)) : Valid s' := by
  obtain ⟨r, hr, hs', _⟩ := updater_eq_ok.mp h
  exact valid_of_core (updated_core hs') (accepted_valid hv hr)

theorem updated_seated (hv : Valid s) (hs : Seated s)
    (h : GameCommandsService.updater input ambient s = .ok (s', result)) : Seated s' := by
  obtain ⟨r, hr, hs', _⟩ := updater_eq_ok.mp h
  exact seated_of_core (updated_core hs') ((accepted_seats hv hr).1.seated hs)

end Commands

/-! ## The engine leaves missed turns alone -/

/-- Who a player is and what was counted. -/
def missedRecord (pl : GameEnginePlayer) : RoomPlayerId × PlayerType × Nat × Option Nat :=
  (pl.roomPlayerId, pl.playerType, pl.consecutiveMissedTurns, pl.lastMissedTurnNumber)

section Missed

variable {c : Condition} {env : Env} {s s' : GameEngineState} {p q : RoomPlayerId}
  {events : List GameEngineEvent} {intent : GameEngineIntent} {r : GameEngineResult}

theorem PlayerChange.missedRecord {x y : GameEnginePlayer} (h : PlayerChange s p x y) :
    Rules.missedRecord y = Rules.missedRecord x := by
  cases h <;> rfl

theorem Action.missedRecords (hv : Valid s) (h : Action c p s events s') :
    s'.players.map missedRecord = s.players.map missedRecord := by
  rcases h.players hv with ⟨f, hs, hf⟩ | ⟨_, _, _, hb⟩
  · rw [hs, List.map_map]
    apply List.map_congr_left
    intro x hx
    exact (hf x hx).missedRecord
  · rw [hb.players', Keyed.map_modify]
    intro _
    rfl

theorem Actions.missedRecords (hv : Valid s) (h : Actions c p s events s') :
    s'.players.map missedRecord = s.players.map missedRecord := by
  induction h with
  | nil => rfl
  | cons hstep _ _ ih => exact (ih (hstep.valid hv)).trans (hstep.missedRecords hv)

theorem accepted_missedRecord (hv : Valid s) (h : reduceGameEngineIntent env s intent = .ok r)
    (q : RoomPlayerId) :
    (r.state.player? q).map missedRecord = (s.player? q).map missedRecord := by
  obtain ⟨p, hactions⟩ := accepted_actions hv (permits_unrestricted env s intent) h
  have hkey : ∀ x : GameEnginePlayer, (missedRecord x).1 = x.roomPlayerId := fun _ => rfl
  exact Keyed.find_congr_map GameEnginePlayer.roomPlayerId hkey (Actions.missedRecords hv hactions) q

end Missed

end Rules
end LivePoly
