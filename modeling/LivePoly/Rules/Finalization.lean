import LivePoly.Lib.Upsert
import LivePoly.Rules.BotTrades
import LivePoly.Rules.Results

/-!
# Rules.Finalization

What is stored of a finished game when several callers finalize it. Every call that succeeds writes
the whole record anew; winner and placements follow from the final state, but the end reason and
the time of completion are those of the finish event the caller brings.
-/

namespace LivePoly
namespace Rules

open Engine Checked Service

/-! ## The tables -/

def playerResultKey (row : SaveRoomPlayerResultInput) : RoomId × RoomPlayerId :=
  (row.roomId, row.roomPlayerId)

/-- What the row of a game says: end reason, winner, completion and duration. -/
def resultData (row : RoomResultRow) :
    GameResultEndReason × Option RoomPlayerId × Int × Int :=
  (row.endReason, row.winnerRoomPlayerId, row.completedAt, row.durationSeconds)

/-- What is stored of a game, and the placement of each player of its room. -/
def storedResult (tables : ResultTables) (gameId : GameId) (roomId : RoomId) :
    Option (GameResultEndReason × Option RoomPlayerId × Int × Int) ×
      (RoomPlayerId → Option Nat) :=
  ((Keyed.find RoomResultRow.gameId tables.roomResults gameId).map resultData,
    fun p => (Keyed.find playerResultKey tables.roomPlayerResults (roomId, p)).map
      SaveRoomPlayerResultInput.placement)

/-- The row can be written: it passes the checks, its player is one of the room, and nobody else
has the seat. -/
structure Fits (tables : ResultTables) (row : SaveRoomPlayerResultInput) : Prop where
  valid : row.isValid = true
  player : (GameResultsRepository.findRoomPlayer tables row.roomId row.roomPlayerId).isSome
  seat : ∀ other ∈ tables.roomPlayerResults, other.roomId = row.roomId →
    other.seatNumber = row.seatNumber → other.roomPlayerId = row.roomPlayerId

/-- The tables when the row of a player has been written. -/
def withPlayerResult (tables : ResultTables) (row : SaveRoomPlayerResultInput) : ResultTables :=
  { tables with
    roomPlayerResults :=
      Upsert.upsert playerResultKey (fun _ new => new) row tables.roomPlayerResults }

section Tables

variable {tables after : ResultTables} {row : SaveRoomPlayerResultInput}

theorem samePlayer_iff (other : SaveRoomPlayerResultInput) :
    (decide (other.roomId = row.roomId) && decide (other.roomPlayerId = row.roomPlayerId)) =
      decide (playerResultKey other = playerResultKey row) := by
  simp [playerResultKey]

theorem upsertRoomPlayerResult_eq_ok :
    GameResultsRepository.upsertRoomPlayerResult tables row = .ok after ↔
      Fits tables row ∧ withPlayerResult tables row = after := by
  unfold GameResultsRepository.upsertRoomPlayerResult
  dsimp only
  simp only [samePlayer_iff]
  split
  · rename_i hbad
    constructor
    · exact nofun
    · rintro ⟨hfits, _⟩
      rcases hbad with hinvalid | hnone
      · cases hfits.valid.symm.trans hinvalid
      · rw [Option.isNone_iff_eq_none] at hnone
        have hplayer := hfits.player
        rw [hnone] at hplayer
        cases hplayer
  · rename_i hgood
    obtain ⟨hvalid, hplayer⟩ := not_or.mp hgood
    split
    · rename_i htaken
      constructor
      · exact nofun
      · rintro ⟨hfits, _⟩
        obtain ⟨other, hother, htest⟩ := List.any_eq_true.mp htaken
        simp only [Bool.and_eq_true, decide_eq_true_eq, Bool.not_eq_true',
          decide_eq_false_iff_not] at htest
        obtain ⟨⟨hroom, hseat⟩, hkey⟩ := htest
        exact absurd (Prod.ext hroom (hfits.seat other hother hroom hseat)) hkey
    · rename_i hfree
      have hfits : Fits tables row := {
        valid := by simpa using hvalid
        player := by simpa [← Option.isSome_iff_ne_none] using hplayer
        seat := by
          intro other hother hroom hseat
          by_contra hne
          refine hfree (List.any_eq_true.mpr ⟨other, hother, ?_⟩)
          simp [hroom, hseat, playerResultKey, hne] }
      have hupsert : (if (tables.roomPlayerResults.any fun other =>
            decide (playerResultKey other = playerResultKey row)) = true then
          (.ok { tables with
            roomPlayerResults := tables.roomPlayerResults.map fun other =>
              if decide (playerResultKey other = playerResultKey row) = true then row else other } :
            Except DatabaseError ResultTables)
          else .ok { tables with roomPlayerResults := tables.roomPlayerResults ++ [row] }) =
          .ok (withPlayerResult tables row) := by
        unfold withPlayerResult Upsert.upsert
        simp only [decide_eq_true_eq]
        split <;> rfl
      rw [hupsert, Except.ok.injEq]
      exact ⟨fun h => ⟨hfits, h⟩, And.right⟩

theorem Fits.withPlayerResult {d : SaveRoomPlayerResultInput} (h : Fits tables d)
    (hseat : row.seatNumber = d.seatNumber → row.roomPlayerId = d.roomPlayerId) :
    Fits (Rules.withPlayerResult tables row) d where
  valid := h.valid
  player := h.player
  seat := by
    intro other hother hroom hsame
    have hother : other ∈ Upsert.upsert playerResultKey (fun _ new => new) row
      tables.roomPlayerResults := hother
    rcases Upsert.mem_upsert hother with rfl | ⟨hold, _⟩ | ⟨_, _, _, rfl⟩
    · exact hseat hsame
    · exact h.seat other hold hroom hsame
    · exact hseat hsame

/-- Players with distinct seats have their rows written, and each row fits again. -/
theorem foldlM_upsert {rows done : List SaveRoomPlayerResultInput}
    (hseats : (done ++ rows).Pairwise fun x y => x.seatNumber ≠ y.seatNumber)
    (hdone : ∀ row ∈ done, Fits tables row)
    (h : rows.foldlM GameResultsRepository.upsertRoomPlayerResult tables = .ok after) :
    ∀ row ∈ done ++ rows, Fits after row := by
  induction rows generalizing tables done with
  | nil =>
    cases h
    simpa using hdone
  | cons row rows ih =>
    rw [List.foldlM_cons] at h
    obtain ⟨next, hnext, hrest⟩ := bind_eq_ok.mp h
    obtain ⟨hfits, rfl⟩ := upsertRoomPlayerResult_eq_ok.mp hnext
    rw [List.append_cons] at hseats ⊢
    refine ih hseats (fun d hd => ?_) hrest
    have hapart := (List.pairwise_append.mp (List.pairwise_append.mp hseats).1).2.2
    rcases List.mem_append.mp hd with hd | hd
    · exact (hdone d hd).withPlayerResult fun heq =>
        absurd heq.symm (hapart d hd row List.mem_cons_self)
    · rw [List.mem_singleton.mp hd]
      exact hfits.withPlayerResult fun _ => rfl

theorem foldlM_upsert_fits {rows : List SaveRoomPlayerResultInput}
    (hseats : rows.Pairwise fun x y => x.seatNumber ≠ y.seatNumber)
    (h : rows.foldlM GameResultsRepository.upsertRoomPlayerResult tables = .ok after) :
    ∀ row ∈ rows, Fits after row := by
  have hnothing : ∀ row ∈ ([] : List SaveRoomPlayerResultInput), Fits tables row := nofun
  refine foldlM_upsert ?_ hnothing h
  exact hseats

theorem foldlM_upsert_succeeds {rows : List SaveRoomPlayerResultInput}
    (hseats : rows.Pairwise fun x y => x.seatNumber ≠ y.seatNumber)
    (h : ∀ row ∈ rows, Fits tables row) :
    ∃ after, rows.foldlM GameResultsRepository.upsertRoomPlayerResult tables = .ok after := by
  induction rows generalizing tables with
  | nil => exact ⟨tables, rfl⟩
  | cons row rows ih =>
    obtain ⟨hrow, hrest⟩ := List.pairwise_cons.mp hseats
    have hfirst := upsertRoomPlayerResult_eq_ok.mpr ⟨h row List.mem_cons_self, rfl⟩
    rw [List.foldlM_cons, hfirst]
    exact ih hrest fun d hd => (h d (List.mem_cons_of_mem _ hd)).withPlayerResult fun heq =>
      absurd heq (hrow d hd)

/-- The rows of one save are found afterwards, and the other ones of the room are as before. -/
theorem foldlM_upsert_find {rows : List SaveRoomPlayerResultInput} {roomId : RoomId}
    (hroom : ∀ row ∈ rows, row.roomId = roomId)
    (hids : (rows.map SaveRoomPlayerResultInput.roomPlayerId).Nodup)
    (h : rows.foldlM GameResultsRepository.upsertRoomPlayerResult tables = .ok after)
    (p : RoomPlayerId) :
    Keyed.find playerResultKey after.roomPlayerResults (roomId, p) =
      (Keyed.find SaveRoomPlayerResultInput.roomPlayerId rows p).or
        (Keyed.find playerResultKey tables.roomPlayerResults (roomId, p)) := by
  induction rows generalizing tables with
  | nil =>
    cases h
    rfl
  | cons row rows ih =>
    rw [List.foldlM_cons] at h
    obtain ⟨next, hnext, hrest⟩ := bind_eq_ok.mp h
    obtain ⟨_, rfl⟩ := upsertRoomPlayerResult_eq_ok.mp hnext
    rw [List.map_cons] at hids
    obtain ⟨hnew, hids⟩ := List.nodup_cons.mp hids
    have hfind := ih (fun x hx => hroom x (List.mem_cons_of_mem _ hx)) hids hrest
    have hkey : playerResultKey row = (roomId, row.roomPlayerId) :=
      Prod.ext (hroom row List.mem_cons_self) rfl
    have hself : Keyed.find playerResultKey (withPlayerResult tables row).roomPlayerResults
        (playerResultKey row) = some row := by
      refine (Upsert.find_upsert_self (fun _ new => new) fun _ _ => rfl).trans ?_
      cases Keyed.find playerResultKey tables.roomPlayerResults (playerResultKey row) <;> rfl
    rw [hfind]
    by_cases hp : row.roomPlayerId = p
    · subst hp
      rw [hkey] at hself
      rw [(Keyed.find_eq_none_iff _).mpr hnew, Option.none_or, hself]
      simp [Keyed.find]
    · have hother : (roomId, p) ≠ playerResultKey row := by
        rw [hkey]
        exact fun heq => hp (Prod.ext_iff.mp heq).2.symm
      have hkept : Keyed.find playerResultKey (withPlayerResult tables row).roomPlayerResults
          (roomId, p) = Keyed.find playerResultKey tables.roomPlayerResults (roomId, p) :=
        Upsert.find_upsert_other (fun _ new => new) (fun _ _ => rfl) hother
      rw [hkept]
      simp [Keyed.find, hp]

theorem foldlM_upsert_keeps {rows : List SaveRoomPlayerResultInput}
    (h : rows.foldlM GameResultsRepository.upsertRoomPlayerResult tables = .ok after) :
    after.games = tables.games ∧ after.roomResults = tables.roomResults ∧
      after.roomPlayers = tables.roomPlayers := by
  induction rows generalizing tables with
  | nil =>
    cases h
    exact ⟨rfl, rfl, rfl⟩
  | cons row rows ih =>
    rw [List.foldlM_cons] at h
    obtain ⟨next, hnext, hrest⟩ := bind_eq_ok.mp h
    obtain ⟨_, rfl⟩ := upsertRoomPlayerResult_eq_ok.mp hnext
    obtain ⟨hgames, hresults, hplayers⟩ := ih hrest
    exact ⟨hgames, hresults, hplayers⟩

/-! ## Saving -/

/-- The row that `saveFinishedGame` writes for the game. -/
def resultRow (tables : ResultTables) (input : SaveGameResultsInput) : RoomResultRow where
  roomId := input.roomId
  gameId := input.gameId
  winnerRoomPlayerId := input.winnerRoomPlayerId
  winnerUserId :=
    GameResultsRepository.findWinnerUserId tables input.roomId input.winnerRoomPlayerId
  endReason := input.endReason
  durationSeconds := input.durationSeconds
  completedAt := input.completedAt

/-- The row of the game passes the checks, and its winner is a player of the room. -/
def RowFits (tables : ResultTables) (row : RoomResultRow) : Prop :=
  row.isValid = true ∧ ∀ w, row.winnerRoomPlayerId = some w →
    (GameResultsRepository.findRoomPlayer tables row.roomId w).isSome

/-- The update of the row of a game leaves the room alone. -/
def keepRoom (other row : RoomResultRow) : RoomResultRow := { row with roomId := other.roomId }

theorem upsertRoomResult_eq_ok {row : RoomResultRow} :
    GameResultsRepository.upsertRoomResult tables row = .ok after ↔ RowFits tables row ∧
      { tables with
        roomResults := Upsert.upsert RoomResultRow.gameId keepRoom row tables.roomResults } =
        after := by
  unfold GameResultsRepository.upsertRoomResult RowFits
  have hplayer : (row.winnerRoomPlayerId.any fun id =>
      (GameResultsRepository.findRoomPlayer tables row.roomId id).isNone) = true ↔
        ¬ ∀ w, row.winnerRoomPlayerId = some w →
          (GameResultsRepository.findRoomPlayer tables row.roomId w).isSome := by
    cases row.winnerRoomPlayerId with
    | none => simp
    | some w => simp
  split
  · rename_i hbad
    rw [hplayer] at hbad
    constructor
    · exact nofun
    · rintro ⟨⟨hvalid, hknown⟩, _⟩
      rcases hbad with hinvalid | hunknown
      · cases hvalid.symm.trans hinvalid
      · exact absurd hknown hunknown
  · rename_i hgood
    rw [hplayer] at hgood
    obtain ⟨hvalid, hknown⟩ := not_or.mp hgood
    have hupsert : (if (tables.roomResults.any fun other =>
          decide (other.gameId = row.gameId)) = true then
        (.ok { tables with
          roomResults := tables.roomResults.map fun other =>
            if other.gameId = row.gameId then { row with roomId := other.roomId } else other } :
          Except DatabaseError ResultTables)
        else .ok { tables with roomResults := tables.roomResults ++ [row] }) =
        .ok { tables with
          roomResults := Upsert.upsert RoomResultRow.gameId keepRoom row tables.roomResults } := by
      unfold Upsert.upsert
      split <;> rfl
    rw [hupsert, Except.ok.injEq]
    exact ⟨fun h => ⟨⟨by simpa using hvalid, not_not.mp hknown⟩, h⟩, And.right⟩

/-- What one save leaves. -/
structure Saved (tables : ResultTables) (input : SaveGameResultsInput) (after : ResultTables) :
    Prop where
  row : RowFits tables (resultRow tables input)
  fits : ∀ row ∈ input.playerResults, Fits after row
  stored : storedResult after input.gameId input.roomId =
    (some (input.endReason, input.winnerRoomPlayerId, input.completedAt, input.durationSeconds),
      fun p => ((Keyed.find SaveRoomPlayerResultInput.roomPlayerId input.playerResults p).map
        SaveRoomPlayerResultInput.placement).or
          ((storedResult tables input.gameId input.roomId).2 p))
  games : (after.games input.gameId).isSome = (tables.games input.gameId).isSome
  roomPlayers : after.roomPlayers = tables.roomPlayers

/-- The rows of a save: of one room, of distinct players in distinct seats. -/
structure RowsApart (input : SaveGameResultsInput) : Prop where
  room : ∀ row ∈ input.playerResults, row.roomId = input.roomId
  ids : (input.playerResults.map SaveRoomPlayerResultInput.roomPlayerId).Nodup
  seats : input.playerResults.Pairwise fun x y => x.seatNumber ≠ y.seatNumber

theorem closeGame_isSome (tables : ResultTables) (input : SaveGameResultsInput) :
    ((GameResultsRepository.closeGame tables input).games input.gameId).isSome =
      (tables.games input.gameId).isSome := by
  unfold GameResultsRepository.closeGame
  dsimp only
  rw [Function.update_self, Option.isSome_map]

theorem saveFinishedGame_eq (tables : ResultTables) (input : SaveGameResultsInput) :
    GameResultsRepository.saveFinishedGame tables input = (do
      let next ← GameResultsRepository.upsertRoomResult
        (GameResultsRepository.closeGame tables input) (resultRow tables input)
      input.playerResults.foldlM GameResultsRepository.upsertRoomPlayerResult next) := rfl

theorem saveFinishedGame_saved {input : SaveGameResultsInput} (hrows : RowsApart input)
    (h : GameResultsRepository.saveFinishedGame tables input = .ok after) :
    Saved tables input after := by
  rw [saveFinishedGame_eq] at h
  obtain ⟨next, hnext, hfold⟩ := bind_eq_ok.mp h
  obtain ⟨hrow, rfl⟩ := upsertRoomResult_eq_ok.mp hnext
  have hfound := foldlM_upsert_find hrows.room hrows.ids hfold
  obtain ⟨hgames, hresults, hplayers⟩ := foldlM_upsert_keeps hfold
  have hresults : after.roomResults = Upsert.upsert RoomResultRow.gameId keepRoom
      (resultRow tables input) tables.roomResults := hresults
  have hself : Keyed.find RoomResultRow.gameId (Upsert.upsert RoomResultRow.gameId keepRoom
      (resultRow tables input) tables.roomResults) input.gameId =
      some ((Keyed.find RoomResultRow.gameId tables.roomResults input.gameId).elim
        (resultRow tables input) fun other => keepRoom other (resultRow tables input)) :=
    Upsert.find_upsert_self keepRoom fun _ _ => rfl
  exact {
    row := hrow
    fits := foldlM_upsert_fits hrows.seats hfold
    stored := by
      unfold storedResult
      refine Prod.ext ?_ (funext fun p => ?_)
      · dsimp only
        rw [hresults, hself]
        cases Keyed.find RoomResultRow.gameId tables.roomResults input.gameId <;> rfl
      · dsimp only
        rw [hfound p]
        cases Keyed.find SaveRoomPlayerResultInput.roomPlayerId input.playerResults p <;> rfl
    games := by
      rw [hgames]
      exact closeGame_isSome tables input
    roomPlayers := hplayers }

theorem saveFinishedGame_succeeds {input : SaveGameResultsInput} (hrows : RowsApart input)
    (hrow : RowFits tables (resultRow tables input))
    (hfits : ∀ row ∈ input.playerResults, Fits tables row) :
    ∃ after, GameResultsRepository.saveFinishedGame tables input = .ok after := by
  have hclosed : RowFits (GameResultsRepository.closeGame tables input) (resultRow tables input) :=
    hrow
  rw [saveFinishedGame_eq, upsertRoomResult_eq_ok.mpr ⟨hclosed, rfl⟩, ok_bind]
  exact foldlM_upsert_succeeds hrows.seats fun row hmem =>
    ⟨(hfits row hmem).valid, (hfits row hmem).player, (hfits row hmem).seat⟩

end Tables

/-! ## The callers -/

/-- Who finalizes: the command that finished the game, with its events; or a caller that found it
finished and makes up the event of a game whose time is up, or whose last human left. -/
inductive Caller where
  | command
  | expired (finishedAt : Int)
  | abandoned (finishedAt : Int)
  deriving DecidableEq

/-- A call, with the time on the clock and the failure of the statements left out. -/
structure FinalizeCall where
  caller : Caller
  now : Int
  failure : Option DatabaseError

/-- What the command path finalizes: `input`, with the state and the events of the step. -/
def finalizeCall (input : FinalizeGameResultInput) (call : FinalizeCall) (tables : ResultTables) :
    Except ResultsError ResultTables :=
  match call.caller with
  | .command => GameResultsService.finalizeFinishedGame call.now call.failure input tables
  | .expired finishedAt =>
    GameResultsService.finalizeExpiredFinishedGame finishedAt call.now call.failure input tables
  | .abandoned finishedAt =>
    GameResultsService.finalizeAbandonedFinishedGame finishedAt call.now call.failure input tables

/-- The tables after the calls: one that fails writes nothing. -/
def afterCalls (input : FinalizeGameResultInput) (tables : ResultTables)
    (calls : List FinalizeCall) : ResultTables :=
  calls.foldl (fun tables call => (finalizeCall input call tables).toOption.getD tables) tables

/-- The end reason a call brings. -/
def reasonOf (input : FinalizeGameResultInput) (call : FinalizeCall) : GameResultEndReason :=
  match call.caller with
  | .command => GameResultsService.getEndReason input.events
  | .expired _ => .timeElapsed
  | .abandoned _ => .abandoned

/-- The time of completion a call brings. -/
def instantOf (input : FinalizeGameResultInput) (call : FinalizeCall) : Int :=
  match call.caller with
  | .command => GameResultsService.getCompletedAt call.now input.events
  | .expired finishedAt | .abandoned finishedAt => finishedAt

/-- Two calls bring the same finish. -/
def SameFinish (input : FinalizeGameResultInput) (call call' : FinalizeCall) : Prop :=
  reasonOf input call' = reasonOf input call ∧ instantOf input call' = instantOf input call

/-- Nothing keeps a call from saving: its transaction does not fail, and a bankruptcy it brings
left a lone leader. -/
def MaySave (input : FinalizeGameResultInput) (call : FinalizeCall) : Prop :=
  call.failure = none ∧
    (call.caller = .command → (input.events.findSome? bankruptcyWinner?).isSome →
      ∃ w, LeadsAlone input.state w)

section Calls

variable {s : GameEngineState} {input : FinalizeGameResultInput} {standings : List PlayerNetWorth}

/-- The events of a call. -/
def eventsOf (input : FinalizeGameResultInput) (standings : List PlayerNetWorth)
    (call : FinalizeCall) : List GameEngineEvent :=
  match call.caller with
  | .command => input.events
  | .expired finishedAt =>
    [.gameFinishedByTime finishedAt (firstId standings) (tiedIds standings) standings]
  | .abandoned finishedAt =>
    [.gameFinishedAfterLastHumanLeft finishedAt (firstId standings) (tiedIds standings) standings]

theorem finalizeCall_eq (hphase : input.state.phase = .finished)
    (hstandings : calculateNetWorthStandings input.state = .ok standings) (call : FinalizeCall)
    (tables : ResultTables) :
    finalizeCall input call tables = GameResultsService.finalizeFinishedGame call.now call.failure
      { input with events := eventsOf input standings call } tables := by
  have hgoes : ¬ input.state.phase ≠ .finished := not_not.mpr hphase
  unfold finalizeCall eventsOf
  cases call.caller with
  | command => rfl
  | expired finishedAt =>
    simp only [GameResultsService.finalizeExpiredFinishedGame, GameResultsService.finalizeWith]
    rw [if_neg hgoes, hstandings]
    rfl
  | abandoned finishedAt =>
    simp only [GameResultsService.finalizeAbandonedFinishedGame, GameResultsService.finalizeWith]
    rw [if_neg hgoes, hstandings]
    rfl

theorem eventsOf_finishedBy (h : FinishedBy s input.state standings input.events)
    (call : FinalizeCall) : ∃ t, FinishedBy t input.state standings (eventsOf input standings call) := by
  unfold eventsOf
  cases call.caller with
  | command => exact ⟨s, h⟩
  | expired => exact ⟨input.state, .time rfl⟩
  | abandoned => exact ⟨input.state, .lastHumanLeft rfl⟩

theorem eventsOf_reason (call : FinalizeCall) :
    GameResultsService.getEndReason (eventsOf input standings call) = reasonOf input call := by
  unfold eventsOf reasonOf
  cases call.caller <;> rfl

theorem eventsOf_instant (call : FinalizeCall) :
    GameResultsService.getCompletedAt call.now (eventsOf input standings call) =
      instantOf input call := by
  unfold eventsOf instantOf
  cases call.caller <;> rfl

/-- What a call saves, given the ranking of the players. -/
def savedBy (input : FinalizeGameResultInput) (standings ranking : List PlayerNetWorth)
    (call : FinalizeCall) : SaveGameResultsInput where
  gameId := input.gameId
  roomId := input.roomId
  state := input.state
  endReason := reasonOf input call
  winnerRoomPlayerId := winnerSaved (eventsOf input standings call) standings
  completedAt := instantOf input call
  durationSeconds :=
    GameResultsService.getDurationSeconds input.startedAt (instantOf input call)
  playerResults := input.state.players.map
    (GameResultsService.playerResult input (instantOf input call) ranking)

theorem resultsOf_call (hstandings : calculateNetWorthStandings input.state = .ok standings)
    (hfinish : FinishedBy s input.state standings input.events) {ranking : List PlayerNetWorth}
    (hranking : GameResultsService.calculateFinalResultStandings input.state = .ok ranking)
    (call : FinalizeCall) :
    GameResultsService.resultsOf call.now { input with events := eventsOf input standings call } =
      .ok (savedBy input standings ranking call) := by
  obtain ⟨t, hevents⟩ := eventsOf_finishedBy hfinish call
  unfold GameResultsService.resultsOf GameResultsService.buildPlayerResults
  simp only [getWinnerRoomPlayerId_eq hevents hstandings, ok_bind, hranking, pure_bind,
    eventsOf_reason, eventsOf_instant]
  rfl

/-- A call succeeds when the game exists, the transaction does not fail and the results can be
saved. -/
theorem finalizeCall_eq_ok (hphase : input.state.phase = .finished)
    (hstandings : calculateNetWorthStandings input.state = .ok standings)
    (hfinish : FinishedBy s input.state standings input.events) {ranking : List PlayerNetWorth}
    (hranking : GameResultsService.calculateFinalResultStandings input.state = .ok ranking)
    {call : FinalizeCall} {tables after : ResultTables} :
    finalizeCall input call tables = .ok after ↔ (tables.games input.gameId).isSome ∧
      call.failure = none ∧ GameResultsRepository.saveFinishedGame tables
        (savedBy input standings ranking call) = .ok after := by
  rw [finalizeCall_eq hphase hstandings]
  unfold GameResultsService.finalizeFinishedGame
  rw [if_neg (not_not.mpr hphase), resultsOf_call hstandings hfinish hranking]
  dsimp only
  cases hgame : tables.games input.gameId with
  | none => simp
  | some game =>
    cases call.failure with
    | some error => simp
    | none =>
      cases hsave : GameResultsRepository.saveFinishedGame tables
          (savedBy input standings ranking call) with
      | error error => simp [Except.mapError, hsave]
      | ok saved => simp [Except.mapError, hsave]

end Calls

/-! ## Runs of calls -/

/-- What a run of calls needs to know of the finished game. -/
structure FinishedGameOf (s : GameEngineState) (input : FinalizeGameResultInput)
    (standings ranking : List PlayerNetWorth) : Prop where
  phase : input.state.phase = .finished
  valid : Valid input.state
  seated : Seated input.state
  stand : calculateNetWorthStandings input.state = .ok standings
  finish : FinishedBy s input.state standings input.events
  rank : GameResultsService.calculateFinalResultStandings input.state = .ok ranking
  ranked : Ranked input.state ranking

/-- The first one of the standings. -/
structure Leads (s : GameEngineState) (w : GameEnginePlayer) : Prop where
  mem : w ∈ s.players
  active : w.bankrupt = false
  least : ∀ pl ∈ s.players, pl.bankrupt = false → pl ≠ w →
    standingKey (standingOf s w) < standingKey (standingOf s pl)

/-- The game has been saved once: whatever finish a call brings, its rows can be written. -/
structure Ready (input : FinalizeGameResultInput) (ranking : List PlayerNetWorth)
    (tables : ResultTables) : Prop where
  game : (tables.games input.gameId).isSome
  winner : ∃ w, Leads input.state w ∧
    (GameResultsRepository.findRoomPlayer tables input.roomId w.roomPlayerId).isSome
  fits : ∀ instant, ∀ pl ∈ input.state.players,
    Fits tables (GameResultsService.playerResult input instant ranking pl)
  stored : ∀ pl ∈ input.state.players, (storedResult tables input.gameId input.roomId).2
    pl.roomPlayerId = some (GameResultsService.playerResult input 0 ranking pl).placement

/-- What is stored when a call has succeeded. -/
def dataOf (input : FinalizeGameResultInput) (w : GameEnginePlayer) (call : FinalizeCall) :
    GameResultEndReason × Option RoomPlayerId × Int × Int :=
  (reasonOf input call, some w.roomPlayerId, instantOf input call,
    GameResultsService.getDurationSeconds input.startedAt (instantOf input call))

section Runs

variable {s : GameEngineState} {input : FinalizeGameResultInput}
  {standings ranking : List PlayerNetWorth} {call : FinalizeCall} {tables after : ResultTables}

theorem Leads.unique {v w : GameEnginePlayer} (hv : Leads s v) (hw : Leads s w) : v = w := by
  by_contra hne
  exact lt_asymm (hv.least w hw.mem hw.active (Ne.symm hne)) (hw.least v hv.mem hv.active hne)

theorem savedBy_apart (hv : Valid input.state) (hs : Seated input.state) (call : FinalizeCall) :
    RowsApart (savedBy input standings ranking call) where
  room := by
    intro row hrow
    obtain ⟨pl, _, rfl⟩ := List.mem_map.mp hrow
    rfl
  ids := by
    unfold savedBy
    rw [List.map_map]
    exact hv.players.ids
  seats := by
    unfold savedBy
    rw [List.pairwise_map]
    exact (List.pairwise_map.mp hs).imp fun h => h

theorem reasonOf_ne_cancelled (h : FinishedBy s input.state standings input.events)
    (call : FinalizeCall) : reasonOf input call ≠ .cancelled := by
  unfold reasonOf
  cases call.caller with
  | expired | abandoned => exact nofun
  | command =>
    unfold GameResultsService.getEndReason
    dsimp only
    generalize input.events = events at h
    cases h with
    | bankruptcy => simp [bankruptcyWinner?]
    | time => simp [bankruptcyWinner?, timeWinner?]
    | lastHumanLeft => simp [bankruptcyWinner?, timeWinner?, abandonedWinner?]

theorem eventsOf_bankruptcy : ((eventsOf input standings call).findSome? bankruptcyWinner?).isSome ↔
    call.caller = .command ∧ (input.events.findSome? bankruptcyWinner?).isSome := by
  unfold eventsOf
  cases call.caller <;> simp [bankruptcyWinner?]

theorem savedBy_find (call : FinalizeCall) (p : RoomPlayerId) :
    (Keyed.find SaveRoomPlayerResultInput.roomPlayerId
        (savedBy input standings ranking call).playerResults p).map
          SaveRoomPlayerResultInput.placement =
      (input.state.player? p).map fun pl =>
        (GameResultsService.playerResult input 0 ranking pl).placement := by
  have hkey : ∀ pl, (GameResultsService.playerResult input (instantOf input call) ranking
      pl).roomPlayerId = pl.roomPlayerId := fun _ => rfl
  have hfind : Keyed.find SaveRoomPlayerResultInput.roomPlayerId
      (savedBy input standings ranking call).playerResults p =
      (Keyed.find GameEnginePlayer.roomPlayerId input.state.players p).map
        (GameResultsService.playerResult input (instantOf input call) ranking) :=
    Keyed.find_map _ hkey _ _
  rw [hfind, Option.map_map]
  rfl

theorem afterCalls_concat (calls : List FinalizeCall) :
    afterCalls input tables (calls ++ [call]) =
      (finalizeCall input call (afterCalls input tables calls)).toOption.getD
        (afterCalls input tables calls) := by
  unfold afterCalls
  rw [List.foldl_append]
  rfl

section Game

variable (hgame : FinishedGameOf s input standings ranking)

include hgame

/-- The winner a call saves is the leader, unless it saves none. -/
theorem winnerSaved_leads (hactive : ∃ pl ∈ input.state.players, pl.bankrupt = false)
    (hmay : call.caller = .command → (input.events.findSome? bankruptcyWinner?).isSome →
      ∃ w, LeadsAlone input.state w) :
    ∃ w, Leads input.state w ∧
      winnerSaved (eventsOf input standings call) standings = some w.roomPlayerId := by
  obtain ⟨w, hw, hin, hwinner, hleast⟩ := winnerSaved_eq hgame.valid hgame.seated hgame.stand
    hactive fun hbankruptcy => hmay (eventsOf_bankruptcy.mp hbankruptcy).1
      (eventsOf_bankruptcy.mp hbankruptcy).2
  exact ⟨w, ⟨hw, hin, hleast⟩, hwinner⟩

theorem active_of_winnerSaved
    (h : (winnerSaved (eventsOf input standings call) standings).isSome) :
    ∃ pl ∈ input.state.players, pl.bankrupt = false := by
  by_contra hnone
  have hempty : getActivePlayers input.state = [] :=
    List.eq_nil_iff_forall_not_mem.mpr fun pl hpl => hnone ⟨pl, mem_getActivePlayers.mp hpl⟩
  have hsort := calculateNetWorthStandings_eq hgame.valid.tiles.keys
  rw [hgame.stand, hempty] at hsort
  rw [Except.ok.inj hsort] at h
  unfold winnerSaved at h
  split at h <;> cases h

/-- A call that succeeds brings a finish that may be saved, with the leader as the winner. -/
theorem finalizeCall_saved (h : finalizeCall input call tables = .ok after) :
    MaySave input call ∧ ∃ w, Leads input.state w ∧
      Saved tables (savedBy input standings ranking call) after ∧
      (savedBy input standings ranking call).winnerRoomPlayerId = some w.roomPlayerId := by
  obtain ⟨_, hfailure, hsave⟩ :=
    (finalizeCall_eq_ok hgame.phase hgame.stand hgame.finish hgame.rank).mp h
  have hsaved := saveFinishedGame_saved (savedBy_apart hgame.valid hgame.seated call) hsave
  have hvalid := hsaved.row.1
  have hwinner : (winnerSaved (eventsOf input standings call) standings).isSome = true := by
    unfold RoomResultRow.isValid resultRow savedBy at hvalid
    dsimp only at hvalid
    rw [if_neg (reasonOf_ne_cancelled hgame.finish call)] at hvalid
    exact (Bool.and_eq_true_iff.mp hvalid).1
  have hactive := active_of_winnerSaved hgame hwinner
  have hmay : call.caller = .command → (input.events.findSome? bankruptcyWinner?).isSome →
      ∃ w, LeadsAlone input.state w := fun hcaller hbankruptcy =>
    leadsAlone_of_winnerSaved hgame.valid hgame.seated hgame.stand
      (eventsOf_bankruptcy.mpr ⟨hcaller, hbankruptcy⟩) hwinner
  obtain ⟨w, hw, hnamed⟩ := winnerSaved_leads hgame hactive hmay
  exact ⟨⟨hfailure, hmay⟩, w, hw, hsaved, hnamed⟩

theorem finalizeCall_ready (h : finalizeCall input call tables = .ok after) :
    Ready input ranking after ∧ ∃ w, Leads input.state w ∧
      (storedResult after input.gameId input.roomId).1 = some (dataOf input w call) := by
  obtain ⟨hmay, w, hw, hsaved, hwinner⟩ := finalizeCall_saved hgame h
  have hgames := ((finalizeCall_eq_ok hgame.phase hgame.stand hgame.finish hgame.rank).mp h).1
  have hstored := hsaved.stored
  refine ⟨?_, w, hw, ?_⟩
  · exact {
      game := hsaved.games.trans hgames
      winner := by
        refine ⟨w, hw, ?_⟩
        have hplayer := hsaved.row.2 w.roomPlayerId hwinner
        unfold GameResultsRepository.findRoomPlayer at hplayer ⊢
        rw [hsaved.roomPlayers]
        exact hplayer
      fits := by
        intro instant pl hpl
        have hfits := hsaved.fits _ (List.mem_map_of_mem hpl)
        exact ⟨hfits.valid, hfits.player, hfits.seat⟩
      stored := by
        intro pl hpl
        rw [show storedResult after input.gameId input.roomId = _ from hstored]
        dsimp only
        rw [savedBy_find, show input.state.player? pl.roomPlayerId = some pl from
          hgame.valid.players.find hpl]
        rfl }
  · rw [show storedResult after input.gameId input.roomId = _ from hstored, hwinner]
    rfl

/-- A call that succeeds again changes nothing but the finish. -/
theorem Ready.stored_placements (hready : Ready input ranking tables)
    (h : finalizeCall input call tables = .ok after) :
    (storedResult after input.gameId input.roomId).2 =
      (storedResult tables input.gameId input.roomId).2 := by
  obtain ⟨_, w, _, hsaved, _⟩ := finalizeCall_saved hgame h
  funext p
  rw [show storedResult after input.gameId input.roomId = _ from hsaved.stored]
  dsimp only
  rw [savedBy_find]
  cases hfound : input.state.player? p with
  | none => rfl
  | some pl =>
    obtain rfl := GameEngineState.player?_id hfound
    have hplacement := hready.stored pl (GameEngineState.player?_mem hfound)
    exact hplacement.symm

/-- Once the game has been saved, every call that brings a finish that may be saved succeeds. -/
theorem Ready.succeeds (hready : Ready input ranking tables) (hmay : MaySave input call) :
    ∃ after, finalizeCall input call tables = .ok after := by
  obtain ⟨w, hw, hplayer⟩ := hready.winner
  obtain ⟨v, hv, hwinner⟩ := winnerSaved_leads hgame ⟨w, hw.mem, hw.active⟩ hmay.2
  obtain rfl := hv.unique hw
  have hrow : RowFits tables (resultRow tables (savedBy input standings ranking call)) := by
    constructor
    · unfold RoomResultRow.isValid resultRow savedBy
      dsimp only
      rw [if_neg (reasonOf_ne_cancelled hgame.finish call), hwinner]
      simp [GameResultsService.getDurationSeconds]
    · intro u hu
      cases hwinner.symm.trans hu
      exact hplayer
  have hfits : ∀ row ∈ (savedBy input standings ranking call).playerResults, Fits tables row := by
    intro row hmem
    obtain ⟨pl, hpl, rfl⟩ := List.mem_map.mp hmem
    exact hready.fits _ pl hpl
  obtain ⟨after, hsave⟩ := saveFinishedGame_succeeds
    (savedBy_apart hgame.valid hgame.seated call) hrow hfits
  exact ⟨after, (finalizeCall_eq_ok hgame.phase hgame.stand hgame.finish hgame.rank).mpr
    ⟨hready.game, hmay.1, hsave⟩⟩

theorem afterCalls_ready (hready : Ready input ranking tables) (calls : List FinalizeCall) :
    Ready input ranking (afterCalls input tables calls) := by
  induction calls using List.reverseRecOn with
  | nil => exact hready
  | append_singleton calls call ih =>
    rw [afterCalls_concat]
    cases hcall : finalizeCall input call (afterCalls input tables calls) with
    | error error => exact ih
    | ok after => exact (finalizeCall_ready hgame hcall).1

/-- While the calls that may save bring the same finish, what is stored stays. -/
theorem afterCalls_stored (hready : Ready input ranking tables) {w : GameEnginePlayer}
    (hw : Leads input.state w) {first : FinalizeCall}
    (hfirst : (storedResult tables input.gameId input.roomId).1 = some (dataOf input w first))
    {calls : List FinalizeCall}
    (hsame : ∀ call ∈ calls, MaySave input call → SameFinish input first call) :
    storedResult (afterCalls input tables calls) input.gameId input.roomId =
      storedResult tables input.gameId input.roomId := by
  induction calls using List.reverseRecOn with
  | nil => rfl
  | append_singleton calls call ih =>
    have ih := ih fun c hc => hsame c (List.mem_append_left _ hc)
    rw [afterCalls_concat]
    cases hcall : finalizeCall input call (afterCalls input tables calls) with
    | error error => exact ih
    | ok after =>
      have hmay := (finalizeCall_saved hgame hcall).1
      obtain ⟨_, v, hv, hdata⟩ := finalizeCall_ready hgame hcall
      obtain rfl := hv.unique hw
      obtain ⟨hreason, hinstant⟩ := hsame call (by simp) hmay
      have hplacements := (afterCalls_ready hgame hready calls).stored_placements hgame hcall
      refine Prod.ext ?_ ?_
      · rw [hfirst]
        refine hdata.trans ?_
        unfold dataOf
        rw [hreason, hinstant]
      · exact hplacements.trans (congrArg Prod.snd ih)

end Game

end Runs

/-! ## Write-once -/

section WriteOnce

variable {room : CreateInitialGameStateInput} {env : Env} {s : GameEngineState}
  {intent : GameEngineIntent} {r : GameEngineResult} {input : FinalizeGameResultInput}

theorem accepted_finishedGame (hi : ValidInput room) (hs : Reachable room s)
    (hgoes : s.phase ≠ .finished) (haccepted : reduceGameEngineIntent env s intent = .ok r)
    (hfinished : r.state.phase = .finished) (hstate : input.state = r.state)
    (hevents : input.events = r.events) :
    ∃ standings ranking, FinishedGameOf s input standings ranking := by
  have hv : Valid s := reachable_valid hi hs
  have hvAfter : Valid r.state := accepted_valid hv haccepted
  obtain ⟨standings, hstandings, hfinish⟩ := accepted_finishes hv hgoes haccepted hfinished
  obtain ⟨ranking, hranking, hranked⟩ := finalStandings_ranked hvAfter
  refine ⟨standings, ranking, ?_⟩
  rw [← hstate] at hfinished hvAfter hstandings hfinish hranking hranked
  rw [← hevents] at hfinish
  refine ⟨hfinished, hvAfter, ?_, hstandings, hfinish, hranking, hranked⟩
  rw [hstate]
  exact (accepted_seats hv haccepted).1.seated (reachable_seated hi hs)

/-- What the first successful call stores stays exactly when the later calls that may save bring
its finish. -/
theorem finalization_writeOnce_iff (hi : ValidInput room) (hs : Reachable room s)
    (hgoes : s.phase ≠ .finished) (haccepted : reduceGameEngineIntent env s intent = .ok r)
    (hfinished : r.state.phase = .finished) (hstate : input.state = r.state)
    (hevents : input.events = r.events) {tables saved : ResultTables}
    {failed later : List FinalizeCall} {first : FinalizeCall}
    (hfailed : ∀ call ∈ failed, ∀ after, finalizeCall input call tables ≠ .ok after)
    (hfirst : finalizeCall input first tables = .ok saved) :
    (∀ seen, seen <+: later →
      storedResult (afterCalls input tables (failed ++ first :: seen)) input.gameId input.roomId =
        storedResult saved input.gameId input.roomId) ↔
      ∀ call ∈ later, MaySave input call → SameFinish input first call := by
  obtain ⟨standings, ranking, hgame⟩ :=
    accepted_finishedGame hi hs hgoes haccepted hfinished hstate hevents
  obtain ⟨hready, w, hw, hdata⟩ := finalizeCall_ready hgame hfirst
  have hfrom : ∀ seen, afterCalls input tables (failed ++ first :: seen) =
      afterCalls input saved seen := by
    intro seen
    have hkept : failed.foldl (fun tables call =>
        (finalizeCall input call tables).toOption.getD tables) tables = tables := by
      induction failed with
      | nil => rfl
      | cons call failed ih =>
        have herror : (finalizeCall input call tables).toOption = none := by
          cases hcall : finalizeCall input call tables with
          | error error => rfl
          | ok after => exact absurd hcall (hfailed call List.mem_cons_self after)
        rw [List.foldl_cons, herror]
        exact ih fun c hc => hfailed c (List.mem_cons_of_mem _ hc)
    unfold afterCalls
    rw [List.foldl_append, hkept, List.foldl_cons, hfirst]
    rfl
  simp only [hfrom]
  constructor
  · intro hstays call hcall hmay
    obtain ⟨before, rest, rfl⟩ := List.append_of_mem hcall
    obtain ⟨after, hsaves⟩ := (afterCalls_ready hgame hready before).succeeds hgame hmay
    obtain ⟨_, v, hv, hstored⟩ := finalizeCall_ready hgame hsaves
    obtain rfl := hv.unique hw
    have hsame := hstays (before ++ [call]) ⟨rest, by simp⟩
    rw [afterCalls_concat, hsaves] at hsame
    have hequal := hstored.symm.trans ((congrArg Prod.fst hsame).trans hdata)
    simp only [dataOf, Option.some.injEq, Prod.mk.injEq] at hequal
    exact ⟨hequal.1, hequal.2.2.1⟩
  · intro hsame seen hseen
    exact afterCalls_stored hgame hready hw hdata fun call hcall =>
      hsame call (hseen.subset hcall)

end WriteOnce

/-- The tables of a human and a bot whose game goes on. -/
def openGame (state : GameEngineState) : ResultTables where
  games gameId := if gameId = ⟨1⟩ then
    some ⟨.active, state.currentTurnRoomPlayerId, state.turnNumber, state, none⟩ else none
  rooms roomId := if roomId = ⟨1⟩ then some ⟨.active, none⟩ else none
  roomPlayers := [⟨⟨1⟩, ⟨1⟩, some ⟨1⟩, .human, none, 1, .joined⟩,
    ⟨⟨2⟩, ⟨1⟩, none, .bot, some .normal, 2, .joined⟩]
  roomResults := []
  roomPlayerResults := []

/-- What is finalized of their game. -/
def finishOf (r : GameEngineResult) : FinalizeGameResultInput where
  gameId := ⟨1⟩
  roomId := ⟨1⟩
  startedAt := some 0
  userIdOf := fun p => if p = ⟨1⟩ then some ⟨1⟩ else none
  state := r.state
  events := r.events

/-- The command that finished the game after a second finalizes it. -/
def atOneSecond : FinalizeCall := ⟨.command, 1000, none⟩

/-- The human gives up. The command finalizes once more in the same instant, and the job of the
clock fails. -/
theorem guestAndBot_stored : ∃ s r saved, Reachable guestAndBot s ∧
    reduceGameEngineIntent ⟨0, ""⟩ s (.declareBankruptcy ⟨1⟩ none) = .ok r ∧
    finalizeCall (finishOf r) atOneSecond (openGame s) = .ok saved ∧
    ∀ seen, seen <+: [atOneSecond, ⟨.expired 3600000, 3600000, some .failed⟩] →
      storedResult (afterCalls (finishOf r) (openGame s) (atOneSecond :: seen)) ⟨1⟩ ⟨1⟩ =
        storedResult saved ⟨1⟩ ⟨1⟩ := by
  obtain ⟨start, hstart, htest⟩ := exists_ok_of_any (by decide +kernel :
    (playRoom ⟨0, ""⟩ guestAndBot []).toOption.any (fun start => start.state.phase ≠ .finished ∧
      (reduceGameEngineIntent ⟨0, ""⟩ start.state
        (.declareBankruptcy ⟨1⟩ none)).toOption.any fun r => r.state.phase = .finished ∧
          (finalizeCall (finishOf r) atOneSecond (openGame start.state)).toOption.isSome) = true)
  obtain ⟨hgoes, htest⟩ := of_decide_eq_true htest
  obtain ⟨r, hr, htest⟩ := exists_ok_of_any htest
  obtain ⟨hfinished, hsaved⟩ := of_decide_eq_true htest
  have hreach : Reachable guestAndBot start.state := playRoom_reachable hstart
  cases hcall : finalizeCall (finishOf r) atOneSecond (openGame start.state) with
  | error error =>
    rw [hcall] at hsaved
    cases hsaved
  | ok saved =>
    have hnobody : ∀ call ∈ ([] : List FinalizeCall), ∀ after,
        finalizeCall (finishOf r) call (openGame start.state) ≠ .ok after := nofun
    refine ⟨start.state, r, saved, hreach, hr, hcall, ?_⟩
    refine (finalization_writeOnce_iff guestAndBot_valid hreach hgoes hr hfinished rfl rfl hnobody
      hcall).mpr ?_
    intro call hcall' hmay
    rcases List.mem_cons.mp hcall' with rfl | hcall'
    · exact ⟨rfl, rfl⟩
    · rw [List.mem_singleton.mp hcall'] at hmay
      cases hmay.1

/-- The human gives up, and an hour later the job of the clock finds the game finished: the record
says that the time was up. -/
theorem guestAndBot_rewritten : ∃ s r saved, Reachable guestAndBot s ∧ s.phase ≠ .finished ∧
    reduceGameEngineIntent ⟨0, ""⟩ s (.declareBankruptcy ⟨1⟩ none) = .ok r ∧
    r.state.phase = .finished ∧
    finalizeCall (finishOf r) atOneSecond (openGame s) = .ok saved ∧
    (storedResult saved ⟨1⟩ ⟨1⟩).1 = some (.bankruptcy, some ⟨2⟩, 1000, 1) ∧
    (storedResult (afterCalls (finishOf r) (openGame s)
      [atOneSecond, ⟨.expired 3600000, 3600000, none⟩]) ⟨1⟩ ⟨1⟩).1 =
        some (.timeElapsed, some ⟨2⟩, 3600000, 3600) := by
  obtain ⟨start, hstart, htest⟩ := exists_ok_of_any (by decide +kernel :
    (playRoom ⟨0, ""⟩ guestAndBot []).toOption.any (fun start => start.state.phase ≠ .finished ∧
      (reduceGameEngineIntent ⟨0, ""⟩ start.state
        (.declareBankruptcy ⟨1⟩ none)).toOption.any fun r => r.state.phase = .finished ∧
          (storedResult (afterCalls (finishOf r) (openGame start.state)
            [atOneSecond, ⟨.expired 3600000, 3600000, none⟩]) ⟨1⟩ ⟨1⟩).1 =
              some (.timeElapsed, some ⟨2⟩, 3600000, 3600) ∧
          (finalizeCall (finishOf r) atOneSecond (openGame start.state)).toOption.any fun saved =>
            (storedResult saved ⟨1⟩ ⟨1⟩).1 = some (.bankruptcy, some ⟨2⟩, 1000, 1)) = true)
  obtain ⟨hgoes, htest⟩ := of_decide_eq_true htest
  obtain ⟨r, hr, htest⟩ := exists_ok_of_any htest
  obtain ⟨hfinished, hlater, htest⟩ := of_decide_eq_true htest
  obtain ⟨saved, hsaved, hfirst⟩ := exists_ok_of_any htest
  exact ⟨start.state, r, saved, playRoom_reachable hstart, hgoes, hr, hfinished, hsaved,
    of_decide_eq_true hfirst, hlater⟩

end Rules
end LivePoly
