import LivePoly.Lib.LookFirst
import LivePoly.Rules.Rooms
import LivePoly.Service.GameExpiry

/-!
# Rules.FailedStart

A start that fails after its transaction cancels the room and the game and deletes the live state.
Jobs, recoveries and finalizations of the game look for its state before they do anything else.
While none of them finds one, the game stays cancelled; but the start snapshot is still there.
-/

namespace LivePoly
namespace Rules

open Engine Service Process Process.Proc

/-! ## The services of a game -/

section Game

variable {τ α : Type} {json : StateCodec τ} {past : List (Act (Op τ) (Ans τ))}

def isRead : Op τ → Bool
  | .get | .findLatestByGameId | .ambient => true
  | _ => false

/-- The state of the game is in Redis, or there is a snapshot. -/
def findsState : Act (Op τ) (Ans τ) → Bool
  | ⟨.get, some _⟩ => true
  | ⟨.findLatestByGameId, .ok (some _)⟩ => true
  | _ => false

theorem looksFirst_get : LooksFirst isRead findsState past (GameStateService.get json) := by
  refine keeps_perform (.inr rfl) fun text => ?_
  cases text with
  | none => exact keeps_throw trivial
  | some text => exact (found_last rfl).looksFirst _

theorem looksFirst_recoverOrThrow :
    LooksFirst isRead findsState past (GameRecoveryService.recoverOrThrow json) := by
  refine keeps_perform (.inr rfl) fun answer => ?_
  rcases answer with error | _ | state
  · exact keeps_throw trivial
  · exact keeps_throw trivial
  · exact (found_last rfl).looksFirst _

theorem looksFirst_getOrRecover :
    LooksFirst isRead findsState past (GameRecoveryService.getOrRecover json) := by
  refine looksFirst_get.handle fun past error => ?_
  by_cases hmissing : error ≠ .notFound
  · rw [if_pos hmissing]
    exact keeps_throw trivial
  · rw [if_neg hmissing]
    refine keeps_perform (.inr rfl) fun answer => ?_
    rcases answer with error | _ | state
    · exact keeps_throw trivial
    · exact keeps_throw trivial
    · exact (found_last rfl).looksFirst _

theorem looksFirst_executeOnce (input : ExecuteGameIntentCommand) :
    LooksFirst isRead findsState past (GameCommandsService.executeOnce json input) := by
  refine LooksFirst.bind (keeps_perform (.inr rfl) fun text => ?_) _
  cases text with
  | none => exact keeps_throw trivial
  | some text => exact (found_last rfl).looksFirst _

theorem looksFirst_executeIntent (input : ExecuteGameIntentCommand) :
    LooksFirst isRead findsState past (GameCommandsService.executeIntent json input) := by
  refine keeps_bind (fun _ _ => True) (keeps_lift trivial) (fun _ _ _ => trivial)
    fun past _ _ => ?_
  refine (looksFirst_executeOnce input).handle fun past error => ?_
  by_cases hmissing : error = .notFound
  · rw [if_pos hmissing]
    exact looksFirst_recoverOrThrow.bind _
  · rw [if_neg hmissing]
    exact keeps_throw trivial

end Game

/-! ## The rooms -/

section Rooms

variable {κ τ α : Type} {json : StateCodec τ}

/-- A job of the game, or what else recovers or finalizes it. -/
inductive GameCall where
  | executeTurnTimeout (data : ExecuteTurnTimeoutJob)
  | executeBotTurn (chooseDecision : Ambient → GameEngineState → Option BotDecision)
  | finishExpiredGame (expiresAt : Nat)
  | getOrRecover
  | executeIntent (input : ExecuteGameIntentCommand)
  | leaveGame (leaveResult : RoomsLobbyService.LeaveResult)

def GameCall.run (json : StateCodec τ) (gameId : GameId) : GameCall → RoomsTask κ τ Unit
  | executeTurnTimeout data => do
    let _ ← ofGame gameId (GameProcessor.processExecuteTurnTimeout json data)
    return ()
  | executeBotTurn chooseDecision => do
    let _ ← ofGame gameId (GameProcessor.processExecuteBotTurn json chooseDecision)
    return ()
  | finishExpiredGame expiresAt =>
    ofGame gameId (GameProcessor.processFinishExpiredGame json expiresAt)
  | getOrRecover => do
    let _ ← ofGame gameId (GameRecoveryService.getOrRecover json)
    return ()
  | executeIntent input => do
    let _ ← ofGame gameId (GameCommandsService.executeIntent json input)
    return ()
  | leaveGame leaveResult => RoomsLobbyService.leaveGame json gameId leaveResult

def isRoomsRead : RoomsOp κ τ → Bool
  | .store _ o => isRead o
  | _ => false

def findsGame : Act (RoomsOp κ τ) (RoomsAns κ τ) → Bool
  | ⟨.store _ o, answer⟩ => findsState ⟨o, answer⟩
  | _ => false

/-- An operation of the stores of a game, among those of the rooms. -/
def actOfGame (gameId : GameId) (act : Act (Op τ) (Ans τ)) : Act (RoomsOp κ τ) (RoomsAns κ τ) :=
  ⟨.store gameId act.1, act.2⟩

theorem found_ofGame {gameId : GameId} {past : List (Act (Op τ) (Ans τ))}
    (h : Found findsState past) :
    Found findsGame (past.map (actOfGame gameId) : List (Act (RoomsOp κ τ) (RoomsAns κ τ))) := by
  obtain ⟨act, hact, hfinds⟩ := h
  exact ⟨actOfGame gameId act, List.mem_map_of_mem hact, hfinds⟩

theorem looksFirst_ofGame (gameId : GameId) (past : List (Act (Op τ) (Ans τ))) {task : Task τ α}
    (h : LooksFirst isRead findsState past task) :
    LooksFirst isRoomsRead findsGame (past.map (actOfGame gameId))
      (ofGame gameId task : RoomsTask κ τ α) := by
  induction task generalizing past with
  | ret a => exact found_ofGame h
  | fail e => trivial
  | op o next ih =>
    refine ⟨h.1.imp_left found_ofGame, fun a => ?_⟩
    have hnext := ih a _ (h.2 a)
    rw [List.map_append] at hnext
    exact hnext

theorem looksFirst_call (gameId : GameId) (call : GameCall) :
    LooksFirst isRoomsRead findsGame [] (call.run json gameId : RoomsTask κ τ Unit) := by
  cases call with
  | executeTurnTimeout data =>
    exact (looksFirst_ofGame gameId [] (looksFirst_getOrRecover.bind _)).bind _
  | executeBotTurn chooseDecision =>
    exact (looksFirst_ofGame gameId [] (looksFirst_getOrRecover.bind _)).bind _
  | finishExpiredGame expiresAt =>
    exact looksFirst_ofGame gameId [] (looksFirst_getOrRecover.bind _)
  | getOrRecover => exact (looksFirst_ofGame gameId [] looksFirst_getOrRecover).bind _
  | executeIntent input =>
    exact (looksFirst_ofGame gameId [] (looksFirst_executeIntent input)).bind _
  | leaveGame leaveResult =>
    show LooksFirst _ _ _ (RoomsLobbyService.leaveGame json gameId leaveResult)
    unfold RoomsLobbyService.leaveGame
    by_cases hlast : leaveResult.shouldFinishAfterLastHumanLeft = true
    · rw [if_pos hlast]
      exact (looksFirst_ofGame gameId [] looksFirst_getOrRecover).bind _
    · rw [if_neg hlast]
      exact ((looksFirst_ofGame gameId [] looksFirst_getOrRecover).bind _).bind _

variable [DecidableEq κ] [DecidableEq τ]

theorem isRoomsRead_world (world : RoomsWorld κ τ) (o : RoomsOp κ τ) (g : RoomsAmbient)
    (h : isRoomsRead o = true) : (roomsExec world o g).1 = world := by
  cases o with
  | store gameId o =>
    have hstores : (exec (world.stores gameId) o g.toAmbient).1 = world.stores gameId := by
      cases o with
      | get | ambient => rfl
      | findLatestByGameId =>
        unfold exec unlessFailing
        cases g.failure <;> rfl
      | _ => cases h
    have hfinal : isFinalization o = false := by
      cases o with
      | finalizeFinishedGame => cases h
      | _ => rfl
    unfold roomsExec storeExec
    simp [hfinal, hstores]
  | _ => cases h

/-! ## A start that fails -/

/-- The room and the game are cancelled. -/
structure StartCancelled (tables : RoomTables) (roomId : RoomId) (gameId : GameId) : Prop where
  room : (tables.rooms.filter fun row => row.id = roomId).map RoomRow.status = [.cancelled]
  game : (tables.games.filter fun row => row.id = gameId).map GameRow.status = [.cancelled]

/-- The host's request to start the room, and the calls for the game. -/
def startAndCalls (json : StateCodec τ) (world : RoomsWorld κ τ) (host : κ) (userId : UserId)
    (code : String) (botDifficulty : BotDifficulty) (gameId : GameId) (calls : κ → GameCall) :
    Config κ (RoomsWorld κ τ) (RoomsOp κ τ) (RoomsAns κ τ) RoomsError Unit :=
  ⟨world, fun k =>
    if k = host then do
      let _ ← RoomsGameService.startRoom json host userId code botDifficulty
      return ()
    else (calls k).run json gameId⟩

variable {world : RoomsWorld κ τ} {host : κ} {userId : UserId} {code : String}
  {botDifficulty : BotDifficulty} {roomId : RoomId} {gameId : GameId} {calls : κ → GameCall}
  {sched₁ sched₂ : List (κ × RoomsAmbient)}
  {acts₁ acts₂ : List (κ × Act (RoomsOp κ τ) (RoomsAns κ τ))}
  {mid c' : Config κ (RoomsWorld κ τ) (RoomsOp κ τ) (RoomsAns κ τ) RoomsError Unit}

/-- After a start that has failed and cancelled its game, while no call that is not over has found
a state of the game and none finds one: the room and the game stay cancelled, and nothing is
written for the game. -/
theorem failedStart_staysCancelled
    (hbefore : Interleaved roomsExec
      (startAndCalls json world host userId code botDifficulty gameId calls) sched₁ acts₁ mid)
    (hfailed : mid.procs host = .fail (.internalServerError "Game could not be started"))
    (hcancelled : StartCancelled mid.world.db.committed roomId gameId)
    (hafter : Interleaved roomsExec mid sched₂ acts₂ c')
    (hlive : ∀ k, Ended (mid.procs k) ∨ ¬ Found findsGame (doneBy k acts₁))
    (hunfound : ∀ act ∈ acts₂, findsGame act.2 = false) :
    StartCancelled c'.world.db.committed roomId gameId ∧
      c'.world.stores gameId = mid.world.stores gameId ∧
      ∀ act ∈ acts₂, ∀ state events,
        act.2.1 ≠ .store gameId (.finalizeFinishedGame state events) := by
  obtain ⟨hworld, hreads⟩ := interleaved_unfound isRoomsRead_world hbefore hafter (fun k => by
    by_cases hk : k = host
    · subst hk
      left
      intro o next hop
      cases hfailed.symm.trans hop
    · refine (hlive k).imp_right fun hnone => ⟨?_, hnone⟩
      unfold startAndCalls
      dsimp only
      rw [if_neg hk]
      exact looksFirst_call gameId (calls k)) hunfound
  rw [hworld]
  refine ⟨hcancelled, rfl, fun act hact state events heq => ?_⟩
  have hread := hreads act hact
  rw [heq] at hread
  cases hread

end Rooms

/-! ## A timer that survives -/

/-- A room with its host. -/
def waitingRoom : RoomsWorld Bool GameEngineState where
  db :=
    { committed :=
        { rooms := [⟨⟨1⟩, "roomcode", ⟨1⟩, .waiting, 60, 0, none⟩]
          roomPlayers := [⟨⟨100⟩, ⟨1⟩, some ⟨1⟩, .human, none, 1, .joined⟩]
          games := [] }
      written := fun _ => []
      holder := fun _ => none }
  stores _ := { redis := none, snapshots := [], eventLog := [] }

/-- The timer of the first turn. -/
def firstTimer : GameCall :=
  .executeTurnTimeout
    { turnNumber := 1, phase := .awaitingFirstTurn, currentTurnRoomPlayerId := ⟨100⟩
      actionStateKey := .turn (some 90000) }

/-- The host starts the room; the expiry job cannot be enqueued. -/
def expiryFails : List (Bool × RoomsAmbient) :=
  (List.range 19).map fun n =>
    (true, if n = 14 then { roomsAtFirst n with failure := some .database } else roomsAtFirst n)

section Runs

variable {Op : Type} {Ans : Op → Type} {ε α : Type} [DecidableEq ε]

def failsWith (error : ε) : Proc Op Ans ε α → Bool
  | .fail e => e = error
  | _ => false

theorem failsWith_eq {error : ε} {p : Proc Op Ans ε α} (h : failsWith error p = true) :
    p = .fail error := by
  cases p with
  | fail e => rw [of_decide_eq_true (p := e = error) h]
  | _ => cases h

end Runs

/-- Whether the start has failed, its game is cancelled and no live state is left. -/
def cancelledSoFar
    (last : Config Bool (RoomsWorld Bool GameEngineState) (RoomsOp Bool GameEngineState)
      (RoomsAns Bool GameEngineState) RoomsError Unit) : Bool :=
  failsWith (RoomsError.internalServerError "Game could not be started") (last.procs true) &&
    ((last.world.db.committed.rooms.filter fun row => row.id = (⟨1⟩ : RoomId)).map
        RoomRow.status = [.cancelled] &&
      ((last.world.db.committed.games.filter fun row => row.id = (⟨8⟩ : GameId)).map
        GameRow.status = [.cancelled] && (last.world.stores ⟨8⟩).redis = none))

theorem cancelledSoFar_start
    {last : Config Bool (RoomsWorld Bool GameEngineState) (RoomsOp Bool GameEngineState)
      (RoomsAns Bool GameEngineState) RoomsError Unit} (h : cancelledSoFar last = true) :
    last.procs true = .fail (.internalServerError "Game could not be started") ∧
      StartCancelled last.world.db.committed ⟨1⟩ ⟨8⟩ ∧ (last.world.stores ⟨8⟩).redis = none := by
  obtain ⟨hfailed, h⟩ := Bool.and_eq_true_iff.mp h
  obtain ⟨hroom, h⟩ := Bool.and_eq_true_iff.mp h
  obtain ⟨hgame, hlive⟩ := Bool.and_eq_true_iff.mp h
  exact ⟨failsWith_eq hfailed, ⟨of_decide_eq_true hroom, of_decide_eq_true hgame⟩,
    of_decide_eq_true hlive⟩

/-- The timer cannot read the snapshots, and ends. -/
theorem unreadableSnapshots_staysCancelled : ∃ sched₁ acts₁ mid sched₂ acts₂ c',
    Interleaved roomsExec
      (startAndCalls plainTexts waitingRoom true ⟨1⟩ "roomcode" .normal ⟨8⟩ fun _ => firstTimer)
      sched₁ acts₁ mid ∧
    Interleaved roomsExec mid sched₂ acts₂ c' ∧ acts₂.length = 2 ∧
    StartCancelled c'.world.db.committed ⟨1⟩ ⟨8⟩ ∧
    c'.world.stores ⟨8⟩ = mid.world.stores ⟨8⟩ := by
  obtain ⟨⟨mid, acts₁⟩, hplay₁, htest⟩ := (Option.any_eq_true _ _).mp (by decide +kernel :
    (Process.play roomsExec
      (startAndCalls plainTexts waitingRoom true ⟨1⟩ "roomcode" .normal ⟨8⟩ fun _ => firstTimer)
      expiryFails).any (fun last => cancelledSoFar last.1 && ((doneBy false last.2).isEmpty &&
        (Process.play roomsExec last.1 [(false, roomsAtFirst 19),
          (false, { roomsAtFirst 20 with failure := some .database })]).any fun after =>
            after.2.length = 2 && after.2.all fun act => !findsGame act.2)) = true)
  obtain ⟨hstart, htest⟩ := Bool.and_eq_true_iff.mp htest
  obtain ⟨hfirst, htest⟩ := Bool.and_eq_true_iff.mp htest
  obtain ⟨⟨c', acts₂⟩, hplay₂, htest⟩ := (Option.any_eq_true _ _).mp htest
  obtain ⟨htwo, hunfound⟩ := Bool.and_eq_true_iff.mp htest
  obtain ⟨hfailed, hcancelled, _⟩ := cancelledSoFar_start hstart
  have hbefore := play_interleaved hplay₁
  have hafter := play_interleaved hplay₂
  have hstays := failedStart_staysCancelled hbefore hfailed hcancelled hafter
    (fun k => by
      cases k with
      | true =>
        left
        intro o next hop
        cases hfailed.symm.trans hop
      | false =>
        right
        rintro ⟨act, hact, _⟩
        rw [List.isEmpty_iff.mp hfirst] at hact
        cases hact)
    fun act hact => by
      have hnot := List.all_eq_true.mp hunfound act hact
      rwa [Bool.not_eq_true'] at hnot
  exact ⟨_, acts₁, mid, _, acts₂, c', hbefore, hafter, of_decide_eq_true htwo, hstays.1, hstays.2.1⟩

/-- The timer brings the live state back. -/
theorem survivingTimer_restores : ∃ sched₁ acts₁ mid sched₂ acts₂ c',
    Interleaved roomsExec
      (startAndCalls plainTexts waitingRoom true ⟨1⟩ "roomcode" .normal ⟨8⟩ fun _ => firstTimer)
      sched₁ acts₁ mid ∧
    mid.procs true = .fail (.internalServerError "Game could not be started") ∧
    StartCancelled mid.world.db.committed ⟨1⟩ ⟨8⟩ ∧ doneBy false acts₁ = [] ∧
    Interleaved roomsExec mid sched₂ acts₂ c' ∧
    (mid.world.stores ⟨8⟩).redis = none ∧ (c'.world.stores ⟨8⟩).redis ≠ none := by
  obtain ⟨⟨mid, acts₁⟩, hplay₁, htest⟩ := (Option.any_eq_true _ _).mp (by decide +kernel :
    (Process.play roomsExec
      (startAndCalls plainTexts waitingRoom true ⟨1⟩ "roomcode" .normal ⟨8⟩ fun _ => firstTimer)
      expiryFails).any (fun last => cancelledSoFar last.1 && ((doneBy false last.2).isEmpty &&
        (Process.play roomsExec last.1 [(false, roomsAtFirst 19), (false, roomsAtFirst 20),
          (false, roomsAtFirst 21)]).any fun after =>
            (after.1.world.stores ⟨8⟩).redis.isSome)) = true)
  obtain ⟨hstart, htest⟩ := Bool.and_eq_true_iff.mp htest
  obtain ⟨hfirst, htest⟩ := Bool.and_eq_true_iff.mp htest
  obtain ⟨⟨c', acts₂⟩, hplay₂, hlive⟩ := (Option.any_eq_true _ _).mp htest
  obtain ⟨hfailed, hcancelled, hgone⟩ := cancelledSoFar_start hstart
  refine ⟨_, acts₁, mid, _, acts₂, c', play_interleaved hplay₁, hfailed, hcancelled,
    List.isEmpty_iff.mp hfirst, play_interleaved hplay₂, hgone, ?_⟩
  intro hnone
  have hsome : (c'.world.stores ⟨8⟩).redis.isSome = true := hlive
  rw [hnone] at hsome
  cases hsome

end Rules
end LivePoly
