import LivePoly.Rules.HostLeaves
import LivePoly.Rules.HostStarts

/-!
# Rules.LeaveOrStart

A host leaves a waiting room and starts it at the same time. Leaving looks at the room before its
transaction, and cancels it without looking whether it still waits; starting writes the live state
after its transaction, over whatever leaving has made of it. Where neither goes wrong the room is
cancelled, or its game is started with the host in it or bankrupt (`hostLeaves_accounted`).
-/

namespace LivePoly
namespace Rules

open Engine Service Process Process.Proc Sessions

/-! ## The rules of a request -/

section Rules

variable {κ τ α β P : Type} {note : P → Act (RoomsOp κ τ) (RoomsAns κ τ) → P}
  {may : P → RoomsOp κ τ → Prop} {post : P → Except RoomsError β → Prop} {p : P}

/-- A request ends with a value as is said of it. -/
abbrev TracksOk (note : P → Act (RoomsOp κ τ) (RoomsAns κ τ) → P) (may : P → RoomsOp κ τ → Prop)
    (post : P → α → Prop) : P → RoomsTask κ τ α → Prop :=
  Tracks note may fun p result => ∀ a, result = .ok a → post p a

theorem tracksOk_throw {post : P → α → Prop} (e : RoomsError) :
    TracksOk note may post p (throw e : RoomsTask κ τ α) :=
  fun _ h => by cases h

theorem tracksOk_pure {post : P → α → Prop} {a : α} (h : post p a) :
    TracksOk note may post p (pure a : RoomsTask κ τ α) := by
  rintro _ ⟨⟩
  exact h

theorem tracksOk_lift (x : Except RoomsError α) :
    TracksOk note may (fun p' _ => p' = p) p (lift x : RoomsTask κ τ α) := by
  cases x with
  | ok a => exact fun _ _ => rfl
  | error e => exact fun _ h => by cases h

theorem TracksOk.bind (post : P → α → Prop) {post' : P → β → Prop} {task : RoomsTask κ τ α}
    {f : α → RoomsTask κ τ β} (h : TracksOk note may post p task)
    (hf : ∀ p a, post p a → TracksOk note may post' p (f a)) :
    TracksOk note may post' p (task >>= f) :=
  tracks_bind _ h (fun _ _ _ _ h => by cases h) fun p a hpost => hf p a (hpost a rfl)

/-- The next statement: what it answers is noted. -/
theorem tracksOk_statement {o : RoomsOp κ τ} {answer : RoomsAns κ τ o → Except DatabaseError α}
    {f : α → RoomsTask κ τ β} {post : P → β → Prop} (hmay : may p o)
    (h : ∀ a v, answer a = .ok v → TracksOk note may post (note p ⟨o, a⟩) (f v)) :
    TracksOk note may post p (roomsStatement o answer >>= f) := by
  refine ⟨hmay, fun a => ?_⟩
  show TracksOk note may post _ (lift ((answer a).mapError .database) >>= f)
  cases hanswer : answer a with
  | error e => exact fun _ h => by cases h
  | ok v => exact h a v hanswer

/-- A statement that is not noted leaves what holds of the record. -/
theorem tracks_unnoted {q : P → Prop} {o : RoomsOp κ τ}
    {answer : RoomsAns κ τ o → Except DatabaseError α} (hmay : may p o)
    (hsame : ∀ a, note p ⟨o, a⟩ = p) (h : q p) :
    Tracks note may (fun p _ => q p) p (roomsStatement o answer) := by
  refine ⟨hmay, fun a => tracks_lift ?_⟩
  rw [hsame]
  exact h

theorem tracksOk_ambient {f : Ambient → RoomsTask κ τ β} {post : P → β → Prop}
    (hmay : may p .ambient)
    (h : ∀ ambient, TracksOk note may post (note p ⟨.ambient, ambient⟩) (f ambient)) :
    TracksOk note may post p (readRoomsAmbient >>= f) :=
  ⟨hmay, h⟩

theorem tracksOk_transaction (post : P → α → Prop) {tx : κ} {callback : RoomsTask κ τ α}
    {post' : P → α → Prop}
    (h : TracksOk note may post p callback)
    (hcommit : ∀ p a, post p a → may p (.commit tx) ∧ post' (note p ⟨.commit tx, .ok ()⟩) a)
    (hrollback : ∀ p, may p (.rollback tx)) :
    TracksOk note may post' p (roomsTransaction tx callback) := by
  refine tracks_handle (fun p result => ∀ a, result = .ok a → post' p a) ?_ (fun _ _ h => h) ?_
  · refine TracksOk.bind _ h fun p a hpost => ⟨(hcommit p a hpost).1, fun answer => ?_⟩
    cases answer with
    | error e => exact fun _ h => by cases h
    | ok done => exact tracksOk_pure (hcommit p a hpost).2
  · exact fun p e _ => ⟨hrollback p, fun _ _ h => by cases h⟩

end Rules

/-! ## Leaving -/

section Leaving

variable {τ α : Type} {json : StateCodec τ} {room : RoomRow} {p : LeaveProgress τ}
  {gameId : GameId} {id : RoomPlayerId}

/-- What the request to leave does. -/
abbrev LeaveTracks (json : StateCodec τ) (room : RoomRow) (post : LeaveProgress τ → α → Prop) :
    LeaveProgress τ → RoomsTask HostRequest τ α → Prop :=
  TracksOk (LeaveProgress.note room.hostUserId) (LeaveMay json room) post

/-- What the operations on a game add to what is known. -/
def LeaveProgress.played (p : LeaveProgress τ) (acts : List (Act (Op τ) (Ans τ))) :
    LeaveProgress τ :=
  { p with text := acts.foldl noteText p.text, closed := p.closed || acts.any isFinalized }

theorem played_nil : p.played [] = p := by
  unfold LeaveProgress.played
  rw [List.any_nil, Bool.or_false]
  rfl

theorem played_append (gameId : GameId) (userId : UserId) (acts : List (Act (Op τ) (Ans τ)))
    (act : Act (Op τ) (Ans τ)) :
    (p.played acts).note userId ⟨.store gameId act.1, act.2⟩ = p.played (acts ++ [act]) := by
  unfold LeaveProgress.played
  rw [List.foldl_append, List.any_append, ← Bool.or_assoc, List.any_cons, List.any_nil,
    Bool.or_false]
  rfl

theorem tracks_ofGame {task : Task τ α} {post : List (Act (Op τ) (Ans τ)) → α → Prop}
    {post' : LeaveProgress τ → α → Prop} (hgame : p.game = some gameId) (hleft : p.left = false)
    (h : Leaves [] post task) (hpost : ∀ acts a, post acts a → post' (p.played acts) a) :
    LeaveTracks json room post' p (ofGame gameId task) := by
  suffices hall : ∀ past, Leaves past post task →
      LeaveTracks json room post' (p.played past) (ofGame gameId task) by
    have hstart := hall [] h
    rwa [played_nil] at hstart
  clear h
  induction task with
  | ret a =>
    rintro past h _ ⟨⟩
    exact hpost past a (h a rfl)
  | fail e => exact fun _ _ _ h => by cases h
  | op o next ih =>
    refine fun past h => ⟨⟨hgame, hleft⟩, fun a => ?_⟩
    have hnext := ih a _ (h.2 a)
    rw [← played_append gameId room.hostUserId] at hnext
    exact hnext

theorem foldl_noteText {acts : List (Act (Op τ) (Ans τ))} {text : τ}
    (h : knownText acts = some text) (before : Option τ) :
    acts.foldl noteText before = some text := by
  induction acts using List.reverseRecOn generalizing text with
  | nil => cases h
  | append_singleton acts act ih =>
    rw [knownText_append] at h
    rw [List.foldl_concat]
    obtain ⟨o, answer⟩ := act
    cases o with
    | get =>
      cases answer with
      | none => exact ih h
      | some read => exact h
    | set value => exact h
    | eval expected next =>
      unfold noteText at h ⊢
      dsimp only at h ⊢
      split at h
      · rw [if_pos ‹_›]
        exact h
      · rw [if_neg ‹_›]
        exact ih h
    | _ => exact ih h

/-- The host's row is known, nothing is written yet, and the room was no waiting room. -/
structure KnowsHost (p : LeaveProgress τ) (id : RoomPlayerId) : Prop where
  player : p.player = some id
  begun : p.begun = true
  left : p.left = false
  cancelled : p.cancelled = false

theorem KnowsHost.played (h : KnowsHost p id) (acts : List (Act (Op τ) (Ans τ))) :
    KnowsHost (p.played acts) id :=
  ⟨h.player, h.begun, h.left, h.cancelled⟩

/-- The host has left the game. -/
structure HasLeft (json : StateCodec τ) (p : LeaveProgress τ) (id : RoomPlayerId) : Prop
    extends KnowsHost p id where
  out : p.closed = true ∨ p.KnowsBankrupt json id

theorem knowsBankrupt_played {acts : List (Act (Op τ) (Ans τ))} (hgame : p.game = some gameId)
    (h : KnowsBankrupt json id acts) : (p.played acts).KnowsBankrupt json id := by
  obtain ⟨text, hknown, hbankrupt⟩ := h
  exact ⟨gameId, text, hgame, foldl_noteText hknown _, hbankrupt⟩

theorem hasLeft_played {acts : List (Act (Op τ) (Ans τ))} (hgame : p.game = some gameId)
    (hhost : KnowsHost p id) (h : GameLeft json id acts) : HasLeft json (p.played acts) id := by
  refine ⟨hhost.played acts, ?_⟩
  rcases h with hbankrupt | ⟨act, hact, hfinalized⟩
  · exact .inr (knowsBankrupt_played hgame hbankrupt)
  · refine .inl (Bool.or_eq_true_iff.mpr (.inr ?_))
    exact List.any_eq_true.mpr ⟨act, hact, hfinalized⟩

open RoomsLobbyService

theorem tracks_executeIntent {input : ExecuteGameIntentCommand} (hgame : p.game = some gameId)
    (hhost : KnowsHost p id) (hleaving : isLeaving id input.intent = true) :
    LeaveTracks json room (fun p _ => HasLeft json p id) p
      (ofGame gameId (GameCommandsService.executeIntent json input) >>= fun _ => pure ()) := by
  refine TracksOk.bind (fun p _ => HasLeft json p id) ?_ fun _ _ h => tracksOk_pure h
  exact tracks_ofGame hgame hhost.left (leaves_executeIntent hleaving) fun acts _ h =>
    hasLeft_played hgame hhost h

theorem tracks_leaveGame {leaveResult : LeaveResult} (hgame : p.game = some gameId)
    (hhost : KnowsHost p leaveResult.leavingRoomPlayerId) :
    LeaveTracks json room (fun p _ => HasLeft json p leaveResult.leavingRoomPlayerId) p
      (leaveGame json gameId leaveResult) := by
  unfold leaveGame
  split
  · refine TracksOk.bind (fun p' _ => KnowsHost p' leaveResult.leavingRoomPlayerId ∧
      p'.game = some gameId) (tracks_ofGame hgame hhost.left (leaves_any _) fun acts _ _ =>
        ⟨hhost.played acts, hgame⟩) ?_
    rintro p' state ⟨hhost', hgame'⟩
    refine tracksOk_ambient trivial fun ambient => ?_
    show LeaveTracks json room _ p' _
    by_cases hfinished : state.phase = .finished
    · rw [if_pos hfinished]
      have hfinalize : Leaves [] (fun acts _ => GameLeft json leaveResult.leavingRoomPlayerId acts)
          (query (.finalizeFinishedGame state []) id : Task τ Unit) := by
        refine keeps_query trivial fun answer => ?_
        rintro _ rfl
        exact .inr ⟨_, List.mem_append_right _ (List.mem_singleton_self _), rfl⟩
      exact tracks_ofGame hgame' hhost'.left hfinalize fun acts _ h =>
        hasLeft_played hgame' hhost' h
    · rw [if_neg hfinished]
      exact tracks_executeIntent hgame' hhost' rfl
  · refine TracksOk.bind (fun p' bankrupt => KnowsHost p' leaveResult.leavingRoomPlayerId ∧
      p'.game = some gameId ∧ (bankrupt = true →
        p'.KnowsBankrupt json leaveResult.leavingRoomPlayerId)) ?_ ?_
    · refine TracksOk.bind (fun p' state =>
        KnowsHost p' leaveResult.leavingRoomPlayerId ∧ p'.game = some gameId ∧
          (isBankruptIn leaveResult.leavingRoomPlayerId state = true →
            p'.KnowsBankrupt json leaveResult.leavingRoomPlayerId)) ?_ fun _ _ h => tracksOk_pure h
      exact tracks_ofGame hgame hhost.left leaves_getOrRecover fun acts state hknows =>
        ⟨hhost.played acts, hgame, fun hbankrupt => knowsBankrupt_played hgame (hknows hbankrupt)⟩
    · rintro p' bankrupt ⟨hhost', hgame', hknows⟩
      split
      · rename_i hbankrupt
        exact tracksOk_pure ⟨hhost', .inr (hknows hbankrupt)⟩
      · exact tracks_executeIntent hgame' hhost' (decide_eq_true rfl)

theorem tracks_cancelWaitingRoom {row : RoomRow} (hroom : p.room = some row.id)
    (hcancelled : p.cancelled = false) : LeaveTracks json room (fun p _ => p.begun = true) p
      (cancelWaitingRoom .leave room.hostUserId row) := by
  refine TracksOk.bind (fun p _ => p.begun = true) ?_ fun _ _ h => tracksOk_pure h
  refine tracksOk_transaction (fun p _ => p.left = true ∧ (p.cancelled = true ∨ p.closed = true)) ?_
    (fun p _ h => ⟨⟨rfl, fun _ => h.2.imp_right .inl⟩, Bool.or_eq_true_iff.mpr (.inr h.1)⟩)
    fun _ => rfl
  refine tracksOk_statement ⟨rfl, hcancelled⟩ fun _ _ _ => ?_
  refine tracksOk_statement ⟨rfl, hroom, rfl, rfl, hcancelled⟩ fun answer _ hanswer => ?_
  refine tracksOk_pure ?_
  rcases answer with _ | _ | cancelled
  · cases hanswer
  · exact ⟨rfl, .inr rfl⟩
  · exact ⟨rfl, .inl rfl⟩

/-- What is known once the room has been locked: its active game, or that there is none. -/
def KnowsGame (id : RoomPlayerId) (p : LeaveProgress τ) (game : Option GameId) : Prop :=
  KnowsHost p id ∧ match game with
    | some gameId => p.game = some gameId
    | none => p.closed = true

theorem tracks_findGameToLeave {row : RoomRow} (hhost : KnowsHost p id)
    (hroom : p.room = some row.id) (hclosed : row.status ≠ .active → p.closed = true) :
    LeaveTracks json room (fun p found => KnowsGame id p (found.map fun game => game.1.id)) p
      (findGameToLeave .leave row) := by
  unfold findGameToLeave
  split
  · refine tracksOk_statement rfl fun _ _ _ => ?_
    refine tracksOk_statement ⟨rfl, hroom, hhost.begun, hhost.left⟩ fun answer _ hanswer => ?_
    refine tracksOk_pure ?_
    rcases answer with _ | _ | game
    · cases hanswer
    · cases hanswer
      exact ⟨⟨hhost.player, hhost.begun, hhost.left, hhost.cancelled⟩, rfl⟩
    · cases hanswer
      exact ⟨⟨hhost.player, hhost.begun, hhost.left, hhost.cancelled⟩, rfl⟩
  · rename_i hinactive
    exact tracksOk_pure ⟨hhost, hclosed hinactive⟩

/-- The room, once it is locked, with whether it is active. -/
theorem knowsHost_locked (hhost : KnowsHost p id) (row : RoomRow) :
    KnowsHost (p.note room.hostUserId (⟨.lockRoomByCode .leave room.code, .ok (some row)⟩ :
      HostAct τ)) id :=
  ⟨hhost.player, hhost.begun, hhost.left, hhost.cancelled⟩

theorem KnowsHost.committed (h : KnowsHost p id) :
    KnowsHost (p.note room.hostUserId (⟨.commit .leave, .ok ()⟩ : HostAct τ)) id :=
  ⟨h.player, Bool.or_eq_true_iff.mpr (.inl h.begun), h.left, rfl⟩

/-- The room has begun, and an active game is known with its host. -/
def KnowsResult (p : LeaveProgress τ) (leaveResult : LeaveResult) : Prop :=
  p.begun = true ∧ ∀ gameId, leaveResult.activeGameId = some gameId →
    p.game = some gameId ∧ KnowsHost p leaveResult.leavingRoomPlayerId

theorem KnowsResult.committed {leaveResult : LeaveResult} (h : KnowsResult p leaveResult) :
    KnowsResult (p.note room.hostUserId (⟨.commit .leave, .ok ()⟩ : HostAct τ)) leaveResult := by
  refine ⟨Bool.or_eq_true_iff.mpr (.inl h.1), fun gameId hactive => ?_⟩
  obtain ⟨hgame, hhost⟩ := h.2 gameId hactive
  exact ⟨hgame, hhost.committed⟩

theorem tracks_leaveOrFindGame {player : RoomPlayerRow} (hhost : KnowsHost p player.id) :
    LeaveTracks json room KnowsResult p
      (leaveOrFindGame .leave room.hostUserId room.code player) := by
  refine tracksOk_transaction (fun p leaveResult => (p.left = true → p.closed = true) ∧
    KnowsResult p leaveResult) ?_ (fun p _ h => ⟨⟨rfl, fun hleft => .inr (.inl (h.1 hleft))⟩,
      h.2.committed⟩) fun _ => rfl
  refine tracksOk_statement ⟨rfl, rfl, hhost.begun, hhost.left⟩ fun answer _ hanswer => ?_
  rcases answer with _ | _ | row
  · cases hanswer
  · cases hanswer
    exact tracksOk_throw _
  · cases hanswer
    refine (tracks_findGameToLeave (knowsHost_locked hhost row) rfl fun hinactive => ?_).bind _ ?_
    · exact Bool.or_eq_true_iff.mpr (.inr (by rw [decide_eq_false hinactive]; rfl))
    · rintro p' (_ | ⟨game, joinedHumanCount⟩) ⟨hhost', hgame⟩
      · refine tracksOk_statement ⟨rfl, hhost'.cancelled⟩ fun _ _ _ => ?_
        exact tracksOk_pure ⟨fun _ => hgame, hhost'.begun, nofun⟩
      · refine tracksOk_pure ⟨fun hleft => ?_, ?_⟩
        · rw [hhost'.left] at hleft
          cases hleft
        · refine ⟨hhost'.begun, ?_⟩
          rintro _ ⟨⟩
          exact ⟨hgame, hhost'⟩

theorem tracks_leaveAfterGame (h : HasLeft json p id) :
    LeaveTracks json room (fun p _ => p.begun = true) p
      (leaveAfterGame .leave room.hostUserId room.code) := by
  refine tracksOk_transaction (fun p _ => p.begun = true ∧ (p.closed = true ∨
    ∃ id, p.player = some id ∧ p.KnowsBankrupt json id)) ?_
    (fun p _ h => ⟨⟨rfl, fun _ => .inr h.2⟩, Bool.or_eq_true_iff.mpr (.inl h.1)⟩) fun _ => rfl
  refine tracksOk_statement ⟨rfl, rfl, h.begun, h.left⟩ fun answer _ hanswer => ?_
  rcases answer with _ | _ | row
  · cases hanswer
  · cases hanswer
    exact tracksOk_throw _
  · cases hanswer
    refine tracksOk_statement ⟨rfl, h.cancelled⟩ fun _ _ _ => tracksOk_pure ⟨h.begun, ?_⟩
    refine h.out.imp (fun hclosed => ?_) fun hbankrupt => ⟨id, h.player, hbankrupt⟩
    exact Bool.or_eq_true_iff.mpr (.inl hclosed)

/-- Where the request to leave succeeds the room does not wait. -/
theorem tracks_leaveRoom : LeaveTracks json room (fun p _ => p.begun = true) .start
    (RoomsLobbyService.leaveRoom json .leave room.hostUserId room.code) := by
  refine tracksOk_statement rfl fun answer _ hanswer => ?_
  rcases answer with _ | _ | row
  · cases hanswer
  · cases hanswer
    exact tracksOk_throw _
  · cases hanswer
    refine tracksOk_statement ⟨rfl, rfl, rfl, rfl⟩ fun answer _ hanswer => ?_
    rcases answer with _ | _ | player
    · cases hanswer
    · cases hanswer
      refine tracksOk_statement trivial fun _ existing _ => ?_
      cases existing with
      | none => exact tracksOk_throw _
      | some existing =>
        dsimp only
        split
        · exact tracksOk_pure rfl
        · exact tracksOk_throw _
    · cases hanswer
      dsimp only
      split
      · exact tracks_cancelWaitingRoom rfl rfl
      · rename_i hbegun
        refine (tracks_leaveOrFindGame ⟨rfl, ?_, rfl, rfl⟩).bind _ fun p leaveResult h => ?_
        · show (!(decide (row.hostUserId = room.hostUserId) &&
            decide (row.status = .waiting))) = true
          rw [← Bool.decide_and, decide_eq_false hbegun]
          rfl
        · cases hactive : leaveResult.activeGameId with
          | none => exact tracksOk_pure h.1
          | some gameId =>
            obtain ⟨hfound, hhost⟩ := h.2 gameId hactive
            refine (tracks_leaveGame hfound hhost).bind _ fun _ _ hleft => ?_
            exact (tracks_leaveAfterGame hleft).bind _ fun _ _ hbegun => tracksOk_pure hbegun

end Leaving

/-! ## Starting -/

section Starting

variable {τ α : Type} {json : StateCodec τ} {room : RoomRow} {p : StartProgress}

/-- What the request to start does. -/
abbrev StartTracks (room : RoomRow) (post : StartProgress → α → Prop) :
    StartProgress → RoomsTask HostRequest τ α → Prop :=
  TracksOk StartProgress.note (StartMay room) post

open RoomsGameService

theorem tracks_addBotPlayers {roomId : RoomId} {botDifficulty : BotDifficulty}
    {seatNumbers : List Nat} (hidle : p.stage = .idle) :
    StartTracks room (fun p' _ => p' = p) p (addBotPlayers .start roomId botDifficulty seatNumbers :
      RoomsTask HostRequest τ (List RoomPlayerRow)) := by
  induction seatNumbers with
  | nil => exact tracksOk_pure rfl
  | cons seatNumber seatNumbers ih =>
    refine tracksOk_statement ⟨rfl, rfl, hidle⟩ fun _ _ _ => TracksOk.bind _ ih ?_
    exact fun p' _ h => tracksOk_pure h

/-- The game that a start has committed, and its room. -/
def HasStarted (p : StartProgress) (result : StartResult) : Prop :=
  p.stage = .done result.game.id ∧ p.activeRoom = some result.room.id

theorem tracks_startGame {botDifficulty : BotDifficulty} :
    StartTracks room HasStarted .start (startGame .start room.hostUserId room.code botDifficulty :
      RoomsTask HostRequest τ StartResult) := by
  refine tracksOk_transaction (fun p result => p.stage = .created result.game.id ∧
    p.activeRoom = some result.room.id) ?_ (fun p result h => ?_) fun _ => rfl
  · refine tracksOk_statement ⟨rfl, rfl⟩ fun answer _ hanswer => ?_
    rcases answer with _ | _ | row
    · cases hanswer
    · cases hanswer
      exact tracksOk_throw _
    · cases hanswer
      dsimp only
      split
      · exact tracksOk_throw _
      · split
        · exact tracksOk_throw _
        · refine tracksOk_statement trivial fun _ host _ => ?_
          cases host with
          | none => exact tracksOk_throw _
          | some host =>
            refine tracksOk_statement trivial fun _ joinedPlayers _ => ?_
            split
            · exact tracksOk_throw _
            · refine (tracks_addBotPlayers rfl).bind _ fun p' createdBots hp => ?_
              subst hp
              refine tracksOk_statement ⟨rfl, rfl, rfl⟩ fun answer _ hanswer => ?_
              rcases answer with _ | _ | activeRoom
              · cases hanswer
              · cases hanswer
                exact tracksOk_throw _
              · cases hanswer
                refine tracksOk_ambient trivial fun ambient => ?_
                refine (tracksOk_lift _).bind _ fun p' initialState hp => ?_
                subst hp
                refine tracksOk_statement ⟨rfl, rfl, rfl⟩ fun answer game hgame => ?_
                cases answer with
                | error e => cases hgame
                | ok created =>
                  cases hgame
                  exact tracksOk_statement ⟨rfl, rfl⟩ fun _ _ _ => tracksOk_pure ⟨rfl, rfl⟩
  · refine ⟨⟨rfl, result.game.id, .inl h.1⟩, ?_, h.2⟩
    show StartProgress.committed p.stage = _
    rw [h.1]
    rfl

/-- What takes back a game whose state could not be written or whose jobs not be enqueued. -/
theorem tracks_cancelStartedGame {result : StartResult} (h : HasStarted p result) :
    StartTracks room (fun _ _ => True) p (cancelStartedGameAfterSetupFailure .start result.room.id
      result.game.id : RoomsTask HostRequest τ Unit) := by
  refine tracks_bind (fun p _ => HasStarted p result) ?_ (fun _ _ _ _ h => by cases h) ?_
  · exact tracks_handle (fun p _ => HasStarted p result) (tracks_unnoted h.1 (fun _ => rfl) h)
      (fun _ _ h => h) fun _ _ h => h
  · intro p _ h
    refine tracksOk_transaction (fun p _ => p.stage = .closing result.game.id) ?_
      (fun p _ hclosing => ⟨⟨rfl, _, .inr hclosing⟩, trivial⟩) fun _ => rfl
    refine tracksOk_statement ⟨rfl, h.1⟩ fun answer _ hanswer => ?_
    cases answer with
    | error e => cases hanswer
    | ok done =>
      exact tracksOk_statement ⟨rfl, h.2, rfl, _, rfl⟩ fun _ _ _ => tracksOk_pure rfl

/-- Where the request to start succeeds its game has been committed. -/
theorem tracks_startRoom {botDifficulty : BotDifficulty} :
    StartTracks room (fun p _ => ∃ gameId, p.stage = .done gameId) .start
      (RoomsGameService.startRoom json .start room.hostUserId room.code botDifficulty) := by
  refine tracks_startGame.bind _ fun p result hstarted => ?_
  refine TracksOk.bind (fun p _ => HasStarted p result) ?_ fun _ _ h => tracksOk_pure ⟨_, h.1⟩
  refine tracks_handle (fun p _ => HasStarted p result) ?_ (fun _ _ h _ _ => h)
    fun p _ hstarted => ?_
  · refine tracks_bind (fun p _ => HasStarted p result)
      (tracks_unnoted hstarted.1 (fun _ => rfl) hstarted) (fun _ _ h => h) fun p _ hstarted => ?_
    refine tracks_bind (fun p _ => HasStarted p result)
      (tracks_unnoted trivial (fun _ => rfl) hstarted) (fun _ _ h => h) fun p _ hstarted => ?_
    exact ⟨trivial, fun ambient => tracks_unnoted trivial (fun _ => rfl) hstarted⟩
  · exact (tracks_cancelStartedGame hstarted).bind _ fun _ _ _ => tracksOk_throw _

end Starting

/-! ## Both at once -/

section Both

variable {τ : Type}

/-- The host's two requests, at their start. -/
def leaveAndStart (json : StateCodec τ) (world : RoomsWorld HostRequest τ) (room : RoomRow)
    (botDifficulty : BotDifficulty) : Config HostRequest (RoomsWorld HostRequest τ)
      (RoomsOp HostRequest τ) (RoomsAns HostRequest τ) RoomsError Unit :=
  ⟨world, fun
    | .leave => do
      let _ ← RoomsLobbyService.leaveRoom json .leave room.hostUserId room.code
      return ()
    | .start => do
      let _ ← RoomsGameService.startRoom json .start room.hostUserId room.code botDifficulty
      return ()⟩

/-- A waiting room, the only one with its id and with its code, its host a joined player by one row,
and no transaction under way. -/
structure WaitingForHost (world : RoomsWorld HostRequest τ) (room : RoomRow)
    (player : RoomPlayerRow) : Prop where
  byId : (world.db.committed.rooms.filter fun row => row.id = room.id) = [room]
  byCode : (world.db.committed.rooms.filter fun row => row.code = room.code) = [room]
  waiting : room.status = .waiting
  byUser : world.db.committed.playersOf room.id room.hostUserId = [player]
  joined : player.status = .joined
  noGame : gamesOf world.db.committed room.id = []
  written : ∀ k, world.db.written k = []

/-- What becomes of the room: it still waits for its host, or it was cancelled and has no game, or
it has begun a game; while that is active, so is the room, and the host is still a joined player or
is bankrupt in the live state. -/
inductive HostOutcome (json : StateCodec τ) (room : RoomRow) (player : RoomPlayerRow)
    (world : RoomsWorld HostRequest τ) : Prop
  | waiting (hroom : roomStatuses world.db.committed room.id = [.waiting])
      (hgames : gamesOf world.db.committed room.id = [])
      (hhost : player ∈ world.db.committed.roomPlayers)
  | cancelled (hroom : roomStatuses world.db.committed room.id = [.cancelled])
      (hgames : gamesOf world.db.committed room.id = [])
  | started (gameId : GameId) (status : GameStatus)
      (hgames : gamesOf world.db.committed room.id = [(gameId, status)])
      (hactive : status = .active → roomStatuses world.db.committed room.id = [.active] ∧
        (player ∈ world.db.committed.roomPlayers ∨
          (world.stores gameId).redis.any (bankruptIn json player.id) = true))

variable {json : StateCodec τ} {world : RoomsWorld HostRequest τ} {room : RoomRow}
  {player : RoomPlayerRow}

theorem WaitingForHost.isHost (h : WaitingForHost world room player) : IsHost room player := by
  have hmem : player ∈ world.db.committed.playersOf room.id room.hostUserId := by
    rw [h.byUser]
    exact List.mem_singleton_self _
  obtain ⟨hroom, huser⟩ := Bool.and_eq_true_iff.mp (List.mem_filter.mp hmem).2
  exact ⟨of_decide_eq_true hroom, of_decide_eq_true huser, h.joined⟩

theorem WaitingForHost.hostInv (h : WaitingForHost world room player) :
    HostInv json room player world .start .start := by
  have hstanding : roomStanding room.id world.db.committed = ([.waiting], []) := by
    refine Prod.ext ?_ h.noGame
    show (world.db.committed.rooms.filter fun row => row.id = room.id).map RoomRow.status = _
    rw [h.byId, List.map_singleton, h.waiting]
  have hplayer : player ∈ world.db.committed.roomPlayers := by
    have hmem : player ∈ world.db.committed.playersOf room.id room.hostUserId := by
      rw [h.byUser]
      exact List.mem_singleton_self _
    exact (List.mem_filter.mp hmem).1
  have hnone : ∀ k, ∀ write ∈ world.db.written k, False := by
    intro k write hwrite
    rw [h.written k] at hwrite
    cases hwrite
  refine ⟨⟨fun row hrow hcode => ?_, fun row hrow hroom huser => ?_⟩, ?_, ?_, ?_, ?_⟩
  · have hmem : row ∈ world.db.committed.rooms.filter fun row => row.code = room.code :=
      List.mem_filter.mpr ⟨hrow, decide_eq_true hcode⟩
    rw [h.byCode] at hmem
    rw [List.mem_singleton.mp hmem]
    exact ⟨rfl, rfl⟩
  · have hmem : row ∈ world.db.committed.playersOf room.id room.hostUserId :=
      List.mem_filter.mpr ⟨hrow, Bool.and_eq_true_iff.mpr
        ⟨decide_eq_true hroom, decide_eq_true huser⟩⟩
    rw [h.byUser] at hmem
    rw [List.mem_singleton.mp hmem]
  · rw [hstanding]
    exact .waiting
  · exact fun k write hwrite => (hnone k write hwrite).elim
  · refine ⟨h.isHost, nofun, nofun, nofun, nofun, nofun, nofun,
      fun write hwrite => (hnone _ _ hwrite).elim, fun hwrite => (hnone _ _ hwrite).elim, nofun,
      fun _ => ⟨h.written _, hplayer⟩, .inl hplayer⟩
  · exact ⟨nofun, nofun, fun write hwrite => (hnone _ _ hwrite).elim,
      fun write hwrite => (hnone _ _ hwrite).elim⟩

theorem HostInv.outcome {p : LeaveProgress τ} {q : StartProgress}
    (h : HostInv json room player world p q) : HostOutcome json room player world := by
  have hfits := h.fits
  have haccounted := h.leave.accounted
  have hgame := h.leave.game
  generalize hs : roomStanding room.id world.db.committed = s at hfits haccounted hgame
  have hrooms : roomStatuses world.db.committed room.id = s.1 := congrArg Prod.fst hs
  have hgames : gamesOf world.db.committed room.id = s.2 := congrArg Prod.snd hs
  cases hfits with
  | waiting =>
    refine .waiting hrooms hgames ?_
    rcases haccounted with hthere | hclosed | ⟨gameId, _, hfound, _⟩
    · exact hthere
    · exact absurd rfl hclosed.1
    · exact absurd rfl (hgame gameId hfound).not_waiting
  | cancelled => exact .cancelled hrooms hgames
  | @begun gameId status _ hroom hactive =>
    refine .started gameId status hgames fun hisActive => ?_
    refine ⟨by rw [hrooms, hactive hisActive], ?_⟩
    rcases haccounted with hthere | hclosed | ⟨found, text, hfound, htext, hbankrupt⟩
    · exact .inl hthere
    · exact absurd hisActive (hclosed.2 _ (List.mem_singleton_self _))
    · have hid : gameId = found := (hgame found hfound).unique (List.mem_singleton_self _)
      subst hid
      exact .inr (h.leave.live gameId text hfound htext hbankrupt)

/-- A request that has succeeded has ended the waiting of the room. -/
theorem HostInv.not_waiting {p : LeaveProgress τ} {q : StartProgress}
    (h : HostInv json room player world p q)
    (hdone : p.begun = true ∨ ∃ gameId, q.stage = .done gameId) :
    roomStatuses world.db.committed room.id ≠ [.waiting] := by
  rcases hdone with hbegun | ⟨gameId, hdone⟩
  · exact h.leave.begun hbegun
  · have hstage := h.start.stage
    rw [hdone] at hstage
    exact hstage.2.not_waiting

/-- What the two requests have done. -/
def HostRecord (τ : Type) : HostRequest → Type
  | .leave => LeaveProgress τ
  | .start => StartProgress

def hostNote (room : RoomRow) : ∀ k, HostRecord τ k → HostAct τ → HostRecord τ k
  | .leave => LeaveProgress.note room.hostUserId
  | .start => StartProgress.note

def HostMay (json : StateCodec τ) (room : RoomRow) : ∀ k, HostRecord τ k → HostOp τ → Prop
  | .leave => LeaveMay json room
  | .start => StartMay room

def freshRecord : ∀ k, HostRecord τ k
  | .leave => .start
  | .start => .start

/-- What is known of a request that has succeeded. -/
def HostDone : ∀ k, HostRecord τ k → Except RoomsError Unit → Prop
  | .leave => fun p result => ∀ a, result = .ok a → p.begun = true
  | .start => fun q result => ∀ a, result = .ok a → ∃ gameId, q.stage = .done gameId

theorem tracks_leaveAndStart (botDifficulty : BotDifficulty) (k : HostRequest) :
    Tracks (hostNote room k) (HostMay json room k) (HostDone k) (freshRecord k)
      ((leaveAndStart json world room botDifficulty).procs k) := by
  cases k with
  | leave => exact tracks_leaveRoom.bind _ fun _ _ h => tracksOk_pure h
  | start => exact tracks_startRoom.bind _ fun _ _ h => tracksOk_pure h

variable [DecidableEq τ]

theorem hostInv_step (json : StateCodec τ) (room : RoomRow) (world : RoomsWorld HostRequest τ)
    (r : ∀ k, HostRecord τ k) (k : HostRequest) (o : HostOp τ) (g : RoomsAmbient)
    (h : HostInv json room player world (r .leave) (r .start)) (hmay : HostMay json room k (r k) o)
    (hspares : sparesHost json player.id world o = true) :
    HostInv json room player (roomsExec world o g).1
      (Function.update r k (hostNote room k (r k) ⟨o, (roomsExec world o g).2⟩) .leave)
      (Function.update r k (hostNote room k (r k) ⟨o, (roomsExec world o g).2⟩) .start) := by
  cases k with
  | leave =>
    exact h.leave_step g hmay hspares
  | start =>
    exact h.start_step g hmay hspares

/-- For every interleaving of the host's two requests whose steps spare the host; the room waits
only until one of them has succeeded. -/
theorem hostLeaves_accounted {botDifficulty : BotDifficulty}
    {sched : List (HostRequest × RoomsAmbient)} {acts : List (HostRequest × HostAct τ)}
    {c' : Config HostRequest (RoomsWorld HostRequest τ) (RoomsOp HostRequest τ)
      (RoomsAns HostRequest τ) RoomsError Unit}
    (hroom : WaitingForHost world room player)
    (h : Trace.Run (AskingSteps roomsExec (sparesHost json player.id))
      (leaveAndStart json world room botDifficulty) sched acts c') :
    HostOutcome json room player c'.world ∧
      ∀ k, c'.procs k = .ret () → roomStatuses c'.world.db.committed room.id ≠ [.waiting] := by
  obtain ⟨r, hinv, htracks⟩ := tracked_invariant
    (fun world r => HostInv json room player world (r .leave) (r .start)) (hostInv_step json room)
    h (tracks_leaveAndStart botDifficulty) hroom.hostInv
  refine ⟨hinv.outcome, fun k hreturned => hinv.not_waiting ?_⟩
  have hdone := htracks k
  rw [hreturned] at hdone
  cases k with
  | leave => exact .inl (hdone () rfl)
  | start => exact .inr (hdone () rfl)

end Both

/-! ## A host who is lost -/

section Runs

def hostRoom : RoomRow := ⟨⟨1⟩, "roomcode", ⟨1⟩, .waiting, 60, 0, none⟩

def hostPlayer : RoomPlayerRow := ⟨⟨100⟩, ⟨1⟩, some ⟨1⟩, .human, none, 1, .joined⟩

/-- A waiting room with its host and another player. -/
def hostAndGuest : RoomsWorld HostRequest GameEngineState where
  db :=
    { committed :=
        { rooms := [hostRoom]
          roomPlayers := [hostPlayer, ⟨⟨101⟩, ⟨1⟩, some ⟨2⟩, .human, none, 2, .joined⟩]
          games := [] }
      written := fun _ => []
      holder := fun _ => none }
  stores _ := { redis := none, snapshots := [], eventLog := [] }

theorem hostAndGuest_waiting : WaitingForHost hostAndGuest hostRoom hostPlayer :=
  ⟨by decide, by decide, rfl, by decide, rfl, by decide, fun _ => rfl⟩

def hostTurns (order : List HostRequest) : List (HostRequest × RoomsAmbient) :=
  order.zipIdx.map fun turn => (turn.1, roomsAtFirst turn.2)

/-- The leaving host has read the waiting room; the whole start comes before the cancellation. -/
def cancelsStarted : List HostRequest :=
  List.replicate 2 .leave ++ List.replicate 14 .start ++ List.replicate 3 .leave

/-- The leaving host goes bankrupt after the start has committed and before it writes the live
state. -/
def overwritesBankrupt : List HostRequest :=
  List.replicate 10 .start ++ List.replicate 14 .leave ++ List.replicate 4 .start ++
    List.replicate 3 .leave

def hasReturned {Op : Type} {Ans : Op → Type} {ε : Type} : Proc Op Ans ε Unit → Bool
  | .ret _ => true
  | _ => false

theorem hasReturned_iff {Op : Type} {Ans : Op → Type} {ε : Type} {task : Proc Op Ans ε Unit} :
    hasReturned task = true ↔ task = .ret () := by
  cases task with
  | ret a => exact ⟨fun _ => rfl, fun _ => rfl⟩
  | fail e => exact ⟨nofun, nofun⟩
  | op o next => exact ⟨nofun, nofun⟩

def haveReturned {Op : Type} {Ans : Op → Type} {ε : Type}
    (procs : HostRequest → Proc Op Ans ε Unit) : Bool :=
  hasReturned (procs .leave) && hasReturned (procs .start)

theorem haveReturned_iff {Op : Type} {Ans : Op → Type} {ε : Type}
    {procs : HostRequest → Proc Op Ans ε Unit} :
    haveReturned procs = true ↔ ∀ k, procs k = .ret () := by
  unfold haveReturned
  rw [Bool.and_eq_true, hasReturned_iff, hasReturned_iff]
  constructor
  · rintro ⟨hleave, hstart⟩ k
    cases k with
    | leave => exact hleave
    | start => exact hstart
  · exact fun h => ⟨h .leave, h .start⟩

def hostStatuses (tables : RoomTables) : List RoomPlayerStatus :=
  (tables.roomPlayers.filter fun row => row.id = hostPlayer.id).map RoomPlayerRow.status

/-- The game is active, and the host is marked left and is not bankrupt in its live state. -/
def losesHost (gameId : GameId) (world : RoomsWorld HostRequest GameEngineState) : Bool :=
  gamesOf world.db.committed hostRoom.id = [(gameId, .active)] &&
    (hostStatuses world.db.committed = [.left] &&
      !(world.stores gameId).redis.any (bankruptIn plainTexts hostPlayer.id))

theorem losesHost_iff {gameId : GameId} {world : RoomsWorld HostRequest GameEngineState} :
    losesHost gameId world = true ↔ gamesOf world.db.committed hostRoom.id = [(gameId, .active)] ∧
      hostStatuses world.db.committed = [.left] ∧
        (world.stores gameId).redis.any (bankruptIn plainTexts hostPlayer.id) = false := by
  unfold losesHost
  simp only [Bool.and_eq_true, decide_eq_true_eq, Bool.not_eq_true']

theorem not_outcome_of_losesHost {gameId : GameId} {world : RoomsWorld HostRequest GameEngineState}
    (h : losesHost gameId world = true) : ¬ HostOutcome plainTexts hostRoom hostPlayer world := by
  obtain ⟨hgames, hleft, halive⟩ := losesHost_iff.mp h
  intro houtcome
  cases houtcome with
  | waiting _ hnone => cases hnone.symm.trans hgames
  | cancelled _ hnone => cases hnone.symm.trans hgames
  | started id status hbegun hactive =>
    cases hbegun.symm.trans hgames
    rcases (hactive rfl).2 with hthere | hbankrupt
    · have hmem : RoomPlayerStatus.joined ∈ hostStatuses world.db.committed :=
        List.mem_map.mpr ⟨hostPlayer, List.mem_filter.mpr ⟨hthere, decide_eq_true rfl⟩, rfl⟩
      rw [hleft] at hmem
      cases List.mem_singleton.mp hmem
    · cases halive.symm.trans hbankrupt

/-- In this order both requests succeed, and the host is marked left in the active game without
being bankrupt in it. -/
def IsLostBy (order : List HostRequest) (gameId : GameId) : Prop :=
  ∃ acts c', Interleaved roomsExec (leaveAndStart plainTexts hostAndGuest hostRoom .normal)
      (hostTurns order) acts c' ∧ (∀ k, c'.procs k = .ret ()) ∧
    gamesOf c'.world.db.committed hostRoom.id = [(gameId, .active)] ∧
    hostStatuses c'.world.db.committed = [.left] ∧
    ¬ HostOutcome plainTexts hostRoom hostPlayer c'.world

theorem isLostBy_of_played {order : List HostRequest} {gameId : GameId}
    (h : (Process.play roomsExec (leaveAndStart plainTexts hostAndGuest hostRoom .normal)
      (hostTurns order)).any
        (fun last => losesHost gameId last.1.world && haveReturned last.1.procs) = true) :
    IsLostBy order gameId := by
  obtain ⟨⟨c', acts⟩, hplay, htest⟩ := (Option.any_eq_true _ _).mp h
  obtain ⟨hloses, hended⟩ := Bool.and_eq_true_iff.mp htest
  obtain ⟨hgames, hleft, _⟩ := losesHost_iff.mp hloses
  exact ⟨acts, c', play_interleaved hplay, haveReturned_iff.mp hended, hgames, hleft,
    not_outcome_of_losesHost hloses⟩

theorem hostAndGuest_lost : IsLostBy cancelsStarted ⟨9⟩ ∧ IsLostBy overwritesBankrupt ⟨7⟩ :=
  ⟨isLostBy_of_played (by decide +kernel), isLostBy_of_played (by decide +kernel)⟩

/-- The start has written the live state when the host leaves. -/
def leavesStarted : List HostRequest :=
  List.replicate 10 .start ++ List.replicate 2 .leave ++ [.start] ++ List.replicate 4 .leave ++
    [.start] ++ List.replicate 9 .leave ++ List.replicate 2 .start

/-- The host leaves the game that has been started, and is bankrupt in it. -/
theorem hostAndGuest_leaves : ∃ acts c',
    Trace.Run (AskingSteps roomsExec (sparesHost plainTexts hostPlayer.id))
      (leaveAndStart plainTexts hostAndGuest hostRoom .normal) (hostTurns leavesStarted) acts c' ∧
    gamesOf c'.world.db.committed hostRoom.id = [(⟨7⟩, .active)] ∧
    hostStatuses c'.world.db.committed = [.left] ∧
    HostOutcome plainTexts hostRoom hostPlayer c'.world ∧
    ∀ k, c'.procs k = .ret () ∧ roomStatuses c'.world.db.committed hostRoom.id ≠ [.waiting] := by
  obtain ⟨⟨c', acts⟩, hplay, htest⟩ := (Option.any_eq_true _ _).mp (by decide +kernel :
    (playAsking roomsExec (sparesHost plainTexts hostPlayer.id)
      (leaveAndStart plainTexts hostAndGuest hostRoom .normal) (hostTurns leavesStarted)).any
        (fun last => (gamesOf last.1.world.db.committed hostRoom.id = [(⟨7⟩, .active)] &&
          hostStatuses last.1.world.db.committed = [.left]) && haveReturned last.1.procs) = true)
  obtain ⟨htables, hended⟩ := Bool.and_eq_true_iff.mp htest
  obtain ⟨hgames, hleft⟩ := Bool.and_eq_true_iff.mp htables
  have hrun := playAsking_run hplay
  have hreturned := haveReturned_iff.mp hended
  obtain ⟨houtcome, hwaits⟩ := hostLeaves_accounted hostAndGuest_waiting hrun
  exact ⟨acts, c', hrun, of_decide_eq_true hgames, of_decide_eq_true hleft, houtcome,
    fun k => ⟨hreturned k, hwaits k (hreturned k)⟩⟩

end Runs

end Rules
end LivePoly
