import LivePoly.Lib.Tracked
import LivePoly.Rules.Leaving
import LivePoly.Rules.Rooms
import LivePoly.Rules.Standing

/-!
# Rules.HostRequests

A host leaves a room and starts it at the same time. `LeaveProgress` and `StartProgress` are what
the two requests have seen and done, `LeaveMay` and `StartMay` what each of them asks for after
that, and `HostInv` is what every operation keeps as long as none goes wrong (`sparesHost`): a room
that is active still has its host, or the host is known to be bankrupt, or no game is active.
-/

namespace LivePoly
namespace Rules

open Engine Service Process Process.Proc Sessions

inductive HostRequest where
  | leave | start
  deriving DecidableEq

abbrev HostOp (τ : Type) : Type := RoomsOp HostRequest τ

abbrev HostAct (τ : Type) : Type := Act (RoomsOp HostRequest τ) (RoomsAns HostRequest τ)

/-! ## What the requests have done -/

/-- What the request to leave knows. -/
structure LeaveProgress (τ : Type) where
  /-- The room it has read. -/
  room : Option RoomId
  /-- The row of the host in it. -/
  player : Option RoomPlayerId
  /-- The room does not wait for the host. -/
  begun : Bool
  /-- No game is active, or will be. -/
  closed : Bool
  /-- The active game it has found, and the text that is known to be its live state. -/
  game : Option GameId
  text : Option τ
  /-- It has asked for the host to be marked left, and its transaction has cancelled the room. -/
  left : Bool
  cancelled : Bool

namespace LeaveProgress

variable {τ : Type}

def start : LeaveProgress τ where
  room := none
  player := none
  begun := false
  closed := false
  game := none
  text := none
  left := false
  cancelled := false

def note (userId : UserId) (p : LeaveProgress τ) : HostAct τ → LeaveProgress τ
  | ⟨.findRoomByCode _, .ok (some row)⟩ =>
    { p with
      room := some row.id
      begun := p.begun || !(row.hostUserId = userId && row.status = .waiting) }
  | ⟨.findJoinedPlayer _ _ _, .ok none⟩ => { p with begun := true }
  | ⟨.findJoinedPlayer _ _ _, .ok (some row)⟩ => { p with player := some row.id }
  | ⟨.lockRoomByCode _ _, .ok (some row)⟩ =>
    { p with room := some row.id, closed := p.closed || !(row.status = .active) }
  | ⟨.findActiveGameByRoomId _ _, .ok none⟩ => { p with closed := true }
  | ⟨.findActiveGameByRoomId _ _, .ok (some game)⟩ =>
    { p with game := some game.id, text := none }
  | ⟨.store _ o, answer⟩ =>
    { p with
      text := noteText p.text ⟨o, answer⟩
      closed := p.closed || isFinalized (⟨o, answer⟩ : Act (Op τ) (Ans τ)) }
  | ⟨.leaveRoom _ _ _, _⟩ => { p with left := true }
  | ⟨.cancelRoom _ _ _, .ok none⟩ => { p with closed := true }
  | ⟨.cancelRoom _ _ _, .ok (some _)⟩ => { p with cancelled := true }
  | ⟨.commit _, .ok _⟩ => { p with begun := p.begun || p.left, cancelled := false }
  | ⟨.rollback _, _⟩ => { p with cancelled := false }
  | _ => p

/-- The player is known to be bankrupt in the game. -/
def KnowsBankrupt (json : StateCodec τ) (id : RoomPlayerId) (p : LeaveProgress τ) : Prop :=
  ∃ gameId text, p.game = some gameId ∧ p.text = some text ∧ bankruptIn json id text = true

end LeaveProgress

/-- How far the transactions of a start are. -/
inductive StartStage where
  | idle
  | opened
  | created (gameId : GameId)
  | done (gameId : GameId)
  | closing (gameId : GameId)

structure StartProgress where
  /-- The room it has locked, and the one it has started. -/
  room : Option RoomId
  activeRoom : Option RoomId
  stage : StartStage

namespace StartProgress

def start : StartProgress where
  room := none
  activeRoom := none
  stage := .idle

/-- What a commit makes of the stage. -/
def committed : StartStage → StartStage
  | .created gameId | .closing gameId => .done gameId
  | stage => stage

def rolledBack : StartStage → StartStage
  | .closing gameId => .done gameId
  | .opened | .created _ => .idle
  | stage => stage

def note {τ : Type} (p : StartProgress) : HostAct τ → StartProgress
  | ⟨.lockRoomByCode _ _, .ok (some row)⟩ => { p with room := some row.id }
  | ⟨.startRoom _ _, .ok (some row)⟩ => { p with activeRoom := some row.id, stage := .opened }
  | ⟨.createGame _ _ _ _, .ok row⟩ => { p with stage := .created row.id }
  | ⟨.cancelGame _ gameId, .ok _⟩ => { p with stage := .closing gameId }
  | ⟨.commit _, .ok _⟩ => { p with stage := committed p.stage }
  | ⟨.rollback _, _⟩ => { p with stage := rolledBack p.stage }
  | _ => p

end StartProgress

section

variable {τ : Type} (json : StateCodec τ) (room : RoomRow)

/-- What the request to leave asks for after what it has done. -/
def LeaveMay (p : LeaveProgress τ) : HostOp τ → Prop
  | .findRoomByCode code => code = room.code
  | .findJoinedPlayer executor roomId userId =>
    executor = none ∧ p.room = some roomId ∧ userId = room.hostUserId ∧ p.left = false
  | .findPlayer _ _ | .ambient => True
  | .lockRoomByCode tx code =>
    tx = .leave ∧ code = room.code ∧ p.begun = true ∧ p.left = false
  | .countJoinedHumanPlayers tx _ | .rollback tx => tx = .leave
  | .findActiveGameByRoomId executor roomId =>
    executor = some .leave ∧ p.room = some roomId ∧ p.begun = true ∧ p.left = false
  | .leaveRoom tx _ _ => tx = .leave ∧ p.cancelled = false
  | .cancelRoom tx roomId expected =>
    tx = .leave ∧ p.room = some roomId ∧ expected = .waiting ∧ p.left = true ∧
      p.cancelled = false
  | .commit tx =>
    tx = .leave ∧ (p.left = true → p.cancelled = true ∨ p.closed = true ∨
      ∃ id, p.player = some id ∧ p.KnowsBankrupt json id)
  | .store gameId _ => p.game = some gameId ∧ p.left = false
  | _ => False

/-- What the request to start asks for after what it has done. -/
def StartMay (p : StartProgress) : HostOp τ → Prop
  | .lockRoomByCode tx code => tx = .start ∧ code = room.code
  | .findJoinedPlayer _ _ _ | .ambient | .enqueueTurnTimer _ _ | .enqueueGameExpiry _ _
  | .listJoinedPlayers _ _ => True
  | .insertRoomPlayer tx _ userId _ _ _ => tx = .start ∧ userId = none ∧ p.stage = .idle
  | .startRoom tx roomId => tx = .start ∧ p.room = some roomId ∧ p.stage = .idle
  | .createGame tx roomId _ _ => tx = .start ∧ p.room = some roomId ∧ p.stage = .opened
  | .createStartSnapshot tx gameId _ => tx = .start ∧ p.stage = .created gameId
  | .commit tx =>
    tx = .start ∧ ∃ gameId, p.stage = .created gameId ∨ p.stage = .closing gameId
  | .rollback tx => tx = .start
  | .cancelGame tx gameId => tx = .start ∧ p.stage = .done gameId
  | .cancelRoom tx roomId expected =>
    tx = .start ∧ p.activeRoom = some roomId ∧ expected = .active ∧
      ∃ gameId, p.stage = .closing gameId
  | .setState gameId _ | .deleteState gameId => p.stage = .done gameId
  | _ => False

/-- The host's waiting room is cancelled only while it has not become active, and the live state is
written or deleted only while the host is not bankrupt in it. -/
def sparesHost (playerId : RoomPlayerId) (world : RoomsWorld HostRequest τ) : HostOp τ → Bool
  | .cancelRoom _ roomId .waiting =>
    !world.db.committed.rooms.any fun row => row.id = roomId && row.status = .active
  | .setState gameId _ | .deleteState gameId =>
    !(world.stores gameId).redis.any (bankruptIn json playerId)
  | _ => true

end

/-! ## The invariant -/

/-- The rows of the room and of its host are the only ones with its code and its host's id. -/
structure Identified (room : RoomRow) (player : RoomPlayerRow) (tables : RoomTables) : Prop where
  codes : ∀ row ∈ tables.rooms, row.code = room.code →
    row.id = room.id ∧ row.hostUserId = room.hostUserId
  hosts : ∀ row ∈ tables.roomPlayers, row.roomId = room.id →
    row.userId = some room.hostUserId → row.id = player.id

/-- A write that adds no room and no user. -/
def addsNobody : RoomWrite → Bool
  | .addRoom _ => false
  | .addPlayer row => row.userId = none
  | _ => true

/-- The locks under which a room changes its status. -/
def statusLocks : RoomWrite → List RoomLock
  | .startRoom roomId _ | .cancelRoom roomId _ => [.room roomId]
  | _ => []

/-- What is written, and what holds of the room, at each stage of a start. -/
def AtStage (roomId : RoomId) (db : RoomsDatabase HostRequest) : StartStage → Prop
  | .idle => ∀ write ∈ db.written .start, isOfPlayers write = true
  | .opened => db.holder (.room roomId) = some .start ∧
    roomStanding roomId db.committed = ([.waiting], []) ∧
    roomStanding roomId (db.view RoomWrite.apply .start) = ([.active], [])
  | .created gameId => db.holder (.room roomId) = some .start ∧
    roomStanding roomId db.committed = ([.waiting], []) ∧
    roomStanding roomId (db.view RoomWrite.apply .start) = ([.active], [(gameId, .active)])
  | .done gameId => db.written .start = [] ∧ HasGame gameId (roomStanding roomId db.committed)
  | .closing gameId => (∀ write ∈ db.written .start, isClosing roomId gameId write = true) ∧
    HasGame gameId (roomStanding roomId db.committed) ∧
    (RoomWrite.cancelGame gameId ∈ db.written .start ∨ IsOver (roomStanding roomId db.committed))

section Invariant

variable {τ : Type}

structure StartInv (room : RoomRow) (db : RoomsDatabase HostRequest) (p : StartProgress) :
    Prop where
  roomLocked : ∀ roomId, p.room = some roomId → roomId = room.id
  roomStarted : ∀ roomId, p.activeRoom = some roomId → roomId = room.id
  writes : ∀ write ∈ db.written .start, addsNobody write = true ∧ ∀ id, write ≠ .markLeft id
  stage : AtStage room.id db p.stage

/-- The row of a host who has joined the room. -/
def IsHost (room : RoomRow) (player : RoomPlayerRow) : Prop :=
  player.roomId = room.id ∧ player.userId = some room.hostUserId ∧ player.status = .joined

structure LeaveInv (json : StateCodec τ) (room : RoomRow) (player : RoomPlayerRow)
    (world : RoomsWorld HostRequest τ) (p : LeaveProgress τ) : Prop where
  isHost : IsHost room player
  roomRead : ∀ roomId, p.room = some roomId → roomId = room.id
  playerRead : ∀ id, p.player = some id → id = player.id
  begun : p.begun = true → (roomStanding room.id world.db.committed).1 ≠ [.waiting]
  closed : p.closed = true → IsOver (roomStanding room.id world.db.committed)
  game : ∀ gameId, p.game = some gameId → HasGame gameId (roomStanding room.id world.db.committed)
  live : ∀ gameId text, p.game = some gameId → p.text = some text →
    bankruptIn json player.id text = true →
      (world.stores gameId).redis.any (bankruptIn json player.id) = true
  writes : ∀ write ∈ world.db.written .leave, (∃ id, write = .markLeft id) ∨
    write = .cancelRoom room.id .waiting ∧ p.cancelled = true
  cancelling : RoomWrite.cancelRoom room.id .waiting ∈ world.db.written .leave →
    roomStanding room.id world.db.committed = ([.waiting], [])
  cancelled : p.cancelled = true → RoomWrite.cancelRoom room.id .waiting ∈ world.db.written .leave
  clean : p.left = false → world.db.written .leave = [] ∧ player ∈ world.db.committed.roomPlayers
  accounted : player ∈ world.db.committed.roomPlayers ∨
    IsOver (roomStanding room.id world.db.committed) ∨ p.KnowsBankrupt json player.id

structure HostInv (json : StateCodec τ) (room : RoomRow) (player : RoomPlayerRow)
    (world : RoomsWorld HostRequest τ) (p : LeaveProgress τ) (q : StartProgress) : Prop where
  identified : Identified room player world.db.committed
  fits : RoomFits (roomStanding room.id world.db.committed)
  guarded : world.db.Guarded statusLocks
  leave : LeaveInv json room player world p
  start : StartInv room world.db q

/-! ## What the steps need -/

section Tables

variable {tables tables' : RoomTables} {room : RoomRow} {player : RoomPlayerRow}
  {write : RoomWrite} {writes : List RoomWrite}

theorem Identified.apply (h : Identified room player tables) (hnone : addsNobody write = true) :
    Identified room player (write.apply tables) := by
  cases write with
  | addRoom row => cases hnone
  | addPlayer row =>
    have hnone : row.userId = none := of_decide_eq_true hnone
    rw [RoomWrite.apply]
    split
    · exact h
    · refine ⟨h.codes, fun other hother hroom huser => ?_⟩
      rcases List.mem_append.mp hother with hother | hother
      · exact h.hosts other hother hroom huser
      · rw [List.mem_singleton.mp hother, hnone] at huser
        cases huser
  | addGame row =>
    rw [RoomWrite.apply]
    split
    · exact h
    · exact ⟨h.codes, h.hosts⟩
  | markLeft id =>
    refine ⟨h.codes, fun other hother => ?_⟩
    obtain ⟨old, hold, rfl⟩ := List.mem_map.mp hother
    split
    · exact h.hosts old hold
    · exact h.hosts old hold
  | startRoom roomId startedAt =>
    refine ⟨fun other hother => ?_, h.hosts⟩
    obtain ⟨old, hold, rfl⟩ := List.mem_map.mp hother
    split
    · exact h.codes old hold
    · exact h.codes old hold
  | cancelRoom roomId expected =>
    refine ⟨fun other hother => ?_, h.hosts⟩
    obtain ⟨old, hold, rfl⟩ := List.mem_map.mp hother
    split
    · exact h.codes old hold
    · exact h.codes old hold
  | addStartSnapshot | cancelGame => exact ⟨h.codes, h.hosts⟩

theorem Identified.applyAll (h : Identified room player tables)
    (hnone : ∀ write ∈ writes, addsNobody write = true) :
    Identified room player (applyAll RoomWrite.apply writes tables) := by
  induction writes generalizing tables with
  | nil => exact h
  | cons write writes ih =>
    rw [List.forall_mem_cons] at hnone
    exact ih (h.apply hnone.1) hnone.2

theorem Identified.finishGame (h : Identified room player tables) (gameId : GameId) :
    Identified room player (tables.finishGame gameId) := by
  refine ⟨fun other hother => ?_, h.hosts⟩
  obtain ⟨old, hold, rfl⟩ := List.mem_map.mp hother
  split
  · exact h.codes old hold
  · exact h.codes old hold

theorem mem_roomPlayers_unmarked (hkept : ∀ id, write ≠ .markLeft id)
    (h : player ∈ tables.roomPlayers) : player ∈ (write.apply tables).roomPlayers := by
  cases write with
  | markLeft id => exact absurd rfl (hkept id)
  | addRoom row | addGame row =>
    rw [RoomWrite.apply]
    split
    · exact h
    · exact h
  | addPlayer row =>
    rw [RoomWrite.apply]
    split
    · exact h
    · exact List.mem_append_left _ h
  | addStartSnapshot | startRoom | cancelRoom | cancelGame => exact h

theorem mem_roomPlayers_kept (hkept : ∀ write ∈ writes, ∀ id, write ≠ .markLeft id)
    (h : player ∈ tables.roomPlayers) :
    player ∈ (applyAll RoomWrite.apply writes tables).roomPlayers := by
  induction writes generalizing tables with
  | nil => exact h
  | cons write writes ih =>
    rw [List.forall_mem_cons] at hkept
    exact ih hkept.2 (mem_roomPlayers_unmarked hkept.1 h)

theorem IsHost.mem_joinedPlayersOf (h : IsHost room player) (hmem : player ∈ tables.roomPlayers) :
    player ∈ tables.joinedPlayersOf room.id room.hostUserId := by
  obtain ⟨hroom, huser, hjoined⟩ := h
  refine List.mem_filter.mpr ⟨List.mem_filter.mpr ⟨hmem, ?_⟩, decide_eq_true hjoined⟩
  exact Bool.and_eq_true_iff.mpr ⟨decide_eq_true hroom, decide_eq_true huser⟩

theorem status_mem {row : RoomRow} (hrow : row ∈ tables.rooms) {roomId : RoomId}
    (hid : row.id = roomId) : row.status ∈ (roomStanding roomId tables).1 :=
  List.mem_map_of_mem (List.mem_filter.mpr ⟨hrow, decide_eq_true hid⟩)

theorem game_mem {game : GameRow} (hgame : game ∈ tables.games) {roomId : RoomId}
    (hroom : game.roomId = roomId) : (game.id, game.status) ∈ (roomStanding roomId tables).2 :=
  List.mem_map_of_mem (f := fun row : GameRow => (row.id, row.status))
    (List.mem_filter.mpr ⟨hgame, decide_eq_true hroom⟩)

theorem find_status {roomId : RoomId} {status : RoomStatus}
    (hmem : status ∈ (roomStanding roomId tables).1) :
    (tables.rooms.find? fun row => row.id = roomId && row.status = status).isSome = true := by
  obtain ⟨row, hrow, rfl⟩ := List.mem_map.mp hmem
  obtain ⟨hrow, hid⟩ := List.mem_filter.mp hrow
  exact List.find?_isSome.mpr ⟨row, hrow, Bool.and_eq_true_iff.mpr ⟨hid, decide_eq_true rfl⟩⟩

theorem find_eq_some {roomId : RoomId} {status : RoomStatus} {row : RoomRow}
    (h : (tables.rooms.find? fun row => row.id = roomId && row.status = status) = some row) :
    row.id = roomId ∧ status ∈ (roomStanding roomId tables).1 := by
  have hboth := List.find?_some h
  simp only [Bool.and_eq_true, decide_eq_true_eq] at hboth
  obtain ⟨hid, rfl⟩ := hboth
  exact ⟨hid, status_mem (List.mem_of_find?_eq_some h) hid⟩

theorem RoomFits.status {s : Standing} (h : RoomFits s) {status : RoomStatus}
    (hmem : status ∈ s.1) :
    s.1 = [status] := by
  cases h with
  | waiting | cancelled | begun => rw [List.mem_singleton.mp hmem]

theorem RoomFits.eq_waiting {s : Standing} (h : RoomFits s) (hwaiting : s.1 = [.waiting]) :
    s = ([.waiting], []) := by
  cases h with
  | waiting => rfl
  | cancelled => cases hwaiting
  | begun gameId hroom => exact absurd (List.head_eq_of_cons_eq hwaiting) hroom

theorem RoomFits.hasGame {s : Standing} (h : RoomFits s) {game : GameId × GameStatus}
    (hmem : game ∈ s.2) : HasGame game.1 s := by
  cases h with
  | waiting | cancelled => cases hmem
  | begun gameId hroom =>
    rw [List.mem_singleton.mp hmem]
    exact ⟨_, _, rfl, hroom⟩

end Tables

section Worlds

variable {κ τ : Type} (world : RoomsWorld κ τ)

theorem read_cases {α : Type} (g : RoomsAmbient) (rows : α) :
    world.read g rows = (world, .error .failed) ∨ world.read g rows = (world, .ok rows) := by
  unfold RoomsWorld.read
  split
  · exact .inl rfl
  · exact .inr rfl

theorem limitOne_mem {α : Type} {pick : Nat} {rows : List α} {row : α}
    (h : limitOne pick rows = some row) : row ∈ rows :=
  List.mem_of_getElem? h

theorem storesAfter_redis (writes : List RoomWrite) (gameId : GameId) :
    (world.storesAfter writes gameId).redis = (world.stores gameId).redis := by
  induction writes generalizing world with
  | nil => rfl
  | cons write writes ih =>
    have hcons : world.storesAfter (write :: writes) =
        { world with stores := world.storesAfter [write] }.storesAfter writes := rfl
    rw [hcons, ih]
    cases write with
    | addStartSnapshot id state createdAt =>
      show (Function.update world.stores id _ gameId).redis = _
      by_cases hid : gameId = id
      · subst hid
        rw [Function.update_self]
      · rw [Function.update_of_ne hid]
    | _ => rfl

variable [DecidableEq κ]

theorem update_cases {α : Type} (g : RoomsAmbient) (tx : κ) (locks : List RoomLock)
    (writes : List RoomWrite) (answer : α) :
    (∃ error, world.update g tx locks writes answer = (world, .error error)) ∨
      world.db.areFree tx locks = true ∧ world.update g tx locks writes answer =
        ({ world with db := (world.db.lockAll tx locks).writeAll tx writes }, .ok answer) := by
  unfold RoomsWorld.update
  split
  · exact .inl ⟨_, rfl⟩
  · split
    · rename_i hfree
      exact .inr ⟨hfree, rfl⟩
    · exact .inl ⟨_, rfl⟩

end Worlds

/-! ## What the other request keeps -/

section Moves

variable {json : StateCodec τ} {room : RoomRow} {player : RoomPlayerRow}
  {world world' : RoomsWorld HostRequest τ} {db db' : RoomsDatabase HostRequest}
  {p : LeaveProgress τ} {q : StartProgress}

theorem LeaveInv.move (h : LeaveInv json room player world p)
    (hwritten : world'.db.written .leave = world.db.written .leave)
    (hmoves : Moves (roomStanding room.id world.db.committed)
      (roomStanding room.id world'.db.committed))
    (hplayer : player ∈ world.db.committed.roomPlayers →
      player ∈ world'.db.committed.roomPlayers)
    (hcancelling : RoomWrite.cancelRoom room.id .waiting ∈ world.db.written .leave →
      roomStanding room.id world'.db.committed = roomStanding room.id world.db.committed)
    (hlive : ∀ gameId, (world.stores gameId).redis.any (bankruptIn json player.id) = true →
      (world'.stores gameId).redis.any (bankruptIn json player.id) = true) :
    LeaveInv json room player world' p where
  isHost := h.isHost
  roomRead := h.roomRead
  playerRead := h.playerRead
  begun hbegun := hmoves.not_waiting (h.begun hbegun)
  closed hclosed := (h.closed hclosed).moves hmoves
  game gameId hgame := (h.game gameId hgame).moves hmoves
  live gameId text hgame htext hbankrupt := hlive gameId (h.live gameId text hgame htext hbankrupt)
  writes := by
    rw [hwritten]
    exact h.writes
  cancelling hmem := by
    rw [hwritten] at hmem
    exact (hcancelling hmem).trans (h.cancelling hmem)
  cancelled := by
    rw [hwritten]
    exact h.cancelled
  clean hleft := by
    obtain ⟨hnil, hmem⟩ := h.clean hleft
    exact ⟨hwritten.trans hnil, hplayer hmem⟩
  accounted := h.accounted.imp hplayer (Or.imp_left fun hclosed => hclosed.moves hmoves)

theorem StartInv.move (h : StartInv room db q) (hwritten : db'.written .start = db.written .start)
    (hholder : db.holder (.room room.id) = some .start →
      db'.holder (.room room.id) = some .start)
    (hmoves : Moves (roomStanding room.id db.committed) (roomStanding room.id db'.committed))
    (hsame : db.holder (.room room.id) = some .start →
      roomStanding room.id db.committed = ([.waiting], []) →
        roomsAndGames db'.committed = roomsAndGames db.committed) :
    StartInv room db' q := by
  refine ⟨h.roomLocked, h.roomStarted, by rw [hwritten]; exact h.writes, ?_⟩
  have hview : roomsAndGames db'.committed = roomsAndGames db.committed →
      roomStanding room.id (db'.view RoomWrite.apply .start) =
        roomStanding room.id (db.view RoomWrite.apply .start) := by
    intro heq
    unfold Database.view
    rw [hwritten]
    exact roomStanding_applyAll_congr heq
  have hstage := h.stage
  generalize q.stage = stage at hstage ⊢
  cases stage with
  | idle =>
    unfold AtStage
    rw [hwritten]
    exact hstage
  | opened | created =>
    obtain ⟨hheld, hwaiting, hopened⟩ := hstage
    have heq := hsame hheld hwaiting
    exact ⟨hholder hheld, (roomStanding_congr heq).trans hwaiting, (hview heq).trans hopened⟩
  | done gameId => exact ⟨hwritten.trans hstage.1, hstage.2.moves hmoves⟩
  | closing gameId =>
    obtain ⟨hclosing, hgame, hclosed⟩ := hstage
    unfold AtStage
    rw [hwritten]
    exact ⟨hclosing, hgame.moves hmoves, hclosed.imp_right fun hclosed => hclosed.moves hmoves⟩

theorem HostInv.lockAll (h : HostInv json room player world p q) {k : HostRequest}
    {locks : List RoomLock} (hfree : world.db.areFree k locks = true) :
    HostInv json room player { world with db := world.db.lockAll k locks } p q where
  identified := h.identified
  fits := h.fits
  guarded := h.guarded.lockAll hfree
  leave := h.leave.move rfl (.same _) id (fun _ => rfl) fun _ => id
  start := h.start.move rfl (fun hheld => Database.holder_lockAll hfree hheld) (.same _)
    fun _ _ => rfl

/-- A statement that reads leaves the world as it is. -/
theorem HostInv.read (h : HostInv json room player world p q) (g : RoomsAmbient) {α : Type}
    (rows : α) : HostInv json room player (world.read g rows).1 p q := by
  rcases read_cases world g rows with heq | heq
  · rw [heq]
    exact h
  · rw [heq]
    exact h

end Moves

end Invariant

end Rules
end LivePoly
