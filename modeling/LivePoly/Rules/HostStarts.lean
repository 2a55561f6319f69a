import LivePoly.Rules.HostRequests

/-!
# Rules.HostStarts

Every operation of a host's request to start keeps `HostInv` (`start_step`): it begins a game in a
room that waits, under the lock of the room, and takes it back only after it was begun.
-/

namespace LivePoly
namespace Rules

open Engine Service Process Process.Proc Sessions

variable {τ : Type}

variable {json : StateCodec τ} {room : RoomRow} {player : RoomPlayerRow}
  {world : RoomsWorld HostRequest τ} {p : LeaveProgress τ} {q : StartProgress}

theorem HostInv.start_view (h : HostInv json room player world p q) :
    Identified room player (world.db.view RoomWrite.apply .start) :=
  h.identified.applyAll fun write hwrite => (h.start.writes write hwrite).1

/-- A statement of the start that takes its locks and writes. -/
theorem HostInv.start_write (h : HostInv json room player world p q) (q' : StartProgress)
    {locks : List RoomLock} {writes : List RoomWrite} (hfree : world.db.areFree .start locks = true)
    (hlocks : ∀ write ∈ writes, ∀ l ∈ statusLocks write, l ∈ locks)
    (hwrites : ∀ write ∈ writes, addsNobody write = true ∧ ∀ id, write ≠ .markLeft id)
    (hroom : q'.room = q.room) (hactive : ∀ roomId, q'.activeRoom = some roomId → roomId = room.id)
    (hstage : AtStage room.id ((world.db.lockAll .start locks).writeAll .start writes) q'.stage) :
    HostInv json room player
      { world with db := (world.db.lockAll .start locks).writeAll .start writes } p q' := by
  have hlocked := h.lockAll hfree
  refine ⟨h.identified, h.fits, ?_, ?_, ?_, hactive, ?_, hstage⟩
  · refine hlocked.guarded.writeAll fun write hwrite l hl => ?_
    exact Database.holder_lockAll_self (hlocks write hwrite l hl)
  · exact hlocked.leave.move (Database.written_writeAll_other nofun) (.same _) id (fun _ => rfl)
      fun _ => id
  · intro roomId hroomId
    rw [hroom] at hroomId
    exact h.start.roomLocked roomId hroomId
  · intro write hwrite
    rcases Database.mem_written_writeAll.mp hwrite with hwrite | ⟨_, hwrite⟩
    · exact h.start.writes write hwrite
    · exact hwrites write hwrite

variable [DecidableEq τ] (g : RoomsAmbient)

theorem HostInv.start_lockRoomByCode (h : HostInv json room player world p q) :
    HostInv json room player (roomsExec world (.lockRoomByCode .start room.code) g).1 p
      (q.note ⟨.lockRoomByCode .start room.code,
        (roomsExec world (.lockRoomByCode .start room.code) g).2⟩) := by
  unfold roomsExec
  dsimp only
  cases hrow : limitOne g.pick ((world.seen (some .start)).rooms.filter fun row =>
    row.code = room.code) with
  | none =>
    rcases read_cases world g (none : Option RoomRow) with heq | heq
    · rw [heq]
      exact h
    · rw [heq]
      exact h
  | some row =>
    dsimp only
    rcases update_cases world g .start [.room row.id] [] (some row) with ⟨e, heq⟩ | ⟨hfree, heq⟩
    · rw [heq]
      exact h
    · rw [heq, Database.writeAll_nil]
      have hlocked := h.lockAll hfree
      obtain ⟨hmem, hcode⟩ := List.mem_filter.mp (limitOne_mem hrow)
      refine { hlocked with start := { hlocked.start with roomLocked := ?_ } }
      rintro _ ⟨⟩
      exact (h.start_view.codes row hmem (of_decide_eq_true hcode)).1

theorem HostInv.start_insertRoomPlayer (h : HostInv json room player world p q)
    (hidle : q.stage = .idle) (roomId : RoomId) (playerType : PlayerType)
    (botDifficulty : Option BotDifficulty) (seatNumber : Nat) :
    HostInv json room player (roomsExec world
        (.insertRoomPlayer .start roomId none playerType botDifficulty seatNumber) g).1 p
      (q.note ⟨.insertRoomPlayer .start roomId none playerType botDifficulty seatNumber,
        (roomsExec world
          (.insertRoomPlayer .start roomId none playerType botDifficulty seatNumber) g).2⟩) := by
  have hstage := h.start.stage
  rw [hidle] at hstage
  unfold roomsExec
  dsimp only
  split
  · exact h
  · split
    · rcases update_cases world g .start [.roomPlayer ⟨g.id⟩]
        [.addPlayer ⟨⟨g.id⟩, roomId, none, playerType, botDifficulty, seatNumber, .joined⟩]
        (⟨⟨g.id⟩, roomId, none, playerType, botDifficulty, seatNumber, .joined⟩ : RoomPlayerRow)
        with ⟨e, heq⟩ | ⟨hfree, heq⟩
      · rw [heq]
        exact h
      · rw [heq]
        refine h.start_write q hfree (List.forall_mem_singleton.mpr nofun)
          (List.forall_mem_singleton.mpr ⟨rfl, nofun⟩) rfl h.start.roomStarted ?_
        rw [hidle]
        intro write hwrite
        rcases Database.mem_written_writeAll.mp hwrite with hwrite | ⟨_, hwrite⟩
        · exact hstage write hwrite
        · rw [List.mem_singleton.mp hwrite]
          rfl
    · exact h

/-- The start finds the room waiting. -/
theorem HostInv.start_startRoom (h : HostInv json room player world p q)
    (hidle : q.stage = .idle) {roomId : RoomId} (hroom : q.room = some roomId) :
    HostInv json room player (roomsExec world (.startRoom .start roomId) g).1 p
      (q.note ⟨.startRoom .start roomId, (roomsExec world (.startRoom .start roomId) g).2⟩) := by
  have hroomId := h.start.roomLocked roomId hroom
  subst hroomId
  have hstage := h.start.stage
  rw [hidle] at hstage
  have hview : roomStanding room.id (world.seen (some .start)) =
      roomStanding room.id world.db.committed :=
    roomStanding_congr (ofPlayers_applyAll hstage)
  unfold roomsExec
  dsimp only
  cases hfind : (world.seen (some .start)).rooms.find? fun row =>
    row.id = room.id && row.status = .waiting with
  | none =>
    rcases read_cases world g (none : Option RoomRow) with heq | heq
    · rw [heq]
      exact h
    · rw [heq]
      exact h
  | some row =>
    obtain ⟨hid, hmem⟩ := find_eq_some hfind
    rw [hview] at hmem
    have hwaiting := h.fits.eq_waiting (h.fits.status hmem)
    dsimp only
    rcases update_cases world g .start [.room room.id] [.startRoom room.id g.now]
      (some { row with status := .active, startedAt := some g.now }) with ⟨e, heq⟩ | ⟨hfree, heq⟩
    · rw [heq]
      exact h
    · rw [heq]
      refine h.start_write _ hfree (List.forall_mem_singleton.mpr fun l hl => hl)
        (List.forall_mem_singleton.mpr ⟨rfl, nofun⟩) rfl ?_
        ⟨Database.holder_lockAll_self (List.mem_singleton_self _), hwaiting, ?_⟩
      · rintro _ ⟨⟩
        exact hid
      · rw [Database.view_writeAll_self]
        exact roomStanding_startRoom g.now (hview.trans hwaiting)

theorem HostInv.start_createGame (h : HostInv json room player world p q)
    (hopened : q.stage = .opened) {roomId : RoomId} (hroom : q.room = some roomId)
    (mode : GameMode) (expiresAt : Nat) :
    HostInv json room player (roomsExec world (.createGame .start roomId mode expiresAt) g).1 p
      (q.note ⟨.createGame .start roomId mode expiresAt,
        (roomsExec world (.createGame .start roomId mode expiresAt) g).2⟩) := by
  have hroomId := h.start.roomLocked roomId hroom
  subst hroomId
  have hstage := h.start.stage
  rw [hopened] at hstage
  obtain ⟨hheld, hwaiting, hview⟩ := hstage
  unfold roomsExec
  dsimp only
  split
  · exact h
  · rename_i hnew
    rcases update_cases world g .start [.game ⟨g.id⟩]
      [.addGame ⟨⟨g.id⟩, room.id, mode, .active, expiresAt⟩]
      (⟨⟨g.id⟩, room.id, mode, .active, expiresAt⟩ : GameRow) with ⟨e, heq⟩ | ⟨hfree, heq⟩
    · rw [heq]
      exact h
    · rw [heq]
      refine h.start_write _ hfree (List.forall_mem_singleton.mpr nofun)
        (List.forall_mem_singleton.mpr ⟨rfl, nofun⟩) rfl h.start.roomStarted
        ⟨Database.holder_lockAll hfree hheld, hwaiting, ?_⟩
      rw [Database.view_writeAll_self]
      exact roomStanding_addGame (Bool.eq_false_of_not_eq_true hnew) rfl hview

theorem HostInv.start_createStartSnapshot (h : HostInv json room player world p q)
    {gameId : GameId} (hcreated : q.stage = .created gameId) (state : GameEngineState) :
    HostInv json room player (roomsExec world (.createStartSnapshot .start gameId state) g).1 p
      (q.note ⟨.createStartSnapshot .start gameId state,
        (roomsExec world (.createStartSnapshot .start gameId state) g).2⟩) := by
  have hstage := h.start.stage
  rw [hcreated] at hstage
  obtain ⟨hheld, hwaiting, hview⟩ := hstage
  unfold roomsExec
  dsimp only
  rcases update_cases world g .start [.game gameId] [.addStartSnapshot gameId state g.now] ()
    with ⟨e, heq⟩ | ⟨hfree, heq⟩
  · rw [heq]
    exact h
  · rw [heq]
    refine h.start_write q hfree (List.forall_mem_singleton.mpr nofun)
      (List.forall_mem_singleton.mpr ⟨rfl, nofun⟩) rfl h.start.roomStarted ?_
    rw [hcreated]
    refine ⟨Database.holder_lockAll hfree hheld, hwaiting, ?_⟩
    rw [Database.view_writeAll_self]
    exact hview

theorem HostInv.start_cancelGame (h : HostInv json room player world p q) {gameId : GameId}
    (hdone : q.stage = .done gameId) :
    HostInv json room player (roomsExec world (.cancelGame .start gameId) g).1 p
      (q.note ⟨.cancelGame .start gameId, (roomsExec world (.cancelGame .start gameId) g).2⟩) := by
  have hstage := h.start.stage
  rw [hdone] at hstage
  obtain ⟨hnil, hgame⟩ := hstage
  unfold roomsExec
  dsimp only
  cases hfind : (world.seen (some .start)).games.find? fun row =>
    row.id = gameId && row.status = .active with
  | none =>
    rcases read_cases world g () with heq | heq
    · rw [heq]
      exact h
    · rw [heq]
      refine { h with start := { h.start with stage := ⟨fun write hwrite => ?_, hgame, .inr
        ⟨hgame.not_waiting, fun game hmem hactive => ?_⟩⟩ } }
      · rw [hnil] at hwrite
        cases hwrite
      · obtain ⟨row, hrow, rfl⟩ := List.mem_map.mp hmem
        have hid := hgame.unique hmem
        obtain ⟨hrow, _⟩ := List.mem_filter.mp hrow
        have hview : world.seen (some .start) = world.db.committed := Database.view_of_nil hnil
        rw [hview] at hfind
        exact List.find?_eq_none.mp hfind row hrow
          (Bool.and_eq_true_iff.mpr ⟨decide_eq_true hid, decide_eq_true hactive⟩)
  | some row =>
    dsimp only
    rcases update_cases world g .start [.game gameId] [.cancelGame gameId] ()
      with ⟨e, heq⟩ | ⟨hfree, heq⟩
    · rw [heq]
      exact h
    · rw [heq]
      refine h.start_write _ hfree (List.forall_mem_singleton.mpr nofun)
        (List.forall_mem_singleton.mpr ⟨rfl, nofun⟩) rfl h.start.roomStarted
        ⟨fun write hwrite => ?_, hgame, .inl ?_⟩
      · rcases Database.mem_written_writeAll.mp hwrite with hwrite | ⟨_, hwrite⟩
        · rw [show (world.db.lockAll .start [.game gameId]).written .start = [] from hnil] at hwrite
          cases hwrite
        · rw [List.mem_singleton.mp hwrite]
          exact decide_eq_true rfl
      · exact Database.mem_written_writeAll.mpr (.inr ⟨rfl, List.mem_singleton_self _⟩)

theorem HostInv.start_cancelRoom (h : HostInv json room player world p q) {gameId : GameId}
    (hclosing : q.stage = .closing gameId) {roomId : RoomId}
    (hroom : q.activeRoom = some roomId) :
    HostInv json room player (roomsExec world (.cancelRoom .start roomId .active) g).1 p
      (q.note ⟨.cancelRoom .start roomId .active,
        (roomsExec world (.cancelRoom .start roomId .active) g).2⟩) := by
  have hroomId := h.start.roomStarted roomId hroom
  subst hroomId
  have hstage := h.start.stage
  rw [hclosing] at hstage
  obtain ⟨hwrites, hgame, hover⟩ := hstage
  unfold roomsExec
  dsimp only
  cases hfind : (world.seen (some .start)).rooms.find? fun row =>
    row.id = room.id && row.status = .active with
  | none =>
    rcases read_cases world g (none : Option RoomRow) with heq | heq
    · rw [heq]
      exact h
    · rw [heq]
      exact h
  | some row =>
    dsimp only
    rcases update_cases world g .start [.room room.id] [.cancelRoom room.id .active]
      (some { row with status := .cancelled }) with ⟨e, heq⟩ | ⟨hfree, heq⟩
    · rw [heq]
      exact h
    · rw [heq]
      refine h.start_write q hfree (List.forall_mem_singleton.mpr fun l hl => hl)
        (List.forall_mem_singleton.mpr ⟨rfl, nofun⟩) rfl h.start.roomStarted ?_
      rw [hclosing]
      refine ⟨fun write hwrite => ?_, hgame, hover.imp_left fun hmem =>
        Database.mem_written_writeAll.mpr (.inl hmem)⟩
      rcases Database.mem_written_writeAll.mp hwrite with hwrite | ⟨_, hwrite⟩
      · exact hwrites write hwrite
      · rw [List.mem_singleton.mp hwrite]
        exact Bool.and_eq_true_iff.mpr ⟨decide_eq_true rfl, decide_eq_true rfl⟩

omit [DecidableEq τ] in
/-- What the start commits: its game, or that the game is taken back. -/
theorem HostInv.start_moves (h : HostInv json room player world p q) {gameId : GameId}
    (hstage : q.stage = .created gameId ∨ q.stage = .closing gameId) :
    Moves (roomStanding room.id world.db.committed)
        (roomStanding room.id (world.db.view RoomWrite.apply .start)) ∧
      HasGame gameId (roomStanding room.id (world.db.view RoomWrite.apply .start)) ∧
      RoomWrite.cancelRoom room.id .waiting ∉ world.db.written .leave := by
  have hat := h.start.stage
  rcases hstage with hstage | hstage
  · rw [hstage] at hat
    obtain ⟨hheld, hwaiting, hview⟩ := hat
    rw [hwaiting, hview]
    refine ⟨.started gameId, ⟨_, _, rfl, nofun⟩, fun hmem => ?_⟩
    have hlock := h.guarded .leave _ hmem (.room room.id) (List.mem_singleton_self _)
    rw [hheld] at hlock
    cases hlock
  · rw [hstage] at hat
    obtain ⟨hwrites, hgame, hover⟩ := hat
    have hmoves := moves_closing hwrites hgame hover
    refine ⟨hmoves, hgame.moves hmoves, fun hmem => ?_⟩
    exact hgame.not_waiting (congrArg Prod.fst (h.leave.cancelling hmem))

theorem HostInv.start_commit (h : HostInv json room player world p q) {gameId : GameId}
    (hstage : q.stage = .created gameId ∨ q.stage = .closing gameId) :
    HostInv json room player (roomsExec world (.commit .start) g).1 p
      (q.note ⟨.commit .start, (roomsExec world (.commit .start) g).2⟩) := by
  obtain ⟨hmoves, hgame, hnot⟩ := h.start_moves hstage
  unfold roomsExec
  dsimp only
  split
  · exact h
  · have hnil : (world.db.commit RoomWrite.apply .start).written .start = [] :=
      Database.written_commit_self
    have hcommitted : StartProgress.committed q.stage = .done gameId := by
      rcases hstage with hstage | hstage
      · rw [hstage]
        rfl
      · rw [hstage]
        rfl
    refine ⟨h.start_view, h.fits.moves hmoves, h.guarded.ended, ?_, h.start.roomLocked,
      h.start.roomStarted, ?_, ?_⟩
    · refine h.leave.move (Database.written_commit_other nofun) hmoves
        (mem_roomPlayers_kept fun write hwrite => (h.start.writes write hwrite).2)
        (fun hmem => absurd hmem hnot) fun id hlive => ?_
      dsimp only
      rw [storesAfter_redis]
      exact hlive
    · intro write hwrite
      rw [hnil] at hwrite
      cases hwrite
    · show AtStage room.id _ (StartProgress.committed q.stage)
      rw [hcommitted]
      exact ⟨hnil, hgame⟩

theorem HostInv.start_rollback (h : HostInv json room player world p q) :
    HostInv json room player (roomsExec world (.rollback .start) g).1 p
      (q.note ⟨.rollback .start, (roomsExec world (.rollback .start) g).2⟩) := by
  have hnil : (world.db.rollback HostRequest.start).written .start = [] :=
    Database.written_rollback_self
  have hnone : ∀ write ∈ (world.db.rollback HostRequest.start).written .start, False := by
    intro write hwrite
    rw [hnil] at hwrite
    cases hwrite
  unfold roomsExec
  dsimp only
  refine ⟨h.identified, h.fits, h.guarded.ended, ?_, h.start.roomLocked, h.start.roomStarted,
    fun write hwrite => (hnone write hwrite).elim, ?_⟩
  · exact h.leave.move (Database.written_rollback_other nofun) (.same _) id (fun _ => rfl)
      fun _ => id
  · show AtStage room.id _ (StartProgress.rolledBack q.stage)
    have hat := h.start.stage
    generalize q.stage = stage at hat ⊢
    cases stage with
    | idle | opened | created => exact fun write hwrite => (hnone write hwrite).elim
    | done gameId => exact ⟨hnil, hat.2⟩
    | closing gameId => exact ⟨hnil, hat.2.1⟩

omit [DecidableEq τ] in
/-- The live state that the start writes or deletes is not one in which the host is bankrupt. -/
theorem HostInv.start_redis (h : HostInv json room player world p q) {gameId : GameId}
    (hspares : (world.stores gameId).redis.any (bankruptIn json player.id) = false)
    (text : Option τ) : HostInv json room player
      { world with
        stores := Function.update world.stores gameId
          { world.stores gameId with redis := text } } p q := by
  refine { h with leave := h.leave.move rfl (.same _) id (fun _ => rfl) fun id hlive => ?_ }
  by_cases hid : id = gameId
  · subst hid
    rw [hspares] at hlive
    cases hlive
  · dsimp only
    rw [Function.update_of_ne hid]
    exact hlive

/-- Every operation of the request to start keeps the invariant. -/
theorem HostInv.start_step (h : HostInv json room player world p q) {o : HostOp τ}
    (hmay : StartMay room q o) (hspares : sparesHost json player.id world o = true) :
    HostInv json room player (roomsExec world o g).1 p (q.note ⟨o, (roomsExec world o g).2⟩) := by
  cases o with
  | lockRoomByCode tx code =>
    obtain ⟨rfl, rfl⟩ := hmay
    exact h.start_lockRoomByCode g
  | findJoinedPlayer executor roomId userId => exact h.read g _
  | listJoinedPlayers tx roomId => exact h.read g _
  | insertRoomPlayer tx roomId userId playerType botDifficulty seatNumber =>
    obtain ⟨rfl, rfl, hidle⟩ := hmay
    exact h.start_insertRoomPlayer g hidle roomId playerType botDifficulty seatNumber
  | startRoom tx roomId =>
    obtain ⟨rfl, hroom, hidle⟩ := hmay
    exact h.start_startRoom g hidle hroom
  | createGame tx roomId mode expiresAt =>
    obtain ⟨rfl, hroom, hopened⟩ := hmay
    exact h.start_createGame g hopened hroom mode expiresAt
  | createStartSnapshot tx gameId state =>
    obtain ⟨rfl, hcreated⟩ := hmay
    exact h.start_createStartSnapshot g hcreated state
  | cancelGame tx gameId =>
    obtain ⟨rfl, hdone⟩ := hmay
    exact h.start_cancelGame g hdone
  | cancelRoom tx roomId expected =>
    obtain ⟨rfl, hroom, rfl, gameId, hclosing⟩ := hmay
    exact h.start_cancelRoom g hclosing hroom
  | commit tx =>
    obtain ⟨rfl, gameId, hstage⟩ := hmay
    exact h.start_commit g hstage
  | rollback tx =>
    obtain rfl : tx = .start := hmay
    exact h.start_rollback g
  | ambient => exact h
  | setState gameId text =>
    unfold roomsExec
    dsimp only
    split
    · exact h
    · rw [sparesHost, Bool.not_eq_true'] at hspares
      exact h.start_redis hspares (some text)
  | deleteState gameId =>
    unfold roomsExec
    dsimp only
    split
    · exact h
    · rw [sparesHost, Bool.not_eq_true'] at hspares
      exact h.start_redis hspares none
  | enqueueTurnTimer gameId state => exact h.read g _
  | enqueueGameExpiry gameId expiresAt => exact h.read g _
  | _ => exact hmay.elim

end Rules
end LivePoly
