import LivePoly.Rules.HostRequests

/-!
# Rules.HostLeaves

Every operation of a host's request to leave keeps `HostInv` (`leave_step`): what it reads of the
room stays true, and what it commits leaves the host accounted for.
-/

namespace LivePoly
namespace Rules

open Engine Service Process Process.Proc Sessions

variable {τ : Type}

variable {json : StateCodec τ} {room : RoomRow} {player : RoomPlayerRow}
  {world : RoomsWorld HostRequest τ} {p : LeaveProgress τ} {q : StartProgress}

/-- What the request to leave reads of the room and its games is what is committed. -/
theorem LeaveInv.view_standing (h : LeaveInv json room player world p)
    (hcancelled : p.cancelled = false) : roomsAndGames (world.db.view RoomWrite.apply .leave) =
      roomsAndGames world.db.committed := by
  refine ofPlayers_applyAll fun write hwrite => ?_
  rcases h.writes write hwrite with ⟨id, rfl⟩ | ⟨_, hdone⟩
  · rfl
  · rw [hcancelled] at hdone
    cases hdone

/-- Without a cancellation the request to leave commits changes of players only. -/
theorem LeaveInv.commit_same (h : LeaveInv json room player world p)
    (hmem : RoomWrite.cancelRoom room.id .waiting ∉ world.db.written .leave) :
    roomsAndGames (world.db.view RoomWrite.apply .leave) = roomsAndGames world.db.committed := by
  refine ofPlayers_applyAll fun write hwrite => ?_
  rcases h.writes write hwrite with ⟨id, rfl⟩ | ⟨rfl, _⟩
  · rfl
  · exact absurd hwrite hmem

/-- With a cancellation the room is cancelled. -/
theorem LeaveInv.commit_cancelled (h : LeaveInv json room player world p)
    (hmem : RoomWrite.cancelRoom room.id .waiting ∈ world.db.written .leave) :
    roomStanding room.id (world.db.view RoomWrite.apply .leave) = ([.cancelled], []) := by
  have hwrites := h.writes
  have hwaiting := h.cancelling hmem
  unfold Database.view
  generalize world.db.written .leave = writes at hmem hwrites
  generalize world.db.committed = tables at hwaiting
  -- Only the first cancellation finds the room waiting.
  suffices hall : ∀ tables, (roomStanding room.id tables = ([.waiting], []) ∧
      RoomWrite.cancelRoom room.id .waiting ∈ writes) ∨
      roomStanding room.id tables = ([.cancelled], []) →
        roomStanding room.id (applyAll RoomWrite.apply writes tables) = ([.cancelled], []) from
    hall tables (.inl ⟨hwaiting, hmem⟩)
  clear hmem hwaiting
  induction writes with
  | nil =>
    rintro tables (⟨_, hmem⟩ | hcancelled)
    · cases hmem
    · exact hcancelled
  | cons write writes ih =>
    rw [List.forall_mem_cons] at hwrites
    intro tables hbefore
    refine ih hwrites.2 (write.apply tables) ?_
    rcases hwrites.1 with ⟨id, rfl⟩ | ⟨rfl, _⟩
    · have hsame : roomStanding room.id ((RoomWrite.markLeft id).apply tables) =
        roomStanding room.id tables := roomStanding_congr (ofPlayers_apply rfl tables)
      rw [hsame]
      refine hbefore.imp_left fun hboth => ⟨hboth.1, ?_⟩
      rcases List.mem_cons.mp hboth.2 with heq | hmem
      · cases heq
      · exact hmem
    · rcases hbefore with ⟨hwaiting, _⟩ | hcancelled
      · exact .inr (roomStanding_cancelRoom hwaiting)
      · exact .inr (roomStanding_cancelRoom_closed hcancelled)

theorem LeaveInv.moves_commit (h : LeaveInv json room player world p) :
    Moves (roomStanding room.id world.db.committed)
      (roomStanding room.id (world.db.view RoomWrite.apply .leave)) := by
  by_cases hmem : RoomWrite.cancelRoom room.id .waiting ∈ world.db.written .leave
  · rw [h.cancelling hmem, h.commit_cancelled hmem]
    exact .cancelled
  · rw [roomStanding_congr (h.commit_same hmem)]
    exact .same _

/-- A commit that marks the host left leaves no waiting room. -/
theorem LeaveInv.commit_not_waiting (h : LeaveInv json room player world p)
    (hmay : LeaveMay json room p (.commit .leave)) (hleft : p.left = true) :
    (roomStanding room.id (world.db.view RoomWrite.apply .leave)).1 ≠ [.waiting] := by
  rcases hmay.2 hleft with hcancelled | hclosed | ⟨_, _, gameId, _, hgame, _⟩
  · rw [h.commit_cancelled (h.cancelled hcancelled)]
    exact nofun
  · exact ((h.closed hclosed).moves h.moves_commit).1
  · exact h.moves_commit.not_waiting (h.game gameId hgame).not_waiting

/-- Where the host is marked left, the room is cancelled, or it was over before, or the host is
bankrupt. -/
theorem LeaveInv.commit_accounted (h : LeaveInv json room player world p)
    (hmay : LeaveMay json room p (.commit .leave)) :
    player ∈ (world.db.view RoomWrite.apply .leave).roomPlayers ∨
      IsOver (roomStanding room.id (world.db.view RoomWrite.apply .leave)) ∨
      p.KnowsBankrupt json player.id := by
  rcases h.accounted with hthere | hclosed | hbankrupt
  · cases hleft : p.left with
    | false =>
      rw [Database.view_of_nil (h.clean hleft).1]
      exact .inl hthere
    | true =>
      rcases hmay.2 hleft with hcancelled | hclosed | ⟨id, hid, hbankrupt⟩
      · rw [h.commit_cancelled (h.cancelled hcancelled)]
        exact .inr (.inl isOver_cancelled)
      · exact .inr (.inl ((h.closed hclosed).moves h.moves_commit))
      · rw [h.playerRead id hid] at hbankrupt
        exact .inr (.inr hbankrupt)
  · exact .inr (.inl (hclosed.moves h.moves_commit))
  · exact .inr (.inr hbankrupt)

variable [DecidableEq τ] (g : RoomsAmbient)

theorem HostInv.leave_findRoomByCode (h : HostInv json room player world p q) :
    HostInv json room player (roomsExec world (.findRoomByCode room.code) g).1
      (p.note room.hostUserId ⟨.findRoomByCode room.code,
        (roomsExec world (.findRoomByCode room.code) g).2⟩) q := by
  unfold roomsExec
  dsimp only
  rcases read_cases world g (limitOne g.pick (world.db.committed.rooms.filter fun row =>
    row.code = room.code)) with heq | heq
  · rw [heq]
    exact h
  · rw [heq]
    cases hrow : limitOne g.pick (world.db.committed.rooms.filter fun row =>
      row.code = room.code) with
    | none => exact h
    | some row =>
      obtain ⟨hmem, hcode⟩ := List.mem_filter.mp (limitOne_mem hrow)
      obtain ⟨hid, hhost⟩ := h.identified.codes row hmem (of_decide_eq_true hcode)
      refine { h with leave := { h.leave with roomRead := ?_, begun := fun hbegun => ?_ } }
      · rintro _ ⟨⟩
        exact hid
      · rcases Bool.or_eq_true_iff.mp hbegun with hbegun | hbegun
        · exact h.leave.begun hbegun
        · intro hwaiting
          have hstatus := h.fits.status (status_mem hmem hid)
          rw [hwaiting] at hstatus
          have hrowWaiting : row.status = .waiting := (List.head_eq_of_cons_eq hstatus).symm
          simp [hhost, hrowWaiting] at hbegun

theorem HostInv.leave_findJoinedPlayer (h : HostInv json room player world p q) {roomId : RoomId}
    (hroom : p.room = some roomId) (hleft : p.left = false) : HostInv json room player
      (roomsExec world (.findJoinedPlayer none roomId room.hostUserId) g).1
      (p.note room.hostUserId ⟨.findJoinedPlayer none roomId room.hostUserId,
        (roomsExec world (.findJoinedPlayer none roomId room.hostUserId) g).2⟩) q := by
  have hroomId := h.leave.roomRead roomId hroom
  subst hroomId
  unfold roomsExec
  dsimp only
  rcases read_cases world g (limitOne g.pick ((world.seen none).joinedPlayersOf room.id
    room.hostUserId)) with heq | heq
  · rw [heq]
    exact h
  · rw [heq]
    cases hrow : limitOne g.pick ((world.seen none).joinedPlayersOf room.id room.hostUserId) with
    | none =>
      have hnone := limitOne_eq_none hrow
      have hmem : player ∈ (world.seen none).joinedPlayersOf room.id room.hostUserId :=
        h.leave.isHost.mem_joinedPlayersOf (h.leave.clean hleft).2
      rw [hnone] at hmem
      cases hmem
    | some row =>
      obtain ⟨hmem, _⟩ := List.mem_filter.mp (limitOne_mem hrow)
      obtain ⟨hmem, hown⟩ := List.mem_filter.mp hmem
      obtain ⟨hrowRoom, huser⟩ := Bool.and_eq_true_iff.mp hown
      refine { h with leave := { h.leave with playerRead := ?_ } }
      rintro _ ⟨⟩
      exact h.identified.hosts row hmem (of_decide_eq_true hrowRoom) (of_decide_eq_true huser)

theorem HostInv.leave_lockRoomByCode (h : HostInv json room player world p q)
    (hbegun : p.begun = true) (hleft : p.left = false) : HostInv json room player
      (roomsExec world (.lockRoomByCode .leave room.code) g).1
      (p.note room.hostUserId ⟨.lockRoomByCode .leave room.code,
        (roomsExec world (.lockRoomByCode .leave room.code) g).2⟩) q := by
  unfold roomsExec
  dsimp only
  cases hrow : limitOne g.pick ((world.seen (some .leave)).rooms.filter fun row =>
    row.code = room.code) with
  | none =>
    rcases read_cases world g (none : Option RoomRow) with heq | heq
    · rw [heq]
      exact h
    · rw [heq]
      exact h
  | some row =>
    dsimp only
    rcases update_cases world g .leave [.room row.id] [] (some row) with ⟨e, heq⟩ | ⟨hfree, heq⟩
    · rw [heq]
      exact h
    · rw [heq, Database.writeAll_nil]
      have hlocked := h.lockAll hfree
      obtain ⟨hmem, hcode⟩ := List.mem_filter.mp (limitOne_mem hrow)
      have hview : world.seen (some .leave) = world.db.committed :=
        Database.view_of_nil (h.leave.clean hleft).1
      rw [hview] at hmem
      obtain ⟨hid, _⟩ := h.identified.codes row hmem (of_decide_eq_true hcode)
      have hstatus := h.fits.status (status_mem hmem hid)
      refine { hlocked with
        leave := { hlocked.leave with roomRead := ?_, closed := fun hclosed => ?_ } }
      · rintro _ ⟨⟩
        exact hid
      · rcases Bool.or_eq_true_iff.mp hclosed with hclosed | hclosed
        · exact h.leave.closed hclosed
        · refine h.fits.isOver (h.leave.begun hbegun) fun hactive => ?_
          rw [hactive] at hstatus
          rw [← List.head_eq_of_cons_eq hstatus] at hclosed
          cases hclosed

theorem HostInv.leave_findActiveGameByRoomId (h : HostInv json room player world p q)
    {roomId : RoomId} (hroom : p.room = some roomId) (hbegun : p.begun = true)
    (hleft : p.left = false) : HostInv json room player
      (roomsExec world (.findActiveGameByRoomId (some .leave) roomId) g).1
      (p.note room.hostUserId ⟨.findActiveGameByRoomId (some .leave) roomId,
        (roomsExec world (.findActiveGameByRoomId (some .leave) roomId) g).2⟩) q := by
  have hview : world.seen (some .leave) = world.db.committed :=
    Database.view_of_nil (h.leave.clean hleft).1
  have hroomId := h.leave.roomRead roomId hroom
  subst hroomId
  unfold roomsExec
  dsimp only
  rw [hview]
  rcases read_cases world g (limitOne g.pick (world.db.committed.activeGamesOf room.id))
    with heq | heq
  · rw [heq]
    exact h
  · rw [heq]
    cases hgame : limitOne g.pick (world.db.committed.activeGamesOf room.id) with
    | none =>
      have hnone := limitOne_eq_none hgame
      refine { h with leave := { h.leave with closed := fun _ => ?_ } }
      refine ⟨h.leave.begun hbegun, fun game hmem hactive => ?_⟩
      obtain ⟨row, hrow, rfl⟩ := List.mem_map.mp hmem
      obtain ⟨hrow, hown⟩ := List.mem_filter.mp hrow
      have hin : row ∈ world.db.committed.activeGamesOf room.id :=
        List.mem_filter.mpr ⟨hrow, Bool.and_eq_true_iff.mpr ⟨hown, decide_eq_true hactive⟩⟩
      rw [hnone] at hin
      cases hin
    | some row =>
      obtain ⟨hrow, hown⟩ := List.mem_filter.mp (limitOne_mem hgame)
      obtain ⟨hown, _⟩ := Bool.and_eq_true_iff.mp hown
      refine { h with leave := { h.leave with game := ?_, live := nofun, accounted := ?_ } }
      · rintro _ ⟨⟩
        exact h.fits.hasGame (game_mem hrow (of_decide_eq_true hown))
      · exact .inl (h.leave.clean hleft).2

theorem HostInv.leave_leaveRoom (h : HostInv json room player world p q) (roomId : RoomId)
    (userId : UserId) (hcancelled : p.cancelled = false) : HostInv json room player
      (roomsExec world (.leaveRoom .leave roomId userId) g).1
      (p.note room.hostUserId ⟨.leaveRoom .leave roomId userId,
        (roomsExec world (.leaveRoom .leave roomId userId) g).2⟩) q := by
  have hasked : HostInv json room player world { p with left := true } q :=
    { h with leave := { h.leave with clean := nofun } }
  unfold roomsExec
  dsimp only
  generalize (world.seen (some .leave)).joinedPlayersOf roomId userId = rows
  rcases update_cases world g .leave (rows.map fun row => .roomPlayer row.id)
    (rows.map fun row => .markLeft row.id)
    (rows.head?.map fun row => { row with status := .left }) with ⟨e, heq⟩ | ⟨hfree, heq⟩
  · rw [heq]
    exact hasked
  · rw [heq]
    have hlocked := hasked.lockAll hfree
    refine { hlocked with
      guarded := ?_
      leave := { hlocked.leave with
        writes := fun write hwrite => ?_
        cancelling := fun hmem => ?_
        cancelled := fun hdone => ?_
        clean := nofun }
      start := ?_ }
    · refine hlocked.guarded.writeAll fun write hwrite l hl => ?_
      obtain ⟨_, _, rfl⟩ := List.mem_map.mp hwrite
      cases hl
    · rcases Database.mem_written_writeAll.mp hwrite with hwrite | ⟨_, hwrite⟩
      · exact h.leave.writes write hwrite
      · obtain ⟨row, _, rfl⟩ := List.mem_map.mp hwrite
        exact .inl ⟨row.id, rfl⟩
    · rcases Database.mem_written_writeAll.mp hmem with hmem | ⟨_, hmem⟩
      · exact h.leave.cancelling hmem
      · obtain ⟨_, _, heq⟩ := List.mem_map.mp hmem
        cases heq
    · cases hcancelled.symm.trans hdone
    · exact hlocked.start.move (Database.written_writeAll_other nofun) id (.same _) fun _ _ => rfl

/-- The room that the leaving host wants to cancel: it waits, or has been closed. -/
theorem HostInv.leave_cancelRoom (h : HostInv json room player world p q) {roomId : RoomId}
    (hroom : p.room = some roomId) (hleft : p.left = true) (hcancelled : p.cancelled = false)
    (hspares : sparesHost json player.id world (.cancelRoom .leave roomId .waiting) = true) :
    HostInv json room player (roomsExec world (.cancelRoom .leave roomId .waiting) g).1
      (p.note room.hostUserId ⟨.cancelRoom .leave roomId .waiting,
        (roomsExec world (.cancelRoom .leave roomId .waiting) g).2⟩) q := by
  have hroomId := h.leave.roomRead roomId hroom
  subst hroomId
  have hview : roomStanding room.id (world.seen (some .leave)) =
      roomStanding room.id world.db.committed :=
    roomStanding_congr (h.leave.view_standing hcancelled)
  unfold roomsExec
  dsimp only
  cases hfind : (world.seen (some .leave)).rooms.find? fun row =>
    row.id = room.id && row.status = .waiting with
  | none =>
    rcases read_cases world g (none : Option RoomRow) with heq | heq
    · rw [heq]
      exact h
    · rw [heq]
      refine { h with leave := { h.leave with closed := fun _ => h.fits.isOver ?_ ?_ } }
      · intro hwaiting
        have hmem : RoomStatus.waiting ∈ (roomStanding room.id (world.seen (some .leave))).1 := by
          rw [hview, hwaiting]
          exact List.mem_singleton_self _
        have hsome := find_status hmem
        rw [hfind] at hsome
        cases hsome
      · intro hactive
        have hmem : RoomStatus.active ∈ roomStatuses world.db.committed room.id := by
          show _ ∈ (roomStanding room.id world.db.committed).1
          rw [hactive]
          exact List.mem_singleton_self _
        obtain ⟨row, hrow, hstatus⟩ := List.mem_map.mp hmem
        obtain ⟨hrow, hid⟩ := List.mem_filter.mp hrow
        rw [sparesHost, Bool.not_eq_true', List.any_eq_false] at hspares
        exact hspares row hrow (Bool.and_eq_true_iff.mpr ⟨hid, decide_eq_true hstatus⟩)
  | some row =>
    have hwaiting : roomStanding room.id world.db.committed = ([.waiting], []) := by
      refine h.fits.eq_waiting (h.fits.status ?_)
      rw [← hview]
      exact (find_eq_some hfind).2
    dsimp only
    rcases update_cases world g .leave [.room room.id] [.cancelRoom room.id .waiting]
      (some { row with status := .cancelled }) with ⟨e, heq⟩ | ⟨hfree, heq⟩
    · rw [heq]
      exact h
    · rw [heq]
      have hlocked := h.lockAll hfree
      refine { hlocked with
        guarded := ?_
        leave := { hlocked.leave with
          writes := fun write hwrite => ?_
          cancelling := fun _ => hwaiting
          cancelled := fun _ => Database.mem_written_writeAll.mpr
            (.inr ⟨rfl, List.mem_singleton_self _⟩)
          clean := fun hclean => ?_ }
        start := ?_ }
      · refine hlocked.guarded.writeAll fun write hwrite l hl => ?_
        cases List.mem_singleton.mp hwrite
        cases List.mem_singleton.mp hl
        exact Database.holder_lockAll_self (List.mem_singleton_self _)
      · rcases Database.mem_written_writeAll.mp hwrite with hwrite | ⟨_, hwrite⟩
        · exact (h.leave.writes write hwrite).imp_right fun hdone => ⟨hdone.1, rfl⟩
        · exact .inr ⟨List.mem_singleton.mp hwrite, rfl⟩
      · cases hleft.symm.trans hclean
      · exact hlocked.start.move (Database.written_writeAll_other nofun) id (.same _) fun _ _ => rfl

theorem HostInv.leave_commit (h : HostInv json room player world p q)
    (hmay : LeaveMay json room p (.commit .leave)) : HostInv json room player
      (roomsExec world (.commit .leave) g).1
      (p.note room.hostUserId ⟨.commit .leave, (roomsExec world (.commit .leave) g).2⟩) q := by
  unfold roomsExec
  dsimp only
  split
  · exact h
  · have hnil : (world.db.commit RoomWrite.apply .leave).written .leave = [] :=
      Database.written_commit_self
    have hmoves := h.leave.moves_commit
    have hnobody : ∀ write ∈ world.db.written .leave, addsNobody write = true := by
      intro write hwrite
      rcases h.leave.writes write hwrite with ⟨id, rfl⟩ | ⟨rfl, _⟩
      · rfl
      · rfl
    refine ⟨h.identified.applyAll hnobody, h.fits.moves hmoves, h.guarded.ended, ?_, ?_⟩
    · refine ⟨h.leave.isHost, h.leave.roomRead, h.leave.playerRead, fun hbegun => ?_,
        fun hclosed => (h.leave.closed hclosed).moves hmoves,
        fun gameId hgame => (h.leave.game gameId hgame).moves hmoves, ?_, ?_, ?_, nofun,
        fun hleft => ⟨hnil, ?_⟩, h.leave.commit_accounted hmay⟩
      · rcases Bool.or_eq_true_iff.mp hbegun with hbegun | hleft
        · exact hmoves.not_waiting (h.leave.begun hbegun)
        · exact h.leave.commit_not_waiting hmay hleft
      · intro gameId text hgame htext hbankrupt
        rw [storesAfter_redis]
        exact h.leave.live gameId text hgame htext hbankrupt
      · intro write hwrite
        rw [hnil] at hwrite
        cases hwrite
      · intro hwrite
        rw [hnil] at hwrite
        cases hwrite
      · obtain ⟨hnone, hthere⟩ := h.leave.clean hleft
        show player ∈ (world.db.view RoomWrite.apply .leave).roomPlayers
        rw [Database.view_of_nil hnone]
        exact hthere
    · refine h.start.move (Database.written_commit_other nofun)
        (fun hheld => Database.unlocked_eq_some.mpr ⟨hheld, nofun⟩) hmoves fun hheld _ => ?_
      refine h.leave.commit_same fun hmem => ?_
      have hlock := h.guarded .leave _ hmem (.room room.id) (List.mem_singleton_self _)
      rw [hheld] at hlock
      cases hlock

theorem HostInv.leave_rollback (h : HostInv json room player world p q) : HostInv json room player
      (roomsExec world (.rollback .leave) g).1
      (p.note room.hostUserId ⟨.rollback .leave, (roomsExec world (.rollback .leave) g).2⟩) q := by
  have hnil : (world.db.rollback HostRequest.leave).written .leave = [] :=
    Database.written_rollback_self
  unfold roomsExec
  dsimp only
  refine { h with
    guarded := h.guarded.ended
    leave := { h.leave with
      writes := fun write hwrite => ?_
      cancelling := fun hwrite => ?_
      cancelled := nofun
      clean := fun hleft => ⟨hnil, (h.leave.clean hleft).2⟩ }
    start := ?_ }
  · rw [hnil] at hwrite
    cases hwrite
  · rw [hnil] at hwrite
    cases hwrite
  · exact h.start.move (Database.written_rollback_other nofun)
      (fun hheld => Database.unlocked_eq_some.mpr ⟨hheld, nofun⟩) (.same _) fun _ _ => rfl

/-- What is known of the live state stays known: only the request itself writes it. -/
theorem noteText_live (json : StateCodec τ) (stores : Stores τ) (o : Op τ) (ambient : Ambient)
    (id : RoomPlayerId) {text : Option τ} (h : ∀ t, text = some t → bankruptIn json id t = true →
      stores.redis.any (bankruptIn json id) = true) :
    ∀ t, noteText text ⟨o, (exec stores o ambient).2⟩ = some t → bankruptIn json id t = true →
      (exec stores o ambient).1.redis.any (bankruptIn json id) = true := by
  intro t ht hbankrupt
  rcases exec_redis stores o ambient with ⟨expected, next, hact, _, hafter⟩ | ⟨value, rfl, hafter⟩ |
    ⟨hact, hset, hafter⟩
  · rw [hact] at ht
    cases ht
    rw [hafter]
    exact hbankrupt
  · cases ht
    rw [hafter]
    exact hbankrupt
  · rw [hafter]
    cases o with
    | get =>
      cases hredis : stores.redis with
      | none =>
        have hsame : noteText text (⟨.get, (exec stores .get ambient).2⟩ : Act (Op τ) (Ans τ)) =
            text := by
          show noteText text ⟨.get, stores.redis⟩ = text
          rw [hredis]
          rfl
        rw [← hredis]
        exact h t (hsame.symm.trans ht) hbankrupt
      | some read =>
        have hread : noteText text (⟨.get, (exec stores .get ambient).2⟩ : Act (Op τ) (Ans τ)) =
            some read := by
          show noteText text ⟨.get, stores.redis⟩ = some read
          rw [hredis]
          rfl
        cases hread.symm.trans ht
        exact hbankrupt
    | set value => exact absurd rfl (hset value)
    | eval expected next =>
      have hsame : noteText text
          ⟨.eval expected next, (exec stores (.eval expected next) ambient).2⟩ = text := by
        refine if_neg ?_
        rw [show hasWritten _ = false from hact]
        exact Bool.false_ne_true
      exact h t (hsame.symm.trans ht) hbankrupt
    | _ => exact h t ht hbankrupt

theorem isFinalized_exec (stores : Stores τ) (o : Op τ) (ambient : Ambient) :
    isFinalized (⟨o, (exec stores o ambient).2⟩ : Act (Op τ) (Ans τ)) = true ↔
      isFinalization o = true ∧ ambient.failure = none := by
  cases o with
  | finalizeFinishedGame state events =>
    unfold exec unlessFailing
    cases ambient.failure with
    | none => exact ⟨fun _ => ⟨rfl, rfl⟩, fun _ => rfl⟩
    | some error => exact ⟨nofun, nofun⟩
  | _ => exact ⟨nofun, nofun⟩

/-- What the request does to the game it has found. -/
theorem HostInv.leave_store (h : HostInv json room player world p q) {gameId : GameId}
    (hgame : p.game = some gameId) (hleft : p.left = false) (o : Op τ) :
    HostInv json room player (roomsExec world (.store gameId o) g).1
      (p.note room.hostUserId ⟨.store gameId o, (roomsExec world (.store gameId o) g).2⟩) q := by
  obtain ⟨hnil, hthere⟩ := h.leave.clean hleft
  have hhas := h.leave.game gameId hgame
  unfold roomsExec storeExec
  dsimp only
  generalize (if isFinalization o = true ∧ world.gameLocked gameId = true then
    { g.toAmbient with failure := some .database } else g.toAmbient) = ambient
  have hfinalized := isFinalized_exec (world.stores gameId) o ambient
  have hlive := noteText_live json (world.stores gameId) o ambient player.id
    fun t ht => h.leave.live gameId t hgame ht
  generalize exec (world.stores gameId) o ambient = result at hfinalized hlive
  obtain ⟨stores, answer⟩ := result
  have hstored : LeaveInv json room player
      { world with stores := Function.update world.stores gameId stores }
      { p with text := noteText p.text ⟨o, answer⟩ } := by
    refine { h.leave with live := fun id t hid ht => ?_, accounted := .inl hthere }
    cases hgame.symm.trans hid
    dsimp only
    rw [Function.update_self]
    exact hlive t ht
  split
  · rename_i hfinished
    have hmoves := moves_finishGame hhas
    refine ⟨h.identified.finishGame gameId, h.fits.moves hmoves, h.guarded, ?_, ?_⟩
    · have hmoved : LeaveInv json room player
          { db := { world.db with committed := world.db.committed.finishGame gameId }
            stores := Function.update world.stores gameId stores }
          { p with text := noteText p.text ⟨o, answer⟩ } := by
        refine hstored.move rfl hmoves id (fun hmem => ?_) fun _ => id
        rw [hnil] at hmem
        cases hmem
      refine { hmoved with closed := fun _ => ?_ }
      dsimp only
      rw [roomStanding_finishGame hhas]
      exact isOver_finished gameId
    · refine h.start.move rfl id hmoves fun _ hwaiting => ?_
      exact absurd (congrArg Prod.fst hwaiting) hhas.not_waiting
  · rename_i hunfinished
    refine ⟨h.identified, h.fits, h.guarded, { hstored with closed := fun hclosed => ?_ }, h.start⟩
    rcases Bool.or_eq_true_iff.mp hclosed with hclosed | hclosed
    · exact h.leave.closed hclosed
    · exact absurd (hfinalized.mp hclosed) hunfinished

/-- Every operation of the request to leave keeps the invariant. -/
theorem HostInv.leave_step (h : HostInv json room player world p q) {o : HostOp τ}
    (hmay : LeaveMay json room p o) (hspares : sparesHost json player.id world o = true) :
    HostInv json room player (roomsExec world o g).1
      (p.note room.hostUserId ⟨o, (roomsExec world o g).2⟩) q := by
  cases o with
  | findRoomByCode code =>
    obtain rfl : code = room.code := hmay
    exact h.leave_findRoomByCode g
  | findJoinedPlayer executor roomId userId =>
    obtain ⟨rfl, hroom, rfl, hleft⟩ := hmay
    exact h.leave_findJoinedPlayer g hroom hleft
  | findPlayer roomId userId => exact h.read g _
  | lockRoomByCode tx code =>
    obtain ⟨rfl, rfl, hbegun, hleft⟩ := hmay
    exact h.leave_lockRoomByCode g hbegun hleft
  | countJoinedHumanPlayers tx roomId => exact h.read g _
  | findActiveGameByRoomId executor roomId =>
    obtain ⟨rfl, hroom, hbegun, hleft⟩ := hmay
    exact h.leave_findActiveGameByRoomId g hroom hbegun hleft
  | leaveRoom tx roomId userId =>
    obtain ⟨rfl, hcancelled⟩ := hmay
    exact h.leave_leaveRoom g roomId userId hcancelled
  | cancelRoom tx roomId expected =>
    obtain ⟨rfl, hroom, rfl, hleft, hcancelled⟩ := hmay
    exact h.leave_cancelRoom g hroom hleft hcancelled hspares
  | commit tx =>
    have hown : tx = .leave := hmay.1
    subst hown
    exact h.leave_commit g hmay
  | rollback tx =>
    obtain rfl : tx = .leave := hmay
    exact h.leave_rollback g
  | ambient => exact h
  | store gameId o => exact h.leave_store g hmay.1 hmay.2 o
  | _ => exact hmay.elim

end Rules
end LivePoly
