import LivePoly.Rules.Serial
import LivePoly.Service.Rooms

/-!
# Rules.Rooms

A user is in one room, and a seat has one player. A membership is written under the locks of its
user and of its room, after both were looked at: `RoomsInv` speaks of what is committed together
with what any session has written, so it holds whichever of the sessions comes to commit. A seat
that is left and a room that is closed only ever take something away from that.
-/

namespace LivePoly
namespace Rules

open Engine Service Process Process.Proc Sessions

variable {κ τ : Type}

/-! ## What is there, or may come to be -/

/-- The row is a joined player, or is one once a session commits. -/
def MayJoin (db : RoomsDatabase κ) (player : RoomPlayerRow) : Prop :=
  (player ∈ db.committed.roomPlayers ∧ player.status = .joined) ∨
    ∃ j, RoomWrite.addPlayer player ∈ db.written j

/-- The room is waiting or active. -/
def isOpen (tables : RoomTables) (roomId : RoomId) : Bool :=
  tables.rooms.any fun row => row.id = roomId && activeRoomStatuses.contains row.status

/-- The room is waiting or active, or is there once a session commits. -/
def MayOpen (db : RoomsDatabase κ) (roomId : RoomId) : Prop :=
  isOpen db.committed roomId = true ∨
    db.committed.hasRoom roomId = false ∧
      ∃ j row, RoomWrite.addRoom row ∈ db.written j ∧ row.id = roomId

/-- The locks under which something is added. -/
def roomLocks : RoomWrite → List RoomLock
  | .addRoom row => [.room row.id]
  | .addPlayer row => .room row.roomId :: row.userId.toList.map .activeRoom
  | _ => []

/-- A write that adds no room and no player. -/
def isQuiet : RoomWrite → Bool
  | .addRoom _ | .addPlayer _ => false
  | _ => true

/-! ## What the writes do to the tables -/

section Writes

variable {tables : RoomTables} {write : RoomWrite} {writes : List RoomWrite} {roomId : RoomId}
  {player : RoomPlayerRow}

theorem hasRoom_iff : tables.hasRoom roomId = true ↔ ∃ row ∈ tables.rooms, row.id = roomId := by
  unfold RoomTables.hasRoom
  rw [List.any_eq_true]
  simp only [decide_eq_true_eq]

theorem isOpen_iff : isOpen tables roomId = true ↔
    ∃ row ∈ tables.rooms, row.id = roomId ∧ row.status ∈ activeRoomStatuses := by
  unfold isOpen
  simp only [List.any_eq_true, Bool.and_eq_true, decide_eq_true_eq, List.contains_iff_mem]

theorem rooms_map {f : RoomRow → RoomRow} (hid : ∀ row, (f row).id = row.id)
    (hstatus : ∀ row, (f row).status ∈ activeRoomStatuses → row.status ∈ activeRoomStatuses)
    {tables' : RoomTables} (hrooms : tables'.rooms = tables.rooms.map f) :
    (isOpen tables' roomId = true → isOpen tables roomId = true) ∧
      (tables'.hasRoom roomId = true ↔ tables.hasRoom roomId = true) := by
  constructor
  · intro h
    obtain ⟨row, hrow, hrowId, hopen⟩ := isOpen_iff.mp h
    rw [hrooms] at hrow
    obtain ⟨old, hold, rfl⟩ := List.mem_map.mp hrow
    exact isOpen_iff.mpr ⟨old, hold, (hid old).symm.trans hrowId, hstatus old hopen⟩
  · rw [hasRoom_iff, hasRoom_iff, hrooms]
    constructor
    · rintro ⟨row, hrow, hrowId⟩
      obtain ⟨old, hold, rfl⟩ := List.mem_map.mp hrow
      exact ⟨old, hold, (hid old).symm.trans hrowId⟩
    · rintro ⟨row, hrow, hrowId⟩
      exact ⟨f row, List.mem_map_of_mem hrow, (hid row).trans hrowId⟩

variable (tables) in
theorem updateRoom_rooms (target : RoomId) {expected : RoomStatus} (f : RoomRow → RoomRow)
    (hid : ∀ row, (f row).id = row.id)
    (hstatus : ∀ row, row.status = expected → (f row).status ∈ activeRoomStatuses →
      row.status ∈ activeRoomStatuses) :
    (isOpen (tables.updateRoom target expected f) roomId = true → isOpen tables roomId = true) ∧
      ((tables.updateRoom target expected f).hasRoom roomId = true ↔
        tables.hasRoom roomId = true) := by
  refine rooms_map (fun row => ?_) (fun row => ?_) rfl
  · split
    · exact hid row
    · rfl
  · split
    · rename_i hcond
      exact hstatus row hcond.2
    · exact id

theorem apply_rooms (hnew : ∀ row, write ≠ .addRoom row) :
    (isOpen (write.apply tables) roomId = true → isOpen tables roomId = true) ∧
      ((write.apply tables).hasRoom roomId = true ↔ tables.hasRoom roomId = true) := by
  cases write with
  | addRoom row => exact absurd rfl (hnew row)
  | addPlayer row =>
    rw [RoomWrite.apply]
    split
    · exact ⟨id, Iff.rfl⟩
    · exact ⟨id, Iff.rfl⟩
  | addGame row =>
    rw [RoomWrite.apply]
    split
    · exact ⟨id, Iff.rfl⟩
    · exact ⟨id, Iff.rfl⟩
  | addStartSnapshot | markLeft | cancelGame => exact ⟨id, Iff.rfl⟩
  | startRoom target startedAt =>
    refine updateRoom_rooms tables target
      (fun row => { row with status := .active, startedAt := some startedAt }) (fun _ => rfl) ?_
    intro row hwaiting _
    rw [hwaiting]
    exact List.mem_cons_self
  | cancelRoom target expected =>
    refine updateRoom_rooms tables target (fun row => { row with status := .cancelled })
      (fun _ => rfl) ?_
    intro row _ hopen
    simp [activeRoomStatuses] at hopen

theorem hasRoom_addRoom (row : RoomRow) :
    ((RoomWrite.addRoom row).apply tables).hasRoom roomId = true ↔
      tables.hasRoom roomId = true ∨ row.id = roomId := by
  rw [RoomWrite.apply]
  split
  · rename_i hthere
    constructor
    · exact .inl
    · rintro (h | rfl)
      · exact h
      · exact hthere
  · simp only [hasRoom_iff, List.mem_append, List.mem_singleton]
    constructor
    · rintro ⟨x, hx | rfl, hid⟩
      · exact .inl ⟨x, hx, hid⟩
      · exact .inr hid
    · rintro (⟨x, hx, hid⟩ | hid)
      · exact ⟨x, .inl hx, hid⟩
      · exact ⟨row, .inr rfl, hid⟩

theorem isOpen_addRoom {row : RoomRow}
    (h : isOpen ((RoomWrite.addRoom row).apply tables) roomId = true) :
    isOpen tables roomId = true ∨ tables.hasRoom roomId = false ∧ row.id = roomId := by
  rw [RoomWrite.apply] at h
  split at h
  · exact .inl h
  · rename_i hthere
    obtain ⟨x, hx, hid, hopen⟩ := isOpen_iff.mp h
    rcases List.mem_append.mp hx with hx | hx
    · exact .inl (isOpen_iff.mpr ⟨x, hx, hid, hopen⟩)
    · cases List.mem_singleton.mp hx
      subst hid
      exact .inr ⟨Bool.not_eq_true _ ▸ hthere, rfl⟩

theorem hasRoom_applyAll : (applyAll RoomWrite.apply writes tables).hasRoom roomId = true ↔
    tables.hasRoom roomId = true ∨ ∃ row, RoomWrite.addRoom row ∈ writes ∧ row.id = roomId := by
  induction writes generalizing tables with
  | nil => simp [applyAll]
  | cons write writes ih =>
    have hfirst := @ih (write.apply tables)
    refine hfirst.trans ?_
    by_cases hadds : ∃ row, write = .addRoom row
    · obtain ⟨row, rfl⟩ := hadds
      rw [hasRoom_addRoom]
      simp only [List.mem_cons, RoomWrite.addRoom.injEq]
      constructor
      · rintro ((h | h) | ⟨x, hx, hid⟩)
        · exact .inl h
        · exact .inr ⟨row, .inl rfl, h⟩
        · exact .inr ⟨x, .inr hx, hid⟩
      · rintro (h | ⟨x, rfl | hx, hid⟩)
        · exact .inl (.inl h)
        · exact .inl (.inr hid)
        · exact .inr ⟨x, hx, hid⟩
    · rw [not_exists] at hadds
      have hmem : ∀ row, RoomWrite.addRoom row ∈ write :: writes ↔
          RoomWrite.addRoom row ∈ writes := fun row =>
        ⟨fun h => (List.mem_cons.mp h).resolve_left fun heq => hadds row heq.symm,
          List.mem_cons_of_mem _⟩
      simp only [(apply_rooms hadds).2, hmem]

theorem isOpen_applyAll (h : isOpen (applyAll RoomWrite.apply writes tables) roomId = true) :
    isOpen tables roomId = true ∨ tables.hasRoom roomId = false ∧
      ∃ row, RoomWrite.addRoom row ∈ writes ∧ row.id = roomId := by
  induction writes generalizing tables with
  | nil => exact .inl h
  | cons write writes ih =>
    by_cases hadds : ∃ row, write = .addRoom row
    · obtain ⟨added, rfl⟩ := hadds
      rcases ih h with hopen | ⟨hno, row, hrow, hid⟩
      · rcases isOpen_addRoom hopen with hopen | ⟨hno, hid⟩
        · exact .inl hopen
        · exact .inr ⟨hno, added, List.mem_cons_self, hid⟩
      · refine .inr ⟨?_, row, List.mem_cons_of_mem _ hrow, hid⟩
        rw [← Bool.not_eq_true] at hno ⊢
        exact fun hthere => hno ((hasRoom_addRoom added).mpr (.inl hthere))
    · rw [not_exists] at hadds
      rcases ih h with hopen | ⟨hno, row, hrow, hid⟩
      · exact .inl ((apply_rooms hadds).1 hopen)
      · refine .inr ⟨?_, row, List.mem_cons_of_mem _ hrow, hid⟩
        rw [← Bool.not_eq_true] at hno ⊢
        exact fun hthere => hno ((apply_rooms hadds).2.mpr hthere)

/-- What a write leaves of the players: those that were there, perhaps marked, and one it adds. -/
theorem mem_roomPlayers_apply (h : player ∈ (write.apply tables).roomPlayers) :
    (∃ old ∈ tables.roomPlayers, old.roomId = player.roomId ∧
      (player.status = .joined → old = player)) ∨ write = .addPlayer player := by
  have hsame : player ∈ tables.roomPlayers →
      (∃ old ∈ tables.roomPlayers, old.roomId = player.roomId ∧
        (player.status = .joined → old = player)) ∨ write = .addPlayer player :=
    fun hmem => .inl ⟨player, hmem, rfl, fun _ => rfl⟩
  cases write with
  | addRoom row =>
    rw [RoomWrite.apply] at h
    split at h
    · exact hsame h
    · exact hsame h
  | addGame row =>
    rw [RoomWrite.apply] at h
    split at h
    · exact hsame h
    · exact hsame h
  | addPlayer row =>
    rw [RoomWrite.apply] at h
    split at h
    · exact hsame h
    · rcases List.mem_append.mp h with hmem | hmem
      · exact hsame hmem
      · cases List.mem_singleton.mp hmem
        exact .inr rfl
  | markLeft id =>
    obtain ⟨old, hold, rfl⟩ := List.mem_map.mp h
    split
    · exact .inl ⟨old, hold, rfl, nofun⟩
    · exact .inl ⟨old, hold, rfl, fun _ => rfl⟩
  | addStartSnapshot | startRoom | cancelRoom | cancelGame => exact hsame h

theorem mem_roomPlayers_applyAll
    (h : player ∈ (applyAll RoomWrite.apply writes tables).roomPlayers) :
    ((∃ old ∈ tables.roomPlayers, old.roomId = player.roomId ∧
      (player.status = .joined → old = player)) ∨
      ∃ added, RoomWrite.addPlayer added ∈ writes ∧ added.roomId = player.roomId ∧
        (player.status = .joined → added = player)) := by
  induction writes generalizing tables with
  | nil => exact .inl ⟨player, h, rfl, fun _ => rfl⟩
  | cons write writes ih =>
    rcases ih h with ⟨old, hold, hroom, hsame⟩ | ⟨added, hadded, hroom, hsame⟩
    · rcases mem_roomPlayers_apply hold with ⟨older, holder, holdRoom, holdSame⟩ | rfl
      · refine .inl ⟨older, holder, holdRoom.trans hroom, fun hjoined => ?_⟩
        have heq := hsame hjoined
        subst heq
        exact holdSame hjoined
      · exact .inr ⟨old, List.mem_cons_self, hroom, hsame⟩
    · exact .inr ⟨added, List.mem_cons_of_mem _ hadded, hroom, hsame⟩

theorem ids_apply (h : (tables.roomPlayers.map RoomPlayerRow.id).Nodup) :
    ((write.apply tables).roomPlayers.map RoomPlayerRow.id).Nodup := by
  cases write with
  | addRoom row | addGame row =>
    rw [RoomWrite.apply]
    split
    · exact h
    · exact h
  | addPlayer row =>
    rw [RoomWrite.apply]
    split
    · exact h
    · rename_i hnew
      dsimp only
      rw [List.map_append, List.map_singleton, List.nodup_append]
      refine ⟨h, List.nodup_singleton _, ?_⟩
      intro id hid id' hid' heq
      rw [List.mem_singleton.mp hid'] at heq
      subst heq
      obtain ⟨old, hold, hold'⟩ := List.mem_map.mp hid
      exact hnew (List.any_eq_true.mpr ⟨old, hold, decide_eq_true hold'⟩)
  | markLeft id =>
    have hids : ((RoomWrite.markLeft id).apply tables).roomPlayers.map RoomPlayerRow.id =
        tables.roomPlayers.map RoomPlayerRow.id := by
      rw [RoomWrite.apply]
      dsimp only
      rw [List.map_map]
      refine List.map_congr_left fun row _ => ?_
      dsimp only [Function.comp_apply]
      split <;> rfl
    rw [hids]
    exact h
  | addStartSnapshot | startRoom | cancelRoom | cancelGame => exact h

theorem ids_applyAll (h : (tables.roomPlayers.map RoomPlayerRow.id).Nodup) :
    ((applyAll RoomWrite.apply writes tables).roomPlayers.map RoomPlayerRow.id).Nodup := by
  induction writes generalizing tables with
  | nil => exact h
  | cons write writes ih => exact ih (ids_apply h)

theorem finishGame_rooms (gameId : GameId) :
    (isOpen (tables.finishGame gameId) roomId = true → isOpen tables roomId = true) ∧
      ((tables.finishGame gameId).hasRoom roomId = true ↔ tables.hasRoom roomId = true) := by
  refine rooms_map (fun row => ?_) (fun row => ?_) rfl
  · split
    · rfl
    · rfl
  · split
    · intro hopen
      simp [activeRoomStatuses] at hopen
    · exact id

end Writes

/-! ## What a session has done -/

structure RoomsProgress where
  /-- The user whose memberships the session has locked. -/
  user : Option UserId
  /-- The same user, once seen to be in no open room. -/
  clear : Option UserId
  /-- The room it has locked. -/
  room : Option RoomId
  /-- The room whose joined players it knows, with the seats they have. -/
  seats : Option (RoomId × List Nat)
  /-- It has not written anything. -/
  clean : Bool

namespace RoomsProgress

def start : RoomsProgress where
  user := none
  clear := none
  room := none
  seats := none
  clean := true

def note (p : RoomsProgress) : Act (RoomsOp κ τ) (RoomsAns κ τ) → RoomsProgress
  | ⟨.lockActiveRoomMembershipForUser _ userId, .ok _⟩ => { p with user := some userId }
  | ⟨.findActiveRoomForUser (some _) userId, .ok none⟩ =>
    if p.user = some userId ∧ p.clean = true then { p with clear := some userId } else p
  | ⟨.lockRoomByCode _ _, .ok (some room)⟩ => { p with room := some room.id }
  | ⟨.listJoinedPlayers _ roomId, .ok players⟩ =>
    if p.room = some roomId ∧ p.clean = true then
      { p with seats := some (roomId, players.map RoomPlayerRow.seatNumber) }
    else p
  | ⟨.insertRoom _ _ _ _, .ok room⟩ => { p with seats := some (room.id, []), clean := false }
  | ⟨.insertRoomPlayer _ _ _ _ _ seatNumber, .ok _⟩ =>
    { p with
      clear := none
      seats := p.seats.map fun (roomId, taken) => (roomId, seatNumber :: taken)
      clean := false }
  | ⟨.leaveRoom _ _ _, _⟩ | ⟨.startRoom _ _, _⟩ | ⟨.cancelRoom _ _ _, _⟩
  | ⟨.createGame _ _ _ _, _⟩ | ⟨.createStartSnapshot _ _ _, _⟩ | ⟨.cancelGame _ _, _⟩ =>
    { p with clean := false }
  | ⟨.commit _, .ok _⟩ | ⟨.rollback _, _⟩ => start
  | _ => p

end RoomsProgress

def roomsProgress (past : List (Act (RoomsOp κ τ) (RoomsAns κ τ))) : RoomsProgress :=
  past.foldl RoomsProgress.note .start

theorem roomsProgress_append (past : List (Act (RoomsOp κ τ) (RoomsAns κ τ)))
    (act : Act (RoomsOp κ τ) (RoomsAns κ τ)) :
    roomsProgress (past ++ [act]) = (roomsProgress past).note act :=
  List.foldl_concat ..

/-- The session of a statement. -/
def sessionOf : RoomsOp κ τ → Option κ
  | .lockActiveRoomMembershipForUser tx _ | .insertRoom tx _ _ _ | .insertRoomPlayer tx _ _ _ _ _
  | .lockRoomByCode tx _ | .listJoinedPlayers tx _ | .countJoinedHumanPlayers tx _
  | .leaveRoom tx _ _ | .startRoom tx _ | .cancelRoom tx _ _ | .createGame tx _ _ _
  | .createStartSnapshot tx _ _ | .cancelGame tx _ | .commit tx | .rollback tx => some tx
  | .findActiveRoomForUser executor _ | .findJoinedPlayer executor _ _
  | .findActiveGameByRoomId executor _ => executor
  | _ => none

/-- A player is added to a room whose joined players are known, on a free seat, and a user only
after being seen to be in no open room. -/
structure AddsKnown (p : RoomsProgress) (roomId : RoomId) (userId : Option UserId)
    (seatNumber : Nat) : Prop where
  seats : ∃ taken, p.seats = some (roomId, taken) ∧ seatNumber ∉ taken
  clear : ∀ user, userId = some user → p.clear = some user

/-- What a session may do after what it has done. -/
structure RoomsAllowed (k : κ) (p : RoomsProgress) (o : RoomsOp κ τ) : Prop where
  own : ∀ tx, sessionOf o = some tx → tx = k
  add : ∀ tx roomId userId playerType botDifficulty seatNumber,
    o = .insertRoomPlayer tx roomId userId playerType botDifficulty seatNumber →
      AddsKnown p roomId userId seatNumber

/-! ## The invariant -/

/-- What a session knows. -/
structure RoomsTx (db : RoomsDatabase κ) (k : κ) (p : RoomsProgress) : Prop where
  user : ∀ userId, p.user = some userId → db.holder (.activeRoom userId) = some k
  clear : ∀ userId, p.clear = some userId → db.holder (.activeRoom userId) = some k ∧
    (∀ player ∈ db.committed.roomPlayers, player.status = .joined →
      player.userId = some userId → isOpen db.committed player.roomId = false) ∧
    ∀ j player, RoomWrite.addPlayer player ∈ db.written j → player.userId ≠ some userId
  room : ∀ roomId, p.room = some roomId → db.holder (.room roomId) = some k
  seats : ∀ roomId taken, p.seats = some (roomId, taken) → db.holder (.room roomId) = some k ∧
    ∀ player, MayJoin db player → player.roomId = roomId → player.seatNumber ∈ taken
  clean : p.clean = true → db.written k = []

structure RoomsInv (db : RoomsDatabase κ) (progress : κ → RoomsProgress) : Prop where
  guarded : db.Guarded roomLocks
  ids : (db.committed.roomPlayers.map RoomPlayerRow.id).Nodup
  seats : ∀ p q, MayJoin db p → MayJoin db q → p.roomId = q.roomId →
    p.seatNumber = q.seatNumber → p.id = q.id
  seatRange : ∀ p, MayJoin db p → 1 ≤ p.seatNumber ∧ p.seatNumber ≤ 4
  users : ∀ p q userId, MayJoin db p → MayJoin db q → p.userId = some userId →
    q.userId = some userId → MayOpen db p.roomId → MayOpen db q.roomId → p.roomId = q.roomId
  rooms : ∀ player ∈ db.committed.roomPlayers, db.committed.hasRoom player.roomId = true
  newRooms : ∀ j player, RoomWrite.addPlayer player ∈ db.written j →
    db.committed.hasRoom player.roomId = true ∨
      ∃ row, RoomWrite.addRoom row ∈ db.written j ∧ row.id = player.roomId
  tx : ∀ k, RoomsTx db k (progress k)

section Steps

variable {db db' : RoomsDatabase κ} {progress : κ → RoomsProgress} {j k : κ} {p p' : RoomsProgress}

/-- Nothing is added: the other one has no more players and no more open rooms. -/
structure Shrinks (db db' : RoomsDatabase κ) : Prop where
  committed : ∀ player ∈ db'.committed.roomPlayers, player.status = .joined → MayJoin db player
  written : ∀ j write, isQuiet write = false → write ∈ db'.written j → write ∈ db.written j
  isOpen : ∀ roomId, isOpen db'.committed roomId = true → MayOpen db roomId
  hasRoom : ∀ roomId, db.committed.hasRoom roomId = true → db'.committed.hasRoom roomId = true

theorem Shrinks.mayJoin (h : Shrinks db db') {player : RoomPlayerRow}
    (hplayer : MayJoin db' player) : MayJoin db player := by
  rcases hplayer with ⟨hmem, hjoined⟩ | ⟨j, hwritten⟩
  · exact h.committed player hmem hjoined
  · exact .inr ⟨j, h.written j _ rfl hwritten⟩

theorem Shrinks.mayOpen (h : Shrinks db db') {roomId : RoomId} (hopen : MayOpen db' roomId) :
    MayOpen db roomId := by
  rcases hopen with hopen | ⟨hno, j, row, hrow, hid⟩
  · exact h.isOpen roomId hopen
  · refine .inr ⟨?_, j, row, h.written j _ rfl hrow, hid⟩
    rw [← Bool.not_eq_true] at hno ⊢
    exact fun hthere => hno (h.hasRoom roomId hthere)

/-- What a session knows stays true when nothing is added and it keeps its locks. -/
theorem RoomsTx.shrink (h : RoomsTx db j p)
    (hrooms : ∀ player ∈ db.committed.roomPlayers, db.committed.hasRoom player.roomId = true)
    (hs : Shrinks db db') (hheld : ∀ l, db.holder l = some j → db'.holder l = some j)
    (hclean : db.written j = [] → db'.written j = []) : RoomsTx db' j p where
  user userId huser := hheld _ (h.user userId huser)
  clear userId hclear := by
    obtain ⟨hholder, hclosed, hnone⟩ := h.clear userId hclear
    refine ⟨hheld _ hholder, fun player hmem hjoined huser => ?_, fun i player hwritten => ?_⟩
    · rcases hs.committed player hmem hjoined with ⟨hold, _⟩ | ⟨i, hwritten⟩
      · rw [← Bool.not_eq_true]
        intro hopen
        rcases hs.isOpen _ hopen with hopen | ⟨hno, _⟩
        · rw [hclosed player hold hjoined huser] at hopen
          cases hopen
        · rw [hrooms player hold] at hno
          cases hno
      · exact absurd huser (hnone i player hwritten)
    · exact hnone i player (hs.written i _ rfl hwritten)
  room roomId hroom := hheld _ (h.room roomId hroom)
  seats roomId taken hseats := by
    obtain ⟨hholder, htaken⟩ := h.seats roomId taken hseats
    exact ⟨hheld _ hholder, fun player hplayer => htaken player (hs.mayJoin hplayer)⟩
  clean hp := hclean (h.clean hp)

variable [DecidableEq κ]

/-- A step of one session that adds nothing. -/
theorem RoomsInv.shrink (h : RoomsInv db progress) (hs : Shrinks db db')
    (hguarded : db'.Guarded roomLocks)
    (hids : (db'.committed.roomPlayers.map RoomPlayerRow.id).Nodup)
    (hrooms : ∀ player ∈ db'.committed.roomPlayers, db'.committed.hasRoom player.roomId = true)
    (hrow : ∀ j row, db'.written j ≠ [] → RoomWrite.addRoom row ∈ db.written j →
      RoomWrite.addRoom row ∈ db'.written j)
    (hheld : ∀ j, j ≠ k → ∀ l, db.holder l = some j → db'.holder l = some j)
    (hclean : ∀ j, j ≠ k → db.written j = [] → db'.written j = [])
    (hself : RoomsTx db' k p') : RoomsInv db' (Function.update progress k p') where
  guarded := hguarded
  ids := hids
  seats p q hp hq := h.seats p q (hs.mayJoin hp) (hs.mayJoin hq)
  seatRange p hp := h.seatRange p (hs.mayJoin hp)
  users p q userId hp hq huser huser' hopen hopen' :=
    h.users p q userId (hs.mayJoin hp) (hs.mayJoin hq) huser huser' (hs.mayOpen hopen)
      (hs.mayOpen hopen')
  rooms := hrooms
  newRooms j player hplayer := by
    rcases h.newRooms j player (hs.written j _ rfl hplayer) with hthere | ⟨row, hmem, hid⟩
    · exact .inl (hs.hasRoom _ hthere)
    · exact .inr ⟨row, hrow j row (List.ne_nil_of_mem hplayer) hmem, hid⟩
  tx j := by
    by_cases hj : j = k
    · subst hj
      rw [Function.update_self]
      exact hself
    · rw [Function.update_of_ne hj]
      exact (h.tx j).shrink h.rooms hs (hheld j hj) (hclean j hj)

omit [DecidableEq κ] in
theorem shrinks_of_same (hcommitted : db'.committed = db.committed)
    (hwritten : db'.written = db.written) : Shrinks db db' where
  committed _ hmem hjoined := .inl ⟨hcommitted ▸ hmem, hjoined⟩
  written _ _ _ hmem := hwritten ▸ hmem
  isOpen _ hopen := .inl (hcommitted ▸ hopen)
  hasRoom _ hthere := hcommitted ▸ hthere

theorem RoomsInv.lockAll (h : RoomsInv db progress) {locks : List RoomLock}
    (hfree : db.areFree k locks = true) : RoomsInv (db.lockAll k locks) progress := by
  have hs : Shrinks db (db.lockAll k locks) := shrinks_of_same rfl rfl
  have hheld : ∀ j l, db.holder l = some j → (db.lockAll k locks).holder l = some j :=
    fun j l hl => Database.holder_lockAll hfree hl
  have hself : RoomsTx (db.lockAll k locks) k (progress k) :=
    (h.tx k).shrink h.rooms hs (hheld k) id
  have hinv : RoomsInv (db.lockAll k locks) (Function.update progress k (progress k)) :=
    h.shrink hs (h.guarded.lockAll hfree) h.ids h.rooms (fun _ _ _ hrow => hrow)
      (fun j _ => hheld j) (fun _ _ => id) hself
  rwa [Function.update_eq_self] at hinv

theorem RoomsInv.learn (h : RoomsInv db progress) (hself : RoomsTx db k p') :
    RoomsInv db (Function.update progress k p') :=
  h.shrink (shrinks_of_same rfl rfl) h.guarded h.ids h.rooms (fun _ _ _ hrow => hrow)
    (fun _ _ _ => id) (fun _ _ => id) hself

theorem RoomsInv.writeQuiet (h : RoomsInv db progress) {writes : List RoomWrite}
    (hquiet : ∀ write ∈ writes, isQuiet write = true) :
    RoomsInv (db.writeAll k writes) (Function.update progress k { progress k with clean := false }) := by
  have hs : Shrinks db (db.writeAll k writes) := by
    refine ⟨fun _ hmem hjoined => .inl ⟨hmem, hjoined⟩, fun j write hloud hmem => ?_,
      fun _ hopen => .inl hopen, fun _ => id⟩
    rcases Database.mem_written_writeAll.mp hmem with hold | ⟨_, hnew⟩
    · exact hold
    · rw [hquiet write hnew] at hloud
      cases hloud
  have hno : ∀ write ∈ writes, roomLocks write = [] := by
    intro write hwrite
    have hq := hquiet write hwrite
    cases write with
    | addRoom | addPlayer => cases hq
    | _ => rfl
  refine h.shrink hs ?_ h.ids h.rooms ?_ (fun _ _ _ => id) ?_ ?_
  · refine h.guarded.writeAll fun write hwrite l hl => ?_
    rw [hno write hwrite] at hl
    cases hl
  · exact fun j row _ hrow => Database.mem_written_writeAll.mpr (.inl hrow)
  · intro j hj hnil
    unfold Database.writeAll
    dsimp only
    rw [Function.update_of_ne hj, hnil]
  · have htx := h.tx k
    exact ⟨htx.user, fun userId hclear => by
      obtain ⟨hholder, hclosed, hnone⟩ := htx.clear userId hclear
      exact ⟨hholder, hclosed, fun j player hmem => hnone j player (hs.written j _ rfl hmem)⟩,
      htx.room, fun roomId taken hseats => by
        obtain ⟨hholder, htaken⟩ := htx.seats roomId taken hseats
        exact ⟨hholder, fun player hplayer => htaken player (hs.mayJoin hplayer)⟩, nofun⟩

omit [DecidableEq κ] in
theorem roomsTx_start (hnil : db.written k = []) : RoomsTx db k .start :=
  ⟨nofun, nofun, nofun, nofun, fun _ => hnil⟩

theorem RoomsInv.ended (h : RoomsInv db progress) {committed : RoomTables}
    (hplayers : ∀ player ∈ committed.roomPlayers, player.status = .joined → MayJoin db player)
    (hopen : ∀ roomId, isOpen committed roomId = true → MayOpen db roomId)
    (hthere : ∀ roomId, db.committed.hasRoom roomId = true → committed.hasRoom roomId = true)
    (hids : (committed.roomPlayers.map RoomPlayerRow.id).Nodup)
    (hrooms : ∀ player ∈ committed.roomPlayers, committed.hasRoom player.roomId = true) :
    RoomsInv ⟨committed, Function.update db.written k [], db.unlocked k⟩
      (Function.update progress k .start) := by
  refine h.shrink ⟨hplayers, fun j write _ hmem => ?_, hopen, hthere⟩ h.guarded.ended hids hrooms
    ?_ ?_ ?_ (roomsTx_start (Function.update_self ..))
  · exact (Database.mem_written_ended.mp hmem).1
  · intro j row hne hrow
    refine Database.mem_written_ended.mpr ⟨hrow, ?_⟩
    rintro rfl
    exact hne (Function.update_self ..)
  · exact fun j hj l hl => Database.unlocked_eq_some.mpr ⟨hl, hj⟩
  · intro j hj hnil
    dsimp only
    rw [Function.update_of_ne hj, hnil]

theorem RoomsInv.rollback (h : RoomsInv db progress) :
    RoomsInv (db.rollback k) (Function.update progress k .start) :=
  h.ended (fun _ hmem hjoined => .inl ⟨hmem, hjoined⟩) (fun _ => .inl) (fun _ => id) h.ids h.rooms

theorem RoomsInv.commit (h : RoomsInv db progress) :
    RoomsInv (db.commit RoomWrite.apply k) (Function.update progress k .start) := by
  refine h.ended ?_ ?_ ?_ (ids_applyAll h.ids) ?_
  · intro player hmem hjoined
    rcases mem_roomPlayers_applyAll hmem with ⟨old, hold, _, hsame⟩ | ⟨added, hadded, _, hsame⟩
    · rw [hsame hjoined] at hold
      exact .inl ⟨hold, hjoined⟩
    · rw [hsame hjoined] at hadded
      exact .inr ⟨k, hadded⟩
  · intro roomId hopen
    rcases isOpen_applyAll hopen with hopen | ⟨hno, row, hrow, hid⟩
    · exact .inl hopen
    · exact .inr ⟨hno, k, row, hrow, hid⟩
  · exact fun roomId hthere => hasRoom_applyAll.mpr (.inl hthere)
  · intro player hmem
    refine hasRoom_applyAll.mpr ?_
    rcases mem_roomPlayers_applyAll hmem with ⟨old, hold, hroom, _⟩ | ⟨added, hadded, hroom, _⟩
    · rw [← hroom]
      exact .inl (h.rooms old hold)
    · rw [← hroom]
      exact h.newRooms k added hadded

omit [DecidableEq κ] in
theorem RoomsInv.finishGame (h : RoomsInv db progress) (gameId : GameId) :
    RoomsInv { db with committed := db.committed.finishGame gameId } progress := by
  have hs : Shrinks db { db with committed := db.committed.finishGame gameId } :=
    ⟨fun _ hmem hjoined => .inl ⟨hmem, hjoined⟩, fun _ _ _ => id,
      fun _ hopen => .inl ((finishGame_rooms gameId).1 hopen),
      fun _ hthere => (finishGame_rooms gameId).2.mpr hthere⟩
  exact ⟨h.guarded, h.ids, fun p q hp hq => h.seats p q (hs.mayJoin hp) (hs.mayJoin hq),
    fun p hp => h.seatRange p (hs.mayJoin hp),
    fun p q userId hp hq huser huser' hopen hopen' =>
      h.users p q userId (hs.mayJoin hp) (hs.mayJoin hq) huser huser' (hs.mayOpen hopen)
        (hs.mayOpen hopen'),
    fun player hmem => (finishGame_rooms gameId).2.mpr (h.rooms player hmem),
    fun j player hmem => (h.newRooms j player hmem).imp_left (finishGame_rooms gameId).2.mpr,
    fun j => (h.tx j).shrink h.rooms hs (fun _ => id) id⟩

omit [DecidableEq κ] in
/-- No player is in a room that a session could not see and has now locked. -/
theorem RoomsInv.roomEmpty (h : RoomsInv db progress) {roomId : RoomId}
    (hholder : db.holder (.room roomId) = some k)
    (hnew : (db.view RoomWrite.apply k).hasRoom roomId = false) {player : RoomPlayerRow}
    (hplayer : MayJoin db player) : player.roomId ≠ roomId := by
  rintro rfl
  rw [← Bool.not_eq_true] at hnew
  refine hnew (hasRoom_applyAll.mpr ?_)
  rcases hplayer with ⟨hmem, _⟩ | ⟨j, hwritten⟩
  · exact .inl (h.rooms player hmem)
  · rcases h.newRooms j player hwritten with hthere | ⟨row, hrow, hid⟩
    · exact .inl hthere
    · have hj := h.guarded j _ hrow (.room row.id) List.mem_cons_self
      rw [hid, hholder] at hj
      cases hj
      exact .inr ⟨row, hrow, hid⟩

theorem RoomsInv.addRoom (h : RoomsInv db progress) {row : RoomRow}
    (hholder : db.holder (.room row.id) = some k)
    (hnew : (db.view RoomWrite.apply k).hasRoom row.id = false) :
    RoomsInv (db.writeAll k [.addRoom row]) (Function.update progress k
      { progress k with seats := some (row.id, []), clean := false }) := by
  have hempty : ∀ player, MayJoin db player → player.roomId ≠ row.id :=
    fun player => h.roomEmpty hholder hnew
  have hadd : ∀ j player, RoomWrite.addPlayer player ∈ (db.writeAll k [.addRoom row]).written j →
      RoomWrite.addPlayer player ∈ db.written j := by
    intro j player hmem
    rcases Database.mem_written_writeAll.mp hmem with hold | ⟨_, hmem⟩
    · exact hold
    · cases List.mem_singleton.mp hmem
  have hjoin : ∀ player, MayJoin (db.writeAll k [.addRoom row]) player → MayJoin db player :=
    fun player => Or.imp_right fun ⟨j, hmem⟩ => ⟨j, hadd j player hmem⟩
  have hopened : ∀ roomId, roomId ≠ row.id → MayOpen (db.writeAll k [.addRoom row]) roomId →
      MayOpen db roomId := by
    rintro roomId hne (hopen | ⟨hno, j, other, hother, hid⟩)
    · exact .inl hopen
    · rcases Database.mem_written_writeAll.mp hother with hold | ⟨_, hmem⟩
      · exact .inr ⟨hno, j, other, hold, hid⟩
      · cases List.mem_singleton.mp hmem
        exact absurd hid.symm hne
  refine ⟨?_, h.ids, fun p q hp hq => h.seats p q (hjoin p hp) (hjoin q hq),
    fun p hp => h.seatRange p (hjoin p hp), ?_, h.rooms, ?_, fun j => ?_⟩
  · refine h.guarded.writeAll fun write hwrite l hl => ?_
    cases List.mem_singleton.mp hwrite
    cases List.mem_singleton.mp hl
    exact hholder
  · intro p q userId hp hq huser huser' hopen hopen'
    have hp' := hjoin p hp
    have hq' := hjoin q hq
    exact h.users p q userId hp' hq' huser huser' (hopened _ (hempty p hp') hopen)
      (hopened _ (hempty q hq') hopen')
  · intro j player hmem
    refine (h.newRooms j player (hadd j player hmem)).imp_right ?_
    rintro ⟨other, hother, hid⟩
    exact ⟨other, Database.mem_written_writeAll.mpr (.inl hother), hid⟩
  · have htx : RoomsTx (db.writeAll k [.addRoom row]) j { progress j with clean := false } := by
      refine ⟨(h.tx j).user, fun userId hclear => ?_, (h.tx j).room, fun roomId taken hseats => ?_,
        nofun⟩
      · obtain ⟨hheld, hclosed, hnone⟩ := (h.tx j).clear userId hclear
        exact ⟨hheld, hclosed, fun i player hmem => hnone i player (hadd i player hmem)⟩
      · obtain ⟨hheld, htaken⟩ := (h.tx j).seats roomId taken hseats
        exact ⟨hheld, fun player hplayer => htaken player (hjoin player hplayer)⟩
    by_cases hj : j = k
    · subst hj
      rw [Function.update_self]
      refine ⟨htx.user, htx.clear, htx.room, ?_, nofun⟩
      rintro _ _ ⟨⟩
      exact ⟨hholder, fun player hplayer hid => absurd hid (hempty player (hjoin player hplayer))⟩
    · rw [Function.update_of_ne hj]
      refine ⟨htx.user, htx.clear, htx.room, htx.seats, fun hclean => ?_⟩
      unfold Database.writeAll
      dsimp only
      rw [Function.update_of_ne hj]
      exact (h.tx j).clean hclean

theorem RoomsInv.addPlayer (h : RoomsInv db progress) {player : RoomPlayerRow}
    (hadd : AddsKnown (progress k) player.roomId player.userId player.seatNumber)
    (hrange : 1 ≤ player.seatNumber ∧ player.seatNumber ≤ 4)
    (hroom : (db.view RoomWrite.apply k).hasRoom player.roomId = true) :
    RoomsInv (db.writeAll k [.addPlayer player]) (Function.update progress k
      { progress k with
        clear := none
        seats := (progress k).seats.map fun known => (known.1, player.seatNumber :: known.2)
        clean := false }) := by
  obtain ⟨⟨taken, hknown, hfree⟩, hclear⟩ := hadd
  obtain ⟨hroomLock, htaken⟩ := (h.tx k).seats _ _ hknown
  have hwritten : ∀ j write, write ∈ (db.writeAll k [.addPlayer player]).written j ↔
      write ∈ db.written j ∨ j = k ∧ write = .addPlayer player := by
    intro j write
    rw [Database.mem_written_writeAll, List.mem_singleton]
  have hjoin : ∀ other, MayJoin (db.writeAll k [.addPlayer player]) other →
      MayJoin db other ∨ other = player := by
    rintro other (hcommitted | ⟨j, hmem⟩)
    · exact .inl (.inl hcommitted)
    · rcases (hwritten j _).mp hmem with hold | ⟨_, hsame⟩
      · exact .inl (.inr ⟨j, hold⟩)
      · cases hsame
        exact .inr rfl
  have hopened : ∀ roomId, MayOpen (db.writeAll k [.addPlayer player]) roomId →
      MayOpen db roomId := by
    rintro roomId (hopen | ⟨hno, j, row, hrow, hid⟩)
    · exact .inl hopen
    · rcases (hwritten j _).mp hrow with hold | ⟨_, hsame⟩
      · exact .inr ⟨hno, j, row, hold, hid⟩
      · cases hsame
  -- The seat is not that of any other player, and the user is in no open room.
  have hseat : ∀ other, MayJoin db other → other.roomId = player.roomId →
      other.seatNumber ≠ player.seatNumber := by
    intro other hother hsame heq
    exact hfree (heq ▸ htaken other hother hsame)
  have hclosed : ∀ other userId, MayJoin db other → player.userId = some userId →
      other.userId = some userId → ¬ MayOpen db other.roomId := by
    intro other userId hother huser hotherUser hopen
    obtain ⟨_, hcommitted, hnone⟩ := (h.tx k).clear userId (hclear userId huser)
    rcases hother with ⟨hmem, hjoined⟩ | ⟨j, hmem⟩
    · rcases hopen with hopen | ⟨hno, _⟩
      · rw [hcommitted other hmem hjoined hotherUser] at hopen
        cases hopen
      · rw [h.rooms other hmem] at hno
        cases hno
    · exact hnone j other hmem hotherUser
  refine ⟨?_, h.ids, ?_, ?_, ?_, h.rooms, ?_, fun j => ?_⟩
  · refine h.guarded.writeAll fun write hwrite l hl => ?_
    cases List.mem_singleton.mp hwrite
    rcases List.mem_cons.mp hl with rfl | hl
    · exact hroomLock
    · obtain ⟨userId, huser, rfl⟩ := List.mem_map.mp hl
      exact ((h.tx k).clear userId (hclear userId (Option.mem_toList.mp huser))).1
  · intro p q hp hq hsame heq
    rcases hjoin p hp with hpOld | rfl
    · rcases hjoin q hq with hqOld | rfl
      · exact h.seats p q hpOld hqOld hsame heq
      · exact absurd heq (hseat p hpOld hsame)
    · rcases hjoin q hq with hqOld | rfl
      · exact absurd heq.symm (hseat q hqOld hsame.symm)
      · rfl
  · intro p hp
    rcases hjoin p hp with hpOld | rfl
    · exact h.seatRange p hpOld
    · exact hrange
  · intro p q userId hp hq huser huser' hopen hopen'
    rcases hjoin p hp with hpOld | rfl
    · rcases hjoin q hq with hqOld | rfl
      · exact h.users p q userId hpOld hqOld huser huser' (hopened _ hopen) (hopened _ hopen')
      · exact absurd (hopened _ hopen) (hclosed p userId hpOld huser' huser)
    · rcases hjoin q hq with hqOld | rfl
      · exact absurd (hopened _ hopen') (hclosed q userId hqOld huser huser')
      · rfl
  · intro j other hmem
    rcases (hwritten j _).mp hmem with hold | ⟨rfl, hsame⟩
    · refine (h.newRooms j other hold).imp_right ?_
      rintro ⟨row, hrow, hid⟩
      exact ⟨row, (hwritten j _).mpr (.inl hrow), hid⟩
    · cases hsame
      refine (hasRoom_applyAll.mp hroom).imp_right ?_
      rintro ⟨row, hrow, hid⟩
      exact ⟨row, (hwritten j _).mpr (.inl hrow), hid⟩
  · by_cases hj : j = k
    · subst hj
      rw [Function.update_self]
      refine ⟨(h.tx j).user, nofun, (h.tx j).room, ?_, nofun⟩
      rw [hknown]
      rintro _ _ ⟨⟩
      refine ⟨hroomLock, fun other hother hsame => ?_⟩
      rcases hjoin other hother with hother | rfl
      · exact List.mem_cons_of_mem _ (htaken other hother hsame)
      · exact List.mem_cons_self
    · rw [Function.update_of_ne hj]
      refine ⟨(h.tx j).user, fun userId hother => ?_, (h.tx j).room,
        fun roomId seats hother => ?_, fun hclean => ?_⟩
      · obtain ⟨hheld, hnoOpen, hnone⟩ := (h.tx j).clear userId hother
        refine ⟨hheld, hnoOpen, fun i other hmem huser => ?_⟩
        rcases (hwritten i _).mp hmem with hold | ⟨_, hsame⟩
        · exact hnone i other hold huser
        · cases hsame
          have hk := ((h.tx k).clear userId (hclear userId huser)).1
          rw [hheld] at hk
          exact hj (Option.some.inj hk)
      · obtain ⟨hheld, hseats⟩ := (h.tx j).seats roomId seats hother
        refine ⟨hheld, fun other hmem hsame => ?_⟩
        rcases hjoin other hmem with hmem | rfl
        · exact hseats other hmem hsame
        · rw [hsame, hheld] at hroomLock
          exact absurd (Option.some.inj hroomLock) hj
      · unfold Database.writeAll
        dsimp only
        rw [Function.update_of_ne hj]
        exact (h.tx j).clean hclean

end Steps

/-! ## Every statement keeps it -/

section Statements

variable [DecidableEq κ] [DecidableEq τ] {world : RoomsWorld κ τ} {progress : κ → RoomsProgress}
  {k : κ} {p : RoomsProgress} {α : Type}

theorem limitOne_eq_none {pick : Nat} {rows : List α} (h : limitOne pick rows = none) :
    rows = [] := by
  unfold limitOne at h
  rw [List.getElem?_eq_none_iff] at h
  by_contra hne
  have hpos : 0 < rows.length := List.length_pos_iff.mpr hne
  exact absurd (Nat.mod_lt pick hpos) (Nat.not_lt.mpr h)

omit [DecidableEq κ] in
theorem activeRoomsOf_eq_nil {tables : RoomTables} {userId : UserId}
    (h : tables.activeRoomsOf userId = []) {player : RoomPlayerRow}
    (hmem : player ∈ tables.roomPlayers) (hjoined : player.status = .joined)
    (huser : player.userId = some userId) : isOpen tables player.roomId = false := by
  unfold RoomTables.activeRoomsOf at h
  rw [List.flatMap_eq_nil_iff] at h
  have hnone := h player hmem
  rw [if_pos ⟨huser, hjoined⟩, List.filter_eq_nil_iff] at hnone
  rw [← Bool.not_eq_true]
  intro hopen
  obtain ⟨row, hrow, hid, hstatus⟩ := isOpen_iff.mp hopen
  refine hnone row hrow ?_
  rw [Bool.and_eq_true, decide_eq_true_eq, List.contains_iff_mem]
  exact ⟨hid, hstatus⟩

omit [DecidableEq κ] [DecidableEq τ] in
theorem RoomsTx.unclean {db : RoomsDatabase κ} (h : RoomsTx db k p) :
    RoomsTx db k { p with clean := false } :=
  ⟨h.user, h.clear, h.room, h.seats, nofun⟩

omit [DecidableEq κ] [DecidableEq τ] in
theorem RoomsInv.seen_clean (h : RoomsInv world.db progress)
    (hclean : (progress k).clean = true) : world.seen (some k) = world.db.committed := by
  show applyAll RoomWrite.apply (world.db.written k) world.db.committed = world.db.committed
  rw [(h.tx k).clean hclean]
  rfl

omit [DecidableEq τ] in
theorem RoomsInv.read (h : RoomsInv world.db progress) (g : RoomsAmbient) (rows : α)
    (hself : RoomsTx world.db k p) :
    RoomsInv (world.read g rows).1.db (Function.update progress k p) := by
  unfold RoomsWorld.read
  split
  · exact h.learn hself
  · exact h.learn hself

omit [DecidableEq τ] in
theorem RoomsInv.quietUpdate (h : RoomsInv world.db progress) (g : RoomsAmbient)
    (locks : List RoomLock) {writes : List RoomWrite}
    (hquiet : ∀ write ∈ writes, isQuiet write = true) (answer : α) :
    RoomsInv (world.update g k locks writes answer).1.db
      (Function.update progress k { progress k with clean := false }) := by
  unfold RoomsWorld.update
  split
  · exact h.learn (h.tx k).unclean
  · split
    · rename_i hfree
      exact (h.lockAll hfree).writeQuiet hquiet
    · exact h.learn (h.tx k).unclean

omit [DecidableEq τ] in
theorem RoomsInv.still (h : RoomsInv world.db progress)
    {act : Act (RoomsOp κ τ) (RoomsAns κ τ)} (hnote : (progress k).note act = progress k) :
    RoomsInv world.db (Function.update progress k ((progress k).note act)) := by
  rw [hnote, Function.update_eq_self]
  exact h

omit [DecidableEq τ] in
theorem RoomsInv.lock (h : RoomsInv world.db progress) {lock : RoomLock}
    (hfree : world.db.areFree k [lock] = true)
    (hself : (world.db.lockAll k [lock]).holder lock = some k →
      RoomsTx (world.db.lockAll k [lock]) k (progress k) → RoomsTx (world.db.lockAll k [lock]) k p) :
    RoomsInv ((world.db.lockAll k [lock]).writeAll k []) (Function.update progress k p) := by
  have hlocked := h.lockAll hfree
  rw [Database.writeAll_nil]
  exact hlocked.learn
    (hself (Database.holder_lockAll_self (List.mem_singleton.mpr rfl)) (hlocked.tx k))

/-- Every statement a session may make keeps the invariant. -/
theorem RoomsInv.step (h : RoomsInv world.db progress) {o : RoomsOp κ τ}
    (hmay : RoomsAllowed k (progress k) o) (g : RoomsAmbient) :
    RoomsInv (roomsExec world o g).1.db
      (Function.update progress k ((progress k).note ⟨o, (roomsExec world o g).2⟩)) := by
  cases o with
  | lockActiveRoomMembershipForUser tx userId =>
    obtain rfl : tx = k := hmay.own tx rfl
    unfold roomsExec RoomsWorld.update
    dsimp only
    split
    · exact h.still rfl
    · split
      · rename_i hfree
        refine h.lock hfree fun hholder htx => ?_
        refine ⟨?_, htx.clear, htx.room, htx.seats, htx.clean⟩
        rintro _ ⟨⟩
        exact hholder
      · exact h.still rfl
  | findActiveRoomForUser executor userId =>
    unfold roomsExec RoomsWorld.read
    dsimp only
    split
    · exact h.still (by cases executor <;> rfl)
    · cases executor with
      | none => exact h.still (by cases limitOne _ _ <;> rfl)
      | some tx =>
        obtain rfl : tx = k := hmay.own tx rfl
        cases hrows : limitOne g.pick ((world.seen (some tx)).activeRoomsOf userId) with
        | some row => exact h.still rfl
        | none =>
          dsimp only [RoomsProgress.note]
          split
          · rename_i hlocked
            obtain ⟨huser, hclean⟩ := hlocked
            have hnil := limitOne_eq_none hrows
            rw [h.seen_clean hclean] at hnil
            have htx := h.tx tx
            refine h.learn ⟨htx.user, ?_, htx.room, htx.seats, htx.clean⟩
            rintro _ ⟨⟩
            refine ⟨htx.user userId huser, fun player hmem hjoined hsame =>
              activeRoomsOf_eq_nil hnil hmem hjoined hsame, fun j player hmem hsame => ?_⟩
            -- Whoever adds the user holds the lock that this session holds.
            have hj := h.guarded j _ hmem (.activeRoom userId)
              (List.mem_cons_of_mem _ (List.mem_map_of_mem (Option.mem_toList.mpr hsame)))
            rw [htx.user userId huser] at hj
            cases hj
            rw [htx.clean hclean] at hmem
            cases hmem
          · rw [Function.update_eq_self]
            exact h
  | insertRoom tx code hostUserId durationMinutes =>
    obtain rfl : tx = k := hmay.own tx rfl
    unfold roomsExec RoomsWorld.update
    dsimp only
    split
    · exact h.still rfl
    · rename_i hnew
      split
      · exact h.still rfl
      · split
        · rename_i hfree
          exact (h.lockAll hfree).addRoom
            (Database.holder_lockAll_self (List.mem_singleton.mpr rfl)) (Bool.not_eq_true _ ▸ hnew)
        · exact h.still rfl
  | insertRoomPlayer tx roomId userId playerType botDifficulty seatNumber =>
    obtain rfl : tx = k := hmay.own tx rfl
    have hadd := hmay.add _ _ _ _ _ _ rfl
    unfold roomsExec RoomsWorld.update
    dsimp only
    split
    · exact h.still rfl
    · split
      · rename_i hcheck
        split
        · exact h.still rfl
        · split
          · rename_i hfree
            exact (h.lockAll hfree).addPlayer hadd hcheck.2 hcheck.1
          · exact h.still rfl
      · exact h.still rfl
  | findRoomByCode code =>
    unfold roomsExec RoomsWorld.read
    dsimp only
    split <;> exact h.still rfl
  | lockRoomByCode tx code =>
    obtain rfl : tx = k := hmay.own tx rfl
    unfold roomsExec RoomsWorld.update RoomsWorld.read
    dsimp only
    cases limitOne g.pick ((world.seen (some tx)).rooms.filter fun row => row.code = code) with
    | none =>
      dsimp only
      split <;> exact h.still rfl
    | some row =>
      dsimp only
      split
      · exact h.still rfl
      · split
        · rename_i hfree
          refine h.lock hfree fun hholder htx => ?_
          refine ⟨htx.user, htx.clear, ?_, htx.seats, htx.clean⟩
          rintro _ ⟨⟩
          exact hholder
        · exact h.still rfl
  | findJoinedPlayer executor roomId userId =>
    unfold roomsExec RoomsWorld.read
    dsimp only
    split <;> exact h.still rfl
  | findPlayer roomId userId =>
    unfold roomsExec RoomsWorld.read
    dsimp only
    split <;> exact h.still rfl
  | listJoinedPlayers tx roomId =>
    obtain rfl : tx = k := hmay.own tx rfl
    unfold roomsExec RoomsWorld.read
    dsimp only
    split
    · exact h.still rfl
    · dsimp only [RoomsProgress.note]
      split
      · rename_i hlocked
        obtain ⟨hroom, hclean⟩ := hlocked
        have htx := h.tx tx
        refine h.learn ⟨htx.user, htx.clear, htx.room, ?_, htx.clean⟩
        rintro _ _ ⟨⟩
        refine ⟨htx.room roomId hroom, fun player hplayer hsame => ?_⟩
        rw [h.seen_clean hclean]
        refine List.mem_map_of_mem ((List.mem_insertionSort _).mpr ?_)
        rcases hplayer with ⟨hmem, hjoined⟩ | ⟨j, hmem⟩
        · exact List.mem_filter.mpr ⟨hmem, by simp [hsame, hjoined]⟩
        · -- Whoever adds a player to the room holds its lock, which this session holds.
          have hj := h.guarded j _ hmem (.room player.roomId) List.mem_cons_self
          rw [hsame, htx.room roomId hroom] at hj
          cases hj
          rw [htx.clean hclean] at hmem
          cases hmem
      · rw [Function.update_eq_self]
        exact h
  | countJoinedHumanPlayers tx roomId =>
    unfold roomsExec RoomsWorld.read
    dsimp only
    split <;> exact h.still rfl
  | findActiveGameByRoomId executor roomId =>
    unfold roomsExec RoomsWorld.read
    dsimp only
    split <;> exact h.still rfl
  | leaveRoom tx roomId userId =>
    obtain rfl : tx = k := hmay.own tx rfl
    refine h.quietUpdate g _ (fun write hwrite => ?_) _
    obtain ⟨_, _, rfl⟩ := List.mem_map.mp hwrite
    rfl
  | startRoom tx roomId =>
    obtain rfl : tx = k := hmay.own tx rfl
    unfold roomsExec
    dsimp only
    split
    · exact h.read g _ (h.tx tx).unclean
    · exact h.quietUpdate g _ (fun write hwrite => by cases List.mem_singleton.mp hwrite; rfl) _
  | cancelRoom tx roomId expected =>
    obtain rfl : tx = k := hmay.own tx rfl
    unfold roomsExec
    dsimp only
    split
    · exact h.read g _ (h.tx tx).unclean
    · exact h.quietUpdate g _ (fun write hwrite => by cases List.mem_singleton.mp hwrite; rfl) _
  | findWaitingRooms cutoff =>
    unfold roomsExec RoomsWorld.read
    dsimp only
    split <;> exact h.still rfl
  | createGame tx roomId mode expiresAt =>
    obtain rfl : tx = k := hmay.own tx rfl
    unfold roomsExec
    dsimp only
    split
    · exact h.learn (h.tx tx).unclean
    · exact h.quietUpdate g _ (fun write hwrite => by cases List.mem_singleton.mp hwrite; rfl) _
  | createStartSnapshot tx gameId state =>
    obtain rfl : tx = k := hmay.own tx rfl
    exact h.quietUpdate g _ (fun write hwrite => by cases List.mem_singleton.mp hwrite; rfl) _
  | cancelGame tx gameId =>
    obtain rfl : tx = k := hmay.own tx rfl
    unfold roomsExec
    dsimp only
    split
    · exact h.read g _ (h.tx tx).unclean
    · exact h.quietUpdate g _ (fun write hwrite => by cases List.mem_singleton.mp hwrite; rfl) _
  | commit tx =>
    obtain rfl : tx = k := hmay.own tx rfl
    unfold roomsExec
    dsimp only
    split
    · exact h.still rfl
    · exact h.commit
  | rollback tx =>
    obtain rfl : tx = k := hmay.own tx rfl
    exact h.rollback
  | ambient => exact h.still rfl
  | store gameId o =>
    have hnote : (progress k).note ⟨.store gameId o, (roomsExec world (.store gameId o) g).2⟩ =
        progress k := rfl
    rw [hnote, Function.update_eq_self]
    unfold roomsExec storeExec
    dsimp only
    generalize (if isFinalization o = true ∧ world.gameLocked gameId = true then
      { g.toAmbient with failure := some .database } else g.toAmbient) = ambient
    split
    · exact h.finishGame gameId
    · exact h
  | setState gameId text =>
    unfold roomsExec
    dsimp only
    split <;> exact h.still rfl
  | deleteState gameId =>
    unfold roomsExec
    dsimp only
    split <;> exact h.still rfl
  | enqueueTurnTimer gameId state =>
    unfold roomsExec RoomsWorld.read
    dsimp only
    split <;> exact h.still rfl
  | enqueueGameExpiry gameId expiresAt =>
    unfold roomsExec RoomsWorld.read
    dsimp only
    split <;> exact h.still rfl

end Statements

/-! ## The services -/

section Services

variable {k : κ} {p : RoomsProgress} {past : List (Act (RoomsOp κ τ) (RoomsAns κ τ))} {α β : Type}

/-- What a session may do. -/
def RoomsMay (k : κ) (past : List (Act (RoomsOp κ τ) (RoomsAns κ τ))) (o : RoomsOp κ τ) : Prop :=
  RoomsAllowed k (roomsProgress past) o

/-- Within a transaction only what may be done is done. -/
abbrev Runs (k : κ) (past : List (Act (RoomsOp κ τ) (RoomsAns κ τ))) (task : RoomsTask κ τ α) :
    Prop :=
  Abides (RoomsMay k) (fun _ _ => True) past task

/-- Only what may be done is done, and in the end the session is where it began. -/
def Still (k : κ) (p : RoomsProgress) (task : RoomsTask κ τ α) : Prop :=
  ∀ past, roomsProgress past = p →
    Abides (RoomsMay k) (fun past' _ => roomsProgress past' = p) past task

theorem still_pure (a : α) : Still k p (pure a : RoomsTask κ τ α) := fun _ hp => keeps_pure hp

theorem still_throw (e : RoomsError) : Still k p (throw e : RoomsTask κ τ α) :=
  fun _ hp => keeps_throw hp

theorem Still.bind {task : RoomsTask κ τ α} {f : α → RoomsTask κ τ β} (h : Still k p task)
    (hf : ∀ a, Still k p (f a)) : Still k p (task >>= f) :=
  fun past hp => keeps_bind _ (h past hp) (fun _ _ => id) fun past' a hp' => hf a past' hp'

theorem Still.handle {task : RoomsTask κ τ α} {f : RoomsError → RoomsTask κ τ α}
    (h : Still k p task) (hf : ∀ e, Still k p (f e)) : Still k p (tryCatch task f) :=
  fun past hp => keeps_handle _ (h past hp) (fun _ _ => id) fun past' e hp' => hf e past' hp'

theorem still_statement {o : RoomsOp κ τ} (hown : sessionOf o = none)
    (hadd : ∀ tx roomId userId playerType botDifficulty seatNumber,
      o ≠ .insertRoomPlayer tx roomId userId playerType botDifficulty seatNumber)
    (hnote : ∀ q answer, RoomsProgress.note q ⟨o, answer⟩ = q)
    (answer : RoomsAns κ τ o → Except DatabaseError α) : Still k p (roomsStatement o answer) := by
  intro past hp
  refine keeps_perform ⟨fun tx htx => ?_, fun _ _ _ _ _ _ heq => (hadd _ _ _ _ _ _ heq).elim⟩ fun a => ?_
  · rw [hown] at htx
    cases htx
  · refine keeps_lift ?_
    rw [roomsProgress_append, hnote, hp]

theorem still_ambient : Still k p (readRoomsAmbient : RoomsTask κ τ Ambient) := by
  intro past hp
  refine ⟨⟨nofun, nofun⟩, fun a => ?_⟩
  show roomsProgress (past ++ [⟨RoomsOp.ambient, a⟩]) = p
  rw [roomsProgress_append, hp]
  rfl

theorem still_ofGame (gameId : GameId) (task : Task τ α) :
    Still k p (ofGame gameId task : RoomsTask κ τ α) := by
  induction task with
  | ret a => exact fun _ hp => hp
  | fail e => exact fun _ hp => hp
  | op o next ih =>
    refine fun past hp => ⟨⟨nofun, nofun⟩, fun a => ih a _ ?_⟩
    rw [roomsProgress_append, hp]
    rfl

theorem roomsProgress_rollback (a : RoomsAns κ τ (.rollback k : RoomsOp κ τ)) :
    roomsProgress (past ++ [⟨.rollback k, a⟩]) = .start :=
  roomsProgress_append past _

theorem runs_perform {o : RoomsOp κ τ} {answer : RoomsAns κ τ o → Except DatabaseError α}
    {f : α → RoomsTask κ τ β} (hmay : RoomsAllowed k (roomsProgress past) o)
    (h : ∀ a v, answer a = .ok v → Runs k (past ++ [⟨o, a⟩]) (f v)) :
    Runs k past (roomsStatement o answer >>= f) := by
  refine ⟨hmay, fun a => ?_⟩
  show Runs k (past ++ [⟨o, a⟩]) (lift ((answer a).mapError .database) >>= f)
  cases hanswer : answer a with
  | error e => trivial
  | ok v => exact h a v hanswer

theorem runs_ambient {f : Ambient → RoomsTask κ τ β}
    (h : ∀ ambient, Runs k (past ++ [⟨.ambient, ambient⟩]) (f ambient)) :
    Runs k past (readRoomsAmbient >>= f) :=
  ⟨⟨nofun, nofun⟩, h⟩

/-- A transaction begins where nothing is done yet, and so does what comes after it. -/
theorem still_transaction {callback : RoomsTask κ τ α}
    (h : ∀ past, roomsProgress past = .start → Runs k past callback) :
    Still k .start (roomsTransaction k callback) := by
  intro past hp
  refine keeps_handle (fun past' result => ∀ a, result = .ok a → roomsProgress past' = .start)
    ?_ (fun past' a hok => hok a rfl) fun past' error _ => ?_
  · refine keeps_bind _ (h past hp) (fun _ _ _ => nofun) fun past' a _ => ?_
    refine ⟨⟨fun _ h => (Option.some.inj h).symm, nofun⟩, fun answer => ?_⟩
    cases answer with
    | error e => exact nofun
    | ok done =>
      intro _ _
      exact roomsProgress_append past' _
  · exact keeps_perform ⟨fun _ h => (Option.some.inj h).symm, nofun⟩ fun answer =>
      keeps_throw (roomsProgress_rollback answer)

section Calls

variable (json : StateCodec τ)

open RoomsLobbyService RoomsGameService RoomsExpiryService

theorem allowed_own {o : RoomsOp κ τ} (hown : sessionOf o = some k)
    (hadd : ∀ tx roomId userId playerType botDifficulty seatNumber,
      o ≠ .insertRoomPlayer tx roomId userId playerType botDifficulty seatNumber) :
    RoomsAllowed k p o := by
  refine ⟨fun tx htx => ?_, fun _ _ _ _ _ _ heq => (hadd _ _ _ _ _ _ heq).elim⟩
  rw [hown] at htx
  exact (Option.some.inj htx).symm

theorem runs_membershipChecked {userId : UserId} {f : RoomsTask κ τ α}
    (hp : roomsProgress past = .start)
    (h : ∀ past', roomsProgress past' =
      { RoomsProgress.start with user := some userId, clear := some userId } → Runs k past' f) :
    Runs k past (do
      roomsStatement (.lockActiveRoomMembershipForUser k userId) id
      ensureUserHasNoActiveRoom (some k) userId
      f) := by
  refine runs_perform (allowed_own rfl nofun) fun a _ hlock => ?_
  cases a with
  | error e => cases hlock
  | ok locked =>
    have hlocked : roomsProgress (past ++ [⟨RoomsOp.lockActiveRoomMembershipForUser k userId,
        .ok locked⟩]) = { RoomsProgress.start with user := some userId } := by
      rw [roomsProgress_append, hp]
      rfl
    refine ⟨allowed_own rfl nofun, fun a => ?_⟩
    cases a with
    | error e => trivial
    | ok room =>
      cases room with
      | some room => trivial
      | none =>
        refine h _ ?_
        rw [roomsProgress_append, hlocked]
        exact if_pos ⟨rfl, rfl⟩

theorem still_createRoomWithCode (userId : UserId) (durationMinutes : Nat) (code : String) :
    Still k .start (createRoomWithCode k userId durationMinutes code : RoomsTask κ τ RoomRow) := by
  refine still_transaction fun past hp => runs_membershipChecked hp fun past hp => ?_
  refine runs_perform (allowed_own rfl nofun) fun a room hroom => ?_
  cases a with
  | error e => cases hroom
  | ok created =>
    cases hroom
    refine runs_perform ⟨fun _ h => (Option.some.inj h).symm, ?_⟩ fun _ _ _ => trivial
    rintro _ _ _ _ _ _ ⟨⟩
    rw [roomsProgress_append, hp]
    exact ⟨⟨[], rfl, nofun⟩, fun user huser => huser⟩

theorem still_createRoomAttempts (userId : UserId) (durationMinutes : Nat) (codes : List String) :
    Still k .start (createRoomAttempts k userId durationMinutes codes : RoomsTask κ τ RoomRow) := by
  induction codes with
  | nil => exact still_throw _
  | cons code codes ih =>
    refine (still_createRoomWithCode userId durationMinutes code).handle fun error => ?_
    split
    · exact ih
    · exact still_throw _

theorem still_find {o : RoomsOp κ τ} {answer : RoomsAns κ τ o → Except DatabaseError α}
    {f : α → RoomsTask κ τ β} (hown : sessionOf o = none)
    (hadd : ∀ tx roomId userId playerType botDifficulty seatNumber,
      o ≠ .insertRoomPlayer tx roomId userId playerType botDifficulty seatNumber)
    (hnote : ∀ q answer, RoomsProgress.note q ⟨o, answer⟩ = q) (hf : ∀ a, Still k p (f a)) :
    Still k p (roomsStatement o answer >>= f) :=
  (still_statement hown hadd hnote answer).bind hf

theorem still_finalizeExpiredRoomGame (roomId : RoomId) :
    Still k p (finalizeExpiredRoomGame json roomId : RoomsTask κ τ Bool) := by
  refine still_find rfl nofun (fun _ _ => rfl) fun activeGame => ?_
  cases activeGame with
  | none => exact still_pure _
  | some activeGame =>
    refine (still_ofGame _ _).bind fun state => still_ambient.bind fun ambient => ?_
    split
    · exact still_pure _
    · split
      · exact (still_ofGame _ _).bind fun _ => still_pure _
      · split
        · exact still_pure _
        · refine ((still_ofGame _ _).bind fun _ => still_pure _).handle fun error =>
            (still_ofGame _ _).bind fun repaired => ?_
          split
          · exact still_throw _
          · exact (still_ofGame _ _).bind fun _ => still_pure _

theorem still_finalizeExpiredActiveRoomForUser (userId : UserId) :
    Still k p (finalizeExpiredActiveRoomForUser json userId : RoomsTask κ τ Unit) := by
  refine still_find rfl nofun (fun q answer => ?_) fun activeRoom => ?_
  · rcases answer with _ | _ | _ <;> rfl
  · cases activeRoom with
    | none => exact still_pure _
    | some activeRoom =>
      exact (still_finalizeExpiredRoomGame json activeRoom.id).bind fun _ => still_pure _

theorem mem_of_find_range {seats : List Nat} {seatNumber : Nat}
    (h : findFirstFreeSeat seats = some seatNumber) : seatNumber ∉ seats := by
  have hfree := List.find?_some h
  simpa using hfree

theorem note_listed {roomId : RoomId} (hroom : p.room = some roomId) (hclean : p.clean = true)
    (players : List RoomPlayerRow) :
    p.note (⟨.listJoinedPlayers k roomId, .ok players⟩ : Act (RoomsOp κ τ) (RoomsAns κ τ)) =
      { p with seats := some (roomId, players.map RoomPlayerRow.seatNumber) } :=
  if_pos ⟨hroom, hclean⟩

theorem allowed_insert {roomId : RoomId} {userId : Option UserId} {playerType : PlayerType}
    {botDifficulty : Option BotDifficulty} {seatNumber : Nat} {taken : List Nat}
    (hseats : p.seats = some (roomId, taken)) (hfree : seatNumber ∉ taken)
    (hclear : ∀ user, userId = some user → p.clear = some user) :
    RoomsAllowed k p
      (.insertRoomPlayer k roomId userId playerType botDifficulty seatNumber : RoomsOp κ τ) := by
  refine ⟨fun _ h => (Option.some.inj h).symm, ?_⟩
  rintro _ _ _ _ _ _ ⟨⟩
  exact ⟨⟨taken, hseats, hfree⟩, hclear⟩

theorem still_joinRoom (userId : UserId) (code : String) :
    Still k .start (joinRoom json k userId code : RoomsTask κ τ RoomRow) := by
  refine (still_finalizeExpiredActiveRoomForUser json userId).bind fun _ =>
    still_transaction fun past hp => runs_membershipChecked hp fun past hp => ?_
  refine runs_perform (allowed_own rfl nofun) fun a found hfound => ?_
  cases a with
  | error e => cases hfound
  | ok locked =>
    cases hfound
    cases found with
    | none => trivial
    | some room =>
      have hroom : roomsProgress (past ++ [⟨RoomsOp.lockRoomByCode k code, .ok (some room)⟩]) =
          { RoomsProgress.start with
            user := some userId, clear := some userId, room := some room.id } := by
        rw [roomsProgress_append, hp]
        rfl
      dsimp only
      split
      · trivial
      · refine runs_ambient fun ambient => ?_
        have hambient := roomsProgress_append
          (past ++ [⟨RoomsOp.lockRoomByCode k code, .ok (some room)⟩])
          (⟨.ambient, ambient⟩ : Act (RoomsOp κ τ) (RoomsAns κ τ))
        rw [hroom] at hambient
        split
        · trivial
        · refine runs_perform (allowed_own rfl nofun) fun a players hplayers => ?_
          cases a with
          | error e => cases hplayers
          | ok listed =>
            cases hplayers
            cases hseat : findFirstFreeSeat (players.map RoomPlayerRow.seatNumber) with
            | none => trivial
            | some seatNumber =>
              refine keeps_handle (fun _ _ => True) ?_ (fun _ _ _ => trivial) fun _ error _ => ?_
              · refine runs_perform ?_ fun _ _ _ => trivial
                rw [roomsProgress_append, hambient, note_listed rfl rfl]
                exact allowed_insert rfl (mem_of_find_range hseat) fun user huser => huser
              · split <;> trivial

theorem runs_own {o : RoomsOp κ τ} (hown : sessionOf o = some k)
    (hadd : ∀ tx roomId userId playerType botDifficulty seatNumber,
      o ≠ .insertRoomPlayer tx roomId userId playerType botDifficulty seatNumber)
    {answer : RoomsAns κ τ o → Except DatabaseError α} {f : α → RoomsTask κ τ β}
    (hf : ∀ past v, Runs k past (f v)) : Runs k past (roomsStatement o answer >>= f) :=
  runs_perform (allowed_own hown hadd) fun _ v _ => hf _ v

theorem still_leaveOrFindGame (userId : UserId) (code : String) (player : RoomPlayerRow) :
    Still k .start (leaveOrFindGame k userId code player : RoomsTask κ τ LeaveResult) := by
  refine still_transaction fun past hp => runs_own rfl nofun fun past locked => ?_
  cases locked with
  | none => trivial
  | some room =>
    have hgame : Runs k past (findGameToLeave k room : RoomsTask κ τ (Option (GameRow × Nat))) := by
      unfold findGameToLeave
      split
      · exact runs_own rfl nofun fun _ _ => runs_own rfl nofun fun _ _ => trivial
      · trivial
    refine keeps_bind _ hgame (fun _ _ _ => trivial) fun past game _ => ?_
    cases game with
    | none => exact runs_own rfl nofun fun _ _ => trivial
    | some game => trivial

theorem still_leaveGame (gameId : GameId) (leaveResult : LeaveResult) :
    Still k p (leaveGame json gameId leaveResult : RoomsTask κ τ Unit) := by
  unfold leaveGame
  split
  · refine (still_ofGame _ _).bind fun state => still_ambient.bind fun ambient => ?_
    split
    · exact still_ofGame _ _
    · exact (still_ofGame _ _).bind fun _ => still_pure _
  · refine ((still_ofGame _ _).bind fun _ => still_pure _).bind fun bankrupt => ?_
    split
    · exact still_pure _
    · exact (still_ofGame _ _).bind fun _ => still_pure _

theorem still_leaveRoom (userId : UserId) (code : String) :
    Still k .start (RoomsLobbyService.leaveRoom json k userId code : RoomsTask κ τ String) := by
  refine still_find rfl nofun (fun _ _ => rfl) fun found => ?_
  cases found with
  | none => exact still_throw _
  | some room =>
    refine still_find rfl nofun (fun _ _ => rfl) fun player => ?_
    cases player with
    | none =>
      refine still_find rfl nofun (fun _ _ => rfl) fun existing => ?_
      cases existing with
      | none => exact still_throw _
      | some existingPlayer =>
        dsimp only
        split
        · exact still_pure _
        · exact still_throw _
    | some player =>
      dsimp only
      split
      · refine Still.bind (still_transaction fun past hp => ?_) fun _ => still_pure _
        exact runs_own rfl nofun fun _ _ => runs_own rfl nofun fun _ _ => trivial
      · refine (still_leaveOrFindGame userId code player).bind fun leaveResult => ?_
        split
        · exact still_pure _
        · refine (still_leaveGame json _ leaveResult).bind fun _ => Still.bind ?_ fun _ => still_pure _
          refine still_transaction fun past hp => runs_own rfl nofun fun past locked => ?_
          cases locked with
          | none => trivial
          | some room => exact runs_own rfl nofun fun _ _ => trivial

theorem runs_addBotPlayers {roomId : RoomId} {botDifficulty : BotDifficulty}
    {seatNumbers taken : List Nat}
    (hseats : (roomsProgress past).seats = some (roomId, taken)) (hnodup : seatNumbers.Nodup)
    (hfree : ∀ seatNumber ∈ seatNumbers, seatNumber ∉ taken) :
    Runs k past (addBotPlayers k roomId botDifficulty seatNumbers :
      RoomsTask κ τ (List RoomPlayerRow)) := by
  induction seatNumbers generalizing past taken with
  | nil => trivial
  | cons seatNumber seatNumbers ih =>
    rw [List.nodup_cons] at hnodup
    rw [List.forall_mem_cons] at hfree
    refine runs_perform (allowed_insert hseats hfree.1 nofun) fun a bot hbot => ?_
    cases a with
    | error e => cases hbot
    | ok created =>
      have hseats' : (roomsProgress (past ++ [⟨RoomsOp.insertRoomPlayer k roomId none .bot
          (some botDifficulty) seatNumber, .ok created⟩])).seats =
          some (roomId, seatNumber :: taken) := by
        rw [roomsProgress_append]
        show (roomsProgress past).seats.map _ = _
        rw [hseats]
        rfl
      refine keeps_bind _ (ih hseats' hnodup.2 fun other hother => ?_) (fun _ _ _ => trivial)
        fun _ _ _ => trivial
      rw [List.mem_cons, not_or]
      refine ⟨?_, hfree.2 other hother⟩
      rintro rfl
      exact hnodup.1 hother

theorem buildBotPlayers_free (joinedPlayers : List RoomPlayerRow) :
    (buildBotPlayers joinedPlayers).Nodup ∧ ∀ seatNumber ∈ buildBotPlayers joinedPlayers,
      seatNumber ∉ joinedPlayers.map RoomPlayerRow.seatNumber := by
  refine ⟨(List.nodup_range' (s := 1)).filter _, fun seatNumber hmem => ?_⟩
  have hfree := (List.mem_filter.mp hmem).2
  simpa using hfree

theorem runs_bots {roomId : RoomId} {botDifficulty : BotDifficulty} {mode : GameMode}
    {players : List RoomPlayerRow} (hseats : (roomsProgress past).seats =
      some (roomId, players.map RoomPlayerRow.seatNumber)) :
    Runs k past (addBotPlayers k roomId botDifficulty
      (if mode = .casual then buildBotPlayers players else []) :
        RoomsTask κ τ (List RoomPlayerRow)) := by
  refine runs_addBotPlayers hseats ?_ ?_
  · split
    · exact (buildBotPlayers_free players).1
    · exact List.nodup_nil
  · split
    · exact (buildBotPlayers_free players).2
    · exact nofun

theorem still_startGame (userId : UserId) (code : String) (botDifficulty : BotDifficulty) :
    Still k .start (startGame k userId code botDifficulty : RoomsTask κ τ StartResult) := by
  refine still_transaction fun past hp => runs_perform (allowed_own rfl nofun) fun a found hfound => ?_
  cases a with
  | error e => cases hfound
  | ok locked =>
    cases hfound
    cases found with
    | none => trivial
    | some room =>
      have hroom : roomsProgress (past ++ [⟨RoomsOp.lockRoomByCode k code, .ok (some room)⟩]) =
          { RoomsProgress.start with room := some room.id } := by
        rw [roomsProgress_append, hp]
        rfl
      dsimp only
      split
      · trivial
      · split
        · trivial
        · refine runs_perform (allowed_own rfl nofun) fun a host hhost => ?_
          have hhostRead := roomsProgress_append
            (past ++ [⟨RoomsOp.lockRoomByCode k code, .ok (some room)⟩])
            (⟨.findJoinedPlayer (some k) room.id userId, a⟩ : Act (RoomsOp κ τ) (RoomsAns κ τ))
          rw [hroom] at hhostRead
          cases host with
          | none => trivial
          | some host =>
            refine runs_perform (allowed_own rfl nofun) fun a players hplayers => ?_
            cases a with
            | error e => cases hplayers
            | ok listed =>
              cases hplayers
              split
              · trivial
              · refine keeps_bind _ (runs_bots ?_) (fun _ _ _ => trivial) fun past bots _ => ?_
                · rw [roomsProgress_append, hhostRead, note_listed rfl rfl]
                refine runs_own rfl nofun fun past activeRoom => ?_
                cases activeRoom with
                | none => trivial
                | some activeRoom =>
                  refine runs_ambient fun ambient => keeps_bind (fun _ _ => True) (keeps_lift trivial)
                    (fun _ _ _ => trivial) fun past initialState _ => ?_
                  exact runs_own rfl nofun fun _ _ => runs_own rfl nofun fun _ _ => trivial

theorem still_startRoom (userId : UserId) (code : String) (botDifficulty : BotDifficulty) :
    Still k .start (RoomsGameService.startRoom json k userId code botDifficulty :
      RoomsTask κ τ StartResult) := by
  refine (still_startGame userId code botDifficulty).bind fun result => Still.bind ?_ fun _ =>
    still_pure _
  refine Still.handle ?_ fun error => Still.bind ?_ fun _ => still_throw _
  · refine still_find rfl nofun (fun _ _ => rfl) fun _ => ?_
    refine still_find rfl nofun (fun _ _ => rfl) fun _ => ?_
    exact still_ambient.bind fun _ => still_statement rfl nofun (fun _ _ => rfl) _
  · refine Still.bind (Still.handle (still_statement rfl nofun (fun _ _ => rfl) _) fun _ =>
      still_pure _) fun _ => still_transaction fun past hp => ?_
    exact runs_own rfl nofun fun _ _ => runs_own rfl nofun fun _ _ => trivial

theorem runs_cancelRooms (roomIds : List RoomId) :
    Runs k past (cancelRooms k roomIds : RoomsTask κ τ (List RoomRow)) := by
  induction roomIds generalizing past with
  | nil => trivial
  | cons roomId roomIds ih =>
    exact runs_own rfl nofun fun _ _ => keeps_bind _ ih (fun _ _ _ => trivial) fun _ _ _ => trivial

theorem still_expireWaitingRooms :
    Still k .start (expireWaitingRooms k : RoomsTask κ τ (List RoomRow)) := by
  refine still_ambient.bind fun ambient => still_transaction fun past hp => ?_
  exact runs_perform ⟨nofun, nofun⟩ fun _ roomIds _ => runs_cancelRooms roomIds

theorem still_expireWaitingRoom (roomId : RoomId) :
    Still k .start (expireWaitingRoom k roomId : RoomsTask κ τ (Option RoomRow)) :=
  still_transaction fun _ _ => keeps_perform (allowed_own rfl nofun) fun _ => keeps_lift trivial

end Calls

end Services

/-! ## Every interleaving -/

/-- A request or a job about rooms, or a command of a game. -/
inductive RoomsCall where
  | createRoom (userId : UserId) (durationMinutes : Nat) (codes : List String)
  | joinRoom (userId : UserId) (code : String)
  | leaveRoom (userId : UserId) (code : String)
  | startRoom (userId : UserId) (code : String) (botDifficulty : BotDifficulty)
  | expireWaitingRoom (roomId : RoomId)
  | expireWaitingRooms
  | play (gameId : GameId) (input : ExecuteGameIntentCommand)
  deriving DecidableEq

def RoomsCall.run (json : StateCodec τ) (k : κ) : RoomsCall → RoomsTask κ τ Unit
  | createRoom userId durationMinutes codes => do
    let _ ← RoomsLobbyService.createRoom json k userId durationMinutes codes
    return ()
  | joinRoom userId code => do
    let _ ← RoomsLobbyService.joinRoom json k userId code
    return ()
  | leaveRoom userId code => do
    let _ ← RoomsLobbyService.leaveRoom json k userId code
    return ()
  | startRoom userId code botDifficulty => do
    let _ ← RoomsGameService.startRoom json k userId code botDifficulty
    return ()
  | expireWaitingRoom roomId => do
    let _ ← RoomsExpiryService.expireWaitingRoom k roomId
    return ()
  | expireWaitingRooms => do
    let _ ← RoomsExpiryService.expireWaitingRooms k
    return ()
  | play gameId input => do
    let _ ← ofGame gameId (GameCommandsService.executeIntent json input)
    return ()

theorem still_call (json : StateCodec τ) (k : κ) (call : RoomsCall) :
    Still k .start (call.run json k) := by
  cases call with
  | createRoom userId durationMinutes codes =>
    exact ((still_finalizeExpiredActiveRoomForUser json userId).bind fun _ =>
      still_createRoomAttempts userId durationMinutes codes).bind fun _ => still_pure _
  | joinRoom userId code => exact (still_joinRoom json userId code).bind fun _ => still_pure _
  | leaveRoom userId code => exact (still_leaveRoom json userId code).bind fun _ => still_pure _
  | startRoom userId code botDifficulty =>
    exact (still_startRoom json userId code botDifficulty).bind fun _ => still_pure _
  | expireWaitingRoom roomId => exact (still_expireWaitingRoom roomId).bind fun _ => still_pure _
  | expireWaitingRooms => exact still_expireWaitingRooms.bind fun _ => still_pure _
  | play gameId input => exact (still_ofGame gameId _).bind fun _ => still_pure _

def emptyRooms : RoomsWorld κ τ where
  db := { committed := ⟨[], [], []⟩, written := fun _ => [], holder := fun _ => none }
  stores _ := { redis := none, snapshots := [], eventLog := [] }

/-- The calls at their start, on tables without rows. -/
def startedRooms (json : StateCodec τ) (calls : κ → RoomsCall) :
    Config κ (RoomsWorld κ τ) (RoomsOp κ τ) (RoomsAns κ τ) RoomsError Unit :=
  ⟨emptyRooms, fun k => (calls k).run json k⟩

/-- A user is a joined player of at most one waiting or active room. -/
def OneRoomPerUser (tables : RoomTables) : Prop :=
  ∀ userId, ∀ room ∈ tables.activeRoomsOf userId, ∀ room' ∈ tables.activeRoomsOf userId,
    room.id = room'.id

/-- The joined players of a room have seats of their own. -/
def OneSeatPerPlayer (tables : RoomTables) : Prop :=
  ∀ roomId, ((tables.joinedPlayers roomId).map RoomPlayerRow.seatNumber).Nodup ∧
    ∀ player ∈ tables.joinedPlayers roomId, 1 ≤ player.seatNumber ∧ player.seatNumber ≤ 4

theorem roomsInv_empty : RoomsInv (emptyRooms : RoomsWorld κ τ).db fun _ => .start where
  guarded _ _ hu := nomatch hu
  ids := List.nodup_nil
  seats p _ hp := by
    rcases hp with ⟨hmem, _⟩ | ⟨_, hmem⟩
    · cases hmem
    · cases hmem
  seatRange p hp := by
    rcases hp with ⟨hmem, _⟩ | ⟨_, hmem⟩
    · cases hmem
    · cases hmem
  users p _ _ hp := by
    rcases hp with ⟨hmem, _⟩ | ⟨_, hmem⟩
    · cases hmem
    · cases hmem
  rooms _ hmem := nomatch hmem
  newRooms _ _ hmem := nomatch hmem
  tx _ := roomsTx_start rfl

section Interleavings

variable {db : RoomsDatabase κ} {progress : κ → RoomsProgress}

theorem RoomsInv.oneRoomPerUser (h : RoomsInv db progress) : OneRoomPerUser db.committed := by
  intro userId room hroom room' hroom'
  have hopen : ∀ row ∈ db.committed.activeRoomsOf userId, ∃ player, MayJoin db player ∧
      player.userId = some userId ∧ player.roomId = row.id ∧ MayOpen db row.id := by
    intro row hrow
    obtain ⟨player, hmem, hrow⟩ := List.mem_flatMap.mp hrow
    split at hrow
    · rename_i hplayer
      obtain ⟨hrow, hcond⟩ := List.mem_filter.mp hrow
      rw [Bool.and_eq_true, decide_eq_true_eq, List.contains_iff_mem] at hcond
      exact ⟨player, .inl ⟨hmem, hplayer.2⟩, hplayer.1, hcond.1.symm,
        .inl (isOpen_iff.mpr ⟨row, hrow, rfl, hcond.2⟩)⟩
    · cases hrow
  obtain ⟨p, hp, huser, hid, hopens⟩ := hopen room hroom
  obtain ⟨q, hq, huser', hid', hopens'⟩ := hopen room' hroom'
  rw [← hid, ← hid'] at *
  exact h.users p q userId hp hq huser huser' hopens hopens'

theorem RoomsInv.oneSeatPerPlayer (h : RoomsInv db progress) : OneSeatPerPlayer db.committed := by
  intro roomId
  have hjoined : ∀ player ∈ db.committed.joinedPlayers roomId,
      MayJoin db player ∧ player.roomId = roomId := by
    intro player hmem
    obtain ⟨hmem, hcond⟩ := List.mem_filter.mp ((List.mem_insertionSort _).mp hmem)
    rw [Bool.and_eq_true, decide_eq_true_eq, decide_eq_true_eq] at hcond
    exact ⟨.inl ⟨hmem, hcond.2⟩, hcond.1⟩
  refine ⟨?_, fun player hmem => h.seatRange player (hjoined player hmem).1⟩
  -- Players with the same seat have the same id, and the ids are distinct.
  have hids : ((db.committed.joinedPlayers roomId).map RoomPlayerRow.id).Nodup := by
    have hperm := List.perm_insertionSort
      (fun left right : RoomPlayerRow => left.seatNumber ≤ right.seatNumber)
      (db.committed.roomPlayers.filter fun row => row.roomId = roomId && row.status = .joined)
    refine ((hperm.map RoomPlayerRow.id).nodup_iff).mpr ?_
    exact (List.filter_sublist.map RoomPlayerRow.id).nodup h.ids
  rw [List.Nodup, List.pairwise_map] at hids ⊢
  refine hids.imp_of_mem fun {p q} hp hq hne hseat => hne ?_
  obtain ⟨hp, hroom⟩ := hjoined p hp
  obtain ⟨hq, hroom'⟩ := hjoined q hq
  exact h.seats p q hp hq (hroom.trans hroom'.symm) hseat

variable [DecidableEq κ] [DecidableEq τ]

/-- In every interleaving of such calls, a user is in one open room and a seat has one player. -/
theorem rooms_oneEach {json : StateCodec τ} {calls : κ → RoomsCall}
    {sched : List (κ × RoomsAmbient)} {acts : List (κ × Act (RoomsOp κ τ) (RoomsAns κ τ))}
    {c' : Config κ (RoomsWorld κ τ) (RoomsOp κ τ) (RoomsAns κ τ) RoomsError Unit}
    (h : Interleaved roomsExec (startedRooms json calls) sched acts c') :
    OneRoomPerUser c'.world.db.committed ∧ OneSeatPerPlayer c'.world.db.committed := by
  have hinv : RoomsInv c'.world.db fun k => roomsProgress (doneBy k acts) := by
    refine interleaved_invariant (fun k => RoomsMay k) (fun _ _ _ => True)
      (fun world acts => RoomsInv world.db fun k => roomsProgress (doneBy k acts)) ?_ h ?_
      roomsInv_empty
    · intro world acts k o g hinv hmay
      have hnext := hinv.step hmay g
      convert hnext using 1
      funext j
      by_cases hj : j = k
      · subst hj
        rw [Function.update_self, doneBy_append, doneBy_self, roomsProgress_append]
      · rw [Function.update_of_ne hj, doneBy_append, doneBy_other (Ne.symm hj), List.append_nil]
    · exact fun k => (still_call json k (calls k) [] rfl).mono (fun _ _ => id) fun _ _ _ => trivial
  exact ⟨hinv.oneRoomPerUser, hinv.oneSeatPerPlayer⟩

end Interleavings

/-- A host, two others who join at the same time, one of them twice, and the start. -/
def threeJoin : Fin 5 → RoomsCall
  | 0 => .createRoom ⟨1⟩ 60 ["roomcode"]
  | 1 | 3 => .joinRoom ⟨2⟩ "roomcode"
  | 2 => .joinRoom ⟨3⟩ "roomcode"
  | 4 => .startRoom ⟨1⟩ "roomcode" .normal

def roomsAtFirst (n : Nat) : RoomsAmbient := { atFirst with pick := 0, id := n }

theorem threeJoin_oneEach : ∃ sched acts c',
    Interleaved roomsExec (startedRooms plainTexts threeJoin) sched acts c' ∧
    (c'.world.db.committed.joinedPlayers ⟨3⟩).map RoomPlayerRow.seatNumber = [1, 2, 3] ∧
    c'.world.db.committed.rooms.map RoomRow.status = [.active] ∧
    OneRoomPerUser c'.world.db.committed ∧ OneSeatPerPlayer c'.world.db.committed := by
  obtain ⟨⟨c', acts⟩, hplay, htest⟩ := (Option.any_eq_true _ _).mp (by decide +kernel :
    (Process.play roomsExec (startedRooms plainTexts threeJoin)
      ((List.replicate 6 0 ++ [1, 1, 2, 1, 2, 1, 1, 2, 1, 1, 1] ++ List.replicate 5 2 ++
          List.replicate 4 3 ++ List.replicate 12 4 : List (Fin 5)).zipIdx.map fun turn =>
        (turn.1, roomsAtFirst turn.2))).any (fun last =>
          (last.1.world.db.committed.joinedPlayers ⟨3⟩).map RoomPlayerRow.seatNumber = [1, 2, 3] &&
            last.1.world.db.committed.rooms.map RoomRow.status = [.active]) = true)
  obtain ⟨hseats, hrooms⟩ := (Bool.and_eq_true_iff ..).mp htest
  have hrun := play_interleaved hplay
  exact ⟨_, acts, c', hrun, of_decide_eq_true hseats, of_decide_eq_true hrooms, rooms_oneEach hrun⟩

end Rules
end LivePoly
