import LivePoly.Service.Rooms

/-!
# Rules.Standing

Where a room stands: whether it is waiting, and which games it has. Leaving and starting a room
change that in few ways (`Moves`), and what a request has once seen of it stays true.
-/

namespace LivePoly
namespace Rules

open Service Sessions

/-! ## A room and its games -/

def roomStatuses (tables : RoomTables) (roomId : RoomId) : List RoomStatus :=
  (tables.rooms.filter fun row => row.id = roomId).map RoomRow.status

def gamesOf (tables : RoomTables) (roomId : RoomId) : List (GameId × GameStatus) :=
  (tables.games.filter fun row => row.roomId = roomId).map fun row => (row.id, row.status)

/-- The statuses of a room's rows, and its games. -/
abbrev Standing : Type := List RoomStatus × List (GameId × GameStatus)

def roomStanding (roomId : RoomId) (tables : RoomTables) : Standing :=
  (roomStatuses tables roomId, gamesOf tables roomId)

/-- The room waits, or was cancelled, or has one game. -/
inductive RoomFits : Standing → Prop
  | waiting : RoomFits ([.waiting], [])
  | cancelled : RoomFits ([.cancelled], [])
  | begun (gameId : GameId) {game : GameStatus} {room : RoomStatus} (hroom : room ≠ .waiting)
      (hactive : game = .active → room = .active) : RoomFits ([room], [(gameId, game)])

/-- The room has begun the game. -/
def HasGame (gameId : GameId) (s : Standing) : Prop :=
  ∃ room game, s = ([room], [(gameId, game)]) ∧ room ≠ RoomStatus.waiting

/-- The room does not wait, and has no active game. -/
def IsOver (s : Standing) : Prop := s.1 ≠ [.waiting] ∧ ∀ game ∈ s.2, game.2 ≠ .active

/-- How the standing of a room changes. -/
inductive Moves : Standing → Standing → Prop
  | same (s) : Moves s s
  | cancelled : Moves ([.waiting], []) ([.cancelled], [])
  | started (gameId : GameId) : Moves ([.waiting], []) ([.active], [(gameId, .active)])
  | closed (gameId : GameId) {game game' : GameStatus} {room room' : RoomStatus}
      (hroom : room' ≠ .waiting) (hgame : game' ≠ .active) :
      Moves ([room], [(gameId, game)]) ([room'], [(gameId, game')])

section Moves

variable {s s' : Standing} {gameId : GameId}

theorem RoomFits.moves (h : RoomFits s) (hm : Moves s s') : RoomFits s' := by
  cases hm with
  | same => exact h
  | cancelled => exact .cancelled
  | started gameId => exact .begun gameId nofun fun _ => rfl
  | closed gameId hroom hgame => exact .begun gameId hroom fun hactive => absurd hactive hgame

theorem HasGame.moves (h : HasGame gameId s) (hm : Moves s s') : HasGame gameId s' := by
  cases hm with
  | same => exact h
  | cancelled | started =>
    obtain ⟨_, _, heq, _⟩ := h
    cases heq
  | closed gameId hroom _ =>
    obtain ⟨_, _, heq, _⟩ := h
    cases heq
    exact ⟨_, _, rfl, hroom⟩

theorem IsOver.moves (h : IsOver s) (hm : Moves s s') : IsOver s' := by
  cases hm with
  | same => exact h
  | cancelled | started => exact absurd rfl h.1
  | closed gameId hroom hgame =>
    refine ⟨fun heq => hroom (List.head_eq_of_cons_eq heq), fun game hmem => ?_⟩
    rw [List.mem_singleton.mp hmem]
    exact hgame

theorem Moves.not_waiting (hm : Moves s s') (h : s.1 ≠ [.waiting]) : s'.1 ≠ [.waiting] := by
  cases hm with
  | same => exact h
  | cancelled | started => exact absurd rfl h
  | closed gameId hroom _ => exact fun heq => hroom (List.head_eq_of_cons_eq heq)

theorem HasGame.not_waiting (h : HasGame gameId s) : s.1 ≠ [.waiting] := by
  obtain ⟨_, _, rfl, hroom⟩ := h
  exact fun heq => hroom (List.head_eq_of_cons_eq heq)

theorem HasGame.unique (h : HasGame gameId s) {game : GameId × GameStatus} (hmem : game ∈ s.2) :
    game.1 = gameId := by
  obtain ⟨_, _, rfl, _⟩ := h
  rw [List.mem_singleton.mp hmem]

theorem isOver_cancelled : IsOver ([.cancelled], []) :=
  ⟨nofun, nofun⟩

theorem isOver_finished (gameId : GameId) : IsOver ([.finished], [(gameId, .finished)]) := by
  refine ⟨nofun, fun game hmem => ?_⟩
  rw [List.mem_singleton.mp hmem]
  exact nofun

/-- A room that has begun and is not active any more has no active game. -/
theorem RoomFits.isOver (h : RoomFits s) (hwaiting : s.1 ≠ [.waiting]) (hactive : s.1 ≠ [.active]) :
    IsOver s := by
  cases h with
  | waiting => exact absurd rfl hwaiting
  | cancelled => exact isOver_cancelled
  | begun gameId hroom hgame =>
    refine ⟨hwaiting, fun game hmem hisActive => ?_⟩
    rw [List.mem_singleton.mp hmem] at hisActive
    exact hactive (congrArg (fun room => [room]) (hgame hisActive))

end Moves

/-! ## What the writes do -/

section Writes

variable {α β : Type}

theorem map_filter_map {f : α → α} {p : α → Bool} {part : α → β} {g : β → β} {l : List α}
    (hp : ∀ a, p (f a) = p a) (hpart : ∀ a ∈ l, p a = true → part (f a) = g (part a)) :
    ((l.map f).filter p).map part = ((l.filter p).map part).map g := by
  rw [List.filter_map, List.map_map, List.map_map]
  have hsame : p ∘ f = p := funext hp
  rw [hsame]
  refine List.map_congr_left fun a ha => ?_
  obtain ⟨ha, hpa⟩ := List.mem_filter.mp ha
  exact hpart a ha hpa

variable {tables tables' : RoomTables} {roomId : RoomId} {gameId : GameId} {write : RoomWrite}
  {writes : List RoomWrite}

theorem statuses_updateRoom {f : RoomRow → RoomRow} {expected status : RoomStatus}
    (hid : ∀ row, (f row).id = row.id) (hstatus : ∀ row, (f row).status = status) :
    roomStatuses (tables.updateRoom roomId expected f) roomId =
      (roomStatuses tables roomId).map fun old => if old = expected then status else old := by
  refine map_filter_map (fun row => ?_) fun row _ hrow => ?_
  · split
    · rw [hid]
    · rfl
  · have hthere : row.id = roomId := of_decide_eq_true hrow
    by_cases hexpected : row.status = expected
    · rw [if_pos ⟨hthere, hexpected⟩, if_pos hexpected, hstatus]
    · rw [if_neg (fun h => hexpected h.2), if_neg hexpected]

theorem statuses_cancelRoom (expected : RoomStatus) :
    roomStatuses ((RoomWrite.cancelRoom roomId expected).apply tables) roomId =
      (roomStatuses tables roomId).map fun old => if old = expected then .cancelled else old :=
  statuses_updateRoom (f := fun row => { row with status := .cancelled }) (fun _ => rfl)
    fun _ => rfl

theorem roomStanding_startRoom (startedAt : Nat)
    (h : roomStanding roomId tables = ([.waiting], [])) :
    roomStanding roomId ((RoomWrite.startRoom roomId startedAt).apply tables) =
      ([.active], []) := by
  have hstatuses : roomStatuses tables roomId = [.waiting] := congrArg Prod.fst h
  have hgames : gamesOf tables roomId = [] := congrArg Prod.snd h
  refine Prod.ext ((statuses_updateRoom (f := fun row =>
    { row with status := .active, startedAt := some startedAt }) (fun _ => rfl)
    fun _ => rfl).trans ?_) hgames
  rw [hstatuses]
  rfl

theorem roomStanding_cancelRoom (h : roomStanding roomId tables = ([.waiting], [])) :
    roomStanding roomId ((RoomWrite.cancelRoom roomId .waiting).apply tables) =
      ([.cancelled], []) := by
  have hstatuses : roomStatuses tables roomId = [.waiting] := congrArg Prod.fst h
  have hgames : gamesOf tables roomId = [] := congrArg Prod.snd h
  refine Prod.ext ((statuses_cancelRoom _).trans ?_) hgames
  rw [hstatuses]
  rfl

theorem roomStanding_cancelRoom_closed (h : roomStanding roomId tables = ([.cancelled], [])) :
    roomStanding roomId ((RoomWrite.cancelRoom roomId .waiting).apply tables) =
      ([.cancelled], []) := by
  have hstatuses : roomStatuses tables roomId = [.cancelled] := congrArg Prod.fst h
  have hgames : gamesOf tables roomId = [] := congrArg Prod.snd h
  refine Prod.ext ((statuses_cancelRoom _).trans ?_) hgames
  rw [hstatuses]
  rfl

theorem roomStanding_addGame {row : GameRow} (hnew : tables.hasGame row.id = false)
    (hroom : row.roomId = roomId) (h : roomStanding roomId tables = ([.active], [])) :
    roomStanding roomId ((RoomWrite.addGame row).apply tables) =
      ([.active], [(row.id, row.status)]) := by
  have hstatuses : roomStatuses tables roomId = [.active] := congrArg Prod.fst h
  have hgames : (tables.games.filter fun game => game.roomId = roomId).map
      (fun game => (game.id, game.status)) = [] := congrArg Prod.snd h
  rw [RoomWrite.apply, if_neg (by rw [hnew]; exact Bool.false_ne_true)]
  refine Prod.ext hstatuses ?_
  show ((tables.games ++ [row]).filter _).map _ = _
  rw [List.filter_append, List.map_append, hgames, List.filter_singleton, decide_eq_true hroom]
  rfl

/-- The writes with which a start takes its game back. -/
def isClosing (roomId : RoomId) (gameId : GameId) : RoomWrite → Bool
  | .cancelGame id => id = gameId
  | .cancelRoom id expected => id = roomId && expected = .active
  | _ => false

theorem roomStanding_closing {room : RoomStatus} {game : GameStatus}
    (hclosing : isClosing roomId gameId write = true)
    (h : roomStanding roomId tables = ([room], [(gameId, game)])) (hroom : room ≠ .waiting) :
    ∃ room' game', roomStanding roomId (write.apply tables) = ([room'], [(gameId, game')]) ∧
      room' ≠ .waiting ∧ (write = .cancelGame gameId ∨ game ≠ .active → game' ≠ .active) := by
  have hstatuses : roomStatuses tables roomId = [room] := congrArg Prod.fst h
  have hgames : gamesOf tables roomId = [(gameId, game)] := congrArg Prod.snd h
  cases write with
  | cancelGame id =>
    obtain rfl : id = gameId := of_decide_eq_true hclosing
    refine ⟨room, if game = .active then .cancelled else game, ?_, hroom, fun _ => ?_⟩
    · refine Prod.ext hstatuses (Eq.trans (map_filter_map (g := fun entry =>
        if entry.1 = id ∧ entry.2 = .active then (entry.1, .cancelled) else entry)
        (fun row => ?_) fun row _ _ => ?_) ?_)
      · split <;> rfl
      · split
        · rfl
        · rfl
      · refine (congrArg (List.map _) hgames).trans ?_
        by_cases hactive : game = .active
        · simp [hactive]
        · simp [hactive]
    · split
      · exact nofun
      · assumption
  | cancelRoom id expected =>
    obtain ⟨hid, hexpected⟩ := Bool.and_eq_true_iff.mp hclosing
    obtain rfl : id = roomId := of_decide_eq_true hid
    obtain rfl : expected = .active := of_decide_eq_true hexpected
    refine ⟨if room = .active then .cancelled else room, game, ?_, ?_, ?_⟩
    · refine Prod.ext ((statuses_cancelRoom _).trans ?_) hgames
      rw [hstatuses]
      rfl
    · split
      · exact nofun
      · exact hroom
    · rintro (heq | hgame)
      · cases heq
      · exact hgame
  | _ => cases hclosing

theorem roomStanding_closings {room : RoomStatus} {game : GameStatus}
    (hclosing : ∀ write ∈ writes, isClosing roomId gameId write = true)
    (h : roomStanding roomId tables = ([room], [(gameId, game)])) (hroom : room ≠ .waiting) :
    ∃ room' game', roomStanding roomId (applyAll RoomWrite.apply writes tables) =
        ([room'], [(gameId, game')]) ∧ room' ≠ .waiting ∧
      (RoomWrite.cancelGame gameId ∈ writes ∨ game ≠ .active → game' ≠ .active) := by
  induction writes generalizing tables room game with
  | nil =>
    refine ⟨room, game, h, hroom, ?_⟩
    rintro (hmem | hgame)
    · cases hmem
    · exact hgame
  | cons write writes ih =>
    rw [List.forall_mem_cons] at hclosing
    obtain ⟨room₁, game₁, h₁, hroom₁, hgame₁⟩ := roomStanding_closing hclosing.1 h hroom
    obtain ⟨room₂, game₂, h₂, hroom₂, hgame₂⟩ := ih hclosing.2 h₁ hroom₁
    refine ⟨room₂, game₂, h₂, hroom₂, ?_⟩
    rintro (hmem | hgame)
    · rcases List.mem_cons.mp hmem with rfl | hmem
      · exact hgame₂ (.inr (hgame₁ (.inl rfl)))
      · exact hgame₂ (.inl hmem)
    · exact hgame₂ (.inr (hgame₁ (.inr hgame)))

/-- What a start writes to take back its game, committed. -/
theorem moves_closing (hclosing : ∀ write ∈ writes, isClosing roomId gameId write = true)
    (h : HasGame gameId (roomStanding roomId tables))
    (hover : RoomWrite.cancelGame gameId ∈ writes ∨ IsOver (roomStanding roomId tables)) :
    Moves (roomStanding roomId tables)
      (roomStanding roomId (applyAll RoomWrite.apply writes tables)) := by
  obtain ⟨room, game, hstanding, hroom⟩ := h
  obtain ⟨room', game', hstanding', hroom', hgame'⟩ :=
    roomStanding_closings hclosing hstanding hroom
  rw [hstanding] at hover ⊢
  rw [hstanding']
  exact .closed gameId hroom' (hgame' (hover.imp_right fun h => h.2 _ (List.mem_singleton_self _)))

theorem roomStanding_finishGame (h : HasGame gameId (roomStanding roomId tables)) :
    roomStanding roomId (tables.finishGame gameId) = ([.finished], [(gameId, .finished)]) := by
  obtain ⟨room, game, hstanding, _⟩ := h
  have hstatuses : roomStatuses tables roomId = [room] := congrArg Prod.fst hstanding
  have hgames : gamesOf tables roomId = [(gameId, game)] := congrArg Prod.snd hstanding
  have hthere : (tables.games.any fun game => game.id = gameId && game.roomId = roomId) = true := by
    have hmem : (gameId, game) ∈ gamesOf tables roomId := by
      rw [hgames]
      exact List.mem_singleton_self _
    obtain ⟨row, hrow, heq⟩ := List.mem_map.mp hmem
    obtain ⟨hrow, hroom⟩ := List.mem_filter.mp hrow
    exact List.any_eq_true.mpr ⟨row, hrow, Bool.and_eq_true_iff.mpr
      ⟨decide_eq_true (congrArg Prod.fst heq), hroom⟩⟩
  refine Prod.ext ((map_filter_map (g := fun _ => .finished) (fun row => ?_)
    fun row _ hrow => ?_).trans ?_) ((map_filter_map (g := fun entry =>
      if entry.1 = gameId then (entry.1, .finished) else entry) (fun row => ?_)
    fun row _ _ => ?_).trans ?_)
  · split <;> rfl
  · have hrow : row.id = roomId := of_decide_eq_true hrow
    subst hrow
    rw [if_pos hthere]
  · exact congrArg (List.map _) hstatuses
  · split <;> rfl
  · split <;> rfl
  · refine (congrArg (List.map _) hgames).trans ?_
    simp

theorem moves_finishGame (h : HasGame gameId (roomStanding roomId tables)) :
    Moves (roomStanding roomId tables) (roomStanding roomId (tables.finishGame gameId)) := by
  rw [roomStanding_finishGame h]
  obtain ⟨room, game, hstanding, _⟩ := h
  rw [hstanding]
  exact .closed gameId nofun nofun

/-! ## Writes that leave it -/

/-- A write to the players, or to what is no table of the rooms. -/
def isOfPlayers : RoomWrite → Bool
  | .addPlayer _ | .markLeft _ | .addStartSnapshot _ _ _ => true
  | _ => false

/-- The tables a standing is read from. -/
def roomsAndGames (tables : RoomTables) : List RoomRow × List GameRow :=
  (tables.rooms, tables.games)

theorem roomStanding_congr (h : roomsAndGames tables = roomsAndGames tables') :
    roomStanding roomId tables = roomStanding roomId tables' := by
  obtain ⟨hrooms, hgames⟩ := Prod.mk.inj h
  unfold roomStanding roomStatuses gamesOf
  rw [hrooms, hgames]

theorem ofPlayers_apply (h : isOfPlayers write = true) (tables : RoomTables) :
    roomsAndGames (write.apply tables) = roomsAndGames tables := by
  cases write with
  | addPlayer row =>
    rw [RoomWrite.apply]
    split <;> rfl
  | markLeft | addStartSnapshot => rfl
  | _ => cases h

theorem ofPlayers_applyAll (h : ∀ write ∈ writes, isOfPlayers write = true) :
    roomsAndGames (applyAll RoomWrite.apply writes tables) = roomsAndGames tables :=
  applyAll_frame roomsAndGames (fun write hwrite => ofPlayers_apply (h write hwrite)) tables

/-- What the writes make of a standing depends on the rooms and the games only. -/
theorem roomStanding_applyAll_congr (h : roomsAndGames tables = roomsAndGames tables') :
    roomStanding roomId (applyAll RoomWrite.apply writes tables) =
      roomStanding roomId (applyAll RoomWrite.apply writes tables') := by
  refine roomStanding_congr (applyAll_congr roomsAndGames (fun write _ data data' heq => ?_) h)
  obtain ⟨hrooms, hgames⟩ := Prod.mk.inj heq
  cases write with
  | addPlayer | markLeft | addStartSnapshot =>
    rw [ofPlayers_apply rfl, ofPlayers_apply rfl, heq]
  | addRoom row =>
    have hthere : data.hasRoom row.id = data'.hasRoom row.id :=
      congrArg (fun rooms : List RoomRow => rooms.any fun other => other.id = row.id) hrooms
    simp only [RoomWrite.apply, hthere]
    split
    · exact heq
    · exact Prod.ext (congrArg (· ++ [row]) hrooms) hgames
  | addGame row =>
    have hthere : data.hasGame row.id = data'.hasGame row.id :=
      congrArg (fun games : List GameRow => games.any fun other => other.id = row.id) hgames
    simp only [RoomWrite.apply, hthere]
    split
    · exact heq
    · exact Prod.ext hrooms (congrArg (· ++ [row]) hgames)
  | startRoom | cancelRoom => exact Prod.ext (congrArg (List.map _) hrooms) hgames
  | cancelGame => exact Prod.ext hrooms (congrArg (List.map _) hgames)

end Writes

end Rules
end LivePoly
