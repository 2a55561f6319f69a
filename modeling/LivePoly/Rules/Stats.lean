import LivePoly.Lib.Distinct
import LivePoly.Service.Stats

/-!
# Rules.Stats

Statistics are counted once. A transaction locks the rows of its players before it records
anything, and updates the row of a player exactly when it has added the entry of the room to
`rating_history`; what it sees of a player under the lock is what the committed transactions have
left, with its own entry. So the row of a user always tells the rooms that were applied.
-/

namespace LivePoly
namespace Rules

open Engine Service Process Sessions

variable {κ : Type}

/-! ## What is applied -/

/-- The results of a finished game, as the results service builds them of its players; a ranked
game has at least `ROOM_MIN_RANKED_HUMANS` of them. -/
structure FinishedRoom extends ApplyFinishedGameStatsInput where
  results : playerResults.map RoomPlayerResult.userId = players.map GamePlayerIdentity.userId
  ranked : mode = .ranked → 3 ≤ players.length

/-- The users the results are about. -/
def FinishedRoom.users (room : FinishedRoom) : List UserId := room.userResults.map UserResult.userId

/-- The result of a user. -/
def FinishedRoom.resultOf (room : FinishedRoom) (userId : UserId) : Option UserResult :=
  room.userResults.find? fun result => result.userId = userId

/-- The transactions that were committed, in their order. -/
def committedTxs (acts : List (κ × Act (StatsOp κ) (StatsAns κ))) : List κ :=
  acts.filterMap fun act =>
    match act.2 with
    | ⟨.commit _, .ok _⟩ => some act.1
    | _ => none

section Applied

variable (rooms : κ → FinishedRoom) (txs : List κ) (userId : UserId)

/-- The transactions among them that are about the user. -/
def appliedFor : List κ := txs.filter fun k => userId ∈ (rooms k).users

/-- The distinct rooms that were applied for a user. -/
def appliedRooms : List RoomId :=
  Distinct.distinct ((appliedFor rooms txs userId).map fun k => (rooms k).roomId)

/-- The net worth that a transaction reports for a user. -/
def netWorthOf (k : κ) : Int := (((rooms k).resultOf userId).map UserResult.finalNetWorth).getD 0

/-- The net worth that was recorded: the one of the first transaction on the room. -/
def recordedNetWorth (roomId : RoomId) : Int :=
  (((appliedFor rooms txs userId).find? fun k => (rooms k).roomId = roomId).map
    (netWorthOf rooms userId)).getD 0

/-- The sum over the rooms. -/
def recordedTotal : Int :=
  ((appliedRooms rooms txs userId).map (recordedNetWorth rooms txs userId)).sum

end Applied

/-- The row tells so many games and so much net worth. -/
structure Tallied (userId : UserId) (games : Nat) (total : Int) (stats : PlayerStats) : Prop where
  user : stats.userId = userId
  games : stats.gamesPlayed = games
  places : stats.gamesPlayed =
    stats.firstPlace + stats.secondPlace + stats.thirdPlace + stats.fourthPlace
  total : stats.totalNetWorth = total
  peak : stats.currentRating ≤ stats.peakRating

theorem Tallied.count {userId : UserId} {games : Nat} {total : Int} {stats : PlayerStats}
    (h : Tallied userId games total stats) {placement : Nat} (hlow : 1 ≤ placement)
    (hhigh : placement ≤ 4) (finalNetWorth ratingAfter : Int) :
    Tallied userId (games + 1) (total + finalNetWorth)
      (GameStatsService.buildUpdatedStats stats finalNetWorth placement ratingAfter) where
  user := h.user
  games := by
    show stats.gamesPlayed + 1 = _
    rw [h.games]
  places := by
    show stats.gamesPlayed + 1 = stats.firstPlace + (if placement = 1 then 1 else 0) +
      (stats.secondPlace + if placement = 2 then 1 else 0) +
      (stats.thirdPlace + if placement = 3 then 1 else 0) +
      (stats.fourthPlace + if placement = 4 then 1 else 0)
    have hplaces := h.places
    obtain rfl | rfl | rfl | rfl : placement = 1 ∨ placement = 2 ∨ placement = 3 ∨ placement = 4 := by
      omega
    all_goals simp; omega
  total := by
    show stats.totalNetWorth + finalNetWorth = _
    rw [h.total]
  peak := Int.le_max_right ..

theorem tallied_initial (userId : UserId) : Tallied userId 0 0 (initialPlayerStats userId) :=
  ⟨rfl, rfl, rfl, rfl, Int.le_refl _⟩

/-! ## What a transaction has done -/

structure StatsProgress where
  /-- The row of a user, as the transaction has last seen it under its lock. -/
  locked : UserId → Option PlayerStats
  handled : List UserId
  recorded : List UserId
  updated : List UserId
  /-- The user of the last entry had not been handled before. -/
  first : Bool

def StatsProgress.start : StatsProgress := ⟨fun _ => none, [], [], [], true⟩

def StatsProgress.note (p : StatsProgress) : Act (StatsOp κ) (StatsAns κ) → StatsProgress
  | ⟨.selectForUpdate _ _, .ok (some row)⟩ =>
    { p with locked := Function.update p.locked row.userId (some row) }
  | ⟨.insertRatingHistory _ row, .ok inserted⟩ =>
    { p with
      handled := p.handled ++ [row.userId]
      recorded := if inserted = true then p.recorded ++ [row.userId] else p.recorded
      first := row.userId ∉ p.handled }
  | ⟨.updatePlayerStats _ row, .ok _⟩ =>
    { p with
      updated := p.updated ++ [row.userId]
      locked := Function.update p.locked row.userId (some row) }
  | ⟨.commit _, .ok _⟩ => .start
  | ⟨.rollback _, _⟩ => .start
  | _ => p

def statsProgress (past : List (Act (StatsOp κ) (StatsAns κ))) : StatsProgress :=
  past.foldl StatsProgress.note .start

theorem statsProgress_append (past : List (Act (StatsOp κ) (StatsAns κ)))
    (act : Act (StatsOp κ) (StatsAns κ)) :
    statsProgress (past ++ [act]) = (statsProgress past).note act := by
  unfold statsProgress
  rw [List.foldl_append]
  rfl

/-- The executor of a statement. -/
def executor : StatsOp κ → κ
  | .insertPlayerStats tx _ | .selectForUpdate tx _ | .insertRatingHistory tx _
  | .updatePlayerStats tx _ | .commit tx | .rollback tx => tx

/-- What a transaction may do after what it has done. -/
structure StatsAllowed (room : FinishedRoom) (tx : κ) (past : List (Act (StatsOp κ) (StatsAns κ)))
    (o : StatsOp κ) : Prop where
  own : executor o = tx
  /-- An entry is added for a locked row, after the update for the one before it. -/
  record : ∀ row, o = .insertRatingHistory tx row → row.roomId = room.roomId ∧
    ((statsProgress past).locked row.userId).isSome = true ∧
    (statsProgress past).recorded = (statsProgress past).updated ∧
    (row.userId ∉ (statsProgress past).handled → ∃ result,
      room.resultOf row.userId = some result ∧ row.placement = result.placement)
  /-- A row is updated for the entry just added, from what was seen of it. -/
  update : ∀ row, o = .updatePlayerStats tx row →
    (statsProgress past).recorded = (statsProgress past).updated ++ [row.userId] ∧
    ((statsProgress past).first = true → ∃ stats result ratingAfter,
      (statsProgress past).locked row.userId = some stats ∧
      room.resultOf row.userId = some result ∧
      row = GameStatsService.buildUpdatedStats stats result.finalNetWorth result.placement
        ratingAfter)
  /-- It is committed when all its users have been handled. -/
  commit : o = .commit tx → (statsProgress past).recorded = (statsProgress past).updated ∧
    ∀ userId ∈ room.users, userId ∈ (statsProgress past).handled

section OneTransaction

variable {room : FinishedRoom} {tx : κ} {past : List (Act (StatsOp κ) (StatsAns κ))}

theorem keeps_statement {o : StatsOp κ} {α : Type} {answer : StatsAns κ o → Except DatabaseError α}
    {may : List (Act (StatsOp κ) (StatsAns κ)) → StatsOp κ → Prop}
    {post : List (Act (StatsOp κ) (StatsAns κ)) → Except StatsError α → Prop} (hmay : may past o)
    (h : ∀ a, post (past ++ [⟨o, a⟩]) ((answer a).mapError .database)) :
    Abides may post past (statement o answer) :=
  keeps_perform hmay fun a => keeps_lift (h a)

theorem keeps_createMissingPlayerStats (userIds : List UserId)
    (hpast : statsProgress past = .start) :
    Abides (StatsAllowed room tx)
      (fun past result => result = .ok () → statsProgress past = .start) past
      (GameStatsRepository.createMissingPlayerStats tx userIds) := by
  induction userIds generalizing past with
  | nil => exact keeps_pure fun _ => hpast
  | cons userId userIds ih =>
    refine keeps_bind
      (fun past result => result = .ok () → statsProgress past = .start) ?_ ?_ ?_
    · refine keeps_statement ⟨rfl, nofun, nofun, nofun⟩ fun answer _ => ?_
      rw [statsProgress_append]
      exact hpast
    · exact fun _ _ _ herror => nomatch herror
    · exact fun past _ hok => ih (hok rfl)

theorem mapGet_cons {α : Type} (key : α → UserId) (entry : α) (entries : List α)
    (userId : UserId) : mapGet key (entry :: entries) userId =
      (mapGet key entries userId).or (if key entry = userId then some entry else none) := by
  unfold mapGet
  rw [List.filter_cons]
  by_cases hkey : key entry = userId
  · simp only [hkey, decide_true, if_true]
    rw [List.getLast?_cons]
    cases (entries.filter fun entry => key entry = userId).getLast? <;> rfl
  · simp [hkey]

theorem mapGet_isSome {α : Type} {key : α → UserId} {entries : List α} {entry : α}
    (h : entry ∈ entries) : (mapGet key entries (key entry)).isSome = true := by
  unfold mapGet
  rw [List.getLast?_isSome]
  exact List.ne_nil_of_mem (List.mem_filter.mpr ⟨h, decide_eq_true rfl⟩)

theorem mapGet_key {α : Type} {key : α → UserId} {entries : List α} {entry : α} {userId : UserId}
    (h : mapGet key entries userId = some entry) : key entry = userId := by
  have hmem := List.mem_of_getLast? h
  exact of_decide_eq_true (List.mem_filter.mp hmem).2

/-- The rows are locked, and nothing else has been done. -/
structure RowsLocked (rows : List PlayerStats) (p q : StatsProgress) : Prop where
  locked : ∀ userId, q.locked userId = (mapGet PlayerStats.userId rows userId).or (p.locked userId)
  handled : q.handled = p.handled
  recorded : q.recorded = p.recorded
  updated : q.updated = p.updated

theorem keeps_lockPlayerStats (scan : List UserId) (p : StatsProgress)
    (hpast : statsProgress past = p) :
    Abides (StatsAllowed room tx)
      (fun past result => ∀ rows, result = .ok rows → RowsLocked rows p (statsProgress past)) past
      (GameStatsRepository.lockPlayerStats tx scan) := by
  induction scan generalizing past p with
  | nil =>
    refine keeps_pure ?_
    rintro _ ⟨⟩
    rw [hpast]
    exact ⟨fun _ => rfl, rfl, rfl, rfl⟩
  | cons userId scan ih =>
    refine keeps_bind (fun past result => ∀ row, result = .ok row →
      RowsLocked row.toList p (statsProgress past)) ?_ ?_ ?_
    · refine keeps_statement ⟨rfl, nofun, nofun, nofun⟩ fun answer row hrow => ?_
      rw [statsProgress_append, hpast]
      rcases answer with error | _ | row'
      · cases hrow
      · cases hrow
        exact ⟨fun _ => rfl, rfl, rfl, rfl⟩
      · cases hrow
        refine ⟨fun other => ?_, rfl, rfl, rfl⟩
        show Function.update p.locked row'.userId (some row') other = _
        rw [Option.toList_some, mapGet_cons]
        by_cases hother : row'.userId = other
        · subst hother
          rw [Function.update_self, if_pos rfl]
          rfl
        · rw [Function.update_of_ne (Ne.symm hother), if_neg hother]
          rfl
    · exact fun _ _ _ _ herror => nomatch herror
    · intro past row hrow
      refine keeps_bind _ (ih (statsProgress past) rfl) ?_ ?_
      · exact fun _ _ _ _ herror => nomatch herror
      · intro past' rows hrows
        refine keeps_pure ?_
        rintro _ ⟨⟩
        have hfirst := hrow row rfl
        have hrest := hrows rows rfl
        refine ⟨fun other => ?_, ?_, ?_, ?_⟩
        · rw [hrest.locked, hfirst.locked]
          cases row with
          | none =>
            rw [Option.toList_none, List.nil_append]
            rfl
          | some row =>
            rw [Option.toList_some, List.singleton_append, mapGet_cons, mapGet_cons]
            cases mapGet PlayerStats.userId rows other <;> rfl
        · rw [hrest.handled, hfirst.handled]
        · rw [hrest.recorded, hfirst.recorded]
        · rw [hrest.updated, hfirst.updated]

/-- What is known before each turn of the loop over the results. -/
structure Recording (room : FinishedRoom) (currentStats : List PlayerStats)
    (done : List UserResult) (p : StatsProgress) : Prop where
  even : p.recorded = p.updated
  done : ∀ result ∈ done, result.userId ∈ p.handled
  locked : ∀ userId stats, mapGet PlayerStats.userId currentStats userId = some stats →
    (p.locked userId).isSome = true ∧ (userId ∉ p.handled → p.locked userId = some stats)

theorem resultOf_of_split {done results : List UserResult} {result : UserResult}
    (hsplit : room.userResults = done ++ result :: results)
    (hnew : ∀ other ∈ done, other.userId ≠ result.userId) :
    room.resultOf result.userId = some result := by
  unfold FinishedRoom.resultOf
  rw [hsplit, List.find?_append, List.find?_eq_none.mpr, Option.none_or, List.find?_cons]
  · simp
  · intro other hother
    simpa using hnew other hother

theorem keeps_recordResults {currentStats : List PlayerStats} {changes : List RatingChange}
    (hstats : ∀ result ∈ room.userResults,
      (mapGet PlayerStats.userId currentStats result.userId).isSome = true)
    (hchanges : ∀ result ∈ room.userResults,
      (mapGet RatingChange.userId changes result.userId).isSome = true)
    {done results : List UserResult} (hsplit : room.userResults = done ++ results)
    (hpast : Recording room currentStats done (statsProgress past)) :
    Abides (StatsAllowed room tx)
      (fun past result => result = .ok () →
        Recording room currentStats room.userResults (statsProgress past)) past
      (GameStatsService.recordResults tx room.roomId currentStats changes results) := by
  induction results generalizing past done with
  | nil =>
    rw [List.append_nil] at hsplit
    subst hsplit
    exact keeps_pure fun _ => hpast
  | cons result results ih =>
    have hmem : result ∈ room.userResults := by
      rw [hsplit]
      exact List.mem_append_right _ List.mem_cons_self
    obtain ⟨stats, hfound⟩ := Option.isSome_iff_exists.mp (hstats result hmem)
    obtain ⟨change, hchange⟩ := Option.isSome_iff_exists.mp (hchanges result hmem)
    obtain ⟨hlocked, hseen⟩ := hpast.locked result.userId stats hfound
    have hresult : result.userId ∉ (statsProgress past).handled →
        room.resultOf result.userId = some result := by
      intro hnew
      refine resultOf_of_split hsplit fun other hother heq => hnew ?_
      rw [← heq]
      exact hpast.done other hother
    have hsplit' : room.userResults = (done ++ [result]) ++ results := by
      rw [hsplit, List.append_assoc, List.singleton_append]
    have hrecording : ∀ p : StatsProgress, p.recorded = p.updated →
        p.handled = (statsProgress past).handled ++ [result.userId] →
        (∀ userId, (p.locked userId).isSome = ((statsProgress past).locked userId).isSome) →
        (∀ userId, userId ≠ result.userId →
          p.locked userId = (statsProgress past).locked userId) →
        Recording room currentStats (done ++ [result]) p := by
      intro p heven hhandled hsome hother
      refine ⟨heven, fun other hmem => ?_, fun userId st hst => ?_⟩
      · rw [hhandled]
        rcases List.mem_append.mp hmem with hmem | hmem
        · exact List.mem_append_left _ (hpast.done other hmem)
        · cases List.mem_singleton.mp hmem
          exact List.mem_append_right _ (List.mem_singleton.mpr rfl)
      · obtain ⟨hold, hkeep⟩ := hpast.locked userId st hst
        refine ⟨(hsome userId).trans hold, fun hnew => ?_⟩
        rw [hhandled] at hnew
        rw [hother userId fun heq => hnew (List.mem_append_right _ (List.mem_singleton.mpr heq))]
        exact hkeep fun hmem => hnew (List.mem_append_left _ hmem)
    unfold GameStatsService.recordResults
    rw [hfound, hchange]
    refine keeps_bind (fun past' answer => ∀ inserted, answer = .ok inserted →
      statsProgress past' = { statsProgress past with
        handled := (statsProgress past).handled ++ [result.userId]
        recorded := if inserted = true then (statsProgress past).recorded ++ [result.userId]
          else (statsProgress past).recorded
        first := result.userId ∉ (statsProgress past).handled }) ?_ ?_ ?_
    · refine keeps_statement ⟨rfl, ?_, nofun, nofun⟩ fun answer inserted hinserted => ?_
      · rintro row ⟨⟩
        exact ⟨rfl, hlocked, hpast.even, fun hnew => ⟨result, hresult hnew, rfl⟩⟩
      · rw [statsProgress_append]
        cases answer with
        | error => cases hinserted
        | ok b =>
          cases hinserted
          rfl
    · exact fun _ _ _ herror => nomatch herror
    · intro past' inserted hinserted
      have hnote := hinserted inserted rfl
      cases inserted with
      | false =>
        refine ih hsplit' (hrecording _ ?_ ?_ ?_ ?_)
        · rw [hnote]
          exact hpast.even
        · rw [hnote]
        · rw [hnote]
          exact fun _ => rfl
        · rw [hnote]
          exact fun _ _ => rfl
      | true =>
        have huser : stats.userId = result.userId := mapGet_key hfound
        refine keeps_bind (fun past'' answer => answer = .ok () →
          statsProgress past'' = { statsProgress past' with
            updated := (statsProgress past').updated ++ [result.userId]
            locked := Function.update (statsProgress past').locked result.userId
              (some (GameStatsService.buildUpdatedStats stats result.finalNetWorth
                result.placement change.ratingAfter)) }) ?_ ?_ ?_
        · refine keeps_statement ⟨rfl, nofun, ?_, nofun⟩ fun answer hanswer => ?_
          · rintro row ⟨⟩
            rw [hnote]
            refine ⟨?_, fun hfirst => ⟨stats, result, change.ratingAfter, ?_, ?_, rfl⟩⟩
            · show (statsProgress past).recorded ++ [result.userId] =
                (statsProgress past).updated ++ [stats.userId]
              rw [hpast.even, huser]
            · show (statsProgress past).locked stats.userId = _
              rw [huser]
              exact hseen (of_decide_eq_true hfirst)
            · show room.resultOf stats.userId = _
              rw [huser]
              exact hresult (of_decide_eq_true hfirst)
          · rw [statsProgress_append, ← huser]
            cases answer with
            | error => cases hanswer
            | ok => rfl
        · exact fun _ _ _ herror => nomatch herror
        · intro past'' _ hdone
          refine ih hsplit' (hrecording _ ?_ ?_ ?_ ?_)
          · rw [hdone rfl, hnote]
            show (statsProgress past).recorded ++ _ = (statsProgress past).updated ++ _
            rw [hpast.even]
          · rw [hdone rfl, hnote]
          · intro userId
            rw [hdone rfl, hnote]
            by_cases heq : userId = result.userId
            · subst heq
              rw [hlocked]
              simp
            · simp [Function.update_of_ne heq]
          · intro userId hne
            rw [hdone rfl, hnote]
            exact Function.update_of_ne hne ..

theorem participants_ok {currentStats : List PlayerStats} {results : List UserResult}
    {participants : List RatingParticipant}
    (h : GameStatsService.participants currentStats results = .ok participants) :
    (∀ result ∈ results,
      (mapGet PlayerStats.userId currentStats result.userId).isSome = true) ∧
    participants.map RatingParticipant.userId = results.map UserResult.userId := by
  induction results generalizing participants with
  | nil =>
    cases h
    exact ⟨nofun, rfl⟩
  | cons result results ih =>
    unfold GameStatsService.participants at h
    cases hstats : mapGet PlayerStats.userId currentStats result.userId with
    | none =>
      rw [hstats] at h
      cases h
    | some stats =>
      rw [hstats] at h
      cases hrest : GameStatsService.participants currentStats results with
      | error =>
        rw [hrest] at h
        cases h
      | ok rest =>
        rw [hrest] at h
        cases h
        obtain ⟨hsome, husers⟩ := ih hrest
        refine ⟨fun other hother => ?_, ?_⟩
        · rcases List.mem_cons.mp hother with rfl | hother
          · rw [hstats]
            rfl
          · exact hsome other hother
        · rw [List.map_cons, List.map_cons, husers]

theorem userResults_length (room : FinishedRoom)
    (h : ∀ player ∈ room.players, player.userId.isSome = true) :
    room.userResults.length = room.players.length := by
  have hall : ∀ result ∈ room.playerResults, result.userId.isSome = true := by
    intro result hresult
    have hmem : result.userId ∈ room.playerResults.map RoomPlayerResult.userId :=
      List.mem_map_of_mem hresult
    rw [room.results] at hmem
    obtain ⟨player, hplayer, heq⟩ := List.mem_map.mp hmem
    rw [← heq]
    exact h player hplayer
  have hlength : room.playerResults.length = room.players.length := by
    have := congrArg List.length room.results
    rwa [List.length_map, List.length_map] at this
  rw [← hlength]
  unfold ApplyFinishedGameStatsInput.userResults
  generalize room.playerResults = results at hall
  induction results with
  | nil => rfl
  | cons result results ih =>
    rw [List.forall_mem_cons] at hall
    obtain ⟨userId, huser⟩ := Option.isSome_iff_exists.mp hall.1
    rw [List.filterMap_cons, huser]
    simp only [Option.map_some, List.length_cons]
    rw [ih hall.2]

theorem ratingChanges_users {exp10 : Rat → Rat} {currentStats : List PlayerStats}
    {changes : List RatingChange}
    (h : GameStatsService.ratingChanges exp10 room.toApplyFinishedGameStatsInput currentStats =
      .ok changes) :
    (∀ result ∈ room.userResults,
      (mapGet PlayerStats.userId currentStats result.userId).isSome = true) ∧
    changes.map RatingChange.userId = room.userResults.map UserResult.userId := by
  unfold GameStatsService.ratingChanges at h
  cases hparticipants : GameStatsService.participants currentStats room.userResults with
  | error =>
    rw [hparticipants] at h
    cases h
  | ok participants =>
    obtain ⟨hsome, husers⟩ := participants_ok hparticipants
    refine ⟨hsome, ?_⟩
    rw [hparticipants] at h
    change (if GameStatsService.shouldRateGame room.toApplyFinishedGameStatsInput = true then
      GameRatingService.calculateRatingChanges exp10 participants
      else .ok (participants.map GameStatsService.unrated)) = .ok changes at h
    rw [← husers]
    split at h
    · rename_i hrated
      obtain ⟨hmode, hplayers⟩ := (Bool.and_eq_true_iff ..).mp hrated
      have hmany : 3 ≤ participants.length := by
        have hlength := congrArg List.length husers
        rw [List.length_map, List.length_map, userResults_length room] at hlength
        · rw [hlength]
          exact room.ranked (of_decide_eq_true hmode)
        · intro player hplayer
          have hone := List.all_eq_true.mp hplayers player hplayer
          exact ((Bool.and_eq_true_iff ..).mp hone).2
      unfold GameRatingService.calculateRatingChanges at h
      rw [if_neg (by omega)] at h
      split at h
      · cases h
      · cases h
        rw [List.map_map]
        rfl
    · cases h
      rw [List.map_map]
      rfl

theorem keeps_finishedGameTransaction (exp10 : Rat → Rat) (room : FinishedRoom) (tx : κ)
    (scan : List UserId) :
    Abides (StatsAllowed room tx) (fun _ _ => True) []
      (GameStatsService.finishedGameTransaction exp10 tx scan room.toApplyFinishedGameStatsInput) := by
  have hrollback : ∀ past : List (Act (StatsOp κ) (StatsAns κ)),
      StatsAllowed room tx past (.rollback tx) := fun _ => ⟨rfl, nofun, nofun, nofun⟩
  refine keeps_handle (fun _ _ => True) ?_ (fun _ _ _ => trivial)
    fun past error _ => keeps_perform (hrollback past) fun _ => keeps_throw trivial
  refine keeps_bind (fun past result => result = .ok () →
    (statsProgress past).recorded = (statsProgress past).updated ∧
      ∀ userId ∈ room.users, userId ∈ (statsProgress past).handled) ?_ (fun _ _ _ => trivial) ?_
  · unfold GameStatsService.applyFinishedGameStats
    split
    · rename_i hnone
      refine keeps_pure fun _ => ⟨rfl, ?_⟩
      unfold FinishedRoom.users
      rw [hnone]
      exact nofun
    · refine keeps_bind _ (keeps_createMissingPlayerStats _ rfl) (fun _ _ _ herror => nomatch herror)
        fun past _ hcreated => ?_
      refine keeps_bind _ (keeps_lockPlayerStats scan .start (hcreated rfl))
        (fun _ _ _ herror => nomatch herror) fun past currentStats hlocked => ?_
      refine keeps_bind (fun past' result => past' = past ∧
        result = GameStatsService.ratingChanges exp10 room.toApplyFinishedGameStatsInput
          currentStats) (keeps_lift ⟨rfl, rfl⟩) (fun _ _ _ herror => nomatch herror) ?_
      rintro past' changes ⟨rfl, hchanges⟩
      obtain ⟨hsome, husers⟩ := ratingChanges_users hchanges.symm
      have hrows := hlocked currentStats rfl
      have hsplit : room.userResults = [] ++ room.userResults := rfl
      refine (keeps_recordResults hsome ?_ hsplit ?_).mono (fun _ _ hmay => hmay) ?_
      · intro result hresult
        have hmem : result.userId ∈ changes.map RatingChange.userId := by
          rw [husers]
          exact List.mem_map_of_mem hresult
        obtain ⟨change, hchange, heq⟩ := List.mem_map.mp hmem
        rw [← heq]
        exact mapGet_isSome hchange
      · refine ⟨hrows.recorded.trans hrows.updated.symm, nofun, fun userId stats hstats => ?_⟩
        rw [hrows.locked, hstats]
        exact ⟨rfl, fun _ => rfl⟩
      · intro past result hdone hok
        obtain ⟨heven, hhandled, _⟩ := hdone hok
        refine ⟨heven, fun userId huser => ?_⟩
        obtain ⟨result, hresult, rfl⟩ := List.mem_map.mp huser
        exact hhandled result hresult
  · intro past _ hdone
    obtain ⟨heven, hall⟩ := hdone rfl
    refine keeps_bind (fun _ _ => True) ?_ (fun _ _ _ => trivial) fun _ _ _ =>
      keeps_pure trivial
    exact keeps_statement ⟨rfl, nofun, nofun, fun _ => ⟨heven, hall⟩⟩ fun _ => trivial

end OneTransaction

/-! ## What is applied, transaction by transaction -/

section Appending

variable {rooms : κ → FinishedRoom} {txs : List κ} {userId : UserId} {k : κ}

theorem mem_appliedRooms {roomId : RoomId} : roomId ∈ appliedRooms rooms txs userId ↔
    ∃ k ∈ appliedFor rooms txs userId, (rooms k).roomId = roomId := by
  unfold appliedRooms
  rw [Distinct.mem_distinct, List.mem_map]

theorem appliedFor_append : appliedFor rooms (txs ++ [k]) userId =
    appliedFor rooms txs userId ++ if userId ∈ (rooms k).users then [k] else [] := by
  unfold appliedFor
  rw [List.filter_append, List.filter_cons, List.filter_nil]
  simp

theorem appliedRooms_append : appliedRooms rooms (txs ++ [k]) userId =
    if userId ∈ (rooms k).users then
      Distinct.insert (appliedRooms rooms txs userId) (rooms k).roomId
    else appliedRooms rooms txs userId := by
  unfold appliedRooms
  rw [appliedFor_append]
  split
  · unfold Distinct.distinct
    rw [List.map_append, List.foldl_append]
    rfl
  · rw [List.append_nil]

theorem appliedRooms_again
    (h : userId ∈ (rooms k).users → (rooms k).roomId ∈ appliedRooms rooms txs userId) :
    appliedRooms rooms (txs ++ [k]) userId = appliedRooms rooms txs userId := by
  rw [appliedRooms_append]
  split
  · rename_i huser
    exact if_pos (h huser)
  · rfl

theorem appliedRooms_new (huser : userId ∈ (rooms k).users)
    (hnew : (rooms k).roomId ∉ appliedRooms rooms txs userId) :
    appliedRooms rooms (txs ++ [k]) userId =
      appliedRooms rooms txs userId ++ [(rooms k).roomId] := by
  rw [appliedRooms_append, if_pos huser]
  exact if_neg hnew

theorem recordedNetWorth_append {roomId : RoomId}
    (h : roomId ∈ appliedRooms rooms txs userId) :
    recordedNetWorth rooms (txs ++ [k]) userId roomId =
      recordedNetWorth rooms txs userId roomId := by
  obtain ⟨j, hj, hroom⟩ := mem_appliedRooms.mp h
  unfold recordedNetWorth
  rw [appliedFor_append, List.find?_append]
  cases hfind : (appliedFor rooms txs userId).find? fun k => (rooms k).roomId = roomId with
  | none =>
    have hnot := List.find?_eq_none.mp hfind j hj
    simp [hroom] at hnot
  | some => rfl

theorem recordedTotal_again
    (h : userId ∈ (rooms k).users → (rooms k).roomId ∈ appliedRooms rooms txs userId) :
    recordedTotal rooms (txs ++ [k]) userId = recordedTotal rooms txs userId := by
  unfold recordedTotal
  rw [appliedRooms_again h]
  refine congrArg List.sum (List.map_congr_left fun roomId hroom => ?_)
  exact recordedNetWorth_append hroom

theorem recordedTotal_new (huser : userId ∈ (rooms k).users)
    (hnew : (rooms k).roomId ∉ appliedRooms rooms txs userId) :
    recordedTotal rooms (txs ++ [k]) userId =
      recordedTotal rooms txs userId + netWorthOf rooms userId k := by
  unfold recordedTotal
  rw [appliedRooms_new huser hnew, List.map_append, List.sum_append]
  congr 1
  · refine congrArg List.sum (List.map_congr_left fun roomId hroom => ?_)
    exact recordedNetWorth_append hroom
  · have hnone : (appliedFor rooms txs userId).find?
        (fun j => (rooms j).roomId = (rooms k).roomId) = none := by
      rw [List.find?_eq_none]
      intro j hj heq
      exact hnew (mem_appliedRooms.mpr ⟨j, hj, of_decide_eq_true heq⟩)
    unfold recordedNetWorth
    rw [appliedFor_append, if_pos huser, List.map_singleton, List.sum_singleton, List.find?_append,
      hnone]
    simp

end Appending

/-! ## What the sessions see -/

/-- The user a write is about. -/
def writtenFor : StatsWrite → UserId
  | .putPlayerStats row => row.userId
  | .addRatingHistory row => row.userId

/-- The lock under which it is written. -/
def statsLockOf (u : StatsWrite) : StatsLock := .playerStats (writtenFor u)

section Seen

variable {tables : StatsTables} {u : StatsWrite} {userId : UserId} {roomId : RoomId}

theorem apply_playerStats_other (h : writtenFor u ≠ userId) :
    (u.apply tables).playerStats userId = tables.playerStats userId := by
  cases u with
  | putPlayerStats row => exact Function.update_of_ne (Ne.symm h) ..
  | addRatingHistory row => rfl

theorem apply_ratingHistory : (u.apply tables).hasRatingHistory roomId userId = true ↔
    tables.hasRatingHistory roomId userId = true ∨
      ∃ row, u = .addRatingHistory row ∧ row.roomId = roomId ∧ row.userId = userId := by
  cases u with
  | putPlayerStats row =>
    constructor
    · exact Or.inl
    · rintro (h | ⟨_, h, _⟩)
      · exact h
      · cases h
  | addRatingHistory row =>
    show ((tables.ratingHistory ++ [row]).any _) = true ↔ _
    rw [List.any_append, Bool.or_eq_true]
    refine or_congr_right ?_
    simp

theorem applyAll_ratingHistory {writes : List StatsWrite} :
    (applyAll StatsWrite.apply writes tables).hasRatingHistory roomId userId = true ↔
      tables.hasRatingHistory roomId userId = true ∨
        ∃ row, .addRatingHistory row ∈ writes ∧ row.roomId = roomId ∧ row.userId = userId := by
  induction writes generalizing tables with
  | nil => simp [applyAll]
  | cons u writes ih =>
    show (applyAll StatsWrite.apply writes (u.apply tables)).hasRatingHistory roomId userId = true ↔ _
    rw [ih, apply_ratingHistory, or_assoc]
    refine or_congr_right ?_
    constructor
    · rintro (⟨row, rfl, hrow⟩ | ⟨row, hmem, hrow⟩)
      · exact ⟨row, List.mem_cons_self, hrow⟩
      · exact ⟨row, List.mem_cons_of_mem _ hmem, hrow⟩
    · rintro ⟨row, hmem, hrow⟩
      rcases List.mem_cons.mp hmem with rfl | hmem
      · exact .inl ⟨row, rfl, hrow⟩
      · exact .inr ⟨row, hmem, hrow⟩

theorem applyAll_isSome {writes : List StatsWrite} (h : (tables.playerStats userId).isSome = true) :
    ((applyAll StatsWrite.apply writes tables).playerStats userId).isSome = true := by
  induction writes generalizing tables with
  | nil => exact h
  | cons u writes ih =>
    refine ih ?_
    by_cases hu : writtenFor u = userId
    · cases u with
      | putPlayerStats row =>
        subst hu
        show (Function.update tables.playerStats row.userId (some row) row.userId).isSome = true
        rw [Function.update_self]
        rfl
      | addRatingHistory row => exact h
    · rw [apply_playerStats_other hu]
      exact h

end Seen

/-! ## The invariant -/

section Invariant

variable [DecidableEq κ]

/-- How many games a transaction has counted for a user, and how much net worth. -/
def ownGames (p : StatsProgress) (userId : UserId) : Nat := if userId ∈ p.updated then 1 else 0

def ownTotal (rooms : κ → FinishedRoom) (k : κ) (p : StatsProgress) (userId : UserId) : Int :=
  if userId ∈ p.updated then netWorthOf rooms userId k else 0

/-- What is known of a transaction. -/
structure TxInv (rooms : κ → FinishedRoom) (db : StatsDatabase κ) (txs : List κ) (k : κ)
    (p : StatsProgress) : Prop where
  /-- Its own entries are those of the users it has recorded. -/
  entries : ∀ row, .addRatingHistory row ∈ db.written k →
    row.roomId = (rooms k).roomId ∧ row.userId ∈ p.recorded
  recorded : ∀ userId ∈ p.recorded,
    (∃ row, .addRatingHistory row ∈ db.written k ∧ row.userId = userId) ∧
    (rooms k).roomId ∉ appliedRooms rooms txs userId ∧ (p.locked userId).isSome = true ∧
    ∃ result, (rooms k).resultOf userId = some result ∧ 1 ≤ result.placement ∧ result.placement ≤ 4
  nodup : p.recorded.Nodup
  handled : ∀ userId ∈ p.handled,
    (db.seen k).hasRatingHistory (rooms k).roomId userId = true
  pending : p.recorded = p.updated ∨
    ∃ userId, p.recorded = p.updated ++ [userId] ∧ p.first = true
  /-- What it has seen of a row under its lock is still so. -/
  held : ∀ userId stats, p.locked userId = some stats →
    db.holder (.playerStats userId) = some k ∧ (db.seen k).playerStats userId = some stats
  tallied : ∀ userId stats, db.holder (.playerStats userId) = some k →
    (db.seen k).playerStats userId = some stats →
    Tallied userId ((appliedRooms rooms txs userId).length + ownGames p userId)
      (recordedTotal rooms txs userId + ownTotal rooms k p userId) stats

structure StatsInv (rooms : κ → FinishedRoom) (db : StatsDatabase κ) (txs : List κ)
    (progress : κ → StatsProgress) : Prop where
  guarded : db.Guarded fun u => [statsLockOf u]
  history : ∀ userId roomId, db.committed.hasRatingHistory roomId userId = true ↔
    roomId ∈ appliedRooms rooms txs userId
  missing : ∀ userId, db.committed.playerStats userId = none →
    appliedRooms rooms txs userId = []
  tallied : ∀ userId stats, db.committed.playerStats userId = some stats →
    Tallied userId (appliedRooms rooms txs userId).length (recordedTotal rooms txs userId) stats
  txInv : ∀ k, TxInv rooms db txs k (progress k)

variable {rooms : κ → FinishedRoom} {db db' : StatsDatabase κ} {txs : List κ}
  {progress : κ → StatsProgress} {j k : κ} {userId : UserId}

omit [DecidableEq κ] in
theorem not_mem_updated {p : StatsProgress} (h : TxInv rooms db txs k p)
    (hnone : p.locked userId = none) : userId ∉ p.updated := by
  intro hmem
  have hrecorded : userId ∈ p.recorded := by
    rcases h.pending with heq | ⟨_, heq, _⟩
    · rw [heq]
      exact hmem
    · rw [heq]
      exact List.mem_append_left _ hmem
  obtain ⟨_, _, hlocked, _⟩ := h.recorded userId hrecorded
  rw [hnone] at hlocked
  cases hlocked

omit [DecidableEq κ] in
/-- What a session sees of a user whose row is not under its lock is what is committed. -/
theorem seen_unheld (h : db.Guarded fun u => [statsLockOf u])
    (hfree : db.holder (.playerStats userId) ≠ some k) :
    (db.seen k).playerStats userId = db.committed.playerStats userId := by
  refine applyAll_frame (fun tables => StatsTables.playerStats tables userId) ?_ _
  intro u hu tables
  refine apply_playerStats_other fun heq => hfree ?_
  rw [← heq]
  exact h k u hu _ (List.mem_singleton.mpr rfl)

omit [DecidableEq κ] in
theorem StatsInv.tallied_seen (h : StatsInv rooms db txs progress) {stats : PlayerStats}
    (hseen : (db.seen k).playerStats userId = some stats) :
    Tallied userId ((appliedRooms rooms txs userId).length + ownGames (progress k) userId)
      (recordedTotal rooms txs userId + ownTotal rooms k (progress k) userId) stats := by
  by_cases hheld : db.holder (.playerStats userId) = some k
  · exact (h.txInv k).tallied userId stats hheld hseen
  · have hnone : (progress k).locked userId = none := by
      cases hlocked : (progress k).locked userId with
      | none => rfl
      | some st => exact absurd ((h.txInv k).held userId st hlocked).1 hheld
    have hnot := not_mem_updated (h.txInv k) hnone
    unfold ownGames ownTotal
    rw [if_neg hnot, if_neg hnot, Nat.add_zero, Int.add_zero]
    rw [seen_unheld h.guarded hheld] at hseen
    exact h.tallied userId stats hseen

omit [DecidableEq κ] in
theorem TxInv.of_other {p : StatsProgress} (h : TxInv rooms db txs j p)
    (hseen : db'.seen j = db.seen j) (hwritten : db'.written j = db.written j)
    (hkept : ∀ l, db.holder l = some j → db'.holder l = some j)
    (hnew : ∀ l, db'.holder l = some j → db.holder l = some j) : TxInv rooms db' txs j p where
  entries := by
    rw [hwritten]
    exact h.entries
  recorded := by
    rw [hwritten]
    exact h.recorded
  nodup := h.nodup
  handled := by
    rw [hseen]
    exact h.handled
  pending := h.pending
  held userId stats hlocked := by
    rw [hseen]
    obtain ⟨hholder, hrow⟩ := h.held userId stats hlocked
    exact ⟨hkept _ hholder, hrow⟩
  tallied userId stats hholder := by
    rw [hseen]
    exact h.tallied userId stats (hnew _ hholder)

omit [DecidableEq κ] in
theorem holder_of_lock {l l' : StatsLock} (hne : j ≠ k)
    (h : (db.lock k l).holder l' = some j) : db.holder l' = some j := by
  by_cases hl : l' = l
  · subst hl
    rw [Database.holder_lock_self] at h
    exact absurd (Option.some.inj h).symm hne
  · rwa [Database.holder_lock_other hl] at h

/-- What a session does under a lock it may take keeps the rest, if it keeps its own part. -/
theorem StatsInv.at_tx (h : StatsInv rooms db txs progress) {l : StatsLock}
    (hfree : db.isFree k l = true) (db' : StatsDatabase κ) (writes : List StatsWrite)
    {p : StatsProgress} (hcommitted : db'.committed = db.committed)
    (hwritten : db'.written = Function.update db.written k (db.written k ++ writes))
    (hholder : db'.holder = (db.lock k l).holder)
    (hguarded : ∀ u ∈ writes, db'.holder (statsLockOf u) = some k)
    (hself : TxInv rooms db' txs k p) :
    StatsInv rooms db' txs (Function.update progress k p) where
  guarded := by
    intro j u hu l' hl'
    rw [hwritten] at hu
    by_cases hj : j = k
    · subst hj
      rw [Function.update_self] at hu
      rcases List.mem_append.mp hu with hu | hu
      · rw [hholder]
        exact Database.holder_lock hfree (h.guarded j u hu l' hl')
      · cases List.mem_singleton.mp hl'
        exact hguarded u hu
    · rw [Function.update_of_ne hj] at hu
      rw [hholder]
      exact Database.holder_lock hfree (h.guarded j u hu l' hl')
  history := by
    rw [hcommitted]
    exact h.history
  missing := by
    rw [hcommitted]
    exact h.missing
  tallied := by
    rw [hcommitted]
    exact h.tallied
  txInv j := by
    by_cases hj : j = k
    · subst hj
      rw [Function.update_self]
      exact hself
    · rw [Function.update_of_ne hj]
      have hsame : db'.written j = db.written j := by
        rw [hwritten, Function.update_of_ne hj]
      refine (h.txInv j).of_other ?_ hsame ?_ ?_
      · unfold StatsDatabase.seen Database.view
        rw [hsame, hcommitted]
      · intro l' hl'
        rw [hholder]
        exact Database.holder_lock hfree hl'
      · intro l' hl'
        rw [hholder] at hl'
        exact holder_of_lock hj hl'

theorem seen_write (u : StatsWrite) (l : StatsLock) :
    StatsDatabase.seen ((db.lock k l).write k u) k = u.apply (db.seen k) :=
  Database.view_write_self u

theorem StatsInv.insertPlayerStats (h : StatsInv rooms db txs progress)
    (hmissing : (db.seen k).playerStats userId = none)
    (hfree : db.isFree k (.playerStats userId) = true) :
    StatsInv rooms ((db.lock k (.playerStats userId)).write k
      (.putPlayerStats (initialPlayerStats userId))) txs progress := by
  have hinv := h.txInv k
  have hnone : (progress k).locked userId = none := by
    cases hlocked : (progress k).locked userId with
    | none => rfl
    | some st =>
      have hseen := (hinv.held userId st hlocked).2
      rw [hmissing] at hseen
      cases hseen
  have hcommitted : db.committed.playerStats userId = none := by
    cases hrow : db.committed.playerStats userId with
    | none => rfl
    | some row =>
      have hsome : ((db.seen k).playerStats userId).isSome = true :=
        applyAll_isSome (by rw [hrow]; rfl)
      rw [hmissing] at hsome
      cases hsome
  have hself : TxInv rooms ((db.lock k (.playerStats userId)).write k
      (.putPlayerStats (initialPlayerStats userId))) txs k (progress k) := by
    refine ⟨fun row hrow => ?_, fun other hother => ?_, hinv.nodup, fun other hother => ?_,
      hinv.pending, fun other stats hlocked => ?_, fun other stats hholder hseen => ?_⟩
    · rw [Database.written_write_self] at hrow
      rcases List.mem_append.mp hrow with hrow | hrow
      · exact hinv.entries row hrow
      · cases List.mem_singleton.mp hrow
    · obtain ⟨⟨row, hrow, huser⟩, hrest⟩ := hinv.recorded other hother
      refine ⟨⟨row, ?_, huser⟩, hrest⟩
      rw [Database.written_write_self]
      exact List.mem_append_left _ hrow
    · rw [seen_write]
      exact hinv.handled other hother
    · obtain ⟨hholder, hseen⟩ := hinv.held other stats hlocked
      refine ⟨Database.holder_lock hfree hholder, ?_⟩
      rw [seen_write, apply_playerStats_other]
      · exact hseen
      · rintro rfl
        rw [show writtenFor (.putPlayerStats (initialPlayerStats userId)) = userId from rfl,
          hnone] at hlocked
        cases hlocked
    · rw [seen_write] at hseen
      by_cases hother : other = userId
      · subst hother
        change Function.update (db.seen k).playerStats other (some (initialPlayerStats other)) other =
          some stats at hseen
        rw [Function.update_self] at hseen
        cases hseen
        have hempty := h.missing other hcommitted
        have hnot := not_mem_updated hinv hnone
        unfold ownGames ownTotal recordedTotal
        rw [if_neg hnot, if_neg hnot, hempty]
        exact tallied_initial other
      · rw [apply_playerStats_other (Ne.symm hother)] at hseen
        exact h.tallied_seen hseen
  have hguarded : ∀ u ∈ [StatsWrite.putPlayerStats (initialPlayerStats userId)],
      (db.lock k (.playerStats userId)).holder (statsLockOf u) = some k := by
    intro u hu
    cases List.mem_singleton.mp hu
    exact Database.holder_lock_self _
  have hinv' : StatsInv rooms ((db.lock k (.playerStats userId)).write k
      (.putPlayerStats (initialPlayerStats userId))) txs
      (Function.update progress k (progress k)) :=
    h.at_tx hfree _ [.putPlayerStats (initialPlayerStats userId)] rfl rfl rfl hguarded hself
  rwa [Function.update_eq_self] at hinv'

theorem StatsInv.selectForUpdate (h : StatsInv rooms db txs progress)
    (hfree : db.isFree k (.playerStats userId) = true) :
    StatsInv rooms (db.lock k (.playerStats userId)) txs (Function.update progress k
      (match (db.seen k).playerStats userId with
      | none => progress k
      | some row =>
        { progress k with locked := Function.update (progress k).locked row.userId (some row) })) := by
  have hinv := h.txInv k
  refine h.at_tx hfree _ [] rfl ?_ rfl nofun ?_
  · rw [List.append_nil, Function.update_eq_self]
    rfl
  have hunchanged : TxInv rooms (db.lock k (.playerStats userId)) txs k (progress k) :=
    ⟨hinv.entries, hinv.recorded, hinv.nodup, hinv.handled, hinv.pending,
      fun other stats hlocked =>
        ⟨Database.holder_lock hfree (hinv.held other stats hlocked).1,
          (hinv.held other stats hlocked).2⟩,
      fun other stats _ hseen => h.tallied_seen hseen⟩
  cases hrow : (db.seen k).playerStats userId with
  | none => exact hunchanged
  | some row =>
    have huser : row.userId = userId := (h.tallied_seen hrow).user
    refine { hunchanged with recorded := fun other hother => ?_, held := fun other stats hlocked => ?_ }
    · obtain ⟨hentry, hnew, hlocked, hresult⟩ := hinv.recorded other hother
      refine ⟨hentry, hnew, ?_, hresult⟩
      dsimp only
      by_cases heq : other = row.userId
      · subst heq
        rw [Function.update_self]
        rfl
      · rw [Function.update_of_ne heq]
        exact hlocked
    · dsimp only at hlocked
      by_cases heq : other = row.userId
      · subst heq
        rw [Function.update_self] at hlocked
        cases hlocked
        rw [huser]
        exact ⟨Database.holder_lock_self _, hrow⟩
      · rw [Function.update_of_ne heq] at hlocked
        exact hunchanged.held other stats hlocked

theorem StatsInv.insertRatingHistory (h : StatsInv rooms db txs progress) {row : RatingHistoryRow}
    (hroom : row.roomId = (rooms k).roomId)
    (hlocked : ((progress k).locked row.userId).isSome = true)
    (heven : (progress k).recorded = (progress k).updated)
    (hresult : row.userId ∉ (progress k).handled → ∃ result,
      (rooms k).resultOf row.userId = some result ∧ row.placement = result.placement)
    (hnew : (db.seen k).hasRatingHistory row.roomId row.userId = false)
    (hfree : db.isFree k (.ratingHistory row.roomId row.userId) = true)
    (hvalid : row.isValid = true) :
    StatsInv rooms ((db.lock k (.ratingHistory row.roomId row.userId)).write k
      (.addRatingHistory row)) txs (Function.update progress k { progress k with
        handled := (progress k).handled ++ [row.userId]
        recorded := (progress k).recorded ++ [row.userId]
        first := row.userId ∉ (progress k).handled }) := by
  have hinv := h.txInv k
  obtain ⟨st, hst⟩ := Option.isSome_iff_exists.mp hlocked
  have hunhandled : row.userId ∉ (progress k).handled := by
    intro hmem
    have hhas := hinv.handled _ hmem
    rw [← hroom, hnew] at hhas
    cases hhas
  have hunrecorded : row.userId ∉ (progress k).recorded := by
    intro hmem
    obtain ⟨⟨row', hrow', huser⟩, _⟩ := hinv.recorded _ hmem
    have hhas : (db.seen k).hasRatingHistory row.roomId row.userId = true :=
      applyAll_ratingHistory.mpr (.inr ⟨row', hrow', (hinv.entries row' hrow').1.trans hroom.symm,
        huser⟩)
    rw [hnew] at hhas
    cases hhas
  have hfirst : (rooms k).roomId ∉ appliedRooms rooms txs row.userId := by
    intro hmem
    have hhas : (db.seen k).hasRatingHistory row.roomId row.userId = true := by
      refine applyAll_ratingHistory.mpr (.inl ?_)
      rw [hroom]
      exact (h.history _ _).mpr hmem
    rw [hnew] at hhas
    cases hhas
  refine h.at_tx hfree _ [.addRatingHistory row] rfl rfl rfl ?_ ?_
  · intro u hu
    cases List.mem_singleton.mp hu
    exact Database.holder_lock hfree (hinv.held _ st hst).1
  refine ⟨fun row' hrow' => ?_, fun other hother => ?_, ?_, fun other hother => ?_,
    .inr ⟨row.userId, ?_, decide_eq_true hunhandled⟩, fun other stats hlocked' => ?_,
    fun other stats hholder hseen => ?_⟩
  · rw [Database.written_write_self] at hrow'
    rcases List.mem_append.mp hrow' with hrow' | hrow'
    · obtain ⟨hroom', huser⟩ := hinv.entries row' hrow'
      exact ⟨hroom', List.mem_append_left _ huser⟩
    · cases List.mem_singleton.mp hrow'
      exact ⟨hroom, List.mem_append_right _ (List.mem_singleton.mpr rfl)⟩
  · rw [Database.written_write_self]
    rcases List.mem_append.mp hother with hother | hother
    · obtain ⟨⟨row', hrow', huser⟩, hrest⟩ := hinv.recorded other hother
      exact ⟨⟨row', List.mem_append_left _ hrow', huser⟩, hrest⟩
    · cases List.mem_singleton.mp hother
      obtain ⟨result, hfound, hplacement⟩ := hresult hunhandled
      refine ⟨⟨row, List.mem_append_right _ (List.mem_singleton.mpr rfl), rfl⟩, hfirst, hlocked,
        result, hfound, ?_⟩
      rw [← hplacement]
      unfold RatingHistoryRow.isValid at hvalid
      simp only [Bool.and_eq_true, decide_eq_true_eq] at hvalid
      exact ⟨hvalid.1.1.1, hvalid.1.1.2⟩
  · exact List.nodup_append.mpr ⟨hinv.nodup, List.nodup_singleton _, by
      rintro other hother _ hsame rfl
      cases List.mem_singleton.mp hsame
      exact hunrecorded hother⟩
  · rw [seen_write, apply_ratingHistory]
    rcases List.mem_append.mp hother with hother | hother
    · exact .inl (hinv.handled other hother)
    · cases List.mem_singleton.mp hother
      exact .inr ⟨row, rfl, hroom, rfl⟩
  · dsimp only
    rw [heven]
  · obtain ⟨hholder, hseen⟩ := hinv.held other stats hlocked'
    exact ⟨Database.holder_lock hfree hholder, by rw [seen_write]; exact hseen⟩
  · rw [seen_write] at hseen
    exact h.tallied_seen hseen

theorem StatsInv.ratingHistorySkipped (h : StatsInv rooms db txs progress)
    (hroom : (db.seen k).hasRatingHistory (rooms k).roomId userId = true)
    (heven : (progress k).recorded = (progress k).updated) (first : Bool) :
    StatsInv rooms db txs (Function.update progress k { progress k with
      handled := (progress k).handled ++ [userId], first }) := by
  refine { h with txInv := fun j => ?_ }
  by_cases hj : j = k
  · subst hj
    rw [Function.update_self]
    have hinv := h.txInv j
    refine { hinv with handled := fun other hother => ?_, pending := .inl heven }
    rcases List.mem_append.mp hother with hother | hother
    · exact hinv.handled other hother
    · cases List.mem_singleton.mp hother
      exact hroom
  · rw [Function.update_of_ne hj]
    exact h.txInv j

theorem StatsInv.updatePlayerStats (h : StatsInv rooms db txs progress) {row : PlayerStats}
    (hrecorded : (progress k).recorded = (progress k).updated ++ [row.userId])
    (hrow : (progress k).first = true → ∃ stats result ratingAfter,
      (progress k).locked row.userId = some stats ∧
      (rooms k).resultOf row.userId = some result ∧
      row = GameStatsService.buildUpdatedStats stats result.finalNetWorth result.placement
        ratingAfter)
    (hfree : db.isFree k (.playerStats row.userId) = true) :
    StatsInv rooms ((db.lock k (.playerStats row.userId)).write k (.putPlayerStats row)) txs
      (Function.update progress k { progress k with
        updated := (progress k).updated ++ [row.userId]
        locked := Function.update (progress k).locked row.userId (some row) }) := by
  have hinv := h.txInv k
  have hfirst : (progress k).first = true := by
    rcases hinv.pending with heven | ⟨_, _, hfirst⟩
    · rw [hrecorded] at heven
      have hlength := congrArg List.length heven
      simp at hlength
    · exact hfirst
  obtain ⟨stats, result, ratingAfter, hlocked, hresult, hbuilt⟩ := hrow hfirst
  obtain ⟨hholder, hseen⟩ := hinv.held _ stats hlocked
  have hmem : row.userId ∈ (progress k).recorded := by
    rw [hrecorded]
    exact List.mem_append_right _ (List.mem_singleton.mpr rfl)
  have hnot : row.userId ∉ (progress k).updated := by
    have hnodup := hinv.nodup
    rw [hrecorded] at hnodup
    intro hupdated
    exact (List.nodup_append.mp hnodup).2.2 _ hupdated _ (List.mem_singleton.mpr rfl) rfl
  have htallied : Tallied row.userId ((appliedRooms rooms txs row.userId).length + 1)
      (recordedTotal rooms txs row.userId + netWorthOf rooms row.userId k) row := by
    have hbefore := hinv.tallied _ stats hholder hseen
    unfold ownGames ownTotal at hbefore
    rw [if_neg hnot, if_neg hnot, Nat.add_zero, Int.add_zero] at hbefore
    obtain ⟨_, _, _, result', hresult', hlow, hhigh⟩ := hinv.recorded _ hmem
    cases hresult.symm.trans hresult'
    have hafter := hbefore.count hlow hhigh result.finalNetWorth ratingAfter
    rw [← hbuilt] at hafter
    unfold netWorthOf
    rw [hresult]
    exact hafter
  refine h.at_tx hfree _ [.putPlayerStats row] rfl rfl rfl ?_ ?_
  · intro u hu
    cases List.mem_singleton.mp hu
    exact Database.holder_lock_self _
  refine ⟨fun row' hrow' => ?_, fun other hother => ?_, hinv.nodup, fun other hother => ?_,
    .inl hrecorded, fun other st hlocked' => ?_, fun other st hholder' hseen' => ?_⟩
  · rw [Database.written_write_self] at hrow'
    rcases List.mem_append.mp hrow' with hrow' | hrow'
    · exact hinv.entries row' hrow'
    · cases List.mem_singleton.mp hrow'
  · obtain ⟨⟨row', hrow', huser⟩, hnew, hlocked', hrest⟩ := hinv.recorded other hother
    refine ⟨⟨row', ?_, huser⟩, hnew, ?_, hrest⟩
    · rw [Database.written_write_self]
      exact List.mem_append_left _ hrow'
    · dsimp only
      by_cases heq : other = row.userId
      · subst heq
        rw [Function.update_self]
        rfl
      · rw [Function.update_of_ne heq]
        exact hlocked'
  · rw [seen_write]
    exact hinv.handled other hother
  · dsimp only at hlocked'
    rw [seen_write]
    by_cases heq : other = row.userId
    · subst heq
      rw [Function.update_self] at hlocked'
      cases hlocked'
      exact ⟨Database.holder_lock_self _, Function.update_self ..⟩
    · rw [Function.update_of_ne heq] at hlocked'
      rw [apply_playerStats_other (Ne.symm heq)]
      obtain ⟨hholder', hseen'⟩ := hinv.held other st hlocked'
      exact ⟨Database.holder_lock hfree hholder', hseen'⟩
  · rw [seen_write] at hseen'
    unfold ownGames ownTotal
    dsimp only
    by_cases heq : other = row.userId
    · subst heq
      change Function.update (db.seen k).playerStats row.userId (some row) row.userId =
        some st at hseen'
      rw [Function.update_self] at hseen'
      cases hseen'
      rw [if_pos (List.mem_append_right _ (List.mem_singleton.mpr rfl)),
        if_pos (List.mem_append_right _ (List.mem_singleton.mpr rfl))]
      exact htallied
    · rw [apply_playerStats_other (Ne.symm heq)] at hseen'
      have hbefore := h.tallied_seen hseen'
      unfold ownGames ownTotal at hbefore
      have hiff : other ∈ (progress k).updated ++ [row.userId] ↔ other ∈ (progress k).updated := by
        simp [heq]
      simp only [hiff]
      exact hbefore

omit [DecidableEq κ] in
theorem mem_users_of_resultOf {room : FinishedRoom} {result : UserResult}
    (h : room.resultOf userId = some result) : userId ∈ room.users := by
  have hfound := List.find?_some h
  rw [← of_decide_eq_true hfound]
  exact List.mem_map_of_mem (List.mem_of_find?_eq_some h)

theorem txInv_ended {committed : StatsTables} :
    TxInv rooms (⟨committed, Function.update db.written k [], db.unlocked k⟩ : StatsDatabase κ) txs
      k .start where
  entries row hrow := by
    dsimp only at hrow
    rw [Function.update_self] at hrow
    cases hrow
  recorded := nofun
  nodup := List.nodup_nil
  handled := nofun
  pending := .inl rfl
  held := nofun
  tallied userId stats hholder :=
    absurd rfl (Database.unlocked_eq_some.mp hholder).2

omit [DecidableEq κ] in
/-- What a commit adds is what the transaction has recorded. -/
theorem StatsInv.committed (h : StatsInv rooms db txs progress)
    (hall : ∀ userId ∈ (rooms k).users, userId ∈ (progress k).handled) (userId : UserId) :
    (userId ∈ (progress k).recorded →
      appliedRooms rooms (txs ++ [k]) userId =
        appliedRooms rooms txs userId ++ [(rooms k).roomId] ∧
      recordedTotal rooms (txs ++ [k]) userId =
        recordedTotal rooms txs userId + netWorthOf rooms userId k) ∧
    (userId ∉ (progress k).recorded →
      appliedRooms rooms (txs ++ [k]) userId = appliedRooms rooms txs userId ∧
      recordedTotal rooms (txs ++ [k]) userId = recordedTotal rooms txs userId) := by
  have hinv := h.txInv k
  constructor
  · intro hmem
    obtain ⟨_, hnew, _, result, hresult, _⟩ := hinv.recorded userId hmem
    have huser := mem_users_of_resultOf hresult
    exact ⟨appliedRooms_new huser hnew, recordedTotal_new huser hnew⟩
  · intro hnot
    have hagain : userId ∈ (rooms k).users →
        (rooms k).roomId ∈ appliedRooms rooms txs userId := by
      intro huser
      rcases applyAll_ratingHistory.mp (hinv.handled userId (hall userId huser)) with
        hcommitted | ⟨row, hrow, _, rfl⟩
      · exact (h.history _ _).mp hcommitted
      · exact absurd (hinv.entries row hrow).2 hnot
    exact ⟨appliedRooms_again hagain, recordedTotal_again hagain⟩

theorem StatsInv.commit (h : StatsInv rooms db txs progress)
    (heven : (progress k).recorded = (progress k).updated)
    (hall : ∀ userId ∈ (rooms k).users, userId ∈ (progress k).handled) :
    StatsInv rooms (db.commit StatsWrite.apply k) (txs ++ [k])
      (Function.update progress k .start) := by
  have hinv := h.txInv k
  have hheld : ∀ userId ∈ (progress k).recorded, db.holder (.playerStats userId) = some k ∧
      ∃ stats, (db.seen k).playerStats userId = some stats := by
    intro userId hmem
    obtain ⟨_, _, hlocked, _⟩ := hinv.recorded userId hmem
    obtain ⟨stats, hstats⟩ := Option.isSome_iff_exists.mp hlocked
    obtain ⟨hholder, hseen⟩ := hinv.held userId stats hstats
    exact ⟨hholder, stats, hseen⟩
  refine ⟨h.guarded.ended, fun userId roomId => ?_, fun userId hnone => ?_,
    fun userId stats hstats => ?_, fun j => ?_⟩
  · show (db.seen k).hasRatingHistory roomId userId = true ↔ _
    have hsplit : (db.seen k).hasRatingHistory roomId userId = true ↔ _ := applyAll_ratingHistory
    rw [hsplit, h.history]
    by_cases hmem : userId ∈ (progress k).recorded
    · rw [((h.committed hall userId).1 hmem).1, List.mem_append, List.mem_singleton]
      refine or_congr_right ⟨?_, fun heq => ?_⟩
      · rintro ⟨row, hrow, rfl, _⟩
        exact (hinv.entries row hrow).1
      · obtain ⟨⟨row, hrow, huser⟩, _⟩ := hinv.recorded userId hmem
        exact ⟨row, hrow, (hinv.entries row hrow).1.trans heq.symm, huser⟩
    · rw [((h.committed hall userId).2 hmem).1]
      refine or_iff_left ?_
      rintro ⟨row, hrow, _, rfl⟩
      exact hmem (hinv.entries row hrow).2
  · change (db.seen k).playerStats userId = none at hnone
    have hmem : userId ∉ (progress k).recorded := by
      intro hmem
      obtain ⟨_, stats, hseen⟩ := hheld userId hmem
      rw [hnone] at hseen
      cases hseen
    rw [((h.committed hall userId).2 hmem).1]
    refine h.missing userId ?_
    cases hrow : db.committed.playerStats userId with
    | none => rfl
    | some row =>
      have hsome : ((db.seen k).playerStats userId).isSome = true :=
        applyAll_isSome (by rw [hrow]; rfl)
      rw [hnone] at hsome
      cases hsome
  · change (db.seen k).playerStats userId = some stats at hstats
    have hbefore := h.tallied_seen hstats
    unfold ownGames ownTotal at hbefore
    rw [← heven] at hbefore
    by_cases hmem : userId ∈ (progress k).recorded
    · obtain ⟨hrooms, htotal⟩ := (h.committed hall userId).1 hmem
      rw [hrooms, htotal, List.length_append]
      rw [if_pos hmem, if_pos hmem] at hbefore
      exact hbefore
    · obtain ⟨hrooms, htotal⟩ := (h.committed hall userId).2 hmem
      rw [hrooms, htotal]
      rwa [if_neg hmem, if_neg hmem, Nat.add_zero, Int.add_zero] at hbefore
  · by_cases hj : j = k
    · subst hj
      rw [Function.update_self]
      exact txInv_ended
    · rw [Function.update_of_ne hj]
      have hother := h.txInv j
      have hwritten : (db.commit StatsWrite.apply k).written j = db.written j :=
        Function.update_of_ne hj ..
      -- what is under a lock of `j` is not touched by the commit
      have hrow : ∀ userId, db.holder (.playerStats userId) = some j →
          (StatsDatabase.seen (db.commit StatsWrite.apply k) j).playerStats userId =
            (db.seen j).playerStats userId ∧ userId ∉ (progress k).recorded := by
        intro userId hholder
        constructor
        · rw [show StatsDatabase.seen (db.commit StatsWrite.apply k) j =
            applyAll StatsWrite.apply (db.written j) (db.seen k) from Database.view_commit_other hj]
          refine applyAll_congr (fun tables => StatsTables.playerStats tables userId) ?_ ?_
          · intro u _ tables tables' heq
            cases u with
            | putPlayerStats row =>
              show Function.update _ _ _ _ = Function.update _ _ _ _
              by_cases huser : userId = row.userId
              · subst huser
                rw [Function.update_self, Function.update_self]
              · rw [Function.update_of_ne huser, Function.update_of_ne huser]
                exact heq
            | addRatingHistory row => exact heq
          · refine seen_unheld h.guarded ?_
            rw [hholder]
            exact fun heq => hj (Option.some.inj heq)
        · intro hmem
          have hk := (hheld userId hmem).1
          rw [hholder] at hk
          exact hj (Option.some.inj hk)
      refine ⟨?_, fun userId hmem => ?_, hother.nodup, fun userId hmem => ?_, hother.pending,
        fun userId stats hlocked => ?_, fun userId stats hholder hseen => ?_⟩
      · rw [hwritten]
        exact hother.entries
      · rw [hwritten]
        obtain ⟨hentry, hnew, hlocked, hresult⟩ := hother.recorded userId hmem
        refine ⟨hentry, ?_, hlocked, hresult⟩
        obtain ⟨stats, hstats⟩ := Option.isSome_iff_exists.mp hlocked
        rw [((h.committed hall userId).2 (hrow userId (hother.held userId stats hstats).1).2).1]
        exact hnew
      · have hseen := hother.handled userId hmem
        rw [show StatsDatabase.seen (db.commit StatsWrite.apply k) j =
          applyAll StatsWrite.apply (db.written j) (db.seen k) from Database.view_commit_other hj]
        refine applyAll_ratingHistory.mpr ?_
        rcases applyAll_ratingHistory.mp hseen with hcommitted | hown
        · exact .inl (applyAll_ratingHistory.mpr (.inl hcommitted))
        · exact .inr hown
      · obtain ⟨hholder, hseen⟩ := hother.held userId stats hlocked
        rw [(hrow userId hholder).1]
        exact ⟨Database.unlocked_eq_some.mpr ⟨hholder, hj⟩, hseen⟩
      · have hholder' := (Database.unlocked_eq_some.mp hholder).1
        obtain ⟨hsame, hmem⟩ := hrow userId hholder'
        rw [hsame] at hseen
        obtain ⟨hrooms, htotal⟩ := (h.committed hall userId).2 hmem
        rw [hrooms, htotal]
        exact hother.tallied userId stats hholder' hseen

theorem StatsInv.rollback (h : StatsInv rooms db txs progress) :
    StatsInv rooms (db.rollback k) txs (Function.update progress k .start) := by
  refine ⟨h.guarded.ended, h.history, h.missing, h.tallied, fun j => ?_⟩
  by_cases hj : j = k
  · subst hj
    rw [Function.update_self]
    exact txInv_ended
  · rw [Function.update_of_ne hj]
    have hwritten : (db.rollback k).written j = db.written j := Function.update_of_ne hj ..
    refine (h.txInv j).of_other ?_ hwritten ?_ ?_
    · unfold StatsDatabase.seen Database.view
      rw [hwritten]
      rfl
    · exact fun l hl => Database.unlocked_eq_some.mpr ⟨hl, hj⟩
    · exact fun l hl => (Database.unlocked_eq_some.mp hl).1

end Invariant

/-! ## Every interleaving -/

section Interleavings

variable [DecidableEq κ]

def emptyTables : StatsTables := ⟨fun _ => none, []⟩

/-- The transactions at their start, on tables without rows. -/
def startedStats (exp10 : Rat → Rat) (rooms : κ → FinishedRoom) (scans : κ → List UserId) :
    Config κ (StatsDatabase κ) (StatsOp κ) (StatsAns κ) StatsError Unit :=
  ⟨⟨emptyTables, fun _ => [], fun _ => none⟩, fun k =>
    GameStatsService.finishedGameTransaction exp10 k (scans k)
      (rooms k).toApplyFinishedGameStatsInput⟩

/-- The row of a user tells exactly the rooms that were applied. -/
structure CountedOnce (rooms : κ → FinishedRoom) (txs : List κ) (userId : UserId)
    (stats : PlayerStats) : Prop where
  games : stats.gamesPlayed = (appliedRooms rooms txs userId).length
  places : stats.gamesPlayed =
    stats.firstPlace + stats.secondPlace + stats.thirdPlace + stats.fourthPlace
  total : stats.totalNetWorth = recordedTotal rooms txs userId
  peak : stats.currentRating ≤ stats.peakRating

/-- What the transactions have done so far. -/
def statsProgressOf (acts : List (κ × Act (StatsOp κ) (StatsAns κ))) (k : κ) : StatsProgress :=
  statsProgress (doneBy k acts)

theorem statsProgressOf_append (acts : List (κ × Act (StatsOp κ) (StatsAns κ))) (k : κ)
    (act : Act (StatsOp κ) (StatsAns κ)) :
    statsProgressOf (acts ++ [(k, act)]) =
      Function.update (statsProgressOf acts) k ((statsProgressOf acts k).note act) := by
  funext j
  unfold statsProgressOf
  rw [doneBy_append]
  by_cases hj : j = k
  · subst hj
    rw [Function.update_self, doneBy_self, statsProgress_append]
  · rw [Function.update_of_ne hj, doneBy_other (Ne.symm hj), List.append_nil]

omit [DecidableEq κ] in
theorem committedTxs_append (acts : List (κ × Act (StatsOp κ) (StatsAns κ))) (k : κ)
    (act : Act (StatsOp κ) (StatsAns κ)) :
    committedTxs (acts ++ [(k, act)]) = committedTxs acts ++ committedTxs [(k, act)] := by
  unfold committedTxs
  rw [List.filterMap_append]

omit [DecidableEq κ] in
theorem committedTxs_of_not_commit {k : κ} {o : StatsOp κ} {answer : StatsAns κ o}
    (h : ∀ tx, o ≠ .commit tx) : committedTxs [(k, ⟨o, answer⟩)] = [] := by
  cases o with
  | commit tx => exact absurd rfl (h tx)
  | _ => rfl

/-- A statement of which nothing is noted. -/
theorem StatsInv.unnoted {rooms : κ → FinishedRoom} {db : StatsDatabase κ} {txs : List κ}
    {progress : κ → StatsProgress} {k : κ} {act : Act (StatsOp κ) (StatsAns κ)}
    (h : StatsInv rooms db txs progress) (hnote : (progress k).note act = progress k) :
    StatsInv rooms db txs (Function.update progress k ((progress k).note act)) := by
  rw [hnote, Function.update_eq_self]
  exact h

/-- Every statement a transaction may make keeps the invariant. -/
theorem StatsInv.step {rooms : κ → FinishedRoom} {db : StatsDatabase κ}
    {acts : List (κ × Act (StatsOp κ) (StatsAns κ))} {k : κ} {o : StatsOp κ}
    (h : StatsInv rooms db (committedTxs acts) (statsProgressOf acts))
    (hmay : StatsAllowed (rooms k) k (doneBy k acts) o) (failing : Bool) :
    StatsInv rooms (statsExec db o failing).1
      (committedTxs (acts ++ [(k, ⟨o, (statsExec db o failing).2⟩)]))
      (statsProgressOf (acts ++ [(k, ⟨o, (statsExec db o failing).2⟩)])) := by
  rw [statsProgressOf_append, committedTxs_append]
  have hown := hmay.own
  have hcommitted : ∀ answer, (∀ tx, o ≠ .commit tx) → committedTxs acts ++
      committedTxs [(k, (⟨o, answer⟩ : Act (StatsOp κ) (StatsAns κ)))] = committedTxs acts := by
    intro answer ho
    rw [committedTxs_of_not_commit ho, List.append_nil]
  cases o with
  | insertPlayerStats tx userId =>
    obtain rfl : tx = k := hown
    unfold statsExec
    dsimp only
    rw [hcommitted _ nofun]
    split
    · exact h.unnoted rfl
    · split
      · exact h.unnoted rfl
      · rename_i hmissing
        split
        · rename_i hfree
          have hnext := h.insertPlayerStats (Option.not_isSome_iff_eq_none.mp hmissing) hfree
          exact hnext.unnoted rfl
        · exact h.unnoted rfl
  | selectForUpdate tx userId =>
    obtain rfl : tx = k := hown
    unfold statsExec
    dsimp only
    rw [hcommitted _ nofun]
    split
    · exact h.unnoted rfl
    · split
      · rename_i hfree
        have hnext := h.selectForUpdate hfree
        dsimp only
        cases hrow : (db.seen tx).playerStats userId with
        | none =>
          rw [hrow] at hnext
          exact hnext
        | some row =>
          rw [hrow] at hnext
          exact hnext
      · exact h.unnoted rfl
  | insertRatingHistory tx row =>
    obtain rfl : tx = k := hown
    obtain ⟨hroom, hlocked, heven, hresult⟩ := hmay.record row rfl
    unfold statsExec
    dsimp only
    rw [hcommitted _ nofun]
    split
    · exact h.unnoted rfl
    · split
      · rename_i hhas
        rw [hroom] at hhas
        exact h.ratingHistorySkipped hhas heven _
      · rename_i hnew
        split
        · rename_i hfree
          split
          · rename_i hvalid
            exact h.insertRatingHistory hroom hlocked heven hresult (Bool.not_eq_true _ ▸ hnew) hfree
              hvalid
          · exact h.unnoted rfl
        · exact h.unnoted rfl
  | updatePlayerStats tx row =>
    obtain rfl : tx = k := hown
    obtain ⟨hrecorded, hrow⟩ := hmay.update row rfl
    have hmem : row.userId ∈ (statsProgressOf acts tx).recorded := by
      unfold statsProgressOf
      rw [hrecorded]
      exact List.mem_append_right _ (List.mem_singleton.mpr rfl)
    have hthere : ((db.seen tx).playerStats row.userId).isSome = true := by
      obtain ⟨_, _, hlocked, _⟩ := (h.txInv tx).recorded _ hmem
      obtain ⟨st, hst⟩ := Option.isSome_iff_exists.mp hlocked
      rw [((h.txInv tx).held _ st hst).2]
      rfl
    unfold statsExec
    dsimp only
    rw [hcommitted _ nofun, if_pos hthere]
    split
    · exact h.unnoted rfl
    · split
      · rename_i hfree
        split
        · exact h.updatePlayerStats hrecorded hrow hfree
        · exact h.unnoted rfl
      · exact h.unnoted rfl
  | commit tx =>
    obtain rfl : tx = k := hown
    obtain ⟨heven, hall⟩ := hmay.commit rfl
    unfold statsExec
    dsimp only
    split
    · have hfailed : ∀ e, committedTxs [(tx, (⟨.commit tx, .error e⟩ :
          Act (StatsOp κ) (StatsAns κ)))] = [] := fun _ => rfl
      rw [hfailed, List.append_nil]
      exact h.unnoted rfl
    · exact h.commit heven hall
  | rollback tx =>
    obtain rfl : tx = k := hown
    rw [hcommitted _ nofun]
    exact h.rollback

omit [DecidableEq κ] in
theorem statsInv_start {exp10 : Rat → Rat} {rooms : κ → FinishedRoom} {scans : κ → List UserId} :
    StatsInv rooms (startedStats exp10 rooms scans).world [] fun _ => .start where
  guarded _ _ hu := nomatch hu
  history userId roomId := by simp [startedStats, emptyTables, StatsTables.hasRatingHistory,
    appliedRooms, appliedFor, Distinct.distinct]
  missing _ _ := rfl
  tallied _ _ hstats := nomatch hstats
  txInv k := ⟨nofun, nofun, List.nodup_nil, nofun, .inl rfl, nofun, nofun⟩

/-- In every interleaving of transactions on finished rooms, the row of each user tells exactly
the distinct rooms that were applied for the user. -/
theorem stats_exactlyOnce {exp10 : Rat → Rat} {rooms : κ → FinishedRoom} {scans : κ → List UserId}
    {sched : List (κ × Bool)} {acts : List (κ × Act (StatsOp κ) (StatsAns κ))}
    {c' : Config κ (StatsDatabase κ) (StatsOp κ) (StatsAns κ) StatsError Unit}
    (h : Interleaved statsExec (startedStats exp10 rooms scans) sched acts c')
    (userId : UserId) :
    (c'.world.committed.playerStats userId = none →
      appliedRooms rooms (committedTxs acts) userId = []) ∧
    ∀ stats, c'.world.committed.playerStats userId = some stats →
      CountedOnce rooms (committedTxs acts) userId stats := by
  have hinv : StatsInv rooms c'.world (committedTxs acts) (statsProgressOf acts) :=
    interleaved_invariant (fun k => StatsAllowed (rooms k) k) (fun _ _ _ => True)
      (fun db acts => StatsInv rooms db (committedTxs acts) (statsProgressOf acts))
      (fun _ _ _ _ g hinv hmay => hinv.step hmay g) h
      (fun k => keeps_finishedGameTransaction exp10 (rooms k) k (scans k)) statsInv_start
  refine ⟨hinv.missing userId, fun stats hstats => ?_⟩
  obtain ⟨_, hgames, hplaces, htotal, hpeak⟩ := hinv.tallied userId stats hstats
  exact ⟨hgames, hplaces, htotal, hpeak⟩

end Interleavings

/-- A casual game of two users, with what each is worth at its end. -/
def casualRoom (room first second : Nat) (firstWorth secondWorth : Int) : FinishedRoom where
  roomId := ⟨room⟩
  mode := .casual
  players := [⟨.human, some ⟨first⟩⟩, ⟨.human, some ⟨second⟩⟩]
  playerResults := [⟨some ⟨first⟩, firstWorth, 1⟩, ⟨some ⟨second⟩, secondWorth, 2⟩]
  results := rfl
  ranked := nofun

/-- One game is applied twice, and another one that a user of the first has also played. -/
def twoRooms : Fin 3 → FinishedRoom
  | 2 => casualRoom 8 3 1 1200 400
  | _ => casualRoom 7 1 2 900 100

/-- The last of the three has begun before the others. -/
theorem twoRooms_exactlyOnce : ∃ scans sched acts c' stats,
    Interleaved statsExec (startedStats (fun _ => 1) twoRooms scans) sched acts c' ∧
    committedTxs acts = [0, 1, 2] ∧ c'.world.committed.playerStats ⟨1⟩ = some stats ∧
    stats.gamesPlayed = 2 ∧ CountedOnce twoRooms (committedTxs acts) ⟨1⟩ stats := by
  obtain ⟨⟨c', acts⟩, hplay, htest⟩ := (Option.any_eq_true _ _).mp (by decide +kernel :
    (Process.play statsExec (startedStats (fun _ => 1) twoRooms fun k =>
        if k = 2 then [⟨3⟩, ⟨1⟩] else [⟨1⟩, ⟨2⟩])
      (([2] ++ List.replicate 9 0 ++ List.replicate 7 1 ++ List.replicate 8 2 : List (Fin 3)).map
        fun k => (k, false))).any (fun last => committedTxs last.2 = [0, 1, 2] &&
          (last.1.world.committed.playerStats ⟨1⟩).any fun stats => stats.gamesPlayed = 2) = true)
  obtain ⟨hcommitted, hstats⟩ := (Bool.and_eq_true_iff ..).mp htest
  obtain ⟨stats, hstats, hgames⟩ := (Option.any_eq_true _ _).mp hstats
  have hrun := play_interleaved hplay
  exact ⟨_, _, acts, c', stats, hrun, of_decide_eq_true hcommitted, hstats,
    of_decide_eq_true hgames, (stats_exactlyOnce hrun ⟨1⟩).2 stats hstats⟩

end Rules
end LivePoly
