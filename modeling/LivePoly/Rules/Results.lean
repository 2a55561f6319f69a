import LivePoly.Lib.Ranking
import LivePoly.Rules.Finishes

/-!
# Rules.Results

The winner and the placements of a finished game. The winner is read off the finish event, the
placements are those of a second order over all players. Both compare net worth, cash, tiles and
seats; the placements take bankrupt players in, and a bankruptcy with a tie names nobody.
-/

namespace LivePoly
namespace Rules

open Engine Checked Service

/-! ## The standings -/

/-- The standing of a player of the list. -/
def standingOf (s : GameEngineState) (pl : GameEnginePlayer) : PlayerNetWorth where
  roomPlayerId := pl.roomPlayerId
  seatNumber := pl.seatNumber
  cash := pl.cash
  ownedPropertyCount :=
    (s.properties.filter fun x => x.ownerRoomPlayerId = some pl.roomPlayerId).length
  assetValue := assets s pl.roomPlayerId
  netWorth := pl.cash + assets s pl.roomPlayerId

/-- By net worth, cash and tiles, then by seat. -/
def standingKey (x : PlayerNetWorth) : ℤᵒᵈ ×ₗ ℤᵒᵈ ×ₗ ℕᵒᵈ ×ₗ ℕ :=
  toLex (.toDual x.netWorth, toLex (.toDual x.cash, toLex (.toDual x.ownedPropertyCount,
    x.seatNumber)))

/-- By net worth, cash and tiles, then those in the game first, then by seat. -/
def finalKey (bankrupt : RoomPlayerId → Bool) (x : PlayerNetWorth) :
    ℤᵒᵈ ×ₗ ℤᵒᵈ ×ₗ ℕᵒᵈ ×ₗ Bool ×ₗ ℕ :=
  toLex (.toDual x.netWorth, toLex (.toDual x.cash, toLex (.toDual x.ownedPropertyCount,
    toLex (bankrupt x.roomPlayerId, x.seatNumber))))

/-- The player with the id is bankrupt. -/
def isBankrupt (players : List GameEnginePlayer) (p : RoomPlayerId) : Bool :=
  (players.find? fun player => player.roomPlayerId = p).any GameEnginePlayer.bankrupt

theorem standsBefore_iff (x y : PlayerNetWorth) :
    standsBefore x y = true ↔ standingKey x ≤ standingKey y :=
  Ranking.higher_first_iff (Ranking.higher_first_iff (Ranking.higher_first_iff decide_eq_true_iff))

theorem compareFinalResultStanding_iff (players : List GameEnginePlayer) (x y : PlayerNetWorth) :
    GameResultsService.compareFinalResultStanding players x y = true ↔
      finalKey (isBankrupt players) x ≤ finalKey (isBankrupt players) y :=
  Ranking.higher_first_iff (Ranking.higher_first_iff (Ranking.higher_first_iff
    (Ranking.unmarked_first_iff decide_eq_true_iff)))

section Standings

variable {s : GameEngineState}

theorem calculatePlayerNetWorth_standing (hb : OnBoard s) {pl : GameEnginePlayer}
    (hpl : pl ∈ s.players) : calculatePlayerNetWorth s pl = .ok (standingOf s pl) := by
  obtain ⟨found, hfound⟩ := Option.isSome_iff_exists.mp
    ((Keyed.find_isSome_iff GameEnginePlayer.roomPlayerId).mpr (List.mem_map_of_mem hpl))
  have hknown : ∀ x ∈ s.properties.filter fun x => x.ownerRoomPlayerId = some pl.roomPlayerId,
      ∃ tile, (s.board.tile? x.tileKey).bind GameTile.ownable? = some tile :=
    fun x hx => hb.ownable (List.mem_of_mem_filter hx)
  have howned : getOwnedProperties s pl.roomPlayerId =
      .ok (s.properties.filter fun x => x.ownerRoomPlayerId = some pl.roomPlayerId) :=
    bind_eq_ok.mpr ⟨found, findPlayer_eq_ok.mpr hfound, rfl⟩
  unfold calculatePlayerNetWorth
  rw [howned, ok_bind, foldlM_assetWorth hknown 0, ok_bind]
  simp only [zero_add, sum_map_filter]
  rfl

theorem mapM_standings (hb : OnBoard s) {players : List GameEnginePlayer}
    (h : ∀ pl ∈ players, pl ∈ s.players) :
    players.mapM (calculatePlayerNetWorth s) = .ok (players.map (standingOf s)) := by
  induction players with
  | nil => rfl
  | cons pl players ih =>
    rw [List.mapM_cons, calculatePlayerNetWorth_standing hb (h pl List.mem_cons_self), ok_bind,
      ih fun x hx => h x (List.mem_cons_of_mem _ hx)]
    rfl

theorem calculateNetWorthStandings_eq (hb : OnBoard s) :
    calculateNetWorthStandings s = .ok (((getActivePlayers s).map (standingOf s)).insertionSort
      fun left right => standsBefore left right) := by
  unfold calculateNetWorthStandings
  rw [mapM_standings hb fun pl hpl => (mem_getActivePlayers.mp hpl).1]
  rfl

theorem calculateFinalResultStandings_eq (hb : OnBoard s) :
    GameResultsService.calculateFinalResultStandings s =
      .ok ((s.players.map (standingOf s)).insertionSort fun left right =>
        GameResultsService.compareFinalResultStanding s.players left right) := by
  unfold GameResultsService.calculateFinalResultStandings
  rw [mapM_standings hb fun _ hpl => hpl]
  rfl

theorem isBankrupt_of_mem (hp : PlayersOk s) {pl : GameEnginePlayer} (hpl : pl ∈ s.players) :
    isBankrupt s.players pl.roomPlayerId = pl.bankrupt := by
  have hfound : s.player? pl.roomPlayerId = some pl := hp.find hpl
  unfold isBankrupt
  rw [show (s.players.find? fun player => player.roomPlayerId = pl.roomPlayerId) = some pl from
    hfound]
  rfl

theorem standingKey_lt_of_le (hs : Seated s) {x y : GameEnginePlayer} (hx : x ∈ s.players)
    (hy : y ∈ s.players) (hne : x ≠ y) (hle : standingKey (standingOf s x) ≤
      standingKey (standingOf s y)) : standingKey (standingOf s x) < standingKey (standingOf s y) := by
  refine lt_of_le_of_ne hle fun heq => hne ?_
  simp only [standingKey, EmbeddingLike.apply_eq_iff_eq, Prod.mk.injEq] at heq
  exact List.inj_on_of_nodup_map hs hx hy heq.2.2.2

/-- Among players in the game the two orders agree. -/
theorem finalKey_lt_of_active (hp : PlayersOk s) {x y : GameEnginePlayer} (hx : x ∈ s.players)
    (hy : y ∈ s.players) (hxActive : x.bankrupt = false) (hyActive : y.bankrupt = false)
    (hlt : standingKey (standingOf s x) < standingKey (standingOf s y)) :
    finalKey (isBankrupt s.players) (standingOf s x) <
      finalKey (isBankrupt s.players) (standingOf s y) := by
  have hxMark : isBankrupt s.players (standingOf s x).roomPlayerId = false :=
    (isBankrupt_of_mem hp hx).trans hxActive
  have hyMark : isBankrupt s.players (standingOf s y).roomPlayerId = false :=
    (isBankrupt_of_mem hp hy).trans hyActive
  unfold finalKey
  rw [hxMark, hyMark]
  simp only [standingKey, Ranking.toLex_higher_lt_iff] at hlt ⊢
  simpa [Prod.Lex.toLex_lt_toLex] using hlt

theorem assets_bankrupt (ht : TilesOk s) (hp : PlayersOk s) {pl : GameEnginePlayer}
    (hpl : pl ∈ s.players) (hbankrupt : pl.bankrupt = true) :
    standingOf s pl = ⟨pl.roomPlayerId, pl.seatNumber, pl.cash, 0, 0, pl.cash⟩ := by
  have hnone : ∀ x ∈ s.properties, x.ownerRoomPlayerId ≠ some pl.roomPlayerId := by
    intro x hx howner
    obtain ⟨found, hfound, hactive⟩ := (ht.tile x hx).owner _ howner
    rw [hp.find hpl] at hfound
    cases hfound
    cases hbankrupt.symm.trans hactive
  have hcount : s.properties.filter (fun x => x.ownerRoomPlayerId = some pl.roomPlayerId) = [] :=
    List.filter_eq_nil_iff.mpr fun x hx howner => hnone x hx (of_decide_eq_true howner)
  have hassets : assets s pl.roomPlayerId = 0 := by
    unfold assets
    refine List.sum_eq_zero fun worth hworth => ?_
    obtain ⟨x, hx, rfl⟩ := List.mem_map.mp hworth
    exact if_neg (hnone x hx)
  unfold standingOf
  rw [hcount, hassets, Int.add_zero]
  rfl

/-- The players still in the game are ranked, with the first of them before the others. -/
theorem standings_first (hv : Valid s) (hs : Seated s) {standings : List PlayerNetWorth}
    (hstandings : calculateNetWorthStandings s = .ok standings)
    (hactive : ∃ pl ∈ s.players, pl.bankrupt = false) :
    ∃ w ∈ s.players, ∃ rest, w.bankrupt = false ∧ standings = standingOf s w :: rest ∧
      (∀ pl ∈ s.players, pl.bankrupt = false → pl ≠ w →
        standingKey (standingOf s w) < standingKey (standingOf s pl)) ∧
      ∀ x, x ∈ rest ↔ ∃ pl ∈ s.players, pl.bankrupt = false ∧ pl ≠ w ∧ standingOf s pl = x := by
  have hsort := calculateNetWorthStandings_eq hv.tiles.keys
  rw [hstandings] at hsort
  have hsort := Except.ok.inj hsort
  have hperm : standings.Perm ((getActivePlayers s).map (standingOf s)) := by
    rw [hsort]
    exact List.perm_insertionSort _ _
  have hordered : standings.Pairwise fun x y => standingKey x ≤ standingKey y := by
    rw [hsort]
    exact Ranking.pairwise_sorted standsBefore_iff _
  have hids : (standings.map PlayerNetWorth.roomPlayerId).Nodup := by
    refine (hperm.map _).nodup_iff.mpr ?_
    rw [List.map_map]
    exact getActivePlayers_nodup hv
  have hmem : ∀ x, x ∈ standings ↔ ∃ pl ∈ s.players, pl.bankrupt = false ∧ standingOf s pl = x := by
    intro x
    rw [hperm.mem_iff, List.mem_map]
    simp only [mem_getActivePlayers, and_assoc]
  clear hsort hperm
  cases standings with
  | nil =>
    obtain ⟨pl, hpl, hin⟩ := hactive
    cases (hmem _).mpr ⟨pl, hpl, hin, rfl⟩
  | cons first rest =>
    obtain ⟨w, hw, hwActive, rfl⟩ := (hmem first).mp List.mem_cons_self
    have hrest : ∀ x, x ∈ rest ↔
        ∃ pl ∈ s.players, pl.bankrupt = false ∧ pl ≠ w ∧ standingOf s pl = x := by
      rw [List.map_cons] at hids
      have hfirst := (List.nodup_cons.mp hids).1
      intro x
      constructor
      · intro hx
        obtain ⟨pl, hpl, hin, rfl⟩ := (hmem x).mp (List.mem_cons_of_mem _ hx)
        refine ⟨pl, hpl, hin, ?_, rfl⟩
        rintro rfl
        exact hfirst (List.mem_map_of_mem hx)
      · rintro ⟨pl, hpl, hin, hne, rfl⟩
        rcases List.mem_cons.mp ((hmem _).mpr ⟨pl, hpl, hin, rfl⟩) with heq | hx
        · refine absurd ?_ hne
          exact List.inj_on_of_nodup_map hs hpl hw (congrArg PlayerNetWorth.seatNumber heq)
        · exact hx
    refine ⟨w, hw, rest, hwActive, rfl, ?_, hrest⟩
    intro pl hpl hin hne
    refine standingKey_lt_of_le hs hw hpl hne.symm ?_
    exact List.rel_of_pairwise_cons hordered ((hrest _).mpr ⟨pl, hpl, hin, hne, rfl⟩)

end Standings

/-! ## The winner -/

/-- One player still in the game is worth more than every other one. -/
def LeadsAlone (s : GameEngineState) (w : GameEnginePlayer) : Prop :=
  w ∈ s.players ∧ w.bankrupt = false ∧ ∀ pl ∈ s.players, pl.bankrupt = false → pl ≠ w →
    (standingOf s pl).netWorth < (standingOf s w).netWorth

/-- The winner that is saved for a finish. -/
def winnerSaved (events : List GameEngineEvent) (standings : List PlayerNetWorth) :
    Option RoomPlayerId :=
  if (events.findSome? bankruptcyWinner?).isSome then
    if (tiedIds standings).length = 1 then (tiedIds standings).head? else none
  else firstId standings

section Winner

variable {s s' : GameEngineState} {standings : List PlayerNetWorth}
  {events : List GameEngineEvent}

theorem findSome_append_singleton {α β : Type} {l : List α} {f : α → Option β}
    (h : ∀ x ∈ l, f x = none) (x : α) : (l ++ [x]).findSome? f = f x := by
  rw [List.findSome?_append, List.findSome?_eq_none_iff.mpr h, Option.none_or]
  cases hx : f x with
  | none => simp [hx]
  | some y => simp [hx]

theorem noFinish_bankruptcyWinner {event : GameEngineEvent} (h : finishTime? event = none) :
    bankruptcyWinner? event = none := by
  cases event <;> first | rfl | cases h

theorem getWinnerRoomPlayerId_eq (h : FinishedBy s s' standings events)
    (hstandings : calculateNetWorthStandings s' = .ok standings) :
    GameResultsService.getWinnerRoomPlayerId events s' = .ok (winnerSaved events standings) := by
  cases h with
  | bankruptcy hbefore =>
    have hfound := findSome_append_singleton
      (fun event hevent => noFinish_bankruptcyWinner (hbefore event hevent))
      (.gameFinishedByBankruptcy
        (if (tiedIds standings).length = 1 then (tiedIds standings).head? else none)
        (tiedIds standings) standings)
    unfold GameResultsService.getWinnerRoomPlayerId winnerSaved
    rw [hfound]
    rfl
  | time | lastHumanLeft =>
    unfold GameResultsService.getWinnerRoomPlayerId winnerSaved
    cases hfirst : firstId standings with
    | some winner => rfl
    | none =>
      have hwinner : (getNetWorthWinner standings).map PlayerNetWorth.roomPlayerId = none := hfirst
      simp only [List.findSome?, bankruptcyWinner?, timeWinner?, abandonedWinner?, hstandings,
        ok_bind, hwinner]
      rfl

theorem tiedIds_length {w : GameEnginePlayer} {rest : List PlayerNetWorth}
    (hw : w ∈ s.players ∧ w.bankrupt = false)
    (hleast : ∀ pl ∈ s.players, pl.bankrupt = false → pl ≠ w →
      standingKey (standingOf s w) < standingKey (standingOf s pl))
    (hrest : ∀ x, x ∈ rest ↔
      ∃ pl ∈ s.players, pl.bankrupt = false ∧ pl ≠ w ∧ standingOf s pl = x) :
    (tiedIds (standingOf s w :: rest)).length = 1 ↔ LeadsAlone s w := by
  have htied : (tiedIds (standingOf s w :: rest)).length =
      (rest.filter fun x => x.netWorth = (standingOf s w).netWorth).length + 1 := by
    unfold tiedIds getNetWorthWinners
    simp
  rw [htied, Nat.succ_inj, List.length_eq_zero_iff, List.filter_eq_nil_iff]
  constructor
  · intro hnone
    refine ⟨hw.1, hw.2, fun pl hpl hactive hne => ?_⟩
    have hother := hnone _ ((hrest _).mpr ⟨pl, hpl, hactive, hne, rfl⟩)
    have hlt := hleast pl hpl hactive hne
    rw [standingKey, standingKey, Ranking.toLex_higher_lt_iff] at hlt
    rcases hlt with hlt | ⟨heq, _⟩
    · exact hlt
    · exact absurd (decide_eq_true heq.symm) hother
  · rintro ⟨_, _, halone⟩ x hx
    obtain ⟨pl, hpl, hactive, hne, rfl⟩ := (hrest x).mp hx
    have hlt := halone pl hpl hactive hne
    rw [decide_eq_true_iff]
    exact hlt.ne

theorem LeadsAlone.eq_first {v w : GameEnginePlayer} (hv : LeadsAlone s v)
    (hw : w ∈ s.players ∧ w.bankrupt = false)
    (hleast : ∀ pl ∈ s.players, pl.bankrupt = false → pl ≠ w →
      standingKey (standingOf s w) < standingKey (standingOf s pl)) : v = w := by
  by_contra hne
  have hlt := hleast v hv.1 hv.2.1 hne
  have hworth := hv.2.2 w hw.1 hw.2 (Ne.symm hne)
  rw [standingKey, standingKey, Ranking.toLex_higher_lt_iff] at hlt
  rcases hlt with hlt | ⟨heq, _⟩
  · exact absurd hworth hlt.not_gt
  · exact absurd heq.symm hworth.ne'

end Winner

/-! ## The placements -/

/-- The saved rows: the winner comes first, the placements count the players, and who is still in
the game comes before who is not. -/
structure PlacementsAgree (saved : SaveGameResultsInput) : Prop where
  winner : ∃ row ∈ saved.playerResults,
    saved.winnerRoomPlayerId = some row.roomPlayerId ∧ row.placement = 1
  placements : (saved.playerResults.map SaveRoomPlayerResultInput.placement).Perm
    (List.range' 1 saved.state.players.length)
  bankrupt : ∀ row ∈ saved.playerResults, ∀ out ∈ saved.playerResults,
    row.bankruptAt.isSome = false → out.bankruptAt.isSome = true → row.placement < out.placement

/-- A bankruptcy leaves one player ahead, and who is bankrupt has less than who is not. -/
structure ClearFinish (r : GameEngineResult) : Prop where
  winner : (r.events.findSome? bankruptcyWinner?).isSome → ∃ w, LeadsAlone r.state w
  bankrupt : ∀ pl ∈ r.state.players, ∀ out ∈ r.state.players,
    pl.bankrupt = false → out.bankrupt = true →
      out.cash < (standingOf r.state pl).netWorth ∨
        out.cash = (standingOf r.state pl).netWorth ∧ out.cash ≤ pl.cash

section Placements

variable {s : GameEngineState}

/-- When a player in the game is placed before a bankrupt one. -/
theorem finalKey_lt_bankrupt_iff (hv : Valid s) {pl out : GameEnginePlayer} (hpl : pl ∈ s.players)
    (hout : out ∈ s.players) (hactive : pl.bankrupt = false) (hbankrupt : out.bankrupt = true) :
    finalKey (isBankrupt s.players) (standingOf s pl) <
        finalKey (isBankrupt s.players) (standingOf s out) ↔
      out.cash < (standingOf s pl).netWorth ∨
        out.cash = (standingOf s pl).netWorth ∧ out.cash ≤ pl.cash := by
  have hplMark : isBankrupt s.players (standingOf s pl).roomPlayerId = false :=
    (isBankrupt_of_mem hv.players hpl).trans hactive
  have houtMark : isBankrupt s.players out.roomPlayerId = true :=
    (isBankrupt_of_mem hv.players hout).trans hbankrupt
  have hcash : (standingOf s pl).cash = pl.cash := rfl
  rw [assets_bankrupt hv.tiles hv.players hout hbankrupt]
  unfold finalKey
  rw [hplMark, houtMark]
  rw [Ranking.toLex_higher_lt_iff, Ranking.toLex_higher_lt_iff, Ranking.toLex_higher_lt_iff,
    Prod.Lex.toLex_lt_toLex, hcash]
  generalize (standingOf s pl).netWorth = worth
  generalize (standingOf s pl).ownedPropertyCount = count
  simp only [Bool.false_lt_true, true_or, and_true]
  omega

theorem finalKey_lt_or_lt (hs : Seated s) {x y : GameEnginePlayer} (hx : x ∈ s.players)
    (hy : y ∈ s.players) (hne : x ≠ y) :
    finalKey (isBankrupt s.players) (standingOf s x) <
        finalKey (isBankrupt s.players) (standingOf s y) ∨
      finalKey (isBankrupt s.players) (standingOf s y) <
        finalKey (isBankrupt s.players) (standingOf s x) := by
  refine lt_or_gt_of_ne fun heq => hne ?_
  simp only [finalKey, EmbeddingLike.apply_eq_iff_eq, Prod.mk.injEq] at heq
  exact List.inj_on_of_nodup_map hs hx hy heq.2.2.2.2

/-- The ranking behind the placements. -/
structure Ranked (s : GameEngineState) (standings : List PlayerNetWorth) : Prop where
  listed : standings.Perm (s.players.map (standingOf s))
  ids : (standings.map PlayerNetWorth.roomPlayerId).Nodup
  ordered : standings.Pairwise fun x y =>
    finalKey (isBankrupt s.players) x ≤ finalKey (isBankrupt s.players) y

theorem finalStandings_ranked (hv : Valid s) : ∃ standings,
    GameResultsService.calculateFinalResultStandings s = .ok standings ∧ Ranked s standings := by
  have hperm := List.perm_insertionSort (fun left right : PlayerNetWorth =>
    GameResultsService.compareFinalResultStanding s.players left right)
    (s.players.map (standingOf s))
  refine ⟨_, calculateFinalResultStandings_eq hv.tiles.keys, hperm, ?_,
    Ranking.pairwise_sorted (compareFinalResultStanding_iff s.players) _⟩
  refine (hperm.map _).nodup_iff.mpr ?_
  rw [List.map_map]
  exact hv.players.ids

section Rows

theorem bankruptAt_isSome (input : FinalizeGameResultInput) (completedAt : Int)
    (standings : List PlayerNetWorth) (pl : GameEnginePlayer) :
    (GameResultsService.playerResult input completedAt standings pl).bankruptAt.isSome =
      pl.bankrupt := by
  unfold GameResultsService.playerResult
  cases pl.bankrupt <;> rfl

variable {standings : List PlayerNetWorth} (h : Ranked s standings)
  (input : FinalizeGameResultInput) (completedAt : Int)

include h

theorem Ranked.mem {pl : GameEnginePlayer} (hpl : pl ∈ s.players) :
    standingOf s pl ∈ standings := h.listed.mem_iff.mpr (List.mem_map_of_mem hpl)

/-- The placement in a player's row is its place in the ranking. -/
theorem Ranked.placement {pl : GameEnginePlayer} (hpl : pl ∈ s.players) :
    Ranking.place PlayerNetWorth.roomPlayerId standings pl.roomPlayerId =
      some (GameResultsService.playerResult input completedAt standings pl).placement := by
  obtain ⟨n, _, _, hplace⟩ := Ranking.place_of_mem h.ids (h.mem hpl)
  have hplace : Ranking.place PlayerNetWorth.roomPlayerId standings pl.roomPlayerId =
      some (n + 1) := hplace
  have hof : GameResultsService.placementOf standings pl.roomPlayerId = some (n + 1) := hplace
  rw [hplace]
  show some (n + 1) =
    some ((GameResultsService.placementOf standings pl.roomPlayerId).getD input.state.players.length)
  rw [hof]
  rfl

theorem Ranked.placement_lt {x y : GameEnginePlayer} (hx : x ∈ s.players) (hy : y ∈ s.players)
    (hlt : finalKey (isBankrupt s.players) (standingOf s x) <
      finalKey (isBankrupt s.players) (standingOf s y)) :
    (GameResultsService.playerResult input completedAt standings x).placement <
      (GameResultsService.playerResult input completedAt standings y).placement := by
  obtain ⟨m, n, hm, hn, hmn⟩ := Ranking.place_lt h.ordered h.ids (h.mem hx) (h.mem hy) hlt
  have hm : Ranking.place PlayerNetWorth.roomPlayerId standings x.roomPlayerId = some m := hm
  have hn : Ranking.place PlayerNetWorth.roomPlayerId standings y.roomPlayerId = some n := hn
  rw [h.placement input completedAt hx] at hm
  rw [h.placement input completedAt hy] at hn
  rwa [Option.some.inj hm, Option.some.inj hn]

theorem Ranked.placement_first {w : GameEnginePlayer} (hw : w ∈ s.players)
    (hfirst : ∀ pl ∈ s.players, pl ≠ w → finalKey (isBankrupt s.players) (standingOf s w) <
      finalKey (isBankrupt s.players) (standingOf s pl)) :
    (GameResultsService.playerResult input completedAt standings w).placement = 1 := by
  have hplace := Ranking.place_first h.ordered h.ids (h.mem hw) fun y hy hne => by
    obtain ⟨pl, hpl, rfl⟩ := List.mem_map.mp (h.listed.mem_iff.mp hy)
    exact hfirst pl hpl fun heq => hne (heq ▸ rfl)
  have hplace : Ranking.place PlayerNetWorth.roomPlayerId standings w.roomPlayerId = some 1 :=
    hplace
  rw [h.placement input completedAt hw] at hplace
  exact Option.some.inj hplace

theorem Ranked.placements :
    ((s.players.map (GameResultsService.playerResult input completedAt standings)).map
      SaveRoomPlayerResultInput.placement).Perm (List.range' 1 s.players.length) := by
  have hcount := Ranking.map_place h.ids
  have hperm := h.listed.map fun x =>
    Ranking.place PlayerNetWorth.roomPlayerId standings x.roomPlayerId
  rw [hcount, List.map_map, h.listed.length_eq, List.length_map] at hperm
  have hrows : s.players.map ((fun x =>
      Ranking.place PlayerNetWorth.roomPlayerId standings x.roomPlayerId) ∘ standingOf s) =
      (s.players.map fun pl =>
        (GameResultsService.playerResult input completedAt standings pl).placement).map some := by
    rw [List.map_map]
    exact List.map_congr_left fun pl hpl => h.placement input completedAt hpl
  rw [hrows] at hperm
  rw [List.map_map]
  exact ((List.map_perm_map_iff (Option.some_injective _)).mp hperm).symm

end Rows

end Placements

/-! ## Agreement -/

section Agreement

variable {env : Env} {input : CreateInitialGameStateInput} {s : GameEngineState}
  {intent : GameEngineIntent} {r : GameEngineResult}

/-- A finish leaves somebody in the game, but for a bankruptcy without a lone leader. -/
theorem finish_active (hv : Valid s) (hgoes : InProgress s) {standings : List PlayerNetWorth}
    (h : FinishedBy s r.state standings r.events)
    (hwinner : (r.events.findSome? bankruptcyWinner?).isSome → ∃ w, LeadsAlone r.state w) :
    ∃ pl ∈ r.state.players, pl.bankrupt = false := by
  cases hevents : r.events.findSome? bankruptcyWinner? with
  | some winner =>
    obtain ⟨w, hw, hactive, _⟩ := hwinner (by rw [hevents]; rfl)
    exact ⟨w, hw, hactive⟩
  | none =>
    obtain ⟨pl, hpl, hactive⟩ := hv.table.turn hgoes
    have hplayers : r.state.players = s.players := by
      generalize hof : r.events = events at h hevents
      cases h with
      | bankruptcy =>
        rw [List.findSome?_append, Option.or_eq_none_iff] at hevents
        cases hevents.2
      | time hplayers | lastHumanLeft hplayers => exact hplayers
    exact ⟨pl, hplayers ▸ GameEngineState.player?_mem hpl, hactive⟩

theorem reachable_seated (hi : ValidInput input) (h : Reachable input s) : Seated s := by
  obtain ⟨sent, events, start, ⟨env, hstart⟩, hrun⟩ := h
  exact (run_sameSeats (createInitialGameState_valid hi hstart) hrun).seated
    (createInitialGameState_seated hi hstart).1

/-- A winner is saved when the finish is clear: the first one of the standings. -/
theorem winnerSaved_eq (hv : Valid s) (hs : Seated s) {standings : List PlayerNetWorth}
    {events : List GameEngineEvent}
    (hstandings : calculateNetWorthStandings s = .ok standings)
    (hactive : ∃ pl ∈ s.players, pl.bankrupt = false)
    (hwinner : (events.findSome? bankruptcyWinner?).isSome → ∃ w, LeadsAlone s w) :
    ∃ w ∈ s.players, w.bankrupt = false ∧ winnerSaved events standings = some w.roomPlayerId ∧
      ∀ pl ∈ s.players, pl.bankrupt = false → pl ≠ w →
        standingKey (standingOf s w) < standingKey (standingOf s pl) := by
  obtain ⟨w, hw, rest, hin, rfl, hleast, hrest⟩ := standings_first hv hs hstandings hactive
  refine ⟨w, hw, hin, ?_, hleast⟩
  unfold winnerSaved
  split
  · rename_i hbankruptcy
    obtain ⟨v, halone⟩ := hwinner hbankruptcy
    obtain rfl := halone.eq_first ⟨hw, hin⟩ hleast
    rw [if_pos ((tiedIds_length ⟨hw, hin⟩ hleast hrest).mpr halone)]
    unfold tiedIds getNetWorthWinners
    simp [standingOf]
  · rfl

theorem leadsAlone_of_winnerSaved (hv : Valid s) (hs : Seated s)
    {standings : List PlayerNetWorth} {events : List GameEngineEvent}
    (hstandings : calculateNetWorthStandings s = .ok standings)
    (hbankruptcy : (events.findSome? bankruptcyWinner?).isSome)
    (hwinner : (winnerSaved events standings).isSome) : ∃ w, LeadsAlone s w := by
  unfold winnerSaved at hwinner
  rw [if_pos hbankruptcy] at hwinner
  by_cases hactive : ∃ pl ∈ s.players, pl.bankrupt = false
  · obtain ⟨w, hw, rest, hin, rfl, hleast, hrest⟩ := standings_first hv hs hstandings hactive
    split at hwinner
    · rename_i htied
      exact ⟨w, (tiedIds_length ⟨hw, hin⟩ hleast hrest).mp htied⟩
    · cases hwinner
  · have hnone : getActivePlayers s = [] :=
      List.eq_nil_iff_forall_not_mem.mpr fun pl hpl => hactive ⟨pl, mem_getActivePlayers.mp hpl⟩
    have hsort := calculateNetWorthStandings_eq hv.tiles.keys
    rw [hstandings, hnone] at hsort
    rw [Except.ok.inj hsort] at hwinner
    cases hwinner

/-- The saved winner and placements agree exactly when the finish is clear. -/
theorem finalized_agrees_iff (hi : ValidInput input) (hs : Reachable input s)
    (hgoes : s.phase ≠ .finished) (haccepted : reduceGameEngineIntent env s intent = .ok r)
    (hfinished : r.state.phase = .finished) (gameId : GameId) (roomId : RoomId)
    (startedAt : Option Int) (userIdOf : RoomPlayerId → Option UserId) (now : Int) :
    ∃ saved, GameResultsService.resultsOf now
        ⟨gameId, roomId, startedAt, userIdOf, r.state, r.events⟩ = .ok saved ∧
      (PlacementsAgree saved ↔ ClearFinish r) := by
  have hv : Valid s := reachable_valid hi hs
  have hvAfter : Valid r.state := accepted_valid hv haccepted
  have hseats : Seated r.state :=
    (accepted_seats hv haccepted).1.seated (reachable_seated hi hs)
  obtain ⟨standings, hstandings, hfinish⟩ := accepted_finishes hv hgoes haccepted hfinished
  obtain ⟨ranking, hranking, hranked⟩ := finalStandings_ranked hvAfter
  have hgoes : InProgress s := by
    rcases accepted_inProgress hv haccepted with hprogress | ⟨_, p, hintent⟩
    · exact hprogress
    · have hmove := reduceGameEngineIntent_move hv.sound (permits_unrestricted env s intent)
        haccepted
      exact absurd ((hmove.leavesJail_phase hintent).symm.trans hfinished) hgoes
  generalize hfinalize : FinalizeGameResultInput.mk gameId roomId startedAt userIdOf r.state
    r.events = finalize
  have hstate : finalize.state = r.state := by rw [← hfinalize]
  have hevents : finalize.events = r.events := by rw [← hfinalize]
  unfold GameResultsService.resultsOf GameResultsService.buildPlayerResults
  simp only [hstate, hevents, getWinnerRoomPlayerId_eq hfinish hstandings, ok_bind, hranking,
    pure_bind]
  refine ⟨_, rfl, ?_⟩
  generalize GameResultsService.getCompletedAt now r.events = completedAt
  constructor
  · intro hagree
    refine ⟨fun hbankruptcy => ?_, fun pl hpl out hout hactive hbankrupt => ?_⟩
    · obtain ⟨row, _, hwinner, _⟩ := hagree.winner
      refine leadsAlone_of_winnerSaved hvAfter hseats hstandings hbankruptcy ?_
      exact Option.isSome_iff_exists.mpr ⟨_, hwinner⟩
    · have hne : pl ≠ out := by
        rintro rfl
        cases hactive.symm.trans hbankrupt
      rw [← finalKey_lt_bankrupt_iff hvAfter hpl hout hactive hbankrupt]
      rcases finalKey_lt_or_lt hseats hpl hout hne with hlt | hlt
      · exact hlt
      · have hbefore := hranked.placement_lt finalize completedAt hout hpl hlt
        refine absurd (hagree.bankrupt _ (List.mem_map_of_mem hpl) _ (List.mem_map_of_mem hout)
          ?_ ?_) hbefore.not_gt
        · exact (bankruptAt_isSome _ _ _ _).trans hactive
        · exact (bankruptAt_isSome _ _ _ _).trans hbankrupt
  · intro hclear
    have hactive := finish_active hv hgoes hfinish hclear.winner
    obtain ⟨w, hw, hin, hwinner, hleast⟩ :=
      winnerSaved_eq hvAfter hseats hstandings hactive hclear.winner
    have hbankrupt : ∀ pl ∈ r.state.players, ∀ out ∈ r.state.players, pl.bankrupt = false →
        out.bankrupt = true → finalKey (isBankrupt r.state.players) (standingOf r.state pl) <
          finalKey (isBankrupt r.state.players) (standingOf r.state out) :=
      fun pl hpl out hout hactive hout' => (finalKey_lt_bankrupt_iff hvAfter hpl hout hactive
        hout').mpr (hclear.bankrupt pl hpl out hout hactive hout')
    refine ⟨⟨_, List.mem_map_of_mem hw, hwinner, ?_⟩, ?_, ?_⟩
    · refine hranked.placement_first finalize completedAt hw fun pl hpl hne => ?_
      cases hpl' : pl.bankrupt with
      | false => exact finalKey_lt_of_active hvAfter.players hw hpl hin hpl' (hleast pl hpl hpl' hne)
      | true => exact hbankrupt w hw pl hpl hin hpl'
    · exact hranked.placements finalize completedAt
    · intro row hrow out hout hnone hsome
      obtain ⟨pl, hpl, rfl⟩ := List.mem_map.mp hrow
      obtain ⟨other, hother, rfl⟩ := List.mem_map.mp hout
      rw [bankruptAt_isSome] at hnone hsome
      exact hranked.placement_lt finalize completedAt hpl hother
        (hbankrupt pl hpl other hother hnone hsome)

end Agreement

/-- The clock of the three runs out with nothing played. -/
theorem threePlayers_placementsAgree : ∃ s r saved, Reachable threePlayers s ∧
    reduceGameEngineIntent ⟨0, ""⟩ s (.finishGameByTime (.int 3600000)) = .ok r ∧
    GameResultsService.resultsOf 3600000 ⟨⟨1⟩, ⟨1⟩, some 0, fun _ => none, r.state, r.events⟩ =
      .ok saved ∧ PlacementsAgree saved := by
  obtain ⟨start, hstart, htest⟩ := exists_ok_of_any (by decide +kernel :
    (playThree []).toOption.any (fun start => start.state.phase ≠ .finished ∧
      (reduceGameEngineIntent ⟨0, ""⟩ start.state
        (.finishGameByTime (.int 3600000))).toOption.any fun r =>
          r.state.phase = .finished ∧ r.events.findSome? bankruptcyWinner? = none ∧
          r.state.players.all fun pl => pl.bankrupt = false) = true)
  obtain ⟨hgoes, htest⟩ := of_decide_eq_true htest
  obtain ⟨r, hr, htest⟩ := exists_ok_of_any htest
  obtain ⟨hfinished, hevents, hplayers⟩ := of_decide_eq_true htest
  have hreach : Reachable threePlayers start.state := playRoom_reachable hstart
  obtain ⟨saved, hsaved, hiff⟩ := finalized_agrees_iff threePlayers_valid hreach hgoes hr hfinished
    ⟨1⟩ ⟨1⟩ (some 0) (fun _ => none) 3600000
  refine ⟨start.state, r, saved, hreach, hr, hsaved, hiff.mpr ⟨?_, ?_⟩⟩
  · rw [hevents]
    exact nofun
  · intro _ _ out hout _ hbankrupt
    have hin := of_decide_eq_true (List.all_eq_true.mp hplayers out hout)
    cases hin.symm.trans hbankrupt

/-- A human and two bots. -/
def guestAndBots : CreateInitialGameStateInput where
  roomId := "room"
  startedAt := some 0
  durationMinutes := 60
  players := [⟨⟨1⟩, .human, none, 1⟩, ⟨⟨2⟩, .bot, some .normal, 2⟩, ⟨⟨3⟩, .bot, some .normal, 3⟩]

/-- The human gives up at once: the bots are worth the same, nobody is named, and nothing can be
saved. -/
theorem guestAndBots_noWinner : ∃ s r saved, Reachable guestAndBots s ∧ s.phase ≠ .finished ∧
    reduceGameEngineIntent ⟨0, ""⟩ s (.declareBankruptcy ⟨1⟩ none) = .ok r ∧
    r.state.phase = .finished ∧
    GameResultsService.resultsOf 1000 ⟨⟨1⟩, ⟨1⟩, some 0, fun _ => none, r.state, r.events⟩ =
      .ok saved ∧
    ¬ PlacementsAgree saved ∧
    ∀ tables, GameResultsRepository.saveFinishedGame tables saved = .error .checkViolation := by
  obtain ⟨start, hstart, htest⟩ := exists_ok_of_any (by decide +kernel :
    (playRoom ⟨0, ""⟩ guestAndBots []).toOption.any (fun start => start.state.phase ≠ .finished ∧
      (reduceGameEngineIntent ⟨0, ""⟩ start.state
        (.declareBankruptcy ⟨1⟩ none)).toOption.any fun r => r.state.phase = .finished ∧
          (GameResultsService.resultsOf 1000
            ⟨⟨1⟩, ⟨1⟩, some 0, fun _ => none, r.state, r.events⟩).toOption.any fun saved =>
              saved.winnerRoomPlayerId = none ∧ saved.endReason = .bankruptcy) = true)
  obtain ⟨hgoes, htest⟩ := of_decide_eq_true htest
  obtain ⟨r, hr, htest⟩ := exists_ok_of_any htest
  obtain ⟨hfinished, htest⟩ := of_decide_eq_true htest
  obtain ⟨saved, hsaved, htest⟩ := exists_ok_of_any htest
  obtain ⟨hwinner, hreason⟩ := of_decide_eq_true htest
  refine ⟨start.state, r, saved, playRoom_reachable hstart, hgoes, hr, hfinished, hsaved, ?_, ?_⟩
  · rintro ⟨⟨row, _, hnamed, _⟩, _, _⟩
    cases hwinner.symm.trans hnamed
  · intro tables
    unfold GameResultsRepository.saveFinishedGame GameResultsRepository.upsertRoomResult
    rw [hwinner, hreason]
    rfl

end Rules
end LivePoly
