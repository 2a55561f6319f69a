import LivePoly.Rules.BuildSell
import LivePoly.Service.Bots

/-!
# Rules.BotChoices

What a bot picks at the end of its turn. On records that fit the board its searches return, and
what they return can be done: the mortgage can be redeemed, the tile can be built on, the trade can
be proposed.
-/

namespace LivePoly
namespace Rules

open Engine Service Checked

section Searches

variable {s : GameEngineState} {bot : GameEnginePlayer} {p : RoomPlayerId}

/-! ## Records -/

theorem botFindPropertyState_eq_ok {key : TileKey} {x : GameEngineProperty} :
    GameBotService.findPropertyState s key = .ok x ↔ s.property? key = some x := orThrow_eq_ok

theorem botFindPropertyState_succeeds (h : OnBoard s) {setKey : PropertySetKey}
    {tile : PropertyTile} (htile : tile ∈ s.board.setTiles setKey) :
    Succeeds (GameBotService.findPropertyState s tile.key) := by
  obtain ⟨x, hx⟩ := OnBoard.street h (setTiles_street htile).1
  exact ⟨x, botFindPropertyState_eq_ok.mpr hx⟩

theorem ownsCompletePropertySet_succeeds (h : OnBoard s) (setKey : PropertySetKey) :
    Succeeds (GameBotService.ownsCompletePropertySet s p setKey) := by
  refine succeeds_allM fun tile htile => ?_
  exact (botFindPropertyState_succeeds h htile).then fun _ _ => succeeds_pure _

theorem firstCandidate_mem {candidates : List GameBotService.Candidate}
    {candidate : GameBotService.Candidate}
    (h : GameBotService.firstCandidate candidates = some candidate) : candidate ∈ candidates := by
  have hmem := List.mem_of_mem_head? h
  rwa [List.mem_insertionSort] at hmem

/-! ## Mortgages -/

theorem unmortgageCandidate_succeeds (h : OnBoard s) (x : GameEngineProperty) :
    Succeeds (GameBotService.unmortgageCandidate s bot x) := by
  unfold GameBotService.unmortgageCandidate
  split
  · exact succeeds_pure none
  · split
    · exact (ownsCompletePropertySet_succeeds h _).then fun _ _ => succeeds_pure _
    · exact (succeeds_pure false).then fun _ _ => succeeds_pure _

theorem unmortgageCandidate_eq_some {x : GameEngineProperty} {candidate : GameBotService.Candidate}
    (h : GameBotService.unmortgageCandidate s bot x = .ok (some candidate)) :
    ∃ tile, GameBotService.getOwnableTile s x.tileKey = some tile ∧
      candidate.tileKey = x.tileKey ∧
      candidate.cost = GameBotService.getUnmortgageCost tile.mortgageValue := by
  unfold GameBotService.unmortgageCandidate at h
  split at h
  · cases h
  · rename_i tile htile
    dsimp only at h
    split at h
    · obtain ⟨_, _, h⟩ := bind_eq_ok.mp h
      cases h
      exact ⟨_, htile, rfl, rfl⟩
    · obtain ⟨_, _, h⟩ := bind_eq_ok.mp h
      cases h
      exact ⟨_, htile, rfl, rfl⟩

theorem findPropertyToUnmortgage_succeeds (h : OnBoard s) :
    Succeeds (GameBotService.findPropertyToUnmortgage s bot) := by
  refine (succeeds_mapM fun x _ => unmortgageCandidate_succeeds h x).then fun _ _ => ?_
  exact succeeds_pure _

/-- A mortgage the bot picks is its own, and it can pay for it. -/
theorem findPropertyToUnmortgage_eq_some {key : TileKey}
    (h : GameBotService.findPropertyToUnmortgage s bot = .ok (some key)) :
    ∃ x ∈ s.properties, ∃ tile, x.tileKey = key ∧
      x.ownerRoomPlayerId = some bot.roomPlayerId ∧ x.mortgaged = true ∧
      (s.board.tile? key).bind GameTile.ownable? = some tile ∧
      GameBotService.cashReserve bot ≤ bot.cash - getUnmortgageCost tile.mortgageValue := by
  obtain ⟨candidates, hcandidates, h⟩ := bind_eq_ok.mp h
  obtain ⟨candidate, hfirst, rfl⟩ := Option.map_eq_some_iff.mp (Except.ok.inj h)
  obtain ⟨hmem, hcash⟩ := List.mem_filter.mp (firstCandidate_mem hfirst)
  obtain ⟨found, hfound, hcandidate⟩ := List.mem_filterMap.mp hmem
  cases hcandidate
  obtain ⟨x, hx, hpicked⟩ := mapM_mem_right hcandidates hfound
  obtain ⟨hx, hmortgaged⟩ := List.mem_filter.mp hx
  obtain ⟨howner, hmortgaged⟩ := Bool.and_eq_true_iff.mp hmortgaged
  obtain ⟨tile, htile, hkey, hcost⟩ := unmortgageCandidate_eq_some hpicked
  have hcash := of_decide_eq_true hcash
  rw [hcost] at hcash
  exact ⟨x, hx, tile, hkey.symm, of_decide_eq_true howner, hmortgaged, hkey ▸ htile, hcash⟩

/-! ## Buildings -/

theorem getDevelopmentLevel_eq (ht : TilesOk s) {x : GameEngineProperty} (hx : x ∈ s.properties) :
    GameBotService.getDevelopmentLevel x = x.level := by
  have hnone := (ht.tile x hx).hotel
  unfold GameBotService.getDevelopmentLevel GameEngineProperty.level
  split
  · rename_i hhotel
    rw [hnone hhotel]
    rfl
  · omega

theorem buildCandidates_succeeds (h : OnBoard s) (setKey : PropertySetKey) :
    Succeeds (GameBotService.buildCandidates s bot setKey) := by
  have hrecord : ∀ tile ∈ s.board.setTiles setKey,
      Succeeds (GameBotService.findPropertyState s tile.key) := fun _ htile =>
    botFindPropertyState_succeeds h htile
  refine (succeeds_mapM hrecord).then fun set _ => ?_
  split
  · exact succeeds_pure []
  · split
    · exact succeeds_pure []
    · split
      · exact succeeds_pure []
      · refine Succeeds.then (succeeds_mapM fun tile htile => ?_) fun _ _ => succeeds_pure _
        refine (hrecord tile htile).then fun _ _ => ?_
        dsimp only
        split
        · exact succeeds_pure none
        · split <;> exact succeeds_pure _

theorem mem_buildCandidates (ht : TilesOk s) {setKey : PropertySetKey}
    {candidates : List GameBotService.Candidate} {candidate : GameBotService.Candidate}
    (h : GameBotService.buildCandidates s bot setKey = .ok candidates)
    (hmem : candidate ∈ candidates) : ∃ tile x, tile.key = candidate.tileKey ∧
      .property tile ∈ s.board.tiles ∧ s.property? tile.key = some x ∧
      SetOwned s bot.roomPlayerId tile.setKey (fun y => y.mortgaged = false ∧ x.level ≤ y.level) ∧
      x.level < maxDevelopmentLevel (GameBotService.difficulty bot) ∧
      GameBotService.cashReserve bot ≤ bot.cash - tile.houseCost := by
  obtain ⟨set, hset, h⟩ := bind_eq_ok.mp h
  split at h
  · cases h
    cases hmem
  · rename_i hown
    split at h
    · cases h
      cases hmem
    · rename_i lowest hlowest
      split at h
      · cases h
        cases hmem
      · obtain ⟨found, hfound, h⟩ := bind_eq_ok.mp h
        cases h
        obtain ⟨picked, hpicked, hcandidate⟩ := List.mem_filterMap.mp hmem
        cases hcandidate
        obtain ⟨tile, htile, hpick⟩ := mapM_mem_right hfound hpicked
        obtain ⟨x, hx, hpick⟩ := bind_eq_ok.mp hpick
        dsimp only at hpick
        split at hpick
        · cases hpick
        · rename_i hlevel
          obtain ⟨hlow, hbelow⟩ := not_or.mp hlevel
          split at hpick
          · cases hpick
          · rename_i hcash
            cases hpick
            obtain ⟨hstreet, hsame⟩ := setTiles_street htile
            have hx := botFindPropertyState_eq_ok.mp hx
            have hxlevel := getDevelopmentLevel_eq ht (GameEngineState.property?_mem hx)
            refine ⟨tile, x, rfl, hstreet, hx, ?_, ?_, Int.not_lt.mp hcash⟩
            · intro other hother
              rw [hsame] at hother
              obtain ⟨y, hy, hfind⟩ := mapM_mem_left hset hother
              have hfind := botFindPropertyState_eq_ok.mp hfind
              have hylevel := getDevelopmentLevel_eq ht (GameEngineState.property?_mem hfind)
              have hmine : ¬ (y.ownerRoomPlayerId ≠ some bot.roomPlayerId ∨
                  y.mortgaged = true) := by
                intro hnot
                refine hown (List.any_eq_true.mpr ⟨y, hy, ?_⟩)
                simpa using hnot
              obtain ⟨howner, hclear⟩ := not_or.mp hmine
              refine ⟨y, hfind, not_not.mp howner, by simpa using hclear, ?_⟩
              have hle := (List.min?_eq_some_iff.mp hlowest).2 _ (List.mem_map_of_mem hy)
              rw [← hxlevel, ← hylevel, not_not.mp hlow]
              exact hle
            · rw [← hxlevel]
              exact Int.not_le.mp hbelow

theorem findPropertyToBuild_succeeds (h : OnBoard s) :
    Succeeds (GameBotService.findPropertyToBuild s bot) := by
  refine (succeeds_mapM fun setKey _ => buildCandidates_succeeds h setKey).then fun _ _ => ?_
  exact succeeds_pure _

theorem findPropertyToBuild_eq_some (ht : TilesOk s) {key : TileKey}
    (h : GameBotService.findPropertyToBuild s bot = .ok (some key)) : ∃ tile x, tile.key = key ∧
      .property tile ∈ s.board.tiles ∧ s.property? tile.key = some x ∧
      SetOwned s bot.roomPlayerId tile.setKey (fun y => y.mortgaged = false ∧ x.level ≤ y.level) ∧
      x.level < maxDevelopmentLevel (GameBotService.difficulty bot) ∧
      GameBotService.cashReserve bot ≤ bot.cash - tile.houseCost := by
  obtain ⟨candidates, hcandidates, h⟩ := bind_eq_ok.mp h
  obtain ⟨candidate, hfirst, rfl⟩ := Option.map_eq_some_iff.mp (Except.ok.inj h)
  obtain ⟨found, hfound, hmem⟩ := List.mem_flatten.mp (firstCandidate_mem hfirst)
  obtain ⟨setKey, _, hset⟩ := mapM_mem_right hcandidates hfound
  exact mem_buildCandidates ht hset hmem

/-! ## Trades -/

theorem tradeCandidate_succeeds (h : OnBoard s) (setKey : PropertySetKey) :
    Succeeds (GameBotService.tradeCandidate s bot setKey) := by
  have hrecord : ∀ tile ∈ s.board.setTiles setKey,
      Succeeds (GameBotService.findPropertyState s tile.key) := fun _ htile =>
    botFindPropertyState_succeeds h htile
  refine Succeeds.then (succeeds_filterM fun tile htile =>
    (hrecord tile htile).then fun _ _ => succeeds_pure _) fun owned _ => ?_
  split
  · exact succeeds_pure none
  · refine Succeeds.then (succeeds_findM fun tile htile =>
      Succeeds.then ((hrecord tile htile).then fun _ _ => succeeds_pure _) fun _ _ =>
        succeeds_pure _) fun missing hmissing => ?_
    split
    · exact succeeds_pure none
    · obtain ⟨hmem, _⟩ := findM_eq_some hmissing
      refine (hrecord _ hmem).then fun x _ => ?_
      split
      · exact succeeds_pure none
      · split
        · exact succeeds_pure none
        · dsimp only
          split <;> split <;> exact succeeds_pure _

theorem one_le_tradeOfferPriceRatio (difficulty : BotDifficulty) :
    1 ≤ tradeOfferPriceRatio difficulty := by
  cases difficulty with
  | easy => decide +kernel
  | normal => decide +kernel
  | hard => decide +kernel

/-- A trade the bot would propose is for a tile of another player, without buildings, and the bot
can pay for it. -/
theorem tradeCandidate_eq_some {setKey : PropertySetKey} {candidate : GameBotService.TradeCandidate}
    (h : GameBotService.tradeCandidate s bot setKey = .ok (some candidate)) :
    ∃ tile x target, tile.key = candidate.tileKey ∧ .property tile ∈ s.board.tiles ∧
      s.property? tile.key = some x ∧ x.ownerRoomPlayerId ≠ some bot.roomPlayerId ∧
      x.ownerRoomPlayerId = some candidate.toRoomPlayerId ∧
      s.player? candidate.toRoomPlayerId = some target ∧ target.bankrupt = false ∧
      (∃ ratio : Rat, 1 ≤ ratio ∧
        candidate.offeredCash = (Binary64.fl (tile.price * ratio)).ceil) ∧
      GameBotService.cashReserve bot ≤ bot.cash - candidate.offeredCash := by
  obtain ⟨owned, _, h⟩ := bind_eq_ok.mp h
  split at h
  · cases h
  · obtain ⟨missing, hmissing, h⟩ := bind_eq_ok.mp h
    split at h
    · cases h
    · rename_i tile
      obtain ⟨htile, htest⟩ := findM_eq_some hmissing
      obtain ⟨x, hx, h⟩ := bind_eq_ok.mp h
      have hx := botFindPropertyState_eq_ok.mp hx
      split at h
      · cases h
      · rename_i target htarget
        obtain ⟨q, howner, htarget⟩ := Option.bind_eq_some_iff.mp htarget
        have hid : target.roomPlayerId = q := GameEngineState.player?_id htarget
        split at h
        · cases h
        · rename_i hfit
          obtain ⟨hactive, _⟩ := not_or.mp hfit
          dsimp only at h
          have hratio := one_le_tradeOfferPriceRatio (GameBotService.difficulty bot)
          have hoffered := hratio.trans (le_max_left _ (if target.playerType = .bot then
            tradeAcceptanceMargin (GameBotService.difficulty target) else 1))
          generalize max (tradeOfferPriceRatio (GameBotService.difficulty bot)) _ = ratio
            at h hoffered
          split at h
          · cases h
          · rename_i hcash
            cases h
            refine ⟨tile, x, target, rfl, (setTiles_street htile).1, hx, ?_, hid.symm ▸ howner,
              hid.symm ▸ htarget, by simpa using hactive, ⟨ratio, hoffered, rfl⟩, Int.not_lt.mp hcash⟩
            simp only [bind_eq_ok, botFindPropertyState_eq_ok, pure_eq_ok] at htest
            obtain ⟨mine, ⟨y, hy, hmine⟩, htest⟩ := htest
            cases hx.symm.trans hy
            rw [← hmine] at htest
            simpa using htest

end Searches

end Rules
end LivePoly
