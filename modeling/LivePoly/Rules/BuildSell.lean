import LivePoly.Rules.BuildingSets

/-!
# Rules.BuildSell

Building and selling undo each other. What the player on turn may build on or sell from is a street
of a set it owns (`Manages`); the code's comparisons are stated for the records of the set.
-/

namespace LivePoly
namespace Rules

open Engine Checked

/-- At the end of its turn `p` owns the set of the street, whose record is `x`. -/
structure Manages (s : GameEngineState) (p : RoomPlayerId) (tile : PropertyTile)
    (x : GameEngineProperty) : Prop where
  phase : s.phase = .awaitingTurnEnd
  turn : ∃ pl, OnTurn s p pl
  street : .property tile ∈ s.board.tiles
  record : s.property? tile.key = some x
  owned : SetOwned s p tile.setKey fun _ => True

/-- What holds of every record of the street's set. -/
def OfSet (s : GameEngineState) (tile : PropertyTile) (P : GameEngineProperty → Prop) : Prop :=
  ∀ other ∈ s.board.setTiles tile.setKey, ∀ y, s.property? other.key = some y → P y

/-- The player is paid for a change of the street's record. -/
def rebuilt (s : GameEngineState) (p : RoomPlayerId) (key : TileKey) (amount : Int)
    (f : GameEngineProperty → GameEngineProperty) : GameEngineState :=
  (s.addCash p amount).updatePropertyState key f

/-- What building and selling do to the record. -/
def withHouses (count : Int) (y : GameEngineProperty) : GameEngineProperty :=
  { y with houseCount := count }

def withHotel (y : GameEngineProperty) : GameEngineProperty :=
  { y with houseCount := 0, hasHotel := true }

def withoutHotel (y : GameEngineProperty) : GameEngineProperty :=
  { y with houseCount := 4, hasHotel := false }

section Rebuilt

variable {s : GameEngineState} {p : RoomPlayerId} {tile : PropertyTile} {x : GameEngineProperty}
  {key : TileKey} {a b : Int} {f g : GameEngineProperty → GameEngineProperty}

theorem rebuilt_board : (rebuilt s p key a f).board = s.board := by
  rw [GameEngineState.board_eq, s.board_eq]

theorem rebuilt_property? (hf : ∀ y, (f y).tileKey = y.tileKey) (key' : TileKey) :
    (rebuilt s p key a f).property? key' =
      if key' = key then (s.property? key').map f else s.property? key' :=
  GameEngineState.property?_updatePropertyState _ _ hf key'

theorem rebuilt_player? : (rebuilt s p key a f).player? p =
    (s.player? p).map fun pl => { pl with cash := pl.cash + a } :=
  (GameEngineState.player?_addCash s p p a).trans (if_pos rfl)

theorem rebuilt_rebuilt (hf : ∀ y, (f y).tileKey = y.tileKey)
    (hnd : (s.properties.map GameEngineProperty.tileKey).Nodup)
    (hx : s.property? key = some x) (hback : g (f x) = x) :
    rebuilt (rebuilt s p key a f) p key b g = s.addCash p (a + b) := by
  have htiles : Keyed.modify GameEngineProperty.tileKey
      (Keyed.modify GameEngineProperty.tileKey s.properties key f) key g = s.properties := by
    rw [Keyed.modify_modify _ hf]
    unfold Keyed.modify
    refine (List.map_congr_left ?_).trans (List.map_id _)
    intro y hy
    split
    · rename_i hkey
      have hfind := Keyed.find_of_mem _ hnd hy
      rw [hkey] at hfind
      cases hx.symm.trans hfind
      exact hback
    · rfl
  have hcash := GameEngineState.addCash_addCash s p a b
  unfold rebuilt GameEngineState.updatePropertyState
  rw [← hcash]
  unfold GameEngineState.addCash GameEngineState.updatePlayer
  dsimp only
  rw [htiles]

theorem Manages.kept (h : Manages s p tile x) (hf : ∀ y, (f y).tileKey = y.tileKey)
    (howner : ∀ y, (f y).ownerRoomPlayerId = y.ownerRoomPlayerId) :
    Manages (rebuilt s p tile.key a f) p tile (f x) where
  phase := h.phase
  turn := by
    obtain ⟨pl, ho⟩ := h.turn
    refine ⟨{ pl with cash := pl.cash + a }, ?_, ho.active, ho.current⟩
    rw [rebuilt_player?, ho.player, Option.map_some]
  street := by
    rw [rebuilt_board]
    exact h.street
  record := by rw [rebuilt_property? hf, if_pos rfl, h.record]; rfl
  owned := by
    intro other hother
    rw [rebuilt_board] at hother
    obtain ⟨y, hy, howned, _⟩ := h.owned other hother
    rw [rebuilt_property? hf]
    split
    · exact ⟨f y, by rw [hy]; rfl, (howner y).trans howned, trivial⟩
    · exact ⟨y, hy, howned, trivial⟩

theorem OfSet.kept {P : GameEngineProperty → Prop} (hf : ∀ y, (f y).tileKey = y.tileKey)
    (h : OfSet s tile P) (hx : s.property? tile.key = some x) (hchanged : P (f x)) :
    OfSet (rebuilt s p tile.key a f) tile P := by
  intro other hother y hy
  rw [rebuilt_board] at hother
  rw [rebuilt_property? hf] at hy
  split at hy
  · rename_i hkey
    rw [hkey, hx] at hy
    cases hy
    exact hchanged
  · exact h other hother y hy

theorem OfSet.mono {P Q : GameEngineProperty → Prop} (h : OfSet s tile P)
    (hPQ : ∀ y, P y → Q y) : OfSet s tile Q :=
  fun other hother y hy => hPQ y (h other hother y hy)

end Rebuilt

/-! ## The code accepts -/

section Accepts

variable {s : GameEngineState} {p : RoomPlayerId} {tile : PropertyTile} {x : GameEngineProperty}

theorem Manages.may (h : Manages s p tile x) (allow : Bool) :
    assertCanManageBuildings s p allow = .ok () := by
  have hactive : s.phase ≠ .finished ∧ s.phase ≠ .cancelled := by
    rw [h.phase]
    exact ⟨by decide, by decide⟩
  refine bind_eq_ok.mpr ⟨(), assertGameActive_eq_ok.mpr hactive, ?_⟩
  exact bind_eq_ok.mpr ⟨(), rejectIf_eq_ok.mpr fun hnot => hnot.1 h.phase,
    assertCurrentTurn_eq_ok.mpr h.turn⟩

theorem Manages.found (h : Manages s p tile x) :
    getPropertyTileByKey s.board tile.key = .ok tile := by
  have hfound : s.board.tile? tile.key = some (.property tile) := tile?_of_mem h.street
  exact orThrow_eq_ok.mpr (by rw [hfound]; rfl)

theorem Manages.records (h : Manages s p tile x) :
    ∃ set, getOwnedSetProperties s tile p = .ok set ∧ x ∈ set ∧
      ∀ P : GameEngineProperty → Prop, OfSet s tile P → ∀ y ∈ set, P y := by
  obtain ⟨set, hset, _, hall⟩ := getOwnedSetProperties_of_setOwned h.owned
  refine ⟨set, hset, hall tile (mem_setTiles.mpr h.street) x h.record, ?_⟩
  intro P hP y hy
  simp only [getOwnedSetProperties, bind_eq_ok, pure_eq_ok] at hset
  obtain ⟨found, hfound, _, _, rfl⟩ := hset
  obtain ⟨other, hother, hfind⟩ := mapM_mem_right hfound hy
  exact hP other hother y (findPropertyState_eq_ok.mp hfind)

theorem Manages.sellsHotel (h : Manages s p tile x) (hhotel : x.hasHotel = true) :
    ∃ r, sellBuilding s p tile.key = .ok r ∧
      r.state = rebuilt s p tile.key (tile.houseCost / 2) withoutHotel := by
  obtain ⟨set, hset, _⟩ := h.records
  obtain ⟨pl, ho⟩ := h.turn
  have hkey : x.tileKey = tile.key := GameEngineState.property?_key h.record
  have hproperty : findPropertyState s tile.key = .ok x := findPropertyState_eq_ok.mpr h.record
  have hpos := houseCost_half_pos (s.board_eq ▸ h.street)
  have hcredit : creditPlayer s p (tile.houseCost / 2) = .ok (s.addCash p (tile.houseCost / 2)) :=
    creditPlayer_eq_ok.mpr ⟨hpos.le, ⟨pl, ho.player⟩, rfl⟩
  rw [sellBuilding, h.may true, ok_bind, h.found, ok_bind, hset, ok_bind, hproperty, ok_bind,
    if_pos hhotel, hcredit, ok_bind, hkey]
  exact ⟨_, rfl, rfl⟩

theorem Manages.sellsHouse (h : Manages s p tile x) (hhotel : x.hasHotel = false)
    (hcount : x.houseCount ≠ 0)
    (hset : OfSet s tile fun y => y.hasHotel = false ∧ y.houseCount ≤ x.houseCount) :
    ∃ r, sellBuilding s p tile.key = .ok r ∧
      r.state = rebuilt s p tile.key (tile.houseCost / 2) (withHouses (x.houseCount - 1)) := by
  obtain ⟨set, hfound, hmem, hall⟩ := h.records
  obtain ⟨pl, ho⟩ := h.turn
  have hkey : x.tileKey = tile.key := GameEngineState.property?_key h.record
  have hproperty : findPropertyState s tile.key = .ok x := findPropertyState_eq_ok.mpr h.record
  have hpos := houseCost_half_pos (s.board_eq ▸ h.street)
  have hcredit : creditPlayer s p (tile.houseCost / 2) = .ok (s.addCash p (tile.houseCost / 2)) :=
    creditPlayer_eq_ok.mpr ⟨hpos.le, ⟨pl, ho.player⟩, rfl⟩
  have heven : assertCanSellHouseEvenly x set = .ok () :=
    assertCanSellHouseEvenly_of_highest hmem (hall _ hset)
  rw [sellBuilding, h.may true, ok_bind, h.found, ok_bind, hfound, ok_bind, hproperty, ok_bind,
    if_neg (by rw [hhotel]; exact Bool.false_ne_true)]
  refine ⟨_, bind_eq_ok.mpr ⟨(), rejectIf_eq_ok.mpr hcount, bind_eq_ok.mpr ⟨(), heven,
    bind_eq_ok.mpr ⟨_, hcredit, rfl⟩⟩⟩, ?_⟩
  rw [hkey]
  rfl

/-- The house with the lowest count of all can be built. -/
theorem assertCanBuildHouseEvenly_of_lowest {set : List GameEngineProperty} (hmem : x ∈ set)
    (hhotel : x.hasHotel = false)
    (hset : ∀ y ∈ set, y.hasHotel = false → x.houseCount ≤ y.houseCount) :
    assertCanBuildHouseEvenly x set = .ok () := by
  refine rejectIf_eq_ok.mpr (not_not.mpr ?_)
  refine (List.min?_eq_some_iff.mpr ⟨?_, ?_⟩).symm
  · exact List.mem_map_of_mem (List.mem_filter.mpr ⟨hmem, by rw [hhotel]; rfl⟩)
  · intro count hcount
    obtain ⟨y, hy, rfl⟩ := List.mem_map.mp hcount
    obtain ⟨hy, hyhotel⟩ := List.mem_filter.mp hy
    exact hset y hy (by simpa using hyhotel)

/-- What building needs besides levels: no debt, no mortgage in the set, the cash. -/
structure MayBuild (s : GameEngineState) (p : RoomPlayerId) (tile : PropertyTile) : Prop where
  debt : s.debt = none
  clear : OfSet s tile fun y => y.mortgaged = false
  cash : ∃ pl, s.player? p = some pl ∧ tile.houseCost ≤ pl.cash

theorem MayBuild.debit (h : MayBuild s p tile) (hm : Manages s p tile x) :
    debitPlayer s p tile.houseCost = .ok (s.addCash p (-tile.houseCost)) := by
  obtain ⟨pl, hpl, hcash⟩ := h.cash
  have hpos := houseCost_half_pos (s.board_eq ▸ hm.street)
  exact debitPlayer_eq_ok.mpr ⟨by omega, pl, hpl, hcash, rfl⟩

/-- What is left of building when the checks that houses and hotels have in common are passed. -/
theorem Manages.buildProperty_eq (h : Manages s p tile x) (hmay : MayBuild s p tile)
    (hhotel : x.hasHotel = false) {set : List GameEngineProperty}
    (hset : getOwnedSetProperties s tile p = .ok set)
    (hall : ∀ P : GameEngineProperty → Prop, OfSet s tile P → ∀ y ∈ set, P y) :
    buildProperty s p tile.key =
      if x.houseCount < 4 then do
        assertCanBuildHouseEvenly x set
        let debitedState ← debitPlayer s p tile.houseCost
        return GameEngineResult.mk
          (debitedState.updatePropertyState x.tileKey fun candidate =>
            { candidate with houseCount := x.houseCount + 1 })
          [.propertyHouseBuilt p x.tileKey (x.houseCount + 1) tile.houseCost]
      else do
        assertCanBuildHotelEvenly x set
        let debitedState ← debitPlayer s p tile.houseCost
        return GameEngineResult.mk
          (debitedState.updatePropertyState x.tileKey fun candidate =>
            { candidate with houseCount := 0, hasHotel := true })
          [.propertyHotelBuilt p x.tileKey tile.houseCost] := by
  have hproperty : findPropertyState s tile.key = .ok x := findPropertyState_eq_ok.mpr h.record
  have hnodebt : rejectIf (s.phase = .awaitingDebtResolution ∨ s.debt.isSome)
      .debtResolutionRequired "Player must resolve debt before building" = .ok () := by
    refine rejectIf_eq_ok.mpr ?_
    rw [h.phase, hmay.debt]
    decide
  have hclear : assertSetIsNotMortgaged set = .ok () := by
    refine rejectIf_eq_ok.mpr ?_
    rintro ⟨y, hy, hmortgaged⟩
    rw [hall _ hmay.clear y hy] at hmortgaged
    cases hmortgaged
  have hnohotel : rejectIf x.hasHotel .buildingLimitReached "Property already has a hotel" =
      .ok () := by
    refine rejectIf_eq_ok.mpr ?_
    rw [hhotel]
    exact Bool.false_ne_true
  rw [buildProperty, h.may false, ok_bind, hnodebt, ok_bind, h.found, ok_bind, hset, ok_bind,
    hproperty, ok_bind, hclear, ok_bind, hnohotel, ok_bind]

theorem Manages.buildsHouse (h : Manages s p tile x) (hmay : MayBuild s p tile)
    (hhotel : x.hasHotel = false) (hcount : x.houseCount < 4)
    (hset : OfSet s tile fun y => y.hasHotel = false → x.houseCount ≤ y.houseCount) :
    ∃ r, buildProperty s p tile.key = .ok r ∧
      r.state = rebuilt s p tile.key (-tile.houseCost) (withHouses (x.houseCount + 1)) := by
  obtain ⟨set, hfound, hmem, hall⟩ := h.records
  have hkey : x.tileKey = tile.key := GameEngineState.property?_key h.record
  have heven := assertCanBuildHouseEvenly_of_lowest hmem hhotel (hall _ hset)
  rw [h.buildProperty_eq hmay hhotel hfound hall, if_pos hcount, heven, ok_bind, hmay.debit h,
    ok_bind, hkey]
  exact ⟨_, rfl, rfl⟩

theorem Manages.buildsHotel (h : Manages s p tile x) (hmay : MayBuild s p tile)
    (hhotel : x.hasHotel = false) (hcount : x.houseCount = 4)
    (hset : OfSet s tile fun y => y.hasHotel = true ∨ y.houseCount = 4) :
    ∃ r, buildProperty s p tile.key = .ok r ∧
      r.state = rebuilt s p tile.key (-tile.houseCost) withHotel := by
  obtain ⟨set, hfound, _, hall⟩ := h.records
  have hkey : x.tileKey = tile.key := GameEngineState.property?_key h.record
  have hmember : OfSet s tile fun y => y.tileKey = x.tileKey → y = x := by
    intro other _ y hy hsame
    have hother : y.tileKey = other.key := GameEngineState.property?_key hy
    rw [← hother, hsame, hkey, h.record] at hy
    exact (Option.some.inj hy).symm
  have heven : assertCanBuildHotelEvenly x set = .ok () := by
    refine bind_eq_ok.mpr ⟨(), rejectIf_eq_ok.mpr (not_not.mpr hcount), ?_⟩
    refine rejectIf_eq_ok.mpr (not_not.mpr fun y hy => ?_)
    split
    · rename_i hsame
      rw [hall _ hmember y hy hsame, hcount, hhotel]
      exact ⟨rfl, rfl⟩
    · exact hall _ hset y hy
  rw [h.buildProperty_eq hmay hhotel hfound hall, if_neg (by omega), heven, ok_bind, hmay.debit h,
    ok_bind, hkey]
  exact ⟨_, rfl, rfl⟩

end Accepts

/-! ## What the code has accepted -/

section Accepted

variable {s : GameEngineState} {p : RoomPlayerId} {tile : PropertyTile} {x : GameEngineProperty}
  {key : TileKey} {r : GameEngineResult}

theorem ofSet_of_records {set : List GameEngineProperty}
    (h : getOwnedSetProperties s tile p = .ok set) {P : GameEngineProperty → Prop}
    (hP : ∀ y ∈ set, P y) : OfSet s tile P := by
  intro other hother y hy
  obtain ⟨z, hz, _, hPz⟩ := getOwnedSetProperties_eq_ok h hP other hother
  cases hy.symm.trans hz
  exact hPz

theorem buildProperty_eq_ok (h : buildProperty s p key = .ok r) :
    ∃ tile x, tile.key = key ∧ Manages s p tile x ∧ x.hasHotel = false ∧
      (x.houseCount < 4 ∧
          r.state = rebuilt s p tile.key (-tile.houseCost) (withHouses (x.houseCount + 1)) ∨
        x.houseCount = 4 ∧
          r.state = rebuilt s p tile.key (-tile.houseCost) withHotel) := by
  simp only [buildProperty, bind_eq_ok, findPropertyState_eq_ok, rejectIf_eq_ok] at h
  obtain ⟨_, hmanage, _, _, tile, htile, set, hset, x, hx, _, _, _, hhotel, h⟩ := h
  obtain ⟨htile, hkey⟩ := getPropertyTileByKey_eq_ok htile
  have hphase : s.phase = .awaitingTurnEnd := by
    rcases assertCanManage_eq_ok hmanage with hphase | ⟨hallow, _⟩
    · exact hphase
    · cases hallow
  have hxkey : x.tileKey = tile.key := GameEngineState.property?_key hx
  refine ⟨tile, x, hkey, ⟨hphase, assertCanManage_onTurn hmanage, htile, hx,
    getOwnedSetProperties_eq_ok hset fun _ _ => trivial⟩, by simpa using hhotel, ?_⟩
  split at h
  · rename_i hcount
    simp only [bind_eq_ok, debitPlayer_eq_ok, pure_eq_ok] at h
    obtain ⟨_, _, _, ⟨_, _, _, _, rfl⟩, rfl⟩ := h
    rw [hxkey]
    exact .inl ⟨hcount, rfl⟩
  · simp only [bind_eq_ok, debitPlayer_eq_ok, pure_eq_ok] at h
    obtain ⟨_, heven, _, ⟨_, _, _, _, rfl⟩, rfl⟩ := h
    rw [hxkey]
    exact .inr ⟨(assertCanBuildHotelEvenly_eq_ok heven).1, rfl⟩

theorem sellBuilding_eq_ok (hphase : s.phase = .awaitingTurnEnd)
    (h : sellBuilding s p key = .ok r) :
    ∃ tile x, tile.key = key ∧ Manages s p tile x ∧
      (x.hasHotel = true ∧
          r.state = rebuilt s p tile.key (tile.houseCost / 2) withoutHotel ∨
        x.hasHotel = false ∧ x.houseCount ≠ 0 ∧ (OfSet s tile fun y => y.hasHotel = false) ∧
          r.state = rebuilt s p tile.key (tile.houseCost / 2) (withHouses (x.houseCount - 1))) := by
  simp only [sellBuilding, bind_eq_ok, findPropertyState_eq_ok] at h
  obtain ⟨_, hmanage, tile, htile, set, hset, x, hx, h⟩ := h
  obtain ⟨htile, hkey⟩ := getPropertyTileByKey_eq_ok htile
  have hxkey : x.tileKey = tile.key := GameEngineState.property?_key hx
  refine ⟨tile, x, hkey, ⟨hphase, assertCanManage_onTurn hmanage, htile, hx,
    getOwnedSetProperties_eq_ok hset fun _ _ => trivial⟩, ?_⟩
  split at h
  · rename_i hhotel
    simp only [bind_eq_ok, creditPlayer_eq_ok, pure_eq_ok] at h
    obtain ⟨_, ⟨_, _, rfl⟩, rfl⟩ := h
    rw [hxkey]
    exact .inl ⟨hhotel, rfl⟩
  · rename_i hhotel
    simp only [bind_eq_ok, rejectIf_eq_ok, creditPlayer_eq_ok, pure_eq_ok] at h
    obtain ⟨_, hcount, _, heven, _, ⟨_, _, rfl⟩, rfl⟩ := h
    rw [hxkey]
    refine .inr ⟨by simpa using hhotel, hcount, ofSet_of_records hset fun y hy => ?_, rfl⟩
    exact (assertCanSellHouseEvenly_eq_ok heven y hy).1

end Accepted

/-! ## There and back -/

section Inverse

variable {s : GameEngineState} {p : RoomPlayerId} {tile : PropertyTile} {x : GameEngineProperty}

theorem houseCost_even {tile : PropertyTile} (h : .property tile ∈ classicGameBoard.tiles) :
    2 * (tile.houseCost / 2) = tile.houseCost := by
  have hall : classicGameBoard.tiles.all (fun t =>
      (GameTile.property? t).all fun tile => decide (2 * (tile.houseCost / 2) = tile.houseCost)) =
      true := by
    decide +kernel
  have htile := List.all_eq_true.mp hall _ h
  simpa [GameTile.property?] using htile

theorem level_of_bare (ht : TilesRepresented s) {y : GameEngineProperty} (hy : y ∈ s.properties)
    (hbare : y.hasBuilding = false) : y.level = 0 := by
  obtain ⟨hhouse, hhotel⟩ := Bool.or_eq_false_iff.mp hbare
  have h0 := (ht.houses y hy).1
  have hnone : ¬ 0 < y.houseCount := of_decide_eq_false hhouse
  rw [level_house hhotel]
  omega

theorem levels_even (ht : TilesRepresented s) (hi : SetIntegrity s) (h : Manages s p tile x) :
    OfSet s tile fun y => x.level ≤ y.level + 1 ∧ y.level ≤ x.level + 1 := by
  intro other hother y hy
  have hmem := mem_setTiles.mpr h.street
  by_cases hcarries : CarriesBuilding s tile.setKey
  · have heven := hi.even tile.setKey hcarries
    exact ⟨heven tile hmem other hother x y h.record hy,
      heven other hother tile hmem y x hy h.record⟩
  · have hbare : ∀ {first : PropertyTile} {z : GameEngineProperty},
        first ∈ s.board.setTiles tile.setKey → s.property? first.key = some z → z.level = 0 := by
      intro first z hfirst hz
      refine level_of_bare ht (GameEngineState.property?_mem hz) ?_
      by_contra hbuilt
      exact hcarries ⟨first, hfirst, z, hz, by simpa using hbuilt⟩
    rw [hbare hmem h.record, hbare hother hy]
    decide

theorem unmortgaged_of_built (ht : TilesRepresented s) (h : Manages s p tile x)
    (hbuilt : x.hasBuilding = true) : OfSet s tile fun y => y.mortgaged = false := by
  intro other hother y hy
  obtain ⟨hmem, hset⟩ := setTiles_street hother
  exact ht.clear tile other h.street hmem hset.symm x y h.record hy hbuilt

theorem level_hotel {y : GameEngineProperty} (h : y.hasHotel = true) (h0 : 0 ≤ y.houseCount) :
    5 ≤ y.level := by
  rw [GameEngineProperty.level, if_pos h]
  omega

/-- What the set looks like around a street with houses. -/
theorem houses_around (ht : TilesRepresented s) (hi : SetIntegrity s) (h : Manages s p tile x)
    (hhotel : x.hasHotel = false) (hcount : x.houseCount < 4) :
    OfSet s tile fun y => y.hasHotel = false ∧ y.houseCount ≤ x.houseCount + 1 := by
  intro other hother y hy
  have hlevel := (levels_even ht hi h other hother y hy).2
  have hyhouses := ht.houses y (GameEngineState.property?_mem hy)
  rw [level_house hhotel] at hlevel
  cases hyhotel : y.hasHotel with
  | false =>
    rw [level_house hyhotel] at hlevel
    exact ⟨rfl, hlevel⟩
  | true =>
    have hhigh := level_hotel hyhotel hyhouses.1
    omega

/-- What the set looks like around a hotel. -/
theorem hotels_around (ht : TilesRepresented s) (hi : SetIntegrity s) (h : Manages s p tile x)
    (hhotel : x.hasHotel = true) :
    OfSet s tile fun y => y.hasHotel = true ∨ y.houseCount = 4 := by
  intro other hother y hy
  have hx := GameEngineState.property?_mem h.record
  have hlevel := (levels_even ht hi h other hother y hy).1
  have hhigh := level_hotel hhotel (ht.houses x hx).1
  have hyhouses := ht.houses y (GameEngineState.property?_mem hy)
  cases hyhotel : y.hasHotel with
  | true => exact .inl rfl
  | false =>
    rw [level_house hyhotel] at hlevel
    right
    omega

theorem sold_built (ht : TilesRepresented s) (hi : SetIntegrity s) {key : TileKey}
    {built : GameEngineResult} (h : buildProperty s p key = .ok built) :
    ∃ sold tile, sellBuilding built.state p key = .ok sold ∧ .property tile ∈ s.board.tiles ∧
      tile.key = key ∧ sold.state = s.addCash p (-(tile.houseCost / 2)) := by
  obtain ⟨tile, x, rfl, hm, hhotel, hcases⟩ := buildProperty_eq_ok h
  have heven := houseCost_even (s.board_eq ▸ hm.street)
  have hcash : -tile.houseCost + tile.houseCost / 2 = -(tile.houseCost / 2) := by omega
  have hhouses := ht.houses x (GameEngineState.property?_mem hm.record)
  rcases hcases with ⟨hcount, hstate⟩ | ⟨hcount, hstate⟩
  · have hm' : Manages built.state p tile (withHouses (x.houseCount + 1) x) := by
      rw [hstate]
      exact hm.kept (fun _ => rfl) fun _ => rfl
    have hset : OfSet built.state tile fun y =>
        y.hasHotel = false ∧ y.houseCount ≤ x.houseCount + 1 := by
      rw [hstate]
      exact (houses_around ht hi hm hhotel hcount).kept (fun _ => rfl) hm.record
        ⟨hhotel, le_refl _⟩
    have hsome : x.houseCount + 1 ≠ 0 := by omega
    obtain ⟨sold, hsold, hback⟩ := hm'.sellsHouse hhotel hsome hset
    refine ⟨sold, tile, hsold, hm.street, rfl, ?_⟩
    rw [hback, hstate, ← hcash]
    refine rebuilt_rebuilt (fun _ => rfl) ht.once hm.record ?_
    simp only [withHouses, Int.add_sub_cancel]
  · have hm' : Manages built.state p tile (withHotel x) := by
      rw [hstate]
      exact hm.kept (fun _ => rfl) fun _ => rfl
    obtain ⟨sold, hsold, hback⟩ := hm'.sellsHotel rfl
    refine ⟨sold, tile, hsold, hm.street, rfl, ?_⟩
    rw [hback, hstate, ← hcash]
    refine rebuilt_rebuilt (fun _ => rfl) ht.once hm.record ?_
    simp only [withHotel, withoutHotel]
    rw [← hcount, ← hhotel]

/-- After a sale nothing but the cash can keep the player from building. -/
theorem mayBuild_sold (ht : TilesRepresented s) (hm : Manages s p tile x)
    (hbuilt : x.hasBuilding = true) (hdebt : s.debt = none)
    {f : GameEngineProperty → GameEngineProperty} (hkey : ∀ y, (f y).tileKey = y.tileKey)
    (hmortgaged : ∀ y, (f y).mortgaged = y.mortgaged) {amount : Int} {pl : GameEnginePlayer}
    (hpl : (rebuilt s p tile.key amount f).player? p = some pl)
    (hcash : tile.houseCost ≤ pl.cash) :
    MayBuild (rebuilt s p tile.key amount f) p tile where
  debt := hdebt
  clear := by
    have hclear := unmortgaged_of_built ht hm hbuilt
    refine hclear.kept hkey hm.record ?_
    rw [hmortgaged]
    exact hclear tile (mem_setTiles.mpr hm.street) x hm.record
  cash := ⟨pl, hpl, hcash⟩

theorem built_sold (ht : TilesRepresented s) (hi : SetIntegrity s) (hdebt : s.debt = none)
    (hphase : s.phase = .awaitingTurnEnd) {sold : GameEngineResult} {pl : GameEnginePlayer}
    (h : sellBuilding s p tile.key = .ok sold) (hstreet : .property tile ∈ s.board.tiles)
    (hpl : sold.state.player? p = some pl) (hcash : tile.houseCost ≤ pl.cash) :
    ∃ built, buildProperty sold.state p tile.key = .ok built ∧
      built.state = s.addCash p (-(tile.houseCost / 2)) := by
  obtain ⟨found, x, hkey, hm, hcases⟩ := sellBuilding_eq_ok hphase h
  have hsame : found = tile := by
    have hfirst : s.board.tile? found.key = some (.property found) := tile?_of_mem hm.street
    have hsecond : s.board.tile? tile.key = some (.property tile) := tile?_of_mem hstreet
    rw [hkey, hsecond] at hfirst
    cases hfirst
    rfl
  subst hsame
  have heven := houseCost_even (s.board_eq ▸ hm.street)
  have hamount : found.houseCost / 2 + -found.houseCost = -(found.houseCost / 2) := by omega
  have hx := GameEngineState.property?_mem hm.record
  have hrange := ht.houses x hx
  rcases hcases with ⟨hhotel, hstate⟩ | ⟨hhotel, hcount, _, hstate⟩
  · rw [hstate] at hpl ⊢
    have hbuilt : x.hasBuilding = true := by
      rw [GameEngineProperty.hasBuilding, hhotel, Bool.or_true]
    have hmay : MayBuild (rebuilt s p found.key (found.houseCost / 2) withoutHotel) p found :=
      mayBuild_sold (f := withoutHotel) ht hm hbuilt hdebt (fun _ => rfl) (fun _ => rfl) hpl hcash
    have hm' : Manages (rebuilt s p found.key (found.houseCost / 2) withoutHotel) p found
        (withoutHotel x) := hm.kept (fun _ => rfl) fun _ => rfl
    have hset : OfSet (rebuilt s p found.key (found.houseCost / 2) withoutHotel) found fun y =>
        y.hasHotel = true ∨ y.houseCount = 4 :=
      (hotels_around ht hi hm hhotel).kept (fun _ => rfl) hm.record (.inr rfl)
    obtain ⟨built, hbuild, hback⟩ := hm'.buildsHotel hmay rfl rfl hset
    refine ⟨built, hbuild, ?_⟩
    rw [hback, ← hamount]
    refine rebuilt_rebuilt (fun _ => rfl) ht.once hm.record ?_
    simp only [withHotel, withoutHotel]
    rw [← hhotel, ← ht.hotel x hx hhotel]
  · rw [hstate] at hpl ⊢
    have hbuilt : x.hasBuilding = true := by
      rw [GameEngineProperty.hasBuilding, decide_eq_true (by omega : 0 < x.houseCount),
        Bool.true_or]
    have hmay : MayBuild (rebuilt s p found.key (found.houseCost / 2)
        (withHouses (x.houseCount - 1))) p found :=
      mayBuild_sold (f := withHouses (x.houseCount - 1)) ht hm hbuilt hdebt (fun _ => rfl)
        (fun _ => rfl) hpl hcash
    have hm' : Manages (rebuilt s p found.key (found.houseCost / 2)
        (withHouses (x.houseCount - 1))) p found (withHouses (x.houseCount - 1) x) :=
      hm.kept (fun _ => rfl) fun _ => rfl
    have hlow : OfSet s found fun y => y.hasHotel = false → x.houseCount - 1 ≤ y.houseCount := by
      intro other hother y hy hyhotel
      have hlevel := (levels_even ht hi hm other hother y hy).1
      rw [level_house hhotel, level_house hyhotel] at hlevel
      omega
    have hset : OfSet (rebuilt s p found.key (found.houseCost / 2)
        (withHouses (x.houseCount - 1))) found fun y =>
          y.hasHotel = false → x.houseCount - 1 ≤ y.houseCount :=
      hlow.kept (fun _ => rfl) hm.record fun _ => le_refl _
    have hroom : x.houseCount - 1 < 4 := by omega
    obtain ⟨built, hbuild, hback⟩ := hm'.buildsHouse hmay hhotel hroom hset
    refine ⟨built, hbuild, ?_⟩
    rw [hback, ← hamount]
    refine rebuilt_rebuilt (fun _ => rfl) ht.once hm.record ?_
    simp only [withHouses, Int.sub_add_cancel]

end Inverse

/-! ## The law -/

/-- Building and then selling, or at the end of a turn selling and then building, costs half of
what the building costs and changes nothing else. -/
theorem build_sell_inverse {s : GameEngineState} (ht : TilesRepresented s) (hi : SetIntegrity s)
    (p : RoomPlayerId) (key : TileKey) :
    (∀ built, buildProperty s p key = .ok built → ∃ sold tile,
      sellBuilding built.state p key = .ok sold ∧ .property tile ∈ s.board.tiles ∧
      tile.key = key ∧ 2 * (tile.houseCost / 2) = tile.houseCost ∧
      sold.state.properties = s.properties ∧
      sold.state = s.addCash p (-(tile.houseCost / 2))) ∧
    ∀ sold tile pl, s.phase = .awaitingTurnEnd → s.debt = none →
      sellBuilding s p key = .ok sold → .property tile ∈ s.board.tiles → tile.key = key →
      sold.state.player? p = some pl → tile.houseCost ≤ pl.cash →
      ∃ built, buildProperty sold.state p key = .ok built ∧
        built.state.properties = s.properties ∧
        built.state = s.addCash p (-(tile.houseCost / 2)) := by
  constructor
  · intro built h
    obtain ⟨sold, tile, hsold, hstreet, hkey, hstate⟩ := sold_built ht hi h
    refine ⟨sold, tile, hsold, hstreet, hkey, houseCost_even (s.board_eq ▸ hstreet), ?_, hstate⟩
    rw [hstate]
    rfl
  · rintro sold tile pl hphase hnone h hstreet rfl hpl hcash
    obtain ⟨built, hbuilt, hstate⟩ := built_sold ht hi hnone hphase h hstreet hpl hcash
    refine ⟨built, hbuilt, ?_, hstate⟩
    rw [hstate]
    rfl

/-- The first player builds on Egypt, after South Africa, and sells the house again. -/
theorem egypt_sold : ∃ s built sold, Reachable threePlayers s ∧
    buildProperty s ⟨1⟩ .egypt = .ok built ∧ sellBuilding built.state ⟨1⟩ .egypt = .ok sold ∧
    sold.state.properties = s.properties := by
  obtain ⟨r, hr, htest⟩ := exists_ok_of_any (by decide +kernel :
    (playThree lightBlueHouse).toOption.any (fun r =>
      (buildProperty r.state ⟨1⟩ .egypt).toOption.any (fun _ => true)) = true)
  obtain ⟨built, hbuilt, _⟩ := exists_ok_of_any htest
  obtain ⟨start, hstart, hgame⟩ := playRoom_game hr
  have hreach : Reachable threePlayers r.state := playRoom_reachable hr
  have hsafe : Trace.Run (Trace.Guarded Accepts fun _ sent => ∀ s, PermitsSent clearingSets s sent)
      start _ r.events r.state :=
    hgame.run.guarded (by simp [atStart, lightBlueHouse, PermitsSent, Permits, clearingSets])
  have hrun : Trace.Run (Trace.Guarded Accepts (PermitsSent clearingSets)) start _ r.events
      r.state := hsafe.mono fun s _ _ _ hs => ⟨hs.1, hs.2 s⟩
  obtain ⟨hv, heven⟩ := hrun.invariant (fun u i o u' => accepts_evenSets (s := u) (t := u') i o)
    ⟨createInitialGameState_valid threePlayers_valid hstart,
      createInitialGameState_evenSets hstart⟩
  obtain ⟨hsell, _⟩ := build_sell_inverse
    hv.tiles.represented (heven.setIntegrity hv.tiles) ⟨1⟩ .egypt
  obtain ⟨sold, _, hsold, _, _, _, hsame, _⟩ := hsell built hbuilt
  exact ⟨_, built, sold, hreach, hbuilt, hsold, hsame⟩

end Rules
end LivePoly
