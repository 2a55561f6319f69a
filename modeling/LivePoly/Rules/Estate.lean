import LivePoly.Lib.Trace
import LivePoly.Rules.Updates

/-!
# Rules.Estate

What the player on turn does with tiles: buy, build, sell, mortgage. The guards of the code are
stated for the whole colour set (`SetOwned`).
-/

namespace LivePoly
namespace Rules

open Engine Checked

/-- `p` owns every tile of the set, and all of them satisfy `P`. -/
def SetOwned (s : GameEngineState) (p : RoomPlayerId) (setKey : PropertySetKey)
    (P : GameEngineProperty → Prop) : Prop :=
  ∀ tile ∈ s.board.setTiles setKey, ∃ property, s.property? tile.key = some property ∧
    property.ownerRoomPlayerId = some p ∧ P property

/-- The player may sell and mortgage. -/
def MayRaiseCash (s : GameEngineState) (p : RoomPlayerId) : Prop :=
  s.phase = .awaitingTurnEnd ∨
    s.phase = .awaitingDebtResolution ∧ ∃ debt, s.debt = some debt ∧ debt.roomPlayerId = p

/-- What the player `p` on turn, whose record is `pl`, does with a tile. -/
inductive Estate (p : RoomPlayerId) (pl : GameEnginePlayer) (s : GameEngineState) :
    List GameEngineEvent → GameEngineState → Prop
  | bought {tile : OwnableTile} {property : GameEngineProperty}
      (hphase : s.phase = .awaitingPropertyDecision) (hpending : s.pendingTileKey = some tile.key)
      (htile : (s.board.tile? tile.key).bind GameTile.ownable? = some tile)
      (hproperty : s.property? tile.key = some property)
      (hfree : property.ownerRoomPlayerId = none) (h0 : 0 ≤ tile.price)
      (hcash : tile.price ≤ pl.cash) :
      Estate p pl s [.propertyBought p tile.key tile.price]
        ({ s.addCash p (-tile.price) with
            phase := .awaitingTurnEnd
            pendingTileKey := none }.updatePropertyState tile.key fun x =>
          { x with ownerRoomPlayerId := some p })
  | houseBuilt {tile : PropertyTile} {property : GameEngineProperty}
      (hphase : s.phase = .awaitingTurnEnd) (htile : .property tile ∈ s.board.tiles)
      (hproperty : s.property? tile.key = some property) (hhotel : property.hasHotel = false)
      (hcount : property.houseCount < 4)
      (hset : SetOwned s p tile.setKey fun x => x.mortgaged = false ∧
        (x.hasHotel = false → property.houseCount ≤ x.houseCount))
      (h0 : 0 ≤ tile.houseCost) (hcash : tile.houseCost ≤ pl.cash) :
      Estate p pl s
        [.propertyHouseBuilt p tile.key (property.houseCount + 1) tile.houseCost]
        ((s.addCash p (-tile.houseCost)).updatePropertyState tile.key fun x =>
          { x with houseCount := property.houseCount + 1 })
  | hotelBuilt {tile : PropertyTile} {property : GameEngineProperty}
      (hphase : s.phase = .awaitingTurnEnd) (htile : .property tile ∈ s.board.tiles)
      (hproperty : s.property? tile.key = some property) (hhotel : property.hasHotel = false)
      (hcount : property.houseCount = 4)
      (hset : SetOwned s p tile.setKey fun x => x.mortgaged = false ∧
        (x.hasHotel = true ∨ x.houseCount = 4))
      (h0 : 0 ≤ tile.houseCost) (hcash : tile.houseCost ≤ pl.cash) :
      Estate p pl s [.propertyHotelBuilt p tile.key tile.houseCost]
        ((s.addCash p (-tile.houseCost)).updatePropertyState tile.key fun x =>
          { x with houseCount := 0, hasHotel := true })
  | hotelSold {tile : PropertyTile} {property : GameEngineProperty}
      (hphase : MayRaiseCash s p) (htile : .property tile ∈ s.board.tiles)
      (hproperty : s.property? tile.key = some property) (hhotel : property.hasHotel = true)
      (hset : SetOwned s p tile.setKey fun _ => True) (h0 : 0 ≤ tile.houseCost / 2) :
      Estate p pl s [.propertyHotelSold p tile.key (tile.houseCost / 2)]
        ((s.addCash p (tile.houseCost / 2)).updatePropertyState tile.key fun x =>
          { x with houseCount := 4, hasHotel := false })
  | houseSold {tile : PropertyTile} {property : GameEngineProperty}
      (hphase : MayRaiseCash s p) (htile : .property tile ∈ s.board.tiles)
      (hproperty : s.property? tile.key = some property) (hhotel : property.hasHotel = false)
      (hcount : property.houseCount ≠ 0)
      (hset : SetOwned s p tile.setKey fun x => x.hasHotel = false ∧
        x.houseCount ≤ property.houseCount)
      (h0 : 0 ≤ tile.houseCost / 2) :
      Estate p pl s
        [.propertyHouseSold p tile.key (property.houseCount - 1) (tile.houseCost / 2)]
        ((s.addCash p (tile.houseCost / 2)).updatePropertyState tile.key fun x =>
          { x with houseCount := property.houseCount - 1 })
  | mortgaged {tile : OwnableTile} {property : GameEngineProperty}
      (hphase : MayRaiseCash s p)
      (htile : (s.board.tile? tile.key).bind GameTile.ownable? = some tile)
      (hproperty : s.property? tile.key = some property)
      (howner : property.ownerRoomPlayerId = some p) (hfree : property.mortgaged = false)
      (hset : ∀ street, tile = .property street → ∀ x ∈ s.board.setTiles street.setKey,
        ∃ other, s.property? x.key = some other ∧ other.hasBuilding = false)
      (h0 : 0 ≤ tile.mortgageValue) :
      Estate p pl s [.propertyMortgaged p tile.key tile.mortgageValue]
        ((s.addCash p tile.mortgageValue).updatePropertyState tile.key fun x =>
          { x with mortgaged := true })
  | unmortgaged {tile : OwnableTile} {property : GameEngineProperty}
      (hphase : s.phase = .awaitingTurnEnd)
      (htile : (s.board.tile? tile.key).bind GameTile.ownable? = some tile)
      (hproperty : s.property? tile.key = some property)
      (howner : property.ownerRoomPlayerId = some p) (hmortgaged : property.mortgaged = true)
      (h0 : 0 ≤ getUnmortgageCost tile.mortgageValue)
      (hcash : getUnmortgageCost tile.mortgageValue ≤ pl.cash) :
      Estate p pl s [.propertyUnmortgaged p tile.key (getUnmortgageCost tile.mortgageValue)]
        ((s.addCash p (-getUnmortgageCost tile.mortgageValue)).updatePropertyState tile.key
          fun x => { x with mortgaged := false })

section Code

variable {s : GameEngineState} {p : RoomPlayerId} {pl : GameEnginePlayer}

/-! ## Tiles -/

theorem getPropertyTileByKey_eq_ok {board : GameBoard} {key : TileKey} {tile : PropertyTile}
    (h : getPropertyTileByKey board key = .ok tile) :
    .property tile ∈ board.tiles ∧ tile.key = key := by
  simp only [getPropertyTileByKey, orThrow_eq_ok] at h
  obtain ⟨found, hfound, htile⟩ := Option.bind_eq_some_iff.mp h
  cases found <;> cases htile
  exact ⟨Keyed.find_mem _ hfound, Keyed.find_key GameTile.key hfound⟩

theorem mem_setTiles {board : GameBoard} {tile : PropertyTile} :
    tile ∈ board.setTiles tile.setKey ↔ .property tile ∈ board.tiles := by
  simp only [GameBoard.setTiles, List.mem_filter, List.mem_filterMap, decide_true, and_true]
  constructor
  · rintro ⟨found, hfound, htile⟩
    cases found <;> cases htile
    exact hfound
  · intro h
    exact ⟨_, h, rfl⟩

/-! ## Guards -/

theorem getOwnedSetProperties_eq_ok {tile : PropertyTile} {set : List GameEngineProperty}
    (h : getOwnedSetProperties s tile p = .ok set) {P : GameEngineProperty → Prop}
    (hP : ∀ property ∈ set, P property) : SetOwned s p tile.setKey P := by
  simp only [getOwnedSetProperties, bind_eq_ok, rejectIf_eq_ok, pure_eq_ok] at h
  obtain ⟨found, hfound, _, howned, rfl⟩ := h
  intro setTile hset
  obtain ⟨property, hmem, hproperty⟩ := mapM_mem_left hfound hset
  refine ⟨property, findPropertyState_eq_ok.mp hproperty, ?_, hP property hmem⟩
  by_contra hne
  exact howned ⟨property, hmem, hne⟩

theorem assertCanManage_eq_ok {code : GameEngineErrorCode} {message : String} {allow : Bool}
    {u : Unit} (h : assertCanManage code message s p allow = .ok u) :
    (s.phase = .awaitingTurnEnd ∨ allow = true ∧ MayRaiseCash s p) := by
  simp only [assertCanManage, bind_eq_ok, rejectIf_eq_ok] at h
  obtain ⟨_, _, _, hphase, _⟩ := h
  by_cases hend : s.phase = .awaitingTurnEnd
  · exact .inl hend
  · right
    have hown : allow = true ∧ s.phase = .awaitingDebtResolution ∧
        s.debt.map GameEngineDebt.roomPlayerId = some p := by
      by_contra hnot
      exact hphase ⟨hend, hnot⟩
    obtain ⟨hallow, hphase, hdebt⟩ := hown
    obtain ⟨debt, hdebt, hp⟩ := Option.map_eq_some_iff.mp hdebt
    exact ⟨hallow, .inr ⟨hphase, debt, hdebt, hp⟩⟩

theorem assertCanManage_onTurn {code : GameEngineErrorCode} {message : String} {allow : Bool}
    {u : Unit} (h : assertCanManage code message s p allow = .ok u) : ∃ pl, OnTurn s p pl := by
  simp only [assertCanManage, bind_eq_ok] at h
  obtain ⟨_, _, _, _, hturn⟩ := h
  exact assertCurrentTurn_eq_ok.mp hturn

/-! ## The code -/

theorem buyProperty_estate (ho : OnTurn s p pl) (hphase : s.phase = .awaitingPropertyDecision)
    {r : GameEngineResult} (h : buyProperty s p = .ok r) : Estate p pl s r.events r.state := by
  simp only [buyProperty, bind_eq_ok, orThrow_eq_ok, findPropertyStateOr_eq_ok, rejectIf_eq_ok,
    debitPlayer_eq_ok, pure_eq_ok] at h
  obtain ⟨key, hpending, tile, htile, property, hproperty, _, hfree, _,
    ⟨h0, pl', hpl', hcash, rfl⟩, rfl⟩ := h
  cases ho.player.symm.trans hpl'
  obtain rfl := ownable_of_tile? htile
  exact .bought hphase hpending htile hproperty (by simpa using hfree) h0 hcash

theorem assertCanBuildHouseEvenly_eq_ok {property : GameEngineProperty}
    {set : List GameEngineProperty} {u : Unit}
    (h : assertCanBuildHouseEvenly property set = .ok u) :
    ∀ x ∈ set, x.hasHotel = false → property.houseCount ≤ x.houseCount := by
  intro x hx hhotel
  simp only [assertCanBuildHouseEvenly, rejectIf_eq_ok] at h
  have hmin : jsMin _ = some property.houseCount := (Classical.not_not.mp h).symm
  refine (List.min?_eq_some_iff.mp hmin).2 _ ?_
  exact List.mem_map_of_mem (List.mem_filter.mpr ⟨hx, by simp [hhotel]⟩)

theorem assertCanBuildHotelEvenly_eq_ok {property : GameEngineProperty}
    {set : List GameEngineProperty} {u : Unit}
    (h : assertCanBuildHotelEvenly property set = .ok u) :
    property.houseCount = 4 ∧ ∀ x ∈ set, x.hasHotel = true ∨ x.houseCount = 4 := by
  simp only [assertCanBuildHotelEvenly, bind_eq_ok, rejectIf_eq_ok] at h
  obtain ⟨_, hcount, hset⟩ := h
  refine ⟨Classical.not_not.mp hcount, fun x hx => ?_⟩
  have hx := Classical.not_not.mp hset x hx
  split at hx
  · exact .inr hx.1
  · exact hx

theorem assertCanSellHouseEvenly_eq_ok {property : GameEngineProperty}
    {set : List GameEngineProperty} {u : Unit}
    (h : assertCanSellHouseEvenly property set = .ok u) :
    ∀ x ∈ set, x.hasHotel = false ∧ x.houseCount ≤ property.houseCount := by
  simp only [assertCanSellHouseEvenly, bind_eq_ok, rejectIf_eq_ok] at h
  obtain ⟨_, hhotel, hnot⟩ := h
  have hmax : jsMax _ = some property.houseCount := (Classical.not_not.mp hnot).symm
  intro x hx
  constructor
  · by_contra hne
    exact hhotel ⟨x, hx, by simpa using hne⟩
  · exact (List.max?_eq_some_iff.mp hmax).2 _ (List.mem_map_of_mem hx)

theorem assertSetIsNotMortgaged_eq_ok {set : List GameEngineProperty} {u : Unit}
    (h : assertSetIsNotMortgaged set = .ok u) : ∀ x ∈ set, x.mortgaged = false := by
  simp only [assertSetIsNotMortgaged, rejectIf_eq_ok] at h
  intro x hx
  by_contra hne
  exact h ⟨x, hx, by simpa using hne⟩

theorem buildProperty_estate (ho : OnTurn s p pl) {key : TileKey} {r : GameEngineResult}
    (h : buildProperty s p key = .ok r) : Estate p pl s r.events r.state := by
  simp only [buildProperty, bind_eq_ok, findPropertyState_eq_ok, rejectIf_eq_ok] at h
  obtain ⟨_, hmanage, _, hdebt, tile, htile, set, hset, property, hproperty, _, hmortgage, _,
    hhotel, h⟩ := h
  obtain ⟨htile, -⟩ := getPropertyTileByKey_eq_ok htile
  have hphase : s.phase = .awaitingTurnEnd := by
    rcases assertCanManage_eq_ok hmanage with hphase | ⟨hallow, _⟩
    · exact hphase
    · cases hallow
  have hhotel : property.hasHotel = false := by simpa using hhotel
  have hmortgage := assertSetIsNotMortgaged_eq_ok hmortgage
  have hkey : property.tileKey = tile.key := GameEngineState.property?_key hproperty
  split at h
  · rename_i hcount
    simp only [bind_eq_ok, debitPlayer_eq_ok, pure_eq_ok] at h
    obtain ⟨_, heven, _, ⟨h0, pl', hpl', hcash, rfl⟩, rfl⟩ := h
    cases ho.player.symm.trans hpl'
    have heven := assertCanBuildHouseEvenly_eq_ok heven
    rw [hkey]
    exact .houseBuilt hphase htile hproperty hhotel hcount
      (getOwnedSetProperties_eq_ok hset fun x hx => ⟨hmortgage x hx, heven x hx⟩) h0 hcash
  · simp only [bind_eq_ok, debitPlayer_eq_ok, pure_eq_ok] at h
    obtain ⟨_, heven, _, ⟨h0, pl', hpl', hcash, rfl⟩, rfl⟩ := h
    cases ho.player.symm.trans hpl'
    obtain ⟨hcount, heven⟩ := assertCanBuildHotelEvenly_eq_ok heven
    rw [hkey]
    exact .hotelBuilt hphase htile hproperty hhotel hcount
      (getOwnedSetProperties_eq_ok hset fun x hx => ⟨hmortgage x hx, heven x hx⟩) h0 hcash

theorem sellBuilding_estate {key : TileKey} {r : GameEngineResult}
    (h : sellBuilding s p key = .ok r) : Estate p pl s r.events r.state := by
  simp only [sellBuilding, bind_eq_ok, findPropertyState_eq_ok] at h
  obtain ⟨_, hmanage, tile, htile, set, hset, property, hproperty, h⟩ := h
  obtain ⟨htile, -⟩ := getPropertyTileByKey_eq_ok htile
  have hphase : MayRaiseCash s p := by
    rcases assertCanManage_eq_ok hmanage with hphase | ⟨_, hphase⟩
    · exact .inl hphase
    · exact hphase
  have hkey : property.tileKey = tile.key := GameEngineState.property?_key hproperty
  split at h
  · rename_i hhotel
    simp only [bind_eq_ok, creditPlayer_eq_ok, pure_eq_ok] at h
    obtain ⟨_, ⟨h0, _, rfl⟩, rfl⟩ := h
    rw [hkey]
    exact .hotelSold hphase htile hproperty hhotel
      (getOwnedSetProperties_eq_ok hset fun _ _ => trivial) h0
  · rename_i hhotel
    simp only [bind_eq_ok, rejectIf_eq_ok, creditPlayer_eq_ok, pure_eq_ok] at h
    obtain ⟨_, hcount, _, heven, _, ⟨h0, _, rfl⟩, rfl⟩ := h
    rw [hkey]
    exact .houseSold hphase htile hproperty (by simpa using hhotel) hcount
      (getOwnedSetProperties_eq_ok hset (assertCanSellHouseEvenly_eq_ok heven)) h0

theorem mortgageProperty_estate {key : TileKey} {r : GameEngineResult}
    (h : mortgageProperty s p key = .ok r) : Estate p pl s r.events r.state := by
  simp only [mortgageProperty, bind_eq_ok, findPropertyState_eq_ok, rejectIf_eq_ok,
    assertOwnedBy, getMortgageableTileByKey, orThrow_eq_ok, creditPlayer_eq_ok,
    pure_eq_ok] at h
  obtain ⟨_, hmanage, tile, htile, property, hproperty, _, howner, _, hfree, _, hset, _,
    ⟨h0, _, rfl⟩, rfl⟩ := h
  obtain rfl := ownable_of_tile? htile
  have hphase : MayRaiseCash s p := by
    rcases assertCanManage_eq_ok hmanage with hphase | ⟨_, hphase⟩
    · exact .inl hphase
    · exact hphase
  have hkey : property.tileKey = tile.key := GameEngineState.property?_key hproperty
  rw [hkey]
  refine .mortgaged hphase htile hproperty (by simpa using howner) (by simpa using hfree) ?_ h0
  rintro street rfl x hx
  simp only [assertNoBuildingsForMortgage, bind_eq_ok, rejectIf_eq_ok] at hset
  obtain ⟨found, hany, hnone⟩ := hset
  have hfound : found = false := by simpa using hnone
  subst hfound
  have hx := anyM_eq_ok_false.mp hany x hx
  simp only [bind_eq_ok, findPropertyState_eq_ok, pure_eq_ok] at hx
  exact hx

theorem unmortgageProperty_estate (ho : OnTurn s p pl) {key : TileKey} {r : GameEngineResult}
    (h : unmortgageProperty s p key = .ok r) : Estate p pl s r.events r.state := by
  simp only [unmortgageProperty, bind_eq_ok, findPropertyState_eq_ok, rejectIf_eq_ok,
    assertOwnedBy, getMortgageableTileByKey, orThrow_eq_ok, debitPlayer_eq_ok,
    pure_eq_ok] at h
  obtain ⟨_, hmanage, tile, htile, property, hproperty, _, howner, _, hmortgaged, _,
    ⟨h0, pl', hpl', hcash, rfl⟩, rfl⟩ := h
  cases ho.player.symm.trans hpl'
  obtain rfl := ownable_of_tile? htile
  have hphase : s.phase = .awaitingTurnEnd := by
    rcases assertCanManage_eq_ok hmanage with hphase | ⟨hallow, _⟩
    · exact hphase
    · cases hallow
  have hkey : property.tileKey = tile.key := GameEngineState.property?_key hproperty
  rw [hkey]
  exact .unmortgaged hphase htile hproperty (by simpa using howner) (by simpa using hmortgaged)
    h0 hcash

/-! ## Raising cash for a debt -/

/-- An estate action of the player on turn. -/
def EstateStep (p : RoomPlayerId) (s : GameEngineState) (events : List GameEngineEvent)
    (s' : GameEngineState) : Prop :=
  ∃ pl, OnTurn s p pl ∧ Estate p pl s events s'

theorem sellBuilding_step {key : TileKey} {r : GameEngineResult}
    (h : sellBuilding s p key = .ok r) : EstateStep p s r.events r.state := by
  have hmanage := h
  simp only [sellBuilding, bind_eq_ok] at hmanage
  obtain ⟨_, hmanage, _⟩ := hmanage
  obtain ⟨pl, ho⟩ := assertCanManage_onTurn hmanage
  exact ⟨pl, ho, sellBuilding_estate h⟩

theorem mortgageProperty_step {key : TileKey} {r : GameEngineResult}
    (h : mortgageProperty s p key = .ok r) : EstateStep p s r.events r.state := by
  have hmanage := h
  simp only [mortgageProperty, bind_eq_ok] at hmanage
  obtain ⟨_, hmanage, _⟩ := hmanage
  obtain ⟨pl, ho⟩ := assertCanManage_onTurn hmanage
  exact ⟨pl, ho, mortgageProperty_estate h⟩

theorem estate_settled {events : List GameEngineEvent} {s' : GameEngineState}
    (h : Estate p pl s events s') : Settled events := by
  cases h <;> exact settled_concat [] fun _ _ _ _ h => by cases h

/-- The loop is a chain of estate actions. It ends when the debt can be paid or nothing is left
to sell or to mortgage. -/
theorem raiseCash_steps {rounds : Nat} {events : List GameEngineEvent} {r : GameEngineResult}
    (h : raiseCash p rounds ⟨s, events⟩ = .ok r) :
    (∃ raised, r.events = events ++ raised ∧
        Trace.Chain (EstateStep p) Settled s raised r.state) ∧
      (canPayDebt r.state p = .ok true ∨
        findBuildingToSell r.state p = none ∧ findPropertyToMortgage r.state p = none) := by
  induction rounds generalizing s events with
  | zero => cases h
  | succ rounds ih =>
    rw [raiseCash] at h
    simp only [bind_eq_ok] at h
    obtain ⟨canPay, hcanPay, h⟩ := h
    have hnext : ∀ {step : GameEngineResult}, EstateStep p s step.events step.state →
        raiseCash p rounds ⟨step.state, events ++ step.events⟩ = .ok r →
        (∃ raised, r.events = events ++ raised ∧
          Trace.Chain (EstateStep p) Settled s raised r.state) ∧
        (canPayDebt r.state p = .ok true ∨
          findBuildingToSell r.state p = none ∧ findPropertyToMortgage r.state p = none) := by
      intro step hstep hrest
      obtain ⟨⟨raised, hraised, hchain⟩, hend⟩ := ih hrest
      obtain ⟨pl, _, hestate⟩ := hstep
      refine ⟨⟨step.events ++ raised, ?_, .cons ⟨pl, ‹_›, hestate⟩ hchain
        (.inr (estate_settled hestate))⟩, hend⟩
      rw [hraised, List.append_assoc]
    cases canPay with
    | true =>
      cases h
      exact ⟨⟨[], by simp, .nil _⟩, .inl hcanPay⟩
    | false =>
      simp only [Bool.false_eq_true, if_false] at h
      split at h
      · simp only [bind_eq_ok] at h
        obtain ⟨sold, hsold, h⟩ := h
        exact hnext (sellBuilding_step hsold) h
      · rename_i hnoBuilding
        split at h
        · simp only [bind_eq_ok] at h
          obtain ⟨mortgaged, hmortgaged, h⟩ := h
          exact hnext (mortgageProperty_step hmortgaged) h
        · rename_i hnoMortgage
          cases h
          exact ⟨⟨[], by simp, .nil _⟩, .inr ⟨hnoBuilding, hnoMortgage⟩⟩

end Code

end Rules
end LivePoly
