import LivePoly.Rules.Guarantees

/-!
# Rules.NetWorth

What a player is worth: cash, and the tiles with their buildings and mortgages. Half the cost of
a building is what it counts for and what it sells for, so selling moves worth between tiles and
cash.
-/

namespace LivePoly
namespace Rules

open Engine Checked

/-- What a tile's record is worth to its owner. -/
def assetWorth (board : GameBoard) (x : GameEngineProperty) : Int :=
  ((board.tile? x.tileKey).bind GameTile.ownable?).elim 0 fun tile =>
    calculateAssetNetWorth tile x

/-- What a tile's record is worth to a player. -/
def ownedWorth (board : GameBoard) (p : RoomPlayerId) (x : GameEngineProperty) : Int :=
  if x.ownerRoomPlayerId = some p then assetWorth board x else 0

/-- What the tiles of a player are worth. -/
def assets (s : GameEngineState) (p : RoomPlayerId) : Int :=
  (s.properties.map (ownedWorth s.board p)).sum

/-- The net worth of the player with the id. -/
def worthOf (s : GameEngineState) (p : RoomPlayerId) : Checked Int := do
  let player ← findPlayer s p
  let worth ← calculatePlayerNetWorth s player
  return worth.netWorth

section Worth

variable {s s' : GameEngineState} {p : RoomPlayerId}

theorem OnBoard.map (h : OnBoard s) {g : GameEngineProperty → GameEngineProperty}
    (hkey : ∀ x, (g x).tileKey = x.tileKey) (hs : s'.properties = s.properties.map g) :
    OnBoard s' := by
  unfold OnBoard at h ⊢
  rw [hs, List.map_map, GameEngineState.board_eq, ← s.board_eq, ← h]
  apply List.map_congr_left
  intro x _
  exact hkey x

theorem foldlM_assetWorth {board : GameBoard} {l : List GameEngineProperty}
    (h : ∀ x ∈ l, ∃ tile, (board.tile? x.tileKey).bind GameTile.ownable? = some tile)
    (total : Int) :
    l.foldlM (fun total property => do
        let tile ← getAssetTileByKey board property.tileKey
        return total + calculateAssetNetWorth tile property) total =
      (.ok (total + (l.map (assetWorth board)).sum) : Checked Int) := by
  induction l generalizing total with
  | nil => simp
  | cons x l ih =>
    obtain ⟨tile, htile⟩ := h x (.head _)
    have hfound : getAssetTileByKey board x.tileKey = .ok tile := orThrow_eq_ok.mpr htile
    have hworth : assetWorth board x = calculateAssetNetWorth tile x := by
      unfold assetWorth
      rw [htile]
      rfl
    rw [List.foldlM_cons, hfound, ok_bind]
    refine (ih (fun y hy => h y (.tail _ hy)) _).trans ?_
    rw [List.map_cons, List.sum_cons, hworth, add_assoc]

theorem sum_map_filter {α : Type*} (l : List α) (P : α → Prop) [DecidablePred P] (f : α → Int) :
    ((l.filter fun x => P x).map f).sum = (l.map fun x => if P x then f x else 0).sum := by
  induction l with
  | nil => rfl
  | cons x l ih =>
    by_cases hx : P x
    · simp [hx, ih]
    · simp [hx, ih]

/-- The net worth of a listed player is its cash and its tiles. -/
theorem calculatePlayerNetWorth_eq (h : OnBoard s) {pl : GameEnginePlayer}
    (hlisted : (s.player? pl.roomPlayerId).isSome) :
    ∃ worth, calculatePlayerNetWorth s pl = .ok worth ∧
      worth.netWorth = pl.cash + assets s pl.roomPlayerId := by
  obtain ⟨found, hfound⟩ := Option.isSome_iff_exists.mp hlisted
  have hknown : ∀ x ∈ s.properties.filter fun x => x.ownerRoomPlayerId = some pl.roomPlayerId,
      ∃ tile, (s.board.tile? x.tileKey).bind GameTile.ownable? = some tile :=
    fun x hx => h.ownable (List.mem_of_mem_filter hx)
  have hsum := foldlM_assetWorth hknown 0
  have howned : getOwnedProperties s pl.roomPlayerId =
      .ok (s.properties.filter fun x => x.ownerRoomPlayerId = some pl.roomPlayerId) :=
    bind_eq_ok.mpr ⟨found, findPlayer_eq_ok.mpr hfound, rfl⟩
  unfold calculatePlayerNetWorth
  rw [howned, ok_bind, hsum, ok_bind]
  refine ⟨_, rfl, ?_⟩
  simp only [zero_add, sum_map_filter]
  rfl

theorem worthOf_eq (h : OnBoard s) {pl : GameEnginePlayer} (hpl : s.player? p = some pl) :
    worthOf s p = .ok (pl.cash + assets s p) := by
  have hid : pl.roomPlayerId = p := GameEngineState.player?_id hpl
  have hlisted : (s.player? pl.roomPlayerId).isSome := by
    rw [hid, hpl]
    rfl
  obtain ⟨worth, hworth, hnet⟩ := calculatePlayerNetWorth_eq h hlisted
  rw [hid] at hnet
  refine bind_eq_ok.mpr ⟨pl, findPlayer_eq_ok.mpr hpl, bind_eq_ok.mpr ⟨worth, hworth, ?_⟩⟩
  rw [hnet]
  rfl

/-! ## What tiles can be turned into cash for -/

/-- Half of what the buildings on a tile cost. -/
def halfBuildingCost (board : GameBoard) (x : GameEngineProperty) : Int :=
  ((board.tile? x.tileKey).bind GameTile.ownable?).elim 0 fun tile => buildingValue tile x

/-- What a tile yields when its buildings are sold and it is mortgaged. -/
def cashable (board : GameBoard) (x : GameEngineProperty) : Int :=
  halfBuildingCost board x +
    (if x.mortgaged then 0
    else ((board.tile? x.tileKey).bind GameTile.ownable?).elim 0 OwnableTile.mortgageValue)

/-- What a bare, mortgaged tile is worth. -/
def bareWorth (board : GameBoard) (key : TileKey) : Int :=
  ((board.tile? key).bind GameTile.ownable?).elim 0 fun tile => tile.price - tile.mortgageValue

theorem assetWorth_eq (board : GameBoard) (x : GameEngineProperty) :
    assetWorth board x = cashable board x + bareWorth board x.tileKey := by
  unfold assetWorth cashable halfBuildingCost bareWorth
  cases (board.tile? x.tileKey).bind GameTile.ownable? with
  | none => simp
  | some tile =>
    simp only [Option.elim_some, calculateAssetNetWorth]
    split
    · omega
    · omega

theorem assetWorth_cleared (board : GameBoard) (x : GameEngineProperty)
    (owner : Option RoomPlayerId) :
    assetWorth board
      { x with houseCount := 0, hasHotel := false, ownerRoomPlayerId := owner } +
        halfBuildingCost board x = assetWorth board x := by
  unfold assetWorth halfBuildingCost
  cases (board.tile? x.tileKey).bind GameTile.ownable? with
  | none => simp
  | some tile =>
    have hnone : buildingValue tile
        { x with houseCount := 0, hasHotel := false, ownerRoomPlayerId := owner } = 0 := by
      cases tile <;> simp [buildingValue, GameEngineProperty.level]
    simp only [Option.elim_some, calculateAssetNetWorth, hnone]
    omega

theorem houseCost_half_pos {tile : PropertyTile}
    (h : .property tile ∈ classicGameBoard.tiles) : 0 < tile.houseCost / 2 := by
  have hall : classicGameBoard.tiles.all (fun t =>
      (GameTile.property? t).all fun tile => decide (0 < tile.houseCost / 2)) = true := by
    decide +kernel
  have htile := List.all_eq_true.mp hall _ h
  simpa [GameTile.property?] using htile

theorem property_of_ownable {board : GameBoard} {key : TileKey} {tile : PropertyTile}
    (h : (board.tile? key).bind GameTile.ownable? = some (.property tile)) :
    .property tile ∈ board.tiles := by
  obtain ⟨found, hfound, hown⟩ := Option.bind_eq_some_iff.mp h
  have hmem : found ∈ board.tiles := Keyed.find_mem _ hfound
  cases found <;> cases hown
  exact hmem

theorem halfBuildingCost_nonneg {x : GameEngineProperty} (h0 : 0 ≤ x.houseCount) :
    0 ≤ halfBuildingCost s.board x := by
  unfold halfBuildingCost
  cases htile : (s.board.tile? x.tileKey).bind GameTile.ownable? with
  | none => exact le_refl 0
  | some tile =>
    cases tile with
    | property tile =>
      have hpos := houseCost_half_pos (s.board_eq ▸ property_of_ownable htile)
      have hlevel : 0 ≤ x.level := by
        unfold GameEngineProperty.level
        split <;> omega
      exact mul_nonneg hlevel hpos.le
    | airport _ => exact le_refl 0
    | utility _ => exact le_refl 0

theorem bare_of_halfBuildingCost {x : GameEngineProperty} (hx : TileOk s x)
    (h : halfBuildingCost s.board x = 0) : x.houseCount = 0 ∧ x.hasHotel = false := by
  by_cases hbuilding : x.hasBuilding = true
  · exfalso
    obtain ⟨tile, hmem, hkey⟩ := hx.street hbuilding
    have hfind : (s.board.tile? x.tileKey).bind GameTile.ownable? = some (.property tile) := by
      have hkeyTile : (GameTile.property tile).key = x.tileKey := hkey
      rw [← hkeyTile, tile?_of_mem hmem]
      rfl
    have hpos := houseCost_half_pos (s.board_eq ▸ hmem)
    have hlevel : 0 < x.level := by
      have hhouses := hx.houses.1
      simp only [GameEngineProperty.hasBuilding, Bool.or_eq_true, decide_eq_true_eq] at hbuilding
      unfold GameEngineProperty.level
      rcases hbuilding with hcount | hhotel
      · split <;> omega
      · rw [if_pos hhotel]
        omega
    have hcost : x.level * (tile.houseCost / 2) = 0 := by
      unfold halfBuildingCost at h
      rw [hfind] at h
      exact h
    exact absurd hcost (mul_pos hlevel hpos).ne'
  · have hhouses := hx.houses.1
    simp only [GameEngineProperty.hasBuilding, Bool.or_eq_true, decide_eq_true_eq,
      not_or, Bool.not_eq_true] at hbuilding
    exact ⟨by omega, hbuilding.2⟩

theorem ownedWorth_of_owner (board : GameBoard) (q : RoomPlayerId) {x : GameEngineProperty}
    (h : x.ownerRoomPlayerId = some p) :
    ownedWorth board q x = if p = q then assetWorth board x else 0 := by
  unfold ownedWorth
  rw [h]
  simp only [Option.some.injEq]

end Worth

end Rules
end LivePoly
