import LivePoly.Rules.NetWorth
import LivePoly.Rules.Settlement

/-!
# Rules.AutoDebt

The timer settles a debt exactly. Every tile it sells from or mortgages moves worth into cash, so
what the debtor can raise in all is known from the start; the loop stops as soon as the cash
suffices, or when nothing is left.
-/

namespace LivePoly
namespace Rules

open Engine Checked

/-! ## What a debtor can raise -/

/-- Half the cost of the player's buildings, and the mortgage values of its other tiles. -/
def raisable (s : GameEngineState) (p : RoomPlayerId) : Int :=
  (s.properties.map fun x =>
    if x.ownerRoomPlayerId = some p then cashable s.board x else 0).sum

/-- The rounds a tile is good for. -/
def roundsLeft (x : GameEngineProperty) : Nat := x.level.toNat + (if x.mortgaged then 0 else 1)

/-- The player on turn, whose record is `pl`, has the debt to settle. -/
structure Indebted (s : GameEngineState) (p : RoomPlayerId) (debt : GameEngineDebt) : Prop where
  phase : s.phase = .awaitingDebtResolution
  pending : s.debt = some debt
  debtor : debt.roomPlayerId = p
  turn : ∃ pl, OnTurn s p pl

/-- The records the loop relies on: streets are built on, and a set with buildings has one
owner. -/
structure Liquidable (s : GameEngineState) : Prop where
  onBoard : OnBoard s
  houses : ∀ x ∈ s.properties, 0 ≤ x.houseCount
  hotel : ∀ x ∈ s.properties, x.hasHotel = true → x.houseCount = 0
  street : ∀ x ∈ s.properties, x.hasBuilding = true → ∃ tile : PropertyTile,
    .property tile ∈ classicGameBoard.tiles ∧ tile.key = x.tileKey
  owned : ∀ setKey, CarriesBuilding s setKey → ∃ q, SetOwned s q setKey fun _ => True

theorem liquidable {s : GameEngineState} (ht : TilesOk s) (hset : SetIntegrity s) :
    Liquidable s where
  onBoard := ht.keys
  houses := fun x hx => (ht.tile x hx).houses.1
  hotel := fun x hx => (ht.tile x hx).hotel
  street := fun x hx hb => by
    have hstreet := (ht.tile x hx).street hb
    rwa [s.board_eq] at hstreet
  owned := hset.owned

/-! ## One round -/

/-- One round turns part of the record `x` of `p` into cash. -/
structure Liquidates (p : RoomPlayerId) (s s' : GameEngineState) (x : GameEngineProperty)
    (f : GameEngineProperty → GameEngineProperty) : Prop where
  record : x ∈ s.properties
  owner : x.ownerRoomPlayerId = some p
  key : ∀ y, (f y).tileKey = y.tileKey
  keeps : ∀ y, (f y).ownerRoomPlayerId = y.ownerRoomPlayerId
  houses : 0 ≤ (f x).houseCount
  hotel : (f x).hasHotel = true → (f x).houseCount = 0
  built : (f x).hasBuilding = true → x.hasBuilding = true
  lighter : roundsLeft (f x) + 1 = roundsLeft x
  state : s' = (s.addCash p (cashable s.board x - cashable s.board (f x))).updatePropertyState
    x.tileKey f

section Round

variable {s s' : GameEngineState} {p : RoomPlayerId} {x : GameEngineProperty}
  {f : GameEngineProperty → GameEngineProperty} {debt : GameEngineDebt}

theorem Liquidates.properties (h : Liquidates p s s' x f) :
    s'.properties = Keyed.modify GameEngineProperty.tileKey s.properties x.tileKey f := by
  rw [h.state]
  rfl

theorem Liquidates.player? (h : Liquidates p s s' x f) (q : RoomPlayerId) :
    s'.player? q = (s.addCash p (cashable s.board x - cashable s.board (f x))).player? q := by
  rw [h.state]
  rfl

theorem Liquidates.indebted (h : Liquidates p s s' x f) (hi : Indebted s p debt) :
    Indebted s' p debt := by
  obtain ⟨pl, ho⟩ := hi.turn
  have hplayer := h.player? p
  rw [GameEngineState.player?_addCash, if_pos rfl, ho.player, Option.map_some] at hplayer
  have hstate := h.state
  exact {
    phase := by rw [hstate]; exact hi.phase
    pending := by rw [hstate]; exact hi.pending
    debtor := hi.debtor
    turn := ⟨_, hplayer, ho.active, by rw [hstate]; exact ho.current⟩ }

theorem Liquidates.onBoard (h : Liquidates p s s' x f) (hb : OnBoard s) : OnBoard s' := by
  refine OnBoard.map hb (g := fun y => if y.tileKey = x.tileKey then f y else y) ?_ h.properties
  intro y
  split
  · exact h.key y
  · rfl

theorem Liquidates.property? (h : Liquidates p s s' x f) (hs : Liquidable s) {key : TileKey}
    {y' : GameEngineProperty} (hy : s'.property? key = some y') :
    ∃ y, s.property? key = some y ∧ y'.ownerRoomPlayerId = y.ownerRoomPlayerId ∧
      (y'.hasBuilding = true → y.hasBuilding = true) := by
  have hfind : s'.property? key = if key = x.tileKey then (s.property? key).map f
      else s.property? key := by
    rw [h.state]
    exact GameEngineState.property?_updatePropertyState _ _ h.key key
  rw [hfind] at hy
  split at hy
  · rename_i hkey
    obtain ⟨y, hfound, rfl⟩ := Option.map_eq_some_iff.mp hy
    have hsame : y = x := by
      have hx : s.property? x.tileKey = some x :=
        Keyed.find_of_mem _ hs.onBoard.keys_nodup h.record
      rw [hkey, hx] at hfound
      exact (Option.some.inj hfound).symm
    subst hsame
    exact ⟨y, hfound, h.keeps y, h.built⟩
  · exact ⟨y', hy, rfl, id⟩

theorem Liquidates.liquidable (h : Liquidates p s s' x f) (hs : Liquidable s) :
    Liquidable s' := by
  have hnd := hs.onBoard.keys_nodup
  have hx : Keyed.find GameEngineProperty.tileKey s.properties x.tileKey = some x :=
    Keyed.find_of_mem _ hnd h.record
  have hall : ∀ {P : GameEngineProperty → Prop}, (∀ y ∈ s.properties, P y) → P (f x) →
      ∀ y ∈ s'.properties, P y := by
    intro P hP hfx
    rw [h.properties]
    exact Keyed.forall_mem_modify _ hnd hx hP hfx
  refine ⟨h.onBoard hs.onBoard, hall hs.houses h.houses, hall hs.hotel h.hotel, ?_, ?_⟩
  · refine hall hs.street fun hb => ?_
    rw [h.key]
    exact hs.street x h.record (h.built hb)
  · rintro setKey ⟨tile, htile, y', hy', hb⟩
    rw [s'.board_eq, ← s.board_eq] at htile
    obtain ⟨y, hy, _, hbuilt⟩ := h.property? hs hy'
    obtain ⟨q, howned⟩ := hs.owned setKey ⟨tile, htile, y, hy, hbuilt hb⟩
    refine ⟨q, fun other hother => ?_⟩
    rw [s'.board_eq, ← s.board_eq] at hother
    obtain ⟨z, hz, howner, _⟩ := howned other hother
    have hlisted : (s'.property? other.key).isSome := by
      rw [h.state]
      have hsome := congrArg Option.isSome (GameEngineState.property?_updatePropertyState
        (s.addCash p (cashable s.board x - cashable s.board (f x))) x.tileKey h.key other.key)
      refine hsome.trans ?_
      have hz' : (s.addCash p (cashable s.board x - cashable s.board (f x))).property?
          other.key = some z := hz
      rw [hz']
      split <;> rfl
    obtain ⟨z', hz'⟩ := Option.isSome_iff_exists.mp hlisted
    obtain ⟨w, hw, howner', _⟩ := h.property? hs hz'
    cases hz.symm.trans hw
    exact ⟨z', hz', howner'.trans howner, trivial⟩

theorem Liquidates.sum (h : Liquidates p s s' x f) (hb : OnBoard s) {M : Type*}
    [AddCommMonoid M] (g : GameEngineProperty → M) :
    (s'.properties.map g).sum + g x = (s.properties.map g).sum + g (f x) := by
  rw [h.properties]
  exact Keyed.sum_map_modify _ hb.keys_nodup (Keyed.find_of_mem _ hb.keys_nodup h.record) f g

theorem Liquidates.rounds (h : Liquidates p s s' x f) (hb : OnBoard s) :
    raiseCashRounds s' + 1 = raiseCashRounds s := by
  have hsum := h.sum hb roundsLeft
  have hlighter := h.lighter
  have hr : ∀ t : GameEngineState,
      raiseCashRounds t = (t.properties.map roundsLeft).sum + 1 := fun _ => rfl
  rw [hr, hr]
  omega

/-- What the player has and can raise stays the same. -/
theorem Liquidates.raisable (h : Liquidates p s s' x f) (hb : OnBoard s) :
    Rules.raisable s' p + cashable s.board x = Rules.raisable s p + cashable s.board (f x) := by
  have hsum := h.sum hb fun y => if y.ownerRoomPlayerId = some p then cashable s.board y else 0
  have howner : (f x).ownerRoomPlayerId = some p := (h.keeps x).trans h.owner
  simp only [h.owner, howner, if_true] at hsum
  unfold Rules.raisable
  rw [s'.board_eq, ← s.board_eq]
  exact hsum

theorem Liquidates.assets (h : Liquidates p s s' x f) (hb : OnBoard s) :
    Rules.assets s' p + cashable s.board x = Rules.assets s p + cashable s.board (f x) := by
  have hsum := h.sum hb (ownedWorth s.board p)
  have howner : (f x).ownerRoomPlayerId = some p := (h.keeps x).trans h.owner
  rw [ownedWorth_of_owner _ _ h.owner, ownedWorth_of_owner _ _ howner, if_pos rfl, if_pos rfl,
    assetWorth_eq, assetWorth_eq, h.key] at hsum
  unfold Rules.assets
  rw [s'.board_eq, ← s.board_eq]
  omega

theorem Liquidates.cash (h : Liquidates p s s' x f) {pl : GameEnginePlayer}
    (hpl : s.player? p = some pl) : ∃ pl', s'.player? p = some pl' ∧
      pl'.cash = pl.cash + (cashable s.board x - cashable s.board (f x)) := by
  have hplayer := h.player? p
  rw [GameEngineState.player?_addCash, if_pos rfl, hpl, Option.map_some] at hplayer
  exact ⟨_, hplayer, rfl⟩

theorem Liquidates.worth (h : Liquidates p s s' x f) (hb : OnBoard s) {pl : GameEnginePlayer}
    (hpl : s.player? p = some pl) : worthOf s' p = worthOf s p := by
  obtain ⟨pl', hpl', hcash⟩ := h.cash hpl
  have hassets := h.assets hb
  rw [worthOf_eq hb hpl, worthOf_eq (h.onBoard hb) hpl']
  congr 1
  omega

end Round

/-! ## The building to sell -/

section Greedy

variable {s : GameEngineState} {p : RoomPlayerId} {x : GameEngineProperty}
  {debt : GameEngineDebt}

theorem sellsBefore_total (x y : GameEngineProperty) :
    sellsBefore x y = true ∨ sellsBefore y x = true := by
  unfold sellsBefore
  by_cases hhotel : x.hasHotel = y.hasHotel
  · simp only [hhotel, ne_eq, not_true_eq_false, if_false, decide_eq_true_eq]
    omega
  · cases hx : x.hasHotel <;> cases hy : y.hasHotel <;> simp_all

theorem sellsBefore_trans (x y z : GameEngineProperty) (hxy : sellsBefore x y = true)
    (hyz : sellsBefore y z = true) : sellsBefore x z = true := by
  unfold sellsBefore at *
  cases hx : x.hasHotel <;> cases hy : y.hasHotel <;> cases hz : z.hasHotel <;>
    simp only [hx, hy, hz, ne_eq, reduceCtorEq, not_false_eq_true, not_true_eq_false, if_true,
      if_false, decide_eq_true_eq, Bool.false_eq_true] at hxy hyz ⊢ <;> omega

/-- The choice is a building of the player; hotels come first, then the highest house count. -/
theorem findBuildingToSell_eq_some (h : findBuildingToSell s p = some x) :
    x ∈ s.properties ∧ x.ownerRoomPlayerId = some p ∧ (x.hasHotel = true ∨ 0 < x.houseCount) ∧
      ∀ y ∈ s.properties, y.ownerRoomPlayerId = some p →
        (y.hasHotel = true ∨ 0 < y.houseCount) → sellsBefore x y = true := by
  unfold findBuildingToSell at h
  have htotal : Std.Total fun left right : GameEngineProperty => sellsBefore left right = true :=
    ⟨sellsBefore_total⟩
  have htrans : IsTrans GameEngineProperty fun left right => sellsBefore left right = true :=
    ⟨sellsBefore_trans⟩
  have hsorted := List.pairwise_insertionSort
    (fun left right : GameEngineProperty => sellsBefore left right = true)
    (s.properties.filter fun property =>
      property.ownerRoomPlayerId = some p ∧ (property.hasHotel ∨ 0 < property.houseCount))
  have hmem : ∀ y, y ∈ (s.properties.filter fun property =>
      property.ownerRoomPlayerId = some p ∧
        (property.hasHotel ∨ 0 < property.houseCount)).insertionSort
          (fun left right => sellsBefore left right) ↔
      y ∈ s.properties ∧ y.ownerRoomPlayerId = some p ∧ (y.hasHotel = true ∨ 0 < y.houseCount) := by
    intro y
    rw [List.mem_insertionSort, List.mem_filter, decide_eq_true_eq]
  generalize (s.properties.filter fun property => property.ownerRoomPlayerId = some p ∧
    (property.hasHotel ∨ 0 < property.houseCount)).insertionSort
      (fun left right => sellsBefore left right) = sorted at h hsorted hmem
  cases sorted with
  | nil => cases h
  | cons first rest =>
    cases h
    obtain ⟨hx, howner, hbuilt⟩ := (hmem x).mp List.mem_cons_self
    refine ⟨hx, howner, hbuilt, fun y hy hyOwner hyBuilt => ?_⟩
    rcases List.mem_cons.mp ((hmem y).mpr ⟨hy, hyOwner, hyBuilt⟩) with rfl | hrest
    · exact (sellsBefore_total _ _).elim id id
    · exact (List.pairwise_cons.mp hsorted).1 y hrest

theorem findBuildingToSell_eq_none (h : findBuildingToSell s p = none) :
    ∀ y ∈ s.properties, y.ownerRoomPlayerId = some p → y.hasHotel = false ∧ y.houseCount ≤ 0 := by
  intro y hy howner
  unfold findBuildingToSell at h
  rw [List.head?_eq_none_iff] at h
  by_contra hbuilt
  have hsome : y.hasHotel = true ∨ 0 < y.houseCount := by
    by_contra hnot
    rw [not_or, Bool.not_eq_true, not_lt] at hnot
    exact hbuilt hnot
  have hmem : y ∈ (s.properties.filter fun property =>
      property.ownerRoomPlayerId = some p ∧
        (property.hasHotel ∨ 0 < property.houseCount)).insertionSort
          (fun left right => sellsBefore left right) := by
    rw [List.mem_insertionSort, List.mem_filter, decide_eq_true_eq]
    exact ⟨hy, howner, hsome⟩
  rw [h] at hmem
  cases hmem

theorem Liquidable.setOwned (hs : Liquidable s) (hx : x ∈ s.properties)
    (howner : x.ownerRoomPlayerId = some p) {tile : PropertyTile}
    (htile : .property tile ∈ s.board.tiles) (hkey : tile.key = x.tileKey)
    (hcarries : CarriesBuilding s tile.setKey) : SetOwned s p tile.setKey fun _ => True := by
  obtain ⟨q, howned⟩ := hs.owned tile.setKey hcarries
  obtain ⟨y, hy, hyOwner, _⟩ := howned tile (mem_setTiles.mpr htile)
  have hfind : s.property? tile.key = some x := by
    rw [hkey]
    exact Keyed.find_of_mem _ hs.onBoard.keys_nodup hx
  cases hfind.symm.trans hy
  cases howner.symm.trans hyOwner
  exact howned

theorem getOwnedSetProperties_of_setOwned {tile : PropertyTile}
    (h : SetOwned s p tile.setKey fun _ => True) :
    ∃ set, getOwnedSetProperties s tile p = .ok set ∧
      (∀ y ∈ set, y ∈ s.properties ∧ y.ownerRoomPlayerId = some p) ∧
      ∀ other ∈ s.board.setTiles tile.setKey, ∀ y, s.property? other.key = some y → y ∈ set := by
  have hfound : ∃ set, (s.board.setTiles tile.setKey).mapM
      (fun setTile => findPropertyState s setTile.key) = .ok set := by
    apply succeeds_mapM
    intro other hother
    obtain ⟨y, hy, _⟩ := h other hother
    exact ⟨y, findPropertyState_eq_ok.mpr hy⟩
  obtain ⟨set, hset⟩ := hfound
  have hmem : ∀ y ∈ set, y ∈ s.properties ∧ y.ownerRoomPlayerId = some p := by
    intro y hy
    obtain ⟨other, hother, hfind⟩ := mapM_mem_right hset hy
    obtain ⟨z, hz, howner, _⟩ := h other hother
    cases hz.symm.trans (findPropertyState_eq_ok.mp hfind)
    exact ⟨Keyed.find_mem _ hz, howner⟩
  refine ⟨set, ?_, hmem, ?_⟩
  · unfold getOwnedSetProperties
    rw [hset, ok_bind]
    refine bind_eq_ok.mpr ⟨(), rejectIf_eq_ok.mpr ?_, rfl⟩
    rintro ⟨y, hy, hne⟩
    exact hne (hmem y hy).2
  · intro other hother y hy
    obtain ⟨z, hz, hfind⟩ := mapM_mem_left hset hother
    cases hy.symm.trans (findPropertyState_eq_ok.mp hfind)
    exact hz

theorem Indebted.manages (hi : Indebted s p debt) (code : GameEngineErrorCode)
    (message : String) : assertCanManage code message s p true = .ok () := by
  have hactive : s.phase ≠ .finished ∧ s.phase ≠ .cancelled := by
    rw [hi.phase]
    exact ⟨by decide, by decide⟩
  unfold assertCanManage
  refine bind_eq_ok.mpr ⟨(), assertGameActive_eq_ok.mpr hactive, ?_⟩
  refine bind_eq_ok.mpr ⟨(), rejectIf_eq_ok.mpr ?_, assertCurrentTurn_eq_ok.mpr hi.turn⟩
  rintro ⟨_, hnot⟩
  refine hnot ⟨rfl, hi.phase, ?_⟩
  rw [hi.pending, Option.map_some, hi.debtor]

theorem findPropertyState_of_mem (hs : Liquidable s) (hx : x ∈ s.properties) :
    findPropertyState s x.tileKey = .ok x :=
  findPropertyState_eq_ok.mpr (Keyed.find_of_mem _ hs.onBoard.keys_nodup hx)

theorem Liquidable.tile (hs : Liquidable s) (hx : x ∈ s.properties)
    (hbuilt : x.hasHotel = true ∨ 0 < x.houseCount) : ∃ tile : PropertyTile,
      .property tile ∈ s.board.tiles ∧ tile.key = x.tileKey ∧
        s.board.tile? x.tileKey = some (.property tile) := by
  have hbuilding : x.hasBuilding = true := by
    simp only [GameEngineProperty.hasBuilding, Bool.or_eq_true, decide_eq_true_eq]
    exact hbuilt.symm
  obtain ⟨tile, htile, hkey⟩ := hs.street x hx hbuilding
  rw [← s.board_eq] at htile
  refine ⟨tile, htile, hkey, ?_⟩
  have hfound := tile?_of_mem htile
  have hkeyTile : (GameTile.property tile).key = x.tileKey := hkey
  rwa [hkeyTile] at hfound

theorem halfBuildingCost_street {board : GameBoard} {tile : PropertyTile}
    (h : board.tile? x.tileKey = some (.property tile)) :
    halfBuildingCost board x = x.level * (tile.houseCost / 2) := by
  unfold halfBuildingCost
  rw [h]
  rfl

/-- The house with the highest count of all can be sold. -/
theorem assertCanSellHouseEvenly_of_highest {set : List GameEngineProperty} (hmem : x ∈ set)
    (hset : ∀ y ∈ set, y.hasHotel = false ∧ y.houseCount ≤ x.houseCount) :
    assertCanSellHouseEvenly x set = .ok () := by
  unfold assertCanSellHouseEvenly
  refine bind_eq_ok.mpr ⟨(), rejectIf_eq_ok.mpr ?_, rejectIf_eq_ok.mpr ?_⟩
  · rintro ⟨y, hy, hhotel⟩
    rw [(hset y hy).1] at hhotel
    cases hhotel
  · rw [not_not]
    refine (List.max?_eq_some_iff.mpr ⟨List.mem_map_of_mem hmem, ?_⟩).symm
    intro count hcount
    obtain ⟨y, hy, rfl⟩ := List.mem_map.mp hcount
    exact (hset y hy).2

/-- A building less is a round less, and yields half of what it cost. -/
theorem levelDown {f : GameEngineProperty → GameEngineProperty} {tile : PropertyTile}
    (htile : s.board.tile? x.tileKey = some (.property tile))
    (hkey : (f x).tileKey = x.tileKey) (hmortgaged : (f x).mortgaged = x.mortgaged)
    (h0 : 0 ≤ (f x).level) (hlevel : (f x).level + 1 = x.level) :
    roundsLeft (f x) + 1 = roundsLeft x ∧
      cashable s.board x - cashable s.board (f x) = tile.houseCost / 2 := by
  have htile' : s.board.tile? (f x).tileKey = some (.property tile) := by rwa [hkey]
  constructor
  · unfold roundsLeft
    rw [hmortgaged, ← hlevel]
    omega
  · unfold cashable
    rw [halfBuildingCost_street htile, halfBuildingCost_street htile', hkey, hmortgaged, ← hlevel,
      add_mul, one_mul]
    omega

/-- The building the timer picks can be sold. -/
theorem sellBuilding_liquidates (hs : Liquidable s) (hi : Indebted s p debt)
    (h : findBuildingToSell s p = some x) :
    ∃ r f, sellBuilding s p x.tileKey = .ok r ∧ Liquidates p s r.state x f := by
  obtain ⟨hx, howner, hbuilt, hfirst⟩ := findBuildingToSell_eq_some h
  obtain ⟨tile, htile, hkey, hfound⟩ := hs.tile hx hbuilt
  obtain ⟨pl, ho⟩ := hi.turn
  have hbuilding : x.hasBuilding = true := by
    simp only [GameEngineProperty.hasBuilding, Bool.or_eq_true, decide_eq_true_eq]
    exact hbuilt.symm
  have hfind : s.property? tile.key = some x := by
    rw [hkey]
    exact Keyed.find_of_mem _ hs.onBoard.keys_nodup hx
  have hinSet := mem_setTiles.mpr htile
  have howned := hs.setOwned hx howner htile hkey ⟨tile, hinSet, x, hfind, hbuilding⟩
  obtain ⟨set, hset, hmem, hall⟩ := getOwnedSetProperties_of_setOwned howned
  have hpos := houseCost_half_pos (s.board_eq ▸ htile)
  have hmanage : assertCanManageBuildings s p true = .ok () := hi.manages _ _
  have htileFound : getPropertyTileByKey s.board x.tileKey = .ok tile := by
    unfold getPropertyTileByKey
    rw [hfound]
    rfl
  have hproperty : findPropertyState s tile.key = .ok x := findPropertyState_eq_ok.mpr hfind
  have hcredit : creditPlayer s p (tile.houseCost / 2) = .ok (s.addCash p (tile.houseCost / 2)) :=
    creditPlayer_eq_ok.mpr ⟨hpos.le, ⟨pl, ho.player⟩, rfl⟩
  unfold sellBuilding
  rw [hmanage, ok_bind, htileFound, ok_bind, hset, ok_bind, hproperty, ok_bind]
  by_cases hhotel : x.hasHotel = true
  · have hnoHouse := hs.hotel x hx hhotel
    let f : GameEngineProperty → GameEngineProperty := fun candidate =>
      { candidate with houseCount := 4, hasHotel := false }
    have hlevel : (f x).level + 1 = x.level := by
      simp [f, GameEngineProperty.level, hhotel, hnoHouse]
    have h0 : 0 ≤ (f x).level := by
      simp [f, GameEngineProperty.level]
    obtain ⟨hlighter, hgain⟩ := levelDown hfound (f := f) rfl rfl h0 hlevel
    rw [if_pos hhotel, hcredit, ok_bind]
    refine ⟨_, f, rfl, ?_⟩
    exact {
      record := hx
      owner := howner
      key := fun _ => rfl
      keeps := fun _ => rfl
      houses := (by decide : (0 : Int) ≤ 4)
      hotel := fun hh => by cases hh
      built := fun _ => hbuilding
      lighter := hlighter
      state := by rw [hgain] }
  · rw [if_neg hhotel]
    have hcount : 0 < x.houseCount := hbuilt.resolve_left hhotel
    have heven : assertCanSellHouseEvenly x set = .ok () := by
      refine assertCanSellHouseEvenly_of_highest (hall tile hinSet x hfind) fun y hy => ?_
      obtain ⟨hyMem, hyOwner⟩ := hmem y hy
      by_cases hyBuilt : y.hasHotel = true ∨ 0 < y.houseCount
      · have hbefore := hfirst y hyMem hyOwner hyBuilt
        unfold sellsBefore at hbefore
        cases hyHotel : y.hasHotel with
        | true => simp [hyHotel, hhotel] at hbefore
        | false =>
          simp only [hyHotel, hhotel, ne_eq, not_true_eq_false, if_false, decide_eq_true_eq]
            at hbefore
          exact ⟨rfl, hbefore⟩
      · rw [not_or, Bool.not_eq_true, not_lt] at hyBuilt
        exact ⟨hyBuilt.1, by omega⟩
    have hnotZero : ¬ x.houseCount = 0 := by omega
    let f : GameEngineProperty → GameEngineProperty := fun candidate =>
      { candidate with houseCount := x.houseCount - 1 }
    have hlevel : (f x).level + 1 = x.level := by
      simp only [f, GameEngineProperty.level]
      omega
    have h0 : 0 ≤ (f x).level := by
      simp only [f, GameEngineProperty.level]
      split <;> omega
    obtain ⟨hlighter, hgain⟩ := levelDown hfound (f := f) rfl rfl h0 hlevel
    refine ⟨_, f, bind_eq_ok.mpr ⟨(), rejectIf_eq_ok.mpr hnotZero, bind_eq_ok.mpr ⟨(), heven,
        bind_eq_ok.mpr ⟨_, hcredit, rfl⟩⟩⟩, ?_⟩
    exact {
      record := hx
      owner := howner
      key := fun _ => rfl
      keeps := fun _ => rfl
      houses := by dsimp only [f]; omega
      hotel := fun hh => absurd hh hhotel
      built := fun _ => hbuilding
      lighter := hlighter
      state := by rw [hgain] }

/-! ## The tile to mortgage -/

theorem findPropertyToMortgage_eq_some (h : findPropertyToMortgage s p = some x) :
    x ∈ s.properties ∧ x.ownerRoomPlayerId = some p ∧ x.mortgaged = false ∧
      x.hasHotel = false ∧ x.houseCount ≤ 0 ∧
      (s.board.tile? x.tileKey).any (canMortgageTile s) = true := by
  unfold findPropertyToMortgage at h
  have hmem := List.mem_of_find?_eq_some h
  have htest := List.find?_some h
  simp only [Bool.if_false_left, Bool.and_eq_true, Bool.not_eq_true',
    decide_eq_false_iff_not, not_or, not_not, Bool.not_eq_true, not_lt] at htest
  obtain ⟨⟨howner, hmortgaged, hhotel, hcount⟩, htile⟩ := htest
  exact ⟨hmem, howner, hmortgaged, hhotel, hcount, htile⟩

theorem mortgageValue_nonneg {key : TileKey} {tile : OwnableTile}
    (h : (s.board.tile? key).bind GameTile.ownable? = some tile) : 0 ≤ tile.mortgageValue := by
  have hall : classicGameBoard.tiles.all (fun t =>
      (GameTile.ownable? t).all fun tile => decide (0 ≤ tile.mortgageValue)) = true := by
    decide +kernel
  obtain ⟨found, hfound, hown⟩ := Option.bind_eq_some_iff.mp h
  have hmem : found ∈ s.board.tiles := Keyed.find_mem _ hfound
  rw [s.board_eq] at hmem
  have hfoundOk := List.all_eq_true.mp hall _ hmem
  rw [hown] at hfoundOk
  exact of_decide_eq_true hfoundOk

theorem OnBoard.street (h : OnBoard s) {tile : PropertyTile}
    (htile : .property tile ∈ s.board.tiles) : ∃ x, s.property? tile.key = some x := by
  apply Option.isSome_iff_exists.mp
  refine (Keyed.find_isSome_iff _).mpr ?_
  rw [h]
  refine List.mem_map.mpr ⟨.property tile, ?_, rfl⟩
  exact List.mem_filterMap.mpr ⟨_, htile, rfl⟩

theorem setTiles_street {board : GameBoard} {setKey : PropertySetKey} {tile : PropertyTile}
    (h : tile ∈ board.setTiles setKey) : .property tile ∈ board.tiles ∧ tile.setKey = setKey := by
  have hkey : tile.setKey = setKey := by
    simpa [GameBoard.setTiles] using (List.mem_filter.mp h).2
  rw [← hkey] at h
  exact ⟨mem_setTiles.mp h, hkey⟩

/-- What the timer asks of a tile is what mortgaging asks of it. -/
theorem assertNoBuildings_of_canMortgage (hb : OnBoard s) {tile : OwnableTile}
    (htile : (s.board.tile? x.tileKey).bind GameTile.ownable? = some tile)
    (hcan : (s.board.tile? x.tileKey).any (canMortgageTile s) = true) :
    assertNoBuildingsForMortgage s tile = .ok () := by
  obtain ⟨found, hfound, hown⟩ := Option.bind_eq_some_iff.mp htile
  rw [hfound] at hcan
  cases found <;> cases hown
  case property tile =>
    have hall := List.all_eq_true.mp hcan
    have hnone : (s.board.setTiles tile.setKey).anyM (fun setTile => do
        let property ← findPropertyState s setTile.key
        return property.hasBuilding) = (.ok false : Checked Bool) := by
      refine anyM_eq_ok_false.mpr fun other hother => ?_
      obtain ⟨y, hy⟩ := hb.street (setTiles_street hother).1
      have hkey : y.tileKey = other.key := GameEngineState.property?_key hy
      have hbare := hall y (List.mem_filter.mpr ⟨Keyed.find_mem _ hy, by
        rw [decide_eq_true_eq, hkey]
        exact List.mem_map_of_mem hother⟩)
      simp only [Bool.and_eq_true, Bool.not_eq_true', decide_eq_true_eq] at hbare
      have hno : y.hasBuilding = false := by
        simp [GameEngineProperty.hasBuilding, hbare.1, hbare.2]
      refine bind_eq_ok.mpr ⟨y, findPropertyState_eq_ok.mpr hy, ?_⟩
      rw [hno]
      rfl
    unfold assertNoBuildingsForMortgage
    exact bind_eq_ok.mpr ⟨false, hnone, rejectIf_eq_ok.mpr (by decide)⟩
  case airport => rfl
  case utility => rfl

theorem mortgageProperty_liquidates (hs : Liquidable s) (hi : Indebted s p debt)
    (h : findPropertyToMortgage s p = some x) :
    ∃ r f, mortgageProperty s p x.tileKey = .ok r ∧ Liquidates p s r.state x f := by
  obtain ⟨hx, howner, hmortgaged, hhotel, hcount, hcan⟩ := findPropertyToMortgage_eq_some h
  obtain ⟨pl, ho⟩ := hi.turn
  obtain ⟨tile, htile⟩ := hs.onBoard.ownable hx
  have hkey : tile.key = x.tileKey := ownable_of_tile? htile
  have hmanage : assertCanManageMortgage s p true = .ok () := hi.manages _ _
  have htileFound : getMortgageableTileByKey s.board x.tileKey = .ok tile :=
    orThrow_eq_ok.mpr htile
  have hproperty : findPropertyState s tile.key = .ok x := by
    rw [hkey]
    exact findPropertyState_of_mem hs hx
  have hbare := assertNoBuildings_of_canMortgage hs.onBoard htile hcan
  have hcredit : creditPlayer s p tile.mortgageValue = .ok (s.addCash p tile.mortgageValue) :=
    creditPlayer_eq_ok.mpr ⟨mortgageValue_nonneg htile, ⟨pl, ho.player⟩, rfl⟩
  unfold mortgageProperty
  rw [hmanage, ok_bind, htileFound, ok_bind, hproperty, ok_bind]
  let f : GameEngineProperty → GameEngineProperty := fun candidate =>
    { candidate with mortgaged := true }
  have hgain : cashable s.board x - cashable s.board (f x) = tile.mortgageValue := by
    have hhalf : halfBuildingCost s.board (f x) = halfBuildingCost s.board x := by
      unfold halfBuildingCost
      cases tile <;> simp [f, buildingValue, GameEngineProperty.level]
    unfold cashable
    rw [hhalf, hmortgaged, htile]
    simp [f]
  refine ⟨_, f, bind_eq_ok.mpr ⟨(), rejectIf_eq_ok.mpr (by simpa using howner),
    bind_eq_ok.mpr ⟨(), rejectIf_eq_ok.mpr (by simp [hmortgaged]), bind_eq_ok.mpr ⟨(), hbare,
      bind_eq_ok.mpr ⟨_, hcredit, rfl⟩⟩⟩⟩, ?_⟩
  exact {
    record := hx
    owner := howner
    key := fun _ => rfl
    keeps := fun _ => rfl
    houses := hs.houses x hx
    hotel := hs.hotel x hx
    built := id
    lighter := by
      simp [roundsLeft, f, hmortgaged, GameEngineProperty.level]
    state := by rw [hgain] }

/-- A player without buildings can mortgage its tiles: a set another one has built on is not
partly its own. -/
theorem canMortgage_of_bare (hs : Liquidable s)
    (hbare : ∀ y ∈ s.properties, y.ownerRoomPlayerId = some p →
      y.hasHotel = false ∧ y.houseCount ≤ 0)
    (hx : x ∈ s.properties) (howner : x.ownerRoomPlayerId = some p) :
    (s.board.tile? x.tileKey).any (canMortgageTile s) = true := by
  obtain ⟨tile, htile⟩ := hs.onBoard.ownable hx
  obtain ⟨found, hfound, hown⟩ := Option.bind_eq_some_iff.mp htile
  have hfoundKey : found.key = x.tileKey := Keyed.find_key GameTile.key hfound
  have hmem : found ∈ s.board.tiles := Keyed.find_mem _ hfound
  rw [hfound, Option.any_some]
  cases found <;> cases hown
  case property tile =>
    refine List.all_eq_true.mpr fun y hy => ?_
    obtain ⟨hyMem, hyKey⟩ := List.mem_filter.mp hy
    obtain ⟨other, hother, hotherKey⟩ := List.mem_map.mp (of_decide_eq_true hyKey)
    have hfind : s.property? other.key = some y := by
      rw [hotherKey]
      exact Keyed.find_of_mem _ hs.onBoard.keys_nodup hyMem
    have hyHouses := hs.houses y hyMem
    cases hbuilt : y.hasBuilding with
    | false =>
      simp only [GameEngineProperty.hasBuilding, Bool.or_eq_false_iff,
        decide_eq_false_iff_not] at hbuilt
      simp only [hbuilt.2, Bool.not_false, Bool.true_and, decide_eq_true_eq]
      omega
    | true =>
      have howned := hs.setOwned hx howner hmem hfoundKey ⟨other, hother, y, hfind, hbuilt⟩
      obtain ⟨z, hz, hzOwner, _⟩ := howned other hother
      cases hfind.symm.trans hz
      obtain ⟨hhotel, hcount⟩ := hbare y hyMem hzOwner
      simp only [hhotel, Bool.not_false, Bool.true_and, decide_eq_true_eq]
      omega
  case airport => rfl
  case utility => rfl

/-- When the timer finds nothing to sell and nothing to mortgage, nothing can be raised. -/
theorem raisable_of_exhausted (hs : Liquidable s) (hbuilding : findBuildingToSell s p = none)
    (hmortgage : findPropertyToMortgage s p = none) : raisable s p = 0 := by
  have hbare := findBuildingToSell_eq_none hbuilding
  apply List.sum_eq_zero
  intro amount hamount
  obtain ⟨x, hx, rfl⟩ := List.mem_map.mp hamount
  split
  swap
  · rfl
  rename_i howner
  obtain ⟨hhotel, hcount⟩ := hbare x hx howner
  have hhouses := hs.houses x hx
  have hzero : x.houseCount = 0 := by omega
  have hhalf : halfBuildingCost s.board x = 0 := by
    unfold halfBuildingCost
    cases (s.board.tile? x.tileKey).bind GameTile.ownable? with
    | none => rfl
    | some tile => cases tile <;> simp [buildingValue, GameEngineProperty.level, hhotel, hzero]
  have hmortgaged : x.mortgaged = true := by
    by_contra hfree
    rw [Bool.not_eq_true] at hfree
    refine List.find?_eq_none.mp hmortgage x hx ?_
    have hcan := canMortgage_of_bare hs hbare hx howner
    have hnot : ¬ (x.ownerRoomPlayerId ≠ some p ∨ x.mortgaged = true ∨ x.hasHotel = true ∨
        0 < x.houseCount) := by
      simp [howner, hfree, hhotel, hcount]
    rw [if_neg hnot]
    exact hcan
  unfold cashable
  rw [hhalf, if_pos hmortgaged]
  rfl

end Greedy

theorem raisable_nonneg {s : GameEngineState} (hs : Liquidable s) (p : RoomPlayerId) :
    0 ≤ raisable s p := by
  apply List.sum_nonneg
  intro amount hamount
  obtain ⟨x, hx, rfl⟩ := List.mem_map.mp hamount
  split
  · have hhalf := halfBuildingCost_nonneg (s := s) (hs.houses x hx)
    obtain ⟨tile, htile⟩ := hs.onBoard.ownable hx
    have hmortgage := mortgageValue_nonneg htile
    unfold cashable
    rw [htile, Option.elim_some]
    split <;> omega
  · exact le_refl 0

/-! ## The loop -/

/-- The player has less cash than it owes. -/
def ShortOf (s : GameEngineState) (p : RoomPlayerId) (amount : Int) : Prop :=
  ∃ pl, s.player? p = some pl ∧ pl.cash < amount

/-- Selling and mortgaging for as long as the cash is short, and buildings first. The lists hold the
states from which something was sold or mortgaged, and the events of all that. -/
inductive RaisesCash (p : RoomPlayerId) (amount : Int) : GameEngineState →
    List GameEngineState → List GameEngineEvent → GameEngineState → Prop
  | done (s : GameEngineState) : RaisesCash p amount s [] [] s
  | sold {s s' : GameEngineState} {path : List GameEngineState} {events : List GameEngineEvent}
      {key : TileKey} {r : GameEngineResult} (hshort : ShortOf s p amount)
      (hsold : sellBuilding s p key = .ok r) (hrest : RaisesCash p amount r.state path events s') :
      RaisesCash p amount s (s :: path) (r.events ++ events) s'
  | mortgaged {s s' : GameEngineState} {path : List GameEngineState}
      {events : List GameEngineEvent} {key : TileKey} {r : GameEngineResult}
      (hshort : ShortOf s p amount)
      (hbare : ∀ y ∈ s.properties, y.ownerRoomPlayerId = some p → y.hasBuilding = false)
      (hmortgaged : mortgageProperty s p key = .ok r)
      (hrest : RaisesCash p amount r.state path events s') :
      RaisesCash p amount s (s :: path) (r.events ++ events) s'

/-- What raising cash for the debt keeps, from the state `s` on. -/
structure Raising (p : RoomPlayerId) (debt : GameEngineDebt) (s t : GameEngineState) : Prop where
  liquidable : Liquidable t
  indebted : Indebted t p debt
  worth : worthOf t p = worthOf s p
  total : ∀ pl pl', s.player? p = some pl → t.player? p = some pl' →
    pl'.cash + raisable t p = pl.cash + raisable s p
  active : ∀ q, IsActive s q → IsActive t q

section Loop

variable {s t t' : GameEngineState} {p : RoomPlayerId} {x : GameEngineProperty}
  {f : GameEngineProperty → GameEngineProperty} {debt : GameEngineDebt}

theorem Raising.refl (hs : Liquidable s) (hi : Indebted s p debt) : Raising p debt s s where
  liquidable := hs
  indebted := hi
  worth := rfl
  total := by
    intro pl pl' hpl hpl'
    cases hpl.symm.trans hpl'
    rfl
  active := fun _ h => h

theorem Raising.step (h : Raising p debt s t) (hstep : Liquidates p t t' x f) :
    Raising p debt s t' := by
  obtain ⟨tl, ho⟩ := h.indebted.turn
  have hb := h.liquidable.onBoard
  refine ⟨hstep.liquidable h.liquidable, hstep.indebted h.indebted,
    (hstep.worth hb ho.player).trans h.worth, ?_, ?_⟩
  · intro pl pl' hpl hpl'
    have htotal := h.total pl tl hpl ho.player
    obtain ⟨tl', htl', hcash⟩ := hstep.cash ho.player
    cases htl'.symm.trans hpl'
    have hraisable := hstep.raisable hb
    omega
  · intro q hq
    obtain ⟨ql, hql, hactive⟩ := h.active q hq
    have hplayer := hstep.player? q
    rw [GameEngineState.player?_addCash, hql] at hplayer
    split at hplayer
    · exact ⟨_, hplayer, hactive⟩
    · exact ⟨ql, hplayer, hactive⟩

theorem canPayDebt_eq (hi : Indebted t p debt) {tl : GameEnginePlayer}
    (htl : t.player? p = some tl) : canPayDebt t p = .ok (decide (debt.amount ≤ tl.cash)) := by
  refine bind_eq_ok.mpr ⟨tl, findPlayerOr_eq_ok.mpr htl, ?_⟩
  rw [hi.pending]
  rfl

/-- The loop ends within its rounds, when the cash suffices or nothing more can be raised. -/
theorem raiseCash_raises {rounds : Nat} (h : Raising p debt s t)
    (hrounds : raiseCashRounds t ≤ rounds) (events : List GameEngineEvent) :
    ∃ r path made, raiseCash p rounds ⟨t, events⟩ = .ok r ∧ r.events = events ++ made ∧
      RaisesCash p debt.amount t path made r.state ∧ (∀ u ∈ path, Raising p debt s u) ∧
      Raising p debt s r.state ∧
      (canPayDebt r.state p = .ok true ∨
        canPayDebt r.state p = .ok false ∧ raisable r.state p = 0) := by
  induction rounds generalizing t events with
  | zero =>
    unfold raiseCashRounds at hrounds
    omega
  | succ rounds ih =>
    obtain ⟨tl, ho⟩ := h.indebted.turn
    have hcan := canPayDebt_eq h.indebted ho.player
    rw [raiseCash]
    by_cases hcash : debt.amount ≤ tl.cash
    · rw [decide_eq_true hcash] at hcan
      refine ⟨⟨t, events⟩, [], [], ?_, (List.append_nil events).symm, .done t,
        List.forall_mem_nil _, h, .inl hcan⟩
      rw [hcan]
      rfl
    · rw [decide_eq_false hcash] at hcan
      have hshort : ShortOf t p debt.amount := ⟨tl, ho.player, not_le.mp hcash⟩
      have hnext : ∀ {step : GameEngineResult} {x f},
          Liquidates p t step.state x f → Raising p debt s step.state ∧
            raiseCashRounds step.state ≤ rounds := by
        intro step x f hstep
        have hless := hstep.rounds h.liquidable.onBoard
        exact ⟨h.step hstep, by omega⟩
      rw [hcan, ok_bind, if_neg (by decide)]
      cases hbuilding : findBuildingToSell t p with
      | some building =>
        obtain ⟨sold, f, hsold, hstep⟩ :=
          sellBuilding_liquidates h.liquidable h.indebted hbuilding
        obtain ⟨hraising, hless⟩ := hnext hstep
        obtain ⟨r, path, made, hr, hmade, hpath, hall, hend⟩ :=
          ih hraising hless (events ++ sold.events)
        refine ⟨r, t :: path, sold.events ++ made, ?_, hmade.trans (List.append_assoc ..),
          .sold hshort hsold hpath, ?_, hend⟩
        · dsimp only
          rw [hsold, ok_bind]
          exact hr
        · exact List.forall_mem_cons.mpr ⟨h, hall⟩
      | none =>
        cases hmortgage : findPropertyToMortgage t p with
        | some mortgageable =>
          obtain ⟨mortgaged, f, hmortgaged, hstep⟩ :=
            mortgageProperty_liquidates h.liquidable h.indebted hmortgage
          obtain ⟨hraising, hless⟩ := hnext hstep
          obtain ⟨r, path, made, hr, hmade, hpath, hall, hend⟩ :=
            ih hraising hless (events ++ mortgaged.events)
          refine ⟨r, t :: path, mortgaged.events ++ made, ?_, hmade.trans (List.append_assoc ..),
            .mortgaged hshort ?_ hmortgaged hpath, ?_, hend⟩
          · dsimp only
            rw [hmortgaged, ok_bind]
            exact hr
          · intro y hy howner
            obtain ⟨hhotel, hcount⟩ := findBuildingToSell_eq_none hbuilding y hy howner
            simp [GameEngineProperty.hasBuilding, hhotel, hcount]
          · exact List.forall_mem_cons.mpr ⟨h, hall⟩
        | none =>
          exact ⟨⟨t, events⟩, [], [], rfl, (List.append_nil events).symm, .done t,
            List.forall_mem_nil _, h, .inr ⟨hcan, raisable_of_exhausted h.liquidable hbuilding hmortgage⟩⟩

end Loop

/-! ## Paying and going bankrupt -/

section Ends

variable {s : GameEngineState} {p : RoomPlayerId} {pl : GameEnginePlayer} {debt : GameEngineDebt}

theorem PaysDebt.payDebt (h : PaysDebt s p debt pl) :
    Engine.payDebt s p = .ok ⟨debtPaidState s debt, debtPaidEvents debt⟩ := by
  obtain ⟨hphase, hpending, rfl, hplayer, hamount, hcash, hcreditor⟩ := h
  have hdebt : pendingDebt s = some debt := pendingDebt_eq_some.mpr ⟨hphase, hpending⟩
  unfold Engine.payDebt
  refine bind_eq_ok.mpr ⟨debt, orThrow_eq_ok.mpr hdebt, bind_eq_ok.mpr ⟨(), ?_, ?_⟩⟩
  · exact rejectIf_eq_ok.mpr (not_not.mpr rfl)
  · refine bind_eq_ok.mpr ⟨debt.creditorRoomPlayerId.elim
      (s.addCash debt.roomPlayerId (-debt.amount)) fun creditor =>
        (s.addCash debt.roomPlayerId (-debt.amount)).addCash creditor debt.amount, ?_, rfl⟩
    cases hc : debt.creditorRoomPlayerId with
    | none => exact debitPlayer_eq_ok.mpr ⟨hamount, pl, hplayer, hcash, rfl⟩
    | some creditor =>
      exact transferPlayerCash_eq_ok.mpr ⟨hamount, ⟨pl, hplayer, hcash⟩, hcreditor creditor hc, rfl⟩

theorem returnCards_succeeds (keys : List CardKey) (s : GameEngineState) :
    Succeeds (keys.foldlM (fun currentState cardKey =>
      returnGetOutOfJailCardToDeck currentState (some cardKey)) s) := by
  induction keys generalizing s with
  | nil => exact succeeds_ok s
  | cons key keys ih =>
    rw [List.foldlM_cons]
    have hfirst : Succeeds (returnGetOutOfJailCardToDeck s (some key)) := by
      exact succeeds_bind (orThrow_eq_ok.mpr (getDeckKeyForCard_eq key)) (succeeds_pure _)
    exact hfirst.then fun next _ => ih next

theorem calculateNetWorthStandings_succeeds (hb : OnBoard s) :
    Succeeds (calculateNetWorthStandings s) := by
  have hall : Succeeds ((getActivePlayers s).mapM (calculatePlayerNetWorth s)) := by
    apply succeeds_mapM
    intro active hactive
    have hlisted : (s.player? active.roomPlayerId).isSome :=
      (Keyed.find_isSome_iff _).mpr (List.mem_map_of_mem (mem_getActivePlayers.mp hactive).1)
    obtain ⟨worth, hworth, _⟩ := calculatePlayerNetWorth_eq hb hlisted
    exact ⟨worth, hworth⟩
  exact hall.then fun _ _ => succeeds_pure _

/-- What bankruptcy does to the players and the tiles. -/
structure BankruptTo (p : RoomPlayerId) (creditor : Option RoomPlayerId)
    (s s' : GameEngineState) : Prop where
  players : s'.players = (s.updatePlayer p GameEnginePlayer.liquidated).players
  properties : s'.properties = s.properties.map (liquidateProperty p creditor)

theorem liquidateProperty_key (creditor : Option RoomPlayerId) (x : GameEngineProperty) :
    (liquidateProperty p creditor x).tileKey = x.tileKey := by
  unfold liquidateProperty
  split <;> rfl

/-- A player in the game can go bankrupt to another one, or to the bank. -/
theorem declareBankruptcy_goes {given creditor : Option RoomPlayerId} (hp : InProgress s)
    (hpl : s.player? p = some pl) (hactive : pl.bankrupt = false) (hb : OnBoard s)
    (hgiven : given.or ((s.debt.filter fun debt => debt.roomPlayerId = p).bind
      GameEngineDebt.creditorRoomPlayerId) = creditor)
    (hcreditor : ∀ c, creditor = some c → c ≠ p ∧ IsActive s c) :
    ∃ r, declareBankruptcy s p given = .ok r ∧ BankruptTo p creditor s r.state := by
  obtain ⟨returned, hreturned⟩ := returnCards_succeeds (heldCardKeys pl) s
  obtain ⟨decks, rfl⟩ := foldlM_return_decks hreturned
  have hfound : findPlayer s p = .ok pl := findPlayer_eq_ok.mpr hpl
  have hliquidate : liquidatePlayerAssets s p creditor =
      .ok (liquidatedState s p creditor decks) := by
    unfold liquidatePlayerAssets
    rw [hfound, ok_bind, hreturned, ok_bind]
    rfl
  have hvalid : creditor.forM (assertValidCreditor s p) = .ok () := by
    cases creditor with
    | none => rfl
    | some c =>
      obtain ⟨hne, cl, hcl, hsolvent⟩ := hcreditor c rfl
      refine bind_eq_ok.mpr ⟨cl, findPlayer_eq_ok.mpr hcl, bind_eq_ok.mpr ⟨(), ?_, ?_⟩⟩
      · exact rejectIf_eq_ok.mpr (by simp [hsolvent])
      · rw [GameEngineState.player?_id hcl]
        exact rejectIf_eq_ok.mpr hne
  have hgoes : assertGameActive s = .ok () := assertGameActive_eq_ok.mpr hp
  have hsolvent : rejectIf (pl.bankrupt = true) .playerAlreadyBankrupt
      "Player is already bankrupt" = .ok () := rejectIf_eq_ok.mpr (by simp [hactive])
  have honBoard : OnBoard (liquidatedState s p creditor decks) :=
    OnBoard.map hb (liquidateProperty_key creditor) rfl
  obtain ⟨standings, hstandings⟩ := calculateNetWorthStandings_succeeds honBoard
  unfold declareBankruptcy
  rw [hgoes, ok_bind, hfound, ok_bind, hsolvent, ok_bind, hgiven]
  dsimp only
  rw [hvalid, ok_bind, hliquidate, ok_bind]
  split
  · rw [hstandings, ok_bind]
    exact ⟨_, rfl, rfl, rfl⟩
  · rename_i hgoesOn
    split
    · exact ⟨_, rfl, rfl, rfl⟩
    · have hnext : Succeeds (findNextActivePlayerAfterBankruptcy
          (liquidatedState s p creditor decks) pl) := by
        unfold findNextActivePlayerAfterBankruptcy
        generalize getActivePlayers (liquidatedState s p creditor decks) = left at hgoesOn
        cases left with
        | nil => exact absurd (.inl (by decide)) hgoesOn
        | cons first rest =>
          dsimp only
          cases (first :: rest).find? fun player => pl.seatNumber < player.seatNumber with
          | none => exact ⟨first, rfl⟩
          | some next => exact ⟨next, rfl⟩
      obtain ⟨next, hnext⟩ := hnext
      rw [hnext, ok_bind]
      exact ⟨_, rfl, rfl, rfl⟩

theorem declareBankruptcy_succeeds (hi : Indebted s p debt) (hb : OnBoard s)
    (hcreditor : ∀ c, debt.creditorRoomPlayerId = some c → c ≠ p ∧ IsActive s c) :
    ∃ r, declareBankruptcy s p debt.creditorRoomPlayerId = .ok r ∧
      BankruptTo p debt.creditorRoomPlayerId s r.state := by
  obtain ⟨pl, ho⟩ := hi.turn
  have hp : InProgress s := by
    rw [InProgress, hi.phase]
    exact ⟨by decide, by decide⟩
  have hgiven : debt.creditorRoomPlayerId.or
      ((s.debt.filter fun debt => debt.roomPlayerId = p).bind
        GameEngineDebt.creditorRoomPlayerId) = debt.creditorRoomPlayerId := by
    rw [hi.pending]
    simp [Option.filter, hi.debtor]
  exact declareBankruptcy_goes hp ho.player ho.active hb hgiven hcreditor

/-- What happens to the debt of `p`: the cash is raised, tile by tile, and the debt is paid from it,
or `p` goes bankrupt. -/
theorem autoResolveDebt_settles (hi : Indebted s p debt) (hs : Liquidable s) {pl : GameEnginePlayer}
    (hpl : s.player? p = some pl) (hamount : 0 ≤ debt.amount)
    (hcreditor : ∀ c, debt.creditorRoomPlayerId = some c → c ≠ p ∧ IsActive s c) :
    ∃ raised path made worth settled r,
      RaisesCash p debt.amount s path made raised ∧
      (∀ t ∈ path ++ [raised], worthOf t p = .ok worth) ∧ worthOf s p = .ok worth ∧
      autoResolveDebt s p = .ok r ∧ r.state = settled.state ∧ r.events = made ++ settled.events ∧
      (if debt.amount ≤ pl.cash + raisable s p then payDebt raised p = .ok settled
      else
        declareBankruptcy raised p debt.creditorRoomPlayerId = .ok settled ∧
          BankruptTo p debt.creditorRoomPlayerId raised settled.state) := by
  have hdebtor := hi.debtor
  subst hdebtor
  obtain ⟨raised, path, made, hraise, hmade, hpath, hall, hraising, hend⟩ :=
    raiseCash_raises (.refl hs hi) (le_refl _) []
  rw [List.nil_append] at hmade
  obtain ⟨rl, ho⟩ := hraising.indebted.turn
  have htotal := hraising.total pl rl hpl ho.player
  have hcan := canPayDebt_eq hraising.indebted ho.player
  have hguard : rejectIf ((pendingDebt s).map GameEngineDebt.roomPlayerId ≠
      some debt.roomPlayerId) .debtResolutionRequired
      "Only the indebted player can automatically resolve this debt" = .ok () := by
    refine rejectIf_eq_ok.mpr (not_not.mpr ?_)
    rw [pendingDebt_eq_some.mpr ⟨hi.phase, hi.pending⟩]
    rfl
  have hnonneg := raisable_nonneg hraising.liquidable debt.roomPlayerId
  have hworth := worthOf_eq hs.onBoard hpl
  have hworths : ∀ t ∈ path ++ [raised.state], worthOf t debt.roomPlayerId =
      .ok (pl.cash + assets s debt.roomPlayerId) := by
    intro t ht
    rcases List.mem_append.mp ht with ht | ht
    · exact (hall t ht).worth.trans hworth
    · rw [List.mem_singleton.mp ht]
      exact hraising.worth.trans hworth
  by_cases hcash : debt.amount ≤ rl.cash
  · rw [decide_eq_true hcash] at hcan
    have hpays : PaysDebt raised.state debt.roomPlayerId debt rl := {
      phase := hraising.indebted.phase
      pending := hraising.indebted.pending
      debtor := rfl
      player := ho.player
      amount := hamount
      cash := hcash
      creditor := fun c hc => by
        obtain ⟨cl, hcl, _⟩ := hraising.active c (hcreditor c hc).2
        exact ⟨cl, hcl⟩ }
    have hpaid := hpays.payDebt
    refine ⟨raised.state, path, made, _, ⟨debtPaidState raised.state debt, debtPaidEvents debt⟩, _,
      hpath, hworths, hworth, bind_eq_ok.mpr ⟨(), hguard, bind_eq_ok.mpr ⟨raised, hraise, bind_eq_ok.mpr
        ⟨true, hcan, bind_eq_ok.mpr ⟨_, hpaid, rfl⟩⟩⟩⟩, rfl, by rw [hmade], ?_⟩
    rw [if_pos (by omega)]
    exact hpaid
  · rw [decide_eq_false hcash] at hcan
    have hnothing : raisable raised.state debt.roomPlayerId = 0 := by
      rcases hend with hpay | ⟨_, hnothing⟩
      · cases hpay.symm.trans hcan
      · exact hnothing
    obtain ⟨settled, hsettled, hbankrupt⟩ := declareBankruptcy_succeeds hraising.indebted
      hraising.liquidable.onBoard fun c hc =>
        ⟨(hcreditor c hc).1, hraising.active c (hcreditor c hc).2⟩
    have hgiven : raised.state.debt.bind GameEngineDebt.creditorRoomPlayerId =
        debt.creditorRoomPlayerId := by
      rw [hraising.indebted.pending]
      rfl
    refine ⟨raised.state, path, made, _, settled, _, hpath, hworths, hworth,
      bind_eq_ok.mpr ⟨(), hguard, bind_eq_ok.mpr ⟨raised, hraise, bind_eq_ok.mpr
        ⟨false, hcan, bind_eq_ok.mpr ⟨settled, ?_, rfl⟩⟩⟩⟩, rfl, by rw [hmade], ?_⟩
    · rw [if_neg (by decide), hgiven]
      exact hsettled
    · rw [if_neg (by omega)]
      exact ⟨hsettled, hbankrupt⟩

theorem PhaseCoherent.indebted (h : PhaseCoherent s) (hphase : s.phase = .awaitingDebtResolution) :
    ∃ debt pl, Indebted s debt.roomPlayerId debt ∧ s.player? debt.roomPlayerId = some pl ∧
      0 < debt.amount ∧ ∀ c, debt.creditorRoomPlayerId = some c → c ≠ debt.roomPlayerId := by
  obtain ⟨debt, hdebt⟩ := Option.isSome_iff_exists.mp (h.debt.mpr hphase)
  obtain ⟨hdebtor, hamount, hother⟩ := h.debtor debt hdebt
  obtain ⟨pl, hpl, hactive⟩ := h.current
  rw [← hdebtor] at hpl
  exact ⟨debt, pl, ⟨hphase, hdebt, rfl, pl, hpl, hactive, hdebtor.symm⟩, hpl, hamount,
    fun c hc => (hother c hc).1⟩

/-- The timer pays the debt exactly when the cash, half the cost of the buildings and the mortgage
values of the other tiles suffice; otherwise the debtor goes bankrupt to the creditor. Until then
nothing changes in its worth. -/
theorem autoResolveDebt_exact (hphase : s.phase = .awaitingDebtResolution)
    (hcoherent : PhaseCoherent s) (hset : SetIntegrity s) (ht : TilesOk s)
    (hcreditor : ∀ debt c, s.debt = some debt → debt.creditorRoomPlayerId = some c →
      IsActive s c) :
    ∃ debt pl raised path made worth settled r,
      s.debt = some debt ∧ s.player? debt.roomPlayerId = some pl ∧
      RaisesCash debt.roomPlayerId debt.amount s path made raised ∧
      (∀ t ∈ path ++ [raised], worthOf t debt.roomPlayerId = .ok worth) ∧
      worthOf s debt.roomPlayerId = .ok worth ∧
      autoResolveDebt s debt.roomPlayerId = .ok r ∧ r.state = settled.state ∧
      r.events = made ++ settled.events ∧
      (if debt.amount ≤ pl.cash + raisable s debt.roomPlayerId then
        payDebt raised debt.roomPlayerId = .ok settled
      else
        declareBankruptcy raised debt.roomPlayerId debt.creditorRoomPlayerId = .ok settled ∧
          BankruptTo debt.roomPlayerId debt.creditorRoomPlayerId raised settled.state) := by
  obtain ⟨debt, pl, hi, hpl, hamount, hother⟩ := hcoherent.indebted hphase
  obtain ⟨raised, path, made, worth, settled, r, hsettles⟩ :=
    autoResolveDebt_settles hi (liquidable ht hset) hpl hamount.le fun c hc =>
      ⟨hother c hc, hcreditor debt c hi.pending hc⟩
  exact ⟨debt, pl, raised, path, made, worth, settled, r, hi.pending, hpl, hsettles⟩

theorem setIntegrity_of_bare (h : ∀ x ∈ s.properties, x.hasBuilding = false) :
    SetIntegrity s := by
  have hnone : ∀ setKey, ¬ CarriesBuilding s setKey := by
    rintro setKey ⟨tile, _, x, hx, hbuilding⟩
    rw [h x (Keyed.find_mem _ hx)] at hbuilding
    cases hbuilding
  exact ⟨fun setKey hcarries => absurd hcarries (hnone setKey),
    fun setKey hcarries => absurd hcarries (hnone setKey)⟩

/-- One player owns the only set with buildings, and they stand on it evenly. -/
theorem setIntegrity_of_one (p : RoomPlayerId) (setKey : PropertySetKey) (low : Int)
    (hset : ∀ tile ∈ s.board.setTiles setKey, ∃ x, s.property? tile.key = some x ∧
      x.ownerRoomPlayerId = some p ∧ low ≤ x.level ∧ x.level ≤ low + 1)
    (hbare : ∀ other, CarriesBuilding s other → other = setKey) : SetIntegrity s := by
  constructor
  · intro other hcarries
    rw [hbare other hcarries]
    refine ⟨p, fun tile htile => ?_⟩
    obtain ⟨x, hx, howner, _⟩ := hset tile htile
    exact ⟨x, hx, howner, trivial⟩
  · intro other hcarries
    rw [hbare other hcarries]
    intro tile htile tile' htile' x x' hx hx'
    obtain ⟨y, hy, _, _, hhigh⟩ := hset tile htile
    obtain ⟨y', hy', _, hlow, _⟩ := hset tile' htile'
    cases hx.symm.trans hy
    cases hx'.symm.trans hy'
    omega

/-- The first player has a house and has given its cash away; a company is paid for the visit. -/
def houseForRent : List GameEngineIntent :=
  lightBlueHouse ++ [.proposeTrade ⟨⟨1⟩, ⟨3⟩, .int 1325, .int 1, [], [], none⟩,
    .acceptTrade ⟨3⟩ "trade", .endTurn ⟨1⟩,
    .rollAndMove ⟨2⟩ [.int 1, .int 2], .buyProperty ⟨2⟩, .endTurn ⟨2⟩,
    .rollAndMove ⟨3⟩ [.int 1, .int 2], .buyProperty ⟨3⟩, .endTurn ⟨3⟩,
    .rollAndMove ⟨1⟩ [.int 1, .int 1]]

/-- Only the light blue tiles carry buildings, evenly, and the first player owns them. -/
def lightBlueAlone (s : GameEngineState) : Bool :=
  (s.board.setTiles .lightBlue).all (fun tile => (s.property? tile.key).any fun x =>
    x.ownerRoomPlayerId = some ⟨1⟩ ∧ 0 ≤ x.level ∧ x.level ≤ 0 + 1) &&
  ([.brown, .pink, .orange, .red, .yellow, .green, .darkBlue] : List PropertySetKey).all fun other =>
    (s.board.setTiles other).all fun tile =>
      !(s.property? tile.key).any GameEngineProperty.hasBuilding

theorem lightBlueAlone_setIntegrity (h : lightBlueAlone s = true) : SetIntegrity s := by
  obtain ⟨hone, hbare⟩ := Bool.and_eq_true_iff.mp h
  refine setIntegrity_of_one ⟨1⟩ .lightBlue 0 ?_ ?_
  · intro tile htile
    obtain ⟨x, hx, htest⟩ := (Option.any_eq_true _ _).mp (List.all_eq_true.mp hone tile htile)
    exact ⟨x, hx, of_decide_eq_true htest⟩
  · rintro other ⟨tile, htile, x, hx, hbuilding⟩
    by_contra hother
    have hmem : other ∈ ([.brown, .pink, .orange, .red, .yellow, .green, .darkBlue] :
        List PropertySetKey) := by
      cases other with
      | lightBlue => exact absurd rfl hother
      | _ => decide
    have hnone := List.all_eq_true.mp (List.all_eq_true.mp hbare other hmem) tile htile
    rw [hx, Option.any_some, hbuilding] at hnone
    cases hnone

/-- The first player has six, owes eight and sells its house. -/
theorem threePlayers_sellsHouse : ∃ s debt raised settled r, Reachable threePlayers s ∧
    s.debt = some debt ∧ debt.roomPlayerId = ⟨1⟩ ∧ ShortOf s ⟨1⟩ debt.amount ∧
    (s.property? .southAfrica).map GameEngineProperty.hasBuilding = some true ∧
    payDebt raised ⟨1⟩ = .ok settled ∧ autoResolveDebt s ⟨1⟩ = .ok r ∧
    r.state = settled.state ∧
    (r.state.property? .southAfrica).map GameEngineProperty.hasBuilding = some false := by
  obtain ⟨before, hbefore, htest⟩ := exists_ok_of_any (by decide +kernel :
    (playThree houseForRent).toOption.any
      (fun before => before.state.phase = .awaitingDebtResolution ∧
        (before.state.players.all fun pl => !pl.bankrupt) ∧
        lightBlueAlone before.state = true ∧
        (before.state.property? .southAfrica).map GameEngineProperty.hasBuilding = some true ∧
        (autoResolveDebt before.state ⟨1⟩).toOption.any (fun r =>
          (r.state.property? .southAfrica).map GameEngineProperty.hasBuilding = some false) ∧
        before.state.debt.any fun debt => debt.roomPlayerId = ⟨1⟩ ∧
          (before.state.player? ⟨1⟩).any fun pl => pl.cash < debt.amount ∧
            debt.amount ≤ pl.cash + raisable before.state ⟨1⟩) = true)
  obtain ⟨hphase, hnobody, halone, hhouse, hsold, hdebt⟩ := of_decide_eq_true htest
  obtain ⟨debt, hdebt, hdebtTest⟩ := (Option.any_eq_true _ _).mp hdebt
  obtain ⟨hdebtor, hplayer⟩ := of_decide_eq_true hdebtTest
  obtain ⟨pl, hpl, hcashTest⟩ := (Option.any_eq_true _ _).mp hplayer
  obtain ⟨hshort, hcash⟩ := of_decide_eq_true hcashTest
  obtain ⟨resolved, hresolved', hbareAfter⟩ := exists_ok_of_any hsold
  have hreach : Reachable threePlayers before.state := playRoom_reachable hbefore
  have hv : Valid before.state := reachable_valid threePlayers_valid hreach
  have hp : InProgress before.state := by
    rw [inProgress_iff, hphase]
    rfl
  have hcreditor : ∀ debt c, before.state.debt = some debt →
      debt.creditorRoomPlayerId = some c → IsActive before.state c := by
    intro debt c hdebt hc
    obtain ⟨_, cl, hcl⟩ := (hv.phase.debtOk debt hdebt).creditor c hc
    exact ⟨cl, hcl, by simpa using List.all_eq_true.mp hnobody cl (GameEngineState.player?_mem hcl)⟩
  obtain ⟨debt', pl', raised, _, _, _, settled, r, hdebt', hpl', _, _, _, hresolved, hstate, _,
    hend⟩ := autoResolveDebt_exact hphase (hv.phaseCoherent hp)
    (lightBlueAlone_setIntegrity halone) hv.tiles hcreditor
  cases hdebt.symm.trans hdebt'
  rw [hdebtor] at hpl' hresolved hend
  cases hpl.symm.trans hpl'
  rw [if_pos hcash] at hend
  cases hresolved'.symm.trans hresolved
  exact ⟨before.state, debt, raised, settled, _, hreach, hdebt, hdebtor, ⟨pl, hpl, hshort⟩, hhouse,
    hend, hresolved, hstate, of_decide_eq_true hbareAfter⟩

end Ends

end Rules
end LivePoly
