import LivePoly.Rules.Players

/-!
# Rules.Tiles

Actions keep the records of the tiles in order. An action rewrites no record, one of them, those
of a trade or those of a bankrupt player.
-/

namespace LivePoly
namespace Rules

open Engine Checked

section Updates

variable {s s' : GameEngineState}

theorem TileOk.mono {x : GameEngineProperty} (h : TileOk s x)
    (hactive : ∀ q, IsActive s q → IsActive s' q) : TileOk s' x where
  owner := fun q hq => hactive q (h.owner q hq)
  unowned := h.unowned
  houses := h.houses
  hotel := h.hotel
  street := by
    simpa only [GameEngineState.board_eq] using h.street

theorem TilesOk.same (h : TilesOk s) (hs : s'.properties = s.properties)
    (hactive : ∀ q, IsActive s q → IsActive s' q) : TilesOk s' where
  keys := by
    rw [hs, h.keys, GameEngineState.board_eq, GameEngineState.board_eq]
  tile := by
    rw [hs]
    exact fun x hx => (h.tile x hx).mono hactive
  clear := by
    have hfind : ∀ key, s'.property? key = s.property? key := fun key => by
      unfold GameEngineState.property?
      rw [hs]
    simp only [hfind]
    simpa only [GameEngineState.board_eq] using h.clear

theorem TilesOk.map (h : TilesOk s) {g : GameEngineProperty → GameEngineProperty}
    (hkey : ∀ x, (g x).tileKey = x.tileKey) (hs : s'.properties = s.properties.map g)
    (htile : ∀ x ∈ s.properties, TileOk s' (g x))
    (hbuilding : ∀ x, (g x).hasBuilding = true → x.hasBuilding = true)
    (hmortgage : ∀ x, (g x).mortgaged = true → x.mortgaged = true) : TilesOk s' where
  keys := by
    rw [hs, List.map_map, GameEngineState.board_eq, ← s.board_eq, ← h.keys]
    apply List.map_congr_left
    intro x _
    exact hkey x
  tile := by
    rw [hs, List.forall_mem_map]
    exact htile
  clear := by
    have hfind : ∀ key, s'.property? key = (s.property? key).map g := fun key => by
      unfold GameEngineState.property?
      rw [hs, Keyed.find_map _ hkey]
    intro tile tile' htile htile' hset x x' hx hx' hb
    rw [hfind] at hx hx'
    obtain ⟨y, hy, rfl⟩ := Option.map_eq_some_iff.mp hx
    obtain ⟨y', hy', rfl⟩ := Option.map_eq_some_iff.mp hx'
    simp only [GameEngineState.board_eq] at htile htile'
    have hclear := h.clear tile tile' (by simpa using htile) (by simpa using htile') hset y y' hy
      hy' (hbuilding y hb)
    by_contra hm
    rw [hmortgage y' (by simpa using hm)] at hclear
    cases hclear

/-- The tiles of the set of `key` satisfy `P`. -/
def SetSatisfies (s : GameEngineState) (key : TileKey) (P : GameEngineProperty → Prop) : Prop :=
  ∀ tile tile' : PropertyTile, .property tile ∈ s.board.tiles → .property tile' ∈ s.board.tiles →
    tile.key = key → tile.setKey = tile'.setKey →
    ∀ x, s.property? tile'.key = some x → P x

/-- The tiles are in order when one of them changed, is built on only in a set without mortgages
and is mortgaged only in a set without buildings. -/
theorem TilesOk.update (h : TilesOk s) (hactive : ∀ q, IsActive s q → IsActive s' q)
    {key : TileKey} {x : GameEngineProperty} (hx : s.property? key = some x)
    {f : GameEngineProperty → GameEngineProperty}
    (hs : s'.properties = Keyed.modify GameEngineProperty.tileKey s.properties key f)
    (hkey : ∀ x, (f x).tileKey = x.tileKey) (htile : TileOk s' (f x))
    (hbuilding : (f x).hasBuilding = true →
      x.hasBuilding = true ∨ SetSatisfies s key fun x => x.mortgaged = false)
    (hmortgage : (f x).mortgaged = true → x.mortgaged = true ∨
      SetSatisfies s key (fun x => x.hasBuilding = false) ∧ (f x).hasBuilding = false) :
    TilesOk s' where
  keys := by
    rw [hs, Keyed.map_modify _ hkey, GameEngineState.board_eq, ← s.board_eq, h.keys]
  tile := by
    rw [hs]
    exact Keyed.forall_mem_modify _ h.keys_nodup hx (fun y hy => (h.tile y hy).mono hactive) htile
  clear := by
    have hfind : ∀ k, s'.property? k =
        if k = key then (s.property? k).map f else s.property? k := fun k => by
      unfold GameEngineState.property?
      rw [hs, Keyed.find_modify _ hkey]
    have hself : s'.property? key = some (f x) := by rw [hfind, if_pos rfl, hx]; rfl
    have hother : ∀ {k y}, k ≠ key → s'.property? k = some y → s.property? k = some y := by
      intro k y hk hy
      rwa [hfind, if_neg hk] at hy
    intro tile tile' ht ht' hset y y' hy hy' hb
    rw [GameEngineState.board_eq, ← s.board_eq] at ht ht'
    by_cases hk : tile.key = key
    · rw [hk, hself] at hy
      cases hy
      by_cases hk' : tile'.key = key
      · rw [hk', hself] at hy'
        cases hy'
        by_contra hm
        rcases hmortgage (by simpa using hm) with hxm | ⟨_, hbare⟩
        · have hxfree : x.mortgaged = false := by
            rcases hbuilding hb with hxb | hclear
            · exact h.clear tile tile ht ht rfl x x (hk ▸ hx) (hk ▸ hx) hxb
            · exact hclear tile tile ht ht hk rfl x (hk ▸ hx)
          rw [hxm] at hxfree
          cases hxfree
        · rw [hbare] at hb
          cases hb
      · rcases hbuilding hb with hxb | hclear
        · exact h.clear tile tile' ht ht' hset x y' (hk ▸ hx) (hother hk' hy') hxb
        · exact hclear tile tile' ht ht' hk hset y' (hother hk' hy')
    · have hy := hother hk hy
      by_cases hk' : tile'.key = key
      · rw [hk', hself] at hy'
        cases hy'
        by_contra hm
        rcases hmortgage (by simpa using hm) with hxm | ⟨hbare, _⟩
        · have hxfree := h.clear tile tile' ht ht' hset y x hy (hk' ▸ hx) hb
          rw [hxm] at hxfree
          cases hxfree
        · rw [hbare tile' tile ht' ht hk' hset.symm y hy] at hb
          cases hb
      · exact h.clear tile tile' ht ht' hset y y' hy (hother hk' hy') hb

end Updates

/-! ## The actions -/

section Actions

variable {c : Condition} {s s' : GameEngineState} {p : RoomPlayerId} {pl : GameEnginePlayer}
  {events : List GameEngineEvent}

theorem SamePlayers.active (h : SamePlayers s s') (hv : Valid s) (q : RoomPlayerId)
    (hq : IsActive s q) : IsActive s' q :=
  (h.isActive hv.players.ids).mpr hq

theorem Turn.properties (h : Turn p pl s events s') : s'.properties = s.properties := by
  cases h with
  | moved =>
    rename_i dice suppressDoubles tile _ _ _
    obtain ⟨count, again, hdoubles⟩ := doublesState_eq s dice suppressDoubles
    unfold movedState
    rw [hdoubles]
    rfl
  | _ => rfl

theorem Landing.properties (h : Landing p pl s events s') : s'.properties = s.properties := by
  cases h with
  | cardMoved =>
    unfold cardMovedState
    dsimp only
    split <;> rfl
  | _ => rfl

theorem TilesOk.acquire (hv : Valid s) (hsame : SamePlayers s s') {key : TileKey}
    {x : GameEngineProperty} (hx : s.property? key = some x) {owner : Option RoomPlayerId}
    (hfree : x.ownerRoomPlayerId = none) (howner : ∀ q, owner = some q → IsActive s q)
    (hs : s'.properties = Keyed.modify GameEngineProperty.tileKey s.properties key fun x =>
      { x with ownerRoomPlayerId := owner }) : TilesOk s' := by
  have hok := (hv.tileOk hx).mono (hsame.active hv)
  refine hv.tiles.update (hsame.active hv) hx hs (fun _ => rfl) ?_ .inl .inl
  exact {
    owner := fun q hq => hsame.active hv q (howner q hq)
    unowned := fun _ => hok.unowned hfree
    houses := hok.houses
    hotel := hok.hotel
    street := hok.street }

theorem setSatisfies_of_setOwned {tile : PropertyTile} {key : TileKey}
    {P Q : GameEngineProperty → Prop} (hkey : key = tile.key)
    (htile : .property tile ∈ s.board.tiles) (hset : SetOwned s p tile.setKey P)
    (hPQ : ∀ x, P x → Q x) : SetSatisfies s key Q := by
  intro first second hfirst hsecond hk hsets x hx
  -- the board lists one tile under the key
  have hsame : GameTile.property first = .property tile := by
    rw [GameEngineState.board_eq] at hfirst htile
    exact List.inj_on_of_nodup_map board_keys_nodup hfirst htile (hk.trans hkey)
  cases hsame
  obtain ⟨y, hy, _, hP⟩ := hset second (hsets ▸ mem_setTiles.mpr hsecond)
  rw [hx] at hy
  cases hy
  exact hPQ x hP

theorem Estate.tilesOk (hv : Valid s) (ho : OnTurn s p pl) (h : Estate p pl s events s') :
    TilesOk s' := by
  have hsame : SamePlayers s s' := (h.players hv ho).same
  have hactive := hsame.active hv
  have hp : IsActive s p := ⟨pl, ho.player, ho.active⟩
  cases h with
  | bought hphase hpending htile hproperty hfree h0 hcash =>
    exact .acquire hv hsame hproperty hfree (fun q hq => by cases hq; exact hp) rfl
  | @houseBuilt tile property hphase htile hproperty hhotel hcount hset h0 hcash =>
    have hok := (hv.tileOk hproperty).mono hactive
    have hkey := GameEngineState.property?_key hproperty
    have howned : property.ownerRoomPlayerId = some p := by
      obtain ⟨y, hy, howner, _⟩ := hset tile (mem_setTiles.mpr htile)
      rw [hproperty] at hy
      cases hy
      exact howner
    refine hv.tiles.update hactive hproperty rfl (fun _ => rfl) ?_
      (fun _ => .inr (setSatisfies_of_setOwned rfl htile hset fun x hx => hx.1)) .inl
    exact {
      owner := hok.owner
      unowned := fun hnone => by rw [howned] at hnone; cases hnone
      houses := ⟨by have := hok.houses.1; dsimp only; omega, by dsimp only; omega⟩
      hotel := fun hh => by rw [hhotel] at hh; cases hh
      street := fun _ => ⟨tile, htile, hkey.symm⟩ }
  | @hotelBuilt tile property hphase htile hproperty hhotel hcount hset h0 hcash =>
    have hok := (hv.tileOk hproperty).mono hactive
    have hkey := GameEngineState.property?_key hproperty
    have howned : property.ownerRoomPlayerId = some p := by
      obtain ⟨y, hy, howner, _⟩ := hset tile (mem_setTiles.mpr htile)
      rw [hproperty] at hy
      cases hy
      exact howner
    refine hv.tiles.update hactive hproperty rfl (fun _ => rfl) ?_
      (fun _ => .inr (setSatisfies_of_setOwned rfl htile hset fun x hx => hx.1)) .inl
    exact {
      owner := hok.owner
      unowned := fun hnone => by rw [howned] at hnone; cases hnone
      houses := ⟨le_refl _, (by decide : (0 : Int) ≤ 4)⟩
      hotel := fun _ => rfl
      street := fun _ => ⟨tile, htile, hkey.symm⟩ }
  | @hotelSold tile property hphase htile hproperty hhotel hset h0 =>
    have hok := (hv.tileOk hproperty).mono hactive
    have hbuilt : property.hasBuilding = true := by simp [GameEngineProperty.hasBuilding, hhotel]
    refine hv.tiles.update hactive hproperty rfl (fun _ => rfl) ?_ (fun _ => .inl hbuilt) .inl
    exact {
      owner := hok.owner
      unowned := fun hnone => by
        rw [(hok.unowned hnone).1] at hbuilt
        cases hbuilt
      houses := ⟨(by decide : (0 : Int) ≤ 4), le_refl _⟩
      hotel := fun hh => by cases hh
      street := fun _ => hok.street hbuilt }
  | @houseSold tile property hphase htile hproperty hhotel hcount hset h0 =>
    have hok := (hv.tileOk hproperty).mono hactive
    have hpos : 0 < property.houseCount := by
      have := hok.houses.1
      omega
    have hbuilt : property.hasBuilding = true := by simp [GameEngineProperty.hasBuilding, hpos]
    refine hv.tiles.update hactive hproperty rfl (fun _ => rfl) ?_ (fun _ => .inl hbuilt) .inl
    exact {
      owner := hok.owner
      unowned := fun hnone => by
        rw [(hok.unowned hnone).1] at hbuilt
        cases hbuilt
      houses := ⟨by dsimp only; omega, by have := hok.houses.2; dsimp only; omega⟩
      hotel := fun hh => by rw [hhotel] at hh; cases hh
      street := fun _ => hok.street hbuilt }
  | @mortgaged tile property hphase htile hproperty howner hfree hset h0 =>
    have hok := (hv.tileOk hproperty).mono hactive
    have hkey := GameEngineState.property?_key hproperty
    have hbare : SetSatisfies s tile.key fun x => x.hasBuilding = false := by
      intro first second hfirst hsecond hk hsets x hx
      have hstreet : tile = .property first := by
        obtain ⟨found, hfound, hown⟩ := Option.bind_eq_some_iff.mp htile
        have hmem : found ∈ classicGameBoard.tiles := by
          rw [← s.board_eq]
          exact Keyed.find_mem _ hfound
        have hfoundKey : found.key = tile.key := (ownable?_key hown).symm
        rw [GameEngineState.board_eq] at hfirst
        have hsame : GameTile.property first = found :=
          List.inj_on_of_nodup_map board_keys_nodup hfirst hmem (hk.trans hfoundKey.symm)
        subst hsame
        exact (Option.some.inj hown).symm
      obtain ⟨y, hy, hb⟩ := hset first hstreet second (hsets ▸ mem_setTiles.mpr hsecond)
      rw [hx] at hy
      cases hy
      exact hb
    have hplain : property.hasBuilding = false := by
      by_contra hb
      obtain ⟨street, hstreet, hstreetKey⟩ := hok.street (by simpa using hb)
      rw [GameEngineState.board_eq, ← s.board_eq] at hstreet
      refine hb (hbare street street hstreet hstreet (hstreetKey.trans hkey) rfl property ?_)
      rw [hstreetKey.trans hkey]
      exact hproperty
    refine hv.tiles.update hactive hproperty rfl (fun _ => rfl) ?_ .inl
      (fun _ => .inr ⟨hbare, hplain⟩)
    exact {
      owner := hok.owner
      unowned := fun hnone => by rw [howner] at hnone; cases hnone
      houses := hok.houses
      hotel := hok.hotel
      street := hok.street }
  | @unmortgaged tile property hphase htile hproperty howner hmortgaged h0 hcash =>
    have hok := (hv.tileOk hproperty).mono hactive
    refine hv.tiles.update hactive hproperty rfl (fun _ => rfl) ?_ .inl (fun hm => by cases hm)
    exact {
      owner := hok.owner
      unowned := fun hnone => by rw [howner] at hnone; cases hnone
      houses := hok.houses
      hotel := hok.hotel
      street := hok.street }

theorem Bidding.tilesOk (hv : Valid s) {condition : GameEngineState → RoomPlayerId → Prop}
    (h : Bidding condition p s events s') : TilesOk s' := by
  have hsame : SamePlayers s s' := (h.players hv).same
  cases h with
  | declined | bid | passed => exact hv.tiles.same rfl (hsame.active hv)
  | bidWon hact hmin hbidder hcash =>
    obtain ⟨tile, property, _, hproperty, hfree⟩ := (hv.phase.auctionOk _ hact.running).free
    have hactive := bidder_active hv hact hmin hbidder hcash
    exact .acquire hv hsame hproperty hfree
      (fun q hq => by cases hq; exact ⟨_, hbidder, hactive⟩) rfl
  | passedWon hact hleader hbidder hcash =>
    obtain ⟨tile, property, _, hproperty, hfree⟩ := (hv.phase.auctionOk _ hact.running).free
    have hactive := leader_active hv hact.running hleader hbidder hcash
    exact .acquire hv hsame hproperty hfree
      (fun q hq => by cases hq; exact ⟨_, hbidder, hactive⟩) rfl
  | passedUnsold hact =>
    obtain ⟨tile, property, _, hproperty, hfree⟩ := (hv.phase.auctionOk _ hact.running).free
    exact .acquire hv hsame hproperty hfree (fun q hq => by cases hq) rfl

/-! ## Trades -/

theorem soldTile_cases (board : GameBoard) (x : GameEngineProperty) :
    soldTile board x = x ∨ soldTile board x = { x with houseCount := 0, hasHotel := false } := by
  unfold soldTile
  split
  · exact .inl rfl
  · exact .inr rfl

theorem exchangedTile_cases (board : GameBoard) (trade : GameEngineTradeOffer)
    (x : GameEngineProperty) :
    (exchangedTile board trade x = x ∧ x.tileKey ∉ trade.offeredPropertyKeys ∧
        x.tileKey ∉ trade.requestedPropertyKeys) ∨
      ∃ q, (q = trade.fromRoomPlayerId ∧ x.tileKey ∈ trade.requestedPropertyKeys ∨
          q = trade.toRoomPlayerId ∧ x.tileKey ∈ trade.offeredPropertyKeys) ∧
        exchangedTile board trade x = { soldTile board x with ownerRoomPlayerId := some q } := by
  unfold exchangedTile tradedTile termsOf
  have hkey := soldTile_key board x
  by_cases hr : x.tileKey ∈ trade.requestedPropertyKeys
  · exact .inr ⟨trade.fromRoomPlayerId, .inl ⟨rfl, hr⟩, by simp [hr, hkey]⟩
  · by_cases ho : x.tileKey ∈ trade.offeredPropertyKeys
    · exact .inr ⟨trade.toRoomPlayerId, .inr ⟨rfl, ho⟩, by simp [hr, ho, hkey]⟩
    · exact .inl ⟨by simp [hr, ho], ho, hr⟩

theorem exchangedTile_key (board : GameBoard) (trade : GameEngineTradeOffer)
    (x : GameEngineProperty) : (exchangedTile board trade x).tileKey = x.tileKey := by
  rcases exchangedTile_cases board trade x with ⟨h, _⟩ | ⟨q, _, h⟩
  · rw [h]
  · rw [h]
    exact soldTile_key board x

theorem soldTile_hasBuilding (board : GameBoard) (x : GameEngineProperty)
    (h : (soldTile board x).hasBuilding = true) : x.hasBuilding = true := by
  rcases soldTile_cases board x with hx | hx
  · rwa [hx] at h
  · rw [hx] at h
    cases h

theorem soldTile_mortgaged (board : GameBoard) (x : GameEngineProperty) :
    (soldTile board x).mortgaged = x.mortgaged := by
  rcases soldTile_cases board x with hx | hx <;> rw [hx]

theorem TileOk.sold {x : GameEngineProperty} (h : TileOk s x) (board : GameBoard) :
    TileOk s (soldTile board x) := by
  rcases soldTile_cases board x with hx | hx
  · rwa [hx]
  · rw [hx]
    exact {
      owner := h.owner
      unowned := fun hnone => ⟨rfl, (h.unowned hnone).2⟩
      houses := ⟨le_refl _, (by decide : (0 : Int) ≤ 4)⟩
      hotel := fun hh => by cases hh
      street := fun hb => by cases hb }

theorem exchanged_tilesOk (hv : Valid s) {trade : GameEngineTradeOffer}
    {fromPlayer toPlayer : GameEnginePlayer} (hcan : CanExchange s trade fromPlayer toPlayer)
    (hsame : SamePlayers s (exchanged s trade)) : TilesOk (exchanged s trade) := by
  have hactive := hsame.active hv
  refine hv.tiles.map (exchangedTile_key s.board trade) rfl ?_ ?_ ?_
  · intro x hx
    have hok := (hv.tiles.tile x hx).mono hactive
    rcases exchangedTile_cases s.board trade x with ⟨h, _⟩ | ⟨q, hq, h⟩
    · rwa [h]
    · have hparty : IsActive (exchanged s trade) q := by
        rcases hq with ⟨rfl, _⟩ | ⟨rfl, _⟩
        · exact hactive _ ⟨fromPlayer, hcan.fromFound, hcan.fromActive⟩
        · exact hactive _ ⟨toPlayer, hcan.toFound, hcan.toActive⟩
      have hsold := hok.sold s.board
      rw [h]
      exact {
        owner := fun q' hq' => by cases hq'; exact hparty
        unowned := fun hnone => by cases hnone
        houses := hsold.houses
        hotel := hsold.hotel
        street := hsold.street }
  · intro x hb
    rcases exchangedTile_cases s.board trade x with ⟨h, _⟩ | ⟨q, _, h⟩
    · rwa [h] at hb
    · rw [h] at hb
      exact soldTile_hasBuilding s.board x hb
  · intro x hm
    rcases exchangedTile_cases s.board trade x with ⟨h, _⟩ | ⟨q, _, h⟩
    · rwa [h] at hm
    · rw [h] at hm
      exact (soldTile_mortgaged s.board x).symm.trans hm

theorem Trade.tilesOk (hv : Valid s) {condition : GameEngineState → GameEngineTradeOffer → Prop}
    (h : Trade condition p s events s') : TilesOk s' := by
  have hsame : SamePlayers s s' := (h.players hv).same
  cases h with
  | marked | offered | refused | rejected | cancelled =>
    exact hv.tiles.same rfl (hsame.active hv)
  | executed _ _ hcan => exact exchanged_tilesOk hv hcan hsame

/-! ## Bankruptcy -/

theorem liquidateProperty_cases (creditor : Option RoomPlayerId) (x : GameEngineProperty) :
    x.ownerRoomPlayerId ≠ some p ∧ liquidateProperty p creditor x = x ∨
      x.ownerRoomPlayerId = some p ∧ liquidateProperty p creditor x =
        ⟨x.tileKey, creditor, 0, false, false⟩ := by
  unfold liquidateProperty
  by_cases h : x.ownerRoomPlayerId = some p
  · exact .inr ⟨h, if_neg (not_not.mpr h)⟩
  · exact .inl ⟨h, if_pos h⟩

theorem Bankrupts.staysActive {creditor : Option RoomPlayerId} {decks : GameEngineDecks}
    (h : Bankrupts s p pl creditor decks s') {q : RoomPlayerId} (hne : q ≠ p)
    (hq : IsActive s q) : IsActive s' q := by
  obtain ⟨ql, hql, hactive⟩ := hq
  refine ⟨ql, ?_, hactive⟩
  unfold GameEngineState.player?
  rw [h.players']
  exact (Keyed.find_modify_other GameEnginePlayer.roomPlayerId (by intro _; rfl) _ hne).trans hql

theorem Bankrupts.tilesOk (hv : Valid s) {creditor : Option RoomPlayerId}
    {decks : GameEngineDecks} (h : Bankrupts s p pl creditor decks s') : TilesOk s' := by
  refine hv.tiles.map ?_ h.properties' ?_ ?_ ?_
  · intro x
    rcases liquidateProperty_cases (p := p) creditor x with ⟨_, hx⟩ | ⟨_, hx⟩ <;> rw [hx]
  · intro x hx
    have hok := hv.tiles.tile x hx
    rcases liquidateProperty_cases (p := p) creditor x with ⟨hne, h'⟩ | ⟨_, h'⟩
    · rw [h']
      exact {
        owner := fun q hq => h.staysActive (by rintro rfl; exact hne hq) (hok.owner q hq)
        unowned := hok.unowned
        houses := hok.houses
        hotel := hok.hotel
        street := by simpa only [GameEngineState.board_eq] using hok.street }
    · rw [h']
      exact {
        owner := fun q hq => by
          obtain ⟨hne, hq⟩ := h.creditorOk q hq
          exact h.staysActive hne hq
        unowned := fun _ => ⟨rfl, rfl⟩
        houses := ⟨le_refl _, (by decide : (0 : Int) ≤ 4)⟩
        hotel := fun hh => by cases hh
        street := fun hb => by cases hb }
  · intro x hb
    rcases liquidateProperty_cases (p := p) creditor x with ⟨_, hx⟩ | ⟨_, hx⟩
    · rwa [hx] at hb
    · rw [hx] at hb
      cases hb
  · intro x hm
    rcases liquidateProperty_cases (p := p) creditor x with ⟨_, hx⟩ | ⟨_, hx⟩
    · rwa [hx] at hm
    · rw [hx] at hm
      cases hm

theorem debtPaidState_properties {debt : GameEngineDebt} :
    (debtPaidState s debt).properties = s.properties := by
  unfold debtPaidState
  cases debt.creditorRoomPlayerId with
  | none => dsimp only [Option.elim_none]; split <;> rfl
  | some creditor => dsimp only [Option.elim_some]; split <;> rfl

/-- Actions keep the tiles in order. -/
theorem Action.tilesOk (hv : Valid s) (h : Action c p s events s') : TilesOk s' := by
  cases h with
  | turn h =>
    obtain ⟨pl, ho, hturn⟩ := h
    exact hv.tiles.same hturn.properties ((hturn.players hv ho).same.active hv)
  | landing h =>
    obtain ⟨pl, ha, hlanding⟩ := h
    exact hv.tiles.same hlanding.properties ((hlanding.players hv ha.toOnTurn).same.active hv)
  | estate h =>
    obtain ⟨pl, ho, hestate⟩ := h
    exact hestate.tilesOk hv ho
  | bidding h => exact h.tilesOk hv
  | trade h => exact h.tilesOk hv
  | settlement h =>
    cases h with
    | debtPaid hphase hdebt hdebtor hpl h0 hcash =>
      have hchange := debtPaid_players hv hphase hdebt hdebtor hpl h0 hcash
      exact hv.tiles.same debtPaidState_properties (hchange.same.active hv)
    | finished => exact hv.tiles.same rfl fun _ hq => hq
    | lastBankruptcy hbankrupt | bankruptcy hbankrupt | ownBankruptcy hbankrupt =>
      exact Bankrupts.tilesOk hv ⟨hbankrupt, rfl, rfl, rfl⟩

end Actions

end Rules
end LivePoly
