import LivePoly.Rules.AutoDebt
import LivePoly.Rules.Exchange

/-!
# Rules.BuildingSets

Building sets: a set with buildings has one owner, and is built on evenly. Building, selling,
auctions and bankruptcies keep this. A trade sells the buildings of the tiles it names and hands
those tiles over, also when another tile of the set is built on and stays behind; every other trade
keeps it, and this one never does.
-/

namespace LivePoly
namespace Rules

open Engine Checked

/-- If `x` is built on, `y` has the same owner and is at most one level behind. -/
def Levelled (x y : GameEngineProperty) : Prop :=
  x.hasBuilding = true → y.ownerRoomPlayerId = x.ownerRoomPlayerId ∧ x.level ≤ y.level + 1

/-- Each tile with buildings is levelled with all tiles of its set. -/
def EvenSets (s : GameEngineState) : Prop :=
  ∀ tile tile' : PropertyTile, .property tile ∈ s.board.tiles → .property tile' ∈ s.board.tiles →
    tile.setKey = tile'.setKey → ∀ x x', s.property? tile.key = some x →
      s.property? tile'.key = some x' → Levelled x x'

/-- The tile is handed over. -/
def Named (trade : GameEngineTradeOffer) (key : TileKey) : Prop :=
  key ∈ trade.offeredPropertyKeys ∨ key ∈ trade.requestedPropertyKeys

/-- When a tile of a set is handed over, so are all tiles of the set that are built on. -/
def ClearsSets (s : GameEngineState) (trade : GameEngineTradeOffer) : Prop :=
  ∀ tile tile' : PropertyTile, .property tile ∈ s.board.tiles → .property tile' ∈ s.board.tiles →
    tile.setKey = tile'.setKey → Named trade tile.key → ∀ x', s.property? tile'.key = some x' →
      x'.hasBuilding = true → Named trade tile'.key

/-- No trade leaves buildings behind. -/
def clearingSets : Condition := ⟨ClearsSets, fun _ _ => True, fun _ _ => True⟩

/-! ## Sets as a whole -/

section Sets

variable {s : GameEngineState}

theorem level_eq_zero {x : GameEngineProperty} (hx : TileOk s x) (h : x.hasBuilding = false) :
    x.level = 0 := by
  have h0 := hx.houses.1
  obtain ⟨hhouse, hhotel⟩ := Bool.or_eq_false_iff.mp h
  have hnone : ¬ 0 < x.houseCount := of_decide_eq_false hhouse
  simp only [GameEngineProperty.level, hhotel, Bool.false_eq_true, if_false]
  omega

theorem level_bounds {x : GameEngineProperty} (hx : TileOk s x) : 0 ≤ x.level ∧ x.level ≤ 5 := by
  obtain ⟨h0, h4⟩ := hx.houses
  unfold GameEngineProperty.level
  split
  · rename_i hhotel
    rw [hx.hotel hhotel]
    decide
  · omega

theorem EvenSets.setIntegrity (ht : TilesOk s) (h : EvenSets s) : SetIntegrity s := by
  constructor
  · rintro setKey ⟨tile, htile, x, hx, hbuilt⟩
    obtain ⟨hmem, hkey⟩ := setTiles_street htile
    have hok := ht.tile x (GameEngineState.property?_mem hx)
    cases howner : x.ownerRoomPlayerId with
    | none =>
      rw [(hok.unowned howner).1] at hbuilt
      cases hbuilt
    | some q =>
      refine ⟨q, fun other hother => ?_⟩
      obtain ⟨hmem', hkey'⟩ := setTiles_street hother
      obtain ⟨y, hy⟩ := OnBoard.street ht.keys hmem'
      have hsame := h tile other hmem hmem' (hkey.trans hkey'.symm) x y hx hy hbuilt
      exact ⟨y, hy, hsame.1.trans howner, trivial⟩
  · intro setKey _ tile htile tile' htile' x x' hx hx'
    obtain ⟨hmem, hkey⟩ := setTiles_street htile
    obtain ⟨hmem', hkey'⟩ := setTiles_street htile'
    by_cases hbuilt : x.hasBuilding = true
    · exact (h tile tile' hmem hmem' (hkey.trans hkey'.symm) x x' hx hx' hbuilt).2
    · have hzero := level_eq_zero (ht.tile x (GameEngineState.property?_mem hx))
        (by simpa using hbuilt)
      have hbounds := level_bounds (ht.tile x' (GameEngineState.property?_mem hx'))
      omega

/-! ## Records that change -/

variable {s' : GameEngineState}

theorem EvenSets.same (h : EvenSets s) (hs : s'.properties = s.properties) : EvenSets s' := by
  intro tile tile' htile htile' hset x x' hx hx'
  rw [GameEngineState.board_eq, ← s.board_eq] at htile htile'
  unfold GameEngineState.property? at hx hx'
  rw [hs] at hx hx'
  exact h tile tile' htile htile' hset x x' hx hx'

theorem EvenSets.around (h : EvenSets s) {key : TileKey} {x : GameEngineProperty}
    (hx : s.property? key = some x) :
    SetSatisfies s key fun y => Levelled x y ∧ Levelled y x := by
  rintro tile tile' htile htile' rfl hset y hy
  exact ⟨h tile tile' htile htile' hset x y hx hy, h tile' tile htile' htile hset.symm y x hy hx⟩

/-- One record changes and is levelled with the tiles of its set again. -/
theorem EvenSets.update (h : EvenSets s) {key : TileKey} {x : GameEngineProperty}
    (hx : s.property? key = some x) {f : GameEngineProperty → GameEngineProperty}
    (hkey : ∀ x, (f x).tileKey = x.tileKey)
    (hs : s'.properties = Keyed.modify GameEngineProperty.tileKey s.properties key f)
    (hset : SetSatisfies s key fun y => Levelled (f x) y ∧ Levelled y (f x)) : EvenSets s' := by
  have hfind : ∀ k, s'.property? k =
      if k = key then (s.property? k).map f else s.property? k := fun k => by
    unfold GameEngineState.property?
    rw [hs, Keyed.find_modify _ hkey]
  have hself : s'.property? key = some (f x) := by
    rw [hfind, if_pos rfl, hx]
    rfl
  have hother : ∀ {k y}, k ≠ key → s'.property? k = some y → s.property? k = some y := by
    intro k y hk hy
    rwa [hfind, if_neg hk] at hy
  intro tile tile' htile htile' hsame y y' hy hy'
  rw [GameEngineState.board_eq, ← s.board_eq] at htile htile'
  by_cases hk : tile.key = key
  · rw [hk, hself] at hy
    cases hy
    by_cases hk' : tile'.key = key
    · rw [hk', hself] at hy'
      cases hy'
      exact fun _ => ⟨rfl, by omega⟩
    · exact (hset tile tile' htile htile' hk hsame y' (hother hk' hy')).1
  · by_cases hk' : tile'.key = key
    · rw [hk', hself] at hy'
      cases hy'
      exact (hset tile' tile htile' htile hk' hsame.symm y (hother hk hy)).2
    · exact h tile tile' htile htile' hsame y y' (hother hk hy) (hother hk' hy')

/-- A free tile gets an owner: nothing in its set is built on. -/
theorem EvenSets.acquire (ht : TilesOk s) (h : EvenSets s) {key : TileKey}
    {x : GameEngineProperty} (hx : s.property? key = some x)
    (hfree : x.ownerRoomPlayerId = none) {owner : Option RoomPlayerId}
    (hs : s'.properties = Keyed.modify GameEngineProperty.tileKey s.properties key fun x =>
      { x with ownerRoomPlayerId := owner }) : EvenSets s' := by
  refine h.update hx (by intro _; rfl) hs fun tile tile' htile htile' hkey hsame y hy => ?_
  have hbare := ((ht.tile x (GameEngineState.property?_mem hx)).unowned hfree).1
  constructor
  · intro hbuilt
    cases hbare.symm.trans hbuilt
  · intro hbuilt
    have howner := ((h.around hx tile tile' htile htile' hkey hsame y hy).2 hbuilt).1
    have hnone := (ht.tile y (GameEngineState.property?_mem hy)).unowned (howner.symm.trans hfree)
    cases hnone.1.symm.trans hbuilt

theorem EvenSets.map (h : EvenSets s) {g : GameEngineProperty → GameEngineProperty}
    (hkey : ∀ x, (g x).tileKey = x.tileKey) (hs : s'.properties = s.properties.map g)
    (hg : ∀ tile tile' : PropertyTile, .property tile ∈ s.board.tiles →
      .property tile' ∈ s.board.tiles → tile.setKey = tile'.setKey → ∀ x x',
      s.property? tile.key = some x → s.property? tile'.key = some x' → Levelled x x' →
      Levelled (g x) (g x')) : EvenSets s' := by
  have hfind : ∀ key, s'.property? key = (s.property? key).map g := fun key => by
    unfold GameEngineState.property?
    rw [hs, Keyed.find_map _ hkey]
  intro tile tile' htile htile' hset x x' hx hx'
  rw [GameEngineState.board_eq, ← s.board_eq] at htile htile'
  rw [hfind] at hx hx'
  obtain ⟨y, hy, rfl⟩ := Option.map_eq_some_iff.mp hx
  obtain ⟨y', hy', rfl⟩ := Option.map_eq_some_iff.mp hx'
  exact hg tile tile' htile htile' hset y y' hy hy' (h tile tile' htile htile' hset y y' hy hy')

end Sets

/-! ## The actions -/

section Actions

variable {s s' : GameEngineState} {p : RoomPlayerId} {pl : GameEnginePlayer}
  {events : List GameEngineEvent}

/-- A street that is built on or sold from, in a set of which `p` owns every tile. -/
theorem EvenSets.rebuild (hv : Valid s) (h : EvenSets s) {tile : PropertyTile}
    {x : GameEngineProperty} {P : GameEngineProperty → Prop}
    (htile : .property tile ∈ s.board.tiles) (hx : s.property? tile.key = some x)
    (hset : SetOwned s p tile.setKey P) {f : GameEngineProperty → GameEngineProperty}
    (hkey : ∀ x, (f x).tileKey = x.tileKey)
    (howner : (f x).ownerRoomPlayerId = x.ownerRoomPlayerId)
    (hs : s'.properties = Keyed.modify GameEngineProperty.tileKey s.properties tile.key f)
    (hbelow : ∀ y, TileOk s y → P y → Levelled x y → (f x).level ≤ y.level + 1)
    (habove : ∀ y, TileOk s y → P y → y.hasBuilding = true → Levelled y x →
      y.level ≤ (f x).level + 1) : EvenSets s' := by
  refine h.update hx hkey hs fun first second hfirst hsecond hk hsame y hy => ?_
  have hfirst' : first = tile := by
    rw [GameEngineState.board_eq] at hfirst htile
    have heq : GameTile.property first = .property tile :=
      List.inj_on_of_nodup_map board_keys_nodup hfirst htile hk
    cases heq
    rfl
  subst hfirst'
  have hok : TileOk s y := hv.tileOk hy
  obtain ⟨hxy, hyx⟩ := h.around hx first second hfirst hsecond rfl hsame y hy
  obtain ⟨y', hy', hyowner, hP⟩ := hset second (hsame ▸ mem_setTiles.mpr hsecond)
  cases hy.symm.trans hy'
  obtain ⟨x', hx', hxowner, _⟩ := hset first (mem_setTiles.mpr hfirst)
  cases hx.symm.trans hx'
  constructor
  · intro _
    exact ⟨hyowner.trans (hxowner.symm.trans howner.symm), hbelow y hok hP hxy⟩
  · intro hbuilt
    exact ⟨howner.trans (hxowner.trans hyowner.symm), habove y hok hP hbuilt hyx⟩

theorem level_house {x : GameEngineProperty} (h : x.hasHotel = false) : x.level = x.houseCount := by
  simp [GameEngineProperty.level, h]

theorem Estate.evenSets (hv : Valid s) (he : EvenSets s) (h : Estate p pl s events s') :
    EvenSets s' := by
  cases h with
  | bought _ _ _ hproperty hfree => exact he.acquire hv.tiles hproperty hfree rfl
  | @houseBuilt tile x _ htile hproperty hhotel hcount hset =>
    have hx : TileOk s x := hv.tileOk hproperty
    have hlevel := level_house hhotel
    have hnext : GameEngineProperty.level { x with houseCount := x.houseCount + 1 } =
        x.houseCount + 1 := level_house hhotel
    refine he.rebuild hv htile hproperty hset ?_ rfl rfl ?_ ?_
    · intro _; rfl
    · intro y hy hP _
      rw [hnext]
      cases hyhotel : y.hasHotel with
      | false =>
        have hle := hP.2 hyhotel
        rw [level_house hyhotel]
        omega
      | true =>
        have h0 := hy.houses.1
        simp only [GameEngineProperty.level, hyhotel, if_true]
        omega
    · intro y _ _ hbuilt hyx
      have hle := (hyx hbuilt).2
      rw [hnext]
      omega
  | @hotelBuilt tile x _ htile hproperty hhotel hcount hset =>
    refine he.rebuild hv htile hproperty hset ?_ rfl rfl ?_ ?_
    · intro _; rfl
    · intro y hy hP _
      have h0 := hy.houses.1
      have hhigh : 4 ≤ y.level := by
        unfold GameEngineProperty.level
        rcases hP.2 with hhotel' | hfour
        · rw [if_pos hhotel']
          omega
        · split <;> omega
      change (0 : Int) + 5 ≤ y.level + 1
      omega
    · intro y hy _ _ _
      have hle := (level_bounds hy).2
      change y.level ≤ (0 : Int) + 5 + 1
      omega
  | @hotelSold tile x _ htile hproperty hhotel hset =>
    have hx : TileOk s x := hv.tileOk hproperty
    have hlevel : x.level = 5 := by
      simp [GameEngineProperty.level, hhotel, hx.hotel hhotel]
    have hbuilt : x.hasBuilding = true := by simp [GameEngineProperty.hasBuilding, hhotel]
    refine he.rebuild hv htile hproperty hset ?_ rfl rfl ?_ ?_
    · intro _; rfl
    · intro y _ _ hxy
      have hle := (hxy hbuilt).2
      change (4 : Int) + 0 ≤ y.level + 1
      omega
    · intro y hy _ _ _
      have hle := (level_bounds hy).2
      change y.level ≤ (4 : Int) + 0 + 1
      omega
  | @houseSold tile x _ htile hproperty hhotel hcount hset =>
    have hx : TileOk s x := hv.tileOk hproperty
    have h0 := hx.houses.1
    have hlevel := level_house hhotel
    have hbuilt : x.hasBuilding = true := by
      have hpos : 0 < x.houseCount := by omega
      simp [GameEngineProperty.hasBuilding, hpos]
    have hnext : GameEngineProperty.level { x with houseCount := x.houseCount - 1 } =
        x.houseCount - 1 := level_house hhotel
    refine he.rebuild hv htile hproperty hset ?_ rfl rfl ?_ ?_
    · intro _; rfl
    · intro y _ _ hxy
      have hle := (hxy hbuilt).2
      rw [hnext]
      omega
    · intro y _ hP _ _
      rw [hnext, level_house hP.1]
      have hle := hP.2
      omega
  | mortgaged _ _ hproperty | unmortgaged _ _ hproperty =>
    have hset := he.around hproperty
    refine he.update hproperty ?_ rfl hset
    intro _; rfl

theorem Bidding.evenSets (hv : Valid s) (he : EvenSets s)
    {condition : GameEngineState → RoomPlayerId → Prop} (h : Bidding condition p s events s') :
    EvenSets s' := by
  cases h with
  | declined | bid | passed => exact he.same rfl
  | bidWon hact | passedWon hact | passedUnsold hact =>
    obtain ⟨_, property, _, hproperty, hfree⟩ := (hv.phase.auctionOk _ hact.running).free
    exact he.acquire hv.tiles hproperty hfree rfl

theorem exchanged_evenSets (hv : Valid s) (he : EvenSets s) {trade : GameEngineTradeOffer}
    (hclears : ClearsSets s trade) : EvenSets (exchanged s trade) := by
  refine he.map (exchangedTile_key s.board trade) rfl
    fun tile tile' htile htile' hset x x' hx hx' hlevelled => ?_
  have hkey : x.tileKey = tile.key := GameEngineState.property?_key hx
  have hkey' : x'.tileKey = tile'.key := GameEngineState.property?_key hx'
  intro hbuilt
  rcases exchangedTile_cases s.board trade x with ⟨hsame, ho, hr⟩ | ⟨q, _, hsold⟩
  · rw [hsame] at hbuilt ⊢
    rcases exchangedTile_cases s.board trade x' with ⟨hsame', _⟩ | ⟨_, hnamed, _⟩
    · rw [hsame']
      exact hlevelled hbuilt
    · -- the other tile is handed over, so this one is as well
      have hother : Named trade tile'.key := by
        rw [← hkey']
        rcases hnamed with ⟨_, hr'⟩ | ⟨_, ho'⟩
        · exact .inr hr'
        · exact .inl ho'
      rcases hclears tile' tile htile' htile hset.symm hother x hx hbuilt with ho' | hr'
      · rw [← hkey] at ho'
        exact absurd ho' ho
      · rw [← hkey] at hr'
        exact absurd hr' hr
  · rw [hsold, soldTile_eq hv.tiles (GameEngineState.property?_mem hx)] at hbuilt
    cases hbuilt

theorem Trade.evenSets (hv : Valid s) (he : EvenSets s) (h : Trade ClearsSets p s events s') :
    EvenSets s' := by
  cases h with
  | marked | offered | refused | rejected | cancelled => exact he.same rfl
  | executed _ _ _ hclears => exact exchanged_evenSets hv he hclears

theorem liquidated_evenSets (he : EvenSets s) {creditor : Option RoomPlayerId}
    (hs : s'.properties = s.properties.map (liquidateProperty p creditor)) : EvenSets s' := by
  refine he.map (liquidateProperty_key creditor) hs
    fun tile tile' htile htile' hset x x' hx hx' hlevelled hbuilt => ?_
  rcases liquidateProperty_cases (p := p) creditor x with ⟨hother, hsame⟩ | ⟨_, hbare⟩
  · rw [hsame] at hbuilt ⊢
    obtain ⟨howner, hlevel⟩ := hlevelled hbuilt
    rcases liquidateProperty_cases (p := p) creditor x' with ⟨_, hsame'⟩ | ⟨hown, _⟩
    · rw [hsame']
      exact ⟨howner, hlevel⟩
    · exact absurd (howner.symm.trans hown) hother
  · rw [hbare] at hbuilt
    cases hbuilt

theorem Action.evenSets (hv : Valid s) (he : EvenSets s) (h : Action clearingSets p s events s') :
    EvenSets s' := by
  cases h with
  | turn h =>
    obtain ⟨pl, _, hturn⟩ := h
    exact he.same hturn.properties
  | landing h =>
    obtain ⟨pl, _, hlanding⟩ := h
    exact he.same hlanding.properties
  | estate h =>
    obtain ⟨pl, _, hestate⟩ := h
    exact hestate.evenSets hv he
  | bidding h => exact h.evenSets hv he
  | trade h => exact h.evenSets hv he
  | settlement h =>
    cases h with
    | debtPaid => exact he.same debtPaidState_properties
    | finished => exact he.same rfl
    | lastBankruptcy | bankruptcy | ownBankruptcy => exact liquidated_evenSets he rfl

end Actions

/-! ## Trades that leave buildings behind -/

section Leaves

variable {s : GameEngineState} {env : Env} {r : GameEngineResult}

/-- The tile handed over and the one that stays behind with its buildings have two owners. -/
theorem exchanged_uneven (he : EvenSets s) {trade : GameEngineTradeOffer}
    (hoffer : WellFormedOffer trade) {fromPlayer toPlayer : GameEnginePlayer}
    (hcan : CanExchange s trade fromPlayer toPlayer) (hnot : ¬ ClearsSets s trade) :
    ¬ SetIntegrity (exchanged s trade) := by
  intro hset
  unfold ClearsSets at hnot
  push Not at hnot
  obtain ⟨tile, tile', htile, htile', hsame, hnamed, x', hx', hbuilt, hstays⟩ := hnot
  have hkey' : x'.tileKey = tile'.key := GameEngineState.property?_key hx'
  obtain ⟨ho', hr'⟩ := not_or.mp hstays
  have hkept : exchangedTile s.board trade x' = x' := by
    rw [← hkey'] at ho' hr'
    exact exchangedTile_other ho' hr'
  obtain ⟨x, hx, hgiver⟩ : ∃ x, s.property? tile.key = some x ∧
      (exchangedTile s.board trade x).ownerRoomPlayerId ≠ x.ownerRoomPlayerId := by
    have hrecord : ∃ x, s.property? tile.key = some x := by
      rcases hnamed with ho | hr
      · obtain ⟨x, hx, _⟩ := hcan.offered _ ho
        exact ⟨x, hx⟩
      · obtain ⟨x, hx, _⟩ := hcan.requested _ hr
        exact ⟨x, hx⟩
    obtain ⟨x, hx⟩ := hrecord
    have hkey : x.tileKey = tile.key := GameEngineState.property?_key hx
    refine ⟨x, hx, ?_⟩
    rcases exchangedTile_cases s.board trade x with ⟨_, ho, hr⟩ | ⟨q, hq, hsold⟩
    · rw [hkey] at ho hr
      exact absurd hnamed (not_or.mpr ⟨ho, hr⟩)
    · rw [hsold, hkey] at *
      intro howner
      rcases hq with ⟨rfl, hr⟩ | ⟨rfl, ho⟩
      · obtain ⟨y, hy, hto⟩ := hcan.requested _ hr
        cases hx.symm.trans hy
        exact hoffer.other (Option.some.inj (howner.trans hto))
      · obtain ⟨y, hy, hfrom⟩ := hcan.offered _ ho
        cases hx.symm.trans hy
        exact hoffer.other (Option.some.inj (hfrom.symm.trans howner.symm))
  have howner := (he tile' tile htile' htile hsame.symm x' x hx' hx hbuilt).1
  have hboard : (exchanged s trade).board = s.board := by rw [s.board_eq, GameEngineState.board_eq]
  have hmem' : tile' ∈ (exchanged s trade).board.setTiles tile'.setKey := by
    rw [hboard]
    exact mem_setTiles.mpr htile'
  have hmem : tile ∈ (exchanged s trade).board.setTiles tile'.setKey := by
    rw [hboard, ← hsame]
    exact mem_setTiles.mpr htile
  have hfound' : (exchanged s trade).property? tile'.key = some x' := by
    rw [exchanged_property?, hx', Option.map_some, hkept]
  have hfound : (exchanged s trade).property? tile.key = some (exchangedTile s.board trade x) := by
    rw [exchanged_property?, hx, Option.map_some]
  obtain ⟨q, howned⟩ := hset.owned tile'.setKey ⟨tile', hmem', x', hfound', hbuilt⟩
  obtain ⟨y', hy', hq', _⟩ := howned tile' hmem'
  cases hfound'.symm.trans hy'
  obtain ⟨y, hy, hq, _⟩ := howned tile hmem
  cases hfound.symm.trans hy
  exact hgiver (hq.trans (hq'.symm.trans howner.symm))

/-- The trade is executed: `s'` is the state it leaves. -/
structure Exchanges (s : GameEngineState) (trade : GameEngineTradeOffer) (s' : GameEngineState) :
    Prop where
  state : s' = exchanged s trade
  offer : WellFormedOffer trade
  can : ∃ fromPlayer toPlayer, CanExchange s trade fromPlayer toPlayer

/-- A bot that accepts at once. -/
theorem proposeTrade_exchanges (hv : Valid s) {input : ProposeTradeInput}
    (h : proposeTrade env s input = .ok r) {trade : GameEngineTradeOffer}
    {marked : GameEngineState} (htrade : tradeOfInput env input = .ok trade)
    (hmarked : markBotTradeProposal s input.roomPlayerId = .ok marked)
    (hbot : (marked.player? trade.toRoomPlayerId).any fun target => target.playerType = .bot)
    (haccepts : shouldBotAcceptTrade marked trade = .ok true) :
    Exchanges marked trade r.state := by
  simp only [proposeTrade, bind_eq_ok, rejectIf_eq_ok, findPlayer_eq_ok] at h
  obtain ⟨_, _, _, hne, _, _, trade', htrade', _, _, marked', hmarked', target, htarget, h⟩ := h
  cases htrade.symm.trans htrade'
  obtain ⟨hoffer, hfrom⟩ := tradeOfInput_wellFormed htrade hne
  rw [hfrom] at hmarked'
  cases hmarked.symm.trans hmarked'
  rw [htarget] at hbot
  rw [if_pos (of_decide_eq_true hbot), haccepts, ok_bind, if_pos rfl] at h
  have hkeys : (marked.properties.map GameEngineProperty.tileKey).Nodup := by
    rcases markBotTradeProposal_eq_ok hmarked with rfl | rfl
    · exact hv.tiles.keys_nodup
    · exact hv.tiles.keys_nodup
  obtain ⟨hcan, rfl⟩ := acceptTradeOffer_eq_ok hkeys hoffer.plain h
  exact ⟨rfl, hoffer, hcan⟩

/-- An intent that is not permitted breaks a building set. -/
theorem accepted_uneven (hv : Valid s) (he : EvenSets s) {intent : GameEngineIntent}
    (h : reduceGameEngineIntent env s intent = .ok r)
    (hnot : ¬ Permits clearingSets env s intent) : ¬ SetIntegrity r.state := by
  cases intent with
  | acceptTrade p tradeId =>
    simp only [Permits, not_forall] at hnot
    obtain ⟨trade, hpending, hleaves⟩ := hnot
    simp only [reduceGameEngineIntent, acceptTrade, bind_eq_ok] at h
    obtain ⟨found, hfound, _, _, h⟩ := h
    obtain ⟨hfound, _⟩ := assertTradeOffer_eq_ok hfound
    cases hpending.symm.trans hfound
    have hoffer := (hv.table.offer trade hpending).2
    obtain ⟨⟨_, _, hcan⟩, rfl⟩ := acceptTradeOffer_eq_ok hv.tiles.keys_nodup hoffer.plain h
    exact exchanged_uneven he hoffer hcan hleaves
  | proposeTrade input =>
    simp only [Permits, not_forall] at hnot
    obtain ⟨trade, marked, _, htrade, hmarked, hbot, haccepts, hleaves⟩ := hnot
    obtain ⟨hstate, hoffer, _, _, hcan⟩ :=
      proposeTrade_exchanges hv h htrade hmarked hbot haccepts
    have hsame : marked.properties = s.properties := by
      rcases markBotTradeProposal_eq_ok hmarked with rfl | rfl <;> rfl
    rw [hstate]
    exact exchanged_uneven (he.same hsame) hoffer hcan hleaves
  | _ => exact absurd (by simp [Permits, clearingSets]) hnot

end Leaves

/-! ## Games -/

section Games

variable {input : CreateInitialGameStateInput} {s t start : GameEngineState}
  {sent : List (Env × GameEngineIntent)} {events : List GameEngineEvent}

theorem createInitialGameState_evenSets {env : Env}
    (h : createInitialGameState env input = .ok start) : EvenSets start := by
  simp only [createInitialGameState, bind_eq_ok, orThrow_eq_ok, pure_eq_ok] at h
  obtain ⟨first, _, rfl⟩ := h
  intro tile tile' _ _ _ x x' hx _ hbuilt
  obtain ⟨owned, _, rfl⟩ := List.mem_map.mp (GameEngineState.property?_mem hx)
  cases hbuilt

theorem accepts_evenSets (sent : Env × GameEngineIntent) (events : List GameEngineEvent)
    (h : Valid s ∧ EvenSets s)
    (hstep : Trace.Guarded Accepts (PermitsSent clearingSets) s sent events t) :
    Valid t ∧ EvenSets t := by
  obtain ⟨hv, he⟩ := h
  obtain ⟨haccepts, hpermits⟩ := hstep
  obtain ⟨p, hactions⟩ := accepted_actions hv hpermits haccepts
  refine hactions.invariant (I := fun u => Valid u ∧ EvenSets u) ?_ ⟨hv, he⟩
  rintro u o u' ⟨hvalid, heven⟩ haction
  exact ⟨haction.valid hvalid, haction.evenSets hvalid heven⟩

/-- In every game in which no trade leaves buildings behind in a set it takes a tile from, sets
with buildings have one owner and are built on evenly. The first trade that leaves some behind
breaks a set. -/
theorem game_setIntegrity {env : Env} (hi : ValidInput input)
    (hbegun : createInitialGameState env input = .ok start)
    (h : Trace.Run (Trace.Guarded Accepts (PermitsSent clearingSets)) start sent events s) :
    SetIntegrity s ∧
    ∀ next events' s', Accepts s next events' s' → ¬ PermitsSent clearingSets s next →
      ¬ SetIntegrity s' := by
  obtain ⟨hv, he⟩ := h.invariant (fun u i o u' => accepts_evenSets (s := u) (t := u') i o)
    ⟨createInitialGameState_valid hi hbegun, createInitialGameState_evenSets hbegun⟩
  exact ⟨he.setIntegrity hv.tiles, fun next events' s' haccepts hnot =>
    accepted_uneven hv he haccepts hnot⟩

theorem threePlayers_setIntegrity : ∃ env sent events start s,
    createInitialGameState env threePlayers = .ok start ∧
    Trace.Run (Trace.Guarded Accepts (PermitsSent clearingSets)) start sent events s ∧
    (∃ x, s.property? .southAfrica = some x ∧ x.hasBuilding = true) ∧ SetIntegrity s := by
  obtain ⟨r, hr, hbuilt⟩ := exists_ok_of_any (by decide +kernel :
    (playThree lightBlueHouse).toOption.any (fun r =>
      (r.state.property? .southAfrica).any GameEngineProperty.hasBuilding) = true)
  obtain ⟨start, hstart, hgame⟩ := playRoom_game hr
  have hsafe : Trace.Run (Trace.Guarded Accepts fun _ sent => ∀ s, PermitsSent clearingSets s sent)
      start _ r.events r.state :=
    hgame.run.guarded (by simp [atStart, lightBlueHouse, PermitsSent, Permits, clearingSets])
  have hrun : Trace.Run (Trace.Guarded Accepts (PermitsSent clearingSets)) start _ r.events
      r.state := hsafe.mono fun s _ _ _ hs => ⟨hs.1, hs.2 s⟩
  exact ⟨_, _, _, start, r.state, hstart, hrun, (Option.any_eq_true _ _).mp hbuilt,
    (game_setIntegrity threePlayers_valid hstart hrun).1⟩

/-- The first player trades Egypt away; the house on South Africa stays. -/
theorem threePlayers_unevenTrade : ∃ s, Reachable threePlayers s ∧ ¬ SetIntegrity s := by
  obtain ⟨r, hr, htest⟩ := exists_ok_of_any (by decide +kernel :
    (playThree (lightBlueHouse ++ [.proposeTrade ⟨⟨1⟩, ⟨2⟩, .int 0, .int 1, ["egypt"], [], none⟩,
      .acceptTrade ⟨2⟩ "trade"])).toOption.any (fun r =>
        (r.state.property? .southAfrica).any fun x =>
          x.hasBuilding && (r.state.property? .egypt).any fun y =>
            y.ownerRoomPlayerId ≠ x.ownerRoomPlayerId) = true)
  obtain ⟨x, hx, htest⟩ := (Option.any_eq_true _ _).mp htest
  obtain ⟨hbuilt, htest⟩ := Bool.and_eq_true_iff.mp htest
  obtain ⟨y, hy, hne⟩ := (Option.any_eq_true _ _).mp htest
  refine ⟨r.state, playRoom_reachable hr, fun hset => ?_⟩
  obtain ⟨tile, htile, hkey⟩ : ∃ tile ∈ r.state.board.setTiles .lightBlue,
      tile.key = .southAfrica := by
    rw [GameEngineState.board_eq]
    decide
  obtain ⟨tile', htile', hkey'⟩ : ∃ tile ∈ r.state.board.setTiles .lightBlue,
      tile.key = .egypt := by
    rw [GameEngineState.board_eq]
    decide
  obtain ⟨q, howned⟩ := hset.owned .lightBlue ⟨tile, htile, x, hkey.symm ▸ hx, hbuilt⟩
  obtain ⟨_, hx', hqx, _⟩ := howned tile htile
  rw [hkey] at hx'
  cases hx.symm.trans hx'
  obtain ⟨_, hy', hqy, _⟩ := howned tile' htile'
  rw [hkey'] at hy'
  cases hy.symm.trans hy'
  exact of_decide_eq_true hne (hqy.trans hqx.symm)

end Games

end Rules
end LivePoly
