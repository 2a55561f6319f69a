import LivePoly.Rules.Tiles

/-!
# Rules.Phases

Each phase keeps the data it waits for: actions that change the phase set or clear the data, and
actions that do not leave it valid.
-/

namespace LivePoly
namespace Rules

open Engine Checked

section Phases

variable {s s' : GameEngineState}

/-! ## What the phase says -/

theorem PhaseOk.pending_none (h : PhaseOk s) (hphase : s.phase ≠ .awaitingPropertyDecision) :
    s.pendingTileKey = none := by
  cases hpending : s.pendingTileKey with
  | none => rfl
  | some key => exact absurd (h.pending.mp (by rw [hpending]; rfl)) hphase

theorem PhaseOk.auction_none (h : PhaseOk s) (hphase : s.phase ≠ .awaitingAuctionBid) :
    s.auction = none := by
  cases hauction : s.auction with
  | none => rfl
  | some auction => exact absurd (h.auction.mp (by rw [hauction]; rfl)) hphase

theorem PhaseOk.debt_none (h : PhaseOk s) (hphase : s.phase ≠ .awaitingDebtResolution) :
    s.debt = none := by
  cases hdebt : s.debt with
  | none => rfl
  | some debt => exact absurd (h.debt.mp (by rw [hdebt]; rfl)) hphase

/-- The phases that wait for nothing but the player. -/
def isIdle : GamePhase → Bool
  | .awaitingPropertyDecision | .awaitingAuctionBid | .awaitingDebtResolution => false
  | _ => true

theorem PhaseOk.idle (hphase : isIdle s.phase = true) (hpending : s.pendingTileKey = none)
    (hauction : s.auction = none) (hdebt : s.debt = none) : PhaseOk s where
  pending := by
    rw [hpending]
    constructor
    · intro h
      cases h
    · intro h
      rw [h] at hphase
      cases hphase
  auction := by
    rw [hauction]
    constructor
    · intro h
      cases h
    · intro h
      rw [h] at hphase
      cases hphase
  debt := by
    rw [hdebt]
    constructor
    · intro h
      cases h
    · intro h
      rw [h] at hphase
      cases hphase
  pendingOk := by simp [hpending]
  auctionOk := by simp [hauction]
  debtOk := by simp [hdebt]

theorem PhaseOk.idle_none (h : PhaseOk s) (hphase : isIdle s.phase = true) :
    s.pendingTileKey = none ∧ s.auction = none ∧ s.debt = none := by
  refine ⟨h.pending_none ?_, h.auction_none ?_, h.debt_none ?_⟩ <;>
    · intro hcontra
      rw [hcontra] at hphase
      cases hphase

theorem PhaseOk.deciding {key : TileKey} (hphase : s.phase = .awaitingPropertyDecision)
    (hpending : s.pendingTileKey = some key) (hok : PendingOk s key) (hauction : s.auction = none)
    (hdebt : s.debt = none) : PhaseOk s where
  pending := by simp [hpending, hphase]
  auction := by simp [hauction, hphase]
  debt := by simp [hdebt, hphase]
  pendingOk := by
    rw [hpending]
    rintro k ⟨⟩
    exact hok
  auctionOk := by simp [hauction]
  debtOk := by simp [hdebt]

theorem PhaseOk.bidding {auction : GameEngineAuction} (hphase : s.phase = .awaitingAuctionBid)
    (hpending : s.pendingTileKey = none) (hauction : s.auction = some auction)
    (hok : AuctionOk s auction) (hdebt : s.debt = none) : PhaseOk s where
  pending := by simp [hpending, hphase]
  auction := by simp [hauction, hphase]
  debt := by simp [hdebt, hphase]
  pendingOk := by simp [hpending]
  auctionOk := by
    rw [hauction]
    rintro a ⟨⟩
    exact hok
  debtOk := by simp [hdebt]

theorem PhaseOk.owing {debt : GameEngineDebt} (hphase : s.phase = .awaitingDebtResolution)
    (hpending : s.pendingTileKey = none) (hauction : s.auction = none)
    (hdebt : s.debt = some debt) (hok : DebtOk s debt) : PhaseOk s where
  pending := by simp [hpending, hphase]
  auction := by simp [hauction, hphase]
  debt := by simp [hdebt, hphase]
  pendingOk := by simp [hpending]
  auctionOk := by simp [hauction]
  debtOk := by
    rw [hdebt]
    rintro d ⟨⟩
    exact hok

/-! ## Actions that leave the phase -/

/-- The states wait for the same. -/
structure SamePhase (s s' : GameEngineState) : Prop where
  phase : s'.phase = s.phase
  pending : s'.pendingTileKey = s.pendingTileKey
  auction : s'.auction = s.auction
  debt : s'.debt = s.debt
  current : s'.currentTurnRoomPlayerId = s.currentTurnRoomPlayerId

theorem DebtOk.mono {debt : GameEngineDebt} (h : DebtOk s debt)
    (hcurrent : s'.currentTurnRoomPlayerId = s.currentTurnRoomPlayerId)
    (hlisted : ∀ q, (s.player? q).isSome → (s'.player? q).isSome) : DebtOk s' debt where
  debtor := h.debtor.trans hcurrent.symm
  amount := h.amount
  creditor := by
    intro c hc
    obtain ⟨hne, cl, hcl⟩ := h.creditor c hc
    exact ⟨hne, Option.isSome_iff_exists.mp (hlisted c (by rw [hcl]; rfl))⟩

theorem PhaseOk.quiet (h : PhaseOk s) (hsame : SamePhase s s')
    (hdecision : s.phase ≠ .awaitingPropertyDecision) (hbid : s.phase ≠ .awaitingAuctionBid)
    (hlisted : ∀ q, (s.player? q).isSome → (s'.player? q).isSome) : PhaseOk s' where
  pending := by rw [hsame.pending, hsame.phase]; exact h.pending
  auction := by rw [hsame.auction, hsame.phase]; exact h.auction
  debt := by rw [hsame.debt, hsame.phase]; exact h.debt
  pendingOk := by simp [hsame.pending, h.pending_none hdecision]
  auctionOk := by simp [hsame.auction, h.auction_none hbid]
  debtOk := by
    intro debt hdebt
    exact (h.debtOk debt (hsame.debt ▸ hdebt)).mono hsame.current hlisted

/-- Nobody moves, and no bankrupt player receives cash. -/
def InPlace (s s' : GameEngineState) : Prop :=
  ∃ f : GameEnginePlayer → GameEnginePlayer, s'.players = s.players.map f ∧
    (∀ pl, (f pl).roomPlayerId = pl.roomPlayerId) ∧ ∀ pl ∈ s.players,
      (f pl).position = pl.position ∧ ((f pl).bankrupt = true → (f pl).cash = pl.cash ∧
        pl.bankrupt = true ∨ (f pl).cash = 0)

theorem InPlace.find (h : InPlace s s') {q : RoomPlayerId} {pl' : GameEnginePlayer}
    (hpl' : s'.player? q = some pl') : ∃ pl, s.player? q = some pl ∧
      pl'.position = pl.position ∧
      (pl'.bankrupt = true → pl'.cash = pl.cash ∧ pl.bankrupt = true ∨ pl'.cash = 0) := by
  obtain ⟨f, hs, hid, hf⟩ := h
  unfold GameEngineState.player? at hpl'
  rw [hs, Keyed.find_map _ hid] at hpl'
  obtain ⟨pl, hpl, rfl⟩ := Option.map_eq_some_iff.mp hpl'
  exact ⟨pl, hpl, hf pl (GameEngineState.player?_mem hpl)⟩

theorem InPlace.listed (h : InPlace s s') {q : RoomPlayerId} {pl : GameEnginePlayer}
    (hpl : s.player? q = some pl) : ∃ pl', s'.player? q = some pl' ∧
      pl'.position = pl.position := by
  obtain ⟨f, hs, hid, hf⟩ := h
  refine ⟨f pl, ?_, (hf pl (GameEngineState.player?_mem hpl)).1⟩
  unfold GameEngineState.player?
  rw [hs, Keyed.find_map _ hid]
  exact congrArg (Option.map f) hpl

theorem InPlace.refl (h : s'.players = s.players) : InPlace s s' :=
  ⟨id, by rw [List.map_id, h], fun _ => rfl, fun _ _ => ⟨rfl, fun hb => .inl ⟨rfl, hb⟩⟩⟩

/-- Free tiles stay free. -/
def KeepsFree (s s' : GameEngineState) : Prop :=
  ∀ key x, s.property? key = some x → x.ownerRoomPlayerId = none →
    ∃ x', s'.property? key = some x' ∧ x'.ownerRoomPlayerId = none

theorem KeepsFree.refl (h : s'.properties = s.properties) : KeepsFree s s' := by
  intro key x hx hfree
  unfold GameEngineState.property?
  rw [h]
  exact ⟨x, hx, hfree⟩

theorem KeepsFree.map {g : GameEngineProperty → GameEngineProperty}
    (hs : s'.properties = s.properties.map g) (hkey : ∀ x, (g x).tileKey = x.tileKey)
    (hfree : ∀ x ∈ s.properties, x.ownerRoomPlayerId = none → (g x).ownerRoomPlayerId = none) :
    KeepsFree s s' := by
  intro key x hx hnone
  refine ⟨g x, ?_, hfree x (GameEngineState.property?_mem hx) hnone⟩
  unfold GameEngineState.property?
  rw [hs, Keyed.find_map _ hkey]
  exact congrArg (Option.map g) hx

theorem isOwnableAndUnowned_iff {tile : GameTile} :
    isOwnableAndUnowned s tile = true ↔ isOwnableTile tile = true ∧
      ∃ x, s.property? tile.key = some x ∧ x.ownerRoomPlayerId = none := by
  unfold isOwnableAndUnowned
  rw [Bool.and_eq_true, Option.any_eq_true]
  simp only [Option.isNone_iff_eq_none]

theorem PendingOk.mono {key : TileKey} (h : PendingOk s key)
    (hcurrent : s'.currentTurnRoomPlayerId = s.currentTurnRoomPlayerId) (hplace : InPlace s s')
    (hfree : KeepsFree s s') : PendingOk s' key := by
  obtain ⟨pl, tile, hpl, htile, hkey, hown⟩ := h
  obtain ⟨pl', hpl', hposition⟩ := hplace.listed hpl
  obtain ⟨hownable, x, hx, hnone⟩ := isOwnableAndUnowned_iff.mp hown
  rw [GameEngineState.board_eq] at htile
  refine ⟨pl', tile, hcurrent ▸ hpl', ?_, hkey,
    isOwnableAndUnowned_iff.mpr ⟨hownable, hfree _ x hx hnone⟩⟩
  rw [hposition, GameEngineState.board_eq]
  exact htile

theorem AuctionOk.mono {auction : GameEngineAuction} (h : AuctionOk s auction)
    (hplace : InPlace s s') (hfree : KeepsFree s s') : AuctionOk s' auction where
  remains := h.remains
  opening := h.opening
  leader := h.leader
  leaderActive := h.leaderActive
  retired := by
    intro q hq pl' hpl' hb
    obtain ⟨pl, hpl, _, hcash⟩ := hplace.find hpl'
    rcases hcash hb with ⟨hcash, hb⟩ | hcash
    · rw [hcash]
      exact h.retired q hq pl hpl hb
    · exact hcash
  free := by
    obtain ⟨tile, x, htile, hx, hnone⟩ := h.free
    obtain ⟨x', hx', hnone'⟩ := hfree _ x hx hnone
    refine ⟨tile, x', ?_, hx', hnone'⟩
    rw [GameEngineState.board_eq] at htile ⊢
    exact htile

/-- What the game waits for stays valid. -/
theorem PhaseOk.frame (h : PhaseOk s) (hsame : SamePhase s s') (hplace : InPlace s s')
    (hfree : KeepsFree s s') : PhaseOk s' where
  pending := by rw [hsame.pending, hsame.phase]; exact h.pending
  auction := by rw [hsame.auction, hsame.phase]; exact h.auction
  debt := by rw [hsame.debt, hsame.phase]; exact h.debt
  pendingOk := by
    intro key hkey
    exact (h.pendingOk key (hsame.pending ▸ hkey)).mono hsame.current hplace hfree
  auctionOk := by
    intro auction hauction
    exact (h.auctionOk auction (hsame.auction ▸ hauction)).mono hplace hfree
  debtOk := by
    intro debt hdebt
    refine (h.debtOk debt (hsame.debt ▸ hdebt)).mono hsame.current fun q hq => ?_
    obtain ⟨pl, hpl⟩ := Option.isSome_iff_exists.mp hq
    obtain ⟨pl', hpl', _⟩ := hplace.listed hpl
    rw [hpl']
    rfl

end Phases

/-! ## The actions -/

section Actions

variable {c : Condition} {s s' : GameEngineState} {p : RoomPlayerId} {pl : GameEnginePlayer}
  {events : List GameEngineEvent}

theorem SamePlayers.keepsListed (h : SamePlayers s s') (q : RoomPlayerId)
    (hq : (s.player? q).isSome) : (s'.player? q).isSome := by
  rwa [h.listed]

theorem AwaitsRoll.idle (h : AwaitsRoll s) : isIdle s.phase = true := by
  rcases h with h | h <;> rw [h] <;> rfl

theorem pendingOk_of_moved (hcurrent : s'.currentTurnRoomPlayerId = p) {pl' : GameEnginePlayer}
    (hpl' : s'.player? p = some pl') {tile : GameTile}
    (htile : classicGameBoard.tiles[pl'.position]? = some tile)
    (hown : isOwnableAndUnowned s' tile = true) : PendingOk s' tile.key := by
  refine ⟨pl', tile, by rw [hcurrent]; exact hpl', ?_, rfl, hown⟩
  rw [GameEngineState.board_eq]
  exact htile

theorem inPlace_update (hv : Valid s) (ho : OnTurn s p pl)
    {f : GameEnginePlayer → GameEnginePlayer}
    (hs : s'.players = Keyed.modify GameEnginePlayer.roomPlayerId s.players p f)
    (hid : ∀ x, (f x).roomPlayerId = x.roomPlayerId) (hposition : ∀ x, (f x).position = x.position)
    (hbankrupt : ∀ x, (f x).bankrupt = x.bankrupt) : InPlace s s' := by
  refine ⟨_, hs, fun x => ?_, fun x hx => ?_⟩
  · split
    · exact hid x
    · rfl
  · split
    · rename_i hxp
      have hfind := hv.players.find hx
      rw [hxp, ho.player] at hfind
      cases hfind
      refine ⟨hposition pl, fun hb => ?_⟩
      rw [hbankrupt, ho.active] at hb
      cases hb
    · exact ⟨rfl, fun hb => .inl ⟨rfl, hb⟩⟩

theorem player?_of_modify {q : RoomPlayerId} {f : GameEnginePlayer → GameEnginePlayer}
    (hs : s'.players = Keyed.modify GameEnginePlayer.roomPlayerId s.players q f)
    (hid : ∀ x, (f x).roomPlayerId = x.roomPlayerId) (hpl : s.player? q = some pl) :
    s'.player? q = some (f pl) := by
  unfold GameEngineState.player?
  rw [hs, Keyed.find_modify_self _ hid]
  exact congrArg (Option.map f) hpl

theorem movedState_control {dice : DiceRoll} {suppressDoubles : Bool} {tile : GameTile} :
    let moved := movedState s p dice suppressDoubles tile
    moved.phase = (if isOwnableAndUnowned s tile then .awaitingPropertyDecision
      else .awaitingTurnEnd) ∧
    moved.pendingTileKey = (if isOwnableAndUnowned s tile then some tile.key else none) ∧
    moved.auction = s.auction ∧ moved.debt = s.debt ∧ moved.tradeOffer = s.tradeOffer ∧
    moved.currentTurnRoomPlayerId = s.currentTurnRoomPlayerId := by
  obtain ⟨count, again, hdoubles⟩ := doublesState_eq s dice suppressDoubles
  unfold movedState
  rw [hdoubles]
  exact ⟨rfl, rfl, rfl, rfl, rfl, rfl⟩

theorem isOwnableAndUnowned_congr {tile : GameTile} (h : s'.properties = s.properties) :
    isOwnableAndUnowned s' tile = isOwnableAndUnowned s tile := by
  unfold isOwnableAndUnowned GameEngineState.property?
  rw [h]

theorem Turn.phaseOk (hv : Valid s) (ho : OnTurn s p pl) (h : Turn p pl s events s') :
    PhaseOk s' := by
  have hlisted := (h.players hv ho).same.keepsListed
  have hproperties := h.properties
  cases h with
  | @moved dice suppressDoubles tile hphase hfree htile =>
    obtain ⟨_, hauction, hdebt⟩ := hv.phase.idle_none hphase.idle
    obtain ⟨hphase', hpending', hauction', hdebt', _, hcurrent'⟩ :=
      @movedState_control s p dice suppressDoubles tile
    cases hown : isOwnableAndUnowned s tile with
    | true =>
      rw [hown, if_pos rfl] at hphase' hpending'
      refine .deciding hphase' hpending' ?_ (hauction'.trans hauction) (hdebt'.trans hdebt)
      refine pendingOk_of_moved (hcurrent'.trans ho.current)
        (player?_of_modify movedState_players (fun _ => rfl) ho.player) ?_ ?_
      · rw [GameEngineState.board_eq] at htile ⊢
        exact htile
      · rw [isOwnableAndUnowned_congr hproperties]
        exact hown
    | false =>
      rw [hown, if_neg Bool.false_ne_true] at hphase' hpending'
      exact .idle (by rw [hphase']; rfl) hpending' (hauction'.trans hauction)
        (hdebt'.trans hdebt)
  | thirdDoubles hphase =>
    obtain ⟨_, hauction, hdebt⟩ := hv.phase.idle_none hphase.idle
    exact .idle rfl rfl hauction hdebt
  | escaped hphase | forcedFine hphase =>
    refine hv.phase.quiet ⟨rfl, rfl, rfl, rfl, rfl⟩ ?_ ?_ hlisted <;>
      rcases hphase with h | h <;> rw [h] <;> decide
  | stayed hphase =>
    obtain ⟨hpending, hauction, hdebt⟩ := hv.phase.idle_none hphase.idle
    exact .idle rfl hpending hauction hdebt
  | fineOwed hphase hjail hcount hcash =>
    refine .owing rfl rfl rfl rfl ?_
    exact {
      debtor := ho.current.symm
      amount := (by decide : (0 : Int) < 50)
      creditor := fun _ hc => by cases hc }
  | finePaid =>
    exact hv.phase.frame ⟨rfl, rfl, rfl, rfl, rfl⟩
      (inPlace_update hv ho rfl (fun _ => rfl) (fun _ => rfl) (fun _ => rfl)) (.refl rfl)
  | cardUsed =>
    exact hv.phase.frame ⟨rfl, rfl, rfl, rfl, rfl⟩
      (inPlace_update hv ho rfl (fun _ => rfl) (fun _ => rfl) (fun _ => rfl)) (.refl rfl)
  | playsAgain hphase | passesTurn hphase =>
    obtain ⟨hpending, hauction, hdebt⟩ := hv.phase.idle_none (by rw [hphase]; rfl)
    exact .idle rfl hpending hauction hdebt

theorem Arrived.idle (ha : Arrived s p pl) : isIdle s.phase = true := by
  rw [ha.phase]
  rfl

theorem Landing.phaseOk (hv : Valid s) (ha : Arrived s p pl) (h : Landing p pl s events s') :
    PhaseOk s' := by
  have hlisted := (h.players hv ha.toOnTurn).same.keepsListed
  have hcash := (hv.playerOk ha.player).cash
  obtain ⟨hpending, hauction, hdebt⟩ := hv.phase.idle_none ha.idle
  have hproperties := h.properties
  cases h with
  | taxPaid | rentPaid | cardSettled | cardKept =>
    refine hv.phase.quiet ⟨rfl, rfl, rfl, rfl, rfl⟩ ?_ ?_ hlisted <;> rw [ha.phase] <;> decide
  | owes hdebtor hlow hreason =>
    refine .owing rfl rfl rfl rfl ?_
    refine {
      debtor := hdebtor.trans ha.current.symm
      amount := by omega
      creditor := ?_ }
    intro creditor hcreditor
    rcases hreason with ⟨_, hnone⟩ | ⟨_, owner, howner, hne, x, hx, hxo⟩
    · rw [hnone] at hcreditor
      cases hcreditor
    · rw [howner] at hcreditor
      cases hcreditor
      obtain ⟨cl, hcl, _⟩ := (hv.tiles.tile x hx).owner _ hxo
      exact ⟨hdebtor ▸ hne, cl, hcl⟩
  | cardOwed _ _ hlow =>
    refine .owing rfl rfl rfl rfl ?_
    exact {
      debtor := ha.current.symm
      amount := by dsimp only; omega
      creditor := fun _ hc => by cases hc }
  | sentToJail | cardJailed => exact .idle rfl rfl hauction hdebt
  | @cardMoved deckKey card decks target passedGo hdraw hmove hkeep htarget =>
    have hboard : classicGameBoard.tiles[target.index]? = some target := by
      rw [GameEngineState.board_eq] at htarget
      obtain ⟨i, hi⟩ := List.getElem?_of_mem htarget
      have hlt : i < 40 := (List.getElem?_eq_some_iff.mp hi).1
      have hindex := board_index ⟨i, hlt⟩
      simp only [hi, Option.map_some, Option.some.injEq] at hindex
      rw [hindex]
      exact hi
    cases hown : isOwnableAndUnowned { s with decks } target with
    | true =>
      have hs : cardMovedState { s with decks } p target passedGo =
          { { s with decks }.updatePlayer p (cardMovedPlayer s.board target passedGo) with
            phase := .awaitingPropertyDecision
            pendingTileKey := some target.key } := by
        unfold cardMovedState
        dsimp only
        rw [if_pos hown]
        rfl
      rw [hs]
      refine .deciding rfl rfl ?_ hauction hdebt
      have hfind : (({ s with decks } : GameEngineState).updatePlayer p
          (cardMovedPlayer s.board target passedGo)).player? p =
          some (cardMovedPlayer s.board target passedGo pl) := by
        apply player?_of_modify
        · rfl
        · intro _; rfl
        · exact ha.player
      refine pendingOk_of_moved ?_ hfind hboard hown
      exact ha.current
    | false =>
      have hs : cardMovedState { s with decks } p target passedGo =
          { { s with decks }.updatePlayer p (cardMovedPlayer s.board target passedGo) with
            phase := .awaitingTurnEnd
            pendingTileKey := none } := by
        unfold cardMovedState
        dsimp only
        rw [if_neg (by rw [hown]; exact Bool.false_ne_true)]
        rfl
      rw [hs]
      exact .idle rfl rfl hauction hdebt

theorem MayRaiseCash.phase (h : MayRaiseCash s p) :
    s.phase ≠ .awaitingPropertyDecision ∧ s.phase ≠ .awaitingAuctionBid := by
  rcases h with h | ⟨h, _⟩ <;> rw [h] <;> decide

theorem Estate.phaseOk (hv : Valid s) (ho : OnTurn s p pl) (h : Estate p pl s events s') :
    PhaseOk s' := by
  have hlisted := (h.players hv ho).same.keepsListed
  cases h with
  | bought hphase =>
    have hauction := hv.phase.auction_none (by rw [hphase]; decide)
    have hdebt := hv.phase.debt_none (by rw [hphase]; decide)
    exact .idle rfl rfl hauction hdebt
  | houseBuilt hphase | hotelBuilt hphase | unmortgaged hphase =>
    refine hv.phase.quiet ⟨rfl, rfl, rfl, rfl, rfl⟩ ?_ ?_ hlisted <;> rw [hphase] <;> decide
  | hotelSold hphase | houseSold hphase | mortgaged hphase =>
    exact hv.phase.quiet ⟨rfl, rfl, rfl, rfl, rfl⟩ hphase.phase.1 hphase.phase.2 hlisted

/-! ## Auctions -/

theorem mem_getActivePlayers {x : GameEnginePlayer} :
    x ∈ getActivePlayers s ↔ x ∈ s.players ∧ x.bankrupt = false := by
  simp [getActivePlayers, List.mem_insertionSort]

theorem getActivePlayers_nodup (hv : Valid s) :
    ((getActivePlayers s).map GameEnginePlayer.roomPlayerId).Nodup := by
  have hperm := List.perm_insertionSort (fun left right : GameEnginePlayer =>
    left.seatNumber ≤ right.seatNumber) (s.players.filter fun player => !player.bankrupt)
  refine (hperm.map GameEnginePlayer.roomPlayerId).nodup_iff.mpr ?_
  exact hv.players.ids.sublist (List.filter_sublist.map _)

theorem openedAuction_ok (hv : Valid s) {key : TileKey} {expiresAt : Nat} {tile : OwnableTile}
    {property : GameEngineProperty} (hphase : s.phase = .awaitingPropertyDecision)
    (htile : (s.board.tile? key).bind GameTile.ownable? = some tile)
    (hproperty : s.property? key = some property) (hfree : property.ownerRoomPlayerId = none) :
    AuctionOk s (openedAuction s key expiresAt) where
  remains := by
    intro hnone
    refine hv.table.company ⟨by rw [hphase]; decide, by rw [hphase]; decide⟩ (.inl ?_)
    have hlength := congrArg List.length hnone
    simp only [GameEngineAuction.activeBidders, openedAuction, List.not_mem_nil, not_false_eq_true,
      decide_true, List.filter_true, List.length_map, List.length_nil] at hlength
    omega
  opening := fun _ => rfl
  leader := fun h => by cases h
  leaderActive := fun q h => by cases h
  retired := by
    intro q hq ql hql hb
    obtain ⟨x, hx, rfl⟩ := List.mem_map.mp hq
    obtain ⟨hxs, hactive⟩ := mem_getActivePlayers.mp hx
    rw [hv.players.find hxs] at hql
    cases hql
    rw [hactive] at hb
    cases hb
  free := ⟨tile, property, htile, hproperty, hfree⟩

theorem Bidding.phaseOk (hv : Valid s) {condition : GameEngineState → RoomPlayerId → Prop}
    (h : Bidding condition p s events s') : PhaseOk s' := by
  cases h with
  | @declined pl tile property expiresAt ho hphase hpending htile hproperty hfree =>
    have hdebt := hv.phase.debt_none (by rw [hphase]; decide)
    have hok : AuctionOk s (openedAuction s tile.key expiresAt) :=
      openedAuction_ok hv hphase htile hproperty hfree
    refine .bidding rfl rfl rfl ?_ hdebt
    exact ⟨hok.remains, hok.opening, hok.leader, hok.leaderActive, hok.retired, hok.free⟩
  | @bid auction bidder amount expiresAt hact hmin hbidder hcash =>
    have hok := hv.phase.auctionOk auction hact.running
    have hpending := hv.phase.pending_none (by rw [hact.phase]; decide)
    have hdebt := hv.phase.debt_none (by rw [hact.phase]; decide)
    refine .bidding hact.phase hpending rfl ?_ hdebt
    refine {
      remains := ?_
      opening := fun h => by cases h
      leader := ?_
      leaderActive := fun q hq => by cases hq; exact hact.active
      retired := hok.retired
      free := hok.free }
    · have hremains : decide (p ∉ auction.passedRoomPlayerIds) = true :=
        decide_eq_true hact.remains
      exact List.ne_nil_of_mem (List.mem_filter.mpr ⟨hact.active, hremains⟩)
    · intro _
      rcases (minimumAuctionBid_le : minimumAuctionBid ≤ getMinimumAuctionBid auction ∨ _) with
        hle | ⟨hpos, hnext⟩
      · exact le_trans hle hmin
      · cases hleader : auction.highestBidderRoomPlayerId with
        | none =>
          rw [hok.opening hleader] at hpos
          cases hpos
        | some leader =>
          have hbid := hok.leader (by rw [hleader]; rfl)
          dsimp only [afterBid]
          omega
  | @passed auction expiresAt hact hremain =>
    have hok := hv.phase.auctionOk auction hact.running
    have hpending := hv.phase.pending_none (by rw [hact.phase]; decide)
    have hdebt := hv.phase.debt_none (by rw [hact.phase]; decide)
    refine .bidding hact.phase hpending rfl ?_ hdebt
    exact ⟨hremain, hok.opening, hok.leader, hok.leaderActive, hok.retired, hok.free⟩
  | bidWon hact | passedWon hact | passedUnsold hact =>
    have hpending := hv.phase.pending_none (by rw [hact.phase]; decide)
    have hdebt := hv.phase.debt_none (by rw [hact.phase]; decide)
    exact .idle rfl hpending rfl hdebt

/-! ## Trades -/

theorem exchanged_inPlace (hv : Valid s) {trade : GameEngineTradeOffer}
    {fromPlayer toPlayer : GameEnginePlayer} (hcan : CanExchange s trade fromPlayer toPlayer) :
    InPlace s (exchanged s trade) := by
  refine ⟨_, exchanged_players, fun _ => rfl, fun x hx => ⟨rfl, fun hb => .inl ⟨?_, hb⟩⟩⟩
  -- the parties of a trade are not bankrupt
  have hne : ∀ {q ql}, s.player? q = some ql → ql.bankrupt = false → x.roomPlayerId ≠ q := by
    rintro q ql hql hactive rfl
    rw [hv.players.find hx] at hql
    cases hql
    exact Bool.false_ne_true (hactive.symm.trans hb)
  simp only [if_neg (hne hcan.fromFound hcan.fromActive),
    if_neg (hne hcan.toFound hcan.toActive), add_zero]

theorem exchanged_keepsFree (hv : Valid s) {trade : GameEngineTradeOffer}
    {fromPlayer toPlayer : GameEnginePlayer} (hcan : CanExchange s trade fromPlayer toPlayer) :
    KeepsFree s (exchanged s trade) := by
  refine .map rfl (exchangedTile_key s.board trade) fun x hx hnone => ?_
  rcases exchangedTile_cases s.board trade x with ⟨h, _⟩ | ⟨q, hq, _⟩
  · rw [h]
    exact hnone
  · have howned : x.ownerRoomPlayerId ≠ none := by
      have hfind := hv.tiles.find hx
      rcases hq with ⟨_, hkey⟩ | ⟨_, hkey⟩
      · obtain ⟨y, hy, howner⟩ := hcan.requested _ hkey
        rw [hfind] at hy
        cases hy
        rw [howner]
        exact fun hcontra => by cases hcontra
      · obtain ⟨y, hy, howner⟩ := hcan.offered _ hkey
        rw [hfind] at hy
        cases hy
        rw [howner]
        exact fun hcontra => by cases hcontra
    exact absurd hnone howned

theorem Trade.phaseOk (hv : Valid s) {condition : GameEngineState → GameEngineTradeOffer → Prop}
    (h : Trade condition p s events s') : PhaseOk s' := by
  cases h with
  | marked =>
    refine hv.phase.frame ⟨rfl, rfl, rfl, rfl, rfl⟩ ?_ (.refl rfl)
    refine ⟨_, rfl, fun x => ?_, fun x _ => ?_⟩
    · split <;> rfl
    · split <;> exact ⟨rfl, fun hb => .inl ⟨rfl, hb⟩⟩
  | offered | refused | rejected | cancelled =>
    exact hv.phase.frame ⟨rfl, rfl, rfl, rfl, rfl⟩ (.refl rfl) (.refl rfl)
  | executed _ _ hcan =>
    exact hv.phase.frame ⟨rfl, rfl, rfl, rfl, rfl⟩ (exchanged_inPlace hv hcan)
      (exchanged_keepsFree hv hcan)

/-! ## Settlements -/

theorem debtPaidState_control {debt : GameEngineDebt} :
    (debtPaidState s debt).tradeOffer = s.tradeOffer ∧
    (debtPaidState s debt).currentTurnRoomPlayerId = s.currentTurnRoomPlayerId := by
  unfold debtPaidState
  cases debt.creditorRoomPlayerId with
  | none => dsimp only [Option.elim_none]; split <;> exact ⟨rfl, rfl⟩
  | some creditor => dsimp only [Option.elim_some]; split <;> exact ⟨rfl, rfl⟩

/-- A bankruptcy out of turn leaves what the player on turn has to do. -/
theorem liquidatedState_phaseOk (hv : Valid s) {creditor : Option RoomPlayerId}
    {decks : GameEngineDecks} (hother : s.currentTurnRoomPlayerId ≠ p) :
    PhaseOk (liquidatedState s p creditor decks) := by
  have hdebt : (liquidatedState s p creditor decks).debt = s.debt := by
    change s.debt.filter _ = s.debt
    cases hdebt : s.debt with
    | none => rfl
    | some debt =>
      have hdebtor := (hv.phase.debtOk debt hdebt).debtor
      rw [Option.filter_some, if_pos]
      simpa [hdebtor] using hother
  refine hv.phase.frame ⟨rfl, rfl, rfl, hdebt, rfl⟩ ?_ ?_
  · refine ⟨_, rfl, fun x => ?_, fun x _ => ?_⟩
    · split <;> rfl
    · split
      · exact ⟨rfl, fun _ => .inr rfl⟩
      · exact ⟨rfl, fun hb => .inl ⟨rfl, hb⟩⟩
  · refine .map rfl ?_ fun x _ hnone => ?_
    · intro x
      rcases liquidateProperty_cases (p := p) creditor x with ⟨_, hx⟩ | ⟨_, hx⟩ <;> rw [hx]
    · rcases liquidateProperty_cases (p := p) creditor x with ⟨_, hx⟩ | ⟨howner, _⟩
      · rw [hx]
        exact hnone
      · rw [hnone] at howner
        cases howner

theorem Settlement.phaseOk (hv : Valid s) {condition : GameEngineState → RoomPlayerId → Prop}
    (h : Settlement condition p s events s') : PhaseOk s' := by
  cases h with
  | debtPaid => exact .idle rfl rfl rfl rfl
  | lastBankruptcy | finished => exact .idle rfl rfl rfl rfl
  | bankruptcy _ _ _ hother => exact liquidatedState_phaseOk hv hother
  | ownBankruptcy hbankrupt _ _ hown =>
    refine .idle rfl rfl rfl ?_
    change s.debt.filter _ = none
    cases hdebt : s.debt with
    | none => rfl
    | some debt =>
      have hdebtor := (hv.phase.debtOk debt hdebt).debtor
      rw [Option.filter_some, if_neg]
      simp [hdebtor, hown]

/-- Actions keep the phase and its data together. -/
theorem Action.phaseOk (hv : Valid s) (h : Action c p s events s') : PhaseOk s' := by
  cases h with
  | turn h =>
    obtain ⟨pl, ho, hturn⟩ := h
    exact hturn.phaseOk hv ho
  | landing h =>
    obtain ⟨pl, ha, hlanding⟩ := h
    exact hlanding.phaseOk hv ha
  | estate h =>
    obtain ⟨pl, ho, hestate⟩ := h
    exact hestate.phaseOk hv ho
  | bidding h => exact h.phaseOk hv
  | trade h => exact h.phaseOk hv
  | settlement h => exact h.phaseOk hv

end Actions

end Rules
end LivePoly
