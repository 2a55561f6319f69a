import LivePoly.Rules.Seats

/-!
# Rules.Retired

A bankrupt player is out of the game: nothing is owned, owed or offered any more. The code does not
look at what waits for the player that goes bankrupt, so this holds of the games in which nobody
goes bankrupt as the creditor of a debt, with a trade pending, or out of turn as a bidder.
-/

namespace LivePoly
namespace Rules

open Engine Checked

/-- The game waits for `q`: a debt is owed to `q`, a trade with `q` is pending, or `q` leads an
auction or may still bid in it. -/
inductive WaitsFor (s : GameEngineState) (q : RoomPlayerId) : Prop
  | creditor {debt : GameEngineDebt} (hdebt : s.debt = some debt)
      (hcreditor : debt.creditorRoomPlayerId = some q)
  | party {trade : GameEngineTradeOffer} (htrade : s.tradeOffer = some trade)
      (hparty : trade.fromRoomPlayerId = q ∨ trade.toRoomPlayerId = q)
  | bidder {auction : GameEngineAuction} (hauction : s.auction = some auction)
      (hbidder : auction.highestBidderRoomPlayerId = some q ∨ q ∈ auction.activeBidders)

/-- The bankruptcy of `p` ends the game, or nothing waits for `p`. The auction that is open when
the player on turn goes bankrupt is closed. -/
def LeavesCleanly (s : GameEngineState) (p : RoomPlayerId) : Prop :=
  EndsGame (s.updatePlayer p GameEnginePlayer.liquidated) ∨
    (∀ trade, s.tradeOffer = some trade →
      trade.fromRoomPlayerId ≠ p ∧ trade.toRoomPlayerId ≠ p) ∧
    (s.currentTurnRoomPlayerId ≠ p → ¬ WaitsFor s p)

/-- Players go bankrupt when nothing waits for them. -/
def retiring : Condition := ⟨fun _ _ => True, fun _ _ => True, LeavesCleanly⟩

/-- The player is out of the game. -/
structure Retired (s : GameEngineState) (pl : GameEnginePlayer) : Prop where
  cash : pl.cash = 0
  tiles : ∀ x ∈ s.properties, x.ownerRoomPlayerId ≠ some pl.roomPlayerId
  cards : pl.getOutOfJailFreeCards = 0 ∧ pl.getOutOfJailFreeCardKeys = []
  free : pl.inJail = false
  creditor : ∀ debt, s.debt = some debt → debt.creditorRoomPlayerId ≠ some pl.roomPlayerId
  party : ∀ trade, s.tradeOffer = some trade →
    trade.fromRoomPlayerId ≠ pl.roomPlayerId ∧ trade.toRoomPlayerId ≠ pl.roomPlayerId
  bidder : ∀ auction, s.auction = some auction →
    auction.highestBidderRoomPlayerId ≠ some pl.roomPlayerId ∧
      pl.roomPlayerId ∉ auction.activeBidders

/-- The game waits for nobody who is out of it, and a bankrupt player has no cash. -/
structure WaitsForActive (s : GameEngineState) : Prop where
  active : ∀ q, WaitsFor s q → IsActive s q
  broke : ∀ pl ∈ s.players, pl.bankrupt = true → pl.cash = 0

section Waiting

variable {s s' : GameEngineState} {p q : RoomPlayerId} {pl : GameEnginePlayer}
  {events : List GameEngineEvent}

/-! ## Whom a step makes the game wait for -/

theorem WaitsFor.mono (h : WaitsFor s' q) (hdebt : s'.debt = s.debt ∨ s'.debt = none)
    (hoffer : s'.tradeOffer = s.tradeOffer ∨ s'.tradeOffer = none)
    (hauction : s'.auction = s.auction ∨ s'.auction = none) : WaitsFor s q := by
  cases h with
  | creditor hd hcreditor =>
    rcases hdebt with heq | heq
    · exact .creditor (heq.symm.trans hd) hcreditor
    · cases heq.symm.trans hd
  | party ht hparty =>
    rcases hoffer with heq | heq
    · exact .party (heq.symm.trans ht) hparty
    · cases heq.symm.trans ht
  | bidder ha hbidder =>
    rcases hauction with heq | heq
    · exact .bidder (heq.symm.trans ha) hbidder
    · cases heq.symm.trans ha

/-- A new debt: the game waits for its creditor, or for someone as before. -/
theorem WaitsFor.ofDebt {debt : GameEngineDebt} (h : WaitsFor s' q) (hdebt : s'.debt = some debt)
    (hoffer : s'.tradeOffer = s.tradeOffer) (hauction : s'.auction = none) :
    debt.creditorRoomPlayerId = some q ∨ WaitsFor s q := by
  cases h with
  | creditor hd hcreditor =>
    cases hdebt.symm.trans hd
    exact .inl hcreditor
  | party ht hparty => exact .inr (.party (hoffer.symm.trans ht) hparty)
  | bidder ha => cases hauction.symm.trans ha

theorem Turn.waitsFor (h : Turn p pl s events s') (hq : WaitsFor s' q) : WaitsFor s q := by
  cases h with
  | @moved dice suppressDoubles tile =>
    obtain ⟨_, _, hauction, hdebt, hoffer, _⟩ := @movedState_control s p dice suppressDoubles tile
    exact hq.mono (.inl hdebt) (.inl hoffer) (.inl hauction)
  | fineOwed =>
    rcases hq.ofDebt (s := s) rfl rfl rfl with hcreditor | hold
    · cases hcreditor
    · exact hold
  | thirdDoubles | escaped | stayed | forcedFine | finePaid | cardUsed =>
    exact hq.mono (.inl rfl) (.inl rfl) (.inl rfl)
  | playsAgain | passesTurn => exact hq.mono (.inl rfl) (.inr rfl) (.inl rfl)

theorem Landing.waitsFor (hv : Valid s) (h : Landing p pl s events s') (hq : WaitsFor s' q) :
    WaitsFor s q ∨ IsActive s q := by
  cases h with
  | taxPaid | rentPaid | cardSettled | cardKept | sentToJail | cardJailed =>
    exact .inl (hq.mono (.inl rfl) (.inl rfl) (.inl rfl))
  | @owes debt hdebtor hcash hreason =>
    rcases hq.ofDebt (s := s) rfl rfl rfl with hcreditor | hold
    · rcases hreason with ⟨_, hnone⟩ | ⟨_, creditor, hsome, _, x, hx, howner⟩
      · cases hnone.symm.trans hcreditor
      · cases hsome.symm.trans hcreditor
        exact .inr ((hv.tiles.tile x hx).owner _ howner)
    · exact .inl hold
  | cardOwed =>
    rcases hq.ofDebt (s := s) rfl rfl rfl with hcreditor | hold
    · cases hcreditor
    · exact .inl hold
  | @cardMoved deckKey card decks target passedGo =>
    left
    have hcontrol : ∀ moved, moved = cardMovedState { s with decks } p target passedGo →
        moved.debt = s.debt ∧ moved.tradeOffer = s.tradeOffer ∧ moved.auction = s.auction := by
      rintro moved rfl
      unfold cardMovedState
      dsimp only
      split <;> exact ⟨rfl, rfl, rfl⟩
    obtain ⟨hdebt, hoffer, hauction⟩ := hcontrol _ rfl
    exact hq.mono (.inl hdebt) (.inl hoffer) (.inl hauction)

theorem Estate.waitsFor (h : Estate p pl s events s') (hq : WaitsFor s' q) : WaitsFor s q := by
  cases h <;> exact hq.mono (.inl rfl) (.inl rfl) (.inl rfl)

theorem Bidding.waitsFor (hv : Valid s) {condition : GameEngineState → RoomPlayerId → Prop}
    (h : Bidding condition p s events s') (hq : WaitsFor s' q) : WaitsFor s q ∨ IsActive s q := by
  cases h with
  | declined =>
    cases hq with
    | creditor hdebt hcreditor => exact .inl (.creditor hdebt hcreditor)
    | party htrade hparty => exact .inl (.party htrade hparty)
    | bidder hauction hbidder =>
      cases hauction
      rcases hbidder with hleader | hbidder
      · cases hleader
      · obtain ⟨x, hx, rfl⟩ := List.mem_map.mp (List.mem_filter.mp hbidder).1
        obtain ⟨hmem, hactive⟩ := mem_getActivePlayers.mp hx
        exact .inr ⟨x, hv.players.find hmem, hactive⟩
  | @bid auction bidder amount expiresAt hact =>
    left
    cases hq with
    | creditor hdebt hcreditor => exact .creditor hdebt hcreditor
    | party htrade hparty => exact .party htrade hparty
    | bidder hauction hbidder =>
      cases hauction
      rcases hbidder with hleader | hbidder
      · cases hleader
        refine .bidder hact.running (.inr (List.mem_filter.mpr ⟨hact.active, ?_⟩))
        exact decide_eq_true hact.remains
      · exact .bidder hact.running (.inr hbidder)
  | @passed auction expiresAt hact =>
    left
    cases hq with
    | creditor hdebt hcreditor => exact .creditor hdebt hcreditor
    | party htrade hparty => exact .party htrade hparty
    | bidder hauction hbidder =>
      cases hauction
      rcases hbidder with hleader | hbidder
      · exact .bidder hact.running (.inl hleader)
      · -- the list of those who passed only grows
        obtain ⟨hactive, hremains⟩ := List.mem_filter.mp hbidder
        refine .bidder hact.running (.inr (List.mem_filter.mpr ⟨hactive, decide_eq_true ?_⟩))
        intro hpassed
        refine of_decide_eq_true hremains (Distinct.mem_distinct.mpr ?_)
        exact List.mem_append_left _ hpassed
  | bidWon | passedWon | passedUnsold =>
    exact .inl (hq.mono (.inl rfl) (.inl rfl) (.inr rfl))

theorem Trade.waitsFor {condition : GameEngineState → GameEngineTradeOffer → Prop}
    (h : Trade condition p s events s') (hq : WaitsFor s' q) : WaitsFor s q ∨ IsActive s q := by
  cases h with
  | marked => exact .inl (hq.mono (.inl rfl) (.inl rfl) (.inl rfl))
  | refused | executed | rejected | cancelled =>
    exact .inl (hq.mono (.inl rfl) (.inr rfl) (.inl rfl))
  | @offered trade fromPlayer toPlayer hphase hfrom hoffer hcan =>
    cases hq with
    | creditor hdebt hcreditor => exact .inl (.creditor hdebt hcreditor)
    | bidder hauction hbidder => exact .inl (.bidder hauction hbidder)
    | party htrade hparty =>
      cases htrade
      rcases hparty with rfl | rfl
      · exact .inr ⟨fromPlayer, hcan.fromFound, hcan.fromActive⟩
      · exact .inr ⟨toPlayer, hcan.toFound, hcan.toActive⟩

/-- A bankruptcy after which the game goes on leaves whom the game waits for. -/
theorem liquidatedState_waitsFor {creditor : Option RoomPlayerId} {decks : GameEngineDecks}
    (h : WaitsFor (liquidatedState s p creditor decks) q) : WaitsFor s q := by
  cases h with
  | creditor hdebt hcreditor =>
    exact .creditor (Option.mem_filter_iff.mp hdebt).1 hcreditor
  | party htrade hparty => exact .party htrade hparty
  | bidder hauction hbidder => exact .bidder hauction hbidder

/-! ## Steps -/

theorem PlayerChange.broke {x y : GameEnginePlayer} (h : PlayerChange s p x y)
    (hb : y.bankrupt = true) (hdebt : ∀ debt, s.debt = some debt →
      debt.creditorRoomPlayerId = some x.roomPlayerId → x.bankrupt ≠ true) :
    y.cash = x.cash ∧ x.bankrupt = true := by
  have hbankrupt : x.bankrupt = true := by
    have hidentity := congrArg (fun i => i.2.2) h.identity
    exact hidentity.symm.trans hb
  have hretired : ∀ {P : Prop}, x.bankrupt = false → P := fun h =>
    absurd (h.symm.trans hbankrupt) Bool.false_ne_true
  cases h with
  | same | marked => exact ⟨rfl, hbankrupt⟩
  | cash hactive | moved _ hactive | jailed _ hactive | released _ hactive | waited _ hactive
  | keptCard _ hactive | usedCard _ hactive => exact hretired hactive
  | credited hpending hcreditor => exact absurd hbankrupt (hdebt _ hpending hcreditor)

theorem WaitsForActive.next (hv : Valid s) (hw : WaitsForActive s) (hchange : PlayersChange s p s')
    (h : ∀ q, WaitsFor s' q → WaitsFor s q ∨ IsActive s q) : WaitsForActive s' where
  active := by
    intro q hq
    rw [hchange.same.isActive hv.players.ids]
    rcases h q hq with hold | hactive
    · exact hw.active q hold
    · exact hactive
  broke := by
    obtain ⟨f, hs, hf⟩ := hchange
    rw [hs, List.forall_mem_map]
    intro x hx hb
    obtain ⟨hcash, hbankrupt⟩ := (hf x hx).broke hb fun debt hdebt hcreditor hactive => by
      obtain ⟨cl, hcl, hcreditor⟩ := hw.active _ (.creditor hdebt hcreditor)
      cases hcl.symm.trans (hv.players.find hx)
      exact Bool.false_ne_true (hcreditor.symm.trans hactive)
    rw [hcash]
    exact hw.broke x hx hbankrupt

theorem Settlement.waitsForActive (hv : Valid s) (hw : WaitsForActive s)
    (h : Settlement LeavesCleanly p s events s') : WaitsForActive s' := by
  have hbroke : ∀ {t : GameEngineState}, t.players = Keyed.modify GameEnginePlayer.roomPlayerId
      s.players p GameEnginePlayer.liquidated → ∀ y ∈ t.players, y.bankrupt = true → y.cash = 0 := by
    intro t ht y hy hb
    rw [ht] at hy
    obtain ⟨x, hx, rfl⟩ := List.mem_map.mp hy
    split
    · rfl
    · rename_i hother
      rw [if_neg hother] at hb
      exact hw.broke x hx hb
  cases h with
  | debtPaid hphase hdebt hdebtor hpl h0 hcash =>
    refine hw.next hv (debtPaid_players hv hphase hdebt hdebtor hpl h0 hcash) fun q hq => .inl ?_
    exact hq.mono (.inr rfl) (.inl debtPaidState_control.1) (.inr rfl)
  | lastBankruptcy =>
    refine ⟨fun q hq => ?_, hbroke rfl⟩
    cases hq with
    | creditor hdebt => cases hdebt
    | party htrade => cases htrade
    | bidder hauction => cases hauction
  | finished =>
    have hsame : PlayersChange s p (finishedState s) := .refl rfl
    refine hw.next hv hsame fun q hq => .inl ?_
    exact hq.mono (.inr rfl) (.inr rfl) (.inr rfl)
  | bankruptcy hbankrupt hclean hgoes hother =>
    refine ⟨fun q hq => ?_, hbroke rfl⟩
    have hold : WaitsFor s q := liquidatedState_waitsFor hq
    obtain hends | ⟨_, hnot⟩ := hclean
    · exact absurd hends hgoes
    · refine (liquidated_stillIn rfl q).mpr ⟨hw.active q hold, ?_⟩
      rintro rfl
      exact hnot hother hold
  | ownBankruptcy hbankrupt hclean hgoes hown =>
    refine ⟨fun q hq => ?_, hbroke rfl⟩
    cases hq with
    | creditor hdebt =>
      obtain ⟨hpending, hnot⟩ := Option.mem_filter_iff.mp hdebt
      have hdebtor := (hv.phase.debtOk _ hpending).debtor
      exact absurd (hdebtor.trans hown) (of_decide_eq_true hnot)
    | @party trade htrade hparty =>
      obtain hends | ⟨hnot, _⟩ := hclean
      · exact absurd hends hgoes
      · refine (liquidated_stillIn rfl q).mpr ⟨hw.active q (.party htrade hparty), ?_⟩
        rintro rfl
        obtain ⟨hfrom, hto⟩ := hnot trade htrade
        exact hparty.elim hfrom hto
    | bidder hauction => cases hauction

theorem Action.waitsForActive (hv : Valid s) (hw : WaitsForActive s)
    (h : Action retiring p s events s') : WaitsForActive s' := by
  cases h with
  | turn h =>
    obtain ⟨pl, ho, hturn⟩ := h
    exact hw.next hv (hturn.players hv ho) fun _ hq => .inl (hturn.waitsFor hq)
  | landing h =>
    obtain ⟨pl, ha, hlanding⟩ := h
    exact hw.next hv (hlanding.players hv ha.toOnTurn) fun _ => hlanding.waitsFor hv
  | estate h =>
    obtain ⟨pl, ho, hestate⟩ := h
    exact hw.next hv (hestate.players hv ho) fun _ hq => .inl (hestate.waitsFor hq)
  | bidding h => exact hw.next hv (h.players hv) fun _ => h.waitsFor hv
  | trade h => exact hw.next hv (h.players hv) fun _ => h.waitsFor
  | settlement h => exact h.waitsForActive hv hw

theorem WaitsForActive.retired (hv : Valid s) (hw : WaitsForActive s) (hpl : pl ∈ s.players)
    (hb : pl.bankrupt = true) : Retired s pl := by
  have hok := hv.players.player pl hpl
  obtain ⟨hfree, hkeys⟩ := hok.retired hb
  have hnot : ¬ IsActive s pl.roomPlayerId := by
    rintro ⟨found, hfound, hactive⟩
    cases hfound.symm.trans (hv.players.find hpl)
    exact Bool.false_ne_true (hactive.symm.trans hb)
  have hwaits : ¬ WaitsFor s pl.roomPlayerId := fun h => hnot (hw.active _ h)
  exact {
    cash := hw.broke pl hpl hb
    tiles := fun x hx howner => hnot ((hv.tiles.tile x hx).owner _ howner)
    cards := ⟨by rw [hok.cards, hkeys]; rfl, hkeys⟩
    free := hfree
    creditor := fun _ hdebt hcreditor => hwaits (.creditor hdebt hcreditor)
    party := fun _ htrade =>
      ⟨fun hfrom => hwaits (.party htrade (.inl hfrom)),
        fun hto => hwaits (.party htrade (.inr hto))⟩
    bidder := fun _ hauction =>
      ⟨fun hleader => hwaits (.bidder hauction (.inl hleader)),
        fun hbidder => hwaits (.bidder hauction (.inr hbidder))⟩ }

theorem Retired.nobodyWaits (h : Retired s pl) : ¬ WaitsFor s pl.roomPlayerId := by
  intro hwaits
  cases hwaits with
  | creditor hdebt hcreditor => exact h.creditor _ hdebt hcreditor
  | party htrade hparty =>
    obtain ⟨hfrom, hto⟩ := h.party _ htrade
    exact hparty.elim hfrom hto
  | bidder hauction hbidder =>
    obtain ⟨hleader, hnot⟩ := h.bidder _ hauction
    exact hbidder.elim hleader hnot

end Waiting

/-! ## Bankruptcies that leave traces -/

section Traces

variable {s : GameEngineState} {p : RoomPlayerId} {r : GameEngineResult}

theorem waitsFor_liquidatedState (hv : Valid s) {creditor : Option RoomPlayerId}
    {decks : GameEngineDecks} (h : WaitsFor s p) :
    WaitsFor (liquidatedState s p creditor decks) p := by
  cases h with
  | @creditor debt hdebt hcreditor =>
    have hother := ((hv.phase.debtOk debt hdebt).creditor p hcreditor).1
    refine .creditor (Option.mem_filter_iff.mpr ⟨hdebt, decide_eq_true ?_⟩) hcreditor
    exact Ne.symm hother
  | party htrade hparty => exact .party htrade hparty
  | bidder hauction hbidder => exact .bidder hauction hbidder

/-- A bankruptcy that leaves something waiting for the player. -/
theorem declareBankruptcy_unretired (hv : Valid s) {creditor : Option RoomPlayerId}
    (h : declareBankruptcy s p creditor = .ok r) (hnot : ¬ LeavesCleanly s p) :
    ∃ pl ∈ r.state.players, pl.bankrupt = true ∧ ¬ Retired r.state pl := by
  obtain ⟨hsettlement, _, _, hdeclared⟩ : Bankruptcy (fun _ _ => True) p s r.events r.state :=
    declareBankruptcy_bankruptcy trivial h
  obtain ⟨hgoes, hwaits⟩ := not_or.mp hnot
  have hleft : ∀ {t : GameEngineState} {pl : GameEnginePlayer}, s.player? p = some pl →
      t.players = Keyed.modify GameEnginePlayer.roomPlayerId s.players p
        GameEnginePlayer.liquidated → WaitsFor t p →
      ∃ pl ∈ t.players, pl.bankrupt = true ∧ ¬ Retired t pl := by
    intro t pl hpl ht hw
    have hfound : t.player? p = some pl.liquidated := by
      rw [liquidated_player? ht, if_pos rfl, hpl, Option.map_some]
    refine ⟨_, GameEngineState.player?_mem hfound, rfl, fun hretired => ?_⟩
    have hnobody := hretired.nobodyWaits
    rw [GameEngineState.player?_id hfound] at hnobody
    exact hnobody hw
  generalize r.events = events, r.state = s' at *
  cases hsettlement with
  | debtPaid => cases hdeclared
  | finished _ hevent =>
    obtain ⟨rfl, _⟩ := List.cons.inj hdeclared
    cases hevent
  | lastBankruptcy _ _ hends => exact absurd hends hgoes
  | bankruptcy hbankrupt _ _ hother =>
    refine hleft hbankrupt.found rfl (waitsFor_liquidatedState hv ?_)
    by_contra hnone
    refine hwaits ⟨fun trade htrade => ⟨fun hfrom => ?_, fun hto => ?_⟩, fun _ => hnone⟩
    · exact hnone (.party htrade (.inl hfrom))
    · exact hnone (.party htrade (.inr hto))
  | ownBankruptcy hbankrupt _ _ hown =>
    refine hleft hbankrupt.found rfl ?_
    by_contra hnone
    refine hwaits ⟨fun trade htrade => ⟨fun hfrom => ?_, fun hto => ?_⟩,
      fun hother => absurd hown hother⟩
    · exact hnone (.party htrade (.inl hfrom))
    · exact hnone (.party htrade (.inr hto))

theorem raiseCash_valid (hv : Valid s) {rounds : Nat} {raised : GameEngineResult}
    (h : raiseCash p rounds ⟨s, []⟩ = .ok raised) : Valid raised.state := by
  obtain ⟨⟨events, _, hchain⟩, _⟩ := raiseCash_steps h
  refine hchain.invariant (fun t o t' hvalid hstep => ?_) hv
  have haction : Action unrestricted p t o t' := .estate hstep
  exact haction.valid hvalid

/-- An intent that is not permitted leaves a bankrupt player in the game. -/
theorem accepted_unretired (hv : Valid s) {env : Env} {intent : GameEngineIntent}
    (h : reduceGameEngineIntent env s intent = .ok r) (hnot : ¬ Permits retiring env s intent) :
    ∃ pl ∈ r.state.players, pl.bankrupt = true ∧ ¬ Retired r.state pl := by
  cases intent with
  | declareBankruptcy p creditor => exact declareBankruptcy_unretired hv h hnot
  | autoResolveDebt p =>
    simp only [Permits, not_forall] at hnot
    obtain ⟨raised, hraise, hpoor, hunclean⟩ := hnot
    simp only [reduceGameEngineIntent, autoResolveDebt, bind_eq_ok, pure_eq_ok] at h
    obtain ⟨_, _, raised', hraise', canPay, hcanPay, result, hresult, rfl⟩ := h
    cases hraise.symm.trans hraise'
    cases hpoor.symm.trans hcanPay
    have hdeclared : declareBankruptcy raised.state p
        (raised.state.debt.bind GameEngineDebt.creditorRoomPlayerId) = .ok result := hresult
    exact declareBankruptcy_unretired (r := result) (raiseCash_valid hv hraise) hdeclared hunclean
  | _ => exact absurd (by simp [Permits, retiring]) hnot

end Traces

/-! ## Games -/

section Games

variable {input : CreateInitialGameStateInput} {s t start : GameEngineState}
  {sent : List (Env × GameEngineIntent)} {events : List GameEngineEvent}

theorem createInitialGameState_waitsForActive {env : Env}
    (h : createInitialGameState env input = .ok start) : WaitsForActive start := by
  simp only [createInitialGameState, bind_eq_ok, orThrow_eq_ok, pure_eq_ok] at h
  obtain ⟨first, _, rfl⟩ := h
  refine ⟨fun q hq => ?_, fun pl hpl hb => ?_⟩
  · cases hq with
    | creditor hdebt => cases hdebt
    | party htrade => cases htrade
    | bidder hauction => cases hauction
  · obtain ⟨player, _, rfl⟩ := List.mem_map.mp hpl
    cases hb

theorem accepts_waitsForActive (sent : Env × GameEngineIntent) (events : List GameEngineEvent)
    (h : Valid s ∧ WaitsForActive s)
    (hstep : Trace.Guarded Accepts (PermitsSent retiring) s sent events t) :
    Valid t ∧ WaitsForActive t := by
  obtain ⟨hv, hw⟩ := h
  obtain ⟨haccepts, hpermits⟩ := hstep
  obtain ⟨p, hactions⟩ := accepted_actions hv hpermits haccepts
  refine hactions.invariant (I := fun u => Valid u ∧ WaitsForActive u) ?_ ⟨hv, hw⟩
  rintro u o u' ⟨hvalid, hwaits⟩ haction
  exact ⟨haction.valid hvalid, haction.waitsForActive hvalid hwaits⟩

/-- Nobody who is bankrupt gets back into the game. -/
theorem run_bankrupt (hv : Valid s) (h : Trace.Run Accepts s sent events t) {q : RoomPlayerId}
    {pl : GameEnginePlayer} (hpl : s.player? q = some pl) (hb : pl.bankrupt = true) :
    ∃ pl', t.player? q = some pl' ∧ pl'.bankrupt = true := by
  have hout : Valid t ∧ SameSeats s t ∧ stillIn t ⊆ stillIn s := by
    induction h with
    | refl => exact ⟨hv, rfl, subset_rfl⟩
    | tail _ haccepts ih =>
      obtain ⟨hvalid, hseats, hin⟩ := ih
      obtain ⟨p, hactions⟩ := accepted_actions hvalid (permits_unrestricted _ _ _) haccepts
      exact ⟨accepts_valid _ _ _ _ hvalid haccepts, hseats.trans (hactions.sameSeats hvalid),
        (hactions.stillIn hvalid).trans hin⟩
  obtain ⟨_, hseats, hin⟩ := hout
  have hkey : ∀ x : GameEnginePlayer, (seating x).1 = x.roomPlayerId := fun _ => rfl
  have hlisted : (t.player? q).map seating = (s.player? q).map seating :=
    Keyed.find_congr_map GameEnginePlayer.roomPlayerId hkey hseats q
  rw [hpl, Option.map_some] at hlisted
  obtain ⟨pl', hpl', _⟩ := Option.map_eq_some_iff.mp hlisted
  refine ⟨pl', hpl', ?_⟩
  by_contra hactive
  obtain ⟨found, hfound, hsolvent⟩ := hin ⟨pl', hpl', Bool.eq_false_iff.mpr hactive⟩
  cases hfound.symm.trans hpl
  exact Bool.false_ne_true (hsolvent.symm.trans hb)

/-- In every game in which players go bankrupt when nothing waits for them, they are out of the
game, and stay out of it with neither cash nor tiles. The first bankruptcy of another kind leaves a
player that is not out of the game. -/
theorem game_retired {env : Env} (hi : ValidInput input)
    (hbegun : createInitialGameState env input = .ok start)
    (h : Trace.Run (Trace.Guarded Accepts (PermitsSent retiring)) start sent events s) :
    (∀ pl ∈ s.players, pl.bankrupt = true → Retired s pl) ∧
    (∀ later events' t,
      Trace.Run (Trace.Guarded Accepts (PermitsSent retiring)) s later events' t →
      ∀ q pl, s.player? q = some pl → pl.bankrupt = true →
        ∃ pl', t.player? q = some pl' ∧ pl'.bankrupt = true ∧ Retired t pl') ∧
    ∀ next events' s', Accepts s next events' s' → ¬ PermitsSent retiring s next →
      ∃ pl ∈ s'.players, pl.bankrupt = true ∧ ¬ Retired s' pl := by
  have hstep := fun u i o u' => accepts_waitsForActive (s := u) (t := u') i o
  have hstart : Valid start ∧ WaitsForActive start :=
    ⟨createInitialGameState_valid hi hbegun, createInitialGameState_waitsForActive hbegun⟩
  obtain ⟨hv, hw⟩ := h.invariant hstep hstart
  refine ⟨fun pl => hw.retired hv, fun later events' t hlater q pl hpl hb => ?_, ?_⟩
  · obtain ⟨hv', hw'⟩ := hlater.invariant hstep ⟨hv, hw⟩
    obtain ⟨pl', hpl', hb'⟩ := run_bankrupt hv hlater.unguarded hpl hb
    exact ⟨pl', hpl', hb', hw'.retired hv' (GameEngineState.player?_mem hpl') hb'⟩
  · exact fun next events' s' haccepts hnot => accepted_unretired hv haccepts hnot

/-- Nothing waits for the player that goes bankrupt at the start. -/
theorem threePlayers_retired : ∃ env sent events start s,
    createInitialGameState env threePlayers = .ok start ∧
    Trace.Run (Trace.Guarded Accepts (PermitsSent retiring)) start sent events s ∧
    ∃ pl ∈ s.players, pl.bankrupt = true ∧ Retired s pl := by
  obtain ⟨start, hstart, htest⟩ := exists_ok_of_any (by decide +kernel :
    (createInitialGameState ⟨0, "room"⟩ threePlayers).toOption.any (fun start =>
      start.debt = none ∧ start.tradeOffer = none ∧ start.auction = none ∧
        (reduceGameEngineIntent ⟨0, "trade"⟩ start (.declareBankruptcy ⟨2⟩ none)).toOption.any
          fun r => r.state.players.any GameEnginePlayer.bankrupt) = true)
  obtain ⟨hdebt, hoffer, hauction, haccepted⟩ := of_decide_eq_true htest
  obtain ⟨⟨s, events⟩, haccepts, hbankrupt⟩ := exists_ok_of_any haccepted
  have hpermits : PermitsSent retiring start (⟨0, "trade"⟩, .declareBankruptcy ⟨2⟩ none) := by
    refine .inr ⟨fun trade htrade => ?_, fun _ hwaits => ?_⟩
    · cases hoffer.symm.trans htrade
    · cases hwaits with
      | creditor hpending => cases hdebt.symm.trans hpending
      | party hpending => cases hoffer.symm.trans hpending
      | bidder hrunning => cases hauction.symm.trans hrunning
  have hrun : Trace.Run (Trace.Guarded Accepts (PermitsSent retiring)) start
      [(⟨0, "trade"⟩, .declareBankruptcy ⟨2⟩ none)] events s :=
    (Trace.Run.refl start).tail ⟨haccepts, hpermits⟩
  obtain ⟨pl, hpl, hb⟩ := List.any_eq_true.mp hbankrupt
  exact ⟨_, _, _, start, s, hstart, hrun, pl, hpl, hb,
    (game_retired threePlayers_valid hstart hrun).1 pl hpl hb⟩

/-- Player 1 goes bankrupt while player 2 owes player 1 a rent. -/
theorem threePlayers_bankruptCreditor : ∃ s, Reachable threePlayers s ∧
    ∃ pl ∈ s.players, pl.bankrupt = true ∧ ¬ Retired s pl := by
  obtain ⟨r, hr, htest⟩ := exists_ok_of_any (by decide +kernel :
    (playThree [.rollAndMove ⟨1⟩ [.int 1, .int 2], .buyProperty ⟨1⟩, .endTurn ⟨1⟩,
      .proposeTrade ⟨⟨2⟩, ⟨3⟩, .int 1500, .int 1, [], [], none⟩, .acceptTrade ⟨3⟩ "trade",
      .rollAndMove ⟨2⟩ [.int 1, .int 2], .declareBankruptcy ⟨1⟩ none]).toOption.any
      (fun r => r.state.players.any fun pl => pl.bankrupt &&
        r.state.debt.any fun debt =>
          debt.creditorRoomPlayerId = some pl.roomPlayerId) = true)
  obtain ⟨pl, hpl, hcreditor⟩ := List.any_eq_true.mp htest
  obtain ⟨hb, hdebt⟩ := Bool.and_eq_true_iff.mp hcreditor
  obtain ⟨debt, hpending, hcreditor⟩ := (Option.any_eq_true _ _).mp hdebt
  refine ⟨r.state, playRoom_reachable hr, pl, hpl, hb, fun hretired => ?_⟩
  exact hretired.creditor debt hpending (of_decide_eq_true hcreditor)

end Games

end Rules
end LivePoly
