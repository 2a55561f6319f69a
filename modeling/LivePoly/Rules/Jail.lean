import LivePoly.Rules.Reachable

/-!
# Rules.Jail

The time in jail. Where an inmate is and how long, whose fine is left as a debt, and what the log
says of a player's last stay: the fines charged since it began and whether a card ended it.
-/

namespace LivePoly
namespace Rules

open Engine Checked

/-! ## The log of a stay -/

/-- A player's last stay in jail, as the log tells it. -/
structure Stay where
  fines : List Int
  byCard : Bool
  deriving DecidableEq

namespace Stay

/-- The stay of `p` after an event. -/
def after (p : RoomPlayerId) (stay : Stay) : GameEngineEvent → Stay
  | .playerSentToJail q _ => if q = p then ⟨[], false⟩ else stay
  | .jailFinePaid q amount | .jailForcedFinePaid q amount =>
    if q = p then { stay with fines := stay.fines ++ [amount] } else stay
  | .debtPaid q _ amount reason =>
    if q = p ∧ reason = .jailFine then { stay with fines := stay.fines ++ [amount] } else stay
  | .getOutOfJailCardUsed q => if q = p then { stay with byCard := true } else stay
  | _ => stay

/-- The player whose stay an event may be about. -/
def inmate? : GameEngineEvent → Option RoomPlayerId
  | .playerSentToJail p _ | .jailFinePaid p _ | .jailForcedFinePaid p _
  | .getOutOfJailCardUsed p => some p
  | .debtPaid p _ _ reason => if reason = .jailFine then some p else none
  | _ => none

/-- The events are not about a stay of `p`. -/
def Quiet (p : RoomPlayerId) (events : List GameEngineEvent) : Prop :=
  ∀ event ∈ events, inmate? event ≠ some p

variable {p : RoomPlayerId} {events : List GameEngineEvent}

theorem after_other {event : GameEngineEvent} (h : inmate? event ≠ some p) (stay : Stay) :
    after p stay event = stay := by
  cases event with
  | playerSentToJail q _ | jailFinePaid q _ | jailForcedFinePaid q _ | getOutOfJailCardUsed q =>
    exact if_neg fun hq => h (congrArg some hq)
  | debtPaid q _ _ _ => exact if_neg fun hq => h ((if_pos hq.2).trans (congrArg some hq.1))
  | _ => rfl

theorem Quiet.foldl (h : Quiet p events) (stay : Stay) : events.foldl (after p) stay = stay := by
  induction events with
  | nil => rfl
  | cons event events ih =>
    unfold Quiet at h
    rw [List.forall_mem_cons] at h
    rw [List.foldl_cons, after_other h.1]
    exact ih h.2

theorem Quiet.append {events' : List GameEngineEvent} (h : Quiet p events)
    (h' : Quiet p events') : Quiet p (events ++ events') := by
  intro event hevent
  rcases List.mem_append.mp hevent with hevent | hevent
  · exact h event hevent
  · exact h' event hevent

theorem quiet_nil : Quiet p [] := fun _ hevent => absurd hevent List.not_mem_nil

theorem Quiet.cons {event : GameEngineEvent} (hevent : inmate? event ≠ some p)
    (h : Quiet p events) : Quiet p (event :: events) := by
  intro event' hevent'
  rcases List.mem_cons.mp hevent' with rfl | hevent'
  · exact hevent
  · exact h event' hevent'

end Stay

open Stay

/-- The last stay of each player by the log. -/
def stays (events : List GameEngineEvent) (p : RoomPlayerId) : Stay :=
  events.foldl (Stay.after p) ⟨[], false⟩

/-! ## Records -/

/-- The player whose fine is pending as a debt. -/
def owesFine (s : GameEngineState) : Option RoomPlayerId :=
  (s.debt.filter fun debt => debt.reason = .jailFine).map GameEngineDebt.roomPlayerId

/-- A player's record, the player whose fine is pending and the log of the player's last stay agree:
one fine at most was charged, and none yet to a player in jail. -/
structure InmateOk (owed : Option RoomPlayerId) (stay : Stay) (pl : GameEnginePlayer) : Prop where
  fines : stay.fines = [] ∨ stay.fines = [jailFineAmount] ∧ stay.byCard = false
  inside : pl.inJail = true → pl.position = classicGameBoard.jailPosition ∧ stay = ⟨[], false⟩ ∧
    (owed = some pl.roomPlayerId ↔ maxJailTurnCount ≤ pl.jailTurnCount)
  outside : pl.inJail = false → owed ≠ some pl.roomPlayerId

/-- What an action with the events may do to a record as far as jail is concerned. -/
inductive JailChange (owed owed' : Option RoomPlayerId) (events : List GameEngineEvent)
    (x y : GameEnginePlayer) : Prop
  | kept (hjail : y.inJail = x.inJail) (hcount : y.jailTurnCount = x.jailTurnCount)
      (hposition : x.inJail = true → y.position = x.position)
      (howed : owed' = some x.roomPlayerId ↔ owed = some x.roomPlayerId)
      (hquiet : Quiet x.roomPlayerId events)
  | jailed (hjail : y.inJail = true) (hcount : y.jailTurnCount = 0)
      (hposition : y.position = classicGameBoard.jailPosition)
      (howed : owed' ≠ some x.roomPlayerId)
      (hstay : ∀ stay, events.foldl (Stay.after x.roomPlayerId) stay = ⟨[], false⟩)
  | waited (hbefore : x.inJail = true) (hjail : y.inJail = true)
      (hcount : owed' = some x.roomPlayerId ↔ maxJailTurnCount ≤ y.jailTurnCount)
      (hposition : y.position = x.position) (hquiet : Quiet x.roomPlayerId events)
  | fined (hbefore : x.inJail = true) (hfree : y.inJail = false)
      (howed : owed' ≠ some x.roomPlayerId)
      (hstay : ∀ stay, events.foldl (Stay.after x.roomPlayerId) stay =
        { stay with fines := stay.fines ++ [jailFineAmount] })
  | carded (hbefore : x.inJail = true) (hfree : y.inJail = false)
      (howed : owed' ≠ some x.roomPlayerId)
      (hstay : ∀ stay, events.foldl (Stay.after x.roomPlayerId) stay = { stay with byCard := true })
  | freed (hfree : y.inJail = false) (howed : owed' ≠ some x.roomPlayerId)
      (hquiet : Quiet x.roomPlayerId events)

theorem JailChange.ok {owed owed' : Option RoomPlayerId} {events : List GameEngineEvent}
    {x y : GameEnginePlayer} (h : JailChange owed owed' events x y)
    (hid : y.roomPlayerId = x.roomPlayerId) {stay : Stay} (hx : InmateOk owed stay x) :
    InmateOk owed' (events.foldl (Stay.after x.roomPlayerId) stay) y := by
  obtain ⟨hfines, hinside, houtside⟩ := hx
  cases h with
  | kept hjail hcount hposition howed hquiet =>
    rw [hquiet.foldl]
    refine ⟨hfines, fun hy => ?_, fun hy => ?_⟩
    · obtain ⟨hplace, hstay, howes⟩ := hinside (hjail ▸ hy)
      rw [hcount, hid, howed]
      exact ⟨(hposition (hjail ▸ hy)).trans hplace, hstay, howes⟩
    · rw [hid]
      exact fun howes => houtside (hjail ▸ hy) (howed.mp howes)
  | jailed hjail hcount hposition howed hstay =>
    rw [hstay]
    refine ⟨.inl rfl, fun _ => ⟨hposition, rfl, ?_⟩, fun hy => ?_⟩
    · rw [hcount, hid]
      exact iff_of_false howed (by decide)
    · rw [hjail] at hy
      cases hy
  | waited hbefore hjail hcount hposition hquiet =>
    rw [hquiet.foldl]
    obtain ⟨hplace, hstay, _⟩ := hinside hbefore
    refine ⟨hfines, fun _ => ⟨hposition.trans hplace, hstay, hid ▸ hcount⟩, fun hy => ?_⟩
    rw [hjail] at hy
    cases hy
  | fined hbefore hfree howed hstay =>
    rw [hstay]
    obtain ⟨_, rfl, _⟩ := hinside hbefore
    refine ⟨.inr ⟨rfl, rfl⟩, fun hy => ?_, fun _ => hid ▸ howed⟩
    rw [hfree] at hy
    cases hy
  | carded hbefore hfree howed hstay =>
    rw [hstay]
    obtain ⟨_, rfl, _⟩ := hinside hbefore
    refine ⟨.inl rfl, fun hy => ?_, fun _ => hid ▸ howed⟩
    rw [hfree] at hy
    cases hy
  | freed hfree howed hquiet =>
    rw [hquiet.foldl]
    refine ⟨hfines, fun hy => ?_, fun _ => hid ▸ howed⟩
    rw [hfree] at hy
    cases hy

/-! ## Actions -/

/-- What concerns jail in a record. -/
def inmate (pl : GameEnginePlayer) : RoomPlayerId × Bool × Nat × Nat :=
  (pl.roomPlayerId, pl.inJail, pl.jailTurnCount, pl.position)

/-- Every record comes from one of the same player, changed as far as an action may change it. -/
def JailChanges (s : GameEngineState) (events : List GameEngineEvent) (s' : GameEngineState) :
    Prop :=
  ∀ y ∈ s'.players, ∃ x ∈ s.players, y.roomPlayerId = x.roomPlayerId ∧
    JailChange (owesFine s) (owesFine s') events x y

section Changes

variable {s s' : GameEngineState} {p q : RoomPlayerId} {pl : GameEnginePlayer}
  {events : List GameEngineEvent}

theorem JailChanges.same (hplayers : s'.players.map inmate = s.players.map inmate)
    (howed : owesFine s' = owesFine s) (hquiet : ∀ q, Quiet q events) :
    JailChanges s events s' := by
  intro y hy
  have hmem : inmate y ∈ s.players.map inmate := hplayers ▸ List.mem_map_of_mem hy
  obtain ⟨x, hx, hxy⟩ := List.mem_map.mp hmem
  simp only [inmate, Prod.mk.injEq] at hxy
  obtain ⟨hid, hjail, hcount, hposition⟩ := hxy
  refine ⟨x, hx, hid.symm, .kept hjail.symm hcount.symm (fun _ => hposition.symm) ?_ (hquiet _)⟩
  rw [howed]

theorem JailChanges.update (hids : (s.players.map GameEnginePlayer.roomPlayerId).Nodup)
    (hpl : s.player? p = some pl) {g : GameEnginePlayer → GameEnginePlayer}
    (hg : ∀ x, (g x).roomPlayerId = x.roomPlayerId)
    (hplayers : s'.players = Keyed.modify GameEnginePlayer.roomPlayerId s.players p g)
    (howed : ∀ q, q ≠ p → (owesFine s' = some q ↔ owesFine s = some q))
    (hquiet : ∀ q, q ≠ p → Quiet q events)
    (hchange : JailChange (owesFine s) (owesFine s') events pl (g pl)) :
    JailChanges s events s' := by
  intro y hy
  rw [hplayers] at hy
  obtain ⟨x, hx, rfl⟩ := (Keyed.mem_modify _).mp hy
  refine ⟨x, hx, ?_⟩
  by_cases hxp : x.roomPlayerId = p
  · have hfind := Keyed.find_of_mem GameEnginePlayer.roomPlayerId hids hx
    rw [hxp] at hfind
    cases hfind.symm.trans hpl
    rw [if_pos hxp]
    exact ⟨hg _, hchange⟩
  · rw [if_neg hxp]
    exact ⟨rfl, .kept rfl rfl (fun _ => rfl) (howed _ hxp) (hquiet _ hxp)⟩

theorem owesFine_of_debt (h : s'.debt = s.debt) : owesFine s' = owesFine s := by
  rw [owesFine, owesFine, h]

theorem owesFine_none (h : s.debt = none) : owesFine s = none := by
  rw [owesFine, h]
  rfl

theorem owesFine_other {debt : GameEngineDebt} (h : s.debt = some debt)
    (hreason : debt.reason ≠ .jailFine) : owesFine s = none := by
  rw [owesFine, h, Option.filter_some, if_neg (by simpa using hreason)]
  rfl

theorem owesFine_jailFine {debt : GameEngineDebt} (h : s.debt = some debt)
    (hreason : debt.reason = .jailFine) : owesFine s = some debt.roomPlayerId := by
  rw [owesFine, h, Option.filter_some, if_pos (by simpa using hreason)]
  rfl

theorem inmates_addCash (s : GameEngineState) (q : RoomPlayerId) (amount : Int) :
    (s.addCash q amount).players.map inmate = s.players.map inmate := by
  apply Keyed.map_modify
  intro _; rfl

theorem quiet_others (h : ∀ event ∈ events, inmate? event = none ∨ inmate? event = some p)
    (hne : q ≠ p) : Quiet q events := by
  intro event hevent hinmate
  rcases h event hevent with hnone | hp
  · cases hnone.symm.trans hinmate
  · exact hne (Option.some.inj (hinmate.symm.trans hp))

theorem quiet_all (h : ∀ event ∈ events, inmate? event = none) (q : RoomPlayerId) :
    Quiet q events := by
  intro event hevent hinmate
  cases (h event hevent).symm.trans hinmate

theorem movedEvents_quiet (dice : DiceRoll) (suppressDoubles : Bool) (tile : GameTile) :
    ∀ q, Quiet q (movedEvents s p pl dice suppressDoubles tile) := by
  intro q
  unfold movedEvents
  have hone : ∀ (bad : Prop) [Decidable bad] (event : GameEngineEvent), inmate? event = none →
      Quiet q (if bad then [event] else []) := by
    intro bad _ event hevent
    split
    · exact quiet_all (by simpa using hevent) q
    · exact quiet_nil
  refine ((Quiet.append (hone _ _ rfl) ?_).append (hone _ _ rfl)).append ?_
  · exact quiet_all (by simp [inmate?]) q
  · exact quiet_all (by simp [inmate?]) q

theorem movedState_debt {dice : DiceRoll} {suppressDoubles : Bool} {tile : GameTile} :
    (movedState s p dice suppressDoubles tile).debt = s.debt := by
  obtain ⟨count, again, hdoubles⟩ := doublesState_eq s dice suppressDoubles
  unfold movedState
  rw [hdoubles]
  rfl

end Changes

section Steps

variable {s s' : GameEngineState} {p : RoomPlayerId} {pl : GameEnginePlayer}
  {events : List GameEngineEvent}

/-- The moves of a turn, none of them made while a fine is pending. -/
theorem Turn.jail (hv : Valid s) (ho : OnTurn s p pl) (howes : owesFine s = none)
    (h : Turn p pl s events s') : JailChanges s events s' := by
  have hid : pl.roomPlayerId = p := GameEngineState.player?_id ho.player
  have hnone : ∀ q, owesFine s ≠ some q := by
    intro q hq
    cases howes.symm.trans hq
  cases h with
  | @moved dice suppressDoubles tile _ hfree =>
    have howed : owesFine (movedState s p dice suppressDoubles tile) = owesFine s :=
      owesFine_of_debt movedState_debt
    refine .update hv.players.ids ho.player ?_ movedState_players (fun _ _ => ?_)
      (fun q _ => movedEvents_quiet dice suppressDoubles tile q) ?_
    · intro _; rfl
    · rw [howed]
    · refine .kept rfl rfl (fun hjail => ?_) (by rw [howed]) (movedEvents_quiet _ _ _ _)
      rw [hfree] at hjail
      cases hjail
  | thirdDoubles =>
    refine .update hv.players.ids ho.player ?_ rfl (fun _ _ => Iff.rfl) (fun q hq => ?_) ?_
    · intro _; rfl
    · exact quiet_others (by simp [inmate?]) hq
    · refine .jailed rfl rfl ?_ (hnone _) fun stay => ?_
      · rw [GameEngineState.board_eq]
      · simp [Stay.after, hid]
  | escaped =>
    refine .update hv.players.ids ho.player ?_ rfl (fun _ _ => Iff.rfl) (fun q hq => ?_) ?_
    · intro _; rfl
    · exact quiet_all (by simp [inmate?]) q
    · exact .freed rfl (hnone _) (quiet_all (by simp [inmate?]) _)
  | stayed _ hjail hcount =>
    refine .update hv.players.ids ho.player ?_ rfl (fun _ _ => Iff.rfl) (fun q hq => ?_) ?_
    · intro _; rfl
    · exact quiet_all (by simp [inmate?]) q
    · refine .waited hjail hjail (iff_of_false (hnone _) ?_) rfl (quiet_all (by simp [inmate?]) _)
      exact not_le.mpr hcount
  | forcedFine _ hjail =>
    refine .update hv.players.ids ho.player ?_ rfl (fun _ _ => Iff.rfl) (fun q hq => ?_) ?_
    · intro _; rfl
    · exact quiet_others (by simp [inmate?]) hq
    · refine .fined hjail rfl (hnone _) fun stay => ?_
      simp [Stay.after, hid]
  | fineOwed _ hjail hcount =>
    refine .update hv.players.ids ho.player ?_ rfl (fun q hq => ?_) (fun q hq => ?_) ?_
    · intro _; rfl
    · exact iff_of_false (fun howed => hq (Option.some.inj howed).symm) (hnone q)
    · exact quiet_all (by simp [inmate?, paymentRequired]) q
    · refine .waited hjail hjail (iff_of_true (congrArg some hid.symm) hcount) rfl ?_
      exact quiet_all (by simp [inmate?, paymentRequired]) _
  | finePaid hjail =>
    refine .update hv.players.ids ho.player ?_ rfl (fun _ _ => Iff.rfl) (fun q hq => ?_) ?_
    · intro _; rfl
    · exact quiet_others (by simp [inmate?]) hq
    · refine .fined hjail rfl (hnone _) fun stay => ?_
      simp [Stay.after, hid]
  | cardUsed hjail =>
    refine .update hv.players.ids ho.player ?_ rfl (fun _ _ => Iff.rfl) (fun q hq => ?_) ?_
    · intro _; rfl
    · exact quiet_others (by simp [inmate?]) hq
    · refine .carded hjail rfl (hnone _) fun stay => ?_
      simp [Stay.after, hid]
  | playsAgain | passesTurn => exact .same rfl rfl (quiet_all (by simp [inmate?]))

theorem Landing.jail (hv : Valid s) (ha : Arrived s p pl) (h : Landing p pl s events s') :
    JailChanges s events s' := by
  have hid : pl.roomPlayerId = p := GameEngineState.player?_id ha.player
  have hdebt : s.debt = none := hv.phase.debt_none (by rw [ha.phase]; decide)
  have howes : owesFine s = none := owesFine_none hdebt
  have hnone : ∀ q, owesFine s ≠ some q := by
    intro q hq
    cases howes.symm.trans hq
  cases h with
  | taxPaid => exact .same (inmates_addCash _ _ _) rfl (quiet_all (by simp [inmate?]))
  | rentPaid =>
    exact .same ((inmates_addCash _ _ _).trans (inmates_addCash _ _ _)) rfl
      (quiet_all (by simp [inmate?]))
  | owes _ _ hreason =>
    refine .same rfl ?_ (quiet_all (by simp [inmate?, paymentRequired]))
    rw [howes]
    refine owesFine_other rfl ?_
    rcases hreason with ⟨hreason, _⟩ | ⟨hreason, _⟩ <;> rw [hreason] <;> decide
  | sentToJail =>
    refine .update hv.players.ids ha.player ?_ rfl (fun _ _ => Iff.rfl) (fun q hq => ?_) ?_
    · intro _; rfl
    · exact quiet_others (by simp [inmate?]) hq
    · refine .jailed rfl rfl ?_ (hnone _) fun stay => ?_
      · rw [GameEngineState.board_eq]
      · simp [Stay.after, hid]
  | cardSettled =>
    refine .same ?_ rfl (quiet_all (by simp [inmate?, drawEvents]))
    exact (List.map_map ..).trans (List.map_congr_left fun _ _ => rfl)
  | cardOwed =>
    refine .same rfl ?_ (quiet_all (by simp [inmate?, drawEvents, paymentRequired]))
    rw [howes]
    refine owesFine_other rfl fun hreason => ?_
    cases hreason
  | cardKept =>
    refine .same ?_ rfl (quiet_all (by simp [inmate?, drawEvents]))
    apply Keyed.map_modify
    intro _; rfl
  | cardJailed =>
    refine .update hv.players.ids ha.player ?_ rfl (fun _ _ => Iff.rfl) (fun q hq => ?_) ?_
    · intro _; rfl
    · exact quiet_others (by simp [inmate?, drawEvents]) hq
    · refine .jailed rfl rfl ?_ (hnone _) fun stay => ?_
      · rw [GameEngineState.board_eq]
      · simp [Stay.after, hid, drawEvents]
  | @cardMoved deckKey card decks target passedGo =>
    have hmoved : ∀ moved : GameEngineState,
        moved = cardMovedState { s with decks } p target passedGo →
        moved.players = Keyed.modify GameEnginePlayer.roomPlayerId s.players p
          (cardMovedPlayer s.board target passedGo) ∧ moved.debt = s.debt := by
      rintro moved rfl
      unfold cardMovedState
      dsimp only
      split
      · exact ⟨rfl, rfl⟩
      · exact ⟨rfl, rfl⟩
    obtain ⟨hplayers, hdebt'⟩ := hmoved _ rfl
    have howed := owesFine_of_debt hdebt'
    have hquiet : ∀ q, Quiet q (drawEvents p deckKey card ++
        cardMovedEvents s p pl target passedGo) := by
      intro q
      unfold cardMovedEvents
      refine Quiet.append (quiet_all (by simp [inmate?, drawEvents]) q) ?_
      refine (Quiet.append (quiet_all (by simp [inmate?]) q) ?_).append
        (quiet_all (by simp [inmate?]) q)
      split
      · exact quiet_all (by simp [inmate?]) q
      · exact quiet_nil
    refine .update hv.players.ids ha.player ?_ hplayers (fun q _ => by rw [howed])
      (fun q _ => hquiet q) ?_
    · intro _; rfl
    · refine .kept rfl rfl (fun hjail => ?_) (by rw [howed]) (hquiet _)
      rw [ha.free] at hjail
      cases hjail

theorem Estate.jail (h : Estate p pl s events s') : JailChanges s events s' := by
  cases h <;>
    exact .same (inmates_addCash _ _ _) rfl (quiet_all (by simp [inmate?]))

theorem Bidding.jail {condition : GameEngineState → RoomPlayerId → Prop}
    (h : Bidding condition p s events s') : JailChanges s events s' := by
  cases h with
  | declined | bid | passed | passedUnsold => exact .same rfl rfl (quiet_all (by simp [inmate?]))
  | bidWon | passedWon =>
    exact .same (inmates_addCash _ _ _) rfl (quiet_all (by simp [inmate?]))

theorem saleEvents_quiet (tradeId : String) (keys : List TileKey) (q : RoomPlayerId) :
    Quiet q (saleEvents s tradeId p keys) := by
  refine quiet_all ?_ q
  intro event hevent
  obtain ⟨key, _, hsale⟩ := List.mem_filterMap.mp hevent
  split at hsale
  · cases hsale
  · cases hsale
    rfl

theorem Trade.jail {condition : GameEngineState → GameEngineTradeOffer → Prop}
    (h : Trade condition p s events s') : JailChanges s events s' := by
  cases h with
  | marked =>
    refine .same ?_ rfl fun _ => quiet_nil
    apply Keyed.map_modify
    intro _; rfl
  | offered | refused | rejected | cancelled =>
    exact .same rfl rfl (quiet_all (by simp [inmate?, proposedEvent]))
  | @executed trade fromPlayer toPlayer proposal hagreed =>
    refine .same ((inmates_addCash _ _ _).trans (inmates_addCash _ _ _)) rfl fun q => ?_
    have hproposal : Quiet q proposal := by
      cases hagreed with
      | accepted => exact quiet_nil
      | proposed => exact quiet_all (by simp [inmate?, proposedEvent]) q
    refine ((hproposal.append (saleEvents_quiet _ _ q)).append (saleEvents_quiet _ _ q)).append ?_
    exact quiet_all (by simp [inmate?]) q

theorem PaysDebt.jail (hv : Valid s) {debt : GameEngineDebt} (h : PaysDebt s p debt pl)
    (hamount : debt.reason = .jailFine → debt.amount = jailFineAmount)
    (hinside : owesFine s = some p → pl.inJail = true) :
    JailChanges s (debtPaidEvents debt) (debtPaidState s debt) := by
  obtain rfl := h.debtor
  have hd := hv.phase.debtOk debt h.pending
  have hplayers := debtPaidState_players (s := s) fun c hc => (hd.creditor c hc).1
  have howed' : owesFine (debtPaidState s debt) = none := owesFine_none rfl
  have hnone : ∀ q, owesFine (debtPaidState s debt) ≠ some q := by
    intro q hq
    cases howed'.symm.trans hq
  by_cases hreason : debt.reason = .jailFine
  · have howes : owesFine s = some debt.roomPlayerId := owesFine_jailFine h.pending hreason
    intro y hy
    rw [hplayers] at hy
    obtain ⟨x, hx, rfl⟩ := List.mem_map.mp hy
    refine ⟨x, hx, ?_⟩
    by_cases hxd : x.roomPlayerId = debt.roomPlayerId
    · have hfind := hv.players.find hx
      rw [hxd, h.player] at hfind
      cases hfind
      rw [if_pos hxd, if_pos hreason]
      refine ⟨rfl, .fined (hinside howes) rfl (hnone _) fun stay => ?_⟩
      simp [debtPaidEvents, hreason, Stay.after, hxd, hamount hreason]
    · have hquiet : Quiet x.roomPlayerId (debtPaidEvents debt) := by
        refine quiet_others ?_ hxd
        simp [debtPaidEvents, hreason, inmate?]
      have hother : owesFine (debtPaidState s debt) = some x.roomPlayerId ↔
          owesFine s = some x.roomPlayerId := by
        refine iff_of_false (hnone _) fun howed => hxd ?_
        exact Option.some.inj (howed.symm.trans howes)
      rw [if_neg hxd]
      split
      · exact ⟨rfl, .kept rfl rfl (fun _ => rfl) hother hquiet⟩
      · exact ⟨rfl, .kept rfl rfl (fun _ => rfl) hother hquiet⟩
  · have howes : owesFine s = none := owesFine_other h.pending hreason
    refine .same ?_ (howed'.trans howes.symm) (quiet_all ?_)
    · rw [hplayers, List.map_map]
      apply List.map_congr_left
      intro x _
      simp only [Function.comp_apply, if_neg hreason]
      split
      · rfl
      · split <;> rfl
    · simp [debtPaidEvents, hreason, inmate?]

theorem owesFine_liquidated (p q : RoomPlayerId) (hs : s'.debt =
    s.debt.filter fun debt => debt.roomPlayerId ≠ p) :
    owesFine s' = some q ↔ q ≠ p ∧ owesFine s = some q := by
  rw [owesFine, owesFine, hs]
  cases s.debt with
  | none => simp
  | some debt =>
    by_cases hp : debt.roomPlayerId = p
    · simp only [Option.filter_some, hp, ne_eq, not_true_eq_false, decide_false,
        Bool.false_eq_true, if_false, Option.filter_none, Option.map_none, false_iff, not_and,
        reduceCtorEq]
      intro hq howed
      by_cases hreason : debt.reason = .jailFine
      · simp only [hreason, decide_true, if_true, Option.map_some, Option.some.injEq] at howed
        exact hq (howed.symm.trans hp)
      · simp [hreason] at howed
    · simp only [Option.filter_some, ne_eq, hp, not_false_eq_true, decide_true, if_true]
      by_cases hreason : debt.reason = .jailFine
      · simp only [hreason, decide_true, if_true, Option.map_some, Option.some.injEq]
        constructor
        · rintro rfl
          exact ⟨hp, rfl⟩
        · exact fun h => h.2
      · simp [hreason]

/-- A bankruptcy takes the player out of jail; it may end the game if no other player's fine is
pending. -/
theorem Bankruptcy.jail (hv : Valid s) {condition : GameEngineState → RoomPlayerId → Prop}
    (h : Bankruptcy condition p s events s')
    (hends : ∀ q, owesFine s = some q → q = p ∨ ¬ EndsGame (s.updatePlayer p
      GameEnginePlayer.liquidated)) : JailChanges s events s' := by
  have hliquidated : ∀ {pl : GameEnginePlayer} {s' : GameEngineState},
      s.player? p = some pl → s'.players =
        Keyed.modify GameEnginePlayer.roomPlayerId s.players p GameEnginePlayer.liquidated →
      (∀ q, owesFine s' = some q ↔ q ≠ p ∧ owesFine s = some q) →
      (∀ q, Quiet q events) → JailChanges s events s' := by
    intro pl s' hpl hplayers howed hquiet
    have hid : pl.roomPlayerId = p := GameEngineState.player?_id hpl
    refine .update hv.players.ids hpl ?_ hplayers (fun q hq => ?_) (fun q _ => hquiet q) ?_
    · intro _; rfl
    · rw [howed]
      exact and_iff_right hq
    · refine .freed rfl (fun howes => ?_) (hquiet _)
      exact ((howed _).mp howes).1 hid
  obtain ⟨hsettlement, creditor, rest, hdeclared⟩ := h
  cases hsettlement with
  | debtPaid =>
    cases hdeclared
  | lastBankruptcy hbankrupt _ hlast =>
    refine hliquidated hbankrupt.found rfl (fun q => ?_) (quiet_all (by simp [inmate?]))
    refine iff_of_false (fun hnone => by cases hnone) fun ⟨hq, howes⟩ => ?_
    rcases hends q howes with rfl | hgoes
    · exact hq rfl
    · exact hgoes hlast
  | bankruptcy hbankrupt | ownBankruptcy hbankrupt =>
    refine hliquidated hbankrupt.found rfl (fun q => ?_) (quiet_all (by simp [inmate?]))
    exact owesFine_liquidated p q rfl
  | finished _ hevent =>
    obtain ⟨rfl, _⟩ := List.cons.inj hdeclared
    cases hevent

end Steps

/-! ## The amount of a pending fine -/

/-- A pending fine is the fine of the rules. -/
def FineOk (s : GameEngineState) : Prop :=
  ∀ debt, s.debt = some debt → debt.reason = .jailFine → debt.amount = jailFineAmount

section Fines

variable {c : Condition} {s s' : GameEngineState} {p : RoomPlayerId} {pl : GameEnginePlayer}
  {events : List GameEngineEvent}

theorem FineOk.of_debt (h : FineOk s) (hs : s'.debt = s.debt) : FineOk s' := by
  intro debt hdebt
  rw [hs] at hdebt
  exact h debt hdebt

theorem fineOk_none (hs : s'.debt = none) : FineOk s' := by
  intro debt hdebt
  cases hs.symm.trans hdebt

theorem Turn.fineOk (hf : FineOk s) (h : Turn p pl s events s') : FineOk s' := by
  cases h with
  | moved => exact hf.of_debt movedState_debt
  | fineOwed =>
    rintro debt ⟨⟩ _
    rfl
  | _ => exact hf.of_debt rfl

theorem Landing.fineOk (hf : FineOk s) (h : Landing p pl s events s') : FineOk s' := by
  cases h with
  | owes _ _ hreason =>
    rintro debt ⟨⟩ hfine
    rcases hreason with ⟨hreason, _⟩ | ⟨hreason, _⟩ <;> cases hreason.symm.trans hfine
  | cardOwed =>
    rintro debt ⟨⟩ hfine
    cases hfine
  | cardMoved =>
    refine hf.of_debt ?_
    unfold cardMovedState
    dsimp only
    split <;> rfl
  | _ => exact hf.of_debt rfl

theorem Settlement.fineOk {condition : GameEngineState → RoomPlayerId → Prop} (hf : FineOk s)
    (h : Settlement condition p s events s') : FineOk s' := by
  cases h with
  | debtPaid | lastBankruptcy | finished => exact fineOk_none rfl
  | bankruptcy | ownBankruptcy =>
    intro debt hdebt
    exact hf debt (Option.mem_filter_iff.mp hdebt).1

theorem Action.fineOk (hf : FineOk s) (h : Action c p s events s') : FineOk s' := by
  cases h with
  | turn h =>
    obtain ⟨pl, _, hturn⟩ := h
    exact hturn.fineOk hf
  | landing h =>
    obtain ⟨pl, _, hlanding⟩ := h
    exact hlanding.fineOk hf
  | estate h =>
    obtain ⟨pl, _, hestate⟩ := h
    cases hestate <;> exact hf.of_debt rfl
  | bidding h => cases h <;> exact hf.of_debt rfl
  | trade h => cases h <;> exact hf.of_debt rfl
  | settlement h => exact h.fineOk hf

end Fines

/-! ## Runs -/

/-- The log goes on. -/
def readOn (log : RoomPlayerId → Stay) (events : List GameEngineEvent) (p : RoomPlayerId) : Stay :=
  events.foldl (Stay.after p) (log p)

/-- The log of the stays agrees with every player's record. -/
structure JailOk (log : RoomPlayerId → Stay) (s : GameEngineState) : Prop where
  inmates : ∀ pl ∈ s.players, InmateOk (owesFine s) (log pl.roomPlayerId) pl
  fine : FineOk s

/-- While the fine of `debtor` is pending, nobody leaves jail but by paying it, and the game is not
ended but by the bankruptcy of `debtor`. -/
def Honours (s : GameEngineState) (debtor : RoomPlayerId) : GameEngineIntent → Prop
  | .payJailFine _ | .useGetOutOfJailCard _ | .finishGameByTime _
  | .finishGameAfterLastHumanLeft _ => False
  | .declareBankruptcy p _ =>
    debtor = p ∨ ¬ EndsGame (s.updatePlayer p GameEnginePlayer.liquidated)
  | _ => True

/-- What is sent honours the fine that is pending. -/
def HonoursFine (s : GameEngineState) (sent : Env × GameEngineIntent) : Prop :=
  ∀ debtor, owesFine s = some debtor → Honours s debtor sent.2

section Runs

variable {s s' t : GameEngineState} {p : RoomPlayerId} {events : List GameEngineEvent}
  {log : RoomPlayerId → Stay}

theorem JailChanges.ok (h : JailChanges s events s') (hfine : FineOk s') (hk : JailOk log s) :
    JailOk (readOn log events) s' where
  inmates := by
    intro y hy
    obtain ⟨x, hx, hid, hchange⟩ := h y hy
    rw [hid]
    exact hchange.ok hid (hk.inmates x hx)
  fine := hfine

theorem JailOk.inside (hk : JailOk log s) {pl : GameEnginePlayer} (hpl : s.player? p = some pl)
    (howes : owesFine s = some p) : pl.inJail = true := by
  have hok := hk.inmates pl (GameEngineState.player?_mem hpl)
  cases hjail : pl.inJail with
  | true => rfl
  | false =>
    refine absurd ?_ (hok.outside hjail)
    rw [GameEngineState.player?_id hpl]
    exact howes

theorem chain_jailOk {step : GameEngineState → List GameEngineEvent → GameEngineState → Prop}
    {settled : List GameEngineEvent → Prop} (h : Trace.Chain step settled s events s')
    (hvalid : ∀ s o t, Valid s → step s o t → Valid t)
    (hfine : ∀ s o t, FineOk s → step s o t → FineOk t)
    (hjail : ∀ s o t, Valid s → step s o t → JailChanges s o t)
    (hv : Valid s) (hk : JailOk log s) : JailOk (readOn log events) s' := by
  refine h.related (I := Valid) (R := JailOk) (fun _ => rfl) ?_ hvalid ?_ hv hk
  · intro b xs ys _
    funext q
    exact List.foldl_append
  · intro b s o t hv hk hstep
    exact (hjail s o t hv hstep).ok (hfine s o t hk.fine hstep) hk

theorem rolled_jailOk (hv : Valid s) (hk : JailOk log s)
    (h : Trace.Chain (RollStep p) Settled s events s') : JailOk (readOn log events) s' := by
  have haction : ∀ {s o t}, RollStep p s o t → Action unrestricted p s o t := by
    intro s o t hstep
    rcases hstep with ⟨_, hturn⟩ | hlanding
    · exact .turn hturn
    · exact .landing hlanding
  refine chain_jailOk h (fun _ _ _ hv hstep => (haction hstep).valid hv)
    (fun _ _ _ hf hstep => (haction hstep).fineOk hf) ?_ hv hk
  intro s o t hv hstep
  rcases hstep with ⟨hphase, pl, ho, hturn⟩ | ⟨pl, ha, hlanding⟩
  · refine hturn.jail hv ho (owesFine_none (hv.phase.debt_none ?_))
    rcases hphase with hphase | hphase <;> rw [hphase] <;> decide
  · exact hlanding.jail hv ha

theorem Turn.jailOk (hv : Valid s) {pl : GameEnginePlayer} (ho : OnTurn s p pl)
    (hk : JailOk log s) (howes : ∀ debtor, owesFine s ≠ some debtor)
    (h : Turn p pl s events s') : JailOk (readOn log events) s' :=
  (h.jail hv ho (Option.eq_none_iff_forall_ne_some.mpr howes)).ok (h.fineOk hk.fine) hk

theorem estateSteps_debt (h : Trace.Chain (EstateStep p) Settled s events t) : t.debt = s.debt := by
  refine h.invariant (I := fun u => u.debt = s.debt) ?_ rfl
  rintro u o u' hu ⟨pl, _, hestate⟩
  rw [← hu]
  cases hestate <;> rfl

/-- A move that honours a pending fine keeps to the log. -/
theorem Move.jailOk (hv : Valid s) (hk : JailOk log s) {env : Env} {intent : GameEngineIntent}
    (hhonours : HonoursFine s (env, intent)) (h : Move unrestricted s intent events s') :
    JailOk (readOn log events) s' := by
  cases h with
  | rolled ho hphase hroll =>
    exact rolled_jailOk hv hk (rollAndMove_steps hv.players.funded ho hphase hroll).1
  | finePaid ho hjail hcash => exact Turn.jailOk hv ho hk hhonours (.finePaid hjail hcash)
  | cardUsed ho hjail hcards hreturn =>
    exact Turn.jailOk hv ho hk hhonours (.cardUsed hjail hcards hreturn)
  | @turnEnded p pl _ ho hphase hend =>
    have hturn : Turn p pl s _ _ := endTurn_turn hphase hend
    have hdebt : s.debt = none := hv.phase.debt_none (by rw [hphase]; decide)
    refine hturn.jailOk hv ho hk fun debtor howes => ?_
    cases (owesFine_none hdebt).symm.trans howes
  | @estate p pl _ _ _ _ _ ho h =>
    have haction : Action unrestricted p s events s' := .estate ⟨pl, ho, h⟩
    exact h.jail.ok (haction.fineOk hk.fine) hk
  | @bidding p _ _ _ _ _ h =>
    have haction : Action unrestricted p s events s' := .bidding h
    exact h.jail.ok (haction.fineOk hk.fine) hk
  | @trade p _ _ _ _ _ h =>
    have haction : ∀ {s o t}, Trade _ p s o t → Action unrestricted p s o t := .trade
    exact chain_jailOk h (fun _ _ _ hv hstep => (haction hstep).valid hv)
      (fun _ _ _ hf hstep => (haction hstep).fineOk hf) (fun _ _ _ _ hstep => hstep.jail) hv hk
  | debtPaid h =>
    refine (h.jail hv (hk.fine _ h.pending) (hk.inside h.player)).ok ?_ hk
    exact fineOk_none rfl
  | bankrupt h => exact (h.jail hv hhonours).ok (h.settlement.fineOk hk.fine) hk
  | @resolved p debt raised settled t _ hdebt hdebtor hraise h =>
    have haction : ∀ {s o t}, EstateStep p s o t → Action unrestricted p s o t := .estate
    have hv' : Valid t :=
      hraise.invariant (fun _ _ _ hv hstep => (haction hstep).valid hv) hv
    have hk' : JailOk (readOn log raised) t := by
      refine chain_jailOk hraise (fun _ _ _ hv hstep => (haction hstep).valid hv)
        (fun _ _ _ hf hstep => (haction hstep).fineOk hf) (fun _ _ _ _ hstep => ?_) hv hk
      obtain ⟨pl, _, hestate⟩ := hstep
      exact hestate.jail
    have hreads : readOn log (raised ++ settled) = readOn (readOn log raised) settled := by
      funext q
      exact List.foldl_append
    rw [hreads]
    rcases h with ⟨debt', pl, hpays, rfl, rfl⟩ | h
    · refine (hpays.jail hv' (hk'.fine _ hpays.pending) (hk'.inside hpays.player)).ok ?_ hk'
      exact fineOk_none rfl
    · -- the debtor is the one that goes bankrupt
      refine (h.jail hv' fun q howes => .inl ?_).ok (h.settlement.fineOk hk'.fine) hk'
      obtain ⟨found, hfound, rfl⟩ := Option.map_eq_some_iff.mp howes
      have hpending : t.debt = some debt :=
        (estateSteps_debt hraise).trans (pendingDebt_eq_some.mp hdebt).2
      cases hpending.symm.trans (Option.mem_filter_iff.mp hfound).1
      exact hdebtor
  | @finished _ event hactor _ hevent =>
    have howes : owesFine s = none := by
      refine Option.eq_none_iff_forall_ne_some.mpr fun debtor howes => ?_
      cases intent with
      | finishGameByTime | finishGameAfterLastHumanLeft => exact hhonours debtor howes
      | _ => cases hactor
    have hchanges : JailChanges s [event] (finishedState s) := by
      refine .same rfl ((owesFine_none rfl).trans howes.symm) (quiet_all ?_)
      cases hevent <;> simp [inmate?]
    exact hchanges.ok (fineOk_none rfl) hk

end Runs

/-! ## The accounts -/

/-- Inmates are where the jail is and wait two turns at most or owe the fine, and who owes it is an
inmate. -/
structure JailAccounted (s : GameEngineState) : Prop where
  place : ∀ pl ∈ s.players, pl.inJail = true → pl.position = s.board.jailPosition
  count : ∀ pl ∈ s.players, pl.inJail = true → pl.jailTurnCount ≤ 2 ∨
    ∃ debt, s.debt = some debt ∧ debt.reason = .jailFine ∧ debt.roomPlayerId = pl.roomPlayerId
  debtor : ∀ debt, s.debt = some debt → debt.reason = .jailFine →
    ∃ pl, s.player? debt.roomPlayerId = some pl ∧ pl.inJail = true

section Accounts

variable {s s' start : GameEngineState} {p : RoomPlayerId} {events : List GameEngineEvent}
  {log : RoomPlayerId → Stay} {input : CreateInitialGameStateInput}
  {sent : List (Env × GameEngineIntent)}

theorem owesFine_eq_some : owesFine s = some p ↔
    ∃ debt, s.debt = some debt ∧ debt.reason = .jailFine ∧ debt.roomPlayerId = p := by
  simp only [owesFine, Option.map_eq_some_iff, Option.filter_eq_some_iff, decide_eq_true_eq,
    and_assoc]

theorem JailOk.debtor (hv : Valid s) (hk : JailOk log s) (howes : owesFine s = some p) :
    p = s.currentTurnRoomPlayerId ∧ ∃ pl, s.player? p = some pl ∧ pl.inJail = true ∧
      maxJailTurnCount ≤ pl.jailTurnCount := by
  obtain ⟨debt, hdebt, _, rfl⟩ := owesFine_eq_some.mp howes
  have hok := hv.phase.debtOk debt hdebt
  have hphase : s.phase = .awaitingDebtResolution :=
    hv.phase.debt.mp (Option.isSome_iff_exists.mpr ⟨debt, hdebt⟩)
  obtain ⟨pl, hpl, _⟩ := hv.table.turn (inProgress_of_phase hphase rfl)
  rw [← hok.debtor] at hpl
  have hjail := hk.inside hpl howes
  have hinside := (hk.inmates pl (GameEngineState.player?_mem hpl)).inside hjail
  rw [GameEngineState.player?_id hpl] at hinside
  exact ⟨hok.debtor, pl, hpl, hjail, hinside.2.2.mp howes⟩

theorem JailOk.accounted (hv : Valid s) (hk : JailOk log s) : JailAccounted s where
  place := by
    intro pl hpl hjail
    rw [GameEngineState.board_eq]
    exact ((hk.inmates pl hpl).inside hjail).1
  count := by
    intro pl hpl hjail
    obtain ⟨_, _, howes⟩ := (hk.inmates pl hpl).inside hjail
    by_cases hcount : maxJailTurnCount ≤ pl.jailTurnCount
    · exact .inr (owesFine_eq_some.mp (howes.mpr hcount))
    · have hthree : maxJailTurnCount = 3 := rfl
      exact .inl (by omega)
  debtor := by
    intro debt hdebt hreason
    obtain ⟨_, pl, hpl, hjail, _⟩ := hk.debtor hv (owesFine_jailFine hdebt hreason)
    exact ⟨pl, hpl, hjail⟩

/-- The game does not account for a debtor it forgets. -/
theorem forgotten_unaccounted {pl : GameEnginePlayer} (hpl : pl ∈ s'.players)
    (hjail : pl.inJail = true) (hcount : maxJailTurnCount ≤ pl.jailTurnCount)
    (hdebt : s'.debt = none) : ¬ JailAccounted s' := by
  intro haccounted
  have hthree : maxJailTurnCount = 3 := rfl
  rcases haccounted.count pl hpl hjail with hle | ⟨debt, hpending, _⟩
  · omega
  · cases hdebt.symm.trans hpending

theorem released_unaccounted (howes : owesFine s = some p) (hdebt : s'.debt = s.debt)
    {f : GameEnginePlayer → GameEnginePlayer} (hf : ∀ x, (f x).roomPlayerId = x.roomPlayerId)
    (hplayers : s'.players = Keyed.modify GameEnginePlayer.roomPlayerId s.players p f)
    (hfree : ∀ x, (f x).inJail = false) : ¬ JailAccounted s' := by
  intro haccounted
  obtain ⟨debt, hpending, hreason, rfl⟩ := owesFine_eq_some.mp howes
  obtain ⟨pl, hpl, hjail⟩ := haccounted.debtor debt (hdebt.trans hpending) hreason
  rw [GameEngineState.player?, hplayers, Keyed.find_modify_self _ hf,
    Option.map_eq_some_iff] at hpl
  obtain ⟨x, _, rfl⟩ := hpl
  rw [hfree] at hjail
  cases hjail

/-- A move that does not honour a pending fine leaves a state that is not accounted for. -/
theorem Move.unaccounted (hv : Valid s) (hk : JailOk log s) {env : Env}
    {intent : GameEngineIntent} (h : Move unrestricted s intent events s')
    (hnot : ¬ HonoursFine s (env, intent)) : ¬ JailAccounted s' := by
  unfold HonoursFine at hnot
  push Not at hnot
  obtain ⟨debtor, howes, hbreaks⟩ := hnot
  obtain ⟨hcurrent, dl, hdl, hjail, hcount⟩ := hk.debtor hv howes
  cases h with
  | finePaid ho =>
    obtain rfl := hcurrent.trans ho.current
    refine released_unaccounted howes rfl ?_ rfl fun _ => rfl
    intro _; rfl
  | cardUsed ho =>
    obtain rfl := hcurrent.trans ho.current
    refine released_unaccounted howes rfl ?_ rfl fun _ => rfl
    intro _; rfl
  | finished =>
    have hmem : dl ∈ (finishedState s).players := GameEngineState.player?_mem hdl
    exact forgotten_unaccounted hmem hjail hcount rfl
  | @bankrupt p _ _ _ h =>
    obtain ⟨hother, hends⟩ := not_or.mp hbreaks
    have hends := Classical.not_not.mp hends
    obtain ⟨hsettlement, creditor, rest, hdeclared⟩ := h
    cases hsettlement with
    | debtPaid => cases hdeclared
    | @lastBankruptcy pl creditor decks =>
      have hplayer : (s.updatePlayer p GameEnginePlayer.liquidated).player? debtor = some dl := by
        rw [GameEngineState.player?_updatePlayer, if_neg hother]
        · exact hdl
        · intro _; rfl
      exact forgotten_unaccounted (GameEngineState.player?_mem hplayer) hjail hcount rfl
    | bankruptcy _ _ hgoes | ownBankruptcy _ _ hgoes => exact absurd hends hgoes
    | finished _ hevent =>
      obtain ⟨rfl, _⟩ := List.cons.inj hdeclared
      cases hevent
  | estate _ hdeals | bidding _ hdeals | trade _ hdeals =>
    cases intent <;> first
      | exact absurd trivial hbreaks
      | cases hdeals
  | rolled | turnEnded | debtPaid | resolved => exact absurd trivial hbreaks

theorem createInitialGameState_jailOk {env : Env}
    (h : createInitialGameState env input = .ok s) : JailOk (stays []) s := by
  simp only [createInitialGameState, bind_eq_ok, orThrow_eq_ok, pure_eq_ok] at h
  obtain ⟨first, _, rfl⟩ := h
  refine ⟨?_, fineOk_none rfl⟩
  intro pl hpl
  obtain ⟨player, _, rfl⟩ := List.mem_map.mp hpl
  refine ⟨.inl rfl, fun hjail => ?_, fun _ howes => ?_⟩
  · cases hjail
  · cases (owesFine_none rfl).symm.trans howes

/-- A run whose intents honour pending fines keeps to the log. -/
theorem run_jailOk (hv : Valid start) (hk : JailOk (stays []) start)
    (h : Trace.Run (Trace.Guarded Accepts HonoursFine) start sent events s) :
    Valid s ∧ JailOk (stays events) s := by
  induction h with
  | refl => exact ⟨hv, hk⟩
  | @tail t u sent events i o _ hs ih =>
    obtain ⟨hvalid, hlog⟩ := ih
    obtain ⟨haccepts, hhonours⟩ := hs
    have hmove : Move unrestricted t i.2 o u :=
      reduceGameEngineIntent_move hvalid.sound (permits_unrestricted i.1 t i.2) haccepts
    have hreads : stays (events ++ o) = readOn (stays events) o := by
      funext q
      exact List.foldl_append
    rw [hreads]
    exact ⟨accepts_valid _ _ _ _ hvalid haccepts, hmove.jailOk hvalid hlog hhonours⟩

/-- In every game in which pending fines are honoured, jail is accounted for and a stay costs one
fine at most, and none if a card ended it. The first intent that does not honour a pending fine
leaves a state that is not accounted for. -/
theorem game_jailAccounted {env : Env} (hi : ValidInput input)
    (hbegun : createInitialGameState env input = .ok start)
    (h : Trace.Run (Trace.Guarded Accepts HonoursFine) start sent events s) :
    JailAccounted s ∧
    (∀ pl ∈ s.players, (stays events pl.roomPlayerId).fines.sum ≤ 50 ∧
      (stays events pl.roomPlayerId).fines.length ≤ 1 ∧
      ((stays events pl.roomPlayerId).byCard = true →
        (stays events pl.roomPlayerId).fines = [])) ∧
    ∀ next events' s', Accepts s next events' s' → ¬ HonoursFine s next → ¬ JailAccounted s' := by
  obtain ⟨hv, hk⟩ := run_jailOk (createInitialGameState_valid hi hbegun)
    (createInitialGameState_jailOk hbegun) h
  refine ⟨hk.accounted hv, fun pl hpl => ?_, fun next events' s' haccepts hnot => ?_⟩
  · rcases (hk.inmates pl hpl).fines with hnone | ⟨hone, hcard⟩
    · rw [hnone]
      exact ⟨by decide, by decide, fun _ => rfl⟩
    · rw [hone, hcard]
      exact ⟨by decide, by decide, fun hcontra => by cases hcontra⟩
  · have hmove : Move unrestricted s next.2 events' s' :=
      reduceGameEngineIntent_move hv.sound (permits_unrestricted next.1 s next.2) haccepts
    exact hmove.unaccounted hv hk hnot

/-- A third double leads to jail, where the player waits for a turn. -/
theorem threePlayers_jailAccounted : ∃ env sent events start s,
    createInitialGameState env threePlayers = .ok start ∧
    Trace.Run (Trace.Guarded Accepts HonoursFine) start sent events s ∧
    (s.player? ⟨1⟩).map GameEnginePlayer.inJail = some true ∧ JailAccounted s := by
  obtain ⟨r, hr, hjail⟩ := exists_ok_of_any (by decide +kernel :
    (playThree [.rollAndMove ⟨1⟩ [.int 2, .int 2], .endTurn ⟨1⟩,
      .rollAndMove ⟨1⟩ [.int 3, .int 3], .endTurn ⟨1⟩,
      .rollAndMove ⟨1⟩ [.int 1, .int 1]]).toOption.any
      (fun r => (r.state.player? ⟨1⟩).map GameEnginePlayer.inJail = some true) = true)
  obtain ⟨start, hstart, hgame⟩ := playRoom_game hr
  have hsafe : Trace.Run (Trace.Guarded Accepts fun _ sent => ∀ s, HonoursFine s sent) start _
      r.events r.state := hgame.run.guarded (by simp [atStart, HonoursFine, Honours])
  have hrun : Trace.Run (Trace.Guarded Accepts HonoursFine) start _ r.events r.state :=
    hsafe.mono fun s _ _ _ hs => ⟨hs.1, hs.2 s⟩
  exact ⟨_, _, _, start, r.state, hstart, hrun, of_decide_eq_true hjail,
    (game_jailAccounted threePlayers_valid hstart hrun).1⟩

/-- The player pays the fine while it is pending as a debt, and pays it again with the debt. -/
theorem threePlayers_finedTwice : ∃ sent events start s, Game threePlayers sent events start s ∧
    (stays events ⟨1⟩).fines = [50, 50] := by
  obtain ⟨r, hr, hfines⟩ := exists_ok_of_any (by decide +kernel :
    (playThree [.rollAndMove ⟨1⟩ [.int 2, .int 2], .endTurn ⟨1⟩,
      .rollAndMove ⟨1⟩ [.int 3, .int 3], .endTurn ⟨1⟩, .rollAndMove ⟨1⟩ [.int 1, .int 1],
      .proposeTrade ⟨⟨1⟩, ⟨2⟩, .int 1290, .int 1, [], [], none⟩, .acceptTrade ⟨2⟩ "trade",
      .endTurn ⟨1⟩,
      .rollAndMove ⟨2⟩ [.int 4, .int 6], .endTurn ⟨2⟩,
      .rollAndMove ⟨3⟩ [.int 4, .int 6], .endTurn ⟨3⟩,
      .rollAndMove ⟨1⟩ [.int 1, .int 2], .endTurn ⟨1⟩,
      .rollAndMove ⟨2⟩ [.int 4, .int 6], .endTurn ⟨2⟩,
      .rollAndMove ⟨3⟩ [.int 4, .int 6], .endTurn ⟨3⟩,
      .rollAndMove ⟨1⟩ [.int 1, .int 2], .endTurn ⟨1⟩,
      .rollAndMove ⟨2⟩ [.int 4, .int 6], .endTurn ⟨2⟩,
      .rollAndMove ⟨3⟩ [.int 4, .int 6], .endTurn ⟨3⟩,
      .proposeTrade ⟨⟨1⟩, ⟨2⟩, .int 1, .int 200, [], [], none⟩,
      .rollAndMove ⟨1⟩ [.int 1, .int 2], .acceptTrade ⟨2⟩ "trade",
      .payJailFine ⟨1⟩, .payDebt ⟨1⟩]).toOption.any
      (fun r => (stays r.events ⟨1⟩).fines = [50, 50]) = true)
  obtain ⟨start, _, hgame⟩ := playRoom_game hr
  exact ⟨_, r.events, start, r.state, hgame, of_decide_eq_true hfines⟩

end Accounts

end Rules
end LivePoly
