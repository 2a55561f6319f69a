import LivePoly.Rules.Live
import LivePoly.Rules.Terminal

/-!
# Rules.Deadlines

The deadline of a turn. It never lies after the end of the game. A command keeps it while the turn
goes on in the same phase and the deadline is ahead; the end of an auction is a change of phase, so
the turn then gets a new deadline even when the old one is ahead.
-/

namespace LivePoly
namespace Rules

open Engine Checked Service
open Trace (Run Guarded)

/-- A command and the times at which it is executed. -/
abbrev GivenCommand := ExecuteGameIntentCommand × Ambient

/-- The command is accepted. -/
def CommandAccepted (s : GameEngineState) (given : GivenCommand)
    (results : List GameCommandResult) (s' : GameEngineState) : Prop :=
  ∃ result, GameCommandsService.updater given.1 given.2 s = .ok (s', result) ∧ results = [result]

/-- The turn goes on in the same phase. -/
def TurnGoesOn (s s' : GameEngineState) : Prop :=
  s.turnNumber = s'.turnNumber ∧ s.currentTurnRoomPlayerId = s'.currentTurnRoomPlayerId ∧
    s.phase = s'.phase

/-- The auction is over, and the turn goes on. -/
def AuctionResolves (s s' : GameEngineState) : Prop :=
  s.phase = .awaitingAuctionBid ∧ s'.phase = .awaitingTurnEnd

/-- The command does not extend the deadline: not while the turn goes on, and not at the end of an
auction when the deadline is ahead. -/
structure KeepsDeadline (s : GameEngineState) (given : GivenCommand) (s' : GameEngineState) :
    Prop where
  notLater : TurnGoesOn s s' → ∀ deadline deadline', s.turnExpiresAt = some deadline →
    s'.turnExpiresAt = some deadline' → deadline' ≤ deadline
  kept : AuctionResolves s s' → ∀ deadline, s.turnExpiresAt = some deadline →
    given.2.deadlineNow < deadline → s'.turnExpiresAt = some deadline

/-- The command comes in time. While the turn goes on, its deadline is ahead, or it is the end of
the game. When an auction is over, the deadline has passed, or a turn that starts then ends at the
deadline anyway. (The clock may have been set back.) -/
structure InTime (s : GameEngineState) (given : GivenCommand) : Prop where
  goesOn : ∀ r deadline,
    reduceGameEngineIntent given.2.engine s (playedIntent given.1 given.2 s) = .ok r →
    TurnGoesOn s r.state → s.turnExpiresAt = some deadline →
    given.2.deadlineNow < deadline ∨ s.expiresAt = some deadline ∨
      given.2.renewedNow + turnTimeoutMs ≤ deadline
  resolves : ∀ r deadline,
    reduceGameEngineIntent given.2.engine s (playedIntent given.1 given.2 s) = .ok r →
    AuctionResolves s r.state → s.turnExpiresAt = some deadline →
    deadline ≤ given.2.deadlineNow ∨ given.2.renewedNow + turnTimeoutMs = deadline ∨
      s.expiresAt = some deadline ∧ deadline ≤ given.2.renewedNow + turnTimeoutMs

/-- The turn of a game that goes on ends before the game does. -/
structure OnTime (s : GameEngineState) : Prop where
  valid : Valid s
  timed : ∃ expiresAt, s.expiresAt = some expiresAt ∧ 0 < expiresAt ∧
    (InProgress s → ∃ deadline, s.turnExpiresAt = some deadline ∧ deadline ≤ expiresAt) ∧
    (¬ InProgress s → s.turnExpiresAt = none)

section Engine

variable {c : Condition} {s s' : GameEngineState} {p : RoomPlayerId} {env : Env}
  {events : List GameEngineEvent} {r : GameEngineResult}

/-! ## The engine leaves the end of the game alone -/

theorem Turn.expiresAt {pl : GameEnginePlayer} (h : Turn p pl s events s') :
    s'.expiresAt = s.expiresAt := by
  cases h with
  | @moved dice suppressDoubles =>
    obtain ⟨_, _, hdoubles⟩ := doublesState_eq s dice suppressDoubles
    unfold movedState
    rw [hdoubles]
    rfl
  | _ => rfl

theorem Landing.expiresAt {pl : GameEnginePlayer} (h : Landing p pl s events s') :
    s'.expiresAt = s.expiresAt := by
  cases h with
  | cardMoved =>
    unfold cardMovedState
    dsimp only
    split <;> rfl
  | _ => rfl

theorem Settlement.expiresAt {condition : GameEngineState → RoomPlayerId → Prop}
    (h : Settlement condition p s events s') : s'.expiresAt = s.expiresAt := by
  cases h with
  | @debtPaid debt =>
    unfold debtPaidState
    cases debt.creditorRoomPlayerId with
    | none =>
      dsimp only [Option.elim_none]
      split <;> rfl
    | some creditor =>
      dsimp only [Option.elim_some]
      split <;> rfl
  | _ => rfl

theorem Action.expiresAt (h : Action c p s events s') : s'.expiresAt = s.expiresAt := by
  cases h with
  | turn h =>
    obtain ⟨_, _, hturn⟩ := h
    exact hturn.expiresAt
  | landing h =>
    obtain ⟨_, _, hlanding⟩ := h
    exact hlanding.expiresAt
  | estate h =>
    obtain ⟨_, _, hestate⟩ := h
    cases hestate <;> rfl
  | bidding h => cases h <;> rfl
  | trade h => cases h <;> rfl
  | settlement h => exact h.expiresAt

theorem accepted_expiresAt (hv : Valid s) {intent : GameEngineIntent}
    (h : reduceGameEngineIntent env s intent = .ok r) : r.state.expiresAt = s.expiresAt := by
  obtain ⟨p, hactions⟩ := accepted_actions hv (permits_unrestricted env s intent) h
  refine hactions.invariant (I := fun t => t.expiresAt = s.expiresAt) ?_ rfl
  intro u o u' hu haction
  exact haction.expiresAt.trans hu

theorem accepted_over (hv : Valid s) {intent : GameEngineIntent}
    (h : reduceGameEngineIntent env s intent = .ok r) (hover : ¬ InProgress s) :
    ¬ InProgress r.state := by
  have hmove := reduceGameEngineIntent_move hv.sound (permits_unrestricted env s intent) h
  obtain ⟨s', events⟩ := r
  rcases accepted_inProgress hv h with hprogress | ⟨_, p, rfl | rfl⟩
  · exact absurd hprogress hover
  · cases hmove with
    | finePaid => exact hover
    | estate _ hdeals | bidding _ hdeals | trade _ hdeals => cases hdeals
    | finished hactor => cases hactor
  · cases hmove with
    | cardUsed => exact hover
    | estate _ hdeals | bidding _ hdeals | trade _ hdeals => cases hdeals
    | finished hactor => cases hactor

end Engine

section Deadline

variable {s s' next : GameEngineState} {given : GivenCommand} {results : List GameCommandResult}
  {deadlineNow renewedNow deadline expiresAt : Nat}

/-! ## The new deadline -/

theorem cappedByExpiry_eq (hexpires : s.expiresAt = some expiresAt) (hpos : 0 < expiresAt)
    (deadline : Nat) : cappedByExpiry s deadline = min deadline expiresAt := by
  have hfilter : s.expiresAt.filter (· ≠ 0) = some expiresAt := by
    rw [hexpires]
    exact if_pos (decide_eq_true (Nat.ne_of_gt hpos))
  rw [cappedByExpiry, hfilter]

theorem applyTurnDeadline_over (hover : ¬ InProgress next) :
    (applyTurnDeadline deadlineNow renewedNow s next).turnExpiresAt = none := by
  have hphase : next.phase = .finished ∨ next.phase = .cancelled := by
    by_contra hnot
    exact hover (not_or.mp hnot)
  rw [applyTurnDeadline, if_pos hphase]

theorem applyTurnDeadline_kept (hnext : InProgress next) (hexpires : next.expiresAt = some expiresAt)
    (hpos : 0 < expiresAt) (hdeadline : s.turnExpiresAt = some deadline)
    (hahead : deadlineNow < deadline) (hsame : TurnGoesOn s next) :
    (applyTurnDeadline deadlineNow renewedNow s next).turnExpiresAt =
      some (min deadline expiresAt) := by
  have hfilter : s.turnExpiresAt.filter (deadlineNow < ·) = some deadline := by
    rw [hdeadline]
    exact if_pos (decide_eq_true hahead)
  rw [applyTurnDeadline, if_neg (not_or.mpr hnext)]
  unfold TurnGoesOn at hsame
  simp only [hfilter]
  rw [if_pos hsame, cappedByExpiry_eq hexpires hpos]

theorem applyTurnDeadline_renewed (hnext : InProgress next)
    (hexpires : next.expiresAt = some expiresAt) (hpos : 0 < expiresAt)
    (hdeadline : s.turnExpiresAt = some deadline)
    (hnew : ¬ (deadlineNow < deadline ∧ TurnGoesOn s next)) :
    (applyTurnDeadline deadlineNow renewedNow s next).turnExpiresAt =
      some (min (renewedNow + turnTimeoutMs) expiresAt) := by
  unfold TurnGoesOn at hnew
  rw [applyTurnDeadline, if_neg (not_or.mpr hnext)]
  by_cases hahead : deadlineNow < deadline
  · have hfilter : s.turnExpiresAt.filter (deadlineNow < ·) = some deadline := by
      rw [hdeadline]
      exact if_pos (decide_eq_true hahead)
    simp only [hfilter]
    rw [if_neg fun hsame => hnew ⟨hahead, hsame⟩, cappedByExpiry_eq hexpires hpos]
  · have hfilter : s.turnExpiresAt.filter (deadlineNow < ·) = none := by
      rw [hdeadline]
      exact if_neg fun h => hahead (of_decide_eq_true h)
    simp only [hfilter]
    rw [cappedByExpiry_eq hexpires hpos]

/-! ## One command -/

theorem core_turn (h : core s' = core next) :
    s'.turnNumber = next.turnNumber ∧
      s'.currentTurnRoomPlayerId = next.currentTurnRoomPlayerId ∧ s'.phase = next.phase ∧
      s'.expiresAt = next.expiresAt :=
  ⟨congrArg (fun t => t.turnNumber) h, congrArg (fun t => t.currentTurnRoomPlayerId) h,
    congrArg (fun t => t.phase) h, congrArg (fun t => t.expiresAt) h⟩

/-- The deadline a command leaves. -/
theorem commandAccepted_deadline (ht : OnTime s) (h : CommandAccepted s given results s') :
    ∃ r expiresAt, reduceGameEngineIntent given.2.engine s (playedIntent given.1 given.2 s) = .ok r ∧
      s'.turnNumber = r.state.turnNumber ∧
      s'.currentTurnRoomPlayerId = r.state.currentTurnRoomPlayerId ∧
      s'.phase = r.state.phase ∧ s.expiresAt = some expiresAt ∧ 0 < expiresAt ∧
      s'.expiresAt = some expiresAt ∧ Valid s' ∧
      (¬ InProgress s' → s'.turnExpiresAt = none) ∧
      (InProgress s' → ∀ deadline, s.turnExpiresAt = some deadline →
        (given.2.deadlineNow < deadline ∧ TurnGoesOn s s' →
          s'.turnExpiresAt = some (min deadline expiresAt)) ∧
        (¬ (given.2.deadlineNow < deadline ∧ TurnGoesOn s s') →
          s'.turnExpiresAt = some (min (given.2.renewedNow + turnTimeoutMs) expiresAt))) := by
  obtain ⟨input, ambient⟩ := given
  obtain ⟨result, hupdate, rfl⟩ := h
  obtain ⟨r, hr, hs', _⟩ := updater_eq_ok.mp hupdate
  obtain ⟨expiresAt, hexpires, hpos, _⟩ := ht.timed
  have happlied : core (sourceApplied input ambient s r.state) = core r.state :=
    core_applyCommandSourceToState _ _ _ _ _
  obtain ⟨hnumber, hcurrent, hphase, hexpires'⟩ := core_turn happlied
  obtain ⟨hnumber', hcurrent', hphase', hend⟩ := core_turn (updated_core hs')
  have hkept : r.state.expiresAt = some expiresAt := (accepted_expiresAt ht.valid hr).trans hexpires
  have hprogress : InProgress s' ↔ InProgress (sourceApplied input ambient s r.state) := by
    unfold InProgress
    rw [hphase', hphase]
  have hsame : TurnGoesOn s s' ↔ TurnGoesOn s (sourceApplied input ambient s r.state) := by
    unfold TurnGoesOn
    rw [hnumber', hcurrent', hphase', hnumber, hcurrent, hphase]
  refine ⟨r, expiresAt, hr, hnumber', hcurrent', hphase', hexpires, hpos, hend.trans hkept,
    updated_valid ht.valid hupdate, ?_, ?_⟩
  · intro hover
    rw [hs']
    exact applyTurnDeadline_over fun h => hover (hprogress.mpr h)
  · intro hgoes deadline hdeadline
    rw [hsame]
    have hnext := hprogress.mp hgoes
    constructor
    · rintro ⟨hahead, hsame⟩
      rw [hs']
      exact applyTurnDeadline_kept hnext (hexpires'.trans hkept) hpos hdeadline hahead hsame
    · intro hnew
      rw [hs']
      exact applyTurnDeadline_renewed hnext (hexpires'.trans hkept) hpos hdeadline hnew

theorem commandAccepted_timed (ht : OnTime s) (h : CommandAccepted s given results s') :
    OnTime s' := by
  obtain ⟨r, expiresAt, hr, _, _, hphase, hexpires, hpos, hexpires', hvalid, hover, hgoes⟩ :=
    commandAccepted_deadline ht h
  refine ⟨hvalid, expiresAt, hexpires', hpos, fun hprogress => ?_, hover⟩
  obtain ⟨expiresAt', hsame, _, htimed, _⟩ := ht.timed
  cases hexpires.symm.trans hsame
  have hbefore : InProgress s := by
    by_contra hnot
    refine accepted_over ht.valid hr hnot ?_
    unfold InProgress at hprogress ⊢
    rwa [← hphase]
  obtain ⟨deadline, hdeadline, _⟩ := htimed hbefore
  obtain ⟨hkept, hrenewed⟩ := hgoes hprogress deadline hdeadline
  by_cases hcase : given.2.deadlineNow < deadline ∧ TurnGoesOn s s'
  · exact ⟨_, hkept hcase, min_le_right _ _⟩
  · exact ⟨_, hrenewed hcase, min_le_right _ _⟩

/-- The deadline is kept by the commands that come in time, and by no other. -/
theorem keepsDeadline_iff (ht : OnTime s) (h : CommandAccepted s given results s') :
    KeepsDeadline s given s' ↔ InTime s given := by
  obtain ⟨r, expiresAt, hr, hnumber, hcurrent, hphase, hexpires, hpos, _, _, hover, hgoes⟩ :=
    commandAccepted_deadline ht h
  obtain ⟨expiresAt', hsameEnd, _, htimed, huntimed⟩ := ht.timed
  cases hexpires.symm.trans hsameEnd
  have hsame : TurnGoesOn s s' ↔ TurnGoesOn s r.state := by
    unfold TurnGoesOn
    rw [hnumber, hcurrent, hphase]
  have hresolves : AuctionResolves s s' ↔ AuctionResolves s r.state := by
    unfold AuctionResolves
    rw [hphase]
  have hbefore : ∀ {deadline}, s.turnExpiresAt = some deadline →
      InProgress s ∧ deadline ≤ expiresAt := by
    intro deadline hdeadline
    by_cases hprogress : InProgress s
    · obtain ⟨_, hsome, hle⟩ := htimed hprogress
      cases hdeadline.symm.trans hsome
      exact ⟨hprogress, hle⟩
    · cases hdeadline.symm.trans (huntimed hprogress)
  have hstill : TurnGoesOn s s' → InProgress s → InProgress s' := by
    rintro ⟨_, _, hsamePhase⟩ hprogress
    unfold InProgress at hprogress ⊢
    rwa [← hsamePhase]
  have hnext : AuctionResolves s s' → InProgress s' ∧ ¬ TurnGoesOn s s' := by
    rintro ⟨hauction, hend⟩
    refine ⟨inProgress_of_phase hend rfl, fun hturn => ?_⟩
    cases hauction.symm.trans (hturn.2.2.trans hend)
  constructor
  · rintro ⟨hnotLater, hkept⟩
    constructor
    · intro r' deadline hr' hturn hdeadline
      cases hr.symm.trans hr'
      by_contra hnot
      simp only [not_or, Nat.not_lt, Nat.not_le] at hnot
      obtain ⟨hpassed, hearly, hlater⟩ := hnot
      have hturn := hsame.mpr hturn
      obtain ⟨hprogress, hend⟩ := hbefore hdeadline
      obtain ⟨_, hrenewed⟩ := hgoes (hstill hturn hprogress) deadline hdeadline
      have hle := hnotLater hturn _ _ hdeadline (hrenewed fun h => Nat.not_lt.mpr hpassed h.1)
      rcases min_le_iff.mp hle with hsoon | hsoon
      · omega
      · exact hearly (hexpires.trans (congrArg some (le_antisymm hsoon hend)))
    · intro r' deadline hr' hend hdeadline
      cases hr.symm.trans hr'
      have hend := hresolves.mpr hend
      obtain ⟨hprogress, hother⟩ := hnext hend
      obtain ⟨_, hrenewed⟩ := hgoes hprogress deadline hdeadline
      by_cases hahead : given.2.deadlineNow < deadline
      · right
        have hsome := (hrenewed fun h => hother h.2).symm.trans (hkept hend deadline hdeadline hahead)
        have hmin := Option.some.inj hsome
        rcases min_choice (given.2.renewedNow + turnTimeoutMs) expiresAt with hfresh | hlast
        · exact .inl (hfresh.symm.trans hmin)
        · right
          have hdeadlineEnd : expiresAt = deadline := hlast.symm.trans hmin
          refine ⟨hexpires.trans (congrArg some hdeadlineEnd), ?_⟩
          rw [← hmin]
          exact min_le_left _ _
      · exact .inl (Nat.not_lt.mp hahead)
  · rintro ⟨hgoesOn, hresolved⟩
    constructor
    · intro hturn deadline deadline' hdeadline hdeadline'
      obtain ⟨hprogress, hend⟩ := hbefore hdeadline
      obtain ⟨hkept, hrenewed⟩ := hgoes (hstill hturn hprogress) deadline hdeadline
      by_cases hahead : given.2.deadlineNow < deadline
      · cases hdeadline'.symm.trans (hkept ⟨hahead, hturn⟩)
        exact min_le_left _ _
      · cases hdeadline'.symm.trans (hrenewed fun h => hahead h.1)
        rcases hgoesOn r deadline hr (hsame.mp hturn) hdeadline with hsoon | hlast | hfresh
        · exact absurd hsoon hahead
        · cases hexpires.symm.trans hlast
          exact min_le_right _ _
        · exact (min_le_left _ _).trans hfresh
    · intro hend deadline hdeadline hahead
      obtain ⟨hprogress, hother⟩ := hnext hend
      obtain ⟨_, hle⟩ := hbefore hdeadline
      obtain ⟨_, hrenewed⟩ := hgoes hprogress deadline hdeadline
      rw [hrenewed fun h => hother h.2]
      rcases hresolved r deadline hr (hresolves.mp hend) hdeadline with hpast | hfresh | ⟨hlast, hlater⟩
      · exact absurd hahead (Nat.not_lt.mpr hpast)
      · rw [hfresh, min_eq_left hle]
      · cases hexpires.symm.trans hlast
        rw [min_eq_right hlater]

end Deadline

/-! ## Runs -/

section Runs

variable {input : CreateInitialGameStateInput} {env : Env} {start last : GameEngineState}
  {commands : List GivenCommand} {results : List GameCommandResult}

theorem createInitialGameState_timed (hi : ValidInput input) (hduration : 0 < input.durationMinutes)
    (hstart : createInitialGameState env input = .ok start) : OnTime start := by
  refine ⟨createInitialGameState_valid hi hstart, ?_⟩
  simp only [createInitialGameState, bind_eq_ok, pure_eq_ok] at hstart
  obtain ⟨_, _, rfl⟩ := hstart
  refine ⟨_, rfl, by omega, fun _ => ⟨_, rfl, min_le_right _ _⟩, fun hover => ?_⟩
  exact absurd (inProgress_of_phase rfl rfl) hover

/-- In every run of commands, at any times, a game that goes on has a deadline, not after its end.
The commands of a run keep the deadline exactly if each comes in time. -/
theorem deadlines_kept_iff (hi : ValidInput input) (hduration : 0 < input.durationMinutes)
    (hstart : createInitialGameState env input = .ok start)
    (hrun : Run CommandAccepted start commands results last) :
    (InProgress last → ∃ deadline expiresAt, last.turnExpiresAt = some deadline ∧
      last.expiresAt = some expiresAt ∧ deadline ≤ expiresAt) ∧
    (Run (fun s given results s' => CommandAccepted s given results s' ∧ KeepsDeadline s given s')
        start commands results last ↔
      Run (Guarded CommandAccepted InTime) start commands results last) := by
  have htimed := createInitialGameState_timed hi hduration hstart
  constructor
  · intro hprogress
    have hlast := hrun.invariant (fun _ _ _ _ ht hstep => commandAccepted_timed ht hstep) htimed
    obtain ⟨expiresAt, hexpires, _, hdeadline, _⟩ := hlast.timed
    obtain ⟨deadline, hsome, hle⟩ := hdeadline hprogress
    exact ⟨deadline, expiresAt, hsome, hexpires, hle⟩
  · refine Run.good_iff_guarded (fun _ _ _ _ ht hstep => keepsDeadline_iff ht hstep) ?_ htimed
    exact fun _ _ _ _ ht hstep _ => commandAccepted_timed ht hstep

end Runs

/-! ## A trade in time, and an auction -/

/-- The commands, one after the other. -/
def playCommands (condition : GameEngineState → GivenCommand → Bool) (s : GameEngineState)
    (commands : List GivenCommand) : Option (GameEngineState × List GameCommandResult) :=
  Trace.play (fun s given =>
      if condition s given then
        (GameCommandsService.updater given.1 given.2 s).toOption.map fun done => (done.1, [done.2])
      else none) s commands

/-- No auction is going on, and the deadline is ahead. -/
def isAhead (s : GameEngineState) (given : GivenCommand) : Bool :=
  s.phase ≠ .awaitingAuctionBid && s.turnExpiresAt.any (given.2.deadlineNow < ·)

theorem playCommands_run {condition : GameEngineState → GivenCommand → Bool}
    {s last : GameEngineState} {commands : List GivenCommand} {results : List GameCommandResult}
    (h : playCommands condition s commands = some (last, results)) :
    Run (Guarded CommandAccepted fun s given => condition s given = true) s commands results
      last := by
  refine (Trace.play_guarded h).mono fun s given results s' hstep => ⟨?_, hstep.2⟩
  obtain ⟨⟨s', result⟩, hdone, heq⟩ := Option.map_eq_some_iff.mp hstep.1
  cases heq
  refine ⟨result, ?_, rfl⟩
  cases hupdate : GameCommandsService.updater given.1 given.2 s with
  | error error =>
    rw [hupdate] at hdone
    cases hdone
  | ok done =>
    rw [hupdate] at hdone
    cases hdone
    rfl

theorem isAhead_inTime {s : GameEngineState} {given : GivenCommand} (h : isAhead s given = true) :
    InTime s given := by
  obtain ⟨hphase, hahead⟩ := Bool.and_eq_true_iff.mp h
  obtain ⟨deadline, hdeadline, hahead⟩ := (Option.any_eq_true _ _).mp hahead
  constructor
  · intro r deadline' _ _ hsome
    cases hdeadline.symm.trans hsome
    exact .inl (of_decide_eq_true hahead)
  · intro r _ _ hends
    exact absurd hends.1 (of_decide_eq_true hphase)

/-- A command of a player at the given time. -/
def commandAt (now : Nat) (p : RoomPlayerId) (intent : GameEngineIntent) : GivenCommand :=
  (⟨some p, intent, none⟩, ⟨now, ⟨now, "trade"⟩, now, now, (1, 1), none⟩)

/-- After it has bought Ghana the first player offers it to the second one. -/
theorem trade_inTime : ∃ start last results, createInitialGameState ⟨0, ""⟩ threePlayers = .ok start ∧
    last.turnExpiresAt = some 91000 ∧
    Run (fun s given results s' => CommandAccepted s given results s' ∧ KeepsDeadline s given s')
      start [commandAt 500 ⟨1⟩ (.rollAndMove ⟨1⟩ [.int 1, .int 2]),
        commandAt 1000 ⟨1⟩ (.buyProperty ⟨1⟩),
        commandAt 2000 ⟨1⟩ (.proposeTrade ⟨⟨1⟩, ⟨2⟩, .int 0, .int 80, ["ghana"], [], none⟩)]
      results last := by
  obtain ⟨start, hstart, htest⟩ := exists_ok_of_any (by decide +kernel :
    (createInitialGameState ⟨0, ""⟩ threePlayers).toOption.any (fun start =>
      (playCommands isAhead start
        [commandAt 500 ⟨1⟩ (.rollAndMove ⟨1⟩ [.int 1, .int 2]),
          commandAt 1000 ⟨1⟩ (.buyProperty ⟨1⟩),
          commandAt 2000 ⟨1⟩ (.proposeTrade
            ⟨⟨1⟩, ⟨2⟩, .int 0, .int 80, ["ghana"], [], none⟩)]).any
        fun done => done.1.turnExpiresAt = some 91000) = true)
  obtain ⟨⟨last, results⟩, hplayed, hdeadline⟩ := (Option.any_eq_true _ _).mp htest
  have hrun := playCommands_run hplayed
  refine ⟨start, last, results, hstart, of_decide_eq_true hdeadline, ?_⟩
  refine (deadlines_kept_iff threePlayers_valid (by decide) hstart hrun.unguarded).2.mpr ?_
  exact hrun.mono fun _ _ _ _ hstep => ⟨hstep.1, isAhead_inTime hstep.2⟩

/-- Everybody passes, the last one at 1000. The deadline of the turn was 90000 and is 91000. -/
theorem auction_extends : ∃ start s s' results resolved,
    createInitialGameState ⟨0, ""⟩ threePlayers = .ok start ∧
    Run CommandAccepted start [commandAt 0 ⟨1⟩ (.rollAndMove ⟨1⟩ [.int 1, .int 2]),
      commandAt 0 ⟨1⟩ (.declinePropertyPurchase ⟨1⟩), commandAt 0 ⟨1⟩ (.passAuctionBid ⟨1⟩),
      commandAt 0 ⟨2⟩ (.passAuctionBid ⟨2⟩)] results s ∧
    CommandAccepted s (commandAt 1000 ⟨3⟩ (.passAuctionBid ⟨3⟩)) resolved s' ∧
    AuctionResolves s s' ∧ s.turnExpiresAt = some 90000 ∧ s'.turnExpiresAt = some 91000 := by
  obtain ⟨start, hstart, htest⟩ := exists_ok_of_any (by decide +kernel :
    (createInitialGameState ⟨0, ""⟩ threePlayers).toOption.any (fun start =>
      (playCommands (fun _ _ => true) start
        [commandAt 0 ⟨1⟩ (.rollAndMove ⟨1⟩ [.int 1, .int 2]),
          commandAt 0 ⟨1⟩ (.declinePropertyPurchase ⟨1⟩), commandAt 0 ⟨1⟩ (.passAuctionBid ⟨1⟩),
          commandAt 0 ⟨2⟩ (.passAuctionBid ⟨2⟩)]).any fun done =>
        (GameCommandsService.updater (commandAt 1000 ⟨3⟩ (.passAuctionBid ⟨3⟩)).1
          (commandAt 1000 ⟨3⟩ (.passAuctionBid ⟨3⟩)).2 done.1).toOption.any fun resolved =>
            (done.1.phase = .awaitingAuctionBid ∧ resolved.1.phase = .awaitingTurnEnd) ∧
              done.1.turnExpiresAt = some 90000 ∧ resolved.1.turnExpiresAt = some 91000) = true)
  obtain ⟨⟨s, results⟩, hplayed, htest⟩ := (Option.any_eq_true _ _).mp htest
  obtain ⟨⟨s', result⟩, hresolved, htest⟩ := exists_ok_of_any htest
  obtain ⟨hresolves, hbefore, hafter⟩ := of_decide_eq_true htest
  exact ⟨start, s, s', results, [result], hstart, (playCommands_run hplayed).unguarded,
    ⟨result, hresolved, rfl⟩, hresolves, hbefore, hafter⟩

end Rules
end LivePoly
