import LivePoly.Rules.Reachable
import LivePoly.Service.GameQueue

/-!
# Rules.GameQueue

What the queue holds when a service has enqueued a job. Both services first remove the job that
has the id, if it is in one of certain states, and then add theirs: a job that stays keeps the new
one out. A bot's job stays when it is active, also when it is the one that enqueues the next. A
timeout job stays when it has completed, also when the state it was for is still to be played.
-/

namespace LivePoly
namespace Rules

open Engine Checked Service JobQueue
open Trace (Run)

/-! ## What is under an id -/

/-- The data a job has when it was added under the id. -/
def IsDataOf : GameJobId → GameJobData → Prop
  | .botTurn gameId _ _ _ _, data => data = .executeBotTurn gameId
  | .turnTimeout gameId timeout, data => data = .executeTurnTimeout gameId timeout
  | .gameExpiry gameId, data => ∃ expiresAt, data = .finishExpiredGame gameId expiresAt

/-- Every job has the data of its id. -/
def Fitting (queue : GameQueue) : Prop := queue.jobs.Fits IsDataOf

section Fits

variable {queue queue' : GameQueue} {id : GameJobId}

theorem fits_remove (h : Fitting queue) : Fitting (queue.remove id) := by
  unfold GameQueue.remove
  cases hremove : queue.jobs.remove id with
  | none => exact h
  | some jobs => exact Queue.Fits.remove h hremove

theorem fits_removeRecoverable (h : Fitting queue) :
    Fitting (GameBotQueueService.removeRecoverableDuplicateJob queue id) := by
  unfold GameBotQueueService.removeRecoverableDuplicateJob
  split
  · exact fits_remove h
  · exact h

theorem fits_removeFailed (h : Fitting queue) :
    Fitting (GameTurnTimerQueueService.removeFailedDuplicateJob queue id) := by
  unfold GameTurnTimerQueueService.removeFailedDuplicateJob
  split
  · exact fits_remove h
  · exact h

theorem fits_add {data : GameJobData} (h : Fitting queue) (hdata : IsDataOf id data)
    (delay : Nat) : Fitting (queue.add id data delay) :=
  Queue.Fits.add h hdata _

theorem fits_bot {gameId : GameId} {state : GameEngineState} {dice : DiceRoll}
    {thinking : Fin 901} (h : Fitting queue)
    (hcall : GameBotQueueService.enqueueIfBotCanAct queue gameId state dice thinking = .ok queue') :
    Fitting queue' := by
  unfold GameBotQueueService.enqueueIfBotCanAct at hcall
  obtain ⟨decision, _, hcall⟩ := bind_eq_ok.mp hcall
  cases decision with
  | none =>
    cases hcall
    exact h
  | some decision =>
    cases hcall
    refine fits_add (fits_removeRecoverable h) ?_ _
    exact rfl

theorem fits_step {input : GameQueueInput} {output : List Unit} (h : Fitting queue)
    (hstep : GameQueueSteps queue input output queue') : Fitting queue' := by
  have hstep := hstep.1
  cases input with
  | pass ms =>
    cases hstep
    exact h
  | enqueueIfBotCanAct gameId state dice thinking =>
    have hstep : (GameBotQueueService.enqueueIfBotCanAct queue gameId state dice thinking).toOption =
      some queue' := hstep
    cases hcall : GameBotQueueService.enqueueIfBotCanAct queue gameId state dice thinking with
    | ok queue'' =>
      rw [hcall] at hstep
      cases hstep
      exact fits_bot h hcall
    | error error =>
      rw [hcall] at hstep
      cases hstep
  | enqueueTurnTimer gameId state =>
    cases hstep
    unfold GameTurnTimerQueueService.enqueueTurnTimer
    split
    · exact h
    · refine fits_add (fits_removeFailed h) ?_ _
      exact rfl
  | enqueueGameExpiry gameId expiresAt =>
    cases hstep
    unfold GameTurnTimerQueueService.enqueueGameExpiry
    split
    · exact h
    · refine fits_add (fits_removeFailed h) ?_ _
      exact ⟨expiresAt, rfl⟩
  | take jobId =>
    obtain ⟨jobs, hjobs, heq⟩ := Option.bind_eq_some_iff.mp hstep
    cases heq
    exact Queue.Fits.take h hjobs
  | complete jobId =>
    obtain ⟨jobs, hjobs, heq⟩ := Option.bind_eq_some_iff.mp hstep
    cases heq
    exact Queue.Fits.complete h hjobs
  | fail jobId delay =>
    obtain ⟨jobs, hjobs, heq⟩ := Option.bind_eq_some_iff.mp hstep
    cases heq
    exact Queue.Fits.fail h hjobs
  | stalled jobId again =>
    obtain ⟨jobs, hjobs, heq⟩ := Option.bind_eq_some_iff.mp hstep
    cases heq
    exact Queue.Fits.stalled h hjobs
  | expire jobId =>
    rw [gameQueueStep] at hstep
    split at hstep
    · cases hstep
      exact fits_remove h
    · cases hstep

theorem fits_of_run {now : Nat} {inputs : List GameQueueInput} {outputs : List Unit}
    (hrun : Run GameQueueSteps (.empty now) inputs outputs queue) : Fitting queue :=
  hrun.invariant (fun _ _ _ _ h hstep => fits_step h hstep) Queue.Fits.empty

end Fits

/-! ## What is there after enqueueing -/

section Enqueue

variable {queue queue' : GameQueue} {id : GameJobId} {data : GameJobData} {delay : Nat}
  {gameId : GameId} {state : GameEngineState}

theorem remove_self {job : JobQueue.Job GameJobData} (h : queue.jobs id = some job)
    (hactive : job.state ≠ .active) : (queue.remove id).jobs id = none := by
  obtain ⟨jobs, hjobs⟩ := Queue.remove_isSome h hactive
  unfold GameQueue.remove
  rw [hjobs]
  exact (Queue.remove_eq_some hjobs).1

theorem removeRecoverable_self :
    (GameBotQueueService.removeRecoverableDuplicateJob queue id).jobs id =
      (queue.jobs id).filter JobQueue.Job.isPending := by
  unfold GameBotQueueService.removeRecoverableDuplicateJob GameQueue.getState
  cases hjob : queue.jobs id with
  | none => exact hjob
  | some job =>
    cases hstate : job.state with
    | waiting | active => simp [hjob, hstate, JobQueue.Job.isPending, Option.filter_some]
    | completed | failed =>
      simp [remove_self hjob, hstate, JobQueue.Job.isPending, Option.filter_some]

/-- A timeout job makes room only when it has failed. -/
theorem removeFailed_self :
    (GameTurnTimerQueueService.removeFailedDuplicateJob queue id).jobs id =
      (queue.jobs id).filter fun job => job.state ≠ .failed := by
  unfold GameTurnTimerQueueService.removeFailedDuplicateJob GameQueue.getState
  cases hjob : queue.jobs id with
  | none => exact hjob
  | some job =>
    cases hstate : job.state with
    | waiting | active | completed => simp [hjob, hstate, Option.filter_some]
    | failed => simp [remove_self hjob, hstate, Option.filter_some]

theorem add_self : (queue.add id data delay).jobs id = (queue.jobs id).or
    (some { data, state := .waiting, attemptsMade := 0, readyAt := queue.now + delay }) :=
  Queue.add_self ..

/-- Under the id of a bot's job there is, in the end, the one that was to be run or was being run,
or else the new one. -/
theorem enqueueIfBotCanAct_self {dice : DiceRoll} {thinking : Fin 901} {decision : BotDecision}
    (hdecision : GameBotService.chooseDecision dice state = .ok (some decision))
    (hcall : gameQueueStep queue (.enqueueIfBotCanAct gameId state dice thinking) = some queue') :
    ∃ readyAt, queue'.jobs (GameBotQueueService.jobId gameId state decision) =
      ((queue.jobs (GameBotQueueService.jobId gameId state decision)).filter JobQueue.Job.isPending).or
        (some ⟨.executeBotTurn gameId, .waiting, 0, readyAt⟩) := by
  have hcall : (GameBotQueueService.enqueueIfBotCanAct queue gameId state dice thinking).toOption =
    some queue' := hcall
  simp only [GameBotQueueService.enqueueIfBotCanAct, hdecision] at hcall
  cases hcall
  rw [← removeRecoverable_self]
  exact ⟨_, add_self⟩

theorem enqueueTurnTimer_self (hfinished : state.phase ≠ .finished)
    (hcancelled : state.phase ≠ .cancelled)
    (hcall : gameQueueStep queue (.enqueueTurnTimer gameId state) = some queue') :
    ∃ readyAt,
      queue'.jobs (.turnTimeout gameId (GameTurnTimerQueueService.timeoutJob state)) =
        ((queue.jobs (.turnTimeout gameId (GameTurnTimerQueueService.timeoutJob state))).filter
          fun job => job.state ≠ .failed).or
        (some ⟨.executeTurnTimeout gameId (GameTurnTimerQueueService.timeoutJob state), .waiting, 0,
          readyAt⟩) := by
  have hactive : ¬ (state.phase = .finished ∨ state.phase = .cancelled) := by
    rintro (h | h)
    · exact hfinished h
    · exact hcancelled h
  cases hcall
  unfold GameTurnTimerQueueService.enqueueTurnTimer
  rw [if_neg hactive, ← removeFailed_self]
  exact ⟨_, add_self⟩

end Enqueue

/-! ## Automation is re-armed -/

/-- The queue holds the bot's job for the state, and it has not started. -/
def BotArmed (queue : GameQueue) (gameId : GameId) (state : GameEngineState)
    (decision : BotDecision) : Prop :=
  ∃ job, queue.jobs (GameBotQueueService.jobId gameId state decision) = some job ∧
    job.data = .executeBotTurn gameId ∧ job.state = .waiting

/-- The queue holds a timeout job that is current for the state, and it has not finished. -/
def TimeoutArmed (queue : GameQueue) (gameId : GameId) (state : GameEngineState) : Prop :=
  ∃ id job data, queue.jobs id = some job ∧ job.data = .executeTurnTimeout gameId data ∧
    GameProcessor.isTimerJobCurrent data state = true ∧ job.isPending = true

section Armed

variable {queue queue' : GameQueue} {gameId : GameId} {state : GameEngineState}

theorem isTimerJobCurrent_iff {data : ExecuteTurnTimeoutJob} :
    GameProcessor.isTimerJobCurrent data state = true ↔
      data = GameTurnTimerQueueService.timeoutJob state := by
  obtain ⟨turnNumber, phase, current, key⟩ := data
  simp [GameProcessor.isTimerJobCurrent, GameTurnTimerQueueService.timeoutJob, and_assoc]

theorem timeoutArmed_iff (hfit : Fitting queue) : TimeoutArmed queue gameId state ↔
    ∃ job, queue.jobs (.turnTimeout gameId (GameTurnTimerQueueService.timeoutJob state)) =
      some job ∧ job.isPending = true := by
  constructor
  · rintro ⟨id, job, data, hjob, hdata, hcurrent, hpending⟩
    have hfits := hfit id job hjob
    rw [hdata] at hfits
    cases id with
    | botTurn => cases hfits
    | turnTimeout _ timeout =>
      cases hfits
      rw [isTimerJobCurrent_iff.mp hcurrent] at hjob
      exact ⟨job, hjob, hpending⟩
    | gameExpiry =>
      obtain ⟨_, hexpiry⟩ := hfits
      cases hexpiry
  · rintro ⟨job, hjob, hpending⟩
    exact ⟨_, job, _, hjob, hfit _ job hjob, isTimerJobCurrent_iff.mpr rfl, hpending⟩

theorem botArmed_iff (hfit : Fitting queue) {dice : DiceRoll} {thinking : Fin 901}
    {decision : BotDecision}
    (hdecision : GameBotService.chooseDecision dice state = .ok (some decision))
    (hcall : gameQueueStep queue (.enqueueIfBotCanAct gameId state dice thinking) = some queue') :
    BotArmed queue' gameId state decision ↔
      queue.getState (GameBotQueueService.jobId gameId state decision) ≠ some .active := by
  obtain ⟨readyAt, hself⟩ := enqueueIfBotCanAct_self hdecision hcall
  unfold BotArmed GameQueue.getState
  rw [hself]
  cases hjob : queue.jobs (GameBotQueueService.jobId gameId state decision) with
  | none => simp
  | some job =>
    have hdata : job.data = .executeBotTurn gameId := hfit _ job hjob
    cases hstate : job.state <;> simp [Option.filter_some, JobQueue.Job.isPending, hstate, hdata]

theorem timeoutArmed_after (hfit : Fitting queue) (hfinished : state.phase ≠ .finished)
    (hcancelled : state.phase ≠ .cancelled)
    (hcall : gameQueueStep queue (.enqueueTurnTimer gameId state) = some queue') :
    TimeoutArmed queue' gameId state ↔
      queue.getState (.turnTimeout gameId (GameTurnTimerQueueService.timeoutJob state)) ≠
        some .completed := by
  obtain ⟨readyAt, hself⟩ := enqueueTurnTimer_self hfinished hcancelled hcall
  rw [timeoutArmed_iff (fits_step hfit ⟨hcall, rfl⟩), hself]
  unfold GameQueue.getState
  cases queue.jobs (.turnTimeout gameId (GameTurnTimerQueueService.timeoutJob state)) with
  | none => simp [JobQueue.Job.isPending]
  | some job => cases hstate : job.state <;> simp [Option.filter_some, JobQueue.Job.isPending, hstate]

/-- After any history of the queue, enqueueing for a bot that can act leaves its job to be started
exactly when no worker has a job with its id, and enqueueing the timeout of a state that is not
terminal leaves a current job exactly when no job with its id has completed and is kept. -/
theorem automation_rearmed {now : Nat} {inputs : List GameQueueInput} {outputs : List Unit}
    (hrun : Run GameQueueSteps (.empty now) inputs outputs queue) :
    (∀ gameId state dice thinking decision queue',
      GameBotService.chooseDecision dice state = .ok (some decision) →
      gameQueueStep queue (.enqueueIfBotCanAct gameId state dice thinking) = some queue' →
      (BotArmed queue' gameId state decision ↔
        queue.getState (GameBotQueueService.jobId gameId state decision) ≠ some .active)) ∧
    ∀ gameId state queue', state.phase ≠ .finished → state.phase ≠ .cancelled →
      gameQueueStep queue (.enqueueTurnTimer gameId state) = some queue' →
      (TimeoutArmed queue' gameId state ↔
        queue.getState (.turnTimeout gameId (GameTurnTimerQueueService.timeoutJob state)) ≠
          some .completed) := by
  have hfit := fits_of_run hrun
  constructor
  · intro gameId state dice thinking decision queue' hdecision hcall
    exact botArmed_iff hfit hdecision hcall
  · intro gameId state queue' hfinished hcancelled hcall
    exact timeoutArmed_after hfit hfinished hcancelled hcall

end Armed

/-! ## A room with a bot -/

def humanAndBot : CreateInitialGameStateInput where
  roomId := "room"
  startedAt := some 0
  durationMinutes := 60
  players := [⟨⟨1⟩, .human, none, 1⟩, ⟨⟨2⟩, .bot, some .hard, 2⟩]

/-- The bot goes to jail with its third doubles, and is to play again. -/
def botToJail : List GameEngineIntent :=
  [.rollAndMove ⟨1⟩ [.int 1, .int 2], .declinePropertyPurchase ⟨1⟩, .passAuctionBid ⟨1⟩,
    .passAuctionBid ⟨2⟩, .endTurn ⟨1⟩, .rollAndMove ⟨2⟩ [.int 5, .int 5], .endTurn ⟨2⟩,
    .rollAndMove ⟨2⟩ [.int 5, .int 5], .endTurn ⟨2⟩, .rollAndMove ⟨2⟩ [.int 5, .int 5],
    .endTurn ⟨2⟩, .rollAndMove ⟨1⟩ [.int 3, .int 4], .endTurn ⟨1⟩]

/-- A worker takes the bot's job for the state. -/
def botJobTaken (state : GameEngineState) (decision : BotDecision) : List GameQueueInput :=
  [.enqueueIfBotCanAct ⟨0⟩ state (1, 2) 0, .pass 900,
    .take (GameBotQueueService.jobId ⟨0⟩ state decision)]

/-- The timeout job for the state runs. -/
def timeoutJobRun (state : GameEngineState) : List GameQueueInput :=
  [.enqueueTurnTimer ⟨0⟩ state, .pass 90000,
    .take (.turnTimeout ⟨0⟩ (GameTurnTimerQueueService.timeoutJob state)),
    .complete (.turnTimeout ⟨0⟩ (GameTurnTimerQueueService.timeoutJob state))]

/-- The queue after the inputs. -/
def playQueue (queue : GameQueue) (inputs : List GameQueueInput) : Option (GameQueue × List Unit) :=
  Trace.play (fun queue input => (gameQueueStep queue input).map fun next => (next, [])) queue inputs

theorem playQueue_run {queue queue' : GameQueue} {inputs : List GameQueueInput}
    {outputs : List Unit} (h : playQueue queue inputs = some (queue', outputs)) :
    Run GameQueueSteps queue inputs outputs queue' := by
  refine (Trace.play_run h).mono fun s i o t hstep => ?_
  obtain ⟨next, hnext, heq⟩ := Option.map_eq_some_iff.mp hstep
  cases heq
  exact ⟨hnext, rfl⟩

theorem enqueueIfBotCanAct_returns {queue : GameQueue} {gameId : GameId} {state : GameEngineState}
    {dice : DiceRoll} {thinking : Fin 901} {decision : BotDecision}
    (h : GameBotService.chooseDecision dice state = .ok (some decision)) :
    ∃ queue', gameQueueStep queue (.enqueueIfBotCanAct gameId state dice thinking) = some queue' := by
  rw [gameQueueStep, GameBotQueueService.enqueueIfBotCanAct, h]
  exact ⟨_, rfl⟩

/-- The bot pays its fine and is to roll in the same phase of the same turn: the job that is
processed has the id of the next one, and nothing is enqueued. -/
theorem humanAndBot_botNotRearmed : ∃ s r decision next outputs queue queue',
    Reachable humanAndBot s ∧ GameBotService.chooseDecision (1, 2) s = .ok (some decision) ∧
    reduceGameEngineIntent ⟨0, "trade"⟩ s decision.intent = .ok r ∧
    GameBotService.chooseDecision (1, 2) r.state = .ok (some next) ∧
    Run GameQueueSteps (.empty 0) (botJobTaken s decision) outputs queue ∧
    gameQueueStep queue (.enqueueIfBotCanAct ⟨0⟩ r.state (1, 2) 0) = some queue' ∧
    ¬ BotArmed queue' ⟨0⟩ r.state next := by
  obtain ⟨before, hbefore, htest⟩ := exists_ok_of_any (by decide +kernel :
    (playRoom ⟨0, "room"⟩ humanAndBot (atStart botToJail)).toOption.any (fun before =>
      (GameBotService.chooseDecision (1, 2) before.state).toOption.any fun found =>
        found.any fun decision =>
          (reduceGameEngineIntent ⟨0, "trade"⟩ before.state decision.intent).toOption.any fun r =>
            (GameBotService.chooseDecision (1, 2) r.state).toOption.any fun again =>
              again.any fun next =>
                (playQueue (.empty 0) (botJobTaken before.state decision)).any fun last =>
                  decide (last.1.getState (GameBotQueueService.jobId ⟨0⟩ r.state next) =
                    some .active)) = true)
  obtain ⟨_, hfound, hdecides⟩ := exists_ok_of_any htest
  obtain ⟨decision, rfl, haccepted⟩ := (Option.any_eq_true _ _).mp hdecides
  obtain ⟨r, hr, hagain⟩ := exists_ok_of_any haccepted
  obtain ⟨_, hnext, hdecides⟩ := exists_ok_of_any hagain
  obtain ⟨next, rfl, hplays⟩ := (Option.any_eq_true _ _).mp hdecides
  obtain ⟨⟨queue, outputs⟩, hplay, hactive⟩ := (Option.any_eq_true _ _).mp hplays
  have hrun := playQueue_run hplay
  obtain ⟨queue', hcall⟩ := enqueueIfBotCanAct_returns hnext
  refine ⟨before.state, r, decision, next, outputs, queue, queue', playRoom_reachable hbefore,
    hfound, hr, hnext, hrun, hcall, fun harmed => ?_⟩
  exact (botArmed_iff (fits_of_run hrun) hnext hcall).mp harmed (of_decide_eq_true hactive)

/-- The timeout job for a state has run, but the state has been restored since: the watchdog's job
for it is kept out by the one that has completed. -/
theorem humanAndBot_timeoutNotRearmed : ∃ s outputs queue queue', Reachable humanAndBot s ∧
    s.phase ≠ .finished ∧ s.phase ≠ .cancelled ∧
    Run GameQueueSteps (.empty 0) (timeoutJobRun s) outputs queue ∧
    gameQueueStep queue (.enqueueTurnTimer ⟨0⟩ s) = some queue' ∧
    ¬ TimeoutArmed queue' ⟨0⟩ s := by
  obtain ⟨before, hbefore, htest⟩ := exists_ok_of_any (by decide +kernel :
    (playRoom ⟨0, "room"⟩ humanAndBot (atStart botToJail)).toOption.any (fun before =>
      (playQueue (.empty 0) (timeoutJobRun before.state)).any fun last =>
        decide (before.state.phase = .awaitingRoll ∧
          last.1.getState (.turnTimeout ⟨0⟩ (GameTurnTimerQueueService.timeoutJob before.state)) =
            some .completed)) = true)
  obtain ⟨⟨queue, outputs⟩, hplay, htest⟩ := (Option.any_eq_true _ _).mp htest
  obtain ⟨hphase, hcompleted⟩ := of_decide_eq_true htest
  have hrun := playQueue_run hplay
  have hfinished : before.state.phase ≠ .finished := by
    rw [hphase]
    decide
  have hcancelled : before.state.phase ≠ .cancelled := by
    rw [hphase]
    decide
  refine ⟨before.state, outputs, queue, _, playRoom_reachable hbefore, hfinished, hcancelled, hrun,
    rfl, fun harmed => ?_⟩
  exact (timeoutArmed_after (fits_of_run hrun) hfinished hcancelled rfl).mp harmed hcompleted

theorem humanAndBot_notRearmed :
    (∃ s r decision next outputs queue queue',
      Reachable humanAndBot s ∧ GameBotService.chooseDecision (1, 2) s = .ok (some decision) ∧
      reduceGameEngineIntent ⟨0, "trade"⟩ s decision.intent = .ok r ∧
      GameBotService.chooseDecision (1, 2) r.state = .ok (some next) ∧
      Run GameQueueSteps (.empty 0) (botJobTaken s decision) outputs queue ∧
      gameQueueStep queue (.enqueueIfBotCanAct ⟨0⟩ r.state (1, 2) 0) = some queue' ∧
      ¬ BotArmed queue' ⟨0⟩ r.state next) ∧
    ∃ s outputs queue queue', Reachable humanAndBot s ∧
      s.phase ≠ .finished ∧ s.phase ≠ .cancelled ∧
      Run GameQueueSteps (.empty 0) (timeoutJobRun s) outputs queue ∧
      gameQueueStep queue (.enqueueTurnTimer ⟨0⟩ s) = some queue' ∧
      ¬ TimeoutArmed queue' ⟨0⟩ s :=
  ⟨humanAndBot_botNotRearmed, humanAndBot_timeoutNotRearmed⟩

/-- When the bot's job has completed, the next one under its id is there to be started, and so is the
first timeout job for the state. -/
theorem humanAndBot_rearmed : ∃ s decision outputs queue queue' queue'',
    GameBotService.chooseDecision (1, 2) s = .ok (some decision) ∧
    Run GameQueueSteps (.empty 0)
      (botJobTaken s decision ++ [.complete (GameBotQueueService.jobId ⟨0⟩ s decision)])
      outputs queue ∧
    gameQueueStep queue (.enqueueIfBotCanAct ⟨0⟩ s (1, 2) 0) = some queue' ∧
    BotArmed queue' ⟨0⟩ s decision ∧
    gameQueueStep queue (.enqueueTurnTimer ⟨0⟩ s) = some queue'' ∧ TimeoutArmed queue'' ⟨0⟩ s := by
  obtain ⟨before, _, htest⟩ := exists_ok_of_any (by decide +kernel :
    (playRoom ⟨0, "room"⟩ humanAndBot (atStart botToJail)).toOption.any (fun before =>
      (GameBotService.chooseDecision (1, 2) before.state).toOption.any fun found =>
        found.any fun decision =>
          (playQueue (.empty 0) (botJobTaken before.state decision ++
              [.complete (GameBotQueueService.jobId ⟨0⟩ before.state decision)])).any fun last =>
            decide (before.state.phase = .awaitingRoll ∧
              last.1.getState (GameBotQueueService.jobId ⟨0⟩ before.state decision) ≠
                some .active ∧
              last.1.getState
                (.turnTimeout ⟨0⟩ (GameTurnTimerQueueService.timeoutJob before.state)) ≠
                some .completed)) = true)
  obtain ⟨_, hfound, hdecides⟩ := exists_ok_of_any htest
  obtain ⟨decision, rfl, hplays⟩ := (Option.any_eq_true _ _).mp hdecides
  obtain ⟨⟨queue, outputs⟩, hplay, hstates⟩ := (Option.any_eq_true _ _).mp hplays
  obtain ⟨hphase, hidle, hfree⟩ := of_decide_eq_true hstates
  have hrun := playQueue_run hplay
  obtain ⟨queue', hcall⟩ := enqueueIfBotCanAct_returns hfound
  have hrearmed := automation_rearmed hrun
  refine ⟨before.state, decision, outputs, queue, queue', _, hfound, hrun, hcall,
    (hrearmed.1 _ _ _ _ _ _ hfound hcall).mpr hidle, rfl, ?_⟩
  refine (hrearmed.2 _ _ _ ?_ ?_ rfl).mpr hfree <;> rw [hphase] <;> decide

end Rules
end LivePoly
