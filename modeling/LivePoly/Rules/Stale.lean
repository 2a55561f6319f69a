import Mathlib.Data.List.DropRight
import LivePoly.Rules.Recovery
import LivePoly.Service.Jobs

/-!
# Rules.Stale

Jobs that play for someone. A job checks the state it reads and chooses an intent for it, but its
command reads the state again, and only that second read is guarded by the script. So a job acts on
the state it was checked against as long as its command never reads a newer one on which the
engine still accepts the intent (`jobs_actOnChecked`); where it does read one, the job can go on to
commit its stale intent.
-/

namespace LivePoly
namespace Rules

open Engine Service Process

variable {τ κ : Type}

/-! ## The jobs -/

inductive Job where
  | turnTimeout (data : ExecuteTurnTimeoutJob)
  | botTurn (chooseDecision : Ambient → GameEngineState → Option BotDecision)

namespace Job

def process (json : StateCodec τ) : Job → Task τ (Option GameCommandResult)
  | turnTimeout data => GameProcessor.processExecuteTurnTimeout json data
  | botTurn chooseDecision => GameProcessor.processExecuteBotTurn json chooseDecision

/-- Whether the job goes on with the state it has read. -/
def isCurrent : Job → GameEngineState → Bool
  | turnTimeout data, state => GameProcessor.isTimerJobCurrent data state
  | botTurn _, _ => true

/-- The command the job sends for the state it has read. -/
def choose : Job → Ambient → GameEngineState → Option ExecuteGameIntentCommand
  | turnTimeout _, ambient, state =>
    (chooseTimeoutIntent ambient.engine state ambient.dice).map fun intent =>
      { roomPlayerId := GameProcessor.getIntentRoomPlayerId intent, intent, source := some .timer }
  | botTurn chooseDecision, ambient, state =>
    (chooseDecision ambient state).map fun decision =>
      { roomPlayerId := some decision.roomPlayerId, intent := decision.intent, source := some .bot }

theorem process_eq (json : StateCodec τ) (job : Job) : job.process json = (do
    let state ← GameRecoveryService.getOrRecover json
    if !job.isCurrent state then return none
    else
      let ambient ← readAmbient
      match job.choose ambient state with
      | none => return none
      | some input => return some (← GameCommandsService.executeIntent json input)) := by
  cases job with
  | turnTimeout data =>
    refine congrArg (GameRecoveryService.getOrRecover json >>= ·) (funext fun state => ?_)
    cases hcurrent : GameProcessor.isTimerJobCurrent data state with
    | false => simp [isCurrent, hcurrent]
    | true =>
      simp only [isCurrent, hcurrent, choose]
      refine congrArg (readAmbient >>= ·) (funext fun ambient => ?_)
      cases chooseTimeoutIntent ambient.engine state ambient.dice <;> rfl
  | botTurn chooseDecision =>
    refine congrArg (GameRecoveryService.getOrRecover json >>= ·) (funext fun state => ?_)
    refine congrArg (readAmbient >>= ·) (funext fun ambient => ?_)
    simp only [choose]
    cases chooseDecision ambient state <;> rfl

end Job

/-- Who works on a game: its calls and its jobs. -/
inductive Worker where
  | call (call : Call)
  | job (job : Job)

def Worker.run (json : StateCodec τ) : Worker → Task τ Unit
  | .call c => do let _ ← c.run json
  | .job j => do let _ ← j.process json

/-! ## The stages of a job -/

/-- A job reads a state to check, chooses a command for it, and plays it; `since` is what it has
done since. -/
inductive JobStage (τ : Type) where
  | reading
  | checked (state : GameEngineState)
  | playing (state : GameEngineState) (input : ExecuteGameIntentCommand)
      (since : List (Act (Op τ) (Ans τ)))

/-- The text stands for the state the job checks, if it is one. -/
def checking (json : StateCodec τ) (text : τ) : JobStage τ :=
  match json.parse text with
  | some state => .checked state
  | none => .reading

def JobStage.note (json : StateCodec τ) (job : Job) : JobStage τ → Act (Op τ) (Ans τ) → JobStage τ
  | .reading, ⟨.get, some text⟩ => checking json text
  | .reading, ⟨.set value, _⟩ => checking json value
  | .checked state, ⟨.ambient, ambient⟩ =>
    match job.choose ambient state with
    | some input => .playing state input []
    | none => .checked state
  | .playing state input since, act => .playing state input (since ++ [act])
  | stage, _ => stage

def jobStage (json : StateCodec τ) (job : Job) (past : List (Act (Op τ) (Ans τ))) : JobStage τ :=
  past.foldl (JobStage.note json job) .reading

section Stages

variable {json : StateCodec τ} {job : Job} {past since : List (Act (Op τ) (Ans τ))}
  {checked : GameEngineState} {input : ExecuteGameIntentCommand}

theorem jobStage_append (past : List (Act (Op τ) (Ans τ))) (act : Act (Op τ) (Ans τ)) :
    jobStage json job (past ++ [act]) = (jobStage json job past).note json job act := by
  unfold jobStage
  rw [List.foldl_append]
  rfl

theorem jobStage_playing (h : jobStage json job past = .playing checked input since)
    (more : List (Act (Op τ) (Ans τ))) :
    jobStage json job (past ++ more) = .playing checked input (since ++ more) := by
  induction more using List.reverseRecOn with
  | nil => rw [List.append_nil, List.append_nil, h]
  | append_singleton more act ih =>
    rw [← List.append_assoc, jobStage_append, ih, ← List.append_assoc]
    rfl

theorem note_reading (act : Act (Op τ) (Ans τ)) :
    JobStage.note json job .reading act ≠ .playing checked input since := by
  have hchecking : ∀ text, checking json text ≠ .playing checked input since := by
    intro text
    unfold checking
    cases json.parse text <;> nofun
  obtain ⟨o, answer⟩ := act
  cases o with
  | get =>
    cases answer with
    | none => nofun
    | some text => exact hchecking text
  | set value => exact hchecking value
  | _ => nofun

theorem note_checked (state : GameEngineState) (act b : Act (Op τ) (Ans τ)) :
    JobStage.note json job (.checked state) act ≠ .playing checked input (since ++ [b]) := by
  obtain ⟨o, answer⟩ := act
  cases o with
  | ambient =>
    intro h
    unfold JobStage.note at h
    dsimp only at h
    cases hchoose : job.choose answer state with
    | none =>
      rw [hchoose] at h
      cases h
    | some input' =>
      rw [hchoose] at h
      injection h with _ _ hsince
      exact absurd hsince.symm (by simp)
  | _ => nofun

theorem jobStage_before {a b : Act (Op τ) (Ans τ)}
    (h : jobStage json job (past ++ [a]) = .playing checked input (since ++ [b])) :
    a = b ∧ jobStage json job past = .playing checked input since := by
  rw [jobStage_append] at h
  cases hpast : jobStage json job past with
  | playing state input' since' =>
    rw [hpast] at h
    injection h with hstate hinput hsince
    obtain ⟨rfl, hb⟩ := List.append_inj' hsince rfl
    cases hb
    exact ⟨rfl, by rw [hstate, hinput]⟩
  | reading =>
    rw [hpast] at h
    exact absurd h (note_reading a)
  | checked state =>
    rw [hpast] at h
    exact absurd h (note_checked state a b)

theorem jobStage_last {b : Act (Op τ) (Ans τ)}
    (h : jobStage json job past = .playing checked input (since ++ [b])) :
    ∃ before, past = before ++ [b] ∧ jobStage json job before = .playing checked input since := by
  rcases List.eq_nil_or_concat' past with rfl | ⟨before, a, rfl⟩
  · cases h
  · obtain ⟨rfl, hbefore⟩ := jobStage_before h
    exact ⟨before, rfl, hbefore⟩

theorem jobStage_suffix (h : jobStage json job past = .playing checked input since) :
    since <:+ past := by
  induction past using List.reverseRecOn generalizing since with
  | nil => cases h
  | append_singleton past act ih =>
    rcases List.eq_nil_or_concat' since with rfl | ⟨since, b, rfl⟩
    · exact List.nil_suffix
    · obtain ⟨rfl, hbefore⟩ := jobStage_before h
      obtain ⟨front, rfl⟩ := ih hbefore
      exact ⟨front, (List.append_assoc ..).symm⟩

theorem progress_unrestored (h : ∀ act ∈ past, ∀ value, act.1 ≠ .set value) :
    (progress past).restored = false := by
  induction past using List.reverseRecOn with
  | nil => rfl
  | append_singleton past act ih =>
    rw [progress_append, note_unrestored (h act (by simp))]
    exact ih fun act hact => h act (List.mem_append_left _ hact)

/-- What a job may do: no script before it has chosen a command, and then what the command may. -/
def JobAllowed (json : StateCodec τ) (job : Job) (past : List (Act (Op τ) (Ans τ))) (o : Op τ) :
    Prop :=
  match jobStage json job past with
  | .playing _ input since => Allowed json (.executeIntent input) since o
  | _ => ∀ text next, o ≠ .eval text next

/-- A job does not end in the middle of an attempt. -/
def JobOver (json : StateCodec τ) (job : Job) (past : List (Act (Op τ) (Ans τ))) : Prop :=
  match jobStage json job past with
  | .playing _ input since =>
    AttemptOver json (Command.executeIntent input).updater (progress since).stage
  | _ => True

theorem jobAllowed_of_reading {o : Op τ} (h : jobStage json job past = .reading)
    (ho : ∀ text next, o ≠ .eval text next) : JobAllowed json job past o := by
  unfold JobAllowed
  rw [h]
  exact ho

theorem jobOver_of_reading (h : jobStage json job past = .reading) : JobOver json job past := by
  unfold JobOver
  rw [h]
  trivial

/-- How a job comes to the state it checks. -/
def Checking (json : StateCodec τ) (job : Job) (past : List (Act (Op τ) (Ans τ))) :
    Except ServiceError GameEngineState → Prop
  | .ok state => jobStage json job past = .checked state
  | .error _ => jobStage json job past = .reading

/-- How the search for a snapshot ends for a job. -/
def CheckingSnapshot (json : StateCodec τ) (job : Job) (past : List (Act (Op τ) (Ans τ))) :
    Except ServiceError (Option GameEngineState) → Prop
  | .ok (some state) => jobStage json job past = .checked state
  | _ => jobStage json job past = .reading

theorem keeps_check (json : StateCodec τ) (job : Job) :
    Abides (JobAllowed json job) (Checking json job) [] (GameRecoveryService.getOrRecover json) := by
  unfold GameRecoveryService.getOrRecover
  refine keeps_handle (Checking json job) ?_ (fun _ _ hpast => hpast) fun past error hreading => ?_
  · refine keeps_perform (jobAllowed_of_reading rfl nofun) fun text => ?_
    cases text with
    | none => exact keeps_throw rfl
    | some text =>
      show Abides _ _ _ (GameStateService.parseState json text)
      unfold GameStateService.parseState
      have hstage : jobStage json job ([] ++ [⟨.get, some text⟩]) = checking json text := rfl
      unfold checking at hstage
      cases hparse : json.parse text with
      | none =>
        rw [hparse] at hstage
        exact keeps_throw hstage
      | some state =>
        rw [hparse] at hstage
        exact keeps_pure hstage
  · split
    · exact keeps_throw hreading
    · refine keeps_bind (CheckingSnapshot json job) ?_ (fun _ _ he => he) ?_
      · have hfind : ∀ answer,
            jobStage json job (past ++ [⟨.findLatestByGameId, answer⟩]) = .reading := by
          intro answer
          rw [jobStage_append, hreading]
          rfl
        refine keeps_restoreLatestSnapshot (jobAllowed_of_reading hreading nofun)
          (fun _ => hfind _) (hfind _) (fun _ => jobAllowed_of_reading (hfind _) nofun) ?_
        intro state
        have hback : jobStage json job (past ++ [⟨.findLatestByGameId, .ok (some state)⟩] ++
            [⟨.set (json.stringify state), ()⟩]) = checking json (json.stringify state) := by
          rw [jobStage_append]
          exact congrArg (JobStage.note json job · _) (hfind (.ok (some state)))
        unfold checking at hback
        rw [json.parse_stringify] at hback
        exact hback
      · intro past recovered hrecovered
        cases recovered with
        | none => exact keeps_throw hrecovered
        | some state => exact keeps_pure hrecovered

theorem keeps_process (json : StateCodec τ) (job : Job) :
    Abides (JobAllowed json job) (fun past _ => JobOver json job past) [] (job.process json) := by
  rw [Job.process_eq]
  refine keeps_bind _ (keeps_check json job) (fun _ _ he => jobOver_of_reading he)
    fun past state hchecked => ?_
  have hover : JobOver json job past := by
    unfold JobOver
    rw [hchecked]
    trivial
  split
  · exact keeps_pure hover
  · refine keeps_perform ?_ fun ambient => ?_
    · unfold JobAllowed
      rw [hchecked]
      exact nofun
    · have hchoice : jobStage json job (past ++ [⟨.ambient, ambient⟩]) =
          match job.choose ambient state with
          | some input => .playing state input []
          | none => .checked state := by
        rw [jobStage_append, hchecked]
        rfl
      cases hchoose : job.choose ambient state with
      | none =>
        rw [hchoose] at hchoice
        refine keeps_pure ?_
        unfold JobOver
        rw [hchoice]
        trivial
      | some input =>
        rw [hchoose] at hchoice
        refine keeps_bind (fun past _ => JobOver json job past) ?_ (fun _ _ he => he)
          fun _ _ he => keeps_pure he
        have halone : Abides (Allowed json (.executeIntent input))
            (DoneOnce json (.executeIntent input)) []
            (GameCommandsService.executeIntent json input) := keeps_executeIntent
        have hplay := halone.rebase (past ++ [⟨.ambient, ambient⟩])
        rw [List.append_nil] at hplay
        refine hplay.mono ?_ ?_
        · rintro _ o ⟨more, rfl, hallowed⟩
          unfold JobAllowed
          rw [jobStage_playing hchoice, List.nil_append]
          exact hallowed
        · rintro _ result ⟨more, rfl, hdone⟩
          unfold JobOver
          rw [jobStage_playing hchoice, List.nil_append]
          cases result with
          | ok result => exact Succeeded.ended hdone
          | error error => exact hdone.ended

end Stages

/-! ## Acting on the checked state -/

/-- A worker other than this one has committed. -/
def OthersCommitted (k : κ) (acts : List (κ × Act (Op τ) (Ans τ))) : Prop :=
  ∃ act ∈ acts, act.1 ≠ k ∧ isCommit act.2 = true

/-- What was done since a job read the state it checks. -/
def sinceCheck [DecidableEq κ] (k : κ) (acts : List (κ × Act (Op τ) (Ans τ))) :
    List (κ × Act (Op τ) (Ans τ)) :=
  acts.dropWhile fun act => act.1 ≠ k

def isGet : Op τ → Bool
  | .get => true
  | _ => false

/-- What was done since a job last read the state. -/
def sinceRead [DecidableEq κ] (k : κ) (acts : List (κ × Act (Op τ) (Ans τ))) :
    List (κ × Act (Op τ) (Ans τ)) :=
  acts.rtakeWhile fun act => !(act.1 = k && isGet act.2.1)

/-- The states agree in all that a timer job is checked against. -/
structure SameTurn (checked state : GameEngineState) : Prop where
  turnNumber : state.turnNumber = checked.turnNumber
  phase : state.phase = checked.phase
  current : state.currentTurnRoomPlayerId = checked.currentTurnRoomPlayerId
  actionStateKey : GameProcessor.getActionStateKey state = GameProcessor.getActionStateKey checked

/-- No other command was committed since the job's check, and the state is at the same turn. -/
def Fresh [DecidableEq κ] (k : κ) (before : List (κ × Act (Op τ) (Ans τ)))
    (checked state : GameEngineState) : Prop :=
  ¬ OthersCommitted k (sinceCheck k before) ∧ SameTurn checked state

/-- The command applies the job's own intent; else the game has expired and it finishes it. -/
def AppliesOwn (input : ExecuteGameIntentCommand) (ambient : Ambient) (state : GameEngineState) :
    Prop :=
  getEffectiveIntentForCurrentTime ambient.now state input.intent = input.intent

/-- Whatever the clock says, the job's own intent is not accepted on the state. -/
def Refuses (input : ExecuteGameIntentCommand) (state : GameEngineState) : Prop :=
  ∀ ambient, AppliesOwn input ambient state →
    ∃ error, GameCommandsService.updater input ambient state = .error error

/-- The job is about to run a script that applies its own intent to the state. -/
def AboutToApply (json : StateCodec τ) (job : Job) (past : List (Act (Op τ) (Ans τ)))
    (checked state : GameEngineState) : Prop :=
  ∃ input since text ambient, jobStage json job past = .playing checked input since ∧
    (progress since).stage = .ready text ambient ∧ json.parse text = some state ∧
    AppliesOwn input ambient state

/-- Every intent of a job that is committed is applied to the state the job was checked against. -/
def ActsOnChecked [DecidableEq κ] (json : StateCodec τ) (workers : κ → Worker)
    (acts : List (κ × Act (Op τ) (Ans τ))) : Prop :=
  ∀ before k job text next after checked state,
    acts = before ++ (k, ⟨.eval text next, (1 : Int)⟩) :: after → workers k = .job job →
    AboutToApply json job (doneBy k before) checked state → Fresh k before checked state

/-- Where the command of a job reads the state, either nobody has committed since the job's check
and it is at the same turn, or the engine refuses the job's intent on it; and nobody commits
between that read and a script that still finds the text. -/
structure ReadsChecked [DecidableEq κ] (json : StateCodec τ) (workers : κ → Worker)
    (acts : List (κ × Act (Op τ) (Ans τ))) : Prop where
  read : ∀ before k job text after checked input since state,
    acts = before ++ (k, ⟨.get, some text⟩) :: after → workers k = .job job →
    jobStage json job (doneBy k before) = .playing checked input since →
    json.parse text = some state → Fresh k before checked state ∨ Refuses input state
  script : ∀ before k job text next after checked state,
    acts = before ++ (k, ⟨.eval text next, (1 : Int)⟩) :: after → workers k = .job job →
    AboutToApply json job (doneBy k before) checked state →
    ¬ OthersCommitted k (sinceRead k before)

/-- The workers of a game at their start. -/
def working (json : StateCodec τ) (workers : κ → Worker) (stores : Stores τ) :
    Config κ (Stores τ) (Op τ) (Ans τ) ServiceError Unit :=
  ⟨stores, fun k => (workers k).run json⟩

/-! ## What the workers do -/

def WorkerAllowed (json : StateCodec τ) (worker : Worker) (past : List (Act (Op τ) (Ans τ)))
    (o : Op τ) : Prop :=
  ∀ job, worker = .job job → JobAllowed json job past o

def WorkerOver (json : StateCodec τ) (worker : Worker) (past : List (Act (Op τ) (Ans τ))) : Prop :=
  ∀ job, worker = .job job → JobOver json job past

theorem keeps_worker (json : StateCodec τ) (worker : Worker) :
    Abides (WorkerAllowed json worker) (fun past _ => WorkerOver json worker past) []
      (worker.run json) := by
  cases worker with
  | call c =>
    refine keeps_bind (fun _ _ => True) ((keeps_call json c).mono ?_ ?_) ?_ ?_
    · exact fun _ _ _ => nofun
    · exact fun _ _ _ => trivial
    · exact fun _ _ _ => nofun
    · exact fun _ _ _ => keeps_pure nofun
  | job j =>
    refine keeps_bind _ ((keeps_process json j).mono ?_ fun _ _ hover => hover) ?_ ?_
    · rintro past o hallowed _ ⟨⟩
      exact hallowed
    · rintro past _ hover _ ⟨⟩
      exact hover
    · intro past _ hover
      refine keeps_pure ?_
      rintro _ ⟨⟩
      exact hover

section Acts

variable [DecidableEq κ] {json : StateCodec τ} {workers : κ → Worker} {k : κ}
  {acts : List (κ × Act (Op τ) (Ans τ))}

omit [DecidableEq κ] in
theorem OthersCommitted.append_iff {xs ys : List (κ × Act (Op τ) (Ans τ))} :
    OthersCommitted k (xs ++ ys) ↔ OthersCommitted k xs ∨ OthersCommitted k ys := by
  unfold OthersCommitted
  constructor
  · rintro ⟨act, hact, hothers⟩
    rcases List.mem_append.mp hact with hact | hact
    · exact .inl ⟨act, hact, hothers⟩
    · exact .inr ⟨act, hact, hothers⟩
  · rintro (⟨act, hact, hothers⟩ | ⟨act, hact, hothers⟩)
    · exact ⟨act, List.mem_append_left _ hact, hothers⟩
    · exact ⟨act, List.mem_append_right _ hact, hothers⟩

theorem sinceCheck_append {before : List (κ × Act (Op τ) (Ans τ))} (h : doneBy k before ≠ [])
    (after : List (κ × Act (Op τ) (Ans τ))) :
    sinceCheck k (before ++ after) = sinceCheck k before ++ after := by
  unfold sinceCheck
  rw [List.dropWhile_append, if_neg]
  intro hempty
  rw [List.isEmpty_iff, List.dropWhile_eq_nil_iff] at hempty
  refine h ?_
  unfold doneBy
  rw [List.map_eq_nil_iff, List.filter_eq_nil_iff]
  intro act hact hk
  exact absurd (of_decide_eq_true hk) (of_decide_eq_true (hempty act hact))

theorem sinceRead_read {before after : List (κ × Act (Op τ) (Ans τ))} (text : Option τ)
    (h : ∀ act ∈ after, act.1 = k → isGet act.2.1 = false) :
    sinceRead k (before ++ (k, ⟨.get, text⟩) :: after) = after := by
  unfold sinceRead List.rtakeWhile
  rw [List.reverse_append, List.reverse_cons, List.append_assoc, List.takeWhile_append_of_pos]
  · simp [isGet]
  · intro act hact
    by_cases hk : act.1 = k
    · simp [hk, h act (List.mem_reverse.mp hact) hk]
    · simp [hk]

/-- Where the attempt a job is about to finish began: it read the text, then the ambient, and
nothing else since. -/
theorem attempt_began {job : Job} {checked : GameEngineState} {input : ExecuteGameIntentCommand}
    {since : List (Act (Op τ) (Ans τ))} {text : τ} {ambient : Ambient}
    (hstage : jobStage json job (doneBy k acts) = .playing checked input since)
    (hready : (progress since).stage = .ready text ambient) :
    ∃ before since₀ after, acts = before ++ (k, ⟨.get, some text⟩) :: after ∧
      jobStage json job (doneBy k before) = .playing checked input since₀ ∧
      doneBy k before ≠ [] ∧ sinceRead k acts = after := by
  obtain ⟨since₀, rfl⟩ := read_of_ready hready
  obtain ⟨middle, hpast, hmiddle⟩ := jobStage_last hstage
  obtain ⟨first, rfl, hfirst⟩ := jobStage_last hmiddle
  rw [List.append_assoc] at hpast
  obtain ⟨before, after, rfl, rfl, hafter⟩ := doneBy_eq_append hpast
  refine ⟨before, since₀, after, rfl, hfirst, ?_, sinceRead_read _ fun act hact hk => ?_⟩
  · intro hnil
    rw [hnil] at hfirst
    cases hfirst
  · have hmem := mem_doneBy hact
    rw [hk, hafter] at hmem
    rw [List.mem_singleton.mp hmem]
    rfl

end Acts

section Run

variable [DecidableEq τ] [DecidableEq κ] {json : StateCodec τ} {workers : κ → Worker}
  {stores : Stores τ} {sched : List (κ × Ambient)} {acts : List (κ × Act (Op τ) (Ans τ))}
  {c' : Config κ (Stores τ) (Op τ) (Ans τ) ServiceError Unit}

theorem job_allowed (h : Interleaved exec (working json workers stores) sched acts c')
    {before after : List (κ × Act (Op τ) (Ans τ))} {k : κ} {act : Act (Op τ) (Ans τ)} {job : Job}
    (hacts : acts = before ++ (k, act) :: after) (hjob : workers k = .job job) :
    JobAllowed json job (doneBy k before) act.1 :=
  interleaved_may (fun k => WorkerAllowed json (workers k))
    (fun k past _ => WorkerOver json (workers k) past) h
    (fun k => keeps_worker json (workers k)) hacts job hjob

omit [DecidableEq τ] [DecidableEq κ] in
theorem AboutToApply.accepted {json : StateCodec τ} {job : Job}
    {past since : List (Act (Op τ) (Ans τ))} {checked state : GameEngineState}
    {input : ExecuteGameIntentCommand} {text expected next : τ} {ambient : Ambient}
    (hallowed : JobAllowed json job past (.eval expected next))
    (hstage : jobStage json job past = .playing checked input since)
    (hready : (progress since).stage = .ready text ambient) (hparse : json.parse text = some state)
    (hown : AppliesOwn input ambient state) : ¬ Refuses input state := by
  unfold JobAllowed at hallowed
  rw [hstage] at hallowed
  obtain ⟨⟨ambient', state₁, state', reply, hready', hparse', hupdater, _⟩, _⟩ :=
    hallowed.script _ _ rfl
  rw [hready] at hready'
  cases hready'
  cases hparse.symm.trans hparse'
  intro hrefuses
  obtain ⟨error, herror⟩ := hrefuses ambient hown
  have hfails : (Command.executeIntent input).updater ambient state = .error error := by
    show (GameCommandsService.updater input ambient state).map _ = _
    rw [herror]
    rfl
  rw [hfails] at hupdater
  cases hupdater

/-- In a run whose reads are of the checked state, the jobs act on the checked state. -/
theorem ReadsChecked.actsOnChecked (hreads : ReadsChecked json workers acts)
    (h : Interleaved exec (working json workers stores) sched acts c') :
    ActsOnChecked json workers acts := by
  rintro before k job expected next after checked state rfl hjob
    ⟨input, since, text, ambient, hstage, hready, hparse, hown⟩
  have hscript := hreads.script before k job expected next after checked state rfl hjob
    ⟨input, since, text, ambient, hstage, hready, hparse, hown⟩
  have haccepted := AboutToApply.accepted (job_allowed h rfl hjob) hstage hready hparse hown
  obtain ⟨before₀, since₀, middle, rfl, hstage₀, hnonempty, hmiddle⟩ := attempt_began hstage hready
  rw [hmiddle] at hscript
  have hread := hreads.read before₀ k job text (middle ++ (k, ⟨.eval expected next, (1 : Int)⟩) :: after)
    checked input since₀ state (by simp) hjob hstage₀ hparse
  obtain ⟨hnone, hsame⟩ := hread.resolve_right haccepted
  refine ⟨?_, hsame⟩
  rw [sinceCheck_append hnonempty, ← List.singleton_append, OthersCommitted.append_iff,
    OthersCommitted.append_iff]
  rintro (hothers | ⟨act, hact, hother, _⟩ | hothers)
  · exact hnone hothers
  · cases List.mem_singleton.mp hact
    exact hother rfl
  · exact hscript hothers

theorem job_next (h : Interleaved exec (working json workers stores) sched acts c') {k : κ}
    {job : Job} {checked : GameEngineState} {input : ExecuteGameIntentCommand}
    {since : List (Act (Op τ) (Ans τ))} (hjob : workers k = .job job)
    (hstage : jobStage json job (doneBy k acts) = .playing checked input since)
    (hover : ¬ AttemptOver json (Command.executeIntent input).updater (progress since).stage) :
    ∃ o next, c'.procs k = .op o next ∧
      Expects json (Command.executeIntent input).updater (progress since).stage o := by
  have hkeeps := interleaved_keeps (fun k => WorkerAllowed json (workers k))
    (fun k past _ => WorkerOver json (workers k) past) h
    (fun k => keeps_worker json (workers k)) k
  have hends : ¬ WorkerOver json (workers k) (doneBy k acts) := by
    intro hends
    have hjobOver := hends job hjob
    unfold JobOver at hjobOver
    rw [hstage] at hjobOver
    exact hover hjobOver
  cases hproc : c'.procs k with
  | ret =>
    rw [hproc] at hkeeps
    exact absurd hkeeps hends
  | fail =>
    rw [hproc] at hkeeps
    exact absurd hkeeps hends
  | op o next =>
    rw [hproc] at hkeeps
    have hallowed := hkeeps.1 job hjob
    unfold JobAllowed at hallowed
    rw [hstage] at hallowed
    exact ⟨o, next, rfl, hallowed.next.resolve_left hover⟩

/-- A job that has read a state on which its intent is accepted can go on and commit it. -/
theorem goes_on (h : Interleaved exec (working json workers stores) sched acts c')
    {before : List (κ × Act (Op τ) (Ans τ))} {k : κ} {job : Job} {text : τ}
    {checked state : GameEngineState} {input : ExecuteGameIntentCommand}
    {since : List (Act (Op τ) (Ans τ))} (hacts : acts = before ++ [(k, ⟨.get, some text⟩)])
    (hjob : workers k = .job job)
    (hstage : jobStage json job (doneBy k before) = .playing checked input since)
    (hparse : json.parse text = some state) (haccepts : ¬ Refuses input state) :
    ∃ sched' ambient next c'', AppliesOwn input ambient state ∧
      Interleaved exec (working json workers stores) sched'
        (acts ++ [(k, ⟨.ambient, ambient⟩)] ++ [(k, ⟨.eval text next, (1 : Int)⟩)]) c'' := by
  subst hacts
  -- the clock at which the engine accepts the intent
  obtain ⟨ambient, hown, hok⟩ : ∃ ambient, AppliesOwn input ambient state ∧
      ∀ error, GameCommandsService.updater input ambient state ≠ .error error := by
    by_contra hno
    refine haccepts fun ambient hown => ?_
    by_contra herror
    exact hno ⟨ambient, hown, fun error heq => herror ⟨error, heq⟩⟩
  have hread := jobStage_playing hstage [⟨.get, some text⟩]
  have hready := jobStage_playing hstage ([⟨.get, some text⟩] ++ [⟨.ambient, ambient⟩])
  rw [← List.append_assoc, ← List.append_assoc] at hready
  have hredis : c'.world.redis = some text := by
    obtain ⟨_, i, mid, _, hstep⟩ := interleaved_last h
    obtain ⟨act, hact, hout⟩ := hstep
    obtain ⟨o, _, _, rfl, rfl⟩ := step_eq_some.mp hact
    injection hout with hout
    injection hout with _ hout
    injection hout with ho hans
    subst ho
    exact (eq_of_heq hans).symm
  have hupdater : ∃ state' reply,
      (Command.executeIntent input).updater ambient state = .ok (state', reply) := by
    cases hresult : GameCommandsService.updater input ambient state with
    | error error => exact absurd hresult (hok error)
    | ok result =>
      refine ⟨result.1, .executed result.2, ?_⟩
      show (GameCommandsService.updater input ambient state).map _ = _
      rw [hresult]
      rfl
  obtain ⟨state', reply, hupdater⟩ := hupdater
  -- the clock is read next
  have hread₁ : jobStage json job (doneBy k (before ++ [(k, ⟨.get, some text⟩)])) =
      .playing checked input (since ++ [⟨.get, some text⟩]) := by
    rw [doneBy_append, doneBy_self]
    exact hread
  obtain ⟨_, next₁, hproc₁, ho₁⟩ := job_next h hjob hread₁ (by
    rw [progress_read]
    intro hnone
    cases hparse.symm.trans hnone)
  rw [progress_read] at ho₁
  cases ho₁
  have hrun₁ := interleaved_op h hproc₁ ambient
  have hready₁ : jobStage json job (doneBy k (before ++ [(k, ⟨.get, some text⟩)] ++
      [(k, ⟨.ambient, ambient⟩)])) =
      .playing checked input (since ++ [⟨.get, some text⟩] ++ [⟨.ambient, ambient⟩]) := by
    rw [doneBy_append, doneBy_append, doneBy_self, doneBy_self]
    exact hready
  -- then the script runs on the text that is still stored
  obtain ⟨_, next₂, hproc₂, ho₂⟩ := job_next hrun₁ hjob hready₁ (by
    rw [progress_ready]
    intro hfails
    obtain ⟨error, herror⟩ := hfails state hparse
    cases hupdater.symm.trans herror)
  rw [progress_ready] at ho₂
  obtain ⟨state₁, state₂, _, _, _, rfl⟩ := ho₂
  have hrun₂ := interleaved_op hrun₁ hproc₂ ambient
  have hanswer : (exec c'.world (.eval text (json.stringify state₂)) ambient).2 = (1 : Int) := by
    show (compareAndSetState c'.world.redis text (json.stringify state₂)).1 = 1
    rw [hredis]
    simp [compareAndSetState]
  have hact : (⟨_, (exec c'.world (.eval text (json.stringify state₂)) ambient).2⟩ :
      Act (Op τ) (Ans τ)) = ⟨.eval text (json.stringify state₂), (1 : Int)⟩ :=
    congrArg (Sigma.mk _) hanswer
  have hrun₃ : ∃ c'', Interleaved exec (working json workers stores)
      (sched ++ [(k, ambient)] ++ [(k, ambient)])
      (before ++ [(k, ⟨.get, some text⟩)] ++ [(k, ⟨.ambient, ambient⟩)] ++
        [(k, ⟨_, (exec c'.world (.eval text (json.stringify state₂)) ambient).2⟩)]) c'' :=
    ⟨_, hrun₂⟩
  rw [hact] at hrun₃
  obtain ⟨c'', hrun₃⟩ := hrun₃
  exact ⟨_, ambient, _, c'', hown, hrun₃⟩

omit [DecidableEq τ] in
theorem undisturbed_sinceRead {job : Job} {checked state : GameEngineState} {k : κ}
    (hundisturbed : ¬ OthersCommitted k (sinceCheck k acts))
    (happly : AboutToApply json job (doneBy k acts) checked state) :
    ¬ OthersCommitted k (sinceRead k acts) := by
  obtain ⟨input, since, text, ambient, hstage, hready, _, _⟩ := happly
  obtain ⟨before, _, after, rfl, _, hnonempty, hread⟩ := attempt_began hstage hready
  rw [hread]
  intro hothers
  refine hundisturbed ?_
  rw [sinceCheck_append hnonempty, ← List.singleton_append, OthersCommitted.append_iff,
    OthersCommitted.append_iff]
  exact .inr (.inr hothers)

/-- Reading a newer state that accepts the intent leads to a commit on it. -/
theorem stale_commit (h : Interleaved exec (working json workers stores) sched acts c')
    {before after : List (κ × Act (Op τ) (Ans τ))} {k : κ} {job : Job} {text : τ}
    {checked state : GameEngineState} {input : ExecuteGameIntentCommand}
    {since : List (Act (Op τ) (Ans τ))} (hacts : acts = before ++ (k, ⟨.get, some text⟩) :: after)
    (hjob : workers k = .job job)
    (hstage : jobStage json job (doneBy k before) = .playing checked input since)
    (hparse : json.parse text = some state) (haccepts : ¬ Refuses input state)
    (hfresh : ¬ Fresh k before checked state) :
    ∃ before after sched' more c'', acts = before ++ after ∧
      Interleaved exec (working json workers stores) sched' (before ++ more) c'' ∧
      ¬ ActsOnChecked json workers (before ++ more) := by
  have hsplit : acts = (before ++ [(k, ⟨.get, some text⟩)]) ++ after := by
    rw [hacts, List.append_assoc, List.singleton_append]
  obtain ⟨_, mid, hmid⟩ := interleaved_prefix h hsplit
  obtain ⟨sched', ambient, next, c'', hown, hrun⟩ :=
    goes_on hmid rfl hjob hstage hparse haccepts
  refine ⟨_, after, sched', [(k, ⟨.ambient, ambient⟩), (k, ⟨.eval text next, (1 : Int)⟩)], c'',
    hsplit, by simpa using hrun, fun hacted => hfresh ?_⟩
  have hready := jobStage_playing hstage ([⟨.get, some text⟩] ++ [⟨.ambient, ambient⟩])
  have hdone : doneBy k (before ++ [(k, ⟨.get, some text⟩)] ++ [(k, ⟨.ambient, ambient⟩)]) =
      doneBy k before ++ ([⟨.get, some text⟩] ++ [⟨.ambient, ambient⟩]) := by
    rw [doneBy_append, doneBy_append, doneBy_self, doneBy_self, List.append_assoc]
  have happly : AboutToApply json job
      (doneBy k (before ++ [(k, ⟨.get, some text⟩)] ++ [(k, ⟨.ambient, ambient⟩)])) checked
      state := by
    rw [hdone]
    refine ⟨input, _, text, ambient, hready, ?_, hparse, hown⟩
    rw [← List.append_assoc, progress_ready]
  obtain ⟨hnone, hsame⟩ := hacted _ k job text next [] checked state (by simp) hjob happly
  refine ⟨fun hothers => hnone ?_, hsame⟩
  have hnonempty : doneBy k before ≠ [] := by
    intro hnil
    rw [hnil] at hstage
    cases hstage
  rw [List.append_assoc, sinceCheck_append hnonempty]
  exact OthersCommitted.append_iff.mpr (.inl hothers)

/-- Nothing has changed the stored state since the job's check, other than the job itself. -/
def CheckedStored (json : StateCodec τ) (job : Job) (past : List (Act (Op τ) (Ans τ)))
    (stores : Stores τ) : Prop :=
  match jobStage json job past with
  | .reading => True
  | .checked state => stored json stores = some state
  | .playing state _ since => (progress since).commits = [] → stored json stores = some state

omit [DecidableEq τ] in
theorem CheckedStored.congr {job : Job} {past : List (Act (Op τ) (Ans τ))}
    {stores stores' : Stores τ} (h : CheckedStored json job past stores)
    (hredis : stores'.redis = stores.redis) : CheckedStored json job past stores' := by
  have hstored : stored json stores' = stored json stores := by
    unfold stored
    rw [hredis]
  unfold CheckedStored at h ⊢
  rw [hstored]
  exact h

theorem CheckedStored.quiet {job : Job} {past : List (Act (Op τ) (Ans τ))} {o : Op τ}
    {g : Ambient} (h : CheckedStored json job past stores)
    (hact : isCommit (⟨o, (exec stores o g).2⟩ : Act (Op τ) (Ans τ)) = false)
    (hset : ∀ value, o ≠ .set value) :
    CheckedStored json job (past ++ [⟨o, (exec stores o g).2⟩]) stores := by
  unfold CheckedStored at h ⊢
  rw [jobStage_append]
  cases hpast : jobStage json job past with
  | playing state input since =>
    rw [hpast] at h
    intro hcommits
    rw [progress_append, (note_of_not_commit hact).1] at hcommits
    exact h hcommits
  | checked state =>
    rw [hpast] at h
    cases o with
    | ambient =>
      show match (match job.choose g state with
          | some input => (.playing state input [] : JobStage τ)
          | none => .checked state) with
        | .reading => True
        | .checked state => stored json stores = some state
        | .playing state _ since => (progress since).commits = [] → stored json stores = some state
      cases job.choose g state with
      | none => exact h
      | some input => exact fun _ => h
    | _ => exact h
  | reading =>
    cases o with
    | set value => exact absurd rfl (hset value)
    | get =>
      show match JobStage.note json job .reading ⟨.get, stores.redis⟩ with
        | .reading => True
        | .checked state => stored json stores = some state
        | .playing state _ since => (progress since).commits = [] → stored json stores = some state
      unfold stored
      cases hredis : stores.redis with
      | none => trivial
      | some text =>
        show match checking json text with
          | .reading => True
          | .checked state => json.parse text = some state
          | .playing state _ since => (progress since).commits = [] → json.parse text = some state
        unfold checking
        cases hparse : json.parse text with
        | none => trivial
        | some state => rfl
    | _ => trivial

theorem CheckedStored.own {job : Job} {past : List (Act (Op τ) (Ans τ))} {o : Op τ}
    {g : Ambient} (h : CheckedStored json job past stores) (hallowed : JobAllowed json job past o)
    (hset : ∀ value, o ≠ .set value) :
    CheckedStored json job (past ++ [⟨o, (exec stores o g).2⟩]) (exec stores o g).1 := by
  rcases exec_redis stores o g with ⟨text, next, hact, _, _⟩ | ⟨value, ho, _⟩ | ⟨hact, _, hredis⟩
  · have ho : o = .eval text next := congrArg Sigma.fst hact
    unfold JobAllowed at hallowed
    rw [hact]
    unfold CheckedStored
    rw [jobStage_append]
    cases hpast : jobStage json job past with
    | playing state input since =>
      rw [hpast] at hallowed
      intro hcommits
      obtain ⟨⟨_, _, _, _, hstage, _⟩, _⟩ := hallowed.script text next ho
      rw [progress_append, note_committed hstage] at hcommits
      exact absurd hcommits (List.append_ne_nil_of_right_ne_nil _ (List.cons_ne_nil _ _))
    | reading =>
      rw [hpast] at hallowed
      exact absurd ho (hallowed text next)
    | checked state =>
      rw [hpast] at hallowed
      exact absurd ho (hallowed text next)
  · exact absurd ho (hset value)
  · exact (h.quiet hact hset).congr hredis

/-- While only the job itself has committed since its check, the state it checked is stored. -/
theorem undisturbed (h : Interleaved exec (working json workers stores) sched acts c')
    (hset : NoWriteBack acts) {k : κ} {job : Job} (hjob : workers k = .job job)
    (hothers : ¬ OthersCommitted k (sinceCheck k acts)) :
    CheckedStored json job (doneBy k acts) c'.world := by
  refine interleaved_invariant
    (fun k => WorkerAllowed json (workers k))
    (fun k past _ => WorkerOver json (workers k) past)
    (fun stores acts => NoWriteBack acts → ¬ OthersCommitted k (sinceCheck k acts) →
      CheckedStored json job (doneBy k acts) stores)
    ?_ h (fun k => keeps_worker json (workers k)) (fun _ _ => trivial) hset hothers
  intro stores acts j o g ih hallowed hset hothers
  have hback : ∀ value, o ≠ .set value := by
    intro value
    exact hset (j, ⟨o, (exec stores o g).2⟩) (by simp) value
  rw [doneBy_append]
  by_cases hnone : doneBy k acts = []
  · rw [hnone, List.nil_append]
    by_cases hj : j = k
    · subst hj
      rw [doneBy_self]
      have hallowed := hallowed job hjob
      rw [hnone] at hallowed
      have hnothing : CheckedStored json job [] stores := trivial
      exact hnothing.own hallowed hback
    · rw [doneBy_other hj]
      trivial
  · rw [sinceCheck_append hnone, OthersCommitted.append_iff, not_or] at hothers
    have hstored := ih hset.left hothers.1
    by_cases hj : j = k
    · subst hj
      rw [doneBy_self]
      exact hstored.own (hallowed job hjob) hback
    · rw [doneBy_other hj, List.append_nil]
      rcases exec_redis stores o g with ⟨text, next, hact, _⟩ | ⟨value, ho, _⟩ | ⟨_, _, hredis⟩
      · refine absurd ⟨_, List.mem_singleton.mpr rfl, hj, ?_⟩ hothers.2
        dsimp only
        rw [hact]
        rfl
      · exact absurd ho (hback value)
      · exact hstored.congr hredis

/-- Where snapshots are not written back, a command of a job that reads the state before anybody
else has committed reads the one the job was checked against. -/
theorem fresh_of_undisturbed (h : Interleaved exec (working json workers stores) sched acts c')
    (hset : NoWriteBack acts) {before after : List (κ × Act (Op τ) (Ans τ))} {k : κ} {job : Job}
    {text : τ} {checked state : GameEngineState} {input : ExecuteGameIntentCommand}
    {since : List (Act (Op τ) (Ans τ))} (hacts : acts = before ++ (k, ⟨.get, some text⟩) :: after)
    (hjob : workers k = .job job)
    (hstage : jobStage json job (doneBy k before) = .playing checked input since)
    (hparse : json.parse text = some state)
    (hothers : ¬ OthersCommitted k (sinceCheck k before)) : Fresh k before checked state := by
  have hfirst : (progress since).commits = [] := by
    have hallowed := job_allowed h hacts hjob
    unfold JobAllowed at hallowed
    rw [hstage] at hallowed
    have hunrestored : (progress since).restored = false := by
      refine progress_unrestored fun act hact value hvalue => ?_
      have hmem : act ∈ doneBy k before := (jobStage_suffix hstage).subset hact
      obtain ⟨x, hx, rfl⟩ := List.mem_map.mp hmem
      refine hset x ?_ value hvalue
      rw [hacts]
      exact List.mem_append_left _ (List.mem_filter.mp hx).1
    rcases hallowed.reading rfl with hrestored | hnone
    · rw [hunrestored] at hrestored
      cases hrestored
    · exact hnone
  obtain ⟨_, i, mid, mid', hbefore, act, hact, hout⟩ := interleaved_split h hacts
  have hstored := undisturbed hbefore (by rw [hacts] at hset; exact hset.left) hjob hothers
  unfold CheckedStored at hstored
  rw [hstage] at hstored
  have hchecked : stored json mid.world = some checked := hstored hfirst
  obtain ⟨o, _, _, rfl, _⟩ := step_eq_some.mp hact
  injection hout with hout
  injection hout with _ hout
  injection hout with ho hans
  subst ho
  have hredis : mid.world.redis = some text := (eq_of_heq hans).symm
  unfold stored at hchecked
  rw [hredis] at hchecked
  cases hparse.symm.trans hchecked
  exact ⟨hothers, rfl, rfl, rfl, rfl⟩

omit [DecidableEq τ] in
theorem othersCommitted_sinceCheck {k : κ} {before after : List (κ × Act (Op τ) (Ans τ))}
    (h : OthersCommitted k (sinceCheck k before)) :
    OthersCommitted k (sinceCheck k (before ++ after)) := by
  obtain ⟨act, hact, hother⟩ := h
  refine ⟨act, ?_, hother⟩
  unfold sinceCheck at hact ⊢
  rw [List.dropWhile_append]
  split
  · rename_i hnone
    rw [List.isEmpty_iff.mp hnone] at hact
    cases hact
  · exact List.mem_append_left _ hact

theorem readsChecked_of_undisturbed
    (h : Interleaved exec (working json workers stores) sched acts c') (hset : NoWriteBack acts)
    (hundisturbed : ∀ k job, workers k = .job job → ¬ OthersCommitted k (sinceCheck k acts)) :
    ReadsChecked json workers acts where
  read before k job text after checked input since state hacts hjob hstage hparse := by
    refine .inl (fresh_of_undisturbed h hset hacts hjob hstage hparse fun hothers => ?_)
    refine hundisturbed k job hjob ?_
    rw [hacts]
    exact othersCommitted_sinceCheck hothers
  script before k job text next after checked state hacts hjob happly := by
    refine undisturbed_sinceRead (fun hothers => hundisturbed k job hjob ?_) happly
    rw [hacts]
    exact othersCommitted_sinceCheck hothers

/-- In every interleaving: where every read is of the checked state or refused, the jobs act only
on the states they were checked against; and from a run with another read the job can go on to
act on a newer one. -/
theorem jobs_actOnChecked (h : Interleaved exec (working json workers stores) sched acts c') :
    (ReadsChecked json workers acts → ActsOnChecked json workers acts) ∧
      (¬ ReadsChecked json workers acts → ∃ before after sched' more c'', acts = before ++ after ∧
        Interleaved exec (working json workers stores) sched' (before ++ more) c'' ∧
        ¬ ActsOnChecked json workers (before ++ more)) := by
  refine ⟨fun hreads => hreads.actsOnChecked h, fun hnot => ?_⟩
  by_contra hno
  refine hnot ⟨?_, ?_⟩
  · intro before k job text after checked input since state hacts hjob hstage hparse
    by_contra hbad
    obtain ⟨hfresh, haccepts⟩ := not_or.mp hbad
    exact hno (stale_commit h hacts hjob hstage hparse haccepts hfresh)
  · intro before k job text next after checked state hacts hjob happly hothers
    refine hno ⟨acts, [], sched, [], c', (List.append_nil acts).symm, ?_, fun hacted => ?_⟩
    · rw [List.append_nil]
      exact h
    · rw [List.append_nil] at hacted
      exact undisturbed_sinceRead
        (hacted before k job text next after checked state hacts hjob happly).1 happly hothers

end Run

/-! ## A timer and a player -/

/-- The checked state and the state the job is about to apply its own intent to. -/
def applying (json : StateCodec τ) (job : Job) (past : List (Act (Op τ) (Ans τ))) :
    Option (GameEngineState × GameEngineState) :=
  match jobStage json job past with
  | .playing checked input since =>
    match (progress since).stage with
    | .ready text ambient =>
      (json.parse text).bind fun state =>
        if getEffectiveIntentForCurrentTime ambient.now state input.intent = input.intent then
          some (checked, state)
        else none
    | _ => none
  | _ => none

theorem aboutToApply_of_applying {json : StateCodec τ} {job : Job}
    {past : List (Act (Op τ) (Ans τ))} {checked state : GameEngineState}
    (h : applying json job past = some (checked, state)) :
    AboutToApply json job past checked state := by
  unfold applying at h
  cases hstage : jobStage json job past with
  | reading => simp [hstage] at h
  | checked => simp [hstage] at h
  | playing checked' input since =>
    cases hready : (progress since).stage with
    | idle => simp [hstage, hready] at h
    | read => simp [hstage, hready] at h
    | ready text ambient =>
      simp only [hstage, hready, Option.bind_eq_some_iff] at h
      obtain ⟨state', hparse, h⟩ := h
      split at h
      · rename_i hown
        cases h
        exact ⟨input, since, text, ambient, hstage, hready, hparse, hown⟩
      · cases h

theorem eq_eval_of_commit {act : Act (Op τ) (Ans τ)} (h : isCommit act = true) :
    ∃ text next, act = ⟨.eval text next, (1 : Int)⟩ := by
  obtain ⟨o, answer⟩ := act
  cases o with
  | eval text next =>
    have hanswer : answer = (1 : Int) := of_decide_eq_true h
    exact ⟨text, next, by rw [hanswer]⟩
  | _ => cases h

/-- The first player has bought Ghana and may end the turn. -/
def boughtGhana : Stores GameEngineState where
  redis := (playThree [.rollAndMove ⟨1⟩ [.int 1, .int 2], .buyProperty ⟨1⟩]).toOption.map
    GameEngineResult.state
  snapshots := []
  eventLog := []

def endTurnTimeout : Job :=
  .turnTimeout {
    turnNumber := 1
    phase := .awaitingTurnEnd
    currentTurnRoomPlayerId := ⟨1⟩
    actionStateKey := .turn (some 90000) }

/-- The turn's timeout, and the player who mortgages Ghana. -/
def timeoutAndMortgage : Bool → Worker
  | false => .job endTurnTimeout
  | true => .call (.command (.executeIntent {
      roomPlayerId := some ⟨1⟩, intent := .mortgageProperty ⟨1⟩ .ghana, source := none }))

/-- The player mortgages Ghana between the job's check and its command, and the job still ends the
turn. -/
theorem threePlayers_staleEndTurn : ∃ sched acts c',
    Interleaved exec (working plainTexts timeoutAndMortgage boughtGhana) sched acts c' ∧
    ¬ ActsOnChecked plainTexts timeoutAndMortgage acts := by
  obtain ⟨⟨c', acts⟩, hplay, htest⟩ := (Option.any_eq_true _ _).mp (by decide +kernel :
    (Process.play exec (working plainTexts timeoutAndMortgage boughtGhana)
      (([false, false, true, true, true, false, false, false] : List Bool).map
        fun k => (k, atFirst))).any
      (fun last => last.2.getLast?.any (fun act => !act.1 && isCommit act.2) &&
        ((applying plainTexts endTurnTimeout (doneBy false last.2.dropLast)).isSome &&
          (sinceCheck false last.2.dropLast).any fun act => act.1 && isCommit act.2)) = true)
  obtain ⟨hlast, htest⟩ := (Bool.and_eq_true_iff ..).mp htest
  obtain ⟨happly, hothers⟩ := (Bool.and_eq_true_iff ..).mp htest
  obtain ⟨⟨k, act⟩, hget, hact⟩ := (Option.any_eq_true _ _).mp hlast
  obtain ⟨hk, hcommit⟩ := (Bool.and_eq_true_iff ..).mp hact
  cases k with
  | true => cases hk
  | false =>
    obtain ⟨⟨checked, state⟩, happly⟩ := Option.isSome_iff_exists.mp happly
    obtain ⟨text, next, rfl⟩ := eq_eval_of_commit hcommit
    refine ⟨_, acts, c', play_interleaved hplay, fun hacted => ?_⟩
    have hacts : acts = acts.dropLast ++ (false, ⟨.eval text next, (1 : Int)⟩) :: [] :=
      (List.dropLast_append_getLast? _ hget).symm
    refine (hacted _ false endTurnTimeout text next [] checked state hacts rfl
      (aboutToApply_of_applying happly)).1 ?_
    obtain ⟨other, hother, htest⟩ := List.any_eq_true.mp hothers
    obtain ⟨hk, hcommit⟩ := (Bool.and_eq_true_iff ..).mp htest
    refine ⟨other, hother, ?_, hcommit⟩
    rw [hk]
    exact Bool.noConfusion

/-- The player mortgages Ghana before the job's check, and the job ends the turn it was checked
against. -/
theorem threePlayers_timeout : ∃ sched acts c',
    Interleaved exec (working plainTexts timeoutAndMortgage boughtGhana) sched acts c' ∧
    committed acts = [true, false] ∧ ActsOnChecked plainTexts timeoutAndMortgage acts := by
  obtain ⟨⟨c', acts⟩, hplay, htest⟩ := (Option.any_eq_true _ _).mp (by decide +kernel :
    (Process.play exec (working plainTexts timeoutAndMortgage boughtGhana)
      (([true, true, true, false, false, true, false, false, false] : List Bool).map
        fun k => (k, atFirst))).any
      (fun last => last.2.all (fun act => !isWriteBack act.2.1) &&
        ((sinceCheck false last.2).all (fun act => !(act.1 && isCommit act.2)) &&
          committed last.2 = [true, false])) = true)
  obtain ⟨hset, htest⟩ := (Bool.and_eq_true_iff ..).mp htest
  obtain ⟨hquiet, hcommitted⟩ := (Bool.and_eq_true_iff ..).mp htest
  have hrun := play_interleaved hplay
  have hreads : ReadsChecked plainTexts timeoutAndMortgage acts := by
    refine readsChecked_of_undisturbed hrun (noWriteBack_of_all hset) fun k job hjob => ?_
    cases k with
    | true => cases hjob
    | false =>
      rintro ⟨⟨k, act⟩, hact, hother, hcommit⟩
      have hnot := List.all_eq_true.mp hquiet _ hact
      cases k with
      | false => exact hother rfl
      | true =>
        rw [hcommit] at hnot
        cases hnot
  exact ⟨_, acts, c', hrun, of_decide_eq_true hcommitted, (jobs_actOnChecked hrun).1 hreads⟩

end Rules
end LivePoly
