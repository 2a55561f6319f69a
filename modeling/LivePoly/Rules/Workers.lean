import LivePoly.Service.Commands
import LivePoly.Lib.CompareAndSet

/-!
# Rules.Workers

What each call of the services does on its own, whatever the others do (`keeps_run`). An attempt of
`update` goes through three stages: it reads a text, its updater reads the ambient, and the script
goes from that text to the text of what the updater makes of it. After a script that succeeded
there is no other attempt unless a recovery came between, and the reply of the call is what the
updater computed in that attempt (`Done`).
-/

namespace LivePoly
namespace Rules

open Engine Service Process

variable {τ ρ : Type}

/-! ## The calls -/

/-- The calls that update the live state. -/
inductive Command where
  | update (maxAttempts : Nat)
      (updater : Ambient → GameEngineState → Except ServiceError (GameEngineState × Unit))
  | executeIntent (input : ExecuteGameIntentCommand)

inductive Reply where
  | updated (state : GameEngineState)
  | executed (result : GameCommandResult)
  | recovered (state : GameEngineState)
  deriving DecidableEq

/-- An updater, with the reply its call gives once its script has succeeded. -/
abbrev Updater : Type :=
  Ambient → GameEngineState → Except ServiceError (GameEngineState × Reply)

namespace Command

def run (json : StateCodec τ) : Command → Task τ Reply
  | update maxAttempts updater => do
    let (state, _) ← GameStateService.update json maxAttempts updater
    return .updated state
  | executeIntent input => do
    return .executed (← GameCommandsService.executeIntent json input)

def updater : Command → Updater
  | update _ updater, ambient, state =>
    (updater ambient state).map fun next => (next.1, .updated next.1)
  | executeIntent input, ambient, state =>
    (GameCommandsService.updater input ambient state).map fun next => (next.1, .executed next.2)

def isUpdate : Command → Bool
  | update _ _ => true
  | executeIntent _ => false

end Command

/-! ## What a call has done -/

/-- A script that succeeded: the text it expected, the ambient its updater read, the text it
wrote. -/
structure Attempt (τ : Type) where
  text : τ
  ambient : Ambient
  next : τ

/-- Where an attempt of `update` is: nothing read, the text read, the ambient read as well. -/
inductive AttemptStage (τ : Type) where
  | idle
  | read (text : τ)
  | ready (text : τ) (ambient : Ambient)

structure Progress (τ : Type) where
  stage : AttemptStage τ
  snapshot : Option GameEngineState
  commits : List (Attempt τ)
  restored : Bool
  finalizationFailed : Bool

/-- What `COMPARE_AND_SET_STATE_SCRIPT` returns when it has written. -/
def hasWritten (result : Int) : Bool := result = 1

def Progress.note (p : Progress τ) : Act (Op τ) (Ans τ) → Progress τ
  | ⟨.get, some text⟩ => { p with stage := .read text }
  | ⟨.ambient, ambient⟩ =>
    match p.stage with
    | .read text => { p with stage := .ready text ambient }
    | _ => { p with stage := .idle }
  | ⟨.eval _ next, result⟩ =>
    match p.stage with
    | .ready text ambient =>
      if hasWritten result then
        { p with stage := .idle, commits := p.commits ++ [{ text, ambient, next }] }
      else { p with stage := .idle }
    | _ => { p with stage := .idle }
  | ⟨.set _, _⟩ => { p with stage := .idle, restored := true }
  | ⟨.findLatestByGameId, .ok (some state)⟩ => { p with stage := .idle, snapshot := some state }
  | ⟨.finalizeFinishedGame _ _, .error _⟩ =>
    { p with stage := .idle, finalizationFailed := true }
  | _ => { p with stage := .idle }

def progress (past : List (Act (Op τ) (Ans τ))) : Progress τ :=
  past.foldl Progress.note ⟨.idle, none, [], false, false⟩

/-- A script that succeeds. -/
def isCommit : Act (Op τ) (Ans τ) → Bool
  | ⟨.eval _ _, result⟩ => hasWritten result
  | _ => false

/-- The operations of the database. -/
def isQuery : Op τ → Bool
  | .get | .set _ | .eval _ _ | .ambient => false
  | _ => true

theorem progress_append (past : List (Act (Op τ) (Ans τ))) (act : Act (Op τ) (Ans τ)) :
    progress (past ++ [act]) = (progress past).note act := by
  unfold progress
  rw [List.foldl_append]
  rfl

section Note

variable {p : Progress τ} {act : Act (Op τ) (Ans τ)}

theorem note_of_not_commit (h : isCommit act = false) :
    (p.note act).commits = p.commits ∧ (p.restored = true → (p.note act).restored = true) ∧
      (p.finalizationFailed = true → (p.note act).finalizationFailed = true) := by
  obtain ⟨o, answer⟩ := act
  cases o with
  | get => cases answer <;> exact ⟨rfl, id, id⟩
  | ambient =>
    unfold Progress.note
    cases p.stage <;> exact ⟨rfl, id, id⟩
  | eval text next =>
    have hwritten : hasWritten answer = false := h
    unfold Progress.note
    dsimp only
    cases p.stage with
    | ready text ambient =>
      dsimp only
      rw [hwritten]
      exact ⟨rfl, id, id⟩
    | _ => exact ⟨rfl, id, id⟩
  | findLatestByGameId => rcases answer with _ | _ | _ <;> exact ⟨rfl, id, id⟩
  | finalizeFinishedGame =>
    cases answer with
    | ok => exact ⟨rfl, id, id⟩
    | error => exact ⟨rfl, id, fun _ => rfl⟩
  | set => exact ⟨rfl, fun _ => rfl, id⟩
  | _ => exact ⟨rfl, id, id⟩

theorem note_committed {text : τ} {ambient : Ambient} (h : p.stage = .ready text ambient)
    (expected next : τ) :
    p.note ⟨.eval expected next, (1 : Int)⟩ =
      { p with stage := .idle, commits := p.commits ++ [{ text, ambient, next }] } := by
  simp only [Progress.note, h]
  rfl

theorem note_stage {o : Op τ} (h : isQuery o = true) (answer : Ans τ o) :
    (p.note ⟨o, answer⟩).stage = .idle := by
  cases o with
  | findLatestByGameId => rcases answer with _ | _ | _ <;> rfl
  | finalizeFinishedGame => cases answer <;> rfl
  | createSnapshot | appendEvents => rfl
  | _ => cases h

theorem act_of_read {text : τ} (h : (p.note act).stage = .read text) : act = ⟨.get, some text⟩ := by
  obtain ⟨o, answer⟩ := act
  cases o with
  | get =>
    cases answer with
    | none => cases h
    | some text' =>
      cases h
      rfl
  | ambient =>
    unfold Progress.note at h
    cases hstage : p.stage <;> simp [hstage] at h
  | eval expected next =>
    unfold Progress.note at h
    cases hstage : p.stage with
    | ready =>
      simp only [hstage] at h
      split at h <;> cases h
    | _ => simp [hstage] at h
  | set => cases h
  | _ =>
    rw [note_stage rfl] at h
    cases h

theorem act_of_ready {text : τ} {ambient : Ambient} (h : (p.note act).stage = .ready text ambient) :
    act = ⟨.ambient, ambient⟩ ∧ p.stage = .read text := by
  obtain ⟨o, answer⟩ := act
  cases o with
  | get => cases answer <;> cases h
  | ambient =>
    unfold Progress.note at h
    cases hstage : p.stage with
    | read text' =>
      simp only [hstage] at h
      cases h
      exact ⟨rfl, rfl⟩
    | _ => simp [hstage] at h
  | eval expected next =>
    unfold Progress.note at h
    cases hstage : p.stage with
    | ready =>
      simp only [hstage] at h
      split at h <;> cases h
    | _ => simp [hstage] at h
  | set => cases h
  | _ =>
    rw [note_stage rfl] at h
    cases h

theorem isCommit_of_query {o : Op τ} (h : isQuery o = true) (answer : Ans τ o) :
    isCommit ⟨o, answer⟩ = false := by
  cases o with
  | eval => cases h
  | _ => rfl

end Note

theorem read_of_ready {past : List (Act (Op τ) (Ans τ))} {text : τ} {ambient : Ambient}
    (h : (progress past).stage = .ready text ambient) :
    ∃ before, past = before ++ [⟨.get, some text⟩] ++ [⟨.ambient, ambient⟩] := by
  rcases List.eq_nil_or_concat' past with rfl | ⟨middle, act, rfl⟩
  · cases h
  rw [progress_append] at h
  obtain ⟨rfl, hread⟩ := act_of_ready h
  rcases List.eq_nil_or_concat' middle with rfl | ⟨before, act, rfl⟩
  · cases hread
  rw [progress_append] at hread
  obtain rfl := act_of_read hread
  exact ⟨before, rfl⟩

theorem progress_read (past : List (Act (Op τ) (Ans τ))) (text : τ) :
    progress (past ++ [⟨.get, some text⟩]) = { progress past with stage := .read text } :=
  progress_append ..

theorem progress_ready (past : List (Act (Op τ) (Ans τ))) (text : τ) (ambient : Ambient) :
    progress (past ++ [⟨.get, some text⟩] ++ [⟨.ambient, ambient⟩]) =
      { progress past with stage := .ready text ambient } := by
  rw [progress_append, progress_append]
  rfl

theorem progress_script (past : List (Act (Op τ) (Ans τ))) (text next : τ) (ambient : Ambient)
    (result : Int) :
    progress (past ++ [⟨.get, some text⟩] ++ [⟨.ambient, ambient⟩] ++ [⟨.eval text next, result⟩]) =
      if hasWritten result then
        { progress past with
          stage := .idle, commits := (progress past).commits ++ [{ text, ambient, next }] }
      else { progress past with stage := .idle } := by
  rw [progress_append, progress_append, progress_append]
  rfl

/-! ## What a call may do -/

/-- What the updater makes of the text that was read, with the ambient that was read. -/
def Attempting (json : StateCodec τ) (updater : Updater) (p : Progress τ) (text next : τ) : Prop :=
  ∃ ambient state state' reply, p.stage = .ready text ambient ∧
    json.parse text = some state ∧ updater ambient state = .ok (state', reply) ∧
    next = json.stringify state'

/-- The attempt is over, or cannot go on: the text is no state, or the updater throws. -/
def AttemptOver (json : StateCodec τ) (updater : Updater) : AttemptStage τ → Prop
  | .idle => True
  | .read text => json.parse text = none
  | .ready text ambient => ∀ state, json.parse text = some state →
    ∃ error, updater ambient state = .error error

/-- The operation the attempt goes on with. -/
def Expects (json : StateCodec τ) (updater : Updater) : AttemptStage τ → Op τ → Prop
  | .idle, _ => False
  | .read _, o => o = .ambient
  | .ready text ambient, o => ∃ state state' reply, json.parse text = some state ∧
    updater ambient state = .ok (state', reply) ∧ o = .eval text (json.stringify state')

structure Allowed (json : StateCodec τ) (c : Command) (past : List (Act (Op τ) (Ans τ)))
    (o : Op τ) : Prop where
  next : AttemptOver json c.updater (progress past).stage ∨
    Expects json c.updater (progress past).stage o
  script : ∀ text next, o = .eval text next →
    Attempting json c.updater (progress past) text next ∧
      ((progress past).restored = true ∨ (progress past).commits = [])
  reading : o = .get → (progress past).restored = true ∨ (progress past).commits = []
  updating : c.isUpdate = true → (progress past).commits = []
  writeBack : ∀ value, o = .set value →
    ∃ state, (progress past).snapshot = some state ∧ value = json.stringify state

/-- The reply is the one computed in the attempt. -/
def Computed (json : StateCodec τ) (updater : Updater) (a : Attempt τ) (reply : Reply) : Prop :=
  ∃ state state', json.parse a.text = some state ∧
    updater a.ambient state = .ok (state', reply) ∧ a.next = json.stringify state'

/-- How a call ends. -/
structure Done (json : StateCodec τ) (c : Command) (past : List (Act (Op τ) (Ans τ)))
    (result : Except ServiceError Reply) : Prop where
  ended : AttemptOver json c.updater (progress past).stage
  unrestored : (progress past).restored = false →
    match result with
    | .ok reply => ∃ a, (progress past).commits = [a] ∧ Computed json c.updater a reply
    | .error _ => (progress past).commits = [] ∨
      c.isUpdate = false ∧ (progress past).finalizationFailed = true

/-! ## The rules for the services -/

section ServiceRules

variable {may : List (Act (Op τ) (Ans τ)) → Op τ → Prop} {past : List (Act (Op τ) (Ans τ))}

theorem keeps_query {o : Op τ} {α : Type} {answer : Ans τ o → Except ServiceError α}
    {post : List (Act (Op τ) (Ans τ)) → Except ServiceError α → Prop} (hmay : may past o)
    (h : ∀ a, post (past ++ [⟨o, a⟩]) (answer a)) : Abides may post past (query o answer) :=
  keeps_perform hmay fun a => keeps_lift (h a)

/-- The rule for the loop of `update`. `I` holds before each attempt; the induction is on the
attempts left. -/
theorem keeps_updateLoop {json : StateCodec τ}
    {updater : Ambient → GameEngineState → Except ServiceError (GameEngineState × ρ)}
    {post : List (Act (Op τ) (Ans τ)) → Except ServiceError (GameEngineState × Option ρ) → Prop}
    {I : List (Act (Op τ) (Ans τ)) → Prop}
    (hget : ∀ past, I past → may past .get)
    (hmissing : ∀ past error, I past → post (past ++ [⟨.get, none⟩]) (.error error))
    (hcorrupted : ∀ past text error, I past → json.parse text = none →
      post (past ++ [⟨.get, some text⟩]) (.error error))
    (hambient : ∀ past text, I past → may (past ++ [⟨.get, some text⟩]) .ambient)
    (hrefused : ∀ past text ambient state error, I past → json.parse text = some state →
      updater ambient state = .error error →
      post (past ++ [⟨.get, some text⟩] ++ [⟨.ambient, ambient⟩]) (.error error))
    (heval : ∀ past text ambient state state' captured, I past → json.parse text = some state →
      updater ambient state = .ok (state', captured) →
      may (past ++ [⟨.get, some text⟩] ++ [⟨.ambient, ambient⟩])
        (.eval text (json.stringify state')))
    (hdone : ∀ past text ambient state state' captured, I past → json.parse text = some state →
      updater ambient state = .ok (state', captured) →
      post (past ++ [⟨.get, some text⟩] ++ [⟨.ambient, ambient⟩] ++
        [⟨.eval text (json.stringify state'), (1 : Int)⟩]) (.ok (state', some captured)))
    (hretry : ∀ past text (ambient : Ambient) next (result : Int), I past → hasWritten result = false →
      I (past ++ [⟨.get, some text⟩] ++ [⟨.ambient, ambient⟩] ++ [⟨.eval text next, result⟩]))
    (hfail : ∀ past error, I past → post past (.error error)) (attempts : Nat)
    (captured : Option ρ) (hpast : I past) :
    Abides may post past (GameStateService.updateLoop json updater attempts captured) := by
  induction attempts generalizing past captured with
  | zero => exact keeps_throw (hfail past _ hpast)
  | succ attempts ih =>
    unfold GameStateService.updateLoop
    refine keeps_perform (hget past hpast) fun text => ?_
    cases text with
    | none => exact keeps_throw (hmissing past _ hpast)
    | some text =>
      dsimp only
      unfold GameStateService.parseState
      cases hparse : json.parse text with
      | none => exact keeps_throw (hcorrupted past text _ hpast hparse)
      | some state =>
        refine keeps_perform (hambient past text hpast) fun ambient => ?_
        cases hupdate : updater ambient state with
        | error error => exact keeps_throw (hrefused _ _ _ _ _ hpast hparse hupdate)
        | ok next =>
          obtain ⟨state', value⟩ := next
          refine keeps_perform (heval _ _ _ _ _ _ hpast hparse hupdate) fun (result : Int) => ?_
          by_cases hwritten : result = (1 : Int)
          · subst hwritten
            exact keeps_pure (hdone _ _ _ _ _ _ hpast hparse hupdate)
          · have hscript : I (past ++ [⟨.get, some text⟩] ++ [⟨.ambient, ambient⟩] ++
                [⟨.eval text (json.stringify state'), result⟩]) :=
              hretry _ _ _ _ _ hpast (decide_eq_false hwritten)
            dsimp only
            rw [if_neg hwritten]
            by_cases hmissing : result = (-1 : Int)
            · rw [if_pos hmissing]
              exact keeps_throw (hfail _ _ hscript)
            · rw [if_neg hmissing]
              exact ih _ hscript

theorem keeps_restoreLatestSnapshot {json : StateCodec τ}
    {post : List (Act (Op τ) (Ans τ)) → Except ServiceError (Option GameEngineState) → Prop}
    (hfind : may past .findLatestByGameId)
    (herror : ∀ error, post (past ++ [⟨.findLatestByGameId, .error error⟩]) (.error error))
    (hnone : post (past ++ [⟨.findLatestByGameId, .ok none⟩]) (.ok none))
    (hset : ∀ state, may (past ++ [⟨.findLatestByGameId, .ok (some state)⟩])
      (.set (json.stringify state)))
    (hsome : ∀ state, post (past ++ [⟨.findLatestByGameId, .ok (some state)⟩] ++
      [⟨.set (json.stringify state), ()⟩]) (.ok (some state))) :
    Abides may post past (GameSnapshotService.restoreLatestSnapshot json) := by
  unfold GameSnapshotService.restoreLatestSnapshot
  refine keeps_perform hfind fun answer => ?_
  rcases answer with error | _ | state
  · exact keeps_throw (herror error)
  · exact keeps_pure hnone
  · exact keeps_perform (hset state) fun _ => keeps_pure (hsome state)

theorem keeps_try {I : List (Act (Op τ) (Ans τ)) → Prop} {p : Task τ Unit}
    (hp : Abides may (fun past _ => I past) past p) :
    Abides may (fun past result => I past ∧ result = .ok ()) past
      (tryCatch p fun _ => return ()) :=
  keeps_handle _ hp (fun _ _ hI => ⟨hI, rfl⟩) fun _ _ hI => keeps_pure ⟨hI, rfl⟩

end ServiceRules

/-! ## One call -/

section OneCall

variable {json : StateCodec τ} {c : Command} {past : List (Act (Op τ) (Ans τ))}

theorem allowed_query {o : Op τ} (hquery : isQuery o = true)
    (hover : AttemptOver json c.updater (progress past).stage)
    (h : c.isUpdate = true → (progress past).commits = []) : Allowed json c past o where
  next := .inl hover
  script _ _ heq := by rw [heq] at hquery; cases hquery
  reading heq := by rw [heq] at hquery; cases hquery
  updating := h
  writeBack _ heq := by rw [heq] at hquery; cases hquery

/-- The call may make an attempt: no script has succeeded, or a snapshot was written back since. -/
structure Pending (json : StateCodec τ) (c : Command) (past : List (Act (Op τ) (Ans τ))) : Prop where
  ended : AttemptOver json c.updater (progress past).stage
  fresh : (progress past).commits = [] ∨ c.isUpdate = false ∧ (progress past).restored = true

theorem Pending.updating (h : Pending json c past) (hc : c.isUpdate = true) :
    (progress past).commits = [] := by
  rcases h.fresh with h | ⟨hnot, _⟩
  · exact h
  · rw [hc] at hnot
    cases hnot

theorem Pending.first (h : Pending json c past) :
    (progress past).restored = true ∨ (progress past).commits = [] := by
  rcases h.fresh with hnone | ⟨_, hrestored⟩
  · exact .inr hnone
  · exact .inl hrestored

/-- How `update` ends within a call; `reply` is what the call makes of it. -/
def Updated (json : StateCodec τ) (c : Command) (reply : GameEngineState → ρ → Reply)
    (past : List (Act (Op τ) (Ans τ))) :
    Except ServiceError (GameEngineState × Option ρ) → Prop
  | .ok (state, captured) => ∃ value, captured = some value ∧ (progress past).stage = .idle ∧
    ((progress past).restored = false →
      ∃ a, (progress past).commits = [a] ∧ Computed json c.updater a (reply state value))
  | .error _ => Pending json c past

theorem keeps_stateUpdate
    {updater : Ambient → GameEngineState → Except ServiceError (GameEngineState × ρ)}
    (reply : GameEngineState → ρ → Reply)
    (hok : ∀ ambient state state' value, updater ambient state = .ok (state', value) →
      c.updater ambient state = .ok (state', reply state' value))
    (herror : ∀ ambient state error, updater ambient state = .error error →
      c.updater ambient state = .error error)
    (maxAttempts : Nat) (h : Pending json c past) :
    Abides (Allowed json c) (Updated json c reply) past
      (GameStateService.update json maxAttempts updater) := by
  refine keeps_updateLoop (I := Pending json c) ?_ ?_ ?_ ?_ ?_ ?_ ?_ ?_ (fun _ _ hI => hI)
    maxAttempts none h
  · intro past hI
    exact ⟨.inl hI.ended, nofun, fun _ => hI.first, hI.updating, nofun⟩
  · intro past _ hI
    have hnote : progress (past ++ [⟨.get, none⟩]) = { progress past with stage := .idle } :=
      progress_append ..
    refine ⟨?_, ?_⟩
    · rw [hnote]
      trivial
    · rw [hnote]
      exact hI.fresh
  · intro past text _ hI hparse
    refine ⟨?_, ?_⟩
    · rw [progress_read]
      exact hparse
    · rw [progress_read]
      exact hI.fresh
  · intro past text hI
    refine ⟨?_, nofun, nofun, ?_, nofun⟩
    · rw [progress_read]
      exact .inr rfl
    · rw [progress_read]
      exact hI.updating
  · intro past text ambient state error hI hparse hupdate
    refine ⟨?_, ?_⟩
    · rw [progress_ready]
      intro state₁ hparse₁
      cases hparse.symm.trans hparse₁
      exact ⟨error, herror _ _ _ hupdate⟩
    · rw [progress_ready]
      exact hI.fresh
  · intro past text ambient state state' value hI hparse hupdate
    refine ⟨.inr ?_, ?_, nofun, ?_, nofun⟩
    · rw [progress_ready]
      exact ⟨state, state', _, hparse, hok _ _ _ _ hupdate, rfl⟩
    · rintro _ _ ⟨⟩
      rw [progress_ready]
      exact ⟨⟨ambient, state, state', _, rfl, hparse, hok _ _ _ _ hupdate, rfl⟩, hI.first⟩
    · rw [progress_ready]
      exact hI.updating
  · intro past text ambient state state' value hI hparse hupdate
    refine ⟨value, rfl, ?_⟩
    rw [progress_script]
    refine ⟨rfl, fun hrestored => ?_⟩
    have hunrestored : (progress past).restored = false := hrestored
    rcases hI.first with hback | hnone
    · rw [hunrestored] at hback
      cases hback
    · refine ⟨⟨text, ambient, json.stringify state'⟩, ?_, state, state', hparse,
        hok _ _ _ _ hupdate, rfl⟩
      show (progress past).commits ++ _ = _
      rw [hnone, List.nil_append]
  · intro past text ambient next result hI hwritten
    refine ⟨?_, ?_⟩
    · rw [progress_script, hwritten]
      trivial
    · rw [progress_script, hwritten]
      exact hI.fresh

/-- The call has succeeded, and its reply will be the given one. -/
structure Succeeded (json : StateCodec τ) (c : Command) (reply : Reply)
    (past : List (Act (Op τ) (Ans τ))) : Prop where
  idle : (progress past).stage = .idle
  unrestored : (progress past).restored = false →
    ∃ a, (progress past).commits = [a] ∧ Computed json c.updater a reply

theorem Succeeded.ended {reply : Reply} (h : Succeeded json c reply past) :
    AttemptOver json c.updater (progress past).stage := by
  rw [h.idle]
  trivial

theorem unrestored_of_append {act : Act (Op τ) (Ans τ)} (hact : isCommit act = false)
    (h : (progress (past ++ [act])).restored = false) : (progress past).restored = false := by
  rw [progress_append] at h
  cases hpast : (progress past).restored with
  | false => rfl
  | true =>
    rw [(note_of_not_commit hact).2.1 hpast] at h
    cases h

theorem Succeeded.append {reply : Reply} {o : Op τ} (h : Succeeded json c reply past)
    (hquery : isQuery o = true) (answer : Ans τ o) :
    Succeeded json c reply (past ++ [⟨o, answer⟩]) where
  idle := by
    rw [progress_append]
    exact note_stage hquery answer
  unrestored hrestored := by
    have hact := isCommit_of_query hquery answer
    obtain ⟨a, ha, hreply⟩ := h.unrestored (unrestored_of_append hact hrestored)
    rw [progress_append]
    exact ⟨a, (note_of_not_commit hact).1.trans ha, hreply⟩

theorem updating_of_not {past : List (Act (Op τ) (Ans τ))} (hc : c.isUpdate = false) :
    c.isUpdate = true → (progress past).commits = [] := by
  intro hup
  rw [hc] at hup
  cases hup

theorem keeps_succeededQuery {o : Op τ} {α : Type} {answer : Ans τ o → Except ServiceError α}
    {reply : Reply} (hquery : isQuery o = true) (hc : c.isUpdate = false)
    (h : Succeeded json c reply past) :
    Abides (Allowed json c) (fun past _ => Succeeded json c reply past) past (query o answer) :=
  keeps_query (allowed_query hquery h.ended (updating_of_not hc)) fun a => h.append hquery a

theorem keeps_snapshotAfterCommand {reply : Reply} (hc : c.isUpdate = false)
    (h : Succeeded json c reply past) (state : GameEngineState) :
    Abides (Allowed json c) (fun past _ => Succeeded json c reply past) past
      (GameSnapshotService.createSnapshotAfterCommand state) := by
  unfold GameSnapshotService.createSnapshotAfterCommand
  split
  · exact keeps_succeededQuery rfl hc h
  · split
    · exact keeps_pure h
    · exact keeps_succeededQuery rfl hc h

/-- After its script has succeeded a command only fails when its game cannot be finalized. -/
def Finalizing (json : StateCodec τ) (c : Command) (reply : Reply)
    (past : List (Act (Op τ) (Ans τ))) : Except ServiceError Unit → Prop
  | .ok _ => Succeeded json c reply past
  | .error _ => (progress past).stage = .idle ∧ (progress past).finalizationFailed = true

theorem keeps_afterSuccessfulCommand {reply : Reply} (hc : c.isUpdate = false)
    (h : Succeeded json c reply past) (result : GameCommandResult) :
    Abides (Allowed json c) (Finalizing json c reply) past
      (GameCommandsService.afterSuccessfulCommand result) := by
  unfold GameCommandsService.afterSuccessfulCommand
  refine keeps_bind _ (keeps_try (keeps_succeededQuery rfl hc h)) (fun _ _ he => nomatch he.2)
    fun past _ hlog => ?_
  refine keeps_bind _ (keeps_try (keeps_snapshotAfterCommand hc hlog.1 _))
    (fun _ _ he => nomatch he.2) fun past _ hsnap => ?_
  by_cases hfinished : result.state.phase = .finished
  · rw [if_pos hfinished]
    refine keeps_query (allowed_query rfl hsnap.1.ended (updating_of_not hc)) fun answer => ?_
    cases answer with
    | ok _ => exact hsnap.1.append rfl _
    | error error =>
      refine ⟨?_, ?_⟩
      · rw [progress_append]
        rfl
      · rw [progress_append]
        rfl
  · rw [if_neg hfinished]
    exact keeps_pure hsnap.1

/-- How a command fails that is not a plain update. -/
structure Failed (json : StateCodec τ) (c : Command) (past : List (Act (Op τ) (Ans τ))) : Prop where
  ended : AttemptOver json c.updater (progress past).stage
  unrestored : (progress past).restored = false →
    (progress past).commits = [] ∨ (progress past).finalizationFailed = true

theorem Failed.append {o : Op τ} (h : Failed json c past) (hquery : isQuery o = true)
    (answer : Ans τ o) : Failed json c (past ++ [⟨o, answer⟩]) where
  ended := by
    rw [progress_append, note_stage hquery answer]
    trivial
  unrestored hrestored := by
    have hact := isCommit_of_query hquery answer
    rw [progress_append]
    rcases h.unrestored (unrestored_of_append hact hrestored) with hnone | hfinal
    · exact .inl ((note_of_not_commit hact).1.trans hnone)
    · exact .inr ((note_of_not_commit hact).2.2 hfinal)

/-- How `executeOnce` ends. -/
def DoneOnce (json : StateCodec τ) (c : Command) (past : List (Act (Op τ) (Ans τ))) :
    Except ServiceError GameCommandResult → Prop
  | .ok result => Succeeded json c (.executed result) past
  | .error _ => Failed json c past

variable {input : ExecuteGameIntentCommand}

theorem keeps_executeOnce (h : Pending json (.executeIntent input) past) :
    Abides (Allowed json (.executeIntent input)) (DoneOnce json (.executeIntent input)) past
      (GameCommandsService.executeOnce json input) := by
  unfold GameCommandsService.executeOnce
  refine keeps_bind _ (keeps_stateUpdate (fun _ => .executed) ?_ ?_ _ h) ?_ ?_
  · intro ambient state state' value heq
    show (GameCommandsService.updater input ambient state).map _ = _
    rw [heq]
    rfl
  · intro ambient state error heq
    show (GameCommandsService.updater input ambient state).map _ = _
    rw [heq]
    rfl
  · intro past _ hpending
    refine ⟨hpending.ended, fun hrestored => .inl ?_⟩
    rcases hpending.first with hback | hnone
    · rw [hrestored] at hback
      cases hback
    · exact hnone
  · rintro past ⟨state, captured⟩ ⟨result, rfl, hidle, hsucceeded⟩
    refine keeps_bind _ (keeps_afterSuccessfulCommand rfl ⟨hidle, hsucceeded⟩ _) ?_ ?_
    · rintro past _ ⟨hidle, hfinal⟩
      refine ⟨?_, fun _ => .inr hfinal⟩
      rw [hidle]
      trivial
    · exact fun _ _ hfinal => keeps_pure hfinal

/-- How the search for a snapshot ends. -/
def SnapshotSearched (json : StateCodec τ) (c : Command) (past : List (Act (Op τ) (Ans τ))) :
    Except ServiceError (Option GameEngineState) → Prop
  | .ok (some _) => (progress past).stage = .idle ∧ (progress past).restored = true
  | _ => Failed json c past

/-- How a recovery ends. -/
def RecoveryEnded (json : StateCodec τ) (c : Command) (past : List (Act (Op τ) (Ans τ))) :
    Except ServiceError GameEngineState → Prop
  | .ok _ => (progress past).stage = .idle ∧ (progress past).restored = true
  | .error _ => Failed json c past

theorem keeps_recoverOrThrow (hc : c.isUpdate = false) (h : Failed json c past) :
    Abides (Allowed json c) (RecoveryEnded json c) past (GameRecoveryService.recoverOrThrow json) := by
  refine keeps_bind (SnapshotSearched json c) ?_ (fun _ _ he => he) ?_
  · refine keeps_restoreLatestSnapshot (allowed_query rfl h.ended (updating_of_not hc))
      (fun error => h.append rfl _) (h.append rfl _) ?_ ?_
    · intro state
      refine ⟨.inl ?_, nofun, nofun, updating_of_not hc, ?_⟩
      · rw [progress_append]
        trivial
      · rintro _ ⟨⟩
        refine ⟨state, ?_, rfl⟩
        rw [progress_append]
        rfl
    · intro state
      unfold SnapshotSearched
      rw [progress_append]
      exact ⟨rfl, rfl⟩
  · rintro past recoveredState hrecovered
    cases recoveredState with
    | none => exact keeps_throw hrecovered
    | some state => exact keeps_pure hrecovered

theorem keeps_executeIntentWithRecovery (recoveries : Nat)
    (h : Pending json (.executeIntent input) past) :
    Abides (Allowed json (.executeIntent input)) (DoneOnce json (.executeIntent input)) past
      (GameCommandsService.executeIntentWithRecovery json input recoveries) := by
  induction recoveries generalizing past with
  | zero =>
    exact keeps_handle _ (keeps_executeOnce h) (fun _ _ hdone => hdone) fun _ _ hdone =>
      keeps_throw hdone
  | succ recoveries ih =>
    refine keeps_handle _ (keeps_executeOnce h) (fun _ _ hdone => hdone) fun past error hdone => ?_
    by_cases hmissing : error = .notFound
    · rw [if_pos hmissing]
      refine keeps_bind _ (keeps_recoverOrThrow rfl hdone) (fun _ _ hfailed => hfailed) ?_
      rintro past _ ⟨hidle, hrestored⟩
      refine ih ⟨?_, .inr ⟨rfl, hrestored⟩⟩
      rw [hidle]
      trivial
    · rw [if_neg hmissing]
      exact keeps_throw hdone

theorem keeps_executeIntent :
    Abides (Allowed json (.executeIntent input)) (DoneOnce json (.executeIntent input)) []
      (GameCommandsService.executeIntent json input) := by
  refine keeps_bind (fun past _ => past = []) (keeps_lift rfl) ?_ ?_
  · rintro past error rfl
    exact ⟨trivial, fun _ => .inl rfl⟩
  · rintro past _ rfl
    exact keeps_executeIntentWithRecovery 1 ⟨trivial, .inl rfl⟩

/-- What a call does and how it ends. -/
theorem keeps_run (json : StateCodec τ) (c : Command) :
    Abides (Allowed json c) (Done json c) [] (c.run json) := by
  cases c with
  | update maxAttempts updater =>
    refine keeps_bind _ (keeps_stateUpdate (fun state _ => .updated state) ?_ ?_ _
      ⟨trivial, .inl rfl⟩) ?_ ?_
    · intro ambient state state' value heq
      show (updater ambient state).map _ = _
      rw [heq]
      rfl
    · intro ambient state error heq
      show (updater ambient state).map _ = _
      rw [heq]
      rfl
    · exact fun past error hpending => ⟨hpending.ended, fun _ => .inl (hpending.updating rfl)⟩
    · rintro past ⟨state, captured⟩ ⟨_, rfl, hidle, hsucceeded⟩
      refine keeps_pure ⟨?_, hsucceeded⟩
      rw [hidle]
      trivial
  | executeIntent input =>
    refine keeps_bind _ keeps_executeIntent ?_ ?_
    · rintro past error ⟨hover, hfailed⟩
      refine ⟨hover, fun hrestored => ?_⟩
      rcases hfailed hrestored with hnone | hfinal
      · exact .inl hnone
      · exact .inr ⟨rfl, hfinal⟩
    · exact fun past result hsucceeded => keeps_pure ⟨hsucceeded.ended, hsucceeded.unrestored⟩

end OneCall

end Rules
end LivePoly
