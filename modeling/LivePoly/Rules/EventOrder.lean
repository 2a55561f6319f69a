import LivePoly.Rules.EventRecovery
import LivePoly.Rules.Serial

/-!
# Rules.EventOrder

A command appends its events after its script has succeeded, in a transaction of its own. Whatever
the order, the log is numbered without gaps and the events of a command lie together; the blocks lie
in the order of the scripts exactly when no command overtakes another one between its script and its
append.
-/

namespace LivePoly
namespace Rules

open Engine Service Process Service.GameEventsRepository

variable {τ κ ρ : Type}

/-! ## The appends of one command -/

def append? : Op τ → Option (List GameEngineEvent)
  | .appendEvents events => some events
  | _ => none

/-- The events a call has appended, append by append. -/
def appendsOf (past : List (Act (Op τ) (Ans τ))) : List (List GameEngineEvent) :=
  past.filterMap fun act => append? act.1

/-- The events are those of the result that was computed in the attempt. -/
def EventsOf (json : StateCodec τ) (updater : Updater) (a : Attempt τ)
    (events : List GameEngineEvent) : Prop :=
  ∃ result, Computed json updater a (.executed result) ∧ result.events = events

/-- Every script that succeeded has its append. -/
def Appended (json : StateCodec τ) (updater : Updater) (past : List (Act (Op τ) (Ans τ))) : Prop :=
  List.Forall₂ (EventsOf json updater) (progress past).commits (appendsOf past)

/-- Only the last script that succeeded has no append yet. -/
def Owes (json : StateCodec τ) (updater : Updater) (events : List GameEngineEvent)
    (past : List (Act (Op τ) (Ans τ))) : Prop :=
  ∃ before a, (progress past).commits = before ++ [a] ∧ EventsOf json updater a events ∧
    List.Forall₂ (EventsOf json updater) before (appendsOf past)

def isScript : Op τ → Bool
  | .eval _ _ => true
  | _ => false

/-- A call appends what it owes, and owes nothing when it runs a script. -/
structure AppendsNext (json : StateCodec τ) (updater : Updater) (past : List (Act (Op τ) (Ans τ)))
    (o : Op τ) : Prop where
  append : ∀ events, o = .appendEvents events → Owes json updater events past
  script : ∀ text next, o = .eval text next → Appended json updater past ∧
    ∃ ambient, (progress past).stage = .ready text ambient

section OneCall

variable {json : StateCodec τ} {updater : Updater} {past : List (Act (Op τ) (Ans τ))}
  {input : ExecuteGameIntentCommand}

theorem appendsNext_quiet {o : Op τ} (hnone : append? o = none) (hscript : isScript o = false) :
    AppendsNext json updater past o := by
  constructor
  · rintro events rfl
    cases hnone
  · rintro text next rfl
    cases hscript

theorem appendsOf_append (past : List (Act (Op τ) (Ans τ))) (act : Act (Op τ) (Ans τ)) :
    appendsOf (past ++ [act]) = appendsOf past ++ (append? act.1).toList := by
  unfold appendsOf
  rw [List.filterMap_append]
  cases h : append? act.1 <;> simp [h]

theorem Appended.quiet {act : Act (Op τ) (Ans τ)} (h : Appended json updater past)
    (hcommit : isCommit act = false) (hnone : append? act.1 = none) :
    Appended json updater (past ++ [act]) := by
  unfold Appended
  rw [progress_append, (note_of_not_commit hcommit).1, appendsOf_append, hnone]
  exact (List.append_nil (appendsOf past)).symm ▸ h

theorem Owes.append {events : List GameEngineEvent} (h : Owes json updater events past)
    (answer : Except ServiceError Unit) :
    Appended json updater (past ++ [⟨.appendEvents events, answer⟩]) := by
  obtain ⟨before, a, hcommits, hevents, hbefore⟩ := h
  unfold Appended
  rw [progress_append, (note_of_not_commit rfl).1, appendsOf_append, hcommits]
  exact List.rel_append hbefore (.cons hevents .nil)

/-- How an update ends: the events of its result are to be appended. -/
def UpdateOwes (json : StateCodec τ) (updater : Updater) (past : List (Act (Op τ) (Ans τ))) :
    Except ServiceError (GameEngineState × Option GameCommandResult) → Prop
  | .ok (_, captured) => ∃ result, captured = some result ∧ Owes json updater result.events past
  | .error _ => Appended json updater past

theorem appends_update (maxAttempts : Nat)
    (h : Appended json (Command.executeIntent input).updater past) :
    Abides (AppendsNext json (Command.executeIntent input).updater)
      (UpdateOwes json (Command.executeIntent input).updater) past
      (GameStateService.update json maxAttempts (GameCommandsService.updater input)) := by
  have hread : ∀ past text, Appended json (Command.executeIntent input).updater past →
      Appended json (Command.executeIntent input).updater (past ++ [⟨.get, some text⟩]) :=
    fun past text hI => hI.quiet rfl rfl
  have hready : ∀ past text ambient, Appended json (Command.executeIntent input).updater past →
      Appended json (Command.executeIntent input).updater
        (past ++ [⟨.get, some text⟩] ++ [⟨.ambient, ambient⟩]) :=
    fun past text ambient hI => (hread past text hI).quiet rfl rfl
  refine keeps_updateLoop (I := Appended json (Command.executeIntent input).updater)
    ?_ ?_ ?_ ?_ ?_ ?_ ?_ ?_ (fun _ _ hI => hI) maxAttempts none h
  · exact fun past hI => appendsNext_quiet rfl rfl
  · exact fun past error hI => hI.quiet rfl rfl
  · exact fun past text error hI _ => hread past text hI
  · exact fun past text hI => appendsNext_quiet rfl rfl
  · exact fun past text ambient state error hI _ _ => hready past text ambient hI
  · intro past text ambient state state' result hI hparse hupdate
    constructor
    · rintro events ⟨⟩
    · rintro _ _ ⟨⟩
      refine ⟨hready past text ambient hI, ambient, ?_⟩
      rw [progress_ready]
  · intro past text ambient state state' result hI hparse hupdate
    refine ⟨result, rfl, (progress past).commits, ⟨text, ambient, json.stringify state'⟩,
      ?_, ?_, ?_⟩
    · rw [progress_script]
      rfl
    · refine ⟨result, ⟨state, state', hparse, ?_, rfl⟩, rfl⟩
      show (GameCommandsService.updater input ambient state).map _ = _
      rw [hupdate]
      rfl
    · rw [appendsOf_append, appendsOf_append, appendsOf_append]
      simp only [append?, Option.toList_none, List.append_nil]
      exact hI
  · exact fun past text ambient next result hI hwritten => (hready past text ambient hI).quiet
      hwritten rfl

theorem appends_query {o : Op τ} {α : Type} {answer : Ans τ o → Except ServiceError α}
    (hquery : isQuery o = true) (hnone : append? o = none) (h : Appended json updater past) :
    Abides (AppendsNext json updater) (fun past _ => Appended json updater past) past
      (query o answer) := by
  refine keeps_query ⟨?_, ?_⟩ fun a => h.quiet (isCommit_of_query hquery a) hnone
  · rintro events rfl
    cases hnone
  · rintro text next rfl
    cases hquery

theorem appends_afterSuccessfulCommand (result : GameCommandResult)
    (h : Owes json updater result.events past) :
    Abides (AppendsNext json updater) (fun past _ => Appended json updater past) past
      (GameCommandsService.afterSuccessfulCommand result) := by
  unfold GameCommandsService.afterSuccessfulCommand
  refine keeps_bind _ (keeps_try (I := Appended json updater) ?_) (fun _ _ he => he.1)
    fun past _ hlog => ?_
  · refine keeps_query ⟨?_, ?_⟩ h.append
    · rintro _ ⟨⟩
      exact h
    · rintro text next ⟨⟩
  refine keeps_bind _ (keeps_try (I := Appended json updater) ?_) (fun _ _ he => he.1)
    fun past _ hsnap => ?_
  · unfold GameSnapshotService.createSnapshotAfterCommand
    split
    · exact appends_query rfl rfl hlog.1
    · split
      · exact keeps_pure hlog.1
      · exact appends_query rfl rfl hlog.1
  · split
    · exact appends_query rfl rfl hsnap.1
    · exact keeps_pure hsnap.1

theorem appends_executeOnce (h : Appended json (Command.executeIntent input).updater past) :
    Abides (AppendsNext json (Command.executeIntent input).updater)
      (fun past _ => Appended json (Command.executeIntent input).updater past) past
      (GameCommandsService.executeOnce json input) := by
  unfold GameCommandsService.executeOnce
  refine keeps_bind _ (appends_update _ h) (fun _ _ hI => hI) ?_
  rintro past ⟨state, captured⟩ ⟨result, rfl, howes⟩
  exact keeps_bind _ (appends_afterSuccessfulCommand _ howes) (fun _ _ hI => hI)
    fun _ _ hI => keeps_pure hI

theorem appends_recoverOrThrow (h : Appended json updater past) :
    Abides (AppendsNext json updater) (fun past _ => Appended json updater past) past
      (GameRecoveryService.recoverOrThrow json) := by
  refine keeps_bind (fun past _ => Appended json updater past) ?_ (fun _ _ hI => hI) ?_
  · have hfound : ∀ answer, Appended json updater (past ++ [⟨.findLatestByGameId, answer⟩]) :=
      fun answer => h.quiet rfl rfl
    exact keeps_restoreLatestSnapshot (appendsNext_quiet rfl rfl) (fun _ => hfound _) (hfound _)
      (fun _ => appendsNext_quiet rfl rfl) fun _ => (hfound _).quiet rfl rfl
  · intro past state hI
    cases state with
    | none => exact keeps_throw hI
    | some state => exact keeps_pure hI

theorem appends_executeIntentWithRecovery (recoveries : Nat)
    (h : Appended json (Command.executeIntent input).updater past) :
    Abides (AppendsNext json (Command.executeIntent input).updater)
      (fun past _ => Appended json (Command.executeIntent input).updater past) past
      (GameCommandsService.executeIntentWithRecovery json input recoveries) := by
  induction recoveries generalizing past with
  | zero =>
    exact keeps_handle _ (appends_executeOnce h) (fun _ _ hI => hI) fun _ _ hI => keeps_throw hI
  | succ recoveries ih =>
    refine keeps_handle _ (appends_executeOnce h) (fun _ _ hI => hI) fun past error hI => ?_
    by_cases hmissing : error = .notFound
    · rw [if_pos hmissing]
      exact keeps_bind _ (appends_recoverOrThrow hI) (fun _ _ hI => hI) fun _ _ hI => ih hI
    · rw [if_neg hmissing]
      exact keeps_throw hI

/-- After its scripts a command appends, and it ends when it owes nothing. -/
theorem appends_run (json : StateCodec τ) (input : ExecuteGameIntentCommand) :
    Abides (AppendsNext json (Command.executeIntent input).updater)
      (fun past _ => Appended json (Command.executeIntent input).updater past) []
      ((Command.executeIntent input).run json) := by
  have hnone : Appended json (Command.executeIntent input).updater [] := .nil
  refine keeps_bind (fun past _ => Appended json (Command.executeIntent input).updater past) ?_
    (fun _ _ hI => hI) fun _ _ hI => keeps_pure hI
  exact keeps_bind (fun past _ => Appended json (Command.executeIntent input).updater past)
    (keeps_lift hnone) (fun _ _ hI => hI) fun _ _ hI => appends_executeIntentWithRecovery 1 hI

end OneCall

/-! ## All commands -/

section Interleavings

variable [DecidableEq κ] {json : StateCodec τ} {inputs : κ → ExecuteGameIntentCommand}
  {acts : List (κ × Act (Op τ) (Ans τ))}

/-- The updater of a command. -/
abbrev updaterOf (inputs : κ → ExecuteGameIntentCommand) (k : κ) : Updater :=
  (Command.executeIntent (inputs k)).updater

/-- The blocks of events in the order of their appends, each with its command. -/
def blocks (acts : List (κ × Act (Op τ) (Ans τ))) : List (κ × List GameEngineEvent) :=
  acts.filterMap fun act => (append? act.2.1).map fun events => (act.1, events)

omit [DecidableEq κ] in
theorem blocks_append (acts : List (κ × Act (Op τ) (Ans τ))) (k : κ) (act : Act (Op τ) (Ans τ)) :
    blocks (acts ++ [(k, act)]) =
      blocks acts ++ ((append? act.1).map fun events => (k, events)).toList := by
  unfold blocks
  rw [List.filterMap_append]
  cases h : append? act.1 <;> simp [h]

theorem blocks_own (acts : List (κ × Act (Op τ) (Ans τ))) (k : κ) :
    ((blocks acts).filter fun block => block.1 = k).map Prod.snd = appendsOf (doneBy k acts) := by
  induction acts using List.reverseRecOn with
  | nil => rfl
  | append_singleton acts act ih =>
    obtain ⟨j, act⟩ := act
    rw [blocks_append, List.filter_append, List.map_append, ih, doneBy_append]
    by_cases hj : j = k
    · subst hj
      rw [doneBy_self, appendsOf_append]
      cases append? act.1 <;> simp
    · rw [doneBy_other hj, List.append_nil]
      cases append? act.1 <;> simp [hj]

/-- The scripts that succeeded in their order, each with its command and its attempt. -/
structure CommitLog (acts : List (κ × Act (Op τ) (Ans τ))) (log : List (κ × Attempt τ)) : Prop where
  order : log.map Prod.fst = committed acts
  own : ∀ k, (log.filter fun a => a.1 = k).map Prod.snd = (progress (doneBy k acts)).commits

theorem CommitLog.quiet {log : List (κ × Attempt τ)} (h : CommitLog acts log) {k : κ}
    {act : Act (Op τ) (Ans τ)} (hact : isCommit act = false) :
    CommitLog (acts ++ [(k, act)]) log where
  order := by
    rw [h.order, committed, committed, scripts_append, script?_of_quiet hact]
    exact congrArg _ (List.append_nil _).symm
  own j := by
    rw [h.own j, doneBy_append]
    by_cases hj : k = j
    · subst hj
      rw [doneBy_self, progress_append, (note_of_not_commit hact).1]
    · rw [doneBy_other hj, List.append_nil]

theorem CommitLog.commit {log : List (κ × Attempt τ)} (h : CommitLog acts log) {k : κ}
    {text : τ} {ambient : Ambient} (hstage : (progress (doneBy k acts)).stage = .ready text ambient)
    (expected next : τ) :
    CommitLog (acts ++ [(k, ⟨.eval expected next, (1 : Int)⟩)])
      (log ++ [(k, ⟨text, ambient, next⟩)]) where
  order := by
    rw [committed, scripts_append, List.map_append, List.map_append, h.order]
    rfl
  own j := by
    rw [List.filter_append, List.map_append, h.own j, doneBy_append]
    by_cases hj : k = j
    · subst hj
      rw [doneBy_self, progress_append, note_committed hstage]
      simp
    · rw [doneBy_other hj, List.append_nil]
      simp [hj]

/-- The script of the command is the first one whose events are not in the log. -/
def Due (acts : List (κ × Act (Op τ) (Ans τ))) (k : κ) : Prop :=
  (committed acts)[(blocks acts).length]? = some k

/-- No command appends before one whose script came first. -/
def InTurn (acts : List (κ × Act (Op τ) (Ans τ))) : Prop :=
  ∀ before k act after, acts = before ++ (k, act) :: after → (append? act.1).isSome → Due before k

/-- A block and a script belong together. -/
def Belongs (json : StateCodec τ) (inputs : κ → ExecuteGameIntentCommand) (a : κ × Attempt τ)
    (block : κ × List GameEngineEvent) : Prop :=
  a.1 = block.1 ∧ EventsOf json (updaterOf inputs a.1) a.2 block.2

/-- The blocks are those of the first scripts, in the order of the scripts. -/
def InCommitOrder (json : StateCodec τ) (inputs : κ → ExecuteGameIntentCommand)
    (log : List (κ × Attempt τ)) (acts : List (κ × Act (Op τ) (Ans τ))) : Prop :=
  ∃ first rest, log = first ++ rest ∧ List.Forall₂ (Belongs json inputs) first (blocks acts)

omit [DecidableEq κ] in
theorem InTurn.left {xs ys : List (κ × Act (Op τ) (Ans τ))} (h : InTurn (xs ++ ys)) :
    InTurn xs := by
  rintro before k act after rfl happend
  refine h before k act (after ++ ys) ?_ happend
  rw [List.append_assoc, List.cons_append]

omit [DecidableEq κ] in
theorem Belongs.fst {first : List (κ × Attempt τ)} {bs : List (κ × List GameEngineEvent)}
    (h : List.Forall₂ (Belongs json inputs) first bs) : first.map Prod.fst = bs.map Prod.fst := by
  induction h with
  | nil => rfl
  | cons hhead _ ih => rw [List.map_cons, List.map_cons, hhead.1, ih]

theorem length_filter_of_fst {α β : Type} {xs : List (κ × α)} {ys : List (κ × β)}
    (h : xs.map Prod.fst = ys.map Prod.fst) (k : κ) :
    (xs.filter fun x => x.1 = k).length = (ys.filter fun y => y.1 = k).length := by
  have hcount := congrArg (List.countP fun j => decide (j = k)) h
  rwa [List.countP_map, List.countP_map, List.countP_eq_length_filter,
    List.countP_eq_length_filter] at hcount

/-- The command that is due appends the events of the next script. -/
theorem InCommitOrder.append {log : List (κ × Attempt τ)} (hlog : CommitLog acts log)
    (h : InCommitOrder json inputs log acts) {k : κ} {events : List GameEngineEvent}
    (howes : Owes json (updaterOf inputs k) events (doneBy k acts)) (hdue : Due acts k)
    (answer : Except ServiceError Unit) :
    InCommitOrder json inputs log (acts ++ [(k, ⟨.appendEvents events, answer⟩)]) := by
  obtain ⟨first, rest, rfl, hfirst⟩ := h
  obtain ⟨before, a, hcommits, hevents, hbefore⟩ := howes
  have hlength : first.length = (blocks acts).length := hfirst.length_eq
  rw [Due, ← hlog.order, List.map_append, ← hlength,
    List.getElem?_append_right (by simp)] at hdue
  cases rest with
  | nil => simp at hdue
  | cons next rest =>
    obtain ⟨j, a'⟩ := next
    have hj : j = k := by simpa using hdue
    subst hj
    have hown := hlog.own j
    rw [hcommits, List.filter_append, List.map_append, List.filter_cons_of_pos (by simp),
      List.map_cons] at hown
    have hsame : ((first.filter fun b => b.1 = j).map Prod.snd).length = before.length := by
      rw [List.length_map, length_filter_of_fst (Belongs.fst hfirst) j, hbefore.length_eq,
        ← blocks_own, List.length_map]
    obtain ⟨_, hlast⟩ := List.append_inj hown hsame
    obtain rfl : a' = a := (List.cons.inj hlast).1
    refine ⟨first ++ [(j, a')], rest, by simp, ?_⟩
    rw [blocks_append]
    exact List.rel_append hfirst (.cons ⟨rfl, hevents⟩ .nil)

omit [DecidableEq κ] in
theorem committed_append (xs ys : List (κ × Act (Op τ) (Ans τ))) :
    committed (xs ++ ys) = committed xs ++ committed ys := by
  rw [committed, scripts, List.filterMap_append, List.map_append]
  rfl

theorem InCommitOrder.due {log log' : List (κ × Attempt τ)}
    {before after : List (κ × Act (Op τ) (Ans τ))}
    {k : κ} {act : Act (Op τ) (Ans τ)} {events : List GameEngineEvent}
    (hlog : CommitLog (before ++ (k, act) :: after) log) (hlog' : CommitLog before log')
    (h : InCommitOrder json inputs log (before ++ (k, act) :: after))
    (happend : append? act.1 = some events)
    (howes : Owes json (updaterOf inputs k) events (doneBy k before)) : Due before k := by
  obtain ⟨first, rest, rfl, hfirst⟩ := h
  obtain ⟨earlier, a, hcommits, _, hearlier⟩ := howes
  have hblocks : blocks (before ++ (k, act) :: after) =
      blocks before ++ (k, events) :: blocks after := by
    unfold blocks
    rw [List.filterMap_append, List.filterMap_cons, happend]
    rfl
  have horder : (blocks before).map Prod.fst ++ k :: ((blocks after).map Prod.fst ++
      rest.map Prod.fst) = committed before ++ committed ((k, act) :: after) := by
    rw [← committed_append, ← hlog.order, List.map_append, Belongs.fst hfirst, hblocks]
    simp
  -- the command has run one script more than it has appended blocks
  have hscripts : ((committed before).filter fun j => j = k).length = earlier.length + 1 := by
    have hown := congrArg List.length (hlog'.own k)
    rw [hcommits, List.length_map, List.length_append, List.length_singleton] at hown
    rw [← hown, ← hlog'.order, List.filter_map, List.length_map]
    rfl
  have hwritten : (((blocks before).map Prod.fst).filter fun j => j = k).length =
      earlier.length := by
    have hown := congrArg List.length (blocks_own before k)
    rw [List.length_map, ← hearlier.length_eq] at hown
    rw [← hown, List.filter_map, List.length_map]
    rfl
  unfold Due
  rcases List.append_eq_append_iff.mp horder with ⟨more, hmore, hrest⟩ | ⟨more, hmore, hrest⟩
  · cases more with
    | nil =>
      rw [hmore, List.append_nil, hwritten] at hscripts
      omega
    | cons j more =>
      obtain rfl : k = j := (List.cons.inj hrest).1
      rw [hmore, List.getElem?_append_right (by simp)]
      simp
  · rw [hmore, List.filter_append, List.length_append] at hwritten
    omega

/-- The commands at their start. -/
def startedCommands (json : StateCodec τ) (inputs : κ → ExecuteGameIntentCommand)
    (start : Stores τ) : Config κ (Stores τ) (Op τ) (Ans τ) ServiceError Reply :=
  started json (fun k => .executeIntent (inputs k)) start

variable [DecidableEq τ] {start : Stores τ} {sched : List (κ × Ambient)}
  {c' : Config κ (Stores τ) (Op τ) (Ans τ) ServiceError Reply}

theorem exists_commitLog (h : Interleaved exec (startedCommands json inputs start) sched acts c') :
    ∃ log, CommitLog acts log ∧ (InTurn acts → InCommitOrder json inputs log acts) := by
  refine interleaved_invariant (fun k => AppendsNext json (updaterOf inputs k))
    (fun k past _ => Appended json (updaterOf inputs k) past)
    (fun _ acts => ∃ log, CommitLog acts log ∧ (InTurn acts → InCommitOrder json inputs log acts))
    ?_ h (fun k => appends_run json (inputs k)) ?_
  · rintro stores acts k o g ⟨log, hlog, horder⟩ hmay
    cases hcommit : isCommit (⟨o, (exec stores o g).2⟩ : Act (Op τ) (Ans τ)) with
    | true =>
      rcases exec_redis stores o g with ⟨text, next, hact, _, _⟩ | ⟨value, rfl, _⟩ | ⟨hquiet, _⟩
      · obtain rfl : o = .eval text next := congrArg Sigma.fst hact
        obtain ⟨_, ambient, hstage⟩ := hmay.script text next rfl
        rw [hact]
        refine ⟨_, hlog.commit hstage text next, fun hturn => ?_⟩
        obtain ⟨first, rest, rfl, hfirst⟩ := horder hturn.left
        refine ⟨first, rest ++ [_], List.append_assoc .., ?_⟩
        rw [blocks_append]
        exact (List.append_nil (blocks acts)).symm ▸ hfirst
      · cases hcommit
      · cases hquiet.symm.trans hcommit
    | false =>
      refine ⟨log, hlog.quiet hcommit, fun hturn => ?_⟩
      cases happend : append? o with
      | none =>
        obtain ⟨first, rest, rfl, hfirst⟩ := horder hturn.left
        refine ⟨first, rest, rfl, ?_⟩
        rw [blocks_append, happend]
        exact (List.append_nil (blocks acts)).symm ▸ hfirst
      | some events =>
        obtain rfl : o = .appendEvents events := by
          cases o with
          | appendEvents appended =>
            cases happend
            rfl
          | _ => cases happend
        have hdue : Due acts k := hturn acts k _ [] rfl rfl
        exact (horder hturn.left).append hlog (hmay.append events rfl) hdue _
  · refine ⟨[], ⟨rfl, fun _ => rfl⟩, fun _ => ⟨[], [], rfl, .nil⟩⟩

/-- Every append succeeds. -/
def AppendsSucceed (acts : List (κ × Act (Op τ) (Ans τ))) : Prop :=
  ∀ k events error, (k, ⟨.appendEvents events, .error error⟩) ∉ acts

theorem eventLog_world (h : Interleaved exec (startedCommands json inputs start) sched acts c')
    (hsucceed : AppendsSucceed acts) :
    c'.world.eventLog = start.eventLog ++ (blocks acts).flatMap Prod.snd := by
  refine interleaved_invariant (fun k => AppendsNext json (updaterOf inputs k))
    (fun k past _ => Appended json (updaterOf inputs k) past)
    (fun stores acts => AppendsSucceed acts →
      stores.eventLog = start.eventLog ++ (blocks acts).flatMap Prod.snd)
    ?_ h (fun k => appends_run json (inputs k)) ?_ hsucceed
  · intro stores acts k o g ih _ hsucceed
    have hbefore := ih fun j events error hmem =>
      hsucceed j events error (List.mem_append_left _ hmem)
    rw [blocks_append, List.flatMap_append, ← List.append_assoc, ← hbefore]
    cases o with
    | appendEvents events =>
      cases hfailure : g.failure with
      | none => simp [exec, unlessFailing, hfailure, append?]
      | some error =>
        refine absurd ?_ (hsucceed k events error)
        simp [exec, unlessFailing, hfailure]
    | get | set | eval | ambient => simp [exec, append?]
    | findLatestByGameId | createSnapshot | finalizeFinishedGame =>
      unfold exec unlessFailing
      cases g.failure <;> simp [append?]
  · intro _
    simp [blocks, startedCommands, started]

/-! ## The table -/

section Table

variable {γ : Type} [DecidableEq γ]

/-- The blocks are written one after the other, at any times, while other games write as well. -/
inductive Written (eventType : GameEngineEvent → String) (gameId : γ)
    (table : List (GameEventLogRecord γ GameEngineEvent)) :
    List (κ × List GameEngineEvent) → List (GameEventLogRecord γ GameEngineEvent) → Prop
  | start : Written eventType gameId table [] table
  | block {bs : List (κ × List GameEngineEvent)}
      {table' : List (GameEventLogRecord γ GameEngineEvent)} (k : κ)
      (events : List GameEngineEvent) (now : Nat) (h : Written eventType gameId table bs table') :
      Written eventType gameId table (bs ++ [(k, events)])
        (appendEvents eventType table' gameId events now)
  | other {bs : List (κ × List GameEngineEvent)}
      {table' : List (GameEventLogRecord γ GameEngineEvent)} {game : γ} (hne : game ≠ gameId)
      (events : List GameEngineEvent) (now : Nat) (h : Written eventType gameId table bs table') :
      Written eventType gameId table bs (appendEvents eventType table' game events now)

variable {eventType : GameEngineEvent → String} {gameId : γ} {n : Nat}
  {table table' : List (GameEventLogRecord γ GameEngineEvent)}
  {bs : List (κ × List GameEngineEvent)}

omit [DecidableEq γ] in
theorem appendedRows_payloads (events : List GameEngineEvent) (now : Nat) :
    (appendedRows eventType gameId n events now).map GameEventLogRecord.payload = events := by
  unfold appendedRows
  rw [List.map_map]
  exact List.zipIdx_map_fst 0 events

omit [DecidableEq κ] in
/-- The log goes on with the blocks, and its numbers go on without a gap. -/
theorem Written.eventLog (hn : Numbered table gameId n)
    (h : Written (κ := κ) eventType gameId table bs table') :
    Numbered table' gameId (n + (bs.flatMap Prod.snd).length) ∧
      (Rules.eventLog table' gameId).map GameEventLogRecord.payload =
        (Rules.eventLog table gameId).map GameEventLogRecord.payload ++ bs.flatMap Prod.snd := by
  induction h with
  | start => simpa using hn
  | block k events now _ ih =>
    obtain ⟨hnumbered, hpayloads⟩ := ih
    rw [List.flatMap_append, List.flatMap_singleton, List.length_append, ← Nat.add_assoc]
    refine ⟨(eventLog_appendEvents hnumbered).1, ?_⟩
    rw [(eventLog_appendEvents hnumbered).2, List.map_append, hpayloads, appendedRows_payloads,
      List.append_assoc]
  | other hne events now _ ih =>
    obtain ⟨hnumbered, hpayloads⟩ := ih
    refine ⟨?_, ?_⟩
    · unfold Numbered
      rw [filter_appendEvents_other hne]
      exact hnumbered
    · rw [eventLog_appendEvents_other hne]
      exact hpayloads

/-- What the commands leave in the log of their game. -/
structure Recorded (json : StateCodec τ) (inputs : κ → ExecuteGameIntentCommand)
    (log : List (κ × Attempt τ)) (acts : List (κ × Act (Op τ) (Ans τ)))
    (c' : Config κ (Stores τ) (Op τ) (Ans τ) ServiceError Reply) (gameId : γ)
    (table table' : List (GameEventLogRecord γ GameEngineEvent)) : Prop where
  /-- The sequences are 1, 2, 3 and so on. -/
  sequences : (Rules.eventLog table' gameId).map GameEventLogRecord.sequence =
    List.range' 1 (Rules.eventLog table' gameId).length
  /-- Behind what was there lies one block after the other. -/
  payloads : (Rules.eventLog table' gameId).map GameEventLogRecord.payload =
    (Rules.eventLog table gameId).map GameEventLogRecord.payload ++
      (blocks acts).flatMap Prod.snd
  stored : (Rules.eventLog table' gameId).map GameEventLogRecord.payload = c'.world.eventLog
  /-- A command that has ended has appended the events of each of its scripts. -/
  complete : ∀ k, (∀ o next, c'.procs k ≠ .op o next) →
    Appended json (updaterOf inputs k) (doneBy k acts)
  /-- The blocks lie in the order of the scripts exactly if no command overtakes another one. -/
  order : InCommitOrder json inputs log acts ↔ InTurn acts

/-- For every interleaving of commands in which every append succeeds. -/
theorem eventBlocks_commitOrder_iff
    (h : Interleaved exec (startedCommands json inputs start) sched acts c')
    (hsucceed : AppendsSucceed acts) (hn : Numbered table gameId n)
    (hstart : (Rules.eventLog table gameId).map GameEventLogRecord.payload = start.eventLog)
    (hwritten : Written eventType gameId table (blocks acts) table') :
    ∃ log, CommitLog acts log ∧ Recorded json inputs log acts c' gameId table table' := by
  obtain ⟨log, hlog, horder⟩ := exists_commitLog h
  obtain ⟨hnumbered, hpayloads⟩ := hwritten.eventLog hn
  have hkeeps := interleaved_keeps (fun k => AppendsNext json (updaterOf inputs k))
    (fun k past _ => Appended json (updaterOf inputs k) past) h
    fun k => appends_run json (inputs k)
  refine ⟨log, hlog, ?_, hpayloads, ?_, ?_, ?_, horder⟩
  · rw [eventLog_length hnumbered]
    exact eventLog_sequences hnumbered
  · rw [hpayloads, hstart, eventLog_world h hsucceed]
  · intro k hended
    have hpost := hkeeps k
    cases hproc : c'.procs k with
    | ret reply =>
      rw [hproc] at hpost
      exact hpost
    | fail error =>
      rw [hproc] at hpost
      exact hpost
    | op o next => exact absurd hproc (hended o next)
  · rintro hinorder before k ⟨o, answer⟩ after rfl happend
    obtain ⟨events, happend⟩ := Option.isSome_iff_exists.mp happend
    obtain ⟨sched₁, i, mid, mid', hbefore, _⟩ := interleaved_split h rfl
    obtain ⟨log', hlog', _⟩ := exists_commitLog hbefore
    have hmay : AppendsNext json (updaterOf inputs k) (doneBy k before) o :=
      interleaved_may (fun k => AppendsNext json (updaterOf inputs k))
        (fun k past _ => Appended json (updaterOf inputs k) past) h
        (fun k => appends_run json (inputs k)) rfl
    have ho : o = .appendEvents events := by
      cases o with
      | appendEvents appended =>
        cases happend
        rfl
      | _ => cases happend
    exact hinorder.due hlog hlog' happend (hmay.append events ho)

end Table

end Interleavings

/-! ## Two commands -/

section Games

/-- The first player rolls and buys the tile it comes to. -/
def rollAndBuy : Bool → ExecuteGameIntentCommand
  | false => {
      roomPlayerId := some ⟨1⟩, intent := .rollAndMove ⟨1⟩ [.int 1, .int 2], source := none }
  | true => { roomPlayerId := some ⟨1⟩, intent := .buyProperty ⟨1⟩, source := none }

def isFailedAppend : Act (Op τ) (Ans τ) → Bool
  | ⟨.appendEvents _, .error _⟩ => true
  | _ => false

theorem appendsSucceed_of_test {acts : List (κ × Act (Op τ) (Ans τ))}
    (h : (acts.all fun act => !isFailedAppend act.2) = true) : AppendsSucceed acts := by
  intro k events error hmem
  cases List.all_eq_true.mp h _ hmem

/-- Every append is that of the command that is due. -/
def appendsInTurn [DecidableEq κ] (acts : List (κ × Act (Op τ) (Ans τ))) : Bool :=
  (List.range acts.length).all fun i => (acts[i]?).all fun act =>
    (append? act.2.1).isNone ||
      (committed (acts.take i))[(blocks (acts.take i)).length]? = some act.1

theorem inTurn_of_test [DecidableEq κ] {acts : List (κ × Act (Op τ) (Ans τ))}
    (h : appendsInTurn acts = true) : InTurn acts := by
  rintro before k act after rfl happend
  have htest := List.all_eq_true.mp h before.length (List.mem_range.mpr (by simp))
  rw [List.getElem?_append_right (le_refl _), Nat.sub_self, List.getElem?_cons_zero,
    Option.all_some, List.take_left] at htest
  rcases Bool.or_eq_true_iff.mp htest with hnone | hdue
  · rw [Option.isNone_iff_eq_none.mp hnone] at happend
    cases happend
  · unfold Due
    exact of_decide_eq_true hdue

theorem exists_written {γ : Type} [DecidableEq γ] (eventType : GameEngineEvent → String)
    (gameId : γ) (table : List (GameEventLogRecord γ GameEngineEvent))
    (bs : List (κ × List GameEngineEvent)) :
    ∃ table', Written eventType gameId table bs table' := by
  induction bs using List.reverseRecOn with
  | nil => exact ⟨table, .start⟩
  | append_singleton bs block ih =>
    obtain ⟨table', h⟩ := ih
    exact ⟨_, .block block.1 block.2 0 h⟩

/-- The first player has rolled, and its events are in the log before it buys. -/
theorem rollAndBuy_inOrder : ∃ sched acts c' log table',
    Interleaved exec (startedCommands plainTexts rollAndBuy (freshStores threePlayers)) sched acts
      c' ∧
    committed acts = [false, true] ∧ (blocks acts).map Prod.fst = [false, true] ∧
    CommitLog acts log ∧ InTurn acts ∧
    Recorded plainTexts rollAndBuy log acts c' "game" [] table' := by
  obtain ⟨⟨c', acts⟩, hplay, htest⟩ := (Option.any_eq_true _ _).mp (by decide +kernel :
    (Process.play exec (startedCommands plainTexts rollAndBuy (freshStores threePlayers))
      ([false, false, false, false, true, true, true, true].map
        fun k => (k, atFirst))).any (fun last =>
          last.2.all (fun act => !isFailedAppend act.2) && (appendsInTurn last.2 &&
            (committed last.2 = [false, true] ∧
              (blocks last.2).map Prod.fst = [false, true]))) = true)
  obtain ⟨hsucceed, hrest⟩ := Bool.and_eq_true_iff.mp htest
  obtain ⟨hturn, horders⟩ := Bool.and_eq_true_iff.mp hrest
  obtain ⟨hcommitted, hblocks⟩ := of_decide_eq_true horders
  have hrun := play_interleaved hplay
  obtain ⟨table', hwritten⟩ := exists_written (fun _ => "event") "game" [] (blocks acts)
  have hnone : Numbered ([] : List (GameEventLogRecord String GameEngineEvent)) "game" 0 := .refl _
  obtain ⟨log, hlog, hrecorded⟩ := eventBlocks_commitOrder_iff hrun
    (appendsSucceed_of_test hsucceed) hnone rfl hwritten
  exact ⟨_, acts, c', log, table', hrun, hcommitted, hblocks, hlog, inTurn_of_test hturn,
    hrecorded⟩

/-- The second command buys and appends between the script of the first one and its append. -/
theorem rollAndBuy_overtaken : ∃ sched acts c',
    Interleaved exec (startedCommands plainTexts rollAndBuy (freshStores threePlayers)) sched acts
      c' ∧
    AppendsSucceed acts ∧ committed acts = [false, true] ∧
    (blocks acts).map Prod.fst = [true, false] ∧
    ∀ log, CommitLog acts log → ¬ InCommitOrder plainTexts rollAndBuy log acts := by
  obtain ⟨⟨c', acts⟩, hplay, htest⟩ := (Option.any_eq_true _ _).mp (by decide +kernel :
    (Process.play exec (startedCommands plainTexts rollAndBuy (freshStores threePlayers))
      ([false, false, false, true, true, true, true, false].map
        fun k => (k, atFirst))).any (fun last =>
          last.2.all (fun act => !isFailedAppend act.2) &&
            (committed last.2 = [false, true] ∧
              (blocks last.2).map Prod.fst = [true, false])) = true)
  obtain ⟨hsucceed, horders⟩ := Bool.and_eq_true_iff.mp htest
  obtain ⟨hcommitted, hblocks⟩ := of_decide_eq_true horders
  refine ⟨_, acts, c', play_interleaved hplay, appendsSucceed_of_test hsucceed, hcommitted,
    hblocks, ?_⟩
  rintro log hlog ⟨first, rest, rfl, hfirst⟩
  have horder := hlog.order
  rw [hcommitted, List.map_append, Belongs.fst hfirst, hblocks] at horder
  cases horder

end Games

end Rules
end LivePoly
