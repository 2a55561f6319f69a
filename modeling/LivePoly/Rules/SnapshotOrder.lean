import LivePoly.Rules.EventOrder
import LivePoly.Rules.MissedTurns

/-!
# Rules.SnapshotOrder

A command writes its snapshot after its script has succeeded, in the row for its type and turn. The
latest row is of the last committed state when no command commits before those that committed
earlier have written theirs; otherwise a slow command writes its state over a later one.
-/

namespace LivePoly
namespace Rules

open Engine Service Process

variable {τ κ : Type}

/-! ## Rows -/

/-- The type of the snapshot a command leaves. -/
def snapshotTypeOf (s : GameEngineState) : GameSnapshotType :=
  if s.phase = .finished ∨ s.phase = .cancelled then .final else .turn

/-- All other rows are of earlier turns, or of this one and older. -/
def IsLatest (rows : List GameSnapshotRow) (row : GameSnapshotRow) : Prop :=
  row ∈ rows ∧ ∀ r ∈ rows, r = row ∨ r.turnNumber < row.turnNumber ∨
    r.turnNumber = row.turnNumber ∧ r.createdAt < row.createdAt

/-- A snapshot of the state would become the latest row. -/
structure AwaitsSnapshot (rows : List GameSnapshotRow) (s : GameEngineState) : Prop where
  keys : ∀ r ∈ rows, ∀ q ∈ rows, r.snapshotType = q.snapshotType → r.turnNumber = q.turnNumber →
    r = q
  turns : ∀ r ∈ rows, r.turnNumber ≤ s.turnNumber
  own : ∀ r ∈ rows, r.snapshotType = snapshotTypeOf s → r.turnNumber = s.turnNumber →
    ∀ q ∈ rows, q = r ∨ q.turnNumber < s.turnNumber ∨
      q.turnNumber = s.turnNumber ∧ q.createdAt < r.createdAt
  final : snapshotTypeOf s = .turn → ∀ r ∈ rows, r.snapshotType ≠ .final

/-- The latest row is of the state. -/
structure HoldsSnapshot (rows : List GameSnapshotRow) (s : GameEngineState) : Prop
    extends AwaitsSnapshot rows s where
  latest : ∃ row, IsLatest rows row ∧ row.state = s

/-- The second state comes after the first one in a game. -/
structure LaterInGame (s s' : GameEngineState) : Prop where
  turn : s.turnNumber ≤ s'.turnNumber
  goesOn : InProgress s' → InProgress s

section Rows

variable {rows : List GameSnapshotRow} {row : GameSnapshotRow} {s s' : GameEngineState} {now : Nat}

theorem snapshotTypeOf_turn : snapshotTypeOf s = .turn ↔ InProgress s := by
  unfold snapshotTypeOf InProgress
  by_cases h : s.phase = .finished ∨ s.phase = .cancelled
  · rw [if_pos h]
    exact iff_of_false (by decide) fun hp => h.elim hp.1 hp.2
  · rw [if_neg h]
    exact iff_of_true rfl (not_or.mp h)

theorem snapshotTypeOf_cases (s : GameEngineState) :
    snapshotTypeOf s = .turn ∨ snapshotTypeOf s = .final := by
  unfold snapshotTypeOf
  split
  · exact .inr rfl
  · exact .inl rfl

theorem IsLatest.found (h : IsLatest rows row) : findLatestByGameId rows = some row := by
  obtain ⟨hmem, hall⟩ := h
  let order : GameSnapshotRow → GameSnapshotRow → Prop := fun left right =>
    right.turnNumber < left.turnNumber ∨
      right.turnNumber = left.turnNumber ∧ right.createdAt ≤ left.createdAt
  have : Std.Total order := ⟨fun x y => by simp only [order]; omega⟩
  have : IsTrans GameSnapshotRow order := ⟨fun x y z => by simp only [order]; omega⟩
  have hsorted : (rows.insertionSort order).Pairwise order := List.pairwise_insertionSort order rows
  have hin : row ∈ rows.insertionSort order := (List.mem_insertionSort order).mpr hmem
  show (rows.insertionSort order).head? = some row
  cases hlist : rows.insertionSort order with
  | nil =>
    rw [hlist] at hin
    cases hin
  | cons first rest =>
    rw [hlist] at hsorted hin
    have hfirst : first ∈ rows := by
      refine (List.mem_insertionSort order).mp ?_
      rw [hlist]
      exact List.mem_cons_self
    rcases List.mem_cons.mp hin with rfl | hrest
    · rfl
    · have hbefore : order first row := (List.pairwise_cons.mp hsorted).1 row hrest
      rcases hall first hfirst with rfl | hearlier | ⟨hsame, holder⟩
      · rfl
      · simp only [order] at hbefore
        omega
      · simp only [order] at hbefore
        omega

/-- A later state waits for its snapshot where an earlier one had its own. -/
theorem AwaitsSnapshot.later (h : AwaitsSnapshot rows s) (hlater : LaterInGame s s') :
    AwaitsSnapshot rows s' where
  keys := h.keys
  turns r hr := (h.turns r hr).trans hlater.turn
  own r hr htype hturn q hq := by
    have hsame : s.turnNumber = s'.turnNumber :=
      le_antisymm hlater.turn (hturn ▸ h.turns r hr)
    rcases snapshotTypeOf_cases s with hgoing | hended
    · rcases snapshotTypeOf_cases s' with hgoing' | hended'
      · rw [← hsame]
        exact h.own r hr (htype.trans (hgoing'.trans hgoing.symm)) (hturn.trans hsame.symm) q hq
      · exact absurd (htype.trans hended') (h.final hgoing r hr)
    · have hended' : snapshotTypeOf s' = .final := by
        refine (snapshotTypeOf_cases s').resolve_left fun hgoing' => ?_
        have hgoing := snapshotTypeOf_turn.mpr (hlater.goesOn (snapshotTypeOf_turn.mp hgoing'))
        cases hgoing.symm.trans hended
      rw [← hsame]
      exact h.own r hr (htype.trans (hended'.trans hended.symm)) (hturn.trans hsame.symm) q hq
  final hgoing := h.final (snapshotTypeOf_turn.mpr (hlater.goesOn (snapshotTypeOf_turn.mp hgoing)))

/-- What `createSnapshot` does to a row when there is one for the type and turn. -/
def putSnapshot (s : GameEngineState) (row : GameSnapshotRow) : GameSnapshotRow :=
  if row.snapshotType = snapshotTypeOf s ∧ row.turnNumber = s.turnNumber then
    { row with state := s }
  else row

theorem putSnapshot_type (s : GameEngineState) (row : GameSnapshotRow) :
    (putSnapshot s row).snapshotType = row.snapshotType := by
  unfold putSnapshot
  split <;> rfl

theorem putSnapshot_turn (s : GameEngineState) (row : GameSnapshotRow) :
    (putSnapshot s row).turnNumber = row.turnNumber := by
  unfold putSnapshot
  split <;> rfl

theorem putSnapshot_time (s : GameEngineState) (row : GameSnapshotRow) :
    (putSnapshot s row).createdAt = row.createdAt := by
  unfold putSnapshot
  split <;> rfl

theorem AwaitsSnapshot.rewritten (h : AwaitsSnapshot rows s) {found : GameSnapshotRow}
    (hfound : found ∈ rows) (htype : found.snapshotType = snapshotTypeOf s)
    (hturn : found.turnNumber = s.turnNumber) :
    HoldsSnapshot (rows.map (putSnapshot s)) s := by
  refine ⟨⟨?_, ?_, ?_, ?_⟩, putSnapshot s found, ⟨List.mem_map_of_mem hfound, ?_⟩,
    congrArg GameSnapshotRow.state (if_pos ⟨htype, hturn⟩)⟩
  · intro r hr q hq hsameType hsameTurn
    obtain ⟨a, ha, rfl⟩ := List.mem_map.mp hr
    obtain ⟨b, hb, rfl⟩ := List.mem_map.mp hq
    have hsame : a = b := h.keys a ha b hb
      ((putSnapshot_type s a).symm.trans (hsameType.trans (putSnapshot_type s b)))
      ((putSnapshot_turn s a).symm.trans (hsameTurn.trans (putSnapshot_turn s b)))
    rw [hsame]
  · intro r hr
    obtain ⟨a, ha, rfl⟩ := List.mem_map.mp hr
    exact (putSnapshot_turn s a).le.trans (h.turns a ha)
  · intro r hr hrType hrTurn q hq
    obtain ⟨a, ha, rfl⟩ := List.mem_map.mp hr
    obtain ⟨b, hb, rfl⟩ := List.mem_map.mp hq
    have hown := h.own a ha ((putSnapshot_type s a).symm.trans hrType)
      ((putSnapshot_turn s a).symm.trans hrTurn) b hb
    change putSnapshot s b = putSnapshot s a ∨ (putSnapshot s b).turnNumber < _ ∨
      (putSnapshot s b).turnNumber = _ ∧
        (putSnapshot s b).createdAt < (putSnapshot s a).createdAt
    rw [putSnapshot_turn, putSnapshot_time, putSnapshot_time]
    exact hown.imp_left (congrArg (putSnapshot s))
  · intro hgoing r hr
    obtain ⟨a, ha, rfl⟩ := List.mem_map.mp hr
    exact fun hfinal => h.final hgoing a ha ((putSnapshot_type s a).symm.trans hfinal)
  · intro q hq
    obtain ⟨b, hb, rfl⟩ := List.mem_map.mp hq
    rw [putSnapshot_turn, putSnapshot_turn, putSnapshot_time, putSnapshot_time, hturn]
    exact (h.own found hfound htype hturn b hb).imp_left (congrArg (putSnapshot s))

theorem AwaitsSnapshot.added (h : AwaitsSnapshot rows s)
    (hfree : ∀ r ∈ rows, r.snapshotType = snapshotTypeOf s → r.turnNumber ≠ s.turnNumber)
    (hnow : ∀ r ∈ rows, r.createdAt < now) :
    HoldsSnapshot (rows ++ [⟨snapshotTypeOf s, s.turnNumber, s, now⟩]) s := by
  have hbelow : ∀ r ∈ rows, r.turnNumber < s.turnNumber ∨
      r.turnNumber = s.turnNumber ∧ r.createdAt < now := by
    intro r hr
    rcases (h.turns r hr).lt_or_eq with hlt | heq
    · exact .inl hlt
    · exact .inr ⟨heq, hnow r hr⟩
  refine ⟨⟨?_, ?_, ?_, ?_⟩, ⟨snapshotTypeOf s, s.turnNumber, s, now⟩, ⟨?_, ?_⟩, rfl⟩
  · intro r hr q hq hsameType hsameTurn
    rcases List.mem_append.mp hr with hr | hr
    · rcases List.mem_append.mp hq with hq | hq
      · exact h.keys r hr q hq hsameType hsameTurn
      · cases List.mem_singleton.mp hq
        exact absurd hsameTurn (hfree r hr hsameType)
    · cases List.mem_singleton.mp hr
      rcases List.mem_append.mp hq with hq | hq
      · exact absurd hsameTurn.symm (hfree q hq hsameType.symm)
      · exact (List.mem_singleton.mp hq).symm
  · intro r hr
    rcases List.mem_append.mp hr with hr | hr
    · exact h.turns r hr
    · cases List.mem_singleton.mp hr
      exact le_refl _
  · intro r hr htype hturn q hq
    rcases List.mem_append.mp hr with hr | hr
    · exact absurd hturn (hfree r hr htype)
    · cases List.mem_singleton.mp hr
      rcases List.mem_append.mp hq with hq | hq
      · exact .inr (hbelow q hq)
      · exact .inl (List.mem_singleton.mp hq)
  · intro hgoing r hr
    rcases List.mem_append.mp hr with hr | hr
    · exact h.final hgoing r hr
    · cases List.mem_singleton.mp hr
      change snapshotTypeOf s ≠ .final
      rw [hgoing]
      decide
  · exact List.mem_append_right _ (List.mem_singleton.mpr rfl)
  · intro q hq
    rcases List.mem_append.mp hq with hq | hq
    · exact .inr (hbelow q hq)
    · exact .inl (List.mem_singleton.mp hq)

theorem AwaitsSnapshot.written (h : AwaitsSnapshot rows s)
    (hnow : ∀ r ∈ rows, r.createdAt < now) :
    HoldsSnapshot (createSnapshot rows (snapshotTypeOf s) s now) s := by
  unfold createSnapshot
  split
  · rename_i hany
    obtain ⟨found, hfound, hkey⟩ := List.any_eq_true.mp hany
    obtain ⟨htype, hturn⟩ := Bool.and_eq_true_iff.mp hkey
    exact h.rewritten hfound (of_decide_eq_true htype) (of_decide_eq_true hturn)
  · rename_i hnone
    refine h.added ?_ hnow
    intro r hr htype hturn
    refine hnone (List.any_eq_true.mpr ⟨r, hr, ?_⟩)
    rw [decide_eq_true htype, decide_eq_true hturn]
    rfl

/-- What a command makes of a state comes later in the game. -/
theorem updated_later {input : ExecuteGameIntentCommand} {ambient : Ambient}
    {result : GameCommandResult} (hv : Valid s) (hs : Seated s)
    (h : GameCommandsService.updater input ambient s = .ok (s', result)) : LaterInGame s s' := by
  obtain ⟨r, hr, hs', _⟩ := updater_eq_ok.mp h
  obtain ⟨hnumber, _, hphase⟩ := turn_of_core (updated_core hs')
  constructor
  · rw [hnumber]
    exact (accepted_turnMove hv hs hr).turn_le
  · intro hp
    refine accepted_wasInProgress hv hr ?_
    unfold InProgress at hp ⊢
    rwa [hphase] at hp

end Rows

/-! ## The snapshots of one command -/

def snapshot? : Op τ → Option (GameSnapshotType × GameEngineState)
  | .createSnapshot snapshotType state => some (snapshotType, state)
  | .finalizeFinishedGame state _ => some (.final, state)
  | _ => none

/-- What a command writes of the state it has stored. -/
def snapshotsOf (s : GameEngineState) : List (GameSnapshotType × GameEngineState) :=
  (snapshotTypeOf s, s) :: if s.phase = .finished then [(.final, s)] else []

/-- What is still to be written, after one more operation. -/
def owedAfter (json : StateCodec τ) (owed : List (GameSnapshotType × GameEngineState)) :
    Act (Op τ) (Ans τ) → List (GameSnapshotType × GameEngineState)
  | ⟨.eval _ next, result⟩ =>
    if hasWritten result then ((json.parse next).map snapshotsOf).getD [] else owed
  | ⟨.createSnapshot _ _, _⟩ => owed.tail
  | ⟨.finalizeFinishedGame _ _, _⟩ => owed.tail
  | _ => owed

/-- The snapshots a command has still to write for its last script. -/
def owedSnapshots (json : StateCodec τ) (past : List (Act (Op τ) (Ans τ))) :
    List (GameSnapshotType × GameEngineState) :=
  past.foldl (owedAfter json) []

/-- A command writes what it owes, and owes nothing when it runs a script. -/
structure SnapshotsNext (json : StateCodec τ) (updater : Updater)
    (past : List (Act (Op τ) (Ans τ))) (o : Op τ) : Prop where
  write : ∀ written, snapshot? o = some written → (owedSnapshots json past).head? = some written
  script : ∀ text next, o = .eval text next → owedSnapshots json past = [] ∧
    Attempting json updater (progress past) text next

section OneCall

variable {json : StateCodec τ} {updater : Updater} {past : List (Act (Op τ) (Ans τ))}
  {input : ExecuteGameIntentCommand}

theorem owedSnapshots_append (past : List (Act (Op τ) (Ans τ))) (act : Act (Op τ) (Ans τ)) :
    owedSnapshots json (past ++ [act]) = owedAfter json (owedSnapshots json past) act := by
  unfold owedSnapshots
  rw [List.foldl_append]
  rfl

theorem snapshotsNext_quiet {o : Op τ} (hnone : snapshot? o = none) (hscript : isScript o = false) :
    SnapshotsNext json updater past o := by
  constructor
  · intro written hwritten
    cases hnone.symm.trans hwritten
  · rintro text next rfl
    cases hscript

/-- How an update ends: the snapshots of its result are to be written. -/
def UpdateOwesSnapshots (json : StateCodec τ) (past : List (Act (Op τ) (Ans τ))) :
    Except ServiceError (GameEngineState × Option GameCommandResult) → Prop
  | .ok (_, captured) => ∃ result, captured = some result ∧
    owedSnapshots json past = snapshotsOf result.state
  | .error _ => owedSnapshots json past = []

theorem snapshots_update (maxAttempts : Nat) (h : owedSnapshots json past = []) :
    Abides (SnapshotsNext json (Command.executeIntent input).updater) (UpdateOwesSnapshots json)
      past (GameStateService.update json maxAttempts (GameCommandsService.updater input)) := by
  have hready : ∀ past text ambient, owedSnapshots json past = [] →
      owedSnapshots json (past ++ [⟨.get, some text⟩] ++ [⟨.ambient, ambient⟩]) = [] := by
    intro past text ambient hI
    rw [owedSnapshots_append, owedSnapshots_append]
    exact hI
  have hupdater : ∀ ambient state state' result,
      GameCommandsService.updater input ambient state = .ok (state', result) →
      (Command.executeIntent input).updater ambient state = .ok (state', .executed result) := by
    intro ambient state state' result hupdate
    show (GameCommandsService.updater input ambient state).map _ = _
    rw [hupdate]
    rfl
  refine keeps_updateLoop (I := fun past => owedSnapshots json past = [])
    ?_ ?_ ?_ ?_ ?_ ?_ ?_ ?_ (fun _ _ hI => hI) maxAttempts none h
  · exact fun past hI => snapshotsNext_quiet rfl rfl
  · intro past error hI
    exact (owedSnapshots_append ..).trans hI
  · intro past text error hI _
    exact (owedSnapshots_append ..).trans hI
  · exact fun past text hI => snapshotsNext_quiet rfl rfl
  · exact fun past text ambient state error hI _ _ => hready past text ambient hI
  · intro past text ambient state state' result hI hparse hupdate
    constructor
    · rintro written ⟨⟩
    · rintro _ _ ⟨⟩
      refine ⟨hready past text ambient hI, ambient, state, state', .executed result, ?_, hparse,
        hupdater _ _ _ _ hupdate, rfl⟩
      rw [progress_ready]
  · intro past text ambient state state' result hI hparse hupdate
    obtain ⟨r, _, _, rfl⟩ := updater_eq_ok.mp hupdate
    refine ⟨_, rfl, ?_⟩
    rw [owedSnapshots_append]
    show ((json.parse (json.stringify state')).map snapshotsOf).getD [] = _
    rw [json.parse_stringify]
    rfl
  · intro past text ambient next result hI hwritten
    rw [owedSnapshots_append]
    show (if hasWritten result then _ else _) = _
    rw [hwritten]
    exact hready past text ambient hI

theorem snapshots_query {o : Op τ} {α : Type} {answer : Ans τ o → Except ServiceError α}
    {written : GameSnapshotType × GameEngineState}
    {rest : List (GameSnapshotType × GameEngineState)} (ho : snapshot? o = some written)
    (h : owedSnapshots json past = written :: rest) :
    Abides (SnapshotsNext json updater) (fun past _ => owedSnapshots json past = rest) past
      (query o answer) := by
  refine keeps_query ⟨?_, ?_⟩ fun a => ?_
  · intro written' hwritten
    rw [h, ← hwritten, ho]
    rfl
  · rintro text next rfl
    cases ho
  · rw [owedSnapshots_append, h]
    cases o with
    | createSnapshot | finalizeFinishedGame => rfl
    | _ => cases ho

theorem snapshots_afterSuccessfulCommand (result : GameCommandResult)
    (h : owedSnapshots json past = snapshotsOf result.state) :
    Abides (SnapshotsNext json updater) (fun past _ => owedSnapshots json past = []) past
      (GameCommandsService.afterSuccessfulCommand result) := by
  unfold GameCommandsService.afterSuccessfulCommand
  refine keeps_bind _ (keeps_try
    (I := fun past => owedSnapshots json past = snapshotsOf result.state) ?_) ?_
    fun past _ hlog => ?_
  · refine keeps_query (snapshotsNext_quiet rfl rfl) fun a => ?_
    exact (owedSnapshots_append ..).trans h
  · rintro past error ⟨_, ⟨⟩⟩
  refine keeps_bind _ (keeps_try (I := fun past => owedSnapshots json past =
    if result.state.phase = .finished then [(.final, result.state)] else []) ?_) ?_
    fun past _ hsnap => ?_
  · unfold GameSnapshotService.createSnapshotAfterCommand
    by_cases hended : result.state.phase = .finished ∨ result.state.phase = .cancelled
    · rw [if_pos hended]
      have hfinal : snapshotTypeOf result.state = .final := if_pos hended
      have howed : owedSnapshots json past = (.final, result.state) ::
          if result.state.phase = .finished then [(.final, result.state)] else [] := by
        rw [hlog.1, snapshotsOf, hfinal]
      exact snapshots_query rfl howed
    · have hturn : snapshotTypeOf result.state = .turn := if_neg hended
      have hdue : ¬ result.state.turnNumber % GameSnapshotService.everyNTurns ≠ 0 :=
        not_not.mpr (Nat.mod_one _)
      rw [if_neg hended, if_neg hdue]
      have howed : owedSnapshots json past = (.turn, result.state) ::
          if result.state.phase = .finished then [(.final, result.state)] else [] := by
        rw [hlog.1, snapshotsOf, hturn]
      exact snapshots_query rfl howed
  · rintro past error ⟨_, ⟨⟩⟩
  by_cases hfinished : result.state.phase = .finished
  · rw [if_pos hfinished]
    have howed : owedSnapshots json past = [(.final, result.state)] := by
      rw [hsnap.1, if_pos hfinished]
    exact snapshots_query rfl howed
  · rw [if_neg hfinished]
    refine keeps_pure ?_
    rw [hsnap.1, if_neg hfinished]

theorem snapshots_executeOnce (h : owedSnapshots json past = []) :
    Abides (SnapshotsNext json (Command.executeIntent input).updater)
      (fun past _ => owedSnapshots json past = []) past
      (GameCommandsService.executeOnce json input) := by
  unfold GameCommandsService.executeOnce
  refine keeps_bind _ (snapshots_update _ h) (fun _ _ hI => hI) ?_
  rintro past ⟨state, captured⟩ ⟨result, rfl, howes⟩
  exact keeps_bind _ (snapshots_afterSuccessfulCommand _ howes) (fun _ _ hI => hI)
    fun _ _ hI => keeps_pure hI

theorem snapshots_recoverOrThrow (h : owedSnapshots json past = []) :
    Abides (SnapshotsNext json updater) (fun past _ => owedSnapshots json past = []) past
      (GameRecoveryService.recoverOrThrow json) := by
  refine keeps_bind (fun past _ => owedSnapshots json past = []) ?_ (fun _ _ hI => hI) ?_
  · have hfound : ∀ answer,
        owedSnapshots json (past ++ [⟨.findLatestByGameId, answer⟩]) = [] :=
      fun answer => (owedSnapshots_append ..).trans h
    exact keeps_restoreLatestSnapshot (snapshotsNext_quiet rfl rfl) (fun _ => hfound _) (hfound _)
      (fun _ => snapshotsNext_quiet rfl rfl)
      fun _ => (owedSnapshots_append ..).trans (hfound _)
  · intro past state hI
    cases state with
    | none => exact keeps_throw hI
    | some state => exact keeps_pure hI

theorem snapshots_executeIntentWithRecovery (recoveries : Nat)
    (h : owedSnapshots json past = []) :
    Abides (SnapshotsNext json (Command.executeIntent input).updater)
      (fun past _ => owedSnapshots json past = []) past
      (GameCommandsService.executeIntentWithRecovery json input recoveries) := by
  induction recoveries generalizing past with
  | zero =>
    exact keeps_handle _ (snapshots_executeOnce h) (fun _ _ hI => hI) fun _ _ hI => keeps_throw hI
  | succ recoveries ih =>
    refine keeps_handle _ (snapshots_executeOnce h) (fun _ _ hI => hI) fun past error hI => ?_
    by_cases hmissing : error = .notFound
    · rw [if_pos hmissing]
      exact keeps_bind _ (snapshots_recoverOrThrow hI) (fun _ _ hI => hI) fun _ _ hI => ih hI
    · rw [if_neg hmissing]
      exact keeps_throw hI

/-- After its scripts a command writes their snapshots, and it ends when it owes none. -/
theorem snapshots_run (json : StateCodec τ) (input : ExecuteGameIntentCommand) :
    Abides (SnapshotsNext json (Command.executeIntent input).updater)
      (fun past _ => owedSnapshots json past = []) [] ((Command.executeIntent input).run json) := by
  refine keeps_bind (fun past _ => owedSnapshots json past = []) ?_ (fun _ _ hI => hI)
    fun _ _ hI => keeps_pure hI
  exact keeps_bind (fun past _ => owedSnapshots json past = []) (keeps_lift rfl)
    (fun _ _ hI => hI) fun _ _ hI => snapshots_executeIntentWithRecovery 1 hI

end OneCall

/-! ## All commands -/

section Interleavings

variable [DecidableEq τ] [DecidableEq κ] {json : StateCodec τ}
  {inputs : κ → ExecuteGameIntentCommand} {start : Stores τ} {sched : List (κ × Ambient)}
  {acts : List (κ × Act (Op τ) (Ans τ))}
  {c' : Config κ (Stores τ) (Op τ) (Ans τ) ServiceError Reply}

omit [DecidableEq τ] in
/-- Every command has written the snapshots of its scripts. -/
def AllSaved (json : StateCodec τ) (acts : List (κ × Act (Op τ) (Ans τ))) : Prop :=
  ∀ k, owedSnapshots json (doneBy k acts) = []

omit [DecidableEq τ] in
/-- When a script succeeds, the snapshots of those before it are written. -/
def SavesFirst (json : StateCodec τ) (acts : List (κ × Act (Op τ) (Ans τ))) : Prop :=
  ∀ before k act after, acts = before ++ (k, act) :: after → isCommit act = true →
    AllSaved json before

def isFailedSnapshot : Act (Op τ) (Ans τ) → Bool
  | ⟨.createSnapshot _ _, .error _⟩ => true
  | ⟨.finalizeFinishedGame _ _, .error _⟩ => true
  | _ => false

/-- Every snapshot write succeeds. -/
def SnapshotsSucceed (acts : List (κ × Act (Op τ) (Ans τ))) : Prop :=
  ∀ act ∈ acts, isFailedSnapshot act.2 = false

/-- The clock goes on from one operation to the next. -/
def ClockGoesOn (rows : List GameSnapshotRow) (sched : List (κ × Ambient)) : Prop :=
  sched.Pairwise (fun i j => i.2.now < j.2.now) ∧
    ∀ i ∈ sched, ∀ r ∈ rows, r.createdAt < i.2.now

/-- The stored state is good, its snapshot is the latest row once all are written, and all rows are
of the past. -/
structure SavedSoFar (json : StateCodec τ) (start : Stores τ) (sched : List (κ × Ambient))
    (acts : List (κ × Act (Op τ) (Ans τ))) (stores : Stores τ) (s : GameEngineState) : Prop where
  stored : stores.redis.bind json.parse = some s
  valid : Valid s
  seated : Seated s
  awaits : AwaitsSnapshot stores.snapshots s
  owed : ∀ k, ∀ written ∈ owedSnapshots json (doneBy k acts), written = (snapshotTypeOf s, s)
  held : HoldsSnapshot stores.snapshots s ∨ ¬ AllSaved json acts
  past : ∀ r ∈ stores.snapshots, r.createdAt ∈ start.snapshots.map GameSnapshotRow.createdAt ∨
    r.createdAt ∈ sched.map fun i => i.2.now

theorem createSnapshot_times {rows : List GameSnapshotRow} {snapshotType : GameSnapshotType}
    {state : GameEngineState} {now : Nat} :
    ∀ r ∈ createSnapshot rows snapshotType state now,
      (∃ q ∈ rows, r.createdAt = q.createdAt) ∨ r.createdAt = now := by
  intro r hr
  unfold createSnapshot at hr
  split at hr
  · obtain ⟨q, hq, rfl⟩ := List.mem_map.mp hr
    refine .inl ⟨q, hq, ?_⟩
    split <;> rfl
  · rcases List.mem_append.mp hr with hr | hr
    · exact .inl ⟨r, hr, rfl⟩
    · cases List.mem_singleton.mp hr
      exact .inr rfl

omit [DecidableEq τ] [DecidableEq κ] in
theorem ClockGoesOn.after {rows : List GameSnapshotRow} {i : κ × Ambient}
    (h : ClockGoesOn start.snapshots (sched ++ [i]))
    (hpast : ∀ r ∈ rows, r.createdAt ∈ start.snapshots.map GameSnapshotRow.createdAt ∨
      r.createdAt ∈ sched.map fun i => i.2.now) : ∀ r ∈ rows, r.createdAt < i.2.now := by
  intro r hr
  obtain ⟨hsched, hstart⟩ := h
  rcases hpast r hr with hold | hnew
  · obtain ⟨q, hq, htime⟩ := List.mem_map.mp hold
    rw [← htime]
    exact hstart i (List.mem_append_right _ (List.mem_singleton.mpr rfl)) q hq
  · obtain ⟨j, hj, htime⟩ := List.mem_map.mp hnew
    rw [← htime]
    exact (List.pairwise_append.mp hsched).2.2 j hj i (List.mem_singleton.mpr rfl)

omit [DecidableEq τ] in
theorem SavesFirst.left {xs ys : List (κ × Act (Op τ) (Ans τ))} (h : SavesFirst json (xs ++ ys)) :
    SavesFirst json xs := by
  rintro before k act after rfl hcommit
  refine h before k act (after ++ ys) ?_ hcommit
  rw [List.append_assoc, List.cons_append]

omit [DecidableEq τ] in
theorem owed_other {j k : κ} (h : k ≠ j) (act : Act (Op τ) (Ans τ)) :
    owedSnapshots json (doneBy j (acts ++ [(k, act)])) = owedSnapshots json (doneBy j acts) := by
  rw [doneBy_append, doneBy_other h, List.append_nil]

omit [DecidableEq τ] in
theorem owed_own (k : κ) (act : Act (Op τ) (Ans τ)) :
    owedSnapshots json (doneBy k (acts ++ [(k, act)])) =
      owedAfter json (owedSnapshots json (doneBy k acts)) act := by
  rw [doneBy_append, doneBy_self, owedSnapshots_append]

theorem exec_snapshot {stores : Stores τ} {o : Op τ} {g : Ambient}
    {written : GameSnapshotType × GameEngineState} (ho : snapshot? o = some written)
    (hsucceed : isFailedSnapshot (⟨o, (exec stores o g).2⟩ : Act (Op τ) (Ans τ)) = false) :
    (exec stores o g).1 =
      { stores with
        snapshots := createSnapshot stores.snapshots written.1 written.2 g.now } := by
  cases hfailure : g.failure with
  | some error =>
    cases o with
    | createSnapshot | finalizeFinishedGame =>
      simp [exec, unlessFailing, hfailure, isFailedSnapshot] at hsucceed
    | _ => cases ho
  | none =>
    cases o with
    | createSnapshot | finalizeFinishedGame =>
      cases ho
      simp [exec, unlessFailing, hfailure]
    | _ => cases ho

theorem SavedSoFar.write {stores : Stores τ} {s : GameEngineState} {i : κ × Ambient}
    (h : SavedSoFar json start sched acts stores s)
    (hclock : ClockGoesOn start.snapshots (sched ++ [i])) {o : Op τ}
    {written : GameSnapshotType × GameEngineState} (ho : snapshot? o = some written)
    (howed : (owedSnapshots json (doneBy i.1 acts)).head? = some written)
    (hsucceed : isFailedSnapshot (⟨o, (exec stores o i.2).2⟩ : Act (Op τ) (Ans τ)) = false) :
    SavedSoFar json start (sched ++ [i]) (acts ++ [(i.1, ⟨o, (exec stores o i.2).2⟩)])
      (exec stores o i.2).1 s := by
  have hwritten : written = (snapshotTypeOf s, s) :=
    h.owed i.1 written (List.mem_of_head? howed)
  have hstores : (exec stores o i.2).1 =
      { stores with
        snapshots := createSnapshot stores.snapshots (snapshotTypeOf s) s i.2.now } := by
    rw [exec_snapshot ho hsucceed, hwritten]
  have hholds := h.awaits.written (hclock.after h.past)
  have hafter : owedSnapshots json (doneBy i.1 (acts ++ [(i.1, ⟨o, (exec stores o i.2).2⟩)])) =
      (owedSnapshots json (doneBy i.1 acts)).tail := by
    rw [owed_own]
    cases o with
    | createSnapshot | finalizeFinishedGame => rfl
    | _ => cases ho
  rw [hstores]
  refine ⟨h.stored, h.valid, h.seated, hholds.toAwaitsSnapshot, ?_, .inl hholds, ?_⟩
  · intro k other hother
    by_cases hk : i.1 = k
    · subst hk
      rw [hafter] at hother
      exact h.owed i.1 other (List.mem_of_mem_tail hother)
    · rw [owed_other hk] at hother
      exact h.owed k other hother
  · intro r hr
    rw [List.map_append]
    rcases createSnapshot_times r hr with ⟨q, hq, htime⟩ | htime
    · rw [htime]
      exact (h.past q hq).imp_right fun hnew => List.mem_append_left _ hnew
    · exact .inr (List.mem_append_right _ (by simp [htime]))

omit [DecidableEq τ] in
/-- A command stores the next state, and owes its snapshots. -/
theorem SavedSoFar.commit {stores : Stores τ} {s : GameEngineState} {i : κ × Ambient}
    (h : SavedSoFar json start sched acts stores s) (hsaved : AllSaved json acts)
    {text next : τ} (hredis : stores.redis = some text)
    (hscript : Attempting json (updaterOf inputs i.1) (progress (doneBy i.1 acts)) text next) :
    ∃ s', SavedSoFar json start (sched ++ [i])
      (acts ++ [(i.1, ⟨.eval text next, (1 : Int)⟩)]) { stores with redis := some next } s' := by
  obtain ⟨ambient, state, s', reply, _, hparse, hupdate, rfl⟩ := hscript
  have hstate : state = s := by
    have hstored := h.stored
    rw [hredis, Option.bind_some, hparse] at hstored
    exact Option.some.inj hstored
  subst hstate
  obtain ⟨result, hupdater⟩ : ∃ result,
      GameCommandsService.updater (inputs i.1) ambient state = .ok (s', result) := by
    have hmapped : (GameCommandsService.updater (inputs i.1) ambient state).map _ =
        .ok (s', reply) := hupdate
    cases hcase : GameCommandsService.updater (inputs i.1) ambient state with
    | error error =>
      rw [hcase] at hmapped
      cases hmapped
    | ok made =>
      rw [hcase] at hmapped
      cases hmapped
      exact ⟨made.2, rfl⟩
  have hlater : LaterInGame state s' := updated_later h.valid h.seated hupdater
  have howed : owedSnapshots json (doneBy i.1 (acts ++
      [(i.1, ⟨.eval text (json.stringify s'), (1 : Int)⟩)])) = snapshotsOf s' := by
    rw [owed_own]
    show ((json.parse (json.stringify s')).map snapshotsOf).getD [] = _
    rw [json.parse_stringify]
    rfl
  refine ⟨s', json.parse_stringify s', updated_valid h.valid hupdater,
    updated_seated h.valid h.seated hupdater, h.awaits.later hlater, ?_, .inr ?_, ?_⟩
  · intro k written hwritten
    by_cases hk : i.1 = k
    · subst hk
      rw [howed, snapshotsOf] at hwritten
      rcases List.mem_cons.mp hwritten with rfl | hmore
      · rfl
      · split at hmore
        · rename_i hfinished
          rw [List.mem_singleton.mp hmore, snapshotTypeOf, if_pos (.inl hfinished)]
        · cases hmore
    · rw [owed_other hk, hsaved k] at hwritten
      cases hwritten
  · intro hall
    rw [AllSaved] at hall
    cases howed.symm.trans (hall i.1)
  · intro r hr
    rw [List.map_append]
    exact (h.past r hr).imp_right fun hnew => List.mem_append_left _ hnew

omit [DecidableEq τ] in
theorem SavedSoFar.quiet {stores stores' : Stores τ} {s : GameEngineState} {i : κ × Ambient}
    (h : SavedSoFar json start sched acts stores s) (hredis : stores'.redis = stores.redis)
    (hsnapshots : stores'.snapshots = stores.snapshots) {k : κ} {act : Act (Op τ) (Ans τ)}
    (howed : owedAfter json (owedSnapshots json (doneBy k acts)) act =
      owedSnapshots json (doneBy k acts)) :
    SavedSoFar json start (sched ++ [i]) (acts ++ [(k, act)]) stores' s := by
  have hsame : ∀ j, owedSnapshots json (doneBy j (acts ++ [(k, act)])) =
      owedSnapshots json (doneBy j acts) := by
    intro j
    by_cases hj : k = j
    · subst hj
      rw [owed_own, howed]
    · exact owed_other hj act
  refine ⟨by rw [hredis]; exact h.stored, h.valid, h.seated, by rw [hsnapshots]; exact h.awaits,
    ?_, ?_, ?_⟩
  · intro j written hwritten
    rw [hsame] at hwritten
    exact h.owed j written hwritten
  · rw [hsnapshots]
    refine h.held.imp_right fun hnot hall => hnot fun j => ?_
    rw [← hsame]
    exact hall j
  · intro r hr
    rw [hsnapshots] at hr
    rw [List.map_append]
    exact (h.past r hr).imp_right fun hnew => List.mem_append_left _ hnew

theorem quiet_op {stores : Stores τ} {o : Op τ} {g : Ambient} (hnone : snapshot? o = none)
    (hcommit : isCommit (⟨o, (exec stores o g).2⟩ : Act (Op τ) (Ans τ)) = false)
    (owed : List (GameSnapshotType × GameEngineState)) :
    (exec stores o g).1.snapshots = stores.snapshots ∧
      owedAfter json owed ⟨o, (exec stores o g).2⟩ = owed := by
  cases o with
  | get | set | ambient => exact ⟨rfl, rfl⟩
  | eval text next =>
    refine ⟨rfl, ?_⟩
    have hwritten : hasWritten (exec stores (.eval text next) g).2 = false := hcommit
    show (if hasWritten (exec stores (.eval text next) g).2 then _ else _) = _
    rw [hwritten]
    rfl
  | findLatestByGameId | appendEvents =>
    refine ⟨?_, rfl⟩
    unfold exec unlessFailing
    cases g.failure <;> rfl
  | createSnapshot | finalizeFinishedGame => cases hnone

theorem exists_savedSoFar
    (h : Interleaved exec (startedCommands json inputs start) sched acts c')
    (hset : NoWriteBack acts) (hsucceed : SnapshotsSucceed acts) (hfirst : SavesFirst json acts)
    (hclock : ClockGoesOn start.snapshots sched) {s₀ : GameEngineState}
    (hstored : stored json start = some s₀) (hv : Valid s₀) (hs : Seated s₀)
    (hrows : HoldsSnapshot start.snapshots s₀) :
    ∃ s, SavedSoFar json start sched acts c'.world s := by
  induction h with
  | refl =>
    refine ⟨s₀, hstored, hv, hs, hrows.toAwaitsSnapshot, ?_, .inl hrows, ?_⟩
    · intro k written hwritten
      cases hwritten
    · exact fun r hr => .inl (List.mem_map_of_mem hr)
  | @tail t u sched acts i out hrun hlast ih =>
    obtain ⟨o, rfl, hworld, hmay⟩ := step_keeps hrun (fun k => snapshots_run json (inputs k)) hlast
    have hsched : ClockGoesOn start.snapshots sched :=
      ⟨(List.pairwise_append.mp hclock.1).1, fun j hj => hclock.2 j (List.mem_append_left _ hj)⟩
    obtain ⟨s, hsaved⟩ := ih hset.left (fun act hact => hsucceed act (List.mem_append_left _ hact))
      hfirst.left hsched
    rw [hworld]
    cases hsnapshot : snapshot? o with
    | some written =>
      exact ⟨s, hsaved.write hclock hsnapshot (hmay.write written hsnapshot)
        (hsucceed _ (List.mem_append_right _ (List.mem_singleton.mpr rfl)))⟩
    | none =>
      rcases exec_redis t.world o i.2 with ⟨text, next, hact, hbefore, hafter⟩ | ⟨value, ho, _⟩ |
        ⟨hquiet, _, hredis⟩
      · obtain rfl : o = .eval text next := congrArg Sigma.fst hact
        have hall : AllSaved json acts := by
          refine hfirst acts i.1 _ [] rfl ?_
          rw [hact]
          rfl
        have hstores : (exec t.world (.eval text next) i.2).1 =
            { t.world with redis := some next } := by
          rw [← hafter]
          rfl
        rw [hact, hstores]
        exact hsaved.commit hall hbefore (hmay.script text next rfl).2
      · exact absurd ho (hset (i.1, ⟨o, (exec t.world o i.2).2⟩) (by simp) value)
      · obtain ⟨hsnapshots, howed⟩ := quiet_op hsnapshot hquiet
          (owedSnapshots json (doneBy i.1 acts))
        exact ⟨s, hsaved.quiet hredis hsnapshots howed⟩

omit [DecidableEq τ] in
theorem owed_of_not_committed {k : κ} (h : k ∉ committed acts) :
    owedSnapshots json (doneBy k acts) = [] := by
  induction acts using List.reverseRecOn with
  | nil => rfl
  | append_singleton acts act ih =>
    obtain ⟨j, act⟩ := act
    rw [committed_append, List.mem_append, not_or] at h
    by_cases hj : j = k
    · subst hj
      rw [owed_own, ih h.1]
      obtain ⟨o, answer⟩ := act
      cases o with
      | eval text next =>
        have hwritten : hasWritten answer = false := by
          refine Bool.eq_false_iff.mpr fun hwritten => h.2 ?_
          simp [committed, scripts, script?, hwritten]
        show (if hasWritten answer then _ else _) = _
        rw [hwritten]
        rfl
      | _ => rfl
    · rw [owed_other hj]
      exact ih h.1

/-- In every interleaving of commands whose snapshots are written before the next script succeeds:
once all that have committed have ended, the latest snapshot is of the stored state. -/
theorem latestSnapshot_fresh
    (h : Interleaved exec (startedCommands json inputs start) sched acts c')
    (hset : NoWriteBack acts) (hsucceed : SnapshotsSucceed acts) (hfirst : SavesFirst json acts)
    (hclock : ClockGoesOn start.snapshots sched) {s₀ : GameEngineState}
    (hstored : stored json start = some s₀) (hv : Valid s₀) (hs : Seated s₀)
    (hrows : HoldsSnapshot start.snapshots s₀)
    (hended : ∀ k ∈ committed acts, ∀ o next, c'.procs k ≠ .op o next) :
    ∃ s, stored json c'.world = some s ∧
      (findLatestByGameId c'.world.snapshots).map GameSnapshotRow.state = some s := by
  obtain ⟨s, hsaved⟩ := exists_savedSoFar h hset hsucceed hfirst hclock hstored hv hs hrows
  have hall : AllSaved json acts := by
    intro k
    by_cases hk : k ∈ committed acts
    · have hpost := interleaved_keeps (fun k => SnapshotsNext json (updaterOf inputs k))
        (fun k past _ => owedSnapshots json past = []) h (fun k => snapshots_run json (inputs k)) k
      cases hproc : c'.procs k with
      | ret reply =>
        rw [hproc] at hpost
        exact hpost
      | fail error =>
        rw [hproc] at hpost
        exact hpost
      | op o next => exact absurd hproc (hended k hk o next)
    · exact owed_of_not_committed hk
  obtain ⟨row, hlatest, hstate⟩ := (hsaved.held.resolve_right (not_not.mpr hall)).latest
  refine ⟨s, hsaved.stored, ?_⟩
  rw [hlatest.found, Option.map_some, hstate]

end Interleavings

/-! ## Two commands -/

section Games

theorem holdsSnapshot_start (s : GameEngineState) (time : Nat) :
    HoldsSnapshot [⟨.start, s.turnNumber, s, time⟩] s := by
  refine ⟨⟨?_, ?_, ?_, ?_⟩, _, ⟨List.mem_singleton.mpr rfl, ?_⟩, rfl⟩
  · intro r hr q hq _ _
    rw [List.mem_singleton.mp hr, List.mem_singleton.mp hq]
  · intro r hr
    rw [List.mem_singleton.mp hr]
  · intro r hr htype
    rw [List.mem_singleton.mp hr] at htype
    rcases snapshotTypeOf_cases s with hturn | hfinal
    · cases htype.trans hturn
    · cases htype.trans hfinal
  · intro _ r hr
    rw [List.mem_singleton.mp hr]
    change GameSnapshotType.start ≠ .final
    decide
  · exact fun r hr => .inl (List.mem_singleton.mp hr)

/-- The stores of a game that has just started, with its first snapshot. -/
def savedStores (input : CreateInitialGameStateInput) : Stores GameEngineState where
  redis := (createInitialGameState atFirst.engine input).toOption
  snapshots := (createInitialGameState atFirst.engine input).toOption.toList.map fun state =>
    ⟨.start, state.turnNumber, state, 0⟩
  eventLog := []

/-- One operation at a time, and time goes on. -/
def ticking (ks : List Bool) : List (Bool × Ambient) :=
  (ks.zipIdx 1).map fun turn => (turn.1, { atFirst with now := turn.2 })

def isOver {Op : Type} {Ans : Op → Type} {ε α : Type} : Proc Op Ans ε α → Bool
  | .op _ _ => false
  | _ => true

/-- The snapshots are written before the next script. -/
def savesFirst (acts : List (Bool × Act (Op GameEngineState) (Ans GameEngineState))) : Bool :=
  (List.range acts.length).all fun i => (acts[i]?).all fun act =>
    !isCommit act.2 || ((owedSnapshots plainTexts (doneBy false (acts.take i))).isEmpty &&
      (owedSnapshots plainTexts (doneBy true (acts.take i))).isEmpty)

theorem savesFirst_of_test {acts : List (Bool × Act (Op GameEngineState) (Ans GameEngineState))}
    (h : savesFirst acts = true) : SavesFirst plainTexts acts := by
  rintro before k act after rfl hcommit
  have htest := List.all_eq_true.mp h before.length (List.mem_range.mpr (by simp))
  rw [List.getElem?_append_right (le_refl _), Nat.sub_self, List.getElem?_cons_zero,
    Option.all_some, List.take_left, hcommit, Bool.not_true, Bool.false_or,
    Bool.and_eq_true_iff] at htest
  intro j
  cases j with
  | false => exact List.isEmpty_iff.mp htest.1
  | true => exact List.isEmpty_iff.mp htest.2

theorem ended_of_test {c' : Config Bool (Stores GameEngineState) (Op GameEngineState)
      (Ans GameEngineState) ServiceError Reply}
    (h : (isOver (c'.procs false) && isOver (c'.procs true)) = true) (k : Bool)
    (o : Op GameEngineState) (next : Ans GameEngineState o →
      Proc (Op GameEngineState) (Ans GameEngineState) ServiceError Reply) :
    c'.procs k ≠ .op o next := by
  intro hop
  obtain ⟨hfalse, htrue⟩ := Bool.and_eq_true_iff.mp h
  cases k with
  | false =>
    rw [hop] at hfalse
    cases hfalse
  | true =>
    rw [hop] at htrue
    cases htrue

theorem savedStores_started : ∃ s₀, stored plainTexts (savedStores threePlayers) = some s₀ ∧
    Valid s₀ ∧ Seated s₀ ∧ HoldsSnapshot (savedStores threePlayers).snapshots s₀ := by
  obtain ⟨s₀, hs₀⟩ : ∃ s₀, createInitialGameState atFirst.engine threePlayers = .ok s₀ :=
    ⟨_, rfl⟩
  have hredis : (createInitialGameState atFirst.engine threePlayers).toOption = some s₀ := by
    rw [hs₀]
    rfl
  refine ⟨s₀, ?_, createInitialGameState_valid threePlayers_valid hs₀,
    (createInitialGameState_seated threePlayers_valid hs₀).1, ?_⟩
  · rw [stored, savedStores, hredis]
    rfl
  · rw [savedStores, hredis]
    exact holdsSnapshot_start s₀ 0

theorem ticking_goesOn {ks : List Bool}
    (h : (ticking ks).Pairwise fun i j => i.2.now < j.2.now)
    (hpositive : ∀ i ∈ ticking ks, 0 < i.2.now) :
    ClockGoesOn (savedStores threePlayers).snapshots (ticking ks) := by
  refine ⟨h, fun i hi r hr => ?_⟩
  obtain ⟨state, _, rfl⟩ := List.mem_map.mp hr
  exact hpositive i hi

/-- The first player rolls and buys, one command after the other. -/
theorem rollAndBuy_saved : ∃ sched acts c' s,
    Interleaved exec (startedCommands plainTexts rollAndBuy (savedStores threePlayers)) sched acts
      c' ∧
    committed acts = [false, true] ∧ stored plainTexts c'.world = some s ∧
    (findLatestByGameId c'.world.snapshots).map GameSnapshotRow.state = some s := by
  obtain ⟨⟨c', acts⟩, hplay, htest⟩ := (Option.any_eq_true _ _).mp (by decide +kernel :
    (Process.play exec (startedCommands plainTexts rollAndBuy (savedStores threePlayers))
      (ticking [false, false, false, false, false, true, true, true, true, true])).any
        (fun last => (last.2.all fun act => !isWriteBack act.2.1) &&
          ((last.2.all fun act => !isFailedSnapshot act.2) && (savesFirst last.2 &&
            ((isOver (last.1.procs false) && isOver (last.1.procs true)) &&
              committed last.2 = [false, true])))) = true)
  obtain ⟨hset, hrest⟩ := Bool.and_eq_true_iff.mp htest
  obtain ⟨hsucceed, hrest⟩ := Bool.and_eq_true_iff.mp hrest
  obtain ⟨hfirst, hrest⟩ := Bool.and_eq_true_iff.mp hrest
  obtain ⟨hover, horder⟩ := Bool.and_eq_true_iff.mp hrest
  obtain ⟨s₀, hstored, hv, hs, hrows⟩ := savedStores_started
  have hrun := play_interleaved hplay
  have hsnapshots : SnapshotsSucceed acts := by
    intro act hact
    simpa using List.all_eq_true.mp hsucceed act hact
  obtain ⟨s, hfinal, hfound⟩ := latestSnapshot_fresh hrun (noWriteBack_of_all hset) hsnapshots
    (savesFirst_of_test hfirst) (ticking_goesOn (by decide) (by decide)) hstored hv hs hrows
    fun k _ o next => ended_of_test hover k o next
  exact ⟨_, acts, c', s, hrun, of_decide_eq_true horder, hfinal, hfound⟩

/-- The snapshot of the roll comes after that of the purchase and is written over it. -/
theorem rollAndBuy_stale : ∃ sched acts c',
    Interleaved exec (startedCommands plainTexts rollAndBuy (savedStores threePlayers)) sched acts
      c' ∧
    NoWriteBack acts ∧ SnapshotsSucceed acts ∧
    ClockGoesOn (savedStores threePlayers).snapshots sched ∧ committed acts = [false, true] ∧
    (∀ k o next, c'.procs k ≠ .op o next) ∧
    (findLatestByGameId c'.world.snapshots).map GameSnapshotRow.state ≠
      stored plainTexts c'.world := by
  obtain ⟨⟨c', acts⟩, hplay, htest⟩ := (Option.any_eq_true _ _).mp (by decide +kernel :
    (Process.play exec (startedCommands plainTexts rollAndBuy (savedStores threePlayers))
      (ticking [false, false, false, false, true, true, true, true, true, false])).any
        (fun last => (last.2.all fun act => !isWriteBack act.2.1) &&
          ((last.2.all fun act => !isFailedSnapshot act.2) &&
            ((isOver (last.1.procs false) && isOver (last.1.procs true)) &&
              (committed last.2 = [false, true] ∧
                (findLatestByGameId last.1.world.snapshots).map GameSnapshotRow.state ≠
                  stored plainTexts last.1.world)))) = true)
  obtain ⟨hset, hrest⟩ := Bool.and_eq_true_iff.mp htest
  obtain ⟨hsucceed, hrest⟩ := Bool.and_eq_true_iff.mp hrest
  obtain ⟨hover, hrest⟩ := Bool.and_eq_true_iff.mp hrest
  obtain ⟨horder, hstale⟩ := of_decide_eq_true hrest
  have hsnapshots : SnapshotsSucceed acts := by
    intro act hact
    simpa using List.all_eq_true.mp hsucceed act hact
  exact ⟨_, acts, c', play_interleaved hplay, noWriteBack_of_all hset, hsnapshots,
    ticking_goesOn (by decide) (by decide), horder, ended_of_test hover, hstale⟩

end Games

end Rules
end LivePoly
